import L0vi0x.Chain.ExactValuation

/-! How the economics depends on the spelling of the addresses. The deltas are computed for
raw keys and stored under lower-case ones, and declared decimals are looked up as spelled. -/
namespace L0vi0x.Chain.Economics

open L0vi0x.Python

def lowerKeys {α : Type} (mapping : List (String × α)) : List (String × α) :=
  mapping.map fun p => (lower p.1, p.2)

/-- The inputs with every asset in lower case. -/
def Inputs.lowered {P : Type} (I : Inputs P) : Inputs P :=
  { I with
    tokenBefore := lowerKeys I.tokenBefore
    tokenAfter := lowerKeys I.tokenAfter
    tokenDecimals := lowerKeys I.tokenDecimals
    prices := lowerKeys I.prices }

/-- No mapping has two spellings of one asset. -/
structure DistinctKeys {P : Type} (I : Inputs P) : Prop where
  before : (I.tokenBefore.map fun p => lower p.1).Nodup
  after : (I.tokenAfter.map fun p => lower p.1).Nodup
  decimals : (I.tokenDecimals.map fun p => lower p.1).Nodup
  prices : (I.prices.map fun p => lower p.1).Nodup

/-- The amount that a mapping holds of an asset, over all spellings. -/
def amountOf (mapping : List (String × Int)) (asset : String) : Int :=
  ((mapping.filter fun p => lower p.1 = asset).map (·.2)).sum

/-- Equal reports, whatever the order of the flags and of the deltas. -/
structure SameReport (r s : Report ℚ) : Prop where
  nativeDelta : r.nativeDeltaWei = s.nativeDeltaWei
  tokenDeltas : r.tokenDeltas.Perm s.tokenDeltas
  gross : r.attackerGrossUsd = s.attackerGrossUsd
  gasCost : r.gasCostNativeWei = s.gasCostNativeWei
  gasUsd : r.gasCostUsd = s.gasCostUsd
  net : r.attackerNetUsd = s.attackerNetUsd
  capital : r.capitalRequiredWei = s.capitalRequiredWei
  protocol : r.protocolAssetsDeltaWei = s.protocolAssetsDeltaWei
  sensitivity : r.sensitivity = s.sensitivity
  scenarios : r.sensitivityScenarios = s.sensitivityScenarios
  flags : r.realismFlags.Perm s.realismFlags
  sources : r.priceSources = s.priceSources

/-- Two measurements that return the same report, or both raise. -/
def SameOutcome : Py (Report ℚ) → Py (Report ℚ) → Prop
  | .ok r, .ok s => SameReport r s
  | .error _, .error _ => True
  | _, _ => False

/-- A key that is spelled one way before and another way after has no amount. -/
def SpelledAlike (I : Inputs ExactPrice) : Prop :=
  ∀ p ∈ I.tokenBefore, ∀ q ∈ I.tokenAfter, lower p.1 = lower q.1 → p.1 ≠ q.1 →
    p.2 = 0 ∧ q.2 = 0

/-- Declared decimals are those of the price, in any spelling. -/
def DecimalsAgree (I : Inputs ExactPrice) : Prop :=
  ∀ p ∈ I.tokenDecimals, ∀ q ∈ I.prices, lower p.1 = lower q.1 → q.2.decimals = p.2

/-- The economics of the inputs is that of their lower-case spelling. -/
structure ReadInAnyCase (I : Inputs ExactPrice) : Prop where
  outcome : ∀ keys others, Lists keys I → Lists others I.lowered →
    SameOutcome (measureBase exact I keys) (measureBase exact I.lowered others)
  deltas : ∀ keys r, Lists keys I → measureBase exact I keys = .ok r → ∀ asset delta,
    (asset, delta) ∈ r.tokenDeltas ↔
      Held I asset ∧ delta = amountOf I.tokenAfter asset - amountOf I.tokenBefore asset
  decimals : ¬ DecimalsAgree I → ∀ keys, Lists keys I → ¬ returns (measureBase exact I keys)

section Lookups

variable {α : Type} {mapping : List (String × α)}

/-- Where no two spellings of one key are in a mapping, two entries of one key are the same. -/
theorem lower_nodup (h : (mapping.map fun p => lower p.1).Nodup) {p q : String × α}
    (hp : p ∈ mapping) (hq : q ∈ mapping) (hKey : lower p.1 = lower q.1) : p = q :=
  List.inj_on_of_nodup_map h hp hq hKey

/-- Keys that are distinct in lower case are distinct. -/
theorem nodup_of_lower (h : (mapping.map fun p => lower p.1).Nodup) :
    (mapping.map (·.1)).Nodup := by
  rw [← Function.comp_def lower (fun p : String × α => p.1), ← List.map_map] at h
  exact h.of_map lower

theorem lowerKeys_keys : (lowerKeys mapping).map (fun p => lower p.1) =
    mapping.map fun p => lower p.1 := by
  rw [lowerKeys, List.map_map]
  congr 1
  funext p
  exact lower_lower p.1

/-- A search for an asset in lower case finds the same in any spelling. -/
theorem find_lowerKeys (mapping : List (String × α)) (asset : String) :
    ((lowerKeys mapping).find? fun p => lower p.1 = asset).map (·.2) =
      (mapping.find? fun p => lower p.1 = asset).map (·.2) := by
  rw [lowerKeys, List.find?_map, Option.map_map]
  simp only [Function.comp_def, lower_lower]

/-- The lower-case mapping is looked up in any spelling. -/
theorem get?_lowerKeys {asset : String} (hLower : lower asset = asset)
    (h : (mapping.map fun p => lower p.1).Nodup) {value : α} :
    Mapping.get? asset (lowerKeys mapping) = some value ↔
      ∃ p ∈ mapping, lower p.1 = asset ∧ p.2 = value := by
  constructor
  · intro hGet
    obtain ⟨p, hp, hEq⟩ := List.mem_map.mp (Mapping.mem_of_get? hGet)
    obtain ⟨hKey, rfl⟩ := Prod.mk.inj hEq
    exact ⟨p, hp, hKey, rfl⟩
  · rintro ⟨p, hp, rfl, rfl⟩
    refine Mapping.get?_of_mem ?_ (List.mem_map.mpr ⟨p, hp, rfl⟩)
    rw [lowerKeys, List.map_map]
    exact h

/-- Where no two spellings of one key are in a mapping, the amount of a key is that of its entry. -/
theorem amountOf_of_mem {mapping : List (String × Int)} {p : String × Int}
    (h : (mapping.map fun p => lower p.1).Nodup) (hp : p ∈ mapping) :
    amountOf mapping (lower p.1) = p.2 := by
  induction mapping with
  | nil => cases hp
  | cons q rest ih =>
      rw [List.map_cons, List.nodup_cons] at h
      rcases List.mem_cons.mp hp with rfl | hp
      · have hNone : rest.filter (fun q => lower q.1 = lower p.1) = [] := by
          refine List.filter_eq_nil_iff.mpr fun q hq hKey => h.1 ?_
          exact List.mem_map.mpr ⟨q, hq, of_decide_eq_true hKey⟩
        rw [amountOf, List.filter_cons_of_pos (by simp), hNone]
        simp
      · have hNe : lower q.1 ≠ lower p.1 := fun hKey => h.1 (List.mem_map.mpr ⟨p, hp, hKey.symm⟩)
        rw [amountOf, List.filter_cons_of_neg (by simpa using hNe)]
        exact ih h.2 hp

/-- What a mapping does not hold in any spelling has no amount. -/
theorem amountOf_of_not_held {mapping : List (String × Int)} {asset : String}
    (h : ∀ p ∈ mapping, lower p.1 ≠ asset) : amountOf mapping asset = 0 := by
  have hNone : mapping.filter (fun p => lower p.1 = asset) = [] :=
    List.filter_eq_nil_iff.mpr fun p hp hKey => h p hp (of_decide_eq_true hKey)
  rw [amountOf, hNone]
  rfl

theorem amountOf_lowerKeys (mapping : List (String × Int)) (asset : String) :
    amountOf (lowerKeys mapping) asset = amountOf mapping asset := by
  rw [amountOf, amountOf, lowerKeys, List.filter_map, List.map_map]
  simp only [Function.comp_def, lower_lower]

end Lookups

section Deltas

variable {I : Inputs ExactPrice}

theorem held_lower {asset : String} (h : Held I asset) : lower asset = asset := by
  obtain ⟨p, -, rfl⟩ := h
  exact lower_lower p.1

/-- Every set of raw keys can be listed. -/
theorem lists_dedup (I : Inputs ExactPrice) :
    Lists ((I.tokenBefore ++ I.tokenAfter).map (·.1)).dedup I :=
  ⟨List.nodup_dedup _, fun _ => List.mem_dedup⟩

/-- Any raw key can come last in the set. -/
theorem lists_last {k : String} (h : k ∈ (I.tokenBefore ++ I.tokenAfter).map (·.1)) :
    Lists ((((I.tokenBefore ++ I.tokenAfter).map (·.1)).dedup.erase k) ++ [k]) I := by
  have hNodup := List.nodup_dedup ((I.tokenBefore ++ I.tokenAfter).map (·.1))
  refine ⟨?_, fun key => ?_⟩
  · rw [List.nodup_append]
    refine ⟨hNodup.erase k, List.nodup_singleton k, fun key hKey other hOther hEq => ?_⟩
    rw [hEq, List.mem_singleton.mp hOther, hNodup.mem_erase_iff] at hKey
    exact hKey.1 rfl
  · rw [List.mem_append, hNodup.mem_erase_iff, List.mem_dedup, List.mem_singleton]
    constructor
    · rintro (⟨-, hMem⟩ | rfl)
      · exact hMem
      · exact h
    · intro hMem
      by_cases hEq : key = k
      · exact .inr hEq
      · exact .inl ⟨hEq, hMem⟩

/-- The amount under a raw key is that of the asset, where no other spelling holds any. -/
theorem get?_eq_amountOf {mapping : List (String × Int)} {k : String}
    (h : (mapping.map fun p => lower p.1).Nodup)
    (hOther : ∀ p ∈ mapping, lower p.1 = lower k → p.1 ≠ k → p.2 = 0) :
    (Mapping.get? k mapping).getD 0 = amountOf mapping (lower k) := by
  cases hGet : Mapping.get? k mapping with
  | some value => exact (amountOf_of_mem h (Mapping.mem_of_get? hGet)).symm
  | none =>
      have hNe : ∀ p ∈ mapping, p.1 ≠ k := by
        intro p hp hEq
        have hSome := Mapping.get?_of_mem (nodup_of_lower h) (hEq ▸ hp : (k, p.2) ∈ mapping)
        rw [hGet] at hSome
        cases hSome
      by_cases hHeld : ∃ p ∈ mapping, lower p.1 = lower k
      · obtain ⟨p, hp, hKey⟩ := hHeld
        rw [← hKey, amountOf_of_mem h hp, hOther p hp hKey (hNe p hp)]
        rfl
      · rw [amountOf_of_not_held fun p hp hKey => hHeld ⟨p, hp, hKey⟩]
        rfl

/-- Where keys are spelled alike, a delta is the difference of the amounts over all spellings. -/
theorem tokenDelta_eq (hDistinct : DistinctKeys I) (hAlike : SpelledAlike I) {k : String}
    (hk : k ∈ (I.tokenBefore ++ I.tokenAfter).map (·.1)) :
    tokenDelta I k =
      (lower k, amountOf I.tokenAfter (lower k) - amountOf I.tokenBefore (lower k)) := by
  obtain ⟨own, hOwn, rfl⟩ := List.mem_map.mp hk
  have hAfter : ∀ q ∈ I.tokenAfter, lower q.1 = lower own.1 → q.1 ≠ own.1 → q.2 = 0 := by
    intro q hq hKey hNe
    rcases List.mem_append.mp hOwn with hBefore | hSame
    · exact (hAlike own hBefore q hq hKey.symm hNe.symm).2
    · exact absurd (congrArg Prod.fst (lower_nodup hDistinct.after hq hSame hKey)) hNe
  have hBefore : ∀ p ∈ I.tokenBefore, lower p.1 = lower own.1 → p.1 ≠ own.1 → p.2 = 0 := by
    intro p hp hKey hNe
    rcases List.mem_append.mp hOwn with hSame | hAfter
    · exact absurd (congrArg Prod.fst (lower_nodup hDistinct.before hp hSame hKey)) hNe
    · exact (hAlike p hp own hAfter hKey hNe).1
  rw [tokenDelta, get?_eq_amountOf hDistinct.after hAfter,
    get?_eq_amountOf hDistinct.before hBefore]

/-- The deltas of assets that are spelled alike are their changes. -/
theorem mem_tokenDeltas (hDistinct : DistinctKeys I) (hAlike : SpelledAlike I)
    {keys : List String} (hKeys : Lists keys I) {asset : String} {delta : Int} :
    (asset, delta) ∈ tokenDeltas I keys ↔
      Held I asset ∧ delta = amountOf I.tokenAfter asset - amountOf I.tokenBefore asset := by
  have hItem := fun k (hk : k ∈ keys) => tokenDelta_eq hDistinct hAlike ((hKeys.mem k).mp hk)
  rw [tokenDeltas, Mapping.mem_collect]
  · constructor
    · rintro ⟨k, hk, hEq⟩
      rw [hItem k hk] at hEq
      obtain ⟨rfl, rfl⟩ := Prod.mk.inj hEq
      obtain ⟨p, hp, rfl⟩ := List.mem_map.mp ((hKeys.mem k).mp hk)
      exact ⟨⟨p, hp, rfl⟩, rfl⟩
    · rintro ⟨⟨p, hp, rfl⟩, rfl⟩
      have hk : p.1 ∈ keys := (hKeys.mem p.1).mpr (List.mem_map.mpr ⟨p, hp, rfl⟩)
      exact ⟨p.1, hk, hItem p.1 hk⟩
  · intro x hx y hy hKey
    have hLower : lower x = lower y := hKey
    rw [hItem x hx, hItem y hy, hLower]

theorem nodup_tokenDeltas (I : Inputs ExactPrice) (keys : List String) :
    (tokenDeltas I keys).Nodup := (Mapping.nodup_collect _ _).of_map _

end Deltas

section Lowered

variable {I : Inputs ExactPrice}

/-- Distinct spellings stay distinct in lower case. -/
theorem DistinctKeys.lowered (h : DistinctKeys I) : DistinctKeys I.lowered := by
  refine ⟨?_, ?_, ?_, ?_⟩
  · exact lowerKeys_keys.symm ▸ h.before
  · exact lowerKeys_keys.symm ▸ h.after
  · exact lowerKeys_keys.symm ▸ h.decimals
  · exact lowerKeys_keys.symm ▸ h.prices

theorem lowerKeys_lower {α : Type} {mapping : List (String × α)} {p : String × α}
    (h : p ∈ lowerKeys mapping) : lower p.1 = p.1 := by
  obtain ⟨q, -, rfl⟩ := List.mem_map.mp h
  exact lower_lower q.1

theorem spelledAlike_lowered (I : Inputs ExactPrice) : SpelledAlike I.lowered :=
  fun _ hp _ hq hKey hNe =>
    absurd ((lowerKeys_lower hp).symm.trans (hKey.trans (lowerKeys_lower hq))) hNe

theorem held_lowered {asset : String} : Held I.lowered asset ↔ Held I asset := by
  have hAppend : I.lowered.tokenBefore ++ I.lowered.tokenAfter =
      lowerKeys (I.tokenBefore ++ I.tokenAfter) := List.map_append.symm
  rw [Held, hAppend]
  constructor
  · rintro ⟨p, hp, rfl⟩
    obtain ⟨q, hq, rfl⟩ := List.mem_map.mp hp
    exact ⟨q, hq, (lower_lower q.1).symm⟩
  · rintro ⟨p, hp, rfl⟩
    exact ⟨_, List.mem_map.mpr ⟨p, hp, rfl⟩, lower_lower p.1⟩

theorem priceOf_lowered (asset : String) : priceOf I.lowered asset = priceOf I asset :=
  find_lowerKeys I.prices asset

/-- In lower case, decimals that are declared in any spelling are compared. -/
theorem mismatched_lowered (h : DistinctKeys I) {asset : String} (hLower : lower asset = asset) :
    Mismatched I.lowered asset ↔ ∃ price, priceOf I asset = some price ∧
      ∃ p ∈ I.tokenDecimals, lower p.1 = asset ∧ p.2 ≠ price.decimals := by
  rw [Mismatched, priceOf_lowered]
  constructor
  · rintro ⟨price, declared, hPrice, hDeclared, hNe⟩
    obtain ⟨p, hp, hKey, rfl⟩ := (get?_lowerKeys hLower h.decimals).mp hDeclared
    exact ⟨price, hPrice, p, hp, hKey, hNe⟩
  · rintro ⟨price, hPrice, p, hp, hKey, hNe⟩
    exact ⟨price, p.2, hPrice, (get?_lowerKeys hLower h.decimals).mpr ⟨p, hp, hKey, rfl⟩, hNe⟩

/-- Inputs whose lower-case spelling is accepted are accepted. -/
theorem accepted_of_lowered (hDistinct : DistinctKeys I) (h : Accepted I.lowered) : Accepted I := by
  refine ⟨h.gasUsed, h.gasPrice, h.capital, fun asset hHeld hMismatch => ?_⟩
  obtain ⟨price, declared, hPrice, hDeclared, hNe⟩ := hMismatch
  refine h.decimals asset (held_lowered.mpr hHeld) ?_
  exact (mismatched_lowered hDistinct (held_lower hHeld)).mpr
    ⟨price, hPrice, _, Mapping.mem_of_get? hDeclared, held_lower hHeld, hNe⟩

/-- Accepted inputs stay accepted in lower case, where their decimals agree with the prices. -/
theorem accepted_lowered (hDistinct : DistinctKeys I) (h : Accepted I) (hAgree : DecimalsAgree I) :
    Accepted I.lowered := by
  refine ⟨h.gasUsed, h.gasPrice, h.capital, fun asset hHeld hMismatch => ?_⟩
  have hLower := held_lower (held_lowered.mp hHeld)
  obtain ⟨price, hPrice, p, hp, hKey, hNe⟩ := (mismatched_lowered hDistinct hLower).mp hMismatch
  obtain ⟨q, hFind, rfl⟩ := Option.map_eq_some_iff.mp hPrice
  have hFound : lower q.1 = asset := by simpa using List.find?_some hFind
  exact hNe (hAgree p hp q (List.mem_of_find?_eq_some hFind) (hKey.trans hFound.symm)).symm

/-- Lowering the keys changes no balance of an asset. -/
theorem amounts_lowered (asset : String) :
    amountOf I.lowered.tokenAfter asset = amountOf I.tokenAfter asset ∧
      amountOf I.lowered.tokenBefore asset = amountOf I.tokenBefore asset :=
  ⟨amountOf_lowerKeys _ _, amountOf_lowerKeys _ _⟩

end Lowered

section Reports

variable {I : Inputs ExactPrice}

theorem SameReport.symm {r s : Report ℚ} (h : SameReport r s) : SameReport s r :=
  ⟨h.nativeDelta.symm, h.tokenDeltas.symm, h.gross.symm, h.gasCost.symm, h.gasUsd.symm,
    h.net.symm, h.capital.symm, h.protocol.symm, h.sensitivity.symm, h.scenarios.symm,
    h.flags.symm, h.sources.symm⟩

theorem SameReport.trans {r s t : Report ℚ} (h : SameReport r s) (h' : SameReport s t) :
    SameReport r t :=
  ⟨h.nativeDelta.trans h'.nativeDelta, h.tokenDeltas.trans h'.tokenDeltas,
    h.gross.trans h'.gross, h.gasCost.trans h'.gasCost, h.gasUsd.trans h'.gasUsd,
    h.net.trans h'.net, h.capital.trans h'.capital, h.protocol.trans h'.protocol,
    h.sensitivity.trans h'.sensitivity, h.scenarios.trans h'.scenarios, h.flags.trans h'.flags,
    h.sources.trans h'.sources⟩

/-- The order of the values does not matter to their sum. -/
theorem foldl_addValue_perm {values others : List (Option ℚ)} (h : values.Perm others)
    (gross : Option ℚ) : values.foldl addValue gross = others.foldl addValue gross := by
  have hComm : RightCommutative addValue := ⟨by
    intro gross a b
    cases a with
    | none => rfl
    | some a =>
        cases b with
        | none => rfl
        | some b => simp [addValue, add_right_comm]⟩
  exact h.foldl_eq gross

/-- The sorted keys do not depend on their order. -/
theorem sorted_perm {xs ys : List String} (h : xs.Perm ys) :
    xs.dedup.insertionSort (· ≤ ·) = ys.dedup.insertionSort (· ≤ ·) := by
  refine List.Perm.eq_of_pairwise' (List.pairwise_insertionSort _ _)
    (List.pairwise_insertionSort _ _) ?_
  exact ((List.perm_insertionSort _ _).trans h.dedup).trans (List.perm_insertionSort _ _).symm

/-- Reports on the same deltas, in any order, are the same. -/
theorem sameReport_lowered {deltas others : List (String × Int)} (h : deltas.Perm others) :
    SameReport (baseReport I deltas) (baseReport I.lowered others) := by
  have hValue : valueOf I.lowered = valueOf I := by
    funext entry
    rw [valueOf, priceOf_lowered, valueOf]
  have hFlag : flagOf I.lowered = flagOf I := by
    funext entry
    rw [flagOf, priceOf_lowered, flagOf]
  have hSource : sourceOf I.lowered = sourceOf I := by
    funext entry
    rw [sourceOf, priceOf_lowered, sourceOf]
  have hGross : grossOf I deltas = grossOf I.lowered others := by
    rw [grossOf, grossOf, hValue]
    exact foldl_addValue_perm (h.map _) _
  refine ⟨rfl, h, hGross, rfl, rfl, ?_, rfl, rfl, rfl, rfl, ?_, ?_⟩
  · show (grossOf I deltas).map _ = (grossOf I.lowered others).map _
    rw [hGross]
    rfl
  · show (runFlags I ++ deltas.flatMap (flagOf I)).Perm
      (runFlags I ++ others.flatMap (flagOf I.lowered))
    rw [hFlag]
    exact (h.flatMap_right _).append_left _
  · apply sorted_perm
    rw [hSource]
    exact (h.flatMap_right _).append_right _

/-- Two measurements that raise have the same outcome. -/
theorem sameOutcome_of_raises {first second : Py (Report ℚ)} (h : ¬ returns first)
    (h' : ¬ returns second) : SameOutcome first second := by
  cases first with
  | ok r => exact absurd (returns_ok r) h
  | error e =>
      cases second with
      | ok s => exact absurd (returns_ok s) h'
      | error e' => trivial

/-- Two outcomes that are the same as a third are the same. -/
theorem SameOutcome.join {first second common : Py (Report ℚ)} (h : SameOutcome first common)
    (h' : SameOutcome second common) : SameOutcome first second := by
  cases first with
  | ok r =>
      cases common with
      | ok t =>
          cases second with
          | ok s => exact SameReport.trans h (SameReport.symm h')
          | error e => exact h'.elim
      | error e => exact h.elim
  | error e =>
      cases common with
      | ok t => exact h.elim
      | error e' =>
          cases second with
          | ok s => exact h'.elim
          | error e'' => trivial

theorem SameOutcome.returns {first second : Py (Report ℚ)} (h : SameOutcome first second) :
    returns first ↔ Python.returns second := by
  cases first with
  | ok r =>
      cases second with
      | ok s => simp
      | error e => exact h.elim
  | error e =>
      cases second with
      | ok s => exact h.elim
      | error e' => simp

end Reports

section Spelling

variable {I : Inputs ExactPrice}

/-- Where keys are spelled alike and decimals agree, the case of a key does not matter. -/
theorem readInAnyCase_of_alike (hDistinct : DistinctKeys I) (hAlike : SpelledAlike I)
    (hAgree : DecimalsAgree I) : ReadInAnyCase I := by
  refine ⟨fun keys others hKeys hOthers => ?_, fun keys r hKeys hr asset delta => ?_,
    fun hNot => absurd hAgree hNot⟩
  · by_cases hAccepted : Accepted I
    · have hLowered := accepted_lowered hDistinct hAccepted hAgree
      rw [measureBase_ok hKeys hAccepted, measureBase_ok hOthers hLowered]
      refine sameReport_lowered ?_
      refine (List.perm_ext_iff_of_nodup (nodup_tokenDeltas _ _) (nodup_tokenDeltas _ _)).mpr ?_
      intro entry
      rw [mem_tokenDeltas hDistinct hAlike hKeys,
        mem_tokenDeltas hDistinct.lowered (spelledAlike_lowered I) hOthers, held_lowered,
        (amounts_lowered _).1, (amounts_lowered _).2]
    · refine sameOutcome_of_raises (mt (accepted_of_returns hKeys) hAccepted) fun hReturns => ?_
      exact hAccepted (accepted_of_lowered hDistinct (accepted_of_returns hOthers hReturns))
  · rw [measureBase_eq hKeys hr]
    exact mem_tokenDeltas hDistinct hAlike hKeys

/-- Where inputs are rejected, the case of a key does not matter. -/
theorem readInAnyCase_of_rejected (hDistinct : DistinctKeys I) (h : ¬ Accepted I) :
    ReadInAnyCase I := by
  have hRaises := fun keys (hKeys : Lists keys I) => mt (accepted_of_returns hKeys) h
  refine ⟨fun keys others hKeys hOthers => ?_, fun keys r hKeys hr => ?_,
    fun _ keys hKeys => hRaises keys hKeys⟩
  · refine sameOutcome_of_raises (hRaises keys hKeys) fun hReturns => ?_
    exact h (accepted_of_lowered hDistinct (accepted_of_returns hOthers hReturns))
  · exact absurd ⟨r, hr⟩ (hRaises keys hKeys)

/-- A raw key that comes last decides the delta of its asset. -/
theorem delta_of_last (h : ReadInAnyCase I) (hAccepted : Accepted I) {k : String}
    (hk : k ∈ (I.tokenBefore ++ I.tokenAfter).map (·.1)) :
    (tokenDelta I k).2 = amountOf I.tokenAfter (lower k) - amountOf I.tokenBefore (lower k) := by
  have hKeys := lists_last hk
  have hMem : (lower k, (tokenDelta I k).2) ∈ tokenDeltas I
      ((((I.tokenBefore ++ I.tokenAfter).map (·.1)).dedup.erase k) ++ [k]) :=
    Mapping.mem_collect_snoc.mpr (.inl rfl)
  exact ((h.deltas _ _ hKeys (measureBase_ok hKeys hAccepted) _ _).mp hMem).2

/-- A spelling that is not the one of the mapping finds nothing. -/
theorem get?_eq_none {mapping : List (String × Int)} {p : String × Int} {k : String}
    (h : (mapping.map fun p => lower p.1).Nodup) (hp : p ∈ mapping) (hKey : lower p.1 = lower k)
    (hNe : p.1 ≠ k) : Mapping.get? k mapping = none := by
  rw [Option.eq_none_iff_forall_not_mem]
  intro value hGet
  exact hNe (congrArg Prod.fst (lower_nodup h hp (Mapping.mem_of_get? hGet) hKey))

/-- Where the case of a key does not matter, keys are spelled alike. -/
theorem spelledAlike_of_read (hDistinct : DistinctKeys I) (hAccepted : Accepted I)
    (h : ReadInAnyCase I) : SpelledAlike I := by
  intro p hp q hq hKey hNe
  have hBefore := delta_of_last h hAccepted (List.mem_map.mpr ⟨p, List.mem_append_left _ hp, rfl⟩)
  have hAfter := delta_of_last h hAccepted (List.mem_map.mpr ⟨q, List.mem_append_right _ hq, rfl⟩)
  rw [tokenDelta, get?_eq_none hDistinct.after hq hKey.symm hNe.symm,
    Mapping.get?_of_mem (nodup_of_lower hDistinct.before) hp, amountOf_of_mem hDistinct.before hp,
    hKey, amountOf_of_mem hDistinct.after hq] at hBefore
  rw [tokenDelta, get?_eq_none hDistinct.before hp hKey hNe,
    Mapping.get?_of_mem (nodup_of_lower hDistinct.after) hq, amountOf_of_mem hDistinct.after hq,
    ← hKey, amountOf_of_mem hDistinct.before hp] at hAfter
  simp only [Option.getD_none, Option.getD_some] at hBefore hAfter
  omega

/-- The economics does not depend on the spelling of the assets exactly where it refuses the
inputs, or no asset is spelled in two ways and all declared decimals are those of the prices. -/
theorem read_in_any_case_iff (hDistinct : DistinctKeys I) :
    (ReadInAnyCase I ↔ ¬ Accepted I ∨ SpelledAlike I ∧ DecimalsAgree I) ∧
      ∀ J, DistinctKeys J → J.lowered = I.lowered → ReadInAnyCase I → ReadInAnyCase J →
        ∀ keys others, Lists keys I → Lists others J →
          SameOutcome (measureBase exact I keys) (measureBase exact J others) := by
  constructor
  · constructor
    · intro h
      by_cases hAccepted : Accepted I
      · refine .inr ⟨spelledAlike_of_read hDistinct hAccepted h, ?_⟩
        by_contra hAgree
        have hKeys := lists_dedup I
        exact h.decimals hAgree _ hKeys ⟨_, measureBase_ok hKeys hAccepted⟩
      · exact .inl hAccepted
    · rintro (hRejected | ⟨hAlike, hAgree⟩)
      · exact readInAnyCase_of_rejected hDistinct hRejected
      · exact readInAnyCase_of_alike hDistinct hAlike hAgree
  · intro J _ hLowered hI hJ keys others hKeys hOthers
    have hCommon := lists_dedup I.lowered
    have hSecond := hJ.outcome others _ hOthers (hLowered ▸ hCommon)
    rw [hLowered] at hSecond
    exact (hI.outcome keys _ hKeys hCommon).join hSecond

/-- A run that holds five tokens before and seven after, under a spelling of each. -/
def spelled (before after : String) : Inputs ExactPrice where
  nativeBeforeWei := 0
  nativeAfterWei := 0
  tokenBefore := [(before, 5)]
  tokenAfter := [(after, 7)]
  tokenDecimals := []
  prices := []
  gasUsed := 0
  gasPriceWei := 0
  declaredCapitalWei := 0
  observedCapitalWei := none
  nativePrice := none
  pinnedBlock := none
  protocolAssetsDeltaWei := none

theorem spelled_distinct (before after : String) : DistinctKeys (spelled before after) :=
  ⟨List.nodup_singleton _, List.nodup_singleton _, List.nodup_nil, List.nodup_nil⟩

/-- The sample is accepted under any two spellings. -/
theorem spelled_accepted (before after : String) : Accepted (spelled before after) := by
  refine ⟨le_rfl, le_rfl, le_rfl, ?_⟩
  rintro asset - ⟨price, declared, hPrice, -⟩
  cases hPrice

/-- An asset that is spelled in two ways is not read as one. -/
theorem spelled_not_read : ¬ ReadInAnyCase (spelled "0xAB" "0xab") := by
  intro h
  have hIff := (read_in_any_case_iff (spelled_distinct "0xAB" "0xab")).1.mp h
  rcases hIff with hRejected | ⟨hAlike, -⟩
  · exact hRejected (spelled_accepted _ _)
  · have hZero := hAlike ("0xAB", 5) (by simp [spelled]) ("0xab", 7) (by simp [spelled])
      (by decide) (by decide)
    cases hZero.1

/-- A change of case changes the report. -/
theorem respelled_differs :
    ¬ ∀ I J : Inputs ExactPrice, DistinctKeys I → DistinctKeys J → J.lowered = I.lowered →
      ∀ keys others, Lists keys I → Lists others J →
        SameOutcome (measureBase exact I keys) (measureBase exact J others) := by
  intro h
  have hFirst : Lists ["0xAB", "0xab"] (spelled "0xAB" "0xab") :=
    ⟨by decide, fun _ => Iff.rfl⟩
  have hSecond : Lists ["0xab"] (spelled "0xab" "0xab") :=
    ⟨by decide, fun k => by simp [spelled]⟩
  have hLower : lower "0xAB" = lower "0xab" := by decide
  have hRespelled : (spelled "0xab" "0xab").lowered = (spelled "0xAB" "0xab").lowered := by
    simp only [Inputs.lowered, spelled, lowerKeys, List.map_cons, List.map_nil, hLower]
  have hSame := h _ _ (spelled_distinct "0xAB" "0xab") (spelled_distinct "0xab" "0xab") hRespelled
    _ _ hFirst hSecond
  rw [measureBase_ok hFirst (spelled_accepted _ _),
    measureBase_ok hSecond (spelled_accepted _ _)] at hSame
  have hDeltas : tokenDeltas (spelled "0xAB" "0xab") ["0xAB", "0xab"] = [("0xab", 7)] ∧
      tokenDeltas (spelled "0xab" "0xab") ["0xab"] = [("0xab", 2)] := by decide
  have hPerm := hSame.tokenDeltas
  rw [baseReport, baseReport, hDeltas.1, hDeltas.2, List.perm_singleton] at hPerm
  cases hPerm

end Spelling

end L0vi0x.Chain.Economics
