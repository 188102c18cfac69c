import Mathlib.LinearAlgebra.Pi
import Mathlib.GroupTheory.GroupAction.Ring
import L0vi0x.Chain.ExactValuation

/-! The scenarios of the exact economics. Gross and net value are linear forms of the prices,
so a scenario that scales the prices scales the results. -/
namespace L0vi0x.Chain.Economics

open L0vi0x.Python

/-- The prices in dollars: of the native asset, and of the tokens by their keys. -/
abbrev PriceVector := ℚ × (String → ℚ)

def priceVector (I : Inputs ExactPrice) : PriceVector :=
  ((I.nativePrice.map (·.usdPerUnit)).getD 0,
    fun key => ((Mapping.get? key I.prices).map (·.usdPerUnit)).getD 0)

section Forms

/-- The item of the price that is found for an asset. -/
def priceItem (I : Inputs ExactPrice) (asset : String) : Option (String × ExactPrice) :=
  I.prices.find? fun p => lower p.1 = asset

/-- The value of a change of the native asset. -/
def nativeForm (I : Inputs ExactPrice) (delta : Int) : PriceVector →ₗ[ℚ] ℚ :=
  (I.nativePrice.map fun p => units delta p • LinearMap.fst ℚ ℚ (String → ℚ)).getD 0

def tokenForm (I : Inputs ExactPrice) (entry : String × Int) : PriceVector →ₗ[ℚ] ℚ :=
  ((priceItem I entry.1).map fun p =>
    units entry.2 p.2 • (LinearMap.proj p.1 ∘ₗ LinearMap.snd ℚ ℚ (String → ℚ))).getD 0

def grossForm (I : Inputs ExactPrice) (deltas : List (String × Int)) : PriceVector →ₗ[ℚ] ℚ :=
  nativeForm I (nativeDelta I) + (deltas.map (tokenForm I)).sum

def netForm (I : Inputs ExactPrice) (deltas : List (String × Int)) : PriceVector →ₗ[ℚ] ℚ :=
  grossForm I deltas - nativeForm I (gasCost I)

variable {I : Inputs ExactPrice}

/-- At the prices of the inputs, the form of the native asset is its value. -/
theorem nativeForm_apply (delta : Int) : nativeForm I delta (priceVector I) =
    (I.nativePrice.map (exactSignedUsdDelta delta)).getD 0 := by
  rw [nativeForm, priceVector]
  cases I.nativePrice with
  | none => rfl
  | some price => exact (exactSignedUsdDelta_eq delta price).symm

/-- The price that is found for an asset is the first one of its key. -/
theorem get?_priceItem {asset : String} {p : String × ExactPrice}
    (h : priceItem I asset = some p) : Mapping.get? p.1 I.prices = some p.2 := by
  rw [priceItem] at h
  rw [Mapping.get?]
  revert h
  generalize I.prices = prices
  intro h
  induction prices with
  | nil => cases h
  | cons q rest ih =>
      by_cases hAsset : lower q.1 = asset
      · rw [List.find?_cons_of_pos (by simpa using hAsset)] at h
        obtain rfl := Option.some.inj h
        rw [List.find?_cons_of_pos (by simp)]
        rfl
      · rw [List.find?_cons_of_neg (by simpa using hAsset)] at h
        have hFound : lower p.1 = asset := by simpa using List.find?_some h
        have hNe : q.1 ≠ p.1 := fun hEq => hAsset (hEq ▸ hFound)
        rw [List.find?_cons_of_neg (by simpa using hNe)]
        exact ih h

/-- At the prices of the inputs, the form of a token is its value. -/
theorem tokenForm_apply (entry : String × Int) :
    tokenForm I entry (priceVector I) = (valueOf I entry).getD 0 := by
  have hPrice : priceOf I entry.1 = (priceItem I entry.1).map (·.2) := rfl
  rw [tokenForm, valueOf, hPrice]
  cases hItem : priceItem I entry.1 with
  | none => rfl
  | some p =>
      have hKey : (priceVector I).2 p.1 = p.2.usdPerUnit := by
        show ((Mapping.get? p.1 I.prices).map (·.usdPerUnit)).getD 0 = p.2.usdPerUnit
        rw [get?_priceItem hItem]
        rfl
      show units entry.2 p.2 * (priceVector I).2 p.1 = exactSignedUsdDelta entry.2 p.2
      rw [hKey, exactSignedUsdDelta_eq]

/-- Values are added, and one that is missing counts as nothing. -/
theorem foldl_addValue (values : List (Option ℚ)) (gross : Option ℚ) :
    (values.foldl addValue gross).getD 0 = gross.getD 0 + (values.map (·.getD 0)).sum := by
  induction values generalizing gross with
  | nil => simp
  | cons value values ih =>
      rw [List.foldl_cons, ih, List.map_cons, List.sum_cons]
      cases value with
      | none => simp [addValue]
      | some value => simp [addValue, add_assoc]

/-- At the prices of the inputs, the form of the gross gain is the gross gain. -/
theorem grossOf_getD (deltas : List (String × Int)) :
    (grossOf I deltas).getD 0 = grossForm I deltas (priceVector I) := by
  have hTokens : (deltas.map (tokenForm I)).sum (priceVector I) =
      ((deltas.map (valueOf I)).map (·.getD 0)).sum := by
    rw [List.map_map]
    induction deltas with
    | nil => rfl
    | cons entry deltas ih =>
        rw [List.map_cons, List.sum_cons, LinearMap.add_apply, ih, tokenForm_apply]
        rfl
  rw [grossOf, foldl_addValue, grossForm, LinearMap.add_apply, nativeForm_apply, hTokens]

end Forms

section Repricing

/-- Inputs that differ in the dollar prices only. -/
structure Repriced (I J : Inputs ExactPrice) : Prop where
  rest : J = { I with nativePrice := J.nativePrice, prices := J.prices }
  native : J.nativePrice.map (·.decimals) = I.nativePrice.map (·.decimals)
  prices : J.prices.map (fun p => (p.1, p.2.decimals)) = I.prices.map fun p => (p.1, p.2.decimals)

variable {I J : Inputs ExactPrice}

theorem Repriced.refl (I : Inputs ExactPrice) : Repriced I I := ⟨rfl, rfl, rfl⟩

/-- A search by key finds the item at the same place, with the same decimals. -/
theorem find?_decimals {prices others : List (String × ExactPrice)} {test : String → Bool}
    (h : others.map (fun p => (p.1, p.2.decimals)) = prices.map fun p => (p.1, p.2.decimals)) :
    (others.find? fun p => test p.1).map (fun p => (p.1, p.2.decimals)) =
      (prices.find? fun p => test p.1).map fun p => (p.1, p.2.decimals) := by
  have hFind : ∀ items : List (String × ExactPrice),
      (items.find? fun p => test p.1).map (fun p => (p.1, p.2.decimals)) =
        (items.map fun p => (p.1, p.2.decimals)).find? fun p => test p.1 := by
    intro items
    rw [List.find?_map]
    rfl
  rw [hFind, hFind, h]

/-- Repricing finds the same prices, with the same decimals. -/
theorem Repriced.item (h : Repriced I J) (asset : String) :
    (priceItem J asset).map (fun p => (p.1, p.2.decimals)) =
      (priceItem I asset).map fun p => (p.1, p.2.decimals) :=
  @find?_decimals I.prices J.prices (fun key => lower key = asset) h.prices

/-- Repricing leaves the form of the native asset. -/
theorem Repriced.nativeForm_eq (h : Repriced I J) (delta : Int) :
    nativeForm J delta = nativeForm I delta := by
  have hForm : ∀ K : Inputs ExactPrice, nativeForm K delta =
      ((K.nativePrice.map (·.decimals)).map fun d =>
        ((delta : ℚ) / 10 ^ d.toNat) • LinearMap.fst ℚ ℚ (String → ℚ)).getD 0 := by
    intro K
    rw [nativeForm, Option.map_map]
    rfl
  rw [hForm, hForm, h.native]

theorem Repriced.tokenForm_eq (h : Repriced I J) (entry : String × Int) :
    tokenForm J entry = tokenForm I entry := by
  have hForm : ∀ K : Inputs ExactPrice, tokenForm K entry =
      (((priceItem K entry.1).map fun p => (p.1, p.2.decimals)).map fun q =>
        ((entry.2 : ℚ) / 10 ^ q.2.toNat) •
          (LinearMap.proj q.1 ∘ₗ LinearMap.snd ℚ ℚ (String → ℚ))).getD 0 := by
    intro K
    rw [tokenForm, Option.map_map]
    rfl
  rw [hForm, hForm, h.item]

/-- Repricing leaves the changes of the balances and the cost of the gas. -/
theorem Repriced.deltas (h : Repriced I J) :
    nativeDelta J = nativeDelta I ∧ gasCost J = gasCost I ∧ tokenDelta J = tokenDelta I := by
  rw [h.rest]
  exact ⟨rfl, rfl, rfl⟩

/-- Repricing leaves the form of the gross gain. -/
theorem Repriced.grossForm_eq (h : Repriced I J) (deltas : List (String × Int)) :
    grossForm J deltas = grossForm I deltas := by
  have hTokens : tokenForm J = tokenForm I := by
    funext entry
    exact h.tokenForm_eq entry
  rw [grossForm, grossForm, h.nativeForm_eq, h.deltas.1, hTokens]

theorem Repriced.netForm_eq (h : Repriced I J) (deltas : List (String × Int)) :
    netForm J deltas = netForm I deltas := by
  rw [netForm, netForm, h.grossForm_eq, h.nativeForm_eq, h.deltas.2.1]

theorem Repriced.isSome (h : Repriced I J) (asset : String) :
    (priceOf J asset).isSome = (priceOf I asset).isSome := by
  have hItem := congrArg Option.isSome (h.item asset)
  rw [Option.isSome_map, Option.isSome_map] at hItem
  show ((priceItem J asset).map (·.2)).isSome = ((priceItem I asset).map (·.2)).isSome
  rw [Option.isSome_map, Option.isSome_map, hItem]

theorem Repriced.mismatched (h : Repriced I J) {asset : String} :
    Mismatched J asset ↔ Mismatched I asset := by
  have hMismatch : ∀ K : Inputs ExactPrice, Mismatched K asset ↔
      ∃ q declared, (priceItem K asset).map (fun p => (p.1, p.2.decimals)) = some q ∧
        Mapping.get? asset K.tokenDecimals = some declared ∧ declared ≠ q.2 := by
    intro K
    constructor
    · rintro ⟨price, declared, hPrice, hDeclared, hNe⟩
      obtain ⟨p, hItem, rfl⟩ := Option.map_eq_some_iff.mp hPrice
      exact ⟨_, declared, Option.map_eq_some_iff.mpr ⟨p, hItem, rfl⟩, hDeclared, hNe⟩
    · rintro ⟨q, declared, hItem, hDeclared, hNe⟩
      obtain ⟨p, hFound, rfl⟩ := Option.map_eq_some_iff.mp hItem
      exact ⟨p.2, declared, Option.map_eq_some_iff.mpr ⟨p, hFound, rfl⟩, hDeclared, hNe⟩
  have hDecimals : J.tokenDecimals = I.tokenDecimals := by rw [h.rest]
  rw [hMismatch, hMismatch, h.item, hDecimals]

theorem Repriced.lists (h : Repriced I J) {keys : List String} (hKeys : Lists keys I) :
    Lists keys J := by
  rw [h.rest]
  exact ⟨hKeys.nodup, hKeys.mem⟩

theorem Repriced.accepted (h : Repriced I J) (hI : Accepted I) : Accepted J := by
  have hHeld : ∀ asset, Held J asset → Held I asset := by
    rw [h.rest]
    exact fun asset hHeld => hHeld
  refine ⟨?_, ?_, ?_, fun asset hAsset => ?_⟩
  · rw [h.rest]
    exact hI.gasUsed
  · rw [h.rest]
    exact hI.gasPrice
  · rw [h.rest]
    exact hI.capital
  · rw [h.mismatched]
    exact hI.decimals asset (hHeld asset hAsset)

end Repricing

section Scaling

variable {I J : Inputs ExactPrice}

/-- A sum of values is known as soon as one of them is. -/
theorem addValue_isSome (values : List (Option ℚ)) (gross : Option ℚ) :
    (values.foldl addValue gross).isSome = (gross.isSome || values.any (·.isSome)) := by
  induction values generalizing gross with
  | nil => simp
  | cons value values ih =>
      rw [List.foldl_cons, ih, List.any_cons]
      cases value with
      | none => simp [addValue]
      | some value => simp [addValue]

/-- Repricing does not change whether the gross gain is known. -/
theorem Repriced.grossOf_isSome (h : Repriced I J) (deltas : List (String × Int)) :
    (grossOf J deltas).isSome = (grossOf I deltas).isSome := by
  have hNative : J.nativePrice.isSome = I.nativePrice.isSome := by
    have hDecimals := congrArg Option.isSome h.native
    rwa [Option.isSome_map, Option.isSome_map] at hDecimals
  rw [grossOf, grossOf, addValue_isSome, addValue_isSome, Option.isSome_map, Option.isSome_map,
    hNative, List.any_map, List.any_map]
  congr 2
  funext entry
  show ((priceOf J entry.1).map _).isSome = ((priceOf I entry.1).map _).isSome
  rw [Option.isSome_map, Option.isSome_map, h.isSome]

/-- The results of a report are the forms of its prices, where some price was found. -/
theorem net_eq_form {deltas : List (String × Int)}
    (h : ((baseReport I deltas).attackerNetUsd).isSome = true) :
    (baseReport I deltas).attackerGrossUsd = some (grossForm I deltas (priceVector I)) ∧
      (baseReport I deltas).attackerNetUsd = some (netForm I deltas (priceVector I)) := by
  have hGross : (grossOf I deltas).isSome = true := by
    rw [baseReport, Option.isSome_map] at h
    exact h
  obtain ⟨gross, hEq⟩ := Option.isSome_iff_exists.mp hGross
  have hForm : gross = grossForm I deltas (priceVector I) := by
    rw [← grossOf_getD, hEq, Option.getD_some]
  have hGas : (gasUsdOf I).getD 0 = nativeForm I (gasCost I) (priceVector I) := by
    rw [nativeForm_apply, gasUsdOf]
  refine ⟨?_, ?_⟩
  · show grossOf I deltas = _
    rw [hEq, hForm]
  · show (grossOf I deltas).map _ = _
    rw [hEq, Option.map_some, hGas, netForm, LinearMap.sub_apply, hForm]

/-- Inputs with other prices give the same forms of those prices. -/
theorem Repriced.measured (h : Repriced I J) {keys : List String} (hKeys : Lists keys I)
    (hI : Accepted I) (hNet : ((baseReport I (tokenDeltas I keys)).attackerNetUsd).isSome = true) :
    ∃ r, measureBase exact J keys = .ok r ∧
      r.attackerGrossUsd = some (grossForm I (tokenDeltas I keys) (priceVector J)) ∧
      r.attackerNetUsd = some (netForm I (tokenDeltas I keys) (priceVector J)) := by
  have hDeltas : tokenDeltas J keys = tokenDeltas I keys := by
    rw [tokenDeltas, h.deltas.2.2, tokenDeltas]
  refine ⟨_, measureBase_ok (h.lists hKeys) (h.accepted hI), ?_⟩
  rw [hDeltas, ← h.grossForm_eq, ← h.netForm_eq]
  apply net_eq_form
  rw [baseReport, Option.isSome_map] at hNet ⊢
  rw [h.grossOf_isSome, hNet]

/-- A price that is scaled keeps its decimals, and its dollars are multiplied. -/
theorem scale_eq_ok {p q : ExactPrice} {factor : ℚ} (h : p.scale factor = .ok q) :
    q.decimals = p.decimals ∧ q.usdPerUnit = p.usdPerUnit * factor := by
  rw [ExactPrice.scale] at h
  split at h
  · obtain rfl := pure_eq_ok.mp h
    exact ⟨rfl, rfl⟩
  · cases h

/-- A scaled item keeps its key and its decimals. -/
theorem scaleItem_eq_ok {p q : String × ExactPrice} {factor : ℚ}
    (h : (fun price => (p.1, price)) <$> exact.scale p.2 factor = .ok q) :
    q.1 = p.1 ∧ q.2.decimals = p.2.decimals ∧ q.2.usdPerUnit = p.2.usdPerUnit * factor := by
  obtain ⟨price, hPrice, rfl⟩ := map_eq_ok.mp h
  exact ⟨rfl, scale_eq_ok hPrice⟩

/-- The items of scaled prices, one by one. -/
theorem scaled_prices {prices others : List (String × ExactPrice)} {factor : ℚ}
    (h : List.Forall₂ (fun p q => (fun price => (p.1, price)) <$> exact.scale p.2 factor = .ok q)
      prices others) :
    others.map (fun p => (p.1, p.2.decimals)) = prices.map (fun p => (p.1, p.2.decimals)) ∧
      ∀ key, ((Mapping.get? key others).map (·.usdPerUnit)).getD 0 =
        factor * ((Mapping.get? key prices).map (·.usdPerUnit)).getD 0 := by
  induction h with
  | nil => exact ⟨rfl, fun key => (mul_zero factor).symm⟩
  | @cons p q prices others hItem _ ih =>
      obtain ⟨hKey, hDecimals, hUsd⟩ := scaleItem_eq_ok hItem
      refine ⟨?_, fun key => ?_⟩
      · rw [List.map_cons, List.map_cons, ih.1, hKey, hDecimals]
      · have hRest := ih.2 key
        rw [Mapping.get?, Mapping.get?] at hRest ⊢
        by_cases hFirst : p.1 = key
        · rw [List.find?_cons_of_pos (by simpa [hKey] using hFirst),
            List.find?_cons_of_pos (by simpa using hFirst)]
          show q.2.usdPerUnit = factor * p.2.usdPerUnit
          rw [hUsd, mul_comm]
        · rw [List.find?_cons_of_neg (by simpa [hKey] using hFirst),
            List.find?_cons_of_neg (by simpa using hFirst)]
          exact hRest

/-- Scaled inputs differ in the prices only, and their prices are scaled. -/
theorem repriced_of_scaled {factor : ℚ} (h : scaled exact I factor = .ok J) :
    Repriced I J ∧ priceVector J = factor • priceVector I := by
  rw [scaled] at h
  obtain ⟨native, hNative, h⟩ := bind_eq_ok.mp h
  obtain ⟨prices, hPrices, h⟩ := bind_eq_ok.mp h
  obtain rfl := pure_eq_ok.mp h
  obtain ⟨hItems, hUsd⟩ := scaled_prices (mapM_eq_ok.mp hPrices)
  have hScaled : native.map (·.decimals) = I.nativePrice.map (·.decimals) ∧
      (native.map (·.usdPerUnit)).getD 0 =
        factor * (I.nativePrice.map (·.usdPerUnit)).getD 0 := by
    cases hPrice : I.nativePrice with
    | none =>
        rw [hPrice, Option.mapM_none] at hNative
        obtain rfl := pure_eq_ok.mp hNative
        exact ⟨rfl, (mul_zero factor).symm⟩
    | some price =>
        rw [hPrice, Option.mapM_some] at hNative
        obtain ⟨other, hOther, rfl⟩ := map_eq_ok.mp hNative
        obtain ⟨hDecimals, hValue⟩ := scale_eq_ok hOther
        refine ⟨congrArg some hDecimals, ?_⟩
        show other.usdPerUnit = factor * price.usdPerUnit
        rw [hValue, mul_comm]
  exact ⟨⟨rfl, hScaled.1, hItems⟩, Prod.ext hScaled.2 (funext hUsd)⟩

/-- A scenario multiplies the net gain by its factor. -/
theorem measureScenario_eq {keys : List String} (hKeys : Lists keys I) (hI : Accepted I)
    {bps : Int} {s : Scenario ℚ} (h : measureScenario exact I keys bps = .ok s) {net : ℚ}
    (hNet : (baseReport I (tokenDeltas I keys)).attackerNetUsd = some net) :
    s.bps = bps ∧ s.netUsd = (1 + (bps : ℚ) / 10000) * net := by
  have hSome := Option.isSome_iff_exists.mpr ⟨net, hNet⟩
  rw [measureScenario] at h
  obtain ⟨J, hScaled, h⟩ := bind_eq_ok.mp h
  obtain ⟨r, hMeasured, h⟩ := bind_eq_ok.mp h
  obtain ⟨hRepriced, hVector⟩ := repriced_of_scaled hScaled
  obtain ⟨r', hMeasured', -, hForm⟩ := hRepriced.measured hKeys hI hSome
  obtain rfl := Except.ok.inj (hMeasured.symm.trans hMeasured')
  rw [hForm] at h
  obtain rfl := pure_eq_ok.mp h
  refine ⟨rfl, ?_⟩
  have hBase : net = netForm I (tokenDeltas I keys) (priceVector I) :=
    Option.some.inj (hNet.symm.trans (net_eq_form hSome).2)
  show netForm I (tokenDeltas I keys) (priceVector J) = _
  rw [hVector, LinearMap.map_smul, ← hBase]
  rfl

/-- A label is the one that the table has for its basis points. -/
theorem labelOf_eq_ok {bps : Int} {label : String} (h : labelOf bps = .ok label) :
    (bps, label) ∈ sensitivityLabels := by
  rw [labelOf] at h
  split at h
  · next hLabel =>
      obtain rfl := pure_eq_ok.mp h
      exact Mapping.mem_of_get? hLabel
  · cases h

/-- A labelled scenario multiplies the net gain, under its label. -/
theorem labelledScenario_eq {keys : List String} (hKeys : Lists keys I) (hI : Accepted I)
    {bps : Int} {item : String × Scenario ℚ} (h : labelledScenario exact I keys bps = .ok item)
    {net : ℚ} (hNet : (baseReport I (tokenDeltas I keys)).attackerNetUsd = some net) :
    item.2.bps = bps ∧ (item.2.bps, item.1) ∈ sensitivityLabels ∧
      item.2.netUsd = (1 + (item.2.bps : ℚ) / 10000) * net := by
  rw [labelledScenario] at h
  obtain ⟨s, hScenario, h⟩ := bind_eq_ok.mp h
  obtain ⟨label, hLabel, h⟩ := bind_eq_ok.mp h
  obtain rfl := pure_eq_ok.mp h
  obtain ⟨rfl, hScaled⟩ := measureScenario_eq hKeys hI hScenario hNet
  exact ⟨rfl, labelOf_eq_ok hLabel, hScaled⟩

/-- No two scenarios share a label or a factor. -/
theorem label_unique {p q : Int × String} (hp : p ∈ sensitivityLabels)
    (hq : q ∈ sensitivityLabels) : (p.1 = q.1 → p.2 = q.2) ∧ (p.2 = q.2 → p.1 = q.1) := by
  have hAll : ∀ p ∈ sensitivityLabels, ∀ q ∈ sensitivityLabels,
      (p.1 = q.1 → p.2 = q.2) ∧ (p.2 = q.2 → p.1 = q.1) := by decide
  exact hAll p hp q hq

/-- Each factor of a scenario is positive. -/
theorem factor_pos {entry : Int × String} (h : entry ∈ sensitivityLabels) :
    0 < 1 + (entry.1 : ℚ) / 10000 := by
  simp only [sensitivityLabels, List.mem_cons, List.not_mem_nil, or_false] at h
  rcases h with rfl | rfl | rfl
  · norm_num
  · norm_num
  · norm_num

/-- What `measure` makes of a base report with a net value. -/
theorem measure_eq_ok {keys : List String} {bps : List Int} {r : Report ℚ}
    (h : measure exact I keys bps = .ok r) {net : ℚ} (hNet : r.attackerNetUsd = some net) :
    bps.dedup.insertionSort (· ≤ ·) = [-500, 0, 500] ∧
      ∃ base scenarios, measureBase exact I keys = .ok base ∧ base.attackerNetUsd = some net ∧
        List.Forall₂ (fun b item => labelledScenario exact I keys b = .ok item) bps scenarios ∧
        r.sensitivityScenarios = Mapping.collect (fun p => p) scenarios ∧
        r.sensitivity = Mapping.collect (fun p => (p.1, p.2.netUsd)) scenarios ∧
        r.attackerGrossUsd = base.attackerGrossUsd := by
  rw [measure] at h
  obtain ⟨_, hBps, h⟩ := bind_eq_ok.mp h
  rw [raiseIf_eq_ok, decide_eq_false_iff_not, not_not] at hBps
  obtain ⟨base, hBase, h⟩ := bind_eq_ok.mp h
  split at h
  · next hNone =>
      obtain rfl := pure_eq_ok.mp h
      rw [hNet] at hNone
      cases hNone
  · obtain ⟨scenarios, hScenarios, h⟩ := bind_eq_ok.mp h
    obtain rfl := pure_eq_ok.mp h
    exact ⟨hBps, base, scenarios, hBase, hNet, mapM_eq_ok.mp hScenarios, rfl, rfl, rfl⟩

/-- Each scenario is an exact revaluation: three scenarios, each with its share of the base
result and its sign, and results that are linear in the prices. -/
theorem scenarios_revalue {I : Inputs ExactPrice} {keys : List String} {bps : List Int}
    {r : Report ℚ} {net : ℚ} (hKeys : Lists keys I) (h : measure exact I keys bps = .ok r)
    (hNet : r.attackerNetUsd = some net) :
    (∀ entry ∈ sensitivityLabels, ∃ s, (entry.2, s) ∈ r.sensitivityScenarios ∧ s.bps = entry.1) ∧
    (∀ label s, (label, s) ∈ r.sensitivityScenarios →
      (s.bps, label) ∈ sensitivityLabels ∧ s.netUsd = (1 + (s.bps : ℚ) / 10000) * net ∧
        SignType.sign s.netUsd = SignType.sign net) ∧
    (r.sensitivityScenarios.map (·.1)).Nodup ∧
    r.sensitivity = r.sensitivityScenarios.map (fun p => (p.1, p.2.netUsd)) ∧
    ∃ grossValue netValue : PriceVector →ₗ[ℚ] ℚ,
      r.attackerGrossUsd = some (grossValue (priceVector I)) ∧ net = netValue (priceVector I) ∧
      ∀ J, Repriced I J → ∃ base, measureBase exact J keys = .ok base ∧
        base.attackerGrossUsd = some (grossValue (priceVector J)) ∧
        base.attackerNetUsd = some (netValue (priceVector J)) := by
  obtain ⟨hBps, base, scenarios, hBase, hBaseNet, hItems, hScenarios, hNets, hGross⟩ :=
    measure_eq_ok h hNet
  have hI : Accepted I := accepted_of_returns hKeys ⟨base, hBase⟩
  obtain rfl := measureBase_eq hKeys hBase
  have hSome := Option.isSome_iff_exists.mpr ⟨net, hBaseNet⟩
  have hStored : ∀ label s, (label, s) ∈ r.sensitivityScenarios →
      (s.bps, label) ∈ sensitivityLabels ∧ s.netUsd = (1 + (s.bps : ℚ) / 10000) * net ∧
        SignType.sign s.netUsd = SignType.sign net := by
    intro label s hMem
    rw [hScenarios] at hMem
    obtain ⟨item, hMade, hEq⟩ := Mapping.mem_of_mem_collect hMem
    obtain ⟨b, -, hLabelled⟩ := forall₂_exists_left hItems hMade
    obtain ⟨-, hLabel, hValue⟩ := labelledScenario_eq hKeys hI hLabelled hBaseNet
    obtain rfl : item = (label, s) := hEq
    refine ⟨hLabel, hValue, ?_⟩
    rw [hValue, sign_mul, sign_pos (factor_pos hLabel), one_mul]
  refine ⟨fun entry hEntry => ?_, hStored, ?_, ?_, grossForm I (tokenDeltas I keys),
    netForm I (tokenDeltas I keys), ?_, ?_, fun J hJ => hJ.measured hKeys hI hSome⟩
  · have hIn : entry.1 ∈ bps := by
      have hSorted : entry.1 ∈ bps.dedup.insertionSort (· ≤ ·) :=
        hBps ▸ List.mem_map.mpr ⟨entry, hEntry, rfl⟩
      exact List.mem_dedup.mp ((List.mem_insertionSort _).mp hSorted)
    obtain ⟨item, hMade, hLabelled⟩ := forall₂_exists_left hItems.flip hIn
    obtain ⟨hItemBps, hLabel, -⟩ := labelledScenario_eq hKeys hI hLabelled hBaseNet
    rw [hItemBps] at hLabel
    have hName : item.1 = entry.2 := (label_unique hLabel hEntry).1 rfl
    have hKey : entry.2 ∈ r.sensitivityScenarios.map (·.1) := by
      rw [hScenarios]
      exact Mapping.mem_keys_collect.mpr ⟨item, hMade, hName⟩
    obtain ⟨⟨label, s⟩, hMem, rfl⟩ := List.mem_map.mp hKey
    exact ⟨s, hMem, (label_unique (hStored _ s hMem).1 hEntry).2 rfl⟩
  · rw [hScenarios]
    exact Mapping.nodup_collect _ _
  · rw [hScenarios, hNets]
    exact Mapping.collect_map Scenario.netUsd (fun p => p) scenarios
  · rw [hGross]
    exact (net_eq_form hSome).1
  · exact Option.some.inj (hBaseNet.symm.trans (net_eq_form hSome).2)

/-- A run that gains one unit of a token worth two dollars. -/
def gained : Inputs ExactPrice where
  nativeBeforeWei := 0
  nativeAfterWei := 0
  tokenBefore := []
  tokenAfter := [("0xab", 1000000)]
  tokenDecimals := []
  prices := [("0xAB", ⟨"0xab", 2, 6, "oracle", none, none, by decide, by decide, by decide⟩)]
  gasUsed := 0
  gasPriceWei := 0
  declaredCapitalWei := 0
  observedCapitalWei := none
  nativePrice := none
  pinnedBlock := none
  protocolAssetsDeltaWei := none

theorem gained_lists : Lists ["0xab"] gained :=
  ⟨List.nodup_singleton _, fun _ => Iff.rfl⟩

theorem gained_measured : (match measure exact gained ["0xab"] [-500, 0, 500] with
    | .ok r => r.attackerNetUsd
    | .error _ => none) = some 2 := by
  decide +kernel

theorem gained_revalued : ∃ r, measure exact gained ["0xab"] [-500, 0, 500] = .ok r ∧
    ∃ s, ("plus_500bps", s) ∈ r.sensitivityScenarios ∧ s.netUsd = 21 / 10 := by
  have hMeasured := gained_measured
  split at hMeasured
  · next r hr =>
      obtain ⟨hAll, hStored, -⟩ := scenarios_revalue gained_lists hr hMeasured
      obtain ⟨s, hMem, hBps⟩ := hAll (500, "plus_500bps") (by simp [sensitivityLabels])
      refine ⟨r, hr, s, hMem, ?_⟩
      rw [(hStored _ s hMem).2.1, hBps]
      norm_num
  · cases hMeasured

end Scaling

end L0vi0x.Chain.Economics
