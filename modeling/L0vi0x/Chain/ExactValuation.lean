import Mathlib.Algebra.Module.LinearMap.Basic
import Mathlib.Data.Sign.Basic
import Mathlib.Tactic.Ring
import Mathlib.Tactic.Linarith
import L0vi0x.Chain.Economics

/-! The economics read over the rationals. A scenario then is a revaluation of the same
amounts, and the results are linear in the prices. -/
namespace L0vi0x.Chain.Economics

open L0vi0x.Python

/-- A price point without rounding. -/
structure ExactPrice where
  asset : String
  usdPerUnit : ℚ
  decimals : Int
  source : String
  block : Option Int
  observedAt : Option String
  decimalsValid : 0 ≤ decimals ∧ decimals ≤ 255
  priceValid : 0 ≤ usdPerUnit
  sourceValid : strip source ≠ ""

/-- `replace(price, usd_per_unit=price.usd_per_unit * factor)`. -/
def ExactPrice.scale (p : ExactPrice) (factor : ℚ) : Py ExactPrice :=
  if h : 0 ≤ p.usdPerUnit * factor then
    pure { p with usdPerUnit := p.usdPerUnit * factor, priceValid := h }
  else raise .valueError "price must be finite and non-negative"

def exactSignedUsdDelta (delta : Int) (p : ExactPrice) : ℚ :=
  let sign : ℚ := if delta < 0 then -1 else 1
  sign * ((delta.natAbs : ℚ) / 10 ^ p.decimals.toNat * p.usdPerUnit)

def exact : Arithmetic ExactPrice ℚ where
  decimals := ExactPrice.decimals
  source := ExactPrice.source
  usdPerUnit := ExactPrice.usdPerUnit
  scale := ExactPrice.scale
  factor bps := 1 + (bps : ℚ) / 10000
  signedUsdDelta delta p := pure (exactSignedUsdDelta delta p)
  orZero gross := gross.getD 0
  add := (· + ·)
  sub := (· - ·)

def units (delta : Int) (p : ExactPrice) : ℚ := (delta : ℚ) / 10 ^ p.decimals.toNat

/-- The value of a change is its units times the price. -/
theorem exactSignedUsdDelta_eq (delta : Int) (p : ExactPrice) :
    exactSignedUsdDelta delta p = units delta p * p.usdPerUnit := by
  have hAbs : ((if delta < 0 then -1 else 1 : ℚ)) * (delta.natAbs : ℚ) = (delta : ℚ) := by
    have hCast : (delta.natAbs : ℚ) = ((|delta| : Int) : ℚ) := by
      rw [← Int.natCast_natAbs, Int.cast_natCast]
    rw [hCast]
    split
    · next hNeg => rw [abs_of_neg hNeg]; push_cast; ring
    · next hPos => rw [abs_of_nonneg (not_lt.mp hPos), one_mul]
  rw [exactSignedUsdDelta, units, ← hAbs]
  ring

section Loop

variable (I : Inputs ExactPrice)

/-- A declared count of decimals that the price found for an asset does not have. -/
def Mismatched (asset : String) : Prop :=
  ∃ price declared, priceOf I asset = some price ∧
    Mapping.get? asset I.tokenDecimals = some declared ∧ declared ≠ price.decimals

/-- The value of a change, where a price is found. -/
def valueOf (entry : String × Int) : Option ℚ :=
  (priceOf I entry.1).map (exactSignedUsdDelta entry.2)

def flagOf (entry : String × Int) : List String :=
  if (priceOf I entry.1).isNone ∧ entry.2 ≠ 0 then ["price_unavailable:" ++ entry.1] else []

def sourceOf (entry : String × Int) : List String := ((priceOf I entry.1).map (·.source)).toList

def addValue (gross : Option ℚ) : Option ℚ → Option ℚ
  | none => gross
  | some value => some (gross.getD 0 + value)

variable {I}

/-- Measuring a token adds its value, its flag and its source. -/
theorem measureToken_ok {state : Progress ℚ} {entry : String × Int} (h : ¬ Mismatched I entry.1) :
    measureToken exact I state entry = .ok ⟨addValue state.grossUsd (valueOf I entry),
      state.flags ++ flagOf I entry, state.sources ++ sourceOf I entry⟩ := by
  rw [measureToken, valueOf, flagOf, sourceOf]
  cases hPrice : priceOf I entry.1 with
  | none =>
      by_cases hZero : entry.2 = 0
      · simp [hZero, addValue, pure, Except.pure]
      · simp [hZero, addValue, pure, Except.pure]
  | some price =>
      have hAgree : ((Mapping.get? entry.1 I.tokenDecimals).isSome &&
          Mapping.get? entry.1 I.tokenDecimals != some price.decimals) = false := by
        cases hDeclared : Mapping.get? entry.1 I.tokenDecimals with
        | none => rfl
        | some declared =>
            have hSame : declared = price.decimals :=
              not_not.mp fun hNe => h ⟨price, declared, hPrice, hDeclared, hNe⟩
            simp [hSame]
      simp only [exact, hAgree]
      simp [raiseIf, addValue, pure, Except.pure, bind, Except.bind]

/-- A token with other decimals than its price is refused. -/
theorem measureToken_error {state : Progress ℚ} {entry : String × Int}
    (h : Mismatched I entry.1) : ¬ returns (measureToken exact I state entry) := by
  obtain ⟨price, declared, hPrice, hDeclared, hNe⟩ := h
  have hRaise : ((Mapping.get? entry.1 I.tokenDecimals).isSome &&
      Mapping.get? entry.1 I.tokenDecimals != some (exact.decimals price)) = true := by
    rw [hDeclared]
    simpa [exact] using hNe
  rw [measureToken, hPrice]
  simp only [hRaise]
  exact not_returns_error _

/-- What the loop has made of the entries that it has passed. -/
theorem measureTokens_ok {entries : List (String × Int)} (state : Progress ℚ)
    (h : ∀ entry ∈ entries, ¬ Mismatched I entry.1) :
    entries.foldlM (measureToken exact I) state = .ok
      ⟨(entries.map (valueOf I)).foldl addValue state.grossUsd,
        state.flags ++ entries.flatMap (flagOf I), state.sources ++ entries.flatMap (sourceOf I)⟩ := by
  induction entries generalizing state with
  | nil => simp [pure, Except.pure]
  | cons entry entries ih =>
      rw [List.forall_mem_cons] at h
      rw [List.foldlM_cons, measureToken_ok h.1]
      show entries.foldlM (measureToken exact I) _ = _
      rw [ih _ h.2]
      simp only [List.map_cons, List.foldl_cons, List.flatMap_cons, List.append_assoc]

/-- One token with other decimals than its price refuses all. -/
theorem measureTokens_error {entries : List (String × Int)} (state : Progress ℚ)
    (h : ∃ entry ∈ entries, Mismatched I entry.1) :
    ¬ returns (entries.foldlM (measureToken exact I) state) := by
  induction entries generalizing state with
  | nil => simp at h
  | cons entry entries ih =>
      rw [List.foldlM_cons, returns_bind]
      rintro ⟨next, hNext, hRest⟩
      obtain ⟨bad, hBad, hMismatch⟩ := h
      rcases List.mem_cons.mp hBad with rfl | hBad
      · exact measureToken_error hMismatch ⟨next, hNext⟩
      · exact ih next ⟨bad, hBad, hMismatch⟩ hRest

end Loop

section Report

variable {I : Inputs ExactPrice}

/-- An asset that the run names before or after, in any case. -/
def Held (I : Inputs ExactPrice) (asset : String) : Prop :=
  ∃ p ∈ I.tokenBefore ++ I.tokenAfter, lower p.1 = asset

/-- Inputs that the measurement accepts: no measure is negative, and no decimals declared
under the lower-case key of an asset differ from those of its price. -/
structure Accepted (I : Inputs ExactPrice) : Prop where
  gasUsed : 0 ≤ I.gasUsed
  gasPrice : 0 ≤ I.gasPriceWei
  capital : 0 ≤ I.declaredCapitalWei
  decimals : ∀ asset, Held I asset → ¬ Mismatched I asset

def grossOf (I : Inputs ExactPrice) (deltas : List (String × Int)) : Option ℚ :=
  (deltas.map (valueOf I)).foldl addValue (I.nativePrice.map (exactSignedUsdDelta (nativeDelta I)))

def gasUsdOf (I : Inputs ExactPrice) : Option ℚ :=
  I.nativePrice.map (exactSignedUsdDelta (gasCost I))

def baseReport (I : Inputs ExactPrice) (deltas : List (String × Int)) : Report ℚ where
  nativeDeltaWei := nativeDelta I
  tokenDeltas := deltas
  attackerGrossUsd := grossOf I deltas
  gasCostNativeWei := gasCost I
  gasCostUsd := gasUsdOf I
  attackerNetUsd := (grossOf I deltas).map fun gross => gross - (gasUsdOf I).getD 0
  capitalRequiredWei := capitalRequired I
  protocolAssetsDeltaWei := I.protocolAssetsDeltaWei
  sensitivity := []
  sensitivityScenarios := []
  realismFlags := runFlags I ++ deltas.flatMap (flagOf I)
  priceSources := (deltas.flatMap (sourceOf I) ++
    (I.nativePrice.map (·.source)).toList).dedup.insertionSort (· ≤ ·)

theorem key_tokenDeltas {keys : List String} (h : Lists keys I) {asset : String} :
    asset ∈ (tokenDeltas I keys).map (·.1) ↔ Held I asset := by
  rw [tokenDeltas, Mapping.mem_keys_collect]
  constructor
  · rintro ⟨k, hk, hLower⟩
    obtain ⟨p, hp, rfl⟩ := List.mem_map.mp ((h.mem k).mp hk)
    exact ⟨p, hp, hLower⟩
  · rintro ⟨p, hp, hLower⟩
    exact ⟨p.1, (h.mem p.1).mpr (List.mem_map.mpr ⟨p, hp, rfl⟩), hLower⟩

/-- The exact value of a change is always computed. -/
theorem mapM_exact (delta : Int) (price : Option ExactPrice) :
    price.mapM (exact.signedUsdDelta delta) = .ok (price.map (exactSignedUsdDelta delta)) := by
  cases price with
  | none => rfl
  | some price => rfl

/-- Accepted inputs are measured by the report on them. -/
theorem measureBase_ok {keys : List String} (hKeys : Lists keys I) (h : Accepted I) :
    measureBase exact I keys = .ok (baseReport I (tokenDeltas I keys)) := by
  have hLoop := fun state => @measureTokens_ok I (tokenDeltas I keys) state
    fun entry hEntry => h.decimals entry.1
      ((key_tokenDeltas hKeys).mp (List.mem_map.mpr ⟨entry, hEntry, rfl⟩))
  have hGas : decide (I.gasUsed < 0 ∨ I.gasPriceWei < 0) = false :=
    decide_eq_false (by have := h.gasUsed; have := h.gasPrice; omega)
  have hCapital : decide (I.declaredCapitalWei < 0) = false :=
    decide_eq_false (by have := h.capital; omega)
  rw [measureBase, hGas, hCapital, mapM_exact, mapM_exact]
  simp only [raiseIf, bind, Except.bind, pure, Except.pure, Bool.false_eq_true, ↓reduceIte, hLoop]
  rfl

theorem accepted_of_returns {keys : List String} (hKeys : Lists keys I)
    (h : returns (measureBase exact I keys)) : Accepted I := by
  rw [measureBase, returns_bind] at h
  obtain ⟨_, hGas, h⟩ := h
  rw [raiseIf_eq_ok, decide_eq_false_iff_not] at hGas
  obtain ⟨_, hCapital, h⟩ := returns_bind.mp h
  rw [raiseIf_eq_ok, decide_eq_false_iff_not] at hCapital
  rw [mapM_exact, mapM_exact] at h
  obtain ⟨_, -, h⟩ := returns_bind.mp h
  obtain ⟨_, -, h⟩ := returns_bind.mp h
  obtain ⟨final, hLoop, -⟩ := returns_bind.mp h
  refine ⟨by omega, by omega, by omega, fun asset hHeld hMismatch => ?_⟩
  obtain ⟨entry, hEntry, rfl⟩ := List.mem_map.mp ((key_tokenDeltas hKeys).mpr hHeld)
  exact measureTokens_error _ ⟨entry, hEntry, hMismatch⟩ ⟨final, hLoop⟩

/-- The measurement returns exactly on accepted inputs. -/
theorem returns_measureBase {keys : List String} (hKeys : Lists keys I) :
    returns (measureBase exact I keys) ↔ Accepted I :=
  ⟨accepted_of_returns hKeys, fun h => ⟨_, measureBase_ok hKeys h⟩⟩

theorem measureBase_eq {keys : List String} (hKeys : Lists keys I) {r : Report ℚ}
    (h : measureBase exact I keys = .ok r) : r = baseReport I (tokenDeltas I keys) :=
  (Except.ok.inj ((measureBase_ok hKeys (accepted_of_returns hKeys ⟨r, h⟩)).symm.trans h)).symm

end Report

end L0vi0x.Chain.Economics
