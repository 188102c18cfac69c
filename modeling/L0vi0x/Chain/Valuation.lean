import L0vi0x.Python.Exception
import L0vi0x.Chain.Econ

/-! What the assets that a run moved are worth. The measurement of the economics leaves an
asset without a price out of its sum; the worth of such an asset is known only if it did
not move. -/
namespace L0vi0x.Chain

open L0vi0x.Python L0vi0x.Core

/-- The price that the measurement finds for a token. -/
def priceOf (inputs : EconomicInputs) (asset : String) : Option PricePoint :=
  (inputs.prices.find? fun p => lower p.1 = asset).map (·.2)

/-- The changes that the native balance and the gas make. -/
def nativeDelta (inputs : EconomicInputs) : Int := inputs.nativeAfterWei - inputs.nativeBeforeWei

def gasCost (inputs : EconomicInputs) : Int := inputs.gasUsed * inputs.gasPriceWei

/-- The worth of a change, where nothing is left out: what moved has a price. -/
def worth (delta : Int) : Option PricePoint → Py (Option PyFloat)
  | some price => some <$> signedUsdDelta delta price
  | none =>
      if delta = 0 then pure none else raise .valueError "an asset that moved has no price"

/-- A sum that one more worth is added to. -/
def addUsd (gross : Option PyFloat) : Option PyFloat → Option PyFloat
  | none => gross
  | some usd => some ((orZero gross).add usd)

/-- The sum of what was gained, less the gas. -/
def netUsd (native : Option PyFloat) (tokens : List (Option PyFloat)) (gas : Option PyFloat) :
    Option PyFloat :=
  (tokens.foldl addUsd native).map fun gross => gross.sub (orZero gas)

/-- A net result that is the worth of every asset that moved, less that of the gas. -/
def Valued (inputs : EconomicInputs) (net : PyFloat) : Prop :=
  ∃ native gas tokens, worth (nativeDelta inputs) inputs.nativePrice = .ok native ∧
    worth (gasCost inputs) inputs.nativePrice = .ok gas ∧
    List.Forall₂ (fun entry usd => worth entry.2 (priceOf inputs entry.1) = .ok usd)
      (tokenDeltas inputs) tokens ∧
    netUsd native tokens gas = some net

/-- Every asset that moved has a price; gas is paid in the native one. -/
structure MovedPriced (inputs : EconomicInputs) : Prop where
  native : inputs.nativePrice = none → nativeDelta inputs = 0 ∧ gasCost inputs = 0
  tokens : ∀ entry ∈ tokenDeltas inputs, priceOf inputs entry.1 = none → entry.2 = 0

def SomePriced (inputs : EconomicInputs) : Prop :=
  inputs.nativePrice.isSome ∨ ∃ entry ∈ tokenDeltas inputs, (priceOf inputs entry.1).isSome

section Measurement

variable {inputs : EconomicInputs}

/-- A change has a worth when it has a price, or is none. -/
theorem worth_eq_ok {delta : Int} {price : Option PricePoint} {usd : Option PyFloat} :
    worth delta price = .ok usd ↔
      price.mapM (signedUsdDelta delta) = .ok usd ∧ (price = none → delta = 0) := by
  cases price with
  | some price =>
      rw [Option.mapM_some]
      exact (and_iff_left fun h => (nomatch h)).symm
  | none =>
      rw [worth, Option.mapM_none]
      constructor
      · intro h
        split at h
        · rename_i hZero
          exact ⟨h, fun _ => hZero⟩
        · cases h
      · rintro ⟨hNone, hZero⟩
        rw [if_pos (hZero rfl)]
        exact hNone

/-- Changes have their worths when each that has no price is none. -/
theorem worths_eq_ok {entries : List (String × Int)} {tokens : List (Option PyFloat)} :
    List.Forall₂ (fun entry usd => worth entry.2 (priceOf inputs entry.1) = .ok usd) entries
        tokens ↔
      (∀ entry ∈ entries, priceOf inputs entry.1 = none → entry.2 = 0) ∧
        List.Forall₂ (fun entry usd =>
          (priceOf inputs entry.1).mapM (signedUsdDelta entry.2) = .ok usd) entries tokens := by
  rw [← List.forall₂_and_left]
  constructor
  · exact List.Forall₂.imp fun entry usd h => (worth_eq_ok.mp h).symm
  · exact List.Forall₂.imp fun entry usd h => worth_eq_ok.mpr h.symm

theorem foldl_addUsd_eq_none {native : Option PyFloat} {tokens : List (Option PyFloat)} :
    tokens.foldl addUsd native = none ↔ native = none ∧ ∀ usd ∈ tokens, usd = none := by
  induction tokens generalizing native with
  | nil => simp
  | cons usd tokens ih =>
      rw [List.foldl_cons, ih, List.forall_mem_cons]
      cases usd with
      | none => simp [addUsd]
      | some usd => simp [addUsd]

/-- Measuring a token adds its value where it has a price. -/
theorem measureToken_eq_ok {s t : MeasureState} {entry : String × Int}
    (h : measureToken inputs s entry = .ok t) :
    ∃ usd, (priceOf inputs entry.1).mapM (signedUsdDelta entry.2) = .ok usd ∧
      t.grossUsd = addUsd s.grossUsd usd := by
  obtain ⟨asset, delta⟩ := entry
  simp only [measureToken] at h
  rw [show (inputs.prices.find? fun p => lower p.1 = asset).map (·.2) = priceOf inputs asset
    from rfl] at h
  cases hPrice : priceOf inputs asset with
  | none =>
      rw [hPrice] at h
      obtain rfl := pure_eq_ok.mp h
      exact ⟨none, rfl, rfl⟩
  | some price =>
      rw [hPrice] at h
      obtain ⟨_, -, h⟩ := bind_eq_ok.mp h
      obtain ⟨value, hValue, h⟩ := bind_eq_ok.mp h
      obtain rfl := pure_eq_ok.mp h
      refine ⟨some value, ?_, rfl⟩
      rw [Option.mapM_some, hValue]
      rfl

/-- Measuring the tokens adds the values of those that have a price. -/
theorem measureTokens_eq_ok {s t : MeasureState} {entries : List (String × Int)}
    (h : entries.foldlM (measureToken inputs) s = .ok t) :
    ∃ tokens, List.Forall₂ (fun entry usd =>
        (priceOf inputs entry.1).mapM (signedUsdDelta entry.2) = .ok usd) entries tokens ∧
      t.grossUsd = tokens.foldl addUsd s.grossUsd := by
  induction entries generalizing s with
  | nil =>
      obtain rfl := pure_eq_ok.mp h
      exact ⟨[], .nil, rfl⟩
  | cons entry entries ih =>
      rw [List.foldlM_cons] at h
      obtain ⟨next, hNext, h⟩ := bind_eq_ok.mp h
      obtain ⟨usd, hUsd, hGross⟩ := measureToken_eq_ok hNext
      obtain ⟨tokens, hTokens, hFinal⟩ := ih h
      exact ⟨usd :: tokens, .cons hUsd hTokens, by rw [hFinal, hGross, List.foldl_cons]⟩

/-- The net result of a measurement is made of the assets that have a price. -/
theorem measureBase_eq_ok {r : EconomicReport} (h : measureBase inputs = .ok r) :
    ∃ native gas tokens,
      inputs.nativePrice.mapM (signedUsdDelta (nativeDelta inputs)) = .ok native ∧
      inputs.nativePrice.mapM (signedUsdDelta (gasCost inputs)) = .ok gas ∧
      List.Forall₂ (fun entry usd =>
        (priceOf inputs entry.1).mapM (signedUsdDelta entry.2) = .ok usd)
        (tokenDeltas inputs) tokens ∧
      r.attackerNetUsd = netUsd native tokens gas ∧ r.sensitivity = [] ∧
      r.protocolAssetsDeltaWei = inputs.protocolAssetsDeltaWei := by
  rw [measureBase] at h
  obtain ⟨_, -, h⟩ := bind_eq_ok.mp h
  obtain ⟨_, -, h⟩ := bind_eq_ok.mp h
  obtain ⟨gas, hGas, h⟩ := bind_eq_ok.mp h
  obtain ⟨native, hNative, h⟩ := bind_eq_ok.mp h
  obtain ⟨final, hFinal, h⟩ := bind_eq_ok.mp h
  obtain rfl := pure_eq_ok.mp h
  obtain ⟨tokens, hTokens, hGross⟩ := measureTokens_eq_ok hFinal
  refine ⟨native, gas, tokens, hNative, hGas, hTokens, ?_, rfl, rfl⟩
  rw [netUsd, ← hGross]

/-- A measured net result is the worth of what moved if and only if all that moved is priced. -/
theorem valued_iff {r : EconomicReport} {net : PyFloat} (h : measureBase inputs = .ok r)
    (hNet : r.attackerNetUsd = some net) : Valued inputs net ↔ MovedPriced inputs := by
  obtain ⟨native, gas, tokens, hNative, hGas, hTokens, hSum, -⟩ := measureBase_eq_ok h
  constructor
  · rintro ⟨native', gas', tokens', hNative', hGas', hTokens', -⟩
    exact ⟨fun hNone => ⟨(worth_eq_ok.mp hNative').2 hNone, (worth_eq_ok.mp hGas').2 hNone⟩,
      (worths_eq_ok.mp hTokens').1⟩
  · intro hPriced
    exact ⟨native, gas, tokens,
      worth_eq_ok.mpr ⟨hNative, fun hNone => (hPriced.native hNone).1⟩,
      worth_eq_ok.mpr ⟨hGas, fun hNone => (hPriced.native hNone).2⟩,
      worths_eq_ok.mpr ⟨hPriced.tokens, hTokens⟩, hSum.symm.trans hNet⟩

/-- A measurement with a result found a price. -/
theorem somePriced_of_net {r : EconomicReport} {net : PyFloat} (h : measureBase inputs = .ok r)
    (hNet : r.attackerNetUsd = some net) : SomePriced inputs := by
  obtain ⟨native, gas, tokens, hNative, -, hTokens, hSum, -⟩ := measureBase_eq_ok h
  by_contra hNone
  rw [SomePriced, not_or, Option.not_isSome_iff_eq_none] at hNone
  obtain ⟨hNativePrice, hTokenPrices⟩ := hNone
  have hNoUsd : tokens.foldl addUsd native = none := by
    refine foldl_addUsd_eq_none.mpr ⟨?_, fun usd hUsd => ?_⟩
    · rw [hNativePrice, Option.mapM_none] at hNative
      exact (pure_eq_ok.mp hNative).symm
    · obtain ⟨entry, hEntry, hWorth⟩ := forall₂_exists_left hTokens hUsd
      have hUnpriced : priceOf inputs entry.1 = none :=
        Option.not_isSome_iff_eq_none.mp fun hSome => hTokenPrices ⟨entry, hEntry, hSome⟩
      rw [hUnpriced, Option.mapM_none] at hWorth
      exact (pure_eq_ok.mp hWorth).symm
  rw [netUsd, hNoUsd] at hSum
  cases hSum.symm.trans hNet

end Measurement

section Scenarios

variable {inputs : EconomicInputs}

def scaledInputs (inputs : EconomicInputs) (bps : Int) : Py EconomicInputs := do
  let factor := (PyFloat.ofRat 1).add (.ofRat (mkRat bps 10000))
  let nativePrice ← inputs.nativePrice.mapM (PricePoint.scale · factor)
  let prices ← inputs.prices.mapM fun p => (fun price => (p.1, price)) <$> p.2.scale factor
  pure { inputs with nativePrice := nativePrice, prices := prices }

theorem measureScenario_eq_ok {bps : Int} {scenario : SensitivityScenario}
    (h : measureScenario inputs bps = .ok scenario) :
    ∃ scaled r, scaledInputs inputs bps = .ok scaled ∧ measureBase scaled = .ok r ∧
      r.attackerNetUsd = some scenario.netUsd := by
  rw [measureScenario] at h
  obtain ⟨native, hNative, h⟩ := bind_eq_ok.mp h
  obtain ⟨prices, hPrices, h⟩ := bind_eq_ok.mp h
  obtain ⟨r, hMeasured, h⟩ := bind_eq_ok.mp h
  refine ⟨_, r, bind_eq_ok.mpr ⟨native, hNative, bind_eq_ok.mpr ⟨prices, hPrices, rfl⟩⟩,
    hMeasured, ?_⟩
  split at h
  · cases h
  · rename_i net hNet
    obtain rfl := pure_eq_ok.mp h
    exact hNet

/-- A token has no price when no key of the prices is its own, in lower case. -/
theorem priceOf_eq_none {asset : String} :
    priceOf inputs asset = none ↔ ∀ key ∈ inputs.prices.map Prod.fst, lower key ≠ asset := by
  rw [priceOf, Option.map_eq_none_iff, List.find?_eq_none]
  simp

theorem scaled_keys {factor : PyFloat} {prices scaled : List (String × PricePoint)}
    (h : prices.mapM (fun p => (fun price => (p.1, price)) <$> p.2.scale factor) = .ok scaled) :
    scaled.map Prod.fst = prices.map Prod.fst := by
  rw [mapM_eq_ok] at h
  induction h with
  | nil => rfl
  | cons hHead _ ih =>
      obtain ⟨price, -, rfl⟩ := map_eq_ok.mp hHead
      rw [List.map_cons, List.map_cons, ih]

theorem scaled_native {factor : PyFloat} {price scaled : Option PricePoint}
    (h : price.mapM (PricePoint.scale · factor) = .ok scaled) : scaled = none ↔ price = none := by
  cases price with
  | none =>
      rw [Option.mapM_none] at h
      obtain rfl := pure_eq_ok.mp h
      exact Iff.rfl
  | some price =>
      rw [Option.mapM_some] at h
      obtain ⟨p, -, rfl⟩ := map_eq_ok.mp h
      exact ⟨fun hNone => (nomatch hNone), fun hNone => (nomatch hNone)⟩

/-- Scaling keeps which assets are priced, and what they moved. -/
theorem scaled_movedPriced {bps : Int} {scaled : EconomicInputs}
    (h : scaledInputs inputs bps = .ok scaled) : MovedPriced scaled ↔ MovedPriced inputs := by
  obtain ⟨native, hNative, h⟩ := bind_eq_ok.mp h
  obtain ⟨prices, hPrices, h⟩ := bind_eq_ok.mp h
  obtain rfl := pure_eq_ok.mp h
  have hFind : ∀ asset, priceOf { inputs with nativePrice := native, prices := prices } asset =
      none ↔ priceOf inputs asset = none := by
    intro asset
    rw [priceOf_eq_none, priceOf_eq_none, ← scaled_keys hPrices]
  constructor
  · intro hMoved
    exact ⟨fun hNone => hMoved.native ((scaled_native hNative).mpr hNone),
      fun entry hEntry hNone => hMoved.tokens entry hEntry ((hFind _).mpr hNone)⟩
  · intro hMoved
    exact ⟨fun hNone => hMoved.native ((scaled_native hNative).mp hNone),
      fun entry hEntry hNone => hMoved.tokens entry hEntry ((hFind _).mp hNone)⟩

/-- A scenario values what moved exactly when all of that has a price. -/
theorem scenario_valued_iff {bps : Int} {scenario : SensitivityScenario}
    (h : measureScenario inputs bps = .ok scenario) :
    (∃ scaled, scaledInputs inputs bps = .ok scaled ∧ Valued scaled scenario.netUsd) ↔
      MovedPriced inputs := by
  obtain ⟨scaled, r, hScaled, hMeasured, hNet⟩ := measureScenario_eq_ok h
  rw [← scaled_movedPriced hScaled, ← valued_iff hMeasured hNet]
  constructor
  · rintro ⟨other, hOther, hValued⟩
    obtain rfl := Except.ok.inj (hScaled.symm.trans hOther)
    exact hValued
  · exact fun hValued => ⟨scaled, hScaled, hValued⟩

/-- The net result of every scenario is the worth of what moved, at that scenario's prices. -/
def AllValued (inputs : EconomicInputs) (scenarios : List (String × SensitivityScenario)) : Prop :=
  ∀ entry ∈ sensitivityLabels, ∃ scenario scaled, assoc? entry.2 scenarios = some scenario ∧
    scaledInputs inputs entry.1 = .ok scaled ∧ Valued scaled scenario.netUsd

theorem measure_protocolAssets {r : EconomicReport} (h : measure inputs = .ok r) :
    r.protocolAssetsDeltaWei = inputs.protocolAssetsDeltaWei := by
  rw [measure] at h
  obtain ⟨base, hBase, h⟩ := bind_eq_ok.mp h
  obtain ⟨_, _, _, _, _, _, _, _, hProtocol⟩ := measureBase_eq_ok hBase
  split at h
  · obtain rfl := pure_eq_ok.mp h
    exact hProtocol
  · obtain ⟨scenarios, -, h⟩ := bind_eq_ok.mp h
    obtain rfl := pure_eq_ok.mp h
    exact hProtocol

/-- Each scenario is found under its label. -/
theorem scenarios_found {scenarios : List (String × SensitivityScenario)}
    (h : sensitivityLabels.mapM (fun entry =>
      (fun scenario => (entry.2, scenario)) <$> measureScenario inputs entry.1) = .ok scenarios) :
    ∀ entry ∈ sensitivityLabels, ∃ scenario, measureScenario inputs entry.1 = .ok scenario ∧
      assoc? entry.2 scenarios = some scenario := by
  rw [mapM_eq_ok] at h
  cases h with
  | cons hMinus h =>
  cases h with
  | cons hBase h =>
  cases h with
  | cons hPlus h =>
  cases h
  obtain ⟨minus, hMinusRun, rfl⟩ := map_eq_ok.mp hMinus
  obtain ⟨base, hBaseRun, rfl⟩ := map_eq_ok.mp hBase
  obtain ⟨plus, hPlusRun, rfl⟩ := map_eq_ok.mp hPlus
  simp only [sensitivityLabels, List.forall_mem_cons]
  exact ⟨⟨minus, hMinusRun, rfl⟩, ⟨base, hBaseRun, rfl⟩, ⟨plus, hPlusRun, rfl⟩,
    fun _ hNone => (List.not_mem_nil hNone).elim⟩

/-- What is measured with all scenarios has a price for some asset, and values all that moved
if and only if each asset that moved is priced. -/
theorem measure_valued_iff {r : EconomicReport} (h : measure inputs = .ok r)
    (hScenarios : r.sensitivity ≠ []) :
    SomePriced inputs ∧ (AllValued inputs r.sensitivityScenarios ↔ MovedPriced inputs) := by
  rw [measure] at h
  obtain ⟨base, hBase, h⟩ := bind_eq_ok.mp h
  split at h
  · obtain rfl := pure_eq_ok.mp h
    obtain ⟨_, _, _, _, _, _, _, hEmpty, -⟩ := measureBase_eq_ok hBase
    exact absurd hEmpty hScenarios
  · rename_i hNet
    rw [Bool.not_eq_true, Option.isNone_eq_false_iff] at hNet
    obtain ⟨net, hNet⟩ := Option.isSome_iff_exists.mp hNet
    obtain ⟨scenarios, hAll, h⟩ := bind_eq_ok.mp h
    obtain rfl := pure_eq_ok.mp h
    have hFound := scenarios_found hAll
    refine ⟨somePriced_of_net hBase hNet, fun hValued => ?_, fun hMoved entry hEntry => ?_⟩
    · obtain ⟨scenario, hScenario, hAssoc⟩ := hFound (-500, "minus_500bps") (List.mem_cons_self ..)
      obtain ⟨other, scaled, hOther, hScaled, hWorth⟩ :=
        hValued (-500, "minus_500bps") (List.mem_cons_self ..)
      obtain rfl := Option.some.inj (hAssoc.symm.trans hOther)
      exact (scenario_valued_iff hScenario).mp ⟨scaled, hScaled, hWorth⟩
    · obtain ⟨scenario, hScenario, hAssoc⟩ := hFound entry hEntry
      obtain ⟨scaled, hScaled, hWorth⟩ := (scenario_valued_iff hScenario).mpr hMoved
      exact ⟨scenario, scaled, hAssoc, hScaled, hWorth⟩

end Scenarios
end L0vi0x.Chain
