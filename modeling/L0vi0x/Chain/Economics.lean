import L0vi0x.Chain.Econ

/-! The economics of a run over an arithmetic of prices. Over the floats it is the
measurement that the program makes. -/
namespace L0vi0x.Chain.Economics

open L0vi0x.Python

/-- Prices, and the numbers that amounts are valued in. -/
structure Arithmetic (P N : Type) where
  decimals : P → Int
  source : P → String
  usdPerUnit : P → N
  scale : P → N → Py P
  factor : Int → N
  signedUsdDelta : Int → P → Py N
  orZero : Option N → N
  add : N → N → N
  sub : N → N → N

structure Inputs (P : Type) where
  nativeBeforeWei : Int
  nativeAfterWei : Int
  tokenBefore : List (String × Int)
  tokenAfter : List (String × Int)
  tokenDecimals : List (String × Int)
  prices : List (String × P)
  gasUsed : Int
  gasPriceWei : Int
  declaredCapitalWei : Int
  observedCapitalWei : Option Int
  nativePrice : Option P
  pinnedBlock : Option Int
  protocolAssetsDeltaWei : Option Int

structure Scenario (N : Type) where
  bps : Int
  priceMultiplier : N
  netUsd : N
  nativePriceUsdPerUnit : Option N
  tokenPricesUsdPerUnit : List (String × N)

structure Report (N : Type) where
  nativeDeltaWei : Int
  tokenDeltas : List (String × Int)
  attackerGrossUsd : Option N
  gasCostNativeWei : Int
  gasCostUsd : Option N
  attackerNetUsd : Option N
  capitalRequiredWei : Int
  protocolAssetsDeltaWei : Option Int
  sensitivity : List (String × N)
  sensitivityScenarios : List (String × Scenario N)
  realismFlags : List String
  priceSources : List String

variable {P N : Type} (A : Arithmetic P N)

def nativeDelta (I : Inputs P) : Int := I.nativeAfterWei - I.nativeBeforeWei

def gasCost (I : Inputs P) : Int := I.gasUsed * I.gasPriceWei

/-- The first price whose key is the asset in lower case. -/
def priceOf (I : Inputs P) (asset : String) : Option P :=
  (I.prices.find? fun p => lower p.1 = asset).map (·.2)

/-- The item that the comprehension makes of one raw key. -/
def tokenDelta (I : Inputs P) (k : String) : String × Int :=
  (lower k, (Mapping.get? k I.tokenAfter).getD 0 - (Mapping.get? k I.tokenBefore).getD 0)

/-- The raw keys of a run, in the order in which their set is iterated. -/
structure Lists (keys : List String) (I : Inputs P) : Prop where
  nodup : keys.Nodup
  mem : ∀ k, k ∈ keys ↔ k ∈ (I.tokenBefore ++ I.tokenAfter).map (·.1)

def tokenDeltas (I : Inputs P) (keys : List String) : List (String × Int) :=
  Mapping.collect (tokenDelta I) keys

structure Progress (N : Type) where
  grossUsd : Option N
  flags : List String
  sources : List String

def measureToken (I : Inputs P) (state : Progress N) (entry : String × Int) :
    Py (Progress N) :=
  match priceOf I entry.1 with
  | none =>
      pure { state with
        flags := if entry.2 ≠ 0 then state.flags ++ ["price_unavailable:" ++ entry.1]
          else state.flags }
  | some price => do
      let declared := Mapping.get? entry.1 I.tokenDecimals
      raiseIf (declared.isSome && declared != some (A.decimals price)) .valueError
        ("price decimals for " ++ entry.1 ++ " do not match declared token decimals")
      let value ← A.signedUsdDelta entry.2 price
      pure { state with
        grossUsd := some (A.add (A.orZero state.grossUsd) value)
        sources := state.sources ++ [A.source price] }

def capitalRequired (I : Inputs P) : Int := I.observedCapitalWei.getD I.declaredCapitalWei

/-- The flags that are raised before the tokens are valued. -/
def runFlags (I : Inputs P) : List String :=
  let capitalFlags := if capitalRequired I > I.declaredCapitalWei then
    ["declared_capital_understates_observed_capital"] else []
  if I.nativePrice.isNone && nativeDelta I != 0 then
    capitalFlags ++ ["native_price_unavailable"] else capitalFlags

/-- `_measure_base(inputs)`, for one order of the raw keys. -/
def measureBase (I : Inputs P) (keys : List String) : Py (Report N) := do
  raiseIf (I.gasUsed < 0 ∨ I.gasPriceWei < 0) .valueError
    "gas measurements must be non-negative"
  raiseIf (I.declaredCapitalWei < 0) .valueError "declared capital must be non-negative"
  let deltas := tokenDeltas I keys
  let gasUsd ← I.nativePrice.mapM (A.signedUsdDelta (gasCost I))
  let grossUsd ← I.nativePrice.mapM (A.signedUsdDelta (nativeDelta I))
  let final ← deltas.foldlM (measureToken A I) ⟨grossUsd, runFlags I, []⟩
  let sources := final.sources ++ (I.nativePrice.map A.source).toList
  pure {
    nativeDeltaWei := nativeDelta I
    tokenDeltas := deltas
    attackerGrossUsd := final.grossUsd
    gasCostNativeWei := gasCost I
    gasCostUsd := gasUsd
    attackerNetUsd := final.grossUsd.map fun gross => A.sub gross (A.orZero gasUsd)
    capitalRequiredWei := capitalRequired I
    protocolAssetsDeltaWei := I.protocolAssetsDeltaWei
    sensitivity := []
    sensitivityScenarios := []
    realismFlags := final.flags
    priceSources := sources.dedup.insertionSort (· ≤ ·) }

def scaled (I : Inputs P) (factor : N) : Py (Inputs P) := do
  let nativePrice ← I.nativePrice.mapM (A.scale · factor)
  let prices ← I.prices.mapM fun p => (fun price => (p.1, price)) <$> A.scale p.2 factor
  pure { I with nativePrice := nativePrice, prices := prices }

def measureScenario (I : Inputs P) (keys : List String) (bps : Int) : Py (Scenario N) := do
  let inputs ← scaled A I (A.factor bps)
  let scenario ← measureBase A inputs keys
  match scenario.attackerNetUsd with
  | none =>
      raise .valueError ("sensitivity scenario " ++ String.ofList (intText bps) ++
        " bps lacks a reproducible USD result")
  | some net => pure {
      bps := bps
      priceMultiplier := A.factor bps
      netUsd := net
      nativePriceUsdPerUnit := inputs.nativePrice.map A.usdPerUnit
      tokenPricesUsdPerUnit :=
        Mapping.collect (fun p => (lower p.1, A.usdPerUnit p.2)) inputs.prices }

/-- `labels[bps]`. -/
def labelOf (bps : Int) : Py String :=
  match Mapping.get? bps sensitivityLabels with
  | some label => pure label
  | none => raise .keyError (String.ofList (intText bps))

def labelledScenario (I : Inputs P) (keys : List String) (bps : Int) :
    Py (String × Scenario N) := do
  let scenario ← measureScenario A I keys bps
  let label ← labelOf bps
  pure (label, scenario)

def measure (I : Inputs P) (keys : List String) (bps : List Int) : Py (Report N) := do
  raiseIf (bps.dedup.insertionSort (· ≤ ·) ≠ [-500, 0, 500]) .valueError
    "M1b economics requires exactly -500, 0, +500 bps sensitivity scenarios"
  let base ← measureBase A I keys
  if base.attackerNetUsd.isNone then pure base
  else
    let scenarios ← bps.mapM (labelledScenario A I keys)
    pure { base with
      sensitivity := Mapping.collect (fun p => (p.1, p.2.netUsd)) scenarios
      sensitivityScenarios := Mapping.collect (fun p => p) scenarios }

section Floats

def floats : Arithmetic PricePoint PyFloat where
  decimals := PricePoint.decimals
  source := PricePoint.source
  usdPerUnit := PricePoint.usdPerUnit
  scale := PricePoint.scale
  factor bps := (PyFloat.ofRat 1).add (.ofRat (mkRat bps 10000))
  signedUsdDelta := Chain.signedUsdDelta
  orZero := Chain.orZero
  add := PyFloat.add
  sub := PyFloat.sub

def ofInputs (inputs : EconomicInputs) : Inputs PricePoint where
  nativeBeforeWei := inputs.nativeBeforeWei
  nativeAfterWei := inputs.nativeAfterWei
  tokenBefore := inputs.tokenBefore
  tokenAfter := inputs.tokenAfter
  tokenDecimals := inputs.tokenDecimals
  prices := inputs.prices
  gasUsed := inputs.gasUsed
  gasPriceWei := inputs.gasPriceWei
  declaredCapitalWei := inputs.declaredCapitalWei
  observedCapitalWei := inputs.observedCapitalWei
  nativePrice := inputs.nativePrice
  pinnedBlock := inputs.pinnedBlock
  protocolAssetsDeltaWei := inputs.protocolAssetsDeltaWei

def Scenario.toFloats (s : Scenario PyFloat) : SensitivityScenario :=
  ⟨s.bps, s.priceMultiplier, s.netUsd, s.nativePriceUsdPerUnit, s.tokenPricesUsdPerUnit⟩

def Report.toFloats (r : Report PyFloat) : EconomicReport where
  nativeDeltaWei := r.nativeDeltaWei
  tokenDeltas := r.tokenDeltas
  attackerGrossUsd := r.attackerGrossUsd
  gasCostNativeWei := r.gasCostNativeWei
  gasCostUsd := r.gasCostUsd
  attackerNetUsd := r.attackerNetUsd
  capitalRequiredWei := r.capitalRequiredWei
  protocolAssetsDeltaWei := r.protocolAssetsDeltaWei
  sensitivity := r.sensitivity
  sensitivityScenarios := r.sensitivityScenarios.map fun p => (p.1, p.2.toFloats)
  realismFlags := r.realismFlags
  priceSources := r.priceSources

/-- A loop on a view of the state is the view of the loop. -/
theorem foldlM_view {α β γ : Type} {step : β → α → Py β} {seen : γ → α → Py γ} (view : β → γ)
    (h : ∀ state item, seen (view state) item = view <$> step state item) (items : List α)
    (init : β) : items.foldlM seen (view init) = view <$> items.foldlM step init := by
  induction items generalizing init with
  | nil => rfl
  | cons item items ih =>
      rw [List.foldlM_cons, List.foldlM_cons, h, map_bind, bind_map_left]
      apply bind_congr
      intro next
      exact ih next

theorem measureToken_floats (inputs : EconomicInputs) (state : Progress PyFloat)
    (entry : String × Int) :
    Chain.measureToken inputs ⟨state.grossUsd, state.flags, state.sources⟩ entry =
      (fun s => ⟨s.grossUsd, s.flags, s.sources⟩) <$>
        measureToken floats (ofInputs inputs) state entry := by
  obtain ⟨asset, delta⟩ := entry
  rw [Chain.measureToken, measureToken]
  simp only [priceOf, ofInputs]
  cases hPrice : (inputs.prices.find? fun p => lower p.1 = asset).map (·.2) with
  | none => rfl
  | some price =>
      simp only [map_bind, map_pure]
      rfl

/-- Over the floats, with the raw keys in one order, it is the measurement of the program. -/
theorem measureBase_floats (inputs : EconomicInputs) :
    Chain.measureBase inputs = Report.toFloats <$> measureBase floats (ofInputs inputs)
      ((inputs.tokenBefore ++ inputs.tokenAfter).map (·.1)).dedup := by
  have hTokens := fun gross => foldlM_view
    (fun s : Progress PyFloat => (⟨s.grossUsd, s.flags, s.sources⟩ : MeasureState))
    (measureToken_floats inputs) (Chain.tokenDeltas inputs) ⟨gross, runFlags (ofInputs inputs), []⟩
  rw [Chain.measureBase, measureBase]
  simp only [map_bind, map_pure]
  apply bind_congr
  intro _
  apply bind_congr
  intro _
  apply bind_congr
  intro gasUsd
  apply bind_congr
  intro grossUsd
  exact (congrArg (· >>= _) (hTokens grossUsd)).trans (bind_map_left _ _ _)

theorem measureScenario_floats (inputs : EconomicInputs) (bps : Int) :
    Chain.measureScenario inputs bps = Scenario.toFloats <$> measureScenario floats
      (ofInputs inputs) ((inputs.tokenBefore ++ inputs.tokenAfter).map (·.1)).dedup bps := by
  rw [Chain.measureScenario, measureScenario, scaled]
  simp only [map_bind, bind_assoc, pure_bind]
  apply bind_congr
  intro nativePrice
  apply bind_congr
  intro prices
  rw [measureBase_floats, bind_map_left]
  apply bind_congr
  intro report
  cases hNet : report.attackerNetUsd with
  | none => simp only [Report.toFloats, hNet]; rfl
  | some net => simp only [Report.toFloats, hNet]; rfl

theorem measure_floats (inputs : EconomicInputs) :
    Chain.measure inputs = Report.toFloats <$> measure floats (ofInputs inputs)
      ((inputs.tokenBefore ++ inputs.tokenAfter).map (·.1)).dedup [-500, 0, 500] := by
  have hBps : ([-500, 0, 500] : List Int).dedup.insertionSort (· ≤ ·) = [-500, 0, 500] := by decide
  have hRaise : raiseIf (([-500, 0, 500] : List Int).dedup.insertionSort (· ≤ ·) ≠ [-500, 0, 500])
      .valueError "M1b economics requires exactly -500, 0, +500 bps sensitivity scenarios" =
        pure () := by rw [hBps]; rfl
  rw [Chain.measure, measure, measureBase_floats, hRaise, pure_bind, bind_map_left, map_bind]
  apply bind_congr
  intro base
  by_cases hNone : base.attackerNetUsd.isNone = true
  · rw [if_pos hNone]
    exact if_pos hNone
  · rw [if_neg hNone]
    refine (if_neg hNone).trans ?_
    have hMinus : labelOf (-500) = .ok "minus_500bps" := rfl
    have hBase : labelOf 0 = .ok "base" := rfl
    have hPlus : labelOf 500 = .ok "plus_500bps" := rfl
    simp only [sensitivityLabels, List.mapM_cons, List.mapM_nil, labelledScenario, hMinus, hBase,
      hPlus, measureScenario_floats, map_bind, bind_assoc, pure_bind, map_pure, bind_map_left,
      Functor.map_map]
    apply bind_congr
    intro minus
    apply bind_congr
    intro base
    apply bind_congr
    intro plus
    rfl

end Floats
end L0vi0x.Chain.Economics
