import L0vi0x.Core.Models
import L0vi0x.Python.Mapping

/-! Price points and the economics of a run, in the floats of the program. -/
namespace L0vi0x.Chain

open L0vi0x.Python L0vi0x.Core

/-- The price of an asset. A price point that exists has passed the checks of its
constructor. -/
structure PricePoint where
  asset : String
  usdPerUnit : PyFloat
  decimals : Int
  source : String
  block : Option Int
  observedAt : Option String
  decimalsValid : 0 ≤ decimals ∧ decimals ≤ 255
  priceValid : usdPerUnit.number.lt (.exact 0) = false ∧ usdPerUnit.isFinite = true
  sourceValid : strip source ≠ ""

/-- `PricePoint(...)` with its `__post_init__`. -/
def PricePoint.make (asset : String) (usdPerUnit : PyFloat) (decimals : Int) (source : String)
    (block : Option Int) (observedAt : Option String) : Py PricePoint :=
  if hDecimals : 0 ≤ decimals ∧ decimals ≤ 255 then
    if hPrice : usdPerUnit.number.lt (.exact 0) = false ∧ usdPerUnit.isFinite = true then
      if hSource : strip source ≠ "" then
        pure ⟨asset, usdPerUnit, decimals, source, block, observedAt, hDecimals, hPrice, hSource⟩
      else raise .valueError "price source is required"
    else raise .valueError "price must be finite and non-negative"
  else raise .valueError "asset decimals must be in [0,255]"

/-- `replace(price, usd_per_unit=price.usd_per_unit * factor)`. -/
def PricePoint.scale (p : PricePoint) (factor : PyFloat) : Py PricePoint :=
  PricePoint.make p.asset (p.usdPerUnit.mul factor) p.decimals p.source p.block p.observedAt

def usdValue (amount : Int) (price : PricePoint) : Py PyFloat := do
  raiseIf (amount < 0) .valueError "amount must be non-negative"
  let units ← trueDivide amount (10 ^ price.decimals.toNat)
  pure (units.mul price.usdPerUnit)

def signedUsdDelta (delta : Int) (price : PricePoint) : Py PyFloat := do
  let sign := PyFloat.ofRat (if delta < 0 then -1 else 1)
  let value ← usdValue delta.natAbs price
  pure (sign.mul value)

def orZero (x : Option PyFloat) : PyFloat :=
  match x with
  | none => .ofRat 0
  | some x => if x.isZero then .ofRat 0 else x

def assoc? {α : Type} (key : String) (pairs : List (String × α)) : Option α :=
  (pairs.find? fun p => p.1 = key).map (·.2)

structure EconomicInputs where
  nativeBeforeWei : Int
  nativeAfterWei : Int
  tokenBefore : List (String × Int)
  tokenAfter : List (String × Int)
  tokenDecimals : List (String × Int)
  prices : List (String × PricePoint)
  gasUsed : Int
  gasPriceWei : Int
  declaredCapitalWei : Int
  observedCapitalWei : Option Int
  nativePrice : Option PricePoint
  pinnedBlock : Option Int
  protocolAssetsDeltaWei : Option Int

/-- One recomputation of the economics with scaled prices. -/
structure SensitivityScenario where
  bps : Int
  priceMultiplier : PyFloat
  netUsd : PyFloat
  nativePriceUsdPerUnit : Option PyFloat
  tokenPricesUsdPerUnit : List (String × PyFloat)
  deriving DecidableEq

structure EconomicReport where
  nativeDeltaWei : Int
  tokenDeltas : List (String × Int)
  attackerGrossUsd : Option PyFloat
  gasCostNativeWei : Int
  gasCostUsd : Option PyFloat
  attackerNetUsd : Option PyFloat
  capitalRequiredWei : Int
  protocolAssetsDeltaWei : Option Int
  sensitivity : List (String × PyFloat)
  sensitivityScenarios : List (String × SensitivityScenario)
  realismFlags : List String
  priceSources : List String

/-- The changes of the token balances, one for each token seen before or after. Keys that
differ in case only are assigned one after the other. -/
def tokenDeltas (inputs : EconomicInputs) : List (String × Int) :=
  let keys := (inputs.tokenBefore ++ inputs.tokenAfter).map (·.1) |>.dedup
  Mapping.collect (fun k =>
    (lower k, (assoc? k inputs.tokenAfter).getD 0 - (assoc? k inputs.tokenBefore).getD 0)) keys

/-- What the loop over the token deltas carries: the gross value, the flags and the
price sources. -/
structure MeasureState where
  grossUsd : Option PyFloat
  flags : List String
  sources : List String

/-- One token delta, priced when a price for it is known. -/
def measureToken (inputs : EconomicInputs) (state : MeasureState) (entry : String × Int) :
    Py MeasureState := do
  let (asset, delta) := entry
  let price := (inputs.prices.find? fun p => lower p.1 = asset).map (·.2)
  match price with
  | none =>
      pure { state with
        flags := if delta ≠ 0 then state.flags ++ ["price_unavailable:" ++ asset]
          else state.flags }
  | some price =>
      let declared := assoc? asset inputs.tokenDecimals
      raiseIf (declared.isSome && declared != some price.decimals) .valueError
        ("price decimals for " ++ asset ++ " do not match declared token decimals")
      let value ← signedUsdDelta delta price
      pure { state with
        grossUsd := some ((orZero state.grossUsd).add value)
        sources := state.sources ++ [price.source] }

def measureBase (inputs : EconomicInputs) : Py EconomicReport := do
  raiseIf (inputs.gasUsed < 0 ∨ inputs.gasPriceWei < 0) .valueError
    "gas measurements must be non-negative"
  raiseIf (inputs.declaredCapitalWei < 0) .valueError "declared capital must be non-negative"
  let nativeDelta := inputs.nativeAfterWei - inputs.nativeBeforeWei
  let deltas := tokenDeltas inputs
  let capital := inputs.observedCapitalWei.getD inputs.declaredCapitalWei
  let capitalFlags := if capital > inputs.declaredCapitalWei then
    ["declared_capital_understates_observed_capital"] else []
  let gasCost := inputs.gasUsed * inputs.gasPriceWei
  let gasUsd ← inputs.nativePrice.mapM (signedUsdDelta gasCost)
  let grossUsd ← inputs.nativePrice.mapM (signedUsdDelta nativeDelta)
  let flags := if inputs.nativePrice.isNone && nativeDelta != 0 then
    capitalFlags ++ ["native_price_unavailable"] else capitalFlags
  let final ← deltas.foldlM (measureToken inputs) ⟨grossUsd, flags, []⟩
  let sources := final.sources ++ (inputs.nativePrice.map (·.source)).toList
  pure {
    nativeDeltaWei := nativeDelta
    tokenDeltas := deltas
    attackerGrossUsd := final.grossUsd
    gasCostNativeWei := gasCost
    gasCostUsd := gasUsd
    attackerNetUsd := final.grossUsd.map fun gross => gross.sub (orZero gasUsd)
    capitalRequiredWei := capital
    protocolAssetsDeltaWei := inputs.protocolAssetsDeltaWei
    sensitivity := []
    sensitivityScenarios := []
    realismFlags := final.flags
    priceSources := sources.dedup.insertionSort (· ≤ ·) }

/-- The scenarios that `measure` recomputes, in its order. -/
def sensitivityLabels : List (Int × String) :=
  [(-500, "minus_500bps"), (0, "base"), (500, "plus_500bps")]

/-- The economics with every price scaled by one scenario's factor. -/
def measureScenario (inputs : EconomicInputs) (bps : Int) : Py SensitivityScenario := do
  let factor := (PyFloat.ofRat 1).add (.ofRat (mkRat bps 10000))
  let nativePrice ← inputs.nativePrice.mapM (PricePoint.scale · factor)
  let prices ← inputs.prices.mapM fun p => (fun price => (p.1, price)) <$> p.2.scale factor
  let scenario ← measureBase { inputs with nativePrice := nativePrice, prices := prices }
  match scenario.attackerNetUsd with
  | none =>
      raise .valueError ("sensitivity scenario " ++ String.ofList (intText bps) ++
        " bps lacks a reproducible USD result")
  | some net => pure {
      bps := bps
      priceMultiplier := factor
      netUsd := net
      nativePriceUsdPerUnit := nativePrice.map (·.usdPerUnit)
      tokenPricesUsdPerUnit := Mapping.collect (fun p => (lower p.1, p.2.usdPerUnit)) prices }

/-- Base economics, and the scenarios recomputed from the same observations. -/
def measure (inputs : EconomicInputs) : Py EconomicReport := do
  let base ← measureBase inputs
  if base.attackerNetUsd.isNone then pure base
  else
    let scenarios ← sensitivityLabels.mapM fun entry =>
      (fun scenario => (entry.2, scenario)) <$> measureScenario inputs entry.1
    pure { base with
      sensitivity := scenarios.map fun p => (p.1, p.2.netUsd)
      sensitivityScenarios := scenarios }

end L0vi0x.Chain
