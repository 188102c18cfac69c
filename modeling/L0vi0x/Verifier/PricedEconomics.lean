import L0vi0x.Chain.Valuation
import L0vi0x.Verifier.RunIndependence

/-! What V09 accepts is worth what the run moved, unless an asset that moved has no price
while another has one: then its worth is left out. -/
namespace L0vi0x.Verifier

open L0vi0x.Python L0vi0x.Core L0vi0x.Chain

section Priced

variable {run : DerivedReplayRun} {w : Witness} {prices : Json} {e : EconomicEvidence}

/-- The inputs of the measurement, from the evidence and the price table. -/
def measuredInputs (w : Witness) (e : EconomicEvidence) (table : PriceTable) : EconomicInputs :=
  economicInputs w e.snapshot table

/-- The evidence and the table that it was measured with. -/
structure MeasuredWith (run : DerivedReplayRun) (w : Witness) (prices : Json)
    (e : EconomicEvidence) (table : PriceTable) : Prop where
  derived : deriveEconomics run w prices = .ok e
  table : priceEntries prices >>= priceTable w = .ok table

theorem deriveEconomics_measured {table : PriceTable} (h : MeasuredWith run w prices e table) :
    ∃ report, measure (measuredInputs w e table) = .ok report ∧
      e.sensitivity = report.sensitivity ∧ e.sensitivityScenarios = report.sensitivityScenarios := by
  obtain ⟨h, hTable⟩ := h
  rw [deriveEconomics] at h
  obtain ⟨snapshots, -, h⟩ := bind_eq_ok.mp h
  match snapshots, h with
  | [snap], h =>
      simp only [snapshotEconomics] at h
      obtain ⟨token, -, h⟩ := bind_eq_ok.mp h
      obtain ⟨sources, hSources, h⟩ := bind_eq_ok.mp h
      obtain ⟨table', hTable', h⟩ := bind_eq_ok.mp h
      obtain ⟨gasPrice, -, h⟩ := bind_eq_ok.mp h
      obtain ⟨snapshot, -, h⟩ := bind_eq_ok.mp h
      obtain ⟨_, -, h⟩ := bind_eq_ok.mp h
      obtain ⟨report, hReport, h⟩ := bind_eq_ok.mp h
      obtain rfl := pure_eq_ok.mp h
      obtain ⟨sources', hSources', hTable⟩ := bind_eq_ok.mp hTable
      obtain rfl := Except.ok.inj (hSources.symm.trans hSources')
      obtain rfl := Except.ok.inj (hTable'.symm.trans hTable)
      refine ⟨report, ?_, rfl, rfl⟩
      have hSame : measuredInputs w (economicEvidence w snapshot report) table' =
          economicInputs w snapshot table' := by
        rw [measuredInputs, economicEvidence, economicInputs, measure_protocolAssets hReport]
        rfl
      rw [hSame]
      exact hReport
  | [], h => cases h
  | _ :: _ :: _, h => cases h

/-- If one asset of the run is priced, so is each that moved. -/
def NoneLeftOut (inputs : EconomicInputs) : Prop := SomePriced inputs → MovedPriced inputs

theorem sensitivity_of_accepted {production : Bool} {impact : Option PyFloat}
    (h : (checkEcon e production impact).blocks = false) : e.sensitivity ≠ [] := by
  intro hEmpty
  have hLabels := (CheckResult.unless_passes h).1 ⟨!hasScenarioLabels e.sensitivity ||
    !hasScenarioLabels e.sensitivityScenarios, .sensitivityIncomplete,
      "mandatory +/-5% sensitivity scenarios are missing"⟩
    (List.mem_append_left _ (List.mem_append_left _ (by simp)))
  have hNone : hasScenarioLabels e.sensitivity = false := by
    rw [hEmpty]
    rfl
  simp [hNone] at hLabels

/-- All that moved is priced, and the net results are its worth, less that of the gas. -/
structure PricedInFull (inputs : EconomicInputs) (e : EconomicEvidence) : Prop where
  priced : MovedPriced inputs
  valued : AllValued inputs e.sensitivityScenarios

/-- V09 accepts only what has a price for some asset. What it accepts is priced in full if and
only if no asset that moved is left without a price. -/
theorem accepted_priced_iff {table : PriceTable} {production : Bool} {impact : Option PyFloat}
    (h : MeasuredWith run w prices e table)
    (hAccepted : (checkEcon e production impact).blocks = false) :
    PricedInFull (measuredInputs w e table) e ↔ NoneLeftOut (measuredInputs w e table) := by
  obtain ⟨report, hReport, hSensitivity, hScenarios⟩ := deriveEconomics_measured h
  have hLabels : report.sensitivity ≠ [] := hSensitivity ▸ sensitivity_of_accepted hAccepted
  obtain ⟨hSome, hValued⟩ := measure_valued_iff hReport hLabels
  constructor
  · exact fun hPriced _ => hPriced.priced
  · intro hNone
    exact ⟨hNone hSome, hScenarios ▸ hValued.mpr (hNone hSome)⟩

end Priced

section LeftOut

open Sample

/-- A snapshot in which the attacker gains a token, of which no price is known. -/
def tokenLog : Json := .obj
  [("actor", .str wrapper), ("declared_capital", .int 0), ("event", .str "EconomicSnapshot"),
    ("native_after", .int (10 ^ 18)), ("native_before", .int 0), ("protocol_assets_delta", .int 0),
    ("token", .str harness), ("token_after", .int 5), ("token_before", .int 0)]

def tokenFrame : Json := .obj
  [("caller", .str wrapper), ("depth", .int 1), ("kind", .str "call"),
    ("logs", .arr [checkedLog, tokenLog]), ("phase", .str "witness"), ("to", .str harness)]

/-- A run that is accepted though it moved a token without a price. -/
def tokenRun : AcceptedRecord where
  toRecorded := recorded [createFrame, tokenFrame] 0 ⟨by decide +kernel, by decide +kernel⟩
  accepted := by decide +kernel

/-- The run that the verifier derives from it. -/
def tokenDerived : DerivedReplayRun := derived (fun _ => tokenRun.toRecorded) 0

/-- Whether V09 accepts the evidence of the run and a token that it moved has no price. -/
def leavesTokenOut : Bool :=
  match priceEntries prices.val >>= priceTable witness,
      deriveEconomics tokenDerived witness prices.val with
  | .ok table, .ok e => !(checkEcon e false none).blocks &&
      (tokenDeltas (measuredInputs witness e table)).any fun entry =>
        (priceOf (measuredInputs witness e table) entry.1).isNone && entry.2 != 0
  | _, _ => false

theorem token_left_out : leavesTokenOut = true := by decide +kernel

theorem token_accepted : ∃ e table, MeasuredWith tokenDerived witness prices.val e table ∧
    (checkEcon e false none).blocks = false ∧ ¬ MovedPriced (measuredInputs witness e table) := by
  have h := token_left_out
  unfold leavesTokenOut at h
  split at h
  · rename_i table e hTable hDerived
    rw [Bool.and_eq_true, List.any_eq_true, Bool.not_eq_true'] at h
    obtain ⟨hAccepted, entry, hEntry, hUnpriced⟩ := h
    rw [Bool.and_eq_true, Option.isNone_iff_eq_none, bne_iff_ne] at hUnpriced
    exact ⟨e, table, ⟨hDerived, hTable⟩, hAccepted,
      fun hMoved => hUnpriced.2 (hMoved.tokens entry hEntry hUnpriced.1)⟩
  · cases h

/-- A token that moved is counted as nothing. -/
theorem moved_token_not_priced :
    ¬ ∀ (run : DerivedReplayRun) (w : Witness) (prices : Json) (e : EconomicEvidence)
      (table : PriceTable), MeasuredWith run w prices e table →
        (checkEcon e false none).blocks = false →
          PricedInFull (measuredInputs w e table) e := by
  intro hClaim
  obtain ⟨e, table, hMeasured, hAccepted, hUnpriced⟩ := token_accepted
  exact hUnpriced (hClaim _ _ _ e table hMeasured hAccepted).priced

/-- The results that are accepted for the run leave the token out. -/
theorem token_priced_iff : ∃ e table, MeasuredWith tokenDerived witness prices.val e table ∧
    (PricedInFull (measuredInputs witness e table) e ↔
      NoneLeftOut (measuredInputs witness e table)) := by
  obtain ⟨e, table, hMeasured, hAccepted, -⟩ := token_accepted
  exact ⟨e, table, hMeasured, accepted_priced_iff hMeasured hAccepted⟩

end LeftOut
end L0vi0x.Verifier
