import L0vi0x.Chain.TraceFidelity
import L0vi0x.Python.FileTree
import L0vi0x.Verifier.EvidenceOrigin

/-! What the derivations make of logs that a failed call has reverted. The scans of the frames
do not look at the flag, so such a log counts like any other. -/
namespace L0vi0x.Verifier

open L0vi0x.Python L0vi0x.Core L0vi0x.Chain

section Purge

/-- `log.get("reverted")` is true. -/
def isReverted (log : Json) : Bool := (log.getD "reverted" .null).truthy

def standing (logs : List Json) : List Json := logs.filter fun log => !isReverted log

def withoutReverted (t : TraceSummary) : TraceSummary :=
  { t with frames := t.frames.map fun f => { f with logs := standing f.logs } }

/-- A run without the logs that are marked as reverted, in both of its traces. -/
def DerivedReplayRun.purged (run : DerivedReplayRun) : DerivedReplayRun :=
  { run with
    trace := withoutReverted run.trace
    controlTrace := withoutReverted run.controlTrace }

theorem allLogs_withoutReverted (t : TraceSummary) :
    allLogs (withoutReverted t).frames = standing (allLogs t.frames) := by
  simp [allLogs, withoutReverted, standing, List.flatMap_map, List.filter_flatMap]

/-- No event of this kind is marked as reverted. -/
def NoneReverted (event : String) (t : TraceSummary) : Prop :=
  ∀ log ∈ allLogs t.frames, isEvent event log = true → isReverted log = false

theorem isObj_of_isReverted {log : Json} (h : isReverted log = true) : log.isObj = true := by
  cases log with
  | obj fields => rfl
  | _ => cases h

/-- A scan passes over a log that is a dictionary of another kind. -/
theorem scanLogs_skip {event : String} {log : Json} {rest : List Json} (hObj : log.isObj = true)
    (hEvent : isEvent event log = false) : scanLogs event (log :: rest) = scanLogs event rest := by
  obtain ⟨fields, rfl⟩ : ∃ fields, log = .obj fields := by
    cases log with
    | obj fields => exact ⟨fields, rfl⟩
    | _ => cases hObj
  have hGet : (Json.obj fields).attrGet "event" .null =
      .ok ((getField? "event" fields).getD .null) := rfl
  have hKind : (getField? "event" fields).getD .null ≠ .str event := by
    intro hKind
    rw [isEvent_obj.mpr hKind] at hEvent
    cases hEvent
  rw [scanLogs, hGet]
  cases hRest : scanLogs event rest with
  | error e => simp [bind, Except.bind]
  | ok more => simp [bind, Except.bind, hKind, pure, Except.pure]

/-- Without reverted events of its kind, a scan finds the same with the reverted logs and
without them. -/
theorem scanLogs_standing {event : String} {logs : List Json}
    (h : ∀ log ∈ logs, isEvent event log = true → isReverted log = false) :
    scanLogs event (standing logs) = scanLogs event logs := by
  induction logs with
  | nil => rfl
  | cons log rest ih =>
      rw [List.forall_mem_cons] at h
      have hRest := ih h.2
      cases hReverted : isReverted log with
      | true =>
          have hEvent : isEvent event log = false := by
            cases hEvent : isEvent event log with
            | false => rfl
            | true => rw [h.1 hEvent] at hReverted; cases hReverted
          rw [scanLogs_skip (isObj_of_isReverted hReverted) hEvent, ← hRest, standing,
            List.filter_cons_of_neg (by simp [hReverted])]
          rfl
      | false =>
          have hKeep : standing (log :: rest) = log :: standing rest := by
            rw [standing, List.filter_cons_of_pos (by simp [hReverted])]
            rfl
          rw [hKeep, scanLogs, hRest]
          rfl

/-- Where no event of a kind is reverted, the same ones are found. -/
theorem scanLogs_withoutReverted {event : String} {t : TraceSummary} (h : NoneReverted event t) :
    scanLogs event (allLogs (withoutReverted t).frames) = scanLogs event (allLogs t.frames) := by
  rw [allLogs_withoutReverted, scanLogs_standing h]

/-- As many events with the reverted logs as without them: none of them is reverted. -/
theorem noneReverted_of_length {event : String} {t : TraceSummary}
    (h : ((allLogs t.frames).filter (isEvent event)).length =
      ((allLogs (withoutReverted t).frames).filter (isEvent event)).length) :
    NoneReverted event t := by
  rw [allLogs_withoutReverted, standing, List.filter_comm] at h
  intro log hLog hEvent
  have hAll := List.length_filter_eq_length_iff.mp h.symm
  simpa using hAll log (List.mem_filter.mpr ⟨hLog, hEvent⟩)

end Purge

section Agreement

variable {host : Host} {fs : FileSystem} {run : DerivedReplayRun} {w : Witness} {prices : Json}

/-- Two computations return the same: one returns where the other does, and the same value. -/
def SameAnswers {α : Type} (f g : Py α) : Prop := ∀ a, f = .ok a ↔ g = .ok a

/-- Two computations that agree when nothing read is reverted, and that cannot both return
when something is, give the same answers exactly when nothing is, once one of them returns. -/
theorem sameAnswers_iff {α : Type} {f g : Py α} {quiet : Prop} (hQuiet : quiet → f = g)
    (hBoth : ∀ a, f = .ok a → g = .ok a → quiet) (hReturns : returns f ∨ returns g) :
    SameAnswers f g ↔ quiet := by
  constructor
  · intro hSame
    rcases hReturns with ⟨a, ha⟩ | ⟨a, ha⟩
    · exact hBoth a ha ((hSame a).mp ha)
    · exact hBoth a ((hSame a).mpr ha) ha
  · intro h a
    rw [hQuiet h]

/-- The three derivations return the same without the reverted logs. -/
structure DerivationsAgree (host : Host) (fs : FileSystem) (run : DerivedReplayRun) (w : Witness)
    (prices : Json) : Prop where
  control : SameAnswers (deriveControl run.trace run.controlTrace w)
    (deriveControl run.purged.trace run.purged.controlTrace w)
  harness : SameAnswers (deriveHarness host fs run w) (deriveHarness host fs run.purged w)
  economics : SameAnswers (deriveEconomics run w prices) (deriveEconomics run.purged w prices)

/-- The control is derived alike where none of its events is reverted. -/
theorem control_purged (h : NoneReverted "ControlObserved" run.controlTrace) :
    deriveControl run.trace run.controlTrace w =
      deriveControl run.purged.trace run.purged.controlTrace w := by
  unfold deriveControl
  simp only [DerivedReplayRun.purged, scanLogs_withoutReverted h]
  rfl

theorem control_length {attack control : TraceSummary} {e : ControlEvidence}
    (h : deriveControl attack control w = .ok e) :
    ((allLogs control.frames).filter (isEvent "ControlObserved")).length =
      ((w.required.map (·.id)).dedup).length := by
  simp only [deriveControl, bind_eq_ok, raiseIf_eq_ok, decide_eq_false_iff_not, not_not] at h
  obtain ⟨events, hScan, _, hLength, _⟩ := h
  rw [← (scanLogs_eq_ok.mp hScan).2, hLength]

/-- The creation of the harness is read from the frames, whatever they log. -/
theorem harnessCreation_withoutReverted (t : TraceSummary) (address : String) :
    harnessCreation host (withoutReverted t).frames w address =
      harnessCreation host t.frames w address := by
  have hCreates : harnessCreates (withoutReverted t).frames address =
      (harnessCreates t.frames address).map fun f => { f with logs := standing f.logs } := by
    rw [harnessCreates, withoutReverted, List.filter_map]
    rfl
  rw [harnessCreation, hCreates, harnessCreation]
  cases harnessCreates t.frames address with
  | nil => rfl
  | cons create rest =>
      cases rest with
      | nil => rfl
      | cons other rest => rfl

/-- The harness is derived alike where none of its events is reverted. -/
theorem harness_purged (hControl : NoneReverted "ControlObserved" run.controlTrace)
    (hSnapshots : NoneReverted "EconomicSnapshot" run.trace) :
    deriveHarness host fs run w = deriveHarness host fs run.purged w := by
  have hCoverage : ∀ origin creation harness wrapper,
      harnessCoverage run.purged w origin creation harness wrapper =
        harnessCoverage run w origin creation harness wrapper := by
    intro origin creation harness wrapper
    unfold harnessCoverage
    simp only [DerivedReplayRun.purged, scanLogs_withoutReverted hControl,
      scanLogs_withoutReverted hSnapshots]
    rfl
  unfold deriveHarness
  simp only [hCoverage]
  simp only [DerivedReplayRun.purged, harnessCreation_withoutReverted]
  rfl

/-- A harness that is derived with and without the reverted logs has none among its events. -/
theorem harness_lengths {e : HarnessEvidence} (h : deriveHarness host fs run w = .ok e)
    (hPurged : deriveHarness host fs run.purged w = .ok e) :
    NoneReverted "ControlObserved" run.controlTrace ∧ NoneReverted "EconomicSnapshot" run.trace := by
  have hCounts := deriveHarness_counts h
  have hStanding := deriveHarness_counts hPurged
  exact ⟨noneReverted_of_length (hCounts.2.2.symm.trans hStanding.2.2),
    noneReverted_of_length (hCounts.2.1.symm.trans hStanding.2.1)⟩

/-- The economics are derived alike where no snapshot is reverted. -/
theorem economics_purged (h : NoneReverted "EconomicSnapshot" run.trace) :
    deriveEconomics run w prices = deriveEconomics run.purged w prices := by
  unfold deriveEconomics
  simp only [DerivedReplayRun.purged, scanLogs_withoutReverted h]
  rfl

theorem economics_length {e : EconomicEvidence} (h : deriveEconomics run w prices = .ok e) :
    ((allLogs run.trace.frames).filter (isEvent "EconomicSnapshot")).length = 1 := by
  simp only [deriveEconomics, bind_eq_ok] at h
  obtain ⟨snapshots, hScan, h⟩ := h
  rw [← (scanLogs_eq_ok.mp hScan).2]
  split at h
  · rfl
  · cases h

/-- A derivation that returns, with the reverted logs or without them, returns the same both
ways exactly when none of the events that it reads is reverted. -/
theorem reverted_logs_iff :
    (returns (deriveControl run.trace run.controlTrace w) ∨
        returns (deriveControl run.purged.trace run.purged.controlTrace w) →
      (SameAnswers (deriveControl run.trace run.controlTrace w)
          (deriveControl run.purged.trace run.purged.controlTrace w) ↔
        NoneReverted "ControlObserved" run.controlTrace)) ∧
    (returns (deriveHarness host fs run w) ∨ returns (deriveHarness host fs run.purged w) →
      (SameAnswers (deriveHarness host fs run w) (deriveHarness host fs run.purged w) ↔
        NoneReverted "ControlObserved" run.controlTrace ∧
          NoneReverted "EconomicSnapshot" run.trace)) ∧
    (returns (deriveEconomics run w prices) ∨ returns (deriveEconomics run.purged w prices) →
      (SameAnswers (deriveEconomics run w prices) (deriveEconomics run.purged w prices) ↔
        NoneReverted "EconomicSnapshot" run.trace)) := by
  refine ⟨?_, ?_, ?_⟩
  · exact sameAnswers_iff control_purged fun e h hPurged =>
      noneReverted_of_length ((control_length h).trans (control_length hPurged).symm)
  · exact sameAnswers_iff (fun h => harness_purged h.1 h.2) fun e h hPurged =>
      harness_lengths h hPurged
  · exact sameAnswers_iff economics_purged fun e h hPurged =>
      noneReverted_of_length ((economics_length h).trans (economics_length hPurged).symm)

/-- A control run whose only event was reverted. -/
def revertedControl : TraceSummary where
  frames := [⟨1, "call", none, none, .witness, .null, .null, none, true,
    [.obj [("event", .str "ControlObserved"), ("id", .str Sample.assertion.id),
      ("reverted", .bool true), ("state_changed", .bool false)]]⟩]
  cheatcodes := []
  transfers := []
  assertionEvents := []
  cumulativeWarpS := 0
  cumulativeRoll := 0
  initialTimestamp := none
  finalTimestamp := none
  initialBlock := none
  finalBlock := none
  gasUsed := 0
  rawSha256 := ""

def revertedControlRun : DerivedReplayRun :=
  ⟨⟨"/", []⟩, { revertedControl with frames := [] }, revertedControl, "", "", []⟩

/-- The reverted event is control evidence: without it the derivation fails. -/
theorem reverted_event_is_evidence :
    ¬ DerivationsAgree Sample.host ((FileTree.dir []).fileSystem ⟨"/", []⟩) revertedControlRun
      Sample.witness .null := by
  intro h
  have hReturns : (deriveControl revertedControlRun.trace revertedControl
      Sample.witness).toBool = true := by decide
  have hRefuses : (deriveControl revertedControlRun.purged.trace
      revertedControlRun.purged.controlTrace Sample.witness).toBool = false := by decide
  obtain ⟨e, he⟩ := ok_of_toBool hReturns
  rw [(h.control e).mp he] at hRefuses
  cases hRefuses

end Agreement
end L0vi0x.Verifier
