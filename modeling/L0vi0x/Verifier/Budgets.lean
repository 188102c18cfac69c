import L0vi0x.Verifier.ReplayAgreement

/-! The declared time and block budgets. The verifier parses the trace without
enforcing them; the parser's clock account says which traces respect them. -/
namespace L0vi0x.Verifier

open L0vi0x.Python L0vi0x.Core L0vi0x.Chain

variable {host : Host} {fs : FileSystem} {ctx : VerificationContext}

def payloadRecords (payload : Json) : List Json :=
  match traceRecords payload with
  | .ok records => flattenRecords records
  | .error _ => []

/-- The initial value of a clock of a payload. -/
def payloadClock (payload : Json) (key : String) : Int :=
  match initialClock payload key with
  | .ok (some start) => start
  | _ => 0

/-- A limit is not negative, and no call of the cheatcode sets its clock further
than the limit from where it started. -/
def WithinLimit (host : Host) (payload : Json) (name key : String) (limit : Int) : Prop :=
  0 ≤ limit ∧ ∀ v ∈ clockValues host name (payloadRecords payload),
    v ≤ payloadClock payload key + limit

/-- The trace respects the witness's declared budgets. -/
def BudgetRespected (host : Host) (payload : Json) (w : Witness) : Prop :=
  WithinLimit host payload "warp" "initial_timestamp" w.maxTimeAdvanceS ∧
    WithinLimit host payload "roll" "initial_block" w.maxBlockAdvance

/-- The initial value of a clock is the one of the payload, or zero. -/
theorem payloadClock_eq {payload : Json} {key : String} {start : Option Int}
    (h : initialClock payload key = .ok start) : payloadClock payload key = start.getD 0 := by
  unfold payloadClock
  rw [h]
  cases start <;> rfl

/-- What `enforce_time_block_limits` compares, in terms of the records. -/
theorem cumulative_le_iff {payload : Json} {t : TraceSummary} (h : TraceOf host payload t)
    (w : Witness) :
    (t.cumulativeWarpS ≤ w.maxTimeAdvanceS ∧ t.cumulativeRoll ≤ w.maxBlockAdvance) ↔
      BudgetRespected host payload w := by
  obtain ⟨records, timestamp, block, hRecords, hTimestamp, hBlock, _, _, _, hWarp, hRoll⟩ :=
    h.parsed
  have hFlat : payloadRecords payload = flattenRecords records := by
    simp only [payloadRecords, hRecords]
  simp only [BudgetRespected, WithinLimit, hFlat, payloadClock_eq hTimestamp,
    payloadClock_eq hBlock, hWarp.sum_le_iff, hRoll.sum_le_iff]

/-- The budgets are respected exactly when the limits are enforced successfully. -/
theorem enforceTimeBlockLimits_eq_ok {payload : Json} {t : TraceSummary}
    (h : TraceOf host payload t) (w : Witness) :
    enforceTimeBlockLimits t w.maxTimeAdvanceS w.maxBlockAdvance = .ok () ↔
      BudgetRespected host payload w := by
  rw [← cumulative_le_iff h]
  simp only [enforceTimeBlockLimits, bind_eq_ok, raiseIf_eq_ok, decide_eq_false_iff_not, not_or,
    not_lt]
  obtain ⟨_, _, _, _, _, _, _, _, _, hWarp, hRoll⟩ := h.parsed
  have hWarpSum := hWarp.nonneg
  have hRollSum := hRoll.nonneg
  constructor
  · rintro ⟨_, _, _, hTime, hBlocks⟩
    exact ⟨by simpa using hTime, by simpa using hBlocks⟩
  · rintro ⟨hTime, hBlocks⟩
    exact ⟨(), ⟨by omega, by omega⟩, (), by simpa using hTime, by simpa using hBlocks⟩

/-- A passing verification stays within the declared budgets exactly when no warp
or roll record of the first retained trace sets its clock beyond them. -/
theorem passed_within_budgets_iff (h : ReturnsPassed (verify host fs ctx)) :
    ∃ run rest payload, derivedRuns host fs ctx = .ok (run :: rest) ∧
      retainedTrace fs run.root = .ok payload ∧
      ((run.trace.cumulativeWarpS ≤ ctx.witness.maxTimeAdvanceS ∧
        run.trace.cumulativeRoll ≤ ctx.witness.maxBlockAdvance) ↔
        BudgetRespected host payload ctx.witness) := by
  obtain ⟨replay, run, rest, e, hAccepted⟩ := verify_passes_iff.mp h
  obtain ⟨_, _, _, hLoad⟩ := loadRun_of_derivedRuns hAccepted.derived (List.mem_cons_self ..)
  obtain ⟨payload, hPayload, hParse⟩ := retainedTrace_of_loadRun hLoad
  exact ⟨run, rest, payload, hAccepted.derived, hPayload,
    cumulative_le_iff (traceOf_parseRecords hParse) ctx.witness⟩

section Late

open Sample

def warpFrame (timestamp : Int) : Json := .obj
  [("args", .arr [.int timestamp]), ("cheatcode", .str "warp"), ("depth", .int 2),
    ("phase", .str "witness"), ("to", .str cheatcodeAddress)]

/-- A run that moves the clock by 999 seconds, where 60 are declared. -/
def late : AcceptedRecord where
  toRecorded := recorded [createFrame, warpFrame 1000, callFrame .witness] 0
    ⟨by decide +kernel, by decide +kernel⟩
  accepted := by decide +kernel

theorem late_over_budget :
    ¬ (summary late.trace).cumulativeWarpS ≤ witness.maxTimeAdvanceS := by
  decide

/-- A trace beyond the declared time budget passes. -/
theorem over_budget_passes :
    ¬ ∀ (host : Host) (fs : FileSystem) (ctx : VerificationContext),
      ReturnsPassed (verify host fs ctx) → ∀ run rest,
        derivedRuns host fs ctx = .ok (run :: rest) →
          run.trace.cumulativeWarpS ≤ ctx.witness.maxTimeAdvanceS ∧
            run.trace.cumulativeRoll ≤ ctx.witness.maxBlockAdvance := by
  intro h
  exact late_over_budget (h _ _ _ late.passes _ _ late.derivedRuns_eq).1

theorem late_within_budgets_iff :
    ∃ run rest payload, derivedRuns Sample.host late.files late.context = .ok (run :: rest) ∧
      retainedTrace late.files run.root = .ok payload ∧
      ((run.trace.cumulativeWarpS ≤ late.context.witness.maxTimeAdvanceS ∧
        run.trace.cumulativeRoll ≤ late.context.witness.maxBlockAdvance) ↔
        BudgetRespected Sample.host payload late.context.witness) :=
  passed_within_budgets_iff late.passes

end Late
end L0vi0x.Verifier
