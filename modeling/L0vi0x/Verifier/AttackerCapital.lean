import L0vi0x.Verifier.Budgets

/-! The capital of the attacker. V09 compares the balance before the attack with a
figure of the same event, and with no declared one. -/
namespace L0vi0x.Verifier

open L0vi0x.Python L0vi0x.Core L0vi0x.Chain

variable {host : Host} {fs : FileSystem} {ctx : VerificationContext}

def recordLogs (record : Json) : List Json := listedLogs (record.getD "logs" (.arr []))

/-- The economic snapshots that a retained trace logs. -/
def payloadSnapshots (payload : Json) : List Json :=
  ((payloadRecords payload).flatMap recordLogs).filter (isEvent "EconomicSnapshot")

/-- The logs of frames are those of their records. -/
theorem allLogs_of_records {records : List Json} {frames : List TraceFrame}
    (h : List.Forall₂ (fun record frame => ∃ item, record = .obj item ∧
      readFrame item = .ok frame) records frames) :
    allLogs frames = records.flatMap recordLogs := by
  induction h with
  | nil => rfl
  | cons hHead _ ih =>
      obtain ⟨item, rfl, hFrame⟩ := hHead
      rw [allLogs] at ih ⊢
      rw [List.flatMap_cons, List.flatMap_cons, ih, readFrame_logs hFrame, recordLogs]

/-- The logs of a summary are those of the records of its payload. -/
theorem allLogs_eq {payload : Json} {t : TraceSummary} (h : TraceOf host payload t) :
    allLogs t.frames = (payloadRecords payload).flatMap recordLogs := by
  obtain ⟨records, _, _, hRecords, _, _, _, _, hFrames, _, _⟩ := h.parsed
  rw [allLogs_of_records hFrames, payloadRecords, hRecords]

/-- The capital observed before the attack lies within both declared figures. -/
def CapitalWithin (e : EconomicEvidence) (w : Witness) (scope : Scope) : Prop :=
  ∀ capital, e.snapshot.observedCapitalWei = some capital →
    capital ≤ w.initialCapitalWei ∧ capital ≤ scope.attackerCapitalWei

/-- No snapshot that the trace logs starts from more than either declared figure. -/
def SnapshotsWithin (payload : Json) (w : Witness) (scope : Scope) : Prop :=
  ∀ snap ∈ payloadSnapshots payload, ∀ balance, itemInt snap "native_before" = .ok balance →
    balance ≤ w.initialCapitalWei ∧ balance ≤ scope.attackerCapitalWei

/-- The observed capital is the balance that the one snapshot reports. -/
theorem deriveEconomics_observed {run : DerivedReplayRun} {w : Witness} {prices : Json}
    {e : EconomicEvidence} (h : deriveEconomics run w prices = .ok e) :
    ∃ snap balance, (allLogs run.trace.frames).filter (isEvent "EconomicSnapshot") = [snap] ∧
      itemInt snap "native_before" = .ok balance ∧
      e.snapshot.observedCapitalWei = some balance := by
  simp only [deriveEconomics, bind_eq_ok] at h
  obtain ⟨snapshots, hScan, hOne⟩ := h
  have hSnapshots := (scanLogs_eq_ok.mp hScan).2
  match snapshots, hOne with
  | [snap], hOne =>
      simp only [snapshotEconomics, bind_eq_ok, pure_eq_ok] at hOne
      obtain ⟨_, _, _, _, _, _, _, _, snapshot, hSnapshot, _, _, report, _, rfl⟩ := hOne
      simp only [snapshotOf, bind_eq_ok, pure_eq_ok] at hSnapshot
      obtain ⟨balance, hBalance, _, _, _, _, _, _, _, _, _, _, rfl⟩ := hSnapshot
      exact ⟨snap, balance, hSnapshots.symm, hBalance, rfl⟩
  | [], hOne => simp at hOne
  | _ :: _ :: _, hOne => simp at hOne

/-- On a passing verification the observed capital lies within the declared figures
exactly when no logged snapshot starts from more. -/
theorem passed_capital_within_iff (h : ReturnsPassed (verify host fs ctx)) :
    ∃ run rest payload prices e, derivedRuns host fs ctx = .ok (run :: rest) ∧
      retainedTrace fs run.root = .ok payload ∧ loadPrices fs ctx = .ok prices ∧
      deriveEconomics run ctx.witness prices = .ok e ∧
      (CapitalWithin e ctx.witness ctx.scope ↔
        SnapshotsWithin payload ctx.witness ctx.scope) := by
  obtain ⟨replay, run, rest, e, hAccepted⟩ := verify_passes_iff.mp h
  obtain ⟨_, _, _, hLoad⟩ := loadRun_of_derivedRuns hAccepted.derived (List.mem_cons_self ..)
  obtain ⟨payload, hPayload, hParse⟩ := retainedTrace_of_loadRun hLoad
  obtain ⟨prices, hPrices, hEconomics⟩ := bind_eq_ok.mp hAccepted.run.economics
  obtain ⟨snap, balance, hOne, hBalance, hObserved⟩ := deriveEconomics_observed hEconomics
  have hSnapshots : payloadSnapshots payload = [snap] := by
    rw [payloadSnapshots, ← allLogs_eq (traceOf_parseRecords hParse), hOne]
  refine ⟨run, rest, payload, prices, e.economics, hAccepted.derived, hPayload, hPrices,
    hEconomics, fun hWithin => ?_, fun hWithin => ?_⟩
  · intro other hOther balance' hBalance'
    rw [hSnapshots, List.mem_singleton] at hOther
    rw [hOther, hBalance, Except.ok.injEq] at hBalance'
    exact hBalance' ▸ hWithin balance hObserved
  · intro capital hCapital
    rw [hObserved, Option.some.injEq] at hCapital
    exact hCapital ▸ hWithin snap (by simp [hSnapshots]) balance hBalance

section Boasting

open Sample

/-- A snapshot that starts from one ether and declares one ether. -/
def boastingLog : Json := .obj
  [("actor", .str wrapper), ("declared_capital", .int (10 ^ 18)),
    ("event", .str "EconomicSnapshot"), ("native_after", .int (2 * 10 ^ 18)),
    ("native_before", .int (10 ^ 18)), ("protocol_assets_delta", .int 0),
    ("token", .str harness), ("token_after", .int 0), ("token_before", .int 0)]

def boastingFrame : Json := .obj
  [("caller", .str wrapper), ("depth", .int 1), ("kind", .str "call"),
    ("logs", .arr [checkedLog, boastingLog]), ("phase", .str "witness"), ("to", .str harness)]

/-- A run with one ether of capital, where none is declared. -/
def boasting : AcceptedRecord where
  toRecorded := recorded [createFrame, boastingFrame] 0 ⟨by decide +kernel, by decide +kernel⟩
  accepted := by decide +kernel

theorem boasting_observed :
    (fun e => e.snapshot.observedCapitalWei) <$>
      deriveEconomics (derived (fun _ => boasting.toRecorded) 0) witness prices.val =
        .ok (some (10 ^ 18)) := by
  decide +kernel

/-- Capital that only the attack declares passes. -/
theorem undeclared_capital_passes :
    ¬ ∀ (host : Host) (fs : FileSystem) (ctx : VerificationContext),
      ReturnsPassed (verify host fs ctx) → ∀ run rest prices e,
        derivedRuns host fs ctx = .ok (run :: rest) → loadPrices fs ctx = .ok prices →
          deriveEconomics run ctx.witness prices = .ok e →
            CapitalWithin e ctx.witness ctx.scope := by
  intro h
  obtain ⟨e, hEconomics, hObserved⟩ := map_eq_ok.mp boasting_observed
  have hWithin := h _ _ _ boasting.passes _ _ _ e boasting.derivedRuns_eq
    loadPrices_context hEconomics (10 ^ 18) hObserved
  exact absurd hWithin.1 (by decide)

theorem boasting_capital_within_iff :
    ∃ run rest payload prices e,
      derivedRuns Sample.host boasting.files boasting.context = .ok (run :: rest) ∧
      retainedTrace boasting.files run.root = .ok payload ∧
      loadPrices boasting.files boasting.context = .ok prices ∧
      deriveEconomics run boasting.context.witness prices = .ok e ∧
      (CapitalWithin e boasting.context.witness boasting.context.scope ↔
        SnapshotsWithin payload boasting.context.witness boasting.context.scope) :=
  passed_capital_within_iff boasting.passes

end Boasting
end L0vi0x.Verifier
