import L0vi0x.Core.StoreHistory

/-! The count of reopenings: the stored field, the log and the guard of the second
reviewer, over copies of the hypothesis. -/
namespace L0vi0x.Core.Store

open L0vi0x.Python L0vi0x.Sql L0vi0x.Core.Redaction

/-- The stored count of reopenings, which is zero by default. -/
def countOf (data : Fields) : Json := (getField? "reopen_count" data).getD (.int 0)

/-- Whether a transition is a reopening, by the states in its payload. -/
def Event.reopens (e : Event) : Bool :=
  match Json.loads e.payload.toJson.text with
  | .ok payload => HState.all.any fun src => HState.all.any fun dst =>
      Lifecycle.isReopen src dst && payload.get? "from" = some (.str src.text) &&
        payload.get? "to" = some (.str dst.text)
  | .error _ => false

def reopensOf (db : Database) (hid : String) : List Event :=
  (transitionsOf db hid).filter Event.reopens

/-- A new hypothesis has no reopening, and later commits are given copies with the
stored count. -/
def CountFresh (p : Platform) (db : Database) (c : Commit) : Prop :=
  (∀ hid data, c = .created hid data → countOf data = .int 0) ∧
    ∀ data, Body db c.hid data → countOf (c.copy p) = countOf data

/-- The reopening at a position of the log. The call of the run that appended it was given a
valid token of a human override and, from the fourth on, evidence of a second reviewer; the
payload shows this evidence. -/
def Reopened (p : Platform) (calls : List (String × Call)) (i : Nat) (e : Event) : Prop :=
  ∃ (token : DriverToken) (h : HypothesisRecord) (newState : HState) (cause : String)
    (evidence : List String) (payload : Fields),
    MadeBy p calls e (some token) h newState cause evidence ∧
      Lifecycle.isReopen h.state newState = true ∧
      token.isValid p.host p.secret = .ok true ∧ token.humanOverride = true ∧
      (3 ≤ i → Lifecycle.has (Lifecycle.cleanEvidence evidence) "reviewer2:" = true) ∧
      e.payload = .text (Json.obj payload).dumps ∧ (Json.obj payload).Normal ∧
      getField? "evidence" payload = some (redactPayload p.alnum (textItems evidence))

/-- What the store keeps of the reopenings of a hypothesis: the field, the log with
its guards, and the alarm at the third. -/
structure Accounted (p : Platform) (calls : List (String × Call)) (db : Database) (hid : String)
    (count : Nat) : Prop where
  reopens : ((logOf "hyp_transition" db hid).filter Event.reopens).length = count
  alarms : (logOf "reopen_threshold_exceeded" db hid).length = if 3 ≤ count then 1 else 0
  guarded : ∀ i e, ((logOf "hyp_transition" db hid).filter Event.reopens)[i]? = some e →
    Reopened p calls i e

section Events

variable {p : Platform} {now : String} {calls : List (String × Call)} {db after : Database}
  {c : Commit}

/-- What a reopening was given stays so in a longer run. -/
theorem Reopened.append {i : Nat} {e : Event} (h : Reopened p calls i e)
    (more : List (String × Call)) : Reopened p (calls ++ more) i e := by
  obtain ⟨token, copy, newState, cause, evidence, payload, hMade, hRest⟩ := h
  exact ⟨token, copy, newState, cause, evidence, payload, hMade.append more, hRest⟩

/-- An account stays one in every longer run that leaves the database. -/
theorem Accounted.append {hid : String} {count : Nat} (h : Accounted p calls db hid count)
    (more : List (String × Call)) : Accounted p (calls ++ more) db hid count :=
  ⟨h.reopens, h.alarms, fun i e hAt => (h.guarded i e hAt).append more⟩

/-- Whether a transition is a reopening is read from its payload. -/
theorem reopens_eq {e : Event} {payload : Fields} {src dst : HState}
    (hPayload : e.payload = .text (Json.obj payload).dumps) (hNormal : (Json.obj payload).Normal)
    (hFrom : getField? "from" payload = some (.str src.text))
    (hTo : getField? "to" payload = some (.str dst.text)) :
    e.reopens = Lifecycle.isReopen src dst := by
  have hLoads : Json.loads e.payload.toJson.text = .ok (.obj payload) := by
    rw [hPayload]
    exact Json.loads_dumps hNormal
  rw [Bool.eq_iff_iff, Event.reopens, hLoads]
  simp only [Json.get?, hFrom, hTo, List.any_eq_true, Bool.and_eq_true, decide_eq_true_eq,
    Option.some.injEq, Json.str.injEq]
  constructor
  · rintro ⟨src', -, dst', -, ⟨hReopen, hSrc⟩, hDst⟩
    rw [HState.text_injective hSrc, HState.text_injective hDst]
    exact hReopen
  · exact fun hReopen => ⟨src, src.mem_all, dst, dst.mem_all, ⟨hReopen, rfl⟩, rfl⟩

/-- The stored count of a dump is the count of its hypothesis, whatever is redacted. -/
theorem countOf_dump (alnum : Char → Bool) (h : HypothesisRecord) :
    countOf (redactFields alnum h.dump) = .int h.reopenCount := by
  have hField : getField? "reopen_count" h.dump = some (.int h.reopenCount) := by
    rw [h.getField?_dump]
    rfl
  rw [countOf, getField?_redactFields, hField]
  rfl

/-- A commit that is no reopening leaves the reopenings and the alarms. -/
theorem Accounted.kept {count : Nat} (hBefore : Accounted p calls db c.hid count)
    (h : Committed p now db c after)
    (hNot : c.kind = "hyp_transition" → (c.event p now db).reopens = false)
    (hAlarm : c.alarm p now db = [])
    (hKind : c.kind ≠ "reopen_threshold_exceeded") : Accounted p calls after c.hid count := by
  have hReopens : (logOf "hyp_transition" after c.hid).filter Event.reopens =
      (logOf "hyp_transition" db c.hid).filter Event.reopens := by
    rw [logOf_committed h, hAlarm, ite_self, List.append_nil, List.filter_append]
    split
    · rename_i hIs
      rw [List.filter_cons_of_neg (by rw [hNot hIs]; simp), List.filter_nil, List.append_nil]
    · rw [List.filter_nil, List.append_nil]
  have hAlarms : logOf "reopen_threshold_exceeded" after c.hid =
      logOf "reopen_threshold_exceeded" db c.hid := by
    rw [logOf_committed h, hAlarm, if_neg hKind, ite_self, List.append_nil, List.append_nil]
  exact ⟨hReopens ▸ hBefore.reopens, hAlarms ▸ hBefore.alarms, hReopens ▸ hBefore.guarded⟩

theorem Accounted.congr {hid : String} {count : Nat} (h : Accounted p calls db hid count)
    (hLog : ∀ kind, logOf kind after hid = logOf kind db hid) : Accounted p calls after hid count :=
  ⟨by rw [hLog]; exact h.reopens, by rw [hLog]; exact h.alarms, by rw [hLog]; exact h.guarded⟩

end Events
section Run

variable {p : Platform} {now : String} {calls : List (String × Call)} {call : Call} {c : Commit}

/-- The event of a transition names its pair of states. -/
theorem moved_reopens {db : Database} {token : Option DriverToken} {h : HypothesisRecord}
    {newState : HState} {cause : String} {evidence : List String} :
    (Commit.event p now db (.moved token h newState cause evidence)).reopens =
      Lifecycle.isReopen h.state newState := by
  have hSound : (Commit.moved token h newState cause evidence).Sound := trivial
  have hNormal : (Json.obj (Commit.payload p now (.moved token h newState cause evidence))).Normal :=
    Commit.payload_normal hSound
  refine reopens_eq rfl (redactFields_normal hNormal) ?_ ?_ <;>
  · rw [getField?_redactFields]
    simp [Commit.payload, transitionPayload, getField?_dictOf, lookupLast, redactPayload,
      redact_state]

/-- A reopening that is committed on a copy with some count was made by a human,
and from a count of three on with a second reviewer. -/
theorem reopened_committed {token : Option DriverToken} {h : HypothesisRecord}
    {newState : HState} {cause : String} {evidence : List String}
    (hFiled : Filed p (run p System.empty calls))
    (hCommit : commit? p now (run p System.empty calls) call =
      some (.moved token h newState cause evidence))
    (hReopen : Lifecycle.isReopen h.state newState = true) :
    Reopened p (calls ++ [(now, call)]) h.reopenCount
      (Commit.event p now (run p System.empty calls).db (.moved token h newState cause evidence)) := by
  have hMade := madeBy_committed hFiled hCommit
  obtain ⟨hValid, hNormal⟩ := guarded_committed hFiled hCommit
  obtain ⟨signed, rfl, hSigned, -, -, -, hRules, -⟩ := Lifecycle.validateTransition_eq_ok.mp hValid
  obtain ⟨hHuman, -, -, -, hThird⟩ := Lifecycle.checkReopen_eq_ok.mp (hRules hReopen)
  refine ⟨signed, h, newState, cause, evidence, _, hMade, hReopen, hSigned, hHuman, hThird, rfl,
    redactFields_normal hNormal, ?_⟩
  rw [getField?_redactFields]
  simp [Commit.payload, transitionPayload, getField?_dictOf, lookupLast]

/-- A reopening adds one to the reopenings, and the third one the alarm. -/
theorem Accounted.reopened {token : Option DriverToken} {h : HypothesisRecord}
    {newState : HState} {cause : String} {evidence : List String}
    (hBefore : Accounted p calls (run p System.empty calls).db h.id h.reopenCount)
    (hFiled : Filed p (run p System.empty calls))
    (hCommit : commit? p now (run p System.empty calls) call =
      some (.moved token h newState cause evidence))
    (hReopen : Lifecycle.isReopen h.state newState = true) :
    Accounted p (calls ++ [(now, call)]) (step p now (run p System.empty calls) call).db h.id
      (h.reopenCount + 1) := by
  have hCommitted := step_some hFiled hCommit
  have hReopens : (logOf "hyp_transition" (step p now (run p System.empty calls) call).db
      h.id).filter Event.reopens =
      (logOf "hyp_transition" (run p System.empty calls).db h.id).filter Event.reopens ++
        [Commit.event p now (run p System.empty calls).db
          (.moved token h newState cause evidence)] := by
    have hOne : logOf "hyp_transition" _ _ = _ := logOf_committed hCommitted
    rw [if_pos (by rfl), if_neg (by decide), List.append_nil] at hOne
    change logOf _ _ h.id = logOf _ _ h.id ++ _ at hOne
    rw [hOne, List.filter_append, List.filter_cons_of_pos (moved_reopens.trans hReopen),
      List.filter_nil]
  have hAlarms : logOf "reopen_threshold_exceeded"
      (step p now (run p System.empty calls) call).db h.id =
      logOf "reopen_threshold_exceeded" (run p System.empty calls).db h.id ++
        Commit.alarm p now (run p System.empty calls).db
          (.moved token h newState cause evidence) := by
    have hOne : logOf "reopen_threshold_exceeded" _ _ = _ := logOf_committed hCommitted
    rwa [if_neg (by simp [Commit.kind]), if_pos rfl, List.append_nil] at hOne
  have hAlarm : (Commit.alarm p now (run p System.empty calls).db
      (.moved token h newState cause evidence)).length =
      if h.reopenCount + 1 = 3 then 1 else 0 := by
    rw [Commit.alarm, thresholdEvents, hReopen, Bool.true_and]
    by_cases hThird : h.reopenCount + 1 = 3 <;> simp [hThird]
  refine ⟨?_, ?_, fun i e hAt => ?_⟩
  · rw [hReopens, List.length_append, hBefore.reopens, List.length_singleton]
  · rw [hAlarms, List.length_append, hBefore.alarms, hAlarm]
    split_ifs <;> omega
  · rw [hReopens] at hAt
    by_cases hi : i < h.reopenCount
    · rw [List.getElem?_append_left (by rw [hBefore.reopens]; exact hi)] at hAt
      exact (hBefore.guarded i e hAt).append _
    · rw [List.getElem?_append_right (by rw [hBefore.reopens]; omega), hBefore.reopens,
        List.getElem?_singleton] at hAt
      split at hAt
      · rename_i hLast
        obtain rfl : i = h.reopenCount := by omega
        rw [Option.some.injEq] at hAt
        exact hAt ▸ reopened_committed hFiled hCommit hReopen
      · cases hAt

/-- Every stored count is accounted for by the calls of a run, and a hypothesis that is not
stored has neither reopenings nor alarms. -/
structure Counted (p : Platform) (calls : List (String × Call)) (s : System) : Prop where
  stored : ∀ row ∈ s.db.hypotheses, ∀ hid st data, RowOf row hid st data →
    ∃ count : Nat, countOf data = .int count ∧ Accounted p calls s.db hid count
  absent : ∀ hid, (∀ row ∈ s.db.hypotheses, row.id ≠ .text hid) → Accounted p calls s.db hid 0

/-- A commit whose copy has the stored count keeps the account. -/
theorem Counted.committed (hBefore : Counted p calls (run p System.empty calls))
    (hFiled : Filed p (run p System.empty calls))
    (hCommit : commit? p now (run p System.empty calls) call = some c)
    (hFresh : CountFresh p (run p System.empty calls).db c) {st : HState}
    (hLeaves : c.Leaves (run p System.empty calls).db st) :
    ∃ count : Nat, countOf (c.body p now) = .int count ∧ Accounted p (calls ++ [(now, call)])
      (step p now (run p System.empty calls) call).db c.hid count := by
  obtain ⟨hCreated, hFresh⟩ := hFresh
  have h := step_some hFiled hCommit
  cases c with
  | created hid data =>
      obtain ⟨-, hNone⟩ := hLeaves
      exact ⟨0, hCreated hid data rfl, ((hBefore.absent hid hNone).append _).kept h
        (by simp [Commit.kind]) rfl (by simp [Commit.kind])⟩
  | saved save cause evidence data =>
      obtain ⟨old, hOld, oldData, hRow⟩ := hLeaves
      obtain ⟨count, hCount, hAccounted⟩ := hBefore.stored old hOld _ _ _ hRow
      exact ⟨count, (hFresh oldData ⟨old, hOld, st, hRow⟩).trans hCount,
        Accounted.kept (hAccounted.append _) h (by simp [Commit.kind]) rfl (by simp [Commit.kind])⟩
  | moved token h' newState cause evidence =>
      obtain ⟨-, old, hOld, oldData, hRow⟩ := hLeaves
      obtain ⟨count, hCount, hAccounted⟩ := hBefore.stored old hOld _ _ _ hRow
      have hCopy := (hFresh oldData ⟨old, hOld, _, hRow⟩).trans hCount
      rw [Commit.copy, countOf_dump, Json.int.injEq, Int.ofNat_inj] at hCopy
      subst hCopy
      cases hReopen : Lifecycle.isReopen h'.state newState with
      | true =>
          refine ⟨h'.reopenCount + 1, ?_, hAccounted.reopened hFiled hCommit hReopen⟩
          rw [Commit.body, countOf_dump, moved, if_pos hReopen]
      | false =>
          refine ⟨h'.reopenCount, ?_, Accounted.kept (hAccounted.append _) h
            (fun _ => moved_reopens.trans hReopen) ?_ (by simp [Commit.kind])⟩
          · rw [Commit.body, countOf_dump, moved, if_neg (by rw [hReopen]; simp)]
          · rw [Commit.alarm, thresholdEvents, hReopen, Bool.false_and, if_neg (by simp)]
  | awarded token h' candidate proof =>
      obtain ⟨old, hOld, oldData, hRow⟩ := hLeaves
      obtain ⟨count, hCount, hAccounted⟩ := hBefore.stored old hOld _ _ _ hRow
      have hCopy := (hFresh oldData ⟨old, hOld, st, hRow⟩).trans hCount
      obtain ⟨new, hWrote, -, -⟩ := h.row
      cases hWrote with
      | awarded hOld hId hLoads hState hAward =>
          obtain ⟨-, -, value, -, rfl⟩ := Ladder.award_eq_ok hAward
          rw [Commit.copy, countOf_dump] at hCopy
          refine ⟨count, ?_, Accounted.kept (hAccounted.append _) h (by simp [Commit.kind]) rfl
            (by simp [Commit.kind])⟩
          rw [Commit.body, countOf_dump]
          exact hCopy

/-- One more call whose copy has the stored count keeps every account. -/
theorem Counted.step (call : String × Call) (hFiled : Filed p (run p System.empty calls))
    (hFresh : ∀ c, commit? p call.1 (run p System.empty calls) call.2 = some c →
      CountFresh p (run p System.empty calls).db c)
    (h : Counted p calls (run p System.empty calls)) :
    Counted p (calls ++ [call]) (run p System.empty (calls ++ [call])) := by
  obtain ⟨now, call⟩ := call
  rw [run_append]
  change Counted p _ (Store.step p now (run p System.empty calls) call)
  cases hCommit : commit? p now (run p System.empty calls) call with
  | none =>
      have hQuiet := step_none hCommit
      refine ⟨fun row hMem hid st data hRow => ?_, fun hid hNone => ?_⟩
      · obtain ⟨count, hCount, hAccounted⟩ := h.stored row (hQuiet.rows ▸ hMem) hid st data hRow
        exact ⟨count, hCount,
          (hAccounted.append _).congr fun _ => logOf_congr (recordOf_quiet hQuiet)⟩
      · exact ((h.absent hid (hQuiet.rows ▸ hNone)).append _).congr
          fun _ => logOf_congr (recordOf_quiet hQuiet)
  | some c =>
      have hCommitted := step_some hFiled hCommit
      obtain ⟨new, st, hNew, hLeaves, hRows⟩ := hCommitted.rowOf hFiled.stored
      refine ⟨fun row hMem hid st' data hRow => ?_, fun hid hNone => ?_⟩
      · rcases (hRows row).mp hMem with rfl | ⟨hMem, hOther⟩
        · obtain ⟨rfl, rfl, rfl⟩ := hNew.agree hRow
          exact h.committed hFiled hCommit (hFresh c hCommit) hLeaves
        · have hNe : c.hid ≠ hid := fun hSame => hOther (hSame ▸ hRow.id)
          obtain ⟨count, hCount, hAccounted⟩ := h.stored row hMem hid st' data hRow
          exact ⟨count, hCount,
            (hAccounted.append _).congr fun _ => logOf_congr (recordOf_other hCommitted hNe)⟩
      · have hNe : c.hid ≠ hid := by
          rintro rfl
          exact hNone new ((hRows new).mpr (.inl rfl)) hNew.id
        refine ((h.absent hid fun row hMem hId => hNone row ((hRows row).mpr (.inr ⟨hMem, ?_⟩))
          hId).append _).congr fun _ => logOf_congr (recordOf_other hCommitted hNe)
        rw [hId]
        exact fun hText => hNe (Value.text.inj hText).symm

theorem counted_empty (p : Platform) : Counted p [] System.empty :=
  ⟨fun _ hMem => absurd hMem List.not_mem_nil, fun _ _ =>
    ⟨rfl, rfl, fun i e hAt => by
      simp [logOf, recordOf, System.empty, Database.empty] at hAt⟩⟩

/-- In a run in which every hypothesis is created with no reopening and every copy
that is committed has the stored count, this count is the number of reopenings in
the log; there is one alarm from the third on and none before; and every reopening
was appended by a call that was given the token of a human, from the fourth on with
evidence of a second reviewer. -/
theorem reopens_accounted (p : Platform) (calls : List (String × Call))
    (hFresh : Meets p (CountFresh p) System.empty calls) :
    let db := (run p System.empty calls).db
    ∀ row ∈ db.hypotheses, ∃ hid st data, RowOf row hid st data ∧
      countOf data = .int (reopensOf db hid).length ∧
      (eventsOfKind "reopen_threshold_exceeded" db hid).length =
        (if 3 ≤ (reopensOf db hid).length then 1 else 0) ∧
      ∀ i e, (reopensOf db hid)[i]? = some e → Reopened p calls i e := by
  intro db row hMem
  have hCounted := meets_history (filed_empty p) (counted_empty p)
    (fun _ call hFiled hFresh h => Counted.step call hFiled hFresh h) hFresh
  have hFiled : Filed p (run p System.empty calls) := (filed_empty p).run calls
  obtain ⟨hid, st, data, hRow⟩ := hFiled.stored row hMem
  obtain ⟨count, hCount, hReopens, hAlarms, hGuarded⟩ :=
    hCounted.stored row hMem hid st data hRow
  rw [← eventsOfKind_eq_logOf hFiled.increasing] at hReopens hGuarded hAlarms
  have hLength : (reopensOf db hid).length = count := hReopens
  refine ⟨hid, st, data, hRow, hLength ▸ hCount, ?_, hGuarded⟩
  rw [hLength]
  exact hAlarms

end Run
section Sample

/-- The stored count of a plain dump is the count of its hypothesis. -/
theorem countOf_plain {alnum : Char → Bool} {h : HypothesisRecord} (hPlain : Plain alnum h.dump) :
    countOf h.dump = .int h.reopenCount := by
  rw [← hPlain.fields, countOf_dump]

/-- The first call of the sample creates its hypothesis without a reopening. -/
theorem sampleCreate_fresh : ∀ c, commit? samplePlatform sampleCreate.1 System.empty sampleCreate.2 =
    some c → CountFresh samplePlatform System.empty.db c := by
  intro c hCommit
  obtain rfl := Option.some.inj (sample_created.1.symm.trans hCommit)
  refine ⟨fun hid data hSame => ?_, fun data hBody => ?_⟩
  · rw [← (Commit.created.inj hSame).2]
    exact countOf_plain sample_open
  · obtain ⟨row, hMem, -⟩ := hBody
    cases hMem

/-- A transition that is given the stored count meets the condition. -/
theorem sampleMove_fresh (h copy : HypothesisRecord) {s : System} {call : String × Call}
    {src dst : HState} {cause : String} {evidence : List String}
    (hHolds : Holds samplePlatform s copy.id src h.dump)
    (hCommit : commit? samplePlatform call.1 s call.2 =
      some (.moved (some sampleToken) copy dst cause evidence))
    (hPlain : Plain (fun _ => false) h.dump) (hCount : h.reopenCount = copy.reopenCount) :
    ∀ c, commit? samplePlatform call.1 s call.2 = some c → CountFresh samplePlatform s.db c := by
  intro c hOther
  obtain rfl := Option.some.inj (hCommit.symm.trans hOther)
  refine ⟨fun hid data hSame => ?_, fun data hBody => ?_⟩
  · cases hSame
  · have hData : data = h.dump := hHolds.ready.body_unique hBody hHolds.body
    have hCopy : countOf (redactFields samplePlatform.alnum copy.dump) = .int copy.reopenCount :=
      countOf_dump _ _
    rw [hData, countOf_plain hPlain, hCount]
    exact hCopy

theorem sample_closed : Plain (fun _ => false) (sample .closed ∅ 0).dump :=
  @sample_plain _ (.closed, 0) (by simp [sampleStates])

theorem sample_reopened : Plain (fun _ => false) (sample .investigating ∅ 1).dump :=
  @sample_plain _ (.investigating, 1) (by simp [sampleStates])

def sampleClose : String × Call :=
  sampleMove .investigating .closed 0 ["disproof:shares round down"]

def sampleReopen : String × Call := sampleMove .closed .investigating 0
  ["human_reason:new caller", "new_evidence:E-002", "replacement:E-002"]

theorem sampleClose_moves {s : System} {data : Fields}
    (hHolds : Holds samplePlatform s "H-001" .investigating data) :
    commit? samplePlatform sampleClose.1 s sampleClose.2 = some (.moved (some sampleToken)
        (sample .investigating ∅ 0) .closed "reviewed" ["disproof:shares round down"]) ∧
      Holds samplePlatform (run samplePlatform s [sampleClose]) "H-001" .closed
        (sample .closed ∅ 0).dump := by
  have hValid : Lifecycle.validateTransition sampleHost sampleSecret (some sampleToken)
      (sample .investigating ∅ 0) .closed "reviewed" ["disproof:shares round down"] = .ok () := by
    decide +kernel
  exact sample_moves _ hHolds hValid rfl sample_closed

theorem sampleReopen_moves {s : System} {data : Fields}
    (hHolds : Holds samplePlatform s "H-001" .closed data) :
    commit? samplePlatform sampleReopen.1 s sampleReopen.2 = some (.moved (some sampleToken)
        (sample .closed ∅ 0) .investigating "reviewed"
        ["human_reason:new caller", "new_evidence:E-002", "replacement:E-002"]) ∧
      Holds samplePlatform (run samplePlatform s [sampleReopen]) "H-001" .investigating
        (sample .investigating ∅ 1).dump := by
  have hValid : Lifecycle.validateTransition sampleHost sampleSecret (some sampleToken)
      (sample .closed ∅ 0) .investigating "reviewed"
      ["human_reason:new caller", "new_evidence:E-002", "replacement:E-002"] = .ok () := by
    decide
  exact sample_moves _ hHolds hValid rfl sample_reopened

/-- The runs up to the reopening, where every copy is fresh. -/
def sampleCalls : List (String × Call) :=
  [sampleCreate] ++ [sampleBegin] ++ [sampleClose] ++ [sampleReopen]

/-- Every copy is fresh up to the reopening, and the hypothesis is held with its count. -/
theorem sampleCalls_holds : Meets samplePlatform (CountFresh samplePlatform) System.empty
      sampleCalls ∧ Holds samplePlatform (run samplePlatform System.empty sampleCalls) "H-001"
        .investigating (sample .investigating ∅ 1).dump := by
  have hBegun := sample_begun.2
  have hClosed := sampleClose_moves hBegun
  rw [← run_append] at hClosed
  have hReopened := sampleReopen_moves hClosed.2
  rw [← run_append] at hReopened
  refine ⟨?_, hReopened.2⟩
  have hFirst : Meets samplePlatform (CountFresh samplePlatform) System.empty
      ([sampleCreate] ++ [sampleBegin]) :=
    (meets_singleton sampleCreate_fresh).snoc
      (sampleMove_fresh (sample .open ∅ 0) (sample .open ∅ 0) sample_created.2
        sample_begun.1 sample_open rfl)
  have hSecond := hFirst.snoc (sampleMove_fresh (sample .investigating ∅ 0)
    (sample .investigating ∅ 0) hBegun hClosed.1 sample_investigating rfl)
  exact hSecond.snoc (sampleMove_fresh (sample .closed ∅ 0) (sample .closed ∅ 0)
    hClosed.2 hReopened.1 sample_closed rfl)

/-- A hypothesis that is closed and reopened has one reopening, which is counted and was
made by a call with the token of a human. -/
theorem reopened_accounted : ∃ hid data,
    Body (run samplePlatform System.empty sampleCalls).db hid data ∧ countOf data = .int 1 ∧
      ∃ e, reopensOf (run samplePlatform System.empty sampleCalls).db hid = [e] ∧
        Reopened samplePlatform sampleCalls 0 e := by
  obtain ⟨hMeets, hHolds⟩ := sampleCalls_holds
  obtain ⟨-, row, hMem, hRow⟩ := hHolds
  obtain ⟨hid, st, data, hRow', hCount, -, hGuarded⟩ :=
    reopens_accounted samplePlatform sampleCalls hMeets row hMem
  obtain ⟨-, -, rfl⟩ := hRow.toRowOf.agree hRow'
  rw [countOf_plain sample_reopened] at hCount
  obtain ⟨e, hLog⟩ := List.length_eq_one_iff.mp (Int.ofNat_inj.mp (Json.int.inj hCount).symm)
  refine ⟨hid, _, ⟨row, hMem, st, hRow'⟩, countOf_plain sample_reopened, e, hLog, ?_⟩
  exact hGuarded 0 e (by rw [hLog]; rfl)

/-- A hypothesis that is created with no reopening, closed and reopened, and then closed
with the copy from before the reopening, has one reopening in the log and a count of
zero. -/
theorem stale_copy_loses_count : ∃ data,
    Body (run samplePlatform System.empty (sampleCalls ++ [sampleClose])).db "H-001" data ∧
      countOf data = .int 0 ∧ (reopensOf
        (run samplePlatform System.empty (sampleCalls ++ [sampleClose])).db "H-001").length = 1 := by
  obtain ⟨hMeets, hHolds⟩ := sampleCalls_holds
  have hStale := sampleClose_moves hHolds
  have hFiled : Filed samplePlatform (run samplePlatform System.empty sampleCalls) :=
    (filed_empty samplePlatform).run sampleCalls
  have hCounted := meets_history (filed_empty samplePlatform) (counted_empty samplePlatform)
    (fun _ call hFiled hFresh h => Counted.step call hFiled hFresh h) hMeets
  obtain ⟨-, row, hMem, hRow⟩ := hHolds
  obtain ⟨count, hCount, hAccounted⟩ := hCounted.stored row hMem _ _ _ hRow.toRowOf
  rw [countOf_plain sample_reopened, Json.int.injEq] at hCount
  have hKept : Accounted samplePlatform sampleCalls (step samplePlatform sampleClose.1
      (run samplePlatform System.empty sampleCalls) sampleClose.2).db "H-001" count :=
    Accounted.kept (c := .moved (some sampleToken) (sample .investigating ∅ 0) .closed "reviewed"
      ["disproof:shares round down"]) hAccounted (step_some hFiled hStale.1)
      (fun _ => moved_reopens) rfl (by simp [Commit.kind])
  have hFiled' : Filed samplePlatform
      (run samplePlatform System.empty (sampleCalls ++ [sampleClose])) :=
    (filed_empty samplePlatform).run _
  have hBody := hStale.2.body
  rw [← run_append] at hBody
  refine ⟨_, hBody, countOf_plain sample_closed, ?_⟩
  rw [reopensOf, transitionsOf, eventsOfKind_eq_logOf hFiled'.increasing, run_append]
  refine hKept.reopens.trans ?_
  have hOne : (count : Int) = 1 := hCount.symm
  omega

end Sample
end L0vi0x.Core.Store
