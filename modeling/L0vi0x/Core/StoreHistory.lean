import L0vi0x.Core.StoreCalls

/-! The log explains the state of every stored hypothesis: its transitions lead
from `OPEN` to where it is, and each has passed its guard. -/
namespace L0vi0x.Core.Store

open L0vi0x.Python L0vi0x.Sql L0vi0x.Core.Redaction

def Event.isKind (kind : String) (e : Event) : Bool := e.kind.equals (.text kind)

/-- The events of one kind of a hypothesis, by id. -/
def eventsOfKind (kind : String) (db : Database) (hid : String) : List Event :=
  (eventsOf db hid).filter (Event.isKind kind)

/-- The transitions of a hypothesis, by id. -/
def transitionsOf (db : Database) (hid : String) : List Event :=
  eventsOfKind "hyp_transition" db hid

/-- A transition that returned, and the event that it appended. -/
structure Transitions (p : Platform) (now : String) (db : Database) (token : Option DriverToken)
    (h : HypothesisRecord) (newState : HState) (cause : String) (evidence : List String)
    (e : Event) : Prop where
  returned : returns (transitionHypothesis p now db token h newState cause evidence).1
  numbered : e.id = nextEventId db.events
  logged : e ∈ (transitionHypothesis p now db token h newState cause evidence).2.events

/-- The call of a run, with what it was given, that appended an event. -/
def MadeBy (p : Platform) (calls : List (String × Call)) (e : Event) (token : Option DriverToken)
    (h : HypothesisRecord) (newState : HState) (cause : String) (evidence : List String) : Prop :=
  ∃ before now rest, calls = before ++ (now, .transition token h newState cause evidence) :: rest ∧
    Transitions p now (run p System.empty before).db token h newState cause evidence e

/-- A recorded transition. The call that appended it was given a valid token, a copy in the
first state and evidence that meets the guard of the pair and, where the pair is a
reopening, the rules of reopening; the payload names this pair, which is legal, and shows
this evidence. -/
def Recorded (p : Platform) (calls : List (String × Call)) (hid : String) (e : Event)
    (src dst : HState) : Prop :=
  ∃ (token : DriverToken) (h : HypothesisRecord) (cause : String) (evidence : List String)
    (payload : Fields),
    MadeBy p calls e (some token) h dst cause evidence ∧
      token.isValid p.host p.secret = .ok true ∧ h.id = hid ∧ h.state = src ∧
      dst ∈ Lifecycle.legalTransitions src ∧
      (Lifecycle.isReopen src dst = true →
        Lifecycle.checkReopen token h.reopenCount (Lifecycle.cleanEvidence evidence) = .ok ()) ∧
      Lifecycle.checkEvidence (Lifecycle.cleanEvidence evidence) src dst = .ok () ∧
      e.payload = .text (Json.obj payload).dumps ∧ (Json.obj payload).Normal ∧
      getField? "from" payload = some (.str src.text) ∧
      getField? "to" payload = some (.str dst.text) ∧
      getField? "evidence" payload = some (redactPayload p.alnum (textItems evidence))

/-- A chain of recorded transitions from `OPEN` to a state. -/
inductive Explains (p : Platform) (calls : List (String × Call)) (hid : String) :
    List Event → HState → Prop where
  | created : Explains p calls hid [] .open
  | moved {events : List Event} {e : Event} {src dst : HState}
      (prior : Explains p calls hid events src) (last : Recorded p calls hid e src dst) :
      Explains p calls hid (events ++ [e]) dst

section Chains

variable {p : Platform} {calls : List (String × Call)} {hid : String} {events : List Event}
  {e : Event} {src dst : HState}

/-- A call of a run is a call of every longer run. -/
theorem MadeBy.append {token : Option DriverToken} {h : HypothesisRecord} {newState : HState}
    {cause : String} {evidence : List String}
    (hMade : MadeBy p calls e token h newState cause evidence) (more : List (String × Call)) :
    MadeBy p (calls ++ more) e token h newState cause evidence := by
  obtain ⟨before, now, rest, rfl, hCall⟩ := hMade
  exact ⟨before, now, rest ++ more, by simp, hCall⟩

theorem Recorded.append (h : Recorded p calls hid e src dst) (more : List (String × Call)) :
    Recorded p (calls ++ more) hid e src dst := by
  obtain ⟨token, copy, cause, evidence, payload, hMade, hRest⟩ := h
  exact ⟨token, copy, cause, evidence, payload, hMade.append more, hRest⟩

/-- What explains a state goes on explaining it. -/
theorem Explains.append (h : Explains p calls hid events dst) (more : List (String × Call)) :
    Explains p (calls ++ more) hid events dst := by
  induction h with
  | created => exact .created
  | moved _ last ih => exact .moved ih (last.append more)

/-- Only legal pairs of states are recorded. -/
theorem Recorded.legal (h : Recorded p calls hid e src dst) :
    dst ∈ Lifecycle.legalTransitions src := by
  obtain ⟨_, _, _, _, _, -, -, -, -, hLegal, -⟩ := h
  exact hLegal

/-- Every state but `OPEN` was entered by the last transition. -/
theorem Explains.entered (h : Explains p calls hid events dst) (hOpen : dst ≠ .open) :
    ∃ before e src, events = before ++ [e] ∧ Explains p calls hid before src ∧
      Recorded p calls hid e src dst := by
  cases h with
  | created => exact absurd rfl hOpen
  | @moved before e src dst prior last => exact ⟨before, e, src, rfl, prior, last⟩

/-- `CONFIRMED` is entered from `INVESTIGATING`. -/
theorem Explains.confirmed (h : Explains p calls hid events .confirmed) :
    ∃ before e, events = before ++ [e] ∧ Recorded p calls hid e .investigating .confirmed := by
  obtain ⟨before, e, src, hEvents, -, hLast⟩ := h.entered (by decide)
  have hLegal := hLast.legal
  cases src with
  | investigating => exact ⟨before, e, hEvents, hLast⟩
  | _ => simp [Lifecycle.legalTransitions] at hLegal

/-- `FINDING` is entered from `CONFIRMED`, and this from `INVESTIGATING`. -/
theorem Explains.finding (h : Explains p calls hid events .finding) :
    ∃ before e₁ e₂, events = before ++ [e₁, e₂] ∧
      Recorded p calls hid e₁ .investigating .confirmed ∧ Recorded p calls hid e₂ .confirmed .finding := by
  obtain ⟨before, e₂, src, rfl, hPrior, hLast⟩ := h.entered (by decide)
  have hLegal := hLast.legal
  cases src with
  | confirmed =>
      obtain ⟨first, e₁, rfl, hConfirmed⟩ := hPrior.confirmed
      exact ⟨first, e₁, e₂, by simp, hConfirmed, hLast⟩
  | _ => simp [Lifecycle.legalTransitions] at hLegal

end Chains

section Log

variable {p : Platform} {now kind : String} {db after : Database} {c : Commit} {hid : String}

def Event.isOf (hid : String) (e : Event) : Bool :=
  e.entity.equals (.text "hypothesis") && e.entityId.equals (.text hid)

/-- The events of a hypothesis in the order in which they were appended. -/
def recordOf (db : Database) (hid : String) : List Event := db.events.filter (Event.isOf hid)

/-- Those of one kind. -/
def logOf (kind : String) (db : Database) (hid : String) : List Event :=
  (recordOf db hid).filter (Event.isKind kind)

theorem Event.isOf_iff {e : Event} :
    e.isOf hid = true ↔ e.entity = .text "hypothesis" ∧ e.entityId = .text hid := by
  simp only [Event.isOf, Bool.and_eq_true, Value.equals_text]

/-- Events are appended in the order of their ids. -/
theorem eventsOf_eq_recordOf (h : (db.events.map Event.id).Pairwise (· < ·)) :
    eventsOf db hid = recordOf db hid := by
  rw [List.pairwise_map] at h
  exact List.mergeSort_of_pairwise
    ((h.imp fun hLt => decide_eq_true (le_of_lt hLt)).filter (Event.isOf hid))

theorem eventsOfKind_eq_logOf (h : (db.events.map Event.id).Pairwise (· < ·)) :
    eventsOfKind kind db hid = logOf kind db hid := by
  rw [eventsOfKind, eventsOf_eq_recordOf h, logOf]

theorem recordOf_quiet (h : Quiet db after) : recordOf after hid = recordOf db hid := by
  rcases h.events with hSame | ⟨e, hEntity, -, hEvents⟩
  · rw [recordOf, recordOf, hSame]
  · have hNot : ¬ e.isOf hid = true := fun hIs => hEntity (Event.isOf_iff.mp hIs).1
    rw [recordOf, recordOf, hEvents, List.filter_append, List.filter_cons_of_neg hNot,
      List.filter_nil, List.append_nil]

theorem isOf_event : (c.event p now db).isOf hid = true ↔ c.hid = hid := by
  rw [Event.isOf_iff, Commit.event, newEvent]
  simp

theorem isOf_alarm {e : Event} (h : e ∈ c.alarm p now db) : e.isOf hid = true ↔ c.hid = hid := by
  rcases alarm_cases p now db c with hAlarm | hAlarm
  · rw [hAlarm] at h
    cases h
  · rw [hAlarm, List.mem_singleton] at h
    rw [Event.isOf_iff, h, newEvent]
    simp

/-- A commit adds its events to the record of its hypothesis. -/
theorem recordOf_committed (h : Committed p now db c after) :
    recordOf after c.hid = recordOf db c.hid ++ c.event p now db :: c.alarm p now db := by
  rw [recordOf, recordOf, h.events, List.filter_append,
    List.filter_cons_of_pos (isOf_event.mpr rfl),
    List.filter_eq_self.mpr fun e he => (isOf_alarm he).mpr rfl]

/-- The records of the other hypotheses stay. -/
theorem recordOf_other (h : Committed p now db c after) (hOther : c.hid ≠ hid) :
    recordOf after hid = recordOf db hid := by
  rw [recordOf, recordOf, h.events, List.filter_append,
    List.filter_cons_of_neg fun hIs => hOther (isOf_event.mp hIs),
    List.filter_eq_nil_iff.mpr fun e he hIs => hOther ((isOf_alarm he).mp hIs), List.append_nil]

theorem logOf_congr (h : recordOf after hid = recordOf db hid) :
    logOf kind after hid = logOf kind db hid := by
  rw [logOf, logOf, h]

/-- A commit adds its event to the log of its kind, and the alarm to that of its own. -/
theorem logOf_committed (h : Committed p now db c after) : logOf kind after c.hid =
    logOf kind db c.hid ++ (if c.kind = kind then [c.event p now db] else []) ++
      (if "reopen_threshold_exceeded" = kind then c.alarm p now db else []) := by
  have hAlarmKind : ∀ e ∈ c.alarm p now db, e.kind = .text "reopen_threshold_exceeded" := by
    intro e he
    rcases alarm_cases p now db c with hAlarm | hAlarm
    · rw [hAlarm] at he
      cases he
    · rw [hAlarm, List.mem_singleton] at he
      rw [he]
      rfl
  have hAlarm : (c.alarm p now db).filter (Event.isKind kind) =
      if "reopen_threshold_exceeded" = kind then c.alarm p now db else [] := by
    split
    · rename_i hKind
      refine List.filter_eq_self.mpr fun e he => ?_
      rw [Event.isKind, Value.equals_text, hAlarmKind e he, hKind]
    · rename_i hKind
      refine List.filter_eq_nil_iff.mpr fun e he hIs => hKind ?_
      rw [Event.isKind, Value.equals_text, hAlarmKind e he] at hIs
      exact Value.text.inj hIs
  have hEvent : (c.event p now db).isKind kind = true ↔ c.kind = kind := by
    rw [Event.isKind, Value.equals_text, Commit.event, newEvent, Value.text.injEq]
  rw [logOf, logOf, recordOf_committed h, List.filter_append, List.append_assoc]
  congr 1
  by_cases hKind : c.kind = kind
  · rw [List.filter_cons_of_pos (hEvent.mpr hKind), hAlarm, if_pos hKind]
    rfl
  · rw [List.filter_cons_of_neg fun hIs => hKind (hEvent.mp hIs), hAlarm, if_neg hKind]
    rfl

end Log

section Run

variable {p : Platform} {now : String} {s : System} {c : Commit} {calls : List (String × Call)}
  {call : Call}

/-- The log explains every stored state by the calls of a run, and holds no transition of a
hypothesis that is not stored. -/
structure Explained (p : Platform) (calls : List (String × Call)) (s : System) : Prop where
  chain : ∀ row ∈ s.db.hypotheses, ∀ hid st data, RowOf row hid st data →
    Explains p calls hid (logOf "hyp_transition" s.db hid) st
  absent : ∀ hid, (∀ row ∈ s.db.hypotheses, row.id ≠ .text hid) →
    logOf "hyp_transition" s.db hid = []

/-- Only a transition that returns commits one. -/
theorem commit?_moved {token : Option DriverToken} {h : HypothesisRecord} {newState : HState}
    {cause : String} {evidence : List String}
    (hCommit : commit? p now s call = some (.moved token h newState cause evidence)) :
    call = .transition token h newState cause evidence ∧
      returns (transitionHypothesis p now s.db token h newState cause evidence).1 := by
  cases call with
  | create payload entityId =>
      simp only [commit?, createdBy] at hCommit
      split at hCommit <;> cases hCommit
  | saveRead hid payload => cases hCommit
  | saveCommit i =>
      rw [commit?, Option.bind_eq_some_iff] at hCommit
      obtain ⟨save, -, hSaved⟩ := hCommit
      simp only [savedBy, createdBy] at hSaved
      split at hSaved
      · split at hSaved <;> cases hSaved
      · cases hSaved
      · split at hSaved <;> cases hSaved
  | transition token' h' newState' cause' evidence' =>
      simp only [commit?] at hCommit
      split at hCommit
      · rename_i result db hRun
        cases hCommit
        exact ⟨rfl, result, by rw [hRun]⟩
      · cases hCommit
  | award token' h' proof =>
      simp only [commit?] at hCommit
      split at hCommit <;> cases hCommit
  | record entity entityId payload => cases hCommit

/-- The event of a transition that is committed was appended by the last call of the run. -/
theorem madeBy_committed {token : Option DriverToken} {h : HypothesisRecord} {newState : HState}
    {cause : String} {evidence : List String}
    (hFiled : Filed p (run p System.empty calls))
    (hCommit : commit? p now (run p System.empty calls) call =
      some (.moved token h newState cause evidence)) :
    MadeBy p (calls ++ [(now, call)])
      (Commit.event p now (run p System.empty calls).db (.moved token h newState cause evidence))
      token h newState cause evidence := by
  obtain ⟨rfl, hReturned⟩ := commit?_moved hCommit
  refine ⟨calls, now, [], rfl, hReturned, rfl, ?_⟩
  have hEvents := (step_some hFiled hCommit).events
  rw [step] at hEvents
  rw [hEvents]
  exact List.mem_append_right _ (List.mem_cons_self ..)

/-- A transition that is committed has passed its guard, and its payload can be written. -/
theorem guarded_committed {token : Option DriverToken} {h : HypothesisRecord}
    {newState : HState} {cause : String} {evidence : List String}
    (hFiled : Filed p (run p System.empty calls))
    (hCommit : commit? p now (run p System.empty calls) call =
      some (.moved token h newState cause evidence)) :
    Lifecycle.validateTransition p.host p.secret token h newState cause evidence = .ok () ∧
      (Json.obj (Commit.payload p now (.moved token h newState cause evidence))).Normal := by
  obtain ⟨new, hWrote, -, -⟩ := (step_some hFiled hCommit).row
  have hSound := hWrote.sound
  cases hWrote with
  | moved hOld hId hState hValid hBound => exact ⟨hValid, Commit.payload_normal hSound⟩

/-- It is recorded with its guard. -/
theorem recorded_committed {token : Option DriverToken} {h : HypothesisRecord} {newState : HState}
    {cause : String} {evidence : List String}
    (hFiled : Filed p (run p System.empty calls))
    (hCommit : commit? p now (run p System.empty calls) call =
      some (.moved token h newState cause evidence)) :
    Recorded p (calls ++ [(now, call)]) h.id (Commit.event p now (run p System.empty calls).db
      (.moved token h newState cause evidence)) h.state newState := by
  have hMade := madeBy_committed hFiled hCommit
  obtain ⟨hValid, hNormal⟩ := guarded_committed hFiled hCommit
  obtain ⟨signed, rfl, hSigned, -, -, hLegal, hReopen, hEvidence⟩ :=
    Lifecycle.validateTransition_eq_ok.mp hValid
  refine ⟨signed, h, cause, evidence, _, hMade, hSigned, rfl, rfl, hLegal, hReopen, hEvidence,
    rfl, redactFields_normal hNormal, ?_, ?_, ?_⟩
  all_goals
    rw [getField?_redactFields]
    simp [Commit.payload, transitionPayload, getField?_dictOf, lookupLast, redactPayload,
      redact_state]

/-- A commit extends the chain of its hypothesis, or leaves it with its state. -/
theorem Explained.committed (hBefore : Explained p calls (run p System.empty calls))
    (hFiled : Filed p (run p System.empty calls))
    (hCommit : commit? p now (run p System.empty calls) call = some c) {st : HState}
    (hLeaves : c.Leaves (run p System.empty calls).db st) :
    Explains p (calls ++ [(now, call)]) c.hid
      (logOf "hyp_transition" (step p now (run p System.empty calls) call).db c.hid) st := by
  rw [logOf_committed (step_some hFiled hCommit),
    if_neg (by decide : "reopen_threshold_exceeded" ≠ "hyp_transition"), List.append_nil]
  cases c with
  | created hid data =>
      obtain ⟨rfl, hNone⟩ := hLeaves
      have hEmpty : logOf "hyp_transition" (run p System.empty calls).db
          (Commit.created hid data).hid = [] := hBefore.absent hid hNone
      rw [if_neg (by simp [Commit.kind]), List.append_nil, hEmpty]
      exact .created
  | saved save cause evidence data =>
      obtain ⟨old, hOld, oldData, hRow⟩ := hLeaves
      rw [if_neg (by simp [Commit.kind]), List.append_nil]
      exact (hBefore.chain old hOld _ _ _ hRow).append _
  | moved token h' newState cause evidence =>
      obtain ⟨rfl, old, hOld, oldData, hRow⟩ := hLeaves
      rw [if_pos (by rfl)]
      exact .moved ((hBefore.chain old hOld _ _ _ hRow).append _)
        (recorded_committed hFiled hCommit)
  | awarded token h' candidate proof =>
      obtain ⟨old, hOld, oldData, hRow⟩ := hLeaves
      rw [if_neg (by simp [Commit.kind]), List.append_nil]
      exact (hBefore.chain old hOld _ _ _ hRow).append _

/-- One more call leaves every state explained. -/
theorem Explained.step (call : String × Call) (hFiled : Filed p (run p System.empty calls))
    (h : Explained p calls (run p System.empty calls)) :
    Explained p (calls ++ [call]) (run p System.empty (calls ++ [call])) := by
  obtain ⟨now, call⟩ := call
  rw [run_append]
  change Explained p _ (Store.step p now (run p System.empty calls) call)
  cases hCommit : commit? p now (run p System.empty calls) call with
  | none =>
      have hQuiet := step_none hCommit
      refine ⟨fun row hMem hid st data hRow => ?_, fun hid hNone => ?_⟩
      · rw [logOf_congr (recordOf_quiet hQuiet)]
        exact (h.chain row (hQuiet.rows ▸ hMem) hid st data hRow).append _
      · rw [logOf_congr (recordOf_quiet hQuiet)]
        exact h.absent hid (hQuiet.rows ▸ hNone)
  | some c =>
      have hCommitted := step_some hFiled hCommit
      obtain ⟨new, st, hNew, hLeaves, hRows⟩ := hCommitted.rowOf hFiled.stored
      refine ⟨fun row hMem hid st' data hRow => ?_, fun hid hNone => ?_⟩
      · rcases (hRows row).mp hMem with rfl | ⟨hMem, hOther⟩
        · obtain ⟨rfl, rfl, -⟩ := hNew.agree hRow
          exact h.committed hFiled hCommit hLeaves
        · have hNe : c.hid ≠ hid := fun hSame => hOther (hSame ▸ hRow.id)
          rw [logOf_congr (recordOf_other hCommitted hNe)]
          exact (h.chain row hMem hid st' data hRow).append _
      · have hNe : c.hid ≠ hid := by
          rintro rfl
          exact hNone new ((hRows new).mpr (.inl rfl)) hNew.id
        rw [logOf_congr (recordOf_other hCommitted hNe)]
        refine h.absent hid fun row hMem hId => hNone row ((hRows row).mpr (.inr ⟨hMem, ?_⟩)) hId
        rw [hId]
        exact fun hText => hNe (Value.text.inj hText).symm

/-- Nothing is stored at first. -/
theorem explained_empty (p : Platform) : Explained p [] System.empty :=
  ⟨fun _ hMem => absurd hMem List.not_mem_nil, fun _ _ => rfl⟩

/-- In every store that calls have built, the transitions of a stored hypothesis, by id, lead
from `OPEN` to its state, which its body shows too. Each was appended by a call of the run
that was given a valid token and evidence for the guard. A `CONFIRMED` was entered from
`INVESTIGATING`, and a `FINDING` from such a `CONFIRMED`. -/
theorem history_explains_state (p : Platform) (calls : List (String × Call)) :
    let db := (run p System.empty calls).db
    ∀ row ∈ db.hypotheses, ∃ hid st data, RowOf row hid st data ∧
      Explains p calls hid (transitionsOf db hid) st ∧
      (st = .confirmed → ∃ before e, transitionsOf db hid = before ++ [e] ∧
        Recorded p calls hid e .investigating .confirmed) ∧
      (st = .finding → ∃ before e₁ e₂, transitionsOf db hid = before ++ [e₁, e₂] ∧
        Recorded p calls hid e₁ .investigating .confirmed ∧
        Recorded p calls hid e₂ .confirmed .finding) := by
  intro db row hMem
  have hExplained := run_history (filed_empty p) (explained_empty p)
    (fun _ call hFiled h => Explained.step call hFiled h) calls
  have hFiled : Filed p (run p System.empty calls) := (filed_empty p).run calls
  obtain ⟨hid, st, data, hRow⟩ := hFiled.stored row hMem
  have hChain := hExplained.chain row hMem hid st data hRow
  rw [← eventsOfKind_eq_logOf hFiled.increasing] at hChain
  refine ⟨hid, st, data, hRow, hChain, ?_, ?_⟩
  · rintro rfl
    exact hChain.confirmed
  · rintro rfl
    exact hChain.finding

/-- The hypothesis that is created and begun is explained by the two calls. -/
theorem begun_explained : ∃ hid st data,
    Body (run samplePlatform System.empty ([sampleCreate] ++ [sampleBegin])).db hid data ∧
      Explains samplePlatform ([sampleCreate] ++ [sampleBegin]) hid (transitionsOf
        (run samplePlatform System.empty ([sampleCreate] ++ [sampleBegin])).db hid) st := by
  obtain ⟨-, row, hMem, -⟩ := sample_begun.2
  obtain ⟨hid, st, data, hRow, hExplains, -⟩ :=
    history_explains_state samplePlatform ([sampleCreate] ++ [sampleBegin]) row hMem
  exact ⟨hid, st, data, ⟨row, hMem, st, hRow⟩, hExplains⟩

end Run
end L0vi0x.Core.Store
