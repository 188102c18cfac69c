import L0vi0x.Core.StoreCalls
import L0vi0x.Core.TaskRuns

/-! Generated ids are new. Callers may name hypotheses and tasks themselves; as long as
none takes an id that a counter still has to reach, the next id of a counter has never
been the id of a row, and a row is stored under it. -/
namespace L0vi0x.Core.Store

open L0vi0x.Python L0vi0x.Sql L0vi0x.Core.Redaction

section Ids

/-- The value that the next id with a start gets. -/
def counter (db : Database) (start : String) : Int := (db.idCounters.lookup start).getD 1

/-- An id that the counter still has to give. -/
def Due (db : Database) (start id : String) : Prop :=
  ∃ value : Int, counter db start ≤ value ∧ id = idText start value

/-- `next_id` gives the text of the counter, and stores the value after it. -/
theorem nextId_eq (db : Database) (start : String) : nextId db start =
    (idText start (counter db start), { db with
      idCounters := (start, counter db start + 1) :: db.idCounters.filter (·.1 ≠ start) }) := rfl

/-- Counters that are filtered by their start keep those of any other start. -/
theorem lookup_filter_ne (counters : List (String × Int)) {start other : String}
    (h : other ≠ start) :
    (counters.filter (·.1 ≠ start)).lookup other = counters.lookup other := by
  induction counters with
  | nil => rfl
  | cons c rest ih =>
      obtain ⟨key, value⟩ := c
      by_cases hKey : key = start
      · have hOther : (other == key) = false := by simpa [hKey] using h
        rw [List.lookup_cons, hOther, ← ih]
        simp [hKey]
      · by_cases hSame : other = key
        · simp [hKey, hSame]
        · have hOther : (other == key) = false := by simpa using hSame
          simpa [List.lookup_cons, hKey, hOther] using ih

/-- `next_id` moves its own counter by one. -/
theorem counter_nextId (db : Database) (start other : String) :
    counter (nextId db start).2 other =
      if other = start then counter db start + 1 else counter db other := by
  rw [nextId_eq]
  split
  · rename_i hSame
    simp [counter, hSame]
  · rename_i hOther
    have hNe : (other == start) = false := by simpa using hOther
    rw [counter, List.lookup_cons, hNe, lookup_filter_ne _ hOther]
    rfl

theorem intText_nat (n : Nat) : intText n = Nat.toDigits 10 n := rfl

/-- Ids of two counts differ. -/
theorem idText_injective {start : String} {m n : Nat} (h : idText start m = idText start n) :
    m = n := by
  have hChars := congrArg String.toList h
  simp only [idText, String.toList_append, String.toList_ofList, List.append_assoc,
    List.append_cancel_left_eq, intText_nat] at hChars
  have hValue := congrArg (fun digits => Nat.ofDigitChars 10 digits 0) hChars
  simpa [Nat.ofDigitChars_append, Nat.ofDigitChars_replicate_zero] using hValue

/-- Every letter of a head that is met is that of some character of the text. -/
theorem isHead_mem {head : List Nat} {cs : List Char} (h : isHead head cs = true) :
    ∀ n ∈ head, ∃ c ∈ cs, c.toNat % 32 = n := by
  induction head generalizing cs with
  | nil => exact fun _ hMem => absurd hMem List.not_mem_nil
  | cons n head ih =>
      cases cs with
      | nil => cases h
      | cons c cs =>
          rw [isHead, Bool.and_eq_true] at h
          rw [List.forall_mem_cons]
          refine ⟨⟨c, List.mem_cons_self, (Nat.beq_eq.mp h.1).symm⟩, fun m hm => ?_⟩
          obtain ⟨d, hd, hCode⟩ := ih h.2 m hm
          exact ⟨d, List.mem_cons_of_mem _ hd, hCode⟩

theorem digit_code {c : Char} (h : c.isDigit = true) :
    48 ≤ c.toNat ∧ c.toNat ≤ 57 := by
  simpa [Char.isDigit, UInt32.le_iff_toNat_le] using h

/-- No pattern of redaction begins in digits. -/
theorem quiet_digits {cs : List Char} (h : ∀ c ∈ cs, c.isDigit = true) : quiet cs = true := by
  induction cs with
  | nil => rfl
  | cons c cs ih =>
      have hAll := h
      rw [List.forall_mem_cons] at h
      have hDigit := digit_code h.1
      have hNone : startsHead (c :: cs) = false := by
        rw [startsHead, List.any_eq_false]
        intro head hHead hIs
        obtain ⟨n, hn, hCode⟩ : ∃ n ∈ head, n < 16 := by
          have hHeads : ∀ head ∈ heads, ∃ n ∈ head, n < 16 := by decide
          exact hHeads head hHead
        obtain ⟨d, hd, rfl⟩ := isHead_mem hIs n hn
        have hOther := digit_code (hAll d hd)
        omega
      rw [quiet, hNone, ih h.2, Nat.blt_eq.mpr (show c.toNat < 128 by omega)]
      rfl

/-- Redaction leaves the id of a task. -/
theorem redact_taskId (alnum : Char → Bool) (n : Nat) :
    redact alnum (idText "T" n) = idText "T" n := by
  apply redact_quiet
  have hDigits : ∀ c ∈ List.replicate (3 - (Nat.toDigits 10 n).length) '0' ++ Nat.toDigits 10 n,
      c.isDigit = true := by
    intro c hc
    rcases List.mem_append.mp hc with hc | hc
    · rw [(List.mem_replicate.mp hc).2]
      rfl
    · exact Nat.isDigit_of_mem_toDigits (by decide) (by decide) hc
  have hText : (idText "T" n).toList = 'T' :: '-' ::
      (List.replicate (3 - (Nat.toDigits 10 n).length) '0' ++ Nat.toDigits 10 n) := by
    simp [idText, intText_nat]
  rw [hText]
  have hQuiet := quiet_digits hDigits
  revert hQuiet hDigits
  generalize List.replicate (3 - (Nat.toDigits 10 n).length) '0' ++ Nat.toDigits 10 n = digits
  intro hDigits hQuiet
  have hDash : startsHead ('-' :: digits) = false := by
    cases digits with
    | nil => rfl
    | cons d digits =>
        have hDigit := digit_code (hDigits d List.mem_cons_self)
        have hCode : Nat.beq 13 (d.toNat % 32) = false := by
          rw [← Bool.not_eq_true, Nat.beq_eq]
          omega
        simp [startsHead, heads, isHead, hCode]
  have hStart : startsHead ('T' :: '-' :: digits) = false := rfl
  rw [quiet, quiet, hQuiet, hDash, hStart]
  rfl

/-- Two ids of one start are equal only for equal counters. -/
theorem idText_eq {start : String} {v w : Int} (hv : 0 ≤ v) (hw : 0 ≤ w)
    (h : idText start v = idText start w) : v = w := by
  obtain ⟨m, rfl⟩ := Int.eq_ofNat_of_zero_le hv
  obtain ⟨n, rfl⟩ := Int.eq_ofNat_of_zero_le hw
  rw [idText_injective h]

end Ids

section History

def givenId (p : Platform) (payload : NormalFields) (entityId : Option String) : Option String :=
  let data := redactFields p.alnum payload
  if hasText entityId then entityId
  else if (fieldOf "id" data).truthy then some (fieldOf "id" data).text
  else none

/-- One access of the store: a call on hypotheses, a step of the task ledger, or
`next_id(prefix)`. -/
inductive Access
  | hypothesis (call : Call)
  | task (request : TaskRequest)
  | next (start : String)

def Access.perform (p : Platform) (m : Moment) (s : System) : Access → System
  | .hypothesis call => step p m.now s call
  | .task request => { s with db := (answerTask p m s.db request).2 }
  | .next start => { s with db := (nextId s.db start).2 }

def performed (p : Platform) (s : System) (history : List (Moment × Access)) : System :=
  history.foldl (fun s access => access.2.perform p access.1 s) s

def PendingSave.creates (save : PendingSave) : Option (NormalFields × Option String) :=
  match save.plan with
  | .create payload => some (payload, some save.hid)
  | _ => none

/-- The payload and the id with which a call comes to `create_hypothesis`. -/
def Call.creates (s : System) : Call → Option (NormalFields × Option String)
  | .create payload entityId => some (payload, entityId)
  | .saveCommit i => s.pending[i]?.bind PendingSave.creates
  | _ => none

/-- The id that a request gives a new row. -/
def TaskRequest.names : TaskRequest → Option String
  | .dispatch taskId .. | .save taskId _ => some taskId
  | _ => none

/-- The id that an access gives a new row, where its caller has chosen it, with the start
of the generated ids of that table. -/
def Access.takes (p : Platform) (s : System) : Access → Option (String × String)
  | .hypothesis call => (call.creates s).bind fun created =>
      (givenId p created.1 created.2).map fun id => ("H", id)
  | .task request => request.names.map fun id => ("T", id)
  | .next _ => none

/-- No caller takes an id that is due when it does so. -/
def InTurn (p : Platform) : System → List (Moment × Access) → Prop
  | _, [] => True
  | s, access :: rest =>
      (∀ start id, access.2.takes p s = some (start, id) → ¬Due s.db start id) ∧
        InTurn p (access.2.perform p access.1 s) rest

def Database.hasHypothesis (db : Database) (id : String) : Prop :=
  ∃ row ∈ db.hypotheses, row.id = .text id

def Database.hasTask (db : Database) (id : String) : Prop :=
  ∃ row ∈ db.tables .tasks, row.column "id" = .text id

/-- No store of the history has a row of this id. -/
def Unseen (p : Platform) (history : List (Moment × Access))
    (stored : Database → String → Prop) (id : String) : Prop :=
  ∀ earlier later, history = earlier ++ later → ¬stored (performed p System.empty earlier).db id

/-- The data of a hypothesis that can be stored: it is in `OPEN`, its columns are texts
and a number, and redaction leaves it. -/
structure Creatable (p : Platform) (data : Fields) : Prop where
  open_ : getField? "state" data = some (.str HState.open.text)
  plain : Plain p.alnum data
  columned : Columned data

/-- The store at the end of a history makes up ids that are new: a creation without an id
and a `begin` of an unused key succeed under them. -/
structure Generates (p : Platform) (history : List (Moment × Access)) : Prop where
  creates : ∀ (now : String) (payload : NormalFields) (entityId : Option String),
    givenId p payload entityId = none →
    let s := performed p System.empty history
    let hid := (nextId s.db "H").1
    Creatable p (newData p payload hid) →
    ∃ db, createHypothesis p now s.db payload entityId = (.ok (newData p payload hid), db) ∧
      db.hasHypothesis hid ∧ Unseen p history Database.hasHypothesis hid
  begins : ∀ (moments : Nat → Moment) (key kind phase role : String),
    let s := performed p System.empty history
    let taskId := (nextId s.db "T").1
    strip key ≠ "" → (∀ n, (moments n).fault = none) →
    (∀ row ∈ s.db.tables .tasks, row.column "idempotency_key" ≠ .text (strip key)) →
    (∀ text ∈ [strip key, phase, role, (moments 2).now], redact p.alnum text = text) →
    ∃ task db, (TaskLedger.begin key kind phase role).alone (answerTask p) moments s.db =
        (.ok task, db) ∧ getField? "id" task = some (.str taskId) ∧
      HasTask (db.tables .tasks) (strip key) taskId ∧ Unseen p history Database.hasTask taskId

end History

section Frames

variable {p : Platform} {now : String} {db db' : Database}

/-- What a call on hypotheses leaves: the counters, the other tables, and a log that
takes more events. -/
structure Frame (db db' : Database) : Prop where
  counters : db'.idCounters = db.idCounters
  tables : db'.tables = db.tables
  logged : eventGuards.allows db.events = true → eventGuards.allows db'.events = true

theorem Frame.refl (db : Database) : Frame db db := ⟨rfl, rfl, id⟩

theorem Frame.trans {mid : Database} (h : Frame db mid) (h' : Frame mid db') : Frame db db' :=
  ⟨h'.counters.trans h.counters, h'.tables.trans h.tables, fun hLogged =>
    h'.logged (h.logged hLogged)⟩

/-- An event that is recorded passes the triggers of the event table. -/
theorem recordEvent_allows {entity id : String} {payload : Fields} {event : Int}
    (h : recordEvent p now db entity id payload = .ok (event, db')) :
    eventGuards.allows db'.events = true := by
  simp only [recordEvent, bind_eq_ok, executed_eq_ok, pure_eq_ok] at h
  obtain ⟨kind, -, _, -, events, hInsert, h⟩ := h
  simp only [Statement.run, List.foldlM_cons, List.foldlM_nil, Option.bind_eq_bind,
    Option.bind_eq_some_iff, Option.pure_def, Option.some.injEq] at hInsert
  obtain ⟨rows, hRow, rfl⟩ := hInsert
  obtain ⟨-, hAllows, rfl⟩ := insertRow_eq_some.mp hRow
  rw [Prod.mk.injEq] at h
  rw [← h.2]
  exact hAllows

theorem recordEvent_frame {entity id : String} {payload : Fields} {event : Int}
    (h : recordEvent p now db entity id payload = .ok (event, db')) : Frame db db' := by
  have hAllows := recordEvent_allows h
  obtain ⟨e, -, -, -, -, rfl⟩ := recordEvent_appends h
  exact ⟨rfl, rfl, fun _ => hAllows⟩

/-- The update of a hypothesis leaves the counters and the other tables. -/
theorem updateHypothesis_frame {engine : Engine} {hid : String}
    {assign : HypothesisRow → HypothesisRow}
    (h : updateHypothesis engine db hid assign = .ok db') : Frame db db' := by
  unfold updateHypothesis at h
  split at h
  · rw [pure_eq_ok] at h
    exact h ▸ .refl db
  · simp only [bind_eq_ok, pure_eq_ok] at h
    obtain ⟨rows, -, rfl⟩ := h
    exact ⟨rfl, rfl, id⟩

/-- A transaction leaves what its body leaves, and all of it when it is rolled back. -/
theorem submit_frame {α : Type} {txn : Py (α × Database)}
    (h : ∀ a db', txn = .ok (a, db') → Frame db db') : Frame db (submit db txn).2 := by
  cases hTxn : txn with
  | ok r => exact h r.1 r.2 hTxn
  | error e => exact .refl db

/-- A creation writes an event and a row of a hypothesis, and nothing else. -/
theorem insertHypothesis_frame {hid : String} {data result : Fields}
    (h : insertHypothesis p now db hid data = .ok (result, db')) : Frame db db' := by
  simp only [insertHypothesis, bind_eq_ok, pure_eq_ok, Prod.mk.injEq] at h
  obtain ⟨⟨event, mid⟩, hRecord, bound, -, rows, -, -, rfl⟩ := h
  have hFrame := recordEvent_frame hRecord
  exact ⟨hFrame.counters, hFrame.tables, hFrame.logged⟩

/-- The commit of a save leaves the counters and the other tables. -/
theorem commitSave_frame {hid cause : String} {evidence : List Json} {data : Fields}
    {result : Json} (h : commitSave p now db hid cause evidence data = .ok (result, db')) :
    Frame db db' := by
  simp only [commitSave, bind_eq_ok, pure_eq_ok, Prod.mk.injEq] at h
  obtain ⟨⟨event, mid⟩, hRecord, bound, -, last, hUpdate, -, rfl⟩ := h
  exact (recordEvent_frame hRecord).trans (updateHypothesis_frame hUpdate)

/-- The alarm of the reopen threshold only extends the log. -/
theorem recordThreshold_frame {h : HypothesisRecord} {newState : HState}
    (hRecord : recordThreshold p now db h newState = .ok db') : Frame db db' := by
  unfold recordThreshold at hRecord
  split at hRecord
  · rw [bind_eq_ok] at hRecord
    obtain ⟨⟨event, mid⟩, hRecord, hPure⟩ := hRecord
    rw [pure_eq_ok] at hPure
    exact hPure ▸ recordEvent_frame hRecord
  · rw [pure_eq_ok] at hRecord
    exact hRecord ▸ .refl db

/-- The commit of a transition, with its alarm, leaves the counters and the other tables. -/
theorem commitTransition_frame {h result : HypothesisRecord} {newState : HState} {cause : String}
    {evidence : List String}
    (hCommit : commitTransition p now db h newState cause evidence = .ok (result, db')) :
    Frame db db' := by
  simp only [commitTransition, bind_eq_ok, pure_eq_ok, Prod.mk.injEq] at hCommit
  obtain ⟨row, -, _, -, ⟨event, mid⟩, hRecord, bound, -, next, hUpdate, last, hLast, -, rfl⟩ :=
    hCommit
  exact ((recordEvent_frame hRecord).trans (updateHypothesis_frame hUpdate)).trans
    (recordThreshold_frame hLast)

/-- The commit of an award leaves the counters and the other tables. -/
theorem commitAward_frame {candidate result : HypothesisRecord} {proof : LadderProof}
    (h : commitAward p now db candidate proof = .ok (result, db')) : Frame db db' := by
  simp only [commitAward, bind_eq_ok, pure_eq_ok, Prod.mk.injEq] at h
  obtain ⟨row, -, current, -, state, -, _, -, ⟨event, mid⟩, hRecord, last, hUpdate, -, rfl⟩ := h
  exact (recordEvent_frame hRecord).trans (updateHypothesis_frame hUpdate)

/-- A creation moves the counter of its ids, unless its caller has named the id. -/
theorem createHypothesis_frame (payload : NormalFields) (entityId : Option String) :
    Frame (chooseId db (redactFields p.alnum payload) entityId).2
      (createHypothesis p now db payload entityId).2 := by
  unfold createHypothesis
  simp only
  split
  · exact .refl _
  · exact submit_frame fun _ _ h => insertHypothesis_frame h

/-- A creation takes the id that its caller names, and makes one up otherwise. -/
theorem chooseId_eq (db : Database) (payload : NormalFields) (entityId : Option String) :
    chooseId db (redactFields p.alnum payload) entityId =
      match givenId p payload entityId with
      | some hid => (hid, db)
      | none => nextId db "H" := by
  unfold chooseId givenId
  simp only
  split
  · rename_i hText
    cases entityId with
    | none => simp [hasText] at hText
    | some hid => rfl
  · split <;> rfl

end Frames

section Hypotheses

variable {p : Platform} {now : String} {s : System} {call : Call} {payload : NormalFields}
  {entityId : Option String}

/-- A call that comes to `create_hypothesis` does what that function does with its payload. -/
theorem step_creates (h : call.creates s = some (payload, entityId)) :
    (step p now s call).db = (createHypothesis p now s.db payload entityId).2 ∧
      commit? p now s call = createdBy p now s.db payload entityId := by
  cases call with
  | create payload entityId =>
      cases h
      exact ⟨rfl, rfl⟩
  | saveCommit i =>
      rw [Call.creates, Option.bind_eq_some_iff] at h
      obtain ⟨save, hAt, h⟩ := h
      unfold PendingSave.creates at h
      split at h
      · rename_i payload' hPlan
        cases h
        simp [step, commit?, hAt, runPlan, savedBy, hPlan]
      · cases h
  | _ => cases h

/-- A call that does not come to `create_hypothesis` moves no counter and adds no row. -/
theorem step_updates (h : call.creates s = none) : Frame s.db (step p now s call).db ∧
    ∀ hid data, commit? p now s call ≠ some (.created hid data) := by
  cases call with
  | create payload entityId => cases h
  | saveRead hid payload =>
      rw [step]
      split <;> exact ⟨.refl _, by simp [commit?]⟩
  | saveCommit i =>
      cases hAt : s.pending[i]? with
      | none =>
          simp only [step, commit?, hAt]
          exact ⟨.refl _, by simp⟩
      | some save =>
          simp only [Call.creates, hAt, Option.bind_some, PendingSave.creates] at h
          simp only [step, commit?, hAt, Option.bind_some, savedBy]
          cases hPlan : save.plan with
          | create payload => simp [hPlan] at h
          | unchanged value => exact ⟨.refl _, by simp⟩
          | update cause evidence data =>
              simp only [runPlan]
              refine ⟨submit_frame fun _ _ h => commitSave_frame h, fun hid data => ?_⟩
              split <;> simp
  | transition token h' newState cause evidence =>
      simp only [step, commit?, transitionHypothesis]
      split
      · exact ⟨.refl _, by simp⟩
      · refine ⟨submit_frame fun _ _ h => commitTransition_frame h, fun hid data => ?_⟩
        split <;> simp
  | award token h' proof =>
      simp only [step, commit?, awardLadder]
      split
      · exact ⟨.refl _, by simp⟩
      · refine ⟨submit_frame fun _ _ h => commitAward_frame h, fun hid data => ?_⟩
        split <;> simp
      · exact ⟨.refl _, by simp [raise]⟩
  | record entity entityId payload =>
      rw [step]
      split
      · rename_i event db' hRecord
        exact ⟨recordEvent_frame hRecord, by simp [commit?]⟩
      · exact ⟨.refl _, by simp [commit?]⟩

/-- A row after a call has an id of before, or the one that `create_hypothesis` chose. -/
theorem step_ids (hFiled : Filed p s) {row : HypothesisRow}
    (h : row ∈ (step p now s call).db.hypotheses) :
    (∃ old ∈ s.db.hypotheses, row.id = old.id) ∨ ∃ payload entityId,
      call.creates s = some (payload, entityId) ∧
        row.id = .text (chooseId s.db (redactFields p.alnum payload) entityId).1 := by
  cases hCommit : commit? p now s call with
  | none =>
      rw [(step_none hCommit).rows] at h
      exact .inl ⟨row, h, rfl⟩
  | some c =>
      obtain ⟨new, st, hNew, hLeaves, hRows⟩ :=
        (step_some hFiled hCommit).rowOf hFiled.stored
      rcases (hRows row).mp h with rfl | ⟨hOld, -⟩
      · cases c with
        | created hid data =>
            cases hCreates : call.creates s with
            | none => exact absurd hCommit ((step_updates hCreates).2 hid data)
            | some created =>
                obtain ⟨payload, entityId⟩ := created
                rw [(step_creates hCreates).2, createdBy] at hCommit
                split at hCommit
                · cases hCommit
                  exact .inr ⟨payload, entityId, rfl, hNew.id⟩
                · cases hCommit
        | saved save cause evidence data =>
            obtain ⟨old, hOld, oldData, hRow⟩ := hLeaves
            exact .inl ⟨old, hOld, hNew.id.trans hRow.id.symm⟩
        | moved token h' newState cause evidence =>
            obtain ⟨-, old, hOld, oldData, hRow⟩ := hLeaves
            exact .inl ⟨old, hOld, hNew.id.trans hRow.id.symm⟩
        | awarded token h' candidate proof =>
            obtain ⟨old, hOld, oldData, hRow⟩ := hLeaves
            exact .inl ⟨old, hOld, hNew.id.trans hRow.id.symm⟩
      · exact .inl ⟨row, hOld, rfl⟩

end Hypotheses

section Tasks

variable {p : Platform} {now taskId : String} {db mid db' : Database} {named : Option String}

/-- What a step of the task ledger leaves: the hypotheses, a log that takes more events,
and tasks of before or of the id that it names. -/
structure TaskFrame (db : Database) (named : Option String) (db' : Database) : Prop where
  quiet : Quiet db db'
  logged : eventGuards.allows db.events = true → eventGuards.allows db'.events = true
  constraints : taskConstraints (db.tables .tasks) = true →
    taskConstraints (db'.tables .tasks) = true
  ids : ∀ row ∈ db'.tables .tasks,
    (∃ old ∈ db.tables .tasks, row.column "id" = old.column "id") ∨
      ∃ id, named = some id ∧ row.column "id" = .text id

theorem TaskFrame.refl (db : Database) (named : Option String) : TaskFrame db named db :=
  ⟨.refl db, id, id, fun row h => .inl ⟨row, h, rfl⟩⟩

/-- A transaction on the ledger leaves what its body leaves, also when it is rolled back. -/
theorem TaskFrame.submit {α : Type} {txn : Py (α × Database)}
    (h : ∀ a db', txn = .ok (a, db') → TaskFrame db named db' ∧ db'.idCounters = db.idCounters) :
    TaskFrame db named (Store.submit db txn).2 ∧
      (Store.submit db txn).2.idCounters = db.idCounters := by
  cases hTxn : txn with
  | ok r => exact h r.1 r.2 hTxn
  | error e => exact ⟨.refl db named, rfl⟩

/-- The quiet part of a transaction that records an event of a task. -/
theorem recordEvent_task {id : String} {payload : Fields} {event : Int}
    {rows : List GuardedRow}
    (h : recordEvent p now db "task" id payload = .ok (event, mid)) :
    Quiet db { mid with tables := Function.update mid.tables .tasks rows } ∧
      eventGuards.allows mid.events = true ∧ mid.tables = db.tables ∧
      mid.idCounters = db.idCounters := by
  have hAllows := recordEvent_allows h
  obtain ⟨e, hEntity, hId, -, -, rfl⟩ := recordEvent_appends h
  exact ⟨⟨rfl, .inr ⟨e, by simp [hEntity], hId, rfl⟩⟩, hAllows, rfl, rfl⟩

theorem insertTask_frame {engine : Engine} {id : String} {payload : Fields} {event : Int}
    {columns : List (String × Json)}
    (hRecord : recordEvent p now db "task" id payload = .ok (event, mid))
    (hId : columns.lookup "id" = some (.str taskId))
    (h : insertTask engine mid columns event = .ok db') :
    TaskFrame db (some taskId) db' ∧ db'.idCounters = db.idCounters := by
  obtain ⟨bound, hBound, -, hAllows, rfl⟩ := insertTask_eq_ok h
  obtain ⟨hQuiet, hLogged, hTables, hCounters⟩ := recordEvent_task hRecord
  rw [hTables] at hAllows hQuiet
  refine ⟨⟨hTables ▸ hQuiet, fun _ => hLogged, fun _ => ?_, fun row hRow => ?_⟩, hCounters⟩
  · rw [tables_update, hTables]
    exact hAllows
  · rw [tables_update, hTables] at hRow
    rcases List.mem_append.mp hRow with hRow | hRow
    · exact .inl ⟨row, hRow, rfl⟩
    · refine .inr ⟨taskId, rfl, ?_⟩
      rw [List.mem_singleton.mp hRow, GuardedRow.column, lookup_bound_text hBound hId,
        Option.getD_some]

theorem updateTask_frame {engine : Engine} {id : String} {payload : Fields} {event : Int}
    {columns : List (String × Json)}
    (hRecord : recordEvent p now db "task" id payload = .ok (event, mid))
    (hId : columns.lookup "id" = none)
    (h : updateTask engine mid taskId columns event = .ok db') :
    TaskFrame db named db' ∧ db'.idCounters = db.idCounters := by
  have hSame := @recordEvent_task p now db mid id payload event (db.tables .tasks) hRecord
  obtain ⟨hQuiet, hLogged, hTables, hCounters⟩ := hSame
  rcases updateTask_eq_ok h with rfl | ⟨bound, i, old, hBound, -, hAt, -, -, hAllows, rfl⟩
  · exact ⟨⟨⟨hQuiet.rows, hQuiet.events⟩, fun _ => hLogged, fun hBefore => hTables ▸ hBefore,
      fun row hRow => .inl ⟨row, hTables ▸ hRow, rfl⟩⟩, hCounters⟩
  · rw [hTables] at hAt hAllows
    refine ⟨⟨⟨hQuiet.rows, hQuiet.events⟩, fun _ => hLogged, fun _ => ?_, fun row hRow => ?_⟩,
      hCounters⟩
    · rw [tables_update, hTables]
      exact hAllows
    · rw [tables_update, hTables] at hRow
      rcases List.mem_or_eq_of_mem_set hRow with hRow | rfl
      · exact .inl ⟨row, hRow, rfl⟩
      · have hNone := lookup_bindTaskColumns hBound "id"
        rw [hId] at hNone
        exact .inl ⟨old, List.mem_of_getElem? hAt, column_assign_of_none hNone event⟩

theorem commitDispatch_frame {key kind phase role startedAt : String} {u : Unit}
    (h : commitDispatch p now db taskId key kind phase role startedAt = .ok (u, db')) :
    TaskFrame db (some taskId) db' ∧ db'.idCounters = db.idCounters := by
  simp only [commitDispatch, bind_eq_ok, pure_eq_ok, Prod.mk.injEq] at h
  obtain ⟨⟨event, mid⟩, hRecord, last, hInsert, -, rfl⟩ := h
  exact insertTask_frame hRecord rfl hInsert

/-- The end of a task adds no id, whatever its status. -/
theorem commitEnd_frame {kind status finishedAt : String} {result : Json}
    {extra : List (String × Json)} {u : Unit}
    (h : commitEnd p now db taskId kind status finishedAt result extra = .ok (u, db')) :
    TaskFrame db named db' ∧ db'.idCounters = db.idCounters := by
  simp only [commitEnd, bind_eq_ok, pure_eq_ok, Prod.mk.injEq] at h
  obtain ⟨row, -, ⟨event, mid⟩, hRecord, last, hUpdate, -, rfl⟩ := h
  exact updateTask_frame hRecord rfl hUpdate

theorem commitSaveTask_frame {payload : Fields} {u : Unit}
    (h : commitSaveTask p now db taskId payload = .ok (u, db')) :
    TaskFrame db (some taskId) db' ∧ db'.idCounters = db.idCounters := by
  simp only [commitSaveTask, bind_eq_ok, pure_eq_ok, Prod.mk.injEq] at h
  obtain ⟨columns, hColumns, ⟨event, mid⟩, hRecord, last, hSave, -, rfl⟩ := h
  have hId : columns.lookup "id" = none := by
    simp only [savedColumns, bind_eq_ok, pure_eq_ok] at hColumns
    obtain ⟨key, -, rfl⟩ := hColumns
    rfl
  unfold saveTask at hSave
  split at hSave
  · exact updateTask_frame hRecord hId hSave
  · exact insertTask_frame hRecord rfl hSave

/-- Of the requests only `next_id` moves a counter. -/
theorem answerTask_frame (m : Moment) (request : TaskRequest) :
    TaskFrame db request.names (answerTask p m db request).2 ∧
      ((answerTask p m db request).2.idCounters = db.idCounters ∨
        (answerTask p m db request).2 = (nextId db "T").2) := by
  have hSubmit : ∀ {txn : Py (Unit × Database)} {named : Option String},
      (∀ u db', txn = .ok (u, db') → TaskFrame db named db' ∧ db'.idCounters = db.idCounters) →
      TaskFrame db named (Store.submit db (m.guarded txn)).2 ∧
        ((Store.submit db (m.guarded txn)).2.idCounters = db.idCounters ∨
          (Store.submit db (m.guarded txn)).2 = (nextId db "T").2) := by
    intro txn named hTxn
    have hGuarded := @TaskFrame.submit db named Unit (m.guarded txn) ?_
    · exact ⟨hGuarded.1, .inl hGuarded.2⟩
    · intro u db' h
      unfold Moment.guarded at h
      split at h
      · cases h
      · exact hTxn u db' h
  cases request with
  | clock => exact ⟨.refl db none, .inl rfl⟩
  | findByKey key => exact ⟨.refl db none, .inl rfl⟩
  | fetch taskId => exact ⟨.refl db none, .inl rfl⟩
  | nextId =>
      simp only [answerTask, Moment.guarded]
      cases m.fault with
      | some e => exact ⟨.refl db none, .inl rfl⟩
      | none => exact ⟨⟨⟨rfl, .inl rfl⟩, id, id, fun row h => .inl ⟨row, h, rfl⟩⟩, .inr rfl⟩
  | dispatch taskId key kind phase role startedAt =>
      exact hSubmit fun _ _ h => commitDispatch_frame h
  | finish taskId result finishedAt => exact hSubmit fun _ _ h => commitEnd_frame h
  | block taskId reason finishedAt => exact hSubmit fun _ _ h => commitEnd_frame h
  | save taskId payload => exact hSubmit fun _ _ h => commitSaveTask_frame h

end Tasks

section Counters

variable {db mid db' : Database} {start id : String}

def Grows (db db' : Database) : Prop := ∀ start, counter db start ≤ counter db' start

/-- The counter of a start depends on the stored counters alone. -/
theorem counter_congr (h : db'.idCounters = db.idCounters) (start : String) :
    counter db' start = counter db start := by
  rw [counter, h, counter]

/-- Counters that are left as they were have not gone back. -/
theorem Grows.of_counters (h : db'.idCounters = db.idCounters) : Grows db db' :=
  fun start => le_of_eq (counter_congr h start).symm

theorem Grows.trans (h : Grows db mid) (h' : Grows mid db') : Grows db db' :=
  fun start => (h start).trans (h' start)

theorem grows_nextId (db : Database) (start : String) : Grows db (nextId db start).2 := by
  intro other
  rw [counter_nextId]
  split
  · rename_i hSame
    rw [hSame]
    omega
  · exact le_refl _

/-- What is due later is due now. -/
theorem Due.before (hGrows : Grows db db') (h : Due db' start id) : Due db start id := by
  obtain ⟨value, hLe, hId⟩ := h
  exact ⟨value, (hGrows start).trans hLe, hId⟩

/-- An id that was given is no longer due. -/
theorem not_due_nextId (h : 1 ≤ counter db start) :
    ¬Due (nextId db start).2 start (nextId db start).1 := by
  rintro ⟨value, hLe, hId⟩
  rw [counter_nextId, if_pos rfl] at hLe
  rw [nextId_eq] at hId
  have hSame := idText_eq (by omega) (by omega) hId
  omega

theorem due_nextId (db : Database) (start : String) : Due db start (nextId db start).1 :=
  ⟨counter db start, le_refl _, rfl⟩

end Counters

section Invariant

variable {p : Platform} {m : Moment} {now : String} {s : System} {call : Call}

/-- A store in which no id of a row is due. -/
structure Ahead (p : Platform) (s : System) : Prop where
  ready : Ready p s
  constraints : taskConstraints (s.db.tables .tasks) = true
  positive : ∀ start, 1 ≤ counter s.db start
  hypotheses : ∀ id, s.db.hasHypothesis id → ¬Due s.db "H" id
  tasks : ∀ id, s.db.hasTask id → ¬Due s.db "T" id

theorem ahead_empty (p : Platform) : Ahead p System.empty where
  ready := ready_empty p
  constraints := rfl
  positive _ := le_refl _
  hypotheses _ h := absurd h.choose_spec.1 List.not_mem_nil
  tasks _ h := absurd h.choose_spec.1 List.not_mem_nil

/-- A call that commits nothing leaves every row with an event that the log holds. -/
theorem Quiet.earlier {db' : Database} (hQuiet : Quiet s.db db') (h : Ready p s) :
    ∀ row ∈ db'.hypotheses, ∃ i, row.lastEventId = .int i ∧ i < nextEventId db'.events := by
  intro row hRow
  rw [hQuiet.rows] at hRow
  obtain ⟨i, hEvent, hLt⟩ := h.earlier row hRow
  refine ⟨i, hEvent, ?_⟩
  rcases hQuiet.events with hSame | ⟨e, -, hId, hEvents⟩
  · rwa [hSame]
  · rw [hEvents]
    exact (hId ▸ hLt).trans lt_nextEventId_append

/-- A call that commits nothing leaves a store that is ready. -/
theorem Ready.quiet {db' : Database} (h : Ready p s) (hQuiet : Quiet s.db db')
    (hLogged : eventGuards.allows db'.events = true) : Ready p { s with db := db' } where
  increasing := hQuiet.increasing h.increasing
  unique := by
    change (db'.hypotheses.map HypothesisRow.id).Nodup
    rw [hQuiet.rows]
    exact h.unique
  stored row hRow := h.stored row (hQuiet.rows ▸ hRow)
  planned := h.planned
  present save hSave hUpdate := by
    change ∃ row ∈ db'.hypotheses, _
    rw [hQuiet.rows]
    exact h.present save hSave hUpdate
  logged := hLogged
  earlier := hQuiet.earlier h

/-- Where a call starts from once it has an id, and the ids of its rows. -/
theorem step_base (hFiled : Filed p s) (hPositive : 1 ≤ counter s.db "H")
    (hTakes : ∀ start id, (Access.hypothesis call).takes p s = some (start, id) →
      ¬Due s.db start id) :
    ∃ base, Frame base (step p now s call).db ∧ Grows s.db base ∧ base.tables = s.db.tables ∧
      base.events = s.db.events ∧ ∀ id, (step p now s call).db.hasHypothesis id →
        s.db.hasHypothesis id ∨ ¬Due base "H" id := by
  cases hCreates : call.creates s with
  | none =>
      refine ⟨s.db, (step_updates hCreates).1, fun _ => le_refl _, rfl, rfl, ?_⟩
      rintro id ⟨row, hRow, hId⟩
      rcases step_ids hFiled hRow with ⟨old, hOld, hSame⟩ | ⟨payload, entityId, hSome, -⟩
      · exact .inl ⟨old, hOld, hSame.symm.trans hId⟩
      · rw [hCreates] at hSome
        cases hSome
  | some created =>
      obtain ⟨payload, entityId⟩ := created
      have hFrame : Frame (chooseId s.db (redactFields p.alnum payload) entityId).2
          (step p now s call).db := by
        rw [(step_creates hCreates).1]
        exact createHypothesis_frame payload entityId
      have hIds : ∀ id, (step p now s call).db.hasHypothesis id → s.db.hasHypothesis id ∨
          id = (chooseId s.db (redactFields p.alnum payload) entityId).1 := by
        rintro id ⟨row, hRow, hId⟩
        rcases step_ids hFiled hRow with ⟨old, hOld, hSame⟩ | ⟨payload', entityId', hSome, hNew⟩
        · exact .inl ⟨old, hOld, hSame.symm.trans hId⟩
        · rw [hCreates] at hSome
          cases hSome
          exact .inr (Value.text.inj (hId.symm.trans hNew))
      rw [chooseId_eq] at hFrame hIds
      cases hGiven : givenId p payload entityId with
      | some hid =>
          simp only [hGiven] at hFrame hIds
          have hNotDue := hTakes "H" hid (by simp [Access.takes, hCreates, hGiven])
          refine ⟨s.db, hFrame, fun _ => le_refl _, rfl, rfl, fun id h => ?_⟩
          rcases hIds id h with hOld | rfl
          · exact .inl hOld
          · exact .inr hNotDue
      | none =>
          simp only [hGiven] at hFrame hIds
          refine ⟨_, hFrame, grows_nextId s.db "H", rfl, rfl, fun id h => ?_⟩
          rcases hIds id h with hOld | rfl
          · exact .inl hOld
          · exact .inr (not_due_nextId hPositive)

/-- A call on hypotheses keeps the counters ahead when its caller takes no id that is due. -/
theorem Ahead.hypothesis (h : Ahead p s) (now : String)
    (hTakes : ∀ start id, (Access.hypothesis call).takes p s = some (start, id) →
      ¬Due s.db start id) :
    Ahead p (step p now s call) ∧ Grows s.db (step p now s call).db := by
  obtain ⟨base, hFrame, hBase, hTables, hEvents, hIds⟩ :=
    @step_base p now s call h.ready.toFiled (h.positive "H") hTakes
  have hGrows : Grows s.db (step p now s call).db := hBase.trans (.of_counters hFrame.counters)
  have hSame : (step p now s call).db.tables = s.db.tables := hFrame.tables.trans hTables
  have hReady : Ready p (step p now s call) := by
    cases hCommit : commit? p now s call with
    | some c => exact h.ready.committed hCommit
    | none =>
        exact ⟨h.ready.toFiled.step now call, hFrame.logged (hEvents ▸ h.ready.logged),
          (step_none hCommit).earlier h.ready⟩
  refine ⟨⟨hReady, hSame ▸ h.constraints, fun start => (h.positive start).trans (hGrows start),
    fun id hHas hDue => ?_, fun id hHas hDue => ?_⟩, hGrows⟩
  · rcases hIds id hHas with hOld | hNew
    · exact h.hypotheses id hOld (hDue.before hGrows)
    · exact hNew (hDue.before (.of_counters hFrame.counters))
  · refine h.tasks id ?_ (hDue.before hGrows)
    rw [Database.hasTask, hSame] at hHas
    exact hHas

/-- A step of the ledger keeps the counters ahead when its caller takes no id that is due. -/
theorem Ahead.task (h : Ahead p s) (m : Moment) {request : TaskRequest}
    (hTakes : ∀ id, request.names = some id → ¬Due s.db "T" id) :
    Ahead p { s with db := (answerTask p m s.db request).2 } ∧
      Grows s.db (answerTask p m s.db request).2 := by
  obtain ⟨hFrame, hCounters⟩ := @answerTask_frame p s.db m request
  have hGrows : Grows s.db (answerTask p m s.db request).2 := by
    rcases hCounters with hSame | hNext
    · exact .of_counters hSame
    · rw [hNext]
      exact grows_nextId s.db "T"
  refine ⟨⟨h.ready.quiet hFrame.quiet (hFrame.logged h.ready.logged),
    hFrame.constraints h.constraints, fun start => (h.positive start).trans (hGrows start),
    fun id hHas hDue => ?_, fun id hHas hDue => ?_⟩, hGrows⟩
  · refine h.hypotheses id ?_ (hDue.before hGrows)
    rw [Database.hasHypothesis, hFrame.quiet.rows] at hHas
    exact hHas
  · obtain ⟨row, hRow, hId⟩ := hHas
    rcases hFrame.ids row hRow with ⟨old, hOld, hSame⟩ | ⟨name, hName, hNew⟩
    · exact h.tasks id ⟨old, hOld, hSame.symm.trans hId⟩ (hDue.before hGrows)
    · obtain rfl := Value.text.inj (hId.symm.trans hNew)
      exact hTakes id hName (hDue.before hGrows)

theorem Ahead.next (h : Ahead p s) (start : String) :
    Ahead p { s with db := (nextId s.db start).2 } ∧ Grows s.db (nextId s.db start).2 := by
  have hGrows := grows_nextId s.db start
  exact ⟨⟨h.ready.quiet ⟨rfl, .inl rfl⟩ h.ready.logged, h.constraints,
    fun other => (h.positive other).trans (hGrows other),
    fun id hHas hDue => h.hypotheses id hHas (hDue.before hGrows),
    fun id hHas hDue => h.tasks id hHas (hDue.before hGrows)⟩, hGrows⟩

/-- An access that takes no id that is due leaves none stored. -/
theorem Ahead.perform (h : Ahead p s) (m : Moment) {access : Access}
    (hTakes : ∀ start id, access.takes p s = some (start, id) → ¬Due s.db start id) :
    Ahead p (access.perform p m s) ∧ Grows s.db (access.perform p m s).db := by
  cases access with
  | hypothesis call => exact h.hypothesis m.now hTakes
  | task request =>
      exact h.task m fun id hName => hTakes "T" id (by simp [Access.takes, hName])
  | next start => exact h.next start

/-- Every store of a history is ahead of its rows, and its counters are at most those at
the end. -/
theorem InTurn.ahead {history : List (Moment × Access)} (h : Ahead p s)
    (hTurn : InTurn p s history) : ∀ earlier later, history = earlier ++ later →
      Ahead p (performed p s earlier) ∧
        Grows (performed p s earlier).db (performed p s history).db := by
  induction history generalizing s with
  | nil =>
      intro earlier later hSplit
      obtain ⟨rfl, -⟩ := List.append_eq_nil_iff.mp hSplit.symm
      exact ⟨h, fun _ => le_refl _⟩
  | cons access rest ih =>
      obtain ⟨hFirst, hRest⟩ := hTurn
      obtain ⟨hNext, hGrows⟩ := h.perform access.1 hFirst
      intro earlier later hSplit
      cases earlier with
      | nil =>
          have hEnd := (ih hNext hRest [] rest rfl).2
          exact ⟨h, hGrows.trans hEnd⟩
      | cons first earlier =>
          rw [List.cons_append, List.cons.injEq] at hSplit
          obtain ⟨rfl, hSplit⟩ := hSplit
          exact ih hNext hRest earlier later hSplit

end Invariant

section Created

variable {p : Platform} {s : System}

/-- A creation without an id succeeds under the next one. -/
theorem Ahead.creates (h : Ahead p s) (hEngine : p.engine = Engine.strict) (now : String)
    {payload : NormalFields} {entityId : Option String} (hGiven : givenId p payload entityId = none)
    (hData : Creatable p (newData p payload (nextId s.db "H").1)) :
    ∃ db, createHypothesis p now s.db payload entityId =
        (.ok (newData p payload (nextId s.db "H").1), db) ∧
      db.hasHypothesis (nextId s.db "H").1 := by
  have hReady : Ready p { s with db := (nextId s.db "H").2 } := (h.next "H").1.ready
  have hNew : ∀ row ∈ (nextId s.db "H").2.hypotheses, row.id ≠ .text (nextId s.db "H").1 :=
    fun row hRow hId => h.hypotheses _ ⟨row, hRow, hId⟩ (due_nextId s.db "H")
  obtain ⟨bound, hBound, -⟩ := hData.columned.bound
  obtain ⟨db, hInsert⟩ := insertHypothesis_succeeds now hReady hEngine hNew
    ⟨⟨rfl, rfl, rfl, newData_normal p payload _, hData.open_⟩, newData_named p payload _,
      hData.columned, hBound⟩ hData.plain
  refine ⟨db, ?_, ?_⟩
  · have hState : fieldOf "state" (newData p payload (nextId s.db "H").1) =
        .str HState.open.text := by
      rw [fieldOf, hData.open_, Option.getD_some]
    rw [createHypothesis, chooseId_eq, hGiven]
    simp only [hState, ne_eq, not_true_eq_false, if_false]
    rw [hInsert]
    rfl
  · obtain ⟨-, bound', -, -, -, rfl⟩ := insertHypothesis_eq_ok hInsert
    exact ⟨_, List.mem_append_right _ (List.mem_singleton_self _), rfl⟩

end Created

section Dispatched

variable {p : Platform} {now key kind phase role startedAt taskId : String} {db : Database}

/-- The columns of a dispatched task, as they are stored. -/
def dispatchedColumns (taskId key phase role startedAt : String) : List (String × Value) :=
  [("id", .text taskId), ("idempotency_key", .text key), ("phase", .text phase),
    ("role", .text role), ("status", .text "dispatched"), ("started_at", .text startedAt),
    ("finished_at", .null), ("result", .null)]

/-- The row of a dispatch binds to its stored columns. -/
theorem bindTaskColumns_dispatched (engine : Engine) :
    bindTaskColumns engine (dispatchedRow taskId key phase role startedAt) =
      .ok (dispatchedColumns taskId key phase role startedAt) := by
  simp only [bindTaskColumns, dispatchedRow, List.mapM_cons, List.mapM_nil, Sql.bind, pure_bind,
    engine.text_text, engine.text_null]
  rfl

/-- The event of a dispatch backs its row, where redaction leaves the texts. -/
theorem dispatched_backed (hEngine : p.engine = Engine.strict)
    (hPlain : ∀ text ∈ [taskId, key, phase, role, startedAt], redact p.alnum text = text) :
    backsRow p.engine .tasks "insert" (.text taskId)
      ⟨dispatchedColumns taskId key phase role startedAt, .int (nextEventId db.events)⟩
      (entityEvent p now db "task" taskId "task_dispatched"
        (dispatchedPayload taskId key kind phase role startedAt)) = true := by
  have hNormal := @dispatchedPayload_normal p key taskId kind phase role startedAt
  have hStatus : redact p.alnum "dispatched" = "dispatched" := redact_quiet (by decide)
  have hInsert : redact p.alnum "insert" = "insert" := redact_plain (by decide)
  simp only [List.forall_mem_cons, List.not_mem_nil, false_implies, implies_true,
    and_true] at hPlain
  obtain ⟨hId, hKey, hPhase, hRole, hStarted⟩ := hPlain
  have hWalk : ∀ path, p.engine.jsonExtract (entityEvent p now db "task" taskId "task_dispatched"
      (dispatchedPayload taskId key kind phase role startedAt)).payload path =
        some (ofJson (walk path (.obj (redactFields p.alnum
          (dispatchedPayload taskId key kind phase role startedAt))))) := by
    intro path
    rw [hEngine, entityEvent, Engine.strict_dumps hNormal]
  refine backsRow_iff.mpr ⟨⟨rfl, rfl, fun name hName => ⟨_, hWalk _, ?_⟩⟩, ?_, ?_⟩
  · have hText : ∀ s, (Value.text s).is (ofJson (some (.str s))) = true :=
      fun s => decide_eq_true (rfl : s = s)
    have hNull : Value.null.is (ofJson (some .null)) = true := rfl
    simp only [MutableTable.rowColumns, List.mem_cons, List.not_mem_nil, or_false] at hName
    rcases hName with rfl | rfl | rfl | rfl | rfl | rfl | rfl | rfl <;>
      simp [GuardedRow.column, dispatchedColumns, List.lookup_cons, walk, Json.get?, getField?_redactFields,
        dispatchedPayload, getField?_dictOf, lookupLast, dispatchedRow, redactPayload, hId, hKey,
        hPhase, hRole, hStarted, hStatus, hText, hNull]
  · rw [hEngine]
    exact Value.equals_text.mpr rfl
  · rw [hWalk]
    simp [walk, Json.get?, getField?_redactFields, dispatchedPayload, getField?_dictOf, lookupLast,
      redactPayload, hInsert, ofJson]

/-- The constraints of `tasks` take a row whose id and key are new. -/
theorem taskConstraints_append {rows : List GuardedRow} {event : Int}
    (h : taskConstraints rows = true) (hId : ∀ row ∈ rows, row.column "id" ≠ .text taskId)
    (hKey : ∀ row ∈ rows, row.column "idempotency_key" ≠ .text key) :
    taskConstraints (rows ++
      [⟨dispatchedColumns taskId key phase role startedAt, .int event⟩]) = true := by
  simp only [taskConstraints, Bool.and_eq_true, decide_eq_true_eq, List.map_append,
    List.map_singleton, List.filter_append, List.all_append] at h ⊢
  obtain ⟨⟨hIds, hKeys⟩, hAll⟩ := h
  have hNewId : (⟨dispatchedColumns taskId key phase role startedAt, .int event⟩ :
      GuardedRow).column "id" = .text taskId := rfl
  have hNewKey : (⟨dispatchedColumns taskId key phase role startedAt, .int event⟩ :
      GuardedRow).column "idempotency_key" = .text key := rfl
  refine ⟨⟨?_, ?_⟩, hAll, ?_⟩
  · rw [hNewId, List.nodup_append]
    refine ⟨hIds, List.nodup_singleton _, ?_⟩
    rintro v hv w hw rfl
    obtain ⟨row, hRow, rfl⟩ := List.mem_map.mp (List.mem_filter.mp hv).1
    exact hId row hRow (by simpa using hw)
  · rw [hNewKey, List.nodup_append]
    refine ⟨hKeys, List.nodup_singleton _, ?_⟩
    rintro v hv w hw rfl
    obtain ⟨row, hRow, rfl⟩ := List.mem_map.mp hv
    exact hKey row hRow (by simpa using hw)
  · have hStatus : (⟨dispatchedColumns taskId key phase role startedAt, .int event⟩ :
        GuardedRow).column "status" = .text "dispatched" := rfl
    simp [hNewKey, hStatus, Value.equals, Value.is]

def dispatched (p : Platform) (now : String) (db : Database)
    (taskId key kind phase role startedAt : String) : Database :=
  { db.logged (entityEvent p now db "task" taskId "task_dispatched"
      (dispatchedPayload taskId key kind phase role startedAt)) with
    tables := Function.update db.tables .tasks (db.tables .tasks ++
      [⟨dispatchedColumns taskId key phase role startedAt, .int (nextEventId db.events)⟩]) }

/-- A dispatch under a new id and key succeeds. -/
theorem commitDispatch_succeeds (now kind : String) (hEngine : p.engine = Engine.strict)
    (hLogged : eventGuards.allows db.events = true)
    (hTasks : taskConstraints (db.tables .tasks) = true)
    (hId : ∀ row ∈ db.tables .tasks, row.column "id" ≠ .text taskId)
    (hKey : ∀ row ∈ db.tables .tasks, row.column "idempotency_key" ≠ .text key)
    (hPlain : ∀ text ∈ [taskId, key, phase, role, startedAt], redact p.alnum text = text) :
    commitDispatch p now db taskId key kind phase role startedAt =
      .ok ((), dispatched p now db taskId key kind phase role startedAt) := by
  have hKind : getField? "kind" (dispatchedPayload taskId key kind phase role startedAt) =
      some (.str "task_dispatched") := by
    simp [dispatchedPayload, getField?_dictOf, lookupLast]
  have hRecord := recordEvent_logs (p := p) "task" "task_dispatched" now taskId hLogged hKind
    (redact_quiet (by decide)) (by decide) (by decide)
  have hInsert : (Statement.insert [(⟨dispatchedColumns taskId key phase role startedAt,
      .int (nextEventId db.events)⟩ : GuardedRow)]).run (taskGuards p.engine)
      (db.logged (entityEvent p now db "task" taskId "task_dispatched"
        (dispatchedPayload taskId key kind phase role startedAt))).events (db.tables .tasks) =
      some (db.tables .tasks ++ [⟨dispatchedColumns taskId key phase role startedAt,
        .int (nextEventId db.events)⟩]) := by
    refine Statement.run_insert_one ?_ (taskConstraints_append hTasks hId hKey)
    exact List.any_eq_true.mpr ⟨_, List.mem_append_right _ (List.mem_singleton_self _),
      dispatched_backed hEngine hPlain⟩
  simp only [commitDispatch, insertTask, hRecord, bind_eq_ok, executed_eq_ok, pure_eq_ok]
  exact ⟨_, rfl, _, ⟨_, bindTaskColumns_dispatched p.engine, _, hInsert, rfl⟩, rfl⟩

/-- The task that was dispatched is read back. -/
theorem getTask_dispatched (now kind : String)
    (hId : ∀ row ∈ db.tables .tasks, row.column "id" ≠ .text taskId) :
    ∃ task, getTask (dispatched p now db taskId key kind phase role startedAt) taskId = .ok task ∧
      getField? "id" task = some (.str taskId) := by
  have hFind : findTask (dispatched p now db taskId key kind phase role startedAt) taskId =
      some (db.tables .tasks).length := by
    simp only [findTask, dispatched, tables_update, List.findIdx?_append]
    have hNone : (db.tables .tasks).findIdx?
        (fun row => (row.column "id").equals (.text taskId)) = none := by
      rw [List.findIdx?_eq_none_iff]
      intro row hRow
      rw [← Bool.not_eq_true, Value.equals_text]
      exact hId row hRow
    have hNew : (⟨dispatchedColumns taskId key phase role startedAt,
        .int (nextEventId db.events)⟩ : GuardedRow).column "id" = .text taskId := rfl
    rw [hNone]
    simp [List.findIdx?_cons, hNew, Value.equals, Value.is]
  have hStored : storedTask (dispatched p now db taskId key kind phase role startedAt) taskId =
      .ok ⟨dispatchedColumns taskId key phase role startedAt, .int (nextEventId db.events)⟩ := by
    rw [storedTask, hFind]
    simp [dispatched]
  have hTask : ∃ task, getTask (dispatched p now db taskId key kind phase role startedAt) taskId =
      .ok task := by
    rw [getTask, hStored]
    exact ⟨_, rfl⟩
  obtain ⟨task, hTask⟩ := hTask
  obtain ⟨-, -, -, hName, -⟩ := getTask_eq_ok hTask
  exact ⟨task, hTask, hName⟩

end Dispatched

section Generated

variable {p : Platform} {s : System}

/-- A moment without a fault gives the outcome that the write has. -/
theorem Moment.guarded_ok {α : Type} {m : Moment} (h : m.fault = none) (outcome : Py α) :
    m.guarded outcome = outcome := by
  rw [Moment.guarded, h]

theorem findTaskByKey_unused {db : Database} {key : String}
    (h : ∀ row ∈ db.tables .tasks, row.column "idempotency_key" ≠ .text key) :
    findTaskByKey db key = .ok none := by
  have hNone : (db.tables .tasks).find?
      (fun row => (row.column "idempotency_key").equals (.text key)) = none := by
    rw [List.find?_eq_none]
    intro row hRow
    rw [Value.equals_text]
    exact h row hRow
  rw [findTaskByKey, hNone]
  rfl

/-- A `begin` of an unused key dispatches its task under the next id. -/
theorem Ahead.begins (h : Ahead p s) (hEngine : p.engine = Engine.strict)
    {moments : Nat → Moment} {key kind phase role : String} (hKey : strip key ≠ "")
    (hFault : ∀ n, (moments n).fault = none)
    (hUnused : ∀ row ∈ s.db.tables .tasks, row.column "idempotency_key" ≠ .text (strip key))
    (hPlain : ∀ text ∈ [strip key, phase, role, (moments 2).now], redact p.alnum text = text) :
    ∃ task db, (TaskLedger.begin key kind phase role).alone (answerTask p) moments s.db =
        (.ok task, db) ∧ getField? "id" task = some (.str (nextId s.db "T").1) ∧
      HasTask (db.tables .tasks) (strip key) (nextId s.db "T").1 := by
  have hLater : Ahead p { s with db := (nextId s.db "T").2 } := (h.next "T").1
  have hNew : ∀ row ∈ (nextId s.db "T").2.tables .tasks,
      row.column "id" ≠ .text (nextId s.db "T").1 :=
    fun row hRow hId => h.tasks _ ⟨row, hRow, hId⟩ (due_nextId s.db "T")
  have hTexts : ∀ text ∈ [(nextId s.db "T").1, strip key, phase, role, (moments 2).now],
      redact p.alnum text = text := by
    rw [List.forall_mem_cons]
    refine ⟨?_, hPlain⟩
    obtain ⟨n, hn⟩ := Int.eq_ofNat_of_zero_le (show 0 ≤ counter s.db "T" from
      (by decide : (0 : Int) ≤ 1).trans (h.positive "T"))
    rw [nextId_eq, hn]
    exact redact_taskId p.alnum n
  have hDispatch := commitDispatch_succeeds (moments 3).now kind hEngine hLater.ready.logged
    hLater.constraints hNew hUnused hTexts
  obtain ⟨task, hTask, hName⟩ := @getTask_dispatched p (strip key) phase role (moments 2).now _ _
    (moments 3).now kind hNew
  refine ⟨task, dispatched p (moments 3).now (nextId s.db "T").2 (nextId s.db "T").1 (strip key)
    kind phase role (moments 2).now, ?_, hName, ?_⟩
  · rw [TaskLedger.begin, if_neg hKey]
    simp only [Program.alone, answerTask, Moment.guarded_ok (hFault _),
      findTaskByKey_unused hUnused]
    simp only [submit, pure, Except.pure, TaskLedger.dispatching, Program.alone, answerTask,
      Moment.guarded_ok (hFault _), hDispatch, hTask]
  · exact ⟨_, by
      rw [dispatched, tables_update]
      exact List.mem_append_right _ (List.mem_singleton_self _), rfl, rfl⟩

/-- Where no caller takes an id before its counter reaches it, every store of a history
makes up new ids, and stores rows under them. -/
theorem generates_of_inTurn (p : Platform) (history : List (Moment × Access))
    (hEngine : p.engine = Engine.strict) (hTurn : InTurn p System.empty history) :
    Generates p history := by
  have hStores := hTurn.ahead (ahead_empty p)
  have hEnd : Ahead p (performed p System.empty history) :=
    (hStores history [] (List.append_nil history).symm).1
  constructor
  · intro now payload entityId hGiven s hid hData
    obtain ⟨db, hCreate, hHas⟩ := hEnd.creates hEngine now hGiven hData
    refine ⟨db, hCreate, hHas, fun earlier later hSplit hSeen => ?_⟩
    obtain ⟨hAhead, hGrows⟩ := hStores earlier later hSplit
    exact hAhead.hypotheses hid hSeen ((due_nextId _ "H").before hGrows)
  · intro moments key kind phase role s taskId hKey hFault hUnused hPlain
    obtain ⟨task, db, hBegin, hName, hHas⟩ :=
      @Ahead.begins _ _ hEnd hEngine moments key kind phase role hKey hFault hUnused hPlain
    refine ⟨task, db, hBegin, hName, hHas, fun earlier later hSplit hSeen => ?_⟩
    obtain ⟨hAhead, hGrows⟩ := hStores earlier later hSplit
    exact hAhead.tasks taskId hSeen ((due_nextId _ "T").before hGrows)

def sampleMoment : Moment := ⟨sampleTime, none⟩

def turnHistory : List (Moment × Access) :=
  [(sampleMoment, .next "H"), (sampleMoment, .hypothesis (.create barePayload (some "H-001")))]

theorem firstId : idText "H" 1 = "H-001" := by decide

theorem bare_given : givenId samplePlatform barePayload (some "H-001") = some "H-001" := by
  simp [givenId, hasText]

theorem turnHistory_generates : Generates samplePlatform turnHistory := by
  refine generates_of_inTurn samplePlatform turnHistory rfl ⟨by simp [Access.takes], ?_, trivial⟩
  rintro start id hTakes ⟨value, hLe, hId⟩
  simp only [Access.takes, Call.creates, Option.bind_some, bare_given, Option.map_some,
    Option.some.injEq, Prod.mk.injEq] at hTakes
  obtain ⟨rfl, rfl⟩ := hTakes
  have hCounter : counter (nextId System.empty.db "H").2 "H" = 2 := by
    rw [counter_nextId, if_pos rfl]
    rfl
  change counter (nextId System.empty.db "H").2 "H" ≤ value at hLe
  have hSame := idText_eq (by decide) (by omega) (firstId.trans hId)
  omega

def takenHistory : List (Moment × Access) :=
  [(sampleMoment, .hypothesis (.create barePayload (some "H-001")))]

theorem taken_id_repeats : ¬Generates samplePlatform takenHistory := by
  intro h
  obtain ⟨hCommit, hHolds⟩ := bare_created
  have hHistory : performed samplePlatform System.empty takenHistory =
      run samplePlatform System.empty [bareCreate] := rfl
  -- a creation that is given its id does not move the counter
  have hCounters : (run samplePlatform System.empty [bareCreate]).db.idCounters =
      System.empty.db.idCounters := by
    have hCreates : bareCreate.2.creates System.empty = some (barePayload, some "H-001") := rfl
    rw [run, List.foldl_cons, List.foldl_nil, (step_creates hCreates).1,
      (createHypothesis_frame ..).counters, chooseId_eq, bare_given]
  have hCounter : (nextId (run samplePlatform System.empty [bareCreate]).db "H").1 = "H-001" := by
    simp only [nextId, hCounters]
    exact firstId
  have hCreates := h.creates sampleTime barePayload none (by decide)
  simp only [hHistory, hCounter] at hCreates
  obtain ⟨db, -, -, hUnseen⟩ := hCreates <| by
    rw [bare_newData]
    exact ⟨rfl, bare_plain, ⟨none, rfl⟩, ⟨none, rfl⟩, .inl rfl⟩
  have hSeen : (performed samplePlatform System.empty takenHistory).db.hasHypothesis "H-001" := by
    obtain ⟨row, hRow, st, hRowOf⟩ := hHolds.body
    rw [hHistory]
    exact ⟨row, hRow, hRowOf.id⟩
  exact hUnseen takenHistory [] (List.append_nil takenHistory).symm hSeen

end Generated
end L0vi0x.Core.Store
