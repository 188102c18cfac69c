import L0vi0x.Core.LadderClosure
import L0vi0x.Core.StoreSpec

/-! Runs of calls on the store. A save is two steps: it reads the row, and its
transaction runs later; other calls may come between them. -/
namespace L0vi0x.Core.Store

open L0vi0x.Python L0vi0x.Sql L0vi0x.Core.Redaction

/-- A save that has read its row. -/
structure PendingSave where
  hid : String
  payload : NormalFields
  plan : SavePlan

/-- The store and the saves under way. -/
structure System where
  db : Database
  pending : List PendingSave

def System.empty : System := ⟨Database.empty, []⟩

inductive Call
  | create (payload : NormalFields) (entityId : Option String)
  | saveRead (hid : String) (payload : NormalFields)
  /-- The transaction of the save at a position among those under way. -/
  | saveCommit (i : Nat)
  | transition (token : Option DriverToken) (h : HypothesisRecord) (newState : HState)
      (cause : String) (evidence : List String)
  | award (token : Option DriverToken) (h : HypothesisRecord) (proof : LadderProof)
  /-- An event of another entity, as every other method of the store records one. -/
  | record (entity : { s : String // s ≠ "hypothesis" }) (entityId : String)
      (payload : NormalFields)

/-- One call; `now` is what the clock shows. A call that raises changes no row. -/
def step (p : Platform) (now : String) (s : System) : Call → System
  | .create payload entityId => { s with db := (createHypothesis p now s.db payload entityId).2 }
  | .saveRead hid payload => match savePlan p s.db hid payload with
      | .ok plan => { s with pending := s.pending ++ [⟨hid, payload, plan⟩] }
      | .error _ => s
  | .saveCommit i => match s.pending[i]? with
      | some save => ⟨(runPlan p now s.db save.hid save.plan).2, s.pending.eraseIdx i⟩
      | none => s
  | .transition token h newState cause evidence =>
      { s with db := (transitionHypothesis p now s.db token h newState cause evidence).2 }
  | .award token h proof => { s with db := (awardLadder p now s.db token h proof).2 }
  | .record entity entityId payload =>
      match recordEvent p now s.db entity entityId payload with
      | .ok (_, db) => { s with db := db }
      | .error _ => s

/-- The calls of a run with the times of the clock. -/
def run (p : Platform) (s : System) (calls : List (String × Call)) : System :=
  calls.foldl (fun s call => step p call.1 s call.2) s

@[simp] theorem run_nil (p : Platform) (s : System) : run p s [] = s := rfl

/-- A run goes on from where its first calls have led. -/
theorem run_append (p : Platform) (s : System) (calls more : List (String × Call)) :
    run p s (calls ++ more) = run p (run p s calls) more := List.foldl_append

/-- What a call that succeeds writes to a hypothesis. -/
inductive Commit
  | created (hid : String) (data : Fields)
  | saved (save : PendingSave) (cause : String) (evidence : List Json) (data : Fields)
  | moved (token : Option DriverToken) (h : HypothesisRecord) (newState : HState)
      (cause : String) (evidence : List String)
  | awarded (token : Option DriverToken) (h candidate : HypothesisRecord) (proof : LadderProof)

namespace Commit

def hid : Commit → String
  | .created hid _ => hid
  | .saved save _ _ _ => save.hid
  | .moved _ h _ _ _ => h.id
  | .awarded _ _ candidate _ => candidate.id

def kind : Commit → String
  | .created .. => "hyp_created"
  | .saved .. => "hyp_updated"
  | .moved .. => "hyp_transition"
  | .awarded .. => "hyp_ladder_award"

def source (now : String) : Commit → Fields
  | .created _ data | .saved _ _ _ data => data
  | .moved _ h newState _ _ => (Store.moved h newState now).dump
  | .awarded _ _ candidate _ => candidate.dump

def body (p : Platform) (now : String) : Commit → Fields
  | .created _ data | .saved _ _ _ data => data
  | .moved _ h newState _ _ => redactFields p.alnum (Store.moved h newState now).dump
  | .awarded _ _ candidate _ => redactFields p.alnum candidate.dump

def payload (p : Platform) (now : String) : Commit → Fields
  | .created _ data => createdPayload data
  | .saved _ cause evidence data => updatedPayload cause evidence data
  | .moved _ h newState cause evidence =>
      transitionPayload p h.state newState cause evidence (Store.moved h newState now).dump
  | .awarded _ _ candidate proof => awardPayload p proof candidate.dump

def event (p : Platform) (now : String) (db : Database) (c : Commit) : Event :=
  newEvent p now db c.hid c.kind (c.payload p now)

/-- The event that follows the one of a third reopening. -/
def alarm (p : Platform) (now : String) (db : Database) : Commit → List Event
  | .moved token h newState cause evidence =>
      let e := Commit.event p now db (.moved token h newState cause evidence)
      thresholdEvents p now (db.logged e) h newState
  | _ => []

end Commit

def createdBy (p : Platform) (now : String) (db : Database) (payload : NormalFields)
    (entityId : Option String) : Option Commit :=
  match createHypothesis p now db payload entityId with
  | (.ok data, _) => some (.created (chooseId db (redactFields p.alnum payload) entityId).1 data)
  | (.error _, _) => none

def savedBy (p : Platform) (now : String) (db : Database) (save : PendingSave) : Option Commit :=
  match save.plan with
  | .create payload => createdBy p now db payload (some save.hid)
  | .unchanged _ => none
  | .update cause evidence data =>
      match submit db (commitSave p now db save.hid cause evidence data) with
      | (.ok _, _) => some (.saved save cause evidence data)
      | (.error _, _) => none

/-- What a call commits, if it succeeds and writes to a hypothesis. -/
def commit? (p : Platform) (now : String) (s : System) : Call → Option Commit
  | .create payload entityId => createdBy p now s.db payload entityId
  | .saveCommit i => s.pending[i]?.bind (savedBy p now s.db)
  | .transition token h newState cause evidence =>
      match transitionHypothesis p now s.db token h newState cause evidence with
      | (.ok _, _) => some (.moved token h newState cause evidence)
      | (.error _, _) => none
  | .award token h proof => match awardLadder p now s.db token h proof with
      | (.ok candidate, _) => some (.awarded token h candidate proof)
      | (.error _, _) => none
  | .saveRead .. | .record .. => none

section Payloads

variable {p : Platform} {now : String}

/-- The payload of an event holds the snapshot of its commit. -/
theorem Commit.snapshot_payload (c : Commit) :
    getField? "snapshot" (c.payload p now) = some (.obj (c.source now)) := by
  cases c <;> simp [Commit.payload, Commit.source, createdPayload, updatedPayload,
    transitionPayload, awardPayload, getField?_dictOf, lookupLast]

/-- Beside it stand the columns of the row, with the body as text. -/
theorem Commit.rowSnapshot_payload (c : Commit) : getField? "row_snapshot" (c.payload p now) =
    some (rowSnapshot (c.source now) (Json.obj (c.body p now)).dumps) := by
  cases c <;> simp [Commit.payload, Commit.source, Commit.body, createdPayload, updatedPayload,
    transitionPayload, awardPayload, bodyText, getField?_dictOf, lookupLast]

/-- A field of a normal object, or the null that stands for a missing one, is normal. -/
theorem fieldOf_normal {data : Fields} (h : (Json.obj data).Normal) (key : String) :
    (fieldOf key data).Normal := by
  unfold fieldOf
  cases hField : getField? key data with
  | none => trivial
  | some v => exact Json.normalFields_iff.mp h.2 (key, v) (mem_of_getField? hField)

/-- So are the columns that are made of one. -/
theorem rowSnapshot_normal {data : Fields} (h : (Json.obj data).Normal) (body : String) :
    (rowSnapshot data body).Normal := by
  rw [rowSnapshot]
  apply normal_dictOf
  simp only [List.forall_mem_cons]
  exact ⟨fieldOf_normal h "id", fieldOf_normal h "state", fieldOf_normal h "lens",
    fieldOf_normal h "protocol_type", fieldOf_normal h "prior_p", trivial, by simp⟩

/-- The data that a commit is given is normal. -/
def Commit.Sound : Commit → Prop
  | .created _ data => (Json.obj data).Normal
  | .saved _ _ evidence data => (Json.obj data).Normal ∧ ∀ j ∈ evidence, j.Normal
  | .moved .. | .awarded .. => True

/-- The snapshot of a sound commit is normal. -/
theorem Commit.source_normal {c : Commit} (h : c.Sound) : (Json.obj (c.source now)).Normal := by
  cases c with
  | created hid data => exact h
  | saved save cause evidence data => exact h.1
  | moved token h newState cause evidence => exact HypothesisRecord.dump_normal _
  | awarded token h candidate proof => exact HypothesisRecord.dump_normal _

theorem Commit.body_normal {c : Commit} (h : c.Sound) : (Json.obj (c.body p now)).Normal := by
  cases c with
  | created hid data => exact h
  | saved save cause evidence data => exact h.1
  | moved token h newState cause evidence =>
      exact redactFields_normal (HypothesisRecord.dump_normal _)
  | awarded token h candidate proof =>
      exact redactFields_normal (HypothesisRecord.dump_normal _)

theorem Commit.payload_normal {c : Commit} (h : c.Sound) :
    (Json.obj (c.payload p now)).Normal := by
  have hSource : (Json.obj (c.source now)).Normal := Commit.source_normal h
  have hRow := rowSnapshot_normal hSource (Json.obj (c.body p now)).dumps
  have hText : ∀ s, (Json.str s).Normal := fun _ => trivial
  cases c with
  | created hid data =>
      rw [Commit.payload, createdPayload]
      apply normal_dictOf
      simp only [List.forall_mem_cons, hText, true_and]
      exact ⟨hSource, hRow, by simp⟩
  | saved save cause evidence data =>
      rw [Commit.payload, updatedPayload]
      apply normal_dictOf
      simp only [List.forall_mem_cons, hText, true_and]
      exact ⟨Json.normalItems_iff.mpr h.2, hSource, hRow, by simp⟩
  | moved token h newState cause evidence =>
      rw [Commit.payload, transitionPayload]
      apply normal_dictOf
      simp only [List.forall_mem_cons, hText, textItems_normal, true_and]
      exact ⟨hSource, hRow, by simp⟩
  | awarded token h candidate proof =>
      have hLevel : proof.level.json.Normal := by cases proof.level <;> trivial
      rw [Commit.payload, awardPayload]
      apply normal_dictOf
      simp only [List.forall_mem_cons, hText, hLevel, textItems_normal, true_and]
      exact ⟨hSource, hRow, by simp⟩

def snapshotField (data : Fields) (body key : String) : Json :=
  if key = "body" then .str body else fieldOf key data

/-- What a trigger finds of a column in the redacted payload of an event. -/
theorem walk_rowSnapshot {c : Commit} {key : String}
    (hKey : key ∈ ["id", "state", "lens", "protocol_type", "prior_p", "body"]) :
    walk ["row_snapshot", key] (.obj (redactFields p.alnum (c.payload p now))) =
      some (redactPayload p.alnum
        (snapshotField (c.source now) (Json.obj (c.body p now)).dumps key)) := by
  simp only [walk, Json.get?, getField?_redactFields, c.rowSnapshot_payload, Option.map_some,
    Option.bind_some, rowSnapshot, redactPayload, getField?_dictOf]
  simp only [List.mem_cons, List.not_mem_nil, or_false] at hKey
  rcases hKey with rfl | rfl | rfl | rfl | rfl | rfl <;>
    simp [lookupLast, snapshotField]

end Payloads
end L0vi0x.Core.Store
