import L0vi0x.Core.Ladder
import L0vi0x.Core.Redaction
import L0vi0x.Core.StoreSchema

/-! The operations of the store on hypotheses. A call gives its result and the
database it leaves; `now` is what the clock shows in it. -/
namespace L0vi0x.Core.Store

open L0vi0x.Python L0vi0x.Sql L0vi0x.Core.Redaction

/-- What the store runs on: the engine, the characters that count as letters or
digits outside ASCII, and the digests and secret of driver tokens. -/
structure Platform where
  engine : Engine
  alnum : Char → Bool
  host : Host
  secret : Bytes

def eventKinds : List String :=
  ["phase_started", "phase_finished", "task_dispatched", "task_finished",
    "task_blocked_on_human", "hyp_created", "hyp_transition", "hyp_reopened",
    "assumption_falsified", "experiment_run", "failure_recorded", "human_review_queued",
    "human_review_resolved", "finding_disputed", "budget_reserved", "budget_settled",
    "obligation_resolved", "replan_triggered", "scope_changed", "scope_rebaselined",
    "finding_promoted", "finding_retraction_needed", "finding_scope_conflict",
    "reopen_threshold_exceeded", "human_override", "budget_warning", "quota_switch",
    "model_unavailable", "refusal_logged", "skeptic_family_exhausted", "skeptic_unavailable",
    "skeptic_second_opinion", "driver_paused_for_human_review", "driver_resumed",
    "hyp_updated", "hyp_ladder_award", "entity_saved"]

def validateKind (kind : String) : Py String :=
  if eventKinds.contains kind then pure kind
  else raise .valueError ("unknown event kind: " ++ kind)

/-- The rows after a statement, or the error of one that is undone. -/
def executed {α : Type} (after : Option α) : Py α :=
  match after with
  | some rows => pure rows
  | none => raise .sqliteError "constraint failed"

/-- The rowid of the next event. -/
def nextEventId (events : List Event) : Int :=
  match (events.map Event.id).max? with
  | none => 1
  | some top => top + 1

/-- `entity_saved events require entity_op=insert|update`. -/
def checkOp (kind : String) (payload : Fields) : Py Unit :=
  if kind = "entity_saved" then
    match getField? "entity_op" payload with
    | some (.arr _) | some (.obj _) => raise .typeError "unhashable type"
    | op => raiseIf (op ≠ some (.str "insert") && op ≠ some (.str "update")) .valueError
        "entity_saved events require entity_op=insert|update"
  else pure ()

/-- `record_event(entity, entity_id, payload)` inside a transaction, with the id. -/
def recordEvent (p : Platform) (now : String) (db : Database) (entity entityId : String)
    (payload : Fields) : Py (Int × Database) := do
  let payload := redactFields p.alnum payload
  let kind ← validateKind ((getField? "kind" payload).getD (.str "event")).text
  checkOp kind payload
  let id := nextEventId db.events
  let event : Event := ⟨id, .text now, .text kind, .text entity, .text entityId,
    .text (Json.obj payload).dumps⟩
  let events ← executed ((Statement.insert [event]).run eventGuards () db.events)
  pure (id, { db with events := events })

def fieldOf (key : String) (data : Fields) : Json := (getField? key data).getD .null

/-- `_hypothesis_row_snapshot(payload, body)`. -/
def rowSnapshot (payload : Fields) (body : String) : Json := .obj <| dictOf
  [("id", fieldOf "id" payload), ("state", fieldOf "state" payload),
    ("lens", fieldOf "lens" payload), ("protocol_type", fieldOf "protocol_type" payload),
    ("prior_p", fieldOf "prior_p" payload), ("body", .str body)]

/-- The columns of a hypothesis row that come from a payload, with column affinity. -/
structure BoundColumns where
  lens : Value
  protocolType : Value
  priorP : Value

def bindColumns (engine : Engine) (data : Fields) : Py BoundColumns := do
  let lens ← bind (fieldOf "lens" data)
  let protocolType ← bind (fieldOf "protocol_type" data)
  let priorP ← bind (fieldOf "prior_p" data)
  pure ⟨engine.textAffinity lens, engine.textAffinity protocolType, engine.realAffinity priorP⟩

/-- `submit(txn)`: a transaction that raises leaves the database. -/
def submit {α : Type} (db : Database) (txn : Py (α × Database)) : Py α × Database :=
  match txn with
  | .ok (a, after) => (.ok a, after)
  | .error e => (.error e, db)

/-- `f"{prefix}-{value:03d}"` of a counter that is not negative. -/
def idText (start : String) (value : Int) : String :=
  let digits := intText value
  start ++ "-" ++ String.ofList (List.replicate (3 - digits.length) '0' ++ digits)

/-- `next_id(prefix)` for a prefix that is in upper case. -/
def nextId (db : Database) (start : String) : String × Database :=
  let value := (db.idCounters.lookup start).getD 1
  (idText start value,
    { db with idCounters := (start, value + 1) :: db.idCounters.filter (·.1 ≠ start) })

/-- The id of a new hypothesis: the caller's, the payload's or the next one. -/
def chooseId (db : Database) (data : Fields) (entityId : Option String) : String × Database :=
  if hasText entityId then (entityId.getD "", db)
  else if (fieldOf "id" data).truthy then ((fieldOf "id" data).text, db)
  else nextId db "H"

/-- The data of a new hypothesis: redacted, with its id and a state. -/
def newData (p : Platform) (payload : Fields) (hid : String) : Fields :=
  let data := setField "id" (.str hid) (redactFields p.alnum payload)
  match getField? "state" data with
  | some _ => data
  | none => setField "state" (.str HState.open.text) data

def createdPayload (data : Fields) : Fields := dictOf
  [("kind", .str "hyp_created"), ("entity_op", .str "insert"), ("state", .str "OPEN"),
    ("snapshot", .obj data), ("row_snapshot", rowSnapshot data (Json.obj data).dumps)]

/-- The transaction of `create_hypothesis`. -/
def insertHypothesis (p : Platform) (now : String) (db : Database) (hid : String)
    (data : Fields) : Py (Fields × Database) := do
  let (event, db) ← recordEvent p now db "hypothesis" hid (createdPayload data)
  let bound ← bindColumns p.engine data
  let row : HypothesisRow := ⟨.text hid, .text HState.open.text, bound.lens, bound.protocolType,
    bound.priorP, .text (Json.obj data).dumps, .int event⟩
  let rows ← executed
    ((Statement.insert [row]).run (hypothesisGuards p.engine) db.events db.hypotheses)
  pure (data, { db with hypotheses := rows })

def createHypothesis (p : Platform) (now : String) (db : Database) (payload : NormalFields)
    (entityId : Option String) : Py Fields × Database :=
  let (hid, db) := chooseId db (redactFields p.alnum payload) entityId
  let data := newData p payload hid
  if fieldOf "state" data ≠ .str HState.open.text then
    (raise .valueError "new hypotheses must start in OPEN", db)
  else submit db (insertHypothesis p now db hid data)

/-- `SELECT ... FROM hypotheses WHERE id=?`, by position. -/
def findHypothesis (db : Database) (hid : String) : Option Nat :=
  db.hypotheses.findIdx? fun row => row.id.equals (.text hid)

/-- `UPDATE hypotheses SET ... WHERE id=?`. -/
def updateHypothesis (engine : Engine) (db : Database) (hid : String)
    (assign : HypothesisRow → HypothesisRow) : Py Database :=
  match findHypothesis db hid with
  | none => pure db
  | some i =>
      let changes := (db.hypotheses[i]?.map fun row => (i, assign row)).toList
      do
        let rows ← executed
          ((Statement.update changes).run (hypothesisGuards engine) db.events db.hypotheses)
        pure { db with hypotheses := rows }

/-- What `save` does after it has read the row of a hypothesis. -/
inductive SavePlan
  | create (payload : NormalFields)
  | unchanged (value : Json)
  | update (cause : String) (evidence : List Json) (data : Fields)

/-- `{**json.loads(body), **payload, "id": ..., "state": ...}`, redacted. -/
def mergedData (p : Platform) (body : Json) (payload : Fields) (hid state : String) :
    Py Fields :=
  match body with
  | .obj fields => pure (redactFields p.alnum (setField "state" (.str state)
      (setField "id" (.str hid) (updateFields fields payload))))
  | j => raise .typeError ("'" ++ j.typeName ++ "' object is not a mapping")

/-- The update of a payload that says something, with its cause and evidence. -/
def planMerge (p : Platform) (row : HypothesisRow) (hid : String) (payload : Fields) :
    Py SavePlan :=
  match getField? "cause" payload, getField? "evidence" payload with
  | some cause, some evidence => do
      let evidence ← evidence.iter
      let body ← Json.loads row.body.toJson.text
      let rest := eraseField "evidence" (eraseField "cause" payload)
      let data ← mergedData p body rest hid row.state.toJson.text
      pure (.update cause.text evidence data)
  | _, _ => raise .valueError
      "existing hypothesis updates require cause and evidence so the change is event-backed"

/-- `save("hypothesis", id, payload)` on the row that it read. -/
def planUpdate (p : Platform) (row : HypothesisRow) (hid : String) (payload : NormalFields) :
    Py SavePlan := do
  let state := row.state.toJson
  raiseIf (!((getField? "state" payload.val).getD state).pyEq state) .valueError
    "hypothesis state changes must use Store.transition_hypothesis"
  if payload.val = [] then SavePlan.unchanged <$> Json.loads row.body.toJson.text
  else planMerge p row hid payload.val

/-- The first half of `save("hypothesis", id, payload)`, up to its transaction. -/
def savePlan (p : Platform) (db : Database) (hid : String) (payload : NormalFields) :
    Py SavePlan :=
  match (findHypothesis db hid).bind (db.hypotheses[·]?) with
  | none => pure (.create payload)
  | some row => planUpdate p row hid payload

def updatedPayload (cause : String) (evidence : List Json) (data : Fields) : Fields := dictOf
  [("kind", .str "hyp_updated"), ("entity_op", .str "update"), ("cause", .str cause),
    ("evidence", .arr evidence), ("snapshot", .obj data),
    ("row_snapshot", rowSnapshot data (Json.obj data).dumps)]

def commitSave (p : Platform) (now : String) (db : Database) (hid cause : String)
    (evidence : List Json) (data : Fields) : Py (Json × Database) := do
  let (event, db) ← recordEvent p now db "hypothesis" hid (updatedPayload cause evidence data)
  let bound ← bindColumns p.engine data
  let db ← updateHypothesis p.engine db hid fun row =>
    { row with
      lens := bound.lens, protocolType := bound.protocolType, priorP := bound.priorP,
      body := .text (Json.obj data).dumps, lastEventId := .int event }
  pure (.obj data, db)

/-- The second half of `save("hypothesis", id, payload)`. -/
def runPlan (p : Platform) (now : String) (db : Database) (hid : String) :
    SavePlan → Py Json × Database
  | .create payload =>
      let (result, db) := createHypothesis p now db payload (some hid)
      (Json.obj <$> result, db)
  | .unchanged value => (.ok value, db)
  | .update cause evidence data => submit db (commitSave p now db hid cause evidence data)

/-- The hypothesis after a transition, as its dump shows it. -/
def moved (h : HypothesisRecord) (newState : HState) (now : String) : HypothesisRecord :=
  { h with
    state := newState, updatedAt := now
    reopenCount := if Lifecycle.isReopen h.state newState then h.reopenCount + 1
      else h.reopenCount }

/-- The text of the body column for a dump. -/
def bodyText (p : Platform) (payload : Fields) : String :=
  (Json.obj (redactFields p.alnum payload)).dumps

def transitionPayload (p : Platform) (src dst : HState) (cause : String) (evidence : List String)
    (payload : Fields) : Fields := dictOf
  [("kind", .str "hyp_transition"), ("entity_op", .str "update"), ("from", .str src.text),
    ("to", .str dst.text), ("cause", .str cause), ("evidence", textItems evidence),
    ("snapshot", .obj payload), ("row_snapshot", rowSnapshot payload (bodyText p payload))]

def thresholdPayload : Fields := dictOf
  [("kind", .str "reopen_threshold_exceeded"), ("reopen_count", .int 3)]

/-- The state column of a hypothesis, as the transactions read it. -/
def storedRow (db : Database) (hid : String) : Py HypothesisRow :=
  match (findHypothesis db hid).bind (db.hypotheses[·]?) with
  | none => raise .keyError (String.ofList (Json.reprText hid))
  | some row => pure row

/-- The event after a third reopening. -/
def recordThreshold (p : Platform) (now : String) (db : Database) (h : HypothesisRecord)
    (newState : HState) : Py Database :=
  if Lifecycle.isReopen h.state newState && h.reopenCount + 1 = 3 then do
    let (_, db) ← recordEvent p now db "hypothesis" h.id thresholdPayload
    pure db
  else pure db

/-- The transaction of `transition_hypothesis`. -/
def commitTransition (p : Platform) (now : String) (db : Database) (h : HypothesisRecord)
    (newState : HState) (cause : String) (evidence : List String) :
    Py (HypothesisRecord × Database) := do
  let payload := (moved h newState now).dump
  let row ← storedRow db h.id
  raiseIf (row.state ≠ .text h.state.text) .runtimeError
    "stale hypothesis state; reload before transition"
  let (event, db) ← recordEvent p now db "hypothesis" h.id
    (transitionPayload p h.state newState cause evidence payload)
  let bound ← bindColumns p.engine payload
  let db ← updateHypothesis p.engine db h.id fun row =>
    { row with
      state := .text newState.text, lens := bound.lens, protocolType := bound.protocolType,
      priorP := bound.priorP, body := .text (bodyText p payload), lastEventId := .int event }
  let db ← recordThreshold p now db h newState
  pure (moved h newState now, db)

def transitionHypothesis (p : Platform) (now : String) (db : Database)
    (token : Option DriverToken) (h : HypothesisRecord) (newState : HState) (cause : String)
    (evidence : List String) : Py HypothesisRecord × Database :=
  match Lifecycle.validateTransition p.host p.secret token h newState cause evidence with
  | .error e => (.error e, db)
  | .ok () => submit db (commitTransition p now db h newState cause evidence)

def awardPayload (p : Platform) (proof : LadderProof) (payload : Fields) : Fields := dictOf
  [("kind", .str "hyp_ladder_award"), ("entity_op", .str "update"), ("axis", .str proof.axis),
    ("level", proof.level.json), ("evidence", textItems proof.evidence),
    ("snapshot", .obj payload), ("row_snapshot", rowSnapshot payload (bodyText p payload))]

/-- The transaction of `award_ladder`; `candidate` is the copy that got the award. -/
def commitAward (p : Platform) (now : String) (db : Database) (candidate : HypothesisRecord)
    (proof : LadderProof) : Py (HypothesisRecord × Database) := do
  let payload := candidate.dump
  let row ← storedRow db candidate.id
  let current ← Json.loads row.body.toJson.text
  let state ← current.attrGet "state" .null
  raiseIf (!state.pyEq (.str candidate.state.text)) .runtimeError
    "stale hypothesis state; reload before ladder award"
  let (event, db) ← recordEvent p now db "hypothesis" candidate.id (awardPayload p proof payload)
  let db ← updateHypothesis p.engine db candidate.id fun row =>
    { row with body := .text (bodyText p payload), lastEventId := .int event }
  pure (candidate, db)

def awardLadder (p : Platform) (now : String) (db : Database) (token : Option DriverToken)
    (h : HypothesisRecord) (proof : LadderProof) : Py HypothesisRecord × Database :=
  match Ladder.award p.host p.secret token (some h) proof.axis proof.level (some proof) with
  | .error e => (.error e, db)
  | .ok (true, some candidate) => submit db (commitAward p now db candidate proof)
  | .ok _ => (raise .valueError "invalid ladder proof", db)

/-- The events of a hypothesis, by id. -/
def eventsOf (db : Database) (hid : String) : List Event :=
  (db.events.filter fun e => e.entity.equals (.text "hypothesis") &&
    e.entityId.equals (.text hid)).mergeSort fun a b => a.id ≤ b.id

/-- One event of the fold: its snapshot, unless it has none. -/
def foldSnapshot (snapshot : Json) (e : Event) : Py Json := do
  let payload ← Json.loads e.payload.toJson.text
  let next ← payload.attrGet "snapshot" .null
  pure (if next = .null then snapshot else next)

/-- `rebuild_hypothesis_from_events(id)`. -/
def rebuildHypothesis (db : Database) (hid : String) : Py Json := do
  let snapshot ← (eventsOf db hid).foldlM foldSnapshot .null
  if snapshot = .null then raise .keyError (String.ofList (Json.reprText hid))
  else pure snapshot

def HypothesisRow.fields (row : HypothesisRow) : Fields := dictOf
  [("id", row.id.toJson), ("state", row.state.toJson), ("lens", row.lens.toJson),
    ("protocol_type", row.protocolType.toJson), ("prior_p", row.priorP.toJson),
    ("body", row.body.toJson), ("last_event_id", row.lastEventId.toJson)]

/-- `body.update(...)` with the columns of the row. -/
def mergeColumns (row : HypothesisRow) : Json → Py Json
  | .obj fields => pure <| .obj <| updateFields fields
      [("state", row.state.toJson), ("lens", row.lens.toJson),
        ("protocol_type", row.protocolType.toJson), ("prior_p", row.priorP.toJson)]
  | j => raise .attributeError ("'" ++ j.typeName ++ "' object has no attribute 'update'")

/-- `get("hypothesis", id)`: the body with the columns merged back. -/
def getHypothesis (db : Database) (hid : String) : Py Json := do
  let row ← storedRow db hid
  if !row.body.toJson.truthy then pure (.obj row.fields)
  else
    let body ← Json.loads row.body.toJson.text
    mergeColumns row body

/-- `verify_hypothesis_rebuild(id)`. -/
def verifyRebuild (db : Database) (hid : String) : Py Bool := do
  let rebuilt ← rebuildHypothesis db hid
  let stored ← getHypothesis db hid
  pure (rebuilt.pyEq stored)

end L0vi0x.Core.Store
