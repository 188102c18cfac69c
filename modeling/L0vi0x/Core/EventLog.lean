import L0vi0x.Core.StoreSchema

/-! The event log under every form of write that the connection accepts: inserts
with a conflict clause, upserts, updates and deletes, in transactions of
`Store.submit`. -/
namespace L0vi0x.Core.Store

open L0vi0x.Python L0vi0x.Sql

/-- The pragmas that `Store.__init__` sets on the writer. -/
def writerPragmas : List (String × String) :=
  [("journal_mode", "WAL"), ("foreign_keys", "ON"), ("busy_timeout", "5000"),
    ("synchronous", "NORMAL")]

/-- Rows that conflict resolution deletes fire triggers only under this pragma. -/
def recursiveTriggers : Bool := writerPragmas.lookup "recursive_triggers" = some "ON"

/-- `INSERT OR ...`; without a clause it is `abort`. -/
inductive Conflict
  | abort | fail | rollback | ignore | replace
  deriving DecidableEq, Repr

/-- A statement on `events` by the rows that it writes. -/
inductive LogStatement
  | insert (conflict : Conflict) (rows : List Event)
  /-- `ON CONFLICT DO ...`; the flag says whether the row is updated on a conflict. -/
  | upsert (rows : List (Event × Bool))
  | update (changes : List (Nat × Event))
  | delete (positions : List Nat)

/-- How far a statement came: it is done, it failed and left rows, or it rolled the
transaction back. -/
inductive Outcome
  | done (rows : List Event)
  | failed (rows : List Event)
  | rolledBack

def isStored (rows : List Event) (id : Int) : Bool := rows.any fun e => e.id = id

def notNull (e : Event) : Bool :=
  e.ts ≠ .null && e.kind ≠ .null && e.entity ≠ .null && e.entityId ≠ .null && e.payload ≠ .null

/-- The rows of an `INSERT`, one after the other; `start` is what an abort restores. -/
def insertEvents (conflict : Conflict) (start : List Event) :
    List Event → List Event → Outcome
  | rows, [] => .done rows
  | rows, e :: rest =>
      if notNull e && !isStored rows e.id then insertEvents conflict start (rows ++ [e]) rest
      else match conflict with
        | .abort => .failed start
        | .fail => .failed rows
        | .rollback => .rolledBack
        | .ignore => insertEvents conflict start rows rest
        | .replace =>
            -- a missing value has no default to take its place
            if !notNull e then .failed start
            -- the old row goes with its delete triggers, where these fire at all
            else if recursiveTriggers then .failed start
            else insertEvents conflict start ((rows.filter fun old => old.id ≠ e.id) ++ [e]) rest

/-- The rows of an upsert; an update fires `events_append_only_update`. -/
def upsertEvents (start : List Event) : List Event → List (Event × Bool) → Outcome
  | rows, [] => .done rows
  | rows, (e, updates) :: rest =>
      if !notNull e then .failed start
      else if !isStored rows e.id then upsertEvents start (rows ++ [e]) rest
      else if updates then .failed start
      else upsertEvents start rows rest

/-- A statement on the rows it finds. Both append-only triggers abort. -/
def LogStatement.run (rows : List Event) : LogStatement → Outcome
  | .insert conflict new => insertEvents conflict rows rows new
  | .upsert new => upsertEvents rows rows new
  | .update changes =>
      if changes.any fun change => rows[change.1]?.isSome then .failed rows else .done rows
  | .delete positions =>
      if positions.any fun i => rows[i]?.isSome then .failed rows else .done rows

/-- A call of `submit`: the statements of its transaction, whether the callback
catches the error of each, and whether it raises at its end. -/
structure Submission where
  statements : List (LogStatement × Bool)
  raises : Bool

/-- The rows that the statements leave; `none` is an error that the callback lets out. -/
def runStatements (committed : List Event) :
    List Event → List (LogStatement × Bool) → Option (List Event)
  | rows, [] => some rows
  | rows, (statement, caught) :: rest => match statement.run rows with
      | .done rows => runStatements committed rows rest
      | .failed rows => if caught then runStatements committed rows rest else none
      | .rolledBack => if caught then runStatements committed committed rest else none

/-- `submit(txn)`: the committed rows afterwards. -/
def Submission.run (committed : List Event) (submission : Submission) : List Event :=
  match runStatements committed committed submission.statements with
  | some rows => if submission.raises then committed else rows
  | none => committed

def runSubmissions (committed : List Event) (submissions : List Submission) : List Event :=
  submissions.foldl Submission.run committed

/-- No `INSERT OR REPLACE` of a transaction gives the id of a committed event. -/
def Submission.ReplacesNothing (committed : List Event) (submission : Submission) : Prop :=
  ∀ new caught, (LogStatement.insert .replace new, caught) ∈ submission.statements →
    ∀ e ∈ new, isStored committed e.id = false

/-- Every transaction of a run leaves the committed ids to their rows. -/
def ReplacesNothing : List Event → List Submission → Prop
  | _, [] => True
  | committed, submission :: rest =>
      submission.ReplacesNothing committed ∧ ReplacesNothing (submission.run committed) rest

section Keeps

variable {committed start rows : List Event}

/-- The rows that an outcome leaves contain the committed ones. -/
def Outcome.Keeps (committed : List Event) : Outcome → Prop
  | .done rows | .failed rows => ∀ e ∈ committed, e ∈ rows
  | .rolledBack => True

theorem not_stored {id : Int} (h : isStored committed id = false) :
    ∀ e ∈ committed, e.id ≠ id := by
  simpa [isStored] using h

theorem insertEvents_keeps {conflict : Conflict} {new : List Event}
    (hStart : ∀ e ∈ committed, e ∈ start) (hRows : ∀ e ∈ committed, e ∈ rows)
    (hReplace : conflict = .replace → ∀ e ∈ new, isStored committed e.id = false) :
    (insertEvents conflict start rows new).Keeps committed := by
  induction new generalizing rows with
  | nil => exact hRows
  | cons e rest ih =>
      have hRest : conflict = .replace → ∀ e ∈ rest, isStored committed e.id = false :=
        fun hIs other hOther => hReplace hIs other (List.mem_cons_of_mem _ hOther)
      unfold insertEvents
      split
      · exact ih (fun old hOld => List.mem_append_left _ (hRows old hOld)) hRest
      · cases conflict with
        | abort => exact hStart
        | fail => exact hRows
        | rollback => trivial
        | ignore => exact ih hRows hRest
        | replace =>
            have hFree := not_stored (hReplace rfl e (List.mem_cons_self ..))
            simp only
            split
            · exact hStart
            · split
              · exact hStart
              · refine ih (fun old hOld => List.mem_append_left _ ?_) hRest
                rw [List.mem_filter]
                exact ⟨hRows old hOld, by simpa using hFree old hOld⟩

/-- An upsert keeps the committed events, since the trigger aborts an update. -/
theorem upsertEvents_keeps {new : List (Event × Bool)} (hStart : ∀ e ∈ committed, e ∈ start)
    (hRows : ∀ e ∈ committed, e ∈ rows) : (upsertEvents start rows new).Keeps committed := by
  induction new generalizing rows with
  | nil => exact hRows
  | cons p rest ih =>
      obtain ⟨e, updates⟩ := p
      rw [upsertEvents]
      split
      · exact hStart
      · split
        · exact ih fun old hOld => List.mem_append_left _ (hRows old hOld)
        · split
          · exact hStart
          · exact ih hRows

/-- A statement keeps the committed events, where it replaces none. -/
theorem statement_keeps {statement : LogStatement} (hRows : ∀ e ∈ committed, e ∈ rows)
    (hReplace : ∀ new, statement = .insert .replace new →
      ∀ e ∈ new, isStored committed e.id = false) :
    (statement.run rows).Keeps committed := by
  cases statement with
  | insert conflict new =>
      refine insertEvents_keeps hRows hRows ?_
      rintro rfl
      exact hReplace new rfl
  | upsert new => exact upsertEvents_keeps hRows hRows
  | update changes =>
      rw [LogStatement.run]
      split <;> exact hRows
  | delete positions =>
      rw [LogStatement.run]
      split <;> exact hRows

/-- Inside a transaction the committed rows stay in sight. -/
theorem runStatements_keeps {statements : List (LogStatement × Bool)} {after : List Event}
    (hRows : ∀ e ∈ committed, e ∈ rows)
    (hReplace : ∀ new caught, (LogStatement.insert .replace new, caught) ∈ statements →
      ∀ e ∈ new, isStored committed e.id = false)
    (h : runStatements committed rows statements = some after) : ∀ e ∈ committed, e ∈ after := by
  induction statements generalizing rows with
  | nil =>
      cases h
      exact hRows
  | cons p rest ih =>
      obtain ⟨statement, caught⟩ := p
      have hKeeps : (statement.run rows).Keeps committed := statement_keeps hRows fun new hIs =>
        hReplace new caught (hIs ▸ List.mem_cons_self ..)
      have hRest : ∀ new caught, (LogStatement.insert .replace new, caught) ∈ rest →
          ∀ e ∈ new, isStored committed e.id = false :=
        fun new caught hMem => hReplace new caught (List.mem_cons_of_mem _ hMem)
      rw [runStatements] at h
      cases hRun : statement.run rows with
      | done kept =>
          rw [hRun] at h hKeeps
          exact ih hKeeps hRest h
      | failed kept =>
          simp only [hRun] at h hKeeps
          split at h
          · exact ih hKeeps hRest h
          · cases h
      | rolledBack =>
          simp only [hRun] at h
          split at h
          · exact ih (fun e he => he) hRest h
          · cases h

/-- A submission that replaces nothing keeps the committed events. -/
theorem Submission.keeps {submission : Submission}
    (h : submission.ReplacesNothing committed) : ∀ e ∈ committed, e ∈ submission.run committed := by
  intro e he
  rw [Submission.run]
  split
  · rename_i rows hRows
    split
    · exact he
    · exact runStatements_keeps (fun _ h => h) h hRows e he
  · exact he

/-- A committed event stays as it is through every run of transactions in which no
`INSERT OR REPLACE` names a committed id. -/
theorem committed_events_stay (committed : List Event) (submissions : List Submission)
    (h : ReplacesNothing committed submissions) :
    ∀ e ∈ committed, e ∈ runSubmissions committed submissions := by
  induction submissions generalizing committed with
  | nil => exact fun _ he => he
  | cons submission rest ih =>
      intro e he
      exact ih (submission.run committed) h.2 e (submission.keeps h.1 e he)

end Keeps

section Replaced

/-- An event, and another one under the same id. -/
def loggedEvent (kind : String) : Event :=
  ⟨1, .text "2026-01-01T00:00:00Z", .text kind, .text "hypothesis", .text "H-001",
    .text "\x7b\x7d"⟩

def secondEvent : Submission :=
  ⟨[(.insert .replace [{ loggedEvent "hyp_updated" with id := 2 }], false)], false⟩

theorem secondEvent_replaces_nothing :
    ReplacesNothing [loggedEvent "hyp_created"] [secondEvent] := by
  refine ⟨?_, trivial⟩
  intro new caught hMem e he
  rw [secondEvent, List.mem_singleton, Prod.mk.injEq, LogStatement.insert.injEq] at hMem
  obtain ⟨⟨-, rfl⟩, -⟩ := hMem
  rw [List.mem_singleton.mp he]
  decide

/-- A second event under a new id leaves the first. -/
theorem second_event_keeps_first : loggedEvent "hyp_created" ∈
    runSubmissions [loggedEvent "hyp_created"] [secondEvent] :=
  committed_events_stay _ _ secondEvent_replaces_nothing _ (List.mem_singleton_self _)

/-- `INSERT OR REPLACE` with a committed id takes the old event out of the log. -/
theorem replaced_event_goes : ¬ ∀ (committed : List Event) (submissions : List Submission),
    ∀ e ∈ committed, e ∈ runSubmissions committed submissions := by
  intro h
  have hMem := h [loggedEvent "hyp_created"]
    [⟨[(.insert .replace [loggedEvent "hyp_updated"], false)], false⟩] _
    (List.mem_singleton_self _)
  have hRun : runSubmissions [loggedEvent "hyp_created"]
      [⟨[(.insert .replace [loggedEvent "hyp_updated"], false)], false⟩] =
        [loggedEvent "hyp_updated"] := by decide
  rw [hRun, List.mem_singleton] at hMem
  exact absurd (congrArg Event.kind hMem) (by decide)

end Replaced
end L0vi0x.Core.Store
