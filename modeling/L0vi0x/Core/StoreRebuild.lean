import Mathlib.Data.List.TakeWhile
import L0vi0x.Core.StoreHistory
import L0vi0x.Core.StoreUpdates

/-! The snapshots of a hypothesis, folded over its events, against what `get`
returns: the stored body with three columns merged back. -/
namespace L0vi0x.Core.Store

open L0vi0x.Python L0vi0x.Sql L0vi0x.Core.Redaction

/-- The columns that `get` merges back, besides the state. -/
def mergedKeys : List String := ["lens", "protocol_type", "prior_p"]

def HypothesisRow.mergedColumns (row : HypothesisRow) : List (String × Value) :=
  [("lens", row.lens), ("protocol_type", row.protocolType), ("prior_p", row.priorP)]

/-- What a commit needs for the fold to give what `get` returns. New data has the
three columns, none of them `NaN`, and a second redaction leaves it; the copy of an
award has the stored columns. -/
def Replayable (p : Platform) (db : Database) : Commit → Prop
  | .created _ data | .saved _ _ _ data => redactFields p.alnum data = data ∧
      ∀ key ∈ mergedKeys, ∃ v, getField? key data = some v ∧ v.isNaN = false
  | .moved .. => True
  | .awarded token h candidate proof =>
      ∀ key ∈ mergedKeys, Fresh p key db (.awarded token h candidate proof)

/-- The columns of a row agree with the fields of its body. -/
def Agrees (row : HypothesisRow) (data : Fields) : Prop :=
  ∀ q ∈ row.mergedColumns, ∃ v, getField? q.1 data = some v ∧ v.sameItem q.2.toJson = true

section Columns

variable {engine : Engine} {alnum : Char → Bool}

theorem nul_not_mem_beforeNul (s : String) : Char.ofNat 0 ∉ (beforeNul s).toList := by
  intro hMem
  rw [beforeNul, String.toList_ofList] at hMem
  have hAll := List.all_eq_true.mp List.all_takeWhile _ hMem
  simp at hAll

theorem beforeNul_eq {s : String} (h : Char.ofNat 0 ∉ s.toList) : beforeNul s = s := by
  rw [beforeNul, List.takeWhile_eq_self_iff.mpr, String.ofList_toList]
  intro c hc
  rw [decide_eq_true_eq]
  rintro rfl
  exact h hc

/-- Redaction brings in no NUL. -/
theorem nul_of_redact {s : String} (h : Char.ofNat 0 ∈ (redact alnum s).toList) :
    Char.ofNat 0 ∈ s.toList := by
  rw [redact, String.toList_ofList, redactChars] at h
  generalize secretPatterns ++ [privateValue] = patterns at h
  generalize s.toList = cs at h ⊢
  induction patterns generalizing cs with
  | nil => exact h
  | cons r rest ih =>
      rcases Regex.mem_subFrom 0 none cs (ih _ h) with hMarker | hMem
      · exact absurd hMarker (by decide)
      · exact hMem

/-- A text column that the snapshot backs was not changed by redaction. -/
theorem redact_of_backed {s : String} {x : Value} (hIs : (Value.text s).is x = true)
    (hExtracted : Extracted (some (.str (redact alnum s))) x) : redact alnum s = s := by
  rw [Value.text_is] at hIs
  rw [Extracted, hIs, Value.text.injEq, Value.text.injEq] at hExtracted
  rcases hExtracted with hSame | hCut
  · exact hSame.symm
  · have hNone : Char.ofNat 0 ∉ s.toList := by
      rw [hCut]
      exact nul_not_mem_beforeNul _
    rw [beforeNul_eq fun hMem => hNone (nul_of_redact hMem)] at hCut
    exact hCut.symm

/-- What is stored for an integer that the snapshot backs. -/
theorem sameItem_of_int {w : Value} {n : Int} (hIs : w.is (.int n) = true) :
    (Json.int n).sameItem w.toJson = true ∧
      ∀ b, (n = if b then 1 else 0) → (Json.bool b).sameItem w.toJson = true := by
  cases w with
  | int m =>
      obtain rfl : m = n := by simpa [Value.is] using hIs
      refine ⟨Json.sameItem_self _, fun b hb => ?_⟩
      cases b <;> simp [hb, Value.toJson, Json.sameItem, Json.pyEq, Json.number?, Number.eq]
  | real y =>
      have hNumber : Number.exact n = y.number := by
        simpa [Value.is, Number.eq] using hIs
      have hEq : (Number.exact n).eq y.number = true := by simp [Number.eq, ← hNumber]
      refine ⟨?_, fun b hb => ?_⟩
      · simp [Value.toJson, Json.sameItem, Json.pyEq, Json.number?, hEq]
      · subst hb
        cases b <;> simpa [Value.toJson, Json.sameItem, Json.isNaN, Json.pyEq, Json.number?] using hEq
  | _ => simp [Value.is] at hIs

theorem bind_float {f : PyFloat} {b : Value} (hNaN : (Json.float f).isNaN = false)
    (h : Sql.bind (.float f) = .ok b) : b = .real f := by
  cases f with
  | nan => cases hNaN
  | inf negative => exact (pure_eq_ok.mp h).symm
  | finite x => exact (pure_eq_ok.mp h).symm

/-- A text column that was bound from a value and that the snapshot backs. -/
theorem text_column {v : Json} {b x : Value} (hNaN : v.isNaN = false) (hBind : Sql.bind v = .ok b)
    (hIs : (engine.textAffinity b).is x = true) (hExtracted : Extracted (some v) x) :
    v.sameItem (engine.textAffinity b).toJson = true := by
  cases v with
  | null =>
      rw [Sql.bind, pure_eq_ok] at hBind
      rw [← hBind, engine.text_null]
      rfl
  | bool c =>
      rw [Sql.bind, pure_eq_ok] at hBind
      obtain ⟨s, hs⟩ := engine.text_int (if c then 1 else 0)
      rw [← hBind, hs, hExtracted] at hIs
      cases hIs
  | int i =>
      rw [Sql.bind] at hBind
      split at hBind
      · rename_i hRange
        rw [pure_eq_ok] at hBind
        obtain ⟨s, hs⟩ := engine.text_int i
        rw [← hBind, hs, hExtracted hRange] at hIs
        cases hIs
      · simp at hBind
  | float f =>
      have hReal := bind_float hNaN hBind
      obtain ⟨s, hs⟩ := engine.text_real f
      rw [hReal, hs] at hIs
      rcases hExtracted with rfl | ⟨y, rfl⟩ <;> cases hIs
  | str s =>
      rw [Sql.bind, pure_eq_ok] at hBind
      rw [← hBind, engine.text_text]
      exact Json.sameItem_self _
  | _ => simp [Sql.bind] at hBind

/-- A `REAL` column that was bound from a value and that the snapshot backs. -/
theorem real_column {v : Json} {b x : Value} (hNaN : v.isNaN = false) (hBind : Sql.bind v = .ok b)
    (hIs : (engine.realAffinity b).is x = true) (hExtracted : Extracted (some v) x) :
    v.sameItem (engine.realAffinity b).toJson = true := by
  cases v with
  | null =>
      rw [Sql.bind, pure_eq_ok] at hBind
      rw [← hBind, engine.real_null]
      rfl
  | bool c =>
      rw [hExtracted] at hIs
      exact (sameItem_of_int hIs).2 c rfl
  | int i =>
      rw [Sql.bind] at hBind
      split at hBind
      · rename_i hRange
        rw [hExtracted hRange] at hIs
        exact (sameItem_of_int hIs).1
      · simp at hBind
  | float f =>
      have hReal := bind_float hNaN hBind
      rw [hReal, engine.real_real]
      exact Json.sameItem_self _
  | str s =>
      rw [Sql.bind, pure_eq_ok] at hBind
      rw [← hBind] at hIs ⊢
      rcases engine.real_text s with hText | ⟨y, hReal⟩
      · rw [hText]
        exact Json.sameItem_self _
      · rw [hReal] at hIs
        rcases hExtracted with rfl | rfl <;> cases hIs
  | _ => simp [Sql.bind] at hBind

end Columns
section Rows

variable {p : Platform} {now : String} {s : System} {c : Commit}

theorem bindColumns_eq_ok {engine : Engine} {data : Fields} {bound : BoundColumns}
    (h : bindColumns engine data = .ok bound) : ∃ lens protocolType priorP,
      Sql.bind (fieldOf "lens" data) = .ok lens ∧
      Sql.bind (fieldOf "protocol_type" data) = .ok protocolType ∧
      Sql.bind (fieldOf "prior_p" data) = .ok priorP ∧
      bound = ⟨engine.textAffinity lens, engine.textAffinity protocolType,
        engine.realAffinity priorP⟩ := by
  simp only [bindColumns, bind_eq_ok, pure_eq_ok] at h
  obtain ⟨lens, hLens, protocolType, hProtocol, priorP, hPrior, rfl⟩ := h
  exact ⟨lens, protocolType, priorP, hLens, hProtocol, hPrior, rfl⟩

/-- What `json_extract` reads of one of the three columns. -/
theorem backed_column {db : Database} {new : HypothesisRow} (hSound : c.Sound)
    (hSnapshot : matchesSnapshot p.engine (c.event p now db) new.snapshotColumns = true)
    {q : String × Value} (hColumn : q ∈ new.mergedColumns) :
    ∃ x, q.2.is x = true ∧
      Extracted (some (redactPayload p.alnum (fieldOf q.1 (c.source now)))) x := by
  have hKey : q.1 ≠ "body" ∧ (q.1, q.2) ∈ new.snapshotColumns := by
    simp only [HypothesisRow.mergedColumns, List.mem_cons, List.not_mem_nil, or_false] at hColumn
    rcases hColumn with rfl | rfl | rfl <;> simp [HypothesisRow.snapshotColumns]
  obtain ⟨x, hIs, hExtracted⟩ := snapshot_column hSound hSnapshot hKey.2
  rw [snapshotField, if_neg hKey.1] at hExtracted
  exact ⟨x, hIs, hExtracted⟩

/-- The columns of new data agree with it. -/
theorem agrees_bound {new : HypothesisRow} {data : Fields} {bound : BoundColumns}
    (hNew : new.mergedColumns = [("lens", bound.lens), ("protocol_type", bound.protocolType),
      ("prior_p", bound.priorP)])
    (hFields : ∀ key ∈ mergedKeys, ∃ v, getField? key data = some v ∧ v.isNaN = false)
    (hBound : bindColumns p.engine data = .ok bound)
    (hBacked : ∀ q ∈ new.mergedColumns, ∃ x, q.2.is x = true ∧
      Extracted (some (fieldOf q.1 data)) x) : Agrees new data := by
  obtain ⟨lens, protocolType, priorP, hLens, hProtocol, hPrior, rfl⟩ := bindColumns_eq_ok hBound
  rw [Agrees, hNew]
  rw [hNew] at hBacked
  simp only [mergedKeys, List.forall_mem_cons] at hFields hBacked ⊢
  obtain ⟨⟨vl, hvl, hNaNl⟩, ⟨vt, hvt, hNaNt⟩, ⟨vp, hvp, hNaNp⟩, -⟩ := hFields
  obtain ⟨⟨xl, hIsl, hExl⟩, ⟨xt, hIst, hExt⟩, ⟨xp, hIsp, hExp⟩, -⟩ := hBacked
  rw [fieldOf, hvl, Option.getD_some] at hLens hExl
  rw [fieldOf, hvt, Option.getD_some] at hProtocol hExt
  rw [fieldOf, hvp, Option.getD_some] at hPrior hExp
  exact ⟨⟨vl, hvl, text_column hNaNl hLens hIsl hExl⟩, ⟨vt, hvt, text_column hNaNt hProtocol hIst
    hExt⟩, ⟨vp, hvp, real_column hNaNp hPrior hIsp hExp⟩, by simp⟩

/-- A text or null that was bound and that the redacted snapshot backs is not
changed by redaction. -/
theorem redact_of_bound {engine : Engine} {alnum : Char → Bool} {text : Option String}
    {b x : Value} (hBind : Sql.bind (textOrNull text) = .ok b)
    (hIs : (engine.textAffinity b).is x = true)
    (hExtracted : Extracted (some (redactPayload alnum (textOrNull text))) x) :
    redactPayload alnum (textOrNull text) = textOrNull text := by
  cases text with
  | none => rfl
  | some s =>
      rw [← pure_eq_ok.mp hBind, engine.text_text] at hIs
      exact congrArg Json.str (redact_of_backed hIs hExtracted)

/-- A dump has the three columns. -/
theorem columns_dump (alnum : Char → Bool) (h : HypothesisRecord) : ∀ key ∈ mergedKeys,
    ∃ v, getField? key (redactFields alnum h.dump) = some v ∧ v.isNaN = false := by
  simp only [mergedKeys, List.forall_mem_cons, getField?_redactFields, lens_dump,
    protocolType_dump, priorP_dump, Option.map_some]
  refine ⟨⟨_, rfl, ?_⟩, ⟨_, rfl, rfl⟩, ⟨_, rfl, rfl⟩, by simp⟩
  cases h.lens <;> rfl

/-- The columns of a dump that a transition writes agree with the redacted dump. -/
theorem agrees_dump {h : HypothesisRecord} {new : HypothesisRow} {bound : BoundColumns}
    (hNew : new.mergedColumns = [("lens", bound.lens), ("protocol_type", bound.protocolType),
      ("prior_p", bound.priorP)])
    (hBound : bindColumns p.engine h.dump = .ok bound)
    (hBacked : ∀ q ∈ new.mergedColumns, ∃ x, q.2.is x = true ∧
      Extracted (some (redactPayload p.alnum (fieldOf q.1 h.dump))) x) :
    Agrees new (redactFields p.alnum h.dump) := by
  have hKept : redactPayload p.alnum (fieldOf "lens" h.dump) = fieldOf "lens" h.dump ∧
      redactPayload p.alnum (fieldOf "protocol_type" h.dump) = fieldOf "protocol_type" h.dump := by
    obtain ⟨lens, protocolType, priorP, hl, ht, -, rfl⟩ := bindColumns_eq_ok hBound
    rw [hNew] at hBacked
    simp only [List.forall_mem_cons, fieldOf, lens_dump, protocolType_dump, priorP_dump,
      Option.getD_some] at hBacked hl ht ⊢
    obtain ⟨⟨xl, hIsl, hExl⟩, ⟨xt, hIst, hExt⟩, -⟩ := hBacked
    exact ⟨redact_of_bound hl hIsl hExl, redact_of_bound ht hIst hExt⟩
  have hPrior : redactPayload p.alnum (fieldOf "prior_p" h.dump) = fieldOf "prior_p" h.dump := by
    rw [fieldOf, priorP_dump]
    rfl
  refine agrees_bound (p := p) hNew (columns_dump p.alnum h) ?_ fun q hq => ?_
  · rw [bindColumns, fieldOf_redactFields, fieldOf_redactFields, fieldOf_redactFields, hKept.1,
      hKept.2, hPrior]
    exact hBound
  · rw [fieldOf_redactFields]
    exact hBacked q hq

/-- The row of a commit agrees with its body, if the old one did. -/
theorem Wrote.agrees {new : HypothesisRow}
    (hStored : ∀ row ∈ s.db.hypotheses, ∃ hid st data, RowOf row hid st data)
    (hAgrees : ∀ row ∈ s.db.hypotheses, ∀ hid st data, RowOf row hid st data → Agrees row data)
    (h : Wrote p now s.db c new)
    (hSnapshot : matchesSnapshot p.engine (c.event p now s.db) new.snapshotColumns = true)
    (hReplayable : Replayable p s.db c) : Agrees new (c.body p now) := by
  have hBacked := fun q => backed_column (q := q) h.sound hSnapshot
  cases h with
  | created payload hData hOpen hNew hBound =>
      obtain ⟨hStable, hFields⟩ := hReplayable
      refine agrees_bound rfl hFields hBound fun q hq => ?_
      obtain ⟨x, hIs, hExtracted⟩ := hBacked q hq
      rw [← fieldOf_redactFields] at hExtracted
      exact ⟨x, hIs, hStable ▸ hExtracted⟩
  | saved hOld hId hPlan hPlanned hBound =>
      obtain ⟨hStable, hFields⟩ := hReplayable
      refine agrees_bound rfl hFields hBound fun q hq => ?_
      obtain ⟨x, hIs, hExtracted⟩ := hBacked q hq
      rw [← fieldOf_redactFields] at hExtracted
      exact ⟨x, hIs, hStable ▸ hExtracted⟩
  | @moved token h newState cause evidence bound old hOld hId hState hValid hBound =>
      have hAgrees := agrees_dump (h := Store.moved h newState now) rfl hBound hBacked
      exact hAgrees
  | @awarded token h candidate proof old fields hOld hId hLoads hState hAward =>
      obtain ⟨hid, st, data, hRow⟩ := hStored old hOld
      obtain rfl : hid = candidate.id := Value.text.inj (hRow.id.symm.trans hId)
      obtain ⟨-, -, value, -, rfl⟩ := Ladder.award_eq_ok hAward
      intro q hq
      obtain ⟨v, hv, hSame⟩ := hAgrees old hOld _ st data hRow q hq
      have hKey : q.1 ∈ mergedKeys := List.mem_map_of_mem (f := Prod.fst) hq
      refine ⟨v, ?_, hSame⟩
      rw [← hv, ← hReplayable q.1 hKey data ⟨old, hOld, st, hRow⟩, Commit.body, Commit.copy,
        getField?_redactFields, getField?_redactFields, getField?_awarded]
      rintro hLadder
      rw [hLadder] at hKey
      exact absurd hKey (by decide)

end Rows
section Fold

variable {p : Platform} {now : String} {db after : Database} {c : Commit}

theorem foldSnapshot_eq {e : Event} {payload : Fields}
    (hLoads : Json.loads e.payload.toJson.text = .ok (.obj payload)) (j : Json) :
    foldSnapshot j e = .ok (if fieldOf "snapshot" payload = .null then j
      else fieldOf "snapshot" payload) := by
  rw [foldSnapshot, hLoads]
  rfl

/-- The event of a commit sets the snapshot. -/
theorem foldSnapshot_event (hSound : c.Sound) (j : Json) :
    foldSnapshot j (c.event p now db) = .ok (.obj (redactFields p.alnum (c.source now))) := by
  have hPayload : (Json.obj (c.payload p now)).Normal := Commit.payload_normal hSound
  have hLoads : Json.loads (c.event p now db).payload.toJson.text =
      .ok (.obj (redactFields p.alnum (c.payload p now))) :=
    Json.loads_dumps (redactFields_normal hPayload)
  rw [foldSnapshot_eq hLoads, fieldOf, getField?_redactFields, c.snapshot_payload, Option.map_some,
    Option.getD_some, redactPayload, if_neg (by simp)]

/-- The alarm has no snapshot. -/
theorem foldSnapshot_alarm (j : Json) :
    (c.alarm p now db).foldlM foldSnapshot j = .ok j := by
  rcases alarm_cases p now db c with hAlarm | hAlarm
  · rw [hAlarm]
    rfl
  · have hNormal : (Json.obj thresholdPayload).Normal := normal_dictOf (by
      simp only [List.forall_mem_cons]
      exact ⟨trivial, trivial, by simp⟩)
    have hRedacted : (Json.obj (redactFields p.alnum thresholdPayload)).Normal :=
      redactFields_normal hNormal
    have hLoads : Json.loads (newEvent p now (db.logged (c.event p now db)) c.hid
        "reopen_threshold_exceeded" thresholdPayload).payload.toJson.text =
          .ok (.obj (redactFields p.alnum thresholdPayload)) := Json.loads_dumps hRedacted
    have hNone : getField? "snapshot" thresholdPayload = none := by
      simp [thresholdPayload, getField?_dictOf, lookupLast]
    rw [hAlarm, List.foldlM_cons, foldSnapshot_eq hLoads, fieldOf, getField?_redactFields, hNone,
      Option.map_none, Option.getD_none, if_pos rfl]
    rfl

/-- A redacted snapshot is the body that the row gets. -/
theorem redact_source (h : Replayable p db c) :
    redactFields p.alnum (c.source now) = c.body p now := by
  cases c with
  | created hid data => exact h.1
  | saved save cause evidence data => exact h.1
  | moved token h' newState cause evidence => rfl
  | awarded token h' candidate proof => rfl

/-- After a commit the fold gives its body. -/
theorem fold_committed (hSound : c.Sound) (hReplayable : Replayable p db c)
    (h : Committed p now db c after) {j : Json}
    (hBefore : (recordOf db c.hid).foldlM foldSnapshot .null = .ok j) :
    (recordOf after c.hid).foldlM foldSnapshot .null = .ok (.obj (c.body p now)) := by
  rw [recordOf_committed h, List.foldlM_append, hBefore, bind_eq_ok]
  refine ⟨j, rfl, ?_⟩
  rw [List.foldlM_cons, foldSnapshot_event hSound, bind_eq_ok]
  exact ⟨_, rfl, by rw [foldSnapshot_alarm, redact_source hReplayable]⟩

end Fold

section Run

variable {p : Platform} {now : String} {s : System} {c : Commit}

/-- The events of every stored hypothesis fold to its body, with which its columns
agree; a hypothesis that is not stored has no events. -/
structure Rebuilt (p : Platform) (s : System) : Prop where
  folds : ∀ row ∈ s.db.hypotheses, ∀ hid st data, RowOf row hid st data →
    (recordOf s.db hid).foldlM foldSnapshot .null = .ok (.obj data)
  agrees : ∀ row ∈ s.db.hypotheses, ∀ hid st data, RowOf row hid st data → Agrees row data
  absent : ∀ hid, (∀ row ∈ s.db.hypotheses, row.id ≠ .text hid) → recordOf s.db hid = []

/-- Before a commit the fold has some value. -/
theorem Rebuilt.before (hBefore : Rebuilt p s) {st : HState} (hLeaves : c.Leaves s.db st) :
    ∃ j, (recordOf s.db c.hid).foldlM foldSnapshot .null = .ok j := by
  cases c with
  | created hid data =>
      refine ⟨.null, ?_⟩
      have hEmpty : recordOf s.db (Commit.created hid data).hid = [] :=
        hBefore.absent hid hLeaves.2
      rw [hEmpty]
      rfl
  | saved save cause evidence data =>
      obtain ⟨old, hOld, oldData, hRow⟩ := hLeaves
      exact ⟨_, hBefore.folds old hOld _ _ _ hRow⟩
  | moved token h' newState cause evidence =>
      obtain ⟨-, old, hOld, oldData, hRow⟩ := hLeaves
      exact ⟨_, hBefore.folds old hOld _ _ _ hRow⟩
  | awarded token h' candidate proof =>
      obtain ⟨old, hOld, oldData, hRow⟩ := hLeaves
      exact ⟨_, hBefore.folds old hOld _ _ _ hRow⟩

theorem Rebuilt.step (now : String) (s : System) (call : Call) (hFiled : Filed p s)
    (hReplayable : ∀ c, commit? p now s call = some c → Replayable p s.db c)
    (h : Rebuilt p s) : Rebuilt p (step p now s call) := by
  cases hCommit : commit? p now s call with
  | none =>
      have hQuiet := step_none hCommit
      refine ⟨fun row hMem => ?_, fun row hMem => ?_, fun hid hNone => ?_⟩
      · rw [hQuiet.rows] at hMem
        intro hid st data hRow
        rw [recordOf_quiet hQuiet]
        exact h.folds row hMem hid st data hRow
      · rw [hQuiet.rows] at hMem
        exact h.agrees row hMem
      · rw [recordOf_quiet hQuiet]
        exact h.absent hid (hQuiet.rows ▸ hNone)
  | some c =>
      have hCommitted := step_some hFiled hCommit
      obtain ⟨new, hWrote, hSnapshot, hRows⟩ := hCommitted.row
      obtain ⟨st, hNew, hLeaves⟩ := hWrote.rowOf hFiled.stored hSnapshot
      have hAgrees := hWrote.agrees hFiled.stored h.agrees hSnapshot (hReplayable c hCommit)
      obtain ⟨j, hBefore⟩ := h.before hLeaves
      refine ⟨fun row hMem hid st' data hRow => ?_, fun row hMem hid st' data hRow => ?_,
        fun hid hNone => ?_⟩
      · rcases (hRows row).mp hMem with rfl | ⟨hMem, hOther⟩
        · obtain ⟨rfl, rfl, rfl⟩ := hNew.agree hRow
          exact fold_committed hWrote.sound (hReplayable c hCommit) hCommitted hBefore
        · rw [recordOf_other hCommitted fun hSame => hOther (hSame ▸ hRow.id)]
          exact h.folds row hMem hid st' data hRow
      · rcases (hRows row).mp hMem with rfl | ⟨hMem, -⟩
        · obtain ⟨rfl, rfl, rfl⟩ := hNew.agree hRow
          exact hAgrees
        · exact h.agrees row hMem hid st' data hRow
      · have hNe : c.hid ≠ hid := by
          rintro rfl
          exact hNone new ((hRows new).mpr (.inl rfl)) hNew.id
        rw [recordOf_other hCommitted hNe]
        refine h.absent hid fun row hMem hId => hNone row ((hRows row).mpr (.inr ⟨hMem, ?_⟩)) hId
        rw [hId]
        exact fun hText => hNe (Value.text.inj hText).symm

theorem rebuilt_empty (p : Platform) : Rebuilt p System.empty :=
  ⟨fun _ hMem => absurd hMem List.not_mem_nil, fun _ hMem => absurd hMem List.not_mem_nil,
    fun _ _ => rfl⟩

/-- Merging the columns back into a body that agrees with them changes nothing. -/
theorem pyEq_mergeColumns {row : HypothesisRow} {hid : String} {st : HState} {data : Fields}
    (hRow : RowOf row hid st data) (hAgrees : Agrees row data) :
    ∃ merged, mergeColumns row (.obj data) = .ok merged ∧
      (Json.obj data).pyEq merged = true := by
  refine ⟨_, rfl, ?_⟩
  simp only [Agrees, HypothesisRow.mergedColumns, List.forall_mem_cons] at hAgrees
  obtain ⟨⟨vl, hvl, hSamel⟩, ⟨vt, hvt, hSamet⟩, ⟨vp, hvp, hSamep⟩, -⟩ := hAgrees
  have hState : (Json.str st.text).sameItem row.state.toJson = true := by
    rw [hRow.state]
    exact Json.sameItem_self _
  have hSelf : Json.pyEqFields data data = true :=
    Json.pyEqFields_self fun q _ => Json.sameItem_self q.2
  have hSorted := hRow.normal.1
  simp only [Json.pyEq, updateFields, List.foldl]
  have hOne := Json.pyEqFields_setField hSorted hSelf hRow.inner hState
  have hSorted1 := @setField_sorted "state" row.state.toJson _ hSorted
  have hTwo := Json.pyEqFields_setField hSorted1 hOne hvl hSamel
  have hSorted2 := @setField_sorted "lens" row.lens.toJson _ hSorted1
  have hThree := Json.pyEqFields_setField hSorted2 hTwo hvt hSamet
  exact Json.pyEqFields_setField (setField_sorted hSorted2) hThree hvp hSamep

/-- In a run whose commits are all replayable, every stored hypothesis is rebuilt
from its events as `get` returns it. -/
theorem rebuild_verifies (p : Platform) (calls : List (String × Call))
    (hReplayable : Meets p (Replayable p) System.empty calls) :
    let db := (run p System.empty calls).db
    ∀ row ∈ db.hypotheses, ∃ hid, row.id = .text hid ∧ verifyRebuild db hid = .ok true := by
  intro db row hMem
  obtain ⟨hFiled, hRebuilt⟩ :=
    run_meets (filed_empty p) (rebuilt_empty p) Rebuilt.step hReplayable
  obtain ⟨hid, st, data, hRow⟩ := hFiled.stored row hMem
  refine ⟨hid, hRow.id, ?_⟩
  have hFold := hRebuilt.folds row hMem hid st data hRow
  rw [← eventsOf_eq_recordOf hFiled.increasing] at hFold
  obtain ⟨merged, hMerged, hEq⟩ :=
    pyEq_mergeColumns hRow (hRebuilt.agrees row hMem hid st data hRow)
  have hRebuild : rebuildHypothesis db hid = .ok (.obj data) := by
    rw [rebuildHypothesis, hFold, bind_eq_ok]
    exact ⟨_, rfl, by rw [if_neg (by simp)]; rfl⟩
  have hTruthy : row.body.toJson.truthy = true := by
    have hPos := Json.emit_length_pos (.obj data)
    rw [hRow.body, Value.toJson, Json.truthy, decide_eq_true_eq]
    intro hEmpty
    rw [Json.dumps, ← String.toList_inj, String.toList_ofList] at hEmpty
    simp [hEmpty] at hPos
  have hGet : getHypothesis db hid = .ok merged := by
    rw [getHypothesis, hFiled.storedRow hMem hRow.id, bind_eq_ok]
    refine ⟨row, rfl, ?_⟩
    rw [hTruthy, if_neg (by simp), bind_eq_ok]
    refine ⟨.obj data, ?_, hMerged⟩
    rw [hRow.body]
    exact Json.loads_dumps hRow.normal
  rw [verifyRebuild, hRebuild, bind_eq_ok]
  refine ⟨_, rfl, ?_⟩
  rw [hGet, bind_eq_ok]
  exact ⟨_, rfl, by rw [hEq]; rfl⟩

end Run
section Sample

theorem sampleCreate_replayable : ∀ c,
    commit? samplePlatform sampleCreate.1 System.empty sampleCreate.2 = some c →
      Replayable samplePlatform System.empty.db c := by
  intro c hCommit
  obtain rfl := Option.some.inj (sample_created.1.symm.trans hCommit)
  refine ⟨sample_open.fields, ?_⟩
  rw [← sample_open.fields]
  exact columns_dump _ _

/-- The hypothesis that is created with its whole dump and then begun is rebuilt. -/
theorem begun_rebuilt : ∃ hid,
    verifyRebuild (run samplePlatform System.empty ([sampleCreate] ++ [sampleBegin])).db hid =
      .ok true := by
  have hReplayable : Meets samplePlatform (Replayable samplePlatform) System.empty
      ([sampleCreate] ++ [sampleBegin]) := by
    refine (meets_singleton sampleCreate_replayable).snoc fun c hCommit => ?_
    obtain rfl := Option.some.inj (sample_begun.1.symm.trans hCommit)
    trivial
  obtain ⟨-, row, hMem, -⟩ := sample_begun.2
  obtain ⟨hid, -, hVerified⟩ := rebuild_verifies samplePlatform ([sampleCreate] ++ [sampleBegin])
    hReplayable row hMem
  exact ⟨hid, hVerified⟩

/-- The row that a store keeps of the bare payload, merged back, has keys that the
snapshot of its one event does not have. -/
theorem bare_hypothesis_differs :
    verifyRebuild (run samplePlatform System.empty [bareCreate]).db "H-001" = .ok false := by
  obtain ⟨hCommit, hReady, row, hMem, hRow⟩ := bare_created
  have hColumns : bindColumns Engine.strict bareData = .ok ⟨.null, .null, .null⟩ := rfl
  rw [hRow.columns, Except.ok.injEq, BoundColumns.mk.injEq] at hColumns
  obtain ⟨hLens, hProtocol, hPrior⟩ := hColumns
  have hRecord := recordOf_committed (step_some (filed_empty samplePlatform) hCommit)
  have hEmpty : recordOf System.empty.db "H-001" = [] := rfl
  have hAlarm : Commit.alarm samplePlatform bareCreate.1 System.empty.db
      (.created "H-001" bareData) = [] := rfl
  have hSound : (Commit.created "H-001" bareData).Sound := hRow.normal
  rw [Commit.hid, hEmpty, List.nil_append, hAlarm] at hRecord
  have hRebuild : rebuildHypothesis (run samplePlatform System.empty [bareCreate]).db "H-001" =
      .ok (.obj bareData) := by
    have hRun : run samplePlatform System.empty [bareCreate] =
      step samplePlatform bareCreate.1 System.empty bareCreate.2 := rfl
    rw [rebuildHypothesis, eventsOf_eq_recordOf hReady.increasing, hRun, hRecord,
      List.foldlM_cons, foldSnapshot_event hSound, Commit.source]
    have hPlain : redactFields samplePlatform.alnum bareData = bareData := bare_plain.fields
    rw [hPlain]
    rfl
  have hGet : getHypothesis (run samplePlatform System.empty [bareCreate]).db "H-001" =
      .ok (.obj (updateFields bareData [("state", .str "OPEN"), ("lens", .null),
        ("protocol_type", .null), ("prior_p", .null)])) := by
    have hTruthy : (Json.str (Json.obj bareData).dumps).truthy = true := by decide
    rw [getHypothesis, hReady.toFiled.storedRow hMem hRow.id, bind_eq_ok]
    refine ⟨row, rfl, ?_⟩
    rw [hRow.body, Value.toJson, hTruthy, if_neg (by simp), bind_eq_ok]
    refine ⟨.obj bareData, Json.loads_dumps hRow.normal, ?_⟩
    rw [mergeColumns, hRow.state, hLens, hProtocol, hPrior]
    rfl
  rw [verifyRebuild, hRebuild, bind_eq_ok]
  refine ⟨_, rfl, ?_⟩
  rw [hGet, bind_eq_ok]
  exact ⟨_, rfl, by decide⟩

end Sample
end L0vi0x.Core.Store
