import L0vi0x.Core.StoreCalls

/-! Updates of one field of a hypothesis by saves, awards and transitions that
read the row before they write the whole body. -/
namespace L0vi0x.Core.Store

open L0vi0x.Python L0vi0x.Sql L0vi0x.Core.Redaction

/-- The payload of a save as it is merged into the body. -/
def PendingSave.updates (save : PendingSave) : Fields :=
  eraseField "evidence" (eraseField "cause" save.payload.val)

/-- The fields that a call writes: all those of a new hypothesis, those of the
payload of a save but for the two that the store sets itself, the ladder of an
award, and what a transition changes. -/
def Commit.written : Commit → List String
  | .created _ data => data.map Prod.fst
  | .saved save _ _ _ =>
      (save.updates.map Prod.fst).filter fun key => key ≠ "id" ∧ key ≠ "state"
  | .moved .. => ["state", "updated_at", "reopen_count"]
  | .awarded .. => ["ladder"]

/-- The value that a call gives a field, as it is persisted. -/
def Commit.given (p : Platform) (now : String) (c : Commit) (key : String) : Option Json :=
  match c with
  | .saved save _ _ _ => (getField? key save.payload.val).map (redactPayload p.alnum)
  | c => getField? key (c.body p now)

/-- What the caller holds of the fields that it does not write is what is stored. -/
def UpToDate (p : Platform) (db : Database) (c : Commit) : Prop :=
  ∀ data, Body db c.hid data → ∀ key, key ∉ c.written →
    getField? key (c.copy p) = getField? key data

section Fields

variable {p : Platform} {now : String} {key : String}

theorem eraseField_sorted {fields : Fields} (h : (fields.map Prod.fst).Pairwise (· < ·)) :
    ((eraseField key fields).map Prod.fst).Pairwise (· < ·) :=
  h.sublist (List.filter_sublist.map Prod.fst)

theorem getField?_of_mem {fields : Fields} (h : key ∈ fields.map Prod.fst) :
    ∃ v, getField? key fields = some v := by
  induction fields with
  | nil => cases h
  | cons q rest ih =>
      obtain ⟨k, v⟩ := q
      rw [getField?]
      split
      · exact ⟨v, rfl⟩
      · rename_i hk
        rcases List.mem_cons.mp h with hEq | hMem
        · exact absurd hEq.symm hk
        · exact ih hMem

/-- An update sets the fields that it has. -/
theorem getField?_updateFields {fields updates : Fields}
    (h : (updates.map Prod.fst).Pairwise (· < ·)) : getField? key (updateFields fields updates) =
      (getField? key updates).or (getField? key fields) := by
  rw [updateFields, getField?_foldl, ← getField?_dictOf, dictOf_of_sorted h]

/-- The merge of a save has the value of the payload in every field that it writes. -/
theorem mergedFields_given {fields : Fields} {payload : NormalFields} {hid : String}
    {s : HState} (hMem : key ∈ (eraseField "evidence" (eraseField "cause" payload.val)).map Prod.fst)
    (hId : key ≠ "id") (hState : key ≠ "state") :
    getField? key (mergedFields p fields payload.val hid s) =
      (getField? key payload.val).map (redactPayload p.alnum) := by
  have hErased : ∀ other, key ∈ (eraseField other payload.val).map Prod.fst → key ≠ other := by
    intro other hIn hEq
    obtain ⟨q, hq, rfl⟩ := List.mem_map.mp hIn
    exact absurd hEq (by simpa using (List.mem_filter.mp hq).2)
  have hCause : key ≠ "cause" :=
    hErased "cause" (List.Sublist.subset (List.filter_sublist.map Prod.fst) hMem)
  have hEvidence : key ≠ "evidence" := by
    rintro rfl
    obtain ⟨q, hq, hKey⟩ := List.mem_map.mp hMem
    exact absurd hKey (by simpa using (List.mem_filter.mp hq).2)
  obtain ⟨v, hv⟩ := getField?_of_mem hMem
  rw [mergedFields, getField?_redactFields, getField?_setField_ne _ _ hState,
    getField?_setField_ne _ _ hId,
    getField?_updateFields (eraseField_sorted (eraseField_sorted payload.property.1)), hv,
    Option.some_or, ← hv, getField?_eraseField hEvidence, getField?_eraseField hCause]

/-- A transition changes three fields of the dump. -/
theorem getField?_moved {h : HypothesisRecord} {newState : HState}
    (hKey : key ∉ ["state", "updated_at", "reopen_count"]) :
    getField? key (moved h newState now).dump = getField? key h.dump := by
  simp only [List.mem_cons, List.not_mem_nil, or_false, not_or] at hKey
  obtain ⟨hState, hUpdated, hCount⟩ := hKey
  rw [HypothesisRecord.getField?_dump, HypothesisRecord.getField?_dump]
  simp only [HypothesisRecord.pairs, moved, lookupLast_cons, Ne.symm hState, Ne.symm hUpdated,
    Ne.symm hCount, ↓reduceIte]

/-- An award changes the ladder in the dump. -/
theorem getField?_awarded {h : HypothesisRecord} {ladder : LadderMap} (hKey : key ≠ "ladder") :
    getField? key { h with ladder := ladder }.dump = getField? key h.dump := by
  rw [HypothesisRecord.getField?_dump, HypothesisRecord.getField?_dump]
  simp only [HypothesisRecord.pairs, lookupLast_cons, Ne.symm hKey, ↓reduceIte]

end Fields
section Run

variable {p : Platform} {now key hid : String} {s : System} {c : Commit} {call : Call}

/-- A commit keeps the fields that it does not write, if its copy has them. -/
theorem unwritten_field (hFiled : Filed p s) (hCommit : commit? p now s call = some c)
    (hFresh : UpToDate p s.db c) {data : Fields} (hBody : Body s.db c.hid data)
    (hKey : key ∉ c.written) : getField? key (c.body p now) = getField? key data := by
  rw [← hFresh data hBody key hKey]
  obtain ⟨new, hWrote, -, -⟩ := (step_some hFiled hCommit).row
  cases hWrote with
  | created => rfl
  | saved => rfl
  | moved =>
      rw [Commit.body, Commit.copy, getField?_redactFields, getField?_redactFields,
        getField?_moved hKey]
  | awarded _ _ _ _ hAward =>
      obtain ⟨-, -, value, -, rfl⟩ := Ladder.award_eq_ok hAward
      rw [Commit.body, Commit.copy, getField?_redactFields, getField?_redactFields,
        getField?_awarded (by simpa [Commit.written] using hKey)]

/-- A commit stores the values that its call gives. -/
theorem written_field (hFiled : Filed p s) (hCommit : commit? p now s call = some c)
    (hKey : key ∈ c.written) : getField? key (c.body p now) = c.given p now key := by
  obtain ⟨new, hWrote, -, -⟩ := (step_some hFiled hCommit).row
  cases hWrote with
  | created => rfl
  | @saved save cause evidence data _ _ _ _ hPlan hPlanned =>
      rw [hPlan] at hPlanned
      simp only [Commit.written, List.mem_filter, decide_eq_true_eq] at hKey
      obtain ⟨hMem, hId, hState⟩ := hKey
      cases hPlanned with
      | update => exact mergedFields_given hMem hId hState
  | moved => rfl
  | awarded => rfl

/-- The stored value of a field is still stored. -/
def FieldKept (hid key : String) (before after : Database) : Prop :=
  ∀ data, Body before hid data → ∃ data', Body after hid data' ∧
    getField? key data' = getField? key data

/-- A commit that is up to date and does not write a field of a hypothesis. -/
def Spares (p : Platform) (hid key : String) (db : Database) (c : Commit) : Prop :=
  UpToDate p db c ∧ (c.hid = hid → key ∉ c.written)

theorem step_field (now : String) (s : System) (call : Call) (hFiled : Filed p s)
    (hSpares : ∀ c, commit? p now s call = some c → Spares p hid key s.db c) :
    FieldKept hid key s.db (step p now s call).db := by
  intro data hBody
  by_cases hWritten : ∃ c, commit? p now s call = some c ∧ c.hid = hid
  · obtain ⟨c, hCommit, rfl⟩ := hWritten
    obtain ⟨hFresh, hKey⟩ := hSpares c hCommit
    exact ⟨_, body_written hFiled hCommit,
      unwritten_field hFiled hCommit hFresh hBody (hKey rfl)⟩
  · push Not at hWritten
    exact ⟨data, body_kept hFiled hWritten hBody, rfl⟩

/-- In a run in which what every committing caller holds of the fields that it does
not write is what is stored, the value that a call gives a field is the value in the
body at the end, unless a later commit on the hypothesis writes the field. -/
theorem no_lost_update (p : Platform) (before calls : List (String × Call))
    (hFresh : Meets p (UpToDate p) (run p System.empty before) calls) :
    let s := run p System.empty before
    ∀ earlier now call rest c key, calls = earlier ++ (now, call) :: rest →
      commit? p now (run p s earlier) call = some c → key ∈ c.written →
      Meets p (fun _ later => later.hid = c.hid → key ∉ later.written)
        (step p now (run p s earlier) call) rest →
      ∃ data, Body (run p s calls).db c.hid data ∧ getField? key data = c.given p now key := by
  intro s earlier now call rest c key hCalls hCommit hKey hLater
  have hMid : Filed p (run p s earlier) := ((filed_empty p).run before).run earlier
  rw [hCalls] at hFresh
  have hRest : Meets p (Spares p c.hid key) (step p now (run p s earlier) call) rest :=
    hFresh.append.2.and hLater
  have hRefl : ∀ db, FieldKept c.hid key db db := fun db data hBody => ⟨data, hBody, rfl⟩
  have hTrans : ∀ a b d, FieldKept c.hid key a b → FieldKept c.hid key b d →
      FieldKept c.hid key a d := by
    intro a b d hab hbd data hBody
    obtain ⟨mid, hBody', hSame⟩ := hab data hBody
    obtain ⟨last, hBody'', hSame'⟩ := hbd mid hBody'
    exact ⟨last, hBody'', hSame'.trans hSame⟩
  obtain ⟨data, hBody, hSame⟩ := run_relation hRefl hTrans step_field (hMid.step now call) hRest
    _ (body_written hMid hCommit)
  have hRun : run p s calls = run p (step p now (run p s earlier) call) rest := by
    simp [hCalls, run]
  rw [hRun]
  exact ⟨data, hBody, hSame.trans (written_field hMid hCommit hKey)⟩

end Run
section Sample

/-- The payload of a save of one field of the bare hypothesis. -/
def savePayload (key value : String) : Fields := dictOf
  [("cause", .str "review"), ("evidence", .arr [.str "E-001"]), (key, .str value)]

def impactPayload : NormalFields := ⟨savePayload "est_impact" "high", by decide +kernel⟩
def costPayload : NormalFields := ⟨savePayload "est_cost" "low", by decide +kernel⟩

def impactData : Fields := [("claim", .str "shares round up"), ("est_impact", .str "high"),
  ("id", .str "H-001"), ("state", .str "OPEN")]
def costData : Fields := [("claim", .str "shares round up"), ("est_cost", .str "low"),
  ("id", .str "H-001"), ("state", .str "OPEN")]

/-- What both saves leave, one after the other. -/
def bothData : Fields := [("claim", .str "shares round up"), ("est_cost", .str "low"),
  ("est_impact", .str "high"), ("id", .str "H-001"), ("state", .str "OPEN")]

/-- Redaction leaves what the saves of the sample leave. -/
theorem saves_plain : Plain (fun _ => false) impactData ∧ Plain (fun _ => false) costData ∧
    Plain (fun _ => false) bothData := by
  have hQuiet : quietFields impactData = true ∧ quietFields costData = true ∧
      quietFields bothData = true := by
    decide
  exact ⟨plain_quiet hQuiet.1, plain_quiet hQuiet.2.1, plain_quiet hQuiet.2.2⟩

def impactSave : PendingSave :=
  ⟨"H-001", impactPayload, .update "review" [.str "E-001"] impactData⟩
def costSave : PendingSave :=
  ⟨"H-001", costPayload, .update "review" [.str "E-001"] costData⟩
def laterSave : PendingSave :=
  ⟨"H-001", costPayload, .update "review" [.str "E-001"] bothData⟩

def impactRead : String × Call := (sampleTime, .saveRead "H-001" impactPayload)
def costRead : String × Call := (sampleTime, .saveRead "H-001" costPayload)
def firstCommit : String × Call := (sampleTime, .saveCommit 0)

/-- A payload that gives the cause and the evidence of the sample, and no state. -/
def Reviews (payload : NormalFields) : Prop :=
  getField? "cause" payload.val = some (.str "review") ∧
    getField? "evidence" payload.val = some (.arr [.str "E-001"]) ∧
    getField? "state" payload.val = none

instance (payload : NormalFields) : Decidable (Reviews payload) :=
  inferInstanceAs (Decidable (_ ∧ _ ∧ _))

/-- Both payloads are of one review. -/
theorem saves_review : Reviews impactPayload ∧ Reviews costPayload := by decide

/-- A save that reads the hypothesis plans its field. -/
theorem bare_reads {s : System} {payload : NormalFields} {stored data : Fields}
    (hHolds : Holds samplePlatform s "H-001" .open stored) (hPayload : Reviews payload)
    (hData : mergedFields samplePlatform stored payload.val "H-001" .open = data) :
    run samplePlatform s [(sampleTime, .saveRead "H-001" payload)] =
        { s with pending := s.pending ++
          [⟨"H-001", payload, .update "review" [.str "E-001"] data⟩] } ∧
      Holds samplePlatform (run samplePlatform s [(sampleTime, .saveRead "H-001" payload)]) "H-001"
        .open stored := by
  subst hData
  exact hHolds.reads sampleTime hPayload.1 hPayload.2.1 hPayload.2.2

/-- A save that has planned its field commits it, whatever was stored since. -/
theorem bare_saves {s : System} {save : PendingSave} {data stored : Fields}
    (hHolds : Holds samplePlatform s "H-001" .open stored) (hAt : s.pending[0]? = some save)
    (hSave : save.hid = "H-001" ∧ save.plan = .update "review" [.str "E-001"] data)
    (hData : getField? "id" data = some (.str "H-001") ∧
      getField? "state" data = some (.str HState.open.text))
    (hPlain : Plain (fun _ => false) data) (hColumned : Columned data) :
    commit? samplePlatform firstCommit.1 s firstCommit.2 =
        some (.saved save "review" [.str "E-001"] data) ∧
      Holds samplePlatform (run samplePlatform s [firstCommit]) "H-001" .open data :=
  hHolds.saves rfl hAt hSave.1 hSave.2 hData.1 hData.2 hPlain hColumned

/-- What each save of the sample merges into the body. -/
theorem saves_merged :
    mergedFields samplePlatform bareData impactPayload.val "H-001" .open = impactData ∧
      mergedFields samplePlatform bareData costPayload.val "H-001" .open = costData ∧
      mergedFields samplePlatform impactData costPayload.val "H-001" .open = bothData := by
  decide

theorem columned_bare {data : Fields} (hLens : getField? "lens" data = none)
    (hProtocol : getField? "protocol_type" data = none)
    (hPrior : getField? "prior_p" data = none) : Columned data := by
  refine ⟨⟨none, ?_⟩, ⟨none, ?_⟩, .inl ?_⟩
  · rw [fieldOf, hLens]
    rfl
  · rw [fieldOf, hProtocol]
    rfl
  · rw [fieldOf, hPrior]
    rfl

def bareStore : System := run samplePlatform System.empty [bareCreate]

/-- The first save has read the body of the bare hypothesis. -/
theorem impact_read : run samplePlatform bareStore [impactRead] =
      { bareStore with pending := bareStore.pending ++ [impactSave] } ∧
    Holds samplePlatform (run samplePlatform bareStore [impactRead]) "H-001" .open bareData :=
  bare_reads bare_created.2 saves_review.1 saves_merged.1

theorem bareStore_pending : bareStore.pending = [] := rfl

theorem impact_saves {s : System} {stored : Fields}
    (hHolds : Holds samplePlatform s "H-001" .open stored)
    (hAt : s.pending[0]? = some impactSave) :
    commit? samplePlatform firstCommit.1 s firstCommit.2 =
        some (.saved impactSave "review" [.str "E-001"] impactData) ∧
      Holds samplePlatform (run samplePlatform s [firstCommit]) "H-001" .open impactData :=
  bare_saves hHolds hAt ⟨rfl, rfl⟩ ⟨rfl, rfl⟩ saves_plain.1 (columned_bare rfl rfl rfl)

/-- The second save commits its field over the body that it has read. -/
theorem cost_saves {s : System} {stored : Fields}
    (hHolds : Holds samplePlatform s "H-001" .open stored)
    (hAt : s.pending[0]? = some costSave) :
    commit? samplePlatform firstCommit.1 s firstCommit.2 =
        some (.saved costSave "review" [.str "E-001"] costData) ∧
      Holds samplePlatform (run samplePlatform s [firstCommit]) "H-001" .open costData :=
  bare_saves hHolds hAt ⟨rfl, rfl⟩ ⟨rfl, rfl⟩ saves_plain.2.1 (columned_bare rfl rfl rfl)

/-- The save that was read is the next to commit. -/
theorem impact_pending : (run samplePlatform bareStore [impactRead]).pending[0]? =
    some impactSave := by
  rw [impact_read.1, bareStore_pending]
  rfl

/-- The save that has committed is no longer pending. -/
theorem firstCommit_pending {s : System} {save : PendingSave} {rest : List PendingSave}
    (h : s.pending = save :: rest) : (run samplePlatform s [firstCommit]).pending = rest := by
  change (step samplePlatform sampleTime s (.saveCommit 0)).pending = rest
  simp [step, h]

/-- The calls of two saves, where the second reads what the first has committed. -/
def savesInTurn : List (String × Call) := [impactRead] ++ [firstCommit] ++ [costRead] ++ [firstCommit]

/-- Each save of the sample writes its own field. -/
theorem saves_written :
    (Commit.saved impactSave "review" [.str "E-001"] impactData).written = ["est_impact"] ∧
      (Commit.saved costSave "review" [.str "E-001"] costData).written = ["est_cost"] ∧
      (Commit.saved laterSave "review" [.str "E-001"] bothData).written = ["est_cost"] := by
  decide

/-- The first save is up to date when it commits. -/
theorem impact_fresh : Meets samplePlatform (UpToDate samplePlatform) bareStore
      ([impactRead] ++ [firstCommit]) ∧
    Holds samplePlatform (run samplePlatform bareStore ([impactRead] ++ [firstCommit])) "H-001"
      .open impactData := by
  have hRead := impact_read.2
  have hSaves := impact_saves hRead impact_pending
  refine ⟨(meets_singleton fun c hNone => by cases hNone).snoc
    fun c hOther data hBody key hKey => ?_, by rw [run_append]; exact hSaves.2⟩
  obtain rfl := Option.some.inj (hSaves.1.symm.trans hOther)
  have hData : data = bareData := hRead.ready.body_unique hBody hRead.body
  rw [saves_written.1, List.mem_singleton] at hKey
  rw [hData, Commit.copy, impactData, bareData]
  simp only [getField?, Ne.symm hKey, ↓reduceIte]

/-- The second save reads and commits both fields. -/
theorem later_saves :
    let s := run samplePlatform bareStore ([impactRead] ++ [firstCommit])
    Holds samplePlatform (run samplePlatform s [costRead]) "H-001" .open impactData ∧
      commit? samplePlatform firstCommit.1 (run samplePlatform s [costRead]) firstCommit.2 =
        some (.saved laterSave "review" [.str "E-001"] bothData) := by
  intro s
  have hCost := @bare_reads s costPayload _ _ impact_fresh.2 saves_review.2 saves_merged.2.2
  have hNone : s.pending = [] := by
    change (run samplePlatform bareStore ([impactRead] ++ [firstCommit])).pending = []
    rw [run_append]
    exact firstCommit_pending (by rw [impact_read.1, bareStore_pending]; rfl)
  have hPending : (run samplePlatform s [costRead]).pending[0]? = some laterSave := by
    have hAll := congrArg System.pending hCost.1
    rw [hNone] at hAll
    exact congrArg (·[0]?) hAll
  exact ⟨hCost.2, (bare_saves hCost.2 hPending ⟨rfl, rfl⟩ ⟨rfl, rfl⟩ saves_plain.2.2
    (columned_bare rfl rfl rfl)).1⟩

theorem savesInTurn_fresh : Meets samplePlatform (UpToDate samplePlatform) bareStore savesInTurn := by
  obtain ⟨hRead, hCommit⟩ := later_saves
  refine (impact_fresh.1.snoc fun c hNone => by cases hNone).snoc
    fun c hOther data hBody key hKey => ?_
  rw [run_append] at hOther hBody
  obtain rfl := Option.some.inj (hCommit.symm.trans hOther)
  have hData : data = impactData := hRead.ready.body_unique hBody hRead.body
  rw [saves_written.2.2, List.mem_singleton] at hKey
  rw [hData, Commit.copy, impactData, bothData]
  simp only [getField?, Ne.symm hKey, ↓reduceIte]

/-- A save keeps its field through a later save of the hypothesis that has read it. -/
theorem saves_in_turn_kept : ∃ data,
    Body (run samplePlatform bareStore savesInTurn).db "H-001" data ∧
      getField? "est_impact" data = some (.str "high") := by
  have hRead := impact_read.2
  have hCommit := (impact_saves hRead impact_pending).1
  have hLater : Meets samplePlatform (fun _ later => later.hid = "H-001" →
      "est_impact" ∉ later.written) (run samplePlatform bareStore ([impactRead] ++ [firstCommit]))
        ([costRead] ++ [firstCommit]) := by
    refine (meets_singleton fun c hNone => by cases hNone).snoc fun c hOther => ?_
    obtain rfl := Option.some.inj (later_saves.2.symm.trans hOther)
    rw [saves_written.2.2]
    exact fun _ => by simp
  have hStep (s : System) : run samplePlatform s [firstCommit] =
      step samplePlatform firstCommit.1 s firstCommit.2 := rfl
  rw [run_append, hStep] at hLater
  obtain ⟨data, hBody, hGiven⟩ := no_lost_update samplePlatform [bareCreate] savesInTurn
    savesInTurn_fresh [impactRead] firstCommit.1 firstCommit.2 ([costRead] ++ [firstCommit]) _
    "est_impact" rfl hCommit (by simp [saves_written.1]) hLater
  exact ⟨data, hBody, hGiven⟩

/-- Both saves have read the bare hypothesis. -/
theorem both_read :
    (run samplePlatform bareStore ([impactRead] ++ [costRead])).pending = [impactSave, costSave] ∧
      Holds samplePlatform (run samplePlatform bareStore ([impactRead] ++ [costRead])) "H-001" .open
        bareData := by
  have hCost := bare_reads impact_read.2 saves_review.2 saves_merged.2.1
  have hPending : (run samplePlatform bareStore [impactRead]).pending = [impactSave] := by
    rw [impact_read.1, bareStore_pending]
    rfl
  rw [run_append]
  refine ⟨?_, hCost.2⟩
  have hAll := congrArg System.pending hCost.1
  rw [hPending] at hAll
  exact hAll

/-- Two saves of different fields read the row before either commits: the field of the
first is lost. -/
theorem concurrent_save_loses_field : ∃ c later data,
    commit? samplePlatform firstCommit.1
        (run samplePlatform bareStore ([impactRead] ++ [costRead])) firstCommit.2 = some c ∧
      commit? samplePlatform firstCommit.1
        (run samplePlatform bareStore ([impactRead] ++ [costRead] ++ [firstCommit]))
        firstCommit.2 = some later ∧
      "est_impact" ∈ c.written ∧ "est_impact" ∉ later.written ∧
      c.given samplePlatform firstCommit.1 "est_impact" = some (.str "high") ∧
      Body (run samplePlatform bareStore
        ([impactRead] ++ [costRead] ++ [firstCommit] ++ [firstCommit])).db "H-001" data ∧
      getField? "est_impact" data = none := by
  obtain ⟨hRead, hHolds⟩ := both_read
  have hFirst := impact_saves hHolds (by rw [hRead]; rfl)
  have hRest := firstCommit_pending hRead
  rw [← run_append] at hFirst hRest
  have hSecond := cost_saves hFirst.2 (by rw [hRest]; rfl)
  rw [← run_append] at hSecond
  exact ⟨_, _, costData, hFirst.1, hSecond.1, by simp [saves_written.1],
    by simp [saves_written.2.1], rfl, hSecond.2.body, rfl⟩

end Sample
end L0vi0x.Core.Store
