import L0vi0x.Core.StoreCalls

/-! The stored ladder, over awards and transitions that are given copies of the
hypothesis. -/
namespace L0vi0x.Core.Store

open L0vi0x.Python L0vi0x.Sql L0vi0x.Core.Redaction

def levelOf (data : Fields) (axis : String) : Option Json :=
  (getField? "ladder" data).bind (Json.get? axis)

def StoredLevel (db : Database) (hid axis : String) (level : Json) : Prop :=
  ∃ data, Body db hid data ∧ levelOf data axis = some level

/-- A level stays, or its number does not fall. -/
def NoLower (old new : Json) : Prop :=
  new = old ∨ ∃ i j, old.toInt = .ok i ∧ new.toInt = .ok j ∧ i ≤ j

section Levels

variable {old mid new : Json}

theorem NoLower.trans (h : NoLower old mid) (h' : NoLower mid new) : NoLower old new := by
  rcases h with rfl | ⟨i, j, hi, hj, hij⟩
  · exact h'
  · rcases h' with rfl | ⟨j', k, hj', hk, hjk⟩
    · exact .inr ⟨i, j, hi, hj, hij⟩
    · rw [hj] at hj'
      cases hj'
      exact .inr ⟨i, k, hi, hk, hij.trans hjk⟩

/-- `not_applicable` is no number, so it stays. -/
theorem NoLower.sentinel (h : NoLower LadderLevel.notApplicable.json new) :
    new = LadderLevel.notApplicable.json := by
  rcases h with rfl | ⟨i, j, hi, -⟩
  · rfl
  · have hNone : intOfText? "not_applicable" = none := by decide
    simp [LadderLevel.notApplicable, LadderLevel.json, Json.toInt, hNone] at hi

variable {alnum : Char → Bool}

theorem redact_sentinel : redactPayload alnum LadderLevel.notApplicable.json =
    LadderLevel.notApplicable.json := by
  rw [LadderLevel.notApplicable, LadderLevel.json, redactPayload, redact_plain (by decide)]

/-- Redaction leaves a level that reads as a number. -/
theorem redact_level {level : LadderLevel} {i : Int} (h : level.toInt = .ok i) :
    redactPayload alnum level.json = level.json := by
  cases level with
  | int j => rfl
  | text s =>
      rw [LadderLevel.toInt, LadderLevel.json, Json.toInt] at h
      rw [LadderLevel.json, redactPayload]
      cases hRead : intOfText? s with
      | none => simp [hRead] at h
      | some j => rw [redact_number hRead]

/-- The level of an axis in the persisted dump of a hypothesis. -/
theorem levelOf_dump (h : HypothesisRecord) (axis : String) :
    levelOf (redactFields alnum h.dump) axis =
      (h.ladder.lookup axis).map fun level => redactPayload alnum level.json := by
  have hLadder : getField? "ladder" h.dump = some h.ladder.json := by
    rw [h.getField?_dump]
    rfl
  rw [levelOf, getField?_redactFields, hLadder, Option.map_some, Option.bind_some]
  have hGet := LadderMap.get?_json h.ladder axis
  cases hJson : h.ladder.json with
  | obj fields =>
      rw [hJson, Json.get?] at hGet
      rw [redactPayload, Json.get?, getField?_redactFields, hGet, Option.map_map]
      rfl
  | _ => simp [LadderMap.json, mapJson] at hJson

end Levels

section Award

variable {p : Platform} {token : Option DriverToken} {h candidate : HypothesisRecord}
  {proof : LadderProof}

/-- An award writes one axis, whose level does not fall. -/
theorem award_levels (hAward : Ladder.award p.host p.secret token (some h) proof.axis proof.level
      (some proof) = .ok (true, some candidate)) :
    candidate.id = h.id ∧ ∃ value, candidate.ladder = h.ladder.insert proof.axis value ∧
      NoLower proof.level.json (redactPayload p.alnum value.json) ∧
      ∀ old, h.ladder.lookup proof.axis = some old →
        NoLower (redactPayload p.alnum old.json) (redactPayload p.alnum value.json) := by
  obtain ⟨-, hCheck, value, hValue, rfl⟩ := Ladder.award_eq_ok hAward
  refine ⟨rfl, value, rfl, ?_⟩
  by_cases hLevel : proof.level = .notApplicable
  · rw [hLevel] at hValue hCheck ⊢
    rw [Ladder.awarded, if_pos rfl, pure_eq_ok] at hValue
    rw [← hValue, redact_sentinel]
    refine ⟨.inl rfl, fun old hOld => ?_⟩
    rcases Ladder.checkLadder_notApplicable hCheck with hNone | hMarked
    · rw [hNone] at hOld
      cases hOld
    · rw [hMarked, Option.some.injEq] at hOld
      rw [← hOld, redact_sentinel]
      exact .inl rfl
  · rw [Ladder.awarded, if_neg hLevel, bind_eq_ok] at hValue
    obtain ⟨i, hInt, hValue⟩ := hValue
    rw [pure_eq_ok] at hValue
    rw [← hValue]
    refine ⟨.inr ⟨i, i, hInt, rfl, le_rfl⟩, fun old hOld => ?_⟩
    obtain ⟨-, current, hCurrent, hLe, -⟩ := Ladder.checkLadder_number hLevel hInt hCheck
    rw [hOld, Option.elim_some] at hCurrent
    rw [redact_level hCurrent]
    exact .inr ⟨current, i, hCurrent, rfl, hLe⟩

end Award

section Run

variable {p : Platform} {now : String} {s : System} {call : Call} {c : Commit}

def LevelsKept (before after : Database) : Prop :=
  ∀ hid axis level, StoredLevel before hid axis level →
    ∃ level', StoredLevel after hid axis level' ∧ NoLower level level'

/-- A commit whose copy has the stored ladder lowers no level of it. -/
theorem Committed.levels (hFiled : Filed p s) (hCommit : commit? p now s call = some c)
    (hFresh : Fresh p "ladder" s.db c) {data : Fields} (hBody : Body s.db c.hid data)
    {axis : String} {level : Json} (hLevel : levelOf data axis = some level) :
    ∃ level', levelOf (c.body p now) axis = some level' ∧ NoLower level level' := by
  have hCopy : levelOf (c.copy p) axis = some level := by
    rw [← hLevel, levelOf, levelOf, hFresh data hBody]
  obtain ⟨new, hWrote, -, -⟩ := (step_some hFiled hCommit).row
  cases hWrote with
  | created payload hData hOpen hNew =>
      obtain ⟨row, hMem, st, hRow⟩ := hBody
      exact absurd hRow.id (hNew row hMem)
  | saved => exact ⟨level, hCopy, .inl rfl⟩
  | @moved token h newState cause evidence =>
      rw [Commit.copy, levelOf_dump] at hCopy
      rw [Commit.body, levelOf_dump]
      exact ⟨level, hCopy, .inl rfl⟩
  | @awarded token h candidate proof _ _ _ _ _ _ hAward =>
      obtain ⟨-, value, hLadder, -, hRaised⟩ := award_levels hAward
      rw [Commit.copy, levelOf_dump, Option.map_eq_some_iff] at hCopy
      obtain ⟨old, hOld, rfl⟩ := hCopy
      rw [Commit.body, levelOf_dump, hLadder]
      by_cases hAxis : axis = proof.axis
      · subst hAxis
        rw [AList.lookup_insert]
        exact ⟨_, rfl, hRaised old hOld⟩
      · rw [AList.lookup_insert_ne hAxis, hOld]
        exact ⟨_, rfl, .inl rfl⟩

theorem step_levels (now : String) (s : System) (call : Call) (hFiled : Filed p s)
    (hFresh : ∀ c, commit? p now s call = some c → Fresh p "ladder" s.db c) :
    LevelsKept s.db (step p now s call).db := by
  rintro hid axis level ⟨data, hBody, hLevel⟩
  by_cases hWritten : ∃ c, commit? p now s call = some c ∧ c.hid = hid
  · obtain ⟨c, hCommit, rfl⟩ := hWritten
    obtain ⟨level', hLevel', hKept⟩ :=
      Committed.levels hFiled hCommit (hFresh c hCommit) hBody hLevel
    exact ⟨level', ⟨_, body_written hFiled hCommit, hLevel'⟩, hKept⟩
  · push Not at hWritten
    exact ⟨level, ⟨data, body_kept hFiled hWritten hBody, hLevel⟩, .inl rfl⟩

/-- An award that commits returns its copy. -/
theorem awarded_returns (token : Option DriverToken) (h : HypothesisRecord)
    (proof : LadderProof) {candidate : HypothesisRecord}
    (hCommit : commit? p now s (.award token h proof) = some (.awarded token h candidate proof)) :
    (awardLadder p now s.db token h proof).1 = .ok candidate := by
  rw [commit?] at hCommit
  split at hCommit
  · rename_i result after hAwarded
    rw [Option.some.injEq, Commit.awarded.injEq] at hCommit
    rw [hAwarded, hCommit.2.2.1]
  · cases hCommit

/-- An award that returns is stored. -/
theorem award_stored (hFiled : Filed p s) {token : Option DriverToken} {h : HypothesisRecord}
    {proof : LadderProof} {result : HypothesisRecord}
    (hReturns : (awardLadder p now s.db token h proof).1 = .ok result) :
    ∃ level, StoredLevel (step p now s (.award token h proof)).db h.id proof.axis level ∧
      NoLower proof.level.json level := by
  have hCommit : commit? p now s (.award token h proof) =
      some (.awarded token h result proof) := by
    rw [commit?]
    split
    · rename_i candidate after hAwarded
      rw [hAwarded, Except.ok.injEq] at hReturns
      rw [hReturns]
    · rename_i e after hAwarded
      rw [hAwarded] at hReturns
      cases hReturns
  obtain ⟨new, hWrote, -, -⟩ := (step_some hFiled hCommit).row
  cases hWrote with
  | awarded hOld hId hLoads hState hAward =>
      obtain ⟨hSame, value, hLadder, hValue, -⟩ := award_levels hAward
      have hBody := body_written hFiled hCommit
      rw [Commit.hid, hSame] at hBody
      refine ⟨_, ⟨_, hBody, ?_⟩, hValue⟩
      rw [Commit.body, levelOf_dump, hLadder, AList.lookup_insert, Option.map_some]

/-- In a run in which every copy that is committed has the stored ladder, no stored
level disappears or falls, `not_applicable` stays, and every award that returned is
still reflected at the end. -/
theorem stored_ladder_monotone (p : Platform) (before calls : List (String × Call))
    (hFresh : Meets p (Fresh p "ladder") (run p System.empty before) calls) :
    let s := run p System.empty before
    let later := run p s calls
    (∀ hid axis level, StoredLevel s.db hid axis level → ∃ level',
      StoredLevel later.db hid axis level' ∧ NoLower level level' ∧
      (level = LadderLevel.notApplicable.json → level' = level)) ∧
    ∀ earlier now token h proof rest, calls = earlier ++ (now, .award token h proof) :: rest →
      ∀ result, (awardLadder p now (run p s earlier).db token h proof).1 = .ok result →
      ∃ level, StoredLevel later.db h.id proof.axis level ∧ NoLower proof.level.json level := by
  intro s later
  have hFiled : Filed p s := (filed_empty p).run before
  have hRefl : ∀ db, LevelsKept db db := fun db hid axis level hLevel => ⟨level, hLevel, .inl rfl⟩
  have hTrans : ∀ a b c, LevelsKept a b → LevelsKept b c → LevelsKept a c := by
    intro a b c hab hbc hid axis level hLevel
    obtain ⟨mid, hMid, hKept⟩ := hab hid axis level hLevel
    obtain ⟨last, hLast, hKept'⟩ := hbc hid axis mid hMid
    exact ⟨last, hLast, hKept.trans hKept'⟩
  refine ⟨fun hid axis level hLevel => ?_, ?_⟩
  · obtain ⟨level', hStored, hKept⟩ :=
      run_relation hRefl hTrans step_levels hFiled hFresh hid axis level hLevel
    refine ⟨level', hStored, hKept, ?_⟩
    rintro rfl
    exact hKept.sentinel
  · rintro earlier now token h proof rest hCalls result hReturns
    have hMid : Filed p (run p s earlier) := hFiled.run earlier
    rw [hCalls] at hFresh
    have hRest := hFresh.append.2
    obtain ⟨level, hStored, hKept⟩ := award_stored hMid hReturns
    obtain ⟨level', hStored', hKept'⟩ :=
      run_relation hRefl hTrans step_levels (hMid.step now _) hRest h.id proof.axis level hStored
    have hLater : later = run p (step p now (run p s earlier) (.award token h proof)) rest := by
      simp [later, hCalls, run]
    rw [hLater]
    exact ⟨level', hStored', hKept.trans hKept'⟩

end Run
section Sample

def firstLevel : LadderMap := AList.insert "mechanism" (.int 0) ∅

def firstProof : LadderProof where
  axis := "mechanism"
  level := .int 0
  evidence := []
  certificate := none
  key := none
  witnessSha256 := none
  envHash := none
  observedRecordsSha256 := none
  tracePolicySha256 := none
  controlSha256 := none
  crossCheckSha256 := none

def sampleAward : String × Call :=
  (sampleTime, .award (some sampleToken) (sample .open ∅ 0) firstProof)

theorem firstProof_awards : Ladder.award sampleHost sampleSecret (some sampleToken)
    (some (sample .open ∅ 0)) firstProof.axis firstProof.level (some firstProof) =
      .ok (true, some (sample .open firstLevel 0)) := by
  have hValid : Ladder.validateAward sampleHost sampleSecret (some sampleToken)
      (some (sample .open ∅ 0)) firstProof.axis firstProof.level (some firstProof) = .ok true := by
    decide
  rw [Ladder.award, hValid]
  rfl

/-- Redaction leaves the hypothesis with its first level. -/
theorem sample_firstLevel : Plain (fun _ => false) (sample .open firstLevel 0).dump :=
  dump_plain (by decide)

/-- The columns of the sample do not depend on its state and its levels. -/
theorem columns_sample (state : HState) (ladder : LadderMap) (count : Nat) :
    bindColumns Engine.strict (sample state ladder count).dump =
      bindColumns Engine.strict (sample .open ∅ 0).dump := by
  simp only [bindColumns, fieldOf, lens_dump, protocolType_dump, priorP_dump]
  rfl

theorem sample_awarded : commit? samplePlatform sampleTime
      (run samplePlatform System.empty [sampleCreate]) sampleAward.2 = some (.awarded
        (some sampleToken) (sample .open ∅ 0) (sample .open firstLevel 0) firstProof) ∧
    Holds samplePlatform (run samplePlatform (run samplePlatform System.empty [sampleCreate])
      [sampleAward]) "H-001" .open (sample .open firstLevel 0).dump :=
  Holds.awards (sample .open firstLevel 0) sample_created.2 rfl firstProof_awards
    sample_firstLevel (columns_sample ..)

/-- The transition that is given the copy with the level. -/
def awardedBegin : String × Call := (sampleTime, .transition (some sampleToken)
  (sample .open firstLevel 0) .investigating "reviewed" ["task:T-001", "scope:Vault"])

/-- The transition that is given the copy with the level commits. -/
theorem awardedBegin_moves {s : System} {data : Fields}
    (hHolds : Holds samplePlatform s "H-001" .open data) :
    commit? samplePlatform awardedBegin.1 s awardedBegin.2 = some (.moved (some sampleToken)
      (sample .open firstLevel 0) .investigating "reviewed" ["task:T-001", "scope:Vault"]) := by
  have hValid : Lifecycle.validateTransition sampleHost sampleSecret (some sampleToken)
      (sample .open firstLevel 0) .investigating "reviewed" ["task:T-001", "scope:Vault"] =
        .ok () := by
    decide
  have hPlain : Plain (fun _ => false) (sample .investigating firstLevel 0).dump :=
    dump_plain (by decide)
  exact (Holds.moves (h := sample .open firstLevel 0) hHolds rfl hValid hPlain).1

/-- The award that is given the stored copy is kept through a transition that is given the
copy with the level. -/
theorem fresh_award_kept : ∃ level, StoredLevel (run samplePlatform
    (run samplePlatform System.empty [sampleCreate]) ([sampleAward] ++ [awardedBegin])).db "H-001"
      "mechanism" level ∧ NoLower (.int 0) level := by
  have hCreated := sample_created.2
  have hCommit := sample_awarded.1
  have hFirst : Meets samplePlatform (Fresh samplePlatform "ladder")
      (run samplePlatform System.empty [sampleCreate]) [sampleAward] := by
    refine ⟨fun c hOther data hBody => ?_, trivial⟩
    obtain rfl := Option.some.inj (hCommit.symm.trans hOther)
    rw [hCreated.ready.body_unique hBody hCreated.body]
    exact congrArg (getField? "ladder") sample_open.fields
  have hFresh : Meets samplePlatform (Fresh samplePlatform "ladder")
      (run samplePlatform System.empty [sampleCreate]) ([sampleAward] ++ [awardedBegin]) := by
    refine hFirst.snoc fun c hOther data hBody => ?_
    obtain rfl := Option.some.inj ((awardedBegin_moves sample_awarded.2).symm.trans hOther)
    rw [sample_awarded.2.ready.body_unique hBody sample_awarded.2.body]
    exact congrArg (getField? "ladder") sample_firstLevel.fields
  have hReturns := awarded_returns (some sampleToken) (sample .open ∅ 0) firstProof hCommit
  have hKept := (stored_ladder_monotone samplePlatform [sampleCreate]
    ([sampleAward] ++ [awardedBegin]) hFresh).2 [] sampleTime (some sampleToken)
    (sample .open ∅ 0) firstProof [awardedBegin] rfl (sample .open firstLevel 0)
  rw [run_nil] at hKept
  exact hKept hReturns

/-- A transition that is given the copy from before the award takes the level away. -/
theorem stale_transition_drops_level : ¬ ∀ (p : Platform) (before calls : List (String × Call))
    (hid axis : String) (level : Json), StoredLevel (run p System.empty before).db hid axis level →
      ∃ level', StoredLevel (run p (run p System.empty before) calls).db hid axis level' := by
  intro h
  have hAwarded := sample_awarded.2
  rw [← run_append] at hAwarded
  have hLevel : StoredLevel (run samplePlatform System.empty ([sampleCreate] ++ [sampleAward])).db
      "H-001" "mechanism" (.int 0) := by
    refine ⟨_, hAwarded.body, ?_⟩
    rw [← sample_firstLevel.fields, levelOf_dump]
    rfl
  obtain ⟨level, data, hBody, hStored⟩ := h samplePlatform ([sampleCreate] ++ [sampleAward])
    [sampleBegin] "H-001" "mechanism" (.int 0) hLevel
  have hValid : Lifecycle.validateTransition sampleHost sampleSecret (some sampleToken)
      (sample .open ∅ 0) .investigating "reviewed" ["task:T-001", "scope:Vault"] = .ok () := by
    decide
  have hBegun := (sample_moves (sample .investigating ∅ 0) hAwarded hValid rfl
    sample_investigating).2
  rw [hBegun.ready.body_unique hBody hBegun.body, ← sample_investigating.fields] at hStored
  have hNone := @levelOf_dump (fun _ => false) (sample .investigating ∅ 0) "mechanism"
  rw [hStored] at hNone
  cases hNone

end Sample
end L0vi0x.Core.Store
