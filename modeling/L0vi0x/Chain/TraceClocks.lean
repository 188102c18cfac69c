import L0vi0x.Chain.TracePolicy
import L0vi0x.Chain.TraceRecords

/-! The two clocks of a trace: what one record does to them, and where they stand after
every record of an accepted payload. -/
namespace L0vi0x.Chain

open L0vi0x.Python L0vi0x.Core

section Clock

/-- A clock: where it stands, and how far it was advanced. -/
structure Clock where
  now : Option Int
  advanced : Int

/-- One step of a clock, which moves exactly when it is called for, and never back. -/
inductive Clock.Step (called : Prop) (c : Clock) : Clock → Prop
  | kept (h : ¬ called) : Clock.Step called c c
  | moved {old now : Int} (h : called) (hOld : c.now = some old) (hForward : old ≤ now) :
      Clock.Step called c ⟨some now, c.advanced + (now - old)⟩

/-- A clock that stands at least where another one stands. -/
def Clock.NotBefore (c d : Clock) : Prop :=
  ∀ old, c.now = some old → ∃ now, d.now = some now ∧ old ≤ now

theorem Clock.NotBefore.refl (c : Clock) : c.NotBefore c :=
  fun old h => ⟨old, h, le_rfl⟩

theorem Clock.NotBefore.trans {c d e : Clock} (h : c.NotBefore d) (h' : d.NotBefore e) :
    c.NotBefore e := by
  intro old hOld
  obtain ⟨middle, hMiddle, hFirst⟩ := h old hOld
  obtain ⟨now, hNow, hSecond⟩ := h' middle hMiddle
  exact ⟨now, hNow, hFirst.trans hSecond⟩

theorem Clock.Step.notBefore {called : Prop} {c d : Clock} (h : Clock.Step called c d) :
    c.NotBefore d := by
  cases h with
  | kept => exact .refl c
  | @moved old now _ hOld hForward =>
      intro old' hOld'
      rw [hOld, Option.some.injEq] at hOld'
      exact ⟨now, rfl, hOld' ▸ hForward⟩

/-- The account of a clock: it stands where it started plus its advance, and one that
never started was never called for. -/
structure Clock.Kept (initial : Option Int) (called : Prop) (c : Clock) : Prop where
  present : ∀ start, initial = some start → ∃ now, c.now = some now ∧ c.advanced = now - start
  absent : initial = none → c.now = none ∧ c.advanced = 0 ∧ ¬ called
  nonneg : 0 ≤ c.advanced

/-- The account of a clock is kept at its start. -/
theorem Clock.Kept.start (initial : Option Int) : Clock.Kept initial False ⟨initial, 0⟩ where
  present start h := ⟨start, h, by simp⟩
  absent h := ⟨h, rfl, id⟩
  nonneg := le_rfl

/-- A step keeps the account of a clock. -/
theorem Clock.Kept.step {initial : Option Int} {before called : Prop} {c d : Clock}
    (h : Clock.Kept initial before c) (hStep : Clock.Step called c d) :
    Clock.Kept initial (before ∨ called) d := by
  cases hStep with
  | kept hNot =>
      exact ⟨h.present, fun hNone => ⟨(h.absent hNone).1, (h.absent hNone).2.1,
        not_or.mpr ⟨(h.absent hNone).2.2, hNot⟩⟩, h.nonneg⟩
  | @moved old now _ hOld hForward =>
      have hSum := h.nonneg
      refine ⟨fun start hStart => ⟨now, rfl, ?_⟩, fun hNone => ?_, ?_⟩
      · obtain ⟨old', hOld', hAdvanced⟩ := h.present start hStart
        rw [hOld, Option.some.injEq] at hOld'
        change c.advanced + (now - old) = now - start
        omega
      · rw [(h.absent hNone).1] at hOld
        cases hOld
      · change 0 ≤ c.advanced + (now - old)
        omega

/-- A clock between the start and a limit beyond it. -/
def Clock.Within (initial : Option Int) (limit : Int) (c : Clock) : Prop :=
  ∀ start now, initial = some start → c.now = some now → start ≤ now ∧ now ≤ start + limit

/-- A clock from which the last one is reached going forward stays within a limit on the
whole advance. -/
theorem Clock.Kept.within {initial : Option Int} {called called' : Prop} {c last : Clock}
    {limit : Int} (h : Clock.Kept initial called c) (hLast : Clock.Kept initial called' last)
    (hForward : c.NotBefore last) (hLimit : last.advanced ≤ limit) : c.Within initial limit := by
  intro start now hStart hNow
  obtain ⟨now', hNow', hAdvanced⟩ := h.present start hStart
  obtain ⟨final, hFinal, hTotal⟩ := hLast.present start hStart
  obtain ⟨final', hFinal', hLe⟩ := hForward now hNow
  have hSum := h.nonneg
  rw [hNow, Option.some.injEq] at hNow'
  rw [hFinal, Option.some.injEq] at hFinal'
  omega

end Clock

section Records

variable {host : Host} {catalog : List (String × String)}

def ParseState.timeClock (s : ParseState) : Clock := ⟨s.prevTimestamp, s.warpSum⟩

def ParseState.blockClock (s : ParseState) : Clock := ⟨s.prevBlock, s.rollSum⟩

/-- Whether one of the calls has a name, in any case. -/
def CallsNamed (name : String) (calls : List CheatcodeCall) : Prop :=
  ∃ c ∈ calls, lower c.name = name

theorem callsNamed_nil (name : String) : ¬ CallsNamed name [] := by
  rintro ⟨c, hc, _⟩
  cases hc

theorem callsNamed_append {name : String} {first second : List CheatcodeCall} :
    CallsNamed name (first ++ second) ↔ CallsNamed name first ∨ CallsNamed name second := by
  simp only [CallsNamed, List.mem_append, or_and_right, exists_or]

theorem callsNamed_singleton {name : String} {c : CheatcodeCall} :
    CallsNamed name [c] ↔ lower c.name = name := by
  simp [CallsNamed]

/-- What one record does to the calls and the clocks. -/
structure ClocksStep (s t : ParseState) (added : List CheatcodeCall) : Prop where
  calls : t.cheatcodes = s.cheatcodes ++ added
  clocks : Clock.Step (CallsNamed "warp" added) s.timeClock t.timeClock ∧
    Clock.Step (CallsNamed "roll" added) s.blockClock t.blockClock

/-- A record to the cheatcode address makes one call, by its name. -/
theorem callsNamed_recorded {item : Fields} {frame : TraceFrame} (name : String)
    (hTo : frame.toAddress = some cheatcodeAddress) :
    CallsNamed name (recordedCheatcode host catalog item frame) ↔
      lower (cheatcodeName host frame item) = name := by
  rw [recordedCheatcode, if_pos hTo, callsNamed_singleton]

/-- A record moves the clocks only by the call that it stands for. -/
theorem recordCheatcode_clocks {item : Fields} {frame : TraceFrame} {s t : ParseState}
    (h : recordCheatcode host catalog item frame s = .ok t) :
    ClocksStep s t (recordedCheatcode host catalog item frame) := by
  refine ⟨recordCheatcode_calls h, ?_⟩
  unfold recordCheatcode at h
  by_cases hTo : frame.toAddress = some cheatcodeAddress
  · have hNot : ¬ frame.toAddress ≠ some cheatcodeAddress := fun hNe => hNe hTo
    have hDiffer : ¬ ("warp" = "roll") := by decide
    rw [callsNamed_recorded _ hTo, callsNamed_recorded _ hTo]
    simp only [if_neg hNot] at h
    by_cases hWarp : lower (cheatcodeName host frame item) = "warp"
    · simp only [if_pos hWarp, bind_eq_ok, pure_eq_ok] at h
      obtain ⟨value, _, ⟨now, step⟩, hAdvance, rfl⟩ := h
      obtain ⟨old, _, hOld, hLe, rfl⟩ := advanceClock_eq_ok.mp hAdvance
      exact ⟨.moved hWarp hOld hLe, .kept fun hRoll => hDiffer (hWarp.symm.trans hRoll)⟩
    · simp only [if_neg hWarp] at h
      by_cases hRoll : lower (cheatcodeName host frame item) = "roll"
      · simp only [if_pos hRoll, bind_eq_ok, pure_eq_ok] at h
        obtain ⟨value, _, ⟨now, step⟩, hAdvance, rfl⟩ := h
        obtain ⟨old, _, hOld, hLe, rfl⟩ := advanceClock_eq_ok.mp hAdvance
        exact ⟨.kept hWarp, .moved hRoll hOld hLe⟩
      · simp only [if_neg hRoll, pure_eq_ok] at h
        subst h
        exact ⟨.kept hWarp, .kept hRoll⟩
  · simp only [ne_eq, hTo, not_false_eq_true, ↓reduceIte, pure_eq_ok] at h
    subst h
    rw [recordedCheatcode, if_neg hTo]
    exact ⟨.kept (callsNamed_nil _), .kept (callsNamed_nil _)⟩

/-- A record that is parsed moves the clocks only by its calls. -/
theorem parseRecord_clocks {s t : ParseState} {record : Json}
    (h : parseRecord host catalog s record = .ok t) : ∃ added, ClocksStep s t added := by
  cases record with
  | obj item =>
      simp only [parseRecord, bind_eq_ok, pure_eq_ok] at h
      obtain ⟨frame, _, u, hCheat, _, _, _, _, rfl⟩ := h
      have hStep := recordCheatcode_clocks hCheat
      exact ⟨_, hStep.calls, hStep.clocks⟩
  | _ => exact absurd h (by simp [parseRecord])

/-- The accounts of both clocks after some records. -/
structure ClocksKept (timestamp block : Option Int) (s : ParseState) : Prop where
  time : Clock.Kept timestamp (CallsNamed "warp" s.cheatcodes) s.timeClock
  block : Clock.Kept block (CallsNamed "roll" s.cheatcodes) s.blockClock

/-- The accounts are kept after all records, by induction on them. -/
theorem clocksKept_of_loop {records : List Json} {timestamp block : Option Int} {s : ParseState}
    (h : records.foldlM (parseRecord host catalog) (.initial timestamp block) = .ok s) :
    ClocksKept timestamp block s := by
  refine foldlM_induction (fun _ s => ClocksKept timestamp block s) ?_ ?_ h
  · have hNone : ∀ name, CallsNamed name (ParseState.initial timestamp block).cheatcodes ↔ False :=
      fun name => iff_false_intro (callsNamed_nil name)
    refine ⟨?_, ?_⟩
    · rw [hNone]
      exact .start timestamp
    · rw [hNone]
      exact .start block
  · intro _ s record next hKept hStep
    obtain ⟨added, hAdded⟩ := parseRecord_clocks hStep
    refine ⟨?_, ?_⟩
    · rw [hAdded.calls, callsNamed_append]
      exact hKept.time.step hAdded.clocks.1
    · rw [hAdded.calls, callsNamed_append]
      exact hKept.block.step hAdded.clocks.2

/-- More records never take a clock back. -/
theorem notBefore_of_loop {records : List Json} {s final : ParseState}
    (h : records.foldlM (parseRecord host catalog) s = .ok final) :
    s.timeClock.NotBefore final.timeClock ∧ s.blockClock.NotBefore final.blockClock := by
  refine foldlM_induction (fun _ t => s.timeClock.NotBefore t.timeClock ∧
    s.blockClock.NotBefore t.blockClock) ⟨.refl _, .refl _⟩ ?_ h
  rintro _ t record next ⟨hTime, hBlock⟩ hStep
  obtain ⟨added, hAdded⟩ := parseRecord_clocks hStep
  exact ⟨hTime.trans hAdded.clocks.1.notBefore, hBlock.trans hAdded.clocks.2.notBefore⟩

end Records

section Preorder

def listedFrames : Json → List Json
  | .arr items => items
  | _ => []

/-- The frames below a frame: under `children`, or else under `calls`. -/
def childFrames (fields : Fields) : List Json :=
  ((getField? "children" fields).orElse fun _ => getField? "calls" fields).elim [] listedFrames

/-- A list of frames with, right after each, the frames below it. -/
inductive Preorder : List Json → List Json → Prop
  | nil : Preorder [] []
  | leaf {j : Json} {rest flat : List Json} (h : j.isObj = false) (hRest : Preorder rest flat) :
      Preorder (j :: rest) (j :: flat)
  | frame {fields : Fields} {rest below flat : List Json}
      (hBelow : Preorder (childFrames fields) below) (hRest : Preorder rest flat) :
      Preorder (.obj fields :: rest)
        (.obj (eraseField "calls" (eraseField "children" fields)) :: (below ++ flat))

/-- The flattening of a value, in front of other flattened frames. -/
def FlattensInOrder (j : Json) : Prop :=
  (∀ rest flat, Preorder rest flat → Preorder (j :: rest) (visit j ++ flat)) ∧
    Preorder (listedFrames j) (visitItems j)

/-- A list of values is flattened value by value. -/
theorem preorder_of_items {items : List Json} (ih : ∀ j ∈ items, FlattensInOrder j) :
    Preorder items (flattenRecords items) := by
  induction items with
  | nil => exact .nil
  | cons j rest ihRest =>
      rw [List.forall_mem_cons] at ih
      exact ih.1.1 rest _ (ihRest ih.2)

/-- The values under a key are flattened in their order. -/
theorem preorder_of_field {fields : Fields} (ih : ∀ p ∈ fields, FlattensInOrder p.2)
    (key : String) :
    Preorder ((getField? key fields).elim [] listedFrames)
      ((getField? key fields).elim [] visitItems) := by
  induction fields with
  | nil => exact .nil
  | cons p rest ihRest =>
      obtain ⟨k, v⟩ := p
      rw [List.forall_mem_cons] at ih
      rw [getField?]
      by_cases hKey : k = key
      · simpa [hKey] using ih.1.2
      · simpa [hKey] using ihRest ih.2

/-- Every value is flattened depth first. -/
theorem flattensInOrder (j : Json) : FlattensInOrder j := by
  induction j using Json.induction with
  | arr items ih => exact ⟨fun rest flat h => .leaf rfl h, preorder_of_items ih⟩
  | obj fields ih =>
      refine ⟨fun rest flat h => ?_, .nil⟩
      have hBelow : Preorder (childFrames fields)
          ((visitField "children" fields).getD ((visitField "calls" fields).getD [])) := by
        have hChildren := preorder_of_field ih "children"
        have hCalls := preorder_of_field ih "calls"
        rw [childFrames, visitField_eq_map, visitField_eq_map]
        cases hHere : getField? "children" fields with
        | some v => simpa [hHere] using hChildren
        | none => 
            cases hOther : getField? "calls" fields <;> simpa [hOther] using hCalls
      rw [visit, List.cons_append]
      exact .frame hBelow h
  | _ => exact ⟨fun rest flat h => .leaf rfl h, .nil⟩

/-- The flattening lists every frame before the frames below it, in order. -/
theorem flattenRecords_preorder (records : List Json) :
    Preorder records (flattenRecords records) :=
  preorder_of_items fun j _ => flattensInOrder j

end Preorder

section Accounting

variable {host : Host} {catalog : List (String × String)}

/-- The parser has the state `s` after the records `done`. -/
def StateAfter (host : Host) (catalog : List (String × String)) (t : TraceSummary)
    (done : List Json) (s : ParseState) : Prop :=
  done.foldlM (parseRecord host catalog) (.initial t.initialTimestamp t.initialBlock) = .ok s

/-- The time accounting of an accepted payload. -/
structure TimeAccounted (host : Host) (catalog : List (String × String)) (payload : TracePayload)
    (t : TraceSummary) : Prop where
  /-- The records are the frames in preorder, and the clocks start where the payload says. -/
  starts : ∃ value frames, payload.value? = some value ∧ traceRecords value = .ok frames ∧
    Preorder frames payload.records ∧
    initialClock value "initial_timestamp" = .ok t.initialTimestamp ∧
    initialClock value "initial_block" = .ok t.initialBlock
  time : Clock.Kept t.initialTimestamp (CallsNamed "warp" t.cheatcodes)
    ⟨t.finalTimestamp, t.cumulativeWarpS⟩
  block : Clock.Kept t.initialBlock (CallsNamed "roll" t.cheatcodes)
    ⟨t.finalBlock, t.cumulativeRoll⟩
  reached : ∀ done rest, payload.records = done ++ rest → ∃ s, StateAfter host catalog t done s
  /-- No record takes a clock back. -/
  forward : ∀ done record s next, StateAfter host catalog t done s →
    StateAfter host catalog t (done ++ [record]) next →
    s.timeClock.NotBefore next.timeClock ∧ s.blockClock.NotBefore next.blockClock
  within : ∀ maxTimeAdvanceS maxBlockAdvance,
    enforceTimeBlockLimits t maxTimeAdvanceS maxBlockAdvance = .ok () →
    ∀ done rest s, payload.records = done ++ rest → StateAfter host catalog t done s →
      s.timeClock.Within t.initialTimestamp maxTimeAdvanceS ∧
        s.blockClock.Within t.initialBlock maxBlockAdvance

/-- A trace within the limits has advanced no further than they allow. -/
theorem enforceTimeBlockLimits_eq_ok {t : TraceSummary} {maxTimeAdvanceS maxBlockAdvance : Int}
    (h : enforceTimeBlockLimits t maxTimeAdvanceS maxBlockAdvance = .ok ()) :
    t.cumulativeWarpS ≤ maxTimeAdvanceS ∧ t.cumulativeRoll ≤ maxBlockAdvance := by
  simp only [enforceTimeBlockLimits, bind_eq_ok, raiseIf_eq_ok, decide_eq_false_iff_not] at h
  obtain ⟨_, _, _, hWarp, hRoll⟩ := h
  exact ⟨not_lt.mp hWarp, not_lt.mp hRoll⟩

/-- The clocks of every accepted trace are accounted for, and stay within the limits
that accept it. -/
theorem time_accounted {payload : TracePayload} {t : TraceSummary}
    (h : parseTrace host payload catalog = .ok t) : TimeAccounted host catalog payload t := by
  obtain ⟨timestamp, block, final, hLoop⟩ := loopOf_parseTrace h
  obtain ⟨sha, rfl⟩ := hLoop.summary
  have hFinal := clocksKept_of_loop hLoop.loop
  have hSplit : ∀ done rest, payload.records = done ++ rest → ∃ s,
      done.foldlM (parseRecord host catalog) (.initial timestamp block) = .ok s ∧
        rest.foldlM (parseRecord host catalog) s = .ok final := by
    intro done rest hRecords
    have hRun := hLoop.loop
    rw [hRecords, List.foldlM_append, bind_eq_ok] at hRun
    exact hRun
  refine ⟨?_, hFinal.time, hFinal.block, ?_, ?_, ?_⟩
  · obtain ⟨value, frames, hValue, hFrames, hFlat, hTimestamp, hBlock⟩ := hLoop.value
    exact ⟨value, frames, hValue, hFrames, by rw [hFlat]; exact flattenRecords_preorder frames,
      hTimestamp, hBlock⟩
  · intro done rest hRecords
    obtain ⟨s, hDone, _⟩ := hSplit done rest hRecords
    exact ⟨s, hDone⟩
  · intro done record s next hDone hNext
    unfold StateAfter at hDone hNext
    rw [List.foldlM_append, bind_eq_ok] at hNext
    obtain ⟨s', hDone', hRecord⟩ := hNext
    rw [hDone, Except.ok.injEq] at hDone'
    subst hDone'
    exact notBefore_of_loop hRecord
  · intro maxTimeAdvanceS maxBlockAdvance hLimits done rest s hRecords hDone
    obtain ⟨hWarp, hRoll⟩ := enforceTimeBlockLimits_eq_ok hLimits
    obtain ⟨s', hDone', hRest⟩ := hSplit done rest hRecords
    have hState : s' = s := Except.ok.inj (hDone'.symm.trans hDone)
    subst hState
    have hKept := clocksKept_of_loop hDone
    have hForward := notBefore_of_loop hRest
    exact ⟨hKept.time.within hFinal.time hForward.1 hWarp,
      hKept.block.within hFinal.block hForward.2 hRoll⟩

def warpAndRoll : TracePayload := .parsed (.obj [("initial_timestamp", .int 5),
  ("initial_block", .int 7), ("trace", .arr [.obj [("to", .str cheatcodeAddress),
    ("cheatcode", .str "warp"), ("args", .arr [.int 9]), ("children", .arr [
      .obj [("to", .str cheatcodeAddress), ("cheatcode", .str "Roll"), ("absolute", .int 8)]])]])])

/-- The two nested frames are accounted for. -/
theorem warpAndRoll_accounted : ∃ t,
    parseTrace (.digesting hexOfBytes) warpAndRoll [] = .ok t ∧
      TimeAccounted (.digesting hexOfBytes) [] warpAndRoll t := by
  have hParse : (parseTrace (.digesting hexOfBytes) warpAndRoll []).toBool = true := by
    decide
  obtain ⟨t, h⟩ := ok_of_toBool hParse
  exact ⟨t, h, time_accounted h⟩

end Accounting
end L0vi0x.Chain
