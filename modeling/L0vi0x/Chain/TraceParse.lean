import L0vi0x.Chain.Trace

/-! What the loop of `parse_trace` keeps: the frames and the assertion events are
those of the records, and each clock stands at its initial value plus the sum of
its advances. -/
namespace L0vi0x.Chain

open L0vi0x.Python L0vi0x.Core

/-- The assertion events that a frame contributes. -/
def TraceFrame.assertions (f : TraceFrame) : List Fields := assertionsOf f f.logs

section Clock

/-- The account of a clock: where it started, where it stands, the sum of its
advances and the values that it was set to. -/
structure ClockAccount (initial prev : Option Int) (sum : Int) (values : List Int) : Prop where
  position : prev = initial.map (· + sum)
  nonneg : 0 ≤ sum
  reached : ∀ v ∈ values, ∃ start, initial = some start ∧ v ≤ start + sum
  last : sum = 0 ∨ ∃ v ∈ values, ∃ start, initial = some start ∧ v = start + sum

theorem ClockAccount.start (initial : Option Int) : ClockAccount initial initial 0 [] where
  position := by cases initial <;> simp
  nonneg := le_rfl
  reached := by simp
  last := .inl rfl

/-- Setting a clock that does not go back keeps its account. -/
theorem ClockAccount.advance {initial prev : Option Int} {sum now : Int} {values : List Int}
    (h : ClockAccount initial prev sum values) {old : Int} (hPrev : prev = some old)
    (hForward : old ≤ now) :
    ClockAccount initial (some now) (sum + (now - old)) (values ++ [now]) := by
  obtain ⟨start, hStart, hOld⟩ : ∃ start, initial = some start ∧ start + sum = old := by
    have hPos := h.position
    rw [hPrev] at hPos
    cases initial with
    | none => simp at hPos
    | some start => exact ⟨start, rfl, by simpa using hPos.symm⟩
  have hNow : start + (sum + (now - old)) = now := by omega
  have hSum := h.nonneg
  refine ⟨by simp [hStart, hNow], by omega, ?_, .inr ⟨now, by simp, start, hStart, hNow.symm⟩⟩
  intro v hv
  refine ⟨start, hStart, ?_⟩
  rcases List.mem_append.mp hv with hv | hv
  · obtain ⟨start', hStart', hLe⟩ := h.reached v hv
    rw [hStart, Option.some.injEq] at hStart'
    omega
  · rw [List.mem_singleton] at hv
    omega

/-- The advances stay within a limit exactly when no value lies beyond it. -/
theorem ClockAccount.sum_le_iff {initial prev : Option Int} {sum limit : Int} {values : List Int}
    (h : ClockAccount initial prev sum values) :
    sum ≤ limit ↔ 0 ≤ limit ∧ ∀ v ∈ values, v ≤ initial.getD 0 + limit := by
  have hSum := h.nonneg
  constructor
  · intro hLe
    refine ⟨by omega, fun v hv => ?_⟩
    obtain ⟨start, hStart, hReached⟩ := h.reached v hv
    simp only [hStart, Option.getD_some]
    omega
  · rintro ⟨hLimit, hValues⟩
    rcases h.last with hZero | ⟨v, hv, start, hStart, hLast⟩
    · omega
    · have hBound := hValues v hv
      simp only [hStart, Option.getD_some] at hBound
      omega

end Clock

section Records

variable (host : Host) (catalog : List (String × String))

/-- The value that a record sets the clock of cheatcode `name` to, when it is such
a call. -/
def clockValue (name : String) (record : Json) : Option Int :=
  match record with
  | .obj item => match readFrame item with
      | .ok frame =>
          if frame.toAddress = some cheatcodeAddress ∧
              lower (cheatcodeName host frame item) = name then
            match firstInt (absoluteValue item) with
            | .ok value => value
            | .error _ => none
          else none
      | .error _ => none
  | _ => none

/-- The values that the records of a trace set a clock to, in order. -/
def clockValues (name : String) (records : List Json) : List Int :=
  records.filterMap (clockValue host name)

/-- A clock is set when it is running, and not backward. -/
theorem advanceClock_eq_ok {name initial backward : String} {value prev : Option Int}
    {now step : Int} :
    advanceClock name initial backward value prev = .ok (now, step) ↔
      ∃ old, value = some now ∧ prev = some old ∧ old ≤ now ∧ step = now - old := by
  cases value with
  | none => simp [advanceClock]
  | some new =>
      cases prev with
      | none => simp [advanceClock]
      | some old =>
          by_cases hBack : new < old
          · simp only [advanceClock, if_pos hBack, raise_ne_ok, false_iff]
            rintro ⟨old', hNew, hOld, hLe, _⟩
            simp only [Option.some.injEq] at hNew hOld
            omega
          · simp only [advanceClock, if_neg hBack, pure_eq_ok, Prod.mk.injEq, Option.some.injEq]
            constructor
            · rintro ⟨rfl, rfl⟩
              exact ⟨old, rfl, rfl, by omega, rfl⟩
            · rintro ⟨old', rfl, rfl, _, rfl⟩
              exact ⟨rfl, rfl⟩

/-- What recording a cheatcode changes: the calls, and at most one clock. -/
structure CheatcodeStep (item : Fields) (s t : ParseState) : Prop where
  frames : t.frames = s.frames
  transfers : t.transfers = s.transfers
  assertions : t.assertions = s.assertions
  gasUsed : t.gasUsed = s.gasUsed
  warp : ∀ {initial values}, ClockAccount initial s.prevTimestamp s.warpSum values →
    ClockAccount initial t.prevTimestamp t.warpSum
      (values ++ (clockValue host "warp" (.obj item)).toList)
  roll : ∀ {initial values}, ClockAccount initial s.prevBlock s.rollSum values →
    ClockAccount initial t.prevBlock t.rollSum
      (values ++ (clockValue host "roll" (.obj item)).toList)

variable {host catalog}

/-- The value that a record sets a clock to, in terms of its frame. -/
theorem clockValue_eq {name : String} {item : Fields} {frame : TraceFrame}
    (hFrame : readFrame item = .ok frame) :
    clockValue host name (.obj item) =
      if frame.toAddress = some cheatcodeAddress ∧
          lower (cheatcodeName host frame item) = name then
        (match firstInt (absoluteValue item) with
          | .ok value => value
          | .error _ => none)
      else none := by
  simp only [clockValue, hFrame]

theorem recordCheatcode_step {item : Fields} {frame : TraceFrame} {s t : ParseState}
    (hFrame : readFrame item = .ok frame)
    (h : recordCheatcode host catalog item frame s = .ok t) :
    CheatcodeStep host item s t := by
  unfold recordCheatcode at h
  by_cases hTo : frame.toAddress = some cheatcodeAddress
  · have hNot : ¬ frame.toAddress ≠ some cheatcodeAddress := fun hNe => hNe hTo
    have hDiffer : ¬ ("warp" = "roll") := by decide
    simp only [if_neg hNot] at h
    by_cases hWarp : lower (cheatcodeName host frame item) = "warp"
    · simp only [if_pos hWarp, bind_eq_ok, pure_eq_ok] at h
      obtain ⟨value, hValue, ⟨now, step⟩, hAdvance, rfl⟩ := h
      obtain ⟨old, rfl, hOld, hLe, rfl⟩ := advanceClock_eq_ok.mp hAdvance
      refine ⟨rfl, rfl, rfl, rfl, fun hAccount => ?_, fun hAccount => ?_⟩
      · simpa [clockValue_eq hFrame, hTo, hWarp, hValue] using hAccount.advance hOld hLe
      · simpa [clockValue_eq hFrame, hWarp, hDiffer] using hAccount
    · simp only [if_neg hWarp] at h
      by_cases hRoll : lower (cheatcodeName host frame item) = "roll"
      · simp only [if_pos hRoll, bind_eq_ok, pure_eq_ok] at h
        obtain ⟨value, hValue, ⟨now, step⟩, hAdvance, rfl⟩ := h
        obtain ⟨old, rfl, hOld, hLe, rfl⟩ := advanceClock_eq_ok.mp hAdvance
        refine ⟨rfl, rfl, rfl, rfl, fun hAccount => ?_, fun hAccount => ?_⟩
        · simpa [clockValue_eq hFrame, hWarp] using hAccount
        · simpa [clockValue_eq hFrame, hTo, hRoll, hValue] using hAccount.advance hOld hLe
      · simp only [if_neg hRoll, pure_eq_ok] at h
        subst h
        refine ⟨rfl, rfl, rfl, rfl, fun hAccount => ?_, fun hAccount => ?_⟩
        · simpa [clockValue_eq hFrame, hWarp] using hAccount
        · simpa [clockValue_eq hFrame, hRoll] using hAccount
  · simp only [ne_eq, hTo, not_false_eq_true, ↓reduceIte, pure_eq_ok] at h
    subst h
    refine ⟨rfl, rfl, rfl, rfl, fun hAccount => ?_, fun hAccount => ?_⟩
    · simpa [clockValue_eq hFrame, hTo] using hAccount
    · simpa [clockValue_eq hFrame, hTo] using hAccount

/-- The logs of a frame are those that its record lists. -/
theorem readFrame_logs {item : Fields} {frame : TraceFrame} (h : readFrame item = .ok frame) :
    frame.logs = listedLogs ((Json.obj item).getD "logs" (.arr [])) := by
  simp only [readFrame, bind_eq_ok, pure_eq_ok] at h
  obtain ⟨_, _, _, _, _, _, _, _, _, _, rfl⟩ := h
  rfl

/-- The logs that the loop iterates over are those of the frame, but for characters
and keys, which are no logs. -/
theorem assertionsOf_iter {frame : TraceFrame} {item : Fields} {logs : List Json}
    (hFrame : readFrame item = .ok frame)
    (hLogs : ((Json.obj item).getD "logs" (.arr [])).iter = .ok logs) :
    assertionsOf frame logs = frame.assertions := by
  unfold TraceFrame.assertions
  rw [readFrame_logs hFrame]
  unfold listedLogs
  cases hValue : (Json.obj item).getD "logs" (.arr []) with
  | arr items =>
      rw [hValue, Json.iter, pure_eq_ok] at hLogs
      rw [hLogs]
  | obj fields =>
      rw [hValue, Json.iter, pure_eq_ok] at hLogs
      subst hLogs
      simp [assertionsOf, List.filterMap_map]
  | str s =>
      rw [hValue, Json.iter, pure_eq_ok] at hLogs
      subst hLogs
      simp [assertionsOf, List.filterMap_map]
  | _ => simp [hValue, Json.iter] at hLogs

/-- One pass of the loop: what it appends, and what it does to the clocks. -/
theorem parseRecord_eq_ok {s t : ParseState} {record : Json}
    (h : parseRecord host catalog s record = .ok t) :
    ∃ item frame, record = .obj item ∧ readFrame item = .ok frame ∧
      t.frames = s.frames ++ [frame] ∧ t.assertions = s.assertions ++ frame.assertions ∧
      (∀ {initial values}, ClockAccount initial s.prevTimestamp s.warpSum values →
        ClockAccount initial t.prevTimestamp t.warpSum
          (values ++ (clockValue host "warp" record).toList)) ∧
      (∀ {initial values}, ClockAccount initial s.prevBlock s.rollSum values →
        ClockAccount initial t.prevBlock t.rollSum
          (values ++ (clockValue host "roll" record).toList)) := by
  cases record with
  | obj item =>
      simp only [parseRecord, bind_eq_ok, pure_eq_ok] at h
      obtain ⟨frame, hFrame, u, hCheat, transfers, hTransfers, logs, hLogs, rfl⟩ := h
      have hStep := recordCheatcode_step hFrame hCheat
      refine ⟨item, frame, rfl, hFrame, hStep.frames, ?_, hStep.warp, hStep.roll⟩
      simp only [hStep.assertions, assertionsOf_iter hFrame hLogs]
  | _ => exact absurd h (by simp [parseRecord])

structure Parsed (host : Host) (records : List Json) (timestamp block : Option Int)
    (s : ParseState) : Prop where
  frames : List.Forall₂ (fun record frame => ∃ item, record = .obj item ∧
    readFrame item = .ok frame) records s.frames
  assertions : s.assertions = s.frames.flatMap TraceFrame.assertions
  warp : ClockAccount timestamp s.prevTimestamp s.warpSum (clockValues host "warp" records)
  roll : ClockAccount block s.prevBlock s.rollSum (clockValues host "roll" records)

theorem clockValues_concat (name : String) (done : List Json) (record : Json) :
    clockValues host name (done ++ [record]) =
      clockValues host name done ++ (clockValue host name record).toList := by
  unfold clockValues
  rw [List.filterMap_append]
  cases hValue : clockValue host name record <;> simp [hValue]

/-- What the loop keeps holds at its end, by induction on the records. -/
theorem parsed_of_loop {records : List Json} {timestamp block : Option Int} {final : ParseState}
    (h : records.foldlM (parseRecord host catalog) (.initial timestamp block) = .ok final) :
    Parsed host records timestamp block final := by
  refine foldlM_induction (fun done s => Parsed host done timestamp block s)
    ⟨.nil, rfl, .start _, .start _⟩ ?_ h
  intro done s record t hDone hStep
  obtain ⟨item, frame, hRecord, hFrame, hFrames, hAssertions, hWarp, hRoll⟩ :=
    parseRecord_eq_ok hStep
  refine ⟨?_, ?_, ?_, ?_⟩
  · rw [hFrames]
    exact List.rel_append hDone.frames (.cons ⟨item, hRecord, hFrame⟩ .nil)
  · simp [hFrames, hAssertions, hDone.assertions]
  · rw [clockValues_concat]
    exact hWarp hDone.warp
  · rw [clockValues_concat]
    exact hRoll hDone.roll

/-- The summary that `parse_trace` returns, in terms of the records of its payload. -/
structure TraceOf (host : Host) (payload : Json) (t : TraceSummary) : Prop where
  parsed : ∃ records timestamp block, traceRecords payload = .ok records ∧
    initialClock payload "initial_timestamp" = .ok timestamp ∧
    initialClock payload "initial_block" = .ok block ∧
    t.initialTimestamp = timestamp ∧ t.initialBlock = block ∧
    List.Forall₂ (fun record frame => ∃ item, record = .obj item ∧
      readFrame item = .ok frame) (flattenRecords records) t.frames ∧
    ClockAccount timestamp t.finalTimestamp t.cumulativeWarpS
      (clockValues host "warp" (flattenRecords records)) ∧
    ClockAccount block t.finalBlock t.cumulativeRoll
      (clockValues host "roll" (flattenRecords records))
  assertionEvents : t.assertionEvents = t.frames.flatMap TraceFrame.assertions

/-- A payload that is parsed has the summary of its records. -/
theorem traceOf_parseRecords {payload : Json} {raw : Bytes} {t : TraceSummary}
    (h : parseRecords host catalog payload raw = .ok t) : TraceOf host payload t := by
  simp only [parseRecords, runRecords, bind_eq_ok, pure_eq_ok] at h
  obtain ⟨_, ⟨records, hRecords, timestamp, hTimestamp, block, hBlock, final, hLoop, rfl⟩, rfl⟩ := h
  have hParsed := parsed_of_loop hLoop
  exact ⟨⟨records, timestamp, block, hRecords, hTimestamp, hBlock, rfl, rfl, hParsed.frames,
    hParsed.warp, hParsed.roll⟩, hParsed.assertions⟩

end Records
end L0vi0x.Chain
