import L0vi0x.Chain.TraceFidelity

/-! A trace summary in terms of the records of its payload. -/
namespace L0vi0x.Chain

open L0vi0x.Python L0vi0x.Core

def TracePayload.value? : TracePayload → Option Json
  | .bytes raw => (decodeUtf8? raw).bind fun s => (Json.loads s).toOption
  | .text s => (Json.loads s).toOption
  | .parsed j => some j

def TracePayload.records (payload : TracePayload) : List Json :=
  match (traceRecords (payload.value?.getD .null)).toOption with
  | some records => flattenRecords records
  | none => []

/-- The record with its frame, when it is a call to the cheatcode address. -/
def cheatcodeRecord? : Json → Option (Fields × TraceFrame)
  | .obj item => match readFrame item with
      | .ok frame => if frame.toAddress = some cheatcodeAddress then some (item, frame) else none
      | .error _ => none
  | _ => none

/-- The records of a payload that are calls to the cheatcode address. -/
def TracePayload.cheatcodeRecords (payload : TracePayload) : List (Fields × TraceFrame) :=
  payload.records.filterMap cheatcodeRecord?

/-- The call that such a record stands for. -/
def cheatcodeCall (host : Host) (catalog : List (String × String)) (r : Fields × TraceFrame) :
    CheatcodeCall :=
  ⟨cheatcodeName host r.2 r.1, categoryOf catalog (cheatcodeName host r.2 r.1), r.2.depth,
    r.2.phase, cheatcodeArgs r.1, r.2.selector⟩

section Loop

variable {host : Host} {catalog : List (String × String)}

/-- A payload that is parsed was read record by record. -/
theorem traceRecords_loop {payload : Json} {raw : Bytes} {t : TraceSummary}
    (h : parseRecords host catalog payload raw = .ok t) :
    ∃ records timestamp block final sha, traceRecords payload = .ok records ∧
      initialClock payload "initial_timestamp" = .ok timestamp ∧
      initialClock payload "initial_block" = .ok block ∧
      (flattenRecords records).foldlM (parseRecord host catalog) (.initial timestamp block) =
        .ok final ∧
      t = (ParsedPayload.mk timestamp block final).summary sha := by
  simp only [parseRecords, runRecords, bind_eq_ok, pure_eq_ok] at h
  obtain ⟨_, ⟨records, hRecords, timestamp, hTimestamp, block, hBlock, final, hLoop, rfl⟩, rfl⟩ := h
  exact ⟨records, timestamp, block, final, _, hRecords, hTimestamp, hBlock, hLoop, rfl⟩

/-- The loop behind an accepted payload. -/
structure LoopOf (host : Host) (catalog : List (String × String)) (payload : TracePayload)
    (t : TraceSummary) (timestamp block : Option Int) (final : ParseState) : Prop where
  value : ∃ value frames, payload.value? = some value ∧ traceRecords value = .ok frames ∧
    payload.records = flattenRecords frames ∧
    initialClock value "initial_timestamp" = .ok timestamp ∧
    initialClock value "initial_block" = .ok block
  loop : payload.records.foldlM (parseRecord host catalog) (.initial timestamp block) = .ok final
  summary : ∃ sha, t = (ParsedPayload.mk timestamp block final).summary sha

theorem loopOf_parseRecords {payload : TracePayload} {value : Json} {raw : Bytes} {t : TraceSummary}
    (hValue : payload.value? = some value)
    (h : parseRecords host catalog value raw = .ok t) :
    ∃ timestamp block final, LoopOf host catalog payload t timestamp block final := by
  obtain ⟨records, timestamp, block, final, sha, hRecords, hTimestamp, hBlock, hLoop, rfl⟩ :=
    traceRecords_loop h
  have hFlat : payload.records = flattenRecords records := by
    simp [TracePayload.records, hValue, hRecords, Except.toOption]
  exact ⟨timestamp, block, final, ⟨value, records, hValue, hRecords, hFlat, hTimestamp, hBlock⟩,
    by rw [hFlat, hLoop], sha, rfl⟩

/-- A text that is parsed as JSON gives its value. -/
theorem loads_toOption {s message : String} {value : Json}
    (h : except (Json.loads s) (· = .jsonDecodeError)
      (fun _ => raise .tracePolicyError message) = .ok value) :
    (Json.loads s).toOption = some value := by
  rcases except_eq_ok.mp h with hLoads | ⟨_, _, _, hRaise⟩
  · rw [hLoads]
    rfl
  · exact absurd hRaise (by simp)

/-- An accepted payload was parsed by one loop over its records. -/
theorem loopOf_parseTrace {payload : TracePayload} {t : TraceSummary}
    (h : parseTrace host payload catalog = .ok t) :
    ∃ timestamp block final, LoopOf host catalog payload t timestamp block final := by
  cases payload with
  | bytes raw =>
      simp only [parseTrace] at h
      cases hText : decodeUtf8? raw with
      | none => simp [hText] at h
      | some s =>
          simp only [hText, bind_eq_ok] at h
          obtain ⟨value, hLoads, h⟩ := h
          refine loopOf_parseRecords ?_ h
          rw [TracePayload.value?, hText, Option.bind_some, loads_toOption hLoads]
  | text s =>
      simp only [parseTrace, bind_eq_ok] at h
      obtain ⟨value, hLoads, h⟩ := h
      exact loopOf_parseRecords (loads_toOption hLoads) h
  | parsed value => exact loopOf_parseRecords rfl h

/-- The frames that are calls to the cheatcode address, and the calls, one for each
such record. -/
structure CallsOf (host : Host) (catalog : List (String × String)) (payload : TracePayload)
    (t : TraceSummary) : Prop where
  frames : t.frames.filter (fun f => f.toAddress = some cheatcodeAddress) =
    payload.cheatcodeRecords.map (·.2)
  cheatcodes : t.cheatcodes = payload.cheatcodeRecords.map (cheatcodeCall host catalog)

/-- The calls of an accepted payload are those of its cheatcode records. -/
theorem callsOf_parseTrace {payload : TracePayload} {t : TraceSummary}
    (h : parseTrace host payload catalog = .ok t) : CallsOf host catalog payload t := by
  obtain ⟨timestamp, block, final, hLoop⟩ := loopOf_parseTrace h
  obtain ⟨sha, rfl⟩ := hLoop.summary
  have hFold := hLoop.loop
  suffices h : final.frames.filter (fun f => f.toAddress = some cheatcodeAddress) =
        (payload.records.filterMap cheatcodeRecord?).map (·.2) ∧
      final.cheatcodes =
        (payload.records.filterMap cheatcodeRecord?).map (cheatcodeCall host catalog) from
    ⟨h.1, h.2⟩
  refine foldlM_induction (fun done s =>
    s.frames.filter (fun f => f.toAddress = some cheatcodeAddress) =
        (done.filterMap cheatcodeRecord?).map (·.2) ∧
      s.cheatcodes = (done.filterMap cheatcodeRecord?).map (cheatcodeCall host catalog))
    ⟨rfl, rfl⟩ ?_ hFold
  rintro done s record next ⟨hFrames, hCalls⟩ hStep
  cases record with
  | obj item =>
      simp only [parseRecord, bind_eq_ok, pure_eq_ok] at hStep
      obtain ⟨frame, hFrame, u, hCheat, _, _, _, _, rfl⟩ := hStep
      have hKept := (recordCheatcode_step hFrame hCheat).frames
      have hAdded := recordCheatcode_calls hCheat
      simp only [List.filterMap_append, List.map_append, List.filterMap_cons, cheatcodeRecord?,
        hFrame, List.filterMap_nil, hKept, hAdded, List.filter_append, hFrames, hCalls]
      by_cases hTo : frame.toAddress = some cheatcodeAddress
      · simp [hTo, recordedCheatcode, cheatcodeCall]
      · simp [hTo, recordedCheatcode]
  | _ => exact absurd hStep (by simp [parseRecord])

end Loop
end L0vi0x.Chain
