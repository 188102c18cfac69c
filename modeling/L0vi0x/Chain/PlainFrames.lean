import L0vi0x.Chain.TracePipeline

/-! Payloads of plain frames, none a cheatcode call and none moving a token: they always have a
summary. -/
namespace L0vi0x.Chain

open L0vi0x.Python L0vi0x.Core

/-- A frame that is no cheatcode and transfers nothing is parsed. -/
theorem parseRecord_plain {host : Host} {catalog : List (String × String)} {record : Fields}
    {head : FrameHead} {logs : List ArenaLog} (h : ReadsAs record head logs)
    (hDepth : 0 ≤ head.depth) (hAddress : lower head.toAddress ≠ cheatcodeAddress)
    (hTransfers : getField? "erc20_transfer" record = none ∧
      getField? "erc20_transfers" record = none) (s : ParseState) :
    returns (parseRecord host catalog s (.obj record)) := by
  have hFrame := readFrame_of_readsAs h hDepth
  have hOther : ¬ (some (lower head.toAddress) = some cheatcodeAddress) := fun hEq =>
    hAddress (Option.some.inj hEq)
  refine returns_bind.mpr ⟨_, hFrame, returns_bind.mpr ⟨_, if_pos hOther, returns_bind.mpr
    ⟨[], ?_, returns_bind.mpr ⟨logs.map ArenaLog.json, ?_, returns_ok _⟩⟩⟩⟩
  · simp [transfersOf, Json.getD, Json.get?, hTransfers, singleTransfer, Json.truthy, Json.iter,
      bind, Except.bind, pure, Except.pure]
  · simp [Json.getD, Json.get?, h.logs, Json.iter]

/-- The conditions under which a frame is parsed without further ado. -/
structure ArenaFrame.Plain (f : ArenaFrame) : Prop where
  depth : 0 ≤ f.head.depth
  address : f.head.toAddress ≠ "" ∧ lower f.head.toAddress ≠ cheatcodeAddress
  caller : f.head.caller ≠ ""
  selector : f.head.selector ≠ some ""
  cheatcode : f.head.cheatcode = none
  transfers : f.logs.filterMap ArenaLog.transfer = []

theorem ArenaFrame.Plain.parses {host : Host} {catalog : List (String × String)} {f : ArenaFrame}
    (h : f.Plain) (s : ParseState) : returns (parseRecord host catalog s (.obj f.record)) := by
  obtain ⟨head, logs, children⟩ := f
  have hReads : ReadsAs (ArenaFrame.mk head logs children).record head logs :=
    readsAs_frameRecord h.address.1 h.caller h.selector
  refine parseRecord_plain hReads h.depth h.address.2 ?_ s
  have hNone : optionalPairs head logs = [] := by
    have hCheatcode : head.cheatcode = none := h.cheatcode
    have hTransfers : logs.filterMap ArenaLog.transfer = [] := h.transfers
    simp [optionalPairs, hCheatcode, hTransfers]
  have hGet : ∀ key ∈ ["cheatcode", "erc20_transfer", "erc20_transfers"],
      (frameJson head logs (ArenaFrame.jsonAll children)).get? key = none := by
    intro key hKey
    rw [frameJson_get?, hNone]
    simp only [List.mem_cons, List.not_mem_nil, or_false] at hKey
    rcases hKey with rfl | rfl | rfl <;> simp [fixedPairs, lookupLast_cons]
  have hPairs : ∀ key ∈ ["erc20_transfer", "erc20_transfers"],
      getField? key (ArenaFrame.mk head logs children).record = none := by
    intro key hKey
    simp only [List.mem_cons, List.not_mem_nil, or_false] at hKey
    rcases hKey with rfl | rfl <;>
      rw [ArenaFrame.record, frameRecord_get? (by decide) (by decide), lookup_normalPairs] <;>
      simp [lookup_keptField, hGet, normalFixed, lookupLast_cons]
  exact ⟨hPairs _ (by decide), hPairs _ (by decide)⟩

theorem foldlM_returns {α β : Type} {step : β → α → Py β} {items : List α}
    (h : ∀ a ∈ items, ∀ s, returns (step s a)) (s : β) : returns (items.foldlM step s) := by
  induction items generalizing s with
  | nil => exact returns_ok s
  | cons a rest ih =>
      rw [List.forall_mem_cons] at h
      obtain ⟨next, hNext⟩ := h.1 s
      rw [List.foldlM_cons]
      exact returns_bind.mpr ⟨next, hNext, ih h.2 next⟩

/-- What is extracted of an envelope of frames. -/
def extractedOf (timestamp block : Int) (frames : List ArenaFrame) : Fields :=
  dictOf ([("trace", .arr (ArenaFrame.normalAll frames)), ("schema", .str canonicalTraceSchema)] ++
    [("initial_timestamp", .int timestamp)] ++ [("initial_block", .int block)])

/-- The frames of an envelope are extracted, with the clocks that it gives. -/
theorem extractStructuredTrace_of_frames {body : Fields} {frames : List ArenaFrame}
    {timestamp block : Int} (hSchema : getField? "schema" body = some (.str canonicalTraceSchema))
    (hFrames : getField? "frames" body = some (.arr (ArenaFrame.jsonAll frames)))
    (hTimestamp : getField? "initial_timestamp" body = some (.int timestamp))
    (hBlock : getField? "initial_block" body = some (.int block))
    (hClocks : 0 ≤ timestamp ∧ 0 ≤ block) (hSome : frames ≠ []) :
    extractStructuredTrace (.obj [("l0vi0x_structured_trace", .obj body)]) none =
      .ok (.obj (extractedOf timestamp block frames)) := by
  have hEnvelope : (Json.obj [("l0vi0x_structured_trace", .obj body)]).get?
      "l0vi0x_structured_trace" = some (.obj body) := by simp [Json.get?, getField?]
  obtain _ | ⟨f, rest⟩ := frames
  · exact absurd rfl hSome
  have hObj : ∀ fs : List ArenaFrame, (ArenaFrame.jsonAll fs).all Json.isObj = true := by
    intro fs
    induction fs with
    | nil => rfl
    | cons g gs ih =>
        rw [ArenaFrame.jsonAll, List.all_cons, g.json_isObj, ih]
        rfl
  have hNormal := normalizeItems_jsonAll (f :: rest)
  have hAll := hObj (f :: rest)
  rw [ArenaFrame.jsonAll] at hNormal hFrames hAll
  have hStart : ¬ timestamp < 0 := by omega
  have hNumber : ¬ block < 0 := by omega
  simp [extractStructuredTrace, hEnvelope, hFrames, hSchema, hAll, hNormal, envelopeClock, hTimestamp,
    hBlock, hStart, hNumber, raiseIf, Json.isObj, extractedOf, bind, Except.bind, pure, Except.pure]

def envelopeOf (key testName : String) (timestamp block : Int) (frames : List ArenaFrame) : Fields :=
  dictOf [("schema", .str canonicalTraceSchema),
    ("source", .obj (dictOf [("tool", .str "forge"), ("suite", .str key),
      ("test", .str (testName ++ "()"))])), ("initial_timestamp", .int timestamp),
    ("initial_block", .int block), ("frames", .arr (ArenaFrame.jsonAll frames))]

/-- A payload whose arenas are converted is adapted to the envelope of their frames. -/
theorem adaptForgeTestJson_of_frames {host : Host} {fields result : Fields}
    {key testFile testName : String} {arenas : List (ArenaKind × List Fields)}
    {frames : List ArenaFrame} {derived : List DerivedLog} {timestamp block : Int}
    (hTest : passingUnitTest fields testFile testName = .ok (key, result))
    (hArenas : selectArenas ((getField? "traces" result).getD .null) = .ok arenas)
    (hFrames : convertArenas host (inArenaOrder arenas) [] = .ok (frames, derived))
    (hLogs : getField? "logs" result = none) (hClocks : 0 ≤ timestamp ∧ 0 ≤ block) :
    adaptForgeTestJson host (.obj fields) testFile testName (.int timestamp) (.int block) =
      .ok (.obj [("l0vi0x_structured_trace",
        .obj (envelopeOf key testName timestamp block frames))]) := by
  have hStart : ¬ timestamp < 0 := by omega
  have hNumber : ¬ block < 0 := by omega
  simp only [adaptForgeTestJson, suppliedClock, if_neg hStart, if_neg hNumber, hTest, hArenas,
    hFrames, hLogs, Option.getD_none, checkLogsAgainstForge, bind, Except.bind, pure, Except.pure]
  rfl

/-- A payload whose frames are plain has a summary. -/
theorem forgeSummary_of_plain {host : Host} {catalog : List (String × String)} {fields result : Fields}
    {key testFile testName : String} {arenas : List (ArenaKind × List Fields)}
    {frames : List ArenaFrame} {derived : List DerivedLog} {timestamp block : Int}
    (hTest : passingUnitTest fields testFile testName = .ok (key, result))
    (hArenas : selectArenas ((getField? "traces" result).getD .null) = .ok arenas)
    (hFrames : convertArenas host (inArenaOrder arenas) [] = .ok (frames, derived))
    (hLogs : getField? "logs" result = none) (hClocks : 0 ≤ timestamp ∧ 0 ≤ block)
    (hSome : frames ≠ [])
    (hPlain : ∀ f ∈ ArenaFrame.preorderAll frames, f.Plain) :
    ∃ t executed, forgeSummary host catalog (.obj fields) testFile testName (.int timestamp)
      (.int block) none = .ok t ∧
        SummaryOf host catalog executed (ArenaFrame.preorderAll frames) t := by
  obtain ⟨executed, _, hEach⟩ := convertArenas_executed hFrames
  have hAdapt := adaptForgeTestJson_of_frames hTest hArenas hFrames hLogs hClocks
  have hExtract := @extractStructuredTrace_of_frames
    (envelopeOf key testName timestamp block frames) frames timestamp block
    (by simp [envelopeOf, getField?_dictOf, lookupLast_cons])
    (by simp [envelopeOf, getField?_dictOf, lookupLast_cons])
    (by simp [envelopeOf, getField?_dictOf, lookupLast_cons])
    (by simp [envelopeOf, getField?_dictOf, lookupLast_cons]) hClocks hSome
  have hRecords : traceRecords (.obj (extractedOf timestamp block frames)) =
      .ok (ArenaFrame.normalAll frames) := by
    simp [traceRecords, extractedOf, Json.get?, getField?_dictOf, lookupLast_cons, pure, Except.pure]
  have hFirst : initialClock (.obj (extractedOf timestamp block frames)) "initial_timestamp" =
      .ok (some timestamp) := by
    simp [initialClock, Json.isObj, extractedOf, Json.getD, Json.get?, getField?_dictOf,
      lookupLast_cons, firstInt, Json.toInt, except, Functor.map, Except.map, pure, Except.pure]
  have hSecond : initialClock (.obj (extractedOf timestamp block frames)) "initial_block" =
      .ok (some block) := by
    simp [initialClock, Json.isObj, extractedOf, Json.getD, Json.get?, getField?_dictOf,
      lookupLast_cons, firstInt, Json.toInt, except, Functor.map, Except.map, pure, Except.pure]
  obtain ⟨final, hLoop⟩ := @foldlM_returns _ _ (parseRecord host catalog)
    ((ArenaFrame.preorderAll frames).map fun f => Json.obj f.record) (by
      intro j hj s
      obtain ⟨f, hf, rfl⟩ := List.mem_map.mp hj
      exact (hPlain f hf).parses s) (.initial (some timestamp) (some block))
  have hFlat := flattenRecords_normalAll frames
  refine ⟨_, executed, ?_, hEach, some timestamp, some block, final, hLoop,
    host.sha256 (encodeUtf8 (Json.obj (extractedOf timestamp block frames)).dumps), rfl⟩
  simp only [forgeSummary, hAdapt, hExtract, parseTrace, parseRecords, runRecords, hRecords, hFirst,
    hSecond, hFlat, hLoop, bind, Except.bind, pure, Except.pure]

end L0vi0x.Chain
