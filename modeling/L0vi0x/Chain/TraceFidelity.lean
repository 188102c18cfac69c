import L0vi0x.Chain.TracePipeline

/-! How the summary of a Forge payload compares with the arenas: its cheatcodes, its
frames and the contracts that its assertion events are attributed to. -/
namespace L0vi0x.Chain

open L0vi0x.Python L0vi0x.Core

section Samples

def libraryAddress : String := "0x00000000000000000000000000000000000000bb"

/-- A node of an arena, at a depth equal to its index. -/
def callNode (idx : Int) (parent : Json) (kind address : String) (success : Bool)
    (children logs : List Json) (ordering : List Fields) : Fields :=
  [("children", .arr children), ("idx", .int idx), ("logs", .arr logs),
    ("ordering", .arr (ordering.map Json.obj)), ("parent", parent),
    ("trace", .obj [("address", .str address), ("caller", .str sampleAddress),
      ("depth", .int idx), ("kind", .str kind), ("success", .bool success)])]

/-- The result of a passing test with one arena. -/
def forgeResult (nodes : List Fields) : Fields :=
  [("kind", .obj [("Unit", .obj [])]), ("status", .str "Success"),
    ("traces", .arr [.arr [.str "Execution", .obj [("arena", .arr (nodes.map Json.obj))]]])]

def forgeOutput (nodes : List Fields) : Fields :=
  [("test/W.t.sol:W", .obj [("test_results", .obj [("testW()", .obj (forgeResult nodes))])])]

def sampleSummary (host : Host) (nodes : List Fields) : Py TraceSummary :=
  forgeSummary host [] (.obj (forgeOutput nodes)) "test/W.t.sol" "testW" (.int 0) (.int 0) none

/-- A call that is known to return returns something. -/
theorem ok_of_toBool {α : Type} {call : Py α} (h : call.toBool = true) : ∃ a, call = .ok a := by
  cases call with
  | error e => cases h
  | ok a => exact ⟨a, rfl⟩

end Samples

section Cheatcodes

variable {host : Host} {catalog : List (String × String)}

/-- The call that a record to the cheatcode address stands for. -/
def recordedCheatcode (host : Host) (catalog : List (String × String)) (item : Fields)
    (frame : TraceFrame) : List CheatcodeCall :=
  if frame.toAddress = some cheatcodeAddress then
    [⟨cheatcodeName host frame item, categoryOf catalog (cheatcodeName host frame item),
      frame.depth, frame.phase, cheatcodeArgs item, frame.selector⟩]
  else []

/-- A record adds the call that it stands for. -/
theorem recordCheatcode_calls {item : Fields} {frame : TraceFrame} {s t : ParseState}
    (h : recordCheatcode host catalog item frame s = .ok t) :
    t.cheatcodes = s.cheatcodes ++ recordedCheatcode host catalog item frame := by
  unfold recordCheatcode at h
  unfold recordedCheatcode
  by_cases hTo : frame.toAddress = some cheatcodeAddress
  · have hNot : ¬ frame.toAddress ≠ some cheatcodeAddress := fun hNe => hNe hTo
    rw [if_pos hTo]
    simp only [if_neg hNot] at h
    split at h
    · simp only [bind_eq_ok, pure_eq_ok] at h
      obtain ⟨_, _, _, _, rfl⟩ := h
      rfl
    · split at h
      · simp only [bind_eq_ok, pure_eq_ok] at h
        obtain ⟨_, _, _, _, rfl⟩ := h
        rfl
      · rw [pure_eq_ok] at h
        rw [← h]
  · rw [if_pos hTo, pure_eq_ok] at h
    rw [← h, if_neg hTo, List.append_nil]

/-- The cheatcodes of a loop over records that read as frames. -/
theorem cheatcodes_of_records {records : List (Fields × TraceFrame)} {s final : ParseState}
    (hRead : ∀ r ∈ records, readFrame r.1 = .ok r.2)
    (h : (records.map fun r => Json.obj r.1).foldlM (parseRecord host catalog) s = .ok final) :
    final.cheatcodes = s.cheatcodes ++
      records.flatMap fun r => recordedCheatcode host catalog r.1 r.2 := by
  induction records generalizing s with
  | nil =>
      rw [List.map_nil, List.foldlM_nil, pure_eq_ok] at h
      simp [h]
  | cons r rest ih =>
      obtain ⟨item, frame⟩ := r
      rw [List.forall_mem_cons] at hRead
      rw [List.map_cons, List.foldlM_cons, bind_eq_ok] at h
      obtain ⟨next, hNext, hRest⟩ := h
      simp only [parseRecord, bind_eq_ok, pure_eq_ok, hRead.1, Except.ok.injEq] at hNext
      obtain ⟨_, rfl, u, hCheat, _, _, _, _, rfl⟩ := hNext
      rw [ih hRead.2 hRest, List.flatMap_cons, ← List.append_assoc]
      simp only [recordCheatcode_calls hCheat]

/-- The cheatcodes of a summary are those of its records, in their order. -/
theorem SummaryOf.cheatcodes {executed : List (Phase × Visit)} {frames : List ArenaFrame}
    {t : TraceSummary} (h : SummaryOf host catalog executed frames t) :
    t.cheatcodes = frames.flatMap fun f => recordedCheatcode host catalog f.record f.parsed := by
  have hRead : ∀ r ∈ frames.map (fun f => (f.record, f.parsed)), readFrame r.1 = .ok r.2 := by
    intro r hr
    obtain ⟨f, hf, rfl⟩ := List.mem_map.mp hr
    exact (h.reads hf).2
  obtain ⟨timestamp, block, final, hLoop, sha, rfl⟩ := h.loop
  have hCalls := cheatcodes_of_records hRead (by simpa [Function.comp_def] using hLoop)
  show final.cheatcodes = _
  simpa [ParseState.initial, List.flatMap_map] using hCalls

/-- A cheatcode of the summary is the call that an executed node made. -/
structure CheatcodeOf (host : Host) (catalog : List (String × String)) (x : Phase × Visit)
    (c : CheatcodeCall) : Prop where
  /-- A call has the name and the arguments of its calldata. -/
  decoded : isCallKind x.2.node.kind = true → ∃ decoded,
    decodeCheatcode host x.2.node.data = .ok decoded ∧ c.name = decoded.name ∧
      c.args = decoded.args.getD []
  /-- Any other node has a name that no cheatcode has, and no category unless the
  policy's catalog gives that name one. -/
  unknown : isCallKind x.2.node.kind = false → c.name = "unknown" ∧ c.args = [] ∧
    (∀ s ∈ allSignatures, s.name ≠ c.name) ∧
    ((∀ p ∈ catalog, lower p.1 ≠ "unknown") → c.category = "UNCLASSIFIED")
  category : c.category = categoryOf catalog c.name
  depth : x.2.node.trace.getD "depth" .null = .int c.depth
  phase : c.phase = x.1
  selector : c.selector = x.2.node.selector

/-- A catalog without `unknown` leaves it unclassified. -/
theorem unknown_unclassified (h : ∀ p ∈ catalog, lower p.1 ≠ "unknown") :
    categoryOf catalog "unknown" = "UNCLASSIFIED" := by
  have hLower : lower "unknown" = "unknown" := by decide
  have hMissing : lookupLast "unknown" (catalog.map fun p => (lower p.1, p.2)) = none := by
    refine lookupLast_of_not_mem fun hMem => ?_
    simp only [List.map_map, List.mem_map, Function.comp_apply] at hMem
    obtain ⟨p, hp, hName⟩ := hMem
    exact h p hp hName
  simp [categoryOf, hLower, hMissing]

/-- What the parser records of a frame is its node's call, when that is to the
cheatcode address. -/
theorem recordedCheatcode_of_frame {phase : Phase} {v : Visit} {f : ArenaFrame}
    (h : FrameOf host phase v f) :
    List.Forall₂ (CheatcodeOf host catalog)
      ([(phase, v)].filter fun x => x.2.node.address = cheatcodeAddress)
      (recordedCheatcode host catalog f.record f.parsed) := by
  have hOpened := openedFrom_of_openFrame h.head
  have hReads := frame_readsAs h
  have hTo : (f.parsed.toAddress = some cheatcodeAddress) =
      (v.node.address = cheatcodeAddress) := by
    rw [ArenaFrame.parsed, Option.some.injEq, hOpened.toAddress]
  unfold recordedCheatcode
  simp only [hTo]
  by_cases hAddress : v.node.address = cheatcodeAddress
  · simp only [List.filter_cons, List.filter_nil, hAddress, decide_true, ↓reduceIte]
    have hCheatcode := hOpened.cheatcode
    simp only [headCheatcode, hAddress, true_and] at hCheatcode
    refine .cons ⟨fun hCall => ?_, fun hOther => ?_, rfl, hOpened.depth, hOpened.phase,
      hOpened.selector⟩ .nil
    · rw [if_pos hCall, map_eq_ok] at hCheatcode
      obtain ⟨c, hFrame, hSome⟩ := hCheatcode
      obtain ⟨decoded, hDecoded, hName, hArgs⟩ := frameCheatcode_eq_ok hFrame
      have hTruthy : c.name ≠ "" := hName ▸ decodeCheatcode_name hDecoded
      refine ⟨decoded, hDecoded, ?_, ?_⟩
      · simp [cheatcodeName, Json.getD, Json.get?, hReads.cheatcode, ← hSome, Json.truthy,
          hTruthy, ← hName]
      · simp [cheatcodeArgs, Json.getD, Json.get?, hReads.args, ← hSome, ← hArgs]
    · have hNone : f.head.cheatcode = none := by
        rw [if_neg (by simp [hOther]), pure_eq_ok] at hCheatcode
        exact hCheatcode.symm
      have hSelector : f.head.selector = none := by
        rw [hOpened.selector, ArenaNode.selector, hOther]
        rfl
      have hName : cheatcodeName host f.parsed f.record = "unknown" := by
        simp [cheatcodeName, Json.getD, Json.get?, hReads.cheatcode, hNone, Json.truthy,
          ArenaFrame.parsed, hSelector, nameForSelector]
      refine ⟨hName, ?_, ?_, fun hCatalog => ?_⟩
      · simp [cheatcodeArgs, Json.getD, Json.get?, hReads.args, hNone]
      · simp only [hName]
        decide
      · simp only [hName]
        exact unknown_unclassified hCatalog
  · simp [hAddress]

/-- The cheatcodes of a summary are the executed nodes to the cheatcode address, in
execution order. -/
theorem cheatcodes_recorded {payload : Json} {testFile testName : String}
    {timestamp block : Json} {schema : Option String} {t : TraceSummary}
    (h : forgeSummary host catalog payload testFile testName timestamp block schema = .ok t) :
    ∃ executed, Executed payload testFile testName executed ∧
      List.Forall₂ (CheatcodeOf host catalog)
        (executed.filter fun x => x.2.node.address = cheatcodeAddress) t.cheatcodes := by
  obtain ⟨executed, frames, hExecuted, hSummary⟩ := summaryOf_forgeSummary h
  refine ⟨executed, hExecuted, ?_⟩
  rw [hSummary.cheatcodes]
  have hEach := hSummary.each
  clear hSummary hExecuted h
  induction hEach with
  | nil => exact .nil
  | @cons x f rest others hFrame _ ih =>
      rw [List.flatMap_cons, ← List.singleton_append, List.filter_append]
      exact List.rel_append (recordedCheatcode_of_frame hFrame) ih

/-- A test that calls the cheatcode address without calldata, and creates it. -/
def cheatcodeCalls : List Fields :=
  [callNode 0 .null "CALL" sampleAddress true [.int 1, .int 2] []
      [[("Call", .int 1)], [("Call", .int 0)]],
    callNode 1 (.int 0) "CREATE" cheatcodeAddress true [] [] [],
    callNode 2 (.int 0) "CALL" cheatcodeAddress true [] [] []]

/-- The sample payload is summarised. -/
theorem cheatcodeCalls_summarised :
    (sampleSummary (.digesting hexOfBytes) cheatcodeCalls).toBool = true := by decide +kernel

/-- Both calls to the cheatcode address are in the summary. -/
theorem cheatcodeCalls_recorded : ∃ (t : TraceSummary) (executed : List (Phase × Visit)),
    Executed (.obj (forgeOutput cheatcodeCalls)) "test/W.t.sol" "testW" executed ∧
      List.Forall₂ (CheatcodeOf (.digesting hexOfBytes) [])
        (executed.filter fun x => x.2.node.address = cheatcodeAddress) t.cheatcodes := by
  obtain ⟨t, h⟩ := ok_of_toBool cheatcodeCalls_summarised
  exact ⟨t, cheatcodes_recorded h⟩

end Cheatcodes

section Frames

variable {host : Host} {catalog : List (String × String)}

/-- The fields that a frame of the summary and a node of an arena both have. -/
structure ObservedFrame where
  depth : Json
  kind : String
  address : Option String
  caller : Json
  data : Json
  selector : Option String
  phase : Phase
  gasUsed : Json
  success : Json
  deriving DecidableEq

def TraceFrame.observed (f : TraceFrame) : ObservedFrame :=
  ⟨.int f.depth, f.kind, f.toAddress, f.caller, f.data, f.selector, f.phase, intOrNull f.gasUsed,
    .bool f.success⟩

/-- What an arena records of a node that is executed in a phase. -/
def ArenaNode.observed (phase : Phase) (node : ArenaNode) : ObservedFrame :=
  ⟨node.trace.getD "depth" .null, node.kind, some node.address, .str node.caller,
    .str node.data, node.selector, phase, node.trace.getD "gas_used" (.int 0),
    node.trace.getD "success" .null⟩

def observedNodes (executed : List (Phase × Visit)) : List ObservedFrame :=
  executed.map fun x => x.2.node.observed x.1

/-- The frame of a node that succeeded agrees with it, and that of another does not. -/
theorem parsed_observed_iff {phase : Phase} {v : Visit} {f : ArenaFrame}
    (h : FrameOf host phase v f) :
    f.parsed.observed = v.node.observed phase ↔ v.node.failed = false := by
  have hOpened := openedFrom_of_openFrame h.head
  have hSuccess := openFrame_success h.head
  rw [TraceFrame.observed, ArenaNode.observed, ArenaFrame.parsed, hOpened.depth, hOpened.gasUsed,
    hOpened.success, hSuccess]
  simp [hOpened.kind, hOpened.toAddress, hOpened.caller, hOpened.data, hOpened.selector,
    hOpened.phase, intOrNull]

/-- The frames of a summary show what the nodes did exactly when no node has failed. -/
theorem SummaryOf.observed_iff {executed : List (Phase × Visit)} {frames : List ArenaFrame}
    {t : TraceSummary} (h : SummaryOf host catalog executed frames t) :
    t.frames.map TraceFrame.observed = observedNodes executed ↔
      ∀ x ∈ executed, x.2.node.failed = false := by
  rw [h.frames, observedNodes]
  have hEach := h.each
  clear h
  induction hEach with
  | nil => simp
  | cons hFrame _ ih =>
      rw [List.map_cons, List.map_cons, List.map_cons, List.cons.injEq, List.forall_mem_cons]
      exact and_congr (parsed_observed_iff hFrame) ih

theorem decodeStatic_normal {kind : AbiType} {word : Bytes} {value : Json}
    (h : decodeStatic kind word = .ok value) : value.Normal := by
  unfold decodeStatic at h
  split at h
  case h_6 => simp at h
  all_goals
    try dsimp only at h
    split_ifs at h <;> simp only [raise_ne_ok, pure_eq_ok] at h <;> subst h <;> trivial

theorem decodeArgument_normal {kind : AbiType} {body : Bytes} {index : Nat} {value : Json}
    (h : decodeArgument kind body index = .ok value) : value.Normal := by
  simp only [decodeArgument, bind_eq_ok] at h
  obtain ⟨word, _, h⟩ := h
  have hDynamic : ∀ {kind : AbiType}, decodeDynamic kind body word = .ok value → value.Normal := by
    intro kind h
    simp only [decodeDynamic, bind_eq_ok] at h
    obtain ⟨length, _, h⟩ := h
    split at h
    · simp at h
    · rw [pure_eq_ok] at h
      subst h
      trivial
  split at h
  · exact hDynamic h
  · exact hDynamic h
  · rw [pure_eq_ok] at h
    subst h
    trivial
  · exact decodeStatic_normal h

theorem decodeFrom_normal {body : Bytes} {index : Nat} {types : List AbiType} {args : List Json}
    (h : decodeFrom body index types = .ok args) : ∀ a ∈ args, a.Normal := by
  induction types generalizing index args with
  | nil =>
      rw [decodeFrom, pure_eq_ok] at h
      simp [← h]
  | cons kind rest ih =>
      simp only [decodeFrom, bind_eq_ok, pure_eq_ok] at h
      obtain ⟨first, hFirst, more, hMore, rfl⟩ := h
      exact List.forall_mem_cons.mpr ⟨decodeArgument_normal hFirst, ih hMore⟩

/-- The arguments of a decoded cheatcode are normal. -/
theorem decodeCheatcode_normal {data : String} {decoded : DecodedCheatcode}
    (h : decodeCheatcode host data = .ok decoded) : ∀ a ∈ decoded.args.getD [], a.Normal := by
  unfold decodeCheatcode at h
  simp only [bind_eq_ok] at h
  obtain ⟨_, _, h⟩ := h
  split at h
  · simp at h
  · split at h
    · rw [pure_eq_ok] at h
      simp [← h]
    · split at h
      · rw [pure_eq_ok] at h
        simp [← h]
      · simp only [bind_eq_ok, pure_eq_ok] at h
        obtain ⟨args, hArgs, rfl⟩ := h
        exact decodeFrom_normal hArgs

theorem decodeIndexed_normal {event : Signature} {indexed : String} {topics names : List String}
    {data : String} {pairs : List (String × Json)}
    (h : namedArguments names <$> decodeIndexed event indexed topics data = .ok pairs) :
    ∀ p ∈ pairs, p.2.Normal := by
  rw [map_eq_ok] at h
  obtain ⟨decoded, hDecoded, rfl⟩ := h
  unfold decodeIndexed at hDecoded
  split at hDecoded
  · simp only [bind_eq_ok, pure_eq_ok, decoding_eq_ok] at hDecoded
    obtain ⟨_, _, args, ⟨raw, _, hArgs⟩, label, _, rfl⟩ := hDecoded
    rw [namedArguments, List.forall_mem_cons]
    refine ⟨trivial, fun p hp => ?_⟩
    exact decodeFrom_normal hArgs p.2 (List.of_mem_zip hp).2
  · simp [formatError] at hDecoded

theorem decodeLog_normal {address data : String} {topics : List String} {reverted : Bool}
    {decoded : List (String × Json) × Option Fields}
    (h : decodeLog host address topics data reverted = .ok decoded) :
    ∀ p ∈ decoded.1, p.2.Normal := by
  unfold decodeLog at h
  have hEvent : ∀ {name : String} {body : Py (List (String × Json))},
      (do pure (("event", Json.str name) :: (← body), (none : Option Fields))) = .ok decoded →
      (∀ pairs, body = .ok pairs → ∀ p ∈ pairs, p.2.Normal) → ∀ p ∈ decoded.1, p.2.Normal := by
    intro name body hBody hNormal
    simp only [bind_eq_ok, pure_eq_ok] at hBody
    obtain ⟨pairs, hPairs, rfl⟩ := hBody
    exact List.forall_mem_cons.mpr ⟨trivial, hNormal pairs hPairs⟩
  dsimp only at h
  split at h
  · exact hEvent h fun _ hPairs => decodeIndexed_normal hPairs
  · split at h
    · exact hEvent h fun _ hPairs => decodeIndexed_normal hPairs
    · split at h
      · exact hEvent h fun _ hPairs => decodeIndexed_normal hPairs
      · split at h
        · exact hEvent h fun _ hPairs => decodeIndexed_normal hPairs
        · split at h
          · simp only [bind_eq_ok, pure_eq_ok] at h
            obtain ⟨_, _, rfl⟩ := h
            simp
          · rw [pure_eq_ok] at h
            simp [← h]

theorem convertLog_normal {entry : Json} {reverted : Bool} {log : ArenaLog}
    (h : convertLog host entry reverted = .ok log) : log.json.Normal := by
  unfold convertLog at h
  split at h
  · simp only [bind_eq_ok, pure_eq_ok] at h
    obtain ⟨_, _, address, _, topics, _, data, _, decoded, hDecoded, rfl⟩ := h
    refine normal_dictOf fun p hp => ?_
    rcases List.mem_append.mp hp with hp | hp
    · simp only [List.mem_cons, List.not_mem_nil, or_false] at hp
      rcases hp with rfl | rfl | rfl | rfl
      · trivial
      · exact Json.normalItems_iff.mpr (by simp [Json.Normal])
      · trivial
      · trivial
    · exact decodeLog_normal hDecoded p hp
  · simp [formatError] at h

theorem enrich_normal {frame : TraceFrame} {contexts : List (String × Json)} {log : Fields}
    (hLog : (Json.obj log).Normal) (hCaller : frame.caller.Normal)
    (hContexts : ∀ p ∈ contexts, p.2.Normal) :
    (Json.obj (enrich frame contexts log)).Normal := by
  have hGetD : ∀ {j : Json} {key : String} {default : Json}, j.Normal → default.Normal →
      (j.getD key default).Normal := by
    intro j key default hj hDefault
    unfold Json.getD
    cases hGet : j.get? key with
    | none => exact hDefault
    | some value =>
        cases j with
        | obj fields => exact Json.normalFields_iff.mp hj.2 _ (mem_of_getField? hGet)
        | _ => cases hGet
  have hText : (textOrNull frame.toAddress).Normal := by
    cases frame.toAddress <;> trivial
  have hDepth : (Json.obj (setField "depth" (.int frame.depth) log)).Normal := hLog.setField trivial
  have hCalled : (Json.obj (setField "caller" ((Json.obj log).getD "caller" frame.caller)
      (setField "depth" (.int frame.depth) log))).Normal := hDepth.setField (hGetD hLog hCaller)
  have hEmitter : ((Json.obj log).getD "emitter" (textOrNull frame.toAddress)).Normal :=
    hGetD hLog hText
  have hBase := @Json.Normal.setField "emitter" _ _ hCalled hEmitter
  dsimp only [enrich]
  split
  · rename_i context hContext
    have hMem : context.Normal := by
      simp only [lookupLast, Option.map_eq_some_iff] at hContext
      obtain ⟨p, hp, rfl⟩ := hContext
      exact hContexts p (List.mem_reverse.mp (List.mem_of_find?_eq_some hp))
    have hNull : Json.null.Normal := trivial
    exact (hBase.setField (hGetD hMem hNull)).setField (hGetD hMem hNull)
  · exact hBase

/-- The assertion events of a frame with normal logs are normal. -/
theorem assertions_normal {frame : TraceFrame} (hLogs : ∀ log ∈ frame.logs, log.Normal)
    (hCaller : frame.caller.Normal) : ∀ e ∈ frame.assertions, (Json.obj e).Normal := by
  intro e he
  obtain ⟨log, hLog, hEvent⟩ := List.mem_filterMap.mp he
  split at hEvent
  · split at hEvent
    · rw [Option.some.injEq] at hEvent
      subst hEvent
      refine enrich_normal (hLogs _ hLog) hCaller fun p hp => ?_
      obtain ⟨context, hContext, rfl⟩ := List.mem_map.mp hp
      exact hLogs context (List.mem_of_mem_filter hContext)
    · cases hEvent
  · cases hEvent

/-- The logs of a frame that was converted and read are normal. -/
theorem parsed_logs_normal {phase : Phase} {v : Visit} {f : ArenaFrame}
    (h : FrameOf host phase v f) : ∀ log ∈ f.parsed.logs, log.Normal := by
  intro j hj
  obtain ⟨log, hLog, rfl⟩ := List.mem_map.mp hj
  obtain ⟨entry, _, hConvert⟩ := forall₂_exists_left h.logs hLog
  exact convertLog_normal hConvert

/-- The record of a frame is normal where its logs, its caller and its data are. -/
theorem TraceFrame.record_normal {frame : TraceFrame} (hLogs : ∀ log ∈ frame.logs, log.Normal)
    (hCaller : frame.caller.Normal) (hData : frame.data.Normal) : frame.record.Normal := by
  have hText : ∀ s : Option String, (textOrNull s).Normal := fun s => by cases s <;> trivial
  have hGas : (intOrNull frame.gasUsed).Normal := by cases frame.gasUsed <;> trivial
  refine normal_dictOf fun p hp => ?_
  simp only [List.mem_cons, List.not_mem_nil, or_false] at hp
  rcases hp with rfl | rfl | rfl | rfl | rfl | rfl | rfl | rfl | rfl | rfl
  · trivial
  · trivial
  · exact hText _
  · exact hText _
  · trivial
  · exact hCaller
  · exact hData
  · exact hGas
  · trivial
  · exact Json.normalItems_iff.mpr hLogs

/-- The record of a cheatcode is normal where its arguments are. -/
theorem CheatcodeCall.record_normal {c : CheatcodeCall} (hArgs : ∀ a ∈ c.args, a.Normal) :
    c.record.Normal := by
  have hText : (textOrNull c.selector).Normal := by cases c.selector <;> trivial
  refine normal_dictOf fun p hp => ?_
  simp only [List.mem_cons, List.not_mem_nil, or_false] at hp
  rcases hp with rfl | rfl | rfl | rfl | rfl | rfl
  · trivial
  · trivial
  · trivial
  · trivial
  · exact Json.normalItems_iff.mpr hArgs
  · exact hText

theorem TraceTransfer.record_normal (c : TraceTransfer) : c.record.Normal := by
  refine normal_dictOf fun p hp => ?_
  simp only [List.mem_cons, List.not_mem_nil, or_false] at hp
  rcases hp with rfl | rfl | rfl | rfl | rfl | rfl <;> trivial

/-- The arguments that the parser reads were decoded from calldata. -/
theorem recorded_args_normal {phase : Phase} {v : Visit} {f : ArenaFrame}
    (h : FrameOf host phase v f) : ∀ a ∈ cheatcodeArgs f.record, a.Normal := by
  have hOpened := openedFrom_of_openFrame h.head
  have hRead := (frame_readsAs h).args
  intro a ha
  cases hCheatcode : f.head.cheatcode with
  | none => simp [cheatcodeArgs, Json.getD, Json.get?, hRead, hCheatcode] at ha
  | some c =>
      simp only [cheatcodeArgs, Json.getD, Json.get?, hRead, hCheatcode, Option.map_some,
        Option.getD_some] at ha
      have hOwn := hOpened.cheatcode
      unfold headCheatcode at hOwn
      split at hOwn
      · rw [map_eq_ok] at hOwn
        obtain ⟨c', hFrame, hSome⟩ := hOwn
        rw [hCheatcode, Option.some.injEq] at hSome
        subst hSome
        obtain ⟨decoded, hDecoded, _, hArgs⟩ := frameCheatcode_eq_ok hFrame
        rw [hArgs] at ha
        exact decodeCheatcode_normal hDecoded a ha
      · rw [pure_eq_ok, hCheatcode] at hOwn
        cases hOwn

/-- The observed records of a summary are normal, so they can be hashed and read back. -/
theorem SummaryOf.records_normal {executed : List (Phase × Visit)} {frames : List ArenaFrame}
    {t : TraceSummary} (h : SummaryOf host catalog executed frames t) :
    t.observedRecords.Normal := by
  have hFrameOf : ∀ f ∈ frames, ∃ phase v, FrameOf host phase v f := by
    intro f hf
    obtain ⟨x, _, hFrame⟩ := forall₂_exists_left h.each hf
    exact ⟨x.1, x.2, hFrame⟩
  have hParsed : ∀ frame ∈ t.frames, (∀ log ∈ frame.logs, log.Normal) ∧ frame.caller.Normal ∧
      frame.data.Normal := by
    rw [h.frames]
    intro frame hFrame
    obtain ⟨f, hf, rfl⟩ := List.mem_map.mp hFrame
    obtain ⟨phase, v, hOf⟩ := hFrameOf f hf
    exact ⟨parsed_logs_normal hOf, trivial, trivial⟩
  have hArgs : ∀ c ∈ t.cheatcodes, ∀ a ∈ c.args, a.Normal := by
    rw [h.cheatcodes]
    intro c hc
    obtain ⟨f, hf, hc⟩ := List.mem_flatMap.mp hc
    obtain ⟨phase, v, hOf⟩ := hFrameOf f hf
    unfold recordedCheatcode at hc
    split at hc
    · rw [List.mem_singleton.mp hc]
      exact recorded_args_normal hOf
    · cases hc
  have hEvents : ∀ e ∈ t.assertionEvents, (Json.obj e).Normal := by
    obtain ⟨timestamp, block, final, hLoop, sha, rfl⟩ := h.loop
    have hAssertions : final.assertions = final.frames.flatMap TraceFrame.assertions :=
      (parsed_of_loop hLoop).assertions
    intro e he
    have he : e ∈ final.assertions := he
    rw [hAssertions] at he
    obtain ⟨frame, hFrame, he⟩ := List.mem_flatMap.mp he
    exact assertions_normal (hParsed frame hFrame).1 (hParsed frame hFrame).2.1 e he
  have hMapped : ∀ {α : Type} {record : α → Json} {items : List α},
      (∀ x ∈ items, (record x).Normal) → (Json.arr (items.map record)).Normal := by
    intro α record items hItems
    refine Json.normalItems_iff.mpr fun j hj => ?_
    obtain ⟨x, hx, rfl⟩ := List.mem_map.mp hj
    exact hItems x hx
  refine normal_dictOf fun p hp => ?_
  simp only [List.mem_cons, List.not_mem_nil, or_false] at hp
  rcases hp with rfl | rfl | rfl | rfl | rfl | rfl | rfl
  · exact hMapped fun f hf =>
      f.record_normal (hParsed f hf).1 (hParsed f hf).2.1 (hParsed f hf).2.2
  · exact hMapped fun c hc => c.record_normal (hArgs c hc)
  · exact hMapped fun c _ => c.record_normal
  · exact hMapped hEvents
  · trivial
  · trivial
  · trivial

theorem Phase.text_injective : Function.Injective Phase.text := by
  intro a b h
  cases a <;> cases b <;> first | rfl | exact absurd h (by decide)

theorem textOrNull_injective : Function.Injective textOrNull := by
  intro a b h
  cases a <;> cases b <;> simp_all [textOrNull]

/-- Frames with equal records are observed alike. -/
theorem observed_of_record {f g : TraceFrame} (h : f.record = g.record) :
    f.observed = g.observed := by
  rw [TraceFrame.record, TraceFrame.record, Json.obj.injEq] at h
  have hField := fun key => congrArg (getField? key) h
  simp only [getField?_dictOf] at hField
  have hDepth : f.depth = g.depth := by simpa [lookupLast_cons] using hField "depth"
  have hKind : f.kind = g.kind := by simpa [lookupLast_cons] using hField "kind"
  have hTo : textOrNull f.toAddress = textOrNull g.toAddress := by
    simpa [lookupLast_cons] using hField "to"
  have hSelector : textOrNull f.selector = textOrNull g.selector := by
    simpa [lookupLast_cons] using hField "selector"
  have hPhase : f.phase.text = g.phase.text := by simpa [lookupLast_cons] using hField "phase"
  have hCaller : f.caller = g.caller := by simpa [lookupLast_cons] using hField "caller"
  have hData : f.data = g.data := by simpa [lookupLast_cons] using hField "data"
  have hGas : intOrNull f.gasUsed = intOrNull g.gasUsed := by
    simpa [lookupLast_cons] using hField "gas_used"
  have hSuccess : f.success = g.success := by simpa [lookupLast_cons] using hField "success"
  rw [TraceFrame.observed, TraceFrame.observed, hDepth, hKind, textOrNull_injective hTo,
    textOrNull_injective hSelector, Phase.text_injective hPhase, hCaller, hData, hGas, hSuccess]

/-- Summaries with one digest of their records have frames that are observed alike. -/
theorem observed_of_digest (hHost : host.CollisionFree) {t u : TraceSummary}
    (hT : t.observedRecords.Normal) (hU : u.observedRecords.Normal)
    (h : t.observedRecordsSha256 host = u.observedRecordsSha256 host) :
    t.frames.map TraceFrame.observed = u.frames.map TraceFrame.observed := by
  have hRecords := Json.dumps_injective hT hU (hHost.text h)
  rw [TraceSummary.observedRecords, TraceSummary.observedRecords, Json.obj.injEq] at hRecords
  have hField := congrArg (getField? "frames") hRecords
  simp only [getField?_dictOf] at hField
  have hFrames : t.frames.map TraceFrame.record = u.frames.map TraceFrame.record := by
    simpa [lookupLast_cons] using hField
  generalize t.frames = fs at hFrames
  generalize u.frames = gs at hFrames
  induction fs generalizing gs with
  | nil =>
      rw [List.map_nil, eq_comm, List.map_eq_nil_iff] at hFrames
      rw [hFrames]
  | cons f fs ih =>
      cases gs with
      | nil => simp at hFrames
      | cons g gs =>
          rw [List.map_cons, List.map_cons, List.cons.injEq] at hFrames
          rw [List.map_cons, List.map_cons, observed_of_record hFrames.1, ih gs hFrames.2]

/-- The frames of a summary agree with the executed nodes. -/
def FramesAgree (t : TraceSummary) (executed : List (Phase × Visit)) : Prop :=
  t.frames.map TraceFrame.observed = observedNodes executed

/-- The frames of two summaries agree with the executed nodes, and the digests of the
observed records tell the payloads apart, exactly when no executed node has failed. -/
theorem frames_agree_iff (hHost : host.CollisionFree) {payload payload' : Json}
    {testFile testName testFile' testName' : String} {timestamp block timestamp' block' : Json}
    {schema schema' : Option String} {t u : TraceSummary}
    (h : forgeSummary host catalog payload testFile testName timestamp block schema = .ok t)
    (h' : forgeSummary host catalog payload' testFile' testName' timestamp' block' schema' =
      .ok u) :
    ∃ executed executed', Executed payload testFile testName executed ∧
      Executed payload' testFile' testName' executed' ∧
      (FramesAgree t executed ∧ FramesAgree u executed' ∧
          (observedNodes executed ≠ observedNodes executed' →
            t.observedRecordsSha256 host ≠ u.observedRecordsSha256 host) ↔
        ∀ x ∈ executed ++ executed', x.2.node.failed = false) := by
  obtain ⟨executed, frames, hExecuted, hSummary⟩ := summaryOf_forgeSummary h
  obtain ⟨executed', frames', hExecuted', hSummary'⟩ := summaryOf_forgeSummary h'
  refine ⟨executed, executed', hExecuted, hExecuted', ?_⟩
  rw [List.forall_mem_append, ← hSummary.observed_iff, ← hSummary'.observed_iff]
  constructor
  · exact fun hAll => ⟨hAll.1, hAll.2.1⟩
  · rintro ⟨hFrames, hFrames'⟩
    refine ⟨hFrames, hFrames', fun hDiffer hDigest => hDiffer ?_⟩
    rw [← hFrames, ← hFrames']
    exact observed_of_digest hHost hSummary.records_normal hSummary'.records_normal hDigest

/-- A node of the selected arenas is executed. -/
theorem executed_of_mem {fields result : Fields} {testFile testName key : String}
    {arenas : List (ArenaKind × List Fields)} {executed : List (Phase × Visit)}
    (hTest : passingUnitTest fields testFile testName = .ok (key, result))
    (hArenas : selectArenas ((getField? "traces" result).getD .null) = .ok arenas)
    (h : Executed (.obj fields) testFile testName executed) {phase : Phase}
    {nodes : List Fields} (hMem : (phase, nodes) ∈ inArenaOrder arenas) {node : Fields}
    (hNode : node ∈ nodes) : ∃ x ∈ executed, x.2.node.fields = node := by
  obtain ⟨_, _, _, _, hFields, hTest', hArenas', hOrder⟩ := h
  cases hFields
  rw [hTest, Except.ok.injEq, Prod.mk.injEq] at hTest'
  obtain ⟨rfl, rfl⟩ := hTest'
  rw [hArenas, Except.ok.injEq] at hArenas'
  subst hArenas'
  generalize inArenaOrder arenas = selected at hMem hOrder
  induction hOrder with
  | nil => cases hMem
  | @cons _ _ rest arena root inner more indexed executes _ ih =>
      rcases List.mem_cons.mp hMem with hHere | hMem
      · cases hHere
        have hArena : node ∈ arena.map ArenaNode.fields := by rwa [(indexNodes_eq_ok indexed).1]
        obtain ⟨n, hn, rfl⟩ := List.mem_map.mp hArena
        have hVisits : (⟨[], root, inner⟩ :: inner.visits [root]).map Visit.node =
            root :: inner.order := by rw [List.map_cons, visits_order]
        have hVisited := executes.nodes.mem_iff.mpr hn
        rw [← hVisits] at hVisited
        obtain ⟨v, hv, rfl⟩ := List.mem_map.mp hVisited
        exact ⟨(phase, v), List.mem_append_left _ (List.mem_map_of_mem hv), rfl⟩
      · obtain ⟨x, hx, hFields⟩ := ih hMem
        exact ⟨x, List.mem_append_right _ hx, hFields⟩

/-- A test that calls a contract, which fails. -/
def failingCall : List Fields :=
  [callNode 0 .null "CALL" sampleAddress true [.int 1] [] [[("Call", .int 0)]],
    callNode 1 (.int 0) "CALL" libraryAddress false [] [] []]

/-- The payload with the failing call is summarised. -/
theorem failingCall_summarised :
    (sampleSummary (.digesting hexOfBytes) failingCall).toBool = true := by decide +kernel

/-- The payload with the failing call has one passing test. -/
theorem failingCall_selected : passingUnitTest (forgeOutput failingCall) "test/W.t.sol" "testW" =
    .ok ("test/W.t.sol:W", forgeResult failingCall) := by decide

/-- The payload with the failing call has one arena of execution. -/
theorem failingCall_arenas : selectArenas
    ((getField? "traces" (forgeResult failingCall)).getD .null) = .ok [(.execution, failingCall)] := by
  decide +kernel

/-- The failed call is summarised as one that succeeded. -/
theorem failed_call_disagrees : ∃ t,
    sampleSummary (.digesting hexOfBytes) failingCall = .ok t ∧
      ∀ executed, Executed (.obj (forgeOutput failingCall)) "test/W.t.sol" "testW" executed →
        ¬ FramesAgree t executed := by
  obtain ⟨t, h⟩ := ok_of_toBool failingCall_summarised
  refine ⟨t, h, fun executed hExecuted hAgree => ?_⟩
  have hArena : (Phase.witness, failingCall) ∈ inArenaOrder [(.execution, failingCall)] :=
    List.mem_singleton_self _
  obtain ⟨x, hx, hNode⟩ := executed_of_mem failingCall_selected failingCall_arenas hExecuted hArena
    (List.mem_cons_of_mem _ (List.mem_cons_self ..))
  have hFailed : (x.2.node.observed x.1).success = .bool false := by
    simp [ArenaNode.observed, ArenaNode.trace, ArenaNode.get, hNode, callNode, Json.getD, Json.get?,
      getField?]
  obtain ⟨_, frames, _, hSummary⟩ := summaryOf_forgeSummary h
  have hMem : x.2.node.observed x.1 ∈ t.frames.map TraceFrame.observed :=
    hAgree ▸ List.mem_map_of_mem (f := fun x : Phase × Visit => x.2.node.observed x.1) hx
  rw [hSummary.frames, List.map_map] at hMem
  obtain ⟨f, _, hFrame⟩ := List.mem_map.mp hMem
  rw [← hFrame] at hFailed
  cases hFailed

/-- The agreement of the frames, at the failing call. -/
theorem failingCall_agrees_iff : ∃ (t : TraceSummary) (executed executed' : List (Phase × Visit)),
    Executed (.obj (forgeOutput failingCall)) "test/W.t.sol" "testW" executed ∧
    Executed (.obj (forgeOutput failingCall)) "test/W.t.sol" "testW" executed' ∧
      (FramesAgree t executed ∧ FramesAgree t executed' ∧
          (observedNodes executed ≠ observedNodes executed' →
            t.observedRecordsSha256 (.digesting hexOfBytes) ≠
              t.observedRecordsSha256 (.digesting hexOfBytes)) ↔
        ∀ x ∈ executed ++ executed', x.2.node.failed = false) := by
  obtain ⟨t, h⟩ := ok_of_toBool failingCall_summarised
  have hHost : (Host.digesting hexOfBytes).CollisionFree := hexOfBytes_injective
  exact ⟨t, frames_agree_iff hHost h h⟩

end Frames

end L0vi0x.Chain
