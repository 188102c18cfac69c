import L0vi0x.Chain.PlainFrames
import L0vi0x.Chain.TraceFidelity

/-! The emitters that a trace summary gives its assertions, and an assertion logged by a library
on behalf of its caller. -/
namespace L0vi0x.Chain

open L0vi0x.Python L0vi0x.Core

section Emitters

variable {host : Host} {catalog : List (String × String)}

/-- The address that a log of an arena records. -/
def logAddress (entry : Json) : String := lower (entry.getD "address" .null).text

def logTopic (entry : Json) : Option String :=
  match (entry.getD "raw_log" .null).getD "topics" .null with
  | .arr (.str topic :: _) => some (lower topic)
  | _ => none

/-- Whether a failed call on the way to the node undid what it logged. -/
def Visit.reverted (v : Visit) : Bool := (v.above ++ [v.node]).any ArenaNode.failed

/-- The `AssertionChecked` logs of a node that were not reverted. -/
def standingAssertions (host : Host) (v : Visit) : List Json :=
  v.inner.entries.filter fun entry =>
    !v.reverted && logTopic entry = some (topic0 host assertionSignature)

/-- The keys that no argument of an event has. -/
def logKeys : List String := ["event", "emitter", "reverted", "address", "topics", "data"]

theorem namedArguments_keys {event : Signature} {indexed : String} {topics names : List String}
    {data : String} {pairs : List (String × Json)} (hNames : ∀ key ∈ logKeys, key ∉ "id" :: names)
    (h : namedArguments names <$> decodeIndexed event indexed topics data = .ok pairs) :
    ∀ key ∈ logKeys, lookupLast key pairs = none := by
  rw [map_eq_ok] at h
  obtain ⟨decoded, _, rfl⟩ := h
  intro key hKey
  refine lookupLast_of_not_mem fun hMem => hNames key hKey ?_
  rw [namedArguments, List.map_cons] at hMem
  rcases List.mem_cons.mp hMem with rfl | hMem
  · exact List.mem_cons_self ..
  · obtain ⟨p, hp, rfl⟩ := List.mem_map.mp hMem
    exact List.mem_cons_of_mem _ (List.of_mem_zip hp).1

/-- The details of a log name its event, and hold no other field of the log. -/
theorem decodeLog_event {address data : String} {topics : List String} {reverted : Bool}
    {decoded : List (String × Json) × Option Fields}
    (h : decodeLog host address topics data reverted = .ok decoded) :
    (lookupLast "event" decoded.1 = some (.str "AssertionChecked") ↔
        topics.head? = some (topic0 host assertionSignature)) ∧
      ∀ key ∈ logKeys, key ≠ "event" → lookupLast key decoded.1 = none := by
  have hEvent : ∀ {name : String} {body : Py (List (String × Json))},
      (do pure (("event", Json.str name) :: (← body), (none : Option Fields))) = .ok decoded →
      (∀ pairs, body = .ok pairs → ∀ key ∈ logKeys, lookupLast key pairs = none) →
      lookupLast "event" decoded.1 = some (.str name) ∧
        ∀ key ∈ logKeys, key ≠ "event" → lookupLast key decoded.1 = none := by
    intro name body hBody hKeys
    simp only [bind_eq_ok, pure_eq_ok] at hBody
    obtain ⟨pairs, hPairs, rfl⟩ := hBody
    have hNone := hKeys pairs hPairs
    refine ⟨by simp [lookupLast_cons, hNone "event" (by decide)], fun key hKey hNe => ?_⟩
    simp [lookupLast_cons, hNone key hKey, Ne.symm hNe]
  have hOther : decoded.1 = [] → (lookupLast "event" decoded.1 = some (.str "AssertionChecked") ↔
      False) ∧ ∀ key ∈ logKeys, key ≠ "event" → lookupLast key decoded.1 = none := by
    intro hNil
    simp [hNil]
  unfold decodeLog at h
  dsimp only at h
  by_cases hAssertion : topics.head? = some (topic0 host assertionSignature)
  · rw [if_pos hAssertion] at h
    obtain ⟨hName, hKeys⟩ := hEvent h fun _ hPairs => namedArguments_keys (by decide) hPairs
    exact ⟨by simp [hName, hAssertion], hKeys⟩
  · rw [if_neg hAssertion] at h
    rw [iff_false_intro hAssertion]
    split at h
    · obtain ⟨hName, hKeys⟩ := hEvent h fun _ hPairs => namedArguments_keys (by decide) hPairs
      exact ⟨by simp [hName], hKeys⟩
    · split at h
      · obtain ⟨hName, hKeys⟩ := hEvent h fun _ hPairs => namedArguments_keys (by decide) hPairs
        exact ⟨by simp [hName], hKeys⟩
      · split at h
        · obtain ⟨hName, hKeys⟩ := hEvent h fun _ hPairs => namedArguments_keys (by decide) hPairs
          exact ⟨by simp [hName], hKeys⟩
        · refine hOther ?_
          split at h
          · simp only [bind_eq_ok, pure_eq_ok] at h
            obtain ⟨_, _, rfl⟩ := h
            rfl
          · rw [pure_eq_ok] at h
            rw [← h]

/-- Topics are read from a list of texts, and are those texts. -/
theorem rawTopics_eq_ok {value : Json} {topics : List String} (h : rawTopics value = .ok topics) :
    value = .arr (topics.map Json.str) := by
  unfold rawTopics at h
  split at h
  · rename_i items
    split at h
    · rename_i given hGiven
      split at h
      · simp [formatError] at h
      · rename_i hFew
        rw [pure_eq_ok] at h
        subst h
        clear hFew
        congr 1
        induction items generalizing given with
        | nil =>
            rw [List.mapM_nil] at hGiven
            cases hGiven
            rfl
        | cons item rest ih =>
            simp only [List.mapM_cons, bind, Option.bind_eq_some_iff] at hGiven
            obtain ⟨s, hItem, more, hMore, hEq⟩ := hGiven
            cases hEq
            split at hItem
            · cases hItem
              rw [List.map_cons, ← ih more hMore]
            · cases hItem
    · simp [formatError] at h
  · simp [formatError] at h

structure LogOf (host : Host) (entry : Json) (log : ArenaLog) : Prop where
  address : log.address = logAddress entry
  event : isEvent "AssertionChecked" log.json =
    decide (logTopic entry = some (topic0 host assertionSignature))
  emitter : log.json.get? "emitter" = none
  reverted : log.json.get? "reverted" = some (.bool log.reverted)
  recorded : log.json.get? "address" = some (.str log.address)

theorem logOf_of_convertLog {entry : Json} {reverted : Bool} {log : ArenaLog}
    (h : convertLog host entry reverted = .ok log) : LogOf host entry log := by
  unfold convertLog at h
  split at h
  · rename_i raw hRaw
    simp only [bind_eq_ok, pure_eq_ok] at h
    obtain ⟨given, hGiven, address, hAddress, topics, hTopics, data, _, decoded, hDecoded, rfl⟩ := h
    obtain ⟨sender, hSender, rfl, _⟩ := addressText_eq_ok hAddress
    obtain ⟨hEvent, hKeys⟩ := decodeLog_event hDecoded
    have hTopic : logTopic entry = topics.head? := by
      have hRawLog : entry.getD "raw_log" .null = .obj raw := by rw [Json.getD, hRaw]; rfl
      rw [logTopic, hRawLog, rawTopics_eq_ok hGiven]
      cases hTopics' : mapM_eq_ok.mp hTopics with
      | nil => rfl
      | cons hHead _ =>
          obtain ⟨s, hs, rfl⟩ := hexText_eq_ok hHead
          cases hs
          rfl
    have hGet : ∀ key, (ArenaLog.json ⟨lower sender, topics, data, reverted, decoded.1,
        decoded.2⟩).get? key = (lookupLast key decoded.1).or (lookupLast key
          [("address", .str (lower sender)), ("topics", textItems topics), ("data", .str data),
            ("reverted", .bool reverted)]) := by
      intro key
      rw [ArenaLog.json, Json.get?, getField?_dictOf, lookupLast_append]
    refine ⟨?_, ?_, ?_, ?_, ?_⟩
    · rw [logAddress, hSender, Json.text_str]
    · rw [isEvent, hGet, hTopic]
      congr 1
      rw [← hEvent]
      cases lookupLast "event" decoded.1 <;> simp [lookupLast_cons]
    · rw [hGet, hKeys "emitter" (by decide) (by decide)]
      simp [lookupLast_cons]
    · rw [hGet, hKeys "reverted" (by decide) (by decide)]
      simp [lookupLast_cons]
    · rw [hGet, hKeys "address" (by decide) (by decide)]
      simp [lookupLast_cons]
  · simp [formatError] at h

/-- An assertion event that was decoded from a log of a node: its emitter is the
address of the node, and it holds the fields of the log. -/
structure EventOf (host : Host) (node : ArenaNode) (entry : Json) (event : Fields) : Prop where
  emitter : getField? "emitter" event = some (.str node.address)
  log : ∃ log, convertLog host entry false = .ok log ∧
    ∀ key ∉ ["depth", "caller", "emitter", "actor", "token"],
      getField? key event = log.json.get? key

/-- Enriching an event changes only its emitter, its caller, its actor and its token. -/
theorem enrich_get? {frame : TraceFrame} {contexts : List (String × Json)} {log : Fields}
    {key : String} (hActor : key ≠ "actor") (hToken : key ≠ "token") :
    getField? key (enrich frame contexts log) = getField? key
      (setField "emitter" ((Json.obj log).getD "emitter" (textOrNull frame.toAddress))
        (setField "caller" ((Json.obj log).getD "caller" frame.caller)
          (setField "depth" (.int frame.depth) log))) := by
  dsimp only [enrich]
  split
  · rw [getField?_setField_ne _ _ hToken, getField?_setField_ne _ _ hActor]
  · rfl

/-- An enriched assertion event holds the fields of its log, and the address of its node. -/
theorem eventOf_enrich {v : Visit} {f : ArenaFrame} {entry : Json} {log : ArenaLog} {fields : Fields}
    {contexts : List (String × Json)} {phase : Phase} (h : FrameOf host phase v f)
    (hLog : convertLog host entry false = .ok log) (hFields : log.json = .obj fields) :
    EventOf host v.node entry (enrich f.parsed contexts fields) := by
  have hOf := logOf_of_convertLog hLog
  have hOpened := openedFrom_of_openFrame h.head
  refine ⟨?_, log, hLog, fun key hKey => ?_⟩
  · have hNone : getField? "emitter" fields = none := by
      rw [← Json.get?, ← hFields]
      exact hOf.emitter
    rw [enrich_get? (by decide) (by decide), getField?_setField_self, Json.getD, Json.get?, hNone,
      ArenaFrame.parsed, hOpened.toAddress]
    rfl
  · simp only [List.mem_cons, List.not_mem_nil, or_false, not_or] at hKey
    rw [enrich_get? hKey.2.2.2.1 hKey.2.2.2.2, getField?_setField_ne _ _ hKey.2.2.1,
      getField?_setField_ne _ _ hKey.2.1, getField?_setField_ne _ _ hKey.1, hFields, Json.get?]

/-- A node is reverted when it or a node above it has failed. -/
theorem visit_reverted_iff {v : Visit} : v.reverted = true ↔
    ∃ n ∈ v.above ++ [v.node], n.failed = true := by
  rw [Visit.reverted, List.any_eq_true]

/-- The assertion events of a frame are the standing assertions of its node. -/
theorem events_of_frame {phase : Phase} {v : Visit} {f : ArenaFrame} (h : FrameOf host phase v f) :
    List.Forall₂ (EventOf host v.node) (standingAssertions host v) f.parsed.assertions := by
  have hMarked : ∀ log ∈ f.logs, log.reverted = v.reverted := fun log hLog => by
    rw [Bool.eq_iff_iff, h.reverted log hLog, visit_reverted_iff]
  have hEach : ∀ (contexts : List (String × Json)) (g : Json → Option Fields),
      (∀ fields, g (.obj fields) =
        if stands f.parsed (.obj fields) && isEvent "AssertionChecked" (.obj fields) then
          some (enrich f.parsed contexts fields) else none) →
      ∀ (entries : List Json) (logs : List ArenaLog),
      List.Forall₂ (fun entry log => convertLog host entry log.reverted = .ok log) entries logs →
      (∀ log ∈ logs, log.reverted = v.reverted) →
      List.Forall₂ (EventOf host v.node)
        (entries.filter fun entry =>
          !v.reverted && logTopic entry = some (topic0 host assertionSignature))
        ((logs.map ArenaLog.json).filterMap g) := by
    intro contexts g hg entries logs hLogs
    induction hLogs with
    | nil => exact fun _ => .nil
    | @cons entry log entries logs hLog _ ih =>
        intro hAll
        rw [List.forall_mem_cons] at hAll
        have hOf := logOf_of_convertLog hLog
        have hStands : stands f.parsed log.json = !v.reverted := by
          rw [stands, Json.getD, hOf.reverted, hAll.1]
          cases v.reverted <;> rfl
        obtain ⟨fields, hFields⟩ : ∃ fields, log.json = .obj fields := ⟨_, rfl⟩
        have hEvent := hOf.event
        rw [hFields] at hStands hEvent
        rw [List.filter_cons, List.map_cons, List.filterMap_cons, hFields, hg]
        simp only [hStands, hEvent]
        by_cases hCase : (!v.reverted && decide (logTopic entry =
            some (topic0 host assertionSignature))) = true
        · have hStood : v.reverted = false := by
            rw [Bool.and_eq_true, Bool.not_eq_true'] at hCase
            exact hCase.1
          rw [hAll.1, hStood] at hLog
          simp only [hCase, ↓reduceIte]
          exact .cons (eventOf_enrich h hLog hFields) (ih hAll.2)
        · simp only [hCase, Bool.false_eq_true, ↓reduceIte]
          exact ih hAll.2
  exact hEach _ _ (fun _ => rfl) _ _ h.logs hMarked

/-- The standing assertion logs of the executed nodes, each with its node. -/
def loggedAssertions (host : Host) (executed : List (Phase × Visit)) : List (ArenaNode × Json) :=
  executed.flatMap fun x => (standingAssertions host x.2).map (x.2.node, ·)

/-- The assertion events of a summary are those of the standing assertion logs, in their order. -/
theorem SummaryOf.events {executed : List (Phase × Visit)} {frames : List ArenaFrame}
    {t : TraceSummary} (h : SummaryOf host catalog executed frames t) :
    List.Forall₂ (fun p event => EventOf host p.1 p.2 event) (loggedAssertions host executed)
      t.assertionEvents := by
  have hEvents : t.assertionEvents = t.frames.flatMap TraceFrame.assertions := by
    obtain ⟨timestamp, block, final, hLoop, sha, rfl⟩ := h.loop
    exact (parsed_of_loop hLoop).assertions
  have hEach := h.each
  rw [hEvents, h.frames, List.flatMap_map]
  clear h hEvents
  induction hEach with
  | nil => exact .nil
  | @cons x f _ _ hFrame _ ih =>
      have hHere : List.Forall₂ (fun (p : ArenaNode × Json) event => EventOf host p.1 p.2 event)
          ((standingAssertions host x.2).map (x.2.node, ·)) f.parsed.assertions :=
        List.forall₂_map_left_iff.mpr (events_of_frame hFrame)
      rw [loggedAssertions, List.flatMap_cons, List.flatMap_cons]
      exact List.rel_append hHere ih

/-- The emitters are those that the logs record. -/
def TruthfulEmitters (host : Host) (executed : List (Phase × Visit)) (t : TraceSummary) : Prop :=
  List.Forall₂ (fun p event => EventOf host p.1 p.2 event ∧
      getField? "emitter" event = some (.str (logAddress p.2)))
    (loggedAssertions host executed) t.assertionEvents

/-- The emitters are those of the logs when every standing assertion log is of the address of its
node. -/
theorem SummaryOf.truthful_iff {executed : List (Phase × Visit)} {frames : List ArenaFrame}
    {t : TraceSummary} (h : SummaryOf host catalog executed frames t) :
    TruthfulEmitters host executed t ↔
      ∀ p ∈ loggedAssertions host executed, logAddress p.2 = p.1.address := by
  have hEvents := h.events
  unfold TruthfulEmitters
  clear h
  generalize loggedAssertions host executed = logged at hEvents ⊢
  generalize t.assertionEvents = events at hEvents ⊢
  induction hEvents with
  | nil => simp
  | @cons p event rest events hEvent _ ih =>
      rw [List.forall₂_cons, List.forall_mem_cons]
      refine and_congr ?_ ih
      rw [hEvent.emitter, Option.some.injEq, Json.str.injEq, eq_comm (b := logAddress p.2)]
      exact and_iff_right hEvent

/-- Every assertion event of a summary has the emitter that its log records, exactly
when each log that stands was emitted under the address of its node. -/
theorem emitters_truthful_iff {payload : Json} {testFile testName : String}
    {timestamp block : Json} {schema : Option String} {t : TraceSummary}
    (h : forgeSummary host catalog payload testFile testName timestamp block schema = .ok t) :
    ∃ executed, Executed payload testFile testName executed ∧
      (TruthfulEmitters host executed t ↔
        ∀ p ∈ loggedAssertions host executed, logAddress p.2 = p.1.address) := by
  obtain ⟨executed, frames, hExecuted, hSummary⟩ := summaryOf_forgeSummary h
  exact ⟨executed, hExecuted, hSummary.truthful_iff⟩

/-- Where the emitters are truthful, the emitter of an event is its recorded address. -/
theorem TruthfulEmitters.same {executed : List (Phase × Visit)} {t : TraceSummary}
    (h : TruthfulEmitters host executed t) {event : Fields} (hMem : event ∈ t.assertionEvents) :
    getField? "emitter" event = getField? "address" event := by
  obtain ⟨p, _, hEvent, hEmitter⟩ := forall₂_exists_left h hMem
  obtain ⟨log, hLog, hFields⟩ := hEvent.log
  have hOf := logOf_of_convertLog hLog
  rw [hEmitter, hFields "address" (by decide), hOf.recorded, hOf.address]

end Emitters

section Delegated

/-- A text in lower-case hexadecimal digits is accepted as it stands. -/
theorem hexText_ofList {body : List Char} {raw : Bytes} (label : String)
    (hBody : bytesOfHexChars? body = some raw) (hLower : body.map Char.toLower = body) :
    hexText (.str (String.ofList ('0' :: 'x' :: body))) label =
      .ok (String.ofList ('0' :: 'x' :: body)) := by
  have hStart : startsWith (String.ofList ('0' :: 'x' :: body)) "0x" = true := by
    simp [startsWith]
  have hHex : bytesOfHex? (dropText (String.ofList ('0' :: 'x' :: body)) 2) = some raw := by
    simp [bytesOfHex?, dropText, hBody]
  have hSame : lower (String.ofList ('0' :: 'x' :: body)) = String.ofList ('0' :: 'x' :: body) := by
    simp only [lower, String.toList_ofList, List.map_cons, hLower]
    rfl
  simp only [hexText, hStart, hHex, hSame, ↓reduceIte]
  rfl

/-- A text of `0x` and hexadecimal digits is decoded to its bytes. -/
theorem hexBody_ofList {body : List Char} {raw : Bytes} (hBody : bytesOfHexChars? body = some raw) :
    hexBody (String.ofList ('0' :: 'x' :: body)) = .ok raw := by
  simp only [hexBody, bytesOfHex, bytesOfHex?, dropText, String.toList_ofList, List.drop_succ_cons,
    List.drop_zero, hBody]
  rfl
def assertionDigest : Bytes :=
  [171, 167, 129, 59, 231, 124, 165, 214, 0, 174, 70, 181, 13, 32, 9, 141, 53, 71, 28, 245, 212,
    29, 175, 98, 182, 140, 237, 62, 95, 172, 186, 38]

def assertionHost : Host :=
  { Host.digesting hexOfBytes with
    keccak := fun raw =>
      if raw = encodeUtf8 assertionSignature.text then assertionDigest else [] }

theorem topic0_assertionHost :
    topic0 assertionHost assertionSignature = "0x" ++ hexOfBytes assertionDigest := by
  simp [topic0, assertionHost]

def abiWord (n : Nat) : Bytes := List.replicate 31 0 ++ [UInt8.ofNat n]

def abiData : Bytes := [160, 192, 5, 5, 1, 0, 0].flatMap abiWord

def hexDigits (raw : Bytes) : List Char :=
  raw.flatMap fun b => [hexDigit (b.toNat / 16), hexDigit (b.toNat % 16)]

theorem hexDigits_eq (raw : Bytes) : (hexOfBytes raw).toList = hexDigits raw := by
  rw [hexOfBytes, String.toList_ofList, hexDigits]

/-- The digits of a byte string are read back, and are in lower case. -/
theorem hexDigits_read (raw : Bytes) : bytesOfHexChars? (hexDigits raw) = some raw ∧
    (hexDigits raw).map Char.toLower = hexDigits raw := by
  have hLower := congrArg String.toList (lower_hexOfBytes raw)
  rw [lower, String.toList_ofList, hexDigits_eq] at hLower
  exact ⟨by rw [← hexDigits_eq]; exact bytesOfHex?_hexOfBytes raw, hLower⟩

/-- The data of the sample log decodes to an assertion that has passed. -/
theorem abiData_decoded : decodeAbiArguments assertionSignature.types.tail abiData =
    .ok [.str "", .str "", .int 5, .int 5, .bool true] := by decide +kernel

def hexString (raw : Bytes) : String := String.ofList ('0' :: 'x' :: hexDigits raw)

/-- The two addresses of the sample are well formed, and are not the cheatcode address. -/
theorem addresses_spelled : startsWith sampleAddress "0x" = true ∧
    (bytesOfHex? (dropText sampleAddress 2)).isSome = true ∧ lower sampleAddress = sampleAddress ∧
      sampleAddress.length = 42 ∧ sampleAddress ≠ "" ∧ lower sampleAddress ≠ cheatcodeAddress ∧
        libraryAddress ≠ "" ∧ lower libraryAddress ≠ cheatcodeAddress := by decide +kernel

/-- The address of the sample is accepted under any label. -/
theorem sampleAddress_accepted (label : String) :
    addressText (.str sampleAddress) label = .ok sampleAddress := by
  obtain ⟨hStart, hBody, hLower, hLength, _⟩ := addresses_spelled
  have hHex : ∀ label, hexText (.str sampleAddress) label = .ok sampleAddress := by
    intro label
    obtain ⟨raw, hRaw⟩ := Option.isSome_iff_exists.mp hBody
    simp only [hexText, hStart, hRaw, hLower, ↓reduceIte]
    rfl
  simp only [addressText, hHex, hLength, ↓reduceIte, bind, Except.bind]
  rfl

/-- The topic of the event is written as a hexadecimal text. -/
theorem topic_hex : topic0 assertionHost assertionSignature = hexString assertionDigest := by
  rw [topic0_assertionHost, hexOfBytes]
  refine String.toList_injective ?_
  rw [String.toList_append, hexString, String.toList_ofList, String.toList_ofList]
  simp [hexDigits]

theorem word_length : (hexString (abiWord 1)).length = 66 := by
  rw [hexString, String.length_ofList]
  decide

theorem word_label : bytes32Label (hexString (abiWord 1)) = .ok (hexString (abiWord 1)) := by
  have hBody : hexBody (hexString (abiWord 1)) = .ok (abiWord 1) :=
    hexBody_ofList (hexDigits_read _).1
  have hNot : (!((abiWord 1).reverse.dropWhile (· = 0)).reverse.isEmpty &&
      ((abiWord 1).reverse.dropWhile (· = 0)).reverse.all
        (fun b => 32 ≤ b.toNat && b.toNat ≤ 126)) = false := by decide
  simp only [bytes32Label, hBody, bind, Except.bind, hNot, Bool.false_eq_true, ↓reduceIte]
  rfl

/-- A log of an assertion with these topics and data. -/
def logEntry (emitter : String) (topics : List String) (data : String) : Json :=
  .obj [("address", .str emitter), ("raw_log", .obj [("data", .str data),
    ("topics", .arr (topics.map Json.str))])]

/-- An assertion event is decoded from its topic, its label and its decoded data. -/
theorem decodeAssertion_of_args {topic word label data : String} {raw : Bytes}
    {kind target observed expected passed : Json} (hLength : word.length = 66)
    (hBody : hexBody data = .ok raw)
    (hArgs : decodeAbiArguments assertionSignature.types.tail raw =
      .ok [kind, target, observed, expected, passed])
    (hLabel : bytes32Label word = .ok label) :
    decodeAssertion [topic, word] data = .ok [("id", .str label), ("kind", kind),
      ("target", target), ("observed", observed), ("expected", expected), ("ok", passed)] := by
  simp [decodeAssertion, decodeIndexed, hLength, raiseIf, hBody, bind, Except.bind, decoding, hArgs,
    except, hLabel, Functor.map, Except.map, pure, Except.pure, namedArguments]

/-- A log with the topic of assertions is converted to an assertion event. -/
theorem convertLog_assertion {host : Host} {emitter topic word data : String}
    {pairs : List (String × Json)}
    (hTopic : topic0 host assertionSignature = topic)
    (hEmitter : addressText (.str emitter) "log emitter" = .ok emitter)
    (hFirst : hexText (.str topic) "log topic" = .ok topic)
    (hSecond : hexText (.str word) "log topic" = .ok word)
    (hData : hexText (.str data) "log data" = .ok data)
    (hPairs : decodeAssertion [topic, word] data = .ok pairs) :
    convertLog host (logEntry emitter [topic, word] data) false =
      .ok ⟨emitter, [topic, word], data, false, ("event", .str "AssertionChecked") :: pairs, none⟩ := by
  have hRaw : (logEntry emitter [topic, word] data).get? "raw_log" = some (.obj
      [("data", .str data), ("topics", .arr [.str topic, .str word])]) := by
    simp [logEntry, Json.get?, getField?]
  have hTopics : rawTopics (.arr [.str topic, .str word]) = .ok [topic, word] := rfl
  simp only [convertLog, hRaw]
  simp [Json.getD, Json.get?, getField?, hTopics, hFirst, hSecond, hData, decodeLog, hTopic, hPairs,
    bind, Except.bind, pure, Except.pure, logEntry, hEmitter]

def assertionTopics : List String := [hexString assertionDigest, hexString (abiWord 1)]

/-- A converted assertion that was not reverted is an assertion event. -/
theorem isEvent_assertion {address word data : String} {topics : List String} {reverted : Bool}
    {transfer : Option Fields} {kind target observed expected passed : Json} :
    isEvent "AssertionChecked" (ArenaLog.json ⟨address, topics, data, reverted,
      [("event", .str "AssertionChecked"), ("id", .str word), ("kind", kind), ("target", target),
        ("observed", observed), ("expected", expected), ("ok", passed)], transfer⟩) = true := by
  simp [isEvent, ArenaLog.json, Json.get?, getField?_dictOf, lookupLast_cons]

/-- The log of the sample is converted to an assertion event of its address. -/
theorem assertionLog_converted : ∃ pairs, convertLog assertionHost
    (logEntry sampleAddress assertionTopics (hexString abiData)) false = .ok ⟨sampleAddress,
      assertionTopics, hexString abiData, false, ("event", .str "AssertionChecked") :: pairs, none⟩ ∧
    isEvent "AssertionChecked" (ArenaLog.json ⟨sampleAddress, assertionTopics, hexString abiData,
      false, ("event", .str "AssertionChecked") :: pairs, none⟩) = true :=
  ⟨_, convertLog_assertion topic_hex (sampleAddress_accepted _)
    (hexText_ofList _ (hexDigits_read _).1 (hexDigits_read _).2)
    (hexText_ofList _ (hexDigits_read _).1 (hexDigits_read _).2)
    (hexText_ofList _ (hexDigits_read _).1 (hexDigits_read _).2)
    (decodeAssertion_of_args word_length (hexBody_ofList (hexDigits_read _).1) abiData_decoded
      word_label), isEvent_assertion⟩

/-- A test that runs the code of a library, which emits a log. -/
def delegatedLog (entry : Json) : List Fields :=
  [callNode 0 .null "CALL" sampleAddress true [.int 1] [] [[("Call", .int 0)]],
    callNode 1 (.int 0) "DELEGATECALL" libraryAddress true [] [entry] [[("Log", .int 0)]]]

/-- A root that makes one call, to a node that emits one log. -/
theorem walk_callThenLog {host : Host} {phase : Phase} {root leaf : ArenaNode} {entry : Json}
    {log : ArenaLog} {caller callee : FrameHead}
    (hRoot : root.idx = 0 ∧ root.isRoot = true ∧ root.get "children" = .arr [.int 1] ∧
      root.get "logs" = .arr [] ∧ ordering root = .ok [[("Call", .int 0)]])
    (hLeaf : leaf.idx = 1 ∧ leaf.isRoot = false ∧ leaf.get "parent" = .int 0 ∧
      leaf.get "children" = .arr [] ∧ leaf.get "logs" = .arr [entry] ∧
      ordering leaf = .ok [[("Log", .int 0)]])
    (hCaller : openFrame host phase root = .ok caller)
    (hCallee : openFrame host phase leaf = .ok callee)
    (hSuccess : caller.success = true ∧ callee.success = true)
    (hLog : convertLog host entry false = .ok log) :
    ∃ s, startWalk host phase [root, leaf] [] = .ok s ∧
      walk host phase [root, leaf] 5 s =
        some (.ok ⟨.mk caller [] [.mk callee [log] []], [0, 1], [log.derived]⟩) := by
  obtain ⟨hIdx, hIsRoot, hChildren, hLogs, hOrder⟩ := hRoot
  obtain ⟨hIdx', hIsRoot', hParent, hChildren', hLogs', hOrder'⟩ := hLeaf
  refine ⟨⟨⟨root, caller, false, [[("Call", .int 0)]], [], [], [], []⟩, [], [0], []⟩, ?_, ?_⟩
  · simp [startWalk, hIsRoot, hIsRoot', openNode, raiseIf, hCaller, hOrder, hSuccess.1, hIdx, bind,
      Except.bind, pure, Except.pure]
  · have hCall : arenaStep [("Call", .int 0)] = .call (.int 0) := by simp [arenaStep, getField?]
    have hEmit : arenaStep [("Log", .int 0)] = .log (.int 0) := by simp [arenaStep, getField?]
    have hFree : freePosition (.int 0) 1 [] = some 0 := by decide
    have hEqual : ∀ i j : Int, (Json.int i).pyEq (.int j) = decide (i = j) := fun i j => by
      simp [Json.pyEq, Json.number?, Number.eq]
    have hFound : lookupNode [root, leaf] (.int 1) = .ok (some leaf) := by
      simp [lookupNode, hEqual, hIdx, hIdx', pure, Except.pure]
    have hChild : childAt [root, leaf] root 0 = .ok leaf := by
      simp [childAt, ArenaNode.listed, hChildren, hFound, hParent, hIdx, hEqual, bind, Except.bind,
        pure, Except.pure]
    have hOpened : openNode host phase [0] false leaf =
        .ok ⟨leaf, callee, false, [[("Log", .int 0)]], [], [], [], []⟩ := by
      simp [openNode, raiseIf, hCallee, hOrder', hIdx', hSuccess.2, bind, Except.bind, pure,
        Except.pure]
    simp [walk, walkStep, hCall, hEmit, takeCall, takeLog, hFree, hChild, hOpened,
      ArenaNode.listed, hChildren, hLogs, hChildren', hLogs', hIdx', requireConsumed, sizeOrZero,
      Json.truthy, raiseIf, popFrame, OpenNode.frame, hLog, bind, Except.bind, pure, Except.pure,
      Functor.map, Except.map]

theorem forgeOutput_selected (nodes : List Fields) :
    passingUnitTest (forgeOutput nodes) "test/W.t.sol" "testW" =
      .ok ("test/W.t.sol:W", forgeResult nodes) := by
  have hPath : beforeLast ':' "test/W.t.sol:W" = "test/W.t.sol" := by decide
  have hName : "testW()" = "testW" ++ "()" := by decide
  simp [passingUnitTest, forgeOutput, selectSuite, hPath, selectTest, namedResult, ← hName, getField?,
    forgeResult, Json.get?, raiseIf, bind, Except.bind, pure, Except.pure]

theorem selectArenas_forgeResult {nodes : List Fields} (h : nodes ≠ []) :
    selectArenas ((getField? "traces" (forgeResult nodes)).getD .null) = .ok [(.execution, nodes)] := by
  have hAll : ∀ g : Json → Option Fields, (∀ fields, g (.obj fields) = some fields) →
      ∀ items : List Fields, (items.map Json.obj).mapM g = some items := by
    intro g hg items
    induction items with
    | nil => rfl
    | cons item rest ih =>
        rw [List.map_cons, List.mapM_cons, hg, ih]
        rfl
  have hNodes : arenaNodes (.arr (nodes.map Json.obj)) = some nodes := by
    obtain _ | ⟨node, rest⟩ := nodes
    · exact absurd rfl h
    · exact hAll _ (fun _ => rfl) (node :: rest)
  have hKind : arenaOrder.find? (·.text = "Execution") = some .execution := by decide
  simp [forgeResult, getField?, selectArenas, selectArena, hKind, hNodes, raiseIf, bind, Except.bind,
    pure, Except.pure]

/-- The log of an assertion that the test makes through a library. -/
def assertionEntry : Json := logEntry sampleAddress assertionTopics (hexString abiData)

def callerHead : FrameHead :=
  ⟨0, "call", sampleAddress, sampleAddress, .witness, "0x", none, 0, true, none⟩

def calleeHead : FrameHead :=
  ⟨1, "delegatecall", libraryAddress, sampleAddress, .witness, "0x", none, 0, true, none⟩

def callerNode : ArenaNode :=
  ⟨0, callNode 0 .null "CALL" sampleAddress true [.int 1] [] [[("Call", .int 0)]]⟩

def calleeNode (entry : Json) : ArenaNode :=
  ⟨1, callNode 1 (.int 0) "DELEGATECALL" libraryAddress true [] [entry] [[("Log", .int 0)]]⟩

theorem delegated_opened : openFrame assertionHost .witness callerNode = .ok callerHead ∧
    openFrame assertionHost .witness (calleeNode assertionEntry) = .ok calleeHead := by
  decide +kernel

/-- The arena of a delegated call is converted to its two frames. -/
theorem delegated_converted {host : Host} {entry : Json} {log : ArenaLog}
    (hCaller : openFrame host .witness callerNode = .ok callerHead)
    (hCallee : openFrame host .witness (calleeNode entry) = .ok calleeHead)
    (hLog : convertLog host entry false = .ok log) :
    convertArenas host (inArenaOrder [(.execution, delegatedLog entry)]) [] =
      .ok ([.mk callerHead [] [.mk calleeHead [log] []]], [log.derived]) := by
  have hIndex : indexNodes (delegatedLog entry) = .ok [callerNode, calleeNode entry] := by
    simp [indexNodes, delegatedLog, callNode, getField?, callerNode, calleeNode, bind, Except.bind,
      pure, Except.pure]
  obtain ⟨s, hStart, hWalk⟩ := walk_callThenLog
    (by simp [callerNode, callNode, ArenaNode.isRoot, ArenaNode.get, ordering, Json.getD,
      Json.get?, getField?, pure, Except.pure])
    (by simp [calleeNode, callNode, ArenaNode.isRoot, ArenaNode.get, ordering, Json.getD,
      Json.get?, getField?, pure, Except.pure])
    hCaller hCallee ⟨rfl, rfl⟩ hLog
  have hFuel : arenaFuel (delegatedLog entry) = 5 := by
    simp [arenaFuel, delegatedLog, ArenaNode.entryCount, ArenaNode.listed, ArenaNode.get, callNode,
      Json.getD, Json.get?, getField?]
  have hWithin : convertArenaWithin (arenaFuel (delegatedLog entry)) host .witness
      (delegatedLog entry) [] =
        some (.ok (.mk callerHead [] [.mk calleeHead [log] []], [log.derived])) := by
    simp [convertArenaWithin, hIndex, hStart, hFuel, hWalk, walkedAll, raiseIf, bind, Except.bind,
      pure, Except.pure]
  have hArena : convertArena host .witness (delegatedLog entry) [] =
      .ok (.mk callerHead [] [.mk calleeHead [log] []], [log.derived]) := by
    simp [convertArena, hWithin]
  have hOrder : inArenaOrder [(.execution, delegatedLog entry)] =
      [(.witness, delegatedLog entry)] := by
    simp [inArenaOrder, arenaOrder, ArenaKind.phase]
  simp [hOrder, convertArenas, hArena, bind, Except.bind, pure, Except.pure]

/-- The assertion events of a summary are those of its frames, in their order. -/
theorem SummaryOf.assertionEvents {host : Host} {catalog : List (String × String)}
    {executed : List (Phase × Visit)} {frames : List ArenaFrame} {t : TraceSummary}
    (h : SummaryOf host catalog executed frames t) :
    t.assertionEvents = frames.flatMap fun f => f.parsed.assertions := by
  have hEvents : t.assertionEvents = t.frames.flatMap TraceFrame.assertions := by
    obtain ⟨timestamp, block, final, hLoop, sha, rfl⟩ := h.loop
    exact (parsed_of_loop hLoop).assertions
  rw [hEvents, h.frames, List.flatMap_map]

/-- The event of the delegated log is attributed to the library. -/
theorem delegated_summary {host : Host} {entry : Json} {log : ArenaLog}
    (hCaller : openFrame host .witness callerNode = .ok callerHead)
    (hCallee : openFrame host .witness (calleeNode entry) = .ok calleeHead)
    (hLog : convertLog host entry false = .ok log)
    (hEvent : isEvent "AssertionChecked" log.json = true) (hTransfer : log.transfer = none)
    (hAddress : log.address ≠ libraryAddress) :
    ∃ t, sampleSummary host (delegatedLog entry) = .ok t ∧
      ∃ event ∈ t.assertionEvents, getField? "emitter" event ≠ getField? "address" event := by
  have hFrames := delegated_converted hCaller hCallee hLog
  have hAll : ArenaFrame.preorderAll [.mk callerHead [] [.mk calleeHead [log] []]] =
      [.mk callerHead [] [.mk calleeHead [log] []], .mk calleeHead [log] []] := by
    simp [ArenaFrame.preorderAll, ArenaFrame.preorder]
  obtain ⟨_, _, _, _, hCaller', hCallerCheat, hCallee', hCalleeCheat⟩ := addresses_spelled
  have hPlain : ∀ f ∈ ArenaFrame.preorderAll [.mk callerHead [] [.mk calleeHead [log] []]],
      f.Plain := by
    rw [hAll, List.forall_mem_cons, List.forall_mem_singleton]
    exact ⟨⟨le_rfl, ⟨hCaller', hCallerCheat⟩, hCaller', by simp [ArenaFrame.head, callerHead], rfl, rfl⟩,
      ⟨Int.one_nonneg, ⟨hCallee', hCalleeCheat⟩, hCaller', by simp [ArenaFrame.head, calleeHead], rfl,
        by simp [ArenaFrame.logs, hTransfer]⟩⟩
  obtain ⟨t, executed, hSample, hSummary⟩ := @forgeSummary_of_plain host [] _ _ _ _ _ _ _ _ 0 0
    (forgeOutput_selected (delegatedLog entry)) (selectArenas_forgeResult (by simp [delegatedLog]))
    hFrames (by simp [forgeResult, getField?]) ⟨le_rfl, le_rfl⟩ (by simp) hPlain
  have hMem : ArenaFrame.mk calleeHead [log] [] ∈
      ArenaFrame.preorderAll [.mk callerHead [] [.mk calleeHead [log] []]] := by
    rw [hAll]
    exact List.mem_cons_of_mem _ (List.mem_singleton_self _)
  obtain ⟨x, _, hFrame⟩ := forall₂_exists_left hSummary.each hMem
  have hOf := logOf_of_convertLog hLog
  have hReverted : log.reverted = false := convertLog_reverted hLog
  obtain ⟨fields, hFields⟩ : ∃ fields, log.json = .obj fields := ⟨_, rfl⟩
  have hEnriched := @eventOf_enrich host x.2 _ entry log fields
    (contextsOf (ArenaFrame.mk calleeHead [log] []).parsed.logs) x.1 hFrame hLog hFields
  have hStands : stands (ArenaFrame.mk calleeHead [log] []).parsed log.json = true := by
    rw [stands, Json.getD, hOf.reverted, hReverted]
    rfl
  refine ⟨t, hSample, enrich (ArenaFrame.mk calleeHead [log] []).parsed
    (contextsOf (ArenaFrame.mk calleeHead [log] []).parsed.logs) fields, ?_, ?_⟩
  · rw [hSummary.assertionEvents, hAll]
    refine List.mem_flatMap.mpr ⟨_, List.mem_cons_of_mem _ (List.mem_singleton_self _),
      List.mem_filterMap.mpr ⟨log.json, List.mem_map_of_mem (List.mem_singleton_self _), ?_⟩⟩
    rw [hFields] at hStands hEvent ⊢
    simp only [hStands, hEvent, Bool.and_self, ↓reduceIte]
  · obtain ⟨log', hLog', hGet⟩ := hEnriched.log
    rw [hLog, Except.ok.injEq] at hLog'
    subst hLog'
    rw [hEnriched.emitter, hGet "address" (by decide), hOf.recorded,
      ← (openedFrom_of_openFrame hFrame.head).toAddress]
    intro hEq
    rw [Option.some.injEq, Json.str.injEq] at hEq
    exact hAddress hEq.symm

/-- The assertion of a library has the library as its emitter, and the test as its address. -/
theorem delegatedAssertion_summarised : ∃ t,
    sampleSummary assertionHost (delegatedLog assertionEntry) = .ok t ∧
      ∃ event ∈ t.assertionEvents, getField? "emitter" event ≠ getField? "address" event := by
  obtain ⟨pairs, hLog, hEvent⟩ := assertionLog_converted
  have hDiffer : sampleAddress ≠ libraryAddress := by decide
  exact delegated_summary delegated_opened.1 delegated_opened.2 hLog hEvent rfl hDiffer

/-- The event is attributed to the library, whose code the test ran as its own. -/
theorem delegated_assertion_misattributed : ∃ t,
    sampleSummary assertionHost (delegatedLog assertionEntry) = .ok t ∧
      ∀ executed, Executed (.obj (forgeOutput (delegatedLog assertionEntry))) "test/W.t.sol" "testW"
        executed → ¬ TruthfulEmitters assertionHost executed t := by
  obtain ⟨t, h, event, hMem, hDiffer⟩ := delegatedAssertion_summarised
  exact ⟨t, h, fun executed _ hTruthful => hDiffer (hTruthful.same hMem)⟩

theorem delegatedAssertion_truthful_iff :
    ∃ (t : TraceSummary) (executed : List (Phase × Visit)),
      Executed (.obj (forgeOutput (delegatedLog assertionEntry))) "test/W.t.sol" "testW" executed ∧
        (TruthfulEmitters assertionHost executed t ↔
          ∀ p ∈ loggedAssertions assertionHost executed, logAddress p.2 = p.1.address) := by
  obtain ⟨t, h, _⟩ := delegatedAssertion_summarised
  exact ⟨t, emitters_truthful_iff h⟩

end Delegated

end L0vi0x.Chain
