import L0vi0x.Docker.RpcGate

/-! Which requests leave a record: the gate reads the body, compares the token, reads the
policy, sends the payload on and hides parts of the parameters, and each of these may raise
before the record is written. -/
namespace L0vi0x.Docker

open L0vi0x.Python
open L0vi0x.Core.Certificates (compareDigest isAscii)

section Redactable

variable (tables : UnicodeTables)

/-- A text that is not read as a url, or whose host and port can be read. -/
def RedactableText (s : String) : Prop :=
  256 < s.toList.length ∨ containsText s "://" = false ∨
    ∃ parts, urlsplit tables s = .ok parts ∧
      (parts.scheme = "" ∨ parts.netloc = "" ∨ returns parts.port)

/-- Every text outside the hidden values can be redacted. -/
def Redactable (j : Json) : Prop := j.EveryText (isSensitive tables) (RedactableText tables)

variable {tables}

theorem returns_redactText {s : String} :
    returns (redactText tables s) ↔ RedactableText tables s := by
  unfold redactText RedactableText
  split
  · rename_i hLong
    exact ⟨fun _ => .inl hLong, fun _ => ⟨_, rfl⟩⟩
  · rename_i hShort
    split
    · rename_i hUrl
      rw [returns_bind]
      simp only [hShort, hUrl, false_or, Bool.true_eq_false]
      refine exists_congr fun parts => and_congr_right fun _ => ?_
      split
      · rename_i hAbsolute
        rw [returns_bind]
        constructor
        · rintro ⟨port, hPort, -⟩
          exact .inr (.inr ⟨port, hPort⟩)
        · rintro (hEmpty | hEmpty | ⟨port, hPort⟩)
          · exact absurd hEmpty hAbsolute.1
          · exact absurd hEmpty hAbsolute.2
          · exact ⟨port, hPort, _, rfl⟩
      · rename_i hRelative
        refine ⟨fun _ => ?_, fun _ => ⟨_, rfl⟩⟩
        rw [not_and_or, not_not, not_not] at hRelative
        exact hRelative.imp_right .inl
    · rename_i hPlain
      exact ⟨fun _ => .inr (.inl (by simpa using hPlain)), fun _ => ⟨_, rfl⟩⟩

/-- Where the stack has room, redaction raises on nothing else. -/
theorem returns_redactParams (j : Json) :
    returns (redactParams tables j) ↔ Redactable tables j := by
  have hTexts : (fun s => returns (redactText tables s)) = RedactableText tables :=
    funext fun _ => propext returns_redactText
  rw [redactParams, Json.returns_mapTexts, hTexts, Redactable]

end Redactable

section Audit

variable (tables : UnicodeTables) (g : GateState) (net : Network)

/-- `compare_digest` takes the two tokens, or is not reached. -/
def Comparable (endpoint supplied : String) : Prop :=
  supplied = "" ∨ ∀ expected, g.expected? endpoint = some expected →
    isAscii supplied = true ∧ isAscii expected = true

/-- The entry of an endpoint gives a set of methods and a list of prefixes. -/
def PolicyReads (endpoint : String) : Prop :=
  returns (allowEntry (endpointConfig g.policy endpoint)).toSet ∧
    returns (denyEntry (endpointConfig g.policy endpoint)).iter

/-- `Request(url)` takes the url of the endpoint, or it has none. -/
def TargetUsable (endpoint : String) : Prop :=
  g.targetUrl endpoint = "" ∨ (urlType? (g.targetUrl endpoint)).isSome = true

/-- The parameters of a record can be redacted and written: the calls of `redact_params` and
the levels that it leaves find room on the stack, and every text can be redacted. -/
structure Recordable (j : Json) : Prop where
  calls : Json.calls (isSensitive tables) j ≤ g.room.redact
  levels : Json.levels (isSensitive tables) j ≤ g.room.dump
  texts : Redactable tables j

/-- The body is the JSON text of an object. -/
def IsObject (r : Post) (payload : Fields) : Prop :=
  ∃ s, r.body = .ok s ∧ Json.loads s = .ok (.obj payload)

/-- `json.loads` finds room for the text and its integers. -/
def BodyLoads (r : Post) : Prop := ∃ s, r.body = .ok s ∧ Json.Loadable g.room.loads s

/-- No step of the handler raises on this request. -/
structure Auditable (endpoint : String) (payload : Fields) (authorization : Option String) :
    Prop where
  comparable : Comparable g endpoint (suppliedToken authorization)
  policy : g.expected? endpoint = some (suppliedToken authorization) → PolicyReads g endpoint
  target : g.expected? endpoint = some (suppliedToken authorization) →
    g.authorizeMethod tables endpoint (methodText payload) = .ok (true, 200, "ok") →
    TargetUsable g endpoint
  params : Recordable tables g (requestParams payload)

/-- An answer of JSON-RPC to a request: an error of the gate, or what came back for the
payload that was sent on last. -/
def IsAnswer (sent : List GateEvent) (payload : Fields) (status : Int) (output : Json) : Prop :=
  (∃ code message, output = GateState.errorAnswer (GateState.requestId payload) code message) ∨
    g.readAnswer (net.urlopen sent) = .ok (status, output)

/-- The handler returned, and what it did is: at most one payload sent on, then exactly
one record of the request, then its answer. -/
def Audited (endpoint : String) (payload : Fields) (events : List GateEvent)
    (run : Py Unit × List GateEvent) : Prop :=
  run.1 = .ok () ∧ ∃ sent code allowed params latency output,
    run.2 = events ++ sent ++
      [.logged (g.auditLine endpoint (methodText payload) code allowed params latency),
        .answered code output.dumpsSpaced] ∧
    (sent = [] ∨ sent = [.forwarded endpoint (g.targetUrl endpoint)
      (Json.dumpsSpaced (.obj payload))]) ∧
    redactParams tables (requestParams payload) = .ok params ∧
    IsAnswer g net (events ++ sent) payload code output

variable {tables g net} {r : Post} {endpoint method : String} {payload : Fields}
  {authorization : Option String} {events : List GateEvent}

theorem expected?_ne_empty {expected : String} (h : g.expected? endpoint = some expected) :
    expected ≠ "" := by
  unfold GateState.expected? at h
  split at h
  · rw [← Option.some.inj h]
    exact g.agentToken_ne
  · split at h
    · rw [← Option.some.inj h]
      exact g.upstreamToken_ne
    · cases h

/-- The tests on the method return just when the policy can be read. -/
theorem returns_authorizeMethod :
    returns (g.authorizeMethod tables endpoint method) ↔ PolicyReads g endpoint := by
  rw [GateState.authorizeMethod, PolicyReads]
  cases hAllow : (allowEntry (endpointConfig g.policy endpoint)).toSet with
  | error e =>
      exact ⟨fun h => absurd h (not_returns_error _), fun h => absurd h.1 (not_returns_error _)⟩
  | ok allow => cases hDeny : (denyEntry (endpointConfig g.policy endpoint)).iter with
    | error e =>
        exact ⟨fun h => absurd h (not_returns_error _), fun h => absurd h.2 (not_returns_error _)⟩
    | ok denied =>
        refine ⟨fun _ => ⟨⟨_, rfl⟩, _, rfl⟩, fun _ => ?_⟩
        simp only [Bind.bind, Except.bind]
        split
        · exact ⟨_, rfl⟩
        · split
          · exact ⟨_, rfl⟩
          · split
            · exact ⟨_, rfl⟩
            · exact ⟨_, rfl⟩

theorem compareDigest_ok {s t : String} (hs : isAscii s = true) (ht : isAscii t = true) :
    compareDigest s t = .ok (decide (s = t)) := by
  rw [compareDigest, hs, ht]
  rfl

theorem compareDigest_refuses {s t : String} (h : ¬ (isAscii s = true ∧ isAscii t = true)) :
    ∃ e, compareDigest s t = .error e := by
  rw [compareDigest, if_neg (by simpa using h)]
  exact ⟨_, rfl⟩

/-- A request is authorized or refused when its tokens can be compared and the policy be read. -/
theorem returns_authorize {expected : String} (hExpected : g.expected? endpoint = some expected) :
    returns (g.authorize tables endpoint method authorization) ↔
      Comparable g endpoint (suppliedToken authorization) ∧
        (g.expected? endpoint = some (suppliedToken authorization) → PolicyReads g endpoint) := by
  simp only [GateState.authorize, hExpected, Comparable, Option.some.injEq, forall_eq']
  split
  · rename_i hEmpty
    refine ⟨fun _ => ⟨.inl hEmpty, fun hSame => ?_⟩, fun _ => ⟨_, rfl⟩⟩
    exact absurd (hSame.trans hEmpty) (expected?_ne_empty hExpected)
  · rename_i hSupplied
    by_cases hAscii : isAscii (suppliedToken authorization) = true ∧ isAscii expected = true
    · rw [compareDigest_ok hAscii.1 hAscii.2]
      simp only [Bind.bind, Except.bind, decide_eq_true_eq, hAscii, and_self, or_true, true_and]
      split
      · rename_i hSame
        rw [returns_authorizeMethod]
        exact ⟨fun h _ => h, fun h => h hSame.symm⟩
      · rename_i hOther
        exact ⟨fun _ hSame => absurd hSame.symm hOther, fun _ => ⟨_, rfl⟩⟩
    · obtain ⟨e, hError⟩ := compareDigest_refuses hAscii
      rw [hError]
      refine ⟨fun h => absurd h (not_returns_error e), fun h => ?_⟩
      exact absurd (h.1.resolve_left hSupplied) hAscii

/-- A method that is allowed is answered with the status 200. -/
theorem authorizeMethod_allowed {status : Nat} {reason : String}
    (h : g.authorizeMethod tables endpoint method = .ok (true, status, reason)) :
    status = 200 ∧ reason = "ok" := by
  simp only [GateState.authorizeMethod, bind_eq_ok] at h
  obtain ⟨_, _, _, _, h⟩ := h
  split at h
  · cases h
  · split at h
    · cases h
    · split at h
      · cases h
      · cases h
        exact ⟨rfl, rfl⟩

/-- Who is let through: the header supplies the token of the endpoint and the tests on the
method pass. -/
theorem authorize_allowed {status : Nat} {reason : String}
    (h : g.authorize tables endpoint method authorization = .ok (true, status, reason)) :
    g.expected? endpoint = some (suppliedToken authorization) ∧
      g.authorizeMethod tables endpoint method = .ok (true, 200, "ok") := by
  rw [GateState.authorize] at h
  split at h
  · cases h
  · rename_i expected hExpected
    dsimp only at h
    split at h
    · cases h
    · rw [bind_eq_ok] at h
      obtain ⟨same, hSame, h⟩ := h
      unfold compareDigest at hSame
      split at hSame
      · rw [pure_eq_ok] at hSame
        subst hSame
        split at h
        · rename_i hEq
          rw [of_decide_eq_true hEq]
          obtain ⟨rfl, rfl⟩ := authorizeMethod_allowed h
          exact ⟨hExpected, h⟩
        · cases h
      · cases hSame

/-- What `forward` does when the url of the endpoint can be used. -/
theorem forward_run (hTarget : TargetUsable g endpoint) : ∃ sent status output latency,
    g.forward net endpoint payload events = (.ok (status, output, latency), events ++ sent) ∧
      (sent = [] ∨ sent = [.forwarded endpoint (g.targetUrl endpoint)
        (Json.dumpsSpaced (.obj payload))]) ∧
      IsAnswer g net (events ++ sent) payload status output := by
  unfold GateState.forward
  split
  · refine ⟨[], 502, GateState.errorAnswer (GateState.requestId payload) (-32002)
      "endpoint URL unavailable", 0, ?_, .inl rfl, .inl ⟨_, _, rfl⟩⟩
    rw [List.append_nil]
    rfl
  · rename_i hUrl
    split
    · rename_i hNone
      have hSome := hTarget.resolve_left hUrl
      rw [Option.isNone_iff_eq_none] at hNone
      rw [hNone] at hSome
      cases hSome
    · simp only [GateState.exchange]
      split
      · rename_i status output hRead
        exact ⟨_, status, output, _, rfl, .inr rfl, .inr hRead⟩
      · rename_i e hError
        exact ⟨_, _, _, _, rfl, .inr rfl, .inl ⟨_, _, rfl⟩⟩

theorem forward_raises (hTarget : ¬ TargetUsable g endpoint) :
    ∃ e, g.forward net endpoint payload events = (.error e, events) := by
  rw [TargetUsable, not_or, Bool.not_eq_true, Option.isSome_eq_false_iff] at hTarget
  rw [GateState.forward, if_neg hTarget.1, if_pos hTarget.2]
  exact ⟨_, rfl⟩

theorem log_run {code latency : Int} {allowed : Bool} {j params : Json}
    (hRoom : Recordable tables g j) (h : redactParams tables j = .ok params) :
    g.log tables endpoint method code allowed j latency events =
      (.ok (), events ++ [.logged (g.auditLine endpoint method code allowed params latency)]) := by
  have hRedact : Act.ofPy (g.redact tables j) events = (.ok params, events) := by
    rw [Act.ofPy, GateState.redact, raiseIf, if_neg (by simpa using hRoom.calls)]
    exact Prod.ext h rfl
  have hLevels : ¬ g.room.dump < Json.levels (fun _ => false) params := by
    rw [Json.levels_mapTexts _ _ h]
    exact not_lt.mpr hRoom.levels
  refine (Act.bind_ok hRedact).trans ?_
  rw [GateState.writeRecord, if_neg hLevels, emit]

/-- A record that cannot be written leaves at most the beginning of a line. -/
theorem log_raises {code latency : Int} {allowed : Bool} {j : Json}
    (h : ¬ Recordable tables g j) : ∃ e more,
    g.log tables endpoint method code allowed j latency events = (.error e, events ++ more) ∧
      (more = [] ∨ more = [.torn]) := by
  cases hRedact : g.redact tables j with
  | error e =>
      refine ⟨e, [], ?_, .inl rfl⟩
      rw [List.append_nil]
      exact Act.bind_error (by rw [Act.ofPy, hRedact])
  | ok params =>
      have hStart : Act.ofPy (g.redact tables j) events = (.ok params, events) := by
        rw [Act.ofPy, hRedact]
      rw [GateState.redact, bind_eq_ok] at hRedact
      obtain ⟨_, hCalls, hParams⟩ := hRedact
      rw [raiseIf_eq_ok, decide_eq_false_iff_not, not_lt] at hCalls
      have hLevels : g.room.dump < Json.levels (fun _ => false) params := by
        rw [Json.levels_mapTexts _ _ hParams, ← not_le]
        exact fun hLevels => h ⟨hCalls, hLevels, (returns_redactParams j).mp ⟨params, hParams⟩⟩
      have hTorn (line : String) : g.writeRecord params line events =
          (.error ⟨.runtimeError, "maximum recursion depth exceeded"⟩, events ++ [.torn]) := by
        rw [GateState.writeRecord, if_pos hLevels]
        rfl
      exact ⟨_, [.torn], (Act.bind_ok hStart).trans (hTorn _), .inr rfl⟩

/-- A recordable request is logged and then answered. -/
theorem logAnswer_run {code latency : Int} {allowed : Bool} {j params output : Json}
    (hRoom : Recordable tables g j) (h : redactParams tables j = .ok params) :
    (g.log tables endpoint method code allowed j latency >>= fun _ => writeJson code output) events =
      (.ok (), events ++
        [.logged (g.auditLine endpoint method code allowed params latency),
          .answered code output.dumpsSpaced]) := by
  refine (Act.bind_ok (log_run hRoom h)).trans ?_
  simp [writeJson, emit]

/-- With the token of the endpoint only the tests on the method decide. -/
theorem authorize_of_token (hToken : g.expected? endpoint = some (suppliedToken authorization))
    (hAscii : isAscii (suppliedToken authorization) = true) :
    g.authorize tables endpoint method authorization =
      g.authorizeMethod tables endpoint method := by
  simp only [GateState.authorize, hToken, expected?_ne_empty hToken, if_false,
    compareDigest_ok hAscii hAscii, Bind.bind, Except.bind, decide_true, if_true]

/-- A request that is not let through is recorded when its parameters can be. -/
theorem denied_audited_iff {status : Nat} {reason : String}
    (hAuthorize : g.authorize tables endpoint (methodText payload) authorization =
      .ok (false, status, reason)) :
    Audited tables g net endpoint payload events
      (answer tables g net endpoint payload authorization events) ↔
        Recordable tables g (requestParams payload) := by
  have hStart : Act.ofPy (g.authorize tables endpoint (methodText payload) authorization) events =
      (.ok (false, status, reason), events) := by
    rw [Act.ofPy, hAuthorize]
  by_cases hRoom : Recordable tables g (requestParams payload)
  · obtain ⟨params, hParams⟩ := (returns_redactParams _).mpr hRoom.texts
    refine ⟨fun _ => hRoom, fun _ => ?_⟩
    let output := GateState.errorAnswer (GateState.requestId payload)
      (if status = 403 then -32601 else -32001) reason
    have hRun : answer tables g net endpoint payload authorization events = (.ok (), events ++
        [.logged (g.auditLine endpoint (methodText payload) status false params 0),
          .answered status output.dumpsSpaced]) :=
      (Act.bind_ok hStart).trans (logAnswer_run hRoom hParams)
    rw [hRun]
    refine ⟨rfl, [], status, false, params, 0, output, ?_, .inl rfl, hParams, .inl ⟨_, _, rfl⟩⟩
    rw [List.append_nil]
  · obtain ⟨e, more, hLog, -⟩ := @log_raises tables g endpoint (methodText payload) events status 0
      false _ hRoom
    have hRun : answer tables g net endpoint payload authorization events =
        (.error e, events ++ more) := (Act.bind_ok hStart).trans (Act.bind_error hLog)
    rw [hRun]
    exact ⟨fun h => (nomatch h.1), fun h => absurd h hRoom⟩

/-- A request that is let through is recorded when its url can be used and its parameters
can be recorded. -/
theorem allowed_audited_iff {status : Nat} {reason : String}
    (hAuthorize : g.authorize tables endpoint (methodText payload) authorization =
      .ok (true, status, reason)) :
    Audited tables g net endpoint payload events
      (answer tables g net endpoint payload authorization events) ↔
        TargetUsable g endpoint ∧ Recordable tables g (requestParams payload) := by
  have hStart : Act.ofPy (g.authorize tables endpoint (methodText payload) authorization) events =
      (.ok (true, status, reason), events) := by
    rw [Act.ofPy, hAuthorize]
  by_cases hTarget : TargetUsable g endpoint
  · obtain ⟨sent, code, output, latency, hForward, hSent, hAnswer⟩ :=
      @forward_run g net endpoint payload events hTarget
    simp only [hTarget, true_and]
    by_cases hRoom : Recordable tables g (requestParams payload)
    · obtain ⟨params, hParams⟩ := (returns_redactParams _).mpr hRoom.texts
      refine ⟨fun _ => hRoom, fun _ => ?_⟩
      have hRun : answer tables g net endpoint payload authorization events =
          (.ok (), events ++ sent ++
            [.logged (g.auditLine endpoint (methodText payload) code (code < 400) params latency),
              .answered code output.dumpsSpaced]) :=
        (Act.bind_ok hStart).trans <| (Act.bind_ok hForward).trans (logAnswer_run hRoom hParams)
      rw [hRun]
      exact ⟨rfl, sent, code, _, params, latency, output, rfl, hSent, hParams, hAnswer⟩
    · obtain ⟨e, more, hLog, -⟩ := @log_raises tables g endpoint (methodText payload)
        (events ++ sent) code latency (code < 400) _ hRoom
      have hRun : answer tables g net endpoint payload authorization events =
          (.error e, events ++ sent ++ more) :=
        (Act.bind_ok hStart).trans <| (Act.bind_ok hForward).trans (Act.bind_error hLog)
      rw [hRun]
      exact ⟨fun h => (nomatch h.1), fun h => absurd h hRoom⟩
  · obtain ⟨e, hForward⟩ := @forward_raises g net endpoint payload events hTarget
    have hRun : answer tables g net endpoint payload authorization events = (.error e, events) :=
      (Act.bind_ok hStart).trans (Act.bind_error hForward)
    rw [hRun]
    exact ⟨fun h => (nomatch h.1), fun h => absurd h.1 hTarget⟩

/-- The handler from the authorization on leaves its record just when nothing raises. -/
theorem answer_audited_iff {expected : String}
    (hExpected : g.expected? endpoint = some expected) :
    Audited tables g net endpoint payload events
      (answer tables g net endpoint payload authorization events) ↔
        Auditable tables g endpoint payload authorization := by
  have hReturns := @returns_authorize tables g endpoint (methodText payload) authorization
    expected hExpected
  cases hAuthorize : g.authorize tables endpoint (methodText payload) authorization with
  | error e =>
      have hRun : answer tables g net endpoint payload authorization events = (.error e, events) := by
        refine Act.bind_error ?_
        rw [Act.ofPy, hAuthorize]
      rw [hRun]
      refine ⟨fun h => (nomatch h.1), fun h => ?_⟩
      rw [hAuthorize] at hReturns
      exact absurd (hReturns.mpr ⟨h.comparable, h.policy⟩) (not_returns_error e)
  | ok decision =>
      obtain ⟨hComparable, hPolicy⟩ := hReturns.mp ⟨decision, hAuthorize⟩
      obtain ⟨allowed, status, reason⟩ := decision
      cases allowed with
      | true =>
          obtain ⟨hToken, hMethod⟩ := authorize_allowed hAuthorize
          rw [allowed_audited_iff hAuthorize]
          exact ⟨fun h => ⟨hComparable, hPolicy, fun _ _ => h.1, h.2⟩,
            fun h => ⟨h.target hToken hMethod, h.params⟩⟩
      | false =>
          have hDenied : g.expected? endpoint = some (suppliedToken authorization) →
              g.authorizeMethod tables endpoint (methodText payload) ≠ .ok (true, 200, "ok") := by
            intro hToken hMethod
            have hAscii := (hComparable.resolve_left (expected?_ne_empty hToken)) _ hToken
            rw [authorize_of_token hToken hAscii.1, hMethod] at hAuthorize
            cases hAuthorize
          rw [denied_audited_iff hAuthorize]
          exact ⟨fun h => ⟨hComparable, hPolicy,
            fun hToken hMethod => absurd hMethod (hDenied hToken), h⟩, fun h => h.params⟩

theorem endpointForPath_expected {path endpoint : String}
    (h : endpointForPath tables path = .ok (some endpoint)) :
    ∃ expected, g.expected? endpoint = some expected := by
  rw [endpointForPath, bind_eq_ok] at h
  obtain ⟨parts, -, h⟩ := h
  dsimp only at h
  generalize (if parts.path = "" then "/" else parts.path) = route at h
  split at h
  · cases h
    exact ⟨g.agentToken, rfl⟩
  · split at h
    · cases h
      exact ⟨g.upstreamToken, rfl⟩
    · split at h
      · cases h
        exact ⟨g.upstreamToken, rfl⟩
      · cases h

/-- The payload is read just when the text is that of an object and within the limits. -/
theorem readPayload_eq_ok {body : Py String} :
    readPayload g body = .ok payload ↔ ∃ s, body = .ok s ∧ Json.Loadable g.room.loads s ∧
      Json.loads s = .ok (.obj payload) := by
  rw [readPayload, bind_eq_ok]
  refine exists_congr fun s => and_congr_right fun _ => ?_
  rw [bind_eq_ok]
  constructor
  · rintro ⟨j, hLoads, h⟩
    obtain ⟨hRoom, hLoads⟩ := Json.loadsWithin_eq_ok.mp hLoads
    split at h
    · rw [pure_eq_ok] at h
      exact ⟨hRoom, h ▸ hLoads⟩
    · rw [raise_ne_ok] at h
      exact h.elim
  · rintro ⟨hRoom, hLoads⟩
    exact ⟨.obj payload, Json.loadsWithin_eq_ok.mpr ⟨hRoom, hLoads⟩, rfl⟩

/-- A request whose body does not load is answered without a record. -/
theorem not_audited_of_unread (hPath : endpointForPath tables r.path = .ok (some endpoint))
    (hBody : ∀ read, readPayload g r.body ≠ .ok read) :
    ¬ Audited tables g net endpoint payload events (doPost tables g net r events) := by
  have hStart : Act.ofPy (endpointForPath tables r.path) events = (.ok (some endpoint), events) := by
    rw [Act.ofPy, hPath]
  have hRun : doPost tables g net r events =
      writeJson 400 (GateState.errorAnswer .null (-32700) "invalid JSON") events := by
    refine (Act.bind_ok hStart).trans ?_
    cases hRead : readPayload g r.body with
    | ok read => exact absurd hRead (hBody read)
    | error e => rfl
  rw [hRun]
  rintro ⟨-, sent, code, allowed, params, latency, output, hEvents, -⟩
  -- one answer is no record with its answer
  have hLength := congrArg List.length hEvents
  simp [writeJson, emit] at hLength

/-- A gate whose agents may call `eth_call`. -/
def sampleGate : GateState where
  room := ⟨900, 900, 900⟩
  policy := dictOf [("agent", .obj [("allow", .arr [.str "eth_call"])])]
  agentToken := "agent-token"
  upstreamToken := "upstream-token"
  anvilUrl := "http://127.0.0.1:8546"
  upstreamUrl := ""
  crossCheckUrl := ""
  auditId := "unknown"
  agentToken_ne := by decide
  upstreamToken_ne := by decide

/-- A network that answers every payload in the same way. -/
def sampleNetwork : Network := ⟨fun _ => .ok (200, encodeUtf8 "\x7b\x7d"), fun _ => 1⟩

def samplePost (body : String) : Post := ⟨"/agent", some "Bearer agent-token", .ok body⟩

def samplePayload (param : String) : Fields :=
  [("method", .str "eth_call"), ("params", .arr [.str param])]

end Audit
end L0vi0x.Docker
