import L0vi0x.Python.JsonSpaced
import L0vi0x.Docker.GateAudit

/-! What is sent on carried the token of its endpoint and calls an allowed method. The gate
tests the text of the method, and sends the payload on as it was read. -/
namespace L0vi0x.Docker

open L0vi0x.Python

section Tokens

/-- The three forms in which a header carries a token: as it is, as a bearer token, or as
the password of some user. -/
def Carries (authorization : Option String) (token : String) : Prop :=
  authorization = some token ∨ authorization = some ("Bearer " ++ token) ∨
    ∃ encoded raw user, authorization = some ("Basic " ++ encoded) ∧
      b64decode? encoded = some raw ∧ decodeUtf8? raw = some (user ++ ":" ++ token) ∧
      ':' ∉ user.toList

/-- What stands behind the first separator, and before it. -/
theorem afterFirst_spec {c : Char} {cs : List Char} (h : c ∈ cs) :
    ∃ front, cs = front ++ c :: afterFirst c cs ∧ c ∉ front := by
  refine ⟨cs.takeWhile (· ≠ c), ?_, fun hMem => ?_⟩
  · have hNe : cs.dropWhile (· ≠ c) ≠ [] := by
      intro hNil
      have hAll := List.dropWhile_eq_nil_iff.mp hNil c h
      simp at hAll
    have hHead := List.head_dropWhile_not (· ≠ c) hNe
    have hFirst : cs.dropWhile (· ≠ c) = c :: afterFirst c cs := by
      have hEq : (cs.dropWhile (· ≠ c)).head hNe = c := by simpa using hHead
      rw [← List.cons_head_tail hNe, hEq, afterFirst]
    rw [← hFirst, List.takeWhile_append_dropWhile]
  · have hKept := List.mem_takeWhile_imp hMem
    simp at hKept

/-- A header that supplies a token carries it. -/
theorem carries_of_supplied {authorization : Option String} {token : String}
    (h : suppliedToken authorization = token) (hToken : token ≠ "") :
    Carries authorization token := by
  cases authorization with
  | none => exact absurd h.symm hToken
  | some header =>
      simp only [suppliedToken, Option.getD_some] at h
      split at h
      · rename_i hBearer
        rw [startsWith_iff] at hBearer
        rw [hBearer, ← h]
        exact .inr (.inl rfl)
      · split at h
        · rename_i hBasic
          rw [startsWith_iff] at hBasic
          split at h
          · rename_i decoded hDecoded
            rw [Option.bind_eq_some_iff] at hDecoded
            obtain ⟨raw, hRaw, hText⟩ := hDecoded
            split at h
            · rename_i hColon
              obtain ⟨user, hUser, hNot⟩ := afterFirst_spec (List.contains_iff_mem.mp hColon)
              refine .inr (.inr ⟨_, raw, String.ofList user, congrArg some hBasic, hRaw, ?_, ?_⟩)
              · rw [hText, ← h]
                refine congrArg some (String.toList_inj.mp ?_)
                simpa using hUser
              · rwa [String.toList_ofList]
            · exact absurd h.symm hToken
          · exact absurd h.symm hToken
        · exact .inl (congrArg some h)

end Tokens

section Sent

variable (tables : UnicodeTables) (g : GateState) (net : Network)

/-- The gate sends the payload of a request on: it carries the token, its method passes
and the endpoint has a url that can be used. -/
structure Passes (r : Post) (endpoint : String) (payload : Fields) : Prop where
  path : endpointForPath tables r.path = .ok (some endpoint)
  body : readPayload g r.body = .ok payload
  token : g.expected? endpoint = some (suppliedToken r.authorization)
  ascii : Core.Certificates.isAscii (suppliedToken r.authorization) = true
  method : g.authorizeMethod tables endpoint (methodText payload) = .ok (true, 200, "ok")
  target : g.targetUrl endpoint ≠ ""
  url : (urlType? (g.targetUrl endpoint)).isSome = true

variable {tables g net} {r : Post} {endpoint method : String} {payload : Fields}
  {authorization : Option String} {events : List GateEvent}

/-- Recording and answering send nothing on. -/
theorem logAnswer_sends_nothing {code latency : Int} {allowed : Bool} {j output : Json} :
    ∃ more, ((g.log tables endpoint method code allowed j latency >>= fun _ =>
        writeJson code output) events).2 = events ++ more ∧
      ∀ e u b, GateEvent.forwarded e u b ∉ more := by
  by_cases hRoom : Recordable tables g j
  · obtain ⟨params, hParams⟩ := (returns_redactParams _).mpr hRoom.texts
    refine ⟨_, congrArg Prod.snd (logAnswer_run hRoom hParams), fun _ _ _ h => ?_⟩
    simp at h
  · obtain ⟨e, more, hLog, hMore⟩ := @log_raises tables g endpoint method events code latency
      allowed j hRoom
    refine ⟨more, by rw [Act.bind_error hLog], fun _ _ _ h => ?_⟩
    rcases hMore with rfl | rfl <;> simp at h

/-- The payload is sent before the answer is known. -/
theorem exchange_run : ∃ status output latency,
    g.exchange net endpoint payload events = (.ok (status, output, latency), events ++
      [.forwarded endpoint (g.targetUrl endpoint) (Json.dumpsSpaced (.obj payload))]) := by
  simp only [GateState.exchange]
  split
  · exact ⟨_, _, _, rfl⟩
  · exact ⟨_, _, _, rfl⟩

/-- The rest of the handler sends a payload on just when it is let through and the url of
the endpoint can be used. -/
theorem answer_sends : ∃ new,
    (answer tables g net endpoint payload authorization events).2 = events ++ new ∧
      ∀ e u b, GateEvent.forwarded e u b ∈ new ↔
        (∃ status reason, g.authorize tables endpoint (methodText payload) authorization =
          .ok (true, status, reason)) ∧ g.targetUrl endpoint ≠ "" ∧
        (urlType? (g.targetUrl endpoint)).isSome = true ∧
        e = endpoint ∧ u = g.targetUrl endpoint ∧ b = Json.dumpsSpaced (.obj payload) := by
  cases hAuthorize : g.authorize tables endpoint (methodText payload) authorization with
  | error e =>
      have hRun : answer tables g net endpoint payload authorization events = (.error e, events) := by
        refine Act.bind_error ?_
        rw [Act.ofPy, hAuthorize]
      refine ⟨[], by rw [hRun, List.append_nil], fun e u b => ?_⟩
      simp
  | ok decision =>
      obtain ⟨allowed, status, reason⟩ := decision
      have hStart : Act.ofPy (g.authorize tables endpoint (methodText payload) authorization)
          events = (.ok (allowed, status, reason), events) := by
        rw [Act.ofPy, hAuthorize]
      cases allowed with
      | false =>
          obtain ⟨more, hMore, hNone⟩ := @logAnswer_sends_nothing tables g endpoint
            (methodText payload) events status 0 false (requestParams payload)
            (GateState.errorAnswer (GateState.requestId payload)
              (if status = 403 then -32601 else -32001) reason)
          refine ⟨more, (congrArg Prod.snd (Act.bind_ok hStart)).trans hMore, fun e u b => ?_⟩
          simp [hNone e u b]
      | true =>
          have hGo : answer tables g net endpoint payload authorization events = _ :=
            Act.bind_ok hStart
          rw [hGo]
          by_cases hEmpty : g.targetUrl endpoint = ""
          · have hForward : g.forward net endpoint payload events = _ :=
              congrFun (if_pos hEmpty) events
            obtain ⟨more, hMore, hNone⟩ := @logAnswer_sends_nothing tables g endpoint
              (methodText payload) events 502 0 (decide ((502 : Int) < 400)) (requestParams payload)
              (GateState.errorAnswer (GateState.requestId payload) (-32002)
                "endpoint URL unavailable")
            refine ⟨more, (congrArg Prod.snd (Act.bind_ok hForward)).trans hMore, fun e u b => ?_⟩
            simp [hNone e u b, hEmpty]
          · by_cases hUrl : (urlType? (g.targetUrl endpoint)).isSome = true
            · have hNone : ¬ (urlType? (g.targetUrl endpoint)).isNone = true := by
                rw [Option.isNone_iff_eq_none]
                intro h
                rw [h] at hUrl
                cases hUrl
              obtain ⟨code, output, latency, hExchange⟩ := @exchange_run g net endpoint payload events
              have hForward : g.forward net endpoint payload events = _ :=
                (congrFun ((if_neg hEmpty).trans (if_neg hNone)) events).trans hExchange
              obtain ⟨more, hMore, hNo⟩ := @logAnswer_sends_nothing tables g endpoint
                (methodText payload) (events ++ [.forwarded endpoint (g.targetUrl endpoint)
                  (Json.dumpsSpaced (.obj payload))]) code latency (code < 400)
                (requestParams payload) output
              refine ⟨_ :: more, (congrArg Prod.snd (Act.bind_ok hForward)).trans
                (hMore.trans (List.append_assoc ..)), fun e u b => ?_⟩
              rw [List.mem_cons]
              constructor
              · rintro (h | h)
                · cases h
                  exact ⟨⟨status, reason, rfl⟩, hEmpty, hUrl, rfl, rfl, rfl⟩
                · exact absurd h (hNo e u b)
              · rintro ⟨-, -, -, rfl, rfl, rfl⟩
                exact .inl rfl
            · have hTarget : ¬ TargetUsable g endpoint := fun h => h.elim hEmpty hUrl
              obtain ⟨err, hForward⟩ :=
                @forward_raises g net endpoint payload events hTarget
              refine ⟨[], ?_, fun e u b => ?_⟩
              · exact (congrArg Prod.snd (Act.bind_error hForward)).trans (List.append_nil _).symm
              · simp [hUrl]

/-- What a request that is let through has passed. -/
theorem authorize_true_iff {expected : String} (hExpected : g.expected? endpoint = some expected) :
    (∃ status reason, g.authorize tables endpoint method authorization =
      .ok (true, status, reason)) ↔
      g.expected? endpoint = some (suppliedToken authorization) ∧
        Core.Certificates.isAscii (suppliedToken authorization) = true ∧
        g.authorizeMethod tables endpoint method = .ok (true, 200, "ok") := by
  constructor
  · rintro ⟨status, reason, h⟩
    obtain ⟨hToken, hMethod⟩ := authorize_allowed h
    have hComparable := ((returns_authorize hExpected).mp ⟨_, h⟩).1
    have hAscii := (hComparable.resolve_left (expected?_ne_empty hToken)) _ hToken
    exact ⟨hToken, hAscii.1, hMethod⟩
  · rintro ⟨hToken, hAscii, hMethod⟩
    exact ⟨200, "ok", (authorize_of_token hToken hAscii).trans hMethod⟩

/-- What the handler does goes to the end of what was done, and the payloads it sends on
are those that pass. -/
theorem doPost_sends : ∃ new, (doPost tables g net r events).2 = events ++ new ∧
    ∀ e u b, GateEvent.forwarded e u b ∈ new ↔
      ∃ payload, Passes tables g r e payload ∧ u = g.targetUrl e ∧
        b = Json.dumpsSpaced (.obj payload) := by
  cases hPath : endpointForPath tables r.path with
  | error err =>
      have hRun : doPost tables g net r events = (.error err, events) := by
        refine Act.bind_error ?_
        rw [Act.ofPy, hPath]
      refine ⟨[], by rw [hRun, List.append_nil], fun e u b => ?_⟩
      rw [iff_false_left List.not_mem_nil]
      rintro ⟨_, h, _⟩
      rw [h.path] at hPath
      cases hPath
  | ok found =>
      have hStart : Act.ofPy (endpointForPath tables r.path) events = (.ok found, events) := by
        rw [Act.ofPy, hPath]
      cases found with
      | none =>
          have hRun : doPost tables g net r events = emit (.refused 404) events := Act.bind_ok hStart
          refine ⟨_, congrArg Prod.snd hRun, fun e u b => ⟨fun h => ?_, ?_⟩⟩
          · simp at h
          · rintro ⟨_, h, _⟩
            rw [h.path] at hPath
            cases hPath
      | some endpoint =>
          cases hBody : readPayload g r.body with
          | error err =>
              have hRun : doPost tables g net r events =
                  writeJson 400 (GateState.errorAnswer .null (-32700) "invalid JSON") events := by
                refine (Act.bind_ok hStart).trans ?_
                simp only [hBody]
              refine ⟨_, congrArg Prod.snd hRun, fun e u b => ⟨fun h => ?_, ?_⟩⟩
              · simp at h
              · rintro ⟨_, h, _⟩
                rw [h.body] at hBody
                cases hBody
          | ok payload =>
              have hRun : doPost tables g net r events =
                  answer tables g net endpoint payload r.authorization events := by
                refine (Act.bind_ok hStart).trans ?_
                simp only [hBody]
              obtain ⟨new, hNew, hSent⟩ :=
                @answer_sends tables g net endpoint payload r.authorization events
              obtain ⟨expected, hExpected⟩ := endpointForPath_expected (g := g) hPath
              refine ⟨new, (congrArg Prod.snd hRun).trans hNew, fun e u b => ?_⟩
              rw [hSent, authorize_true_iff hExpected]
              constructor
              · rintro ⟨⟨hToken, hAscii, hMethod⟩, hEmpty, hUrl, rfl, rfl, rfl⟩
                exact ⟨payload, ⟨hPath, hBody, hToken, hAscii, hMethod, hEmpty, hUrl⟩, rfl, rfl⟩
              · rintro ⟨other, h, rfl, rfl⟩
                have hEndpoint : e = endpoint := by
                  have hSame := h.path.symm.trans hPath
                  cases hSame
                  rfl
                have hPayload : other = payload := by
                  have hSame := h.body.symm.trans hBody
                  cases hSame
                  rfl
                subst hEndpoint hPayload
                exact ⟨⟨h.token, h.ascii, h.method⟩, h.target, h.url, rfl, rfl, rfl⟩

end Sent

section Runs

variable (tables : UnicodeTables) (g : GateState) (net : Network)

/-- A sequence of requests, each with what the gate did for it. -/
def serve : List GateEvent → List Post → List (Post × List GateEvent)
  | _, [] => []
  | events, r :: rest =>
      let after := (doPost tables g net r events).2
      (r, after.drop events.length) :: serve after rest

/-- What may be sent on for a request: its header carries the token of the endpoint; what
is sent reads as an object whose `method` is a text that the policy of the endpoint allows
and no prefix denies; and on the upstream side no such text starts like a write. -/
def SafelySent (r : Post) (endpoint url body : String) : Prop :=
  url = g.targetUrl endpoint ∧
  (∃ token, g.expected? endpoint = some token ∧ Carries r.authorization token) ∧
  ∃ payload method allow denied, Json.loads body = .ok (.obj payload) ∧
    getField? "method" payload = some (.str method) ∧
    (allowEntry (endpointConfig g.policy endpoint)).toSet = .ok allow ∧ Json.str method ∈ allow ∧
    (denyEntry (endpointConfig g.policy endpoint)).iter = .ok denied ∧
    (∀ p ∈ denied, startsWith (tables.lower method) (tables.lower p.text) = false) ∧
    (isUpstreamSide endpoint = true →
      ∀ p ∈ writeOrAdminPrefixes, startsWith (tables.lower method) p = false)

/-- Nothing was sent on for these requests but what may be. -/
def AllSafelySent (events : List GateEvent) (requests : List Post) : Prop :=
  ∀ exchange ∈ serve tables g net events requests, ∀ endpoint url body,
    GateEvent.forwarded endpoint url body ∈ exchange.2 →
      SafelySent tables g exchange.1 endpoint url body

variable {tables g net} {r : Post} {endpoint : String} {payload : Fields}

/-- A method that passes is on the list, and not denied. -/
theorem authorizeMethod_ok {method : String}
    (h : g.authorizeMethod tables endpoint method = .ok (true, 200, "ok")) : ∃ allow denied,
      (allowEntry (endpointConfig g.policy endpoint)).toSet = .ok allow ∧ Json.str method ∈ allow ∧
      (denyEntry (endpointConfig g.policy endpoint)).iter = .ok denied ∧
      (∀ p ∈ denied, startsWith (tables.lower method) (tables.lower p.text) = false) ∧
      (isUpstreamSide endpoint = true →
        ∀ p ∈ writeOrAdminPrefixes, startsWith (tables.lower method) p = false) := by
  simp only [GateState.authorizeMethod, bind_eq_ok] at h
  obtain ⟨allow, hAllow, denied, hDenied, h⟩ := h
  split at h
  · cases h
  · rename_i hNotDenied
    split at h
    · cases h
    · rename_i hNotWrite
      split at h
      · cases h
      · rename_i hMember
        refine ⟨allow, denied, hAllow, not_not.mp hMember, hDenied, fun p hp => ?_, fun hSide p hp => ?_⟩
        · simpa using fun hStarts => hNotDenied (List.any_eq_true.mpr ⟨p, hp, hStarts⟩)
        · simp only [hSide, Bool.true_and] at hNotWrite
          simpa using fun hStarts => hNotWrite (List.any_eq_true.mpr ⟨p, hp, hStarts⟩)

theorem readPayload_normal {body : Py String} (h : readPayload g body = .ok payload) :
    (Json.obj payload).Normal := by
  obtain ⟨s, -, -, hLoads⟩ := readPayload_eq_ok.mp h
  exact Json.loads_normal hLoads

/-- A payload that passes is safe to send just when its `method` is a text. -/
theorem safelySent_iff (h : Passes tables g r endpoint payload) :
    SafelySent tables g r endpoint (g.targetUrl endpoint) (Json.dumpsSpaced (.obj payload)) ↔
      ∃ method, getField? "method" payload = some (.str method) := by
  have hRead := Json.loads_dumpsSpaced (readPayload_normal h.body)
  constructor
  · rintro ⟨-, -, other, method, _, _, hLoads, hMethod, -⟩
    rw [hRead] at hLoads
    cases hLoads
    exact ⟨method, hMethod⟩
  · rintro ⟨method, hMethod⟩
    have hText : methodText payload = method := by
      rw [methodText, hMethod]
      rfl
    obtain ⟨allow, denied, hAllow, hMember, hRest⟩ := authorizeMethod_ok (hText ▸ h.method)
    exact ⟨rfl, ⟨_, h.token, carries_of_supplied rfl (expected?_ne_empty h.token)⟩, payload, method,
      allow, denied, hRead, hMethod, hAllow, hMember, hRest⟩

/-- Every payload that a sequence of requests makes the gate send on is safe, just when
the gate lets no request through whose `method` is not a text. -/
theorem allSafelySent_iff (tables : UnicodeTables) (g : GateState) (net : Network)
    (events : List GateEvent) (requests : List Post) :
    AllSafelySent tables g net events requests ↔
      ∀ r ∈ requests, ∀ endpoint payload, Passes tables g r endpoint payload →
        ∃ method, getField? "method" payload = some (.str method) := by
  rw [AllSafelySent]
  induction requests generalizing events with
  | nil => simp [serve]
  | cons r rest ih =>
      obtain ⟨new, hNew, hSent⟩ := @doPost_sends tables g net r events
      have hDrop : (doPost tables g net r events).2.drop events.length = new := by
        rw [hNew, List.drop_left]
      rw [serve, List.forall_mem_cons, List.forall_mem_cons, ih, hDrop]
      refine and_congr_left fun _ => ⟨fun h endpoint payload hPasses => ?_, ?_⟩
      · exact (safelySent_iff hPasses).mp
          (h endpoint _ _ ((hSent _ _ _).mpr ⟨payload, hPasses, rfl, rfl⟩))
      · intro h endpoint url body hForwarded
        obtain ⟨payload, hPasses, rfl, rfl⟩ := (hSent _ _ _).mp hForwarded
        exact (safelySent_iff hPasses).mpr (h endpoint payload hPasses)

/-- A gate whose agents may call a method of the name `True`. -/
def literalGate : GateState :=
  { sampleGate with policy := dictOf [("agent", .obj [("allow", .arr [.str "True"])])] }

def literalPost : Post := samplePost "\x7b\"method\":true\x7d"

theorem AllSafelySent.of_first {url body : String} (h : AllSafelySent tables g net [] [r])
    (hSent : GateEvent.forwarded endpoint url body ∈ (doPost tables g net r []).2) :
    SafelySent tables g r endpoint url body :=
  h _ (List.mem_cons_self ..) endpoint url body hSent

theorem literalPost_sent :
    GateEvent.forwarded "agent" "http://127.0.0.1:8546" "\x7b\"method\": true\x7d" ∈
      (doPost .ascii literalGate sampleNetwork literalPost []).2 := by
  decide +kernel

theorem literalPost_reads :
    Json.loads "\x7b\"method\": true\x7d" = .ok (.obj [("method", .bool true)]) := by
  decide +kernel

/-- A `method` that is the literal `true` passes as the text `True` and is sent on as it
is. -/
theorem literal_method_sent :
    ¬ AllSafelySent .ascii literalGate sampleNetwork [] [literalPost] := by
  intro h
  obtain ⟨-, -, payload, method, _, _, hLoads, hMethod, -⟩ := h.of_first literalPost_sent
  rw [literalPost_reads] at hLoads
  cases hLoads
  simp [getField?] at hMethod

end Runs
end L0vi0x.Docker
