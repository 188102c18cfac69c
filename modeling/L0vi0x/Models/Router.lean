import L0vi0x.Core.Store
import L0vi0x.Models.Adapters

/-! The router tries the candidates of a role in order, and has the doctor probe each
one that fails before it moves on. -/
namespace L0vi0x.Models

open L0vi0x.Python

/-- The world, and the candidates that were called so far, once for each call. -/
structure Session (W : Type) where
  world : W
  called : List (Adapter W)

/-- A call of a method of a candidate. -/
def Adapter.calling {W α : Type} (a : Adapter W) (method : Act W α) : Act (Session W) α := fun s =>
  let (result, world) := method s.world
  (result, ⟨world, s.called ++ [a]⟩)

/-- Something else that acts on the world. -/
def Session.lift {W α : Type} (act : Act W α) : Act (Session W) α := fun s =>
  let (result, world) := act s.world
  (result, ⟨world, s.called⟩)

/-- Both of these mean that a candidate cannot serve right now. -/
def isFailover (kind : ErrorKind) : Bool := isUnavailable kind || kind = .timeout

/-- A model as the doctor observed it, which has a name and a context window. -/
structure ModelProfile where
  provider : String
  modelId : String
  family : String
  roles : List String
  contextWindow : Int
  capabilities : List (String × Bool)
  pricingTier : PricingTier
  termsVersion : String
  termsObservedAt : String
  pricingVersion : String
  pricingObservedAt : String
  deprecated : Bool
  window : 0 < contextWindow
  identity : strip provider ≠ "" ∧ strip modelId ≠ ""

/-- What one `probe_model` found; there is no profile when `probe` failed. -/
structure ProbeResult where
  provider : String
  modelId : String
  profile : Option ModelProfile
  roundTripOk : Option Bool
  probeError : Option String

structure RouteAttempt where
  provider : String
  modelId : String
  ok : Bool
  error : Option String := none
  reprobedDeprecated : Option Bool := none

structure RouteResult where
  response : CompletionResponse
  provider : String
  modelId : String
  attempts : List RouteAttempt

/-- The arguments of `route` besides the candidates, and the clock. -/
structure Routing (W : Type) where
  role : String
  request : CompletionRequest
  /-- The pricing tiers that the stack policy allows, if there is one. -/
  allowedTiers : Option (List PricingTier)
  termsVersion : String
  pricingVersion : String
  onEvent : Option (String → Fields → Act W Unit)
  clock : W → String

section Doctor

variable {W : Type} (r : Routing W)

def probeRequest : CompletionRequest where
  messages := [⟨"user", "Reply with a small JSON object."⟩]
  role := some "doctor_probe"
  maxTokens := some 32
  responseSchema := some (.obj (dictOf
    [("type", .str "object"),
      ("properties", .obj (dictOf [("ack", .obj (dictOf [("type", .str "boolean")]))])),
      ("required", .arr [.str "ack"])]))

/-- `_verify_structured_output(adapter)`: any failure means that it is not verified. -/
def verifyStructuredOutput (a : Adapter W) : Act (Session W) Bool :=
  Act.tryCatch
    (do
      let response ← a.calling (a.complete probeRequest)
      pure response.structured.isObj)
    (fun _ => true) fun _ => pure false

def profileOf (now : String) (c : Capabilities) (capabilities : List (String × Bool)) :
    Py ModelProfile :=
  if h : strip c.provider ≠ "" ∧ strip c.modelId ≠ "" then
    pure ⟨c.provider, c.modelId, c.family, c.roles, max c.contextWindow 1, capabilities,
      c.pricingTier, r.termsVersion, now, r.pricingVersion, now, c.deprecated, by omega, h⟩
  else raise .validationError "provider and model_id must be non-empty"

/-- The structured output is declared, and the model is not deprecated. -/
def Capabilities.declares (c : Capabilities) : Bool :=
  (c.capabilities.lookup "structured_output").getD false && !c.deprecated

/-- The capabilities with what the round trip found. -/
def Capabilities.verified (c : Capabilities) : Option Bool → List (String × Bool)
  | some ok => c.capabilities.filter (·.1 ≠ "structured_output") ++ [("structured_output", ok)]
  | none => c.capabilities

def roundTrip (a : Adapter W) (c : Capabilities) : Act (Session W) (Option Bool) :=
  if c.declares then some <$> verifyStructuredOutput a else pure none

/-- The rest of `probe_model` after `probe` has returned. -/
def profileModel (a : Adapter W) (now : String) (c : Capabilities) :
    Act (Session W) ProbeResult := do
  let roundTripOk ← roundTrip a c
  let profile ← Act.ofPy (profileOf r now c (c.verified roundTripOk))
  pure ⟨a.provider, a.modelId, some profile, roundTripOk, none⟩

def probeModel (a : Adapter W) : Act (Session W) ProbeResult := do
  let now ← Session.lift fun w => (.ok (r.clock w), w)
  let probed ← Act.tryCatch (Except.ok <$> a.calling a.probe) isFailover
    fun e => pure (Except.error e.message)
  match probed with
  | .error message => pure ⟨a.provider, a.modelId, none, none, some message⟩
  | .ok capabilities => profileModel r a now capabilities

end Doctor

section Route

variable {W : Type} (r : Routing W)

def allowedByStack (a : Adapter W) : Bool :=
  match r.allowedTiers with
  | none => true
  | some tiers => match a.pricingTier with
      | none => false
      | some tier => tier ∈ tiers

/-- The event of a failed candidate. -/
def reportFailure (a : Adapter W) (e : PyError) (deprecated : Option Bool) : Act W Unit :=
  match r.onEvent with
  | none => pure ()
  | some sink => do
      let kind ← Act.ofPy (Core.Store.validateKind
        (if e.kind = .rateLimited then "quota_switch" else "model_unavailable"))
      sink kind (dictOf [("role", .str r.role), ("provider", .str a.provider),
        ("model_id", .str a.modelId), ("error", .str e.message),
        ("reprobed_deprecated", match deprecated with
          | some b => .bool b
          | none => .null)])

/-- The handler of a candidate that cannot serve: it is probed again. -/
def handleFailure (a : Adapter W) (e : PyError) : Act (Session W) RouteAttempt := do
  let reprobe ← probeModel r a
  let deprecated := reprobe.profile.map (·.deprecated)
  Session.lift (reportFailure r a e deprecated)
  pure ⟨a.provider, a.modelId, false, some e.message, deprecated⟩

/-- `"; ".join(...)` over the failures. -/
def failuresText (attempts : List RouteAttempt) : String :=
  joinText "; " (attempts.map fun a =>
    a.provider ++ "/" ++ a.modelId ++ ": " ++ a.error.getD "None")

def tryCandidates (attempts : List RouteAttempt) :
    List (Adapter W) → Act (Session W) RouteResult
  | [] => Act.ofPy <| raise .noCandidatesAvailable
      ("all " ++ toString attempts.length ++ " candidate(s) for role=" ++
        String.ofList (Json.reprText r.role) ++ " failed: " ++ failuresText attempts)
  | a :: rest => fun s =>
      match a.calling (a.complete r.request) s with
      | (.ok response, next) =>
          (.ok ⟨response, a.provider, a.modelId, attempts ++ [⟨a.provider, a.modelId, true, none, none⟩]⟩,
            next)
      | (.error e, next) =>
          if isFailover e.kind then
            (do
              let attempt ← handleFailure r a e
              tryCandidates (attempts ++ [attempt]) rest) next
          else (.error e, next)

def route (candidates : List (Adapter W)) : Act (Session W) RouteResult :=
  match candidates.filter (allowedByStack r) with
  | [] => Act.ofPy <| raise .noCandidatesAvailable ("no candidates for role=" ++
      String.ofList (Json.reprText r.role) ++ " are allowed by the stack policy")
  | eligible => tryCandidates r [] eligible

end Route

section Failures

variable {W : Type} {r : Routing W} {s : Session W}

/-- A candidate that failed in its turn, and the session after its `complete`. -/
structure Turn (W : Type) where
  candidate : Adapter W
  error : PyError
  after : Session W

/-- The probe of a failed candidate gives a profile or an error that the doctor takes,
and the event sink takes the event. -/
structure Turn.Recovers (r : Routing W) (t : Turn W) : Prop where
  probe : match t.candidate.calling t.candidate.probe t.after with
    | (.ok c, _) => strip c.provider ≠ "" ∧ strip c.modelId ≠ ""
    | (.error e, _) => isFailover e.kind = true
  report : ∀ reprobe s, probeModel r t.candidate t.after = (.ok reprobe, s) →
    returns (reportFailure r t.candidate t.error (reprobe.profile.map (·.deprecated)) s.world).1

/-- The round trip always gives an answer. -/
theorem roundTrip_returns (a : Adapter W) (c : Capabilities) (s : Session W) :
    ∃ result next, roundTrip a c s = (.ok result, next) := by
  unfold roundTrip
  split
  · have hVerify : ∃ ok next, verifyStructuredOutput a s = (.ok ok, next) := by
      unfold verifyStructuredOutput
      rcases hRun : a.calling (a.complete probeRequest) s with ⟨result, next⟩
      cases result with
      | ok response => exact ⟨_, next, Act.tryCatch_ok (Act.bind_ok hRun)⟩
      | error e =>
          refine ⟨false, next, ?_⟩
          rw [Act.tryCatch_error (Act.bind_error hRun), if_pos rfl]
          rfl
    obtain ⟨ok, next, hOk⟩ := hVerify
    exact ⟨some ok, next, Act.bind_ok hOk⟩
  · exact ⟨none, s, rfl⟩

/-- A profile is made when the provider and the model have a name. -/
theorem profileModel_returns (a : Adapter W) (now : String) (c : Capabilities) (s : Session W) :
    returns (profileModel r a now c s).1 ↔ strip c.provider ≠ "" ∧ strip c.modelId ≠ "" := by
  obtain ⟨result, next, hTrip⟩ := roundTrip_returns a c s
  rw [profileModel, Act.bind_ok hTrip]
  by_cases hNamed : strip c.provider ≠ "" ∧ strip c.modelId ≠ ""
  · have hProfile : ∃ profile, profileOf r now c (c.verified result) = .ok profile := by
      rw [profileOf, dif_pos hNamed]
      exact ⟨_, rfl⟩
    obtain ⟨profile, hProfile⟩ := hProfile
    have hStep : Act.ofPy (profileOf r now c (c.verified result)) next = (.ok profile, next) := by
      rw [Act.ofPy, hProfile]
    rw [Act.bind_ok hStep]
    exact ⟨fun _ => hNamed, fun _ => ⟨_, rfl⟩⟩
  · have hStep : Act.ofPy (profileOf r now c (c.verified result)) next =
        (raise .validationError "provider and model_id must be non-empty", next) := by
      rw [Act.ofPy, profileOf, dif_neg hNamed]
    rw [Act.bind_error hStep]
    exact ⟨fun h => absurd h (not_returns_error _), fun h => absurd h hNamed⟩

/-- When the doctor comes back with a result. -/
theorem probeModel_returns (a : Adapter W) (s : Session W) : returns (probeModel r a s).1 ↔
    match a.calling a.probe s with
    | (.ok c, _) => strip c.provider ≠ "" ∧ strip c.modelId ≠ ""
    | (.error e, _) => isFailover e.kind = true := by
  have hClock : Session.lift (fun w => (.ok (r.clock w), w)) s = (.ok (r.clock s.world), s) := rfl
  rw [probeModel, Act.bind_ok hClock]
  rcases hProbe : a.calling a.probe s with ⟨result, next⟩
  cases result with
  | ok c =>
      have hTry : Act.tryCatch (Except.ok <$> a.calling a.probe) isFailover
          (fun e => pure (Except.error e.message)) s = (.ok (.ok c), next) :=
        Act.tryCatch_ok (Act.bind_ok hProbe)
      rw [Act.bind_ok hTry]
      exact profileModel_returns a _ c next
  | error e =>
      have hTry := @Act.tryCatch_error _ _ s next (Except.ok <$> a.calling a.probe)
        (fun e => pure (Except.error e.message)) isFailover e (Act.bind_error hProbe)
      by_cases hKind : isFailover e.kind = true
      · rw [if_pos hKind] at hTry
        rw [Act.bind_ok hTry]
        exact ⟨fun _ => hKind, fun _ => ⟨_, rfl⟩⟩
      · rw [if_neg hKind] at hTry
        rw [Act.bind_error hTry]
        exact ⟨fun h => absurd h (not_returns_error _), fun h => absurd h hKind⟩

/-- When the handler of a failed candidate comes to its end. -/
theorem handleFailure_returns (t : Turn W) :
    returns (handleFailure r t.candidate t.error t.after).1 ↔ t.Recovers r := by
  have hProbe := @probeModel_returns W r t.candidate t.after
  unfold handleFailure
  rcases hRun : probeModel r t.candidate t.after with ⟨result, next⟩
  rw [hRun] at hProbe
  cases result with
  | error e =>
      rw [Act.bind_error hRun]
      exact ⟨fun h => absurd h (not_returns_error _),
        fun h => absurd (hProbe.mpr h.probe) (not_returns_error _)⟩
  | ok reprobe =>
      rw [Act.bind_ok hRun]
      have hNamed := hProbe.mp (returns_ok _)
      rcases hReport : reportFailure r t.candidate t.error
        (reprobe.profile.map (·.deprecated)) next.world with ⟨reported, world⟩
      have hLift : Session.lift (reportFailure r t.candidate t.error
          (reprobe.profile.map (·.deprecated))) next = (reported, ⟨world, next.called⟩) := by
        simp only [Session.lift, hReport]
      have hOnly : t.Recovers r ↔ returns reported := by
        constructor
        · intro h
          have hTakes := h.report reprobe next hRun
          rwa [hReport] at hTakes
        · intro h
          refine ⟨hNamed, fun other s hOther => ?_⟩
          rw [hRun, Prod.mk.injEq, Except.ok.injEq] at hOther
          rw [← hOther.1, ← hOther.2, hReport]
          exact h
      cases reported with
      | ok u =>
          rw [Act.bind_ok hLift, hOnly]
          exact ⟨fun _ => returns_ok _, fun _ => ⟨_, rfl⟩⟩
      | error e =>
          rw [Act.bind_error hLift]
          exact ⟨fun h => absurd h (not_returns_error _),
            fun h => absurd (hOnly.mp h) (not_returns_error _)⟩

/-- What the handler returns names the candidate that failed. -/
theorem handleFailure_names {a : Adapter W} {e : PyError} {attempt : RouteAttempt}
    {next : Session W} (h : handleFailure r a e s = (.ok attempt, next)) :
    (attempt.provider, attempt.modelId, attempt.ok) = (a.provider, a.modelId, false) := by
  unfold handleFailure at h
  rcases hRun : probeModel r a s with ⟨result, mid⟩
  cases result with
  | error e' =>
      rw [Act.bind_error hRun] at h
      cases h
  | ok reprobe =>
      rw [Act.bind_ok hRun] at h
      rcases hLift : Session.lift (reportFailure r a e
        (reprobe.profile.map (·.deprecated))) mid with ⟨reported, after⟩
      cases reported with
      | error e' =>
          rw [Act.bind_error hLift] at h
          cases h
      | ok u =>
          rw [Act.bind_ok hLift] at h
          cases h
          rfl

end Failures

section Trials

variable {W : Type} {r : Routing W} {candidates : List (Adapter W)} {s : Session W}

/-- Candidates that fail one after the other, as far as their `complete` goes. -/
inductive Fails (r : Routing W) : Session W → List (Turn W) → Session W → Prop
  | nil (s : Session W) : Fails r s [] s
  | cons {s final : Session W} {t : Turn W} {turns : List (Turn W)}
      (hCall : t.candidate.calling (t.candidate.complete r.request) s = (.error t.error, t.after))
      (hKind : isFailover t.error.kind = true)
      (hRest : Fails r (handleFailure r t.candidate t.error t.after).2 turns final) :
      Fails r s (t :: turns) final

/-- An eligible candidate succeeds after all the earlier ones have failed. -/
structure Trial (r : Routing W) (candidates : List (Adapter W)) (s : Session W) where
  turns : List (Turn W)
  winner : Adapter W
  later : List (Adapter W)
  response : CompletionResponse
  before : Session W
  after : Session W
  eligible : candidates.filter (allowedByStack r) = turns.map (·.candidate) ++ winner :: later
  fails : Fails r s turns before
  succeeds : winner.calling (winner.complete r.request) before = (.ok response, after)

/-- The attempt that names a candidate and says how it went. -/
def RouteAttempt.shows (a : RouteAttempt) : String × String × Bool := (a.provider, a.modelId, a.ok)

/-- `route` returns the first success, with the failed candidates in their order. -/
def Trial.Routed (t : Trial r candidates s) : Prop :=
  ∃ failed : List RouteAttempt,
    (route r candidates s).1 = .ok ⟨t.response, t.winner.provider, t.winner.modelId,
      failed ++ [⟨t.winner.provider, t.winner.modelId, true, none, none⟩]⟩ ∧
    failed.map (·.shows) =
      t.turns.map fun u => (u.candidate.provider, u.candidate.modelId, false)

/-- One failed turn of the loop. -/
theorem tryCandidates_cons {t : Turn W} {attempts : List RouteAttempt} {rest : List (Adapter W)}
    (hCall : t.candidate.calling (t.candidate.complete r.request) s = (.error t.error, t.after))
    (hKind : isFailover t.error.kind = true) :
    tryCandidates r attempts (t.candidate :: rest) s = (do
      let attempt ← handleFailure r t.candidate t.error
      tryCandidates r (attempts ++ [attempt]) rest) t.after := by
  simp only [tryCandidates, hCall, hKind, ↓reduceIte]

/-- Where every failed candidate recovers, the loop reaches the winner. -/
theorem tryCandidates_wins {turns : List (Turn W)} {before after : Session W} {winner : Adapter W}
    {later : List (Adapter W)} {response : CompletionResponse} (hFails : Fails r s turns before)
    (hWins : winner.calling (winner.complete r.request) before = (.ok response, after))
    (hRecovers : ∀ t ∈ turns, t.Recovers r) (attempts : List RouteAttempt) :
    ∃ failed : List RouteAttempt,
      (tryCandidates r attempts (turns.map (·.candidate) ++ winner :: later) s).1 =
        .ok ⟨response, winner.provider, winner.modelId,
          attempts ++ failed ++ [⟨winner.provider, winner.modelId, true, none, none⟩]⟩ ∧
      failed.map (·.shows) =
        turns.map fun u => (u.candidate.provider, u.candidate.modelId, false) := by
  induction hFails generalizing attempts with
  | nil s =>
      refine ⟨[], ?_, rfl⟩
      simp only [List.map_nil, List.nil_append, tryCandidates, hWins, List.append_nil]
  | @cons s final t turns hCall hKind hRest ih =>
      rw [List.forall_mem_cons] at hRecovers
      obtain ⟨attempt, hOk⟩ := handleFailure_returns t |>.mpr hRecovers.1
      have hRun : handleFailure r t.candidate t.error t.after =
          (.ok attempt, (handleFailure r t.candidate t.error t.after).2) := Prod.ext hOk rfl
      obtain ⟨failed, hResult, hShows⟩ := ih hWins hRecovers.2 (attempts ++ [attempt])
      refine ⟨attempt :: failed, ?_, ?_⟩
      · rw [List.map_cons, List.cons_append, tryCandidates_cons hCall hKind, Act.bind_ok hRun,
          hResult, List.append_assoc attempts, List.singleton_append]
      · rw [List.map_cons, List.map_cons, hShows, RouteAttempt.shows, handleFailure_names hRun]

/-- Where the loop comes to its end, every failed candidate has recovered. -/
theorem recovers_of_returns {turns : List (Turn W)} {before : Session W}
    {rest : List (Adapter W)} (hFails : Fails r s turns before) (attempts : List RouteAttempt)
    (h : returns (tryCandidates r attempts (turns.map (·.candidate) ++ rest) s).1) :
    ∀ t ∈ turns, t.Recovers r := by
  induction hFails generalizing attempts with
  | nil s => simp
  | @cons s final t turns hCall hKind hRest ih =>
      rw [List.map_cons, List.cons_append, tryCandidates_cons hCall hKind] at h
      rcases hRun : handleFailure r t.candidate t.error t.after with ⟨result, next⟩
      cases result with
      | error e =>
          rw [Act.bind_error hRun] at h
          exact absurd h (not_returns_error _)
      | ok attempt =>
          have hFirst : t.Recovers r := by
            rw [← handleFailure_returns, hRun]
            exact returns_ok _
          rw [Act.bind_ok hRun] at h
          rw [hRun] at ih
          exact List.forall_mem_cons.mpr ⟨hFirst, ih _ h⟩

/-- A trial is routed when all its failed candidates recover, and only then. -/
theorem Trial.routed_iff (t : Trial r candidates s) :
    t.Routed ↔ ∀ u ∈ t.turns, u.Recovers r := by
  have hRoute : route r candidates s =
      tryCandidates r [] (t.turns.map (·.candidate) ++ t.winner :: t.later) s := by
    have hNe : t.turns.map (·.candidate) ++ t.winner :: t.later ≠ [] := by simp
    obtain ⟨a, rest, hCons⟩ := List.exists_cons_of_ne_nil hNe
    rw [route, t.eligible, hCons]
  constructor
  · rintro ⟨failed, hResult, -⟩
    refine @recovers_of_returns W r s t.turns t.before (t.winner :: t.later) t.fails [] ?_
    rw [← hRoute, hResult]
    exact returns_ok _
  · intro hRecovers
    have hWins := @tryCandidates_wins W r s t.turns t.before t.after t.winner t.later t.response t.fails
      t.succeeds hRecovers []
    rw [← hRoute] at hWins
    exact hWins

end Trials

section Calls

variable {W : Type} {r : Routing W} {eligible : List (Adapter W)}

/-- The calls of a computation are calls of eligible candidates. -/
def CallsOnly (eligible : List (Adapter W)) (s next : Session W) : Prop :=
  ∃ more, next.called = s.called ++ more ∧ ∀ a ∈ more, a ∈ eligible

theorem CallsOnly.refl (s : Session W) : CallsOnly eligible s s :=
  ⟨[], (List.append_nil _).symm, by simp⟩

theorem CallsOnly.trans {s mid next : Session W} (hFirst : CallsOnly eligible s mid)
    (hSecond : CallsOnly eligible mid next) : CallsOnly eligible s next := by
  obtain ⟨more, hMore, hIn⟩ := hFirst
  obtain ⟨later, hLater, hIn'⟩ := hSecond
  refine ⟨more ++ later, by rw [hLater, hMore, List.append_assoc], fun a ha => ?_⟩
  exact (List.mem_append.mp ha).elim (hIn a) (hIn' a)

theorem calling_calls {α : Type} {a : Adapter W} (ha : a ∈ eligible) (method : Act W α) :
    Act.Keeps (CallsOnly eligible) (a.calling method) :=
  fun _ => ⟨[a], rfl, fun _ hb => List.mem_singleton.mp hb ▸ ha⟩

/-- What does not call a candidate calls nothing. -/
theorem lift_calls {α : Type} (act : Act W α) :
    Act.Keeps (CallsOnly eligible) (Session.lift act) :=
  fun _ => ⟨[], (List.append_nil _).symm, by simp⟩

/-- A computation and what follows it call what they call. -/
theorem bind_calls {α β : Type} {first : Act (Session W) α} {rest : α → Act (Session W) β}
    (hFirst : Act.Keeps (CallsOnly eligible) first)
    (hRest : ∀ x, Act.Keeps (CallsOnly eligible) (rest x)) :
    Act.Keeps (CallsOnly eligible) (first >>= rest) :=
  Act.Keeps.bind (fun h h' => h.trans h') hFirst hRest

theorem pure_calls {α : Type} (x : α) :
    Act.Keeps (CallsOnly eligible) (pure x : Act (Session W) α) := fun s => .refl s

theorem ofPy_calls {α : Type} (x : Py α) :
    Act.Keeps (CallsOnly eligible) (Act.ofPy x : Act (Session W) α) := fun s => .refl s

theorem probeModel_calls {a : Adapter W} (ha : a ∈ eligible) :
    Act.Keeps (CallsOnly eligible) (probeModel r a) := by
  have hVerify : Act.Keeps (CallsOnly eligible) (verifyStructuredOutput a) :=
    Act.Keeps.tryCatch (fun h h' => h.trans h')
      (bind_calls (calling_calls ha _) fun _ => pure_calls _) fun _ => pure_calls _
  refine bind_calls (lift_calls _) fun now => bind_calls ?_ fun probed => ?_
  · exact Act.Keeps.tryCatch (fun h h' => h.trans h')
      (bind_calls (calling_calls ha _) fun _ => pure_calls _) fun _ => pure_calls _
  · cases probed with
    | error message => exact pure_calls _
    | ok c =>
        refine bind_calls ?_ fun _ => bind_calls (ofPy_calls _) fun _ => pure_calls _
        unfold roundTrip
        split
        · exact bind_calls hVerify fun _ => pure_calls _
        · exact pure_calls _

/-- The loop of `route` calls its candidates only. -/
theorem tryCandidates_calls {candidates : List (Adapter W)} (h : ∀ a ∈ candidates, a ∈ eligible)
    (attempts : List RouteAttempt) :
    Act.Keeps (CallsOnly eligible) (tryCandidates r attempts candidates) := by
  induction candidates generalizing attempts with
  | nil => exact ofPy_calls _
  | cons a rest ih =>
      rw [List.forall_mem_cons] at h
      intro s
      have hCall := calling_calls h.1 (a.complete r.request) s
      rcases hRun : a.calling (a.complete r.request) s with ⟨result, next⟩
      rw [hRun] at hCall
      simp only [tryCandidates, hRun]
      cases result with
      | ok response => exact hCall
      | error e =>
          simp only
          split
          · refine hCall.trans (bind_calls ?_ (fun _ => ih h.2 _) next)
            exact bind_calls (probeModel_calls h.1) fun _ =>
              bind_calls (lift_calls _) fun _ => pure_calls _
          · exact hCall

/-- Candidates that the stack policy excludes are never called. -/
theorem route_calls (r : Routing W) (candidates : List (Adapter W)) (w : W) :
    ∀ a ∈ (route r candidates ⟨w, []⟩).2.called,
      a ∈ candidates ∧ allowedByStack r a = true := by
  have hKeeps : Act.Keeps (CallsOnly (candidates.filter (allowedByStack r)))
      (route r candidates) := by
    unfold route
    split
    · exact ofPy_calls _
    · exact tryCandidates_calls (fun a ha => ha) []
  obtain ⟨more, hMore, hIn⟩ := hKeeps ⟨w, []⟩
  intro a ha
  rw [hMore, List.nil_append] at ha
  exact List.mem_filter.mp (hIn a ha)

/-- Every trial is routed, and no excluded candidate called, exactly when the failed
candidates of every trial recover. -/
theorem route_contained_iff (r : Routing W) (candidates : List (Adapter W)) (w : W) :
    ((∀ t : Trial r candidates ⟨w, []⟩, t.Routed) ∧
      ∀ a ∈ (route r candidates ⟨w, []⟩).2.called,
        a ∈ candidates ∧ allowedByStack r a = true) ↔
      ∀ t : Trial r candidates ⟨w, []⟩, ∀ u ∈ t.turns, u.Recovers r := by
  constructor
  · exact fun h t => t.routed_iff.mp (h.1 t)
  · exact fun h => ⟨fun t => t.routed_iff.mpr (h t), route_calls r candidates w⟩

end Calls

section Escape

def scripted : HttpRequest → List HttpAnswer → HttpAnswer × List HttpAnswer
  | _, [] => (.urlError "refused" false, [])
  | _, answer :: rest => (answer, rest)

def primary : OpenAICompatAdapter where
  provider := "openrouter"
  modelId := "primary-1"
  family := "primary"
  baseUrl := "http://localhost:8080/v1"
  apiKey := none
  roles := []
  contextWindow := 8192
  capabilities := []
  pricingTier := .paid
  timeout := .ofRat 30

def pong : CompletionResponse := ⟨"fake", "backup-1", .str "pong", .null, ⟨1, 1, 2⟩, .null⟩

def backup : Adapter (List HttpAnswer) where
  provider := "fake"
  modelId := "backup-1"
  pricingTier := some .free
  complete _ := pure pong
  probe := pure ⟨"fake", "backup-1", "fake", [], 8192, [], .free, false⟩

def plainRouting : Routing (List HttpAnswer) where
  role := "worker"
  request := { messages := [⟨"user", "ping"⟩] }
  allowedTiers := none
  termsVersion := "unknown"
  pricingVersion := "unknown"
  onEvent := none
  clock _ := "2026-01-01T00:00:00Z"

/-- The gateway is down, and then shows a page instead of JSON. -/
def outage : List HttpAnswer := [.httpError 503 [], .body (encodeUtf8 "<html>")]

/-- The probe of a page that is no JSON raises the error of the parser. -/
theorem probe_page {called : List (Adapter (List HttpAnswer))} :
    (primary.adapter scripted).calling (primary.adapter scripted).probe
      ⟨[.body (encodeUtf8 "<html>")], called⟩ =
        (raise .jsonDecodeError "Expecting value", ⟨[], called ++ [primary.adapter scripted]⟩) := by
  have hLoads : Json.loads "<html>" = raise .jsonDecodeError "Expecting value" := by
    decide
  have hRead : primary.readAnswer (.body (encodeUtf8 "<html>")) =
      raise .jsonDecodeError "Expecting value" := by
    simp only [OpenAICompatAdapter.readAnswer, decodeUtf8?_encodeUtf8, hLoads]
  have hProbe : primary.probe scripted [.body (encodeUtf8 "<html>")] =
      (raise .jsonDecodeError "Expecting value", []) := by
    refine Act.bind_error ?_
    refine (Act.tryCatch_error (Act.bind_error ?_)).trans (if_neg (by decide))
    simp only [OpenAICompatAdapter.post, scripted, hRead]
    rfl
  simp only [Adapter.calling, OpenAICompatAdapter.adapter, hProbe]

/-- The page ends the route although the next candidate would have served. -/
theorem page_escapes_route : ¬∀ (r : Routing (List HttpAnswer))
    (candidates : List (Adapter (List HttpAnswer))) (w : List HttpAnswer),
      (∀ t : Trial r candidates ⟨w, []⟩, t.Routed) ∧
        ∀ a ∈ (route r candidates ⟨w, []⟩).2.called,
          a ∈ candidates ∧ allowedByStack r a = true := by
  intro h
  let failing := primary.adapter scripted
  have hDown : ∃ e, failing.calling (failing.complete plainRouting.request) ⟨outage, []⟩ =
      (.error e, ⟨[.body (encodeUtf8 "<html>")], [failing]⟩) ∧ isFailover e.kind = true :=
    ⟨_, rfl, rfl⟩
  obtain ⟨e, hCall, hKind⟩ := hDown
  let turn : Turn (List HttpAnswer) := ⟨failing, e, ⟨[.body (encodeUtf8 "<html>")], [failing]⟩⟩
  let trial : Trial plainRouting [failing, backup] ⟨outage, []⟩ :=
    { turns := [turn], winner := backup, later := [], response := pong
      before := (handleFailure plainRouting failing e turn.after).2
      after := _
      eligible := rfl
      fails := .cons hCall hKind (.nil _)
      succeeds := rfl }
  have hRecovers := trial.routed_iff.mp ((h _ _ _).1 trial) turn (List.mem_singleton_self _)
  have hProbe := hRecovers.probe
  rw [probe_page] at hProbe
  exact Bool.false_ne_true hProbe

end Escape
end L0vi0x.Models
