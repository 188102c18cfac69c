import L0vi0x.Chain.RpcGate
import L0vi0x.Docker.GateSafety

/-! The gate of the container and the gate of the library: they decide alike, and what
their logs show of a url does not depend on its secret parts, where the container's gate
reads the url at all. -/
namespace L0vi0x.Docker

open L0vi0x.Python
open L0vi0x.Core.Certificates (compareDigest)

section Decisions

/-- A header that supplies the token `t`: as a bearer token, as the password of a user, or
as it is when it does not look like one of these. -/
def HeaderFor (t header : String) : Prop :=
  header = "Bearer " ++ t ∨
    (∃ user : String, ':' ∉ user.toList ∧
      header = "Basic " ++ b64encode (encodeUtf8 (user ++ ":" ++ t))) ∨
    (header = t ∧ startsWith t "Bearer " = false ∧ startsWith t "Basic " = false)

theorem basic_not_bearer (t : String) : startsWith ("Basic " ++ t) "Bearer " = false := by
  rw [startsWith, String.toList_append]
  rfl

theorem afterFirst_append {c : Char} {front : List Char} (h : c ∉ front) (back : List Char) :
    afterFirst c (front ++ c :: back) = back := by
  have hFront : ∀ d ∈ front, decide (d ≠ c) = true := by
    intro d hd
    simp only [ne_eq, decide_not, Bool.not_eq_true', decide_eq_false_iff_not]
    rintro rfl
    exact h hd
  rw [afterFirst, List.dropWhile_append_of_pos hFront, List.dropWhile_cons_of_neg (by simp),
    List.tail_cons]

theorem supplied_of_header {t header : String} (h : HeaderFor t header) :
    suppliedToken (some header) = t := by
  rcases h with rfl | ⟨user, hUser, rfl⟩ | ⟨rfl, hBearer, hBasic⟩
  · have hDrop : dropText ("Bearer " ++ t) 7 = t := dropText_append "Bearer " t
    simp only [suppliedToken, Option.getD_some, startsWith_append, if_true, hDrop]
  · have hDrop : dropText ("Basic " ++ b64encode (encodeUtf8 (user ++ ":" ++ t))) 6 =
        b64encode (encodeUtf8 (user ++ ":" ++ t)) := dropText_append "Basic " _
    have hColon : (user ++ ":" ++ t).toList = user.toList ++ ':' :: t.toList := by
      simp
    simp only [suppliedToken, Option.getD_some, basic_not_bearer, startsWith_append, if_true, hDrop,
      b64decode?_b64encode, Option.bind_some, decodeUtf8?_encodeUtf8, hColon,
      afterFirst_append hUser, String.ofList_toList]
    simp
  · simp [suppliedToken, hBearer, hBasic]

/-- Both gates look an endpoint up in the same way. -/
theorem endpointConfig_eq (policy : Fields) (endpoint : String) :
    Chain.RpcGate.endpointConfig policy endpoint = endpointConfig policy endpoint := rfl

/-- The library's gate over the same policy and tokens. -/
def GateState.asLibrary (g : GateState) : Chain.RpcGate :=
  ⟨g.policy, g.agentToken, g.upstreamToken⟩

def libraryOutcome (d : Chain.RpcGate.GateDecision) : Bool × Nat := (d.allowed, d.status)

def stateOutcome (d : Bool × Nat × String) : Bool × Nat := (d.1, d.2.1)

variable {tables : UnicodeTables} {g : GateState} {endpoint method t : String}

/-- Both gates make the same tests on the method, in the same order. -/
theorem methods_agree :
    libraryOutcome <$> g.asLibrary.decideMethod tables endpoint method =
      stateOutcome <$> g.authorizeMethod tables endpoint method := by
  simp only [Chain.RpcGate.decideMethod, GateState.asLibrary, endpointConfig_eq,
    GateState.authorizeMethod, allowEntry, denyEntry]
  generalize (Json.toSet _ : Py _) = allow
  generalize (Json.iter _ : Py _) = prefixes
  cases allow with
  | error e => rfl
  | ok allow => cases prefixes with
    | error e => rfl
    | ok denied =>
        have hSide : (endpoint ∈ ["upstream", "cross_check"] ∧
            (Chain.RpcGate.writeOrAdminPrefixes.any (startsWith (tables.lower method))) = true) ↔
            (isUpstreamSide endpoint &&
              writeOrAdminPrefixes.any (startsWith (tables.lower method))) = true := by
          simp [isUpstreamSide, Chain.RpcGate.writeOrAdminPrefixes, writeOrAdminPrefixes]
        simp only [Bind.bind, Except.bind, List.any_map, Function.comp_def, hSide]
        split
        · rfl
        · split
          · rfl
          · split
            · rfl
            · rfl

/-- The two gates give the same flag and status for every endpoint name, method, token and
header that supplies it, and raise alike. -/
theorem decisions_agree (tables : UnicodeTables) (g : GateState)
    (endpoint method t header : String) (hHeader : HeaderFor t header) :
    libraryOutcome <$> g.asLibrary.decision tables endpoint method (some t) =
      stateOutcome <$> g.authorize tables endpoint method (some header) := by
  rw [Chain.RpcGate.decision, GateState.authorize, supplied_of_header hHeader]
  have hKnown : (if endpoint ∉ ["agent", "upstream", "cross_check"] then none
      else some (if endpoint = "agent" then g.agentToken else g.upstreamToken)) =
      g.expected? endpoint := by
    unfold GateState.expected? isUpstreamSide
    by_cases hAgent : endpoint = "agent"
    · simp [hAgent]
    · by_cases hUpstream : endpoint = "upstream" <;> by_cases hCross : endpoint = "cross_check" <;>
        simp [hAgent, hUpstream, hCross]
  rw [← hKnown]
  by_cases hUnknown : endpoint ∉ ["agent", "upstream", "cross_check"]
  · rw [if_pos hUnknown, if_pos hUnknown]
    rfl
  · rw [if_neg hUnknown, if_neg hUnknown]
    simp only [Option.getD_some]
    split
    · rfl
    · simp only [GateState.asLibrary]
      cases compareDigest t (if endpoint = "agent" then g.agentToken else g.upstreamToken) with
      | error e => rfl
      | ok same => cases same with
        | false => rfl
        | true => exact methods_agree

/-- The token of the agents, as the password of a user. -/
theorem sample_basic_agrees :
    libraryOutcome <$> sampleGate.asLibrary.decision .ascii "agent" "eth_call" (some "agent-token") =
      stateOutcome <$> sampleGate.authorize .ascii "agent" "eth_call"
        (some ("Basic " ++ b64encode (encodeUtf8 ("user" ++ ":" ++ "agent-token")))) :=
  decisions_agree .ascii sampleGate "agent" "eth_call" "agent-token" _
    (.inr (.inl ⟨"user", by decide, rfl⟩))

end Decisions

section Logs

variable (tables : UnicodeTables)

/-- Two absolute urls with the same scheme, host and port. -/
def SameOrigin (s t : String) : Prop :=
  ∃ p q port, urlsplit tables s = .ok p ∧ urlsplit tables t = .ok q ∧
    (p.scheme ≠ "" ∧ p.netloc ≠ "") ∧ (q.scheme ≠ "" ∧ q.netloc ≠ "") ∧ p.scheme = q.scheme ∧
    p.hostname tables = q.hostname tables ∧ p.port = .ok port ∧ q.port = .ok port

/-- The texts of two values that may differ: urls, in their secret parts. -/
def Varied (s t : String) : Prop := s = t ∨ SameOrigin tables s t

/-- The gate of the container reads this text as a url. -/
def ReadAsUrl (s : String) : Prop := s.toList.length ≤ 256 ∧ containsText s "://" = true

/-- What is shown of a text that is not read as a url. -/
def cutText (s : String) : String :=
  if 256 < s.toList.length then takeText s 256 ++ truncationMark else s

/-- `scheme://host:port` of a url is this text. -/
def HasOrigin (s shown : String) : Prop :=
  ∃ p port, urlsplit tables s = .ok p ∧ p.port = .ok port ∧ originText tables p port = shown

/-- The gate of the container shows the same of two urls: it reads both, or it cuts both
to the same text; or it cuts one of them to what the origin of the other looks like. -/
def ShownAlike (s t : String) : Prop :=
  (ReadAsUrl s ∧ ReadAsUrl t) ∨ (¬ ReadAsUrl s ∧ ¬ ReadAsUrl t ∧ cutText s = cutText t) ∨
    (ReadAsUrl s ∧ ¬ ReadAsUrl t ∧ HasOrigin tables s (cutText t)) ∨
    (¬ ReadAsUrl s ∧ ReadAsUrl t ∧ HasOrigin tables t (cutText s))

variable {tables} {s t : String}

/-- The gate shows the origin of an absolute url that it reads. -/
theorem redactText_url {p : SplitUrl} {port : Option Nat} (hRead : ReadAsUrl s)
    (hSplit : urlsplit tables s = .ok p) (hAbsolute : p.scheme ≠ "" ∧ p.netloc ≠ "")
    (hPort : p.port = .ok port) : redactText tables s = .ok (originText tables p port) := by
  simp only [redactText, if_neg (Nat.not_lt.mpr hRead.1), if_pos hRead.2, hSplit, Bind.bind,
    Except.bind, if_pos hAbsolute, hPort]
  rfl

/-- The gate cuts a text that it does not read as a url. -/
theorem redactText_cut (hRead : ¬ ReadAsUrl s) : redactText tables s = .ok (cutText s) := by
  unfold redactText cutText
  split
  · rfl
  · rename_i hShort
    rw [if_neg fun hUrl => hRead ⟨Nat.not_lt.mp hShort, hUrl⟩]
    rfl

/-- Where both texts are shown, they are shown alike exactly when what is shown is equal. -/
theorem sameText_of_ok {f : String → Py String} {a b : String} (ha : f s = .ok a)
    (hb : f t = .ok b) : Json.SameText f s t ↔ a = b := by
  refine ⟨fun h => h a b ha hb, ?_⟩
  rintro rfl a' b' ha' hb'
  rw [← Except.ok.inj (ha.symm.trans ha'), ← Except.ok.inj (hb.symm.trans hb')]

theorem hasOrigin_iff {p : SplitUrl} {port : Option Nat} {shown : String}
    (hSplit : urlsplit tables s = .ok p) (hPort : p.port = .ok port) :
    HasOrigin tables s shown ↔ originText tables p port = shown := by
  constructor
  · rintro ⟨p', port', hSplit', hPort', h⟩
    cases hSplit.symm.trans hSplit'
    cases hPort.symm.trans hPort'
    exact h
  · exact fun h => ⟨p, port, hSplit, hPort, h⟩

/-- Where the gate of the container tells two varied texts apart. -/
theorem sameText_iff (h : Varied tables s t) :
    Json.SameText (redactText tables) s t ↔ s = t ∨ ShownAlike tables s t := by
  rcases h with rfl | ⟨p, q, port, hp, hq, hpAbs, hqAbs, hScheme, hHost, hpPort, hqPort⟩
  · refine ⟨fun _ => .inl rfl, fun _ a b ha hb => ?_⟩
    rw [← Except.ok.inj (ha.symm.trans hb)]
  · have hOrigin : originText tables p port = originText tables q port := by
      unfold originText
      rw [hScheme, hHost]
    have hSelf : s = t → ShownAlike tables s t := by
      rintro rfl
      by_cases hRead : ReadAsUrl s
      · exact .inl ⟨hRead, hRead⟩
      · exact .inr (.inl ⟨hRead, hRead, rfl⟩)
    rw [or_iff_right_of_imp hSelf, ShownAlike]
    by_cases hs : ReadAsUrl s
    · by_cases ht : ReadAsUrl t
      · rw [sameText_of_ok (redactText_url hs hp hpAbs hpPort) (redactText_url ht hq hqAbs hqPort)]
        exact ⟨fun _ => .inl ⟨hs, ht⟩, fun _ => hOrigin⟩
      · rw [sameText_of_ok (redactText_url hs hp hpAbs hpPort) (redactText_cut ht),
          hasOrigin_iff hp hpPort]
        simp [hs, ht]
    · by_cases ht : ReadAsUrl t
      · rw [sameText_of_ok (redactText_cut hs) (redactText_url ht hq hqAbs hqPort),
          hasOrigin_iff hq hqPort]
        simp [hs, ht, eq_comm]
      · rw [sameText_of_ok (redactText_cut hs) (redactText_cut ht)]
        simp [hs, ht]

/-- The library shows the origin of any absolute url. -/
theorem library_redactText_url {p : SplitUrl} {port : Option Nat}
    (hSplit : urlsplit tables s = .ok p) (hAbsolute : p.scheme ≠ "" ∧ p.netloc ≠ "")
    (hPort : p.port = .ok port) : Chain.RpcGate.redactText tables s =
      .ok (Chain.RpcGate.urlunsplit p.scheme (p.hostname tables ++ SplitUrl.portText port)) := by
  simp only [Chain.RpcGate.redactText, hSplit, Bind.bind, Except.bind, if_pos hAbsolute, hPort]
  rfl

/-- The gate of the library tells no two varied texts apart. -/
theorem library_sameText (h : Varied tables s t) :
    Json.SameText (Chain.RpcGate.redactText tables) s t := by
  rcases h with rfl | ⟨p, q, port, hp, hq, hpAbs, hqAbs, hScheme, hHost, hpPort, hqPort⟩
  · intro a b ha hb
    exact Except.ok.inj (ha.symm.trans hb)
  · rw [sameText_of_ok (library_redactText_url hp hpAbs hpPort)
      (library_redactText_url hq hqAbs hqPort), hScheme, hHost]

/-- Varied texts can be redacted together. -/
theorem redactable_iff (h : Varied tables s t) :
    RedactableText tables s ↔ RedactableText tables t := by
  rcases h with rfl | ⟨p, q, port, hp, hq, -, -, -, -, hpPort, hqPort⟩
  · rfl
  · exact ⟨fun _ => .inr (.inr ⟨q, hq, .inr (.inr ⟨port, hqPort⟩)⟩),
      fun _ => .inr (.inr ⟨p, hp, .inr (.inr ⟨port, hpPort⟩)⟩)⟩

/-- What the logs show of two parameter trees that differ in the secret parts of their
urls is the same just when the gate of the container shows each pair of urls alike; the
gate of the library always does. -/
theorem logged_params_agree_iff (tables : UnicodeTables) (j k : Json)
    (hVaried : Json.Agree (fun _ => false) (Varied tables) j k) :
    ((∀ v w, redactParams tables j = .ok v → redactParams tables k = .ok w → v = w) ∧
      (∀ v w, Chain.RpcGate.redactParams tables j = .ok v →
        Chain.RpcGate.redactParams tables k = .ok w → v = w)) ↔
      (Redactable tables j →
        Json.Agree (isSensitive tables) (fun s t => s = t ∨ ShownAlike tables s t) j k) := by
  have hLibrary : ∀ v w, Chain.RpcGate.redactParams tables j = .ok v →
      Chain.RpcGate.redactParams tables k = .ok w → v = w := by
    intro v w hv hw
    have hTexts : ∀ s t, Varied tables s t →
        (Json.SameText (Chain.RpcGate.redactText tables) s t ↔ Varied tables s t) :=
      fun s t h => ⟨fun _ => h, library_sameText⟩
    exact (Json.mapTexts_eq_iff hTexts j hVaried hv hw).mpr (hVaried.below _)
  rw [and_iff_left hLibrary]
  constructor
  · intro h hj
    have hTexts : ∀ s t, Varied tables s t → (RedactableText tables s ↔ RedactableText tables t) :=
      fun _ _ => redactable_iff
    have hk : Redactable tables k := (hVaried.everyText_iff hTexts).mp hj
    obtain ⟨v, hv⟩ := (returns_redactParams j).mpr hj
    obtain ⟨w, hw⟩ := (returns_redactParams k).mpr hk
    exact (Json.mapTexts_eq_iff (fun _ _ => sameText_iff) j hVaried hv hw).mp (h v w hv hw)
  · intro h v w hv hw
    have hj := (returns_redactParams j).mp ⟨v, hv⟩
    exact (Json.mapTexts_eq_iff (fun _ _ => sameText_iff) j hVaried hv hw).mpr (h hj)

def longUrl (c : Char) : String := "http://host/" ++ String.ofList (List.replicate 250 c)

theorem longUrl_toList (c : Char) : (longUrl c).toList =
    'h' :: 't' :: 't' :: 'p' :: ':' :: '/' :: '/' :: 'h' :: 'o' :: 's' :: 't' :: '/' ::
      List.replicate 250 c := by
  rw [longUrl, String.toList_append, String.toList_ofList, String.toList_ofList]
  rfl

/-- The long urls differ in their path only. -/
theorem longUrl_split : ∀ c ∈ ['a', 'b'], urlsplit .ascii (longUrl c) =
    .ok ⟨"http", "host", String.ofList ('/' :: List.replicate 250 c), "", ""⟩ := by
  intro c hc
  have hPlain : c ≠ '?' ∧ c ≠ '#' ∧ c ≠ '\t' ∧ c ≠ '\r' ∧ c ≠ '\n' := by
    rcases List.mem_pair.mp hc with rfl | rfl <;> decide
  obtain ⟨hMark, hHash, hTab, hReturn, hLine⟩ := hPlain
  generalize hPath : List.replicate 250 c = path
  have hMem : ∀ d ∈ path, d = c := fun d hd => List.eq_of_mem_replicate (hPath ▸ hd)
  have hKept : ∀ q : Char → Bool, q c = true → path.takeWhile q = path ∧ path.dropWhile q = [] ∧
      path.filter q = path := by
    intro q hq
    have hAll : ∀ d ∈ path, q d = true := fun d hd => (hMem d hd).symm ▸ hq
    exact ⟨List.takeWhile_eq_self_iff.mpr hAll, List.dropWhile_eq_nil_iff.mpr hAll,
      List.filter_eq_self.mpr hAll⟩
  have hClean : cleanUrl (longUrl c) = 
    'h' :: 't' :: 't' :: 'p' :: ':' :: '/' :: '/' :: 'h' :: 'o' :: 's' :: 't' :: '/' :: path := by
    rw [cleanUrl, longUrl_toList, hPath, List.dropWhile_cons_of_neg (by decide)]
    have hFilter := (hKept (fun c => c ≠ '\t' && c ≠ '\r' && c ≠ '\n') (by simp [hTab, hReturn, hLine])).2.2
    simp only [List.filter_cons, hFilter]
    rfl
  have hNoHash := hKept (fun d => decide (d ≠ '#')) (by simp [hHash])
  have hNoMark := hKept (fun d => decide (d ≠ '?')) (by simp [hMark])
  have hScheme : splitScheme (cleanUrl (longUrl c)) =
      (['h', 't', 't', 'p'], '/' :: '/' :: 'h' :: 'o' :: 's' :: 't' :: '/' :: path) := by
    rw [hClean]
    rfl
  have hNetloc : splitNetloc ('/' :: '/' :: 'h' :: 'o' :: 's' :: 't' :: '/' :: path) =
    (['h', 'o', 's', 't'], '/' :: path) := rfl
  have hSlash : ('/' :: path).takeWhile (· ≠ '#') = '/' :: path ∧ ('/' :: path).dropWhile (· ≠ '#') = [] ∧
     ('/' :: path).takeWhile (· ≠ '?') = '/' :: path ∧ ('/' :: path).dropWhile (· ≠ '?') = [] := by
    refine ⟨?_, ?_, ?_, ?_⟩
    · rw [List.takeWhile_cons_of_pos (by decide), hNoHash.1]
    · rw [List.dropWhile_cons_of_pos (by decide), hNoHash.2.1]
    · rw [List.takeWhile_cons_of_pos (by decide), hNoMark.1]
    · rw [List.dropWhile_cons_of_pos (by decide), hNoMark.2.1]
  simp only [urlsplit, hScheme, hNetloc, afterFirst, hSlash]
  rfl

/-- The host and the port of a url are read off the part between `//` and the path. -/
theorem host_read (path : String) :
    (⟨"http", "host", path, "", ""⟩ : SplitUrl).hostname .ascii = "host" ∧
      (⟨"http", "host", path, "", ""⟩ : SplitUrl).port = .ok none := by
  have hInfo : (⟨"http", "host", path, "", ""⟩ : SplitUrl).hostInfo = (['h', 'o', 's', 't'], []) := by
    show (⟨"", "host", "", "", ""⟩ : SplitUrl).hostInfo = _
    decide
  rw [SplitUrl.hostname, SplitUrl.port, hInfo]
  exact ⟨by decide, rfl⟩

theorem longUrl_sameOrigin : SameOrigin .ascii (longUrl 'a') (longUrl 'b') := by
  have ha := longUrl_split 'a' (by simp)
  have hb := longUrl_split 'b' (by simp)
  refine ⟨_, _, none, ha, hb, ?_, ?_, rfl, ?_, ?_, ?_⟩
  · exact ⟨by decide, by decide⟩
  · exact ⟨by decide, by decide⟩
  · rw [(host_read _).1, (host_read _).1]
  · exact (host_read _).2
  · exact (host_read _).2

/-- A url among the parameters is shown by its origin. -/
theorem redactParams_url {p : SplitUrl} {port : Option Nat} (hRead : ReadAsUrl s)
    (hSplit : urlsplit tables s = .ok p) (hAbsolute : p.scheme ≠ "" ∧ p.netloc ≠ "")
    (hPort : p.port = .ok port) :
    redactParams tables (.str s) = .ok (.str (originText tables p port)) := by
  rw [redactParams, Json.mapTexts, redactText_url hRead hSplit hAbsolute hPort]
  rfl

/-- Another text among the parameters is cut. -/
theorem redactParams_cut (hRead : ¬ ReadAsUrl s) :
    redactParams tables (.str s) = .ok (.str (cutText s)) := by
  rw [redactParams, Json.mapTexts, redactText_cut hRead]
  rfl

theorem longUrl_cut (c : Char) : ¬ ReadAsUrl (longUrl c) := by
  rintro ⟨hLength, -⟩
  rw [longUrl_toList] at hLength
  simp only [List.length_cons, List.length_replicate] at hLength
  omega

/-- The two long urls are cut to different texts. -/
theorem cutText_longUrl : cutText (longUrl 'a') ≠ cutText (longUrl 'b') := by
  have hCut : ∀ c, (cutText (longUrl c)).toList[12]? = some c := by
    intro c
    have hLong : 256 < (longUrl c).toList.length := by
      rw [longUrl_toList]
      simp only [List.length_cons, List.length_replicate]
      omega
    rw [cutText, if_pos hLong, takeText, String.toList_append, String.toList_ofList, longUrl_toList,
      List.replicate_succ]
    generalize List.replicate 249 c = rest
    rfl
  intro h
  have hSame := hCut 'a'
  rw [h, hCut 'b'] at hSame
  exact absurd (Option.some.inj hSame) (by decide)

/-- The first 256 characters of a long url are logged, its path among them. -/
theorem long_url_shows_path :
    Json.Agree (fun _ => false) (Varied .ascii) (.str (longUrl 'a')) (.str (longUrl 'b')) ∧
      ∃ v w, redactParams .ascii (.str (longUrl 'a')) = .ok v ∧
        redactParams .ascii (.str (longUrl 'b')) = .ok w ∧ v ≠ w := by
  have ha := @redactParams_cut .ascii _ (longUrl_cut 'a')
  have hb := @redactParams_cut .ascii _ (longUrl_cut 'b')
  rw [Json.Agree]
  exact ⟨.inr longUrl_sameOrigin, _, _, ha, hb, fun h => cutText_longUrl (Json.str.inj h)⟩

theorem shortUrls_read :
    urlsplit .ascii "http://host/a" = .ok ⟨"http", "host", "/a", "", ""⟩ ∧
      urlsplit .ascii "http://host/b" = .ok ⟨"http", "host", "/b", "", ""⟩ ∧
        ("http://host/a".toList.length ≤ 256 ∧ containsText "http://host/a" "://" = true) ∧
          "http://host/b".toList.length ≤ 256 ∧ containsText "http://host/b" "://" = true := by
  decide

/-- Two short urls with different paths are logged alike. -/
theorem short_urls_shown_alike :
    ∃ shown, redactParams .ascii (.str "http://host/a") = .ok shown ∧
      redactParams .ascii (.str "http://host/b") = .ok shown := by
  obtain ⟨ha, hb, hReadA, hReadB⟩ := shortUrls_read
  have hAbsolute : "http" ≠ "" ∧ "host" ≠ "" := by decide
  have hVaried : Json.Agree (fun _ => false) (Varied .ascii) (.str "http://host/a")
      (.str "http://host/b") :=
    .inr ⟨_, _, none, ha, hb, hAbsolute, hAbsolute, rfl,
      (host_read _).1.trans (host_read _).1.symm, (host_read _).2, (host_read _).2⟩
  have hShownA := redactParams_url hReadA ha hAbsolute (host_read _).2
  have hShownB := redactParams_url hReadB hb hAbsolute (host_read _).2
  have hAlike := ((logged_params_agree_iff .ascii _ _ hVaried).mpr fun _ => .inr
    (.inl ⟨hReadA, hReadB⟩)).1 _ _ hShownA hShownB
  refine ⟨_, hShownA, ?_⟩
  rw [hAlike]
  exact hShownB

end Logs
end L0vi0x.Docker
