import L0vi0x.Python.Regex
import L0vi0x.Python.Json

/-! Redaction of secrets in what is persisted. The table of the characters that
count as letters or digits outside ASCII is a parameter. -/
namespace L0vi0x.Core.Redaction

open L0vi0x.Python

def isKeyChar (c : Char) : Bool := c.isAlphanum || c == '_' || c == '-'

/-- `[A-Za-z0-9_-]` under `IGNORECASE`. -/
def isKeyCharAnyCase (c : Char) : Bool :=
  isKeyChar c || c.toNat == 0x212a || c.toNat == 0x17f || c.toNat == 0x130 || c.toNat == 0x131

/-- `[0-9a-f]` under `IGNORECASE`. -/
def isHexChar (c : Char) : Bool := (hexValue? c).isSome

def isHeaderChar (c : Char) : Bool := c.isUpper || c.isDigit || c == ' '

def isQuote (c : Char) : Bool := c == '\'' || c == '"'

def joiner : Regex := .maybe (.one fun c => c == '_' || c == '-')

def spaces : Regex := .many isSpace 0 false

def privateKeyName : List Regex :=
  [.seqs [.literalIgnoreCase "private", joiner, .literalIgnoreCase "key"],
    .literalIgnoreCase "privkey"]

/-- The names of the first pattern. -/
def secretName : Regex := .alts <|
  [.seqs [.literalIgnoreCase "api", joiner, .literalIgnoreCase "key"],
    .seqs [.literalIgnoreCase "access", joiner, .literalIgnoreCase "key"],
    .literalIgnoreCase "secret", .literalIgnoreCase "password",
    .literalIgnoreCase "passwd"] ++ privateKeyName

/-- `\s*[:=]\s*['"]?`. -/
def assigned : Regex :=
  .seqs [spaces, .one fun c => c == ':' || c == '=', spaces, .maybe (.one isQuote)]

/-- A token with a fixed start, between word boundaries. -/
def token (start : String) (least : Nat) : Regex :=
  .seqs [.boundary, .literal start, .many isKeyChar least false, .boundary]

/-- `-----BEGIN ...-----` and `-----END ...-----`. -/
def keyFence (word : String) : Regex :=
  .seqs [.literal ("-----" ++ word ++ " "), .many isHeaderChar 0 false,
    .literal "PRIVATE KEY-----"]

/-- The URL of a provider with the key in its path. -/
def providerUrl (hosts : List String) (versions : List String) : Regex :=
  .seqs [.literalIgnoreCase "http", .maybe (.literalIgnoreCase "s"), .literal "://",
    .many (fun c => !isSpace c && c != '/') 1 false, .literal ".",
    .alts (hosts.map Regex.literalIgnoreCase), .literal "/",
    .alts (versions.map Regex.literalIgnoreCase), .literal "/", .many isKeyCharAnyCase 8 false]

def secretPatterns : List Regex :=
  [.seqs [.boundary, secretName, assigned,
      .many (fun c => !isSpace c && c != ',' && !isQuote c && c != '\x7d') 1 false],
    .seqs [keyFence "BEGIN", .many (fun _ => true) 0 true, keyFence "END"],
    token "sk-ant-" 16,
    token "sk-proj-" 16,
    .seqs [.boundary, .literal "sk-", .one Char.isAlphanum, .many isKeyChar 7 false, .boundary],
    token "gsk_" 20,
    token "nvapi-" 16,
    token "AIza" 20,
    providerUrl ["alchemyapi.io", "alchemy.com"] ["v2", "v3"],
    providerUrl ["infura.io"] ["v3", "v2"]]

def privateValue : Regex :=
  .seqs [.alts privateKeyName, assigned, .maybe (.literalIgnoreCase "0x"), .times isHexChar 64,
    .boundary]

def marker : List Char := "[REDACTED]".toList

/-- The pass over the patterns, on characters. -/
def redactChars (alnum : Char → Bool) (cs : List Char) : List Char :=
  (secretPatterns ++ [privateValue]).foldl (fun cs pattern => pattern.sub alnum marker cs) cs

def redact (alnum : Char → Bool) (s : String) : String :=
  String.ofList (redactChars alnum s.toList)

mutual
/-- `redact_payload(value)`; the keys of objects stay as they are. -/
def redactPayload (alnum : Char → Bool) : Json → Json
  | .str s => .str (redact alnum s)
  | .arr items => .arr (redactItems alnum items)
  | .obj fields => .obj (redactFields alnum fields)
  | .null => .null
  | .bool b => .bool b
  | .int i => .int i
  | .float x => .float x

def redactItems (alnum : Char → Bool) : List Json → List Json
  | [] => []
  | j :: rest => redactPayload alnum j :: redactItems alnum rest

def redactFields (alnum : Char → Bool) : Fields → Fields
  | [] => []
  | (k, v) :: rest => (k, redactPayload alnum v) :: redactFields alnum rest
end

section Facts

variable {alnum : Char → Bool}

theorem marker_ascii : ∀ c ∈ marker, c.toNat < 128 := by
  have h : marker.all (fun c => c.toNat < 128) = true := by decide
  simpa using h

/-- On ASCII texts the redaction does not depend on what else counts as a letter. -/
theorem redactChars_ascii (other : Char → Bool) {cs : List Char} (h : ∀ c ∈ cs, c.toNat < 128) :
    redactChars alnum cs = redactChars other cs := by
  unfold redactChars
  generalize secretPatterns ++ [privateValue] = patterns
  induction patterns generalizing cs with
  | nil => rfl
  | cons pattern rest ih =>
      obtain ⟨hSame, hAscii⟩ := @Regex.sub_ascii alnum other pattern _ _ marker_ascii h
      rw [List.foldl_cons, List.foldl_cons, hSame]
      exact ih hAscii

/-- Redaction brings in no characters but those of its marker. -/
theorem mem_redactChars {cs : List Char} {d : Char} (h : d ∈ redactChars alnum cs) :
    d ∈ marker ∨ d ∈ cs := by
  unfold redactChars at h
  generalize secretPatterns ++ [privateValue] = patterns at h
  induction patterns generalizing cs with
  | nil => exact .inr h
  | cons pattern rest ih =>
      rcases ih h with h | h
      · exact .inl h
      · exact Regex.mem_subFrom 0 none cs h

/-- The names that the store writes into events. -/
def plainNames : List String :=
  ["OPEN", "INVESTIGATING", "CONFIRMED", "FINDING", "CLOSED", "CLOSED_DUPLICATE", "PARKED",
    "MERGED", "hyp_created", "hyp_updated", "hyp_transition", "hyp_ladder_award",
    "reopen_threshold_exceeded", "insert", "update", "not_applicable", "mechanism",
    "reachability", "execution", "economics", "production", "adjudication"]

theorem plainNames_ascii : ∀ s ∈ plainNames, ∀ c ∈ s.toList, c.toNat < 128 := by
  have h : plainNames.all (fun s => s.toList.all fun c => c.toNat < 128) = true := by
    decide
  intro s hs c hc
  simpa using List.all_eq_true.mp (List.all_eq_true.mp h s hs) c hc

/-- The names that the store writes hold nothing to redact. -/
theorem plainNames_kept :
    ∀ s ∈ plainNames, redactChars (fun _ => false) s.toList = s.toList := by
  decide +kernel

/-- No pattern touches them. -/
theorem redact_plain {s : String} (h : s ∈ plainNames) : redact alnum s = s := by
  rw [redact, redactChars_ascii (fun _ => false) (plainNames_ascii s h), plainNames_kept s h,
    String.ofList_toList]

theorem getField?_redactFields (key : String) (fields : Fields) :
    getField? key (redactFields alnum fields) =
      (getField? key fields).map (redactPayload alnum) := by
  induction fields with
  | nil => rfl
  | cons p rest ih =>
      obtain ⟨k, v⟩ := p
      by_cases hKey : k = key
      · simp [redactFields, getField?, hKey]
      · simp [redactFields, getField?, hKey, ih]

theorem keys_redactFields (fields : Fields) :
    (redactFields alnum fields).map Prod.fst = fields.map Prod.fst := by
  induction fields with
  | nil => rfl
  | cons p rest ih =>
      obtain ⟨k, v⟩ := p
      simp [redactFields, ih]

theorem redactItems_eq_map (items : List Json) :
    redactItems alnum items = items.map (redactPayload alnum) := by
  induction items with
  | nil => rfl
  | cons j rest ih => simp [redactItems, ih]

/-- Redaction keeps the keys of a value, and so its normal form. -/
theorem redactPayload_normal {j : Json} (h : j.Normal) : (redactPayload alnum j).Normal := by
  induction j using Json.induction with
  | arr items ih =>
      rw [redactPayload, redactItems_eq_map]
      refine Json.normalItems_iff.mpr fun j hj => ?_
      obtain ⟨item, hItem, rfl⟩ := List.mem_map.mp hj
      exact ih item hItem (Json.normalItems_iff.mp h item hItem)
  | obj fields ih =>
      obtain ⟨hSorted, hValues⟩ := h
      refine ⟨by rw [keys_redactFields]; exact hSorted, ?_⟩
      rw [Json.normalFields_iff] at hValues ⊢
      clear hSorted
      induction fields with
      | nil => simp [redactFields]
      | cons p rest ihRest =>
          obtain ⟨k, v⟩ := p
          rw [List.forall_mem_cons] at ih hValues
          rw [redactFields, List.forall_mem_cons]
          exact ⟨ih.1 hValues.1, ihRest ih.2 hValues.2⟩
  | _ => trivial

theorem redactFields_normal {fields : Fields} (h : (Json.obj fields).Normal) :
    (Json.obj (redactFields alnum fields)).Normal := by
  have hRedacted := @redactPayload_normal alnum _ h
  rwa [redactPayload] at hRedacted

/-- Redaction leaves fields whose values it leaves. -/
theorem redactFields_eq_self {fields : Fields}
    (h : ∀ q ∈ fields, redactPayload alnum q.2 = q.2) : redactFields alnum fields = fields := by
  induction fields with
  | nil => rfl
  | cons q rest ih =>
      obtain ⟨k, v⟩ := q
      rw [List.forall_mem_cons] at h
      rw [redactFields, h.1, ih h.2]

/-- A text that every pattern leaves is left. -/
theorem redact_of_each {s : String} (h : ∀ pattern ∈ secretPatterns ++ [privateValue],
    pattern.sub alnum marker s.toList = s.toList) : redact alnum s = s := by
  have hFold : ∀ patterns : List Regex,
      (∀ pattern ∈ patterns, pattern.sub alnum marker s.toList = s.toList) →
      patterns.foldl (fun cs pattern => pattern.sub alnum marker cs) s.toList = s.toList := by
    intro patterns hEach
    induction patterns with
    | nil => rfl
    | cons pattern rest ih =>
        rw [List.forall_mem_cons] at hEach
        rw [List.foldl_cons, hEach.1]
        exact ih hEach.2
  rw [redact, redactChars, hFold _ h, String.ofList_toList]

end Facts

section Numbers

/-- The characters of an integer are no letters, whatever the case. -/
theorem isIntChar_toNat {c : Char} (h : isIntChar c = true) :
    c.toNat < 65 ∨ c.toNat = 95 ∨ 123 ≤ c.toNat ∧ c.toNat ≠ 0x212a ∧ c.toNat ≠ 0x17f ∧
      c.toNat ≠ 0x130 ∧ c.toNat ≠ 0x131 := by
  simp only [isIntChar, isSpace, Bool.or_eq_true, Bool.and_eq_true, decide_eq_true_eq, beq_iff_eq,
    Char.isDigit, ge_iff_le, UInt32.le_iff_toNat_le] at h
  rcases h with (((h | h) | rfl) | rfl) | rfl
  · omega
  · change 48 ≤ c.toNat ∧ c.toNat ≤ 57 at h
    omega
  · decide
  · decide
  · decide

/-- No letter of a pattern agrees with a character of an integer. -/
theorem sameLetter_intChar {x : Char} (hx : 97 ≤ x.toNat ∧ x.toNat ≤ 122) :
    ∀ c, isIntChar c = true → Regex.sameLetter x c = false := by
  intro c hc
  have hNat := isIntChar_toNat hc
  have hLower : c.toLower = c := by
    apply dif_neg
    intro h
    have hLow : 65 ≤ c.toNat := h.1
    have hHigh : c.toNat ≤ 90 := h.2
    omega
  have hNe : c ≠ x := by
    rintro rfl
    omega
  simp only [Regex.sameLetter, hLower, beq_eq_false_iff_ne.mpr hNe, Bool.false_or,
    Bool.or_eq_false_iff, Bool.and_eq_false_imp, beq_iff_eq, beq_eq_false_iff_ne]
  omega

/-- A word with a letter in it is not met in an integer. -/
theorem misses_word {s : String} {x : Char} (hMem : x ∈ s.toList)
    (hx : 97 ≤ x.toNat ∧ x.toNat ≤ 122) : (Regex.literalIgnoreCase s).Misses isIntChar :=
  Regex.misses_literalIgnoreCase hMem (sameLetter_intChar hx)

/-- The name of a private key is not met in an integer. -/
theorem misses_name : ∀ r ∈ privateKeyName, r.Misses isIntChar := by
  simp only [privateKeyName, List.forall_mem_cons, List.not_mem_nil, false_implies, implies_true,
    and_true]
  exact ⟨Regex.misses_seqs (List.mem_cons_self ..) (misses_word (x := 'p') (by decide) (by decide)),
    misses_word (x := 'p') (by decide) (by decide)⟩

/-- The name of a secret is not met in an integer. -/
theorem misses_secretName : secretName.Misses isIntChar := by
  refine Regex.misses_alts ?_
  simp only [List.cons_append, List.nil_append, List.forall_mem_cons]
  exact ⟨Regex.misses_seqs (List.mem_cons_self ..) (misses_word (x := 'a') (by decide) (by decide)),
    Regex.misses_seqs (List.mem_cons_self ..) (misses_word (x := 'a') (by decide) (by decide)),
    misses_word (x := 's') (by decide) (by decide), misses_word (x := 'p') (by decide) (by decide),
    misses_word (x := 'p') (by decide) (by decide), misses_name⟩

/-- A token whose start has a letter is not met in an integer. -/
theorem misses_token {start : String} {least : Nat} {x : Char} (hMem : x ∈ start.toList)
    (hx : isIntChar x = false) : (token start least).Misses isIntChar :=
  Regex.misses_seqs (List.mem_cons_of_mem _ (List.mem_cons_self ..))
    (Regex.misses_literal hMem hx)

/-- The url of a provider is not met in an integer. -/
theorem misses_url (hosts versions : List String) :
    (providerUrl hosts versions).Misses isIntChar :=
  Regex.misses_seqs (List.mem_cons_self ..) (misses_word (x := 'h') (by decide) (by decide))

/-- Every pattern asks for a letter. -/
theorem misses_patterns : ∀ r ∈ secretPatterns ++ [privateValue], r.Misses isIntChar := by
  simp only [secretPatterns, List.cons_append, List.nil_append, List.forall_mem_cons,
    List.not_mem_nil, false_implies, implies_true, and_true]
  refine ⟨Regex.misses_seqs (by simp) misses_secretName, ?_, misses_token (x := 's') (by decide)
    (by decide), misses_token (x := 's') (by decide) (by decide), ?_, misses_token (x := 'g')
    (by decide) (by decide), misses_token (x := 'n') (by decide) (by decide), misses_token (x := 'A')
    (by decide) (by decide), misses_url _ _, misses_url _ _, ?_⟩
  · refine Regex.misses_seqs (List.mem_cons_self ..)
      (Regex.misses_seqs (List.mem_cons_self ..) (Regex.misses_literal (x := 'B') ?_ (by decide)))
    decide
  · exact Regex.misses_seqs (List.mem_cons_of_mem _ (List.mem_cons_self ..))
      (Regex.misses_literal (x := 's') (by decide) (by decide))
  · exact Regex.misses_seqs (List.mem_cons_self ..) (Regex.misses_alts misses_name)

/-- A text that reads as an integer holds no secret. -/
theorem redact_number {alnum : Char → Bool} {s : String} {i : Int}
    (h : intOfText? s = some i) : redact alnum s = s := by
  have hChars := intOfText?_chars h
  exact redact_of_each fun pattern hPattern =>
    Regex.sub_misses (misses_patterns pattern hPattern) marker hChars

end Numbers
end L0vi0x.Core.Redaction
