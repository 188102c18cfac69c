import L0vi0x.Core.Redaction
import L0vi0x.Python.JsonText

/-! Texts that redaction leaves alone because no pattern can begin in them. Each pattern
begins with a word, after a word boundary at most; the letters of the words are compared
by their codes modulo 32, which letter case does not change. -/
namespace L0vi0x.Core.Redaction

open L0vi0x.Python

/-- The codes modulo 32 of the first letters of `api`, `access`, `secret`, `password`,
`private`, `-----`, `sk-`, `gsk_`, `nvapi-`, `AIza` and `http`. -/
def heads : List (List Nat) :=
  [[1, 16, 9], [1, 3, 3], [19, 5, 3, 18], [16, 1, 19, 19], [16, 18, 9, 22], [13, 13, 13],
    [19, 11, 13], [7, 19, 11], [14, 22, 1, 16], [1, 9, 26], [8, 20, 20, 16]]

def isHead : List Nat → List Char → Bool
  | [], _ => true
  | _ :: _, [] => false
  | n :: head, c :: cs => Nat.beq n (c.toNat % 32) && isHead head cs

def startsHead (cs : List Char) : Bool := heads.any fun head => isHead head cs

/-- An ASCII text in which none of the words begins. -/
def quiet : List Char → Bool
  | [] => true
  | c :: cs => Nat.blt c.toNat 128 && !startsHead (c :: cs) && quiet cs

/-- A character that JSON writes as it is. -/
def isPlainChar (c : Char) : Bool :=
  Nat.ble 32 c.toNat && Nat.ble c.toNat 126 && !Nat.beq c.toNat 34 && !Nat.beq c.toNat 92

def quietText (s : String) : Bool := s.toList.all isPlainChar && quiet s.toList

mutual
/-- A value whose keys and texts are quiet and are written as they are. -/
def quietJson : Json → Bool
  | .str s => quietText s
  | .arr items => quietItems items
  | .obj fields => quietFields fields
  | j => quiet (Json.emit j)

def quietItems : List Json → Bool
  | [] => true
  | j :: rest => quietJson j && quietItems rest

def quietFields : Fields → Bool
  | [] => true
  | (k, v) :: rest => quietText k && quietJson v && quietFields rest
end

section Heads

variable {alnum : Char → Bool}

/-- Whether a text goes on with characters of these sets. -/
def goesOn : List (Char → Bool) → List Char → Bool
  | [], _ => true
  | _ :: _, [] => false
  | set :: sets, c :: cs => set c && goesOn sets cs

/-- Every match begins with characters of these sets. -/
def Begins (alnum : Char → Bool) (sets : List (Char → Bool)) (r : Regex) : Prop :=
  ∀ next at_, (r.run alnum at_ next).isSome → goesOn sets at_.rest = true

/-- A sequence of sets begins with its sets. -/
theorem begins_ones (sets : List (Char → Bool)) :
    Begins alnum sets (.seqs (sets.map Regex.one)) := by
  have hOne : ∀ (set : Char → Bool) (rest : List (Char → Bool)) (r : Regex),
      (∀ next at_, (r.run alnum at_ next).isSome → goesOn rest at_.rest = true) →
        Begins alnum (set :: rest) (.seq (.one set) r) := by
    intro set rest r hRest next at_ hRun
    obtain ⟨before, cs⟩ := at_
    cases cs with
    | nil => cases hRun
    | cons c cs =>
        simp only [Regex.run] at hRun
        split at hRun
        · rename_i hSet
          rw [goesOn, hSet, Bool.true_and]
          exact hRest next _ hRun
        · cases hRun
  induction sets with
  | nil => exact fun _ _ _ => rfl
  | cons set rest ih =>
      cases rest with
      | nil =>
          intro next at_ hRun
          exact hOne set [] .empty (fun _ _ _ => rfl) next at_ hRun
      | cons second more => exact hOne set (second :: more) _ ih

/-- Characters of these sets have these codes, up to the end of the codes. -/
def Covers : List Nat → List (Char → Bool) → Prop
  | [], _ => True
  | _ :: _, [] => False
  | n :: head, set :: sets =>
      (∀ c : Char, c.toNat < 128 → set c = true → c.toNat % 32 = n) ∧ Covers head sets

/-- A text that goes on with covered sets has their head. -/
theorem isHead_of_goesOn {head : List Nat} {sets : List (Char → Bool)} {cs : List Char}
    (hCovers : Covers head sets) (hAscii : ∀ c ∈ cs, c.toNat < 128)
    (h : goesOn sets cs = true) : isHead head cs = true := by
  induction head generalizing sets cs with
  | nil => rfl
  | cons n head ih =>
      obtain _ | ⟨set, sets⟩ := sets
      · cases hCovers
      · obtain _ | ⟨c, cs⟩ := cs
        · cases h
        · rw [goesOn, Bool.and_eq_true] at h
          rw [List.forall_mem_cons] at hAscii
          rw [isHead, Bool.and_eq_true]
          exact ⟨Nat.beq_eq.mpr (hCovers.1 c hAscii.1 h.1).symm, ih hCovers.2 hAscii.2 h.2⟩

theorem sameLetter_code {x c : Char} (hAscii : c.toNat < 128)
    (h : Regex.sameLetter x c = true) : c.toNat % 32 = x.toNat % 32 := by
  have hLower : c.toLower = x := by
    simp only [Regex.sameLetter, Bool.or_eq_true, Bool.and_eq_true, beq_iff_eq] at h
    rcases h with ((h | ⟨-, h⟩) | ⟨-, h⟩) | ⟨-, h | h⟩
    · exact h
    · omega
    · omega
    · omega
    · omega
  by_cases hUpper : c.val ≥ 'A'.val ∧ c.val ≤ 'Z'.val
  · have hSum : c.toLower.toNat = c.toNat + 32 := by
      have hVal : c.toLower.val = c.val + 32 := congrArg Char.val (dif_pos hUpper)
      have hNat : (c.val + 32).toNat = c.val.toNat + 32 := by
        rw [UInt32.toNat_add, Nat.mod_eq_of_lt]
        · rfl
        · have hBound : c.val.toNat < 128 := hAscii
          have hThirtyTwo : (32 : UInt32).toNat = 32 := rfl
          omega
      exact (congrArg UInt32.toNat hVal).trans hNat
    rw [hLower] at hSum
    omega
  · have hSame : c.toLower = c := dif_neg hUpper
    rw [← hSame, hLower]

/-- The words of a pattern that ignores letter case, and of one that does not. -/
theorem covers_letters {letters : List Char} (h : ∀ x ∈ letters, 97 ≤ x.toNat ∧ x.toNat ≤ 122) :
    Covers (letters.map fun x => x.toNat % 32) (letters.map Regex.sameLetter) := by
  induction letters with
  | nil => trivial
  | cons x letters ih =>
      rw [List.forall_mem_cons] at h
      exact ⟨fun c hAscii hc => sameLetter_code hAscii hc, ih h.2⟩

theorem covers_exact (letters : List Char) :
    Covers (letters.map fun x => x.toNat % 32) (letters.map fun x c => c == x) := by
  induction letters with
  | nil => trivial
  | cons x letters ih =>
      refine ⟨fun c _ hc => ?_, ih⟩
      rw [beq_iff_eq.mp hc]

theorem covers_append {head more : List Nat} {sets : List (Char → Bool)}
    (h : Covers (head ++ more) sets) : Covers head sets := by
  induction head generalizing sets with
  | nil => trivial
  | cons n head ih =>
      obtain _ | ⟨set, sets⟩ := sets
      · cases h
      · exact ⟨h.1, ih h.2⟩

/-- A match of the pattern begins with one of the words. -/
def Headed (alnum : Char → Bool) (r : Regex) : Prop :=
  ∀ next at_, (∀ c ∈ at_.rest, c.toNat < 128) → (r.run alnum at_ next).isSome →
    startsHead at_.rest = true

/-- A pattern that begins with covered sets begins with their word. -/
theorem headed_of_begins {sets : List (Char → Bool)} {head : List Nat} {r : Regex}
    (h : Begins alnum sets r) (hCovers : Covers head sets) (hHead : head ∈ heads) :
    Headed alnum r := by
  intro next at_ hAscii hRun
  rw [startsHead, List.any_eq_true]
  exact ⟨head, hHead, isHead_of_goesOn hCovers hAscii (h next at_ hRun)⟩

/-- A sequence begins as its first part does. -/
theorem headed_seq {first second : Regex} (h : Headed alnum first) :
    Headed alnum (.seq first second) :=
  fun _ at_ hAscii hRun => h _ at_ hAscii hRun

theorem headed_boundary {second : Regex} (h : Headed alnum second) :
    Headed alnum (.seq .boundary second) := by
  intro next at_ hAscii hRun
  simp only [Regex.run] at hRun
  split at hRun
  · exact h next at_ hAscii hRun
  · cases hRun

/-- Alternatives begin with one of the words where each does. -/
theorem headed_alts {rs : List Regex} (h : ∀ r ∈ rs, Headed alnum r) : Headed alnum (.alts rs) := by
  induction rs with
  | nil =>
      intro next at_ _ hRun
      obtain ⟨before, cs⟩ := at_
      cases cs <;> cases hRun
  | cons first rest ih =>
      rw [List.forall_mem_cons] at h
      cases rest with
      | nil => exact h.1
      | cons second more =>
          intro next at_ hAscii hRun
          have hRun : ((first.run alnum at_ next).or
            ((Regex.alts (second :: more)).run alnum at_ next)).isSome = true := hRun
          rw [Option.isSome_or, Bool.or_eq_true] at hRun
          rcases hRun with hRun | hRun
          · exact h.1 next at_ hAscii hRun
          · exact ih h.2 next at_ hAscii hRun

/-- A word that ignores letter case. -/
theorem headed_letters (s : String) (head : List Nat)
    (hLetters : (s.toList.all fun x => 97 ≤ x.toNat && x.toNat ≤ 122) = true)
    (hCodes : (s.toList.map fun x => x.toNat % 32).take head.length = head) (hHead : head ∈ heads) :
    Headed alnum (.literalIgnoreCase s) := by
  have hRange : ∀ x ∈ s.toList, 97 ≤ x.toNat ∧ x.toNat ≤ 122 := fun x hx => by
    simpa using List.all_eq_true.mp hLetters x hx
  have hCovers := covers_letters hRange
  rw [← List.take_append_drop head.length (s.toList.map fun x => x.toNat % 32), hCodes] at hCovers
  have hBegins := @begins_ones alnum (s.toList.map Regex.sameLetter)
  rw [List.map_map] at hBegins
  exact headed_of_begins hBegins (covers_append hCovers) hHead

/-- A word that is taken as it stands. -/
theorem headed_literal (s : String) (head : List Nat)
    (hCodes : (s.toList.map fun x => x.toNat % 32).take head.length = head) (hHead : head ∈ heads) :
    Headed alnum (.literal s) := by
  have hCovers := covers_exact s.toList
  rw [← List.take_append_drop head.length (s.toList.map fun x => x.toNat % 32), hCodes] at hCovers
  have hBegins := @begins_ones alnum (s.toList.map fun x c => c == x)
  rw [List.map_map] at hBegins
  exact headed_of_begins hBegins (covers_append hCovers) hHead

/-- The names of private keys begin with one of the words. -/
theorem headed_privateKeyName : ∀ r ∈ privateKeyName, Headed alnum r := by
  simp only [privateKeyName, List.forall_mem_cons, List.not_mem_nil, false_implies, implies_true,
    and_true]
  refine ⟨headed_seq (headed_letters _ [16, 18, 9, 22] ?_ ?_ ?_),
    headed_letters _ [16, 18, 9, 22] ?_ ?_ ?_⟩ <;> decide

/-- The names of secrets begin with one of the words. -/
theorem headed_secretName : Headed alnum secretName := by
  apply headed_alts
  simp only [List.cons_append, List.nil_append, List.forall_mem_cons]
  refine ⟨headed_seq (headed_letters _ [1, 16, 9] ?_ ?_ ?_),
    headed_seq (headed_letters _ [1, 3, 3] ?_ ?_ ?_), headed_letters _ [19, 5, 3, 18] ?_ ?_ ?_,
    headed_letters _ [16, 1, 19, 19] ?_ ?_ ?_, headed_letters _ [16, 1, 19, 19] ?_ ?_ ?_,
    headed_privateKeyName⟩ <;> decide

/-- Every pattern begins with one of the words. -/
theorem headed_patterns : ∀ r ∈ secretPatterns ++ [privateValue], Headed alnum r := by
  have hToken : ∀ (start : String) (least : Nat) (head : List Nat),
      (start.toList.map fun x => x.toNat % 32).take head.length = head → head ∈ heads →
        Headed alnum (token start least) := fun start _ head hCodes hHead =>
    headed_boundary (headed_seq (headed_literal start head hCodes hHead))
  have hUrl : ∀ hosts versions, Headed alnum (providerUrl hosts versions) := fun _ _ => by
    refine headed_seq (headed_letters _ [8, 20, 20, 16] ?_ ?_ ?_) <;> decide
  simp only [secretPatterns, List.cons_append, List.nil_append, List.forall_mem_cons,
    List.not_mem_nil, false_implies, implies_true, and_true]
  refine ⟨headed_boundary (headed_seq headed_secretName),
    headed_seq (headed_seq (headed_literal _ [13, 13, 13] ?_ ?_)), hToken _ _ [19, 11, 13] ?_ ?_,
    hToken _ _ [19, 11, 13] ?_ ?_, headed_boundary (headed_seq (headed_literal _ [19, 11, 13] ?_ ?_)),
    hToken _ _ [7, 19, 11] ?_ ?_, hToken _ _ [14, 22, 1, 16] ?_ ?_, hToken _ _ [1, 9, 26] ?_ ?_,
    hUrl _ _, hUrl _ _, headed_seq (headed_alts headed_privateKeyName)⟩ <;> decide

end Heads

section Quiet

variable {alnum : Char → Bool}

theorem quiet_ascii {cs : List Char} (h : quiet cs = true) : ∀ c ∈ cs, c.toNat < 128 := by
  induction cs with
  | nil => exact fun _ hMem => absurd hMem List.not_mem_nil
  | cons c cs ih =>
      rw [quiet, Bool.and_eq_true, Bool.and_eq_true] at h
      rw [List.forall_mem_cons]
      exact ⟨Nat.blt_eq.mp h.1.1, ih h.2⟩

/-- A pattern that begins with one of the words leaves a quiet text. -/
theorem sub_quiet {r : Regex} (hHeaded : Headed alnum r) {cs : List Char}
    (h : quiet cs = true) : r.sub alnum marker cs = cs := by
  have hSub : ∀ before, Regex.subFrom alnum r marker 0 before cs = cs := by
    induction cs with
    | nil => exact fun _ => rfl
    | cons c rest ih =>
        intro before
        have hAscii := quiet_ascii h
        rw [quiet, Bool.and_eq_true, Bool.and_eq_true, Bool.not_eq_true'] at h
        have hNone : r.matchLength alnum ⟨before, c :: rest⟩ = none := by
          rw [Regex.matchLength, Option.map_eq_none_iff, ← Option.not_isSome_iff_eq_none]
          intro hRun
          have hHead := hHeaded some ⟨before, c :: rest⟩ hAscii hRun
          rw [h.1.2] at hHead
          cases hHead
        rw [Regex.subFrom, hNone]
        exact congrArg (c :: ·) (ih h.2 (some c))
  exact hSub none

/-- A quiet text is left as it is. -/
theorem redact_quiet {s : String} (h : quiet s.toList = true) : redact alnum s = s :=
  redact_of_each fun pattern hPattern => sub_quiet (headed_patterns pattern hPattern) h

theorem quietItems_iff {items : List Json} :
    quietItems items = true ↔ ∀ j ∈ items, quietJson j = true := by
  induction items with
  | nil => simp [quietItems]
  | cons j rest ih => rw [quietItems, Bool.and_eq_true, ih, List.forall_mem_cons]

theorem quietFields_iff {fields : Fields} :
    quietFields fields = true ↔ ∀ p ∈ fields, quietText p.1 = true ∧ quietJson p.2 = true := by
  induction fields with
  | nil => simp [quietFields]
  | cons p rest ih =>
      obtain ⟨k, v⟩ := p
      rw [quietFields, Bool.and_eq_true, Bool.and_eq_true, ih, List.forall_mem_cons]

/-- A dictionary of quiet pairs is quiet. -/
theorem quietFields_dictOf {pairs : List (String × Json)} (h : quietFields pairs = true) :
    quietFields (dictOf pairs) = true :=
  quietFields_iff.mpr fun p hp => quietFields_iff.mp h p (mem_dictOf hp)

/-- So is a value whose texts are quiet. -/
theorem redactPayload_quiet {j : Json} (h : quietJson j = true) : redactPayload alnum j = j := by
  induction j using Json.induction with
  | str s =>
      rw [quietJson, quietText, Bool.and_eq_true] at h
      rw [redactPayload, redact_quiet h.2]
  | arr items ih =>
      rw [quietJson, quietItems_iff] at h
      rw [redactPayload, redactItems_eq_map,
        List.map_congr_left fun j hj => ih j hj (h j hj), List.map_id']
  | obj fields ih =>
      rw [quietJson, quietFields_iff] at h
      rw [redactPayload, redactFields_eq_self fun p hp => ih p hp (h p hp).2]
  | _ => rfl

end Quiet

section Emitted

/-- A character that stands in none of the words. -/
def Parts (c : Char) : Prop := c.toNat < 128 ∧ ∀ head ∈ heads, c.toNat % 32 ∉ head

instance (c : Char) : Decidable (Parts c) := inferInstanceAs (Decidable (_ ∧ _))

/-- A word that begins before a parting character ends before it. -/
theorem isHead_before {head : List Nat} {c : Char} (hc : c.toNat % 32 ∉ head) {cs rest : List Char}
    (h : isHead head (cs ++ c :: rest) = true) : isHead head cs = true := by
  induction head generalizing cs with
  | nil => rw [isHead]
  | cons n head ih =>
      rw [List.mem_cons, not_or] at hc
      cases cs with
      | nil =>
          rw [List.nil_append, isHead, Bool.and_eq_true, Nat.beq_eq] at h
          exact absurd h.1.symm hc.1
      | cons x cs =>
          rw [List.cons_append, isHead, Bool.and_eq_true] at h
          rw [isHead, Bool.and_eq_true]
          exact ⟨h.1, ih hc.2 h.2⟩

/-- Two quiet texts are quiet together where a parting character stands between them. -/
theorem quiet_append {cs rest : List Char} (h : quiet cs = true)
    (hParts : ∀ c ∈ rest.head?, Parts c) (hRest : quiet rest = true) :
    quiet (cs ++ rest) = true := by
  cases rest with
  | nil => rw [List.append_nil, h]
  | cons c rest =>
      have hc : Parts c := hParts c rfl
      induction cs with
      | nil => exact hRest
      | cons x cs ih =>
          rw [quiet, Bool.and_eq_true, Bool.and_eq_true, Bool.not_eq_true'] at h
          rw [List.cons_append, quiet, Bool.and_eq_true, Bool.and_eq_true, Bool.not_eq_true']
          refine ⟨⟨h.1.1, ?_⟩, ih h.2⟩
          rw [startsHead, List.any_eq_false]
          intro head hHead hIs
          have hBefore : isHead head (x :: cs) = true := isHead_before (hc.2 head hHead) hIs
          exact List.any_eq_false.mp h.1.2 head hHead hBefore

/-- No word begins with a parting character. -/
theorem quiet_parts {c : Char} {cs : List Char} (hc : Parts c) (h : quiet cs = true) :
    quiet (c :: cs) = true := by
  rw [quiet, h, Bool.and_true, Bool.and_eq_true, Nat.blt_eq, Bool.not_eq_true', startsHead,
    List.any_eq_false]
  refine ⟨hc.1, fun head hHead hIs => ?_⟩
  have hNil : isHead head [] = true := @isHead_before head c (hc.2 head hHead) [] cs hIs
  have hNone : ∀ head ∈ heads, isHead head [] = false := by decide
  rw [hNone head hHead] at hNil
  cases hNil

/-- No word begins with a colon. -/
theorem quiet_colon {cs : List Char} (h : quiet cs = true) : quiet (':' :: cs) = true := by
  have hNone : startsHead (':' :: cs) = false := rfl
  rw [quiet, hNone, h]
  rfl

theorem escapeChar_plain {c : Char} (h : isPlainChar c = true) : Json.escapeChar c = [c] := by
  simp only [isPlainChar, Bool.and_eq_true, Nat.ble_eq, Bool.not_eq_true', ← Bool.not_eq_true,
    Nat.beq_eq] at h
  obtain ⟨⟨⟨hLow, hHigh⟩, hQuote⟩, hSlash⟩ := h
  have hNe : ∀ d : Char, c.toNat ≠ d.toNat → c ≠ d := fun d hCode hEq => hCode (hEq ▸ rfl)
  rw [Json.escapeChar, if_neg (hNe '"' hQuote), if_neg (hNe '\\' hSlash),
    if_neg (hNe '\n' (show c.toNat ≠ 10 by omega)), if_neg (hNe '\r' (show c.toNat ≠ 13 by omega)),
    if_neg (hNe '\t' (show c.toNat ≠ 9 by omega)), if_neg (by omega), if_neg (by omega),
    if_pos ⟨hLow, hHigh⟩]

/-- A quiet text is written between quotes, which part it from what follows. -/
theorem quiet_emitText {s : String} (h : quietText s = true) {rest : List Char}
    (hRest : quiet rest = true) : quiet (Json.emitText s ++ rest) = true := by
  rw [quietText, Bool.and_eq_true, List.all_eq_true] at h
  have hPlain : s.toList.flatMap Json.escapeChar = s.toList := by
    rw [List.flatMap_congr fun c hc => escapeChar_plain (h.1 c hc), List.flatMap_singleton']
  have hQuote : Parts '"' := by decide
  rw [Json.emitText, hPlain, List.cons_append, List.append_assoc]
  refine quiet_parts hQuote (quiet_append h.2 ?_ (quiet_parts hQuote hRest))
  intro c hc
  cases hc
  exact hQuote

/-- What the round of a value says of its text: it is quiet in front of what is parted from it. -/
def QuietEmitted (j : Json) : Prop :=
  ∀ rest, (∀ c ∈ rest.head?, Parts c) → quiet rest = true → quiet (Json.emit j ++ rest) = true

theorem moreItems_parts (items : List Json) (rest : List Char) :
    ∀ c ∈ (Json.emitMoreItems items ++ rest).head?, Parts c := by
  intro c hc
  cases items with
  | nil =>
      cases hc
      decide
  | cons j items =>
      cases hc
      decide

theorem moreFields_parts (fields : Fields) (rest : List Char) :
    ∀ c ∈ (Json.emitMoreFields fields ++ rest).head?, Parts c := by
  intro c hc
  cases fields with
  | nil =>
      cases hc
      decide
  | cons p fields =>
      cases hc
      decide

theorem quiet_moreItems {items : List Json} (h : ∀ j ∈ items, QuietEmitted j) {rest : List Char}
    (hRest : quiet rest = true) : quiet (Json.emitMoreItems items ++ rest) = true := by
  induction items with
  | nil => exact quiet_parts (c := ']') (by decide) hRest
  | cons j items ih =>
      rw [List.forall_mem_cons] at h
      rw [Json.emitMoreItems, List.cons_append, List.cons_append, List.append_assoc]
      exact quiet_parts (c := ',') (by decide) (h.1 _ (moreItems_parts _ _) (ih h.2))

theorem quiet_moreFields {fields : Fields}
    (h : ∀ p ∈ fields, quietText p.1 = true ∧ QuietEmitted p.2) {rest : List Char}
    (hRest : quiet rest = true) : quiet (Json.emitMoreFields fields ++ rest) = true := by
  induction fields with
  | nil => exact quiet_parts (c := '\x7d') (by decide) hRest
  | cons p fields ih =>
      obtain ⟨k, v⟩ := p
      rw [List.forall_mem_cons] at h
      simp only [Json.emitMoreFields, List.cons_append, List.append_assoc]
      exact quiet_parts (c := ',') (by decide) (quiet_emitText h.1.1
        (quiet_colon (h.1.2 _ (moreFields_parts _ _) (ih h.2))))

/-- A quiet value has a quiet text, by induction on the value. -/
theorem quiet_emit {j : Json} (h : quietJson j = true) : QuietEmitted j := by
  induction j using Json.induction with
  | str s => exact fun rest _ hRest => quiet_emitText h hRest
  | arr items ih =>
      intro rest hParts hRest
      rw [quietJson, quietItems_iff] at h
      rw [Json.emit, List.cons_append]
      apply quiet_parts (c := '[') (by decide)
      cases items with
      | nil => exact quiet_parts (c := ']') (by decide) hRest
      | cons j items =>
          rw [List.forall_mem_cons] at h ih
          rw [Json.emitItems, List.append_assoc]
          exact ih.1 h.1 _ (moreItems_parts _ _)
            (quiet_moreItems (fun k hk => ih.2 k hk (h.2 k hk)) hRest)
  | obj fields ih =>
      intro rest hParts hRest
      rw [quietJson, quietFields_iff] at h
      rw [Json.emit, List.cons_append]
      apply quiet_parts (c := '\x7b') (by decide)
      cases fields with
      | nil => exact quiet_parts (c := '\x7d') (by decide) hRest
      | cons p fields =>
          obtain ⟨k, v⟩ := p
          rw [List.forall_mem_cons] at h ih
          rw [Json.emitFields, List.append_assoc, List.append_assoc, List.cons_append]
          exact quiet_emitText h.1.1 (quiet_colon (ih.1 h.1.2 _ (moreFields_parts _ _)
            (quiet_moreFields (fun q hq => ⟨(h.2 q hq).1, ih.2 q hq (h.2 q hq).2⟩) hRest)))
  | _ => exact fun rest hParts hRest => quiet_append h hParts hRest

/-- Redaction leaves quiet fields and their text. -/
theorem redact_dumps_quiet {alnum : Char → Bool} {fields : Fields}
    (h : quietFields fields = true) :
    redact alnum (Json.obj fields).dumps = (Json.obj fields).dumps := by
  have hText := quiet_emit (j := .obj fields) h [] (fun c hc => by cases hc) rfl
  rw [List.append_nil] at hText
  apply redact_quiet
  rw [Json.dumps, String.toList_ofList]
  exact hText

end Emitted
end L0vi0x.Core.Redaction
