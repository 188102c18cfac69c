import L0vi0x.Python.Text

/-! Regular expressions of `re` on texts: a backtracking match with greedy and
lazy repetition of single characters, word boundaries and `sub`. -/
namespace L0vi0x.Python

inductive Regex
  | empty
  | one (set : Char → Bool)
  /-- At least `least` characters of a set, as many or as few as possible. -/
  | many (set : Char → Bool) (least : Nat) (lazy : Bool)
  | maybe (r : Regex)
  | seq (first second : Regex)
  | alt (left right : Regex)
  | boundary

/-- A place in a text: the character before it and the rest. -/
structure Cursor where
  before : Option Char
  rest : List Char

namespace Regex

/-- `\w` of one character, where `alnum` is `str.isalnum` outside ASCII. -/
def isWord (alnum : Char → Bool) (c : Char) : Bool :=
  if c.toNat < 128 then c.isAlphanum || c == '_' else alnum c

/-- A repetition from some place on, with what follows it. -/
def runMany (set : Char → Bool) (lazy : Bool) (next : Cursor → Option Cursor) :
    Nat → Option Char → List Char → Option Cursor
  | _ + 1, _, [] => none
  | 0, before, [] => next ⟨before, []⟩
  | least + 1, _, c :: rest =>
      if set c then runMany set lazy next least (some c) rest else none
  | 0, before, c :: rest =>
      let more := if set c then runMany set lazy next 0 (some c) rest else none
      if lazy then (next ⟨before, c :: rest⟩).or more
      else more.or (next ⟨before, c :: rest⟩)

def run (alnum : Char → Bool) : Regex → Cursor → (Cursor → Option Cursor) → Option Cursor
  | .empty, at_, next => next at_
  | .one set, at_, next => match at_.rest with
      | c :: rest => if set c then next ⟨some c, rest⟩ else none
      | [] => none
  | .many set least lazy, at_, next => runMany set lazy next least at_.before at_.rest
  | .maybe r, at_, next => (r.run alnum at_ next).or (next at_)
  | .seq first second, at_, next => first.run alnum at_ fun mid => second.run alnum mid next
  | .alt left right, at_, next => (left.run alnum at_ next).or (right.run alnum at_ next)
  | .boundary, at_, next =>
      if at_.before.any (isWord alnum) != at_.rest.head?.any (isWord alnum) then next at_ else none

/-- The number of characters that a match at a place takes. -/
def matchLength (alnum : Char → Bool) (r : Regex) (at_ : Cursor) : Option Nat :=
  (r.run alnum at_ some).map fun stop => at_.rest.length - stop.rest.length

/-- `pattern.sub(marker, text)` from some place on, for a pattern that matches no
empty text; `skip` characters of the last match are still to be dropped. -/
def subFrom (alnum : Char → Bool) (r : Regex) (marker : List Char) :
    Nat → Option Char → List Char → List Char
  | _, _, [] => []
  | skip + 1, _, c :: rest => subFrom alnum r marker skip (some c) rest
  | 0, before, c :: rest => match r.matchLength alnum ⟨before, c :: rest⟩ with
      | some (length + 1) => marker ++ subFrom alnum r marker length (some c) rest
      | _ => c :: subFrom alnum r marker 0 (some c) rest

def sub (alnum : Char → Bool) (r : Regex) (marker : List Char) (cs : List Char) : List Char :=
  subFrom alnum r marker 0 none cs

def seqs : List Regex → Regex
  | [] => .empty
  | [r] => r
  | r :: rest => .seq r (seqs rest)

def alts : List Regex → Regex
  | [] => .one fun _ => false
  | [r] => r
  | r :: rest => .alt r (alts rest)

def literal (s : String) : Regex := seqs (s.toList.map fun c => .one (· == c))

/-- Whether two characters agree under `IGNORECASE`, for a lower-case ASCII `c`:
`K`, `ſ` and the dotted and dotless `i` count as their ASCII letters. -/
def sameLetter (c d : Char) : Bool :=
  d.toLower == c || (c == 'k' && d.toNat == 0x212a) || (c == 's' && d.toNat == 0x17f) ||
    (c == 'i' && (d.toNat == 0x130 || d.toNat == 0x131))

def literalIgnoreCase (s : String) : Regex := seqs (s.toList.map fun c => .one (sameLetter c))

def times (set : Char → Bool) (n : Nat) : Regex := seqs (List.replicate n (.one set))

section Ascii

variable {alnum other : Char → Bool}

/-- A place in an ASCII text. -/
def IsAscii (at_ : Cursor) : Prop :=
  (∀ c, at_.before = some c → c.toNat < 128) ∧ ∀ c ∈ at_.rest, c.toNat < 128

theorem isWord_ascii {c : Char} (h : c.toNat < 128) : isWord alnum c = isWord other c := by
  rw [isWord, isWord, if_pos h, if_pos h]

theorem IsAscii.step {before : Option Char} {c : Char} {rest : List Char}
    (h : IsAscii ⟨before, c :: rest⟩) : IsAscii ⟨some c, rest⟩ := by
  obtain ⟨-, hRest⟩ := h
  rw [List.forall_mem_cons] at hRest
  refine ⟨fun d hd => ?_, hRest.2⟩
  cases hd
  exact hRest.1

/-- A repetition takes the same of an ASCII text whatever counts as a letter. -/
theorem runMany_ascii {set : Char → Bool} {lazy : Bool} {next next' : Cursor → Option Cursor}
    (hNext : ∀ at_, IsAscii at_ → next at_ = next' at_) (least : Nat) (before : Option Char)
    (cs : List Char) (h : IsAscii ⟨before, cs⟩) :
    runMany set lazy next least before cs = runMany set lazy next' least before cs := by
  induction cs generalizing least before with
  | nil =>
      cases least with
      | zero => exact hNext _ h
      | succ least => rfl
  | cons c rest ih =>
      cases least with
      | zero => simp only [runMany, hNext _ h, ih 0 (some c) h.step]
      | succ least => simp only [runMany, ih least (some c) h.step]

/-- On ASCII texts the table of other letters plays no part. -/
theorem run_ascii (r : Regex) {next next' : Cursor → Option Cursor}
    (hNext : ∀ at_, IsAscii at_ → next at_ = next' at_) (at_ : Cursor) (h : IsAscii at_) :
    r.run alnum at_ next = r.run other at_ next' := by
  induction r generalizing at_ next next' with
  | empty => exact hNext at_ h
  | one set =>
      obtain ⟨before, rest⟩ := at_
      cases rest with
      | nil => rfl
      | cons c rest => simp only [run, hNext _ h.step]
  | many set least lazy => exact runMany_ascii hNext least at_.before at_.rest h
  | maybe r ih => simp only [run, ih hNext at_ h, hNext at_ h]
  | seq first second ihFirst ihSecond =>
      exact ihFirst (fun mid hMid => ihSecond hNext mid hMid) at_ h
  | alt left right ihLeft ihRight => simp only [run, ihLeft hNext at_ h, ihRight hNext at_ h]
  | boundary =>
      have hBefore : at_.before.any (isWord alnum) = at_.before.any (isWord other) := by
        cases hc : at_.before with
        | none => rfl
        | some c => exact isWord_ascii (h.1 c hc)
      have hAfter : at_.rest.head?.any (isWord alnum) = at_.rest.head?.any (isWord other) := by
        cases hc : at_.rest with
        | nil => rfl
        | cons c rest => exact isWord_ascii (h.2 c (hc ▸ List.mem_cons_self ..))
      simp only [run, hBefore, hAfter, hNext at_ h]

/-- A substitution does the same to an ASCII text whatever counts as a letter. -/
theorem subFrom_ascii (r : Regex) (marker : List Char) (skip : Nat) (before : Option Char)
    (cs : List Char) (h : IsAscii ⟨before, cs⟩) :
    subFrom alnum r marker skip before cs = subFrom other r marker skip before cs := by
  induction cs generalizing skip before with
  | nil =>
      cases skip with
      | zero => rfl
      | succ skip => rfl
  | cons c rest ih =>
      cases skip with
      | succ skip => exact ih skip (some c) h.step
      | zero =>
          have hLength : r.matchLength alnum ⟨before, c :: rest⟩ =
              r.matchLength other ⟨before, c :: rest⟩ := by
            rw [matchLength, matchLength, run_ascii r (fun _ _ => rfl) _ h]
          simp only [subFrom, hLength, ih _ (some c) h.step]

theorem mem_subFrom {r : Regex} {marker : List Char} {d : Char} (skip : Nat)
    (before : Option Char) (cs : List Char) (h : d ∈ subFrom alnum r marker skip before cs) :
    d ∈ marker ∨ d ∈ cs := by
  induction cs generalizing skip before with
  | nil =>
      cases skip <;> cases h
  | cons c rest ih =>
      cases skip with
      | succ skip => exact (ih skip (some c) h).imp_right (List.mem_cons_of_mem _)
      | zero =>
          rw [subFrom] at h
          split at h
          · rcases List.mem_append.mp h with h | h
            · exact .inl h
            · exact (ih _ _ h).imp_right (List.mem_cons_of_mem _)
          · rcases List.mem_cons.mp h with rfl | h
            · exact .inr (List.mem_cons_self ..)
            · exact (ih _ _ h).imp_right (List.mem_cons_of_mem _)

/-- A pass over an ASCII text, with an ASCII marker, gives an ASCII text. -/
theorem sub_ascii {r : Regex} {marker cs : List Char} (hMarker : ∀ c ∈ marker, c.toNat < 128)
    (h : ∀ c ∈ cs, c.toNat < 128) :
    r.sub alnum marker cs = r.sub other marker cs ∧
      ∀ c ∈ r.sub other marker cs, c.toNat < 128 := by
  refine ⟨subFrom_ascii r marker 0 none cs ⟨?_, h⟩, fun c hc => ?_⟩
  · rintro c hc
    cases hc
  · rcases mem_subFrom 0 none cs hc with hc | hc
    · exact hMarker c hc
    · exact h c hc

end Ascii

section Misses

variable {alnum set : Char → Bool}

/-- Every match takes a character outside a set. -/
def Misses (set : Char → Bool) : Regex → Prop
  | .one taken => ∀ c, set c = true → taken c = false
  | .many taken least _ => 0 < least ∧ ∀ c, set c = true → taken c = false
  | .seq first second => first.Misses set ∨ second.Misses set
  | .alt left right => left.Misses set ∧ right.Misses set
  | .empty | .maybe _ | .boundary => False

/-- A repetition within a set does not lead to what cannot follow there. -/
theorem runMany_none {taken : Char → Bool} {lazy : Bool} {next : Cursor → Option Cursor}
    (hNext : ∀ at_ : Cursor, (∀ c ∈ at_.rest, set c = true) → next at_ = none) (least : Nat)
    (before : Option Char) (cs : List Char) (h : ∀ c ∈ cs, set c = true) :
    runMany taken lazy next least before cs = none := by
  induction cs generalizing least before with
  | nil =>
      cases least with
      | zero => exact hNext _ h
      | succ least => rfl
  | cons c rest ih =>
      have hRest := fun d hd => h d (List.mem_cons_of_mem c hd)
      cases least with
      | zero => simp [runMany, hNext ⟨before, c :: rest⟩ h, ih 0 (some c) hRest]
      | succ least => simp [runMany, ih least (some c) hRest]

/-- Where nothing that follows matches, nothing matches. -/
theorem run_none (r : Regex) {next : Cursor → Option Cursor}
    (hNext : ∀ at_ : Cursor, (∀ c ∈ at_.rest, set c = true) → next at_ = none) (at_ : Cursor)
    (h : ∀ c ∈ at_.rest, set c = true) : r.run alnum at_ next = none := by
  induction r generalizing at_ next with
  | empty => exact hNext at_ h
  | one taken =>
      obtain ⟨before, rest⟩ := at_
      cases rest with
      | nil => rfl
      | cons c rest =>
          simp [run, hNext ⟨some c, rest⟩ fun d hd => h d (List.mem_cons_of_mem c hd)]
  | many taken least lazy => exact runMany_none hNext least at_.before at_.rest h
  | maybe r ih => rw [run, ih hNext at_ h, hNext at_ h, Option.none_or]
  | seq first second ihFirst ihSecond =>
      exact ihFirst (fun mid hMid => ihSecond hNext mid hMid) at_ h
  | alt left right ihLeft ihRight =>
      rw [run, ihLeft hNext at_ h, ihRight hNext at_ h, Option.none_or]
  | boundary => simp [run, hNext at_ h]

/-- An expression that takes a character outside the set matches no text over it. -/
theorem run_misses {r : Regex} (hMisses : r.Misses set) (next : Cursor → Option Cursor)
    (at_ : Cursor) (h : ∀ c ∈ at_.rest, set c = true) : r.run alnum at_ next = none := by
  induction r generalizing at_ next with
  | one taken =>
      obtain ⟨before, rest⟩ := at_
      cases rest with
      | nil => rfl
      | cons c rest => simp [run, hMisses c (h c (List.mem_cons_self ..))]
  | many taken least lazy =>
      obtain ⟨hLeast, hTaken⟩ := hMisses
      obtain ⟨before, rest⟩ := at_
      obtain ⟨n, rfl⟩ : ∃ n, least = n + 1 := ⟨least - 1, by omega⟩
      cases rest with
      | nil => rfl
      | cons c rest => simp [run, runMany, hTaken c (h c (List.mem_cons_self ..))]
  | seq first second ihFirst ihSecond =>
      rcases hMisses with hFirst | hSecond
      · exact ihFirst hFirst _ at_ h
      · exact run_none first (fun mid hMid => ihSecond hSecond next mid hMid) at_ h
  | alt left right ihLeft ihRight =>
      rw [run, ihLeft hMisses.1 next at_ h, ihRight hMisses.2 next at_ h, Option.none_or]
  | _ => cases hMisses

/-- It leaves such a text as it is. -/
theorem sub_misses {r : Regex} (hMisses : r.Misses set) (marker : List Char) {cs : List Char}
    (h : ∀ c ∈ cs, set c = true) : r.sub alnum marker cs = cs := by
  have hFrom : ∀ before, subFrom alnum r marker 0 before cs = cs := by
    induction cs with
    | nil => exact fun _ => rfl
    | cons c rest ih =>
        intro before
        have hNone : r.matchLength alnum ⟨before, c :: rest⟩ = none := by
          rw [matchLength, run_misses hMisses some _ h, Option.map_none]
        rw [subFrom, hNone]
        exact congrArg (c :: ·) (ih (fun d hd => h d (List.mem_cons_of_mem c hd)) (some c))
  exact hFrom none

/-- A sequence misses what one of its parts misses. -/
theorem misses_seqs {rs : List Regex} {r : Regex} (hMem : r ∈ rs) (hMisses : r.Misses set) :
    (seqs rs).Misses set := by
  induction rs with
  | nil => cases hMem
  | cons first rest ih =>
      cases rest with
      | nil =>
          rw [List.mem_singleton] at hMem
          exact hMem ▸ hMisses
      | cons second more =>
          rcases List.mem_cons.mp hMem with rfl | hMem
          · exact .inl hMisses
          · exact .inr (ih hMem)

theorem misses_alts {rs : List Regex} (h : ∀ r ∈ rs, r.Misses set) : (alts rs).Misses set := by
  induction rs with
  | nil => exact fun _ _ => rfl
  | cons first rest ih =>
      rw [List.forall_mem_cons] at h
      cases rest with
      | nil => exact h.1
      | cons second more => exact ⟨h.1, ih h.2⟩

/-- A literal with a character outside a set misses the set. -/
theorem misses_literal {s : String} {x : Char} (hMem : x ∈ s.toList) (hx : set x = false) :
    (literal s).Misses set := by
  refine misses_seqs (List.mem_map_of_mem hMem) fun c hc => ?_
  rw [beq_eq_false_iff_ne]
  rintro rfl
  rw [hx] at hc
  cases hc

/-- So does a literal in any case, where all cases of the character lie outside. -/
theorem misses_literalIgnoreCase {s : String} {x : Char} (hMem : x ∈ s.toList)
    (hx : ∀ c, set c = true → sameLetter x c = false) : (literalIgnoreCase s).Misses set :=
  misses_seqs (List.mem_map_of_mem hMem) hx

end Misses
end Regex
end L0vi0x.Python
