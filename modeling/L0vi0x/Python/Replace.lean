import L0vi0x.Python.Text

/-! `str.replace`: the occurrences of a text from the left, none of which overlaps
another, give way to a new text. -/
namespace L0vi0x.Python

/-- The replacement on characters; `skip` of them belong to the last occurrence. -/
def replaceChars (old new : List Char) : Nat → List Char → List Char
  | _, [] => []
  | skip + 1, _ :: cs => replaceChars old new skip cs
  | 0, c :: cs =>
      if old.isPrefixOf (c :: cs) then new ++ replaceChars old new (old.length - 1) cs
      else c :: replaceChars old new 0 cs

/-- `s.replace(old, new)`, where `old` is not empty. -/
def replaceAll (s old new : String) : String :=
  String.ofList (replaceChars old.toList new.toList 0 s.toList)

section Replace

variable {old new cs : List Char} {c : Char}

theorem replaceChars_skip (n : Nat) (cs : List Char) :
    replaceChars old new n cs = replaceChars old new 0 (cs.drop n) := by
  induction n generalizing cs with
  | zero => rfl
  | succ n ih =>
      cases cs with
      | nil => rfl
      | cons c cs =>
          rw [replaceChars, ih]
          rfl

/-- A text that begins with an occurrence. -/
theorem replaceChars_occurrence (hOld : old ≠ []) (cs : List Char) :
    replaceChars old new 0 (old ++ cs) = new ++ replaceChars old new 0 cs := by
  obtain ⟨c, rest, rfl⟩ := List.exists_cons_of_ne_nil hOld
  have hPrefix : (c :: rest).isPrefixOf (c :: (rest ++ cs)) = true :=
    List.isPrefixOf_iff_prefix.mpr ⟨cs, rfl⟩
  rw [List.cons_append, replaceChars, if_pos hPrefix, replaceChars_skip, List.length_cons,
    Nat.add_sub_cancel, List.drop_left]

/-- A character at which no occurrence begins. -/
theorem replaceChars_cons (h : ¬old <+: c :: cs) :
    replaceChars old new 0 (c :: cs) = c :: replaceChars old new 0 cs := by
  have hNot : old.isPrefixOf (c :: cs) = false := by
    rw [← Bool.not_eq_true, List.isPrefixOf_iff_prefix]
    exact h
  rw [replaceChars, hNot]
  rfl

/-- A text contains another when that is one of its parts. -/
theorem containsText_iff {s needle : String} :
    containsText s needle = true ↔ needle.toList <:+: s.toList := by
  simp only [containsText, List.any_eq_true, List.mem_tails, List.isPrefixOf_iff_prefix,
    List.infix_iff_prefix_suffix]
  constructor
  · rintro ⟨tail, hTail, hPrefix⟩
    exact ⟨tail, hPrefix, hTail⟩
  · rintro ⟨tail, hPrefix, hTail⟩
    exact ⟨tail, hTail, hPrefix⟩

end Replace
end L0vi0x.Python
