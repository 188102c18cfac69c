import Mathlib.Data.List.Nodup
import L0vi0x.Python.Host
import L0vi0x.Python.Replace

/-! The rendering of witness templates. The code replaces one key after the other; what it
should write is the template with its placeholders filled in at once. -/
namespace L0vi0x.Chain

open L0vi0x.Python

section Source

def placeholder (inner : List Char) : List Char := '\x7b' :: '\x7b' :: (inner ++ ['\x7d', '\x7d'])

/-- The loop of `render_template` over the replacements. -/
def replacePlaceholders (template : String) (replacements : List (String × String)) : String :=
  replacements.foldl (fun rendered p =>
    replaceAll (replaceAll rendered ("\x7b\x7b " ++ p.1 ++ " \x7d\x7d") p.2)
      ("\x7b\x7b" ++ p.1 ++ "\x7d\x7d") p.2) template

/-- `render_template(...)`: the text that it writes and the digest that it returns. -/
def renderTemplate (host : Host) (template : String) (replacements : List (String × String)) :
    Py (String × String) :=
  let rendered := replacePlaceholders template replacements
  if containsText rendered "\x7b\x7b" || containsText rendered "\x7d\x7d" then
    raise .valueError "unresolved witness template placeholders"
  else pure (rendered, host.sha256Text rendered)

end Source

section Placeholders

/-- What stands between the braces of a placeholder, and the value of its key. -/
abbrev Filling := List Char × List Char

def spellings (replacements : List (String × String)) : List Filling :=
  replacements.flatMap fun p =>
    [(' ' :: p.1.toList ++ [' '], p.2.toList), (p.1.toList, p.2.toList)]

inductive Piece
  | text (c : Char)
  | hole (filling : Filling)

/-- The parts of a template from the left; `skip` of its characters belong to the last
placeholder. -/
def pieces (fillings : List Filling) : Nat → List Char → List Piece
  | _, [] => []
  | skip + 1, _ :: cs => pieces fillings skip cs
  | 0, c :: cs =>
      match fillings.find? fun f => (placeholder f.1).isPrefixOf (c :: cs) with
      | some f => .hole f :: pieces fillings ((placeholder f.1).length - 1) cs
      | none => .text c :: pieces fillings 0 cs

/-- A part of which these placeholders are filled in. -/
def Piece.written (filled : List Char → Bool) : Piece → List Char
  | .text c => [c]
  | .hole f => if filled f.1 then f.2 else placeholder f.1

def written (filled : List Char → Bool) (parts : List Piece) : List Char :=
  parts.flatMap (Piece.written filled)

/-- The template with every placeholder of a key filled in at once. -/
def substituted (template : String) (replacements : List (String × String)) : String :=
  String.ofList (written (fun _ => true) (pieces (spellings replacements) 0 template.toList))

def Clean (s : String) : Prop :=
  ¬['\x7b', '\x7b'] <:+: s.toList ∧ ¬['\x7d', '\x7d'] <:+: s.toList

/-- A mapping of names: no key holds a brace, and no two keys have a spelling in common. -/
structure Replacements where
  entries : List (String × String)
  unbraced : ∀ p ∈ entries, ∀ c ∈ p.1.toList, c ≠ '\x7b' ∧ c ≠ '\x7d'
  apart : ((spellings entries).map Prod.fst).Nodup

/-- In whatever order the mapping lists its keys, the text that is written is the template
with its placeholders filled in. -/
def RendersAtOnce (host : Host) (template : String) (replacements : Replacements) : Prop :=
  ∀ order : List (String × String), order.Perm replacements.entries →
    (renderTemplate host template order).map Prod.fst =
      .ok (substituted template replacements.entries)

end Placeholders

section Written

variable {filled : List Char → Bool} {parts : List Piece} {inner other value cs : List Char}

@[simp] theorem written_nil : written filled [] = [] := rfl

@[simp] theorem written_text (c : Char) : written filled (.text c :: parts) =
    c :: written filled parts := rfl

theorem written_hole (f : Filling) : written filled (.hole f :: parts) =
    (if filled f.1 then f.2 else placeholder f.1) ++ written filled parts := rfl

/-- A value that was filled in reads as text from then on. -/
theorem written_texts (value : List Char) : written filled (value.map Piece.text ++ parts) =
    value ++ written filled parts := by
  induction value with
  | nil => rfl
  | cons c value ih => rw [List.map_cons, List.cons_append, written_text, ih, List.cons_append]

def Unbraced (inner : List Char) : Prop := ∀ c ∈ inner, c ≠ '\x7b' ∧ c ≠ '\x7d'

theorem placeholder_ne_nil (inner : List Char) : placeholder inner ≠ [] := List.cons_ne_nil _ _

/-- Two texts that end at the same character are equal where one is at the head of the other. -/
theorem prefix_before {x : Char} {a b more rest : List Char} (ha : ∀ c ∈ a, c ≠ x)
    (hb : ∀ c ∈ b, c ≠ x) (h : a ++ x :: more <+: b ++ x :: rest) : a = b := by
  obtain ⟨tail, hTail⟩ := h
  rw [List.append_assoc, List.cons_append] at hTail
  have hTake : ∀ {l rest : List Char}, (∀ c ∈ l, c ≠ x) →
      (l ++ x :: rest).takeWhile (· ≠ x) = l := by
    intro l rest hl
    rw [List.takeWhile_append_of_pos (by simpa using hl), List.takeWhile_cons_of_neg (by simp),
      List.append_nil]
  rw [← @hTake a (more ++ tail) ha, hTail, hTake hb]

/-- A placeholder determines what stands between its braces. -/
theorem placeholder_of_begun (hInner : Unbraced inner) (hOther : Unbraced other)
    (h : placeholder inner <+: placeholder other ++ cs) : inner = other := by
  rw [placeholder, placeholder, List.cons_append, List.cons_append, List.cons_prefix_cons,
    List.cons_prefix_cons, List.append_assoc] at h
  exact prefix_before (fun c hc => (hInner c hc).2) (fun c hc => (hOther c hc).2) h.2.2

/-- A brace before the rest of the parts begins a placeholder only if the rest, filled in,
begins with a brace as well. -/
theorem head_of_prefix {rest : List Char} {d : Char} (hd : d ≠ '\x7b')
    (h : '\x7b' :: d :: rest <+: written filled parts) :
    ∃ tail, written (fun _ => true) parts = '\x7b' :: tail := by
  induction parts with
  | nil => simp at h
  | cons part parts ih =>
      cases part with
      | text c =>
          rw [written_text, List.cons_prefix_cons] at h
          exact ⟨written (fun _ => true) parts, by rw [written_text, ← h.1]⟩
      | hole f =>
          rw [written_hole] at h ⊢
          split at h
          · cases hValue : f.2 with
            | nil =>
                rw [hValue] at h
                exact ih h
            | cons c value =>
                rw [hValue, List.cons_append, List.cons_prefix_cons] at h
                exact ⟨value ++ written (fun _ => true) parts, by rw [← h.1]; rfl⟩
          · rw [placeholder, List.cons_append, List.cons_append, List.cons_prefix_cons,
              List.cons_prefix_cons] at h
            exact absurd h.2.1 hd

/-- Where the filled parts have no two opening braces side by side, none of their texts
begins a placeholder that was not there. -/
theorem no_placeholder_at (hInner : Unbraced inner) {c : Char}
    (hClean : ¬['\x7b', '\x7b'] <:+: c :: written (fun _ => true) parts) :
    ¬placeholder inner <+: c :: written filled parts := by
  intro h
  rw [placeholder, List.cons_prefix_cons] at h
  obtain ⟨rfl, h⟩ := h
  have hHead : ∃ tail, written (fun _ => true) parts = '\x7b' :: tail := by
    cases inner with
    | nil => exact head_of_prefix (by decide) h
    | cons d inner => exact head_of_prefix (hInner d List.mem_cons_self).1 h
  obtain ⟨tail, hTail⟩ := hHead
  rw [hTail] at hClean
  exact hClean (List.IsPrefix.isInfix ⟨tail, rfl⟩)

/-- A placeholder of another key is passed over. -/
theorem replace_other (hInner : Unbraced inner) (hOther : Unbraced other) (hNe : inner ≠ other) :
    replaceChars (placeholder inner) value 0 (placeholder other ++ cs) =
      placeholder other ++ replaceChars (placeholder inner) value 0 cs := by
  have hText : ∀ (l rest : List Char), (∀ c ∈ l, c ≠ '\x7b') →
      replaceChars (placeholder inner) value 0 (l ++ rest) =
        l ++ replaceChars (placeholder inner) value 0 rest := by
    intro l rest hl
    induction l with
    | nil => rfl
    | cons c l ih =>
        rw [List.forall_mem_cons] at hl
        rw [List.cons_append, replaceChars_cons, ih hl.2, List.cons_append]
        intro h
        rw [placeholder, List.cons_prefix_cons] at h
        exact hl.1 h.1.symm
  have hRest : ∀ c ∈ other ++ ['\x7d', '\x7d'], c ≠ '\x7b' := by
    intro c hc
    rcases List.mem_append.mp hc with hc | hc
    · exact (hOther c hc).1
    · rintro rfl
      simp at hc
  have hFirst : ¬placeholder inner <+: placeholder other ++ cs :=
    fun h => hNe (placeholder_of_begun hInner hOther h)
  have hOpen : placeholder other ++ cs =
      '\x7b' :: '\x7b' :: ((other ++ ['\x7d', '\x7d']) ++ cs) := rfl
  rw [hOpen] at hFirst ⊢
  rw [replaceChars_cons hFirst, replaceChars_cons, hText _ _ hRest]
  · rfl
  · intro h
    rw [placeholder, List.cons_prefix_cons] at h
    cases hParts : other ++ ['\x7d', '\x7d'] with
    | nil => simp at hParts
    | cons d rest =>
        rw [hParts, List.forall_mem_cons] at hRest
        rw [hParts, List.cons_append, List.cons_prefix_cons] at h
        exact hRest.1 h.2.1.symm

/-- One replacement fills in the placeholders of one key and changes nothing else. -/
theorem replace_written (hInner : Unbraced inner)
    (hParts : ∀ f, Piece.hole f ∈ parts →
      Unbraced f.1 ∧ (f.1 = inner → filled inner = false → f.2 = value))
    (hClean : ¬['\x7b', '\x7b'] <:+: written (fun _ => true) parts) :
    replaceChars (placeholder inner) value 0 (written filled parts) =
      written (fun w => filled w || w == inner) parts := by
  have hTexts : ∀ (chars : List Char) (parts : List Piece),
      ¬['\x7b', '\x7b'] <:+: chars ++ written (fun _ => true) parts →
      replaceChars (placeholder inner) value 0 (chars ++ written filled parts) =
        chars ++ replaceChars (placeholder inner) value 0 (written filled parts) := by
    intro chars parts hClean
    induction chars with
    | nil => rfl
    | cons c chars ih =>
        have hAt : ¬placeholder inner <+: c :: (chars ++ written filled parts) := by
          rw [← written_texts]
          apply no_placeholder_at hInner
          rw [written_texts]
          exact hClean
        have hRest : ¬['\x7b', '\x7b'] <:+: chars ++ written (fun _ => true) parts :=
          fun h => hClean (h.trans (List.suffix_cons c _).isInfix)
        rw [List.cons_append, replaceChars_cons hAt, ih hRest, List.cons_append]
  induction parts with
  | nil => rfl
  | cons part parts ih =>
      have hMore : ∀ f, Piece.hole f ∈ parts →
          Unbraced f.1 ∧ (f.1 = inner → filled inner = false → f.2 = value) :=
        fun f hf => hParts f (List.mem_cons_of_mem _ hf)
      cases part with
      | text c =>
          rw [written_text] at hClean ⊢
          have hRest : ¬['\x7b', '\x7b'] <:+: written (fun _ => true) parts :=
            fun h => hClean (h.trans (List.suffix_cons c _).isInfix)
          have hOne := hTexts [c] parts hClean
          rw [List.singleton_append, List.singleton_append] at hOne
          rw [hOne, ih hMore hRest, written_text]
      | hole f =>
          obtain ⟨hUnbraced, hValue⟩ := hParts f List.mem_cons_self
          rw [written_hole] at hClean
          rw [written_hole, written_hole]
          have hRest : ¬['\x7b', '\x7b'] <:+: written (fun _ => true) parts :=
            fun h => hClean (h.trans (List.suffix_append _ _).isInfix)
          by_cases hFilled : filled f.1 = true
          · rw [if_pos hFilled, if_pos (by simp [hFilled]), hTexts f.2 parts hClean,
              ih hMore hRest]
          · rw [if_neg hFilled]
            rw [Bool.not_eq_true] at hFilled
            by_cases hSame : f.1 = inner
            · rw [if_pos (by simp [hSame]), hSame,
                replaceChars_occurrence (placeholder_ne_nil inner), ih hMore hRest,
                hValue hSame (hSame ▸ hFilled)]
            · rw [if_neg (by simp [hFilled, hSame]),
                replace_other hInner hUnbraced (Ne.symm hSame), ih hMore hRest]

end Written

section Pieces

variable {fillings order : List Filling} {parts : List Piece} {cs : List Char}

/-- The parts of a template are the template. -/
theorem written_pieces (skip : Nat) (cs : List Char) :
    written (fun _ => false) (pieces fillings skip cs) = cs.drop skip := by
  induction cs generalizing skip with
  | nil => simp [pieces]
  | cons c cs ih =>
      cases skip with
      | succ skip => rw [pieces, ih, List.drop_succ_cons]
      | zero =>
          rw [pieces]
          split
          · rename_i f hFind
            obtain ⟨hPrefix, -⟩ := List.find?_eq_some_iff_append.mp hFind
            obtain ⟨tail, hTail⟩ := List.isPrefixOf_iff_prefix.mp hPrefix
            have hDrop : cs.drop ((placeholder f.1).length - 1) = tail := by
              have hLong : 0 < (placeholder f.1).length := by simp [placeholder]
              have hSkip : (c :: cs).drop ((placeholder f.1).length - 1 + 1) =
                  cs.drop ((placeholder f.1).length - 1) := List.drop_succ_cons
              rw [← hSkip, Nat.sub_add_cancel hLong, ← hTail, List.drop_left]
            rw [written_hole, ih, hDrop]
            exact hTail
          · rw [written_text, ih, List.drop_zero, List.drop_zero]

/-- A placeholder of a template has the first value of its key. -/
theorem hole_mem_pieces {skip : Nat} {f : Filling} (h : Piece.hole f ∈ pieces fillings skip cs) :
    f ∈ fillings ∧ fillings.find? (fun g => g.1 == f.1) = some f := by
  induction cs generalizing skip with
  | nil => simp [pieces] at h
  | cons c cs ih =>
      cases skip with
      | succ skip => exact ih h
      | zero =>
          rw [pieces] at h
          split at h
          · rename_i g hFind
            rcases List.mem_cons.mp h with hSame | h
            · cases hSame
              refine ⟨List.mem_of_find?_eq_some hFind, ?_⟩
              obtain ⟨hPrefix, before, after, hSplit, hBefore⟩ :=
                List.find?_eq_some_iff_append.mp hFind
              refine List.find?_eq_some_iff_append.mpr
                ⟨beq_self_eq_true f.1, before, after, hSplit, fun g hg => ?_⟩
              rw [Bool.not_eq_true', beq_eq_false_iff_ne]
              intro hKey
              have hNot := hBefore g hg
              rw [hKey, hPrefix] at hNot
              cases hNot
            · exact ih h
          · rcases List.mem_cons.mp h with hSame | h
            · cases hSame
            · exact ih h

/-- What is written depends only on which placeholders of the template are filled in. -/
theorem written_congr {filled filled' : List Char → Bool}
    (h : ∀ f, Piece.hole f ∈ parts → filled f.1 = filled' f.1) :
    written filled parts = written filled' parts := by
  induction parts with
  | nil => rfl
  | cons part parts ih =>
      have hRest := ih fun f hf => h f (List.mem_cons_of_mem _ hf)
      cases part with
      | text c => rw [written_text, written_text, hRest]
      | hole f => rw [written_hole, written_hole, hRest, h f List.mem_cons_self]

/-- Replacing one key after the other fills in all of them. -/
theorem fold_written {done rest : List Filling} (hRest : ∀ f ∈ rest, Unbraced f.1)
    (hParts : ∀ f, Piece.hole f ∈ parts →
      Unbraced f.1 ∧ (done ++ rest).find? (fun g => g.1 == f.1) = some f)
    (hClean : ¬['\x7b', '\x7b'] <:+: written (fun _ => true) parts) :
    rest.foldl (fun cs f => replaceChars (placeholder f.1) f.2 0 cs)
        (written (fun w => done.any fun g => g.1 == w) parts) =
      written (fun w => (done ++ rest).any fun g => g.1 == w) parts := by
  induction rest generalizing done with
  | nil => rw [List.foldl_nil, List.append_nil]
  | cons f rest ih =>
      rw [List.forall_mem_cons] at hRest
      have hStep := @replace_written (fun w => done.any fun g => g.1 == w) parts f.1 f.2 hRest.1
        (fun g hg => by
          obtain ⟨hUnbraced, hFind⟩ := hParts g hg
          refine ⟨hUnbraced, fun hKey hNot => ?_⟩
          have hNone : done.find? (fun h => h.1 == g.1) = none := by
            rw [List.find?_eq_none]
            intro h hh
            rw [hKey]
            simpa using List.any_eq_false.mp hNot h hh
          rw [List.find?_append, hNone, Option.none_or, List.find?_cons_of_pos (by simp [hKey]),
            Option.some.injEq] at hFind
          rw [hFind]) hClean
      have hFilled : (fun w => (done.any fun g => g.1 == w) || w == f.1) =
          fun w => (done ++ [f]).any fun g => g.1 == w := by
        funext w
        simp [List.any_append, Bool.beq_comm]
      rw [List.foldl_cons, hStep, hFilled, ih hRest.2 (by simpa using hParts)]
      simp

/-- The replacements are made one after the other, each in both of its spellings. -/
theorem replacePlaceholders_chars (order : List (String × String)) (template : String) :
    (replacePlaceholders template order).toList = (spellings order).foldl
      (fun cs f => replaceChars (placeholder f.1) f.2 0 cs) template.toList := by
  induction order generalizing template with
  | nil => rfl
  | cons p order ih =>
      have hStep : replacePlaceholders template (p :: order) = replacePlaceholders
          (replaceAll (replaceAll template ("\x7b\x7b " ++ p.1 ++ " \x7d\x7d") p.2)
            ("\x7b\x7b" ++ p.1 ++ "\x7d\x7d") p.2) order := rfl
      rw [hStep, ih]
      simp [spellings, replaceAll, placeholder]

theorem unbraced_spellings {replacements : List (String × String)}
    (h : ∀ p ∈ replacements, Unbraced p.1.toList) : ∀ f ∈ spellings replacements, Unbraced f.1 := by
  intro f hf
  obtain ⟨p, hp, hf⟩ := List.mem_flatMap.mp hf
  rw [List.mem_cons, List.mem_singleton] at hf
  rcases hf with rfl | rfl
  · intro c hc
    have hBlank : ' ' ≠ '\x7b' ∧ ' ' ≠ '\x7d' := by decide
    simp only [List.cons_append, List.mem_cons, List.mem_append, List.not_mem_nil,
      or_false] at hc
    rcases hc with rfl | hc | rfl
    · exact hBlank
    · exact h p hp c hc
    · exact hBlank
  · exact h p hp

/-- Where the filled template has no two opening braces side by side, the loop writes it. -/
theorem replacePlaceholders_eq {template : String} {order : List (String × String)}
    (hOrder : ∀ p ∈ order, Unbraced p.1.toList)
    (hClean : ¬['\x7b', '\x7b'] <:+: (substituted template order).toList) :
    replacePlaceholders template order = substituted template order := by
  have hUnbraced := unbraced_spellings hOrder
  rw [substituted, String.toList_ofList] at hClean
  have hFold := @fold_written (pieces (spellings order) 0 template.toList) [] (spellings order)
    hUnbraced (fun f hf => by
      obtain ⟨hMem, hFind⟩ := hole_mem_pieces hf
      exact ⟨hUnbraced f hMem, hFind⟩) hClean
  rw [← String.toList_inj, replacePlaceholders_chars, substituted, String.toList_ofList]
  have hNone : written (fun w => ([] : List Filling).any fun g => g.1 == w)
      (pieces (spellings order) 0 template.toList) = template.toList := by
    have hPieces := @written_pieces (spellings order) 0 template.toList
    exact hPieces
  rw [hNone] at hFold
  rw [hFold]
  refine written_congr fun f hf => List.any_eq_true.mpr ⟨f, ?_, beq_self_eq_true f.1⟩
  exact (hole_mem_pieces hf).1

theorem find?_perm {α : Type} {l l' : List α} {p : α → Bool} (h : l.Perm l')
    (hUnique : ∀ a ∈ l, ∀ b ∈ l, p a = true → p b = true → a = b) : l.find? p = l'.find? p := by
  cases hFind : l'.find? p with
  | none =>
      rw [List.find?_eq_none] at hFind ⊢
      exact fun a ha => hFind a (h.mem_iff.mp ha)
  | some b =>
      have hb := h.mem_iff.mpr (List.mem_of_find?_eq_some hFind)
      cases hFirst : l.find? p with
      | none => exact absurd (List.find?_some hFind) (List.find?_eq_none.mp hFirst b hb)
      | some a =>
          rw [hUnique a (List.mem_of_find?_eq_some hFirst) b hb (List.find?_some hFirst)
            (List.find?_some hFind)]

/-- The order of a mapping of names does not matter. -/
theorem substituted_perm {template : String} {order : List (String × String)}
    {replacements : Replacements} (h : order.Perm replacements.entries) :
    substituted template order = substituted template replacements.entries := by
  have hPerm : (spellings order).Perm (spellings replacements.entries) := h.flatMap_right _
  have hUnbraced := unbraced_spellings replacements.unbraced
  have hSame : ∀ cs : List Char, (spellings order).find? (fun f => (placeholder f.1).isPrefixOf cs) =
      (spellings replacements.entries).find? (fun f => (placeholder f.1).isPrefixOf cs) := by
    intro cs
    refine find?_perm hPerm fun f hf g hg hFirst hSecond => ?_
    have hf' := hPerm.mem_iff.mp hf
    have hg' := hPerm.mem_iff.mp hg
    rw [List.isPrefixOf_iff_prefix] at hFirst hSecond
    have hKey : f.1 = g.1 := by
      rcases List.prefix_or_prefix_of_prefix hFirst hSecond with hLe | hLe
      · refine @placeholder_of_begun f.1 g.1 [] (hUnbraced f hf') (hUnbraced g hg') ?_
        rwa [List.append_nil]
      · refine (@placeholder_of_begun g.1 f.1 [] (hUnbraced g hg') (hUnbraced f hf') ?_).symm
        rwa [List.append_nil]
    exact List.inj_on_of_nodup_map replacements.apart hf' hg' hKey
  have hPieces : ∀ (cs : List Char) (skip : Nat), pieces (spellings order) skip cs =
      pieces (spellings replacements.entries) skip cs := by
    intro cs
    induction cs with
    | nil => intro skip; cases skip <;> rfl
    | cons c cs ih =>
        intro skip
        cases skip with
        | succ skip => exact ih skip
        | zero =>
            rw [pieces, pieces, hSame, ih 0]
            split
            · rw [ih]
            · rfl
  rw [substituted, substituted, hPieces]

end Pieces

section Rendered

/-- Rendering is simultaneous substitution if and only if the filled template has no two
braces side by side. -/
theorem rendersAtOnce_iff (host : Host) (template : String) (replacements : Replacements) :
    RendersAtOnce host template replacements ↔
      Clean (substituted template replacements.entries) := by
  constructor
  · intro h
    have hRender := h replacements.entries (List.Perm.refl _)
    rw [renderTemplate] at hRender
    split at hRender
    · cases hRender
    · rename_i hBraces
      have hText : replacePlaceholders template replacements.entries =
          substituted template replacements.entries := Except.ok.inj hRender
      rw [Bool.not_eq_true, Bool.or_eq_false_iff, ← Bool.not_eq_true, ← Bool.not_eq_true,
        containsText_iff, containsText_iff, hText] at hBraces
      exact hBraces
  · intro hClean order hOrder
    have hNames : ∀ p ∈ order, Unbraced p.1.toList :=
      fun p hp => replacements.unbraced p (hOrder.mem_iff.mp hp)
    have hPerm := @substituted_perm template order replacements hOrder
    have hText := @replacePlaceholders_eq template order hNames (hPerm ▸ hClean.1)
    have hBraces : (containsText (substituted template replacements.entries) "\x7b\x7b" ||
        containsText (substituted template replacements.entries) "\x7d\x7d") = false := by
      rw [Bool.or_eq_false_iff, ← Bool.not_eq_true, ← Bool.not_eq_true, containsText_iff,
        containsText_iff]
      exact hClean
    rw [renderTemplate, hText, hPerm, if_neg (by simp [hBraces])]
    rfl

/-- Solidity code that ends in nested blocks. -/
def nestedBody : Replacements where
  entries := [("BODY", "if (open) \x7b close(); \x7d\x7d")]
  unbraced := by
    have hName : ("BODY".toList.all fun c => c != '\x7b' && c != '\x7d') = true := by decide
    intro p hp c hc
    rw [List.mem_singleton.mp hp] at hc
    simpa using List.all_eq_true.mp hName c hc
  apart := by decide

/-- The value with nested blocks is not rendered at once, since it brings braces of its own. -/
theorem nested_body_rejected :
    ¬RendersAtOnce (Host.digesting fun _ => "") "\x7b\x7b BODY \x7d\x7d" nestedBody := by
  intro h
  have hRender := h nestedBody.entries (List.Perm.refl _)
  have hBraces : (containsText (replacePlaceholders "\x7b\x7b BODY \x7d\x7d" nestedBody.entries)
      "\x7b\x7b" || containsText (replacePlaceholders "\x7b\x7b BODY \x7d\x7d"
        nestedBody.entries) "\x7d\x7d") = true := by decide
  rw [renderTemplate] at hRender
  simp only [hBraces, if_true] at hRender
  cases hRender

end Rendered
end L0vi0x.Chain
