import L0vi0x.Python.MemoryFiles

/-! Paths read as texts, where no symbolic links are followed: a path is known by its parts,
and its canonical text by the same parts between slashes. -/
namespace L0vi0x.Python

section Separated

variable {α : Type} {c : α}

/-- The pieces before the first separator agree when one list starts with the other. -/
theorem append_cons_prefix_iff {q p x y : List α} (hq : c ∉ q) (hp : c ∉ p) :
    q ++ c :: x <+: p ++ c :: y ↔ q = p ∧ x <+: y := by
  induction q generalizing p with
  | nil =>
      cases p with
      | nil => simp [List.cons_prefix_cons]
      | cons d p =>
          rw [List.mem_cons, not_or] at hp
          simp [List.cons_prefix_cons, hp.1]
  | cons d q ih =>
      rw [List.mem_cons, not_or] at hq
      cases p with
      | nil => simp [List.cons_prefix_cons, Ne.symm hq.1]
      | cons e p =>
          rw [List.mem_cons, not_or] at hp
          rw [List.cons_append, List.cons_append, List.cons_prefix_cons, ih hq.2 hp.2,
            List.cons.injEq, and_assoc]

/-- Every piece with the separator before it. -/
def separated (c : α) (pieces : List (List α)) : List α := pieces.flatMap (c :: ·)

/-- One list of pieces starts with another exactly when their texts do up to a separator. -/
theorem separated_prefix_iff {qs ps : List (List α)} (hq : ∀ q ∈ qs, c ∉ q) (hp : ∀ p ∈ ps, c ∉ p) :
    separated c qs ++ [c] <+: separated c ps ++ [c] ↔ qs <+: ps := by
  have hStart : ∀ pieces : List (List α), ∃ rest, separated c pieces ++ [c] = c :: rest := by
    intro pieces
    cases pieces with
    | nil => exact ⟨[], rfl⟩
    | cons p pieces => exact ⟨_, rfl⟩
  induction qs generalizing ps with
  | nil =>
      obtain ⟨rest, hRest⟩ := hStart ps
      rw [hRest]
      exact iff_of_true ⟨rest, rfl⟩ List.nil_prefix
  | cons q qs ih =>
      obtain ⟨x, hx⟩ := hStart qs
      cases ps with
      | nil => simp [separated, List.cons_prefix_cons]
      | cons p ps =>
          rw [List.forall_mem_cons] at hq hp
          obtain ⟨y, hy⟩ := hStart ps
          have hCons : ∀ (r : List α) (pieces : List (List α)),
              separated c (r :: pieces) ++ [c] = c :: (r ++ (separated c pieces ++ [c])) := by
            intro r pieces
            simp [separated]
          have hRest := ih hq.2 hp.2
          rw [hx, hy, List.cons_prefix_cons, eq_self, true_and] at hRest
          rw [hCons, hCons, List.cons_prefix_cons, eq_self, true_and, hx, hy,
            append_cons_prefix_iff hq.1 hp.1, List.cons_prefix_cons]
          exact and_congr_right fun _ => hRest

end Separated

section Parts

/-- A part as a path keeps it. -/
structure CleanPart (part : String) : Prop where
  nonempty : part ≠ ""
  noDot : part ≠ "."
  noSlash : '/' ∉ part.toList

/-- A clean part has a first character, which is no slash. -/
theorem CleanPart.exists_cons {part : String} (h : CleanPart part) :
    ∃ c cs, part.toList = c :: cs ∧ c ≠ '/' := by
  cases hChars : part.toList with
  | nil => exact absurd (String.toList_inj.mp hChars) h.nonempty
  | cons c cs =>
      refine ⟨c, cs, rfl, ?_⟩
      rintro rfl
      exact h.noSlash (by simp [hChars])

def CleanParts (parts : List String) : Prop := ∀ part ∈ parts, CleanPart part

/-- The pieces between slashes have none. -/
theorem splitSlash_noSlash (cs part : List Char) (h : '/' ∉ part) :
    ∀ s ∈ splitSlash cs part, '/' ∉ s.toList := by
  induction cs generalizing part with
  | nil => simpa [splitSlash] using h
  | cons c cs ih =>
      by_cases hc : c = '/'
      · subst hc
        rw [splitSlash, List.forall_mem_cons]
        exact ⟨by simpa using h, ih [] (by simp)⟩
      · rw [splitSlash]
        · exact ih (c :: part) (by simp [Ne.symm hc, h])
        · exact hc

/-- The parts of the path of a text are clean. -/
theorem cleanParts_ofText (s : String) : CleanParts (Path.ofText s).parts := by
  intro part hPart
  simp only [Path.ofText, List.mem_filter, decide_eq_true_eq] at hPart
  exact ⟨hPart.2.1, hPart.2.2, splitSlash_noSlash s.toList [] (by simp) part hPart.1⟩

/-- A text is split again into the parts that its slashes separate. -/
theorem splitSlash_separated {parts : List String} (h : CleanParts parts) (part : List Char) :
    splitSlash (separated '/' (parts.map String.toList)) part =
      String.ofList part.reverse :: parts := by
  have hPiece : ∀ (piece : List Char) (rest part : List Char), '/' ∉ piece →
      splitSlash (piece ++ rest) part = splitSlash rest (piece.reverse ++ part) := by
    intro piece
    induction piece with
    | nil => simp
    | cons c piece ih =>
        intro rest part hPiece
        rw [List.mem_cons, not_or] at hPiece
        rw [List.cons_append, splitSlash, ih rest (c :: part) hPiece.2]
        · simp
        · exact Ne.symm hPiece.1
  induction parts generalizing part with
  | nil => rfl
  | cons p parts ih =>
      rw [CleanParts, List.forall_mem_cons] at h
      have hCons : separated '/' ((p :: parts).map String.toList) =
          '/' :: (p.toList ++ separated '/' (parts.map String.toList)) := by
        simp [separated]
      rw [hCons, splitSlash, hPiece _ _ _ h.1.noSlash, ih h.2]
      simp

/-- The canonical text of an absolute path, character by character. -/
theorem text_absolute (parts : List String) :
    (Path.text ⟨"/", parts⟩).toList =
      if parts = [] then ['/'] else separated '/' (parts.map String.toList) := by
  have hJoin : ∀ parts : List String, parts ≠ [] →
      '/' :: (joinText "/" parts).toList = separated '/' (parts.map String.toList) := by
    intro parts hParts
    induction parts with
    | nil => exact absurd rfl hParts
    | cons p rest ih =>
        cases rest with
        | nil => simp [joinText, separated]
        | cons q rest =>
            have hRest := ih (by simp)
            rw [joinText, String.toList_append, String.toList_append, List.append_assoc,
              show "/".toList = ['/'] from rfl, List.singleton_append, hRest]
            simp [separated]
            simp
  rw [Path.text, if_neg (by simp)]
  change ("/" ++ joinText "/" parts).toList = _
  rw [String.toList_append, show "/".toList = ['/'] from rfl]
  by_cases hParts : parts = []
  · rw [if_pos hParts, hParts]
    rfl
  · rw [if_neg hParts, ← hJoin parts hParts]
    rfl

/-- The canonical text of clean parts is read as the path with those parts. -/
theorem ofText_text {parts : List String} (h : CleanParts parts) :
    Path.ofText (Path.text ⟨"/", parts⟩) = ⟨"/", parts⟩ := by
  have hText := text_absolute parts
  cases parts with
  | nil => decide
  | cons p rest =>
      rw [if_neg (by simp)] at hText
      have hParts : ((splitSlash (Path.text ⟨"/", p :: rest⟩).toList []).filter fun part =>
          part ≠ "" ∧ part ≠ ".") = p :: rest := by
        rw [hText, splitSlash_separated h, List.filter_cons_of_neg (by simp), List.filter_eq_self]
        intro part hPart
        simpa using ⟨(h part hPart).nonempty, (h part hPart).noDot⟩
      have hRoot : ∃ c cs, (Path.text ⟨"/", p :: rest⟩).toList = '/' :: c :: cs ∧ c ≠ '/' := by
        obtain ⟨c, cs, hp, hc⟩ := (h p (List.mem_cons_self ..)).exists_cons
        refine ⟨c, cs ++ separated '/' (rest.map String.toList), ?_, hc⟩
        rw [hText]
        simp [separated, hp]
      obtain ⟨c, cs, hChars, hc⟩ := hRoot
      unfold Path.ofText
      rw [hParts, hChars]
      simp only [Path.mk.injEq, and_true]
      clear hText hParts hChars h
      split
      · simp_all
      · simp_all
      · rfl
      · rename_i hNot
        exact absurd rfl (hNot _)

/-- Stripping the last slashes of a canonical text leaves every part with its slash. -/
theorem rstripSlash_text {parts : List String} (h : CleanParts parts) :
    (rstripSlash (Path.text ⟨"/", parts⟩)).toList = separated '/' (parts.map String.toList) := by
  rw [rstripSlash, String.toList_ofList, text_absolute]
  rcases List.eq_nil_or_concat parts with rfl | ⟨front, last, hParts⟩
  · rfl
  · rw [List.concat_eq_append] at hParts
    subst hParts
    have hLast := h last (by simp)
    obtain ⟨d, cs, hChars⟩ : ∃ d cs, last.toList.reverse = d :: cs := by
      cases hRev : last.toList.reverse with
      | nil => exact absurd (String.toList_inj.mp (by simpa using hRev)) hLast.nonempty
      | cons d cs => exact ⟨d, cs, rfl⟩
    have hd : d ≠ '/' := by
      rintro rfl
      have hMem : '/' ∈ last.toList.reverse := by simp [hChars]
      exact hLast.noSlash (by simpa using hMem)
    have hReverse : (separated '/' ((front ++ [last]).map String.toList)).reverse =
        d :: (cs ++ '/' :: (separated '/' (front.map String.toList)).reverse) := by
      simp [separated, hChars]
    rw [if_neg (by simp), hReverse, List.dropWhile_cons_of_neg (by simpa using hd), ← hReverse,
      List.reverse_reverse]

/-- One canonical text names a file at or under another exactly when its parts start with
those of the other. -/
theorem text_under_iff {qs ps : List String} (hq : CleanParts qs) (hp : CleanParts ps) :
    (Path.text ⟨"/", ps⟩ = Path.text ⟨"/", qs⟩ ∨
      startsWith (Path.text ⟨"/", ps⟩) (rstripSlash (Path.text ⟨"/", qs⟩) ++ "/") = true) ↔
      qs <+: ps := by
  have hSlash : ∀ {parts : List String}, CleanParts parts →
      ∀ piece ∈ parts.map String.toList, '/' ∉ piece := by
    intro parts h piece hPiece
    obtain ⟨part, hPart, rfl⟩ := List.mem_map.mp hPiece
    exact (h part hPart).noSlash
  have hPieces := separated_prefix_iff (hSlash hq) (hSlash hp)
  have hMap : qs.map String.toList <+: ps.map String.toList ↔ qs <+: ps := by
    rw [List.prefix_map_iff]
    constructor
    · rintro ⟨l, hl, hEq⟩
      rwa [List.map_injective_iff.mpr (fun _ _ h => String.toList_inj.mp h) hEq]
    · exact fun h => ⟨qs, h, rfl⟩
  rw [← hMap, ← hPieces, startsWith, List.isPrefixOf_iff_prefix, String.toList_append,
    rstripSlash_text hq, show "/".toList = ['/'] from rfl, ← String.toList_inj, text_absolute,
    text_absolute, List.prefix_concat_iff]
  cases ps with
  | nil =>
      cases qs with
      | nil => simp [separated]
      | cons q qs =>
          obtain ⟨c, cs, hChars, _⟩ := (hq q (List.mem_cons_self ..)).exists_cons
          simp [separated, hChars]
  | cons p ps =>
      cases qs with
      | nil => simp [separated, List.cons_prefix_cons]
      | cons q qs => simp [eq_comm]

end Parts

section Located

/-- The parts of an absolute path with every `..` resolved; the root is its own parent. -/
def normalParts (parts : List String) : List String :=
  parts.foldl (fun kept part => if part = ".." then kept.dropLast else kept ++ [part]) []

/-- Where a path leads to from the working directory when it leads through no link. -/
def located (cwd : String) (p : Path) : List String :=
  normalParts (if p.root = "" then (Path.ofText cwd).parts ++ p.parts else p.parts)

/-- No path leads through a symbolic link. -/
def FileSystem.Lexical (fs : FileSystem) (cwd : String) : Prop :=
  ∀ p q, fs.resolve p = .ok q → q.parts = located cwd p

theorem cleanParts_append {xs ys : List String} (hx : CleanParts xs) (hy : CleanParts ys) :
    CleanParts (xs ++ ys) := by
  intro part hPart
  rcases List.mem_append.mp hPart with h | h
  · exact hx part h
  · exact hy part h

theorem cleanParts_normalParts {parts : List String} (h : CleanParts parts) :
    CleanParts (normalParts parts) := by
  have hFold : ∀ kept, CleanParts kept → CleanParts (parts.foldl (fun kept part =>
      if part = ".." then kept.dropLast else kept ++ [part]) kept) := by
    induction parts with
    | nil => exact fun kept hKept => hKept
    | cons part parts ih =>
        rw [CleanParts, List.forall_mem_cons] at h
        intro kept hKept
        rw [List.foldl_cons]
        apply ih h.2
        split
        · exact fun p hp => hKept p (List.mem_of_mem_dropLast hp)
        · exact cleanParts_append hKept (by simpa [CleanParts] using h.1)
  exact hFold [] (by simp [CleanParts])

theorem cleanParts_join {p : Path} (h : CleanParts p.parts) (s : String) :
    CleanParts (p.join s).parts := by
  unfold Path.join
  dsimp only
  split
  · exact cleanParts_append h (cleanParts_ofText s)
  · exact cleanParts_ofText s

/-- The parts of a located path are clean. -/
theorem cleanParts_located {p : Path} (h : CleanParts p.parts) (cwd : String) :
    CleanParts (located cwd p) := by
  refine cleanParts_normalParts ?_
  split
  · exact cleanParts_append (cleanParts_ofText cwd) h
  · exact h

/-- Text files below the root directory, with the paths to them read as they are spelled. -/
def MemoryFiles.lexical (files : MemoryFiles) : FileSystem :=
  { files.fileSystem with
    real := fun p => ⟨"/", located "/" p⟩
    resolve := fun p => .ok ⟨"/", located "/" p⟩
    resolve_real := by
      intro p q h
      simpa using h }

theorem MemoryFiles.lexical_lexical (files : MemoryFiles) : files.lexical.Lexical "/" := by
  rintro p q ⟨⟩
  rfl

end Located
end L0vi0x.Python
