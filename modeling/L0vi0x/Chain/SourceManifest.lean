import L0vi0x.Chain.SourceCopy
import L0vi0x.Python.LexicalPath

/-! What the source manifest says about a tree. Its rows are only set apart by line ends,
which a file name may contain. -/
namespace L0vi0x.Chain

open L0vi0x.Python L0vi0x.Core

section Rows

variable {α : Type} {render : α → List Char}

def linesOf (render : α → List Char) (rows : List α) : List Char :=
  rows.flatMap fun row => render row ++ ['\n']

/-- A row that is longer than another begins with that row and its line end. -/
theorem line_of_begun {xs ys : List Char} (h : xs ++ ['\n'] <+: ys ++ ['\n']) (hNe : xs ≠ ys) :
    xs ++ ['\n'] <+: ys := by
  rcases List.prefix_concat_iff.mp h with hSame | hPrefix
  · exact absurd (List.append_cancel_right hSame) hNe
  · exact hPrefix

/-- Two lists of rows in one order have one text only when they agree, if every row that
begins with a row of the other list stands with it in both. -/
theorem rows_eq_of_linesOf_eq {before : α → α → Prop} (hAsymm : ∀ a b, before a b → ¬ before b a)
    {xs ys : List α} (hx : xs.Pairwise before) (hy : ys.Pairwise before)
    (hRender : ∀ x ∈ xs, ∀ y ∈ ys, render x = render y → x = y)
    (hBegun : ∀ x ∈ xs, ∀ y ∈ ys, render x ++ ['\n'] <+: render y ∨
      render y ++ ['\n'] <+: render x → x ∈ ys ∧ y ∈ xs)
    (hText : linesOf render xs = linesOf render ys) : xs = ys := by
  induction xs generalizing ys with
  | nil =>
      cases ys with
      | nil => rfl
      | cons y ys => simp [linesOf] at hText
  | cons x xs ih =>
      cases ys with
      | nil => simp [linesOf] at hText
      | cons y ys =>
          have hSame : render x = render y := by
            by_contra hNe
            have hEither : render x ++ ['\n'] <+: render y ∨ render y ++ ['\n'] <+: render x := by
              have hLeft : render x ++ ['\n'] <+: linesOf render (x :: xs) := List.prefix_append _ _
              have hRight : render y ++ ['\n'] <+: linesOf render (x :: xs) :=
                hText ▸ List.prefix_append _ _
              rcases List.prefix_or_prefix_of_prefix hLeft hRight with h | h
              · exact .inl (line_of_begun h hNe)
              · exact .inr (line_of_begun h (Ne.symm hNe))
            obtain ⟨hIn, hOut⟩ := hBegun x List.mem_cons_self y List.mem_cons_self hEither
            rw [List.pairwise_cons] at hx hy
            have hXY : y ∈ xs := (List.mem_cons.mp hOut).resolve_left
              fun h => hNe (congrArg render h.symm)
            have hYX : x ∈ ys := (List.mem_cons.mp hIn).resolve_left
              fun h => hNe (congrArg render h)
            exact hAsymm x y (hx.1 y hXY) (hy.1 x hYX)
          obtain rfl := hRender x List.mem_cons_self y List.mem_cons_self hSame
          rw [List.pairwise_cons] at hx hy
          have hRest : linesOf render xs = linesOf render ys := by
            simpa [linesOf] using hText
          have hFresh : ∀ {zs : List α}, (∀ z ∈ zs, before x z) → x ∉ zs :=
            fun h hMem => hAsymm x x (h x hMem) (h x hMem)
          congr 1
          refine ih hx.2 hy.2 (fun z hz w hw => hRender z (.tail _ hz) w (.tail _ hw)) ?_ hRest
          intro z hz w hw hEither
          obtain ⟨hIn, hOut⟩ := hBegun z (.tail _ hz) w (.tail _ hw) hEither
          refine ⟨(List.mem_cons.mp hIn).resolve_left ?_, (List.mem_cons.mp hOut).resolve_left ?_⟩
          · rintro rfl
            exact hFresh hx.1 hz
          · rintro rfl
            exact hFresh hy.1 hw

end Rows

/-- A source tree whose names a file system allows. -/
structure NamedTree extends SourceTree where
  clean : ∀ n ∈ tree.nodes, CleanParts n.1

section Manifest

variable {host : Host}

abbrev Source := List String × Bytes

/-- The tree has the file, and it is not left out. -/
def NamedTree.Has (t : NamedTree) (f : Source) : Prop :=
  (f.1, FileTree.file f.2) ∈ t.tree.nodes ∧ excludedSource ⟨"", f.1⟩ = false

def rowOf (host : Host) (f : Source) : String :=
  (⟨"", f.1⟩ : Path).text ++ ":" ++ host.sha256 f.2

/-- The path of one file begins with the row of another and its line end. -/
def BeginsWithRow (host : Host) (f g : Source) : Prop :=
  startsWith (⟨"", g.1⟩ : Path).text (rowOf host f ++ "\n") = true

/-- Whenever a path of one tree begins with a row of the other, both trees have both files. -/
def Unambiguous (host : Host) (t u : NamedTree) : Prop :=
  ∀ f g, t.Has f → u.Has g → BeginsWithRow host f g ∨ BeginsWithRow host g f →
    u.Has f ∧ t.Has g

/-- Digests are written in hexadecimal digits. -/
def HexDigests (host : Host) : Prop :=
  ∀ raw, ∀ c ∈ (host.sha256 raw).toList, ∃ n < 16, c = hexDigit n

/-- A hexadecimal digit is neither a colon nor a line end. -/
theorem hexDigit_plain : ∀ n < 16, hexDigit n ≠ ':' ∧ hexDigit n ≠ '\n' := by decide

theorem HexDigests.plain (h : HexDigests host) {raw : Bytes} {c : Char}
    (hc : c ∈ (host.sha256 raw).toList) : c ≠ ':' ∧ c ≠ '\n' := by
  obtain ⟨n, hn, rfl⟩ := h raw c hc
  exact hexDigit_plain n hn

/-- Clean parts are determined by the text of their relative path. -/
theorem parts_eq_of_text {xs ys : List String} (hx : CleanParts xs) (hy : CleanParts ys)
    (hxs : xs ≠ []) (hys : ys ≠ []) (h : (⟨"", xs⟩ : Path).text = (⟨"", ys⟩ : Path).text) :
    xs = ys := by
  have hAbsolute : ∀ {parts : List String}, parts ≠ [] →
      (⟨"/", parts⟩ : Path).text = "/" ++ (⟨"", parts⟩ : Path).text := by
    intro parts hParts
    rw [Path.text, Path.text, if_neg (by simp), if_neg (by simp [hParts])]
    rfl
  have hSame : (⟨"/", xs⟩ : Path).text = (⟨"/", ys⟩ : Path).text := by
    rw [hAbsolute hxs, hAbsolute hys, h]
  have hPath := congrArg Path.ofText hSame
  rw [ofText_text hx, ofText_text hy] at hPath
  exact congrArg Path.parts hPath

/-- Two texts that end after the last colon agree in both pieces. -/
theorem split_at_colon {p q d e : List Char} (hd : ':' ∉ d) (he : ':' ∉ e)
    (h : p ++ ':' :: d = q ++ ':' :: e) : p = q ∧ d = e := by
  have hReversed : d.reverse ++ ':' :: p.reverse = e.reverse ++ ':' :: q.reverse := by
    simpa using congrArg List.reverse h
  have hPrefix : d.reverse ++ ':' :: p.reverse <+: e.reverse ++ ':' :: q.reverse :=
    hReversed ▸ List.prefix_rfl
  obtain ⟨hDigest, -⟩ :=
    (append_cons_prefix_iff (by simpa using hd) (by simpa using he)).mp hPrefix
  obtain rfl := List.reverse_injective hDigest
  exact ⟨List.append_cancel_right h, rfl⟩

theorem rowOf_toList (f : Source) :
    (rowOf host f).toList = (⟨"", f.1⟩ : Path).text.toList ++ ':' :: (host.sha256 f.2).toList := by
  simp [rowOf]

/-- The row of a file determines it. -/
theorem rowOf_injective (hSha : host.CollisionFree) (hHex : HexDigests host) {f g : Source}
    (hf : CleanParts f.1) (hg : CleanParts g.1) (hfs : f.1 ≠ []) (hgs : g.1 ≠ [])
    (h : (rowOf host f).toList = (rowOf host g).toList) : f = g := by
  rw [rowOf_toList, rowOf_toList] at h
  obtain ⟨hPath, hDigest⟩ := split_at_colon (fun hc => (hHex.plain hc).1 rfl)
    (fun hc => (hHex.plain hc).1 rfl) h
  exact Prod.ext (parts_eq_of_text hf hg hfs hgs (String.toList_inj.mp hPath))
    (hSha (String.toList_inj.mp hDigest))

/-- A row that begins with another row begins with it in its path: neither the colon nor
the digest contains a line end. -/
theorem beginsWithRow_of_begun (hHex : HexDigests host) {f g : Source}
    (h : (rowOf host f).toList ++ ['\n'] <+: (rowOf host g).toList) : BeginsWithRow host f g := by
  rw [BeginsWithRow, startsWith, List.isPrefixOf_iff_prefix, String.toList_append]
  change (rowOf host f).toList ++ ['\n'] <+: _
  rw [rowOf_toList g] at h
  have hPath : (⟨"", g.1⟩ : Path).text.toList <+:
      (⟨"", g.1⟩ : Path).text.toList ++ ':' :: (host.sha256 g.2).toList := List.prefix_append _ _
  rcases List.prefix_or_prefix_of_prefix h hPath with hIn | hOver
  · exact hIn
  · obtain ⟨rest, hRest⟩ := hOver
    cases hLast : rest.reverse with
    | nil =>
        obtain rfl := List.reverse_eq_nil_iff.mp hLast
        rw [List.append_nil] at hRest
        rw [hRest]
    | cons c cs =>
        obtain rfl : rest = cs.reverse ++ [c] := by simpa using congrArg List.reverse hLast
        rw [← List.append_assoc] at hRest
        have hBreak := List.append_inj' hRest rfl
        rw [← hBreak.1, List.append_assoc, List.prefix_append_right_inj] at h
        have hMem : '\n' ∈ ':' :: (host.sha256 g.2).toList := h.subset (by simp)
        rcases List.mem_cons.mp hMem with hColon | hDigest
        · exact absurd hColon (by decide)
        · exact absurd rfl (hHex.plain hDigest).2

/-- The file at a path, unless it is left out. -/
def source? (t : FileTree) (parts : List String) : Option Source :=
  match (t.at? parts).bind FileTree.content? with
  | some content => if excludedSource ⟨"", parts⟩ then none else some (parts, content)
  | none => none

/-- The files that the manifest reads, in the order of their paths. -/
def sources (t : FileTree) : List Source := t.paths.filterMap (source? t)

theorem treeRow_eq (t : FileTree) (parts : List String) :
    treeRow host t parts = ((source? t parts).map (rowOf host)).toList := by
  rw [treeRow, source?]
  cases (t.at? parts).bind FileTree.content? with
  | none => rfl
  | some content =>
      cases hExcluded : excludedSource ⟨"", parts⟩ with
      | true => rfl
      | false => rfl

theorem rows_eq_sources (t : FileTree) :
    t.paths.flatMap (treeRow host t) = (sources t).map (rowOf host) := by
  rw [sources, List.map_filterMap]
  induction t.paths with
  | nil => rfl
  | cons parts rest ih =>
      rw [List.flatMap_cons, ih, treeRow_eq, List.filterMap_cons]
      cases source? t parts with
      | none => rfl
      | some f => rfl

/-- A source is a file of the tree that is not left out. -/
theorem source?_eq_some {t : FileTree} {parts : List String} {f : Source}
    (h : source? t parts = some f) : f.1 = parts ∧ excludedSource ⟨"", parts⟩ = false ∧
      (t.at? parts).bind FileTree.content? = some f.2 := by
  rw [source?] at h
  split at h
  · next content hContent =>
      split at h
      · cases h
      · next hKept =>
          cases h
          exact ⟨rfl, by simpa using hKept, hContent⟩
  · cases h

theorem mem_sources {t : NamedTree} {f : Source} : f ∈ sources t.tree ↔ t.Has f := by
  rw [sources, List.mem_filterMap]
  constructor
  · rintro ⟨parts, hParts, hSource⟩
    obtain ⟨rfl, hKept, hContent⟩ := source?_eq_some hSource
    obtain ⟨⟨names, u⟩, hNode, hNames⟩ := FileTree.mem_paths.mp hParts
    subst hNames
    rw [FileTree.at?_of_mem t.distinct hNode, Option.bind_some] at hContent
    cases u with
    | dir entries => cases hContent
    | file content => exact ⟨Option.some.inj hContent ▸ hNode, hKept⟩
  · rintro ⟨hNode, hKept⟩
    refine ⟨f.1, FileTree.mem_paths.mpr ⟨_, hNode, rfl⟩, ?_⟩
    rw [source?, FileTree.at?_of_mem t.distinct hNode]
    simp [FileTree.content?, hKept]

/-- The names of a file of the tree are those that a file system allows. -/
theorem clean_of_has {t : NamedTree} {f : Source} (h : t.Has f) : CleanParts f.1 ∧ f.1 ≠ [] :=
  ⟨t.clean _ h.1, FileTree.nodes_ne_nil _ _ h.1⟩

/-- The files stand in the strict order of their paths. -/
theorem pairwise_sources (t : NamedTree) :
    (sources t.tree).Pairwise fun f g => f.1 < g.1 := by
  have hPaths : t.tree.paths.Pairwise (· < ·) := by
    have hNodup : t.tree.paths.Nodup :=
      (List.perm_insertionSort _ _).nodup_iff.mpr t.distinct
    have hSorted : t.tree.paths.Pairwise (· ≤ ·) := List.pairwise_insertionSort _ _
    exact (hSorted.and hNodup).imp fun h => lt_of_le_of_ne h.1 h.2
  rw [sources, List.pairwise_filterMap]
  refine hPaths.imp fun hLt f hf g hg => ?_
  rw [(source?_eq_some hf).1, (source?_eq_some hg).1]
  exact hLt

/-- The text of the manifest is made of the rows of the sources. -/
theorem linesOf_sources (t : FileTree) :
    (rowsText (t.paths.flatMap (treeRow host t))).toList =
      linesOf (fun f => (rowOf host f).toList) (sources t) := by
  rw [rows_eq_sources, rowsText_toList, linesOf, List.flatMap_map]

/-- Two trees with one manifest have the same files exactly when no path of one of them
begins with a row of the other, unless both have both files. -/
theorem same_sources_iff (hSha : host.CollisionFree) (hHex : HexDigests host) (t u : NamedTree)
    (root other : Path) (hSame : sourceManifest host (t.tree.fileSystem root) root =
      sourceManifest host (u.tree.fileSystem other) other) :
    (∀ f, t.Has f ↔ u.Has f) ↔ Unambiguous host t u := by
  constructor
  · intro h f g hf hg _
    exact ⟨(h f).mp hf, (h g).mpr hg⟩
  · intro hBegun
    rw [sourceManifest_tree, sourceManifest_tree, Except.ok.injEq] at hSame
    have hText := congrArg String.toList (hSha.text hSame)
    rw [linesOf_sources, linesOf_sources] at hText
    have hEq : sources t.tree = sources u.tree := by
      refine rows_eq_of_linesOf_eq (fun f g => lt_asymm) (pairwise_sources t)
        (pairwise_sources u) ?_ ?_ hText
      · intro f hf g hg hRows
        have hCleanF := clean_of_has (mem_sources.mp hf)
        have hCleanG := clean_of_has (mem_sources.mp hg)
        exact rowOf_injective hSha hHex hCleanF.1 hCleanG.1 hCleanF.2 hCleanG.2 hRows
      · intro f hf g hg hEither
        rw [mem_sources, mem_sources]
        exact hBegun f g (mem_sources.mp hf) (mem_sources.mp hg)
          (hEither.imp (beginsWithRow_of_begun hHex) (beginsWithRow_of_begun hHex))
    intro f
    rw [← mem_sources, ← mem_sources, hEq]

/-- Trees whose paths contain no line end are never ambiguous. -/
theorem unambiguous_of_no_breaks {t u : NamedTree}
    (ht : ∀ f, t.Has f → '\n' ∉ (⟨"", f.1⟩ : Path).text.toList)
    (hu : ∀ f, u.Has f → '\n' ∉ (⟨"", f.1⟩ : Path).text.toList) : Unambiguous host t u := by
  have hBreak : ∀ {f g : Source}, BeginsWithRow host f g →
      '\n' ∈ (⟨"", g.1⟩ : Path).text.toList := by
    intro f g h
    rw [BeginsWithRow, startsWith, List.isPrefixOf_iff_prefix, String.toList_append] at h
    exact h.subset (List.mem_append_right _ List.mem_cons_self)
  intro f g hf hg hEither
  rcases hEither with h | h
  · exact absurd (hBreak h) (hu g hg)
  · exact absurd (hBreak h) (ht f hf)

/-- A file whose name contains the row of another. -/
def oneFileTree : NamedTree where
  tree := .dir [("a:61\nb", .file [])]
  distinct := by decide
  clean := by
    intro n hn part hPart
    obtain rfl := List.mem_singleton.mp hn
    obtain rfl := List.mem_singleton.mp hPart
    exact ⟨by decide, by decide, by decide⟩

def twoFileTree : NamedTree where
  tree := .dir [("a", .file [97]), ("b", .file [])]
  distinct := by decide
  clean := by
    intro n hn part hPart
    rcases List.mem_pair.mp hn with rfl | rfl
    · obtain rfl := List.mem_singleton.mp hPart
      exact ⟨by decide, by decide, by decide⟩
    · obtain rfl := List.mem_singleton.mp hPart
      exact ⟨by decide, by decide, by decide⟩

theorem oneFile_manifest :
    sourceManifest (.digesting hexOfBytes) (oneFileTree.tree.fileSystem ⟨"/", ["one"]⟩)
        ⟨"/", ["one"]⟩ =
      sourceManifest (.digesting hexOfBytes) (twoFileTree.tree.fileSystem ⟨"/", ["two"]⟩)
        ⟨"/", ["two"]⟩ := by
  decide

/-- One file and two files have one manifest. -/
theorem one_file_reads_as_two :
    ¬ ∀ (host : Host) (t u : NamedTree) (root other : Path), host.CollisionFree →
      HexDigests host → sourceManifest host (t.tree.fileSystem root) root =
        sourceManifest host (u.tree.fileSystem other) other →
      ∀ f, t.Has f ↔ u.Has f := by
  intro h
  have hSame := h (.digesting hexOfBytes) oneFileTree twoFileTree _ _ hexOfBytes_injective
    (fun _ _ => hexOfBytes_chars) oneFile_manifest (["a"], [97])
  have hHas : oneFileTree.Has (["a"], [97]) := hSame.mpr ⟨List.mem_cons_self, by decide⟩
  have hNode := List.mem_singleton.mp hHas.1
  exact absurd (congrArg Prod.fst hNode) (by decide)

/-- The two sample trees have the same files exactly when they are unambiguous. -/
theorem oneFile_twoFile_iff :
    (∀ f, oneFileTree.Has f ↔ twoFileTree.Has f) ↔
      Unambiguous (.digesting hexOfBytes) oneFileTree twoFileTree :=
  @same_sources_iff (.digesting hexOfBytes) hexOfBytes_injective (fun _ _ => hexOfBytes_chars)
    oneFileTree twoFileTree _ _ oneFile_manifest

end Manifest
end L0vi0x.Chain
