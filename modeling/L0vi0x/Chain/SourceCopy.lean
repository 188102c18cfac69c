import L0vi0x.Chain.Environment
import L0vi0x.Python.FileTree

/-! Fresh copies and the source manifest. The copy leaves names out at every level,
the manifest leaves files out by their path; the two lists differ. -/
namespace L0vi0x.Chain

open L0vi0x.Python L0vi0x.Core

section Copy

def endsWith (name ending : String) : Bool := ending.toList.isSuffixOf name.toList

def ignoredExact : List String :=
  [".git", ".venv", ".mypy_cache", ".ruff_cache", ".pytest_cache", "__pycache__", "audits",
    "eval", "out", "cache", "tool_runs", "artifacts", "keys"]

def ignoredSuffixes : List String := [".pyc", ".db", ".sqlite", ".sqlite3"]

/-- A name of local secrets. -/
def secretName (name : String) : Bool :=
  name = ".env" || (startsWith name ".env." && name != ".env.example")

/-- Whether `_copy_ignore` leaves a name out. -/
def ignoredName (name : String) : Bool :=
  name ∈ ignoredExact || ignoredSuffixes.any (endsWith name) || secretName name

def copyIgnore (names : List String) : List String := names.filter ignoredName

end Copy

/-- A source tree, in which no two places have one path. -/
structure SourceTree where
  tree : FileTree
  distinct : (tree.nodes.map (·.1)).Nodup

/-- The tree of a fresh copy. -/
def SourceTree.copied (t : SourceTree) : SourceTree where
  tree := t.tree.copytree copyIgnore
  distinct := t.distinct.sublist (FileTree.nodes_dropping_sublist ignoredName t.tree)

section Difference

/-- The names that only the copy leaves out, of directories and files alike. -/
def strayName (name : String) : Bool :=
  name ∈ [".mypy_cache", ".ruff_cache", "eval"] || endsWith name ".sqlite3"

/-- The names of directories that only the copy leaves out. -/
def strayDirectory (name : String) : Bool :=
  strayName name || secretName name || [".pyc", ".db", ".sqlite"].any (endsWith name)

/-- The names of files that only the copy leaves out: three of them are nothing but
a suffix. -/
def strayFile (name : String) : Bool := strayName name || name ∈ [".pyc", ".db", ".sqlite"]

/-- A path that the copy leaves out though the manifest would read it. -/
def stray (parts : List String) : Bool :=
  parts.dropLast.any strayDirectory || strayFile (parts.getLast?.getD "")

/-- The suffix of a name with something before its last dot. -/
theorem suffix_of_append {root : String} {parts : List String} {name : String}
    {stem ext : List Char} (hName : (⟨root, parts⟩ : Path).name = name)
    (hText : name.toList = stem ++ '.' :: ext) (hStem : stem ≠ []) (hExt : ext ≠ [])
    (hDot : '.' ∉ ext) : (⟨root, parts⟩ : Path).suffix = String.ofList ('.' :: ext) := by
  have hTake : (name.toList.reverse.takeWhile (· ≠ '.')) = ext.reverse := by
    rw [hText, List.reverse_append, List.reverse_cons, List.append_assoc]
    rw [List.takeWhile_append_of_pos (by simpa [List.mem_reverse] using fun c hc (h : c = '.') => hDot (h ▸ hc))]
    simp
  have hLength : name.toList.length - (ext.length + 1) = stem.length := by
    rw [hText, List.length_append, List.length_cons]
    omega
  have hBase : name.toList.take stem.length = stem := by
    rw [hText]
    simp
  have hStemText : (⟨root, parts⟩ : Path).stem = String.ofList stem := by
    rw [Path.stem, hName]
    simp only [hTake, List.length_reverse, hLength, hBase]
    rw [if_pos]
    refine ⟨?_, by simpa using hExt, hStem⟩
    rw [hText, List.length_append, List.length_cons]
    omega
  rw [Path.suffix, hStemText, hName, dropText, String.toList_ofList, hText]
  simp

theorem endsWith_iff {name ending : String} :
    endsWith name ending = true ↔ ∃ stem, name.toList = stem ++ ending.toList := by
  rw [endsWith, List.isSuffixOf_iff_suffix]
  exact ⟨fun ⟨stem, h⟩ => ⟨stem, h.symm⟩, fun ⟨stem, h⟩ => ⟨stem, h.symm⟩⟩

/-- A name that ends in a suffix is that suffix, or has it. -/
theorem endsWith_suffix {root : String} {parts : List String} {ext : List Char}
    (hExt : ext ≠ []) (hDot : '.' ∉ ext)
    (h : endsWith (⟨root, parts⟩ : Path).name (String.ofList ('.' :: ext)) = true) :
    (⟨root, parts⟩ : Path).name = String.ofList ('.' :: ext) ∨
      (⟨root, parts⟩ : Path).suffix = String.ofList ('.' :: ext) := by
  obtain ⟨stem, hText⟩ := endsWith_iff.mp h
  rw [String.toList_ofList] at hText
  by_cases hStem : stem = []
  · rw [hStem, List.nil_append] at hText
    exact .inl (by rw [← hText, String.ofList_toList])
  · exact .inr (suffix_of_append rfl hText hStem hExt hDot)

/-- Of a name that is no generated directory and not `keys`, the copy leaves out what
it leaves out of directories only. -/
theorem ignoredName_eq {name : String} (hGenerated : name ∉ generatedDirs)
    (hKeys : name ≠ "keys") : ignoredName name = strayDirectory name := by
  have hExact : (name ∈ ignoredExact) ↔ name ∈ [".mypy_cache", ".ruff_cache", "eval"] := by
    simp only [generatedDirs, List.mem_cons, List.not_mem_nil, or_false, not_or] at hGenerated
    simp only [ignoredExact, List.mem_cons, List.not_mem_nil, or_false]
    grind
  simp only [ignoredName, strayDirectory, strayName, ignoredSuffixes, List.any_cons, List.any_nil,
    Bool.or_false, hExact]
  grind

/-- A file name whose suffix the manifest keeps ends in one of the suffixes only when
it is one. -/
theorem endsWith_kept {root : String} {parts : List String} {ext : List Char} (hExt : ext ≠ [])
    (hDot : '.' ∉ ext) (hKept : (⟨root, parts⟩ : Path).suffix ≠ String.ofList ('.' :: ext)) :
    endsWith (⟨root, parts⟩ : Path).name (String.ofList ('.' :: ext)) =
      decide ((⟨root, parts⟩ : Path).name = String.ofList ('.' :: ext)) := by
  rw [Bool.eq_iff_iff, decide_eq_true_iff]
  constructor
  · intro hEnds
    exact (endsWith_suffix hExt hDot hEnds).resolve_right hKept
  · intro hSame
    rw [hSame]
    exact endsWith_iff.mpr ⟨[], rfl⟩

/-- Apart from secrets and suffixes, the copy leaves out the same names for directories and files.
-/
theorem strayDirectory_eq_strayFile {root : String} {parts : List String}
    (hSecret : secretName (⟨root, parts⟩ : Path).name = false)
    (hSuffix : (⟨root, parts⟩ : Path).suffix ∉ [".pyc", ".sqlite", ".db"]) :
    strayDirectory (⟨root, parts⟩ : Path).name = strayFile (⟨root, parts⟩ : Path).name := by
  simp only [List.mem_cons, List.not_mem_nil, or_false, not_or] at hSuffix
  have hPyc := @endsWith_kept root parts ['p', 'y', 'c'] (by simp) (by decide) hSuffix.1
  have hSqlite := @endsWith_kept root parts ['s', 'q', 'l', 'i', 't', 'e'] (by simp) (by decide)
    hSuffix.2.1
  have hDb := @endsWith_kept root parts ['d', 'b'] (by simp) (by decide) hSuffix.2.2
  have hTexts : String.ofList ['.', 'p', 'y', 'c'] = ".pyc" ∧
      String.ofList ['.', 's', 'q', 'l', 'i', 't', 'e'] = ".sqlite" ∧
      String.ofList ['.', 'd', 'b'] = ".db" := by decide
  rw [hTexts.1] at hPyc
  rw [hTexts.2.1] at hSqlite
  rw [hTexts.2.2] at hDb
  simp only [strayDirectory, strayFile, hSecret, Bool.or_false, List.any_cons, List.any_nil, hPyc,
    hSqlite, hDb]
  grind

/-- The copy leaves out a path that the manifest reads exactly when it is stray. -/
theorem dropped_eq_stray {parts : List String} (hParts : parts ≠ [])
    (h : excludedSource ⟨"", parts⟩ = false) : parts.any ignoredName = stray parts := by
  obtain ⟨dirs, name, rfl⟩ : ∃ dirs name, parts = dirs ++ [name] :=
    ⟨_, _, (List.dropLast_append_getLast hParts).symm⟩
  have hName : (⟨"", dirs ++ [name]⟩ : Path).name = name := by simp [Path.name]
  simp only [excludedSource, Bool.or_eq_false_iff, decide_eq_false_iff_not] at h
  obtain ⟨⟨⟨⟨hGenerated, hEnv⟩, hSecret⟩, hKeys⟩, hSuffix⟩ := h
  have hEach : ∀ p ∈ dirs ++ [name], ignoredName p = strayDirectory p := by
    intro p hp
    refine ignoredName_eq ?_ ?_
    · simpa using List.any_eq_false.mp hGenerated p hp
    · rintro rfl
      rw [List.contains_iff_mem.mpr hp] at hKeys
      cases hKeys
  have hFile : strayDirectory name = strayFile name := by
    have hNoSecret : secretName (⟨"", dirs ++ [name]⟩ : Path).name = false := by
      rw [secretName, Bool.or_eq_false_iff]
      exact ⟨by simpa using hEnv.1, hSecret⟩
    simpa only [hName] using strayDirectory_eq_strayFile hNoSecret hSuffix
  have hDirs : dirs.any ignoredName = dirs.any strayDirectory := by
    rw [Bool.eq_iff_iff, List.any_eq_true, List.any_eq_true]
    refine exists_congr fun p => and_congr_right fun hp => ?_
    rw [hEach p (List.mem_append_left _ hp)]
  rw [stray, List.any_append, hDirs, List.dropLast_concat, List.getLast?_concat]
  simp only [List.any_cons, List.any_nil, Bool.or_false, Option.getD_some, ← hFile]
  rw [hEach name (by simp)]

end Difference

section Manifest

variable {host : Host}

/-- The row of a place in the manifest, unless it is no file or left out. -/
def treeRow (host : Host) (t : FileTree) (parts : List String) : List String :=
  match (t.at? parts).bind FileTree.content? with
  | some content =>
      if excludedSource ⟨"", parts⟩ then []
      else [(⟨"", parts⟩ : Path).text ++ ":" ++ host.sha256 content]
  | none => []

def rowsText (rows : List String) : String := String.join (rows.map (· ++ "\n"))

theorem manifestRow_tree (t : FileTree) (root : Path) (parts : List String) :
    manifestRow host (t.fileSystem root) root (root.under parts) = .ok (treeRow host t parts) := by
  have hRelative : FileTree.relative? root (root.under parts) = some parts := by
    rw [FileTree.relative?, if_pos (root.isRelativeTo_under parts)]
    simp [Path.under]
  have hAt : t.contentAt root (root.under parts) = (t.at? parts).bind FileTree.content? := by
    rw [FileTree.contentAt, hRelative, Option.bind_some]
  have hBelow : below root (root.under parts) = ⟨"", parts⟩ := by simp [below, Path.under]
  cases hContent : (t.at? parts).bind FileTree.content? with
  | none =>
      simp [manifestRow, treeRow, FileSystem.isFile, FileTree.fileSystem, hAt, hContent,
        FileSystem.systemCall, bind, Except.bind, pure, Except.pure]
  | some content =>
      cases hExcluded : excludedSource ⟨"", parts⟩ <;>
        simp [manifestRow, treeRow, FileSystem.isFile, FileTree.fileSystem, hAt, hContent,
          FileSystem.systemCall, bind, Except.bind, pure, Except.pure, hBelow, hExcluded,
          sha256File, FileSystem.readBytes, Functor.map, Except.map]

/-- The manifest of a tree that stands at a root. -/
theorem sourceManifest_tree (t : FileTree) (root : Path) :
    sourceManifest host (t.fileSystem root) root =
      .ok (host.sha256Text (rowsText (t.paths.flatMap (treeRow host t)))) := by
  have hWalk : (t.fileSystem root).walk root = t.paths.map root.under := by
    have hRelative : FileTree.relative? root root = some [] := by
      simp [FileTree.relative?, Path.isRelativeTo]
    simp [FileTree.fileSystem, hRelative, FileTree.at?]
  have hRows : (t.paths.map root.under).mapM (manifestRow host (t.fileSystem root) root) =
      .ok (t.paths.map (treeRow host t)) := by
    rw [mapM_eq_ok, List.forall₂_map_left_iff, List.forall₂_map_right_iff, List.forall₂_same]
    exact fun parts _ => manifestRow_tree t root parts
  simp only [sourceManifest, hWalk, hRows, bind_eq_ok, Except.ok.injEq, exists_eq_left', pure_eq_ok]
  rw [List.flatMap_def]
  rfl

theorem rowsText_toList (rows : List String) :
    (rowsText rows).toList = rows.flatMap fun row => row.toList ++ ['\n'] := by
  rw [rowsText, String.toList_join, List.flatMap_map]
  simp

/-- Leaving items out keeps the text exactly when they have no rows. -/
theorem rowsText_filter_eq_iff {α : Type} (row : α → List String) (keep : α → Bool)
    (items : List α) :
    rowsText ((items.filter keep).flatMap row) = rowsText (items.flatMap row) ↔
      ∀ x ∈ items, keep x = false → row x = [] := by
  let size := fun rows : List String => (rowsText rows).toList.length
  have hAppend : ∀ a b, size (a ++ b) = size a + size b := by
    intro a b
    simp only [size, rowsText_toList, List.flatMap_append, List.length_append]
  have hNil : ∀ rows, size rows = 0 → rows = [] := by
    intro rows hZero
    cases rows with
    | nil => rfl
    | cons r rest => simp [size, rowsText_toList] at hZero
  have hLe : ∀ items : List α,
      size ((items.filter keep).flatMap row) ≤ size (items.flatMap row) := by
    intro items
    induction items with
    | nil => exact le_rfl
    | cons x rest ih =>
        cases hKeep : keep x <;>
          simp only [List.filter_cons, hKeep, Bool.false_eq_true, ↓reduceIte, List.flatMap_cons,
            hAppend] <;> omega
  constructor
  · intro hEq
    have hSize : size ((items.filter keep).flatMap row) = size (items.flatMap row) :=
      congrArg (fun s => s.toList.length) hEq
    clear hEq
    induction items with
    | nil => simp
    | cons x rest ih =>
        have hRest := hLe rest
        rw [List.forall_mem_cons]
        cases hKeep : keep x with
        | true =>
            simp only [List.filter_cons, hKeep, ↓reduceIte, List.flatMap_cons, hAppend] at hSize
            exact ⟨by simp, ih (by omega)⟩
        | false =>
            simp only [List.filter_cons, hKeep, Bool.false_eq_true, ↓reduceIte,
              List.flatMap_cons, hAppend] at hSize
            exact ⟨fun _ => hNil _ (by omega), ih (by omega)⟩
  · intro hNone
    congr 1
    induction items with
    | nil => rfl
    | cons x rest ih =>
        rw [List.forall_mem_cons] at hNone
        cases hKeep : keep x with
        | true => simp [hKeep, ih hNone.2]
        | false => simp [hKeep, hNone.1 hKeep, ih hNone.2]

/-- Every file that the copy leaves out is one that the manifest leaves out: the files
it reads lie on no stray path. -/
def NoStrays (t : SourceTree) : Prop :=
  ∀ parts content, (parts, FileTree.file content) ∈ t.tree.nodes →
    excludedSource ⟨"", parts⟩ = true ∨ stray parts = false

/-- The copy leaves out no row exactly when the tree has no strays. -/
theorem dropped_rows_iff (t : SourceTree) :
    (∀ parts ∈ t.tree.paths, FileTree.keeps ignoredName parts = false →
      treeRow host t.tree parts = []) ↔ NoStrays t := by
  have hKeeps : ∀ parts, FileTree.keeps ignoredName parts = !parts.any ignoredName := by
    intro parts
    rw [FileTree.keeps, List.all_eq_not_any_not]
    simp
  constructor
  · intro h parts content hNode
    rw [or_iff_not_imp_left, Bool.not_eq_true]
    intro hKept
    have hAt : (t.tree.at? parts).bind FileTree.content? = some content := by
      rw [FileTree.at?_of_mem t.distinct hNode]
      rfl
    rw [← dropped_eq_stray (FileTree.nodes_ne_nil _ _ hNode) hKept, ← Bool.not_eq_true]
    intro hDropped
    have hRow := h parts (FileTree.mem_paths.mpr ⟨_, hNode, rfl⟩) (by rw [hKeeps, hDropped]; rfl)
    simp [treeRow, hAt, hKept] at hRow
  · intro h parts hParts hDropped
    obtain ⟨⟨names, u⟩, hNode, rfl⟩ := FileTree.mem_paths.mp hParts
    have hAt := FileTree.at?_of_mem t.distinct hNode
    cases u with
    | dir entries => simp [treeRow, hAt, FileTree.content?]
    | file content =>
        rcases h _ content hNode with hExcluded | hStray
        · simp [treeRow, hAt, FileTree.content?, hExcluded]
        · cases hExcluded : excludedSource ⟨"", names⟩ with
          | true => simp [treeRow, hAt, FileTree.content?, hExcluded]
          | false =>
              rw [hKeeps, dropped_eq_stray (FileTree.nodes_ne_nil _ _ hNode) hExcluded, hStray]
                at hDropped
              cases hDropped

/-- The manifest of a fresh copy is that of its source exactly when the source has no
strays. -/
theorem copied_manifest_iff (hSha : host.CollisionFree) (t : SourceTree) (root copyRoot : Path) :
    sourceManifest host (t.copied.tree.fileSystem copyRoot) copyRoot =
      sourceManifest host (t.tree.fileSystem root) root ↔ NoStrays t := by
  have hRows : t.copied.tree.paths.flatMap (treeRow host t.copied.tree) =
      (t.tree.paths.filter (FileTree.keeps ignoredName)).flatMap (treeRow host t.tree) := by
    rw [← FileTree.paths_dropping]
    refine List.flatMap_congr fun parts hParts => ?_
    rw [treeRow, treeRow, ← FileTree.content?_at?_dropping ignoredName t.distinct hParts]
    rfl
  rw [sourceManifest_tree, sourceManifest_tree, Except.ok.injEq, hRows, ← dropped_rows_iff,
    ← rowsText_filter_eq_iff]
  exact ⟨fun h => hSha.text h, fun h => by rw [h]⟩

def evalTree : SourceTree where
  tree := .dir [("eval", .dir [("notes.md", .file [])])]
  distinct := by decide

/-- A copy without `eval` has another manifest. -/
theorem eval_changes_manifest :
    ¬ ∀ (host : Host) (t : SourceTree) (root copyRoot : Path), host.CollisionFree →
      sourceManifest host (t.copied.tree.fileSystem copyRoot) copyRoot =
        sourceManifest host (t.tree.fileSystem root) root := by
  intro h
  have hSame := h (.digesting hexOfBytes) evalTree ⟨"/", ["src"]⟩ ⟨"/", ["copy"]⟩
    hexOfBytes_injective
  exact absurd hSame (by decide)

theorem evalTree_copied_manifest_iff :
    sourceManifest (.digesting hexOfBytes) (evalTree.copied.tree.fileSystem ⟨"/", ["copy"]⟩)
        ⟨"/", ["copy"]⟩ =
      sourceManifest (.digesting hexOfBytes) (evalTree.tree.fileSystem ⟨"/", ["src"]⟩)
        ⟨"/", ["src"]⟩ ↔ NoStrays evalTree :=
  @copied_manifest_iff (.digesting hexOfBytes) hexOfBytes_injective evalTree _ _

end Manifest
end L0vi0x.Chain
