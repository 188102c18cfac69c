import Mathlib.Data.List.Sort
import L0vi0x.Python.FileSystem

/-! Directory trees without symbolic links: the files below a root, copies that
leave names out, and the file system in which a tree stands at a root. -/
namespace L0vi0x.Python

inductive FileTree
  | file (content : Bytes)
  | dir (entries : List (String × FileTree))

namespace FileTree

/-- Induction over trees, with the hypothesis for every entry. -/
theorem induction {motive : FileTree → Prop} (file : ∀ content, motive (.file content))
    (dir : ∀ entries : List (String × FileTree), (∀ e ∈ entries, motive e.2) →
      motive (.dir entries)) : ∀ t, motive t := by
  intro t
  refine @FileTree.rec motive (fun entries => ∀ e ∈ entries, motive e.2) (fun e => motive e.2)
    file ?_ ?_ ?_ ?_ t
  · exact dir
  · intro e h
    cases h
  · intro head tail hHead hTail e h
    rcases List.mem_cons.mp h with rfl | h
    · exact hHead
    · exact hTail e h
  · intro name t h
    exact h

/-- A place below the root: the names that lead there, and what is there. -/
abbrev Node := List String × FileTree

def Node.within (name : String) (n : Node) : Node := (name :: n.1, n.2)

mutual
def nodes : FileTree → List Node
  | .file _ => []
  | .dir entries => nodesOf entries

def nodesOf : List (String × FileTree) → List Node
  | [] => []
  | (name, t) :: rest => ([name], t) :: (nodes t).map (Node.within name) ++ nodesOf rest
end

mutual
/-- `shutil.copytree(source, target, ignore=ignore)`: in every directory the entries
whose names `ignore` returns are left out. -/
def copytree (ignore : List String → List String) : FileTree → FileTree
  | .file content => .file content
  | .dir entries => .dir (copyEntries ignore (ignore (entries.map (·.1))) entries)

def copyEntries (ignore : List String → List String) (ignored : List String) :
    List (String × FileTree) → List (String × FileTree)
  | [] => []
  | (name, t) :: rest =>
      if name ∈ ignored then copyEntries ignore ignored rest
      else (name, copytree ignore t) :: copyEntries ignore ignored rest
end

/-- What the names lead to. -/
def at? (t : FileTree) (parts : List String) : Option FileTree :=
  if parts = [] then some t else (t.nodes.find? fun n => n.1 = parts).map (·.2)

def content? : FileTree → Option Bytes
  | .file content => some content
  | .dir _ => none

def paths (t : FileTree) : List (List String) := (t.nodes.map (·.1)).insertionSort (· ≤ ·)

/-- The names below the root of a path that leads there. -/
def relative? (root p : Path) : Option (List String) :=
  if p.isRelativeTo root then some (p.parts.drop root.parts.length) else none

/-- The content of the file at a path, when the tree stands at the root. -/
def contentAt (t : FileTree) (root p : Path) : Option Bytes :=
  (relative? root p).bind fun parts => (t.at? parts).bind content?

/-- The file system in which the tree stands at the root. -/
def fileSystem (t : FileTree) (root : Path) : FileSystem where
  real p := p
  resolve p := pure p
  resolve_real := Path.pure_real
  isFileAt p := .ok (t.contentAt root p).isSome
  existsAt p := .ok ((relative? root p).bind t.at?).isSome
  readAt p := match t.contentAt root p with
    | some content => .ok content
    | none => .error ("[Errno 2] No such file or directory: '" ++ p.text ++ "'")
  walk p := match (relative? root p).bind t.at? with
    | some u => u.paths.map p.under
    | none => []

section Nodes

theorem nodes_ne_nil (t : FileTree) : ∀ n ∈ t.nodes, n.1 ≠ [] := by
  cases t with
  | file content => simp [nodes]
  | dir entries =>
      rw [nodes]
      induction entries with
      | nil => simp [nodesOf]
      | cons e rest ih =>
          obtain ⟨name, t⟩ := e
          intro n hn
          rw [nodesOf, List.cons_append, List.mem_cons, List.mem_append, List.mem_map] at hn
          rcases hn with rfl | ⟨m, _, rfl⟩ | hn
          · simp
          · simp [Node.within]
          · exact ih n hn

theorem find?_key_of_mem {α β : Type} [DecidableEq β] {key : α → β} {items : List α}
    (hDistinct : (items.map key).Nodup) {x : α} (h : x ∈ items) :
    items.find? (fun y => key y = key x) = some x := by
  induction items with
  | nil => cases h
  | cons y rest ih =>
      rw [List.map_cons, List.nodup_cons] at hDistinct
      rcases List.mem_cons.mp h with rfl | hRest
      · simp
      · have hNe : key y ≠ key x := by
          intro hEq
          exact hDistinct.1 (hEq ▸ List.mem_map_of_mem hRest)
        rw [List.find?_cons_of_neg (by simpa using hNe)]
        exact ih hDistinct.2 hRest

/-- When no two places have one path, the path of a place leads there. -/
theorem at?_of_mem {t : FileTree} (hDistinct : (t.nodes.map (·.1)).Nodup) {n : Node}
    (h : n ∈ t.nodes) : t.at? n.1 = some n.2 := by
  rw [at?, if_neg (nodes_ne_nil t n h), find?_key_of_mem hDistinct h, Option.map_some]

theorem mem_paths {t : FileTree} {parts : List String} :
    parts ∈ t.paths ↔ ∃ n ∈ t.nodes, n.1 = parts := by
  rw [paths, List.mem_insertionSort, List.mem_map]

end Nodes

section Copies

variable (drop : String → Bool)

/-- The copy that leaves the dropped names out. -/
abbrev dropping (t : FileTree) : FileTree := t.copytree (List.filter drop)

/-- No name on the path is dropped. -/
def keeps (parts : List String) : Bool := parts.all fun name => !drop name

/-- Dropping names leaves the content of a file. -/
theorem content?_dropping (t : FileTree) : (t.dropping drop).content? = t.content? := by
  cases t with
  | file content => rfl
  | dir entries => rfl

/-- A copy has the places on whose paths no name is dropped. -/
theorem nodes_dropping (t : FileTree) :
    (t.dropping drop).nodes =
      (t.nodes.filter fun n => keeps drop n.1).map fun n => (n.1, n.2.dropping drop) := by
  induction t using FileTree.induction with
  | file content => rfl
  | dir entries ih =>
      have hEntries : ∀ (ignored : List String), (∀ e ∈ entries, e.1 ∈ ignored ↔ drop e.1 = true) →
          nodesOf (copyEntries (List.filter drop) ignored entries) =
            ((nodesOf entries).filter fun n => keeps drop n.1).map
              fun n => (n.1, n.2.dropping drop) := by
        intro ignored hIgnored
        induction entries with
        | nil => rfl
        | cons e rest ihRest =>
            obtain ⟨name, t⟩ := e
            rw [List.forall_mem_cons] at ih hIgnored
            have hRest := ihRest ih.2 hIgnored.2
            rw [copyEntries, nodesOf]
            by_cases hDrop : drop name = true
            · have hNone : ((nodes t).map (Node.within name)).filter (fun n => keeps drop n.1) = [] := by
                simp [List.filter_map, Function.comp_def, Node.within, keeps, hDrop]
              rw [if_pos (hIgnored.1.mpr hDrop), hRest, List.cons_append, List.filter_cons,
                List.filter_append, hNone]
              simp [keeps, hDrop]
            · rw [if_neg (fun hMem => hDrop (hIgnored.1.mp hMem)), nodesOf, hRest, ih.1]
              simp [List.filter_map, Function.comp_def, Node.within, keeps, hDrop]
      refine hEntries _ fun e he => ?_
      rw [List.mem_filter, List.mem_map]
      exact ⟨fun h => h.2, fun h => ⟨⟨e, he, rfl⟩, h⟩⟩

/-- Dropping names leaves some of the places. -/
theorem nodes_dropping_sublist (t : FileTree) :
    ((t.dropping drop).nodes.map (·.1)).Sublist (t.nodes.map (·.1)) := by
  rw [nodes_dropping, List.map_map]
  exact List.filter_sublist.map _

/-- The paths of a copy are those on which no name is dropped. -/
theorem paths_dropping (t : FileTree) :
    (t.dropping drop).paths = t.paths.filter (keeps drop) := by
  refine List.Perm.eq_of_pairwise' (List.pairwise_insertionSort _ _)
    ((List.pairwise_insertionSort _ _).filter _) ?_
  refine (List.perm_insertionSort _ _).trans ?_
  rw [nodes_dropping, List.map_map]
  refine List.Perm.trans ?_ ((List.perm_insertionSort (· ≤ ·) (t.nodes.map (·.1))).filter _).symm
  rw [List.filter_map]
  exact .refl _

/-- On a path of the copy, the copy has what the tree has. -/
theorem content?_at?_dropping {t : FileTree} (hDistinct : (t.nodes.map (·.1)).Nodup)
    {parts : List String} (h : parts ∈ (t.dropping drop).paths) :
    ((t.dropping drop).at? parts).bind content? = (t.at? parts).bind content? := by
  obtain ⟨n, hn, rfl⟩ := mem_paths.mp h
  have hCopy := hDistinct.sublist (nodes_dropping_sublist drop t)
  rw [at?_of_mem hCopy hn]
  rw [nodes_dropping] at hn
  obtain ⟨m, hm, rfl⟩ := List.mem_map.mp hn
  rw [at?_of_mem hDistinct (List.mem_filter.mp hm).1]
  exact content?_dropping drop m.2

end Copies
end FileTree
end L0vi0x.Python
