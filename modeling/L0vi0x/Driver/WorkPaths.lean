import L0vi0x.Python.LexicalPath

/-! Paths that are recorded on one side of the container boundary and read on the other: the
work directory of the host stands at `/workspace/task` in the container. -/
namespace L0vi0x.Driver

open L0vi0x.Python

/-- The parts of a path behind those of a directory above it. -/
def relativeTo (p base : Path) : Path := ⟨"", p.parts.drop base.parts.length⟩

def sandboxRoot : Path := ⟨"/", ["workspace", "task"]⟩

/-- `str(path.relative_to(host_root.resolve()))`. -/
def hostRelative (fs : FileSystem) (path hostRoot : Path) : Py String := do
  let host ← fs.resolve hostRoot
  if path.isRelativeTo host then pure (relativeTo path host).text
  else raise .valueError ("'" ++ path.text ++ "' is not in the subpath of '" ++ host.text ++ "'")

def encodeWorkPath (fs : FileSystem) (path hostRoot : Path) : Py String := do
  let resolved ← except (fs.resolve path) (fun _ => true) fun _ => pure path
  if resolved.isRelativeTo sandboxRoot then pure (relativeTo resolved sandboxRoot).text
  else except (hostRelative fs resolved hostRoot) ErrorKind.isValueError fun _ => pure resolved.text

def normalizeMetaPath (fs : FileSystem) (path hostRoot : Path) : Py Path :=
  if path.root = "" then fs.resolve (hostRoot.under path.parts)
  else if path.isRelativeTo sandboxRoot then
    fs.resolve (hostRoot.under (relativeTo path sandboxRoot).parts)
  else except (fs.resolve path) (· == .fileNotFoundError) fun _ => pure path

/-- A path that was recorded on one side and read on the other. -/
def carry (fs : FileSystem) (path hostRoot : Path) : Py Path := do
  let text ← encodeWorkPath fs path hostRoot
  normalizeMetaPath fs (Path.ofText text) hostRoot

section Resolved

/-- A path as `resolve` returns it: from the root on, with no part that leads elsewhere. -/
structure Resolved (p : Path) : Prop where
  root : p.root = "/"
  clean : CleanParts p.parts
  noParent : ".." ∉ p.parts

/-- The place of an absolute path where nothing is a link. -/
def place (p : Path) : Path := ⟨"/", normalParts p.parts⟩

/-- No path leads through a symbolic link, and every absolute path is resolved. -/
def Linkless (fs : FileSystem) : Prop := ∀ p : Path, p.root ≠ "" → fs.resolve p = .ok (place p)

theorem normalParts_append (front : List String) {rest : List String} (h : ".." ∉ rest) :
    normalParts (front ++ rest) = normalParts front ++ rest := by
  rw [normalParts, List.foldl_append]
  change rest.foldl _ (normalParts front) = _
  generalize normalParts front = kept
  induction rest generalizing kept with
  | nil => simp
  | cons part rest ih =>
      rw [List.mem_cons, not_or] at h
      rw [List.foldl_cons, if_neg (Ne.symm h.1), ih h.2, List.append_assoc, List.singleton_append]

theorem place_resolved {p : Path} (h : Resolved p) : place p = p := by
  obtain ⟨root, parts⟩ := p
  have hNormal : normalParts parts = parts := normalParts_append [] h.noParent
  have hRoot : root = "/" := h.root
  rw [place, hNormal, hRoot]

theorem place_under (p : Path) {rest : List String} (h : ".." ∉ rest) :
    place (p.under rest) = (place p).under rest := by
  simp only [place, Path.under, normalParts_append p.parts h]

/-- The text of a relative path is read as the path. -/
theorem ofText_relative {parts : List String} (h : CleanParts parts) :
    Path.ofText (Path.text ⟨"", parts⟩) = ⟨"", parts⟩ := by
  cases parts with
  | nil => decide
  | cons p rest =>
      have hAbsolute := congrArg Path.parts (ofText_text h)
      have hText : (Path.text ⟨"", p :: rest⟩).toList = (joinText "/" (p :: rest)).toList := by
        rw [Path.text, if_neg (by simp), String.toList_append]
        rfl
      have hSlash : (Path.text ⟨"/", p :: rest⟩).toList =
          '/' :: (joinText "/" (p :: rest)).toList := by
        rw [Path.text, if_neg (by simp)]
        change ("/" ++ joinText "/" (p :: rest)).toList = _
        rw [String.toList_append]
        rfl
      obtain ⟨c, cs, hHead, hc⟩ : ∃ c cs, (joinText "/" (p :: rest)).toList = c :: cs ∧ c ≠ '/' := by
        obtain ⟨c, cs, hp, hc⟩ := (h p (List.mem_cons_self ..)).exists_cons
        cases rest with
        | nil => exact ⟨c, cs, hp, hc⟩
        | cons q rest =>
            refine ⟨c, cs ++ ("/" ++ joinText "/" (q :: rest)).toList, ?_, hc⟩
            simp [joinText, hp]
      have hParts : (splitSlash (c :: cs) []).filter (fun part => part ≠ "" ∧ part ≠ ".") =
          p :: rest := by
        simpa [Path.ofText, hSlash, hHead, splitSlash] using hAbsolute
      unfold Path.ofText
      rw [hText, hHead, hParts]
      refine congrArg (fun root => Python.Path.mk root (p :: rest)) ?_
      split
      · simp_all
      · simp_all
      · simp_all
      · rfl

/-- A path is the directory above it and the parts behind. -/
theorem under_relativeTo {p base : Path} (h : p.isRelativeTo base = true) :
    base.under (relativeTo p base).parts = p := by
  obtain ⟨root, parts⟩ := p
  simp only [Path.isRelativeTo, Bool.and_eq_true, decide_eq_true_eq,
    List.isPrefixOf_iff_prefix] at h
  obtain ⟨rfl, rest, rfl⟩ := h
  simp [Path.under, relativeTo]

end Resolved

section Boundary

variable {fs : FileSystem} {hostRoot path : Path}

/-- A path at or under the work directory comes back as it was, and a path at or under the
container's work directory alone as the one that stands there on the host. -/
def Survives (fs : FileSystem) (path hostRoot : Path) : Prop :=
  (path.isRelativeTo (place hostRoot) = true → carry fs path hostRoot = .ok path) ∧
    (path.isRelativeTo sandboxRoot = true → path.isRelativeTo (place hostRoot) = false →
      carry fs path hostRoot =
        .ok ((place hostRoot).under (relativeTo path sandboxRoot).parts))

/-- What is recorded below a base is read below the work directory. -/
theorem normalize_relative (hFs : Linkless fs) (hHost : hostRoot.root ≠ "") (hPath : Resolved path)
    (base : Path) :
    normalizeMetaPath fs (Path.ofText (relativeTo path base).text) hostRoot =
      .ok ((place hostRoot).under (relativeTo path base).parts) := by
  have hClean : CleanParts (relativeTo path base).parts :=
    fun part hPart => hPath.clean part (List.mem_of_mem_drop hPart)
  have hNoParent : ".." ∉ (relativeTo path base).parts :=
    fun hPart => hPath.noParent (List.mem_of_mem_drop hPart)
  have hText : Path.ofText (relativeTo path base).text = relativeTo path base :=
    ofText_relative hClean
  have hRelative : (relativeTo path base).root = "" := rfl
  rw [hText, normalizeMetaPath, if_pos hRelative, hFs (hostRoot.under _) hHost,
    place_under hostRoot hNoParent]

/-- A resolved path is written as it lies under either work directory, or as it is. -/
theorem encode_resolved (hFs : Linkless fs) (hHost : hostRoot.root ≠ "") (hPath : Resolved path) :
    encodeWorkPath fs path hostRoot = .ok (
      if path.isRelativeTo sandboxRoot then (relativeTo path sandboxRoot).text
      else if path.isRelativeTo (place hostRoot) then (relativeTo path (place hostRoot)).text
      else path.text) := by
  have hResolve : fs.resolve path = .ok path := by
    rw [hFs path (by rw [hPath.root]; decide), place_resolved hPath]
  have hHostResolve := hFs hostRoot hHost
  rw [encodeWorkPath, hResolve]
  change (if path.isRelativeTo sandboxRoot then _ else _) = _
  by_cases hSandbox : path.isRelativeTo sandboxRoot = true
  · rw [if_pos hSandbox, if_pos hSandbox]
    rfl
  · rw [if_neg hSandbox, if_neg hSandbox, hostRelative, hHostResolve]
    by_cases hUnder : path.isRelativeTo (place hostRoot) = true
    · rw [if_pos hUnder]
      change except (if path.isRelativeTo (place hostRoot) then _ else _) _ _ = _
      rw [if_pos hUnder]
      rfl
    · rw [if_neg hUnder]
      change except (if path.isRelativeTo (place hostRoot) then _ else _) _ _ = _
      rw [if_neg hUnder]
      rfl

/-- A path under the container's work directory comes back under the host's. -/
theorem carry_sandbox (hFs : Linkless fs) (hHost : hostRoot.root ≠ "") (hPath : Resolved path)
    (h : path.isRelativeTo sandboxRoot = true) :
    carry fs path hostRoot = .ok ((place hostRoot).under (relativeTo path sandboxRoot).parts) := by
  rw [carry, encode_resolved hFs hHost hPath, if_pos h]
  exact normalize_relative hFs hHost hPath sandboxRoot

/-- A path under the host's work directory comes back as it was. -/
theorem carry_host (hFs : Linkless fs) (hHost : hostRoot.root ≠ "") (hPath : Resolved path)
    (hSandbox : ¬ path.isRelativeTo sandboxRoot = true)
    (h : path.isRelativeTo (place hostRoot) = true) : carry fs path hostRoot = .ok path := by
  rw [carry, encode_resolved hFs hHost hPath, if_neg hSandbox, if_pos h]
  refine (normalize_relative hFs hHost hPath (place hostRoot)).trans ?_
  rw [under_relativeTo h]

/-- A path comes through unless it lies under both directories and these are not the same. -/
theorem survives_iff (hFs : Linkless fs) (hHost : hostRoot.root ≠ "") (hPath : Resolved path) :
    Survives fs path hostRoot ↔ ¬ (path.isRelativeTo (place hostRoot) = true ∧
      path.isRelativeTo sandboxRoot = true ∧ place hostRoot ≠ sandboxRoot) := by
  constructor
  · rintro ⟨hBack, -⟩ ⟨hUnder, hSandbox, hNe⟩
    -- What comes back stands below the work directory as the path stands below the other.
    have hSame := (hBack hUnder).symm.trans (carry_sandbox hFs hHost hPath hSandbox)
    have hUnderBoth : sandboxRoot.under (relativeTo path sandboxRoot).parts =
        (place hostRoot).under (relativeTo path sandboxRoot).parts := by
      rw [under_relativeTo hSandbox]
      exact Except.ok.inj hSame
    have hParts := List.append_cancel_right (congrArg Path.parts hUnderBoth)
    apply hNe
    rw [place, show normalParts hostRoot.parts = sandboxRoot.parts from hParts.symm]
    rfl
  · intro hNot
    refine ⟨fun hUnder => ?_, fun hSandbox _ => carry_sandbox hFs hHost hPath hSandbox⟩
    by_cases hSandbox : path.isRelativeTo sandboxRoot = true
    · have hSame : place hostRoot = sandboxRoot := by
        by_contra hNe
        exact hNot ⟨hUnder, hSandbox, hNe⟩
      rw [carry_sandbox hFs hHost hPath hSandbox, hSame, under_relativeTo hSandbox]
    · exact carry_host hFs hHost hPath hSandbox hUnder

end Boundary

section Samples

def emptyFiles : FileSystem := MemoryFiles.lexical []

theorem emptyFiles_linkless : Linkless emptyFiles := by
  intro p hRoot
  change Except.ok (⟨"/", located "/" p⟩ : Python.Path) = _
  rw [located, if_neg hRoot]
  rfl

/-- An absolute text without a step up is a resolved path. -/
theorem resolved_ofText {s : String} (hRoot : (Path.ofText s).root = "/")
    (h : ".." ∉ (Path.ofText s).parts) : Resolved (Path.ofText s) :=
  ⟨hRoot, cleanParts_ofText s, h⟩

/-- A replay of the container is found on the host. -/
theorem replay_survives :
    Survives emptyFiles (Path.ofText "/workspace/task/replays/a") (Path.ofText "/srv/m1b") :=
  (survives_iff emptyFiles_linkless (by decide) (resolved_ofText (by decide) (by decide))).mpr
    (by decide)

/-- Where the work directory lies in that of the container, a path below it comes back with the
parts between them doubled. -/
theorem nested_lost : ¬ Survives emptyFiles (Path.ofText "/workspace/task/eval/run")
    (Path.ofText "/workspace/task/eval") := by
  rintro ⟨hBack, -⟩
  have hPath := @resolved_ofText "/workspace/task/eval/run" (by decide) (by decide)
  have hCarried := @carry_sandbox emptyFiles (Path.ofText "/workspace/task/eval") _
    emptyFiles_linkless (by decide) hPath (by decide)
  exact absurd (Except.ok.inj ((hBack (by decide)).symm.trans hCarried)) (by decide)

end Samples
end L0vi0x.Driver
