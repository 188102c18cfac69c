import L0vi0x.Python.Disk

/-! File operations of an agent below its allowed roots, and when they keep to them.
The check is made of the target alone; the parents of the target and its temporary
neighbour are touched without one. -/
namespace L0vi0x.Agents

open L0vi0x.Python

/-- `path.parents`, the nearest first. -/
def parents (p : Location) : List Location := (List.range p.length).reverse.map p.take

def withName (p : Location) (name : String) : Py Location :=
  if p = [] then raise .valueError "PosixPath('/') has an empty name"
  else pure (p.dropLast ++ [name])

def leafName (p : Location) : String := p.getLast?.getD ""

structure SandboxFS where
  roots : List Location
  nonempty : roots ≠ []

namespace SandboxFS

/-- `Path(r).resolve()` of an allowed root. -/
def resolveRoot (cwd : Location) (r : Path) : Sys Location := Sys.lift fun d =>
  match d.resolve ((if r.root = "" then cwd else []) ++ r.parts) with
  | some root => pure root
  | none => raise .runtimeError "Symlink loop"

def init (cwd : Location) : List Path → Sys SandboxFS
  | [] => Sys.lift fun _ => raise .valueError "at least one allowed root is required"
  | first :: rest => do
      let root ← resolveRoot cwd first
      let others ← rest.mapM (resolveRoot cwd)
      (root :: others).forM fun p => Sys.makeDirs p.reverse
      pure ⟨root :: others, List.cons_ne_nil _ _⟩

variable (fs : SandboxFS)

def inside (path : Path) (forWrite : Bool) (d : Disk) : Py Location := do
  raiseIf (path.root = "") .sandboxPathError "sandbox paths must be absolute"
  raiseIf (path.parts.any (·.toList.contains '\x00')) .valueError "embedded null byte"
  match d.resolve path.parts with
  | none => raise .runtimeError ("Symlink loop from " ++ path.text)
  | some target => do
      raiseIf (!fs.roots.any fun root => (target :: parents target).any fun p =>
        root = p || root ∈ parents p) .sandboxPathError
        ("path escapes sandbox roots: " ++ path.text)
      raiseIf (forWrite && d.pathExists path.parts && d.isSymlink path.parts) .sandboxPathError
        "writing through a symlink is forbidden"
      pure target

def readText (path : Path) : Sys String := do
  let target ← Sys.lift (fs.inside path false)
  Sys.lift fun d => raiseIf (!d.isFile target) .fileNotFoundError ("/" ++ joinText "/" target)
  Sys.readText target

/-- The end of `write_text`: the text goes to a neighbour that then replaces the target. -/
def replaceText (target : Location) (content : String) : Sys Location := do
  let tmp ← Sys.lift fun _ => withName target (leafName target ++ ".tmp")
  let there ← Sys.lift fun d => pure (d.pathExists tmp || d.isSymlink tmp)
  Sys.onlyIf there (Sys.unlink tmp)
  Sys.writeText tmp content
  Sys.replaceFile tmp target
  pure target

def writeText (path : Path) (content : String) : Sys Location := do
  let target ← Sys.lift (fs.inside path true)
  Sys.makeDirs target.dropLast.reverse
  replaceText target content

/-- Below an allowed root, or one. -/
def Covers (p : Location) : Prop := ∃ root ∈ fs.roots, root <+: p

instance (p : Location) : Decidable (fs.Covers p) := by unfold Covers; infer_instance

section Check

theorem mem_parents {p q : Location} : q ∈ parents p ↔ q <+: p ∧ q ≠ p := by
  simp only [parents, List.mem_map, List.mem_reverse, List.mem_range]
  constructor
  · rintro ⟨n, hn, rfl⟩
    refine ⟨List.take_prefix n p, fun hSame => ?_⟩
    have hLength := congrArg List.length hSame
    rw [List.length_take] at hLength
    omega
  · rintro ⟨hPrefix, hNe⟩
    refine ⟨q.length, ?_, (List.prefix_iff_eq_take.mp hPrefix).symm⟩
    rcases Nat.lt_or_ge q.length p.length with h | h
    · exact h
    · exact absurd (hPrefix.eq_of_length_le h) hNe

variable {fs}

/-- The test on the target and its parents says that a root covers it. -/
theorem any_parents_iff {target : Location} :
    (fs.roots.any fun root => (target :: parents target).any fun p =>
      root = p || root ∈ parents p) = true ↔ fs.Covers target := by
  simp only [List.any_eq_true, Bool.or_eq_true, decide_eq_true_eq, Covers, List.mem_cons,
    mem_parents]
  constructor
  · rintro ⟨root, hRoot, p, hp, hAt⟩
    have hTarget : p <+: target := hp.elim (fun h => h ▸ List.prefix_rfl) (·.1)
    exact ⟨root, hRoot, hAt.elim (fun h => h ▸ hTarget) fun h => h.1.trans hTarget⟩
  · rintro ⟨root, hRoot, hPrefix⟩
    refine ⟨root, hRoot, target, .inl rfl, ?_⟩
    by_cases hSame : root = target
    · exact .inl hSame
    · exact .inr ⟨hPrefix, hSame⟩

theorem Covers.mono {p q : Location} (h : fs.Covers p) (hPrefix : p <+: q) : fs.Covers q := by
  obtain ⟨root, hRoot, hp⟩ := h
  exact ⟨root, hRoot, hp.trans hPrefix⟩

/-- A target that passes the check is resolved, and covered by a root. -/
theorem inside_eq_ok {path : Path} {forWrite : Bool} {d : Disk} {target : Location}
    (h : fs.inside path forWrite d = .ok target) : d.Resolved target ∧ fs.Covers target := by
  simp only [inside, bind_eq_ok, raiseIf_eq_ok] at h
  obtain ⟨_, _, _, _, h⟩ := h
  split at h
  · simp at h
  · rename_i q hq
    simp only [bind_eq_ok, raiseIf_eq_ok, pure_eq_ok, Bool.not_eq_false'] at h
    obtain ⟨_, hCovers, _, _, rfl⟩ := h
    exact ⟨Disk.resolve_resolved hq, any_parents_iff.mp hCovers⟩

end Check

/-- Nothing outside the roots has been created, modified, deleted or read. -/
structure Confined (before : Disk) (after : World) : Prop where
  untouched : ∀ a ∈ after.accesses, fs.Covers a.location
  unchanged : ∀ p, ¬fs.Covers p → after.disk.entry p = before.entry p

def neighbour (target : Location) : Location := target.dropLast ++ [leafName target ++ ".tmp"]

/-- What is at a location can be replaced by a new file. -/
def Replaceable (d : Disk) (p : Location) : Prop :=
  match d.entry p with
  | none => d.refuses (.create p) = false
  | some .dir => False
  | some _ => d.refuses (.delete p) = false

/-- The target passes the check, and either the first of its parents to be made lies
outside the roots, as when a root is gone, or its neighbour does, as when it is a root. -/
def Escapes (d : Disk) (path : Path) : Prop :=
  ∃ target, fs.inside path true d = .ok target ∧
    ((∃ top, Sys.topMissing d target.dropLast.reverse = some top ∧ ¬fs.Covers top ∧
        d.refuses (.create top) = false) ∨
      (d.entry target.dropLast = some .dir ∧ ¬fs.Covers (neighbour target) ∧
        Replaceable d (neighbour target)))

section Replacing

variable {w v : World} {target : Location}

theorem append_tmp_ne (name : String) : name ++ ".tmp" ≠ ".." := by
  intro h
  have hLength := congrArg (fun s => s.toList.length) h
  simp only [String.toList_append, List.length_append] at hLength
  have hTmp : ".tmp".toList.length = 4 := by decide
  have hUp : "..".toList.length = 2 := by decide
  omega

/-- A neighbour lies in the directory of its target. -/
theorem neighbour_dropLast : (neighbour target).dropLast = target.dropLast := by simp [neighbour]

theorem neighbour_names (h : ".." ∉ target) : ".." ∉ neighbour target := by
  simp only [neighbour, List.mem_append, List.mem_singleton, not_or]
  exact ⟨fun hMem => h (List.mem_of_mem_dropLast hMem), (append_tmp_ne _).symm⟩

/-- The neighbour of a resolved target is located where it is. -/
theorem neighbour_located {d : Disk} (h : d.Resolved target) :
    d.located (neighbour target) = some (neighbour target) :=
  Disk.located_of_resolved (by rw [neighbour_dropLast]; exact h.dropLast) (neighbour_names h.names)

/-- The neighbour of a resolved target is resolved unless it is a link. -/
theorem neighbour_resolved {d : Disk} (h : d.Resolved target)
    (hNoLink : ∀ next, d.entry (neighbour target) ≠ some (.link next)) :
    d.Resolved (neighbour target) :=
  ⟨h.dropLast.unlinked.concat hNoLink, neighbour_names h.names⟩

/-- The test before `unlink` asks whether anything is there. -/
theorem there_iff {d : Disk} (h : d.Resolved target) :
    (d.pathExists (neighbour target) || d.isSymlink (neighbour target)) = true ↔
      (d.entry (neighbour target)).isSome := by
  have hLocated := neighbour_located h
  cases hEntry : d.entry (neighbour target) with
  | none =>
      have hResolved := neighbour_resolved h (by simp [hEntry])
      simp [Disk.pathExists, Disk.isSymlink, Disk.lookup_of_resolved hResolved, hLocated, hEntry]
  | some e =>
      cases e with
      | link next => simp [Disk.isSymlink, hLocated, hEntry]
      | dir =>
          have hResolved := neighbour_resolved h (by simp [hEntry])
          simp [Disk.pathExists, Disk.lookup_of_resolved hResolved, hEntry]
      | file content =>
          have hResolved := neighbour_resolved h (by simp [hEntry])
          simp [Disk.pathExists, Disk.lookup_of_resolved hResolved, hEntry]

/-- What `replaceText` does to a target that has a name. -/
theorem replaceText_run (h : w.disk.Resolved target) (hNe : target ≠ []) (content : String) :
    replaceText target content w = (do
      Sys.onlyIf (w.disk.entry (neighbour target)).isSome (Sys.unlink (neighbour target))
      Sys.writeText (neighbour target) content
      Sys.replaceFile (neighbour target) target
      pure target : Sys Location) w := by
  have hName : (Sys.lift fun _ => withName target (leafName target ++ ".tmp")) w =
      (.ok (neighbour target), w) := by
    simp only [Sys.lift, withName, if_neg hNe]
    rfl
  have hThere : (Sys.lift fun d => pure (d.pathExists (neighbour target) ||
      d.isSymlink (neighbour target))) w =
        (.ok (w.disk.entry (neighbour target)).isSome, w) := by
    have hSame := Bool.eq_iff_iff.mpr (there_iff h)
    simp only [Sys.lift, hSame]
    rfl
  rw [replaceText, Act.bind_ok hName, Act.bind_ok hThere]

/-- The neighbour and the target are all that `replaceText` touches. -/
theorem replaceText_touches {s : Set Location} (h : w.disk.Resolved target)
    (hNeighbour : neighbour target ∈ s) (hTarget : target ∈ s) (content : String) :
    Sys.Touches s w (replaceText target content w).2 := by
  by_cases hNe : target = []
  · have hName : (Sys.lift fun _ => withName target (leafName target ++ ".tmp")) w =
        (raise .valueError "PosixPath('/') has an empty name", w) := by
      simp only [Sys.lift, withName, if_pos hNe]
    rw [replaceText, Act.bind_error hName]
    exact .refl w
  rw [replaceText_run h hNe]
  -- what stands after the neighbour is out of the way
  have hRest : ∀ v, v.disk.Resolved target → v.disk.entry (neighbour target) = none →
      Sys.Touches s v ((do
        Sys.writeText (neighbour target) content
        Sys.replaceFile (neighbour target) target
        pure target : Sys Location) v).2 := by
    intro v hv hGone
    have hWrite := Sys.writeText_acts (neighbour_resolved hv (by simp [hGone])) hNeighbour content
    refine Sys.Touches.bind hWrite.touches fun _ _ => ?_
    refine Sys.Touches.bind (Sys.replaceFile_touches ?_ ?_ hNeighbour hTarget) fun _ _ => .refl _
    · exact neighbour_located (hWrite.resolved _ hv)
    · exact Disk.located_of_resolved (hWrite.resolved _ hv).dropLast hv.names
  cases hThere : (w.disk.entry (neighbour target)).isSome with
  | false => exact hRest w h (by simpa using hThere)
  | true =>
      have hLocated := neighbour_located h
      have hUnlink := Sys.unlink_acts hLocated hNeighbour
      refine Sys.Touches.bind (hUnlink.touches)  fun _ hOk => ?_
      exact hRest _ (hUnlink.resolved _ h) (Sys.unlink_gone hLocated hOk)

/-- Where the neighbour cannot be replaced, nothing is done. -/
theorem replaceText_stopped (h : w.disk.Resolved target) (hNe : target ≠ [])
    (hDir : w.disk.entry target.dropLast = some .dir)
    (hNot : ¬Replaceable w.disk (neighbour target)) (content : String) :
    (replaceText target content w).2 = w := by
  rw [replaceText_run h hNe]
  unfold Replaceable at hNot
  cases hEntry : w.disk.entry (neighbour target) with
  | none =>
      have hWrite := Sys.writeText_resolved (neighbour_resolved h (by simp [hEntry])) content
      have hCreate : Sys.perform (.create (neighbour target)) (some (.file [])) w =
          (raise .osError "Permission denied", w) := by
        rw [hEntry] at hNot
        rw [Sys.perform, if_pos (by simpa using hNot)]
      rw [hEntry, neighbour_dropLast, hDir] at hWrite
      have hError := hWrite.trans (Act.bind_error hCreate)
      have hSkip : Sys.onlyIf (none : Option DiskEntry).isSome (Sys.unlink (neighbour target)) w =
          (.ok (), w) := rfl
      rw [Act.bind_ok hSkip, Act.bind_error hError]
  | some e =>
      have hUnlink := Sys.unlink_located (neighbour_located h)
      have hStop : ∃ error, Sys.unlink (neighbour target) w = (.error error, w) := by
        rw [hUnlink, hEntry]
        rw [hEntry] at hNot
        cases e with
        | dir => exact ⟨_, rfl⟩
        | _ =>
            refine ⟨⟨.osError, "Permission denied"⟩, ?_⟩
            rw [Sys.perform, if_pos (by simpa using hNot)]
            rfl
      obtain ⟨error, hError⟩ := hStop
      have hTaken : Sys.onlyIf (some e).isSome (Sys.unlink (neighbour target)) w =
          (.error error, w) := hError
      rw [Act.bind_error hTaken]

/-- The end of a write acts through logged calls only. -/
theorem replaceText_logs (target : Location) (content : String) :
    Sys.Logs (replaceText target content) := by
  refine (Sys.Logs.lift _).bind fun tmp => (Sys.Logs.lift _).bind fun there => ?_
  refine (Sys.Logs.onlyIf there (.unlink _)).bind fun _ => ?_
  exact (Sys.Logs.writeText _ _).bind fun _ => (Sys.Logs.replaceFile _ _).bind fun _ => .pure _

/-- Where it can, it is touched, whatever happens after. -/
theorem replaceText_uses (h : w.disk.Resolved target) (hNe : target ≠ [])
    (hDir : w.disk.entry target.dropLast = some .dir)
    (hFree : Replaceable w.disk (neighbour target)) (content : String) :
    ∃ a ∈ (replaceText target content w).2.accesses, a.location = neighbour target := by
  have hEnd : ∀ u : Unit, Sys.Logs (do
      Sys.replaceFile (neighbour target) target
      pure target : Sys Location) := fun _ => (Sys.Logs.replaceFile _ _).bind fun _ => .pure _
  rw [replaceText_run h hNe]
  unfold Replaceable at hFree
  cases hEntry : w.disk.entry (neighbour target) with
  | none =>
      rw [hEntry] at hFree
      have hWrite := Sys.writeText_resolved (neighbour_resolved h (by simp [hEntry])) content
      rw [hEntry, neighbour_dropLast, hDir] at hWrite
      have hSkip : Sys.onlyIf (none : Option DiskEntry).isSome (Sys.unlink (neighbour target)) w =
          (.ok (), w) := rfl
      rw [Act.bind_ok hSkip]
      refine ⟨.create (neighbour target), Sys.mem_accesses_bind ?_ hEnd, rfl⟩
      rw [hWrite]
      exact Sys.mem_accesses_bind (Sys.mem_accesses_perform hFree) fun _ => .perform _ _
  | some e =>
      have hUnlink := Sys.unlink_located (neighbour_located h)
      rw [hEntry] at hFree hUnlink
      have hDeleted : .delete (neighbour target) ∈ (Sys.unlink (neighbour target) w).2.accesses := by
        rw [hUnlink]
        cases e with
        | dir => exact hFree.elim
        | file old => exact Sys.mem_accesses_perform hFree
        | link next => exact Sys.mem_accesses_perform hFree
      refine ⟨.delete (neighbour target), Sys.mem_accesses_bind hDeleted fun u => ?_, rfl⟩
      exact (Sys.Logs.writeText _ _).bind hEnd

end Replacing

section Calls

variable {d : Disk} {path : Path}

variable {fs}

/-- A call that is logged is confined when it touches only what the roots cover. -/
theorem confined_iff {α : Type} {call : Sys α} (h : Sys.Logs call) :
    fs.Confined d (call ⟨d, []⟩).2 ↔ Sys.Touches {p | fs.Covers p} ⟨d, []⟩ (call ⟨d, []⟩).2 := by
  obtain ⟨more, hMore, hFrame⟩ := h ⟨d, []⟩
  rw [List.nil_append] at hMore
  constructor
  · rintro ⟨hIn, _⟩
    exact ⟨more, by rw [hMore, List.nil_append], hMore ▸ hIn⟩
  · rintro ⟨own, hOwn, hIn⟩
    rw [List.nil_append, hMore] at hOwn
    refine ⟨hMore ▸ hOwn ▸ hIn, fun p hp => hFrame p fun hMem => ?_⟩
    obtain ⟨a, ha, rfl⟩ := List.mem_map.mp hMem
    exact hp (hIn a (hOwn ▸ ha))

theorem readText_logs (path : Path) : Sys.Logs (fs.readText path) :=
  (Sys.Logs.lift _).bind fun _ => (Sys.Logs.lift _).bind fun _ => .readText _

theorem writeText_logs (path : Path) (content : String) : Sys.Logs (fs.writeText path content) :=
  (Sys.Logs.lift _).bind fun _ => (Sys.Logs.makeDirs _).bind fun _ => replaceText_logs _ _

/-- Reading keeps to the roots. -/
theorem readText_touches (w : World) (path : Path) :
    Sys.Touches {p | fs.Covers p} w (fs.readText path w).2 := by
  refine Sys.Touches.bind (.refl w) fun target hTarget => ?_
  obtain ⟨hResolved, hCovers⟩ := inside_eq_ok hTarget
  refine Sys.Touches.bind (.refl _) fun _ _ => ?_
  exact Sys.readText_touches hResolved hCovers

/-- The disk of a machine: every entry lies in a directory. -/
structure DirectoryTree where
  disk : Disk
  root : disk.entry [] = some .dir
  parents : ∀ p e, disk.entry p = some e → disk.entry p.dropLast = some .dir

variable {t : DirectoryTree}

theorem topMissing_none {names : List String} (h : t.disk.entry names.reverse = some .dir) :
    Sys.topMissing t.disk names = none := by
  cases names with
  | nil => rfl
  | cons name up =>
      have hUp := t.parents _ _ h
      rw [List.reverse_cons, List.dropLast_concat] at hUp
      rw [Sys.topMissing, hUp]
      simp only [h, Option.isSome_some, ↓reduceIte]

/-- A call that escapes acts on a location outside the roots. -/
theorem writeText_outside (h : fs.Escapes t.disk path) (content : String) :
    ∃ a ∈ (fs.writeText path content ⟨t.disk, []⟩).2.accesses, ¬fs.Covers a.location := by
  obtain ⟨target, hInside, hOut⟩ := h
  obtain ⟨hResolved, hCovers⟩ := inside_eq_ok hInside
  have hLift : Sys.lift (fs.inside path true) ⟨t.disk, []⟩ = (.ok target, ⟨t.disk, []⟩) := by
    simp only [Sys.lift, hInside]
  have hUp : t.disk.Resolved target.dropLast.reverse.reverse := by
    rw [List.reverse_reverse]
    exact hResolved.dropLast
  rw [writeText, Act.bind_ok hLift]
  rcases hOut with ⟨top, hTop, hOutside, hAllowed⟩ | ⟨hDir, hOutside, hFree⟩
  · obtain ⟨created, hMade⟩ :=
      (@Sys.makeDirs_makes ⟨t.disk, []⟩ target.dropLast.reverse hUp).made
    refine ⟨.create top, Sys.mem_accesses_bind ?_ fun _ => replaceText_logs _ _, hOutside⟩
    rw [hMade.accesses]
    exact List.mem_append_right _ (List.mem_map_of_mem (hMade.first top hTop hAllowed))
  · have hKept := @Sys.makeDirs_present ⟨t.disk, []⟩ target.dropLast.reverse hUp
      (by rw [List.reverse_reverse]; exact hDir)
      (by rw [List.reverse_reverse]; exact t.parents _ _ hDir)
    have hNe : target ≠ [] := by
      rintro rfl
      exact hOutside (hCovers.mono List.nil_prefix)
    obtain ⟨a, ha, hAt⟩ := @replaceText_uses ⟨t.disk, []⟩ target hResolved hNe hDir hFree content
    rw [Act.bind_ok hKept]
    exact ⟨a, ha, hAt ▸ hOutside⟩

/-- A call that does not escape keeps to the roots. -/
theorem writeText_touches (h : ¬fs.Escapes t.disk path) (content : String) :
    Sys.Touches {p | fs.Covers p} ⟨t.disk, []⟩ (fs.writeText path content ⟨t.disk, []⟩).2 := by
  refine Sys.Touches.bind (.refl _) fun target hInside => ?_
  obtain ⟨hResolved, hCovers⟩ := inside_eq_ok hInside
  have hUp : t.disk.Resolved target.dropLast.reverse.reverse := by
    rw [List.reverse_reverse]
    exact hResolved.dropLast
  have hMakes := @Sys.makeDirs_makes ⟨t.disk, []⟩ target.dropLast.reverse hUp
  obtain ⟨created, hMade⟩ := hMakes.made
  have hCreated : ∀ q ∈ created, fs.Covers q := by
    intro q hq
    obtain ⟨_, top, hTop, hAllowed, hBelow⟩ := hMade.below q hq
    by_contra hOut
    exact h ⟨target, hInside, .inl ⟨top, hTop, fun hIn => hOut (hIn.mono hBelow), hAllowed⟩⟩
  have hActs := hMade.acts hCreated
  refine Sys.Touches.bind hActs.touches fun _ hOk => ?_
  have hResolved' := hActs.resolved _ hResolved
  by_cases hNear : fs.Covers (neighbour target)
  · exact replaceText_touches hResolved' hNear hCovers content
  -- the neighbour is outside, so the parent was there and nothing has been made
  have hParent := hMakes.dir hOk
  rw [List.reverse_reverse] at hParent
  have hOld : target.dropLast ∉ created := fun hMem =>
    hNear ((hCreated _ hMem).mono (List.prefix_append _ _))
  have hDir : t.disk.entry target.dropLast = some .dir := by
    have hSame := hMade.entries target.dropLast
    rw [if_neg hOld] at hSame
    exact hSame.symm.trans hParent
  have hTop := @topMissing_none t target.dropLast.reverse
    (by rw [List.reverse_reverse]; exact hDir)
  have hNothing : created = [] := by
    rw [List.eq_nil_iff_forall_not_mem]
    intro q hq
    obtain ⟨_, top, hEq, _⟩ := hMade.below q hq
    rw [hTop] at hEq
    cases hEq
  have hNe : target ≠ [] := by
    rintro rfl
    exact hNear (hCovers.mono List.nil_prefix)
  have hTaken : ¬Replaceable (Sys.makeDirs target.dropLast.reverse ⟨t.disk, []⟩).2.disk
      (neighbour target) := by
    intro hFree
    refine h ⟨target, hInside, .inr ⟨hDir, hNear, ?_⟩⟩
    have hSame := hMade.entries (neighbour target)
    rw [hNothing, if_neg List.not_mem_nil] at hSame
    simpa only [Replaceable, hSame, hMade.refuses] using hFree
  have hStop := replaceText_stopped hResolved' hNe hParent hTaken content
  exact ⟨[], by rw [List.append_nil]; exact congrArg World.accesses hStop, by simp⟩

/-- Reading keeps to the roots, and writing does exactly when it does not escape. -/
theorem calls_confined_iff (fs : SandboxFS) (t : DirectoryTree) (path : Path) (content : String) :
    (fs.Confined t.disk (fs.readText path ⟨t.disk, []⟩).2 ∧
      fs.Confined t.disk (fs.writeText path content ⟨t.disk, []⟩).2) ↔
        ¬fs.Escapes t.disk path := by
  constructor
  · rintro ⟨_, hConfined⟩ hEscapes
    obtain ⟨a, ha, hOut⟩ := writeText_outside hEscapes content
    exact hOut (hConfined.untouched a ha)
  · intro hNot
    exact ⟨(confined_iff (readText_logs path)).mpr (readText_touches _ path),
      (confined_iff (writeText_logs path content)).mpr (writeText_touches hNot content)⟩

/-- A root directory, and a file beside it. -/
def jailDisk : Disk where
  entry p :=
    if p = [] ∨ p = ["jail"] then some .dir
    else if p = ["jail.tmp"] then some (.file [])
    else none
  refuses _ := false
  linkDepth := 40

def jailTree : DirectoryTree where
  disk := jailDisk
  root := rfl
  parents p e hEntry := by
    simp only [jailDisk] at hEntry
    split at hEntry
    · rename_i hp
      rcases hp with rfl | rfl <;> rfl
    · split at hEntry
      · rename_i hp
        rw [hp]
        rfl
      · cases hEntry

/-- Writing to a root deletes the neighbour of the root and puts the text there; only
then does the replacement fail. -/
theorem write_to_root_not_confined :
    ¬∀ (fs : SandboxFS) (t : DirectoryTree) (path : Path) (content : String), path.root ≠ "" →
      fs.Confined t.disk (fs.readText path ⟨t.disk, []⟩).2 ∧
        fs.Confined t.disk (fs.writeText path content ⟨t.disk, []⟩).2 := by
  intro h
  obtain ⟨_, hWrite⟩ := h ⟨[["jail"]], List.cons_ne_nil _ _⟩ jailTree ⟨"/", ["jail"]⟩ "x"
    (by decide)
  have hOut := hWrite.untouched (.delete ["jail.tmp"]) (by decide)
  exact absurd hOut (by decide)

end Calls

end SandboxFS
end L0vi0x.Agents
