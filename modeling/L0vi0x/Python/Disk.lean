import L0vi0x.Python.Act
import L0vi0x.Python.FileSystem

/-! A file system that changes: entries under their locations, symbolic links, calls
that the operating system may refuse, and a log of what was done to which location.
Looking a path up is not logged, reading a file's content is. -/
namespace L0vi0x.Python

/-- The names that lead from the root to an entry. -/
abbrev Location := List String

inductive DiskEntry
  | file (content : Bytes)
  | dir
  | link (target : Path)

inductive Access
  | create (p : Location)
  | modify (p : Location)
  | delete (p : Location)
  | read (p : Location)
  deriving DecidableEq

def Access.location : Access → Location
  | .create p | .modify p | .delete p | .read p => p

/-- `linkDepth` says how deep links may lead into one another before a path counts as
a loop; `refuses` covers missing permissions and a full disk. -/
structure Disk where
  entry : Location → Option DiskEntry
  refuses : Access → Bool
  linkDepth : Nat

namespace Disk

/-- The walk over the names of a path, where `up` says from where `..` leads up, and `follow`
resolves what a link leads to. A missing name is kept. -/
def walk (d : Disk) (up : Location → Bool) (follow : Location → List String → Option Location) :
    Location → List String → Option Location
  | done, [] => some done
  | done, name :: rest =>
      if name = ".." then if up done then walk d up follow done.dropLast rest else none
      else match d.entry (done ++ [name]) with
        | some (.link target) =>
            (follow (if target.root = "" then done else []) target.parts).bind
              fun next => walk d up follow next rest
        | _ => walk d up follow (done ++ [name]) rest

def walkLinks (d : Disk) (up : Location → Bool) :
    Nat → Location → List String → Option Location
  | 0 => d.walk up fun _ _ => none
  | depth + 1 => d.walk up (walkLinks d up depth)

/-- `path.resolve()` of an absolute path; nothing when its links form a loop. `..` drops the
name before it, whether that is there or not. -/
def resolve (d : Disk) (p : List String) : Option Location :=
  d.walkLinks (fun _ => true) d.linkDepth [] p

def hasDir (d : Disk) (p : Location) : Bool :=
  match d.entry p with
  | some .dir => true
  | _ => false

/-- Where the system finds a path: `..` leads up only from a directory that is there. -/
def lookup (d : Disk) (p : List String) : Option Location :=
  d.walkLinks (fun done => done = [] || d.hasDir done) d.linkDepth [] p

/-- Where a path leads when a link at its end is not followed. -/
def located (d : Disk) (p : List String) : Option Location :=
  match p.getLast? with
  | none => some []
  | some name => if name = ".." then d.resolve p else (d.resolve p.dropLast).map (· ++ [name])

def pathExists (d : Disk) (p : List String) : Bool := ((d.lookup p).bind d.entry).isSome

def isSymlink (d : Disk) (p : List String) : Bool :=
  match (d.located p).bind d.entry with
  | some (.link _) => true
  | _ => false

def isDir (d : Disk) (p : List String) : Bool :=
  match (d.resolve p).bind d.entry with
  | some .dir => true
  | _ => false

def isFile (d : Disk) (p : List String) : Bool :=
  match (d.resolve p).bind d.entry with
  | some (.file _) => true
  | _ => false

def store (d : Disk) (p : Location) (e : Option DiskEntry) : Disk :=
  { d with entry := Function.update d.entry p e }

@[simp] theorem store_refuses (d : Disk) (p : Location) (e : Option DiskEntry) :
    (d.store p e).refuses = d.refuses := rfl

theorem store_entry_self (d : Disk) (p : Location) (e : Option DiskEntry) :
    (d.store p e).entry p = e := by
  simp [store]

/-- Storing at a location leaves every other one. -/
theorem store_entry_ne {d : Disk} {p q : Location} {e : Option DiskEntry} (h : q ≠ p) :
    (d.store p e).entry q = d.entry q := by
  simp [store, h]

section Resolution

variable {d : Disk}

/-- No link lies on the way to a location, nor at it. -/
def Unlinked (d : Disk) (p : Location) : Prop :=
  ∀ q, q <+: p → q ≠ [] → ∀ target, d.entry q ≠ some (.link target)

theorem Unlinked.nil : d.Unlinked [] := by
  intro q hq hNe
  exact absurd (List.prefix_nil.mp hq) hNe

/-- What leads to an unlinked location is unlinked itself. -/
theorem Unlinked.mono {p q : Location} (h : d.Unlinked p) (hPrefix : q <+: p) : d.Unlinked q :=
  fun r hr hNe => h r (hr.trans hPrefix) hNe

theorem Unlinked.dropLast {p : Location} (h : d.Unlinked p) : d.Unlinked p.dropLast :=
  h.mono (List.dropLast_prefix p)

/-- A location stays unlinked where the next name is no link. -/
theorem Unlinked.concat {p : Location} {name : String} (h : d.Unlinked p)
    (hName : ∀ target, d.entry (p ++ [name]) ≠ some (.link target)) : d.Unlinked (p ++ [name]) := by
  intro q hq hNe
  rcases List.prefix_concat_iff.mp hq with rfl | hq
  · exact hName
  · exact h q hq hNe

/-- Resolved locations: no link on the way, and no name that leads up. -/
structure Resolved (d : Disk) (p : Location) : Prop where
  unlinked : d.Unlinked p
  names : ".." ∉ p

/-- The directory of a resolved location is resolved. -/
theorem Resolved.dropLast {p : Location} (h : d.Resolved p) : d.Resolved p.dropLast :=
  ⟨h.unlinked.dropLast, fun hMem => h.names (List.mem_of_mem_dropLast hMem)⟩

/-- A walk ends at a resolved location, if what it follows links with does. -/
theorem resolved_walk {up : Location → Bool} {follow : Location → List String → Option Location}
    (hFollow : ∀ done parts p, d.Resolved done → follow done parts = some p → d.Resolved p)
    {done : Location} {parts : List String} {p : Location} (hDone : d.Resolved done)
    (h : d.walk up follow done parts = some p) : d.Resolved p := by
  induction parts generalizing done with
  | nil =>
      rw [walk, Option.some.injEq] at h
      exact h ▸ hDone
  | cons name rest ih =>
      rw [walk] at h
      split at h
      · split at h
        · exact ih hDone.dropLast h
        · cases h
      · rename_i hName
        split at h
        · rename_i target _
          obtain ⟨next, hNext, hRest⟩ := Option.bind_eq_some_iff.mp h
          refine ih (hFollow _ _ next ?_ hNext) hRest
          split
          · exact hDone
          · exact ⟨.nil, by simp⟩
        · rename_i hNoLink
          refine ih ⟨hDone.unlinked.concat hNoLink, ?_⟩ h
          rw [List.mem_append, List.mem_singleton, not_or]
          exact ⟨hDone.names, Ne.symm hName⟩

/-- What `resolve` returns is resolved. -/
theorem resolve_resolved {parts : List String} {p : Location} (h : d.resolve parts = some p) :
    d.Resolved p := by
  have hLinks : ∀ (depth : Nat) (done : Location) (parts : List String) (p : Location),
      d.Resolved done → d.walkLinks (fun _ => true) depth done parts = some p → d.Resolved p := by
    intro depth
    induction depth with
    | zero => exact fun done parts p hDone h => resolved_walk (by simp) hDone h
    | succ depth ih => exact fun done parts p hDone h => resolved_walk ih hDone h
  exact hLinks _ _ _ _ ⟨.nil, by simp⟩ h

/-- A resolved location is where its own walk ends. -/
theorem walk_of_resolved {up : Location → Bool}
    {follow : Location → List String → Option Location} {done : Location} {parts : List String}
    (h : d.Resolved (done ++ parts)) : d.walk up follow done parts = some (done ++ parts) := by
  induction parts generalizing done with
  | nil => rw [walk, List.append_nil]
  | cons name rest ih =>
      have hName : name ≠ ".." := by
        rintro rfl
        exact h.names (by simp)
      have hNoLink : ∀ target, d.entry (done ++ [name]) ≠ some (.link target) :=
        h.unlinked _ (by simp) (by simp)
      rw [walk, if_neg hName]
      have hRest := @ih (done ++ [name]) (by simpa using h)
      split
      · rename_i target hLink
        exact absurd hLink (hNoLink target)
      · simpa using hRest

theorem walkLinks_of_resolved {up : Location → Bool} {depth : Nat} {p : Location}
    (h : d.Resolved p) : d.walkLinks up depth [] p = some p := by
  cases depth with
  | zero => exact walk_of_resolved (by simpa using h)
  | succ depth => exact walk_of_resolved (by simpa using h)

/-- A resolved location resolves to itself. -/
theorem resolve_of_resolved {p : Location} (h : d.Resolved p) : d.resolve p = some p :=
  walkLinks_of_resolved h

/-- The system finds a resolved location where it says. -/
theorem lookup_of_resolved {p : Location} (h : d.Resolved p) : d.lookup p = some p :=
  walkLinks_of_resolved h

/-- A location whose directory is resolved is found where it says. -/
theorem located_of_resolved {p : Location} (h : d.Resolved p.dropLast) (hNames : ".." ∉ p) :
    d.located p = some p := by
  unfold located
  cases hLast : p.getLast? with
  | none => simp [List.getLast?_eq_none_iff.mp hLast]
  | some name =>
      have hp : p = p.dropLast ++ [name] := (List.dropLast_append_getLast? name hLast).symm
      have hName : name ≠ ".." := by
        rintro rfl
        exact hNames (List.mem_of_getLast? hLast)
      simp only [if_neg hName, resolve_of_resolved h, Option.map_some, ← hp]

end Resolution
end Disk

/-- The disk, and what has been done to it. -/
structure World where
  disk : Disk
  accesses : List Access

abbrev Sys (α : Type) := Act World α

namespace Sys

/-- A computation that only looks at the disk. -/
def lift {α : Type} (value : Disk → Py α) : Sys α := fun w => (value w.disk, w)

/-- `if condition: body`. -/
def onlyIf (condition : Bool) (body : Sys Unit) : Sys Unit :=
  if condition then body else pure ()

/-- Do something to a location and store what is there afterwards, unless the
operating system refuses. -/
def perform (a : Access) (e : Option DiskEntry) : Sys Unit := fun w =>
  if w.disk.refuses a then (raise .osError "Permission denied", w)
  else (.ok (), ⟨w.disk.store a.location e, w.accesses ++ [a]⟩)

/-- The location of a call that does not follow a last link. -/
def locate (p : List String) : Sys Location := lift fun d => match d.located p with
  | some q => pure q
  | none => raise .osError "Too many levels of symbolic links"

/-- The location of a call that follows links. -/
def follow (p : List String) : Sys Location := lift fun d => match d.resolve p with
  | some q => pure q
  | none => raise .osError "Too many levels of symbolic links"

def entryAt (q : Location) : Sys (Option DiskEntry) := lift fun d => pure (d.entry q)

def mkdir (p : List String) : Sys Unit := do
  let q ← locate p
  match ← entryAt q.dropLast with
  | none => lift fun _ => raise .fileNotFoundError "No such file or directory"
  | some .dir => match ← entryAt q with
      | none => perform (.create q) (some .dir)
      | some _ => lift fun _ => raise .osError "File exists"
  | some _ => lift fun _ => raise .osError "Not a directory"

/-- The handler of `path.mkdir(exist_ok=True)`: a directory that is there will do. -/
def unlessDir (p : List String) (e : PyError) : Sys Unit := lift fun d =>
  if d.isDir p then pure () else .error e

def makeDir (p : List String) : Sys Unit := Act.tryCatch (mkdir p) (· = .osError) (unlessDir p)

/-- `path.mkdir(parents=True, exist_ok=True)` of the path whose names are given from
the last to the first: a missing parent is made before a second try. -/
def makeDirs : List String → Sys Unit
  | [] => makeDir []
  | name :: up =>
      Act.tryCatch (makeDir (name :: up).reverse) (· = .fileNotFoundError)
        fun _ => do makeDirs up; makeDir (name :: up).reverse

def unlink (p : List String) : Sys Unit := do
  let q ← locate p
  match ← entryAt q with
  | none => lift fun _ => raise .fileNotFoundError "No such file or directory"
  | some .dir => lift fun _ => raise .osError "Is a directory"
  | some _ => perform (.delete q) none

/-- `path.write_text(content, encoding="utf-8")`: the file is created or emptied, then written. -/
def writeText (p : List String) (content : String) : Sys Unit := do
  let q ← follow p
  match ← entryAt q with
  | some (.file _) => do
      perform (.modify q) (some (.file []))
      perform (.modify q) (some (.file (encodeUtf8 content)))
  | some _ => lift fun _ => raise .osError "Is a directory"
  | none => match ← entryAt q.dropLast with
      | some .dir => do
          perform (.create q) (some (.file []))
          perform (.modify q) (some (.file (encodeUtf8 content)))
      | some _ => lift fun _ => raise .osError "Not a directory"
      | none => lift fun _ => raise .fileNotFoundError "No such file or directory"

/-- `os.replace(source, target)` of a file. -/
def replaceFile (source target : List String) : Sys Unit := do
  let s ← locate source
  let t ← locate target
  match ← entryAt s, ← entryAt t with
  | none, _ => lift fun _ => raise .fileNotFoundError "No such file or directory"
  | some _, some .dir => lift fun _ => raise .osError "Is a directory"
  | some e, old => do
      lift fun d => if d.refuses (.delete s) then raise .osError "Permission denied" else pure ()
      perform (if old.isSome then .modify t else .create t) (some e)
      perform (.delete s) none

def readText (p : List String) : Sys String := do
  let q ← follow p
  match ← entryAt q with
  | some (.file content) => do
      perform (.read q) (some (.file content))
      lift fun _ => match decodeUtf8? content with
        | some s => pure (String.ofList (universalNewlines s.toList))
        | none => raise .unicodeDecodeError "'utf-8' codec can't decode the file"
  | some _ => lift fun _ => raise .osError "Is a directory"
  | none => lift fun _ => raise .fileNotFoundError "No such file or directory"

section Rules

variable {α β : Type} {w v : World}

/-- From one world to a later one: what was done stays logged, and what changed has
been logged. -/
def Reaches (w v : World) : Prop :=
  ∃ more, v.accesses = w.accesses ++ more ∧
    ∀ q, q ∉ more.map Access.location → v.disk.entry q = w.disk.entry q

theorem Reaches.refl (w : World) : Reaches w w := ⟨[], (List.append_nil _).symm, fun _ _ => rfl⟩

/-- What two computations after one another have done was logged by the one or the other. -/
theorem Reaches.trans {u : World} (hFirst : Reaches w v) (hSecond : Reaches v u) :
    Reaches w u := by
  obtain ⟨more, hMore, hFrame⟩ := hFirst
  obtain ⟨later, hLater, hFrame'⟩ := hSecond
  refine ⟨more ++ later, by rw [hLater, hMore, List.append_assoc], fun q hq => ?_⟩
  rw [List.map_append, List.mem_append, not_or] at hq
  exact (hFrame' q hq.2).trans (hFrame q hq.1)

/-- A call that was logged stays logged. -/
theorem Reaches.mem (h : Reaches w v) {a : Access} (ha : a ∈ w.accesses) : a ∈ v.accesses := by
  obtain ⟨more, hMore, _⟩ := h
  rw [hMore]
  exact List.mem_append_left _ ha

/-- A computation that only acts through logged calls. -/
def Logs (m : Sys α) : Prop := Act.Keeps Reaches m

theorem Logs.lift (value : Disk → Py α) : Logs (lift value) := fun w => .refl w

theorem Logs.pure (a : α) : Logs (pure a : Sys α) := fun w => .refl w

/-- A call on the disk logs itself. -/
theorem Logs.perform (a : Access) (e : Option DiskEntry) : Logs (perform a e) := by
  intro w
  unfold Sys.perform
  split
  · exact .refl w
  · refine ⟨[a], rfl, fun q hq => ?_⟩
    exact Disk.store_entry_ne (by simpa using hq)

/-- What only acts through logged calls may be continued with what does. -/
theorem Logs.bind {first : Sys α} {rest : α → Sys β} (hFirst : Logs first)
    (hRest : ∀ a, Logs (rest a)) : Logs (first >>= rest) :=
  Act.Keeps.bind (fun h h' => h.trans h') hFirst hRest

/-- What a first call logged is still logged after the rest. -/
theorem mem_accesses_bind {first : Sys α} {rest : α → Sys β} {a : Access}
    (h : a ∈ (first w).2.accesses) (hRest : ∀ x, Logs (rest x)) :
    a ∈ ((first >>= rest) w).2.accesses := by
  rcases hRun : first w with ⟨result, v⟩
  rw [hRun] at h
  cases result with
  | ok x =>
      rw [Act.bind_ok hRun]
      exact (hRest x v).mem h
  | error e =>
      rw [Act.bind_error hRun]
      exact h

/-- A call that is not refused is logged. -/
theorem mem_accesses_perform {a : Access} {e : Option DiskEntry}
    (h : w.disk.refuses a = false) : a ∈ (Sys.perform a e w).2.accesses := by
  rw [Sys.perform, if_neg (by simp [h])]
  exact List.mem_append_right _ (List.mem_singleton_self a)

/-- An error that is caught takes nothing back of what was logged. -/
theorem Logs.tryCatch {body : Sys α} {handler : PyError → Sys α} {catches : ErrorKind → Bool}
    (hBody : Logs body) (hHandler : ∀ e, Logs (handler e)) :
    Logs (Act.tryCatch body catches handler) :=
  Act.Keeps.tryCatch (fun h h' => h.trans h') hBody hHandler

theorem Logs.onlyIf {body : Sys Unit} (condition : Bool) (h : Logs body) :
    Logs (onlyIf condition body) := by
  cases condition with
  | false => exact .pure ()
  | true => exact h

theorem Logs.mkdir (p : List String) : Logs (mkdir p) := by
  refine (Logs.lift _).bind fun q => (Logs.lift _).bind fun e => ?_
  split
  · exact .lift _
  · refine (Logs.lift _).bind fun e => ?_
    split
    · exact .perform _ _
    · exact .lift _
  · exact .lift _

theorem Logs.makeDir (p : List String) : Logs (makeDir p) :=
  (Logs.mkdir p).tryCatch fun _ => .lift _

/-- By induction on the names, since a missing parent is made by the same call. -/
theorem Logs.makeDirs (names : List String) : Logs (makeDirs names) := by
  induction names with
  | nil => exact .makeDir []
  | cons name up ih =>
      exact (Logs.makeDir _).tryCatch fun _ => ih.bind fun _ => .makeDir _

theorem Logs.unlink (p : List String) : Logs (unlink p) := by
  refine (Logs.lift _).bind fun q => (Logs.lift _).bind fun e => ?_
  split
  · exact .lift _
  · exact .lift _
  · exact .perform _ _

theorem Logs.writeText (p : List String) (content : String) : Logs (writeText p content) := by
  refine (Logs.lift _).bind fun q => (Logs.lift _).bind fun e => ?_
  split
  · exact (Logs.perform _ _).bind fun _ => .perform _ _
  · exact .lift _
  · refine (Logs.lift _).bind fun e => ?_
    split
    · exact (Logs.perform _ _).bind fun _ => .perform _ _
    · exact .lift _
    · exact .lift _

theorem Logs.replaceFile (source target : List String) : Logs (replaceFile source target) := by
  refine (Logs.lift _).bind fun s => (Logs.lift _).bind fun t => (Logs.lift _).bind fun e =>
    (Logs.lift _).bind fun old => ?_
  split
  · exact .lift _
  · exact .lift _
  · exact (Logs.lift _).bind fun _ => (Logs.perform _ _).bind fun _ => .perform _ _

theorem Logs.readText (p : List String) : Logs (readText p) := by
  refine (Logs.lift _).bind fun q => (Logs.lift _).bind fun e => ?_
  split
  · exact (Logs.perform _ _).bind fun _ => .lift _
  · exact .lift _
  · exact .lift _

end Rules

section Directories

variable {w v : World}

/-- The directory that `makeDirs` creates first, when it creates one: the first missing
one below a directory. The names are given from the last to the first. -/
def topMissing (d : Disk) : List String → Option Location
  | [] => none
  | name :: up => match d.entry up.reverse with
      | none => topMissing d up
      | some .dir =>
          if (d.entry (name :: up).reverse).isSome then none else some (name :: up).reverse
      | some _ => none

/-- A resolved location is located where it is. -/
theorem locate_resolved {p : Location} (h : w.disk.Resolved p) : locate p w = (.ok p, w) := by
  simp only [locate, lift, Disk.located_of_resolved h.dropLast h.names]
  rfl

/-- Nothing is followed on the way to a resolved location. -/
theorem follow_resolved {p : Location} (h : w.disk.Resolved p) : follow p w = (.ok p, w) := by
  simp only [follow, lift, Disk.resolve_of_resolved h]
  rfl

/-- How `makeDir` ends where its directory is resolved. -/
inductive MakeDirOutcome (w : World) (p : Location) : Py Unit × World → Prop
  | missing (e : PyError) (hKind : e.kind = .fileNotFoundError)
      (hParent : w.disk.entry p.dropLast = none) : MakeDirOutcome w p (.error e, w)
  | created (hParent : w.disk.entry p.dropLast = some .dir) (hNew : w.disk.entry p = none)
      (hAllowed : w.disk.refuses (.create p) = false) :
      MakeDirOutcome w p (.ok (), ⟨w.disk.store p (some .dir), w.accesses ++ [.create p]⟩)
  | kept (hParent : w.disk.entry p.dropLast ≠ none) (hDir : w.disk.entry p = some .dir) :
      MakeDirOutcome w p (.ok (), w)
  | failed (e : PyError) (hKind : e.kind ≠ .fileNotFoundError)
      (hParent : w.disk.entry p.dropLast ≠ none) (hDir : w.disk.entry p ≠ some .dir)
      (hRefused : w.disk.entry p.dropLast = some .dir → w.disk.entry p = none →
        w.disk.refuses (.create p) = true) : MakeDirOutcome w p (.error e, w)

/-- At a resolved location `os.mkdir` looks at the parent and at what is there already. -/
theorem mkdir_resolved {p : Location} (h : w.disk.Resolved p) :
    mkdir p w = match w.disk.entry p.dropLast, w.disk.entry p with
      | none, _ => (raise .fileNotFoundError "No such file or directory", w)
      | some .dir, none => perform (.create p) (some .dir) w
      | some .dir, some _ => (raise .osError "File exists", w)
      | some _, _ => (raise .osError "Not a directory", w) := by
  have hEntry : ∀ q, entryAt q w = (.ok (w.disk.entry q), w) := fun _ => rfl
  rw [mkdir, Act.bind_ok (locate_resolved h), Act.bind_ok (hEntry _)]
  cases hParent : w.disk.entry p.dropLast with
  | none => rfl
  | some e =>
      cases e with
      | dir =>
          simp only
          rw [Act.bind_ok (hEntry _)]
          cases w.disk.entry p <;> rfl
      | _ => rfl

/-- The handler of `exist_ok` lets an error pass unless there is a directory. -/
theorem unlessDir_resolved {p : Location} (h : w.disk.Resolved p) (e : PyError) :
    (w.disk.entry p = some .dir ∧ unlessDir p e w = (.ok (), w)) ∨
      (w.disk.entry p ≠ some .dir ∧ unlessDir p e w = (.error e, w)) := by
  have hIs : w.disk.isDir p = true ↔ w.disk.entry p = some .dir := by
    rw [Disk.isDir, Disk.resolve_of_resolved h, Option.bind_some]
    cases w.disk.entry p with
    | none => simp
    | some e => cases e <;> simp
  by_cases hDir : w.disk.isDir p = true
  · exact .inl ⟨hIs.mp hDir, by simp only [unlessDir, lift, if_pos hDir]; rfl⟩
  · exact .inr ⟨fun hEntry => hDir (hIs.mpr hEntry), by simp only [unlessDir, lift, if_neg hDir]⟩

/-- How `makeDir` ends at a resolved location. -/
theorem makeDir_outcome {p : Location} (h : w.disk.Resolved p) :
    MakeDirOutcome w p (makeDir p w) := by
  have hMkdir := mkdir_resolved h
  -- an error of the system is forgiven when the directory is there
  have hForgiven : ∀ e : PyError, e.kind = .osError → mkdir p w = (.error e, w) →
      w.disk.entry p.dropLast ≠ none →
      (w.disk.entry p.dropLast = some .dir → w.disk.entry p = none →
        w.disk.refuses (.create p) = true) → MakeDirOutcome w p (makeDir p w) := by
    intro e hKind hError hParent hRefused
    rw [makeDir, Act.tryCatch_error hError, if_pos (by simp [hKind])]
    rcases unlessDir_resolved h e with ⟨hDir, hRun⟩ | ⟨hDir, hRun⟩
    · rw [hRun]
      exact .kept hParent hDir
    · rw [hRun]
      exact .failed e (by simp [hKind]) hParent hDir hRefused
  cases hParent : w.disk.entry p.dropLast with
  | none =>
      rw [hParent] at hMkdir
      rw [makeDir, Act.tryCatch_error hMkdir, if_neg (by simp)]
      exact .missing _ rfl hParent
  | some e =>
      cases e with
      | dir =>
          cases hEntry : w.disk.entry p with
          | none =>
              rw [hParent, hEntry] at hMkdir
              simp only [perform] at hMkdir
              cases hAllowed : w.disk.refuses (.create p) with
              | true =>
                  rw [hAllowed, if_pos rfl] at hMkdir
                  exact hForgiven _ rfl hMkdir (by simp [hParent]) fun _ _ => hAllowed
              | false =>
                  rw [hAllowed, if_neg Bool.false_ne_true] at hMkdir
                  rw [makeDir, Act.tryCatch_ok hMkdir]
                  exact .created hParent hEntry hAllowed
          | some other =>
              rw [hParent, hEntry] at hMkdir
              refine hForgiven _ rfl hMkdir (by simp [hParent]) fun _ hNone => ?_
              rw [hEntry] at hNone
              cases hNone
      | file content =>
          rw [hParent] at hMkdir
          exact hForgiven _ rfl hMkdir (by simp [hParent]) (by simp [hParent])
      | link target =>
          rw [hParent] at hMkdir
          exact hForgiven _ rfl hMkdir (by simp [hParent]) (by simp [hParent])

/-- What `makeDirs` did: it created some of the directories below the first missing
one, that one first. -/
structure Made (w v : World) (names : List String) (created : List Location) : Prop where
  entries : ∀ q, v.disk.entry q = if q ∈ created then some .dir else w.disk.entry q
  refuses : v.disk.refuses = w.disk.refuses
  accesses : v.accesses = w.accesses ++ created.map .create
  below : ∀ q ∈ created, q <+: names.reverse ∧ ∃ top, topMissing w.disk names = some top ∧
    w.disk.refuses (.create top) = false ∧ top <+: q
  first : ∀ top, topMissing w.disk names = some top → w.disk.refuses (.create top) = false →
    top ∈ created

/-- Where the first missing directory is refused, nothing is made. -/
theorem Made.nothing {names : List String} (h : ∀ top, topMissing w.disk names = some top →
    w.disk.refuses (.create top) = true) : Made w w names [] where
  entries := by simp
  refuses := rfl
  accesses := by simp
  below := by simp
  first top hTop hAllowed := by
    rw [h top hTop] at hAllowed
    cases hAllowed

/-- Made directories are no links, so what was resolved stays so. -/
theorem Made.resolved {names : List String} {created : List Location}
    (h : Made w v names created) {p : Location} (hp : w.disk.Resolved p) : v.disk.Resolved p := by
  refine ⟨fun q hq hNe target => ?_, hp.names⟩
  rw [h.entries]
  split
  · simp
  · exact hp.unlinked q hq hNe target

/-- What holds of an outcome of `makeDirs`. -/
structure Makes (w : World) (names : List String) (outcome : Py Unit × World) : Prop where
  made : ∃ created, Made w outcome.2 names created
  dir : outcome.1 = .ok () → outcome.2.disk.entry names.reverse = some .dir
  stopped : ∀ top, topMissing w.disk names = some top → w.disk.refuses (.create top) = true →
    outcome.1 ≠ .ok ()

/-- A directory made below those that were made. -/
theorem Made.concat {name : String} {up : List String} {created : List Location}
    (h : Made w v up created) (hMissing : w.disk.entry up.reverse = none)
    (hParent : v.disk.entry up.reverse = some .dir) :
    Made w ⟨v.disk.store (name :: up).reverse (some .dir),
      v.accesses ++ [.create (name :: up).reverse]⟩ (name :: up)
      (created ++ [(name :: up).reverse]) := by
  have hTop : topMissing w.disk (name :: up) = topMissing w.disk up := by
    rw [topMissing, hMissing]
  have hUp : up.reverse <+: (name :: up).reverse := by simp
  have hIn : up.reverse ∈ created := by
    by_contra hNot
    have hSame := h.entries up.reverse
    rw [if_neg hNot, hMissing, hParent] at hSame
    cases hSame
  refine ⟨fun q => ?_, h.refuses, ?_, ?_, ?_⟩
  · by_cases hq : q = (name :: up).reverse
    · rw [hq, Disk.store_entry_self, if_pos (by simp)]
    · have hNotNew : q ∉ [(name :: up).reverse] := by simpa using hq
      rw [Disk.store_entry_ne hq, h.entries]
      simp only [List.mem_append, hNotNew, or_false]
  · rw [h.accesses]
    simp
  · intro q hq
    rw [hTop]
    rcases List.mem_append.mp hq with hq | hq
    · obtain ⟨hPrefix, hRest⟩ := h.below q hq
      exact ⟨hPrefix.trans hUp, hRest⟩
    · rw [List.mem_singleton] at hq
      obtain ⟨_, top, hEq, hAllowed, hPrefix⟩ := h.below _ hIn
      exact ⟨hq ▸ List.prefix_rfl, top, hEq, hAllowed, hq ▸ hPrefix.trans hUp⟩
  · intro top hEq hAllowed
    exact List.mem_append_left _ (h.first top (hTop ▸ hEq) hAllowed)

/-- A missing directory is made in the parents that were made for it. -/
theorem Made.up {name : String} {up : List String} {created : List Location}
    (h : Made w v up created) (hMissing : w.disk.entry up.reverse = none) :
    Made w v (name :: up) created := by
  have hTop : topMissing w.disk (name :: up) = topMissing w.disk up := by
    rw [topMissing, hMissing]
  refine ⟨h.entries, h.refuses, h.accesses, fun q hq => ?_, fun top hEq => h.first top (hTop ▸ hEq)⟩
  obtain ⟨hPrefix, hRest⟩ := h.below q hq
  exact ⟨hPrefix.trans (by simp), hTop ▸ hRest⟩

/-- What `makeDirs` does below a resolved location, by induction on the names. -/
theorem makeDirs_makes (names : List String) (h : w.disk.Resolved names.reverse) :
    Makes w names (makeDirs names w) := by
  induction names generalizing w with
  | nil =>
      have hNothing : Made w w [] [] := .nothing (by simp [topMissing])
      have hOutcome : MakeDirOutcome w [] (makeDir [] w) := makeDir_outcome (by simpa using h)
      rw [makeDirs]
      generalize makeDir [] w = outcome at hOutcome
      cases hOutcome with
      | missing e => exact ⟨⟨[], hNothing⟩, by simp, by simp [topMissing]⟩
      | created hParent hNew =>
          rw [List.dropLast_nil, hNew] at hParent
          cases hParent
      | kept _ hDir => exact ⟨⟨[], hNothing⟩, fun _ => hDir, by simp [topMissing]⟩
      | failed e => exact ⟨⟨[], hNothing⟩, by simp, by simp [topMissing]⟩
  | cons name up ih =>
      have hLast : (name :: up).reverse.dropLast = up.reverse := by simp
      have hUp : w.disk.Resolved up.reverse := hLast ▸ h.dropLast
      have hOutcome := makeDir_outcome h
      rw [makeDirs]
      rcases hFirst : makeDir (name :: up).reverse w with ⟨result, next⟩
      rw [hFirst] at hOutcome
      cases hOutcome with
      | missing e hKind hParent =>
          rw [hLast] at hParent
          have hTop : topMissing w.disk (name :: up) = topMissing w.disk up := by
            rw [topMissing, hParent]
          obtain ⟨⟨created, hMade⟩, hDir, hStopped⟩ := ih hUp
          rw [Act.tryCatch_error hFirst, if_pos (by simp [hKind])]
          rcases hRun : makeDirs up w with ⟨result, v⟩
          rw [hRun] at hMade hDir hStopped
          rw [← hTop] at hStopped
          cases result with
          | error e' =>
              rw [Act.bind_error hRun]
              exact ⟨⟨created, hMade.up hParent⟩, by simp, by simp⟩
          | ok u =>
              rw [Act.bind_ok hRun]
              have hNext := makeDir_outcome (hMade.resolved h)
              generalize makeDir (name :: up).reverse v = outcome at hNext
              cases hNext with
              | missing e' => exact ⟨⟨created, hMade.up hParent⟩, by simp, by simp⟩
              | created hParent' =>
                  rw [hLast] at hParent'
                  exact ⟨⟨_, hMade.concat hParent hParent'⟩,
                    fun _ => Disk.store_entry_self _ _ _,
                    fun top hEq hRefused => absurd rfl (hStopped top hEq hRefused)⟩
              | kept _ hHere =>
                  exact ⟨⟨created, hMade.up hParent⟩, fun _ => hHere,
                    fun top hEq hRefused => absurd rfl (hStopped top hEq hRefused)⟩
              | failed e' => exact ⟨⟨created, hMade.up hParent⟩, by simp, by simp⟩
      | created hParent hNew hAllowed =>
          rw [hLast] at hParent
          have hTop : topMissing w.disk (name :: up) = some (name :: up).reverse := by
            simp only [topMissing, hParent, hNew, Option.isSome_none, Bool.false_eq_true,
              ↓reduceIte]
          rw [Act.tryCatch_ok hFirst]
          refine ⟨⟨[(name :: up).reverse], fun q => ?_, rfl, rfl, ?_, ?_⟩,
            fun _ => Disk.store_entry_self _ _ _, ?_⟩
          · by_cases hq : q = (name :: up).reverse
            · rw [hq, Disk.store_entry_self, if_pos (by simp)]
            · rw [Disk.store_entry_ne hq, if_neg (by simpa using hq)]
          · intro q hq
            rw [List.mem_singleton] at hq
            exact ⟨hq ▸ List.prefix_rfl, _, hTop, hAllowed, hq ▸ List.prefix_rfl⟩
          · intro top hEq _
            rw [hTop, Option.some.injEq] at hEq
            simp [← hEq]
          · intro top hEq hRefused
            rw [hTop, Option.some.injEq] at hEq
            rw [← hEq, hAllowed] at hRefused
            cases hRefused
      | kept hParent hDir =>
          have hTop : topMissing w.disk (name :: up) = none := by
            rw [hLast] at hParent
            unfold topMissing
            split
            · rename_i hNone
              exact absurd hNone hParent
            · rw [hDir, Option.isSome_some, if_pos rfl]
            · rfl
          rw [Act.tryCatch_ok hFirst]
          exact ⟨⟨[], .nothing (by simp [hTop])⟩, fun _ => hDir, by simp [hTop]⟩
      | failed e hKind hParent hDir hRefused =>
          have hTop : ∀ top, topMissing w.disk (name :: up) = some top →
              w.disk.refuses (.create top) = true := by
            intro top hEq
            rw [hLast] at hParent hRefused
            unfold topMissing at hEq
            split at hEq
            · rename_i hNone
              exact absurd hNone hParent
            · rename_i hIsDir
              split at hEq
              · cases hEq
              · rename_i hNew
                rw [Option.some.injEq] at hEq
                rw [← hEq]
                exact hRefused hIsDir (by simpa using hNew)
            · cases hEq
          rw [Act.tryCatch_error hFirst, if_neg (by simpa using hKind)]
          exact ⟨⟨[], .nothing hTop⟩, by simp, by simp⟩

/-- A directory that is there is kept. -/
theorem makeDirs_present {names : List String} (h : w.disk.Resolved names.reverse)
    (hDir : w.disk.entry names.reverse = some .dir)
    (hParent : w.disk.entry names.reverse.dropLast = some .dir) :
    makeDirs names w = (.ok (), w) := by
  have hMake : makeDir names.reverse w = (.ok (), w) := by
    have hOutcome := makeDir_outcome h
    rcases hRun : makeDir names.reverse w with ⟨result, next⟩
    rw [hRun] at hOutcome
    cases hOutcome with
    | missing e _ hNone =>
        rw [hParent] at hNone
        cases hNone
    | created _ hNew =>
        rw [hDir] at hNew
        cases hNew
    | kept => rfl
    | failed e _ _ hNot => exact absurd hDir hNot
  cases names with
  | nil => exact hMake
  | cons name up =>
      rw [makeDirs]
      exact Act.tryCatch_ok hMake

end Directories

section Effects

variable {w v u : World} {α β : Type}

/-- The log grows by calls on locations in `s` only. -/
def Touches (s : Set Location) (w v : World) : Prop :=
  ∃ more, v.accesses = w.accesses ++ more ∧ ∀ a ∈ more, a.location ∈ s

variable {s : Set Location}

theorem Touches.refl (w : World) : Touches s w w := ⟨[], (List.append_nil _).symm, by simp⟩

/-- Two computations that touch `s` only do so after one another. -/
theorem Touches.trans (hFirst : Touches s w v) (hSecond : Touches s v u) : Touches s w u := by
  obtain ⟨more, hMore, hIn⟩ := hFirst
  obtain ⟨later, hLater, hIn'⟩ := hSecond
  refine ⟨more ++ later, by rw [hLater, hMore, List.append_assoc], fun a ha => ?_⟩
  exact (List.mem_append.mp ha).elim (hIn a) (hIn' a)

/-- What is touched by a computation and by what follows where it returns. -/
theorem Touches.bind {first : Sys α} {rest : α → Sys β} (hFirst : Touches s w (first w).2)
    (hRest : ∀ a, (first w).1 = .ok a → Touches s (first w).2 (rest a (first w).2).2) :
    Touches s w ((first >>= rest) w).2 := by
  rcases hRun : first w with ⟨result, v⟩
  rw [hRun] at hFirst hRest
  cases result with
  | error e =>
      rw [Act.bind_error hRun]
      exact hFirst
  | ok a =>
      rw [Act.bind_ok hRun]
      exact hFirst.trans (hRest a rfl)

/-- A call on a location of `s` touches `s` only. -/
theorem perform_touches {a : Access} {e : Option DiskEntry} (ha : a.location ∈ s) :
    Touches s w (perform a e w).2 := by
  unfold perform
  split
  · exact .refl w
  · exact ⟨[a], rfl, fun b hb => List.mem_singleton.mp hb ▸ ha⟩

/-- Besides, what is resolved stays so. -/
structure Acts (s : Set Location) (w v : World) : Prop where
  touches : Touches s w v
  resolved : ∀ p, w.disk.Resolved p → v.disk.Resolved p

theorem Acts.refl (w : World) : Acts s w w := ⟨.refl w, fun _ h => h⟩

theorem Acts.trans (hFirst : Acts s w v) (hSecond : Acts s v u) : Acts s w u :=
  ⟨hFirst.touches.trans hSecond.touches,
    fun p hp => hSecond.resolved p (hFirst.resolved p hp)⟩

/-- A call that makes no link leaves resolved what was resolved. -/
theorem perform_acts {a : Access} {e : Option DiskEntry} (ha : a.location ∈ s)
    (he : ∀ target, e ≠ some (.link target)) : Acts s w (perform a e w).2 := by
  refine ⟨perform_touches ha, fun p hp => ?_⟩
  unfold perform
  split
  · exact hp
  · refine ⟨fun q hq hNe target => ?_, hp.names⟩
    by_cases hSame : q = a.location
    · rw [hSame, Disk.store_entry_self]
      exact he target
    · rw [Disk.store_entry_ne hSame]
      exact hp.unlinked q hq hNe target

/-- `unlink` of a located path deletes what is there, unless that is a directory. -/
theorem unlink_located {p q : Location} (h : w.disk.located p = some q) :
    unlink p w = match w.disk.entry q with
      | none => (raise .fileNotFoundError "No such file or directory", w)
      | some .dir => (raise .osError "Is a directory", w)
      | some _ => perform (.delete q) none w := by
  have hLocate : locate p w = (.ok q, w) := by
    simp only [locate, lift, h]
    rfl
  have hEntry : entryAt q w = (.ok (w.disk.entry q), w) := rfl
  rw [unlink, Act.bind_ok hLocate, Act.bind_ok hEntry]
  cases w.disk.entry q with
  | none => rfl
  | some e => cases e <;> rfl

theorem unlink_acts {p q : Location} (h : w.disk.located p = some q) (hq : q ∈ s) :
    Acts s w (unlink p w).2 := by
  rw [unlink_located h]
  split
  · exact .refl w
  · exact .refl w
  · exact perform_acts hq (by simp)

/-- What is unlinked is gone. -/
theorem unlink_gone {p q : Location} (h : w.disk.located p = some q)
    (hOk : (unlink p w).1 = .ok ()) : (unlink p w).2.disk.entry q = none := by
  rw [unlink_located h] at hOk ⊢
  split at hOk
  · simp at hOk
  · simp at hOk
  · unfold perform at hOk ⊢
    split at hOk
    · simp at hOk
    · rename_i hAllowed
      rw [if_neg hAllowed]
      exact Disk.store_entry_self _ _ _

/-- `write_text` at a resolved location writes twice where a file is, and creates one otherwise. -/
theorem writeText_resolved {p : Location} (h : w.disk.Resolved p) (content : String) :
    writeText p content w = match w.disk.entry p, w.disk.entry p.dropLast with
      | some (.file _), _ => (do
          perform (.modify p) (some (.file []))
          perform (.modify p) (some (.file (encodeUtf8 content)))) w
      | some _, _ => (raise .osError "Is a directory", w)
      | none, some .dir => (do
          perform (.create p) (some (.file []))
          perform (.modify p) (some (.file (encodeUtf8 content)))) w
      | none, some _ => (raise .osError "Not a directory", w)
      | none, none => (raise .fileNotFoundError "No such file or directory", w) := by
  have hEntry : ∀ q, entryAt q w = (.ok (w.disk.entry q), w) := fun _ => rfl
  rw [writeText, Act.bind_ok (follow_resolved h), Act.bind_ok (hEntry _)]
  cases w.disk.entry p with
  | none =>
      simp only
      rw [Act.bind_ok (hEntry _)]
      cases w.disk.entry p.dropLast with
      | none => rfl
      | some e => cases e <;> rfl
  | some e => cases e <;> rfl

/-- A write at a location of `s` acts on `s` only. -/
theorem writeText_acts {p : Location} (h : w.disk.Resolved p) (hp : p ∈ s) (content : String) :
    Acts s w (writeText p content w).2 := by
  have hTwo : ∀ a : Access, a.location = p → Acts s w ((do
      perform a (some (.file []))
      perform (.modify p) (some (.file (encodeUtf8 content))) : Sys Unit) w).2 := by
    intro a ha
    have hFirst : Acts s w (perform a (some (.file [])) w).2 := perform_acts (ha ▸ hp) (by simp)
    rcases hRun : perform a (some (.file [])) w with ⟨result, v⟩
    rw [hRun] at hFirst
    cases result with
    | error e =>
        rw [Act.bind_error hRun]
        exact hFirst
    | ok x =>
        rw [Act.bind_ok hRun]
        exact hFirst.trans (perform_acts hp (by simp))
  rw [writeText_resolved h]
  split
  · exact hTwo _ rfl
  · exact .refl w
  · exact hTwo _ rfl
  · exact .refl w
  · exact .refl w

/-- Making directories acts on those that were created. -/
theorem Made.acts {names : List String} {created : List Location} (h : Made w v names created)
    (hs : ∀ q ∈ created, q ∈ s) : Acts s w v := by
  refine ⟨⟨_, h.accesses, fun a ha => ?_⟩, fun p hp => h.resolved hp⟩
  obtain ⟨q, hq, rfl⟩ := List.mem_map.mp ha
  exact hs q hq

theorem readText_touches {p : Location} (h : w.disk.Resolved p) (hp : p ∈ s) :
    Touches s w (readText p w).2 := by
  have hEntry : entryAt p w = (.ok (w.disk.entry p), w) := rfl
  rw [readText, Act.bind_ok (follow_resolved h), Act.bind_ok hEntry]
  cases w.disk.entry p with
  | none => exact .refl w
  | some e =>
      cases e with
      | file content => exact Touches.bind (perform_touches hp) fun _ _ => .refl _
      | _ => exact .refl w

/-- Replacing a file touches its old and its new location. -/
theorem replaceFile_touches {source target : Location}
    (hSource : w.disk.located source = some source) (hTarget : w.disk.located target = some target)
    (hs : source ∈ s) (ht : target ∈ s) : Touches s w (replaceFile source target w).2 := by
  have hLocate : ∀ {p : Location}, w.disk.located p = some p → locate p w = (.ok p, w) := by
    intro p hp
    simp only [locate, lift, hp]
    rfl
  have hEntry : ∀ q, entryAt q w = (.ok (w.disk.entry q), w) := fun _ => rfl
  have hMove : ∀ (e : DiskEntry) (a : Access), a.location = target → Touches s w ((do
      lift fun d => if d.refuses (.delete source) then raise .osError "Permission denied" else pure ()
      perform a (some e)
      perform (.delete source) none : Sys Unit) w).2 := by
    intro e a ha
    refine Touches.bind (.refl w) fun _ _ => ?_
    exact Touches.bind (perform_touches (ha ▸ ht)) fun _ _ => perform_touches hs
  rw [replaceFile, Act.bind_ok (hLocate hSource), Act.bind_ok (hLocate hTarget),
    Act.bind_ok (hEntry _), Act.bind_ok (hEntry _)]
  cases w.disk.entry source with
  | none => exact .refl w
  | some e =>
      cases w.disk.entry target with
      | none => exact hMove e _ rfl
      | some old =>
          cases old with
          | dir => exact .refl w
          | _ => exact hMove e _ rfl

end Effects
end Sys
end L0vi0x.Python
