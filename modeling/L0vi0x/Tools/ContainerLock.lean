import Mathlib.Data.List.Dedup
import L0vi0x.Python.Json

/-! The lock of the tools in a container. A probe runs each tool there and prints its
version and its digest; the shell and the parsed lock file are parameters. -/
namespace L0vi0x.Tools

open L0vi0x.Python

structure Completed where
  returncode : Int
  stdout : String
  stderr : String

def orEmpty (j : Json) : Json := if j.truthy then j else .obj []

def textLines (s : String) : List String :=
  (splitLines s).map fun line =>
    let cs := line.toList.reverse
    String.ofList <| List.reverse <| match cs with
      | '\n' :: '\r' :: rest => rest
      | c :: rest => if isLineBreak c then rest else c :: rest
      | [] => []

section Probe

def probeCommand (image name : String) : String :=
  "docker run --rm --entrypoint sh " ++ image ++ " -lc 'for tool in " ++ name ++
    "; do echo \"=== $tool ===\"; /usr/local/bin/$tool --version; " ++
    "sha256sum /usr/local/bin/$tool; done'"

/-- The digest on a line of `sha256sum` for the tool: `line.split(None, 1)` gives two parts
of which the second is the path of the tool. -/
def digestOn (name line : String) : Option String :=
  let cs := stripChars isSpace line.toList
  let first := cs.takeWhile fun c => !isSpace c
  let rest := (cs.dropWhile fun c => !isSpace c).dropWhile isSpace
  if rest ≠ [] ∧ strip (String.ofList rest) = "/usr/local/bin/" ++ name then
    some (strip (String.ofList first))
  else none

/-- The lines of the version, up to the digest of the tool, and that digest. -/
def readSection (name : String) : List String → List String × String
  | [] => ([], "")
  | line :: rest =>
      if strip line = "" then readSection name rest
      else match digestOn name line with
        | some digest => ([], digest)
        | none => (line :: (readSection name rest).1, (readSection name rest).2)

def Completed.output (done : Completed) : String := strip (done.stdout ++ "\n" ++ done.stderr)

/-- The lines after the marker of the tool, or all lines where there is no marker. -/
def sectionOf (name : String) (lines : List String) : List String :=
  match lines.idxOf? ("=== " ++ name ++ " ===") with
  | some i => lines.drop (i + 1)
  | none => lines

/-- The version of the tool and its digest in the output of its probe. -/
def shown (name : String) (done : Completed) : String × String :=
  let found := readSection name (sectionOf name (textLines done.output))
  (strip (joinText "\n" found.1), found.2)

end Probe

section Verify

variable (run : String → Py Completed) (image : String)

/-- `str(entry.get(key, "")).strip()`. -/
def expected (entry : Json) (key : String) : Py String := do
  let value ← entry.attrGet key (.str "")
  pure (strip value.text)

/-- The problems of one tool whose entry is not `None`. -/
def entryProblems (name : String) (entry : Json) : Py (List String) := do
  let expectedVersion ← expected entry "version"
  let expectedProbe ← expected entry "probe_output"
  let expectedHash ← expected entry "sha256"
  let done ← run (probeCommand image name)
  if done.returncode ≠ 0 then
    let said := if strip done.stderr ≠ "" then strip done.stderr else strip done.stdout
    pure [name ++ ": docker probe failed: " ++ said]
  else
    let (actualVersion, actualHash) := shown name done
    pure <|
      (if expectedVersion ≠ "" ∧ actualVersion ≠ "" ∧ expectedVersion ≠ actualVersion then
        [name ++ ": version mismatch"] else []) ++
      (if expectedProbe ≠ "" ∧ !containsText done.output expectedProbe then
        [name ++ ": probe output mismatch"] else []) ++
      (if expectedHash ≠ "" ∧ actualHash ≠ "" ∧ expectedHash ≠ actualHash then
        [name ++ ": sha256 mismatch"] else [])

/-- The problems of one required tool; one without an entry is passed over. -/
def toolProblems (tools : Json) (name : String) : Py (List String) := do
  let entry ← tools.attrGet name .null
  if entry = .null then pure [] else entryProblems run image name entry

/-- `sorted(set(required_names) - set(tools))`. -/
def missingTools (known : List Json) (required : List String) : List String :=
  ((required.dedup.filter fun name => !known.any fun j => j.pyEq (.str name))).mergeSort
    fun a b => a ≤ b

/-- `verify_container_binary_lock(lock_path, image=image, required_names=required)`;
`lock` is what `read_lock` gives. -/
def verifyContainerBinaryLock (lock : Json) (required : List String) : Py (List String) := do
  let lock := orEmpty lock
  let status ← lock.attrGet "status" .null
  let locked ← lock.attrGet "image" .null
  let imageRef ← (orEmpty locked).attrGet "ref" .null
  let tools ← orEmpty <$> lock.attrGet "tools" .null
  let known ← tools.toSet
  let missing := missingTools known required
  let found ← required.mapM (toolProblems run image tools)
  pure <|
    (if status.pyEq (.str "verified") then [] else ["lock status is not verified"]) ++
    (if imageRef.pyEq (.str image) then []
      else ["image ref mismatch: expected " ++ image ++ ", found " ++ imageRef.text]) ++
    (if missing = [] then [] else ["missing required tools: " ++ joinText ", " missing]) ++
    found.flatten

def lockedTools (lock : Json) : Json := orEmpty ((orEmpty lock).getD "tools" .null)

/-- A value that is recorded: neither missing, nor null, nor blank. -/
def recorded (entry : Json) (key : String) : Option String :=
  match entry.getD key .null with
  | .null => none
  | j => if strip j.text = "" then none else some (strip j.text)

/-- The lock records the version and the digest of the tool, and its probe shows both. -/
def Verified (lock : Json) (name : String) : Prop :=
  ∃ entry version digest done, (lockedTools lock).get? name = some entry ∧
    recorded entry "version" = some version ∧ recorded entry "sha256" = some digest ∧
    run (probeCommand image name) = .ok done ∧ shown name done = (version, digest)

/-- A lock without problems has verified every required tool. -/
def FailsClosed (lock : Json) (required : List String) : Prop :=
  verifyContainerBinaryLock run image lock required = .ok [] →
    ∀ name ∈ required, Verified run image lock name

/-- Nothing that could be compared is missing, in the lock or in the probe. -/
def Complete (lock : Json) (name : String) : Prop :=
  ∃ entry version digest done, (lockedTools lock).get? name = some entry ∧
    recorded entry "version" = some version ∧ recorded entry "sha256" = some digest ∧
    run (probeCommand image name) = .ok done ∧ (shown name done).1 ≠ "" ∧ (shown name done).2 ≠ ""

/-- `str(entry.get(key, "")).strip()` of an entry that is an object. -/
def written (entry : Json) (key : String) : String := strip (entry.getD key (.str "")).text

/-- Two texts that differ only where one of them is empty. -/
def Unopposed (a b : String) : Prop := a = "" ∨ b = "" ∨ a = b

/-- The probe of an entry passes, and opposes nothing that the entry says. -/
structure Agrees (name : String) (entry : Json) : Prop where
  mapping : entry.isObj = true
  probed : ∃ done, run (probeCommand image name) = .ok done ∧ done.returncode = 0 ∧
    Unopposed (written entry "version") (shown name done).1 ∧
    (written entry "probe_output" = "" ∨
      containsText done.output (written entry "probe_output") = true) ∧
    Unopposed (written entry "sha256") (shown name done).2

/-- All is in order besides: the status, the image, an entry for each required tool, and
no entry that its probe opposes. -/
structure OtherwiseInOrder (lock : Json) (required : List String) : Prop where
  mapping : (orEmpty lock).isObj = true
  image_mapping : (orEmpty ((orEmpty lock).getD "image" .null)).isObj = true
  tools_mapping : (lockedTools lock).isObj = true
  status : ((orEmpty lock).getD "status" .null).pyEq (.str "verified") = true
  ref : ((orEmpty ((orEmpty lock).getD "image" .null)).getD "ref" .null).pyEq (.str image) = true
  listed : ∀ name ∈ required, ∃ entry, (lockedTools lock).get? name = some entry ∧
    (entry = .null ∨ Agrees run image name entry)

end Verify

section Facts

variable {run : String → Py Completed} {image name : String} {lock entry : Json}
  {required : List String}

/-- A field is read of an object only. -/
theorem attrGet_eq_ok {j v d : Json} {key : String} :
    j.attrGet key d = .ok v ↔ j.isObj = true ∧ j.getD key d = v := by
  cases j with
  | obj fields => simp [Json.attrGet, Json.isObj, Json.getD, Json.get?]
  | _ => simp [Json.attrGet, Json.isObj]

theorem entryProblems_eq_nil :
    entryProblems run image name entry = .ok [] ↔ Agrees run image name entry := by
  have hExpected : ∀ key text, expected entry key = .ok text ↔
      entry.isObj = true ∧ written entry key = text := by
    intro key text
    simp only [expected, bind_eq_ok, attrGet_eq_ok, pure_eq_ok]
    constructor
    · rintro ⟨v, ⟨hObj, rfl⟩, rfl⟩
      exact ⟨hObj, rfl⟩
    · rintro ⟨hObj, rfl⟩
      exact ⟨_, ⟨hObj, rfl⟩, rfl⟩
  have hOpposed : ∀ a b : String, ¬(a ≠ "" ∧ b ≠ "" ∧ a ≠ b) ↔ Unopposed a b := by
    intro a b
    rw [Unopposed, not_and_or, not_and_or, not_not, not_not, not_not]
  simp only [entryProblems, bind_eq_ok, hExpected]
  constructor
  · rintro ⟨_, ⟨hObj, rfl⟩, _, ⟨-, rfl⟩, _, ⟨-, rfl⟩, done, hRun, h⟩
    refine ⟨hObj, done, hRun, ?_⟩
    split at h
    · simp [pure_eq_ok] at h
    · rename_i hZero
      rw [pure_eq_ok, List.append_eq_nil_iff, List.append_eq_nil_iff] at h
      simp only [ite_eq_right_iff, List.cons_ne_nil, imp_false, hOpposed] at h
      refine ⟨not_not.mp hZero, h.1.1, ?_, h.2⟩
      simpa [or_iff_not_imp_left] using h.1.2
  · rintro ⟨hObj, done, hRun, hZero, hVersion, hProbe, hDigest⟩
    refine ⟨_, ⟨hObj, rfl⟩, _, ⟨hObj, rfl⟩, _, ⟨hObj, rfl⟩, done, hRun, ?_⟩
    rw [if_neg (not_not.mpr hZero), pure_eq_ok, List.append_eq_nil_iff, List.append_eq_nil_iff]
    simp only [ite_eq_right_iff, List.cons_ne_nil, imp_false, hOpposed]
    refine ⟨⟨hVersion, ?_⟩, hDigest⟩
    simpa [or_iff_not_imp_left] using hProbe

/-- The keys of an object, as `set` lists them. -/
theorem toSet_obj (fields : Fields) :
    (Json.obj fields).toSet = .ok (fields.map fun p => .str p.1) := by
  induction fields with
  | nil => rfl
  | cons p rest ih =>
      have hStep : (Json.obj (p :: rest)).toSet =
          (Json.obj rest).toSet >>= fun items => pure (.str p.1 :: items) := by
        simp only [Json.toSet, Json.iter, List.map_cons, pure_bind, List.mapM_cons]
      rw [hStep, ih]
      rfl

theorem listed_iff {fields : Fields} :
    ((fields.map fun p => Json.str p.1).any fun j => j.pyEq (.str name)) = true ↔
      ∃ value, getField? name fields = some value := by
  induction fields with
  | nil => simp [getField?]
  | cons p rest ih =>
      obtain ⟨k, v⟩ := p
      by_cases hKey : k = name
      · simp [getField?, hKey, Json.pyEq]
      · rw [List.map_cons, List.any_cons, Bool.or_eq_true, ih]
        simp [getField?, hKey, Json.pyEq]

theorem missingTools_eq_nil {fields : Fields} :
    missingTools (fields.map fun p => .str p.1) required = [] ↔
      ∀ name ∈ required, ∃ value, getField? name fields = some value := by
  rw [missingTools, ← List.length_eq_zero_iff, List.length_mergeSort, List.length_eq_zero_iff,
    List.filter_eq_nil_iff]
  simp only [List.mem_dedup, Bool.not_eq_true', Bool.not_eq_false, listed_iff]

theorem toolProblems_eq_nil {fields : Fields} (h : getField? name fields = some entry) :
    toolProblems run image (.obj fields) name = .ok [] ↔
      entry = .null ∨ Agrees run image name entry := by
  simp only [toolProblems, Json.attrGet, h, Option.getD_some, bind_eq_ok, pure_eq_ok,
    exists_eq_left']
  split
  · rename_i hNull
    simp [hNull]
  · rename_i hEntry
    rw [entryProblems_eq_nil]
    simp [hEntry]

/-- There are no problems when no item has one. -/
theorem flatten_forall₂ {problems : String → Py (List String)} {found : List (List String)}
    (h : List.Forall₂ (fun name y => problems name = .ok y) required found) :
    found.flatten = [] ↔ ∀ name ∈ required, problems name = .ok [] := by
  induction h with
  | nil => simp
  | cons hHead _ ih =>
      rw [List.flatten_cons, List.append_eq_nil_iff, ih, List.forall_mem_cons, hHead,
        Except.ok.injEq]

/-- Without problems all that is compared is in order. -/
theorem inOrder_of_nil (hRequired : required ≠ [])
    (h : verifyContainerBinaryLock run image lock required = .ok []) :
    OtherwiseInOrder run image lock required := by
  simp only [verifyContainerBinaryLock, bind_eq_ok, attrGet_eq_ok, map_eq_ok, pure_eq_ok,
    List.append_eq_nil_iff, mapM_eq_ok] at h
  obtain ⟨status, ⟨hLock, rfl⟩, locked, ⟨-, rfl⟩, ref, ⟨hImage, rfl⟩, tools, ⟨inner, ⟨-, rfl⟩, rfl⟩,
    known, hKnown, found, hFound, ⟨⟨hStatus, hRef⟩, hMissing⟩, hNone⟩ := h
  rw [flatten_forall₂ hFound] at hNone
  change (lockedTools lock).toSet = .ok known at hKnown
  have hEach : ∀ name ∈ required, toolProblems run image (lockedTools lock) name = .ok [] := hNone
  cases hTools : lockedTools lock with
  | obj fields =>
      rw [hTools] at hEach hKnown
      obtain rfl := Except.ok.inj (hKnown.symm.trans (toSet_obj fields))
      have hAll : missingTools (fields.map fun p => .str p.1) required = [] := by
        simpa using hMissing
      refine ⟨hLock, hImage, by rw [hTools]; rfl, by simpa using hStatus, by simpa using hRef,
        fun name hName => ?_⟩
      obtain ⟨entry, hEntry⟩ := missingTools_eq_nil.mp hAll name hName
      exact ⟨entry, by rw [hTools]; exact hEntry,
        (toolProblems_eq_nil hEntry).mp (hEach name hName)⟩
  | _ =>
      obtain ⟨name, hName⟩ := List.exists_mem_of_ne_nil required hRequired
      have hProblem := hEach name hName
      rw [hTools] at hProblem
      simp [toolProblems, Json.attrGet, bind_eq_ok] at hProblem

/-- Where all that is compared is in order there are no problems. -/
theorem OtherwiseInOrder.nil (h : OtherwiseInOrder run image lock required) :
    verifyContainerBinaryLock run image lock required = .ok [] := by
  obtain ⟨fields, hTools⟩ : ∃ fields, lockedTools lock = .obj fields := by
    have hMapping := h.tools_mapping
    cases hTools : lockedTools lock with
    | obj fields => exact ⟨fields, rfl⟩
    | _ => simp [hTools, Json.isObj] at hMapping
  have hListed := h.listed
  rw [hTools] at hListed
  have hMissing : missingTools (fields.map fun p => .str p.1) required = [] := by
    refine missingTools_eq_nil.mpr fun name hName => ?_
    obtain ⟨entry, hEntry, -⟩ := hListed name hName
    exact ⟨entry, hEntry⟩
  have hFound : List.Forall₂ (fun name y => toolProblems run image (.obj fields) name = .ok y)
      required (required.map fun _ => []) := by
    rw [List.forall₂_map_right_iff, List.forall₂_same]
    intro name hName
    obtain ⟨entry, hEntry, hFine⟩ := hListed name hName
    exact (toolProblems_eq_nil hEntry).mpr hFine
  simp only [verifyContainerBinaryLock, bind_eq_ok, attrGet_eq_ok, map_eq_ok, pure_eq_ok,
    mapM_eq_ok]
  refine ⟨_, ⟨h.mapping, rfl⟩, _, ⟨h.mapping, rfl⟩, _, ⟨h.image_mapping, rfl⟩, lockedTools lock,
    ⟨_, ⟨h.mapping, rfl⟩, rfl⟩, _, hTools ▸ toSet_obj fields, _, hTools ▸ hFound, ?_⟩
  rw [if_pos h.status, if_pos h.ref, if_pos hMissing]
  simp

/-- What is recorded is written, and not empty. -/
theorem recorded_eq_some {key text : String} (h : recorded entry key = some text) :
    text ≠ "" ∧ written entry key = text := by
  have hKey : ∀ d : Json, entry.getD key .null ≠ .null → entry.getD key d = entry.getD key .null := by
    intro d hNot
    unfold Json.getD at hNot ⊢
    cases hGet : entry.get? key with
    | none => simp [hGet] at hNot
    | some j => rfl
  unfold recorded at h
  split at h
  · cases h
  · rename_i hValue
    split at h
    · cases h
    · rename_i hText
      cases h
      exact ⟨hText, by rw [written, hKey _ hValue]⟩

/-- A tool whose probe opposes nothing is verified where nothing is missing. -/
theorem Agrees.verified (hEntry : (lockedTools lock).get? name = some entry)
    (h : Agrees run image name entry) :
    Verified run image lock name ↔ Complete run image lock name := by
  constructor
  · rintro ⟨entry, version, digest, done, hFound, hVersion, hDigest, hRun, hShown⟩
    refine ⟨entry, version, digest, done, hFound, hVersion, hDigest, hRun, ?_, ?_⟩
    · rw [hShown]
      exact (recorded_eq_some hVersion).1
    · rw [hShown]
      exact (recorded_eq_some hDigest).1
  · rintro ⟨entry', version, digest, done, hFound, hVersion, hDigest, hRun, hFirst, hSecond⟩
    rw [hEntry, Option.some.injEq] at hFound
    subst hFound
    obtain ⟨-, done', hRun', -, hSame, -, hSame'⟩ := h
    rw [hRun, Except.ok.injEq] at hRun'
    subst hRun'
    obtain ⟨hSome, hWritten⟩ := recorded_eq_some hVersion
    obtain ⟨hSome', hWritten'⟩ := recorded_eq_some hDigest
    rw [hWritten] at hSame
    rw [hWritten'] at hSame'
    have hLeft : version = (shown name done).1 :=
      (hSame.resolve_left hSome).resolve_left hFirst
    have hRight : digest = (shown name done).2 :=
      (hSame'.resolve_left hSome').resolve_left hSecond
    exact ⟨entry, version, digest, done, hEntry, hVersion, hDigest, hRun, Prod.ext hLeft.symm hRight.symm⟩

/-- The lock fails closed if and only if, wherever all that is compared is in order, nothing
that should be compared is missing. -/
theorem failsClosed_iff (run : String → Py Completed) (image : String) (lock : Json)
    (required : List String) : FailsClosed run image lock required ↔
      (OtherwiseInOrder run image lock required →
        ∀ name ∈ required, Complete run image lock name) := by
  have hTool : OtherwiseInOrder run image lock required → ∀ name ∈ required,
      (Verified run image lock name ↔ Complete run image lock name) := by
    intro hOrder name hName
    obtain ⟨entry, hEntry, hNull | hAgrees⟩ := hOrder.listed name hName
    · subst hNull
      constructor
      · rintro ⟨entry, version, digest, done, hFound, hVersion, -⟩
        rw [hEntry, Option.some.injEq] at hFound
        subst hFound
        cases hVersion
      · rintro ⟨entry, version, digest, done, hFound, hVersion, -⟩
        rw [hEntry, Option.some.injEq] at hFound
        subst hFound
        cases hVersion
    · exact hAgrees.verified hEntry
  constructor
  · intro hCloses hOrder name hName
    exact (hTool hOrder name hName).mp (hCloses hOrder.nil name hName)
  · intro hComplete hNil name hName
    have hOrder := inOrder_of_nil (List.ne_nil_of_mem hName) hNil
    exact (hTool hOrder name hName).mpr (hComplete hOrder name hName)

end Facts

section Sample

def sampleImage : String := "ghcr.io/foundry-rs/foundry@sha256:2e42"

/-- A lock that records a version and a digest of one tool. -/
def sampleLock : Json := .obj
  [("image", .obj [("ref", .str sampleImage)]), ("status", .str "verified"),
    ("tools", .obj [("forge", .obj [("sha256", .str "a808"), ("version", .str "1.8.3")])])]

/-- The probe of an image without `sha256sum` ends well, and shows no digest. -/
def silentProbe (_ : String) : Py Completed := .ok ⟨0, "=== forge ===\n1.8.3\n", ""⟩

/-- A probe that shows no digest passes all the same. -/
theorem silent_probe_passes : ¬FailsClosed silentProbe sampleImage sampleLock ["forge"] := by
  intro h
  have hNil : verifyContainerBinaryLock silentProbe sampleImage sampleLock ["forge"] = .ok [] := by
    decide +kernel
  obtain ⟨entry, version, digest, done, -, -, hDigest, hRun, hShown⟩ :=
    h hNil "forge" (List.mem_singleton_self _)
  cases hRun
  have hNone : (shown "forge" ⟨0, "=== forge ===\n1.8.3\n", ""⟩).2 = "" := by decide
  rw [hShown] at hNone
  exact (recorded_eq_some hDigest).1 hNone

end Sample
end L0vi0x.Tools
