import L0vi0x.Chain.SourceCopy
import L0vi0x.Verifier.ReplayAgreement

/-! What the loader sees of the retained tree besides the artifacts. The observation in the
environment artifact is taken as it was recorded; of the files that it speaks of only the
declared harness source is hashed again. -/
namespace L0vi0x.Python

/-- The file system after any of its files were rewritten: `readAt` is what they hold now. -/
def FileSystem.rewritten (fs : FileSystem) (readAt : Path → Except String Bytes) : FileSystem :=
  { fs with readAt := readAt }

variable {fs : FileSystem} {readAt : Path → Except String Bytes} {p : Path}

/-- A file that was not rewritten has the bytes that it had. -/
theorem FileSystem.readBytes_rewritten (h : readAt (fs.real p) = fs.readAt (fs.real p)) :
    (fs.rewritten readAt).readBytes p = fs.readBytes p := by
  simp only [readBytes, rewritten, h]

/-- A file that was not rewritten has the text that it had. -/
theorem FileSystem.readText_rewritten (h : readAt (fs.real p) = fs.readAt (fs.real p)) :
    (fs.rewritten readAt).readText p = fs.readText p := by
  simp only [readText, readBytes_rewritten h]

/-- The bytes of a path are those of the file that it leads to. -/
theorem FileSystem.readBytes_eq_ok {raw : Bytes} :
    fs.readBytes p = .ok raw ↔ fs.readAt (fs.real p) = .ok raw := by
  rw [readBytes]
  cases fs.readAt (fs.real p) <;> simp [systemCall, raise, pure, Except.pure]

end L0vi0x.Python

namespace L0vi0x.Verifier

open L0vi0x.Python L0vi0x.Core L0vi0x.Chain

section Edits

variable {host : Host} {fs : FileSystem} {readAt : Path → Except String Bytes} {w : Witness}
  {catalog : List (String × String)}

section Manifest

variable {root p : Path}

/-- A file that the source manifest lists: every source, test and configuration file of the
tree, and no generated one. -/
structure IsSource (fs : FileSystem) (root p : Path) : Prop where
  listed : p ∈ fs.walk root
  file : fs.isFile p = .ok true
  included : excludedSource (below root p) = false

def contentRow (host : Host) (root p : Path) (raw : Bytes) : String :=
  (below root p).text ++ ":" ++ host.sha256 raw

/-- The row of a listed file is that of its bytes, where they can be read. -/
theorem manifestRow_source (hFile : fs.isFile p = .ok true)
    (hIncluded : excludedSource (below root p) = false) {row : List String} :
    manifestRow host fs root p = .ok row ↔
      ∃ raw, fs.readBytes p = .ok raw ∧ row = [contentRow host root p raw] := by
  simp only [manifestRow, hFile, hIncluded, sha256File, bind_eq_ok, pure_eq_ok, Except.ok.injEq,
    exists_eq_left', ↓reduceIte, Bool.false_eq_true, map_eq_ok]
  constructor
  · rintro ⟨_, ⟨raw, hRaw, rfl⟩, rfl⟩
    exact ⟨raw, hRaw, rfl⟩
  · rintro ⟨raw, hRaw, rfl⟩
    exact ⟨_, ⟨raw, hRaw, rfl⟩, rfl⟩

theorem manifestRow_other {row : List String} (h : manifestRow host fs root p = .ok row)
    (hOther : ¬ (fs.isFile p = .ok true ∧ excludedSource (below root p) = false)) : row = [] := by
  simp only [manifestRow, bind_eq_ok] at h
  obtain ⟨present, hFile, h⟩ := h
  cases present with
  | false => exact (pure_eq_ok.mp h).symm
  | true =>
      cases hExcluded : excludedSource (below root p) with
      | false => exact absurd ⟨hFile, hExcluded⟩ hOther
      | true =>
          simp only [hExcluded, ↓reduceIte, pure_eq_ok] at h
          exact h.symm

/-- A line ends at its first line end. -/
theorem line_inj {line line' rest rest' : List Char} (hLine : '\n' ∉ line) (hLine' : '\n' ∉ line')
    (h : line ++ '\n' :: rest = line' ++ '\n' :: rest') : line = line' ∧ rest = rest' := by
  induction line generalizing line' with
  | nil =>
      cases line' with
      | nil => exact ⟨rfl, (List.cons.inj h).2⟩
      | cons c more =>
          have hHead := (List.cons.inj h).1
          exact absurd (hHead ▸ List.mem_cons_self ..) hLine'
  | cons c more ih =>
      cases line' with
      | nil =>
          have hHead := (List.cons.inj h).1
          exact absurd (hHead ▸ List.mem_cons_self ..) hLine
      | cons d more' =>
          obtain ⟨rfl, hTail⟩ := List.cons.inj h
          obtain ⟨rfl, hRest⟩ := ih (fun hIn => hLine (List.mem_cons_of_mem _ hIn))
            (fun hIn => hLine' (List.mem_cons_of_mem _ hIn)) hTail
          exact ⟨rfl, hRest⟩

/-- Rows that make the same text carry the same digests: a digest ends at its line. -/
theorem digests_of_text (hDigests : ∀ raw, '\n' ∉ (host.sha256 raw).toList) {walk : List Path}
    {rows rows' : List (List String)}
    (hRows : List.Forall₂ (fun p row => manifestRow host fs root p = .ok row) walk rows)
    (hRows' : List.Forall₂ (fun p row => manifestRow host (fs.rewritten readAt) root p = .ok row)
      walk rows')
    (hText : rowsText rows.flatten = rowsText rows'.flatten) :
    ∀ p ∈ walk, fs.isFile p = .ok true → excludedSource (below root p) = false →
      ∃ raw raw', fs.readBytes p = .ok raw ∧ (fs.rewritten readAt).readBytes p = .ok raw' ∧
        host.sha256 raw = host.sha256 raw' := by
  rw [← String.toList_inj, rowsText_toList, rowsText_toList] at hText
  induction walk generalizing rows rows' with
  | nil => simp
  | cons q walk ih =>
      obtain ⟨row, rest, hRow, hRest, rfl⟩ := List.forall₂_cons_left_iff.mp hRows
      obtain ⟨row', rest', hRow', hRest', rfl⟩ := List.forall₂_cons_left_iff.mp hRows'
      rw [List.flatten_cons, List.flatten_cons, List.flatMap_append, List.flatMap_append] at hText
      by_cases hSource : fs.isFile q = .ok true ∧ excludedSource (below root q) = false
      · have hFile' : (fs.rewritten readAt).isFile q = .ok true := hSource.1
        obtain ⟨raw, hRaw, rfl⟩ := (manifestRow_source hSource.1 hSource.2).mp hRow
        obtain ⟨raw', hRaw', rfl⟩ := (manifestRow_source hFile' hSource.2).mp hRow'
        simp only [contentRow, List.flatMap_cons, List.flatMap_nil, List.append_nil,
          String.toList_append, List.append_assoc, List.append_cancel_left_eq,
          List.singleton_append] at hText
        obtain ⟨hDigest, hText⟩ := line_inj (hDigests raw) (hDigests raw') hText
        refine List.forall_mem_cons.mpr ⟨fun _ _ => ?_, ih hRest hRest' hText⟩
        exact ⟨raw, raw', hRaw, hRaw', String.toList_inj.mp hDigest⟩
      · have hNone := manifestRow_other hRow hSource
        have hNone' := manifestRow_other hRow' hSource
        subst hNone hNone'
        refine List.forall_mem_cons.mpr ⟨fun hFile hIncluded => ?_, ih hRest hRest' hText⟩
        exact absurd ⟨hFile, hIncluded⟩ hSource

/-- Two contents of a tree have the same manifest only if all of its sources are the same. -/
theorem source_of_manifest (hSha : host.CollisionFree)
    (hDigests : ∀ raw, '\n' ∉ (host.sha256 raw).toList) {manifest : String}
    (h : sourceManifest host fs root = .ok manifest)
    (h' : sourceManifest host (fs.rewritten readAt) root = .ok manifest) (hp : IsSource fs root p) :
    readAt (fs.real p) = fs.readAt (fs.real p) := by
  simp only [sourceManifest, bind_eq_ok, pure_eq_ok, mapM_eq_ok] at h h'
  obtain ⟨rows, hRows, rfl⟩ := h
  obtain ⟨rows', hRows', hManifest⟩ := h'
  have hText : rowsText rows.flatten = rowsText rows'.flatten :=
    (encodeUtf8_injective (hSha hManifest)).symm
  obtain ⟨raw, raw', hRaw, hRaw', hDigest⟩ :=
    digests_of_text hDigests hRows hRows' hText p hp.listed hp.file hp.included
  rw [hSha hDigest] at hRaw
  exact (FileSystem.readBytes_eq_ok.mp hRaw').trans (FileSystem.readBytes_eq_ok.mp hRaw).symm

end Manifest

section Observation

variable {root : Path} {testFile : String} {witnessClass : WitnessClass}
  {libraries plans : List String} {o : TreeObservation}

/-- Of an observation only the digests of the tree and of the test file are of use here. -/
theorem observeTree_digests
    (h : observeTree host fs root testFile witnessClass libraries plans = .ok o) :
    sourceManifest host fs root = .ok o.sourceManifestSha256 ∧
      sha256File host fs (root.join testFile) = .ok o.templateSha256 := by
  simp only [observeTree, bind_eq_ok, except_eq_ok] at h
  obtain ⟨_, _, h | ⟨_, _, _, h⟩⟩ := h
  · obtain ⟨_, _, _, _, _, _, _, _, template, hTemplate, _, _, _, _, _, _, _, _, manifest, hManifest,
      hObservation⟩ := h
    rw [pure_eq_ok] at hObservation
    subst hObservation
    exact ⟨hManifest, hTemplate⟩
  · cases h

end Observation

section Loads

variable {dir : Path} {run : DerivedReplayRun}

/-- The observation that an environment artifact records. -/
def observationOf (env : Fields) : Py TreeObservation :=
  ((Json.obj env).item "observation" >>= Json.toDict) >>= TreeObservation.fromDict

/-- Whatever run is loaded from a directory, observing its tree again gives the observation
that it recorded. -/
def ObservedAsRecorded (host : Host) (fs : FileSystem) (dir : Path) (w : Witness)
    (catalog : List (String × String)) (testFile : String) (witnessClass : WitnessClass)
    (libraries plans : List String) : Prop :=
  ∀ run, loadRun host fs dir w catalog = .ok run →
    ∃ o, observationOf run.environment = .ok o ∧
      observeTree host fs run.root testFile witnessClass libraries plans = .ok o

/-- One of the eight files that the loader asks for below the root of a run. -/
def IsArtifact (fs : FileSystem) (repoRoot p : Path) : Prop :=
  ∃ root a, artifactRoot fs repoRoot = .ok root ∧ artifactPath fs root repoRoot a = .ok p

def harnessSource (w : Witness) (root : Path) : Path := root.join (w.harnessSourcePath.getD "")

/-- The witness declares the harness source, and that file was rewritten. -/
structure HarnessEdited (fs : FileSystem) (readAt : Path → Except String Bytes) (w : Witness)
    (root : Path) : Prop where
  declared : declaresHarnessSource w = true
  edited : readAt (fs.real (harnessSource w root)) ≠ fs.readAt (fs.real (harnessSource w root))

/-- A harness that is still as declared was not edited, since digests do not collide. -/
theorem harness_unedited (hSha : host.CollisionFree) {o o' : TreeObservation} {root : Path}
    (h : Chain.Declared host fs o w root) (h' : Chain.Declared host (fs.rewritten readAt) o' w root) :
    ¬ HarnessEdited fs readAt w root := by
  rintro ⟨hDeclares, hEdited⟩
  obtain ⟨actual, hFile, hDigest⟩ := h.harnessSource hDeclares
  obtain ⟨actual', hFile', hDigest'⟩ := h'.harnessSource hDeclares
  obtain ⟨raw, hRaw, rfl⟩ := map_eq_ok.mp hFile
  obtain ⟨raw', hRaw', rfl⟩ := map_eq_ok.mp hFile'
  have hSame : raw' = raw := hSha (Option.some.inj (hDigest'.trans hDigest.symm))
  rw [hSame] at hRaw'
  exact hEdited ((FileSystem.readBytes_eq_ok.mp hRaw').trans (FileSystem.readBytes_eq_ok.mp hRaw).symm)

theorem declared_rewritten {o : TreeObservation} {root : Path} (h : Chain.Declared host fs o w root)
    (hUnedited : ¬ HarnessEdited fs readAt w root) :
    Chain.Declared host (fs.rewritten readAt) o w root := by
  refine { h with harnessSource := fun hDeclares => ?_ }
  have hSame : readAt (fs.real (harnessSource w root)) = fs.readAt (fs.real (harnessSource w root)) := by
    by_contra hEdited
    exact hUnedited ⟨hDeclares, hEdited⟩
  obtain ⟨actual, hFile, hDigest⟩ := h.harnessSource hDeclares
  refine ⟨actual, ?_, hDigest⟩
  rw [sha256File, ← harnessSource, FileSystem.readBytes_rewritten hSame]
  exact hFile

/-- Where the artifacts stay, only an edit of the declared harness source keeps a run from
being loaded as before. -/
theorem loadRun_rewritten (hSha : host.CollisionFree)
    (hLoad : loadRun host fs dir w catalog = .ok run)
    (hArtifacts : ∀ p, IsArtifact fs run.root p → readAt (fs.real p) = fs.readAt (fs.real p))
    {run' : DerivedReplayRun} :
    loadRun host (fs.rewritten readAt) dir w catalog = .ok run' ↔
      ¬ HarnessEdited fs readAt w run.root ∧ run' = run := by
  obtain ⟨root, path, text, trace, controlTrace, h⟩ := loadRun_eq_ok.mp hLoad
  obtain ⟨o, versions, timestamp, block, hEnv⟩ := h.environment
  have hDeclared := checkDeclaration_eq_ok.mp hEnv.declared
  have hAgain (hUnedited : ¬ HarnessEdited fs readAt w run.root) :
      loadRun host (fs.rewritten readAt) dir w catalog = .ok run := by
    refine loadRun_eq_ok.mpr ⟨root, path, text, trace, controlTrace, ?_⟩
    exact {
      resolved := h.resolved
      artifacts := h.artifacts
      paths := h.paths
      files := h.files
      texts := fun a => (FileSystem.readText_rewritten
        (hArtifacts _ ⟨root, a, h.artifacts, h.paths a⟩)).trans (h.texts a)
      traceSha := h.traceSha
      controlSha := h.controlSha
      controlTraceSha := h.controlTraceSha
      control := h.control
      traceText := h.traceText
      controlTraceText := h.controlTraceText
      parsedTrace := h.parsedTrace
      parsedControlTrace := h.parsedControlTrace
      environment := ⟨o, versions, timestamp, block, { hEnv with
        declared := checkDeclaration_eq_ok.mpr (declared_rewritten hDeclared hUnedited) }⟩ }
  constructor
  · intro hLoad'
    obtain ⟨_, _, _, _, _, h'⟩ := loadRun_eq_ok.mp hLoad'
    obtain ⟨_, _, _, _, hEnv'⟩ := h'.environment
    have hRoot : run'.root = run.root := Except.ok.inj (h'.resolved.symm.trans h.resolved)
    have hUnedited : ¬ HarnessEdited fs readAt w run.root :=
      harness_unedited hSha hDeclared (hRoot ▸ checkDeclaration_eq_ok.mp hEnv'.declared)
    exact ⟨hUnedited, Except.ok.inj (hLoad'.symm.trans (hAgain hUnedited))⟩
  · rintro ⟨hUnedited, rfl⟩
    exact hAgain hUnedited

/-- A run was loaded from a tree that is as it was recorded, and then any of the sources
listed in the manifest were rewritten. Loading fails exactly when the declared harness
source is among them; so the tree is as it was recorded, or not loaded, exactly when
nothing or the declared harness source was rewritten. -/
theorem edits_noticed_iff (hSha : host.CollisionFree)
    (hDigests : ∀ raw, '\n' ∉ (host.sha256 raw).toList) {testFile : String}
    {witnessClass : WitnessClass} {libraries plans : List String}
    (hLoad : loadRun host fs dir w catalog = .ok run)
    (hRecorded : ObservedAsRecorded host fs dir w catalog testFile witnessClass libraries plans)
    (hArtifacts : ∀ p, IsArtifact fs run.root p → readAt (fs.real p) = fs.readAt (fs.real p))
    (hSources : ∀ q, readAt q ≠ fs.readAt q → ∃ p, IsSource fs run.root p ∧ fs.real p = q) :
    (¬ returns (loadRun host (fs.rewritten readAt) dir w catalog) ↔
      HarnessEdited fs readAt w run.root) ∧
    (ObservedAsRecorded host (fs.rewritten readAt) dir w catalog testFile witnessClass libraries
        plans ↔
      readAt = fs.readAt ∨ HarnessEdited fs readAt w run.root) := by
  have hAgain {run' : DerivedReplayRun} : loadRun host (fs.rewritten readAt) dir w catalog =
      .ok run' ↔ ¬ HarnessEdited fs readAt w run.root ∧ run' = run :=
    loadRun_rewritten hSha hLoad hArtifacts
  constructor
  · simp only [returns, hAgain, exists_and_left, exists_eq, and_true, not_not]
  constructor
  · intro hAfter
    rw [or_iff_not_imp_right]
    intro hUnedited
    obtain ⟨o, hRecord, hObserved⟩ := hRecorded run hLoad
    obtain ⟨o', hRecord', hObserved'⟩ := hAfter run (hAgain.mpr ⟨hUnedited, rfl⟩)
    obtain rfl : o' = o := Except.ok.inj (hRecord'.symm.trans hRecord)
    funext q
    by_contra hEdited
    obtain ⟨p, hSource, rfl⟩ := hSources q hEdited
    exact hEdited (source_of_manifest hSha hDigests (observeTree_digests hObserved).1
      (observeTree_digests hObserved').1 hSource)
  · rintro (rfl | hEdited) run' hLoad'
    · exact hRecorded run' hLoad'
    · exact absurd hEdited (hAgain.mp hLoad').1

end Loads
end Edits

namespace Sample

/-- Whether the manifest of a run lists a path. -/
def listed (i : Fin 3) (p : Path) : Bool :=
  treeKeys.val.contains p && !excludedSource (below (runDir i) p)

/-- The files of a run that its manifest lists, in their order. -/
def listedFiles : List (List String × PlainText) :=
  [(["foundry.toml"], foundryText), (["src", Contract.harness.file], Contract.harness.source),
    (["src", Contract.wrapper.file], Contract.wrapper.source), (["test", "T.t.sol"], testText)]

/-- What the paths and the texts of a run alone say. -/
theorem run_facts : (∀ i : Fin 3,
    (MemoryFiles.entries treeKeys.val (runDir i)).filter (listed i) =
      listedFiles.map fun f => (runDir i).under f.1) ∧
    listedFiles.all (fun f => !excludedSource ⟨"", f.1⟩) = true ∧
    (∀ i : Fin 3, treeKeys.val.any (·.isRelativeTo ((runDir i).under ["remappings.txt"])) = false) ∧
    markedRegionSha256 host testText.text "ATTACK BODY" = .ok observation.attackBodySha256 ∧
    markedRegionSha256 host testText.text "WRAPPER CALLSITE" =
      .ok observation.wrapperCallsiteSha256 := by
  decide +kernel

theorem listedFiles_sources : ∀ f ∈ listedFiles, f ∈ sourceFiles := by
  simp [listedFiles, sourceFiles, Contract.files]

/-- The rows of the listed files are those of the manifest. -/
theorem listedFiles_rows : listedFiles.map (fun f =>
    (⟨"", f.1⟩ : Python.Path).text ++ ":" ++ host.sha256Text f.2.text) = manifestRows := rfl

variable {runs : Fin 3 → Recorded}

variable (runs) in
def rowsOf (i : Fin 3) (p : Path) : List String :=
  match (tree runs).content? p with
  | some s =>
      if excludedSource (below (runDir i) p) then []
      else [contentRow host (runDir i) p (encodeUtf8 s.text)]
  | none => []

/-- The rows of a path of a run are computed without the rest of the tree. -/
theorem manifestRow_run (i : Fin 3) (p : Path) :
    manifestRow host (tree runs).fileSystem (runDir i) p = .ok (rowsOf runs i p) := by
  cases hContent : (tree runs).content? p with
  | none =>
      have hFile : (tree runs).fileSystem.isFile p = .ok false := by
        change (pure ((tree runs).content? p).isSome : Py Bool) = _
        rw [hContent]
        rfl
      rw [manifestRow, hFile, rowsOf, hContent]
      rfl
  | some s =>
      cases hExcluded : excludedSource (below (runDir i) p) with
      | true =>
          simp [manifestRow, rowsOf, MemoryFiles.isFile_of_content hContent, hContent, hExcluded,
            bind, Except.bind, pure, Except.pure]
      | false =>
          have hFile := MemoryFiles.isFile_of_content hContent
          have hRow := (@manifestRow_source host _ _ _ hFile hExcluded
            [contentRow host (runDir i) p (encodeUtf8 s.text)]).mpr
              ⟨_, MemoryFiles.readBytes_of_content hContent, rfl⟩
          rw [hRow, rowsOf, hContent]
          simp [hExcluded]

theorem rowsOf_unlisted {i : Fin 3} {p : Path} (h : listed i p = false) : rowsOf runs i p = [] := by
  rw [rowsOf]
  cases hContent : (tree runs).content? p with
  | none => rfl
  | some s =>
      have hKey : p ∈ treeKeys.val := by
        rw [MemoryFiles.content?, Option.map_eq_some_iff] at hContent
        obtain ⟨f, hFound, _⟩ := hContent
        have hIs : f.1 = p := by simpa using List.find?_some hFound
        rw [← hIs, ← tree_keys runs]
        exact List.mem_map_of_mem (List.mem_of_find?_eq_some hFound)
      rw [listed, List.contains_iff_mem.mpr hKey, Bool.true_and, Bool.not_eq_false'] at h
      simp [h]

theorem rowsOf_source (i : Fin 3) {f : List String × PlainText} (h : f ∈ sourceFiles)
    (hIncluded : excludedSource ⟨"", f.1⟩ = false) :
    rowsOf runs i ((runDir i).under f.1) =
      [(⟨"", f.1⟩ : Python.Path).text ++ ":" ++ host.sha256Text f.2.text] := by
  have hBelow : below (runDir i) ((runDir i).under f.1) = ⟨"", f.1⟩ := by simp [below, Path.under]
  rw [rowsOf, content_source i h]
  simp only [hBelow, hIncluded, contentRow]
  rfl

/-- The source manifest of a run is the one that its environment records. -/
theorem sourceManifest_run (i : Fin 3) :
    sourceManifest host (tree runs).fileSystem (runDir i) =
      .ok observation.sourceManifestSha256 := by
  have hWalk : (tree runs).fileSystem.walk (runDir i) =
      MemoryFiles.entries treeKeys.val (runDir i) := by
    rw [← tree_keys runs]
    rfl
  have hRows : (MemoryFiles.entries treeKeys.val (runDir i)).mapM
      (manifestRow host (tree runs).fileSystem (runDir i)) =
        .ok ((MemoryFiles.entries treeKeys.val (runDir i)).map (rowsOf runs i)) := by
    rw [mapM_eq_ok, List.forall₂_map_right_iff, List.forall₂_same]
    exact fun p _ => manifestRow_run i p
  have hText : rowsText ((MemoryFiles.entries treeKeys.val (runDir i)).flatMap (rowsOf runs i)) =
      rowsText manifestRows := by
    rw [← (rowsText_filter_eq_iff (rowsOf runs i) (listed i) _).mpr fun p _ => rowsOf_unlisted,
      run_facts.1 i, List.flatMap_map, ← listedFiles_rows, List.map_eq_flatMap]
    refine congrArg rowsText (List.flatMap_congr fun f hf => ?_)
    exact rowsOf_source i (listedFiles_sources f hf)
      (by simpa using List.all_eq_true.mp run_facts.2.1 f hf)
  simp only [sourceManifest, hWalk, hRows, bind_eq_ok, Except.ok.injEq, exists_eq_left', pure_eq_ok]
  rw [← List.flatMap_def]
  exact congrArg host.sha256Text hText

/-- The configuration of a run has the default profile and its endpoints. -/
theorem readFoundryToml_run (i : Fin 3) :
    readFoundryToml host (tree runs).fileSystem (runDir i) =
      .ok [("profile", .obj [("default", profile)]), ("rpc_endpoints", endpoints)] := by
  have hText : (tree runs).fileSystem.readText ((runDir i).join "foundry.toml") =
      .ok foundryText.text := by
    rw [join_foundry]
    exact readText_source runs i (List.mem_append_left _ (List.mem_append_left _ (List.mem_cons_self ..)))
  have hToml : host.tomlLoads foundryText.text =
      .ok [("profile", .obj [("default", profile)]), ("rpc_endpoints", endpoints)] := by
    simp [host]
  simp only [readFoundryToml, except_eq_ok, bind_eq_ok]
  exact ⟨_, .inl hText, by rw [hToml]; rfl⟩

/-- Observing a run gives the observation that was recorded. -/
theorem observeTree_run (i : Fin 3) :
    observeTree host (tree runs).fileSystem (runDir i) "test/T.t.sol" .localDeployment [] [] =
      .ok observation := by
  have hJoin : (runDir i).join "test/T.t.sol" = (runDir i).under ["test", "T.t.sol"] :=
    join_relative (by simp [relativePaths]) _
  have hTest : (["test", "T.t.sol"], testText) ∈ sourceFiles := by simp [sourceFiles]
  have hCompiler : observeCompiler host (tree runs).fileSystem (runDir i) = .ok compiler := by
    rw [observeCompiler, defaultProfile, readFoundryToml_run]
    rfl
  have hRemappings : readRemappings (tree runs).fileSystem (runDir i) = .ok "" := by
    have hAbsent : (tree runs).fileSystem.pathExists ((runDir i).under ["remappings.txt"]) =
        .ok false := by
      have hNone := run_facts.2.2.1 i
      rw [← tree_keys runs] at hNone
      change (pure (((tree runs).map Prod.fst).any fun x =>
        x.isRelativeTo ((runDir i).under ["remappings.txt"])) : Py Bool) = _
      rw [hNone]
      rfl
    have hJoin : (runDir i).join "remappings.txt" = (runDir i).under ["remappings.txt"] :=
      join_relative (by simp [relativePaths]) _
    rw [readRemappings, hJoin, hAbsent]
    rfl
  simp only [observeTree, bind_eq_ok, except_eq_ok]
  refine ⟨_, readFoundryToml_run i, .inl ?_⟩
  rw [hJoin]
  exact ⟨_, readText_source runs i hTest, _, hCompiler, _, rfl, _, hRemappings, _,
    sha256File_source i hTest, _, run_facts.2.2.2.1, _, run_facts.2.2.2.2, _, rfl, _, rfl, _,
    sourceManifest_run i, rfl⟩

/-- The environment of a run records the observation of the tree. -/
theorem observationOf_run (i : Fin 3) :
    observationOf (derived runs i).environment = .ok observation := by
  have hDeclared : checkDeclaration host (tree runs).fileSystem observation witness (runDir i) =
      .ok () := checkDeclaration_run i
  obtain ⟨fields, hFields, hObservation⟩ :=
    ((retained_writable (runs i)).loadedEnvironment hDeclared).recorded
  exact bind_eq_ok.mpr ⟨fields, hFields, hObservation⟩

/-- Every run of the sample is observed as it was recorded. -/
theorem observedAsRecorded_run (i : Fin 3) :
    ObservedAsRecorded host (tree runs).fileSystem (runDir i) witness catalog "test/T.t.sol"
      .localDeployment [] [] := by
  intro run hRun
  obtain rfl : derived runs i = run := Except.ok.inj ((loadRun_run i).symm.trans hRun)
  exact ⟨observation, observationOf_run i, observeTree_run i⟩

def testPath (i : Fin 3) : Path := (runDir i).under ["test", "T.t.sol"]

variable (runs) in
/-- The files of the tree after the test file of a run was emptied. -/
def emptiedTest (i : Fin 3) : Path → Except String Bytes :=
  Function.update (tree runs).fileSystem.readAt (testPath i) (.ok [])

theorem testPath_source (i : Fin 3) : IsSource (tree runs).fileSystem (runDir i) (testPath i) where
  listed := by
    have hListed : testPath i ∈
        (MemoryFiles.entries treeKeys.val (runDir i)).filter (listed i) := by
      rw [run_facts.1 i]
      exact List.mem_map.mpr ⟨(["test", "T.t.sol"], testText), by simp [listedFiles], rfl⟩
    rw [← tree_keys runs] at hListed
    exact List.mem_of_mem_filter hListed
  file := MemoryFiles.isFile_of_content
    (content_source i (show (["test", "T.t.sol"], testText) ∈ sourceFiles by simp [sourceFiles]))
  included := by
    have hBelow : below (runDir i) (testPath i) = ⟨"", ["test", "T.t.sol"]⟩ := by
      simp [below, testPath, Path.under]
    have hIncluded := List.all_eq_true.mp run_facts.2.1 (["test", "T.t.sol"], testText)
      (by simp [listedFiles])
    rw [hBelow]
    simpa using hIncluded

/-- The artifacts of a run lie elsewhere. -/
theorem emptiedTest_artifact {i : Fin 3} {p : Path}
    (h : IsArtifact (tree runs).fileSystem (runDir i) p) :
    emptiedTest runs i p = (tree runs).fileSystem.readAt p := by
  obtain ⟨root, a, hRoot, hPath⟩ := h
  obtain rfl : artifactDir i = root := Except.ok.inj ((artifactRoot_run i).symm.trans hRoot)
  obtain rfl : (artifactDir i).under [a.file] = p :=
    Except.ok.inj ((artifactPath_run i a).symm.trans hPath)
  refine Function.update_of_ne ?_ _ _
  simp [artifactDir, testPath, Path.under]

theorem emptiedTest_sources {i : Fin 3} {q : Path}
    (h : emptiedTest runs i q ≠ (tree runs).fileSystem.readAt q) :
    ∃ p, IsSource (tree runs).fileSystem (runDir i) p ∧ (tree runs).fileSystem.real p = q := by
  refine ⟨testPath i, testPath_source i, ?_⟩
  by_contra hOther
  exact h (Function.update_of_ne (Ne.symm hOther) _ _)

/-- The digest of the sample is injective, so it is free of collisions. -/
theorem host_collisionFree : host.CollisionFree := digest_injective

theorem newline_not_mem_digest (raw : Bytes) : '\n' ∉ (host.sha256 raw).toList := by
  intro h
  obtain ⟨n, hn, hDigit⟩ := digest_chars h
  clear h
  revert n hn
  decide

def callRuns : Fin 3 → Recorded :=
  fun _ => recorded [createFrame, callFrame .witness] 0 calls_sound

theorem emptied_noticed_iff :
    (¬ returns (loadRun host ((tree callRuns).fileSystem.rewritten (emptiedTest callRuns 0)) (runDir 0)
        witness catalog) ↔
      HarnessEdited (tree callRuns).fileSystem (emptiedTest callRuns 0) witness
        (derived callRuns 0).root) ∧
    (ObservedAsRecorded host ((tree callRuns).fileSystem.rewritten (emptiedTest callRuns 0)) (runDir 0)
        witness catalog "test/T.t.sol" .localDeployment [] [] ↔
      emptiedTest callRuns 0 = (tree callRuns).fileSystem.readAt ∨
        HarnessEdited (tree callRuns).fileSystem (emptiedTest callRuns 0) witness
          (derived callRuns 0).root) :=
  edits_noticed_iff host_collisionFree newline_not_mem_digest (loadRun_run 0) (observedAsRecorded_run 0)
    (fun _ h => emptiedTest_artifact h) fun _ h => emptiedTest_sources h

/-- A run whose test file was emptied after its collection is loaded, with the observation
of the test file that was. -/
theorem emptied_test_accepted :
    returns (loadRun host ((tree callRuns).fileSystem.rewritten (emptiedTest callRuns 0)) (runDir 0)
        witness catalog) ∧
      ¬ ObservedAsRecorded host ((tree callRuns).fileSystem.rewritten (emptiedTest callRuns 0))
        (runDir 0) witness catalog "test/T.t.sol" .localDeployment [] [] := by
  have hUnedited : ¬ HarnessEdited (tree callRuns).fileSystem (emptiedTest callRuns 0) witness
      (derived callRuns 0).root := by
    rintro ⟨_, hEdited⟩
    refine hEdited (Function.update_of_ne ?_ _ _)
    have hSource : harnessSource witness (derived callRuns 0).root =
        (runDir 0).under ["src", Contract.harness.file] :=
      join_contract Contract.harness (runDir 0)
    change harnessSource witness (derived callRuns 0).root ≠ testPath 0
    rw [hSource]
    simp [testPath, Path.under]
  have hLoad := (@loadRun_rewritten host (tree callRuns).fileSystem (emptiedTest callRuns 0) witness
    catalog (runDir 0) _ host_collisionFree (loadRun_run 0) (fun _ h => emptiedTest_artifact h) _).mpr
      ⟨hUnedited, rfl⟩
  refine ⟨⟨_, hLoad⟩, fun hRecorded => ?_⟩
  obtain ⟨o, hObservation, hObserved⟩ := hRecorded _ hLoad
  obtain rfl : observation = o := Except.ok.inj ((observationOf_run 0).symm.trans hObservation)
  have hTest := (observeTree_digests hObserved).2
  have hJoin : (derived callRuns 0).root.join "test/T.t.sol" = testPath 0 :=
    join_relative (by simp [relativePaths]) (runDir 0)
  rw [hJoin] at hTest
  obtain ⟨raw, hRaw, hDigest⟩ := map_eq_ok.mp hTest
  have hEmpty : emptiedTest callRuns 0 (testPath 0) = .ok [] := Function.update_self ..
  have hNone : ([] : Bytes) = raw :=
    Except.ok.inj (hEmpty.symm.trans (FileSystem.readBytes_eq_ok.mp hRaw))
  have hText : encodeUtf8 testText.text = [] := (host_collisionFree hDigest).symm.trans hNone.symm
  have hLength := congrArg List.length hText
  revert hLength
  decide

end Sample
end L0vi0x.Verifier
