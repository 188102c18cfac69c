import L0vi0x.Verifier.Acceptance

/-! What a loaded run is: the artifacts it was read from, the digests that were
compared, and the records that were parsed. -/
namespace L0vi0x.Verifier

open L0vi0x.Python L0vi0x.Core L0vi0x.Chain

variable {host : Host} {fs : FileSystem} {w : Witness} {catalog : List (String × String)}

/-- The observation recorded in an environment artifact, with the clocks and tool
versions that the environment hash binds. -/
structure LoadedEnvironment (host : Host) (fs : FileSystem) (w : Witness) (root : Path)
    (text shaText hash : String) (env : Fields) (observation : TreeObservation)
    (toolVersions : Fields) (timestamp block : Int) : Prop where
  parsed : Json.loads text = .ok (.obj env)
  recorded : ∃ fields, ((Json.obj env).item "observation" >>= Json.toDict) = .ok fields ∧
    TreeObservation.fromDict fields = .ok observation
  declared : checkDeclaration host fs observation w root = .ok ()
  versions : (if ((getField? "tool_versions" env).getD .null).truthy then
    (getField? "tool_versions" env).getD .null else .obj []).toDict = .ok toolVersions
  startTime : ((Json.obj env).item "initial_timestamp" >>= Json.toInt) = .ok timestamp
  startBlock : ((Json.obj env).item "initial_block" >>= Json.toInt) = .ok block
  computed : environmentHash host observation w toolVersions (some timestamp) (some block) = hash
  selfHash : ((getField? "environment_hash" env).getD (.str "")).text = hash
  fileHash : strip shaText = hash

/-- The steps of an environment that is loaded. -/
theorem loadEnvironment_eq_ok {root envPath shaPath : Path} {hash : String} {env : Fields} :
    loadEnvironment host fs w root envPath shaPath = .ok (hash, env) ↔
      ∃ text shaText observation toolVersions timestamp block,
        fs.readText envPath = .ok text ∧ fs.readText shaPath = .ok shaText ∧
        LoadedEnvironment host fs w root text shaText hash env observation toolVersions timestamp
          block := by
  constructor
  · intro h
    simp only [loadEnvironment, bind_eq_ok] at h
    obtain ⟨text, hText, j, hParsed, h⟩ := h
    cases j with
    | obj fields =>
        simp only [bind_eq_ok, pure_eq_ok, raiseIf_eq_ok, decide_eq_false_iff_not, not_not,
          Prod.mk.injEq] at h
        obtain ⟨item, hItem, recorded, hRecorded, observation, hObservation, _, hDeclared,
          toolVersions, hVersions, time, hTime, timestamp, hTimestamp, number, hNumber, block,
          hBlock, _, hHash, shaText, hSha, _, hFile, hObserved, rfl⟩ := h
        refine ⟨text, shaText, observation, toolVersions, timestamp, block, hText, hSha, hParsed,
          ⟨recorded, ?_, hObservation⟩, hDeclared, hVersions, ?_, ?_, hHash.trans hObserved,
          hObserved, hFile.trans hObserved⟩
        · exact bind_eq_ok.mpr ⟨item, hItem, hRecorded⟩
        · exact bind_eq_ok.mpr ⟨time, hTime, hTimestamp⟩
        · exact bind_eq_ok.mpr ⟨number, hNumber, hBlock⟩
    | _ => simp at h
  · rintro ⟨text, shaText, observation, toolVersions, timestamp, block, hText, hSha, h⟩
    obtain ⟨fields, hRecorded, hObservation⟩ := h.recorded
    obtain ⟨item, hItem, hFields⟩ := bind_eq_ok.mp hRecorded
    obtain ⟨time, hTime, hTimestamp⟩ := bind_eq_ok.mp h.startTime
    obtain ⟨number, hNumber, hBlock⟩ := bind_eq_ok.mp h.startBlock
    simp only [loadEnvironment, bind_eq_ok, hText, Except.ok.injEq, exists_eq_left', h.parsed,
      hItem, hFields, hObservation, h.declared, h.versions, hTime, hTimestamp, hNumber, hBlock,
      h.computed, h.selfHash, hSha, h.fileHash, pure_eq_ok, raiseIf_eq_ok]
    simp

/-- The steps of a load that returns `run`. -/
structure Loaded (host : Host) (fs : FileSystem) (dir : Path) (w : Witness)
    (catalog : List (String × String)) (run : DerivedReplayRun) (root : Path)
    (path : Artifact → Path) (text : Artifact → String) (trace controlTrace : Json) : Prop where
  resolved : fs.resolve dir = .ok run.root
  artifacts : artifactRoot fs run.root = .ok root
  paths : ∀ a, artifactPath fs root run.root a = .ok (path a)
  files : ∀ a, fs.isFile (path a) = .ok true
  texts : ∀ a, fs.readText (path a) = .ok (text a)
  traceSha : strip (text .traceSha) = host.sha256Text (text .trace)
  controlSha : strip (text .controlSha) = run.controlHash
  controlTraceSha : strip (text .controlTraceSha) = host.sha256Text (text .controlTrace)
  control : controlHashFromRaw host (text .control) = .ok run.controlHash
  traceText : Json.loads (text .trace) = .ok trace
  controlTraceText : Json.loads (text .controlTrace) = .ok controlTrace
  parsedTrace : parseTrace host (.parsed trace) catalog = .ok run.trace
  parsedControlTrace : parseTrace host (.parsed controlTrace) catalog = .ok run.controlTrace
  environment : ∃ observation toolVersions timestamp block,
    LoadedEnvironment host fs w run.root (text .environment) (text .environmentSha)
      run.environmentHash run.environment observation toolVersions timestamp block

theorem requireFile_eq_ok {p : Path} {u : Unit} :
    requireFile fs p = .ok u ↔ fs.isFile p = .ok true := by
  simp only [requireFile, bind_eq_ok, raiseIf_eq_ok]
  constructor
  · rintro ⟨present, h, hNot⟩
    cases present with
    | false => simp at hNot
    | true => exact h
  · intro h
    exact ⟨true, h, rfl⟩

/-- The paths of the artifacts are those of each. -/
theorem artifactPaths_eq_ok {root repoRoot : Path} {path : Artifact → Path} :
    artifactPaths fs root repoRoot = .ok path ↔
      ∀ a, artifactPath fs root repoRoot a = .ok (path a) := by
  constructor
  · intro h
    simp only [artifactPaths, bind_eq_ok, pure_eq_ok] at h
    obtain ⟨t, ht, c, hc, ct, hct, e, he, ts, hts, cs, hcs, cts, hcts, es, hes, rfl⟩ := h
    intro a
    cases a with
    | trace => exact ht
    | control => exact hc
    | controlTrace => exact hct
    | environment => exact he
    | traceSha => exact hts
    | controlSha => exact hcs
    | controlTraceSha => exact hcts
    | environmentSha => exact hes
  · intro h
    simp only [artifactPaths, h, bind_eq_ok, pure_eq_ok, Except.ok.injEq, exists_eq_left']
    funext a
    cases a <;> rfl

theorem Artifact.mem_all (a : Artifact) : a ∈ Artifact.all := by
  cases a <;> decide

/-- The records are read, and have their digests. -/
theorem recordTexts_eq_ok {path : Artifact → Path} {trace controlTrace : String} :
    recordTexts host fs path = .ok (trace, controlTrace) ↔
      fs.readText (path .trace) = .ok trace ∧ fs.readText (path .controlTrace) = .ok controlTrace ∧
      ∃ control traceSha controlSha controlTraceSha,
        fs.readText (path .control) = .ok control ∧
        fs.readText (path .traceSha) = .ok traceSha ∧
        fs.readText (path .controlSha) = .ok controlSha ∧
        fs.readText (path .controlTraceSha) = .ok controlTraceSha ∧
        strip traceSha = host.sha256Text trace ∧
        controlHashFromRaw host control = .ok (strip controlSha) ∧
        strip controlTraceSha = host.sha256Text controlTrace := by
  simp only [recordTexts, bind_eq_ok, pure_eq_ok, compareSha_eq_ok, Prod.mk.injEq]
  constructor
  · rintro ⟨t, ht, c, hc, ct, hct, ts, hts, _, hTrace, cs, hcs, hash, hHash, _, hControl, cts, hcts,
      _, hControlTrace, rfl, rfl⟩
    exact ⟨ht, hct, c, ts, cs, cts, hc, hts, hcs, hcts, hTrace, hControl ▸ hHash, hControlTrace⟩
  · rintro ⟨ht, hct, c, ts, cs, cts, hc, hts, hcs, hcts, hTrace, hControl, hControlTrace⟩
    exact ⟨trace, ht, c, hc, controlTrace, hct, ts, hts, (), hTrace, cs, hcs, _, hControl, (), rfl,
      cts, hcts, (), hControlTrace, rfl, rfl⟩

/-- A trace is parsed from the JSON of its text. -/
theorem parseTraceText_eq_ok {raw : String} {t : TraceSummary} :
    parseTraceText host catalog raw = .ok t ↔
      ∃ payload, Json.loads raw = .ok payload ∧
        parseTrace host (.parsed payload) catalog = .ok t := by
  simp only [parseTraceText, bind_eq_ok]

theorem loadRun_eq_ok {dir : Path} {run : DerivedReplayRun} :
    loadRun host fs dir w catalog = .ok run ↔
      ∃ root path text trace controlTrace,
        Loaded host fs dir w catalog run root path text trace controlTrace := by
  constructor
  · intro h
    simp only [loadRun, bind_eq_ok, pure_eq_ok] at h
    obtain ⟨repo, hRepo, root, hRoot, path, hPaths, _, hFiles, ⟨traceRaw, controlTraceRaw⟩, hTexts,
      trace, hTrace, controlTrace, hControlTrace, ⟨hash, env⟩, hEnv, controlRaw, hControlRaw,
      controlHash, hControlHash, rfl⟩ := h
    rw [artifactPaths_eq_ok] at hPaths
    simp only [forM_eq_ok, requireFile_eq_ok] at hFiles
    obtain ⟨hT, hCt, control, traceSha, controlSha, controlTraceSha, hC, hTs, hCs, hCts, hTraceSha,
      hControl, hControlTraceSha⟩ := recordTexts_eq_ok.mp hTexts
    obtain ⟨traceJson, hTraceJson, hParsed⟩ := parseTraceText_eq_ok.mp hTrace
    obtain ⟨controlJson, hControlJson, hControlParsed⟩ := parseTraceText_eq_ok.mp hControlTrace
    obtain ⟨eText, esText, observation, versions, timestamp, block, hE, hEs, hLoaded⟩ :=
      loadEnvironment_eq_ok.mp hEnv
    rw [hC, Except.ok.injEq] at hControlRaw
    subst hControlRaw
    rw [hControl, Except.ok.injEq] at hControlHash
    have hRead : ∀ a, fs.readText (path a) = .ok (artifactCases traceRaw control controlTraceRaw
        eText traceSha controlSha controlTraceSha esText a) := by
      intro a
      cases a with
      | trace => exact hT
      | control => exact hC
      | controlTrace => exact hCt
      | environment => exact hE
      | traceSha => exact hTs
      | controlSha => exact hCs
      | controlTraceSha => exact hCts
      | environmentSha => exact hEs
    refine ⟨root, path, artifactCases traceRaw control controlTraceRaw eText traceSha controlSha
      controlTraceSha esText, traceJson, controlJson, hRepo, hRoot, hPaths,
      fun a => hFiles a a.mem_all, hRead, hTraceSha, hControlHash, hControlTraceSha,
      hControl.trans (congrArg _ hControlHash), hTraceJson, hControlJson, hParsed, hControlParsed,
      observation, versions, timestamp, block, hLoaded⟩
  · rintro ⟨root, path, text, trace, controlTrace, h⟩
    obtain ⟨observation, versions, timestamp, block, hEnv⟩ := h.environment
    have hTexts := recordTexts_eq_ok.mpr ⟨h.texts .trace, h.texts .controlTrace, _, _, _, _,
      h.texts .control, h.texts .traceSha, h.texts .controlSha, h.texts .controlTraceSha,
      h.traceSha, h.controlSha ▸ h.control, h.controlTraceSha⟩
    simp only [loadRun, bind_eq_ok, pure_eq_ok]
    exact ⟨_, h.resolved, root, h.artifacts, path, artifactPaths_eq_ok.mpr h.paths, (),
      forM_eq_ok.mpr fun a _ => requireFile_eq_ok.mpr (h.files a), _, hTexts, _,
      parseTraceText_eq_ok.mpr ⟨_, h.traceText, h.parsedTrace⟩, _,
      parseTraceText_eq_ok.mpr ⟨_, h.controlTraceText, h.parsedControlTrace⟩, _,
      loadEnvironment_eq_ok.mpr ⟨_, _, _, _, _, _, h.texts .environment, h.texts .environmentSha,
        hEnv⟩, _, h.texts .control, _, h.control, rfl⟩

/-- The parsed content of the trace artifact below a run's root. -/
def retainedTrace (fs : FileSystem) (repoRoot : Path) : Py Json := do
  let root ← artifactRoot fs repoRoot
  let p ← artifactPath fs root repoRoot .trace
  let raw ← fs.readText p
  Json.loads raw

/-- The trace of a loaded run is parsed from what is retained below its root. -/
theorem retainedTrace_of_loadRun {dir : Path} {run : DerivedReplayRun}
    (h : loadRun host fs dir w catalog = .ok run) :
    ∃ payload, retainedTrace fs run.root = .ok payload ∧
      parseTrace host (.parsed payload) catalog = .ok run.trace := by
  obtain ⟨root, path, text, trace, controlTrace, h⟩ := loadRun_eq_ok.mp h
  refine ⟨trace, ?_, h.parsedTrace⟩
  simp only [retainedTrace, bind_eq_ok]
  exact ⟨root, h.artifacts, path .trace, h.paths .trace, text .trace, h.texts .trace, h.traceText⟩

section Runs

variable {ctx : VerificationContext}

/-- A run is derived from a directory inside the trust root that is loaded. -/
theorem deriveRun_eq_ok {trustRoot raw : Path} {run : DerivedReplayRun} :
    deriveRun host fs ctx trustRoot raw = .ok run ↔
      ∃ p catalog, fs.resolve raw = .ok p ∧ p.isRelativeTo trustRoot = true ∧
        loadCatalog host fs ctx = .ok catalog ∧ loadRun host fs p ctx.witness catalog = .ok run := by
  simp only [deriveRun, bind_eq_ok, raiseIf_eq_ok, Bool.not_eq_eq_eq_not, Bool.not_false]
  constructor
  · rintro ⟨p, hp, _, hInside, catalog, hCatalog, hRun⟩
    exact ⟨p, catalog, hp, hInside, hCatalog, hRun⟩
  · rintro ⟨p, catalog, hp, hInside, hCatalog, hRun⟩
    exact ⟨p, hp, (), hInside, catalog, hCatalog, hRun⟩

/-- The runs are derived one by one, from at least three directories. -/
theorem derivedRuns_eq_ok {replay : ReplayEvidence} {runs : List DerivedReplayRun}
    (hReplay : ctx.replay = some replay) :
    derivedRuns host fs ctx = .ok runs ↔
      3 ≤ replay.runDirs.length ∧ ∃ trustRoot, fs.resolve replay.root = .ok trustRoot ∧
        List.Forall₂ (fun raw run => deriveRun host fs ctx trustRoot raw = .ok run)
          replay.runDirs runs := by
  simp only [derivedRuns, hReplay, bind_eq_ok, raiseIf_eq_ok, decide_eq_false_iff_not, not_lt,
    mapM_eq_ok]
  constructor
  · rintro ⟨_, hLength, trustRoot, hRoot, hRuns⟩
    exact ⟨hLength, trustRoot, hRoot, hRuns⟩
  · rintro ⟨hLength, trustRoot, hRoot, hRuns⟩
    exact ⟨(), hLength, trustRoot, hRoot, hRuns⟩

/-- Every derived run comes from a load. -/
theorem loadRun_of_derivedRuns {runs : List DerivedReplayRun}
    (h : derivedRuns host fs ctx = .ok runs) {run : DerivedReplayRun} (hRun : run ∈ runs) :
    ∃ p catalog, loadCatalog host fs ctx = .ok catalog ∧
      loadRun host fs p ctx.witness catalog = .ok run := by
  cases hReplay : ctx.replay with
  | none => simp [derivedRuns, hReplay] at h
  | some replay =>
      obtain ⟨_, trustRoot, _, hRuns⟩ := (derivedRuns_eq_ok hReplay).mp h
      obtain ⟨raw, _, hDerive⟩ := forall₂_exists_left hRuns hRun
      obtain ⟨p, catalog, _, _, hCatalog, hLoad⟩ := deriveRun_eq_ok.mp hDerive
      exact ⟨p, catalog, hCatalog, hLoad⟩

end Runs
end L0vi0x.Verifier
