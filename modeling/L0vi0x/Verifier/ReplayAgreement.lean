import Mathlib.Data.List.Dedup
import L0vi0x.Verifier.RetainedRun

/-! What V04 asks of the derived runs: three digests that agree over the runs, the
declared environment, and a certificate for them when one is required. -/
namespace L0vi0x.Verifier

open L0vi0x.Python L0vi0x.Core L0vi0x.Chain

variable {host : Host} {fs : FileSystem} {ctx : VerificationContext} {replay : ReplayEvidence}
  {runs : List DerivedReplayRun}

/-- The certificate is for this witness and these digests, and its MAC verifies. -/
structure Certified (host : Host) (w : Witness) (replay : ReplayEvidence)
    (policy : Option String) (envHash controlSha aggregate : String) (cert : ReplayCertificate)
    (key : Bytes) : Prop where
  certificate : replay.certificate = some cert
  certificateKey : replay.certificateKey = some key
  environment : cert.envHash = envHash
  control : cert.controlSha256 = controlSha
  records : cert.observedRecordsSha256 = aggregate
  policy : ∀ sha, policy = some sha → cert.tracePolicySha256 = sha
  witness : cert.witnessSha256 = witnessHash host w
  ascii : Certificates.isAscii cert.mac = true
  mac : cert.mac = host.hmacSha256 key (Certificates.canonical cert.fields)

/-- `compare_digest` accepts the text that `hmac` gives, where it is ASCII. -/
theorem compareDigest_hmac {a : String} {key raw : Bytes} :
    Certificates.compareDigest a (host.hmacSha256 key raw) = .ok true ↔
      Certificates.isAscii a = true ∧ a = host.hmacSha256 key raw := by
  have hMac : Certificates.isAscii (host.hmacSha256 key raw) = true := by
    simpa [Certificates.isAscii] using host.hmac_ascii key raw
  rw [Certificates.compareDigest, hMac, Bool.and_true]
  cases Certificates.isAscii a <;> simp [raise, pure, Except.pure]

/-- The bindings that V04 asks the certificate to hold. -/
def derivedBinding (w : Witness) (cert : ReplayCertificate) (envHash controlSha aggregate : String)
    (host : Host) : Certificates.Binding where
  witnessSha256 := witnessHash host w
  envHash := envHash
  observedRecordsSha256 := some aggregate
  tracePolicySha256 := some cert.tracePolicySha256
  controlSha256 := some controlSha
  crossCheckSha256 := none

/-- The certificate is accepted when it is for this witness, with the MAC of its own fields. -/
theorem verify_derivedBinding {w : Witness} {cert : ReplayCertificate} {key : Bytes} :
    Certificates.verify host cert key (derivedBinding w cert cert.envHash cert.controlSha256
        cert.observedRecordsSha256 host) = .ok true ↔
      cert.witnessSha256 = witnessHash host w ∧ Certificates.isAscii cert.mac = true ∧
        cert.mac = host.hmacSha256 key (Certificates.canonical cert.fields) := by
  have hRuns : ¬ cert.runs < 3 := not_lt.mpr cert.atLeastThree
  by_cases hWitness : cert.witnessSha256 = witnessHash host w
  · simp [Certificates.verify, derivedBinding, Certificates.differs, hWitness, hRuns,
      compareDigest_hmac]
  · simp [Certificates.verify, derivedBinding, hWitness, pure, Except.pure]

theorem passes_ok {c : CheckResult} : Passes (.ok c) ↔ c.blocks = false := by
  simp [Passes]

theorem passes_error {e : PyError} : ¬ Passes (.error e) := by
  simp [Passes]

/-- The certificate part of V04 passes exactly for a certificate of these digests. -/
theorem checkCertificate_passes_iff {w : Witness} {policy : Option String}
    {envHash controlSha aggregate : String} {passed : CheckResult}
    (hPassed : passed.blocks = false) :
    Passes (checkCertificate host w replay policy envHash controlSha aggregate passed) ↔
      ∃ cert key, Certified host w replay policy envHash controlSha aggregate cert key := by
  constructor
  · intro h
    unfold checkCertificate at h
    split at h
    · rename_i cert key hCert hKey
      split at h
      · exact absurd (passes_ok.mp h) (by simp)
      · rename_i hBound
        simp only [not_or, not_lt, ne_eq, not_not] at hBound
        obtain ⟨_, rfl, rfl, rfl⟩ := hBound
        split at h
        · exact absurd (passes_ok.mp h) (by simp)
        · rename_i hPolicy
          obtain ⟨c, hc, hBlocks⟩ := h
          obtain ⟨valid, hValid, hc⟩ := bind_eq_ok.mp hc
          rw [pure_eq_ok] at hc
          subst hc
          cases valid with
          | false => simp at hBlocks
          | true =>
              obtain ⟨hWitness, hAscii, hMac⟩ := verify_derivedBinding.mp hValid
              refine ⟨cert, key, hCert, hKey, rfl, rfl, rfl, fun sha hSha => ?_, hWitness, hAscii,
                hMac⟩
              subst hSha
              exact (show sha = _ by simpa using hPolicy).symm
    · exact absurd (passes_ok.mp h) (by simp)
  · rintro ⟨cert, key, h⟩
    obtain ⟨hCert, hKey, rfl, rfl, rfl, hPolicy, hWitness, hAscii, hMac⟩ := h
    have hRuns : ¬ cert.runs < 3 := not_lt.mpr cert.atLeastThree
    have hSame : ¬ (policy.isSome = true ∧ policy ≠ some cert.tracePolicySha256) := by
      rintro ⟨hSome, hNe⟩
      obtain ⟨sha, rfl⟩ := Option.isSome_iff_exists.mp hSome
      exact hNe (congrArg some (hPolicy sha rfl).symm)
    have hVerify := verify_derivedBinding.mpr ⟨hWitness, hAscii, hMac⟩
    refine ⟨passed, ?_, hPassed⟩
    simp only [checkCertificate, hCert, hKey]
    rw [if_neg (by simp [hRuns]), if_neg hSame, bind_eq_ok]
    exact ⟨true, hVerify, rfl⟩

/-- The evidence of all runs agrees on the three digests. -/
structure Agreement (host : Host) (fs : FileSystem) (ctx : VerificationContext)
    (replay : ReplayEvidence) (runs : List DerivedReplayRun) : Prop where
  environments : agree (runDigests host runs).environments = true
  records : agree (runDigests host runs).records = true
  controls : agree (runDigests host runs).controls = true
  declared : (runDigests host runs).environments.headD "" = ctx.witness.envHash
  certified : ∃ policy, expectedPolicy host fs ctx = .ok policy ∧
    (ctx.requireCertificate = true → ∃ cert key,
      Certified host ctx.witness replay policy ((runDigests host runs).environments.headD "")
        ((runDigests host runs).controls.headD "")
        (aggregateSha256 host (runDigests host runs).records) cert key)

/-- V04 passes exactly when the runs agree and are certified. -/
theorem checkReplay_passes_iff :
    Passes (checkReplay host fs ctx replay runs) ↔ Agreement host fs ctx replay runs := by
  have hPassed : ∀ envHash aggregate controlSha,
      (v04Passed envHash aggregate controlSha).blocks = false := fun _ _ _ => rfl
  constructor
  · intro h
    unfold checkReplay at h
    simp only at h
    split at h
    · exact absurd (passes_ok.mp h) (by simp)
    · rename_i hEnvironments
      split at h
      · exact absurd (passes_ok.mp h) (by simp)
      · rename_i hRecords
        split at h
        · exact absurd (passes_ok.mp h) (by simp)
        · rename_i hControls
          split at h
          · exact absurd (passes_ok.mp h) (by simp)
          · rename_i hDeclared
            obtain ⟨c, hc, hBlocks⟩ := h
            obtain ⟨policy, hPolicy, hc⟩ := bind_eq_ok.mp hc
            refine ⟨by simpa using hEnvironments, by simpa using hRecords, by simpa using hControls,
              by simpa using hDeclared, policy, hPolicy, fun hRequired => ?_⟩
            rw [if_pos hRequired] at hc
            exact (checkCertificate_passes_iff (hPassed _ _ _)).mp ⟨c, hc, hBlocks⟩
  · intro h
    obtain ⟨policy, hPolicy, hCertified⟩ := h.certified
    have hDeclared := h.declared
    simp only [checkReplay, h.environments, h.records, h.controls, hDeclared, Bool.not_true,
      Bool.false_eq_true, ↓reduceIte, ne_eq, not_true_eq_false, Passes, bind_eq_ok, hPolicy,
      Except.ok.injEq, exists_eq_left']
    split
    · rename_i hRequired
      rw [← hDeclared]
      exact (checkCertificate_passes_iff (hPassed _ _ _)).mpr (hCertified hRequired)
    · exact ⟨_, rfl, hPassed _ _ _⟩

end L0vi0x.Verifier

/-! Verifications of the small project. The files are the same for all traces, so
whether V05 to V09 accept a run is a computation on what it recorded. -/
namespace L0vi0x.Verifier.Sample

open L0vi0x.Python L0vi0x.Core L0vi0x.Chain

section Context

variable {runs : Fin 3 → Recorded}

def policySha : String :=
  host.sha256Text (Json.obj (dictOf [("policy", policy), ("catalog", catalogJson)])).dumps

def controlSha : String := host.sha256Text (stripDuration (.obj [])).dumps

/-- The certificate of `n` runs that recorded the trace. -/
def certificate (trace : Json) (n : Nat) : ReplayCertificate :=
  let unsigned : ReplayCertificate := {
    id := "cert-1"
    witnessSha256 := witnessHash host witness
    envHash := witness.envHash
    runs := 3
    observedRecordsSha256 :=
      aggregateSha256 host (List.replicate n ((summary trace).observedRecordsSha256 host))
    tracePolicySha256 := policySha
    controlSha256 := controlSha
    crossCheckSha256 := none
    mac := ""
    atLeastThree := by simp }
  { unsigned with mac := host.hmacSha256 [1] (Certificates.canonical unsigned.fields) }

theorem firstLine_ordered : (1 : Int) ≤ 1 ∧ (1 : Int) ≤ 1 := ⟨le_rfl, le_rfl⟩

def hypothesis : Hypothesis where
  claim := "anyone can drain the vault"
  target := ⟨"src/V.sol", 1, 1, host.sha256Text targetText.text, firstLine_ordered⟩
  mechanismTag := "access_control"
  provenance := []

def scope : Scope where
  commit := "c0ffee"
  inScope := [some "src"]
  outOfScope := []
  excludedClasses := []
  attackerCapitalWei := 0

def context (trace : Json) (dirs : List (Fin 3)) : VerificationContext where
  root := ⟨"/", ["w"]⟩
  hypothesis := hypothesis
  scope := scope
  witness := witness
  knownIssues := []
  replay := some ⟨replayRoot, dirs.map runDir, some (certificate trace dirs.length), some [1]⟩
  build := some ⟨true, "", true, []⟩
  duplicate := none
  productionL7Required := false
  currentPolicyPath := some policyPath
  cheatcodeCatalogPath := some catalogPath
  toolLockPath := none
  priceEvidencePath := some pricePath
  pinnedImpactUsd := none
  requireCertificate := true

/-- The policy of the tree is read back as the document that it was written from. -/
theorem loadDocument_policy :
    loadDocument host (tree runs).fileSystem policyPath = .ok (.ofJson policy) := by
  have hRead := readText_project runs (policyPath, policyText)
    (by simp [projectFiles])
  simp only [loadDocument, hRead, host, bind, Except.bind, if_true]
  rfl

/-- The texts of the catalog and of the policy are not the same. -/
theorem texts_differ : catalogText.text ≠ policyText.text := by decide

/-- The catalog of the tree is read back as the document that it was written from. -/
theorem loadDocument_catalog :
    loadDocument host (tree runs).fileSystem catalogPath = .ok (.ofJson catalogJson) := by
  have hRead := readText_project runs (catalogPath, catalogText)
    (by simp [projectFiles])
  simp only [loadDocument, hRead, host, texts_differ, bind, Except.bind, if_true, if_false]
  rfl

/-- Both documents are plain, with their keys in order. -/
theorem documents_plain : (policy.Normal ∧ (YamlDocument.ofJson policy).Plain) ∧
    catalogJson.Normal ∧ (YamlDocument.ofJson catalogJson).Plain := by
  decide

/-- Looking up in the policy document is looking up in the policy. -/
theorem lookups_policy : (YamlDocument.ofJson policy).lookups = policy :=
  YamlDocument.lookups_ofJson documents_plain.1.1

/-- Looking up in the catalog document is looking up in the catalog. -/
theorem lookups_catalog : (YamlDocument.ofJson catalogJson).lookups = catalogJson :=
  YamlDocument.lookups_ofJson documents_plain.2.1

theorem loadYaml_policy : loadYaml host (tree runs).fileSystem policyPath = .ok policy := by
  simp only [loadYaml, loadDocument_policy, bind, Except.bind, lookups_policy]
  rfl

theorem loadYaml_catalog :
    loadYaml host (tree runs).fileSystem catalogPath = .ok catalogJson := by
  simp only [loadYaml, loadDocument_catalog, bind, Except.bind, lookups_catalog]
  rfl

variable {trace : Json} {dirs : List (Fin 3)}

theorem rangeHash_target : rangeHash host (tree runs).fileSystem targetPath 1 1 =
    .ok (host.sha256Text targetText.text) := by
  have hRead := readText_project runs (targetPath, targetText)
    (by simp [projectFiles])
  simp only [rangeHash, hRead]
  decide

/-- The cited span of the hypothesis is there, and has its hash. -/
theorem checkSpan_target :
    checkSpan host (tree runs).fileSystem ⟨"/", ["w"]⟩ hypothesis.target =
      .ok (.pass .v02 "cited span exists and hash-matches") := by
  have hJoin : (⟨"/", ["w"]⟩ : Path).join hypothesis.target.file = targetPath :=
    join_relative (by simp [hypothesis, relativePaths]) _
  have hFile : (tree runs).fileSystem.isFile targetPath = .ok true :=
    MemoryFiles.isFile_of_content
      (content_project (f := (targetPath, targetText)) (by simp [projectFiles]))
  have hInside : staysInside (tree runs).fileSystem targetPath ⟨"/", ["w"]⟩ = .ok true := rfl
  simp only [checkSpan, hJoin, bind_eq_ok]
  refine ⟨targetPath, rfl, true, hInside, ?_⟩
  simp [hFile, rangeHash_target, hypothesis, bind, Except.bind, pure, Except.pure]

/-- The checks before the runs accept the tree, whatever the runs have recorded. -/
theorem static_accepted :
    StaticAccepted host (tree runs).fileSystem (context trace dirs) where
  eligibility := show (checkEligibility hypothesis scope [] witness.commit).blocks = false by
    decide
  span := ⟨_, checkSpan_target, rfl⟩
  build := ⟨_, rfl, rfl⟩

theorem loadCatalog_context :
    loadCatalog host (tree runs).fileSystem (context trace dirs) = .ok catalog := by
  simp only [loadCatalog, context, loadDocument_catalog, documents_plain.2.2.dumped,
    lookups_catalog, bind_eq_ok, Except.ok.injEq, exists_eq_left']
  exact ⟨_, rfl, rfl⟩

/-- Every directory of the tree is derived to the run that it retains. -/
theorem derivedRuns_eq (hLength : 3 ≤ dirs.length) :
    derivedRuns host (tree runs).fileSystem (context trace dirs) =
      .ok (dirs.map (derived runs)) := by
  refine (derivedRuns_eq_ok rfl).mpr ⟨by simpa using hLength, replayRoot, rfl, ?_⟩
  rw [List.forall₂_map_left_iff, List.forall₂_map_right_iff, List.forall₂_same]
  exact fun i _ => deriveRun_eq_ok.mpr ⟨runDir i, catalog, rfl, Path.isRelativeTo_under _ _,
    loadCatalog_context, loadRun_run i⟩

/-- The digests of runs that recorded the same trace. -/
theorem runDigests_eq (hTrace : ∀ i ∈ dirs, (runs i).trace = trace) :
    runDigests host (dirs.map (derived runs)) =
      ⟨List.replicate dirs.length witness.envHash,
        List.replicate dirs.length ((summary trace).observedRecordsSha256 host),
        List.replicate dirs.length controlSha⟩ := by
  have hConstant : ∀ {f : DerivedReplayRun → String} {value : String},
      (∀ i ∈ dirs, f (derived runs i) = value) →
        (dirs.map (derived runs)).map f = List.replicate dirs.length value := by
    intro f value h
    rw [List.map_map]
    exact List.eq_replicate_iff.mpr ⟨by simp, by simpa using h⟩
  refine RunDigests.mk.injEq .. ▸ ⟨hConstant fun _ _ => rfl, hConstant fun i hi => ?_,
    hConstant fun _ _ => rfl⟩
  rw [← hTrace i hi]
  rfl

/-- V04 accepts directories whose runs recorded the same trace. -/
theorem checkReplay_passes (hTrace : ∀ i ∈ dirs, (runs i).trace = trace)
    (hLength : 3 ≤ dirs.length) :
    Passes (checkReplay host (tree runs).fileSystem (context trace dirs)
      ⟨replayRoot, dirs.map runDir, some (certificate trace dirs.length), some [1]⟩
      (dirs.map (derived runs))) := by
  have hDigests := runDigests_eq hTrace
  obtain ⟨n, hn⟩ : ∃ n, dirs.length = n + 1 := ⟨dirs.length - 1, by omega⟩
  have hAgree : ∀ value : String, agree (List.replicate (n + 1) value) = true := by
    intro value
    rw [agree, List.replicate_dedup (by omega)]
    rfl
  have hPolicy : expectedPolicy host (tree runs).fileSystem (context trace dirs) =
      .ok (some policySha) := by
    simp only [expectedPolicy, context, policyHash, loadDocument_policy, loadDocument_catalog,
      bind, Except.bind, documents_plain.1.2.sorted, documents_plain.2.2.sorted, lookups_policy,
      lookups_catalog]
    rfl
  refine checkReplay_passes_iff.mpr ⟨?_, ?_, ?_, ?_, some policySha, hPolicy,
    fun _ => ⟨certificate trace dirs.length, [1], rfl, rfl, ?_, ?_, ?_, ?_, rfl, ?_, rfl⟩⟩
  · rw [hDigests, hn, hAgree]
  · rw [hDigests, hn, hAgree]
  · rw [hDigests, hn, hAgree]
  · rw [hDigests, hn]
    rfl
  · rw [hDigests, hn]
    rfl
  · rw [hDigests, hn]
    rfl
  · rw [hDigests]
    rfl
  · rintro sha ⟨⟩
    rfl
  · exact isAscii_digest _

theorem loadPrices_context :
    loadPrices (tree runs).fileSystem (context trace dirs) = .ok prices.val := by
  have hText := readText_project runs (pricePath, .dumps prices.val) (by simp [projectFiles])
  have hLoads : Json.loads (PlainText.dumps prices.val).text = .ok prices.val :=
    Json.loads_dumps prices.property
  simp only [loadPrices, context, hText, hLoads, bind_eq_ok, Except.ok.injEq, exists_eq_left']
  exact ⟨(), rfl, rfl⟩

end Context

section Contracts

variable {runs : Fin 3 → Recorded}

/-- The witness declares its harness and its wrapper, with their digests. -/
theorem declared_texts :
    hasText (some (host.sha256 runtime)) = true ∧
      (!hasText witness.harnessSourcePath || !hasText witness.harnessSourceSha256) = false ∧
      (!hasText witness.wrapperAddress || !hasText witness.wrapperSourcePath ||
        !hasText witness.wrapperSourceSha256 || !hasText witness.wrapperRuntimeSha256) = false ∧
      (requiredFragments.any fun fragment => !containsText foundryText.text fragment) = false := by
  decide +kernel

/-- The artifact of a contract names it, and its runtime has the declared digest. -/
theorem Contract.compiled (c : Contract) :
    candidateTarget c.artifact = .ok (some (.obj [(c.path, .str c.name)])) ∧
      runtimeHash host c.artifact = .ok (host.sha256 runtime) ∧ c.artifact.isNormal = true := by
  cases c <;> decide

/-- A contract whose source and only artifact are among the files is found with them. -/
theorem artifactContract_compiled {host : Host} {files : MemoryFiles} {root : Path} {c : Contract}
    {artifact : Json} (hNormal : artifact.isNormal = true)
    (hTarget : candidateTarget artifact = .ok (some (.obj [(c.path, .str c.name)])))
    (hSource : files.content? (root.under ["src", c.file]) = some c.source)
    (hArtifact : files.content? (root.under ["out", c.file, c.name ++ ".json"]) =
      some (.dumps artifact))
    (hOut : files.fileSystem.pathExists (root.under ["out"]) = .ok true)
    (hGlob : files.fileSystem.rglob (root.under ["out"]) (c.name ++ ".json") =
      [root.under ["out", c.file, c.name ++ ".json"]])
    (hStem : (root.under ["src", c.file]).stem = c.name) :
    artifactContract host files.fileSystem root c.path =
      .ok (host.sha256Text c.source.text, artifact) := by
  have hJoin : root.join "out" = root.under ["out"] :=
    join_relative (by simp [relativePaths]) _
  have hInside : inside files.fileSystem (root.join c.path) root =
      .ok (root.under ["src", c.file]) := by
    simp [join_contract, inside, MemoryFiles.fileSystem, Path.isRelativeTo_under, raiseIf, bind,
      Except.bind, pure, Except.pure]
  have hOnly : files.fileSystem.rglob (root.join "out")
      ((root.under ["src", c.file]).stem ++ ".json") =
      [root.under ["out", c.file, c.name ++ ".json"]] := by
    rw [hJoin, hStem]
    exact hGlob
  refine artifactContract_found hInside (MemoryFiles.readBytes_of_content hSource)
    (by rw [hJoin]; exact hOut) hOnly (MemoryFiles.readText_of_content hArtifact)
    (Json.loads_dumps ((Json.isNormal_iff _).mp hNormal)) hTarget ?_
  rw [Json.attrGet, getField?, if_pos rfl, hStem]
  rfl

/-- The contract of a path is found with its artifact, in any run. -/
theorem artifactContract_run (i : Fin 3) (c : Contract) :
    artifactContract host (tree runs).fileSystem (runDir i) c.path =
      .ok (host.sha256Text c.source.text, c.artifact) := by
  obtain ⟨hOut, hStem⟩ := (run_paths i).2.2 c c.mem_both
  have hGlob : (tree runs).fileSystem.rglob ((runDir i).under ["out"]) (c.name ++ ".json") =
      [(runDir i).under ["out", c.file, c.name ++ ".json"]] := by
    rw [← hOut, outEntries, ← tree_keys runs]
    rfl
  refine artifactContract_compiled c.compiled.2.2 c.compiled.1 ?_ ?_ (pathExists_run i (by simp))
    hGlob hStem
  · exact content_source i (c.mem_sourceFiles (f := (["src", c.file], c.source))
      (by simp [Contract.files]))
  · exact content_source i (c.mem_sourceFiles (f :=
      (["out", c.file, c.name ++ ".json"], .dumps c.artifact)) (by simp [Contract.files]))

/-- The digests of a contract of the tree: its source, and the compiled bytecode. -/
theorem contractDigests_run (i : Fin 3) (c : Contract) (label : String) :
    contractDigests host (tree runs).fileSystem (runDir i) (some c.path)
      (some (host.sha256Text c.source.text)) (some (host.sha256 runtime)) label =
      .ok (host.sha256Text c.source.text, host.sha256 runtime) := by
  simp [contractDigests, artifactContract_run, c.compiled.2.1, declared_texts.1, raiseIf, bind, Except.bind,
    pure, Except.pure]

end Contracts

section Evidence

variable {runs : Fin 3 → Recorded}

/-- The deployer and the init-code digest of the harness. -/
def creation : String × String := (deployer, host.sha256 initCode)

/-- The frame that creates the harness as it is declared. -/
def createdFrame : { f : TraceFrame // checkCreation host f witness harness = .ok creation } where
  val := {
    depth := 1
    kind := "create2"
    toAddress := some harness
    selector := none
    phase := .setup
    caller := .str deployer
    data := .str "0x6000"
    gasUsed := none
    success := true
    logs := [] }
  property := by decide +kernel

def checkedEvent : Fields :=
  [("caller", .str wrapper), ("depth", .int 1), ("emitter", .str harness),
    ("event", .str "AssertionChecked"), ("expected", .int 1), ("id", .str "a1"),
    ("kind", .str "invariant"), ("observed", .int 1), ("ok", .bool true),
    ("target", .str "vault")]

def origin : { o : AssertionOrigin // assertionOrigin [checkedEvent] witness = .ok o } :=
  ⟨⟨harness, wrapper, 1⟩, by decide⟩

/-- The evidence of a run of the tree, whose files and harness are known. -/
def evidenceFrom (o : AssertionOrigin) (run : DerivedReplayRun) : Py Evidence := do
  let control ← deriveControl run.trace run.controlTrace witness
  let harness ← harnessCoverage run witness o creation
    (host.sha256Text Contract.harness.source.text, host.sha256 runtime)
    (host.sha256Text Contract.wrapper.source.text, host.sha256 runtime)
  let economics ← deriveEconomics run witness prices.val
  pure ⟨control, harness, economics⟩

/-- Whether V05 to V09 accept a run of the tree that shows one event, from an origin. -/
def acceptsFrom (event : Fields) (o : AssertionOrigin) (run : DerivedReplayRun) : Bool :=
  run.trace.assertionEvents = [event] &&
    harnessCreates run.trace.frames harness = [createdFrame.val] &&
    (enforceCheatcodePolicy run.trace witness.witnessClass (policy.getD "rules" .null)
      none).isOk &&
    !(checkCheatcodes run.trace.cheatcodes).blocks &&
    match evidenceFrom o run with
    | .ok e =>
        !(checkAssertion witness run.trace.assertionEvents (some e.control)).blocks &&
          !(checkHarness e.harness witness.harnessAddress e.economics).blocks &&
          !(checkEcon e.economics false none).blocks
    | .error _ => false

/-- Whether V05 to V09 accept a run of the tree. -/
def accepts (run : DerivedReplayRun) : Bool := acceptsFrom checkedEvent origin.val run

theorem foundry_mem : (["foundry.toml"], foundryText) ∈ sourceFiles := by simp [sourceFiles]

/-- The check of the policy reads the configuration of the tree, and passes for cheatcodes that the
policy allows. -/
theorem checkPolicy_run {i : Fin 3} {t : TraceSummary}
    (hPolicy : (enforceCheatcodePolicy t witness.witnessClass (policy.getD "rules" .null)
      none).isOk = true)
    (hCalls : (checkCheatcodes t.cheatcodes).blocks = false) :
    Passes (checkPolicy host (tree runs).fileSystem t witness.witnessClass policyPath
      ((runDir i).join "foundry.toml") none) := by
  have hText := readText_source runs i foundry_mem
  have hFragments := declared_texts.2.2.2
  have hApply : applyPolicy host (tree runs).fileSystem t witness.witnessClass policyPath none =
      .ok () := by
    simp only [applyPolicy, loadYaml_policy, bind_eq_ok, Except.ok.injEq, exists_eq_left']
    refine ⟨policy.getD "rules" .null, rfl, ?_⟩
    cases hRun : enforceCheatcodePolicy t witness.witnessClass (policy.getD "rules" .null) none with
    | ok u => rfl
    | error e => rw [hRun] at hPolicy; cases hPolicy
  refine ⟨_, ?_, hCalls⟩
  simp only [checkPolicy, join_foundry, hText, hFragments, hApply]
  rfl

/-- A run that is accepted on its evidence is accepted with its files. -/
theorem runAccepted (trace : Json) (dirs : List (Fin 3)) {i : Fin 3} {event : Fields}
    {o : AssertionOrigin} (hOrigin : assertionOrigin [event] witness = .ok o)
    (hDeclared : o.harness = harness) (h : acceptsFrom event o (derived runs i) = true) :
    ∃ e, RunAccepted host (tree runs).fileSystem (context trace dirs) (derived runs i) e := by
  simp only [acceptsFrom, Bool.and_eq_true, decide_eq_true_eq, Bool.not_eq_eq_eq_not,
    Bool.not_true] at h
  obtain ⟨⟨⟨⟨hEvents, hCreates⟩, hPolicy⟩, hCalls⟩, hEvidence⟩ := h
  cases hRun : evidenceFrom o (derived runs i) with
  | error e => rw [hRun] at hEvidence; cases hEvidence
  | ok e =>
      simp only [hRun, Bool.and_eq_true, Bool.not_eq_eq_eq_not, Bool.not_true] at hEvidence
      simp only [evidenceFrom, bind_eq_ok, pure_eq_ok] at hRun
      obtain ⟨control, hControl, coverage, hCoverage, economics, hEconomics, rfl⟩ := hRun
      refine ⟨⟨control, coverage, economics⟩, ?_, checkPolicy_run hPolicy hCalls, hControl,
        hEvidence.1.1, ?_, ?_, hEvidence.1.2, hEvidence.2⟩
      · rw [show (derived runs i).root = runDir i from rfl, join_foundry]
        exact MemoryFiles.isFile_of_content (content_source i foundry_mem)
      · have hCreation : harnessCreation host (derived runs i).trace.frames witness harness =
            .ok creation := by
          rw [harnessCreation, hCreates]
          exact createdFrame.property
        simp only [deriveHarness, bind_eq_ok, raiseIf_eq_ok, hEvents]
        exact ⟨o, hOrigin, _, hDeclared ▸ hCreation, (), declared_texts.2.1, _,
          contractDigests_run i .harness "harness", (), declared_texts.2.2.1, _,
          contractDigests_run i .wrapper "wrapper", hCoverage⟩
      · rw [loadPrices_context]
        exact hEconomics

/-- A verification of runs that recorded one trace passes when the first is accepted. -/
theorem verify_passes {trace : Json} {i : Fin 3} {rest : List (Fin 3)}
    (hTrace : ∀ j ∈ i :: rest, (runs j).trace = trace) (hLength : 2 ≤ rest.length)
    {event : Fields} {o : AssertionOrigin} (hOrigin : assertionOrigin [event] witness = .ok o)
    (hDeclared : o.harness = harness)
    (hAccepts : acceptsFrom event o (derived runs i) = true) :
    ReturnsPassed (verify host (tree runs).fileSystem (context trace (i :: rest))) := by
  have hThree : 3 ≤ (i :: rest).length := by simpa using hLength
  obtain ⟨e, he⟩ := runAccepted trace (i :: rest) hOrigin hDeclared hAccepts
  exact verify_passes_iff.mpr ⟨_, _, _, e, static_accepted, rfl, derivedRuns_eq hThree,
    checkReplay_passes hTrace hThree, he⟩

end Evidence

section Records

def createFrame : Json := .obj
  [("caller", .str deployer), ("data", .str "0x6000"), ("depth", .int 1), ("kind", .str "create2"),
    ("phase", .str "setup"), ("to", .str harness)]

def checkedLog : Json := .obj
  [("event", .str "AssertionChecked"), ("expected", .int 1), ("id", .str "a1"),
    ("kind", .str "invariant"), ("observed", .int 1), ("ok", .bool true),
    ("target", .str "vault")]

/-- The attacker gains one ether. -/
def snapshotLog : Json := .obj
  [("actor", .str wrapper), ("declared_capital", .int 0), ("event", .str "EconomicSnapshot"),
    ("native_after", .int (10 ^ 18)), ("native_before", .int 0), ("protocol_assets_delta", .int 0),
    ("token", .str harness), ("token_after", .int 0), ("token_before", .int 0)]

/-- The call to the harness that logs the evidence. -/
def callFrame (phase : Phase) : Json := .obj
  [("caller", .str wrapper), ("depth", .int 1), ("kind", .str "call"),
    ("logs", .arr [checkedLog, snapshotLog]), ("phase", .str phase.text), ("to", .str harness)]

def tracePayload (frames : List Json) : Json := .obj
  [("initial_block", .int 1), ("initial_timestamp", .int 1), ("trace", .arr frames)]

/-- A control trace whose one event reports that nothing changed. -/
def controlPayload : { j : Json // Sound j } where
  val := .obj [("trace", .arr [.obj
    [("logs", .arr [.obj [("event", .str "ControlObserved"), ("id", .str "a1"),
      ("state_changed", .bool false)]])]])]
  property := ⟨by decide, by decide⟩

/-- A run that records the frames and observes the gas price. -/
def recorded (frames : List Json) (gasPriceWei : Int) (h : Sound (tracePayload frames)) :
    Recorded :=
  ⟨tracePayload frames, controlPayload.val, gasPriceWei, h, controlPayload.property⟩

/-- The creation of the harness and one call. -/
theorem calls_sound : Sound (tracePayload [createFrame, callFrame .witness]) :=
  ⟨by decide, by decide⟩

/-- A run that V05 to V09 accept. -/
structure AcceptedRecord extends Recorded where
  accepted : accepts (toRecorded.derived (runDir 0)) = true

variable (r : AcceptedRecord)

/-- The tree in which every run recorded the same. -/
def AcceptedRecord.files : FileSystem := (tree fun _ => r.toRecorded).fileSystem

def AcceptedRecord.context : VerificationContext := Sample.context r.trace [0, 1, 2]

theorem AcceptedRecord.passes : ReturnsPassed (verify host r.files r.context) :=
  verify_passes (fun _ _ => rfl) (by decide) origin.property rfl r.accepted

/-- The runs of an accepted record are derived from its tree. -/
theorem AcceptedRecord.derivedRuns_eq :
    derivedRuns host r.files r.context =
      .ok ([0, 1, 2].map (derived fun _ => r.toRecorded)) :=
  Sample.derivedRuns_eq (by decide)

end Records
end L0vi0x.Verifier.Sample
