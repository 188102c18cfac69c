import L0vi0x.Core.Certifier
import L0vi0x.Verifier.RunIndependence

/-! What the collector sums up and what the verifier works out again from the same runs. The
collector digests the catalog and the rules that it was given, the verifier the documents that
they are fields of. -/
namespace L0vi0x.Verifier

open L0vi0x.Python L0vi0x.Core L0vi0x.Chain

section Documents

variable {host : Host} {fs : FileSystem} {c : ReplayCoordinator} {w : Witness}
  {policyPath catalogPath : Path} {policyDoc catalogDoc rules categories : Fields}

/-- A path holds a document of JSON with these fields. -/
def DocumentAt (host : Host) (fs : FileSystem) (p : Path) (fields : Fields) : Prop :=
  ∃ d, loadDocument host fs p = .ok d ∧ d.Plain ∧ d.lookups = .obj fields

/-- A collector that was given the rules and the categories of two documents. -/
structure MadeFrom (host : Host) (fs : FileSystem) (policyPath catalogPath : Path)
    (policyDoc catalogDoc : Fields) (c : ReplayCoordinator) : Prop where
  policy : DocumentAt host fs policyPath policyDoc
  catalog : DocumentAt host fs catalogPath catalogDoc
  rules : ∃ rules, getField? "rules" policyDoc = some (.obj rules) ∧
    c.cheatcodePolicy = .obj rules
  categories : ∃ categories, getField? "categories" catalogDoc = some (.obj categories) ∧
    c.cheatcodeCatalog = categories.map fun p => (p.1, p.2.text)

/-- No field holds the object that it is a field of. -/
theorem field_ne_self {key : String} {fields : Fields} {value : Json}
    (h : getField? key fields = some value) : value ≠ .obj fields := by
  rintro rfl
  have hMem := List.sizeOf_lt_of_mem (mem_of_getField? h)
  simp at hMem
  omega

theorem field_normal {key : String} {fields : Fields} {value : Json}
    (hNormal : (Json.obj fields).Normal) (h : getField? key fields = some value) : value.Normal :=
  Json.normalFields_iff.mp hNormal.2 _ (mem_of_getField? h)

/-- The two digests of a policy and a catalog are never the same. -/
theorem policy_hashes_differ (hHost : host.CollisionFree)
    (hMade : MadeFrom host fs policyPath catalogPath policyDoc catalogDoc c)
    (hPolicy : (Json.obj policyDoc).Normal) (hCatalog : (Json.obj catalogDoc).Normal) {sha : String}
    (h : policyHash host fs policyPath catalogPath = .ok sha) : sha ≠ c.tracePolicySha256 host := by
  obtain ⟨rules, hRules, hGiven⟩ := hMade.rules
  obtain ⟨policy, hLoaded, hPlain, hFields⟩ := hMade.policy
  obtain ⟨catalog, hLoaded', hPlain', hFields'⟩ := hMade.catalog
  simp only [policyHash, hLoaded, hLoaded', hPlain.sorted, hPlain'.sorted, hFields, hFields',
    bind_eq_ok, Except.ok.injEq, exists_eq_left'] at h
  obtain rfl := pure_eq_ok.mp h
  intro hSame
  have hVerifier : (Json.obj (dictOf [("policy", .obj policyDoc),
      ("catalog", .obj catalogDoc)])).Normal := by
    refine normal_dictOf ?_
    simp only [List.forall_mem_cons]
    exact ⟨hPolicy, hCatalog, fun _ hp => (List.not_mem_nil hp).elim⟩
  have hCollector : (Json.obj (dictOf [("catalog", .obj (dictOf (c.cheatcodeCatalog.map fun p =>
      (p.1, Json.str p.2)))), ("policy", c.cheatcodePolicy)])).Normal := by
    have hTexts : (Json.obj (dictOf (c.cheatcodeCatalog.map fun p => (p.1, Json.str p.2)))).Normal := by
      refine normal_dictOf fun p hp => ?_
      obtain ⟨q, -, rfl⟩ := List.mem_map.mp hp
      trivial
    refine normal_dictOf ?_
    simp only [List.forall_mem_cons]
    exact ⟨hTexts, hGiven ▸ field_normal hPolicy hRules, fun _ hp => (List.not_mem_nil hp).elim⟩
  have hFields := Json.dumps_injective hVerifier hCollector (hHost.text hSame)
  have hEach := congrArg (getField? "policy") (Json.obj.inj hFields)
  rw [getField?_dictOf, getField?_dictOf] at hEach
  have hWhole : Json.obj policyDoc = c.cheatcodePolicy := Option.some.inj hEach
  exact field_ne_self hRules (hGiven ▸ hWhole.symm)

/-- A collection has the policy digest of its collector. -/
theorem collect_policy {n : Int} {collection : ReplayCollection}
    (h : c.collect host w n = .ok collection) :
    collection.tracePolicySha256 = c.tracePolicySha256 host := by
  rw [ReplayCoordinator.collect] at h
  obtain ⟨-, -, h⟩ := bind_eq_ok.mp h
  obtain ⟨runs, -, h⟩ := bind_eq_ok.mp h
  rw [ReplayCoordinator.sumUp] at h
  obtain ⟨-, -, h⟩ := bind_eq_ok.mp h
  obtain ⟨-, -, h⟩ := bind_eq_ok.mp h
  obtain ⟨-, -, h⟩ := bind_eq_ok.mp h
  obtain ⟨-, -, h⟩ := bind_eq_ok.mp h
  obtain ⟨-, -, h⟩ := bind_eq_ok.mp h
  obtain rfl := pure_eq_ok.mp h
  rfl

/-- The issuer copies the digest of the collection. -/
theorem issue_policy {k : Certifier.HostCertifier} {collection : ReplayCollection} {passed : Bool}
    {certificateId : String} {cert : ReplayCertificate}
    (h : k.issue host fs w collection passed certificateId = .ok cert) :
    cert.tracePolicySha256 = collection.tracePolicySha256 := by
  rw [Certifier.HostCertifier.issue] at h
  obtain ⟨_, _, h⟩ := bind_eq_ok.mp h
  obtain ⟨found, _, h⟩ := bind_eq_ok.mp h
  obtain ⟨_, _, h⟩ := bind_eq_ok.mp h
  obtain ⟨root, _, h⟩ := bind_eq_ok.mp h
  obtain ⟨_, _, h⟩ := bind_eq_ok.mp h
  obtain ⟨key, _, h⟩ := bind_eq_ok.mp h
  unfold Certificates.issue at h
  split at h
  · cases h
  · obtain rfl := pure_eq_ok.mp h
    rfl

end Documents

section Agreement

variable {host : Host} {fs : FileSystem} {c : ReplayCoordinator} {w : Witness}
  {policyPath catalogPath : Path} {policyDoc catalogDoc : Fields} {ctx : VerificationContext}
  {replay : ReplayEvidence} {runs : List DerivedReplayRun} {collection : ReplayCollection}
  {k : Certifier.HostCertifier}

/-- The evidence with a certificate beside it. -/
def ReplayEvidence.certified (replay : ReplayEvidence) (cert : ReplayCertificate) (key : Bytes) :
    ReplayEvidence :=
  { replay with certificate := some cert, certificateKey := some key }

/-- What was summed up is what is worked out again, and a certificate on it is accepted. -/
structure CertifiedAlike (host : Host) (fs : FileSystem) (k : Certifier.HostCertifier)
    (ctx : VerificationContext) (replay : ReplayEvidence) (runs : List DerivedReplayRun)
    (collection : ReplayCollection) : Prop where
  records : collection.observedRecordsSha256 =
    aggregateSha256 host (runDigests host runs).records
  control : collection.controlSha256 = (runDigests host runs).controls.headD ""
  environment : collection.environmentHash = (runDigests host runs).environments.headD ""
  policy : expectedPolicy host fs ctx = .ok (some collection.tracePolicySha256)
  accepted : ∀ certificateId cert key, fs.readBytes k.keyPath = .ok key →
    k.issue host fs ctx.witness collection true certificateId = .ok cert →
    Passes (checkReplay host fs ctx (replay.certified cert key) runs)

/-- The digests of the policy that the collector and the verifier work out differ. -/
theorem expectedPolicy_ne (hHost : host.CollisionFree)
    (hMade : MadeFrom host fs policyPath catalogPath policyDoc catalogDoc c)
    (hPolicy : (Json.obj policyDoc).Normal) (hCatalog : (Json.obj catalogDoc).Normal)
    (hPolicyPath : ctx.currentPolicyPath = some policyPath)
    (hCatalogPath : ctx.cheatcodeCatalogPath = some catalogPath) {n : Int}
    (hCollected : c.collect host w n = .ok collection) :
    expectedPolicy host fs ctx ≠ .ok (some collection.tracePolicySha256) := by
  intro h
  rw [expectedPolicy, hPolicyPath, hCatalogPath] at h
  obtain ⟨sha, hSha, hSame⟩ := map_eq_ok.mp h
  refine policy_hashes_differ hHost hMade hPolicy hCatalog hSha ?_
  rw [← collect_policy hCollected]
  exact Option.some.inj hSame

/-- A certificate on what was collected is refused by V04. -/
theorem certificate_refused (hHost : host.CollisionFree)
    (hMade : MadeFrom host fs policyPath catalogPath policyDoc catalogDoc c)
    (hPolicy : (Json.obj policyDoc).Normal) (hCatalog : (Json.obj catalogDoc).Normal)
    (hPolicyPath : ctx.currentPolicyPath = some policyPath)
    (hCatalogPath : ctx.cheatcodeCatalogPath = some catalogPath)
    (hRequired : ctx.requireCertificate = true) {n : Int}
    (hCollected : c.collect host w n = .ok collection) {certificateId : String} {key : Bytes}
    {cert : ReplayCertificate}
    (hIssued : k.issue host fs ctx.witness collection true certificateId = .ok cert) :
    ¬ Passes (checkReplay host fs ctx (replay.certified cert key) runs) := by
  intro hPasses
  obtain ⟨policy, hExpected, hCertified⟩ := (checkReplay_passes_iff.mp hPasses).certified
  obtain ⟨cert', key', h⟩ := hCertified hRequired
  obtain rfl : cert = cert' := Option.some.inj h.certificate
  rw [expectedPolicy, hPolicyPath, hCatalogPath] at hExpected
  obtain ⟨sha, hSha, rfl⟩ := map_eq_ok.mp hExpected
  refine policy_hashes_differ hHost hMade hPolicy hCatalog hSha ?_
  rw [← collect_policy hCollected, ← issue_policy hIssued]
  exact (h.policy sha rfl).symm

/-- What a collector that was given the rules and categories of two documents sums up is never
what the verifier works out with these documents, and no certificate on it is accepted. -/
theorem never_certified_alike (hHost : host.CollisionFree)
    (hMade : MadeFrom host fs policyPath catalogPath policyDoc catalogDoc c)
    (hPolicy : (Json.obj policyDoc).Normal) (hCatalog : (Json.obj catalogDoc).Normal)
    (hPolicyPath : ctx.currentPolicyPath = some policyPath)
    (hCatalogPath : ctx.cheatcodeCatalogPath = some catalogPath)
    (hRequired : ctx.requireCertificate = true) {n : Int}
    (hCollected : c.collect host w n = .ok collection) :
    ¬ CertifiedAlike host fs k ctx replay runs collection ∧
      ∀ certificateId cert key,
        k.issue host fs ctx.witness collection true certificateId = .ok cert →
        ¬ Passes (checkReplay host fs ctx (replay.certified cert key) runs) := by
  refine ⟨fun h => ?_, fun _ _ _ hIssued => ?_⟩
  · exact expectedPolicy_ne hHost hMade hPolicy hCatalog hPolicyPath hCatalogPath hCollected h.policy
  · exact certificate_refused hHost hMade hPolicy hCatalog hPolicyPath hCatalogPath hRequired
      hCollected hIssued

end Agreement

section Collected

open Sample

/-- The tree whose three runs recorded the same. -/
def collectedFiles : FileSystem := (tree fun _ => plain).fileSystem

/-- What the executor returns for a run of the tree. -/
def executed (i : Fin 3) : FreshRun where
  copyRoot := runDir i
  result := dictOf
    [("passed", .bool true), ("artifact_dir", .str (artifactDir i).text),
      ("trace_path", .str ((artifactDir i).under [Artifact.trace.file]).text),
      ("control_path", .str ((artifactDir i).under [Artifact.control.file]).text),
      ("control_trace_path", .str ((artifactDir i).under [Artifact.controlTrace.file]).text),
      ("environment_path", .str ((artifactDir i).under [Artifact.environment.file]).text),
      ("control_sha256", .str controlSha), ("environment_hash", .str witness.envHash)]
  fs := collectedFiles

def coordinator : ReplayCoordinator where
  replayRoot := replayRoot
  cheatcodeCatalog := catalog
  cheatcodePolicy := policy.getD "rules" .null
  execute _ index := pure (executed (Fin.ofNat 3 (index - 1)))

/-- The paths that the executor returns are read back as they are. -/
theorem executed_paths : ∀ i : Fin 3, Path.ofText (artifactDir i).text = artifactDir i ∧
    ∀ a ∈ Artifact.all, Path.ofText ((artifactDir i).under [a.file]).text =
        (artifactDir i).under [a.file] ∧
      ((artifactDir i).under [a.file]).isRelativeTo (runDir i) = true := by
  decide +kernel

/-- The calls of the recorded trace are within the limits and allowed. -/
theorem plain_enforced :
    enforceTimeBlockLimits (summary plain.trace) witness.maxTimeAdvanceS witness.maxBlockAdvance =
        .ok () ∧
      enforceCheatcodePolicy (summary plain.trace) witness.witnessClass
        (policy.getD "rules" .null) witness.forkBlock = .ok () := by
  decide

theorem resultPath_executed (i : Fin 3) {key : String} (a : Artifact)
    (hKey : getField? key (executed i).result =
      some (.str ((artifactDir i).under [a.file]).text)) :
    resultPath (executed i).fs (executed i).result key = .ok ((artifactDir i).under [a.file]) := by
  rw [resultPath, resultText, Json.item, hKey]
  exact congrArg Except.ok ((executed_paths i).2 a a.mem_all).1

theorem requireArtifact_executed (i : Fin 3) (a : Artifact) :
    requireArtifact (executed i).fs (runDir i) ((artifactDir i).under [a.file]) = .ok () := by
  have hFile : (executed i).fs.isFile ((artifactDir i).under [a.file]) = .ok true :=
    MemoryFiles.isFile_of_content (content_artifact i a)
  rw [requireArtifact, hFile]
  refine bind_eq_ok.mpr ⟨true, rfl, ?_⟩
  rw [((executed_paths i).2 a a.mem_all).2]
  rfl

/-- The trace of a run is read as it was recorded. -/
theorem readText_trace (runs : Fin 3 → Recorded) (i : Fin 3) :
    (tree runs).fileSystem.readText ((artifactDir i).under [Artifact.trace.file]) =
      .ok (runs i).trace.dumps :=
  MemoryFiles.readText_of_content (content_artifact i .trace)

/-- A run of the tree is collected as it was recorded. -/
theorem collectRun_executed (index : Nat) :
    ∃ run, coordinator.collectRun host witness index = .ok run ∧ run.passed = true ∧
      run.environmentHash = witness.envHash ∧ run.controlSha256 = controlSha ∧
      run.structured = summary plain.trace := by
  generalize hi : (Fin.ofNat 3 (index - 1) : Fin 3) = i
  have hText : (executed i).fs.readText ((artifactDir i).under [Artifact.trace.file]) =
      .ok plain.trace.dumps := readText_trace (fun _ => plain) i
  have hLoads : Json.loads plain.trace.dumps = .ok plain.trace :=
    Json.loads_dumps ((Json.isNormal_iff _).mp plain.traceSound.normal)
  have hField : ∀ key, getField? key (executed i).result = _ := fun key => getField?_dictOf key _
  have hItem : ∀ {key s}, getField? key (executed i).result = some (.str s) →
      resultText (executed i).result key = .ok s := by
    intro key s hKey
    rw [resultText, Json.item, hKey]
    rfl
  have hDir : artifactDirOf (executed i).fs (executed i).result
      ((artifactDir i).under [Artifact.trace.file]) = .ok (artifactDir i) := by
    rw [artifactDirOf, hField]
    exact congrArg Except.ok (executed_paths i).1
  have hMissing : (requiredArtifacts.filter fun key =>
      (getField? key (executed i).result).isNone) = [] := by
    simp only [hField]
    rfl
  have hRequired : [(artifactDir i).under [Artifact.trace.file],
      (artifactDir i).under [Artifact.control.file],
      (artifactDir i).under [Artifact.controlTrace.file],
      (artifactDir i).under [Artifact.environment.file]].forM
        (requireArtifact (executed i).fs (runDir i)) = .ok () := by
    rw [forM_eq_ok]
    simp only [List.forall_mem_cons]
    exact ⟨requireArtifact_executed i .trace, requireArtifact_executed i .control,
      requireArtifact_executed i .controlTrace, requireArtifact_executed i .environment,
      fun _ hp => (List.not_mem_nil hp).elim⟩
  refine ⟨⟨index, true, artifactDir i, (artifactDir i).under [Artifact.trace.file],
    (artifactDir i).under [Artifact.control.file],
    (artifactDir i).under [Artifact.controlTrace.file],
    (artifactDir i).under [Artifact.environment.file], controlSha, witness.envHash,
    summary plain.trace⟩, ?_, rfl, rfl, rfl, rfl⟩
  unfold ReplayCoordinator.collectRun
  refine bind_eq_ok.mpr ⟨executed i, by rw [← hi]; rfl, bind_eq_ok.mpr ⟨(), ?_, ?_⟩⟩
  · rw [hMissing]
    rfl
  refine bind_eq_ok.mpr ⟨_, resultPath_executed i .trace ((hField _).trans rfl), ?_⟩
  refine bind_eq_ok.mpr ⟨_, resultPath_executed i .control ((hField _).trans rfl), ?_⟩
  refine bind_eq_ok.mpr ⟨_, resultPath_executed i .controlTrace ((hField _).trans rfl), ?_⟩
  refine bind_eq_ok.mpr ⟨_, resultPath_executed i .environment ((hField _).trans rfl), ?_⟩
  refine bind_eq_ok.mpr ⟨_, hDir, bind_eq_ok.mpr ⟨runDir i, rfl, ?_⟩⟩
  refine bind_eq_ok.mpr ⟨(), hRequired, bind_eq_ok.mpr ⟨_, hText, ?_⟩⟩
  refine bind_eq_ok.mpr ⟨_, hLoads, bind_eq_ok.mpr ⟨_, plain.traceSound.parseTrace, ?_⟩⟩
  refine bind_eq_ok.mpr ⟨(), plain_enforced.1, bind_eq_ok.mpr ⟨(), plain_enforced.2, ?_⟩⟩
  refine bind_eq_ok.mpr ⟨_, hItem ((hField _).trans rfl), ?_⟩
  refine bind_eq_ok.mpr ⟨_, hItem ((hField _).trans rfl), ?_⟩
  rw [hField]
  rfl

theorem collected : ∃ collection, coordinator.collect host witness 3 = .ok collection := by
  choose run hRun hPassed hEnvironment hControl hStructured using collectRun_executed
  have hIndices : (List.range (3 : Int).toNat).map (· + 1) = [1, 2, 3] := by decide
  have hRuns : [1, 2, 3].mapM (coordinator.collectRun host witness) = .ok ([1, 2, 3].map run) := by
    rw [mapM_eq_ok]
    exact .cons (hRun 1) (.cons (hRun 2) (.cons (hRun 3) .nil))
  change returns (coordinator.collect host witness 3)
  rw [ReplayCoordinator.collect, hIndices]
  refine returns_bind.mpr ⟨(), rfl, returns_bind.mpr ⟨_, hRuns, ?_⟩⟩
  rw [ReplayCoordinator.sumUp]
  refine returns_bind.mpr ⟨(), by simp [hPassed], returns_bind.mpr ⟨(), by simp [hEnvironment], ?_⟩⟩
  refine returns_bind.mpr ⟨(), by simp [hEnvironment], ?_⟩
  refine returns_bind.mpr ⟨(), by simp [hStructured], returns_bind.mpr ⟨(), by simp [hControl], ?_⟩⟩
  exact returns_ok _

theorem host_collisionFree : host.CollisionFree := digest_injective

/-- The collector of the sample was given what stands in the documents of the tree. -/
theorem made_from_documents (runs : Fin 3 → Recorded) :
    MadeFrom host (tree runs).fileSystem policyPath catalogPath
      [("rules", policy.getD "rules" .null)] [("categories", catalogJson.getD "categories" .null)]
      coordinator where
  policy := ⟨_, loadDocument_policy, documents_plain.1.2, lookups_policy⟩
  catalog := ⟨_, loadDocument_catalog, documents_plain.2.2, lookups_catalog⟩
  rules := ⟨_, rfl, rfl⟩
  categories := ⟨_, rfl, rfl⟩

/-- The runs that are collected in the tree are not certified as the verifier sees them. -/
theorem collection_not_certified : ∃ collection, coordinator.collect host witness 3 = .ok collection ∧
    ¬ CertifiedAlike host collectedFiles Certifier.sampleKey (context plain.trace [0, 1, 2])
      ⟨replayRoot, [0, 1, 2].map runDir, none, none⟩ ([0, 1, 2].map (derived fun _ => plain))
      collection := by
  obtain ⟨collection, hCollected⟩ := collected
  refine ⟨collection, hCollected, fun h => ?_⟩
  exact expectedPolicy_ne host_collisionFree (made_from_documents _)
    documents_plain.1.1 documents_plain.2.1 rfl rfl hCollected h.policy

/-- The theorem at the runs that are collected in the tree. -/
theorem collection_never_certified : ∃ collection,
    coordinator.collect host witness 3 = .ok collection ∧
    ∀ certificateId cert key,
      Certifier.sampleKey.issue host collectedFiles witness collection true certificateId =
        .ok cert →
      ¬ Passes (checkReplay host collectedFiles (context plain.trace [0, 1, 2])
        (ReplayEvidence.certified ⟨replayRoot, [0, 1, 2].map runDir, none, none⟩ cert key)
        ([0, 1, 2].map (derived fun _ => plain))) := by
  obtain ⟨collection, hCollected⟩ := collected
  have h := @never_certified_alike host collectedFiles coordinator witness policyPath catalogPath _ _
    (context plain.trace [0, 1, 2]) ⟨replayRoot, [0, 1, 2].map runDir, none, none⟩
    ([0, 1, 2].map (derived fun _ => plain)) collection Certifier.sampleKey host_collisionFree
    (made_from_documents _) documents_plain.1.1 documents_plain.2.1 rfl rfl rfl 3 hCollected
  exact ⟨collection, hCollected, h.2⟩

end Collected
end L0vi0x.Verifier
