import L0vi0x.Python.MemoryFiles
import L0vi0x.Verifier.RunLoading

/-! A run as the collector retains it: four records, each beside its digest. What
the collector retains is what the loader reads back. -/
namespace L0vi0x.Verifier

open L0vi0x.Python L0vi0x.Core L0vi0x.Chain

/-- The records of one replay. -/
structure RetainedRun where
  trace : Json
  controlTrace : Json
  control : Json
  observation : TreeObservation
  toolVersions : Fields
  initialTimestamp : Int
  initialBlock : Int
  gasPriceWei : Int

namespace RetainedRun

variable {host : Host} {fs : FileSystem} {w : Witness} {catalog : List (String × String)}
variable (host w) in
def environmentHash (r : RetainedRun) : String :=
  Chain.environmentHash host r.observation w r.toolVersions (some r.initialTimestamp)
    (some r.initialBlock)

variable (host w) in
/-- The environment record, its hash included. -/
def environment (r : RetainedRun) : Fields := dictOf
  [("observation", r.observation.toDict), ("tool_versions", .obj r.toolVersions),
    ("initial_timestamp", .int r.initialTimestamp), ("initial_block", .int r.initialBlock),
    ("gas_price_wei", .int r.gasPriceWei), ("environment_hash", .str (r.environmentHash host w))]

variable (host w) in
def text (r : RetainedRun) : Artifact → String
  | .trace => r.trace.dumps
  | .control => r.control.dumps
  | .controlTrace => r.controlTrace.dumps
  | .environment => (Json.obj (r.environment host w)).dumps
  | .traceSha => host.sha256Text r.trace.dumps
  | .controlSha => host.sha256Text (stripDuration r.control).dumps
  | .controlTraceSha => host.sha256Text r.controlTrace.dumps
  | .environmentSha => r.environmentHash host w

variable (host w) in
/-- The run that the loader derives, given the parsed traces. -/
def derived (r : RetainedRun) (root : Path) (trace controlTrace : TraceSummary) :
    DerivedReplayRun where
  root := root
  trace := trace
  controlTrace := controlTrace
  controlHash := host.sha256Text (stripDuration r.control).dumps
  environmentHash := r.environmentHash host w
  environment := r.environment host w

/-- Records that can be written and read back. -/
structure Writable (host : Host) (w : Witness) (r : RetainedRun) : Prop where
  trace : r.trace.Normal
  controlTrace : r.controlTrace.Normal
  control : r.control.Normal
  controlObj : r.control.isObj = true
  observation : r.observation.toDict.Normal
  toolVersions : (Json.obj r.toolVersions).Normal
  libraries : ∀ p ∈ r.observation.harnessLibraryHashes, ∃ s, p.2 = .str s
  digests : ∀ raw, strip (host.sha256 raw) = host.sha256 raw

/-- The environment record of a writable run is normal. -/
theorem Writable.environment {r : RetainedRun} (h : Writable host w r) :
    (Json.obj (r.environment host w)).Normal := by
  refine normal_dictOf ?_
  simp only [List.forall_mem_cons, Json.Normal]
  exact ⟨h.observation, h.toolVersions, trivial, trivial, trivial, trivial, by simp⟩

/-- The environment record carries what the loader checks and recomputes. -/
theorem Writable.loadedEnvironment {r : RetainedRun} (h : Writable host w r) {root : Path}
    (hDeclared : checkDeclaration host fs r.observation w root = .ok ()) :
    LoadedEnvironment host fs w root (r.text host w .environment) (r.text host w .environmentSha)
      (r.environmentHash host w) (r.environment host w) r.observation r.toolVersions
      r.initialTimestamp r.initialBlock where
  parsed := Json.loads_dumps h.environment
  recorded := by
    obtain ⟨fields, hFields, hObservation⟩ :=
      bind_eq_ok.mp (r.observation.fromDict_toDict h.libraries)
    refine ⟨fields, ?_, hObservation⟩
    simpa [RetainedRun.environment, Json.item, getField?_dictOf, lookupLast, bind, Except.bind, pure,
      Except.pure] using hFields
  declared := hDeclared
  versions := by
    cases hVersions : r.toolVersions <;>
      simp [RetainedRun.environment, getField?_dictOf, lookupLast, Json.truthy, Json.toDict, hVersions, pure,
        Except.pure]
  startTime := by
    simp [RetainedRun.environment, Json.item, Json.toInt, getField?_dictOf, lookupLast, bind, Except.bind,
      pure, Except.pure]
  startBlock := by
    simp [RetainedRun.environment, Json.item, Json.toInt, getField?_dictOf, lookupLast, bind, Except.bind,
      pure, Except.pure]
  computed := rfl
  selfHash := by
    simp [RetainedRun.environment, getField?_dictOf, lookupLast]
  fileHash := h.digests _

/-- A retained run is loaded as it was collected. -/
theorem Writable.loadRun {r : RetainedRun} (h : Writable host w r) {dir root artifacts : Path}
    {path : Artifact → Path} {trace controlTrace : TraceSummary}
    (hDir : fs.resolve dir = .ok root) (hArtifacts : artifactRoot fs root = .ok artifacts)
    (hPaths : ∀ a, artifactPath fs artifacts root a = .ok (path a))
    (hFiles : ∀ a, fs.isFile (path a) = .ok true)
    (hTexts : ∀ a, fs.readText (path a) = .ok (r.text host w a))
    (hTrace : parseTrace host (.parsed r.trace) catalog = .ok trace)
    (hControlTrace : parseTrace host (.parsed r.controlTrace) catalog = .ok controlTrace)
    (hDeclared : checkDeclaration host fs r.observation w root = .ok ()) :
    loadRun host fs dir w catalog = .ok (r.derived host w root trace controlTrace) := by
  refine loadRun_eq_ok.mpr ⟨artifacts, path, r.text host w, r.trace, r.controlTrace, hDir,
    hArtifacts, hPaths, hFiles, hTexts, h.digests _, h.digests _, h.digests _, ?_,
    Json.loads_dumps h.trace, Json.loads_dumps h.controlTrace, hTrace, hControlTrace,
    r.observation, r.toolVersions, r.initialTimestamp, r.initialBlock,
    h.loadedEnvironment hDeclared⟩
  simp only [controlHashFromRaw, bind_eq_ok, pure_eq_ok, raiseIf_eq_ok]
  exact ⟨r.control, Json.loads_dumps h.control, (), by simp [h.controlObj], rfl⟩

end RetainedRun
end L0vi0x.Verifier

/-! A small project with three retained runs, on which the verifier can be followed.
What the runs recorded is left open: whatever it is, they load as they were
recorded. -/
namespace L0vi0x.Verifier.Sample

open L0vi0x.Python L0vi0x.Core L0vi0x.Chain

section Host

def digest (raw : Bytes) : String := "5a" ++ hexOfBytes raw

theorem digest_injective : Function.Injective digest := by
  intro a b h
  exact hexOfBytes_injective ((String.append_right_inj _).mp h)

/-- The digest is made of hexadecimal digits. -/
theorem digest_chars {raw : Bytes} {c : Char} (h : c ∈ (digest raw).toList) :
    ∃ n < 16, c = hexDigit n := by
  rw [digest, String.toList_append, List.mem_append] at h
  rcases h with h | h
  · rcases List.mem_cons.mp h with rfl | h
    · exact ⟨5, by decide, by decide⟩
    · exact ⟨10, by decide, List.mem_singleton.mp h⟩
  · exact hexOfBytes_chars h

theorem strip_digest (raw : Bytes) : strip (digest raw) = digest raw := by
  refine strip_of_no_space fun c hc => ?_
  obtain ⟨n, hn, rfl⟩ := digest_chars hc
  clear hc
  revert n hn
  decide

theorem digest_ascii (raw : Bytes) : ∀ c ∈ (digest raw).toList, c.toNat < 128 := by
  intro c hc
  obtain ⟨n, hn, rfl⟩ := digest_chars hc
  clear hc
  revert n hn
  decide

/-- The certificates take the digest for ASCII. -/
theorem isAscii_digest (raw : Bytes) : Certificates.isAscii (digest raw) = true := by
  simpa [Certificates.isAscii] using digest_ascii raw

def policyText : PlainText where
  text := "rules:\n  local_deployment:\n    setup:\n      allow_categories: [state_mint]\n    witness:\n" ++
    "      allow_categories: [time_advance]\n"
  noReturn := by decide +kernel

def allowing (category : String) : Json :=
  .obj [("allow_categories", .arr [.str category])]

def policy : Json :=
  .obj [("rules", .obj [("local_deployment", .obj
    [("setup", allowing "state_mint"), ("witness", allowing "time_advance")])])]

def catalogText : PlainText := ⟨"categories:\n  warp: time_advance\n", by decide +kernel⟩

def catalogJson : Json := .obj [("categories", .obj [("warp", .str "time_advance")])]

def catalog : List (String × String) := [("warp", "time_advance")]

def foundryText : PlainText where
  text := "[profile.default]\nsolc_version = \"0.8.24\"\noptimizer = true\noptimizer_runs = 200\n" ++
    "evm_version = \"cancun\"\nffi = false\nfs_permissions = []\n\n[rpc_endpoints]\n" ++
    "l0vi0x_gate = \"http://gate\"\n"
  noReturn := by decide +kernel

def profile : Json := .obj
  [("evm_version", .str "cancun"), ("ffi", .bool false), ("fs_permissions", .arr []),
    ("optimizer", .bool true), ("optimizer_runs", .int 200), ("solc_version", .str "0.8.24")]

def endpoints : Json := .obj [("l0vi0x_gate", .str "http://gate")]

def initCode : Bytes := [0x60, 0x00]

def deployer : String := "0x4e59b44847b379578588920ca78fbf26c0b4956c"
def salt : String := "0x0000000000000000000000000000000000000000000000000000000000000000"
def harness : String := "0x315b4575f5037ba6fd2952e7896c359732bc6135"
def wrapper : String := "0x00000000000000000000000000000000000000aa"

/-- The keccak digests of the init code and of the CREATE2 preimage; no other is
asked for. -/
def keccak (raw : Bytes) : Bytes :=
  let hex := if raw = initCode then
    "07ad118d6cc8642c86c03827f276d8b791a65e5c99a3845faf186be720a1455d"
  else "f06a6971bd34c588e69c4d2b315b4575f5037ba6fd2952e7896c359732bc6135"
  (bytesOfHex? hex).getD []

def host : Host where
  sha256 := digest
  hmacSha256 key raw := digest (key ++ raw)
  keccak := keccak
  safeLoad s :=
    if s = policyText.text then .ok (.ofJson policy)
    else if s = catalogText.text then .ok (.ofJson catalogJson)
    else .error "could not find the expected document"
  tomlLoads s :=
    if s = foundryText.text then
      .ok [("profile", .obj [("default", profile)]), ("rpc_endpoints", endpoints)]
    else .error "Invalid statement (at line 1, column 1)"
  forgeBuild _ := .error "[Errno 2] No such file or directory: 'forge'"
  hmac_ascii key raw := digest_ascii (key ++ raw)

end Host

section Declarations

def targetText : PlainText := ⟨"contract V ;\n", by decide +kernel⟩

inductive Contract
  | harness
  | wrapper
  deriving DecidableEq

def Contract.name : Contract → String
  | .harness => "H"
  | .wrapper => "W"

def Contract.file (c : Contract) : String := c.name ++ ".sol"
def Contract.path (c : Contract) : String := "src/" ++ c.file
def Contract.source : Contract → PlainText
  | .harness => ⟨"contract H ;\n", by decide +kernel⟩
  | .wrapper => ⟨"contract W ;\n", by decide +kernel⟩

def runtime : Bytes := [0x60, 0x01]

def Contract.artifact (c : Contract) : Json := .obj
  [("deployedBytecode", .obj [("object", .str "0x6001")]),
    ("metadata", .obj [("settings", .obj
      [("compilationTarget", .obj [(c.path, .str c.name)])])])]

/-- The source of a contract and what was compiled from it. -/
def Contract.files (c : Contract) : List (List String × PlainText) :=
  [(["src", c.file], c.source), (["out", c.file, c.name ++ ".json"], .dumps c.artifact)]

def testText : PlainText where
  text := "// BEGIN ATTACK BODY\nattack();\n// END ATTACK BODY\n" ++
    "// BEGIN WRAPPER CALLSITE\nwrapper.run();\n// END WRAPPER CALLSITE\n"
  noReturn := by decide +kernel

def compiler : Fields :=
  [("evm_version", .str "cancun"), ("optimizer", .bool true), ("optimizer_runs", .int 200),
    ("solc", .str "0.8.24")]

/-- The files of a run besides its artifacts. -/
def sourceFiles : List (List String × PlainText) :=
  [(["foundry.toml"], foundryText), (["test", "T.t.sol"], testText)] ++
    Contract.harness.files ++ Contract.wrapper.files

/-- The rows of the source manifest: generated files are left out. -/
def manifestRows : List String :=
  ["foundry.toml:" ++ host.sha256Text foundryText.text,
    "src/H.sol:" ++ host.sha256Text Contract.harness.source.text,
    "src/W.sol:" ++ host.sha256Text Contract.wrapper.source.text,
    "test/T.t.sol:" ++ host.sha256Text testText.text]

/-- What observing such a run gives. -/
def observation : TreeObservation where
  compiler := compiler
  sanitizedConfig := [("profile", profile), ("rpc_endpoints", endpoints)]
  remappings := ""
  templateSha256 := host.sha256Text testText.text
  attackBodySha256 := host.sha256Text "\nattack();\n"
  wrapperCallsiteSha256 := host.sha256Text "\nwrapper.run();\n"
  harnessLibraryHashes := []
  deploymentPlanHash := none
  sourceManifestSha256 := host.sha256Text (String.join (manifestRows.map (· ++ "\n")))

/-- The observation as it is recorded. -/
def recordedObservation : NormalJson := ⟨observation.toDict, by decide +kernel⟩

def assertion : WitnessAssertion where
  id := "a1"
  kind := .invariant
  target := "vault"
  operator := .eq
  expected := .int 1
  observedRecord := "AssertionChecked"
  actor := none
  token := none
  required := true

/-- The declaration, with the environment hash still open. -/
def declaration (envHash : String) : Witness where
  witnessClass := .localDeployment
  chainId := 31337
  forkBlock := none
  commit := "c0ffee"
  compiler := [("solc", .str "0.8.24")]
  testFile := "test/T.t.sol"
  testName := "test_attack"
  controlTestName := "test_control"
  initialCapitalWei := 0
  maxTimeAdvanceS := 60
  maxBlockAdvance := 0
  declaredActors := []
  declaredTokens := []
  tokenDecimals := []
  setupBudget := some []
  assertions := [assertion]
  invariantCheckPins := []
  templateSha256 := host.sha256Text testText.text
  attackBodySha256 := host.sha256Text "\nattack();\n"
  harnessAddress := harness
  harnessCreate2Salt := salt
  harnessCreate2Deployer := some deployer
  harnessInitCodeSha256 := none
  harnessRuntimeSha256 := some (host.sha256 runtime)
  harnessSourcePath := some Contract.harness.path
  harnessSourceSha256 := some (host.sha256Text Contract.harness.source.text)
  wrapperAddress := some wrapper
  wrapperRuntimeSha256 := some (host.sha256 runtime)
  wrapperSourcePath := some Contract.wrapper.path
  wrapperSourceSha256 := some (host.sha256Text Contract.wrapper.source.text)
  expectedWrapperDepth := 1
  wrapperCallsiteSha256 := host.sha256Text "\nwrapper.run();\n"
  rpcProviderLabel := none
  crossCheckProviderLabel := none
  envHash := envHash
  classRules := ⟨by simp, by simp⟩

def toolVersions : Fields := [("forge", .str "1.0.0")]

def witness : Witness :=
  declaration (environmentHash host observation (declaration "") toolVersions (some 1) (some 1))

end Declarations

section Tree

/-- The loop over the records of a payload, where it returns. -/
def parsed (payload : Json) : ParsedPayload :=
  match runRecords host catalog payload with
  | .ok p => p
  | .error _ => ⟨none, none, .initial none none⟩

def summary (payload : Json) : TraceSummary :=
  (parsed payload).summary (host.sha256 (encodeUtf8 payload.dumps))

/-- A payload that can be written and that parses. -/
structure Sound (payload : Json) : Prop where
  normal : payload.isNormal = true
  parses : (runRecords host catalog payload).isOk = true

/-- A sound payload is parsed to its summary. -/
theorem Sound.parseTrace {payload : Json} (h : Sound payload) :
    parseTrace host (.parsed payload) catalog = .ok (summary payload) := by
  have hParses := h.parses
  simp only [Chain.parseTrace, parseRecords, bind_eq_ok, pure_eq_ok]
  unfold summary parsed
  cases hRun : runRecords host catalog payload with
  | ok p => exact ⟨p, rfl, rfl⟩
  | error e => rw [hRun] at hParses; cases hParses

structure Recorded where
  trace : Json
  controlTrace : Json
  gasPriceWei : Int
  traceSound : Sound trace
  controlTraceSound : Sound controlTrace

def retained (r : Recorded) : RetainedRun where
  trace := r.trace
  controlTrace := r.controlTrace
  control := .obj []
  observation := observation
  toolVersions := toolVersions
  initialTimestamp := 1
  initialBlock := 1
  gasPriceWei := r.gasPriceWei

/-- What a run of the sample has recorded can be written. -/
theorem retained_writable (r : Recorded) : RetainedRun.Writable host witness (retained r) where
  trace := (Json.isNormal_iff _).mp r.traceSound.normal
  controlTrace := (Json.isNormal_iff _).mp r.controlTraceSound.normal
  control := ⟨.nil, trivial⟩
  controlObj := rfl
  observation := recordedObservation.property
  toolVersions := show (Json.obj toolVersions).Normal from ⟨List.pairwise_singleton .., by
    simp [toolVersions, Json.NormalFields, Json.Normal]⟩
  libraries := by simp [retained, observation]
  digests := strip_digest

def retainedText (r : Recorded) (a : Artifact) : PlainText where
  text := (retained r).text host witness a
  noReturn := by
    have hDigest : ∀ raw, '\r' ∉ (digest raw).toList := by
      intro raw h
      obtain ⟨n, hn, hEq⟩ := digest_chars h
      exact absurd hEq.symm (Json.hexDigit_ne_return n hn)
    cases a with
    | trace | control | controlTrace | environment => exact (PlainText.dumps _).noReturn
    | traceSha | controlSha | controlTraceSha | environmentSha => exact hDigest _

def replayRoot : Path := ⟨"/", ["w", "replay"]⟩

instance threeRuns : NeZero 3 := ⟨by decide⟩

def runName : Fin 3 → String
  | 0 => "r1"
  | 1 => "r2"
  | 2 => "r3"

def runDir (i : Fin 3) : Path := replayRoot.under [runName i]

def artifactDir (i : Fin 3) : Path := (runDir i).under ["artifacts", "run-1"]

def targetPath : Path := ⟨"/", ["w", "src", "V.sol"]⟩
def policyPath : Path := ⟨"/", ["w", "config", "policy", "cheatcode_policy.yaml"]⟩
def catalogPath : Path := ⟨"/", ["w", "config", "policy", "cheatcode_categories.yaml"]⟩
def pricePath : Path := ⟨"/", ["w", "prices.json"]⟩

/-- The key of the issuer, outside the project. -/
def keyPath : Path := ⟨"/", ["keys", "audit.key"]⟩

def keyText : PlainText := ⟨"secret", by decide⟩

/-- One ether is worth 2000 dollars. -/
def prices : NormalJson :=
  ⟨.obj [("native", .obj [("block", .int 1), ("decimals", .int 18), ("source", .str "pinned"),
    ("usd_per_unit", .int 2000)])], by decide +kernel⟩

def projectFiles : MemoryFiles :=
  [(targetPath, targetText), (policyPath, policyText), (catalogPath, catalogText),
    (pricePath, .dumps prices.val), (keyPath, keyText)]

def runFiles (i : Fin 3) (text : Artifact → PlainText) : MemoryFiles :=
  Artifact.all.map (fun a => ((artifactDir i).under [a.file], text a)) ++
    sourceFiles.map fun f => ((runDir i).under f.1, f.2)

def tree (runs : Fin 3 → Recorded) : MemoryFiles :=
  projectFiles ++ (List.finRange 3).flatMap fun i => runFiles i (retainedText (runs i))

def treeKeys : { keys : List Path // keys.Nodup } where
  val := projectFiles.map Prod.fst ++ (List.finRange 3).flatMap fun i =>
    Artifact.all.map (fun a => (artifactDir i).under [a.file]) ++
      sourceFiles.map fun f => (runDir i).under f.1
  property := by decide +kernel

/-- The files below the output directory of a run that `_artifact_contract` asks for. -/
def outEntries (i : Fin 3) (c : Contract) : List Path :=
  (MemoryFiles.entries treeKeys.val ((runDir i).under ["out"])).filter
    fun q => fnmatch (c.name ++ ".json") q.name

/-- The retained artifact directories of a run. -/
def artifactEntries (i : Fin 3) : List Path :=
  ((MemoryFiles.entries treeKeys.val ((runDir i).under ["artifacts"])).filter
    fun q => fnmatch "run-*" q.name).filter
      fun q => q.parts.length = ((runDir i).under ["artifacts"]).parts.length + 1

/-- What the paths alone say about a run. -/
theorem run_paths : ∀ i : Fin 3,
    (∀ dir ∈ ["artifacts", "out"], treeKeys.val.any (·.isRelativeTo ((runDir i).under [dir])) = true) ∧
    artifactEntries i = [artifactDir i] ∧
    ∀ c ∈ [Contract.harness, .wrapper],
      outEntries i c = [(runDir i).under ["out", c.file, c.name ++ ".json"]] ∧
        ((runDir i).under ["src", c.file]).stem = c.name := by
  decide

/-- The relative paths that are joined to a directory, with their parts. -/
def relativePaths : List (String × List String) :=
  [("artifacts", ["artifacts"]), ("out", ["out"]), ("foundry.toml", ["foundry.toml"]),
    ("test/T.t.sol", ["test", "T.t.sol"]), ("remappings.txt", ["remappings.txt"]),
    ("src/V.sol", ["src", "V.sol"]), ("prices.json", ["prices.json"]),
    ("config/policy/cheatcode_policy.yaml", ["config", "policy", "cheatcode_policy.yaml"]),
    ("config/policy/cheatcode_categories.yaml",
      ["config", "policy", "cheatcode_categories.yaml"])] ++
    [Contract.harness, .wrapper].map (fun c => (c.path, ["src", c.file])) ++
    Artifact.all.map fun a => (a.file, [a.file])

theorem relativePaths_parts : ∀ f ∈ relativePaths, Path.ofText f.1 = ⟨"", f.2⟩ := by
  decide +kernel

theorem join_relative {s : String} {parts : List String} (h : (s, parts) ∈ relativePaths)
    (p : Path) : p.join s = p.under parts :=
  Path.join_eq_under (relativePaths_parts _ h)

/-- The file of an artifact lies in the directory that it is joined to. -/
theorem join_artifact (a : Artifact) (p : Path) : p.join a.file = p.under [a.file] :=
  join_relative (List.mem_append_right _ (List.mem_map.mpr ⟨a, a.mem_all, rfl⟩)) p

theorem Contract.mem_both (c : Contract) : c ∈ [Contract.harness, .wrapper] := by
  cases c <;> simp

/-- The source of a contract lies under `src`. -/
theorem join_contract (c : Contract) (p : Path) : p.join c.path = p.under ["src", c.file] :=
  join_relative (List.mem_append_left _ (List.mem_append_right _
    (List.mem_map.mpr ⟨c, c.mem_both, rfl⟩))) p

/-- The configuration lies in the directory of its run. -/
theorem join_foundry (p : Path) : p.join "foundry.toml" = p.under ["foundry.toml"] :=
  join_relative (by simp [relativePaths]) p

variable {runs : Fin 3 → Recorded}

variable (runs) in
/-- The paths of the tree do not depend on what the runs have recorded. -/
theorem tree_keys : (tree runs).map Prod.fst = treeKeys.val := by
  simp [tree, treeKeys, runFiles, List.map_flatMap, Function.comp_def]

theorem content_of_mem {p : Path} {s : PlainText} (h : (p, s) ∈ tree runs) :
    (tree runs).content? p = some s :=
  MemoryFiles.content?_of_mem (tree_keys runs ▸ treeKeys.property) h

/-- Each run has its retained artifacts in its artifact directory. -/
theorem content_artifact (i : Fin 3) (a : Artifact) :
    (tree runs).content? ((artifactDir i).under [a.file]) = some (retainedText (runs i) a) := by
  refine content_of_mem (List.mem_append_right _ (List.mem_flatMap.mpr ⟨i, by simp, ?_⟩))
  exact List.mem_append_left _ (List.mem_map.mpr ⟨a, a.mem_all, rfl⟩)

theorem content_source (i : Fin 3) {f : List String × PlainText} (h : f ∈ sourceFiles) :
    (tree runs).content? ((runDir i).under f.1) = some f.2 := by
  refine content_of_mem (List.mem_append_right _ (List.mem_flatMap.mpr ⟨i, by simp, ?_⟩))
  exact List.mem_append_right _ (List.mem_map.mpr ⟨f, h, rfl⟩)

/-- The files of the project are found at their paths. -/
theorem content_project {f : Path × PlainText} (h : f ∈ projectFiles) :
    (tree runs).content? f.1 = some f.2 :=
  content_of_mem (List.mem_append_left _ h)

/-- Each run has an artifact and an output directory. -/
theorem pathExists_run (i : Fin 3) {dir : String} (h : dir ∈ ["artifacts", "out"]) :
    (tree runs).fileSystem.pathExists ((runDir i).under [dir]) = .ok true := by
  refine MemoryFiles.pathExists_eq ?_
  rw [show (tree runs).map (·.1) = treeKeys.val from tree_keys runs]
  exact (run_paths i).1 dir h

/-- The artifacts of a run are those of its own directory. -/
theorem artifactRoot_run (i : Fin 3) :
    artifactRoot (tree runs).fileSystem (runDir i) = .ok (artifactDir i) := by
  have hJoin : (runDir i).join "artifacts" = (runDir i).under ["artifacts"] :=
    join_relative (by simp [relativePaths]) _
  have hGlob : (tree runs).fileSystem.glob ((runDir i).under ["artifacts"]) "run-*" =
      [artifactDir i] := by
    rw [← (run_paths i).2.1, artifactEntries, ← tree_keys runs]
    rfl
  simp only [artifactRoot, hJoin, pathExists_run i (List.mem_cons_self ..), bind_eq_ok,
    Except.ok.injEq, exists_eq_left', ↓reduceIte, hGlob]
  rfl

/-- An artifact of a run is read from its artifact directory. -/
theorem artifactPath_run (i : Fin 3) (a : Artifact) :
    artifactPath (tree runs).fileSystem (artifactDir i) (runDir i) a =
      .ok ((artifactDir i).under [a.file]) := by
  have hInside : ((artifactDir i).under [a.file]).isRelativeTo (runDir i) = true := by
    rw [artifactDir, Path.under_under]
    exact Path.isRelativeTo_under _ _
  simp [artifactPath, inside, MemoryFiles.fileSystem, join_artifact, hInside, raiseIf, bind,
    Except.bind, pure, Except.pure]

variable (runs) in
/-- A source of a run is read as it was written. -/
theorem readText_source (i : Fin 3) {f : List String × PlainText} (h : f ∈ sourceFiles) :
    (tree runs).fileSystem.readText ((runDir i).under f.1) = .ok f.2.text :=
  MemoryFiles.readText_of_content (content_source i h)

variable (runs) in
/-- A file of the project is read as it was written. -/
theorem readText_project (f : Path × PlainText) (h : f ∈ projectFiles) :
    (tree runs).fileSystem.readText f.1 = .ok f.2.text :=
  MemoryFiles.readText_of_content (content_project h)

/-- The digest of a source file is that of its text. -/
theorem sha256File_source (i : Fin 3) {f : List String × PlainText} (h : f ∈ sourceFiles) :
    sha256File host (tree runs).fileSystem ((runDir i).under f.1) =
      .ok (host.sha256Text f.2.text) := by
  rw [sha256File, MemoryFiles.readBytes_of_content (content_source i h)]
  rfl

theorem Contract.mem_sourceFiles (c : Contract) {f : List String × PlainText} (h : f ∈ c.files) :
    f ∈ sourceFiles := by
  cases c with
  | harness => exact List.mem_append_left _ (List.mem_append_right _ h)
  | wrapper => exact List.mem_append_right _ h

/-- The tree agrees with the declaration. -/
theorem checkDeclaration_run (i : Fin 3) :
    checkDeclaration host (tree runs).fileSystem observation witness (runDir i) = .ok () := by
  refine checkDeclaration_eq_ok.mpr ⟨rfl, rfl, rfl, ?_, fun _ => ⟨_, ?_, rfl⟩⟩
  · simp [witness, declaration, observation, compiler, getField?, Json.pyEq]
  rw [show witness.harnessSourcePath.getD "" = Contract.harness.path from rfl, join_contract]
  exact sha256File_source i (Contract.harness.mem_sourceFiles (List.mem_cons_self ..))

/-- The run that is derived from a directory. -/
def Recorded.derived (r : Recorded) (root : Path) : DerivedReplayRun :=
  (retained r).derived host witness root (summary r.trace) (summary r.controlTrace)

def derived (runs : Fin 3 → Recorded) (i : Fin 3) : DerivedReplayRun :=
  (runs i).derived (runDir i)

/-- Every run of the tree is loaded as it was recorded. -/
theorem loadRun_run (i : Fin 3) :
    loadRun host (tree runs).fileSystem (runDir i) witness catalog = .ok (derived runs i) :=
  (retained_writable (runs i)).loadRun rfl (artifactRoot_run i) (artifactPath_run i)
    (fun a => MemoryFiles.isFile_of_content (content_artifact i a))
    (fun a => MemoryFiles.readText_of_content (content_artifact i a))
    (runs i).traceSound.parseTrace (runs i).controlTraceSound.parseTrace (checkDeclaration_run i)

end Tree
end L0vi0x.Verifier.Sample
