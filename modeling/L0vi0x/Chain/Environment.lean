import L0vi0x.Chain.Witness

/-! Observation of a replay tree and the environment hash that binds it. -/
namespace L0vi0x.Chain

open L0vi0x.Python L0vi0x.Core

def generatedDirs : List String :=
  [".git", ".venv", "__pycache__", ".pytest_cache", "out", "cache", "tool_runs", "artifacts",
    "audits"]

structure TreeObservation where
  compiler : Fields
  sanitizedConfig : Fields
  remappings : String
  templateSha256 : String
  attackBodySha256 : String
  wrapperCallsiteSha256 : String
  harnessLibraryHashes : Fields
  deploymentPlanHash : Option String
  sourceManifestSha256 : String
  deriving DecidableEq

def observationFields : List String :=
  ["attack_body_sha256", "compiler", "deployment_plan_hash", "harness_library_hashes",
    "remappings", "sanitized_config", "source_manifest_sha256", "template_sha256",
    "wrapper_callsite_sha256"]

def TreeObservation.toDict (o : TreeObservation) : Json := .obj <| dictOf
  [("compiler", .obj o.compiler), ("sanitized_config", .obj o.sanitizedConfig),
    ("remappings", .str o.remappings), ("template_sha256", .str o.templateSha256),
    ("attack_body_sha256", .str o.attackBodySha256),
    ("wrapper_callsite_sha256", .str o.wrapperCallsiteSha256),
    ("harness_library_hashes", .obj o.harnessLibraryHashes),
    ("deployment_plan_hash", textOrNull o.deploymentPlanHash),
    ("source_manifest_sha256", .str o.sourceManifestSha256)]

def TreeObservation.fromDict (payload : Fields) : Py TreeObservation := do
  let missing := observationFields.filter fun k => (getField? k payload).isNone
  raiseIf (!missing.isEmpty) .environmentMismatch
    ("environment observation missing fields: " ++ (textItems missing).text)
  let value := fun k => (getField? k payload).getD .null
  let compiler ← (value "compiler").toDict
  let sanitizedConfig ← (value "sanitized_config").toDict
  let libraries ← (value "harness_library_hashes").toDict
  pure {
    compiler := compiler
    sanitizedConfig := sanitizedConfig
    remappings := (value "remappings").text
    templateSha256 := (value "template_sha256").text
    attackBodySha256 := (value "attack_body_sha256").text
    wrapperCallsiteSha256 := (value "wrapper_callsite_sha256").text
    harnessLibraryHashes := libraries.map fun p => (p.1, .str p.2.text)
    deploymentPlanHash := match value "deployment_plan_hash" with
      | .null => none
      | j => some j.text
    sourceManifestSha256 := (value "source_manifest_sha256").text }

/-- What the collector records of an observation is what the loader reads. -/
theorem TreeObservation.fromDict_toDict (o : TreeObservation)
    (hLibraries : ∀ p ∈ o.harnessLibraryHashes, ∃ s, p.2 = .str s) :
    (o.toDict.toDict >>= fromDict) = .ok o := by
  have hMap : o.harnessLibraryHashes.map (fun p => (p.1, Json.str p.2.text)) =
      o.harnessLibraryHashes := by
    refine (List.map_congr_left fun p hp => ?_).trans (List.map_id _)
    obtain ⟨s, hs⟩ := hLibraries p hp
    simp [Prod.ext_iff, hs]
  have hPlan : (match textOrNull o.deploymentPlanHash with
      | .null => none
      | j => some j.text) = o.deploymentPlanHash := by
    cases o.deploymentPlanHash <;> rfl
  simp only [toDict, Json.toDict, fromDict, bind_eq_ok, pure_eq_ok, raiseIf_eq_ok,
    exists_eq_left', getField?_dictOf, lookupLast, observationFields]
  simp [hMap, hPlan]

section Observe

variable (host : Host) (fs : FileSystem)

def readFoundryToml (root : Path) : Py Fields := do
  let p := root.join "foundry.toml"
  let text ← except (fs.readText p) (· = .osError)
    fun e => raise .environmentMismatch ("cannot read " ++ p.text ++ ": " ++ e.message)
  match host.tomlLoads text with
  | .ok fields => pure fields
  | .error message => raise .environmentMismatch ("cannot read " ++ p.text ++ ": " ++ message)

/-- `raw.get("profile", {}).get("default", default)`. -/
def defaultProfileOf (raw : Fields) (default : Json) : Py Json :=
  ((getField? "profile" raw).getD (.obj [])).attrGet "default" default

def defaultProfile (root : Path) : Py Fields := do
  let raw ← readFoundryToml host fs root
  match ← defaultProfileOf raw .null with
  | .obj profile => pure profile
  | _ => raise .environmentMismatch "foundry.toml has no [profile.default] table"

def observeCompiler (root : Path) : Py Fields := do
  let profile ← defaultProfile host fs root
  let missing := ["solc_version", "optimizer", "optimizer_runs", "evm_version"].filter
    fun k => (getField? k profile).isNone
  raiseIf (!missing.isEmpty) .environmentMismatch
    ("foundry.toml must pin: " ++ joinText ", " missing)
  let value := fun k => (getField? k profile).getD .null
  let runs ← (value "optimizer_runs").toInt
  pure (dictOf [("solc", .str (value "solc_version").text),
    ("optimizer", .bool (value "optimizer").truthy), ("optimizer_runs", .int runs),
    ("evm_version", .str (value "evm_version").text)])

/-- Whether a file of the tree is no source input: below a generated directory, a
secret or an ephemeral file. `rel` is its path below the root. -/
def excludedSource (rel : Path) : Bool :=
  rel.parts.any (· ∈ generatedDirs) ||
    (rel.name = ".env" || rel.name = ".env.local") ||
    (startsWith rel.name ".env." && rel.name != ".env.example") ||
    rel.parts.contains "keys" || rel.suffix ∈ [".pyc", ".sqlite", ".db"]

/-- `path.relative_to(root)` of a path below the root. -/
def below (root p : Path) : Path := ⟨"", p.parts.drop root.parts.length⟩

/-- The row of one path in the manifest, unless it is left out. -/
def manifestRow (root p : Path) : Py (List String) := do
  if ← fs.isFile p then
    let rel := below root p
    if excludedSource rel then pure []
    else
      let digest ← sha256File host fs p
      pure [rel.text ++ ":" ++ digest]
  else pure []

def sourceManifest (root : Path) : Py String := do
  let rows ← (fs.walk root).mapM (manifestRow host fs root)
  pure (host.sha256 (encodeUtf8 (String.join (rows.flatten.map (· ++ "\n")))))

def planHash (root : Path) (paths : List String) (witnessClass : WitnessClass) :
    Py (Option String) := do
  if witnessClass ≠ .localDeployment ∨ paths = [] then pure none
  else
    let rows ← paths.mapM fun rel => do
      let digest ← sha256File host fs (root.join rel)
      pure (rel ++ ":" ++ digest ++ "\n")
    pure (some (host.sha256 (encodeUtf8 (String.join rows))))

def libraryHashes (root : Path) (paths : List String) : Py Fields := do
  let pairs ← paths.mapM fun p => do
    let digest ← sha256File host fs (root.join p)
    pure (p, Json.str digest)
  pure (dictOf pairs)

def tableOr (raw : Fields) (key : String) : Json := (getField? key raw).getD (.obj [])

/-- The text of `remappings.txt`, or the empty text when there is none. -/
def readRemappings (root : Path) : Py String := do
  let present ← fs.pathExists (root.join "remappings.txt")
  if present then fs.readText (root.join "remappings.txt") else pure ""

/-- `observe_tree(root, ...)`. The configuration keeps the default profile and the
endpoints. -/
def observeTree (root : Path) (testFile : String) (witnessClass : WitnessClass)
    (harnessLibraryPaths deploymentPlanPaths : List String) : Py TreeObservation := do
  let raw ← readFoundryToml host fs root
  let textPath := root.join testFile
  except (do
    let testText ← fs.readText textPath
    let compiler ← observeCompiler host fs root
    let profile ← defaultProfileOf raw (.obj [])
    let remappings ← readRemappings fs root
    let template ← sha256File host fs textPath
    let attackBody ← markedRegionSha256 host testText "ATTACK BODY"
    let callsite ← markedRegionSha256 host testText "WRAPPER CALLSITE"
    let libraries ← libraryHashes host fs root harnessLibraryPaths
    let plan ← planHash host fs root deploymentPlanPaths witnessClass
    let manifest ← sourceManifest host fs root
    pure {
      compiler := compiler
      sanitizedConfig := dictOf [("profile", profile),
        ("rpc_endpoints", tableOr raw "rpc_endpoints")]
      remappings := remappings
      templateSha256 := template
      attackBodySha256 := attackBody
      wrapperCallsiteSha256 := callsite
      harnessLibraryHashes := libraries
      deploymentPlanHash := plan
      sourceManifestSha256 := manifest })
    (fun kind => kind.isValueError || kind = .osError)
    fun e => raise .environmentMismatch ("cannot observe replay tree: " ++ e.message)

end Observe

def checkDeclaration (host : Host) (fs : FileSystem) (o : TreeObservation) (w : Witness)
    (root : Path) : Py Unit := do
  raiseIf (o.templateSha256 ≠ w.templateSha256) .environmentMismatch
    "test file differs from declared template hash"
  raiseIf (o.attackBodySha256 ≠ w.attackBodySha256) .environmentMismatch
    "ATTACK BODY differs from declared attack-body hash"
  raiseIf (o.wrapperCallsiteSha256 ≠ w.wrapperCallsiteSha256) .environmentMismatch
    "WRAPPER CALLSITE differs from declared call-site hash"
  w.compiler.forM fun (key, declared) =>
    raiseIf (!((getField? key o.compiler).getD .null).pyEq declared) .environmentMismatch
      ("compiler setting " ++ String.ofList (Json.reprText key) ++ " differs from declaration")
  if hasText w.harnessSourceSha256 && hasText w.harnessSourcePath then
    let actual ← sha256File host fs (root.join (w.harnessSourcePath.getD ""))
    raiseIf (some actual ≠ w.harnessSourceSha256) .environmentMismatch
      "declared harness source hash does not match the replay tree"
  else pure ()

/-- Whether the witness declares the harness source. -/
def declaresHarnessSource (w : Witness) : Bool :=
  hasText w.harnessSourceSha256 && hasText w.harnessSourcePath

/-- What the declaration is compared with: the observation, and of the tree itself
only the harness source. -/
structure Declared (host : Host) (fs : FileSystem) (o : TreeObservation) (w : Witness)
    (root : Path) : Prop where
  template : o.templateSha256 = w.templateSha256
  attackBody : o.attackBodySha256 = w.attackBodySha256
  callsite : o.wrapperCallsiteSha256 = w.wrapperCallsiteSha256
  compiler : ∀ p ∈ w.compiler, ((getField? p.1 o.compiler).getD .null).pyEq p.2 = true
  harnessSource : declaresHarnessSource w = true → ∃ actual,
    sha256File host fs (root.join (w.harnessSourcePath.getD "")) = .ok actual ∧
      some actual = w.harnessSourceSha256

theorem checkDeclaration_eq_ok {host : Host} {fs : FileSystem} {o : TreeObservation}
    {w : Witness} {root : Path} :
    checkDeclaration host fs o w root = .ok () ↔ Declared host fs o w root := by
  have hCompiler : w.compiler.forM (fun p : String × Json =>
        raiseIf (!((getField? p.1 o.compiler).getD .null).pyEq p.2) .environmentMismatch
          ("compiler setting " ++ String.ofList (Json.reprText p.1) ++
            " differs from declaration")) = .ok () ↔
      ∀ p ∈ w.compiler, ((getField? p.1 o.compiler).getD .null).pyEq p.2 = true := by
    rw [forM_eq_ok]
    simp
  unfold checkDeclaration
  simp only [bind_eq_ok, raiseIf_eq_ok, decide_eq_false_iff_not, not_not]
  constructor
  · rintro ⟨_, hTemplate, _, hAttack, _, hCallsite, _, hFields, hSource⟩
    refine ⟨hTemplate, hAttack, hCallsite, hCompiler.mp hFields, fun hDeclares => ?_⟩
    rw [declaresHarnessSource] at hDeclares
    rw [if_pos hDeclares] at hSource
    simpa only [bind_eq_ok, raiseIf_eq_ok, decide_eq_false_iff_not, not_not] using hSource
  · intro h
    refine ⟨(), h.template, (), h.attackBody, (), h.callsite, (), hCompiler.mpr h.compiler, ?_⟩
    split
    · rename_i hDeclares
      simpa only [bind_eq_ok, raiseIf_eq_ok, decide_eq_false_iff_not, not_not] using
        h.harnessSource hDeclares
    · rfl

def jsonHash (host : Host) (payload : Json) : String := host.sha256Text payload.dumps

/-- The digests of the witness that the environment hash binds as a tool version. -/
def bindingPayload (o : TreeObservation) (w : Witness) : Json := .obj <| dictOf
  [("source_manifest_sha256", .str o.sourceManifestSha256),
    ("harness_source_sha256", textOrNull w.harnessSourceSha256),
    ("wrapper_source_sha256", textOrNull w.wrapperSourceSha256),
    ("harness_init_code_sha256", textOrNull w.harnessInitCodeSha256),
    ("harness_runtime_sha256", textOrNull w.harnessRuntimeSha256),
    ("wrapper_runtime_sha256", textOrNull w.wrapperRuntimeSha256)]

/-- The payload that `compute_env_hash` hashes. -/
def envPayload (host : Host) (o : TreeObservation) (w : Witness) (toolVersions : Fields)
    (initialTimestamp initialBlock : Option Int) : Json := .obj <| dictOf
  [("compiler", .obj o.compiler), ("sanitized_config", .obj o.sanitizedConfig),
    ("remappings", .str o.remappings), ("commit", .str w.commit),
    ("witness_class", .str w.witnessClass.text), ("fork_block", intOrNull w.forkBlock),
    ("deployment_plan_hash", textOrNull o.deploymentPlanHash), ("chain_id", .int w.chainId),
    ("template_sha256", .str o.templateSha256),
    ("attack_body_sha256", .str o.attackBodySha256),
    ("invariant_check_pins", mapJson .str w.invariantCheckPins),
    ("harness_library_hashes", .obj o.harnessLibraryHashes),
    ("harness_address", .str (lower w.harnessAddress)),
    ("harness_create2_salt", .str (lower w.harnessCreate2Salt)),
    ("expected_wrapper_depth", .int w.expectedWrapperDepth),
    ("wrapper_callsite_sha256", .str o.wrapperCallsiteSha256),
    ("tool_versions", .obj (setField "binding" (.str (jsonHash host (bindingPayload o w)))
      toolVersions)),
    ("initial_timestamp", intOrNull initialTimestamp),
    ("initial_block", intOrNull initialBlock)]

def environmentHash (host : Host) (o : TreeObservation) (w : Witness) (toolVersions : Fields)
    (initialTimestamp initialBlock : Option Int) : String :=
  jsonHash host (envPayload host o w toolVersions initialTimestamp initialBlock)

end L0vi0x.Chain
