import L0vi0x.Verifier.Checks

/-! What the verifier derives from one retained run directory: the run itself, the
control, harness and economic evidence. -/
namespace L0vi0x.Verifier

open L0vi0x.Python L0vi0x.Core L0vi0x.Chain

structure DerivedReplayRun where
  root : Path
  trace : TraceSummary
  controlTrace : TraceSummary
  controlHash : String
  environmentHash : String
  environment : Fields

section Load

variable (host : Host) (fs : FileSystem)

def inside (p root : Path) : Py Path := do
  let resolved ← fs.resolve p
  let base ← fs.resolve root
  raiseIf (!resolved.isRelativeTo base) .valueError
    ("artifact escapes trust root: " ++ resolved.text)
  pure resolved

mutual
/-- `strip(value)`: drop every `duration`. -/
def stripDuration : Json → Json
  | .arr items => .arr (stripDurationItems items)
  | .obj fields => .obj (stripDurationFields fields)
  | j => j

def stripDurationItems : List Json → List Json
  | [] => []
  | j :: rest => stripDuration j :: stripDurationItems rest

def stripDurationFields : Fields → Fields
  | [] => []
  | (k, v) :: rest =>
      if k = "duration" then stripDurationFields rest
      else (k, stripDuration v) :: stripDurationFields rest
end

def controlHashFromRaw (raw : String) : Py String := do
  let control ← Json.loads raw
  raiseIf (!control.isObj) .valueError "control artifact is not an object"
  pure (host.sha256Text (stripDuration control).dumps)

/-- The files of a retained artifact directory. -/
inductive Artifact
  | trace | control | controlTrace | environment
  | traceSha | controlSha | controlTraceSha | environmentSha
  deriving DecidableEq, Repr

def Artifact.file : Artifact → String
  | .trace => "trace.json"
  | .control => "control.json"
  | .controlTrace => "control-trace.json"
  | .environment => "environment.json"
  | .traceSha => "trace.sha256"
  | .controlSha => "control.sha256"
  | .controlTraceSha => "control-trace.sha256"
  | .environmentSha => "environment.sha256"

/-- The one retained artifact directory of a run. -/
def artifactRoot (repoRoot : Path) : Py Path := do
  let present ← fs.pathExists (repoRoot.join "artifacts")
  match if present then fs.glob (repoRoot.join "artifacts") "run-*" else [] with
  | [dir] => fs.resolve dir
  | _ => raise .valueError ("expected exactly one retained replay artifact directory under " ++
      repoRoot.text)

/-- Refuse an artifact that is not there. -/
def requireFile (p : Path) : Py Unit := do
  raiseIf (!(← fs.isFile p)) .valueError ("required replay artifact missing: " ++ p.text)

/-- The environment artifact, checked against the witness and its own digest. -/
def loadEnvironment (w : Witness) (repoRoot envPath envShaPath : Path) :
    Py (String × Fields) := do
  let raw ← fs.readText envPath
  match ← Json.loads raw with
  | .obj env => do
      let observedEnv := ((getField? "environment_hash" env).getD (.str "")).text
      let recorded ← (← (Json.obj env).item "observation").toDict
      let observation ← TreeObservation.fromDict recorded
      checkDeclaration host fs observation w repoRoot
      let versions := (getField? "tool_versions" env).getD .null
      let toolVersions ← (if versions.truthy then versions else .obj []).toDict
      let timestamp ← (← (Json.obj env).item "initial_timestamp").toInt
      let block ← (← (Json.obj env).item "initial_block").toInt
      let observed := environmentHash host observation w toolVersions (some timestamp) (some block)
      raiseIf (observed ≠ observedEnv) .valueError "environment artifact hash mismatch"
      let declared ← fs.readText envShaPath
      raiseIf (strip declared ≠ observedEnv) .valueError "environment hash file mismatch"
      pure (observedEnv, env)
  | _ => raise .valueError "environment artifact is not an object"

/-- The resolved path of an artifact, which must stay below the run. -/
def artifactPath (root repoRoot : Path) (artifact : Artifact) : Py Path :=
  inside fs (root.join artifact.file) repoRoot

def artifactCases {α : Type} (trace control controlTrace environment traceSha controlSha
    controlTraceSha environmentSha : α) : Artifact → α
  | .trace => trace
  | .control => control
  | .controlTrace => controlTrace
  | .environment => environment
  | .traceSha => traceSha
  | .controlSha => controlSha
  | .controlTraceSha => controlTraceSha
  | .environmentSha => environmentSha

/-- The paths of the eight artifacts, in the order in which `load_run` resolves them. -/
def artifactPaths (root repoRoot : Path) : Py (Artifact → Path) := do
  let trace ← artifactPath fs root repoRoot .trace
  let control ← artifactPath fs root repoRoot .control
  let controlTrace ← artifactPath fs root repoRoot .controlTrace
  let environment ← artifactPath fs root repoRoot .environment
  let traceSha ← artifactPath fs root repoRoot .traceSha
  let controlSha ← artifactPath fs root repoRoot .controlSha
  let controlTraceSha ← artifactPath fs root repoRoot .controlTraceSha
  let environmentSha ← artifactPath fs root repoRoot .environmentSha
  pure (artifactCases trace control controlTrace environment traceSha controlSha controlTraceSha
    environmentSha)

def Artifact.all : List Artifact :=
  [.trace, .control, .controlTrace, .environment, .traceSha, .controlSha, .controlTraceSha,
    .environmentSha]

/-- Compare a digest with the one that is retained. -/
def compareSha (retained digest message : String) : Py Unit :=
  raiseIf (strip retained ≠ digest) .valueError message

/-- A digest that is retained is the one that was computed. -/
theorem compareSha_eq_ok {retained digest message : String} {u : Unit} :
    compareSha retained digest message = .ok u ↔ strip retained = digest := by
  simp [compareSha]

/-- The texts of the trace and of the control trace, after the three records were
compared with their retained digests. -/
def recordTexts (path : Artifact → Path) : Py (String × String) := do
  let traceRaw ← fs.readText (path .trace)
  let controlRaw ← fs.readText (path .control)
  let controlTraceRaw ← fs.readText (path .controlTrace)
  let traceSha ← fs.readText (path .traceSha)
  compareSha traceSha (host.sha256Text traceRaw) "trace artifact hash mismatch"
  let controlSha ← fs.readText (path .controlSha)
  let controlHash ← controlHashFromRaw host controlRaw
  compareSha controlSha controlHash "control artifact hash mismatch"
  let controlTraceSha ← fs.readText (path .controlTraceSha)
  compareSha controlTraceSha (host.sha256Text controlTraceRaw)
    "control trace artifact hash mismatch"
  pure (traceRaw, controlTraceRaw)

/-- `parse_trace(json.loads(raw), cheatcode_catalog=catalog)`. -/
def parseTraceText (catalog : List (String × String)) (raw : String) : Py TraceSummary := do
  let payload ← Json.loads raw
  parseTrace host (.parsed payload) catalog

def loadRun (runDir : Path) (w : Witness) (catalog : List (String × String)) :
    Py DerivedReplayRun := do
  let repoRoot ← fs.resolve runDir
  let root ← artifactRoot fs repoRoot
  let path ← artifactPaths fs root repoRoot
  Artifact.all.forM fun a => requireFile fs (path a)
  let (traceRaw, controlTraceRaw) ← recordTexts host fs path
  let trace ← parseTraceText host catalog traceRaw
  let controlTrace ← parseTraceText host catalog controlTraceRaw
  let (environmentHash, environment) ← loadEnvironment host fs w repoRoot (path .environment)
    (path .environmentSha)
  let controlRaw ← fs.readText (path .control)
  let controlHash ← controlHashFromRaw host controlRaw
  pure ⟨repoRoot, trace, controlTrace, controlHash, environmentHash, environment⟩

end Load

section Logs

def allLogs (frames : List TraceFrame) : List Json := frames.flatMap (·.logs)

/-- `[log for log in logs if log.get("event") == event]`. -/
def scanLogs (event : String) : List Json → Py (List Json)
  | [] => pure []
  | log :: rest => do
      let kind ← log.attrGet "event" .null
      let more ← scanLogs event rest
      pure (if kind = .str event then log :: more else more)

theorem isEvent_obj {event : String} {fields : Fields} :
    isEvent event (.obj fields) = true ↔ (getField? "event" fields).getD .null = .str event := by
  change decide (getField? "event" fields = some (.str event)) = true ↔ _
  rw [decide_eq_true_iff]
  cases getField? "event" fields with
  | none => simp
  | some kind => simp

/-- A scan returns when every log is a dictionary, and keeps the wanted events. -/
theorem scanLogs_eq_ok {event : String} {logs found : List Json} :
    scanLogs event logs = .ok found ↔
      (∀ log ∈ logs, log.isObj = true) ∧ found = logs.filter (isEvent event) := by
  induction logs generalizing found with
  | nil =>
      rw [scanLogs, pure_eq_ok]
      constructor
      · rintro rfl
        exact ⟨by simp, rfl⟩
      · rintro ⟨_, rfl⟩
        rfl
  | cons log rest ih =>
      cases hLog : log.isObj with
      | false =>
          have hRaise : ∀ more, ∃ e, log.attrGet "event" more = .error e := by
            intro more
            cases log <;> first | exact ⟨_, rfl⟩ | cases hLog
          obtain ⟨e, he⟩ := hRaise .null
          simp [scanLogs, he, bind, Except.bind, hLog]
      | true =>
          obtain ⟨fields, rfl⟩ : ∃ fields, log = .obj fields := by
            cases log <;> first | exact ⟨_, rfl⟩ | cases hLog
          have hGet : (Json.obj fields).attrGet "event" .null =
              .ok ((getField? "event" fields).getD .null) := rfl
          rw [scanLogs, hGet, bind_eq_ok]
          simp only [Except.ok.injEq, exists_eq_left', bind_eq_ok, pure_eq_ok, ih, ← isEvent_obj,
            List.forall_mem_cons, hLog, true_and, List.filter_cons]
          constructor
          · rintro ⟨more, ⟨hRest, rfl⟩, rfl⟩
            exact ⟨hRest, rfl⟩
          · rintro ⟨hRest, rfl⟩
            exact ⟨_, ⟨hRest, rfl⟩, rfl⟩

end Logs

def eventIds (events : List Json) : List String :=
  events.map fun e => (e.getD "id" .null).text

/-- Whether two lists have the same elements. -/
def sameElements (xs ys : List String) : Bool :=
  xs.all (ys.contains ·) && ys.all (xs.contains ·)

/-- `derive_control(attack, control, witness)`; the attack trace is not read. -/
def deriveControl (_attack control : TraceSummary) (w : Witness) : Py ControlEvidence := do
  let requiredIds := (w.required.map (·.id)).dedup
  let controlAssertions := control.assertionEvents.filter fun e =>
    requiredIds.contains ((Json.obj e).getD "id" .null).text
  let controlEvents ← scanLogs "ControlObserved" (allLogs control.frames)
  raiseIf (controlEvents.length ≠ requiredIds.length) .valueError
    "control evidence must contain exactly one ControlObserved event per required assertion"
  raiseIf (!sameElements (eventIds controlEvents) requiredIds) .valueError
    "control event IDs do not match the required assertion IDs"
  raiseIf (!controlAssertions.isEmpty) .valueError
    "control run unexpectedly emitted the attack assertion"
  pure {
    passed := true
    matchingAssertion := false
    observedStateChanged := controlEvents.any fun e => (e.getD "state_changed" .null).truthy
    assertionEventCount := control.assertionEvents.length }

section Harness

variable (host : Host) (fs : FileSystem)

/-- The parsed metadata of an artifact that names a compilation target; the outer
`none` skips the candidate. -/
def candidateTarget (data : Json) : Py (Option Json) := do
  let metadata ← data.attrGet "metadata" .null
  let parsed := match metadata with
    | .str s => match Json.loads s with
        | .ok j => some j
        | .error _ => none
    | j => some j
  match parsed with
  | some (.obj fields) => do
      let settings ← (Json.obj fields).attrGet "settings" (.obj [])
      some <$> settings.attrGet "compilationTarget" (.obj [])
  | _ => pure none

/-- A compiled artifact for `source_path`, or nothing. -/
def matchCandidate (sourcePath stem : String) (candidate : Path) : Py (List Json) := do
  let loaded ← except ((fun j => some j) <$> (fs.readText candidate >>= Json.loads))
    (fun kind => kind = .osError || kind = .jsonDecodeError) fun _ => pure none
  match loaded with
  | none => pure []
  | some data => match ← candidateTarget data with
      | none => pure []
      | some target => do
          let named ← target.attrGet sourcePath .null
          pure (if named = .str stem then [data] else [])

/-- `_artifact_contract(root, source_path, field)`: the digest of the source and its
only compiled artifact. -/
def artifactContract (root : Path) (sourcePath : String) : Py (String × Json) := do
  let src ← inside fs (root.join sourcePath) root
  let sourceHash ← sha256File host fs src
  let present ← fs.pathExists (root.join "out")
  let candidates := if present then fs.rglob (root.join "out") (src.stem ++ ".json") else []
  raiseIf candidates.isEmpty .valueError ("missing Foundry artifact for " ++ sourcePath)
  let found ← candidates.mapM (matchCandidate fs sourcePath src.stem)
  match found.flatten with
  | [data] => pure (sourceHash, data)
  | many => raise .valueError ("expected exactly one compiled artifact for " ++ sourcePath ++
      ", found " ++ decimal many.length)

variable {host fs} in
/-- A source is found with the only artifact that bears its name, if it was compiled from it. -/
theorem artifactContract_found {root src found : Path} {sourcePath text : String} {raw : Bytes}
    {artifact target : Json} (hInside : inside fs (root.join sourcePath) root = .ok src)
    (hSource : fs.readBytes src = .ok raw) (hOut : fs.pathExists (root.join "out") = .ok true)
    (hOnly : fs.rglob (root.join "out") (src.stem ++ ".json") = [found])
    (hText : fs.readText found = .ok text) (hLoads : Json.loads text = .ok artifact)
    (hTarget : candidateTarget artifact = .ok (some target))
    (hNamed : target.attrGet sourcePath .null = .ok (.str src.stem)) :
    artifactContract host fs root sourcePath = .ok (host.sha256 raw, artifact) := by
  have hDigest : sha256File host fs src = .ok (host.sha256 raw) := by
    rw [sha256File, hSource]
    rfl
  have hCandidate : matchCandidate fs sourcePath src.stem found = .ok [artifact] := by
    simp [matchCandidate, hText, hLoads, hTarget, hNamed, except, bind, Except.bind, pure,
      Except.pure, Functor.map, Except.map]
  simp [artifactContract, hInside, hDigest, hOut, hOnly, hCandidate, raiseIf, bind, Except.bind,
    pure, Except.pure]

def runtimeHash (artifact : Json) : Py String := do
  let bytecode ← artifact.attrGet "deployedBytecode" (.obj [])
  match bytecode.get? "object" with
  | some (.str code) =>
      if startsWith code "0x" then host.sha256 <$> bytesOfHex (dropText code 2)
      else raise .valueError "artifact has no deployedBytecode.object"
  | _ => raise .valueError "artifact has no deployedBytecode.object"

/-- `str(event.get(key, default)).lower()`. -/
def loweredField (event : Json) (key : String) (default : Json) : String :=
  lower (event.getD key default).text

/-- `value.lower()` of a value that must be a text. -/
def lowerMethod (j : Json) : Py String :=
  match j with
  | .str s => pure (lower s)
  | j => raise .attributeError ("'" ++ j.typeName ++ "' object has no attribute 'lower'")

/-- `bytes.fromhex(value[2:])` of a value that must be a text. -/
def hexData (j : Json) : Py Bytes :=
  match j with
  | .str s => bytesOfHex (dropText s 2)
  | _ => raise .typeError "fromhex() argument must be str"

/-- The one assertion event whose origin the harness evidence is about. -/
structure AssertionOrigin where
  harness : String
  wrapper : String
  depth : Int
  deriving DecidableEq

/-- The checks on the first assertion event. -/
def assertionOrigin (events : List Fields) (w : Witness) : Py AssertionOrigin := do
  match events with
  | [] => raise .valueError "no AssertionChecked event in replay"
  | first :: _ => do
      raiseIf (events.length ≠ w.required.length) .valueError
        "unexpected AssertionChecked event count"
      let assertion := Json.obj first
      let harness := loweredField assertion "emitter" (.str "")
      let wrapper := loweredField assertion "caller" (.str "")
      raiseIf (harness = "" ∨ wrapper = "") .valueError "AssertionChecked lacks emitter/caller"
      raiseIf (harness ≠ lower w.harnessAddress) .valueError
        "observed harness address differs from witness"
      raiseIf (hasText w.wrapperAddress ∧ wrapper ≠ lower (w.wrapperAddress.getD "")) .valueError
        "observed wrapper address differs from witness"
      let depth ← (assertion.getD "depth" (.int (-1))).toInt
      raiseIf (depth ≠ w.expectedWrapperDepth) .valueError
        "AssertionChecked depth differs from witness"
      pure ⟨harness, wrapper, depth⟩

/-- The frames that create the harness while the run is set up. -/
def harnessCreates (frames : List TraceFrame) (harness : String) : List TraceFrame :=
  frames.filter fun f =>
    f.phase = .setup && lower f.kind = "create2" && lower (f.toAddress.getD "") = harness

/-- The deployer and the init-code digest of one creation of the harness. -/
def checkCreation (create : TraceFrame) (w : Witness) (harness : String) :
    Py (String × String) := do
  raiseIf (!create.caller.truthy || !create.data.truthy) .valueError
    "harness CREATE2 lacks deployer/init code"
  let deployer ← lowerMethod create.caller
  raiseIf (!hasText w.harnessCreate2Deployer ||
      deployer != lower (w.harnessCreate2Deployer.getD "")) .valueError
    "harness deployer is not the pinned deployer"
  let initCode ← hexData create.data
  let initHash := host.sha256 initCode
  raiseIf (hasText w.harnessInitCodeSha256 && some initHash != w.harnessInitCodeSha256)
    .valueError "harness CREATE2 init-code hash mismatch"
  let expected ← assertHarnessAddress host deployer w.harnessCreate2Salt initCode harness
  raiseIf (lower expected ≠ harness) .valueError "CREATE2 recomputation failed"
  pure (deployer, initHash)

/-- The deployer and the init-code digest of the harness. -/
def harnessCreation (frames : List TraceFrame) (w : Witness) (harness : String) :
    Py (String × String) :=
  match harnessCreates frames harness with
  | [create] => checkCreation host create w harness
  | _ => raise .valueError "expected exactly one harness CREATE2"

/-- The source and runtime digests of one contract, as declared. -/
def contractDigests (root : Path) (path source runtime : Option String) (label : String) :
    Py (String × String) := do
  let (sourceHash, artifact) ← artifactContract host fs root (path.getD "")
  raiseIf (some sourceHash ≠ source) .valueError (label ++ " source hash mismatch")
  let runtimeDigest ← runtimeHash host artifact
  raiseIf (!hasText runtime || some runtimeDigest != runtime) .valueError
    (label ++ " runtime hash mismatch")
  pure (sourceHash, runtimeDigest)

/-- The actors that a run shows: in assertion events, transfers and snapshots. -/
def observedActors (t : TraceSummary) (snapshots : List Json) : List String :=
  ((t.assertionEvents.filter fun e => ((Json.obj e).getD "actor" .null).truthy).map
      fun e => loweredField (.obj e) "actor" .null) ++
    (t.transfers.flatMap fun t => [lower t.fromAddress, lower t.toAddress]) ++
    snapshots.map fun s => loweredField s "actor" (.str "")

def observedTokens (t : TraceSummary) (snapshots : List Json) : List String :=
  t.transfers.map (fun t => lower t.token) ++
    snapshots.map fun s => loweredField s "token" (.str "")

/-- What flows into an account minus what flows out. -/
def netFlow (transfers : List TraceTransfer) (actor token : String) : Int :=
  ((transfers.filter fun t => lower t.token = token && lower t.toAddress = actor).map
      (·.amount)).sum -
    ((transfers.filter fun t => lower t.token = token && lower t.fromAddress = actor).map
      (·.amount)).sum

/-- A declared balance delta must be what the transfers show. -/
def checkFlow (transfers : List TraceTransfer) (a : WitnessAssertion) : Py Unit :=
  match a.kind, a.actor, a.token with
  | .balanceDelta, some actor, some token => do
      let expected ← a.expected.json.toInt
      raiseIf (netFlow transfers (lower actor) (lower token) ≠ expected) .valueError
        "token transfer flow does not support the declared balance delta"
  | _, _, _ => pure ()

def sortedSet (values : List String) : List String := values.dedup.insertionSort (· ≤ ·)

/-- The coverage checks, and the evidence when they pass. `creation` holds the deployer
and the init-code digest, the other pairs a source and a runtime digest. -/
def harnessCoverage (run : DerivedReplayRun) (w : Witness) (origin : AssertionOrigin)
    (creation harness wrapper : String × String) : Py HarnessEvidence := do
  let snapshots ← scanLogs "EconomicSnapshot" (allLogs run.trace.frames)
  let actors := observedActors run.trace snapshots
  let tokens := observedTokens run.trace snapshots
  let expectedActors := w.declaredActors.map lower
  let expectedTokens := w.declaredTokens.map lower
  raiseIf (!expectedActors.all (actors.contains ·)) .valueError
    "COVERAGE_INCOMPLETE: declared actor was not observed"
  raiseIf (!expectedTokens.all (tokens.contains ·)) .valueError
    "COVERAGE_INCOMPLETE: declared token was not observed"
  let controlEvents ← scanLogs "ControlObserved" (allLogs run.controlTrace.frames)
  raiseIf (controlEvents.length ≠ w.required.length) .valueError
    "control event count does not match required assertions"
  w.required.forM (checkFlow run.trace.transfers)
  pure {
    harnessAddress := origin.harness
    wrapperAddress := origin.wrapper
    expectedWrapperDepth := w.expectedWrapperDepth
    observedWrapperDepth := origin.depth
    observedRuntimeSha256 := harness.2
    expectedRuntimeSha256 := w.harnessRuntimeSha256.getD ""
    observedSourceSha256 := harness.1
    expectedSourceSha256 := w.harnessSourceSha256.getD ""
    wrapperRuntimeSha256 := wrapper.2
    expectedWrapperRuntimeSha256 := w.wrapperRuntimeSha256.getD ""
    wrapperSourceSha256 := wrapper.1
    expectedWrapperSourceSha256 := w.wrapperSourceSha256.getD ""
    create2Deployer := creation.1
    create2Salt := lower w.harnessCreate2Salt
    create2InitCodeSha256 := creation.2
    assertionEmitter := origin.harness
    assertionEventDepth := origin.depth
    assertionEventCaller := origin.wrapper
    observedActorAddresses := sortedSet actors
    observedTokenAddresses := sortedSet tokens
    expectedActorAddresses := sortedSet expectedActors
    expectedTokenAddresses := sortedSet expectedTokens
    assertionEventCount := run.trace.assertionEvents.length
    economicEventCount := snapshots.length
    controlEventCount := controlEvents.length }

def deriveHarness (run : DerivedReplayRun) (w : Witness) : Py HarnessEvidence := do
  let origin ← assertionOrigin run.trace.assertionEvents w
  let creation ← harnessCreation host run.trace.frames w origin.harness
  raiseIf (!hasText w.harnessSourcePath || !hasText w.harnessSourceSha256) .valueError
    "harness source path/hash must be declared"
  let harness ← contractDigests host fs run.root w.harnessSourcePath w.harnessSourceSha256
    w.harnessRuntimeSha256 "harness"
  raiseIf (!hasText w.wrapperAddress || !hasText w.wrapperSourcePath ||
      !hasText w.wrapperSourceSha256 || !hasText w.wrapperRuntimeSha256) .valueError
    "wrapper identity/source/runtime declaration is incomplete"
  let wrapper ← contractDigests host fs run.root w.wrapperSourcePath w.wrapperSourceSha256
    w.wrapperRuntimeSha256 "wrapper"
  harnessCoverage run w origin creation harness wrapper

end Harness

section Economics

/-- The prices of the evidence: the native one apart. -/
structure PriceTable where
  native : Option PricePoint
  tokens : List (String × PricePoint)

/-- Store a price under its asset, over an older one. -/
def PriceTable.add (table : PriceTable) (point : PricePoint) : PriceTable :=
  if point.asset = "native" then { table with native := some point }
  else { table with tokens := table.tokens.filter (·.1 ≠ point.asset) ++ [(point.asset, point)] }

/-- `int(raw[key])` of a value that is there. -/
def itemInt (j : Json) (key : String) : Py Int := j.item key >>= Json.toInt

/-- `int(raw["block"])`, or the pinned block when none is given. -/
def priceBlock (w : Witness) : Json → Py (Option Int)
  | .null => pure w.forkBlock
  | j => some <$> j.toInt

/-- A text unless the value is `None`. -/
def textOrNone : Json → Option String
  | .null => none
  | j => some j.text

def pricePoint (w : Witness) (asset : String) (raw : Json) : Py PricePoint := do
  raiseIf (!raw.isObj) .valueError ("invalid price point for " ++ asset)
  let price ← (← raw.item "usd_per_unit").toFloat
  let decimals ← itemInt raw "decimals"
  let source ← raw.item "source"
  let block ← priceBlock w (raw.getD "block" .null)
  PricePoint.make (lower asset) price decimals source.text block
    (textOrNone (raw.getD "observed_at" .null))

/-- The table of all entries, later ones winning. -/
def priceTable (w : Witness) (sources : Fields) : Py PriceTable :=
  sources.foldlM (fun table p => table.add <$> pricePoint w p.1 p.2) ⟨none, []⟩

/-- The observations of the snapshot event and of the run. -/
def snapshotOf (run : DerivedReplayRun) (snap : Json) (token : String) (gasPrice : Int) :
    Py SnapshotEvidence := do
  let nativeBefore ← itemInt snap "native_before"
  let nativeAfter ← itemInt snap "native_after"
  let tokenBefore ← itemInt snap "token_before"
  let tokenAfter ← itemInt snap "token_after"
  let protocolDelta ← itemInt snap "protocol_assets_delta"
  let capital ← itemInt snap "declared_capital"
  pure {
    nativeBeforeWei := some nativeBefore
    nativeAfterWei := some nativeAfter
    tokenBefore := [(token, tokenBefore)]
    tokenAfter := [(token, tokenAfter)]
    gasUsed := some run.trace.gasUsed
    gasPriceWei := some gasPrice
    protocolAssetsDeltaWei := some protocolDelta
    declaredCapitalWei := capital
    observedCapitalWei := some nativeBefore
    sensitivity := []
    sensitivityScenarios := [] }

/-- `int(run.environment.get("gas_price_wei", -1))`. -/
def observedGasPrice (run : DerivedReplayRun) : Py Int :=
  ((getField? "gas_price_wei" run.environment).getD (.int (-1))).toInt

/-- The inputs of the economics, from a snapshot whose values are there. -/
def economicInputs (w : Witness) (s : SnapshotEvidence) (table : PriceTable) : EconomicInputs where
  nativeBeforeWei := s.nativeBeforeWei.getD 0
  nativeAfterWei := s.nativeAfterWei.getD 0
  tokenBefore := s.tokenBefore
  tokenAfter := s.tokenAfter
  tokenDecimals := w.tokenDecimals
  prices := table.tokens
  gasUsed := s.gasUsed.getD 0
  gasPriceWei := s.gasPriceWei.getD 0
  declaredCapitalWei := s.declaredCapitalWei
  observedCapitalWei := s.observedCapitalWei
  nativePrice := table.native
  pinnedBlock := w.forkBlock
  protocolAssetsDeltaWei := s.protocolAssetsDeltaWei

/-- `(price_sources or {}).items()`. -/
def priceEntries : Json → Py Fields
  | .obj fields => pure fields
  | j =>
      if j.truthy then
        raise .attributeError ("'" ++ j.typeName ++ "' object has no attribute 'items'")
      else pure []

/-- The evidence for a snapshot and the report measured from it. -/
def economicEvidence (w : Witness) (snapshot : SnapshotEvidence) (report : EconomicReport) :
    EconomicEvidence where
  snapshot := { snapshot with
    protocolAssetsDeltaWei := report.protocolAssetsDeltaWei
    sensitivity := report.sensitivity
    sensitivityScenarios := report.sensitivityScenarios }
  realismFlags := report.realismFlags
  pinnedBlock := w.forkBlock
  headReplayPassed := none
  upstreamStateMatch := none
  priceSources := report.priceSources
  sensitivity := report.sensitivity
  sensitivityScenarios := report.sensitivityScenarios
  evidenceComplete := hasScenarioLabels report.sensitivity &&
    hasScenarioLabels report.sensitivityScenarios

/-- The economics of the one snapshot event. -/
def snapshotEconomics (run : DerivedReplayRun) (w : Witness) (priceSources snap : Json) :
    Py EconomicEvidence := do
  let token ← snap.item "token"
  let sources ← priceEntries priceSources
  let table ← priceTable w sources
  let gasPrice ← observedGasPrice run
  let snapshot ← snapshotOf run snap (lower token.text) gasPrice
  raiseIf (gasPrice < 0) .valueError "actual gas price was not observed"
  let report ← measure (economicInputs w snapshot table)
  pure (economicEvidence w snapshot report)

def deriveEconomics (run : DerivedReplayRun) (w : Witness) (priceSources : Json) :
    Py EconomicEvidence := do
  match ← scanLogs "EconomicSnapshot" (allLogs run.trace.frames) with
  | [snap] => snapshotEconomics run w priceSources snap
  | _ => raise .valueError "exactly one EconomicSnapshot is required"

end Economics
end L0vi0x.Verifier
