import L0vi0x.Chain.TracePolicy
import L0vi0x.Chain.Environment

/-! The collector of replays: fresh copies are run one after another, what each retained is
checked, and the runs are summed up when they agree. What copies a tree and runs it is left
open; a refusal of the operating system is part of what it gives. -/
namespace L0vi0x.Chain

open L0vi0x.Python L0vi0x.Core

structure ReplayRun where
  index : Nat
  passed : Bool
  artifactDir : Path
  tracePath : Path
  controlPath : Path
  controlTracePath : Path
  environmentPath : Path
  controlSha256 : String
  environmentHash : String
  structured : TraceSummary

structure ReplayCollection where
  witnessHash : String
  root : Path
  runs : List ReplayRun
  observedRecordsSha256 : String
  tracePolicySha256 : String
  controlSha256 : String
  environmentHash : String

/-- A fresh copy of the tree after the executor ran in it: its place, what the executor
returned and the files as they are then. -/
structure FreshRun where
  copyRoot : Path
  result : Fields
  fs : FileSystem

/-- What a collector was made with. -/
structure ReplayCoordinator where
  replayRoot : Path
  cheatcodeCatalog : List (String × String)
  cheatcodePolicy : Json
  /-- The directory, the copy and the execution of the run of an index. -/
  execute : Witness → Nat → Py FreshRun

def requiredArtifacts : List String :=
  ["trace_path", "control_path", "control_trace_path", "environment_path", "control_sha256",
    "environment_hash"]

def resultText (result : Fields) (key : String) : Py String :=
  Json.text <$> (Json.obj result).item key

def resultPath (fs : FileSystem) (result : Fields) (key : String) : Py Path := do
  let s ← resultText result key
  fs.resolve (Path.ofText s)

/-- `Path(str(result.get("artifact_dir", trace_path.parent))).resolve()`. -/
def artifactDirOf (fs : FileSystem) (result : Fields) (tracePath : Path) : Py Path :=
  match getField? "artifact_dir" result with
  | some dir => fs.resolve (Path.ofText dir.text)
  | none => fs.resolve ⟨tracePath.root, tracePath.parts.dropLast⟩

/-- An artifact is a file below the fresh copy. -/
def requireArtifact (fs : FileSystem) (copyRoot p : Path) : Py Unit := do
  let isFile ← fs.isFile p
  raiseIf (!isFile || !p.isRelativeTo copyRoot) .valueError
    ("replay artifact is missing or outside fresh copy: " ++ p.text)

namespace ReplayCoordinator

variable (host : Host) (c : ReplayCoordinator) (w : Witness)

/-- One fresh copy, checked and parsed. -/
def collectRun (index : Nat) : Py ReplayRun := do
  let fresh ← c.execute w index
  let missing := requiredArtifacts.filter fun key => (getField? key fresh.result).isNone
  raiseIf (!missing.isEmpty) .valueError
    ("replay executor did not return required artifacts: " ++ (textItems missing).text)
  let tracePath ← resultPath fresh.fs fresh.result "trace_path"
  let controlPath ← resultPath fresh.fs fresh.result "control_path"
  let controlTracePath ← resultPath fresh.fs fresh.result "control_trace_path"
  let environmentPath ← resultPath fresh.fs fresh.result "environment_path"
  let artifactDir ← artifactDirOf fresh.fs fresh.result tracePath
  let copyRoot ← fresh.fs.resolve fresh.copyRoot
  [tracePath, controlPath, controlTracePath, environmentPath].forM
    (requireArtifact fresh.fs copyRoot)
  let payload ← Json.loads (← fresh.fs.readText tracePath)
  let structured ← parseTrace host (.parsed payload) c.cheatcodeCatalog
  enforceTimeBlockLimits structured w.maxTimeAdvanceS w.maxBlockAdvance
  enforceCheatcodePolicy structured w.witnessClass c.cheatcodePolicy w.forkBlock
  let controlSha256 ← resultText fresh.result "control_sha256"
  let environmentHash ← resultText fresh.result "environment_hash"
  pure {
    index := index
    passed := ((getField? "passed" fresh.result).getD .null).truthy
    artifactDir := artifactDir
    tracePath := tracePath
    controlPath := controlPath
    controlTracePath := controlTracePath
    environmentPath := environmentPath
    controlSha256 := controlSha256
    environmentHash := environmentHash
    structured := structured }

/-- The digest of the catalog and the rules that the collector was made with. -/
def tracePolicySha256 : String := jsonHash host <| .obj <| dictOf
  [("catalog", .obj (dictOf (c.cheatcodeCatalog.map fun p => (p.1, .str p.2)))),
    ("policy", c.cheatcodePolicy)]

/-- The runs summed up, when they passed and agree. -/
def sumUp (root : Path) (runs : List ReplayRun) : Py ReplayCollection := do
  raiseIf (!runs.all (·.passed)) .valueError "not all replay runs passed"
  let environments := runs.map (·.environmentHash)
  raiseIf (environments.dedup.length ≠ 1) .valueError "NONDETERMINISTIC_ENV"
  let environment := environments.headD ""
  raiseIf (environment ≠ w.envHash) .valueError "ENV_DECLARATION_MISMATCH"
  let records := runs.map fun run => run.structured.observedRecordsSha256 host
  raiseIf (records.dedup.length ≠ 1) .valueError "NONDETERMINISTIC_TRACE"
  let controls := runs.map (·.controlSha256)
  raiseIf (controls.dedup.length ≠ 1) .valueError "CONTROL_NONDETERMINISTIC"
  pure {
    witnessHash := Chain.witnessHash host w
    root := root
    runs := runs
    observedRecordsSha256 := jsonHash host (textItems records)
    tracePolicySha256 := c.tracePolicySha256 host
    controlSha256 := controls.headD ""
    environmentHash := environment }

def collect (runs : Int) : Py ReplayCollection := do
  raiseIf (runs < 3) .valueError "replay collection requires >=3 fresh runs"
  let collected ← ((List.range runs.toNat).map (· + 1)).mapM (c.collectRun host w)
  c.sumUp host w (c.replayRoot.join (Chain.witnessHash host w)) collected

end ReplayCoordinator
end L0vi0x.Chain
