import Mathlib.Data.List.Sort
import L0vi0x.Python.FileSystem
import L0vi0x.Python.Host

/-! The records that the verifier is given. A witness keeps every field, since
its digest covers all of them; the other records keep the fields that are read. -/
namespace L0vi0x.Core

open L0vi0x.Python

/-- An optional text or integer as JSON. -/
def textOrNull (s : Option String) : Json := (s.map Json.str).getD .null
def intOrNull (i : Option Int) : Json := (i.map Json.int).getD .null

def textItems (xs : List String) : Json := .arr (xs.map .str)

/-- A dictionary from names to values, as JSON. -/
def mapJson {α : Type} (value : α → Json) (pairs : List (String × α)) : Json :=
  .obj (dictOf (pairs.map fun p => (p.1, value p.2)))

def hasText (s : Option String) : Bool := s.getD "" ≠ ""

/-- A cited range of lines with the digest of its text. -/
structure Span where
  file : String
  startLine : Int
  endLine : Int
  sha256 : String
  ordered : 1 ≤ startLine ∧ startLine ≤ endLine

inductive WitnessClass
  | deployedFork
  | localDeployment
  deriving DecidableEq, Repr

def WitnessClass.text : WitnessClass → String
  | .deployedFork => "deployed_fork"
  | .localDeployment => "local_deployment"

inductive AssertionKind
  | invariant | balanceDelta | solvency | stateChange | custom
  deriving DecidableEq, Repr

def AssertionKind.text : AssertionKind → String
  | .invariant => "invariant"
  | .balanceDelta => "balance_delta"
  | .solvency => "solvency"
  | .stateChange => "state_change"
  | .custom => "custom"

inductive AssertionOperator
  | eq | neq | gt | gte | lt | lte | holds | violated
  deriving DecidableEq, Repr

def AssertionOperator.text : AssertionOperator → String
  | .eq => "eq"
  | .neq => "neq"
  | .gt => "gt"
  | .gte => "gte"
  | .lt => "lt"
  | .lte => "lte"
  | .holds => "holds"
  | .violated => "violated"

/-- The declared value of an assertion: `str | int | bool`. -/
inductive Expected
  | text (s : String)
  | int (i : Int)
  | bool (b : Bool)
  deriving DecidableEq, Repr

def Expected.json : Expected → Json
  | .text s => .str s
  | .int i => .int i
  | .bool b => .bool b

structure WitnessAssertion where
  id : String
  kind : AssertionKind
  target : String
  operator : AssertionOperator
  expected : Expected
  observedRecord : String
  actor : Option String
  token : Option String
  required : Bool
  deriving DecidableEq, Repr

def WitnessAssertion.dump (a : WitnessAssertion) : Json := .obj <| dictOf
  [("id", .str a.id), ("kind", .str a.kind.text), ("target", .str a.target),
    ("operator", .str a.operator.text), ("expected", a.expected.json),
    ("observed_record", .str a.observedRecord), ("actor", textOrNull a.actor),
    ("token", textOrNull a.token), ("required", .bool a.required)]

/-- What a run is declared to show. A fork has a block, a local deployment a budget. -/
structure Witness where
  witnessClass : WitnessClass
  chainId : Int
  forkBlock : Option Int
  commit : String
  compiler : Fields
  testFile : String
  testName : String
  controlTestName : String
  initialCapitalWei : Int
  maxTimeAdvanceS : Int
  maxBlockAdvance : Int
  declaredActors : List String
  declaredTokens : List String
  tokenDecimals : List (String × Int)
  setupBudget : Option Fields
  assertions : List WitnessAssertion
  invariantCheckPins : List (String × String)
  templateSha256 : String
  attackBodySha256 : String
  harnessAddress : String
  harnessCreate2Salt : String
  harnessCreate2Deployer : Option String
  harnessInitCodeSha256 : Option String
  harnessRuntimeSha256 : Option String
  harnessSourcePath : Option String
  harnessSourceSha256 : Option String
  wrapperAddress : Option String
  wrapperRuntimeSha256 : Option String
  wrapperSourcePath : Option String
  wrapperSourceSha256 : Option String
  expectedWrapperDepth : Int
  wrapperCallsiteSha256 : String
  rpcProviderLabel : Option String
  crossCheckProviderLabel : Option String
  envHash : String
  classRules : (witnessClass = .deployedFork → forkBlock ≠ none) ∧
    (witnessClass = .localDeployment → setupBudget ≠ none)

/-- `[a for a in witness.assertions if a.required]`. -/
def Witness.required (w : Witness) : List WitnessAssertion := w.assertions.filter (·.required)

def Witness.dump (w : Witness) : Fields := dictOf
  [("witness_class", .str w.witnessClass.text), ("chain_id", .int w.chainId),
    ("fork_block", intOrNull w.forkBlock), ("commit", .str w.commit),
    ("compiler", .obj w.compiler), ("test_file", .str w.testFile),
    ("test_name", .str w.testName), ("control_test_name", .str w.controlTestName),
    ("initial_capital_wei", .int w.initialCapitalWei),
    ("max_time_advance_s", .int w.maxTimeAdvanceS),
    ("max_block_advance", .int w.maxBlockAdvance),
    ("declared_actors", textItems w.declaredActors),
    ("declared_tokens", textItems w.declaredTokens),
    ("token_decimals", mapJson .int w.tokenDecimals),
    ("setup_budget", (w.setupBudget.map Json.obj).getD .null),
    ("assertions", .arr (w.assertions.map WitnessAssertion.dump)),
    ("invariant_check_pins", mapJson .str w.invariantCheckPins),
    ("template_sha256", .str w.templateSha256),
    ("attack_body_sha256", .str w.attackBodySha256),
    ("harness_address", .str w.harnessAddress),
    ("harness_create2_salt", .str w.harnessCreate2Salt),
    ("harness_create2_deployer", textOrNull w.harnessCreate2Deployer),
    ("harness_init_code_sha256", textOrNull w.harnessInitCodeSha256),
    ("harness_runtime_sha256", textOrNull w.harnessRuntimeSha256),
    ("harness_source_path", textOrNull w.harnessSourcePath),
    ("harness_source_sha256", textOrNull w.harnessSourceSha256),
    ("wrapper_address", textOrNull w.wrapperAddress),
    ("wrapper_runtime_sha256", textOrNull w.wrapperRuntimeSha256),
    ("wrapper_source_path", textOrNull w.wrapperSourcePath),
    ("wrapper_source_sha256", textOrNull w.wrapperSourceSha256),
    ("expected_wrapper_depth", .int w.expectedWrapperDepth),
    ("wrapper_callsite_sha256", .str w.wrapperCallsiteSha256),
    ("rpc_provider_label", textOrNull w.rpcProviderLabel),
    ("cross_check_provider_label", textOrNull w.crossCheckProviderLabel),
    ("env_hash", .str w.envHash)]

/-- What the verifier reads of a hypothesis. -/
structure Hypothesis where
  claim : String
  target : Span
  mechanismTag : String
  provenance : Fields

structure Scope where
  commit : String
  inScope : List (Option String)
  outOfScope : List String
  excludedClasses : List String
  attackerCapitalWei : Int

inductive KnownIssueStatus
  | open | accepted | superseded
  deriving DecidableEq, Repr

structure KnownIssue where
  id : String
  claim : String
  status : KnownIssueStatus
  spans : List Span
  appliesTo : List String

/-- A replay certificate; the verifier drops its time of issue. -/
structure ReplayCertificate where
  id : String
  witnessSha256 : String
  envHash : String
  runs : Int
  observedRecordsSha256 : String
  tracePolicySha256 : String
  controlSha256 : String
  crossCheckSha256 : Option String
  mac : String
  atLeastThree : 3 ≤ runs

/-- The fields that the certificate's MAC covers. -/
def ReplayCertificate.fields (cert : ReplayCertificate) : Fields := dictOf
  [("id", .str cert.id), ("witness_sha256", .str cert.witnessSha256),
    ("env_hash", .str cert.envHash), ("runs", .int cert.runs),
    ("observed_records_sha256", .str cert.observedRecordsSha256),
    ("trace_policy_sha256", .str cert.tracePolicySha256),
    ("control_sha256", .str cert.controlSha256),
    ("cross_check_sha256", textOrNull cert.crossCheckSha256)]

/-- The states that a verification can route a hypothesis to. -/
inductive NextState
  | investigating | parked | closedDuplicate | closed | finding
  deriving DecidableEq, Repr

def NextState.text : NextState → String
  | .investigating => "INVESTIGATING"
  | .parked => "PARKED"
  | .closedDuplicate => "CLOSED_DUPLICATE"
  | .closed => "CLOSED"
  | .finding => "FINDING"

end L0vi0x.Core
