import L0vi0x.Chain.Trace

/-! The limits on a trace: how far the clocks may move, and which cheatcodes a
policy document allows in which phase. -/
namespace L0vi0x.Chain

open L0vi0x.Python L0vi0x.Core

def decimal (i : Int) : String := String.ofList (intText i)

def enforceTimeBlockLimits (t : TraceSummary) (maxTimeAdvanceS maxBlockAdvance : Int) :
    Py Unit := do
  raiseIf (maxTimeAdvanceS < 0 ∨ maxBlockAdvance < 0) .tracePolicyError
    "time/block limits must be non-negative"
  raiseIf (t.cumulativeWarpS > maxTimeAdvanceS) .tracePolicyError
    ("cumulative warp advance " ++ decimal t.cumulativeWarpS ++ " exceeds " ++
      decimal maxTimeAdvanceS)
  raiseIf (t.cumulativeRoll > maxBlockAdvance) .tracePolicyError
    ("cumulative roll advance " ++ decimal t.cumulativeRoll ++ " exceeds " ++
      decimal maxBlockAdvance)

/-- `set(value)` of a parsed value, whose elements must be hashable. -/
def setOf (j : Json) : Py (List Json) := do
  let items ← j.iter
  match items.find? fun item => match item with
      | .arr _ | .obj _ => true
      | _ => false with
  | some item => raise .typeError ("unhashable type: '" ++ item.typeName ++ "'")
  | none => pure items

/-- The categories that the policy allows in a phase. -/
def allowedCategories (byPhase : Json) (phase : Phase) : Py (List Json) := do
  let fallback ← byPhase.attrGet "default" (.obj [])
  let policy ← byPhase.attrGet phase.text fallback
  if policy.isObj then setOf (policy.getD "allow_categories" (.arr [])) else pure []

def externalIoNames : List String :=
  ["ffi", "readFile", "writeFile", "setEnv", "envString", "envOrFile"]

def forkMutationNames : List String :=
  ["deal", "etch", "store", "load", "prank", "startPrank", "hoax", "startHoax", "setNonce",
    "mockCall", "mockCallRevert"]

/-- A fork may be selected only under its alias, at the pinned block, in the setup
of a deployed fork. -/
def enforceSelectFork (witnessClass : WitnessClass) (forkBlock : Option Int)
    (call : CheatcodeCall) : Py Unit := do
  raiseIf (witnessClass ≠ .deployedFork ∨ call.phase ≠ .setup) .tracePolicyError
    "createSelectFork is allowed only during deployed_fork setup"
  raiseIf (call.args.length ≠ 2 ∧ call.args.length ≠ 3) .tracePolicyError
    "createSelectFork must use an alias and a block"
  raiseIf (call.args.head? ≠ some (.str "l0vi0x_gate")) .tracePolicyError
    "createSelectFork must use the l0vi0x_gate alias"
  raiseIf (call.args.length ≠ 2) .tracePolicyError
    "createSelectFork must use the pinned numeric block form"
  match forkBlock with
  | none => raise .tracePolicyError "createSelectFork requires a declared pinned fork block"
  | some pinned =>
      let requested ← firstInt ((call.args[1]?).getD .null)
      raiseIf (requested ≠ some pinned) .tracePolicyError
        "createSelectFork must select the pinned fork block"

def enforceCall (witnessClass : WitnessClass) (byPhase : Json) (forkBlock : Option Int)
    (call : CheatcodeCall) : Py Unit := do
  let allowed ← allowedCategories byPhase call.phase
  raiseIf (call.category = "UNCLASSIFIED" ∨ .str call.category ∉ allowed) .tracePolicyError
    ("cheatcode denied: " ++ call.name ++ " (" ++ call.category ++ ") in " ++ call.phase.text)
  raiseIf (call.name ∈ externalIoNames) .tracePolicyError
    ("external I/O cheatcode denied: " ++ call.name)
  raiseIf (call.name = "createFork" ∨ call.name = "selectFork") .tracePolicyError
    ("cheatcode denied: " ++ call.name ++ "; only createSelectFork is permitted")
  if call.name = "createSelectFork" then enforceSelectFork witnessClass forkBlock call else pure ()
  raiseIf (witnessClass = .deployedFork ∧ call.phase = .witness ∧ call.name ∈ forkMutationNames)
    .tracePolicyError ("fork witness mutation/impersonation denied: " ++ call.name)

/-- The policy of a witness class: the value under `rules` when there is one. -/
def policyByPhase (witnessClass : WitnessClass) (policy : Json) : Py Json := do
  let root ← policy.attrGet "rules" policy
  pure (if root.isObj then root.getD witnessClass.text (.obj []) else .obj [])

def enforceCheatcodePolicy (t : TraceSummary) (witnessClass : WitnessClass) (policy : Json)
    (forkBlock : Option Int) : Py Unit := do
  let byPhase ← policyByPhase witnessClass policy
  t.cheatcodes.forM (enforceCall witnessClass byPhase forkBlock)

end L0vi0x.Chain
