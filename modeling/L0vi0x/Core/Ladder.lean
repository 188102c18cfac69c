import L0vi0x.Core.Hypothesis
import L0vi0x.Core.Interfaces

/-! The evidence ladder: which levels an axis has, what each asks for, and the
award of a level to a hypothesis. -/
namespace L0vi0x.Core

open L0vi0x.Python

/-- What is shown for a level. -/
structure LadderProof where
  axis : String
  level : LadderLevel
  evidence : List String
  certificate : Option ReplayCertificate
  key : Option Bytes
  witnessSha256 : Option String
  envHash : Option String
  observedRecordsSha256 : Option String
  tracePolicySha256 : Option String
  controlSha256 : Option String
  crossCheckSha256 : Option String

def LadderLevel.toInt (level : LadderLevel) : Py Int := level.json.toInt

namespace Ladder

def axes : List String :=
  ["mechanism", "reachability", "execution", "economics", "production", "adjudication"]

def levels : List (String × List Int) :=
  [("mechanism", [0, 1]), ("reachability", [0, 2, 4]), ("execution", [3, 4, 5, 6]),
    ("economics", [0, 5, 6, 7]), ("production", [7]), ("adjudication", [8])]

def required : List (String × List (Int × List String)) :=
  [("mechanism", [(0, []), (1, ["span", "invariant"])]),
    ("reachability", [(0, []), (2, ["entrypoint_path"]), (4, ["run_receipt"])]),
    ("execution", [(3, ["experiment"]), (4, ["run_receipt"]),
      (5, ["run_receipt", "witness_assertion"]), (6, ["certificate"])]),
    ("economics", [(0, []), (5, ["econ_harness"]), (6, ["econ_harness", "certificate"]),
      (7, ["economics_realism", "certificate"])]),
    ("production", [(7, ["production_replay", "certificate"])]),
    ("adjudication", [(8, ["adjudication", "human_approval"])])]

def predecessors : List (String × List (Int × List (String × Int))) :=
  [("mechanism", [(1, [("mechanism", 0)])]),
    ("reachability", [(2, [("reachability", 0)]), (4, [("reachability", 2)])]),
    ("execution", [(4, [("execution", 3)]), (5, [("execution", 4)]), (6, [("execution", 5)])]),
    ("economics", [(6, [("economics", 5), ("execution", 5)]),
      (7, [("economics", 6), ("production", 7)])]),
    ("production", [(7, [("execution", 6), ("economics", 6)])]),
    ("adjudication", [(8, [("production", 7), ("economics", 7)])])]

def levelsOf (axis : String) : List Int := (levels.lookup axis).getD []

/-- `PREDECESSORS.get(axis, {}).get(level, ())`. -/
def predecessorsOf (axis : String) (level : Int) : List (String × Int) :=
  (((predecessors.lookup axis).getD []).lookup level).getD []

def unsupported (level : Int) (axis : String) : String :=
  "unsupported level " ++ String.ofList (intText level) ++ " for axis " ++ axis

def requiredArtifacts (axis : String) (level : LadderLevel) : Py (List String) := do
  raiseIf (!axes.contains axis) .ladderError ("unknown axis: " ++ axis)
  if level = .notApplicable then pure []
  else do
    let level ← level.toInt
    raiseIf (!(levelsOf axis).contains level) .ladderError (unsupported level axis)
    pure ((((required.lookup axis).getD []).lookup level).getD [])

/-- The level of an award: the sentinel, or a number that the axis has. -/
def asLevel (axis : String) (level : LadderLevel) : Py LadderLevel :=
  if level = .notApplicable then pure level
  else do
    let i ← except level.toInt (fun kind => kind = .typeError || kind.isValueError) fun _ =>
      raise .ladderError "level must be an integer or 'not_applicable'"
    raiseIf (!(levelsOf axis).contains i) .ladderError (unsupported i axis)
    pure (.int i)

/-- What a proof asks its certificate to be about. -/
def binding (proof : LadderProof) (level : Int) : Certificates.Binding where
  witnessSha256 := proof.witnessSha256.getD ""
  envHash := proof.envHash.getD ""
  observedRecordsSha256 := proof.observedRecordsSha256
  tracePolicySha256 := proof.tracePolicySha256
  controlSha256 := proof.controlSha256
  crossCheckSha256 := if level = 7 then proof.crossCheckSha256 else none

/-- Whether a proof of level 6 or more has a certificate that verifies. -/
def certified (host : Host) (proof : LadderProof) (level : Int) : Py Bool :=
  match proof.certificate, proof.key with
  | some certificate, some key =>
      if hasText proof.witnessSha256 && hasText proof.envHash &&
          hasText proof.observedRecordsSha256 && hasText proof.tracePolicySha256 &&
          hasText proof.controlSha256 then do
        let verified ← Certificates.verify host certificate key (binding proof level)
        pure (verified && !(level = 7 && !hasText proof.crossCheckSha256))
      else pure false
  | _, _ => pure false

/-- The certificate check, which starts at level 6. -/
def levelCertified (host : Host) (proof : LadderProof) : LadderLevel → Py Bool
  | .int i => if 6 ≤ i then certified host proof i else pure true
  | .text _ => pure true

/-- Whether a proof of the level asked for holds: the artifacts, from level 6 on
the certificate, and for adjudication the state of the hypothesis. -/
def proofHolds (host : Host) (hypothesis : Option HypothesisRecord) (axis : String)
    (level : LadderLevel) (proof : LadderProof) (artifacts : List String) : Py Bool := do
  if !artifacts.all proof.evidence.contains then pure false
  else
    let verified ← levelCertified host proof level
    if !verified then pure false
    else if axis = "production" && level = .int 7 && proof.certificate.isNone then pure false
    else if axis = "adjudication" && level = .int 8 &&
        hypothesis.any (fun h => h.state ≠ .finding && h.state ≠ .closed) then pure false
    else pure true

def validate (host : Host) (secret : Bytes) (token : Option DriverToken)
    (hypothesis : Option HypothesisRecord) (axis : String) (level : LadderLevel)
    (proof : Option LadderProof) : Py (Bool × List String) := do
  let valid ← validToken host secret token
  raiseIf (!valid) .ladderError "only a valid driver token may award ladder levels"
  raiseIf (!axes.contains axis) .ladderError ("unknown axis: " ++ axis)
  let level ← asLevel axis level
  match proof with
  | none => pure (false, [])
  | some proof =>
      if proof.axis ≠ axis ∨ proof.level ≠ level then pure (false, [])
      else do
        let artifacts ← requiredArtifacts axis level
        let holds ← proofHolds host hypothesis axis level proof artifacts
        pure (holds, artifacts)

/-- Whether an axis is held numerically at a level, as the loop over the
prerequisites tests it. -/
def heldAt (ladder : LadderMap) (axis : String) (level : Int) : Py Bool :=
  match ladder.lookup axis with
  | none => pure false
  | some current =>
      if current = .notApplicable then pure false
      else do
        let i ← current.toInt
        pure (decide (level ≤ i))

/-- `_prerequisites_satisfied(hypothesis, axis, level)` of a numeric level. -/
def prerequisitesSatisfied (ladder : LadderMap) (axis : String) (level : Int) : Py Bool :=
  (predecessorsOf axis level).allM fun p => heldAt ladder p.1 p.2

/-- The monotonicity rules for a level that a valid proof shows. -/
def checkLadder (ladder : LadderMap) (axis : String) (level : LadderLevel) : Py Bool :=
  let current := ladder.lookup axis
  if level = .notApplicable then do
    raiseIf (current.any (· ≠ .notApplicable)) .ladderError
      ("cannot mark " ++ axis ++ " not_applicable after a level was awarded")
    pure true
  else do
    raiseIf (current = some .notApplicable) .ladderError
      (axis ++ " is already marked not_applicable")
    let currentLevel ← current.elim (pure 0) LadderLevel.toInt
    let i ← level.toInt
    raiseIf (i < currentLevel) .ladderError ("ladder is monotonic: " ++ axis ++
      " cannot move from L" ++ String.ofList (intText currentLevel) ++ " to L" ++
      String.ofList (intText i))
    if currentLevel < i then
      let satisfied ← prerequisitesSatisfied ladder axis i
      raiseIf (!satisfied) .ladderError ("axis prerequisites are not satisfied for " ++ axis ++
        " L" ++ String.ofList (intText i))
      pure true
    else pure true

def validateAward (host : Host) (secret : Bytes) (token : Option DriverToken)
    (hypothesis : Option HypothesisRecord) (axis : String) (level : LadderLevel)
    (proof : Option LadderProof) : Py Bool := do
  let (ok, _) ← validate host secret token hypothesis axis level proof
  if !ok then pure false
  else match hypothesis with
    | none => pure true
    | some h => checkLadder h.ladder axis level

def awarded (level : LadderLevel) : Py LadderLevel :=
  if level = .notApplicable then pure level
  else do
    let i ← level.toInt
    pure (.int i)

/-- `award(token, hypothesis, axis, level, proof)` with the hypothesis it leaves. -/
def award (host : Host) (secret : Bytes) (token : Option DriverToken)
    (hypothesis : Option HypothesisRecord) (axis : String) (level : LadderLevel)
    (proof : Option LadderProof) : Py (Bool × Option HypothesisRecord) := do
  let ok ← validateAward host secret token hypothesis axis level proof
  if !ok then pure (false, hypothesis)
  else match hypothesis with
    | none => pure (true, none)
    | some h => do
        let level ← awarded level
        pure (true, some { h with ladder := h.ladder.insert axis level })

end Ladder
end L0vi0x.Core
