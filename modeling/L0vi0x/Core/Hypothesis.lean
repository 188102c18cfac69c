import Mathlib.Data.List.AList
import L0vi0x.Core.Models

/-! The whole record of a hypothesis, of which `Hypothesis` is what the verifier
reads, and the token that the driver signs. -/
namespace L0vi0x.Core

open L0vi0x.Python

inductive HState
  | open | investigating | confirmed | finding | closed | closedDuplicate | parked | merged
  deriving DecidableEq, Repr

def HState.text : HState → String
  | .open => "OPEN"
  | .investigating => "INVESTIGATING"
  | .confirmed => "CONFIRMED"
  | .finding => "FINDING"
  | .closed => "CLOSED"
  | .closedDuplicate => "CLOSED_DUPLICATE"
  | .parked => "PARKED"
  | .merged => "MERGED"

def HState.all : List HState :=
  [.open, .investigating, .confirmed, .finding, .closed, .closedDuplicate, .parked, .merged]

theorem HState.mem_all (s : HState) : s ∈ HState.all := by
  cases s <;> simp [HState.all]

/-- States have different names. -/
theorem HState.text_injective : Function.Injective HState.text := by
  intro a b h
  cases a <;> cases b <;> first | rfl | exact absurd h (by decide)

inductive LadderLevel
  | int (i : Int)
  | text (s : String)
  deriving DecidableEq, Repr

def LadderLevel.notApplicable : LadderLevel := .text "not_applicable"

def LadderLevel.json : LadderLevel → Json
  | .int i => .int i
  | .text s => .str s

/-- The levels reached, by axis. -/
abbrev LadderMap := AList (fun _ : String => LadderLevel)

def LadderMap.json (ladder : LadderMap) : Json :=
  mapJson LadderLevel.json (ladder.entries.map fun p => (p.1, p.2))

inductive Channel
  | lens | obligation | seedStatic | seedShadow | chain
  deriving DecidableEq, Repr

def Channel.text : Channel → String
  | .lens => "lens"
  | .obligation => "obligation"
  | .seedStatic => "seed_static"
  | .seedShadow => "seed_shadow"
  | .chain => "chain"

inductive Capability
  | permissionless | flashLoan | donation | reentrancyHook | maliciousToken | oracleManip
  | ordering | crossProtocol
  deriving DecidableEq, Repr

def Capability.text : Capability → String
  | .permissionless => "permissionless"
  | .flashLoan => "flash_loan"
  | .donation => "donation"
  | .reentrancyHook => "reentrancy_hook"
  | .maliciousToken => "malicious_token_or_receiver"
  | .oracleManip => "oracle_manipulation"
  | .ordering => "ordering_mev"
  | .crossProtocol => "cross_protocol_call"

inductive Feasibility
  | deployedFork | localDeployment | unsupported | undetermined
  deriving DecidableEq, Repr

def Feasibility.text : Feasibility → String
  | .deployedFork => "deployed_fork"
  | .localDeployment => "local_deployment"
  | .unsupported => "unsupported"
  | .undetermined => "undetermined"

inductive Disposition
  | none | supported | refutedMechanical | refutedJudgment | inconclusive
  deriving DecidableEq, Repr

def Disposition.text : Disposition → String
  | .none => "none"
  | .supported => "supported"
  | .refutedMechanical => "refuted_mechanical"
  | .refutedJudgment => "refuted_judgment"
  | .inconclusive => "inconclusive"

inductive DisputeVerdict
  | supported | refuted | inconclusive | overridden
  deriving DecidableEq, Repr

def DisputeVerdict.text : DisputeVerdict → String
  | .supported => "supported"
  | .refuted => "refuted"
  | .inconclusive => "inconclusive"
  | .overridden => "overridden"

/-- A dictionary that a JSON text can carry. -/
abbrev NormalFields := { fields : Fields // (Json.obj fields).Normal }

def dictItems (xs : List NormalFields) : Json := .arr (xs.map fun x => .obj x.val)

structure DisputeRecord where
  id : String
  issueCode : String
  subjectId : String
  claimant : String
  verdict : DisputeVerdict
  defects : List NormalFields
  evidence : List String
  overrideReason : Option String
  reviewer : Option String
  createdAt : String

def DisputeRecord.dump (d : DisputeRecord) : Json := .obj <| dictOf
  [("id", .str d.id), ("issue_code", .str d.issueCode), ("subject_id", .str d.subjectId),
    ("claimant", .str d.claimant), ("verdict", .str d.verdict.text),
    ("defects", dictItems d.defects), ("evidence", textItems d.evidence),
    ("override_reason", textOrNull d.overrideReason), ("reviewer", textOrNull d.reviewer),
    ("created_at", .str d.createdAt)]

def Span.dump (s : Span) : Json := .obj <| dictOf
  [("file", .str s.file), ("start", .int s.startLine), ("end", .int s.endLine),
    ("sha256", .str s.sha256)]

/-- `Field(ge=0, le=1)` of a float. -/
structure Probability where
  value : FiniteFloat
  inRange : 0 ≤ (PyFloat.finite value).value?.getD 0 ∧ (PyFloat.finite value).value?.getD 0 ≤ 1

/-- Times are held as the texts that a dump shows. -/
structure HypothesisRecord extends Hypothesis where
  id : String
  invariantId : String
  capabilities : List Capability
  preconditions : List String
  assumptions : List String
  attackSketch : List String
  lens : Option String
  channel : Channel
  protocolType : String
  canonicalKey : Option String
  priorP : Probability
  estImpact : String
  estCost : String
  state : HState
  ladder : LadderMap
  witnessFeasibility : Feasibility
  skepticDisposition : Disposition
  skepticDefects : List NormalFields
  secondOpinionDisposition : Disposition
  secondOpinionDefects : List NormalFields
  disputed : Bool
  dispute : Option DisputeRecord
  parkedUnblock : Option String
  closeReason : Option String
  mergedInto : Option String
  duplicateOf : Option String
  reopenCount : Nat
  parentHypotheses : List String
  compositionRationale : Option String
  createdAt : String
  updatedAt : String
  provenanceNormal : (Json.obj provenance).Normal

/-- The fields of a dump in the order of the model. -/
def HypothesisRecord.pairs (h : HypothesisRecord) : List (String × Json) :=
  [("id", .str h.id), ("claim", .str h.claim), ("target", h.target.dump),
    ("invariant_id", .str h.invariantId),
    ("capabilities", textItems (h.capabilities.map Capability.text)),
    ("preconditions", textItems h.preconditions), ("assumptions", textItems h.assumptions),
    ("attack_sketch", textItems h.attackSketch), ("lens", textOrNull h.lens),
    ("channel", .str h.channel.text), ("protocol_type", .str h.protocolType),
    ("mechanism_tag", .str h.mechanismTag), ("canonical_key", textOrNull h.canonicalKey),
    ("prior_p", .float (.finite h.priorP.value)), ("est_impact", .str h.estImpact),
    ("est_cost", .str h.estCost), ("state", .str h.state.text), ("ladder", h.ladder.json),
    ("witness_feasibility", .str h.witnessFeasibility.text),
    ("skeptic_disposition", .str h.skepticDisposition.text),
    ("skeptic_defects", dictItems h.skepticDefects),
    ("second_opinion_disposition", .str h.secondOpinionDisposition.text),
    ("second_opinion_defects", dictItems h.secondOpinionDefects),
    ("disputed", .bool h.disputed), ("dispute", (h.dispute.map DisputeRecord.dump).getD .null),
    ("provenance", .obj h.provenance), ("parked_unblock", textOrNull h.parkedUnblock),
    ("close_reason", textOrNull h.closeReason), ("merged_into", textOrNull h.mergedInto),
    ("duplicate_of", textOrNull h.duplicateOf), ("reopen_count", .int h.reopenCount),
    ("parent_hypotheses", textItems h.parentHypotheses),
    ("composition_rationale", textOrNull h.compositionRationale),
    ("created_at", .str h.createdAt), ("updated_at", .str h.updatedAt)]

def HypothesisRecord.dump (h : HypothesisRecord) : Fields := dictOf h.pairs

section Facts

theorem textOrNull_normal (s : Option String) : (textOrNull s).Normal := by
  cases s <;> trivial

/-- Texts are normal values. -/
theorem textItems_normal (xs : List String) : (textItems xs).Normal := by
  refine Json.normalItems_iff.mpr fun j hj => ?_
  obtain ⟨s, -, rfl⟩ := List.mem_map.mp hj
  trivial

theorem dictItems_normal (xs : List NormalFields) : (dictItems xs).Normal := by
  refine Json.normalItems_iff.mpr fun j hj => ?_
  obtain ⟨x, -, rfl⟩ := List.mem_map.mp hj
  exact x.property

/-- The dump of a dispute is normal. -/
theorem DisputeRecord.dump_normal (d : DisputeRecord) : d.dump.Normal := by
  refine normal_dictOf ?_
  simp only [List.forall_mem_cons, textOrNull_normal, textItems_normal, dictItems_normal,
    Json.Normal, true_and, List.not_mem_nil, false_implies, implies_true]

/-- A ladder is a normal value. -/
theorem LadderMap.json_normal (ladder : LadderMap) : ladder.json.Normal := by
  refine normal_dictOf fun p hp => ?_
  obtain ⟨⟨axis, level⟩, -, rfl⟩ := List.mem_map.mp hp
  cases level <;> trivial

/-- The level of an axis in the dump of a ladder. -/
theorem LadderMap.get?_json (ladder : LadderMap) (axis : String) :
    ladder.json.get? axis = (ladder.lookup axis).map LadderLevel.json := by
  have hEntries : ∀ entries : List (Sigma fun _ : String => LadderLevel), entries.NodupKeys →
      lookupLast axis ((entries.map fun p => (p.1, p.2)).map fun p => (p.1, p.2.json)) =
        (entries.dlookup axis).map LadderLevel.json := by
    intro entries hNodup
    induction entries with
    | nil => rfl
    | cons entry rest ih =>
        obtain ⟨key, level⟩ := entry
        rw [List.nodupKeys_cons] at hNodup
        rw [List.map_cons, List.map_cons, lookupLast_cons, ih hNodup.2]
        by_cases hKey : key = axis
        · subst hKey
          rw [List.dlookup_eq_none.mpr hNodup.1, List.dlookup_cons_eq]
          simp
        · rw [List.dlookup_cons_ne _ _ (Ne.symm hKey)]
          simp [hKey]
  rw [LadderMap.json, mapJson, Json.get?, getField?_dictOf]
  exact hEntries ladder.entries ladder.nodupKeys

/-- The dump of a span is normal. -/
theorem Span.dump_normal (s : Span) : s.dump.Normal := by
  refine normal_dictOf ?_
  simp only [List.forall_mem_cons, Json.Normal, true_and, List.not_mem_nil, false_implies,
    implies_true]

/-- The dump of a hypothesis is normal. -/
theorem HypothesisRecord.dump_normal (h : HypothesisRecord) : (Json.obj h.dump).Normal := by
  have hDispute : ((h.dispute.map DisputeRecord.dump).getD .null).Normal := by
    cases h.dispute with
    | none => trivial
    | some d => exact d.dump_normal
  refine normal_dictOf ?_
  simp only [HypothesisRecord.pairs, List.forall_mem_cons, textOrNull_normal, textItems_normal,
    dictItems_normal, LadderMap.json_normal, Span.dump_normal, hDispute, h.provenanceNormal,
    List.not_mem_nil, false_implies, implies_true, and_true, true_and]
  simp only [Json.Normal, and_self]

/-- A field of a dump. -/
theorem HypothesisRecord.getField?_dump (h : HypothesisRecord) (key : String) :
    getField? key h.dump = lookupLast key h.pairs :=
  getField?_dictOf key h.pairs

end Facts
end L0vi0x.Core
