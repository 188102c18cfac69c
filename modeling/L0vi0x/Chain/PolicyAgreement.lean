import L0vi0x.Chain.CheatcodeEnforcement
import L0vi0x.Core.Policy

/-! The trace engine and the core engine on the same catalog and rules. Both read the rules
alike, but the trace engine looks a name up without regard to case. -/
namespace L0vi0x.Chain

open L0vi0x.Python L0vi0x.Core

section Rules

/-- The catalog as the trace engine is given it: the texts of the categories. -/
def traceCatalog (catalog : List (String × Json)) : List (String × String) :=
  catalog.map fun p => (p.1, p.2.text)

/-- The checks of `CheatcodePolicy`, built from the same catalog and rules, on the calls. -/
def coreChecks (catalog : List (String × Json)) (policy : Json) (witnessClass : WitnessClass)
    (calls : List CheatcodeCall) : Py Unit := do
  let root ← policy.attrGet "rules" policy
  let engine ← CheatcodePolicy.make (.obj [("categories", .obj (dictOf catalog))])
    (.obj [("rules", root)])
  calls.forM fun c => engine.check c.name witnessClass.text c.phase.text

/-- The rules allow the category in the phase. -/
def CategoryAllowed (policy : Json) (witnessClass : WitnessClass) (phase : Phase)
    (category : String) : Prop :=
  ∃ byPhase allowed, policyByPhase witnessClass policy = .ok byPhase ∧
    allowedCategories byPhase phase = .ok allowed ∧ .str category ∈ allowed

/-- Every record is spelled as a name of the catalog, whose category is the one found
without regard to case or is itself allowed. -/
def SpelledAsClassified (host : Host) (catalog : List (String × Json)) (policy : Json)
    (witnessClass : WitnessClass) (payload : TracePayload) : Prop :=
  ∀ r ∈ payload.cheatcodeRecords, ∃ value,
    lookupLast (cheatcodeName host r.2 r.1) catalog = some value ∧ value ≠ .null ∧
      (value.text = categoryOf (traceCatalog catalog) (cheatcodeName host r.2 r.1) ∨
        CategoryAllowed policy witnessClass r.2.phase value.text)

variable {catalog : List (String × Json)} {policy root byPhase : Json}
  {witnessClass : WitnessClass} {phase : Phase} {allowed : List Json}

theorem attrGet_of_allowed {j item : Json} {key : String} (hObj : j.isObj = true) :
    j.attrGet key item = .ok (j.getD key item) := by
  cases j with
  | obj fields => rfl
  | _ => cases hObj

/-- A set whose items are hashable is the list of these items. -/
theorem toSet_of_setOf {j : Json} (h : setOf j = .ok allowed) : j.toSet = .ok allowed := by
  rw [setOf] at h
  obtain ⟨items, hItems, h⟩ := bind_eq_ok.mp h
  rw [Json.toSet]
  refine bind_eq_ok.mpr ⟨items, hItems, ?_⟩
  split at h
  · cases h
  · next hNone =>
      obtain rfl := pure_eq_ok.mp h
      clear * - hNone
      induction items with
      | nil => rfl
      | cons item rest ih =>
          rw [List.find?_cons] at hNone
          rw [List.mapM_cons]
          cases item with
          | arr _ => cases hNone
          | obj _ => cases hNone
          | _ =>
              refine bind_eq_ok.mpr ⟨_, rfl, bind_eq_ok.mpr ⟨rest, ih hNone, rfl⟩⟩

/-- What the trace engine allows in a phase, the core engine allows in it. -/
theorem allows_of_allowedCategories (hRoot : policy.attrGet "rules" policy = .ok root)
    (hPolicy : policyByPhase witnessClass policy = .ok byPhase)
    (hAllowed : allowedCategories byPhase phase = .ok allowed) {category : String}
    (hMem : .str category ∈ allowed) (classified : Json) :
    (CheatcodePolicy.mk classified root).Allows witnessClass.text phase.text allowed := by
  rw [allowedCategories] at hAllowed
  obtain ⟨fallback, hFallback, hAllowed⟩ := bind_eq_ok.mp hAllowed
  obtain ⟨phaseRules, hPhase, hAllowed⟩ := bind_eq_ok.mp hAllowed
  have hRules : phaseRules.isObj = true := by
    cases hObj : phaseRules.isObj with
    | true => rfl
    | false =>
        rw [hObj] at hAllowed
        obtain rfl := pure_eq_ok.mp hAllowed
        exact absurd hMem List.not_mem_nil
  rw [if_pos hRules] at hAllowed
  rw [policyByPhase, hRoot] at hPolicy
  have hByPhase := pure_eq_ok.mp hPolicy
  cases hObj : root.isObj with
  | true =>
      rw [if_pos hObj] at hByPhase
      refine ⟨byPhase, fallback, phaseRules, _, ?_, hFallback, hPhase,
        attrGet_of_allowed hRules, toSet_of_setOf hAllowed⟩
      rw [← hByPhase]
      exact attrGet_of_allowed hObj
  | false =>
      -- without rules the trace engine has an empty table, whose phases allow nothing
      rw [hObj] at hByPhase
      simp only [Bool.false_eq_true, ↓reduceIte] at hByPhase
      subst hByPhase
      obtain rfl := pure_eq_ok.mp hFallback
      obtain rfl := pure_eq_ok.mp hPhase
      obtain rfl := pure_eq_ok.mp hAllowed
      exact absurd hMem List.not_mem_nil

end Rules

section Agreement

variable {host : Host} {catalog : List (String × Json)} {policy : Json}
  {witnessClass : WitnessClass} {payload : TracePayload} {t : TraceSummary}
  {forkBlock : Option Int}

/-- The core engine accepts a call that the trace engine accepts exactly when the catalog
has its name as it is spelled, with a category that is allowed too. -/
theorem core_accepts_iff {root byPhase : Json} {call : CheatcodeCall}
    (hRoot : policy.attrGet "rules" policy = .ok root)
    (hPolicy : policyByPhase witnessClass policy = .ok byPhase)
    (hCall : enforceCall witnessClass byPhase forkBlock call = .ok ()) :
    (CheatcodePolicy.mk (.obj (dictOf catalog)) root).check call.name witnessClass.text
        call.phase.text = .ok () ↔
      ∃ value, lookupLast call.name catalog = some value ∧ value ≠ .null ∧
        (value.text = call.category ∨
          CategoryAllowed policy witnessClass call.phase value.text) := by
  obtain ⟨allowed, hAllowed, hMem⟩ := (enforceCall_eq_ok hCall).category
  rw [check_eq_ok_iff (allows_of_allowedCategories hRoot hPolicy hAllowed hMem _)]
  simp only [category_eq_ok_iff (p := ⟨.obj (dictOf catalog), root⟩) rfl, getField?_dictOf]
  constructor
  · rintro ⟨_, ⟨value, hValue, hNull, rfl⟩, hListed⟩
    exact ⟨value, hValue, hNull, .inr ⟨byPhase, allowed, hPolicy, hAllowed, hListed⟩⟩
  · rintro ⟨value, hValue, hNull, hSame | ⟨byPhase', allowed', hPolicy', hAllowed', hListed⟩⟩
    · exact ⟨value.text, ⟨value, hValue, hNull, rfl⟩, hSame ▸ hMem⟩
    · rw [hPolicy, Except.ok.injEq] at hPolicy'
      subst hPolicy'
      rw [hAllowed, Except.ok.injEq] at hAllowed'
      subst hAllowed'
      exact ⟨value.text, ⟨value, hValue, hNull, rfl⟩, hListed⟩

theorem coreChecks_eq_ok_iff {root : Json} {calls : List CheatcodeCall}
    (hRoot : policy.attrGet "rules" policy = .ok root) :
    coreChecks catalog policy witnessClass calls = .ok () ↔
      ∀ c ∈ calls, (CheatcodePolicy.mk (.obj (dictOf catalog)) root).check c.name
        witnessClass.text c.phase.text = .ok () := by
  have hMake : CheatcodePolicy.make (.obj [("categories", .obj (dictOf catalog))])
      (.obj [("rules", root)]) = .ok ⟨.obj (dictOf catalog), root⟩ := rfl
  rw [← forM_eq_ok, coreChecks]
  constructor
  · intro h
    obtain ⟨_, hSame, h⟩ := bind_eq_ok.mp h
    rw [hRoot, Except.ok.injEq] at hSame
    subst hSame
    obtain ⟨_, hEngine, h⟩ := bind_eq_ok.mp h
    rw [hMake, Except.ok.injEq] at hEngine
    exact hEngine ▸ h
  · intro h
    exact bind_eq_ok.mpr ⟨_, hRoot, bind_eq_ok.mpr ⟨_, hMake, h⟩⟩

/-- The core engine accepts every call of an accepted trace exactly when every record is
spelled as the catalog spells it. -/
theorem engines_agree_iff (hParse : parseTrace host payload (traceCatalog catalog) = .ok t)
    (hEnforced : enforceCheatcodePolicy t witnessClass policy forkBlock = .ok ()) :
    coreChecks catalog policy witnessClass t.cheatcodes = .ok () ↔
      SpelledAsClassified host catalog policy witnessClass payload := by
  obtain ⟨byPhase, hPolicy, hCalls⟩ := calls_of_enforced hEnforced
  obtain ⟨root, hRoot, _⟩ := bind_eq_ok.mp hPolicy
  rw [coreChecks_eq_ok_iff hRoot]
  rw [(callsOf_parseTrace hParse).cheatcodes, List.forall_mem_map] at hCalls ⊢
  apply forall₂_congr
  intro r hr
  exact core_accepts_iff hRoot hPolicy (hCalls r hr)

/-- A catalog and rules that let a witness move the time. -/
def warpCatalog : List (String × Json) := [("warp", .str "time_advance")]

def warpPolicy : Json :=
  .obj [("rules", .obj [("local_deployment", .obj [("witness", .obj [("allow_categories",
    .arr [.str "time_advance"])])])])]

/-- A trace whose record spells the name of the cheatcode in capitals. -/
def capitalWarp : TracePayload := .parsed (.obj [("initial_timestamp", .int 1), ("trace",
  .arr [.obj [("to", .str cheatcodeAddress), ("cheatcode", .str "WARP"),
    ("args", .arr [.int 2])]])])

theorem capitalWarp_accepted : ∃ t,
    parseTrace (.digesting hexOfBytes) capitalWarp (traceCatalog warpCatalog) = .ok t ∧
      t.cheatcodes = [⟨"WARP", "time_advance", 0, .witness, [.int 2], none⟩] ∧
      enforceCheatcodePolicy t .localDeployment warpPolicy none = .ok () := by
  have hParse : (match parseTrace (.digesting hexOfBytes) capitalWarp
        (traceCatalog warpCatalog) with
      | .ok t => decide (t.cheatcodes =
            [⟨"WARP", "time_advance", 0, .witness, [.int 2], none⟩] ∧
          enforceCheatcodePolicy t .localDeployment warpPolicy none = .ok ())
      | .error _ => false) = true := by decide
  cases h : parseTrace (.digesting hexOfBytes) capitalWarp (traceCatalog warpCatalog) with
  | error e => simp [h] at hParse
  | ok t => exact ⟨t, rfl, by simpa [h] using hParse⟩

/-- The trace engine finds the category of the name in capitals, and the core engine says
that the cheatcode is unclassified. -/
theorem capital_warp_unclassified : ∃ t,
    parseTrace (.digesting hexOfBytes) capitalWarp (traceCatalog warpCatalog) = .ok t ∧
      enforceCheatcodePolicy t .localDeployment warpPolicy none = .ok () ∧
      coreChecks warpCatalog warpPolicy .localDeployment t.cheatcodes =
        raise .policyViolation "unclassified cheatcode is forbidden: WARP" := by
  obtain ⟨t, hParse, hCalls, hEnforced⟩ := capitalWarp_accepted
  refine ⟨t, hParse, hEnforced, ?_⟩
  rw [hCalls]
  decide

/-- The agreement of the two policies, at the record in capitals. -/
theorem capitalWarp_agree_iff : ∃ t,
    parseTrace (.digesting hexOfBytes) capitalWarp (traceCatalog warpCatalog) = .ok t ∧
      (coreChecks warpCatalog warpPolicy .localDeployment t.cheatcodes = .ok () ↔
        SpelledAsClassified (.digesting hexOfBytes) warpCatalog warpPolicy .localDeployment
          capitalWarp) := by
  obtain ⟨t, hParse, _, hEnforced⟩ := capitalWarp_accepted
  exact ⟨t, hParse, engines_agree_iff hParse hEnforced⟩

end Agreement
end L0vi0x.Chain
