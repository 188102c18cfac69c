import L0vi0x.Python.Json

/-! The policy engine of the core: a cheatcode is looked up by its name as it is spelled, and
its category must be among those that the rules allow in the phase. -/
namespace L0vi0x.Core

open L0vi0x.Python

structure CheatcodePolicy where
  categories : Json
  rules : Json

/-- `CheatcodePolicy(categories_file, policy_file)`, on the documents that the files hold. -/
def CheatcodePolicy.make (categoriesDocument policyDocument : Json) : Py CheatcodePolicy := do
  let categories := if categoriesDocument.truthy then categoriesDocument else .obj []
  let policy := if policyDocument.truthy then policyDocument else .obj []
  let classified ← categories.attrGet "categories" (.obj [])
  let rules ← policy.attrGet "rules" (.obj [])
  pure ⟨classified, rules⟩

section Engine

variable (p : CheatcodePolicy)

def CheatcodePolicy.category (cheatcode : String) : Py String := do
  let category ← p.categories.attrGet cheatcode .null
  raiseIf (category = .null) .policyViolation ("unclassified cheatcode is forbidden: " ++ cheatcode)
  pure category.text

def CheatcodePolicy.allowed (cheatcode witnessClass phase : String) : Py Bool := do
  let category ← p.category cheatcode
  let witnessRules ← p.rules.attrGet witnessClass (.obj [])
  let fallback ← witnessRules.attrGet "default" (.obj [])
  let phaseRules ← witnessRules.attrGet phase fallback
  let allowCategories ← phaseRules.attrGet "allow_categories" (.arr [])
  let allowedCategories ← allowCategories.toSet
  pure (decide (.str category ∈ allowedCategories))

def CheatcodePolicy.check (cheatcode witnessClass phase : String) : Py Unit := do
  let granted ← p.allowed cheatcode witnessClass phase
  raiseIf (granted = false) .policyViolation
    ("cheatcode denied: " ++ cheatcode ++ " (" ++ witnessClass ++ "/" ++ phase ++ ")")

end Engine

variable {p : CheatcodePolicy} {cheatcode category witnessClass phase : String}

theorem category_eq_ok_iff {fields : Fields} (h : p.categories = .obj fields) :
    p.category cheatcode = .ok category ↔
      ∃ value, getField? cheatcode fields = some value ∧ value ≠ .null ∧ value.text = category := by
  simp only [CheatcodePolicy.category, h, Json.attrGet, bind_eq_ok, pure_eq_ok, raiseIf_eq_ok,
    decide_eq_false_iff_not]
  cases getField? cheatcode fields with
  | none => simp
  | some value => simp

/-- The rules allow these categories in the phase. -/
def CheatcodePolicy.Allows (p : CheatcodePolicy) (witnessClass phase : String)
    (allowedCategories : List Json) : Prop :=
  ∃ witnessRules fallback phaseRules allowCategories,
    p.rules.attrGet witnessClass (.obj []) = .ok witnessRules ∧
      witnessRules.attrGet "default" (.obj []) = .ok fallback ∧
      witnessRules.attrGet phase fallback = .ok phaseRules ∧
      phaseRules.attrGet "allow_categories" (.arr []) = .ok allowCategories ∧
      allowCategories.toSet = .ok allowedCategories

/-- A cheatcode is accepted when its category is among those that the rules allow. -/
theorem check_eq_ok_iff {allowedCategories : List Json}
    (h : p.Allows witnessClass phase allowedCategories) :
    p.check cheatcode witnessClass phase = .ok () ↔
      ∃ category, p.category cheatcode = .ok category ∧ .str category ∈ allowedCategories := by
  obtain ⟨witnessRules, fallback, phaseRules, allowCategories, hWitness, hFallback, hPhase, hList,
    hSet⟩ := h
  simp only [CheatcodePolicy.check, CheatcodePolicy.allowed]
  cases hCategory : p.category cheatcode with
  | error e =>
      constructor
      · intro hCheck
        cases hCheck
      · rintro ⟨category, hOk, _⟩
        cases hOk
  | ok category =>
      simp [hWitness, hFallback, hPhase, hList, hSet, bind_eq_ok]

end L0vi0x.Core
