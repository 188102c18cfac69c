import Mathlib.Data.List.Dedup
import Mathlib.Data.List.Sort
import L0vi0x.Python.Mapping
import L0vi0x.Models.Router

/-! The lock of the probed models, and the drift of later profiles from it. Both sides name a
model by one text that joins its provider and its id. -/
namespace L0vi0x.Models

open L0vi0x.Python

def PricingTier.text : PricingTier → String
  | .free => "free"
  | .shadow => "shadow"
  | .paid => "paid"

/-- `_DRIFT_FIELDS`, with what each reads of a profile. -/
def driftFields : List (String × (ModelProfile → Json)) :=
  [("family", fun p => .str p.family),
    ("roles", fun p => .arr (p.roles.map .str)),
    ("context_window", fun p => .int p.contextWindow),
    ("capabilities", fun p => .obj (dictOf (p.capabilities.map fun c => (c.1, .bool c.2)))),
    ("pricing_tier", fun p => .str p.pricingTier.text),
    ("terms_version", fun p => .str p.termsVersion),
    ("pricing_version", fun p => .str p.pricingVersion),
    ("deprecated", fun p => .bool p.deprecated)]

def modelKey (p : ModelProfile) : String := p.provider ++ "/" ++ p.modelId

structure Lock where
  version : Int
  status : String
  generatedAt : String
  models : List (String × ModelProfile)

def sortedTexts (texts : List String) : List String := texts.dedup.insertionSort (· ≤ ·)

def buildLock (profiles : List ModelProfile) (generatedAt : String) : Py Lock := do
  let ordered := profiles.insertionSort fun p q => modelKey p ≤ modelKey q
  let keys := ordered.map modelKey
  let duplicates := sortedTexts (keys.filter fun k => 1 < keys.count k)
  raiseIf (duplicates ≠ []) .valueError
    ("duplicate provider/model_id in profiles: " ++ ", ".intercalate duplicates)
  pure ⟨1, "verified", generatedAt, Mapping.collect (fun p => (modelKey p, p)) ordered⟩

/-- The dump of a lock, and the lock that its text is loaded and validated as. -/
structure Yaml where
  dump : Lock → String
  load : String → Py Lock

/-- `write_lockfile(path, profiles, generated_at=…)`: the lock and the text of the file. -/
def writeLockfile (yaml : Yaml) (profiles : List ModelProfile) (generatedAt : String) :
    Py (Lock × String) := do
  let lock ← buildLock profiles generatedAt
  pure (lock, yaml.dump lock)

/-- `load_profiles(path)`, on the text of the file if there is one. -/
def loadProfiles (yaml : Yaml) : Option String → Py (List (String × ModelProfile))
  | none => pure []
  | some text => Lock.models <$> yaml.load text

/-- The keys of one mapping that another lacks. -/
def keysWithout (these those : List (String × ModelProfile)) : List String :=
  sortedTexts ((these.map (·.1)).filter fun k => k ∉ those.map (·.1))

def sharedKeys (these those : List (String × ModelProfile)) : List String :=
  sortedTexts ((these.map (·.1)).filter fun k => k ∈ those.map (·.1))

/-- The problem of one field of a model that is in the lock and was probed again. -/
def fieldProblem? (key : String) (old new : ModelProfile)
    (field : String × (ModelProfile → Json)) : Option String :=
  if field.2 old ≠ field.2 new then
    some (key ++ ": " ++ field.1 ++ " changed (" ++ String.ofList (Json.repr (field.2 old)) ++
      " -> " ++ String.ofList (Json.repr (field.2 new)) ++ ")")
  else none

/-- The problems of one key; both mappings have it. -/
def keyProblems (locked current : List (String × ModelProfile)) (key : String) : List String :=
  match Mapping.get? key locked, Mapping.get? key current with
  | some old, some new => driftFields.filterMap (fieldProblem? key old new)
  | _, _ => []

def checkLockfileDrift (yaml : Yaml) (file : Option String) (profiles : List ModelProfile) :
    Py (List String) := do
  let locked ← loadProfiles yaml file
  let current := Mapping.collect (fun p => (modelKey p, p)) profiles
  pure ((keysWithout locked current).map (· ++ ": present in lock but not in current probe results") ++
    (keysWithout current locked).map (· ++ ": present in current probe results but not locked") ++
    (sharedKeys locked current).flatMap (keyProblems locked current))

section Drift

def ModelProfile.named (p : ModelProfile) : String × String := (p.provider, p.modelId)

/-- Two profiles with the same drift fields. -/
def Agree (p q : ModelProfile) : Prop := ∀ field ∈ driftFields, field.2 p = field.2 q

/-- The lists name the same models, and profiles of one model agree. -/
structure Clean (ps qs : List ModelProfile) : Prop where
  names : ∀ name, name ∈ ps.map (·.named) ↔ name ∈ qs.map (·.named)
  agree : ∀ p ∈ ps ++ qs, ∀ q ∈ ps ++ qs, p.named = q.named → Agree p q

/-- A profile that no later one of its list shares its key with. -/
def LastOfKey (qs : List ModelProfile) (q : ModelProfile) : Prop :=
  ∃ before after, qs = before ++ q :: after ∧ ∀ r ∈ after, modelKey r ≠ modelKey q

/-- The lists have the same keys, and the last profile of each key is the locked one. -/
structure SameKeys (ps qs : List ModelProfile) : Prop where
  keys : ∀ key, key ∈ ps.map modelKey ↔ key ∈ qs.map modelKey
  last : ∀ p ∈ ps, ∀ q, LastOfKey qs q → modelKey p = modelKey q → Agree p q

/-- No key stands for two models. -/
def KeysTell (ps qs : List ModelProfile) : Prop :=
  ∀ p ∈ ps ++ qs, ∀ q ∈ ps ++ qs, modelKey p = modelKey q → p.named = q.named

def RepeatsAgree (qs : List ModelProfile) : Prop :=
  ∀ p ∈ qs, ∀ q ∈ qs, p.named = q.named → Agree p q

variable {ps qs : List ModelProfile}

theorem Agree.refl (p : ModelProfile) : Agree p p := fun _ _ => rfl

theorem Agree.symm {p q : ModelProfile} (h : Agree p q) : Agree q p :=
  fun field hField => (h field hField).symm

theorem Agree.trans {p q r : ModelProfile} (h : Agree p q) (h' : Agree q r) : Agree p r :=
  fun field hField => (h field hField).trans (h' field hField)

/-- Profiles of one name have one key. -/
theorem key_of_named {p q : ModelProfile} (h : p.named = q.named) : modelKey p = modelKey q := by
  obtain ⟨hProvider, hModel⟩ := Prod.mk.inj h
  rw [modelKey, hProvider, hModel, modelKey]

theorem mem_sortedTexts {texts : List String} {text : String} :
    text ∈ sortedTexts texts ↔ text ∈ texts := by
  rw [sortedTexts, List.mem_insertionSort, List.mem_dedup]

theorem sortedTexts_eq_nil {texts : List String} : sortedTexts texts = [] ↔ texts = [] := by
  rw [List.eq_nil_iff_forall_not_mem, List.eq_nil_iff_forall_not_mem]
  exact forall_congr' fun text => not_congr mem_sortedTexts

theorem mem_collect_profiles {key : String} {q : ModelProfile} :
    (key, q) ∈ Mapping.collect (fun p => (modelKey p, p)) qs ↔
      LastOfKey qs q ∧ modelKey q = key := by
  rw [Mapping.mem_collect_iff]
  constructor
  · rintro ⟨before, p, after, hEq, hItem, hAfter⟩
    obtain ⟨rfl, rfl⟩ := Prod.mk.inj hItem
    exact ⟨⟨before, after, hEq, hAfter⟩, rfl⟩
  · rintro ⟨⟨before, after, hEq, hAfter⟩, rfl⟩
    exact ⟨before, q, after, hEq, rfl, hAfter⟩

/-- The entries of a lock are its profiles, each under its key. -/
def LocksAll (ps : List ModelProfile) (models : List (String × ModelProfile)) : Prop :=
  ∀ key p, (key, p) ∈ models ↔ p ∈ ps ∧ modelKey p = key

/-- A lock is written exactly when no two profiles have one key; it holds them all. -/
theorem buildLock_eq_ok {time : String} {lock : Lock} (h : buildLock ps time = .ok lock) :
    (ps.map modelKey).Nodup ∧ (lock.models.map (·.1)).Nodup ∧ LocksAll ps lock.models := by
  rw [buildLock] at h
  obtain ⟨_, hDuplicates, h⟩ := bind_eq_ok.mp h
  obtain rfl := pure_eq_ok.mp h
  have hPerm : (ps.insertionSort fun p q => modelKey p ≤ modelKey q).Perm ps :=
    List.perm_insertionSort _ _
  rw [raiseIf_eq_ok, decide_eq_false_iff_not, not_not, sortedTexts_eq_nil,
    List.filter_eq_nil_iff] at hDuplicates
  have hSorted : ((ps.insertionSort fun p q => modelKey p ≤ modelKey q).map modelKey).Nodup :=
    List.nodup_iff_count_le_one.mpr fun key => by
      by_cases hMem : key ∈ (ps.insertionSort fun p q => modelKey p ≤ modelKey q).map modelKey
      · exact not_lt.mp fun hLt => hDuplicates key hMem (decide_eq_true hLt)
      · rw [List.count_eq_zero_of_not_mem hMem]
        exact Nat.zero_le 1
  refine ⟨(hPerm.map modelKey).nodup_iff.mp hSorted, Mapping.nodup_collect _ _, fun key p => ?_⟩
  rw [Mapping.mem_collect]
  · constructor
    · rintro ⟨q, hq, hItem⟩
      obtain ⟨rfl, rfl⟩ := Prod.mk.inj hItem
      exact ⟨hPerm.mem_iff.mp hq, rfl⟩
    · rintro ⟨hp, rfl⟩
      exact ⟨p, hPerm.mem_iff.mpr hp, rfl⟩
  · intro p hp q hq hKey
    have hEq : p = q := List.inj_on_of_nodup_map hSorted hp hq hKey
    rw [hEq]

/-- Nothing is missing when every key is in the other mapping. -/
theorem keysWithout_eq_nil {these those : List (String × ModelProfile)} :
    keysWithout these those = [] ↔ ∀ key ∈ these.map (·.1), key ∈ those.map (·.1) := by
  rw [keysWithout, sortedTexts_eq_nil, List.filter_eq_nil_iff]
  simp

/-- A model has no problem when its two profiles agree. -/
theorem fieldProblems_eq_nil {key : String} {old new : ModelProfile} :
    driftFields.filterMap (fieldProblem? key old new) = [] ↔ Agree old new := by
  rw [List.filterMap_eq_nil_iff]
  refine forall_congr' fun field => imp_congr_right fun _ => ?_
  rw [fieldProblem?]
  by_cases hSame : field.2 old = field.2 new
  · simp [hSame]
  · simp [hSame]

theorem mem_lockedKeys {models : List (String × ModelProfile)} (hModels : LocksAll ps models)
    (key : String) : key ∈ models.map (·.1) ↔ key ∈ ps.map modelKey := by
  constructor
  · intro hMem
    obtain ⟨⟨k, p⟩, hp, rfl⟩ := List.mem_map.mp hMem
    obtain ⟨hp, hKey⟩ := (hModels k p).mp hp
    exact List.mem_map.mpr ⟨p, hp, hKey⟩
  · intro hMem
    obtain ⟨p, hp, rfl⟩ := List.mem_map.mp hMem
    exact List.mem_map.mpr ⟨(modelKey p, p), (hModels _ p).mpr ⟨hp, rfl⟩, rfl⟩

/-- The shared keys have no problem when each locked profile agrees with the last of its key. -/
theorem sharedProblems_eq_nil {models : List (String × ModelProfile)}
    (hModels : LocksAll ps models) (hNodup : (models.map (·.1)).Nodup) :
    (sharedKeys models (Mapping.collect (fun p => (modelKey p, p)) qs)).flatMap
        (keyProblems models (Mapping.collect (fun p => (modelKey p, p)) qs)) = [] ↔
      ∀ p ∈ ps, ∀ q, LastOfKey qs q → modelKey p = modelKey q → Agree p q := by
  rw [List.flatMap_eq_nil_iff]
  constructor
  · intro hNone p hp q hq hKey
    have hOld := Mapping.get?_of_mem hNodup ((hModels _ p).mpr ⟨hp, rfl⟩)
    have hNew := Mapping.get?_of_mem (Mapping.nodup_collect _ _)
      (mem_collect_profiles.mpr ⟨hq, hKey.symm⟩)
    have hMem : modelKey p ∈ sharedKeys models
        (Mapping.collect (fun p => (modelKey p, p)) qs) := by
      rw [sharedKeys, mem_sortedTexts, List.mem_filter, decide_eq_true_iff]
      exact ⟨(mem_lockedKeys hModels _).mpr (List.mem_map.mpr ⟨p, hp, rfl⟩),
        List.mem_map.mpr ⟨_, mem_collect_profiles.mpr ⟨hq, hKey.symm⟩, rfl⟩⟩
    have hProblems := hNone _ hMem
    rw [keyProblems, hOld, hNew] at hProblems
    exact fieldProblems_eq_nil.mp hProblems
  · intro hAgree key _
    rw [keyProblems]
    split
    · next old new hOld hNew =>
        obtain ⟨hp, rfl⟩ := (hModels key old).mp (Mapping.mem_of_get? hOld)
        obtain ⟨hq, hKey⟩ := mem_collect_profiles.mp (Mapping.mem_of_get? hNew)
        exact fieldProblems_eq_nil.mpr (hAgree old hp new hq hKey.symm)
    · rfl

/-- The check finds no problem exactly when the keys are the same and, of each key, the profile
that is listed last agrees with the locked one. -/
theorem drift_eq_nil_iff {yaml : Yaml} {time text : String} {lock : Lock}
    (hRound : yaml.load (yaml.dump lock) = .ok lock)
    (hWrite : writeLockfile yaml ps time = .ok (lock, text)) :
    checkLockfileDrift yaml (some text) qs = .ok [] ↔ SameKeys ps qs := by
  rw [writeLockfile] at hWrite
  obtain ⟨built, hBuilt, hWrite⟩ := bind_eq_ok.mp hWrite
  obtain ⟨rfl, rfl⟩ := Prod.mk.inj (pure_eq_ok.mp hWrite)
  obtain ⟨-, hNodup, hModels⟩ := buildLock_eq_ok hBuilt
  have hCurrent : ∀ key, key ∈ (Mapping.collect (fun p => (modelKey p, p)) qs).map (·.1) ↔
      key ∈ qs.map modelKey := by
    intro key
    rw [Mapping.mem_keys_collect, List.mem_map]
  have hLoad : loadProfiles yaml (some (yaml.dump built)) = .ok built.models := by
    rw [loadProfiles, hRound]
    rfl
  rw [checkLockfileDrift, hLoad]
  show Except.ok _ = Except.ok [] ↔ _
  rw [Except.ok.injEq, List.append_eq_nil_iff, List.append_eq_nil_iff, List.map_eq_nil_iff,
    List.map_eq_nil_iff, keysWithout_eq_nil, keysWithout_eq_nil,
    sharedProblems_eq_nil hModels hNodup]
  simp only [mem_lockedKeys hModels, hCurrent]
  constructor
  · rintro ⟨⟨hFirst, hSecond⟩, hAgree⟩
    exact ⟨fun key => ⟨hFirst key, hSecond key⟩, hAgree⟩
  · rintro ⟨hKeys, hAgree⟩
    exact ⟨⟨fun key => (hKeys key).mp, fun key => (hKeys key).mpr⟩, hAgree⟩

/-- Lists that are clean have the same keys, each with profiles that agree. -/
theorem sameKeys_of_clean (hNodup : (ps.map modelKey).Nodup) (h : Clean ps qs) :
    SameKeys ps qs := by
  have hNamed : ∀ q ∈ qs, ∃ p ∈ ps, p.named = q.named := fun q hq =>
    List.mem_map.mp ((h.names q.named).mpr (List.mem_map.mpr ⟨q, hq, rfl⟩))
  refine ⟨fun key => ⟨fun hMem => ?_, fun hMem => ?_⟩, fun p hp q hq hKey => ?_⟩
  · obtain ⟨p, hp, rfl⟩ := List.mem_map.mp hMem
    obtain ⟨q, hq, hName⟩ := List.mem_map.mp ((h.names _).mp (List.mem_map.mpr ⟨p, hp, rfl⟩))
    exact List.mem_map.mpr ⟨q, hq, key_of_named hName⟩
  · obtain ⟨q, hq, rfl⟩ := List.mem_map.mp hMem
    obtain ⟨p, hp, hName⟩ := hNamed q hq
    exact List.mem_map.mpr ⟨p, hp, key_of_named hName⟩
  · obtain ⟨before, after, rfl, -⟩ := hq
    have hMem : q ∈ before ++ q :: after := by simp
    obtain ⟨p', hp', hName⟩ := hNamed q hMem
    obtain rfl : p' = p := List.inj_on_of_nodup_map hNodup hp' hp
      ((key_of_named hName).trans hKey.symm)
    exact h.agree p' (List.mem_append_left _ hp) q (List.mem_append_right _ hMem) hName

/-- Every key of a list has a profile that is listed last. -/
theorem exists_lastOfKey {q : ModelProfile} (hq : q ∈ qs) :
    ∃ last ∈ qs, LastOfKey qs last ∧ modelKey last = modelKey q := by
  have hKey : modelKey q ∈ (Mapping.collect (fun p => (modelKey p, p)) qs).map (·.1) :=
    Mapping.mem_keys_collect.mpr ⟨q, hq, rfl⟩
  obtain ⟨⟨key, last⟩, hMem, hEq⟩ := List.mem_map.mp hKey
  obtain ⟨hLast, hSame⟩ := mem_collect_profiles.mp hMem
  have hIn := hLast
  obtain ⟨before, after, hSplit, -⟩ := hIn
  exact ⟨last, hSplit ▸ by simp, hLast, hSame.trans hEq⟩

/-- Where keys tell models apart, lists with the same keys and last profiles name the same models.
-/
theorem clean_of_sameKeys (hNodup : (ps.map modelKey).Nodup) (h : SameKeys ps qs)
    (hTell : KeysTell ps qs) (hRepeats : RepeatsAgree qs) : Clean ps qs := by
  have hLocked : ∀ p ∈ ps, ∀ q ∈ qs, p.named = q.named → Agree p q := by
    intro p hp q hq hName
    obtain ⟨last, hIn, hLast, hKey⟩ := exists_lastOfKey hq
    have hFirst := h.last p hp last hLast ((key_of_named hName).trans hKey.symm)
    exact hFirst.trans (hRepeats last hIn q hq (hTell last (List.mem_append_right _ hIn) q
      (List.mem_append_right _ hq) hKey))
  refine ⟨fun name => ⟨fun hMem => ?_, fun hMem => ?_⟩, fun p hp q hq hName => ?_⟩
  · obtain ⟨p, hp, rfl⟩ := List.mem_map.mp hMem
    obtain ⟨q, hq, hKey⟩ := List.mem_map.mp ((h.keys _).mp (List.mem_map.mpr ⟨p, hp, rfl⟩))
    exact List.mem_map.mpr ⟨q, hq, hTell q (List.mem_append_right _ hq) p
      (List.mem_append_left _ hp) hKey⟩
  · obtain ⟨q, hq, rfl⟩ := List.mem_map.mp hMem
    obtain ⟨p, hp, hKey⟩ := List.mem_map.mp ((h.keys _).mpr (List.mem_map.mpr ⟨q, hq, rfl⟩))
    exact List.mem_map.mpr ⟨p, hp, hTell p (List.mem_append_left _ hp) q
      (List.mem_append_right _ hq) hKey⟩
  · rcases List.mem_append.mp hp with hp | hp
    · rcases List.mem_append.mp hq with hq | hq
      · rw [List.inj_on_of_nodup_map hNodup hp hq (key_of_named hName)]
        exact Agree.refl q
      · exact hLocked p hp q hq hName
    · rcases List.mem_append.mp hq with hq | hq
      · exact (hLocked q hq p hp hName.symm).symm
      · exact hRepeats p hp q hq hName

/-- Where the lists are clean, a key stands for one model, and repeated profiles agree. -/
theorem tell_of_clean (hNodup : (ps.map modelKey).Nodup) (h : Clean ps qs) :
    KeysTell ps qs ∧ RepeatsAgree qs := by
  have hNamed : ∀ q ∈ ps ++ qs, ∃ p ∈ ps, p.named = q.named := by
    intro q hq
    rcases List.mem_append.mp hq with hq | hq
    · exact ⟨q, hq, rfl⟩
    · exact List.mem_map.mp ((h.names q.named).mpr (List.mem_map.mpr ⟨q, hq, rfl⟩))
  refine ⟨fun p hp q hq hKey => ?_, fun p hp q hq => h.agree p (List.mem_append_right _ hp) q
    (List.mem_append_right _ hq)⟩
  obtain ⟨p', hp', hpName⟩ := hNamed p hp
  obtain ⟨q', hq', hqName⟩ := hNamed q hq
  have hSame : p' = q' := List.inj_on_of_nodup_map hNodup hp' hq'
    ((key_of_named hpName).trans (hKey.trans (key_of_named hqName).symm))
  rw [← hpName, hSame, hqName]

/-- Drift is reported exactly where it should be if the check has other problems to report, or
no key stands for two models and the profiles that are listed twice agree. -/
theorem drift_exact_iff {yaml : Yaml} {time text : String} {lock : Lock}
    (hRound : yaml.load (yaml.dump lock) = .ok lock)
    (hWrite : writeLockfile yaml ps time = .ok (lock, text)) :
    (checkLockfileDrift yaml (some text) qs = .ok [] ↔ Clean ps qs) ↔
      ¬ SameKeys ps qs ∨ KeysTell ps qs ∧ RepeatsAgree qs := by
  have hNodup : (ps.map modelKey).Nodup := by
    obtain ⟨built, hBuilt, -⟩ := bind_eq_ok.mp (writeLockfile.eq_1 yaml ps time ▸ hWrite)
    exact (buildLock_eq_ok hBuilt).1
  rw [drift_eq_nil_iff hRound hWrite]
  constructor
  · intro hExact
    by_cases hSame : SameKeys ps qs
    · exact .inr (tell_of_clean hNodup (hExact.mp hSame))
    · exact .inl hSame
  · rintro (hOther | ⟨hTell, hRepeats⟩)
    · exact ⟨fun hSame => absurd hSame hOther, fun hClean =>
        absurd (sameKeys_of_clean hNodup hClean) hOther⟩
    · exact ⟨fun hSame => clean_of_sameKeys hNodup hSame hTell hRepeats,
        sameKeys_of_clean hNodup⟩

/-- A profile with a name, the rest of it fixed. -/
def profileNamed (provider modelId : String) (h : strip provider ≠ "" ∧ strip modelId ≠ "") :
    ModelProfile :=
  ⟨provider, modelId, "fake", ["worker"], 128000, [], .free, "2026-01-01", "2026-01-01T00:00:00Z",
    "2026-01-01", "2026-01-01T00:00:00Z", false, by decide, h⟩

def slashProvider : ModelProfile := profileNamed "a/b" "c" (by decide)

def slashModel : ModelProfile := profileNamed "a" "b/c" (by decide)

def otherModel : ModelProfile := profileNamed "d" "e" (by decide)

/-- The lines of such a profile in the dump of a lock. -/
def profileText (p : ModelProfile) : String :=
  "  " ++ modelKey p ++ ":\n    provider: " ++ p.provider ++ "\n    model_id: " ++ p.modelId ++
    "\n    family: fake\n    roles:\n    - worker\n    context_window: 128000\n" ++
    "    capabilities: \x7b\x7d\n    pricing_tier: free\n    terms_version: '2026-01-01'\n" ++
    "    terms_observed_at: '2026-01-01T00:00:00Z'\n    pricing_version: '2026-01-01'\n" ++
    "    pricing_observed_at: '2026-01-01T00:00:00Z'\n    deprecated: false\n"

/-- The dump of a lock of such profiles. -/
def lockText (lock : Lock) : String :=
  "version: 1\nstatus: verified\ngenerated_at: '" ++ lock.generatedAt ++ "'\nmodels:\n" ++
    String.join (lock.models.map fun entry => profileText entry.2)

def lockTime : String := "2026-01-01T00:00:00Z"

def pairLock : Lock :=
  ⟨1, "verified", lockTime, [("a/b/c", slashProvider), ("d/e", otherModel)]⟩

/-- The dumps of locks, and the reading of the one that is written here. -/
def pairYaml : Yaml where
  dump := lockText
  load text := if text = lockText pairLock then .ok pairLock
    else raise .yamlError "could not determine a constructor"

/-- The dump of the lock of the two profiles is read back. -/
theorem pair_read : pairYaml.load (pairYaml.dump pairLock) = .ok pairLock := by
  simp only [pairYaml, if_true]

/-- The lock is the same in whatever order the profiles are given. -/
theorem pair_written : ∀ ps ∈ [[slashProvider, otherModel], [otherModel, slashProvider]],
    writeLockfile pairYaml ps lockTime = .ok (pairLock, lockText pairLock) := by
  intro ps hps
  simp only [List.mem_cons, List.not_mem_nil, or_false] at hps
  rcases hps with rfl | rfl <;> rfl

/-- The key of one model is that of another. -/
theorem drift_overlooked :
    ¬ ∀ (yaml : Yaml) (ps qs : List ModelProfile) (time text : String) (lock : Lock),
      yaml.load (yaml.dump lock) = .ok lock → writeLockfile yaml ps time = .ok (lock, text) →
        (checkLockfileDrift yaml (some text) qs = .ok [] ↔ Clean ps qs) := by
  intro h
  have hIff := h pairYaml [slashProvider, otherModel] [otherModel, slashModel] _ _ pairLock pair_read
    (pair_written _ (List.mem_cons_self ..))
  have hLoad : loadProfiles pairYaml (some (lockText pairLock)) = .ok pairLock.models := by
    rw [loadProfiles]
    exact congrArg (Functor.map Lock.models) pair_read
  have hClean := hIff.mp (by rw [checkLockfileDrift, hLoad]; rfl)
  have hName := (hClean.names ("a/b", "c")).mp (List.mem_cons_self ..)
  exact absurd hName (by decide)

/-- The profiles that were locked have not drifted. -/
theorem locked_profiles_clean :
    checkLockfileDrift pairYaml (some (lockText pairLock)) [slashProvider, otherModel] = .ok [] ↔
      Clean [otherModel, slashProvider] [slashProvider, otherModel] := by
  have hMember : ∀ p ∈ [otherModel, slashProvider] ++ [slashProvider, otherModel],
      p = slashProvider ∨ p = otherModel := by
    intro p hp
    simp only [List.cons_append, List.nil_append, List.mem_cons, List.not_mem_nil, or_false] at hp
    tauto
  have hKeys : modelKey slashProvider ≠ modelKey otherModel := by decide
  refine (drift_exact_iff pair_read (pair_written _ (List.mem_cons_of_mem _
    (List.mem_singleton.mpr rfl)))).mpr (.inr ⟨?_, ?_⟩)
  · intro p hp q hq hKey
    rcases hMember p hp with rfl | rfl <;> rcases hMember q hq with rfl | rfl
    · rfl
    · exact absurd hKey hKeys
    · exact absurd hKey.symm hKeys
    · rfl
  · intro p hp q hq hName
    rcases hMember p (List.mem_append_right _ hp) with rfl | rfl <;>
      rcases hMember q (List.mem_append_right _ hq) with rfl | rfl
    · exact Agree.refl _
    · exact absurd (key_of_named hName) hKeys
    · exact absurd (key_of_named hName).symm hKeys
    · exact Agree.refl _

end Drift
end L0vi0x.Models
