import L0vi0x.Chain.SanitizedConfig
import Mathlib.Tactic.NormNum
import Mathlib.Tactic.Ring

/-! The written configuration against the mapping that is returned beside it: what a reader of
the text finds under each key is what the mapping holds there. -/
namespace L0vi0x.Python.Toml

/-- The keys that are set, each with the table that is open where it stands. -/
def keysOf : String → List Line → List (String × String)
  | _, [] => []
  | current, .blank :: rest => keysOf current rest
  | _, .table name :: rest => keysOf name rest
  | current, .entry key _ :: rest => (current, key) :: keysOf current rest

/-- A document in which no table is opened twice, no key is set twice and no key is a table as
well. -/
structure Valid (lines : List Line) : Prop where
  tables : (tablesOf lines).Nodup
  keys : (keysOf "" lines).Nodup
  apart : ∀ p ∈ keysOf "" lines, ∀ name ∈ tablesOf lines,
    ¬ (p.1.toList ++ '.' :: p.2.toList) <+: name.toList

end L0vi0x.Python.Toml

namespace L0vi0x.Chain.FoundryConfig

open L0vi0x.Python

section Seed

/-- The integer that `0x` and digits to the base 16 stand for. -/
def seedNumber (s : String) : Option Int :=
  if startsWith s "0x" then
    ((dropText s 2).toList.mapM hexValue?).map fun digits =>
      ((digits.foldl (fun n d => 16 * n + d) 0 : Nat) : Int)
  else none

/-- Digits to the base 16 are read back as the number that they were taken from. -/
theorem foldl_digits (n width acc : Nat) :
    ((List.range width).reverse.map fun i => n / 16 ^ i % 16).foldl (fun m d => 16 * m + d) acc =
      acc * 16 ^ width + n % 16 ^ width := by
  induction width generalizing acc with
  | zero => simp [Nat.mod_one]
  | succ width ih =>
      rw [List.range_succ, List.reverse_append, List.reverse_singleton, List.singleton_append,
        List.map_cons, List.foldl_cons, ih, Nat.mod_pow_succ, Nat.pow_succ]
      ring

theorem mapM_hexDigit {digits : List Nat} (h : ∀ d ∈ digits, d < 16) :
    (digits.map hexDigit).mapM hexValue? = some digits := by
  induction digits with
  | nil => rfl
  | cons d ds ih =>
      rw [List.forall_mem_cons] at h
      simp only [List.map_cons, List.mapM_cons, hexValue?_hexDigit d h.1, ih h.2]
      rfl

/-- The text of a seed stands for the seed. -/
theorem seedNumber_seedHex {n : Int} {seed : String} (h : seedHex n = .ok seed) :
    seedNumber seed = some n := by
  rw [seedHex] at h
  split at h
  · cases h
  · rename_i hRange
    obtain rfl := pure_eq_ok.mp h
    have hBound : n.toNat < 16 ^ 64 := by
      have hPow : (16 : Nat) ^ 64 = 2 ^ 256 := by norm_num
      rw [hPow]
      omega
    have hDigits : ∀ d ∈ (List.range 64).reverse.map (fun i => n.toNat / 16 ^ i % 16), d < 16 := by
      intro d hd
      obtain ⟨i, -, rfl⟩ := List.mem_map.mp hd
      exact Nat.mod_lt _ (by decide)
    have hMap : ((List.range 64).reverse.map fun i => hexDigit (n.toNat / 16 ^ i % 16)) =
        ((List.range 64).reverse.map fun i => n.toNat / 16 ^ i % 16).map hexDigit := by
      rw [List.map_map]
      rfl
    have hDrop : ∀ t : String, dropText ("0x" ++ t) 2 = t := fun t => dropText_append "0x" t
    have hNumber := foldl_digits n.toNat 64 0
    rw [seedNumber, if_pos (startsWith_append _ _), hDrop, String.toList_ofList, hMap,
      mapM_hexDigit hDigits, Option.map_some, hNumber, Nat.zero_mul, Nat.zero_add,
      Nat.mod_eq_of_lt hBound, Int.toNat_of_nonneg (by omega)]

end Seed

section ReadBack

variable {host : Host} {source : Option (Py String)} {compiler : Fields} {gateUrl : String}
  {policy : Option ConfigFile} {fuzzRuns fuzzSeed : Int} {r : Fields × String}

/-- What stands in nested mappings under a list of keys. -/
def follow : List String → Json → Option Json
  | [], j => some j
  | key :: rest, .obj fields => (getField? key fields).bind (follow rest)
  | _, _ => none

/-- Where the mapping holds what `_render_toml` writes under a key of a table. -/
def heldAt (table key : String) : List String :=
  if table = "rpc_endpoints" then ["gate_url"]
  else if table = "profile.default.fuzz" then ["profile", "default", "fuzz", key]
  else ["profile", "default", key]

/-- `key in p and p[key] not in (None, "")`. -/
def isGiven (p : Json) (key : String) : Bool :=
  match follow [key] p with
  | none | some .null | some (.str "") => false
  | some _ => true

/-- The keys that `_render_toml` writes, each with its table. -/
def writtenKeys (mapping : Fields) : List (String × String) :=
  let p := (follow ["profile", "default"] (.obj mapping)).getD .null
  (["src", "test", "out", "solc_version", "evm_version", "bytecode_hash"].filter (isGiven p) ++
    ["block_timestamp", "block_number", "chain_id", "libs", "ffi", "fs_permissions",
      "always_use_create_2_factory", "dynamic_test_linking", "optimizer", "optimizer_runs"]).map
      (Prod.mk "profile.default") ++
    [("profile.default.fuzz", "runs"), ("profile.default.fuzz", "seed"),
      ("rpc_endpoints", "l0vi0x_gate")]

/-- What is read under a key is the value that is held; of the seed the text is read. -/
def SameValue (table key : String) (read held : Json) : Prop :=
  if table = "profile.default.fuzz" ∧ key = "seed" then
    ∃ s i, read = .str s ∧ held = .int i ∧ seedNumber s = some i
  else read = held

/-- The text is a document in which every key that is written holds what the mapping holds. -/
def ReadsBack (mapping : Fields) (text : String) : Prop :=
  ∃ lines, Toml.read text = some lines ∧ Toml.Valid lines ∧
    ∀ p ∈ writtenKeys mapping, ∃ read held,
      getField? p.2 (Toml.entriesOf p.1 "" lines) = some read ∧
        follow (heldAt p.1 p.2) (.obj mapping) = some held ∧ SameValue p.1 p.2 read held

/-- A version that is written, if at all, as the text it is. -/
def PlainVersion (version : Json) : Prop :=
  version = .null ∨ ∃ s, version = .str s ∧ Toml.Plain s

/-- A version has its line exactly when it is neither null nor empty. -/
theorem versionLines_given (key : String) (version : Json) :
    ((version = .null ∨ version = .str "") ∧ versionLines key version = []) ∨
      (version ≠ .null ∧ version ≠ .str "" ∧
        versionLines key version = [.entry key (.str version.text)]) := by
  unfold versionLines
  split
  · exact .inl ⟨.inl rfl, rfl⟩
  · exact .inl ⟨.inr rfl, rfl⟩
  · rename_i hNull hEmpty
    exact .inr ⟨hNull, hEmpty, rfl⟩

theorem isGiven_eq {p : Fields} {key : String} {value : Json} (h : getField? key p = some value) :
    isGiven (.obj p) key = !(versionLines key value).isEmpty := by
  have hFollow : follow [key] (.obj p) = some value := by
    rw [follow, h]
    rfl
  rcases versionLines_given key value with ⟨rfl | rfl, hLines⟩ | ⟨hNull, hEmpty, hLines⟩
  · rw [isGiven, hFollow, hLines]
    rfl
  · rw [isGiven, hFollow, hLines]
    rfl
  · rw [isGiven, hFollow, hLines]
    simp

/-- The default profile holds the pairs of the choice. -/
theorem follow_default (c : Choice) (gateUrl : String) :
    follow ["profile", "default"] (.obj (c.sanitized gateUrl)) = some (.obj (dictOf c.pairs)) := by
  simp only [follow, Choice.sanitized, getField?_dictOf]
  rfl

theorem follow_append (first second : List String) (j : Json) :
    follow (first ++ second) j = (follow first j).bind (follow second) := by
  induction first generalizing j with
  | nil => rfl
  | cons key rest ih =>
      cases j with
      | obj fields =>
          rw [List.cons_append, follow, follow]
          cases getField? key fields with
          | none => rfl
          | some value => exact ih value
      | _ => rfl

/-- The default profile holds each pair under its key. -/
theorem follow_held (c : Choice) (gateUrl : String) {key : String} {value : Json}
    (h : lookupLast key c.pairs = some value) :
    follow ["profile", "default", key] (.obj (c.sanitized gateUrl)) = some value := by
  have hField : follow [key] (.obj (dictOf c.pairs)) = some value := by
    rw [follow, getField?_dictOf, h]
    rfl
  have hPath : ["profile", "default", key] = ["profile", "default"] ++ [key] := rfl
  rw [hPath, follow_append, follow_default, Option.bind_some, hField]

theorem follow_fuzz (c : Choice) (gateUrl : String) {key : String} {value : Json}
    (h : lookupLast key [("runs", Json.int c.runs), ("seed", .int c.seed)] = some value) :
    follow ["profile", "default", "fuzz", key] (.obj (c.sanitized gateUrl)) = some value := by
  have hField : follow [key] (.obj (dictOf [("runs", .int c.runs), ("seed", .int c.seed)])) =
      some value := by
    rw [follow, getField?_dictOf, h]
    rfl
  have hPath : ["profile", "default", "fuzz", key] = ["profile", "default", "fuzz"] ++ [key] := rfl
  have hFuzz := @follow_held c gateUrl "fuzz" _ rfl
  rw [hPath, follow_append, hFuzz, Option.bind_some, hField]

/-- The keys that are written for a choice. -/
theorem writtenKeys_choice (c : Choice) (gateUrl : String) :
    writtenKeys (c.sanitized gateUrl) =
      (["src", "test", "out"] ++
        (if (versionLines "solc_version" c.solc).isEmpty then [] else ["solc_version"]) ++
        (if (versionLines "evm_version" c.evm).isEmpty then [] else ["evm_version"]) ++
        ["bytecode_hash", "block_timestamp", "block_number", "chain_id", "libs", "ffi",
          "fs_permissions", "always_use_create_2_factory", "dynamic_test_linking", "optimizer",
          "optimizer_runs"]).map (Prod.mk "profile.default") ++
        [("profile.default.fuzz", "runs"), ("profile.default.fuzz", "seed"),
          ("rpc_endpoints", "l0vi0x_gate")] := by
  have hGiven : ∀ key value, lookupLast key c.pairs = some value →
      isGiven (.obj (dictOf c.pairs)) key = !(versionLines key value).isEmpty :=
    fun key value h => isGiven_eq ((getField?_dictOf key _).trans h)
  have hWords : (versionLines "src" (.str "src")).isEmpty = false ∧
      (versionLines "test" (.str "test")).isEmpty = false ∧
      (versionLines "out" (.str "out")).isEmpty = false ∧
      (versionLines "bytecode_hash" (.str "none")).isEmpty = false := ⟨rfl, rfl, rfl, rfl⟩
  rw [writtenKeys, follow_default]
  simp only [Option.getD_some, List.filter_cons, List.filter_nil, hGiven "src" (.str "src") rfl,
    hGiven "test" (.str "test") rfl, hGiven "out" (.str "out") rfl,
    hGiven "solc_version" c.solc rfl, hGiven "evm_version" c.evm rfl,
    hGiven "bytecode_hash" (.str "none") rfl]
  by_cases hSolc : (versionLines "solc_version" c.solc).isEmpty = true <;>
    by_cases hEvm : (versionLines "evm_version" c.evm).isEmpty = true <;>
    simp [hSolc, hEvm, hWords]

/-- Every key that a document of this kind may set. -/
def documentKeys : List (String × String) :=
  ["src", "test", "out", "solc_version", "evm_version", "bytecode_hash", "block_timestamp",
    "block_number", "chain_id", "libs", "ffi", "fs_permissions", "always_use_create_2_factory",
    "dynamic_test_linking", "optimizer", "optimizer_runs"].map (Prod.mk "profile.default") ++
    [("profile.default.fuzz", "runs"), ("profile.default.fuzz", "seed"),
      ("rpc_endpoints", "l0vi0x_gate")]

/-- No key with its table is a beginning of the name of a table. -/
theorem documentKeys_apart : ∀ p ∈ documentKeys,
    ∀ name ∈ ["profile.default", "profile.default.fuzz", "rpc_endpoints"],
      ¬ (p.1.toList ++ '.' :: p.2.toList) <+: name.toList := by decide

/-- The lines of a choice set no key twice. -/
theorem Choice.lines_valid (c : Choice) (seed gateUrl : String) {lines : List Toml.Line}
    (h : lines = (c.lines seed gateUrl).filter fun line => !line.isBlank) : Toml.Valid lines := by
  have hTables : Toml.tablesOf lines =
      ["profile.default", "profile.default.fuzz", "rpc_endpoints"] :=
    (c.lines_secure seed gateUrl h).1
  have hKeys : (Toml.keysOf "" lines).Sublist documentKeys := by
    subst h
    rcases versionLines_given "solc_version" c.solc with ⟨-, hSolc⟩ | ⟨-, -, hSolc⟩ <;>
      rcases versionLines_given "evm_version" c.evm with ⟨-, hEvm⟩ | ⟨-, -, hEvm⟩ <;>
      simp only [Choice.lines, hSolc, hEvm] <;> exact List.isSublist_iff_sublist.mp rfl
  refine ⟨?_, ?_, ?_⟩
  · rw [hTables]
    decide
  · exact hKeys.nodup (by decide)
  · intro p hp
    rw [hTables]
    exact documentKeys_apart p (hKeys.subset hp)

/-- The entry of a version, where one is given. -/
def versionEntries (key : String) (version : Json) : Fields :=
  if (versionLines key version).isEmpty then [] else [(key, version)]

/-- What the default profile of a document holds. -/
def Choice.entries (c : Choice) : Fields :=
  [("src", .str "src"), ("test", .str "test"), ("out", .str "out")] ++
    versionEntries "solc_version" c.solc ++ versionEntries "evm_version" c.evm ++
    [("bytecode_hash", .str "none"), ("block_timestamp", .int 1), ("block_number", .int 1),
      ("chain_id", .int 31337), ("libs", .arr []), ("ffi", .bool false),
      ("fs_permissions", .arr []), ("always_use_create_2_factory", .bool c.factory),
      ("dynamic_test_linking", .bool false), ("optimizer", .bool c.optimizer),
      ("optimizer_runs", .int c.optimizerRuns)]

/-- A plain version that has a line is the text that is written. -/
theorem PlainVersion.text {key : String} {version : Json} (h : PlainVersion version)
    (hGiven : versionLines key version ≠ []) : Json.str version.text = version := by
  rcases h with rfl | ⟨s, rfl, -⟩
  · exact absurd rfl hGiven
  · rfl

/-- The lines of a choice are read back as its entries. -/
theorem Choice.lines_entries (c : Choice) (seed gateUrl : String) (hSolc : PlainVersion c.solc)
    (hEvm : PlainVersion c.evm) {lines : List Toml.Line}
    (h : lines = (c.lines seed gateUrl).filter fun line => !line.isBlank) :
    Toml.entriesOf "profile.default" "" lines = c.entries ∧
      Toml.entriesOf "profile.default.fuzz" "" lines = [("runs", .int c.runs), ("seed", .str seed)] ∧
      Toml.entriesOf "rpc_endpoints" "" lines = [("l0vi0x_gate", .str gateUrl)] := by
  have hSolcText := @PlainVersion.text "solc_version" c.solc hSolc
  have hEvmText := @PlainVersion.text "evm_version" c.evm hEvm
  subst h
  rcases versionLines_given "solc_version" c.solc with ⟨-, hSolcLines⟩ | ⟨-, -, hSolcLines⟩ <;>
    rcases versionLines_given "evm_version" c.evm with ⟨-, hEvmLines⟩ | ⟨-, -, hEvmLines⟩ <;>
    simp_all [Choice.lines, Choice.entries, versionEntries, Toml.Line.isBlank, Toml.entriesOf]

theorem getField?_of_nodup {fields : Fields} (h : (fields.map Prod.fst).Nodup) {key : String}
    {value : Json} (hMem : (key, value) ∈ fields) : getField? key fields = some value := by
  induction fields with
  | nil => cases hMem
  | cons p rest ih =>
      obtain ⟨k, v⟩ := p
      rw [List.map_cons, List.nodup_cons] at h
      rw [getField?]
      rcases List.mem_cons.mp hMem with hHead | hTail
      · obtain ⟨rfl, rfl⟩ := Prod.mk.inj hHead
        rw [if_pos rfl]
      · have hNe : k ≠ key := by
          rintro rfl
          exact h.1 (List.mem_map.mpr ⟨_, hTail, rfl⟩)
        rw [if_neg hNe, ih h.2 hTail]

theorem Choice.entries_nodup (c : Choice) : (c.entries.map Prod.fst).Nodup := by
  by_cases hSolc : (versionLines "solc_version" c.solc).isEmpty = true <;>
    by_cases hEvm : (versionLines "evm_version" c.evm).isEmpty = true <;>
    simp [Choice.entries, versionEntries, hSolc, hEvm]

/-- What the profile of a document holds is what the settings hold. -/
theorem Choice.entries_held (c : Choice) {q : String × Json} (h : q ∈ c.entries) :
    lookupLast q.1 c.pairs = some q.2 := by
  have hVersion : ∀ key version, q ∈ versionEntries key version → q = (key, version) := by
    intro key version hq
    rw [versionEntries] at hq
    split at hq
    · cases hq
    · exact List.mem_singleton.mp hq
  rw [Choice.entries, List.mem_append, List.mem_append, List.mem_append] at h
  rcases h with ((hFirst | hSolc) | hEvm) | hLast
  · simp only [List.mem_cons, List.not_mem_nil, or_false] at hFirst
    rcases hFirst with rfl | rfl | rfl <;> rfl
  · rw [hVersion _ _ hSolc]
    rfl
  · rw [hVersion _ _ hEvm]
    rfl
  · simp only [List.mem_cons, List.not_mem_nil, or_false] at hLast
    rcases hLast with rfl | rfl | rfl | rfl | rfl | rfl | rfl | rfl | rfl | rfl | rfl <;> rfl

/-- The written keys are those of the entries, of the fuzz table and of the gate. -/
theorem writtenKeys_entries (c : Choice) (gateUrl : String) :
    writtenKeys (c.sanitized gateUrl) = c.entries.map (fun q => ("profile.default", q.1)) ++
      [("profile.default.fuzz", "runs"), ("profile.default.fuzz", "seed"),
        ("rpc_endpoints", "l0vi0x_gate")] := by
  rw [writtenKeys_choice]
  by_cases hSolc : (versionLines "solc_version" c.solc).isEmpty = true <;>
    by_cases hEvm : (versionLines "evm_version" c.evm).isEmpty = true <;>
    simp [Choice.entries, versionEntries, hSolc, hEvm]

/-- What a reader finds in the lines of a choice under the keys that are written. -/
theorem Choice.lines_read (c : Choice) {seed gateUrl : String} (hSeed : seedHex c.seed = .ok seed)
    (hSolc : PlainVersion c.solc) (hEvm : PlainVersion c.evm) {lines : List Toml.Line}
    (h : lines = (c.lines seed gateUrl).filter fun line => !line.isBlank) :
    ∀ p ∈ writtenKeys (c.sanitized gateUrl), ∃ read held,
      getField? p.2 (Toml.entriesOf p.1 "" lines) = some read ∧
        follow (heldAt p.1 p.2) (.obj (c.sanitized gateUrl)) = some held ∧
        SameValue p.1 p.2 read held := by
  obtain ⟨hDefault, hFuzz, hGate⟩ := c.lines_entries seed gateUrl hSolc hEvm h
  rw [writtenKeys_entries]
  intro p hp
  rcases List.mem_append.mp hp with hp | hp
  · obtain ⟨q, hq, rfl⟩ := List.mem_map.mp hp
    refine ⟨q.2, q.2, ?_, ?_, ?_⟩
    · rw [hDefault]
      exact getField?_of_nodup c.entries_nodup hq
    · have hHeld : heldAt "profile.default" q.1 = ["profile", "default", q.1] := by
        simp [heldAt]
      rw [hHeld]
      exact follow_held c gateUrl (c.entries_held hq)
    · simp [SameValue]
  · have hGateHeld : follow ["gate_url"] (.obj (c.sanitized gateUrl)) = some (.str gateUrl) := by
      rw [follow, Choice.sanitized, getField?_dictOf]
      rfl
    simp only [List.mem_cons, List.not_mem_nil, or_false] at hp
    rcases hp with rfl | rfl | rfl
    · exact ⟨.int c.runs, .int c.runs, by rw [hFuzz]; rfl, follow_fuzz c gateUrl rfl, by simp [SameValue]⟩
    · refine ⟨.str seed, .int c.seed, by rw [hFuzz]; rfl, follow_fuzz c gateUrl rfl, ?_⟩
      rw [SameValue, if_pos ⟨rfl, rfl⟩]
      exact ⟨seed, c.seed, rfl, rfl, seedNumber_seedHex hSeed⟩
    · exact ⟨.str gateUrl, .str gateUrl, by rw [hGate]; rfl, hGateHeld, by simp [SameValue]⟩

/-- A version that is read back is the text that was written for it. -/
theorem plainVersion_of_read {c : Choice} {seed gateUrl : String} {lines : List Toml.Line}
    (h : lines = (c.lines seed gateUrl).filter fun line => !line.isBlank)
    {key : String} {version : Json} (hKey : (key, version) = ("solc_version", c.solc) ∨
      (key, version) = ("evm_version", c.evm)) (hPlain : Toml.Plain version.text)
    (hRead : ∀ p ∈ writtenKeys (c.sanitized gateUrl), ∃ read held,
      getField? p.2 (Toml.entriesOf p.1 "" lines) = some read ∧
        follow (heldAt p.1 p.2) (.obj (c.sanitized gateUrl)) = some held ∧
        SameValue p.1 p.2 read held) : PlainVersion version := by
  rcases versionLines_given key version with ⟨rfl | rfl, -⟩ | ⟨-, -, hLines⟩
  · exact .inl rfl
  · exact .inr ⟨"", rfl, hPlain⟩
  · have hWritten : ("profile.default", key) ∈ writtenKeys (c.sanitized gateUrl) := by
      rw [writtenKeys_choice]
      rcases hKey with hKey | hKey <;> obtain ⟨rfl, rfl⟩ := Prod.mk.inj hKey <;> simp [hLines]
    have hHeld : follow (heldAt "profile.default" key) (.obj (c.sanitized gateUrl)) =
        some version := by
      have hPath : heldAt "profile.default" key = ["profile", "default", key] := by
        simp [heldAt]
      rw [hPath]
      refine follow_held c gateUrl ?_
      rcases hKey with hKey | hKey <;> obtain ⟨rfl, rfl⟩ := Prod.mk.inj hKey <;> rfl
    have hFound : getField? key (Toml.entriesOf "profile.default" "" lines) =
        some (.str version.text) := by
      subst h
      rcases hKey with hKey | hKey <;> obtain ⟨rfl, rfl⟩ := Prod.mk.inj hKey
      · simp [Choice.lines, hLines, Toml.entriesOf, Toml.Line.isBlank, getField?]
      · rcases versionLines_cases "solc_version" c.solc with ⟨hSolc, -⟩ | hSolc <;>
          simp [Choice.lines, hLines, hSolc, Toml.entriesOf, Toml.Line.isBlank, getField?]
    obtain ⟨read, held, hGet, hFollow, hSame⟩ := hRead _ hWritten
    obtain rfl := Option.some.inj (hFound.symm.trans hGet)
    obtain rfl := Option.some.inj (hHeld.symm.trans hFollow)
    have hEq : Json.str version.text = version := by
      simpa [SameValue] using hSame
    exact .inr ⟨version.text, hEq.symm, hPlain⟩

/-- A document reads back exactly when the gate is plain and the versions are texts that are plain.
-/
theorem readsBack_iff {c : Choice} {gateUrl text : String}
    (h : renderToml (dictOf c.pairs) gateUrl = .ok text) :
    ReadsBack (c.sanitized gateUrl) text ↔
      Toml.Plain gateUrl ∧ PlainVersion c.solc ∧ PlainVersion c.evm := by
  obtain ⟨seed, hSeed, rfl⟩ := renderToml_eq_ok h
  have hRead := Toml.readLines_joinLines (c.lines_named seed gateUrl) (Nat.lt_succ_self _)
  rw [← Toml.joinText_lines] at hRead
  constructor
  · rintro ⟨lines, hLines, -, hKeys⟩
    have hPlain : ∀ line ∈ c.lines seed gateUrl, line.Plain := by
      by_contra hNot
      rw [if_neg hNot] at hRead
      cases hLines.symm.trans hRead
    rw [if_pos hPlain] at hRead
    have hFilter := Option.some.inj (hLines.symm.trans hRead)
    obtain ⟨hGate, hSolc, hEvm⟩ := (Choice.lines_plain hSeed).mp hPlain
    exact ⟨hGate, plainVersion_of_read hFilter (.inl rfl) hSolc hKeys,
      plainVersion_of_read hFilter (.inr rfl) hEvm hKeys⟩
  · rintro ⟨hGate, hSolc, hEvm⟩
    have hText : ∀ version, PlainVersion version → Toml.Plain version.text := by
      rintro version (rfl | ⟨s, rfl, hs⟩)
      · decide
      · exact hs
    have hPlain := (Choice.lines_plain hSeed).mpr ⟨hGate, hText _ hSolc, hText _ hEvm⟩
    rw [if_pos hPlain] at hRead
    exact ⟨_, hRead, c.lines_valid seed gateUrl rfl, c.lines_read hSeed hSolc hEvm rfl⟩

/-- What is written is read back as the mapping that is returned if and only if the gate and the
versions are texts without a control character, a version that is not given apart. -/
theorem written_readsBack_iff
    (h : sanitizeFoundryConfig host source compiler gateUrl policy fuzzRuns fuzzSeed = .ok r) :
    ReadsBack r.1 r.2 ↔ Toml.Plain gateUrl ∧ PlainVersion (solcVersion compiler) ∧
      PlainVersion (evmVersion compiler) := by
  obtain ⟨c, -, hSolc, hEvm, hText, hMapping⟩ := sanitize_eq_ok h
  rw [hMapping, readsBack_iff hText, hSolc, hEvm]

theorem sample_readsBack :
    ∃ r, sanitizeFoundryConfig sampleHost none sampleCompiler "http://rpc_gate:8545/agent" none
        256 1 = .ok r ∧ ReadsBack r.1 r.2 := by
  obtain ⟨r, h⟩ := sample_returns "http://rpc_gate:8545/agent" none (.inl rfl)
  exact ⟨r, h, (written_readsBack_iff h).mpr
    ⟨by decide, .inr ⟨"0.8.24", rfl, by decide⟩, .inr ⟨"cancun", rfl, by decide⟩⟩⟩

/-- A line break at the end of the gate is written as it is, and the text is no document. -/
theorem broken_gate_not_readsBack :
    ¬ ∀ r, sanitizeFoundryConfig sampleHost none sampleCompiler "http://gate\n" none 256 1 = .ok r →
      ReadsBack r.1 r.2 := by
  intro hClaim
  obtain ⟨r, h⟩ := sample_returns "http://gate\n" none (.inl rfl)
  obtain ⟨c, -, -, -, hText, hMapping⟩ := sanitize_eq_ok h
  have hRead := hClaim r h
  rw [hMapping] at hRead
  exact absurd ((readsBack_iff hText).mp hRead).1 (by decide)

end ReadBack
end L0vi0x.Chain.FoundryConfig
