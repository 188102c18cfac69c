import L0vi0x.Chain.FoundryConfig

/-! Nothing of the repository's configuration is left in the one that is written: every
setting that may be copied is overwritten. What is written reads as intended unless one of
its texts holds a control character. -/
namespace L0vi0x.Chain.FoundryConfig

open L0vi0x.Python

section Settings

variable {host : Host} {source : Option (Py String)} {compiler security fuzzPolicy : Fields}
  {gateUrl : String} {policy : Option ConfigFile} {fuzzRuns fuzzSeed : Int}

def solcVersion (compiler : Fields) : Json :=
  (getField? "solc" compiler).getD ((getField? "solc_version" compiler).getD (.str ""))

def evmVersion (compiler : Fields) : Json := (getField? "evm_version" compiler).getD (.str "")

/-- What of the settings is not the same in every configuration. -/
structure Choice where
  solc : Json
  evm : Json
  optimizer : Bool
  optimizerRuns : Int
  factory : Bool
  runs : Int
  seed : Int

def Choice.pairs (c : Choice) : List (String × Json) :=
  [("src", .str "src"), ("ffi", .bool false), ("fs_permissions", .arr []),
    ("test", .str "test"), ("out", .str "out"), ("libs", .arr []),
    ("optimizer", .bool c.optimizer), ("optimizer_runs", .int c.optimizerRuns),
    ("solc_version", c.solc), ("evm_version", c.evm),
    ("dynamic_test_linking", .bool false), ("always_use_create_2_factory", .bool c.factory),
    ("block_timestamp", .int 1), ("block_number", .int 1), ("chain_id", .int 31337),
    ("bytecode_hash", .str "none"),
    ("fuzz", .obj (dictOf [("runs", .int c.runs), ("seed", .int c.seed)]))]

/-- Settings that are returned are those of a choice, with the versions of the compiler. -/
theorem settings_eq_ok {updates : List (String × Json)}
    (h : settings compiler security fuzzPolicy fuzzRuns fuzzSeed = .ok updates) :
    ∃ c : Choice, updates = c.pairs ∧ c.solc = solcVersion compiler ∧
      c.evm = evmVersion compiler := by
  obtain ⟨optimizerRuns, -, h⟩ := bind_eq_ok.mp h
  obtain ⟨runs, -, h⟩ := bind_eq_ok.mp h
  obtain ⟨seed, -, h⟩ := bind_eq_ok.mp h
  exact ⟨⟨solcVersion compiler, evmVersion compiler, _, optimizerRuns, _, runs, seed⟩,
    (pure_eq_ok.mp h).symm, rfl, rfl⟩

/-- Every setting that may be copied is among those that overwrite. -/
theorem Choice.allowed_overwritten (c : Choice) :
    ∀ key ∈ allowedProfileKeys, key ∈ c.pairs.map Prod.fst := by
  have hKeys : c.pairs.map Prod.fst = ["src", "ffi", "fs_permissions", "test", "out", "libs",
      "optimizer", "optimizer_runs", "solc_version", "evm_version", "dynamic_test_linking",
      "always_use_create_2_factory", "block_timestamp", "block_number", "chain_id",
      "bytecode_hash", "fuzz"] := rfl
  rw [hKeys]
  decide

theorem copySettings_keys {supplied : Json} {keys : List String}
    {copied : List (String × Json)} (h : copySettings supplied keys = .ok copied) :
    ∀ key ∈ copied.map Prod.fst, key ∈ keys := by
  induction keys generalizing copied with
  | nil =>
      rw [copySettings, pure_eq_ok] at h
      subst h
      exact fun key hKey => (List.not_mem_nil hKey).elim
  | cons k rest ih =>
      rw [copySettings] at h
      obtain ⟨found, -, h⟩ := bind_eq_ok.mp h
      cases found with
      | false => exact fun key hKey => List.mem_cons_of_mem _ (ih h key hKey)
      | true =>
          obtain ⟨value, -, h⟩ := bind_eq_ok.mp h
          obtain ⟨more, hMore, h⟩ := bind_eq_ok.mp h
          obtain rfl := pure_eq_ok.mp h
          intro key hKey
          rw [List.map_cons, List.mem_cons] at hKey
          rcases hKey with rfl | hKey
          · exact List.mem_cons_self ..
          · exact List.mem_cons_of_mem _ (ih hMore key hKey)

/-- The mapping that is returned for a choice. -/
def Choice.sanitized (c : Choice) (gateUrl : String) : Fields :=
  dictOf [("profile", .obj [("default", .obj (dictOf c.pairs))]), ("gate_url", .str gateUrl),
    ("security", .obj (dictOf [("ffi", .bool false), ("fs_permissions", .arr []),
      ("libs", .arr []), ("always_use_create_2_factory", .bool c.factory)]))]

/-- The choice that the arguments of the host make, without the configuration of the
repository. -/
def choose (host : Host) (compiler : Fields) (policy : Option ConfigFile)
    (fuzzRuns fuzzSeed : Int) : Py (List (String × Json)) := do
  let policy ← readPolicy host policy
  let security := objectField "security" policy
  settings compiler security (objectField "fuzz" security) fuzzRuns fuzzSeed

/-- What is returned and written follows from the choice. -/
theorem sanitize_eq_ok {r : Fields × String}
    (h : sanitizeFoundryConfig host source compiler gateUrl policy fuzzRuns fuzzSeed = .ok r) :
    ∃ c : Choice, choose host compiler policy fuzzRuns fuzzSeed = .ok c.pairs ∧
      c.solc = solcVersion compiler ∧ c.evm = evmVersion compiler ∧
      renderToml (dictOf c.pairs) gateUrl = .ok r.2 ∧ r.1 = c.sanitized gateUrl := by
  rw [sanitizeFoundryConfig] at h
  obtain ⟨policyFields, hPolicy, h⟩ := bind_eq_ok.mp h
  obtain ⟨supplied, -, h⟩ := bind_eq_ok.mp h
  obtain ⟨copied, hCopied, h⟩ := bind_eq_ok.mp h
  obtain ⟨updates, hSettings, h⟩ := bind_eq_ok.mp h
  obtain ⟨factory, hFactory, h⟩ := bind_eq_ok.mp h
  obtain ⟨text, hText, h⟩ := bind_eq_ok.mp h
  obtain ⟨c, rfl, hSolc, hEvm⟩ := settings_eq_ok hSettings
  have hOver : updateFields (dictOf copied) c.pairs = dictOf c.pairs :=
    updateFields_overwritten fun key hKey =>
      c.allowed_overwritten key (copySettings_keys hCopied key hKey)
  rw [hOver] at hFactory hText h
  have hItem : (Json.obj (dictOf c.pairs)).item "always_use_create_2_factory" =
      .ok (.bool c.factory) := by
    rw [Json.item, getField?_dictOf]
    rfl
  rw [hItem] at hFactory
  cases hFactory
  obtain rfl := pure_eq_ok.mp h
  exact ⟨c, bind_eq_ok.mpr ⟨policyFields, hPolicy, hSettings⟩, hSolc, hEvm, hText, rfl⟩

end Settings

section Text

def lineText (line : Toml.Line) : String := String.ofList line.chars

theorem lineText_text (key s : String) :
    key ++ " = " ++ quote s = lineText (.entry key (.str s)) := by
  refine String.toList_injective ?_
  simp [lineText, quote, Toml.Line.chars, Toml.valueChars]

theorem lineText_int (key : String) (i : Int) :
    key ++ " = " ++ String.ofList (intText i) = lineText (.entry key (.int i)) := by
  refine String.toList_injective ?_
  simp [lineText, Toml.Line.chars, Toml.valueChars]

theorem lineText_bool (key : String) (b : Bool) :
    key ++ " = " ++ boolText b = lineText (.entry key (.bool b)) := by
  refine String.toList_injective ?_
  cases b <;> simp [lineText, Toml.Line.chars, Toml.valueChars, boolText]

theorem lineText_empty (key : String) : lineText (.entry key (.arr [])) = key ++ " = []" := by
  refine String.toList_injective ?_
  simp [lineText, Toml.Line.chars, Toml.valueChars]

/-- A table is written in brackets. -/
theorem lineText_table (name : String) : lineText (.table name) = "[" ++ name ++ "]" := by
  refine String.toList_injective ?_
  simp [lineText, Toml.Line.chars]

theorem lineText_blank : lineText .blank = "" := rfl

/-- The line of a version, where one is given. -/
def versionLines (key : String) : Json → List Toml.Line
  | .null | .str "" => []
  | value => [.entry key (.str value.text)]

/-- A text that is set has its line, and one that is null or empty has none. -/
theorem textLine_eq {p : Fields} {key : String} {value : Json} (h : getField? key p = some value) :
    textLine p key = (versionLines key value).map lineText := by
  by_cases hNull : value = .null
  · subst hNull
    rw [textLine, h]
    rfl
  · by_cases hEmpty : value = .str ""
    · subst hEmpty
      rw [textLine, h]
      rfl
    · have hLines : versionLines key value = [.entry key (.str value.text)] := by
        simp [versionLines]
      have hText : textLine p key = [key ++ " = " ++ quote value.text] := by
        simp [textLine, h]
      rw [hLines, hText, List.map_singleton, lineText_text]

/-- The digits of a seed need no escape and are no control characters. -/
theorem seedHex_chars {n : Int} {seed : String} (h : seedHex n = .ok seed) :
    ∀ c ∈ seed.toList, Toml.escape c = [c] ∧ Toml.isControl c = false := by
  rw [seedHex] at h
  split at h
  · cases h
  · obtain rfl := pure_eq_ok.mp h
    have hDigit : ∀ n < 16, Toml.escape (hexDigit n) = [hexDigit n] ∧
        Toml.isControl (hexDigit n) = false := by decide
    intro c hc
    rw [String.toList_append, List.mem_append] at hc
    rcases hc with hPrefix | hc
    · rw [show "0x".toList = ['0', 'x'] from rfl, List.mem_cons, List.mem_singleton] at hPrefix
      rcases hPrefix with rfl | rfl
      · decide
      · decide
    · rw [String.toList_ofList] at hc
      obtain ⟨i, -, rfl⟩ := List.mem_map.mp hc
      exact hDigit _ (Nat.mod_lt _ (by decide))

theorem lineText_seed {n : Int} {seed : String} (h : seedHex n = .ok seed) :
    "seed = \"" ++ seed ++ "\"" = lineText (.entry "seed" (.str seed)) := by
  have hEscape : seed.toList.flatMap Toml.escape = seed.toList := by
    have hEach := seedHex_chars h
    generalize seed.toList = cs at hEach
    induction cs with
    | nil => rfl
    | cons c cs ih =>
        rw [List.forall_mem_cons] at hEach
        rw [List.flatMap_cons, hEach.1.1, ih hEach.2, List.singleton_append]
  refine String.toList_injective ?_
  simp [lineText, Toml.Line.chars, Toml.valueChars, Toml.textChars, hEscape]

/-- The lines that are written for a choice. -/
def Choice.lines (c : Choice) (seed gateUrl : String) : List Toml.Line :=
  [.table "profile.default", .entry "src" (.str "src"), .entry "test" (.str "test"),
      .entry "out" (.str "out")] ++
    versionLines "solc_version" c.solc ++ versionLines "evm_version" c.evm ++
    [.entry "bytecode_hash" (.str "none"), .entry "block_timestamp" (.int 1),
      .entry "block_number" (.int 1), .entry "chain_id" (.int 31337),
      .entry "libs" (.arr []), .entry "ffi" (.bool false), .entry "fs_permissions" (.arr []),
      .entry "always_use_create_2_factory" (.bool c.factory),
      .entry "dynamic_test_linking" (.bool false), .entry "optimizer" (.bool c.optimizer),
      .entry "optimizer_runs" (.int c.optimizerRuns), .blank,
      .table "profile.default.fuzz", .entry "runs" (.int c.runs), .entry "seed" (.str seed),
      .blank, .table "rpc_endpoints", .entry "l0vi0x_gate" (.str gateUrl), .blank]

/-- A number that is set has its line. -/
theorem intLine_int {p : Fields} {key : String} {i : Int} (h : getField? key p = some (.int i)) :
    intLine p key = .ok [lineText (.entry key (.int i))] := by
  rw [intLine, h, ← lineText_int]
  rfl

/-- The rendered text is made of the lines of the choice. -/
theorem renderToml_eq_ok {c : Choice} {gateUrl text : String}
    (h : renderToml (dictOf c.pairs) gateUrl = .ok text) :
    ∃ seed, seedHex c.seed = .ok seed ∧
      text = joinText "\n" ((c.lines seed gateUrl).map lineText) := by
  have hFind : ∀ key, getField? key (dictOf c.pairs) = lookupLast key c.pairs :=
    fun key => getField?_dictOf key c.pairs
  have hTexts : ["src", "test", "out", "solc_version", "evm_version", "bytecode_hash"].flatMap
      (textLine (dictOf c.pairs)) = ([Toml.Line.entry "src" (.str "src"), .entry "test" (.str "test"),
        .entry "out" (.str "out")] ++ versionLines "solc_version" c.solc ++
        versionLines "evm_version" c.evm ++
        [Toml.Line.entry "bytecode_hash" (.str "none")]).map lineText := by
    simp only [List.flatMap_cons, List.flatMap_nil]
    rw [textLine_eq ((hFind "src").trans rfl), textLine_eq ((hFind "test").trans rfl),
      textLine_eq ((hFind "out").trans rfl), textLine_eq ((hFind "solc_version").trans rfl),
      textLine_eq ((hFind "evm_version").trans rfl),
      textLine_eq ((hFind "bytecode_hash").trans rfl)]
    simp [versionLines]
  have hInts : ["block_timestamp", "block_number", "chain_id"].mapM
      (intLine (dictOf c.pairs)) = .ok [[lineText (.entry "block_timestamp" (.int 1))],
        [lineText (.entry "block_number" (.int 1))],
        [lineText (.entry "chain_id" (.int 31337))]] := by
    rw [mapM_eq_ok]
    exact .cons (intLine_int ((hFind _).trans rfl)) (.cons (intLine_int ((hFind _).trans rfl))
      (.cons (intLine_int ((hFind _).trans rfl)) .nil))
  rw [renderToml] at h
  obtain ⟨ints, hI, h⟩ := bind_eq_ok.mp h
  obtain ⟨factory, hFactory, h⟩ := bind_eq_ok.mp h
  obtain ⟨optimizerRuns, hOptimizerRuns, h⟩ := bind_eq_ok.mp h
  obtain ⟨fuzz, hFuzz, h⟩ := bind_eq_ok.mp h
  obtain ⟨runsValue, hRunsValue, h⟩ := bind_eq_ok.mp h
  obtain ⟨runs, hRuns, h⟩ := bind_eq_ok.mp h
  obtain ⟨seedValue, hSeedValue, h⟩ := bind_eq_ok.mp h
  obtain ⟨seedInt, hSeedInt, h⟩ := bind_eq_ok.mp h
  obtain ⟨seed, hSeed, h⟩ := bind_eq_ok.mp h
  obtain rfl := pure_eq_ok.mp h
  obtain rfl := Except.ok.inj (hInts.symm.trans hI)
  obtain rfl : Json.bool c.factory = factory := item_dictOf hFactory rfl
  obtain rfl : Json.obj (dictOf [("runs", .int c.runs), ("seed", .int c.seed)]) = fuzz :=
    item_dictOf hFuzz rfl
  obtain rfl : optimizerRuns = c.optimizerRuns := by
    rw [hFind] at hOptimizerRuns
    exact (Except.ok.inj hOptimizerRuns).symm
  obtain rfl : Json.int c.runs = runsValue := item_dictOf hRunsValue rfl
  obtain rfl : c.runs = runs := Except.ok.inj hRuns
  obtain rfl : Json.int c.seed = seedValue := item_dictOf hSeedValue rfl
  obtain rfl : c.seed = seedInt := Except.ok.inj hSeedInt
  have hOptimizer : getField? "optimizer" (dictOf c.pairs) = some (.bool c.optimizer) :=
    (hFind _).trans rfl
  refine ⟨seed, hSeed, ?_⟩
  refine congrArg (joinText "\n") ?_
  have hFalse : boolText false = "false" := rfl
  rw [hTexts, hOptimizer, lineText_seed hSeed]
  simp [Choice.lines, lineText_table, lineText_blank, lineText_empty, ← lineText_bool,
    ← lineText_int, ← lineText_text "l0vi0x_gate", Json.truthy, hFalse]

end Text

section Written

/-- A version has one line, or none where it is null or empty. -/
theorem versionLines_cases (key : String) (value : Json) :
    (versionLines key value = [] ∧ Toml.Plain value.text) ∨
      versionLines key value = [.entry key (.str value.text)] := by
  unfold versionLines
  split
  · exact .inl ⟨rfl, by decide⟩
  · exact .inl ⟨rfl, by decide⟩
  · exact .inr rfl

/-- The line of a version is plain when the version is. -/
theorem versionLines_plain (key : String) (value : Json) :
    (∀ line ∈ versionLines key value, line.Plain) ↔ Toml.Plain value.text := by
  rcases versionLines_cases key value with ⟨hNone, hPlain⟩ | hOne
  · rw [hNone]
    exact ⟨fun _ => hPlain, fun _ _ hLine => (List.not_mem_nil hLine).elim⟩
  · rw [hOne, List.forall_mem_singleton]
    exact Iff.rfl

/-- The lines of a choice are plain when the gate and the versions are. -/
theorem Choice.lines_plain {c : Choice} {seed gateUrl : String} (hSeed : seedHex c.seed = .ok seed) :
    (∀ line ∈ c.lines seed gateUrl, line.Plain) ↔
      Toml.Plain gateUrl ∧ Toml.Plain c.solc.text ∧ Toml.Plain c.evm.text := by
  have hSeedPlain : Toml.Plain seed := fun ch hch => (seedHex_chars hSeed ch hch).2
  have hWords : Toml.Plain "src" ∧ Toml.Plain "test" ∧ Toml.Plain "out" ∧ Toml.Plain "none" := by
    decide
  simp only [Choice.lines, List.forall_mem_append, List.forall_mem_cons, versionLines_plain,
    Toml.Line.plain_blank, Toml.Line.plain_table, Toml.Line.plain_text, Toml.Line.plain_int,
    Toml.Line.plain_bool, Toml.Line.plain_empty, hSeedPlain, hWords, List.not_mem_nil,
    false_imp_iff, implies_true, true_and, and_true]
  tauto

/-- The keys and the tables that are written are names. -/
theorem Choice.lines_named (c : Choice) (seed gateUrl : String) :
    ∀ line ∈ c.lines seed gateUrl, line.Named := by
  have hVersion : ∀ key value, (key.toList ≠ [] ∧ ∀ ch ∈ key.toList, Toml.isKeyChar ch = true) →
      ∀ line ∈ versionLines key value, line.Named := by
    intro key value hKey
    rcases versionLines_cases key value with ⟨hNone, -⟩ | hOne
    · rw [hNone]
      exact fun _ hLine => (List.not_mem_nil hLine).elim
    · rw [hOne, List.forall_mem_singleton]
      exact ⟨hKey, .inl ⟨_, rfl⟩⟩
  simp only [Choice.lines, List.forall_mem_append]
  refine ⟨⟨⟨?_, hVersion _ _ (by simp [Toml.isKeyChar])⟩, hVersion _ _ (by simp [Toml.isKeyChar])⟩, ?_⟩
  · simp [Toml.Line.Named, Toml.isKeyChar, Toml.isTableChar]
  · simp [Toml.Line.Named, Toml.isKeyChar, Toml.isTableChar]

/-- A configuration that sets, when it is read, what keeps a run from the host: no command, no
file, no library, and one place to reach, the gate. -/
def SetsSecurity (gateUrl text : String) : Prop :=
  ∃ lines, Toml.read text = some lines ∧
    Toml.tablesOf lines = ["profile.default", "profile.default.fuzz", "rpc_endpoints"] ∧
    (Toml.entriesOf "profile.default" "" lines).filter
      (fun p => p.1 = "libs" ∨ p.1 = "ffi" ∨ p.1 = "fs_permissions") =
        [("libs", .arr []), ("ffi", .bool false), ("fs_permissions", .arr [])] ∧
    Toml.entriesOf "rpc_endpoints" "" lines = [("l0vi0x_gate", .str gateUrl)]

/-- The lines of a choice, read back, say what they were written for. -/
theorem Choice.lines_secure (c : Choice) (seed gateUrl : String) {lines : List Toml.Line}
    (h : lines = (c.lines seed gateUrl).filter fun line => !line.isBlank) :
    Toml.tablesOf lines = ["profile.default", "profile.default.fuzz", "rpc_endpoints"] ∧
      (Toml.entriesOf "profile.default" "" lines).filter
        (fun p => p.1 = "libs" ∨ p.1 = "ffi" ∨ p.1 = "fs_permissions") =
          [("libs", .arr []), ("ffi", .bool false), ("fs_permissions", .arr [])] ∧
      Toml.entriesOf "rpc_endpoints" "" lines = [("l0vi0x_gate", .str gateUrl)] := by
  subst h
  rcases versionLines_cases "solc_version" c.solc with ⟨hSolc, -⟩ | hSolc <;>
    rcases versionLines_cases "evm_version" c.evm with ⟨hEvm, -⟩ | hEvm <;>
    simp [Choice.lines, hSolc, hEvm, Toml.Line.isBlank, Toml.tablesOf, Toml.entriesOf]

/-- The text sets the security of a run exactly when the gate and the versions are plain. -/
theorem setsSecurity_iff {c : Choice} {gateUrl text : String}
    (h : renderToml (dictOf c.pairs) gateUrl = .ok text) :
    SetsSecurity gateUrl text ↔
      Toml.Plain gateUrl ∧ Toml.Plain c.solc.text ∧ Toml.Plain c.evm.text := by
  obtain ⟨seed, hSeed, rfl⟩ := renderToml_eq_ok h
  rw [← Choice.lines_plain hSeed]
  have hRead := Toml.readLines_joinLines (c.lines_named seed gateUrl) (Nat.lt_succ_self _)
  rw [← Toml.joinText_lines] at hRead
  constructor
  · rintro ⟨lines, hLines, -⟩
    by_contra hNot
    rw [if_neg hNot] at hRead
    cases hLines.symm.trans hRead
  · intro hPlain
    rw [if_pos hPlain] at hRead
    exact ⟨_, hRead, c.lines_secure seed gateUrl rfl⟩

end Written

section Independence

variable {host : Host} {source₁ source₂ : Option (Py String)} {compiler : Fields}
  {gateUrl : String} {policy : Option ConfigFile} {fuzzRuns fuzzSeed : Int}
  {r₁ r₂ : Fields × String}

/-- The pairs of a choice determine it. -/
theorem Choice.pairs_inj {c d : Choice} (h : c.pairs = d.pairs) : c = d := by
  obtain ⟨solc, evm, optimizer, optimizerRuns, factory, runs, seed⟩ := c
  obtain ⟨solc', evm', optimizer', optimizerRuns', factory', runs', seed'⟩ := d
  have hFuzz : ∀ key a b, lookupLast key [("runs", Json.int a), ("seed", .int b)] =
      getField? key (dictOf [("runs", .int a), ("seed", .int b)]) :=
    fun key a b => (getField?_dictOf key _).symm
  simp only [Choice.pairs, List.cons.injEq, Prod.mk.injEq, true_and, and_true, Json.bool.injEq,
    Json.int.injEq, Json.obj.injEq] at h
  obtain ⟨rfl, rfl, rfl, rfl, rfl, h⟩ := h
  have hRuns := (hFuzz "runs" runs seed).trans ((congrArg _ h).trans (hFuzz "runs" runs' seed').symm)
  have hSeed := (hFuzz "seed" runs seed).trans ((congrArg _ h).trans (hFuzz "seed" runs' seed').symm)
  obtain rfl : runs = runs' := Json.int.inj (Option.some.inj hRuns)
  obtain rfl : seed = seed' := Json.int.inj (Option.some.inj hSeed)
  rfl

/-- Whatever the repository's configuration says, if it is accepted, the same is returned and
written; the text is what it is meant to be unless a control character stands in it. -/
theorem sanitized_secure_iff
    (h₁ : sanitizeFoundryConfig host source₁ compiler gateUrl policy fuzzRuns fuzzSeed = .ok r₁)
    (h₂ : sanitizeFoundryConfig host source₂ compiler gateUrl policy fuzzRuns fuzzSeed = .ok r₂) :
    (r₁ = r₂ ∧ SetsSecurity gateUrl r₁.2) ↔ Toml.Plain gateUrl ∧
      Toml.Plain (solcVersion compiler).text ∧ Toml.Plain (evmVersion compiler).text := by
  obtain ⟨c, hChoice, hSolc, hEvm, hText, hMapping⟩ := sanitize_eq_ok h₁
  obtain ⟨d, hChoice', -, -, hText', hMapping'⟩ := sanitize_eq_ok h₂
  obtain rfl := Choice.pairs_inj (Except.ok.inj (hChoice.symm.trans hChoice'))
  have hSame : r₁ = r₂ :=
    Prod.ext (hMapping.trans hMapping'.symm) (Except.ok.inj (hText.symm.trans hText'))
  rw [setsSecurity_iff hText, hSolc, hEvm]
  exact and_iff_right hSame

section Samples

/-- A configuration that sets a source directory and asks for foreign commands. -/
def foreignToml : String := "[profile.default]\nffi = true\nsrc = \"contracts\"\n"

def sampleHost : Host where
  __ := Host.digesting fun _ => ""
  tomlLoads s :=
    if s = foreignToml then
      .ok [("profile", .obj [("default", .obj [("ffi", .bool true), ("src", .str "contracts")])])]
    else .error "Invalid statement (at line 1, column 1)"

def sampleCompiler : Fields := [("evm_version", .str "cancun"), ("solc", .str "0.8.24")]

/-- The sample is sanitized with and without a configuration of the repository. -/
theorem sample_returns (gateUrl : String) (source : Option (Py String))
    (h : source = none ∨ source = some (.ok foreignToml)) :
    ∃ r, sanitizeFoundryConfig sampleHost source sampleCompiler gateUrl none 256 1 = .ok r := by
  rcases h with rfl | rfl <;> exact ⟨_, rfl⟩

/-- An accepted configuration and none at all give the same. -/
theorem sample_secure :
    ∃ r, sanitizeFoundryConfig sampleHost (some (.ok foreignToml)) sampleCompiler
        "http://rpc_gate:8545/agent" none 256 1 = .ok r ∧
      sanitizeFoundryConfig sampleHost none sampleCompiler
        "http://rpc_gate:8545/agent" none 256 1 = .ok r ∧
      SetsSecurity "http://rpc_gate:8545/agent" r.2 := by
  obtain ⟨r₁, h₁⟩ := sample_returns "http://rpc_gate:8545/agent" (some (.ok foreignToml)) (.inr rfl)
  obtain ⟨r₂, h₂⟩ := sample_returns "http://rpc_gate:8545/agent" none (.inl rfl)
  obtain ⟨rfl, hSecure⟩ := (sanitized_secure_iff h₁ h₂).mpr (by decide)
  exact ⟨r₁, h₁, h₂, hSecure⟩

/-- A gate with a line break at its end makes a text that is no configuration. -/
theorem broken_gate_unreadable :
    ¬ ∀ r₁ r₂, sanitizeFoundryConfig sampleHost none sampleCompiler "http://gate\n" none 256 1 =
        .ok r₁ →
      sanitizeFoundryConfig sampleHost none sampleCompiler "http://gate\n" none 256 1 = .ok r₂ →
      r₁ = r₂ ∧ SetsSecurity "http://gate\n" r₁.2 := by
  intro hClaim
  obtain ⟨r, h⟩ := sample_returns "http://gate\n" none (.inl rfl)
  obtain ⟨c, -, -, -, hText, -⟩ := sanitize_eq_ok h
  exact absurd ((setsSecurity_iff hText).mp (hClaim r r h h).2).1 (by decide)

end Samples
end Independence
end L0vi0x.Chain.FoundryConfig
