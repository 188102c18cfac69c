import L0vi0x.Python.Host
import L0vi0x.Python.Toml

/-! The Foundry configuration that is written for a run: the settings of the repository are
checked, copied and then overwritten by those of the compiler, the policy and the host. -/
namespace L0vi0x.Chain.FoundryConfig

open L0vi0x.Python

def forbiddenKeys : List String :=
  ["private_keys", "mnemonic", "sender", "eth_rpc_url", "etherscan_api_key", "solc",
    "auto_detect_solc", "libraries", "scripts", "build_commands", "preprocessor", "permissions"]

def ignoredSecurityOverrides : List String := ["ffi", "fs_permissions", "rpc_endpoints"]

def allowedProfileKeys : List String :=
  ["src", "test", "out", "libs", "solc_version", "evm_version", "optimizer", "optimizer_runs",
    "dynamic_test_linking", "always_use_create_2_factory", "fuzz"]

mutual
def validateNoForbidden (path : String) : Json → Py Unit
  | .obj fields => validateFields path fields
  | .arr items => validateItems path 0 items
  | _ => pure ()

def validateFields (path : String) : Fields → Py Unit
  | [] => pure ()
  | (k, v) :: rest =>
      if lower k ∈ forbiddenKeys then
        raise .valueError ("forbidden Foundry config key at " ++ path ++ "." ++ k)
      else if lower k ∈ ignoredSecurityOverrides then validateFields path rest
      else do
        validateNoForbidden (path ++ "." ++ k) v
        validateFields path rest

def validateItems (path : String) (i : Nat) : List Json → Py Unit
  | [] => pure ()
  | j :: rest => do
      validateNoForbidden (path ++ "[" ++ toString i ++ "]") j
      validateItems path (i + 1) rest
end

def quote (s : String) : String := String.ofList (Toml.textChars s)

def seedHex (number : Int) : Py String :=
  if number < 0 ∨ 2 ^ 256 ≤ number then raise .valueError "fuzz seed must fit in uint256"
  else pure ("0x" ++ String.ofList
    ((List.range 64).reverse.map fun i => hexDigit (number.toNat / 16 ^ i % 16)))

/-- A file as it is read, with its path. -/
structure ConfigFile where
  path : String
  content : Py String

def defaultPolicy : Fields := dictOf
  [("security", .obj (dictOf [("ffi", .bool false), ("fs_permissions", .arr []), ("libs", .arr []),
    ("rpc_endpoints", .obj [("l0vi0x_gate", .str "gate-only")]),
    ("always_use_create_2_factory", .bool true),
    ("fuzz", .obj (dictOf [("runs", .int 256), ("seed", .int 1)]))]))]

def readPolicy (host : Host) : Option ConfigFile → Py Fields
  | none => pure defaultPolicy
  | some file => do
      let s ← except file.content (· == .osError) fun _ =>
        raise .valueError ("cannot read Foundry security policy: " ++ file.path)
      match host.safeLoad s with
      | .error message => raise .yamlError message
      | .ok payload => match payload.orEmpty.lookups with
          | .obj policy => pure policy
          | _ => raise .valueError "Foundry security policy must be a mapping"

section Rendering

/-- The line of a setting that is rendered as a text, where there is one. -/
def textLine (p : Fields) (key : String) : List String :=
  match getField? key p with
  | none | some .null | some (.str "") => []
  | some value => [key ++ " = " ++ quote value.text]

/-- The line of a setting that is rendered as an integer, where there is one. -/
def intLine (p : Fields) (key : String) : Py (List String) :=
  match getField? key p with
  | none | some .null => pure []
  | some value => do
      let i ← value.toInt
      pure [key ++ " = " ++ String.ofList (intText i)]

def boolText (b : Bool) : String := if b then "true" else "false"

/-- `_render_toml(config)`, on the default profile and the gate. -/
def renderToml (p : Fields) (gateUrl : String) : Py String := do
  let texts := ["src", "test", "out", "solc_version", "evm_version", "bytecode_hash"].flatMap
    (textLine p)
  let ints ← ["block_timestamp", "block_number", "chain_id"].mapM (intLine p)
  let factory ← (Json.obj p).item "always_use_create_2_factory"
  let optimizer := (getField? "optimizer" p).getD (.bool true)
  let optimizerRuns ← ((getField? "optimizer_runs" p).getD (.int 200)).toInt
  let fuzz ← (Json.obj p).item "fuzz"
  let runs ← (← fuzz.item "runs").toInt
  let seed ← seedHex (← (← fuzz.item "seed").toInt)
  pure (joinText "\n" (["[profile.default]"] ++ texts ++ ints.flatten ++
    ["libs = []", "ffi = false", "fs_permissions = []",
      "always_use_create_2_factory = " ++ boolText factory.truthy,
      "dynamic_test_linking = false",
      "optimizer = " ++ boolText optimizer.truthy,
      "optimizer_runs = " ++ String.ofList (intText optimizerRuns),
      "", "[profile.default.fuzz]", "runs = " ++ String.ofList (intText runs),
      "seed = \"" ++ seed ++ "\"",
      "", "[rpc_endpoints]", "l0vi0x_gate = " ++ quote gateUrl, ""]))

end Rendering

section Source

def insertSorted (j : Json) : List Json → Py (List Json)
  | [] => pure [j]
  | k :: rest => match j.pyLt? k with
      | none => raise .typeError "'<' not supported between these settings"
      | some true => pure (j :: k :: rest)
      | some false => do
          let more ← insertSorted j rest
          pure (k :: more)

def containsSetting (supplied : Json) (key : String) : Py Bool :=
  match supplied with
  | .obj fields => pure (getField? key fields).isSome
  | .arr items => pure (items.any (Json.pyEq (.str key)))
  | .str s => pure (containsText s key)
  | j => raise .typeError ("argument of type '" ++ j.typeName ++ "' is not iterable")

/-- `{k: supplied[k] for k in keys if k in supplied}`. -/
def copySettings (supplied : Json) : List String → Py (List (String × Json))
  | [] => pure []
  | k :: rest => do
      let found ← containsSetting supplied k
      if found then do
        let value ← supplied.item k
        let more ← copySettings supplied rest
        pure ((k, value) :: more)
      else copySettings supplied rest

/-- The default profile of the repository, after its checks. -/
def suppliedProfile (host : Host) : Option (Py String) → Py Json
  | none => pure (.obj [])
  | some content => do
      let s ← content
      if strip s = "" then pure (.obj [])
      else match host.tomlLoads s with
        | .error message => raise .valueError ("invalid foundry.toml: " ++ message)
        | .ok raw => do
            validateNoForbidden "foundry" (.obj raw)
            let profile ← (Json.obj raw).attrGet "profile" (.obj [])
            let supplied ← profile.attrGet "default" (.obj [])
            let names ← supplied.toSet
            let unknown := names.filter fun name =>
              name ∉ (allowedProfileKeys ++ ignoredSecurityOverrides).map Json.str
            if unknown.isEmpty then pure supplied
            else do
              let names ← unknown.foldrM insertSorted []
              raise .valueError ("unsupported/untrusted Foundry settings: " ++
                (Json.arr names).text)

end Source

/-- The settings that overwrite what was copied. -/
def settings (compiler security fuzzPolicy : Fields) (fuzzRuns fuzzSeed : Int) :
    Py (List (String × Json)) := do
  let optimizerRuns ← ((getField? "optimizer_runs" compiler).getD (.int 200)).toInt
  let runs ← ((getField? "runs" fuzzPolicy).getD (.int fuzzRuns)).toInt
  let seed ← ((getField? "seed" fuzzPolicy).getD (.int fuzzSeed)).toInt
  pure [("src", .str "src"), ("ffi", .bool false), ("fs_permissions", .arr []),
    ("test", .str "test"), ("out", .str "out"), ("libs", .arr []),
    ("optimizer", .bool ((getField? "optimizer" compiler).getD (.bool true)).truthy),
    ("optimizer_runs", .int optimizerRuns),
    ("solc_version", (getField? "solc" compiler).getD
      ((getField? "solc_version" compiler).getD (.str ""))),
    ("evm_version", (getField? "evm_version" compiler).getD (.str "")),
    ("dynamic_test_linking", .bool false),
    ("always_use_create_2_factory",
      .bool ((getField? "always_use_create_2_factory" security).getD (.bool true)).truthy),
    ("block_timestamp", .int 1), ("block_number", .int 1), ("chain_id", .int 31337),
    ("bytecode_hash", .str "none"),
    ("fuzz", .obj (dictOf [("runs", .int runs), ("seed", .int seed)]))]

/-- A field that holds an object, or no fields. -/
def objectField (key : String) (fields : Fields) : Fields :=
  match getField? key fields with
  | some (.obj inner) => inner
  | _ => []

/-- `sanitize_foundry_config(...)`: the mapping that is returned and the text that is
written. -/
def sanitizeFoundryConfig (host : Host) (source : Option (Py String)) (compiler : Fields)
    (gateUrl : String) (policy : Option ConfigFile) (fuzzRuns fuzzSeed : Int) :
    Py (Fields × String) := do
  let policy ← readPolicy host policy
  let security := objectField "security" policy
  let supplied ← suppliedProfile host source
  let copied ← copySettings supplied allowedProfileKeys
  let updates ← settings compiler security (objectField "fuzz" security) fuzzRuns fuzzSeed
  let default := updateFields (dictOf copied) updates
  let factory ← (Json.obj default).item "always_use_create_2_factory"
  let text ← renderToml default gateUrl
  pure (dictOf [("profile", .obj [("default", .obj default)]), ("gate_url", .str gateUrl),
    ("security", .obj (dictOf [("ffi", .bool false), ("fs_permissions", .arr []),
      ("libs", .arr []), ("always_use_create_2_factory", .bool factory.truthy)]))], text)

end L0vi0x.Chain.FoundryConfig
