import L0vi0x.Python.Yaml

/-! What the programs call outside the repository: digests, the parsers of
configuration files and the Forge compiler. -/
namespace L0vi0x.Python

structure ForgeReport where
  passed : Bool
  stdout : String
  stderr : String

/-- Digests are texts of any length here, so that being collision free can be
assumed of them. -/
structure Host where
  /-- `hashlib.sha256(raw).hexdigest()`. -/
  sha256 : Bytes → String
  /-- `hmac.new(key, raw, hashlib.sha256).hexdigest()`. -/
  hmacSha256 : Bytes → Bytes → String
  /-- `eth_hash.auto.keccak`. -/
  keccak : Bytes → Bytes
  /-- `yaml.safe_load`. -/
  safeLoad : String → Except String YamlDocument
  /-- `tomllib.loads`. -/
  tomlLoads : String → Except String Fields
  /-- `forge_build(root)`, or the text of what it raised. -/
  forgeBuild : String → Except String ForgeReport
  hmac_ascii : ∀ key raw, ∀ c ∈ (hmacSha256 key raw).toList, c.toNat < 128

def Host.sha256Text (host : Host) (s : String) : String := host.sha256 (encodeUtf8 s)

/-- A host that digests with the given function and knows no document. -/
def Host.digesting (sha256 : Bytes → String) : Host where
  sha256 := sha256
  hmacSha256 _ _ := ""
  keccak _ := []
  safeLoad _ := .error "no document"
  tomlLoads _ := .error "no document"
  forgeBuild _ := .error "no compiler"
  hmac_ascii := by simp

/-- No two byte strings have one digest. -/
def Host.CollisionFree (host : Host) : Prop := Function.Injective host.sha256

/-- Without collisions, texts with one digest are one text. -/
theorem Host.CollisionFree.text {host : Host} (h : host.CollisionFree) {s t : String}
    (hEq : host.sha256Text s = host.sha256Text t) : s = t :=
  encodeUtf8_injective (h hEq)

end L0vi0x.Python
