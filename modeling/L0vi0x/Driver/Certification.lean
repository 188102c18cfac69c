import L0vi0x.Core.Certifier
import L0vi0x.Verifier.RunIndependence

/-! The host's phase of an acceptance: the retained runs are loaded into a collection,
verified, certified and verified once more with the certificate, and what comes of it is
reported in files that the phase does not read. The fixture's scope and hypothesis are
given. -/
namespace L0vi0x.Driver

open L0vi0x.Python L0vi0x.Core L0vi0x.Core.Certifier L0vi0x.Chain L0vi0x.Verifier

/-- What a phase works on: the two roots, the fixture's target and what `collection.json` and
`witness.json` say. -/
structure Acceptance where
  root : Path
  work : Path
  scope : Scope
  hypothesis : Hypothesis
  witness : Witness
  replayRoot : Path
  runDirs : List Path

def policyPath (root : Path) : Path := root.join "config/policy/cheatcode_policy.yaml"

def catalogPath (root : Path) : Path := root.join "config/policy/cheatcode_categories.yaml"

namespace Acceptance

/-- `_context(...)`, with the problems that `_verify_m1b_tool_lock` found. -/
def context (a : Acceptance) (lockProblems : List String) (certificate : Option ReplayCertificate)
    (key : Option Bytes) (requireCertificate : Bool) : VerificationContext where
  root := a.root
  hypothesis := a.hypothesis
  scope := a.scope
  witness := a.witness
  knownIssues := []
  replay := some ⟨a.replayRoot, a.runDirs, certificate, key⟩
  build := some ⟨true, "", lockProblems.isEmpty, lockProblems⟩
  duplicate := none
  productionL7Required := false
  currentPolicyPath := some (policyPath a.root)
  cheatcodeCatalogPath := some (catalogPath a.root)
  toolLockPath := some (a.root.join "config/tools.m1b.lock.yaml")
  priceEvidencePath := some (a.work.join "prices.json")
  pinnedImpactUsd := none
  requireCertificate := requireCertificate

end Acceptance

variable (host : Host) (fs : FileSystem)

def loadPolicy (root : Path) : Py (Json × List (String × String)) := do
  let policy ← loadYaml host fs (policyPath root)
  let raw ← loadDocument host fs (catalogPath root)
  match ← raw.value.attrGet "categories" raw.value with
  | .map entries => pure (policy, YamlValue.texts entries)
  | _ => raise .runtimeError "cheatcode catalog is malformed"

def retainedRun (index : Nat) (runDir : Path) (d : DerivedReplayRun) : Py ReplayRun :=
  match fs.glob (runDir.join "artifacts") "run-*" with
  | [] => raise .indexError "list index out of range"
  | dir :: _ => pure {
      index := index
      passed := true
      artifactDir := dir
      tracePath := dir.join "trace.json"
      controlPath := dir.join "control.json"
      controlTracePath := dir.join "control-trace.json"
      environmentPath := dir.join "environment.json"
      controlSha256 := d.controlHash
      environmentHash := d.environmentHash
      structured := d.trace }

def loadCollection (a : Acceptance) (catalog : List (String × String)) : Py ReplayCollection := do
  let runDirs ← a.runDirs.mapM fs.resolve
  raiseIf (runDirs.length < 3) .runtimeError
    ("expected at least three retained replay runs under " ++ a.replayRoot.text)
  let derived ← runDirs.mapM fun p => loadRun host fs p a.witness catalog
  let digests := runDigests host derived
  raiseIf (!(agree digests.environments && agree digests.records && agree digests.controls))
    .runtimeError "retained replay collection is not deterministic"
  let runs ← ((runDirs.zip derived).zipIdx 1).mapM fun entry =>
    retainedRun fs entry.2 entry.1.1 entry.1.2
  let tracePolicySha256 ← policyHash host fs (policyPath a.root) (catalogPath a.root)
  pure {
    witnessHash := witnessHash host a.witness
    root := a.replayRoot
    runs := runs
    observedRecordsSha256 := aggregateSha256 host digests.records
    tracePolicySha256 := tracePolicySha256
    controlSha256 := digests.controls.headD ""
    environmentHash := digests.environments.headD "" }

def keyInside (a : Acceptance) (keyPath : Path) : Py Bool := do
  let root ← fs.resolve a.root
  if keyPath.isRelativeTo root then pure true
  else keyPath.isRelativeTo <$> fs.resolve a.work

def reportFiles : List String :=
  ["certify-precheck-verification.json", "certificate.json", "certificate-verification.json",
    "acceptance.json"]

/-- `certify()`, where the tool lock is looked at before each of the two verifications, and
`write` is what `_write_json` of a report comes to. -/
def certify (a : Acceptance) (keyPath : Path) (lockBefore lockAfter : List String)
    (write : Path → Py Unit) : Py (ReplayCertificate × VerificationResult) := do
  let policy ← loadPolicy host fs a.root
  raiseIf (← keyInside fs a keyPath) .runtimeError
    "certificate key must remain outside the repository and sandbox work root"
  let collection ← loadCollection host fs a policy.2
  let pre ← verify host fs (a.context lockBefore none none false)
  write (a.work.join "certify-precheck-verification.json")
  raiseIf (!pre.passed) .runtimeError
    "certificate issuance blocked: hard verification did not pass: "
  let resolved ← fs.resolve keyPath
  let certificate ← HostCertifier.issue host fs ⟨resolved⟩ a.witness collection pre.passed
    "CERT-M1B-REAL"
  write (a.work.join "certificate.json")
  let key ← fs.readBytes keyPath
  let final ← verify host fs (a.context lockAfter (some certificate) (some key) true)
  write (a.work.join "certificate-verification.json")
  raiseIf (!final.passed) .runtimeError "final certificate-backed verification failed"
  write (a.work.join "acceptance.json")
  pure (certificate, final)

theorem mapM_returns {α β : Type} {f : α → Py β} {xs : List α}
    (h : ∀ x ∈ xs, ∃ y, f x = .ok y) : ∃ ys, xs.mapM f = .ok ys := by
  induction xs with
  | nil => exact ⟨[], rfl⟩
  | cons x xs ih =>
      obtain ⟨y, hy⟩ := h x (List.mem_cons_self ..)
      obtain ⟨ys, hys⟩ := ih fun x hx => h x (List.mem_cons_of_mem _ hx)
      exact ⟨y :: ys, mapM_eq_ok.mpr (.cons hy (mapM_eq_ok.mp hys))⟩

section Closing

variable {host : Host} {fs : FileSystem} {a : Acceptance} {keyPath : Path}
  {lockBefore lockAfter lock lock' : List String} {certificate certificate' : Option ReplayCertificate}
  {key key' : Option Bytes} {required required' : Bool} {catalog : List (String × String)}
  {write : Path → Py Unit}

/-- What a path resolves to resolves to itself. -/
def Settled (fs : FileSystem) : Prop := ∀ p q, fs.resolve p = .ok q → fs.resolve q = .ok q

/-- The key is a readable file outside the repository, the work directory and the replays. -/
structure KeyInPlace (fs : FileSystem) (a : Acceptance) (keyPath : Path) : Prop where
  outsideRepository : ∃ root, fs.resolve a.root = .ok root ∧ keyPath.isRelativeTo root = false
  outsideWork : ∃ work, fs.resolve a.work = .ok work ∧ keyPath.isRelativeTo work = false
  outsideReplays : ∃ resolved root, fs.resolve keyPath = .ok resolved ∧
    fs.resolve a.replayRoot = .ok root ∧ resolved.isRelativeTo root = false
  present : fs.pathExists keyPath = .ok true
  readable : ∃ key, fs.readBytes keyPath = .ok key

/-- The catalog is a document of JSON. The driver reads it as it is, the verifier after
writing it as JSON. -/
def PlainCatalog (host : Host) (fs : FileSystem) (a : Acceptance) : Prop :=
  ∀ d, loadDocument host fs (catalogPath a.root) = .ok d → d.Plain

def Reportable (a : Acceptance) (write : Path → Py Unit) : Prop :=
  ∀ name ∈ reportFiles, returns (write (a.work.join name))

/-- All reports can be written when each of the four writes returns. -/
theorem reportable_iff : Reportable a write ↔
    returns (write (a.work.join "certify-precheck-verification.json")) ∧
      returns (write (a.work.join "certificate.json")) ∧
      returns (write (a.work.join "certificate-verification.json")) ∧
      returns (write (a.work.join "acceptance.json")) := by
  simp [Reportable, reportFiles]

theorem Settled.real (h : Settled fs) {p q : Path} (hp : fs.resolve p = .ok q) :
    fs.real q = fs.real p := by
  rw [fs.resolve_real hp, fs.resolve_real (h p q hp)]

/-- V05 to V09 read the same in both contexts. -/
theorem runAccepted_context {run : DerivedReplayRun} {e : Evidence}
    (h : RunAccepted host fs (a.context lock certificate key required) run e) :
    RunAccepted host fs (a.context lock' certificate' key' required') run e :=
  ⟨h.config, h.policy, h.control, h.assertion, h.harness, h.economics, h.origin, h.econ⟩

/-- The derived runs do not depend on the lock, the certificate, the key and the required ids. -/
theorem derivedRuns_context :
    derivedRuns host fs (a.context lock certificate key required) =
      derivedRuns host fs (a.context lock' certificate' key' required') := rfl

theorem build_passes_iff :
    Passes (checkBuild host (a.context lock certificate key required)) ↔ lock = [] := by
  cases lock with
  | nil => exact iff_of_true ⟨_, rfl, rfl⟩ rfl
  | cons problem rest =>
      refine iff_of_false ?_ (List.cons_ne_nil _ _)
      rintro ⟨c, hc, hBlocks⟩
      cases hc
      cases hBlocks

/-- The checks before the runs do not depend on the certificate and the key. -/
theorem static_context
    (h : StaticAccepted host fs (a.context lock certificate key required)) (hLock : lock' = []) :
    StaticAccepted host fs (a.context lock' certificate' key' required') :=
  ⟨h.eligibility, h.span, build_passes_iff.mpr hLock⟩

/-- The catalog of the driver is the one that the verifier loads. -/
theorem loadPolicy_of_loadCatalog {sha : String} (hPlain : PlainCatalog host fs a)
    (hCatalog : loadCatalog host fs (a.context lock certificate key required) = .ok catalog)
    (hPolicy : policyHash host fs (policyPath a.root) (catalogPath a.root) = .ok sha) :
    ∃ policy, loadPolicy host fs a.root = .ok (policy, catalog) := by
  obtain ⟨policy, hLoaded, -⟩ := bind_eq_ok.mp hPolicy
  obtain ⟨d, hDocument, hCatalog⟩ := bind_eq_ok.mp hCatalog
  obtain ⟨raw, hDumped, hCatalog⟩ := bind_eq_ok.mp hCatalog
  have hDocumentPlain := hPlain d hDocument
  obtain rfl : d.lookups = raw := Except.ok.inj (hDocumentPlain.dumped.symm.trans hDumped)
  obtain ⟨categories, hCategories, hCatalog⟩ := bind_eq_ok.mp hCatalog
  obtain ⟨y, hGet, hInside, rfl⟩ := YamlValue.attrGet_plain hDocumentPlain.2 hCategories
  refine ⟨policy.lookups, bind_eq_ok.mpr ⟨policy.lookups, bind_eq_ok.mpr ⟨policy, hLoaded, rfl⟩,
    bind_eq_ok.mpr ⟨d, hDocument, bind_eq_ok.mpr ⟨y, hGet, ?_⟩⟩⟩⟩
  cases y with
  | map entries =>
      rw [YamlValue.lookups, pure_eq_ok, ← YamlValue.texts_plain hInside] at hCatalog
      rw [← hCatalog]
      rfl
  | _ => cases hCatalog

theorem glob_of_artifactRoot {repo root : Path} (h : artifactRoot fs repo = .ok root) :
    ∃ dir, fs.glob (repo.join "artifacts") "run-*" = [dir] := by
  obtain ⟨present, -, h⟩ := bind_eq_ok.mp h
  cases present with
  | false => cases h
  | true =>
      rw [if_pos rfl] at h
      split at h
      · rename_i dir hDir
        exact ⟨dir, hDir⟩
      · cases h

/-- A run that was loaded has its one directory of artifacts. -/
theorem retainedRun_returns (hSettled : Settled fs) {raw p : Path} {d : DerivedReplayRun}
    (hResolved : fs.resolve raw = .ok p) (hLoad : loadRun host fs p a.witness catalog = .ok d)
    (index : Nat) : ∃ run, retainedRun fs index p d = .ok run := by
  obtain ⟨root, path, text, trace, controlTrace, hLoaded⟩ := loadRun_eq_ok.mp hLoad
  have hRoot : d.root = p :=
    Except.ok.inj (hLoaded.resolved.symm.trans (hSettled raw p hResolved))
  obtain ⟨dir, hDir⟩ := glob_of_artifactRoot (hRoot ▸ hLoaded.artifacts)
  rw [retainedRun, hDir]
  exact ⟨_, rfl⟩

/-- The runs that were derived, with the directories they were loaded from. -/
theorem derivedRuns_dirs {derived : List DerivedReplayRun}
    (h : derivedRuns host fs (a.context lock certificate key required) = .ok derived)
    (hCatalog : loadCatalog host fs (a.context lock certificate key required) = .ok catalog) :
    3 ≤ derived.length ∧ ∃ dirs, a.runDirs.mapM fs.resolve = .ok dirs ∧
      List.Forall₂ (fun p d => (∃ raw, fs.resolve raw = .ok p) ∧
        loadRun host fs p a.witness catalog = .ok d) dirs derived := by
  obtain ⟨hLength, trustRoot, -, hRuns⟩ := (derivedRuns_eq_ok rfl).mp h
  change 3 ≤ a.runDirs.length at hLength
  change List.Forall₂ _ a.runDirs derived at hRuns
  refine ⟨hRuns.length_eq ▸ hLength, ?_⟩
  simp only [mapM_eq_ok]
  clear h hLength
  generalize a.runDirs = raws at hRuns ⊢
  induction hRuns with
  | nil => exact ⟨[], .nil, .nil⟩
  | cons hHead _ ih =>
      obtain ⟨dirs, hDirs, hLoads⟩ := ih
      obtain ⟨p, found, hResolved, -, hFound, hLoad⟩ := deriveRun_eq_ok.mp hHead
      obtain rfl := Except.ok.inj (hFound.symm.trans hCatalog)
      exact ⟨p :: dirs, .cons hResolved hDirs, .cons ⟨⟨_, hResolved⟩, hLoad⟩ hLoads⟩

/-- A collection sums up the digests of derived runs. -/
structure SumsUp (host : Host) (a : Acceptance) (derived : List DerivedReplayRun) (sha : String)
    (c : ReplayCollection) : Prop where
  environment : c.environmentHash = (runDigests host derived).environments.headD ""
  control : c.controlSha256 = (runDigests host derived).controls.headD ""
  records : c.observedRecordsSha256 = aggregateSha256 host (runDigests host derived).records
  policy : c.tracePolicySha256 = sha
  root : c.root = a.replayRoot
  runs : c.runs.length = derived.length

/-- Where the verifier derives runs that agree, their collection is loaded. -/
theorem loadCollection_of_derived (hSettled : Settled fs) {derived : List DerivedReplayRun}
    {replay : ReplayEvidence} {sha : String}
    (hDerived : derivedRuns host fs (a.context lock certificate key required) = .ok derived)
    (hCatalog : loadCatalog host fs (a.context lock certificate key required) = .ok catalog)
    (hAgreed : Agreement host fs (a.context lock certificate key required) replay derived)
    (hPolicy : policyHash host fs (policyPath a.root) (catalogPath a.root) = .ok sha) :
    ∃ c, loadCollection host fs a catalog = .ok c ∧ SumsUp host a derived sha c := by
  obtain ⟨hThree, dirs, hDirs, hLoads⟩ := derivedRuns_dirs hDerived hCatalog
  have hRuns : ∃ runs, ((dirs.zip derived).zipIdx 1).mapM
      (fun entry => retainedRun fs entry.2 entry.1.1 entry.1.2) = .ok runs := by
    refine mapM_returns fun entry hEntry => ?_
    have hZip : (entry.1.1, entry.1.2) ∈ dirs.zip derived := List.fst_mem_of_mem_zipIdx hEntry
    obtain ⟨⟨raw, hResolved⟩, hLoad⟩ := (List.forall₂_iff_zip.mp hLoads).2 hZip
    exact retainedRun_returns hSettled hResolved hLoad entry.2
  obtain ⟨runs, hRuns⟩ := hRuns
  have hLength : runs.length = derived.length := by
    rw [← (mapM_eq_ok.mp hRuns).length_eq, List.length_zipIdx, List.length_zip, hLoads.length_eq,
      Nat.min_self]
  have hLoaded : dirs.mapM (fun p => loadRun host fs p a.witness catalog) = .ok derived :=
    mapM_eq_ok.mpr (hLoads.imp fun _ _ h => h.2)
  refine ⟨_, bind_eq_ok.mpr ⟨dirs, hDirs, bind_eq_ok.mpr ⟨(), ?_, bind_eq_ok.mpr ⟨derived, hLoaded,
    bind_eq_ok.mpr ⟨(), ?_, bind_eq_ok.mpr ⟨runs, hRuns, bind_eq_ok.mpr ⟨sha, hPolicy, rfl⟩⟩⟩⟩⟩⟩,
    rfl, rfl, rfl, rfl, rfl, hLength⟩
  · rw [raiseIf_eq_ok, decide_eq_false_iff_not, not_lt, hLoads.length_eq]
    exact hThree
  · rw [raiseIf_eq_ok, hAgreed.environments, hAgreed.records, hAgreed.controls]
    rfl

/-- What is issued for a collection is certified for its digests. -/
theorem certified_of_issue {w : Witness} {c : ReplayCollection} {replay : ReplayEvidence}
    {keyBytes : Bytes} {certificateId : String} {cert : ReplayCertificate}
    (hIssue : Certificates.issue host keyBytes (issueFields host w c certificateId) = .ok cert)
    (hCert : replay.certificate = some cert) (hKey : replay.certificateKey = some keyBytes) :
    Certified host w replay (some c.tracePolicySha256) c.environmentHash c.controlSha256
      c.observedRecordsSha256 cert keyBytes := by
  unfold Certificates.issue at hIssue
  split at hIssue
  · cases hIssue
  · cases hIssue
    exact ⟨hCert, hKey, rfl, rfl, rfl, fun _ hSha => Option.some.inj hSha, rfl,
      Certificates.isAscii_hmac _, rfl⟩

/-- The issuer returns a certificate for every collection of three runs, once the key is in
its place. -/
theorem issue_of_keyInPlace (hSettled : Settled fs) {c : ReplayCollection}
    (hKey : KeyInPlace fs a keyPath) (hRoot : c.root = a.replayRoot) (hRuns : 3 ≤ c.runs.length)
    (certificateId : String) :
    ∃ resolved cert keyBytes, fs.resolve keyPath = .ok resolved ∧
      fs.readBytes keyPath = .ok keyBytes ∧
      HostCertifier.issue host fs ⟨resolved⟩ a.witness c true certificateId = .ok cert ∧
      Certificates.issue host keyBytes (issueFields host a.witness c certificateId) = .ok cert := by
  obtain ⟨resolved, root, hResolved, hReplays, hOutside⟩ := hKey.outsideReplays
  obtain ⟨keyBytes, hBytes⟩ := hKey.readable
  have hSame := hSettled.real hResolved
  have hPresent : fs.pathExists resolved = .ok true := by
    rw [FileSystem.pathExists, hSame]
    exact hKey.present
  have hRead : fs.readBytes resolved = .ok keyBytes := by
    rw [FileSystem.readBytes, hSame]
    exact hBytes
  obtain ⟨cert, hCert⟩ := @Certificates.issue_returns host keyBytes
    (issueFields host a.witness c certificateId) (by
      change (3 : Int) ≤ (c.runs.length : Int)
      omega)
  refine ⟨resolved, cert, keyBytes, hResolved, hBytes, ?_, hCert⟩
  refine bind_eq_ok.mpr ⟨(), rfl, bind_eq_ok.mpr ⟨true, hPresent, bind_eq_ok.mpr ⟨(), rfl,
    bind_eq_ok.mpr ⟨root, hRoot ▸ hReplays, bind_eq_ok.mpr ⟨(), ?_, bind_eq_ok.mpr
      ⟨keyBytes, hRead, hCert⟩⟩⟩⟩⟩⟩
  rw [raiseIf_eq_ok]
  exact hOutside

/-- The issuer's gates are passed where it returns. -/
theorem present_of_issue (hSettled : Settled fs) {c : ReplayCollection} {resolved : Path}
    {passed : Bool} {certificateId : String} {cert : ReplayCertificate}
    (hResolved : fs.resolve keyPath = .ok resolved)
    (h : HostCertifier.issue host fs ⟨resolved⟩ a.witness c passed certificateId = .ok cert) :
    fs.pathExists keyPath = .ok true ∧
      ∃ root, fs.resolve c.root = .ok root ∧ resolved.isRelativeTo root = false := by
  obtain ⟨_, -, h⟩ := bind_eq_ok.mp h
  obtain ⟨found, hFound, h⟩ := bind_eq_ok.mp h
  obtain ⟨_, hExists, h⟩ := bind_eq_ok.mp h
  obtain ⟨root, hRoot, h⟩ := bind_eq_ok.mp h
  obtain ⟨_, hOutside, -⟩ := bind_eq_ok.mp h
  rw [raiseIf_eq_ok] at hExists hOutside
  rw [Bool.not_eq_false'] at hExists
  refine ⟨?_, root, hRoot, hOutside⟩
  rw [FileSystem.pathExists, ← hSettled.real hResolved]
  exact hExists ▸ hFound

/-- The key is outside when both roots resolve and neither holds it. -/
theorem keyInside_eq_false : keyInside fs a keyPath = .ok false ↔
    (∃ root, fs.resolve a.root = .ok root ∧ keyPath.isRelativeTo root = false) ∧
      ∃ work, fs.resolve a.work = .ok work ∧ keyPath.isRelativeTo work = false := by
  constructor
  · intro h
    obtain ⟨root, hRoot, h⟩ := bind_eq_ok.mp h
    split at h
    · cases h
    · rename_i hAway
      exact ⟨⟨root, hRoot, by simpa using hAway⟩, map_eq_ok.mp h⟩
  · rintro ⟨⟨root, hRoot, hAway⟩, hWork⟩
    refine bind_eq_ok.mpr ⟨root, hRoot, ?_⟩
    rw [hAway, if_neg Bool.false_ne_true]
    exact map_eq_ok.mpr hWork

/-- A collection is loaded for the replay root that was asked for. -/
theorem loadCollection_root {c : ReplayCollection}
    (h : loadCollection host fs a catalog = .ok c) : c.root = a.replayRoot := by
  obtain ⟨_, -, h⟩ := bind_eq_ok.mp h
  obtain ⟨_, -, h⟩ := bind_eq_ok.mp h
  obtain ⟨_, -, h⟩ := bind_eq_ok.mp h
  obtain ⟨_, -, h⟩ := bind_eq_ok.mp h
  obtain ⟨_, -, h⟩ := bind_eq_ok.mp h
  obtain ⟨_, -, h⟩ := bind_eq_ok.mp h
  exact congrArg ReplayCollection.root (pure_eq_ok.mp h).symm

/-- With the certificate of its own collection, a verification that passed passes again. -/
theorem verify_certified {sha : String} {replay : ReplayEvidence}
    {run : DerivedReplayRun} {rest : List DerivedReplayRun} {e : Evidence}
    (h : Accepted host fs (a.context lock none none false) replay run rest e)
    (hPolicy : policyHash host fs (policyPath a.root) (catalogPath a.root) = .ok sha)
    {c : ReplayCollection} (hSums : SumsUp host a (run :: rest) sha c) {keyBytes : Bytes}
    {certificateId : String} {cert : ReplayCertificate}
    (hIssue : Certificates.issue host keyBytes (issueFields host a.witness c certificateId) =
      .ok cert) :
    ReturnsPassed (verify host fs (a.context [] (some cert) (some keyBytes) true)) := by
  have hAgreed := checkReplay_passes_iff.mp h.agreed
  have hCertified := @certified_of_issue host a.witness c
    ⟨a.replayRoot, a.runDirs, some cert, some keyBytes⟩ keyBytes certificateId cert hIssue rfl rfl
  rw [hSums.policy, hSums.environment, hSums.control, hSums.records] at hCertified
  refine verify_passes_iff.mpr ⟨_, run, rest, e, static_context h.static rfl, rfl,
    derivedRuns_context.trans h.derived, checkReplay_passes_iff.mpr ?_, runAccepted_context h.run⟩
  exact ⟨hAgreed.environments, hAgreed.records, hAgreed.controls, hAgreed.declared, some sha,
    map_eq_ok.mpr ⟨sha, hPolicy, rfl⟩, fun _ => ⟨cert, keyBytes, hCertified⟩⟩

/-- What the phase has read, verified, issued and written when it returns. -/
theorem certify_returns : returns (certify host fs a keyPath lockBefore lockAfter write) ↔
    ∃ policy c pre resolved cert keyBytes final,
      loadPolicy host fs a.root = .ok policy ∧ keyInside fs a keyPath = .ok false ∧
      loadCollection host fs a policy.2 = .ok c ∧
      verify host fs (a.context lockBefore none none false) = .ok pre ∧ pre.passed = true ∧
      fs.resolve keyPath = .ok resolved ∧
      HostCertifier.issue host fs ⟨resolved⟩ a.witness c true "CERT-M1B-REAL" = .ok cert ∧
      fs.readBytes keyPath = .ok keyBytes ∧
      verify host fs (a.context lockAfter (some cert) (some keyBytes) true) = .ok final ∧
      final.passed = true ∧ Reportable a write := by
  rw [reportable_iff]
  constructor
  · rintro ⟨result, h⟩
    obtain ⟨policy, hPolicy, h⟩ := bind_eq_ok.mp h
    obtain ⟨inside, hInside, h⟩ := bind_eq_ok.mp h
    obtain ⟨_, hOutside, h⟩ := bind_eq_ok.mp h
    obtain ⟨c, hCollection, h⟩ := bind_eq_ok.mp h
    obtain ⟨pre, hPre, h⟩ := bind_eq_ok.mp h
    obtain ⟨_, hPrecheck, h⟩ := bind_eq_ok.mp h
    obtain ⟨_, hPassed, h⟩ := bind_eq_ok.mp h
    obtain ⟨resolved, hResolved, h⟩ := bind_eq_ok.mp h
    obtain ⟨cert, hIssue, h⟩ := bind_eq_ok.mp h
    obtain ⟨_, hCertificate, h⟩ := bind_eq_ok.mp h
    obtain ⟨keyBytes, hKey, h⟩ := bind_eq_ok.mp h
    obtain ⟨final, hFinal, h⟩ := bind_eq_ok.mp h
    obtain ⟨_, hVerification, h⟩ := bind_eq_ok.mp h
    obtain ⟨_, hFinalPassed, h⟩ := bind_eq_ok.mp h
    obtain ⟨_, hAcceptance, -⟩ := bind_eq_ok.mp h
    rw [raiseIf_eq_ok] at hOutside hPassed hFinalPassed
    rw [Bool.not_eq_false'] at hPassed hFinalPassed
    rw [hPassed] at hIssue
    exact ⟨policy, c, pre, resolved, cert, keyBytes, final, hPolicy, hOutside ▸ hInside,
      hCollection, hPre, hPassed, hResolved, hIssue, hKey, hFinal, hFinalPassed,
      ⟨_, hPrecheck⟩, ⟨_, hCertificate⟩, ⟨_, hVerification⟩, _, hAcceptance⟩
  · rintro ⟨policy, c, pre, resolved, cert, keyBytes, final, hPolicy, hInside, hCollection, hPre,
      hPassed, hResolved, hIssue, hKey, hFinal, hFinalPassed, ⟨_, hPrecheck⟩, ⟨_, hCertificate⟩,
      ⟨_, hVerification⟩, _, hAcceptance⟩
    rw [← hPassed] at hIssue
    refine ⟨(cert, final), bind_eq_ok.mpr ⟨_, hPolicy, bind_eq_ok.mpr ⟨false, hInside,
      bind_eq_ok.mpr ⟨(), rfl, bind_eq_ok.mpr ⟨c, hCollection, bind_eq_ok.mpr ⟨pre, hPre,
      bind_eq_ok.mpr ⟨_, hPrecheck, bind_eq_ok.mpr ⟨(), ?_, bind_eq_ok.mpr ⟨resolved, hResolved,
      bind_eq_ok.mpr ⟨cert, hIssue, bind_eq_ok.mpr ⟨_, hCertificate, bind_eq_ok.mpr ⟨keyBytes,
      hKey, bind_eq_ok.mpr ⟨final, hFinal, bind_eq_ok.mpr ⟨_, hVerification, bind_eq_ok.mpr ⟨(),
      ?_, bind_eq_ok.mpr ⟨_, hAcceptance, rfl⟩⟩⟩⟩⟩⟩⟩⟩⟩⟩⟩⟩⟩⟩⟩⟩
    · rw [raiseIf_eq_ok, hPassed]
      rfl
    · rw [raiseIf_eq_ok, hFinalPassed]
      rfl

end Closing

section Certified

open Sample

def threeRuns : AcceptedRecord where
  toRecorded := plain
  accepted := by decide +kernel

/-- The acceptance of the three runs of the project. -/
def projectAcceptance : Acceptance where
  root := ⟨"/", ["w"]⟩
  work := ⟨"/", ["w"]⟩
  scope := Sample.scope
  hypothesis := Sample.hypothesis
  witness := Sample.witness
  replayRoot := replayRoot
  runDirs := [0, 1, 2].map runDir

theorem project_paths : Driver.policyPath projectAcceptance.root = Sample.policyPath ∧
    Driver.catalogPath projectAcceptance.root = Sample.catalogPath ∧
    projectAcceptance.work.join "prices.json" = pricePath :=
  ⟨join_relative (by simp [relativePaths]) _, join_relative (by simp [relativePaths]) _,
    join_relative (by simp [relativePaths]) _⟩

/-- Without a certificate the runs pass as they do with one. -/
theorem project_passes :
    ReturnsPassed (verify Sample.host threeRuns.files
      (projectAcceptance.context [] none none false)) := by
  obtain ⟨replay, run, rest, e, hStatic, hReplay, hDerived, hAgreed, hRun⟩ :=
    verify_passes_iff.mp threeRuns.passes
  obtain ⟨hPolicyPath, hCatalogPath, hPricePath⟩ := project_paths
  have hAgreed := checkReplay_passes_iff.mp hAgreed
  obtain ⟨policy, hPolicy, -⟩ := hAgreed.certified
  refine verify_passes_iff.mpr ⟨⟨replayRoot, [0, 1, 2].map runDir, none, none⟩, run, rest, e, ?_, rfl, ?_,
    checkReplay_passes_iff.mpr ⟨hAgreed.environments, hAgreed.records, hAgreed.controls,
      hAgreed.declared, policy, ?_, fun h => (Bool.false_ne_true h).elim⟩, ?_⟩
  all_goals simp only [Acceptance.context, hPolicyPath, hCatalogPath, hPricePath]
  · exact ⟨hStatic.eligibility, hStatic.span, ⟨_, rfl, rfl⟩⟩
  · exact hDerived
  · exact hPolicy
  · exact ⟨hRun.config, hRun.policy, hRun.control, hRun.assertion, hRun.harness, hRun.economics,
      hRun.origin, hRun.econ⟩

theorem key_in_place : KeyInPlace threeRuns.files projectAcceptance Sample.keyPath where
  outsideRepository := ⟨_, rfl, rfl⟩
  outsideWork := ⟨_, rfl, rfl⟩
  outsideReplays := ⟨_, _, rfl, rfl, rfl⟩
  present := by
    refine MemoryFiles.pathExists_eq ?_
    rw [show (tree fun _ => threeRuns.toRecorded).map (·.1) = treeKeys.val from tree_keys _]
    decide
  readable := ⟨_, MemoryFiles.readBytes_of_content
    (content_project (f := (Sample.keyPath, keyText)) (by simp [projectFiles]))⟩

theorem catalog_plain : PlainCatalog Sample.host threeRuns.files projectAcceptance := by
  intro d h
  rw [project_paths.2.1] at h
  exact Except.ok.inj (loadDocument_catalog.symm.trans h) ▸ documents_plain.2.2

end Certified
end L0vi0x.Driver
