import L0vi0x.Chain.Replay
import L0vi0x.Core.CertificateBinding
import L0vi0x.Verifier.RetainedRun

/-! The issuer of certificates on the host, and what its calls amount to among those of
the collector and the verifier: it asks the verification it is handed whether it passed, and
nothing else. -/
namespace L0vi0x.Core.Certifier

open L0vi0x.Python L0vi0x.Chain L0vi0x.Verifier

structure HostCertifier where
  keyPath : Path

def issueFields (host : Host) (w : Witness) (c : ReplayCollection) (certificateId : String) :
    Certificates.IssueFields where
  certificateId := certificateId
  witnessSha256 := witnessHash host w
  envHash := c.environmentHash
  runs := c.runs.length
  observedRecordsSha256 := c.observedRecordsSha256
  tracePolicySha256 := c.tracePolicySha256
  controlSha256 := c.controlSha256
  crossCheckSha256 := none

/-- `issue(witness=..., collection=..., verification=..., certificate_id=...)`, where `passed`
is `getattr(verification, "passed", False)`. -/
def HostCertifier.issue (host : Host) (fs : FileSystem) (k : HostCertifier) (w : Witness)
    (c : ReplayCollection) (passed : Bool) (certificateId : String) : Py ReplayCertificate := do
  raiseIf (!passed) .runtimeError
    "refusing certificate issuance before all hard verification gates pass"
  let found ← fs.pathExists k.keyPath
  raiseIf (!found) .fileNotFoundError k.keyPath.text
  let root ← fs.resolve c.root
  raiseIf (k.keyPath.isRelativeTo root) .valueError
    "certificate key must remain outside replay trust root"
  let key ← fs.readBytes k.keyPath
  Certificates.issue host key (issueFields host w c certificateId)

section System

/-- What is handed over as a verification: what a call of `verify` returned, or any other
object with or without a `passed`. -/
inductive Supplied
  | result (call : Nat)
  | object (passed : Option Json)

/-- A certificate that was issued, with what it was issued for. -/
structure Issued where
  witness : Witness
  collection : ReplayCollection
  verification : Supplied
  certificate : ReplayCertificate

/-- The collections, the results of `verify` with their contexts, and the certificates so far. -/
structure HostState where
  collections : List ReplayCollection
  verified : List (VerificationContext × VerificationResult)
  issued : List Issued

def HostState.initial : HostState := ⟨[], [], []⟩

def HostState.passed (s : HostState) : Supplied → Bool
  | .result call => match s.verified[call]? with
      | some (_, r) => r.passed
      | none => false
  | .object passed => (passed.getD (.bool false)).truthy

inductive Call
  | collect (c : ReplayCoordinator) (w : Witness) (runs : Int)
  | verify (ctx : VerificationContext)
  | issue (w : Witness) (c : ReplayCollection) (v : Supplied) (certificateId : String)

/-- A call but for the verification that it is handed. -/
inductive Request
  | collect (c : ReplayCoordinator) (w : Witness) (runs : Int)
  | verify (ctx : VerificationContext)
  | issue (w : Witness) (c : ReplayCollection) (certificateId : String)

def Call.request : Call → Request
  | .collect c w runs => .collect c w runs
  | .verify ctx => .verify ctx
  | .issue w c _ certificateId => .issue w c certificateId

variable (host : Host) (k : HostCertifier)

/-- A call, on the files as they are when it is made. A call that raises changes nothing. -/
def step (s : HostState) (fs : FileSystem) : Call → HostState
  | .collect c w runs => match c.collect host w runs with
      | .ok collection => { s with collections := s.collections ++ [collection] }
      | .error _ => s
  | .verify ctx => match verify host fs ctx with
      | .ok r => { s with verified := s.verified ++ [(ctx, r)] }
      | .error _ => s
  | .issue w c v certificateId => match k.issue host fs w c (s.passed v) certificateId with
      | .ok cert => { s with issued := s.issued ++ [⟨w, c, v, cert⟩] }
      | .error _ => s

def run (s : HostState) (calls : List (FileSystem × Call)) : HostState :=
  calls.foldl (fun s call => step host k s call.1 call.2) s

end System

section Linked

variable {host : Host} {k : HostCertifier} {s t : HostState} {fs : FileSystem} {w : Witness}
  {c : ReplayCollection} {v : Supplied} {certificateId : String}

/-- The directories of the runs, above the artifacts of each. -/
def runDirs (c : ReplayCollection) : List Path :=
  c.runs.map fun run => ⟨run.artifactDir.root, run.artifactDir.parts.dropLast.dropLast⟩

/-- A verification that came from a call of `verify` on this witness and these runs. -/
def Linked (s : HostState) (w : Witness) (c : ReplayCollection) (v : Supplied) : Prop :=
  ∃ n ctx r, v = .result n ∧ s.verified[n]? = some (ctx, r) ∧ ctx.witness = w ∧
    ctx.replay.map (·.runDirs) = some (runDirs c)

/-- The certificate was issued on the passing result of `verify` for the same evidence. -/
def Issued.Verified (s : HostState) (i : Issued) : Prop :=
  Linked s i.witness i.collection i.verification ∧ s.passed i.verification = true

/-- What `issue` asks of the key and of the collection. -/
structure KeyReady (fs : FileSystem) (k : HostCertifier) (c : ReplayCollection) : Prop where
  keyExists : fs.pathExists k.keyPath = .ok true
  keyOutside : ∃ root, fs.resolve c.root = .ok root ∧ k.keyPath.isRelativeTo root = false
  keyReadable : ∃ key, fs.readBytes k.keyPath = .ok key
  threeRuns : 3 ≤ c.runs.length

/-- What `issue` itself asks for. -/
structure GatesOpen (fs : FileSystem) (k : HostCertifier) (s : HostState) (c : ReplayCollection)
    (v : Supplied) : Prop where
  passed : s.passed v = true
  ready : KeyReady fs k c

/-- `issue` returns exactly when its own gates are open. -/
theorem issue_returns_iff :
    (∃ cert, k.issue host fs w c (s.passed v) certificateId = .ok cert) ↔ GatesOpen fs k s c v := by
  constructor
  · rintro ⟨cert, h⟩
    rw [HostCertifier.issue] at h
    obtain ⟨_, hPassed, h⟩ := bind_eq_ok.mp h
    obtain ⟨found, hFound, h⟩ := bind_eq_ok.mp h
    obtain ⟨_, hExists, h⟩ := bind_eq_ok.mp h
    obtain ⟨root, hRoot, h⟩ := bind_eq_ok.mp h
    obtain ⟨_, hOutside, h⟩ := bind_eq_ok.mp h
    obtain ⟨key, hKey, h⟩ := bind_eq_ok.mp h
    rw [raiseIf_eq_ok] at hPassed hExists hOutside
    rw [Bool.not_eq_false'] at hPassed hExists
    refine ⟨hPassed, hExists ▸ hFound, ⟨root, hRoot, hOutside⟩, ⟨key, hKey⟩, ?_⟩
    unfold Certificates.issue at h
    split at h
    · cases h
    · rename_i hRuns
      have hCast : ¬ ((c.runs.length : Int) < 3) := hRuns
      omega
  · rintro ⟨hPassed, hExists, ⟨root, hRoot, hOutside⟩, ⟨key, hKey⟩, hRuns⟩
    obtain ⟨cert, hCert⟩ := @Certificates.issue_returns host key
      (issueFields host w c certificateId) (by
        change (3 : Int) ≤ (c.runs.length : Int)
        omega)
    refine ⟨cert, ?_⟩
    rw [HostCertifier.issue, hPassed]
    refine bind_eq_ok.mpr ⟨(), rfl, bind_eq_ok.mpr ⟨true, hExists, bind_eq_ok.mpr ⟨(), rfl, ?_⟩⟩⟩
    refine bind_eq_ok.mpr ⟨root, hRoot, bind_eq_ok.mpr ⟨(), ?_, bind_eq_ok.mpr ⟨key, hKey, hCert⟩⟩⟩
    rw [hOutside]
    rfl

/-- Every call of `issue` whose gates are open is handed a verification of the same evidence. -/
def Call.Linked (fs : FileSystem) (k : HostCertifier) (s : HostState) : Call → Prop
  | .issue w c v _ => GatesOpen fs k s c v → Certifier.Linked s w c v
  | _ => True

def LinkedRun (host : Host) (k : HostCertifier) : HostState → List (FileSystem × Call) → Prop
  | _, [] => True
  | s, (fs, call) :: rest => call.Linked fs k s ∧ LinkedRun host k (step host k s fs call) rest

def AllVerified (s : HostState) : Prop := ∀ i ∈ s.issued, i.Verified s

/-- Later calls only add to what was verified. -/
structure Extends (s t : HostState) : Prop where
  verified : s.verified <+: t.verified
  issued : s.issued <+: t.issued

theorem step_extends (call : Call) : Extends s (step host k s fs call) := by
  cases call with
  | collect c w runs =>
      rw [step]
      split
      · exact ⟨List.prefix_refl _, List.prefix_refl _⟩
      · exact ⟨List.prefix_refl _, List.prefix_refl _⟩
  | verify ctx =>
      rw [step]
      split
      · exact ⟨List.prefix_append .., List.prefix_refl _⟩
      · exact ⟨List.prefix_refl _, List.prefix_refl _⟩
  | issue w c v certificateId =>
      rw [step]
      split
      · exact ⟨List.prefix_refl _, List.prefix_append ..⟩
      · exact ⟨List.prefix_refl _, List.prefix_refl _⟩

theorem Extends.result {n : Nat} {found : VerificationContext × VerificationResult}
    (h : Extends s t) (hFound : s.verified[n]? = some found) : t.verified[n]? = some found := by
  obtain ⟨rest, hRest⟩ := h.verified
  obtain ⟨hn, -⟩ := List.getElem?_eq_some_iff.mp hFound
  rw [← hRest, List.getElem?_append_left hn, hFound]

/-- A result that passed is one that was returned. -/
theorem returned_of_passed {n : Nat} (h : s.passed (.result n) = true) :
    ∃ ctx r, s.verified[n]? = some (ctx, r) ∧ r.passed = true := by
  rw [HostState.passed] at h
  split at h
  · rename_i ctx r hFound
    exact ⟨ctx, r, hFound, h⟩
  · cases h

theorem Extends.passed (h : Extends s t) (hPassed : s.passed v = true) : t.passed v = true := by
  cases v with
  | object passed => exact hPassed
  | result n =>
      obtain ⟨ctx, r, hFound, hr⟩ := returned_of_passed hPassed
      rw [HostState.passed, h.result hFound]
      exact hr

/-- A verification that passed stays the one that it was. -/
theorem Extends.linked_iff (h : Extends s t) (hPassed : s.passed v = true) :
    Certifier.Linked t w c v ↔ Certifier.Linked s w c v := by
  constructor
  · rintro ⟨n, ctx, r, rfl, hFound, hWitness, hDirs⟩
    obtain ⟨ctx', r', hFound', -⟩ := returned_of_passed hPassed
    cases hFound.symm.trans (h.result hFound')
    exact ⟨n, ctx, r, rfl, hFound', hWitness, hDirs⟩
  · rintro ⟨n, ctx, r, rfl, hFound, hWitness, hDirs⟩
    exact ⟨n, ctx, r, rfl, h.result hFound, hWitness, hDirs⟩

/-- Every certificate was issued on something that says it passed. -/
def AllPassed (s : HostState) : Prop := ∀ i ∈ s.issued, s.passed i.verification = true

/-- Later calls do not change whether a certificate was verified. -/
theorem Extends.verified_iff (h : Extends s t) {i : Issued} (hPassed : s.passed i.verification = true) :
    i.Verified t ↔ i.Verified s := by
  rw [Issued.Verified, Issued.Verified, h.linked_iff hPassed, h.passed hPassed, hPassed]

/-- Later calls that issue nothing do not change whether all certificates were verified. -/
theorem Extends.allVerified_iff (h : Extends s t) (hPassed : AllPassed s)
    (hIssued : t.issued = s.issued) : AllVerified t ↔ AllVerified s := by
  rw [AllVerified, AllVerified, hIssued]
  exact forall₂_congr fun i hi => h.verified_iff (hPassed i hi)

/-- What a call of `issue` does to the state. -/
theorem step_issue :
    (step host k s fs (.issue w c v certificateId) = s ∧ ¬ GatesOpen fs k s c v) ∨
      ∃ cert, step host k s fs (.issue w c v certificateId) =
        { s with issued := s.issued ++ [⟨w, c, v, cert⟩] } ∧ GatesOpen fs k s c v := by
  rw [step]
  split
  · rename_i cert hCert
    exact .inr ⟨cert, rfl, issue_returns_iff.mp ⟨cert, hCert⟩⟩
  · rename_i e hError
    refine .inl ⟨rfl, fun hGates => ?_⟩
    have hReturns : ∃ cert, k.issue host fs w c (s.passed v) certificateId = .ok cert :=
      issue_returns_iff.mpr hGates
    obtain ⟨cert, hCert⟩ := hReturns
    cases hError.symm.trans hCert

/-- What a call that issues nothing leaves. -/
theorem step_issued {call : Call} (h : ∀ w c v certificateId, call ≠ .issue w c v certificateId) :
    (step host k s fs call).issued = s.issued := by
  cases call with
  | collect c w runs =>
      rw [step]
      split <;> rfl
  | verify ctx =>
      rw [step]
      split <;> rfl
  | issue w c v certificateId => exact absurd rfl (h w c v certificateId)

/-- A call issues a certificate only on something that says it passed. -/
theorem step_allPassed (h : AllPassed s) (call : Call) : AllPassed (step host k s fs call) := by
  by_cases hIssue : ∃ w c v certificateId, call = .issue w c v certificateId
  · obtain ⟨w, c, v, certificateId, rfl⟩ := hIssue
    rcases step_issue with ⟨hSame, -⟩ | ⟨cert, hStep, hGates⟩
    · rw [hSame]
      exact h
    · rw [hStep]
      intro i hi
      rcases List.mem_append.mp hi with hOld | hNew
      · exact h i hOld
      · obtain rfl := List.mem_singleton.mp hNew
        exact hGates.passed
  · intro i hi
    have hOther : ∀ w c v certificateId, call ≠ .issue w c v certificateId :=
      fun w c v certificateId hEq => hIssue ⟨w, c, v, certificateId, hEq⟩
    rw [step_issued hOther] at hi
    exact (step_extends call).passed (h i hi)

/-- A call keeps every certificate verified if and only if, where it issues one, it was handed
a verification of the same evidence. -/
theorem step_allVerified_iff (h : AllPassed s) (call : Call) :
    AllVerified (step host k s fs call) ↔ AllVerified s ∧ call.Linked fs k s := by
  by_cases hIssue : ∃ w c v certificateId, call = .issue w c v certificateId
  · obtain ⟨w, c, v, certificateId, rfl⟩ := hIssue
    rcases step_issue with ⟨hSame, hClosed⟩ | ⟨cert, hStep, hGates⟩
    · rw [hSame]
      exact (and_iff_left fun hGates => absurd hGates hClosed).symm
    · have hOld : AllVerified (step host k s fs (.issue w c v certificateId)) ↔
          AllVerified s ∧ Issued.Verified s ⟨w, c, v, cert⟩ := by
        rw [hStep, AllVerified, List.forall_mem_append, List.forall_mem_singleton]
        exact Iff.rfl
      rw [hOld, Issued.Verified, and_iff_left hGates.passed]
      exact and_congr_right fun _ => ⟨fun hLinked _ => hLinked, fun hLinked => hLinked hGates⟩
  · have hOther : ∀ w c v certificateId, call ≠ .issue w c v certificateId :=
      fun w c v certificateId hEq => hIssue ⟨w, c, v, certificateId, hEq⟩
    have hLinked : call.Linked fs k s := by
      cases call with
      | collect c w runs => trivial
      | verify ctx => trivial
      | issue w c v certificateId => exact absurd rfl (hOther w c v certificateId)
    rw [and_iff_left hLinked]
    exact (step_extends call).allVerified_iff h (step_issued hOther)

/-- A run issues only verified certificates exactly when its calls are linked. -/
theorem run_allVerified_iff (h : AllPassed s) (calls : List (FileSystem × Call)) :
    AllVerified (run host k s calls) ↔ AllVerified s ∧ LinkedRun host k s calls := by
  induction calls generalizing s with
  | nil => exact (and_iff_left trivial).symm
  | cons call rest ih =>
      obtain ⟨fs, call⟩ := call
      have hRun : run host k s ((fs, call) :: rest) = run host k (step host k s fs call) rest := rfl
      rw [hRun, ih (step_allPassed h call), step_allVerified_iff h call, and_assoc]
      exact Iff.rfl

/-- From a host without certificates, they are verified if and only if every call is linked. -/
theorem initial_allVerified_iff (calls : List (FileSystem × Call)) :
    AllVerified (run host k .initial calls) ↔ LinkedRun host k .initial calls := by
  have hNone : ∀ i ∈ HostState.initial.issued, False := fun i hi => List.not_mem_nil hi
  rw [run_allVerified_iff (fun i hi => (hNone i hi).elim)]
  exact and_iff_right fun i hi => (hNone i hi).elim

end Linked

section Handed

variable {host : Host} {k : HostCertifier} {s : HostState} {fs : FileSystem} {call : Call}
  {calls : List (FileSystem × Call)}

/-- A request that no verification opens: where it asks for a certificate, the key is missing,
unreadable or inside the root of the collection, or the collection has fewer than three runs. -/
def Request.Refused (fs : FileSystem) (k : HostCertifier) : Request → Prop
  | .issue _ c _ => ¬ KeyReady fs k c
  | _ => True

/-- The same requests in the same order, each on the same files. -/
def requestsOf (calls : List (FileSystem × Call)) : List (FileSystem × Request) :=
  calls.map fun call => (call.1, call.2.request)

/-- The call of a request that is handed an object which says that it passed. -/
def Request.insist : Request → Call
  | .collect c w runs => .collect c w runs
  | .verify ctx => .verify ctx
  | .issue w c certificateId => .issue w c (.object (some (.bool true))) certificateId

theorem Request.insist_request (r : Request) : r.insist.request = r := by
  cases r <;> rfl

/-- A refused request is linked whatever it is handed. -/
theorem Call.linked_of_refused (h : call.request.Refused fs k) : call.Linked fs k s := by
  cases call with
  | collect c w runs => trivial
  | verify ctx => trivial
  | issue w c v certificateId => exact fun hGates => absurd hGates.ready h

/-- A request that insists is linked only where it is refused. -/
theorem Request.refused_of_linked {r : Request} (h : r.insist.Linked fs k s) : r.Refused fs k := by
  cases r with
  | collect c w runs => trivial
  | verify ctx => trivial
  | issue w c certificateId =>
      intro hReady
      obtain ⟨n, ctx, r, hObject, -⟩ := h ⟨rfl, hReady⟩
      cases hObject

theorem linkedRun_of_refused (h : ∀ r ∈ requestsOf calls, r.2.Refused r.1 k) :
    LinkedRun host k s calls := by
  induction calls generalizing s with
  | nil => trivial
  | cons call rest ih =>
      obtain ⟨fs, call⟩ := call
      have hFirst : call.request.Refused fs k := h (fs, call.request) (List.mem_cons_self ..)
      exact ⟨Call.linked_of_refused hFirst, ih fun r hr => h r (List.mem_cons_of_mem _ hr)⟩

theorem refused_of_linkedRun {requests : List (FileSystem × Request)}
    (h : LinkedRun host k s (requests.map fun r => (r.1, r.2.insist))) :
    ∀ r ∈ requests, r.2.Refused r.1 k := by
  induction requests generalizing s with
  | nil => exact fun r hr => absurd hr List.not_mem_nil
  | cons r rest ih =>
      rw [List.forall_mem_cons]
      exact ⟨Request.refused_of_linked h.1, ih h.2⟩

/-- Whatever verifications a run of collections, verifications and issues is handed, each
certificate rests on a passing result of `verify` for its witness and its runs if and only if
the key or the number of runs stops every call of `issue`. -/
theorem verified_whatever_handed_iff (host : Host) (k : HostCertifier)
    (requests : List (FileSystem × Request)) :
    (∀ calls, requestsOf calls = requests → AllVerified (run host k .initial calls)) ↔
      ∀ r ∈ requests, r.2.Refused r.1 k := by
  constructor
  · intro hVerified
    have hLinked := fun calls hCalls => (initial_allVerified_iff calls).mp (hVerified calls hCalls)
    refine refused_of_linkedRun (hLinked _ ?_)
    simp only [requestsOf, List.map_map, Function.comp_def, Request.insist_request, List.map_id']
  · rintro hRefused calls rfl
    exact (initial_allVerified_iff calls).mpr (linkedRun_of_refused hRefused)

end Handed

section Samples

def sampleKey : HostCertifier := ⟨⟨"/", ["keys", "audit.key"]⟩⟩

def keyFiles : MemoryFiles := [(sampleKey.keyPath, ⟨"audit secret", by decide⟩)]

/-- A collection of three runs that saw nothing. -/
def sampleCollection : ReplayCollection where
  witnessHash := "w"
  root := ⟨"/", ["replays", "w"]⟩
  runs := List.replicate 3 {
    index := 1
    passed := true
    artifactDir := ⟨"/", ["replays", "w", "run-1", "repo", "artifacts", "run-1"]⟩
    tracePath := ⟨"/", []⟩
    controlPath := ⟨"/", []⟩
    controlTracePath := ⟨"/", []⟩
    environmentPath := ⟨"/", []⟩
    controlSha256 := "c"
    environmentHash := "e"
    structured := ⟨[], [], [], [], 0, 0, none, none, none, none, 0, ""⟩ }
  observedRecordsSha256 := "o"
  tracePolicySha256 := "t"
  controlSha256 := "c"
  environmentHash := "e"

/-- A certificate is issued on an object that says it passed, where `verify` was never called. -/
theorem issued_without_verification :
    ¬ ∀ (host : Host) (k : HostCertifier) (calls : List (FileSystem × Call)),
      AllVerified (run host k .initial calls) := by
  intro hClaim
  have hGates : GatesOpen keyFiles.fileSystem sampleKey .initial sampleCollection
      (.object (some (.bool true))) :=
    ⟨rfl, by decide, ⟨_, rfl, by decide⟩, ⟨_, rfl⟩, by decide⟩
  have hRun := hClaim Certificates.hexHost sampleKey [(keyFiles.fileSystem,
    .issue (Sample.declaration "") sampleCollection (.object (some (.bool true))) "CERT-001")]
  obtain ⟨n, ctx, r, hObject, -⟩ := ((initial_allVerified_iff _).mp hRun).1 hGates
  cases hObject

end Samples
end L0vi0x.Core.Certifier
