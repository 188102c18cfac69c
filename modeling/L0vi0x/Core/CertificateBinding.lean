import L0vi0x.Python.JsonRoundTrip
import L0vi0x.Core.Certificates

/-! What a certificate binds: the text that is signed determines every field but the time
of issue, for whatever texts the fields hold. -/
namespace L0vi0x.Core.Certificates

open L0vi0x.Python

/-- A certificate with whatever its fields hold, as a copy that is not validated has. -/
structure CertificateRecord where
  id : String
  witnessSha256 : String
  envHash : String
  runs : Int
  observedRecordsSha256 : String
  tracePolicySha256 : String
  controlSha256 : String
  crossCheckSha256 : Option String
  mac : String
  issuedAt : String
  deriving DecidableEq

namespace CertificateRecord

def pairs (r : CertificateRecord) : List (String × Json) :=
  [("id", .str r.id), ("witness_sha256", .str r.witnessSha256), ("env_hash", .str r.envHash),
    ("runs", .int r.runs), ("observed_records_sha256", .str r.observedRecordsSha256),
    ("trace_policy_sha256", .str r.tracePolicySha256), ("control_sha256", .str r.controlSha256),
    ("cross_check_sha256", textOrNull r.crossCheckSha256)]

def fields (r : CertificateRecord) : Fields := dictOf r.pairs

def verify (host : Host) (r : CertificateRecord) (key : Bytes) (b : Binding) : Py Bool :=
  if r.witnessSha256 != b.witnessSha256 || r.envHash != b.envHash || r.runs < 3 then pure false
  else if differs b.observedRecordsSha256 (some r.observedRecordsSha256) then pure false
  else if differs b.tracePolicySha256 (some r.tracePolicySha256) then pure false
  else if differs b.controlSha256 (some r.controlSha256) then pure false
  else if differs b.crossCheckSha256 r.crossCheckSha256 then pure false
  else compareDigest r.mac (host.hmacSha256 key (canonical r.fields))

/-- The comparisons that a record asks for when it is verified against its own values. -/
def binding (r : CertificateRecord) : Binding where
  witnessSha256 := r.witnessSha256
  envHash := r.envHash
  observedRecordsSha256 := some r.observedRecordsSha256
  tracePolicySha256 := some r.tracePolicySha256
  controlSha256 := some r.controlSha256
  crossCheckSha256 := r.crossCheckSha256

end CertificateRecord

/-- A validated certificate, issued at some time, as a record. -/
def recordOf (cert : ReplayCertificate) (issuedAt : String) : CertificateRecord where
  id := cert.id
  witnessSha256 := cert.witnessSha256
  envHash := cert.envHash
  runs := cert.runs
  observedRecordsSha256 := cert.observedRecordsSha256
  tracePolicySha256 := cert.tracePolicySha256
  controlSha256 := cert.controlSha256
  crossCheckSha256 := cert.crossCheckSha256
  mac := cert.mac
  issuedAt := issuedAt

/-- Validated certificates are verified as their records are. -/
theorem verify_eq_record (host : Host) (cert : ReplayCertificate) (issuedAt : String) (key : Bytes)
    (b : Binding) : verify host cert key b = (recordOf cert issuedAt).verify host key b := rfl

structure IssueFields where
  certificateId : String
  witnessSha256 : String
  envHash : String
  runs : Int
  observedRecordsSha256 : String
  tracePolicySha256 : String
  controlSha256 : String
  crossCheckSha256 : Option String

def IssueFields.signed (a : IssueFields) : Fields := dictOf
  [("id", .str a.certificateId), ("witness_sha256", .str a.witnessSha256),
    ("env_hash", .str a.envHash), ("runs", .int a.runs),
    ("observed_records_sha256", .str a.observedRecordsSha256),
    ("trace_policy_sha256", .str a.tracePolicySha256), ("control_sha256", .str a.controlSha256),
    ("cross_check_sha256", textOrNull a.crossCheckSha256)]

def issue (host : Host) (key : Bytes) (a : IssueFields) : Py ReplayCertificate :=
  if h : a.runs < 3 then raise .valueError "replay certificates require at least three runs"
  else pure {
    id := a.certificateId
    witnessSha256 := a.witnessSha256
    envHash := a.envHash
    runs := a.runs
    observedRecordsSha256 := a.observedRecordsSha256
    tracePolicySha256 := a.tracePolicySha256
    controlSha256 := a.controlSha256
    crossCheckSha256 := a.crossCheckSha256
    mac := host.hmacSha256 key (canonical a.signed)
    atLeastThree := Int.not_lt.mp h }

/-- The values that were issued, as what `verify` is asked to compare. -/
def IssueFields.binding (a : IssueFields) : Binding where
  witnessSha256 := a.witnessSha256
  envHash := a.envHash
  observedRecordsSha256 := some a.observedRecordsSha256
  tracePolicySha256 := some a.tracePolicySha256
  controlSha256 := some a.controlSha256
  crossCheckSha256 := a.crossCheckSha256

section Binding

variable {host : Host} {key : Bytes}

/-- A text is ASCII when each of its characters is. -/
theorem isAscii_iff {s : String} : isAscii s = true ↔ ∀ c ∈ s.toList, c.toNat < 128 := by
  simp [isAscii]

/-- What `hmac` gives is hexadecimal, so ASCII. -/
theorem isAscii_hmac (raw : Bytes) : isAscii (host.hmacSha256 key raw) = true :=
  isAscii_iff.mpr (host.hmac_ascii key raw)

theorem compareDigest_ascii {a b : String} (ha : isAscii a = true) (hb : isAscii b = true) :
    compareDigest a b = .ok (decide (a = b)) := by
  rw [compareDigest, ha, hb]
  rfl

/-- Nothing differs from itself. -/
theorem differs_self (s : Option String) : differs s s = false := by
  simp [differs]

/-- What was issued is verified against the values it was issued for. -/
theorem verify_issued {a : IssueFields} {cert : ReplayCertificate} (h : issue host key a = .ok cert) :
    verify host cert key a.binding = .ok true := by
  unfold issue at h
  split at h
  · cases h
  · rename_i hRuns
    rw [pure_eq_ok] at h
    subst h
    simp only [verify, IssueFields.binding, differs_self, bne_self_eq_false, Bool.false_or,
      decide_eq_true_eq, if_neg hRuns, Bool.false_eq_true, if_false]
    exact (compareDigest_ascii (isAscii_hmac _) (isAscii_hmac _)).trans
      (congrArg Except.ok (decide_eq_true rfl))

theorem textOrNull_normal (s : Option String) : (textOrNull s).Normal := by
  cases s <;> trivial

theorem textOrNull_injective : Function.Injective textOrNull := by
  intro s t h
  cases s <;> cases t <;> simp_all [textOrNull]

theorem CertificateRecord.fields_normal (r : CertificateRecord) : (Json.obj r.fields).Normal := by
  refine normal_dictOf ?_
  simp only [CertificateRecord.pairs, List.forall_mem_cons, List.not_mem_nil, false_implies, implies_true, and_true]
  exact ⟨trivial, trivial, trivial, trivial, trivial, trivial, trivial, textOrNull_normal _⟩

/-- The signed text determines the fields. -/
theorem canonical_injective {r s : CertificateRecord} (h : canonical r.fields = canonical s.fields) :
    r.fields = s.fields :=
  Json.obj.inj (Json.dumps_injective r.fields_normal s.fields_normal (encodeUtf8_injective h))

/-- The dictionary holds every field but the mac and the time. -/
theorem eq_of_fields {r s : CertificateRecord} (h : r.fields = s.fields) (hMac : r.mac = s.mac) :
    s = { r with issuedAt := s.issuedAt } := by
  have hEach : ∀ key, lookupLast key r.pairs = lookupLast key s.pairs := fun key => by
    rw [← getField?_dictOf, ← getField?_dictOf]
    exact congrArg (getField? key) h
  have hId := hEach "id"
  have hWitness := hEach "witness_sha256"
  have hEnv := hEach "env_hash"
  have hRuns := hEach "runs"
  have hObserved := hEach "observed_records_sha256"
  have hPolicy := hEach "trace_policy_sha256"
  have hControl := hEach "control_sha256"
  have hCross := hEach "cross_check_sha256"
  simp [CertificateRecord.pairs, lookupLast] at hId hWitness hEnv hRuns hObserved hPolicy hControl hCross
  have hCross := textOrNull_injective hCross
  cases r
  cases s
  simp_all

/-- A record that is verified carries the mac of its own fields, and stands for three runs. -/
theorem mac_of_verified {r : CertificateRecord} {b : Binding}
    (h : r.verify host key b = .ok true) :
    r.mac = host.hmacSha256 key (canonical r.fields) ∧ 3 ≤ r.runs := by
  unfold CertificateRecord.verify at h
  split at h
  · cases h
  · rename_i hFirst
    have hRuns : 3 ≤ r.runs := by
      simp only [Bool.or_eq_true, decide_eq_true_eq, not_or] at hFirst
      omega
    split at h
    · cases h
    · split at h
      · cases h
      · split at h
        · cases h
        · split at h
          · cases h
          · unfold compareDigest at h
            split at h
            · rw [pure_eq_ok, decide_eq_true_eq] at h
              exact ⟨h, hRuns⟩
            · cases h

/-- A record with an ASCII mac is verified or refused. -/
theorem verify_false {r : CertificateRecord} {b : Binding} (hAscii : isAscii r.mac = true)
    (h : r.verify host key b ≠ .ok true) : r.verify host key b = .ok false := by
  unfold CertificateRecord.verify at h ⊢
  split
  · rfl
  · split
    · rfl
    · split
      · rfl
      · split
        · rfl
        · split
          · rfl
          · rename_i h₁ h₂ h₃ h₄ h₅
            rw [if_neg h₁, if_neg h₂, if_neg h₃, if_neg h₄, if_neg h₅,
              compareDigest_ascii hAscii (isAscii_hmac _)] at h
            rw [compareDigest_ascii hAscii (isAscii_hmac _)]
            cases hSame : decide (r.mac = host.hmacSha256 key (canonical r.fields)) with
            | true => exact absurd (congrArg Except.ok hSame) h
            | false => rfl

/-- A certificate of at least three runs is issued. -/
theorem issue_returns {a : IssueFields} (h : 3 ≤ a.runs) : ∃ cert, issue host key a = .ok cert := by
  rw [issue, dif_neg (Int.not_lt.mpr h)]
  exact ⟨_, rfl⟩

/-- The MAC of an issued certificate is ASCII. -/
theorem isAscii_issued {a : IssueFields} {cert : ReplayCertificate}
    (h : issue host key a = .ok cert) : isAscii cert.mac = true := by
  unfold issue at h
  split at h
  · cases h
  · rw [pure_eq_ok] at h
    subst h
    exact isAscii_hmac _

/-- What is issued is verified against the same values. Verified certificates with one mac
agree in every field but the time, so an issued one that is changed anywhere else is
refused; and none stands for less than three runs. -/
theorem certificates_bind (host : Host) (hHmac : ∀ key, Function.Injective (host.hmacSha256 key))
    (key : Bytes) :
    (∀ a : IssueFields, 3 ≤ a.runs → ∃ cert, issue host key a = .ok cert ∧
      verify host cert key a.binding = .ok true) ∧
    (∀ (r s : CertificateRecord) (b c : Binding), r.mac = s.mac →
      r.verify host key b = .ok true → s.verify host key c = .ok true →
      s = { r with issuedAt := s.issuedAt }) ∧
    (∀ (a : IssueFields) (cert : ReplayCertificate), issue host key a = .ok cert →
      ∀ changed : CertificateRecord, changed.mac = cert.mac →
      changed ≠ recordOf cert changed.issuedAt →
      ∀ b, changed.verify host key b = .ok false) ∧
    (∀ (r : CertificateRecord) (b : Binding), r.verify host key b = .ok true → 3 ≤ r.runs) := by
  have hSame : ∀ (r s : CertificateRecord) (b c : Binding), r.mac = s.mac →
      r.verify host key b = .ok true → s.verify host key c = .ok true →
      s = { r with issuedAt := s.issuedAt } := by
    intro r s b c hMac hr hs
    have hText : canonical r.fields = canonical s.fields := by
      refine hHmac key ?_
      rw [← (mac_of_verified hr).1, ← (mac_of_verified hs).1, hMac]
    exact eq_of_fields (canonical_injective hText) hMac
  refine ⟨?_, hSame, ?_, fun r b h => (mac_of_verified h).2⟩
  · intro a hRuns
    obtain ⟨cert, hIssue⟩ := @issue_returns host key a hRuns
    exact ⟨cert, hIssue, verify_issued hIssue⟩
  · intro a cert hIssue changed hMac hChanged b
    refine verify_false (hMac ▸ isAscii_issued hIssue) fun hVerified => hChanged ?_
    exact hSame (recordOf cert changed.issuedAt) changed a.binding b hMac.symm (verify_issued hIssue)
      hVerified

theorem hexDigit_ascii : ∀ n < 16, (hexDigit n).toNat < 128 := by decide

/-- A host whose mac is the signed text itself, in hexadecimal digits. -/
def hexHost : Host :=
  { Host.digesting hexOfBytes with
    hmacSha256 := fun _ raw => hexOfBytes raw
    hmac_ascii := by
      intro _ raw c hc
      obtain ⟨n, hn, rfl⟩ := hexOfBytes_chars hc
      exact hexDigit_ascii n hn }

/-- The arguments of a certificate of three runs. -/
def sampleFields : IssueFields := ⟨"CERT-001", "w", "e", 3, "o", "t", "c", none⟩

/-- A certificate of three runs is refused when it is said to stand for four. -/
theorem changed_runs_refused : ∃ cert, issue hexHost [0] sampleFields = .ok cert ∧
    ({ recordOf cert "now" with runs := 4 } : CertificateRecord).verify hexHost [0]
      sampleFields.binding = .ok false := by
  obtain ⟨hIssue, -, hChanged, -⟩ :=
    certificates_bind hexHost (fun _ => hexOfBytes_injective) [0]
  obtain ⟨cert, hCert, hVerified⟩ := hIssue sampleFields (by decide)
  have hRuns : cert.runs = 3 := by
    cases hCert
    rfl
  refine ⟨cert, hCert, hChanged sampleFields cert hCert _ rfl (fun h => ?_) _⟩
  have hSame : (4 : Int) = cert.runs := congrArg CertificateRecord.runs h
  omega

end Binding
end L0vi0x.Core.Certificates
