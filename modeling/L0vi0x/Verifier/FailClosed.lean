import L0vi0x.Verifier.ReplayAgreement

/-! When a verification returns. The derivations of V04, V07 and V09 are wrapped; what the
other stages call may raise, and whether it does is a question about the evidence. -/
namespace L0vi0x.Verifier

open L0vi0x.Python L0vi0x.Core L0vi0x.Chain

variable {host : Host} {fs : FileSystem} {ctx : VerificationContext} {replay : ReplayEvidence}
  {runs : List DerivedReplayRun} {run : DerivedReplayRun}

def VerificationContext.policyPath (ctx : VerificationContext) : Path :=
  ctx.currentPolicyPath.getD (Path.ofText "config/policy/cheatcode_policy.yaml")

/-- The policy, catalog and price files are readable mappings. -/
structure ReadableMappings (host : Host) (fs : FileSystem) (ctx : VerificationContext) : Prop where
  policy : ∃ rules, loadYaml host fs ctx.policyPath = .ok (.obj rules)
  catalog : ∀ p, ctx.cheatcodeCatalogPath = some p → ∃ entries, loadYaml host fs p = .ok (.obj entries)
  prices : ∀ p, ctx.priceEvidencePath = some p →
    ∃ entries, (fs.readText p >>= Json.loads) = .ok (.obj entries)

section Spans

variable {root : Path} {span : Span}

/-- The cited path resolves, and its file can be looked up. -/
def SpanReadable (fs : FileSystem) (root : Path) (file : String) : Prop :=
  ∃ p inside, fs.resolve (root.join file) = .ok p ∧ staysInside fs p root = .ok inside ∧
    (inside = true → returns (fs.isFile p))

/-- A file fails to be read with an `OSError` or a `UnicodeDecodeError`. -/
theorem readText_error {p : Path} {e : PyError} (h : fs.readText p = .error e) :
    e.kind = .osError ∨ e.kind = .unicodeDecodeError := by
  unfold FileSystem.readText FileSystem.readBytes FileSystem.systemCall at h
  cases hRead : fs.readAt (fs.real p) with
  | error message =>
      rw [hRead] at h
      cases h
      exact .inl rfl
  | ok raw =>
      simp only [hRead, bind, Except.bind, pure, Except.pure] at h
      cases hDecode : decodeUtf8? raw with
      | some s => simp [hDecode] at h
      | none =>
          rw [hDecode] at h
          cases h
          exact .inr rfl

/-- A cited span fails with an `OSError`, a `UnicodeDecodeError` or an `IndexError`. -/
theorem rangeHash_error {p : Path} {first last : Int} {e : PyError}
    (h : rangeHash host fs p first last = .error e) :
    e.kind = .osError ∨ e.kind = .unicodeDecodeError ∨ e.kind = .indexError := by
  unfold rangeHash at h
  cases hRead : fs.readText p with
  | error other =>
      rw [hRead] at h
      cases h
      exact (readText_error hRead).imp_right .inl
  | ok text =>
      by_cases hRange : first < 1 ∨ last > (splitLines text).length
      · simp only [hRead, hRange, decide_true, raiseIf, raise, bind, Except.bind, ↓reduceIte,
          Except.error.injEq] at h
        exact .inr (.inr (h ▸ rfl))
      · simp [hRead, hRange, raiseIf, bind, Except.bind, pure, Except.pure] at h

theorem checkSpan_returns_iff :
    returns (checkSpan host fs root span) ↔ SpanReadable fs root span.file := by
  simp only [checkSpan, returns_bind, SpanReadable]
  constructor
  · rintro ⟨p, hp, inside, hInside, h⟩
    refine ⟨p, inside, hp, hInside, ?_⟩
    rintro rfl
    simp only [Bool.not_true, Bool.false_eq_true, ↓reduceIte, returns_bind] at h
    obtain ⟨present, hPresent, _⟩ := h
    exact ⟨present, hPresent⟩
  · rintro ⟨p, inside, hp, hInside, hFile⟩
    refine ⟨p, hp, inside, hInside, ?_⟩
    cases inside with
    | false => exact ⟨_, rfl⟩
    | true =>
        obtain ⟨present, hPresent⟩ := hFile rfl
        simp only [Bool.not_true, Bool.false_eq_true, ↓reduceIte, returns_bind]
        refine ⟨present, hPresent, ?_⟩
        cases present with
        | false => exact ⟨_, rfl⟩
        | true =>
            cases hHash : rangeHash host fs p span.startLine span.endLine with
            | error e =>
                simp only [Bool.not_true, Bool.false_eq_true, ↓reduceIte, rangeHash_error hHash]
                exact ⟨_, rfl⟩
            | ok actual =>
                simp only [Bool.not_true, Bool.false_eq_true, ↓reduceIte]
                split
                all_goals exact ⟨_, rfl⟩

end Spans

section Builds

/-- V03 builds the project itself, without error. -/
def ForgePasses (host : Host) (ctx : VerificationContext) : Prop :=
  ∃ report, host.forgeBuild ctx.root.text = .ok report ∧ report.passed = true

/-- V03 returns when build evidence that is missing is not asked for its tools. -/
theorem checkBuild_returns_iff :
    returns (checkBuild host ctx) ↔
      (ctx.build = none → ForgePasses host ctx → ctx.toolLockPath = none) := by
  unfold checkBuild
  split
  · rename_i build hBuild
    refine iff_of_true ?_ fun hNone => ?_
    · split
      · exact ⟨_, rfl⟩
      · split
        all_goals exact ⟨_, rfl⟩
    · rw [hBuild] at hNone
      cases hNone
  · rename_i hBuild
    split
    · rename_i message hForge
      refine iff_of_true ⟨_, rfl⟩ ?_
      rintro _ ⟨report, hReport, _⟩
      rw [hForge] at hReport
      cases hReport
    · rename_i report hForge
      have hPasses : ForgePasses host ctx ↔ report.passed = true := by
        constructor
        · rintro ⟨other, hOther, hPassed⟩
          rw [hForge, Except.ok.injEq] at hOther
          rwa [hOther]
        · intro hPassed
          exact ⟨report, hForge, hPassed⟩
      rw [hPasses]
      cases report.passed with
      | false => exact iff_of_true ⟨_, rfl⟩ (fun _ h => by cases h)
      | true =>
          cases ctx.toolLockPath with
          | none => exact iff_of_true ⟨_, rfl⟩ fun _ _ => rfl
          | some p => exact iff_of_false (not_returns_error _) fun h => by cases h hBuild rfl

end Builds

section Certificates

/-- V04 gets as far as the MAC: the certificate is for this witness and these digests. -/
structure CertificateBound (host : Host) (w : Witness) (replay : ReplayEvidence)
    (policy : Option String) (envHash controlSha aggregate : String) (cert : ReplayCertificate)
    (key : Bytes) : Prop where
  certificate : replay.certificate = some cert
  certificateKey : replay.certificateKey = some key
  environment : cert.envHash = envHash
  control : cert.controlSha256 = controlSha
  records : cert.observedRecordsSha256 = aggregate
  policy : ∀ sha, policy = some sha → cert.tracePolicySha256 = sha
  witness : cert.witnessSha256 = witnessHash host w

/-- `compare_digest` returns when the text that it is given is ASCII. -/
theorem compareDigest_returns_iff {a : String} {key raw : Bytes} :
    returns (Certificates.compareDigest a (host.hmacSha256 key raw)) ↔
      Certificates.isAscii a = true := by
  have hMac : Certificates.isAscii (host.hmacSha256 key raw) = true := by
    simpa [Certificates.isAscii] using host.hmac_ascii key raw
  rw [Certificates.compareDigest, hMac, Bool.and_true]
  cases Certificates.isAscii a with
  | true => exact iff_of_true ⟨_, rfl⟩ rfl
  | false => exact iff_of_false (not_returns_error _) Bool.false_ne_true

/-- The certificate is verified without error when its MAC is ASCII, or it is of another witness. -/
theorem verify_returns_iff_ascii {w : Witness} {cert : ReplayCertificate} {key : Bytes} :
    returns (Certificates.verify host cert key (derivedBinding w cert cert.envHash
        cert.controlSha256 cert.observedRecordsSha256 host)) ↔
      (cert.witnessSha256 = witnessHash host w → Certificates.isAscii cert.mac = true) := by
  have hRuns : ¬ cert.runs < 3 := not_lt.mpr cert.atLeastThree
  by_cases hWitness : cert.witnessSha256 = witnessHash host w
  · simp [Certificates.verify, derivedBinding, Certificates.differs, hWitness, hRuns,
      compareDigest_returns_iff]
  · refine iff_of_true ?_ fun h => absurd h hWitness
    simp [Certificates.verify, derivedBinding, hWitness, pure, Except.pure]

/-- V04 returns when every certificate that it compares has a MAC that can be compared. -/
theorem checkCertificate_returns_iff {w : Witness} {policy : Option String}
    {envHash controlSha aggregate : String} {passed : CheckResult} :
    returns (checkCertificate host w replay policy envHash controlSha aggregate passed) ↔
      ∀ cert key, CertificateBound host w replay policy envHash controlSha aggregate cert key →
        Certificates.isAscii cert.mac = true := by
  unfold checkCertificate
  split
  · rename_i cert key hCert hKey
    have hOnly : (∀ cert' key', CertificateBound host w replay policy envHash controlSha aggregate
          cert' key' → Certificates.isAscii cert'.mac = true) ↔
        (CertificateBound host w replay policy envHash controlSha aggregate cert key →
          Certificates.isAscii cert.mac = true) := by
      refine ⟨fun h => h cert key, fun h cert' key' hBound => ?_⟩
      obtain rfl := Option.some.inj (hCert.symm.trans hBound.certificate)
      obtain rfl := Option.some.inj (hKey.symm.trans hBound.certificateKey)
      exact h hBound
    rw [hOnly]
    split
    · rename_i hDiffers
      refine iff_of_true ⟨_, rfl⟩ fun hBound => absurd hDiffers ?_
      simp [hBound.environment, hBound.control, hBound.records, cert.atLeastThree]
    · rename_i hSame
      simp only [not_or, not_lt, ne_eq, not_not] at hSame
      obtain ⟨_, rfl, rfl, rfl⟩ := hSame
      split
      · rename_i hPolicy
        refine iff_of_true ⟨_, rfl⟩ fun hBound => absurd hPolicy.2 ?_
        obtain ⟨sha, hSha⟩ := Option.isSome_iff_exists.mp hPolicy.1
        rw [not_not, hSha, hBound.policy sha hSha]
      · rename_i hPolicy
        have hReturns := @verify_returns_iff_ascii host w cert key
        have hSame : ∀ sha, policy = some sha → cert.tracePolicySha256 = sha := by
          rintro sha rfl
          exact Eq.symm (by simpa using hPolicy)
        rw [returns_bind]
        constructor
        · rintro ⟨valid, hValid, _⟩ hBound
          exact hReturns.mp ⟨valid, hValid⟩ hBound.witness
        · intro h
          obtain ⟨valid, hValid⟩ := hReturns.mpr fun hWitness =>
            h ⟨hCert, hKey, rfl, rfl, rfl, hSame, hWitness⟩
          exact ⟨valid, hValid, _, rfl⟩
  · rename_i hMissing
    refine iff_of_true ⟨_, rfl⟩ fun cert key hBound => ?_
    exact absurd hBound.certificateKey (hMissing cert key hBound.certificate)

/-- The runs agree in their digests, and their environment is the declared one. -/
structure RunsAgree (host : Host) (ctx : VerificationContext) (runs : List DerivedReplayRun) :
    Prop where
  environments : agree (runDigests host runs).environments = true
  records : agree (runDigests host runs).records = true
  controls : agree (runDigests host runs).controls = true
  declared : (runDigests host runs).environments.headD "" = ctx.witness.envHash

/-- The policy and the catalog that V04 digests can be written with their keys sorted. -/
def DocumentsPrintable (host : Host) (fs : FileSystem) (ctx : VerificationContext) : Prop :=
  ∀ policyPath catalogPath, ctx.currentPolicyPath = some policyPath →
    ctx.cheatcodeCatalogPath = some catalogPath →
      ∀ p ∈ [policyPath, catalogPath], ∀ d, loadDocument host fs p = .ok d → d.Printable

/-- The MAC of a certificate that V04 compares is a text that can be compared. -/
def MacComparable (host : Host) (fs : FileSystem) (ctx : VerificationContext)
    (replay : ReplayEvidence) (runs : List DerivedReplayRun) : Prop :=
  ctx.requireCertificate = true → ∀ policy cert key, expectedPolicy host fs ctx = .ok policy →
    CertificateBound host ctx.witness replay policy ctx.witness.envHash
        ((runDigests host runs).controls.headD "")
        (aggregateSha256 host (runDigests host runs).records) cert key →
      Certificates.isAscii cert.mac = true

/-- What looks up reads a document. -/
theorem loadYaml_eq_ok {p : Path} {j : Json} :
    loadYaml host fs p = .ok j ↔ ∃ d, loadDocument host fs p = .ok d ∧ d.lookups = j := by
  rw [loadYaml, bind_eq_ok]
  simp only [pure_eq_ok]

/-- The digest of readable documents is taken just when both can be written. -/
theorem ReadableMappings.returns_expectedPolicy (h : ReadableMappings host fs ctx) :
    returns (expectedPolicy host fs ctx) ↔ DocumentsPrintable host fs ctx := by
  unfold expectedPolicy
  split
  · rename_i policyPath catalogPath hPolicy hCatalog
    obtain ⟨rules, hRules⟩ := h.policy
    obtain ⟨entries, hEntries⟩ := h.catalog catalogPath hCatalog
    rw [VerificationContext.policyPath, hPolicy, Option.getD_some] at hRules
    obtain ⟨policy, hPolicyLoads, -⟩ := loadYaml_eq_ok.mp hRules
    obtain ⟨catalog, hCatalogLoads, -⟩ := loadYaml_eq_ok.mp hEntries
    have hBoth : DocumentsPrintable host fs ctx ↔ policy.Printable ∧ catalog.Printable := by
      constructor
      · intro hAll
        exact ⟨hAll _ _ hPolicy hCatalog _ (List.mem_cons_self ..) _ hPolicyLoads,
          hAll _ _ hPolicy hCatalog _ (List.mem_cons_of_mem _ (List.mem_cons_self ..)) _
            hCatalogLoads⟩
      · rintro ⟨hFirst, hSecond⟩ policyPath' catalogPath' hPolicy' hCatalog' p hp d hd
        obtain rfl := Option.some.inj (hPolicy.symm.trans hPolicy')
        obtain rfl := Option.some.inj (hCatalog.symm.trans hCatalog')
        rcases List.mem_cons.mp hp with rfl | hp
        · exact Except.ok.inj (hPolicyLoads.symm.trans hd) ▸ hFirst
        · obtain rfl := List.mem_singleton.mp hp
          exact Except.ok.inj (hCatalogLoads.symm.trans hd) ▸ hSecond
    rw [hBoth, ← YamlDocument.returns_sorted, ← YamlDocument.returns_sorted, returns_map,
      policyHash]
    simp only [hPolicyLoads, hCatalogLoads, returns_bind, Except.ok.injEq, exists_eq_left']
    constructor
    · rintro ⟨first, hFirst, second, hSecond, -⟩
      exact ⟨⟨first, hFirst⟩, second, hSecond⟩
    · rintro ⟨⟨first, hFirst⟩, second, hSecond⟩
      exact ⟨first, hFirst, second, hSecond, _, rfl⟩
  · rename_i hNone
    exact iff_of_true ⟨none, rfl⟩ fun policyPath catalogPath hPolicy hCatalog =>
      absurd hCatalog (hNone policyPath catalogPath hPolicy)

/-- V04 returns just when, where the runs agree, the documents that it digests can be written
and the MAC that it compares can be compared. -/
theorem checkReplay_returns_iff (h : ReadableMappings host fs ctx) :
    returns (checkReplay host fs ctx replay runs) ↔ (RunsAgree host ctx runs →
      DocumentsPrintable host fs ctx ∧ MacComparable host fs ctx replay runs) := by
  unfold checkReplay
  simp only
  split
  · rename_i hNot
    exact iff_of_true ⟨_, rfl⟩ fun hAgree => absurd hAgree.environments (by simpa using hNot)
  rename_i hEnvironments
  split
  · rename_i hNot
    exact iff_of_true ⟨_, rfl⟩ fun hAgree => absurd hAgree.records (by simpa using hNot)
  rename_i hRecords
  split
  · rename_i hNot
    exact iff_of_true ⟨_, rfl⟩ fun hAgree => absurd hAgree.controls (by simpa using hNot)
  rename_i hControls
  split
  · rename_i hNot
    exact iff_of_true ⟨_, rfl⟩ fun hAgree => absurd hAgree.declared hNot
  rename_i hDeclared
  rw [not_not] at hDeclared
  have hAgree : RunsAgree host ctx runs := ⟨by simpa using hEnvironments, by simpa using hRecords,
    by simpa using hControls, hDeclared⟩
  rw [forall_prop_of_true hAgree, ← h.returns_expectedPolicy, returns_bind]
  cases hPolicy : expectedPolicy host fs ctx with
  | error e =>
      exact iff_of_false (fun ⟨_, hOk, _⟩ => nomatch hOk) fun h => not_returns_error e h.1
  | ok policy =>
      simp only [Except.ok.injEq, exists_eq_left']
      rw [and_iff_right (returns_ok policy), MacComparable]
      split
      · rename_i hRequired
        rw [hDeclared, checkCertificate_returns_iff]
        constructor
        · intro hAll _ policy' cert key hPolicy' hBound
          rw [hPolicy, Except.ok.injEq] at hPolicy'
          subst hPolicy'
          exact hAll cert key hBound
        · intro hAll cert key hBound
          exact hAll hRequired policy cert key hPolicy hBound
      · rename_i hNot
        exact iff_of_true ⟨_, rfl⟩ fun hRequired => absurd hRequired hNot

end Certificates

section Runs

variable {w : Witness} {attack control : TraceSummary}

def requiredIds (w : Witness) : List String := (w.required.map (·.id)).dedup

/-- The control run shows one event for every required assertion and none of the attack's. -/
structure ControlComplete (control : TraceSummary) (w : Witness) : Prop where
  readable : ∀ log ∈ allLogs control.frames, log.isObj = true
  counted : ((allLogs control.frames).filter (isEvent "ControlObserved")).length =
    (requiredIds w).length
  named : sameElements (eventIds ((allLogs control.frames).filter (isEvent "ControlObserved")))
    (requiredIds w) = true
  unclaimed : ∀ e ∈ control.assertionEvents,
    ((Json.obj e).getD "id" .null).text ∉ requiredIds w

theorem deriveControl_returns_iff :
    returns (deriveControl attack control w) ↔ ControlComplete control w := by
  have hIds : (w.required.map (·.id)).dedup = requiredIds w := rfl
  simp only [deriveControl, returns, hIds, bind_eq_ok, raiseIf_eq_ok, pure_eq_ok, scanLogs_eq_ok]
  constructor
  · rintro ⟨_, events, ⟨hLogs, rfl⟩, _, hCount, _, hNames, _, hNone, _⟩
    refine ⟨hLogs, by simpa using hCount, by simpa using hNames, ?_⟩
    simpa [List.filter_eq_nil_iff] using hNone
  · intro h
    refine ⟨_, _, ⟨h.readable, rfl⟩, (), by simpa using h.counted, (), by simpa using h.named, (),
      ?_, rfl⟩
    simpa [List.filter_eq_nil_iff] using h.unclaimed

/-- The errors that V05 reports as a violation. -/
def ErrorKind.reported (kind : ErrorKind) : Prop :=
  kind = .tracePolicyError ∨ kind = .osError ∨ kind = .yamlError

/-- The configuration is a text, and its policy refuses a trace only with a reported error. -/
structure PolicyApplicable (host : Host) (fs : FileSystem) (ctx : VerificationContext)
    (run : DerivedReplayRun) : Prop where
  readable : ∀ e, fs.readText (run.root.join "foundry.toml") = .error e → e.kind = .osError
  refusals : ∀ text document rules, fs.readText (run.root.join "foundry.toml") = .ok text →
    (requiredFragments.any fun fragment => !containsText text fragment) = false →
    loadYaml host fs ctx.policyPath = .ok document → document.attrGet "rules" (.obj []) = .ok rules →
    ∀ e, enforceCheatcodePolicy run.trace ctx.witness.witnessClass rules ctx.witness.forkBlock =
      .error e → ErrorKind.reported e.kind

/-- The policy of the context refuses the trace of a run, if at all, with a reported error. -/
def RefusesReported (ctx : VerificationContext) (run : DerivedReplayRun) (rules : Json) : Prop :=
  ∀ e, enforceCheatcodePolicy run.trace ctx.witness.witnessClass rules ctx.witness.forkBlock =
    .error e → ErrorKind.reported e.kind

/-- Where the configuration cannot be read, this must be an `OSError`. -/
theorem policyApplicable_unread {e : PyError}
    (hText : fs.readText (run.root.join "foundry.toml") = .error e) :
    PolicyApplicable host fs ctx run ↔ e.kind = .osError := by
  constructor
  · intro hApplicable
    exact hApplicable.readable e hText
  · intro hOs
    refine ⟨fun e' he' => ?_, fun text _ _ hOk => ?_⟩
    · rw [hText, Except.error.injEq] at he'
      exact he' ▸ hOs
    · rw [hText] at hOk
      cases hOk

/-- Where it is read, with the required fragments, the policy must not refuse otherwise. -/
theorem policyApplicable_read {text : String} {document rules : Json}
    (hText : fs.readText (run.root.join "foundry.toml") = .ok text)
    (hDocument : loadYaml host fs ctx.policyPath = .ok document)
    (hRules : document.attrGet "rules" (.obj []) = .ok rules) :
    PolicyApplicable host fs ctx run ↔
      ((requiredFragments.any fun fragment => !containsText text fragment) = false →
        RefusesReported ctx run rules) := by
  constructor
  · intro hApplicable hFragments
    exact hApplicable.refusals text document rules hText hFragments hDocument hRules
  · intro hOnly
    refine ⟨fun e he => ?_, fun text' document' rules' hOk hFragments hLoaded hGet => ?_⟩
    · rw [hText] at he
      cases he
    · rw [hText, Except.ok.injEq] at hOk
      rw [hDocument, Except.ok.injEq] at hLoaded
      subst hLoaded
      rw [hRules, Except.ok.injEq] at hGet
      subst hGet
      exact hOnly (hOk ▸ hFragments)

/-- V05 returns when what it reads of the run is applicable. -/
theorem checkPolicy_returns_iff (h : ReadableMappings host fs ctx) :
    returns (checkPolicy host fs run.trace ctx.witness.witnessClass ctx.policyPath
        (run.root.join "foundry.toml") ctx.witness.forkBlock) ↔
      PolicyApplicable host fs ctx run := by
  obtain ⟨document, hDocument⟩ := h.policy
  have hRules : (Json.obj document).attrGet "rules" (.obj []) =
      .ok ((getField? "rules" document).getD (.obj [])) := rfl
  unfold checkPolicy
  cases hText : fs.readText (run.root.join "foundry.toml") with
  | error e =>
      rw [policyApplicable_unread hText]
      dsimp only
      split
      · rename_i hOs
        exact iff_of_true ⟨_, rfl⟩ hOs
      · rename_i hOther
        exact iff_of_false (not_returns_error _) hOther
  | ok text =>
      rw [policyApplicable_read hText hDocument hRules, RefusesReported]
      have hApply : applyPolicy host fs run.trace ctx.witness.witnessClass ctx.policyPath
          ctx.witness.forkBlock = enforceCheatcodePolicy run.trace ctx.witness.witnessClass
            ((getField? "rules" document).getD (.obj [])) ctx.witness.forkBlock := by
        rw [applyPolicy, hDocument]
        rfl
      rw [hApply]
      dsimp only
      split
      · rename_i hMissing
        exact iff_of_true ⟨_, rfl⟩ fun hNone => by simp [hNone] at hMissing
      · rename_i hPresent
        rw [Bool.not_eq_true] at hPresent
        cases enforceCheatcodePolicy run.trace ctx.witness.witnessClass
            ((getField? "rules" document).getD (.obj [])) ctx.witness.forkBlock with
        | ok u => exact iff_of_true ⟨_, rfl⟩ fun _ e he => by cases he
        | error e =>
            dsimp only
            split
            · rename_i hCaught
              refine iff_of_true ⟨_, rfl⟩ fun _ e' he => ?_
              rw [← Except.error.inj he]
              exact hCaught
            · rename_i hOther
              exact iff_of_false (not_returns_error _) fun hAll => hOther (hAll hPresent e rfl)

/-- What V05 and V06 read of a run, as far as they get. -/
structure RunReadable (host : Host) (fs : FileSystem) (ctx : VerificationContext)
    (run : DerivedReplayRun) : Prop where
  config : returns (fs.isFile (run.root.join "foundry.toml"))
  policy : fs.isFile (run.root.join "foundry.toml") = .ok true → PolicyApplicable host fs ctx run
  control : fs.isFile (run.root.join "foundry.toml") = .ok true →
    Passes (checkPolicy host fs run.trace ctx.witness.witnessClass ctx.policyPath
      (run.root.join "foundry.toml") ctx.witness.forkBlock) →
    ControlComplete run.controlTrace ctx.witness

/-- A stage that passes returns when the rest does; one that blocks ends the verification. -/
theorem returns_gate {checks : List CheckResult} {current : CheckResult}
    {next : List CheckResult → Py VerificationResult} :
    returns (gate checks current next) ↔
      (current.blocks = false → returns (next (checks ++ [current]))) := by
  unfold gate
  cases current.blocks with
  | true => exact iff_of_true ⟨_, rfl⟩ fun h => by cases h
  | false => simp

theorem verifyEvidence_returns {checks : List CheckResult} {harness : HarnessEvidence}
    {economics : EconomicEvidence} : returns (verifyEvidence ctx checks harness economics) := by
  rw [verifyEvidence, returns_gate]
  intro _
  rw [returns_gate]
  intro _
  exact ⟨_, rfl⟩

/-- The stages on a run return exactly when what they read is readable. -/
theorem verifyRun_returns_iff (h : ReadableMappings host fs ctx) {checks : List CheckResult} :
    returns (verifyRun host fs ctx checks run) ↔ RunReadable host fs ctx run := by
  have hPath : ctx.currentPolicyPath.getD (Path.ofText "config/policy/cheatcode_policy.yaml") =
      ctx.policyPath := rfl
  unfold verifyRun
  simp only [returns_bind, hPath]
  constructor
  · rintro ⟨present, hPresent, hRest⟩
    refine ⟨⟨present, hPresent⟩, fun hConfig => ?_, fun hConfig hPolicy => ?_⟩
    all_goals
      rw [hPresent, Except.ok.injEq] at hConfig
      subst hConfig
      simp only [Bool.not_true, Bool.false_eq_true, ↓reduceIte, returns_bind, returns_gate] at hRest
      obtain ⟨current, hCurrent, hNext⟩ := hRest
    · exact (checkPolicy_returns_iff h).mp ⟨current, hCurrent⟩
    · obtain ⟨passed, hPassed, hBlocks⟩ := hPolicy
      rw [hCurrent, Except.ok.injEq] at hPassed
      obtain ⟨control, hControl, _⟩ := hNext (hPassed ▸ hBlocks)
      exact deriveControl_returns_iff.mp ⟨control, hControl⟩
  · intro hReadable
    obtain ⟨present, hPresent⟩ := hReadable.config
    refine ⟨present, hPresent, ?_⟩
    cases present with
    | false => exact ⟨_, rfl⟩
    | true =>
        obtain ⟨current, hCurrent⟩ := (checkPolicy_returns_iff h).mpr (hReadable.policy hPresent)
        simp only [Bool.not_true, Bool.false_eq_true, ↓reduceIte, returns_bind]
        refine ⟨current, hCurrent, ?_⟩
        rw [returns_gate]
        intro hBlocks
        obtain ⟨control, hControl⟩ := deriveControl_returns_iff.mpr
          (hReadable.control hPresent ⟨current, hCurrent, hBlocks⟩)
        rw [returns_bind]
        refine ⟨control, hControl, ?_⟩
        rw [returns_gate]
        intro _
        cases deriveHarness host fs run ctx.witness with
        | error e => exact ⟨_, rfl⟩
        | ok harness =>
            dsimp only
            cases loadPrices fs ctx >>= deriveEconomics run ctx.witness with
            | error e => exact ⟨_, rfl⟩
            | ok economics => exact verifyEvidence_returns

/-- What V04 and the stages after it read, as far as they get. -/
structure ReplayReadable (host : Host) (fs : FileSystem) (ctx : VerificationContext) : Prop where
  agreed : ∀ replay runs, ctx.replay = some replay → derivedRuns host fs ctx = .ok runs →
    RunsAgree host ctx runs →
      DocumentsPrintable host fs ctx ∧ MacComparable host fs ctx replay runs
  first : ∀ replay run rest, ctx.replay = some replay →
    derivedRuns host fs ctx = .ok (run :: rest) →
    Passes (checkReplay host fs ctx replay (run :: rest)) → RunReadable host fs ctx run

/-- The stages from V04 on return when what they read is there. -/
theorem verifyReplay_returns_iff (h : ReadableMappings host fs ctx) {checks : List CheckResult} :
    returns (verifyReplay host fs ctx checks) ↔ ReplayReadable host fs ctx := by
  unfold verifyReplay
  cases hRuns : derivedRuns host fs ctx with
  | error e =>
      refine iff_of_true ?_ ⟨fun _ _ _ hOk => ?_, fun _ _ _ _ hOk => ?_⟩
      · cases ctx.replay
        all_goals exact ⟨_, rfl⟩
      · rw [hRuns] at hOk
        cases hOk
      · rw [hRuns] at hOk
        cases hOk
  | ok runs =>
      cases hReplay : ctx.replay with
      | none => simp [derivedRuns, hReplay] at hRuns
      | some replay =>
          obtain ⟨hThree, _, _, hLoaded⟩ := (derivedRuns_eq_ok hReplay).mp hRuns
          obtain ⟨run, rest, rfl⟩ : ∃ run rest, runs = run :: rest := by
            cases runs with
            | nil =>
                have hLength := hLoaded.length_eq
                rw [hLength] at hThree
                simp at hThree
            | cons run rest => exact ⟨run, rest, rfl⟩
          simp only [returns_bind, returns_gate, verifyRun_returns_iff h]
          constructor
          · rintro ⟨current, hCurrent, hNext⟩
            refine ⟨fun replay' runs' hReplay' hRuns' => ?_,
              fun replay' run' rest' hReplay' hRuns' hPasses => ?_⟩
            · rw [hReplay, Option.some.injEq] at hReplay'
              rw [hRuns, Except.ok.injEq] at hRuns'
              subst hReplay' hRuns'
              exact (checkReplay_returns_iff h).mp ⟨current, hCurrent⟩
            · rw [hReplay, Option.some.injEq] at hReplay'
              rw [hRuns, Except.ok.injEq, List.cons.injEq] at hRuns'
              obtain ⟨rfl, rfl⟩ := hRuns'
              subst hReplay'
              obtain ⟨passed, hPassed, hBlocks⟩ := hPasses
              rw [hCurrent, Except.ok.injEq] at hPassed
              exact hNext (hPassed ▸ hBlocks)
          · intro hReadable
            obtain ⟨current, hCurrent⟩ :=
              (checkReplay_returns_iff h).mpr (hReadable.agreed replay (run :: rest) hReplay hRuns)
            exact ⟨current, hCurrent, fun hBlocks =>
              hReadable.first replay run rest hReplay hRuns ⟨current, hCurrent, hBlocks⟩⟩

/-- The conditions under which nothing escapes: the span can be looked up, missing build
evidence is not asked for its tools, and what the later stages get to read is readable. -/
structure NothingEscapes (host : Host) (fs : FileSystem) (ctx : VerificationContext) : Prop where
  span : SpanReadable fs ctx.root ctx.hypothesis.target.file
  build : ctx.build = none → ForgePasses host ctx → ctx.toolLockPath = none
  replay : StaticAccepted host fs ctx → ReplayReadable host fs ctx

end Runs

section Escapes

open Sample

/-- A run whose control trace shows no event. -/
def silentControl : Recorded where
  trace := tracePayload [createFrame, callFrame .witness]
  controlTrace := .obj [("trace", .arr [])]
  gasPriceWei := 0
  traceSound := calls_sound
  controlTraceSound := ⟨by decide +kernel, by decide +kernel⟩

def silentFiles : FileSystem := (tree fun _ => silentControl).fileSystem

def silentContext : VerificationContext := context silentControl.trace [0, 1, 2]

def lockedContext : VerificationContext :=
  { silentContext with build := none, toolLockPath := some (Path.ofText "tools.lock.json") }

def forgeHost : Host := { Sample.host with forgeBuild := fun _ => .ok ⟨true, "", ""⟩ }

theorem silent_policy :
    ∃ rules, loadYaml Sample.host silentFiles silentContext.policyPath = .ok (.obj rules) := by
  have hRules : ∃ rules, policy = .obj rules := ⟨_, rfl⟩
  obtain ⟨rules, hObj⟩ := hRules
  have hLoad : loadYaml Sample.host silentFiles policyPath = .ok policy := loadYaml_policy
  exact ⟨rules, hLoad.trans (congrArg _ hObj)⟩

theorem silent_catalog :
    ∃ entries, loadYaml Sample.host silentFiles catalogPath = .ok (.obj entries) := by
  have hEntries : ∃ entries, catalogJson = .obj entries := ⟨_, rfl⟩
  obtain ⟨entries, hObj⟩ := hEntries
  have hLoad : loadYaml Sample.host silentFiles catalogPath = .ok catalogJson := loadYaml_catalog
  exact ⟨entries, hLoad.trans (congrArg _ hObj)⟩

theorem silent_prices :
    ∃ entries, (silentFiles.readText pricePath >>= Json.loads) = .ok (.obj entries) := by
  have hEntries : ∃ entries, prices.val = .obj entries := ⟨_, rfl⟩
  obtain ⟨entries, hObj⟩ := hEntries
  have hText : silentFiles.readText pricePath = .ok (PlainText.dumps prices.val).text :=
    readText_project (fun _ => silentControl) (pricePath, .dumps prices.val) (by simp [projectFiles])
  have hLoads : Json.loads (PlainText.dumps prices.val).text = .ok prices.val :=
    Json.loads_dumps prices.property
  exact ⟨entries, bind_eq_ok.mpr ⟨_, hText, hLoads.trans (congrArg _ hObj)⟩⟩

/-- The three files of the silent tree are readable mappings. -/
theorem silent_readable : ReadableMappings Sample.host silentFiles silentContext where
  policy := silent_policy
  catalog := by
    intro p hp
    obtain rfl : catalogPath = p := Option.some.inj hp
    exact silent_catalog
  prices := by
    intro p hp
    obtain rfl : pricePath = p := Option.some.inj hp
    exact silent_prices

theorem silent_policy_passes :
    (enforceCheatcodePolicy (derived (fun _ => silentControl) 0).trace witness.witnessClass
      (policy.getD "rules" .null) none).isOk = true ∧
    (checkCheatcodes (derived (fun _ => silentControl) 0).trace.cheatcodes).blocks = false ∧
    ((allLogs (derived (fun _ => silentControl) 0).controlTrace.frames).filter
      (isEvent "ControlObserved")).length ≠ (requiredIds witness).length := by
  decide

/-- The host with a Forge build reads the same documents. -/
theorem loadYaml_forgeHost (fs : FileSystem) (p : Path) :
    loadYaml forgeHost fs p = loadYaml Sample.host fs p := rfl

/-- The files are readable for the host with a Forge build too. -/
theorem locked_readable : ReadableMappings forgeHost silentFiles lockedContext where
  policy := by
    rw [loadYaml_forgeHost]
    exact silent_policy
  catalog := by
    intro p hp
    rw [loadYaml_forgeHost]
    exact silent_readable.catalog p hp
  prices := silent_readable.prices

/-- V05 accepts the run, so its control trace is looked at. -/
theorem silent_reaches_control (h : RunReadable Sample.host silentFiles silentContext
    (derived (fun _ => silentControl) 0)) :
    ControlComplete (derived (fun _ => silentControl) 0).controlTrace witness := by
  obtain ⟨hPolicy, hCalls, _⟩ := silent_policy_passes
  have hConfig : silentFiles.isFile ((runDir 0).join "foundry.toml") = .ok true := by
    rw [join_foundry]
    exact MemoryFiles.isFile_of_content (content_source 0 foundry_mem)
  have hPasses : Passes (checkPolicy Sample.host silentFiles
      (derived (fun _ => silentControl) 0).trace witness.witnessClass policyPath
      ((runDir 0).join "foundry.toml") none) := checkPolicy_run hPolicy hCalls
  exact h.control hConfig hPasses

end Escapes
end L0vi0x.Verifier
