import L0vi0x.Verifier.HarnessIdentity

/-! Whether the harness was deployed from its pinned source. The source, the artifact, the
init code and the address are each compared with the declaration, and not with each other. -/
namespace L0vi0x.Verifier

open L0vi0x.Python L0vi0x.Core L0vi0x.Chain

section Tie

variable {host : Host} {fs : FileSystem} {w : Witness} {run : DerivedReplayRun}

/-- The creation bytecode of a compiled artifact. -/
def creationCode (artifact : Json) : Option Bytes :=
  match (artifact.getD "bytecode" .null).get? "object" with
  | some (.str code) => if startsWith code "0x" then bytesOfHex? (dropText code 2) else none
  | _ => none

/-- The creation bytecode of the artifact that is matched for the harness source. -/
def SourceCode (host : Host) (fs : FileSystem) (run : DerivedReplayRun) (w : Witness)
    (code : Bytes) : Prop :=
  ∃ sourceHash artifact,
    artifactContract host fs run.root (w.harnessSourcePath.getD "") = .ok (sourceHash, artifact) ∧
      creationCode artifact = some code

def declaredAddress (host : Host) (w : Witness) (initCode : Bytes) : Py String :=
  create2Address host (lower (w.harnessCreate2Deployer.getD "")) w.harnessCreate2Salt initCode

/-- The init code of the observed creation is that of the source, with arguments behind it. -/
def TiedToSource (host : Host) (fs : FileSystem) (run : DerivedReplayRun) (w : Witness) : Prop :=
  ∃ create initCode code args,
    harnessCreates run.trace.frames (lower w.harnessAddress) = [create] ∧
      hexData create.data = .ok initCode ∧ SourceCode host fs run w code ∧ initCode = code ++ args

/-- The declared address is one that the creation bytecode of the source is deployed to. -/
def DeclaresSource (host : Host) (fs : FileSystem) (run : DerivedReplayRun) (w : Witness) : Prop :=
  ∃ code args address, SourceCode host fs run w code ∧
    declaredAddress host w (code ++ args) = .ok address ∧ lower address = lower w.harnessAddress

/-- No other init code gives the address of one that was observed for the harness. -/
def AddressBinds (host : Host) (run : DerivedReplayRun) (w : Witness) : Prop :=
  ∀ create ∈ harnessCreates run.trace.frames (lower w.harnessAddress), ∀ initCode code address,
    hexData create.data = .ok initCode → declaredAddress host w initCode = .ok address →
      declaredAddress host w code = .ok address → code = initCode

/-- The text of a computed address is in lower case. -/
theorem lower_declaredAddress {initCode : Bytes} {address : String}
    (h : declaredAddress host w initCode = .ok address) : lower address = address := by
  simp only [declaredAddress, create2Address, bind_eq_ok, pure_eq_ok] at h
  obtain ⟨_, _, _, _, rfl⟩ := h
  rw [lower_append, lower_hexOfBytes]
  rfl

/-- A run that V07 accepts was deployed from its pinned source exactly when the declared
address is one of that source. -/
theorem tied_to_source_iff {e : HarnessEvidence} (h : deriveHarness host fs run w = .ok e)
    (hBinds : AddressBinds host run w) :
    TiedToSource host fs run w ↔ DeclaresSource host fs run w := by
  obtain ⟨create, initCode, hCreates, hCreation⟩ := (harnessDerived_of_deriveHarness h).creation
  obtain ⟨actual, hActual, hHarness, _⟩ := hCreation.address
  rw [lower_lower] at hHarness
  have hCode := hCreation.data.2
  constructor
  · rintro ⟨frame, observed, code, args, hFrames, hObserved, hSource, rfl⟩
    rw [hCreates, List.singleton_inj] at hFrames
    rw [← hFrames, hCode, Except.ok.injEq] at hObserved
    exact ⟨code, args, actual, hSource, hObserved ▸ hActual, hHarness⟩
  · rintro ⟨code, args, address, hSource, hAddress, hDeclared⟩
    have hSame : address = actual := by
      rw [← lower_declaredAddress hAddress, ← lower_declaredAddress hActual, hDeclared, hHarness]
    refine ⟨create, initCode, code, args, hCreates, hCode, hSource, ?_⟩
    rw [hSame] at hAddress
    exact (hBinds create (by simp [hCreates]) _ _ _ hCode hActual hAddress).symm

end Tie

section Unrelated

open Sample

/-- The digest of a byte string of which only two are told apart from the rest. -/
def separatingKeccak (raw : Bytes) : Bytes :=
  if raw = initCode then keccak initCode
  else if raw = 0xff :: ((hexAddress deployer).toOption.getD [] ++
      (hexBytes salt 32).toOption.getD [] ++ keccak initCode) then keccak []
  else []

def separatingHost : Host := { Sample.host with keccak := separatingKeccak }

/-- The declared deployer and salt are well formed, and give the deployed init code its address. -/
theorem separating_addresses :
    hexAddress (lower deployer) = .ok ((hexAddress deployer).toOption.getD []) ∧
      hexBytes salt 32 = .ok ((hexBytes salt 32).toOption.getD []) ∧
      create2Address separatingHost (lower deployer) salt initCode = .ok harness ∧
      keccak [] ≠ keccak initCode ∧ (keccak initCode).length = 32 := by
  decide +kernel

/-- An init code that is not the observed one gives the empty digest. -/
theorem separatingKeccak_other {code : Bytes} (h : code ≠ initCode) :
    separatingKeccak (0xff :: ((hexAddress deployer).toOption.getD [] ++
      (hexBytes salt 32).toOption.getD [] ++ separatingKeccak code)) = [] := by
  have hCode : separatingKeccak code ≠ keccak initCode := by
    unfold separatingKeccak
    rw [if_neg h]
    split
    · exact separating_addresses.2.2.2.1
    · intro hNil
      have hLength := separating_addresses.2.2.2.2
      rw [← hNil] at hLength
      cases hLength
  rw [separatingKeccak, if_neg, if_neg]
  · intro hEq
    rw [List.cons.injEq] at hEq
    exact hCode (List.append_cancel_left hEq.2)
  · intro hEq
    rw [initCode, List.cons.injEq] at hEq
    exact absurd hEq.1 (by decide)

theorem declaredAddress_other {code : Bytes} (h : code ≠ initCode) :
    declaredAddress separatingHost witness code = .ok "0x" := by
  have hDeployer : witness.harnessCreate2Deployer.getD "" = deployer := rfl
  have hSalt : witness.harnessCreate2Salt = salt := rfl
  have hKeccak : separatingHost.keccak = separatingKeccak := rfl
  have hNone := separatingKeccak_other h
  simp only [declaredAddress, create2Address, hDeployer, hSalt, separating_addresses.1, bind_eq_ok,
    Except.ok.injEq, exists_eq_left', hKeccak]
  refine ⟨_, separating_addresses.2.1, ?_⟩
  rw [List.cons_append, List.cons_append, hNone]
  rfl

/-- The artifact of a contract whose creation bytecode is not the deployed init code. -/
def builtArtifact (c : Contract) : Json := .obj
  [("bytecode", .obj [("object", .str "0x6001")]), ("deployedBytecode", .obj [("object", .str "0x6001")]),
    ("metadata", .obj [("settings", .obj
      [("compilationTarget", .obj [(c.path, .str c.name)])])])]

def builtRoot : Path := ⟨"/", ["b"]⟩

def builtFiles : MemoryFiles := [Contract.harness, .wrapper].flatMap fun c =>
  [(builtRoot.under ["src", c.file], c.source),
    (builtRoot.under ["out", c.file, c.name ++ ".json"], .dumps (builtArtifact c))]

/-- The artifact with its creation bytecode names the contract, and has its runtime. -/
theorem builtArtifact_compiled (c : Contract) :
    (builtArtifact c).isNormal = true ∧
      candidateTarget (builtArtifact c) = .ok (some (.obj [(c.path, .str c.name)])) ∧
      runtimeHash separatingHost (builtArtifact c) = .ok (separatingHost.sha256 runtime) ∧
      creationCode (builtArtifact c) = some [0x60, 0x01] := by
  cases c <;> decide

theorem built_paths : (builtFiles.map Prod.fst).Nodup ∧ ∀ c ∈ [Contract.harness, .wrapper],
    builtFiles.fileSystem.rglob (builtRoot.under ["out"]) (c.name ++ ".json") =
        [builtRoot.under ["out", c.file, c.name ++ ".json"]] ∧
      (builtRoot.under ["src", c.file]).stem = c.name ∧
      (builtFiles.map (·.1)).any (·.isRelativeTo (builtRoot.under ["out"])) = true := by
  decide

theorem artifactContract_built (c : Contract) :
    artifactContract separatingHost builtFiles.fileSystem builtRoot c.path =
      .ok (separatingHost.sha256Text c.source.text, builtArtifact c) := by
  obtain ⟨hGlob, hStem, hOut⟩ := built_paths.2 c c.mem_both
  have hContent : ∀ f ∈ [(builtRoot.under ["src", c.file], c.source),
      (builtRoot.under ["out", c.file, c.name ++ ".json"], .dumps (builtArtifact c))],
      builtFiles.content? f.1 = some f.2 := fun f hf =>
    MemoryFiles.content?_of_mem built_paths.1 (List.mem_flatMap.mpr ⟨c, c.mem_both, hf⟩)
  exact artifactContract_compiled (builtArtifact_compiled c).1 (builtArtifact_compiled c).2.1
    (hContent _ (List.mem_cons_self ..)) (hContent _ (List.mem_cons_of_mem _ (List.mem_cons_self ..)))
    (MemoryFiles.pathExists_eq hOut) hGlob hStem

/-- The digests of a contract are those that the witness declares. -/
theorem contractDigests_built (c : Contract) (label : String) :
    contractDigests separatingHost builtFiles.fileSystem builtRoot (some c.path)
      (some (separatingHost.sha256Text c.source.text)) (some (separatingHost.sha256 runtime)) label =
      .ok (separatingHost.sha256Text c.source.text, separatingHost.sha256 runtime) := by
  have hText : hasText (some (separatingHost.sha256 runtime)) = true := declared_texts.1
  simp [contractDigests, artifactContract_built, (builtArtifact_compiled c).2.2.1, hText, raiseIf, bind,
    Except.bind, pure, Except.pure]

/-- The accepted run, in a tree whose artifacts hold their creation bytecode. -/
def builtRun : DerivedReplayRun := { unwrappedRun with root := builtRoot }

/-- The run shows the one creation of the harness. -/
theorem builtRun_creation : lower witness.harnessAddress = harness ∧
    hexData createdFrame.val.data = .ok initCode ∧
    harnessCreates builtRun.trace.frames harness = [createdFrame.val] ∧
    builtRun.trace.assertionEvents = [checkedEvent] ∧
    checkCreation separatingHost createdFrame.val witness harness = .ok creation ∧
    (harnessCoverage builtRun witness origin.val creation
      (separatingHost.sha256Text Contract.harness.source.text, separatingHost.sha256 runtime)
      (separatingHost.sha256Text Contract.wrapper.source.text,
        separatingHost.sha256 runtime)).isOk = true := by
  decide +kernel

/-- No other init code has the address of the deployed one. -/
theorem builtRun_binds : AddressBinds separatingHost builtRun witness := by
  intro create hCreate observed code address hData hObserved hCode
  rw [builtRun_creation.1, builtRun_creation.2.2.1, List.mem_singleton] at hCreate
  have hInit : observed = initCode := by
    rw [hCreate, builtRun_creation.2.1, Except.ok.injEq] at hData
    exact hData.symm
  have hAddress : declaredAddress separatingHost witness initCode = .ok harness :=
    separating_addresses.2.2.1
  by_contra hOther
  rw [hInit, hAddress, Except.ok.injEq] at hObserved
  rw [declaredAddress_other (hInit ▸ hOther), ← hObserved, Except.ok.injEq] at hCode
  exact absurd hCode (by decide)

theorem builtRun_derived :
    returns (deriveHarness separatingHost builtFiles.fileSystem builtRun witness) := by
  have hOk := builtRun_creation.2.2.2.2.2
  cases hCoverage : harnessCoverage builtRun witness origin.val creation
      (separatingHost.sha256Text Contract.harness.source.text, separatingHost.sha256 runtime)
      (separatingHost.sha256Text Contract.wrapper.source.text, separatingHost.sha256 runtime) with
  | error e => rw [hCoverage] at hOk; cases hOk
  | ok e =>
      have hCreation : harnessCreation separatingHost builtRun.trace.frames witness harness =
          .ok creation := by
        rw [harnessCreation, builtRun_creation.2.2.1]
        exact builtRun_creation.2.2.2.2.1
      refine ⟨e, ?_⟩
      simp only [deriveHarness, bind_eq_ok, raiseIf_eq_ok, builtRun_creation.2.2.2.1]
      exact ⟨origin.val, origin.property, _, hCreation, (), declared_texts.2.1, _,
        contractDigests_built .harness "harness", (), declared_texts.2.2.1, _,
        contractDigests_built .wrapper "wrapper", hCoverage⟩

/-- A harness that was deployed from other bytecode than that of its source is accepted. -/
theorem unrelated_bytecode_accepted :
    ¬ ∀ (host : Host) (fs : FileSystem) (run : DerivedReplayRun) (w : Witness)
      (e : HarnessEvidence), host.CollisionFree → AddressBinds host run w →
        deriveHarness host fs run w = .ok e → TiedToSource host fs run w := by
  intro h
  obtain ⟨e, he⟩ := builtRun_derived
  obtain ⟨create, observed, code, args, hCreates, hData, ⟨sourceHash, artifact, hArtifact, hCode⟩,
    hTied⟩ := h separatingHost _ _ _ e digest_injective builtRun_binds he
  have hPath : witness.harnessSourcePath.getD "" = Contract.harness.path := rfl
  rw [hPath, show builtRun.root = builtRoot from rfl, artifactContract_built, Except.ok.injEq,
    Prod.mk.injEq] at hArtifact
  rw [← hArtifact.2, (builtArtifact_compiled .harness).2.2.2, Option.some.injEq] at hCode
  rw [builtRun_creation.1, builtRun_creation.2.2.1, List.singleton_inj] at hCreates
  rw [← hCreates, builtRun_creation.2.1, Except.ok.injEq] at hData
  rw [← hCode, ← hData, initCode] at hTied
  simp at hTied

/-- The tie to the source, at the run of the tree. -/
theorem builtRun_tied_iff : ∃ e, deriveHarness separatingHost builtFiles.fileSystem builtRun witness =
    .ok e ∧ AddressBinds separatingHost builtRun witness ∧
    (TiedToSource separatingHost builtFiles.fileSystem builtRun witness ↔
      DeclaresSource separatingHost builtFiles.fileSystem builtRun witness) := by
  obtain ⟨e, he⟩ := builtRun_derived
  exact ⟨e, he, builtRun_binds, tied_to_source_iff he builtRun_binds⟩

end Unrelated
end L0vi0x.Verifier
