import L0vi0x.Verifier.ReplayAgreement

/-! The run directories behind an accepted replay. V04 counts the entries of the
list and never compares the directories that they resolve to. -/
namespace L0vi0x.Verifier

open L0vi0x.Python L0vi0x.Core L0vi0x.Chain

variable {host : Host} {fs : FileSystem} {ctx : VerificationContext}

/-- V04 accepts the replay: the runs are derived and their digests agree. -/
structure ReplayAccepted (host : Host) (fs : FileSystem) (ctx : VerificationContext)
    (replay : ReplayEvidence) (runs : List DerivedReplayRun) : Prop where
  retained : ctx.replay = some replay
  derived : derivedRuns host fs ctx = .ok runs
  agreed : Passes (checkReplay host fs ctx replay runs)

/-- The directories that the entries of `run_dirs` resolve to. -/
def resolvedDirs (fs : FileSystem) (replay : ReplayEvidence) : List Path :=
  replay.runDirs.map fs.real

/-- At least three directories, all different and inside the trust root. -/
structure Independent (fs : FileSystem) (replay : ReplayEvidence) : Prop where
  three : 3 ≤ (resolvedDirs fs replay).length
  distinct : (resolvedDirs fs replay).Nodup
  inside : ∀ d ∈ resolvedDirs fs replay, d.isRelativeTo (fs.real replay.root) = true

/-- An accepted replay has three directories at least, all inside the trust root. -/
theorem ReplayAccepted.inside {replay : ReplayEvidence} {runs : List DerivedReplayRun}
    (h : ReplayAccepted host fs ctx replay runs) :
    3 ≤ (resolvedDirs fs replay).length ∧
      ∀ d ∈ resolvedDirs fs replay, d.isRelativeTo (fs.real replay.root) = true := by
  obtain ⟨hLength, trustRoot, hRoot, hRuns⟩ := (derivedRuns_eq_ok h.retained).mp h.derived
  refine ⟨by simpa [resolvedDirs] using hLength, ?_⟩
  intro d hd
  obtain ⟨raw, hRaw, rfl⟩ := List.mem_map.mp hd
  obtain ⟨run, _, hDerive⟩ := forall₂_exists_left hRuns.flip hRaw
  obtain ⟨p, _, hp, hInside, _, _⟩ := deriveRun_eq_ok.mp hDerive
  rw [fs.resolve_real hp, fs.resolve_real hRoot]
  exact hInside

/-- Accepted replay evidence is independent exactly when no two entries of the list
resolve to one directory. -/
theorem independent_iff {replay : ReplayEvidence} {runs : List DerivedReplayRun}
    (h : ReplayAccepted host fs ctx replay runs) :
    Independent fs replay ↔
      replay.runDirs.Pairwise fun a b => fs.real a ≠ fs.real b := by
  have hNodup : (resolvedDirs fs replay).Nodup ↔
      replay.runDirs.Pairwise fun a b => fs.real a ≠ fs.real b := List.pairwise_map
  rw [← hNodup]
  exact ⟨fun hIndependent => hIndependent.distinct,
    fun hDistinct => ⟨h.inside.1, hDistinct, h.inside.2⟩⟩

section Repeated

open Sample

def plain : Recorded :=
  recorded [createFrame, callFrame .witness] 0 calls_sound

def repeatedReplay : ReplayEvidence :=
  ⟨replayRoot, [0, 0, 0].map runDir, some (certificate plain.trace 3), some [1]⟩

theorem repeated_accepted :
    ReplayAccepted Sample.host (tree fun _ => plain).fileSystem (context plain.trace [0, 0, 0])
      repeatedReplay ([0, 0, 0].map (derived fun _ => plain)) :=
  ⟨rfl, derivedRuns_eq (by decide), checkReplay_passes (fun _ _ => rfl) (by decide)⟩

/-- V04 accepts a directory named three times. -/
theorem repeated_directory_accepted :
    ¬ ∀ (host : Host) (fs : FileSystem) (ctx : VerificationContext) (replay : ReplayEvidence)
      (runs : List DerivedReplayRun), ReplayAccepted host fs ctx replay runs →
        Independent fs replay := by
  intro h
  have hDistinct := (h _ _ _ _ _ repeated_accepted).distinct
  simp [resolvedDirs, repeatedReplay] at hDistinct

/-- Independence, at one directory that is named three times. -/
theorem repeated_independent_iff :
    Independent (tree fun _ => plain).fileSystem repeatedReplay ↔
      repeatedReplay.runDirs.Pairwise fun a b =>
        (tree fun _ => plain).fileSystem.real a ≠ (tree fun _ => plain).fileSystem.real b :=
  independent_iff repeated_accepted

end Repeated
end L0vi0x.Verifier
