import L0vi0x.Python.Utf8
import L0vi0x.Core.Redaction

/-! What the runner persists of a tool's output. A text is redacted first and then cut to a
number of bytes, which may fall within a character. -/
namespace L0vi0x.Tools

open L0vi0x.Python L0vi0x.Core.Redaction

section Truncation

variable (alnum : Char → Bool)

def truncationMarker : String := "\n...[truncated by l0vi0x runner]...\n"

def truncate (text : String) (limit : Nat) : String :=
  let safe := redact alnum text
  let raw := encodeUtf8 safe
  if raw.length ≤ limit then safe
  else
    let marker := encodeUtf8 truncationMarker
    let keep := limit - marker.length
    decodeUtf8Replace (raw.take keep ++ marker)

end Truncation

section Runs

/-- How `subprocess.run` ends. A timeout has the output that was read as text, if any. -/
inductive Execution
  | completed (returncode : Int) (stdout stderr : String)
  | notFound (message : String)
  | timedOut (stdout stderr : Option String)

/-- `ToolResult`, without the time that was taken. -/
structure ToolResult where
  cmd : List String
  rc : Int
  stdout : String
  stderr : String
  artifactPath : Option String
  recordPath : Option String

def Execution.result (argv : List String) : Execution → ToolResult
  | .completed returncode stdout stderr => ⟨argv, returncode, stdout, stderr, none, none⟩
  | .notFound message => ⟨argv, 127, "", message, none, none⟩
  | .timedOut stdout stderr => ⟨argv, 124, stdout.getD "", stderr.getD "timeout", none, none⟩

/-- The output texts that are written: the artifact, and the two fields of the record. -/
structure Persisted where
  artifact : Option String
  record : Option (String × String)

def Persisted.texts (p : Persisted) : List String :=
  p.artifact.toList ++ p.record.toList.flatMap fun fields => [fields.1, fields.2]

/-- `run(argv, timeout_s, tool_runs_dir, artifact_path, max_output_bytes)`, where
`recordPath` is the path that the record gets below `tool_runs_dir`. -/
def run (alnum : Char → Bool) (execute : List String → Execution) (argv : List String)
    (timeoutS : ℚ) (recordPath artifactPath : Option String) (maxOutputBytes : Int) :
    Py (ToolResult × Persisted) := do
  raiseIf (argv.isEmpty || argv.any (· = "")) .valueError
    "argv must be a non-empty sequence of non-empty strings"
  raiseIf (timeoutS ≤ 0) .valueError "timeout_s must be positive"
  raiseIf (maxOutputBytes ≤ 0) .valueError "max_output_bytes must be positive"
  let result := (execute argv).result argv
  let limit := maxOutputBytes.toNat
  pure ({ result with artifactPath := artifactPath, recordPath := recordPath },
    { artifact := artifactPath.map fun _ => truncate alnum result.stdout limit
      record := recordPath.map fun _ =>
        (truncate alnum result.stdout limit, truncate alnum result.stderr limit) })

end Runs

section Cut

variable {alnum : Char → Bool} {text : String} {limit : Nat}

/-- What a cut text should be: it has at most `limit` bytes, it is unchanged when it fits,
and otherwise it is a prefix of the redacted text and the marker. -/
structure Truncated (alnum : Char → Bool) (text : String) (limit : Nat) : Prop where
  bounded : (encodeUtf8 (truncate alnum text limit)).length ≤ limit
  unchanged : (encodeUtf8 (redact alnum text)).length ≤ limit →
    truncate alnum text limit = redact alnum text
  kept : limit < (encodeUtf8 (redact alnum text)).length →
    ∃ kept, truncate alnum text limit = kept ++ truncationMarker ∧
      kept.toList <+: (redact alnum text).toList

/-- The text has at most `limit` bytes, or the marker has and what is left of the limit ends
between two characters of the text. -/
def CutsBetween (safe : String) (limit : Nat) : Prop :=
  (encodeUtf8 safe).length ≤ limit ∨
    (encodeUtf8 truncationMarker).length ≤ limit ∧ ∃ front back, safe = front ++ back ∧
      (encodeUtf8 front).length + (encodeUtf8 truncationMarker).length = limit

theorem encodeUtf8_append (s t : String) : encodeUtf8 (s ++ t) = encodeUtf8 s ++ encodeUtf8 t := by
  rw [encodeUtf8_eq, encodeUtf8_eq, encodeUtf8_eq, String.toList_append, List.flatMap_append]

/-- A cut between two characters keeps the text before it. -/
theorem truncate_between {front back : String} (hSafe : redact alnum text = front ++ back)
    (hLong : limit < (encodeUtf8 (redact alnum text)).length)
    (hKeep : limit - (encodeUtf8 truncationMarker).length = (encodeUtf8 front).length) :
    truncate alnum text limit = front ++ truncationMarker := by
  have hNot : ¬ (encodeUtf8 (redact alnum text)).length ≤ limit := not_le.mpr hLong
  simp only [truncate]
  rw [if_neg hNot, hKeep, hSafe, encodeUtf8_append, List.take_left, ← encodeUtf8_append,
    decodeUtf8Replace_encodeUtf8]

theorem marker_opens : ∃ rest : Bytes, encodeUtf8 truncationMarker = 10 :: rest ∧ rest.length = 35 := by
  exact ⟨(encodeUtf8 truncationMarker).tail, by decide, by decide⟩

/-- A cut within a character puts a replacement character in its place. -/
theorem truncate_within {front rest : List Char} {c : Char} {k : Nat}
    (hSafe : (redact alnum text).toList = front ++ c :: rest) (hPos : 0 < k)
    (hCut : k < (String.utf8EncodeChar c).length)
    (hLong : limit < (encodeUtf8 (redact alnum text)).length)
    (hKeep : limit - (encodeUtf8 truncationMarker).length =
      (front.flatMap String.utf8EncodeChar).length + k) :
    truncate alnum text limit = String.ofList (front ++ ['\uFFFD']) ++ truncationMarker := by
  have hNot : ¬ (encodeUtf8 (redact alnum text)).length ≤ limit := not_le.mpr hLong
  obtain ⟨pending, hLow, hPending⟩ := utf8Replace_cut c hPos hCut
  obtain ⟨tail, hMarker, _⟩ := marker_opens
  have hMarkerText : utf8Replace (encodeUtf8 truncationMarker) none = truncationMarker.toList := by
    have hDecode := decodeUtf8Replace_encodeUtf8 truncationMarker
    rw [decodeUtf8Replace, ← String.toList_inj, String.toList_ofList] at hDecode
    exact hDecode
  have hTake : (encodeUtf8 (redact alnum text)).take
      ((front.flatMap String.utf8EncodeChar).length + k) =
        front.flatMap String.utf8EncodeChar ++ (String.utf8EncodeChar c).take k := by
    rw [encodeUtf8_eq, hSafe, List.flatMap_append, List.flatMap_cons, List.take_length_add_append,
      List.take_append_of_le_length hCut.le]
  simp only [truncate]
  rw [if_neg hNot, hKeep, hTake, List.append_assoc, decodeUtf8Replace, utf8Replace_flatMap, hPending,
    hMarker, utf8Replace_interrupted hLow (by decide), ← hMarker, hMarkerText, ← String.toList_inj,
    String.toList_append, String.toList_ofList, String.toList_ofList]
  simp

/-- A text is cut as it should be exactly when it fits or the cut spares its characters. -/
theorem truncated_iff_cutsBetween (alnum : Char → Bool) (text : String) (limit : Nat) :
    Truncated alnum text limit ↔ CutsBetween (redact alnum text) limit := by
  by_cases hFits : (encodeUtf8 (redact alnum text)).length ≤ limit
  · have hSame : truncate alnum text limit = redact alnum text := by
      simp only [truncate]
      rw [if_pos hFits]
    exact iff_of_true ⟨hSame ▸ hFits, fun _ => hSame, fun hLong => absurd hFits (not_le.mpr hLong)⟩
      (.inl hFits)
  have hLong := not_le.mp hFits
  have hPlace : limit - (encodeUtf8 truncationMarker).length ≤
      ((redact alnum text).toList.flatMap String.utf8EncodeChar).length := by
    rw [← encodeUtf8_eq]
    omega
  obtain ⟨front, back, hSafe, hBetween | ⟨c, rest, k, rfl, hPos, hCut, hWithin⟩⟩ :=
    position_utf8 (redact alnum text).toList hPlace
  · -- The cut stands between two characters, so only the marker can be too long.
    have hSplit : redact alnum text = String.ofList front ++ String.ofList back := by
      rw [← String.toList_inj, String.toList_append, String.toList_ofList, String.toList_ofList, hSafe]
    have hFront : limit - (encodeUtf8 truncationMarker).length =
        (encodeUtf8 (String.ofList front)).length := by
      rw [encodeUtf8_eq (String.ofList front), String.toList_ofList, hBetween]
    have hCutText := truncate_between hSplit hLong hFront
    constructor
    · intro h
      have hBounded := h.bounded
      rw [hCutText, encodeUtf8_append, List.length_append] at hBounded
      exact .inr ⟨by omega, String.ofList front, String.ofList back, hSplit, by omega⟩
    · rintro (h | ⟨hMarker, _⟩)
      · exact absurd h hFits
      · refine ⟨?_, fun h => absurd h hFits, fun _ => ⟨String.ofList front, hCutText, ?_⟩⟩
        · rw [hCutText, encodeUtf8_append, List.length_append]
          omega
        · rw [hSafe, String.toList_ofList]
          exact List.prefix_append _ _
  · -- The cut falls within a character, which a longer replacement character stands for.
    have hCutText := truncate_within hSafe hPos hCut hLong hWithin
    have hReplacement : (String.utf8EncodeChar '\uFFFD').length = 3 := by decide
    refine iff_of_false (fun h => ?_) ?_
    · obtain ⟨kept, hKept, hPrefix⟩ := h.kept hLong
      have hBounded := h.bounded
      rw [hCutText] at hKept
      have hSame := (String.append_left_inj truncationMarker).mp hKept
      rw [← hSame, String.toList_ofList, hSafe, List.prefix_append_right_inj, List.cons_prefix_cons]
        at hPrefix
      rw [hCutText, encodeUtf8_append, encodeUtf8_eq (String.ofList _), String.toList_ofList,
        List.flatMap_append, List.length_append, List.length_append, List.flatMap_singleton,
        hReplacement] at hBounded
      rw [← hPrefix.1, hReplacement] at hCut
      omega
    · rintro (h | ⟨hMarker, kept, lost, hSplit, hKeep⟩)
      · exact hFits h
      · have hChars : front ++ c :: rest = kept.toList ++ lost.toList := by
          rw [← hSafe, hSplit, String.toList_append]
        refine not_between_utf8 hPos hCut hChars ?_
        rw [← encodeUtf8_eq, ← hWithin]
        omega

/-- Every output text that a run writes is one of its streams, cut to a positive limit. -/
theorem run_persists {execute : List String → Execution} {argv : List String} {timeoutS : ℚ}
    {recordPath artifactPath : Option String} {maxOutputBytes : Int} {result : ToolResult}
    {persisted : Persisted}
    (h : run alnum execute argv timeoutS recordPath artifactPath maxOutputBytes =
      .ok (result, persisted)) :
    0 < maxOutputBytes ∧ ∀ written ∈ persisted.texts, ∃ stream ∈ [result.stdout, result.stderr],
      written = truncate alnum stream maxOutputBytes.toNat := by
  simp only [run, bind_eq_ok, pure_eq_ok, raiseIf_eq_ok, decide_eq_false_iff_not, not_le,
    Prod.mk.injEq] at h
  obtain ⟨_, _, _, _, _, hPositive, rfl, rfl⟩ := h
  refine ⟨hPositive, fun written hWritten => ?_⟩
  rcases List.mem_append.mp hWritten with hArtifact | hRecord
  · obtain ⟨_, _, rfl⟩ := Option.map_eq_some_iff.mp (Option.mem_toList.mp hArtifact)
    exact ⟨((execute argv).result argv).stdout, by simp, rfl⟩
  · obtain ⟨fields, hFields, hMem⟩ := List.mem_flatMap.mp hRecord
    obtain ⟨_, _, rfl⟩ := Option.map_eq_some_iff.mp (Option.mem_toList.mp hFields)
    simp only [List.mem_cons, List.not_mem_nil, or_false] at hMem
    rcases hMem with hOut | hErr
    · exact ⟨((execute argv).result argv).stdout, by simp, hOut⟩
    · exact ⟨((execute argv).result argv).stderr, by simp, hErr⟩

/-- A text is cut as it should be exactly when it fits or the cut spares its characters, and
what a run writes of its streams is cut so, to a positive limit. -/
theorem truncated_iff (alnum : Char → Bool) :
    (∀ text limit, Truncated alnum text limit ↔ CutsBetween (redact alnum text) limit) ∧
      ∀ execute argv timeoutS recordPath artifactPath maxOutputBytes result persisted,
        run alnum execute argv timeoutS recordPath artifactPath maxOutputBytes =
            .ok (result, persisted) →
          0 < maxOutputBytes ∧ ∀ written ∈ persisted.texts,
            ∃ stream ∈ [result.stdout, result.stderr],
              written = truncate alnum stream maxOutputBytes.toNat :=
  ⟨truncated_iff_cutsBetween alnum, fun _ _ _ _ _ _ _ _ h => run_persists h⟩

def accents : String := String.ofList (List.replicate 20 'é')

/-- The first byte of a character and the marker are 37 bytes; what is written has 39. -/
theorem accents_exceed :
    (encodeUtf8 (truncate (fun _ => false) accents 37)).length = 39 ∧
      ¬ Truncated (fun _ => false) accents 37 := by
  have hRedact : redact (fun _ => false) accents = accents := by decide
  have hLength : (encodeUtf8 (truncate (fun _ => false) accents 37)).length = 39 := by
    simp only [truncate, hRedact]
    decide
  refine ⟨hLength, fun h => ?_⟩
  have hBounded := h.bounded
  rw [hLength] at hBounded
  omega

end Cut
end L0vi0x.Tools
