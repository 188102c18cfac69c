import L0vi0x.Chain.TraceParse

/-! Which of the calls inside a payload become frames. A record's children are
read from one of its two spellings, and only from a list. -/
namespace L0vi0x.Chain

open L0vi0x.Python L0vi0x.Core

/-- The two keys under which a record holds the calls that it made. -/
def isCallKey (key : String) : Bool := key = "children" || key = "calls"

mutual
/-- Every object inside the value that is held, directly or through lists, by a
call key; `held` says whether the value itself is. -/
def callsWithin (held : Bool) : Json → List Json
  | .obj fields => (if held then [.obj fields] else []) ++ callsOfFields fields
  | .arr items => callsOfItems held items
  | _ => []

def callsOfItems (held : Bool) : List Json → List Json
  | [] => []
  | j :: rest => callsWithin held j ++ callsOfItems held rest

def callsOfFields : Fields → List Json
  | [] => []
  | (k, v) :: rest => callsWithin (isCallKey k) v ++ callsOfFields rest
end

/-- The key that the flattening of a record follows. -/
def followedKey (fields : Fields) : String :=
  if (getField? "children" fields).isSome then "children" else "calls"

mutual
/-- No call hides in a record: all of them lie in the list under the key that is
followed. -/
def exposed : Json → Bool
  | .obj fields => exposedFields (some (followedKey fields)) fields
  | _ => true

def exposedItems : List Json → Bool
  | [] => true
  | j :: rest => exposed j && exposedItems rest

/-- The same for the value under the key that is followed. -/
def exposedValue : Json → Bool
  | .arr items => exposedItems items
  | j => (callsWithin true j).isEmpty

/-- The same for the fields of a record, where `followed` is the key still to be
followed. -/
def exposedFields (followed : Option String) : Fields → Bool
  | [] => true
  | (k, v) :: rest =>
      if some k = followed then exposedValue v && exposedFields none rest
      else (callsWithin (isCallKey k) v).isEmpty && exposedFields followed rest
end

/-- A record without its children, as it is flattened. -/
def withoutCalls : Json → Json
  | .obj fields => .obj (eraseField "calls" (eraseField "children" fields))
  | j => j

section Flattening

/-- How the records found by the flattening compare with the calls that are there. -/
structure Found (visited calls : List Json) (good : Bool) : Prop where
  all : good = true → visited = calls.map withoutCalls
  short : good = false → visited.length < calls.length

/-- The flattening finds no more records than there are calls. -/
theorem Found.length_le {visited calls : List Json} {good : Bool} (h : Found visited calls good) :
    visited.length ≤ calls.length := by
  cases good with
  | true => rw [h.all rfl, List.length_map]
  | false => exact (h.short rfl).le

theorem Found.nil : Found [] [] true := ⟨fun _ => rfl, by simp⟩

/-- What is found in two parts is found in the whole. -/
theorem Found.append {visited calls visited' calls' : List Json} {good good' : Bool}
    (h : Found visited calls good) (h' : Found visited' calls' good') :
    Found (visited ++ visited') (calls ++ calls') (good && good') := by
  refine ⟨fun hBoth => ?_, fun hSome => ?_⟩
  · rw [Bool.and_eq_true] at hBoth
    rw [h.all hBoth.1, h'.all hBoth.2, List.map_append]
  · have hLe := h.length_le
    have hLe' := h'.length_le
    rw [List.length_append, List.length_append]
    rcases Bool.and_eq_false_iff.mp hSome with hFirst | hSecond
    · have := h.short hFirst
      omega
    · have := h'.short hSecond
      omega

/-- Calls that nothing visits are all found only when there are none. -/
theorem Found.unvisited (calls : List Json) : Found [] calls calls.isEmpty := by
  cases calls with
  | nil => exact .nil
  | cons j rest => exact ⟨by simp, by simp⟩

/-- What the flattening finds in a value that is a record. -/
def FoundIn (j : Json) : Prop :=
  (∀ r ∈ visit j, r.isObj = true) → Found (visit j) (callsWithin true j) (exposed j)

/-- What the flattening finds in a value under the key that it follows. -/
def FoundUnder (j : Json) : Prop :=
  (∀ r ∈ visitItems j, r.isObj = true) →
    Found (visitItems j) (callsWithin true j) (exposedValue j)

theorem foundItems {items : List Json} (ih : ∀ j ∈ items, FoundIn j)
    (h : ∀ r ∈ flattenRecords items, r.isObj = true) :
    Found (flattenRecords items) (callsOfItems true items) (exposedItems items) := by
  induction items with
  | nil => exact .nil
  | cons j rest ihRest =>
      rw [flattenRecords, List.forall_mem_append] at h
      rw [List.forall_mem_cons] at ih
      exact (ih.1 h.1).append (ihRest ih.2 h.2)

/-- Under a key that is not followed nothing is found. -/
theorem foundUnfollowed (fields : Fields) :
    Found [] (callsOfFields fields) (exposedFields none fields) := by
  induction fields with
  | nil => exact .nil
  | cons p rest ih =>
      obtain ⟨k, v⟩ := p
      exact (Found.unvisited _).append ih

/-- Under the key that is followed its calls are found. -/
theorem foundFields {key : String} (hKey : isCallKey key = true) {fields : Fields}
    (ih : ∀ p ∈ fields, FoundUnder p.2)
    (h : ∀ r ∈ (visitField key fields).getD [], r.isObj = true) :
    Found ((visitField key fields).getD []) (callsOfFields fields)
      (exposedFields (some key) fields) := by
  induction fields with
  | nil => exact .nil
  | cons p rest ihRest =>
      obtain ⟨k, v⟩ := p
      rw [List.forall_mem_cons] at ih
      rw [visitField] at h ⊢
      rw [callsOfFields, exposedFields]
      by_cases hHere : k = key
      · subst hHere
        simp only [↓reduceIte, Option.getD_some, hKey] at h ⊢
        simpa using (ih.1 h).append (foundUnfollowed rest)
      · have hOther : ¬ some k = some key := fun hEq => hHere (Option.some.inj hEq)
        simp only [if_neg hHere, if_neg hOther] at h ⊢
        exact (Found.unvisited _).append (ihRest ih.2 h)

theorem visitField_isSome (key : String) (fields : Fields) :
    (visitField key fields).isSome = (getField? key fields).isSome := by
  induction fields with
  | nil => rfl
  | cons p rest ih =>
      obtain ⟨k, v⟩ := p
      by_cases hKey : k = key <;> simp [visitField, getField?, hKey, ih]

/-- A record is flattened to itself, without its children, and to theirs. -/
theorem visit_obj (fields : Fields) :
    visit (.obj fields) =
      withoutCalls (.obj fields) :: (visitField (followedKey fields) fields).getD [] := by
  rw [visit, withoutCalls, followedKey, ← visitField_isSome]
  cases hChildren : visitField "children" fields with
  | none => simp
  | some items => simp [hChildren]

theorem isCallKey_followedKey (fields : Fields) : isCallKey (followedKey fields) = true := by
  unfold followedKey
  split <;> rfl

/-- A value that is no record is refused, so that nothing need be found in it. -/
theorem foundIn_of_not_obj {j : Json} (hVisit : visit j = [j]) (hNot : j.isObj = false) :
    FoundIn j := by
  intro h
  rw [hVisit] at h
  exact absurd (h j (List.mem_singleton_self j)) (by simp [hNot])

/-- What the flattening finds in a value, by induction on it. -/
theorem found (j : Json) : FoundIn j ∧ FoundUnder j := by
  induction j using Json.induction with
  | arr items ih =>
      refine ⟨foundIn_of_not_obj (by simp [visit]) rfl, fun h => ?_⟩
      exact foundItems (fun j hj => (ih j hj).1) h
  | obj fields ih =>
      refine ⟨fun h => ?_, fun _ => .unvisited _⟩
      rw [visit_obj] at h ⊢
      rw [List.forall_mem_cons] at h
      have hFields := foundFields (isCallKey_followedKey fields) (fun p hp => (ih p hp).2) h.2
      have hSelf : Found [withoutCalls (.obj fields)] [.obj fields] true := ⟨by simp, by simp⟩
      simpa [callsWithin, exposed] using hSelf.append hFields
  | _ => exact ⟨foundIn_of_not_obj (by simp [visit]) rfl, fun _ => .nil⟩

end Flattening

section Frames

variable {host : Host} {catalog : List (String × String)}

def IsFrameOf (call : Json) (frame : TraceFrame) : Prop :=
  ∃ fields, call = .obj fields ∧ readFrame fields = .ok frame

/-- Where a cheatcode is called: the depth, the phase and the selector. -/
abbrev CheatcodeSite := Int × Phase × Option String

def CheatcodeCall.site (c : CheatcodeCall) : CheatcodeSite := (c.depth, c.phase, c.selector)

def TraceFrame.site? (f : TraceFrame) : Option CheatcodeSite :=
  if f.toAddress = some cheatcodeAddress then some (f.depth, f.phase, f.selector) else none

def callSite? (call : Json) : Option CheatcodeSite :=
  match call with
  | .obj fields => match readFrame fields with
      | .ok frame => frame.site?
      | .error _ => none
  | _ => none

/-- Every call has a frame of its own and every frame is that of a call; the
cheatcodes that policy enforcement reads are the calls to the cheatcode address. -/
structure HidesNothing (calls : List Json) (t : TraceSummary) : Prop where
  frames : ∃ ordered, ordered.Perm t.frames ∧ List.Forall₂ IsFrameOf calls ordered
  cheatcodes : (calls.filterMap callSite?).Perm (t.cheatcodes.map CheatcodeCall.site)

/-- A frame reads none of the two call keys. -/
theorem readFrame_eraseField (fields : Fields) :
    readFrame (eraseField "calls" (eraseField "children" fields)) = readFrame fields := by
  simp (disch := decide) only [readFrame, Json.getD, Json.get?, getField?_eraseField]

/-- A record adds the site of the cheatcode that it calls. -/
theorem recordCheatcode_site {item : Fields} {frame : TraceFrame} {s t : ParseState}
    (h : recordCheatcode host catalog item frame s = .ok t) :
    t.cheatcodes.map CheatcodeCall.site =
      s.cheatcodes.map CheatcodeCall.site ++ frame.site?.toList := by
  unfold recordCheatcode at h
  by_cases hTo : frame.toAddress = some cheatcodeAddress
  · have hSite : frame.site? = some (frame.depth, frame.phase, frame.selector) := if_pos hTo
    have hNot : ¬ frame.toAddress ≠ some cheatcodeAddress := fun hNe => hNe hTo
    simp only [if_neg hNot] at h
    split at h
    · simp only [bind_eq_ok, pure_eq_ok] at h
      obtain ⟨_, _, _, _, rfl⟩ := h
      simp [hSite, CheatcodeCall.site]
    · split at h
      · simp only [bind_eq_ok, pure_eq_ok] at h
        obtain ⟨_, _, _, _, rfl⟩ := h
        simp [hSite, CheatcodeCall.site]
      · rw [pure_eq_ok] at h
        subst h
        simp [hSite, CheatcodeCall.site]
  · have hSite : frame.site? = none := if_neg hTo
    rw [if_pos hTo, pure_eq_ok] at h
    rw [← h, hSite, Option.toList_none, List.append_nil]

/-- The cheatcodes of a parsed trace are its frames to the cheatcode address. -/
theorem cheatcodes_of_loop {records : List Json} {timestamp block : Option Int}
    {final : ParseState}
    (h : records.foldlM (parseRecord host catalog) (.initial timestamp block) = .ok final) :
    final.cheatcodes.map CheatcodeCall.site = final.frames.filterMap TraceFrame.site? := by
  refine foldlM_induction (fun _ s =>
    s.cheatcodes.map CheatcodeCall.site = s.frames.filterMap TraceFrame.site?) rfl ?_ h
  intro done s record t hDone hStep
  cases record with
  | obj item =>
      simp only [parseRecord, bind_eq_ok, pure_eq_ok] at hStep
      obtain ⟨frame, hFrame, u, hCheat, _, _, _, _, rfl⟩ := hStep
      have hFrames := (recordCheatcode_step hFrame hCheat).frames
      have hSite := recordCheatcode_site hCheat
      simp only [hFrames, hSite, hDone, List.filterMap_append]
      cases hOf : frame.site? <;> simp [hOf]
  | _ => simp [parseRecord] at hStep

/-- Frames that are those of the calls have their sites. -/
theorem sites_eq {calls : List Json} {frames : List TraceFrame}
    (h : List.Forall₂ IsFrameOf calls frames) :
    calls.filterMap callSite? = frames.filterMap TraceFrame.site? := by
  induction h with
  | nil => rfl
  | cons hHead _ ih =>
      obtain ⟨fields, rfl, hFrame⟩ := hHead
      simp only [List.filterMap_cons, callSite?, hFrame, ih]

/-- A parsed trace hides no call exactly when every record of it holds its calls in
the list that the flattening follows. -/
theorem parse_trace_hides_nothing_iff {payload : Json} {t : TraceSummary}
    (h : parseTrace host (.parsed payload) catalog = .ok t) :
    ∃ records, traceRecords payload = .ok records ∧
      (HidesNothing (callsOfItems true records) t ↔ exposedItems records = true) := by
  simp only [parseTrace, parseRecords, runRecords, bind_eq_ok, pure_eq_ok] at h
  obtain ⟨_, ⟨records, hRecords, timestamp, _, block, _, final, hLoop, rfl⟩, rfl⟩ := h
  have hFrames := (parsed_of_loop hLoop).frames
  have hObjects : ∀ r ∈ flattenRecords records, r.isObj = true := by
    intro r hr
    obtain ⟨frame, _, item, rfl, _⟩ := forall₂_exists_left hFrames.flip hr
    rfl
  have hFound := foundItems (fun j _ => (found j).1) hObjects
  refine ⟨records, hRecords, fun hNothing => ?_, fun hExposed => ?_⟩
  · -- a call that is not exposed leaves fewer frames than calls
    obtain ⟨ordered, hPerm, hOwn⟩ := hNothing.frames
    rw [← Bool.not_eq_false]
    intro hHidden
    have hShort := hFound.short hHidden
    have hLength := hFrames.length_eq
    have hOrdered := hOwn.length_eq
    have hSame : ordered.length = final.frames.length := hPerm.length_eq
    omega
  · have hOwn : List.Forall₂ IsFrameOf (callsOfItems true records) final.frames := by
      rw [hFound.all hExposed, List.forall₂_map_left_iff] at hFrames
      refine hFrames.imp ?_
      rintro call frame ⟨item, hItem, hFrame⟩
      cases call with
      | obj fields =>
          cases hItem
          exact ⟨fields, rfl, by rwa [readFrame_eraseField] at hFrame⟩
      | _ => cases hItem
    refine ⟨⟨final.frames, .refl _, hOwn⟩, ?_⟩
    have hSites : final.cheatcodes.map CheatcodeCall.site = _ := cheatcodes_of_loop hLoop
    rw [sites_eq hOwn]
    exact hSites ▸ .refl _

/-- A call to the cheatcode address under `calls`, beside an empty list of children. -/
def hiddenCall : Json := .arr [.obj
  [("calls", .arr [.obj [("to", .str cheatcodeAddress)]]), ("children", .arr [])]]

/-- The trace of the record whose call is hidden. -/
def hiddenTrace : TraceSummary :=
  (ParsedPayload.mk none none
    ⟨[⟨0, "call", none, none, .witness, .null, .null, none, true, []⟩], [], [], [], none, none,
      0, 0, 0⟩).summary ""

theorem hiddenCall_parsed :
    parseTrace (.digesting fun _ => "") (.parsed hiddenCall) [] = .ok hiddenTrace := rfl

/-- A call beside an empty list of children has no frame. -/
theorem hidden_call_accepted :
    ¬ ∀ (host : Host) (catalog : List (String × String)) (payload : Json) (t : TraceSummary)
      (records : List Json), parseTrace host (.parsed payload) catalog = .ok t →
        traceRecords payload = .ok records → HidesNothing (callsOfItems true records) t := by
  intro h
  obtain ⟨ordered, hPerm, hOwn⟩ := (h _ [] hiddenCall hiddenTrace _ hiddenCall_parsed rfl).frames
  have hFrames : ordered.length = 1 := hPerm.length_eq
  have hCalls : 2 = ordered.length := hOwn.length_eq
  omega

theorem hiddenCall_hides_nothing_iff :
    ∃ records, traceRecords hiddenCall = .ok records ∧
      (HidesNothing (callsOfItems true records) hiddenTrace ↔ exposedItems records = true) :=
  parse_trace_hides_nothing_iff hiddenCall_parsed

end Frames
end L0vi0x.Chain
