import L0vi0x.Chain.TracePipeline

/-! How the adapter fails. Whatever the payload, it returns or raises its own format error, but
for three accesses that no earlier check covers. -/
namespace L0vi0x.Python

section RaisesOnly

variable {α β : Type} {kind : ErrorKind}

/-- A call that returns or raises errors of one kind. -/
def RaisesOnly (kind : ErrorKind) (call : Py α) : Prop := ∀ e, call = .error e → e.kind = kind

theorem RaisesOnly.ok (a : α) : RaisesOnly kind (.ok a : Py α) := by
  intro e h
  cases h

theorem RaisesOnly.pure (a : α) : RaisesOnly kind (pure a : Py α) := .ok a

theorem RaisesOnly.raise (message : String) : RaisesOnly kind (raise kind message : Py α) := by
  rintro e ⟨⟩
  rfl

theorem RaisesOnly.raiseIf (condition : Bool) (message : String) :
    RaisesOnly kind (raiseIf condition kind message) := by
  cases condition with
  | false => exact .pure ()
  | true => exact .raise message

/-- What raises errors of one kind may be continued with what does. -/
theorem RaisesOnly.bind {first : Py α} {rest : α → Py β} (hFirst : RaisesOnly kind first)
    (hRest : ∀ a, first = .ok a → RaisesOnly kind (rest a)) : RaisesOnly kind (first >>= rest) := by
  cases first with
  | error e =>
      rintro e' ⟨⟩
      exact hFirst e rfl
  | ok a => exact hRest a rfl

theorem RaisesOnly.map {f : α → β} {first : Py α} (h : RaisesOnly kind first) :
    RaisesOnly kind (f <$> first) := by
  cases first with
  | error e =>
      rintro e' ⟨⟩
      exact h e rfl
  | ok a => exact .ok (f a)

/-- A choice between calls that raise errors of one kind. -/
theorem RaisesOnly.ite {condition : Prop} [Decidable condition] {yes no : Py α}
    (hYes : condition → RaisesOnly kind yes) (hNo : ¬ condition → RaisesOnly kind no) :
    RaisesOnly kind (if condition then yes else no) := by
  by_cases h : condition
  · rw [if_pos h]
    exact hYes h
  · rw [if_neg h]
    exact hNo h

/-- The items of a list are mapped in turn, and the first error is that of an item. -/
theorem RaisesOnly.mapM {f : α → Py β} {items : List α} (h : ∀ a ∈ items, RaisesOnly kind (f a)) :
    RaisesOnly kind (items.mapM f) := by
  induction items with
  | nil =>
      rw [List.mapM_nil]
      exact .pure []
  | cons a items ih =>
      rw [List.forall_mem_cons] at h
      rw [List.mapM_cons]
      exact h.1.bind fun _ _ => (ih h.2).bind fun _ _ => .pure _

/-- The steps of a fold raise what the fold raises. -/
theorem RaisesOnly.foldlM {f : β → α → Py β} {items : List α} {start : β}
    (h : ∀ b a, RaisesOnly kind (f b a)) : RaisesOnly kind (items.foldlM f start) := by
  induction items generalizing start with
  | nil =>
      rw [List.foldlM_nil]
      exact .pure start
  | cons a items ih =>
      rw [List.foldlM_cons]
      exact (h start a).bind fun _ _ => ih

/-- The handler answers for what it catches. -/
theorem RaisesOnly.except {body : Py α} {catches : ErrorKind → Bool} {handler : PyError → Py α}
    (hBody : ∀ e, body = .error e → catches e.kind = false → e.kind = kind)
    (hHandler : ∀ e, RaisesOnly kind (handler e)) :
    RaisesOnly kind (except body catches handler) := by
  cases body with
  | ok a => exact .ok a
  | error e =>
      rw [Python.except]
      by_cases h : catches e.kind = true
      · simp only [h, ↓reduceIte]
        exact hHandler e
      · simp only [h]
        rintro e' ⟨⟩
        exact hBody e rfl (by simpa using h)

/-- A call that fails with another kind. -/
theorem not_raisesOnly {call : Py α} {e : PyError} (h : call = .error e) (hKind : e.kind ≠ kind) :
    ¬ RaisesOnly kind call := fun hOnly => hKind (hOnly e h)

/-- Whether a call fails with an error of this kind. -/
def failsWith (kind : ErrorKind) : Py α → Bool
  | .ok _ => false
  | .error e => e.kind = kind

theorem not_raisesOnly_of_failsWith {other : ErrorKind} {call : Py α}
    (h : failsWith other call = true) (hNe : other ≠ kind) : ¬ RaisesOnly kind call := by
  cases call with
  | ok a => cases h
  | error e =>
      have hKind : e.kind = other := of_decide_eq_true h
      exact not_raisesOnly rfl (hKind ▸ hNe)

/-- What a first statement that returns leaves to the rest. -/
theorem raisesOnly_bind_iff {first : Py α} {rest : α → Py β} {a : α} (h : first = .ok a) :
    RaisesOnly kind (first >>= rest) ↔ RaisesOnly kind (rest a) := by
  subst h
  rfl

/-- A first statement that raises nothing else leaves the matter to the rest. -/
theorem raisesOnly_bind {first : Py α} {rest : α → Py β} (hFirst : RaisesOnly kind first) :
    RaisesOnly kind (first >>= rest) ↔ ∀ a, first = .ok a → RaisesOnly kind (rest a) := by
  refine ⟨fun h a ha => ?_, fun h => hFirst.bind h⟩
  subst ha
  exact h

/-- A last statement that returns changes nothing. -/
theorem raisesOnly_bind_pure {first : Py α} {f : α → β} :
    RaisesOnly kind (first >>= fun a => Pure.pure (f a)) ↔ RaisesOnly kind first := by
  cases first with
  | error e => exact ⟨fun h e' he => h e' (by cases he; rfl), fun h e' he => h e' (by cases he; rfl)⟩
  | ok a => exact iff_of_true (.ok _) (.ok _)

end RaisesOnly
end L0vi0x.Python

namespace L0vi0x.Chain

open L0vi0x.Python L0vi0x.Core

/-- A call that returns or rejects its input. -/
abbrev Rejects {α : Type} (call : Py α) : Prop := RaisesOnly .foundryTraceFormatError call

section Decoding

variable {host : Host}

theorem formatError_rejects {α : Type} (message : String) : Rejects (formatError message : Py α) :=
  .raise message

/-- A word behind the end of the data is a decoding error. -/
theorem wordAt_raises (data : Bytes) (offset : Nat) :
    RaisesOnly .cheatcodeDecodeError (wordAt data offset) :=
  .ite (fun _ => .raise _) fun _ => .pure _

theorem decodeStatic_raises (kind : AbiType) (word : Bytes) :
    RaisesOnly .cheatcodeDecodeError (decodeStatic kind word) := by
  cases kind with
  | address => exact .ite (fun _ => .raise _) fun _ => .pure _
  | bool => exact .ite (fun _ => .pure _) fun _ => .ite (fun _ => .pure _) fun _ => .raise _
  | uint bits => exact .ite (fun _ => .raise _) fun _ => .pure _
  | int bits => exact .ite (fun _ => .pure _) fun _ => .raise _
  | fixedBytes size => exact .ite (fun _ => .raise _) fun _ => .pure _
  | text => exact .raise _
  | bytes => exact .raise _
  | array element => exact .raise _

/-- So are an offset, a length or a padding that does not fit. -/
theorem decodeDynamic_raises (kind : AbiType) (data head : Bytes) :
    RaisesOnly .cheatcodeDecodeError (decodeDynamic kind data head) :=
  (wordAt_raises _ _).bind fun _ _ => .ite (fun _ => .raise _) fun _ => .pure _

/-- The arguments of a call are decoded, or there is a decoding error. -/
theorem decodeAbiArguments_raises (types : List AbiType) (body : Bytes) :
    RaisesOnly .cheatcodeDecodeError (decodeAbiArguments types body) := by
  rw [decodeAbiArguments]
  generalize 0 = index
  induction types generalizing index with
  | nil => exact .pure []
  | cons kind rest ih =>
      have hFirst : RaisesOnly .cheatcodeDecodeError (decodeArgument kind body index) := by
        refine (wordAt_raises _ _).bind fun head _ => ?_
        cases kind with
        | text => exact decodeDynamic_raises _ _ _
        | bytes => exact decodeDynamic_raises _ _ _
        | array element => exact .pure _
        | _ => exact decodeStatic_raises _ _
      rw [decodeFrom]
      exact hFirst.bind fun _ _ => (ih (index + 1)).bind fun _ _ => .pure _

/-- A cheatcode call is decoded, or there is a decoding error. -/
theorem decodeCheatcode_raises (calldata : String) :
    RaisesOnly .cheatcodeDecodeError (decodeCheatcode host calldata) := by
  unfold decodeCheatcode
  refine (RaisesOnly.raiseIf _ _).bind fun _ _ => ?_
  split
  · exact .raise _
  · refine .ite (fun _ => .pure _) fun _ => ?_
    dsimp only
    split
    · exact .pure _
    · exact (decodeAbiArguments_raises _ _).bind fun _ _ => .pure _

/-- What `decoding` wraps is rejected where it raises a decoding error. -/
theorem decoding_rejects {α : Type} {context : String} {body : Py α}
    (h : RaisesOnly .cheatcodeDecodeError body) : Rejects (decoding context body) := by
  refine RaisesOnly.except (fun e he hNot => ?_) fun e => formatError_rejects _
  rw [h e he] at hNot
  cases hNot

end Decoding

section Texts

/-- A text that `bytes.fromhex` reads behind its `0x`. -/
def ReadsHex (text : String) : Prop := ∃ raw, hexBody text = .ok raw

/-- A value is read as hexadecimal text, or rejected. -/
theorem hexText_rejects (value : Json) (label : String) : Rejects (hexText value label) := by
  unfold hexText
  split
  · refine .ite (fun _ => ?_) fun _ => formatError_rejects _
    split
    · exact .pure _
    · exact formatError_rejects _
  · exact formatError_rejects _

/-- What is read as hexadecimal text is read by `bytes.fromhex` again. -/
theorem hexText_reads {value : Json} {label text : String} (h : hexText value label = .ok text) :
    ReadsHex text := by
  unfold hexText at h
  split at h
  · rename_i s
    split at h
    · split at h
      · rename_i raw hRaw
        obtain rfl := pure_eq_ok.mp h
        have hLower : dropText (lower s) 2 = lower (dropText s 2) := by
          simp [dropText, lower, List.map_drop]
        refine ⟨raw, ?_⟩
        rw [bytesOfHex?] at hRaw
        rw [hexBody, hLower, bytesOfHex, bytesOfHex?, lower, String.toList_ofList,
          bytesOfHexChars?_map_toLower, hRaw]
        rfl
      · simp [formatError] at h
    · simp [formatError] at h
  · simp [formatError] at h

theorem addressText_rejects (value : Json) (label : String) : Rejects (addressText value label) :=
  (hexText_rejects value label).bind fun _ _ => .ite (fun _ => .pure _) fun _ => formatError_rejects _

/-- A value is read as a natural number, or rejected. -/
theorem naturalInt_rejects (value : Json) (label : String) : Rejects (naturalInt value label) := by
  unfold naturalInt
  split
  · exact .ite (fun _ => formatError_rejects _) fun _ => .pure _
  · exact formatError_rejects _

/-- A word that was read as hexadecimal has a label, or is rejected. -/
theorem bytes32Label_rejects {word : String} (h : ReadsHex word) : Rejects (bytes32Label word) := by
  obtain ⟨raw, hRaw⟩ := h
  exact (raisesOnly_bind_iff hRaw).mpr (.ite (fun _ => .pure _) fun _ => .pure _)

/-- An event whose topics and data were read is decoded, or rejected. -/
theorem decodeIndexed_rejects (event : Signature) (indexed : String) {topics : List String}
    {data : String} (hTopics : ∀ t ∈ topics, ReadsHex t) (hData : ReadsHex data) :
    Rejects (decodeIndexed event indexed topics data) := by
  obtain ⟨raw, hRaw⟩ := hData
  unfold decodeIndexed
  split
  · rename_i first word
    refine (RaisesOnly.raiseIf _ _).bind fun _ _ => ?_
    refine RaisesOnly.bind (decoding_rejects ?_) fun _ _ => ?_
    · rw [raisesOnly_bind_iff hRaw]
      exact decodeAbiArguments_raises _ _
    · exact (bytes32Label_rejects (hTopics word (by simp))).bind fun _ _ => .pure _
  · exact formatError_rejects _

end Texts

section Logs

variable {host : Host} {topics : List String} {data : String} {reverted : Bool}

/-- A transfer between two addresses whose amount is no integer to `int(data, 16)`: white space
that `bytes.fromhex` skips stands before a digit, or there is no digit. -/
structure BadAmount (topics : List String) (data : String) : Prop where
  topics : ∃ first source target, topics = [first, source, target] ∧
    ∀ topic ∈ [source, target], (topic.toList.drop 2).take 24 = List.replicate 24 '0'
  length : data.length = 66
  amount : ∀ i, intOfHex data ≠ .ok i

/-- A log that is read as a transfer: one that was not undone, under none of the events. -/
structure IsTransfer (host : Host) (topics : List String) (reverted : Bool) : Prop where
  kept : reverted = false
  first : topics.head? = some (topic0 host transferSignature)
  other : ∀ event ∈ [assertionSignature, controlSignature, contextSignature, econSignature],
    topics.head? ≠ some (topic0 host event)

theorem intOfHex_error {e : PyError} (h : intOfHex data = .error e) : e.kind = .valueError := by
  unfold intOfHex at h
  split at h
  · cases h
  · cases h
    rfl

/-- A transfer fails with another error exactly when its amount is no integer. -/
theorem decodeTransfer_rejects_iff (address : String) :
    Rejects (decodeTransfer address topics data) ↔ ¬ BadAmount topics data := by
  unfold decodeTransfer
  split
  · rename_i first source target
    dsimp only
    split
    · rename_i hShort
      refine iff_of_true (.pure _) fun hBad => ?_
      obtain ⟨first', source', target', hTopics, hPadded⟩ := hBad.topics
      cases hTopics
      rw [List.forall_mem_cons, List.forall_mem_singleton] at hPadded
      simp [hBad.length, hPadded.1, hPadded.2] at hShort
    · rename_i hLong
      simp only [ne_eq, not_or, not_not, Bool.not_eq_true', decide_eq_false_iff_not] at hLong
      cases hInt : intOfHex data with
      | ok i => exact iff_of_true (.pure _) fun hBad => hBad.amount i hInt
      | error e =>
          refine iff_of_false (not_raisesOnly rfl ?_) (not_not.mpr ?_)
          · rw [intOfHex_error hInt]
            decide
          · refine ⟨⟨first, source, target, rfl, ?_⟩, hLong.1, fun i hi => ?_⟩
            · rw [List.forall_mem_cons, List.forall_mem_singleton]
              exact hLong.2
            · rw [hInt] at hi
              cases hi
  · rename_i hOther
    refine iff_of_true (.pure _) fun hBad => ?_
    obtain ⟨first, source, target, hTopics, -⟩ := hBad.topics
    exact hOther first source target hTopics

/-- A log fails with another error exactly when it is read as such a transfer. -/
theorem decodeLog_rejects_iff (address : String) (hTopics : ∀ t ∈ topics, ReadsHex t)
    (hData : ReadsHex data) : Rejects (decodeLog host address topics data reverted) ↔
      ¬ (IsTransfer host topics reverted ∧ BadAmount topics data) := by
  have hEvent : ∀ (event : Signature) (names : List String) (indexed name : String),
      Rejects (do
        let more ← namedArguments names <$> decodeIndexed event indexed topics data
        pure (("event", Json.str name) :: more, (none : Option Fields))) :=
    fun event names indexed name =>
      (decodeIndexed_rejects event indexed hTopics hData).map.bind fun _ _ => .pure _
  have hNot : ∀ event ∈ [assertionSignature, controlSignature, contextSignature, econSignature],
      topics.head? = some (topic0 host event) →
        ¬ (IsTransfer host topics reverted ∧ BadAmount topics data) :=
    fun event hMem hHead hBad => hBad.1.other event hMem hHead
  unfold decodeLog
  dsimp only
  split
  · rename_i hHead
    exact iff_of_true (hEvent _ _ _ _) (hNot _ (by simp) hHead)
  · rename_i hNotAssertion
    split
    · rename_i hHead
      exact iff_of_true (hEvent _ _ _ _) (hNot _ (by simp) hHead)
    · rename_i hNotControl
      split
      · rename_i hHead
        exact iff_of_true (hEvent _ _ _ _) (hNot _ (by simp) hHead)
      · rename_i hNotContext
        split
        · rename_i hHead
          exact iff_of_true (hEvent _ _ _ _) (hNot _ (by simp) hHead)
        · rename_i hNotEcon
          split
          · rename_i hTransfer
            simp only [Bool.and_eq_true, Bool.not_eq_true', decide_eq_true_eq] at hTransfer
            have hIs : IsTransfer host topics reverted := by
              refine ⟨hTransfer.1, hTransfer.2, ?_⟩
              simp only [List.forall_mem_cons, List.not_mem_nil, false_imp_iff, implies_true]
              exact ⟨hNotAssertion, hNotControl, hNotContext, hNotEcon, trivial⟩
            exact raisesOnly_bind_pure.trans ((decodeTransfer_rejects_iff address).trans
              (not_congr (and_iff_right hIs).symm))
          · rename_i hOther
            refine iff_of_true (.pure _) fun hBad => hOther ?_
            simp [hBad.1.kept, hBad.1.first]

theorem rawTopics_rejects (value : Json) : Rejects (rawTopics value) := by
  unfold rawTopics
  split
  · split
    · exact .ite (fun _ => formatError_rejects _) fun _ => .pure _
    · exact formatError_rejects _
  · exact formatError_rejects _

/-- A log of an arena that is read as a transfer of an amount that is no integer. -/
def BadLog (host : Host) (entry : Json) (reverted : Bool) : Prop :=
  ∃ raw given address topics data, entry.get? "raw_log" = some (.obj raw) ∧
    rawTopics ((Json.obj raw).getD "topics" .null) = .ok given ∧
    addressText (entry.getD "address" .null) "log emitter" = .ok address ∧
    given.mapM (fun t => hexText (.str t) "log topic") = .ok topics ∧
    hexText ((Json.obj raw).getD "data" (.str "0x")) "log data" = .ok data ∧
    IsTransfer host topics reverted ∧ BadAmount topics data

/-- The topics of a log have been read as hexadecimal. -/
theorem topics_read {given topics : List String}
    (h : given.mapM (fun t => hexText (.str t) "log topic") = .ok topics) :
    ∀ t ∈ topics, ReadsHex t := by
  have hAll := mapM_eq_ok.mp h
  induction hAll with
  | nil => exact fun t ht => (List.not_mem_nil ht).elim
  | cons hHead _ ih =>
      rw [List.forall_mem_cons]
      exact ⟨hexText_reads hHead, ih (mapM_eq_ok.mpr ‹_›)⟩

/-- The conversion of a log rejects it or returns, but for a bad amount. -/
theorem convertLog_rejects_iff (entry : Json) :
    Rejects (convertLog host entry reverted) ↔ ¬ BadLog host entry reverted := by
  unfold convertLog
  split
  · rename_i raw hRaw
    dsimp only
    have hLog : ∀ {given : List String} {address : String} {topics : List String} {data : String},
        given.mapM (fun t => hexText (.str t) "log topic") = .ok topics →
        hexText ((Json.obj raw).getD "data" (.str "0x")) "log data" = .ok data →
        (Rejects (decodeLog host address topics data reverted >>= fun decoded =>
            pure (ArenaLog.mk address topics data reverted decoded.1 decoded.2)) ↔
          ¬ (IsTransfer host topics reverted ∧ BadAmount topics data)) := by
      intro given address topics data hTopics hData
      exact raisesOnly_bind_pure.trans
        (decodeLog_rejects_iff address (topics_read hTopics) (hexText_reads hData))
    refine (raisesOnly_bind (rawTopics_rejects _)).trans ?_
    constructor
    · rintro h ⟨raw', given, address, topics, data, hRaw', hGiven, hAddress, hTopics, hData, hBad⟩
      obtain rfl := Json.obj.inj (Option.some.inj (hRaw.symm.trans hRaw'))
      have hRest := (raisesOnly_bind_iff hData).mp ((raisesOnly_bind_iff hTopics).mp
        ((raisesOnly_bind_iff hAddress).mp (h given hGiven)))
      exact (hLog hTopics hData).mp hRest hBad
    · intro hNot given hGiven
      refine (addressText_rejects _ _).bind fun address hAddress => ?_
      refine (RaisesOnly.mapM fun t _ => hexText_rejects _ _).bind fun topics hTopics => ?_
      refine (hexText_rejects _ _).bind fun data hData => ?_
      exact (hLog hTopics hData).mpr fun hBad =>
        hNot ⟨raw, given, address, topics, data, hRaw, hGiven, hAddress, hTopics, hData, hBad⟩
  · rename_i hOther
    refine iff_of_true (formatError_rejects _) ?_
    rintro ⟨raw, -, -, -, -, hRaw, -⟩
    exact hOther raw hRaw

end Logs

section Nodes

variable {host : Host} {phase : Phase} {arena : List ArenaNode}

def hasLength (value : Json) : Bool :=
  !value.truthy || match value with
    | .arr _ | .obj _ | .str _ => true
    | _ => false

/-- A value that can be looked up in a mapping. -/
def isHashable : Json → Bool
  | .arr _ | .obj _ => false
  | _ => true

/-- `len` of a value is a number, or a `TypeError`. -/
theorem sizeOrZero_cases (value : Json) :
    (hasLength value = true ∧ ∃ n, sizeOrZero value = .ok n) ∨
      (hasLength value = false ∧ ∃ e, sizeOrZero value = .error e ∧ e.kind = .typeError) := by
  unfold sizeOrZero hasLength
  cases hTruthy : value.truthy with
  | false => exact .inl ⟨rfl, 0, rfl⟩
  | true =>
      cases value with
      | arr items => exact .inl ⟨rfl, _, rfl⟩
      | obj fields => exact .inl ⟨rfl, _, rfl⟩
      | str s => exact .inl ⟨rfl, _, rfl⟩
      | _ => exact .inr ⟨rfl, _, rfl, rfl⟩

/-- What is left of a node is counted, unless its children or its logs have no length. -/
theorem requireConsumed_rejects_iff (o : OpenNode) :
    Rejects (requireConsumed o) ↔ hasLength (o.node.get "children") = true ∧
      (sizeOrZero (o.node.get "children") = .ok o.calls.length →
        hasLength (o.node.get "logs") = true) := by
  unfold requireConsumed
  rcases sizeOrZero_cases (o.node.get "children") with ⟨hHas, n, hSize⟩ | ⟨hNone, e, hSize, hKind⟩
  · refine (raisesOnly_bind_iff hSize).trans ?_
    rw [hSize, and_iff_right hHas]
    by_cases hCount : o.calls.length = n
    · have hPass : raiseIf (decide (o.calls.length ≠ n)) .foundryTraceFormatError
          "arena node has calls or logs missing from its ordering" = .ok () := by
        simp [hCount]
      refine (raisesOnly_bind_iff hPass).trans ?_
      rcases sizeOrZero_cases (o.node.get "logs") with ⟨hHas', m, hLogs⟩ | ⟨hNone, e, hLogs, hKind⟩
      · exact (raisesOnly_bind_iff hLogs).trans (iff_of_true (.raiseIf _ _) fun _ => hHas')
      · refine iff_of_false (not_raisesOnly (e := e) ?_ (by rw [hKind]; decide)) fun h => ?_
        · rw [hLogs]
          rfl
        · rw [hNone] at h
          exact absurd (h (by rw [hCount])) (by decide)
    · have hStop : raiseIf (decide (o.calls.length ≠ n)) .foundryTraceFormatError
          "arena node has calls or logs missing from its ordering" =
            raise .foundryTraceFormatError
              "arena node has calls or logs missing from its ordering" := by
        simp [raiseIf, hCount]
      refine iff_of_true ?_ fun h => absurd (Except.ok.inj h).symm hCount
      rw [hStop]
      exact .raise _
  · refine iff_of_false (not_raisesOnly (e := e) ?_ (by rw [hKind]; decide)) fun h => ?_
    · rw [hSize]
      rfl
    · rw [hNone] at h
      exact absurd h.1 (by decide)

/-- A child is found or refused, unless its reference cannot be looked up. -/
theorem childAt_rejects_iff (node : ArenaNode) (position : Nat) :
    Rejects (childAt arena node position) ↔
      isHashable ((node.listed "children")[position]?.getD .null) = true := by
  rw [childAt]
  generalize (node.listed "children")[position]?.getD .null = reference
  cases reference with
  | arr items =>
      exact iff_of_false (not_raisesOnly rfl (by decide)) (by simp [isHashable])
  | obj fields =>
      exact iff_of_false (not_raisesOnly rfl (by decide)) (by simp [isHashable])
  | _ =>
      refine iff_of_true ((RaisesOnly.pure _).bind fun found _ => ?_) rfl
      cases found with
      | none => exact formatError_rejects _
      | some child => exact .ite (fun _ => .pure _) fun _ => formatError_rejects _

/-- The cheatcode of a frame is decoded, or the frame rejected. -/
theorem headCheatcode_rejects (target kind data : String) :
    Rejects (headCheatcode host target kind data) := by
  refine .ite (fun _ => .map ?_) fun _ => .pure _
  refine (decoding_rejects (decodeCheatcode_raises data)).bind fun decoded _ => ?_
  dsimp only
  refine .ite (fun _ => ?_) fun _ => .pure _
  split
  · exact formatError_rejects _
  · exact .pure _

theorem openNode_rejects (visited : List Int) (reverted : Bool) (node : ArenaNode) :
    Rejects (openNode host phase visited reverted node) := by
  have hFrame : Rejects (openFrame host phase node) := by
    unfold openFrame
    split
    · dsimp only
      refine (RaisesOnly.raiseIf _ _).bind fun _ _ => (addressText_rejects _ _).bind fun _ _ => ?_
      refine (hexText_rejects _ _).bind fun _ _ => RaisesOnly.bind ?_ fun _ _ => ?_
      · unfold traceSuccess
        split
        · exact .pure _
        · exact formatError_rejects _
      · refine (naturalInt_rejects _ _).bind fun _ _ => (addressText_rejects _ _).bind fun _ _ => ?_
        refine (naturalInt_rejects _ _).bind fun _ _ => (headCheatcode_rejects _ _ _).bind ?_
        exact fun _ _ => .pure _
    · exact formatError_rejects _
  have hOrdering : Rejects (ordering node) := by
    unfold ordering
    split
    · split
      · exact .pure _
      · exact formatError_rejects _
    · exact formatError_rejects _
  exact (RaisesOnly.raiseIf _ _).bind fun _ _ => hFrame.bind fun _ _ => hOrdering.bind fun _ _ =>
    .pure _

end Nodes

section Walk

variable {host : Host} {phase : Phase} {arena : List ArenaNode} {s t u : WalkState}

/-- The states of the loop in which the next pass fails with another error: a node that is done
has children or logs without a length, the next call is of a child under a list or a mapping, or
the next log is a transfer of what is no integer. -/
inductive Stuck (host : Host) (s : WalkState) : Prop
  | children (hDone : s.top.steps = []) (hLength : hasLength (s.top.node.get "children") = false)
  | logs (hDone : s.top.steps = [])
      (hCalls : sizeOrZero (s.top.node.get "children") = .ok s.top.calls.length)
      (hLength : hasLength (s.top.node.get "logs") = false)
  | reference (entry : Fields) (rest : List Fields) (value : Json) (position : Nat)
      (hNext : s.top.steps = entry :: rest) (hCall : arenaStep entry = .call value)
      (hFree : freePosition value (s.top.node.listed "children").length s.top.calls = some position)
      (hReference : isHashable ((s.top.node.listed "children")[position]?.getD .null) = false)
  | amount (entry : Fields) (rest : List Fields) (value : Json) (position : Nat)
      (hNext : s.top.steps = entry :: rest) (hLog : arenaStep entry = .log value)
      (hFree : freePosition value (s.top.node.listed "logs").length s.top.positions = some position)
      (hBad : BadLog host ((s.top.node.listed "logs")[position]?.getD .null) s.top.reverted)

/-- Taking a child fails with another error exactly when the child is no key of the index. -/
theorem takeCall_rejects_iff (rest : List Fields) (value : Json) :
    Rejects (takeCall host phase arena s rest value) ↔ ∀ position,
      freePosition value (s.top.node.listed "children").length s.top.calls = some position →
        isHashable ((s.top.node.listed "children")[position]?.getD .null) = true := by
  unfold takeCall
  split
  · rename_i hNone
    refine iff_of_true (formatError_rejects _) fun position hFree => ?_
    rw [hNone] at hFree
    cases hFree
  · rename_i position hFree
    have hRest : Rejects (childAt arena s.top.node position >>= fun child => do
        let opened ← openNode host phase s.visited s.top.reverted child
        let caller := { s.top with steps := rest, calls := s.top.calls ++ [position] }
        pure (WalkState.mk opened (caller :: s.below) (s.visited ++ [child.idx]) s.derived)) ↔
          Rejects (childAt arena s.top.node position) := by
      refine ⟨fun h e he => h e ?_, fun h => h.bind fun child _ => ?_⟩
      · rw [he]
        rfl
      · exact (openNode_rejects _ _ _).bind fun _ _ => .pure _
    rw [hFree]
    refine hRest.trans ((childAt_rejects_iff _ _).trans ⟨fun h position' hSame => ?_, fun h => ?_⟩)
    · obtain rfl := Option.some.inj hSame
      exact h
    · exact h position rfl

/-- Taking a log fails with another error exactly when it has a bad amount. -/
theorem takeLog_rejects_iff (rest : List Fields) (value : Json) :
    Rejects (takeLog host s rest value) ↔ ∀ position,
      freePosition value (s.top.node.listed "logs").length s.top.positions = some position →
        ¬ BadLog host ((s.top.node.listed "logs")[position]?.getD .null) s.top.reverted := by
  unfold takeLog
  split
  · rename_i hNone
    refine iff_of_true (formatError_rejects _) fun position hFree => ?_
    rw [hNone] at hFree
    cases hFree
  · rename_i position hFree
    rw [hFree]
    refine raisesOnly_bind_pure.trans ((convertLog_rejects_iff _).trans
      ⟨fun h position' hSame => ?_, fun h => ?_⟩)
    · obtain rfl := Option.some.inj hSame
      exact h
    · exact h position rfl

/-- What makes a state stuck whose top has entries left. -/
theorem stuck_cons_iff {entry : Fields} {rest : List Fields} (h : s.top.steps = entry :: rest) :
    Stuck host s ↔ (∃ value position, arenaStep entry = .call value ∧
        freePosition value (s.top.node.listed "children").length s.top.calls = some position ∧
        isHashable ((s.top.node.listed "children")[position]?.getD .null) = false) ∨
      ∃ value position, arenaStep entry = .log value ∧
        freePosition value (s.top.node.listed "logs").length s.top.positions = some position ∧
        BadLog host ((s.top.node.listed "logs")[position]?.getD .null) s.top.reverted := by
  constructor
  · intro hStuck
    cases hStuck with
    | children hDone => cases h.symm.trans hDone
    | logs hDone => cases h.symm.trans hDone
    | reference entry' rest' value position hNext hCall hFree hReference =>
        obtain ⟨rfl, rfl⟩ := List.cons.inj (h.symm.trans hNext)
        exact .inl ⟨value, position, hCall, hFree, hReference⟩
    | amount entry' rest' value position hNext hLog hFree hBad =>
        obtain ⟨rfl, rfl⟩ := List.cons.inj (h.symm.trans hNext)
        exact .inr ⟨value, position, hLog, hFree, hBad⟩
  · rintro (⟨value, position, hCall, hFree, hReference⟩ | ⟨value, position, hLog, hFree, hBad⟩)
    · exact .reference entry rest value position h hCall hFree hReference
    · exact .amount entry rest value position h hLog hFree hBad

/-- A pass returns or rejects exactly in the states that are not stuck. -/
theorem walkStep_rejects_iff : Rejects (walkStep host phase arena s) ↔ ¬ Stuck host s := by
  unfold walkStep
  cases hSteps : s.top.steps with
  | nil =>
      refine raisesOnly_bind_pure.trans ((requireConsumed_rejects_iff s.top).trans ?_)
      constructor
      · rintro ⟨hChildren, hLogs⟩ hStuck
        cases hStuck with
        | children _ hNone => exact absurd (hNone.symm.trans hChildren) (by decide)
        | logs _ hCalls hNone => exact absurd (hNone.symm.trans (hLogs hCalls)) (by decide)
        | reference _ _ _ _ hNext => cases hSteps.symm.trans hNext
        | amount _ _ _ _ hNext => cases hSteps.symm.trans hNext
      · intro hNot
        refine ⟨?_, fun hCalls => ?_⟩
        · by_contra hNone
          exact hNot (.children hSteps (by simpa using hNone))
        · by_contra hNone
          exact hNot (.logs hSteps hCalls (by simpa using hNone))
  | cons entry rest =>
      rw [stuck_cons_iff hSteps]
      dsimp only
      cases hStep : arenaStep entry with
      | skip => exact iff_of_true (.pure _) (by simp)
      | unknown => exact iff_of_true (formatError_rejects _) (by simp)
      | call value =>
          have hOnly : Rejects (Progress.running <$> takeCall host phase arena s rest value) ↔
              Rejects (takeCall host phase arena s rest value) :=
            ⟨fun h e he => h e (by rw [he]; rfl), RaisesOnly.map⟩
          refine hOnly.trans ((takeCall_rejects_iff rest value).trans ?_)
          simp
      | log value =>
          have hOnly : Rejects (Progress.running <$> takeLog host s rest value) ↔
              Rejects (takeLog host s rest value) :=
            ⟨fun h e he => h e (by rw [he]; rfl), RaisesOnly.map⟩
          refine hOnly.trans ((takeLog_rejects_iff rest value).trans ?_)
          simp

/-- The states that the loop comes to. -/
inductive Walks (host : Host) (phase : Phase) (arena : List ArenaNode) :
    WalkState → WalkState → Prop
  | here {s : WalkState} : Walks host phase arena s s
  | pass {s t u : WalkState} (hStep : walkStep host phase arena s = .ok (.running t))
      (hRest : Walks host phase arena t u) : Walks host phase arena s u

/-- The loop ends as the pass does that fails in a state it comes to. -/
theorem walk_error {fuel : Nat} {outcome : Py Walked} {e : PyError}
    (h : walk host phase arena fuel s = some outcome) (hWalks : Walks host phase arena s t)
    (hError : walkStep host phase arena t = .error e) : outcome = .error e := by
  induction hWalks generalizing fuel with
  | here =>
      cases fuel with
      | zero => cases h
      | succ fuel =>
          rw [walk, hError] at h
          exact (Option.some.inj h).symm
  | pass hStep _ ih =>
      cases fuel with
      | zero => cases h
      | succ fuel =>
          rw [walk, hStep] at h
          exact ih h hError

/-- A loop that fails does so in a pass. -/
theorem walk_fails {fuel : Nat} {e : PyError}
    (h : walk host phase arena fuel s = some (.error e)) :
    ∃ t, Walks host phase arena s t ∧ walkStep host phase arena t = .error e := by
  induction fuel generalizing s with
  | zero => cases h
  | succ fuel ih =>
      rw [walk] at h
      cases hStep : walkStep host phase arena s with
      | error e' =>
          rw [hStep] at h
          obtain rfl := Except.error.inj (Option.some.inj h)
          exact ⟨s, .here, hStep⟩
      | ok next =>
          rw [hStep] at h
          cases next with
          | finished w => cases h
          | running t =>
              obtain ⟨u, hWalks, hError⟩ := ih h
              exact ⟨u, .pass hStep hWalks, hError⟩

/-- The loop fails with another error exactly when it comes to a stuck state, by induction on the
fuel. -/
theorem walk_rejects_iff {fuel : Nat} {outcome : Py Walked}
    (h : walk host phase arena fuel s = some outcome) :
    Rejects outcome ↔ ∀ t, Walks host phase arena s t → ¬ Stuck host t := by
  constructor
  · intro hOnly t hWalks
    rw [← @walkStep_rejects_iff host phase arena]
    intro e hError
    exact hOnly e (walk_error h hWalks hError)
  · rintro hNever e rfl
    obtain ⟨t, hWalks, hError⟩ := walk_fails h
    exact walkStep_rejects_iff.mpr (hNever t hWalks) e hError

/-- The conversion of an arena comes to a stuck state. -/
def ArenaSticks (host : Host) (phase : Phase) (nodes : List Fields) (before : List DerivedLog) :
    Prop :=
  ∃ arena s t, indexNodes nodes = .ok arena ∧ startWalk host phase arena before = .ok s ∧
    Walks host phase arena s t ∧ Stuck host t

/-- Nodes with a wrong or a repeated index are rejected. -/
theorem indexNodes_rejects (nodes : List Fields) : Rejects (indexNodes nodes) := by
  refine RaisesOnly.foldlM fun arena fields => ?_
  split
  · exact .ite (fun _ => formatError_rejects _) fun _ => .pure _
  · exact formatError_rejects _

theorem startWalk_rejects (arena : List ArenaNode) (before : List DerivedLog) :
    Rejects (startWalk host phase arena before) := by
  unfold startWalk
  split
  · exact (openNode_rejects _ _ _).bind fun _ _ => .pure _
  · exact formatError_rejects _

/-- An arena fails with another error exactly when its walk comes to a stuck state. -/
theorem convertArena_rejects_iff (nodes : List Fields) (before : List DerivedLog) :
    Rejects (convertArena host phase nodes before) ↔ ¬ ArenaSticks host phase nodes before := by
  have hSome : convertArenaWithin (arenaFuel nodes) host phase nodes before =
      some (convertArena host phase nodes before) := by
    rw [convertArena, Option.some_get]
  generalize convertArena host phase nodes before = outcome at hSome
  unfold convertArenaWithin at hSome
  cases hIndex : indexNodes nodes with
  | error e =>
      rw [hIndex] at hSome
      obtain rfl := Option.some.inj hSome
      refine iff_of_true (fun e' he => indexNodes_rejects nodes e' (by cases he; exact hIndex)) ?_
      rintro ⟨arena, s, t, hOk, -⟩
      cases hIndex.symm.trans hOk
  | ok arena =>
      rw [hIndex] at hSome
      cases hStart : startWalk host phase arena before with
      | error e =>
          simp only [hStart, Option.some.injEq] at hSome
          subst hSome
          refine iff_of_true
            (fun e' he => startWalk_rejects arena before e' (by cases he; exact hStart)) ?_
          rintro ⟨arena', s, t, hOk, hOk', -⟩
          obtain rfl := Except.ok.inj (hIndex.symm.trans hOk)
          cases hStart.symm.trans hOk'
      | ok s =>
          simp only [hStart, Option.map_eq_some_iff] at hSome
          obtain ⟨walked, hWalk, rfl⟩ := hSome
          have hAll : Rejects (walked >>= walkedAll arena) ↔ Rejects walked :=
            ⟨fun h e he => h e (by rw [he]; rfl), fun h => h.bind fun w _ =>
              (RaisesOnly.raiseIf _ _).bind fun _ _ => .pure _⟩
          rw [hAll, walk_rejects_iff hWalk]
          constructor
          · rintro hNever ⟨arena', s', t, hOk, hOk', hWalks, hStuck⟩
            obtain rfl := Except.ok.inj (hIndex.symm.trans hOk)
            obtain rfl := Except.ok.inj (hStart.symm.trans hOk')
            exact hNever t hWalks hStuck
          · exact fun hNot t hWalks hStuck => hNot ⟨arena, s, t, hIndex, hStart, hWalks, hStuck⟩

end Walk

section Adapter

variable {host : Host} {payload : Fields} {testFile testName : String}

/-- The arenas are converted in turn, each with the logs of those before it. -/
theorem convertArenas_rejects_iff (arenas : List (Phase × List Fields)) (before : List DerivedLog) :
    Rejects (convertArenas host arenas before) ↔ ∀ first phase nodes rest frames derived,
      arenas = first ++ (phase, nodes) :: rest →
        convertArenas host first before = .ok (frames, derived) →
          ¬ ArenaSticks host phase nodes derived := by
  induction arenas generalizing before with
  | nil =>
      refine iff_of_true (.pure _) fun first phase nodes rest frames derived hSplit => ?_
      cases first <;> cases hSplit
  | cons arena others ih =>
      obtain ⟨phase, nodes⟩ := arena
      constructor
      · intro h first phase' nodes' rest frames derived hSplit hFirst
        cases first with
        | nil =>
            obtain ⟨hArena, -⟩ := List.cons.inj hSplit
            cases hArena
            obtain ⟨-, rfl⟩ := Prod.mk.inj (Except.ok.inj hFirst)
            rw [← convertArena_rejects_iff]
            intro e he
            refine h e ?_
            rw [convertArenas, he]
            rfl
        | cons arena' first =>
            obtain ⟨rfl, rfl⟩ := List.cons.inj hSplit
            rw [convertArenas, bind_eq_ok] at hFirst
            obtain ⟨⟨frame, next⟩, hArena, hFirst⟩ := hFirst
            obtain ⟨⟨frames', after⟩, hMore, hFirst⟩ := bind_eq_ok.mp hFirst
            cases hFirst
            rw [convertArenas] at h
            have hRest := raisesOnly_bind_pure.mp ((raisesOnly_bind_iff hArena).mp h)
            exact (ih next).mp hRest first phase' nodes' rest frames' derived rfl hMore
      · intro hNever
        rw [convertArenas]
        have hArena := (@convertArena_rejects_iff host phase nodes before).mpr
          (hNever [] phase nodes others [] before rfl rfl)
        refine hArena.bind fun outcome hOutcome => raisesOnly_bind_pure.mpr ((ih outcome.2).mpr ?_)
        rintro first phase' nodes' rest frames derived rfl hFirst
        refine hNever ((phase, nodes) :: first) phase' nodes' rest (outcome.1 :: frames) derived rfl ?_
        rw [convertArenas, bind_eq_ok]
        refine ⟨outcome, hOutcome, ?_⟩
        rw [bind_eq_ok]
        exact ⟨_, hFirst, rfl⟩

/-- A call that raises what a handler of `KeyError` and `TypeError` catches, or rejects. -/
def RejectsOrCaught {α : Type} (call : Py α) : Prop :=
  ∀ e, call = .error e → e.kind = .keyError ∨ e.kind = .typeError ∨ e.kind = .foundryTraceFormatError

/-- What a handler catches may be continued with what it catches. -/
theorem RejectsOrCaught.bind {α β : Type} {first : Py α} {rest : α → Py β}
    (hFirst : RejectsOrCaught first) (hRest : ∀ a, RejectsOrCaught (rest a)) :
    RejectsOrCaught (first >>= rest) := by
  cases first with
  | error e =>
      rintro e' ⟨⟩
      exact hFirst e rfl
  | ok a => exact hRest a

theorem rejectsOrCaught_of_rejects {α : Type} {call : Py α} (h : Rejects call) :
    RejectsOrCaught call := fun e he => .inr (.inr (h e he))

theorem item_caught (j : Json) (key : String) : RejectsOrCaught (j.item key) := by
  unfold Json.item
  split
  · split
    · rintro e ⟨⟩
    · rintro e ⟨⟩
      exact .inl rfl
  · rintro e ⟨⟩
    exact .inr (.inl rfl)

theorem iter_caught (j : Json) : RejectsOrCaught j.iter := by
  unfold Json.iter
  split
  · rintro e ⟨⟩
  · rintro e ⟨⟩
  · rintro e ⟨⟩
  · rintro e ⟨⟩
    exact .inr (.inl rfl)

/-- The handler turns a missing field of a decoded log into a rejection. -/
theorem forgeLog_rejects (entry : Json) : Rejects (forgeLog entry) := by
  refine RaisesOnly.except (fun e he hNot => ?_) fun _ => formatError_rejects _
  have hBody : RejectsOrCaught (do
      let address ← addressText (← entry.item "address") "forge log emitter"
      let topics ← (← (← entry.item "topics").iter).mapM fun t => hexText t "forge log topic"
      let data ← hexText (← entry.item "data") "forge log data"
      pure (address, topics, data)) := by
    refine (item_caught _ _).bind fun _ => ?_
    refine (rejectsOrCaught_of_rejects (addressText_rejects _ _)).bind fun _ => ?_
    refine (item_caught _ _).bind fun _ => (iter_caught _).bind fun _ => ?_
    refine (rejectsOrCaught_of_rejects (.mapM fun _ _ => hexText_rejects _ _)).bind fun _ => ?_
    refine (item_caught _ _).bind fun _ => ?_
    exact (rejectsOrCaught_of_rejects (hexText_rejects _ _)).bind fun _ =>
      rejectsOrCaught_of_rejects (.pure _)
  rcases hBody e he with hKind | hKind | hKind
  · simp [hKind] at hNot
  · simp [hKind] at hNot
  · exact hKind

/-- The logs that Forge decoded are compared, or rejected. -/
theorem checkLogsAgainstForge_rejects (forgeLogs : Json) (derived : List DerivedLog) :
    Rejects (checkLogsAgainstForge forgeLogs derived) := by
  unfold checkLogsAgainstForge
  split
  · exact .pure _
  · exact (RaisesOnly.mapM fun entry _ => forgeLog_rejects entry).bind fun _ _ => .raiseIf _ _
  · exact formatError_rejects _

/-- The test that passed is found, or the payload rejected. -/
theorem passingUnitTest_rejects : Rejects (passingUnitTest payload testFile testName) := by
  have hSuite : Rejects (selectSuite payload testFile) := by
    unfold selectSuite
    dsimp only
    split
    · exact .pure _
    · exact formatError_rejects _
  have hTest : ∀ suite, Rejects (selectTest suite testName) := by
    intro suite
    unfold selectTest
    split
    · split
      · exact .pure _
      · exact formatError_rejects _
    · exact formatError_rejects _
  refine hSuite.bind fun suite _ => (hTest suite.2).bind fun result _ => ?_
  exact (RaisesOnly.raiseIf _ _).bind fun _ _ => (RaisesOnly.raiseIf _ _).bind fun _ _ => .pure _

/-- The two arenas are selected, or the payload rejected. -/
theorem selectArenas_rejects (traces : Json) : Rejects (selectArenas traces) := by
  unfold selectArenas
  split
  · refine RaisesOnly.bind (.foldlM fun arenas entry => ?_) fun _ _ =>
      (RaisesOnly.raiseIf _ _).bind fun _ _ => .pure _
    unfold selectArena
    split
    · split
      · exact formatError_rejects _
      · refine .ite (fun _ => formatError_rejects _) fun _ => ?_
        split
        · exact .pure _
        · exact formatError_rejects _
    · exact formatError_rejects _
  · exact formatError_rejects _

/-- The payload passes every check before the walk of an arena that comes to a stuck state. -/
def Trips (host : Host) (payload : Fields) (testFile testName : String) : Prop :=
  ∃ key result arenas first phase nodes rest frames derived,
    passingUnitTest payload testFile testName = .ok (key, result) ∧
    selectArenas ((getField? "traces" result).getD .null) = .ok arenas ∧
    inArenaOrder arenas = first ++ (phase, nodes) :: rest ∧
    convertArenas host first [] = .ok (frames, derived) ∧ ArenaSticks host phase nodes derived

/-- The adapter returns or rejects, whatever JSON it is given, unless a walk gets stuck. -/
theorem adapt_rejects_iff (host : Host) (payload : Json) (testFile testName : String)
    (timestamp block : Nat) :
    Rejects (adaptForgeTestJson host payload testFile testName (.int timestamp) (.int block)) ↔
      ¬ ∃ fields, payload = .obj fields ∧ Trips host fields testFile testName := by
  unfold adaptForgeTestJson
  split
  · rename_i fields
    have hClock : ∀ (label : String) (n : Nat), suppliedClock label (.int n) = .ok n := by
      intro label n
      rw [suppliedClock, if_neg (by omega)]
      rfl
    refine (raisesOnly_bind_iff (hClock _ timestamp)).trans ?_
    refine (raisesOnly_bind_iff (hClock _ block)).trans ?_
    refine (raisesOnly_bind passingUnitTest_rejects).trans ?_
    constructor
    · rintro h ⟨fields', hFields, key, result, arenas, first, phase, nodes, rest, frames, derived,
        hTest, hArenas, hSplit, hFirst, hSticks⟩
      cases hFields
      have hConvert := (raisesOnly_bind_iff hArenas).mp (h (key, result) hTest)
      have hAll : Rejects (convertArenas host (inArenaOrder arenas) []) := fun e he =>
        hConvert e (by rw [he]; rfl)
      exact (convertArenas_rejects_iff _ _).mp hAll first phase nodes rest frames derived hSplit hFirst
        hSticks
    · rintro hNot ⟨key, result⟩ hTest
      refine (selectArenas_rejects _).bind fun arenas hArenas => RaisesOnly.bind ?_ fun _ _ => ?_
      · refine (convertArenas_rejects_iff _ _).mpr ?_
        intro first phase nodes rest frames derived hSplit hFirst hSticks
        exact hNot ⟨fields, rfl, key, result, arenas, first, phase, nodes, rest, frames, derived, hTest,
          hArenas, hSplit, hFirst, hSticks⟩
      · exact (checkLogsAgainstForge_rejects _ _).bind fun _ _ => .pure _
  · rename_i hOther
    refine iff_of_true (formatError_rejects _) ?_
    rintro ⟨fields, rfl, -⟩
    exact hOther fields rfl

/-- A passing test whose only node has the number 5 where its children are listed. -/
def countedChildren : Json :=
  .obj [("test/W.t.sol:W", .obj [("test_results", .obj [("test_w()", .obj [
    ("kind", .obj [("Unit", .obj [])]), ("status", .str "Success"),
    ("traces", .arr [.arr [.str "Execution", .obj [("arena", .arr [.obj [
      ("children", .int 5), ("idx", .int 0), ("ordering", .arr []),
      ("trace", .obj [("address", .str sampleAddress), ("caller", .str sampleAddress),
        ("depth", .int 0), ("kind", .str "CALL"), ("success", .bool true)])]])]]])])])])]

/-- The length of a number is asked for. -/
theorem countedChildren_fails : failsWith .typeError (adaptForgeTestJson (.digesting hexOfBytes)
    countedChildren "test/W.t.sol" "test_w" (.int 1) (.int 1)) = true := by decide +kernel

theorem counted_children_not_rejected : ¬ ∀ (host : Host) (payload : Json)
    (testFile testName : String) (timestamp block : Nat),
    Rejects (adaptForgeTestJson host payload testFile testName (.int timestamp) (.int block)) := by
  intro hClaim
  exact not_raisesOnly_of_failsWith countedChildren_fails (by decide)
    (hClaim (.digesting hexOfBytes) countedChildren "test/W.t.sol" "test_w" 1 1)

end Adapter
end L0vi0x.Chain
