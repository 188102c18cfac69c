import L0vi0x.Chain.BigEndian
import L0vi0x.Python.Utf8

/-! The head and tail encoding of arguments. Decoding inverts it, accepts of a static word
exactly the canonical ones and reads nothing outside the body. -/
namespace L0vi0x.Chain

open L0vi0x.Python

section Values

/-- The widths that the types of arguments have. -/
def AbiType.Standard : AbiType → Prop
  | .uint bits | .int bits => 0 < bits ∧ bits ≤ 256 ∧ bits % 8 = 0
  | .fixedBytes size => 1 ≤ size ∧ size ≤ 32
  | .array _ => False
  | _ => True

def AbiType.isDynamic : AbiType → Bool
  | .text | .bytes => true
  | _ => false

def AbiType.Value : AbiType → Type
  | .address => { raw : Bytes // raw.length = 20 }
  | .bool => Bool
  | .uint bits => { n : Nat // n < 2 ^ bits }
  | .int bits => { i : Int // -(2 ^ (bits - 1)) ≤ i ∧ i < 2 ^ (bits - 1) }
  | .fixedBytes size => { raw : Bytes // raw.length = size }
  | .text => String
  | .bytes => Bytes
  | .array _ => Empty

/-- The word of a static value; a dynamic one has none. -/
def AbiType.word : (kind : AbiType) → kind.Value → Bytes
  | .address, raw => List.replicate 12 0 ++ raw.val
  | .bool, b => bytesOfNat 32 (Bool.toNat b)
  | .uint _, n => bytesOfNat 32 n.val
  | .int _, i => bytesOfInt 32 i.val
  | .fixedBytes size, raw => raw.val ++ List.replicate (32 - size) 0
  | .text, _ | .bytes, _ => []

def AbiType.content : (kind : AbiType) → kind.Value → Bytes
  | .text, s => encodeUtf8 s
  | .bytes, raw => raw
  | _, _ => []

def AbiType.decoded : (kind : AbiType) → kind.Value → Json
  | .address, raw => .str ("0x" ++ hexOfBytes raw.val)
  | .bool, b => .bool b
  | .uint _, n => .int n.val
  | .int _, i => .int i.val
  | .fixedBytes _, raw => .str ("0x" ++ hexOfBytes raw.val)
  | .text, s => .str s
  | .bytes, raw => .str ("0x" ++ hexOfBytes raw)

end Values

section Static

/-- A word holds every value of at most 256 bits. -/
theorem pow_le_word {bits : Nat} (h : bits ≤ 256) : 2 ^ bits ≤ 256 ^ 32 := by
  calc 2 ^ bits ≤ 2 ^ 256 := Nat.pow_le_pow_right (by omega) h
    _ = 256 ^ 32 := by decide

/-- A padding that has no other byte is made of zeros. -/
theorem any_nonzero_iff {bs : Bytes} :
    bs.any (· ≠ 0) = false ↔ bs = List.replicate bs.length 0 := by
  rw [List.eq_replicate_iff]
  simp

theorem staticWord_length {kind : AbiType} (hStandard : kind.Standard) (hStatic : kind.isDynamic = false)
    (v : kind.Value) : (kind.word v).length = 32 := by
  cases kind with
  | address =>
      have hRaw : v.val.length = 20 := v.property
      simp [AbiType.word, hRaw]
  | bool => exact bytesOfNat_length 32 _
  | uint bits => exact bytesOfNat_length 32 _
  | int bits => exact bytesOfInt_length 32 _
  | fixedBytes size =>
      have hRaw : v.val.length = size := v.property
      have hSize : 1 ≤ size ∧ size ≤ 32 := hStandard
      simp only [AbiType.word, List.length_append, List.length_replicate, hRaw]
      omega
  | text | bytes => cases hStatic
  | array => exact hStandard.elim

/-- The bounds of a signed width that a word holds. -/
theorem int_bounds {bits : Nat} (h : 0 < bits ∧ bits ≤ 256) {i : Int}
    (hRange : -(2 ^ (bits - 1)) ≤ i ∧ i < 2 ^ (bits - 1)) :
    -(256 ^ 32 : Int) ≤ 2 * i ∧ 2 * i < 256 ^ 32 := by
  have hHalf : 2 * 2 ^ (bits - 1) ≤ 256 ^ 32 := by
    rw [← Nat.pow_succ', Nat.succ_eq_add_one, Nat.sub_add_cancel h.1]
    exact pow_le_word h.2
  have hCast : (2 * 2 ^ (bits - 1) : Int) ≤ 256 ^ 32 := by
    calc (2 * 2 ^ (bits - 1) : Int) = ((2 * 2 ^ (bits - 1) : Nat) : Int) := by
          rw [Int.natCast_mul, Int.natCast_pow]
          rfl
      _ ≤ ((256 ^ 32 : Nat) : Int) := Int.ofNat_le.mpr hHalf
      _ = 256 ^ 32 := Int.natCast_pow 256 32
  omega

/-- The word of a static value is decoded as the value. -/
theorem decodeStatic_word {kind : AbiType} (hStandard : kind.Standard)
    (hStatic : kind.isDynamic = false) (v : kind.Value) :
    decodeStatic kind (kind.word v) = .ok (kind.decoded v) := by
  cases kind with
  | address =>
      have hTake : (AbiType.word .address v).take 12 = List.replicate 12 0 :=
        List.take_left' (by simp)
      have hDrop : (AbiType.word .address v).drop 12 = v.val := List.drop_left' (by simp)
      rw [decodeStatic, hTake, hDrop, if_neg (by simp)]
      rfl
  | bool =>
      have hValue : natOfBytes (AbiType.word .bool v) = Bool.toNat v :=
        natOfBytes_bytesOfNat (by cases v <;> decide)
      cases v <;> simp [decodeStatic, hValue, AbiType.decoded, pure, Except.pure]
  | uint bits =>
      have hValue : natOfBytes (AbiType.word (.uint bits) v) = v.val :=
        natOfBytes_bytesOfNat (v.property.trans_le (pow_le_word hStandard.2.1))
      have hDiv : v.val / 2 ^ bits = 0 := Nat.div_eq_of_lt v.property
      simp [decodeStatic, hValue, hDiv, AbiType.decoded, pure, Except.pure]
  | int bits =>
      have hBounds := int_bounds ⟨hStandard.1, hStandard.2.1⟩ v.property
      have hValue : intOfBytes (AbiType.word (.int bits) v) = v.val :=
        intOfBytes_bytesOfInt hBounds.1 hBounds.2
      simp only [decodeStatic, hValue]
      rw [if_pos v.property]
      rfl
  | fixedBytes size =>
      have hRaw : v.val.length = size := v.property
      have hTake : (AbiType.word (.fixedBytes size) v).take size = v.val := List.take_left' hRaw
      have hDrop : (AbiType.word (.fixedBytes size) v).drop size = List.replicate (32 - size) 0 :=
        List.drop_left' hRaw
      have hSize : 1 ≤ size ∧ size ≤ 32 := hStandard
      rw [decodeStatic, hTake, hDrop, if_neg (by simp [hSize])]
      rfl
  | text | bytes => cases hStatic
  | array => exact hStandard.elim

/-- A word that is accepted is that of some value. -/
theorem word_of_decodeStatic {kind : AbiType} {word : Bytes} (hLength : word.length = 32)
    (h : returns (decodeStatic kind word)) : ∃ v, kind.word v = word := by
  obtain ⟨value, h⟩ := h
  cases kind with
  | address =>
      rw [decodeStatic] at h
      split at h
      · exact absurd h (by simp)
      · rename_i hZero
        rw [Bool.not_eq_true, any_nonzero_iff] at hZero
        have hTake : (word.take 12).length = 12 := by simp [hLength]
        rw [hTake] at hZero
        refine ⟨⟨word.drop 12, by simp [hLength]⟩, ?_⟩
        change List.replicate 12 0 ++ word.drop 12 = word
        rw [← hZero, List.take_append_drop]
  | bool =>
      rw [decodeStatic] at h
      split at h
      · rename_i hZero
        exact ⟨false, ((eq_bytesOfNat_iff hLength (by decide)).mpr hZero).symm⟩
      · split at h
        · rename_i hOne
          exact ⟨true, ((eq_bytesOfNat_iff hLength (by decide)).mpr hOne).symm⟩
        · exact absurd h (by simp)
  | uint bits =>
      rw [decodeStatic] at h
      split at h
      · exact absurd h (by simp)
      · rename_i hWidth
        have hLt : natOfBytes word < 2 ^ bits := by
          have hPos : 0 < 2 ^ bits := Nat.two_pow_pos bits
          have hDiv := not_not.mp hWidth
          rcases Nat.div_eq_zero_iff.mp hDiv with hZero | hLt
          · omega
          · exact hLt
        refine ⟨⟨natOfBytes word, hLt⟩, ?_⟩
        change bytesOfNat 32 (natOfBytes word) = word
        rw [← hLength, bytesOfNat_natOfBytes]
  | int bits =>
      rw [decodeStatic] at h
      split at h
      · rename_i hRange
        refine ⟨⟨intOfBytes word, hRange⟩, ?_⟩
        change bytesOfInt 32 (intOfBytes word) = word
        rw [← hLength, bytesOfInt_intOfBytes]
      · exact absurd h (by simp)
  | fixedBytes size =>
      rw [decodeStatic] at h
      split at h
      · exact absurd h (by simp)
      · rename_i hSize
        rw [not_or, not_not, Bool.not_eq_true, any_nonzero_iff, List.length_drop, hLength] at hSize
        refine ⟨⟨word.take size, by simp [hLength, hSize.1.2]⟩, ?_⟩
        change word.take size ++ List.replicate (32 - size) 0 = word
        rw [← hSize.2, List.take_append_drop]
  | text | bytes | array => exact absurd h (by simp [decodeStatic])

end Static

section Arguments

/-- An argument: a type of a standard width, and one of its values. -/
structure AbiArgument where
  kind : AbiType
  standard : kind.Standard
  value : kind.Value

/-- The tail of a dynamic argument: its length and its content, filled up to whole words. -/
def dynamicTail (content : Bytes) : Bytes :=
  bytesOfNat 32 content.length ++ content ++
    List.replicate ((32 - content.length % 32) % 32) 0

def AbiArgument.tail (a : AbiArgument) : Bytes :=
  if a.kind.isDynamic then dynamicTail (a.kind.content a.value) else []

/-- The head of an argument whose tail is at `offset`. -/
def AbiArgument.head (a : AbiArgument) (offset : Nat) : Bytes :=
  if a.kind.isDynamic then bytesOfNat 32 offset else a.kind.word a.value

def encodeHeads : Nat → List AbiArgument → Bytes
  | _, [] => []
  | offset, a :: rest => a.head offset ++ encodeHeads (offset + a.tail.length) rest

def encodeTails (args : List AbiArgument) : Bytes := args.flatMap AbiArgument.tail

/-- The standard encoding of arguments, where every offset fits into its word. -/
def encodeAbi? (args : List AbiArgument) : Option Bytes :=
  if 32 * args.length + (encodeTails args).length < 2 ^ 256 then
    some (encodeHeads (32 * args.length) args ++ encodeTails args)
  else none

def AbiArgument.decoded (a : AbiArgument) : Json := a.kind.decoded a.value

theorem head_length (a : AbiArgument) (offset : Nat) : (a.head offset).length = 32 := by
  unfold AbiArgument.head
  cases hDynamic : a.kind.isDynamic with
  | true => simp
  | false => simpa using staticWord_length a.standard hDynamic a.value

theorem encodeHeads_length (offset : Nat) (args : List AbiArgument) :
    (encodeHeads offset args).length = 32 * args.length := by
  induction args generalizing offset with
  | nil => rfl
  | cons a rest ih =>
      rw [encodeHeads, List.length_append, head_length, ih, List.length_cons]
      omega

/-- A word that stands at an offset is read there. -/
theorem wordAt_of_drop {body word more : Bytes} {offset : Nat}
    (h : body.drop offset = word ++ more) (hLength : word.length = 32) :
    wordAt body offset = .ok word := by
  have hRest := congrArg List.length h
  rw [List.length_drop, List.length_append, hLength] at hRest
  rw [wordAt, if_neg (by omega), h, List.take_left' hLength]
  rfl

/-- A dynamic argument is decoded from the tail that its head points to. -/
theorem decodeDynamic_tail {kind : AbiType} {body head content more : Bytes}
    (hDrop : body.drop (natOfBytes head) = dynamicTail content ++ more)
    (hLength : content.length < 256 ^ 32) :
    decodeDynamic kind body head =
      .ok (.str (if kind = .text then decodeUtf8Replace content else "0x" ++ hexOfBytes content)) := by
  have hParts : body.drop (natOfBytes head) = bytesOfNat 32 content.length ++
      (content ++ (List.replicate ((32 - content.length % 32) % 32) 0 ++ more)) := by
    rw [hDrop, dynamicTail, List.append_assoc, List.append_assoc]
  have hWord : wordAt body (natOfBytes head) = .ok (bytesOfNat 32 content.length) :=
    wordAt_of_drop hParts (bytesOfNat_length 32 _)
  have hContent : body.drop (natOfBytes head + 32) =
      content ++ (List.replicate ((32 - content.length % 32) % 32) 0 ++ more) := by
    rw [← List.drop_drop, hParts, List.drop_left' (bytesOfNat_length 32 _)]
  have hRest := congrArg List.length hParts
  rw [List.length_drop, List.length_append, List.length_append, bytesOfNat_length] at hRest
  simp only [decodeDynamic, hWord, bind, Except.bind, natOfBytes_bytesOfNat hLength]
  rw [if_neg (by omega), hContent, List.take_left' rfl]
  rfl

theorem decodeArgument_static {kind : AbiType} {body word : Bytes} {index : Nat}
    (hStandard : kind.Standard) (hStatic : kind.isDynamic = false)
    (hWord : wordAt body (32 * index) = .ok word) :
    decodeArgument kind body index = decodeStatic kind word := by
  rw [decodeArgument, hWord]
  cases kind with
  | text | bytes => cases hStatic
  | array => exact hStandard.elim
  | _ => rfl

/-- A dynamic argument is decoded from what its word points to. -/
theorem decodeArgument_dynamic {kind : AbiType} {body word : Bytes} {index : Nat}
    (hDynamic : kind.isDynamic = true) (hWord : wordAt body (32 * index) = .ok word) :
    decodeArgument kind body index = decodeDynamic kind body word := by
  rw [decodeArgument, hWord]
  cases kind with
  | text | bytes => rfl
  | _ => cases hDynamic

/-- The content of a dynamic value is decoded as the value. -/
theorem decoded_content {kind : AbiType} (hDynamic : kind.isDynamic = true) (value : kind.Value) :
    Json.str (if kind = .text then decodeUtf8Replace (kind.content value)
      else "0x" ++ hexOfBytes (kind.content value)) = kind.decoded value := by
  cases kind with
  | text => exact congrArg Json.str (decodeUtf8Replace_encodeUtf8 value)
  | bytes => rfl
  | _ => cases hDynamic

/-- One argument is decoded from its head and its tail. -/
theorem decodeArgument_encoded {a : AbiArgument} {index offset : Nat} {body more more' : Bytes}
    (hHead : body.drop (32 * index) = a.head offset ++ more)
    (hTail : body.drop offset = a.tail ++ more')
    (hOffset : offset + a.tail.length < 256 ^ 32) :
    decodeArgument a.kind body index = .ok a.decoded := by
  obtain ⟨kind, standard, value⟩ := a
  have hWord := wordAt_of_drop hHead (head_length _ offset)
  cases hDynamic : kind.isDynamic with
  | false =>
      have hHeadWord : (AbiArgument.mk kind standard value).head offset = kind.word value := by
        simp [AbiArgument.head, hDynamic]
      rw [decodeArgument_static standard hDynamic hWord, hHeadWord]
      exact decodeStatic_word standard hDynamic value
  | true =>
      have hHeadWord : (AbiArgument.mk kind standard value).head offset = bytesOfNat 32 offset := by
        simp [AbiArgument.head, hDynamic]
      have hTailOf : (AbiArgument.mk kind standard value).tail =
          dynamicTail (kind.content value) := by simp [AbiArgument.tail, hDynamic]
      have hStart : natOfBytes (bytesOfNat 32 offset) = offset :=
        natOfBytes_bytesOfNat ((Nat.le_add_right offset _).trans_lt hOffset)
      have hContent : (kind.content value).length < 256 ^ 32 := by
        rw [hTailOf, dynamicTail, List.length_append, List.length_append] at hOffset
        omega
      rw [hTailOf, ← hStart] at hTail
      rw [decodeArgument_dynamic hDynamic hWord, hHeadWord, decodeDynamic_tail hTail hContent,
        decoded_content hDynamic]
      rfl

/-- Arguments are decoded one by one, each head pointing behind the tails before it. -/
theorem decodeFrom_encoded {args : List AbiArgument} {index offset : Nat} {body more more' : Bytes}
    (hHeads : body.drop (32 * index) = encodeHeads offset args ++ more)
    (hTails : body.drop offset = encodeTails args ++ more')
    (hOffset : offset + (encodeTails args).length < 256 ^ 32) :
    decodeFrom body index (args.map AbiArgument.kind) = .ok (args.map AbiArgument.decoded) := by
  induction args generalizing index offset with
  | nil => rfl
  | cons a rest ih =>
      have hLength : (encodeTails (a :: rest)).length = a.tail.length + (encodeTails rest).length := by
        rw [encodeTails, List.flatMap_cons, List.length_append]
        rfl
      rw [encodeHeads, List.append_assoc] at hHeads
      rw [encodeTails, List.flatMap_cons, List.append_assoc] at hTails
      have hFirst := decodeArgument_encoded hHeads hTails (by omega)
      have hHeads' : body.drop (32 * (index + 1)) =
          encodeHeads (offset + a.tail.length) rest ++ more := by
        rw [Nat.mul_add, Nat.mul_one, ← List.drop_drop, hHeads, List.drop_left' (head_length a offset)]
      have hTails' : body.drop (offset + a.tail.length) = encodeTails rest ++ more' := by
        rw [← List.drop_drop, hTails, List.drop_left' rfl]
        rfl
      have hRest := ih hHeads' hTails' (by omega)
      rw [List.map_cons, List.map_cons, decodeFrom, hFirst]
      simp only [bind, Except.bind, hRest]
      rfl

/-- Decoding inverts encoding, whatever follows the encoding. -/
theorem decodeAbiArguments_encoded {args : List AbiArgument} {body : Bytes}
    (h : encodeAbi? args = some body) (extra : Bytes) :
    decodeAbiArguments (args.map AbiArgument.kind) (body ++ extra) =
      .ok (args.map AbiArgument.decoded) := by
  have hPow : 2 ^ 256 = 256 ^ 32 := by decide
  unfold encodeAbi? at h
  split at h
  · rename_i hFits
    rw [hPow] at hFits
    rw [Option.some.injEq] at h
    subst h
    have hHeads : (encodeHeads (32 * args.length) args ++ encodeTails args ++ extra).drop (32 * 0) =
        encodeHeads (32 * args.length) args ++ (encodeTails args ++ extra) := by
      rw [Nat.mul_zero, List.drop_zero, List.append_assoc]
    have hTails : (encodeHeads (32 * args.length) args ++ encodeTails args ++ extra).drop
        (32 * args.length) = encodeTails args ++ extra := by
      rw [List.append_assoc, List.drop_left' (encodeHeads_length _ args)]
    exact decodeFrom_encoded hHeads hTails hFits
  · cases h

end Arguments

section Reads

/-- A slice that lies within the data; any other read is an error of its own. -/
def readWithin (data : Bytes) (first count : Nat) : Py Bytes :=
  if first + count ≤ data.length then pure ((data.drop first).take count)
  else raise .indexError "read outside the data"

/-- `_word(data, offset)` with a bounded slice. -/
def wordWithin (data : Bytes) (offset : Nat) : Py Bytes :=
  if offset + 32 > data.length then raise .cheatcodeDecodeError "calldata is truncated"
  else readWithin data offset 32

/-- `_decode_dynamic` with bounded slices. -/
def decodeDynamicWithin (kind : AbiType) (data head : Bytes) : Py Json := do
  let offset := natOfBytes head
  let length := natOfBytes (← wordWithin data offset)
  let first := offset + 32
  if first + length > data.length then
    raise .cheatcodeDecodeError "dynamic argument is truncated"
  else
    let raw ← readWithin data first length
    pure (.str (if kind = .text then decodeUtf8Replace raw else "0x" ++ hexOfBytes raw))

def decodeArgumentWithin (kind : AbiType) (body : Bytes) (index : Nat) : Py Json := do
  let head ← wordWithin body (32 * index)
  match kind with
  | .text | .bytes => decodeDynamicWithin kind body head
  | .array _ => pure .null
  | _ => decodeStatic kind head

/-- The decoder with every slice of the body bounded. -/
def decodeFromWithin (body : Bytes) : Nat → List AbiType → Py (List Json)
  | _, [] => pure []
  | index, kind :: rest => do
      let first ← decodeArgumentWithin kind body index
      let more ← decodeFromWithin body (index + 1) rest
      pure (first :: more)

theorem wordWithin_eq (data : Bytes) (offset : Nat) : wordWithin data offset = wordAt data offset := by
  unfold wordWithin wordAt readWithin
  split
  · rfl
  · rw [if_pos (by omega)]

/-- Bounding the slices of a dynamic value changes nothing. -/
theorem decodeDynamicWithin_eq (kind : AbiType) (data head : Bytes) :
    decodeDynamicWithin kind data head = decodeDynamic kind data head := by
  simp only [decodeDynamicWithin, decodeDynamic, wordWithin_eq]
  congr 1
  funext word
  split
  · rfl
  · rename_i hInside
    simp only [readWithin, if_pos (not_lt.mp hInside), bind, Except.bind, pure, Except.pure]

/-- No slice leaves the body. -/
theorem decodeFromWithin_eq (body : Bytes) (index : Nat) (types : List AbiType) :
    decodeFromWithin body index types = decodeFrom body index types := by
  induction types generalizing index with
  | nil => rfl
  | cons kind rest ih =>
      have hFirst : decodeArgumentWithin kind body index = decodeArgument kind body index := by
        cases kind <;>
          simp only [decodeArgumentWithin, decodeArgument, wordWithin_eq, decodeDynamicWithin_eq]
      simp only [decodeFromWithin, decodeFrom, hFirst, ih]

/-- A call that returns, or fails to decode. -/
def Decodes {α : Type} (call : Py α) : Prop :=
  (∃ a, call = .ok a) ∨ ∃ message, call = .error ⟨.cheatcodeDecodeError, message⟩

/-- What decodes may be continued with what decodes. -/
theorem Decodes.bind {α β : Type} {first : Py α} {rest : α → Py β} (h : Decodes first)
    (hRest : ∀ a, Decodes (rest a)) : Decodes (first >>= rest) := by
  rcases h with ⟨a, rfl⟩ | ⟨message, rfl⟩
  · exact hRest a
  · exact .inr ⟨message, rfl⟩

theorem Decodes.pure {α : Type} (a : α) : Decodes (pure a : Py α) := .inl ⟨a, rfl⟩

theorem Decodes.raise {α : Type} (message : String) :
    Decodes (raise .cheatcodeDecodeError message : Py α) := .inr ⟨message, rfl⟩

theorem wordAt_decodes (data : Bytes) (offset : Nat) : Decodes (wordAt data offset) := by
  unfold wordAt
  split
  · exact .raise _
  · exact .pure _

/-- A static value is decoded, or there is a decoding error. -/
theorem decodeStatic_decodes (kind : AbiType) (word : Bytes) : Decodes (decodeStatic kind word) := by
  cases kind with
  | bool =>
      rw [decodeStatic]
      split
      · exact .pure _
      · split
        · exact .pure _
        · exact .raise _
  | text | bytes | array => exact .raise _
  | _ =>
      rw [decodeStatic]
      split <;> first | exact .pure _ | exact .raise _

/-- A dynamic value is decoded, or there is a decoding error. -/
theorem decodeDynamic_decodes (kind : AbiType) (body head : Bytes) :
    Decodes (decodeDynamic kind body head) := by
  refine (wordAt_decodes body _).bind fun word => ?_
  by_cases hInside : natOfBytes head + 32 + natOfBytes word > body.length
  · simpa only [if_pos hInside] using Decodes.raise _
  · simpa only [if_neg hInside] using Decodes.pure _

/-- An argument is decoded, or there is a decoding error. -/
theorem decodeArgument_decodes (kind : AbiType) (body : Bytes) (index : Nat) :
    Decodes (decodeArgument kind body index) := by
  refine (wordAt_decodes body _).bind fun head => ?_
  cases kind with
  | text | bytes => exact decodeDynamic_decodes _ body head
  | array => exact .pure _
  | _ => exact decodeStatic_decodes _ head

/-- Arguments are decoded, or there is a decoding error. -/
theorem decodeFrom_decodes (body : Bytes) (index : Nat) (types : List AbiType) :
    Decodes (decodeFrom body index types) := by
  induction types generalizing index with
  | nil => exact .pure _
  | cons kind rest ih =>
      exact (decodeArgument_decodes kind body index).bind fun first =>
        (ih (index + 1)).bind fun more => .pure _

end Reads

section Decoding

/-- A word is accepted as a static argument exactly when it is that of some value. -/
theorem decodeAbiArguments_word_iff {kind : AbiType} {word : Bytes} (hStandard : kind.Standard)
    (hStatic : kind.isDynamic = false) (hLength : word.length = 32) :
    returns (decodeAbiArguments [kind] word) ↔ ∃ v, kind.word v = word := by
  have hWord : wordAt word (32 * 0) = .ok word :=
    @wordAt_of_drop word word [] (32 * 0) (by simp) hLength
  have hOne : returns (decodeAbiArguments [kind] word) ↔ returns (decodeStatic kind word) := by
    rw [decodeAbiArguments, decodeFrom, decodeArgument_static hStandard hStatic hWord, returns_bind]
    exact exists_congr fun value => and_iff_left (returns_ok _)
  rw [hOne]
  constructor
  · exact word_of_decodeStatic hLength
  · rintro ⟨v, rfl⟩
    exact ⟨_, decodeStatic_word hStandard hStatic v⟩

/-- Decoding inverts the encoding, is strict on static words, and always returns or fails
to decode without a read outside the body. -/
theorem abi_decoded :
    (∀ (args : List AbiArgument) (body extra : Bytes), encodeAbi? args = some body →
      decodeAbiArguments (args.map AbiArgument.kind) (body ++ extra) =
        .ok (args.map AbiArgument.decoded)) ∧
    (∀ (kind : AbiType) (word : Bytes), kind.Standard → kind.isDynamic = false →
      word.length = 32 →
        (returns (decodeAbiArguments [kind] word) ↔ ∃ v, kind.word v = word)) ∧
    ∀ (types : List AbiType) (body : Bytes), (∀ kind ∈ types, kind.Standard) →
      Decodes (decodeAbiArguments types body) ∧
        decodeFromWithin body 0 types = decodeAbiArguments types body :=
  ⟨fun _ _ extra h => decodeAbiArguments_encoded h extra,
    fun _ _ hStandard hStatic hLength => decodeAbiArguments_word_iff hStandard hStatic hLength,
    fun types body _ => ⟨decodeFrom_decodes body 0 types, decodeFromWithin_eq body 0 types⟩⟩

def sampleArguments : List AbiArgument :=
  [⟨.text, trivial, "ok"⟩, ⟨.bool, trivial, true⟩, ⟨.uint 8, ⟨by decide, by decide, rfl⟩, ⟨7, by decide⟩⟩]

/-- The sample is encoded, and decoded again with anything behind it. -/
theorem sampleArguments_decoded : ∃ body, encodeAbi? sampleArguments = some body ∧
    (∀ extra, decodeAbiArguments [.text, .bool, .uint 8] (body ++ extra) =
      .ok [.str "ok", .bool true, .int 7]) ∧
    (returns (decodeAbiArguments [.bool] (bytesOfNat 32 1)) ↔
      ∃ v, AbiType.bool.word v = bytesOfNat 32 1) ∧
    Decodes (decodeAbiArguments [.bool] [1]) := by
  have hSome : (encodeAbi? sampleArguments).isSome = true := by decide
  obtain ⟨body, hBody⟩ := Option.isSome_iff_exists.mp hSome
  exact ⟨body, hBody, fun extra => abi_decoded.1 sampleArguments body extra hBody,
    abi_decoded.2.1 .bool _ trivial rfl (bytesOfNat_length 32 1),
    (abi_decoded.2.2 [.bool] [1] (by simp [AbiType.Standard])).1⟩

end Decoding
end L0vi0x.Chain
