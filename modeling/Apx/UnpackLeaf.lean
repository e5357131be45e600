import Apx.ScalarRead
import Apx.Vm

/-! Unpacking an element without children: when it succeeds, and the value that the bytes stand for. -/

namespace Apx

open LittleEndian Vm

namespace ReadBuffer

/-- Where the next instruction reads -/
def cursor (b : ReadBuffer) : Nat := b.paddedNext.getD b.next

/-- A buffer that was set. Behind a dynamic array the position is inside of it. -/
structure Sound (b : ReadBuffer) : Prop where
  nonempty : 0 < b.bytes.length
  inside : b.paddedNext ≠ none → b.next ≤ b.bytes.length

def flushed (b : ReadBuffer) : ReadBuffer := { b with next := b.cursor, paddedNext := none }

end ReadBuffer

namespace LeafCode

/-- The type code by which the instruction reads: a char8 is read like a char. -/
def readAs : LeafCode → TypeCode
  | .char8 => .char
  | code => code.typeCode

/-- The scalar that the bytes of one value stand for -/
def decodeScalar (code : LeafCode) (data : Bytes) : Sv :=
  ((ReadState.storedScalar {} code.readAs data).bind ReadState.scalarFromStorage).getD .none

/-- The elements of an array of `count` scalars from `next` on -/
def decodeElements (code : LeafCode) (bytes : Bytes) : Nat → Nat → List Dv
  | _, 0 => []
  | next, count + 1 =>
      .scalar (code.decodeScalar (slice bytes next code.size)) ::
        decodeElements code bytes (next + code.size) count

/-- What is stored does not depend on what the slot held before. -/
theorem storedScalar_decode {code : LeafCode} (known : Compiler.leafInfo code ≠ Option.none) (slot : ScalarSlot)
    (data : Bytes) :
    ∃ slot', ReadState.storedScalar slot code.readAs data = some slot' ∧
      ReadState.scalarFromStorage slot' = some (code.decodeScalar data) := by
  cases code with
  | none | char16 | char32 => exact absurd rfl known
  | uint8 | uint16 | uint32 | uint64 | int8 | int16 | int32 | int64 =>
    refine ⟨_, rfl, ?_⟩
    simp [decodeScalar, readAs, typeCode, ReadState.storedScalar, ReadState.scalarFromStorage]
  | char | char8 | bool | byte =>
    refine ⟨_, rfl, ?_⟩
    simp [decodeScalar, readAs, typeCode, ReadState.storedScalar, ReadState.scalarFromStorage,
      ReadState.lowByte_setByte]

end LeafCode

/-- The number in the length prefix of a dynamic array -/
def prefixNumber (bytes : Bytes) (next arrayLength : Nat) : Nat :=
  unpackLE (slice bytes next (sizeTypeToSize (sizeToSizeType arrayLength)))

/-- The value of an array of `count` elements from `next` on -/
def decodeArray (code : LeafCode) (isDynamic : Bool) (bytes : Bytes) (next count : Nat) : Dv :=
  match code with
  | .char | .char8 =>
      let text := slice bytes next count
      .scalar (.str (if isDynamic then text else text.takeWhile (· ≠ 0)))
  | .byte => .scalar (.bytearray (slice bytes next count))
  | _ => .array (code.decodeElements bytes next count)

/-- The value of an element without children from `cursor` on -/
def decodeLeaf (code : LeafCode) (arrayLength : Nat) (isDynamic : Bool) (bytes : Bytes) (cursor : Nat) : Dv :=
  if arrayLength = 0 then .scalar (code.decodeScalar (slice bytes cursor code.size))
  else if isDynamic then
    decodeArray code true bytes (cursor + sizeTypeToSize (sizeToSizeType arrayLength))
      (prefixNumber bytes cursor arrayLength)
  else decodeArray code false bytes cursor arrayLength

/-- The buffer behind an element without children. Behind a dynamic array the bytes for the most of its elements
are skipped when the next one is read. -/
def ReadBuffer.past (b : ReadBuffer) (code : LeafCode) (arrayLength : Nat) (isDynamic : Bool) : ReadBuffer :=
  if 0 < arrayLength ∧ isDynamic then
    { b with
      next := b.cursor + sizeTypeToSize (sizeToSizeType arrayLength) +
        code.size * prefixNumber b.bytes b.cursor arrayLength
      paddedNext := some (b.cursor + extent code.size arrayLength true) }
  else { b with next := b.cursor + extent code.size arrayLength false, paddedNext := none }

theorem ReadBuffer.past_bytes (b : ReadBuffer) (code : LeafCode) (arrayLength : Nat) (isDynamic : Bool) :
    (b.past code arrayLength isDynamic).bytes = b.bytes := by
  unfold past
  split <;> rfl

theorem ReadBuffer.past_cursor (b : ReadBuffer) (code : LeafCode) (arrayLength : Nat) (isDynamic : Bool) :
    (b.past code arrayLength isDynamic).cursor = b.cursor + extent code.size arrayLength isDynamic := by
  unfold past
  split
  next dynamic => rw [dynamic.2]; rfl
  next fixed =>
    show b.cursor + extent code.size arrayLength false = _
    cases isDynamic with
    | false => rfl
    | true =>
      have zero : arrayLength = 0 := by simpa using fixed
      rw [extent, if_pos zero, extent, if_pos zero]

/-- The elements of an array can be read. A string that is not dynamic is read up to its first zero, also when
there is not as much behind it as it should have. -/
def ReadableArray (code : LeafCode) (isDynamic : Bool) (bytes : Bytes) (next count : Nat) : Prop :=
  next + code.size * count ≤ bytes.length ∨
    (code = .char ∨ code = .char8) ∧ isDynamic = false ∧ 0 ∈ bytes.drop next

/-- An element without children can be read from `cursor` on. An empty dynamic array cannot. -/
def ReadableLeaf (code : LeafCode) (arrayLength : Nat) (isDynamic : Bool) (bytes : Bytes) (cursor : Nat) : Prop :=
  cursor ≤ bytes.length ∧
    if arrayLength = 0 then cursor + code.size ≤ bytes.length
    else if isDynamic then
      cursor + sizeTypeToSize (sizeToSizeType arrayLength) ≤ bytes.length ∧
        prefixNumber bytes cursor arrayLength ≤ arrayLength ∧ prefixNumber bytes cursor arrayLength ≠ 0 ∧
        ReadableArray code true bytes (cursor + sizeTypeToSize (sizeToSizeType arrayLength))
          (prefixNumber bytes cursor arrayLength)
    else ReadableArray code false bytes cursor arrayLength

namespace Deserializer

variable {code : LeafCode}

/-- The deserializer with another state on top and another position in the buffer -/
def reading (d : Deserializer) (st : ReadState) (b : ReadBuffer) : Deserializer := { d with state := st, buffer := b }

@[simp] theorem reading_reading (d : Deserializer) (st st' : ReadState) (b b' : ReadBuffer) :
    (d.reading st b).reading st' b' = d.reading st' b' := rfl

@[simp] theorem reading_stack (d : Deserializer) (st : ReadState) (b : ReadBuffer) : (d.reading st b).stack = d.stack := rfl

@[simp] theorem reading_state (d : Deserializer) (st : ReadState) (b : ReadBuffer) : (d.reading st b).state = st := rfl

@[simp] theorem reading_buffer (d : Deserializer) (st : ReadState) (b : ReadBuffer) : (d.reading st b).buffer = b := rfl

@[simp] theorem reading_queue (d : Deserializer) (st : ReadState) (b : ReadBuffer) :
    (d.reading st b).queuedReadState = d.queuedReadState := rfl

/-- Reading ends with a value and a buffer behind it under a condition, and fails without it. What else is in the
state does not matter for the value. -/
structure Reads (r : Result Deserializer Unit) (condition : Prop) (d : Deserializer) (value : Dv) (b : ReadBuffer) :
    Prop where
  ok : condition → ∃ st : ReadState, st.value = value ∧ r = .ok () (d.reading st b)
  fail : ¬condition → ∃ failure d', r = .fail failure d'

theorem reads_elements (known : Compiler.leafInfo code ≠ none) (d : Deserializer) {child : ReadState}
    (type : child.typeCode = code.readAs) (size : child.elementSize = code.size) (av : List Dv) (count : Nat)
    (inside : d.buffer.next ≤ d.buffer.bytes.length) :
    Reads (d.unpackElements child av count) (d.buffer.next + code.size * count ≤ d.buffer.bytes.length) d
      (.array (av ++ code.decodeElements d.buffer.bytes d.buffer.next count))
      { d.buffer with next := d.buffer.next + code.size * count } := by
  have positive : code.size ≠ 0 := by cases code <;> first | exact absurd rfl known | decide
  induction count generalizing d child av with
  | zero =>
    rw [LeafCode.decodeElements, List.append_nil]
    exact ⟨fun _ => ⟨{ d.state with value := .array av }, rfl, rfl⟩, fun not => absurd inside (by simpa using not)⟩
  | succ count ih =>
    rw [unpackElements]
    by_cases room : d.buffer.next + code.size ≤ d.buffer.bytes.length
    · obtain ⟨slot, stored, taken⟩ := LeafCode.storedScalar_decode known child.scalar
        (slice d.buffer.bytes d.buffer.next code.size)
      have read : child.readScalarValue d.buffer =
          .ok () ({ child with scalar := slot }, { d.buffer with next := d.buffer.next + code.size }) := by
        rw [ReadState.readScalarValue, size, if_neg positive, if_neg (by omega), type, stored]
      have behind := @ih { d with buffer := { d.buffer with next := d.buffer.next + code.size } }
        { child with scalar := slot } type size
        (av ++ [.scalar (code.decodeScalar (slice d.buffer.bytes d.buffer.next code.size))]) room
      rw [read]
      simp only [taken]
      have total : d.buffer.next + code.size + code.size * count = d.buffer.next + code.size * (count + 1) := by
        rw [Nat.mul_succ, Nat.add_assoc, Nat.add_comm code.size]
      simp only [total, List.append_assoc] at behind
      exact ⟨behind.ok, behind.fail⟩
    · have read : child.readScalarValue d.buffer = .fail (.code .bufferBoundary) (child, d.buffer) := by
        rw [ReadState.readScalarValue, size, if_neg positive, if_pos (by omega)]
      rw [read]
      refine ⟨fun holds => absurd holds ?_, fun _ => ⟨_, _, rfl⟩⟩
      rw [Nat.mul_succ]
      omega

theorem reads_scalar (known : Compiler.leafInfo code ≠ none) (d : Deserializer)
    (type : d.state.typeCode = code.readAs) (size : d.state.elementSize = code.size)
    (inside : d.buffer.next ≤ d.buffer.bytes.length) :
    Reads d.unpackScalarValue (d.buffer.next + code.size ≤ d.buffer.bytes.length) d
      (.scalar (code.decodeScalar (slice d.buffer.bytes d.buffer.next code.size)))
      { d.buffer with next := d.buffer.next + code.size } := by
  have positive : code.size ≠ 0 := by cases code <;> first | exact absurd rfl known | decide
  obtain ⟨slot, stored, taken⟩ := LeafCode.storedScalar_decode known d.state.scalar
    (slice d.buffer.bytes d.buffer.next code.size)
  let st : ReadState := { d.state with value := .scalar .none }
  by_cases room : d.buffer.next + code.size ≤ d.buffer.bytes.length
  · have read : st.readScalarValue d.buffer =
        .ok () ({ st with scalar := slot }, { d.buffer with next := d.buffer.next + code.size }) := by
      rw [ReadState.readScalarValue, show st.elementSize = code.size from size, if_neg positive, if_neg (by omega),
        show st.typeCode = code.readAs from type, show st.scalar = d.state.scalar from rfl, stored]
    refine ⟨fun _ => ⟨{ st with scalar := slot, value := .scalar _ }, rfl, ?_⟩, fun not => absurd room not⟩
    rw [unpackScalarValue]
    simp only [st] at read ⊢
    simp only [read, Result.lift_ok, Result.bind_ok, ReadState.setScalarValueFromStorage, taken]
    rfl
  · have read : st.readScalarValue d.buffer = .fail (.code .bufferBoundary) (st, d.buffer) := by
      rw [ReadState.readScalarValue, show st.elementSize = code.size from size, if_neg positive, if_pos (by omega)]
    refine ⟨fun holds => absurd holds room, fun _ => ⟨.code .bufferBoundary, { d with state := st }, ?_⟩⟩
    rw [unpackScalarValue]
    simp only [st] at read ⊢
    simp only [read, Result.lift_fail, Result.bind_fail]

/-- The characters up to the first zero of a string that is not dynamic, or all of them -/
theorem unpackCharacters_eq {bytes : Bytes} {isDynamic : Bool} {adjusted next count : Nat}
    (inside : next ≤ bytes.length) (total : next + count = adjusted) (text : Bytes) :
    unpackCharacters bytes isDynamic adjusted next text count =
      if next + count ≤ bytes.length ∨ isDynamic = false ∧ 0 ∈ bytes.drop next then
        .ok (text ++ if isDynamic then slice bytes next count else (slice bytes next count).takeWhile (· ≠ 0)) adjusted
      else .fail (.code .bufferBoundary) bytes.length := by
  induction count generalizing next text with
  | zero =>
    obtain rfl : next = adjusted := total
    rw [unpackCharacters, if_pos (.inl inside), slice_zero, List.takeWhile_nil, ite_self, List.append_nil]
  | succ count ih =>
    rw [unpackCharacters]
    cases here : bytes[next]? with
    | none =>
      have atEnd : next = bytes.length := Nat.le_antisymm inside (List.getElem?_eq_none_iff.mp here)
      have empty : bytes.drop next = [] := List.drop_eq_nil_of_le (Nat.le_of_eq atEnd.symm)
      rw [if_neg]
      · rw [atEnd]
      · rw [empty]
        rintro (room | ⟨-, mem⟩)
        · omega
        · contradiction
    | some c =>
      obtain ⟨further, same⟩ := List.getElem?_eq_some_iff.mp here
      have split : bytes.drop next = c :: bytes.drop (next + 1) := by
        rw [List.drop_eq_getElem_cons further, same]
      have front : slice bytes next (count + 1) = c :: slice bytes (next + 1) count := by
        rw [slice, split, List.take_succ_cons, slice]
      rw [front, split]
      by_cases ends : isDynamic = false ∧ c = 0
      · obtain ⟨rfl, rfl⟩ := ends
        simp
      · simp only [if_neg ends]
        rw [ih further (by omega), Nat.add_right_comm next 1 count, Nat.add_assoc next count 1]
        cases isDynamic with
        | true => simp
        | false =>
          have notZero : c ≠ 0 := fun zero => ends ⟨rfl, zero⟩
          simp [notZero, Ne.symm notZero]

theorem reads_string (isText : code = .char ∨ code = .char8) (d : Deserializer)
    (inside : d.buffer.next ≤ d.buffer.bytes.length) :
    Reads d.unpackString
      (ReadableArray code (decide (d.state.dynamicSizeType ≠ .none)) d.buffer.bytes d.buffer.next d.state.arrayLen) d
      (decodeArray code (decide (d.state.dynamicSizeType ≠ .none)) d.buffer.bytes d.buffer.next d.state.arrayLen)
      { d.buffer with next := d.buffer.next + code.size * d.state.arrayLen } := by
  have one : code.size = 1 := by rcases isText with rfl | rfl <;> rfl
  have decoded (isDynamic : Bool) (bytes : Bytes) (next count : Nat) : decodeArray code isDynamic bytes next count =
      .scalar (.str (if isDynamic then slice bytes next count else (slice bytes next count).takeWhile (· ≠ 0))) := by
    rcases isText with rfl | rfl <;> rfl
  have characters := @unpackCharacters_eq d.buffer.bytes (decide (d.state.dynamicSizeType ≠ .none))
    (d.buffer.next + d.state.arrayLen) d.buffer.next d.state.arrayLen inside rfl []
  rw [unpackString, decoded, ReadableArray, one, Nat.one_mul]
  simp only [isText, true_and, characters, List.nil_append]
  constructor
  · intro room
    rw [if_pos room]
    exact ⟨_, rfl, rfl⟩
  · intro full
    rw [if_neg full]
    exact ⟨_, _, rfl⟩

theorem reads_bytes (d : Deserializer) :
    Reads d.unpackByteArrayInternal (d.buffer.next + d.state.arrayLen ≤ d.buffer.bytes.length) d
      (.scalar (.bytearray (slice d.buffer.bytes d.buffer.next d.state.arrayLen)))
      { d.buffer with next := d.buffer.next + d.state.arrayLen } := by
  rw [unpackByteArrayInternal]
  constructor
  · intro room
    simp only [if_pos room]
    exact ⟨_, rfl, rfl⟩
  · intro full
    simp only [if_neg full]
    exact ⟨_, _, rfl⟩

/-- A value is read and handed on under a condition, and without it the call fails. -/
structure Hands (r : Result Deserializer Unit) (condition : Prop) (d : Deserializer) (value : Dv) (b : ReadBuffer) :
    Prop where
  ok : condition → ∃ st : ReadState, st.value = value ∧ r = popLoop (d.reading st b) d.stack
  fail : ¬condition → ∃ failure d', r = .fail failure d'

theorem Reads.hands {r : Result Deserializer Unit} {condition : Prop} {d : Deserializer} {value : Dv} {b : ReadBuffer}
    (reads : Reads r condition d value b) : Hands (r.bind fun _ d => d.popState) condition d value b := by
  constructor
  · intro holds
    obtain ⟨st, same, read⟩ := reads.ok holds
    exact ⟨st, same, by rw [read]; rfl⟩
  · intro not
    obtain ⟨failure, d', failed⟩ := reads.fail not
    exact ⟨failure, d', by rw [failed]; rfl⟩

theorem Hands.iff {r : Result Deserializer Unit} {condition condition' : Prop} {d : Deserializer} {value : Dv}
    {b : ReadBuffer} (hands : Hands r condition d value b) (same : condition ↔ condition') :
    Hands r condition' d value b :=
  ⟨fun holds => hands.ok (same.mpr holds), fun not => hands.fail fun holds => not (same.mp holds)⟩

theorem Reads.iff {r : Result Deserializer Unit} {condition condition' : Prop} {d : Deserializer} {value : Dv}
    {b : ReadBuffer} (reads : Reads r condition d value b) (same : condition ↔ condition') :
    Reads r condition' d value b :=
  ⟨fun holds => reads.ok (same.mpr holds), fun not => reads.fail fun holds => not (same.mp holds)⟩

theorem hands_array (known : Compiler.leafInfo code ≠ none) (d : Deserializer)
    (type : d.state.typeCode = code.readAs) (size : d.state.elementSize = code.size)
    (idle : d.queuedReadState.isActive = false) {isDynamic : Bool}
    (dynamic : decide (d.state.dynamicSizeType ≠ .none) = isDynamic) {count : Nat} (length : d.state.arrayLen = count)
    (nonempty : count ≠ 0) (inside : d.buffer.next ≤ d.buffer.bytes.length) :
    Hands d.unpackPrepared (ReadableArray code isDynamic d.buffer.bytes d.buffer.next count) d
      (decodeArray code isDynamic d.buffer.bytes d.buffer.next count)
      { d.buffer with next := d.buffer.next + code.size * count } := by
  subst dynamic length
  have active : ¬(d.queuedReadState.isActive = true ∧ d.queuedReadState.index ≥ d.queuedReadState.currentLength) := by
    simp [idle]
  have full {isDynamic : Bool} (notText : ¬(code = .char ∨ code = .char8)) :
      d.buffer.next + code.size * d.state.arrayLen ≤ d.buffer.bytes.length ↔
        ReadableArray code isDynamic d.buffer.bytes d.buffer.next d.state.arrayLen := by
    simp [ReadableArray, notText]
  rw [unpackPrepared, if_neg active, if_neg nonempty]
  cases code with
  | none | char16 | char32 => exact absurd rfl known
  | char | char8 =>
    have notNumber : ¬d.state.isNumOrBoolType = true := by
      simp [ReadState.isNumOrBoolType, type, LeafCode.readAs, LeafCode.typeCode, nonempty]
    have isText : d.state.isCharType = true := by
      simp [ReadState.isCharType, type, LeafCode.readAs, LeafCode.typeCode]
    rw [if_neg notNumber, if_pos isText]
    exact (reads_string (by decide) d inside).hands
  | byte =>
    have notNumber : ¬d.state.isNumOrBoolType = true := by
      simp [ReadState.isNumOrBoolType, type, LeafCode.readAs, LeafCode.typeCode]
    have notText : ¬d.state.isCharType = true := by
      simp [ReadState.isCharType, type, LeafCode.readAs, LeafCode.typeCode]
    have isByte : d.state.isByteType = true := by
      simp [ReadState.isByteType, type, LeafCode.readAs, LeafCode.typeCode]
    have reads := reads_bytes d
    rw [if_neg notNumber, if_neg notText, if_pos isByte]
    have one : LeafCode.size .byte = 1 := rfl
    refine (Reads.iff ?_ (full (by decide))).hands
    rw [one, Nat.one_mul]
    exact reads
  | _ =>
    have isNumber : d.state.isNumOrBoolType = true := by
      simp [ReadState.isNumOrBoolType, type, LeafCode.readAs, LeafCode.typeCode]
    have elements := @reads_elements _ known d ((ReadState.create d.memory).setTypeAndSize d.state.typeCode
      d.state.elementSize) type size [] d.state.arrayLen inside
    rw [if_pos isNumber]
    exact (elements.iff (full (by decide))).hands

theorem settles_prepareForBufferRead {d : Deserializer} (sound : d.buffer.Sound) (typeCode : TypeCode)
    (elementSize : Nat) :
    (d.prepareForBufferRead typeCode elementSize).Settles (d.buffer.cursor ≤ d.buffer.bytes.length)
      { d with state := d.state.reset.setTypeAndSize typeCode elementSize, buffer := d.buffer.flushed } := by
  obtain ⟨nonempty, inside⟩ := sound
  have invalid : d.buffer.isValid = false ↔ ¬d.buffer.next ≤ d.buffer.bytes.length := by
    simp [ReadBuffer.isValid, nonempty]
  rw [prepareForBufferRead]
  simp only [ReadBuffer.cursor, ReadBuffer.flushed]
  cases padded : d.buffer.paddedNext with
  | none =>
    simp only [Option.getD_none]
    constructor
    · intro room
      rw [if_neg (by simpa [invalid] using room)]
      rw [← padded]
    · intro full
      exact ⟨_, _, if_pos (invalid.mpr full)⟩
  | some position =>
    have valid : ¬d.buffer.isValid = false := by
      rw [invalid]
      exact not_not_intro (inside (by simp [padded]))
    simp only [Option.getD_some, if_neg valid]
    constructor
    · intro room
      rw [if_neg (Nat.not_lt.mpr room)]
    · intro full
      exact ⟨_, _, if_pos (Nat.lt_of_not_le full)⟩

theorem prefixNumber_lt (bytes : Bytes) (next arrayLength : Nat) : prefixNumber bytes next arrayLength < 2 ^ 32 := by
  have width : (slice bytes next (sizeTypeToSize (sizeToSizeType arrayLength))).length ≤ 4 := by
    have atMost : sizeTypeToSize (sizeToSizeType arrayLength) ≤ 4 := by
      cases sizeToSizeType arrayLength <;> decide
    rw [slice, List.length_take]
    omega
  calc prefixNumber bytes next arrayLength
      < 256 ^ (slice bytes next (sizeTypeToSize (sizeToSizeType arrayLength))).length := unpackLE_lt _
    _ ≤ 256 ^ 4 := Nat.pow_le_pow_right (by decide) width
    _ = 2 ^ 32 := by decide

theorem parsePrefix (bytes : Bytes) (next : Nat) {arrayLength : Nat} (positive : 0 < arrayLength) :
    parseUInt32BySizeType bytes next (sizeToSizeType arrayLength) =
      if next + sizeTypeToSize (sizeToSizeType arrayLength) ≤ bytes.length then
        some (BitVec.ofNat 32 (prefixNumber bytes next arrayLength),
          next + sizeTypeToSize (sizeToSizeType arrayLength))
      else none := by
  have parse {sizeType : SizeType} (supported : sizeType ≠ .none) :
      parseUInt32BySizeType bytes next sizeType =
        if next + sizeTypeToSize sizeType ≤ bytes.length then
          some (BitVec.ofNat 32 (unpackLE (slice bytes next (sizeTypeToSize sizeType))),
            next + sizeTypeToSize sizeType)
        else none := by
    have width (variant : Nat) (sized : variantToSize variant ≠ 0) : parseUInt32ByVariant bytes next variant =
        if next + variantToSize variant ≤ bytes.length then
          some (BitVec.ofNat 32 (unpackLE (slice bytes next (variantToSize variant))), next + variantToSize variant)
        else none := by
      rw [parseUInt32ByVariant]
      by_cases room : next + variantToSize variant ≤ bytes.length
      · rw [if_pos room, if_neg (by omega)]
      · rw [if_neg room, if_pos (by omega)]
    cases sizeType with
    | none => exact absurd rfl supported
    | uint8 => exact width variantUInt8 (by decide)
    | uint16 => exact width variantUInt16 (by decide)
    | uint32 => exact width variantUInt32 (by decide)
  exact parse (sizeToSizeType_ne positive)

/-- Preparing a dynamic array reads the number of its elements. -/
theorem settles_prepareDynamic {d : Deserializer} {arrayLength : Nat} (positive : 0 < arrayLength)
    (sized : d.state.elementSize ≠ 0) :
    (d.prepareForArray arrayLength (sizeToSizeType arrayLength)).Settles
      (d.buffer.next + sizeTypeToSize (sizeToSizeType arrayLength) ≤ d.buffer.bytes.length ∧
        prefixNumber d.buffer.bytes d.buffer.next arrayLength ≤ arrayLength)
      { d with
        state := { d.state with
          dynamicSizeType := sizeToSizeType arrayLength
          maxArrayLen := arrayLength
          arrayLen := prefixNumber d.buffer.bytes d.buffer.next arrayLength }
        buffer := { d.buffer with
          next := d.buffer.next + sizeTypeToSize (sizeToSizeType arrayLength)
          paddedNext := some (d.buffer.next + sizeTypeToSize (sizeToSizeType arrayLength) +
            arrayLength * d.state.elementSize) } } := by
  have isDynamic := sizeToSizeType_ne positive
  rw [prepareForArray, if_pos positive, if_pos isDynamic]
  simp only [ReadState.determineArrayLengthFromReadBuffer, if_neg isDynamic, parsePrefix _ _ positive]
  by_cases room : d.buffer.next + sizeTypeToSize (sizeToSizeType arrayLength) ≤ d.buffer.bytes.length
  · simp only [if_pos room, Result.lift_ok, Result.bind_ok, BitVec.toNat_ofNat,
      Nat.mod_eq_of_lt (prefixNumber_lt _ _ _), if_neg sized]
    constructor
    · intro both
      rw [if_neg (Nat.not_lt.mpr both.2)]
    · intro not
      exact ⟨_, _, if_pos (Nat.lt_of_not_le fun atMost => not ⟨room, atMost⟩)⟩
  · simp only [if_neg room, Result.lift_fail, Result.bind_fail]
    exact (Result.Settles.never _ _ _).iff (by simp [room])

theorem unpackOperation_leaf (known : Compiler.leafInfo code ≠ none) (arrayLength : Nat) (isDynamic : Bool)
    (d : Deserializer) :
    unpackOperation (dataInfo code.typeCode arrayLength isDynamic) d =
      unpackAs code.readAs code.size d arrayLength (dynamicSizeType (dataInfo code.typeCode arrayLength isDynamic)) := by
  cases code <;> first | exact absurd rfl known | rfl

/-- A dynamic array without elements is taken for a call without a length. -/
theorem unpackPrepared_empty {d : Deserializer} (idle : d.queuedReadState.isActive = false)
    (empty : d.state.arrayLen = 0) (isDynamic : d.state.dynamicSizeType ≠ .none) :
    d.unpackPrepared = .fail (.code .invalidArgument) d := by
  rw [unpackPrepared, if_neg (by simp [idle]), if_pos empty, if_pos isDynamic]

/-- The data instruction of an element without children -/
theorem hands_leaf (known : Compiler.leafInfo code ≠ none) (arrayLength : Nat) (isDynamic : Bool) (d : Deserializer)
    (idle : d.queuedReadState.isActive = false) (sound : d.buffer.Sound) :
    Hands (unpackOperation (dataInfo code.typeCode arrayLength isDynamic) d)
      (ReadableLeaf code arrayLength isDynamic d.buffer.bytes d.buffer.cursor) d
      (decodeLeaf code arrayLength isDynamic d.buffer.bytes d.buffer.cursor)
      (d.buffer.past code arrayLength isDynamic) := by
  have prepares := settles_prepareForBufferRead sound code.readAs code.size
  rw [unpackOperation_leaf known, unpackAs]
  by_cases inside : d.buffer.cursor ≤ d.buffer.bytes.length
  swap
  · obtain ⟨failure, d', failed⟩ := prepares.fail inside
    rw [failed]
    exact ⟨fun readable => absurd readable.1 inside, fun _ => ⟨failure, d', rfl⟩⟩
  rw [prepares.ok inside, Result.bind_ok, unpackValue]
  let st : ReadState := d.state.reset.setTypeAndSize code.readAs code.size
  let d₁ := d.reading st d.buffer.flushed
  rcases Nat.eq_zero_or_pos arrayLength with rfl | positive
  · have single : dynamicSizeType (dataInfo code.typeCode 0 isDynamic) = .none := by
      simp [dynamicSizeType, dataInfo]
    have scalar : d₁.unpackPrepared = d₁.unpackScalarValue.bind fun _ d => d.popState := by
      have active : ¬(d₁.queuedReadState.isActive = true ∧ d₁.queuedReadState.index ≥ d₁.queuedReadState.currentLength) := by
        simp [d₁, idle]
      rw [unpackPrepared, if_neg active]
      cases code <;> first | exact absurd rfl known | rfl
    have reads := (reads_scalar known d₁ rfl rfl inside).hands.iff
      (⟨fun room => ⟨inside, room⟩, And.right⟩ : _ ↔ ReadableLeaf code 0 isDynamic d.buffer.bytes d.buffer.cursor)
    rw [single, prepareForArray, if_neg (Nat.lt_irrefl 0), Result.bind_ok]
    show Hands d₁.unpackPrepared _ _ _ _
    rw [scalar]
    exact ⟨reads.ok, reads.fail⟩
  have notZero : arrayLength ≠ 0 := Nat.ne_of_gt positive
  cases isDynamic with
  | false =>
    have fixed : dynamicSizeType (dataInfo code.typeCode arrayLength false) = .none := by
      simp [dynamicSizeType, dataInfo]
    have span : extent code.size arrayLength false = code.size * arrayLength := by simp [extent, notZero]
    have prepared : d₁.prepareForArray arrayLength .none =
        .ok () (d.reading { st with arrayLen := arrayLength } d.buffer.flushed) := by
      rw [prepareForArray, if_pos positive, if_neg (not_not_intro rfl)]
      rfl
    have reads := (@hands_array code known (d.reading { st with arrayLen := arrayLength } d.buffer.flushed) rfl rfl idle
      false rfl arrayLength rfl notZero inside).iff (and_iff_right inside).symm
    rw [fixed]
    show Hands ((d₁.prepareForArray arrayLength .none).bind fun _ d => d.unpackPrepared) _ _ _ _
    rw [prepared, Result.bind_ok, ReadableLeaf, decodeLeaf, ReadBuffer.past, if_neg notZero, if_neg notZero,
      if_neg (show ¬(0 < arrayLength ∧ false = true) by simp), span]
    exact ⟨reads.ok, reads.fail⟩
  | true =>
    have dynamic : dynamicSizeType (dataInfo code.typeCode arrayLength true) = sizeToSizeType arrayLength := by
      simp [dynamicSizeType, dataInfo, positive]
    have sized : code.size ≠ 0 := by cases code <;> first | exact absurd rfl known | decide
    have isDynamic := sizeToSizeType_ne positive
    have counts := @settles_prepareDynamic d₁ arrayLength positive sized
    rw [dynamic]
    show Hands ((d₁.prepareForArray arrayLength (sizeToSizeType arrayLength)).bind fun _ d => d.unpackPrepared) _ _ _ _
    rw [ReadableLeaf, decodeLeaf, ReadBuffer.past, if_neg notZero, if_neg notZero,
      if_pos (show 0 < arrayLength ∧ true = true from ⟨positive, rfl⟩), if_pos rfl, if_pos rfl]
    by_cases counted : d.buffer.cursor + sizeTypeToSize (sizeToSizeType arrayLength) ≤ d.buffer.bytes.length ∧
        prefixNumber d.buffer.bytes d.buffer.cursor arrayLength ≤ arrayLength
    swap
    · obtain ⟨failure, d', failed⟩ := counts.fail counted
      rw [failed]
      exact ⟨fun readable => absurd ⟨readable.2.1, readable.2.2.1⟩ counted, fun _ => ⟨failure, d', rfl⟩⟩
    rw [counts.ok counted, Result.bind_ok]
    by_cases empty : prefixNumber d.buffer.bytes d.buffer.cursor arrayLength = 0
    · refine ⟨fun readable => absurd empty readable.2.2.2.1, fun _ => ⟨_, _, unpackPrepared_empty ?_ ?_ ?_⟩⟩
      · exact idle
      · exact empty
      · exact isDynamic
    · have reads := @hands_array code known
        (d.reading
          { st with
            dynamicSizeType := sizeToSizeType arrayLength, maxArrayLen := arrayLength,
            arrayLen := prefixNumber d.buffer.bytes d.buffer.cursor arrayLength }
          { d.buffer.flushed with
            next := d.buffer.cursor + sizeTypeToSize (sizeToSizeType arrayLength)
            paddedNext := some (d.buffer.cursor + sizeTypeToSize (sizeToSizeType arrayLength) +
              arrayLength * code.size) }) rfl rfl idle true (decide_eq_true isDynamic) _ rfl empty counted.1
      have padded : d.buffer.cursor + sizeTypeToSize (sizeToSizeType arrayLength) + arrayLength * code.size =
          d.buffer.cursor + extent code.size arrayLength true := by
        rw [extent, if_neg notZero, if_pos rfl, Nat.mul_comm]
        omega
      have reads := reads.iff (⟨fun readable => ⟨inside, counted.1, counted.2, empty, readable⟩, fun h => h.2.2.2.2⟩ : _ ↔
        d.buffer.cursor ≤ d.buffer.bytes.length ∧
          d.buffer.cursor + sizeTypeToSize (sizeToSizeType arrayLength) ≤ d.buffer.bytes.length ∧
          prefixNumber d.buffer.bytes d.buffer.cursor arrayLength ≤ arrayLength ∧
          prefixNumber d.buffer.bytes d.buffer.cursor arrayLength ≠ 0 ∧
          ReadableArray code true d.buffer.bytes (d.buffer.cursor + sizeTypeToSize (sizeToSizeType arrayLength))
            (prefixNumber d.buffer.bytes d.buffer.cursor arrayLength))
      rw [← padded]
      exact ⟨reads.ok, reads.fail⟩

end Deserializer

end Apx
