import Apx.PackShapes
import Mathlib.Data.List.Forall2

/-! Packing a value of the right shape as an array, and any value as an element with limits. -/

namespace Apx

open LittleEndian Vm

/-- The buffer behind an element that wrote `data`. A dynamic array also reserves the bytes that it
may need. -/
def WriteBuffer.put (b : WriteBuffer) (data : Bytes) (reserved : Option Nat) : WriteBuffer :=
  { b.flushed with paddedNext := reserved.map (b.cursor + ·) }.write data

/-- The element fits into the buffer. -/
def WriteBuffer.Fits (b : WriteBuffer) (data : Bytes) (reserved : Option Nat) : Prop :=
  b.cursor + data.length ≤ b.bytes.length ∧ ∀ size ∈ reserved, b.cursor + size ≤ b.bytes.length

theorem WriteBuffer.Fits.length {b : WriteBuffer} {data : Bytes} {reserved : Option Nat}
    (fits : b.Fits data reserved) : (b.put data reserved).bytes.length = b.bytes.length :=
  splice_length fits.1

theorem WriteBuffer.cursor_put (b : WriteBuffer) (data : Bytes) (reserved : Option Nat) :
    (b.put data reserved).cursor = b.cursor + reserved.getD data.length := by
  cases reserved <;> rfl

theorem WriteBuffer.Fits.ready {b : WriteBuffer} {data : Bytes} {reserved : Option Nat} (ready : b.Ready)
    (fits : b.Fits data reserved) : (b.put data reserved).Ready where
  nonempty := by
    rw [fits.length]
    exact ready.nonempty
  inside := by
    rw [fits.length]
    exact fits.1
  padded := by
    rw [fits.length, cursor_put]
    cases reserved with
    | none => exact fits.1
    | some size => exact fits.2 size rfl

/-- The bytes that a dynamic array reserves. The product of its length and the size of its elements is
taken in uint32_t. -/
def reservedBytes (code : LeafCode) (arrayLength : Nat) (isDynamic : Bool) : Option Nat :=
  if isDynamic ∧ 0 < arrayLength then
    some (sizeTypeToSize (sizeToSizeType arrayLength) + u32 (arrayLength * code.size))
  else none

/-- The length in front of the elements of a dynamic array -/
def lengthPrefix (arrayLength : Nat) (isDynamic : Bool) (length : Nat) : Bytes :=
  if isDynamic ∧ 0 < arrayLength then packLE length (sizeTypeToSize (sizeToSizeType arrayLength)) else []

namespace Serializer

variable {dtl : Dtl} {code : LeafCode}

/-- What a check before the data instruction has left to do -/
def Known (check : RangeCheckState) (code : LeafCode) (xs : List Int) : Prop :=
  check = .notChecked ∨ check = .ok ∧ ∀ x ∈ xs, code.InRange x

/-- The numbers of an array, whatever the instruction before has checked -/
theorem settles_packArrayOfScalar (exact_ : dtl.Exact) (isNumber : code.isNumber = true) {av : List Dv}
    {xs : List Int} (numbers : Numbers code av xs) {s : Serializer} (value : s.state.value = .array av)
    (type : s.state.typeCode = code.typeCode) (size : s.state.elementSize = code.size)
    (known : Known s.state.rangeCheckState code xs)
    (length : s.state.dynamicSizeType = .none → av.length = s.state.arrayLen)
    (inside : s.buffer.next ≤ s.buffer.bytes.length) :
    ∃ slot, (s.packArrayOfScalar dtl).Settles
      ((∀ x ∈ xs, code.InRange x) ∧ s.buffer.next + code.size * xs.length ≤ s.buffer.bytes.length)
      { s with state := { s.state with scalar := slot }, buffer := s.buffer.write (encodeAll code xs) } := by
  have conforming : ¬(s.state.dynamicSizeType = .none ∧ av.length ≠ s.state.arrayLen) :=
    fun ⟨fixed, differ⟩ => differ (length fixed)
  -- the elements behind any check that they passed
  have elements (slot : ScalarSlot) (inRange : ∀ x ∈ xs, code.InRange x) :
      ∃ slot', (packElements dtl { s with state := { s.state with scalar := slot } } av).Settles
        (s.buffer.next + code.size * xs.length ≤ s.buffer.bytes.length)
        { s with state := { s.state with scalar := slot' }, buffer := s.buffer.write (encodeAll code xs) } :=
    @settles_packElements dtl exact_ code isNumber av xs numbers inRange
      { s with state := { s.state with scalar := slot } } type size inside
  rcases known with unknown | ⟨checked, inRange⟩
  · have array : s.packArrayOfScalar dtl =
        ((s.state.defaultRangeCheckElements dtl (.ok () s.state) av).lift
          fun st => ({ s with state := st } : Serializer)).bind fun _ s => packElements dtl s av := by
      rw [packArrayOfScalar, value]
      simp only [if_neg conforming, unknown, onState, WriteState.defaultRangeCheckValue, value]
    rw [array]
    by_cases stored : ∀ x ∈ xs, code.stored.InRange x
    · obtain ⟨slot, range⟩ := settles_defaultRangeCheckElements exact_ isNumber numbers stored type
      have checks := range.lift fun st => ({ s with state := st } : Serializer)
      by_cases inRange : ∀ x ∈ xs, code.InRange x
      · obtain ⟨slot', wrote⟩ := elements slot inRange
        exact ⟨slot', checks.bind fun _ => wrote⟩
      · obtain ⟨failure, t, failed⟩ := checks.fail inRange
        rw [failed]
        exact ⟨slot, (Result.Settles.never _ _ _).iff (by simp [inRange])⟩
    · -- the check may overlook such an element, which is then not loaded
      have notInRange : ¬∀ x ∈ xs, code.InRange x :=
        fun inRange => stored fun x mem => LeafCode.inRange_stored (inRange x mem)
      have same := s.state.defaultRangeCheckElements_shape dtl av s.state (.ok () s.state) (.refl _) (.refl _)
      refine ⟨s.state.scalar, Result.Settles.iff ⟨False.elim, fun _ => ?_⟩
        (show False ↔ _ by simp [notInRange])⟩
      cases checked : s.state.defaultRangeCheckElements dtl (.ok () s.state) av with
      | fail failure st => exact ⟨failure, _, rfl⟩
      | ok _ st =>
        rw [checked] at same
        obtain ⟨slot, check, rfl⟩ := same
        exact packElements_failed exact_ isNumber numbers stored type
  · have array : s.packArrayOfScalar dtl = packElements dtl s av := by
      rw [packArrayOfScalar, value]
      simp only [if_neg conforming, checked, Result.bind_ok]
    rw [array]
    obtain ⟨slot', wrote⟩ := elements s.state.scalar inRange
    exact ⟨slot', wrote.iff (and_iff_right inRange).symm⟩

theorem body_numbers (exact_ : dtl.Exact) (isNumber : code.isNumber = true) {av : List Dv} {xs : List Int}
    (numbers : Numbers code av xs) {check : RangeCheckState} (known : Known check code xs) (scalar : ScalarSlot)
    {arrayLen maxArrayLen : Nat} {sizeType : SizeType} (length : sizeType = .none → av.length = arrayLen) :
    Body dtl code (arrayOf code (.array av) scalar check arrayLen maxArrayLen sizeType)
      (∀ x ∈ xs, code.InRange x) (encodeAll code xs) := by
  intro b inside
  have body (s : Serializer) : packBody dtl code s = packArrayOfScalar dtl s := by
    cases code <;> first | contradiction | rfl
  obtain ⟨slot, wrote⟩ := @settles_packArrayOfScalar dtl code exact_ isNumber av xs numbers
    { state := arrayOf code (.array av) scalar check arrayLen maxArrayLen sizeType, buffer := b }
    rfl rfl rfl known length inside
  rw [body, encodeAll_length]
  exact ⟨_, wrote, rfl, rfl, rfl⟩

theorem splice_cleared {bytes text : Bytes} {offset size : Nat} (short : text.length ≤ size)
    (inside : offset + size ≤ bytes.length) :
    splice (splice bytes offset (List.replicate size 0)) offset text =
      splice bytes offset (text ++ List.replicate (size - text.length) 0) := by
  have front : (bytes.take offset).length = offset := by
    rw [List.length_take]
    omega
  have whole : splice bytes offset (List.replicate size 0) =
      bytes.take offset ++ (List.replicate size 0 ++ bytes.drop (offset + size)) := by
    rw [splice, List.length_replicate, List.append_assoc]
  have total : (text ++ List.replicate (size - text.length) (0 : Byte)).length = size := by
    rw [List.length_append, List.length_replicate]
    omega
  have rest : (List.replicate size (0 : Byte) ++ bytes.drop (offset + size)).drop text.length =
      List.replicate (size - text.length) 0 ++ bytes.drop (offset + size) := by
    rw [List.drop_append_of_le_length (by simpa using short), List.drop_replicate]
  have written := splice_append (bytes.take offset)
    (List.replicate size 0 ++ bytes.drop (offset + size)) text
  rw [front, rest] at written
  rw [whole, written, splice, total]
  simp only [List.append_assoc]

theorem settles_packString (exact_ : dtl.Exact) {s : Serializer} {text : Bytes}
    (value : s.state.value = .scalar (.str text)) {size : Nat}
    (target : u32 (s.state.elementSize * s.state.arrayLen) = size) (short : text.length ≤ size)
    (type : s.state.typeCode = .char ∨ s.state.typeCode = .char8) :
    (s.packString dtl).Settles (s.buffer.next + size ≤ s.buffer.bytes.length)
      { s with buffer := s.buffer.write (text ++ List.replicate (size - text.length) 0) } := by
  have length : (text ++ List.replicate (size - text.length) (0 : Byte)).length = size := by
    rw [List.length_append, List.length_replicate]
    omega
  rw [packString, value]
  simp only [exact_.toStr, target, if_pos type, Bool.true_eq_false, if_false]
  constructor
  · intro room
    rw [if_pos room, if_neg (Nat.not_lt.mpr short), splice_cleared short room, WriteBuffer.write, length]
  · intro full
    exact ⟨_, _, if_neg full⟩

theorem body_string (exact_ : dtl.Exact) (isText : code = .char ∨ code = .char8) (text : Bytes)
    (scalar : ScalarSlot) (check : RangeCheckState) {arrayLen : Nat} (short : text.length ≤ arrayLen)
    (small : arrayLen < 2 ^ 32) (maxArrayLen : Nat) (sizeType : SizeType) :
    Body dtl code (arrayOf code (.scalar (.str text)) scalar check arrayLen maxArrayLen sizeType) True
      (text ++ List.replicate (arrayLen - text.length) 0) := by
  intro b inside
  have body (s : Serializer) : packBody dtl code s = packString dtl s := by
    rcases isText with rfl | rfl <;> rfl
  have type : code.typeCode = .char ∨ code.typeCode = .char8 := by
    rcases isText with rfl | rfl
    · exact .inl rfl
    · exact .inr rfl
  have one : code.size = 1 := by rcases isText with rfl | rfl <;> rfl
  have target : u32 (code.size * arrayLen) = arrayLen := by rw [one, Nat.one_mul, u32_of_lt small]
  have length : (text ++ List.replicate (arrayLen - text.length) (0 : Byte)).length = arrayLen := by
    rw [List.length_append, List.length_replicate]
    omega
  have wrote := @settles_packString dtl exact_
    { state := arrayOf code (.scalar (.str text)) scalar check arrayLen maxArrayLen sizeType, buffer := b }
    text rfl arrayLen target short type
  rw [body, length]
  exact ⟨_, wrote.iff (and_iff_right trivial).symm, rfl, rfl, rfl⟩

/-- A byte array of the length that is written -/
theorem settles_packByteArray {s : Serializer} {bytes : Bytes} (value : s.state.value = .scalar (.bytearray bytes))
    (length : s.state.arrayLen = bytes.length) :
    s.packByteArrayInternal.Settles (s.buffer.next + bytes.length ≤ s.buffer.bytes.length)
      { s with buffer := s.buffer.write bytes } := by
  rw [packByteArrayInternal, value]
  simp only [length, ne_eq, not_true_eq_false, and_false, if_false, Nat.le_refl, if_true, List.take_length]
  exact Result.Settles.test _ _ _ _

theorem body_bytes (bytes : Bytes) (scalar : ScalarSlot) (check : RangeCheckState) (maxArrayLen : Nat)
    (sizeType : SizeType) :
    Body dtl .byte (arrayOf .byte (.scalar (.bytearray bytes)) scalar check bytes.length maxArrayLen sizeType)
      True bytes := by
  intro b inside
  have wrote := @settles_packByteArray
    { state := arrayOf .byte (.scalar (.bytearray bytes)) scalar check bytes.length maxArrayLen sizeType, buffer := b }
    bytes rfl rfl
  exact ⟨_, wrote.iff (and_iff_right trivial).symm, rfl, rfl, rfl⟩

theorem settles_packFixed (known : Compiler.leafInfo code ≠ none) {arrayLength : Nat} (positive : 0 < arrayLength)
    {value : Dv} {scalar : ScalarSlot} {check : RangeCheckState} {condition : Prop} {data : Bytes}
    (body : Body dtl code (arrayOf code value scalar check arrayLength 0 .none) condition data) {b : WriteBuffer}
    (ready : b.Ready) :
    ∃ s, (packOperation dtl (dataInfo code.typeCode arrayLength false) (inFront value scalar check b)).Settles
      (condition ∧ b.Fits data none) s ∧ s.buffer = b.put data none := by
  have fixed : dynamicSizeType (dataInfo code.typeCode arrayLength false) = .none := by
    simp [dynamicSizeType, dataInfo]
  have flushed : (inFront value scalar check b).buffer.flush = .ok () b.flushed := WriteBuffer.flush_ready ready
  rw [packOperation_array known positive, fixed, packAs, prepareForBufferWrite_eq, flushed, Result.bind_ok,
    prepareForArray, if_pos positive, if_neg (not_not_intro rfl), Result.bind_ok]
  let s : Serializer := { state := arrayOf code value scalar check arrayLength 0 .none, buffer := b.flushed }
  show ∃ t, (packValue dtl s).Settles _ t ∧ _
  rw [packValue_body known rfl rfl (Nat.ne_of_gt positive),
    if_neg (show ¬s.state.dynamicSizeType ≠ .none from not_not_intro rfl), Result.bind_ok]
  obtain ⟨t, wrote, stack, idle, buffer⟩ := body b.flushed ready.padded
  refine ⟨t, (settles_finishPack wrote stack idle).iff ?_, buffer⟩
  simp [WriteBuffer.Fits, WriteBuffer.flushed]

theorem settles_writeLength {s : Serializer} {length arrayLength : Nat} (positive : 0 < arrayLength)
    (conforming : length ≤ arrayLength) :
    (s.writeDynamicValueToBuffer length (sizeTypeToSize (sizeToSizeType arrayLength))).Settles
      (s.buffer.next + sizeTypeToSize (sizeToSizeType arrayLength) ≤ s.buffer.bytes.length)
      { s with buffer := s.buffer.write (lengthPrefix arrayLength true length) } := by
  have small : ¬((sizeTypeToSize (sizeToSizeType arrayLength) = 1 ∧ length > uint8Max) ∨
      (sizeTypeToSize (sizeToSizeType arrayLength) = 2 ∧ length > uint16Max)) := by
    unfold sizeToSizeType
    rw [if_pos positive]
    split
    · rintro (⟨_, large⟩ | ⟨size, _⟩)
      · omega
      · exact absurd size (by decide)
    · split
      · rintro (⟨size, _⟩ | ⟨_, large⟩)
        · exact absurd size (by decide)
        · omega
      · rintro (⟨size, _⟩ | ⟨size, _⟩)
        · exact absurd size (by decide)
        · exact absurd size (by decide)
  have supported : ¬(sizeTypeToSize (sizeToSizeType arrayLength) ≠ 1 ∧
      sizeTypeToSize (sizeToSizeType arrayLength) ≠ 2 ∧ sizeTypeToSize (sizeToSizeType arrayLength) ≠ 4) := by
    unfold sizeToSizeType
    rw [if_pos positive]
    split <;> [decide; split <;> decide]
  have written : lengthPrefix arrayLength true length =
      packLE length (sizeTypeToSize (sizeToSizeType arrayLength)) := if_pos ⟨rfl, positive⟩
  rw [writeDynamicValueToBuffer, if_neg small, if_neg supported, written]
  exact Result.Settles.test _ _ _ _

theorem lengthPrefix_length {arrayLength : Nat} (positive : 0 < arrayLength) (length : Nat) :
    (lengthPrefix arrayLength true length).length = sizeTypeToSize (sizeToSizeType arrayLength) := by
  rw [lengthPrefix, if_pos ⟨rfl, positive⟩, packLE_length]

/-- Preparing a dynamic array counts its elements and reserves the bytes for the most of them. -/
theorem settles_prepareDynamic {s : Serializer} {arrayLength length : Nat} (positive : 0 < arrayLength)
    {sizeType : SizeType} (isDynamic : sizeType ≠ .none) (conforming : length ≤ arrayLength)
    (counted : ∀ st : WriteState, st.value = s.state.value →
      st.determineArrayLengthFromValue dtl = .ok () { st with arrayLen := length })
    (sized : s.state.elementSize ≠ 0) {padded : Nat}
    (padded_eq : s.buffer.next + sizeTypeToSize sizeType + u32 (arrayLength * s.state.elementSize) = padded) :
    (s.prepareForArray dtl arrayLength sizeType).Settles (padded ≤ s.buffer.bytes.length)
      { s with
        state := { s.state with maxArrayLen := arrayLength, arrayLen := length, dynamicSizeType := sizeType }
        buffer := { s.buffer with paddedNext := some padded } } := by
  rw [prepareForArray, if_pos positive, if_pos isDynamic]
  simp only
  rw [counted { s.state with maxArrayLen := arrayLength } rfl, Result.lift_ok, Result.bind_ok]
  simp only [if_neg (Nat.not_lt.mpr conforming), if_neg sized, padded_eq]
  constructor
  · intro room
    rw [if_neg (Nat.not_lt.mpr room)]
  · intro full
    exact ⟨_, _, if_pos (Nat.lt_of_not_le full)⟩

theorem settles_packCounted (known : Compiler.leafInfo code ≠ none) {arrayLength length : Nat}
    (positive : 0 < arrayLength) (conforming : length ≤ arrayLength) {value : Dv} {scalar : ScalarSlot}
    {check : RangeCheckState} {condition : Prop} {data : Bytes}
    (body : length ≠ 0 → Body dtl code
      (arrayOf code value scalar check length arrayLength (sizeToSizeType arrayLength)) condition data)
    (empty : length = 0 → condition ∧ data = []) {b : WriteBuffer} (inside : b.next ≤ b.bytes.length) :
    ∃ s, (packValue dtl
        { state := arrayOf code value scalar check length arrayLength (sizeToSizeType arrayLength), buffer := b }).Settles
      (condition ∧ b.next + (lengthPrefix arrayLength true length ++ data).length ≤ b.bytes.length) s ∧
      s.buffer = b.write (lengthPrefix arrayLength true length ++ data) := by
  let s : Serializer :=
    { state := arrayOf code value scalar check length arrayLength (sizeToSizeType arrayLength), buffer := b }
  have isDynamic : s.state.dynamicSizeType ≠ .none := sizeToSizeType_ne positive
  have counts := @settles_writeLength s length arrayLength positive conforming
  have prefixLength := lengthPrefix_length positive length
  by_cases none : length = 0
  · obtain ⟨holds, rfl⟩ := empty none
    have packed : packValue dtl s =
        finishPack true (s.writeDynamicValueToBuffer length (sizeTypeToSize (sizeToSizeType arrayLength))) := by
      rw [packValue, if_neg (by simp [s]), if_pos (show s.state.arrayLen = 0 from none), if_pos isDynamic]
      rfl
    show ∃ t, (packValue dtl s).Settles _ t ∧ _
    rw [packed, List.append_nil, prefixLength]
    exact ⟨_, (settles_finishPack counts rfl rfl).iff (and_iff_right holds).symm, rfl⟩
  · show ∃ t, (packValue dtl s).Settles _ t ∧ _
    rw [packValue_body known rfl rfl none, if_pos isDynamic, List.length_append, prefixLength]
    by_cases room : b.next + sizeTypeToSize (sizeToSizeType arrayLength) ≤ b.bytes.length
    · have bytes : (b.write (lengthPrefix arrayLength true length)).bytes.length = b.bytes.length :=
        splice_length (by rw [prefixLength]; exact room)
      have next : (b.write (lengthPrefix arrayLength true length)).next =
          b.next + sizeTypeToSize (sizeToSizeType arrayLength) := by
        rw [WriteBuffer.write, prefixLength]
      obtain ⟨t, wrote, stack, idle, buffer⟩ := body none (b.write (lengthPrefix arrayLength true length))
        (by rw [bytes, next]; exact room)
      rw [bytes, next] at wrote
      rw [show s.writeDynamicValueToBuffer s.state.arrayLen (sizeTypeToSize s.state.dynamicSizeType) = _ from
        counts.ok room, Result.bind_ok]
      refine ⟨t, (settles_finishPack wrote stack idle).iff ?_, ?_⟩
      · rw [Nat.add_assoc]
      · rw [buffer, WriteBuffer.write_write _ _ inside]
    · obtain ⟨failure, t, failed⟩ := counts.fail room
      rw [show s.writeDynamicValueToBuffer s.state.arrayLen (sizeTypeToSize s.state.dynamicSizeType) = _ from
        failed, Result.bind_fail]
      refine ⟨{ buffer := b.write (lengthPrefix arrayLength true length ++ data) },
        (Result.Settles.never _ _ _).iff ⟨False.elim, fun both => room ?_⟩, rfl⟩
      omega

/-- The data instruction of a dynamic array, for a value with `length` elements. Nothing is packed behind a
length of zero. -/
theorem settles_packDynamic (known : Compiler.leafInfo code ≠ none) {arrayLength : Nat}
    (positive : 0 < arrayLength) {value : Dv} {length : Nat} (conforming : length ≤ arrayLength)
    (counted : ∀ st : WriteState, st.value = value →
      st.determineArrayLengthFromValue dtl = .ok () { st with arrayLen := length })
    {scalar : ScalarSlot} {check : RangeCheckState} {condition : Prop} {data : Bytes}
    (body : length ≠ 0 → Body dtl code
      (arrayOf code value scalar check length arrayLength (sizeToSizeType arrayLength)) condition data)
    (empty : length = 0 → condition ∧ data = []) {b : WriteBuffer} (ready : b.Ready) :
    ∃ s, (packOperation dtl (dataInfo code.typeCode arrayLength true) (inFront value scalar check b)).Settles
      (condition ∧ b.Fits (lengthPrefix arrayLength true length ++ data) (reservedBytes code arrayLength true)) s ∧
      s.buffer = b.put (lengthPrefix arrayLength true length ++ data) (reservedBytes code arrayLength true) := by
  let sizeType := sizeToSizeType arrayLength
  have dynamic : dynamicSizeType (dataInfo code.typeCode arrayLength true) = sizeType := by
    simp [dynamicSizeType, dataInfo, positive, sizeType]
  have isDynamic : sizeType ≠ .none := sizeToSizeType_ne positive
  have flushed : (inFront value scalar check b).buffer.flush = .ok () b.flushed := WriteBuffer.flush_ready ready
  have sized : code.size ≠ 0 := by cases code <;> first | exact absurd rfl known | decide
  let s : Serializer := { (inFront value scalar check b) with
    state := { value := value, scalar := scalar, rangeCheckState := check, typeCode := code.typeCode,
               elementSize := code.size }
    buffer := b.flushed }
  have prepares := @settles_prepareDynamic dtl s arrayLength length positive sizeType isDynamic conforming counted
    sized _ rfl
  rw [packOperation_array known positive, dynamic, packAs, prepareForBufferWrite_eq, flushed, Result.bind_ok]
  show ∃ t, ((s.prepareForArray dtl arrayLength sizeType).bind fun _ s => packValue dtl s).Settles _ t ∧ _
  obtain ⟨t, packs, buffer⟩ := @settles_packCounted dtl code known arrayLength length positive conforming value scalar
    check condition data body empty
    { b.flushed with paddedNext := some (b.cursor + sizeTypeToSize sizeType + u32 (arrayLength * code.size)) }
    ready.padded
  have reserved : reservedBytes code arrayLength true =
      some (sizeTypeToSize sizeType + u32 (arrayLength * code.size)) := if_pos ⟨rfl, positive⟩
  refine ⟨t, (prepares.bind fun _ => packs).iff ?_, ?_⟩
  · simp only [reserved, WriteBuffer.Fits, Option.mem_some_iff, forall_eq', WriteBuffer.flushed, Nat.add_assoc, s]
    tauto
  · rw [buffer, reserved, WriteBuffer.put, Option.map_some, Nat.add_assoc]

end Serializer

/-- The numbers in a value of a number type: a scalar, or an array of a fitting length -/
def LeafNumbers (code : LeafCode) (arrayLength : Nat) (isDynamic : Bool) (value : Dv) (xs : List Int) : Prop :=
  if arrayLength = 0 then ∃ sv x, value = .scalar sv ∧ code.number sv = some x ∧ xs = [x]
  else ∃ av, value = .array av ∧ Serializer.Numbers code av xs ∧
    if isDynamic then av.length ≤ arrayLength else av.length = arrayLength

namespace Serializer

variable {dtl : Dtl} {code : LeafCode}

/-- What the data instruction can rely on behind a check of the same numbers -/
def Checked (slot : ScalarSlot) (code : LeafCode) (arrayLength : Nat) (xs : List Int) : Prop :=
  (∀ x ∈ xs, code.InRange x) ∧ (arrayLength = 0 → ∀ x ∈ xs, slot.Holds code x)

theorem settles_packNumbers (exact_ : dtl.Exact) (isNumber : code.isNumber = true) {arrayLength : Nat}
    {isDynamic : Bool} {value : Dv} {xs : List Int} (numbers : LeafNumbers code arrayLength isDynamic value xs)
    {scalar : ScalarSlot} {check : RangeCheckState}
    (known : check = .notChecked ∨ check = .ok ∧ Checked scalar code arrayLength xs) {b : WriteBuffer}
    (ready : b.Ready) :
    ∃ s, (packOperation dtl (dataInfo code.typeCode arrayLength isDynamic) (inFront value scalar check b)).Settles
      ((∀ x ∈ xs, code.InRange x) ∧ b.Fits (lengthPrefix arrayLength isDynamic xs.length ++ encodeAll code xs)
        (reservedBytes code arrayLength isDynamic)) s ∧
      s.buffer = b.put (lengthPrefix arrayLength isDynamic xs.length ++ encodeAll code xs)
        (reservedBytes code arrayLength isDynamic) := by
  have leaf : Compiler.leafInfo code ≠ none := by
    cases code <;> first | contradiction | exact Option.some_ne_none _
  rcases Nat.eq_zero_or_pos arrayLength with rfl | positive
  · obtain ⟨sv, x, rfl, stands, rfl⟩ := numbers
    have noPrefix : lengthPrefix 0 isDynamic 1 = [] := if_neg (by simp)
    have noReserve : reservedBytes code 0 isDynamic = none := if_neg (by simp)
    have single : encodeAll code [x] = code.encode x := by simp [encodeAll]
    have knownScalar : check = .notChecked ∨ check = .ok ∧ scalar.Holds code x ∧ code.InRange x := by
      refine known.imp_right fun checked => ⟨checked.1, checked.2.2 rfl x ?_, checked.2.1 x ?_⟩
      · exact List.mem_singleton_self x
      · exact List.mem_singleton_self x
    obtain ⟨s, packs, buffer⟩ := settles_packScalar exact_ isNumber stands ready knownScalar isDynamic
    rw [List.length_singleton, noPrefix, noReserve, single, List.nil_append]
    refine ⟨s, packs.iff ?_, buffer⟩
    simp [WriteBuffer.Fits, LeafCode.encode_length]
  · rw [LeafNumbers, if_neg (Nat.ne_of_gt positive)] at numbers
    obtain ⟨av, rfl, stands, length⟩ := numbers
    have same : av.length = xs.length := List.Forall₂.length_eq stands
    have knownArray : Known check code xs := known.imp_right fun checked => ⟨checked.1, checked.2.1⟩
    cases isDynamic with
    | false =>
      have noPrefix : lengthPrefix arrayLength false xs.length = [] := if_neg (by simp)
      have noReserve : reservedBytes code arrayLength false = none := if_neg (by simp)
      rw [noPrefix, noReserve, List.nil_append]
      exact settles_packFixed leaf positive (body_numbers exact_ isNumber stands knownArray scalar fun _ => length) ready
    | true =>
      refine settles_packDynamic leaf positive (same ▸ length) (fun st value => ?_)
        (fun _ => body_numbers exact_ isNumber stands knownArray scalar fun fixed => ?_) (fun none => ?_) ready
      · rw [WriteState.determineArrayLengthFromValue, value, ← same]
      · exact absurd fixed (sizeToSizeType_ne positive)
      · obtain rfl := List.length_eq_zero_iff.mp none
        exact ⟨fun x mem => absurd mem List.not_mem_nil, rfl⟩

theorem settles_checkScalar (exact_ : dtl.Exact) (isNumber : code.isNumber = true) {admits : Int → Prop}
    {test : ScalarWord → Bool}
    (tests : ∀ (slot : ScalarSlot) (x : Int), slot.Holds code x → (test slot.value = true ↔ admits x))
    {s : Serializer} {sv : Sv} {x : Int} (value : s.state.value = .scalar sv) (stands : code.number sv = some x) :
    ∃ slot, (s.checkValueRange dtl code.stored.typeCode test).Settles (code.stored.InRange x ∧ admits x)
      { s with state := { s.state with scalar := slot, rangeCheckState := .ok } } ∧
      (code.stored.InRange x → slot.Holds code x) := by
  obtain ⟨slot, load, holds⟩ := load_stored exact_ isNumber stands s.state.scalar
  have read : (s.state.readScalarValue dtl code.stored.typeCode).Settles (code.stored.InRange x)
      { s.state with scalar := slot } := by
    rw [WriteState.readScalarValue, value]
    exact load.lift fun slot => ({ s.state with scalar := slot } : WriteState)
  refine ⟨slot, ?_, holds⟩
  rw [checkValueRange, value]
  simp only
  by_cases stored : code.stored.InRange x
  · rw [read.ok stored]
    have test_iff := tests slot x (holds stored)
    constructor
    · intro both
      exact if_pos (test_iff.mpr both.2)
    · intro refused
      exact ⟨_, _, if_neg fun passed => refused ⟨stored, test_iff.mp passed⟩⟩
  · obtain ⟨failure, st, failed⟩ := read.fail stored
    rw [failed]
    exact (Result.Settles.never _ _ _).iff (by simp [stored])

theorem settles_limitCheck (exact_ : dtl.Exact) (isInteger : code.isInteger = true) {limits : Limits}
    (fit : limits.Fit code) {arrayLength : Nat} {isDynamic : Bool} {value : Dv} {xs : List Int}
    (numbers : LeafNumbers code arrayLength isDynamic value xs) (b : WriteBuffer) :
    ∃ slot, ((packEngine dtl).exec (limitCheck code limits) (inFront value {} .notChecked b)).Settles
      (∀ x ∈ xs, limits.Admit code x) (inFront value slot .ok b) ∧
      ((∀ x ∈ xs, limits.Admit code x) → Checked slot code arrayLength xs) := by
  have isNumber : code.isNumber = true := by cases code <;> first | contradiction | rfl
  obtain ⟨op, test, checks, executes, tests⟩ := limitCheck_eq isInteger limits
  have inRange {x : Int} (admits : limits.Admit code x) : code.InRange x := admits.inRange isInteger fit
  have run : (packEngine dtl).exec (limitCheck code limits) (inFront value {} .notChecked b) =
      (inFront value {} .notChecked b).checkValueRange dtl code.stored.typeCode test := by
    rw [checks, Engine.exec, executes]
    exact Result.bind_pure _
  rw [run]
  rcases Nat.eq_zero_or_pos arrayLength with rfl | positive
  · obtain ⟨sv, x, rfl, stands, rfl⟩ := numbers
    obtain ⟨slot, load, holds⟩ := load_stored exact_ isNumber stands {}
    obtain ⟨slot, checked, holds⟩ := @settles_checkScalar dtl code exact_ isNumber _ _ tests
      (inFront (.scalar sv) {} .notChecked b) sv x rfl stands
    simp only [List.mem_singleton, forall_eq, Checked]
    refine ⟨slot, checked.iff ⟨And.right, fun admits => ⟨LeafCode.inRange_stored (inRange admits), admits⟩⟩,
      fun admits => ⟨inRange admits, fun _ => holds (LeafCode.inRange_stored (inRange admits))⟩⟩
  · rw [LeafNumbers, if_neg (Nat.ne_of_gt positive)] at numbers
    obtain ⟨av, rfl, stands, length⟩ := numbers
    obtain ⟨slot, checked⟩ := settles_checkElements exact_ isNumber tests stands
      ({ value := .array av, rangeCheckState := .ok } : WriteState)
    refine ⟨slot, ((checked.lift fun st => ({ state := st, buffer := b } : Serializer))).iff ?_, fun admits =>
      ⟨fun x mem => inRange (admits x mem), fun zero => absurd zero (Nat.ne_of_gt positive)⟩⟩
    exact forall₂_congr fun x _ =>
      ⟨And.right, fun admits => ⟨LeafCode.inRange_stored (inRange admits), admits⟩⟩

end Serializer

open Serializer

/-- Packing the numbers of an element: all of them must be accepted, and there must be room for them. -/
theorem settles_packLeaf {dtl : Dtl} (exact_ : dtl.Exact) {code : LeafCode} (isNumber : code.isNumber = true)
    {limits : Option Limits} (limitsOf : LimitsOf code limits) {arrayLength : Nat} {isDynamic : Bool} {value : Dv}
    {xs : List Int} (numbers : LeafNumbers code arrayLength isDynamic value xs) {b : WriteBuffer} (ready : b.Ready) :
    (packLeaf dtl code arrayLength isDynamic limits value b).Settles
      ((∀ x ∈ xs, Accepts code limits x) ∧ b.Fits (lengthPrefix arrayLength isDynamic xs.length ++ encodeAll code xs)
        (reservedBytes code arrayLength isDynamic))
      (b.put (lengthPrefix arrayLength isDynamic xs.length ++ encodeAll code xs)
        (reservedBytes code arrayLength isDynamic)) := by
  have data (scalar : ScalarSlot) (check : RangeCheckState) : (packEngine dtl).exec
      [Operation.data .pack (dataInfo code.typeCode arrayLength isDynamic)] (inFront value scalar check b) =
      packOperation dtl (dataInfo code.typeCode arrayLength isDynamic) (inFront value scalar check b) := by
    rw [Engine.exec]
    exact Result.bind_pure _
  rw [packLeaf]
  cases limits with
  | none =>
    obtain ⟨s, packs, buffer⟩ := @settles_packNumbers dtl code exact_ isNumber arrayLength isDynamic value xs numbers {}
      .notChecked (.inl rfl) b ready
    rw [← data] at packs
    exact buffer ▸ packs.lift Serializer.buffer
  | some limits =>
    obtain ⟨isInteger, fit⟩ := limitsOf limits rfl
    obtain ⟨slot, checks, checked⟩ := @settles_limitCheck dtl code exact_ isInteger limits fit arrayLength isDynamic
      value xs numbers b
    rw [leafOperations, Engine.exec_append]
    show (((packEngine dtl).exec (limitCheck code limits) (inFront value {} .notChecked b)).bind _ |>.lift _).Settles
      ((∀ x ∈ xs, limits.Admit code x) ∧ _) _
    by_cases admits : ∀ x ∈ xs, limits.Admit code x
    · have known := checked admits
      obtain ⟨s, packs, buffer⟩ := @settles_packNumbers dtl code exact_ isNumber arrayLength isDynamic value xs numbers
        slot .ok (.inr ⟨rfl, known⟩) b ready
      rw [checks.ok admits, Result.bind_ok, data]
      exact buffer ▸ (packs.lift Serializer.buffer).iff (and_congr_left fun _ => iff_of_true known.1 admits)
    · obtain ⟨failure, s, failed⟩ := checks.fail admits
      rw [failed]
      exact (Result.Settles.never failure s.buffer _).iff ⟨False.elim, fun both => admits both.1⟩

end Apx
