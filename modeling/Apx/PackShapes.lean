import Apx.PackNumbers

/-! Packing a value of the right shape as an element without children: when it succeeds, and what
it leaves in the buffer. -/

namespace Apx

open LittleEndian Vm

namespace Serializer

variable {dtl : Dtl} {code : LeafCode}

theorem packOperation_number (isNumber : code.isNumber = true) (arrayLength : Nat) (isDynamic : Bool)
    (s : Serializer) :
    packOperation dtl (dataInfo code.typeCode arrayLength isDynamic) s =
      packAs dtl code.typeCode code.size s arrayLength
        (dynamicSizeType (dataInfo code.typeCode arrayLength isDynamic)) := by
  cases code <;> first | contradiction | rfl

/-- A serializer in front of a data instruction: the value may have been checked already. -/
def inFront (value : Dv) (scalar : ScalarSlot) (check : RangeCheckState) (b : WriteBuffer) :
    Serializer :=
  { state := { value := value, scalar := scalar, rangeCheckState := check }, buffer := b }

/-- Packing ends with the state as it is: there is no record around it. -/
theorem settles_finishPack {written : Result Serializer Unit} {condition : Prop} {s : Serializer}
    (settles : written.Settles condition s) (stack : s.stack = []) (idle : s.queuedWriteState = {}) :
    (finishPack true written).Settles condition s := by
  obtain ⟨above, st, b, queue⟩ := s
  obtain rfl : above = [] := stack
  obtain rfl : queue = {} := idle
  unfold finishPack
  refine Result.Settles.iff (Result.Settles.bind settles fun _ => ?_) (and_iff_left trivial)
  exact Result.Settles.done _

/-- A single number. `known` says what a check before has left to do. -/
theorem settles_packScalar (exact_ : dtl.Exact) (isNumber : code.isNumber = true) {sv : Sv} {x : Int}
    (stands : code.number sv = some x) {b : WriteBuffer} (ready : b.Ready) {scalar : ScalarSlot}
    {check : RangeCheckState}
    (known : check = .notChecked ∨ check = .ok ∧ scalar.Holds code x ∧ code.InRange x)
    (isDynamic : Bool) :
    ∃ s, (packOperation dtl (dataInfo code.typeCode 0 isDynamic)
        (inFront (.scalar sv) scalar check b)).Settles
        (code.InRange x ∧ b.cursor + code.size ≤ b.bytes.length) s ∧
      s.buffer = b.flushed.write (code.encode x) := by
  have sizeType : dynamicSizeType (dataInfo code.typeCode 0 isDynamic) = .none := by
    simp [dynamicSizeType, dataInfo]
  rw [packOperation_number isNumber, sizeType, packAs, prepareForBufferWrite_eq]
  have flushed : (inFront (.scalar sv) scalar check b).buffer.flush = .ok () b.flushed :=
    WriteBuffer.flush_ready ready
  rw [flushed]
  let typed : WriteState := { value := .scalar sv, scalar := scalar, rangeCheckState := check,
                              typeCode := code.typeCode, elementSize := code.size }
  have packed : packValue dtl { state := typed, buffer := b.flushed } =
      finishPack true (packScalarValue dtl { state := typed, buffer := b.flushed }) := by
    cases code <;> first | contradiction | rfl
  show ∃ s, (packValue dtl { state := typed, buffer := b.flushed }).Settles _ s ∧ _
  rw [packed]
  obtain ⟨slot, wrote⟩ := @settles_packScalarValue dtl exact_ code isNumber sv x stands
    { state := typed, buffer := b.flushed } rfl rfl rfl known
  exact ⟨_, settles_finishPack wrote rfl rfl, rfl⟩

/-- What serializer_pack_value does behind the length prefix of an array, by its type. -/
def packBody (dtl : Dtl) (code : LeafCode) (s : Serializer) : Result Serializer Unit :=
  match code with
  | .char | .char8 => packString dtl s
  | .byte => packByteArrayInternal s
  | _ => packArrayOfScalar dtl s

theorem packOperation_array (known : Compiler.leafInfo code ≠ none) {arrayLength : Nat}
    (positive : 0 < arrayLength) (isDynamic : Bool) (s : Serializer) :
    packOperation dtl (dataInfo code.typeCode arrayLength isDynamic) s =
      packAs dtl code.typeCode code.size s arrayLength
        (dynamicSizeType (dataInfo code.typeCode arrayLength isDynamic)) := by
  cases code with
  | none | char16 | char32 => exact absurd rfl known
  | byte =>
    show packAs dtl .byte 1 s (if arrayLength = 0 then 1 else arrayLength) _ = _
    rw [if_neg (Nat.ne_of_gt positive)]
    rfl
  | _ => rfl

def arrayOf (code : LeafCode) (value : Dv) (scalar : ScalarSlot) (check : RangeCheckState)
    (arrayLen maxArrayLen : Nat) (sizeType : SizeType) : WriteState :=
  { value := value, scalar := scalar, rangeCheckState := check, typeCode := code.typeCode,
    elementSize := code.size, arrayLen := arrayLen, maxArrayLen := maxArrayLen,
    dynamicSizeType := sizeType }

/-- What the body of an array of `arrayLen` elements writes, wherever that is in the buffer. -/
def Body (dtl : Dtl) (code : LeafCode) (st : WriteState) (condition : Prop) (data : Bytes) : Prop :=
  ∀ b : WriteBuffer, b.next ≤ b.bytes.length → ∃ s,
    (packBody dtl code { state := st, buffer := b }).Settles
      (condition ∧ b.next + data.length ≤ b.bytes.length) s ∧
    s.stack = [] ∧ s.queuedWriteState = {} ∧ s.buffer = b.write data

theorem packValue_body {s : Serializer} (known : Compiler.leafInfo code ≠ none)
    (type : s.state.typeCode = code.typeCode) (idle : s.queuedWriteState = {})
    (nonempty : s.state.arrayLen ≠ 0) :
    packValue dtl s =
      (if s.state.dynamicSizeType ≠ .none then
        s.writeDynamicValueToBuffer s.state.arrayLen (sizeTypeToSize s.state.dynamicSizeType)
      else .ok () s).bind fun _ s => finishPack true (packBody dtl code s) := by
  have body : ∀ s : Serializer, s.state.typeCode = code.typeCode →
      (if s.state.isNumOrBoolType then finishPack true (packArrayOfScalar dtl s)
        else if s.state.isCharType then finishPack true (packString dtl s)
        else if s.state.isBytesType then finishPack true (packByteArrayInternal s)
        else if s.state.isRecordType then finishPack false (packRecordValue s)
        else .fail (.code .notImplemented) s) = finishPack true (packBody dtl code s) := by
    intro s type
    simp only [WriteState.isNumOrBoolType, WriteState.isCharType, WriteState.isBytesType, type]
    cases code <;> first | exact absurd rfl known | rfl
  unfold packValue
  rw [idle]
  simp only [Bool.false_eq_true, false_and, if_false, if_neg nonempty]
  split
  · cases wrote : s.writeDynamicValueToBuffer s.state.arrayLen
      (sizeTypeToSize s.state.dynamicSizeType) with
    | fail failure t => rfl
    | ok _ t =>
      obtain ⟨_, _, state⟩ := (writes_writeDynamicValueToBuffer wrote).2.shape
      exact body t (by rw [state]; exact type)
  · exact body s type

end Serializer

end Apx
