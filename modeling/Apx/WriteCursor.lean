import Apx.CallSequence
import Apx.SerializerFrame

/-! Where the serializer writes, whatever the calls return. All stores but those of a queue are
compared with the end of the buffer. A queue moves the write position behind its length without
a look at that end, and stores the length with an end of its own. -/

namespace Apx

open LittleEndian Vm

theorem length_le_splice (bytes data : Bytes) (offset : Nat) :
    bytes.length ≤ (splice bytes offset data).length := by
  simp only [splice, List.length_append, List.length_take, List.length_drop]
  omega

/-- A store makes a byte string longer exactly if it stores a byte behind its end. -/
theorem splice_length_iff {bytes data : Bytes} {offset : Nat} :
    (splice bytes offset data).length = bytes.length ↔
      data = [] ∨ offset + data.length ≤ bytes.length := by
  rw [← List.length_eq_zero_iff]
  simp only [splice, List.length_append, List.length_take, List.length_drop]
  omega

/-- The buffer has this size and the write position is inside it. -/
structure WriteBuffer.Within (size : Nat) (b : WriteBuffer) : Prop where
  length : b.bytes.length = size
  inside : b.next ≤ size

namespace WriteBuffer

variable {size : Nat} {b : WriteBuffer}

/-- The position may move to any place inside the buffer. -/
theorem Within.to (within : b.Within size) {next : Nat} (padded : Option Nat) (inside : next ≤ size) :
    ({ b with next := next, paddedNext := padded }).Within size :=
  ⟨within.length, inside⟩

theorem Within.store (within : b.Within size) {data : Bytes} {next : Nat}
    (fits : b.next + data.length ≤ b.bytes.length) (inside : next ≤ b.bytes.length) :
    ({ b with bytes := splice b.bytes b.next data, next := next }).Within size :=
  ⟨(splice_length fits).trans within.length, inside.trans_eq within.length⟩

theorem Within.write (within : b.Within size) {data : Bytes}
    (fits : b.next + data.length ≤ b.bytes.length) : (b.write data).Within size :=
  within.store fits fits

end WriteBuffer

namespace Serializer

variable {size : Nat} {s : Serializer}

theorem onState_buffer (s : Serializer) (call : WriteState → Result WriteState Unit) :
    (s.onState call).state.buffer = s.buffer := by
  rw [onState, Result.state_lift]

theorem popState_buffer (s : Serializer) : s.popState.buffer = s.buffer := (popLoop_frame s s.stack).1

theorem prepareForBufferWrite_within (typeCode : TypeCode) (elementSize : Nat)
    (within : s.buffer.Within size) :
    (s.prepareForBufferWrite typeCode elementSize).state.buffer.Within size := by
  unfold prepareForBufferWrite
  split
  · exact within
  · simp only
    split
    · split
      · exact within
      next inside =>
        rw [within.length] at inside
        exact within.to _ (by omega)
    · exact within

theorem prepareForArray_within (dtl : Dtl) (arrayLength : Nat) (dynamicSizeType : SizeType)
    (within : s.buffer.Within size) :
    (s.prepareForArray dtl arrayLength dynamicSizeType).state.buffer.Within size := by
  unfold prepareForArray
  split
  · split
    · apply Result.state_bind (P := fun s : Serializer => s.buffer.Within size)
      · rw [Result.state_lift]
        exact within
      · intro _ s₁ _ within
        split
        · exact within
        · simp only
          split
          · exact within
          · split
            · exact within.to _ within.inside
            · exact within.to _ within.inside
    · exact within
  · exact within

theorem writeDynamicValueToBuffer_within (value valueSize : Nat) (within : s.buffer.Within size) :
    (s.writeDynamicValueToBuffer value valueSize).state.buffer.Within size := by
  unfold writeDynamicValueToBuffer
  split
  · exact within
  split
  · exact within
  split
  next fits => exact within.write (by rwa [packLE_length])
  · exact within

theorem packScalarValueInternal_within (within : s.buffer.Within size) :
    s.packScalarValueInternal.state.buffer.Within size := by
  unfold packScalarValueInternal
  simp only
  split
  next fits =>
    have put (storage : ScalarStorageType) (elementSize value : Nat) :
        (if s.state.scalar.storageType = storage ∧ s.state.elementSize = elementSize then
          .ok () { s with buffer := s.buffer.write (packLE value elementSize) }
        else .fail .assertion s : Result Serializer Unit).state.buffer.Within size := by
      split
      next expected => exact within.write (by rwa [packLE_length, ← expected.2])
      · exact within
    cases s.state.typeCode with
    | uint8 | uint16 | uint32 | uint64 | int8 | int16 | int32 | int64 | bool => exact put _ _ _
    | _ =>
      rw [within.length] at fits
      exact within.to s.buffer.paddedNext fits
  · exact within

/-- The range check that comes before scalars are written -/
theorem checked_within (dtl : Dtl) (within : s.buffer.Within size)
    {write : Serializer → Result Serializer Unit}
    (writes : ∀ s : Serializer, s.buffer.Within size → (write s).state.buffer.Within size) :
    ((match s.state.rangeCheckState with
      | .notChecked => s.onState (WriteState.defaultRangeCheckValue dtl)
      | .fail => .fail (.code .valueRange) s
      | .ok => .ok () s : Result Serializer Unit).bind fun _ s => write s).state.buffer.Within size := by
  apply Result.state_bind (P := fun s : Serializer => s.buffer.Within size)
  · split
    · rw [onState_buffer]
      exact within
    · exact within
    · exact within
  · intro _ s₁ _ within
    exact writes s₁ within

theorem packScalarValue_within (dtl : Dtl) (within : s.buffer.Within size) :
    (s.packScalarValue dtl).state.buffer.Within size := by
  unfold packScalarValue
  split
  · exact checked_within dtl within fun s within => packScalarValueInternal_within within
  · exact within

theorem packElements_within (dtl : Dtl) (av : List Dv) (within : s.buffer.Within size) :
    (s.packElements dtl av).state.buffer.Within size := by
  induction av generalizing s with
  | nil => exact within
  | cons dv rest ih =>
    rw [packElements]
    apply Result.state_bind (P := fun s : Serializer => s.buffer.Within size)
    · rw [onState_buffer]
      exact within
    · intro _ s₁ _ within
      apply Result.state_bind (P := fun s : Serializer => s.buffer.Within size)
      · exact packScalarValueInternal_within within
      · intro _ s₂ _ within
        exact ih within

theorem packArrayOfScalar_within (dtl : Dtl) (within : s.buffer.Within size) :
    (s.packArrayOfScalar dtl).state.buffer.Within size := by
  unfold packArrayOfScalar
  split
  next av _ =>
    split
    · exact within
    · exact checked_within dtl within fun s within => packElements_within dtl av within
  · exact within

theorem packRecordValue_buffer (s : Serializer) : s.packRecordValue.state.buffer = s.buffer := by
  unfold packRecordValue
  apply Result.state_bind (P := fun s' : Serializer => s'.buffer = s.buffer)
  · split
    · split
      · split
        · rfl
        split
        · rfl
        · split <;> rfl
      · rfl
    · rfl
  · intro _ s₁ _ same
    split <;> exact same

theorem packString_within (dtl : Dtl) (within : s.buffer.Within size) :
    (s.packString dtl).state.buffer.Within size := by
  unfold packString
  split
  · split
    simp only
    split
    · exact within
    · generalize u32 (s.state.elementSize * s.state.arrayLen) = target
      split
      next fits =>
        have cleared : ({ s.buffer with
            bytes := splice s.buffer.bytes s.buffer.next (List.replicate target 0) } :
            WriteBuffer).Within size :=
          within.store (by rwa [List.length_replicate]) (by omega)
        have length : (splice s.buffer.bytes s.buffer.next (List.replicate target 0)).length =
            s.buffer.bytes.length := splice_length (by rwa [List.length_replicate])
        split
        · split
          · exact cleared
          next short =>
            apply cleared.store
            · show s.buffer.next + _ ≤ (splice _ _ _).length
              omega
            · show s.buffer.next + target ≤ (splice _ _ _).length
              omega
        · exact cleared
      · exact within
  · exact within

theorem packByteArrayInternal_within (within : s.buffer.Within size) :
    s.packByteArrayInternal.state.buffer.Within size := by
  unfold packByteArrayInternal
  split
  · split
    · exact within
    · split
      next fits =>
        split
        next whole => exact within.write (by rwa [List.length_take_of_le whole])
        · exact within
      · exact within
  · exact within

theorem finishPack_within (doPopState : Bool) {written : Result Serializer Unit}
    (within : written.state.buffer.Within size) :
    (finishPack doPopState written).state.buffer.Within size := by
  apply Result.state_bind (P := fun s : Serializer => s.buffer.Within size) within
  intro _ s₁ _ within
  simp only
  generalize counted : (if s₁.queuedWriteState.isActive then
    { s₁ with queuedWriteState :=
      { s₁.queuedWriteState with currentLength := u32 (s₁.queuedWriteState.currentLength + 1) } }
    else s₁) = s₂
  have same : s₂.buffer = s₁.buffer := by
    subst counted
    split <;> rfl
  rw [Result.state_ok]
  split
  · rw [popState_buffer, same]
    exact within
  · rw [same]
    exact within

theorem packValue_within (dtl : Dtl) (within : s.buffer.Within size) :
    (s.packValue dtl).state.buffer.Within size := by
  have record (s : Serializer) (within : s.buffer.Within size) :
      (finishPack false s.packRecordValue).state.buffer.Within size := by
    apply finishPack_within
    rw [packRecordValue_buffer]
    exact within
  unfold packValue
  split
  · exact within
  · simp only
    split
    · split
      · exact finishPack_within _ (writeDynamicValueToBuffer_within _ _ within)
      split
      · exact finishPack_within _ (packScalarValue_within dtl within)
      split
      · exact record s within
      · exact within
    · apply Result.state_bind (P := fun s : Serializer => s.buffer.Within size)
      · split
        · exact writeDynamicValueToBuffer_within _ _ within
        · exact within
      · intro _ s₁ _ within
        split
        · exact finishPack_within _ (packArrayOfScalar_within dtl within)
        split
        · exact finishPack_within _ (packString_within dtl within)
        split
        · exact finishPack_within _ (packByteArrayInternal_within within)
        split
        · exact record s₁ within
        · exact within

/-- Every pack call stores inside the buffer. -/
theorem packAs_within (dtl : Dtl) (typeCode : TypeCode) (elementSize arrayLength : Nat)
    (dynamicSizeType : SizeType) (within : s.buffer.Within size) :
    (packAs dtl typeCode elementSize s arrayLength dynamicSizeType).state.buffer.Within size := by
  apply Result.state_bind (P := fun s : Serializer => s.buffer.Within size)
  · exact prepareForBufferWrite_within typeCode elementSize within
  · intro _ s₁ _ within
    apply Result.state_bind (P := fun s : Serializer => s.buffer.Within size)
    · exact prepareForArray_within dtl arrayLength dynamicSizeType within
    · intro _ s₂ _ within
      exact packValue_within dtl within

theorem recordSelect_buffer (s : Serializer) (key : Bytes) (isLastField : Bool) :
    (s.recordSelect key isLastField).state.buffer = s.buffer := by
  unfold recordSelect
  split
  · split <;> rfl
  · rfl

theorem arrayNext_buffer (s : Serializer) : s.arrayNext.state.buffer = s.buffer := by
  unfold arrayNext
  split
  · split
    · simp only
      split
      · rfl
      · split
        · split <;> rfl
        · rfl
    · rfl
  · rfl

theorem checkValueRange_buffer (dtl : Dtl) (typeCode : TypeCode) (inRange : ScalarWord → Bool)
    (s : Serializer) : (s.checkValueRange dtl typeCode inRange).state.buffer = s.buffer := by
  unfold checkValueRange
  split
  · split
    · rfl
    · split <;> rfl
  · rw [onState_buffer]
  · rfl

/-- Only a queue that is cleared moves the write position, and it moves it by the size of the
length. -/
theorem queuedWriteBegin_buffer (s : Serializer) (elementSize maxLength : Nat) (clearQueue : Bool) :
    (s.queuedWriteBegin elementSize maxLength clearQueue).state.buffer =
      if clearQueue then
        { s.buffer with next := s.buffer.next + sizeTypeToSize (sizeToSizeType maxLength) }
      else s.buffer := by
  unfold queuedWriteBegin
  cases clearQueue with
  | true => rfl
  | false =>
    simp only [Bool.false_eq_true, if_false]
    split
    · rfl
    next number done =>
      unfold readDynamicValue at done
      split at done
      · split at done <;> contradiction
      · contradiction

/-- A number can be stored by the size type. -/
def Holds (value : Nat) : SizeType → Prop
  | .none => False
  | .uint8 => value ≤ uint8Max
  | .uint16 => value ≤ uint16Max
  | .uint32 => True

/-- A number that is stored with an end of its own is stored if its size type holds it. -/
theorem writeDynamicValue_ok {value : Nat} {sizeType : SizeType} (fits : Holds value sizeType)
    (bytes : Bytes) (begin : Nat) :
    writeDynamicValue bytes begin (begin + sizeTypeToSize sizeType) value (sizeTypeToSize sizeType) =
      .ok () (splice bytes begin (packLE value (sizeTypeToSize sizeType))) := by
  unfold Holds at fits
  cases sizeType with
  | none => contradiction
  | uint8 => simp [writeDynamicValue, sizeTypeToSize, Nat.not_lt.mpr fits]
  | uint16 => simp [writeDynamicValue, sizeTypeToSize, Nat.not_lt.mpr fits]
  | uint32 => simp [writeDynamicValue, sizeTypeToSize]

theorem writeDynamicValue_large {value : Nat} {sizeType : SizeType} (large : ¬Holds value sizeType)
    (bytes : Bytes) (begin : Nat) :
    (writeDynamicValue bytes begin (begin + sizeTypeToSize sizeType) value
      (sizeTypeToSize sizeType)).state = bytes := by
  unfold Holds at large
  cases sizeType with
  | none => simp [writeDynamicValue, sizeTypeToSize]
  | uint8 => simp [writeDynamicValue, sizeTypeToSize, Nat.lt_of_not_le large]
  | uint16 => simp [writeDynamicValue, sizeTypeToSize, Nat.lt_of_not_le large]
  | uint32 => exact absurd trivial large

/-- The end of an open queue stores its length. -/
theorem queuedWriteEnd_ok (isOpen : s.queuedWriteState.isActive = true)
    (fits : Holds s.queuedWriteState.currentLength s.queuedWriteState.sizeType) :
    s.queuedWriteEnd = .ok () { s with
      queuedWriteState := { s.queuedWriteState with isActive := false },
      buffer := { s.buffer with
        bytes := splice s.buffer.bytes s.queuedWriteState.lengthPtr
          (packLE s.queuedWriteState.currentLength (sizeTypeToSize s.queuedWriteState.sizeType)) } } := by
  rw [queuedWriteEnd, if_pos isOpen]
  simp only
  rw [writeDynamicValue_ok fits, Result.lift_ok]

theorem queuedWriteEnd_leaves (idle : ¬(s.queuedWriteState.isActive = true ∧
    Holds s.queuedWriteState.currentLength s.queuedWriteState.sizeType)) :
    s.queuedWriteEnd.state.buffer = s.buffer := by
  unfold queuedWriteEnd
  split
  next isOpen =>
    rw [Result.state_lift]
    simp only
    rw [writeDynamicValue_large fun fits => idle ⟨isOpen, fits⟩]
  · rfl

end Serializer

/-- The calls apx_vm_serializer_pack_uint8 and so on -/
inductive PackCall where
  | uint8 | uint16 | uint32 | uint64 | int8 | int16 | int32 | int64
  | char | char8 | bool | byte | record
  deriving DecidableEq, Repr

def PackCall.run (dtl : Dtl) : PackCall → Serializer → Nat → SizeType → Result Serializer Unit
  | .uint8 => Serializer.packUInt8 dtl
  | .uint16 => Serializer.packUInt16 dtl
  | .uint32 => Serializer.packUInt32 dtl
  | .uint64 => Serializer.packUInt64 dtl
  | .int8 => Serializer.packInt8 dtl
  | .int16 => Serializer.packInt16 dtl
  | .int32 => Serializer.packInt32 dtl
  | .int64 => Serializer.packInt64 dtl
  | .char => Serializer.packChar dtl
  | .char8 => Serializer.packChar8 dtl
  | .bool => Serializer.packBool dtl
  | .byte => Serializer.packByte dtl
  | .record => Serializer.packRecord dtl

theorem PackCall.run_within {size : Nat} {s : Serializer} (dtl : Dtl) (call : PackCall)
    (arrayLength : Nat) (dynamicSizeType : SizeType) (within : s.buffer.Within size) :
    (call.run dtl s arrayLength dynamicSizeType).state.buffer.Within size := by
  cases call <;> exact Serializer.packAs_within dtl _ _ _ dynamicSizeType within

inductive WriteOp where
  | setValue (dv : Dv)
  | pack (call : PackCall) (arrayLength : Nat) (dynamicSizeType : SizeType)
  | recordSelect (key : Bytes) (isLastField : Bool)
  | arrayNext
  | queuedWriteBegin (elementSize maxLength : Nat) (clearQueue : Bool)
  | queuedWriteEnd
  | checkValueRangeInt32 (lower upper : BitVec 32)
  | checkValueRangeUInt32 (lower upper : BitVec 32)
  | checkValueRangeInt64 (lower upper : BitVec 64)
  | checkValueRangeUInt64 (lower upper : BitVec 64)
  deriving Repr

namespace WriteOp

open Serializer CallSequence

variable {size : Nat} {s : Serializer}

/-- The operation, without what it returns besides the error -/
def run (dtl : Dtl) (s : Serializer) : WriteOp → Result Serializer Unit
  | .setValue dv => .ok () (s.setValueDv dv)
  | .pack call arrayLength dynamicSizeType => call.run dtl s arrayLength dynamicSizeType
  | .recordSelect key isLastField => s.recordSelect key isLastField
  | .arrayNext => s.arrayNext.bind fun _ s => .ok () s
  | .queuedWriteBegin elementSize maxLength clearQueue =>
      s.queuedWriteBegin elementSize maxLength clearQueue
  | .queuedWriteEnd => s.queuedWriteEnd
  | .checkValueRangeInt32 lower upper => s.checkValueRangeInt32 dtl lower upper
  | .checkValueRangeUInt32 lower upper => s.checkValueRangeUInt32 dtl lower upper
  | .checkValueRangeInt64 lower upper => s.checkValueRangeInt64 dtl lower upper
  | .checkValueRangeUInt64 lower upper => s.checkValueRangeUInt64 dtl lower upper

/-- The state that an operation leaves, whether or not it failed -/
def next (dtl : Dtl) (s : Serializer) (op : WriteOp) : Serializer := (op.run dtl s).state

/-- A queue is cleared where its length does not fit into the buffer, or a queue is ended whose
length does not fit into it. -/
def Overruns (s : Serializer) : WriteOp → Prop
  | .queuedWriteBegin _ maxLength clearQueue =>
      clearQueue = true ∧
        s.buffer.bytes.length < s.buffer.next + sizeTypeToSize (sizeToSizeType maxLength)
  | .queuedWriteEnd =>
      (s.queuedWriteState.isActive = true ∧
        Holds s.queuedWriteState.currentLength s.queuedWriteState.sizeType) ∧
        s.buffer.bytes.length <
          s.queuedWriteState.lengthPtr + sizeTypeToSize s.queuedWriteState.sizeType
  | _ => False

/-- An operation keeps the buffer and its position exactly if it does not overrun. -/
theorem run_within_iff (dtl : Dtl) (op : WriteOp) (within : s.buffer.Within size) :
    (op.next dtl s).buffer.Within size ↔ ¬op.Overruns s := by
  have kept {b : WriteBuffer} (same : b = s.buffer) : b.Within size ↔ ¬False :=
    iff_of_true (same ▸ within) not_false
  rw [next]
  cases op with
  | setValue dv => exact kept rfl
  | pack call arrayLength dynamicSizeType =>
    exact iff_of_true (call.run_within dtl arrayLength dynamicSizeType within) not_false
  | recordSelect key isLastField => exact kept (recordSelect_buffer s key isLastField)
  | arrayNext =>
    apply kept
    rw [run, Result.state_bind_pure, arrayNext_buffer]
  | queuedWriteBegin elementSize maxLength clearQueue =>
    rw [run, queuedWriteBegin_buffer, Overruns, within.length]
    cases clearQueue with
    | true =>
      simp only [if_true, true_and, Nat.not_lt]
      exact ⟨fun stays => stays.inside, fun fits => within.to s.buffer.paddedNext fits⟩
    | false => exact iff_of_true within (by simp)
  | queuedWriteEnd =>
    rw [run, Overruns]
    by_cases stores : s.queuedWriteState.isActive = true ∧
        Holds s.queuedWriteState.currentLength s.queuedWriteState.sizeType
    · rw [queuedWriteEnd_ok stores.1 stores.2, Result.state_ok]
      have sized : sizeTypeToSize s.queuedWriteState.sizeType ≠ 0 := by
        have held := stores.2
        revert held
        cases s.queuedWriteState.sizeType <;> simp [Holds, sizeTypeToSize]
      have stored := @splice_length_iff s.buffer.bytes
        (packLE s.queuedWriteState.currentLength (sizeTypeToSize s.queuedWriteState.sizeType))
        s.queuedWriteState.lengthPtr
      rw [← List.length_eq_zero_iff, packLE_length] at stored
      simp only [stores, and_self, true_and, Nat.not_lt]
      constructor
      · intro stays
        exact (stored.mp (stays.length.trans within.length.symm)).resolve_left sized
      · intro fits
        exact ⟨(stored.mpr (.inr fits)).trans within.length, within.inside⟩
    · rw [queuedWriteEnd_leaves stores]
      exact iff_of_true within fun overruns => stores overruns.1
  | checkValueRangeInt32 lower upper =>
    apply kept
    rw [run, Serializer.checkValueRangeInt32, checkValueRange_buffer]
  | checkValueRangeUInt32 lower upper =>
    apply kept
    rw [run, Serializer.checkValueRangeUInt32, checkValueRange_buffer]
  | checkValueRangeInt64 lower upper =>
    apply kept
    rw [run, Serializer.checkValueRangeInt64, checkValueRange_buffer]
  | checkValueRangeUInt64 lower upper =>
    apply kept
    rw [run, Serializer.checkValueRangeUInt64, checkValueRange_buffer]

/-- Stores stay inside the buffer and the position inside its end until an operation overruns. -/
theorem always_within_iff (dtl : Dtl) (ops : List WriteOp) (within : s.buffer.Within size) :
    Always (next dtl) (fun s op => (next dtl s op).buffer.Within size) s ops ↔
      Always (next dtl) (fun s op => ¬op.Overruns s) s ops :=
  always_iff (fun s : Serializer => s.buffer.Within size)
    (fun _ op within => run_within_iff dtl op within) within

/-- A buffer is set while no queue is open. -/
def Starts (data : Bytes) (s : Serializer) : Prop :=
  ∃ s₀ : Serializer, s₀.queuedWriteState.isActive = false ∧ s₀.setWriteBuffer data = .ok () s

/-- The operation stores no byte outside the buffer, so that the buffer keeps its length, and if it
returns no error it leaves the write position inside the buffer. -/
def WritesInside (dtl : Dtl) (data : Bytes) (s : Serializer) (op : WriteOp) : Prop :=
  (op.run dtl s).state.buffer.bytes.length = data.length ∧
    ∀ s', op.run dtl s = .ok () s' → s'.bytesWritten ≤ data.length

/-- Writing stays inside the buffer in every sequence of operations in which none overruns. -/
theorem writesInside_of_calm {s : Serializer} {data : Bytes} (start : Starts data s) (dtl : Dtl)
    (ops : List WriteOp) (calm : Always (next dtl) (fun s op => ¬op.Overruns s) s ops) :
    Always (next dtl) (WritesInside dtl data) s ops := by
  have within : s.buffer.Within data.length := by
    obtain ⟨s₀, _, set⟩ := start
    unfold Serializer.setWriteBuffer at set
    split at set
    · cases set
      exact ⟨rfl, Nat.zero_le _⟩
    · contradiction
  have keeps (s : Serializer) (op : WriteOp) (within : s.buffer.Within data.length)
      (calm : ¬op.Overruns s) : (next dtl s op).buffer.Within data.length :=
    (run_within_iff dtl op within).mpr calm
  refine Always.of_invariant (fun s : Serializer => s.buffer.Within data.length) keeps ?_ within calm
  intro s op within calm
  have stays := keeps s op within calm
  refine ⟨stays.length, ?_⟩
  intro s₁ done
  rw [next, done] at stays
  exact stays.inside

/-- A queue of two numbers, in a buffer that they fill. -/
theorem writesInside_queue :
    Always (next Dtl.numeric) (WritesInside Dtl.numeric [0, 0, 0])
      { Serializer.create with buffer := { bytes := [0, 0, 0] } }
      [.queuedWriteBegin 1 5 true, .setValue (.scalar (.u32 7)), .pack .uint8 0 .none,
        .setValue (.scalar (.u32 8)), .pack .uint8 0 .none, .queuedWriteEnd] := by
  apply writesInside_of_calm ⟨Serializer.create, rfl, rfl⟩
  refine ⟨?_, not_false, not_false, not_false, not_false, ?_, trivial⟩
  · rintro ⟨_, overrun⟩
    exact absurd overrun (by decide)
  · rintro ⟨_, overrun⟩
    exact absurd overrun (by decide)

/-- In a buffer of one byte a queue is cleared whose length takes two. -/
theorem queuedWriteBegin_leaves_buffer :
    ∃ s, Starts [0] s ∧
      ¬Always (next Dtl.numeric) (WritesInside Dtl.numeric [0]) s [.queuedWriteBegin 1 300 true] := by
  refine ⟨_, ⟨Serializer.create, rfl, rfl⟩, ?_⟩
  rintro ⟨⟨_, inside⟩, _⟩
  have beyond := inside _ rfl
  exact absurd beyond (by decide)

end WriteOp

end Apx
