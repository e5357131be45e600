import Apx.CallSequence
import Apx.CheckedReads
import Apx.DeserializerProgress

/-! Where the read position goes, whatever the calls return. It stays inside the buffer as long
as no string of fixed length is cut off by the end of the buffer and holds a zero: from the zero
the position jumps to where the whole string would end. -/

namespace Apx

open LittleEndian Vm

/-- A call on a buffer of these bytes has moved the read position, and beyond the end of the
buffer exactly if it jumped. -/
structure ReadBuffer.Moved (bytes : Bytes) (jumped : Prop) (b : ReadBuffer) : Prop where
  same : b.bytes = bytes
  inside : b.next ≤ bytes.length ↔ ¬jumped

/-- The read position is inside the buffer of these bytes. -/
abbrev ReadBuffer.Within (bytes : Bytes) (b : ReadBuffer) : Prop := b.Moved bytes False

namespace ReadBuffer

variable {bytes : Bytes} {b : ReadBuffer}

theorem Within.le (within : b.Within bytes) : b.next ≤ bytes.length := Moved.inside within |>.mpr not_false

theorem within_of_le (same : b.bytes = bytes) (inside : b.next ≤ bytes.length) : b.Within bytes :=
  ⟨same, iff_of_true inside not_false⟩

theorem Moved.iff {jumped jumped' : Prop} (moved : b.Moved bytes jumped) (same : jumped ↔ jumped') :
    b.Moved bytes jumped' :=
  ⟨moved.same, moved.inside.trans (not_congr same)⟩

/-- The position may move to any place inside the buffer. -/
theorem Within.to (within : b.Within bytes) {next : Nat} (padded : Option Nat)
    (inside : next ≤ bytes.length) : ({ b with next := next, paddedNext := padded }).Within bytes :=
  within_of_le within.same inside

end ReadBuffer

/-- The number of a length is read inside the buffer. -/
theorem Vm.parseUInt32BySizeType_le {bytes : Bytes} {begin next : Nat} {sizeType : SizeType}
    {value : BitVec 32} (parsed : parseUInt32BySizeType bytes begin sizeType = some (value, next)) :
    next ≤ bytes.length := by
  unfold parseUInt32BySizeType at parsed
  split at parsed
  · contradiction
  · unfold parseUInt32ByVariant at parsed
    simp only at parsed
    split at parsed
    · contradiction
    · cases parsed
      omega

def TypeCode.IsChar (typeCode : TypeCode) : Prop :=
  typeCode = .char ∨ typeCode = .char8 ∨ typeCode = .char16 ∨ typeCode = .char32

namespace ReadState

theorem isCharType_iff (st : ReadState) : st.isCharType ↔ st.typeCode.IsChar := by
  unfold isCharType TypeCode.IsChar
  cases st.typeCode <;> simp

variable {bytes : Bytes} {b : ReadBuffer}

theorem readScalarValue_within (st : ReadState) (within : b.Within bytes) :
    (st.readScalarValue b).state.2.Within bytes := by
  have same := within.same
  have inside := within.le
  unfold readScalarValue
  split
  · exact within
  split
  · exact within
  next fits =>
    rw [same] at fits
    split
    · exact within.to b.paddedNext (by omega)
    · exact within

theorem determineArrayLength_within (st : ReadState) (within : b.Within bytes) :
    (st.determineArrayLengthFromReadBuffer b).state.2.Within bytes := by
  unfold determineArrayLengthFromReadBuffer
  split
  · exact within
  split
  next number next parsed =>
    have inside := parseUInt32BySizeType_le parsed
    rw [within.same] at inside
    exact within.to _ inside
  · exact within

end ReadState

namespace Deserializer

variable {bytes : Bytes} {d : Deserializer}

/-- A value that was read is handed to its parent, and the position stays where it is. -/
theorem popState_moved {jumped : Prop} {read : Result Deserializer Unit}
    (moved : read.state.buffer.Moved bytes jumped) :
    (read.bind fun _ d => d.popState).state.buffer.Moved bytes jumped := by
  apply Result.state_bind (P := fun d : Deserializer => d.buffer.Moved bytes jumped) moved
  intro _ d _ moved
  rw [popState, popLoop_state_buffer]
  exact moved

theorem prepareForBufferRead_within (typeCode : TypeCode) (elementSize : Nat)
    (within : d.buffer.Within bytes) :
    (d.prepareForBufferRead typeCode elementSize).state.buffer.Within bytes := by
  unfold prepareForBufferRead
  split
  · exact within
  · simp only
    split
    next padded _ =>
      split
      · exact within
      next inside =>
        rw [within.same] at inside
        exact within.to _ (by omega)
    · exact within

theorem prepareForArray_within (arrayLength : Nat) (dynamicSizeType : SizeType)
    (within : d.buffer.Within bytes) :
    (d.prepareForArray arrayLength dynamicSizeType).state.buffer.Within bytes := by
  unfold prepareForArray
  split
  · split
    · apply Result.state_bind (P := fun d : Deserializer => d.buffer.Within bytes)
      · rw [Result.state_lift]
        exact ReadState.determineArrayLength_within _ within
      · intro _ d₁ _ within
        split
        · exact within
        split
        · exact within
        · exact within.to _ within.le
    · exact within
  · exact within

theorem unpackScalarValue_within (within : d.buffer.Within bytes) :
    d.unpackScalarValue.state.buffer.Within bytes := by
  unfold unpackScalarValue
  apply Result.state_bind (P := fun d : Deserializer => d.buffer.Within bytes)
  · rw [Result.state_lift]
    exact ReadState.readScalarValue_within _ within
  · intro _ d₁ _ within
    rw [Result.state_lift]
    exact within

theorem unpackElements_within (child : ReadState) (av : List Dv) (count : Nat)
    (within : d.buffer.Within bytes) :
    (d.unpackElements child av count).state.buffer.Within bytes := by
  induction count generalizing d child av with
  | zero => exact within
  | succ count ih =>
    have read := ReadState.readScalarValue_within child within
    rw [unpackElements]
    split
    next failed =>
      rw [failed] at read
      exact read
    next done =>
      rw [done] at read
      split
      · exact read
      · exact ih _ _ read

/-- Without a zero to jump from, the loop of a string stops inside the buffer. -/
theorem unpackCharacters_le {isDynamic : Bool} {next count : Nat} (adjusted : Nat) (text : Bytes)
    (inside : next ≤ bytes.length) (calm : isDynamic = false → 0 ∉ (bytes.drop next).take count) :
    (unpackCharacters bytes isDynamic adjusted next text count).state ≤ bytes.length := by
  induction count generalizing next text with
  | zero => exact inside
  | succ count ih =>
    rw [unpackCharacters]
    split
    · exact inside
    next c here =>
      obtain ⟨further, rfl⟩ := List.getElem?_eq_some_iff.mp here
      rw [List.drop_eq_getElem_cons further, List.take_succ_cons] at calm
      split
      next zero => exact absurd (zero.2 ▸ List.mem_cons_self) (calm zero.1)
      · exact ih _ further fun fixed mem => calm fixed (List.mem_cons_of_mem _ mem)

/-- From the first zero of a string that is not dynamic the loop jumps. -/
theorem unpackCharacters_jumps {adjusted next count : Nat} (text : Bytes)
    (zero : 0 ∈ (bytes.drop next).take count) :
    (unpackCharacters bytes false adjusted next text count).state = adjusted := by
  induction count generalizing next text with
  | zero => simp at zero
  | succ count ih =>
    rw [unpackCharacters]
    split
    next absent =>
      rw [List.drop_eq_nil_of_le (List.getElem?_eq_none_iff.mp absent)] at zero
      simp at zero
    next c here =>
      obtain ⟨further, rfl⟩ := List.getElem?_eq_some_iff.mp here
      rw [List.drop_eq_getElem_cons further, List.take_succ_cons] at zero
      split
      · rfl
      next other =>
        rcases List.mem_cons.mp zero with same | later
        · exact absurd ⟨rfl, same.symm⟩ other
        · exact ih _ later

/-- A string of fixed length is cut off by the end of the buffer and holds a zero. -/
def CutOff (bytes : Bytes) (next arrayLen : Nat) : Prop :=
  bytes.length < next + arrayLen ∧ 0 ∈ bytes.drop next

theorem unpackString_moved (within : d.buffer.Within bytes) :
    d.unpackString.state.buffer.Moved bytes
      (d.state.dynamicSizeType = .none ∧ CutOff bytes d.buffer.next d.state.arrayLen) := by
  have same := within.same
  have inside := within.le
  have position : d.unpackString.state.buffer = { d.buffer with next :=
      (unpackCharacters bytes (d.state.dynamicSizeType ≠ .none)
        (d.buffer.next + d.state.arrayLen) d.buffer.next [] d.state.arrayLen).state } := by
    unfold unpackString
    simp only [same]
    split
    next stopped => rw [stopped]; rfl
    next stopped => rw [stopped]; rfl
  rw [position]
  by_cases zero : d.state.dynamicSizeType = .none ∧
      0 ∈ (bytes.drop d.buffer.next).take d.state.arrayLen
  · have fixed : decide (d.state.dynamicSizeType ≠ .none) = false := decide_eq_false fun other => other zero.1
    rw [fixed, unpackCharacters_jumps [] zero.2]
    refine ⟨same, ?_⟩
    have mem : 0 ∈ bytes.drop d.buffer.next := List.mem_of_mem_take zero.2
    simp only [zero.1, true_and, CutOff, mem, and_true, Nat.not_lt]
  · have calm : decide (d.state.dynamicSizeType ≠ .none) = false →
        0 ∉ (bytes.drop d.buffer.next).take d.state.arrayLen :=
      fun fixed mem => zero ⟨by simpa using fixed, mem⟩
    have stops := unpackCharacters_le (d.buffer.next + d.state.arrayLen) [] inside calm
    refine ⟨same, iff_of_true stops ?_⟩
    rintro ⟨fixed, cut, mem⟩
    apply zero
    refine ⟨fixed, ?_⟩
    rwa [List.take_of_length_le]
    rw [List.length_drop]
    omega

theorem unpackByteArrayInternal_within (within : d.buffer.Within bytes) :
    d.unpackByteArrayInternal.state.buffer.Within bytes := by
  unfold unpackByteArrayInternal
  simp only
  split
  next inside =>
    rw [within.same] at inside
    exact within.to _ inside
  · exact within

theorem unpackRecordValue_buffer (d : Deserializer) : d.unpackRecordValue.buffer = d.buffer := by
  unfold unpackRecordValue
  split <;> rfl

/-- A queue that is read has no element left. -/
def Exhausted (d : Deserializer) : Prop :=
  d.queuedReadState.isActive ∧ d.queuedReadState.index ≥ d.queuedReadState.currentLength

theorem unpackPrepared_moved (within : d.buffer.Within bytes) :
    d.unpackPrepared.state.buffer.Moved bytes
      (¬d.Exhausted ∧ d.state.arrayLen ≠ 0 ∧ d.state.isCharType ∧
        d.state.dynamicSizeType = .none ∧ CutOff bytes d.buffer.next d.state.arrayLen) := by
  have stays {r : Result Deserializer Unit} {jumped : Prop} (moved : r.state.buffer.Within bytes)
      (never : ¬jumped) : r.state.buffer.Moved bytes jumped :=
    moved.iff (iff_of_false not_false never)
  have record : (Result.ok () d.unpackRecordValue).state.buffer.Within bytes := by
    rw [Result.state_ok, unpackRecordValue_buffer]
    exact within
  unfold unpackPrepared
  split
  next exhausted => exact stays within fun jump => jump.1 exhausted
  next ready =>
    split
    next scalar =>
      have never (rest : Prop) : ¬(¬d.Exhausted ∧ d.state.arrayLen ≠ 0 ∧ rest) :=
        fun jump => jump.2.1 scalar
      split
      · exact stays within (never _)
      split
      · exact stays (popState_moved (unpackScalarValue_within within)) (never _)
      split
      · exact stays record (never _)
      · exact stays within (never _)
    next array =>
      split
      next number =>
        apply stays (popState_moved (unpackElements_within _ _ _ within))
        rintro ⟨_, _, char, _⟩
        revert number char
        unfold ReadState.isNumOrBoolType ReadState.isCharType
        cases d.state.typeCode <;> simp [array]
      next number =>
        split
        next char =>
          apply (popState_moved (unpackString_moved within)).iff
          exact ⟨fun jump => ⟨ready, array, char, jump⟩, fun jump => jump.2.2.2⟩
        next char =>
          have never (rest : Prop) :
              ¬(¬d.Exhausted ∧ d.state.arrayLen ≠ 0 ∧ d.state.isCharType ∧ rest) :=
            fun jump => char jump.2.2.1
          split
          · exact stays (popState_moved (unpackByteArrayInternal_within within)) (never _)
          split
          · exact stays record (never _)
          · exact stays within (never _)

theorem prepareForArray_dynamic {d d' : Deserializer} {arrayLength : Nat} {dynamicSizeType : SizeType}
    (nonempty : arrayLength ≠ 0) (dynamic : dynamicSizeType ≠ .none)
    (done : d.prepareForArray arrayLength dynamicSizeType = .ok () d') :
    d'.state.dynamicSizeType = dynamicSizeType := by
  rw [prepareForArray, if_pos (Nat.pos_of_ne_zero nonempty), if_pos dynamic] at done
  obtain ⟨_, d₁, lifted, done⟩ := Result.bind_eq_ok.mp done
  obtain ⟨⟨st, b⟩, determined, rfl⟩ := Result.lift_eq_ok.mp lifted
  have kept : st.dynamicSizeType = dynamicSizeType := by
    unfold ReadState.determineArrayLengthFromReadBuffer at determined
    split at determined
    · contradiction
    split at determined
    · cases determined
      rfl
    · contradiction
  simp only at done
  split at done
  · contradiction
  split at done
  · contradiction
  · cases done
    exact kept

/-- Where preparing a read fails, nothing that could be cut off is left in the buffer. -/
theorem prepareForBufferRead_moved (typeCode : TypeCode) (elementSize arrayLength : Nat)
    (within : d.buffer.Within bytes) {next : Unit → Deserializer → Result Deserializer Unit}
    {rest : Prop}
    (goes : ∀ d', d'.buffer.Within bytes → d'.buffer.next = d.cursor →
      d'.queuedReadState = d.queuedReadState →
      d'.state = d.state.reset.setTypeAndSize typeCode elementSize →
      (next () d').state.buffer.Moved bytes (rest ∧ CutOff bytes d.cursor arrayLength)) :
    ((d.prepareForBufferRead typeCode elementSize).bind next).state.buffer.Moved bytes
      (rest ∧ CutOff bytes d.cursor arrayLength) := by
  have prepared := prepareForBufferRead_within typeCode elementSize within
  cases result : d.prepareForBufferRead typeCode elementSize with
  | ok _ d' =>
    rw [result] at prepared
    obtain ⟨_, rfl⟩ := prepareForBufferRead_ok result
    exact goes _ prepared rfl rfl rfl
  | fail failure d' =>
    rw [result] at prepared
    refine prepared.iff (iff_of_false not_false ?_)
    rintro ⟨_, _, mem⟩
    have further : d.cursor < bytes.length := by
      by_contra beyond
      rw [List.drop_eq_nil_of_le (by omega)] at mem
      exact List.not_mem_nil mem
    have valid : d.buffer.isValid = true := by
      have inside := within.le
      simp only [ReadBuffer.isValid, within.same, Bool.and_eq_true, decide_eq_true_eq]
      omega
    unfold prepareForBufferRead at result
    rw [if_neg (by simp [valid])] at result
    simp only at result
    split at result
    next padded same =>
      rw [cursor, same, Option.getD_some] at further
      rw [within.same, if_neg (by omega)] at result
      contradiction
    · contradiction

theorem unpackAs_moved (typeCode : TypeCode) (elementSize arrayLength : Nat)
    (dynamicSizeType : SizeType) (within : d.buffer.Within bytes) :
    (unpackAs typeCode elementSize d arrayLength dynamicSizeType).state.buffer.Moved bytes
      ((typeCode.IsChar ∧ arrayLength ≠ 0 ∧
        dynamicSizeType = .none ∧ ¬d.Exhausted) ∧ CutOff bytes d.cursor arrayLength) := by
  apply prepareForBufferRead_moved typeCode elementSize arrayLength within
  intro d' within' next queue state
  have typed : d'.state.typeCode = typeCode := by
    rw [state]
    rfl
  have exhausted : d'.Exhausted ↔ d.Exhausted := by rw [Exhausted, Exhausted, queue]
  unfold unpackValue
  by_cases empty : arrayLength = 0
  · have prepared : d'.prepareForArray arrayLength dynamicSizeType = .ok () d' := by
      rw [prepareForArray, if_neg (by omega)]
    rw [prepared]
    apply (unpackPrepared_moved within').iff
    have none : d'.state.arrayLen = 0 := by rw [state]; rfl
    exact iff_of_false (fun jump => jump.2.1 none) fun jump => jump.1.2.1 empty
  · by_cases fixed : dynamicSizeType = .none
    · obtain ⟨d₁, prepared, same⟩ : ∃ d₁, d'.prepareForArray arrayLength dynamicSizeType = .ok () d₁ ∧
          d₁ = { d' with state := { d'.state with arrayLen := arrayLength } } := by
        refine ⟨_, ?_, rfl⟩
        rw [prepareForArray, if_pos (Nat.pos_of_ne_zero empty), if_neg (not_not_intro fixed)]
      have within₁ : d₁.buffer.Within bytes := by rw [same]; exact within'
      have next₁ : d₁.buffer.next = d.cursor := by rw [same]; exact next
      have length : d₁.state.arrayLen = arrayLength := by rw [same]
      have typed₁ : d₁.state.typeCode = typeCode := by rw [same]; exact typed
      have none : d₁.state.dynamicSizeType = .none := by rw [same, state]; rfl
      have exhausted₁ : d₁.Exhausted ↔ d.Exhausted := by rw [same]; exact exhausted
      rw [prepared]
      apply (unpackPrepared_moved within₁).iff
      rw [exhausted₁, next₁, length, none, ReadState.isCharType_iff, typed₁]
      tauto
    · have prepared := prepareForArray_within arrayLength dynamicSizeType within'
      cases result : d'.prepareForArray arrayLength dynamicSizeType with
      | fail failure d₁ =>
        rw [result] at prepared
        exact prepared.iff (iff_of_false not_false fun jump => fixed jump.1.2.2.1)
      | ok _ d₁ =>
        rw [result] at prepared
        apply (unpackPrepared_moved prepared).iff
        have dynamic := prepareForArray_dynamic empty fixed result
        exact iff_of_false (fun jump => fixed (dynamic ▸ jump.2.2.2.1))
          fun jump => fixed jump.1.2.2.1

theorem queuedReadBegin_within (elementSize maxLength : Nat) (within : d.buffer.Within bytes) :
    (d.queuedReadBegin elementSize maxLength).state.buffer.Within bytes := by
  unfold queuedReadBegin
  split
  · simp only
    split
    next number next parsed =>
      have inside := parseUInt32BySizeType_le parsed
      rw [within.same] at inside
      exact within.to _ inside
    · split <;> exact within
  · exact within

theorem queuedReadNext_buffer (d : Deserializer) : d.queuedReadNext.state.buffer = d.buffer := by
  unfold queuedReadNext
  split
  · simp only
    split <;> rfl
  · rfl

theorem recordSelect_buffer (d : Deserializer) (key : Bytes) (isLastField : Bool) :
    (d.recordSelect key isLastField).state.buffer = d.buffer := by
  unfold recordSelect
  split <;> rfl

theorem arrayNext_buffer (d : Deserializer) : d.arrayNext.state.buffer = d.buffer := by
  unfold arrayNext
  split
  · split
    · simp only
      split
      · rfl
      · split <;> rfl
    · rfl
  · rfl

theorem checkValueRange_buffer (dtl : Dtl) (scalarCode elementCode : TypeCode)
    (inRange : ScalarWord → Bool) (d : Deserializer) :
    (checkValueRange dtl scalarCode elementCode inRange d).state.buffer = d.buffer := by
  unfold checkValueRange
  split
  · split
    · rfl
    · split <;> rfl
  · rw [Result.state_lift]
  · rfl

end Deserializer

/-- The calls apx_vm_deserializer_unpack_uint8 and so on -/
inductive UnpackCall where
  | uint8 | uint16 | uint32 | uint64 | int8 | int16 | int32 | int64
  | char | char8 | bool | byte | record
  deriving DecidableEq, Repr

namespace UnpackCall

def run : UnpackCall → Deserializer → Nat → SizeType → Result Deserializer Unit
  | .uint8 => Deserializer.unpackUInt8
  | .uint16 => Deserializer.unpackUInt16
  | .uint32 => Deserializer.unpackUInt32
  | .uint64 => Deserializer.unpackUInt64
  | .int8 => Deserializer.unpackInt8
  | .int16 => Deserializer.unpackInt16
  | .int32 => Deserializer.unpackInt32
  | .int64 => Deserializer.unpackInt64
  | .char => Deserializer.unpackChar
  | .char8 => Deserializer.unpackChar8
  | .bool => Deserializer.unpackBool
  | .byte => Deserializer.unpackByte
  | .record => Deserializer.unpackRecord

def typeCode : UnpackCall → TypeCode
  | .uint8 => .uint8
  | .uint16 => .uint16
  | .uint32 => .uint32
  | .uint64 => .uint64
  | .int8 => .int8
  | .int16 => .int16
  | .int32 => .int32
  | .int64 => .int64
  | .char | .char8 => .char
  | .bool => .bool
  | .byte => .byte
  | .record => .record

def elementSize : UnpackCall → Nat
  | .uint8 | .int8 | .char | .char8 | .bool | .byte => 1
  | .uint16 | .int16 => 2
  | .uint32 | .int32 => 4
  | .uint64 | .int64 => 8
  | .record => 0

theorem run_eq (call : UnpackCall) :
    call.run = Deserializer.unpackAs call.typeCode call.elementSize := by
  cases call <;> rfl

theorem isChar_iff (call : UnpackCall) : call.typeCode.IsChar ↔ call = .char ∨ call = .char8 := by
  cases call <;> simp [typeCode, TypeCode.IsChar]

end UnpackCall

inductive ReadOp where
  | unpack (call : UnpackCall) (arrayLength : Nat) (dynamicSizeType : SizeType)
  | recordSelect (key : Bytes) (isLastField : Bool)
  | arrayNext
  | queuedReadBegin (elementSize maxLength : Nat)
  | queuedReadNext
  | checkValueRangeInt32 (lower upper : BitVec 32)
  | checkValueRangeUInt32 (lower upper : BitVec 32)
  | checkValueRangeInt64 (lower upper : BitVec 64)
  | checkValueRangeUInt64 (lower upper : BitVec 64)
  deriving DecidableEq, Repr

namespace ReadOp

open Deserializer CallSequence

variable {bytes : Bytes} {d : Deserializer}

/-- The operation, without what it returns besides the error -/
def run (dtl : Dtl) (d : Deserializer) : ReadOp → Result Deserializer Unit
  | .unpack call arrayLength dynamicSizeType => call.run d arrayLength dynamicSizeType
  | .recordSelect key isLastField => d.recordSelect key isLastField
  | .arrayNext => d.arrayNext.bind fun _ d => .ok () d
  | .queuedReadBegin elementSize maxLength => d.queuedReadBegin elementSize maxLength
  | .queuedReadNext => d.queuedReadNext.bind fun _ d => .ok () d
  | .checkValueRangeInt32 lower upper => d.checkValueRangeInt32 dtl lower upper
  | .checkValueRangeUInt32 lower upper => d.checkValueRangeUInt32 dtl lower upper
  | .checkValueRangeInt64 lower upper => d.checkValueRangeInt64 dtl lower upper
  | .checkValueRangeUInt64 lower upper => d.checkValueRangeUInt64 dtl lower upper

/-- The operation on memory where a load outside the buffer faults. The operations that do not
unpack or begin a queue do not look at the buffer. -/
def checked (dtl : Dtl) (d : Deserializer) : ReadOp → Option (Result Deserializer Unit)
  | .unpack call arrayLength dynamicSizeType =>
      Checked.unpackAs call.typeCode call.elementSize d arrayLength dynamicSizeType
  | .queuedReadBegin elementSize maxLength => Checked.queuedReadBegin d elementSize maxLength
  | op => some (op.run dtl d)

/-- No operation loads a byte from outside the buffer, in whatever state it is called. -/
theorem checked_eq (dtl : Dtl) (d : Deserializer) (op : ReadOp) :
    op.checked dtl d = some (op.run dtl d) := by
  cases op with
  | unpack call arrayLength dynamicSizeType =>
    rw [checked, run, call.run_eq]
    exact Checked.unpackAs_eq _ _ d arrayLength dynamicSizeType
  | queuedReadBegin elementSize maxLength => exact Checked.queuedReadBegin_eq d elementSize maxLength
  | _ => rfl

/-- The operation unpacks a string of fixed length that is cut off and holds a zero. -/
def Jumps (d : Deserializer) : ReadOp → Prop
  | .unpack call arrayLength dynamicSizeType =>
      ((call = .char ∨ call = .char8) ∧ arrayLength ≠ 0 ∧ dynamicSizeType = .none ∧ ¬d.Exhausted) ∧
        CutOff d.buffer.bytes d.cursor arrayLength
  | _ => False

theorem run_moved (dtl : Dtl) (op : ReadOp) (within : d.buffer.Within bytes) :
    (op.run dtl d).state.buffer.Moved bytes (op.Jumps d) := by
  cases op with
  | unpack call arrayLength dynamicSizeType =>
    rw [run, call.run_eq]
    apply (unpackAs_moved _ _ arrayLength dynamicSizeType within).iff
    rw [Jumps, call.isChar_iff, within.same]
  | recordSelect key isLastField =>
    rw [run, recordSelect_buffer]
    exact within
  | arrayNext =>
    rw [run, Result.state_bind_pure, arrayNext_buffer]
    exact within
  | queuedReadBegin elementSize maxLength => exact queuedReadBegin_within elementSize maxLength within
  | queuedReadNext =>
    rw [run, Result.state_bind_pure, queuedReadNext_buffer]
    exact within
  | checkValueRangeInt32 lower upper =>
    rw [run, Deserializer.checkValueRangeInt32, checkValueRange_buffer]
    exact within
  | checkValueRangeUInt32 lower upper =>
    rw [run, Deserializer.checkValueRangeUInt32, checkValueRange_buffer]
    exact within
  | checkValueRangeInt64 lower upper =>
    rw [run, Deserializer.checkValueRangeInt64, checkValueRange_buffer]
    exact within
  | checkValueRangeUInt64 lower upper =>
    rw [run, Deserializer.checkValueRangeUInt64, checkValueRange_buffer]
    exact within

/-- The state that an operation leaves, whether or not it failed -/
def next (dtl : Dtl) (d : Deserializer) (op : ReadOp) : Deserializer := (op.run dtl d).state

/-- The read position stays inside the buffer until an operation jumps, which takes it out. -/
theorem always_within_iff (dtl : Dtl) (ops : List ReadOp) (within : d.buffer.Within bytes) :
    Always (next dtl) (fun d op => (next dtl d op).buffer.Within bytes) d ops ↔
      Always (next dtl) (fun d op => ¬op.Jumps d) d ops := by
  refine always_iff (fun d : Deserializer => d.buffer.Within bytes) ?_ within
  intro d op within
  have moved := run_moved dtl op within
  exact ⟨fun stays => moved.inside.mp (ReadBuffer.Within.le stays),
    fun calm => moved.iff (iff_of_false calm not_false)⟩

/-- The operation touches no byte outside the buffer, and if it returns no error it leaves the
read position inside the buffer. -/
def ReadsInside (dtl : Dtl) (bytes : Bytes) (d : Deserializer) (op : ReadOp) : Prop :=
  op.checked dtl d = some (op.run dtl d) ∧
    ∀ d', op.run dtl d = .ok () d' → d'.buffer.bytes = bytes ∧ d'.bytesRead ≤ bytes.length

/-- Reading stays inside the buffer in every sequence of operations in which none jumps. -/
theorem readsInside_of_calm {d d' : Deserializer} {data : Bytes}
    (set : d.setReadBuffer data = .ok () d') (dtl : Dtl) (ops : List ReadOp)
    (calm : Always (next dtl) (fun d op => ¬op.Jumps d) d' ops) :
    Always (next dtl) (ReadsInside dtl data) d' ops := by
  have start : d'.buffer.Within data := by
    unfold setReadBuffer at set
    split at set
    · cases set
      exact ReadBuffer.within_of_le rfl (Nat.zero_le _)
    · contradiction
  have keeps (d : Deserializer) (op : ReadOp) (within : d.buffer.Within data) (calm : ¬op.Jumps d) :
      (next dtl d op).buffer.Within data :=
    (run_moved dtl op within).iff (iff_of_false calm not_false)
  refine Always.of_invariant (fun d : Deserializer => d.buffer.Within data) keeps ?_ start calm
  intro d op within calm
  refine ⟨checked_eq dtl d op, ?_⟩
  intro d₁ done
  have stays := keeps d op within calm
  rw [next, done] at stays
  exact ⟨stays.same, ReadBuffer.Within.le stays⟩

/-- A number, and a string with a zero that ends where the buffer ends. -/
theorem readsInside_whole_string :
    Always (next Dtl.numeric) (ReadsInside Dtl.numeric [7, 65, 0, 66])
      { Deserializer.create 0 with buffer := { bytes := [7, 65, 0, 66] } }
      [.unpack .uint8 0 .none, .unpack .char 3 .none] := by
  apply readsInside_of_calm (d := Deserializer.create 0) rfl
  refine ⟨?_, ?_, trivial⟩
  · rintro ⟨⟨char | char, _⟩, _⟩ <;> cases char
  · rintro ⟨_, cut, _⟩
    exact absurd cut (by decide)

/-- A string of two characters is read from a buffer that holds one zero. -/
theorem unpackChar_leaves_buffer :
    ∃ d, (Deserializer.create 0).setReadBuffer [0] = .ok () d ∧
      ¬Always (next Dtl.numeric) (ReadsInside Dtl.numeric [0]) d [.unpack .char 2 .none] := by
  refine ⟨_, rfl, ?_⟩
  rintro ⟨⟨_, inside⟩, _⟩
  have beyond := (inside _ rfl).2
  exact absurd beyond (by decide)

end ReadOp

end Apx
