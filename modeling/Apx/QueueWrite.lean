import Apx.PackNumbers
import Apx.WriteCursor

/-! Writing queues of scalars: what sessions of queued_write_begin, packs and queued_write_end leave in
a buffer. A second session cannot be begun, because read_dynamic_value_from_buffer returns an error in
any case. -/

namespace Apx

open LittleEndian Vm

namespace PackCall

def code : PackCall → LeafCode
  | .uint8 => .uint8
  | .uint16 => .uint16
  | .uint32 => .uint32
  | .uint64 => .uint64
  | .int8 => .int8
  | .int16 => .int16
  | .int32 => .int32
  | .int64 => .int64
  | .char => .char
  | .char8 => .char8
  | .bool => .bool
  | .byte => .byte
  | .record => .none

def elementSize (call : PackCall) : Nat := call.code.size

def Value (call : PackCall) (sv : Sv) : Prop :=
  match call with
  | .byte => ∃ b, sv = .bytearray [b]
  | .char | .char8 => ∃ c, sv = .char c
  | .record => False
  | _ => ∃ x, call.code.number sv = some x ∧ call.code.InRange x

/-- The scalar is a number or a byte, and these are its bytes. -/
inductive Encodes (call : PackCall) : Sv → Bytes → Prop where
  | number {sv : Sv} {x : Int} (isNumber : call.code.isNumber = true)
      (stands : call.code.number sv = some x) (inRange : call.code.InRange x) :
      Encodes call sv (call.code.encode x)
  | byte (b : Byte) (isByte : call = .byte) : Encodes call (.bytearray [b]) [b]

/-- The values of a type other than the characters are numbers or bytes. -/
theorem Value.encodes {call : PackCall} {sv : Sv} (value : call.Value sv)
    (noChar : ¬(call = .char ∨ call = .char8)) : ∃ data, call.Encodes sv data := by
  cases call with
  | char => exact absurd (.inl rfl) noChar
  | char8 => exact absurd (.inr rfl) noChar
  | record => exact value.elim
  | byte =>
    obtain ⟨b, rfl⟩ := value
    exact ⟨[b], .byte b rfl⟩
  | _ =>
    obtain ⟨x, stands, inRange⟩ := value
    exact ⟨_, .number rfl stands inRange⟩

theorem Encodes.length {call : PackCall} {sv : Sv} {data : Bytes} (encodes : call.Encodes sv data) :
    data.length = call.elementSize := by
  cases encodes with
  | number _ _ _ => exact call.code.encode_length _
  | byte b isByte =>
    subst isByte
    rfl

theorem Encodes.positive {call : PackCall} {sv : Sv} {data : Bytes} (encodes : call.Encodes sv data) :
    0 < call.elementSize := by
  cases encodes with
  | number isNumber _ _ =>
    unfold elementSize
    cases call <;> first | contradiction | decide
  | byte b isByte =>
    subst isByte
    decide

end PackCall

/-! Writing: the calls of a session, and sessions one after the other. -/

namespace Serializer

/-- apx_vm_serializer_set_value_sv and the pack call for one scalar -/
def packOne (dtl : Dtl) (call : PackCall) (s : Serializer) (sv : Sv) : Result Serializer Unit :=
  call.run dtl (s.setValueDv (.scalar sv)) 0 .none

def packAll (dtl : Dtl) (call : PackCall) (s : Serializer) : List Sv → Result Serializer Unit
  | [] => .ok () s
  | sv :: rest => (packOne dtl call s sv).bind fun _ s => packAll dtl call s rest

def openSession (dtl : Dtl) (call : PackCall) (maxLength : Nat) (clearQueue : Bool) (values : List Sv)
    (s : Serializer) : Result Serializer Unit :=
  (s.queuedWriteBegin call.elementSize maxLength clearQueue).bind fun _ s => packAll dtl call s values

/-- A session and the later ones, which start on the same buffer and do not clear the queue. The
last one is left open. -/
def writeSessions (dtl : Dtl) (call : PackCall) (maxLength : Nat) (clearQueue : Bool)
    (values : List Sv) (s : Serializer) : List (List Sv) → Result Serializer Unit
  | [] => openSession dtl call maxLength clearQueue values s
  | next :: later =>
      (openSession dtl call maxLength clearQueue values s).bind fun _ s =>
        s.queuedWriteEnd.bind fun _ s =>
          (s.setWriteBuffer s.buffer.bytes).bind fun _ s =>
            writeSessions dtl call maxLength false next s later

/-- Each of these scalars is refused because the queue is full. -/
def Refuses (dtl : Dtl) (call : PackCall) : Serializer → List Sv → Serializer → Prop
  | s, [], s' => s = s'
  | s, sv :: rest, s' =>
      ∃ t, packOne dtl call s sv = .fail (.code .queueFull) t ∧ Refuses dtl call t rest s'

/-- A position of the serializer in an open queue that has room for `space` more bytes. -/
structure InQueue (s : Serializer) (space : Nat) : Prop where
  isActive : s.queuedWriteState.isActive = true
  bounded : s.queuedWriteState.maxLength < 2 ^ 32
  unpadded : s.buffer.paddedNext = none
  nonempty : 0 < s.buffer.bytes.length
  room : s.buffer.next + space ≤ s.buffer.bytes.length

def counted (q : QueuedWriteState) (count : Nat) : QueuedWriteState :=
  { q with currentLength := q.currentLength + count }

theorem InQueue.flush {s : Serializer} {space : Nat} (inQueue : s.InQueue space) :
    s.buffer.flush = .ok () s.buffer := by
  have inside : s.buffer.next ≤ s.buffer.bytes.length := by
    have room := inQueue.room
    omega
  have valid : s.buffer.isValid = true := by
    simp [WriteBuffer.isValid, inQueue.nonempty, inside]
  rw [WriteBuffer.flush, if_neg (by simp [valid]), inQueue.unpadded]

/-- A scalar that was written is counted by the open queue. -/
theorem finishPack_counts {written : Result Serializer Unit} {s : Serializer}
    (done : written = .ok () s) (isActive : s.queuedWriteState.isActive = true)
    (small : s.queuedWriteState.currentLength + 1 < 2 ^ 32) :
    ∃ s', finishPack true written = .ok () s' ∧ s'.buffer = s.buffer ∧
      s'.queuedWriteState = counted s.queuedWriteState 1 := by
  have length : u32 (s.queuedWriteState.currentLength + 1) = s.queuedWriteState.currentLength + 1 :=
    Nat.mod_eq_of_lt small
  refine ⟨popState { s with queuedWriteState := counted s.queuedWriteState 1 }, ?_,
    (popLoop_frame _ _).1, (popLoop_frame _ _).2.1⟩
  rw [done, finishPack, Result.bind_ok]
  simp only [isActive, if_true, length, counted]

/-- The serializer with a scalar that a pack call is about to write -/
def typed (s : Serializer) (sv : Sv) (typeCode : TypeCode) (elementSize : Nat) : Serializer :=
  { s with state := { s.state.setValue (.scalar sv) with typeCode := typeCode, elementSize := elementSize } }

theorem prepare_typed {s : Serializer} {space : Nat} (inQueue : s.InQueue space) (sv : Sv)
    (typeCode : TypeCode) (elementSize : Nat) :
    (s.setValueDv (.scalar sv)).prepareForBufferWrite typeCode elementSize =
      .ok () (s.typed sv typeCode elementSize) := by
  rw [prepareForBufferWrite_eq]
  have flushed : (s.setValueDv (.scalar sv)).buffer.flush = .ok () s.buffer := inQueue.flush
  rw [flushed]
  rfl

theorem packOne_number {dtl : Dtl} (exact_ : dtl.Exact) {call : PackCall} {sv : Sv} {x : Int}
    (isNumber : call.code.isNumber = true) (stands : call.code.number sv = some x)
    (inRange : call.code.InRange x) {s : Serializer} (inQueue : s.InQueue call.code.size)
    (notFull : s.queuedWriteState.currentLength < s.queuedWriteState.maxLength) :
    ∃ s', packOne dtl call s sv = .ok () s' ∧ s'.buffer = s.buffer.write (call.code.encode x) ∧
      s'.queuedWriteState = counted s.queuedWriteState 1 := by
  have bounded := inQueue.bounded
  have run : call.run dtl = packAs dtl call.code.typeCode call.code.size := by
    cases call <;> first | contradiction | rfl
  obtain ⟨slot, wrote⟩ := @settles_packScalarValue dtl exact_ call.code isNumber sv x stands
    (s.typed sv call.code.typeCode call.code.size) rfl rfl rfl (.inl rfl)
  obtain ⟨s', done, buffer, queue⟩ := finishPack_counts (wrote.ok ⟨inRange, inQueue.room⟩)
    inQueue.isActive (by simp only [typed]; omega)
  refine ⟨s', ?_, buffer, queue⟩
  have open_ : ¬((s.typed sv call.code.typeCode call.code.size).queuedWriteState.isActive ∧
      (s.typed sv call.code.typeCode call.code.size).queuedWriteState.currentLength ≥
        (s.typed sv call.code.typeCode call.code.size).queuedWriteState.maxLength) :=
    fun full => absurd full.2 (Nat.not_le.mpr notFull)
  have empty : (s.typed sv call.code.typeCode call.code.size).state.arrayLen = 0 := rfl
  have fixed : (s.typed sv call.code.typeCode call.code.size).state.dynamicSizeType = .none := rfl
  have numeric : (s.typed sv call.code.typeCode call.code.size).state.isNumOrBoolType = true := by
    show WriteState.isNumOrBoolType { typeCode := call.code.typeCode } = true
    cases call <;> first | contradiction | rfl
  rw [packOne, run, packAs, prepare_typed inQueue, Result.bind_ok, prepareForArray,
    if_neg (Nat.lt_irrefl 0), Result.bind_ok, packValue, if_neg open_]
  simp only
  rw [if_pos empty, if_neg (not_not_intro fixed), if_pos numeric]
  exact done

theorem prepareForArray_fixed (dtl : Dtl) (s : Serializer) (arrayLength : Nat) :
    ∃ st, s.prepareForArray dtl arrayLength .none = .ok () { s with state := st } := by
  by_cases positive : arrayLength > 0
  · exact ⟨_, by rw [prepareForArray, if_pos positive, if_neg (not_not_intro rfl)]⟩
  · exact ⟨s.state, by rw [prepareForArray, if_neg positive]⟩

theorem packOne_byte (dtl : Dtl) (b : Byte) {s : Serializer} (inQueue : s.InQueue 1)
    (notFull : s.queuedWriteState.currentLength < s.queuedWriteState.maxLength) :
    ∃ s', packOne dtl .byte s (.bytearray [b]) = .ok () s' ∧ s'.buffer = s.buffer.write [b] ∧
      s'.queuedWriteState = counted s.queuedWriteState 1 := by
  have bounded := inQueue.bounded
  obtain ⟨t, same⟩ : ∃ t : Serializer, t = { s.typed (.bytearray [b]) .byte 1 with
      state := { (s.typed (.bytearray [b]) .byte 1).state with arrayLen := 1 } } := ⟨_, rfl⟩
  have value : t.state.value = .scalar (.bytearray [b]) := by rw [same]; rfl
  have length : t.state.arrayLen = 1 := by rw [same]
  have fixed : t.state.dynamicSizeType = .none := by rw [same]; rfl
  have type : t.state.typeCode = .byte := by rw [same]; rfl
  have queue : t.queuedWriteState = s.queuedWriteState := by rw [same]; rfl
  have buffer : t.buffer = s.buffer := by rw [same]; rfl
  have prepared : (s.typed (.bytearray [b]) .byte 1).prepareForArray dtl 1 .none = .ok () t := by
    rw [prepareForArray, if_pos Nat.one_pos, if_neg (not_not_intro rfl), same]
  have open_ : ¬(t.queuedWriteState.isActive ∧
      t.queuedWriteState.currentLength ≥ t.queuedWriteState.maxLength) := by
    rw [queue]
    exact fun full => absurd full.2 (Nat.not_le.mpr notFull)
  have wrote : t.packByteArrayInternal = .ok () { t with buffer := s.buffer.write [b] } := by
    have room : s.buffer.next + 1 ≤ s.buffer.bytes.length := inQueue.room
    rw [packByteArrayInternal, value]
    simp only [fixed, length, buffer, List.length_cons, List.length_nil, Nat.zero_add, Nat.le_refl,
      room, if_true, ne_eq, not_true_eq_false, and_false, if_false, List.take_one, List.head?_cons,
      Option.toList_some]
  obtain ⟨s', done, buffer', queue'⟩ := finishPack_counts wrote
    (by rw [queue]; exact inQueue.isActive) (by rw [queue]; omega)
  refine ⟨s', ?_, buffer', by rw [queue', queue]⟩
  have run : PackCall.run dtl .byte (s.setValueDv (.scalar (.bytearray [b]))) 0 .none =
      packAs dtl .byte 1 (s.setValueDv (.scalar (.bytearray [b]))) 1 .none := rfl
  rw [packOne, run, packAs, prepare_typed inQueue, Result.bind_ok, prepared, Result.bind_ok, packValue,
    if_neg open_]
  simp only [length, fixed, WriteState.isNumOrBoolType, WriteState.isCharType, WriteState.isBytesType,
    type, Nat.one_ne_zero, if_false, ne_eq, not_true_eq_false, Result.bind_ok, beq_self_eq_true, if_true,
    Bool.false_eq_true]
  exact done

/-- A value of the type is written behind the elements of a queue that is not full. -/
theorem packOne_ok {dtl : Dtl} (exact_ : dtl.Exact) {call : PackCall} {sv : Sv} {data : Bytes}
    (encodes : call.Encodes sv data) {s : Serializer} (inQueue : s.InQueue data.length)
    (notFull : s.queuedWriteState.currentLength < s.queuedWriteState.maxLength) :
    ∃ s', packOne dtl call s sv = .ok () s' ∧ s'.buffer = s.buffer.write data ∧
      s'.queuedWriteState = counted s.queuedWriteState 1 := by
  cases encodes with
  | number isNumber stands inRange =>
    rw [LeafCode.encode_length] at inQueue
    exact packOne_number exact_ isNumber stands inRange inQueue notFull
  | byte b isByte =>
    subst isByte
    exact packOne_byte dtl b inQueue notFull

/-- Values that fit into the queue and into the buffer are all written. -/
theorem packAll_ok {dtl : Dtl} (exact_ : dtl.Exact) {call : PackCall} {values : List Sv}
    {datas : List Bytes} (encodes : List.Forall₂ call.Encodes values datas) {s : Serializer}
    (inQueue : s.InQueue datas.flatten.length)
    (fits : s.queuedWriteState.currentLength + values.length ≤ s.queuedWriteState.maxLength) :
    ∃ s', packAll dtl call s values = .ok () s' ∧ s'.buffer = s.buffer.write datas.flatten ∧
      s'.queuedWriteState = counted s.queuedWriteState values.length := by
  induction encodes generalizing s with
  | nil =>
    refine ⟨s, rfl, ?_, rfl⟩
    rw [List.flatten_nil, WriteBuffer.write, splice_nil]
    rfl
  | @cons sv data values datas first rest ih =>
    have room := inQueue.room
    rw [List.flatten_cons, List.length_append] at room
    rw [List.length_cons] at fits
    have here : s.InQueue data.length := { inQueue with room := by omega }
    obtain ⟨s₁, packed, buffer, queue⟩ := packOne_ok exact_ first here (by omega)
    have length : s₁.buffer.bytes.length = s.buffer.bytes.length := by
      rw [buffer]
      exact splice_length here.room
    have next : s₁.buffer.next = s.buffer.next + data.length := by rw [buffer]; rfl
    have inQueue₁ : s₁.InQueue datas.flatten.length := by
      refine ⟨?_, ?_, ?_, ?_, ?_⟩
      · rw [queue]
        exact inQueue.isActive
      · rw [queue]
        exact inQueue.bounded
      · rw [buffer]
        exact inQueue.unpadded
      · rw [length]
        exact inQueue.nonempty
      · rw [length, next]
        omega
    obtain ⟨s', done, buffer', queue'⟩ := ih inQueue₁ (by rw [queue]; simp only [counted]; omega)
    refine ⟨s', by rw [packAll, packed, Result.bind_ok, done], ?_, ?_⟩
    · rw [buffer', buffer, List.flatten_cons, WriteBuffer.write_write _ _ (by omega)]
    · rw [queue', queue]
      simp only [counted, List.length_cons, Nat.add_assoc, Nat.add_comm 1]

/-- A pack call that is refused because the queue is full changes neither the buffer nor the queue. -/
theorem packOne_full (dtl : Dtl) (call : PackCall) (sv : Sv) {s : Serializer} (inQueue : s.InQueue 0)
    (full : s.queuedWriteState.maxLength ≤ s.queuedWriteState.currentLength) :
    ∃ t, packOne dtl call s sv = .fail (.code .queueFull) t ∧ t.buffer = s.buffer ∧
      t.queuedWriteState = s.queuedWriteState := by
  obtain ⟨typeCode, elementSize, arrayLength, run⟩ : ∃ typeCode elementSize arrayLength,
      call.run dtl (s.setValueDv (.scalar sv)) 0 .none =
        packAs dtl typeCode elementSize (s.setValueDv (.scalar sv)) arrayLength .none := by
    cases call <;> exact ⟨_, _, _, rfl⟩
  obtain ⟨st, prepared⟩ := prepareForArray_fixed dtl (s.typed sv typeCode elementSize) arrayLength
  have refused : ({ s.typed sv typeCode elementSize with state := st } : Serializer).packValue dtl =
      .fail (.code .queueFull) { s.typed sv typeCode elementSize with state := st } := by
    rw [packValue]
    exact if_pos ⟨inQueue.isActive, full⟩
  refine ⟨{ s.typed sv typeCode elementSize with state := st }, ?_, rfl, rfl⟩
  rw [packOne, run, packAs, prepare_typed inQueue, Result.bind_ok, prepared, Result.bind_ok, refused]

theorem refuses_full (dtl : Dtl) (call : PackCall) (further : List Sv) {s : Serializer}
    (inQueue : s.InQueue 0) (full : s.queuedWriteState.maxLength ≤ s.queuedWriteState.currentLength) :
    ∃ s', Refuses dtl call s further s' ∧ s'.buffer = s.buffer ∧
      s'.queuedWriteState = s.queuedWriteState := by
  induction further generalizing s with
  | nil => exact ⟨s, rfl, rfl, rfl⟩
  | cons sv rest ih =>
    obtain ⟨t, refused, buffer, queue⟩ := packOne_full dtl call sv inQueue full
    have inQueue' : t.InQueue 0 := by
      obtain ⟨isActive, bounded, unpadded, nonempty, room⟩ := inQueue
      constructor <;> rw [← queue] at * <;> rw [← buffer] at * <;> assumption
    obtain ⟨s', refuses, buffer', queue'⟩ := ih inQueue' (by rw [queue]; exact full)
    exact ⟨s', ⟨t, refused, refuses⟩, buffer'.trans buffer, queue'.trans queue⟩

/-- A single character cannot be packed. -/
theorem packOne_char (dtl : Dtl) {call : PackCall} (char : call = .char ∨ call = .char8)
    (s s' : Serializer) (sv : Sv) : packOne dtl call s sv ≠ .ok () s' := by
  intro done
  obtain ⟨typeCode, isChar, run⟩ : ∃ typeCode, (typeCode = .char ∨ typeCode = .char8) ∧
      call.run dtl (s.setValueDv (.scalar sv)) 0 .none =
        packAs dtl typeCode 1 (s.setValueDv (.scalar sv)) 0 .none := by
    rcases char with rfl | rfl
    · exact ⟨.char, .inl rfl, rfl⟩
    · exact ⟨.char8, .inr rfl, rfl⟩
  rw [packOne, run, packAs] at done
  obtain ⟨_, t, prepared, done⟩ := Result.bind_eq_ok.mp done
  obtain ⟨_, rfl⟩ := prepareForBufferWrite_ok prepared
  rw [prepareForArray, if_neg (Nat.lt_irrefl 0), Result.bind_ok, packValue] at done
  split at done
  · contradiction
  · rcases isChar with rfl | rfl <;> contradiction

/-- A session that does not clear the queue is never begun. -/
theorem queuedWriteBegin_append (s s' : Serializer) (elementSize maxLength : Nat) :
    s.queuedWriteBegin elementSize maxLength false ≠ .ok () s' := by
  unfold queuedWriteBegin
  simp only [Bool.false_eq_true, if_false, readDynamicValue]
  split
  · nofun
  next done =>
    split at done
    · split at done <;> contradiction
    · contradiction

/-- The size type of a queue holds the lengths that the queue can have. -/
theorem holds_length {maxLength length : Nat} (positive : 0 < maxLength) (short : length ≤ maxLength) :
    Holds length (sizeToSizeType maxLength) := by
  by_cases one : maxLength ≤ uint8Max
  · rw [sizeToSizeType, if_pos positive, if_pos one]
    exact short.trans one
  · by_cases two : maxLength ≤ uint16Max
    · rw [sizeToSizeType, if_pos positive, if_neg one, if_pos two]
      exact short.trans two
    · rw [sizeToSizeType, if_pos positive, if_neg one, if_neg two]
      exact trivial

theorem lengthSize_pos {maxLength : Nat} (positive : 0 < maxLength) :
    0 < sizeTypeToSize (sizeToSizeType maxLength) := by
  have holds := holds_length positive (Nat.zero_le maxLength)
  apply sizeTypeToSize_pos
  intro none
  rw [none] at holds
  exact holds

/-- What a session leaves that cleared the queue at the start of the buffer. -/
theorem openSession_ok {dtl : Dtl} (exact_ : dtl.Exact) {call : PackCall} {values : List Sv}
    {datas : List Bytes} (encodes : List.Forall₂ call.Encodes values datas) {maxLength : Nat}
    (bounded : maxLength < 2 ^ 32) (short : values.length ≤ maxLength) {data : Bytes}
    (nonempty : 0 < data.length)
    (room : sizeTypeToSize (sizeToSizeType maxLength) + datas.flatten.length ≤ data.length)
    {s : Serializer} (buffer : s.buffer = { bytes := data }) :
    ∃ s', openSession dtl call maxLength true values s = .ok () s' ∧
      s'.buffer = { bytes := splice data (sizeTypeToSize (sizeToSizeType maxLength)) datas.flatten
                    next := sizeTypeToSize (sizeToSizeType maxLength) + datas.flatten.length } ∧
      s'.queuedWriteState = { maxLength := maxLength, currentLength := values.length
                              elementSize := call.elementSize, lengthPtr := 0
                              sizeType := sizeToSizeType maxLength, isActive := true } := by
  obtain ⟨s₁, begun, buffer₁, queue₁⟩ : ∃ s₁, s.queuedWriteBegin call.elementSize maxLength true =
      .ok () s₁ ∧ s₁.buffer = { bytes := data, next := sizeTypeToSize (sizeToSizeType maxLength) } ∧
      s₁.queuedWriteState = { maxLength := maxLength, currentLength := 0
                              elementSize := call.elementSize, lengthPtr := 0
                              sizeType := sizeToSizeType maxLength, isActive := true } := by
    refine ⟨_, rfl, ?_, ?_⟩
    · simp only [buffer, Nat.zero_add]
    · simp only [buffer]
  have inQueue : s₁.InQueue datas.flatten.length := by
    constructor
    · rw [queue₁]
    · rw [queue₁]
      exact bounded
    · rw [buffer₁]
    · rw [buffer₁]
      exact nonempty
    · rw [buffer₁]
      exact room
  obtain ⟨s', packed, buffer', queue'⟩ := packAll_ok exact_ encodes inQueue (by
    rw [queue₁]
    simpa using short)
  refine ⟨s', by rw [openSession, begun, Result.bind_ok, packed], ?_, ?_⟩
  · rw [buffer', buffer₁, WriteBuffer.write]
  · rw [queue', queue₁, counted]
    simp only [Nat.zero_add]

end Serializer

end Apx
