import Apx.QueueWrite
import Apx.ReadCursor
import Apx.ScalarRead

/-! Queues of scalars, written and read: queued_read_begin, unpacks and queued_read_next get from a
buffer what the sessions have written. A queue is its length and its elements behind each other. -/

namespace Apx

open LittleEndian Vm

namespace PackCall

/-- The call that unpacks what the call packs -/
def unpack : PackCall → UnpackCall
  | .uint8 => .uint8
  | .uint16 => .uint16
  | .uint32 => .uint32
  | .uint64 => .uint64
  | .int8 => .int8
  | .int16 => .int16
  | .int32 => .int32
  | .int64 => .int64
  | .char => .char
  | .char8 => .char8
  | .bool => .bool
  | .byte => .byte
  | .record => .record

end PackCall

/-! Reading: the calls that take the elements of a queue. -/

namespace Deserializer

/-- apx_vm_deserializer_take_sv; `none` is the null pointer. -/
def takeSv (d : Deserializer) : Option Sv × Deserializer :=
  match d.state.value with
  | .scalar sv => (some sv, { d with state := { d.state with value := .null } })
  | _ => (none, d)

/-- As often as there are elements: one is unpacked and taken, and the queue goes to the next one.
What is read is a scalar with the mark of the last one. -/
def readAll (call : UnpackCall) (d : Deserializer) : Nat → Result Deserializer (List (Option Sv × Bool))
  | 0 => .ok [] d
  | count + 1 =>
      (call.run d 0 .none).bind fun _ d =>
        let (sv, d) := d.takeSv
        d.queuedReadNext.bind fun isLast d =>
          (readAll call d count).bind fun rest d => .ok ((sv, isLast) :: rest) d

def readQueue (call : PackCall) (maxLength : Nat) (data : Bytes) (count : Nat) (d : Deserializer) :
    Result Deserializer (List (Option Sv × Bool)) :=
  (d.setReadBuffer data).bind fun _ d =>
    (d.queuedReadBegin call.elementSize maxLength).bind fun _ d => d.readAll call.unpack count

end Deserializer

/-- What is read are these scalars in their order, and only the last one is marked as the last. -/
structure InOrder (values : List Sv) (reads : List (Option Sv × Bool)) : Prop where
  scalars : List.Forall₂ (fun sv read => ∃ sv', read.1 = some sv' ∧ sv'.Eqv sv) values reads
  marks : ∀ i read, reads[i]? = some read → (read.2 = true ↔ i + 1 = values.length)

/-- Any deserializer that is at no part of another value reads the scalars from the queue. -/
def ReadsBack (call : PackCall) (maxLength : Nat) (data : Bytes) (values : List Sv) : Prop :=
  ∀ d : Deserializer, d.stack = [] → ∃ reads d',
    d.readQueue call maxLength data values.length = .ok reads d' ∧ InOrder values reads

/-- One more scalar in front -/
theorem InOrder.cons {values : List Sv} {reads : List (Option Sv × Bool)} (inOrder : InOrder values reads)
    {sv sv' : Sv} (same : sv'.Eqv sv) {isLast : Bool} (mark : isLast = true ↔ values = []) :
    InOrder (sv :: values) ((some sv', isLast) :: reads) where
  scalars := .cons ⟨sv', rfl, same⟩ inOrder.scalars
  marks
    | 0, read, here => by
      cases here
      rw [List.length_cons, mark, ← List.length_eq_zero_iff]
      omega
    | i + 1, read, here => by
      rw [List.length_cons, inOrder.marks i read here]
      omega

namespace PackCall

theorem Encodes.reads {call : PackCall} {sv : Sv} {data : Bytes} (encodes : call.Encodes sv data)
    (slot : ScalarSlot) :
    ∃ slot' sv', ReadState.storedScalar slot call.unpack.typeCode data = some slot' ∧
      ReadState.scalarFromStorage slot' = some sv' ∧ sv'.Eqv sv := by
  cases encodes with
  | number isNumber stands inRange =>
    have type : call.unpack.typeCode = call.code.typeCode := by
      cases call <;> first | contradiction | rfl
    rw [type]
    exact ReadState.read_encoded isNumber stands inRange slot
  | byte b isByte =>
    subst isByte
    refine ⟨_, .bytearray [b], rfl, ?_, rfl, fun _ => rfl⟩
    simp only [ReadState.scalarFromStorage, ReadState.lowByte_setByte, List.headD_cons]

theorem Encodes.run {call : PackCall} {sv : Sv} {data : Bytes} (encodes : call.Encodes sv data) :
    call.unpack.run = Deserializer.unpackAs call.unpack.typeCode data.length := by
  have size : call.unpack.elementSize = data.length := by
    rw [encodes.length]
    cases encodes with
    | number isNumber _ _ => cases call <;> first | contradiction | rfl
    | byte b isByte => subst isByte; rfl
  rw [UnpackCall.run_eq, size]

theorem Encodes.isScalar {call : PackCall} {sv : Sv} {data : Bytes} (encodes : call.Encodes sv data)
    (st : ReadState) (type : st.typeCode = call.unpack.typeCode) :
    st.isNumOrBoolType ∨ st.isByteType := by
  cases encodes with
  | number isNumber _ _ =>
    left
    rw [ReadState.isNumOrBoolType, type]
    cases call <;> first | contradiction | rfl
  | byte b isByte =>
    right
    rw [ReadState.isByteType, type]
    subst isByte
    rfl

end PackCall

namespace Deserializer

/-- The rest of a queue is read in its order, whatever is behind it in the buffer. -/
theorem readAll_ok {call : PackCall} {values : List Sv} {datas : List Bytes}
    (encodes : List.Forall₂ call.Encodes values datas) {d : Deserializer} {rest : Bytes}
    (here : d.buffer.bytes.drop d.buffer.next = datas.flatten ++ rest)
    (unpadded : d.buffer.paddedNext = none) (alone : d.stack = [])
    (isActive : values ≠ [] → d.queuedReadState.isActive = true)
    (left : d.queuedReadState.index + values.length = d.queuedReadState.currentLength)
    (small : d.queuedReadState.currentLength < 2 ^ 32) :
    ∃ reads d', d.readAll call.unpack values.length = .ok reads d' ∧ InOrder values reads := by
  induction encodes generalizing d with
  | nil => exact ⟨[], d, rfl, .nil, nofun⟩
  | @cons sv data values datas first more ih =>
    have isActive := isActive (List.cons_ne_nil sv values)
    rw [List.length_cons] at left
    rw [List.flatten_cons, List.append_assoc] at here
    have nonempty : data ≠ [] := by
      intro empty
      have length := first.length
      have positive := first.positive
      rw [empty, List.length_nil] at length
      omega
    obtain ⟨d₁, sv', unpacked, value, same, buffer, stack, queue⟩ :=
      unpackAs_scalar here nonempty unpadded alone (by omega)
        (fun st type _ => first.isScalar st type) first.reads
    have index : u32 (d.queuedReadState.index + 1) = d.queuedReadState.index + 1 :=
      Nat.mod_eq_of_lt (by omega)
    -- the queue behind the element, which is active unless that was the last one
    obtain ⟨isLast, d₂, next, mark, buffer₂, stack₂, active₂, index₂, length₂⟩ : ∃ isLast d₂,
        (d₁.takeSv).2.queuedReadNext = .ok isLast d₂ ∧ (isLast = true ↔ values = []) ∧
        d₂.buffer = d₁.buffer ∧ d₂.stack = d₁.stack ∧
        (values ≠ [] → d₂.queuedReadState.isActive = true) ∧
        d₂.queuedReadState.index = d.queuedReadState.index + 1 ∧
        d₂.queuedReadState.currentLength = d.queuedReadState.currentLength := by
      rw [takeSv, value, queuedReadNext]
      simp only [queue, isActive, if_true, index]
      rw [← List.length_eq_zero_iff]
      split
      next last => exact ⟨true, _, rfl, by simp only [true_iff]; omega, rfl, rfl,
        fun more => absurd (List.length_eq_zero_iff.mp (by omega)) more, rfl, rfl⟩
      next notLast => exact ⟨false, _, rfl, by simp only [Bool.false_eq_true, false_iff]; omega, rfl,
        rfl, fun _ => rfl, rfl, rfl⟩
    obtain ⟨reads, d', read, inOrder⟩ := @ih d₂ (by rw [buffer₂, buffer]; exact drop_of_drop here)
      (by rw [buffer₂, buffer]; exact unpadded) (stack₂.trans stack) active₂ (by omega) (by omega)
    refine ⟨(some sv', isLast) :: reads, d', ?_, inOrder.cons same mark⟩
    have taken : (d₁.takeSv).1 = some sv' := by rw [takeSv, value]
    rw [List.length_cons, readAll, first.run, unpacked, Result.bind_ok]
    simp only [taken, next, Result.bind_ok, read]

/-- The length in front of a queue is read by its size type. -/
theorem parseLength {length : Nat} {sizeType : SizeType} (fits : Serializer.Holds length sizeType)
    (small : length < 2 ^ 32) (rest : Bytes) :
    ∃ number, parseUInt32BySizeType (packLE length (sizeTypeToSize sizeType) ++ rest) 0 sizeType =
      some (number, sizeTypeToSize sizeType) ∧ number.toNat = length := by
  obtain ⟨variant, known, size, fits⟩ : ∃ variant, sizeTypeToVariant sizeType = some variant ∧
      variantToSize variant = sizeTypeToSize sizeType ∧ length < 256 ^ sizeTypeToSize sizeType := by
    unfold Serializer.Holds at fits
    cases sizeType with
    | none => contradiction
    | uint8 => exact ⟨_, rfl, rfl, Nat.lt_succ_of_le fits⟩
    | uint16 => exact ⟨_, rfl, rfl, Nat.lt_succ_of_le fits⟩
    | uint32 => exact ⟨_, rfl, rfl, small⟩
  have positive : 0 < sizeTypeToSize sizeType :=
    Serializer.sizeTypeToSize_pos (by rintro rfl; contradiction)
  have parsed := @parseUInt32ByVariant_packLE (packLE length (sizeTypeToSize sizeType) ++ rest) rest 0
    variant length _ rfl size positive fits
  refine ⟨BitVec.ofNat 32 length, ?_, ?_⟩
  · rw [parseUInt32BySizeType, known]
    simp only [parsed, Nat.zero_add]
  · rw [BitVec.toNat_ofNat, Nat.mod_eq_of_lt small]

/-- A queue is read from its length and its elements. -/
theorem readQueue_ok {call : PackCall} {values : List Sv} {datas : List Bytes}
    (encodes : List.Forall₂ call.Encodes values datas) (sized : 0 < call.elementSize) {maxLength : Nat}
    (positive : 0 < maxLength) (bounded : maxLength < 2 ^ 32) (short : values.length ≤ maxLength)
    (rest : Bytes) :
    ReadsBack call maxLength
      (packLE values.length (sizeTypeToSize (sizeToSizeType maxLength)) ++ (datas.flatten ++ rest))
      values := by
  intro d alone
  obtain ⟨number, parsed, length⟩ := parseLength (Serializer.holds_length positive short) (by omega)
    (datas.flatten ++ rest)
  generalize bytes_eq : packLE values.length (sizeTypeToSize (sizeToSizeType maxLength)) ++
    (datas.flatten ++ rest) = bytes at parsed
  have nonempty : bytes.length > 0 := by
    have size := Serializer.lengthSize_pos positive
    rw [← bytes_eq, List.length_append, packLE_length]
    omega
  obtain ⟨d₁, begun, buffer, stack, queue⟩ : ∃ d₁,
      ((d.setReadBuffer bytes).bind fun _ d => d.queuedReadBegin call.elementSize maxLength) =
        .ok () d₁ ∧
      d₁.buffer = { bytes := bytes, next := sizeTypeToSize (sizeToSizeType maxLength) } ∧
      d₁.stack = [] ∧
      d₁.queuedReadState = { elementSize := call.elementSize, maxLength := maxLength, isActive := true
                             index := 0, currentLength := values.length
                             sizeType := sizeToSizeType maxLength } := by
    rw [setReadBuffer, if_pos nonempty, Result.bind_ok, queuedReadBegin, if_pos ⟨sized, positive⟩]
    simp only [parsed, length]
    exact ⟨_, rfl, rfl, alone, rfl⟩
  obtain ⟨reads, d', read, inOrder⟩ := @readAll_ok call values datas encodes d₁ rest
    (by
      rw [buffer, ← bytes_eq]
      exact List.drop_left' (packLE_length _ _))
    (by rw [buffer]) stack (fun _ => by rw [queue]) (by rw [queue]; exact Nat.zero_add _)
    (by rw [queue]; exact lt_of_le_of_lt short bounded)
  obtain ⟨_, d₀, set, begun⟩ := Result.bind_eq_ok.mp begun
  exact ⟨reads, d', by rw [readQueue, set, Result.bind_ok, begun, Result.bind_ok, read], inOrder⟩

end Deserializer

/-- Lists of scalars for one or more sessions, with a buffer that is large enough for them. -/
structure QueueInput where
  call : PackCall
  isScalar : call ≠ .record
  maxLength : Nat
  positive : 1 ≤ maxLength
  bounded : maxLength < 2 ^ 32
  first : List Sv
  later : List (List Sv)
  typed : ∀ sv ∈ first ++ later.flatten, call.Value sv
  short : (first ++ later.flatten).length ≤ maxLength
  data : Bytes
  room : sizeTypeToSize (sizeToSizeType maxLength) +
    call.elementSize * (first ++ later.flatten).length ≤ data.length

namespace QueueInput

/-- All scalars, in the order in which they are packed -/
def values (input : QueueInput) : List Sv := input.first ++ input.later.flatten

/-- Every call of the sessions succeeds, and the scalars are read back. Where they fill the queue,
further scalars are refused and the same is read. -/
def Fifo (input : QueueInput) (dtl : Dtl) (s : Serializer) : Prop :=
  ∀ further : List Sv, further = [] ∨ input.values.length = input.maxLength →
    ∃ opened full ended,
      ((s.setWriteBuffer input.data).bind fun _ s =>
        s.writeSessions dtl input.call input.maxLength true input.first input.later) = .ok () opened ∧
      Serializer.Refuses dtl input.call opened further full ∧
      full.queuedWriteEnd = .ok () ended ∧
      ReadsBack input.call input.maxLength ended.buffer.bytes input.values

variable {input : QueueInput} {dtl : Dtl} {s : Serializer}

theorem length_of_encodes {call : PackCall} {values : List Sv} {datas : List Bytes}
    (encodes : List.Forall₂ call.Encodes values datas) :
    datas.flatten.length = call.elementSize * values.length := by
  induction encodes with
  | nil => rfl
  | cons first _ ih =>
    rw [List.flatten_cons, List.length_append, ih, first.length, List.length_cons, Nat.mul_succ,
      Nat.add_comm]

theorem exists_encodes {call : PackCall} (noChar : ¬(call = .char ∨ call = .char8)) {values : List Sv}
    (typed : ∀ sv ∈ values, call.Value sv) : ∃ datas, List.Forall₂ call.Encodes values datas := by
  induction values with
  | nil => exact ⟨[], .nil⟩
  | cons sv rest ih =>
    obtain ⟨data, first⟩ := (typed sv List.mem_cons_self).encodes noChar
    obtain ⟨datas, more⟩ := ih fun sv mem => typed sv (List.mem_cons_of_mem _ mem)
    exact ⟨data :: datas, .cons first more⟩

/-- A length that is stored in front of bytes that are behind its place -/
theorem splice_header {data header body : Bytes} (fits : header.length ≤ data.length) :
    splice (splice data header.length body) 0 header =
      header ++ (body ++ data.drop (header.length + body.length)) := by
  have place : (data.take header.length).length = header.length := List.length_take_of_le fits
  rw [splice, splice, List.take_zero, List.nil_append, Nat.zero_add, List.append_assoc (data.take _),
    List.drop_left' place]

/-- The elements of one session are read back. -/
theorem fifo_of_encodes (exact_ : dtl.Exact) (sized : 0 < input.call.elementSize) {datas : List Bytes}
    (encodes : List.Forall₂ input.call.Encodes input.first datas) (alone : input.later = []) :
    input.Fifo dtl s := by
  intro further fills
  have all : input.values = input.first := by
    rw [values, alone, List.flatten_nil, List.append_nil]
  have short : input.first.length ≤ input.maxLength := all ▸ input.short
  have room : sizeTypeToSize (sizeToSizeType input.maxLength) + datas.flatten.length ≤
      input.data.length := by
    rw [length_of_encodes encodes, ← all]
    exact input.room
  have header := Serializer.lengthSize_pos input.positive
  have nonempty : 0 < input.data.length := by omega
  have set : s.setWriteBuffer input.data = .ok () { s with buffer := { bytes := input.data } } := by
    rw [Serializer.setWriteBuffer, if_pos nonempty]
  obtain ⟨opened, written, buffer, queue⟩ := @Serializer.openSession_ok dtl exact_ _ _ _ encodes
    input.maxLength input.bounded short input.data nonempty room
    { s with buffer := { bytes := input.data } } rfl
  -- a full queue refuses what comes then
  obtain ⟨full, refuses, buffer', queue'⟩ : ∃ full, Serializer.Refuses dtl input.call opened further full ∧
      full.buffer = opened.buffer ∧ full.queuedWriteState = opened.queuedWriteState := by
    rcases fills with rfl | fills
    · exact ⟨opened, rfl, rfl, rfl⟩
    · apply Serializer.refuses_full
      · constructor
        · rw [queue]
        · rw [queue]
          exact input.bounded
        · rw [buffer]
        · rw [buffer]
          exact lt_of_lt_of_le nonempty (length_le_splice _ _ _)
        · rw [buffer]
          exact room.trans (length_le_splice _ _ _)
      · rw [queue, ← fills, all]
  rw [buffer] at buffer'
  rw [queue] at queue'
  have ended := @Serializer.queuedWriteEnd_ok full (by rw [queue'])
    (by rw [queue']; exact Serializer.holds_length input.positive short)
  refine ⟨opened, full, _, ?_, refuses, ended, ?_⟩
  · rw [set, Result.bind_ok, alone, Serializer.writeSessions, written]
  · have stored := @splice_header input.data
      (packLE input.first.length (sizeTypeToSize (sizeToSizeType input.maxLength))) datas.flatten
      (by rw [packLE_length]; omega)
    rw [packLE_length] at stored
    simp only [buffer', queue', stored, all]
    exact Deserializer.readQueue_ok encodes sized input.positive input.bounded short _

/-- Every session that is begun without clearing the queue fails. -/
theorem writeSessions_later (dtl : Dtl) (call : PackCall) (maxLength : Nat) (clearQueue : Bool)
    (values next : List Sv) (later : List (List Sv)) (s opened : Serializer) :
    s.writeSessions dtl call maxLength clearQueue values (next :: later) ≠ .ok () opened := by
  intro written
  rw [Serializer.writeSessions] at written
  obtain ⟨_, s₁, _, written⟩ := Result.bind_eq_ok.mp written
  obtain ⟨_, s₂, _, written⟩ := Result.bind_eq_ok.mp written
  obtain ⟨_, s₃, _, written⟩ := Result.bind_eq_ok.mp written
  have begins {values : List Sv} (result : Serializer)
      (opens : s₃.openSession dtl call maxLength false values = .ok () result) : False := by
    obtain ⟨_, s₄, begun, _⟩ := Result.bind_eq_ok.mp opens
    exact Serializer.queuedWriteBegin_append _ _ _ _ begun
  cases later with
  | nil => exact begins _ written
  | cons after later =>
    rw [Serializer.writeSessions] at written
    obtain ⟨_, s₄, opens, _⟩ := Result.bind_eq_ok.mp written
    exact begins _ opens

/-- Queues are first in, first out exactly where there is one session, and no characters in it. -/
theorem fifo_iff (exact_ : dtl.Exact) (input : QueueInput) (s : Serializer) :
    input.Fifo dtl s ↔
      input.later = [] ∧ (input.call = .char ∨ input.call = .char8 → input.first = []) := by
  constructor
  · intro fifo
    obtain ⟨opened, _, _, written, _⟩ := fifo [] (.inl rfl)
    obtain ⟨_, s₁, _, written⟩ := Result.bind_eq_ok.mp written
    cases later : input.later with
    | cons next more =>
      rw [later] at written
      exact absurd written (writeSessions_later _ _ _ _ _ _ _ _ _)
    | nil =>
      refine ⟨rfl, fun char => ?_⟩
      rw [later, Serializer.writeSessions] at written
      obtain ⟨_, s₂, _, written⟩ := Result.bind_eq_ok.mp written
      cases first : input.first with
      | nil => rfl
      | cons sv rest =>
        rw [first, Serializer.packAll] at written
        obtain ⟨_, s₃, packed, _⟩ := Result.bind_eq_ok.mp written
        exact absurd packed (Serializer.packOne_char dtl char _ _ _)
  · rintro ⟨alone, empty⟩
    have typed (sv : Sv) (mem : sv ∈ input.first) : input.call.Value sv :=
      input.typed sv (List.mem_append_left _ mem)
    have sized : 0 < input.call.elementSize := by
      have isScalar := input.isScalar
      cases call : input.call <;> first | exact absurd call isScalar | decide
    obtain ⟨datas, encodes⟩ : ∃ datas, List.Forall₂ input.call.Encodes input.first datas := by
      by_cases char : input.call = .char ∨ input.call = .char8
      · rw [empty char]
        exact ⟨[], .nil⟩
      · exact exists_encodes char typed
    exact fifo_of_encodes exact_ sized encodes alone

/-- A queue of at most five numbers in a buffer of six bytes: one session with 7 and 8 -/
def oneSession : QueueInput where
  call := .uint8
  isScalar := nofun
  maxLength := 5
  positive := by decide
  bounded := by decide
  first := [.i32 7, .i32 8]
  later := []
  typed sv mem := by
    rcases List.mem_pair.mp mem with rfl | rfl
    · exact ⟨7, rfl, by decide⟩
    · exact ⟨8, rfl, by decide⟩
  short := by decide
  data := [0, 0, 0, 0, 0, 0]
  room := by decide

def twoSessions : QueueInput :=
  { oneSession with first := [.i32 7], later := [[.i32 8]], typed := oneSession.typed }

theorem fifo_oneSession : oneSession.Fifo Dtl.numeric Serializer.create :=
  (fifo_iff Dtl.numeric_exact oneSession Serializer.create).mpr
    ⟨rfl, by rintro (char | char) <;> cases char⟩

theorem not_fifo_twoSessions : ¬twoSessions.Fifo Dtl.numeric Serializer.create := by
  intro fifo
  obtain ⟨opened, _, _, written, _⟩ := fifo [] (.inl rfl)
  obtain ⟨_, s, _, written⟩ := Result.bind_eq_ok.mp written
  exact writeSessions_later _ _ _ _ _ _ _ _ _ written

end QueueInput

end Apx
