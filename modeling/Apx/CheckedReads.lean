import Apx.Deserializer

/-! Which bytes the deserializer touches. The functions that read the buffer are stated a second
time on memory where a load outside the buffer faults, and there they never fault. -/

namespace Apx

open LittleEndian Vm

/-- The bytes that a load gets, `none` where one of them is not in the buffer. -/
def load (bytes : Bytes) (offset size : Nat) : Option Bytes :=
  if offset + size ≤ bytes.length then some (slice bytes offset size) else none

theorem load_inside {bytes : Bytes} {offset size : Nat} (inside : offset + size ≤ bytes.length) :
    load bytes offset size = some (slice bytes offset size) := if_pos inside

theorem load_one {bytes : Bytes} {offset : Nat} (inside : offset < bytes.length) :
    load bytes offset 1 = some [bytes[offset]] := by
  rw [load_inside inside, slice, List.drop_eq_getElem_cons inside]
  rfl

namespace Result
variable {σ α β : Type}

/-- The next call where a call may fault, unless this one faulted or failed. -/
def andThen (first : Option (Result σ α)) (second : α → σ → Option (Result σ β)) :
    Option (Result σ β) :=
  first.bind fun result =>
    match result with
    | .ok value state => second value state
    | .fail failure state => some (.fail failure state)

/-- Calls that do not fault do not fault one after the other. -/
theorem andThen_some {first : Option (Result σ α)} {result : Result σ α}
    {second : α → σ → Option (Result σ β)} {next : α → σ → Result σ β}
    (first_eq : first = some result) (second_eq : ∀ value state, second value state = some (next value state)) :
    andThen first second = some (result.bind next) := by
  rw [first_eq]
  cases result with
  | ok value state => exact second_eq value state
  | fail failure state => rfl

end Result

/-! The functions of the deserializer that read its buffer, on memory that faults. -/

namespace Checked

/-- apx_vm_parse_uint32_by_variant -/
def parseUInt32ByVariant (bytes : Bytes) (begin variant : Nat) : Option (Option (BitVec 32 × Nat)) :=
  let unpackSize := variantToSize variant
  if unpackSize = 0 ∨ begin + unpackSize > bytes.length then some none
  else
    (load bytes begin unpackSize).map fun data =>
      some (BitVec.ofNat 32 (unpackLE data), begin + unpackSize)

theorem parseUInt32ByVariant_eq (bytes : Bytes) (begin variant : Nat) :
    parseUInt32ByVariant bytes begin variant = some (Vm.parseUInt32ByVariant bytes begin variant) := by
  unfold parseUInt32ByVariant Vm.parseUInt32ByVariant
  simp only
  split
  · rfl
  next inside =>
    rw [load_inside (by omega)]
    rfl

/-- apx_vm_parse_uint32_by_size_type -/
def parseUInt32BySizeType (bytes : Bytes) (begin : Nat) (sizeType : SizeType) :
    Option (Option (BitVec 32 × Nat)) :=
  match sizeTypeToVariant sizeType with
  | none => some none
  | some variant => parseUInt32ByVariant bytes begin variant

theorem parseUInt32BySizeType_eq (bytes : Bytes) (begin : Nat) (sizeType : SizeType) :
    parseUInt32BySizeType bytes begin sizeType =
      some (Vm.parseUInt32BySizeType bytes begin sizeType) := by
  unfold parseUInt32BySizeType Vm.parseUInt32BySizeType
  cases sizeTypeToVariant sizeType with
  | none => rfl
  | some variant => exact parseUInt32ByVariant_eq bytes begin variant

/-- state_read_scalar_value -/
def readScalarValue (st : ReadState) (b : ReadBuffer) : Option (Result (ReadState × ReadBuffer) Unit) :=
  if st.elementSize = 0 then some (.fail .assertion (st, b))
  else if st.elementSize > b.bytes.length - b.next then some (.fail (.code .bufferBoundary) (st, b))
  else
    (load b.bytes b.next st.elementSize).map fun data =>
      match ReadState.storedScalar st.scalar st.typeCode data with
      | some scalar => .ok () ({ st with scalar := scalar }, { b with next := b.next + st.elementSize })
      | none => .fail (.code .unsupported) (st, b)

theorem readScalarValue_eq (st : ReadState) (b : ReadBuffer) :
    readScalarValue st b = some (st.readScalarValue b) := by
  unfold readScalarValue ReadState.readScalarValue
  split
  · rfl
  next positive =>
    split
    · rfl
    next inside =>
      rw [load_inside (by omega)]
      rfl

/-- state_determine_array_length_from_read_buffer -/
def determineArrayLengthFromReadBuffer (st : ReadState) (b : ReadBuffer) :
    Option (Result (ReadState × ReadBuffer) Unit) :=
  if st.dynamicSizeType = .none then some (.fail (.code .invalidArgument) (st, b))
  else
    (parseUInt32BySizeType b.bytes b.next st.dynamicSizeType).map fun parsed =>
      match parsed with
      | some (number, next) => .ok () ({ st with arrayLen := number.toNat }, { b with next := next })
      | none => .fail (.code .bufferBoundary) (st, b)

theorem determineArrayLengthFromReadBuffer_eq (st : ReadState) (b : ReadBuffer) :
    determineArrayLengthFromReadBuffer st b = some (st.determineArrayLengthFromReadBuffer b) := by
  unfold determineArrayLengthFromReadBuffer ReadState.determineArrayLengthFromReadBuffer
  split
  · rfl
  · rw [parseUInt32BySizeType_eq]
    rfl

/-- deserializer_prepare_for_array -/
def prepareForArray (d : Deserializer) (arrayLength : Nat) (dynamicSizeType : SizeType) :
    Option (Result Deserializer Unit) :=
  if arrayLength > 0 then
    if dynamicSizeType ≠ .none then
      let d := { d with state := { d.state with
        dynamicSizeType := dynamicSizeType, maxArrayLen := arrayLength } }
      Result.andThen ((determineArrayLengthFromReadBuffer d.state d.buffer).map fun result =>
        result.lift fun (st, b) => { d with state := st, buffer := b }) fun _ d =>
        if d.state.arrayLen > d.state.maxArrayLen then some (.fail (.code .valueLength) d)
        else if d.state.elementSize = 0 then some (.fail .assertion d)
        else
          some (.ok () { d with buffer := { d.buffer with
            paddedNext := some (d.buffer.next + d.state.maxArrayLen * d.state.elementSize) } })
    else some (.ok () { d with state := { d.state with arrayLen := arrayLength } })
  else some (.ok () d)

theorem prepareForArray_eq (d : Deserializer) (arrayLength : Nat) (dynamicSizeType : SizeType) :
    prepareForArray d arrayLength dynamicSizeType =
      some (d.prepareForArray arrayLength dynamicSizeType) := by
  unfold prepareForArray Deserializer.prepareForArray
  split
  · split
    · apply Result.andThen_some
      · rw [determineArrayLengthFromReadBuffer_eq]
        rfl
      · intro _ d
        simp only
        split
        · rfl
        · split <;> rfl
    · rfl
  · rfl

/-- deserializer_unpack_scalar_value -/
def unpackScalarValue (d : Deserializer) : Option (Result Deserializer Unit) :=
  let d := { d with state := { d.state with value := .scalar .none } }
  Result.andThen ((readScalarValue d.state d.buffer).map fun result =>
    result.lift fun (st, b) => { d with state := st, buffer := b }) fun _ d =>
      some (d.state.setScalarValueFromStorage.lift fun st => { d with state := st })

theorem unpackScalarValue_eq (d : Deserializer) : unpackScalarValue d = some d.unpackScalarValue := by
  unfold unpackScalarValue Deserializer.unpackScalarValue
  apply Result.andThen_some
  · rw [readScalarValue_eq]
    rfl
  · intro _ d
    rfl

/-- The loop of deserializer_unpack_array_of_scalar -/
def unpackElements (d : Deserializer) (child : ReadState) (av : List Dv) :
    Nat → Option (Result Deserializer Unit)
  | 0 => some (.ok () { d with state := { d.state with value := .array av } })
  | count + 1 =>
      (readScalarValue child d.buffer).bind fun result =>
        match result with
        | .fail failure (_, b) =>
            some (.fail failure { d with state := { d.state with value := .array av }, buffer := b })
        | .ok _ (child, b) =>
          match ReadState.scalarFromStorage child.scalar with
          | none => some (.fail (.code .internal)
              { d with state := { d.state with value := .array av }, buffer := b })
          | some sv => unpackElements { d with buffer := b } child (av ++ [.scalar sv]) count

theorem unpackElements_eq (d : Deserializer) (child : ReadState) (av : List Dv) (count : Nat) :
    unpackElements d child av count = some (d.unpackElements child av count) := by
  induction count generalizing d child av with
  | zero => rfl
  | succ count ih =>
    rw [unpackElements, Deserializer.unpackElements, readScalarValue_eq, Option.bind_some]
    cases child.readScalarValue d.buffer with
    | fail failure read => rfl
    | ok _ read =>
      obtain ⟨child, b⟩ := read
      simp only
      cases ReadState.scalarFromStorage child.scalar with
      | none => rfl
      | some sv => exact ih _ _ _

/-- deserializer_unpack_array_of_scalar -/
def unpackArrayOfScalar (d : Deserializer) : Option (Result Deserializer Unit) :=
  unpackElements d ((ReadState.create d.memory).setTypeAndSize d.state.typeCode d.state.elementSize)
    [] d.state.arrayLen

/-- The loop of deserializer_unpack_string -/
def unpackCharacters (bytes : Bytes) (isDynamic : Bool) (adjusted next : Nat) (text : Bytes) :
    Nat → Option (Result Nat Bytes)
  | 0 => some (.ok text next)
  | count + 1 =>
      if next + 1 ≤ bytes.length then
        (load bytes next 1).bind fun data =>
          let c : Byte := data.headD 0
          if isDynamic = false ∧ c = 0 then some (.ok text adjusted)
          else unpackCharacters bytes isDynamic adjusted (next + 1) (text ++ [c]) count
      else some (.fail (.code .bufferBoundary) next)

theorem unpackCharacters_eq (bytes : Bytes) (isDynamic : Bool) (adjusted next : Nat) (text : Bytes)
    (count : Nat) :
    unpackCharacters bytes isDynamic adjusted next text count =
      some (Deserializer.unpackCharacters bytes isDynamic adjusted next text count) := by
  induction count generalizing next text with
  | zero => rfl
  | succ count ih =>
    rw [unpackCharacters, Deserializer.unpackCharacters]
    split
    next inside =>
      rw [load_one inside, Option.bind_some, List.getElem?_eq_getElem inside]
      simp only [List.headD_cons, ih]
      exact (apply_ite some _ _ _).symm
    next outside =>
      rw [List.getElem?_eq_none (by omega)]

/-- deserializer_unpack_string -/
def unpackString (d : Deserializer) : Option (Result Deserializer Unit) :=
  let d := { d with state := { d.state with value := .scalar .none } }
  (unpackCharacters d.buffer.bytes (d.state.dynamicSizeType ≠ .none)
      (d.buffer.next + d.state.arrayLen) d.buffer.next [] d.state.arrayLen).map fun result =>
    match result with
    | .fail failure next => .fail failure { d with buffer := { d.buffer with next := next } }
    | .ok text next =>
        .ok () { d with
          state := { d.state with value := .scalar (.str text) },
          buffer := { d.buffer with next := next } }

theorem unpackString_eq (d : Deserializer) : unpackString d = some d.unpackString := by
  unfold unpackString Deserializer.unpackString
  simp only
  rw [unpackCharacters_eq]
  rfl

/-- deserializer_unpack_byte_array_internal -/
def unpackByteArrayInternal (d : Deserializer) : Option (Result Deserializer Unit) :=
  let d := { d with state := { d.state with value := .scalar .none } }
  if d.buffer.next + d.state.arrayLen ≤ d.buffer.bytes.length then
    (load d.buffer.bytes d.buffer.next d.state.arrayLen).map fun data =>
      .ok () { d with
        state := { d.state with value := .scalar (.bytearray data) },
        buffer := { d.buffer with next := d.buffer.next + d.state.arrayLen } }
  else some (.fail (.code .bufferBoundary) d)

theorem unpackByteArrayInternal_eq (d : Deserializer) :
    unpackByteArrayInternal d = some d.unpackByteArrayInternal := by
  unfold unpackByteArrayInternal Deserializer.unpackByteArrayInternal
  simp only
  split
  next inside =>
    rw [load_inside inside]
    rfl
  · rfl

/-- deserializer_unpack_value on a state that is prepared -/
def unpackPrepared (d : Deserializer) : Option (Result Deserializer Unit) :=
  let popState (read : Option (Result Deserializer Unit)) : Option (Result Deserializer Unit) :=
    Result.andThen read fun _ d => some d.popState
  if d.queuedReadState.isActive ∧ d.queuedReadState.index ≥ d.queuedReadState.currentLength then
    some (.fail (.code .index) d)
  else if d.state.arrayLen = 0 then
    if d.state.dynamicSizeType ≠ .none then some (.fail (.code .invalidArgument) d)
    else if d.state.isNumOrBoolType ∨ d.state.isByteType then popState (unpackScalarValue d)
    else if d.state.isRecordType then some (.ok () d.unpackRecordValue)
    else some (.fail (.code .notImplemented) d)
  else if d.state.isNumOrBoolType then popState (unpackArrayOfScalar d)
  else if d.state.isCharType then popState (unpackString d)
  else if d.state.isByteType then popState (unpackByteArrayInternal d)
  else if d.state.isRecordType then some (.ok () d.unpackRecordValue)
  else some (.fail (.code .notImplemented) d)

theorem unpackPrepared_eq (d : Deserializer) : unpackPrepared d = some d.unpackPrepared := by
  have popped {read : Option (Result Deserializer Unit)} {result : Result Deserializer Unit}
      (same : read = some result) :
      Result.andThen read (fun _ d => some d.popState) = some (result.bind fun _ d => d.popState) :=
    Result.andThen_some same fun _ _ => rfl
  unfold unpackPrepared Deserializer.unpackPrepared
  simp only [popped (unpackScalarValue_eq d), popped (unpackString_eq d),
    popped (unpackByteArrayInternal_eq d),
    popped (show unpackArrayOfScalar d = some d.unpackArrayOfScalar from unpackElements_eq _ _ _ _)]
  simp only [apply_ite some]

/-- The body that the functions apx_vm_deserializer_unpack_uint8 and so on share. -/
def unpackAs (typeCode : TypeCode) (elementSize : Nat) (d : Deserializer) (arrayLength : Nat)
    (dynamicSizeType : SizeType) : Option (Result Deserializer Unit) :=
  Result.andThen (some (d.prepareForBufferRead typeCode elementSize)) fun _ d =>
    Result.andThen (prepareForArray d arrayLength dynamicSizeType) fun _ d => unpackPrepared d

theorem unpackAs_eq (typeCode : TypeCode) (elementSize : Nat) (d : Deserializer) (arrayLength : Nat)
    (dynamicSizeType : SizeType) :
    unpackAs typeCode elementSize d arrayLength dynamicSizeType =
      some (Deserializer.unpackAs typeCode elementSize d arrayLength dynamicSizeType) := by
  apply Result.andThen_some rfl
  intro _ d
  exact Result.andThen_some (prepareForArray_eq d arrayLength dynamicSizeType) fun _ d =>
    unpackPrepared_eq d

/-- apx_vm_deserializer_queued_read_begin -/
def queuedReadBegin (d : Deserializer) (elementSize maxLength : Nat) :
    Option (Result Deserializer Unit) :=
  if elementSize > 0 ∧ maxLength > 0 then
    let sizeType := sizeToSizeType maxLength
    let d := { d with queuedReadState := { d.queuedReadState with
      elementSize := elementSize, maxLength := maxLength, isActive := true, index := 0,
      sizeType := sizeType } }
    (parseUInt32BySizeType d.buffer.bytes d.buffer.next sizeType).map fun parsed =>
      match parsed with
      | some (number, next) =>
          .ok () { d with
            queuedReadState := { d.queuedReadState with currentLength := number.toNat },
            buffer := { d.buffer with next := next } }
      | none => if d.buffer.bytes = [] then .ok () d else .fail (.code .bufferBoundary) d
  else some (.fail (.code .invalidArgument) d)

theorem queuedReadBegin_eq (d : Deserializer) (elementSize maxLength : Nat) :
    queuedReadBegin d elementSize maxLength = some (d.queuedReadBegin elementSize maxLength) := by
  unfold queuedReadBegin Deserializer.queuedReadBegin
  simp only
  split
  · rw [parseUInt32BySizeType_eq]
    rfl
  · rfl

end Checked

end Apx
