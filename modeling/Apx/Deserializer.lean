import Apx.ScalarSlot

/-! The deserializer (deserializer.c): values from a read buffer. A position in the buffer
is its offset from `begin`, and `end` is the length of the buffer. -/

namespace Apx

open LittleEndian Vm

/-- apx_vm_readState_t. The value union and its tag value_type are one value here. -/
structure ReadState where
  value : Dv := .null
  scalar : ScalarSlot := {}
  fieldName : Bytes := []
  index : Nat := 0
  arrayLen : Nat := 0
  maxArrayLen : Nat := 0
  elementSize : Nat := 0
  typeCode : TypeCode := .none
  isLastField : Bool := false
  dynamicSizeType : SizeType := .none
  rangeCheckState : RangeCheckState := .notChecked
  deriving Repr

/-- apx_vm_readBuffer_t. A buffer that was never set has no bytes; a buffer that was set
has at least one. -/
structure ReadBuffer where
  bytes : Bytes := []
  next : Nat := 0
  paddedNext : Option Nat := none
  deriving DecidableEq, Repr

/-- apx_vm_queuedReadState_t -/
structure QueuedReadState where
  maxLength : Nat := 0
  currentLength : Nat := 0
  elementSize : Nat := 0
  index : Nat := 0
  sizeType : SizeType := .none
  isActive : Bool := false
  deriving DecidableEq, Repr

/-- apx_vm_deserializer_t. `memory` is what a newly allocated state holds in the part of its
scalar union that state_create does not assign. -/
structure Deserializer where
  stack : List ReadState := []
  buffer : ReadBuffer := {}
  queuedReadState : QueuedReadState := {}
  state : ReadState := {}
  memory : ScalarWord := 0
  deriving Repr

/-- read_buffer_is_valid -/
def ReadBuffer.isValid (b : ReadBuffer) : Bool := b.bytes.length > 0 && b.next ≤ b.bytes.length

namespace ReadState

/-- state_create in newly allocated memory -/
def create (memory : ScalarWord) : ReadState := { scalar := { value := memory.setLow 0 } }

/-- state_reset -/
def reset (st : ReadState) : ReadState := { scalar := st.scalar.reset }

/-- state_set_type_and_size -/
def setTypeAndSize (st : ReadState) (typeCode : TypeCode) (elementSize : Nat) : ReadState :=
  { st with typeCode := typeCode, elementSize := elementSize }

/-- state_is_num_or_bool_type -/
def isNumOrBoolType (st : ReadState) : Bool :=
  match st.typeCode with
  | .uint8 | .uint16 | .uint32 | .uint64 | .int8 | .int16 | .int32 | .int64 | .bool => true
  | .char => st.arrayLen == 0
  | _ => false

/-- state_is_record_type -/
def isRecordType (st : ReadState) : Bool := st.typeCode == .record

/-- state_is_char_type -/
def isCharType (st : ReadState) : Bool :=
  match st.typeCode with
  | .char | .char8 | .char16 | .char32 => true
  | _ => false

/-- state_is_byte_type -/
def isByteType (st : ReadState) : Bool := st.typeCode == .byte

/-- The scalar that the switch of state_read_scalar_value stores for `data`, the bytes at the
read position. -/
def storedScalar (slot : ScalarSlot) (typeCode : TypeCode) (data : Bytes) : Option ScalarSlot :=
  let number := unpackLE data
  let first : Byte := data.headD 0
  match typeCode with
  | .uint8 => some ⟨slot.value.setLow (BitVec.ofNat 32 first.toNat), .uint32⟩
  | .uint16 | .uint32 => some ⟨slot.value.setLow (BitVec.ofNat 32 number), .uint32⟩
  | .uint64 => some ⟨BitVec.ofNat 64 number, .uint64⟩
  | .int8 => some ⟨slot.value.setLow ((BitVec.ofNat 8 first.toNat).signExtend 32), .int32⟩
  | .int16 => some ⟨slot.value.setLow ((BitVec.ofNat 16 number).signExtend 32), .int32⟩
  | .int32 => some ⟨slot.value.setLow (BitVec.ofNat 32 number), .int32⟩
  | .int64 => some ⟨BitVec.ofNat 64 number, .int64⟩
  | .char => some ⟨slot.value.setByte first, .char⟩
  | .char8 | .char16 | .char32 => some ⟨slot.value.setLow (BitVec.ofNat 32 first.toNat), .uint32⟩
  | .bool => some ⟨slot.value.setByte (if first = 0 then 0 else 1), .bool⟩
  | .byte => some ⟨slot.value.setByte first, .byte⟩
  | _ => none

/-- state_read_scalar_value -/
def readScalarValue (st : ReadState) (b : ReadBuffer) : Result (ReadState × ReadBuffer) Unit :=
  if st.elementSize = 0 then .fail .assertion (st, b)
  else if st.elementSize > b.bytes.length - b.next then .fail (.code .bufferBoundary) (st, b)
  else
    match storedScalar st.scalar st.typeCode (slice b.bytes b.next st.elementSize) with
    | some scalar => .ok () ({ st with scalar := scalar }, { b with next := b.next + st.elementSize })
    | none => .fail (.code .unsupported) (st, b)

/-- The lowest byte of the union: cr, bl and byte -/
def lowByte (w : ScalarWord) : Byte := UInt8.ofNat w.toNat

/-- The scalar value that state_set_scalar_value_from_storage makes. -/
def scalarFromStorage (slot : ScalarSlot) : Option Sv :=
  match slot.storageType with
  | .none => none
  | .int32 => some (.i32 slot.value.low)
  | .uint32 => some (.u32 slot.value.low)
  | .int64 => some (.i64 slot.value)
  | .uint64 => some (.u64 slot.value)
  | .bool => some (.bool (lowByte slot.value != 0))
  | .char => some (.char (lowByte slot.value))
  | .byte => some (.bytearray [lowByte slot.value])

/-- state_set_scalar_value_from_storage -/
def setScalarValueFromStorage (st : ReadState) : Result ReadState Unit :=
  match scalarFromStorage st.scalar with
  | some sv => .ok () { st with value := .scalar sv }
  | none => .fail (.code .internal) st

/-- state_determine_array_length_from_read_buffer -/
def determineArrayLengthFromReadBuffer (st : ReadState) (b : ReadBuffer) :
    Result (ReadState × ReadBuffer) Unit :=
  if st.dynamicSizeType = .none then .fail (.code .invalidArgument) (st, b)
  else
    match parseUInt32BySizeType b.bytes b.next st.dynamicSizeType with
    | some (number, next) => .ok () ({ st with arrayLen := number.toNat }, { b with next := next })
    | none => .fail (.code .bufferBoundary) (st, b)

/-- state_store_scalar_value -/
def storeScalarValue (dtl : Dtl) (st : ReadState) (sv : Sv) (typeCode : TypeCode) :
    Result ReadState Unit :=
  (st.scalar.load dtl sv typeCode).lift fun scalar => { st with scalar := scalar }

/-- state_store_scalar_array_value, on the element that dtl_av_value returns for its index -/
def storeScalarElement (dtl : Dtl) (st : ReadState) (dv : Dv) (typeCode : TypeCode) :
    Result ReadState Unit :=
  match dv with
  | .scalar sv => storeScalarValue dtl st sv typeCode
  | _ => .fail (.code .valueType) st

/-- state_create_child_value_from_child_state -/
def createChildValueFromChildState (st : ReadState) (hv : List (Bytes × Dv)) (child : ReadState) :
    Result ReadState Unit :=
  if st.fieldName = [] then .fail (.code .nameMissing) st
  else
    match child.value with
    | .null => .fail (.code .valueType) st
    | dv => .ok () { st with value := .hash (Hash.set hv st.fieldName dv) }

/-- state_push_value_from_child_state -/
def pushValueFromChildState (st : ReadState) (av : List Dv) (child : ReadState) :
    Result ReadState Unit :=
  match child.value with
  | .null => .fail (.code .valueType) st
  | dv => .ok () { st with value := .array (av ++ [dv]) }

end ReadState

namespace Deserializer

/-- apx_vm_deserializer_create -/
def create (memory : ScalarWord) : Deserializer :=
  { state := ReadState.create memory, memory := memory }

/-- apx_vm_deserializer_set_read_buffer -/
def setReadBuffer (d : Deserializer) (data : Bytes) : Result Deserializer Unit :=
  if data.length > 0 then .ok () { d with buffer := { bytes := data } }
  else .fail (.code .invalidArgument) d

/-- apx_vm_deserializer_bytes_read -/
def bytesRead (d : Deserializer) : Nat := d.buffer.next

/-- deserializer_enter_new_child_state -/
def enterNewChildState (d : Deserializer) : Deserializer :=
  { d with stack := d.state :: d.stack, state := ReadState.create d.memory }

/-- deserializer_pop_state: hands the value of the state to its parent, and goes on from
every parent that it was the last field of. -/
def popLoop (d : Deserializer) : List ReadState → Result Deserializer Unit
  | [] => .ok () { d with stack := [] }
  | top :: rest =>
      let child := d.state
      let d := { d with state := top, stack := rest }
      let handed : Result ReadState Unit :=
        if top.typeCode = .record then
          match top.value with
          | .hash hv => top.createChildValueFromChildState hv child
          | .array av => top.pushValueFromChildState av child
          | _ => .fail (.code .notImplemented) top
        else .fail (.code .notImplemented) top
      match handed with
      | .fail failure st => .fail failure { d with state := st }
      | .ok _ st =>
        if st.isLastField then popLoop { d with state := st } rest
        else .ok () { d with state := st }

def popState (d : Deserializer) : Result Deserializer Unit := popLoop d d.stack

/-- deserializer_prepare_for_buffer_read -/
def prepareForBufferRead (d : Deserializer) (typeCode : TypeCode) (elementSize : Nat) :
    Result Deserializer Unit :=
  if d.buffer.isValid = false then .fail (.code .missingBuffer) d
  else
    let typed (d : Deserializer) : Deserializer :=
      { d with state := d.state.reset.setTypeAndSize typeCode elementSize }
    match d.buffer.paddedNext with
    | some padded =>
        if padded > d.buffer.bytes.length then .fail (.code .bufferBoundary) d
        else .ok () (typed { d with buffer := { d.buffer with next := padded, paddedNext := none } })
    | none => .ok () (typed d)

/-- deserializer_prepare_for_array -/
def prepareForArray (d : Deserializer) (arrayLength : Nat) (dynamicSizeType : SizeType) :
    Result Deserializer Unit :=
  if arrayLength > 0 then
    if dynamicSizeType ≠ .none then
      let d := { d with state := { d.state with
        dynamicSizeType := dynamicSizeType, maxArrayLen := arrayLength } }
      ((d.state.determineArrayLengthFromReadBuffer d.buffer).lift
        fun (st, b) => { d with state := st, buffer := b }).bind fun _ d =>
        if d.state.arrayLen > d.state.maxArrayLen then .fail (.code .valueLength) d
        else if d.state.elementSize = 0 then .fail .assertion d
        else
          -- this product is taken in size_t
          .ok () { d with buffer := { d.buffer with
            paddedNext := some (d.buffer.next + d.state.maxArrayLen * d.state.elementSize) } }
    else .ok () { d with state := { d.state with arrayLen := arrayLength } }
  else .ok () d

/-- deserializer_unpack_scalar_value, on a scalar value that state_init_scalar_value made -/
def unpackScalarValue (d : Deserializer) : Result Deserializer Unit :=
  let d := { d with state := { d.state with value := .scalar .none } }
  ((d.state.readScalarValue d.buffer).lift fun (st, b) => { d with state := st, buffer := b }).bind
    fun _ d => d.state.setScalarValueFromStorage.lift fun st => { d with state := st }

/-- deserializer_unpack_record_value, which returns APX_NO_ERROR in any case -/
def unpackRecordValue (d : Deserializer) : Deserializer :=
  if d.state.arrayLen > 0 then
    let d := { d with state := { d.state with value := .array [] } }
    let d := d.enterNewChildState
    { d with state := { d.state with value := .hash [] }.setTypeAndSize .record 0 }
  else { d with state := { d.state with value := .hash [] } }

/-- The loop of deserializer_unpack_array_of_scalar: `child` is its local state and `av` the
elements pushed so far. -/
def unpackElements (d : Deserializer) (child : ReadState) (av : List Dv) :
    Nat → Result Deserializer Unit
  | 0 => .ok () { d with state := { d.state with value := .array av } }
  | count + 1 =>
      match child.readScalarValue d.buffer with
      | .fail failure (_, b) =>
          .fail failure { d with state := { d.state with value := .array av }, buffer := b }
      | .ok _ (child, b) =>
        match ReadState.scalarFromStorage child.scalar with
        | none => .fail (.code .internal)
            { d with state := { d.state with value := .array av }, buffer := b }
        | some sv => unpackElements { d with buffer := b } child (av ++ [.scalar sv]) count

/-- deserializer_unpack_array_of_scalar -/
def unpackArrayOfScalar (d : Deserializer) : Result Deserializer Unit :=
  d.unpackElements ((ReadState.create d.memory).setTypeAndSize d.state.typeCode d.state.elementSize)
    [] d.state.arrayLen

/-- The loop of deserializer_unpack_string over the characters that are left. `adjusted` is
adjusted_next, where a zero in a string that is not dynamic makes the read position jump. -/
def unpackCharacters (bytes : Bytes) (isDynamic : Bool) (adjusted next : Nat) (text : Bytes) :
    Nat → Result Nat Bytes
  | 0 => .ok text next
  | count + 1 =>
      match bytes[next]? with
      | none => .fail (.code .bufferBoundary) next
      | some c =>
        if isDynamic = false ∧ c = 0 then .ok text adjusted
        else unpackCharacters bytes isDynamic adjusted (next + 1) (text ++ [c]) count

/-- deserializer_unpack_string -/
def unpackString (d : Deserializer) : Result Deserializer Unit :=
  let d := { d with state := { d.state with value := .scalar .none } }
  match unpackCharacters d.buffer.bytes (d.state.dynamicSizeType ≠ .none)
      (d.buffer.next + d.state.arrayLen) d.buffer.next [] d.state.arrayLen with
  | .fail failure next => .fail failure { d with buffer := { d.buffer with next := next } }
  | .ok text next =>
      .ok () { d with
        state := { d.state with value := .scalar (.str text) },
        buffer := { d.buffer with next := next } }

/-- deserializer_unpack_byte_array_internal -/
def unpackByteArrayInternal (d : Deserializer) : Result Deserializer Unit :=
  let d := { d with state := { d.state with value := .scalar .none } }
  if d.buffer.next + d.state.arrayLen ≤ d.buffer.bytes.length then
    .ok () { d with
      state := { d.state with
        value := .scalar (.bytearray (slice d.buffer.bytes d.buffer.next d.state.arrayLen)) },
      buffer := { d.buffer with next := d.buffer.next + d.state.arrayLen } }
  else .fail (.code .bufferBoundary) d

/-- deserializer_unpack_value on a state that is prepared -/
def unpackPrepared (d : Deserializer) : Result Deserializer Unit :=
  if d.queuedReadState.isActive ∧ d.queuedReadState.index ≥ d.queuedReadState.currentLength then
    .fail (.code .index) d
  else if d.state.arrayLen = 0 then
    if d.state.dynamicSizeType ≠ .none then .fail (.code .invalidArgument) d
    else if d.state.isNumOrBoolType ∨ d.state.isByteType then
      d.unpackScalarValue.bind fun _ d => d.popState
    else if d.state.isRecordType then .ok () d.unpackRecordValue
    else .fail (.code .notImplemented) d
  else if d.state.isNumOrBoolType then d.unpackArrayOfScalar.bind fun _ d => d.popState
  else if d.state.isCharType then d.unpackString.bind fun _ d => d.popState
  else if d.state.isByteType then d.unpackByteArrayInternal.bind fun _ d => d.popState
  else if d.state.isRecordType then .ok () d.unpackRecordValue
  else .fail (.code .notImplemented) d

/-- deserializer_unpack_value -/
def unpackValue (d : Deserializer) (arrayLength : Nat) (dynamicSizeType : SizeType) :
    Result Deserializer Unit :=
  (d.prepareForArray arrayLength dynamicSizeType).bind fun _ d => d.unpackPrepared

/-- The body that the functions apx_vm_deserializer_unpack_uint8 and so on share. -/
def unpackAs (typeCode : TypeCode) (elementSize : Nat) (d : Deserializer) (arrayLength : Nat)
    (dynamicSizeType : SizeType) : Result Deserializer Unit :=
  (d.prepareForBufferRead typeCode elementSize).bind fun _ d =>
    d.unpackValue arrayLength dynamicSizeType

def unpackUInt8 := unpackAs .uint8 1
def unpackUInt16 := unpackAs .uint16 2
def unpackUInt32 := unpackAs .uint32 4
def unpackUInt64 := unpackAs .uint64 8
def unpackInt8 := unpackAs .int8 1
def unpackInt16 := unpackAs .int16 2
def unpackInt32 := unpackAs .int32 4
def unpackInt64 := unpackAs .int64 8
def unpackChar := unpackAs .char 1
def unpackChar8 := unpackChar
def unpackBool := unpackAs .bool 1
def unpackByte := unpackAs .byte 1
def unpackRecord := unpackAs .record 0

/-- apx_vm_deserializer_record_select -/
def recordSelect (d : Deserializer) (key : Bytes) (isLastField : Bool) : Result Deserializer Unit :=
  match d.state.value with
  | .hash _ =>
    let d := { d with state := { d.state with isLastField := isLastField, fieldName := key } }
    .ok () d.enterNewChildState
  | _ => .fail (.code .valueType) d

/-- The loop of the range checks over the elements of an array -/
def checkElements (dtl : Dtl) (typeCode : TypeCode) (inRange : ScalarWord → Bool) (st : ReadState) :
    List Dv → Result ReadState Unit
  | [] => .ok () st
  | dv :: rest =>
      match st.storeScalarElement dtl dv typeCode with
      | .fail failure st => .fail failure { st with rangeCheckState := .fail }
      | .ok _ st =>
        if inRange st.scalar.value then checkElements dtl typeCode inRange st rest
        else .fail (.code .valueRange) { st with rangeCheckState := .fail }

/-- The body that the four functions apx_vm_deserializer_check_value_range share: the type
code by which they read a scalar, and the one by which they read the elements of an array. -/
def checkValueRange (dtl : Dtl) (scalarCode elementCode : TypeCode) (inRange : ScalarWord → Bool)
    (d : Deserializer) : Result Deserializer Unit :=
  match d.state.value with
  | .scalar sv =>
    match d.state.storeScalarValue dtl sv scalarCode with
    | .fail failure st => .fail failure { d with state := { st with rangeCheckState := .fail } }
    | .ok _ st =>
      if inRange st.scalar.value then .ok () { d with state := { st with rangeCheckState := .ok } }
      else .fail (.code .valueRange) { d with state := { st with rangeCheckState := .fail } }
  | .array av =>
    (checkElements dtl elementCode inRange { d.state with rangeCheckState := .ok } av).lift
      fun st => { d with state := st }
  | _ => .fail (.code .unsupported) d

/-- apx_vm_deserializer_check_value_range_int32 -/
def checkValueRangeInt32 (dtl : Dtl) (d : Deserializer) (lower upper : BitVec 32) :
    Result Deserializer Unit :=
  checkValueRange dtl .int32 .int32 (fun w => valueInRangeI32 w.low lower upper) d

/-- apx_vm_deserializer_check_value_range_uint32, which calls apx_vm_value_in_range_i32 -/
def checkValueRangeUInt32 (dtl : Dtl) (d : Deserializer) (lower upper : BitVec 32) :
    Result Deserializer Unit :=
  checkValueRange dtl .uint32 .uint32 (fun w => valueInRangeI32 w.low lower upper) d

/-- apx_vm_deserializer_check_value_range_int64, which reads elements as 32-bit numbers -/
def checkValueRangeInt64 (dtl : Dtl) (d : Deserializer) (lower upper : BitVec 64) :
    Result Deserializer Unit :=
  checkValueRange dtl .int64 .int32 (fun w => valueInRangeI64 w lower upper) d

/-- apx_vm_deserializer_check_value_range_uint64, which reads signed numbers, and elements as
32-bit ones -/
def checkValueRangeUInt64 (dtl : Dtl) (d : Deserializer) (lower upper : BitVec 64) :
    Result Deserializer Unit :=
  checkValueRange dtl .int64 .int32 (fun w => valueInRangeU64 w lower upper) d

/-- apx_vm_deserializer_array_next: whether the array is at its end -/
def arrayNext (d : Deserializer) : Result Deserializer Bool :=
  match d.state.value with
  | .array _ =>
    if d.state.arrayLen > 0 then
      let index := u32 (d.state.index + 1)
      let d := { d with state := { d.state with index := index } }
      if index = d.state.arrayLen then .ok true d
      else if d.state.typeCode = .record then
        let d := d.enterNewChildState
        .ok false { d with state := { d.state with value := .hash [] }.setTypeAndSize .record 0 }
      else .fail (.code .notImplemented) d
    else .fail (.code .internal) d
  | _ => .fail (.code .valueType) d

/-- apx_vm_deserializer_queued_read_begin. Where no buffer was set, the null pointer that the
parser returns is not behind the read position, which is null as well. -/
def queuedReadBegin (d : Deserializer) (elementSize maxLength : Nat) : Result Deserializer Unit :=
  if elementSize > 0 ∧ maxLength > 0 then
    let sizeType := sizeToSizeType maxLength
    let d := { d with queuedReadState := { d.queuedReadState with
      elementSize := elementSize, maxLength := maxLength, isActive := true, index := 0,
      sizeType := sizeType } }
    match parseUInt32BySizeType d.buffer.bytes d.buffer.next sizeType with
    | some (number, next) =>
        .ok () { d with
          queuedReadState := { d.queuedReadState with currentLength := number.toNat },
          buffer := { d.buffer with next := next } }
    | none => if d.buffer.bytes = [] then .ok () d else .fail (.code .bufferBoundary) d
  else .fail (.code .invalidArgument) d

/-- apx_vm_deserializer_queued_read_next: whether the element read last was the last one -/
def queuedReadNext (d : Deserializer) : Result Deserializer Bool :=
  if d.queuedReadState.isActive then
    let index := u32 (d.queuedReadState.index + 1)
    if index ≥ d.queuedReadState.currentLength then
      .ok true { d with queuedReadState :=
        { d.queuedReadState with index := index, isActive := false } }
    else .ok false { d with queuedReadState := { d.queuedReadState with index := index } }
  else .fail (.code .internal) d

end Deserializer

end Apx
