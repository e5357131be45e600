import Apx.ScalarSlot

/-! The serializer (serializer.c): values into a write buffer. A position in the buffer is
its offset from `begin`, and `end` is the length of the buffer. -/

namespace Apx

open LittleEndian Vm

/-- apx_vm_writeState_t. The value union and its tag value_type are one value here. -/
structure WriteState where
  value : Dv := .null
  scalar : ScalarSlot := {}
  fieldName : Bytes := []
  index : Nat := 0
  arrayLen : Nat := 0
  maxArrayLen : Nat := 0
  elementSize : Nat := 0
  typeCode : TypeCode := .none
  isLastField : Bool := false
  dynamicSizeType : SizeType := .none
  rangeCheckState : RangeCheckState := .notChecked
  deriving Repr

/-- apx_vm_writeBuffer_t. A buffer that was never set has no bytes; a buffer that was set
has at least one. -/
structure WriteBuffer where
  bytes : Bytes := []
  next : Nat := 0
  paddedNext : Option Nat := none
  deriving DecidableEq, Repr

/-- apx_vm_queuedWriteState_t -/
structure QueuedWriteState where
  maxLength : Nat := 0
  currentLength : Nat := 0
  elementSize : Nat := 0
  lengthPtr : Nat := 0
  sizeType : SizeType := .none
  isActive : Bool := false
  deriving DecidableEq, Repr

/-- apx_vm_serializer_t -/
structure Serializer where
  stack : List WriteState := []
  state : WriteState := {}
  buffer : WriteBuffer := {}
  queuedWriteState : QueuedWriteState := {}
  deriving Repr

/-- write_buffer_is_valid -/
def WriteBuffer.isValid (b : WriteBuffer) : Bool := b.bytes.length > 0 && b.next ≤ b.bytes.length

/-- packLE at the write position, which then moves behind the bytes -/
def WriteBuffer.write (b : WriteBuffer) (data : Bytes) : WriteBuffer :=
  { b with bytes := splice b.bytes b.next data, next := b.next + data.length }

namespace WriteState

/-- state_set_value, which resets the state first -/
def setValue (st : WriteState) (dv : Dv) : WriteState :=
  { value := dv, scalar := st.scalar.reset }

/-- state_determine_array_length_from_value -/
def determineArrayLengthFromValue (dtl : Dtl) (st : WriteState) : Result WriteState Unit :=
  match st.value with
  | .scalar (.str text) =>
      let (value, ok) := dtl.toStr (.str text)
      if ok then .ok () { st with arrayLen := value.length }
      else .fail (.code .valueConversion) st
  | .scalar (.bytearray value) => .ok () { st with arrayLen := value.length }
  | .scalar _ => .ok () st
  | .array av => .ok () { st with arrayLen := av.length }
  | _ => .fail (.code .valueType) st

/-- state_is_num_or_bool_type -/
def isNumOrBoolType (st : WriteState) : Bool :=
  match st.typeCode with
  | .uint8 | .uint16 | .uint32 | .uint64 | .int8 | .int16 | .int32 | .int64 | .bool => true
  | _ => false

/-- state_is_record_type -/
def isRecordType (st : WriteState) : Bool := st.typeCode == .record

/-- state_is_char_type -/
def isCharType (st : WriteState) : Bool :=
  match st.typeCode with
  | .char | .char8 | .char16 | .char32 => true
  | _ => false

/-- state_is_bytes_type -/
def isBytesType (st : WriteState) : Bool := st.typeCode == .byte

/-- state_read_scalar_value_internal -/
def readScalarInternal (dtl : Dtl) (st : WriteState) (sv : Sv) (typeCode : TypeCode) :
    Result WriteState Unit :=
  (st.scalar.load dtl sv typeCode).lift fun scalar => { st with scalar := scalar }

/-- state_read_scalar_value -/
def readScalarValue (dtl : Dtl) (st : WriteState) (typeCode : TypeCode) : Result WriteState Unit :=
  match st.value with
  | .scalar sv => readScalarInternal dtl st sv typeCode
  | _ => .fail (.code .valueType) st

/-- state_read_scalar_array_value, on the element that dtl_av_value returns for its index -/
def readScalarElement (dtl : Dtl) (st : WriteState) (dv : Dv) (typeCode : TypeCode) :
    Result WriteState Unit :=
  match dv with
  | .scalar sv => readScalarInternal dtl st sv typeCode
  | _ => .fail (.code .valueType) st

/-- state_default_range_check_scalar -/
def defaultRangeCheckScalar (st : WriteState) : Result WriteState Unit :=
  let check (expected : ScalarStorageType) (inRange : Bool) : Result WriteState Unit :=
    if st.scalar.storageType = expected then
      if inRange then .ok () st else .fail (.code .valueRange) st
    else .fail (.code .valueType) st
  match st.typeCode with
  | .bool => .ok () st
  | .uint8 => check .uint32 (valueInRangeU32 st.scalar.value.low 0 255)
  | .uint16 => check .uint32 (valueInRangeU32 st.scalar.value.low 0 65535)
  | .uint32 => check .uint32 (valueInRangeU32 st.scalar.value.low 0 4294967295)
  | .uint64 => check .uint64 (valueInRangeU64 st.scalar.value 0 18446744073709551615)
  | .int8 => check .int32 (valueInRangeI32 st.scalar.value.low (-128) 127)
  | .int16 => check .int32 (valueInRangeI32 st.scalar.value.low (-32768) 32767)
  | .int32 => check .int32 (valueInRangeI32 st.scalar.value.low (-2147483648) 2147483647)
  | .int64 =>
      check .int64 (valueInRangeI64 st.scalar.value (-9223372036854775808) 9223372036854775807)
  | _ => .fail (.code .valueType) st

/-- The loop of state_default_range_check_value over the elements of an array. An element
that cannot be read does not end the loop; its error is lost when the next one can. -/
def defaultRangeCheckElements (dtl : Dtl) (st : WriteState) (last : Result WriteState Unit) :
    List Dv → Result WriteState Unit
  | [] => last
  | dv :: rest =>
      match readScalarElement dtl st dv st.typeCode with
      | .fail failure st => defaultRangeCheckElements dtl st (.fail failure st) rest
      | .ok _ st =>
        match defaultRangeCheckScalar st with
        | .fail failure st => .fail failure st
        | .ok _ st => defaultRangeCheckElements dtl st (.ok () st) rest

/-- state_default_range_check_value -/
def defaultRangeCheckValue (dtl : Dtl) (st : WriteState) : Result WriteState Unit :=
  match st.value with
  | .scalar _ =>
      (readScalarValue dtl st st.typeCode).bind fun _ st => defaultRangeCheckScalar st
  | .array av => defaultRangeCheckElements dtl st (.ok () st) av
  | _ => .fail (.code .unsupported) st

end WriteState

namespace Serializer

/-- apx_vm_serializer_create -/
def create : Serializer := {}

/-- apx_vm_serializer_set_write_buffer -/
def setWriteBuffer (s : Serializer) (data : Bytes) : Result Serializer Unit :=
  if data.length > 0 then .ok () { s with buffer := { bytes := data } }
  else .fail (.code .invalidArgument) s

/-- apx_vm_serializer_bytes_written -/
def bytesWritten (s : Serializer) : Nat := s.buffer.next

/-- apx_vm_serializer_set_value_dv -/
def setValueDv (s : Serializer) (dv : Dv) : Serializer := { s with state := s.state.setValue dv }

/-- serializer_enter_new_child_state -/
def enterNewChildState (s : Serializer) : Serializer :=
  { s with stack := s.state :: s.stack, state := {} }

/-- serializer_pop_state: closes the state and every parent that it was the last field of. -/
def popLoop (s : Serializer) : List WriteState → Serializer
  | [] => { s with stack := [] }
  | top :: rest =>
      if top.isLastField then popLoop { s with state := top } rest
      else { s with state := top, stack := rest }

def popState (s : Serializer) : Serializer := popLoop s s.stack

/-- serializer_prepare_for_buffer_write -/
def prepareForBufferWrite (s : Serializer) (typeCode : TypeCode) (elementSize : Nat) :
    Result Serializer Unit :=
  if s.buffer.isValid = false then .fail (.code .missingBuffer) s
  else
    let typed (s : Serializer) : Serializer :=
      { s with state := { s.state with typeCode := typeCode, elementSize := elementSize } }
    match s.buffer.paddedNext with
    | some padded =>
        if padded > s.buffer.bytes.length then .fail (.code .bufferBoundary) s
        else .ok () (typed { s with buffer := { s.buffer with next := padded, paddedNext := none } })
    | none => .ok () (typed s)

/-- serializer_prepare_for_array -/
def prepareForArray (dtl : Dtl) (s : Serializer) (arrayLength : Nat) (dynamicSizeType : SizeType) :
    Result Serializer Unit :=
  if arrayLength > 0 then
    if dynamicSizeType ≠ .none then
      let lengthSize := sizeTypeToSize dynamicSizeType
      let s := { s with state := { s.state with maxArrayLen := arrayLength } }
      (s.state.determineArrayLengthFromValue dtl |>.lift fun st => { s with state := st }).bind
        fun _ s =>
        if s.state.arrayLen > s.state.maxArrayLen then .fail (.code .valueLength) s
        else
          let s := { s with state := { s.state with dynamicSizeType := dynamicSizeType } }
          if s.state.elementSize = 0 then .fail .assertion s
          else
            -- the product of two uint32_t is an uint32_t
            let padded := s.buffer.next + lengthSize + u32 (s.state.maxArrayLen * s.state.elementSize)
            let s := { s with buffer := { s.buffer with paddedNext := some padded } }
            if padded > s.buffer.bytes.length then .fail (.code .bufferBoundary) s else .ok () s
    else .ok () { s with state := { s.state with arrayLen := arrayLength } }
  else .ok () s

/-- serializer_write_dynamic_value_to_buffer -/
def writeDynamicValueToBuffer (s : Serializer) (value valueSize : Nat) : Result Serializer Unit :=
  if (valueSize = 1 ∧ value > uint8Max) ∨ (valueSize = 2 ∧ value > uint16Max) then
    .fail (.code .length) s
  else if valueSize ≠ 1 ∧ valueSize ≠ 2 ∧ valueSize ≠ 4 then .fail (.code .internal) s
  else if s.buffer.next + valueSize ≤ s.buffer.bytes.length then
    .ok () { s with buffer := s.buffer.write (packLE value valueSize) }
  else .fail (.code .bufferFull) s

/-- serializer_pack_scalar_value_internal -/
def packScalarValueInternal (s : Serializer) : Result Serializer Unit :=
  let put (storage : ScalarStorageType) (size value : Nat) : Result Serializer Unit :=
    if s.state.scalar.storageType = storage ∧ s.state.elementSize = size then
      .ok () { s with buffer := s.buffer.write (packLE value size) }
    else .fail .assertion s
  if s.buffer.next + s.state.elementSize ≤ s.buffer.bytes.length then
    match s.state.typeCode with
    | .uint8 => put .uint32 1 s.state.scalar.value.low.toNat
    | .uint16 => put .uint32 2 s.state.scalar.value.low.toNat
    | .uint32 => put .uint32 4 s.state.scalar.value.low.toNat
    | .uint64 => put .uint64 8 s.state.scalar.value.toNat
    | .int8 => put .int32 1 s.state.scalar.value.low.toNat
    | .int16 => put .int32 2 s.state.scalar.value.low.toNat
    | .int32 => put .int32 4 s.state.scalar.value.low.toNat
    | .int64 => put .int64 8 s.state.scalar.value.toNat
    -- the part bl of the union is its lowest byte
    | .bool => put .bool 1 (if s.state.scalar.value.toNat % 256 ≠ 0 then 1 else 0)
    | _ => .fail (.code .unsupported)
        { s with buffer := { s.buffer with next := s.buffer.next + s.state.elementSize } }
  else .fail (.code .bufferBoundary) s

def onState (s : Serializer) (call : WriteState → Result WriteState Unit) : Result Serializer Unit :=
  (call s.state).lift fun st => { s with state := st }

/-- serializer_pack_scalar_value -/
def packScalarValue (dtl : Dtl) (s : Serializer) : Result Serializer Unit :=
  match s.state.value with
  | .scalar _ =>
    let checked : Result Serializer Unit :=
      match s.state.rangeCheckState with
      | .notChecked => s.onState (WriteState.defaultRangeCheckValue dtl)
      | .fail => .fail (.code .valueRange) s
      | .ok => .ok () s
    checked.bind fun _ s => packScalarValueInternal s
  | _ => .fail (.code .valueType) s

/-- serializer_pack_record_value -/
def packRecordValue (s : Serializer) : Result Serializer Unit :=
  let entered : Result Serializer Unit :=
    if s.state.arrayLen > 0 then
      match s.state.value with
      | .array av =>
        if s.state.dynamicSizeType = .none ∧ s.state.arrayLen ≠ av.length then
          .fail (.code .valueLength) s
        else if s.state.index ≠ 0 then .fail .assertion s
        else
          match av[s.state.index]? with
          | none => .fail (.code .nullPtr) s
          | some child =>
            let s := s.enterNewChildState
            .ok () { s with state := s.state.setValue child }
      | _ => .fail (.code .valueType) s
    else .ok () s
  entered.bind fun _ s =>
    match s.state.value with
    | .hash _ => .ok () s
    | _ => .fail (.code .valueType) s

/-- The loop of serializer_pack_array_of_scalar -/
def packElements (dtl : Dtl) (s : Serializer) : List Dv → Result Serializer Unit
  | [] => .ok () s
  | dv :: rest =>
      (s.onState fun st => st.readScalarElement dtl dv st.typeCode).bind fun _ s =>
        (packScalarValueInternal s).bind fun _ s => packElements dtl s rest

/-- serializer_pack_array_of_scalar -/
def packArrayOfScalar (dtl : Dtl) (s : Serializer) : Result Serializer Unit :=
  match s.state.value with
  | .array av =>
    if s.state.dynamicSizeType = .none ∧ av.length ≠ s.state.arrayLen then
      .fail (.code .valueLength) s
    else
      let checked : Result Serializer Unit :=
        match s.state.rangeCheckState with
        | .notChecked => s.onState (WriteState.defaultRangeCheckValue dtl)
        | .fail => .fail (.code .valueRange) s
        | .ok => .ok () s
      checked.bind fun _ s => packElements dtl s av
  | _ => .fail (.code .valueType) s

/-- serializer_pack_string. The target is cleared before the string is copied into it. -/
def packString (dtl : Dtl) (s : Serializer) : Result Serializer Unit :=
  match s.state.value with
  | .scalar sv =>
    let (value, ok) := dtl.toStr sv
    if ok = false then .fail (.code .valueConversion) s
    else
      let targetStringSize := u32 (s.state.elementSize * s.state.arrayLen)
      if s.buffer.next + targetStringSize ≤ s.buffer.bytes.length then
        let cleared := splice s.buffer.bytes s.buffer.next (List.replicate targetStringSize 0)
        let s := { s with buffer := { s.buffer with bytes := cleared } }
        if s.state.typeCode = .char ∨ s.state.typeCode = .char8 then
          -- serializer_pack_char_string
          if value.length > targetStringSize then .fail (.code .bufferBoundary) s
          else
            .ok () { s with buffer := { s.buffer with
              bytes := splice s.buffer.bytes s.buffer.next value,
              next := s.buffer.next + targetStringSize } }
        else .fail (.code .notImplemented) s
      else .fail (.code .bufferBoundary) s
  | _ => .fail (.code .valueType) s

/-- serializer_pack_byte_array_internal. In a dynamic array the length is that of the value. -/
def packByteArrayInternal (s : Serializer) : Result Serializer Unit :=
  match s.state.value with
  | .scalar (.bytearray value) =>
    if s.state.dynamicSizeType = .none ∧ s.state.arrayLen > 0 ∧ s.state.arrayLen ≠ value.length then
      .fail (.code .valueLength) s
    else if s.buffer.next + s.state.arrayLen ≤ s.buffer.bytes.length then
      if s.state.arrayLen ≤ value.length then
        .ok () { s with buffer := s.buffer.write (value.take s.state.arrayLen) }
      else .fail .outOfBounds s
    else .fail (.code .bufferBoundary) s
  | _ => .fail (.code .valueType) s

/-- The end of serializer_pack_value: counts the value in a queue and closes its state. -/
def finishPack (doPopState : Bool) (written : Result Serializer Unit) : Result Serializer Unit :=
  written.bind fun _ s =>
    let s := if s.queuedWriteState.isActive then
      { s with queuedWriteState :=
        { s.queuedWriteState with currentLength := u32 (s.queuedWriteState.currentLength + 1) } }
      else s
    .ok () (if doPopState then s.popState else s)

/-- serializer_pack_value -/
def packValue (dtl : Dtl) (s : Serializer) : Result Serializer Unit :=
  if s.queuedWriteState.isActive ∧ s.queuedWriteState.currentLength ≥ s.queuedWriteState.maxLength then
    .fail (.code .queueFull) s
  else
    let lengthSize := sizeTypeToSize s.state.dynamicSizeType
    if s.state.arrayLen = 0 then
      if s.state.dynamicSizeType ≠ .none then
        finishPack true (s.writeDynamicValueToBuffer s.state.arrayLen lengthSize)
      else if s.state.isNumOrBoolType then finishPack true (packScalarValue dtl s)
      else if s.state.isRecordType then finishPack false (packRecordValue s)
      else .fail (.code .notImplemented) s
    else
      let prefixed : Result Serializer Unit :=
        if s.state.dynamicSizeType ≠ .none then
          s.writeDynamicValueToBuffer s.state.arrayLen lengthSize
        else .ok () s
      prefixed.bind fun _ s =>
        if s.state.isNumOrBoolType then finishPack true (packArrayOfScalar dtl s)
        else if s.state.isCharType then finishPack true (packString dtl s)
        else if s.state.isBytesType then finishPack true (packByteArrayInternal s)
        else if s.state.isRecordType then finishPack false (packRecordValue s)
        else .fail (.code .notImplemented) s

/-- The body that the functions apx_vm_serializer_pack_uint8 and so on share. -/
def packAs (dtl : Dtl) (typeCode : TypeCode) (elementSize : Nat) (s : Serializer)
    (arrayLength : Nat) (dynamicSizeType : SizeType) : Result Serializer Unit :=
  (s.prepareForBufferWrite typeCode elementSize).bind fun _ s =>
    (s.prepareForArray dtl arrayLength dynamicSizeType).bind fun _ s => packValue dtl s

def packUInt8 (dtl : Dtl) := packAs dtl .uint8 1
def packUInt16 (dtl : Dtl) := packAs dtl .uint16 2
def packUInt32 (dtl : Dtl) := packAs dtl .uint32 4
def packUInt64 (dtl : Dtl) := packAs dtl .uint64 8
def packInt8 (dtl : Dtl) := packAs dtl .int8 1
def packInt16 (dtl : Dtl) := packAs dtl .int16 2
def packInt32 (dtl : Dtl) := packAs dtl .int32 4
def packInt64 (dtl : Dtl) := packAs dtl .int64 8
def packChar (dtl : Dtl) := packAs dtl .char 1
def packChar8 (dtl : Dtl) := packAs dtl .char8 1
def packBool (dtl : Dtl) := packAs dtl .bool 1
def packRecord (dtl : Dtl) := packAs dtl .record 0

/-- apx_vm_serializer_pack_byte: a single byte is an array of length one. -/
def packByte (dtl : Dtl) (s : Serializer) (arrayLength : Nat) (dynamicSizeType : SizeType) :
    Result Serializer Unit :=
  packAs dtl .byte 1 s (if arrayLength = 0 then 1 else arrayLength) dynamicSizeType

/-- apx_vm_serializer_record_select -/
def recordSelect (s : Serializer) (key : Bytes) (isLastField : Bool) : Result Serializer Unit :=
  match s.state.value with
  | .hash hv =>
    match Hash.get hv key with
    | none => .fail (.code .notFound) s
    | some child =>
      let s := { s with state := { s.state with isLastField := isLastField, fieldName := key } }
      let s := s.enterNewChildState
      .ok () { s with state := s.state.setValue child }
  | _ => .fail (.code .valueType) s

/-- The loop of the range checks over the elements of an array -/
def checkElements (dtl : Dtl) (typeCode : TypeCode) (inRange : ScalarWord → Bool) (st : WriteState) :
    List Dv → Result WriteState Unit
  | [] => .ok () st
  | dv :: rest =>
      match st.readScalarElement dtl dv typeCode with
      | .fail failure st => .fail failure { st with rangeCheckState := .fail }
      | .ok _ st =>
        if inRange st.scalar.value then checkElements dtl typeCode inRange st rest
        else .fail (.code .valueRange) { st with rangeCheckState := .fail }

/-- The body that the four functions apx_vm_serializer_check_value_range share. Reading
with the type code sets the storage type that they assert. -/
def checkValueRange (dtl : Dtl) (typeCode : TypeCode) (inRange : ScalarWord → Bool) (s : Serializer) :
    Result Serializer Unit :=
  match s.state.value with
  | .scalar _ =>
    match s.state.readScalarValue dtl typeCode with
    | .fail failure st => .fail failure { s with state := { st with rangeCheckState := .fail } }
    | .ok _ st =>
      if inRange st.scalar.value then .ok () { s with state := { st with rangeCheckState := .ok } }
      else .fail (.code .valueRange) { s with state := { st with rangeCheckState := .fail } }
  | .array av =>
    s.onState fun st => checkElements dtl typeCode inRange { st with rangeCheckState := .ok } av
  | _ => .fail (.code .unsupported) s

/-- apx_vm_serializer_check_value_range_int32 -/
def checkValueRangeInt32 (dtl : Dtl) (s : Serializer) (lower upper : BitVec 32) :
    Result Serializer Unit :=
  checkValueRange dtl .int32 (fun w => valueInRangeI32 w.low lower upper) s

/-- apx_vm_serializer_check_value_range_uint32 -/
def checkValueRangeUInt32 (dtl : Dtl) (s : Serializer) (lower upper : BitVec 32) :
    Result Serializer Unit :=
  checkValueRange dtl .uint32 (fun w => valueInRangeU32 w.low lower upper) s

/-- apx_vm_serializer_check_value_range_int64 -/
def checkValueRangeInt64 (dtl : Dtl) (s : Serializer) (lower upper : BitVec 64) :
    Result Serializer Unit :=
  checkValueRange dtl .int64 (fun w => valueInRangeI64 w lower upper) s

/-- apx_vm_serializer_check_value_range_uint64 -/
def checkValueRangeUInt64 (dtl : Dtl) (s : Serializer) (lower upper : BitVec 64) :
    Result Serializer Unit :=
  checkValueRange dtl .uint64 (fun w => valueInRangeU64 w lower upper) s

/-- apx_vm_serializer_array_next: whether the array is at its end. An array holds fewer than
`2 ^ 31` values, so the conversion of the index to int32_t is left out. -/
def arrayNext (s : Serializer) : Result Serializer Bool :=
  match s.state.value with
  | .array av =>
    if s.state.arrayLen > 0 then
      let index := u32 (s.state.index + 1)
      let s := { s with state := { s.state with index := index } }
      if index = s.state.arrayLen then .ok true s
      else if s.state.typeCode = .record then
        match av[index]? with
        | none => .fail (.code .nullPtr) s
        | some child =>
          let s := s.enterNewChildState
          .ok false { s with state := s.state.setValue child }
      else .fail (.code .notImplemented) s
    else .fail (.code .internal) s
  | _ => .fail (.code .valueType) s

/-- write_dynamic_value_to_buffer, with the end that its caller passes -/
def writeDynamicValue (bytes : Bytes) (begin finish value valueSize : Nat) : Result Bytes Unit :=
  if (valueSize = 1 ∧ value > uint8Max) ∨ (valueSize = 2 ∧ value > uint16Max) then
    .fail (.code .length) bytes
  else if valueSize ≠ 1 ∧ valueSize ≠ 2 ∧ valueSize ≠ 4 then .fail (.code .internal) bytes
  else if begin + valueSize ≤ finish then .ok () (splice bytes begin (packLE value valueSize))
  else .fail (.code .bufferFull) bytes

/-- read_dynamic_value_from_buffer, whose state is the number behind its out parameter. It
has no return behind the read, and ends with an error there too. -/
def readDynamicValue (bytes : Bytes) (begin finish valueSize value : Nat) : Result Nat Unit :=
  if valueSize ≤ 4 then
    if begin + valueSize ≤ finish then
      .fail (.code .invalidArgument) (unpackLE (slice bytes begin valueSize))
    else .fail (.code .bufferBoundary) value
  else .fail (.code .invalidArgument) value

/-- apx_vm_serializer_queued_write_begin. The write position moves behind the length without
a look at the end of the buffer. -/
def queuedWriteBegin (s : Serializer) (elementSize maxLength : Nat) (clearQueue : Bool) :
    Result Serializer Unit :=
  let sizeType := sizeToSizeType maxLength
  let valueSize := sizeTypeToSize sizeType
  let s := { s with queuedWriteState := { s.queuedWriteState with
    elementSize := elementSize, lengthPtr := s.buffer.next, maxLength := maxLength,
    isActive := true, sizeType := sizeType } }
  let length : Result Nat Unit :=
    if clearQueue then .ok () 0
    else readDynamicValue s.buffer.bytes s.queuedWriteState.lengthPtr
      (s.queuedWriteState.lengthPtr + valueSize) valueSize 0
  match length with
  | .fail failure _ => .fail failure s
  | .ok _ length =>
      .ok () { s with
        queuedWriteState := { s.queuedWriteState with currentLength := length },
        buffer := { s.buffer with next := s.buffer.next + valueSize } }

/-- apx_vm_serializer_queued_write_end. The end that bounds the write is made from the place
of the length itself. -/
def queuedWriteEnd (s : Serializer) : Result Serializer Unit :=
  if s.queuedWriteState.isActive then
    let s := { s with queuedWriteState := { s.queuedWriteState with isActive := false } }
    let valueSize := sizeTypeToSize s.queuedWriteState.sizeType
    (writeDynamicValue s.buffer.bytes s.queuedWriteState.lengthPtr
      (s.queuedWriteState.lengthPtr + valueSize) s.queuedWriteState.currentLength valueSize).lift
      fun bytes => { s with buffer := { s.buffer with bytes := bytes } }
  else .fail (.code .internal) s

end Serializer

end Apx
