import Apx.Machine
import Apx.Decoder
import Apx.Serializer
import Apx.Deserializer

/-! The virtual machine (vm.c): it runs a program on its serializer or deserializer. -/

namespace Apx

open Machine

/-- apx_vm_t -/
structure Vm where
  serializer : Serializer := {}
  deserializer : Deserializer := {}
  decoder : Decoder := {}
  programHeader : ProgramHeader := {}
  deriving Repr

namespace Vm

/-- apx_vm_create; `memory` is what the allocated states hold where they are not assigned. -/
def create (memory : ScalarWord) : Vm :=
  { serializer := Serializer.create, deserializer := Deserializer.create memory,
    decoder := Decoder.create }

/-- apx_vm_select_program. An empty program has a null pointer for its data. -/
def selectProgram (vm : Vm) (program : Bytes) : Result Vm Unit :=
  if program.length = 0 then .fail (.code .invalidArgument) vm
  else
    ((vm.decoder.selectProgram program).parseProgramHeader vm.programHeader).lift
      fun (decoder, header) => { vm with decoder := decoder, programHeader := header }

/-- apx_vm_set_write_buffer -/
def setWriteBuffer (vm : Vm) (data : Bytes) : Result Vm Unit :=
  (vm.serializer.setWriteBuffer data).lift fun s => { vm with serializer := s }

/-- apx_vm_set_read_buffer -/
def setReadBuffer (vm : Vm) (data : Bytes) : Result Vm Unit :=
  (vm.deserializer.setReadBuffer data).lift fun d => { vm with deserializer := d }

/-- apx_vm_get_bytes_written -/
def getBytesWritten (vm : Vm) : Nat := vm.serializer.bytesWritten

/-- apx_vm_get_bytes_read -/
def getBytesRead (vm : Vm) : Nat := vm.deserializer.bytesRead

def onSerializer (vm : Vm) {α : Type} (call : Serializer → Result Serializer α) : Result Vm α :=
  (call vm.serializer).lift fun s => { vm with serializer := s }

def onDeserializer (vm : Vm) {α : Type} (call : Deserializer → Result Deserializer α) :
    Result Vm α :=
  (call vm.deserializer).lift fun d => { vm with deserializer := d }

def dynamicSizeType (operation : PackUnpackInfo) : SizeType :=
  if operation.isDynamicArray then sizeToSizeType operation.arrayLength else .none

/-- The switch of run_pack_instruction -/
def packOperation (dtl : Dtl) (operation : PackUnpackInfo) (s : Serializer) : Result Serializer Unit :=
  let length := operation.arrayLength
  let sizeType := dynamicSizeType operation
  match operation.typeCode with
  | .uint8 => s.packUInt8 dtl length sizeType
  | .uint16 => s.packUInt16 dtl length sizeType
  | .uint32 => s.packUInt32 dtl length sizeType
  | .uint64 => s.packUInt64 dtl length sizeType
  | .int8 => s.packInt8 dtl length sizeType
  | .int16 => s.packInt16 dtl length sizeType
  | .int32 => s.packInt32 dtl length sizeType
  | .int64 => s.packInt64 dtl length sizeType
  | .char => s.packChar dtl length sizeType
  | .char8 => s.packChar8 dtl length sizeType
  | .bool => s.packBool dtl length sizeType
  | .byte => s.packByte dtl length sizeType
  | .record => s.packRecord dtl length sizeType
  | _ => .fail (.code .notImplemented) s

/-- The switch of run_unpack_instruction -/
def unpackOperation (operation : PackUnpackInfo) (d : Deserializer) : Result Deserializer Unit :=
  let length := operation.arrayLength
  let sizeType := dynamicSizeType operation
  match operation.typeCode with
  | .uint8 => d.unpackUInt8 length sizeType
  | .uint16 => d.unpackUInt16 length sizeType
  | .uint32 => d.unpackUInt32 length sizeType
  | .uint64 => d.unpackUInt64 length sizeType
  | .int8 => d.unpackInt8 length sizeType
  | .int16 => d.unpackInt16 length sizeType
  | .int32 => d.unpackInt32 length sizeType
  | .int64 => d.unpackInt64 length sizeType
  | .char => d.unpackChar length sizeType
  | .char8 => d.unpackChar8 length sizeType
  | .bool => d.unpackBool length sizeType
  | .byte => d.unpackByte length sizeType
  | .record => d.unpackRecord length sizeType
  | _ => .fail (.code .notImplemented) d

/-- The array of records branch of both instructions: the position behind the instruction is
saved, also when the instruction failed. -/
def saveForRecordArray (operation : PackUnpackInfo) (vm : Vm) : Vm :=
  if operation.typeCode = .record ∧ operation.arrayLength > 0 then
    { vm with decoder := vm.decoder.saveProgramPosition }
  else vm

/-- run_pack_instruction -/
def runPackInstruction (dtl : Dtl) (vm : Vm) : Result Vm Unit :=
  let operation := vm.decoder.packUnpackInfo
  (vm.onSerializer (packOperation dtl operation)).lift (saveForRecordArray operation)

/-- run_unpack_instruction -/
def runUnpackInstruction (vm : Vm) : Result Vm Unit :=
  let operation := vm.decoder.packUnpackInfo
  (vm.onDeserializer (unpackOperation operation)).lift (saveForRecordArray operation)

/-- run_array_next -/
def runArrayNext (vm : Vm) : Result Vm Unit :=
  let next : Result Vm Bool :=
    if vm.programHeader.programType = .pack then vm.onSerializer Serializer.arrayNext
    else vm.onDeserializer Deserializer.arrayNext
  next.bind fun isLastIndex vm =>
    if isLastIndex then .ok () vm
    else if vm.decoder.hasSavedProgramPosition then
      .ok () { vm with decoder := vm.decoder.recallProgramPosition }
    else .fail (.code .invalidInstruction) vm

/-- The switch of run_pack_program on an operation that has just been decoded -/
def executePack (dtl : Dtl) (operation : OperationType) (vm : Vm) : Result Vm Unit :=
  match operation with
  | .unpack => .fail (.code .invalidInstruction) vm
  | .pack => runPackInstruction dtl vm
  | .rangeCheckInt32 => vm.onSerializer fun s => s.checkValueRangeInt32 dtl
      vm.decoder.rangeCheckInt32.lower vm.decoder.rangeCheckInt32.upper
  | .rangeCheckUInt32 => vm.onSerializer fun s => s.checkValueRangeUInt32 dtl
      vm.decoder.rangeCheckUInt32.lower vm.decoder.rangeCheckUInt32.upper
  | .rangeCheckInt64 => vm.onSerializer fun s => s.checkValueRangeInt64 dtl
      vm.decoder.rangeCheckInt64.lower vm.decoder.rangeCheckInt64.upper
  | .rangeCheckUInt64 => vm.onSerializer fun s => s.checkValueRangeUInt64 dtl
      vm.decoder.rangeCheckUInt64.lower vm.decoder.rangeCheckUInt64.upper
  | .recordSelect => vm.onSerializer fun s =>
      s.recordSelect vm.decoder.fieldName vm.decoder.isLastField
  | .arrayNext => runArrayNext vm
  | .programEnd => .ok () vm

/-- The switch of run_unpack_program on an operation that has just been decoded -/
def executeUnpack (dtl : Dtl) (operation : OperationType) (vm : Vm) : Result Vm Unit :=
  match operation with
  | .unpack => runUnpackInstruction vm
  | .pack => .fail (.code .invalidInstruction) vm
  | .rangeCheckInt32 => vm.onDeserializer fun d => d.checkValueRangeInt32 dtl
      vm.decoder.rangeCheckInt32.lower vm.decoder.rangeCheckInt32.upper
  | .rangeCheckUInt32 => vm.onDeserializer fun d => d.checkValueRangeUInt32 dtl
      vm.decoder.rangeCheckUInt32.lower vm.decoder.rangeCheckUInt32.upper
  | .rangeCheckInt64 => vm.onDeserializer fun d => d.checkValueRangeInt64 dtl
      vm.decoder.rangeCheckInt64.lower vm.decoder.rangeCheckInt64.upper
  | .rangeCheckUInt64 => vm.onDeserializer fun d => d.checkValueRangeUInt64 dtl
      vm.decoder.rangeCheckUInt64.lower vm.decoder.rangeCheckUInt64.upper
  | .recordSelect => vm.onDeserializer fun d =>
      d.recordSelect vm.decoder.fieldName vm.decoder.isLastField
  | .arrayNext => runArrayNext vm
  | .programEnd => .ok () vm

/-- One pass through the loop of run_pack_program or run_unpack_program, whose switch is
`execute`. -/
def turn (execute : OperationType → Vm → Result Vm Unit) (vm : Vm) : Turn Vm (Result Vm Unit) :=
  match vm.decoder.parseNextOperation with
  | .fail failure decoder => .halt (.fail failure { vm with decoder := decoder })
  | .ok operation decoder =>
    match execute operation { vm with decoder := decoder } with
    | .fail failure vm => .halt (.fail failure vm)
    | .ok _ vm => if operation = .programEnd then .halt (.ok () vm) else .next vm

/-- run_pack_program, for at most `fuel` passes through its loop -/
def runPackProgram (dtl : Dtl) (fuel : Nat) (vm : Vm) : Option (Result Vm Unit) :=
  run (turn (executePack dtl)) fuel vm

/-- run_unpack_program, for at most `fuel` passes through its loop -/
def runUnpackProgram (dtl : Dtl) (fuel : Nat) (vm : Vm) : Option (Result Vm Unit) :=
  run (turn (executeUnpack dtl)) fuel vm

/-- apx_vm_pack_value -/
def packValue (dtl : Dtl) (fuel : Nat) (vm : Vm) (dv : Dv) : Option (Result Vm Unit) :=
  if vm.programHeader.programType ≠ .pack then some (.fail (.code .invalidProgram) vm)
  else runPackProgram dtl fuel { vm with serializer := vm.serializer.setValueDv dv }

/-- The end of apx_vm_unpack_value: the value is taken out of the deserializer. -/
def takeValue (vm : Vm) : Result Vm Dv :=
  match vm.deserializer.state.value with
  | .null => .fail (.code .valueType) vm
  | dv => .ok dv { vm with deserializer :=
      { vm.deserializer with state := { vm.deserializer.state with value := .null } } }

/-- apx_vm_unpack_value -/
def unpackValue (dtl : Dtl) (fuel : Nat) (vm : Vm) : Option (Result Vm Dv) :=
  if vm.programHeader.programType ≠ .unpack then some (.fail (.code .invalidProgram) vm)
  else (runUnpackProgram dtl fuel vm).map fun result => result.bind fun _ vm => takeValue vm

/-! The calls by which the library packs and unpacks one value: a program is selected, a buffer
is set, and the value is packed or unpacked. The first call that fails ends the sequence. -/

/-- apx_vm_select_program, apx_vm_set_write_buffer and apx_vm_pack_value -/
def packWith (dtl : Dtl) (fuel : Nat) (vm : Vm) (program buffer : Bytes) (dv : Dv) :
    Option (Result Vm Unit) :=
  match vm.selectProgram program with
  | .fail failure vm => some (.fail failure vm)
  | .ok _ vm =>
    match vm.setWriteBuffer buffer with
    | .fail failure vm => some (.fail failure vm)
    | .ok _ vm => packValue dtl fuel vm dv

/-- apx_vm_select_program, apx_vm_set_read_buffer and apx_vm_unpack_value -/
def unpackWith (dtl : Dtl) (fuel : Nat) (vm : Vm) (program buffer : Bytes) : Option (Result Vm Dv) :=
  match vm.selectProgram program with
  | .fail failure vm => some (.fail failure vm)
  | .ok _ vm =>
    match vm.setReadBuffer buffer with
    | .fail failure vm => some (.fail failure vm)
    | .ok _ vm => unpackValue dtl fuel vm

/-- The pack calls return `result`. -/
def Packs (dtl : Dtl) (vm : Vm) (program buffer : Bytes) (dv : Dv) (result : Result Vm Unit) : Prop :=
  ∃ fuel, packWith dtl fuel vm program buffer dv = some result

/-- The unpack calls return `result`. -/
def Unpacks (dtl : Dtl) (vm : Vm) (program buffer : Bytes) (result : Result Vm Dv) : Prop :=
  ∃ fuel, unpackWith dtl fuel vm program buffer = some result

end Vm

end Apx
