import Apx.Program

/-! The program decoder (decoder.c). A position in the program is its offset from
program_begin, and program_end is the length of the program. -/

namespace Apx

open LittleEndian Vm

/-- apx_packUnpackOperationInfo_t -/
structure PackUnpackInfo where
  typeCode : TypeCode := .none
  arrayLength : Nat := 0
  isDynamicArray : Bool := false
  deriving DecidableEq, Repr

/-- The limits of one of the four range checks. -/
structure RangeCheckInfo (w : Nat) where
  lower : BitVec w := 0
  upper : BitVec w := 0
  deriving DecidableEq, Repr

/-- apx_vm_decoder_t. `hasProgram` is false until a program is selected, which is when the
program pointers of the source are null. -/
structure Decoder where
  hasProgram : Bool := false
  program : Bytes := []
  programNext : Nat := 0
  programMark : Option Nat := none
  operationType : OperationType := .programEnd
  packUnpackInfo : PackUnpackInfo := {}
  rangeCheckUInt32 : RangeCheckInfo 32 := {}
  rangeCheckUInt64 : RangeCheckInfo 64 := {}
  rangeCheckInt32 : RangeCheckInfo 32 := {}
  rangeCheckInt64 : RangeCheckInfo 64 := {}
  fieldName : Bytes := []
  isLastField : Bool := false
  deriving DecidableEq, Repr

namespace Decoder

/-- apx_vm_decoder_create -/
def create : Decoder := {}

/-- apx_vm_decoder_select_program -/
def selectProgram (d : Decoder) (program : Bytes) : Decoder :=
  { d with hasProgram := true, program := program, programNext := 0, programMark := none }

/-- apx_vm_decoder_parse_program_header -/
def parseProgramHeader (d : Decoder) (header : ProgramHeader) : Result (Decoder × ProgramHeader) Unit :=
  (decodeHeader d.program d.programNext header).lift
    fun (next, header) => ({ d with programNext := next }, header)

/-- `*self->program_next++` -/
def fetch (d : Decoder) : Result Decoder Byte :=
  match d.program[d.programNext]? with
  | some instruction => .ok instruction { d with programNext := d.programNext + 1 }
  | none => .fail .outOfBounds d

/-- reset_pack_unpack_info -/
def resetPackUnpackInfo (d : Decoder) (typeCode : TypeCode) : Decoder :=
  { d with packUnpackInfo := { typeCode := typeCode, arrayLength := 0, isDynamicArray := false } }

/-- decode_array_size -/
def decodeArraySize (d : Decoder) : Result Decoder Unit :=
  if d.programNext < d.program.length then
    (fetch d).bind fun instruction d =>
      let (opcode, variant, isDynamicArray) := decodeInstruction instruction
      let d := { d with packUnpackInfo := { d.packUnpackInfo with isDynamicArray := isDynamicArray } }
      if opcode = opcodeDataSize then
        if variant > variantArraySizeLast then .fail (.code .invalidInstruction) d
        else
          match parseUInt32ByVariant d.program d.programNext variant with
          | none => .fail (.code .invalidInstruction) d
          | some (arrayLength, next) =>
            .ok () { d with
              packUnpackInfo := { d.packUnpackInfo with arrayLength := arrayLength.toNat },
              programNext := next }
      -- another opcode than DATA_SIZE is taken for an array size all the same
      else .ok () d
  else .fail (.code .unexpectedEnd) d

/-- The shape of the four decode_range_check functions: two numbers of one width. -/
def decodeRangeCheck {w : Nat} (parse : Bytes → Nat → Nat → Option (BitVec w × Nat))
    (put : RangeCheckInfo w → Decoder → Decoder) (old : RangeCheckInfo w) (d : Decoder)
    (variant : Nat) : Result Decoder Unit :=
  if d.programNext + variantToSize variant * 2 ≤ d.program.length then
    match parse d.program d.programNext variant with
    | none => .fail (.code .invalidInstruction) d
    | some (lower, next) =>
      let d := put { old with lower := lower } { d with programNext := next }
      match parse d.program d.programNext variant with
      | none => .fail (.code .invalidInstruction) d
      | some (upper, next) =>
        .ok () (put { lower := lower, upper := upper } { d with programNext := next })
  else .fail (.code .unexpectedEnd) d

/-- decode_range_check_uint32 -/
def decodeRangeCheckUInt32 (d : Decoder) (variant : Nat) : Result Decoder Unit :=
  decodeRangeCheck parseUInt32ByVariant (fun info d => { d with rangeCheckUInt32 := info })
    d.rangeCheckUInt32 d variant

/-- decode_range_check_uint64 -/
def decodeRangeCheckUInt64 (d : Decoder) (variant : Nat) : Result Decoder Unit :=
  decodeRangeCheck parseUInt64ByVariant (fun info d => { d with rangeCheckUInt64 := info })
    d.rangeCheckUInt64 d variant

/-- decode_range_check_int32 -/
def decodeRangeCheckInt32 (d : Decoder) (variant : Nat) : Result Decoder Unit :=
  decodeRangeCheck parseInt32ByVariant (fun info d => { d with rangeCheckInt32 := info })
    d.rangeCheckInt32 d variant

/-- decode_range_check_int64 -/
def decodeRangeCheckInt64 (d : Decoder) (variant : Nat) : Result Decoder Unit :=
  decodeRangeCheck parseInt64ByVariant (fun info d => { d with rangeCheckInt64 := info })
    d.rangeCheckInt64 d variant

/-- bstr_while_predicate with bstr_pred_is_not_zero: the first position from `begin` on that
holds a zero, or the end. -/
def whileNotZero (program : Bytes) (begin : Nat) : Nat :=
  begin + ((program.drop begin).takeWhile (· ≠ 0)).length

/-- decode_record_select -/
def decodeRecordSelect (d : Decoder) (isLastField : Bool) : Result Decoder Unit :=
  let d := { d with operationType := .recordSelect }
  let result := whileNotZero d.program d.programNext
  if result > d.programNext ∧ d.programNext ≤ d.program.length then
    .ok () { d with
      fieldName := slice d.program d.programNext (result - d.programNext),
      -- the byte behind the name is skipped without a test that it is inside the program
      programNext := result + 1,
      isLastField := isLastField }
  else .fail (.code .invalidInstruction) d

/-- decode_next_instruction_internal for OPCODE_UNPACK and OPCODE_PACK -/
def decodePackUnpack (d : Decoder) (operationType : OperationType) (variant : Nat) (flag : Bool) :
    Result Decoder Unit :=
  let d := { d with operationType := operationType }
  if variant > variantLast then .fail (.code .invalidInstruction) d
  else
    let typeCode := variantToTypeCode variant
    if typeCode = .none then .fail (.code .invalidInstruction) d
    else
      let d := resetPackUnpackInfo d typeCode
      if flag then decodeArraySize d else .ok () d

/-- decode_next_instruction_internal for OPCODE_DATA_CTRL -/
def decodeDataCtrl (d : Decoder) (variant : Nat) (flag : Bool) : Result Decoder Unit :=
  if variant = variantRecordSelect then decodeRecordSelect d flag
  else if variant ≤ variantLimitCheckLast then
    if variant = variantLimitCheckU8 then
      decodeRangeCheckUInt32 { d with operationType := .rangeCheckUInt32 } variantUInt8
    else if variant = variantLimitCheckU16 then
      decodeRangeCheckUInt32 { d with operationType := .rangeCheckUInt32 } variantUInt16
    else if variant = variantLimitCheckU32 then
      decodeRangeCheckUInt32 { d with operationType := .rangeCheckUInt32 } variantUInt32
    else if variant = variantLimitCheckU64 then
      decodeRangeCheckUInt64 { d with operationType := .rangeCheckUInt64 } variantUInt64
    else if variant = variantLimitCheckS8 then
      decodeRangeCheckInt32 { d with operationType := .rangeCheckInt32 } variantInt8
    else if variant = variantLimitCheckS16 then
      decodeRangeCheckInt32 { d with operationType := .rangeCheckInt32 } variantInt16
    else if variant = variantLimitCheckS32 then
      decodeRangeCheckInt32 { d with operationType := .rangeCheckInt32 } variantInt32
    else if variant = variantLimitCheckS64 then
      decodeRangeCheckInt64 { d with operationType := .rangeCheckInt64 } variantInt64
    -- variant 7 is no case of either switch: the operation type stays what it was
    else .ok () d
  else .fail (.code .invalidInstruction) d

/-- decode_next_instruction_internal -/
def decodeNextInstruction (d : Decoder) : Result Decoder Unit :=
  (fetch d).bind fun instruction d =>
    let (opcode, variant, flag) := decodeInstruction instruction
    if opcode = opcodeUnpack then decodePackUnpack d .unpack variant flag
    else if opcode = opcodePack then decodePackUnpack d .pack variant flag
    else if opcode = opcodeDataCtrl then decodeDataCtrl d variant flag
    else if opcode = opcodeFlowCtrl then
      if variant = variantArrayNext then .ok () { d with operationType := .arrayNext }
      else .fail (.code .invalidInstruction) d
    else .fail (.code .invalidInstruction) d

/-- apx_vm_decoder_parse_next_operation -/
def parseNextOperation (d : Decoder) : Result Decoder OperationType :=
  if d.hasProgram = false then .fail (.code .nullPtr) d
  else if d.programNext = d.program.length then .ok .programEnd d
  else (decodeNextInstruction d).bind fun _ d => .ok d.operationType d

/-- apx_vm_decoder_save_program_position -/
def saveProgramPosition (d : Decoder) : Decoder :=
  if d.hasProgram then { d with programMark := some d.programNext } else d

/-- apx_vm_decoder_recall_program_position -/
def recallProgramPosition (d : Decoder) : Decoder :=
  match d.programMark with
  | some mark => { d with programNext := mark }
  | none => d

/-- apx_vm_decoder_has_saved_program_position -/
def hasSavedProgramPosition (d : Decoder) : Bool := d.programMark.isSome

end Decoder

end Apx
