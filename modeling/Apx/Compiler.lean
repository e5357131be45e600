import Apx.Program
import Apx.DataElement

/-! The compiler from data elements to programs (compiler.c). -/

namespace Apx

open LittleEndian Vm

/-- apx_compiler_t, the part that compile_data_element works on. -/
structure Compiler where
  program : Bytes := []
  hasDynamicData : Bool := false
  deriving DecidableEq, Repr

namespace Compiler

/-- APX_MAX_NAME_LEN -/
def maxNameLen : Nat := 256

/-- adt_bytearray_push and adt_bytearray_append on the program -/
def append (c : Compiler) (bytes : Bytes) : Compiler := { c with program := c.program ++ bytes }

/-- What the switch on the type code sets: the data variant, the limit check variant, the
size, and whether the type is signed and has 64 bits. -/
structure LeafInfo where
  dataVariant : Nat
  limitCheckVariant : Nat
  dataSize : Nat
  isSignedType : Bool
  is64BitType : Bool
  deriving DecidableEq, Repr

def leafInfo : LeafCode → Option LeafInfo
  | .uint8 => some ⟨variantUInt8, variantLimitCheckU8, 1, false, false⟩
  | .uint16 => some ⟨variantUInt16, variantLimitCheckU16, 2, false, false⟩
  | .uint32 => some ⟨variantUInt32, variantLimitCheckU32, 4, false, false⟩
  | .uint64 => some ⟨variantUInt64, variantLimitCheckU64, 8, false, true⟩
  | .int8 => some ⟨variantInt8, variantLimitCheckS8, 1, true, false⟩
  | .int16 => some ⟨variantInt16, variantLimitCheckS16, 2, true, false⟩
  | .int32 => some ⟨variantInt32, variantLimitCheckS32, 4, true, false⟩
  | .int64 => some ⟨variantInt64, variantLimitCheckS64, 8, true, true⟩
  | .bool => some ⟨variantBool, variantLimitCheckNone, 1, false, false⟩
  | .byte => some ⟨variantByte, variantLimitCheckU8, 1, false, false⟩
  | .char => some ⟨variantChar, variantLimitCheckNone, 1, false, false⟩
  | .char8 => some ⟨variantChar8, variantLimitCheckNone, 1, false, false⟩
  | _ => none

/-- The element size that compile_limit_values_int32 and _uint32 choose by the variant. -/
def limitElemSize32 (signed : Bool) (limitVariant : Nat) : Option Nat :=
  if signed then
    if limitVariant = variantLimitCheckS8 then some 1
    else if limitVariant = variantLimitCheckS16 then some 2
    else if limitVariant = variantLimitCheckS32 then some 4
    else none
  else
    if limitVariant = variantLimitCheckU8 then some 1
    else if limitVariant = variantLimitCheckU16 then some 2
    else if limitVariant = variantLimitCheckU32 then some 4
    else none

/-- The element size that compile_limit_values_int64 and _uint64 choose by the variant. -/
def limitElemSize64 (signed : Bool) (limitVariant : Nat) : Option Nat :=
  if signed then if limitVariant = variantLimitCheckS64 then some 8 else none
  else if limitVariant = variantLimitCheckU64 then some 8 else none

/-- The four compile_limit_values functions: both limits in the same number of bytes. -/
def compileLimitValues {w : Nat} (c : Compiler) (elemSize : Option Nat)
    (limits : BitVec w × BitVec w) : Except Failure Compiler :=
  match elemSize with
  | none => .error (.code .unsupported)
  | some size => .ok (c.append (packLE limits.1.toNat size ++ packLE limits.2.toNat size))

/-- compile_limit_instruction -/
def compileLimitInstruction (c : Compiler) (limits : Limits) (isSignedType is64BitType isArray : Bool)
    (limitVariant : Nat) : Except Failure Compiler :=
  if limitVariant ≠ variantLimitCheckNone then
    let c := c.append [encodeInstruction opcodeDataCtrl limitVariant isArray]
    if is64BitType then
      if isSignedType then
        compileLimitValues c (limitElemSize64 true limitVariant) (DataElement.limitsInt64 limits)
      else compileLimitValues c (limitElemSize64 false limitVariant) (DataElement.limitsUInt64 limits)
    else
      if isSignedType then
        compileLimitValues c (limitElemSize32 true limitVariant) (DataElement.limitsInt32 limits)
      else compileLimitValues c (limitElemSize32 false limitVariant) (DataElement.limitsUInt32 limits)
  else .error (.code .unsupported)

/-- compile_array_size_instruction -/
def compileArraySizeInstruction (c : Compiler) (arraySize : Nat) (isDynamicArray : Bool) : Compiler :=
  let (variant, encodedSize) :=
    if arraySize > uint16Max then (variantArraySizeU32, 4)
    else if arraySize > uint8Max then (variantArraySizeU16, 2)
    else (variantArraySizeU8, 1)
  c.append (encodeInstruction opcodeDataSize variant isDynamicArray :: packLE arraySize encodedSize)

/-- compile_record_select_instruction -/
def compileRecordSelectInstruction (c : Compiler) (name : Option CString) (isLastField : Bool) :
    Except Failure Compiler :=
  match name with
  | none => .error (.code .nameMissing)
  | some name =>
    if name.bytes.length = 0 then .error (.code .nameMissing)
    else if name.bytes.length > maxNameLen then .error (.code .nameTooLong)
    else .ok (c.append (encodeInstruction opcodeDataCtrl variantRecordSelect isLastField ::
      (name.bytes ++ [0])))

/-- compile_array_next_instruction -/
def compileArrayNextInstruction (c : Compiler) : Compiler :=
  c.append [encodeInstruction opcodeFlowCtrl variantArrayNext false]

/-- The array part of a data instruction, which sets has_dynamic_data on the way. -/
def compileArray (c : Compiler) (arrayLength : Nat) (isDynamicArray : Bool) : Compiler :=
  if arrayLength > 0 then
    let c := c.compileArraySizeInstruction arrayLength isDynamicArray
    if isDynamicArray then { c with hasDynamicData := true } else c
  else c

/-- The end of compile_data_element: the size of all elements of an array, in uint32_t. -/
def arrayDataSize (dataSize arrayLength : Nat) (isDynamicArray : Bool) : Except Failure Nat :=
  if dataSize > 0 then
    if arrayLength > 0 then
      let dataSize := u32 (dataSize * arrayLength)
      if isDynamicArray then .ok (u32 (dataSize + sizeTypeToSize (sizeToSizeType arrayLength)))
      else .ok dataSize
    else .ok dataSize
  else .error (.code .elementType)

/-- compile_data_element for an element that is not a record -/
def compileLeaf (c : Compiler) (programType : ProgramType) (code : LeafCode) (arrayLength : Nat)
    (isDynamicArray : Bool) (limits : Option Limits) : Except Failure (Compiler × Nat) :=
  match leafInfo code with
  | none => .error (.code .elementType)
  | some info =>
    let isArray : Bool := arrayLength > 0
    let data (c : Compiler) : Compiler :=
      (c.append [encodeInstruction (dataOpcode programType) info.dataVariant isArray]).compileArray
        arrayLength isDynamicArray
    let limit (c : Compiler) (limits : Limits) : Except Failure Compiler :=
      c.compileLimitInstruction limits info.isSignedType info.is64BitType isArray
        info.limitCheckVariant
    let code : Except Failure Compiler :=
      match limits, programType with
      | none, _ => .ok (data c)
      -- a pack program checks the value before it writes it
      | some limits, .pack =>
        match limit c limits with
        | .error failure => .error failure
        | .ok c => .ok (data c)
      -- an unpack program checks it after reading it
      | some limits, .unpack => limit (data c) limits
    match code, arrayDataSize info.dataSize arrayLength isDynamicArray with
    | .error failure, _ => .error failure
    | .ok _, .error failure => .error failure
    | .ok c, .ok dataSize => .ok (c, dataSize)

/-- The start of compile_data_element for a record -/
def compileRecordBegin (c : Compiler) (programType : ProgramType) (arrayLength : Nat)
    (isDynamicArray : Bool) : Compiler :=
  (c.append [encodeInstruction (dataOpcode programType) variantRecord (arrayLength > 0)]).compileArray
    arrayLength isDynamicArray

/-- How compile_data_element came to an element: called on it, on what
apx_dataElement_derive_data_element makes of it, or in the loop of that function after
`count` references. -/
inductive Approach where
  | direct
  | derive
  | follow (count : Nat)
  deriving DecidableEq, Repr

mutual

/-- compile_data_element, together with apx_dataElement_derive_data_element where that comes
first. The data size starts at zero, as at both call sites. -/
def compileElement (c : Compiler) (programType : ProgramType) :
    Approach → DataElement → Except Failure (Compiler × Nat)
  | _, .leaf _ code arrayLen isDynamic limits =>
      compileLeaf c programType code arrayLen.toNat isDynamic limits
  | _, .record _ arrayLen isDynamic elements =>
      let c := c.compileRecordBegin programType arrayLen.toNat isDynamic
      if elements.isEmpty then .error (.code .emptyRecord)
      else
        match compileRecordFields c programType 0 elements with
        | .error failure => .error failure
        | .ok (c, recordSize) =>
          let c := if arrayLen.toNat > 0 then c.compileArrayNextInstruction else c
          match arrayDataSize recordSize arrayLen.toNat isDynamic with
          | .error failure => .error failure
          | .ok dataSize => .ok (c, dataSize)
  | .direct, .refId .. => .error (.code .elementType)
  | .direct, .refName .. => .error (.code .elementType)
  | .direct, .refPtr .. => .error (.code .elementType)
  | .derive, .refId .. => .error (.code .unsupported)
  | .derive, .refName .. => .error (.code .unsupported)
  | .derive, .refPtr _ _ _ target => compileElement c programType (.follow 0) target
  | .follow _, .refId .. => .error .assertion
  | .follow _, .refName .. => .error .assertion
  | .follow count, .refPtr _ _ _ target =>
      if count + 1 ≤ DataElement.maxTypeRefFollowCount then
        compileElement c programType (.follow (count + 1)) target
      else .error (.code .tooManyReferences)

/-- The loop of compile_record_fields -/
def compileRecordFields (c : Compiler) (programType : ProgramType) (recordSize : Nat) :
    List DataElement → Except Failure (Compiler × Nat)
  | [] => .ok (c, recordSize)
  | child :: rest =>
      match c.compileRecordSelectInstruction child.getName rest.isEmpty with
      | .error failure => .error failure
      | .ok c =>
        match compileElement c programType .derive child with
        | .error failure => .error failure
        | .ok (c, childSize) =>
          if childSize = 0 then .error (.code .length)
          else compileRecordFields c programType (u32 (recordSize + childSize)) rest

end

/-- compile_data_element -/
def compileDataElement (c : Compiler) (programType : ProgramType) (e : DataElement) :
    Except Failure (Compiler × Nat) := compileElement c programType .direct e

theorem compileElement_follow (c : Compiler) (programType : ProgramType) (count : Nat)
    (e : DataElement) :
    compileElement c programType (.follow count) e =
      match DataElement.followReferences count e with
      | .ok derived => compileDataElement c programType derived
      | .error failure => .error failure := by
  fun_induction DataElement.followReferences count e with
  | case1 => rfl
  | case2 => rfl
  | case3 count _ _ _ target bounded ih =>
    rw [← ih]
    simp only [compileElement, if_pos bounded]
  | case4 count _ _ _ target unbounded => simp only [compileElement, if_neg unbounded]
  | case5 => simp only [compileElement, compileDataElement]
  | case6 => simp only [compileElement, compileDataElement]

theorem compileElement_derive (c : Compiler) (programType : ProgramType) (e : DataElement) :
    compileElement c programType .derive e =
      match e.deriveDataElement with
      | .ok derived => compileDataElement c programType derived
      | .error failure => .error failure := by
  cases e with
  | refPtr name arrayLen isDynamic target =>
    simp only [compileElement, DataElement.deriveDataElement, compileElement_follow]
  | _ => simp only [compileElement, compileDataElement, DataElement.deriveDataElement]

end Compiler

/-- What apx_compiler_compile_port returns: the program pointer and the error code, which is
`none` for APX_NO_ERROR. -/
structure CompiledPort where
  program : Option Bytes
  error : Option Failure
  deriving DecidableEq, Repr

/-- apx_compiler_compile_port on a port with this effective data element and queue length -/
def compilePort (effective : DataElement) (queueLength : Nat) (programType : ProgramType) :
    CompiledPort :=
  match Compiler.compileDataElement {} programType effective with
  | .error failure => ⟨none, some failure⟩
  | .ok (c, elementSize) =>
    match encodeHeader programType elementSize queueLength c.hasDynamicData with
    -- the empty program that should have got the header is returned with the error
    | .error failure => ⟨some [], some failure⟩
    | .ok header => ⟨some (header ++ c.program), none⟩

end Apx
