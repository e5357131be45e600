import Apx.Value

/-! Numbers, ranges and instruction constants shared by the parts of the virtual machine
(vm_defs.h, vm_common.c). -/

namespace Apx

namespace Vm

/-! Opcodes and variants of an instruction byte. -/

def opcodeUnpack : Nat := 0
def opcodePack : Nat := 1
def opcodeDataSize : Nat := 2
def opcodeDataCtrl : Nat := 3
def opcodeFlowCtrl : Nat := 4

def variantUInt8 : Nat := 0
def variantUInt16 : Nat := 1
def variantUInt32 : Nat := 2
def variantUInt64 : Nat := 3
def variantInt8 : Nat := 4
def variantInt16 : Nat := 5
def variantInt32 : Nat := 6
def variantInt64 : Nat := 7
def variantBool : Nat := 8
def variantByte : Nat := 9
def variantRecord : Nat := 10
def variantArray : Nat := 11
def variantChar : Nat := 12
def variantChar8 : Nat := 13
def variantChar16 : Nat := 14
def variantChar32 : Nat := 15
def variantLast : Nat := variantChar32

def variantArraySizeU8 : Nat := 0
def variantArraySizeU16 : Nat := 1
def variantArraySizeU32 : Nat := 2
def variantArraySizeLast : Nat := variantArraySizeU32
def variantElementSizeU8Base : Nat := 3
def variantElementSizeU16Base : Nat := 6
def variantElementSizeU32Base : Nat := 9
def variantElementSizeLast : Nat := variantElementSizeU32Base + variantUInt32

def variantRecordSelect : Nat := 0
def variantLimitCheckNone : Nat := 0
def variantLimitCheckU8 : Nat := 1
def variantLimitCheckU16 : Nat := 2
def variantLimitCheckU32 : Nat := 3
def variantLimitCheckU64 : Nat := 4
def variantLimitCheckS8 : Nat := 5
def variantLimitCheckS16 : Nat := 6
def variantLimitCheckS32 : Nat := 8
def variantLimitCheckS64 : Nat := 9
def variantLimitCheckLast : Nat := variantLimitCheckS64

def variantArrayNext : Nat := 0

/-- apx_vm_variant_to_size -/
def variantToSize (variant : Nat) : Nat :=
  if variant = variantUInt8 ∨ variant = variantBool ∨ variant = variantByte ∨
      variant = variantChar ∨ variant = variantChar8 then 1
  else if variant = variantUInt16 ∨ variant = variantChar16 then 2
  else if variant = variantUInt32 ∨ variant = variantChar32 then 4
  else if variant = variantUInt64 then 8
  else if variant = variantInt8 then 1
  else if variant = variantInt16 then 2
  else if variant = variantInt32 then 4
  else if variant = variantInt64 then 8
  else 0

/-- apx_vm_variant_to_type_code -/
def variantToTypeCode (variant : Nat) : TypeCode :=
  if variant = variantUInt8 then .uint8
  else if variant = variantUInt16 then .uint16
  else if variant = variantUInt32 then .uint32
  else if variant = variantUInt64 then .uint64
  else if variant = variantInt8 then .int8
  else if variant = variantInt16 then .int16
  else if variant = variantInt32 then .int32
  else if variant = variantInt64 then .int64
  else if variant = variantBool then .bool
  else if variant = variantByte then .byte
  else if variant = variantRecord then .record
  else if variant = variantChar then .char
  else if variant = variantChar8 then .char8
  else if variant = variantChar16 then .char16
  else if variant = variantChar32 then .char32
  else .none

/-- apx_vm_size_type_to_size -/
def sizeTypeToSize : SizeType → Nat
  | .none => 0
  | .uint8 => 1
  | .uint16 => 2
  | .uint32 => 4

/-- apx_vm_size_to_size_type -/
def sizeToSizeType (size : Nat) : SizeType :=
  if size > 0 then
    if size ≤ uint8Max then .uint8
    else if size ≤ uint16Max then .uint16
    else .uint32
  else .none

theorem sizeToSizeType_ne {size : Nat} (positive : 0 < size) : sizeToSizeType size ≠ .none := by
  unfold sizeToSizeType
  rw [if_pos positive]
  split <;> [decide; split <;> decide]

/-- apx_vm_size_type_to_variant; `none` is APX_VM_VARIANT_INVALID. -/
def sizeTypeToVariant : SizeType → Option Nat
  | .none => none
  | .uint8 => some variantUInt8
  | .uint16 => some variantUInt16
  | .uint32 => some variantUInt32

/-! The parse functions read a number at an offset of a byte string that ends where the
string ends, and return it with the offset behind it; `none` is the null pointer. -/

/-- apx_vm_parse_uint32_by_variant -/
def parseUInt32ByVariant (bytes : Bytes) (begin variant : Nat) : Option (BitVec 32 × Nat) :=
  let unpackSize := variantToSize variant
  if unpackSize = 0 ∨ begin + unpackSize > bytes.length then none
  else some (BitVec.ofNat 32 (LittleEndian.unpackLE (slice bytes begin unpackSize)),
    begin + unpackSize)

/-- apx_vm_parse_uint64_by_variant -/
def parseUInt64ByVariant (bytes : Bytes) (begin variant : Nat) : Option (BitVec 64 × Nat) :=
  let unpackSize := variantToSize variant
  if unpackSize = 0 ∨ begin + unpackSize > bytes.length then none
  else some (BitVec.ofNat 64 (LittleEndian.unpackLE (slice bytes begin unpackSize)),
    begin + unpackSize)

/-- apx_vm_parse_int32_by_variant -/
def parseInt32ByVariant (bytes : Bytes) (begin variant : Nat) : Option (BitVec 32 × Nat) :=
  let unpackSize := variantToSize variant
  if unpackSize = 0 ∨ begin + unpackSize > bytes.length then none
  else
    let number := LittleEndian.unpackLE (slice bytes begin unpackSize)
    if variant = variantInt8 then
      some ((BitVec.ofNat 8 number).signExtend 32, begin + unpackSize)
    else if variant = variantInt16 then
      some ((BitVec.ofNat 16 number).signExtend 32, begin + unpackSize)
    else if variant = variantInt32 then some (BitVec.ofNat 32 number, begin + unpackSize)
    else none

/-- apx_vm_parse_int64_by_variant -/
def parseInt64ByVariant (bytes : Bytes) (begin variant : Nat) : Option (BitVec 64 × Nat) :=
  let unpackSize := variantToSize variant
  if unpackSize = 0 ∨ begin + unpackSize > bytes.length then none
  else some (BitVec.ofNat 64 (LittleEndian.unpackLE (slice bytes begin unpackSize)),
    begin + unpackSize)

/-- apx_vm_parse_uint32_by_size_type -/
def parseUInt32BySizeType (bytes : Bytes) (begin : Nat) (sizeType : SizeType) :
    Option (BitVec 32 × Nat) :=
  match sizeTypeToVariant sizeType with
  | none => none
  | some variant => parseUInt32ByVariant bytes begin variant

/-! The range tests; `true` is APX_NO_ERROR, `false` APX_VALUE_RANGE_ERROR. -/

/-- apx_vm_value_in_range_i32 -/
def valueInRangeI32 (value lower upper : BitVec 32) : Bool :=
  !((lower.toInt > -2 ^ 31 && value.toInt < lower.toInt) ||
    (upper.toInt < 2 ^ 31 - 1 && value.toInt > upper.toInt))

/-- apx_vm_value_in_range_u32 -/
def valueInRangeU32 (value lower upper : BitVec 32) : Bool :=
  !((lower.toNat > 0 && value.toNat < lower.toNat) ||
    (upper.toNat < 2 ^ 32 - 1 && value.toNat > upper.toNat))

/-- apx_vm_value_in_range_i64 -/
def valueInRangeI64 (value lower upper : BitVec 64) : Bool :=
  !((lower.toInt > -2 ^ 63 && value.toInt < lower.toInt) ||
    (upper.toInt < 2 ^ 63 - 1 && value.toInt > upper.toInt))

/-- apx_vm_value_in_range_u64 -/
def valueInRangeU64 (value lower upper : BitVec 64) : Bool :=
  !((lower.toNat > 0 && value.toNat < lower.toNat) ||
    (upper.toNat < 2 ^ 64 - 1 && value.toNat > upper.toNat))

/-! The tests that skip a limit at the end of the type still compare with both limits. -/

theorem valueInRangeI32_iff (value lower upper : BitVec 32) :
    valueInRangeI32 value lower upper = true ↔
      lower.toInt ≤ value.toInt ∧ value.toInt ≤ upper.toInt := by
  have low := BitVec.le_toInt value
  have high := BitVec.toInt_lt (x := value)
  simp only [valueInRangeI32, Bool.not_eq_true', Bool.or_eq_false_iff, Bool.and_eq_false_iff,
    decide_eq_false_iff_not]
  omega

theorem valueInRangeU32_iff (value lower upper : BitVec 32) :
    valueInRangeU32 value lower upper = true ↔
      lower.toNat ≤ value.toNat ∧ value.toNat ≤ upper.toNat := by
  have high := value.isLt
  simp only [valueInRangeU32, Bool.not_eq_true', Bool.or_eq_false_iff, Bool.and_eq_false_iff,
    decide_eq_false_iff_not]
  omega

theorem valueInRangeI64_iff (value lower upper : BitVec 64) :
    valueInRangeI64 value lower upper = true ↔
      lower.toInt ≤ value.toInt ∧ value.toInt ≤ upper.toInt := by
  have low := BitVec.le_toInt value
  have high := BitVec.toInt_lt (x := value)
  simp only [valueInRangeI64, Bool.not_eq_true', Bool.or_eq_false_iff, Bool.and_eq_false_iff,
    decide_eq_false_iff_not]
  omega

theorem valueInRangeU64_iff (value lower upper : BitVec 64) :
    valueInRangeU64 value lower upper = true ↔
      lower.toNat ≤ value.toNat ∧ value.toNat ≤ upper.toNat := by
  have high := value.isLt
  simp only [valueInRangeU64, Bool.not_eq_true', Bool.or_eq_false_iff, Bool.and_eq_false_iff,
    decide_eq_false_iff_not]
  omega

/-! What the parse functions make of a number that was written with packLE. -/

theorem parseUInt32ByVariant_packLE {program rest : Bytes} {next variant value size : Nat}
    (here : program.drop next = LittleEndian.packLE value size ++ rest) (width : variantToSize variant = size)
    (positive : 0 < size) (fits : value < 256 ^ size) :
    parseUInt32ByVariant program next variant = some (BitVec.ofNat 32 value, next + size) := by
  have nonempty : LittleEndian.packLE value size ≠ [] := by
    rw [← List.length_pos_iff, LittleEndian.packLE_length]
    exact positive
  have inside := le_length_of_drop here nonempty
  rw [LittleEndian.packLE_length] at inside
  have outside : ¬(size = 0 ∨ next + size > program.length) := by omega
  simp only [parseUInt32ByVariant, width, if_neg outside,
    slice_of_drop here (LittleEndian.packLE_length value size), LittleEndian.unpackLE_packLE_of_lt fits]

end Vm

end Apx
