import Apx.Value

/-! Data elements (data_element.c): the type of a port as a tree. -/

namespace Apx

/-- The type codes of an element without children. -/
inductive LeafCode where
  | none
  | uint8 | uint16 | uint32 | uint64
  | int8 | int16 | int32 | int64
  | char | char8 | char16 | char32
  | bool | byte
  deriving DecidableEq, Repr

def LeafCode.typeCode : LeafCode → TypeCode
  | .none => .none
  | .uint8 => .uint8
  | .uint16 => .uint16
  | .uint32 => .uint32
  | .uint64 => .uint64
  | .int8 => .int8
  | .int16 => .int16
  | .int32 => .int32
  | .int64 => .int64
  | .char => .char
  | .char8 => .char8
  | .char16 => .char16
  | .char32 => .char32
  | .bool => .bool
  | .byte => .byte

/-- The lower_limit and upper_limit unions, as the 64-bit words that hold them. -/
structure Limits where
  lower : BitVec 64
  upper : BitVec 64
  deriving DecidableEq, Repr

/-- A zero-terminated string, as the bytes before its terminator. -/
structure CString where
  bytes : Bytes
  noZero : 0 ∉ bytes
  deriving DecidableEq, Repr

def CString.a : CString := ⟨[97], by decide⟩

def CString.b : CString := ⟨[98], by decide⟩

/-- apx_dataElement_t. A resolved reference holds the element of the type it points to, so
its pointers are never null. -/
inductive DataElement where
  | leaf (name : Option CString) (code : LeafCode) (arrayLen : UInt32) (isDynamic : Bool)
      (limits : Option Limits)
  | record (name : Option CString) (arrayLen : UInt32) (isDynamic : Bool)
      (elements : List DataElement)
  | refId (name : Option CString) (arrayLen : UInt32) (isDynamic : Bool) (id : UInt32)
  | refName (name : Option CString) (arrayLen : UInt32) (isDynamic : Bool) (typeName : CString)
  | refPtr (name : Option CString) (arrayLen : UInt32) (isDynamic : Bool) (target : DataElement)
  deriving Repr

namespace DataElement

/-- apx_dataElement_get_name -/
def getName : DataElement → Option CString
  | .leaf name .. => name
  | .record name .. => name
  | .refId name .. => name
  | .refName name .. => name
  | .refPtr name .. => name

/-- apx_dataElement_get_array_length -/
def getArrayLength : DataElement → Nat
  | .leaf _ _ arrayLen .. => arrayLen.toNat
  | .record _ arrayLen .. => arrayLen.toNat
  | .refId _ arrayLen .. => arrayLen.toNat
  | .refName _ arrayLen .. => arrayLen.toNat
  | .refPtr _ arrayLen .. => arrayLen.toNat

/-- apx_dataElement_is_array -/
def isArray (e : DataElement) : Bool := e.getArrayLength > 0

/-- apx_dataElement_is_dynamic_array -/
def isDynamicArray : DataElement → Bool
  | .leaf _ _ _ isDynamic _ => isDynamic
  | .record _ _ isDynamic _ => isDynamic
  | .refId _ _ isDynamic _ => isDynamic
  | .refName _ _ isDynamic _ => isDynamic
  | .refPtr _ _ isDynamic _ => isDynamic

/-- apx_dataElement_get_type_code -/
def getTypeCode : DataElement → TypeCode
  | .leaf _ code .. => code.typeCode
  | .record .. => .record
  | .refId .. => .refId
  | .refName .. => .refName
  | .refPtr .. => .refPtr

/-- MAX_TYPE_REF_FOLLOW_COUNT -/
def maxTypeRefFollowCount : Nat := 255

/-- The loop of apx_dataType_derive_data_element, after `count` references. It asserts
that every reference on the way has been resolved. -/
def followReferences (count : Nat) : DataElement → Except Failure DataElement
  | .refId .. => .error .assertion
  | .refName .. => .error .assertion
  | .refPtr _ _ _ target =>
      if count + 1 ≤ maxTypeRefFollowCount then followReferences (count + 1) target
      else .error (.code .tooManyReferences)
  | .leaf name code arrayLen isDynamic limits => .ok (.leaf name code arrayLen isDynamic limits)
  | .record name arrayLen isDynamic elements => .ok (.record name arrayLen isDynamic elements)

/-- apx_dataElement_derive_data_element -/
def deriveDataElement : DataElement → Except Failure DataElement
  | .refId .. => .error (.code .unsupported)
  | .refName .. => .error (.code .unsupported)
  | .refPtr _ _ _ target => followReferences 0 target
  | .leaf name code arrayLen isDynamic limits => .ok (.leaf name code arrayLen isDynamic limits)
  | .record name arrayLen isDynamic elements => .ok (.record name arrayLen isDynamic elements)

/-- apx_dataElement_get_limits_int32 and its three siblings read one part of the unions. -/
def limitsInt32 (limits : Limits) : BitVec 32 × BitVec 32 :=
  (limits.lower.setWidth 32, limits.upper.setWidth 32)

def limitsUInt32 (limits : Limits) : BitVec 32 × BitVec 32 :=
  (limits.lower.setWidth 32, limits.upper.setWidth 32)

def limitsInt64 (limits : Limits) : BitVec 64 × BitVec 64 := (limits.lower, limits.upper)

def limitsUInt64 (limits : Limits) : BitVec 64 × BitVec 64 := (limits.lower, limits.upper)

end DataElement

end Apx
