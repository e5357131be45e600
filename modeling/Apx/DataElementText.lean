import Apx.DataElement
import Mathlib.Data.Nat.Digits.Lemmas

/-! The text of a data element (apx_dataElement_to_string), of which data signatures and port
signatures are made. -/

namespace Apx

def ascii (c : Char) : Byte := UInt8.ofNat c.toNat

/-- The conversion %u of printf -/
def decimal (n : Nat) : Bytes :=
  if n = 0 then [ascii '0'] else ((Nat.digits 10 n).map fun d => UInt8.ofNat (48 + d)).reverse

/-- The conversion %d of printf -/
def signedDecimal (x : Int) : Bytes :=
  if x < 0 then ascii '-' :: decimal x.natAbs else decimal x.natAbs

namespace DataElement

def typeLetter : LeafCode → Option Byte
  | .none => Option.none
  | .uint8 => some (ascii 'C')
  | .uint16 => some (ascii 'S')
  | .uint32 => some (ascii 'L')
  | .uint64 => some (ascii 'Q')
  | .int8 => some (ascii 'c')
  | .int16 => some (ascii 's')
  | .int32 => some (ascii 'l')
  | .int64 => some (ascii 'q')
  | .char => some (ascii 'a')
  | .char8 => some (ascii 'A')
  | .char16 => some (ascii 'u')
  | .char32 => some (ascii 'U')
  | .bool => some (ascii 'b')
  | .byte => some (ascii 'B')

def limitPair (lower upper : Bytes) : Bytes :=
  ascii '(' :: (lower ++ ascii ',' :: (upper ++ [ascii ')']))

/-- limits_to_string -/
def limitsToString (code : LeafCode) (limits : Limits) : Option Bytes :=
  match code with
  | .uint8 | .uint16 | .uint32 | .byte =>
      some (limitPair (decimal (limitsUInt32 limits).1.toNat) (decimal (limitsUInt32 limits).2.toNat))
  | .uint64 =>
      some (limitPair (decimal (limitsUInt64 limits).1.toNat) (decimal (limitsUInt64 limits).2.toNat))
  | .int8 | .int16 | .int32 => some (limitPair (signedDecimal (limitsInt32 limits).1.toInt)
      (signedDecimal (limitsInt32 limits).2.toInt))
  | .int64 => some (limitPair (signedDecimal (limitsInt64 limits).1.toInt)
      (signedDecimal (limitsInt64 limits).2.toInt))
  | _ => Option.none

/-- array_to_string, with the test that comes before it -/
def arrayToString (normalized : Bool) (arrayLen : Nat) (isDynamic : Bool) : Bytes :=
  if arrayLen = 0 then []
  else if isDynamic ∧ normalized then [ascii '[', ascii '*', ascii ']']
  else ascii '[' :: (decimal arrayLen ++ (if isDynamic then [ascii '*', ascii ']'] else [ascii ']']))

def quoted (name : Bytes) : Bytes := ascii '"' :: (name ++ [ascii '"'])

mutual

/-- apx_dataElement_to_string; `none` is the null pointer. -/
def toString (normalized : Bool) : DataElement → Option Bytes
  | .leaf _ code arrayLen isDynamic limits =>
    match typeLetter code with
    | none => none
    | some letter =>
      match limits with
      | none => some (letter :: arrayToString normalized arrayLen.toNat isDynamic)
      | some limits =>
        match limitsToString code limits with
        | none => none
        | some text => some (letter :: (text ++ arrayToString normalized arrayLen.toNat isDynamic))
  | .record _ arrayLen isDynamic elements =>
    match fieldsToString normalized elements with
    | none => none
    | some text =>
        some (ascii '{' :: (text ++ ascii '}' :: arrayToString normalized arrayLen.toNat isDynamic))
  -- a reference has no type letter
  | .refId .. => none
  | .refName .. => none
  | .refPtr .. => none

/-- The loop of apx_dataElement_to_string over the fields of a record -/
def fieldsToString (normalized : Bool) : List DataElement → Option Bytes
  | [] => some []
  | child :: rest =>
    match toString normalized child with
    | none => none
    | some text =>
      match fieldsToString normalized rest with
      | none => none
      | some more =>
          some (quoted ((child.getName.map CString.bytes).getD []) ++ (text ++ more))

end

/-- apx_port_instance_create_port_signature; `none` is an error. -/
def portSignature (portName : Bytes) (e : DataElement) : Option Bytes :=
  (e.toString true).map fun text => quoted portName ++ text

mutual

/-- The texts of the tree are those of a declaration: every type has a letter, and only types that
can have limits have them. References are resolved. -/
def Declared : DataElement → Prop
  | .leaf _ code _ _ limits => code ≠ .none ∧ ∀ l ∈ limits, limitsToString code l ≠ none
  | .record _ _ _ elements => DeclaredAll elements
  | .refPtr _ _ _ target => Declared target
  | .refId .. => False
  | .refName .. => False

def DeclaredAll : List DataElement → Prop
  | [] => True
  | child :: rest => Declared child ∧ DeclaredAll rest

end

mutual

/-- A reference stands somewhere in the tree. -/
def HasReference : DataElement → Prop
  | .leaf .. => False
  | .record _ _ _ elements => HasReferences elements
  | .refPtr .. => True
  | .refId .. => True
  | .refName .. => True

def HasReferences : List DataElement → Prop
  | [] => False
  | child :: rest => HasReference child ∨ HasReferences rest

end

theorem declaredAll_iff (elements : List DataElement) :
    DeclaredAll elements ↔ ∀ child ∈ elements, child.Declared := by
  induction elements with
  | nil => simp [DeclaredAll]
  | cons head tail ih => simp [DeclaredAll, ih]

theorem hasReferences_iff (elements : List DataElement) :
    HasReferences elements ↔ ∃ child ∈ elements, child.HasReference := by
  induction elements with
  | nil => simp [HasReferences]
  | cons head tail ih => simp [HasReferences, ih]

theorem fieldsToString_eq_none_iff (normalized : Bool) (elements : List DataElement) :
    fieldsToString normalized elements = none ↔ ∃ child ∈ elements, child.toString normalized = none := by
  induction elements with
  | nil => simp [fieldsToString]
  | cons head tail ih =>
    rw [fieldsToString, List.exists_mem_cons_iff]
    cases toString normalized head with
    | none => simp
    | some text =>
      simp only [reduceCtorEq, false_or]
      rw [← ih]
      cases fieldsToString normalized tail <;> simp

theorem typeLetter_ne_none {code : LeafCode} (known : code ≠ .none) : typeLetter code ≠ none := by
  cases code <;> first | contradiction | nofun

end DataElement

end Apx
