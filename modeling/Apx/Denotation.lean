import Apx.Operation
import Apx.Compiler

/-! What a data element stands for: the operations of its programs and the size of its
values in a buffer. -/

namespace Apx

open Vm

/-- The bytes of one value without the array around it. -/
def LeafCode.size : LeafCode → Nat
  | .uint8 | .int8 | .char | .char8 | .bool | .byte => 1
  | .uint16 | .int16 => 2
  | .uint32 | .int32 => 4
  | .uint64 | .int64 => 8
  | .none | .char16 | .char32 => 0

/-- The limits are numbers of the type that they limit. -/
def Limits.Fit (limits : Limits) : LeafCode → Prop
  | .uint8 | .byte => (DataElement.limitsUInt32 limits).1.toNat < 2 ^ 8 ∧
      (DataElement.limitsUInt32 limits).2.toNat < 2 ^ 8
  | .uint16 => (DataElement.limitsUInt32 limits).1.toNat < 2 ^ 16 ∧
      (DataElement.limitsUInt32 limits).2.toNat < 2 ^ 16
  | .int8 => (-2 ^ 7 ≤ (DataElement.limitsInt32 limits).1.toInt ∧
        (DataElement.limitsInt32 limits).1.toInt < 2 ^ 7) ∧
      -2 ^ 7 ≤ (DataElement.limitsInt32 limits).2.toInt ∧
        (DataElement.limitsInt32 limits).2.toInt < 2 ^ 7
  | .int16 => (-2 ^ 15 ≤ (DataElement.limitsInt32 limits).1.toInt ∧
        (DataElement.limitsInt32 limits).1.toInt < 2 ^ 15) ∧
      -2 ^ 15 ≤ (DataElement.limitsInt32 limits).2.toInt ∧
        (DataElement.limitsInt32 limits).2.toInt < 2 ^ 15
  | _ => True

instance (limits : Limits) (code : LeafCode) : Decidable (limits.Fit code) := by
  cases code <;> unfold Limits.Fit <;> infer_instance

/-- The range check of a type with limits, for the types that can have them. -/
def limitCheck (code : LeafCode) (limits : Limits) : List Operation :=
  match code with
  | .uint8 | .uint16 | .uint32 | .byte =>
      [.rangeCheckUInt32 ⟨(DataElement.limitsUInt32 limits).1, (DataElement.limitsUInt32 limits).2⟩]
  | .uint64 =>
      [.rangeCheckUInt64 ⟨(DataElement.limitsUInt64 limits).1, (DataElement.limitsUInt64 limits).2⟩]
  | .int8 | .int16 | .int32 =>
      [.rangeCheckInt32 ⟨(DataElement.limitsInt32 limits).1, (DataElement.limitsInt32 limits).2⟩]
  | .int64 =>
      [.rangeCheckInt64 ⟨(DataElement.limitsInt64 limits).1, (DataElement.limitsInt64 limits).2⟩]
  | _ => []

/-- The operand of a data operation. Only an array can be dynamic. -/
def dataInfo (typeCode : TypeCode) (arrayLength : Nat) (isDynamic : Bool) : PackUnpackInfo where
  typeCode := typeCode
  arrayLength := arrayLength
  isDynamicArray := isDynamic && decide (arrayLength > 0)

/-- A pack program checks a value before it writes it, an unpack program after reading it. -/
def leafOperations (programType : ProgramType) (code : LeafCode) (arrayLength : Nat)
    (isDynamic : Bool) (limits : Option Limits) : List Operation :=
  let data := Operation.data programType (dataInfo code.typeCode arrayLength isDynamic)
  match limits, programType with
  | none, _ => [data]
  | some limits, .pack => limitCheck code limits ++ [data]
  | some limits, .unpack => data :: limitCheck code limits

/-- The bytes of an array of elements of this size, with the length prefix of a dynamic one. -/
def extent (size arrayLength : Nat) (isDynamic : Bool) : Nat :=
  if arrayLength = 0 then size
  else size * arrayLength + if isDynamic then sizeTypeToSize (sizeToSizeType arrayLength) else 0

namespace DataElement

/-- Induction over a tree, with the hypothesis for all children of a record. -/
@[elab_as_elim]
theorem tree_induction {motive : DataElement → Prop}
    (leaf : ∀ name code arrayLen isDynamic limits,
      motive (.leaf name code arrayLen isDynamic limits))
    (record : ∀ name arrayLen isDynamic elements, (∀ child ∈ elements, motive child) →
      motive (.record name arrayLen isDynamic elements))
    (refId : ∀ name arrayLen isDynamic id, motive (.refId name arrayLen isDynamic id))
    (refName : ∀ name arrayLen isDynamic typeName,
      motive (.refName name arrayLen isDynamic typeName))
    (refPtr : ∀ name arrayLen isDynamic target, motive target →
      motive (.refPtr name arrayLen isDynamic target))
    (e : DataElement) : motive e := by
  refine @DataElement.rec motive (fun elements => ∀ child ∈ elements, motive child)
    leaf record refId refName refPtr ?_ ?_ e
  · intro child mem
    exact absurd mem (List.not_mem_nil)
  · intro head tail first rest child mem
    rcases List.mem_cons.mp mem with rfl | mem
    · exact first
    · exact rest child mem

/-- The bytes of a field name, which a record select carries. -/
def nameBytes (e : DataElement) : Bytes :=
  match e.getName with
  | some name => name.bytes
  | none => []

mutual

/-- The operations that compile_data_element makes of a tree. It takes a reference for the element
of its type, without the array suffix of the reference. -/
def emitted (programType : ProgramType) : DataElement → List Operation
  | .leaf _ code arrayLen isDynamic limits =>
      leafOperations programType code arrayLen.toNat isDynamic limits
  | .record _ arrayLen isDynamic elements =>
      Operation.data programType (dataInfo .record arrayLen.toNat isDynamic) ::
        (emittedFields programType elements ++
          if arrayLen.toNat > 0 then [Operation.arrayNext] else [])
  | .refPtr _ _ _ target => emitted programType target
  | .refId .. => []
  | .refName .. => []

def emittedFields (programType : ProgramType) : List DataElement → List Operation
  | [] => []
  | child :: rest =>
      Operation.recordSelect child.nameBytes rest.isEmpty ::
        (emitted programType child ++ emittedFields programType rest)

end

mutual

/-- The bytes that a value takes in the buffer of a program of the tree, without any overflow and without the array
suffixes of references. -/
def emittedSize : DataElement → Nat
  | .leaf _ code arrayLen isDynamic _ => extent code.size arrayLen.toNat isDynamic
  | .record _ arrayLen isDynamic elements => extent (emittedSizes elements) arrayLen.toNat isDynamic
  | .refPtr _ _ _ target => emittedSize target
  | .refId .. => 0
  | .refName .. => 0

def emittedSizes : List DataElement → Nat
  | [] => 0
  | child :: rest => emittedSize child + emittedSizes rest

end

/-! What the tree itself says: a reference stands for its type with the array suffix of the
reference. -/

/-- The element of a type where a reference to it stands. The array suffix of the reference is that
of the element when the type is not an array itself. -/
def inPlaceOf (name : Option CString) (arrayLen : UInt32) (isDynamic : Bool) : DataElement → DataElement
  | .leaf _ code n d limits =>
      if n = 0 then .leaf name code arrayLen (d || isDynamic) limits else .leaf name code n d limits
  | .record _ n d elements =>
      if n = 0 then .record name arrayLen (d || isDynamic) elements else .record name n d elements
  | .refId _ n d id =>
      if n = 0 then .refId name arrayLen (d || isDynamic) id else .refId name n d id
  | .refName _ n d typeName =>
      if n = 0 then .refName name arrayLen (d || isDynamic) typeName else .refName name n d typeName
  | .refPtr _ n d target =>
      if n = 0 then .refPtr name arrayLen (d || isDynamic) target else .refPtr name n d target

mutual

/-- The element with every reference replaced by what its type is. -/
def replaced : DataElement → DataElement
  | .leaf name code arrayLen isDynamic limits => .leaf name code arrayLen isDynamic limits
  | .record name arrayLen isDynamic elements => .record name arrayLen isDynamic (replacedAll elements)
  | .refId name arrayLen isDynamic id => .refId name arrayLen isDynamic id
  | .refName name arrayLen isDynamic typeName => .refName name arrayLen isDynamic typeName
  | .refPtr name arrayLen isDynamic target => inPlaceOf name arrayLen isDynamic (replaced target)

def replacedAll : List DataElement → List DataElement
  | [] => []
  | child :: rest => replaced child :: replacedAll rest

end

theorem replacedAll_eq (elements : List DataElement) : replacedAll elements = elements.map replaced := by
  induction elements with
  | nil => rfl
  | cons head tail ih => rw [replacedAll, ih, List.map_cons]

/-- The operations that a tree denotes. -/
def operations (e : DataElement) (programType : ProgramType) : List Operation :=
  e.replaced.emitted programType

/-- The exact number of bytes of a value of the tree in a buffer. -/
def layoutSize (e : DataElement) : Nat := e.replaced.emittedSize

mutual

/-- All limits of the tree are numbers of the type that they limit. -/
def LimitsFit : DataElement → Prop
  | .leaf _ code _ _ limits => ∀ l ∈ limits, Limits.Fit l code
  | .record _ _ _ elements => LimitsFits elements
  | .refPtr _ _ _ target => LimitsFit target
  | .refId .. => True
  | .refName .. => True

def LimitsFits : List DataElement → Prop
  | [] => True
  | child :: rest => LimitsFit child ∧ LimitsFits rest

end

mutual

/-- The compiler has no reason to refuse the tree, sizes apart: every reference is resolved,
every record has fields, and every field has a name. -/
def Complete : DataElement → Prop
  | .leaf _ code _ _ _ => Compiler.leafInfo code ≠ none
  | .record _ _ _ elements => elements ≠ [] ∧ Completes elements
  | .refPtr _ _ _ target => Complete target
  | .refId .. => False
  | .refName .. => False

def Completes : List DataElement → Prop
  | [] => True
  | child :: rest => child.nameBytes ≠ [] ∧ Complete child ∧ Completes rest

end

theorem Completes.mem {elements : List DataElement} (complete : Completes elements) :
    ∀ child ∈ elements, child.nameBytes ≠ [] ∧ child.Complete := by
  induction elements with
  | nil => nofun
  | cons head tail ih =>
    intro child mem
    rcases List.mem_cons.mp mem with rfl | mem
    · exact ⟨complete.1, complete.2.1⟩
    · exact ih complete.2.2 child mem

end DataElement

end Apx
