import Apx.DataElementText
import Apx.Denotation

/-! Ports (port.c): the data element that the programs and the signature of a port are made of. -/

namespace Apx

/-- The limits that apx_dataElement_clone copies. It forgets those of a byte. -/
def Limits.clone (limits : Limits) : LeafCode → Limits
  | .uint8 | .uint16 | .uint32 | .char8 | .char16 | .char32 | .int8 | .int16 | .int32 | .char =>
      ⟨(limits.lower.setWidth 32).setWidth 64, (limits.upper.setWidth 32).setWidth 64⟩
  | .uint64 | .int64 => limits
  | .none | .bool | .byte => ⟨0, 0⟩

namespace DataElement

mutual

/-- apx_dataElement_clone. A clone of a reference points to the same type. -/
def clone : DataElement → DataElement
  | .leaf name code arrayLen isDynamic limits =>
      .leaf name code arrayLen isDynamic (limits.map fun l => l.clone code)
  | .record name arrayLen isDynamic elements => .record name arrayLen isDynamic (cloneAll elements)
  | .refId name arrayLen isDynamic id => .refId name arrayLen isDynamic id
  | .refName name arrayLen isDynamic typeName => .refName name arrayLen isDynamic typeName
  | .refPtr name arrayLen isDynamic target => .refPtr name arrayLen isDynamic target

def cloneAll : List DataElement → List DataElement
  | [] => []
  | child :: rest => clone child :: cloneAll rest

end

/-- apx_dataElement_set_array_length, and apx_dataElement_set_dynamic_array where it applies -/
def setArray (arrayLen : UInt32) (dynamic : Bool) : DataElement → DataElement
  | .leaf name code _ isDynamic limits => .leaf name code arrayLen (isDynamic || dynamic) limits
  | .record name _ isDynamic elements => .record name arrayLen (isDynamic || dynamic) elements
  | .refId name _ isDynamic id => .refId name arrayLen (isDynamic || dynamic) id
  | .refName name _ isDynamic typeName => .refName name arrayLen (isDynamic || dynamic) typeName
  | .refPtr name _ isDynamic target => .refPtr name arrayLen (isDynamic || dynamic) target

/-- array_len as it is stored -/
def arrayLen : DataElement → UInt32
  | .leaf _ _ arrayLen .. => arrayLen
  | .record _ arrayLen .. => arrayLen
  | .refId _ arrayLen .. => arrayLen
  | .refName _ arrayLen .. => arrayLen
  | .refPtr _ arrayLen .. => arrayLen

theorem isArray_eq_false_iff (e : DataElement) : e.isArray = false ↔ e.arrayLen = 0 := by
  cases e <;> simp [isArray, getArrayLength, arrayLen, ← UInt32.toNat_inj]

/-- The loop of apx_dataType_derive_data_element with a place for the parent, which is the last
reference that was followed. -/
def followWithParent (count : Nat) (parent : DataElement) :
    DataElement → Except Failure (DataElement × DataElement)
  | .refId .. => .error .assertion
  | .refName .. => .error .assertion
  | .refPtr name arrayLen isDynamic target =>
      if count + 1 ≤ maxTypeRefFollowCount then
        followWithParent (count + 1) (.refPtr name arrayLen isDynamic target) target
      else .error (.code .tooManyReferences)
  | .leaf name code arrayLen isDynamic limits =>
      .ok (.leaf name code arrayLen isDynamic limits, parent)
  | .record name arrayLen isDynamic elements => .ok (.record name arrayLen isDynamic elements, parent)

/-- The static derive_data_element of port.c -/
def deriveWithParent (e : DataElement) : Except Failure (DataElement × Option DataElement) :=
  match e with
  | .refPtr _ _ _ target =>
    match followWithParent 0 e target with
    | .error failure => .error failure
    | .ok (element, parent) => .ok (element, some parent)
  | _ => .ok (e, none)

/-- apx_port_flatten_data_element: the effective data element of a port -/
def flatten (e : DataElement) : Except Failure DataElement :=
  match e.deriveWithParent with
  | .error failure => .error failure
  | .ok (element, none) => .ok element.clone
  | .ok (element, some parent) =>
      if parent.isArray ∧ element.clone.isArray then .error (.code .parse)
      else if parent.isArray then .ok (element.clone.setArray parent.arrayLen parent.isDynamicArray)
      else .ok element.clone

end DataElement

/-- apx_port_t, as far as the build of a node reads it: the element of its data signature, what
apx_node_finalize made of that element and of the init value, and the queue length among its
attributes. -/
structure Port where
  name : CString
  dataElement : DataElement
  effectiveElement : Option DataElement
  queueLength : Nat := 0
  properInitValue : Option Dv := none
  deriving Repr

/-- apx_compiler_compile_port -/
def Port.compile (port : Port) (programType : ProgramType) : CompiledPort :=
  match port.effectiveElement with
  | none => ⟨none, some (.code .nullPtr)⟩
  | some e => compilePort e port.queueLength programType

namespace DataElement

/-! References and the text that could stand in their place -/

theorem cloneAll_eq (elements : List DataElement) : cloneAll elements = elements.map clone := by
  induction elements with
  | nil => rfl
  | cons head tail ih => rw [cloneAll, ih, List.map_cons]

/-- A reference has no text, and so has no element with a reference in it. -/
theorem toString_hasReference (normalized : Bool) (e : DataElement) (has : e.HasReference) :
    e.toString normalized = none := by
  induction e using tree_induction with
  | leaf => exact has.elim
  | record name arrayLen isDynamic elements ih =>
    obtain ⟨child, mem, hasChild⟩ := (hasReferences_iff elements).mp has
    have fields : fieldsToString normalized elements = none :=
      (fieldsToString_eq_none_iff normalized elements).mpr ⟨child, mem, ih child mem hasChild⟩
    rw [toString, fields]
  | refId => rfl
  | refName => rfl
  | refPtr => rfl

/-- So has no element that is not declared. -/
theorem toString_not_declared (normalized : Bool) (e : DataElement) (not : ¬e.Declared) :
    e.toString normalized = none := by
  induction e using tree_induction with
  | leaf name code arrayLen isDynamic limits =>
    by_cases known : code = .none
    · rw [toString, known, typeLetter]
    · cases limits with
      | none => exact absurd ⟨known, nofun⟩ not
      | some limits =>
        have unwritten : limitsToString code limits = none := by
          by_contra written
          exact not ⟨known, fun l mem => (Option.some.inj mem) ▸ written⟩
        rw [toString]
        simp only [unwritten]
        split <;> rfl
  | record name arrayLen isDynamic elements ih =>
    rw [Declared, declaredAll_iff] at not
    obtain ⟨child, mem, notChild⟩ : ∃ child ∈ elements, ¬child.Declared := by simpa using not
    have fields : fieldsToString normalized elements = none :=
      (fieldsToString_eq_none_iff normalized elements).mpr ⟨child, mem, ih child mem notChild⟩
    rw [toString, fields]
  | refId => rfl
  | refName => rfl
  | refPtr => rfl

/-- Every other declared element has a text. -/
theorem toString_declared (normalized : Bool) (e : DataElement) (declared : e.Declared)
    (none_ : ¬e.HasReference) : e.toString normalized ≠ none := by
  induction e using tree_induction with
  | leaf name code arrayLen isDynamic limits =>
    obtain ⟨letter, same⟩ := Option.ne_none_iff_exists'.mp (typeLetter_ne_none declared.1)
    rw [toString, same]
    cases limits with
    | none => nofun
    | some limits =>
      obtain ⟨text, written⟩ := Option.ne_none_iff_exists'.mp (declared.2 limits rfl)
      simp only [written]
      nofun
  | record name arrayLen isDynamic elements ih =>
    have fields : fieldsToString normalized elements ≠ none := by
      intro absent
      obtain ⟨child, mem, absentChild⟩ := (fieldsToString_eq_none_iff normalized elements).mp absent
      have noneChild : ¬child.HasReference := fun has =>
        none_ ((hasReferences_iff elements).mpr ⟨child, mem, has⟩)
      exact ih child mem ((declaredAll_iff elements).mp declared child mem) noneChild absentChild
    obtain ⟨text, written⟩ := Option.ne_none_iff_exists'.mp fields
    rw [toString, written]
    nofun
  | refId => exact declared.elim
  | refName => exact declared.elim
  | refPtr => exact absurd trivial none_

theorem limitsToString_clone (code : LeafCode) (limits : Limits) :
    limitsToString code (limits.clone code) = none ↔ limitsToString code limits = none := by
  cases code <;> simp [limitsToString]

theorem declared_clone (e : DataElement) : e.clone.Declared ↔ e.Declared := by
  induction e using tree_induction with
  | leaf name code arrayLen isDynamic limits =>
    rw [clone, Declared, Declared]
    apply and_congr_right
    intro _
    cases limits with
    | none => simp
    | some limits =>
      simp only [Option.map_some, Option.mem_def, Option.some.injEq, forall_eq', ne_eq,
        limitsToString_clone]
  | record name arrayLen isDynamic elements ih =>
    rw [clone, cloneAll_eq, Declared, Declared, declaredAll_iff, declaredAll_iff]
    constructor
    · intro all child mem
      exact (ih child mem).mp (all _ (List.mem_map_of_mem mem))
    · intro all child mem
      obtain ⟨child', mem', rfl⟩ := List.mem_map.mp mem
      exact (ih child' mem').mpr (all child' mem')
  | refId => exact Iff.rfl
  | refName => exact Iff.rfl
  | refPtr => exact Iff.rfl

theorem hasReference_clone (e : DataElement) : e.clone.HasReference ↔ e.HasReference := by
  induction e using tree_induction with
  | leaf => exact Iff.rfl
  | record name arrayLen isDynamic elements ih =>
    rw [clone, cloneAll_eq, HasReference, HasReference, hasReferences_iff, hasReferences_iff]
    constructor
    · rintro ⟨child, mem, has⟩
      obtain ⟨child', mem', rfl⟩ := List.mem_map.mp mem
      exact ⟨child', mem', (ih child' mem').mp has⟩
    · rintro ⟨child, mem, has⟩
      exact ⟨child.clone, List.mem_map_of_mem mem, (ih child mem).mpr has⟩
  | refId => exact Iff.rfl
  | refName => exact Iff.rfl
  | refPtr => exact Iff.rfl

theorem inPlaceOf_keeps (name : Option CString) (arrayLen : UInt32) (isDynamic : Bool)
    (e : DataElement) :
    ((e.inPlaceOf name arrayLen isDynamic).Declared ↔ e.Declared) ∧
      ((e.inPlaceOf name arrayLen isDynamic).HasReference ↔ e.HasReference) := by
  cases e <;> constructor <;> rw [inPlaceOf] <;> split <;> exact Iff.rfl

/-- Replacing all references of a declared element leaves none. -/
theorem declared_replaced (e : DataElement) (declared : e.Declared) :
    e.replaced.Declared ∧ ¬e.replaced.HasReference := by
  induction e using tree_induction with
  | leaf => exact ⟨declared, fun has => has⟩
  | record name arrayLen isDynamic elements ih =>
    have each := fun child mem => ih child mem ((declaredAll_iff elements).mp declared child mem)
    rw [replaced, replacedAll_eq, Declared, HasReference, declaredAll_iff, hasReferences_iff]
    constructor
    · intro child mem
      obtain ⟨child', mem', rfl⟩ := List.mem_map.mp mem
      exact (each child' mem').1
    · rintro ⟨child, mem, has⟩
      obtain ⟨child', mem', rfl⟩ := List.mem_map.mp mem
      exact (each child' mem').2 has
  | refId => exact declared.elim
  | refName => exact declared.elim
  | refPtr name arrayLen isDynamic target ih =>
    obtain ⟨declared', none_⟩ := ih declared
    obtain ⟨declaredIff, hasIff⟩ := inPlaceOf_keeps name arrayLen isDynamic target.replaced
    rw [replaced]
    exact ⟨declaredIff.mpr declared', fun has => none_ (hasIff.mp has)⟩

/-- Which elements have a text, normalized or not -/
theorem toString_eq_none_iff (normalized : Bool) (e : DataElement) :
    e.toString normalized = none ↔ e.HasReference ∨ ¬e.Declared := by
  constructor
  · intro absent
    by_contra neither
    rw [not_or, not_not] at neither
    exact toString_declared normalized e neither.2 neither.1 absent
  · rintro (has | not)
    · exact toString_hasReference normalized e has
    · exact toString_not_declared normalized e not

/-- An element without references is its own flat form. -/
theorem flatten_of_no_reference {e : DataElement} (none_ : ¬e.HasReference) :
    e.flatten = .ok e.clone := by
  cases e with
  | refPtr => exact absurd trivial none_
  | _ => rfl

/-- The law that references are transparent: the programs and the signature of a port are those of
the port with each reference replaced by the text of its type. -/
def ReferencesTransparent (portName : Bytes) (queueLength : Nat) (e : DataElement) : Prop :=
  ∃ flat flat', e.flatten = .ok flat ∧ e.replaced.flatten = .ok flat' ∧
    (∀ programType, compilePort flat queueLength programType = compilePort flat' queueLength programType) ∧
    portSignature portName flat = portSignature portName flat'

/-- A port whose type is a record with a reference in it has no signature, while the port with the
text of the type in its place has one. So the law holds for no such port. -/
theorem references_not_transparent {portName : Bytes} {queueLength : Nat} {e : DataElement}
    {name : Option CString} {arrayLen : UInt32} {isDynamic : Bool} {elements : List DataElement}
    (declared : e.Declared) (finalized : e.flatten = .ok (.record name arrayLen isDynamic elements))
    (reference : HasReferences elements) :
    portSignature portName (.record name arrayLen isDynamic elements) = none ∧
    (∃ flat', e.replaced.flatten = .ok flat' ∧ portSignature portName flat' ≠ none) ∧
    ¬ReferencesTransparent portName queueLength e := by
  have absent : portSignature portName (.record name arrayLen isDynamic elements) = none := by
    have text := toString_hasReference true (.record name arrayLen isDynamic elements) reference
    rw [portSignature, text, Option.map_none]
  obtain ⟨declared', none_⟩ := declared_replaced e declared
  have flat := flatten_of_no_reference none_
  have present : portSignature portName e.replaced.clone ≠ none := by
    have text := toString_declared true e.replaced.clone ((declared_clone _).mpr declared')
      (fun has => none_ ((hasReference_clone _).mp has))
    rw [portSignature, ne_eq, Option.map_eq_none_iff]
    exact text
  refine ⟨absent, ⟨_, flat, present⟩, ?_⟩
  rintro ⟨first, second, flatFirst, flatSecond, -, same⟩
  rw [finalized] at flatFirst
  rw [flat] at flatSecond
  cases flatFirst
  cases flatSecond
  exact present (same.symm.trans absent)

/-- The port type {"a"T[0]}, where the type T[0] is C -/
def recordWithReference : DataElement :=
  .record none 0 false
    [.refPtr (some ⟨[ascii 'a'], by decide⟩) 0 false (.leaf none .uint8 0 false none)]

theorem references_not_transparent_record :
    portSignature [ascii 'p'] recordWithReference = none ∧
    (∃ flat', recordWithReference.replaced.flatten = .ok flat' ∧
      portSignature [ascii 'p'] flat' ≠ none) ∧
    ¬ReferencesTransparent [ascii 'p'] 0 recordWithReference :=
  references_not_transparent ⟨⟨nofun, nofun⟩, trivial⟩ rfl (.inl trivial)

/-- The signature of the first port is missing, that of the second is "p"{"a"C}. -/
theorem not_references_transparent :
    ¬ReferencesTransparent [ascii 'p'] 0 recordWithReference := by
  rintro ⟨flat, flat', flatten, flatten', -, same⟩
  cases flatten
  cases flatten'
  exact absurd same (by decide)

end DataElement

end Apx
