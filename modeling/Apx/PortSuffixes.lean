import Apx.CompilerCorrect
import Apx.Port

/-! The array suffixes of references: apx_port_flatten_data_element keeps the one of the last reference of a port,
and compile_record_fields keeps none. -/

namespace Apx

open Vm

namespace DataElement

/-! What flattening clones -/

/-- The element at the end of the references, with the array suffix of the last of them -/
def flattened : DataElement → DataElement
  | .refPtr _ arrayLen isDynamic target =>
      if target.getTypeCode = .refPtr then flattened target
      else if arrayLen = 0 then target else target.setArray arrayLen isDynamic
  | .leaf name code arrayLen isDynamic limits => .leaf name code arrayLen isDynamic limits
  | .record name arrayLen isDynamic elements => .record name arrayLen isDynamic elements
  | .refId name arrayLen isDynamic id => .refId name arrayLen isDynamic id
  | .refName name arrayLen isDynamic typeName => .refName name arrayLen isDynamic typeName

/-- The last of the references is not an array of arrays. -/
def OneSuffix : DataElement → Prop
  | .refPtr _ arrayLen _ target =>
      if target.getTypeCode = .refPtr then OneSuffix target else arrayLen = 0 ∨ target.isArray = false
  | .leaf .. => True
  | .record .. => True
  | .refId .. => True
  | .refName .. => True

theorem clone_setArray (e : DataElement) (arrayLen : UInt32) (isDynamic : Bool) :
    (e.setArray arrayLen isDynamic).clone = e.clone.setArray arrayLen isDynamic := by
  cases e <;> rfl

theorem isArray_clone (e : DataElement) : e.clone.isArray = e.isArray := by
  cases e <;> rfl

/-- The loop ends with the last reference as the parent. -/
theorem followWithParent_flattened (target : DataElement) {count : Nat} {name : Option CString} {n : UInt32}
    {d : Bool} {element parent : DataElement}
    (follows : followWithParent count (.refPtr name n d target) target = .ok (element, parent)) :
    element.getTypeCode ≠ .refPtr ∧
      flattened (.refPtr name n d target) =
        (if parent.arrayLen = 0 then element else element.setArray parent.arrayLen parent.isDynamicArray) ∧
      (OneSuffix (.refPtr name n d target) ↔ parent.arrayLen = 0 ∨ element.isArray = false) := by
  induction target using tree_induction generalizing count name n d with
  | leaf name' code arrayLen isDynamic limits =>
    cases follows
    have concrete : (DataElement.leaf name' code arrayLen isDynamic limits).getTypeCode ≠ .refPtr := by
      cases code <;> nofun
    refine ⟨concrete, ?_, ?_⟩
    · rw [flattened, if_neg concrete]
      rfl
    · rw [OneSuffix, if_neg concrete]
      exact Iff.rfl
  | record name' arrayLen isDynamic elements ih =>
    cases follows
    have concrete : (DataElement.record name' arrayLen isDynamic elements).getTypeCode ≠ .refPtr := nofun
    refine ⟨concrete, ?_, ?_⟩
    · rw [flattened, if_neg concrete]
      rfl
    · rw [OneSuffix, if_neg concrete]
      exact Iff.rfl
  | refId => contradiction
  | refName => contradiction
  | refPtr name' arrayLen isDynamic target ih =>
    rw [followWithParent] at follows
    split at follows
    · have reference : (DataElement.refPtr name' arrayLen isDynamic target).getTypeCode = .refPtr := rfl
      rw [flattened, if_pos reference, OneSuffix, if_pos reference]
      exact ih follows
    · contradiction

/-- Flattening clones what is at the end of the references. -/
theorem flatten_eq {e flat : DataElement} (flatten : e.flatten = .ok flat) :
    flat = e.flattened.clone ∧ e.OneSuffix ∧ e.flattened.getTypeCode ≠ .refPtr := by
  cases e with
  | leaf name code arrayLen isDynamic limits =>
    cases flatten
    exact ⟨rfl, trivial, by cases code <;> nofun⟩
  | record =>
    cases flatten
    exact ⟨rfl, trivial, nofun⟩
  | refId =>
    cases flatten
    exact ⟨rfl, trivial, nofun⟩
  | refName =>
    cases flatten
    exact ⟨rfl, trivial, nofun⟩
  | refPtr name n d target =>
    rw [DataElement.flatten, deriveWithParent] at flatten
    cases follows : followWithParent 0 (.refPtr name n d target) target with
    | error failure =>
      rw [follows] at flatten
      contradiction
    | ok result =>
      obtain ⟨element, parent⟩ := result
      obtain ⟨concrete, flattened_, once⟩ := followWithParent_flattened target follows
      simp only [follows, isArray_clone] at flatten
      have array : parent.isArray = true ↔ parent.arrayLen ≠ 0 := by
        rw [ne_eq, ← isArray_eq_false_iff, Bool.not_eq_false]
      simp only [array] at flatten
      rw [flattened_, once]
      by_cases plain : parent.arrayLen = 0
      · rw [if_neg (fun both => both.1 plain), if_neg (not_not.mpr plain)] at flatten
        cases flatten
        rw [if_pos plain]
        exact ⟨rfl, .inl plain, concrete⟩
      · by_cases both : element.isArray = true
        · rw [if_pos ⟨plain, both⟩] at flatten
          contradiction
        · rw [if_neg (fun both' => both both'.2), if_pos plain] at flatten
          cases flatten
          rw [if_neg plain, clone_setArray]
          refine ⟨rfl, .inr (Bool.eq_false_of_not_eq_true both), ?_⟩
          cases element <;> exact concrete

/-! The array suffixes that are passed over -/

/-- The array suffix of a reference to a type that is not an array has the property. -/
def SuffixIs (P : UInt32 → Bool → Prop) (arrayLen : UInt32) (isDynamic : Bool) (target : DataElement) : Prop :=
  arrayLen ≠ 0 → target.replaced.isArray = false → P arrayLen (target.replaced.isDynamicArray || isDynamic)

mutual

/-- compile_record_fields passes over the array suffix of every reference. All of them have the property. -/
def SkipsOnly (P : UInt32 → Bool → Prop) : DataElement → Prop
  | .leaf .. => True
  | .record _ _ _ elements => SkipsOnlyFields P elements
  | .refPtr _ arrayLen isDynamic target => SuffixIs P arrayLen isDynamic target ∧ SkipsOnly P target
  | .refId .. => True
  | .refName .. => True

def SkipsOnlyFields (P : UInt32 → Bool → Prop) : List DataElement → Prop
  | [] => True
  | child :: rest => SkipsOnly P child ∧ SkipsOnlyFields P rest

end

/-- The same for a port, where flattening keeps the array suffix of the last reference. -/
def PortSkipsOnly (P : UInt32 → Bool → Prop) : DataElement → Prop
  | .refPtr _ arrayLen isDynamic target =>
      if target.getTypeCode = .refPtr then SuffixIs P arrayLen isDynamic target ∧ PortSkipsOnly P target
      else SkipsOnly P target
  | .leaf .. => True
  | .record _ _ _ elements => SkipsOnlyFields P elements
  | .refId .. => True
  | .refName .. => True

/-- No array suffix in the port is passed over. -/
def KeepsSuffixes (e : DataElement) : Prop := e.PortSkipsOnly fun _ _ => False

theorem skipsOnlyFields_iff (P : UInt32 → Bool → Prop) (elements : List DataElement) :
    SkipsOnlyFields P elements ↔ ∀ child ∈ elements, child.SkipsOnly P := by
  induction elements with
  | nil => exact iff_of_true trivial nofun
  | cons child rest ih => rw [SkipsOnlyFields, ih, List.forall_mem_cons]

theorem SkipsOnly.mono {P Q : UInt32 → Bool → Prop} {e : DataElement} (skips : e.SkipsOnly P)
    (weaker : ∀ arrayLen isDynamic, P arrayLen isDynamic → Q arrayLen isDynamic) : e.SkipsOnly Q := by
  induction e using tree_induction with
  | leaf | refId | refName => trivial
  | record name arrayLen isDynamic elements ih =>
    rw [SkipsOnly, skipsOnlyFields_iff] at skips ⊢
    exact fun child mem => ih child mem (skips child mem)
  | refPtr name arrayLen isDynamic target ih =>
    exact ⟨fun some_ plain => weaker _ _ (skips.1 some_ plain), ih skips.2⟩

theorem PortSkipsOnly.mono {P Q : UInt32 → Bool → Prop} {e : DataElement} (skips : e.PortSkipsOnly P)
    (weaker : ∀ arrayLen isDynamic, P arrayLen isDynamic → Q arrayLen isDynamic) : e.PortSkipsOnly Q := by
  induction e using tree_induction with
  | leaf | refId | refName => trivial
  | record name arrayLen isDynamic elements =>
    exact SkipsOnly.mono (e := .record name arrayLen isDynamic elements) skips weaker
  | refPtr name arrayLen isDynamic target ih =>
    rw [PortSkipsOnly] at skips ⊢
    split at skips
    · next reference =>
      rw [if_pos reference]
      exact ⟨fun some_ plain => weaker _ _ (skips.1 some_ plain), ih skips.2⟩
    · next concrete =>
      rw [if_neg concrete]
      exact skips.mono weaker

theorem nameBytes_inPlaceOf (name : Option CString) (arrayLen : UInt32) (isDynamic : Bool) (e : DataElement) :
    (e.inPlaceOf name arrayLen isDynamic).getName = name := by
  cases e <;> rw [inPlaceOf] <;> split <;> rfl

theorem nameBytes_replaced (e : DataElement) : e.replaced.nameBytes = e.nameBytes := by
  cases e with
  | refPtr name arrayLen isDynamic target =>
    rw [replaced, nameBytes, nameBytes_inPlaceOf]
    rfl
  | leaf | record | refId | refName => rfl

/-- What replaces the references of a complete tree has no reference at its root. -/
theorem complete_replaced (e : DataElement) (complete : e.Complete) :
    e.replaced.Complete ∧ e.replaced.getTypeCode ≠ .refPtr := by
  induction e using tree_induction with
  | leaf name code => exact ⟨complete, by cases code <;> nofun⟩
  | record name arrayLen isDynamic elements ih =>
    refine ⟨?_, nofun⟩
    rw [replaced]
    constructor
    · rw [replacedAll_eq]
      exact fun empty => complete.1 (List.map_eq_nil_iff.mp empty)
    · have each := complete.2
      clear complete arrayLen
      induction elements with
      | nil => trivial
      | cons child rest ihRest =>
        refine ⟨?_, (ih child List.mem_cons_self each.2.1).1,
          ihRest (fun x mem => ih x (List.mem_cons_of_mem _ mem)) each.2.2⟩
        rw [nameBytes_replaced]
        exact each.1
  | refId => exact complete.elim
  | refName => exact complete.elim
  | refPtr name arrayLen isDynamic target ih =>
    obtain ⟨whole, concrete⟩ := ih complete
    rw [replaced]
    cases same : target.replaced with
    | leaf name' code n d limits =>
      rw [same] at whole concrete
      rw [inPlaceOf]
      split <;> exact ⟨whole, concrete⟩
    | record name' n d elements =>
      rw [same] at whole concrete
      rw [inPlaceOf]
      split <;> exact ⟨whole, concrete⟩
    | refId => exact (same ▸ whole).elim
    | refName => exact (same ▸ whole).elim
    | refPtr => exact absurd rfl (same ▸ concrete)

/-- A number for every tree that an array suffix can only make larger. It stays the same for suffixes with the
property. -/
structure TreeMeasure (P : UInt32 → Bool → Prop) where
  of : DataElement → Nat
  join : UInt32 → Bool → Nat → Nat
  strictMono : ∀ arrayLen isDynamic, StrictMono (join arrayLen isDynamic)
  leaf : ∀ name name' code arrayLen isDynamic limits,
    of (.leaf name code arrayLen isDynamic limits) = of (.leaf name' code arrayLen isDynamic limits)
  record : ∀ name arrayLen isDynamic elements,
    of (.record name arrayLen isDynamic elements) = join arrayLen isDynamic (elements.map of).sum
  reference : ∀ name arrayLen isDynamic target, of (.refPtr name arrayLen isDynamic target) = of target
  noSuffix : ∀ e isDynamic, e.arrayLen = 0 → of (e.setArray 0 isDynamic) = of e
  suffix : ∀ e arrayLen isDynamic, e.Complete → e.getTypeCode ≠ .refPtr → e.arrayLen = 0 → arrayLen ≠ 0 →
    of e ≤ of (e.setArray arrayLen isDynamic) ∧
      (of e = of (e.setArray arrayLen isDynamic) ↔ P arrayLen (e.isDynamicArray || isDynamic))

theorem sum_map_le {α : Type} (elements : List α) {f g : α → Nat} (le : ∀ x ∈ elements, f x ≤ g x) :
    (elements.map f).sum ≤ (elements.map g).sum ∧
      ((elements.map f).sum = (elements.map g).sum ↔ ∀ x ∈ elements, f x = g x) := by
  induction elements with
  | nil => exact ⟨Nat.le_refl _, iff_of_true rfl nofun⟩
  | cons x rest ih =>
    obtain ⟨below, same⟩ := ih fun y mem => le y (List.mem_cons_of_mem _ mem)
    have first := le x List.mem_cons_self
    rw [List.map_cons, List.map_cons, List.sum_cons, List.sum_cons, List.forall_mem_cons, ← same]
    omega

namespace TreeMeasure

variable {P : UInt32 → Bool → Prop} (m : TreeMeasure P)

/-- In the place of a reference the element gets its name, and where it is not an array its suffix. -/
theorem of_inPlaceOf (name : Option CString) (arrayLen : UInt32) (isDynamic : Bool) {e : DataElement}
    (complete : e.Complete) (concrete : e.getTypeCode ≠ .refPtr) :
    m.of (e.inPlaceOf name arrayLen isDynamic) =
      if e.arrayLen = 0 then m.of (e.setArray arrayLen isDynamic) else m.of e := by
  cases e with
  | leaf name' code n d limits =>
    rw [inPlaceOf, DataElement.arrayLen]
    by_cases plain : n = 0
    · rw [if_pos plain, if_pos plain]
      exact m.leaf ..
    · rw [if_neg plain, if_neg plain]
      exact m.leaf ..
  | record name' n d elements =>
    rw [inPlaceOf, DataElement.arrayLen]
    by_cases plain : n = 0
    · rw [if_pos plain, if_pos plain, setArray, m.record, m.record]
    · rw [if_neg plain, if_neg plain, m.record, m.record]
  | refId => exact complete.elim
  | refName => exact complete.elim
  | refPtr => exact absurd rfl concrete

theorem le_inPlaceOf (name : Option CString) (arrayLen : UInt32) (isDynamic : Bool) {e : DataElement}
    (complete : e.Complete) (concrete : e.getTypeCode ≠ .refPtr) :
    m.of e ≤ m.of (e.inPlaceOf name arrayLen isDynamic) ∧
      (m.of e = m.of (e.inPlaceOf name arrayLen isDynamic) ↔
        (arrayLen ≠ 0 → e.isArray = false → P arrayLen (e.isDynamicArray || isDynamic))) := by
  rw [m.of_inPlaceOf name arrayLen isDynamic complete concrete, isArray_eq_false_iff]
  by_cases plain : e.arrayLen = 0
  · rw [if_pos plain]
    by_cases none_ : arrayLen = 0
    · subst none_
      rw [m.noSuffix e isDynamic plain]
      exact ⟨Nat.le_refl _, iff_of_true rfl fun some_ => absurd rfl some_⟩
    · obtain ⟨le, same⟩ := m.suffix e arrayLen isDynamic complete concrete plain none_
      refine ⟨le, same.trans ?_⟩
      simp [none_, plain]
  · rw [if_neg plain]
    exact ⟨Nat.le_refl _, iff_of_true rfl fun _ array => absurd array plain⟩

/-- Replacing the references of fields makes a tree larger where a suffix was passed over. -/
theorem le_replaced (e : DataElement) (complete : e.Complete) :
    m.of e ≤ m.of e.replaced ∧ (m.of e = m.of e.replaced ↔ e.SkipsOnly P) := by
  induction e using tree_induction with
  | leaf => exact ⟨Nat.le_refl _, iff_of_true rfl trivial⟩
  | record name arrayLen isDynamic elements ih =>
    have each : ∀ child ∈ elements, m.of child ≤ m.of child.replaced ∧
        (m.of child = m.of child.replaced ↔ child.SkipsOnly P) :=
      fun child mem => ih child mem (complete.2.mem child mem).2
    obtain ⟨le, same⟩ := sum_map_le elements fun child mem => (each child mem).1
    rw [replaced, m.record, m.record, replacedAll_eq, List.map_map, (m.strictMono arrayLen isDynamic).le_iff_le,
      (m.strictMono arrayLen isDynamic).injective.eq_iff, SkipsOnly, skipsOnlyFields_iff]
    exact ⟨le, same.trans (forall₂_congr fun child mem => (each child mem).2)⟩
  | refId => exact complete.elim
  | refName => exact complete.elim
  | refPtr name arrayLen isDynamic target ih =>
    obtain ⟨le, same⟩ := ih complete
    obtain ⟨whole, concrete⟩ := complete_replaced target complete
    obtain ⟨le', same'⟩ := m.le_inPlaceOf name arrayLen isDynamic whole concrete
    rw [replaced, m.reference, SkipsOnly, SuffixIs, ← same, ← same']
    omega

/-- The same for what a port is flattened to -/
theorem flattened_le_replaced (e : DataElement) (complete : e.Complete) (once : e.OneSuffix) :
    m.of e.flattened ≤ m.of e.replaced ∧ (m.of e.flattened = m.of e.replaced ↔ e.PortSkipsOnly P) := by
  induction e using tree_induction with
  | leaf => exact ⟨Nat.le_refl _, iff_of_true rfl trivial⟩
  | record name arrayLen isDynamic elements =>
    exact m.le_replaced (.record name arrayLen isDynamic elements) complete
  | refId => exact complete.elim
  | refName => exact complete.elim
  | refPtr name arrayLen isDynamic target ih =>
    obtain ⟨whole, concrete⟩ := complete_replaced target complete
    rw [replaced, flattened, PortSkipsOnly]
    rw [OneSuffix] at once
    by_cases reference : target.getTypeCode = .refPtr
    · rw [if_pos reference] at once
      rw [if_pos reference, if_pos reference]
      obtain ⟨le, same⟩ := ih complete once
      obtain ⟨le', same'⟩ := m.le_inPlaceOf name arrayLen isDynamic whole concrete
      rw [SuffixIs, ← same, ← same']
      omega
    · rw [if_neg reference] at once
      rw [if_neg reference, if_neg reference]
      by_cases none_ : arrayLen = 0
      · obtain ⟨-, same'⟩ := m.le_inPlaceOf name arrayLen isDynamic whole concrete
        rw [if_pos none_, ← same'.mpr fun some_ => absurd none_ some_]
        exact m.le_replaced target complete
      · have plain := (isArray_eq_false_iff target).mp (once.resolve_left none_)
        rw [if_neg none_, m.of_inPlaceOf name arrayLen isDynamic whole concrete]
        cases target with
        | leaf => exact (if_pos plain).symm ▸ ⟨Nat.le_refl _, iff_of_true rfl trivial⟩
        | record name' n d elements =>
          have both := m.le_replaced (.record name' arrayLen (d || isDynamic) elements) complete
          have plain' : n = 0 := plain
          rw [replaced, DataElement.arrayLen, if_pos plain']
          exact both
        | refId => exact complete.elim
        | refName => exact complete.elim
        | refPtr => exact absurd rfl reference

end TreeMeasure

end DataElement

/-! Two such numbers: the array lengths in the operations, which tell every suffix, and the size -/

def Operation.arrayLength : Operation → Nat
  | .unpack info => info.arrayLength
  | .pack info => info.arrayLength
  | .rangeCheckInt32 _ | .rangeCheckUInt32 _ | .rangeCheckInt64 _ | .rangeCheckUInt64 _ => 0
  | .recordSelect .. | .arrayNext => 0

def arrayLengths (ops : List Operation) : Nat := (ops.map Operation.arrayLength).sum

section ArrayLengths

variable (programType : ProgramType)

theorem arrayLengths_append (ops others : List Operation) :
    arrayLengths (ops ++ others) = arrayLengths ops + arrayLengths others := by
  rw [arrayLengths, List.map_append, List.sum_append, arrayLengths, arrayLengths]

theorem arrayLengths_data (info : PackUnpackInfo) (ops : List Operation) :
    arrayLengths (Operation.data programType info :: ops) = info.arrayLength + arrayLengths ops := by
  cases programType <;> rw [arrayLengths, List.map_cons, List.sum_cons] <;> rfl

theorem arrayLengths_limitCheck (code : LeafCode) (limits : Limits) : arrayLengths (limitCheck code limits) = 0 := by
  cases code <;> rfl

theorem arrayLengths_leafOperations (code : LeafCode) (arrayLength : Nat) (isDynamic : Bool)
    (limits : Option Limits) :
    arrayLengths (leafOperations programType code arrayLength isDynamic limits) = arrayLength := by
  cases limits with
  | none => exact arrayLengths_data programType _ []
  | some limits =>
    cases programType with
    | pack =>
      rw [leafOperations, arrayLengths_append, arrayLengths_limitCheck, arrayLengths_data, Nat.zero_add]
      rfl
    | unpack =>
      rw [leafOperations, arrayLengths_data, arrayLengths_limitCheck]
      rfl

theorem arrayLengths_emittedFields (elements : List DataElement) :
    arrayLengths (DataElement.emittedFields programType elements) =
      (elements.map fun child => arrayLengths (child.emitted programType)).sum := by
  induction elements with
  | nil => rfl
  | cons child rest ih =>
    have select (ops : List Operation) :
        arrayLengths (Operation.recordSelect child.nameBytes rest.isEmpty :: ops) = arrayLengths ops := by
      rw [arrayLengths, List.map_cons, List.sum_cons, arrayLengths]
      exact Nat.zero_add _
    rw [DataElement.emittedFields, select, arrayLengths_append, ih, List.map_cons, List.sum_cons]

theorem arrayLengths_record (name : Option CString) (arrayLen : UInt32) (isDynamic : Bool)
    (elements : List DataElement) :
    arrayLengths ((DataElement.record name arrayLen isDynamic elements).emitted programType) =
      arrayLen.toNat + (elements.map fun child => arrayLengths (child.emitted programType)).sum := by
  have closing : arrayLengths (if arrayLen.toNat > 0 then [Operation.arrayNext] else []) = 0 := by
    split <;> rfl
  rw [DataElement.emitted, arrayLengths_data, arrayLengths_append, closing, arrayLengths_emittedFields]
  rfl

end ArrayLengths

namespace DataElement

def lengthMeasure (programType : ProgramType) : TreeMeasure fun _ _ => False where
  of e := arrayLengths (e.emitted programType)
  join arrayLen _ fields := arrayLen.toNat + fields
  strictMono arrayLen _ := fun _ _ less => Nat.add_lt_add_left less arrayLen.toNat
  leaf _ _ _ _ _ _ := rfl
  record name arrayLen isDynamic elements := arrayLengths_record programType name arrayLen isDynamic elements
  reference _ _ _ _ := rfl
  noSuffix e isDynamic plain := by
    cases e with
    | leaf name code n d limits =>
      rw [setArray, emitted, emitted, arrayLengths_leafOperations, arrayLengths_leafOperations]
      exact congrArg UInt32.toNat plain.symm
    | record name n d elements =>
      rw [setArray, arrayLengths_record, arrayLengths_record, show n = 0 from plain]
    | refId | refName | refPtr => rfl
  suffix e arrayLen isDynamic complete concrete plain some_ := by
    have positive : arrayLen.toNat ≠ 0 := fun zero => some_ (UInt32.toNat_inj.mp zero)
    cases e with
    | leaf name code n d limits =>
      rw [setArray, emitted, emitted, arrayLengths_leafOperations, arrayLengths_leafOperations,
        show n = 0 from plain, UInt32.toNat_zero]
      exact ⟨Nat.zero_le _, iff_of_false positive.symm id⟩
    | record name n d elements =>
      rw [setArray, arrayLengths_record, arrayLengths_record, show n = 0 from plain, UInt32.toNat_zero, Nat.zero_add]
      exact ⟨Nat.le_add_left _ _, iff_of_false (by omega) id⟩
    | refId => exact complete.elim
    | refName => exact complete.elim
    | refPtr => exact absurd rfl concrete

theorem emittedSizes_eq (elements : List DataElement) : emittedSizes elements = (elements.map emittedSize).sum := by
  induction elements with
  | nil => rfl
  | cons child rest ih => rw [emittedSizes, ih, List.map_cons, List.sum_cons]

theorem extent_strictMono (arrayLength : Nat) (isDynamic : Bool) :
    StrictMono fun size => extent size arrayLength isDynamic := by
  intro size other less
  simp only [extent]
  split
  · exact less
  · next isArray => exact Nat.add_lt_add_right (Nat.mul_lt_mul_of_pos_right less (Nat.pos_of_ne_zero isArray)) _

theorem le_extent (size arrayLength : Nat) (isDynamic : Bool) : size ≤ extent size arrayLength isDynamic := by
  unfold extent
  split
  · exact Nat.le_refl size
  · next isArray =>
    have once := Nat.le_mul_of_pos_right size (Nat.pos_of_ne_zero isArray)
    omega

/-- An array of one element without a length prefix is as large as the element. -/
theorem extent_eq_self_iff {size arrayLength : Nat} (positive : 0 < size) (isArray : arrayLength ≠ 0)
    (isDynamic : Bool) : size = extent size arrayLength isDynamic ↔ arrayLength = 1 ∧ isDynamic = false := by
  rw [extent, if_neg isArray]
  by_cases one : arrayLength = 1
  · subst one
    cases isDynamic with
    | false => simp
    | true =>
      have some_ : 0 < sizeTypeToSize (sizeToSizeType 1) := by decide
      simp only [if_true, Bool.true_eq_false, and_false, iff_false]
      omega
  · have more : size * 2 ≤ size * arrayLength := Nat.mul_le_mul_left _ (by omega)
    simp only [one, false_and, iff_false]
    omega

theorem emittedSize_le_emittedSizes {child : DataElement} {elements : List DataElement} (mem : child ∈ elements) :
    child.emittedSize ≤ emittedSizes elements := by
  induction elements with
  | nil => contradiction
  | cons first rest ih =>
    rw [emittedSizes]
    rcases List.mem_cons.mp mem with rfl | mem
    · exact Nat.le_add_right _ _
    · exact Nat.le_add_left_of_le (ih mem)

theorem emittedSize_pos {e : DataElement} (complete : e.Complete) : 0 < e.emittedSize := by
  induction e using tree_induction with
  | leaf name code arrayLen isDynamic limits =>
    obtain ⟨info, known⟩ := Option.ne_none_iff_exists'.mp complete
    have positive := (Compiler.leafInfo_eq known).2.2.2.2
    exact Nat.lt_of_lt_of_le positive (le_extent _ _ _)
  | record name arrayLen isDynamic elements ih =>
    obtain ⟨nonempty, each⟩ := complete
    obtain ⟨child, mem⟩ := List.exists_mem_of_ne_nil elements nonempty
    have positive := ih child mem (each.mem child mem).2
    exact Nat.lt_of_lt_of_le positive ((emittedSize_le_emittedSizes mem).trans (le_extent _ _ _))
  | refPtr name arrayLen isDynamic target ih => exact ih complete
  | refId => exact complete.elim
  | refName => exact complete.elim

def OneElement (arrayLen : UInt32) (isDynamic : Bool) : Prop := arrayLen = 1 ∧ isDynamic = false

def sizeMeasure : TreeMeasure OneElement where
  of := emittedSize
  join arrayLen isDynamic fields := extent fields arrayLen.toNat isDynamic
  strictMono arrayLen isDynamic := extent_strictMono arrayLen.toNat isDynamic
  leaf _ _ _ _ _ _ := rfl
  record name arrayLen isDynamic elements := by rw [emittedSize, emittedSizes_eq]
  reference _ _ _ _ := rfl
  noSuffix e isDynamic plain := by
    cases e with
    | leaf name code n d limits => rw [setArray, emittedSize, emittedSize, show n = 0 from plain]; rfl
    | record name n d elements => rw [setArray, emittedSize, emittedSize, show n = 0 from plain]; rfl
    | refId | refName | refPtr => rfl
  suffix e arrayLen isDynamic complete concrete plain some_ := by
    have isArray : arrayLen.toNat ≠ 0 := fun zero => some_ (UInt32.toNat_inj.mp zero)
    have positive := emittedSize_pos complete
    have array (size : Nat) (known : 0 < size) (d : Bool) :
        extent size 0 d ≤ extent size arrayLen.toNat (d || isDynamic) ∧
          (extent size 0 d = extent size arrayLen.toNat (d || isDynamic) ↔ OneElement arrayLen (d || isDynamic)) := by
      rw [show extent size 0 d = size from if_pos rfl, extent_eq_self_iff known isArray, OneElement,
        ← UInt32.toNat_inj]
      exact ⟨le_extent _ _ _, Iff.rfl⟩
    cases e with
    | leaf name code n d limits =>
      rw [emittedSize, show n = 0 from plain] at positive
      rw [setArray, emittedSize, emittedSize, show n = 0 from plain]
      exact array code.size positive d
    | record name n d elements =>
      rw [emittedSize, show n = 0 from plain] at positive
      rw [setArray, emittedSize, emittedSize, show n = 0 from plain]
      exact array (emittedSizes elements) positive d
    | refId => exact complete.elim
    | refName => exact complete.elim
    | refPtr => exact absurd rfl concrete

end DataElement

end Apx
