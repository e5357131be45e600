import Apx.LimitEncoding
import Apx.Port

/-! The limits in the tree of a port, and the range checks that the compiler makes of them. -/

namespace Apx

open Vm

/-- Limits in the tree of a port, of a type that can have them, and whether flattening the port clones them -/
structure DeclaredLimits where
  code : LeafCode
  limits : Limits
  cloned : Bool
  deriving DecidableEq, Repr

namespace DeclaredLimits

/-- What the compiler gets of the limits -/
def left (l : DeclaredLimits) : Limits := if l.cloned then l.limits.clone l.code else l.limits

/-- They are not the limits of a byte that the clone forgets. -/
def Kept (l : DeclaredLimits) : Prop :=
  l.cloned = true → l.code = .byte → DataElement.limitsUInt32 l.limits = (0, 0)

/-- They are numbers of the type that they limit, and a clone does not forget them. -/
def Representable (l : DeclaredLimits) : Prop := l.limits.Fit l.code ∧ l.Kept

instance (l : DeclaredLimits) : Decidable l.Kept :=
  inferInstanceAs (Decidable (l.cloned = true → l.code = .byte → DataElement.limitsUInt32 l.limits = (0, 0)))

instance (l : DeclaredLimits) : Decidable l.Representable := inferInstanceAs (Decidable (_ ∧ _))

end DeclaredLimits

def Operation.isRangeCheck : Operation → Bool
  | .rangeCheckInt32 _ | .rangeCheckUInt32 _ | .rangeCheckInt64 _ | .rangeCheckUInt64 _ => true
  | .unpack _ | .pack _ | .recordSelect .. | .arrayNext => false

/-- The range checks among the operations of a program -/
def rangeChecks (ops : List Operation) : List Operation := ops.filter Operation.isRangeCheck

def rangeCheckOf (code : LeafCode) (limits : Limits) : Option Operation := (limitCheck code limits).head?

namespace DataElement

def leafLimits (cloned : Bool) (code : LeafCode) : Option Limits → List DeclaredLimits
  | none => []
  | some limits => if code.limitable then [⟨code, limits, cloned⟩] else []

mutual

/-- The limits of a tree, in order. A clone of a record keeps the pointers of the references in it, so what is
behind them is not cloned. -/
def declaredLimits (cloned : Bool) : DataElement → List DeclaredLimits
  | .leaf _ code _ _ limits => leafLimits cloned code limits
  | .record _ _ _ elements => declaredLimitsFields cloned elements
  | .refPtr _ _ _ target => declaredLimits cloned target
  | .refId .. => []
  | .refName .. => []

def declaredLimitsFields (cloned : Bool) : List DataElement → List DeclaredLimits
  | [] => []
  | child :: rest =>
      declaredLimits (cloned && child.getTypeCode != .refPtr) child ++ declaredLimitsFields cloned rest

end

end DataElement

section RangeChecks

variable (programType : ProgramType)

theorem rangeChecks_append (ops others : List Operation) :
    rangeChecks (ops ++ others) = rangeChecks ops ++ rangeChecks others :=
  List.filter_append ..

theorem rangeChecks_data (info : PackUnpackInfo) (ops : List Operation) :
    rangeChecks (Operation.data programType info :: ops) = rangeChecks ops := by
  cases programType <;> rfl

theorem rangeChecks_recordSelect (name : Bytes) (isLastField : Bool) (ops : List Operation) :
    rangeChecks (Operation.recordSelect name isLastField :: ops) = rangeChecks ops := rfl

theorem rangeChecks_limitCheck (code : LeafCode) (limits : Limits) :
    rangeChecks (limitCheck code limits) = limitCheck code limits := by
  cases code <;> rfl

theorem rangeChecks_leafOperations (code : LeafCode) (arrayLength : Nat) (isDynamic : Bool)
    (limits : Option Limits) :
    rangeChecks (leafOperations programType code arrayLength isDynamic limits) =
      limits.elim [] (limitCheck code) := by
  cases limits with
  | none => exact rangeChecks_data programType _ []
  | some limits =>
    cases programType with
    | pack =>
      rw [leafOperations, rangeChecks_append, rangeChecks_limitCheck, rangeChecks_data]
      exact List.append_nil _
    | unpack =>
      rw [leafOperations, rangeChecks_data, rangeChecks_limitCheck]
      rfl

theorem limitCheck_limitable {code : LeafCode} (limitable : code.limitable = true) (limits : Limits) :
    limitCheck code limits = (rangeCheckOf code limits).toList ∧ rangeCheckOf code limits ≠ none := by
  cases code <;> first | contradiction | exact ⟨rfl, nofun⟩

theorem limitCheck_other {code : LeafCode} (other : code.limitable = false) (limits : Limits) :
    limitCheck code limits = [] := by
  cases code <;> first | contradiction | rfl

theorem limitCheck_eq_iff {code : LeafCode} (limitable : code.limitable = true) (limits limits' : Limits) :
    limitCheck code limits = limitCheck code limits' ↔ rangeCheckOf code limits = rangeCheckOf code limits' := by
  refine ⟨congrArg List.head?, ?_⟩
  intro same
  rw [(limitCheck_limitable limitable limits).1, (limitCheck_limitable limitable limits').1, same]

theorem rangeChecks_emitted (e : DataElement) (cloned : Bool) :
    (rangeChecks (e.emitted programType)).map some =
      (e.declaredLimits cloned).map fun l => rangeCheckOf l.code l.limits := by
  induction e using DataElement.tree_induction generalizing cloned with
  | leaf name code arrayLen isDynamic limits =>
    rw [DataElement.emitted, rangeChecks_leafOperations, DataElement.declaredLimits]
    cases limits with
    | none => rfl
    | some limits =>
      cases limitable : code.limitable with
      | false => simp [DataElement.leafLimits, limitable, limitCheck_other limitable]
      | true =>
        obtain ⟨single, present⟩ := limitCheck_limitable limitable limits
        obtain ⟨op, is⟩ := Option.ne_none_iff_exists'.mp present
        simp [DataElement.leafLimits, limitable, single, is]
  | record name arrayLen isDynamic elements ih =>
    have fields : (rangeChecks (DataElement.emittedFields programType elements)).map some =
        (DataElement.declaredLimitsFields cloned elements).map fun l => rangeCheckOf l.code l.limits := by
      clear arrayLen
      induction elements with
      | nil => rfl
      | cons child rest ihRest =>
        rw [DataElement.emittedFields, rangeChecks_recordSelect, rangeChecks_append,
          DataElement.declaredLimitsFields, List.map_append, List.map_append, ih child List.mem_cons_self,
          ihRest fun x mem => ih x (List.mem_cons_of_mem _ mem)]
    have closing : rangeChecks (if arrayLen.toNat > 0 then [Operation.arrayNext] else []) = [] := by
      split <;> rfl
    rw [DataElement.emitted, rangeChecks_data, rangeChecks_append, closing, List.append_nil, fields,
      DataElement.declaredLimits]
  | refId => rfl
  | refName => rfl
  | refPtr name arrayLen isDynamic target ih => exact ih cloned

end RangeChecks

namespace DataElement

theorem cloned_of_declaredLimits_false (e : DataElement) : ∀ l ∈ e.declaredLimits false, l.cloned = false := by
  induction e using tree_induction with
  | leaf name code arrayLen isDynamic limits =>
    intro l mem
    cases limits with
    | none => contradiction
    | some limits =>
      rw [declaredLimits, leafLimits] at mem
      split at mem
      · rw [List.mem_singleton.mp mem]
      · contradiction
  | record name arrayLen isDynamic elements ih =>
    rw [declaredLimits]
    clear arrayLen
    induction elements with
    | nil => exact fun l mem => absurd mem List.not_mem_nil
    | cons child rest ihRest =>
      intro l mem
      rw [declaredLimitsFields] at mem
      rcases List.mem_append.mp mem with mem | mem
      · exact ih child List.mem_cons_self l mem
      · exact ihRest (fun x inRest => ih x (List.mem_cons_of_mem _ inRest)) l mem
  | refId => exact fun l mem => absurd mem List.not_mem_nil
  | refName => exact fun l mem => absurd mem List.not_mem_nil
  | refPtr name arrayLen isDynamic target ih => exact ih

theorem getTypeCode_clone (e : DataElement) : e.clone.getTypeCode = e.getTypeCode := by
  cases e <;> rfl

theorem clone_reference {e : DataElement} (reference : e.getTypeCode = .refPtr) : e.clone = e := by
  cases e with
  | leaf name code => cases code <;> contradiction
  | record => contradiction
  | refId | refName | refPtr => rfl

/-- The limits of a clone -/
theorem declaredLimits_clone (e : DataElement) (concrete : e.getTypeCode ≠ .refPtr) :
    e.clone.declaredLimits true = (e.declaredLimits true).map fun l => { l with limits := l.left } := by
  induction e using tree_induction with
  | leaf name code arrayLen isDynamic limits =>
    rw [clone, declaredLimits, declaredLimits]
    cases limits with
    | none => rfl
    | some limits =>
      rw [Option.map_some, leafLimits, leafLimits]
      split <;> rfl
  | record name arrayLen isDynamic elements ih =>
    rw [clone, declaredLimits, declaredLimits]
    clear concrete arrayLen
    induction elements with
    | nil => rfl
    | cons child rest ihRest =>
      rw [cloneAll, declaredLimitsFields, declaredLimitsFields, List.map_append,
        ihRest fun x mem => ih x (List.mem_cons_of_mem _ mem), getTypeCode_clone]
      congr 1
      by_cases reference : child.getTypeCode = .refPtr
      · -- the clone of a reference points to the same type
        have same : child.clone = child := clone_reference reference
        have untouched : ∀ l ∈ child.declaredLimits false, { l with limits := l.left } = l := by
          intro l mem
          have same : l.left = l.limits := by
            rw [DeclaredLimits.left, cloned_of_declaredLimits_false child l mem, if_neg (by decide)]
          rw [same]
        simp only [reference, same, bne_self_eq_false, Bool.and_false]
        exact ((List.map_congr_left untouched).trans (List.map_id' _)).symm
      · simp only [Bool.true_and, bne_iff_ne.mpr reference]
        exact ih child List.mem_cons_self reference
  | refId => rfl
  | refName => rfl
  | refPtr => exact absurd rfl concrete

theorem getTypeCode_narrow (e : DataElement) : e.narrow.getTypeCode = e.getTypeCode := by
  cases e <;> rfl

theorem declaredLimits_narrow (e : DataElement) (cloned : Bool) :
    e.narrow.declaredLimits cloned =
      (e.declaredLimits cloned).map fun l => { l with limits := l.limits.narrow l.code } := by
  induction e using tree_induction generalizing cloned with
  | leaf name code arrayLen isDynamic limits =>
    rw [narrow, declaredLimits, declaredLimits]
    cases limits with
    | none => rfl
    | some limits =>
      rw [Option.map_some, leafLimits, leafLimits]
      split <;> rfl
  | record name arrayLen isDynamic elements ih =>
    rw [narrow, declaredLimits, declaredLimits]
    clear arrayLen
    induction elements with
    | nil => rfl
    | cons child rest ihRest =>
      rw [narrowAll, declaredLimitsFields, declaredLimitsFields, List.map_append,
        ihRest fun x mem => ih x (List.mem_cons_of_mem _ mem), getTypeCode_narrow, ih child List.mem_cons_self]
  | refId => rfl
  | refName => rfl
  | refPtr name arrayLen isDynamic target ih => exact ih cloned

end DataElement

end Apx
