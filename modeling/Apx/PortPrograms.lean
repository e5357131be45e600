import Apx.PortLimits
import Apx.PortSuffixes
import Apx.SignatureAccepts

/-! The programs of a port against the tree of its type. -/

namespace Apx

open Vm Decoder

/-! What the compiler makes of the flattened port -/

section Emitted

variable {programType : ProgramType}

theorem leafOperations_noArray (code : LeafCode) (isDynamic isDynamic' : Bool) (limits : Option Limits) :
    leafOperations programType code 0 isDynamic limits = leafOperations programType code 0 isDynamic' limits := by
  have info : dataInfo code.typeCode 0 isDynamic = dataInfo code.typeCode 0 isDynamic' := by simp [dataInfo]
  unfold leafOperations
  rw [info]

namespace DataElement

/-- An element that is an array itself denotes the same in the place of any reference. -/
theorem emitted_inPlaceOf (name : Option CString) {arrayLen : UInt32} (isDynamic : Bool) {e : DataElement}
    (kept : arrayLen ≠ 0 → e.isArray = true) :
    (e.inPlaceOf name arrayLen isDynamic).emitted programType = e.emitted programType := by
  have none_ (plain : e.arrayLen = 0) : arrayLen = 0 := by
    by_contra some_
    have array := kept some_
    rw [(isArray_eq_false_iff e).mpr plain] at array
    contradiction
  cases e with
  | leaf name' code n d limits =>
    rw [inPlaceOf]
    split
    · next plain =>
      rw [none_ plain, plain, emitted, emitted]
      exact leafOperations_noArray code _ _ limits
    · rfl
  | record name' n d elements =>
    rw [inPlaceOf]
    split
    · next plain =>
      have info : dataInfo .record 0 (d || isDynamic) = dataInfo .record 0 d := by simp [dataInfo]
      rw [none_ plain, plain, emitted, emitted, UInt32.toNat_zero, info]
    · rfl
  | refId | refName | refPtr =>
    rw [inPlaceOf]
    split <;> rfl

theorem isArray_of_suffixIs {arrayLen : UInt32} {isDynamic : Bool} {target : DataElement}
    (is : SuffixIs (fun _ _ => False) arrayLen isDynamic target) (some_ : arrayLen ≠ 0) :
    target.replaced.isArray = true :=
  Bool.of_not_eq_false (is some_)

/-- Where nothing is passed over, the compiler takes references for what the tree says. -/
theorem emitted_replaced {e : DataElement} (keeps : e.SkipsOnly fun _ _ => False) :
    e.replaced.emitted programType = e.emitted programType := by
  induction e using tree_induction with
  | leaf => rfl
  | record name arrayLen isDynamic elements ih =>
    have fields : emittedFields programType (replacedAll elements) = emittedFields programType elements := by
      rw [SkipsOnly] at keeps
      clear arrayLen
      induction elements with
      | nil => rfl
      | cons child rest ihRest =>
        have more : (replacedAll rest).isEmpty = rest.isEmpty := by cases rest <;> rfl
        rw [replacedAll, emittedFields, emittedFields, nameBytes_replaced, more, ih child List.mem_cons_self keeps.1,
          ihRest (fun x mem => ih x (List.mem_cons_of_mem _ mem)) keeps.2]
    rw [replaced, emitted, emitted, fields]
  | refId => rfl
  | refName => rfl
  | refPtr name arrayLen isDynamic target ih =>
    rw [replaced, emitted_inPlaceOf name isDynamic (isArray_of_suffixIs keeps.1), ih keeps.2]
    rfl

theorem emitted_flattened {e : DataElement} (once : e.OneSuffix) (keeps : e.KeepsSuffixes) :
    e.flattened.emitted programType = e.operations programType := by
  induction e using tree_induction with
  | leaf => rfl
  | record name arrayLen isDynamic elements =>
    exact (@emitted_replaced programType (.record name arrayLen isDynamic elements) keeps).symm
  | refId => rfl
  | refName => rfl
  | refPtr name arrayLen isDynamic target ih =>
    rw [OneSuffix] at once
    rw [KeepsSuffixes, PortSkipsOnly] at keeps
    rw [flattened, operations, replaced]
    by_cases reference : target.getTypeCode = .refPtr
    · rw [if_pos reference] at once keeps ⊢
      rw [emitted_inPlaceOf name isDynamic (isArray_of_suffixIs keeps.1), ih once keeps.2]
      rfl
    · rw [if_neg reference] at once keeps ⊢
      by_cases none_ : arrayLen = 0
      · rw [if_pos none_, emitted_inPlaceOf name isDynamic fun some_ => absurd none_ some_, emitted_replaced keeps]
      · have plain := (isArray_eq_false_iff target).mp (once.resolve_left none_)
        rw [if_neg none_]
        cases target with
        | leaf name' code n d limits =>
          rw [replaced, inPlaceOf, if_pos (show n = 0 from plain)]
          rfl
        | record name' n d elements =>
          have fields := @emitted_replaced programType (.record name' arrayLen (d || isDynamic) elements) keeps
          rw [replaced, inPlaceOf, if_pos (show n = 0 from plain)]
          exact fields.symm
        | refId | refName =>
          rw [replaced, inPlaceOf]
          split <;> rfl
        | refPtr => exact absurd rfl reference

end DataElement

/-- The clone keeps the check of all limits but those of a byte. -/
theorem limitCheck_clone_iff {code : LeafCode} (limitable : code.limitable = true) (limits : Limits) :
    limitCheck code (limits.clone code) = limitCheck code limits ↔ (DeclaredLimits.mk code limits true).Kept := by
  have low (x : BitVec 64) : ((x.setWidth 32).setWidth 64).setWidth 32 = x.setWidth 32 := by
    rw [BitVec.setWidth_setWidth_of_le _ (by decide), BitVec.setWidth_eq]
  cases code with
  | byte =>
    have zero : BitVec.setWidth 32 (0 : BitVec 64) = 0 := rfl
    simp only [limitCheck, Limits.clone, DataElement.limitsUInt32, DeclaredLimits.Kept, zero, List.cons.injEq,
      Operation.rangeCheckUInt32.injEq, RangeCheckInfo.mk.injEq, Prod.mk.injEq, and_true, true_implies]
    exact and_congr eq_comm eq_comm
  | none | char | char8 | char16 | char32 | bool => cases limitable
  | uint8 | uint16 | uint32 =>
    refine iff_of_true ?_ (fun _ isByte => by cases isByte)
    simp only [limitCheck, Limits.clone, DataElement.limitsUInt32, low]
  | int8 | int16 | int32 =>
    refine iff_of_true ?_ (fun _ isByte => by cases isByte)
    simp only [limitCheck, Limits.clone, DataElement.limitsInt32, low]
  | uint64 | int64 => exact iff_of_true rfl (fun _ isByte => by cases isByte)

namespace DataElement

theorem nameBytes_clone (e : DataElement) : e.clone.nameBytes = e.nameBytes := by
  cases e <;> rfl

theorem limitable_of_declaredLimits (e : DataElement) (cloned : Bool) :
    ∀ l ∈ e.declaredLimits cloned, l.code.limitable = true := by
  induction e using tree_induction generalizing cloned with
  | leaf name code arrayLen isDynamic limits =>
    intro l mem
    cases limits with
    | none => contradiction
    | some limits =>
      rw [declaredLimits, leafLimits] at mem
      split at mem
      · next limitable => rw [List.mem_singleton.mp mem, limitable]
      · contradiction
  | record name arrayLen isDynamic elements ih =>
    rw [declaredLimits]
    clear arrayLen
    induction elements with
    | nil => exact fun l mem => absurd mem List.not_mem_nil
    | cons child rest ihRest =>
      intro l mem
      rw [declaredLimitsFields] at mem
      rcases List.mem_append.mp mem with mem | mem
      · exact ih child List.mem_cons_self _ l mem
      · exact ihRest (fun x inRest => ih x (List.mem_cons_of_mem _ inRest)) l mem
  | refId => exact fun l mem => absurd mem List.not_mem_nil
  | refName => exact fun l mem => absurd mem List.not_mem_nil
  | refPtr name arrayLen isDynamic target ih => exact ih cloned

theorem declaredLimits_flattened (e : DataElement) : e.flattened.declaredLimits true = e.declaredLimits true := by
  induction e using tree_induction with
  | leaf | record | refId | refName => rfl
  | refPtr name arrayLen isDynamic target ih =>
    rw [flattened]
    split
    · exact ih
    · split
      · rfl
      · cases target <;> rfl

/-- A clone is compiled as the element where it keeps the limits. -/
theorem emitted_clone {e : DataElement} (concrete : e.getTypeCode ≠ .refPtr)
    (kept : ∀ l ∈ e.declaredLimits true, l.Kept) : e.clone.emitted programType = e.emitted programType := by
  induction e using tree_induction with
  | leaf name code arrayLen isDynamic limits =>
    rw [clone, emitted, emitted]
    cases limits with
    | none => rfl
    | some limits =>
      have check : limitCheck code (limits.clone code) = limitCheck code limits := by
        cases limitable : code.limitable with
        | false => rw [limitCheck_other limitable, limitCheck_other limitable]
        | true =>
          rw [declaredLimits, leafLimits, if_pos limitable] at kept
          exact (limitCheck_clone_iff limitable limits).mpr (kept _ (List.mem_singleton_self _))
      cases programType <;> rw [Option.map_some, leafOperations, leafOperations, check]
  | record name arrayLen isDynamic elements ih =>
    have fields : emittedFields programType (cloneAll elements) = emittedFields programType elements := by
      rw [declaredLimits] at kept
      clear concrete arrayLen
      induction elements with
      | nil => rfl
      | cons child rest ihRest =>
        rw [declaredLimitsFields, List.forall_mem_append] at kept
        have more : (cloneAll rest).isEmpty = rest.isEmpty := by cases rest <;> rfl
        have first : child.clone.emitted programType = child.emitted programType := by
          by_cases reference : child.getTypeCode = .refPtr
          · rw [clone_reference reference]
          · have keptChild := kept.1
            simp only [Bool.true_and, bne_iff_ne.mpr reference] at keptChild
            exact ih child List.mem_cons_self reference keptChild
        rw [cloneAll, emittedFields, emittedFields, nameBytes_clone, more, first,
          ihRest (fun x mem => ih x (List.mem_cons_of_mem _ mem)) kept.2]
    rw [clone, emitted, emitted, fields]
  | refId => rfl
  | refName => rfl
  | refPtr => exact absurd rfl concrete

theorem arrayLengths_clone (e : DataElement) :
    arrayLengths (e.clone.emitted programType) = arrayLengths (e.emitted programType) := by
  induction e using tree_induction with
  | leaf => rw [clone, emitted, emitted, arrayLengths_leafOperations, arrayLengths_leafOperations]
  | record name arrayLen isDynamic elements ih =>
    have fields := List.map_congr_left ih
    rw [clone, arrayLengths_record, arrayLengths_record, cloneAll_eq, List.map_map]
    exact congrArg (fun lengths => arrayLen.toNat + lengths.sum) fields
  | refId | refName | refPtr => rfl

theorem emittedSize_clone (e : DataElement) : e.clone.emittedSize = e.emittedSize := by
  induction e using tree_induction with
  | leaf => rfl
  | record name arrayLen isDynamic elements ih =>
    rw [clone, emittedSize, emittedSize, cloneAll_eq, emittedSizes_eq, emittedSizes_eq, List.map_map]
    exact congrArg (fun sizes => extent sizes.sum arrayLen.toNat isDynamic) (List.map_congr_left ih)
  | refId | refName | refPtr => rfl

theorem complete_of_clone (e : DataElement) (complete : e.clone.Complete) : e.Complete := by
  induction e using tree_induction with
  | leaf => exact complete
  | record name arrayLen isDynamic elements ih =>
    rw [clone] at complete
    obtain ⟨nonempty, each⟩ := complete
    refine ⟨fun empty => nonempty (by rw [empty, cloneAll]), ?_⟩
    clear nonempty arrayLen
    induction elements with
    | nil => trivial
    | cons child rest ihRest =>
      obtain ⟨named, first, others⟩ := each
      rw [nameBytes_clone] at named
      exact ⟨named, ih child List.mem_cons_self first,
        ihRest (fun x mem => ih x (List.mem_cons_of_mem _ mem)) others⟩
  | refId | refName | refPtr => exact complete

theorem complete_of_flattened (e : DataElement) (complete : e.flattened.Complete) : e.Complete := by
  induction e using tree_induction with
  | leaf | record | refId | refName => exact complete
  | refPtr name arrayLen isDynamic target ih =>
    rw [flattened] at complete
    split at complete
    · exact ih complete
    · split at complete
      · exact complete
      · cases target <;> exact complete

theorem fit_clone {code : LeafCode} {limits : Limits} (fit : limits.Fit code) : (limits.clone code).Fit code := by
  have low (x : BitVec 64) : ((x.setWidth 32).setWidth 64).setWidth 32 = x.setWidth 32 := by
    rw [BitVec.setWidth_setWidth_of_le _ (by decide), BitVec.setWidth_eq]
  cases code with
  | byte =>
    have zero : (Limits.mk 0 0).Fit .byte := by decide
    exact zero
  | uint8 | uint16 =>
    simp only [Limits.Fit, Limits.clone, limitsUInt32, low]
    exact fit
  | int8 | int16 =>
    simp only [Limits.Fit, Limits.clone, limitsInt32, low]
    exact fit
  | _ => trivial

theorem limitsFit_clone (e : DataElement) (fit : e.LimitsFit) : e.clone.LimitsFit := by
  induction e using tree_induction with
  | leaf name code arrayLen isDynamic limits =>
    intro l mem
    obtain ⟨l, inside, rfl⟩ := Option.map_eq_some_iff.mp mem
    exact fit_clone (fit l inside)
  | record name arrayLen isDynamic elements ih =>
    rw [clone, LimitsFit]
    rw [LimitsFit] at fit
    clear arrayLen
    induction elements with
    | nil => trivial
    | cons child rest ihRest =>
      exact ⟨ih child List.mem_cons_self fit.1, ihRest (fun x mem => ih x (List.mem_cons_of_mem _ mem)) fit.2⟩
  | refId | refName | refPtr => exact fit

theorem limitsFit_flattened (e : DataElement) (fit : e.LimitsFit) : e.flattened.LimitsFit := by
  induction e using tree_induction with
  | leaf | record | refId | refName => exact fit
  | refPtr name arrayLen isDynamic target ih =>
    rw [flattened]
    split
    · exact ih fit
    · split
      · exact fit
      · cases target <;> exact fit

theorem limitsFit_flat {e flat : DataElement} (flatten : e.flatten = .ok flat) (fit : e.LimitsFit) :
    flat.LimitsFit := by
  obtain ⟨rfl, -⟩ := flatten_eq flatten
  exact limitsFit_clone _ (limitsFit_flattened e fit)

/-- The limits of a port are still there behind its flattening. -/
def KeepsLimits (e : DataElement) : Prop := ∀ l ∈ e.declaredLimits true, l.Kept

instance (e : DataElement) : Decidable e.KeepsLimits :=
  inferInstanceAs (Decidable (∀ l ∈ e.declaredLimits true, l.Kept))

/-- What the compiler makes of a flattened port is what the tree of the port denotes, when neither an array
suffix nor limits got lost. -/
theorem operations_eq_iff {e flat : DataElement} (flatten : e.flatten = .ok flat) (complete : flat.Complete) :
    e.operations programType = flat.emitted programType ↔ e.KeepsSuffixes ∧ e.KeepsLimits := by
  obtain ⟨rfl, once, concrete⟩ := flatten_eq flatten
  have whole := complete_of_flattened e (complete_of_clone e.flattened complete)
  constructor
  · intro same
    have suffixes : e.KeepsSuffixes := by
      apply ((lengthMeasure programType).flattened_le_replaced e whole once).2.mp
      exact (arrayLengths_clone e.flattened).symm.trans (congrArg arrayLengths same.symm)
    refine ⟨suffixes, ?_⟩
    -- the range checks of the clone are those of the port, one by one
    have checks := congrArg (fun ops => (rangeChecks ops).map some) same
    simp only [← emitted_flattened once suffixes, rangeChecks_emitted programType _ true,
      declaredLimits_clone e.flattened concrete, declaredLimits_flattened, List.map_map] at checks
    intro l mem
    have check : rangeCheckOf l.code l.limits = rangeCheckOf l.code l.left := List.map_inj_left.mp checks l mem
    have limitable := limitable_of_declaredLimits e true l mem
    intro cloned
    have left : l.left = l.limits.clone l.code := if_pos cloned
    exact (limitCheck_clone_iff limitable l.limits).mp
      ((limitCheck_eq_iff limitable _ _).mpr (left ▸ check.symm)) rfl
  · rintro ⟨suffixes, limits⟩
    rw [← emitted_flattened once suffixes]
    refine (emitted_clone concrete ?_).symm
    rw [declaredLimits_flattened]
    exact limits

/-- The programs have at most the exact size, and less where more than suffixes of one element got lost. -/
theorem emittedSize_flat {e flat : DataElement} (flatten : e.flatten = .ok flat) (complete : flat.Complete) :
    flat.emittedSize ≤ e.layoutSize ∧ (flat.emittedSize = e.layoutSize ↔ e.PortSkipsOnly OneElement) := by
  obtain ⟨rfl, once, -⟩ := flatten_eq flatten
  have whole := complete_of_flattened e (complete_of_clone e.flattened complete)
  rw [emittedSize_clone]
  exact sizeMeasure.flattened_le_replaced e whole once

theorem layoutSize_flat {e flat : DataElement} (flatten : e.flatten = .ok flat) (complete : flat.Complete)
    (suffixes : e.KeepsSuffixes) : flat.emittedSize = e.layoutSize := by
  have single : e.PortSkipsOnly OneElement := PortSkipsOnly.mono suffixes fun _ _ => False.elim
  exact (emittedSize_flat flatten complete).2.mpr single

end DataElement

end Emitted

section Compiled

open DataElement

variable {programType : ProgramType} {queueLength : Nat} {program : Bytes}

theorem complete_of_compiled {flat : DataElement}
    (compiled : compilePort flat queueLength programType = ⟨some program, none⟩) : flat.Complete := by
  obtain ⟨c, size, header, compiledElement, -⟩ := compilePort_eq compiled
  exact Compiler.compileElement_complete flat compiledElement

/-- A program decodes to one list of operations, and not at all for a queue of elements whose size is zero in
an uint32_t. -/
theorem decodesTo_iff {flat : DataElement} (fit : flat.LimitsFit)
    (compiled : compilePort flat queueLength programType = ⟨some program, none⟩) (ops : List Operation) :
    DecodesTo program ops ↔
      (queueLength = 0 ∨ flat.emittedSize % 2 ^ 32 ≠ 0) ∧ ops = flat.emitted programType := by
  constructor
  · intro decodes
    obtain ⟨d₁, header₁, d₂, selected, parsed, -⟩ := decodes .create {}
    have sized : queueLength = 0 ∨ flat.emittedSize % 2 ^ 32 ≠ 0 := by
      by_contra condition
      rw [not_or, not_not] at condition
      obtain ⟨_, failed⟩ := (selects_compiled fit compiled .create {}).2 condition
      rw [selected] at failed
      contradiction
    refine ⟨sized, ?_⟩
    obtain ⟨d₁', isDynamic, code, selected', codes, before, -⟩ := (selects_compiled fit compiled .create {}).1 sized
    rw [selected] at selected'
    cases selected'
    obtain ⟨d₂', parsed', -⟩ := codes.parsed before
    exact parsed.unique parsed'
  · rintro ⟨sized, rfl⟩ d header
    obtain ⟨d₁, isDynamic, code, selected, codes, before, program_eq, -⟩ :=
      (selects_compiled fit compiled d header).1 sized
    obtain ⟨d₂, parsed, same, atEnd⟩ := codes.parsed before
    exact ⟨d₁, _, d₂, selected, parsed, by rw [atEnd, same, program_eq]⟩

/-- The decoder finds in a program of a port what the tree of the port denotes exactly when the program is not for
a queue of elements whose size is zero in an uint32_t, and neither an array suffix of a reference nor the limits
of a byte were passed over. -/
theorem compiled_decodesTo_iff {e flat : DataElement} (flatten : e.flatten = .ok flat) (fit : e.LimitsFit)
    (compiled : compilePort flat queueLength programType = ⟨some program, none⟩) :
    DecodesTo program (e.operations programType) ↔
      (queueLength = 0 ∨ e.layoutSize % 2 ^ 32 ≠ 0) ∧ e.KeepsSuffixes ∧ e.KeepsLimits := by
  have complete := complete_of_compiled compiled
  rw [decodesTo_iff (limitsFit_flat flatten fit) compiled, operations_eq_iff flatten complete]
  apply and_congr_left
  rintro ⟨suffixes, -⟩
  rw [layoutSize_flat flatten complete suffixes]

/-- A record of a number with limits, a reference with an array suffix that its type has too, and a dynamic array,
without a queue -/
theorem compiled_decodesTo_iff_record :
    let e : DataElement := .record none 0 false
      [.leaf (some .a) .int16 0 false (some ⟨BitVec.ofInt 64 (-5), 300⟩),
        .refPtr (some .b) 0 false (.leaf none .uint8 1000 true none)]
    ∃ flat program, e.flatten = .ok flat ∧ compilePort flat 0 .unpack = ⟨some program, none⟩ ∧
      DecodesTo program (e.operations .unpack) := by
  intro e
  have fit : e.LimitsFit := ⟨by rintro l ⟨⟩; decide, ⟨by rintro l ⟨⟩, trivial⟩⟩
  have flatten : e.flatten = .ok e.clone := rfl
  have suffixes : e.KeepsSuffixes := ⟨trivial, ⟨fun some_ => absurd rfl some_, trivial⟩, trivial⟩
  have limits : e.KeepsLimits := by decide +kernel
  exact ⟨_, _, flatten, rfl, (compiled_decodesTo_iff flatten fit rfl).mpr ⟨.inl rfl, suffixes, limits⟩⟩

/-- The compiler accepts the port, but the decoder does not find in the program what the port denotes. -/
def Miscompiled (e : DataElement) (queueLength : Nat) : Prop :=
  e.LimitsFit ∧ ∃ flat program, e.flatten = .ok flat ∧ compilePort flat queueLength .pack = ⟨some program, none⟩ ∧
    ¬DecodesTo program (e.operations .pack)

theorem miscompiled {e flat : DataElement} (fit : e.LimitsFit) (flatten : e.flatten = .ok flat)
    (compiled : compilePort flat queueLength .pack = ⟨some program, none⟩)
    (wrong : queueLength ≠ 0 ∧ flat.emittedSize % 2 ^ 32 = 0 ∨ e.operations .pack ≠ flat.emitted .pack) :
    Miscompiled e queueLength := by
  refine ⟨fit, flat, program, flatten, compiled, ?_⟩
  intro decodes
  obtain ⟨sized, same⟩ := (decodesTo_iff (limitsFit_flat flatten fit) compiled _).mp decodes
  rcases wrong with ⟨queued, zero⟩ | differ
  · exact sized.elim queued fun some_ => some_ zero
  · exact differ same

/-- A queue of one array of 2 ^ 30 numbers of four bytes, whose size is zero in an uint32_t; the port type
{"a"T[0][3]}, where T[0] is C; and the port type B(1,7) -/
theorem not_compiled_decodesTo :
    Miscompiled (.leaf none .uint32 0x40000000 false none) 1 ∧
      Miscompiled (.record none 0 false [.refPtr (some .a) 3 false (.leaf none .uint8 0 false none)]) 0 ∧
      Miscompiled (.leaf none .byte 0 false (some ⟨1, 7⟩)) 0 := by
  have unlimited (name : Option CString) (code : LeafCode) (arrayLen : UInt32) :
      (DataElement.leaf name code arrayLen false none).LimitsFit := by
    intro l mem
    contradiction
  have limited : (DataElement.leaf none .byte 0 false (some ⟨1, 7⟩)).LimitsFit := by
    intro l mem
    cases mem
    exact ⟨by decide, by decide⟩
  refine ⟨?_, ?_, ?_⟩
  · exact miscompiled (unlimited none .uint32 0x40000000) rfl rfl (.inl (by decide))
  · exact miscompiled ⟨unlimited none .uint8 0, trivial⟩ rfl rfl (.inr (by decide))
  · exact miscompiled limited rfl rfl (.inr (by decide))

/-! The limits of a port in its program -/

theorem encodeHeader_length {elementSize : Nat} {isDynamic isDynamic' : Bool} {header header' : Bytes}
    (encoded : encodeHeader programType elementSize queueLength isDynamic = .ok header)
    (encoded' : encodeHeader programType elementSize queueLength isDynamic' = .ok header') :
    header.length = header'.length := by
  unfold encodeHeader at encoded encoded'
  dsimp only at encoded encoded'
  split at encoded
  · contradiction
  · next fits =>
    rw [if_neg fits] at encoded'
    split at encoded
    · next queued =>
      rw [if_pos queued] at encoded'
      cases encoded
      cases encoded'
      simp
    · next single =>
      rw [if_neg single] at encoded'
      cases encoded
      cases encoded'
      simp

/-- Behind a header for these sizes the program has the code of these operations. -/
def HasOperations (programType : ProgramType) (elementSize queueLength : Nat) (program : Bytes)
    (ops : List Operation) : Prop :=
  ∃ header code isDynamic, encodeHeader programType elementSize queueLength isDynamic = .ok header ∧
    program = header ++ code ∧ Codes code ops

theorem HasOperations.unique {elementSize : Nat} {ops ops' : List Operation}
    (has : HasOperations programType elementSize queueLength program ops)
    (has' : HasOperations programType elementSize queueLength program ops') : ops = ops' := by
  obtain ⟨header, code, isDynamic, encoded, rfl, codes⟩ := has
  obtain ⟨header', code', isDynamic', encoded', same, codes'⟩ := has'
  obtain ⟨-, rfl⟩ := List.append_inj same (encodeHeader_length encoded encoded')
  exact codes.unique codes'

/-- The operations of a program are those of its element with what is left of the limits. -/
theorem hasOperations_of_compiled {flat : DataElement}
    (compiled : compilePort flat queueLength programType = ⟨some program, none⟩) :
    HasOperations programType (flat.emittedSize % 2 ^ 32) queueLength program (flat.narrow.emitted programType) := by
  obtain ⟨c, size, header, compiledElement, encoded, rfl⟩ :=
    compilePort_eq ((compilePort_narrow flat queueLength programType).trans compiled)
  obtain ⟨⟨code, emitted, codes⟩, size_eq⟩ :=
    Compiler.compileElement_emits flat.narrow flat.limitsFit_narrow compiledElement
  rw [size_eq, emittedSize_narrow] at encoded
  have program_eq : c.program = code := emitted
  exact ⟨header, c.program, c.hasDynamicData, encoded, rfl, program_eq ▸ codes⟩

/-- What the compiler writes of limits is their check exactly when they are representable. -/
theorem DeclaredLimits.limitCheck_left_iff (l : DeclaredLimits) (limitable : l.code.limitable = true) :
    limitCheck l.code (l.left.narrow l.code) = limitCheck l.code l.limits ↔ l.Representable := by
  obtain ⟨code, limits, cloned⟩ := l
  cases cloned with
  | false =>
    have kept : (DeclaredLimits.mk code limits false).Kept := fun cloned => by cases cloned
    exact (Limits.limitCheck_narrow_iff limits code).trans (and_iff_left kept).symm
  | true =>
    have narrow := Limits.limitCheck_narrow_iff (limits.clone code) code
    rw [Representable, ← limitCheck_clone_iff limitable]
    change limitCheck code ((limits.clone code).narrow code) = limitCheck code limits ↔ _
    constructor
    · intro same
      have fit := Limits.fit_of_limitCheck same ((limits.clone code).fit_narrow code)
      exact ⟨fit, (narrow.mpr (fit_clone fit)).symm.trans same⟩
    · rintro ⟨fit, same⟩
      exact (narrow.mpr (fit_clone fit)).trans same

/-- Flattening or compiling the port fails, or the check of these limits is at their place in the program. -/
def LimitsSurvive (programType : ProgramType) (queueLength : Nat) (e : DataElement) (i : Nat) : Prop :=
  ∀ flat program, e.flatten = .ok flat → compilePort flat queueLength programType = ⟨some program, none⟩ →
    ∃ ops, HasOperations programType (flat.emittedSize % 2 ^ 32) queueLength program ops ∧
      (rangeChecks ops)[i]? = (e.declaredLimits true)[i]?.bind fun l => rangeCheckOf l.code l.limits

theorem rangeChecks_compiled {e flat : DataElement} (flatten : e.flatten = .ok flat) (i : Nat) :
    (rangeChecks (flat.narrow.emitted programType))[i]? =
      (e.declaredLimits true)[i]?.bind fun l => rangeCheckOf l.code (l.left.narrow l.code) := by
  obtain ⟨rfl, -, concrete⟩ := flatten_eq flatten
  have checks := rangeChecks_emitted programType e.flattened.clone.narrow true
  rw [declaredLimits_narrow, declaredLimits_clone _ concrete, declaredLimits_flattened, List.map_map,
    List.map_map] at checks
  have at_i := congrArg (fun ops => ops[i]?.bind id) checks
  simp only [List.getElem?_map, Option.bind_map, Function.comp_def, id_eq, Option.bind_fun_some] at at_i
  exact at_i

theorem limitsSurvive_iff_limitCheck {e flat : DataElement} {l : DeclaredLimits} {i : Nat}
    (flatten : e.flatten = .ok flat) (compiled : compilePort flat queueLength programType = ⟨some program, none⟩)
    (declared : (e.declaredLimits true)[i]? = some l) :
    LimitsSurvive programType queueLength e i ↔
      limitCheck l.code (l.left.narrow l.code) = limitCheck l.code l.limits := by
  rw [limitCheck_eq_iff (limitable_of_declaredLimits e true l (List.mem_of_getElem? declared))]
  constructor
  · intro survive
    obtain ⟨ops, has, check⟩ := survive flat program flatten compiled
    obtain rfl := has.unique (hasOperations_of_compiled compiled)
    rw [rangeChecks_compiled flatten, declared] at check
    exact check
  · intro same flat' program' flatten' compiled'
    refine ⟨_, hasOperations_of_compiled compiled', ?_⟩
    rw [rangeChecks_compiled flatten', declared]
    exact same

/-- Limits survive exactly when they are numbers of their type, and not those of a byte that the clone forgets. -/
theorem limitsSurvive_iff {e flat : DataElement} {l : DeclaredLimits} {i : Nat} (flatten : e.flatten = .ok flat)
    (compiled : compilePort flat queueLength programType = ⟨some program, none⟩)
    (declared : (e.declaredLimits true)[i]? = some l) :
    LimitsSurvive programType queueLength e i ↔ l.Representable := by
  rw [limitsSurvive_iff_limitCheck flatten compiled declared]
  exact l.limitCheck_left_iff (limitable_of_declaredLimits e true l (List.mem_of_getElem? declared))

/-- The second of the limits in {"a"B(0,255)"b"c[3](-128,127)} -/
theorem limitsSurvive_iff_int8 :
    let e : DataElement := .record none 0 false
      [.leaf (some .a) .byte 0 false (some ⟨0, 255⟩), .leaf (some .b) .int8 3 false (some ⟨BitVec.ofInt 64 (-128), 127⟩)]
    LimitsSurvive .unpack 0 e 1 ↔ (DeclaredLimits.mk .int8 ⟨BitVec.ofInt 64 (-128), 127⟩ true).Representable := by
  intro e
  exact limitsSurvive_iff (e := e) rfl rfl rfl

/-- The signature C(0,256), whose program checks that a number is between 0 and 0, and the port type B(1,7) -/
theorem not_limitsSurvive :
    SignatureParser.Accepts Bstr.asciiLibrary ("C(0,256)".toList.map ascii) []
        (some (.leaf none .uint8 0 false (some ⟨0, 256⟩))) ∧
      ¬LimitsSurvive .pack 0 (.leaf none .uint8 0 false (some ⟨0, 256⟩)) 0 ∧
      ¬LimitsSurvive .pack 0 (.leaf none .byte 0 false (some ⟨1, 7⟩)) 0 := by
  refine ⟨?_, ?_, ?_⟩
  · have zero : LimitNumber 64 .uint8 [ascii '0'] 0 :=
      ⟨⟨nofun, by decide +kernel⟩, by decide +kernel, by decide⟩
    have wide : LimitNumber 64 .uint8 ("256".toList.map ascii) 256 :=
      ⟨⟨nofun, by decide +kernel⟩, by decide +kernel, by decide⟩
    have limited := @LimitsSuffix.present Bstr.asciiLibrary 64 .uint8 [] [] [] [] _ _ _ _ []
      nofun zero nofun nofun wide nofun
    exact SignatureParser.accepts_signature (@Signature.leaf Bstr.asciiLibrary 64
      (ascii 'C') .uint8 _ _ _ _ _ _ rfl limited (.absent nofun))
  · intro survive
    exact absurd ((limitsSurvive_iff_limitCheck rfl rfl rfl).mp survive) (by decide)
  · intro survive
    exact absurd ((limitsSurvive_iff_limitCheck rfl rfl rfl).mp survive) (by decide)

end Compiled

end Apx
