import Apx.LimitEnforcement

/-! Which integers a compiled unpack program accepts. -/

namespace Apx

open Machine Vm

namespace DataElement

mutual

/-- Every number that is read for an element with limits lies between them. -/
def WithinLimits : DataElement → Bytes → Nat → Prop
  | .leaf _ code arrayLen isDynamic limits, bytes, cursor =>
      ∀ l ∈ limits, ∀ x ∈ code.numbers (decodeLeaf code arrayLen.toNat isDynamic bytes cursor), l.Admit code x
  | .record _ _ _ elements, bytes, cursor => WithinLimitsFields elements bytes cursor
  | .refPtr _ _ _ target, bytes, cursor => WithinLimits target bytes cursor
  | .refId .., _, _ => True
  | .refName .., _, _ => True

def WithinLimitsFields : List DataElement → Bytes → Nat → Prop
  | [], _, _ => True
  | child :: rest, bytes, cursor =>
      WithinLimits child bytes cursor ∧ WithinLimitsFields rest bytes (cursor + emittedSize child)

end

mutual

/-- The length prefix of each dynamic array states at least one element, and not more than there can be. -/
def Prefixed : DataElement → Bytes → Nat → Prop
  | .leaf _ _ arrayLen isDynamic _, bytes, cursor =>
      0 < arrayLen.toNat → isDynamic = true →
        prefixNumber bytes cursor arrayLen.toNat ≠ 0 ∧ prefixNumber bytes cursor arrayLen.toNat ≤ arrayLen.toNat
  | .record _ _ _ elements, bytes, cursor => PrefixedFields elements bytes cursor
  | .refPtr _ _ _ target, bytes, cursor => Prefixed target bytes cursor
  | .refId .., _, _ => True
  | .refName .., _, _ => True

def PrefixedFields : List DataElement → Bytes → Nat → Prop
  | [], _, _ => True
  | child :: rest, bytes, cursor =>
      Prefixed child bytes cursor ∧ PrefixedFields rest bytes (cursor + emittedSize child)

end

/-- In a buffer with room for the element only the length prefixes can make it unreadable. -/
theorem Prefixed.readable {e : DataElement} (complete : e.Complete) (integral : e.Integral) {bytes : Bytes}
    {cursor : Nat} (prefixed : e.Prefixed bytes cursor) (room : cursor + e.emittedSize ≤ bytes.length) :
    e.Readable bytes cursor := by
  induction e using tree_induction generalizing cursor with
  | leaf name code arrayLen isDynamic limits =>
    refine ⟨by omega, ?_⟩
    rw [emittedSize, extent] at room
    by_cases single : arrayLen.toNat = 0
    · rwa [if_pos single] at room ⊢
    rw [if_neg single] at room ⊢
    cases isDynamic with
    | false => exact .inl room
    | true =>
      obtain ⟨nonempty, bounded⟩ := prefixed (Nat.pos_of_ne_zero single) rfl
      have elements := Nat.mul_le_mul_left code.size bounded
      rw [if_pos rfl] at room
      refine ⟨by omega, bounded, nonempty, .inl ?_⟩
      omega
  | record name arrayLen isDynamic elements ih =>
    obtain ⟨single, integralFields⟩ := integral
    obtain ⟨-, completes⟩ := complete
    rw [emittedSize, extent, if_pos single] at room
    rw [Prefixed] at prefixed
    rw [Readable]
    clear single arrayLen
    induction elements generalizing cursor with
    | nil => trivial
    | cons child rest ihRest =>
      obtain ⟨prefixedChild, prefixedRest⟩ := prefixed
      rw [emittedSizes] at room
      exact ⟨ih child List.mem_cons_self completes.2.1 integralFields.1 prefixedChild (by omega),
        ihRest (fun x mem => ih x (List.mem_cons_of_mem _ mem)) prefixedRest (by omega) integralFields.2 completes.2.2⟩
  | refId => exact complete.elim
  | refName => exact complete.elim
  | refPtr name arrayLen isDynamic target ih => exact ih complete integral prefixed room

/-- A buffer of the size that the program states has room for an element of less than 2^32 bytes. -/
theorem Prefixed.readable_stated {e : DataElement} {program : Bytes} (integral : e.Integral) (fit : e.LimitsFit)
    (compiled : Compiled e .unpack program) (small : e.emittedSize < 2 ^ 32) {bytes : Bytes}
    (sized : bytes.length = dataSizeOf program) (prefixed : e.Prefixed bytes 0) : e.Readable bytes 0 := by
  have complete : e.Complete := Usable.complete (⟨fit, compiled, .inl rfl⟩ : Usable e 0 .unpack program)
  refine prefixed.readable complete integral ?_
  rw [sized, dataSizeOf_compiled fit compiled, Nat.mod_eq_of_lt small]
  omega

/-- Nothing is read from an empty buffer. -/
theorem Readable.nonempty {e : DataElement} (complete : e.Complete) (integral : e.Integral) {bytes : Bytes}
    {cursor : Nat} (readable : e.Readable bytes cursor) : 0 < bytes.length := by
  induction e using tree_induction with
  | leaf name code arrayLen isDynamic limits =>
    have isInteger : code.isInteger = true := integral
    have sized : 0 < code.size := by cases code <;> first | contradiction | decide
    obtain ⟨-, readable⟩ := readable
    by_cases single : arrayLen.toNat = 0
    · rw [if_pos single] at readable
      omega
    rw [if_neg single] at readable
    cases isDynamic with
    | false =>
      rcases readable with room | ⟨isText, -⟩
      · have elements := Nat.mul_pos sized (Nat.pos_of_ne_zero single)
        omega
      · rcases isText with rfl | rfl <;> contradiction
    | true =>
      have width := Serializer.sizeTypeToSize_pos (sizeToSizeType_ne (Nat.pos_of_ne_zero single))
      have room := readable.1
      omega
  | record name arrayLen isDynamic elements ih =>
    obtain ⟨nonempty, completes⟩ := complete
    cases elements with
    | nil => contradiction
    | cons child rest => exact ih child List.mem_cons_self completes.2.1 integral.2.1 readable.1
  | refId => exact complete.elim
  | refName => exact complete.elim
  | refPtr name arrayLen isDynamic target ih => exact ih complete integral readable

/-- Without limits nothing is outside of them. -/
theorem Flat.withinLimits {e : DataElement} (flat : e.Flat) (bytes : Bytes) (cursor : Nat) :
    e.WithinLimits bytes cursor := by
  induction e using tree_induction generalizing cursor with
  | leaf name code arrayLen isDynamic limits =>
    obtain rfl : limits = none := flat
    exact fun l mem => absurd mem (Option.not_mem_none l)
  | record name arrayLen isDynamic elements ih =>
    obtain ⟨-, flatFields⟩ := flat
    rw [WithinLimits]
    clear arrayLen
    induction elements generalizing cursor with
    | nil => trivial
    | cons child rest ihRest =>
      exact ⟨ih child List.mem_cons_self flatFields.1 cursor,
        ihRest (fun x mem => ih x (List.mem_cons_of_mem _ mem)) _ flatFields.2⟩
  | refId => trivial
  | refName => trivial
  | refPtr name arrayLen isDynamic target ih => exact ih flat cursor

/-- The limits that unpacking these bytes enforces: those of an integer or of an array of integers that is unpacked by
itself, where the check refuses just the numbers outside of them. Where a record has limits, nothing of it is
unpacked. -/
def LimitsEnforced : DataElement → ScalarWord → Bytes → Prop
  | .leaf _ code arrayLen isDynamic (some limits), memory, bytes =>
      let xs := code.numbers (decodeLeaf code arrayLen.toNat isDynamic bytes 0)
      (ReadableLeaf code arrayLen.toNat isDynamic bytes 0 ∧
        limits.Enforced code (arrayLen.toNat ≠ 0) memory xs) ∨
      (¬ReadableLeaf code arrayLen.toNat isDynamic bytes 0 ∧ ∃ x ∈ xs, ¬limits.Admit code x)
  | e, _, bytes => (e.Flat ∧ e.Readable bytes 0) ∨ (¬e.Flat ∧ ¬e.WithinLimits bytes 0)

end DataElement

/-- A new machine unpacks the bytes if and only if every number that has limits lies between them, and returns the
value of the bytes then. -/
structure UnpacksExactly (dtl : Dtl) (e : DataElement) (program : Bytes) (memory : ScalarWord) (bytes : Bytes) :
    Prop where
  succeeds : (∃ value vm, Vm.Unpacks dtl (.create memory) program bytes (.ok value vm)) ↔ e.WithinLimits bytes 0
  returns : ∀ value vm, Vm.Unpacks dtl (.create memory) program bytes (.ok value vm) → value = e.decode bytes 0

section

variable {dtl : Dtl} {e : DataElement} {program : Bytes} {memory : ScalarWord} {bytes : Bytes}

/-- Where unpacking succeeds under a condition and returns the value of the bytes, limits have to be that condition. -/
theorem unpacksExactly_of_condition {condition : Prop}
    (ok : condition → ∃ vm, Vm.Unpacks dtl (.create memory) program bytes (.ok (e.decode bytes 0) vm))
    (fail : ¬condition → ∃ failure vm, Vm.Unpacks dtl (.create memory) program bytes (.fail failure vm)) :
    UnpacksExactly dtl e program memory bytes ↔ (condition ↔ e.WithinLimits bytes 0) := by
  have succeeds : (∃ value vm, Vm.Unpacks dtl (.create memory) program bytes (.ok value vm)) ↔ condition := by
    constructor
    · rintro ⟨value, vm, unpacks⟩
      by_contra not
      obtain ⟨failure, vm', fails⟩ := fail not
      cases unpacks.unique fails
    · intro holds
      obtain ⟨vm, unpacks⟩ := ok holds
      exact ⟨_, vm, unpacks⟩
  have returns (value : Dv) (vm : Vm) (unpacks : Vm.Unpacks dtl (.create memory) program bytes (.ok value vm)) :
      value = e.decode bytes 0 := by
    obtain ⟨vm', unpacks'⟩ := ok (succeeds.mp ⟨value, vm, unpacks⟩)
    exact (Result.ok.inj (unpacks.unique unpacks')).1
  rw [← succeeds]
  exact ⟨UnpacksExactly.succeeds, fun same => ⟨same, returns⟩⟩

/-- Elements without limits are unpacked where they can be read. -/
theorem unpacksExactly_flat (flat : e.Flat) (integral : e.Integral) (usable : Usable e 0 .unpack program) :
    UnpacksExactly dtl e program memory bytes ↔ e.Readable bytes 0 := by
  have ok (readable : e.Readable bytes 0) :
      ∃ vm, Vm.Unpacks dtl (.create memory) program bytes (.ok (e.decode bytes 0) vm) := by
    obtain ⟨vm, unpacks, -⟩ := (@Vm.unpacks_value dtl e program usable flat (.create memory) rfl rfl bytes
      (readable.nonempty usable.complete integral)).1 readable
    exact ⟨vm, unpacks⟩
  have fail (unreadable : ¬e.Readable bytes 0) :
      ∃ failure vm, Vm.Unpacks dtl (.create memory) program bytes (.fail failure vm) := by
    cases bytes with
    | nil =>
      obtain ⟨vm, fails⟩ := @Vm.unpacks_empty e 0 program dtl usable (.create memory)
      exact ⟨_, vm, fails⟩
    | cons first rest =>
      exact (@Vm.unpacks_value dtl e program usable flat (.create memory) rfl rfl (first :: rest)
        (Nat.succ_pos _)).2 unreadable
  rw [unpacksExactly_of_condition ok fail]
  exact iff_true_right (flat.withinLimits bytes 0)

/-- Records with limits are not unpacked at all. -/
theorem unpacksExactly_record {name : Option CString} {arrayLen : UInt32} {isDynamic : Bool}
    {elements : List DataElement} (limited : ¬(DataElement.record name arrayLen isDynamic elements).Flat)
    (integral : (DataElement.record name arrayLen isDynamic elements).Integral)
    (usable : Usable (.record name arrayLen isDynamic elements) 0 .unpack program) :
    UnpacksExactly dtl (.record name arrayLen isDynamic elements) program memory bytes ↔
      ¬(DataElement.record name arrayLen isDynamic elements).WithinLimits bytes 0 := by
  have fails : ∃ failure vm, Vm.Unpacks dtl (.create memory) program bytes (.fail failure vm) := by
    cases bytes with
    | nil =>
      obtain ⟨vm, fails⟩ := @Vm.unpacks_empty _ 0 program dtl usable (.create memory)
      exact ⟨_, vm, fails⟩
    | cons first rest =>
      obtain ⟨single, integralFields⟩ := integral
      obtain ⟨-, completes⟩ := usable.complete
      let d : Deserializer := { (Vm.create memory).deserializer with buffer := { bytes := first :: rest } }
      obtain ⟨failure, d', fails⟩ := @Deserializer.fails_record dtl name arrayLen single isDynamic elements completes
        (fun child mem limitedChild d idle sound below records mark rest => Deserializer.fails_element
          (completes.mem child mem).2 (integralFields.mem child mem) limitedChild d idle sound below records mark rest)
        (fun flat => limited ⟨single, flat⟩) d rfl ⟨Nat.succ_pos _, fun padded => absurd rfl padded⟩
        (fun st mem => absurd mem List.not_mem_nil) none []
      rw [List.append_nil] at fails
      have some_ : 0 < (first :: rest).length := Nat.succ_pos _
      exact ⟨failure, Vm.unpacks_of_fails usable (.create memory) some_ fails⟩
  have never : False → ∃ vm, Vm.Unpacks dtl (.create memory) program bytes
      (.ok ((DataElement.record name arrayLen isDynamic elements).decode bytes 0) vm) := False.elim
  rw [unpacksExactly_of_condition never fun _ => fails, false_iff]

theorem unpacksExactly_leaf (exact_ : dtl.Exact) {name : Option CString} {code : LeafCode} {arrayLen : UInt32}
    {isDynamic : Bool} {limits : Limits} (isInteger : code.isInteger = true) (fit : limits.Fit code)
    (usable : Usable (.leaf name code arrayLen isDynamic (some limits)) 0 .unpack program) :
    UnpacksExactly dtl (.leaf name code arrayLen isDynamic (some limits)) program memory bytes ↔
      (DataElement.leaf name code arrayLen isDynamic (some limits)).LimitsEnforced memory bytes := by
  let xs := code.numbers (decodeLeaf code arrayLen.toNat isDynamic bytes 0)
  have within : (DataElement.leaf name code arrayLen isDynamic (some limits)).WithinLimits bytes 0 ↔
      ∀ x ∈ xs, limits.Admit code x := by
    rw [DataElement.WithinLimits]
    exact ⟨fun all => all limits rfl, fun all l mem => Option.some.inj mem ▸ all⟩
  have outside : (∃ x ∈ xs, ¬limits.Admit code x) ↔ ¬∀ x ∈ xs, limits.Admit code x := by
    simp only [not_forall, exists_prop]
  rw [DataElement.LimitsEnforced]
  show _ ↔ (_ ∧ limits.Enforced code (arrayLen.toNat ≠ 0) memory xs) ∨ (_ ∧ ∃ x ∈ xs, ¬limits.Admit code x)
  by_cases empty : bytes = []
  · subst empty
    have unreadable : ¬ReadableLeaf code arrayLen.toNat isDynamic [] 0 := fun readable =>
      Nat.lt_irrefl 0 (DataElement.Readable.nonempty (e := .leaf name code arrayLen isDynamic (some limits))
        usable.complete isInteger readable)
    have never : False → ∃ vm, Vm.Unpacks dtl (.create memory) program []
        (.ok ((DataElement.leaf name code arrayLen isDynamic (some limits)).decode [] 0) vm) := False.elim
    obtain ⟨vm, fails⟩ := @Vm.unpacks_empty _ 0 program dtl usable (.create memory)
    rw [unpacksExactly_of_condition never fun _ => ⟨_, vm, fails⟩, within, outside]
    simp only [unreadable, false_and, not_false_eq_true, true_and, false_or, false_iff]
  · have nonempty : 0 < bytes.length := List.length_pos_of_ne_nil empty
    let d : Deserializer := { (Vm.create memory).deserializer with buffer := { bytes := bytes } }
    have sound : d.buffer.Sound := ⟨nonempty, fun padded => absurd rfl padded⟩
    obtain ⟨w, leftover, unpacks⟩ :=
      Deserializer.unpacks_limited exact_ isInteger arrayLen.toNat isDynamic limits (d := d) rfl rfl sound
    obtain ⟨ok, fail⟩ := unpacks (ReadableLeaf code arrayLen.toNat isDynamic bytes 0 ∧
      ∀ x ∈ xs, Deserializer.Passes (code.checkedAs (arrayLen.toNat ≠ 0)) (limits.test code) w x) Iff.rfl
    have succeeds (holds : ReadableLeaf code arrayLen.toNat isDynamic bytes 0 ∧
        ∀ x ∈ xs, Deserializer.Passes (code.checkedAs (arrayLen.toNat ≠ 0)) (limits.test code) w x) :
        ∃ vm, Vm.Unpacks dtl (.create memory) program bytes
          (.ok ((DataElement.leaf name code arrayLen isDynamic (some limits)).decode bytes 0) vm) := by
      obtain ⟨d', held, returns⟩ := ok holds
      have same : d'.state.value = (DataElement.leaf name code arrayLen isDynamic (some limits)).decode bytes 0 := held
      have some_ : d'.state.value ≠ .null := same ▸ DataElement.decode_ne_null usable.complete bytes 0
      obtain ⟨vm, unpacks, -⟩ := Vm.unpacks_of_yields usable (.create memory) nonempty some_ returns
      exact ⟨vm, same ▸ unpacks⟩
    have fails (not : ¬(ReadableLeaf code arrayLen.toNat isDynamic bytes 0 ∧
        ∀ x ∈ xs, Deserializer.Passes (code.checkedAs (arrayLen.toNat ≠ 0)) (limits.test code) w x)) :
        ∃ failure vm, Vm.Unpacks dtl (.create memory) program bytes (.fail failure vm) := by
      obtain ⟨failure, d', fails⟩ := fail not
      exact ⟨failure, Vm.unpacks_of_fails usable (.create memory) nonempty fails⟩
    rw [unpacksExactly_of_condition succeeds fails, within]
    by_cases readable : ReadableLeaf code arrayLen.toNat isDynamic bytes 0
    · obtain ⟨some_, inRange, -⟩ :=
        Deserializer.tests_leaf exact_ isInteger arrayLen.toNat isDynamic limits (d := d) rfl rfl sound readable
      have enforced := @Limits.enforced_iff limits w code isInteger fit xs some_ inRange (arrayLen.toNat ≠ 0)
      have word : (limits.Enforced code (arrayLen.toNat ≠ 0) w xs ↔ limits.Enforced code (arrayLen.toNat ≠ 0) memory xs) := by
        refine Limits.enforced_word (fun array => ⟨0, ?_⟩) xs
        rw [leftover (of_decide_eq_true array)]
        exact ScalarWord.setLow_setLow memory 0 0
      rw [and_iff_right readable, and_iff_right readable, enforced, word]
      simp only [readable, not_true_eq_false, false_and, or_false]
    · rw [outside]
      simp only [readable, false_and, not_false_eq_true, true_and, false_or, false_iff]

/-- Unpacking enforces the limits of integers exactly where their checks do, which those of records never do. -/
theorem unpacksExactly_iff (exact_ : dtl.Exact) (integral : e.Integral) (fit : e.LimitsFit)
    (compiled : Compiled e .unpack program) :
    UnpacksExactly dtl e program memory bytes ↔ e.LimitsEnforced memory bytes := by
  have usable : Usable e 0 .unpack program := ⟨fit, compiled, .inl rfl⟩
  have unlimited (flat : e.Flat) : UnpacksExactly dtl e program memory bytes ↔
      (e.Flat ∧ e.Readable bytes 0) ∨ (¬e.Flat ∧ ¬e.WithinLimits bytes 0) := by
    rw [unpacksExactly_flat flat integral usable]
    simp only [flat, true_and, not_true_eq_false, false_and, or_false]
  cases e with
  | leaf name code arrayLen isDynamic limits =>
    cases limits with
    | none => exact unlimited rfl
    | some limits => exact unpacksExactly_leaf exact_ integral (fit limits rfl) usable
  | record name arrayLen isDynamic elements =>
    by_cases flat : (DataElement.record name arrayLen isDynamic elements).Flat
    · exact unlimited flat
    · rw [unpacksExactly_record flat integral usable, DataElement.LimitsEnforced]
      · simp only [flat, false_and, not_false_eq_true, true_and, false_or]
      · exact fun name code arrayLen isDynamic limits => DataElement.noConfusion
  | refId => exact usable.complete.elim
  | refName => exact usable.complete.elim
  | refPtr name arrayLen isDynamic target =>
    obtain ⟨c, size, header, compiled, -⟩ := compilePort_eq usable.compiled
    cases compiled

end

/-- Two signed numbers between -5 and 5 -/
private def bounded : DataElement := .leaf none .int16 2 false (some ⟨BitVec.ofInt 64 (-5), 5⟩)

private theorem bounded_fit : bounded.LimitsFit := by
  intro l mem
  obtain rfl := Option.some.inj mem
  decide

/-- The numbers 5 and -5, and the numbers 5 and 6 -/
theorem unpacksExactly_bounded : ∃ program, Compiled bounded .unpack program ∧
    UnpacksExactly .numeric bounded program 0 [5, 0, 251, 255] ∧ UnpacksExactly .numeric bounded program 0 [5, 0, 6, 0] := by
  obtain ⟨program, compiled⟩ : ∃ program, Compiled bounded .unpack program := ⟨_, rfl⟩
  have integral : bounded.Integral := rfl
  have enforced (bytes : Bytes) (room : bytes.length = 4) : bounded.LimitsEnforced 0 bytes := by
    have sized : bytes.length = dataSizeOf program := room.trans (dataSizeOf_compiled bounded_fit compiled).symm
    have prefixed : bounded.Prefixed bytes 0 := fun _ isDynamic => absurd isDynamic Bool.false_ne_true
    exact .inl ⟨prefixed.readable_stated integral bounded_fit compiled (by decide) sized, trivial⟩
  exact ⟨program, compiled,
    (unpacksExactly_iff Dtl.numeric_exact integral bounded_fit compiled).mpr (enforced _ rfl),
    (unpacksExactly_iff Dtl.numeric_exact integral bounded_fit compiled).mpr (enforced _ rfl)⟩

/-- A record of a number between 0 and 10 -/
private def holder : DataElement := .record none 0 false [.leaf (some .a) .uint8 0 false (some ⟨0, 10⟩)]

/-- The record of the number 5 is not unpacked. -/
theorem not_unpacksExactly : ∃ program, Compiled holder .unpack program ∧ dataSizeOf program = 1 ∧
    holder.Integral ∧ holder.LimitsFit ∧ holder.Prefixed [5] 0 ∧ ¬UnpacksExactly .numeric holder program 0 [5] := by
  obtain ⟨program, compiled⟩ : ∃ program, Compiled holder .unpack program := ⟨_, rfl⟩
  have integral : holder.Integral := ⟨rfl, rfl, trivial⟩
  have fit : holder.LimitsFit := by
    refine ⟨fun l mem => ?_, trivial⟩
    obtain rfl := Option.some.inj mem
    decide
  have limited : ¬holder.Flat := fun flat => Option.some_ne_none _ flat.2.1
  have within : holder.WithinLimits [5] 0 := by
    refine ⟨fun l mem => ?_, trivial⟩
    obtain rfl := Option.some.inj mem
    decide
  have prefixed : holder.Prefixed [5] 0 := ⟨fun positive => absurd positive (Nat.lt_irrefl 0), trivial⟩
  refine ⟨program, compiled, dataSizeOf_compiled fit compiled, integral, fit, prefixed, fun exactly_ => ?_⟩
  exact (unpacksExactly_record limited integral ⟨fit, compiled, .inl rfl⟩).mp exactly_ within

end Apx
