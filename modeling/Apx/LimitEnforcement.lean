import Apx.LimitChecks

/-! Which limits an unpack program enforces. -/

namespace Apx

open LittleEndian Machine Vm

/-- What the check of an element of 64 bits compares: the low half is of the element, and the high half is what the
memory of the machine held. -/
def LeafCode.overLeftover (code : LeafCode) (memory : ScalarWord) (x : Int) : Int :=
  match code with
  | .uint64 => (memory.setLow (BitVec.ofInt 32 x)).toNat
  | _ => (memory.setLow (BitVec.ofInt 32 x)).toInt

namespace Limits

/-- An element of 64 bits passes its check. -/
def AdmitHalf (limits : Limits) (code : LeafCode) (memory : ScalarWord) (x : Int) : Prop :=
  LeafCode.int32.InRange x ∧ limits.Admit code (code.overLeftover memory x)

/-- The check of these limits refuses just the numbers outside of them. Unsigned numbers of 32 bits are compared as
signed ones, unsigned numbers of 64 bits have to be signed ones, and of the elements of an array 32 bits are read. -/
def Enforced (limits : Limits) (code : LeafCode) (isArray : Bool) (memory : ScalarWord) (xs : List Int) : Prop :=
  match code, isArray with
  | .uint32, _ =>
      (limits.low .uint32 < 2 ^ 31 ↔ limits.high .uint32 < 2 ^ 31) ∨
      (limits.low .uint32 < 2 ^ 31 ∧ 2 ^ 31 ≤ limits.high .uint32 ∧ ∃ x ∈ xs, ¬limits.Admit .uint32 x) ∨
      (limits.high .uint32 < 2 ^ 31 ∧ 2 ^ 31 ≤ limits.low .uint32 ∧
        ∃ x ∈ xs, limits.high .uint32 < x ∧ x < limits.low .uint32)
  | .uint64, false => (∃ x ∈ xs, ¬limits.Admit .uint64 x) ∨ ∀ x ∈ xs, x < 2 ^ 63
  | .uint64, true | .int64, true =>
      ((∃ x ∈ xs, ¬limits.Admit code x) ∧ ∃ x ∈ xs, ¬limits.AdmitHalf code memory x) ∨
        ∀ x ∈ xs, limits.Admit code x ∧ limits.AdmitHalf code memory x
  | _, _ => True

variable {limits : Limits} {w : ScalarWord} {x : Int}

theorem toInt_ofInt_unsigned (low : 0 ≤ x) (high : x < 2 ^ 32) :
    (BitVec.ofInt 32 x).toInt = if x < 2 ^ 31 then x else x - 2 ^ 32 := by
  rw [BitVec.toInt_ofInt, Int.bmod_def]
  omega

theorem toInt_unsigned (v : BitVec 32) :
    v.toInt = if (v.toNat : Int) < 2 ^ 31 then (v.toNat : Int) else v.toNat - 2 ^ 32 := by
  have bound := v.isLt
  rw [BitVec.toInt_eq_toNat_cond]
  omega

/-- Unsigned numbers are compared as signed ones. -/
theorem passes_unsigned {code : LeafCode} (isUnsigned : code = .uint8 ∨ code = .uint16 ∨ code = .uint32)
    (inRange : LeafCode.uint32.InRange x) (isArray : Bool) :
    Deserializer.Passes (code.checkedAs isArray) (limits.test code) w x ↔
      (if limits.low code < 2 ^ 31 then limits.low code else limits.low code - 2 ^ 32) ≤
          (if x < 2 ^ 31 then x else x - 2 ^ 32) ∧
        (if x < 2 ^ 31 then x else x - 2 ^ 32) ≤
          if limits.high code < 2 ^ 31 then limits.high code else limits.high code - 2 ^ 32 := by
  obtain ⟨low, high⟩ := inRange
  have signed : (BitVec.ofInt 32 x).toInt = if x < 2 ^ 31 then x else x - 2 ^ 32 :=
    toInt_ofInt_unsigned low (by simp only [LeafCode.upper] at high; omega)
  have checked : code.checkedAs isArray = .uint32 := by
    rcases isUnsigned with rfl | rfl | rfl <;> rfl
  have passes : limits.test code (w.setLow (BitVec.ofInt 32 x)) =
      valueInRangeI32 (BitVec.ofInt 32 x) (DataElement.limitsUInt32 limits).1 (DataElement.limitsUInt32 limits).2 := by
    rcases isUnsigned with rfl | rfl | rfl <;> rw [test, ScalarWord.low_setLow]
  have lower : limits.low code = (DataElement.limitsUInt32 limits).1.toNat := by
    rcases isUnsigned with rfl | rfl | rfl <;> rfl
  have upper : limits.high code = (DataElement.limitsUInt32 limits).2.toNat := by
    rcases isUnsigned with rfl | rfl | rfl <;> rfl
  rw [Deserializer.Passes, checked]
  show _ ∧ limits.test code (w.setLow (BitVec.ofInt 32 x)) = true ↔ _
  rw [passes, valueInRangeI32_iff, signed, toInt_unsigned, toInt_unsigned, ← lower, ← upper]
  exact and_iff_right ⟨low, high⟩

/-- Numbers that are small enough are not changed by that. -/
theorem passes_narrow {code : LeafCode} (isNarrow : code = .uint8 ∨ code = .uint16) (fit : limits.Fit code)
    (inRange : code.InRange x) (isArray : Bool) :
    Deserializer.Passes (code.checkedAs isArray) (limits.test code) w x ↔ limits.Admit code x := by
  have stored : LeafCode.uint32.InRange x := by
    rcases isNarrow with rfl | rfl <;> exact LeafCode.inRange_stored inRange
  have isUnsigned : code = .uint8 ∨ code = .uint16 ∨ code = .uint32 := by
    rcases isNarrow with rfl | rfl <;> simp
  rw [passes_unsigned isUnsigned stored]
  obtain ⟨-, below⟩ := inRange
  rcases isNarrow with rfl | rfl
  · simp only [Fit] at fit
    simp only [LeafCode.upper] at below
    simp only [Admit, low, high]
    omega
  · simp only [Fit] at fit
    simp only [LeafCode.upper] at below
    simp only [Admit, low, high]
    omega

theorem passes_signed {code : LeafCode} (isSigned : code = .int8 ∨ code = .int16 ∨ code = .int32)
    (inRange : code.InRange x) (isArray : Bool) :
    Deserializer.Passes (code.checkedAs isArray) (limits.test code) w x ↔ limits.Admit code x := by
  have stored : LeafCode.int32.InRange x := by
    rcases isSigned with rfl | rfl | rfl <;> exact LeafCode.inRange_stored inRange
  have checked : code.checkedAs isArray = .int32 := by
    rcases isSigned with rfl | rfl | rfl <;> rfl
  have same : (BitVec.ofInt 32 x).toInt = x := by
    obtain ⟨low, high⟩ := stored
    simp only [LeafCode.lower, LeafCode.upper] at low high
    rw [BitVec.toInt_ofInt, Int.bmod_def]
    omega
  have passes : limits.test code (w.setLow (BitVec.ofInt 32 x)) =
      valueInRangeI32 (BitVec.ofInt 32 x) (DataElement.limitsInt32 limits).1 (DataElement.limitsInt32 limits).2 := by
    rcases isSigned with rfl | rfl | rfl <;> simp only [test, ScalarWord.low_setLow]
  have admits : limits.Admit code x ↔
      (DataElement.limitsInt32 limits).1.toInt ≤ x ∧ x ≤ (DataElement.limitsInt32 limits).2.toInt := by
    rcases isSigned with rfl | rfl | rfl <;> rfl
  rw [Deserializer.Passes, checked, admits]
  show _ ∧ limits.test code (w.setLow (BitVec.ofInt 32 x)) = true ↔ _
  rw [passes, valueInRangeI32_iff, same]
  exact and_iff_right stored

theorem passes_int64 (inRange : LeafCode.int64.InRange x) :
    Deserializer.Passes (LeafCode.int64.checkedAs false) (limits.test .int64) w x ↔ limits.Admit .int64 x := by
  have same : (BitVec.ofInt 64 x).toInt = x := by
    obtain ⟨low, high⟩ := inRange
    simp only [LeafCode.lower, LeafCode.upper] at low high
    rw [BitVec.toInt_ofInt, Int.bmod_def]
    omega
  show LeafCode.int64.InRange x ∧ limits.test .int64 (BitVec.ofInt 64 x) = true ↔ _
  rw [test, valueInRangeI64_iff, same]
  exact and_iff_right inRange

theorem passes_uint64 (inRange : LeafCode.uint64.InRange x) :
    Deserializer.Passes (LeafCode.uint64.checkedAs false) (limits.test .uint64) w x ↔
      x < 2 ^ 63 ∧ limits.Admit .uint64 x := by
  obtain ⟨low, high⟩ := inRange
  simp only [LeafCode.lower, LeafCode.upper] at low high
  have same : ((BitVec.ofInt 64 x).toNat : Int) = x := by
    rw [BitVec.toNat_ofInt]
    omega
  have fits : LeafCode.int64.InRange x ↔ x < 2 ^ 63 := by
    simp only [LeafCode.InRange, LeafCode.lower, LeafCode.upper]
    omega
  have admits : limits.test .uint64 (BitVec.ofInt 64 x) = true ↔ limits.Admit .uint64 x := by
    rw [test, valueInRangeU64_iff]
    simp only [Admit, Limits.low, Limits.high]
    omega
  show LeafCode.int64.InRange x ∧ limits.test .uint64 (BitVec.ofInt 64 x) = true ↔ _
  rw [fits, admits]

theorem passes_half {code : LeafCode} (isWide : code = .uint64 ∨ code = .int64) :
    Deserializer.Passes (code.checkedAs true) (limits.test code) w x ↔ limits.AdmitHalf code w x := by
  rcases isWide with rfl | rfl
  · show LeafCode.int32.InRange x ∧ limits.test .uint64 (w.setLow (BitVec.ofInt 32 x)) = true ↔ _
    rw [test, valueInRangeU64_iff]
    simp only [AdmitHalf, Admit, Limits.low, Limits.high, LeafCode.overLeftover, Int.ofNat_le]
  · show LeafCode.int32.InRange x ∧ limits.test .int64 (w.setLow (BitVec.ofInt 32 x)) = true ↔ _
    rw [test, valueInRangeI64_iff]
    simp only [AdmitHalf, Admit, Limits.low, Limits.high, LeafCode.overLeftover]

/-- Where limits lie on different sides of 2^31, the comparison as signed numbers leaves other numbers. -/
theorem enforced_uint32 {xs : List Int} (nonempty : xs ≠ []) (inRange : ∀ x ∈ xs, LeafCode.uint32.InRange x)
    (isArray : Bool) :
    ((∀ x ∈ xs, Deserializer.Passes (LeafCode.uint32.checkedAs isArray) (limits.test .uint32) w x) ↔
      ∀ x ∈ xs, limits.Admit .uint32 x) ↔ limits.Enforced .uint32 isArray w xs := by
  have passes (x : Int) (mem : x ∈ xs) :=
    @passes_unsigned limits w x .uint32 (.inr (.inr rfl)) (inRange x mem) isArray
  have bound (x : Int) (mem : x ∈ xs) : 0 ≤ x ∧ x < 2 ^ 32 := by
    obtain ⟨low, high⟩ := inRange x mem
    simp only [LeafCode.lower, LeafCode.upper] at low high
    omega
  obtain ⟨first, mem⟩ := List.exists_mem_of_ne_nil xs nonempty
  have enforced : limits.Enforced .uint32 isArray w xs ↔
      (limits.low .uint32 < 2 ^ 31 ↔ limits.high .uint32 < 2 ^ 31) ∨
      (limits.low .uint32 < 2 ^ 31 ∧ 2 ^ 31 ≤ limits.high .uint32 ∧ ∃ x ∈ xs, ¬limits.Admit .uint32 x) ∨
      (limits.high .uint32 < 2 ^ 31 ∧ 2 ^ 31 ≤ limits.low .uint32 ∧
        ∃ x ∈ xs, limits.high .uint32 < x ∧ x < limits.low .uint32) := by
    cases isArray <;> rfl
  have lowBound := (DataElement.limitsUInt32 limits).1.isLt
  have highBound := (DataElement.limitsUInt32 limits).2.isLt
  have lowNumber : limits.low .uint32 = (DataElement.limitsUInt32 limits).1.toNat := rfl
  have highNumber : limits.high .uint32 = (DataElement.limitsUInt32 limits).2.toNat := rfl
  rw [enforced]
  by_cases low : limits.low .uint32 < 2 ^ 31 <;> by_cases high : limits.high .uint32 < 2 ^ 31
  · refine iff_of_true ?_ (.inl (iff_of_true low high))
    refine forall₂_congr fun x mem => (passes x mem).trans ?_
    have := bound x mem
    simp only [Admit]
    omega
  · -- no number lies between a limit and another one that is negative
    have never : ¬∀ x ∈ xs, Deserializer.Passes (LeafCode.uint32.checkedAs isArray) (limits.test .uint32) w x := by
      intro all
      have both := (passes first mem).mp (all first mem)
      omega
    rw [iff_false_left never]
    simp only [low, high, true_and, false_and, iff_false, not_true_eq_false, false_or, or_false, not_forall, exists_prop]
    exact (and_iff_right (not_lt.mp high)).symm
  · have empty : ¬∀ x ∈ xs, limits.Admit .uint32 x := by
      intro all
      obtain ⟨atLeast, atMost⟩ := all first mem
      omega
    rw [iff_false_right empty]
    simp only [low, high, true_and, false_and, false_iff, not_true_eq_false, false_or, not_forall, exists_prop]
    rw [and_iff_right (not_lt.mp low)]
    refine exists_congr fun x => and_congr_right fun mem => ?_
    have := bound x mem
    rw [passes x mem]
    omega
  · refine iff_of_true ?_ (.inl (iff_of_false low high))
    refine forall₂_congr fun x mem => (passes x mem).trans ?_
    have := bound x mem
    simp only [Admit]
    omega

/-- The check passes just the numbers between the limits, or does not. -/
theorem enforced_iff {code : LeafCode} (isInteger : code.isInteger = true) (fit : limits.Fit code) {xs : List Int}
    (nonempty : xs ≠ []) (inRange : ∀ x ∈ xs, code.InRange x) (isArray : Bool) :
    ((∀ x ∈ xs, Deserializer.Passes (code.checkedAs isArray) (limits.test code) w x) ↔
      ∀ x ∈ xs, limits.Admit code x) ↔ limits.Enforced code isArray w xs := by
  have wide (isWide : code = .uint64 ∨ code = .int64) :
      ((∀ x ∈ xs, Deserializer.Passes (code.checkedAs true) (limits.test code) w x) ↔ ∀ x ∈ xs, limits.Admit code x) ↔
        ((∃ x ∈ xs, ¬limits.Admit code x) ∧ ∃ x ∈ xs, ¬limits.AdmitHalf code w x) ∨
          ∀ x ∈ xs, limits.Admit code x ∧ limits.AdmitHalf code w x := by
    rw [forall₂_congr fun x _ => passes_half isWide, forall₂_and]
    by_cases all : ∀ x ∈ xs, limits.Admit code x <;> by_cases half : ∀ x ∈ xs, limits.AdmitHalf code w x
    · exact iff_of_true (iff_of_true half all) (.inr ⟨all, half⟩)
    · refine iff_of_false (fun same => half (same.mpr all)) ?_
      rintro (⟨⟨x, mem, not⟩, -⟩ | ⟨-, half'⟩)
      · exact not (all x mem)
      · exact half half'
    · refine iff_of_false (fun same => all (same.mp half)) ?_
      rintro (⟨-, x, mem, not⟩ | ⟨all', -⟩)
      · exact not (half x mem)
      · exact all all'
    · refine iff_of_true (iff_of_false half all) (.inl ⟨?_, ?_⟩)
      · simpa only [not_forall, exists_prop] using all
      · simpa only [not_forall, exists_prop] using half
  cases code with
  | none | char | char8 | char16 | char32 | bool | byte => contradiction
  | uint8 =>
    have passes (x : Int) (mem : x ∈ xs) := @passes_narrow limits w x .uint8 (.inl rfl) fit (inRange x mem) isArray
    exact iff_of_true (forall₂_congr passes) trivial
  | uint16 =>
    have passes (x : Int) (mem : x ∈ xs) := @passes_narrow limits w x .uint16 (.inr rfl) fit (inRange x mem) isArray
    exact iff_of_true (forall₂_congr passes) trivial
  | uint32 => exact enforced_uint32 nonempty inRange isArray
  | int8 | int16 | int32 =>
    have passes (x : Int) (mem : x ∈ xs) := @passes_signed limits w x _ (by simp) (inRange x mem) isArray
    exact iff_of_true (forall₂_congr passes) trivial
  | uint64 =>
    cases isArray with
    | true => exact wide (.inl rfl)
    | false =>
      rw [forall₂_congr fun x mem => passes_uint64 (inRange x mem)]
      show _ ↔ (∃ x ∈ xs, ¬limits.Admit .uint64 x) ∨ ∀ x ∈ xs, x < 2 ^ 63
      by_cases all : ∀ x ∈ xs, limits.Admit .uint64 x
      · have none_ : ¬∃ x ∈ xs, ¬limits.Admit .uint64 x := by
          rintro ⟨x, mem, not⟩
          exact not (all x mem)
        rw [iff_true_right all, or_iff_right none_]
        exact forall₂_congr fun x mem => and_iff_left (all x mem)
      · refine iff_of_true (iff_of_false (fun both => all fun x mem => (both x mem).2) all) (.inl ?_)
        simpa only [not_forall, exists_prop] using all
  | int64 =>
    cases isArray with
    | true => exact wide (.inr rfl)
    | false => exact iff_of_true (forall₂_congr fun x mem => passes_int64 (inRange x mem)) trivial

end Limits

namespace Deserializer

/-! Reading an array leaves the union of its state as the reset left it: the elements are read by a state of their
own. -/

theorem unpackElements_kept {d d' : Deserializer} {child : ReadState} {av : List Dv} {count : Nat}
    (done : d.unpackElements child av count = .ok () d') :
    d'.state.scalar = d.state.scalar ∧ d'.stack = d.stack := by
  induction count generalizing d child av with
  | zero =>
    cases done
    exact ⟨rfl, rfl⟩
  | succ count ih =>
    rw [unpackElements] at done
    split at done
    · contradiction
    next child' b _ =>
      split at done
      · contradiction
      · exact @ih { d with buffer := b } _ _ done

/-- What preparing an array keeps, and that it is one then -/
structure Prepares (d : Deserializer) (arrayLength : Nat) (d' : Deserializer) : Prop where
  scalar : d'.state.scalar = d.state.scalar
  stack : d'.stack = d.stack
  typeCode : d'.state.typeCode = d.state.typeCode
  array : d'.state.arrayLen = arrayLength ∨ d'.state.dynamicSizeType ≠ .none

theorem prepares_array {d d' : Deserializer} {arrayLength : Nat} (positive : 0 < arrayLength) {sizeType : SizeType}
    (done : d.prepareForArray arrayLength sizeType = .ok () d') : Prepares d arrayLength d' := by
  rw [prepareForArray, if_pos positive] at done
  by_cases dynamic : sizeType ≠ .none
  · rw [if_pos dynamic] at done
    obtain ⟨_, d₁, lifted, done⟩ := Result.bind_eq_ok.mp done
    obtain ⟨⟨st, b⟩, determined, rfl⟩ := Result.lift_eq_ok.mp lifted
    rw [ReadState.determineArrayLengthFromReadBuffer, if_neg dynamic] at determined
    split at determined
    · cases determined
      simp only at done
      split at done
      · contradiction
      split at done
      · contradiction
      · cases done
        exact ⟨rfl, rfl, rfl, .inr dynamic⟩
    · contradiction
  · rw [if_neg dynamic] at done
    cases done
    exact ⟨rfl, rfl, rfl, .inl rfl⟩

theorem unpackOperation_scalar {code : LeafCode} (isInteger : code.isInteger = true) {arrayLength : Nat}
    (positive : 0 < arrayLength) (isDynamic : Bool) {d d' : Deserializer} (alone : d.stack = [])
    (done : unpackOperation (dataInfo code.typeCode arrayLength isDynamic) d = .ok () d') :
    d'.state.scalar = d.state.scalar.reset := by
  have known : Compiler.leafInfo code ≠ none := by cases code <;> first | contradiction | exact Option.some_ne_none _
  have readAs : code.readAs = code.typeCode := by cases code <;> first | contradiction | rfl
  rw [unpackOperation_leaf known, unpackAs, readAs] at done
  obtain ⟨_, d₁, prepared, done⟩ := Result.bind_eq_ok.mp done
  obtain ⟨-, rfl⟩ := prepareForBufferRead_ok prepared
  obtain ⟨_, d₂, array, done⟩ := Result.bind_eq_ok.mp done
  have prepares := prepares_array positive array
  have isNumber : d₂.state.isNumOrBoolType = true := by
    have type : d₂.state.typeCode = code.typeCode := prepares.typeCode
    rw [ReadState.isNumOrBoolType, type]
    cases code <;> first | contradiction | rfl
  rw [unpackPrepared] at done
  by_cases stopped : d₂.queuedReadState.isActive ∧ d₂.queuedReadState.index ≥ d₂.queuedReadState.currentLength
  · rw [if_pos stopped] at done
    contradiction
  rw [if_neg stopped] at done
  by_cases empty : d₂.state.arrayLen = 0
  · rw [if_pos empty] at done
    have dynamic := prepares.array.resolve_left fun same => Nat.ne_of_gt positive (same.symm.trans empty)
    rw [if_pos dynamic] at done
    contradiction
  · rw [if_neg empty, if_pos isNumber] at done
    obtain ⟨_, d₃, elements, done⟩ := Result.bind_eq_ok.mp done
    obtain ⟨scalar, stack⟩ := unpackElements_kept elements
    rw [popState, stack.trans (prepares.stack.trans alone), popLoop] at done
    cases done
    exact scalar.trans prepares.scalar

end Deserializer

/-- The words differ in the half that a conversion to 32 bits sets. -/
theorem Limits.enforced_word {limits : Limits} {code : LeafCode} {isArray : Bool} {w memory : ScalarWord}
    (same : isArray = true → ∃ x, w = memory.setLow x) (xs : List Int) :
    limits.Enforced code isArray w xs ↔ limits.Enforced code isArray memory xs := by
  cases isArray with
  | false => cases code <;> simp only [Enforced]
  | true =>
    obtain ⟨y, rfl⟩ := same rfl
    have half (code : LeafCode) (x : Int) :
        limits.AdmitHalf code (memory.setLow y) x ↔ limits.AdmitHalf code memory x := by
      have number : code.overLeftover (memory.setLow y) x = code.overLeftover memory x := by
        cases code <;> simp only [LeafCode.overLeftover, ScalarWord.setLow_setLow]
      rw [AdmitHalf, AdmitHalf, number]
    cases code <;> simp only [Enforced, half]

namespace Deserializer

/-- An integer with limits that nothing waits for: it is read, and then its check finds it. -/
theorem tests_leaf {dtl : Dtl} (exact_ : dtl.Exact) {code : LeafCode} (isInteger : code.isInteger = true)
    (arrayLength : Nat) (isDynamic : Bool) (limits : Limits) {d : Deserializer} (alone : d.stack = [])
    (idle : d.queuedReadState.isActive = false) (sound : d.buffer.Sound)
    (readable : ReadableLeaf code arrayLength isDynamic d.buffer.bytes d.buffer.cursor) :
    let value := decodeLeaf code arrayLength isDynamic d.buffer.bytes d.buffer.cursor
    code.numbers value ≠ [] ∧ (∀ x ∈ code.numbers value, code.InRange x) ∧ ∃ d₁ w,
      unpackOperation (dataInfo code.typeCode arrayLength isDynamic) d = .ok () d₁ ∧ d₁.state.value = value ∧
      Tests (checkLimits dtl code limits d₁)
        (∀ x ∈ code.numbers value, Passes (code.checkedAs (arrayLength ≠ 0)) (limits.test code) w x) d₁ ∧
      (arrayLength ≠ 0 → w = d.state.scalar.reset.value) := by
  intro value
  have known : Compiler.leafInfo code ≠ none := by cases code <;> first | contradiction | exact Option.some_ne_none _
  obtain ⟨st, held, unpacked⟩ := (hands_leaf known arrayLength isDynamic d idle sound).ok readable
  rw [alone, popLoop] at unpacked
  let d₁ : Deserializer := { d.reading st (d.buffer.past code arrayLength isDynamic) with stack := [] }
  rcases Nat.eq_zero_or_pos arrayLength with rfl | positive
  · obtain ⟨sv, x, decoded, number, inRange, same⟩ :=
      decodeLeaf_scalar isInteger isDynamic d.buffer.bytes d.buffer.cursor
    have all {P : Int → Prop} : (∀ y ∈ code.numbers value, P y) ↔ P x := by
      rw [show code.numbers value = [x] from same]
      exact List.forall_mem_singleton
    refine ⟨same ▸ List.cons_ne_nil _ _, all.mpr inRange, d₁, d₁.state.scalar.value, unpacked, held, ?_,
      fun array => absurd rfl array⟩
    exact (tests_scalar exact_ (isChecked_checkedAs code false) (code.checkedAs true).typeCode (limits.test code)
      (d := d₁) (held.trans decoded) number).iff all.symm
  · have notZero : arrayLength ≠ 0 := Nat.ne_of_gt positive
    obtain ⟨av, xs, decoded, numbers, inRange, same, length⟩ :=
      decodeLeaf_array isInteger notZero isDynamic d.buffer.bytes d.buffer.cursor
    have same : code.numbers value = xs := same
    have nonempty : xs ≠ [] := by
      intro empty
      rw [empty, List.length_nil, elementCount] at length
      obtain ⟨-, rest⟩ := readable
      rw [if_neg notZero] at rest
      cases isDynamic with
      | false => exact notZero length.symm
      | true => exact rest.2.2.1 length.symm
    have kept : d₁.state.scalar = d.state.scalar.reset := unpackOperation_scalar isInteger positive isDynamic alone unpacked
    have isArray : decide (arrayLength ≠ 0) = true := decide_eq_true notZero
    refine ⟨same ▸ nonempty, same ▸ inRange, d₁, d₁.state.scalar.value, unpacked, held, ?_, fun _ => by rw [kept]⟩
    rw [same, isArray]
    exact tests_array exact_ (isChecked_checkedAs code true) (code.checkedAs false).typeCode (limits.test code) (d := d₁)
      (held.trans decoded) isInteger numbers

theorem unpacks_limited {dtl : Dtl} (exact_ : dtl.Exact) {code : LeafCode} (isInteger : code.isInteger = true)
    (arrayLength : Nat) (isDynamic : Bool) (limits : Limits) {d : Deserializer} (alone : d.stack = [])
    (idle : d.queuedReadState.isActive = false) (sound : d.buffer.Sound) :
    let value := decodeLeaf code arrayLength isDynamic d.buffer.bytes d.buffer.cursor
    ∃ w, (arrayLength ≠ 0 → w = d.state.scalar.reset.value) ∧
      ∀ condition, (condition ↔ ReadableLeaf code arrayLength isDynamic d.buffer.bytes d.buffer.cursor ∧
        ∀ x ∈ code.numbers value, Passes (code.checkedAs (arrayLength ≠ 0)) (limits.test code) w x) →
      (condition → ∃ d', d'.state.value = value ∧ Yields (unpackEngine dtl).turn
        { code := leafOperations .unpack code arrayLength isDynamic (some limits), data := d } (.ok () d')) ∧
      (¬condition → Fails dtl (leafOperations .unpack code arrayLength isDynamic (some limits)) none d) := by
  intro value
  have known : Compiler.leafInfo code ≠ none := by cases code <;> first | contradiction | exact Option.some_ne_none _
  have unmarked : (Operation.unpack (dataInfo code.typeCode arrayLength isDynamic)).marks = false := by
    cases code <;> first | contradiction | simp [Operation.marks, dataInfo, LeafCode.typeCode]
  obtain ⟨op, same, check⟩ := @turn_limitCheck dtl code isInteger limits
  have operations : leafOperations .unpack code arrayLength isDynamic (some limits) =
      [.unpack (dataInfo code.typeCode arrayLength isDynamic), op] := by
    rw [leafOperations, same]
    rfl
  have step := @turn_unpack dtl _ unmarked [op] none d
  rw [operations]
  by_cases readable : ReadableLeaf code arrayLength isDynamic d.buffer.bytes d.buffer.cursor
  swap
  · obtain ⟨failure, d', failed⟩ := (hands_leaf known arrayLength isDynamic d idle sound).fail readable
    rw [failed] at step
    refine ⟨_, fun _ => rfl, fun condition meaning => ⟨fun holds => absurd (meaning.mp holds).1 readable, fun _ => ?_⟩⟩
    exact ⟨failure, d', .halt step⟩
  obtain ⟨-, -, d₁, w, unpacked, held, tests, leftover⟩ :=
    tests_leaf exact_ isInteger arrayLength isDynamic limits alone idle sound readable
  have checked := check [] none d₁
  rw [unpacked] at step
  refine ⟨w, leftover, fun condition meaning => ⟨fun holds => ?_, fun not => ?_⟩⟩
  · obtain ⟨d', passed, kept⟩ := tests.ok (meaning.mp holds).2
    rw [passed] at checked
    exact ⟨d', kept.trans held, .next step (.next checked (.halt rfl))⟩
  · obtain ⟨failure, d', failed⟩ := tests.fail fun all => not (meaning.mpr ⟨readable, all⟩)
    rw [failed] at checked
    exact ⟨failure, d', .next step (.halt checked)⟩

end Deserializer

end Apx
