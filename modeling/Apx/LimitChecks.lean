import Apx.UnpackLimits

/-! Checks of an unpack program: the numbers that were read, and what their comparison makes of them. -/

namespace Apx

open LittleEndian Machine Vm

@[simp] theorem ScalarWord.setLow_setLow (w : ScalarWord) (x y : BitVec 32) :
    (w.setLow x).setLow y = w.setLow y := by
  have fits := x.isLt
  have high := w.isLt
  apply BitVec.eq_of_toNat_eq
  simp only [setLow, BitVec.toNat_ofNat]
  omega

namespace LeafCode

variable {code : LeafCode}

theorem number_integer (isInteger : code.isInteger = true) (sv : Sv) : code.number sv = sv.int? := by
  cases code <;> first | contradiction | rfl

/-- The bytes of an integer stand for a number of its type. -/
theorem decodeScalar_number (isInteger : code.isInteger = true) {data : Bytes} (short : data.length ≤ code.size) :
    ∃ x, (code.decodeScalar data).int? = some x ∧ code.InRange x := by
  have bound : unpackLE data < 256 ^ code.size :=
    Nat.lt_of_lt_of_le (unpackLE_lt data) (Nat.pow_le_pow_right (by decide) short)
  have first := (data.headD 0).toNat_lt
  cases code with
  | none | char | char8 | char16 | char32 | byte | bool => contradiction
  | uint8 | uint16 | uint32 | uint64 =>
    refine ⟨_, rfl, ?_⟩
    simp only [size] at bound
    simp only [InRange, lower, upper, ScalarWord.low_setLow, BitVec.toNat_ofNat]
    omega
  | int8 =>
    refine ⟨_, rfl, ?_⟩
    have atLeast := BitVec.le_toInt (BitVec.ofNat 8 (data.headD 0).toNat)
    have atMost := BitVec.toInt_lt (x := BitVec.ofNat 8 (data.headD 0).toNat)
    simp only [InRange, lower, upper, ScalarWord.low_setLow, BitVec.toInt_signExtend_of_le (show 8 ≤ 32 by decide)]
    omega
  | int16 =>
    refine ⟨_, rfl, ?_⟩
    have atLeast := BitVec.le_toInt (BitVec.ofNat 16 (unpackLE data))
    have atMost := BitVec.toInt_lt (x := BitVec.ofNat 16 (unpackLE data))
    simp only [InRange, lower, upper, ScalarWord.low_setLow, BitVec.toInt_signExtend_of_le (show 16 ≤ 32 by decide)]
    omega
  | int32 =>
    refine ⟨_, rfl, ?_⟩
    have atLeast := BitVec.le_toInt (BitVec.ofNat 32 (unpackLE data))
    have atMost := BitVec.toInt_lt (x := BitVec.ofNat 32 (unpackLE data))
    simp only [InRange, lower, upper, ScalarWord.low_setLow]
    omega
  | int64 =>
    refine ⟨_, rfl, ?_⟩
    have atLeast := BitVec.le_toInt (BitVec.ofNat 64 (unpackLE data))
    have atMost := BitVec.toInt_lt (x := BitVec.ofNat 64 (unpackLE data))
    simp only [InRange, lower, upper]
    omega

theorem slice_short (bytes : Bytes) (next size : Nat) : (slice bytes next size).length ≤ size := by
  rw [slice, List.length_take]
  exact Nat.min_le_left _ _

theorem decodeElements_numbers (isInteger : code.isInteger = true) (bytes : Bytes) (next count : Nat) :
    ∃ xs, Serializer.Numbers code (code.decodeElements bytes next count) xs ∧ xs.length = count ∧
      ∀ x ∈ xs, code.InRange x := by
  induction count generalizing next with
  | zero => exact ⟨[], .nil, rfl, fun x mem => absurd mem List.not_mem_nil⟩
  | succ count ih =>
    obtain ⟨x, number, inRange⟩ := decodeScalar_number isInteger (slice_short bytes next code.size)
    obtain ⟨xs, numbers, length, inRanges⟩ := ih (next + code.size)
    refine ⟨x :: xs, .cons ⟨_, rfl, (number_integer isInteger _).trans number⟩ numbers, ?_, ?_⟩
    · rw [List.length_cons, length]
    · exact List.forall_mem_cons.mpr ⟨inRange, inRanges⟩

end LeafCode

/-- How many elements an array of integers is read with -/
def elementCount (arrayLength : Nat) (isDynamic : Bool) (bytes : Bytes) (cursor : Nat) : Nat :=
  if isDynamic then prefixNumber bytes cursor arrayLength else arrayLength

theorem decodeLeaf_scalar {code : LeafCode} (isInteger : code.isInteger = true) (isDynamic : Bool) (bytes : Bytes)
    (cursor : Nat) :
    ∃ sv x, decodeLeaf code 0 isDynamic bytes cursor = .scalar sv ∧ sv.int? = some x ∧ code.InRange x ∧
      code.numbers (decodeLeaf code 0 isDynamic bytes cursor) = [x] := by
  obtain ⟨x, number, inRange⟩ := LeafCode.decodeScalar_number isInteger (LeafCode.slice_short bytes cursor code.size)
  have decoded : decodeLeaf code 0 isDynamic bytes cursor = .scalar (code.decodeScalar (slice bytes cursor code.size)) :=
    if_pos rfl
  refine ⟨_, x, decoded, number, inRange, ?_⟩
  rw [decoded, LeafCode.numbers, LeafCode.number_integer isInteger, number]
  rfl

theorem decodeLeaf_array {code : LeafCode} (isInteger : code.isInteger = true) {arrayLength : Nat}
    (positive : arrayLength ≠ 0) (isDynamic : Bool) (bytes : Bytes) (cursor : Nat) :
    ∃ av xs, decodeLeaf code arrayLength isDynamic bytes cursor = .array av ∧ Serializer.Numbers code av xs ∧
      (∀ x ∈ xs, code.InRange x) ∧ code.numbers (decodeLeaf code arrayLength isDynamic bytes cursor) = xs ∧
      xs.length = elementCount arrayLength isDynamic bytes cursor := by
  have array (isDynamic : Bool) (next count : Nat) :
      decodeArray code isDynamic bytes next count = .array (code.decodeElements bytes next count) := by
    cases code <;> first | contradiction | rfl
  have read {next count : Nat} (decoded : decodeLeaf code arrayLength isDynamic bytes cursor =
        .array (code.decodeElements bytes next count)) (counted : count = elementCount arrayLength isDynamic bytes cursor) :
      ∃ av xs, decodeLeaf code arrayLength isDynamic bytes cursor = .array av ∧ Serializer.Numbers code av xs ∧
        (∀ x ∈ xs, code.InRange x) ∧ code.numbers (decodeLeaf code arrayLength isDynamic bytes cursor) = xs ∧
        xs.length = elementCount arrayLength isDynamic bytes cursor := by
    obtain ⟨xs, numbers, length, inRange⟩ := LeafCode.decodeElements_numbers isInteger bytes next count
    exact ⟨_, xs, decoded, numbers, inRange, decoded ▸ LeafCode.numbers_array numbers, length.trans counted⟩
  cases isDynamic with
  | false =>
    refine @read cursor arrayLength ?_ rfl
    rw [decodeLeaf, if_neg positive]
    exact array false cursor arrayLength
  | true =>
    refine @read (cursor + sizeTypeToSize (sizeToSizeType arrayLength)) (prefixNumber bytes cursor arrayLength) ?_ rfl
    rw [decodeLeaf, if_neg positive]
    exact array true _ _

/-! The word that a conversion leaves in the union: 32 bits of it are the low half only. -/

def LeafCode.word (type : LeafCode) (w : ScalarWord) (x : Int) : ScalarWord :=
  match type with
  | .int64 => BitVec.ofInt 64 x
  | _ => w.setLow (BitVec.ofInt 32 x)

namespace Deserializer

variable {dtl : Dtl}

/-- The types that a check converts to -/
def IsChecked (type : LeafCode) : Prop := type = .uint32 ∨ type = .int32 ∨ type = .int64

theorem isChecked_checkedAs (code : LeafCode) (isArray : Bool) : IsChecked (code.checkedAs isArray) := by
  cases code <;> cases isArray <;> simp [IsChecked, LeafCode.checkedAs]

theorem word_word {type : LeafCode} (w : ScalarWord) (x y : Int) : type.word (type.word w x) y = type.word w y := by
  cases type <;> simp [LeafCode.word]

/-- A number is converted when it is one of the type. -/
theorem settles_load (exact_ : dtl.Exact) {type : LeafCode} (checked : IsChecked type) {sv : Sv} {x : Int}
    (number : sv.int? = some x) (slot : ScalarSlot) :
    (slot.load dtl sv type.typeCode).Settles (type.InRange x)
      ⟨type.word slot.value x, ScalarSlot.storageOf type.typeCode⟩ := by
  have store {value value' : ScalarWord} {ok : Bool} {fits : Prop} (tag : ScalarStorageType) (flag : ok = true ↔ fits)
      (same : ok = true → value = value') :
      (if ok then .ok () ⟨value, tag⟩ else .fail (.code .valueConversion) { slot with value := value } :
        Result ScalarSlot Unit).Settles fits ⟨value', tag⟩ := by
    constructor
    · intro holds
      have yes := flag.mpr holds
      rw [if_pos yes, same yes]
    · intro not
      exact ⟨_, _, if_neg fun yes => not (flag.mp yes)⟩
  rcases checked with rfl | rfl | rfl
  · obtain ⟨flag, value⟩ := exact_.toU32 sv x number
    refine store _ (flag.trans ?_) fun yes => ?_
    · simp only [LeafCode.InRange, LeafCode.lower, LeafCode.upper]
      omega
    · rw [LeafCode.word, ← value yes, BitVec.ofInt_natCast, BitVec.ofNat_toNat, BitVec.setWidth_eq]
      exact LeafCode.noConfusion
  · obtain ⟨flag, value⟩ := exact_.toI32 sv x number
    refine store _ (flag.trans ?_) fun yes => ?_
    · simp only [LeafCode.InRange, LeafCode.lower, LeafCode.upper]
      omega
    · rw [LeafCode.word, ← value yes, BitVec.ofInt_toInt]
      exact LeafCode.noConfusion
  · obtain ⟨flag, value⟩ := exact_.toI64 sv x number
    refine store _ (flag.trans ?_) fun yes => ?_
    · simp only [LeafCode.InRange, LeafCode.lower, LeafCode.upper]
      omega
    · rw [LeafCode.word, ← value yes, BitVec.ofInt_toInt]

/-- A call that leaves the value under a condition, and fails without it -/
structure Tests (r : Result Deserializer Unit) (condition : Prop) (d : Deserializer) : Prop where
  ok : condition → ∃ d', r = .ok () d' ∧ d'.state.value = d.state.value
  fail : ¬condition → ∃ failure d', r = .fail failure d'

theorem Tests.iff {r : Result Deserializer Unit} {condition condition' : Prop} {d : Deserializer}
    (tests : Tests r condition d) (same : condition ↔ condition') : Tests r condition' d :=
  ⟨fun holds => tests.ok (same.mpr holds), fun not => tests.fail fun holds => not (same.mp holds)⟩

/-- What one number has to meet in a check -/
def Passes (type : LeafCode) (test : ScalarWord → Bool) (w : ScalarWord) (x : Int) : Prop :=
  type.InRange x ∧ test (type.word w x) = true

theorem tests_scalar (exact_ : dtl.Exact) {type : LeafCode} (checked : IsChecked type) (elementCode : TypeCode)
    (test : ScalarWord → Bool) {d : Deserializer} {sv : Sv} (value : d.state.value = .scalar sv) {x : Int}
    (number : sv.int? = some x) :
    Tests (checkValueRange dtl type.typeCode elementCode test d) (Passes type test d.state.scalar.value x) d := by
  have loads := (settles_load exact_ checked number d.state.scalar).lift fun scalar => { d.state with scalar := scalar }
  rw [checkValueRange, value]
  simp only [ReadState.storeScalarValue]
  by_cases inRange : type.InRange x
  · rw [loads.ok inRange]
    by_cases passes : test (type.word d.state.scalar.value x) = true
    · simp only [if_pos passes]
      exact ⟨fun _ => ⟨_, rfl, rfl⟩, fun not => absurd ⟨inRange, passes⟩ not⟩
    · simp only [if_neg passes]
      exact ⟨fun both => absurd both.2 passes, fun _ => ⟨_, _, rfl⟩⟩
  · obtain ⟨failure, st, failed⟩ := loads.fail inRange
    rw [failed]
    exact ⟨fun both => absurd both.1 inRange, fun _ => ⟨_, _, rfl⟩⟩

theorem tests_elements (exact_ : dtl.Exact) {type : LeafCode} (checked : IsChecked type) (test : ScalarWord → Bool)
    {code : LeafCode} (isInteger : code.isInteger = true) {av : List Dv} {xs : List Int}
    (numbers : Serializer.Numbers code av xs) (st : ReadState) :
    ((∀ x ∈ xs, Passes type test st.scalar.value x) →
      ∃ st', checkElements dtl type.typeCode test st av = .ok () st' ∧ st'.value = st.value) ∧
    ((¬∀ x ∈ xs, Passes type test st.scalar.value x) →
      ∃ failure st', checkElements dtl type.typeCode test st av = .fail failure st') := by
  induction numbers generalizing st with
  | nil => exact ⟨fun _ => ⟨st, rfl, rfl⟩, fun not => absurd (fun x mem => absurd mem List.not_mem_nil) not⟩
  | @cons dv x av xs stands _ ih =>
    obtain ⟨sv, rfl, number⟩ := stands
    rw [LeafCode.number_integer isInteger] at number
    have loads := (settles_load exact_ checked number st.scalar).lift fun scalar => { st with scalar := scalar }
    simp only [List.forall_mem_cons, checkElements, ReadState.storeScalarElement, ReadState.storeScalarValue]
    by_cases inRange : type.InRange x
    · rw [loads.ok inRange]
      by_cases passes : test (type.word st.scalar.value x) = true
      · have rest := ih { st with scalar := ⟨type.word st.scalar.value x, ScalarSlot.storageOf type.typeCode⟩ }
        simp only [Passes, word_word] at rest
        simp only [if_pos passes]
        exact ⟨fun both => rest.1 both.2, fun not => rest.2 fun all => not ⟨⟨inRange, passes⟩, all⟩⟩
      · simp only [if_neg passes]
        exact ⟨fun both => absurd both.1.2 passes, fun _ => ⟨_, _, rfl⟩⟩
    · obtain ⟨failure, st', failed⟩ := loads.fail inRange
      rw [failed]
      exact ⟨fun both => absurd both.1.1 inRange, fun _ => ⟨_, _, rfl⟩⟩

theorem tests_array (exact_ : dtl.Exact) {type : LeafCode} (checked : IsChecked type) (scalarCode : TypeCode)
    (test : ScalarWord → Bool) {d : Deserializer} {av : List Dv} (value : d.state.value = .array av) {code : LeafCode}
    (isInteger : code.isInteger = true) {xs : List Int} (numbers : Serializer.Numbers code av xs) :
    Tests (checkValueRange dtl scalarCode type.typeCode test d) (∀ x ∈ xs, Passes type test d.state.scalar.value x)
      d := by
  have elements := tests_elements exact_ checked test isInteger numbers { d.state with rangeCheckState := .ok }
  rw [checkValueRange, value]
  constructor
  · intro all
    obtain ⟨st', checked, same⟩ := elements.1 all
    exact ⟨{ d with state := st' }, by simp only [checked, Result.lift_ok], same⟩
  · intro not
    obtain ⟨failure, st', failed⟩ := elements.2 not
    exact ⟨failure, { d with state := st' }, by simp only [failed, Result.lift_fail]⟩

end Deserializer

end Apx
