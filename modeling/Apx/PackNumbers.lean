import Apx.Numbers
import Apx.PackElement

/-! Packing numbers: when it succeeds, and which bytes it writes. -/

namespace Apx

open LittleEndian Vm

namespace Limits

/-- The lower limit as the check of the type reads it -/
def low (limits : Limits) (code : LeafCode) : Int :=
  match code with
  | .int8 | .int16 | .int32 => (DataElement.limitsInt32 limits).1.toInt
  | .int64 => (DataElement.limitsInt64 limits).1.toInt
  | .uint64 => (DataElement.limitsUInt64 limits).1.toNat
  | _ => (DataElement.limitsUInt32 limits).1.toNat

/-- The upper limit as the check of the type reads it -/
def high (limits : Limits) (code : LeafCode) : Int :=
  match code with
  | .int8 | .int16 | .int32 => (DataElement.limitsInt32 limits).2.toInt
  | .int64 => (DataElement.limitsInt64 limits).2.toInt
  | .uint64 => (DataElement.limitsUInt64 limits).2.toNat
  | _ => (DataElement.limitsUInt32 limits).2.toNat

/-- The number lies between the limits. -/
def Admit (limits : Limits) (code : LeafCode) (x : Int) : Prop :=
  limits.low code ≤ x ∧ x ≤ limits.high code

instance (limits : Limits) (code : LeafCode) (x : Int) : Decidable (limits.Admit code x) :=
  inferInstanceAs (Decidable (_ ∧ _))

/-- Limits that are numbers of a type allow numbers of the type only. -/
theorem Admit.inRange {limits : Limits} {code : LeafCode} {x : Int} (isInteger : code.isInteger = true)
    (fit : limits.Fit code) (admits : limits.Admit code x) : code.InRange x := by
  obtain ⟨atLeast, atMost⟩ := admits
  cases code with
  | none | char | char8 | char16 | char32 | bool | byte => contradiction
  | uint32 | uint64 =>
    simp only [low, high, LeafCode.InRange, LeafCode.lower, LeafCode.upper] at atLeast atMost ⊢
    omega
  | int32 =>
    have bound := BitVec.toInt_lt (x := (DataElement.limitsInt32 limits).2)
    have bound' := BitVec.le_toInt (x := (DataElement.limitsInt32 limits).1)
    simp only [low, high, LeafCode.InRange, LeafCode.lower, LeafCode.upper] at atLeast atMost ⊢
    omega
  | int64 =>
    have bound := BitVec.toInt_lt (x := (DataElement.limitsInt64 limits).2)
    have bound' := BitVec.le_toInt (x := (DataElement.limitsInt64 limits).1)
    simp only [low, high, LeafCode.InRange, LeafCode.lower, LeafCode.upper] at atLeast atMost ⊢
    omega
  | uint8 | uint16 | int8 | int16 =>
    simp only [Fit] at fit
    simp only [low, high, LeafCode.InRange, LeafCode.lower, LeafCode.upper] at atLeast atMost ⊢
    omega

end Limits

/-- The numbers that an element accepts: those between its limits, else all of its type -/
def Accepts (code : LeafCode) (limits : Option Limits) (x : Int) : Prop :=
  match limits with
  | none => code.InRange x
  | some limits => limits.Admit code x

/-- Limits that the compiler accepts and that are numbers of their type -/
def LimitsOf (code : LeafCode) (limits : Option Limits) : Prop :=
  ∀ l ∈ limits, code.isInteger = true ∧ l.Fit code

namespace WriteBuffer

/-- Where the next instruction writes -/
def cursor (b : WriteBuffer) : Nat := b.paddedNext.getD b.next

/-- The next instruction finds its place inside the buffer. -/
structure Ready (b : WriteBuffer) : Prop where
  nonempty : 0 < b.bytes.length
  inside : b.next ≤ b.bytes.length
  padded : b.cursor ≤ b.bytes.length

def flushed (b : WriteBuffer) : WriteBuffer := { b with next := b.cursor, paddedNext := none }

theorem flush_ready {b : WriteBuffer} (ready : b.Ready) : b.flush = .ok () b.flushed := by
  obtain ⟨nonempty, inside, padded⟩ := ready
  have valid : b.isValid = true := by simp [isValid, nonempty, inside]
  unfold flush
  rw [if_neg (by simp [valid])]
  unfold flushed cursor at *
  split
  next position same =>
    rw [same, Option.getD_some] at padded
    rw [if_neg (by omega), same, Option.getD_some]
  next same => rw [same, Option.getD_none, ← same]

theorem write_write {b : WriteBuffer} (first second : Bytes) (inside : b.next ≤ b.bytes.length) :
    (b.write first).write second = b.write (first ++ second) := by
  simp only [write, splice_splice first second inside, List.length_append, Nat.add_assoc]

end WriteBuffer

namespace WriteState

theorem settles_defaultRangeCheckScalar {st : WriteState} {code : LeafCode} {x : Int}
    (isNumber : code.isNumber = true) (type : st.typeCode = code.typeCode)
    (holds : st.scalar.Holds code x) (stored : code.stored.InRange x) :
    st.defaultRangeCheckScalar.Settles (code.InRange x) st := by
  obtain ⟨storage, number⟩ := holds
  have check {expected : ScalarStorageType} {inRange : Bool} {condition : Prop}
      (active : st.scalar.storageType = expected) (same : inRange = true ↔ condition) :
      (if st.scalar.storageType = expected then
        if inRange then .ok () st else .fail (.code .valueRange) st
      else .fail (.code .valueType) st : Result WriteState Unit).Settles condition st := by
    rw [if_pos active]
    exact (Result.Settles.test _ _ _ _).iff same
  rw [defaultRangeCheckScalar, type]
  cases code with
  | none | char | char8 | char16 | char32 | byte => contradiction
  | bool => exact (Result.Settles.done st).iff ⟨fun _ => stored, fun _ => trivial⟩
  | uint8 | uint16 | uint32 =>
    have tag : st.scalar.storageType = .uint32 := storage
    simp only [ScalarSlot.number, tag] at number
    refine check tag ?_
    rw [valueInRangeU32_iff]
    have zero : BitVec.toNat (0 : BitVec 32) = 0 := rfl
    have top8 : BitVec.toNat (255 : BitVec 32) = 255 := rfl
    have top16 : BitVec.toNat (65535 : BitVec 32) = 65535 := rfl
    have top32 : BitVec.toNat (4294967295 : BitVec 32) = 4294967295 := rfl
    simp only [LeafCode.InRange, LeafCode.lower, LeafCode.upper, ← number]
    omega
  | int8 | int16 | int32 =>
    have tag : st.scalar.storageType = .int32 := storage
    simp only [ScalarSlot.number, tag] at number
    refine check tag ?_
    rw [valueInRangeI32_iff]
    simp only [LeafCode.InRange, LeafCode.lower, LeafCode.upper, ← number]
    exact Iff.rfl
  | uint64 =>
    have tag : st.scalar.storageType = .uint64 := storage
    simp only [ScalarSlot.number, tag] at number
    refine check tag ?_
    rw [valueInRangeU64_iff]
    have zero : BitVec.toNat (0 : BitVec 64) = 0 := rfl
    have top : BitVec.toNat (18446744073709551615 : BitVec 64) = 18446744073709551615 := rfl
    simp only [LeafCode.InRange, LeafCode.lower, LeafCode.upper, ← number]
    omega
  | int64 =>
    have tag : st.scalar.storageType = .int64 := storage
    simp only [ScalarSlot.number, tag] at number
    refine check tag ?_
    rw [valueInRangeI64_iff]
    simp only [LeafCode.InRange, LeafCode.lower, LeafCode.upper, ← number]
    exact Iff.rfl

end WriteState

namespace Serializer

/-- Writing a number that was loaded by its own type, or by the type it is converted to -/
theorem settles_packScalarValueInternal {s : Serializer} {code : LeafCode} {x : Int}
    (isNumber : code.isNumber = true) (type : s.state.typeCode = code.typeCode)
    (size : s.state.elementSize = code.size) (holds : s.state.scalar.Holds code x)
    (inRange : code.InRange x) :
    s.packScalarValueInternal.Settles (s.buffer.next + code.size ≤ s.buffer.bytes.length)
      { s with buffer := s.buffer.write (code.encode x) } := by
  obtain ⟨storage, number⟩ := holds
  have put {tag : ScalarStorageType} {value width : Nat} (active : s.state.scalar.storageType = tag)
      (same : code.size = width) (bytes : packLE value width = code.encode x) :
      (if s.state.scalar.storageType = tag ∧ code.size = width then
        .ok () { s with buffer := s.buffer.write (packLE value width) }
      else .fail .assertion s : Result Serializer Unit) =
        .ok () { s with buffer := s.buffer.write (code.encode x) } := by
    rw [if_pos ⟨active, same⟩, bytes]
  have room : ∀ {r : Result Serializer Unit},
      r = .ok () { s with buffer := s.buffer.write (code.encode x) } →
      (if s.buffer.next + code.size ≤ s.buffer.bytes.length then r
        else .fail (.code .bufferBoundary) s).Settles
          (s.buffer.next + code.size ≤ s.buffer.bytes.length)
          { s with buffer := s.buffer.write (code.encode x) } := by
    intro r same
    rw [same]
    exact Result.Settles.test _ _ _ _
  rw [packScalarValueInternal, size]
  apply room
  rw [type]
  cases code with
  | none | char | char8 | char16 | char32 | byte => contradiction
  | uint8 | uint16 | uint32 =>
    have tag : s.state.scalar.storageType = .uint32 := storage
    simp only [ScalarSlot.number, tag] at number
    refine put tag rfl (packLE_congr ?_)
    omega
  | int8 | int16 | int32 =>
    have tag : s.state.scalar.storageType = .int32 := storage
    simp only [ScalarSlot.number, tag, BitVec.toInt_eq_toNat_cond] at number
    refine put tag rfl (packLE_congr ?_)
    omega
  | uint64 =>
    have tag : s.state.scalar.storageType = .uint64 := storage
    simp only [ScalarSlot.number, tag] at number
    refine put tag rfl (packLE_congr ?_)
    omega
  | int64 =>
    have tag : s.state.scalar.storageType = .int64 := storage
    simp only [ScalarSlot.number, tag, BitVec.toInt_eq_toNat_cond] at number
    refine put tag rfl (packLE_congr ?_)
    omega
  | bool =>
    have tag : s.state.scalar.storageType = .bool := storage
    simp only [ScalarSlot.number, tag] at number
    simp only [LeafCode.InRange, LeafCode.lower, LeafCode.upper] at inRange
    refine put tag rfl (packLE_congr ?_)
    split <;> omega

/-- A single number. `known` says what a check before has left to do. -/
theorem settles_packScalarValue {dtl : Dtl} (exact_ : dtl.Exact) {code : LeafCode}
    (isNumber : code.isNumber = true) {sv : Sv} {x : Int} (stands : code.number sv = some x)
    {s : Serializer} (value : s.state.value = .scalar sv) (type : s.state.typeCode = code.typeCode)
    (size : s.state.elementSize = code.size)
    (known : s.state.rangeCheckState = .notChecked ∨
      s.state.rangeCheckState = .ok ∧ s.state.scalar.Holds code x ∧ code.InRange x) :
    ∃ slot, (s.packScalarValue dtl).Settles
      (code.InRange x ∧ s.buffer.next + code.size ≤ s.buffer.bytes.length)
      { s with state := { s.state with scalar := slot },
               buffer := s.buffer.write (code.encode x) } := by
  have wrote (slot : ScalarSlot) (holds : code.InRange x → slot.Holds code x) (inRange : code.InRange x) :=
    @settles_packScalarValueInternal { s with state := { s.state with scalar := slot } } code x isNumber type size
      (holds inRange) inRange
  rcases known with unknown | ⟨checked, holds, inRange⟩
  · -- the check is left to do
    obtain ⟨slot, load, holds⟩ := ScalarSlot.load_number exact_ isNumber stands s.state.scalar
    have read : (s.state.readScalarValue dtl s.state.typeCode).Settles (code.stored.InRange x)
        { s.state with scalar := slot } := by
      rw [WriteState.readScalarValue, value, type]
      exact load.lift fun slot => ({ s.state with scalar := slot } : WriteState)
    have range := read.bind (f := fun _ st => st.defaultRangeCheckScalar) fun stored =>
      @WriteState.settles_defaultRangeCheckScalar { s.state with scalar := slot } code x isNumber type
        (holds stored) stored
    have whole : s.state.defaultRangeCheckValue dtl =
        (s.state.readScalarValue dtl s.state.typeCode).bind fun _ st => st.defaultRangeCheckScalar := by
      rw [WriteState.defaultRangeCheckValue, value]
    have check : (s.onState (WriteState.defaultRangeCheckValue dtl)).Settles (code.InRange x)
        { s with state := { s.state with scalar := slot } } := by
      simp only [onState, whole]
      exact (range.lift _).iff ⟨And.right, fun inRange => ⟨LeafCode.inRange_stored inRange, inRange⟩⟩
    have unfolded : s.packScalarValue dtl =
        (s.onState (WriteState.defaultRangeCheckValue dtl)).bind fun _ s => packScalarValueInternal s := by
      rw [packScalarValue, value]
      simp only [unknown]
    have packs := wrote slot fun inRange => holds (LeafCode.inRange_stored inRange)
    rw [unfolded]
    exact ⟨slot, check.bind packs⟩
  · have unfolded : s.packScalarValue dtl = (Result.ok () s).bind fun _ s => packScalarValueInternal s := by
      rw [packScalarValue, value]
      simp only [checked]
    have packs := wrote s.state.scalar (fun _ => holds)
    have check : (Result.ok () s : Result Serializer Unit).Settles (code.InRange x)
        { s with state := { s.state with scalar := s.state.scalar } } :=
      (Result.Settles.done _).iff ⟨fun _ => inRange, fun _ => trivial⟩
    rw [unfolded]
    exact ⟨s.state.scalar, check.bind packs⟩

/-- The limit check of an integer type loads its numbers and compares them. -/
theorem limitCheck_eq {code : LeafCode} (isInteger : code.isInteger = true) (limits : Limits) :
    ∃ op test, limitCheck code limits = [op] ∧
      (∀ dtl s, (packEngine dtl).execute op s = s.checkValueRange dtl code.stored.typeCode test) ∧
      ∀ (slot : ScalarSlot) (x : Int), slot.Holds code x →
        (test slot.value = true ↔ limits.Admit code x) := by
  cases code with
  | none | char | char8 | char16 | char32 | bool | byte => contradiction
  | uint8 | uint16 | uint32 =>
    refine ⟨_, fun w => valueInRangeU32 w.low _ _, rfl, fun _ _ => rfl, ?_⟩
    rintro slot x ⟨storage, number⟩
    have tag : slot.storageType = .uint32 := storage
    simp only [ScalarSlot.number, tag] at number
    simp only [valueInRangeU32_iff, Limits.Admit, Limits.low, Limits.high, ← number]
    omega
  | int8 | int16 | int32 =>
    refine ⟨_, fun w => valueInRangeI32 w.low _ _, rfl, fun _ _ => rfl, ?_⟩
    rintro slot x ⟨storage, number⟩
    have tag : slot.storageType = .int32 := storage
    simp only [ScalarSlot.number, tag] at number
    simp only [valueInRangeI32_iff, Limits.Admit, Limits.low, Limits.high, ← number]
  | uint64 =>
    refine ⟨_, fun w => valueInRangeU64 w _ _, rfl, fun _ _ => rfl, ?_⟩
    rintro slot x ⟨storage, number⟩
    have tag : slot.storageType = .uint64 := storage
    simp only [ScalarSlot.number, tag] at number
    simp only [valueInRangeU64_iff, Limits.Admit, Limits.low, Limits.high, ← number]
    omega
  | int64 =>
    refine ⟨_, fun w => valueInRangeI64 w _ _, rfl, fun _ _ => rfl, ?_⟩
    rintro slot x ⟨storage, number⟩
    have tag : slot.storageType = .int64 := storage
    simp only [ScalarSlot.number, tag] at number
    simp only [valueInRangeI64_iff, Limits.Admit, Limits.low, Limits.high, ← number]

/-- A number is loaded in the same way by its type and by the type it is converted to. -/
theorem load_stored {dtl : Dtl} (exact_ : dtl.Exact) {code : LeafCode}
    (isNumber : code.isNumber = true) {sv : Sv} {x : Int} (stands : code.number sv = some x)
    (slot : ScalarSlot) :
    ∃ slot', (slot.load dtl sv code.stored.typeCode).Settles (code.stored.InRange x) slot' ∧
      (code.stored.InRange x → slot'.Holds code x) := by
  have same : slot.load dtl sv code.stored.typeCode = slot.load dtl sv code.typeCode := by
    cases code <;> rfl
  rw [same]
  exact ScalarSlot.load_number exact_ isNumber stands slot

/-- The scalars of an array stand for these numbers. -/
def Numbers (code : LeafCode) (av : List Dv) (xs : List Int) : Prop :=
  List.Forall₂ (fun dv x => ∃ sv, dv = .scalar sv ∧ code.number sv = some x) av xs

theorem settles_readScalarElement {dtl : Dtl} {st : WriteState} {sv : Sv} {typeCode : TypeCode}
    {condition : Prop} {slot : ScalarSlot} (load : (st.scalar.load dtl sv typeCode).Settles condition slot) :
    (st.readScalarElement dtl (.scalar sv) typeCode).Settles condition { st with scalar := slot } :=
  load.lift fun slot => ({ st with scalar := slot } : WriteState)

theorem settles_checkElements {dtl : Dtl} (exact_ : dtl.Exact) {code : LeafCode}
    (isNumber : code.isNumber = true) {admits : Int → Prop} {test : ScalarWord → Bool}
    (tests : ∀ (slot : ScalarSlot) (x : Int), slot.Holds code x → (test slot.value = true ↔ admits x))
    {av : List Dv} {xs : List Int} (numbers : Numbers code av xs) (st : WriteState) :
    ∃ slot, (checkElements dtl code.stored.typeCode test st av).Settles
      (∀ x ∈ xs, code.stored.InRange x ∧ admits x) { st with scalar := slot } := by
  induction numbers generalizing st with
  | nil => exact ⟨st.scalar, (Result.Settles.done st).iff (by simp)⟩
  | @cons dv x av xs stands _ ih =>
    obtain ⟨sv, rfl, number⟩ := stands
    obtain ⟨slot, load, holds⟩ := load_stored exact_ isNumber number st.scalar
    obtain ⟨slot', rest⟩ := ih { st with scalar := slot }
    have read := settles_readScalarElement load
    refine ⟨slot', ?_⟩
    rw [checkElements]
    by_cases inRange : code.stored.InRange x
    · rw [read.ok inRange]
      simp only
      by_cases accepted : admits x
      · rw [if_pos ((tests slot x (holds inRange)).mpr accepted)]
        exact rest.iff (by simp [inRange, accepted])
      · rw [if_neg fun yes => accepted ((tests slot x (holds inRange)).mp yes)]
        exact (Result.Settles.never _ _ _).iff (by simp [accepted])
    · obtain ⟨failure, st', failed⟩ := read.fail inRange
      rw [failed]
      exact (Result.Settles.never _ _ _).iff (by simp [inRange])

/-- The default check of the elements of an array whose numbers can all be loaded -/
theorem settles_defaultRangeCheckElements {dtl : Dtl} (exact_ : dtl.Exact) {code : LeafCode}
    (isNumber : code.isNumber = true) {av : List Dv} {xs : List Int} (numbers : Numbers code av xs)
    (stored : ∀ x ∈ xs, code.stored.InRange x) {st : WriteState} (type : st.typeCode = code.typeCode) :
    ∃ slot, (st.defaultRangeCheckElements dtl (.ok () st) av).Settles (∀ x ∈ xs, code.InRange x)
      { st with scalar := slot } := by
  induction numbers generalizing st with
  | nil => exact ⟨st.scalar, (Result.Settles.done st).iff (by simp)⟩
  | @cons dv x av xs stands _ ih =>
    obtain ⟨sv, rfl, number⟩ := stands
    obtain ⟨storedFirst, storedRest⟩ := List.forall_mem_cons.mp stored
    obtain ⟨slot, load, holds⟩ := ScalarSlot.load_number exact_ isNumber number st.scalar
    obtain ⟨slot', rest⟩ := @ih storedRest { st with scalar := slot } type
    have check := @WriteState.settles_defaultRangeCheckScalar { st with scalar := slot } code x isNumber
      type (holds storedFirst) storedFirst
    refine ⟨slot', ?_⟩
    rw [← type] at load
    rw [WriteState.defaultRangeCheckElements, (settles_readScalarElement load).ok storedFirst]
    simp only
    by_cases inRange : code.InRange x
    · rw [check.ok inRange]
      exact rest.iff (by simp [inRange])
    · obtain ⟨failure, st', failed⟩ := check.fail inRange
      rw [failed]
      exact (Result.Settles.never _ _ _).iff (by simp [inRange])

theorem packElements_failed {dtl : Dtl} (exact_ : dtl.Exact) {code : LeafCode}
    (isNumber : code.isNumber = true) {av : List Dv} {xs : List Int} (numbers : Numbers code av xs)
    (notStored : ¬∀ x ∈ xs, code.stored.InRange x) {s : Serializer}
    (type : s.state.typeCode = code.typeCode) :
    ∃ failure t, s.packElements dtl av = .fail failure t := by
  induction numbers generalizing s with
  | nil => simp at notStored
  | @cons dv x av xs stands _ ih =>
    obtain ⟨sv, rfl, number⟩ := stands
    obtain ⟨slot, load, holds⟩ := ScalarSlot.load_number exact_ isNumber number s.state.scalar
    rw [← type] at load
    have read := (settles_readScalarElement load).lift fun st => ({ s with state := st } : Serializer)
    rw [packElements]
    by_cases stored : code.stored.InRange x
    · have restNot : ¬∀ x ∈ xs, code.stored.InRange x := by simpa [stored] using notStored
      rw [onState, read.ok stored, Result.bind_ok]
      cases wrote : packScalarValueInternal { s with state := { s.state with scalar := slot } } with
      | fail failure t => exact ⟨failure, t, rfl⟩
      | ok _ t =>
        obtain ⟨_, _, writes⟩ := writes_packScalarValueInternal wrote
        obtain ⟨_, _, state⟩ := writes.shape
        exact ih restNot (by rw [state]; exact type)
    · obtain ⟨failure, t, failed⟩ := read.fail stored
      exact ⟨failure, t, by rw [onState, failed, Result.bind_fail]⟩

def encodeAll (code : LeafCode) (xs : List Int) : Bytes := (xs.map code.encode).flatten

@[simp] theorem encodeAll_length (code : LeafCode) (xs : List Int) :
    (encodeAll code xs).length = code.size * xs.length := by
  induction xs with
  | nil => rfl
  | cons x xs ih =>
    rw [encodeAll, List.map_cons, List.flatten_cons, List.length_append, LeafCode.encode_length]
    rw [encodeAll] at ih
    rw [ih, List.length_cons, Nat.mul_succ, Nat.add_comm]

/-- Elements in the range of their type are packed when there is room for them. -/
theorem settles_packElements {dtl : Dtl} (exact_ : dtl.Exact) {code : LeafCode}
    (isNumber : code.isNumber = true) {av : List Dv} {xs : List Int} (numbers : Numbers code av xs)
    (inRange : ∀ x ∈ xs, code.InRange x) {s : Serializer} (type : s.state.typeCode = code.typeCode)
    (size : s.state.elementSize = code.size) (inside : s.buffer.next ≤ s.buffer.bytes.length) :
    ∃ slot, (s.packElements dtl av).Settles
      (s.buffer.next + code.size * xs.length ≤ s.buffer.bytes.length)
      { s with state := { s.state with scalar := slot },
               buffer := s.buffer.write (encodeAll code xs) } := by
  induction numbers generalizing s with
  | nil =>
    have same : s.buffer.write (encodeAll code []) = s.buffer := by
      simp [encodeAll, WriteBuffer.write]
    rw [same]
    exact ⟨s.state.scalar, (Result.Settles.done s).iff (by simpa using inside)⟩
  | @cons dv x av xs stands _ ih =>
    obtain ⟨sv, rfl, number⟩ := stands
    obtain ⟨inRangeFirst, inRangeRest⟩ := List.forall_mem_cons.mp inRange
    obtain ⟨slot, load, holds⟩ := ScalarSlot.load_number exact_ isNumber number s.state.scalar
    have stored := LeafCode.inRange_stored inRangeFirst
    rw [← type] at load
    have read := (settles_readScalarElement load).lift fun st => ({ s with state := st } : Serializer)
    have wrote := @settles_packScalarValueInternal { s with state := { s.state with scalar := slot } }
      code x isNumber type size (holds stored) inRangeFirst
    rw [packElements, onState, read.ok stored, Result.bind_ok]
    by_cases room : s.buffer.next + code.size ≤ s.buffer.bytes.length
    · have length : (s.buffer.write (code.encode x)).bytes.length = s.buffer.bytes.length :=
        splice_length (by rw [code.encode_length]; exact room)
      have next : (s.buffer.write (code.encode x)).next = s.buffer.next + code.size := by
        rw [WriteBuffer.write, code.encode_length]
      obtain ⟨slot', rest⟩ := @ih inRangeRest
        { s with state := { s.state with scalar := slot }, buffer := s.buffer.write (code.encode x) }
        type size (by rw [length, next]; exact room)
      simp only [length, next, WriteBuffer.write_write _ _ inside] at rest
      rw [wrote.ok room, Result.bind_ok]
      refine ⟨slot', rest.iff ?_⟩
      rw [List.length_cons, Nat.mul_succ]
      omega
    · obtain ⟨failure, t, failed⟩ := wrote.fail room
      rw [failed]
      refine ⟨slot, (Result.Settles.never _ _ _).iff ?_⟩
      simp only [List.length_cons, false_iff, Nat.mul_succ]
      omega

end Serializer

end Apx
