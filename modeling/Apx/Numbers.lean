import Apx.ScalarSlot
import Apx.Denotation

/-! The numbers of the scalar types: how they are loaded from a value, checked and written. A bool
counts as zero or one. -/

namespace Apx

open LittleEndian Vm

/-- The bytes that one number is written to depend on it modulo the range of its width. -/
theorem packLE_congr {a b size : Nat} (same : a % 256 ^ size = b % 256 ^ size) :
    packLE a size = packLE b size := by
  rw [← packLE_mod a, ← packLE_mod b, same]

namespace LeafCode

/-- The types whose values are numbers -/
def isNumber : LeafCode → Bool
  | .uint8 | .uint16 | .uint32 | .uint64 | .int8 | .int16 | .int32 | .int64 | .bool => true
  | _ => false

/-- The integer types -/
def isInteger : LeafCode → Bool
  | .uint8 | .uint16 | .uint32 | .uint64 | .int8 | .int16 | .int32 | .int64 => true
  | _ => false

def lower : LeafCode → Int
  | .int8 => -2 ^ 7
  | .int16 => -2 ^ 15
  | .int32 => -2 ^ 31
  | .int64 => -2 ^ 63
  | _ => 0

def upper : LeafCode → Int
  | .uint8 => 2 ^ 8 - 1
  | .uint16 => 2 ^ 16 - 1
  | .uint32 => 2 ^ 32 - 1
  | .uint64 => 2 ^ 64 - 1
  | .int8 => 2 ^ 7 - 1
  | .int16 => 2 ^ 15 - 1
  | .int32 => 2 ^ 31 - 1
  | .int64 => 2 ^ 63 - 1
  | .bool => 1
  | _ => 0

/-- The type that the values of a type are converted to -/
def stored : LeafCode → LeafCode
  | .uint8 | .uint16 => .uint32
  | .int8 | .int16 => .int32
  | code => code

/-- The number is one of the type. -/
def InRange (code : LeafCode) (x : Int) : Prop := code.lower ≤ x ∧ x ≤ code.upper

instance (code : LeafCode) (x : Int) : Decidable (code.InRange x) :=
  inferInstanceAs (Decidable (_ ∧ _))

/-- The number that a scalar value of the type stands for -/
def number (code : LeafCode) (sv : Sv) : Option Int :=
  match code, sv with
  | .bool, .bool b => some (if b then 1 else 0)
  | .bool, _ => Option.none
  | _, sv => sv.int?

def encode (code : LeafCode) (x : Int) : Bytes := packLE (x % 2 ^ 64).toNat code.size

theorem encode_length (code : LeafCode) (x : Int) : (code.encode x).length = code.size :=
  packLE_length _ _

theorem inRange_stored {code : LeafCode} {x : Int} (inRange : code.InRange x) :
    code.stored.InRange x := by
  obtain ⟨low, high⟩ := inRange
  cases code <;> simp only [InRange, stored, lower, upper] at low high ⊢ <;> omega

end LeafCode

namespace ScalarSlot

def number (slot : ScalarSlot) : Int :=
  match slot.storageType with
  | .int32 => slot.value.low.toInt
  | .uint32 => slot.value.low.toNat
  | .int64 => slot.value.toInt
  | _ => slot.value.toNat

structure Holds (slot : ScalarSlot) (code : LeafCode) (x : Int) : Prop where
  storageType : slot.storageType = storageOf code.typeCode
  number : slot.number = x

theorem number_setLow_u32 (w : ScalarWord) (value : BitVec 32) :
    number ⟨w.setLow value, .uint32⟩ = value.toNat := by
  simp only [number, ScalarWord.low_setLow]

theorem number_setLow_i32 (w : ScalarWord) (value : BitVec 32) :
    number ⟨w.setLow value, .int32⟩ = value.toInt := by
  simp only [number, ScalarWord.low_setLow]

/-- Loading a number succeeds exactly when it is one of the type that it is converted to. -/
theorem load_number {dtl : Dtl} (exact_ : dtl.Exact) {code : LeafCode} (isNumber : code.isNumber = true)
    {sv : Sv} {x : Int} (stands : code.number sv = some x) (slot : ScalarSlot) :
    ∃ slot', (slot.load dtl sv code.typeCode).Settles (code.stored.InRange x) slot' ∧
      (code.stored.InRange x → slot'.Holds code x) := by
  -- a conversion with its flag, whatever the type
  have store {value : ScalarWord} {ok : Bool} {tag : ScalarStorageType} {fits : Prop}
      (flag : ok = true ↔ fits) (same : tag = storageOf code.typeCode)
      (converts : ok = true → number ⟨value, tag⟩ = x) :
      ∃ slot', (if ok then .ok () ⟨value, tag⟩
        else .fail (.code .valueConversion) { slot with value := value } :
          Result ScalarSlot Unit).Settles fits slot' ∧ (fits → slot'.Holds code x) :=
    ⟨⟨value, tag⟩, (Result.Settles.test (ok = true) _ _ _).iff flag,
      fun holds => ⟨same, converts (flag.mpr holds)⟩⟩
  cases code with
  | none | char | char8 | char16 | char32 | byte => contradiction
  | uint8 | uint16 | uint32 =>
    obtain ⟨flag, value⟩ := exact_.toU32 sv x stands
    refine store (flag.trans ?_) rfl fun ok => ?_
    · simp only [LeafCode.InRange, LeafCode.stored, LeafCode.lower, LeafCode.upper]
      omega
    · rw [number_setLow_u32]
      exact value ok
  | int8 | int16 | int32 =>
    obtain ⟨flag, value⟩ := exact_.toI32 sv x stands
    refine store (flag.trans ?_) rfl fun ok => ?_
    · simp only [LeafCode.InRange, LeafCode.stored, LeafCode.lower, LeafCode.upper]
      omega
    · rw [number_setLow_i32]
      exact value ok
  | uint64 =>
    obtain ⟨flag, value⟩ := exact_.toU64 sv x stands
    refine store (flag.trans ?_) rfl value
    simp only [LeafCode.InRange, LeafCode.stored, LeafCode.lower, LeafCode.upper]
    omega
  | int64 =>
    obtain ⟨flag, value⟩ := exact_.toI64 sv x stands
    refine store (flag.trans ?_) rfl value
    simp only [LeafCode.InRange, LeafCode.stored, LeafCode.lower, LeafCode.upper]
    omega
  | bool =>
    cases sv with
    | bool b =>
      have converts := exact_.toBool b
      cases stands
      simp only [load, LeafCode.typeCode, converts]
      refine store ⟨fun _ => ?_, fun _ => rfl⟩ rfl fun _ => ?_
      · cases b <;> decide
      · cases b <;> rfl
    | _ => contradiction

end ScalarSlot

end Apx
