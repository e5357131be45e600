import Apx.VmCommon

/-! The scalar that a serializer or deserializer state holds between two steps: the union
scalar_value and its tag. -/

namespace Apx

/-- The union scalar_value as the 64-bit word that holds it on a little-endian machine. -/
abbrev ScalarWord := BitVec 64

namespace ScalarWord

/-- The parts i32 and u32 are the low half of the word. -/
def low (w : ScalarWord) : BitVec 32 := w.setWidth 32

/-- Assigning i32 or u32 leaves the high half as it was. -/
def setLow (w : ScalarWord) (x : BitVec 32) : ScalarWord :=
  BitVec.ofNat 64 (w.toNat / 2 ^ 32 * 2 ^ 32 + x.toNat)

/-- Assigning one byte (bl, cr, byte) leaves the other bytes as they were. -/
def setByte (w : ScalarWord) (x : Byte) : ScalarWord :=
  BitVec.ofNat 64 (w.toNat / 256 * 256 + x.toNat)

@[simp] theorem low_setLow (w : ScalarWord) (x : BitVec 32) : (w.setLow x).low = x := by
  have high := w.isLt
  have fits := x.isLt
  apply BitVec.eq_of_toNat_eq
  simp only [low, setLow, BitVec.toNat_setWidth, BitVec.toNat_ofNat]
  omega

end ScalarWord

/-- scalar_value and scalar_storage_type -/
structure ScalarSlot where
  value : ScalarWord := 0
  storageType : ScalarStorageType := .none
  deriving DecidableEq, Repr

namespace ScalarSlot

/-- A reset clears the tag and assigns zero to the part i32 of the union. -/
def reset (slot : ScalarSlot) : ScalarSlot := { value := slot.value.setLow 0, storageType := .none }

/-- The conversion of a scalar value by a type code, which state_read_scalar_value_internal
of the serializer and state_store_scalar_value of the deserializer share. The union is
assigned before the `ok` flag is looked at. -/
def load (slot : ScalarSlot) (dtl : Dtl) (sv : Sv) (typeCode : TypeCode) : Result ScalarSlot Unit :=
  let store (value : ScalarWord) (ok : Bool) (storageType : ScalarStorageType) :
      Result ScalarSlot Unit :=
    if ok then .ok () { value := value, storageType := storageType }
    else .fail (.code .valueConversion) { slot with value := value }
  match typeCode with
  | .uint8 | .uint16 | .uint32 =>
      let (value, ok) := dtl.toU32 sv
      store (slot.value.setLow value) ok .uint32
  | .uint64 =>
      let (value, ok) := dtl.toU64 sv
      store value ok .uint64
  | .int8 | .int16 | .int32 =>
      let (value, ok) := dtl.toI32 sv
      store (slot.value.setLow value) ok .int32
  | .int64 =>
      let (value, ok) := dtl.toI64 sv
      store value ok .int64
  | .bool =>
      let (value, ok) := dtl.toBool sv
      store (if value then 1 else 0) ok .bool
  | _ => .fail (.code .unsupported) slot

/-- The tag of a scalar that was loaded by a type code -/
def storageOf : TypeCode → ScalarStorageType
  | .uint8 | .uint16 | .uint32 => .uint32
  | .uint64 => .uint64
  | .int8 | .int16 | .int32 => .int32
  | .int64 => .int64
  | .bool => .bool
  | _ => .none

theorem load_storageType {slot slot' : ScalarSlot} {dtl : Dtl} {sv : Sv} {typeCode : TypeCode}
    (loaded : slot.load dtl sv typeCode = .ok () slot') : slot'.storageType = storageOf typeCode := by
  unfold load at loaded
  cases typeCode <;> simp only [reduceCtorEq] at loaded <;> split at loaded <;> cases loaded <;> rfl

/-- The slots differ at most in the high half of the union, which a part of 32 bits does not
show. -/
structure Same (x y : ScalarSlot) : Prop where
  storageType : x.storageType = y.storageType
  low : x.value.low = y.value.low
  whole : x.storageType = .int64 ∨ x.storageType = .uint64 ∨ x.storageType = .bool →
    x.value = y.value

theorem Same.refl (x : ScalarSlot) : Same x x := ⟨rfl, rfl, fun _ => rfl⟩

theorem same_reset (x y : ScalarSlot) : Same x.reset y.reset where
  storageType := rfl
  low := by simp only [reset, ScalarWord.low_setLow]
  whole active := by
    rcases active with active | active | active <;> cases active

theorem rel_load {x y : ScalarSlot} (same : Same x y) (dtl : Dtl) (sv : Sv) (typeCode : TypeCode) :
    Result.Rel Same (x.load dtl sv typeCode) (y.load dtl sv typeCode) := by
  have half (value : BitVec 32) (ok : Bool) (storageType : ScalarStorageType)
      (narrow : storageType = .uint32 ∨ storageType = .int32) :
      Result.Rel Same
        (if ok then .ok () ⟨x.value.setLow value, storageType⟩
          else .fail (.code .valueConversion) { x with value := x.value.setLow value } :
          Result ScalarSlot Unit)
        (if ok then .ok () ⟨y.value.setLow value, storageType⟩
          else .fail (.code .valueConversion) { y with value := y.value.setLow value }) := by
    have low : (x.value.setLow value).low = (y.value.setLow value).low := by
      rw [ScalarWord.low_setLow, ScalarWord.low_setLow]
    split
    · refine .ok ⟨rfl, low, ?_⟩
      rcases narrow with rfl | rfl <;> simp
    · exact .fail ⟨same.storageType, low, fun active => by rw [same.whole active]⟩
  have all (value : ScalarWord) (ok : Bool) (storageType : ScalarStorageType) :
      Result.Rel Same
        (if ok then .ok () ⟨value, storageType⟩
          else .fail (.code .valueConversion) { x with value := value } : Result ScalarSlot Unit)
        (if ok then .ok () ⟨value, storageType⟩
          else .fail (.code .valueConversion) { y with value := value }) := by
    split
    · exact .ok (.refl _)
    · exact .fail ⟨same.storageType, rfl, fun _ => rfl⟩
  cases typeCode with
  | uint8 | uint16 | uint32 => exact half _ _ _ (.inl rfl)
  | int8 | int16 | int32 => exact half _ _ _ (.inr rfl)
  | uint64 | int64 | bool => exact all _ _ _
  | _ => exact .fail same

end ScalarSlot

end Apx
