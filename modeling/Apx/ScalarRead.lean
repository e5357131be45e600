import Apx.Numbers
import Apx.Deserializer

/-! Numbers that were written by their type, read back by the same type. -/

namespace Apx

open LittleEndian Vm

theorem Sv.eqv_of_int {sv sv' : Sv} {x : Int} (number : sv.int? = some x) (number' : sv'.int? = some x) :
    sv'.Eqv sv := by
  refine ⟨number'.trans number.symm, fun none => ?_⟩
  rw [number'] at none
  contradiction

namespace LeafCode

theorem unpackLE_encode (code : LeafCode) (x : Int) :
    unpackLE (code.encode x) = (x % 2 ^ 64).toNat % 256 ^ code.size := unpackLE_packLE _ _

theorem headD_encode (code : LeafCode) (x : Int) (sized : code.size ≠ 0) :
    ((code.encode x).headD 0).toNat = (x % 2 ^ 64).toNat % 256 := by
  obtain ⟨size, same⟩ := Nat.exists_eq_succ_of_ne_zero sized
  rw [encode, same, packLE, List.headD_cons]
  simp

end LeafCode

namespace ReadState

theorem lowByte_setByte (w : ScalarWord) (x : Byte) : lowByte (w.setByte x) = x := by
  have high := w.isLt
  have fits := x.toNat_lt
  apply UInt8.toNat_inj.mp
  simp only [lowByte, ScalarWord.setByte, BitVec.toNat_ofNat, UInt8.toNat_ofNat']
  omega

/-- What a type stores for its bytes, by the number in all of them or in the first one. -/
def storedNumber (slot : ScalarSlot) (number first : Nat) : LeafCode → ScalarSlot
  | .uint8 => ⟨slot.value.setLow (BitVec.ofNat 32 first), .uint32⟩
  | .uint16 | .uint32 => ⟨slot.value.setLow (BitVec.ofNat 32 number), .uint32⟩
  | .uint64 => ⟨BitVec.ofNat 64 number, .uint64⟩
  | .int8 => ⟨slot.value.setLow ((BitVec.ofNat 8 first).signExtend 32), .int32⟩
  | .int16 => ⟨slot.value.setLow ((BitVec.ofNat 16 number).signExtend 32), .int32⟩
  | .int32 => ⟨slot.value.setLow (BitVec.ofNat 32 number), .int32⟩
  | _ => ⟨BitVec.ofNat 64 number, .int64⟩

theorem storedScalar_integer {code : LeafCode} (isInteger : code.isInteger = true) (slot : ScalarSlot)
    (data : Bytes) :
    storedScalar slot code.typeCode data =
      some (storedNumber slot (unpackLE data) (data.headD 0).toNat code) := by
  cases code <;> first | contradiction | rfl

/-- An integer in the bytes of its type is read as a value that is the same number. -/
theorem scalarFromStorage_integer {code : LeafCode} (isInteger : code.isInteger = true) {x : Int}
    (inRange : code.InRange x) (slot : ScalarSlot) {number first : Nat}
    (whole : number = (x % 2 ^ 64).toNat % 256 ^ code.size)
    (head : first = (x % 2 ^ 64).toNat % 256) :
    ∃ sv, scalarFromStorage (storedNumber slot number first code) = some sv ∧ sv.int? = some x := by
  obtain ⟨low, high⟩ := inRange
  cases code with
  | none | char | char8 | char16 | char32 | byte | bool => contradiction
  | uint8 =>
    refine ⟨.u32 _, rfl, ?_⟩
    simp only [LeafCode.lower, LeafCode.upper] at low high
    simp only [storedNumber, ScalarWord.low_setLow, Sv.int?, BitVec.toNat_ofNat, head, Option.some.injEq]
    omega
  | uint16 | uint32 =>
    refine ⟨.u32 _, rfl, ?_⟩
    simp only [LeafCode.lower, LeafCode.upper] at low high
    simp only [LeafCode.size] at whole
    simp only [storedNumber, ScalarWord.low_setLow, Sv.int?, BitVec.toNat_ofNat, whole, Option.some.injEq]
    omega
  | uint64 =>
    refine ⟨.u64 _, rfl, ?_⟩
    simp only [LeafCode.lower, LeafCode.upper] at low high
    simp only [LeafCode.size] at whole
    simp only [storedNumber, Sv.int?, BitVec.toNat_ofNat, whole, Option.some.injEq]
    omega
  | int8 =>
    refine ⟨.i32 _, rfl, ?_⟩
    simp only [LeafCode.lower, LeafCode.upper] at low high
    simp only [storedNumber, ScalarWord.low_setLow, Sv.int?,
      BitVec.toInt_signExtend_of_le (show 8 ≤ 32 by decide), BitVec.toInt_eq_toNat_cond, BitVec.toNat_ofNat, head,
      Option.some.injEq]
    omega
  | int16 =>
    refine ⟨.i32 _, rfl, ?_⟩
    simp only [LeafCode.lower, LeafCode.upper] at low high
    simp only [LeafCode.size] at whole
    simp only [storedNumber, ScalarWord.low_setLow, Sv.int?,
      BitVec.toInt_signExtend_of_le (show 16 ≤ 32 by decide), BitVec.toInt_eq_toNat_cond, BitVec.toNat_ofNat, whole,
      Option.some.injEq]
    omega
  | int32 =>
    refine ⟨.i32 _, rfl, ?_⟩
    simp only [LeafCode.lower, LeafCode.upper] at low high
    simp only [LeafCode.size] at whole
    simp only [storedNumber, ScalarWord.low_setLow, Sv.int?, BitVec.toInt_eq_toNat_cond, BitVec.toNat_ofNat, whole,
      Option.some.injEq]
    omega
  | int64 =>
    refine ⟨.i64 _, rfl, ?_⟩
    simp only [LeafCode.lower, LeafCode.upper] at low high
    simp only [LeafCode.size] at whole
    simp only [storedNumber, Sv.int?, BitVec.toInt_eq_toNat_cond, BitVec.toNat_ofNat, whole, Option.some.injEq]
    omega

/-- A number in the bytes of its type is read as a value that is the same number. -/
theorem read_encoded {code : LeafCode} (isNumber : code.isNumber = true) {sv : Sv} {x : Int}
    (stands : code.number sv = some x) (inRange : code.InRange x) (slot : ScalarSlot) :
    ∃ slot' sv', storedScalar slot code.typeCode (code.encode x) = some slot' ∧
      scalarFromStorage slot' = some sv' ∧ sv'.Eqv sv := by
  cases integer : code.isInteger with
  | true =>
    have sized : code.size ≠ 0 := by cases code <;> first | contradiction | decide
    obtain ⟨sv', taken, number⟩ := scalarFromStorage_integer integer inRange slot
      (code.unpackLE_encode x) (code.headD_encode x sized)
    refine ⟨_, sv', storedScalar_integer integer slot _, taken, Sv.eqv_of_int ?_ number⟩
    cases code <;> first | contradiction | exact stands
  | false =>
    obtain rfl : code = .bool := by cases code <;> first | contradiction | rfl
    cases sv with
    | bool b =>
      cases stands
      refine ⟨_, .bool b, rfl, ?_, rfl, fun _ => rfl⟩
      simp only [scalarFromStorage, lowByte_setByte, Option.some.injEq, Sv.bool.injEq]
      cases b <;> rfl
    | _ => contradiction

end ReadState

/-- Reading a scalar that the next bytes of the buffer hold -/
theorem Deserializer.unpackAs_scalar {d : Deserializer} {typeCode : TypeCode} {data rest : Bytes}
    (here : d.buffer.bytes.drop d.buffer.next = data ++ rest) (nonempty : data ≠ [])
    (unpadded : d.buffer.paddedNext = none) (alone : d.stack = [])
    (ready : ¬(d.queuedReadState.isActive ∧
      d.queuedReadState.index ≥ d.queuedReadState.currentLength))
    (scalar : ∀ st : ReadState, st.typeCode = typeCode → st.arrayLen = 0 →
      st.isNumOrBoolType ∨ st.isByteType)
    {P : Sv → Prop} (stored : ∀ slot, ∃ slot' sv, ReadState.storedScalar slot typeCode data = some slot' ∧
      ReadState.scalarFromStorage slot' = some sv ∧ P sv) :
    ∃ d' sv, unpackAs typeCode data.length d 0 .none = .ok () d' ∧ d'.state.value = .scalar sv ∧ P sv ∧
      d'.buffer = { d.buffer with next := d.buffer.next + data.length } ∧ d'.stack = [] ∧
      d'.queuedReadState = d.queuedReadState := by
  have inside := le_length_of_drop here nonempty
  have positive := List.length_pos_iff.mpr nonempty
  have valid : d.buffer.isValid = true := by
    simp only [ReadBuffer.isValid, Bool.and_eq_true, decide_eq_true_eq]
    omega
  obtain ⟨slot, sv, read, taken, holds⟩ := stored d.state.reset.scalar
  let typed : ReadState := d.state.reset.setTypeAndSize typeCode data.length
  have prepared : d.prepareForBufferRead typeCode data.length = .ok () { d with state := typed } := by
    rw [prepareForBufferRead, if_neg (by simp [valid]), unpadded]
  have scalarRead : ({ typed with value := .scalar .none } : ReadState).readScalarValue d.buffer =
      .ok () ({ typed with value := .scalar .none, scalar := slot },
        { d.buffer with next := d.buffer.next + data.length }) := by
    have sized : typed.elementSize = data.length := rfl
    have type : typed.typeCode = typeCode := rfl
    have value : typed.scalar = d.state.reset.scalar := rfl
    rw [ReadState.readScalarValue]
    simp only [sized, type, value]
    rw [if_neg (by omega), if_neg (by omega), slice_of_drop here rfl, read]
  have unpacked : ({ d with state := typed } : Deserializer).unpackScalarValue =
      .ok () { d with
        state := { typed with value := .scalar sv, scalar := slot }
        buffer := { d.buffer with next := d.buffer.next + data.length } } := by
    rw [unpackScalarValue]
    simp only [scalarRead, Result.lift_ok, Result.bind_ok, ReadState.setScalarValueFromStorage, taken]
  refine ⟨{ d with
      stack := []
      state := { typed with value := .scalar sv, scalar := slot }
      buffer := { d.buffer with next := d.buffer.next + data.length } }, sv, ?_, rfl, holds, rfl, rfl, rfl⟩
  have empty : typed.arrayLen = 0 := rfl
  have fixed : typed.dynamicSizeType = .none := rfl
  rw [unpackAs, prepared, Result.bind_ok, unpackValue, prepareForArray, if_neg (Nat.lt_irrefl 0),
    Result.bind_ok, unpackPrepared, if_neg ready, if_pos empty, if_neg (not_not_intro fixed),
    if_pos (scalar typed rfl rfl), unpacked, Result.bind_ok, popState]
  simp only [alone, popLoop]

end Apx
