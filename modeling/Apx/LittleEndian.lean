import Mathlib.Data.List.Basic
import Mathlib.Tactic.Ring

/-! Little-endian numbers in byte strings, and writing a byte string over another. -/

namespace Apx

abbrev Byte := UInt8
abbrev Bytes := List UInt8

namespace LittleEndian

/-- The `size` low bytes of a number, lowest first. -/
def packLE (value : Nat) : Nat → Bytes
  | 0 => []
  | size + 1 => UInt8.ofNat value :: packLE (value / 256) size

/-- The number a byte string stands for, lowest byte first. -/
def unpackLE : Bytes → Nat
  | [] => 0
  | b :: rest => b.toNat + 256 * unpackLE rest

@[simp] theorem packLE_length (value size : Nat) : (packLE value size).length = size := by
  induction size generalizing value with
  | zero => rfl
  | succ size ih => simp only [packLE, List.length_cons, ih]

theorem unpackLE_lt (bytes : Bytes) : unpackLE bytes < 256 ^ bytes.length := by
  induction bytes with
  | nil => simp [unpackLE]
  | cons b rest ih =>
    have low := b.toNat_lt
    simp only [unpackLE, List.length_cons, Nat.pow_succ]
    omega

/-- Writing a number in `size` bytes keeps it modulo `256 ^ size`. -/
theorem unpackLE_packLE (value size : Nat) : unpackLE (packLE value size) = value % 256 ^ size := by
  induction size generalizing value with
  | zero => simp [packLE, unpackLE, Nat.mod_one]
  | succ size ih =>
    have low : (UInt8.ofNat value).toNat = value % 256 := by simp
    simp only [packLE, unpackLE, ih, low]
    rw [Nat.pow_succ', Nat.mod_mul]

theorem unpackLE_packLE_of_lt {value size : Nat} (fits : value < 256 ^ size) :
    unpackLE (packLE value size) = value := by
  rw [unpackLE_packLE, Nat.mod_eq_of_lt fits]

/-- Every byte string is the encoding of the number it stands for. -/
theorem packLE_unpackLE (bytes : Bytes) : packLE (unpackLE bytes) bytes.length = bytes := by
  induction bytes with
  | nil => rfl
  | cons b rest ih =>
    have low := b.toNat_lt
    have head : UInt8.ofNat (b.toNat + 256 * unpackLE rest) = b := by
      apply UInt8.toNat_inj.mp
      rw [UInt8.toNat_ofNat']
      omega
    have tail : (b.toNat + 256 * unpackLE rest) / 256 = unpackLE rest := by omega
    simp only [unpackLE, List.length_cons, packLE, head, tail, ih]

theorem packLE_mod (value size : Nat) : packLE (value % 256 ^ size) size = packLE value size := by
  have whole := packLE_unpackLE (packLE value size)
  rwa [unpackLE_packLE, packLE_length] at whole

end LittleEndian

/-- `bytes` with `data` written over it from offset `offset` on. -/
def splice (bytes : Bytes) (offset : Nat) (data : Bytes) : Bytes :=
  bytes.take offset ++ data ++ bytes.drop (offset + data.length)

/-- The `size` bytes from offset `offset` on. -/
def slice (bytes : Bytes) (offset size : Nat) : Bytes := (bytes.drop offset).take size

theorem splice_length {bytes data : Bytes} {offset : Nat} (fits : offset + data.length ≤ bytes.length) :
    (splice bytes offset data).length = bytes.length := by
  simp only [splice, List.length_append, List.length_take, List.length_drop]
  omega

theorem slice_length {bytes : Bytes} {offset size : Nat} (fits : offset + size ≤ bytes.length) :
    (slice bytes offset size).length = size := by
  simp only [slice, List.length_take, List.length_drop]
  omega

@[simp] theorem splice_nil (bytes : Bytes) (offset : Nat) : splice bytes offset [] = bytes := by
  simp [splice]

@[simp] theorem slice_zero (bytes : Bytes) (offset : Nat) : slice bytes offset 0 = [] := by
  simp [slice]

/-- Splitting the target where the write starts shows what a write does. -/
theorem splice_append (front back data : Bytes) :
    splice (front ++ back) front.length data = front ++ data ++ back.drop data.length := by
  simp [splice, List.drop_append]

/-- Two writes behind each other are one. -/
theorem splice_splice {bytes : Bytes} {offset : Nat} (first second : Bytes)
    (inside : offset ≤ bytes.length) :
    splice (splice bytes offset first) (offset + first.length) second =
      splice bytes offset (first ++ second) := by
  have front : (bytes.take offset ++ first).length = offset + first.length := by
    rw [List.length_append, List.length_take, Nat.min_eq_left inside]
  have whole : splice bytes offset first =
      (bytes.take offset ++ first) ++ bytes.drop (offset + first.length) := rfl
  rw [whole, ← front, splice_append, front]
  simp only [splice, List.length_append, List.append_assoc, List.drop_drop, Nat.add_assoc]

theorem slice_append (front data back : Bytes) :
    slice (front ++ (data ++ back)) front.length data.length = data := by
  simp [slice]

theorem slice_append_of_length {front data back : Bytes} {offset size : Nat}
    (start : front.length = offset) (length : data.length = size) :
    slice (front ++ (data ++ back)) offset size = data := by
  rw [← start, ← length, slice_append]

theorem slice_getElem? (bytes : Bytes) (offset size i : Nat) :
    (slice bytes offset size)[i]? = if i < size then bytes[offset + i]? else none := by
  rw [slice, List.getElem?_take, List.getElem?_drop]

theorem splice_getElem? {bytes data : Bytes} {offset i : Nat} (fits : offset + data.length ≤ bytes.length) :
    (splice bytes offset data)[i]? =
      if offset ≤ i ∧ i < offset + data.length then data[i - offset]? else bytes[i]? := by
  have front : (bytes.take offset).length = offset := by simp; omega
  rw [splice, List.append_assoc]
  by_cases low : i < offset
  · rw [if_neg (by omega), List.getElem?_append_left (by omega), List.getElem?_take_of_lt low]
  · rw [List.getElem?_append_right (by omega), front]
    by_cases high : i < offset + data.length
    · rw [if_pos (by omega), List.getElem?_append_left (by omega)]
    · rw [if_neg (by omega), List.getElem?_append_right (by omega), List.getElem?_drop]
      congr 1
      omega

theorem slice_splice {area data : Bytes} {offset : Nat} (fits : offset + data.length ≤ area.length) :
    slice (splice area offset data) offset data.length = data := by
  have front : (area.take offset).length = offset := by
    rw [List.length_take]
    omega
  rw [splice, List.append_assoc]
  exact slice_append_of_length front rfl

theorem splice_slice {area data : Bytes} {offset : Nat} (here : slice area offset data.length = data) :
    splice area offset data = area := by
  calc splice area offset data
      = area.take offset ++ (data ++ (area.drop offset).drop data.length) := by
        rw [splice, List.append_assoc, List.drop_drop]
    _ = area.take offset ++ ((area.drop offset).take data.length ++ (area.drop offset).drop data.length) := by
        rw [show (area.drop offset).take data.length = data from here]
    _ = area := by rw [List.take_append_drop, List.take_append_drop]

/-! What follows a position of a byte string, seen as a string and a rest. -/

theorem getElem?_of_drop {bytes rest : Bytes} {offset : Nat} {b : Byte}
    (here : bytes.drop offset = b :: rest) : bytes[offset]? = some b := by
  have first : (bytes.drop offset)[0]? = some b := by rw [here]; rfl
  simpa using first

theorem lt_length_of_drop {bytes rest : Bytes} {offset : Nat} {b : Byte}
    (here : bytes.drop offset = b :: rest) : offset < bytes.length := by
  have total := congrArg List.length here
  rw [List.length_drop, List.length_cons] at total
  omega

theorem drop_succ_of_drop {bytes rest : Bytes} {offset : Nat} {b : Byte}
    (here : bytes.drop offset = b :: rest) : bytes.drop (offset + 1) = rest := by
  rw [← List.drop_drop, here, List.drop_one, List.tail_cons]

theorem drop_of_drop {bytes data rest : Bytes} {offset : Nat}
    (here : bytes.drop offset = data ++ rest) : bytes.drop (offset + data.length) = rest := by
  rw [← List.drop_drop, here, List.drop_left]

theorem slice_of_drop {bytes data rest : Bytes} {offset size : Nat}
    (here : bytes.drop offset = data ++ rest) (length : data.length = size) :
    slice bytes offset size = data := by
  rw [slice, here, ← length, List.take_left]

theorem le_length_of_drop {bytes data rest : Bytes} {offset : Nat}
    (here : bytes.drop offset = data ++ rest) (nonempty : data ≠ []) :
    offset + data.length ≤ bytes.length := by
  have total := congrArg List.length here
  have positive := List.length_pos_iff.mpr nonempty
  rw [List.length_drop, List.length_append] at total
  omega

end Apx
