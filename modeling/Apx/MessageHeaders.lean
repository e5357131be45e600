import Apx.Greeting

/-! The headers of messages: the size in front of a message (numheader.c) and the address in front of what
it carries (remotefile.c). -/

namespace Apx

open LittleEndian StreamConnection

def packBE (value size : Nat) : Bytes := (packLE value size).reverse

@[simp] theorem packBE_length (value size : Nat) : (packBE value size).length = size := by
  rw [packBE, List.length_reverse, packLE_length]

theorem unpackBE_packBE (value size : Nat) : unpackBE (packBE value size) = value % 256 ^ size := by
  rw [unpackBE, packBE, List.reverse_reverse, unpackLE_packLE]

theorem packLE_succ (value size : Nat) :
    packLE value (size + 1) = packLE value size ++ [UInt8.ofNat (value / 256 ^ size)] := by
  induction size generalizing value with
  | zero => simp [packLE]
  | succ size ih =>
    rw [packLE, ih, packLE, List.cons_append, Nat.div_div_eq_div_mul, ← Nat.pow_succ']

/-- The first byte is the highest one. -/
theorem packBE_succ (value size : Nat) :
    packBE value (size + 1) = UInt8.ofNat (value / 256 ^ size) :: packBE value size := by
  rw [packBE, packLE_succ, List.reverse_append]
  rfl

/-- numheader_encode32: what it writes into a buffer of `maxBufLen` bytes, `none` where it returns -1 -/
def numheaderEncode32 (maxBufLen value : Nat) : Option Bytes :=
  if maxBufLen = 0 ∨ value > 2147483647 then none
  else if value ≤ 127 then some [UInt8.ofNat value]
  else if maxBufLen < 4 then none
  else some (packBE (value ||| 0x80000000) 4)

/-- rmf_needed_encoding_size -/
def rmfNeededEncodingSize (address : Nat) : Nat := if address < 0x4000 then 2 else 4

/-- rmf_address_encode: what it writes into a buffer of `bufSize` bytes, which is nothing when the address
is too high or the buffer too small -/
def rmfAddressEncode (bufSize address : Nat) (moreBit : Bool) : Bytes :=
  if bufSize = 0 ∨ address > 0x3FFFFFFF then []
  else if rmfNeededEncodingSize address ≤ bufSize then
    if rmfNeededEncodingSize address = 2 then packBE ((if moreBit then 0x4000 else 0) ||| address) 2
    else packBE ((if moreBit then 0x80000000 ||| 0x40000000 else 0x80000000) ||| address) 4
  else []

theorem or_low {high low : Nat} (k : Nat) (is : high = 2 ^ k) (fits : low < 2 ^ k) :
    high ||| low = high + low := by
  have sum := Nat.two_pow_add_eq_or_of_lt fits 1
  rw [Nat.mul_one] at sum
  rw [is, sum]

/-- Four bytes whose first one has its high bit set -/
theorem high_packBE {value : Nat} (high : 2 ^ 31 ≤ value) (fits : value < 2 ^ 32) (rest : Bytes) :
    ∃ first more, packBE value 4 ++ rest = first :: more ∧ first &&& 0x80 ≠ 0 ∧
      4 ≤ (first :: more).length ∧ (first :: more).take 4 = packBE value 4 := by
  refine ⟨UInt8.ofNat (value / 256 ^ 3), packBE value 3 ++ rest, ?_, ?_, ?_, ?_⟩
  · rw [packBE_succ, List.cons_append]
  · rw [highBit_iff, UInt8.toNat_ofNat']
    omega
  · rw [List.length_cons, List.length_append, packBE_length]
    omega
  · rw [← List.cons_append, ← packBE_succ, List.take_append_of_le_length (by rw [packBE_length]),
      List.take_of_length_le (by rw [packBE_length])]

theorem numheaderDecode32_encode {maxBufLen value : Nat} {header : Bytes}
    (encoded : numheaderEncode32 maxBufLen value = some header) (rest : Bytes) :
    numheaderDecode32 (header ++ rest) = (header.length, value) := by
  rw [numheaderEncode32] at encoded
  by_cases invalid : maxBufLen = 0 ∨ value > 2147483647
  · rw [if_pos invalid] at encoded
    contradiction
  · rw [if_neg invalid] at encoded
    by_cases short : value ≤ 127
    · rw [if_pos short] at encoded
      cases encoded
      have byte : (UInt8.ofNat value).toNat = value := by
        rw [UInt8.toNat_ofNat']
        omega
      have low : ¬UInt8.ofNat value &&& 0x80 ≠ 0 := by
        rw [highBit_iff, byte]
        omega
      rw [List.cons_append, numheaderDecode32]
      simp only [if_neg low, byte]
      rfl
    · rw [if_neg short] at encoded
      by_cases small : maxBufLen < 4
      · rw [if_pos small] at encoded
        contradiction
      · rw [if_neg small] at encoded
        cases encoded
        have sum : value ||| 0x80000000 = 2 ^ 31 + value := by
          rw [Nat.or_comm]
          exact or_low 31 rfl (by omega)
        obtain ⟨first, more, split, high, enough, header⟩ :=
          @high_packBE (2 ^ 31 + value) (by omega) (by omega) rest
        have read : unpackBE (packBE (2 ^ 31 + value) 4) &&& 0x7FFFFFFF = value := by
          rw [unpackBE_packBE, show (0x7FFFFFFF : Nat) = 2 ^ 31 - 1 from rfl,
            Nat.and_two_pow_sub_one_eq_mod]
          omega
        rw [sum, split, numheaderDecode32]
        simp only [if_pos high, if_pos enough, header, read, packBE_length]

theorem rmfAddressEncode_length {bufSize address : Nat} (moreBit : Bool) (room : 4 ≤ bufSize)
    (valid : address ≤ 0x3FFFFFFF) :
    (rmfAddressEncode bufSize address moreBit).length = rmfNeededEncodingSize address := by
  rw [rmfAddressEncode, if_neg (by omega)]
  by_cases low : address < 0x4000
  · have needed : rmfNeededEncodingSize address = 2 := if_pos low
    rw [needed, if_pos (by omega), if_pos rfl, packBE_length]
  · have needed : rmfNeededEncodingSize address = 4 := if_neg low
    rw [needed, if_pos room, if_neg (by omega), packBE_length]

theorem moreBit_iff (b : Byte) : b &&& 0x40 ≠ 0 ↔ 64 ≤ b.toNat % 128 := by
  have all : ∀ n < 256, UInt8.ofNat n &&& 0x40 ≠ 0 ↔ 64 ≤ n % 128 := by decide +kernel
  have here := all b.toNat b.toNat_lt
  rwa [UInt8.ofNat_toNat] at here

/-- The value that rmf_address_encode packs into two bytes -/
theorem lowAddress_sum {address : Nat} (low : address < 0x4000) (moreBit : Bool) :
    ((if moreBit then 0x4000 else 0) ||| address) = 2 ^ 14 * moreBit.toNat + address := by
  cases moreBit with
  | false => simp
  | true => exact or_low 14 rfl low

/-- The value that rmf_address_encode packs into four bytes -/
theorem highAddress_sum {address : Nat} (valid : address ≤ 0x3FFFFFFF) (moreBit : Bool) :
    ((if moreBit then 0x80000000 ||| 0x40000000 else 0x80000000) ||| address) =
      2 ^ 31 + (2 ^ 30 * moreBit.toNat + address) := by
  cases moreBit with
  | false =>
    have first : (0x80000000 : Nat) ||| address = 2 ^ 31 + address := or_low 31 rfl (by omega)
    rw [if_neg Bool.false_ne_true, first, Bool.toNat_false, Nat.mul_zero, Nat.zero_add]
  | true =>
    have second : (0x40000000 : Nat) ||| address = 2 ^ 30 + address := or_low 30 rfl (by omega)
    have first : (0x80000000 : Nat) ||| (2 ^ 30 + address) = 2 ^ 31 + (2 ^ 30 + address) :=
      or_low 31 rfl (by omega)
    rw [if_pos rfl, Nat.or_assoc, second, first, Bool.toNat_true, Nat.mul_one]

theorem rmfAddressDecode_encode {bufSize address : Nat} {moreBit : Bool} (room : 4 ≤ bufSize)
    (valid : address ≤ 0x3FFFFFFF) (rest : Bytes) (memory : Nat) (flag : Bool) :
    rmfAddressDecode (rmfAddressEncode bufSize address moreBit ++ rest) memory flag =
      (rmfNeededEncodingSize address, address, moreBit) := by
  have bit := Bool.toNat_le moreBit
  have same : decide (1 ≤ moreBit.toNat) = moreBit := by cases moreBit <;> rfl
  rw [rmfAddressEncode, if_neg (by omega)]
  by_cases low : address < 0x4000
  · have needed : rmfNeededEncodingSize address = 2 := if_pos low
    have byte : (UInt8.ofNat ((2 ^ 14 * moreBit.toNat + address) / 256 ^ 1)).toNat =
        2 ^ 6 * moreBit.toNat + address / 256 := by
      rw [UInt8.toNat_ofNat']
      omega
    have noHigh : ¬UInt8.ofNat ((2 ^ 14 * moreBit.toNat + address) / 256 ^ 1) &&& 0x80 ≠ 0 := by
      rw [highBit_iff, byte]
      omega
    have more : (UInt8.ofNat ((2 ^ 14 * moreBit.toNat + address) / 256 ^ 1) &&& 0x40 ≠ 0) ↔
        1 ≤ moreBit.toNat := by
      rw [moreBit_iff, byte]
      omega
    have header : (UInt8.ofNat ((2 ^ 14 * moreBit.toNat + address) / 256 ^ 1) ::
        (packBE (2 ^ 14 * moreBit.toNat + address) 1 ++ rest)).take 2 =
          packBE (2 ^ 14 * moreBit.toNat + address) 2 := by
      rw [← List.cons_append, ← packBE_succ, List.take_append_of_le_length (by rw [packBE_length]),
        List.take_of_length_le (by rw [packBE_length])]
    have read : unpackBE (packBE (2 ^ 14 * moreBit.toNat + address) 2) % 2 ^ 14 = address := by
      rw [unpackBE_packBE]
      omega
    rw [needed, if_pos (by omega), if_pos rfl, lowAddress_sum low, packBE_succ, List.cons_append,
      rmfAddressDecode]
    simp only [if_neg noHigh, header, read, more, same]
    rw [if_pos (by simp)]
  · have needed : rmfNeededEncodingSize address = 4 := if_neg low
    obtain ⟨first, after, split, high, enough, header⟩ :=
      @high_packBE (2 ^ 31 + (2 ^ 30 * moreBit.toNat + address)) (by omega) (by omega) rest
    have byte : first.toNat = (2 ^ 31 + (2 ^ 30 * moreBit.toNat + address)) / 256 ^ 3 := by
      rw [packBE_succ, List.cons_append] at split
      rw [← (List.cons.inj split).1, UInt8.toNat_ofNat']
      omega
    have more : first &&& 0x40 ≠ 0 ↔ 1 ≤ moreBit.toNat := by
      rw [moreBit_iff, byte]
      omega
    have read : unpackBE (packBE (2 ^ 31 + (2 ^ 30 * moreBit.toNat + address)) 4) % 2 ^ 30 = address := by
      rw [unpackBE_packBE]
      omega
    rw [needed, if_pos room, if_neg (by omega), highAddress_sum valid, split, rmfAddressDecode]
    simp only [if_pos high, if_pos enough, header, read, more, same]

end Apx
