import Apx.MessageHeaders

/-! What decoding makes of the headers that encoding writes, whole and cut off (numheader.c, remotefile.c). -/

namespace Apx

open StreamConnection

/-- numheader_encode16: what it writes into a buffer of `maxBufLen` bytes, `none` where it returns -1 -/
def numheaderEncode16 (maxBufLen value : Nat) : Option Bytes :=
  if maxBufLen = 0 ∨ value > 32895 then none
  else if value ≤ 127 then some [UInt8.ofNat value]
  else if maxBufLen < 2 then none
  else
    -- 32768 to 32895 take the place of 0 to 127, which have the short form
    let value := if value > 32767 then value - 32768 else value
    some [0x80 ||| UInt8.ofNat (value / 2 ^ 8), UInt8.ofNat value]

/-- numheader_decode16: how far the pointer moves, and what is in the variable for the value afterwards -/
def numheaderDecode16 (t : Bytes) (value : Nat) : Nat × Nat :=
  match t with
  | [] => (0, value)
  | c :: rest =>
    if c &&& 0x80 ≠ 0 then
      if 0 < rest.length then
        let tmp := unpackBE (t.take 2) &&& 0x7FFF
        (2, if tmp < 128 then tmp + 32768 else tmp)
      else (1, value)
    else (1, c.toNat)

/-- What the three encoders are given -/
inductive WireHeader where
  | number16 (value : UInt16)
  | number32 (value : UInt32)
  | fileAddress (address : UInt32) (moreBit : Bool)
  deriving DecidableEq, Repr

namespace WireHeader

/-- The bytes in a buffer of `bufSize` bytes after the encoder, `none` where it reports that it wrote none -/
def encode (bufSize : Nat) : WireHeader → Option Bytes
  | number16 value => numheaderEncode16 bufSize value.toNat
  | number32 value => numheaderEncode32 bufSize value.toNat
  | fileAddress address moreBit =>
    let written := rmfAddressEncode bufSize address.toNat moreBit
    if written = [] then none else some written

/-- The bytes that the decoder of the same header takes from `t` -/
def taken (t : Bytes) : WireHeader → Nat
  | number16 _ => (numheaderDecode16 t 0).1
  | number32 _ => (numheaderDecode32 t).1
  | fileAddress _ _ => (rmfAddressDecode t 0 false).1

/-- Whether the decoder of the same header finds in `t` what was encoded, whatever its variables held -/
def ReadFrom (t : Bytes) : WireHeader → Prop
  | number16 value => ∀ memory, (numheaderDecode16 t memory).2 = value.toNat
  | number32 value => (numheaderDecode32 t).2 = value.toNat
  | fileAddress address moreBit => ∀ memory flag, (rmfAddressDecode t memory flag).2 = (address.toNat, moreBit)

/-- The numbers that have an encoding -/
def Encodable : WireHeader → Prop
  | number16 value => value.toNat ≤ 32895
  | number32 value => value.toNat ≤ 0x7FFFFFFF
  | fileAddress address _ => address.toNat ≤ 0x3FFFFFFF

/-- Four bytes are room for every header, and what is written is read back in front of every tail,
while nothing is taken from a part of it. -/
structure RoundTrips (h : WireHeader) : Prop where
  encodes : h.Encodable → ∀ bufSize, 4 ≤ bufSize → ∃ header, h.encode bufSize = some header
  whole : ∀ bufSize header, h.encode bufSize = some header →
    ∀ t, h.taken (header ++ t) = header.length ∧ h.ReadFrom (header ++ t)
  cut : ∀ bufSize header, h.encode bufSize = some header →
    ∀ part, part <+: header → part ≠ header → h.taken part = 0

/-- A 16-bit number with the long form -/
def LongNumber16 : WireHeader → Prop
  | number16 value => 128 ≤ value.toNat ∧ value.toNat ≤ 32895
  | _ => False

end WireHeader

theorem numheaderEncode16_long {value : Nat} (low : value < 2 ^ 15) :
    [0x80 ||| UInt8.ofNat (value / 2 ^ 8), UInt8.ofNat value] = packBE (2 ^ 15 + value) 2 := by
  have high : 0x80 ||| UInt8.ofNat (value / 2 ^ 8) = UInt8.ofNat ((2 ^ 15 + value) / 2 ^ 8) := by
    apply UInt8.toNat_inj.mp
    rw [UInt8.toNat_or, UInt8.toNat_ofNat', UInt8.toNat_ofNat', Nat.mod_eq_of_lt (by omega),
      Nat.mod_eq_of_lt (by omega)]
    exact (or_low 7 rfl (by omega)).trans (by omega)
  rw [high, packBE_succ, packBE_succ]
  have last : UInt8.ofNat ((2 ^ 15 + value) / 256 ^ 0) = UInt8.ofNat value := by
    apply UInt8.toNat_inj.mp
    rw [UInt8.toNat_ofNat', UInt8.toNat_ofNat']
    omega
  rw [last]
  rfl

/-- Two bytes whose first one has its high bit set -/
theorem high_packBE_two {value : Nat} (low : value < 2 ^ 15) (rest : Bytes) :
    ∃ first second, packBE (2 ^ 15 + value) 2 ++ rest = first :: second :: rest ∧ first &&& 0x80 ≠ 0 ∧
      unpackBE [first, second] &&& 0x7FFF = value := by
  refine ⟨UInt8.ofNat ((2 ^ 15 + value) / 256 ^ 1), UInt8.ofNat ((2 ^ 15 + value) / 256 ^ 0), ?_, ?_, ?_⟩
  · rw [packBE_succ, packBE_succ]
    rfl
  · rw [highBit_iff, UInt8.toNat_ofNat']
    omega
  · have header : [UInt8.ofNat ((2 ^ 15 + value) / 256 ^ 1), UInt8.ofNat ((2 ^ 15 + value) / 256 ^ 0)] =
        packBE (2 ^ 15 + value) 2 := by
      rw [packBE_succ, packBE_succ]
      rfl
    rw [header, unpackBE_packBE, show (0x7FFF : Nat) = 2 ^ 15 - 1 from rfl, Nat.and_two_pow_sub_one_eq_mod]
    omega

theorem numheaderDecode16_encode {maxBufLen value : Nat} {header : Bytes}
    (encoded : numheaderEncode16 maxBufLen value = some header) (rest : Bytes) (memory : Nat) :
    numheaderDecode16 (header ++ rest) memory = (header.length, value) := by
  rw [numheaderEncode16] at encoded
  by_cases invalid : maxBufLen = 0 ∨ value > 32895
  · rw [if_pos invalid] at encoded
    contradiction
  · rw [if_neg invalid] at encoded
    by_cases short : value ≤ 127
    · rw [if_pos short] at encoded
      cases encoded
      have byte : (UInt8.ofNat value).toNat = value := by
        rw [UInt8.toNat_ofNat']
        omega
      have low : ¬UInt8.ofNat value &&& 0x80 ≠ 0 := by
        rw [highBit_iff, byte]
        omega
      rw [List.cons_append, numheaderDecode16]
      simp only [if_neg low, byte]
      rfl
    · rw [if_neg short] at encoded
      by_cases small : maxBufLen < 2
      · rw [if_pos small] at encoded
        contradiction
      · rw [if_neg small] at encoded
        cases encoded
        have low : (if value > 32767 then value - 32768 else value) < 2 ^ 15 := by
          split <;> omega
        obtain ⟨first, second, split, high, read⟩ := high_packBE_two low rest
        have restored : (if (if value > 32767 then value - 32768 else value) < 128
            then (if value > 32767 then value - 32768 else value) + 32768
            else if value > 32767 then value - 32768 else value) = value := by
          by_cases special : value > 32767
          · rw [if_pos special, if_pos (by omega)]
            omega
          · rw [if_neg special, if_neg (by omega)]
        rw [numheaderEncode16_long low, split, numheaderDecode16, if_pos high, if_pos (by simp)]
        simp only [List.take_succ_cons, List.take_zero, read, restored, packBE_length]

/-- A proper part of what begins with `first` is empty, or begins with it as well. -/
theorem cut_cases {first : Byte} {more part : Bytes} (cut : part <+: first :: more)
    (proper : part ≠ first :: more) :
    part = [] ∨ ∃ kept, part = first :: kept ∧ (first :: kept).length < (first :: more).length := by
  cases part with
  | nil => exact .inl rfl
  | cons b kept =>
    obtain ⟨rfl, inside⟩ := List.cons_prefix_cons.mp cut
    refine .inr ⟨kept, rfl, ?_⟩
    refine Nat.lt_of_le_of_ne cut.length_le fun same => proper (cut.eq_of_length same)

theorem numheaderDecode32_cut {maxBufLen value : Nat} {header part : Bytes}
    (encoded : numheaderEncode32 maxBufLen value = some header) (cut : part <+: header)
    (proper : part ≠ header) : (numheaderDecode32 part).1 = 0 := by
  have read := numheaderDecode32_encode encoded []
  rw [List.append_nil] at read
  cases header with
  | nil => exact absurd (List.prefix_nil.mp cut) proper
  | cons first more =>
    obtain rfl | ⟨kept, rfl, less⟩ := cut_cases cut proper
    · rfl
    · rw [numheaderDecode32] at read ⊢
      by_cases high : first &&& 0x80 ≠ 0
      · rw [if_pos high] at read ⊢
        by_cases enough : 4 ≤ (first :: more).length
        · rw [if_pos enough] at read
          have four : 4 = (first :: more).length := congrArg Prod.fst read
          rw [if_neg (by omega)]
        · rw [if_neg enough] at read
          have none : 0 = (first :: more).length := congrArg Prod.fst read
          simp at none
      · rw [if_neg high] at read
        have one : 1 = (first :: more).length := congrArg Prod.fst read
        rw [← one, List.length_cons] at less
        omega

theorem rmfAddressDecode_cut {bufSize address : Nat} {moreBit : Bool} {part : Bytes} (room : 4 ≤ bufSize)
    (valid : address ≤ 0x3FFFFFFF) (cut : part <+: rmfAddressEncode bufSize address moreBit)
    (proper : part ≠ rmfAddressEncode bufSize address moreBit) (memory : Nat) (flag : Bool) :
    (rmfAddressDecode part memory flag).1 = 0 := by
  have read := @rmfAddressDecode_encode _ _ moreBit room valid [] memory flag
  rw [List.append_nil, ← rmfAddressEncode_length moreBit room valid] at read
  cases header : rmfAddressEncode bufSize address moreBit with
  | nil => exact absurd (List.prefix_nil.mp (header ▸ cut)) (header ▸ proper)
  | cons first more =>
    rw [header] at cut proper read
    obtain rfl | ⟨kept, rfl, less⟩ := cut_cases cut proper
    · rfl
    · rw [rmfAddressDecode] at read ⊢
      by_cases high : first &&& 0x80 ≠ 0
      · simp only [if_pos high] at read ⊢
        by_cases enough : 4 ≤ (first :: more).length
        · rw [if_pos enough] at read
          have four : 4 = (first :: more).length := congrArg Prod.fst read
          rw [if_neg (by omega)]
        · rw [if_neg enough] at read
          have none : 0 = (first :: more).length := congrArg Prod.fst read
          simp at none
      · simp only [if_neg high] at read ⊢
        by_cases enough : 2 ≤ (first :: more).length
        · rw [if_pos enough] at read
          have two : 2 = (first :: more).length := congrArg Prod.fst read
          rw [if_neg (by omega)]
        · rw [if_neg enough] at read
          have none : 0 = (first :: more).length := congrArg Prod.fst read
          simp at none

/-- An address that was written is a valid one, and more room would not have changed its header. -/
theorem rmfAddressEncode_written {bufSize address : Nat} {moreBit : Bool}
    (written : rmfAddressEncode bufSize address moreBit ≠ []) :
    address ≤ 0x3FFFFFFF ∧ rmfAddressEncode bufSize address moreBit = rmfAddressEncode 4 address moreBit := by
  by_cases invalid : bufSize = 0 ∨ address > 0x3FFFFFFF
  · rw [rmfAddressEncode, if_pos invalid] at written
    contradiction
  · by_cases room : rmfNeededEncodingSize address ≤ bufSize
    · have enough : rmfNeededEncodingSize address ≤ 4 := by
        rw [rmfNeededEncodingSize]
        split <;> omega
      refine ⟨by omega, ?_⟩
      have valid : ¬(4 = 0 ∨ address > 0x3FFFFFFF) := by omega
      rw [rmfAddressEncode, rmfAddressEncode, if_neg invalid, if_neg valid, if_pos room, if_pos enough]
    · rw [rmfAddressEncode, if_neg invalid, if_neg room] at written
      contradiction

namespace WireHeader

/-- The encoders accept every encodable header when there is room for four bytes. -/
theorem encodes_encodable (h : WireHeader) (valid : h.Encodable) {bufSize : Nat} (room : 4 ≤ bufSize) :
    ∃ header, h.encode bufSize = some header := by
  cases h with
  | number16 value =>
    rw [Encodable] at valid
    rw [encode, numheaderEncode16, if_neg (by omega)]
    by_cases short : value.toNat ≤ 127
    · exact ⟨_, if_pos short⟩
    · rw [if_neg short, if_neg (by omega)]
      exact ⟨_, rfl⟩
  | number32 value =>
    rw [Encodable] at valid
    rw [encode, numheaderEncode32, if_neg (by omega)]
    by_cases short : value.toNat ≤ 127
    · exact ⟨_, if_pos short⟩
    · rw [if_neg short, if_neg (by omega)]
      exact ⟨_, rfl⟩
  | fileAddress address moreBit =>
    rw [Encodable] at valid
    have length := rmfAddressEncode_length moreBit room valid
    have written : rmfAddressEncode bufSize address.toNat moreBit ≠ [] := by
      intro none
      rw [none, rmfNeededEncodingSize] at length
      split at length <;> contradiction
    exact ⟨_, if_neg written⟩

/-- What is written is read back in front of every tail. -/
theorem reads_whole (h : WireHeader) {bufSize : Nat} {header : Bytes} (encoded : h.encode bufSize = some header)
    (t : Bytes) : h.taken (header ++ t) = header.length ∧ h.ReadFrom (header ++ t) := by
  cases h with
  | number16 value =>
    have read := numheaderDecode16_encode encoded t
    exact ⟨congrArg Prod.fst (read 0), fun memory => congrArg Prod.snd (read memory)⟩
  | number32 value =>
    have read := numheaderDecode32_encode encoded t
    exact ⟨congrArg Prod.fst read, congrArg Prod.snd read⟩
  | fileAddress address moreBit =>
    rw [encode, Option.ite_none_left_eq_some] at encoded
    obtain ⟨written, encoded⟩ := encoded
    cases encoded
    obtain ⟨valid, same⟩ := rmfAddressEncode_written written
    have read := @rmfAddressDecode_encode _ _ moreBit (Nat.le_refl 4) valid t
    have length := rmfAddressEncode_length moreBit (Nat.le_refl 4) valid
    rw [same]
    exact ⟨(congrArg Prod.fst (read 0 false)).trans length.symm,
      fun memory flag => congrArg Prod.snd (read memory flag)⟩

/-- Nothing is taken from a part of what is written, when it is not a long 16-bit number. -/
theorem takes_nothing (h : WireHeader) (short : ¬h.LongNumber16) {bufSize : Nat} {header part : Bytes}
    (encoded : h.encode bufSize = some header) (cut : part <+: header) (proper : part ≠ header) :
    h.taken part = 0 := by
  cases h with
  | number16 value =>
    rw [encode, numheaderEncode16] at encoded
    by_cases invalid : bufSize = 0 ∨ value.toNat > 32895
    · rw [if_pos invalid] at encoded
      contradiction
    · rw [LongNumber16] at short
      rw [if_neg invalid, if_pos (by omega)] at encoded
      cases encoded
      obtain rfl | ⟨kept, rfl, less⟩ := cut_cases cut proper
      · rfl
      · simp at less
  | number32 value => exact numheaderDecode32_cut encoded cut proper
  | fileAddress address moreBit =>
    rw [encode, Option.ite_none_left_eq_some] at encoded
    obtain ⟨written, encoded⟩ := encoded
    cases encoded
    obtain ⟨valid, same⟩ := rmfAddressEncode_written written
    rw [same] at cut proper
    exact rmfAddressDecode_cut (Nat.le_refl 4) valid cut proper 0 false

/-- The first byte of a long 16-bit number is taken on its own. -/
theorem takes_first {value : UInt16} (long : (number16 value).LongNumber16) :
    ∃ first second, (number16 value).encode 4 = some [first, second] ∧ (number16 value).taken [first] = 1 := by
  rw [LongNumber16] at long
  have low : (if value.toNat > 32767 then value.toNat - 32768 else value.toNat) < 2 ^ 15 := by
    split <;> omega
  obtain ⟨first, second, split, high, -⟩ := high_packBE_two low []
  rw [List.append_nil, ← numheaderEncode16_long low] at split
  refine ⟨first, second, ?_, ?_⟩
  · rw [encode, numheaderEncode16, if_neg (by omega), if_neg (by omega), if_neg (by omega)]
    exact congrArg some split
  · rw [taken, numheaderDecode16, if_pos high]
    rfl

/-- A header round trips unless it is a 16-bit number with the long form. -/
theorem roundTrips_wire_iff (h : WireHeader) : h.RoundTrips ↔ ¬h.LongNumber16 := by
  constructor
  · intro holds long
    cases h with
    | number16 value =>
      obtain ⟨first, second, encoded, one⟩ := takes_first long
      have zero := holds.cut 4 _ encoded [first] (by simp) (by simp)
      rw [one] at zero
      contradiction
    | number32 value => exact long
    | fileAddress address moreBit => exact long
  · intro short
    exact {
      encodes valid bufSize room := h.encodes_encodable valid room
      whole bufSize header encoded t := h.reads_whole encoded t
      cut bufSize header encoded part cut proper := h.takes_nothing short encoded cut proper }

/-- The first byte of the two that 128 has in a 16-bit header is taken for a header. -/
theorem not_roundTrips_128 : ¬∀ h : WireHeader, h.RoundTrips := by
  intro all
  have zero := (all (number16 128)).cut 4 [0x80, 0x80] (by decide) [0x80] (by decide) (by decide)
  have one : (number16 128).taken [0x80] = 1 := by decide
  rw [one] at zero
  contradiction

end WireHeader

end Apx
