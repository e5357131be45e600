import Apx.SignatureText

/-! The numbers that strtoul of the C library reads with base 0, for a long of 64 bits -/

namespace Apx.Strtoul

open Bstr

/-- isspace of the C locale -/
def isSpace (b : Byte) : Bool := b = 32 || (9 ≤ b && b ≤ 13)

/-- The value of a decimal or hexadecimal digit -/
def digitValue (b : Byte) : Option Nat :=
  if isDigit b then some (b.toNat - 48)
  else if 97 ≤ b && b ≤ 102 then some (b.toNat - 87)
  else if 65 ≤ b && b ≤ 70 then some (b.toNat - 55)
  else none

def isDigitOf (base : Nat) (b : Byte) : Bool := (digitValue b).any fun d => decide (d < base)

/-- The number that digits of a base denote -/
def numberValue (base : Nat) (digits : Bytes) : Nat :=
  Nat.ofDigits base (digits.reverse.map fun b => (digitValue b).getD 0)

/-- The base of the number at the start of a text, and the text from its digits on. An x behind the zero counts
only when a digit follows. -/
def radix : Bytes → Nat × Bytes
  | [] => (10, [])
  | b :: rest =>
    if b = ascii '0' then
      match rest with
      | x :: d :: more =>
        if (x = ascii 'x' ∨ x = ascii 'X') ∧ isDigitOf 16 d = true then (16, d :: more) else (8, b :: x :: d :: more)
      | rest => (8, b :: rest)
    else (10, b :: rest)

/-- A number without a sign and what stands behind it -/
def magnitude (t : Bytes) : Option (Nat × Bytes) :=
  let (base, text) := radix t
  let digits := text.takeWhile (isDigitOf base)
  if digits = [] then none else some (numberValue base digits, text.dropWhile (isDigitOf base))

/-- Whether a minus sign starts the text, and what stands behind an optional sign -/
def sign : Bytes → Bool × Bytes
  | [] => (false, [])
  | b :: rest =>
    if b = ascii '-' then (true, rest) else if b = ascii '+' then (false, rest) else (false, b :: rest)

/-- The integer that is written at the start of a text -/
def integer (t : Bytes) : Option (Int × Bytes) :=
  let (minus, text) := sign (t.dropWhile isSpace)
  (magnitude text).map fun (n, rest) => (if minus then -(n : Int) else n, rest)

/-- What strtoul makes of an integer: a minus sign negates in the type unsigned long. -/
def toUnsigned (x : Int) : BitVec 64 := if x.natAbs < 2 ^ 64 then BitVec.ofInt 64 x else BitVec.allOnes 64

/-- strtoul. No number starts at `t`, or its value and what stands behind it. -/
def strtoul (t : Bytes) : Option (BitVec 64 × Bytes) := (integer t).map fun (x, rest) => (toUnsigned x, rest)

theorem setWidth_toUnsigned {x : Int} (short : x.natAbs < 2 ^ 64) : (toUnsigned x).setWidth 32 = BitVec.ofInt 32 x := by
  rw [toUnsigned, if_pos short]
  apply BitVec.eq_of_toNat_eq
  rw [BitVec.toNat_setWidth, BitVec.toNat_ofInt, BitVec.toNat_ofInt]
  omega

/-! Where a number ends -/

theorem takeWhile_append_dropWhile_of {p : Byte → Bool} {t behind r : Bytes}
    (same : (t ++ behind).dropWhile p = r) (within : behind.length ≤ r.length) :
    t.takeWhile p = (t ++ behind).takeWhile p ∧ r = t.dropWhile p ++ behind := by
  induction t with
  | nil =>
    rw [List.nil_append] at same
    have whole : behind = r := by
      rw [← same] at within ⊢
      exact ((List.dropWhile_suffix p).eq_of_length_le within).symm
    subst whole
    refine ⟨?_, rfl⟩
    cases behind with
    | nil => rfl
    | cons b behind =>
      rw [List.nil_append, List.takeWhile_nil, List.takeWhile_cons]
      rw [List.dropWhile_cons] at same
      split at same
      · have shorter := (List.dropWhile_suffix (l := behind) p).length_le
        rw [same, List.length_cons] at shorter
        exact absurd shorter (Nat.not_succ_le_self _)
      · next other => rw [if_neg other]
  | cons b t ih =>
    rw [List.cons_append, List.dropWhile_cons] at same
    rw [List.cons_append, List.takeWhile_cons, List.takeWhile_cons, List.dropWhile_cons]
    split at same
    · next mem =>
      obtain ⟨take, drop⟩ := ih same
      rw [if_pos mem, if_pos mem, if_pos mem, take]
      exact ⟨rfl, drop⟩
    · next other =>
      rw [if_neg other, if_neg other, if_neg other, ← same]
      exact ⟨rfl, rfl⟩

theorem radix_suffix (t : Bytes) : (radix t).2 <:+ t := by
  unfold radix
  split
  · exact List.suffix_refl _
  · next b rest =>
    split
    · split
      · split
        · exact (List.suffix_cons _ _).trans (List.suffix_cons _ _)
        · exact List.suffix_refl _
      · exact List.suffix_refl _
    · exact List.suffix_refl _

/-- What stands behind a text changes its base only where the digits would begin there. -/
theorem radix_append (t behind : Bytes) :
    radix (t ++ behind) = ((radix t).1, (radix t).2 ++ behind) ∨ (radix (t ++ behind)).2.length ≤ behind.length := by
  match t with
  | [] => exact .inr (radix_suffix behind).length_le
  | b :: t =>
    by_cases zero : b = ascii '0'
    · match t with
      | [] =>
        match behind with
        | [] => exact .inl (by rw [List.append_nil, List.append_nil])
        | [x] => exact .inl (by simp only [List.cons_append, List.nil_append, radix, if_pos zero])
        | x :: d :: more =>
          simp only [List.cons_append, List.nil_append, radix, if_pos zero]
          split
          · exact .inr (Nat.le_succ _)
          · exact .inl rfl
      | [x] =>
        match behind with
        | [] => exact .inl (by simp only [List.append_nil, radix, if_pos zero])
        | d :: more =>
          simp only [List.cons_append, List.nil_append, radix, if_pos zero]
          split
          · exact .inr (Nat.le_refl _)
          · exact .inl rfl
      | x :: d :: more =>
        simp only [List.cons_append, radix, if_pos zero]
        exact .inl (by split <;> rfl)
    · left
      simp only [List.cons_append, radix, if_neg zero]

theorem magnitude_shorter {t rest : Bytes} {n : Nat} (reads : magnitude t = some (n, rest)) :
    rest.length < (radix t).2.length ∧ rest <:+ t := by
  simp only [magnitude] at reads
  split at reads
  · contradiction
  · next some =>
    cases reads
    have parts := congrArg List.length (List.takeWhile_append_dropWhile (p := isDigitOf (radix t).1) (l := (radix t).2))
    rw [List.length_append] at parts
    have positive := List.length_pos_of_ne_nil some
    exact ⟨by omega, (List.dropWhile_suffix _).trans (radix_suffix t)⟩

/-- A number that ends within a text does not depend on what stands behind the text. -/
theorem magnitude_within {t behind r : Bytes} {n : Nat} (reads : magnitude (t ++ behind) = some (n, r))
    (within : behind.length ≤ r.length) : ∃ rest, r = rest ++ behind ∧ magnitude t = some (n, rest) := by
  have shorter := (magnitude_shorter reads).1
  rcases radix_append t behind with same | beyond
  · simp only [magnitude, same] at reads
    split at reads
    · contradiction
    · next some =>
      cases reads
      obtain ⟨take, drop⟩ := takeWhile_append_dropWhile_of rfl within
      refine ⟨_, drop, ?_⟩
      rw [← take] at some
      simp only [magnitude]
      rw [if_neg some, take]
  · omega

theorem sign_suffix (t : Bytes) : (sign t).2 <:+ t := by
  unfold sign
  split
  · exact List.suffix_refl _
  · split
    · exact List.suffix_cons _ _
    · split
      · exact List.suffix_cons _ _
      · exact List.suffix_refl _

theorem sign_append {t : Bytes} (some : t ≠ []) (behind : Bytes) :
    sign (t ++ behind) = ((sign t).1, (sign t).2 ++ behind) := by
  cases t with
  | nil => contradiction
  | cons b rest =>
    rw [List.cons_append, sign, sign]
    split
    · rfl
    · split
      · rfl
      · rfl

theorem integer_iff {t rest : Bytes} {x : Int} : integer t = some (x, rest) ↔
    ∃ n, magnitude (sign (t.dropWhile isSpace)).2 = some (n, rest) ∧
      x = if (sign (t.dropWhile isSpace)).1 then -(n : Int) else n := by
  simp only [integer]
  constructor
  · intro reads
    obtain ⟨⟨n, r⟩, read, same⟩ := Option.map_eq_some_iff.mp reads
    cases same
    exact ⟨n, read, rfl⟩
  · rintro ⟨n, read, rfl⟩
    rw [read]
    rfl

theorem integer_shorter {t rest : Bytes} {x : Int} (reads : integer t = some (x, rest)) :
    rest.length < (t.dropWhile isSpace).length ∧ rest <:+ t := by
  obtain ⟨n, read, -⟩ := integer_iff.mp reads
  obtain ⟨shorter, suffix⟩ := magnitude_shorter read
  have part := sign_suffix (t.dropWhile isSpace)
  refine ⟨Nat.lt_of_lt_of_le shorter ((radix_suffix _).trans part).length_le, ?_⟩
  exact suffix.trans (part.trans (List.dropWhile_suffix _))

theorem integer_within {t behind r : Bytes} {x : Int} (reads : integer (t ++ behind) = some (x, r))
    (within : behind.length ≤ r.length) : ∃ rest, r = rest ++ behind ∧ integer t = some (x, rest) := by
  have shorter := (integer_shorter reads).1
  obtain ⟨-, spaces⟩ := @takeWhile_append_dropWhile_of isSpace t behind _ rfl (by omega)
  have begun : t.dropWhile isSpace ≠ [] := by
    intro empty
    rw [spaces, empty, List.nil_append] at shorter
    omega
  obtain ⟨n, read, value⟩ := integer_iff.mp reads
  rw [spaces, sign_append begun] at read value
  dsimp only at read value
  obtain ⟨rest, rfl, inner⟩ := magnitude_within read within
  exact ⟨rest, rfl, integer_iff.mpr ⟨n, inner, value⟩⟩

theorem takeWhile_append_stop {p : Byte → Bool} {b : Byte} (stops : p b = false) (t more : Bytes) :
    (t ++ b :: more).takeWhile p = t.takeWhile p ∧ (t ++ b :: more).dropWhile p = t.dropWhile p ++ b :: more := by
  induction t with
  | nil =>
    rw [List.nil_append, List.takeWhile_cons, List.dropWhile_cons, stops]
    exact ⟨rfl, rfl⟩
  | cons c t ih =>
    rw [List.cons_append, List.takeWhile_cons, List.dropWhile_cons, List.takeWhile_cons, List.dropWhile_cons, ih.1,
      ih.2]
    split
    · exact ⟨rfl, rfl⟩
    · exact ⟨rfl, rfl⟩

/-- A byte that no number goes on with -/
structure Stops (b : Byte) : Prop where
  digit : ∀ base, isDigitOf base b = false
  mark : b ≠ ascii 'x' ∧ b ≠ ascii 'X'

theorem radix_stop {b : Byte} (stops : Stops b) {t : Bytes} (some : t ≠ []) (more : Bytes) :
    radix (t ++ b :: more) = ((radix t).1, (radix t).2 ++ b :: more) := by
  match t with
  | [] => contradiction
  | [c] =>
    by_cases zero : c = ascii '0'
    · cases more with
      | nil => simp only [List.cons_append, List.nil_append, radix, if_pos zero]
      | cons d more =>
        have other : ¬((b = ascii 'x' ∨ b = ascii 'X') ∧ isDigitOf 16 d = true) := fun both =>
          both.1.elim stops.mark.1 stops.mark.2
        simp only [List.cons_append, List.nil_append, radix, if_pos zero, if_neg other]
    · simp only [List.cons_append, List.nil_append, radix, if_neg zero]
  | [c, x] =>
    by_cases zero : c = ascii '0'
    · have other : ¬((x = ascii 'x' ∨ x = ascii 'X') ∧ isDigitOf 16 b = true) := fun both =>
        absurd both.2 (by rw [stops.digit]; exact Bool.false_ne_true)
      simp only [List.cons_append, List.nil_append, radix, if_pos zero, if_neg other]
    · simp only [List.cons_append, List.nil_append, radix, if_neg zero]
  | c :: x :: d :: t =>
    by_cases zero : c = ascii '0'
    · simp only [List.cons_append, radix, if_pos zero]
      split <;> rfl
    · simp only [List.cons_append, radix, if_neg zero]

/-- A number that is read in a text is also read in front of a byte where it stops. -/
theorem integer_stop {b : Byte} (stops : Stops b) {t rest : Bytes} {x : Int} (reads : integer t = some (x, rest))
    (more : Bytes) : integer (t ++ b :: more) = some (x, rest ++ b :: more) := by
  have shorter := (integer_shorter reads).1
  have begun : t.dropWhile isSpace ≠ [] := by
    intro empty
    rw [empty] at shorter
    exact absurd shorter (Nat.not_lt_zero _)
  have spaces : (t ++ b :: more).dropWhile isSpace = t.dropWhile isSpace ++ b :: more := by
    rw [List.dropWhile_append, if_neg (mt List.isEmpty_iff.mp begun)]
  obtain ⟨n, read, value⟩ := integer_iff.mp reads
  refine integer_iff.mpr ⟨n, ?_, ?_⟩
  · have text : (sign (t.dropWhile isSpace)).2 ≠ [] := by
      intro empty
      rw [empty] at read
      contradiction
    rw [spaces, sign_append begun]
    dsimp only
    simp only [magnitude] at read ⊢
    rw [radix_stop stops text]
    dsimp only
    obtain ⟨take, drop⟩ := takeWhile_append_stop (stops.digit (radix (sign (t.dropWhile isSpace)).2).1)
      (radix (sign (t.dropWhile isSpace)).2).2 more
    rw [take, drop]
    split at read
    · contradiction
    · next digits =>
      cases read
      rw [if_neg digits]
  · rw [spaces, sign_append begun]
    exact value

/-! Decimal numbers -/

theorem isDigit_iff (b : Byte) : isDigit b = true ↔ 48 ≤ b.toNat ∧ b.toNat ≤ 57 := by
  rw [isDigit, Bool.and_eq_true, decide_eq_true_eq, decide_eq_true_eq, UInt8.le_iff_toNat_le,
    UInt8.le_iff_toNat_le]
  rfl

theorem not_isSpace_of_digit {b : Byte} (digit : isDigit b = true) : isSpace b = false := by
  have lower := ((isDigit_iff b).mp digit).1
  rw [isSpace, Bool.or_eq_false_iff, Bool.and_eq_false_iff, decide_eq_false_iff_not, decide_eq_false_iff_not,
    decide_eq_false_iff_not, UInt8.le_iff_toNat_le, UInt8.le_iff_toNat_le]
  constructor
  · rintro rfl
    contradiction
  · right
    show ¬b.toNat ≤ 13
    omega

/-- In front of a digit there is neither whitespace nor a sign. -/
theorem front_of_digit {c : Byte} (digit : isDigit c = true) (t : Bytes) :
    (c :: t).dropWhile isSpace = c :: t ∧ sign (c :: t) = (false, c :: t) := by
  constructor
  · rw [List.dropWhile_cons, not_isSpace_of_digit digit]
    rfl
  · rw [sign, if_neg, if_neg]
    · rintro rfl
      contradiction
    · rintro rfl
      contradiction

theorem isDigitOf_ten {b : Byte} (digit : isDigit b = true) : isDigitOf 10 b = true := by
  rw [isDigitOf, digitValue, if_pos digit, Option.any_some, decide_eq_true_eq]
  have upper := ((isDigit_iff b).mp digit).2
  omega

/-- Letters are digits of no base up to ten. -/
theorem not_isDigitOf {b : Byte} (other : isDigit b = false) {base : Nat} (small : base ≤ 10) :
    isDigitOf base b = false := by
  rw [isDigitOf, digitValue, if_neg (by rw [other]; exact Bool.false_ne_true)]
  split
  · next letter =>
    rw [Bool.and_eq_true, decide_eq_true_eq, decide_eq_true_eq, UInt8.le_iff_toNat_le] at letter
    have lower : 97 ≤ b.toNat := letter.1
    rw [Option.any_some, decide_eq_false_iff_not]
    omega
  · split
    · next letter =>
      rw [Bool.and_eq_true, decide_eq_true_eq, decide_eq_true_eq, UInt8.le_iff_toNat_le] at letter
      have lower : 65 ≤ b.toNat := letter.1
      rw [Option.any_some, decide_eq_false_iff_not]
      omega
    · rfl

theorem numberValue_ten {digits : Bytes} (number : ∀ b ∈ digits, isDigit b = true) :
    numberValue 10 digits = decimalValue digits := by
  rw [numberValue, decimalValue]
  congr 1
  apply List.map_congr_left
  intro b mem
  rw [digitValue, if_pos (number b (List.mem_reverse.mp mem)), Option.getD_some]

theorem decimal_head {n : Nat} (positive : n ≠ 0) : ∀ b ∈ (decimal n).head?, b ≠ ascii '0' := by
  intro b mem zero
  rw [decimal, if_neg positive, List.head?_reverse, List.getLast?_map] at mem
  obtain ⟨d, last, rfl⟩ := Option.mem_map.mp mem
  have known : d = (Nat.digits 10 n).getLast (Nat.digits_ne_nil_iff_ne_zero.mpr positive) := by
    rw [List.getLast?_eq_some_getLast (Nat.digits_ne_nil_iff_ne_zero.mpr positive)] at last
    exact (Option.some.inj last).symm
  have small : d < 10 := Nat.digits_lt_base (by omega) (List.mem_of_getLast? last)
  have value := toNat_digit small
  rw [zero] at value
  exact Nat.getLast_digit_ne_zero 10 positive (known.symm.trans value.symm)

/-- What %u has written is read back in front of a byte that is no digit. -/
theorem magnitude_decimal (n : Nat) {c : Byte} (rest : Bytes) (ends : isDigit c = false)
    (plain : c ≠ ascii 'x' ∧ c ≠ ascii 'X') : magnitude (decimal n ++ c :: rest) = some (n, c :: rest) := by
  have digits := digits_decimal n
  have value := decimalValue_decimal n
  by_cases zero : n = 0
  · subst zero
    have base : radix (decimal 0 ++ c :: rest) = (8, decimal 0 ++ c :: rest) := by
      cases rest with
      | nil => rfl
      | cons d rest =>
        rw [show decimal 0 = [ascii '0'] from rfl, List.cons_append, List.nil_append, radix, if_pos rfl]
        rw [if_neg fun both => both.1.elim plain.1 plain.2]
    have octal : ∀ b ∈ decimal 0, isDigitOf 8 b = true := by decide +kernel
    obtain ⟨take, drop⟩ := @takeWhile_append_of _ _ (c :: rest) octal fun b mem =>
      Option.some.inj mem ▸ not_isDigitOf ends (by decide)
    simp only [magnitude, base, take, drop]
    rw [if_neg digits.1]
    rfl
  · have base : radix (decimal n ++ c :: rest) = (10, decimal n ++ c :: rest) := by
      obtain ⟨b, more, written⟩ := List.exists_cons_of_ne_nil digits.1
      have head := decimal_head zero
      rw [written] at head ⊢
      unfold radix
      exact if_neg (head b rfl)
    obtain ⟨take, drop⟩ := @takeWhile_append_of (isDigitOf 10) _ (c :: rest) (fun b mem => isDigitOf_ten (digits.2 b mem))
      fun b mem => Option.some.inj mem ▸ not_isDigitOf ends (Nat.le_refl 10)
    simp only [magnitude, base, take, drop]
    rw [if_neg digits.1, numberValue_ten digits.2, value]

theorem integer_decimal (n : Nat) {c : Byte} (rest : Bytes) (ends : isDigit c = false)
    (plain : c ≠ ascii 'x' ∧ c ≠ ascii 'X') : integer (decimal n ++ c :: rest) = some ((n : Int), c :: rest) := by
  have start : ∃ b more, decimal n ++ c :: rest = b :: more ∧ isDigit b = true := by
    obtain ⟨some, digits⟩ := digits_decimal n
    obtain ⟨b, more, written⟩ := List.exists_cons_of_ne_nil some
    exact ⟨b, more ++ c :: rest, by rw [written, List.cons_append], digits b (written ▸ List.mem_cons_self)⟩
  obtain ⟨b, more, written, digit⟩ := start
  obtain ⟨strip, noSign⟩ := front_of_digit digit more
  have read := magnitude_decimal n rest ends plain
  rw [written] at read ⊢
  refine integer_iff.mpr ⟨n, ?_, ?_⟩
  · rw [strip, noSign]
    exact read
  · rw [strip, noSign]
    rfl

theorem integer_nonneg {c : Byte} (digit : isDigit c = true) {t rest : Bytes} {x : Int}
    (reads : integer (c :: t) = some (x, rest)) : 0 ≤ x := by
  obtain ⟨strip, noSign⟩ := front_of_digit digit t
  obtain ⟨n, -, rfl⟩ := integer_iff.mp reads
  rw [strip, noSign]
  exact Int.natCast_nonneg n

/-- A text that starts with a digit starts with a number. -/
theorem integer_of_digit {c : Byte} (digit : isDigit c = true) (t : Bytes) :
    ∃ x rest, integer (c :: t) = some (x, rest) := by
  obtain ⟨strip, noSign⟩ := front_of_digit digit t
  have first : ∃ b more, (radix (c :: t)).2 = b :: more ∧ isDigitOf (radix (c :: t)).1 b = true := by
    by_cases zero : c = ascii '0'
    · have octal : isDigitOf 8 c = true := by
        rw [zero]
        decide
      match t with
      | [] =>
        simp only [radix, if_pos zero]
        exact ⟨c, [], rfl, octal⟩
      | [x] =>
        simp only [radix, if_pos zero]
        exact ⟨c, [x], rfl, octal⟩
      | x :: d :: more =>
        simp only [radix, if_pos zero]
        split
        · next both => exact ⟨d, more, rfl, both.2⟩
        · exact ⟨c, x :: d :: more, rfl, octal⟩
    · simp only [radix, if_neg zero]
      exact ⟨c, t, rfl, isDigitOf_ten digit⟩
  obtain ⟨b, more, text, known⟩ := first
  have read : ∃ n rest, magnitude (c :: t) = some (n, rest) := by
    simp only [magnitude, text]
    rw [List.takeWhile_cons, if_pos known, if_neg (List.cons_ne_nil _ _)]
    exact ⟨_, _, rfl⟩
  obtain ⟨n, rest, read⟩ := read
  refine ⟨_, rest, integer_iff.mpr ⟨n, ?_, rfl⟩⟩
  rw [strip, noSign]
  exact read

end Apx.Strtoul
