import Apx.ValueTable

/-! What an argument list of a value table says, and whether the table and its text say the same. -/

namespace Apx

open Bstr

/-- A number as it is written: what strtoul reads, and whether the parser has taken a minus sign in front of it -/
structure WrittenNumber where
  minus : Bool
  value : Int

namespace WrittenNumber

/-- The number that is meant -/
def written (x : WrittenNumber) : Int := if x.minus then -x.value else x.value

/-- The 32 bits that the parser makes of it -/
def bits (x : WrittenNumber) : BitVec 32 :=
  let low := (Strtoul.toUnsigned x.value).setWidth 32
  if x.minus then -low else low

end WrittenNumber

inductive Argument where
  | number (x : WrittenNumber)
  | string (body : Bytes)

/-- An argument at the start of a text, and what stands behind it -/
inductive ArgumentAt : Bytes → Argument → Bytes → Prop
  | plain {c : Byte} {t rest : Bytes} {x : Int} (digit : isDigit c = true)
      (reads : Strtoul.integer (c :: t) = some (x, rest)) : ArgumentAt (c :: t) (.number ⟨false, x⟩) rest
  | minus {t rest : Bytes} {x : Int} (reads : Strtoul.integer t = some (x, rest)) :
      ArgumentAt (ascii '-' :: t) (.number ⟨true, x⟩) rest
  | string {body rest : Bytes} (closed : Closed body) :
      ArgumentAt (quote :: (body ++ quote :: rest)) (.string body) rest

/-- Arguments up to the closing parenthesis. The comma between two arguments may be missing. -/
inductive Arguments (bs : Bstr) : Bytes → List Argument → Bytes → Prop
  | last {t next rest : Bytes} {a : Argument} (first : ArgumentAt (lstrip bs t) a next)
      (closes : lstrip bs next = ascii ')' :: rest) : Arguments bs t [a] rest
  | more {t next t' rest : Bytes} {a : Argument} {others : List Argument} (first : ArgumentAt (lstrip bs t) a next)
      (separated : lstrip bs next = ascii ',' :: t' ∨ lstrip bs next = t') (later : Arguments bs t' others rest) :
      Arguments bs t (a :: others) rest

/-- An argument list of some numbers and the strings behind them -/
def WrittenList (bs : Bstr) (t : Bytes) (numbers : List WrittenNumber) (strings : List Bytes) (rest : Bytes) :
    Prop :=
  ∃ list, t = ascii '(' :: list ∧ Arguments bs list (numbers.map .number ++ strings.map .string) rest

/-- The limits that a list of numbers and so many strings says -/
def writtenLower : List WrittenNumber → Int
  | [] => 0
  | x :: _ => x.written

def writtenUpper (count : Nat) : List WrittenNumber → Int
  | _ :: y :: _ => y.written
  | numbers => writtenLower numbers + count - 1

/-- The number that 32 bits of a limit stand for -/
def limitValue (isSignedRange : Bool) (bits : BitVec 32) : Int := if isSignedRange then bits.toInt else bits.toNat

namespace ValueTable

/-- The table says what is written. -/
structure AsWritten (vt : ValueTable) (numbers : List WrittenNumber) (strings : List Bytes) : Prop where
  values : vt.values = strings
  signed : vt.base.isSignedRange = decide (writtenLower numbers < 0)
  lower : limitValue vt.base.isSignedRange vt.base.lowerLimit = writtenLower numbers
  upper : limitValue vt.base.isSignedRange vt.base.upperLimit = writtenUpper strings.length numbers

/-- The argument list in the text of the table is read as the table. -/
def RoundTrips (bs : Bstr) (vt : ValueTable) : Prop :=
  ∃ list, vt.toString = ascii 'V' :: ascii 'T' :: list ∧
    ∀ behind, AttributeParser.parseValueTable bs behind list = some (vt, some [])

end ValueTable

/-- Limits of 32 bits, signed when the lower one is negative -/
def RepresentableLimits (lower upper : Int) : Prop :=
  if lower < 0 then -2 ^ 31 ≤ lower ∧ -2 ^ 31 ≤ upper ∧ upper < 2 ^ 31
  else lower < 2 ^ 32 ∧ 0 ≤ upper ∧ upper < 2 ^ 32

/-- The lists that survive: there is a string, only a negative lower limit has a minus sign, and the limits can be
represented. -/
def SurvivingList (numbers : List WrittenNumber) (strings : List Bytes) : Prop :=
  strings ≠ [] ∧ (∀ x ∈ numbers.head?, x.minus = decide (x.written < 0)) ∧
    RepresentableLimits (writtenLower numbers) (writtenUpper strings.length numbers)

/-! A text is the list of one sequence of arguments only. -/

theorem ArgumentAt.start {c : Byte} {t rest : Bytes} {a : Argument} (first : ArgumentAt (c :: t) a rest) :
    isDigit c = true ∨ c = ascii '-' ∨ c = quote := by
  cases first with
  | plain digit => exact .inl digit
  | minus => exact .inr (.inl rfl)
  | string => exact .inr (.inr rfl)

theorem ArgumentAt.unique {t rest rest' : Bytes} {a a' : Argument} (first : ArgumentAt t a rest)
    (second : ArgumentAt t a' rest') : a = a' ∧ rest = rest' := by
  cases first with
  | plain digit reads =>
    cases second with
    | plain digit' reads' =>
      cases reads.symm.trans reads'
      exact ⟨rfl, rfl⟩
    | minus => exact absurd digit (by decide)
    | string => exact absurd digit (by decide)
  | minus reads =>
    cases second with
    | plain digit => exact absurd digit (by decide)
    | minus reads' =>
      cases reads.symm.trans reads'
      exact ⟨rfl, rfl⟩
  | @string body _ closed =>
    generalize same : quote :: (body ++ quote :: rest) = t at second
    cases second with
    | plain digit =>
      cases same
      exact absurd digit (by decide)
    | minus => cases same
    | string closed' =>
      have found := (Plain.matchPair_iff _ _ _).mpr ⟨same, closed'⟩
      cases ((Plain.matchPair_iff _ _ _).mpr ⟨rfl, closed⟩).symm.trans found
      exact ⟨rfl, rfl⟩

/-- No argument starts with a comma or a closing parenthesis. -/
theorem Arguments.not_separator {bs : Bstr} {c : Byte} {t rest : Bytes} {arguments : List Argument}
    (written : Arguments bs (c :: t) arguments rest) : c ≠ ascii ',' ∧ c ≠ ascii ')' := by
  have of_first {a : Argument} {next : Bytes} (first : ArgumentAt (lstrip bs (c :: t)) a next)
      (plain : bs.isSpace c = false) : isDigit c = true ∨ c = ascii '-' ∨ c = quote := by
    rw [show lstrip bs (c :: t) = c :: t from lstrip_cons bs t (s := []) nofun plain] at first
    exact first.start
  have start (plain : bs.isSpace c = false) : isDigit c = true ∨ c = ascii '-' ∨ c = quote := by
    cases written with
    | last first closes => exact of_first first plain
    | more first separated later => exact of_first first plain
  constructor
  · rintro rfl
    have impossible := start (not_space bs (by decide))
    revert impossible
    decide
  · rintro rfl
    have impossible := start (not_space bs (by decide))
    revert impossible
    decide

theorem Arguments.unique {bs : Bstr} {t rest rest' : Bytes} {arguments arguments' : List Argument}
    (written : Arguments bs t arguments rest) (written' : Arguments bs t arguments' rest') :
    arguments = arguments' ∧ rest = rest' := by
  induction written generalizing arguments' with
  | last first closes =>
    cases written' with
    | last first' closes' =>
      obtain ⟨rfl, rfl⟩ := first.unique first'
      cases closes.symm.trans closes'
      exact ⟨rfl, rfl⟩
    | more first' separated later =>
      obtain ⟨rfl, rfl⟩ := first.unique first'
      rcases separated with comma | same
      · cases closes.symm.trans comma
      · rw [← same, closes] at later
        exact absurd rfl later.not_separator.2
  | more first separated later ih =>
    cases written' with
    | last first' closes =>
      obtain ⟨rfl, rfl⟩ := first.unique first'
      rcases separated with comma | same
      · cases closes.symm.trans comma
      · rw [← same, closes] at later
        exact absurd rfl later.not_separator.2
    | more first' separated' later' =>
      obtain ⟨rfl, rfl⟩ := first.unique first'
      rcases separated with comma | same
      · rcases separated' with comma' | same'
        · cases comma.symm.trans comma'
          obtain ⟨rfl, rfl⟩ := ih later'
          exact ⟨rfl, rfl⟩
        · rw [← same', comma] at later'
          exact absurd rfl later'.not_separator.1
      · rcases separated' with comma' | same'
        · rw [← same, comma'] at later
          exact absurd rfl later.not_separator.1
        · cases same.symm.trans same'
          obtain ⟨rfl, rfl⟩ := ih later'
          exact ⟨rfl, rfl⟩

theorem arguments_injective {numbers numbers' : List WrittenNumber} {strings strings' : List Bytes}
    (same : numbers.map Argument.number ++ strings.map .string = numbers'.map .number ++ strings'.map .string) :
    numbers = numbers' ∧ strings = strings' := by
  induction numbers generalizing numbers' with
  | nil =>
    cases numbers' with
    | nil => exact ⟨rfl, List.map_injective_iff.mpr (fun _ _ => Argument.string.inj) same⟩
    | cons x more =>
      cases strings with
      | nil => cases same
      | cons body others => cases same
  | cons x more ih =>
    cases numbers' with
    | nil =>
      cases strings' with
      | nil => cases same
      | cons body others => cases same
    | cons x' more' =>
      obtain ⟨head, tail⟩ := List.cons.inj same
      cases head
      obtain ⟨rfl, rfl⟩ := ih tail
      exact ⟨rfl, rfl⟩

theorem WrittenList.unique {bs : Bstr} {t rest rest' : Bytes} {numbers numbers' : List WrittenNumber}
    {strings strings' : List Bytes} (written : WrittenList bs t numbers strings rest)
    (written' : WrittenList bs t numbers' strings' rest') : numbers = numbers' ∧ strings = strings' := by
  obtain ⟨list, rfl, first⟩ := written
  obtain ⟨list', same, second⟩ := written'
  cases same
  exact arguments_injective (first.unique second).1

/-! Limits of 32 bits -/

/-- What is in the range of a type of 32 bits -/
def InLimits (isSignedRange : Bool) (x : Int) : Prop :=
  if isSignedRange then -2 ^ 31 ≤ x ∧ x < 2 ^ 31 else 0 ≤ x ∧ x < 2 ^ 32

theorem representableLimits_iff {lower upper : Int} : RepresentableLimits lower upper ↔
    InLimits (decide (lower < 0)) lower ∧ InLimits (decide (lower < 0)) upper := by
  rw [RepresentableLimits, InLimits, InLimits]
  by_cases negative : lower < 0
  · rw [if_pos negative, if_pos (decide_eq_true negative), if_pos (decide_eq_true negative)]
    omega
  · have plain : ¬decide (lower < 0) = true := fun yes => negative (of_decide_eq_true yes)
    rw [if_neg negative, if_neg plain, if_neg plain]
    omega

theorem inLimits_limitValue (isSignedRange : Bool) (bits : BitVec 32) :
    InLimits isSignedRange (limitValue isSignedRange bits) := by
  have lower := @BitVec.le_toInt 32 bits
  have upper := @BitVec.toInt_lt 32 bits
  have small := bits.isLt
  cases isSignedRange with
  | true => exact ⟨lower, upper⟩
  | false => exact ⟨Int.natCast_nonneg _, by show ((bits.toNat : Nat) : Int) < 2 ^ 32; omega⟩

theorem limitValue_ofInt {isSignedRange : Bool} {x : Int} (fits : InLimits isSignedRange x) :
    limitValue isSignedRange (BitVec.ofInt 32 x) = x := by
  cases isSignedRange with
  | true =>
    have range : -2 ^ 31 ≤ x ∧ x < 2 ^ 31 := fits
    show (BitVec.ofInt 32 x).toInt = x
    rw [BitVec.toInt_ofInt]
    exact Int.bmod_eq_of_le (by omega) (by omega)
  | false =>
    have range : 0 ≤ x ∧ x < 2 ^ 32 := fits
    show ((BitVec.ofInt 32 x).toNat : Int) = x
    rw [BitVec.toNat_ofInt]
    omega

theorem limitValue_injective {isSignedRange : Bool} {a b : BitVec 32}
    (same : limitValue isSignedRange a = limitValue isSignedRange b) : a = b := by
  cases isSignedRange with
  | true => exact BitVec.toInt_inj.mp same
  | false => exact BitVec.eq_of_toNat_eq (Int.ofNat.inj same)

theorem ofInt_limitValue (isSignedRange : Bool) (bits : BitVec 32) :
    BitVec.ofInt 32 (limitValue isSignedRange bits) = bits :=
  limitValue_injective (limitValue_ofInt (inLimits_limitValue isSignedRange bits))

/-- Where the number fits, the bits are its own. -/
theorem WrittenNumber.bits_eq {x : WrittenNumber} {isSignedRange : Bool} (fits : InLimits isSignedRange x.written) :
    x.bits = BitVec.ofInt 32 x.written := by
  have range : -2 ^ 31 ≤ x.written ∧ x.written < 2 ^ 32 := by
    rw [InLimits] at fits
    split at fits <;> omega
  have low : (Strtoul.toUnsigned x.value).setWidth 32 = BitVec.ofInt 32 x.value := by
    have short : x.value.natAbs < 2 ^ 64 := by
      rw [written] at range
      split at range <;> omega
    exact Strtoul.setWidth_toUnsigned short
  rw [bits, written, low]
  cases x.minus with
  | true => exact (BitVec.ofInt_neg).symm
  | false => rfl

/-! What the parser has read -/

namespace AttributeParser

def rangeOf : List WrittenNumber → Range
  | [] => {}
  | [x] => ⟨x.minus, x.bits, 0⟩
  | x :: y :: _ => ⟨x.minus, x.bits, y.bits⟩

/-- The state of the parser behind some numbers and strings -/
def readState (numbers : List WrittenNumber) (strings : List Bytes) : ValueTableState where
  range := rangeOf numbers
  values := strings
  numCount := numbers.length
  lastWasString := decide (strings ≠ [])

theorem unsignedLong_integer {behind t next : Bytes} {value : BitVec 64}
    (reads : unsignedLong behind t = some (value, next)) :
    ∃ x, Strtoul.integer t = some (x, next) ∧ value = Strtoul.toUnsigned x := by
  rw [unsignedLong] at reads
  split at reads
  · contradiction
  · next value' rest number =>
    obtain ⟨⟨x, r⟩, read, same⟩ := Option.map_eq_some_iff.mp number
    cases same
    split at reads
    · next within =>
      cases reads
      obtain ⟨rest', rfl, inner⟩ := Strtoul.integer_within read within
      refine ⟨x, ?_, rfl⟩
      rw [inner, List.length_append, Nat.add_sub_cancel, List.take_left' rfl]
    · contradiction

/-- A number of 32 bits in an argument list: what is read and the range behind it -/
theorem parseLowerLimit_range {behind t next : Bytes} {minus : Bool} {range' : Range}
    (parsed : parseLowerLimit behind t minus {} = some (range', next)) :
    ∃ x, Strtoul.integer t = some (x, next) ∧ range' = rangeOf [⟨minus, x⟩] := by
  rw [parseLowerLimit] at parsed
  split at parsed
  · contradiction
  · next value rest reads =>
    obtain ⟨x, read, rfl⟩ := unsignedLong_integer reads
    dsimp only at parsed
    split at parsed
    · next isMinus =>
      split at parsed
      · contradiction
      · cases parsed
        exact ⟨x, read, by rw [isMinus]; rfl⟩
    · next plain =>
      cases parsed
      rw [Bool.not_eq_true] at plain
      exact ⟨x, read, by rw [plain]; rfl⟩

theorem parseUpperLimit_range {behind t next : Bytes} {minus : Bool} {first : WrittenNumber} {range' : Range}
    (parsed : parseUpperLimit behind t minus (rangeOf [first]) = some (range', next)) :
    ∃ x, Strtoul.integer t = some (x, next) ∧ range' = rangeOf [first, ⟨minus, x⟩] := by
  rw [parseUpperLimit] at parsed
  split at parsed
  · contradiction
  · next value rest reads =>
    obtain ⟨x, read, rfl⟩ := unsignedLong_integer reads
    dsimp only at parsed
    split at parsed
    · next isMinus =>
      split at parsed
      · contradiction
      · split at parsed
        · contradiction
        · cases parsed
          exact ⟨x, read, by rw [isMinus]; rfl⟩
    · next plain =>
      rw [Bool.not_eq_true] at plain
      split at parsed
      · split at parsed
        · contradiction
        · cases parsed
          exact ⟨x, read, by rw [plain]; rfl⟩
      · cases parsed
        exact ⟨x, read, by rw [plain]; rfl⟩

theorem parseValueTableNumber_reads {behind t next : Bytes} {minus : Bool} {numbers : List WrittenNumber}
    {vts : ValueTableState} (parsed : parseValueTableNumber behind t minus (readState numbers []) = some (vts, next)) :
    ∃ x, Strtoul.integer t = some (x, next) ∧ vts = readState (numbers ++ [⟨minus, x⟩]) [] := by
  obtain ⟨⟨range, r⟩, result, same⟩ := Option.map_eq_some_iff.mp parsed
  cases same
  match numbers with
  | [] =>
    obtain ⟨x, read, rfl⟩ := parseLowerLimit_range result
    exact ⟨x, read, rfl⟩
  | [first] =>
    obtain ⟨x, read, rfl⟩ := parseUpperLimit_range result
    exact ⟨x, read, rfl⟩
  | _ :: _ :: _ => contradiction

theorem parseValueTableString_reads {bs : Bstr} {t next : Bytes} {numbers : List WrittenNumber} {strings : List Bytes}
    {vts : ValueTableState} (parsed : parseValueTableString bs t (readState numbers strings) = some (vts, next)) :
    ∃ body, ArgumentAt t (.string body) next ∧ vts = readState numbers (strings ++ [body]) := by
  obtain ⟨⟨body, r⟩, found, same⟩ := Option.map_eq_some_iff.mp parsed
  cases same
  obtain ⟨rfl, closed⟩ := (bs.matchPair_iff t body next).mp found
  refine ⟨body, .string closed, ?_⟩
  rw [readState, readState, decide_eq_true (List.append_ne_nil_of_right_ne_nil strings (List.cons_ne_nil body []))]

/-- One argument: a number, while there is no string yet, or a string -/
theorem parseValueTableArg_reads {bs : Bstr} {behind t next : Bytes} {numbers : List WrittenNumber} {strings : List Bytes}
    {vts : ValueTableState} (parsed : parseValueTableArg bs behind (readState numbers strings) t = some (vts, next)) :
    (strings = [] ∧ ∃ x, ArgumentAt t (.number x) next ∧ vts = readState (numbers ++ [x]) []) ∨
      ∃ body, ArgumentAt t (.string body) next ∧ vts = readState numbers (strings ++ [body]) := by
  cases t with
  | nil => contradiction
  | cons c t =>
    rw [parseValueTableArg] at parsed
    split at parsed
    · split at parsed
      · exact .inr (parseValueTableString_reads parsed)
      · contradiction
    · next noString =>
      obtain rfl : strings = [] := by
        by_contra some
        exact noString (decide_eq_true some)
      split at parsed
      · exact .inr (parseValueTableString_reads parsed)
      · split at parsed
        · next minus =>
          obtain ⟨x, read, rfl⟩ := parseValueTableNumber_reads parsed
          exact .inl ⟨rfl, _, minus ▸ .minus read, rfl⟩
        · split at parsed
          · next digit =>
            obtain ⟨x, read, rfl⟩ := parseValueTableNumber_reads parsed
            exact .inl ⟨rfl, _, .plain digit read, rfl⟩
          · contradiction

theorem parseArguments_step {σ τ : Type} {bs : Bstr} {behind t rest : Bytes}
    {parseArg : σ → Bytes → Option (σ × Bytes)} {create : σ → τ} {s : σ} {made : τ}
    (parsed : parseArguments bs behind parseArg create s t = some (made, some rest)) :
    ∃ s' next, parseArg s (lstrip bs t) = some (s', next) ∧
      (lstrip bs next = ascii ')' :: rest ∧ made = create s' ∨
        ∃ t', t'.length < t.length ∧ (lstrip bs next = ascii ',' :: t' ∨ lstrip bs next = t') ∧
          parseArguments bs behind parseArg create s' t' = some (made, some rest)) := by
  rw [parseArguments] at parsed
  split at parsed
  · contradiction
  · split at parsed
    · contradiction
    · next s' next arg =>
      split at parsed
      · next moved =>
        refine ⟨s', next, arg, ?_⟩
        have first := length_lstrip_le bs t
        have second := length_lstrip_le bs next
        split at parsed
        · split at parsed
          · cases parsed
          · contradiction
        · next c t' strip =>
          rw [strip, List.length_cons] at second
          split at parsed
          · next comma => exact .inr ⟨t', by omega, .inl (comma ▸ strip), parsed⟩
          · split at parsed
            · next closes =>
              cases parsed
              exact .inl ⟨closes ▸ strip, rfl⟩
            · exact .inr ⟨c :: t', by rw [List.length_cons]; omega, .inr strip, parsed⟩
      · contradiction

/-- A list that is read to its end holds the arguments that its table is made of. -/
theorem parseTableArguments_reads {bs : Bstr} {behind rest : Bytes} {vt : ValueTable} (bound : Nat) :
    ∀ (t : Bytes), t.length ≤ bound → ∀ (numbers : List WrittenNumber) (strings : List Bytes),
      parseArguments bs behind (parseValueTableArg bs behind) createValueTableFromState (readState numbers strings) t =
        some (vt, some rest) →
        ∃ numbers' strings', (strings ≠ [] → numbers' = []) ∧
          Arguments bs t (numbers'.map .number ++ strings'.map .string) rest ∧
          vt = createValueTableFromState (readState (numbers ++ numbers') (strings ++ strings')) := by
  induction bound with
  | zero =>
    intro t short numbers strings parsed
    obtain rfl := List.length_eq_zero_iff.mp (Nat.le_zero.mp short)
    rw [parseArguments, if_pos rfl] at parsed
    contradiction
  | succ bound ih =>
    intro t short numbers strings parsed
    obtain ⟨vts, next, arg, ends⟩ := parseArguments_step parsed
    rcases parseValueTableArg_reads arg with ⟨rfl, x, first, rfl⟩ | ⟨body, first, rfl⟩
    · rcases ends with ⟨closes, rfl⟩ | ⟨t', shorter, separated, later⟩
      · exact ⟨[x], [], fun some => absurd rfl some, .last first closes, rfl⟩
      · obtain ⟨numbers', strings', -, others, rfl⟩ := ih t' (by omega) _ _ later
        refine ⟨x :: numbers', strings', fun some => absurd rfl some, .more first separated others, ?_⟩
        rw [List.append_assoc, List.singleton_append]
    · rcases ends with ⟨closes, rfl⟩ | ⟨t', shorter, separated, later⟩
      · exact ⟨[], [body], fun _ => rfl, .last first closes, by rw [List.append_nil]⟩
      · obtain ⟨numbers', strings', stringsOnly, others, rfl⟩ := ih t' (by omega) _ _ later
        obtain rfl := stringsOnly (List.append_ne_nil_of_right_ne_nil strings (List.cons_ne_nil body []))
        refine ⟨[], body :: strings', fun _ => rfl, .more first separated others, ?_⟩
        rw [List.append_assoc, List.singleton_append]

theorem parseValueTable_reads {bs : Bstr} {behind t rest : Bytes} {vt : ValueTable}
    (parsed : parseValueTable bs behind t = some (vt, some rest)) :
    ∃ numbers strings, WrittenList bs t numbers strings rest ∧
      vt = createValueTableFromState (readState numbers strings) := by
  cases t with
  | nil => contradiction
  | cons c list =>
    rw [parseValueTable] at parsed
    split at parsed
    · next opens =>
      obtain ⟨numbers, strings, -, arguments, made⟩ := parseTableArguments_reads _ list (Nat.le_refl _) [] [] parsed
      exact ⟨numbers, strings, ⟨list, by rw [opens], arguments⟩, made⟩
    · contradiction

end AttributeParser

/-! The limits of the table -/

theorem limitValue_succ {isSignedRange : Bool} {index : BitVec 32}
    (fits : InLimits isSignedRange (limitValue isSignedRange index + 1)) :
    limitValue isSignedRange (index + 1) = limitValue isSignedRange index + 1 := by
  have known : BitVec.ofInt 32 (limitValue isSignedRange index + 1) = index + 1 := by
    rw [BitVec.ofInt_add, ofInt_limitValue]
    rfl
  rw [← known, limitValue_ofInt fits]

theorem less_iff (isSignedRange : Bool) (a b : BitVec 32) :
    (if isSignedRange then a.slt b else a.ult b) = decide (limitValue isSignedRange a < limitValue isSignedRange b) := by
  cases isSignedRange with
  | true => rfl
  | false =>
    show a.ult b = decide ((a.toNat : Int) < (b.toNat : Int))
    rw [BitVec.ult]
    simp only [Int.ofNat_lt]

namespace AttributeParser

/-- The index never stays behind the limit. -/
theorem countUpperLimit_succ {isSignedRange : Bool} (n : Nat) {index upper : BitVec 32}
    (below : limitValue isSignedRange upper ≤ limitValue isSignedRange index) :
    countUpperLimit isSignedRange (n + 1) index upper = countUpperLimit isSignedRange n (index + 1) index := by
  have raised : (if isSignedRange then if upper.slt index then index else upper
      else if upper.ult index then index else upper) = index := by
    have less := less_iff isSignedRange upper index
    have kept : ¬limitValue isSignedRange upper < limitValue isSignedRange index → upper = index :=
      fun other => limitValue_injective (Int.le_antisymm below (not_lt.mp other))
    cases isSignedRange with
    | true =>
      rw [if_pos rfl] at less ⊢
      split
      · rfl
      · next other => exact kept fun lower => other (less.trans (decide_eq_true lower))
    | false =>
      rw [if_neg Bool.false_ne_true] at less ⊢
      split
      · rfl
      · next other => exact kept fun lower => other (less.trans (decide_eq_true lower))
  rw [countUpperLimit, raised]

/-- Counting reaches the limit that belongs to so many values. -/
theorem countUpperLimit_value {isSignedRange : Bool} (n : Nat) {index upper : BitVec 32}
    (below : limitValue isSignedRange upper ≤ limitValue isSignedRange index)
    (fits : InLimits isSignedRange (limitValue isSignedRange index + n)) :
    limitValue isSignedRange (countUpperLimit isSignedRange (n + 1) index upper) =
      limitValue isSignedRange index + n := by
  induction n generalizing index upper with
  | zero =>
    rw [countUpperLimit_succ 0 below]
    exact (Int.add_zero _).symm
  | succ n ih =>
    have here := inLimits_limitValue isSignedRange index
    have next : InLimits isSignedRange (limitValue isSignedRange index + 1) := by
      rw [InLimits] at here fits ⊢
      split <;> simp_all <;> omega
    have step := limitValue_succ next
    rw [countUpperLimit_succ _ below, ih (by omega) (by rw [step]; convert fits using 1; push_cast; ring), step]
    push_cast
    ring

theorem limitValue_bits {isSignedRange : Bool} {x : WrittenNumber} :
    limitValue isSignedRange x.bits = x.written ↔ InLimits isSignedRange x.written := by
  constructor
  · intro same
    rw [← same]
    exact inLimits_limitValue _ _
  · intro fits
    rw [WrittenNumber.bits_eq fits, limitValue_ofInt fits]

section

variable {numbers : List WrittenNumber} {strings : List Bytes}

theorem createValueTableFromState_range :
    (createValueTableFromState (readState numbers strings)).base.isSignedRange = (rangeOf numbers).isSignedRange ∧
      (createValueTableFromState (readState numbers strings)).base.lowerLimit = (rangeOf numbers).lower := by
  match numbers with
  | [] => exact ⟨rfl, rfl⟩
  | [x] => exact ⟨rfl, rfl⟩
  | x :: y :: more => exact ⟨rfl, rfl⟩

theorem rangeOf_signed (numbers : List WrittenNumber) :
    (rangeOf numbers).isSignedRange = decide (writtenLower numbers < 0) ↔
      ∀ x ∈ numbers.head?, x.minus = decide (x.written < 0) := by
  match numbers with
  | [] => exact iff_of_true rfl nofun
  | [x] => exact ⟨fun same _ mem => Option.some.inj mem ▸ same, fun all => all x rfl⟩
  | x :: y :: more => exact ⟨fun same _ mem => Option.some.inj mem ▸ same, fun all => all x rfl⟩

theorem rangeOf_lower (isSignedRange : Bool) (numbers : List WrittenNumber) :
    limitValue isSignedRange (rangeOf numbers).lower = writtenLower numbers ↔
      InLimits isSignedRange (writtenLower numbers) := by
  match numbers with
  | [] =>
    cases isSignedRange with
    | true => exact iff_of_true rfl ⟨by decide, by decide⟩
    | false => exact iff_of_true rfl ⟨by decide, by decide⟩
  | [x] => exact limitValue_bits
  | x :: y :: more => exact limitValue_bits

/-- The upper limit is the one that is written, or counted, where it can be represented. -/
theorem createValueTableFromState_upper (some : strings ≠ [])
    (lower : limitValue (rangeOf numbers).isSignedRange (rangeOf numbers).lower = writtenLower numbers) :
    limitValue (rangeOf numbers).isSignedRange (createValueTableFromState (readState numbers strings)).base.upperLimit =
        writtenUpper strings.length numbers ↔
      InLimits (rangeOf numbers).isSignedRange (writtenUpper strings.length numbers) := by
  refine ⟨fun same => same ▸ inLimits_limitValue _ _, fun fits => ?_⟩
  have counted {n : Nat} (length : strings.length = n + 1) :
      writtenLower numbers + strings.length - 1 = writtenLower numbers + n := by
    rw [length]
    push_cast
    ring
  obtain ⟨n, length⟩ := Nat.exists_eq_succ_of_ne_zero (mt List.length_eq_zero_iff.mp some)
  match numbers with
  | [] =>
    rw [writtenUpper, counted length, ← lower] at fits ⊢
    · show limitValue _ (countUpperLimit _ strings.length _ _) = _
      rw [length]
      exact countUpperLimit_value n (Int.le_refl _) fits
    all_goals nofun
  | [x] =>
    rw [writtenUpper, counted length, ← lower] at fits ⊢
    · show limitValue _ (countUpperLimit _ strings.length _ _) = _
      rw [length]
      exact countUpperLimit_value n (Int.le_refl _) fits
    all_goals nofun
  | x :: y :: more => exact limitValue_bits.mpr fits

/-- The table says what is written where the lower limit is negative with its minus sign and the limits can be
represented. -/
theorem asWritten_iff (some : strings ≠ []) :
    (createValueTableFromState (readState numbers strings)).AsWritten numbers strings ↔
      (∀ x ∈ numbers.head?, x.minus = decide (x.written < 0)) ∧
        RepresentableLimits (writtenLower numbers) (writtenUpper strings.length numbers) := by
  obtain ⟨sign, low⟩ := @createValueTableFromState_range numbers strings
  rw [representableLimits_iff, ← rangeOf_signed]
  constructor
  · rintro ⟨-, signed, lower, upper⟩
    rw [sign] at signed lower upper
    rw [low] at lower
    rw [← signed]
    exact ⟨rfl, (rangeOf_lower _ _).mp lower, (createValueTableFromState_upper some lower).mp upper⟩
  · rintro ⟨signed, lower, upper⟩
    rw [← signed] at lower upper
    have lower' := (rangeOf_lower _ _).mpr lower
    refine ⟨rfl, sign.trans signed, ?_, ?_⟩
    · rw [sign, low]
      exact lower'
    · rw [sign]
      exact (createValueTableFromState_upper some lower').mpr upper

end

/-! The text of a table -/

section

variable {bs : Bstr} {behind : Bytes}

theorem lstrip_plain {c : Byte} {rest : Bytes} (plain : bs.isSpace c = false) : lstrip bs (c :: rest) = c :: rest :=
  lstrip_cons bs rest (s := []) nofun plain

section

variable {σ τ : Type} {parseArg : σ → Bytes → Option (σ × Bytes)} {create : σ → τ} {s s' : σ}

theorem parseArguments_comma {c : Byte} {t rest : Bytes} (plain : bs.isSpace c = false)
    (arg : parseArg s (c :: t) = some (s', ascii ',' :: rest)) (moved : (ascii ',' :: rest).length < (c :: t).length) :
    parseArguments bs behind parseArg create s (c :: t) = parseArguments bs behind parseArg create s' rest := by
  have comma : lstrip bs (ascii ',' :: rest) = ascii ',' :: rest := lstrip_plain (not_space bs (by decide))
  rw [← lstrip_plain plain] at arg moved
  rw [parseArguments_first behind arg moved, comma]
  exact if_pos rfl

theorem parseArguments_close {c : Byte} {t rest : Bytes} (plain : bs.isSpace c = false)
    (arg : parseArg s (c :: t) = some (s', ascii ')' :: rest)) (moved : (ascii ')' :: rest).length < (c :: t).length) :
    parseArguments bs behind parseArg create s (c :: t) = some (create s', some rest) := by
  have closes : lstrip bs (ascii ')' :: rest) = ascii ')' :: rest := lstrip_plain (not_space bs (by decide))
  rw [← lstrip_plain plain] at arg moved
  rw [parseArguments_first behind arg moved, closes]
  exact (if_neg (by decide)).trans (if_pos rfl)

end

def printed (x : Int) : WrittenNumber := ⟨decide (x < 0), x.natAbs⟩

theorem printed_written (x : Int) : (printed x).written = x := by
  rw [WrittenNumber.written, printed]
  dsimp only
  by_cases negative : x < 0
  · rw [if_pos (decide_eq_true negative)]
    omega
  · rw [if_neg fun yes => negative (of_decide_eq_true yes)]
    omega

theorem unsignedLong_decimal (n : Nat) (rest : Bytes) :
    unsignedLong behind (decimal n ++ ascii ',' :: rest) = some (Strtoul.toUnsigned n, ascii ',' :: rest) := by
  have read : Strtoul.strtoul (decimal n ++ ascii ',' :: rest ++ behind) =
      some (Strtoul.toUnsigned n, ascii ',' :: rest ++ behind) := by
    rw [List.append_assoc, List.cons_append, Strtoul.strtoul,
      Strtoul.integer_decimal n (rest ++ behind) (by decide) (by decide)]
    rfl
  rw [unsignedLong, read]
  dsimp only
  rw [List.length_append, if_pos (Nat.le_add_left _ _), Nat.add_sub_cancel, List.take_left' rfl]

theorem low_small {n : Nat} (small : n < 2 ^ 32) : ((Strtoul.toUnsigned (n : Int)).setWidth 32).toNat = n := by
  have short : (n : Int).natAbs < 2 ^ 64 := by
    rw [Int.natAbs_natCast]
    omega
  rw [Strtoul.toUnsigned, if_pos short, BitVec.toNat_setWidth, BitVec.toNat_ofInt]
  omega

theorem parseValueTableArg_printed {numbers : List WrittenNumber} {x : Int} {rest : Bytes}
    (accepted : parseValueTableNumber behind (decimal x.natAbs ++ ascii ',' :: rest) (decide (x < 0))
      (readState numbers []) = some (readState (numbers ++ [printed x]) [], ascii ',' :: rest)) :
    parseValueTableArg bs behind (readState numbers []) (signedDecimal x ++ ascii ',' :: rest) =
      some (readState (numbers ++ [printed x]) [], ascii ',' :: rest) := by
  have noString : ¬(readState numbers []).lastWasString = true := Bool.false_ne_true
  rw [signedDecimal]
  split
  · next negative =>
    rw [decide_eq_true negative] at accepted
    rw [List.cons_append, parseValueTableArg, if_neg noString, if_neg (by decide), if_pos rfl]
    exact accepted
  · next positive =>
    rw [decide_eq_false positive] at accepted
    obtain ⟨some, digits⟩ := digits_decimal x.natAbs
    obtain ⟨c, more, written⟩ := List.exists_cons_of_ne_nil some
    have digit : isDigit c = true := digits c (written ▸ List.mem_cons_self)
    rw [written, List.cons_append] at accepted ⊢
    rw [parseValueTableArg, if_neg noString, if_neg, if_neg, if_pos digit]
    · exact accepted
    · rintro rfl
      contradiction
    · rintro rfl
      contradiction

theorem parseValueTableNumber_lower {x : Int} {rest : Bytes} (fits : InLimits (decide (x < 0)) x) :
    parseValueTableNumber behind (decimal x.natAbs ++ ascii ',' :: rest) (decide (x < 0)) (readState [] []) =
      some (readState [printed x] [], ascii ',' :: rest) := by
  have limit : parseLowerLimit behind (decimal x.natAbs ++ ascii ',' :: rest) (decide (x < 0)) {} =
      some (rangeOf [printed x], ascii ',' :: rest) := by
    rw [parseLowerLimit, unsignedLong_decimal]
    dsimp only
    split
    · next negative =>
      rw [InLimits, if_pos negative] at fits
      have low := @low_small x.natAbs (by omega)
      rw [if_neg]
      · rw [rangeOf, printed, negative]
        rfl
      · rw [gt_iff_lt, BitVec.lt_def, low]
        show ¬2147483648 < _
        omega
    · next positive =>
      rw [Bool.not_eq_true] at positive
      rw [rangeOf, printed, positive]
      rfl
  show Option.map _ (parseLowerLimit behind _ _ {}) = _
  rw [limit]
  rfl

theorem parseValueTableNumber_upper {first : WrittenNumber} {x : Int} {rest : Bytes} (fits : InLimits first.minus x) :
    parseValueTableNumber behind (decimal x.natAbs ++ ascii ',' :: rest) (decide (x < 0)) (readState [first] []) =
      some (readState [first, printed x] [], ascii ',' :: rest) := by
  have limit : parseUpperLimit behind (decimal x.natAbs ++ ascii ',' :: rest) (decide (x < 0)) (rangeOf [first]) =
      some (rangeOf [first, printed x], ascii ',' :: rest) := by
    have low := @low_small x.natAbs (by rw [InLimits] at fits; split at fits <;> omega)
    rw [parseUpperLimit, unsignedLong_decimal]
    dsimp only
    by_cases negative : x < 0
    · have signed : first.minus = true := by
        by_contra other
        rw [InLimits, if_neg other] at fits
        omega
      rw [InLimits, if_pos signed] at fits
      rw [decide_eq_true negative, if_pos rfl, if_neg, if_neg]
      · rw [rangeOf, rangeOf, printed, decide_eq_true negative]
        rfl
      · rw [gt_iff_lt, BitVec.lt_def, low]
        show ¬2147483648 < _
        omega
      · rw [rangeOf, signed]
        exact Bool.false_ne_true
    · rw [decide_eq_false negative, if_neg Bool.false_ne_true]
      split
      · next signed =>
        have signed : first.minus = true := signed
        rw [InLimits, if_pos signed] at fits
        rw [if_neg]
        · rw [rangeOf, rangeOf, printed, decide_eq_false negative]
          rfl
        · rw [ge_iff_le, BitVec.le_def, low]
          show ¬2147483648 ≤ _
          omega
      · rw [rangeOf, rangeOf, printed, decide_eq_false negative]
        rfl
  show Option.map _ (parseUpperLimit behind _ _ (rangeOf [first])) = _
  rw [limit]
  rfl

theorem parseValueTableArg_quoted {numbers : List WrittenNumber} {strings : List Bytes} {value rest : Bytes}
    (closed : Closed value) :
    parseValueTableArg bs behind (readState numbers strings) (quote :: (value ++ quote :: rest)) =
      some (readState numbers (strings ++ [value]), rest) := by
  have found : parseValueTableString bs (quote :: (value ++ quote :: rest)) (readState numbers strings) =
      some (readState numbers (strings ++ [value]), rest) := by
    rw [parseValueTableString, (bs.matchPair_iff _ _ _).mpr ⟨rfl, closed⟩, readState, readState,
      decide_eq_true (List.append_ne_nil_of_right_ne_nil strings (List.cons_ne_nil value []))]
    rfl
  rw [parseValueTableArg]
  split
  · rw [if_pos rfl]
    exact found
  · rw [if_pos rfl]
    exact found

theorem parseTableArguments_values {numbers : List WrittenNumber} {values : List Bytes} (some : values ≠ [])
    (closed : ∀ value ∈ values, Closed value) (strings : List Bytes) :
    parseArguments bs behind (parseValueTableArg bs behind) createValueTableFromState (readState numbers strings)
        (ValueTable.valuesToString values ++ [ascii ')']) =
      .some (createValueTableFromState (readState numbers (strings ++ values)), .some []) := by
  have plain : bs.isSpace quote = false := not_space bs (by decide)
  induction values generalizing strings with
  | nil => contradiction
  | cons value values ih =>
    rw [List.forall_mem_cons] at closed
    cases values with
    | nil =>
      have text : ValueTable.valuesToString [value] ++ [ascii ')'] = quote :: (value ++ quote :: [ascii ')']) := by
        rw [ValueTable.valuesToString, DataElement.quoted]
        simp [quote]
      rw [text]
      refine parseArguments_close plain (parseValueTableArg_quoted closed.1) ?_
      simp only [List.length_cons, List.length_append, List.length_nil]
      omega
    | cons next more =>
      have text : ValueTable.valuesToString (value :: next :: more) ++ [ascii ')'] =
          quote :: (value ++ quote :: ascii ',' :: (ValueTable.valuesToString (next :: more) ++ [ascii ')'])) := by
        rw [ValueTable.valuesToString, DataElement.quoted]
        · simp [quote]
        · intro empty
          cases empty
      rw [text, parseArguments_comma plain (parseValueTableArg_quoted closed.1),
        ih (List.cons_ne_nil _ _) closed.2, List.append_assoc, List.singleton_append]
      simp only [List.length_cons, List.length_append]
      omega

end

end AttributeParser

theorem ComputationBase.limitToString_eq (base : ComputationBase) :
    base.limitToString = signedDecimal (limitValue base.isSignedRange base.lowerLimit) ++
      ascii ',' :: signedDecimal (limitValue base.isSignedRange base.upperLimit) := by
  have plain (n : Nat) : signedDecimal n = decimal n := by
    rw [signedDecimal, if_neg (by omega), Int.natAbs_natCast]
  rw [limitToString]
  split
  · next signed =>
    rw [signed]
    rfl
  · next unsigned =>
    rw [Bool.not_eq_true] at unsigned
    rw [unsigned, limitValue, limitValue, if_neg Bool.false_ne_true, if_neg Bool.false_ne_true, plain, plain]

namespace ValueTable

open AttributeParser

variable {bs : Bstr} {vt : ValueTable} {numbers : List WrittenNumber} {strings : List Bytes}

def printedLimits (vt : ValueTable) : List WrittenNumber :=
  [printed (limitValue vt.base.isSignedRange vt.base.lowerLimit),
    printed (limitValue vt.base.isSignedRange vt.base.upperLimit)]

def listText (vt : ValueTable) : Bytes :=
  ascii '(' :: (vt.base.limitToString ++ ascii ',' :: (valuesToString vt.values ++ [ascii ')']))

theorem parseTableArguments_signedDecimal {behind rest : Bytes} {numbers : List WrittenNumber} {x : Int}
    (accepted : parseValueTableNumber behind (decimal x.natAbs ++ ascii ',' :: rest) (decide (x < 0))
      (readState numbers []) = some (readState (numbers ++ [printed x]) [], ascii ',' :: rest)) :
    parseArguments bs behind (parseValueTableArg bs behind) createValueTableFromState (readState numbers [])
        (signedDecimal x ++ ascii ',' :: rest) =
      parseArguments bs behind (parseValueTableArg bs behind) createValueTableFromState
        (readState (numbers ++ [printed x]) []) rest := by
  have arg := @parseValueTableArg_printed bs _ _ _ _ accepted
  have start : ∃ c more, signedDecimal x = c :: more ∧ bs.isSpace c = false := by
    rw [signedDecimal]
    split
    · exact ⟨_, _, rfl, not_space bs (by decide)⟩
    · obtain ⟨some, digits⟩ := digits_decimal x.natAbs
      obtain ⟨c, more, written⟩ := List.exists_cons_of_ne_nil some
      exact ⟨c, more, written, not_space_of_digit bs (digits c (written ▸ List.mem_cons_self))⟩
  obtain ⟨c, more, written, plain⟩ := start
  rw [written, List.cons_append] at arg ⊢
  refine parseArguments_comma plain arg ?_
  simp only [List.length_cons, List.length_append]
  omega

/-- The limits are read back where the sign of the range is that of the lower one. -/
theorem parseValueTable_listText
    (signed : vt.base.isSignedRange = decide (limitValue vt.base.isSignedRange vt.base.lowerLimit < 0))
    (behind : Bytes) : parseValueTable bs behind vt.listText =
      parseArguments bs behind (parseValueTableArg bs behind) createValueTableFromState (readState vt.printedLimits [])
        (valuesToString vt.values ++ [ascii ')']) := by
  have lower := inLimits_limitValue vt.base.isSignedRange vt.base.lowerLimit
  have upper := inLimits_limitValue vt.base.isSignedRange vt.base.upperLimit
  have first : (printed (limitValue vt.base.isSignedRange vt.base.lowerLimit)).minus = vt.base.isSignedRange :=
    signed.symm
  rw [listText, parseValueTable, if_pos rfl, ComputationBase.limitToString_eq, List.append_assoc, List.cons_append]
  refine (@parseTableArguments_signedDecimal bs _ _ [] _ (parseValueTableNumber_lower ?_)).trans ?_
  · rw [← signed]
    exact lower
  · refine parseTableArguments_signedDecimal (parseValueTableNumber_upper ?_)
    rw [first]
    exact upper

/-- A table with the sign of its lower limit and at least one string comes back, and none without a string. -/
theorem comesBack_iff (signed : vt.base.isSignedRange = decide (limitValue vt.base.isSignedRange vt.base.lowerLimit < 0))
    (closed : ∀ value ∈ vt.values, Closed value) : vt.RoundTrips bs ↔ vt.values ≠ [] := by
  have lower := inLimits_limitValue vt.base.isSignedRange vt.base.lowerLimit
  have upper := inLimits_limitValue vt.base.isSignedRange vt.base.upperLimit
  constructor
  · rintro ⟨list, text, reads⟩ empty
    obtain rfl : vt.listText = list := by
      have same : ascii 'V' :: ascii 'T' :: vt.listText = ascii 'V' :: ascii 'T' :: list := text
      cases same
      rfl
    have whole := reads []
    have plain : lstrip bs [ascii ')'] = [ascii ')'] := lstrip_plain (not_space bs (by decide))
    rw [parseValueTable_listText signed, empty, valuesToString, List.nil_append, parseArguments,
      if_neg (List.cons_ne_nil _ _), plain] at whole
    contradiction
  · intro some
    refine ⟨vt.listText, rfl, fun behind => ?_⟩
    rw [parseValueTable_listText signed, parseTableArguments_values some closed, List.nil_append]
    have low : (printed (limitValue vt.base.isSignedRange vt.base.lowerLimit)).bits = vt.base.lowerLimit := by
      rw [WrittenNumber.bits_eq (by rw [printed_written]; exact lower), printed_written, ofInt_limitValue]
    have high : (printed (limitValue vt.base.isSignedRange vt.base.upperLimit)).bits = vt.base.upperLimit := by
      rw [WrittenNumber.bits_eq (by rw [printed_written]; exact upper), printed_written, ofInt_limitValue]
    have same : createValueTableFromState (readState vt.printedLimits vt.values) = vt := by
      show (⟨⟨decide _, (printed _).bits, (printed _).bits⟩, vt.values⟩ : ValueTable) = vt
      rw [low, high, ← signed]
    rw [same]

theorem closed_of_arguments {t rest : Bytes} {arguments : List Argument} (written : Arguments bs t arguments rest) :
    ∀ body, Argument.string body ∈ arguments → Closed body := by
  have of_first {t next : Bytes} {a : Argument} (first : ArgumentAt t a next) {body : Bytes}
      (same : Argument.string body = a) : Closed body := by
    subst same
    cases first with
    | string closed => exact closed
  induction written with
  | last first closes =>
    intro body mem
    exact of_first first (List.mem_singleton.mp mem)
  | more first separated later ih =>
    intro body mem
    rcases List.mem_cons.mp mem with same | mem
    · exact of_first first same
    · exact ih body mem

/-- An argument list that is accepted has numbers and strings in it. Its table says the same and comes back from its
text exactly when the list is one of those that survive. -/
theorem accepted_survives_iff {behind t rest : Bytes} (accepted : parseValueTable bs behind t = some (vt, some rest)) :
    (∃ numbers strings, WrittenList bs t numbers strings rest) ∧
      ∀ numbers strings, WrittenList bs t numbers strings rest →
        (vt.RoundTrips bs ∧ vt.AsWritten numbers strings ↔ SurvivingList numbers strings) := by
  obtain ⟨numbers, strings, written, rfl⟩ := parseValueTable_reads accepted
  refine ⟨⟨numbers, strings, written⟩, fun numbers' strings' written' => ?_⟩
  obtain ⟨rfl, rfl⟩ := written.unique written'
  obtain ⟨list, -, arguments⟩ := written
  have closed : ∀ value ∈ (createValueTableFromState (readState numbers strings)).values, Closed value := by
    intro value mem
    exact closed_of_arguments arguments value (List.mem_append_right _ (List.mem_map_of_mem mem))
  constructor
  · rintro ⟨back, asWritten⟩
    have some : strings ≠ [] := (comesBack_iff (asWritten.lower ▸ asWritten.signed) closed).mp back
    exact ⟨some, (asWritten_iff some).mp asWritten⟩
  · rintro ⟨some, fits⟩
    have asWritten := (asWritten_iff some).mpr fits
    exact ⟨(comesBack_iff (asWritten.lower ▸ asWritten.signed) closed).mpr some, asWritten⟩

def shortList (number : String) : Bytes := ("(" ++ number ++ ",\"a\")").toList.map ascii

theorem shortList_accepted_one : parseValueTable Bstr.asciiLibrary [] (shortList "1") =
    some (⟨⟨false, 1, 1⟩, [[ascii 'a']]⟩, some []) := by
  have first : parseValueTableArg Bstr.asciiLibrary [] {} ("1,\"a\")".toList.map ascii) =
      some (readState [⟨false, 1⟩] [], ",\"a\")".toList.map ascii) := by decide +kernel
  have second : parseValueTableArg Bstr.asciiLibrary [] (readState [⟨false, 1⟩] []) ("\"a\")".toList.map ascii) =
      some (readState [⟨false, 1⟩] [[ascii 'a']], ")".toList.map ascii) := by decide +kernel
  exact (parseArguments_comma (by decide) first (by decide)).trans
    (parseArguments_close (by decide) second (by decide))

theorem accepted_survives_iff_one :
    (∃ numbers strings, WrittenList Bstr.asciiLibrary (shortList "1") numbers strings []) ∧
      ∀ numbers strings, WrittenList Bstr.asciiLibrary (shortList "1") numbers strings [] →
        ((⟨⟨false, 1, 1⟩, [[ascii 'a']]⟩ : ValueTable).RoundTrips Bstr.asciiLibrary ∧
          (⟨⟨false, 1, 1⟩, [[ascii 'a']]⟩ : ValueTable).AsWritten numbers strings ↔ SurvivingList numbers strings) :=
  accepted_survives_iff shortList_accepted_one

/-- The limit 4294967296 is taken modulo 2^32. -/
theorem not_accepted_survives : ¬∀ bs behind t vt rest, parseValueTable bs behind t = some (vt, some rest) →
    ∀ numbers strings, WrittenList bs t numbers strings rest → vt.RoundTrips bs ∧ vt.AsWritten numbers strings := by
  intro survive
  have first : parseValueTableArg Bstr.asciiLibrary [] {} ("4294967296,\"a\")".toList.map ascii) =
      some (readState [⟨false, 4294967296⟩] [], ",\"a\")".toList.map ascii) := by decide +kernel
  have second : parseValueTableArg Bstr.asciiLibrary [] (readState [⟨false, 4294967296⟩] []) ("\"a\")".toList.map ascii) =
      some (readState [⟨false, 4294967296⟩] [[ascii 'a']], ")".toList.map ascii) := by decide +kernel
  have accepted : parseValueTable Bstr.asciiLibrary [] (shortList "4294967296") =
      some (⟨⟨false, 0, 0⟩, [[ascii 'a']]⟩, some []) :=
    (parseArguments_comma (by decide) first (by decide)).trans
      (parseArguments_close (by decide) second (by decide))
  have written : WrittenList Bstr.asciiLibrary (shortList "4294967296") [⟨false, 4294967296⟩]
      [[ascii 'a']] [] := by
    have number : Strtoul.integer ("4294967296,\"a\")".toList.map ascii) =
        some (4294967296, ",\"a\")".toList.map ascii) := by decide +kernel
    have string : ArgumentAt ("\"a\")".toList.map ascii) (.string [ascii 'a']) [ascii ')'] :=
      @ArgumentAt.string [ascii 'a'] [ascii ')'] (by decide)
    exact ⟨_, rfl, .more (.plain (by decide) number) (.inl rfl) (.last string rfl)⟩
  obtain ⟨-, asWritten⟩ := survive _ _ _ _ _ accepted _ _ written
  exact absurd asWritten.lower (by decide)

end ValueTable

end Apx
