import Apx.PortAttributeGrammar
import Apx.TypeAttributes

/-! The texts that the parser takes as the attributes of a type -/

namespace Apx

open Bstr

/-- A number is not too large for the lower limit that it is written for. -/
def WrittenNumber.LowerFits (x : WrittenNumber) : Prop :=
  x.minus = true → (Strtoul.toUnsigned x.value).setWidth 32 ≤ 0x80000000#32

/-- A number is not too large for the upper limit, and has a minus sign only behind another one. -/
def WrittenNumber.UpperFits (isSignedRange : Bool) (x : WrittenNumber) : Prop :=
  if x.minus then isSignedRange = true ∧ (Strtoul.toUnsigned x.value).setWidth 32 ≤ 0x80000000#32
  else isSignedRange = true → (Strtoul.toUnsigned x.value).setWidth 32 < 0x80000000#32

instance (x : WrittenNumber) : Decidable x.LowerFits :=
  inferInstanceAs (Decidable (x.minus = true → (Strtoul.toUnsigned x.value).setWidth 32 ≤ 0x80000000#32))

instance (isSignedRange : Bool) (x : WrittenNumber) : Decidable (x.UpperFits isSignedRange) :=
  inferInstanceAs (Decidable (if x.minus then
      isSignedRange = true ∧ (Strtoul.toUnsigned x.value).setWidth 32 ≤ 0x80000000#32
    else isSignedRange = true → (Strtoul.toUnsigned x.value).setWidth 32 < 0x80000000#32))

/-- The range with a lower limit. A minus sign makes it a signed one. -/
def Range.withLower (range : Range) (x : WrittenNumber) : Range :=
  { range with lower := x.bits, isSignedRange := x.minus || range.isSignedRange }

def Range.withUpper (range : Range) (x : WrittenNumber) : Range := { range with upper := x.bits }

/-- An argument of a value table: the state before and after it -/
inductive TableArgumentAt : ValueTableState → Bytes → ValueTableState → Bytes → Prop
  | lower {vts : ValueTableState} {t rest : Bytes} {x : WrittenNumber} (first : vts.lastWasString = false)
      (count : vts.numCount = 0) (number : ArgumentAt t (.number x) rest) (fits : x.LowerFits) :
      TableArgumentAt vts t { vts with range := vts.range.withLower x, numCount := vts.numCount + 1 } rest
  | upper {vts : ValueTableState} {t rest : Bytes} {x : WrittenNumber} (first : vts.lastWasString = false)
      (count : vts.numCount = 1) (number : ArgumentAt t (.number x) rest) (fits : x.UpperFits vts.range.isSignedRange) :
      TableArgumentAt vts t { vts with range := vts.range.withUpper x, numCount := vts.numCount + 1 } rest
  | string {vts : ValueTableState} {t rest body : Bytes} (string : ArgumentAt t (.string body) rest) :
      TableArgumentAt vts t { vts with values := vts.values ++ [body], lastWasString := true } rest

/-- A limit of a rational scaling. Other than in a value table it may have a plus sign. -/
inductive ScalingLimitAt : Bytes → WrittenNumber → Bytes → Prop
  | plain {c : Byte} {t rest : Bytes} {x : Int} (noMinus : c ≠ ascii '-')
      (reads : Strtoul.integer (c :: t) = some (x, rest)) : ScalingLimitAt (c :: t) ⟨false, x⟩ rest
  | minus {t rest : Bytes} {x : Int} (reads : Strtoul.integer t = some (x, rest)) :
      ScalingLimitAt (ascii '-' :: t) ⟨true, x⟩ rest

/-- An argument of a rational scaling, whose place in the list says what it is -/
inductive ScalingArgumentAt (bs : Bstr) (double : DoubleReader) :
    RationalScalingState → Bytes → RationalScalingState → Bytes → Prop
  | lower {rss : RationalScalingState} {t rest : Bytes} {x : WrittenNumber} (place : rss.argIndex = 0)
      (limit : ScalingLimitAt t x rest) (fits : x.LowerFits) :
      ScalingArgumentAt bs double rss t { rss with range := rss.range.withLower x, argIndex := 1 } rest
  | upper {rss : RationalScalingState} {t rest : Bytes} {x : WrittenNumber} (place : rss.argIndex = 1)
      (limit : ScalingLimitAt t x rest) (fits : x.UpperFits rss.range.isSignedRange) :
      ScalingArgumentAt bs double rss t { rss with range := rss.range.withUpper x, argIndex := 2 } rest
  | offset {rss : RationalScalingState} {t rest : Bytes} {d : BitVec 64} (place : rss.argIndex = 2)
      (reads : double.toDouble t = some (d, rest)) (some : t ≠ []) :
      ScalingArgumentAt bs double rss t { rss with offset := d, argIndex := 3 } rest
  | numerator {rss : RationalScalingState} {t rest : Bytes} {n : BitVec 32} (place : rss.argIndex = 3)
      (reads : parseI32 bs t = some (n, rest)) :
      ScalingArgumentAt bs double rss t { rss with numerator := n, argIndex := 4 } rest
  | denominator {rss : RationalScalingState} {t rest : Bytes} {n : BitVec 32} (place : rss.argIndex = 4)
      (reads : parseI32 bs t = some (n, rest)) :
      ScalingArgumentAt bs double rss t { rss with denominator := n, argIndex := 5 } rest
  | unit {rss : RationalScalingState} {t rest body : Bytes} (place : rss.argIndex = 5)
      (string : ArgumentAt t (.string body) rest) :
      ScalingArgumentAt bs double rss t { rss with unit := some (CString.ofBytes body), argIndex := 6 } rest

/-- Arguments up to the closing parenthesis. The comma between two arguments may be missing. -/
inductive ArgumentsAt (bs : Bstr) {σ : Type} (ArgAt : σ → Bytes → σ → Bytes → Prop) :
    σ → Bytes → σ → Bytes → Prop
  | last {s s' : σ} {t next rest : Bytes} (first : ArgAt s (lstrip bs t) s' next)
      (closes : lstrip bs next = ascii ')' :: rest) : ArgumentsAt bs ArgAt s t s' rest
  | comma {s s' s'' : σ} {t next t' rest : Bytes} (first : ArgAt s (lstrip bs t) s' next)
      (comma : lstrip bs next = ascii ',' :: t') (later : ArgumentsAt bs ArgAt s' t' s'' rest) :
      ArgumentsAt bs ArgAt s t s'' rest
  | more {s s' s'' : σ} {t next t' rest : Bytes} {c : Byte} (first : ArgAt s (lstrip bs t) s' next)
      (behind : lstrip bs next = c :: t') (other : c ≠ ascii ',' ∧ c ≠ ascii ')')
      (later : ArgumentsAt bs ArgAt s' (c :: t') s'' rest) : ArgumentsAt bs ArgAt s t s'' rest

/-- An attribute of a type at the start of a text -/
inductive TypeAttributeAt (bs : Bstr) (double : DoubleReader) : Bytes → Computation → Bytes → Prop
  | valueTable {t rest : Bytes} {vts : ValueTableState} (arguments : ArgumentsAt bs TableArgumentAt {} t vts rest) :
      TypeAttributeAt bs double ("VT(".toList.map ascii ++ t)
        (AttributeParser.createValueTableFromState vts).toComputation rest
  | rationalScaling {t rest : Bytes} {rss : RationalScalingState}
      (arguments : ArgumentsAt bs (ScalingArgumentAt bs double) {} t rss rest) :
      TypeAttributeAt bs double ("RS(".toList.map ascii ++ t) (AttributeParser.createRationalScalingFromState rss) rest

/-- Attributes with commas between them. What is none ends the list, with all that follows it. -/
inductive TypeAttributesAt (bs : Bstr) (double : DoubleReader) :
    List Computation → Bytes → List Computation → Prop
  | blank {attr : List Computation} {t : Bytes} (nothing : lstrip bs t = []) : TypeAttributesAt bs double attr t attr
  | broken {attr : List Computation} {t : Bytes}
      (nothing : ∀ computation rest, ¬TypeAttributeAt bs double (lstrip bs t) computation rest) :
      TypeAttributesAt bs double attr t attr
  | last {attr : List Computation} {computation : Computation} {t rest : Bytes}
      (first : TypeAttributeAt bs double (lstrip bs t) computation rest) (ends : lstrip bs rest = []) :
      TypeAttributesAt bs double attr t (attr ++ [computation])
  | more {attr attr' : List Computation} {computation : Computation} {t rest t' : Bytes}
      (first : TypeAttributeAt bs double (lstrip bs t) computation rest) (comma : lstrip bs rest = ascii ',' :: t')
      (later : TypeAttributesAt bs double (attr ++ [computation]) t' attr') : TypeAttributesAt bs double attr t attr'

/-- The text of the attributes of a type: some attributes, or whitespace in front of what is none -/
def TypeAttributesText (bs : Bstr) (double : DoubleReader) (t : Bytes) (attr : List Computation) : Prop :=
  TypeAttributesAt bs double [] t attr ∧ (attr = [] → (lstrip bs t).length < t.length)

namespace AttributeParser

theorem parseLowerLimit_line (line : LineEnd) (t : Bytes) (minus : Bool) (range : Range) :
    parseLowerLimit line.behind t minus range =
      (Strtoul.integer t).bind fun (x, next) =>
        if (⟨minus, x⟩ : WrittenNumber).LowerFits then some (range.withLower ⟨minus, x⟩, next) else none := by
  rw [parseLowerLimit, unsignedLong_line]
  cases Strtoul.integer t with
  | none => rfl
  | some pair =>
    obtain ⟨x, rest⟩ := pair
    dsimp only [Option.map_some, Option.bind_some]
    cases minus with
    | false =>
      have fits : (⟨false, x⟩ : WrittenNumber).LowerFits := fun minus => absurd minus Bool.false_ne_true
      rw [if_neg Bool.false_ne_true, if_pos fits]
      rfl
    | true =>
      by_cases fits : (Strtoul.toUnsigned x).setWidth 32 ≤ 0x80000000#32
      · have small : (⟨true, x⟩ : WrittenNumber).LowerFits := fun _ => fits
        rw [if_pos rfl, if_neg (BitVec.not_lt.mpr fits), if_pos small]
        rfl
      · have large : ¬(⟨true, x⟩ : WrittenNumber).LowerFits := fun small => fits (small rfl)
        rw [if_pos rfl, if_pos (BitVec.not_le.mp fits), if_neg large]

theorem parseUpperLimit_line (line : LineEnd) (t : Bytes) (minus : Bool) (range : Range) :
    parseUpperLimit line.behind t minus range =
      (Strtoul.integer t).bind fun (x, next) =>
        if (⟨minus, x⟩ : WrittenNumber).UpperFits range.isSignedRange then some (range.withUpper ⟨minus, x⟩, next)
        else none := by
  rw [parseUpperLimit, unsignedLong_line]
  cases Strtoul.integer t with
  | none => rfl
  | some pair =>
    obtain ⟨x, rest⟩ := pair
    obtain ⟨isSignedRange, lower, upper⟩ := range
    dsimp only [Option.map_some, Option.bind_some, WrittenNumber.UpperFits]
    cases minus with
    | false =>
      cases isSignedRange with
      | false => simp [Range.withUpper, WrittenNumber.bits]
      | true =>
        by_cases fits : (Strtoul.toUnsigned x).setWidth 32 < 0x80000000#32
        · simp [fits, Range.withUpper, WrittenNumber.bits]
        · simp [fits]
    | true =>
      cases isSignedRange with
      | false => simp
      | true =>
        by_cases fits : (Strtoul.toUnsigned x).setWidth 32 ≤ 0x80000000#32
        · simp [fits, Range.withUpper, WrittenNumber.bits]
        · simp [fits]

theorem parseLowerLimit_iff (line : LineEnd) {t next : Bytes} {minus : Bool} {range range' : Range} :
    parseLowerLimit line.behind t minus range = some (range', next) ↔
      ∃ x, Strtoul.integer t = some (x, next) ∧ (⟨minus, x⟩ : WrittenNumber).LowerFits ∧
        range' = range.withLower ⟨minus, x⟩ := by
  rw [parseLowerLimit_line]
  cases Strtoul.integer t with
  | none => simp
  | some pair =>
    obtain ⟨x, rest⟩ := pair
    rw [Option.bind_some, Option.ite_none_right_eq_some]
    constructor
    · rintro ⟨fits, same⟩
      cases same
      exact ⟨x, rfl, fits, rfl⟩
    · rintro ⟨x', same, fits, rfl⟩
      cases same
      exact ⟨fits, rfl⟩

theorem parseUpperLimit_iff (line : LineEnd) {t next : Bytes} {minus : Bool} {range range' : Range} :
    parseUpperLimit line.behind t minus range = some (range', next) ↔
      ∃ x, Strtoul.integer t = some (x, next) ∧ (⟨minus, x⟩ : WrittenNumber).UpperFits range.isSignedRange ∧
        range' = range.withUpper ⟨minus, x⟩ := by
  rw [parseUpperLimit_line]
  cases Strtoul.integer t with
  | none => simp
  | some pair =>
    obtain ⟨x, rest⟩ := pair
    rw [Option.bind_some, Option.ite_none_right_eq_some]
    constructor
    · rintro ⟨fits, same⟩
      cases same
      exact ⟨x, rfl, fits, rfl⟩
    · rintro ⟨x', same, fits, rfl⟩
      cases same
      exact ⟨fits, rfl⟩

/-! Arguments of value tables -/

theorem parseValueTableNumber_iff (line : LineEnd) {t next : Bytes} {minus : Bool} {vts vts' : ValueTableState} :
    parseValueTableNumber line.behind t minus vts = some (vts', next) ↔
      ∃ x, Strtoul.integer t = some (x, next) ∧
        (vts.numCount = 0 ∧ (⟨minus, x⟩ : WrittenNumber).LowerFits ∧
            vts' = { vts with range := vts.range.withLower ⟨minus, x⟩, numCount := vts.numCount + 1 } ∨
          vts.numCount = 1 ∧ (⟨minus, x⟩ : WrittenNumber).UpperFits vts.range.isSignedRange ∧
            vts' = { vts with range := vts.range.withUpper ⟨minus, x⟩, numCount := vts.numCount + 1 }) := by
  rw [parseValueTableNumber]
  by_cases zero : vts.numCount = 0
  · have other : ¬vts.numCount = 1 := by omega
    simp only [zero, if_true, Option.map_eq_some_iff, Prod.exists, parseLowerLimit_iff, true_and,
      show ¬(0 = 1) by decide, false_and, or_false]
    constructor
    · rintro ⟨range, r, ⟨x, reads, fits, rfl⟩, same⟩
      cases same
      exact ⟨x, reads, fits, rfl⟩
    · rintro ⟨x, reads, fits, rfl⟩
      exact ⟨_, next, ⟨x, reads, fits, rfl⟩, rfl⟩
  · by_cases one : vts.numCount = 1
    · simp only [one, show ¬(1 = 0) by decide, if_false, if_true, Option.map_eq_some_iff, Prod.exists,
        parseUpperLimit_iff, true_and, false_and, false_or]
      constructor
      · rintro ⟨range, r, ⟨x, reads, fits, rfl⟩, same⟩
        cases same
        exact ⟨x, reads, fits, rfl⟩
      · rintro ⟨x, reads, fits, rfl⟩
        exact ⟨_, next, ⟨x, reads, fits, rfl⟩, rfl⟩
    · simp [zero, one]

theorem parseValueTableString_iff {bs : Bstr} {t next : Bytes} {vts vts' : ValueTableState} :
    parseValueTableString bs t vts = some (vts', next) ↔
      ∃ body, bs.matchPair t = some (body, next) ∧
        vts' = { vts with values := vts.values ++ [body], lastWasString := true } := by
  simp only [parseValueTableString, Option.map_eq_some_iff, Prod.exists, Prod.mk.injEq]
  constructor
  · rintro ⟨body, r, found, rfl, rfl⟩
    exact ⟨body, found, rfl⟩
  · rintro ⟨body, found, rfl⟩
    exact ⟨body, next, found, rfl, rfl⟩

theorem argumentAt_string_iff {bs : Bstr} {t rest body : Bytes} :
    ArgumentAt t (.string body) rest ↔ bs.matchPair t = some (body, rest) := by
  rw [bs.matchPair_iff]
  constructor
  · intro written
    cases written with
    | string closed => exact ⟨rfl, closed⟩
  · rintro ⟨rfl, closed⟩
    exact .string closed

theorem parseValueTableArg_iff {bs : Bstr} (line : LineEnd) {t next : Bytes} {vts vts' : ValueTableState} :
    parseValueTableArg bs line.behind vts t = some (vts', next) ↔ TableArgumentAt vts t vts' next := by
  cases t with
  | nil =>
    constructor
    · intro parsed
      cases parsed
    · intro written
      cases written with
      | lower first count number => cases number
      | upper first count number => cases number
      | string string => cases string
  | cons c t =>
    rw [parseValueTableArg]
    constructor
    · intro parsed
      split at parsed
      · split at parsed
        · obtain ⟨body, found, rfl⟩ := parseValueTableString_iff.mp parsed
          exact .string (argumentAt_string_iff.mpr found)
        · cases parsed
      · next first =>
        rw [Bool.not_eq_true] at first
        split at parsed
        · obtain ⟨body, found, rfl⟩ := parseValueTableString_iff.mp parsed
          exact .string (argumentAt_string_iff.mpr found)
        · split at parsed
          · next minus =>
            subst minus
            obtain ⟨x, reads, ⟨count, fits, rfl⟩ | ⟨count, fits, rfl⟩⟩ := (parseValueTableNumber_iff line).mp parsed
            · exact .lower first count (.minus reads) fits
            · exact .upper first count (.minus reads) fits
          · split at parsed
            · next digit =>
              obtain ⟨x, reads, ⟨count, fits, rfl⟩ | ⟨count, fits, rfl⟩⟩ :=
                (parseValueTableNumber_iff line).mp parsed
              · exact .lower first count (.plain digit reads) fits
              · exact .upper first count (.plain digit reads) fits
            · cases parsed
    · have number_ {x : WrittenNumber} (first : vts.lastWasString = false)
          (number : ArgumentAt (c :: t) (.number x) next)
          (made : (vts.numCount = 0 ∧ x.LowerFits ∧
              vts' = { vts with range := vts.range.withLower x, numCount := vts.numCount + 1 }) ∨
            vts.numCount = 1 ∧ x.UpperFits vts.range.isSignedRange ∧
              vts' = { vts with range := vts.range.withUpper x, numCount := vts.numCount + 1 }) :
          (if vts.lastWasString = true then
              if c = quote then parseValueTableString bs (c :: t) vts else none
            else if c = quote then parseValueTableString bs (c :: t) vts
            else if c = ascii '-' then parseValueTableNumber line.behind t true vts
            else if isDigit c = true then parseValueTableNumber line.behind (c :: t) false vts
            else none) = some (vts', next) := by
        rw [first, if_neg Bool.false_ne_true]
        cases number with
        | plain digit reads =>
          have noQuote : c ≠ quote := by
            rintro rfl
            exact absurd digit (by decide)
          have noMinus : c ≠ ascii '-' := by
            rintro rfl
            exact absurd digit (by decide)
          rw [if_neg noQuote, if_neg noMinus, if_pos digit]
          exact (parseValueTableNumber_iff line).mpr ⟨_, reads, made⟩
        | minus reads =>
          rw [if_neg (by decide), if_pos rfl]
          exact (parseValueTableNumber_iff line).mpr ⟨_, reads, made⟩
      intro written
      cases written with
      | lower first count number fits => exact number_ first number (.inl ⟨count, fits, rfl⟩)
      | upper first count number fits => exact number_ first number (.inr ⟨count, fits, rfl⟩)
      | string string =>
        have found := (@argumentAt_string_iff bs _ _ _).mp string
        have opens : c = quote := by
          cases string
          rfl
        rw [if_pos opens, if_pos opens, ite_self]
        exact parseValueTableString_iff.mpr ⟨_, found, rfl⟩

/-! Arguments of rational scalings -/

theorem parseSignedLimit_cases {parse : Bytes → Bool → Range → Option (Range × Bytes)} {range range' : Range} {c : Byte}
    {t next : Bytes} {Fits : WrittenNumber → Prop} {made : WrittenNumber → Range}
    (parses : ∀ {minus t}, parse t minus range = some (range', next) ↔
      ∃ x, Strtoul.integer t = some (x, next) ∧ Fits ⟨minus, x⟩ ∧ range' = made ⟨minus, x⟩) :
    parseSignedLimit parse range c t = some (range', next) ↔
      ∃ x, ScalingLimitAt (c :: t) x next ∧ Fits x ∧ range' = made x := by
  rw [parseSignedLimit]
  by_cases minus : c = ascii '-'
  · rw [if_pos minus, parses]
    subst minus
    constructor
    · rintro ⟨x, reads, fits, rfl⟩
      exact ⟨_, .minus reads, fits, rfl⟩
    · rintro ⟨x, limit, fits, rfl⟩
      cases limit with
      | plain noMinus => exact absurd rfl noMinus
      | minus reads => exact ⟨_, reads, fits, rfl⟩
  · rw [if_neg minus, parses]
    constructor
    · rintro ⟨x, reads, fits, rfl⟩
      exact ⟨_, .plain minus reads, fits, rfl⟩
    · rintro ⟨x, limit, fits, rfl⟩
      cases limit with
      | plain noMinus reads => exact ⟨_, reads, fits, rfl⟩
      | minus => exact absurd rfl minus

theorem parseI32_length {bs : Bstr} {t rest : Bytes} {n : BitVec 32} (reads : parseI32 bs t = some (n, rest)) :
    rest.length < t.length := by
  obtain ⟨⟨x, r⟩, read, same⟩ := Option.map_eq_some_iff.mp reads
  cases same
  obtain ⟨text, rfl, ⟨digits, rfl, number, -⟩ | ⟨number, -⟩, -⟩ := (bs.toLong_iff _ _ _).mp read
  · simp only [List.length_append, List.length_cons]
    omega
  · have some_ := List.length_pos_iff.mpr number.1
    rw [List.length_append]
    omega

theorem parseRationalScalingArg_iff {bs : Bstr} {double : DoubleReader} (line : LineEnd) {t next : Bytes}
    {rss rss' : RationalScalingState} :
    parseRationalScalingArg bs double line.behind rss t = some (rss', next) ↔
      ScalingArgumentAt bs double rss t rss' next := by
  obtain ⟨range, offset, numerator, denominator, unit, argIndex⟩ := rss
  cases t with
  | nil =>
    constructor
    · intro parsed
      cases parsed
    · intro written
      cases written with
      | lower place limit => cases limit
      | upper place limit => cases limit
      | offset place reads some_ => exact absurd rfl some_
      | numerator place reads => exact absurd (parseI32_length reads) (Nat.not_lt_zero _)
      | denominator place reads => exact absurd (parseI32_length reads) (Nat.not_lt_zero _)
      | unit place string => cases string
  | cons c t =>
    rw [parseRationalScalingArg]
    dsimp only
    rw [Option.map_eq_some_iff]
    constructor
    · rintro ⟨⟨made, r⟩, result, same⟩
      cases same
      split at result
      · obtain ⟨⟨range, r⟩, limit, same⟩ := Option.map_eq_some_iff.mp result
        cases same
        obtain ⟨x, written, fits, rfl⟩ := (parseSignedLimit_cases (parseLowerLimit_iff line)).mp limit
        exact .lower rfl written fits
      · obtain ⟨⟨range, r⟩, limit, same⟩ := Option.map_eq_some_iff.mp result
        cases same
        obtain ⟨x, written, fits, rfl⟩ := (parseSignedLimit_cases (parseUpperLimit_iff line)).mp limit
        exact .upper rfl written fits
      · obtain ⟨⟨d, r⟩, reads, same⟩ := Option.map_eq_some_iff.mp result
        cases same
        exact .offset rfl reads (List.cons_ne_nil c t)
      · obtain ⟨⟨n, r⟩, reads, same⟩ := Option.map_eq_some_iff.mp result
        cases same
        exact .numerator rfl reads
      · obtain ⟨⟨n, r⟩, reads, same⟩ := Option.map_eq_some_iff.mp result
        cases same
        exact .denominator rfl reads
      · obtain ⟨⟨body, r⟩, found, same⟩ := Option.map_eq_some_iff.mp result
        cases same
        exact .unit rfl (argumentAt_string_iff.mpr found)
      · cases result
    · intro written
      cases written with
      | lower place limit fits =>
        cases place
        exact ⟨_, Option.map_eq_some_iff.mpr
          ⟨_, (parseSignedLimit_cases (parseLowerLimit_iff line)).mpr ⟨_, limit, fits, rfl⟩, rfl⟩, rfl⟩
      | upper place limit fits =>
        cases place
        exact ⟨_, Option.map_eq_some_iff.mpr
          ⟨_, (parseSignedLimit_cases (parseUpperLimit_iff line)).mpr ⟨_, limit, fits, rfl⟩, rfl⟩, rfl⟩
      | offset place reads some_ =>
        cases place
        exact ⟨_, Option.map_eq_some_iff.mpr ⟨_, reads, rfl⟩, rfl⟩
      | numerator place reads =>
        cases place
        exact ⟨_, Option.map_eq_some_iff.mpr ⟨_, reads, rfl⟩, rfl⟩
      | denominator place reads =>
        cases place
        exact ⟨_, Option.map_eq_some_iff.mpr ⟨_, reads, rfl⟩, rfl⟩
      | unit place string =>
        cases place
        exact ⟨_, Option.map_eq_some_iff.mpr ⟨_, argumentAt_string_iff.mp string, rfl⟩, rfl⟩

/-! Argument lists -/

theorem ArgumentAt.shorter {t rest : Bytes} {a : Argument} (written : ArgumentAt t a rest) :
    rest.length < t.length := by
  cases written with
  | plain digit reads =>
    exact (Strtoul.integer_shorter reads).1.trans_le (List.dropWhile_suffix _).length_le
  | minus reads =>
    have moved := (Strtoul.integer_shorter reads).1.trans_le (List.dropWhile_suffix _).length_le
    exact moved.trans (Nat.lt_succ_self _)
  | string closed =>
    simp only [List.length_cons, List.length_append]
    omega

theorem TableArgumentAt.shorter {vts vts' : ValueTableState} {t rest : Bytes}
    (written : TableArgumentAt vts t vts' rest) : rest.length < t.length := by
  cases written with
  | lower first count number fits => exact ArgumentAt.shorter number
  | upper first count number fits => exact ArgumentAt.shorter number
  | string string => exact ArgumentAt.shorter string

theorem ScalingLimitAt.shorter {t rest : Bytes} {x : WrittenNumber} (written : ScalingLimitAt t x rest) :
    rest.length < t.length := by
  cases written with
  | plain noMinus reads =>
    exact (Strtoul.integer_shorter reads).1.trans_le (List.dropWhile_suffix _).length_le
  | minus reads =>
    have moved := (Strtoul.integer_shorter reads).1.trans_le (List.dropWhile_suffix _).length_le
    exact moved.trans (Nat.lt_succ_self _)

theorem ScalingArgumentAt.shorter {bs : Bstr} {double : DoubleReader} {rss rss' : RationalScalingState} {t rest : Bytes}
    (written : ScalingArgumentAt bs double rss t rss' rest) : rest.length < t.length := by
  cases written with
  | lower place limit fits => exact ScalingLimitAt.shorter limit
  | upper place limit fits => exact ScalingLimitAt.shorter limit
  | offset place reads some_ => exact double.shorter reads
  | numerator place reads => exact parseI32_length reads
  | denominator place reads => exact parseI32_length reads
  | unit place string => exact ArgumentAt.shorter string

/-- What ends a line is no parenthesis. -/
theorem head_behind (line : LineEnd) : line.behind.head? ≠ some (ascii ')') := by
  obtain ⟨b, more, behind, ends⟩ := line.ends
  rw [behind, List.head?_cons]
  rcases ends with rfl | rfl | rfl <;> decide

section
variable {σ τ : Type} {bs : Bstr} {ArgAt : σ → Bytes → σ → Bytes → Prop}
  {parseArg : σ → Bytes → Option (σ × Bytes)} {create : σ → τ}

theorem parseArguments_complete (behind : Bytes) (create : σ → τ)
    (reads : ∀ {s t s' next}, ArgAt s t s' next → parseArg s t = some (s', next))
    (shorter : ∀ {s t s' next}, ArgAt s t s' next → next.length < t.length) {s s' : σ} {t rest : Bytes}
    (written : ArgumentsAt bs ArgAt s t s' rest) :
    parseArguments bs behind parseArg create s t = some (create s', some rest) := by
  induction written with
  | last first closes =>
    rw [parseArguments_first behind (reads first) (shorter first), closes]
    dsimp only
    rw [if_neg (by decide), if_pos rfl]
  | comma first comma later ih =>
    rw [parseArguments_first behind (reads first) (shorter first), comma]
    dsimp only
    rw [if_pos rfl, ih]
  | more first strip other later ih =>
    rw [parseArguments_first behind (reads first) (shorter first), strip]
    dsimp only
    rw [if_neg other.1, if_neg other.2, ih]

theorem parseArguments_sound (line : LineEnd) (parseArg : σ → Bytes → Option (σ × Bytes))
    (written : ∀ {s t s' next}, parseArg s t = some (s', next) → ArgAt s t s' next) {made : τ} {rest : Option Bytes}
    (bound : Nat) : ∀ {s : σ} {t : Bytes}, t.length ≤ bound →
      parseArguments bs line.behind parseArg create s t = some (made, rest) →
        ∃ s' r, rest = some r ∧ made = create s' ∧ ArgumentsAt bs ArgAt s t s' r := by
  induction bound with
  | zero =>
    intro s t short parsed
    obtain rfl := List.length_eq_zero_iff.mp (Nat.le_zero.mp short)
    rw [parseArguments, if_pos rfl] at parsed
    contradiction
  | succ bound ih =>
    intro s t short parsed
    cases first : parseArg s (lstrip bs t) with
    | none =>
      rw [parseArguments, first] at parsed
      split at parsed <;> contradiction
    | some pair =>
      obtain ⟨s', next⟩ := pair
      by_cases moved : next.length < (lstrip bs t).length
      · rw [parseArguments_first line.behind first moved] at parsed
        have strip := length_lstrip_le bs t
        cases behind : lstrip bs next with
        | nil =>
          rw [behind] at parsed
          dsimp only at parsed
          rw [if_neg (head_behind line)] at parsed
          contradiction
        | cons c t' =>
          have later := shorter_of_lstrip behind
          rw [behind] at parsed
          dsimp only at parsed
          split at parsed
          · next comma =>
            obtain ⟨s'', r, rfl, rfl, others⟩ := ih (by omega) parsed
            exact ⟨s'', r, rfl, rfl, .comma (written first) (comma ▸ behind) others⟩
          · next noComma =>
            split at parsed
            · next closes =>
              cases parsed
              exact ⟨s', t', rfl, rfl, .last (written first) (closes ▸ behind)⟩
            · next open_ =>
              obtain ⟨s'', r, rfl, rfl, others⟩ := ih (by rw [List.length_cons]; omega) parsed
              exact ⟨s'', r, rfl, rfl, .more (written first) behind ⟨noComma, open_⟩ others⟩
      · rw [parseArguments, first] at parsed
        split at parsed
        · contradiction
        · dsimp only at parsed
          rw [dif_neg moved] at parsed
          contradiction

end

/-! Attributes -/

theorem parseSingleTypeAttribute_complete {bs : Bstr} {double : DoubleReader} (line : LineEnd) {t rest : Bytes}
    {computation : Computation} (written : TypeAttributeAt bs double t computation rest) :
    parseSingleTypeAttribute bs double line.behind t = some (computation, some rest) := by
  rw [parseSingleTypeAttribute]
  cases written with
  | @valueTable t rest vts arguments =>
    have word : bs.matchCstr ("VT".toList.map ascii) ("VT(".toList.map ascii ++ t) = some (ascii '(' :: t) :=
      (bs.matchCstr_iff _ _ _).mpr rfl
    have list := parseArguments_complete line.behind createValueTableFromState
      (fun first => (@parseValueTableArg_iff bs line _ _ _ _).mpr first) (fun first => TableArgumentAt.shorter first)
      arguments
    rw [word]
    dsimp only
    rw [parseValueTable, if_pos rfl, list]
    rfl
  | @rationalScaling t rest rss arguments =>
    have noTable : bs.matchCstr ("VT".toList.map ascii) ("RS(".toList.map ascii ++ t) = none := by
      rw [Option.eq_none_iff_forall_ne_some]
      intro next found
      have text := (bs.matchCstr_iff _ _ _).mp found
      cases text
    have word : bs.matchCstr ("RS".toList.map ascii) ("RS(".toList.map ascii ++ t) = some (ascii '(' :: t) :=
      (bs.matchCstr_iff _ _ _).mpr rfl
    have list := parseArguments_complete line.behind createRationalScalingFromState
      (fun first => (parseRationalScalingArg_iff line).mpr first) (fun first => ScalingArgumentAt.shorter first)
      arguments
    rw [noTable, word]
    dsimp only
    rw [parseRationalScaling, if_pos rfl, list]

theorem parseSingleTypeAttribute_sound {bs : Bstr} {double : DoubleReader} (line : LineEnd) {t : Bytes}
    {computation : Computation} {rest : Option Bytes}
    (parsed : parseSingleTypeAttribute bs double line.behind t = some (computation, rest)) :
    ∃ r, rest = some r ∧ TypeAttributeAt bs double t computation r := by
  rw [parseSingleTypeAttribute] at parsed
  split at parsed
  · next next_ word =>
    obtain rfl := (bs.matchCstr_iff _ _ _).mp word
    obtain ⟨⟨vt, r⟩, table, same⟩ := Option.map_eq_some_iff.mp parsed
    cases same
    cases next_ with
    | nil => cases table
    | cons c list =>
      rw [parseValueTable] at table
      split at table
      · next opens =>
        obtain ⟨vts, r, rfl, rfl, arguments⟩ := parseArguments_sound line (parseValueTableArg bs line.behind)
          (fun first => (parseValueTableArg_iff line).mp first) _ (Nat.le_refl _) table
        subst opens
        exact ⟨r, rfl, .valueTable arguments⟩
      · cases table
  · split at parsed
    · next next_ word =>
      obtain rfl := (bs.matchCstr_iff _ _ _).mp word
      cases next_ with
      | nil => cases parsed
      | cons c list =>
        rw [parseRationalScaling] at parsed
        split at parsed
        · next opens =>
          obtain ⟨rss, r, rfl, rfl, arguments⟩ := parseArguments_sound line (parseRationalScalingArg bs double line.behind)
            (fun first => (parseRationalScalingArg_iff line).mp first) _ (Nat.le_refl _) parsed
          subst opens
          exact ⟨r, rfl, .rationalScaling arguments⟩
        · cases parsed
    · cases parsed

theorem ArgumentsAt.shorter {bs : Bstr} {σ : Type} {ArgAt : σ → Bytes → σ → Bytes → Prop}
    (shorter : ∀ {s t s' next}, ArgAt s t s' next → next.length < t.length) {s s' : σ} {t rest : Bytes}
    (written : ArgumentsAt bs ArgAt s t s' rest) : rest.length < t.length := by
  induction written with
  | @last s s' t next rest first closes =>
    have := shorter first
    have := length_lstrip_le bs t
    have := shorter_of_lstrip closes
    omega
  | @comma s s' s'' t next t' rest first comma later ih =>
    have := shorter first
    have := length_lstrip_le bs t
    have := shorter_of_lstrip comma
    omega
  | @more s s' s'' t next t' rest c first behind other later ih =>
    have := shorter first
    have := length_lstrip_le bs t
    have := shorter_of_lstrip behind
    rw [List.length_cons] at ih
    omega

theorem TypeAttributeAt.shorter {bs : Bstr} {double : DoubleReader} {t rest : Bytes} {computation : Computation}
    (written : TypeAttributeAt bs double t computation rest) : rest.length < t.length := by
  cases written with
  | valueTable arguments =>
    have := ArgumentsAt.shorter (fun first => TableArgumentAt.shorter first) arguments
    rw [List.length_append]
    omega
  | rationalScaling arguments =>
    have := ArgumentsAt.shorter (fun first => ScalingArgumentAt.shorter first) arguments
    rw [List.length_append]
    omega

variable {bs : Bstr} {double : DoubleReader}

theorem parseTypeAttributes_blank (behind : Bytes) (attr : List Computation) {t : Bytes} (blank : lstrip bs t = []) :
    parseTypeAttributes bs double behind attr t = .ok (attr, some []) := by
  rw [parseTypeAttributes]
  split
  · next nothing => rw [nothing]
  · split
    · rfl
    · next strip => rw [blank] at strip; contradiction

theorem parseTypeAttributes_broken (line : LineEnd) (attr : List Computation) {t : Bytes} (some_ : lstrip bs t ≠ [])
    (nothing : ∀ computation rest, ¬TypeAttributeAt bs double (lstrip bs t) computation rest) :
    parseTypeAttributes bs double line.behind attr t = .ok (attr, some (lstrip bs t)) := by
  have whole : t ≠ [] := by
    rintro rfl
    exact some_ (lstrip_nil bs)
  have fails : parseSingleTypeAttribute bs double line.behind (lstrip bs t) = none := by
    cases parsed : parseSingleTypeAttribute bs double line.behind (lstrip bs t) with
    | none => rfl
    | some pair =>
      obtain ⟨r, -, written⟩ := parseSingleTypeAttribute_sound line parsed
      exact absurd written (nothing _ _)
  rw [parseTypeAttributes, if_neg whole]
  split
  · next strip => exact absurd strip some_
  · next c next strip =>
    rw [strip] at fails ⊢
    rw [fails]

theorem parseTypeAttributes_first (line : LineEnd) (attr : List Computation) {t rest : Bytes}
    {computation : Computation} (first : TypeAttributeAt bs double (lstrip bs t) computation rest) :
    parseTypeAttributes bs double line.behind attr t =
      match lstrip bs rest with
      | [] => .ok (attr ++ [computation], some [])
      | d :: next =>
        if d = ascii ',' then parseTypeAttributes bs double line.behind (attr ++ [computation]) next
        else .ok (attr ++ [computation], none) := by
  have moved := TypeAttributeAt.shorter first
  have parses := parseSingleTypeAttribute_complete line first
  have whole : t ≠ [] := by
    rintro rfl
    rw [lstrip_nil] at moved
    exact absurd moved (Nat.not_lt_zero _)
  rw [parseTypeAttributes, if_neg whole]
  split
  · next strip =>
    rw [strip] at moved
    exact absurd moved (Nat.not_lt_zero _)
  · next c next strip =>
    rw [strip] at parses moved
    rw [parses]
    dsimp only
    rw [dif_pos moved]
    split
    · next separator => rw [separator]
    · next d after separator => rw [separator]

theorem parseTypeAttributes_complete (line : LineEnd) {attr attr' : List Computation} {t : Bytes}
    (written : TypeAttributesAt bs double attr t attr') :
    ∃ rest, parseTypeAttributes bs double line.behind attr t = .ok (attr', some rest) ∧
      (attr' = attr ∧ rest = lstrip bs t ∨ rest.length < t.length ∧ ∃ c, attr ++ [c] <+: attr') := by
  induction written with
  | @blank attr t nothing => exact ⟨[], parseTypeAttributes_blank _ attr nothing, .inl ⟨rfl, nothing.symm⟩⟩
  | @broken attr t nothing =>
    by_cases blank : lstrip bs t = []
    · exact ⟨[], parseTypeAttributes_blank _ attr blank, .inl ⟨rfl, blank.symm⟩⟩
    · exact ⟨_, parseTypeAttributes_broken line attr blank nothing, .inl ⟨rfl, rfl⟩⟩
  | @last attr computation t rest first ends =>
    have moved := TypeAttributeAt.shorter first
    have strip := length_lstrip_le bs t
    refine ⟨[], ?_, .inr ⟨by rw [List.length_nil]; omega, computation, List.prefix_refl _⟩⟩
    rw [parseTypeAttributes_first line attr first, ends]
  | @more attr attr' computation t rest t' first comma later ih =>
    have moved := TypeAttributeAt.shorter first
    have strip := length_lstrip_le bs t
    have behind := shorter_of_lstrip comma
    have strip' := length_lstrip_le bs t'
    obtain ⟨r, parses, ends⟩ := ih
    refine ⟨r, ?_, .inr ?_⟩
    · rw [parseTypeAttributes_first line attr first, comma]
      dsimp only
      rw [if_pos rfl, parses]
    · rcases ends with ⟨rfl, rfl⟩ | ⟨shorter, c, more⟩
      · exact ⟨by omega, computation, List.prefix_refl _⟩
      · exact ⟨by omega, computation, (List.prefix_append _ _).trans more⟩

/-- The loop comes to an end, and what it takes is attributes. -/
theorem parseTypeAttributes_sound (line : LineEnd) (bound : Nat) : ∀ {attr : List Computation} {t : Bytes},
    t.length ≤ bound → ∃ attr' next, parseTypeAttributes bs double line.behind attr t = .ok (attr', next) ∧
      (next ≠ none → TypeAttributesAt bs double attr t attr') := by
  induction bound with
  | zero =>
    intro attr t short
    obtain rfl := List.length_eq_zero_iff.mp (Nat.le_zero.mp short)
    exact ⟨attr, _, parseTypeAttributes_blank _ attr (lstrip_nil bs), fun _ => .blank (lstrip_nil bs)⟩
  | succ bound ih =>
    intro attr t short
    by_cases blank : lstrip bs t = []
    · exact ⟨attr, _, parseTypeAttributes_blank _ attr blank, fun _ => .blank blank⟩
    · by_cases first : ∃ computation rest, TypeAttributeAt bs double (lstrip bs t) computation rest
      · obtain ⟨computation, rest, first⟩ := first
        have moved := TypeAttributeAt.shorter first
        have strip := length_lstrip_le bs t
        rw [parseTypeAttributes_first line attr first]
        cases separator : lstrip bs rest with
        | nil => exact ⟨_, _, rfl, fun _ => .last first separator⟩
        | cons d t' =>
          dsimp only
          by_cases comma : d = ascii ','
          · have behind := shorter_of_lstrip separator
            obtain ⟨attr', next, parses, later⟩ := @ih (attr ++ [computation]) t' (by omega)
            rw [if_pos comma]
            exact ⟨attr', next, parses, fun some_ => .more first (comma ▸ separator) (later some_)⟩
          · rw [if_neg comma]
            exact ⟨_, _, rfl, fun some_ => absurd rfl some_⟩
      · have nothing : ∀ computation rest, ¬TypeAttributeAt bs double (lstrip bs t) computation rest :=
          fun computation rest written => first ⟨computation, rest, written⟩
        exact ⟨attr, _, parseTypeAttributes_broken line attr blank nothing, fun _ => .broken nothing⟩

end AttributeParser

/-- The parser takes exactly these texts, whatever ends their line. No attribute ends behind the line. -/
theorem stateParseTypeAttributes_iff {bs : Bstr} {double : DoubleReader} (line : LineEnd)
    (lastError : Option ApxError) {t : Bytes} (some_ : t ≠ []) :
    (∃ answer, stateParseTypeAttributes bs double line lastError t = .ok answer) ∧
      ∀ attr, stateParseTypeAttributes bs double line lastError t = .ok (.ok attr) ↔
        TypeAttributesText bs double t attr := by
  obtain ⟨attr', next, parses, written⟩ :=
    @AttributeParser.parseTypeAttributes_sound bs double line _ [] t (Nat.le_refl t.length)
  rw [stateParseTypeAttributes, parses, errorAt, if_neg some_]
  constructor
  · cases next with
    | none => exact ⟨_, rfl⟩
    | some rest =>
      dsimp only
      split
      · exact ⟨_, rfl⟩
      · exact ⟨_, rfl⟩
  · intro attr
    constructor
    · intro accepted
      cases next with
      | none => cases accepted
      | some rest =>
        have written := written (Option.some_ne_none rest)
        obtain ⟨rest', parses', ends⟩ := AttributeParser.parseTypeAttributes_complete line written
        rw [parses] at parses'
        cases parses'
        dsimp only at accepted
        split at accepted
        · next moved =>
          cases accepted
          refine ⟨written, fun none_ => ?_⟩
          rcases ends with ⟨-, rfl⟩ | ⟨-, c, more⟩
          · exact moved
          · rw [none_] at more
            exact absurd (List.prefix_nil.mp more) (List.append_ne_nil_of_right_ne_nil _ (List.cons_ne_nil c []))
        · cases accepted
    · rintro ⟨written, moved⟩
      obtain ⟨rest, parses', ends⟩ := AttributeParser.parseTypeAttributes_complete line written
      rw [parses] at parses'
      cases parses'
      dsimp only
      rw [if_pos]
      rcases ends with ⟨rfl, rfl⟩ | ⟨shorter, -⟩
      · exact moved rfl
      · exact shorter

end Apx
