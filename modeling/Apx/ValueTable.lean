import Apx.Strtoul

/-! Value tables: their argument lists (attribute_parser.c) and their text (computation.c). A pointer into a line
stands as the text from there to the end of the line; `behind` is the memory behind the line, which strtoul does
not know to be outside. -/

namespace Apx

open Bstr

/-- apx_range_t. The two unions hold int32_t or uint32_t. -/
structure Range where
  isSignedRange : Bool := false
  lower : BitVec 32 := 0
  upper : BitVec 32 := 0
  deriving DecidableEq, Repr

/-- apx_computation_t, without its functions -/
structure ComputationBase where
  isSignedRange : Bool := false
  lowerLimit : BitVec 32 := 0
  upperLimit : BitVec 32 := 0
  deriving DecidableEq, Repr

/-- apx_valueTable_t -/
structure ValueTable where
  base : ComputationBase := {}
  values : List Bytes := []
  deriving DecidableEq, Repr

/-- computation_limit_to_string -/
def ComputationBase.limitToString (base : ComputationBase) : Bytes :=
  if base.isSignedRange then signedDecimal base.lowerLimit.toInt ++ ascii ',' :: signedDecimal base.upperLimit.toInt
  else decimal base.lowerLimit.toNat ++ ascii ',' :: decimal base.upperLimit.toNat

namespace ValueTable

/-- The loop of apx_valueTable_to_string over the values -/
def valuesToString : List Bytes → Bytes
  | [] => []
  | [value] => DataElement.quoted value
  | value :: rest => DataElement.quoted value ++ ascii ',' :: valuesToString rest

/-- apx_valueTable_to_string -/
def toString (vt : ValueTable) : Bytes :=
  ascii 'V' :: ascii 'T' :: ascii '(' :: (vt.base.limitToString ++ ascii ',' :: (valuesToString vt.values ++ [ascii ')']))

end ValueTable

/-- apx_attributeParserValueTableState_t -/
structure ValueTableState where
  range : Range := {}
  values : List Bytes := []
  numCount : Nat := 0
  lastWasString : Bool := false
  deriving DecidableEq, Repr

namespace AttributeParser

/-- A call of strtoul and the tests behind it: a number that starts at `t` and does not go beyond the line -/
def unsignedLong (behind t : Bytes) : Option (BitVec 64 × Bytes) :=
  match Strtoul.strtoul (t ++ behind) with
  | none => none
  | some (value, rest) =>
    if behind.length ≤ rest.length then some (value, rest.take (rest.length - behind.length)) else none

/-- apx_attributeParser_parse_lower_limit; `none` is the null pointer. The minus sign goes to the low 32 bits. -/
def parseLowerLimit (behind t : Bytes) (unaryMinus : Bool) (range : Range) : Option (Range × Bytes) :=
  match unsignedLong behind t with
  | none => none
  | some (value, next) =>
    let tmp := value.setWidth 32
    if unaryMinus then
      if tmp > 0x80000000#32 then none else some ({ range with lower := -tmp, isSignedRange := true }, next)
    else some ({ range with lower := tmp }, next)

/-- apx_attributeParser_parse_upper_limit -/
def parseUpperLimit (behind t : Bytes) (unaryMinus : Bool) (range : Range) : Option (Range × Bytes) :=
  match unsignedLong behind t with
  | none => none
  | some (value, next) =>
    let tmp := value.setWidth 32
    if unaryMinus then
      if !range.isSignedRange then none
      else if tmp > 0x80000000#32 then none
      else some ({ range with upper := -tmp }, next)
    else if range.isSignedRange then
      if tmp ≥ 0x80000000#32 then none else some ({ range with upper := tmp }, next)
    else some ({ range with upper := tmp }, next)

/-- The number of an argument list whose text, behind its minus sign, starts at `t` -/
def parseValueTableNumber (behind t : Bytes) (unaryMinus : Bool) (vts : ValueTableState) :
    Option (ValueTableState × Bytes) :=
  let result :=
    if vts.numCount = 0 then parseLowerLimit behind t unaryMinus vts.range
    else if vts.numCount = 1 then parseUpperLimit behind t unaryMinus vts.range
    else none
  result.map fun (range, next) => ({ vts with range := range, numCount := vts.numCount + 1 }, next)

/-- The string of an argument list that starts at `t` -/
def parseValueTableString (bs : Bstr) (t : Bytes) (vts : ValueTableState) : Option (ValueTableState × Bytes) :=
  (bs.matchPair t).map fun (value, next) => ({ vts with values := vts.values ++ [value], lastWasString := true }, next)

/-- apx_attributeParser_parse_value_table_arg; `none` where it does not move the pointer on. -/
def parseValueTableArg (bs : Bstr) (behind : Bytes) (vts : ValueTableState) : Bytes → Option (ValueTableState × Bytes)
  | [] => none
  | c :: next =>
    if vts.lastWasString then
      if c = quote then parseValueTableString bs (c :: next) vts else none
    else if c = quote then parseValueTableString bs (c :: next) vts
    else if c = ascii '-' then parseValueTableNumber behind next true vts
    else if isDigit c then parseValueTableNumber behind (c :: next) false vts
    else none

/-- The loop of apx_attributeParser_create_value_table_from_state that counts the upper limit up -/
def countUpperLimit (isSignedRange : Bool) : Nat → BitVec 32 → BitVec 32 → BitVec 32
  | 0, _, upper => upper
  | n + 1, index, upper =>
    let upper :=
      if isSignedRange then if upper.slt index then index else upper
      else if upper.ult index then index else upper
    countUpperLimit isSignedRange n (index + 1) upper

/-- apx_attributeParser_create_value_table_from_state -/
def createValueTableFromState (vts : ValueTableState) : ValueTable :=
  let autoUpperLimit := decide (vts.numCount ≤ 1)
  let base : ComputationBase :=
    if vts.numCount > 0 then
      ⟨vts.range.isSignedRange, vts.range.lower, if autoUpperLimit then vts.range.lower else vts.range.upper⟩
    else {}
  let base :=
    if autoUpperLimit then
      { base with
        upperLimit := countUpperLimit vts.range.isSignedRange vts.values.length base.lowerLimit base.upperLimit }
    else base
  ⟨base, vts.values⟩

/-- The loop of apx_attributeParser_parse_value_table and of apx_attributeParser_parse_rational_scaling: what is
created of the arguments, and the text behind the list. The result is `none` where the function does not move on. The
byte behind an argument is also looked at when the line has ended; a parenthesis there is taken, and the list ends
behind the line, which is the inner `none`. -/
def parseArguments {σ τ : Type} (bs : Bstr) (behind : Bytes) (parseArg : σ → Bytes → Option (σ × Bytes))
    (create : σ → τ) (state : σ) (t : Bytes) : Option (τ × Option Bytes) :=
  if t = [] then none
  else
    match parseArg state (lstrip bs t) with
    | none => none
    | some (state, next) =>
      if _moved : next.length < (lstrip bs t).length then
        match _strip : lstrip bs next with
        | [] => if behind.head? = some (ascii ')') then some (create state, none) else none
        | c :: next =>
          if c = ascii ',' then parseArguments bs behind parseArg create state next
          else if c = ascii ')' then some (create state, some next)
          else parseArguments bs behind parseArg create state (c :: next)
      else none
  termination_by t.length
  decreasing_by
    all_goals
      have first := length_lstrip_le bs t
      have second := congrArg List.length _strip ▸ length_lstrip_le bs _
      simp only [List.length_cons] at second ⊢
      omega

/-- The loop stands in front of an argument. -/
theorem parseArguments_first {σ τ : Type} {bs : Bstr} {parseArg : σ → Bytes → Option (σ × Bytes)} {create : σ → τ}
    (behind : Bytes) {s s' : σ} {t next : Bytes}
    (first : parseArg s (lstrip bs t) = some (s', next)) (moved : next.length < (lstrip bs t).length) :
    parseArguments bs behind parseArg create s t =
      match lstrip bs next with
      | [] => if behind.head? = some (ascii ')') then some (create s', none) else none
      | c :: next =>
        if c = ascii ',' then parseArguments bs behind parseArg create s' next
        else if c = ascii ')' then some (create s', some next)
        else parseArguments bs behind parseArg create s' (c :: next) := by
  have some_ : t ≠ [] := by
    rintro rfl
    rw [lstrip_nil] at moved
    exact absurd moved (Nat.not_lt_zero _)
  rw [parseArguments, if_neg some_, first]
  dsimp only
  rw [dif_pos moved]
  split
  · next strip => rw [strip]
  · next c rest strip => rw [strip]

/-- apx_attributeParser_parse_value_table, behind the VT -/
def parseValueTable (bs : Bstr) (behind : Bytes) : Bytes → Option (ValueTable × Option Bytes)
  | [] => none
  | c :: next =>
    if c = ascii '(' then parseArguments bs behind (parseValueTableArg bs behind) createValueTableFromState {} next
    else none

end AttributeParser

end Apx
