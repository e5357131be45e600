import Apx.PortAttributes

/-! The attributes of a type and the parser for them (attribute_parser.c, type_attribute.c, parser.c) -/

namespace Apx

/-- bstr_to_double, which is not part of this repository: the word of the number that a text starts with, and what
stands behind it -/
structure DoubleReader where
  toDouble : Bytes → Option (BitVec 64 × Bytes)
  shorter : ∀ {t rest : Bytes} {x : BitVec 64}, toDouble t = some (x, rest) → rest.length < t.length

open Bstr

def ValueTable.toComputation (vt : ValueTable) : Computation :=
  .valueTable ⟨vt.base.isSignedRange, vt.base.lowerLimit, vt.base.upperLimit⟩ vt.values

/-- apx_attributeParserRationalScalingState_t. The offset stands as the word of its double. -/
structure RationalScalingState where
  range : Range := {}
  offset : BitVec 64 := 0
  numerator : BitVec 32 := 0
  denominator : BitVec 32 := 0
  unit : Option CString := none
  argIndex : Nat := 0
  deriving DecidableEq, Repr

namespace AttributeParser

/-- A limit of a rational scaling: its minus sign is taken off before the number is read. -/
def parseSignedLimit (parse : Bytes → Bool → Range → Option (Range × Bytes)) (range : Range) (c : Byte) (next : Bytes) :
    Option (Range × Bytes) :=
  if c = ascii '-' then parse next true range else parse (c :: next) false range

/-- apx_attributeParser_parse_rational_scaling_arg; `none` where it does not move the pointer on. -/
def parseRationalScalingArg (bs : Bstr) (double : DoubleReader) (behind : Bytes) (rss : RationalScalingState) :
    Bytes → Option (RationalScalingState × Bytes)
  | [] => none
  | c :: next =>
    let result : Option (RationalScalingState × Bytes) :=
      match rss.argIndex with
      | 0 => (parseSignedLimit (parseLowerLimit behind) rss.range c next).map fun (range, next) =>
          ({ rss with range := range }, next)
      | 1 => (parseSignedLimit (parseUpperLimit behind) rss.range c next).map fun (range, next) =>
          ({ rss with range := range }, next)
      | 2 => (double.toDouble (c :: next)).map fun (d, next) => ({ rss with offset := d }, next)
      | 3 => (parseI32 bs (c :: next)).map fun (i32, next) => ({ rss with numerator := i32 }, next)
      | 4 => (parseI32 bs (c :: next)).map fun (i32, next) => ({ rss with denominator := i32 }, next)
      | 5 => (bs.matchPair (c :: next)).map fun (unit, next) => ({ rss with unit := some (CString.ofBytes unit) }, next)
      | _ => none
    result.map fun (rss, next) => ({ rss with argIndex := rss.argIndex + 1 }, next)

/-- apx_attributeParser_create_rational_scaling_from_state -/
def createRationalScalingFromState (rss : RationalScalingState) : Computation :=
  .rationalScaling ⟨rss.range.isSignedRange, rss.range.lower, rss.range.upper⟩ rss.offset rss.numerator
    rss.denominator rss.unit

/-- apx_attributeParser_parse_rational_scaling, behind the RS -/
def parseRationalScaling (bs : Bstr) (double : DoubleReader) (behind : Bytes) :
    Bytes → Option (Computation × Option Bytes)
  | [] => none
  | c :: next => if c = ascii '(' then
      parseArguments bs behind (parseRationalScalingArg bs double behind) createRationalScalingFromState {} next
    else none

/-- apx_attributeParser_parse_single_type_attribute: the computation and the text behind it; `none` is the null
pointer. -/
def parseSingleTypeAttribute (bs : Bstr) (double : DoubleReader) (behind t : Bytes) :
    Option (Computation × Option Bytes) :=
  match bs.matchCstr ("VT".toList.map ascii) t with
  | some next => (parseValueTable bs behind next).map fun (vt, next) => (vt.toComputation, next)
  | none =>
    match bs.matchCstr ("RS".toList.map ascii) t with
    | some next => parseRationalScaling bs double behind next
    | none => none

/-- apx_attributeParser_parse_type_attributes: the computations, and where the parser stands at the end; `none` is the
null pointer. It is an assert that no attribute ends behind the line. -/
def parseTypeAttributes (bs : Bstr) (double : DoubleReader) (behind : Bytes) (attr : List Computation)
    (t : Bytes) : Except Failure (List Computation × Option Bytes) :=
  if t = [] then .ok (attr, some t)
  else
    match _strip : lstrip bs t with
    | [] => .ok (attr, some [])
    | c :: next =>
      match parseSingleTypeAttribute bs double behind (c :: next) with
      | none => .ok (attr, some (c :: next))
      | some (_, none) => .error .assertion
      | some (computation, some result) =>
        if _moved : result.length < (c :: next).length then
          match _separator : lstrip bs result with
          | [] => .ok (attr ++ [computation], some [])
          | d :: next =>
            if d = ascii ',' then parseTypeAttributes bs double behind (attr ++ [computation]) next
            else .ok (attr ++ [computation], none)
        else .ok (attr, some (c :: next))
  termination_by t.length
  decreasing_by
    have strip := congrArg List.length _strip ▸ length_lstrip_le bs t
    have separator := congrArg List.length _separator ▸ length_lstrip_le bs result
    rw [List.length_cons] at strip _moved separator
    omega

end AttributeParser

/-- state_parse_type_attributes, for a type with the empty attributes that apx_dataType_init_attributes has made, and a
parser with this last error -/
def stateParseTypeAttributes (bs : Bstr) (double : DoubleReader) (line : LineEnd) (lastError : Option ApxError)
    (t : Bytes) : Except Failure (Except ApxError (List Computation)) :=
  match AttributeParser.parseTypeAttributes bs double line.behind [] t with
  | .error failure => .error failure
  | .ok (attr, some result) =>
    if result.length < t.length then .ok (.ok attr)
    else
      match errorAt lastError t with
      | none => .ok (.ok attr)
      | some error => .ok (.error error)
  | .ok (_, none) => .ok (.error .parse)

end Apx
