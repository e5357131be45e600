import Apx.ByteText
import Apx.Port

/-! The parser for data signatures (signature_parser.c, with parser_base.c). A pointer into the text stands
as the text from there on; `none` is the null pointer. -/

namespace Apx

open Bstr

/-- apx_parserBase_parse_i32, which takes the low 32 bits of a long -/
def parseI32 (bs : Bstr) (t : Bytes) : Option (BitVec 32 × Bytes) :=
  (bs.toLong t).map fun (x, rest) => (BitVec.ofInt 32 x, rest)

/-- apx_parserBase_parse_u32, which takes the low 32 bits of an unsigned long -/
def parseU32 (bs : Bstr) (t : Bytes) : Option (BitVec 32 × Bytes) :=
  (bs.toUnsignedLong t).map fun (n, rest) => (BitVec.ofNat 32 n, rest)

/-- apx_parserBase_parse_i64 -/
def parseI64 (bs : Bstr) (t : Bytes) : Option (BitVec 64 × Bytes) :=
  (bs.toLong t).map fun (x, rest) => (BitVec.ofInt 64 x, rest)

/-- apx_parserBase_parse_u64 -/
def parseU64 (bs : Bstr) (t : Bytes) : Option (BitVec 64 × Bytes) :=
  (bs.toUnsignedLong t).map fun (n, rest) => (BitVec.ofNat 64 n, rest)

/-- bstr_make_cstr, as a string that ends at the first zero -/
def CString.ofBytes (b : Bytes) : CString where
  bytes := b.takeWhile fun c => c ≠ 0
  noZero := fun mem => by simpa using List.all_eq_true.mp List.all_takeWhile 0 mem

namespace DataElement

/-- apx_dataElement_set_name_bstr -/
def setName (name : CString) : DataElement → DataElement
  | .leaf _ code arrayLen isDynamic limits => .leaf (some name) code arrayLen isDynamic limits
  | .record _ arrayLen isDynamic elements => .record (some name) arrayLen isDynamic elements
  | .refId _ arrayLen isDynamic id => .refId (some name) arrayLen isDynamic id
  | .refName _ arrayLen isDynamic typeName => .refName (some name) arrayLen isDynamic typeName
  | .refPtr _ arrayLen isDynamic target => .refPtr (some name) arrayLen isDynamic target

/-- apx_dataElement_set_array_length -/
def setArrayLength (e : DataElement) (arrayLen : UInt32) : DataElement := e.setArray arrayLen false

/-- apx_dataElement_set_dynamic_array -/
def setDynamicArray (e : DataElement) : DataElement := e.setArray e.arrayLen true

/-- apx_dataElement_set_limits_int32 and its three siblings. Those for 32 bits write the low half of the
unions. -/
def setLimits (e : DataElement) (limits : Limits) : DataElement :=
  match e with
  | .leaf name code arrayLen isDynamic _ => .leaf name code arrayLen isDynamic (some limits)
  | other => other

/-- apx_dataElement_set_type_ref_id -/
def setTypeRefId (e : DataElement) (id : UInt32) : DataElement :=
  .refId e.getName e.arrayLen e.isDynamicArray id

/-- apx_dataElement_set_type_ref_name_bstr -/
def setTypeRefName (e : DataElement) (name : CString) : DataElement :=
  .refName e.getName e.arrayLen e.isDynamicArray name

/-- apx_dataElement_append_child -/
def appendChild (e child : DataElement) : DataElement :=
  match e with
  | .record name arrayLen isDynamic elements => .record name arrayLen isDynamic (elements ++ [child])
  | other => other

end DataElement

/-- apx_signatureParserState_t -/
structure SignatureParserState where
  isRecord : Bool
  dataElement : Option DataElement := none
  deriving Repr

/-- apx_signatureParser_t -/
structure SignatureParser where
  state : SignatureParserState
  errorCode : Option ApxError := none
  errorPos : Option Bytes := none
  deriving Repr

/-- What a function of the parser does: it moves the pointer on and works on the parser in place. -/
abbrev ParseStep := Result SignatureParser (Option Bytes)

namespace SignatureParser

/-- apx_signatureParser_set_error, with the null pointer that is returned behind it -/
def setError (self : SignatureParser) (errorCode : ApxError) (errorPos : Bytes) : ParseStep :=
  .ok none { self with errorCode := some errorCode, errorPos := some errorPos }

/-- apx_signatureParser_parse_array, as a function of the element in the state of the parser -/
def parseArray (bs : Bstr) (element : Option DataElement) (t : Bytes) :
    Option DataElement × Option Bytes :=
  match t with
  | [] => (element, some [])
  | c :: next =>
    if c ≠ ascii '[' then (element, some (c :: next))
    else
      match lstrip bs next with
      | [] => (element, none)
      | d :: next =>
        match parseU32 bs (d :: next) with
        | none => (element, none)
        | some (arrayLen, next) =>
          let element := element.map fun e => e.setArrayLength (UInt32.ofBitVec arrayLen)
          match lstrip bs next with
          | [] => (element, none)
          | d :: next =>
            if d = ascii '*' then
              let element := element.map fun e => e.setDynamicArray
              match lstrip bs next with
              | [] => (element, none)
              | d :: next => if d ≠ ascii ']' then (element, none) else (element, some next)
            else if d ≠ ascii ']' then (element, none)
            else (element, some next)

/-- The four functions for limits, which differ in the numbers they parse -/
def parseLimits (bs : Bstr) (number : Bytes → Option (BitVec 64 × Bytes))
    (element : Option DataElement) (t : Bytes) : Option DataElement × Option Bytes :=
  match t with
  | [] => (element, some [])
  | c :: next =>
    if c ≠ ascii '(' then (element, some (c :: next))
    else
      match lstrip bs next with
      | [] => (element, none)
      | d :: next =>
        match number (d :: next) with
        | none => (element, none)
        | some (lower, next) =>
          match lstrip bs next with
          | [] => (element, none)
          | d :: next =>
            if d ≠ ascii ',' then (element, none)
            else
              match lstrip bs next with
              | [] => (element, none)
              | d :: next =>
                match number (d :: next) with
                | none => (element, none)
                | some (upper, next) =>
                  let element := element.map fun e => e.setLimits ⟨lower, upper⟩
                  match lstrip bs next with
                  | [] => (element, none)
                  | d :: next => if d ≠ ascii ')' then (element, none) else (element, some next)

/-- A number of 32 bits in the low half of a limit -/
def lowHalf (number : Bytes → Option (BitVec 32 × Bytes)) (t : Bytes) : Option (BitVec 64 × Bytes) :=
  (number t).map fun (x, rest) => (x.setWidth 64, rest)

/-- apx_signatureParser_parse_limits_i32 -/
def parseLimitsI32 (bs : Bstr) := parseLimits bs (lowHalf (parseI32 bs))

/-- apx_signatureParser_parse_limits_u32 -/
def parseLimitsU32 (bs : Bstr) := parseLimits bs (lowHalf (parseU32 bs))

/-- apx_signatureParser_parse_limits_i64 -/
def parseLimitsI64 (bs : Bstr) := parseLimits bs (parseI64 bs)

/-- apx_signatureParser_parse_limits_u64 -/
def parseLimitsU64 (bs : Bstr) := parseLimits bs (parseU64 bs)

/-- apx_signatureParser_parse_type_reference -/
def parseTypeReference (bs : Bstr) (element : Option DataElement) (t : Bytes) :
    Option DataElement × Option Bytes :=
  match t with
  | [] => (element, some [])
  | c :: next =>
    if c ≠ ascii '[' then (element, some (c :: next))
    else
      match lstrip bs next with
      | [] => (element, none)
      | d :: next =>
        let parsed := if d = quote then
            (bs.matchPair (d :: next)).map fun (name, next) =>
              (element.map fun e => e.setTypeRefName (CString.ofBytes name), next)
          else
            (parseU32 bs (d :: next)).map fun (id, next) =>
              (element.map fun e => e.setTypeRefId (UInt32.ofBitVec id), next)
        match parsed with
        | none => (element, none)
        | some (element, next) =>
          match lstrip bs next with
          | [] => (element, none)
          | d :: next => if d ≠ ascii ']' then (element, none) else (element, some next)

/-- The cases of the switch in apx_signatureParser_parse_data_element -/
inductive Token where
  | record
  | leaf (code : LeafCode)
  | typeReference
  | group
  | function
  | unknown
  deriving DecidableEq

def tokens : List (Byte × Token) :=
  [(ascii '{', .record), (ascii '[', .group), (ascii '(', .function), (ascii 'a', .leaf .char),
   (ascii 'A', .leaf .char8), (ascii 'b', .leaf .bool), (ascii 'B', .leaf .byte), (ascii 'c', .leaf .int8),
   (ascii 'C', .leaf .uint8), (ascii 'l', .leaf .int32), (ascii 'L', .leaf .uint32), (ascii 'q', .leaf .int64),
   (ascii 'Q', .leaf .uint64), (ascii 's', .leaf .int16), (ascii 'S', .leaf .uint16),
   (ascii 'T', .typeReference), (ascii 'u', .leaf .char16), (ascii 'U', .leaf .char32)]

def token (c : Byte) : Token := (tokens.lookup c).getD .unknown

/-- The limits that the switch asks for: is_signed_type, is_64_bit_type and check_limits -/
def parseLimitsOf (bs : Bstr) (code : LeafCode) (element : Option DataElement) (t : Bytes) :
    Option DataElement × Option Bytes :=
  match code with
  | .byte | .uint8 | .uint16 | .uint32 => parseLimitsU32 bs element t
  | .int8 | .int16 | .int32 => parseLimitsI32 bs element t
  | .int64 => parseLimitsI64 bs element t
  | .uint64 => parseLimitsU64 bs element t
  | _ => (element, some t)

/-- apx_dataElement_new, with the name of a field -/
def newElement (name : Option Bytes) (e : DataElement) : DataElement :=
  match name with
  | none => e
  | some name => e.setName (CString.ofBytes name)

def withElement (self : SignatureParser) (element : Option DataElement) : SignatureParser :=
  { self with state := { self.state with dataElement := element } }

/-- The end of apx_signatureParser_parse_data_element, from apx_signatureParser_parse_array on -/
def finishElement (bs : Bstr) (self : SignatureParser) (t : Bytes) : ParseStep :=
  match parseArray bs self.state.dataElement t with
  | (element, none) => (self.withElement element).setError .parse t
  | (element, some next) => .ok (some next) (self.withElement element)

/-- apx_signatureParser_parse_data_element behind the name of a field. The loop over the fields of a record
is given; it is not entered at the end of the text. -/
def parseElementBody (bs : Bstr)
    (parseFields : SignatureParserState → SignatureParser → Bytes → ParseStep)
    (self : SignatureParser) (begin_ : Bytes) (name : Option Bytes) : Bytes → ParseStep
  | [] => .ok (some begin_) self
  | c :: next =>
    match token c with
    | .group => self.setError .notImplemented (c :: next)
    | .function => self.setError .notImplemented (c :: next)
    | .unknown => self.setError .parse (c :: next)
    | .typeReference =>
      match parseTypeReference bs (some (newElement name (.refId none 0 false 0))) next with
      | (element, some rest) =>
          if rest.length < next.length then finishElement bs (self.withElement element) rest
          else (self.withElement element).setError .parse next
      | (element, none) => (self.withElement element).setError .parse next
    | .leaf code =>
      match parseLimitsOf bs code (some (newElement name (.leaf none code 0 false none))) next with
      | (element, none) => (self.withElement element).setError .parse next
      | (element, some rest) => finishElement bs (self.withElement element) rest
    | .record =>
      let parent := { self.state with dataElement := some (newElement name (.record none 0 false [])) }
      let self := { self with state := ⟨true, none⟩ }
      match next with
      | [] => finishElement bs self []
      | d :: next =>
        match parseFields parent self (d :: next) with
        | .fail failure self => .fail failure self
        | .ok none self => .ok none self
        | .ok (some rest) self => finishElement bs self rest

mutual

/-- apx_signatureParser_parse_data_element. Every call and every pass of the loop takes a byte, so that
twice the length of the text bounds them. -/
def parseDataElement (bs : Bstr) : Nat → SignatureParser → Bytes → ParseStep
  | 0, self, _ => .fail .assertion self
  | fuel + 1, self, t =>
    if self.state.isRecord then
      match bs.matchPair t with
      | none => self.setError .parse t
      | some (name, next) => parseElementBody bs (parseFields bs fuel) self t (some name) next
    else parseElementBody bs (parseFields bs fuel) self t none t

/-- The loop of apx_signatureParser_parse_data_element over the fields of a record. The state of the record
itself is `parent`. -/
def parseFields (bs : Bstr) : Nat → SignatureParserState → SignatureParser → Bytes → ParseStep
  | 0, _, self, _ => .fail .assertion self
  | fuel + 1, parent, self, t =>
    match parseDataElement bs fuel self t with
    | .fail failure self => .fail failure self
    | .ok none self => setError { self with state := parent } .parse t
    | .ok (some rest) self =>
      if rest.length < t.length then
        match parent.dataElement, self.state.dataElement with
        | some record, some child =>
          let parent := { parent with dataElement := some (record.appendChild child) }
          match rest with
          | [] => setError { self with state := parent } .parse []
          | c :: next =>
            if c = ascii '}' then .ok (some next) { self with state := parent }
            else parseFields bs fuel parent (self.withElement none) (c :: next)
        | _, _ => .fail .assertion self
      else setError { self with state := parent } .parse t

end

/-- apx_signatureParser_parse_data_signature -/
def parseDataSignature (bs : Bstr) (t : Bytes) : ParseStep :=
  parseDataElement bs (2 * t.length + 1) ⟨⟨false, none⟩, none, none⟩ t

/-- apx_signatureParser_take_data_element -/
def takeDataElement (self : SignatureParser) : Option DataElement := self.state.dataElement

end SignatureParser

end Apx
