import Apx.Finalize
import Apx.InputStream
import Apx.NodeBuild
import Apx.SignatureParser
import Apx.TypeAttributes

/-! The parser for the definition of a node (parser.c, with what it calls in node.c) -/

namespace Apx

open Bstr

/-- APX_MAX_NAME_LEN -/
def maxNameLen : Nat := 256

/-- What the parser uses of other code, what stands in memory behind each line, and how deep its calls may nest -/
structure ParserSetting where
  bs : Bstr
  double : DoubleReader
  lineEnd : BitVec 32 → LineEnd
  depth : Nat

/-- apx_definition_section_t -/
inductive DefinitionSection where
  | version | node | type | port
  deriving DecidableEq, Repr

/-- apx_parse_state_t, without the element, type and port of the line that is being parsed -/
structure ParseState where
  acceptNext : DefinitionSection := .version
  majorVersion : BitVec 32 := 0
  minorVersion : BitVec 32 := 0
  lineno : BitVec 32 := 0
  node : Option NodeDeclaration := none
  deriving Repr

namespace NodeDeclaration

/-- apx_node_append_data_type -/
def appendDataType (node : NodeDeclaration) (type : DataType) : Option ApxError × NodeDeclaration :=
  if node.dataTypes.any fun other => other.name = type.name then (some .typeAlreadyExist, node)
  else (none, { node with dataTypes := node.dataTypes ++ [type] })

/-- apx_node_append_port. The names of both types of ports are in one map. -/
def appendPort (node : NodeDeclaration) (portType : PortType) (port : PortDeclaration) :
    Option ApxError × NodeDeclaration :=
  if (node.providePorts ++ node.requirePorts).any fun other => other.name = port.name then
    (some .portAlreadyExist, node)
  else
    match portType with
    | .provide => (none, { node with providePorts := node.providePorts ++ [port] })
    | .require => (none, { node with requirePorts := node.requirePorts ++ [port] })

end NodeDeclaration

/-- What state_parse_data_signature returns, the element that it leaves in the state, and the last error of the
signature parser -/
structure SignatureAnswer where
  error : Option ApxError
  dataElement : Option DataElement
  lastError : Option ApxError

/-- state_parse_data_signature. Where the signature parser stays at the start, its last error is returned, and that is
no error for an empty text. -/
def stateParseDataSignature (bs : Bstr) (t : Bytes) : Except Failure SignatureAnswer :=
  match SignatureParser.parseDataSignature bs t with
  | .fail failure _ => .error failure
  | .ok none self => .ok ⟨self.errorCode, none, self.errorCode⟩
  | .ok (some rest) self =>
    if rest.length < t.length then
      if rest = [] then
        match self.takeDataElement with
        | some e => .ok ⟨none, some e, self.errorCode⟩
        | none => .error .assertion
      else .ok ⟨some .strayCharactersAfterParse, none, self.errorCode⟩
    else .ok ⟨self.errorCode, none, self.errorCode⟩

/-- The name that state_make_node and its three siblings copy -/
def makeName (name : Bytes) : Except ApxError CString :=
  if name.length > maxNameLen then .error .nameTooLong else .ok (CString.ofBytes name)

/-- The call of bstr_search_val behind a name: the text of the signature, and that of the attributes where there are
some -/
def signatureParts (bs : Bstr) (t : Bytes) : Bytes × Option Bytes :=
  match bs.searchVal t (ascii ':') with
  | some (signature, attributes) => if signature = [] then (t, none) else (signature, some attributes)
  | none => (t, none)

def portTypeOf (c : Byte) : Option PortType :=
  if c = ascii 'R' then some .require else if c = ascii 'P' then some .provide else none

namespace ParseState

/-- parser_accept_version_line -/
def acceptVersionLine (bs : Bstr) (state : ParseState) (t : Bytes) : Option ApxError × ParseState :=
  match bs.matchCstr ("APX/".toList.map ascii) t with
  | none => (some .parse, state)
  | some next =>
    match parseI32 bs next with
    | none => (some .parse, state)
    | some (majorVersion, next) =>
      let state := { state with majorVersion := majorVersion }
      match next with
      | [] => (some .parse, state)
      | c :: next =>
        if c = ascii '.' ∧ next ≠ [] then
          match parseI32 bs next with
          | none => (some .parse, state)
          | some (minorVersion, next) =>
            let state := { state with minorVersion := minorVersion }
            if next = [] then (none, { state with acceptNext := .node })
            else (some .strayCharactersAfterParse, state)
        else (some .parse, state)

/-- parser_accept_node_declaration -/
def acceptNodeDeclaration (bs : Bstr) (state : ParseState) (t : Bytes) : Option ApxError × ParseState :=
  match t with
  | [] => (some .parse, state)
  | c :: next =>
    if c = ascii 'N' ∧ next ≠ [] then
      match bs.matchPair next with
      | none => (some .parse, state)
      | some (name, next) =>
        match makeName name with
        | .error error => (some error, state)
        | .ok name =>
          let state := { state with node := some { name := name } }
          if next = [] then (none, { state with acceptNext := .type })
          else (some .strayCharactersAfterParse, state)
    else (some .parse, state)

/-- apx_node_append_data_type on the node of the state, whose result is not looked at -/
def keepDataType (state : ParseState) (type : DataType) : ParseState :=
  { state with node := state.node.map fun node => (node.appendDataType type).2 }

/-- apx_node_append_port on the node of the state, whose result is not looked at -/
def keepPort (state : ParseState) (portType : PortType) (port : PortDeclaration) : ParseState :=
  { state with node := state.node.map fun node => (node.appendPort portType port).2 }

/-- parser_accept_type_declaration. Whatever goes wrong in the signature or the attributes, the last error of the
signature parser is returned. -/
def acceptTypeDeclaration (setting : ParserSetting) (state : ParseState) (t : Bytes) :
    Except Failure (Option ApxError × ParseState) :=
  match t with
  | [] => .ok (some .parse, state)
  | c :: next =>
    if state.node.isNone then .error .assertion
    else if c = ascii 'T' ∧ next ≠ [] then
      match setting.bs.matchPair next with
      | none => .ok (some .parse, state)
      | some (name, next) =>
        match makeName name with
        | .error error => .ok (some error, state)
        | .ok name =>
          match stateParseDataSignature setting.bs (signatureParts setting.bs next).1 with
          | .error failure => .error failure
          | .ok ⟨some _, _, lastError⟩ => .ok (lastError, state)
          | .ok ⟨none, dataElement, lastError⟩ =>
            let type : DataType :=
              { name := name, dataElement := dataElement, lineNumber := state.lineno.toInt }
            match (signatureParts setting.bs next).2 with
            | none => .ok (none, state.keepDataType type)
            | some [] => .ok (some .parse, state)
            | some attributes =>
              match stateParseTypeAttributes setting.bs setting.double (setting.lineEnd state.lineno) none
                attributes with
              | .error failure => .error failure
              | .ok (.error _) => .ok (lastError, state)
              | .ok (.ok attr) => .ok (none, state.keepDataType { type with attributes := some attr })
    else .ok (some .parse, state)

/-- parser_accept_port_declaration -/
def acceptPortDeclaration (setting : ParserSetting) (state : ParseState) (t : Bytes) :
    Except Failure (Option ApxError × ParseState) :=
  match t with
  | [] => .ok (some .parse, state)
  | c :: next =>
    if next = [] then .ok (some .parse, state)
    else
      match portTypeOf c with
      | none => .ok (some .parse, state)
      | some portType =>
        match setting.bs.matchPair next with
        | none => .ok (some .parse, state)
        | some (name, next) =>
          match makeName name with
          | .error error => .ok (some error, state)
          | .ok name =>
            match stateParseDataSignature setting.bs (signatureParts setting.bs next).1 with
            | .error failure => .error failure
            | .ok ⟨some error, _, _⟩ => .ok (some error, state)
            | .ok ⟨none, dataElement, _⟩ =>
              let port : PortDeclaration :=
                { name := name, dataElement := dataElement, lineNumber := state.lineno.toInt }
              match (signatureParts setting.bs next).2 with
              | none => .ok (none, state.keepPort portType port)
              | some [] => .ok (some .parse, state)
              | some attributes =>
                match stateParsePortAttributes setting.bs (setting.lineEnd state.lineno) none attributes with
                | .error error => .ok (some error, state)
                | .ok attr => .ok (none, state.keepPort portType { port with attributes := some attr })

/-- parser_accept_type_or_port_declaration -/
def acceptTypeOrPortDeclaration (setting : ParserSetting) (state : ParseState) (t : Bytes) :
    Except Failure (Option ApxError × ParseState) :=
  match t with
  | [] => .ok (some .parse, state)
  | c :: next =>
    if next = [] then .ok (some .parse, state)
    else if c = ascii 'T' then state.acceptTypeDeclaration setting (c :: next)
    else
      match state.acceptPortDeclaration setting (c :: next) with
      | .error failure => .error failure
      | .ok (some error, state) => .ok (some error, state)
      | .ok (none, state) => .ok (none, { state with acceptNext := .port })

/-- The switch of parser_on_new_line -/
def acceptLine (setting : ParserSetting) (state : ParseState) (t : Bytes) :
    Except Failure (Option ApxError × ParseState) :=
  match state.acceptNext with
  | .version => .ok (state.acceptVersionLine setting.bs t)
  | .node => .ok (state.acceptNodeDeclaration setting.bs t)
  | .type => state.acceptTypeOrPortDeclaration setting t
  | .port => state.acceptPortDeclaration setting t

end ParseState

/-- apx_parser_t, whose stream is the one that calls it. The parsers for signatures and attributes are left out: each
of their calls starts afresh, and the last error of an earlier call is only seen with an empty text. -/
structure Parser where
  state : ParseState := {}
  lastError : Option ApxError := none
  lastErrorLine : Int := 0
  deriving Repr

namespace Parser

/-- parser_set_error -/
def setError (self : Parser) (errorCode : ApxError) (errorLine : Int) : Parser :=
  { self with lastError := some errorCode, lastErrorLine := errorLine }

/-- parser_reset -/
def reset (_ : Parser) : Parser := {}

/-- parser_on_open -/
def onOpen (self : Parser) : Option ApxError × Parser := (none, self.reset)

/-- parser_on_new_line -/
def onNewLine (setting : ParserSetting) (self : Parser) (line : Bytes) : Except Failure (Option ApxError × Parser) :=
  let self := { self with state := { self.state with lineno := self.state.lineno + 1 } }
  if line = [] then .ok (none, self)
  else
    match self.state.acceptLine setting line with
    | .error failure => .error failure
    | .ok (none, state) => .ok (none, { self with state := state })
    | .ok (some error, state) =>
        .ok (some error, { self with state := state }.setError error state.lineno.toInt)

/-- parser_on_close, which returns an error also where there is none. What apx_node_finalize has done before an error
is left out. -/
def onClose (setting : ParserSetting) (self : Parser) : Nested (Option ApxError × Parser) :=
  match self.state.node with
  | none => some (.ok (self.lastError, self))
  | some node =>
    match node.finalize setting.depth with
    | none => none
    | some (.error ⟨.code error, line⟩) => some (.ok (some .nullPtr, self.setError error line))
    | some (.error ⟨failure, _⟩) => some (.error failure)
    | some (.ok node) => some (.ok (some .nullPtr, { self with state := { self.state with node := some node } }))

/-- A handler function of the parser. It is not reached behind a call that has not returned. -/
def handle (f : Parser → Nested (Option ApxError × Parser)) : Nested Parser → Option ApxError × Nested Parser
  | some (.ok self) =>
    match f self with
    | some (.ok (error, self)) => (error, some (.ok self))
    | some (.error failure) => (none, some (.error failure))
    | none => (none, none)
  | stopped => (none, stopped)

/-- parser_init_handler -/
def handler (setting : ParserSetting) : IstreamHandler (Nested Parser) where
  «open» := some (handle fun self => some (.ok self.onOpen))
  close := some (handle fun self => self.onClose setting)
  newLine := some fun self line => handle (fun self => some (self.onNewLine setting line)) self

/-- apx_parser_create, with the stream that it is given -/
def create {β : Type} (calls : ByteArrayCalls β) (setting : ParserSetting) : Istream β (Nested Parser) :=
  Istream.create calls (handler setting) (some (.ok {}))

/-- The call of parser_reset in apx_parser_parse_bstr -/
def resetHandle : Nested Parser → Nested Parser
  | some (.ok self) => some (.ok self.reset)
  | stopped => stopped

/-- apx_parser_parse_bstr, as what it does to the stream of the parser. The size of the text is cut to
32 bits. -/
def parseBstr {β : Type} (bstrSearchVal : Bytes → Byte → Nat) (calls : ByteArrayCalls β)
    (stream : Istream β (Nested Parser)) (t : Bytes) : Option (Istream β (Nested Parser)) := do
  let stream := { stream with arg := resetHandle stream.arg }
  let stream := stream.open
  let stream ←
    if 0 < t.length then Istream.write bstrSearchVal calls stream (t.take (t.length % 2 ^ 32)) else some stream
  some (stream.close calls)

/-- apx_parser_take_last_node -/
def takeLastNode (self : Parser) : Option NodeDeclaration × Parser :=
  (self.state.node, { self with state := { self.state with node := none } })

end Parser

end Apx
