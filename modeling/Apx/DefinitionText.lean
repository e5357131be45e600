import Apx.DefinitionGrammar
import Apx.FinalizeTerminates

/-! Definitions as whole texts: the parser accepts a text if and only if it is a definition, and leaves the node that is
declared in it. -/

namespace Apx

open Bstr

/-- The lines that are not empty, with their numbers -/
def numberedFrom (n : Nat) : List Bytes → List (Nat × Bytes)
  | [] => []
  | line :: rest => if line = [] then numberedFrom (n + 1) rest else (n, line) :: numberedFrom (n + 1) rest

/-- A line number as an int32_t -/
def lineNumber (n : Nat) : Int := (BitVec.ofNat 32 n).toInt

/-- The lines that declare ports, with the node before and after them. A port whose name is taken is left out. -/
inductive PortSection (bs : Bstr) : NodeDeclaration → List (Nat × Bytes) → NodeDeclaration → Prop
  | ended {node : NodeDeclaration} : PortSection bs node [] node
  | port {node node' : NodeDeclaration} {n : Nat} {line : Bytes} {rest : List (Nat × Bytes)} {portType : PortType}
      {name : CString} {e : Option DataElement} {attr : Option PortAttributes}
      (declares : PortLine bs line portType name e attr)
      (later : PortSection bs (node.appendPort portType
        { name := name, dataElement := e, attributes := attr, lineNumber := lineNumber n }).2 rest node') :
      PortSection bs node ((n, line) :: rest) node'

/-- The lines that declare types, and behind them those that declare ports -/
inductive TypeSection (bs : Bstr) (double : DoubleReader) :
    NodeDeclaration → List (Nat × Bytes) → NodeDeclaration → Prop
  | ports {node node' : NodeDeclaration} {lines : List (Nat × Bytes)} (ports : PortSection bs node lines node') :
      TypeSection bs double node lines node'
  | type {node node' : NodeDeclaration} {n : Nat} {line : Bytes} {rest : List (Nat × Bytes)} {name : CString}
      {e : Option DataElement} {attr : Option (List Computation)} (declares : TypeLine bs double line name e attr)
      (later : TypeSection bs double (node.appendDataType
        { name := name, dataElement := e, attributes := attr, lineNumber := lineNumber n }).2 rest node') :
      TypeSection bs double node ((n, line) :: rest) node'
  | lost {node node' : NodeDeclaration} {n : Nat} {line : Bytes} {rest : List (Nat × Bytes)}
      (lost : LostTypeLine bs double line) (later : TypeSection bs double node rest node') :
      TypeSection bs double node ((n, line) :: rest) node'

/-- The line with the name of the node, and what is declared behind it -/
inductive NodeSection (bs : Bstr) (double : DoubleReader) : List (Nat × Bytes) → Option NodeDeclaration → Prop
  | ended : NodeSection bs double [] none
  | node {n : Nat} {line : Bytes} {name : CString} {rest : List (Nat × Bytes)} {node : NodeDeclaration}
      (named : NodeLine line name) (declarations : TypeSection bs double { name := name } rest node) :
      NodeSection bs double ((n, line) :: rest) (some node)

/-- The lines of a definition, and the node that is declared. There is none where the lines end before its name. -/
inductive DefinitionText (bs : Bstr) (double : DoubleReader) :
    List (Nat × Bytes) → Option NodeDeclaration → Prop
  | ended : DefinitionText bs double [] none
  | version {n : Nat} {line : Bytes} {major minor : BitVec 32} {rest : List (Nat × Bytes)}
      {node : Option NodeDeclaration} (version : VersionLine line major minor)
      (later : NodeSection bs double rest node) : DefinitionText bs double ((n, line) :: rest) node

/-- The lines are those of a definition, whatever it declares. -/
def IsDefinition (bs : Bstr) (double : DoubleReader) (lines : List Bytes) : Prop :=
  ∃ node, DefinitionText bs double (numberedFrom 1 lines) node

namespace Parser
variable {setting : ParserSetting}

def nextLine (self : Parser) : Parser := { self with state := { self.state with lineno := self.state.lineno + 1 } }

theorem acceptLines_empty (self : Parser) (rest : List Bytes) :
    acceptLines setting self ([] :: rest) = acceptLines setting self.nextLine rest := by
  rw [acceptLines, onNewLine, if_pos rfl]
  rfl

theorem acceptLines_cons {self self' : Parser} {line : Bytes} (some_ : line ≠ []) (rest : List Bytes) :
    acceptLines setting self (line :: rest) = .ok (none, self') ↔
      ∃ state, self.nextLine.state.acceptLine setting line = .ok (none, state) ∧
        acceptLines setting { self with state := state } rest = .ok (none, self') := by
  have folded : ({ self with state := { self.state with lineno := self.state.lineno + 1 } } : Parser) =
      self.nextLine := rfl
  rw [acceptLines, onNewLine, if_neg some_, folded]
  cases self.nextLine.state.acceptLine setting line with
  | error failure =>
    constructor
    · intro accepted
      cases accepted
    · rintro ⟨state, same, -⟩
      cases same
  | ok answer =>
    obtain ⟨error, state⟩ := answer
    cases error with
    | some error =>
      constructor
      · intro accepted
        cases accepted
      · rintro ⟨state, same, -⟩
        cases same
    | none =>
      constructor
      · intro accepted
        exact ⟨state, rfl, accepted⟩
      · rintro ⟨state', same, accepted⟩
        cases same
        exact accepted

/-- The parser stands behind `n` lines and has got to `node`. -/
structure At (section_ : DefinitionSection) (n : Nat) (node : Option NodeDeclaration) (parser : Parser) : Prop where
  acceptNext : parser.state.acceptNext = section_
  lineno : parser.state.lineno = BitVec.ofNat 32 n
  node : parser.state.node = node

theorem At.nextLine {section_ : DefinitionSection} {n : Nat} {node : Option NodeDeclaration} {self : Parser}
    (here : At section_ n node self) : At section_ (n + 1) node self.nextLine where
  acceptNext := here.acceptNext
  lineno := by
    change self.state.lineno + 1 = _
    rw [here.lineno, BitVec.ofNat_add]
    rfl
  node := here.node

theorem acceptLines_ports {n : Nat} {node : NodeDeclaration} {last : Option NodeDeclaration} {self : Parser}
    (here : At .port n (some node) self) (lines : List Bytes) :
    (∃ self', acceptLines setting self lines = .ok (none, self') ∧ self'.state.node = last) ↔
      ∃ node', last = some node' ∧ PortSection setting.bs node (numberedFrom (n + 1) lines) node' := by
  induction lines generalizing n node self with
  | nil =>
    constructor
    · rintro ⟨self', same, rfl⟩
      cases same
      exact ⟨node, here.node, .ended⟩
    · rintro ⟨node', rfl, ports⟩
      cases ports
      exact ⟨self, rfl, here.node⟩
  | cons line rest ih =>
    by_cases empty : line = []
    · subst empty
      rw [numberedFrom, if_pos rfl, acceptLines_empty]
      exact ih here.nextLine
    · have step {portType : PortType} {port : PortDeclaration} :
          At .port (n + 1) (some (node.appendPort portType port).2)
            { self with state := self.nextLine.state.keepPort portType port } := by
        refine ⟨here.acceptNext, here.nextLine.lineno, ?_⟩
        change Option.map _ self.state.node = _
        rw [here.node]
        rfl
      have accepts : self.nextLine.state.acceptLine setting line =
          self.nextLine.state.acceptPortDeclaration setting line := by
        rw [ParseState.acceptLine, here.nextLine.acceptNext]
      have number : self.nextLine.state.lineno.toInt = lineNumber (n + 1) :=
        congrArg BitVec.toInt here.nextLine.lineno
      rw [numberedFrom, if_neg empty]
      simp only [acceptLines_cons empty, accepts]
      constructor
      · rintro ⟨self', ⟨state, accepted, later⟩, is⟩
        obtain ⟨portType, name, e, attr, declares, rfl⟩ := ParseState.acceptPortDeclaration_iff.mp accepted
        rw [number] at later
        obtain ⟨node', same, later⟩ := (ih step).mp ⟨self', later, is⟩
        exact ⟨node', same, .port declares later⟩
      · rintro ⟨node', rfl, ports⟩
        cases ports with
        | port declares later =>
          obtain ⟨self', later, is⟩ := (ih step).mpr ⟨node', rfl, later⟩
          refine ⟨self', ⟨_, ParseState.acceptPortDeclaration_iff.mpr ⟨_, _, _, _, declares, rfl⟩, ?_⟩, is⟩
          rw [number]
          exact later

theorem portTypeOf_ne {c : Byte} {portType : PortType} (letter : portTypeOf c = some portType) : c ≠ ascii 'T' := by
  rintro rfl
  cases letter

theorem acceptTypeOrPortDeclaration_iff {state state' : ParseState} {t : Bytes} (some_ : state.node.isSome) :
    state.acceptTypeOrPortDeclaration setting t = .ok (none, state') ↔
      ((∃ name e attr, TypeLine setting.bs setting.double t name e attr ∧ state' = state.keepDataType
          { name := name, dataElement := e, attributes := attr, lineNumber := state.lineno.toInt }) ∨
        LostTypeLine setting.bs setting.double t ∧ state' = state) ∨
      ∃ portType name e attr, PortLine setting.bs t portType name e attr ∧
        state' = { state.keepPort portType
          { name := name, dataElement := e, attributes := attr, lineNumber := state.lineno.toInt }
          with acceptNext := .port } := by
  rw [← ParseState.acceptTypeDeclaration_iff some_]
  constructor
  · intro accepted
    cases t with
    | nil => cases accepted
    | cons c next =>
      rw [ParseState.acceptTypeOrPortDeclaration] at accepted
      split at accepted
      · cases accepted
      · split at accepted
        · exact .inl accepted
        · split at accepted
          · cases accepted
          · cases accepted
          · next made declared =>
            cases accepted
            obtain ⟨portType, name, e, attr, declares, rfl⟩ := ParseState.acceptPortDeclaration_iff.mp declared
            exact .inr ⟨portType, name, e, attr, declares, rfl⟩
  · rintro (declared | ⟨portType, name, e, attr, declares, rfl⟩)
    · have starts : ∃ next, t = ascii 'T' :: next ∧ next ≠ [] := by
        rcases (ParseState.acceptTypeDeclaration_iff some_).mp declared with ⟨_, _, _, line, -⟩ | ⟨line, -⟩ <;>
          cases line <;> exact ⟨_, rfl, List.cons_ne_nil _ _⟩
      obtain ⟨next, rfl, more⟩ := starts
      rw [ParseState.acceptTypeOrPortDeclaration, if_neg more, if_pos rfl, declared]
    · have declared := (@ParseState.acceptPortDeclaration_iff setting state _ _).mpr
        ⟨portType, name, e, attr, declares, rfl⟩
      have starts : ∃ c next, t = c :: next ∧ next ≠ [] ∧ c ≠ ascii 'T' := by
        cases declares with
        | plain letter => exact ⟨_, _, rfl, List.cons_ne_nil _ _, portTypeOf_ne letter⟩
        | attributes letter => exact ⟨_, _, rfl, List.cons_ne_nil _ _, portTypeOf_ne letter⟩
      obtain ⟨c, next, rfl, more, other⟩ := starts
      rw [ParseState.acceptTypeOrPortDeclaration, if_neg more, if_neg other, declared]

theorem acceptLines_types {n : Nat} {node : NodeDeclaration} {last : Option NodeDeclaration} {self : Parser}
    (here : At .type n (some node) self) (lines : List Bytes) :
    (∃ self', acceptLines setting self lines = .ok (none, self') ∧ self'.state.node = last) ↔
      ∃ node', last = some node' ∧
        TypeSection setting.bs setting.double node (numberedFrom (n + 1) lines) node' := by
  induction lines generalizing n node self with
  | nil =>
    constructor
    · rintro ⟨self', same, rfl⟩
      cases same
      exact ⟨node, here.node, .ports .ended⟩
    · rintro ⟨node', rfl, declared⟩
      cases declared with
      | ports ports =>
        cases ports
        exact ⟨self, rfl, here.node⟩
  | cons line rest ih =>
    by_cases empty : line = []
    · subst empty
      rw [numberedFrom, if_pos rfl, acceptLines_empty]
      exact ih here.nextLine
    · have some_ : self.nextLine.state.node.isSome := by
        rw [here.nextLine.node]
        rfl
      have type {type : DataType} : At .type (n + 1) (some (node.appendDataType type).2)
          { self with state := self.nextLine.state.keepDataType type } := by
        refine ⟨here.acceptNext, here.nextLine.lineno, ?_⟩
        change Option.map _ self.state.node = _
        rw [here.node]
        rfl
      have port {portType : PortType} {port : PortDeclaration} :
          At .port (n + 1) (some (node.appendPort portType port).2)
            { self with state := { self.nextLine.state.keepPort portType port with acceptNext := .port } } := by
        refine ⟨rfl, here.nextLine.lineno, ?_⟩
        change Option.map _ self.state.node = _
        rw [here.node]
        rfl
      have accepts : self.nextLine.state.acceptLine setting line =
          self.nextLine.state.acceptTypeOrPortDeclaration setting line := by
        rw [ParseState.acceptLine, here.nextLine.acceptNext]
      have number : self.nextLine.state.lineno.toInt = lineNumber (n + 1) :=
        congrArg BitVec.toInt here.nextLine.lineno
      rw [numberedFrom, if_neg empty]
      simp only [acceptLines_cons empty, accepts]
      constructor
      · rintro ⟨self', ⟨state, accepted, later⟩, is⟩
        rcases (acceptTypeOrPortDeclaration_iff some_).mp accepted with
          (⟨name, e, attr, declares, rfl⟩ | ⟨lost, rfl⟩) | ⟨portType, name, e, attr, declares, rfl⟩
        · rw [number] at later
          obtain ⟨node', same, later⟩ := (ih type).mp ⟨self', later, is⟩
          exact ⟨node', same, .type declares later⟩
        · obtain ⟨node', same, later⟩ := (ih here.nextLine).mp ⟨self', later, is⟩
          exact ⟨node', same, .lost lost later⟩
        · rw [number] at later
          obtain ⟨node', same, later⟩ := (acceptLines_ports port rest).mp ⟨self', later, is⟩
          exact ⟨node', same, .ports (.port declares later)⟩
      · rintro ⟨node', rfl, declared⟩
        cases declared with
        | ports ports =>
          cases ports with
          | port declares later =>
            obtain ⟨self', later, is⟩ := (acceptLines_ports port rest).mpr ⟨node', rfl, later⟩
            refine ⟨self', ⟨_, (acceptTypeOrPortDeclaration_iff some_).mpr (.inr ⟨_, _, _, _, declares, rfl⟩), ?_⟩, is⟩
            rw [number]
            exact later
        | type declares later =>
          obtain ⟨self', later, is⟩ := (ih type).mpr ⟨node', rfl, later⟩
          refine ⟨self',
            ⟨_, (acceptTypeOrPortDeclaration_iff some_).mpr (.inl (.inl ⟨_, _, _, declares, rfl⟩)), ?_⟩, is⟩
          rw [number]
          exact later
        | lost lost later =>
          obtain ⟨self', later, is⟩ := (ih here.nextLine).mpr ⟨node', rfl, later⟩
          exact ⟨self', ⟨_, (acceptTypeOrPortDeclaration_iff some_).mpr (.inl (.inr ⟨lost, rfl⟩)), later⟩, is⟩

theorem acceptLines_node {n : Nat} {last : Option NodeDeclaration} {self : Parser} (here : At .node n none self)
    (lines : List Bytes) :
    (∃ self', acceptLines setting self lines = .ok (none, self') ∧ self'.state.node = last) ↔
      NodeSection setting.bs setting.double (numberedFrom (n + 1) lines) last := by
  induction lines generalizing n self with
  | nil =>
    constructor
    · rintro ⟨self', same, rfl⟩
      cases same
      rw [here.node]
      exact .ended
    · intro declared
      cases declared
      exact ⟨self, rfl, here.node⟩
  | cons line rest ih =>
    by_cases empty : line = []
    · subst empty
      rw [numberedFrom, if_pos rfl, acceptLines_empty]
      exact ih here.nextLine
    · have step {name : CString} : At .type (n + 1) (some { name := name })
          { self with state := { self.nextLine.state with acceptNext := .type, node := some { name := name } } } :=
        ⟨rfl, here.nextLine.lineno, rfl⟩
      have accepts : self.nextLine.state.acceptLine setting line =
          .ok (self.nextLine.state.acceptNodeDeclaration setting.bs line) := by
        rw [ParseState.acceptLine, here.nextLine.acceptNext]
      rw [numberedFrom, if_neg empty]
      simp only [acceptLines_cons empty, accepts, Except.ok.injEq]
      constructor
      · rintro ⟨self', ⟨state, accepted, later⟩, is⟩
        obtain ⟨name, named, rfl⟩ := ParseState.acceptNodeDeclaration_iff.mp accepted
        obtain ⟨node', rfl, declarations⟩ := (acceptLines_types step rest).mp ⟨self', later, is⟩
        exact .node named declarations
      · intro declared
        cases declared with
        | node named declarations =>
          obtain ⟨self', later, is⟩ := (acceptLines_types step rest).mpr ⟨_, rfl, declarations⟩
          exact ⟨self', ⟨_, ParseState.acceptNodeDeclaration_iff.mpr ⟨_, named, rfl⟩, later⟩, is⟩

theorem acceptLines_version {n : Nat} {last : Option NodeDeclaration} {self : Parser} (here : At .version n none self)
    (lines : List Bytes) :
    (∃ self', acceptLines setting self lines = .ok (none, self') ∧ self'.state.node = last) ↔
      DefinitionText setting.bs setting.double (numberedFrom (n + 1) lines) last := by
  induction lines generalizing n self with
  | nil =>
    constructor
    · rintro ⟨self', same, rfl⟩
      cases same
      rw [here.node]
      exact .ended
    · intro declared
      cases declared
      exact ⟨self, rfl, here.node⟩
  | cons line rest ih =>
    by_cases empty : line = []
    · subst empty
      rw [numberedFrom, if_pos rfl, acceptLines_empty]
      exact ih here.nextLine
    · have step {major minor : BitVec 32} : At .node (n + 1) none
          { self with state := { self.nextLine.state with
            acceptNext := .node, majorVersion := major, minorVersion := minor } } :=
        ⟨rfl, here.nextLine.lineno, here.node⟩
      have accepts : self.nextLine.state.acceptLine setting line =
          .ok (self.nextLine.state.acceptVersionLine setting.bs line) := by
        rw [ParseState.acceptLine, here.nextLine.acceptNext]
      rw [numberedFrom, if_neg empty]
      simp only [acceptLines_cons empty, accepts, Except.ok.injEq]
      constructor
      · rintro ⟨self', ⟨state, accepted, later⟩, is⟩
        obtain ⟨major, minor, version, rfl⟩ := ParseState.acceptVersionLine_iff.mp accepted
        exact .version version ((acceptLines_node step rest).mp ⟨self', later, is⟩)
      · intro declared
        cases declared with
        | version version later =>
          obtain ⟨self', later, is⟩ := (acceptLines_node step rest).mpr later
          exact ⟨self', ⟨_, ParseState.acceptVersionLine_iff.mpr ⟨_, _, version, rfl⟩, later⟩, is⟩

/-- The lines are accepted if and only if they are those of a definition, and the node is the one that is declared. -/
theorem acceptLines_iff {lines : List Bytes} {node : Option NodeDeclaration} :
    (∃ self, acceptLines setting {} lines = .ok (none, self) ∧ self.state.node = node) ↔
      DefinitionText setting.bs setting.double (numberedFrom 1 lines) node :=
  acceptLines_version ⟨rfl, rfl, rfl⟩ lines

end Parser

end Apx
