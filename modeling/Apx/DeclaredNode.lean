import Apx.DefinitionParsing
import Apx.SignatureText

/-! What holds of every node that the parser of definitions comes to: it is fit to be finalized, no name is declared
twice, and the declarations stand in the order of their lines. -/

namespace Apx

open Bstr

section
variable {bs : Bstr} {w : Nat}

theorem parsed_setName {e : DataElement} {name : CString} (parsed : e.Parsed) : (e.setName name).Parsed := by
  cases e with
  | leaf => trivial
  | record => exact parsed
  | refId => trivial
  | refName => trivial
  | refPtr => exact parsed

mutual

/-- The elements of signatures are as the derivation of types expects them. -/
theorem parsed_of_signature {t rest : Bytes} {e : DataElement} : Signature bs w t e rest → e.Parsed
  | .leaf .. => trivial
  | .record fields _ => parsedFields_of_signatures fields
  | .refId .. => trivial
  | .refName .. => trivial

theorem parsedFields_of_signatures {t rest : Bytes} {elements : List DataElement} :
    FieldSignatures bs w t elements rest → DataElement.ParsedFields elements
  | .last _ signature =>
    ⟨⟨by rw [DataElement.getName_setName]; nofun, parsed_setName (parsed_of_signature signature)⟩, trivial⟩
  | .more _ signature fields =>
    ⟨⟨by rw [DataElement.getName_setName]; nofun, parsed_setName (parsed_of_signature signature)⟩,
      parsedFields_of_signatures fields⟩

end

end

theorem signatureText_parsed {bs : Bstr} {t : Bytes} {e : Option DataElement} {attributes : Option Bytes}
    (written : SignatureText bs t e attributes) : ∀ e', e = some e' → e'.Parsed := by
  cases written with
  | bare => nofun
  | plain signature noColon =>
    rintro e' ⟨⟩
    exact parsed_of_signature signature
  | attributes signature noColon some_ =>
    rintro e' ⟨⟩
    exact parsed_of_signature signature

namespace NodeDeclaration

/-- What holds of a node that is being declared -/
structure WellDeclared (node : NodeDeclaration) : Prop where
  parsed : node.Parsed
  typeNames : (node.dataTypes.map fun type => type.name).Nodup
  portNames : ((node.providePorts ++ node.requirePorts).map fun port => port.name).Nodup
  typeLines : node.dataTypes.Pairwise fun first second => first.lineNumber < second.lineNumber
  provideLines : node.providePorts.Pairwise fun first second => first.lineNumber < second.lineNumber
  requireLines : node.requirePorts.Pairwise fun first second => first.lineNumber < second.lineNumber
  sections : ∀ type ∈ node.dataTypes, ∀ port ∈ node.providePorts ++ node.requirePorts,
    type.lineNumber < port.lineNumber

/-- All that is declared stands in front of a line. -/
structure DeclaredBefore (node : NodeDeclaration) (line : Int) : Prop where
  types : ∀ type ∈ node.dataTypes, type.lineNumber < line
  ports : ∀ port ∈ node.providePorts ++ node.requirePorts, port.lineNumber < line

variable {node node' : NodeDeclaration}

theorem wellDeclared_name (name : CString) : ({ name := name } : NodeDeclaration).WellDeclared where
  parsed := ⟨nofun, nofun, nofun, rfl⟩
  typeNames := List.nodup_nil
  portNames := List.nodup_nil
  typeLines := .nil
  provideLines := .nil
  requireLines := .nil
  sections := nofun

theorem pairwise_snoc {α : Type} {R : α → α → Prop} {l : List α} (ordered : l.Pairwise R) {last : α}
    (before : ∀ other ∈ l, R other last) : (l ++ [last]).Pairwise R := by
  rw [List.pairwise_append]
  refine ⟨ordered, List.pairwise_singleton R last, ?_⟩
  intro other mem last' same
  rw [List.mem_singleton.mp same]
  exact before other mem

theorem nodup_snoc {α β : Type} {f : α → β} {l : List α} (distinct : (l.map f).Nodup) {last : α}
    (fresh : ∀ other ∈ l, f other ≠ f last) : ((l ++ [last]).map f).Nodup := by
  rw [List.map_append]
  refine pairwise_snoc distinct ?_
  intro other mem
  obtain ⟨x, inside, rfl⟩ := List.mem_map.mp mem
  exact fresh x inside

theorem WellDeclared.appendDataType (well : node.WellDeclared) {type : DataType}
    (parsed : ∀ e, type.dataElement = some e → e.Parsed) (noPorts : node.providePorts ++ node.requirePorts = [])
    (before : node.DeclaredBefore type.lineNumber) : (node.appendDataType type).2.WellDeclared := by
  rw [NodeDeclaration.appendDataType]
  split
  · exact well
  · next fresh =>
    have fresh : ∀ other ∈ node.dataTypes, other.name ≠ type.name :=
      fun other mem same => fresh (List.any_eq_true.mpr ⟨other, mem, decide_eq_true same⟩)
    have types : ParsedTypes (node.dataTypes ++ [type]) := by
      intro other mem
      rcases List.mem_append.mp mem with old | new
      · exact well.parsed.types other old
      · rw [List.mem_singleton.mp new]
        exact parsed
    exact { well with
      parsed := ⟨types, well.parsed.provides, well.parsed.requires, well.parsed.notFinalized⟩
      typeNames := nodup_snoc well.typeNames fresh
      typeLines := pairwise_snoc well.typeLines before.types
      sections := fun _ _ port mem => absurd (noPorts ▸ mem : port ∈ []) List.not_mem_nil }

theorem WellDeclared.appendPort (well : node.WellDeclared) {portType : PortType} {port : PortDeclaration}
    (parsed : ∀ e, port.dataElement = some e → e.Parsed) (before : node.DeclaredBefore port.lineNumber) :
    (node.appendPort portType port).2.WellDeclared := by
  unfold NodeDeclaration.appendPort
  split
  · exact well
  · next fresh =>
    have fresh : ∀ other ∈ node.providePorts ++ node.requirePorts, other.name ≠ port.name :=
      fun other mem same => fresh (List.any_eq_true.mpr ⟨other, mem, decide_eq_true same⟩)
    have distinct := nodup_snoc (f := fun port : PortDeclaration => port.name) well.portNames fresh
    have parsedPorts {ports : List PortDeclaration} (old : ParsedPorts ports) : ParsedPorts (ports ++ [port]) := by
      intro other mem
      rcases List.mem_append.mp mem with mem | new
      · exact old other mem
      · rw [List.mem_singleton.mp new]
        exact parsed
    have behind : ∀ type ∈ node.dataTypes, ∀ other ∈ node.providePorts ++ node.requirePorts ++ [port],
        type.lineNumber < other.lineNumber := by
      intro type type_ other mem
      rcases List.mem_append.mp mem with old | new
      · exact well.sections type type_ other old
      · rw [List.mem_singleton.mp new]
        exact before.types type type_
    cases portType with
    | provide =>
      have same : (node.providePorts ++ node.requirePorts ++ [port]).Perm
          (node.providePorts ++ [port] ++ node.requirePorts) := by
        rw [List.append_assoc, List.append_assoc]
        exact List.perm_append_comm.append_left node.providePorts
      exact { well with
        parsed := ⟨well.parsed.types, parsedPorts well.parsed.provides, well.parsed.requires, well.parsed.notFinalized⟩
        portNames := (same.map _).nodup_iff.mp distinct
        provideLines := pairwise_snoc well.provideLines fun other mem =>
          before.ports other (List.mem_append_left _ mem)
        sections := fun type type_ other mem => behind type type_ other (same.mem_iff.mpr mem) }
    | require =>
      have same := (List.append_assoc node.providePorts node.requirePorts [port])
      exact { well with
        parsed := ⟨well.parsed.types, well.parsed.provides, parsedPorts well.parsed.requires, well.parsed.notFinalized⟩
        portNames := same ▸ distinct
        requireLines := pairwise_snoc well.requireLines fun other mem =>
          before.ports other (List.mem_append_right _ mem)
        sections := fun type type_ other mem => behind type type_ other (same ▸ mem) }

theorem DeclaredBefore.appendDataType {line later : Int} (before : node.DeclaredBefore line) {type : DataType}
    (here : type.lineNumber = line) (less : line < later) : (node.appendDataType type).2.DeclaredBefore later := by
  have old : node.DeclaredBefore later :=
    ⟨fun other mem => (before.types other mem).trans less, fun other mem => (before.ports other mem).trans less⟩
  rw [NodeDeclaration.appendDataType]
  split
  · exact old
  · refine ⟨?_, old.ports⟩
    intro other mem
    rcases List.mem_append.mp mem with mem | new
    · exact old.types other mem
    · rw [List.mem_singleton.mp new, here]
      exact less

theorem DeclaredBefore.appendPort {line later : Int} (before : node.DeclaredBefore line) {portType : PortType}
    {port : PortDeclaration} (here : port.lineNumber = line) (less : line < later) :
    (node.appendPort portType port).2.DeclaredBefore later := by
  have old : node.DeclaredBefore later :=
    ⟨fun other mem => (before.types other mem).trans less, fun other mem => (before.ports other mem).trans less⟩
  unfold NodeDeclaration.appendPort
  split
  · exact old
  · cases portType with
    | provide =>
      refine ⟨old.types, ?_⟩
      intro other mem
      rcases List.mem_append.mp mem with provided | required
      · rcases List.mem_append.mp provided with mem | new
        · exact old.ports other (List.mem_append_left _ mem)
        · rw [List.mem_singleton.mp new, here]
          exact less
      · exact old.ports other (List.mem_append_right _ required)
    | require =>
      refine ⟨old.types, ?_⟩
      intro other mem
      rcases List.mem_append.mp mem with provided | required
      · exact old.ports other (List.mem_append_left _ provided)
      · rcases List.mem_append.mp required with mem | new
        · exact old.ports other (List.mem_append_right _ mem)
        · rw [List.mem_singleton.mp new, here]
          exact less

/-- Lines in their order, with numbers that fit an int32_t -/
structure Ordered (lines : List (Nat × Bytes)) : Prop where
  increasing : lines.Pairwise fun first second => first.1 < second.1
  small : ∀ line ∈ lines, line.1 < 2 ^ 31

theorem Ordered.tail {line : Nat × Bytes} {lines : List (Nat × Bytes)} (ordered : Ordered (line :: lines)) :
    Ordered lines :=
  ⟨ordered.increasing.of_cons, fun other mem => ordered.small other (List.mem_cons_of_mem line mem)⟩

theorem numberedFrom_bounds (lines : List Bytes) (n : Nat) :
    ∀ line ∈ numberedFrom n lines, n ≤ line.1 ∧ line.1 < n + lines.length := by
  induction lines generalizing n with
  | nil => nofun
  | cons line rest ih =>
    intro other mem
    rw [numberedFrom] at mem
    split at mem
    · have bounds := ih (n + 1) other mem
      rw [List.length_cons]
      omega
    · rcases List.mem_cons.mp mem with rfl | mem
      · rw [List.length_cons]
        exact ⟨Nat.le_refl n, by omega⟩
      · have bounds := ih (n + 1) other mem
        rw [List.length_cons]
        omega

theorem numberedFrom_ordered (lines : List Bytes) (n : Nat) (small : n + lines.length ≤ 2 ^ 31) :
    Ordered (numberedFrom n lines) := by
  refine ⟨?_, fun line mem => (numberedFrom_bounds lines n line mem).2.trans_le small⟩
  clear small
  induction lines generalizing n with
  | nil => exact .nil
  | cons line rest ih =>
    rw [numberedFrom]
    split
    · exact ih (n + 1)
    · exact .cons (fun other mem => (numberedFrom_bounds rest (n + 1) other mem).1) (ih (n + 1))

theorem wellDeclared_ports {bs : Bstr} {lines : List (Nat × Bytes)} (ports : PortSection bs node lines node')
    (well : node.WellDeclared) (ordered : Ordered lines)
    (before : ∀ line ∈ lines, node.DeclaredBefore line.1) : node'.WellDeclared := by
  induction ports with
  | ended => exact well
  | @port node node' n line rest portType name e attr declares later ih =>
    have here : lineNumber n = n := lineNumber_small (ordered.small _ List.mem_cons_self)
    have parsed : ∀ e', e = some e' → e'.Parsed := by
      cases declares with
      | plain letter named signature => exact signatureText_parsed signature
      | attributes letter named signature written => exact signatureText_parsed signature
    refine ih (well.appendPort parsed ?_) ordered.tail fun other mem => ?_
    · change node.DeclaredBefore (lineNumber n)
      rw [here]
      exact before _ List.mem_cons_self
    · have less := List.rel_of_pairwise_cons ordered.increasing mem
      exact (before _ List.mem_cons_self).appendPort here (by exact_mod_cast less)

theorem wellDeclared_types {bs : Bstr} {double : DoubleReader} {lines : List (Nat × Bytes)}
    (types : TypeSection bs double node lines node') (well : node.WellDeclared)
    (noPorts : node.providePorts ++ node.requirePorts = []) (ordered : Ordered lines)
    (before : ∀ line ∈ lines, node.DeclaredBefore line.1) : node'.WellDeclared := by
  induction types with
  | ports ports => exact wellDeclared_ports ports well ordered before
  | lost lost later ih =>
    exact ih well noPorts ordered.tail fun other mem => before other (List.mem_cons_of_mem _ mem)
  | @type node node' n line rest name e attr declares later ih =>
    have here : lineNumber n = n := lineNumber_small (ordered.small _ List.mem_cons_self)
    have parsed : ∀ e', e = some e' → e'.Parsed := by
      cases declares with
      | plain named signature => exact signatureText_parsed signature
      | attributes named signature written => exact signatureText_parsed signature
    refine ih (well.appendDataType parsed noPorts ?_) ?_ ordered.tail fun other mem => ?_
    · change node.DeclaredBefore (lineNumber n)
      rw [here]
      exact before _ List.mem_cons_self
    · rw [NodeDeclaration.appendDataType]
      split
      · exact noPorts
      · exact noPorts
    · have less := List.rel_of_pairwise_cons ordered.increasing mem
      exact (before _ List.mem_cons_self).appendDataType here (by exact_mod_cast less)

theorem wellDeclared_definition {bs : Bstr} {double : DoubleReader} {lines : List (Nat × Bytes)}
    (text : DefinitionText bs double lines (some node)) (ordered : Ordered lines) : node.WellDeclared := by
  cases text with
  | version version later =>
    cases later with
    | node named declarations =>
      exact wellDeclared_types declarations (wellDeclared_name _) rfl ordered.tail.tail
        fun _ _ => ⟨nofun, nofun⟩

end NodeDeclaration

namespace Parser
variable {setting : ParserSetting}

/-- However far the parser has come, what it has declared of the node is well declared. -/
theorem acceptLines_wellDeclared {lines : List Bytes} (small : lines.length < 2 ^ 31) {self : Parser}
    (accepted : acceptLines setting {} lines = .ok (none, self)) {node : NodeDeclaration}
    (is : self.state.node = some node) : node.WellDeclared :=
  NodeDeclaration.wellDeclared_definition (acceptLines_iff.mp ⟨self, accepted, is⟩)
    (NodeDeclaration.numberedFrom_ordered lines 1 (by omega))

theorem acceptLines_wellDeclared_requiring : ∃ self, acceptLines plainSetting {} (Istream.lines requiringText) =
    .ok (none, self) ∧ self.state.node = some requiringNode ∧ requiringNode.WellDeclared := by
  obtain ⟨self, accepted, is⟩ := (@acceptLines_iff plainSetting _ _).mpr (requiringText_definition _)
  exact ⟨self, accepted, is, acceptLines_wellDeclared (by decide) accepted is⟩

variable {β : Type} {bstrSearchVal : Bytes → Byte → Nat} {calls : ByteArrayCalls β}

end Parser

end Apx
