import Apx.TypeDerivation

/-! When apx_node_finalize returns, and what it returns then. -/

namespace Apx

open DepthFirst

namespace DataElement

theorem followWithParent_derived (count : Nat) (parent : DataElement) {e : DataElement} (derived : e.Derived) :
    (∃ error, followWithParent count parent e = .error (.code error)) ∨
    ∃ element last, followWithParent count parent e = .ok (element, last) ∧ element.Derived := by
  induction e using tree_induction generalizing count parent with
  | leaf => exact .inr ⟨_, _, rfl, trivial⟩
  | record => exact .inr ⟨_, _, rfl, derived⟩
  | refId => exact derived.elim
  | refName => exact derived.elim
  | refPtr name arrayLen isDynamic target ih =>
    rw [followWithParent]
    split
    · exact ih (count + 1) _ derived
    · exact .inl ⟨_, rfl⟩

theorem followReferences_derived (count : Nat) {e : DataElement} (derived : e.Derived) :
    (∃ error, followReferences count e = .error (.code error)) ∨
    ∃ element, followReferences count e = .ok element ∧ element.Derived := by
  induction e using tree_induction generalizing count with
  | leaf => exact .inr ⟨_, rfl, trivial⟩
  | record => exact .inr ⟨_, rfl, derived⟩
  | refId => exact derived.elim
  | refName => exact derived.elim
  | refPtr name arrayLen isDynamic target ih =>
    rw [followReferences]
    split
    · exact ih (count + 1) derived
    · exact .inl ⟨_, rfl⟩

theorem deriveDataElement_derived {e : DataElement} (derived : e.Derived) :
    (∃ error, e.deriveDataElement = .error (.code error)) ∨
    ∃ element, e.deriveDataElement = .ok element ∧ element.Derived := by
  cases e with
  | leaf => exact .inr ⟨_, rfl, trivial⟩
  | record => exact .inr ⟨_, rfl, derived⟩
  | refId => exact derived.elim
  | refName => exact derived.elim
  | refPtr name arrayLen isDynamic target => exact followReferences_derived 0 derived

theorem getName_clone (e : DataElement) : e.clone.getName = e.getName := by
  cases e <;> rw [clone] <;> rfl

theorem derived_clone {e : DataElement} (derived : e.Derived) : e.clone.Derived := by
  induction e using tree_induction with
  | leaf => rw [clone]; trivial
  | record name arrayLen isDynamic elements ih =>
    rw [clone, cloneAll_eq, Derived, derivedFields_iff]
    have each := (derivedFields_iff elements).mp derived
    intro child mem
    obtain ⟨child', mem', rfl⟩ := List.mem_map.mp mem
    rw [getName_clone]
    exact ⟨(each child' mem').1, ih child' mem' (each child' mem').2⟩
  | refId => exact derived.elim
  | refName => exact derived.elim
  | refPtr => rw [clone]; exact derived

theorem derived_setArray {e : DataElement} (derived : e.Derived) (arrayLen : UInt32) (dynamic : Bool) :
    (e.setArray arrayLen dynamic).Derived := by
  cases e <;> exact derived

/-- Flattening a derived element runs into no assert. -/
theorem flatten_derived {e : DataElement} (derived : e.Derived) :
    (∃ error, e.flatten = .error (.code error)) ∨ ∃ flat, e.flatten = .ok flat ∧ flat.Derived := by
  cases e with
  | leaf => exact .inr ⟨_, rfl, derived_clone derived⟩
  | record => exact .inr ⟨_, rfl, derived_clone derived⟩
  | refId => exact derived.elim
  | refName => exact derived.elim
  | refPtr name arrayLen isDynamic target =>
    unfold flatten deriveWithParent
    have derivedTarget : target.Derived := derived
    rcases followWithParent_derived 0 (.refPtr name arrayLen isDynamic target) derivedTarget with
      ⟨error, fails⟩ | ⟨element, last, found, derived'⟩
    · simp only [fails]
      exact .inl ⟨error, rfl⟩
    · simp only [found]
      by_cases both : last.isArray ∧ element.clone.isArray
      · rw [if_pos both]
        exact .inl ⟨_, rfl⟩
      · rw [if_neg both]
        by_cases array : last.isArray
        · rw [if_pos array]
          exact .inr ⟨_, rfl, derived_setArray (derived_clone derived') _ _⟩
        · rw [if_neg array]
          exact .inr ⟨_, rfl, derived_clone derived'⟩

theorem otherInitValue_code {e : DataElement} {failure : Failure} (fails : otherInitValue e = .error failure) :
    ∃ error, failure = .code error := by
  cases e with
  | leaf name code arrayLen isDynamic limits =>
    simp only [otherInitValue] at fails
    split at fails
    · exact ⟨_, (Except.error.inj fails).symm⟩
    · exact ⟨_, (Except.error.inj fails).symm⟩
  | _ => exact ⟨_, (Except.error.inj fails).symm⟩

mutual

/-- No init value runs into an assert. -/
theorem deriveProperInitValue_code {e : DataElement} (derived : e.Derived) :
    ∀ (parsed : Dv) {failure : Failure}, deriveProperInitValue e parsed = .error failure →
      ∃ error, failure = .code error
  | .null, _, fails => otherInitValue_code (by rwa [deriveProperInitValue] at fails)
  | .hash _, _, fails => otherInitValue_code (by rwa [deriveProperInitValue] at fails)
  | .scalar sv, failure, fails => by
    cases e with
    | record => exact ⟨_, (Except.error.inj fails).symm⟩
    | leaf name code arrayLen isDynamic limits =>
      unfold deriveProperInitValue at fails
      dsimp only at fails
      split at fails
      · exact ⟨_, (Except.error.inj fails).symm⟩
      · split at fails
        · split at fails
          · split at fails
            · contradiction
            · exact ⟨_, (Except.error.inj fails).symm⟩
          · exact ⟨_, (Except.error.inj fails).symm⟩
        · contradiction
    | refId => exact derived.elim
    | refName => exact derived.elim
    | refPtr => exact ⟨_, (Except.error.inj fails).symm⟩
  | .array av, failure, fails => by
    cases e with
    | record name arrayLen isDynamic elements =>
      rw [deriveProperInitValue] at fails
      split at fails
      · split at fails
        · split at fails
          · contradiction
          · exact ⟨_, (Except.error.inj fails).symm⟩
        · split at fails
          · exact ⟨_, (Except.error.inj fails).symm⟩
          · split at fails
            · next known =>
              obtain rfl := Except.error.inj fails
              exact deriveRecordInitValues_code derived av known
            · contradiction
      · split at fails
        · exact ⟨_, (Except.error.inj fails).symm⟩
        · split at fails
          · next known =>
            obtain rfl := Except.error.inj fails
            exact deriveHashInitValue_code derived [] av known
          · contradiction
    | leaf name code arrayLen isDynamic limits =>
      rw [deriveProperInitValue] at fails
      split at fails
      · exact ⟨_, (Except.error.inj fails).symm⟩
      · split at fails
        · split at fails
          · split at fails
            · contradiction
            · exact ⟨_, (Except.error.inj fails).symm⟩
          · split at fails
            · exact ⟨_, (Except.error.inj fails).symm⟩
            · split at fails
              · contradiction
              · exact ⟨_, (Except.error.inj fails).symm⟩
        · exact ⟨_, (Except.error.inj fails).symm⟩
    | refId => exact derived.elim
    | refName => exact derived.elim
    | refPtr => exact ⟨_, (Except.error.inj fails).symm⟩

theorem deriveRecordInitValues_code {elements : List DataElement} (derived : DerivedFields elements) :
    ∀ (parsed : List Dv) {failure : Failure}, deriveRecordInitValues elements parsed = .error failure →
      ∃ error, failure = .code error
  | [], _, fails => by
    rw [deriveRecordInitValues] at fails
    contradiction
  | .array av :: rest, failure, fails => by
    rw [deriveRecordInitValues] at fails
    split at fails
    · exact ⟨_, (Except.error.inj fails).symm⟩
    · split at fails
      · next known =>
        obtain rfl := Except.error.inj fails
        exact deriveHashInitValue_code derived [] av known
      · split at fails
        · next known =>
          obtain rfl := Except.error.inj fails
          exact deriveRecordInitValues_code derived rest known
        · contradiction
  | .null :: rest, _, fails => by
    rw [deriveRecordInitValues] at fails
    · exact deriveRecordInitValues_code derived rest fails
    · nofun
  | .scalar _ :: rest, _, fails => by
    rw [deriveRecordInitValues] at fails
    · exact deriveRecordInitValues_code derived rest fails
    · nofun
  | .hash _ :: rest, _, fails => by
    rw [deriveRecordInitValues] at fails
    · exact deriveRecordInitValues_code derived rest fails
    · nofun

theorem deriveHashInitValue_code {elements : List DataElement} (derived : DerivedFields elements)
    (hv : List (Bytes × Dv)) :
    ∀ (parsed : List Dv) {failure : Failure}, deriveHashInitValue elements hv parsed = .error failure →
      ∃ error, failure = .code error
  | [], _, fails => by
    cases elements <;> rw [deriveHashInitValue] at fails <;> contradiction
  | parsed :: rest, failure, fails => by
    cases elements with
    | nil =>
      rw [deriveHashInitValue] at fails
      · contradiction
      · nofun
    | cons child children =>
      obtain ⟨⟨named, derivedChild⟩, derivedRest⟩ := derived
      rw [deriveHashInitValue] at fails
      split at fails
      · next none_ => exact absurd none_ named
      · split at fails
        · next known =>
          obtain rfl := Except.error.inj fails
          rcases deriveDataElement_derived derivedChild with ⟨error, same⟩ | ⟨element, same, -⟩
          · rw [same] at known
            exact ⟨error, (Except.error.inj known).symm⟩
          · rw [same] at known
            contradiction
        · next element known =>
          have derivedElement : element.Derived := by
            rcases deriveDataElement_derived derivedChild with ⟨error, same⟩ | ⟨element', same, derived'⟩
            · rw [same] at known
              contradiction
            · rw [same] at known
              exact (Except.ok.inj known) ▸ derived'
          split at fails
          · next known =>
            obtain rfl := Except.error.inj fails
            exact deriveProperInitValue_code derivedElement parsed known
          · exact deriveHashInitValue_code derivedRest _ rest fails

end

end DataElement

def ParsedPorts (ports : List PortDeclaration) : Prop :=
  ∀ port ∈ ports, ∀ e, port.dataElement = some e → e.Parsed

def DerivedPorts (ports : List PortDeclaration) : Prop :=
  ∀ port ∈ ports, ∃ e, port.dataElement = some e ∧ e.Derived

variable {types table : List DataType} {ports : List PortDeclaration}

theorem portEdges_none {port : PortDeclaration} (rest : List PortDeclaration)
    (none_ : port.dataElement = none) : portEdges types (port :: rest) = none :: portEdges types rest := by
  rw [portEdges, none_]

theorem portEdges_some {port : PortDeclaration} {e : DataElement} (rest : List PortDeclaration)
    (has : port.dataElement = some e) :
    portEdges types (port :: rest) = e.edges types ++ portEdges types rest := by
  rw [portEdges, has]

/-- A loop over ports that returns ends as the walk over their references does. -/
theorem deriveTypesOnPorts_ends (parsedTypes : ParsedTypes types) (parsed : ParsedPorts ports)
    {depth : Nat} (consistent : Consistent types table)
    {result : Except FinalizeError (List DataType × List PortDeclaration)}
    (returns : deriveTypesOnPorts depth table ports = some result) :
    (Follows (typeEdges types) (portEdges types ports) true ∧ ∃ table' ports', result = .ok (table', ports') ∧
      Consistent types table' ∧ DerivedPorts ports') ∨
    (Follows (typeEdges types) (portEdges types ports) false ∧
      ∃ error line, result = .error ⟨.code error, line⟩) := by
  induction ports generalizing table result with
  | nil =>
    exact .inl ⟨.nil, table, [], (Option.some.inj returns).symm, consistent, fun _ mem =>
      absurd mem List.not_mem_nil⟩
  | cons port rest ih =>
    rw [deriveTypesOnPorts, PortDeclaration.deriveTypes] at returns
    cases has : port.dataElement with
    | none =>
      rw [has] at returns
      rw [portEdges_none rest has]
      exact .inr ⟨.nowhere _, _, _, (Option.some.inj returns).symm⟩
    | some e =>
      rw [portEdges_some rest has]
      rw [has] at returns
      dsimp only at returns
      cases known : e.deriveTypesOnElement depth table with
      | none =>
        rw [known] at returns
        contradiction
      | some first =>
        rw [known] at returns
        have parsedElement := parsed port List.mem_cons_self e has
        rcases DataElement.derive_ends parsedTypes consistent parsedElement known with
          ⟨follows, table', e', rfl, consistent', derived, -⟩ | ⟨follows, error, rfl⟩
        · dsimp only at returns
          cases behind : deriveTypesOnPorts depth table' rest with
          | none =>
            rw [behind] at returns
            contradiction
          | some second =>
            rw [behind] at returns
            have parsedRest : ParsedPorts rest := fun other mem => parsed other (List.mem_cons_of_mem _ mem)
            rcases ih parsedRest consistent' behind with
              ⟨follows', table'', rest', rfl, consistent'', derived'⟩ | ⟨follows', error, line, rfl⟩
            · refine .inl ⟨follows.append follows', table'', _, (Option.some.inj returns).symm,
                consistent'', ?_⟩
              intro other mem
              rcases List.mem_cons.mp mem with rfl | mem
              · exact ⟨e', rfl, derived⟩
              · exact derived' other mem
            · exact .inr ⟨follows.append follows', error, line, (Option.some.inj returns).symm⟩
        · exact .inr ⟨follows.append_false _, error, _, (Option.some.inj returns).symm⟩

theorem deriveTypesOnPorts_mono {depth more : Nat} (le : depth ≤ more)
    {result : Except FinalizeError (List DataType × List PortDeclaration)}
    (returns : deriveTypesOnPorts depth table ports = some result) :
    deriveTypesOnPorts more table ports = some result := by
  induction ports generalizing table result with
  | nil => exact returns
  | cons port rest ih =>
    rw [deriveTypesOnPorts, PortDeclaration.deriveTypes] at returns ⊢
    cases has : port.dataElement with
    | none =>
      rw [has] at returns
      exact returns
    | some e =>
      rw [has] at returns
      dsimp only at returns ⊢
      cases known : e.deriveTypesOnElement depth table with
      | none =>
        rw [known] at returns
        contradiction
      | some first =>
        rw [known] at returns
        rw [DataElement.derive_mono le known]
        cases first with
        | error failure => exact returns
        | ok pair =>
          dsimp only at returns ⊢
          cases behind : deriveTypesOnPorts depth pair.1 rest with
          | none =>
            rw [behind] at returns
            contradiction
          | some second =>
            rw [behind] at returns
            rw [ih behind]
            exact returns

/-- The loop returns when the walk does. -/
theorem deriveTypesOnPorts_returns (parsedTypes : ParsedTypes types) (parsed : ParsedPorts ports)
    (consistent : Consistent types table) {k : Nat} {b : Bool}
    (follows : follow (visit (typeEdges types) k) (portEdges types ports) = some b) :
    ∃ depth result, deriveTypesOnPorts depth table ports = some result := by
  induction ports generalizing table b with
  | nil => exact ⟨0, _, rfl⟩
  | cons port rest ih =>
    cases has : port.dataElement with
    | none => exact ⟨0, _, by rw [deriveTypesOnPorts, PortDeclaration.deriveTypes, has]⟩
    | some e =>
      rw [portEdges_some rest has, follow_append] at follows
      have parsedElement := parsed port List.mem_cons_self e has
      cases first : follow (visit (typeEdges types) k) (e.edges types) with
      | none =>
        rw [first] at follows
        contradiction
      | some c =>
        obtain ⟨depth, result, returns⟩ := DataElement.derive_returns parsedTypes first consistent parsedElement
        rcases DataElement.derive_ends parsedTypes consistent parsedElement returns with
          ⟨follows', table', e', rfl, consistent', -⟩ | ⟨-, error, rfl⟩
        · obtain rfl : c = true := Follows.unique ⟨k, first⟩ follows'
          rw [first] at follows
          have parsedRest : ParsedPorts rest := fun other mem => parsed other (List.mem_cons_of_mem _ mem)
          obtain ⟨deep, result, returns'⟩ := ih parsedRest consistent' follows
          refine ⟨max depth deep, ?_⟩
          rw [deriveTypesOnPorts, PortDeclaration.deriveTypes, has]
          simp only [DataElement.derive_mono (Nat.le_max_left depth deep) returns,
            deriveTypesOnPorts_mono (Nat.le_max_right depth deep) returns']
          cases result with
          | error error => exact ⟨_, rfl⟩
          | ok pair => exact ⟨_, rfl⟩
        · refine ⟨depth, .error ⟨.code error, port.lineNumber⟩, ?_⟩
          rw [deriveTypesOnPorts, PortDeclaration.deriveTypes, has]
          simp only [returns]

/-- A loop that changes ports one by one keeps what each change does, and fails only as one of them
does. -/
theorem changePorts_ends {change : PortDeclaration → Except Failure PortDeclaration}
    {P Q : PortDeclaration → Prop}
    (each : ∀ port, P port → (∃ error, change port = .error (.code error)) ∨
      ∃ port', change port = .ok port' ∧ Q port')
    (holds : ∀ port ∈ ports, P port) :
    (∃ error line, changePorts change ports = .error ⟨.code error, line⟩) ∨
    ∃ ports', changePorts change ports = .ok ports' ∧ ∀ port ∈ ports', Q port := by
  induction ports with
  | nil => exact .inr ⟨[], rfl, fun _ mem => absurd mem List.not_mem_nil⟩
  | cons port rest ih =>
    rw [changePorts]
    rcases each port (holds port List.mem_cons_self) with ⟨error, fails⟩ | ⟨port', changes, is⟩
    · rw [fails]
      exact .inl ⟨error, _, rfl⟩
    · rw [changes]
      rcases ih fun other mem => holds other (List.mem_cons_of_mem _ mem) with
        ⟨error, line, fails⟩ | ⟨rest', changesRest, all⟩
      · simp only [fails]
        exact .inl ⟨error, line, rfl⟩
      · simp only [changesRest]
        refine .inr ⟨_, rfl, ?_⟩
        intro other mem
        rcases List.mem_cons.mp mem with rfl | mem
        · exact is
        · exact all other mem

namespace NodeDeclaration

/-- A node as a parser leaves it, before it is finalized -/
structure Parsed (node : NodeDeclaration) : Prop where
  types : ParsedTypes node.dataTypes
  provides : ParsedPorts node.providePorts
  requires : ParsedPorts node.requirePorts
  notFinalized : node.isFinalized = false

/-- The references in the elements of the ports, in the order of the derivation -/
def roots (node : NodeDeclaration) : List (Option (Fin node.dataTypes.length)) :=
  portEdges node.dataTypes node.providePorts ++ portEdges node.dataTypes node.requirePorts

/-- Every reference that can be reached from a port leads to a declared type. -/
def ReferencesResolve (node : NodeDeclaration) : Prop :=
  none ∉ node.roots ∧ ∀ v, some v ∈ node.roots →
    ∀ w, Relation.ReflTransGen (Edge (typeEdges node.dataTypes)) v w → none ∉ typeEdges node.dataTypes w

/-- No type that can be reached from a port leads back to itself. -/
def ReferencesAcyclic (node : NodeDeclaration) : Prop :=
  ∀ v, some v ∈ node.roots → Acyclic (Edge (typeEdges node.dataTypes)) v

/-- No type that the derivation comes to leads back to itself over references that the derivation goes
down to: those behind nothing but references to sound types. -/
def NoCycleVisited (node : NodeDeclaration) : Prop :=
  ∀ v, Entered (typeEdges node.dataTypes) node.roots v → Acyclic (Visits (typeEdges node.dataTypes)) v

variable {node : NodeDeclaration}

/-- The part behind the derivation of types fails with an error code or not at all. -/
theorem expandAndDeriveInitValues_ends (provides : DerivedPorts node.providePorts)
    (requires : DerivedPorts node.requirePorts) :
    (∃ error line, node.expandAndDeriveInitValues = .error ⟨.code error, line⟩) ∨
    ∃ node', node.expandAndDeriveInitValues = .ok node' := by
  let Flat (port : PortDeclaration) : Prop := ∃ e, port.effectiveElement = some e ∧ e.Derived
  have flatten (port : PortDeclaration) (derived : ∃ e, port.dataElement = some e ∧ e.Derived) :
      (∃ error, port.flattenDataElement = .error (.code error)) ∨
      ∃ port', port.flattenDataElement = .ok port' ∧ Flat port' := by
    obtain ⟨e, has, derived⟩ := derived
    rw [PortDeclaration.flattenDataElement, has]
    dsimp only
    rcases DataElement.flatten_derived derived with ⟨error, fails⟩ | ⟨flat, flattens, derived'⟩
    · rw [fails]
      exact .inl ⟨error, rfl⟩
    · rw [flattens]
      exact .inr ⟨_, rfl, flat, rfl, derived'⟩
  have initial (port : PortDeclaration) (flat : Flat port) :
      (∃ error, port.deriveProperInitValue = .error (.code error)) ∨
      ∃ port', port.deriveProperInitValue = .ok port' ∧ True := by
    obtain ⟨e, has, derived⟩ := flat
    rw [PortDeclaration.deriveProperInitValue, has]
    dsimp only
    cases port.attributes.bind fun attributes => attributes.initValue with
    | none => exact .inr ⟨_, rfl, trivial⟩
    | some parsed =>
      dsimp only
      cases known : e.deriveProperInitValue parsed with
      | error failure =>
        obtain ⟨error, rfl⟩ := DataElement.deriveProperInitValue_code derived parsed known
        exact .inl ⟨error, rfl⟩
      | ok value => exact .inr ⟨_, rfl, trivial⟩
  unfold expandAndDeriveInitValues
  rcases changePorts_ends flatten provides with ⟨error, line, fails⟩ | ⟨provides', flattens, flat⟩
  · simp only [fails]
    exact .inl ⟨error, line, rfl⟩
  · simp only [flattens]
    rcases changePorts_ends flatten requires with ⟨error, line, fails⟩ | ⟨requires', flattens', flat'⟩
    · simp only [fails]
      exact .inl ⟨error, line, rfl⟩
    · simp only [flattens']
      rcases changePorts_ends initial flat with ⟨error, line, fails⟩ | ⟨provides'', inits, -⟩
      · simp only [fails]
        exact .inl ⟨error, line, rfl⟩
      · simp only [inits]
        rcases changePorts_ends initial flat' with ⟨error, line, fails⟩ | ⟨requires'', inits', -⟩
        · simp only [fails]
          exact .inl ⟨error, line, rfl⟩
        · simp only [inits']
          exact .inr ⟨_, rfl⟩

/-- apx_node_finalize returns as the walk over the references of the ports does. -/
theorem finalize_ends (parsed : node.Parsed) {depth : Nat} {result : Except FinalizeError NodeDeclaration}
    (returns : node.finalize depth = some result) :
    (Follows (typeEdges node.dataTypes) node.roots true ∧ ((∃ node', result = .ok node') ∨
      ∃ error line, result = .error ⟨.code error, line⟩)) ∨
    (Follows (typeEdges node.dataTypes) node.roots false ∧ ∃ error line, result = .error ⟨.code error, line⟩) := by
  rw [finalize, parsed.notFinalized] at returns
  simp only [Bool.false_eq_true, ↓reduceIte] at returns
  rw [roots]
  cases first : deriveTypesOnPorts depth node.dataTypes node.providePorts with
  | none =>
    rw [first] at returns
    contradiction
  | some known =>
    rw [first] at returns
    rcases deriveTypesOnPorts_ends parsed.types parsed.provides (Consistent.refl _) first with
      ⟨follows, table, provides, rfl, consistent, derived⟩ | ⟨follows, error, line, rfl⟩
    · dsimp only at returns
      cases second : deriveTypesOnPorts depth table node.requirePorts with
      | none =>
        rw [second] at returns
        contradiction
      | some known =>
        rw [second] at returns
        rcases deriveTypesOnPorts_ends parsed.types parsed.requires consistent second with
          ⟨follows', table', requires, rfl, -, derived'⟩ | ⟨follows', error, line, rfl⟩
        · refine .inl ⟨follows.append follows', ?_⟩
          obtain rfl := Option.some.inj returns
          exact (@expandAndDeriveInitValues_ends { node with
            dataTypes := table', providePorts := provides, requirePorts := requires }
            derived derived').symm
        · exact .inr ⟨follows.append follows', error, line, (Option.some.inj returns).symm⟩
    · exact .inr ⟨follows.append_false _, error, line, (Option.some.inj returns).symm⟩

theorem finalize_returns (parsed : node.Parsed) {b : Bool}
    (follows : Follows (typeEdges node.dataTypes) node.roots b) :
    ∃ depth result, node.finalize depth = some result := by
  obtain ⟨k, follows⟩ := follows
  rw [roots, follow_append] at follows
  simp only [finalize, parsed.notFinalized, Bool.false_eq_true, ↓reduceIte]
  cases first : follow (visit (typeEdges node.dataTypes) k)
      (portEdges node.dataTypes node.providePorts) with
  | none =>
    rw [first] at follows
    contradiction
  | some c =>
    obtain ⟨depth, result, returns⟩ :=
      deriveTypesOnPorts_returns parsed.types parsed.provides (Consistent.refl _) first
    rcases deriveTypesOnPorts_ends parsed.types parsed.provides (Consistent.refl _) returns with
      ⟨follows', table, provides, rfl, consistent, derived⟩ | ⟨follows', error, line, rfl⟩
    · obtain rfl : c = true := Follows.unique ⟨k, first⟩ follows'
      rw [first] at follows
      obtain ⟨deep, result, returns'⟩ :=
        deriveTypesOnPorts_returns parsed.types parsed.requires consistent follows
      refine ⟨max depth deep, ?_⟩
      simp only [deriveTypesOnPorts_mono (Nat.le_max_left depth deep) returns,
        deriveTypesOnPorts_mono (Nat.le_max_right depth deep) returns']
      cases result with
      | error error => exact ⟨_, rfl⟩
      | ok pair => exact ⟨_, rfl⟩
    · refine ⟨depth, .error ⟨.code error, line⟩, ?_⟩
      simp only [returns]

/-- The walk over the ports goes through exactly when all references are sound. -/
theorem follows_roots_iff :
    Follows (typeEdges node.dataTypes) node.roots true ↔ node.ReferencesResolve ∧ node.ReferencesAcyclic := by
  have soundRoots : Follows (typeEdges node.dataTypes) node.roots true ↔
      none ∉ node.roots ∧ ∀ v, some v ∈ node.roots → Sound (typeEdges node.dataTypes) v := by
    constructor
    · rintro ⟨depth, follows⟩
      have each := (follow_true_iff _ _).mp follows
      constructor
      · intro nowhere
        obtain ⟨w, same, -⟩ := each none nowhere
        contradiction
      · intro v mem
        obtain ⟨w, same, visited⟩ := each _ mem
        obtain rfl : v = w := Option.some.inj same
        exact sound_of_visit visited
    · rintro ⟨leads, sound⟩
      obtain ⟨depth, known⟩ := @exists_depth _ (typeEdges node.dataTypes) node.roots
        (fun _ b => b = true) fun v mem => by
          obtain ⟨depth, visited⟩ := visit_of_sound (sound v mem)
          exact ⟨depth, true, visited, rfl⟩
      refine ⟨depth, (follow_true_iff _ _).mpr fun edge mem => ?_⟩
      cases edge with
      | none => exact absurd mem leads
      | some v =>
        obtain ⟨b, visited, rfl⟩ := known v mem
        exact ⟨v, rfl, visited⟩
  rw [soundRoots, ReferencesResolve, ReferencesAcyclic]
  simp only [sound_iff]
  constructor
  · rintro ⟨leads, each⟩
    exact ⟨⟨leads, fun v mem => (each v mem).1⟩, fun v mem => (each v mem).2⟩
  · rintro ⟨⟨leads, each⟩, acyclic⟩
    exact ⟨leads, fun v mem => ⟨each v mem, acyclic v mem⟩⟩

/-- The walk over the ports returns exactly when it comes to no cycle. -/
theorem follows_returns_iff : (∃ b, Follows (typeEdges node.dataTypes) node.roots b) ↔ node.NoCycleVisited := by
  have swap : (∃ b, Follows (typeEdges node.dataTypes) node.roots b) ↔
      ∃ depth b, follow (visit (typeEdges node.dataTypes) depth) node.roots = some b := by
    constructor
    · rintro ⟨b, depth, follows⟩
      exact ⟨depth, b, follows⟩
    · rintro ⟨depth, b, follows⟩
      exact ⟨b, depth, follows⟩
  rw [swap, follow_returns_iff, NoCycleVisited]
  simp only [visit_returns_iff, acc_iff_acyclic]

/-- What is promised of apx_node_finalize: it returns; it succeeds only when all references that can be
reached from a port resolve and make no cycle; and otherwise it returns an error code. -/
def DerivationTerminates (node : NodeDeclaration) : Prop :=
  ∃ depth result, node.finalize depth = some result ∧
    ((∃ node', result = .ok node') → node.ReferencesResolve ∧ node.ReferencesAcyclic) ∧
    ∀ error, result = .error error → ∃ code, error.failure = .code code

theorem derivationTerminates_of_noCycle (parsed : node.Parsed) (acyclic : node.NoCycleVisited) :
    node.DerivationTerminates := by
  obtain ⟨b, follows⟩ := follows_returns_iff.mpr acyclic
  obtain ⟨depth, result, returns⟩ := finalize_returns parsed follows
  refine ⟨depth, result, returns, ?_⟩
  rcases finalize_ends parsed returns with ⟨follows, ⟨node', rfl⟩ | ⟨error, line, rfl⟩⟩ | ⟨-, error, line, rfl⟩
  · exact ⟨fun _ => follows_roots_iff.mp follows, fun _ same => nomatch same⟩
  · constructor
    · rintro ⟨node', same⟩
      contradiction
    · intro other same
      obtain rfl := Except.error.inj same
      exact ⟨error, rfl⟩
  · constructor
    · rintro ⟨node', same⟩
      contradiction
    · intro other same
      obtain rfl := Except.error.inj same
      exact ⟨error, rfl⟩

theorem noCycle_of_returns (parsed : node.Parsed) {depth : Nat}
    {result : Except FinalizeError NodeDeclaration} (returns : node.finalize depth = some result) :
    node.NoCycleVisited := by
  rw [← follows_returns_iff]
  rcases finalize_ends parsed returns with ⟨follows, -⟩ | ⟨follows, -⟩
  · exact ⟨true, follows⟩
  · exact ⟨false, follows⟩

/-- apx_node_finalize keeps its promise for a parsed node exactly when the derivation comes to no cycle
of types. On a cycle it calls itself without end: a reference is marked as resolved only behind the
derivation of its type. -/
theorem derivationTerminates_iff (parsed : node.Parsed) :
    node.DerivationTerminates ↔ node.NoCycleVisited := by
  constructor
  · rintro ⟨depth, result, returns, -⟩
    exact noCycle_of_returns parsed returns
  · exact derivationTerminates_of_noCycle parsed

/-- The type T"A"T[0], which refers to itself, and a port P"p"T[0] -/
def selfReference : NodeDeclaration where
  name := ⟨[], by decide⟩
  dataTypes := [{ name := ⟨[ascii 'A'], by decide⟩, dataElement := some (.refId none 0 false 0) }]
  providePorts := [{ name := ⟨[112], by decide⟩, dataElement := some (.refId none 0 false 0) }]

theorem selfReference_parsed : selfReference.Parsed where
  types := by
    intro type mem e has
    obtain rfl := List.mem_singleton.mp mem
    obtain rfl := Option.some.inj has
    trivial
  provides := by
    intro port mem e has
    obtain rfl := List.mem_singleton.mp mem
    obtain rfl := Option.some.inj has
    trivial
  requires := fun _ mem => absurd mem List.not_mem_nil
  notFinalized := rfl

theorem derivationTerminates_iff_selfReference :
    selfReference.DerivationTerminates ↔ selfReference.NoCycleVisited :=
  derivationTerminates_iff selfReference_parsed

theorem not_derivationTerminates : ¬selfReference.DerivationTerminates := by
  rintro ⟨depth, result, returns, -⟩
  have visited : selfReference.NoCycleVisited := noCycle_of_returns selfReference_parsed returns
  let first : Fin selfReference.dataTypes.length := ⟨0, by decide⟩
  have entered : Entered (typeEdges selfReference.dataTypes) selfReference.roots first :=
    ⟨[], [], rfl, fun _ mem => absurd mem List.not_mem_nil⟩
  have cycle : Visits (typeEdges selfReference.dataTypes) first first :=
    ⟨[], [], rfl, fun _ mem => absurd mem List.not_mem_nil⟩
  exact visited first entered first Relation.ReflTransGen.refl (Relation.TransGen.single cycle)

end NodeDeclaration

end Apx
