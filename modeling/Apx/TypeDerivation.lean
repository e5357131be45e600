import Apx.DepthFirst
import Apx.Finalize

/-! When the derivation of types returns: the references of a node as a graph. -/

namespace Apx

open DepthFirst

namespace DataElement

mutual

/-- The references in the tree that are still to be resolved, in the order of the derivation -/
def references : DataElement → List DataElement
  | .leaf .. => []
  | .record _ _ _ elements => referencesOfAll elements
  | .refId name arrayLen isDynamic id => [.refId name arrayLen isDynamic id]
  | .refName name arrayLen isDynamic typeName => [.refName name arrayLen isDynamic typeName]
  | .refPtr .. => []

def referencesOfAll : List DataElement → List DataElement
  | [] => []
  | child :: rest => references child ++ referencesOfAll rest

end

mutual

/-- What a signature parser makes: the fields of records have names, no reference is resolved. -/
def Parsed : DataElement → Prop
  | .leaf .. => True
  | .record _ _ _ elements => ParsedFields elements
  | .refId .. => True
  | .refName .. => True
  | .refPtr .. => False

def ParsedFields : List DataElement → Prop
  | [] => True
  | child :: rest => (child.getName ≠ none ∧ Parsed child) ∧ ParsedFields rest

end

mutual

/-- What the derivation of types makes of it: every reference is resolved. -/
def Derived : DataElement → Prop
  | .leaf .. => True
  | .record _ _ _ elements => DerivedFields elements
  | .refId .. => False
  | .refName .. => False
  | .refPtr _ _ _ target => Derived target

def DerivedFields : List DataElement → Prop
  | [] => True
  | child :: rest => (child.getName ≠ none ∧ Derived child) ∧ DerivedFields rest

end

/-- The type that a reference leads to, if it is declared and has an element -/
def target (types : List DataType) (e : DataElement) : Option (Fin types.length) :=
  match e.typeIndex types with
  | .error _ => none
  | .ok index =>
      if there : index < types.length then
        if types[index].dataElement = none then none else some ⟨index, there⟩
      else none

def edges (types : List DataType) (e : DataElement) : List (Option (Fin types.length)) :=
  e.references.map (target types)

end DataElement

open DataElement

def typeEdges (types : List DataType) (i : Fin types.length) : List (Option (Fin types.length)) :=
  match (types.get i).dataElement with
  | none => []
  | some e => e.edges types

/-- The references in the elements of ports. A port without an element leads nowhere. -/
def portEdges (types : List DataType) : List PortDeclaration → List (Option (Fin types.length))
  | [] => []
  | port :: rest =>
    match port.dataElement with
    | none => none :: portEdges types rest
    | some e => e.edges types ++ portEdges types rest

/-- The types that are derived already stand in the list in their derived form; those are sound. -/
structure Consistent (types table : List DataType) : Prop where
  length : table.length = types.length
  each : ∀ (i : Fin types.length), ∃ type, table[i.val]? = some type ∧ type.name = types[i].name ∧
    (type.dataElement = types[i].dataElement ∨
      (types[i].dataElement ≠ none ∧ Sound (typeEdges types) i) ∧
        ∃ e, type.dataElement = some e ∧ e.Derived)

theorem Consistent.refl (types : List DataType) : Consistent types types :=
  ⟨rfl, fun i => ⟨types[i], List.getElem?_eq_getElem i.isLt, rfl, .inl rfl⟩⟩

namespace Consistent

variable {types table : List DataType}

theorem names (consistent : Consistent types table) :
    table.map DataType.name = types.map DataType.name := by
  apply List.ext_getElem?
  intro i
  rw [List.getElem?_map, List.getElem?_map]
  by_cases there : i < types.length
  · obtain ⟨type, found, name, -⟩ := consistent.each ⟨i, there⟩
    rw [found, List.getElem?_eq_getElem there, Option.map_some, Option.map_some, name]
    rfl
  · have length := consistent.length
    rw [List.getElem?_eq_none (by omega), List.getElem?_eq_none (by omega)]

theorem findIdx?_name (types : List DataType) (name : CString) :
    (types.findIdx? fun type => type.name = name) =
      (types.map DataType.name).findIdx? fun known => known = name := by
  rw [List.findIdx?_map]
  rfl

/-- A derivation in progress finds the same types. -/
theorem typeIndex (consistent : Consistent types table) (e : DataElement) :
    e.typeIndex table = e.typeIndex types := by
  cases e with
  | refId name arrayLen isDynamic id => simp only [DataElement.typeIndex, consistent.length]
  | refName name arrayLen isDynamic typeName =>
    simp only [DataElement.typeIndex, findIdx?_name, consistent.names]
  | _ => rfl

/-- A type that has been derived stands in its place from then on. -/
theorem set (consistent : Consistent types table) (i : Fin types.length) {type : DataType} {e : DataElement}
    (name : type.name = types[i].name)
    (sound : types[i].dataElement ≠ none ∧ Sound (typeEdges types) i) (derived : e.Derived) :
    Consistent types (table.set i { type with dataElement := some e }) := by
  constructor
  · rw [List.length_set, consistent.length]
  · intro j
    obtain ⟨known, there, knownName, which⟩ := consistent.each j
    by_cases same : i = j
    · subst same
      refine ⟨{ type with dataElement := some e }, ?_, name, .inr ⟨sound, e, rfl, derived⟩⟩
      rw [List.getElem?_set_self (by have := consistent.length; omega)]
    · refine ⟨known, ?_, knownName, which⟩
      rw [List.getElem?_set_ne (fun h => same (Fin.ext h)), there]

end Consistent

def ParsedTypes (types : List DataType) : Prop :=
  ∀ type ∈ types, ∀ e, type.dataElement = some e → e.Parsed

namespace DataElement

variable {types table : List DataType}

theorem setTypeRefPtr_derived (e : DataElement) {target : DataElement} (derived : target.Derived) :
    (e.setTypeRefPtr target).Derived ∧ (e.setTypeRefPtr target).getName = e.getName := by
  cases e <;> exact ⟨derived, rfl⟩

/-- A derived element stays as it is. -/
theorem derive_of_derived {depth : Nat} {e : DataElement} (derived : e.Derived)
    {result : Except Failure (List DataType × DataElement)}
    (returns : e.deriveTypesOnElement depth table = some result) : result = .ok (table, e) := by
  induction depth generalizing e result with
  | zero => contradiction
  | succ depth ih =>
    cases e with
    | leaf => exact (Option.some.inj returns).symm
    | record name arrayLen isDynamic elements =>
      have fields : ∀ fields, DerivedFields fields → ∀ result,
          deriveTypesOnChildren (deriveTypesOnElement depth) table fields = some result →
          result = .ok (table, fields) := by
        intro fields each result returns
        induction fields generalizing result with
        | nil => exact (Option.some.inj returns).symm
        | cons child rest ihRest =>
          rw [deriveTypesOnChildren] at returns
          cases first : deriveTypesOnElement depth table child with
          | none =>
            rw [first] at returns
            contradiction
          | some known =>
            obtain rfl := ih each.1.2 first
            rw [first] at returns
            dsimp only at returns
            cases behind : deriveTypesOnChildren (deriveTypesOnElement depth) table rest with
            | none =>
              rw [behind] at returns
              contradiction
            | some known =>
              obtain rfl := ihRest each.2 known behind
              rw [behind] at returns
              exact (Option.some.inj returns).symm
      rw [deriveTypesOnElement] at returns
      cases all : deriveTypesOnChildren (deriveTypesOnElement depth) table elements with
      | none =>
        rw [all] at returns
        contradiction
      | some known =>
        obtain rfl := fields elements derived known all
        rw [all] at returns
        exact (Option.some.inj returns).symm
    | refId => exact derived.elim
    | refName => exact derived.elim
    | refPtr => exact (Option.some.inj returns).symm

/-- How a derivation ends that returns: as the walk over the references does. -/
def Ends (types : List DataType) (e : DataElement) (result : Except Failure (List DataType × DataElement)) :
    Prop :=
  (Follows (typeEdges types) (e.edges types) true ∧ ∃ table' e', result = .ok (table', e') ∧
    Consistent types table' ∧ e'.Derived ∧ e'.getName = e.getName) ∨
  (Follows (typeEdges types) (e.edges types) false ∧ ∃ error, result = .error (.code error))

theorem typeIndex_code {e : DataElement} {failure : Failure} (fails : e.typeIndex types = .error failure) :
    ∃ error, failure = .code error := by
  cases e with
  | refId name arrayLen isDynamic id =>
    simp only [typeIndex] at fails
    split at fails
    · exact ⟨_, (Except.error.inj fails).symm⟩
    · split at fails
      · contradiction
      · exact ⟨_, (Except.error.inj fails).symm⟩
  | refName name arrayLen isDynamic typeName =>
    simp only [typeIndex] at fails
    split at fails
    · contradiction
    · exact ⟨_, (Except.error.inj fails).symm⟩
  | _ => exact ⟨_, (Except.error.inj fails).symm⟩

theorem typeIndex_lt {e : DataElement} {index : Nat} (found : e.typeIndex types = .ok index) :
    index < types.length := by
  cases e with
  | refId name arrayLen isDynamic id =>
    simp only [typeIndex] at found
    split at found
    · contradiction
    · split at found
      · next there => exact (Except.ok.inj found) ▸ there
      · contradiction
  | refName name arrayLen isDynamic typeName =>
    simp only [typeIndex] at found
    split at found
    · next index' known =>
      obtain rfl : index' = index := Except.ok.inj found
      exact (List.findIdx?_eq_some_iff_getElem.mp known).1
    · contradiction
  | _ => contradiction

theorem edges_record (name : Option CString) (arrayLen : UInt32) (isDynamic : Bool)
    (elements : List DataElement) :
    (DataElement.record name arrayLen isDynamic elements).edges types =
      (referencesOfAll elements).map (target types) := by
  rw [edges, references]

theorem edges_child (child : DataElement) (rest : List DataElement) :
    (referencesOfAll (child :: rest)).map (target types) =
      child.edges types ++ (referencesOfAll rest).map (target types) := by
  rw [referencesOfAll, List.map_append, edges]

def IsReference : DataElement → Prop
  | .refId .. => True
  | .refName .. => True
  | _ => False

theorem edges_reference {e : DataElement} (reference : e.IsReference) :
    e.edges types = [e.target types] := by
  cases e with
  | refId => rw [edges, references, List.map_singleton]
  | refName => rw [edges, references, List.map_singleton]
  | _ => exact reference.elim

theorem deriveTypesOnElement_reference {depth : Nat} {e : DataElement} (reference : e.IsReference) :
    e.deriveTypesOnElement (depth + 1) table =
      deriveReference (deriveTypesOnElement depth) table e := by
  cases e with
  | refId => rw [deriveTypesOnElement]
  | refName => rw [deriveTypesOnElement]
  | _ => exact reference.elim

/-- The type behind a reference in a derivation in progress: its element is derived next. -/
theorem deriveReference_eq (consistent : Consistent types table) (e : DataElement) :
    (e.target types = none ∧ ∃ error, ∀ derive, deriveReference derive table e = some (.error (.code error))) ∨
    ∃ (i : Fin types.length) (type : DataType) (element : DataElement),
      e.target types = some i ∧ type.name = types[i].name ∧ types[i].dataElement ≠ none ∧
      (types[i].dataElement = some element ∨ Sound (typeEdges types) i ∧ element.Derived) ∧
      ∀ derive, deriveReference derive table e =
        match derive table element with
        | none => none
        | some (.error failure) => some (.error failure)
        | some (.ok (table, target)) => some (.ok
            (table.set i { type with dataElement := some target }, e.setTypeRefPtr target)) := by
  unfold deriveReference target
  rw [consistent.typeIndex]
  cases known : e.typeIndex types with
  | error failure =>
    obtain ⟨error, rfl⟩ := typeIndex_code known
    exact .inl ⟨rfl, error, fun _ => rfl⟩
  | ok index =>
    have there := typeIndex_lt known
    obtain ⟨type, found, name, which⟩ := consistent.each ⟨index, there⟩
    simp only [there, ↓reduceDIte]
    change table[index]? = some type at found
    change type.dataElement = types[index].dataElement ∨
      (types[index].dataElement ≠ none ∧ _) ∧ _ at which
    simp only [found]
    rcases which with same | ⟨⟨has, sound⟩, element, is, derived⟩
    · cases absent : types[index].dataElement with
      | none =>
        simp only [show type.dataElement = none from same.trans absent]
        exact .inl ⟨if_pos trivial, _, fun _ => rfl⟩
      | some element =>
        have is : type.dataElement = some element := same.trans absent
        have has : types[index].dataElement ≠ none := by
          rw [absent]
          exact Option.some_ne_none element
        rw [if_neg (Option.some_ne_none element)]
        simp only [is]
        exact .inr ⟨⟨index, there⟩, type, element, rfl, name, has, .inl absent, fun _ => rfl⟩
    · rw [if_neg has]
      simp only [is]
      exact .inr ⟨⟨index, there⟩, type, element, rfl, name, has, .inr ⟨sound, derived⟩, fun _ => rfl⟩

theorem typeEdges_eq {i : Fin types.length} {e : DataElement} (has : types[i].dataElement = some e) :
    typeEdges types i = e.edges types := by
  unfold typeEdges
  rw [show (types.get i).dataElement = some e from has]

/-- A derivation that returns ends as the walk over its references does. -/
theorem derive_ends (parsedTypes : ParsedTypes types) {depth : Nat} {table : List DataType}
    {e : DataElement} (consistent : Consistent types table) (parsed : e.Parsed)
    {result : Except Failure (List DataType × DataElement)}
    (returns : e.deriveTypesOnElement depth table = some result) : Ends types e result := by
  induction depth generalizing table e result with
  | zero => contradiction
  | succ depth ih =>
    have reference : e.IsReference → Ends types e result := by
      intro reference
      rw [deriveTypesOnElement_reference reference] at returns
      rw [Ends, edges_reference reference]
      rcases deriveReference_eq consistent e with
        ⟨nowhere, error, fails⟩ | ⟨i, type, element, leads, name, has, which, step⟩
      · rw [fails] at returns
        rw [nowhere]
        exact .inr ⟨.nowhere [], error, (Option.some.inj returns).symm⟩
      · rw [step] at returns
        rw [leads]
        cases below : deriveTypesOnElement depth table element with
        | none =>
          rw [below] at returns
          contradiction
        | some known =>
          rw [below] at returns
          -- the type stands in the list as it was declared, or it is derived already
          have ends : (Follows (typeEdges types) (typeEdges types i) true ∧ ∃ table' e',
              known = .ok (table', e') ∧ Consistent types table' ∧ e'.Derived) ∨
              (Follows (typeEdges types) (typeEdges types i) false ∧ ∃ error, known = .error (.code error)) := by
            rcases which with original | ⟨sound, derived⟩
            · have mem : types[i] ∈ types := List.getElem_mem i.isLt
              rw [typeEdges_eq original]
              rcases ih consistent (parsedTypes _ mem _ original) below with
                ⟨follows, table', e', same, consistent', derived, -⟩ | fails
              · exact .inl ⟨follows, table', e', same, consistent', derived⟩
              · exact .inr fails
            · exact .inl ⟨(follows_true_iff i).mpr sound, table, element,
                derive_of_derived derived below, consistent, derived⟩
          rcases ends with ⟨follows, table', e', rfl, consistent', derived⟩ | ⟨follows, error, rfl⟩
          · have sound := (follows_true_iff i).mp follows
            exact .inl ⟨follows.single, _, _, (Option.some.inj returns).symm,
              consistent'.set i name ⟨has, sound⟩ derived, setTypeRefPtr_derived e derived⟩
          · exact .inr ⟨follows.single, error, (Option.some.inj returns).symm⟩
    cases e with
    | leaf =>
      obtain rfl := Option.some.inj returns
      exact .inl ⟨.nil, table, _, rfl, consistent, trivial, rfl⟩
    | record name arrayLen isDynamic elements =>
      have fields : ∀ fields table result, Consistent types table → ParsedFields fields →
          deriveTypesOnChildren (deriveTypesOnElement depth) table fields = some result →
          (Follows (typeEdges types) ((referencesOfAll fields).map (target types)) true ∧
            ∃ table' fields', result = .ok (table', fields') ∧ Consistent types table' ∧
              DerivedFields fields') ∨
          (Follows (typeEdges types) ((referencesOfAll fields).map (target types)) false ∧
            ∃ error, result = .error (.code error)) := by
        intro fields
        induction fields with
        | nil =>
          intro table result consistent each returns
          exact .inl ⟨.nil, table, [], (Option.some.inj returns).symm, consistent, trivial⟩
        | cons child rest ihRest =>
          intro table result consistent each returns
          rw [edges_child]
          rw [deriveTypesOnChildren] at returns
          cases first : deriveTypesOnElement depth table child with
          | none =>
            rw [first] at returns
            contradiction
          | some known =>
            rw [first] at returns
            rcases ih consistent each.1.2 first with
              ⟨follows, table', child', rfl, consistent', derived, name⟩ | ⟨follows, error, rfl⟩
            · dsimp only at returns
              cases behind : deriveTypesOnChildren (deriveTypesOnElement depth) table' rest with
              | none =>
                rw [behind] at returns
                contradiction
              | some known =>
                rw [behind] at returns
                rcases ihRest table' known consistent' each.2 behind with
                  ⟨follows', table'', rest', rfl, consistent'', derived'⟩ | ⟨follows', error, rfl⟩
                · exact .inl ⟨follows.append follows', table'', child' :: rest',
                    (Option.some.inj returns).symm, consistent'',
                    ⟨fun none_ => each.1.1 (name.symm.trans none_), derived⟩, derived'⟩
                · exact .inr ⟨follows.append follows', error, (Option.some.inj returns).symm⟩
            · exact .inr ⟨follows.append_false _, error, (Option.some.inj returns).symm⟩
      rw [deriveTypesOnElement] at returns
      rw [Ends, edges_record]
      cases all : deriveTypesOnChildren (deriveTypesOnElement depth) table elements with
      | none =>
        rw [all] at returns
        contradiction
      | some known =>
        rw [all] at returns
        rcases fields elements table known consistent parsed all with
          ⟨follows, table', fields', rfl, consistent', derived⟩ | ⟨follows, error, rfl⟩
        · exact .inl ⟨follows, table', _, (Option.some.inj returns).symm, consistent', derived, rfl⟩
        · exact .inr ⟨follows, error, (Option.some.inj returns).symm⟩
    | refId => exact reference trivial
    | refName => exact reference trivial
    | refPtr => exact parsed.elim

theorem deriveTypesOnChildren_mono
    {first second : List DataType → DataElement → Nested (List DataType × DataElement)}
    (more : ∀ table e result, first table e = some result → second table e = some result)
    {elements : List DataElement} {result : Except Failure (List DataType × List DataElement)}
    (returns : deriveTypesOnChildren first table elements = some result) :
    deriveTypesOnChildren second table elements = some result := by
  induction elements generalizing table result with
  | nil => exact returns
  | cons child rest ih =>
    rw [deriveTypesOnChildren] at returns ⊢
    cases known : first table child with
    | none =>
      rw [known] at returns
      contradiction
    | some result' =>
      rw [known] at returns
      rw [more table child result' known]
      cases result' with
      | error => exact returns
      | ok pair =>
        dsimp only at returns ⊢
        cases behind : deriveTypesOnChildren first pair.1 rest with
        | none =>
          rw [behind] at returns
          contradiction
        | some result' =>
          rw [behind] at returns
          rw [ih behind]
          exact returns

theorem deriveReference_mono
    {first second : List DataType → DataElement → Nested (List DataType × DataElement)}
    (more : ∀ table e result, first table e = some result → second table e = some result)
    {e : DataElement} {result : Except Failure (List DataType × DataElement)}
    (returns : deriveReference first table e = some result) :
    deriveReference second table e = some result := by
  unfold deriveReference at returns ⊢
  cases known : e.typeIndex table with
  | error failure =>
    rw [known] at returns
    exact returns
  | ok index =>
    rw [known] at returns
    dsimp only at returns ⊢
    cases found : table[index]? with
    | none =>
      rw [found] at returns
      exact returns
    | some type =>
      rw [found] at returns
      dsimp only at returns ⊢
      cases is : type.dataElement with
      | none =>
        rw [is] at returns
        exact returns
      | some element =>
        rw [is] at returns
        dsimp only at returns ⊢
        cases below : first table element with
        | none =>
          rw [below] at returns
          contradiction
        | some known =>
          rw [below] at returns
          rw [more table element known below]
          exact returns

/-- More depth changes nothing once a derivation has returned. -/
theorem derive_mono {depth more : Nat} (le : depth ≤ more) {e : DataElement}
    {result : Except Failure (List DataType × DataElement)}
    (returns : e.deriveTypesOnElement depth table = some result) :
    e.deriveTypesOnElement more table = some result := by
  induction depth generalizing more table e result with
  | zero => contradiction
  | succ depth ih =>
    obtain ⟨more, rfl⟩ : ∃ n, more = n + 1 := ⟨more - 1, by omega⟩
    have below : ∀ table e result, deriveTypesOnElement depth table e = some result →
        deriveTypesOnElement more table e = some result := fun table e result known => ih (by omega) known
    cases e with
    | leaf => exact returns
    | record name arrayLen isDynamic elements =>
      rw [deriveTypesOnElement] at returns ⊢
      cases all : deriveTypesOnChildren (deriveTypesOnElement depth) table elements with
      | none =>
        rw [all] at returns
        contradiction
      | some known =>
        rw [all] at returns
        rw [deriveTypesOnChildren_mono below all]
        exact returns
    | refId =>
      rw [deriveTypesOnElement] at returns ⊢
      exact deriveReference_mono below returns
    | refName =>
      rw [deriveTypesOnElement] at returns ⊢
      exact deriveReference_mono below returns
    | refPtr => exact returns

/-- A loop over the fields of a record returns when the derivation of each field does that it comes to. -/
theorem deriveTypesOnChildren_returns {fields : List DataElement}
    {P : List DataType → List DataElement → Prop} (start : P table fields)
    (step : ∀ table child rest, P table (child :: rest) → ∃ depth result,
      child.deriveTypesOnElement depth table = some result ∧
      ∀ table' child', result = .ok (table', child') → P table' rest) :
    ∃ depth result, deriveTypesOnChildren (deriveTypesOnElement depth) table fields = some result := by
  induction fields generalizing table with
  | nil => exact ⟨0, _, rfl⟩
  | cons child rest ih =>
    obtain ⟨depth, result, returns, keeps⟩ := step table child rest start
    cases result with
    | error failure => exact ⟨depth, .error failure, by rw [deriveTypesOnChildren, returns]⟩
    | ok pair =>
      obtain ⟨table', child'⟩ := pair
      obtain ⟨deep, result, returns'⟩ := ih (keeps table' child' rfl)
      have behind : deriveTypesOnChildren (deriveTypesOnElement (max depth deep)) table' rest =
          some result :=
        deriveTypesOnChildren_mono (fun table e result known => derive_mono (by omega) known) returns'
      refine ⟨max depth deep, ?_⟩
      rw [deriveTypesOnChildren, derive_mono (by omega) returns]
      dsimp only
      rw [behind]
      cases result with
      | error failure => exact ⟨_, rfl⟩
      | ok pair => exact ⟨_, rfl⟩

theorem derivedFields_iff (fields : List DataElement) :
    DerivedFields fields ↔ ∀ child ∈ fields, child.getName ≠ none ∧ child.Derived := by
  induction fields with
  | nil => simp [DerivedFields]
  | cons child rest ih => rw [DerivedFields, List.forall_mem_cons, ih]

theorem parsedFields_iff (fields : List DataElement) :
    ParsedFields fields ↔ ∀ child ∈ fields, child.getName ≠ none ∧ child.Parsed := by
  induction fields with
  | nil => simp [ParsedFields]
  | cons child rest ih => rw [ParsedFields, List.forall_mem_cons, ih]

theorem derive_record_returns {name : Option CString} {arrayLen : UInt32} {isDynamic : Bool}
    {elements : List DataElement}
    (fields : ∃ depth result, deriveTypesOnChildren (deriveTypesOnElement depth) table elements = some result) :
    ∃ depth result, (DataElement.record name arrayLen isDynamic elements).deriveTypesOnElement depth table =
      some result := by
  obtain ⟨depth, result, returns⟩ := fields
  refine ⟨depth + 1, ?_⟩
  rw [deriveTypesOnElement, returns]
  cases result with
  | error failure => exact ⟨_, rfl⟩
  | ok pair => exact ⟨_, rfl⟩

theorem derive_returns_of_derived {e : DataElement} (derived : e.Derived) (table : List DataType) :
    ∃ depth result, e.deriveTypesOnElement depth table = some result := by
  induction e using tree_induction generalizing table with
  | leaf => exact ⟨1, _, rfl⟩
  | record name arrayLen isDynamic elements ih =>
    apply derive_record_returns
    refine deriveTypesOnChildren_returns (P := fun _ rest => ∀ child ∈ rest, child ∈ elements)
      (fun _ mem => mem) ?_
    intro table child rest within
    have mem := within child List.mem_cons_self
    obtain ⟨depth, result, returns⟩ := ih child mem ((derivedFields_iff elements).mp derived child mem).2 table
    exact ⟨depth, result, returns, fun _ _ _ other mem => within other (List.mem_cons_of_mem _ mem)⟩
  | refId => exact derived.elim
  | refName => exact derived.elim
  | refPtr => exact ⟨1, _, rfl⟩

/-- A derivation returns when the walk over its references does. -/
theorem derive_returns (parsedTypes : ParsedTypes types) {k : Nat} {e : DataElement} {b : Bool}
    (follows : follow (visit (typeEdges types) k) (e.edges types) = some b)
    (consistent : Consistent types table) (parsed : e.Parsed) :
    ∃ depth result, e.deriveTypesOnElement depth table = some result := by
  induction k using Nat.strong_induction_on generalizing table e b with
  | _ k ih =>
    have reference {e : DataElement} {table : List DataType} {b : Bool} (is : e.IsReference)
        (consistent : Consistent types table)
        (follows : follow (visit (typeEdges types) k) (e.edges types) = some b) :
        ∃ depth result, e.deriveTypesOnElement depth table = some result := by
      have below : ∃ depth result, deriveReference (deriveTypesOnElement depth) table e = some result := by
        rcases deriveReference_eq consistent e with
          ⟨nowhere, error, fails⟩ | ⟨i, type, element, leads, name, has, which, step⟩
        · exact ⟨0, _, fails _⟩
        · rw [edges_reference is, leads, follow] at follows
          have inner : ∃ depth result, element.deriveTypesOnElement depth table = some result := by
            rcases which with original | ⟨sound, derived⟩
            · cases k with
              | zero => contradiction
              | succ k =>
                cases visited : visit (typeEdges types) (k + 1) i with
                | none =>
                  rw [visited] at follows
                  contradiction
                | some c =>
                  rw [visit, typeEdges_eq original] at visited
                  exact ih k (by omega) visited consistent
                    (parsedTypes _ (List.getElem_mem i.isLt) _ original)
            · exact derive_returns_of_derived derived table
          obtain ⟨depth, result, returns⟩ := inner
          refine ⟨depth, ?_⟩
          rw [step, returns]
          cases result with
          | error failure => exact ⟨_, rfl⟩
          | ok pair => exact ⟨_, rfl⟩
      obtain ⟨depth, result, returns⟩ := below
      exact ⟨depth + 1, result, by rw [deriveTypesOnElement_reference is, returns]⟩
    induction e using tree_induction generalizing table b with
    | leaf => exact ⟨1, _, rfl⟩
    | record name arrayLen isDynamic elements ihChildren =>
      apply derive_record_returns
      refine deriveTypesOnChildren_returns (P := fun table rest => Consistent types table ∧
        (∀ child ∈ rest, child ∈ elements) ∧
        ∃ b, follow (visit (typeEdges types) k) ((referencesOfAll rest).map (target types)) = some b)
        ⟨consistent, fun _ mem => mem, b, by rw [← edges_record]; exact follows⟩ ?_
      rintro table child rest ⟨consistent, within, b, follows⟩
      have mem := within child List.mem_cons_self
      have parsed := ((parsedFields_iff elements).mp parsed child mem).2
      rw [edges_child, follow_append] at follows
      cases first : follow (visit (typeEdges types) k) (child.edges types) with
      | none =>
        rw [first] at follows
        contradiction
      | some c =>
        obtain ⟨depth, result, returns⟩ := ihChildren child mem first consistent parsed
        refine ⟨depth, result, returns, ?_⟩
        rintro table' child' rfl
        rcases derive_ends parsedTypes consistent parsed returns with
          ⟨follows', table'', child'', same, consistent', -⟩ | ⟨-, error, same⟩
        · cases same
          obtain rfl : c = true := Follows.unique ⟨k, first⟩ follows'
          rw [first] at follows
          exact ⟨consistent', fun other mem => within other (List.mem_cons_of_mem _ mem), b, follows⟩
        · contradiction
    | refId => exact reference trivial consistent follows
    | refName => exact reference trivial consistent follows
    | refPtr => exact parsed.elim

end DataElement

end Apx

