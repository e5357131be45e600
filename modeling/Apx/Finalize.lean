import Apx.Declarations
import Apx.Port

/-! What apx_node_finalize does to a parsed node (node.c, data_type.c, data_element.c): the references
to types are resolved, the elements of the ports become flat and their init values proper. -/

namespace Apx

/-- How a call ends that may nest too deep to return: `none` says that it has not returned. -/
abbrev Nested (α : Type) := Option (Except Failure α)

namespace DataElement

/-- The place of a type in the list of types, from which adt_ary_value or adt_hash_value take it -/
def typeIndex (types : List DataType) : DataElement → Except Failure Nat
  | .refId _ _ _ id =>
      -- the id is read as an int32_t, and one past the end of the list is not out of range yet
      if 2 ^ 31 ≤ id.toNat ∨ types.length < id.toNat then .error (.code .invalidTypeRef)
      else if id.toNat < types.length then .ok id.toNat
      else .error (.code .nullPtr)
  | .refName _ _ _ typeName =>
    match types.findIdx? fun type => type.name = typeName with
    | some index => .ok index
    | none => .error (.code .invalidTypeRef)
  | _ => .error (.code .internal)

/-- apx_dataElement_set_type_ref_ptr -/
def setTypeRefPtr (e target : DataElement) : DataElement :=
  match e with
  | .leaf name _ arrayLen isDynamic _ => .refPtr name arrayLen isDynamic target
  | .record name arrayLen isDynamic _ => .refPtr name arrayLen isDynamic target
  | .refId name arrayLen isDynamic _ => .refPtr name arrayLen isDynamic target
  | .refName name arrayLen isDynamic _ => .refPtr name arrayLen isDynamic target
  | .refPtr name arrayLen isDynamic _ => .refPtr name arrayLen isDynamic target

/-- The loop of apx_dataElement_derive_types_on_element over the fields of a record -/
def deriveTypesOnChildren (derive : List DataType → DataElement → Nested (List DataType × DataElement))
    (types : List DataType) : List DataElement → Nested (List DataType × List DataElement)
  | [] => some (.ok (types, []))
  | child :: rest =>
    match derive types child with
    | none => none
    | some (.error failure) => some (.error failure)
    | some (.ok (types, child)) =>
      match deriveTypesOnChildren derive types rest with
      | none => none
      | some (.error failure) => some (.error failure)
      | some (.ok (types, rest)) => some (.ok (types, child :: rest))

/-- A reference in apx_dataElement_derive_types_on_element: the element of the type is derived first,
in its place in the list, and only then the reference is marked as resolved. -/
def deriveReference (derive : List DataType → DataElement → Nested (List DataType × DataElement))
    (types : List DataType) (e : DataElement) : Nested (List DataType × DataElement) :=
  match e.typeIndex types with
  | .error failure => some (.error failure)
  | .ok index =>
    match types[index]? with
    | none => some (.error (.code .nullPtr))
    | some type =>
      match type.dataElement with
      | none => some (.error (.code .nullPtr))
      | some element =>
        match derive types element with
        | none => none
        | some (.error failure) => some (.error failure)
        | some (.ok (types, target)) =>
            some (.ok (types.set index { type with dataElement := some target },
              e.setTypeRefPtr target))

/-- apx_dataElement_derive_types_on_element, with a bound on how deep the calls may nest. It returns
the list of types and the element as it leaves them. -/
def deriveTypesOnElement : Nat → List DataType → DataElement → Nested (List DataType × DataElement)
  | 0, _, _ => none
  | _ + 1, types, .leaf name code arrayLen isDynamic limits =>
      some (.ok (types, .leaf name code arrayLen isDynamic limits))
  | depth + 1, types, .record name arrayLen isDynamic elements =>
    match deriveTypesOnChildren (deriveTypesOnElement depth) types elements with
    | none => none
    | some (.error failure) => some (.error failure)
    | some (.ok (types, elements)) => some (.ok (types, .record name arrayLen isDynamic elements))
  | depth + 1, types, .refId name arrayLen isDynamic id =>
      deriveReference (deriveTypesOnElement depth) types (.refId name arrayLen isDynamic id)
  | depth + 1, types, .refName name arrayLen isDynamic typeName =>
      deriveReference (deriveTypesOnElement depth) types (.refName name arrayLen isDynamic typeName)
  | _ + 1, types, .refPtr name arrayLen isDynamic target =>
      some (.ok (types, .refPtr name arrayLen isDynamic target))

/-- A value that is neither a scalar nor a list, in apx_dataElement_derive_proper_init_value -/
def otherInitValue : DataElement → Except Failure Dv
  | .leaf _ code .. => if code = .none then .error (.code .unsupported) else .error (.code .valueType)
  | .record .. => .error (.code .valueType)
  | _ => .error (.code .unsupported)

mutual

/-- apx_dataElement_derive_proper_init_value -/
def deriveProperInitValue (e : DataElement) : Dv → Except Failure Dv
  | .array av =>
    match e with
    | .record _ arrayLen isDynamic elements =>
        if 0 < arrayLen then
          if isDynamic then if av = [] then .ok (.array []) else .error (.code .notImplemented)
          else if u32 av.length ≠ arrayLen.toNat then .error (.code .valueLength)
          else
            match deriveRecordInitValues elements av with
            | .error failure => .error failure
            | .ok derived => .ok (.array derived)
        else if elements.length ≠ av.length then .error (.code .valueLength)
        else
          match deriveHashInitValue elements [] av with
          | .error failure => .error failure
          | .ok hv => .ok (.hash hv)
    | .leaf _ code arrayLen isDynamic _ =>
        if code = .none then .error (.code .unsupported)
        else if 0 < arrayLen then
          if isDynamic then if av = [] then .ok (.array []) else .error (.code .unsupported)
          else if arrayLen.toNat ≠ u32 av.length then .error (.code .valueLength)
          else if av.all fun dv => dv.type = .scalar then .ok (.array av)
          else .error (.code .valueType)
        else .error (.code .valueType)
    | _ => .error (.code .unsupported)
  | .scalar sv =>
    match e with
    | .record .. => .error (.code .valueType)
    | .leaf _ code arrayLen _ _ =>
        if code = .none then .error (.code .unsupported)
        else if 0 < arrayLen then
          match sv with
          | .str value => if code = .char ∨ code = .char8 then .ok (.scalar (.str value))
              else .error (.code .valueType)
          | _ => .error (.code .valueType)
        else .ok (.scalar sv)
    | _ => .error (.code .unsupported)
  | .null => otherInitValue e
  | .hash _ => otherInitValue e

/-- The loop over the elements of an array of records, which passes over what is not a list -/
def deriveRecordInitValues (elements : List DataElement) : List Dv → Except Failure (List Dv)
  | [] => .ok []
  | .array av :: rest =>
      if elements.length ≠ av.length then .error (.code .valueLength)
      else
        match deriveHashInitValue elements [] av with
        | .error failure => .error failure
        | .ok hv =>
          match deriveRecordInitValues elements rest with
          | .error failure => .error failure
          | .ok derived => .ok (.hash hv :: derived)
  | _ :: rest => deriveRecordInitValues elements rest

/-- The loop of derive_hash_init_value over the fields and the values of a list as long -/
def deriveHashInitValue : List DataElement → List (Bytes × Dv) → List Dv → Except Failure (List (Bytes × Dv))
  | child :: children, hv, parsed :: rest =>
    match child.getName with
    | none => .error .assertion
    | some name =>
      match child.deriveDataElement with
      | .error failure => .error failure
      | .ok derived =>
        match deriveProperInitValue derived parsed with
        | .error failure => .error failure
        | .ok value => deriveHashInitValue children (Hash.set hv name.bytes value) rest
  | _, hv, _ => .ok hv

end

end DataElement

/-- An error of apx_node_finalize, with last_error_line -/
structure FinalizeError where
  failure : Failure
  line : Int
  deriving DecidableEq, Repr

namespace PortDeclaration

/-- apx_port_derive_types -/
def deriveTypes (depth : Nat) (types : List DataType) (port : PortDeclaration) :
    Nested (List DataType × PortDeclaration) :=
  match port.dataElement with
  | none => some (.error (.code .nullPtr))
  | some e =>
    match e.deriveTypesOnElement depth types with
    | none => none
    | some (.error failure) => some (.error failure)
    | some (.ok (types, e)) => some (.ok (types, { port with dataElement := some e }))

/-- apx_port_flatten_data_element -/
def flattenDataElement (port : PortDeclaration) : Except Failure PortDeclaration :=
  match port.dataElement with
  | none => .error (.code .nullPtr)
  | some e =>
    match e.flatten with
    | .error failure => .error failure
    | .ok flat => .ok { port with effectiveElement := some flat }

/-- apx_port_derive_proper_init_value -/
def deriveProperInitValue (port : PortDeclaration) : Except Failure PortDeclaration :=
  match port.effectiveElement with
  | none => .error (.code .nullPtr)
  | some e =>
    match port.attributes.bind fun attributes => attributes.initValue with
    | none => .ok port
    | some parsed =>
      match e.deriveProperInitValue parsed with
      | .error failure => .error failure
      | .ok derived => .ok { port with properInitValue := some derived }

end PortDeclaration

/-- derive_types_on_ports -/
def deriveTypesOnPorts (depth : Nat) (types : List DataType) :
    List PortDeclaration → Option (Except FinalizeError (List DataType × List PortDeclaration))
  | [] => some (.ok (types, []))
  | port :: rest =>
    match port.deriveTypes depth types with
    | none => none
    | some (.error failure) => some (.error ⟨failure, port.lineNumber⟩)
    | some (.ok (types, port)) =>
      match deriveTypesOnPorts depth types rest with
      | none => none
      | some (.error error) => some (.error error)
      | some (.ok (types, rest)) => some (.ok (types, port :: rest))

/-- expand_data_elements_on_ports and derive_proper_init_values_on_ports -/
def changePorts (change : PortDeclaration → Except Failure PortDeclaration) :
    List PortDeclaration → Except FinalizeError (List PortDeclaration)
  | [] => .ok []
  | port :: rest =>
    match change port with
    | .error failure => .error ⟨failure, port.lineNumber⟩
    | .ok port =>
      match changePorts change rest with
      | .error error => .error error
      | .ok rest => .ok (port :: rest)

namespace NodeDeclaration

/-- The part of apx_node_finalize behind the derivation of the types -/
def expandAndDeriveInitValues (node : NodeDeclaration) : Except FinalizeError NodeDeclaration :=
  match changePorts PortDeclaration.flattenDataElement node.providePorts with
  | .error error => .error error
  | .ok provides =>
    match changePorts PortDeclaration.flattenDataElement node.requirePorts with
    | .error error => .error error
    | .ok requires =>
      match changePorts PortDeclaration.deriveProperInitValue provides with
      | .error error => .error error
      | .ok provides =>
        match changePorts PortDeclaration.deriveProperInitValue requires with
        | .error error => .error error
        | .ok requires => .ok
            { node with providePorts := provides, requirePorts := requires, isFinalized := true }

/-- apx_node_finalize, with a bound on how deep its calls may nest -/
def finalize (depth : Nat) (node : NodeDeclaration) : Option (Except FinalizeError NodeDeclaration) :=
  if node.isFinalized then some (.ok node)
  else
    match deriveTypesOnPorts depth node.dataTypes node.providePorts with
    | none => none
    | some (.error error) => some (.error error)
    | some (.ok (types, provides)) =>
      match deriveTypesOnPorts depth types node.requirePorts with
      | none => none
      | some (.error error) => some (.error error)
      | some (.ok (types, requires)) => some
          ({ node with dataTypes := types, providePorts := provides, requirePorts := requires }
            : NodeDeclaration).expandAndDeriveInitValues

end NodeDeclaration

end Apx
