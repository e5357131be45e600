import Apx.Port
import Apx.Program

/-! The ports of a node instance (create_ports_on_node_instance in node_manager.c, with what it calls
in node_instance.c and port_instance.c). -/

namespace Apx

/-- apx_portType_t -/
inductive PortType where
  | require | provide
  deriving DecidableEq, Repr

/-- apx_mode_t -/
inductive Mode where
  | client | server
  deriving DecidableEq, Repr

/-- apx_portInstance_t, without the pointers to its parent and to its computations -/
structure PortInstance where
  portType : PortType := .require
  portId : Nat := 0
  name : Option Bytes := none
  packProgram : Option Bytes := none
  unpackProgram : Option Bytes := none
  effectiveElement : Option DataElement := none
  dataOffset : Nat := 0
  dataSize : Nat := 0
  queueLength : Nat := 0
  elementSize : Nat := 0
  hasDynamicData : Bool := false
  portSignature : Option Bytes := none
  deriving Repr

/-- apx_node_t with its ports in the order of their ids -/
structure Node where
  providePorts : List Port
  requirePorts : List Port

def Node.ports (node : Node) : PortType → List Port
  | .provide => node.providePorts
  | .require => node.requirePorts

/-- The programs that the loops of create_ports_on_node_instance compile for a port, with the last
error code. The unpack program of a require port is compiled only behind its pack program. -/
def Port.programs (port : Port) : PortType → Option Bytes × Option Bytes × Option Failure
  | .provide =>
      let pack := port.compile .pack
      (pack.program, none, pack.error)
  | .require =>
      let pack := port.compile .pack
      match pack.error with
      | some failure => (pack.program, none, some failure)
      | none =>
          let unpack := port.compile .unpack
          (pack.program, unpack.program, unpack.error)

namespace PortInstance

/-- apx_portInstance_create -/
def create (portType : PortType) (portId : Nat) (name : Bytes) (packProgram unpackProgram : Option Bytes) :
    PortInstance :=
  { portType := portType, portId := portId, name := some name, packProgram := packProgram,
    unpackProgram := unpackProgram }

/-- apx_portInstance_derive_properties, which returns the data size -/
def deriveProperties (inst : PortInstance) (offset : Nat) : Result PortInstance Nat :=
  match if inst.portType = .provide then inst.packProgram else inst.unpackProgram with
  | none => .fail (.code .nullPtr) inst
  | some program =>
    match decodeHeader program 0 {} with
    | .fail failure _ => .fail failure inst
    | .ok _ (_, header) => .ok header.dataSize { inst with
        dataSize := header.dataSize, hasDynamicData := header.hasDynamicData,
        queueLength := header.queueLength, elementSize := header.elementSize, dataOffset := offset }

/-- apx_port_instance_create_port_signature. The name is the first thing that adt_str_append_cstr gets. -/
def createPortSignature (inst : PortInstance) : Except Failure PortInstance :=
  match inst.portSignature with
  | some _ => .ok inst
  | none =>
    match inst.name with
    | none => .error (.code .invalidArgument)
    | some name =>
      match inst.effectiveElement with
      | none => .error (.code .nullPtr)
      | some e =>
        match DataElement.portSignature name e with
        | none => .error (.code .nullPtr)
        | some text => .ok { inst with portSignature := some text }

end PortInstance

/-- A loop of create_ports_on_node_instance over the ports of one type, with its variable `result`.
A port that does not compile does not end the loop, and the next one that does resets the variable.
A port that compiles but cannot be created ends it. -/
def createPortInstances (portType : PortType) (instances : List PortInstance) (portId dataOffset : Nat)
    (result : Option ApxError) : List Port → Except Failure (List PortInstance × Nat)
  | [] =>
    match result with
    | none => .ok (instances, dataOffset)
    | some error => .error (.code error)
  | port :: rest =>
    let (pack, unpack, error) := port.programs portType
    match error with
    | some (.code error) =>
        createPortInstances portType instances (portId + 1) dataOffset (some error) rest
    | some failure => .error failure
    | none =>
      let inst := PortInstance.create portType portId port.name.bytes pack unpack
      match inst.deriveProperties dataOffset with
      | .fail failure _ => .error failure
      | .ok dataSize inst => createPortInstances portType (instances.set portId inst) (portId + 1)
          (u32 (dataOffset + dataSize)) none rest

/-- The data elements that ports share, and the map from their texts -/
structure ElementTable where
  list : List DataElement := []
  map : List (Bytes × DataElement) := []
  deriving Repr

/-- update_data_element_list_on_port. An element without a text is not found in the map and not
entered into it. -/
def ElementTable.update (table : ElementTable) (inst : PortInstance) (port : Port) :
    Except Failure (ElementTable × PortInstance) :=
  match port.effectiveElement with
  | none => .error (.code .nullPtr)
  | some e =>
    let signature := e.toString false
    match signature.bind fun text => table.map.lookup text with
    | some existing => .ok (table, { inst with effectiveElement := some existing })
    | none =>
        let map := match signature with
          | some text => (text, e.clone) :: table.map
          | none => table.map
        .ok ({ list := table.list ++ [e.clone], map := map },
          { inst with effectiveElement := some e.clone })

/-- A loop of create_data_element_list_on_node_instance over the ports of one type -/
def ElementTable.updateAll (table : ElementTable) :
    List PortInstance → List Port → Except Failure (ElementTable × List PortInstance)
  | inst :: instances, port :: ports =>
    match table.update inst port with
    | .error failure => .error failure
    | .ok (table, inst) =>
      match table.updateAll instances ports with
      | .error failure => .error failure
      | .ok (table, instances) => .ok (table, inst :: instances)
  | instances, _ => .ok (table, instances)

/-- A loop of create_port_signatures_on_node_instance over the ports of one type -/
def createPortSignatures : List PortInstance → Except Failure (List PortInstance)
  | [] => .ok []
  | inst :: rest =>
    match inst.createPortSignature with
    | .error failure => .error failure
    | .ok inst =>
      match createPortSignatures rest with
      | .error failure => .error failure
      | .ok rest => .ok (inst :: rest)

/-- What create_ports_on_node_instance leaves in the node instance and in its two results -/
structure PortsBuilt where
  providePorts : List PortInstance
  requirePorts : List PortInstance
  dataElements : List DataElement
  providePortDataSize : Nat
  requirePortDataSize : Nat

/-- The port instances of one type, and the data size expected for them -/
def PortsBuilt.ports (built : PortsBuilt) : PortType → List PortInstance
  | .provide => built.providePorts
  | .require => built.requirePorts

def PortsBuilt.portDataSize (built : PortsBuilt) : PortType → Nat
  | .provide => built.providePortDataSize
  | .require => built.requirePortDataSize

/-- What malloc returns for the port instances of a node: nothing sets it before the loops do. -/
abbrev PortMemory := PortType → Nat → PortInstance

/-- apx_nodeInstance_alloc_port_instance_memory, for the ports of one type -/
def allocPortInstances (memory : PortMemory) (portType : PortType) (count : Nat) : List PortInstance :=
  (List.range count).map (memory portType)

/-- create_ports_on_node_instance. The step for the computations of the ports does not fail and
changes nothing of what stands here, so it is left out. -/
def createPortsOnNodeInstance (mode : Mode) (memory : PortMemory) (node : Node) :
    Except Failure PortsBuilt :=
  match createPortInstances .provide (allocPortInstances memory .provide node.providePorts.length)
      0 0 none node.providePorts with
  | .error failure => .error failure
  | .ok (provides, providePortDataSize) =>
    match createPortInstances .require (allocPortInstances memory .require node.requirePorts.length)
        0 0 none node.requirePorts with
    | .error failure => .error failure
    | .ok (requires, requirePortDataSize) =>
      match ElementTable.updateAll {} provides node.providePorts with
      | .error failure => .error failure
      | .ok (table, provides) =>
        match table.updateAll requires node.requirePorts with
        | .error failure => .error failure
        | .ok (table, requires) =>
          let built : PortsBuilt :=
            { providePorts := provides, requirePorts := requires, dataElements := table.list,
              providePortDataSize := providePortDataSize,
              requirePortDataSize := requirePortDataSize }
          if mode = .server then
            match createPortSignatures provides with
            | .error failure => .error failure
            | .ok provides =>
              match createPortSignatures requires with
              | .error failure => .error failure
              | .ok requires => .ok { built with providePorts := provides, requirePorts := requires }
          else .ok built

end Apx
