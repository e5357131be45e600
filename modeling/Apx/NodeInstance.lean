import Apx.NodeBuild
import Apx.Vm

/-! The rest of the build of a node instance (build_node_instance in node_manager.c): the data areas
of its ports with their init data, and the byte port map (byte_port_map.c). -/

namespace Apx

open LittleEndian

/-- The loop of calc_init_data_size -/
def sumDataSizes (totalSize : Nat) : List PortInstance → Except Failure Nat
  | [] => .ok totalSize
  | inst :: rest =>
      if inst.dataSize > 0 then sumDataSizes (u32 (totalSize + inst.dataSize)) rest
      else .error .assertion

/-- calc_init_data_size -/
def calcInitDataSize (instances : List PortInstance) : Except Failure Nat :=
  if instances.isEmpty then .error (.code .invalidArgument) else sumDataSizes 0 instances

/-- apx_nodeInstance_alloc_init_data_memory for the ports of one type. The area is a null pointer
when there are none; only the sum for the provide ports is asserted not to be zero. -/
def allocInitDataMemory (portType : PortType) (instances : List PortInstance) :
    Except Failure (Option Bytes) :=
  if instances.length > 0 then
    match calcInitDataSize instances with
    | .error failure => .error failure
    | .ok size =>
      if portType = .provide ∧ size = 0 then .error .assertion
      else .ok (some (List.replicate size 0))
  else .ok none

/-- create_port_init_data. An instance without a pack program fails to be selected. -/
def createPortInitData (dtl : Dtl) (fuel : Nat) (vm : Vm) (inst : PortInstance) (value : Dv)
    (data : Bytes) : Option (Result Vm Unit) :=
  match inst.packProgram with
  | none => some (.fail (.code .invalidArgument) vm)
  | some program => vm.packWith dtl fuel program data value

/-- A loop of create_init_data_on_node_instance over the ports of one type. The virtual machine is the
same one for all ports, and its write buffer is a part of the area. -/
def createInitData (dtl : Dtl) (fuel : Nat) (vm : Vm) (dataOffset : Nat) (data : Bytes) :
    List Port → List PortInstance → Option (Except Failure (Vm × Bytes))
  | [], _ => some (.ok (vm, data))
  | _ :: _, [] => some (.error (.code .nullPtr))
  | port :: ports, inst :: instances =>
    if inst.dataSize = 0 then some (.error .assertion)
    else
      match port.properInitValue with
      | none => createInitData dtl fuel vm (dataOffset + inst.dataSize) data ports instances
      | some value =>
        if dataOffset + inst.dataSize > data.length then some (.error .outOfBounds)
        else
          match createPortInitData dtl fuel vm inst value (slice data dataOffset inst.dataSize) with
          | none => none
          | some (.fail failure _) => some (.error failure)
          | some (.ok _ vm) =>
              createInitData dtl fuel vm (dataOffset + inst.dataSize)
                (splice data dataOffset vm.serializer.buffer.bytes) ports instances

/-- create_init_data_on_node_instance, which leaves the two areas. Its tests for areas that could not be
allocated are left out: no allocation fails here. -/
def createInitDataOnNodeInstance (dtl : Dtl) (fuel : Nat) (memory : ScalarWord) (node : Node)
    (built : PortsBuilt) : Option (Except Failure (Option Bytes × Option Bytes)) :=
  match allocInitDataMemory .provide built.providePorts with
  | .error failure => some (.error failure)
  | .ok provideData =>
    match allocInitDataMemory .require built.requirePorts with
    | .error failure => some (.error failure)
    | .ok requireData =>
      if (provideData.getD []).length ≠ built.providePortDataSize ∨
          (requireData.getD []).length ≠ built.requirePortDataSize then
        some (.error (.code .length))
      else
        match createInitData dtl fuel (.create memory) 0 (provideData.getD []) node.providePorts
            built.providePorts with
        | none => none
        | some (.error failure) => some (.error failure)
        | some (.ok (vm, provided)) =>
          match createInitData dtl fuel vm 0 (requireData.getD []) node.requirePorts
              built.requirePorts with
          | none => none
          | some (.error failure) => some (.error failure)
          | some (.ok (_, required)) =>
              some (.ok (provideData.map fun _ => provided, requireData.map fun _ => required))

/-- apx_nodeData_create_provide_port_data and apx_nodeData_create_require_port_data, where
apx_nodeInstance_finalize_node_data calls them: the node data gets a copy of the init data. -/
def createPortData (initData : Option Bytes) : Except Failure (Option Bytes) :=
  match initData with
  | none => .ok none
  | some data => if data.length > 0 then .ok (some data) else .error (.code .invalidArgument)

/-- APX_INVALID_PORT_ID -/
def invalidPortId : Nat := 0xFFFFFFFF

/-- The port ids of apx_bytePortMap_t, one for each byte of an area -/
abbrev BytePortMap := List Nat

/-- The loop of apx_bytePortMap_build with its two asserts; `written` is what stands in front of the
pointer `next`. -/
def bytePortMapLoop (portId mapLen : Nat) (written : BytePortMap) :
    List PortInstance → Except Failure BytePortMap
  | [] => if written.length = mapLen then .ok written else .error .assertion
  | inst :: rest =>
      if written.length + inst.dataSize ≤ mapLen then
        bytePortMapLoop (portId + 1) mapLen (written ++ List.replicate inst.dataSize portId) rest
      else .error .assertion

/-- apx_bytePortMap_create with apx_bytePortMap_build -/
def createBytePortMap (totalSize : Nat) (instances : List PortInstance) : Except Failure BytePortMap :=
  if instances.length > 0 ∧ totalSize > 0 then bytePortMapLoop 0 totalSize [] instances
  else .error (.code .invalidArgument)

/-- apx_bytePortMap_new for the ports of one type. Ports without an area need no map. -/
def newBytePortMap (instances : List PortInstance) (data : Option Bytes) :
    Except Failure (Option BytePortMap) :=
  match data with
  | none => .ok none
  | some data =>
    match createBytePortMap data.length instances with
    | .error failure => .error failure
    | .ok map => .ok (some map)

/-- apx_bytePortMap_lookup. A map that was not made is a null pointer. -/
def BytePortMap.lookup (map : Option BytePortMap) (offset : Nat) : Nat :=
  match map with
  | none => invalidPortId
  | some map => map.getD offset invalidPortId

/-- apx_nodeInstance_t, what its build leaves in it. The connector table holds an empty list for every
provide port and is left out. -/
structure NodeInstance where
  mode : Mode
  providePorts : List PortInstance
  requirePorts : List PortInstance
  dataElements : List DataElement
  providePortInitData : Option Bytes
  requirePortInitData : Option Bytes
  providePortData : Option Bytes
  requirePortData : Option Bytes
  bytePortMap : Option BytePortMap

namespace NodeInstance

def ports (inst : NodeInstance) : PortType → List PortInstance
  | .provide => inst.providePorts
  | .require => inst.requirePorts

def portInitData (inst : NodeInstance) : PortType → Option Bytes
  | .provide => inst.providePortInitData
  | .require => inst.requirePortInitData

def portData (inst : NodeInstance) : PortType → Option Bytes
  | .provide => inst.providePortData
  | .require => inst.requirePortData

def setPortData (inst : NodeInstance) (portType : PortType) (data : Option Bytes) : NodeInstance :=
  match portType with
  | .provide => { inst with providePortData := data }
  | .require => { inst with requirePortData := data }

end NodeInstance

/-- apx_nodeInstance_create_byte_port_map: a client maps its require ports, a server the provide
ports. -/
def nodeBytePortMap (mode : Mode) (built : PortsBuilt) (provideData requireData : Option Bytes) :
    Except Failure (Option BytePortMap) :=
  match mode with
  | .client => newBytePortMap built.requirePorts requireData
  | .server => newBytePortMap built.providePorts provideData

/-- build_node_instance. Every pack run gets `fuel` passes through its loop; `none` says that one of
them did not return. `instances` and `memory` are what allocated memory holds. -/
def buildNodeInstance (dtl : Dtl) (fuel : Nat) (mode : Mode) (instances : PortMemory)
    (memory : ScalarWord) (node : Node) : Option (Except Failure NodeInstance) :=
  match createPortsOnNodeInstance mode instances node with
  | .error failure => some (.error failure)
  | .ok built =>
    match createInitDataOnNodeInstance dtl fuel memory node built with
    | none => none
    | some (.error failure) => some (.error failure)
    | some (.ok (provideInit, requireInit)) =>
      match createPortData provideInit with
      | .error failure => some (.error failure)
      | .ok provideData =>
        match createPortData requireInit with
        | .error failure => some (.error failure)
        | .ok requireData =>
          match nodeBytePortMap mode built provideInit requireInit with
          | .error failure => some (.error failure)
          | .ok map => some (.ok {
              mode := mode, providePorts := built.providePorts, requirePorts := built.requirePorts,
              dataElements := built.dataElements,
              providePortInitData := provideInit, requirePortInitData := requireInit,
              providePortData := provideData, requirePortData := requireData, bytePortMap := map })

end Apx
