import Apx.NodeInstance
import Mathlib.Logic.Function.Basic

/-! The nodes of a server and how their ports find each other: the port signature map
(port_signature_map.c and port_signature_map_entry.c) and the tables of port connector changes
(port_connector_change_table.c and port_connector_change_entry.c). -/

namespace Apx

/-- apx_dataState_t -/
inductive DataState where
  | init | waitingFileInfo | waitingForFileOpenRequest | waitingForFileData | connected | disconnected
  deriving DecidableEq, Repr

/-- A pointer to a port instance: the node that is its parent, and its id among the ports of its type. -/
structure PortRef where
  node : Nat
  portId : Nat
  deriving DecidableEq, Repr

/-- apx_portConnectorEvent_t -/
inductive ConnectorEvent where
  | connected | disconnected
  deriving DecidableEq, Repr

/-- apx_portConnectorChangeEntry_t: the count is negative for disconnects. The union of one port and
an array of ports is a list. -/
structure ChangeEntry where
  count : Int := 0
  ports : List PortRef := []
  deriving DecidableEq, Repr

/-- apx_portConnectorChangeEntry_add_connection -/
def ChangeEntry.addConnection (entry : ChangeEntry) (port : PortRef) : Except Failure ChangeEntry :=
  if entry.count < 0 then .error (.code .unsupported)
  else .ok { count := entry.count + 1, ports := entry.ports ++ [port] }

/-- apx_portConnectorChangeEntry_remove_connection -/
def ChangeEntry.removeConnection (entry : ChangeEntry) (port : PortRef) : Except Failure ChangeEntry :=
  if entry.count > 0 then .error (.code .unsupported)
  else .ok { count := entry.count - 1, ports := entry.ports ++ [port] }

/-- The action_func that an event selects -/
def ChangeEntry.act (event : ConnectorEvent) : ChangeEntry → PortRef → Except Failure ChangeEntry :=
  match event with
  | .connected => addConnection
  | .disconnected => removeConnection

/-- The entries of apx_portConnectorChangeTable_t, one for each port -/
abbrev ChangeTable := List ChangeEntry

/-- apx_portSignatureMapEntry_t. New ports come last in the lists. -/
structure SignatureMapEntry where
  requirePorts : List PortRef := []
  providePorts : List PortRef := []
  preferredProvider : Option PortRef := none
  deriving DecidableEq, Repr

def SignatureMapEntry.ports (entry : SignatureMapEntry) : PortType → List PortRef
  | .provide => entry.providePorts
  | .require => entry.requirePorts

/-- apx_portSignatureMapEntry_is_empty -/
def SignatureMapEntry.isEmpty (entry : SignatureMapEntry) : Bool :=
  entry.providePorts.isEmpty && entry.requirePorts.isEmpty

/-- apx_portSignatureMapEntry_attach_provide_port (always as the preferred one) and
apx_portSignatureMapEntry_attach_require_port -/
def SignatureMapEntry.attach (entry : SignatureMapEntry) (port : PortRef) : PortType → SignatureMapEntry
  | .provide => { entry with
      providePorts := entry.providePorts ++ [port], preferredProvider := some port }
  | .require => { entry with requirePorts := entry.requirePorts ++ [port] }

/-- apx_portSignatureMapEntry_detach_provide_port and apx_portSignatureMapEntry_detach_require_port:
one occurrence is taken out. -/
def SignatureMapEntry.detach (entry : SignatureMapEntry) (port : PortRef) : PortType → SignatureMapEntry
  | .provide => { entry with providePorts := entry.providePorts.erase port }
  | .require => { entry with requirePorts := entry.requirePorts.erase port }

def PortType.opposite : PortType → PortType
  | .provide => .require
  | .require => .provide

/-- apx_nodeInstance_t in a server, without what only its build uses. Of the file for the require port
data it matters whether there is one and whether it is open. -/
structure ServerNode where
  connection : Nat
  inst : NodeInstance
  state : PortType → DataState
  changes : PortType → Option ChangeTable := fun _ => none
  connectorTable : List (List PortRef) := []
  requirePortDataFile : Option Bool := none

namespace ServerNode

def ports (node : ServerNode) (portType : PortType) : List PortInstance := node.inst.ports portType

def setState (node : ServerNode) (portType : PortType) (state : DataState) : ServerNode :=
  { node with state := Function.update node.state portType state }

def setChanges (node : ServerNode) (portType : PortType) (changes : Option ChangeTable) : ServerNode :=
  { node with changes := Function.update node.changes portType changes }

end ServerNode

/-- apx_server_t. `sent` is what was put into the queues of the file managers for the require port
data files: the node, the offset in its file and the data. -/
structure Server where
  nodes : Nat → ServerNode
  signatureMap : Bytes → Option SignatureMapEntry := fun _ => none
  modifiedNodes : List Nat := []
  sent : List (Nat × Nat × Bytes) := []

namespace Server

def update (s : Server) (n : Nat) (change : ServerNode → ServerNode) : Server :=
  { s with nodes := Function.update s.nodes n (change (s.nodes n)) }

@[simp] theorem nodes_update_self (s : Server) (n : Nat) (change : ServerNode → ServerNode) :
    (s.update n change).nodes n = change (s.nodes n) := Function.update_self ..

theorem nodes_update_of_ne (s : Server) {n m : Nat} (other : m ≠ n) (change : ServerNode → ServerNode) :
    (s.update n change).nodes m = s.nodes m := Function.update_of_ne other ..

def port (s : Server) (portType : PortType) (ref : PortRef) : Option PortInstance :=
  ((s.nodes ref.node).ports portType)[ref.portId]?

/-- apx_nodeInstance_get_require_port_connector_changes and
apx_nodeInstance_get_provide_port_connector_changes with auto_create -/
def createChanges (s : Server) (portType : PortType) (n : Nat) : Server :=
  let count := ((s.nodes n).ports portType).length
  if count > 0 ∧ (s.nodes n).changes portType = none then
    let s := s.update n fun node => node.setChanges portType (some (List.replicate count {}))
    -- apx_server_insert_modified_node_instance
    if n ∈ s.modifiedNodes then s else { s with modifiedNodes := s.modifiedNodes ++ [n] }
  else s

/-- A call of action_func on the entry of `port`, about the port `other` -/
def act (s : Server) (event : ConnectorEvent) (portType : PortType) (port other : PortRef) :
    Result Server Unit :=
  match (s.nodes port.node).changes portType with
  | none => .fail .assertion s
  | some table =>
    match table[port.portId]? with
    | none => .fail .assertion s
    | some entry =>
      match entry.act event other with
      | .error failure => .fail failure s
      | .ok entry => .ok () (s.update port.node fun node =>
          node.setChanges portType (some (table.set port.portId entry)))

/-- apx_portSignatureMapEntry_notify_require_ports_about_provide_port_change and
apx_portSignatureMapEntry_notify_provide_ports_about_require_port_change: `port` has changed, and the
ports of the list, which are of the opposite type, are told. Both call action_func on the entry of the
require port first. -/
def notify (event : ConnectorEvent) (portType : PortType) (port : PortRef) (s : Server) :
    List PortRef → Result Server Unit
  | [] => .ok () s
  | other :: rest =>
    let s := (s.createChanges portType port.node).createChanges portType.opposite other.node
    let (require, provide) : PortRef × PortRef := match portType with
      | .provide => (other, port)
      | .require => (port, other)
    (s.act event .require require provide).bind fun _ s =>
      (s.act event .provide provide require).bind fun _ s => notify event portType port s rest

/-- The signature of a port; the asserts on it fail where there is none. -/
def signature (s : Server) (portType : PortType) (ref : PortRef) : Option Bytes :=
  (s.port portType ref).bind PortInstance.portSignature

/-- apx_portSignatureMap_insert, which does not look at the result of the notification -/
def insertPort (s : Server) (portType : PortType) (ref : PortRef) : Result Server Unit :=
  match s.signature portType ref with
  | none | some [] => .fail .assertion s
  | some signature =>
    let entry := ((s.signatureMap signature).getD {}).attach ref portType
    let s := { s with signatureMap := Function.update s.signatureMap signature (some entry) }
    match s.notify .connected portType ref (entry.ports portType.opposite) with
    | .fail (.code _) s => .ok () s
    | result => result

/-- apx_portSignatureMap_remove -/
def removePort (s : Server) (portType : PortType) (ref : PortRef) : Result Server Unit :=
  match s.signature portType ref with
  | none | some [] => .fail .assertion s
  | some signature =>
    match s.signatureMap signature with
    | none => .fail (.code .notFound) s
    | some entry =>
      let entry := entry.detach ref portType
      let s := { s with signatureMap := Function.update s.signatureMap signature (some entry) }
      let result := s.notify .disconnected portType ref (entry.ports portType.opposite)
      if entry.isEmpty then
        -- apx_portSignatureMap_delete_entry
        result.lift fun s => { s with signatureMap := Function.update s.signatureMap signature none }
      else result

/-- A loop over ports that ends at the first error -/
def eachPort (call : Server → PortRef → Result Server Unit) (s : Server) : List PortRef → Result Server Unit
  | [] => .ok () s
  | ref :: rest => (call s ref).bind fun _ s => eachPort call s rest

/-- The ports of a node in the order of their ids -/
def refs (s : Server) (portType : PortType) (n : Nat) : List PortRef :=
  (List.range ((s.nodes n).ports portType).length).map fun portId => ⟨n, portId⟩

/-- apx_server_connect_node_instance_provide_ports and apx_server_connect_node_instance_require_ports -/
def connectPorts (s : Server) (portType : PortType) (n : Nat) : Result Server Unit :=
  eachPort (fun s ref => s.insertPort portType ref) s (s.refs portType n)

/-- apx_server_disconnect_node_instance_provide_ports and
apx_server_disconnect_node_instance_require_ports -/
def disconnectPorts (s : Server) (portType : PortType) (n : Nat) : Result Server Unit :=
  eachPort (fun s ref => s.removePort portType ref) s (s.refs portType n)

/-- apx_nodeInstance_clear_require_port_connector_changes and
apx_nodeInstance_clear_provide_port_connector_changes -/
def clearChanges (s : Server) (portType : PortType) (n : Nat) : Server :=
  s.update n fun node => node.setChanges portType none

/-- apx_server_clear_port_connector_changes -/
def clearPortConnectorChanges (s : Server) : Server :=
  { s.modifiedNodes.foldl (fun s n => (s.clearChanges .provide n).clearChanges .require n) s with
    modifiedNodes := [] }

end Server

end Apx
