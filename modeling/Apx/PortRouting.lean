import Apx.Server

/-! How a server moves port data between its nodes (the routing functions of node_instance.c, the
port connector changes of server.c and the disconnect of server_connection.c). -/

namespace Apx

open LittleEndian

namespace Server

/-- A change of the node data of one node -/
def updateInst (s : Server) (n : Nat) (change : NodeInstance → NodeInstance) : Server :=
  s.update n fun node => { node with inst := change node.inst }

/-- A write to the data area of a node for the ports of one type -/
def writePortData (s : Server) (portType : PortType) (n offset : Nat) (data : Bytes) :
    Result Server Unit :=
  let area := ((s.nodes n).inst.portData portType).getD []
  if offset + data.length > area.length then .fail (.code .invalidArgument) s
  else .ok () (s.updateInst n fun inst => inst.setPortData portType
    ((inst.portData portType).map fun area => splice area offset data))

/-- apx_nodeData_write_provide_port_data -/
def writeProvidePortData (s : Server) (n offset : Nat) (data : Bytes) : Result Server Unit :=
  s.writePortData .provide n offset data

/-- apx_nodeData_write_require_port_data -/
def writeRequirePortData (s : Server) (n offset : Nat) (data : Bytes) : Result Server Unit :=
  s.writePortData .require n offset data

/-- apx_nodeData_read_provide_port_data -/
def readProvidePortData (s : Server) (n offset size : Nat) : Except Failure Bytes :=
  let area := (s.nodes n).inst.providePortData.getD []
  if offset + size > area.length then .error (.code .invalidArgument) else .ok (slice area offset size)

/-- The answer of the queue of a file manager to a message for the file of a node, by all messages in
front of it: an error of apx_fileManagerWorker_process_ringbuffer_error. The ring buffer is not a part of
the repository. -/
abbrev QueueInsert := Nat → List (Nat × Nat × Bytes) → Option ApxError

def takesAll : QueueInsert := fun _ _ => none

/-- remote_route_require_port_data with remote_route_data_to_file -/
def remoteRouteRequirePortData (queue : QueueInsert) (s : Server) (n offset : Nat) (data : Bytes) :
    Result Server Unit :=
  (s.writeRequirePortData n offset data).bind fun _ s =>
    match (s.nodes n).requirePortDataFile with
    | none => .ok () s
    | some false => .fail (.code .fileNotOpen) s
    | some true =>
      match queue n s.sent with
      | some error => .fail (.code error) s
      | none => .ok () { s with sent := s.sent ++ [(n, offset, data)] }

/-- route_provide_port_data_to_require_port -/
def routeToRequirePort (s : Server) (providePort requirePort : PortRef) (doRemoteRouting : Bool) :
    Result Server Unit :=
  match s.port .provide providePort, s.port .require requirePort with
  | some provide, some require =>
    if provide.queueLength = 0 then
      if provide.dataSize = require.dataSize then
        match s.readProvidePortData providePort.node provide.dataOffset provide.dataSize with
        | .error failure => .fail failure s
        | .ok data =>
          if doRemoteRouting then
            s.remoteRouteRequirePortData takesAll requirePort.node require.dataOffset data
          else s.writeRequirePortData requirePort.node require.dataOffset data
      else .fail (.code .valueLength) s
    else .fail (.code .notImplemented) s
  | _, _ => .fail .assertion s

/-- apx_nodeInstance_handle_require_port_connected_to_provide_port (which routes within the server) and
apx_nodeInstance_handle_provide_port_connected_to_require_port (which also sends the data): the require
port is put into the connector list of the provide port. -/
def handlePortsConnected (s : Server) (providePort requirePort : PortRef) (doRemoteRouting : Bool) :
    Result Server Unit :=
  match (s.nodes providePort.node).connectorTable[providePort.portId]? with
  | none => .fail .assertion s
  | some connectors =>
    let s := s.update providePort.node fun node => { node with
      connectorTable := node.connectorTable.set providePort.portId (connectors ++ [requirePort]) }
    s.routeToRequirePort providePort requirePort doRemoteRouting

/-- apx_server_process_require_port_connector_changes, from the port `portId` on -/
def processRequireChanges (n : Nat) (s : Server) (portId : Nat) : ChangeTable → Result Server Unit
  | [] => .ok () s
  | entry :: rest =>
    if entry.count > 0 then
      if entry.count = 1 then
        match entry.ports[0]? with
        | none => .fail .assertion s
        | some providePort =>
          (s.handlePortsConnected providePort ⟨n, portId⟩ false).bind fun _ s =>
            processRequireChanges n s (portId + 1) rest
      -- multiple providers are available
      else .fail (.code .notImplemented) s
    else processRequireChanges n s (portId + 1) rest

/-- apx_server_process_provide_port_connector_changes, from the port `portId` on -/
def processProvideChanges (n : Nat) (s : Server) (portId : Nat) : ChangeTable → Result Server Unit
  | [] => .ok () s
  | entry :: rest =>
    if entry.count > 0 then
      (eachPort (fun s requirePort => s.handlePortsConnected ⟨n, portId⟩ requirePort true) s
        entry.ports).bind fun _ s => processProvideChanges n s (portId + 1) rest
    else processProvideChanges n s (portId + 1) rest

/-- connect_require_ports_to_server -/
def connectRequirePortsToServer (s : Server) (n : Nat) : Result Server Unit :=
  let result := (s.connectPorts .require n).bind fun _ s =>
    match (s.nodes n).changes .require with
    | none => .ok () s
    | some table => processRequireChanges n s 0 table
  result.lift clearPortConnectorChanges

/-- file_open_notify for the require port data file, which the file manager has opened before, in server
mode. The data is put into the queue of the file manager. -/
def openRequirePortDataFile (s : Server) (n : Nat) : Result Server Unit :=
  let s := s.update n fun node => { node with requirePortDataFile := some true }
  (s.connectRequirePortsToServer n).bind fun _ s =>
    let s := s.update n fun node => node.setState .require .connected
    .ok () { s with sent := s.sent ++ [(n, 0, (s.nodes n).inst.requirePortData.getD [])] }

/-- The branch of process_remote_write_provide_port_data for the first data of a node -/
def connectProvidePorts (s : Server) (n : Nat) : Result Server Unit :=
  let result := (s.connectPorts .provide n).bind fun _ s =>
    let s := s.update n fun node => node.setState .provide .connected
    match (s.nodes n).changes .provide with
    | none => .ok () s
    | some table => processProvideChanges n s 0 table
  let result := result.bind fun _ s => .ok () (s.clearChanges .provide n)
  result.lift clearPortConnectorChanges

/-- The loop over the connectors of a provide port in route_provide_port_data_change_to_receivers, with
the variable `retval`. `data` is what was received, from the pointer `provide_data` on: reading more of
it than there is goes out of bounds. -/
def routeToConnectors (queue : QueueInsert) (provide : PortInstance) (data : Bytes) (s : Server) (retval : Option Failure) :
    List PortRef → Except Failure (Server × Option Failure)
  | [] => .ok (s, retval)
  | ref :: rest =>
    match s.port .require ref with
    | none => .error .assertion
    | some require =>
      if provide.queueLength = 0 then
        if provide.dataSize ≠ require.dataSize then
          routeToConnectors queue provide data s (some (.code .valueLength)) rest
        else if provide.dataSize > data.length then .error .outOfBounds
        else
          let result := s.remoteRouteRequirePortData queue ref.node require.dataOffset (data.take provide.dataSize)
          routeToConnectors queue provide data result.state result.failure? rest
      else routeToConnectors queue provide data s (some (.code .notImplemented)) rest

/-- The loop of route_provide_port_data_change_to_receivers: `offset` and `endOffset` are offsets in the
provide port data, `data` what was received from `offset` on. An id in the byte port map that belongs to
no port is never left again (`none` when the fuel is used up). -/
def routeChange (queue : QueueInsert) (n endOffset : Nat) : Nat → Server → Option Failure → Nat → Bytes →
    Option (Result Server Unit)
  | 0, _, _, _, _ => none
  | fuel + 1, s, retval, offset, data =>
    if offset < endOffset then
      let node := s.nodes n
      let portId := BytePortMap.lookup node.inst.bytePortMap offset
      if portId = invalidPortId then some (.fail (.code .invalidWrite) s)
      else
        match (node.ports .provide)[portId]? with
        | none => routeChange queue n endOffset fuel s (some (.code .internal)) offset data
        | some provide =>
          if provide.dataSize = 0 then some (.fail .assertion s)
          else
            match node.connectorTable[portId]? with
            | none => some (.fail .outOfBounds s)
            | some connectors =>
              match routeToConnectors queue provide data s retval connectors with
              | .error failure => some (.fail failure s)
              | .ok (s, retval) =>
                routeChange queue n endOffset fuel s retval (offset + provide.dataSize)
                  (data.drop provide.dataSize)
    else
      match retval with
      | none => some (.ok () s)
      | some failure => some (.fail failure s)

/-- route_provide_port_data_change_to_receivers -/
def routeProvidePortDataChangeToReceivers (queue : QueueInsert) (fuel : Nat) (s : Server) (n offset : Nat) (data : Bytes) :
    Option (Result Server Unit) :=
  if (s.nodes n).inst.bytePortMap = none then some (.fail .assertion s)
  else routeChange queue n (u32 (offset + data.length)) fuel s none offset data

/-- process_remote_write_provide_port_data of a node that has a server -/
def processRemoteWriteProvidePortData (fuel : Nat) (s : Server) (n offset : Nat) (data : Bytes) :
    Option (Result Server Unit) :=
  match (s.nodes n).state .provide with
  | .init | .waitingFileInfo => some (.fail (.code .internal) s)
  | .waitingForFileData =>
      some ((s.writeProvidePortData n offset data).bind fun _ s => s.connectProvidePorts n)
  | .connected =>
    match s.writeProvidePortData n offset data with
    | .fail failure s => some (.fail failure s)
    | .ok _ s => s.routeProvidePortDataChangeToReceivers takesAll fuel n offset data
  | .disconnected => some (.ok () s)
  -- not a case of the switch
  | .waitingForFileOpenRequest => some (.ok () s)

/-! The disconnect of a connection, whose nodes come in the order in which the hash of its node manager
lists them -/

/-- remove_nodes_from_signature_map, which goes on behind errors -/
def removeNodesFromSignatureMap (s : Server) (nodes : List Nat) : Server :=
  nodes.foldl (fun s n =>
    let requireState := (s.nodes n).state .require
    let provideState := (s.nodes n).state .provide
    let s := if requireState = .connected then (s.disconnectPorts .require n).state else s
    if provideState = .connected then (s.disconnectPorts .provide n).state else s) s

/-- gather_provide_port_connector_changes and gather_require_port_connector_changes: the change tables
are taken out of the nodes. -/
def gatherChanges (portType : PortType) (s : Server) (gathered : List (Nat × ChangeTable)) :
    List Nat → Server × List (Nat × ChangeTable)
  | [] => (s, gathered)
  | n :: rest =>
    if (s.nodes n).state portType = .connected then
      match (s.nodes n).changes portType with
      | some table => gatherChanges portType (s.clearChanges portType n) (gathered ++ [(n, table)]) rest
      | none =>
          gatherChanges portType (s.update n fun node => node.setState portType .disconnected) gathered rest
    else gatherChanges portType s gathered rest

/-- process_disconnected_provider_nodes. apx_nodeInstance_clear_connector_table clears the first list of
the table. -/
def processDisconnectedProviders (s : Server) (gathered : List (Nat × ChangeTable)) : Server :=
  gathered.foldl (fun s (n, _) => s.update n fun node =>
    { node.setState .provide .disconnected with connectorTable := node.connectorTable.set 0 [] }) s

/-- remove_provide_port_connector -/
def removeProvidePortConnector (s : Server) (providePort requirePort : PortRef) : Result Server Unit :=
  match (s.nodes providePort.node).connectorTable[providePort.portId]? with
  | none => .fail (.code .invalidArgument) s
  | some connectors => .ok () (s.update providePort.node fun node => { node with
      connectorTable := node.connectorTable.set providePort.portId (connectors.erase requirePort) })

/-- apx_nodeInstance_handle_require_ports_disconnected, from the port `portId` on -/
def handleRequirePortsDisconnected (n : Nat) (s : Server) (portId : Nat) :
    ChangeTable → Result Server Unit
  | [] => .ok () s
  | entry :: rest =>
    if entry.count > 0 then .fail .assertion s
    else if entry.count = -1 then
      match entry.ports[0]? with
      | none => .fail .assertion s
      | some providePort =>
        (s.removeProvidePortConnector providePort ⟨n, portId⟩).bind fun _ s =>
          handleRequirePortsDisconnected n s (portId + 1) rest
    -- multiple providers
    else if entry.count < -1 then .fail (.code .notImplemented) s
    else handleRequirePortsDisconnected n s (portId + 1) rest

/-- process_disconnected_requester_nodes -/
def processDisconnectedRequesters (s : Server) (gathered : List (Nat × ChangeTable)) : Server :=
  gathered.foldl (fun s (n, table) =>
    (handleRequirePortsDisconnected n s 0 table).state.update n fun node =>
      node.setState .require .disconnected) s

/-- detach_all_nodes -/
def detachAllNodes (s : Server) (nodes : List Nat) : Server :=
  let s := s.removeNodesFromSignatureMap nodes
  let (s, provideChanges) := gatherChanges .provide s [] nodes
  let (s, requireChanges) := gatherChanges .require s [] nodes
  let s := s.clearPortConnectorChanges
  (s.processDisconnectedProviders provideChanges).processDisconnectedRequesters requireChanges

end Server

end Apx
