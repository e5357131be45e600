import Apx.ConnectorClearing
import Apx.MapHistory

/-! The disconnect of connections in the runs of a server: when it leaves connectors behind (server_connection.c,
node_instance.c). -/

namespace Apx

namespace Server

/-- A require port that is listed once, with this provider as the only one of its signature, which has a connector
list, or with none -/
def Single (s : Server) (ref : PortRef) (provider : Option PortRef) : Prop :=
  ∃ signature, s.signature .require ref = some signature ∧
    (s.entryPorts signature .require).count ref = 1 ∧
    s.entryPorts signature .provide = provider.toList ∧
    ∀ providePort ∈ provider, providePort.portId < (s.nodes providePort.node).connectorTable.length

/-- A provide port of the node has a partner, so that the node has a table of changes behind the removal of its
ports. -/
def Partnered (s : Server) (n : Nat) : Prop :=
  (s.nodes n).state .provide = .connected ∧
    ∃ signature portId require, ⟨n, portId⟩ ∈ s.entryPorts signature .provide ∧
      require ∈ s.entryPorts signature .require

/-- A connector of the port that leaves with these nodes, too, and is alone with the port, as all require ports in
front of it are with theirs -/
structure Leaves (s : Server) (nodes : List Nat) (providePort requirePort : PortRef) : Prop where
  once : (s.connectors providePort.node providePort.portId).count requirePort ≤ 1
  among : requirePort.node ∈ nodes
  connected : (s.nodes requirePort.node).state .require = .connected
  own : s.Single requirePort (some providePort)
  front : ∀ portId < requirePort.portId, ∃ provider, s.Single ⟨requirePort.node, portId⟩ provider

/-- When the disconnect of these nodes empties the connector list of a provide port: the list is empty, or it is the
first one of a node with a partner, or each connector in it leaves, too. -/
def Clearable (s : Server) (nodes : List Nat) (providePort : PortRef) : Prop :=
  s.connectors providePort.node providePort.portId = [] ∨
  (providePort.portId = 0 ∧ s.Partnered providePort.node) ∨
  ∀ requirePort ∈ s.connectors providePort.node providePort.portId, s.Leaves nodes providePort requirePort

/-- No provide port of these nodes has a connector. -/
def NoConnectors (s : Server) (nodes : List Nat) : Prop := ∀ n ∈ nodes, ∀ portId, s.connectors n portId = []

/-! One disconnect -/

theorem SameButMap.connectors {s s' : Server} (same : SameButMap s s') (n portId : Nat) :
    s'.connectors n portId = s.connectors n portId := by
  obtain ⟨_, node⟩ := same.node n
  rw [Server.connectors, Server.connectors, node]

theorem SameButMap.connectorTable {s s' : Server} (same : SameButMap s s') (n : Nat) :
    (s'.nodes n).connectorTable = (s.nodes n).connectorTable := by
  obtain ⟨_, node⟩ := same.node n
  rw [node]

theorem mem_refs {s : Server} {portType : PortType} {ref : PortRef} :
    ref ∈ s.refs portType ref.node ↔ s.Exists portType ref := by
  rw [Server.refs, List.mem_map, Server.Exists]
  constructor
  · rintro ⟨portId, inside, same⟩
    rw [← same]
    exact List.mem_range.mp inside
  · exact fun inside => ⟨ref.portId, List.mem_range.mpr inside, rfl⟩

/-- The ports of the connected nodes are among those that the disconnect removes. -/
theorem mem_detached {s : Server} {nodes : List Nat} {portType : PortType} {ref : PortRef} (mem : ref.node ∈ nodes)
    (connected : (s.nodes ref.node).state portType = .connected) (inside : s.Exists portType ref) :
    (portType, ref) ∈ s.detached nodes := by
  rw [detached, List.mem_flatMap]
  refine ⟨ref.node, mem, ?_⟩
  rw [List.mem_append]
  cases portType with
  | require =>
    rw [if_pos connected]
    exact .inl (List.mem_map_of_mem (mem_refs.mpr inside))
  | provide =>
    rw [if_pos connected]
    exact .inr (List.mem_map_of_mem (mem_refs.mpr inside))

/-- A port that has been told of something has a table. -/
theorem changes_of_noted {s : Server} {portType : PortType} {ref : PortRef} (noted : s.noted portType ref ≠ []) :
    ∃ table entry, (s.nodes ref.node).changes portType = some table ∧ table[ref.portId]? = some entry ∧
      entry.ports = s.noted portType ref := by
  rw [Server.noted] at noted ⊢
  cases found : ((s.nodes ref.node).changes portType).bind fun table => table[ref.portId]? with
  | none =>
    rw [found] at noted
    contradiction
  | some entry =>
    obtain ⟨table, here, entry_⟩ := Option.bind_eq_some_iff.mp found
    exact ⟨table, entry, here, entry_, rfl⟩

/-- Behind the removals, from which the nodes that the disconnect goes through come -/
theorem Removals.partnered {s s' : Server} {nodes : List Nat} (removals : Removals s (s.detached nodes) s')
    (listed : s.Listed) {n : Nat} (mem : n ∈ nodes) (partnered : s.Partnered n) :
    ∃ table, (s'.nodes n).changes .provide = some table := by
  obtain ⟨connected, signature, portId, require, provides, requires⟩ := partnered
  have inside := exists_of_signature (listed signature .provide _ provides)
  have told := removals.tells (.inr ⟨provides, requires⟩)
    (@mem_detached s nodes .provide ⟨n, portId⟩ mem connected inside)
  obtain ⟨table, -, here, -⟩ := changes_of_noted told
  exact ⟨table, here⟩

theorem Removals.single {s s' : Server} {nodes : List Nat} (removals : Removals s (s.detached nodes) s')
    (quiet : s.Quiet) {ref : PortRef} (mem : ref.node ∈ nodes)
    (connected : (s.nodes ref.node).state .require = .connected) {provider : Option PortRef}
    (single : s.Single ref provider) : s'.noted .require ref = provider.toList := by
  obtain ⟨signature, own, once, provides, -⟩ := single
  exact removals.hears own ⟨quiet.noted .require ref, provides, once⟩
    (mem_detached mem connected (exists_of_signature own))

/-- The entry of a require port that was told of its one provider, or of none -/
theorem Removals.handled {s s' : Server} {nodes : List Nat} (removals : Removals s (s.detached nodes) s')
    (quiet : s.Quiet) {ref : PortRef} (mem : ref.node ∈ nodes)
    (connected : (s.nodes ref.node).state .require = .connected) {provider : Option PortRef}
    (single : s.Single ref provider) {table : ChangeTable}
    (here : (s'.nodes ref.node).changes .require = some table) {entry : ChangeEntry}
    (found : table[ref.portId]? = some entry) : s'.Handled entry := by
  have noted := removals.single quiet mem connected single
  have ports : entry.ports = provider.toList := by
    rw [← noted, Server.noted, here, Option.bind_some, found]
  have count := removals.tables.count _ _ _ here entry (List.mem_of_getElem? found)
  rw [ports] at count
  obtain ⟨-, -, -, -, inside⟩ := single
  cases provider with
  | none => exact .inl count
  | some providePort =>
    refine .inr ⟨count, providePort, ports, ?_⟩
    rw [removals.same.connectorTable]
    exact inside providePort rfl

def settle (s : Server) (nodes : List Nat) : Server :=
  let provide := gatherChanges .provide s [] nodes
  let require := gatherChanges .require provide.1 [] nodes
  (require.1.clearPortConnectorChanges.processDisconnectedProviders provide.2).processDisconnectedRequesters require.2

theorem detachAllNodes_eq (s : Server) (nodes : List Nat) :
    s.detachAllNodes nodes = (s.removeNodesFromSignatureMap nodes).settle nodes := rfl

theorem gathered_settles (s : Server) (nodes : List Nat) :
    let provide := gatherChanges .provide s [] nodes
    Settles s (gatherChanges .require provide.1 [] nodes).1.clearPortConnectorChanges :=
  ((gatherChanges_settles .provide nodes s []).trans (gatherChanges_settles .require nodes _ [])).trans
    (clearPortConnectorChanges_settles _)

theorem settle_settles (s : Server) (nodes : List Nat) : Settles s (s.settle nodes) :=
  ((gathered_settles s nodes).trans (processDisconnectedProviders_settles _ _)).trans
    (processDisconnectedRequesters_settles _ _)

/-- The first list of a node that has a table of changes is emptied. -/
theorem settle_clears {s : Server} {nodes : List Nat} (distinct : nodes.Nodup) {n : Nat} (mem : n ∈ nodes)
    (connected : (s.nodes n).state .provide = .connected) {table : ChangeTable}
    (here : (s.nodes n).changes .provide = some table) : (s.settle nodes).connectors n 0 = [] := by
  have gathered := @mem_gatherChanges .provide nodes distinct s [] n table (.inr ⟨mem, connected, here⟩)
  have cleared := @processDisconnectedProviders_clears _
    (gatherChanges .require (gatherChanges .provide s [] nodes).1 [] nodes).1.clearPortConnectorChanges n table gathered
  have later := processDisconnectedRequesters_settles
    (gatherChanges .require (gatherChanges .provide s [] nodes).1 [] nodes).2
    ((gatherChanges .require (gatherChanges .provide s [] nodes).1 [] nodes).1.clearPortConnectorChanges.processDisconnectedProviders
      (gatherChanges .provide s [] nodes).2)
  exact List.sublist_nil.mp (cleared ▸ later.connectors n 0)

/-- A require port that was told of its provider is taken out of the connectors. -/
theorem settle_erases {s : Server} {nodes : List Nat} (distinct : nodes.Nodup) {ref provider : PortRef}
    (mem : ref.node ∈ nodes) (connected : (s.nodes ref.node).state .require = .connected) {table : ChangeTable}
    (here : (s.nodes ref.node).changes .require = some table) {entry : ChangeEntry}
    (found : table[ref.portId]? = some entry) (count : entry.count = -1) (ports : entry.ports = [provider])
    (front : ∀ j ≤ ref.portId, ∀ entry ∈ table[j]?, s.Handled entry)
    (once : (s.connectors provider.node provider.portId).count ref ≤ 1) :
    ref ∉ (s.settle nodes).connectors provider.node provider.portId := by
  have kept := gatherChanges_opposite .provide nodes s [] ref.node
  have gathered := @mem_gatherChanges .require nodes distinct (gatherChanges .provide s [] nodes).1 [] ref.node table
    (.inr ⟨mem, kept.1.trans connected, kept.2.trans here⟩)
  have settles := (gathered_settles s nodes).trans
    (processDisconnectedProviders_settles (gatherChanges .provide s [] nodes).2 _)
  exact processDisconnectedRequesters_erases gathered found count ports
    (fun j le entry is => settles.handled (front j le entry is))
    (Nat.le_trans ((settles.connectors _ _).count_le _) once)

/-- What a server looks like between the events -/
theorem Steady.removals {s : Server} (steady : s.Steady) {nodes : List Nat} (distinct : nodes.Nodup) :
    Removals s (s.detached nodes) (s.removeNodesFromSignatureMap nodes) :=
  removeNodes_removals (steady.quiet.tables .disconnected) steady.listed (fun n _ => steady.inMap n) distinct

/-- A connector that leaves with its port is gone. -/
theorem Leaves.gone {s : Server} (steady : s.Steady) {nodes : List Nat} (distinct : nodes.Nodup)
    {providePort requirePort : PortRef} (leaves : s.Leaves nodes providePort requirePort) :
    requirePort ∉ (s.detachAllNodes nodes).connectors providePort.node providePort.portId := by
  have removals := steady.removals distinct
  have noted := removals.single steady.quiet leaves.among leaves.connected leaves.own
  obtain ⟨table, entry, here, found, ports⟩ := changes_of_noted (by rw [noted]; exact List.cons_ne_nil _ _)
  have count := removals.tables.count _ _ _ here entry (List.mem_of_getElem? found)
  rw [ports, noted] at count
  rw [detachAllNodes_eq]
  refine settle_erases distinct leaves.among ((removals.same.state _).symm ▸ leaves.connected) here found count
    (ports.trans noted) (fun j le entry is => ?_) ?_
  · rcases Nat.lt_or_eq_of_le le with before | rfl
    · obtain ⟨provider, single⟩ := leaves.front j before
      exact @Removals.handled _ _ _ removals steady.quiet ⟨requirePort.node, j⟩ leaves.among leaves.connected provider
        single table here entry is
    · exact removals.handled steady.quiet leaves.among leaves.connected leaves.own here is
  · rw [removals.same.connectors]
    exact leaves.once

theorem Clearable.cleared {s : Server} (steady : s.Steady) {nodes : List Nat} (distinct : nodes.Nodup)
    {providePort : PortRef} (mem : providePort.node ∈ nodes) (clearable : s.Clearable nodes providePort) :
    (s.detachAllNodes nodes).connectors providePort.node providePort.portId = [] := by
  have removals := steady.removals distinct
  have fewer := (settle_settles (s.removeNodesFromSignatureMap nodes) nodes).connectors
    providePort.node providePort.portId
  rw [removals.same.connectors, ← detachAllNodes_eq] at fewer
  rcases clearable with empty | ⟨first, partnered⟩ | leave
  · rw [empty] at fewer
    exact List.sublist_nil.mp fewer
  · obtain ⟨table, here⟩ := removals.partnered steady.listed mem partnered
    rw [first, detachAllNodes_eq]
    exact settle_clears distinct mem ((removals.same.state _).symm ▸ partnered.1) here
  · refine List.eq_nil_iff_forall_not_mem.mpr fun requirePort left => ?_
    exact (leave requirePort (fewer.mem left)).gone steady distinct left

/-! The runs of a server -/

/-- What the routing lives on is as it was: only port data, connectors and what was sent may differ. -/
structure SameRouting (s s' : Server) : Prop where
  ports : ∀ n portType, (s'.nodes n).ports portType = (s.nodes n).ports portType
  state : ∀ n, (s'.nodes n).state = (s.nodes n).state
  changes : ∀ n, (s'.nodes n).changes = (s.nodes n).changes
  map : s'.signatureMap = s.signatureMap
  modified : s'.modifiedNodes = s.modifiedNodes

theorem SameRouting.refl (s : Server) : SameRouting s s := ⟨fun _ _ => rfl, fun _ => rfl, fun _ => rfl, rfl, rfl⟩

theorem SameRouting.trans {s s₁ s' : Server} (first : SameRouting s s₁) (second : SameRouting s₁ s') :
    SameRouting s s' where
  ports n portType := (second.ports n portType).trans (first.ports n portType)
  state n := (second.state n).trans (first.state n)
  changes n := (second.changes n).trans (first.changes n)
  map := second.map.trans first.map
  modified := second.modified.trans first.modified

theorem sameRouting_update (s : Server) (n : Nat) {change : ServerNode → ServerNode}
    (ports : ∀ portType, (change (s.nodes n)).ports portType = (s.nodes n).ports portType)
    (state : (change (s.nodes n)).state = (s.nodes n).state)
    (changes : (change (s.nodes n)).changes = (s.nodes n).changes) : SameRouting s (s.update n change) := by
  refine ⟨fun m portType => ?_, fun m => ?_, fun m => ?_, rfl, rfl⟩ <;>
  · by_cases same : m = n
    · subst same
      rw [nodes_update_self]
      first | exact ports portType | exact state | exact changes
    · rw [nodes_update_of_ne s same]

theorem bind_sameRouting {s : Server} {first : Result Server Unit} {second : Unit → Server → Result Server Unit}
    (here : SameRouting s first.state) (later : ∀ s', SameRouting s' (second () s').state) :
    SameRouting s (first.bind second).state := by
  cases first with
  | ok value s' => exact here.trans (later s')
  | fail failure s' => exact here

theorem writePortData_sameRouting (s : Server) (portType : PortType) (n offset : Nat) (data : Bytes) :
    SameRouting s (s.writePortData portType n offset data).state := by
  rw [writePortData]
  split
  · exact .refl s
  · rw [Result.state_ok]
    refine sameRouting_update s n (fun portType' => ?_) rfl rfl
    cases portType <;> cases portType' <;> rfl

theorem remoteRouteRequirePortData_sameRouting (s : Server) (n offset : Nat) (data : Bytes) :
    SameRouting s (s.remoteRouteRequirePortData takesAll n offset data).state := by
  refine bind_sameRouting (writePortData_sameRouting s .require n offset data) fun s' => ?_
  split
  · exact .refl s'
  · exact .refl s'
  · exact ⟨fun _ _ => rfl, fun _ => rfl, fun _ => rfl, rfl, rfl⟩

theorem routeToRequirePort_sameRouting (s : Server) (providePort requirePort : PortRef) (doRemoteRouting : Bool) :
    SameRouting s (s.routeToRequirePort providePort requirePort doRemoteRouting).state := by
  rw [routeToRequirePort]
  split
  · split
    · split
      · split
        · exact .refl s
        · split
          · exact remoteRouteRequirePortData_sameRouting s _ _ _
          · exact writePortData_sameRouting s .require _ _ _
      · exact .refl s
    · exact .refl s
  · exact .refl s

theorem handlePortsConnected_sameRouting (s : Server) (providePort requirePort : PortRef) (doRemoteRouting : Bool) :
    SameRouting s (s.handlePortsConnected providePort requirePort doRemoteRouting).state := by
  rw [handlePortsConnected]
  split
  · exact .refl s
  · exact (sameRouting_update s providePort.node (fun _ => rfl) rfl rfl).trans (routeToRequirePort_sameRouting _ _ _ _)

theorem processRequireChanges_sameRouting (n : Nat) (s : Server) (portId : Nat) (table : ChangeTable) :
    SameRouting s (processRequireChanges n s portId table).state := by
  induction table generalizing s portId with
  | nil => exact .refl s
  | cons entry rest ih =>
    rw [processRequireChanges]
    split
    · split
      · split
        · exact .refl s
        · exact bind_sameRouting (handlePortsConnected_sameRouting s _ _ _) fun s' => ih s' (portId + 1)
      · exact .refl s
    · exact ih s (portId + 1)

theorem eachPort_sameRouting {call : Server → PortRef → Result Server Unit}
    (each : ∀ s ref, SameRouting s (call s ref).state) (s : Server) (refs : List PortRef) :
    SameRouting s (eachPort call s refs).state := by
  induction refs generalizing s with
  | nil => exact .refl s
  | cons ref rest ih => exact bind_sameRouting (each s ref) ih

theorem processProvideChanges_sameRouting (n : Nat) (s : Server) (portId : Nat) (table : ChangeTable) :
    SameRouting s (processProvideChanges n s portId table).state := by
  induction table generalizing s portId with
  | nil => exact .refl s
  | cons entry rest ih =>
    rw [processProvideChanges]
    split
    · exact bind_sameRouting (eachPort_sameRouting (fun s ref => handlePortsConnected_sameRouting s _ _ _) s _)
        fun s' => ih s' (portId + 1)
    · exact ih s (portId + 1)

theorem routeToConnectors_sameRouting {provide : PortInstance} {data : Bytes} {s s' : Server}
    {retval retval' : Option Failure} {refs : List PortRef}
    (routed : routeToConnectors takesAll provide data s retval refs = .ok (s', retval')) : SameRouting s s' := by
  induction refs generalizing s retval with
  | nil =>
    cases routed
    exact .refl _
  | cons ref rest ih =>
    rw [routeToConnectors] at routed
    split at routed
    · contradiction
    · split at routed
      · split at routed
        · exact ih routed
        · split at routed
          · contradiction
          · exact (remoteRouteRequirePortData_sameRouting s _ _ _).trans (ih routed)
      · exact ih routed

theorem routeChange_sameRouting {n endOffset fuel offset : Nat} {s : Server} {retval : Option Failure} {data : Bytes}
    {result : Result Server Unit} (routed : routeChange takesAll n endOffset fuel s retval offset data = some result) :
    SameRouting s result.state := by
  induction fuel generalizing s retval offset data with
  | zero => contradiction
  | succ fuel ih =>
    simp only [routeChange] at routed
    split at routed
    · split at routed
      · cases routed
        exact .refl s
      · split at routed
        · exact ih routed
        · split at routed
          · cases routed
            exact .refl s
          · split at routed
            · cases routed
              exact .refl s
            · split at routed
              · cases routed
                exact .refl s
              · next delivered => exact (routeToConnectors_sameRouting delivered).trans (ih routed)
    · split at routed
      · cases routed
        exact .refl s
      · cases routed
        exact .refl s

theorem routeProvidePortDataChangeToReceivers_sameRouting {fuel n offset : Nat} {s : Server} {data : Bytes}
    {result : Result Server Unit}
    (routed : s.routeProvidePortDataChangeToReceivers takesAll fuel n offset data = some result) :
    SameRouting s result.state := by
  rw [routeProvidePortDataChangeToReceivers] at routed
  split at routed
  · cases routed
    exact .refl s
  · exact routeChange_sameRouting routed

/-- Within the handling of an event: every port of a node that is connected is listed, and each table of changes is
one of a modified node. -/
structure Orderly (s : Server) : Prop where
  listed : s.Listed
  inMap : ∀ n portType, (s.nodes n).state portType = .connected → ∀ ref ∈ s.refs portType n, s.InMap portType ref
  modified : ∀ n portType table, (s.nodes n).changes portType = some table → n ∈ s.modifiedNodes

theorem Steady.orderly {s : Server} (steady : s.Steady) : s.Orderly :=
  ⟨steady.listed, steady.inMap, (steady.quiet.tables .connected).modified⟩

theorem InMap.of_map {s s' : Server} {portType : PortType} {ref : PortRef} (inMap : s.InMap portType ref)
    (map : s'.signatureMap = s.signatureMap) : s'.InMap portType ref := by
  obtain ⟨signature, nonempty, mem⟩ := inMap
  refine ⟨signature, nonempty, ?_⟩
  rw [entryPorts, map]
  exact mem

theorem SameRouting.orderly {s s' : Server} (same : SameRouting s s') (orderly : s.Orderly) : s'.Orderly := by
  have refs (portType : PortType) (n : Nat) : s'.refs portType n = s.refs portType n := by
    rw [Server.refs, Server.refs, same.ports]
  refine ⟨?_, ?_, ?_⟩
  · intro signature portType ref mem
    rw [Server.entryPorts, same.map] at mem
    rw [Server.signature, Server.port, same.ports]
    exact orderly.listed signature portType ref mem
  · intro n portType connected ref mem
    rw [same.state] at connected
    rw [refs] at mem
    exact (orderly.inMap n portType connected ref mem).of_map same.map
  · intro n portType table here
    rw [same.changes] at here
    rw [same.modified]
    exact orderly.modified n portType table here

theorem SameRouting.steady {s s' : Server} (same : SameRouting s s') (steady : s.Steady) : s'.Steady := by
  have orderly := same.orderly steady.orderly
  refine ⟨⟨fun n portType => ?_, same.modified.trans steady.quiet.modified⟩, orderly.listed, orderly.inMap⟩
  rw [same.changes]
  exact steady.quiet.changes n portType

theorem Orderly.cleared {s : Server} (orderly : s.Orderly) : s.clearPortConnectorChanges.Steady := by
  obtain ⟨quiet, same, map⟩ := clearPortConnectorChanges_quiet orderly.modified
  refine ⟨quiet, ?_, ?_⟩
  · intro signature portType ref mem
    rw [Server.entryPorts, map] at mem
    rw [same.signature]
    exact orderly.listed signature portType ref mem
  · intro n portType connected ref mem
    rw [same.state] at connected
    rw [same.refs] at mem
    exact (orderly.inMap n portType connected ref mem).of_map map

/-- A node changes its state, and is connected only if its ports are listed. -/
theorem Orderly.setState {s : Server} (orderly : s.Orderly) {n : Nat} {portType : PortType} {state : DataState}
    (inMap : state = .connected → ∀ ref ∈ s.refs portType n, s.InMap portType ref) :
    (s.update n fun node => node.setState portType state).Orderly := by
  have ports (m : Nat) (portType' : PortType) : ((s.update n fun node => node.setState portType state).nodes m).ports
      portType' = (s.nodes m).ports portType' := by
    by_cases same : m = n
    · subst same
      rw [nodes_update_self]
      rfl
    · rw [nodes_update_of_ne s same]
  have changes (m : Nat) (portType' : PortType) : ((s.update n fun node => node.setState portType state).nodes m).changes
      portType' = (s.nodes m).changes portType' := by
    by_cases same : m = n
    · subst same
      rw [nodes_update_self]
      rfl
    · rw [nodes_update_of_ne s same]
  refine ⟨?_, ?_, ?_⟩
  · intro signature portType' ref mem
    rw [Server.signature, Server.port, ports]
    exact orderly.listed signature portType' ref mem
  · intro m portType' connected ref mem
    rw [Server.refs, ports] at mem
    by_cases same : m = n
    · subst same
      rw [nodes_update_self] at connected
      by_cases type : portType' = portType
      · subst type
        rw [setState_self] at connected
        exact inMap connected ref mem
      · refine orderly.inMap m portType' ?_ ref mem
        rwa [setState_of_ne _ type] at connected
    · rw [nodes_update_of_ne s same] at connected
      exact orderly.inMap m portType' connected ref mem
  · intro m portType' table here
    rw [changes] at here
    exact orderly.modified m portType' table here

theorem Orderly.clearChanges {s : Server} (orderly : s.Orderly) (portType : PortType) (n : Nat) :
    (s.clearChanges portType n).Orderly := by
  have same := sameButMap_update s n portType none
  refine ⟨?_, ?_, ?_⟩
  · intro signature portType' ref mem
    rw [Server.clearChanges, same.signature]
    exact orderly.listed signature portType' ref mem
  · intro m portType' connected ref mem
    rw [Server.clearChanges, same.state] at connected
    rw [Server.clearChanges, same.refs] at mem
    exact orderly.inMap m portType' connected ref mem
  · intro m portType' table here
    rw [Server.clearChanges, changes_update] at here
    split at here
    · contradiction
    · exact orderly.modified m portType' table here

theorem Inserted.inMap {s s' : Server} {portType : PortType} {refs : List PortRef}
    (inserted : Inserted s s' portType refs) {portType' : PortType} {ref : PortRef} (inMap : s.InMap portType' ref) :
    s'.InMap portType' ref := by
  obtain ⟨signature, nonempty, mem⟩ := inMap
  refine ⟨signature, nonempty, ?_⟩
  rcases portType.eq_or_opposite portType' with rfl | rfl
  · rw [inserted.own]
    exact List.mem_append_left _ mem
  · rw [inserted.opposite]
    exact mem

theorem Inserted.orderly {s s' : Server} {portType : PortType} {refs : List PortRef}
    (inserted : Inserted s s' portType refs) (orderly : s.Orderly) : s'.Orderly := by
  refine ⟨inserted.listed orderly.listed, fun n portType' connected ref mem => ?_, inserted.tables.modified⟩
  rw [inserted.same.state] at connected
  rw [inserted.same.refs] at mem
  exact inserted.inMap (orderly.inMap n portType' connected ref mem)

/-- A loop that inserts ports lists them all, unless a port without a signature ends it. -/
theorem eachPort_insert {s : Server} (tables : s.Tables .connected) (listed : s.Listed) (portType : PortType)
    {refs : List PortRef} (distinct : refs.Nodup) :
    (∃ s', eachPort (fun s ref => s.insertPort portType ref) s refs = .ok () s' ∧ Inserted s s' portType refs ∧
      ∀ ref ∈ refs, s'.InMap portType ref) ∨
    ∃ s', eachPort (fun s ref => s.insertPort portType ref) s refs = .fail .assertion s' := by
  by_cases signed : ∀ ref ∈ refs, ∃ signature, s.signature portType ref = some signature ∧ signature ≠ []
  · obtain ⟨s', done, inserted⟩ := eachPort_inserted tables listed signed distinct
    refine .inl ⟨s', done, inserted, fun ref mem => ?_⟩
    obtain ⟨signature, own, nonempty⟩ := signed ref mem
    refine ⟨signature, nonempty, ?_⟩
    rw [inserted.own, List.mem_append, List.mem_filter]
    exact .inr ⟨mem, by simpa using own⟩
  · right
    induction refs generalizing s with
    | nil => exact absurd (fun ref mem => absurd mem List.not_mem_nil) signed
    | cons ref rest ih =>
      rw [List.nodup_cons] at distinct
      rw [eachPort]
      by_cases first : ∃ signature, s.signature portType ref = some signature ∧ signature ≠ []
      · obtain ⟨signature, own, nonempty⟩ := first
        obtain ⟨s₁, done, inserted⟩ := insertPort_inserted tables listed own nonempty
        rw [done, Result.bind_ok]
        refine ih inserted.tables (inserted.listed listed) distinct.2 fun later => signed ?_
        rw [List.forall_mem_cons]
        refine ⟨⟨signature, own, nonempty⟩, fun ref' mem => ?_⟩
        rw [← inserted.same.signature]
        exact later ref' mem
      · refine ⟨s, ?_⟩
        rw [insertPort]
        cases own : s.signature portType ref with
        | none => rfl
        | some signature =>
          cases signature with
          | nil => rfl
          | cons byte bytes => exact absurd ⟨_, own, List.cons_ne_nil byte bytes⟩ first

/-- The ports of one type of a node are listed, unless an assertion fails. -/
theorem connectPorts_orderly {s : Server} (steady : s.Steady) (portType : PortType) (n : Nat) :
    (∃ s', s.connectPorts portType n = .ok () s' ∧ s'.Orderly ∧ ∀ ref ∈ s'.refs portType n, s'.InMap portType ref) ∨
      ∃ s', s.connectPorts portType n = .fail .assertion s' := by
  refine (eachPort_insert (steady.quiet.tables .connected) steady.listed portType (s.refs_nodup portType n)).imp_left ?_
  rintro ⟨s', done, inserted, inMap⟩
  refine ⟨s', done, inserted.orderly steady.orderly, ?_⟩
  rw [inserted.same.refs]
  exact inMap

inductive RoutingCall where
  /-- A connection has opened the file for the require port data of a node. -/
  | opened (n : Nat)
  /-- A connection has written to the provide port data of a node. -/
  | wrote (n offset : Nat) (data : Bytes)
  /-- The ports of a node wait for something else than data, or are disconnected. -/
  | waits (n : Nat) (portType : PortType) (state : DataState)
  /-- A connection with these nodes is gone. -/
  | left (nodes : List Nat)

/-- The state behind a call. A call in which an assertion fails has none. -/
inductive Calls (s : Server) : RoutingCall → Server → Prop
  | opened {n : Nat} {s' : Server} (done : s' ∈ returned (s.openRequirePortDataFile n)) : Calls s (.opened n) s'
  | wrote {fuel n offset : Nat} {data : Bytes} {result : Result Server Unit} {s' : Server}
      (ends : s.processRemoteWriteProvidePortData fuel n offset data = some result) (done : s' ∈ returned result) :
      Calls s (.wrote n offset data) s'
  | waits {n : Nat} {portType : PortType} {state : DataState} (other : state ≠ .connected) :
      Calls s (.waits n portType state) (s.update n fun node => node.setState portType state)
  | left {nodes : List Nat} (distinct : nodes.Nodup) : Calls s (.left nodes) (s.detachAllNodes nodes)

/-- A server that has routed nothing yet -/
structure New (s : Server) : Prop where
  state : ∀ n portType, (s.nodes n).state portType ≠ .connected
  changes : ∀ n portType, (s.nodes n).changes portType = none
  connectors : ∀ n portId, s.connectors n portId = []
  map : ∀ signature, s.signatureMap signature = none
  modified : s.modifiedNodes = []

/-- The states of a server in all its runs -/
inductive Reachable : Server → Prop
  | new {s : Server} (new : s.New) : Reachable s
  | call {s s' : Server} {call : RoutingCall} (before : Reachable s) (calls : s.Calls call s') : Reachable s'

theorem New.steady {s : Server} (new : s.New) : s.Steady := by
  refine ⟨⟨new.changes, new.modified⟩, ?_, fun n portType connected => absurd connected (new.state n portType)⟩
  intro signature portType ref mem
  rw [entryPorts, new.map] at mem
  cases portType <;> contradiction

theorem connectRequirePortsToServer_steady {s : Server} (steady : s.Steady) (n : Nat) :
    (∃ s', s.connectRequirePortsToServer n = .ok () s' ∧ s'.Steady ∧
      ∀ ref ∈ s'.refs .require n, s'.InMap .require ref) ∨
    ∃ failure s', s.connectRequirePortsToServer n = .fail failure s' ∧ (failure = .assertion ∨ s'.Steady) := by
  rw [connectRequirePortsToServer]
  rcases connectPorts_orderly steady .require n with ⟨s₁, done, orderly, inMap⟩ | ⟨s₁, failed⟩
  · have finish (result : Result Server Unit) (same : SameRouting s₁ result.state) :
        (∃ s', result.lift clearPortConnectorChanges = .ok () s' ∧ s'.Steady ∧
          ∀ ref ∈ s'.refs .require n, s'.InMap .require ref) ∨
        ∃ failure s', result.lift clearPortConnectorChanges = .fail failure s' ∧ (failure = .assertion ∨ s'.Steady) := by
      have orderly' := same.orderly orderly
      cases result with
      | ok value s₂ =>
        rw [Result.state_ok] at orderly' same
        refine .inl ⟨_, rfl, orderly'.cleared, fun ref mem => ?_⟩
        obtain ⟨-, cleared, map⟩ := clearPortConnectorChanges_quiet orderly'.modified
        rw [cleared.refs, Server.refs, same.ports, ← Server.refs] at mem
        exact (inMap ref mem).of_map (map.trans same.map)
      | fail failure s₂ => exact .inr ⟨failure, _, rfl, .inr orderly'.cleared⟩
    rw [done, Result.bind_ok]
    split
    · exact finish _ (.refl s₁)
    · exact finish _ (processRequireChanges_sameRouting n s₁ 0 _)
  · rw [failed]
    exact .inr ⟨.assertion, _, rfl, .inl rfl⟩

theorem Steady.setState {s : Server} (steady : s.Steady) {n : Nat} {portType : PortType} {state : DataState}
    (inMap : state = .connected → ∀ ref ∈ s.refs portType n, s.InMap portType ref) :
    (s.update n fun node => node.setState portType state).Steady := by
  have orderly := steady.orderly.setState inMap
  refine ⟨⟨fun m portType' => ?_, steady.quiet.modified⟩, orderly.listed, orderly.inMap⟩
  by_cases same : m = n
  · subst same
    rw [nodes_update_self]
    exact steady.quiet.changes m portType'
  · rw [nodes_update_of_ne s same]
    exact steady.quiet.changes m portType'

theorem openRequirePortDataFile_steady {s : Server} (steady : s.Steady) {n : Nat} {s' : Server}
    (done : s' ∈ returned (s.openRequirePortDataFile n)) : s'.Steady := by
  have opened : SameRouting s (s.update n fun node => { node with requirePortDataFile := some true }) :=
    sameRouting_update s n (fun _ => rfl) rfl rfl
  rw [openRequirePortDataFile] at done
  dsimp only at done
  rcases connectRequirePortsToServer_steady (opened.steady steady) n with
    ⟨s₁, connected, steady₁, inMap⟩ | ⟨failure, s₁, failed, either⟩
  · rw [connected, Result.bind_ok] at done
    obtain rfl := Option.some.inj done
    have steady₂ := @Steady.setState s₁ steady₁ n .require .connected fun _ => inMap
    exact ⟨⟨steady₂.quiet.changes, steady₂.quiet.modified⟩, steady₂.listed, steady₂.inMap⟩
  · rw [failed, Result.bind_fail] at done
    obtain rfl := state_of_returned done
    refine either.resolve_left ?_
    rintro rfl
    contradiction

theorem connectProvidePorts_steady {s : Server} (steady : s.Steady) {n : Nat} {s' : Server}
    (done : s' ∈ returned (s.connectProvidePorts n)) : s'.Steady := by
  have finish (result : Result Server Unit) (orderly : result.state.Orderly)
      (done : s' ∈ returned ((result.bind fun _ s => .ok () (s.clearChanges .provide n)).lift
        clearPortConnectorChanges)) : s'.Steady := by
    obtain rfl := state_of_returned done
    cases result with
    | ok value s₂ => exact (orderly.clearChanges .provide n).cleared
    | fail failure s₂ => exact orderly.cleared
  rw [connectProvidePorts] at done
  rcases connectPorts_orderly steady .provide n with ⟨s₁, connected, orderly, inMap⟩ | ⟨s₁, failed⟩
  · rw [connected, Result.bind_ok] at done
    have orderly' := @Orderly.setState s₁ orderly n .provide .connected fun _ => inMap
    dsimp only at done
    split at done
    · exact finish (.ok () _) orderly' done
    · exact finish _ ((processProvideChanges_sameRouting n _ 0 _).orderly orderly') done
  · rw [failed] at done
    contradiction

theorem processRemoteWriteProvidePortData_steady {s : Server} (steady : s.Steady) {fuel n offset : Nat} {data : Bytes}
    {result : Result Server Unit} {s' : Server}
    (ends : s.processRemoteWriteProvidePortData fuel n offset data = some result) (done : s' ∈ returned result) :
    s'.Steady := by
  have wrote := writePortData_sameRouting s .provide n offset data
  rw [processRemoteWriteProvidePortData] at ends
  split at ends
  · obtain rfl := Option.some.inj ends
    rwa [← Option.some.inj done]
  · obtain rfl := Option.some.inj ends
    rwa [← Option.some.inj done]
  · obtain rfl := Option.some.inj ends
    rw [writeProvidePortData] at done
    cases written : s.writePortData .provide n offset data with
    | ok value s₁ =>
      rw [written] at done wrote
      exact connectProvidePorts_steady (wrote.steady steady) done
    | fail failure s₁ =>
      rw [written] at done wrote
      obtain rfl := state_of_returned done
      exact wrote.steady steady
  · rw [writeProvidePortData] at ends
    cases written : s.writePortData .provide n offset data with
    | ok value s₁ =>
      rw [written] at ends wrote
      obtain rfl := state_of_returned done
      exact (routeProvidePortDataChangeToReceivers_sameRouting ends).steady (wrote.steady steady)
    | fail failure s₁ =>
      rw [written] at ends wrote
      obtain rfl := Option.some.inj ends
      obtain rfl := state_of_returned done
      exact wrote.steady steady
  · obtain rfl := Option.some.inj ends
    rwa [← Option.some.inj done]
  · obtain rfl := Option.some.inj ends
    rwa [← Option.some.inj done]

/-- No node that the disconnect went through is connected. -/
theorem settle_state (s : Server) {nodes : List Nat} (distinct : nodes.Nodup) {n : Nat} (mem : n ∈ nodes)
    (portType : PortType) : ((s.settle nodes).nodes n).state portType ≠ .connected := by
  intro connected
  have fewer {s s' : Server} (settles : Settles s s') {portType : PortType}
      (connected : (s'.nodes n).state portType = .connected) : (s.nodes n).state portType = .connected := by
    have before := settles.state n portType
    rw [connected] at before
    exact (before.resolve_right DataState.noConfusion).symm
  let provide := gatherChanges .provide s [] nodes
  let require := gatherChanges .require provide.1 [] nodes
  let cleared := require.1.clearPortConnectorChanges
  have requesters : Settles (cleared.processDisconnectedProviders provide.2) (s.settle nodes) :=
    processDisconnectedRequesters_settles _ _
  have providers : Settles cleared (cleared.processDisconnectedProviders provide.2) :=
    processDisconnectedProviders_settles _ _
  have behind := fewer (clearPortConnectorChanges_settles require.1) (fewer providers (fewer requesters connected))
  cases portType with
  | provide =>
    obtain ⟨table, gathered⟩ := @gathered_of_connected .provide nodes distinct s [] n mem
      (fewer (gatherChanges_settles .require nodes provide.1 []) behind)
    have gone := @processDisconnectedProviders_state _ cleared n table gathered
    rw [fewer requesters connected] at gone
    contradiction
  | require =>
    obtain ⟨table, gathered⟩ := @gathered_of_connected .require nodes distinct provide.1 [] n mem behind
    have gone := @processDisconnectedRequesters_state _ (cleared.processDisconnectedProviders provide.2) n table gathered
    rw [show (((cleared.processDisconnectedProviders provide.2).processDisconnectedRequesters require.2).nodes n).state
      .require = .connected from connected] at gone
    contradiction

theorem settle_quiet {s : Server} (nodes : List Nat)
    (modified : ∀ n portType table, (s.nodes n).changes portType = some table → n ∈ s.modifiedNodes) :
    (s.settle nodes).Quiet := by
  let provide := gatherChanges .provide s [] nodes
  let require := gatherChanges .require provide.1 [] nodes
  have gathered : Settles s require.1 :=
    (gatherChanges_settles .provide nodes s []).trans (gatherChanges_settles .require nodes provide.1 [])
  obtain ⟨quiet, -, -⟩ := @clearPortConnectorChanges_quiet require.1 (by
    intro n portType table here
    rw [gatherChanges_modified, gatherChanges_modified]
    exact modified n portType table (gathered.changes n portType table here))
  have later : Settles require.1.clearPortConnectorChanges (s.settle nodes) :=
    (processDisconnectedProviders_settles _ _).trans (processDisconnectedRequesters_settles _ _)
  constructor
  · intro n portType
    cases here : ((s.settle nodes).nodes n).changes portType with
    | none => rfl
    | some table =>
      have before := later.changes n portType table here
      rw [quiet.changes] at before
      contradiction
  · exact List.subset_nil.mp (quiet.modified ▸ later.modified)

theorem mem_nodes_of_detached {s : Server} {nodes : List Nat} {portType : PortType} {ref : PortRef}
    (mem : (portType, ref) ∈ s.detached nodes) : ref.node ∈ nodes := by
  rw [detached, List.mem_flatMap] at mem
  obtain ⟨n, listed, mem⟩ := mem
  have here (portType' : PortType) (mem : (portType, ref) ∈ (s.refs portType' n).map fun ref => (portType', ref)) :
      ref.node = n := by
    obtain ⟨ref', mem', same⟩ := List.mem_map.mp mem
    cases same
    exact node_of_refs mem'
  rcases List.mem_append.mp mem with mem | mem <;>
  · split at mem
    · rwa [here _ mem]
    · contradiction

theorem detachAllNodes_steady {s : Server} (steady : s.Steady) {nodes : List Nat} (distinct : nodes.Nodup) :
    (s.detachAllNodes nodes).Steady := by
  have removals := steady.removals distinct
  have settles := settle_settles (s.removeNodesFromSignatureMap nodes) nodes
  rw [detachAllNodes_eq]
  have refs (portType : PortType) (n : Nat) : ((s.removeNodesFromSignatureMap nodes).settle nodes).refs portType n =
      s.refs portType n := by
    rw [Server.refs, settles.ports, ← Server.refs, removals.same.refs]
  refine ⟨settle_quiet nodes removals.tables.modified, ?_, ?_⟩
  · intro signature portType ref mem
    rw [Server.entryPorts, settles.map] at mem
    rw [Server.signature, Server.port, settles.ports]
    exact removals.listed signature portType ref mem
  · intro n portType connected ref mem
    have other : n ∉ nodes := fun among => settle_state _ distinct among portType connected
    have before := settles.state n portType
    rw [connected, removals.same.state] at before
    rw [refs] at mem
    refine (removals.inMap ?_ (steady.inMap n portType (before.resolve_right DataState.noConfusion).symm ref mem)).of_map
      settles.map
    intro removed
    exact other (node_of_refs mem ▸ mem_nodes_of_detached removed)

theorem Calls.steady {s s' : Server} {call : RoutingCall} (calls : s.Calls call s') (steady : s.Steady) :
    s'.Steady := by
  cases calls with
  | opened done => exact openRequirePortDataFile_steady steady done
  | wrote ends done => exact processRemoteWriteProvidePortData_steady steady ends done
  | waits other => exact steady.setState fun connected => absurd connected other
  | left distinct => exact detachAllNodes_steady steady distinct

theorem Reachable.steady {s : Server} (reachable : s.Reachable) : s.Steady := by
  induction reachable with
  | new new => exact new.steady
  | call _ calls ih => exact calls.steady ih

/-- In every run, a disconnect leaves no connector to the provide ports of its nodes if it can empty each of their
lists. -/
theorem Reachable.detachAllNodes_noConnectors {s : Server} (reachable : s.Reachable) {nodes : List Nat}
    (distinct : nodes.Nodup) (clearable : ∀ n ∈ nodes, ∀ portId, s.Clearable nodes ⟨n, portId⟩) :
    (s.detachAllNodes nodes).NoConnectors nodes :=
  fun n mem portId => (clearable n mem portId).cleared reachable.steady distinct mem

/-- A node whose provide ports have data to come, and a node of another connection with a require port for each -/
def counterparts (count : Nat) : Server where
  nodes n := {
    connection := n
    inst := {
      mode := .server
      providePorts := if n = 0 then (List.range count).map fun p =>
        { portType := .provide, portId := p, portSignature := some [UInt8.ofNat (p + 1)], dataOffset := p, dataSize := 1 } else []
      requirePorts := if n = 1 then (List.range count).map fun p =>
        { portId := p, portSignature := some [UInt8.ofNat (p + 1)], dataOffset := p, dataSize := 1 } else []
      dataElements := []
      providePortInitData := none
      requirePortInitData := none
      providePortData := if n = 0 then some (List.replicate count 0) else none
      requirePortData := if n = 1 then some (List.replicate count 0) else none
      bytePortMap := if n = 0 then some (List.range count) else none }
    state := fun _ => .waitingForFileData
    connectorTable := if n = 0 then List.replicate count [] else [] }

theorem counterparts_new (count : Nat) : (counterparts count).New where
  state n portType := DataState.noConfusion
  changes n portType := rfl
  connectors n portId := by
    show (if n = 0 then List.replicate count [] else [])[portId]?.getD [] = []
    split
    · rw [List.getElem?_replicate]
      split <;> rfl
    · rfl
  map _ := rfl
  modified := rfl

def counterpartsConnected (count : Nat) : Server :=
  let opened := ((counterparts count).openRequirePortDataFile 1).state
  match opened.processRemoteWriteProvidePortData (count + 1) 0 0 (List.replicate count 7) with
  | none => opened
  | some result => result.state

theorem counterpartsConnected_reachable {count : Nat} (small : count = 1 ∨ count = 2) :
    (counterpartsConnected count).Reachable := by
  have opened : (counterparts count).Calls (.opened 1) ((counterparts count).openRequirePortDataFile 1).state :=
    .opened (by rcases small with rfl | rfl <;> exact rfl)
  have wrote : ((counterparts count).openRequirePortDataFile 1).state.Calls (.wrote 0 0 (List.replicate count 7))
      (counterpartsConnected count) := by
    rcases small with rfl | rfl
    · exact @Calls.wrote _ 2 0 0 _ _ _ rfl rfl
    · exact @Calls.wrote _ 3 0 0 _ _ _ rfl rfl
  exact .call (.call (.new (counterparts_new count)) opened) wrote

/-- A node with one provide port, which has a partner -/
theorem Reachable.detachAllNodes_noConnectors_counterparts :
    ((counterpartsConnected 1).detachAllNodes [0]).NoConnectors [0] := by
  refine (counterpartsConnected_reachable (.inl rfl)).detachAllNodes_noConnectors (List.nodup_singleton 0) ?_
  intro n mem portId
  obtain rfl := List.mem_singleton.mp mem
  cases portId with
  | zero => exact .inr (.inl ⟨rfl, by decide +kernel, [1], 0, ⟨1, 0⟩, by decide +kernel, by decide +kernel⟩)
  | succ portId =>
    have table : ((counterpartsConnected 1).nodes 0).connectorTable = [[⟨1, 0⟩]] := by decide +kernel
    refine .inl ?_
    rw [connectors, table]
    rfl

/-- The connector of the second port stays behind the disconnect. -/
theorem not_noConnectors_counterparts : ¬∀ s : Server, s.Reachable → ∀ nodes : List Nat, nodes.Nodup →
    (s.detachAllNodes nodes).NoConnectors nodes := by
  intro all
  have empty := all (counterpartsConnected 2) (counterpartsConnected_reachable (.inr rfl)) [0]
    (List.nodup_singleton 0) 0 (List.mem_singleton_self 0) 1
  have left : ((counterpartsConnected 2).detachAllNodes [0]).connectors 0 1 = [⟨1, 1⟩] := by decide +kernel
  rw [left] at empty
  contradiction

end Server

end Apx
