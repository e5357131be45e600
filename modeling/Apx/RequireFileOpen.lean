import Apx.ConnectorSync
import Apx.ProvideFileOpen

/-! The threads of a server at the open request for a require port data file: one handles the request
and connects a require port to its provide port, the other handles writes to the provide port
(node_instance.c). -/

namespace Apx

open LittleEndian

theorem offsetOf_add_le_offsetOf {instances : List PortInstance} {i j : Nat} {inst : PortInstance}
    (here : instances[i]? = some inst) (before : i < j) :
    offsetOf instances i + inst.dataSize ≤ offsetOf instances j := by
  rw [← Server.offsetOf_next here]
  exact Server.offsetOf_mono instances before

theorem slice_splice_of_disjoint {area data : Bytes} {offset offset' size : Nat}
    (fits : offset + data.length ≤ area.length)
    (disjoint : offset + data.length ≤ offset' ∨ offset' + size ≤ offset) :
    slice (splice area offset data) offset' size = slice area offset' size := by
  apply List.ext_getElem?
  intro i
  rw [slice_getElem?, slice_getElem?]
  by_cases inside : i < size
  · rw [if_pos inside, if_pos inside, splice_getElem? fits, if_neg (by omega)]
  · rw [if_neg inside, if_neg inside]

namespace Server

/-- Two ports of a node share no byte. -/
theorem Arranged.disjoint {s : Server} {portType : PortType} {ref ref' : PortRef} {port port' : PortInstance}
    (arranged : s.Arranged portType ref.node) (node : ref'.node = ref.node) (other : ref' ≠ ref)
    (here : s.port portType ref = some port) (here' : s.port portType ref' = some port') :
    port'.dataOffset + port'.dataSize ≤ port.dataOffset ∨
      port.dataOffset + port.dataSize ≤ port'.dataOffset := by
  obtain ⟨n, p⟩ := ref
  obtain ⟨m, q⟩ := ref'
  obtain rfl : m = n := node
  rw [arranged.offset p port here, arranged.offset q port' here']
  rcases Nat.lt_trichotomy p q with before | same | behind
  · exact .inr (offsetOf_add_le_offsetOf here before)
  · exact absurd (congrArg (PortRef.mk m) same.symm) other
  · exact .inl (offsetOf_add_le_offsetOf here' behind)

end Server

/-! The steps of the two threads. Each of them takes one lock, but that the provider holds the lock of
its node all the time while it routes a write. -/

/-- Where the thread of the provider stands with the data of its write: the write is stored, routed to
the connectors that are left, or stored in one of them and not yet sent to it. -/
inductive ProviderAt where
  | idle
  | stored (data : Bytes)
  | routing (data : Bytes) (rest : List PortRef)
  | written (data : Bytes) (ref : PortRef) (rest : List PortRef)

/-- Where the thread of the requester stands in file_open_notify, with the bytes of the provide port or
the snapshot that it has taken -/
inductive RequesterAt where
  | opened
  | inserted
  | read (data : Bytes)
  | copied
  | snapshotTaken (snapshot : Bytes)
  | done

/-- A server, one of whose nodes connects a require port -/
structure Connecting where
  server : Server
  provider : ProviderAt
  requester : RequesterAt

/-- The steps of the provider (a write of a whole port, and its routing) and those of the requester -/
inductive ConnectingStep where
  | write (data : Bytes)
  | lock
  | writePort
  | enqueue
  | unlock
  | insert
  | read
  | copy
  | takeSnapshot
  | enqueueSnapshot

/-- apx_portConnectorList_insert on the list of a provide port -/
def Server.insertConnector (s : Server) (provide require : PortRef) (connectors : List PortRef) : Server :=
  s.update provide.node fun node => { node with
    connectorTable := node.connectorTable.set provide.portId (connectors ++ [require]) }

namespace Connecting

/-- What a step does, for ports of equal size without a queue. A thread takes its steps in the order of
the code. -/
def apply (provide require : PortRef) (s : Connecting) : ConnectingStep → Option Connecting
  | .write data =>
    match s.provider, s.server.port .provide provide with
    | .idle, some port =>
      if data.length = port.dataSize then
        match s.server.writeProvidePortData provide.node port.dataOffset data with
        | .ok _ server => some { s with server := server, provider := .stored data }
        | .fail _ server => some { s with server := server }
      else none
    | _, _ => none
  | .lock =>
    match s.provider, (s.server.nodes provide.node).connectorTable[provide.portId]? with
    | .stored data, some connectors => some { s with provider := .routing data connectors }
    | _, _ => none
  | .writePort =>
    match s.provider with
    | .routing data (ref :: rest) =>
      match s.server.port .require ref with
      | none => none
      | some port =>
        if port.dataSize = data.length then
          match s.server.writeRequirePortData ref.node port.dataOffset data with
          | .ok _ server => some { s with server := server, provider := .written data ref rest }
          | .fail _ server => some { s with server := server, provider := .routing data rest }
        else some { s with provider := .routing data rest }
    | _ => none
  | .enqueue =>
    match s.provider with
    | .written data ref rest =>
      match s.server.port .require ref, (s.server.nodes ref.node).requirePortDataFile with
      | some port, some true => some { s with
          server := { s.server with sent := s.server.sent ++ [(ref.node, port.dataOffset, data)] }
          provider := .routing data rest }
      | _, _ => some { s with provider := .routing data rest }
    | _ => none
  | .unlock =>
    match s.provider with
    | .routing _ [] => some { s with provider := .idle }
    | _ => none
  | .insert =>
    match s.requester, s.provider, (s.server.nodes provide.node).connectorTable[provide.portId]? with
    -- the provider holds the lock
    | .opened, .routing .., _ | .opened, .written .., _ => none
    | .opened, _, some connectors =>
      some { s with
        server := s.server.insertConnector provide require connectors, requester := .inserted }
    | _, _, _ => none
  | .read =>
    match s.requester, s.server.port .provide provide with
    | .inserted, some port =>
      match s.server.readProvidePortData provide.node port.dataOffset port.dataSize with
      | .ok data => some { s with requester := .read data }
      | .error _ => none
    | _, _ => none
  | .copy =>
    match s.requester, s.server.port .require require with
    | .read data, some port =>
      match s.server.writeRequirePortData require.node port.dataOffset data with
      | .ok _ server => some { s with server := server, requester := .copied }
      | .fail .. => none
    | _, _ => none
  | .takeSnapshot =>
    match s.requester with
    | .copied => some { s with requester := .snapshotTaken (s.server.area .require require.node) }
    | _ => none
  | .enqueueSnapshot =>
    match s.requester with
    | .snapshotTaken snapshot => some { s with
        server := { s.server with sent := s.server.sent ++ [(require.node, 0, snapshot)] }
        requester := .done }
    | _ => none

def messagesTo (n : Nat) (sent : List (Nat × Nat × Bytes)) : List (Nat × Bytes) :=
  sent.filterMap fun (m, message) => if m = n then some message else none

/-- What the client of the requester holds for a require port behind all messages to it, which had the
data `client` before -/
def clientHeld (s : Connecting) (require : PortRef) (client : Bytes) : Bytes :=
  match s.server.port .require require with
  | none => []
  | some port =>
    slice (receivedArea client (messagesTo require.node s.server.sent)) port.dataOffset port.dataSize

/-- A provide port and a require port of equal size without a queue, both in their areas; the file of the
requester is open. -/
structure Wired (server : Server) (provide require : PortRef) (p r : PortInstance) : Prop where
  provided : server.port .provide provide = some p
  required : server.port .require require = some r
  size : r.dataSize = p.dataSize
  queue : p.queueLength = 0
  inside : p.dataOffset + p.dataSize ≤ (server.area .provide provide.node).length
  arranged : ∀ n, server.Arranged .require n
  file : (server.nodes require.node).requirePortDataFile = some true
  table : provide.portId < (server.nodes provide.node).connectorTable.length

/-- The file has just been opened, and no write is going on. -/
structure Opening (s : Connecting) (provide require : PortRef) (client : Bytes) : Prop where
  wired : ∃ p r, Wired s.server provide require p r
  clientSize : client.length = (s.server.area .require require.node).length
  provider : s.provider = .idle
  requester : s.requester = .opened

/-- Both threads are through. -/
structure Done (s : Connecting) : Prop where
  provider : s.provider = .idle
  requester : s.requester = .done

/-- No routed write overtakes what the requester carries: it does not reach the require port between the
reading of the provide port and the copy, and it is not sent between the snapshot and its sending, unless
the bytes are the same. -/
def NotOvertaken (require : PortRef) (s : Connecting) : ConnectingStep → Prop
  | .writePort =>
    match s.provider, s.requester with
    | .routing data (ref :: _), .read data' => ref = require → data = data'
    | _, _ => True
  | .enqueue =>
    match s.provider, s.requester with
    | .written data ref _, .snapshotTaken snapshot => ref = require →
        ∀ port, s.server.port .require require = some port →
          slice snapshot port.dataOffset port.dataSize = data
    | _, _ => True
  | _ => True

/-- The write that the provider is busy with will still come to the require port. -/
def WillWrite (require : PortRef) : ProviderAt → Prop
  | .idle => False
  | .stored _ => True
  | .routing _ rest | .written _ _ rest => require ∈ rest

/-- The write that the provider is busy with will still be sent to the require port. -/
def WillSend (require : PortRef) : ProviderAt → Prop
  | .idle => False
  | .stored _ => True
  | .routing _ rest => require ∈ rest
  | .written _ ref rest => ref = require ∨ require ∈ rest

/-- The data of the write that the provider is busy with -/
def writing : ProviderAt → Option Bytes
  | .idle => none
  | .stored data | .routing data _ | .written data _ _ => some data

theorem WillWrite.willSend {require : PortRef} {provider : ProviderAt}
    (will : WillWrite require provider) : WillSend require provider := by
  cases provider with
  | idle | stored | routing => exact will
  | written => exact .inr will

/-- How far the requester is informed: the bytes of the provide port, of the require port and of its
client, and those that the requester carries, are up to date or will still be written. -/
def Informs (require : PortRef) (r : PortInstance) (provided required received : Bytes)
    (provider : ProviderAt) : RequesterAt → Prop
  | .opened | .inserted => True
  | .read data => data = provided ∨ WillWrite require provider
  | .copied => required = provided ∨ WillWrite require provider
  | .snapshotTaken snapshot => (required = provided ∨ WillWrite require provider) ∧
      (slice snapshot r.dataOffset r.dataSize = provided ∨ WillSend require provider)
  | .done => (required = provided ∨ WillWrite require provider) ∧
      (received = provided ∨ WillSend require provider)

/-- The invariant of all runs whose steps are not overtaken -/
structure Invariant (provide require : PortRef) (p r : PortInstance) (client : Bytes) (s : Connecting) :
    Prop where
  wired : Wired s.server provide require p r
  clientSize : client.length = (s.server.area .require require.node).length
  written : ∀ data, writing s.provider = some data →
    data.length = p.dataSize ∧ s.server.held .provide provide = data
  current : ∀ data ref rest, s.provider = .written data ref rest →
    ∃ port, s.server.port .require ref = some port ∧ data.length = port.dataSize
  connected : s.requester = .opened ∨ require ∈ s.server.connectors provide.node provide.portId
  carried : ∀ data, s.requester = .read data → data.length = r.dataSize
  snapshot : ∀ snapshot, s.requester = .snapshotTaken snapshot →
    snapshot.length = (s.server.area .require require.node).length
  informs : Informs require r (s.server.held .provide provide) (s.server.held .require require)
    (s.clientHeld require client) s.provider s.requester

/-! What the steps do to the ports of the server -/

theorem held_eq {server : Server} {portType : PortType} {ref : PortRef} {port : PortInstance}
    (here : server.port portType ref = some port) :
    server.held portType ref = slice (server.area portType ref.node) port.dataOffset port.dataSize := by
  rw [Server.held, here]

theorem sent_of_write {server server' : Server} {portType : PortType} {n offset : Nat} {data : Bytes}
    (call : server.writePortData portType n offset data = .ok () server') : server'.sent = server.sent := by
  rw [Server.writePortData] at call
  split at call
  · contradiction
  · cases call
    rfl

theorem port_of_write {server server' : Server} {portType : PortType} {n offset : Nat} {data : Bytes}
    (call : server.writePortData portType n offset data = .ok () server') (portType' : PortType)
    (ref : PortRef) : server'.port portType' ref = server.port portType' ref := by
  by_cases inside : offset + data.length ≤ (server.area portType n).length
  · obtain ⟨_, call', same, -⟩ := Server.writePortData_ok inside
    cases call.symm.trans call'
    exact same.port portType' ref
  · rw [Server.writePortData] at call
    have refused : offset + data.length > (((server.nodes n).inst.portData portType).getD []).length :=
      Nat.lt_of_not_le inside
    rw [if_pos refused] at call
    contradiction

theorem Wired.of_sameButData {server server' : Server} {provide require : PortRef} {p r : PortInstance}
    (wired : Wired server provide require p r) (same : server.SameButData server') :
    Wired server' provide require p r where
  provided := (same.port .provide provide).trans wired.provided
  required := (same.port .require require).trans wired.required
  size := wired.size
  queue := wired.queue
  inside := by
    rw [same.length]
    exact wired.inside
  arranged n := same.arranged (wired.arranged n)
  file := (same.file require.node).trans wired.file
  table := by
    obtain ⟨_, _, node⟩ := same.node provide.node
    rw [node]
    exact wired.table

theorem Wired.of_sent {server server' : Server} {provide require : PortRef} {p r : PortInstance}
    (wired : Wired server provide require p r) (nodes : server'.nodes = server.nodes) :
    Wired server' provide require p r := by
  have same : server.SameButData server' :=
    ⟨fun n => ⟨_, _, by rw [nodes]⟩, fun portType n => by rw [Server.area, Server.area, nodes]⟩
  exact wired.of_sameButData same

theorem connectors_of_sameButData {server server' : Server} (same : server.SameButData server')
    (n portId : Nat) : server'.connectors n portId = server.connectors n portId := by
  obtain ⟨_, _, node⟩ := same.node n
  rw [Server.connectors, Server.connectors, node]

/-- A write to the data of a port leaves what the other ports hold. -/
theorem held_of_write {server server' : Server} {portType : PortType} {ref ref' : PortRef}
    {port : PortInstance} {data : Bytes} (arranged : server.Arranged portType ref.node)
    (same : server.SameButData server') (here : server.port portType ref = some port)
    (size : data.length = port.dataSize)
    (written : server'.area portType ref.node = splice (server.area portType ref.node) port.dataOffset data)
    (others : ∀ m, m ≠ ref.node → server'.area portType m = server.area portType m) :
    server'.held portType ref' = if ref' = ref then data else server.held portType ref' := by
  have inside : port.dataOffset + data.length ≤ (server.area portType ref.node).length := by
    rw [size]
    exact arranged.inside here
  by_cases equal : ref' = ref
  · rw [if_pos equal, equal, held_eq ((same.port portType ref).trans here), written, ← size,
      slice_splice inside]
  · rw [if_neg equal]
    cases here' : server.port portType ref' with
    | none => rw [Server.held, Server.held, same.port, here']
    | some port' =>
      rw [held_eq here', held_eq ((same.port portType ref').trans here')]
      by_cases node : ref'.node = ref.node
      · rw [node, written, slice_splice_of_disjoint inside]
        rw [size]
        rcases arranged.disjoint node equal here here' with behind | before
        · exact .inr behind
        · exact .inl before
      · rw [others _ node]

theorem clientHeld_eq {s : Connecting} {require : PortRef} {client : Bytes} {port : PortInstance}
    (here : s.server.port .require require = some port) : s.clientHeld require client =
      slice (receivedArea client (messagesTo require.node s.server.sent)) port.dataOffset port.dataSize := by
  rw [clientHeld, here]

theorem messagesTo_append (n m offset : Nat) (sent : List (Nat × Nat × Bytes)) (data : Bytes) :
    messagesTo n (sent ++ [(m, offset, data)]) =
      messagesTo n sent ++ if m = n then [(offset, data)] else [] := by
  rw [messagesTo, List.filterMap_append]
  by_cases same : m = n
  · simp [messagesTo, same]
  · simp [messagesTo, same]

theorem clientHeld_congr {s s' : Connecting} {require : PortRef} {client : Bytes}
    (port : s'.server.port .require require = s.server.port .require require)
    (sent : s'.server.sent = s.server.sent) : s'.clientHeld require client = s.clientHeld require client := by
  rw [clientHeld, clientHeld, port, sent]

/-- A message to the require port itself, to another port of its node, or to another node -/
theorem clientHeld_of_sent {s s' : Connecting} {require ref : PortRef} {client data : Bytes}
    {port : PortInstance} (arranged : s.server.Arranged .require ref.node)
    (clientSize : client.length = (s.server.area .require require.node).length)
    (here : s.server.port .require ref = some port) (size : data.length = port.dataSize)
    (port_eq : s'.server.port .require require = s.server.port .require require)
    (sent : s'.server.sent = s.server.sent ++ [(ref.node, port.dataOffset, data)]) :
    s'.clientHeld require client = if ref = require then data else s.clientHeld require client := by
  by_cases equal : ref = require
  · subst equal
    have inside : port.dataOffset + data.length ≤
        (receivedArea client (messagesTo ref.node s.server.sent)).length := by
      rw [receivedArea_length, clientSize, size]
      exact arranged.inside here
    rw [if_pos rfl, clientHeld_eq (port_eq.trans here), sent, messagesTo_append, if_pos rfl,
      receivedArea_append, writtenArea_of_fits inside, ← size, slice_splice inside]
  · rw [if_neg equal]
    cases here' : s.server.port .require require with
    | none => rw [clientHeld, clientHeld, port_eq, here']
    | some port' =>
      rw [clientHeld_eq here', clientHeld_eq (port_eq.trans here'), sent, messagesTo_append]
      by_cases node : ref.node = require.node
      · have inside : port.dataOffset + data.length ≤
            (receivedArea client (messagesTo require.node s.server.sent)).length := by
          rw [receivedArea_length, clientSize, ← node, size]
          exact arranged.inside here
        rw [if_pos node, receivedArea_append, writtenArea_of_fits inside, slice_splice_of_disjoint inside]
        rw [size]
        rcases arranged.disjoint node.symm (Ne.symm equal) here here' with behind | before
        · exact .inr behind
        · exact .inl before
      · rw [if_neg node, List.append_nil]

variable {provide require : PortRef} {p r : PortInstance} {client : Bytes}

/-- The provider goes on without coming to the require port. -/
theorem Informs.mono {provided required received : Bytes} {provider provider' : ProviderAt}
    {requester : RequesterAt}
    (informs : Informs require r provided required received provider requester)
    (write : WillWrite require provider → WillWrite require provider')
    (send : WillSend require provider → WillSend require provider') :
    Informs require r provided required received provider' requester := by
  cases requester with
  | opened | inserted => trivial
  | read data | copied => exact informs.imp_right write
  | snapshotTaken snapshot => exact ⟨informs.1.imp_right write, informs.2.imp_right send⟩
  | done => exact ⟨informs.1.imp_right write, informs.2.imp_right send⟩

/-- A new write makes all bytes old, and comes to the require port. -/
theorem WillWrite.informs {provided required received : Bytes} {provider : ProviderAt}
    (will : WillWrite require provider) (requester : RequesterAt) :
    Informs require r provided required received provider requester := by
  cases requester with
  | opened | inserted => trivial
  | read data | copied => exact .inr will
  | snapshotTaken snapshot => exact ⟨.inr will, .inr will.willSend⟩
  | done => exact ⟨.inr will, .inr will.willSend⟩

theorem Invariant.write {s s' : Connecting} {data : Bytes} (inv : s.Invariant provide require p r client)
    (taken : s.apply provide require (.write data) = some s') :
    s'.Invariant provide require p r client := by
  cases provider : s.provider with
  | stored | routing | written => simp [apply, provider] at taken
  | idle =>
    simp only [apply, provider, inv.wired.provided] at taken
    by_cases size : data.length = p.dataSize
    · have inside : p.dataOffset + data.length ≤ (s.server.area .provide provide.node).length := by
        rw [size]
        exact inv.wired.inside
      obtain ⟨server, call, same, here, others⟩ := Server.writePortData_ok inside
      simp only [if_pos size, Server.writeProvidePortData, call] at taken
      obtain rfl := Option.some.inj taken
      have will : WillWrite require (.stored data) := trivial
      refine ⟨inv.wired.of_sameButData same, ?_, ?_, (fun _ _ _ going => by cases going), ?_, inv.carried, ?_,
        will.informs _⟩
      · rw [inv.clientSize, same.length]
      · intro data' going
        obtain rfl : data = data' := by simpa [writing] using going
        refine ⟨size, ?_⟩
        rw [held_eq ((same.port .provide provide).trans inv.wired.provided), here, ← size,
          slice_splice inside]
      · rw [connectors_of_sameButData same]
        exact inv.connected
      · rw [same.length]
        exact inv.snapshot
    · simp [size] at taken

theorem Invariant.lock {s s' : Connecting} (inv : s.Invariant provide require p r client)
    (taken : s.apply provide require .lock = some s') : s'.Invariant provide require p r client := by
  cases provider : s.provider with
  | idle | routing | written => simp [apply, provider] at taken
  | stored data =>
    cases connectors : (s.server.nodes provide.node).connectorTable[provide.portId]? with
    | none => simp [apply, provider, connectors] at taken
    | some connectors' =>
      obtain rfl : _ = s' := by simpa [apply, provider, connectors] using taken
      have list : s.server.connectors provide.node provide.portId = connectors' := by
        rw [Server.connectors, connectors]
        rfl
      refine ⟨inv.wired, inv.clientSize, fun data' going => inv.written data' (by rw [provider]; exact going),
        (fun _ _ _ going => by cases going), inv.connected, inv.carried, inv.snapshot, ?_⟩
      rcases inv.connected with opened | mem
      · show Informs _ _ _ _ _ _ s.requester
        rw [opened]
        trivial
      · rw [list] at mem
        have will : WillWrite require (.routing data connectors') := mem
        exact will.informs _

theorem Invariant.writePort {s s' : Connecting} (inv : s.Invariant provide require p r client)
    (met : s.NotOvertaken require .writePort) (taken : s.apply provide require .writePort = some s') :
    s'.Invariant provide require p r client := by
  cases provider : s.provider with
  | idle | stored | written => simp [apply, provider] at taken
  | routing data rest =>
    cases rest with
    | nil => simp [apply, provider] at taken
    | cons ref rest =>
      have written := inv.written data (by rw [provider]; rfl)
      have informs := inv.informs
      rw [provider] at informs
      rw [apply, provider] at taken
      cases here : s.server.port .require ref with
      | none => simp [here] at taken
      | some port =>
        by_cases size : port.dataSize = data.length
        · have arranged := inv.wired.arranged ref.node
          have inside : port.dataOffset + data.length ≤ (s.server.area .require ref.node).length := by
            rw [← size]
            exact arranged.inside here
          obtain ⟨server, call, same, wrote, others⟩ := Server.writePortData_ok inside
          simp only [here, if_pos size, Server.writeRequirePortData, call] at taken
          obtain rfl := Option.some.inj taken
          have provided : server.held .provide provide = s.server.held .provide provide := by
            rw [Server.held, Server.held, same.port]
            cases s.server.port .provide provide with
            | none => rfl
            | some port => rw [others .provide _ (.inl PortType.noConfusion)]
          have required : server.held .require require =
              if require = ref then data else s.server.held .require require :=
            held_of_write arranged same here size.symm wrote fun m other => others .require m (.inr other)
          have client_eq := @clientHeld_congr s { s with server := server, provider := .written data ref rest }
            require client (same.port .require require) (sent_of_write call)
          refine ⟨inv.wired.of_sameButData same, by rw [same.length]; exact inv.clientSize, ?_, ?_, ?_, inv.carried, ?_, ?_⟩
          · intro data' going
            obtain rfl : data = data' := by simpa [writing] using going
            exact ⟨written.1, provided.trans written.2⟩
          · intro data' ref' rest' going
            cases going
            exact ⟨port, (same.port .require ref).trans here, size.symm⟩
          · rw [connectors_of_sameButData same]
            exact inv.connected
          · rw [same.length]
            exact inv.snapshot
          · rw [client_eq]
            show Informs require r (server.held .provide provide) (server.held .require require) _ _ s.requester
            rw [provided, required]
            by_cases equal : ref = require
            · rw [if_pos equal.symm]
              have upToDate : data = s.server.held .provide provide := written.2.symm
              have send : WillSend require (.written data ref rest) := .inl equal
              cases requester : s.requester with
              | opened | inserted => trivial
              | read data' =>
                have same : data = data' := by
                  have met : ref = require → data = data' := by
                    simpa [NotOvertaken, provider, requester] using met
                  exact met equal
                exact .inl (same.symm.trans upToDate)
              | copied => exact .inl upToDate
              | snapshotTaken snapshot => exact ⟨.inl upToDate, .inr send⟩
              | done => exact ⟨.inl upToDate, .inr send⟩
            · rw [if_neg (Ne.symm equal)]
              exact informs.mono (fun will => (List.mem_cons.mp will).resolve_left (Ne.symm equal))
                fun will => .inr ((List.mem_cons.mp will).resolve_left (Ne.symm equal))
        · -- a port of another size is not the one that is being connected
          simp only [here, if_neg size] at taken
          obtain rfl := Option.some.inj taken
          have other : ref ≠ require := by
            intro equal
            rw [equal, inv.wired.required] at here
            cases here
            exact size (inv.wired.size.trans written.1.symm)
          exact ⟨inv.wired, inv.clientSize, fun data' going => inv.written data' (by rw [provider]; exact going),
            (fun _ _ _ going => by cases going), inv.connected, inv.carried, inv.snapshot,
            informs.mono (fun will => (List.mem_cons.mp will).resolve_left (Ne.symm other))
              fun will => (List.mem_cons.mp will).resolve_left (Ne.symm other)⟩

theorem Invariant.enqueue {s s' : Connecting} (inv : s.Invariant provide require p r client)
    (met : s.NotOvertaken require .enqueue) (taken : s.apply provide require .enqueue = some s') :
    s'.Invariant provide require p r client := by
  cases provider : s.provider with
  | idle | stored | routing => simp [apply, provider] at taken
  | written data ref rest =>
    have written := inv.written data (by rw [provider]; rfl)
    have informs := inv.informs
    rw [provider] at informs
    obtain ⟨port, here, size⟩ := inv.current data ref rest provider
    simp only [apply, provider, here] at taken
    by_cases open_ : (s.server.nodes ref.node).requirePortDataFile = some true
    · simp only [open_] at taken
      obtain rfl := Option.some.inj taken
      refine ⟨?_, inv.clientSize, fun data' going => inv.written data' (by rw [provider]; exact going),
        (fun _ _ _ going => by cases going), inv.connected, inv.carried, inv.snapshot, ?_⟩
      · exact inv.wired.of_sent rfl
      · have received := @clientHeld_of_sent s { s with
            server := { s.server with sent := s.server.sent ++ [(ref.node, port.dataOffset, data)] }
            provider := .routing data rest } require ref client data port
          (inv.wired.arranged ref.node) inv.clientSize here size rfl rfl
        rw [received]
        show Informs require r (s.server.held .provide provide) (s.server.held .require require) _ _ s.requester
        by_cases equal : ref = require
        · rw [if_pos equal]
          have upToDate : data = s.server.held .provide provide := written.2.symm
          cases requester : s.requester with
          | opened | inserted => trivial
          | read data' | copied =>
            rw [requester] at informs
            exact informs
          | snapshotTaken snapshot =>
            rw [requester] at informs
            have fresh : slice snapshot r.dataOffset r.dataSize = data := by
              have met : ref = require → ∀ port, s.server.port .require require = some port →
                  slice snapshot port.dataOffset port.dataSize = data := by
                simpa [NotOvertaken, provider, requester] using met
              exact met equal r inv.wired.required
            exact ⟨informs.1, .inl (fresh.trans upToDate)⟩
          | done =>
            rw [requester] at informs
            exact ⟨informs.1, .inl upToDate⟩
        · rw [if_neg equal]
          exact informs.mono id fun will => will.resolve_left equal
    · -- a requester whose file is closed is not the one that is connecting
      have other : ref ≠ require := by
        intro equal
        rw [equal] at open_
        exact open_ inv.wired.file
      obtain rfl : { s with provider := .routing data rest } = s' := by
        split at taken
        · contradiction
        · exact Option.some.inj taken
      exact ⟨inv.wired, inv.clientSize, fun data' going => inv.written data' (by rw [provider]; exact going),
        (fun _ _ _ going => by cases going), inv.connected, inv.carried, inv.snapshot,
        informs.mono id fun will => will.resolve_left other⟩

theorem Invariant.unlock {s s' : Connecting} (inv : s.Invariant provide require p r client)
    (taken : s.apply provide require .unlock = some s') : s'.Invariant provide require p r client := by
  cases provider : s.provider with
  | idle | stored | written => simp [apply, provider] at taken
  | routing data rest =>
    cases rest with
    | cons ref rest => simp [apply, provider] at taken
    | nil =>
      simp only [apply, provider] at taken
      obtain rfl := Option.some.inj taken
      have informs := inv.informs
      rw [provider] at informs
      exact ⟨inv.wired, inv.clientSize, fun _ => nofun, (fun _ _ _ going => by cases going), inv.connected,
        inv.carried, inv.snapshot,
        informs.mono (fun will => absurd will List.not_mem_nil) fun will => absurd will List.not_mem_nil⟩

/-- The insertion of a connector leaves all but the connector table of one node. -/
structure SameButConnectors (server server' : Server) : Prop where
  node : ∀ n, ∃ table, table.length = (server.nodes n).connectorTable.length ∧
    server'.nodes n = { server.nodes n with connectorTable := table }
  sent : server'.sent = server.sent

theorem sameButConnectors_insertConnector (server : Server) (provide require : PortRef)
    (connectors : List PortRef) :
    SameButConnectors server (server.insertConnector provide require connectors) := by
  refine ⟨fun n => ?_, rfl⟩
  by_cases equal : n = provide.node
  · subst equal
    exact ⟨_, List.length_set .., Server.nodes_update_self ..⟩
  · exact ⟨_, rfl, Server.nodes_update_of_ne server equal _⟩

theorem SameButConnectors.port {server server' : Server} (same : SameButConnectors server server')
    (portType : PortType) (ref : PortRef) : server'.port portType ref = server.port portType ref := by
  obtain ⟨_, -, node⟩ := same.node ref.node
  rw [Server.port, Server.port, node]
  cases portType <;> rfl

theorem SameButConnectors.area {server server' : Server} (same : SameButConnectors server server')
    (portType : PortType) (n : Nat) : server'.area portType n = server.area portType n := by
  obtain ⟨_, -, node⟩ := same.node n
  rw [Server.area, Server.area, node]

theorem SameButConnectors.held {server server' : Server} (same : SameButConnectors server server')
    (portType : PortType) (ref : PortRef) : server'.held portType ref = server.held portType ref := by
  rw [Server.held, Server.held, same.port, same.area]

theorem SameButConnectors.wired {server server' : Server} (same : SameButConnectors server server')
    (wired : Wired server provide require p r) : Wired server' provide require p r where
  provided := (same.port .provide provide).trans wired.provided
  required := (same.port .require require).trans wired.required
  size := wired.size
  queue := wired.queue
  inside := by
    rw [same.area]
    exact wired.inside
  arranged n := by
    have ports : (server'.nodes n).ports .require = (server.nodes n).ports .require := by
      obtain ⟨_, -, node⟩ := same.node n
      rw [node]
      rfl
    constructor
    · rw [ports]
      exact (wired.arranged n).offset
    · rw [ports, same.area]
      exact (wired.arranged n).size
  file := by
    obtain ⟨_, -, node⟩ := same.node require.node
    rw [node]
    exact wired.file
  table := by
    obtain ⟨_, length, node⟩ := same.node provide.node
    rw [node]
    exact wired.table.trans_eq length.symm

theorem Invariant.insert {s s' : Connecting} (inv : s.Invariant provide require p r client)
    (taken : s.apply provide require .insert = some s') : s'.Invariant provide require p r client := by
  obtain ⟨connectors, found⟩ : ∃ connectors,
      (s.server.nodes provide.node).connectorTable[provide.portId]? = some connectors :=
    ⟨_, List.getElem?_eq_getElem inv.wired.table⟩
  let server := s.server.insertConnector provide require connectors
  have same := sameButConnectors_insertConnector s.server provide require connectors
  have mem : require ∈ server.connectors provide.node provide.portId := by
    have here : server.nodes provide.node = _ := Server.nodes_update_self ..
    rw [Server.connectors, here, List.getElem?_set_self inv.wired.table]
    exact List.mem_append_right _ List.mem_cons_self
  obtain rfl : { s with server := server, requester := .inserted } = s' := by
    cases requester : s.requester with
    | inserted | read | copied | snapshotTaken | done => simp [apply, requester] at taken
    | opened =>
      cases provider : s.provider with
      | routing | written => simp [apply, requester, provider] at taken
      | idle | stored =>
        simp only [apply, requester, provider, found] at taken
        exact Option.some.inj taken
  refine ⟨same.wired inv.wired, ?_, ?_, ?_, .inr mem, (fun _ going => by cases going),
    (fun _ going => by cases going), trivial⟩
  · rw [same.area]
    exact inv.clientSize
  · intro data going
    rw [same.held]
    exact inv.written data going
  · intro data ref rest going
    rw [same.port]
    exact inv.current data ref rest going

theorem Invariant.read {s s' : Connecting} (inv : s.Invariant provide require p r client)
    (taken : s.apply provide require .read = some s') : s'.Invariant provide require p r client := by
  cases requester : s.requester with
  | opened | read | copied | snapshotTaken | done => simp [apply, requester] at taken
  | inserted =>
    have connected := inv.connected.resolve_left (by rw [requester]; intro opened; cases opened)
    have inside := inv.wired.inside
    have call : s.server.readProvidePortData provide.node p.dataOffset p.dataSize =
        .ok (slice (s.server.area .provide provide.node) p.dataOffset p.dataSize) :=
      if_neg (Nat.not_lt.mpr inside)
    simp only [apply, requester, inv.wired.provided, call] at taken
    obtain rfl := Option.some.inj taken
    refine ⟨inv.wired, inv.clientSize, inv.written, inv.current, .inr connected, ?_, fun _ => nofun,
      .inl (held_eq inv.wired.provided).symm⟩
    intro data going
    cases going
    exact (slice_length inside).trans inv.wired.size.symm

theorem Invariant.copy {s s' : Connecting} (inv : s.Invariant provide require p r client)
    (taken : s.apply provide require .copy = some s') : s'.Invariant provide require p r client := by
  cases requester : s.requester with
  | opened | inserted | copied | snapshotTaken | done => simp [apply, requester] at taken
  | read data =>
    have connected := inv.connected.resolve_left (by rw [requester]; intro opened; cases opened)
    have size := inv.carried data requester
    have arranged := inv.wired.arranged require.node
    have inside : r.dataOffset + data.length ≤ (s.server.area .require require.node).length := by
      rw [size]
      exact arranged.inside inv.wired.required
    obtain ⟨server, call, same, wrote, others⟩ := Server.writePortData_ok inside
    simp only [apply, requester, inv.wired.required, Server.writeRequirePortData, call] at taken
    obtain rfl := Option.some.inj taken
    have provided : server.held .provide provide = s.server.held .provide provide := by
      rw [Server.held, Server.held, same.port]
      cases s.server.port .provide provide with
      | none => rfl
      | some port => rw [others .provide _ (.inl PortType.noConfusion)]
    have required : server.held .require require = data := by
      have held := @held_of_write _ _ _ _ require _ _ arranged same inv.wired.required size wrote
        fun m other => others .require m (.inr other)
      rwa [if_pos rfl] at held
    refine ⟨inv.wired.of_sameButData same, by rw [same.length]; exact inv.clientSize, ?_, ?_, .inr ?_,
      (fun _ going => by cases going), (fun _ going => by cases going), ?_⟩
    · intro data' going
      rw [provided]
      exact inv.written data' going
    · intro data' ref rest going
      rw [same.port]
      exact inv.current data' ref rest going
    · rw [connectors_of_sameButData same]
      exact connected
    · have informs := inv.informs
      rw [requester] at informs
      show server.held .require require = server.held .provide provide ∨ _
      rw [required, provided]
      exact informs

theorem Invariant.takeSnapshot {s s' : Connecting} (inv : s.Invariant provide require p r client)
    (taken : s.apply provide require .takeSnapshot = some s') :
    s'.Invariant provide require p r client := by
  cases requester : s.requester with
  | opened | inserted | read | snapshotTaken | done => simp [apply, requester] at taken
  | copied =>
    have connected := inv.connected.resolve_left (by rw [requester]; intro opened; cases opened)
    have informs := inv.informs
    rw [requester] at informs
    simp only [apply, requester] at taken
    obtain rfl := Option.some.inj taken
    refine ⟨inv.wired, inv.clientSize, inv.written, inv.current, .inr connected, fun _ => nofun, ?_, informs, ?_⟩
    · intro snapshot going
      cases going
      rfl
    · rw [held_eq inv.wired.required] at informs
      exact informs.imp_right WillWrite.willSend

theorem Invariant.enqueueSnapshot {s s' : Connecting} (inv : s.Invariant provide require p r client)
    (taken : s.apply provide require .enqueueSnapshot = some s') :
    s'.Invariant provide require p r client := by
  cases requester : s.requester with
  | opened | inserted | read | copied | done => simp [apply, requester] at taken
  | snapshotTaken snapshot =>
    have connected := inv.connected.resolve_left (by rw [requester]; intro opened; cases opened)
    have informs := inv.informs
    rw [requester] at informs
    simp only [apply, requester] at taken
    obtain rfl := Option.some.inj taken
    refine ⟨inv.wired.of_sent rfl, inv.clientSize, inv.written, inv.current, .inr connected, fun _ => nofun,
      fun _ => nofun, informs.1, ?_⟩
    have size := inv.snapshot snapshot requester
    have received : receivedArea client
        (messagesTo require.node (s.server.sent ++ [(require.node, 0, snapshot)])) = snapshot := by
      rw [messagesTo_append, if_pos rfl, receivedArea_append]
      exact writtenArea_whole (by rw [receivedArea_length, size, inv.clientSize])
    have held := @clientHeld_eq { s with
      server := { s.server with sent := s.server.sent ++ [(require.node, 0, snapshot)] }
      requester := .done } require client r inv.wired.required
    rw [held, received]
    exact informs.2

theorem Invariant.step (s : Connecting) (step : ConnectingStep) (s' : Connecting)
    (inv : s.Invariant provide require p r client) (met : s.NotOvertaken require step)
    (taken : s.apply provide require step = some s') : s'.Invariant provide require p r client := by
  cases step with
  | write data => exact inv.write taken
  | lock => exact inv.lock taken
  | writePort => exact inv.writePort met taken
  | enqueue => exact inv.enqueue met taken
  | unlock => exact inv.unlock taken
  | insert => exact inv.insert taken
  | read => exact inv.read taken
  | copy => exact inv.copy taken
  | takeSnapshot => exact inv.takeSnapshot taken
  | enqueueSnapshot => exact inv.enqueueSnapshot taken

theorem Opening.invariant {s : Connecting} (opening : s.Opening provide require client) :
    ∃ p r, s.Invariant provide require p r client := by
  obtain ⟨p, r, wired⟩ := opening.wired
  refine ⟨p, r, wired, opening.clientSize, ?_, ?_, .inl opening.requester, ?_, ?_, ?_⟩
  · rw [opening.provider]
    exact fun _ => nofun
  · rw [opening.provider]
    exact fun _ _ _ => nofun
  · rw [opening.requester]
    exact fun _ => nofun
  · rw [opening.requester]
    exact fun _ => nofun
  · rw [opening.requester]
    trivial

/-- At the end of a run in which no routed write overtakes the requester, the require port and its client
hold what the provide port holds. -/
theorem held_of_notOvertaken {start s : Connecting} {steps : List ConnectingStep}
    (opening : start.Opening provide require client)
    (run : Interleaving.Run (apply provide require) (NotOvertaken require) start steps s)
    (done : s.Done) :
    s.server.held .require require = s.server.held .provide provide ∧
      s.clientHeld require client = s.server.held .provide provide := by
  obtain ⟨p, r, inv⟩ := opening.invariant
  have informs := (run.invariant Invariant.step inv).informs
  rw [done.provider, done.requester] at informs
  exact ⟨informs.1.resolve_right id, informs.2.resolve_right id⟩

/-! The steps of one thread without the other are the functions of the routing. -/

theorem run_routeToConnectors {data : Bytes} {server server' : Server} {retval retval' : Option Failure}
    {requester : RequesterAt} {refs : List PortRef} (queue : p.queueLength = 0) (size : data.length = p.dataSize)
    (routed : Server.routeToConnectors Server.takesAll p data server retval refs = .ok (server', retval')) :
    ∃ steps, Interleaving.Run (apply provide require) (fun _ _ => True)
      ⟨server, .routing data refs, requester⟩ steps ⟨server', .routing data [], requester⟩ := by
  induction refs generalizing server retval with
  | nil =>
    cases routed
    exact ⟨[], rfl⟩
  | cons ref rest ih =>
    rw [Server.routeToConnectors] at routed
    cases here : server.port .require ref with
    | none =>
      rw [here] at routed
      contradiction
    | some port =>
      simp only [here, queue, if_true, ne_eq, ite_not] at routed
      by_cases equal : p.dataSize = port.dataSize
      · rw [if_pos equal, if_neg (by omega), ← size, List.take_length] at routed
        cases call : server.writeRequirePortData ref.node port.dataOffset data with
        | fail failure next =>
          rw [Server.remoteRouteRequirePortData, call] at routed
          obtain ⟨steps, run⟩ := ih routed
          refine ⟨.writePort :: steps, trivial, ⟨next, .routing data rest, requester⟩, ?_, run⟩
          simp only [apply, here, call]
          rw [if_pos (by omega)]
        | ok _ next =>
          have same : next.port .require ref = some port := (port_of_write call .require ref).trans here
          rw [Server.remoteRouteRequirePortData, call, Result.bind_ok] at routed
          have write : apply provide require ⟨server, .routing data (ref :: rest), requester⟩ .writePort =
              some ⟨next, .written data ref rest, requester⟩ := by
            simp only [apply, here, call]
            rw [if_pos (by omega)]
          by_cases file : (next.nodes ref.node).requirePortDataFile = some true
          · rw [file] at routed
            obtain ⟨steps, run⟩ := ih routed
            refine ⟨.writePort :: .enqueue :: steps, trivial, _, write, trivial, _, ?_, run⟩
            simp only [apply, same, file]
            rfl
          · have closed : (next.nodes ref.node).requirePortDataFile = none ∨
                (next.nodes ref.node).requirePortDataFile = some false := by
              cases isOpen : (next.nodes ref.node).requirePortDataFile with
              | none => exact .inl rfl
              | some state =>
                cases state with
                | false => exact .inr rfl
                | true => exact absurd isOpen file
            rcases closed with closed | closed <;> rw [closed] at routed <;> obtain ⟨steps, run⟩ := ih routed <;>
              refine ⟨.writePort :: .enqueue :: steps, trivial, _, write, trivial,
                ⟨next, .routing data rest, requester⟩, ?_, run⟩ <;>
              simp only [apply, same, closed]
      · rw [if_neg equal] at routed
        obtain ⟨steps, run⟩ := ih routed
        refine ⟨.writePort :: steps, trivial, _, ?_, run⟩
        simp only [apply, here]
        rw [if_neg (by omega)]

/-- apx_nodeInstance_handle_require_port_connected_to_provide_port -/
theorem run_handlePortsConnected {server : Server} (wired : Wired server provide require p r) :
    ∃ server', server.handlePortsConnected provide require false = .ok () server' ∧
      Interleaving.Run (apply provide require) (fun _ _ => True) ⟨server, .idle, .opened⟩
        [.insert, .read, .copy] ⟨server', .idle, .copied⟩ := by
  obtain ⟨connectors, found⟩ : ∃ connectors,
      (server.nodes provide.node).connectorTable[provide.portId]? = some connectors :=
    ⟨_, List.getElem?_eq_getElem wired.table⟩
  let inserted := server.insertConnector provide require connectors
  have wired' : Wired inserted provide require p r :=
    (sameButConnectors_insertConnector server provide require connectors).wired wired
  let data := slice (inserted.area .provide provide.node) p.dataOffset p.dataSize
  have read : inserted.readProvidePortData provide.node p.dataOffset p.dataSize = .ok data :=
    if_neg (Nat.not_lt.mpr wired'.inside)
  have size : data.length = r.dataSize := (slice_length wired'.inside).trans wired.size.symm
  obtain ⟨server', call, -⟩ := @Server.writePortData_ok inserted .require require.node r.dataOffset data (by
    rw [size]
    exact (wired'.arranged require.node).inside wired'.required)
  refine ⟨server', ?_, trivial, ⟨inserted, .idle, .inserted⟩, ?_, trivial, ⟨inserted, .idle, .read data⟩, ?_,
    trivial, ⟨server', .idle, .copied⟩, ?_, rfl⟩
  · rw [Server.handlePortsConnected, found]
    show inserted.routeToRequirePort provide require false = _
    rw [Server.routeToRequirePort, wired'.provided, wired'.required]
    simp only [wired'.queue, wired'.size, if_true, read]
    exact call
  · simp only [apply, found]
    rfl
  · simp only [apply, wired'.provided, read]
  · simp only [apply, wired'.required, Server.writeRequirePortData, call]

/-- Two ports that are not connected yet -/
def pairOpening : Connecting where
  server.nodes
    | 0 => { Server.pairProvider with connectorTable := [[], []] }
    | _ => Server.pairRequester
  provider := .idle
  requester := .opened

theorem pairOpening_opening : pairOpening.Opening ⟨0, 0⟩ ⟨1, 0⟩ [0, 0] where
  wired := ⟨_, _, rfl, rfl, rfl, rfl, by decide, fun n => by
    match n with
    | 0 => exact ⟨fun _ _ here => by contradiction, rfl⟩
    | n + 1 =>
      have arranged := Server.pairServer_arranged (n + 1)
      exact ⟨arranged.offset, arranged.size⟩, rfl, by decide⟩
  clientSize := rfl
  provider := rfl
  requester := rfl

/-- Two writes, of which the first one is routed while the requester connects -/
theorem held_of_notOvertaken_pairOpening : ∃ s : Connecting, s.server.held .require ⟨1, 0⟩ = [3, 4] ∧
    s.clientHeld ⟨1, 0⟩ [0, 0] = [3, 4] := by
  have result := @held_of_notOvertaken ⟨0, 0⟩ ⟨1, 0⟩ [0, 0] pairOpening _
    [.write [1, 2], .insert, .read, .lock, .writePort, .copy, .enqueue, .unlock, .takeSnapshot,
      .enqueueSnapshot, .write [3, 4], .lock, .writePort, .enqueue, .unlock] pairOpening_opening
    ⟨trivial, _, rfl, trivial, _, rfl, trivial, _, rfl, trivial, _, rfl, fun _ => rfl, _, rfl, trivial, _,
      rfl, trivial, _, rfl, trivial, _, rfl, trivial, _, rfl, trivial, _, rfl, trivial, _, rfl, trivial, _,
      rfl, trivial, _, rfl, trivial, _, rfl, trivial, _, rfl, rfl⟩
    ⟨rfl, rfl⟩
  exact ⟨_, result⟩

/-- A write that is routed between the reading and the copy is overwritten. -/
theorem not_held_of_overtaken : ¬∀ (start s : Connecting) (provide require : PortRef) (client : Bytes)
    (steps : List ConnectingStep), start.Opening provide require client →
      Interleaving.Run (apply provide require) (fun _ _ => True) start steps s → s.Done →
      s.server.held .require require = s.server.held .provide provide ∧
        s.clientHeld require client = s.server.held .provide provide := by
  intro all
  have stale := all pairOpening _ ⟨0, 0⟩ ⟨1, 0⟩ [0, 0]
    [.insert, .read, .write [1, 2], .lock, .writePort, .enqueue, .unlock, .copy, .takeSnapshot,
      .enqueueSnapshot]
    pairOpening_opening
    ⟨trivial, _, rfl, trivial, _, rfl, trivial, _, rfl, trivial, _, rfl, trivial, _, rfl, trivial, _, rfl,
      trivial, _, rfl, trivial, _, rfl, trivial, _, rfl, trivial, _, rfl, rfl⟩
    ⟨rfl, rfl⟩
  exact absurd stale.1 (by decide)

end Connecting

end Apx
