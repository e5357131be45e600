import Apx.DisconnectRuns
import Apx.RequireFileOpen

/-! What it leaves when a server puts ports together: connectors, the data of the require ports, and what their clients
are sent. -/

namespace Apx

open LittleEndian

namespace Server

/-- The client of a node has the require port data of the node behind all messages to it, whatever it had before. -/
def Mirrored (s : Server) (n : Nat) : Prop :=
  ∀ client : Bytes, client.length = (s.area .require n).length →
    receivedArea client (Connecting.messagesTo n s.sent) = s.area .require n

/-- A provide port without a queue, which has a connector list, and a require port of its size -/
structure Fits (s : Server) (provide require : PortRef) : Prop where
  ports : ∃ p r, s.port .provide provide = some p ∧ s.port .require require = some r ∧ p.queueLength = 0 ∧
    p.dataSize = r.dataSize
  table : provide.portId < (s.nodes provide.node).connectorTable.length

/-- Pairs of a provide port and a require port have been put together, one pair after the other. -/
structure Links (remote : Bool) (s s' : Server) (pairs : List (PortRef × PortRef)) : Prop where
  node : ∀ n, ∃ provided required table, table.length = (s.nodes n).connectorTable.length ∧
    s'.nodes n = { s.nodes n with
      inst := { (s.nodes n).inst with providePortData := provided, requirePortData := required }
      connectorTable := table }
  map : s'.signatureMap = s.signatureMap
  modified : s'.modifiedNodes = s.modifiedNodes
  length : ∀ portType n, (s'.area portType n).length = (s.area portType n).length
  provided : ∀ n, s'.area .provide n = s.area .provide n
  connectors : ∀ n p, s'.connectors n p =
    s.connectors n p ++ (pairs.filter fun pair => pair.1 = ⟨n, p⟩).map Prod.snd
  others : ∀ n i, (∀ pair ∈ pairs, ¬s.InPort pair.2 n i) → (s'.area .require n)[i]? = (s.area .require n)[i]?
  held : ∀ pair ∈ pairs, s'.held .require pair.2 = s.held .provide pair.1
  mirrors : ∀ n, (remote = false → ∀ pair ∈ pairs, pair.2.node ≠ n) → s.Mirrored n → s'.Mirrored n

section
variable {remote : Bool} {s s' s₁ : Server} {pairs pairs' : List (PortRef × PortRef)}

theorem Links.ports (links : Links remote s s' pairs) (n : Nat) (portType : PortType) :
    (s'.nodes n).ports portType = (s.nodes n).ports portType := by
  obtain ⟨_, _, _, -, node⟩ := links.node n
  rw [node]
  cases portType <;> rfl

theorem Links.port (links : Links remote s s' pairs) (portType : PortType) (ref : PortRef) :
    s'.port portType ref = s.port portType ref := by
  rw [Server.port, Server.port, links.ports]

theorem Links.state (links : Links remote s s' pairs) (n : Nat) : (s'.nodes n).state = (s.nodes n).state := by
  obtain ⟨_, _, _, -, node⟩ := links.node n
  rw [node]

theorem Links.file (links : Links remote s s' pairs) (n : Nat) :
    (s'.nodes n).requirePortDataFile = (s.nodes n).requirePortDataFile := by
  obtain ⟨_, _, _, -, node⟩ := links.node n
  rw [node]

theorem Links.sameRouting (links : Links remote s s' pairs) : SameRouting s s' where
  ports := links.ports
  state := links.state
  changes n := by
    obtain ⟨_, _, _, -, node⟩ := links.node n
    rw [node]
  map := links.map
  modified := links.modified

theorem Links.inPort (links : Links remote s s' pairs) (ref : PortRef) (n i : Nat) :
    s'.InPort ref n i ↔ s.InPort ref n i := by
  rw [InPort, InPort, links.port]

theorem Links.arranged (links : Links remote s s' pairs) {portType : PortType} {n : Nat}
    (arranged : s.Arranged portType n) : s'.Arranged portType n where
  offset := by
    rw [links.ports]
    exact arranged.offset
  size := by rw [links.length, links.ports, arranged.size]

theorem Links.fits (links : Links remote s s' pairs) {provide require : PortRef} (fits : s.Fits provide require) :
    s'.Fits provide require where
  ports := by
    rw [links.port, links.port]
    exact fits.ports
  table := by
    obtain ⟨_, _, _, length, node⟩ := links.node provide.node
    rw [node]
    exact fits.table.trans_eq length.symm

theorem Links.heldProvide (links : Links remote s s' pairs) (ref : PortRef) :
    s'.held .provide ref = s.held .provide ref := by
  rw [Server.held, Server.held, links.port, links.provided]

/-- A require port that is in none of the pairs holds what it held. -/
theorem Links.heldOther (links : Links remote s s' pairs) (arranged : ∀ n, s.Arranged .require n) {ref : PortRef}
    (other : ∀ pair ∈ pairs, pair.2 ≠ ref) : s'.held .require ref = s.held .require ref := by
  rw [Server.held, Server.held, links.port]
  cases here : s.port .require ref with
  | none => rfl
  | some port =>
    apply List.ext_getElem?
    intro i
    rw [slice_getElem?, slice_getElem?]
    by_cases inside : i < port.dataSize
    · rw [if_pos inside, if_pos inside]
      refine links.others _ _ fun pair mem inPort => other pair mem ?_
      exact inPort_unique arranged inPort ⟨rfl, port, here, Nat.le_add_right _ _, by omega⟩
    · rw [if_neg inside, if_neg inside]

theorem Links.refl (remote : Bool) (s : Server) : Links remote s s [] where
  node _ := ⟨_, _, _, rfl, rfl⟩
  map := rfl
  modified := rfl
  length _ _ := rfl
  provided _ := rfl
  connectors n p := by rw [List.filter_nil, List.map_nil, List.append_nil]
  others _ _ _ := rfl
  held pair mem := absurd mem List.not_mem_nil
  mirrors _ _ mirrored := mirrored

/-- Pairs behind pairs, if no require port is put together with two provide ports -/
theorem Links.append (first : Links remote s s₁ pairs) (second : Links remote s₁ s' pairs')
    (arranged : ∀ n, s.Arranged .require n)
    (one : ∀ pair ∈ pairs, ∀ pair' ∈ pairs', pair.2 = pair'.2 → pair.1 = pair'.1) :
    Links remote s s' (pairs ++ pairs') where
  node n := by
    obtain ⟨_, _, _, length, node⟩ := first.node n
    obtain ⟨provided, required, table, length', node'⟩ := second.node n
    refine ⟨provided, required, table, ?_, by rw [node', node]⟩
    rw [length', node]
    exact length
  map := second.map.trans first.map
  modified := second.modified.trans first.modified
  length portType n := (second.length portType n).trans (first.length portType n)
  provided n := (second.provided n).trans (first.provided n)
  connectors n p := by
    rw [second.connectors, first.connectors, List.filter_append, List.map_append, List.append_assoc]
  others n i outside := by
    have outside₁ (pair : PortRef × PortRef) (mem : pair ∈ pairs) := outside pair (List.mem_append_left _ mem)
    have outside₂ (pair : PortRef × PortRef) (mem : pair ∈ pairs') := outside pair (List.mem_append_right _ mem)
    rw [second.others n i fun pair mem inPort => outside₂ pair mem ((first.inPort _ n i).mp inPort),
      first.others n i outside₁]
  held pair mem := by
    rcases List.mem_append.mp mem with mem | mem
    · by_cases again : ∃ pair' ∈ pairs', pair'.2 = pair.2
      · obtain ⟨pair', mem', same⟩ := again
        rw [← same, second.held pair' mem', first.heldProvide, one pair mem pair' mem' same.symm]
      · rw [not_exists] at again
        rw [second.heldOther (fun n => first.arranged (arranged n)) fun pair' mem' same => again pair' ⟨mem', same⟩,
          first.held pair mem]
    · rw [second.held pair mem, first.heldProvide]
  mirrors n elsewhere mirrored := by
    have elsewhere₁ (here : remote = false) (pair : PortRef × PortRef) (mem : pair ∈ pairs) :=
      elsewhere here pair (List.mem_append_left _ mem)
    have elsewhere₂ (here : remote = false) (pair : PortRef × PortRef) (mem : pair ∈ pairs') :=
      elsewhere here pair (List.mem_append_right _ mem)
    exact second.mirrors n elsewhere₂ (first.mirrors n elsewhere₁ mirrored)

end

/-! One pair -/

/-- A message that is the change of the require port data of a node -/
theorem Mirrored.message {s s' : Server} {n m offset : Nat} {data : Bytes} (mirrored : s.Mirrored n)
    (inside : offset + data.length ≤ (s.area .require m).length)
    (written : s'.area .require m = splice (s.area .require m) offset data)
    (others : ∀ k, k ≠ m → s'.area .require k = s.area .require k)
    (sent : s'.sent = s.sent ++ [(m, offset, data)]) : s'.Mirrored n := by
  intro client size
  rw [sent, Connecting.messagesTo_append]
  by_cases same : m = n
  · subst same
    rw [if_pos rfl, receivedArea_append]
    have before := mirrored client (by rw [size, written, splice_length inside])
    rw [before, writtenArea_of_fits inside, written]
  · rw [others n (Ne.symm same)] at size ⊢
    rw [if_neg same, List.append_nil]
    exact mirrored client size

theorem Mirrored.elsewhere {s s' : Server} {n : Nat} (mirrored : s.Mirrored n)
    (same : s'.area .require n = s.area .require n) (sent : s'.sent = s.sent) : s'.Mirrored n := by
  intro client size
  rw [sent, same]
  exact mirrored client (by rw [size, same])

/-- The data of a provide port goes to a require port, and with `remote` to its client. -/
theorem routeToRequirePort_ok {remote : Bool} {s : Server} {provide require : PortRef}
    (arranged : ∀ portType n, s.Arranged portType n) (fits : s.Fits provide require)
    (file : remote = true → (s.nodes require.node).requirePortDataFile = some true) :
    ∃ r s', s.port .require require = some r ∧ (s.held .provide provide).length = r.dataSize ∧
      s.routeToRequirePort provide require remote = .ok () s' ∧ SameRouting s s' ∧ SameButData s s' ∧
      s'.area .require require.node = splice (s.area .require require.node) r.dataOffset (s.held .provide provide) ∧
      (∀ portType n, portType ≠ .require ∨ n ≠ require.node → s'.area portType n = s.area portType n) ∧
      s'.sent = s.sent ++ if remote then [(require.node, r.dataOffset, s.held .provide provide)] else [] := by
  obtain ⟨p, r, provided, required, queue, size⟩ := fits.ports
  have readable := (arranged .provide provide.node).inside provided
  have data : s.held .provide provide = slice (s.area .provide provide.node) p.dataOffset p.dataSize :=
    Connecting.held_eq provided
  have length : (s.held .provide provide).length = r.dataSize := by rw [data, slice_length readable, size]
  have read : s.readProvidePortData provide.node p.dataOffset p.dataSize = .ok (s.held .provide provide) := by
    rw [data]
    exact if_neg (Nat.not_lt.mpr readable)
  have inside : r.dataOffset + (s.held .provide provide).length ≤ (s.area .require require.node).length := by
    rw [length]
    exact (arranged .require require.node).inside required
  have routing := writePortData_sameRouting s .require require.node r.dataOffset (s.held .provide provide)
  obtain ⟨s₁, wrote, same, written, others⟩ := writePortData_ok inside
  rw [wrote, Result.state_ok] at routing
  have sent := Connecting.sent_of_write wrote
  have call : s.routeToRequirePort provide require remote =
      if remote then s.remoteRouteRequirePortData takesAll require.node r.dataOffset (s.held .provide provide)
      else s.writeRequirePortData require.node r.dataOffset (s.held .provide provide) := by
    rw [routeToRequirePort, provided, required]
    dsimp only
    rw [if_pos queue, if_pos size, read]
  cases remote with
  | false =>
    refine ⟨r, s₁, required, length, call.trans wrote, routing, same, written, others, ?_⟩
    rw [sent]
    exact (List.append_nil _).symm
  | true =>
    have isOpen := (same.file require.node).trans (file rfl)
    refine ⟨r, { s₁ with sent := s₁.sent ++ [(require.node, r.dataOffset, s.held .provide provide)] }, required, length,
      ?_, ⟨routing.ports, routing.state, routing.changes, routing.map, routing.modified⟩, ⟨same.node, same.length⟩,
      written, others, congrArg (· ++ _) sent⟩
    rw [call, if_pos rfl, remoteRouteRequirePortData, writeRequirePortData, wrote, Result.bind_ok, isOpen]
    rfl

theorem connectors_insertConnector {s : Server} {provide require : PortRef} {connectors : List PortRef}
    (found : (s.nodes provide.node).connectorTable[provide.portId]? = some connectors) (n p : Nat) :
    (s.insertConnector provide require connectors).connectors n p =
      s.connectors n p ++ ([(provide, require)].filter fun pair => pair.1 = ⟨n, p⟩).map Prod.snd := by
  have inside := (List.getElem?_eq_some_iff.mp found).1
  rw [Server.connectors, Server.connectors, insertConnector]
  by_cases node : n = provide.node
  · subst node
    rw [nodes_update_self]
    by_cases same : p = provide.portId
    · subst same
      rw [List.getElem?_set_self inside, found, List.filter_cons_of_pos (by rw [decide_eq_true_iff])]
      rfl
    · have other : ¬(provide, require).1 = ⟨provide.node, p⟩ := by
        intro here
        exact same (congrArg PortRef.portId here).symm
      rw [List.getElem?_set_ne (Ne.symm same), List.filter_cons_of_neg (by simpa using other), List.filter_nil,
        List.map_nil, List.append_nil]
  · have other : ¬(provide, require).1 = ⟨n, p⟩ := by
      intro here
      exact node (congrArg PortRef.node here).symm
    rw [nodes_update_of_ne s node, List.filter_cons_of_neg (by simpa using other), List.filter_nil, List.map_nil,
      List.append_nil]

theorem handlePortsConnected_links {remote : Bool} {s : Server} {provide require : PortRef}
    (arranged : ∀ portType n, s.Arranged portType n) (fits : s.Fits provide require)
    (file : remote = true → (s.nodes require.node).requirePortDataFile = some true) :
    ∃ s', s.handlePortsConnected provide require remote = .ok () s' ∧ Links remote s s' [(provide, require)] := by
  obtain ⟨connectors, found⟩ : ∃ connectors,
      (s.nodes provide.node).connectorTable[provide.portId]? = some connectors :=
    ⟨_, List.getElem?_eq_getElem fits.table⟩
  let inserted := s.insertConnector provide require connectors
  have same : Connecting.SameButConnectors s inserted :=
    Connecting.sameButConnectors_insertConnector s provide require connectors
  have ports (n : Nat) (portType : PortType) : (inserted.nodes n).ports portType = (s.nodes n).ports portType := by
    obtain ⟨_, -, node⟩ := same.node n
    rw [node]
    rfl
  have arranged' (portType : PortType) (n : Nat) : inserted.Arranged portType n := by
    constructor
    · rw [ports]
      exact (arranged portType n).offset
    · rw [ports, same.area]
      exact (arranged portType n).size
  have fits' : inserted.Fits provide require := by
    constructor
    · rw [same.port, same.port]
      exact fits.ports
    · obtain ⟨_, length, node⟩ := same.node provide.node
      rw [node]
      exact fits.table.trans_eq length.symm
  have file' : remote = true → (inserted.nodes require.node).requirePortDataFile = some true := by
    obtain ⟨_, -, node⟩ := same.node require.node
    rw [node]
    exact file
  obtain ⟨r, s', required, length, routed, routing, data, written, others, sent⟩ :=
    routeToRequirePort_ok arranged' fits' file'
  have inside : r.dataOffset + (inserted.held .provide provide).length ≤ (inserted.area .require require.node).length := by
    rw [length]
    exact (arranged' .require require.node).inside required
  refine ⟨s', ?_, ?_, routing.map, routing.modified, ?_, ?_, ?_, ?_, ?_, ?_⟩
  · rw [handlePortsConnected, found]
    exact routed
  · intro n
    obtain ⟨provided, required, node⟩ := data.node n
    obtain ⟨table, length, node'⟩ := same.node n
    refine ⟨provided, required, table, length, ?_⟩
    rw [node, node']
  · intro portType n
    rw [data.length, same.area]
  · intro n
    rw [others .provide n (.inl PortType.noConfusion), same.area]
  · intro n p
    rw [data.connectors]
    exact connectors_insertConnector found n p
  · intro n i outside
    by_cases here : n = require.node
    · subst here
      rw [written, splice_getElem? inside, same.area, if_neg]
      rintro ⟨low, high⟩
      rw [length] at high
      rw [same.port] at required
      exact outside _ (List.mem_singleton_self _) ⟨rfl, r, required, low, high⟩
    · rw [others .require n (.inr here), same.area]
  · intro pair mem
    obtain rfl := List.mem_singleton.mp mem
    have here := (data.port .require require).trans required
    rw [Connecting.held_eq here, written, ← length, slice_splice inside, same.held]
  · intro n elsewhere mirrored
    cases remote with
    | false =>
      have other : n ≠ require.node := Ne.symm (elsewhere rfl _ (List.mem_singleton_self _))
      refine mirrored.elsewhere ?_ ?_
      · rw [others .require n (.inr other), same.area]
      · rw [sent, same.sent]
        exact List.append_nil _
    | true =>
      have mirrored' : inserted.Mirrored n := mirrored.elsewhere (same.area .require n) same.sent
      exact mirrored'.message inside written (fun k other => others .require k (.inr other)) sent

/-! The pairs of a table of changes -/

/-- Pairs that can be put together. No require port has two provide ports. -/
structure Linkable (remote : Bool) (s : Server) (pairs : List (PortRef × PortRef)) : Prop where
  fits : ∀ pair ∈ pairs, s.Fits pair.1 pair.2
  file : remote = true → ∀ pair ∈ pairs, (s.nodes pair.2.node).requirePortDataFile = some true
  one : ∀ pair ∈ pairs, ∀ pair' ∈ pairs, pair.2 = pair'.2 → pair.1 = pair'.1

theorem Linkable.left {remote : Bool} {s : Server} {pairs pairs' : List (PortRef × PortRef)}
    (able : Linkable remote s (pairs ++ pairs')) : Linkable remote s pairs where
  fits pair mem := able.fits pair (List.mem_append_left _ mem)
  file is pair mem := able.file is pair (List.mem_append_left _ mem)
  one pair mem pair' mem' := able.one pair (List.mem_append_left _ mem) pair' (List.mem_append_left _ mem')

theorem Linkable.right {remote : Bool} {s s₁ : Server} {pairs pairs' : List (PortRef × PortRef)}
    (able : Linkable remote s (pairs ++ pairs')) (links : Links remote s s₁ pairs) : Linkable remote s₁ pairs' where
  fits pair mem := links.fits (able.fits pair (List.mem_append_right _ mem))
  file is pair mem := (links.file _).trans (able.file is pair (List.mem_append_right _ mem))
  one pair mem pair' mem' := able.one pair (List.mem_append_right _ mem) pair' (List.mem_append_right _ mem')

theorem Linkable.across {remote : Bool} {s : Server} {pairs pairs' : List (PortRef × PortRef)}
    (able : Linkable remote s (pairs ++ pairs')) :
    ∀ pair ∈ pairs, ∀ pair' ∈ pairs', pair.2 = pair'.2 → pair.1 = pair'.1 :=
  fun pair mem pair' mem' => able.one pair (List.mem_append_left _ mem) pair' (List.mem_append_right _ mem')

/-- A provide port is put together with require ports, one after the other. -/
theorem eachPort_links {s : Server} {provide : PortRef} {refs : List PortRef}
    (arranged : ∀ portType n, s.Arranged portType n) (able : Linkable true s (refs.map fun ref => (provide, ref))) :
    ∃ s', eachPort (fun s require => s.handlePortsConnected provide require true) s refs = .ok () s' ∧
      Links true s s' (refs.map fun ref => (provide, ref)) := by
  induction refs generalizing s with
  | nil => exact ⟨s, rfl, .refl true s⟩
  | cons ref rest ih =>
    have first := @Linkable.left _ _ [(provide, ref)] _ able
    obtain ⟨s₁, connected, links⟩ := handlePortsConnected_links arranged
      (first.fits _ (List.mem_singleton_self _)) fun is => first.file is _ (List.mem_singleton_self _)
    obtain ⟨s', later, links'⟩ := ih (fun portType n => links.arranged (arranged portType n)) (able.right links)
    refine ⟨s', ?_, links.append links' (arranged .require) (@Linkable.across _ _ [(provide, ref)] _ able)⟩
    rw [eachPort, connected, Result.bind_ok]
    exact later

/-- The entries of a table from `portId` on, which speak of the ports that `told` gives -/
def Speaks (table : ChangeTable) (portId : Nat) (told : Nat → List PortRef) : Prop :=
  ∀ i entry, table[i]? = some entry → entry.ports = told (portId + i) ∧ entry.count = entry.ports.length

theorem Speaks.head {entry : ChangeEntry} {rest : ChangeTable} {portId : Nat} {told : Nat → List PortRef}
    (speaks : Speaks (entry :: rest) portId told) : entry.ports = told portId ∧ entry.count = (told portId).length := by
  obtain ⟨ports, count⟩ := speaks 0 entry rfl
  rw [ports] at count
  exact ⟨ports, count⟩

theorem Speaks.tail {entry : ChangeEntry} {rest : ChangeTable} {portId : Nat} {told : Nat → List PortRef}
    (speaks : Speaks (entry :: rest) portId told) : Speaks rest (portId + 1) told := by
  intro i other here
  obtain ⟨ports, count⟩ := speaks (i + 1) other here
  have place : portId + (i + 1) = portId + 1 + i := by omega
  rw [place] at ports
  exact ⟨ports, count⟩

/-- The provide ports that the require ports of a node have been told of -/
def requirePairs (n : Nat) (told : Nat → List PortRef) (portIds : List Nat) : List (PortRef × PortRef) :=
  portIds.flatMap fun portId => (told portId).map fun provide => (provide, ⟨n, portId⟩)

/-- The require ports that the provide ports of a node have been told of -/
def providePairs (n : Nat) (told : Nat → List PortRef) (portIds : List Nat) : List (PortRef × PortRef) :=
  portIds.flatMap fun portId => (told portId).map fun require => (⟨n, portId⟩, require)

theorem processRequireChanges_links {n : Nat} {s : Server} {portId : Nat} {table : ChangeTable}
    {told : Nat → List PortRef} (arranged : ∀ portType n, s.Arranged portType n) (speaks : Speaks table portId told)
    (few : ∀ portId, (told portId).length ≤ 1)
    (able : Linkable false s (requirePairs n told (List.range' portId table.length))) :
    ∃ s', processRequireChanges n s portId table = .ok () s' ∧
      Links false s s' (requirePairs n told (List.range' portId table.length)) := by
  induction table generalizing s portId with
  | nil => exact ⟨s, rfl, .refl false s⟩
  | cons entry rest ih =>
    obtain ⟨ports, count⟩ := speaks.head
    have unfolded : requirePairs n told (List.range' portId (entry :: rest).length) =
        ((told portId).map fun provide => (provide, ⟨n, portId⟩)) ++
          requirePairs n told (List.range' (portId + 1) rest.length) := by
      rw [List.length_cons, List.range'_succ, requirePairs, List.flatMap_cons]
      rfl
    rw [unfolded] at able ⊢
    rw [processRequireChanges]
    rcases one : told portId with _ | ⟨provide, _ | ⟨second, more⟩⟩
    · rw [one] at count able
      have none_ : ¬entry.count > 0 := by
        rw [count]
        exact Int.lt_irrefl 0
      rw [if_neg none_]
      exact ih arranged speaks.tail able
    · rw [one] at count ports able
      have single : entry.count = 1 := count
      have some_ : entry.count > 0 := by
        rw [single]
        exact Int.zero_lt_one
      have first := able.left
      obtain ⟨s₁, connected, links⟩ := @handlePortsConnected_links false s provide ⟨n, portId⟩ arranged
        (first.fits _ (List.mem_singleton_self _)) fun is => absurd is Bool.false_ne_true
      obtain ⟨s', later, links'⟩ := ih (fun portType n => links.arranged (arranged portType n)) speaks.tail
        (able.right links)
      refine ⟨s', ?_, links.append links' (arranged .require) able.across⟩
      have here : entry.ports[0]? = some provide := by rw [ports]; rfl
      rw [if_pos some_, if_pos single, here]
      dsimp only
      rw [connected, Result.bind_ok]
      exact later
    · have short := few portId
      rw [one] at short
      simp only [List.length_cons] at short
      omega

theorem processProvideChanges_links {n : Nat} {s : Server} {portId : Nat} {table : ChangeTable}
    {told : Nat → List PortRef} (arranged : ∀ portType n, s.Arranged portType n) (speaks : Speaks table portId told)
    (able : Linkable true s (providePairs n told (List.range' portId table.length))) :
    ∃ s', processProvideChanges n s portId table = .ok () s' ∧
      Links true s s' (providePairs n told (List.range' portId table.length)) := by
  induction table generalizing s portId with
  | nil => exact ⟨s, rfl, .refl true s⟩
  | cons entry rest ih =>
    obtain ⟨ports, count⟩ := speaks.head
    have unfolded : providePairs n told (List.range' portId (entry :: rest).length) =
        ((told portId).map fun require => (⟨n, portId⟩, require)) ++
          providePairs n told (List.range' (portId + 1) rest.length) := by
      rw [List.length_cons, List.range'_succ, providePairs, List.flatMap_cons]
      rfl
    rw [unfolded] at able ⊢
    rw [processProvideChanges]
    by_cases some_ : entry.count > 0
    · obtain ⟨s₁, connected, links⟩ := eachPort_links arranged able.left
      obtain ⟨s', later, links'⟩ := ih (fun portType n => links.arranged (arranged portType n)) speaks.tail
        (able.right links)
      refine ⟨s', ?_, links.append links' (arranged .require) able.across⟩
      rw [if_pos some_, ports, connected, Result.bind_ok]
      exact later
    · have nothing : told portId = [] := by
        rw [count] at some_
        exact List.length_eq_zero_iff.mp (by omega)
      rw [nothing] at able ⊢
      rw [if_neg some_]
      exact ih arranged speaks.tail able

end Server

end Apx
