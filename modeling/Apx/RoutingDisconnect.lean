import Apx.RoutingWrites

/-! Disconnects: the ports of the nodes that leave go out of the signature map and out of all connector lists, and
nothing else changes. -/

namespace Apx

open LittleEndian

namespace Server

/-! The lists of the signature map behind a disconnect -/

/-- Each list has lost the ports of its type that were removed. -/
theorem Removals.entryPorts {s s' : Server} {removed : List (PortType × PortRef)} (removals : Removals s removed s')
    (signature : Bytes) (portType : PortType) : s'.entryPorts signature portType =
      (s.entryPorts signature portType).diff ((removed.filter fun port => port.1 = portType).map Prod.snd) := by
  induction removals with
  | nil s => rw [List.filter_nil, List.map_nil, List.diff_nil]
  | @cons s s₁ s' portType' ref rest _ _ _ removed _ ih =>
    rcases portType'.eq_or_opposite portType with rfl | rfl
    · rw [ih, removed.own, List.filter_cons_of_pos (by rw [decide_eq_true_iff]), List.map_cons, List.diff_cons]
    · rw [ih, removed.opposite, List.filter_cons_of_neg (by simpa using portType'.opposite_ne.symm)]

/-- What a disconnect leaves alone: the data of all nodes, the nodes that stay, and the connectors between these -/
structure Spares (nodes : List Nat) (s s' : Server) : Prop where
  inst : ∀ n, (s'.nodes n).inst = (s.nodes n).inst
  file : ∀ n, (s'.nodes n).requirePortDataFile = (s.nodes n).requirePortDataFile
  sent : s'.sent = s.sent
  state : ∀ n, n ∉ nodes → (s'.nodes n).state = (s.nodes n).state
  connectors : ∀ n p, n ∉ nodes → ∀ ref ∈ s.connectors n p, ref.node ∉ nodes → ref ∈ s'.connectors n p

section
variable {nodes : List Nat} {s s₁ s' : Server}

theorem Spares.refl (nodes : List Nat) (s : Server) : Spares nodes s s :=
  ⟨fun _ => rfl, fun _ => rfl, rfl, fun _ _ => rfl, fun _ _ _ _ mem _ => mem⟩

theorem Spares.trans (first : Spares nodes s s₁) (second : Spares nodes s₁ s') : Spares nodes s s' where
  inst n := (second.inst n).trans (first.inst n)
  file n := (second.file n).trans (first.file n)
  sent := second.sent.trans first.sent
  state n stays := (second.state n stays).trans (first.state n stays)
  connectors n p stays ref mem stays' :=
    second.connectors n p stays ref (first.connectors n p stays ref mem stays') stays'

theorem SameButMap.spares (same : SameButMap s s') (nodes : List Nat) : Spares nodes s s' where
  inst := same.sameData.inst
  file := same.file
  sent := same.sent
  state n _ := same.state n
  connectors n p _ ref mem _ := by rwa [same.connectors]

theorem spares_update {n : Nat} (among : n ∈ nodes) (s : Server) {change : ServerNode → ServerNode}
    (inst : (change (s.nodes n)).inst = (s.nodes n).inst)
    (file : (change (s.nodes n)).requirePortDataFile = (s.nodes n).requirePortDataFile) :
    Spares nodes s (s.update n change) := by
  have other {m : Nat} (stays : m ∉ nodes) : (s.update n change).nodes m = s.nodes m := by
    have away : m ≠ n := by
      rintro rfl
      exact stays among
    exact nodes_update_of_ne s away change
  refine ⟨fun m => ?_, fun m => ?_, rfl, fun m stays => by rw [other stays], fun m p stays ref mem _ => ?_⟩
  · by_cases here : m = n
    · subst here
      rw [nodes_update_self, inst]
    · rw [nodes_update_of_ne s here]
  · by_cases here : m = n
    · subst here
      rw [nodes_update_self, file]
    · rw [nodes_update_of_ne s here]
  · rwa [Server.connectors, other stays]

theorem gatherChanges_spares (portType : PortType) {leaving : List Nat} (among : ∀ n ∈ leaving, n ∈ nodes)
    (s : Server) (gathered : List (Nat × ChangeTable)) :
    Spares nodes s (gatherChanges portType s gathered leaving).1 := by
  induction leaving generalizing s gathered with
  | nil => exact .refl nodes s
  | cons n rest ih =>
    rw [List.forall_mem_cons] at among
    rw [gatherChanges]
    split
    · split
      · exact (spares_update among.1 s rfl rfl).trans (ih among.2 _ _)
      · exact (spares_update among.1 s rfl rfl).trans (ih among.2 _ _)
    · exact ih among.2 s gathered

/-- What is gathered comes from the nodes gone through. -/
theorem node_of_gathered {portType : PortType} {leaving : List Nat} {gathered : List (Nat × ChangeTable)}
    (before : ∀ entry ∈ gathered, entry.1 ∈ nodes) (among : ∀ n ∈ leaving, n ∈ nodes) :
    ∀ entry ∈ (gatherChanges portType s gathered leaving).2, entry.1 ∈ nodes := by
  induction leaving generalizing s gathered with
  | nil => exact before
  | cons n rest ih =>
    rw [List.forall_mem_cons] at among
    rw [gatherChanges]
    split
    · split
      · next table _ =>
        refine ih (fun entry mem => ?_) among.2
        rcases List.mem_append.mp mem with mem | mem
        · exact before entry mem
        · rw [List.mem_singleton.mp mem]
          exact among.1
      · exact ih before among.2
    · exact ih before among.2

theorem processDisconnectedProviders_spares {gathered : List (Nat × ChangeTable)}
    (among : ∀ entry ∈ gathered, entry.1 ∈ nodes) (s : Server) :
    Spares nodes s (s.processDisconnectedProviders gathered) := by
  induction gathered generalizing s with
  | nil => exact .refl nodes s
  | cons first rest ih =>
    rw [List.forall_mem_cons] at among
    exact (spares_update among.1 s rfl rfl).trans (ih among.2 _)

/-- A connector to a node that leaves is taken out of a list. -/
theorem removeProvidePortConnector_spares {requirePort : PortRef} (among : requirePort.node ∈ nodes) (s : Server)
    (providePort : PortRef) : Spares nodes s (s.removeProvidePortConnector providePort requirePort).state := by
  rw [removeProvidePortConnector]
  split
  · exact .refl nodes s
  · next connectors here =>
    rw [Result.state_ok]
    have inside := (List.getElem?_eq_some_iff.mp here).1
    refine ⟨fun n => ?_, fun n => ?_, rfl, fun n _ => ?_, fun n p _ ref mem stays => ?_⟩
    · by_cases same : n = providePort.node
      · subst same
        rw [nodes_update_self]
      · rw [nodes_update_of_ne s same]
    · by_cases same : n = providePort.node
      · subst same
        rw [nodes_update_self]
      · rw [nodes_update_of_ne s same]
    · by_cases same : n = providePort.node
      · subst same
        rw [nodes_update_self]
      · rw [nodes_update_of_ne s same]
    · have other : ref ≠ requirePort := by
        rintro rfl
        exact stays among
      rw [Server.connectors] at mem ⊢
      by_cases same : n = providePort.node
      · subst same
        rw [nodes_update_self]
        dsimp only
        by_cases place : p = providePort.portId
        · subst place
          rw [here] at mem
          rw [List.getElem?_set_self inside]
          exact (List.mem_erase_of_ne other).mpr mem
        · rwa [List.getElem?_set_ne (Ne.symm place)]
      · rwa [nodes_update_of_ne s same]

theorem handleRequirePortsDisconnected_spares {n : Nat} (among : n ∈ nodes) (table : ChangeTable) (s : Server)
    (portId : Nat) : Spares nodes s (handleRequirePortsDisconnected n s portId table).state := by
  induction table generalizing s portId with
  | nil => exact .refl nodes s
  | cons entry rest ih =>
    rw [handleRequirePortsDisconnected]
    split
    · exact .refl nodes s
    · split
      · split
        · exact .refl nodes s
        · next providePort _ =>
          have removed := @removeProvidePortConnector_spares nodes ⟨n, portId⟩ among s providePort
          cases done : s.removeProvidePortConnector providePort ⟨n, portId⟩ with
          | ok value s₁ =>
            rw [done] at removed
            exact removed.trans (ih s₁ (portId + 1))
          | fail failure s₁ =>
            rw [done] at removed
            exact removed
      · split
        · exact .refl nodes s
        · exact ih s (portId + 1)

theorem processDisconnectedRequesters_spares {gathered : List (Nat × ChangeTable)}
    (among : ∀ entry ∈ gathered, entry.1 ∈ nodes) (s : Server) :
    Spares nodes s (s.processDisconnectedRequesters gathered) := by
  induction gathered generalizing s with
  | nil => exact .refl nodes s
  | cons first rest ih =>
    rw [List.forall_mem_cons] at among
    exact ((handleRequirePortsDisconnected_spares among.1 first.2 s 0).trans (spares_update among.1 _ rfl rfl)).trans
      (ih among.2 _)

theorem settle_spares (nodes : List Nat) {s : Server}
    (modified : ∀ n portType table, (s.nodes n).changes portType = some table → n ∈ s.modifiedNodes) :
    Spares nodes s (s.settle nodes) := by
  let provide := gatherChanges .provide s [] nodes
  let require := gatherChanges .require provide.1 [] nodes
  have all (n : Nat) (mem : n ∈ nodes) : n ∈ nodes := mem
  have gathered : Settles s require.1 :=
    (gatherChanges_settles .provide nodes s []).trans (gatherChanges_settles .require nodes provide.1 [])
  obtain ⟨-, same, -⟩ := @clearPortConnectorChanges_quiet require.1 (by
    intro n portType table here
    rw [gatherChanges_modified, gatherChanges_modified]
    exact modified n portType table (gathered.changes n portType table here))
  have providers : ∀ entry ∈ provide.2, entry.1 ∈ nodes := node_of_gathered (fun _ mem => absurd mem List.not_mem_nil) all
  have requesters : ∀ entry ∈ require.2, entry.1 ∈ nodes := node_of_gathered (fun _ mem => absurd mem List.not_mem_nil) all
  exact ((((gatherChanges_spares .provide all s []).trans (gatherChanges_spares .require all provide.1 [])).trans
    (same.spares nodes)).trans (processDisconnectedProviders_spares providers _)).trans
      (processDisconnectedRequesters_spares requesters _)

end

/-! One disconnect -/

section
variable {carried : Nat → Prop} {nodes : List Nat} {s s' : Server}

/-- The ports of the nodes that leave are removed, and no others. -/
theorem Serving.entryPorts_detached (serving : s.Serving carried) (distinct : nodes.Nodup) (signature : Bytes)
    (portType : PortType) : (s.detachAllNodes nodes).entryPorts signature portType =
      (s.entryPorts signature portType).filter fun ref => ref.node ∉ nodes := by
  have removals := serving.steady.removals distinct
  have map : (s.detachAllNodes nodes).signatureMap = (s.removeNodesFromSignatureMap nodes).signatureMap :=
    (settle_settles (s.removeNodesFromSignatureMap nodes) nodes).map
  obtain ⟨once, connected⟩ := serving.registered signature portType
  rw [Server.entryPorts, map, ← Server.entryPorts, removals.entryPorts, once.sdiff_eq_filter]
  refine List.filter_congr fun ref mem => ?_
  rw [decide_eq_decide, not_iff_not, List.mem_map]
  constructor
  · rintro ⟨⟨portType', ref'⟩, removed, rfl⟩
    exact mem_nodes_of_detached (List.mem_filter.mp removed).1
  · intro leaves
    have inside := exists_of_signature (serving.steady.listed signature portType ref mem)
    exact ⟨(portType, ref), List.mem_filter.mpr ⟨mem_detached leaves (connected ref mem) inside, decide_eq_true rfl⟩, rfl⟩

/-- The ports under the signature of a connected require port -/
theorem Serving.single (serving : s.Serving carried) {ref : PortRef}
    (connected : (s.nodes ref.node).state .require = .connected) (inside : s.Exists .require ref) :
    ∃ provider, s.Single ref provider ∧ ∀ signature, s.signature .require ref = some signature →
      s.entryPorts signature .provide = provider.toList := by
  obtain ⟨signature, -, mem⟩ := serving.steady.inMap ref.node .require connected ref (mem_refs.mpr inside)
  have own := serving.steady.listed signature .require ref mem
  have once := List.count_eq_one_of_mem (serving.registered signature .require).1 mem
  have short := serving.oneProvider signature
  have unique (signature' : Bytes) (own' : s.signature .require ref = some signature') : signature' = signature := by
    rw [own] at own'
    exact (Option.some.inj own').symm
  rcases provides : s.entryPorts signature .provide with _ | ⟨provide, _ | ⟨second, rest⟩⟩
  · refine ⟨none, ⟨signature, own, once, provides, fun _ is => absurd is (Option.not_mem_none _)⟩,
      fun signature' own' => ?_⟩
    rw [unique signature' own', provides]
    rfl
  · refine ⟨some provide, ⟨signature, own, once, provides, fun provide' is => ?_⟩, fun signature' own' => ?_⟩
    · obtain rfl := Option.mem_some.mp is
      rw [serving.built.table]
      refine exists_of_signature (serving.steady.listed signature .provide provide ?_)
      rw [provides]
      exact List.mem_singleton_self provide
    · rw [unique signature' own', provides]
      rfl
  · rw [provides] at short
    simp only [List.length_cons] at short
    omega

/-- Every connector to a node that leaves goes. -/
theorem Serving.leaves (serving : s.Serving carried) {n p : Nat} {ref : PortRef}
    (connected : (s.nodes n).state .provide = .connected) (mem : ref ∈ s.connectors n p) (among : ref.node ∈ nodes) :
    s.Leaves nodes ⟨n, p⟩ ref := by
  obtain ⟨signature, own, listed, own', here⟩ := serving.connector connected mem
  have table := serving.table ⟨n, p⟩ signature connected own
  have inside := exists_of_signature own'
  obtain ⟨provider, single, provides⟩ := serving.single here inside
  have entry := @Serving.entry carried s serving ⟨n, p⟩ signature connected own
  rw [provides signature own', Option.mem_toList] at entry
  refine ⟨?_, among, here, ?_, fun portId before => ?_⟩
  · rw [table]
    exact List.nodup_iff_count_le_one.mp (serving.registered signature .require).1 ref
  · rwa [show provider = some ⟨n, p⟩ from entry] at single
  · obtain ⟨provider', single', -⟩ := @Serving.single carried s serving ⟨ref.node, portId⟩ here
      (Nat.lt_trans before inside)
    exact ⟨provider', single'⟩

theorem Serving.spares (serving : s.Serving carried) (distinct : nodes.Nodup) :
    Spares nodes s (s.detachAllNodes nodes) := by
  have removals := serving.steady.removals distinct
  exact (removals.same.spares nodes).trans (settle_spares nodes removals.tables.modified)

/-- A node that stays keeps the connectors to the nodes that stay. -/
theorem Serving.connectors_detached (serving : s.Serving carried) (distinct : nodes.Nodup) {n p : Nat}
    (connected : (s.nodes n).state .provide = .connected) (stays : n ∉ nodes) :
    (s.detachAllNodes nodes).connectors n p = (s.connectors n p).filter fun ref => ref.node ∉ nodes := by
  have removals := serving.steady.removals distinct
  have fewer := (settle_settles (s.removeNodesFromSignatureMap nodes) nodes).connectors n p
  rw [removals.same.connectors, ← detachAllNodes_eq] at fewer
  have stay : (s.detachAllNodes nodes).connectors n p = ((s.detachAllNodes nodes).connectors n p).filter
      fun ref => ref.node ∉ nodes := by
    rw [eq_comm, List.filter_eq_self]
    intro ref left
    refine decide_eq_true fun among => ?_
    exact (serving.leaves connected (fewer.mem left) among).gone serving.steady distinct left
  have once : (s.connectors n p).Nodup := by
    rw [List.nodup_iff_count_le_one]
    intro ref
    by_cases mem : ref ∈ s.connectors n p
    · obtain ⟨signature, own, -⟩ := serving.connector connected mem
      have table := serving.table ⟨n, p⟩ signature connected own
      rw [show s.connectors n p = _ from table]
      exact List.nodup_iff_count_le_one.mp (serving.registered signature .require).1 ref
    · rw [List.count_eq_zero.mpr mem]
      exact Nat.zero_le 1
  have kept : (s.connectors n p).filter (fun ref => ref.node ∉ nodes) ⊆ (s.detachAllNodes nodes).connectors n p := by
    intro ref mem
    rw [List.mem_filter, decide_eq_true_iff] at mem
    exact (serving.spares distinct).connectors n p stays ref mem.1 mem.2
  have shorter := fewer.filter fun ref => ref.node ∉ nodes
  rw [← stay] at shorter
  exact shorter.eq_of_length_le (List.subperm_of_subset (once.filter _) kept).length_le

theorem Spares.sameBuild (spares : Spares nodes s s')
    (table : ∀ n, (s'.nodes n).connectorTable.length = (s.nodes n).connectorTable.length) : SameBuild s s' where
  ports n portType := by rw [ServerNode.ports, ServerNode.ports, spares.inst]
  bytePortMap n := by rw [spares.inst]
  length portType n := by rw [Server.area, Server.area, spares.inst]
  table := table

theorem Spares.area (spares : Spares nodes s s') (portType : PortType) (n : Nat) :
    s'.area portType n = s.area portType n := by
  rw [Server.area, Server.area, spares.inst]

theorem Spares.held (spares : Spares nodes s s') (portType : PortType) (ref : PortRef) :
    s'.held portType ref = s.held portType ref := by
  rw [Server.held, Server.held, Server.port, Server.port, ServerNode.ports, ServerNode.ports, spares.inst, spares.area]

theorem Serving.detached_build (serving : s.Serving carried) (distinct : nodes.Nodup) :
    SameBuild s (s.detachAllNodes nodes) := by
  have settles := settle_settles (s.removeNodesFromSignatureMap nodes) nodes
  rw [← detachAllNodes_eq] at settles
  refine (serving.spares distinct).sameBuild fun n => ?_
  rw [settles.tableLength, (serving.steady.removals distinct).same.connectorTable]

/-- A disconnect keeps what holds. -/
theorem detachAllNodes_serving (serving : s.Serving carried) (distinct : nodes.Nodup) :
    (s.detachAllNodes nodes).Serving carried := by
  have removals := serving.steady.removals distinct
  have spares := serving.spares distinct
  have settles := settle_settles (s.removeNodesFromSignatureMap nodes) nodes
  rw [← detachAllNodes_eq] at settles
  have fewer (n p : Nat) : ((s.detachAllNodes nodes).connectors n p).Sublist (s.connectors n p) := by
    have fewer := settles.connectors n p
    rwa [removals.same.connectors] at fewer
  have before {n : Nat} {portType : PortType}
      (connected : ((s.detachAllNodes nodes).nodes n).state portType = .connected) :
      n ∉ nodes ∧ (s.nodes n).state portType = .connected := by
    have stays : n ∉ nodes := by
      intro among
      rw [detachAllNodes_eq] at connected
      exact settle_state _ distinct among portType connected
    rw [spares.state n stays] at connected
    exact ⟨stays, connected⟩
  have build := serving.detached_build distinct
  refine ⟨build.wellBuilt serving.built, detachAllNodes_steady serving.steady distinct, ?_, ?_, ?_, ?_, ?_, ?_, ?_⟩
  · intro signature portType
    obtain ⟨once, connected⟩ := serving.registered signature portType
    rw [serving.entryPorts_detached distinct]
    refine ⟨once.filter _, fun ref mem => ?_⟩
    rw [List.mem_filter, decide_eq_true_iff] at mem
    rw [spares.state ref.node mem.2]
    exact connected ref mem.1
  · intro signature
    rw [serving.entryPorts_detached distinct]
    exact (List.length_filter_le _ _).trans (serving.oneProvider signature)
  · intro n connected
    rw [spares.file]
    exact serving.files n (before connected).2
  · intro provide signature connected own
    obtain ⟨stays, connected⟩ := before connected
    rw [build.signature] at own
    rw [serving.connectors_detached distinct connected stays, serving.entryPorts_detached distinct,
      serving.table provide signature connected own]
  · intro n other other' p
    have same := settles.state n .provide
    rw [removals.same.state] at same
    have same := same.resolve_right other'
    rw [same] at other other'
    refine List.sublist_nil.mp ?_
    rw [← serving.waiting n other other' p]
    exact fewer n p
  · intro n carries connected
    obtain ⟨-, connected⟩ := before connected
    intro p ref mem
    rw [spares.held, spares.held]
    exact serving.inSync n carries connected p ref ((fewer n p).mem mem)
  · intro n connected
    exact (serving.mirrored n (before connected).2).elsewhere (spares.area .require n) spares.sent

end

end Server

end Apx
