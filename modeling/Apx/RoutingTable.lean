import Apx.ConnectorLinks

/-! What a server does for clients that keep to the protocol: the connector list of each provide port is the list of the
require ports that are registered under its signature, and all of these hold its data, in the server and in their
clients. -/

namespace Apx

open LittleEndian

namespace Server

/-- The nodes are laid out as they are built, and ports of one signature fit. -/
structure WellBuilt (s : Server) : Prop where
  arranged : ∀ portType n, s.Arranged portType n
  provider : ∀ n, (s.nodes n).ports .provide ≠ [] → s.Provider n
  table : ∀ n, (s.nodes n).connectorTable.length = ((s.nodes n).ports .provide).length
  matching : ∀ signature provide require, s.signature .provide provide = some signature →
    s.signature .require require = some signature → ∃ p r, s.port .provide provide = some p ∧
      s.port .require require = some r ∧ p.queueLength = 0 ∧ p.dataSize = r.dataSize

/-- No signature has two providers. -/
def OneProvider (s : Server) : Prop := ∀ signature, (s.entryPorts signature .provide).length ≤ 1

/-- What holds between the calls. The require ports that are connected to the provide ports of the nodes `carried` hold
the data of these. -/
structure Serving (carried : Nat → Prop) (s : Server) : Prop where
  built : s.WellBuilt
  steady : s.Steady
  registered : ∀ signature portType, (s.entryPorts signature portType).Nodup ∧
    ∀ ref ∈ s.entryPorts signature portType, (s.nodes ref.node).state portType = .connected
  oneProvider : s.OneProvider
  files : ∀ n, (s.nodes n).state .require = .connected → (s.nodes n).requirePortDataFile = some true
  table : ∀ provide signature, (s.nodes provide.node).state .provide = .connected →
    s.signature .provide provide = some signature →
      s.connectors provide.node provide.portId = s.entryPorts signature .require
  waiting : ∀ n, (s.nodes n).state .provide ≠ .connected → (s.nodes n).state .provide ≠ .disconnected →
    ∀ p, s.connectors n p = []
  inSync : ∀ n, carried n → (s.nodes n).state .provide = .connected → s.InSync n
  mirrored : ∀ n, (s.nodes n).state .require = .connected → s.Mirrored n

/-! What the build of the nodes has made stays. -/

/-- Ports, maps and the lengths of areas and tables are as they were. -/
structure SameBuild (s s' : Server) : Prop where
  ports : ∀ n portType, (s'.nodes n).ports portType = (s.nodes n).ports portType
  bytePortMap : ∀ n, (s'.nodes n).inst.bytePortMap = (s.nodes n).inst.bytePortMap
  length : ∀ portType n, (s'.area portType n).length = (s.area portType n).length
  table : ∀ n, (s'.nodes n).connectorTable.length = (s.nodes n).connectorTable.length

theorem SameBuild.refl (s : Server) : SameBuild s s := ⟨fun _ _ => rfl, fun _ => rfl, fun _ _ => rfl, fun _ => rfl⟩

theorem SameBuild.trans {s s₁ s' : Server} (first : SameBuild s s₁) (second : SameBuild s₁ s') : SameBuild s s' where
  ports n portType := (second.ports n portType).trans (first.ports n portType)
  bytePortMap n := (second.bytePortMap n).trans (first.bytePortMap n)
  length portType n := (second.length portType n).trans (first.length portType n)
  table n := (second.table n).trans (first.table n)

theorem SameBuild.port {s s' : Server} (same : SameBuild s s') (portType : PortType) (ref : PortRef) :
    s'.port portType ref = s.port portType ref := by
  rw [Server.port, Server.port, same.ports]

theorem SameBuild.signature {s s' : Server} (same : SameBuild s s') (portType : PortType) (ref : PortRef) :
    s'.signature portType ref = s.signature portType ref := by
  rw [Server.signature, Server.signature, same.port]

theorem SameBuild.arranged {s s' : Server} (same : SameBuild s s') {portType : PortType} {n : Nat}
    (arranged : s.Arranged portType n) : s'.Arranged portType n where
  offset := by
    rw [same.ports]
    exact arranged.offset
  size := by rw [same.length, same.ports, arranged.size]

theorem SameBuild.provider {s s' : Server} (same : SameBuild s s') {n : Nat} (provider : s.Provider n) :
    s'.Provider n where
  nonempty := by
    rw [same.ports]
    exact provider.nonempty
  arranged := same.arranged provider.arranged
  positive := by
    rw [same.ports]
    exact provider.positive
  fits := by
    rw [same.length]
    exact provider.fits
  maps := by
    rw [same.ports, same.bytePortMap]
    exact provider.maps
  table := by
    rw [same.ports, same.table]
    exact provider.table

theorem SameBuild.wellBuilt {s s' : Server} (same : SameBuild s s') (built : s.WellBuilt) : s'.WellBuilt where
  arranged portType n := same.arranged (built.arranged portType n)
  provider n some_ := by
    rw [same.ports] at some_
    exact same.provider (built.provider n some_)
  table n := by
    rw [same.table, same.ports]
    exact built.table n
  matching signature provide require own own' := by
    rw [same.signature] at own own'
    rw [same.port, same.port]
    exact built.matching signature provide require own own'

theorem SameButMap.sameBuild {s s' : Server} (same : SameButMap s s') : SameBuild s s' where
  ports := same.ports
  bytePortMap n := by
    obtain ⟨_, node⟩ := same.node n
    rw [node]
  length portType n := by
    obtain ⟨_, node⟩ := same.node n
    rw [Server.area, Server.area, node]
  table n := congrArg List.length (same.connectorTable n)

theorem SameButMap.area {s s' : Server} (same : SameButMap s s') (portType : PortType) (n : Nat) :
    s'.area portType n = s.area portType n := by
  obtain ⟨_, node⟩ := same.node n
  rw [Server.area, Server.area, node]

theorem SameButMap.file {s s' : Server} (same : SameButMap s s') (n : Nat) :
    (s'.nodes n).requirePortDataFile = (s.nodes n).requirePortDataFile := by
  obtain ⟨_, node⟩ := same.node n
  rw [node]

theorem SameButData.sameBuild {s s' : Server} (same : SameButData s s') : SameBuild s s' where
  ports n portType := same.ports portType n
  bytePortMap n := by
    obtain ⟨_, _, node⟩ := same.node n
    rw [node]
  length := same.length
  table n := by
    obtain ⟨_, _, node⟩ := same.node n
    rw [node]

theorem Links.sameBuild {remote : Bool} {s s' : Server} {pairs : List (PortRef × PortRef)}
    (links : Links remote s s' pairs) : SameBuild s s' where
  ports := links.ports
  bytePortMap n := by
    obtain ⟨_, _, _, -, node⟩ := links.node n
    rw [node]
  length := links.length
  table n := by
    obtain ⟨_, _, _, length, node⟩ := links.node n
    rw [node]
    exact length

/-- A change of a node that does not touch its ports, their data or their connectors -/
structure SameData (s s' : Server) : Prop where
  inst : ∀ n, (s'.nodes n).inst = (s.nodes n).inst
  table : ∀ n, (s'.nodes n).connectorTable = (s.nodes n).connectorTable

theorem SameData.trans {s s₁ s' : Server} (first : SameData s s₁) (second : SameData s₁ s') : SameData s s' where
  inst n := (second.inst n).trans (first.inst n)
  table n := (second.table n).trans (first.table n)

theorem sameData_update (s : Server) (n : Nat) {change : ServerNode → ServerNode}
    (inst : (change (s.nodes n)).inst = (s.nodes n).inst)
    (table : (change (s.nodes n)).connectorTable = (s.nodes n).connectorTable) : SameData s (s.update n change) := by
  constructor <;>
  · intro m
    by_cases same : m = n
    · subst same
      rw [nodes_update_self]
      first | exact inst | exact table
    · rw [nodes_update_of_ne s same]

theorem SameData.area {s s' : Server} (same : SameData s s') (portType : PortType) (n : Nat) :
    s'.area portType n = s.area portType n := by
  rw [Server.area, Server.area, same.inst]

theorem SameData.connectors {s s' : Server} (same : SameData s s') (n p : Nat) :
    s'.connectors n p = s.connectors n p := by
  rw [Server.connectors, Server.connectors, same.table]

theorem SameData.sameBuild {s s' : Server} (same : SameData s s') : SameBuild s s' where
  ports n portType := by rw [ServerNode.ports, ServerNode.ports, same.inst]
  bytePortMap n := by rw [same.inst]
  length portType n := by rw [same.area]
  table n := by rw [same.table]

theorem SameButMap.sameData {s s' : Server} (same : SameButMap s s') : SameData s s' where
  inst n := by
    obtain ⟨_, node⟩ := same.node n
    rw [node]
  table := same.connectorTable

theorem SameData.held {s s' : Server} (same : SameData s s') (portType : PortType) (ref : PortRef) :
    s'.held portType ref = s.held portType ref := by
  rw [Server.held, Server.held, same.sameBuild.port, same.area]

/-! What the ports of a node are told when they are registered -/

/-- The ports under the signature of a port of the node -/
def told (s : Server) (portType : PortType) (n portId : Nat) : List PortRef := s.partners portType ⟨n, portId⟩

def portIds (s : Server) (portType : PortType) (n : Nat) : List Nat :=
  List.range' 0 ((s.nodes n).ports portType).length

theorem refs_eq_portIds (s : Server) (portType : PortType) (n : Nat) :
    s.refs portType n = (s.portIds portType n).map fun portId => ⟨n, portId⟩ := by
  rw [Server.refs, portIds, List.range_eq_range']

theorem mem_portIds {s : Server} {portType : PortType} {n portId : Nat} :
    portId ∈ s.portIds portType n ↔ s.Exists portType ⟨n, portId⟩ := by
  rw [portIds, List.mem_range'_1, Nat.zero_add, Server.Exists]
  exact and_iff_right (Nat.zero_le portId)

theorem mem_told {s : Server} (listed : s.Listed) {portType : PortType} {n portId : Nat} {ref : PortRef}
    (mem : ref ∈ s.told portType n portId) : ∃ signature, s.signature portType ⟨n, portId⟩ = some signature ∧
      ref ∈ s.entryPorts signature portType.opposite ∧ s.signature portType.opposite ref = some signature := by
  rw [told, Server.partners] at mem
  cases own : s.signature portType ⟨n, portId⟩ with
  | none =>
    rw [own] at mem
    exact absurd mem List.not_mem_nil
  | some signature =>
    rw [own] at mem
    exact ⟨signature, rfl, mem, listed signature _ ref mem⟩

/-- The change table of a node whose ports have been registered: there is none where no port was told of another. -/
theorem Inserted.speaks {s s₁ : Server} {portType : PortType} {n : Nat}
    (inserted : Inserted s s₁ portType (s.refs portType n)) (quiet : s.Quiet) :
    ((s₁.nodes n).changes portType = none → ∀ portId ∈ s.portIds portType n, s.told portType n portId = []) ∧
      ∀ table, (s₁.nodes n).changes portType = some table →
        List.range' 0 table.length = s.portIds portType n ∧ Speaks table 0 (s.told portType n) := by
  have noted {portId : Nat} (mem : portId ∈ s.portIds portType n) :
      s₁.noted portType ⟨n, portId⟩ = s.told portType n portId := by
    have listed : (⟨n, portId⟩ : PortRef) ∈ s.refs portType n := by
      rw [refs_eq_portIds]
      exact List.mem_map_of_mem mem
    rw [inserted.noted, quiet.noted, if_pos listed, List.nil_append, told]
  constructor
  · intro none_ portId mem
    rw [← noted mem, Server.noted, none_]
    rfl
  · intro table here
    have length := inserted.tables.length n portType table here
    rw [inserted.same.ports] at length
    refine ⟨by rw [length]; rfl, fun i entry found => ?_⟩
    have mem : i ∈ s.portIds portType n := by
      rw [mem_portIds, Server.Exists, ← length]
      exact (List.getElem?_eq_some_iff.mp found).1
    have ports : s₁.noted portType ⟨n, i⟩ = entry.ports := by
      rw [Server.noted, here, Option.bind_some, found]
    have count := inserted.tables.count n portType table here entry (List.mem_of_getElem? found)
    rw [ConnectorEvent.sign, one_mul] at count
    rw [Nat.zero_add]
    exact ⟨ports.symm.trans (noted mem), count⟩

theorem pairs_of_nothing {told : Nat → List PortRef} {portIds : List Nat}
    (nothing : ∀ portId ∈ portIds, told portId = []) {pair : Nat → PortRef → PortRef × PortRef} :
    (portIds.flatMap fun portId => (told portId).map (pair portId)) = [] := by
  rw [List.flatMap_eq_nil_iff]
  intro portId mem
  rw [nothing portId mem, List.map_nil]

/-- The pairs of the require ports of a node that are being connected -/
def joinedRequire (s : Server) (n : Nat) : List (PortRef × PortRef) :=
  requirePairs n (s.told .require n) (s.portIds .require n)

/-- The pairs of the provide ports of a node that are being connected -/
def joinedProvide (s : Server) (n : Nat) : List (PortRef × PortRef) :=
  providePairs n (s.told .provide n) (s.portIds .provide n)

theorem mem_joinedRequire {s : Server} (listed : s.Listed) {n : Nat} {pair : PortRef × PortRef}
    (mem : pair ∈ s.joinedRequire n) : pair.2.node = n ∧ ∃ signature,
      s.signature .require pair.2 = some signature ∧ pair.1 ∈ s.entryPorts signature .provide ∧
        s.signature .provide pair.1 = some signature := by
  rw [joinedRequire, requirePairs, List.mem_flatMap] at mem
  obtain ⟨portId, -, mem⟩ := mem
  obtain ⟨provide, told, rfl⟩ := List.mem_map.mp mem
  exact ⟨rfl, mem_told listed told⟩

theorem mem_joinedProvide {s : Server} (listed : s.Listed) {n : Nat} {pair : PortRef × PortRef}
    (mem : pair ∈ s.joinedProvide n) : pair.1.node = n ∧ pair.1 ∈ s.refs .provide n ∧ ∃ signature,
      s.signature .provide pair.1 = some signature ∧ pair.2 ∈ s.entryPorts signature .require ∧
        s.signature .require pair.2 = some signature := by
  rw [joinedProvide, providePairs, List.mem_flatMap] at mem
  obtain ⟨portId, inside, mem⟩ := mem
  obtain ⟨require, told, rfl⟩ := List.mem_map.mp mem
  refine ⟨rfl, ?_, mem_told listed told⟩
  rw [refs_eq_portIds]
  exact List.mem_map_of_mem inside

theorem WellBuilt.fits {s : Server} (built : s.WellBuilt) {signature : Bytes} {provide require : PortRef}
    (own : s.signature .provide provide = some signature) (own' : s.signature .require require = some signature) :
    s.Fits provide require where
  ports := built.matching signature provide require own own'
  table := by
    rw [built.table]
    exact exists_of_signature own

/-- Two ports in a list with one place are the same. -/
theorem eq_of_short {refs : List PortRef} (short : refs.length ≤ 1) {ref ref' : PortRef} (mem : ref ∈ refs)
    (mem' : ref' ∈ refs) : ref = ref' := by
  rcases refs with _ | ⟨first, _ | ⟨second, rest⟩⟩
  · exact absurd mem List.not_mem_nil
  · rw [List.mem_singleton.mp mem, List.mem_singleton.mp mem']
  · simp only [List.length_cons] at short
    omega

/-- Every port of the node has a signature. -/
def Signed (s : Server) (portType : PortType) (n : Nat) : Prop :=
  ∀ ref ∈ s.refs portType n, ∃ signature, s.signature portType ref = some signature ∧ signature ≠ []

theorem connectPorts_signed {s : Server} (steady : s.Steady) {portType : PortType} {n : Nat}
    (signed : s.Signed portType n) : ∃ s', s.connectPorts portType n = .ok () s' ∧
      Inserted s s' portType (s.refs portType n) ∧ ∀ ref ∈ s.refs portType n, s'.InMap portType ref := by
  have tables := steady.quiet.tables .connected
  rcases eachPort_insert tables steady.listed portType (s.refs_nodup portType n) with connected | ⟨s₁, failed⟩
  · exact connected
  · obtain ⟨s', done, -⟩ := eachPort_inserted tables steady.listed signed (s.refs_nodup portType n)
    rw [failed] at done
    contradiction

/-- A port without a signature ends the connecting. -/
theorem connectPorts_unsigned {s : Server} (steady : s.Steady) {portType : PortType} {n : Nat}
    (unsigned : ¬s.Signed portType n) : ∃ s', s.connectPorts portType n = .fail .assertion s' := by
  have tables := steady.quiet.tables .connected
  rcases eachPort_insert tables steady.listed portType (s.refs_nodup portType n) with ⟨s', -, inserted, inMap⟩ | failed
  · refine absurd (fun ref mem => ?_) unsigned
    obtain ⟨signature, nonempty, listed⟩ := inMap ref mem
    refine ⟨signature, ?_, nonempty⟩
    rw [← inserted.same.signature]
    exact inserted.listed steady.listed signature portType ref listed
  · exact failed

theorem connectRequirePortsToServer_links {s : Server} (built : s.WellBuilt) (steady : s.Steady)
    (oneProvider : s.OneProvider) {n : Nat} (signed : s.Signed .require n) :
    ∃ s₁ s₂, Inserted s s₁ .require (s.refs .require n) ∧ Links false s₁ s₂ (s.joinedRequire n) ∧
      s.connectRequirePortsToServer n = .ok () s₂.clearPortConnectorChanges ∧
      SameButMap s₂ s₂.clearPortConnectorChanges ∧
        s₂.clearPortConnectorChanges.signatureMap = s₂.signatureMap := by
  obtain ⟨s₁, done, inserted, -⟩ := connectPorts_signed steady signed
  have built₁ := inserted.same.sameBuild.wellBuilt built
  obtain ⟨nothing, speaks⟩ := inserted.speaks steady.quiet
  have able : Linkable false s₁ (s.joinedRequire n) := by
    refine ⟨fun pair mem => ?_, fun is => absurd is Bool.false_ne_true, fun pair mem pair' mem' same => ?_⟩
    · obtain ⟨-, signature, own', -, own⟩ := mem_joinedRequire steady.listed mem
      refine @WellBuilt.fits s₁ built₁ signature _ _ ?_ ?_
      · rwa [inserted.same.signature]
      · rwa [inserted.same.signature]
    · obtain ⟨-, signature, own, listed, -⟩ := mem_joinedRequire steady.listed mem
      obtain ⟨-, signature', own', listed', -⟩ := mem_joinedRequire steady.listed mem'
      rw [same, own'] at own
      cases own
      exact eq_of_short (oneProvider signature) listed listed'
  have few (portId : Nat) : (s.told .require n portId).length ≤ 1 := by
    rw [told, Server.partners]
    cases s.signature .require ⟨n, portId⟩ with
    | none => exact Nat.zero_le 1
    | some signature => exact oneProvider signature
  obtain ⟨s₂, connected, links⟩ : ∃ s₂, s.connectRequirePortsToServer n = .ok () s₂.clearPortConnectorChanges ∧
      Links false s₁ s₂ (s.joinedRequire n) := by
    rw [connectRequirePortsToServer, done, Result.bind_ok]
    cases changes : (s₁.nodes n).changes .require with
    | none =>
      have empty : s.joinedRequire n = [] := pairs_of_nothing (nothing changes)
      rw [empty]
      exact ⟨s₁, rfl, .refl false s₁⟩
    | some table =>
      obtain ⟨ids, speaks⟩ := speaks table changes
      rw [joinedRequire, ← ids] at able ⊢
      obtain ⟨s₂, processed, links⟩ := processRequireChanges_links built₁.arranged speaks few able
      exact ⟨s₂, congrArg (Result.lift clearPortConnectorChanges) processed, links⟩
  have orderly := links.sameRouting.orderly (inserted.orderly steady.orderly)
  obtain ⟨-, same, map⟩ := clearPortConnectorChanges_quiet orderly.modified
  exact ⟨s₁, s₂, inserted, links, connected, same, map⟩

/-- The require ports of a node that are put together with one provide port -/
theorem requirePairs_filter {n : Nat} {told : Nat → List PortRef} {portIds : List Nat} {provide : PortRef}
    {picks : Nat → Prop} [DecidablePred picks]
    (picked : ∀ portId ∈ portIds, picks portId → told portId = [provide])
    (passed : ∀ portId ∈ portIds, ¬picks portId → provide ∉ told portId) :
    ((requirePairs n told portIds).filter fun pair => pair.1 = provide).map Prod.snd =
      (portIds.filter fun portId => picks portId).map fun portId => ⟨n, portId⟩ := by
  induction portIds with
  | nil => rfl
  | cons portId rest ih =>
    rw [List.forall_mem_cons] at picked passed
    have later := ih picked.2 passed.2
    rw [requirePairs, List.flatMap_cons, List.filter_append, List.map_append, ← requirePairs, later]
    by_cases here : picks portId
    · rw [picked.1 here, List.filter_cons_of_pos (by simpa using here)]
      simp
    · have nothing : ((told portId).map fun provide => (provide, (⟨n, portId⟩ : PortRef))).filter
          (fun pair => pair.1 = provide) = [] := by
        rw [List.filter_eq_nil_iff]
        intro pair mem
        obtain ⟨other, told, rfl⟩ := List.mem_map.mp mem
        rw [decide_eq_true_iff]
        rintro rfl
        exact passed.1 here told
      rw [nothing, List.filter_cons_of_neg (by simpa using here)]
      rfl

/-- The require ports that are put together with one provide port of a node -/
theorem providePairs_filter {n : Nat} {told : Nat → List PortRef} {portIds : List Nat} (distinct : portIds.Nodup)
    (provide : PortRef) : ((providePairs n told portIds).filter fun pair => pair.1 = provide).map Prod.snd =
      if provide.node = n ∧ provide.portId ∈ portIds then told provide.portId else [] := by
  induction portIds with
  | nil =>
    rw [if_neg fun both => absurd both.2 List.not_mem_nil]
    rfl
  | cons portId rest ih =>
    rw [List.nodup_cons] at distinct
    rw [providePairs, List.flatMap_cons, List.filter_append, List.map_append, ← providePairs, ih distinct.2]
    by_cases here : (⟨n, portId⟩ : PortRef) = provide
    · subst here
      have all : ((told portId).map fun require => ((⟨n, portId⟩ : PortRef), require)).filter
          (fun pair => pair.1 = ⟨n, portId⟩) = (told portId).map fun require => (⟨n, portId⟩, require) := by
        rw [List.filter_eq_self]
        intro pair mem
        obtain ⟨require, -, rfl⟩ := List.mem_map.mp mem
        exact decide_eq_true rfl
      rw [all, if_neg fun both => distinct.1 both.2, if_pos ⟨rfl, List.mem_cons_self⟩, List.append_nil, List.map_map]
      exact List.map_id _
    · have nothing : ((told portId).map fun require => ((⟨n, portId⟩ : PortRef), require)).filter
          (fun pair => pair.1 = provide) = [] := by
        rw [List.filter_eq_nil_iff]
        intro pair mem
        obtain ⟨require, -, rfl⟩ := List.mem_map.mp mem
        rw [decide_eq_true_iff]
        exact here
      rw [nothing, List.map_nil, List.nil_append]
      congr 1
      rw [List.mem_cons]
      refine propext (and_congr_right fun node => (or_iff_right fun same => here ?_).symm)
      rw [← node, ← same]

theorem connectors_joinedRequire {s : Server} (listed : s.Listed) (oneProvider : s.OneProvider) {n : Nat}
    {signature : Bytes} {provide : PortRef} (own : s.signature .provide provide = some signature)
    (mem : provide ∈ s.entryPorts signature .provide) :
    ((s.joinedRequire n).filter fun pair => pair.1 = provide).map Prod.snd =
      (s.refs .require n).filter fun ref => s.signature .require ref = some signature := by
  have alone : s.entryPorts signature .provide = [provide] := by
    have short := oneProvider signature
    rcases entries : s.entryPorts signature .provide with _ | ⟨first, _ | ⟨second, rest⟩⟩
    · rw [entries] at mem
      exact absurd mem List.not_mem_nil
    · rw [entries] at mem
      rw [List.mem_singleton.mp mem]
    · rw [entries] at short
      simp only [List.length_cons] at short
      omega
  rw [joinedRequire, refs_eq_portIds, List.filter_map]
  refine @requirePairs_filter n _ _ provide (fun portId => s.signature .require ⟨n, portId⟩ = some signature) _ ?_ ?_
  · intro portId _ same
    rw [told, Server.partners, same]
    exact alone
  · intro portId _ other told
    obtain ⟨signature', own', -, own''⟩ := mem_told listed told
    rw [show s.signature PortType.require.opposite provide = _ from own] at own''
    cases own''
    exact other own'

/-! The calls keep what holds between them -/

theorem Serving.entry {carried : Nat → Prop} {s : Server} (serving : s.Serving carried) {provide : PortRef}
    {signature : Bytes}
    (connected : (s.nodes provide.node).state .provide = .connected)
    (own : s.signature .provide provide = some signature) : provide ∈ s.entryPorts signature .provide := by
  obtain ⟨signature', -, mem⟩ :=
    serving.steady.inMap provide.node .provide connected provide (mem_refs.mpr (exists_of_signature own))
  have own' := serving.steady.listed signature' .provide provide mem
  rw [own] at own'
  cases own'
  exact mem

/-- A connector belongs to a provide port with a signature, or to none that is there. -/
theorem Serving.signature_of_connector {carried : Nat → Prop} {s : Server} (serving : s.Serving carried) {n p : Nat}
    (connected : (s.nodes n).state .provide = .connected) {ref : PortRef} (mem : ref ∈ s.connectors n p) :
    ∃ signature, s.signature .provide ⟨n, p⟩ = some signature := by
  have inside : p < ((s.nodes n).ports .provide).length := by
    rw [← serving.built.table]
    by_contra beyond
    rw [connectors, List.getElem?_eq_none (by omega)] at mem
    exact absurd mem List.not_mem_nil
  obtain ⟨signature, -, listed⟩ := serving.steady.inMap n .provide connected ⟨n, p⟩
    (@mem_refs s .provide ⟨n, p⟩ |>.mpr inside)
  exact ⟨signature, serving.steady.listed signature .provide _ listed⟩

/-- The connectors of connected nodes are registered. -/
theorem Serving.connector {carried : Nat → Prop} {s : Server} (serving : s.Serving carried) {n p : Nat}
    (connected : (s.nodes n).state .provide = .connected) {ref : PortRef} (mem : ref ∈ s.connectors n p) :
    ∃ signature, s.signature .provide ⟨n, p⟩ = some signature ∧ ref ∈ s.entryPorts signature .require ∧
      s.signature .require ref = some signature ∧ (s.nodes ref.node).state .require = .connected := by
  obtain ⟨signature, own⟩ := serving.signature_of_connector connected mem
  have table := serving.table ⟨n, p⟩ signature connected own
  rw [show s.connectors n p = _ from table] at mem
  exact ⟨signature, own, mem, serving.steady.listed signature .require ref mem,
    (serving.registered signature .require).2 ref mem⟩

theorem file_update_setState (s : Server) (n : Nat) (portType : PortType) (state : DataState) (m : Nat) :
    ((s.update n fun node => node.setState portType state).nodes m).requirePortDataFile =
      (s.nodes m).requirePortDataFile := by
  by_cases here : m = n
  · subst here
    rw [nodes_update_self]
    rfl
  · rw [nodes_update_of_ne s here]

theorem state_update_setState (s : Server) (n : Nat) (portType : PortType) (state : DataState) (m : Nat)
    (portType' : PortType) : ((s.update n fun node => node.setState portType state).nodes m).state portType' =
      if m = n ∧ portType' = portType then state else (s.nodes m).state portType' := by
  by_cases here : m = n
  · subst here
    rw [nodes_update_self]
    by_cases type : portType' = portType
    · subst type
      rw [setState_self, if_pos ⟨rfl, rfl⟩]
    · rw [setState_of_ne _ type, if_neg fun both => type both.2]
  · rw [nodes_update_of_ne s here, if_neg fun both => here both.1]

/-- The state behind the opening of the file for the require port data of a node -/
structure Opened (s s' : Server) (n : Nat) : Prop where
  build : SameBuild s s'
  state : ∀ m portType, (s'.nodes m).state portType =
    if m = n ∧ portType = .require then .connected else (s.nodes m).state portType
  file : ∀ m, (s'.nodes m).requirePortDataFile = if m = n then some true else (s.nodes m).requirePortDataFile
  require : ∀ signature, s'.entryPorts signature .require = s.entryPorts signature .require ++
    (s.refs .require n).filter fun ref => s.signature .require ref = some signature
  provide : ∀ signature, s'.entryPorts signature .provide = s.entryPorts signature .provide
  connectors : ∀ m p, s'.connectors m p = s.connectors m p ++
    ((s.joinedRequire n).filter fun pair => pair.1 = ⟨m, p⟩).map Prod.snd
  heldProvide : ∀ ref, s'.held .provide ref = s.held .provide ref
  heldOther : ∀ ref, (∀ pair ∈ s.joinedRequire n, pair.2 ≠ ref) → s'.held .require ref = s.held .require ref
  held : ∀ pair ∈ s.joinedRequire n, s'.held .require pair.2 = s.held .provide pair.1
  mirrors : ∀ m, s.Mirrored m ∨ m = n → s'.Mirrored m

theorem openRequirePortDataFile_opened {s : Server} (built : s.WellBuilt) (steady : s.Steady)
    (oneProvider : s.OneProvider) {n : Nat} (signed : s.Signed .require n) :
    ∃ s', s.openRequirePortDataFile n = .ok () s' ∧ Opened s s' n := by
  let s₀ := s.update n fun node => { node with requirePortDataFile := some true }
  have same₀ : SameData s s₀ := sameData_update s n rfl rfl
  have routing₀ : SameRouting s s₀ := sameRouting_update s n (fun _ => rfl) rfl rfl
  have file₀ (m : Nat) : (s₀.nodes m).requirePortDataFile =
      if m = n then some true else (s.nodes m).requirePortDataFile := by
    by_cases here : m = n
    · subst here
      rw [if_pos rfl, nodes_update_self]
    · rw [if_neg here, nodes_update_of_ne s here]
  have joined : s₀.joinedRequire n = s.joinedRequire n := by
    have ids : s₀.portIds .require n = s.portIds .require n := by rw [portIds, portIds, routing₀.ports]
    have told : s₀.told .require n = s.told .require n := by
      funext portId
      rw [told, told, Server.partners, Server.partners, same₀.sameBuild.signature]
      rfl
    rw [joinedRequire, joinedRequire, ids, told]
  have refs : s₀.refs .require n = s.refs .require n := by rw [Server.refs, Server.refs, routing₀.ports]
  have signed₀ : s₀.Signed .require n := by
    intro ref mem
    rw [same₀.sameBuild.signature]
    exact signed ref (refs ▸ mem)
  obtain ⟨s₁, s₂, inserted, links, connected, cleared, map⟩ :=
    connectRequirePortsToServer_links (same₀.sameBuild.wellBuilt built) (routing₀.steady steady) oneProvider signed₀
  let s₃ := s₂.clearPortConnectorChanges
  let s₄ := s₃.update n fun node => node.setState .require .connected
  have same₄ : SameData s₃ s₄ := sameData_update s₃ n rfl rfl
  have later : SameData s₂ s₄ := cleared.sameData.trans same₄
  have front : SameData s s₁ := same₀.trans inserted.same.sameData
  obtain ⟨s', is⟩ : ∃ s', s' = { s₄ with sent := s₄.sent ++ [(n, 0, s₄.area .require n)] } := ⟨_, rfl⟩
  have done : s.openRequirePortDataFile n = .ok () s' := by
    rw [openRequirePortDataFile]
    dsimp only
    rw [show (s.update n fun node => { node with requirePortDataFile := some true }) = s₀ from rfl, connected,
      Result.bind_ok, is]
    rfl
  have data : SameData s₄ s' := by
    rw [is]
    exact ⟨fun _ => rfl, fun _ => rfl⟩
  have entries (signature : Bytes) (portType : PortType) :
      s'.entryPorts signature portType = s₁.entryPorts signature portType := by
    have same : s'.signatureMap = s₁.signatureMap := by
      rw [is]
      exact map.trans links.map
    rw [Server.entryPorts, Server.entryPorts, same]
  rw [joined] at links
  have arranged₁ (m : Nat) : s₁.Arranged .require m := front.sameBuild.arranged (built.arranged .require m)
  refine ⟨s', done, ?_, ?_, ?_, ?_, ?_, ?_, ?_, ?_, ?_, ?_⟩
  · exact ((front.sameBuild.trans links.sameBuild).trans later.sameBuild).trans data.sameBuild
  · intro m portType
    have behind : (s₃.nodes m).state = (s.nodes m).state := by
      rw [cleared.state, links.state, inserted.same.state, routing₀.state]
    have same : (s'.nodes m).state = (s₄.nodes m).state := by rw [is]
    rw [same, state_update_setState, behind]
  · intro m
    have same : (s'.nodes m).requirePortDataFile = (s₃.nodes m).requirePortDataFile := by
      rw [is]
      exact file_update_setState s₃ n .require .connected m
    rw [same, cleared.file, links.file, inserted.same.file, file₀]
  · intro signature
    rw [entries, inserted.own, refs]
    congr 1
    refine List.filter_congr fun ref _ => ?_
    rw [same₀.sameBuild.signature]
  · intro signature
    rw [entries]
    exact inserted.opposite signature
  · intro m p
    rw [data.connectors, later.connectors, links.connectors, front.connectors]
  · intro ref
    rw [data.held, later.held, links.heldProvide, front.held]
  · intro ref other
    rw [data.held, later.held, links.heldOther arranged₁ other, front.held]
  · intro pair mem
    rw [data.held, later.held, links.held pair mem, front.held]
  · intro m either
    have sent : s₁.sent = s.sent := inserted.same.sent
    have sent₄ : s₄.sent = s₂.sent := cleared.sent
    by_cases here : m = n
    · subst here
      intro client size
      rw [data.area] at size ⊢
      rw [is, Connecting.messagesTo_append, if_pos rfl, receivedArea_append]
      have length := size
      rw [← receivedArea_length client (Connecting.messagesTo m s₄.sent)] at length
      have inside : 0 + (s₄.area .require m).length ≤
          (receivedArea client (Connecting.messagesTo m s₄.sent)).length := by omega
      rw [writtenArea_of_fits inside, splice, List.take_zero, List.nil_append, Nat.zero_add, ← length,
        List.drop_length, List.append_nil]
    · have before : s₁.Mirrored m := (either.resolve_right here).elsewhere (front.area .require m) sent
      have outside : false = false → ∀ pair ∈ s.joinedRequire n, pair.2.node ≠ m := by
        intro _ pair mem node
        exact here (node.symm.trans (mem_joinedRequire steady.listed mem).1)
      have behind := links.mirrors m outside before
      intro client size
      rw [data.area, later.area] at size ⊢
      have message : Connecting.messagesTo m s'.sent = Connecting.messagesTo m s₂.sent := by
        rw [is, Connecting.messagesTo_append, if_neg (Ne.symm here), List.append_nil, sent₄]
      rw [message]
      exact behind client size

theorem openRequirePortDataFile_unsigned {s : Server} (steady : s.Steady) {n : Nat} (unsigned : ¬s.Signed .require n) :
    ∃ s', s.openRequirePortDataFile n = .fail .assertion s' := by
  let s₀ := s.update n fun node => { node with requirePortDataFile := some true }
  have same₀ : SameData s s₀ := sameData_update s n rfl rfl
  have routing₀ : SameRouting s s₀ := sameRouting_update s n (fun _ => rfl) rfl rfl
  have unsigned₀ : ¬s₀.Signed .require n := by
    refine fun signed => unsigned fun ref mem => ?_
    rw [← same₀.sameBuild.signature]
    refine signed ref ?_
    rwa [Server.refs, routing₀.ports, ← Server.refs]
  obtain ⟨s₁, failed⟩ := connectPorts_unsigned (routing₀.steady steady) unsigned₀
  refine ⟨s₁.clearPortConnectorChanges, ?_⟩
  rw [openRequirePortDataFile, connectRequirePortsToServer]
  dsimp only
  rw [show (s.update n fun node => { node with requirePortDataFile := some true }) = s₀ from rfl, failed]
  rfl

theorem Opened.stateProvide {s s' : Server} {n : Nat} (opened : Opened s s' n) (m : Nat) :
    (s'.nodes m).state .provide = (s.nodes m).state .provide := by
  rw [opened.state, if_neg fun both => PortType.noConfusion both.2]

theorem mem_filter_pairs {pairs : List (PortRef × PortRef)} {provide require : PortRef} :
    require ∈ (pairs.filter fun pair => pair.1 = provide).map Prod.snd ↔ (provide, require) ∈ pairs := by
  rw [List.mem_map]
  constructor
  · rintro ⟨⟨provide', require'⟩, mem, rfl⟩
    rw [List.mem_filter, decide_eq_true_iff] at mem
    obtain ⟨mem, rfl⟩ := mem
    exact mem
  · intro mem
    exact ⟨_, List.mem_filter.mpr ⟨mem, decide_eq_true rfl⟩, rfl⟩

/-- The first opening of a file keeps what holds. -/
theorem Opened.serving {carried : Nat → Prop} {s s' : Server} {n : Nat} (opened : Opened s s' n)
    (serving : s.Serving carried) (steady : s'.Steady) (first : (s.nodes n).state .require ≠ .connected) :
    s'.Serving carried where
  built := opened.build.wellBuilt serving.built
  steady := steady
  registered signature portType := by
    obtain ⟨distinct, states⟩ := serving.registered signature portType
    cases portType with
    | provide =>
      rw [opened.provide]
      refine ⟨distinct, fun ref mem => ?_⟩
      rw [opened.stateProvide]
      exact states ref mem
    | require =>
      rw [opened.require]
      constructor
      · refine List.Nodup.append distinct ((s.refs_nodup .require n).filter _) fun ref mem mem' => first ?_
        rw [← node_of_refs (List.mem_filter.mp mem').1]
        exact states ref mem
      · intro ref mem
        rw [opened.state]
        split
        · rfl
        · next other =>
          rcases List.mem_append.mp mem with mem | mem
          · exact states ref mem
          · exact absurd ⟨node_of_refs (List.mem_filter.mp mem).1, rfl⟩ other
  oneProvider signature := by
    rw [opened.provide]
    exact serving.oneProvider signature
  files m connected := by
    rw [opened.file]
    split
    · rfl
    · next other =>
      rw [opened.state, if_neg fun both => other both.1] at connected
      exact serving.files m connected
  table provide signature connected own := by
    rw [opened.stateProvide] at connected
    rw [opened.build.signature] at own
    rw [opened.connectors, opened.require, serving.table provide signature connected own]
    exact congrArg _ (connectors_joinedRequire serving.steady.listed serving.oneProvider own
      (serving.entry connected own))
  waiting m other other' p := by
    rw [opened.stateProvide] at other other'
    rw [opened.connectors, serving.waiting m other other' p, List.nil_append, List.eq_nil_iff_forall_not_mem]
    intro ref mem
    obtain ⟨-, signature, -, listed, -⟩ := mem_joinedRequire serving.steady.listed (mem_filter_pairs.mp mem)
    exact other ((serving.registered signature .provide).2 _ listed)
  inSync m carries connected p ref mem := by
    rw [opened.stateProvide] at connected
    rw [opened.connectors, List.mem_append] at mem
    rw [opened.heldProvide]
    rcases mem with mem | mem
    · obtain ⟨-, -, -, -, here⟩ := serving.connector connected mem
      rw [opened.heldOther, serving.inSync m carries connected p ref mem]
      rintro pair joined rfl
      rw [(mem_joinedRequire serving.steady.listed joined).1] at here
      exact first here
    · exact opened.held _ (mem_filter_pairs.mp mem)
  mirrored m connected := by
    refine opened.mirrors m ?_
    by_cases here : m = n
    · exact .inr here
    · rw [opened.state, if_neg fun both => here both.1] at connected
      exact .inl (serving.mirrored m connected)

end Server

end Apx
