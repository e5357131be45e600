import Apx.NodeLayout
import Apx.PortRouting

/-! Port data on its way from a provide port to the require ports that are connected to it. -/

namespace Apx

open LittleEndian

namespace Server

/-! What the routing of a write changes: bytes in the require port data of nodes, and what was sent. -/

/-- The data area of a node for the ports of one type -/
def area (s : Server) (portType : PortType) (n : Nat) : Bytes := ((s.nodes n).inst.portData portType).getD []

/-- The bytes that a port holds -/
def held (s : Server) (portType : PortType) (ref : PortRef) : Bytes :=
  match s.port portType ref with
  | none => []
  | some port => slice (s.area portType ref.node) port.dataOffset port.dataSize

/-- Nothing but port data has changed, and no area its length. -/
structure SameButData (s s' : Server) : Prop where
  node : ∀ n, ∃ provided required, s'.nodes n = { s.nodes n with
    inst := { (s.nodes n).inst with providePortData := provided, requirePortData := required } }
  length : ∀ portType n, (s'.area portType n).length = (s.area portType n).length

theorem SameButData.refl (s : Server) : SameButData s s := ⟨fun _ => ⟨_, _, rfl⟩, fun _ _ => rfl⟩

theorem SameButData.trans {s s₁ s₂ : Server} (first : SameButData s s₁) (second : SameButData s₁ s₂) :
    SameButData s s₂ where
  node n := by
    obtain ⟨_, _, same⟩ := first.node n
    obtain ⟨provided, required, same'⟩ := second.node n
    exact ⟨provided, required, by rw [same', same]⟩
  length portType n := (second.length portType n).trans (first.length portType n)

theorem SameButData.ports {s s' : Server} (same : SameButData s s') (portType : PortType) (n : Nat) :
    (s'.nodes n).ports portType = (s.nodes n).ports portType := by
  obtain ⟨_, _, node⟩ := same.node n
  rw [node]
  cases portType <;> rfl

theorem SameButData.port {s s' : Server} (same : SameButData s s') (portType : PortType) (ref : PortRef) :
    s'.port portType ref = s.port portType ref := by
  rw [Server.port, Server.port, same.ports]

theorem SameButData.file {s s' : Server} (same : SameButData s s') (n : Nat) :
    (s'.nodes n).requirePortDataFile = (s.nodes n).requirePortDataFile := by
  obtain ⟨_, _, node⟩ := same.node n
  rw [node]

/-- The bytes in the data of a require port -/
def InPort (s : Server) (ref : PortRef) (n i : Nat) : Prop :=
  n = ref.node ∧ ∃ port, s.port .require ref = some port ∧
    port.dataOffset ≤ i ∧ i < port.dataOffset + port.dataSize

theorem SameButData.inPort {s s' : Server} (same : SameButData s s') (ref : PortRef) (n i : Nat) :
    s'.InPort ref n i ↔ s.InPort ref n i := by
  rw [InPort, InPort, same.port]

/-- A require port that takes data: it lies in its area, and its file is open. -/
structure Receives (s : Server) (ref : PortRef) (size : Nat) : Prop where
  port : ∃ port, s.port .require ref = some port ∧ port.dataSize = size ∧
    port.dataOffset + size ≤ (s.area .require ref.node).length
  file : (s.nodes ref.node).requirePortDataFile = some true

theorem SameButData.receives {s s' : Server} (same : SameButData s s') {ref : PortRef} {size : Nat}
    (receives : s.Receives ref size) : s'.Receives ref size where
  port := by
    obtain ⟨port, here, size_eq, inside⟩ := receives.port
    exact ⟨port, (same.port .require ref).trans here, size_eq, by rw [same.length]; exact inside⟩
  file := (same.file ref.node).trans receives.file

theorem writePortData_ok {s : Server} {portType : PortType} {n offset : Nat} {data : Bytes}
    (inside : offset + data.length ≤ (s.area portType n).length) :
    ∃ s', s.writePortData portType n offset data = .ok () s' ∧ SameButData s s' ∧
      s'.area portType n = splice (s.area portType n) offset data ∧
      ∀ portType' m, portType' ≠ portType ∨ m ≠ n → s'.area portType' m = s.area portType' m := by
  let written := ((s.nodes n).inst.portData portType).map fun area => splice area offset data
  let s' := s.updateInst n fun inst => inst.setPortData portType
    ((inst.portData portType).map fun area => splice area offset data)
  have call : s.writePortData portType n offset data = .ok () s' := by
    rw [writePortData]
    exact if_neg (Nat.not_lt.mpr inside)
  have node : s'.nodes n = { s.nodes n with inst := (s.nodes n).inst.setPortData portType written } :=
    nodes_update_self ..
  have others (m : Nat) (other : m ≠ n) : s'.nodes m = s.nodes m := nodes_update_of_ne s other _
  have here : s'.area portType n = splice (s.area portType n) offset data := by
    have same : s'.area portType n = written.getD [] := by
      rw [Server.area, node]
      cases portType <;> rfl
    rw [same]
    cases empty : (s.nodes n).inst.portData portType with
    | some _ => simp [written, Server.area, empty]
    | none =>
      -- a node without data takes none
      have nothing : s.area portType n = [] := by rw [Server.area, empty, Option.getD_none]
      rw [nothing] at inside ⊢
      obtain ⟨offset_eq, data_eq⟩ : offset = 0 ∧ data = [] := by simpa using inside
      simp [written, empty, offset_eq, data_eq]
  have elsewhere (portType' : PortType) (m : Nat) (other : portType' ≠ portType ∨ m ≠ n) :
      s'.area portType' m = s.area portType' m := by
    by_cases same : m = n
    · rw [same, Server.area, node]
      cases portType <;> cases portType' <;> first | rfl | simp_all
    · rw [Server.area, others m same]
      rfl
  refine ⟨s', call, ⟨?_, ?_⟩, here, elsewhere⟩
  · intro m
    by_cases same : m = n
    · subst same
      rw [node]
      cases portType
      · exact ⟨_, _, rfl⟩
      · exact ⟨_, _, rfl⟩
    · exact ⟨_, _, others m same⟩
  · intro portType' m
    by_cases same : portType' = portType ∧ m = n
    · rw [same.1, same.2, here, splice_length inside]
    · rw [elsewhere portType' m (by tauto)]

theorem remoteRoute_ok {s : Server} {ref : PortRef} {port : PortInstance} {data : Bytes}
    (receives : s.Receives ref data.length) (here : s.port .require ref = some port) :
    ∃ s', s.remoteRouteRequirePortData takesAll ref.node port.dataOffset data = .ok () s' ∧ SameButData s s' ∧
      (∀ i, (s'.area .require ref.node)[i]? =
        if port.dataOffset ≤ i ∧ i < port.dataOffset + data.length then data[i - port.dataOffset]?
        else (s.area .require ref.node)[i]?) ∧
      (∀ n, n ≠ ref.node → s'.area .require n = s.area .require n) ∧
      ∀ n, s'.area .provide n = s.area .provide n := by
  obtain ⟨port', here', size, inside⟩ := receives.port
  obtain rfl := Option.some.inj (here.symm.trans here')
  obtain ⟨s₁, wrote, same, written, others⟩ := writePortData_ok inside
  have file := (same.file ref.node).trans receives.file
  refine ⟨{ s₁ with sent := s₁.sent ++ [(ref.node, port.dataOffset, data)] }, ?_, ⟨same.node, same.length⟩,
    ?_, fun n other => others .require n (.inr other), fun n => others .provide n (.inl PortType.noConfusion)⟩
  · rw [remoteRouteRequirePortData, writeRequirePortData, wrote, Result.bind_ok, file]
    rfl
  · intro i
    show (s₁.area .require ref.node)[i]? = _
    rw [written, splice_getElem? inside]

/-- The ports of a type lie one behind the other in the area of their node. -/
structure Arranged (s : Server) (portType : PortType) (n : Nat) : Prop where
  offset : ∀ p port, ((s.nodes n).ports portType)[p]? = some port →
    port.dataOffset = offsetOf ((s.nodes n).ports portType) p
  size : (s.area portType n).length = (dataSizes ((s.nodes n).ports portType)).sum

theorem Arranged.inside {s : Server} {portType : PortType} {ref : PortRef} {port : PortInstance}
    (arranged : s.Arranged portType ref.node) (here : s.port portType ref = some port) :
    port.dataOffset + port.dataSize ≤ (s.area portType ref.node).length := by
  rw [arranged.offset ref.portId port here, arranged.size]
  exact offsetOf_add_le here

/-- A byte lies in one port only. -/
theorem inPort_unique {s : Server} (arranged : ∀ n, s.Arranged .require n) {ref ref' : PortRef} {n i : Nat}
    (first : s.InPort ref n i) (second : s.InPort ref' n i) : ref = ref' := by
  obtain ⟨m, p⟩ := ref
  obtain ⟨m', q⟩ := ref'
  obtain ⟨rfl, port, here, low, high⟩ := first
  obtain ⟨rfl, port', here', low', high'⟩ := second
  rw [(arranged n).offset p port here] at low high
  rw [(arranged n).offset q port' here'] at low' high'
  have one := (portIds_get ((s.nodes n).ports .require) 0 i p).mpr
    ⟨p, port, here, (Nat.zero_add p).symm, low, high⟩
  have two := (portIds_get ((s.nodes n).ports .require) 0 i q).mpr
    ⟨q, port', here', (Nat.zero_add q).symm, low', high'⟩
  rw [Option.some.inj (one.symm.trans two)]

theorem SameButData.arranged {s s' : Server} (same : SameButData s s') {portType : PortType} {n : Nat}
    (arranged : s.Arranged portType n) : s'.Arranged portType n where
  offset := by
    rw [same.ports]
    exact arranged.offset
  size := by rw [same.length, same.ports, arranged.size]

/-- What routing to require ports writes: `data` into each of them, and nothing else. -/
structure Delivers (s s' : Server) (refs : List PortRef) (data : Bytes) : Prop where
  same : SameButData s s'
  provided : ∀ n, s'.area .provide n = s.area .provide n
  others : ∀ n i, (∀ ref ∈ refs, ¬s.InPort ref n i) → (s'.area .require n)[i]? = (s.area .require n)[i]?
  ports : ∀ ref ∈ refs, ∀ port, s.port .require ref = some port → ∀ i, port.dataOffset ≤ i →
    i < port.dataOffset + port.dataSize → (s'.area .require ref.node)[i]? = data[i - port.dataOffset]?

/-- The loop over the connectors of a port that has enough received data in front of it -/
theorem routeToConnectors_delivers {provide : PortInstance} {data : Bytes} {s : Server}
    {refs : List PortRef} (queue : provide.queueLength = 0) (enough : provide.dataSize ≤ data.length)
    (arranged : ∀ n, s.Arranged .require n) (receives : ∀ ref ∈ refs, s.Receives ref provide.dataSize) :
    ∃ s', routeToConnectors takesAll provide data s none refs = .ok (s', none) ∧ s.Delivers s' refs data := by
  induction refs generalizing s with
  | nil =>
    exact ⟨s, rfl, .refl s, fun _ => rfl, fun _ _ _ => rfl, fun ref mem => absurd mem List.not_mem_nil⟩
  | cons ref rest ih =>
    rw [List.forall_mem_cons] at receives
    obtain ⟨port, here, size, inside⟩ := receives.1.port
    have taken : (data.take provide.dataSize).length = provide.dataSize := by
      rw [List.length_take]
      omega
    obtain ⟨s₁, routed, same, written, others, provided⟩ :=
      @remoteRoute_ok _ _ _ (data.take provide.dataSize) (by rw [taken]; exact receives.1) here
    rw [taken] at written
    obtain ⟨s', looped, delivers⟩ :=
      ih (fun n => same.arranged (arranged n)) fun ref mem => same.receives (receives.2 ref mem)
    refine ⟨s', ?_, same.trans delivers.same, fun n => (delivers.provided n).trans (provided n), ?_, ?_⟩
    · rw [routeToConnectors, here]
      simp only [queue, if_true, size, ne_eq, not_true_eq_false, if_false, if_neg (Nat.not_lt.mpr enough)]
      rw [routed]
      exact looped
    · intro n i outside
      rw [List.forall_mem_cons] at outside
      rw [delivers.others n i fun ref mem inPort => outside.2 ref mem ((same.inPort ref n i).mp inPort)]
      by_cases node : n = ref.node
      · subst node
        rw [written, if_neg]
        rintro ⟨low, high⟩
        exact outside.1 ⟨rfl, port, here, low, by rw [size]; exact high⟩
      · rw [others n node]
    · intro ref' mem port' here' i low high
      have inPort : s.InPort ref' ref'.node i := ⟨rfl, port', here', low, high⟩
      by_cases again : ∃ later ∈ rest, s₁.InPort later ref'.node i
      · -- the last connector that the byte belongs to decides, and it is the same port
        obtain ⟨later, mem', inLater⟩ := again
        obtain rfl := inPort_unique arranged inPort ((same.inPort later _ i).mp inLater)
        exact delivers.ports ref' mem' port' ((same.port .require ref').trans here') i low high
      · rw [not_exists] at again
        rw [delivers.others ref'.node i fun later mem' inLater => again later ⟨mem', inLater⟩]
        rcases List.mem_cons.mp mem with rfl | mem
        · obtain rfl := Option.some.inj (here.symm.trans here')
          rw [size] at high
          rw [written, if_pos ⟨low, high⟩, List.getElem?_take_of_lt (by omega)]
        · exact absurd ⟨mem, (same.inPort ref' _ i).mpr inPort⟩ (again ref')

/-- The places that the loop over a write comes to, with the ids of their ports: wherever it stands in a
port, it goes on by the size of that port. -/
def steps (map : Option BytePortMap) (ports : List PortInstance) (endOffset : Nat) :
    Nat → Nat → List (Nat × Nat)
  | 0, _ => []
  | fuel + 1, offset =>
    if offset < endOffset then
      match ports[BytePortMap.lookup map offset]? with
      | none => []
      | some port =>
          (offset, BytePortMap.lookup map offset) ::
            steps map ports endOffset fuel (offset + port.dataSize)
    else []

/-- The connector list of a provide port -/
def connectors (s : Server) (n portId : Nat) : List PortRef := (s.nodes n).connectorTable[portId]?.getD []

/-- A node with provide ports as a server builds it -/
structure Provider (s : Server) (n : Nat) : Prop where
  nonempty : (s.nodes n).ports .provide ≠ []
  arranged : s.Arranged .provide n
  positive : ∀ port ∈ (s.nodes n).ports .provide, 0 < port.dataSize
  fits : (s.area .provide n).length < 2 ^ 32
  maps : MapsBytes ((s.nodes n).ports .provide) (s.nodes n).inst.bytePortMap
  table : (s.nodes n).connectorTable.length = ((s.nodes n).ports .provide).length

/-- Every byte of the area belongs to a port. -/
theorem Provider.lookup {s : Server} {n offset : Nat} (provider : s.Provider n)
    (inside : offset < (s.area .provide n).length) : ∃ p port,
      ((s.nodes n).ports .provide)[p]? = some port ∧
      BytePortMap.lookup (s.nodes n).inst.bytePortMap offset = p ∧
      port.dataOffset ≤ offset ∧ offset < port.dataOffset + port.dataSize := by
  have count := portIds_length 0 ((s.nodes n).ports .provide)
  rw [← provider.arranged.size] at count
  obtain ⟨p, found⟩ : ∃ p, (portIds 0 ((s.nodes n).ports .provide))[offset]? = some p :=
    ⟨_, List.getElem?_eq_getElem (by omega)⟩
  obtain ⟨i, port, here, -, low, high⟩ := (portIds_get _ 0 offset p).mp found
  rw [← provider.arranged.offset i port here] at low high
  exact ⟨i, port, here, (provider.maps.inside i port here offset).mpr ⟨low, high⟩, low, high⟩

theorem SameButData.provider {s s' : Server} (same : SameButData s s') {n : Nat}
    (provider : s.Provider n) : s'.Provider n := by
  have ports := same.ports .provide n
  obtain ⟨_, _, node⟩ := same.node n
  constructor
  · rw [ports]
    exact provider.nonempty
  · exact same.arranged provider.arranged
  · rw [ports]
    exact provider.positive
  · rw [same.length]
    exact provider.fits
  · rw [ports, node]
    exact provider.maps
  · rw [ports, node]
    exact provider.table

theorem steps_inside {s : Server} {n endOffset : Nat} (provider : s.Provider n)
    (inside : endOffset ≤ (s.area .provide n).length) {fuel offset pos p : Nat}
    (mem : (pos, p) ∈ steps (s.nodes n).inst.bytePortMap ((s.nodes n).ports .provide) endOffset fuel offset) :
    offset ≤ pos ∧ pos < endOffset ∧ ∃ port, ((s.nodes n).ports .provide)[p]? = some port ∧
      port.dataOffset ≤ pos ∧ pos < port.dataOffset + port.dataSize := by
  induction fuel generalizing offset with
  | zero => exact absurd mem List.not_mem_nil
  | succ fuel ih =>
    rw [steps] at mem
    by_cases going : offset < endOffset
    · obtain ⟨q, port, here, found, low, high⟩ := provider.lookup (show offset < _ by omega)
      rw [if_pos going, found, here] at mem
      rcases List.mem_cons.mp mem with same | mem
      · cases same
        exact ⟨Nat.le_refl _, going, port, here, low, high⟩
      · obtain ⟨later, rest⟩ := ih mem
        exact ⟨by omega, rest⟩
    · rw [if_neg going] at mem
      exact absurd mem List.not_mem_nil

/-- The connectors of a node are require ports that take data of the size of their provide port, which
has no queue. -/
def Connected (s : Server) (n : Nat) : Prop :=
  ∀ p port, ((s.nodes n).ports .provide)[p]? = some port → ∀ ref ∈ s.connectors n p,
    port.queueLength = 0 ∧ s.Receives ref port.dataSize

theorem SameButData.connectors {s s' : Server} (same : SameButData s s') (n p : Nat) :
    s'.connectors n p = s.connectors n p := by
  obtain ⟨_, _, node⟩ := same.node n
  rw [Server.connectors, node]
  rfl

theorem SameButData.connected {s s' : Server} (same : SameButData s s') {n : Nat}
    (connected : s.Connected n) : s'.Connected n := by
  intro p port here ref mem
  rw [same.ports] at here
  rw [same.connectors] at mem
  obtain ⟨queue, receives⟩ := connected p port here ref mem
  exact ⟨queue, same.receives receives⟩

/-- The last of the places at which a write comes to a provide port that `ref` is connected to -/
def lastStep (s : Server) (n : Nat) (ref : PortRef) (steps : List (Nat × Nat)) : Option (Nat × Nat) :=
  (steps.filter fun step => ref ∈ s.connectors n step.2).getLast?

theorem lastStep_cons (s : Server) (n : Nat) (ref : PortRef) (step : Nat × Nat)
    (rest : List (Nat × Nat)) : s.lastStep n ref (step :: rest) =
      (s.lastStep n ref rest).or (if ref ∈ s.connectors n step.2 then some step else none) := by
  by_cases mem : ref ∈ s.connectors n step.2
  · rw [if_pos mem, lastStep, List.filter_cons_of_pos (by simpa using mem), List.getLast?_cons, lastStep]
    cases (rest.filter fun step => ref ∈ s.connectors n step.2).getLast? <;> rfl
  · rw [if_neg mem, lastStep, List.filter_cons_of_neg (by simpa using mem), Option.or_none, lastStep]

theorem mem_of_lastStep {s : Server} {n : Nat} {ref : PortRef} {step : Nat × Nat}
    {steps : List (Nat × Nat)} (last : s.lastStep n ref steps = some step) :
    step ∈ steps ∧ ref ∈ s.connectors n step.2 := by
  have mem := List.mem_of_getLast? last
  rw [List.mem_filter] at mem
  exact ⟨mem.1, by simpa using mem.2⟩

theorem lastStep_eq_none {s : Server} {n : Nat} {ref : PortRef} {steps : List (Nat × Nat)} :
    s.lastStep n ref steps = none ↔ ∀ step ∈ steps, ref ∉ s.connectors n step.2 := by
  simp [lastStep]

theorem SameButData.lastStep {s s' : Server} (same : SameButData s s') (n : Nat) (ref : PortRef)
    (steps : List (Nat × Nat)) : s'.lastStep n ref steps = s.lastStep n ref steps := by
  simp only [Server.lastStep, same.connectors]

/-- What the loop over a write leaves: a connector holds the received data from the last place on at
which the loop came to its port, and every other byte is as it was. -/
structure Routed (s s' : Server) (n offset : Nat) (data : Bytes) (steps : List (Nat × Nat)) : Prop where
  same : SameButData s s'
  provided : ∀ m, s'.area .provide m = s.area .provide m
  others : ∀ m i, (∀ step ∈ steps, ∀ ref ∈ s.connectors n step.2, ¬s.InPort ref m i) →
    (s'.area .require m)[i]? = (s.area .require m)[i]?
  ports : ∀ ref step, s.lastStep n ref steps = some step → ∀ port, s.port .require ref = some port →
    ∀ i, port.dataOffset ≤ i → i < port.dataOffset + port.dataSize →
      (s'.area .require ref.node)[i]? = data[step.1 - offset + (i - port.dataOffset)]?

theorem routeToConnectors_beyond {provide : PortInstance} {data : Bytes} {s : Server} {ref : PortRef}
    {rest : List PortRef} (queue : provide.queueLength = 0) (receives : s.Receives ref provide.dataSize)
    (beyond : data.length < provide.dataSize) :
    routeToConnectors takesAll provide data s none (ref :: rest) = .error .outOfBounds := by
  obtain ⟨port, here, size, -⟩ := receives.port
  rw [routeToConnectors, here]
  simp only [queue, if_true, size, ne_eq, not_true_eq_false, if_false, if_pos beyond]

theorem Routed.cons {s s₁ s' : Server} {n endOffset fuel offset p : Nat} {data : Bytes}
    {port : PortInstance} (provider : s.Provider n)
    (arranged : ∀ n, s.Arranged .require n) (inside : endOffset ≤ (s.area .provide n).length)
    (delivers : s.Delivers s₁ (s.connectors n p) data)
    (routed : s₁.Routed s' n (offset + port.dataSize) (data.drop port.dataSize)
      (steps (s.nodes n).inst.bytePortMap ((s.nodes n).ports .provide) endOffset fuel
        (offset + port.dataSize))) :
    s.Routed s' n offset data ((offset, p) :: steps (s.nodes n).inst.bytePortMap
      ((s.nodes n).ports .provide) endOffset fuel (offset + port.dataSize)) where
  same := delivers.same.trans routed.same
  provided m := (routed.provided m).trans (delivers.provided m)
  others m i outside := by
    rw [List.forall_mem_cons] at outside
    rw [routed.others m i, delivers.others m i outside.1]
    intro step mem ref connector inPort
    rw [delivers.same.connectors] at connector
    exact outside.2 step mem ref connector ((delivers.same.inPort ref m i).mp inPort)
  ports ref step last port' here' i low' high' := by
    rw [lastStep_cons] at last
    cases later : s.lastStep n ref (steps (s.nodes n).inst.bytePortMap ((s.nodes n).ports .provide)
        endOffset fuel (offset + port.dataSize)) with
    | some step' =>
      rw [later, Option.some_or] at last
      obtain rfl := Option.some.inj last
      obtain ⟨behind, -⟩ := steps_inside provider inside (mem_of_lastStep later).1
      rw [routed.ports ref step' ((delivers.same.lastStep n ref _).trans later) port'
        ((delivers.same.port .require ref).trans here') i low' high', List.getElem?_drop]
      congr 1
      omega
    | none =>
      -- no later step comes to this connector
      rw [later, Option.none_or] at last
      obtain ⟨connector, same⟩ := Option.ite_none_right_eq_some.mp last
      obtain rfl := Option.some.inj same
      rw [routed.others ref.node i, delivers.ports ref connector port' here' i low' high',
        Nat.sub_self, Nat.zero_add]
      intro later' mem ref' connector' inPort
      rw [delivers.same.connectors] at connector'
      obtain rfl := inPort_unique arranged ⟨rfl, port', here', low', high'⟩
        ((delivers.same.inPort ref' _ i).mp inPort)
      exact lastStep_eq_none.mp later later' mem connector'

/-- The loop over a write. It reads behind the received data exactly when it comes to a port that has a
connector and does not end inside of them. -/
theorem routeChange_routed {n endOffset fuel offset : Nat} {s : Server} {data : Bytes}
    (provider : s.Provider n) (connected : s.Connected n) (arranged : ∀ n, s.Arranged .require n)
    (inside : endOffset ≤ (s.area .provide n).length) (length : data.length = endOffset - offset)
    (enough : endOffset - offset < fuel) :
    let steps := steps (s.nodes n).inst.bytePortMap ((s.nodes n).ports .provide) endOffset fuel offset
    let Fits := ∀ step ∈ steps, s.connectors n step.2 ≠ [] → ∀ port,
      ((s.nodes n).ports .provide)[step.2]? = some port → step.1 + port.dataSize ≤ endOffset
    (Fits → ∃ s', routeChange takesAll n endOffset fuel s none offset data = some (.ok () s') ∧
      s.Routed s' n offset data steps) ∧
    (¬Fits → ∃ s', routeChange takesAll n endOffset fuel s none offset data =
      some (.fail .outOfBounds s')) := by
  induction fuel generalizing s offset data with
  | zero => omega
  | succ fuel ih =>
  intro steps_ Fits
  by_cases going : offset < endOffset
  swap
  · have nothing : steps_ = [] := by
      show steps _ _ endOffset (fuel + 1) offset = []
      rw [steps, if_neg going]
    have done : routeChange takesAll n endOffset (fuel + 1) s none offset data = some (.ok () s) := by
      rw [routeChange, if_neg going]
    constructor
    · intro _
      refine ⟨s, done, .refl s, fun _ => rfl, fun _ _ _ => rfl, ?_⟩
      rw [nothing]
      intro ref step last
      exact absurd (mem_of_lastStep last).1 List.not_mem_nil
    · intro notFits
      refine absurd ?_ notFits
      show ∀ step ∈ steps_, _
      rw [nothing]
      intro step mem
      exact absurd mem List.not_mem_nil
  obtain ⟨p, port, here, found, low, high⟩ := provider.lookup (show offset < _ by omega)
  have steps_eq : steps_ = (offset, p) :: steps (s.nodes n).inst.bytePortMap
      ((s.nodes n).ports .provide) endOffset fuel (offset + port.dataSize) := by
    show steps _ _ endOffset (fuel + 1) offset = _
    rw [steps, if_pos going, found, here]
  have valid : p ≠ invalidPortId := by
    have below := le_offsetOf provider.positive (Nat.le_of_lt (List.getElem?_eq_some_iff.mp here).1)
    rw [← provider.arranged.offset p port here] at below
    have fits := provider.fits
    have last : invalidPortId = 2 ^ 32 - 1 := rfl
    omega
  have taken : ¬port.dataSize = 0 := by omega
  have list : (s.nodes n).connectorTable[p]? = some (s.connectors n p) := by
    have count := (List.getElem?_eq_some_iff.mp here).1
    rw [← provider.table] at count
    rw [connectors, List.getElem?_eq_getElem count, Option.getD_some]
  -- one pass through the loop
  have stops {failure : Failure}
      (routed : routeToConnectors takesAll port data s none (s.connectors n p) = .error failure) :
      routeChange takesAll n endOffset (fuel + 1) s none offset data = some (.fail failure s) := by
    rw [routeChange, if_pos going]
    simp only [found, if_neg valid, here, if_neg taken, list, routed]
  have pass {s₁ : Server} {retval : Option Failure}
      (routed : routeToConnectors takesAll port data s none (s.connectors n p) = .ok (s₁, retval)) :
      routeChange takesAll n endOffset (fuel + 1) s none offset data =
        routeChange takesAll n endOffset fuel s₁ retval (offset + port.dataSize) (data.drop port.dataSize) := by
    rw [routeChange, if_pos going]
    simp only [found, if_neg valid, here, if_neg taken, list, routed]
  have behind {s₁ : Server} (delivers : s.Delivers s₁ (s.connectors n p) data) :
      let rest := steps (s.nodes n).inst.bytePortMap ((s.nodes n).ports .provide) endOffset fuel
        (offset + port.dataSize)
      let Fits := ∀ step ∈ rest, s.connectors n step.2 ≠ [] → ∀ port,
        ((s.nodes n).ports .provide)[step.2]? = some port → step.1 + port.dataSize ≤ endOffset
      (Fits → ∃ s', routeChange takesAll n endOffset fuel s₁ none (offset + port.dataSize)
          (data.drop port.dataSize) = some (.ok () s') ∧
        s₁.Routed s' n (offset + port.dataSize) (data.drop port.dataSize) rest) ∧
      (¬Fits → ∃ s', routeChange takesAll n endOffset fuel s₁ none (offset + port.dataSize)
        (data.drop port.dataSize) = some (.fail .outOfBounds s')) := by
    have ports := delivers.same.ports .provide n
    have map : (s₁.nodes n).inst.bytePortMap = (s.nodes n).inst.bytePortMap := by
      obtain ⟨_, _, node⟩ := delivers.same.node n
      rw [node]
    have later := @ih (offset + port.dataSize) s₁ (data.drop port.dataSize)
      (delivers.same.provider provider) (delivers.same.connected connected)
      (fun n => delivers.same.arranged (arranged n)) (by rw [delivers.same.length]; exact inside)
      (by rw [List.length_drop]; omega) (by omega)
    simp only [ports, map, delivers.same.connectors] at later
    exact later
  have first : Fits ↔ (s.connectors n p ≠ [] → offset + port.dataSize ≤ endOffset) ∧
      ∀ step ∈ steps (s.nodes n).inst.bytePortMap ((s.nodes n).ports .provide) endOffset fuel
        (offset + port.dataSize), s.connectors n step.2 ≠ [] → ∀ port,
        ((s.nodes n).ports .provide)[step.2]? = some port → step.1 + port.dataSize ≤ endOffset := by
    show (∀ step ∈ steps_, _) ↔ _
    rw [steps_eq, List.forall_mem_cons]
    simp only [here, Option.some.injEq, forall_eq']
  rw [first, steps_eq]
  cases list_eq : s.connectors n p with
  | nil =>
    have looped : routeToConnectors takesAll port data s none (s.connectors n p) = .ok (s, none) := by
      rw [list_eq]
      rfl
    rw [pass looped]
    obtain ⟨good, bad⟩ := @behind s (by
      rw [list_eq]
      exact ⟨.refl s, fun _ => rfl, fun _ _ _ => rfl, fun ref mem => absurd mem List.not_mem_nil⟩)
    simp only [ne_eq, not_true_eq_false, false_imp_iff, true_and]
    refine ⟨fun fits => ?_, bad⟩
    obtain ⟨s', done, routed⟩ := good fits
    refine ⟨s', done, Routed.cons provider arranged inside ?_ routed⟩
    rw [list_eq]
    exact ⟨.refl s, fun _ => rfl, fun _ _ _ => rfl, fun ref mem => absurd mem List.not_mem_nil⟩
  | cons ref refs =>
    have each := connected p port here
    rw [list_eq] at each
    have queue := (each ref List.mem_cons_self).1
    by_cases suffices_ : offset + port.dataSize ≤ endOffset
    · obtain ⟨s₁, looped, delivers⟩ := routeToConnectors_delivers queue
        (show port.dataSize ≤ data.length by omega) arranged fun ref mem => (each ref mem).2
      rw [← list_eq] at looped
      rw [pass looped]
      obtain ⟨good, bad⟩ := behind (by rw [list_eq]; exact delivers)
      constructor
      · rintro ⟨-, fits⟩
        obtain ⟨s', done, routed⟩ := good fits
        exact ⟨s', done, Routed.cons provider arranged inside
          (by rw [list_eq]; exact delivers) routed⟩
      · intro notFits
        exact bad fun fits => notFits ⟨fun _ => suffices_, fits⟩
    · have beyond := @routeToConnectors_beyond _ _ _ _ refs queue (each ref List.mem_cons_self).2
        (show data.length < port.dataSize by omega)
      rw [← list_eq] at beyond
      rw [stops beyond]
      refine ⟨fun fits => absurd (fits.1 (List.cons_ne_nil _ _)) suffices_, fun _ => ⟨s, rfl⟩⟩

end Server

end Apx
