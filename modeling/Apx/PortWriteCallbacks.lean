import Apx.NodeLayout
import Apx.Server

/-! What a client is told about its require ports when their data is written (node_instance.c). -/

namespace Apx

open LittleEndian

/-- The calls of apx_nodeManager_on_require_port_written: the port, and the bytes that the callback is
given a pointer to -/
abbrev PortWrites := List (Nat × Bytes)

/-- apx_nodeInstance_t of a client -/
structure NotifiedNode where
  inst : NodeInstance
  requirePortDataState : DataState

/-- apx_nodeData_write_require_port_data -/
def NodeInstance.writeRequirePortData (inst : NodeInstance) (offset : Nat) (data : Bytes) :
    Except ApxError NodeInstance :=
  if offset + data.length > (inst.requirePortData.getD []).length then .error .invalidArgument
  else .ok { inst with requirePortData := inst.requirePortData.map fun area => splice area offset data }

/-- The loop of trigger_require_port_write_callbacks: `data` is what was received from `offset` on. A
callback that is given more bytes than there are reads behind them; a port without data is looked up
again and again. -/
def triggerLoop (inst : NodeInstance) (endOffset offset : Nat) (data : Bytes) (calls : PortWrites) :
    Option (Result PortWrites Unit) :=
  if offset < endOffset then
    let portId := BytePortMap.lookup inst.bytePortMap offset
    if portId ≠ invalidPortId then
      match inst.requirePorts[portId]? with
      | some portInstance =>
        let portDataSize := portInstance.dataSize
        if portDataSize = 0 then none
        else if data.length < portDataSize then some (.fail .outOfBounds calls)
        else triggerLoop inst endOffset (u32 (offset + portDataSize)) (data.drop portDataSize)
          (calls ++ [(portId, data.take portDataSize)])
      | none => some (.fail (.code .invalidWrite) calls)
    else some (.fail (.code .invalidWrite) calls)
  else some (.ok () calls)
termination_by data.length
decreasing_by
  rw [List.length_drop]
  omega

/-- trigger_require_port_write_callbacks -/
def triggerRequirePortWriteCallbacks (inst : NodeInstance) (offset : Nat) (data : Bytes) :
    Option (Result PortWrites Unit) :=
  if inst.bytePortMap = none then some (.fail (.code .nullPtr) [])
  else triggerLoop inst (u32 (offset + data.length)) offset data []

/-- process_remote_write_require_port_data -/
def processRemoteWriteRequirePortData (node : NotifiedNode) (offset : Nat) (data : Bytes) :
    Option (Result (NotifiedNode × PortWrites) Unit) :=
  let node := if node.requirePortDataState = .waitingForFileData then
    { node with requirePortDataState := .connected } else node
  match node.inst.writeRequirePortData offset data with
  | .error error => some (.fail (.code error) (node, []))
  | .ok inst =>
    let node := { node with inst := inst }
    if inst.mode = .client then
      (triggerRequirePortWriteCallbacks inst offset data).map fun result => result.lift fun calls => (node, calls)
    else some (.ok () (node, []))

/-! The places of the ports -/

theorem offsetOf_next {instances : List PortInstance} {p : Nat} {port : PortInstance}
    (here : instances[p]? = some port) : offsetOf instances (p + 1) = offsetOf instances p + port.dataSize := by
  have size : (dataSizes instances)[p]? = some port.dataSize := by
    rw [dataSizes, List.getElem?_map, here]
    rfl
  rw [offsetOf, offsetOf, List.take_add_one, size, List.sum_append]
  simp

theorem offsetOf_mono (instances : List PortInstance) {p q : Nat} (le : p ≤ q) :
    offsetOf instances p ≤ offsetOf instances q := by
  induction q, le using Nat.le_induction with
  | base => exact Nat.le_refl _
  | succ q le ih =>
    apply Nat.le_trans ih
    rw [offsetOf, offsetOf, List.take_add_one, List.sum_append]
    exact Nat.le_add_right _ _

theorem offsetOf_length (instances : List PortInstance) :
    offsetOf instances instances.length = (dataSizes instances).sum := by
  rw [offsetOf, List.take_of_length_le]
  rw [dataSizes, List.length_map]

/-- Every byte of the area belongs to a port. -/
theorem port_at {instances : List PortInstance} {o : Nat} (inside : o < (dataSizes instances).sum) :
    ∃ p port, instances[p]? = some port ∧ offsetOf instances p ≤ o ∧ o < offsetOf instances p + port.dataSize := by
  induction instances generalizing o with
  | nil => contradiction
  | cons port rest ih =>
    by_cases first : o < port.dataSize
    · exact ⟨0, port, rfl, Nat.zero_le _, by rwa [offsetOf_zero, Nat.zero_add]⟩
    · rw [dataSizes_cons, List.sum_cons] at inside
      obtain ⟨p, port', here, low, high⟩ := ih (show o - port.dataSize < (dataSizes rest).sum by omega)
      refine ⟨p + 1, port', here, ?_, ?_⟩
      · rw [offsetOf_succ]
        omega
      · rw [offsetOf_succ]
        omega

theorem filter_range {n i j : Nat} {P : Nat → Prop} [DecidablePred P] (inside : j ≤ n)
    (same : ∀ p < n, P p ↔ i ≤ p ∧ p < j) : (List.range n).filter P = List.range' i (j - i) := by
  apply (List.pairwise_lt_range.filter _).eq_of_mem_iff List.pairwise_lt_range'
  intro p
  rw [List.mem_filter, List.mem_range, decide_eq_true_iff, List.mem_range'_1]
  constructor
  · rintro ⟨below, holds⟩
    have range := (same p below).mp holds
    omega
  · intro range
    have below : p < n := by omega
    exact ⟨below, (same p below).mpr (by omega)⟩

/-! What the property says -/

/-- What a build in client mode leaves of the require ports, and every write keeps -/
structure ClientPorts (inst : NodeInstance) : Prop where
  client : inst.mode = .client
  positive : ∀ port ∈ inst.requirePorts, 0 < port.dataSize
  offset : ∀ p port, inst.requirePorts[p]? = some port → port.dataOffset = offsetOf inst.requirePorts p
  area : (inst.requirePortData.getD []).length = (dataSizes inst.requirePorts).sum
  fits : (dataSizes inst.requirePorts).sum < 2 ^ 32
  maps : MapsBytes inst.requirePorts inst.bytePortMap

def portWrite (inst : NodeInstance) (portId : Nat) : Option (Nat × Bytes) :=
  inst.requirePorts[portId]?.map fun port =>
    (portId, slice (inst.requirePortData.getD []) port.dataOffset port.dataSize)

/-- The region of the port has a byte in common with the `size` bytes from `offset` on. -/
def Overlaps (inst : NodeInstance) (offset size portId : Nat) : Prop :=
  ∃ port ∈ inst.requirePorts[portId]?, port.dataOffset < offset + size ∧ offset < port.dataOffset + port.dataSize

instance (inst : NodeInstance) (offset size : Nat) : DecidablePred (Overlaps inst offset size) := fun portId =>
  inferInstanceAs (Decidable (∃ port ∈ inst.requirePorts[portId]?, _))

/-- The ports that a write of `size` bytes at `offset` reaches, with what they hold now -/
def portsWritten (inst : NodeInstance) (offset size : Nat) : PortWrites :=
  ((List.range inst.requirePorts.length).filter (Overlaps inst offset size)).filterMap (portWrite inst)

/-- The ports that a write reaches are notified in order, each with its whole data, and no byte behind what
was received is read. -/
def ReportsWholePorts (node : NotifiedNode) (offset : Nat) (data : Bytes) : Prop :=
  ∃ result, processRemoteWriteRequirePortData node offset data = some result ∧
    result.failure? ≠ some .outOfBounds ∧
    result.state.2 = portsWritten result.state.1.inst offset data.length

/-- A write that begins where a port begins and ends where a port ends -/
structure AlignedWrite (inst : NodeInstance) (offset size : Nat) : Prop where
  start : ∃ port ∈ inst.requirePorts, port.dataOffset = offset
  stop : ∃ port ∈ inst.requirePorts, port.dataOffset + port.dataSize = offset + size

/-- What the loop hands out is inside of what it was given. -/
theorem triggerLoop_calls (inst : NodeInstance) (endOffset offset : Nat) (data : Bytes) (calls : PortWrites)
    {result : Result PortWrites Unit} (done : triggerLoop inst endOffset offset data calls = some result) :
    ∃ more, result.state = calls ++ more ∧ (more.map fun call => call.2.length).sum ≤ data.length := by
  have nothing : ∃ more, calls = calls ++ more ∧ (more.map fun call : Nat × Bytes => call.2.length).sum ≤ data.length :=
    ⟨[], (List.append_nil calls).symm, Nat.zero_le _⟩
  induction size : data.length using Nat.strongRecOn generalizing offset data calls with
  | ind size ih =>
    subst size
    rw [triggerLoop] at done
    split at done
    · simp only at done
      split at done
      · split at done
        next port found =>
          split at done
          · contradiction
          next some_ =>
            split at done
            · cases done
              exact nothing
            next room =>
              have shorter : (data.drop port.dataSize).length < data.length := by
                rw [List.length_drop]
                omega
              obtain ⟨more, state, fits⟩ := ih _ shorter _ _ _ done ⟨[], (List.append_nil _).symm, Nat.zero_le _⟩ rfl
              refine ⟨_ :: more, state.trans (List.append_assoc _ _ _), ?_⟩
              rw [List.length_drop] at fits
              rw [List.map_cons, List.sum_cons, List.length_take]
              omega
        · cases done
          exact nothing
      · cases done
        exact nothing
    · cases done
      exact nothing

namespace ClientPorts
variable {inst : NodeInstance} (ports : ClientPorts inst)
include ports

theorem lookup {p : Nat} {port : PortInstance} (here : inst.requirePorts[p]? = some port) :
    BytePortMap.lookup inst.bytePortMap (offsetOf inst.requirePorts p) = p := by
  have taken := ports.positive port (List.mem_of_getElem? here)
  rw [ports.maps.inside p port here, ports.offset p port here]
  omega

theorem portWrite_eq {p : Nat} {port : PortInstance} (here : inst.requirePorts[p]? = some port) :
    portWrite inst p = some (p, slice (inst.requirePortData.getD []) (offsetOf inst.requirePorts p)
      port.dataSize) := by
  rw [portWrite, here, ← ports.offset p port here]
  rfl

theorem triggerLoop_aligned {i j : Nat} (le : i ≤ j) (inside : j ≤ inst.requirePorts.length) {data : Bytes}
    (received : data = slice (inst.requirePortData.getD []) (offsetOf inst.requirePorts i)
      (offsetOf inst.requirePorts j - offsetOf inst.requirePorts i)) (calls : PortWrites) :
    triggerLoop inst (offsetOf inst.requirePorts j) (offsetOf inst.requirePorts i) data calls =
      some (.ok () (calls ++ (List.range' i (j - i)).filterMap (portWrite inst))) := by
  induction count : j - i generalizing i data calls with
  | zero =>
    obtain rfl : i = j := by omega
    rw [triggerLoop, if_neg (Nat.lt_irrefl _), List.range'_zero, List.filterMap_nil, List.append_nil]
  | succ n ih =>
    have before : i < inst.requirePorts.length := by omega
    have here : inst.requirePorts[i]? = some inst.requirePorts[i] := List.getElem?_eq_getElem before
    generalize inst.requirePorts[i] = port at here
    have taken := ports.positive port (List.mem_of_getElem? here)
    have next := offsetOf_next here
    have later := offsetOf_mono inst.requirePorts (show i + 1 ≤ j by omega)
    have last := offsetOf_mono inst.requirePorts inside
    rw [offsetOf_length] at last
    have fits := ports.fits
    have low := le_offsetOf ports.positive (Nat.le_of_lt before)
    have valid : i ≠ invalidPortId := by
      rw [invalidPortId]
      omega
    have length : data.length = offsetOf inst.requirePorts j - offsetOf inst.requirePorts i := by
      rw [received]
      apply slice_length
      rw [ports.area]
      omega
    have first : data.take port.dataSize =
        slice (inst.requirePortData.getD []) (offsetOf inst.requirePorts i) port.dataSize := by
      rw [received, slice, slice, List.take_take, Nat.min_eq_left (by omega)]
    have rest : data.drop port.dataSize = slice (inst.requirePortData.getD []) (offsetOf inst.requirePorts (i + 1))
        (offsetOf inst.requirePorts j - offsetOf inst.requirePorts (i + 1)) := by
      rw [received, slice, slice, List.drop_take, List.drop_drop, next, Nat.sub_sub]
    have small : u32 (offsetOf inst.requirePorts i + port.dataSize) = offsetOf inst.requirePorts (i + 1) := by
      rw [← next]
      exact u32_of_lt (by omega)
    rw [triggerLoop, if_pos (by omega)]
    simp only [ports.lookup here, here, if_pos valid, if_neg (Nat.ne_of_gt taken), small]
    rw [if_neg (by omega), ih (by omega) rest _ (by omega), List.range'_succ,
      List.filterMap_cons_some (ports.portWrite_eq here), first, List.append_assoc]
    rfl

/-- The ports that a write reaches are those from the one that its first byte lies in to the one that its
last byte lies in. -/
theorem overlapping {offset size : Nat} (some_ : 0 < size)
    (inside : offset + size ≤ (inst.requirePortData.getD []).length) : ∃ i k, i ≤ k ∧ k < inst.requirePorts.length ∧
      offsetOf inst.requirePorts i ≤ offset ∧ offset < offsetOf inst.requirePorts (i + 1) ∧
      offsetOf inst.requirePorts k < offset + size ∧ offset + size ≤ offsetOf inst.requirePorts (k + 1) ∧
      (List.range inst.requirePorts.length).filter (Overlaps inst offset size) = List.range' i (k + 1 - i) := by
  rw [ports.area] at inside
  obtain ⟨i, first, hereFirst, lowFirst, highFirst⟩ :=
    port_at (show offset < (dataSizes inst.requirePorts).sum by omega)
  obtain ⟨k, last, hereLast, lowLast, highLast⟩ :=
    port_at (show offset + size - 1 < (dataSizes inst.requirePorts).sum by omega)
  have nextFirst := offsetOf_next hereFirst
  have nextLast := offsetOf_next hereLast
  have before : k < inst.requirePorts.length := (List.getElem?_eq_some_iff.mp hereLast).1
  have le : i ≤ k := by
    by_contra after
    have earlier := offsetOf_mono inst.requirePorts (show k + 1 ≤ i by omega)
    omega
  refine ⟨i, k, le, before, lowFirst, by omega, by omega, by omega, filter_range (by omega) ?_⟩
  intro p below
  have here : inst.requirePorts[p]? = some inst.requirePorts[p] := List.getElem?_eq_getElem below
  generalize inst.requirePorts[p] = port at here
  have next := offsetOf_next here
  have reaches : Overlaps inst offset size p ↔
      offsetOf inst.requirePorts p < offset + size ∧ offset < offsetOf inst.requirePorts (p + 1) := by
    rw [next, ← ports.offset p port here, Overlaps, here]
    simp
  rw [reaches]
  constructor
  · rintro ⟨low, high⟩
    refine ⟨?_, ?_⟩
    · by_contra earlier
      have le := offsetOf_mono inst.requirePorts (show p + 1 ≤ i by omega)
      omega
    · by_contra later
      have le := offsetOf_mono inst.requirePorts (show k + 1 ≤ p by omega)
      omega
  · rintro ⟨low, high⟩
    have fromFirst := offsetOf_mono inst.requirePorts (show i + 1 ≤ p + 1 by omega)
    have toLast := offsetOf_mono inst.requirePorts (show p ≤ k by omega)
    omega

/-- The regions of neighbouring ports make up the place between them. -/
theorem sum_portWrites {i j : Nat} (le : i ≤ j) (inside : j ≤ inst.requirePorts.length) :
    (((List.range' i (j - i)).filterMap (portWrite inst)).map fun call => call.2.length).sum =
      offsetOf inst.requirePorts j - offsetOf inst.requirePorts i := by
  induction count : j - i generalizing i with
  | zero =>
    obtain rfl : i = j := by omega
    rw [Nat.sub_self]
    rfl
  | succ n ih =>
    have before : i < inst.requirePorts.length := by omega
    have here : inst.requirePorts[i]? = some inst.requirePorts[i] := List.getElem?_eq_getElem before
    generalize inst.requirePorts[i] = port at here
    have next := offsetOf_next here
    have later := offsetOf_mono inst.requirePorts (show i + 1 ≤ j by omega)
    have last := offsetOf_mono inst.requirePorts inside
    rw [offsetOf_length, ← ports.area] at last
    rw [List.range'_succ, List.filterMap_cons_some (ports.portWrite_eq here), List.map_cons, List.sum_cons,
      ih (by omega) (by omega), slice_length (by omega)]
    omega

theorem aligned_iff {offset size i k : Nat} (le : i ≤ k) (before : k < inst.requirePorts.length)
    (first : offsetOf inst.requirePorts i ≤ offset ∧ offset < offsetOf inst.requirePorts (i + 1))
    (last : offsetOf inst.requirePorts k < offset + size ∧ offset + size ≤ offsetOf inst.requirePorts (k + 1)) :
    AlignedWrite inst offset size ↔
      offsetOf inst.requirePorts i = offset ∧ offsetOf inst.requirePorts (k + 1) = offset + size := by
  constructor
  · rintro ⟨⟨port, mem, start⟩, ⟨port', mem', stop⟩⟩
    obtain ⟨p, here⟩ := List.mem_iff_getElem?.mp mem
    obtain ⟨q, here'⟩ := List.mem_iff_getElem?.mp mem'
    have taken := ports.positive port mem
    have taken' := ports.positive port' mem'
    have next := offsetOf_next here
    have next' := offsetOf_next here'
    rw [ports.offset p port here] at start
    rw [ports.offset q port' here'] at stop
    have one : p = i := by
      rcases Nat.lt_trichotomy p i with earlier | same | later
      · have le := offsetOf_mono inst.requirePorts (show p + 1 ≤ i by omega)
        omega
      · exact same
      · have le := offsetOf_mono inst.requirePorts (show i + 1 ≤ p by omega)
        omega
    have two : q = k := by
      rcases Nat.lt_trichotomy q k with earlier | same | later
      · have le := offsetOf_mono inst.requirePorts (show q + 1 ≤ k by omega)
        omega
      · exact same
      · have le := offsetOf_mono inst.requirePorts (show k + 1 ≤ q by omega)
        omega
    subst one two
    omega
  · rintro ⟨start, stop⟩
    have here : inst.requirePorts[i]? = some inst.requirePorts[i] := List.getElem?_eq_getElem (by omega)
    have here' : inst.requirePorts[k]? = some inst.requirePorts[k] := List.getElem?_eq_getElem before
    have next := offsetOf_next here'
    refine ⟨⟨_, List.mem_of_getElem? here, ?_⟩, ⟨_, List.mem_of_getElem? here', ?_⟩⟩
    · rw [ports.offset i _ here, start]
    · rw [ports.offset k _ here', ← next, stop]

end ClientPorts

theorem ClientPorts.write {inst : NodeInstance} {offset : Nat} {data : Bytes} (ports : ClientPorts inst)
    (inside : offset + data.length ≤ (inst.requirePortData.getD []).length) :
    ClientPorts { inst with requirePortData := inst.requirePortData.map fun area => splice area offset data } := by
  have area := ports.area
  refine ⟨ports.client, ports.positive, ports.offset, ?_, ports.fits, ports.maps⟩
  cases data_ : inst.requirePortData with
  | none =>
    rw [data_] at area
    exact area
  | some old =>
    rw [data_] at area inside
    exact (splice_length inside).trans area

/-- The function that is called is the one for the data after the write. -/
theorem ClientPorts.process_eq {node : NotifiedNode} (ports : ClientPorts node.inst) {offset : Nat} {data : Bytes}
    (inside : offset + data.length ≤ (node.inst.requirePortData.getD []).length) : ∃ node', node'.inst =
        { node.inst with requirePortData := node.inst.requirePortData.map fun area => splice area offset data } ∧
      processRemoteWriteRequirePortData node offset data =
        (triggerRequirePortWriteCallbacks node'.inst offset data).map fun result =>
          result.lift fun calls => (node', calls) := by
  have same : (if node.requirePortDataState = .waitingForFileData then
      { node with requirePortDataState := .connected } else node).inst = node.inst := by
    split <;> rfl
  refine ⟨{ (if node.requirePortDataState = .waitingForFileData then
      { node with requirePortDataState := .connected } else node) with inst := _ }, rfl, ?_⟩
  simp only [processRemoteWriteRequirePortData, same, NodeInstance.writeRequirePortData,
    if_neg (Nat.not_lt.mpr inside), ports.client, if_true]

/-- A write reports whole ports exactly when it is aligned. -/
theorem ClientPorts.reports_iff {node : NotifiedNode} (ports : ClientPorts node.inst) {offset : Nat} {data : Bytes}
    (some_ : data ≠ []) (inside : offset + data.length ≤ (node.inst.requirePortData.getD []).length) :
    ReportsWholePorts node offset data ↔ AlignedWrite node.inst offset data.length := by
  have room := inside
  obtain ⟨node', after, process⟩ := ports.process_eq inside
  have written := ports.write inside
  have same : node'.inst.requirePorts = node.inst.requirePorts := by rw [after]
  have positive := List.length_pos_iff.mpr some_
  have stored : node'.inst.requirePortData.getD [] = splice (node.inst.requirePortData.getD []) offset data := by
    rw [after]
    cases missing : node.inst.requirePortData with
    | none =>
      rw [missing, Option.getD_none, List.length_nil] at room
      omega
    | some area => rfl
  rw [← after] at written
  have length : (node'.inst.requirePortData.getD []).length = (node.inst.requirePortData.getD []).length := by
    rw [written.area, ports.area, same]
  have fits := written.fits
  rw [← length, written.area] at inside
  obtain ⟨i, k, le, before, low, high, lowLast, highLast, reached⟩ :=
    written.overlapping positive (by rw [written.area]; exact inside)
  have mapped : node'.inst.bytePortMap ≠ none := by
    intro missing
    have here : node'.inst.requirePorts[k]? = some node'.inst.requirePorts[k] := List.getElem?_eq_getElem before
    have found := written.lookup here
    have small := le_offsetOf written.positive (Nat.le_of_lt before)
    rw [missing, BytePortMap.lookup, invalidPortId] at found
    omega
  have alignedIff : AlignedWrite node.inst offset data.length ↔
      offsetOf node'.inst.requirePorts i = offset ∧
        offsetOf node'.inst.requirePorts (k + 1) = offset + data.length := by
    rw [← written.aligned_iff le before ⟨low, high⟩ ⟨lowLast, highLast⟩]
    constructor
    · rintro ⟨start, stop⟩
      exact ⟨same ▸ start, same ▸ stop⟩
    · rintro ⟨start, stop⟩
      exact ⟨same ▸ start, same ▸ stop⟩
  have small : u32 (offset + data.length) = offset + data.length := u32_of_lt (by omega)
  rw [alignedIff, ReportsWholePorts, process, triggerRequirePortWriteCallbacks, if_neg mapped, small]
  constructor
  · rintro ⟨result, done, -, reports⟩
    obtain ⟨calls, called, rfl⟩ := Option.map_eq_some_iff.mp done
    obtain ⟨more, state, fits⟩ := triggerLoop_calls _ _ _ _ _ called
    have all : more = portsWritten node'.inst offset data.length := by
      cases calls with
      | ok value s => exact state.symm.trans reports
      | fail failure s => exact state.symm.trans reports
    rw [all, portsWritten, reached, written.sum_portWrites (by omega) (by omega)] at fits
    omega
  · rintro ⟨start, stop⟩
    have received : data = slice (node'.inst.requirePortData.getD []) (offsetOf node'.inst.requirePorts i)
        (offsetOf node'.inst.requirePorts (k + 1) - offsetOf node'.inst.requirePorts i) := by
      rw [start, stop, Nat.add_sub_cancel_left, stored, slice_splice room]
    have loop := written.triggerLoop_aligned (show i ≤ k + 1 by omega) (by omega) received []
    rw [start, stop] at loop
    rw [loop]
    have succeeds : (none : Option Failure) ≠ some .outOfBounds := by decide
    refine ⟨_, rfl, succeeds, ?_⟩
    have expected : portsWritten node'.inst offset data.length =
        (List.range' i (k + 1 - i)).filterMap (portWrite node'.inst) := by rw [portsWritten, reached]
    exact expected.symm

/-! Every node that is built in client mode -/

theorem buildNodeInstance_mode {dtl : Dtl} {fuel : Nat} {mode : Mode} {instances : PortMemory}
    {memory : ScalarWord} {node : Node} {inst : NodeInstance}
    (done : buildNodeInstance dtl fuel mode instances memory node = some (.ok inst)) : inst.mode = mode := by
  unfold buildNodeInstance at done
  split at done
  · simp at done
  split at done
  · simp at done
  · simp at done
  split at done
  · simp at done
  split at done
  · simp at done
  split at done
  · simp at done
  · cases done
    rfl

/-- A node that a build in client mode has left, whatever its require port data holds by now -/
def BuiltForClient (inst : NodeInstance) : Prop :=
  ∃ (dtl : Dtl) (fuel : Nat) (instances : PortMemory) (memory : ScalarWord) (node : Node) (built : NodeInstance),
    (∀ portType, ∀ port ∈ node.ports portType, ∀ value ∈ port.properInitValue, value.Representable) ∧
    buildNodeInstance dtl fuel .client instances memory node = some (.ok built) ∧
    (∀ portType, (dataSizes (built.ports portType)).sum < 2 ^ 32) ∧
    ∃ data : Bytes, data.length = (built.requirePortData.getD []).length ∧
      inst = { built with requirePortData := built.requirePortData.map fun _ => data }

theorem BuiltForClient.ports {inst : NodeInstance} (built : BuiltForClient inst) : ClientPorts inst := by
  obtain ⟨dtl, fuel, instances, memory, node, inst₀, representable, done, fits, data, length, rfl⟩ := built
  obtain ⟨required, -, mapped⟩ := buildNodeInstance_builtPorts representable done fits .require
  obtain ⟨map, made, maps⟩ := required.maps
  have same : inst₀.bytePortMap = map := Except.ok.inj ((mapped (.inr ⟨rfl, rfl⟩)).symm.trans made)
  have mode : inst₀.mode = .client := buildNodeInstance_mode done
  refine ⟨mode, required.positive, required.laidOut.offset, ?_, fits .require, ?_⟩
  · have size := required.laidOut.size
    change (inst₀.requirePortData.getD []).length = _ at size
    cases area : inst₀.requirePortData with
    | none =>
      rw [area] at size
      exact size
    | some old =>
      rw [area] at size length
      exact length.trans size
  · rw [same]
    exact maps

/-- In a node that was built in client mode, a write inside of the require port data reports whole ports
exactly when it is aligned. -/
theorem reportsWholePorts_iff {node : NotifiedNode} (built : BuiltForClient node.inst) {offset : Nat} {data : Bytes}
    (some_ : data ≠ []) (inside : offset + data.length ≤ (node.inst.requirePortData.getD []).length) :
    ReportsWholePorts node offset data ↔ AlignedWrite node.inst offset data.length :=
  built.ports.reports_iff some_ inside

def callbackNode : Node where
  providePorts := []
  requirePorts := [
    { name := .a, dataElement := .leaf none .uint16 0 false none,
      effectiveElement := some (.leaf none .uint16 0 false none) },
    { name := .b, dataElement := .leaf none .uint8 0 false none,
      effectiveElement := some (.leaf none .uint8 0 false none) }]

def callbackBuilt : Option (Except Failure NodeInstance) :=
  buildNodeInstance .numeric 3 .client (fun _ _ => {}) 0 callbackNode

theorem callbackBuilt_built : ∃ inst, BuiltForClient inst ∧ inst.requirePortData = some [0, 0, 0] ∧
    inst.requirePorts.map (fun port => (port.dataOffset, port.dataSize)) = [(0, 2), (2, 1)] := by
  have builds : (callbackBuilt.bind Except.toOption).map (fun inst => (inst.requirePortData,
      inst.requirePorts.map (fun port => (port.dataOffset, port.dataSize)), dataSizes inst.providePorts,
      dataSizes inst.requirePorts)) = some (some [0, 0, 0], [(0, 2), (2, 1)], [], [2, 1]) := by decide +kernel
  obtain ⟨inst, done, found⟩ := Option.map_eq_some_iff.mp builds
  obtain ⟨result, built, ok⟩ := Option.bind_eq_some_iff.mp done
  cases result with
  | error failure => contradiction
  | ok inst' =>
    cases ok
    simp only [Prod.mk.injEq] at found
    obtain ⟨area, places, provides, requires⟩ := found
    have fits : ∀ portType, (dataSizes (inst.ports portType)).sum < 2 ^ 32 := by
      intro portType
      cases portType with
      | provide => exact provides ▸ by decide
      | require => exact requires ▸ by decide
    have representable : ∀ portType, ∀ port ∈ callbackNode.ports portType, ∀ value ∈ port.properInitValue,
        value.Representable := by
      intro portType port mem value given
      cases portType with
      | provide => contradiction
      | require =>
        have none_ : port.properInitValue = none := by
          rcases List.mem_pair.mp mem with rfl | rfl <;> rfl
        rw [none_] at given
        contradiction
    refine ⟨inst, ⟨_, _, _, _, _, inst, representable, built, fits, [0, 0, 0], ?_, ?_⟩, area, places⟩
    · rw [area]
      rfl
    · rw [show (inst.requirePortData.map fun _ => ([0, 0, 0] : Bytes)) = inst.requirePortData by rw [area]; rfl]

/-- An aligned write of both ports -/
theorem reportsWholePorts_both : ∃ inst, BuiltForClient inst ∧
    ReportsWholePorts { inst := inst, requirePortDataState := .connected } 0 [1, 2, 3] := by
  obtain ⟨inst, built, area, places⟩ := callbackBuilt_built
  have inside : 0 + [(1 : Byte), 2, 3].length ≤ (inst.requirePortData.getD []).length := by
    rw [area]
    decide
  obtain ⟨first, memFirst, placeFirst⟩ := List.mem_map.mp
    (show (0, 2) ∈ inst.requirePorts.map fun port => (port.dataOffset, port.dataSize) by rw [places]; decide)
  obtain ⟨second, memSecond, placeSecond⟩ := List.mem_map.mp
    (show (2, 1) ∈ inst.requirePorts.map fun port => (port.dataOffset, port.dataSize) by rw [places]; decide)
  rw [Prod.mk.injEq] at placeFirst placeSecond
  refine ⟨inst, built, (@reportsWholePorts_iff ⟨inst, .connected⟩ built 0 [1, 2, 3] (by simp) inside).mpr
    ⟨⟨first, memFirst, placeFirst.1⟩, ⟨second, memSecond, ?_⟩⟩⟩
  rw [placeSecond.1, placeSecond.2]
  rfl

/-- A write of the second byte of the first port: the callback is given two bytes from there on. -/
theorem not_reportsWholePorts : ¬∀ (node : NotifiedNode) (offset : Nat) (data : Bytes), BuiltForClient node.inst →
    data ≠ [] → offset + data.length ≤ (node.inst.requirePortData.getD []).length →
    ReportsWholePorts node offset data := by
  intro all
  obtain ⟨inst, built, area, places⟩ := callbackBuilt_built
  have inside : 1 + [(7 : Byte)].length ≤ (inst.requirePortData.getD []).length := by
    rw [area]
    decide
  obtain ⟨port, mem, start⟩ := ((@reportsWholePorts_iff ⟨inst, .connected⟩ built 1 [7] (by simp) inside).mp
    (all ⟨inst, .connected⟩ 1 [7] built (by simp) inside)).start
  have there : (port.dataOffset, port.dataSize) ∈ [(0, 2), (2, 1)] := by
    rw [← places]
    exact List.mem_map_of_mem mem
  rw [start] at there
  simp at there

end Apx
