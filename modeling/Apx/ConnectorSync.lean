import Apx.RoutingSync

/-! Writes to the provide ports of a connected node, and what the require ports that are connected to
them hold behind a write. -/

namespace Apx

open LittleEndian

namespace Server

/-- Every connector of the node holds what its provide port holds. -/
def InSync (s : Server) (n : Nat) : Prop :=
  ∀ p, ∀ ref ∈ s.connectors n p, s.held .require ref = s.held .provide ⟨n, p⟩

/-- No byte of the require port data has changed but those of the connectors of the node. -/
def OthersKept (s s' : Server) (n : Nat) : Prop :=
  ∀ m i, (∀ p, ∀ ref ∈ s.connectors n p, ¬s.InPort ref m i) →
    (s'.area .require m)[i]? = (s.area .require m)[i]?

/-- A write from remote returns, reads no byte behind the received data, and leaves the connectors of
the node in sync and all else alone. -/
def KeepsInSync (s : Server) (n offset : Nat) (data : Bytes) : Prop :=
  ∃ fuel s', s.processRemoteWriteProvidePortData fuel n offset data = some (.ok () s') ∧
    s'.InSync n ∧ OthersKept s s' n

/-- The places that the loop over a write comes to -/
def writeSteps (s : Server) (n offset size : Nat) : List (Nat × Nat) :=
  steps (s.nodes n).inst.bytePortMap ((s.nodes n).ports .provide) (offset + size) (size + 1) offset

/-- Where a write comes to a provide port with a connector, the received data go on for the whole size of
the port and are what the port holds behind the write. The write leaves a port with a connector as it
was if it does not come to it. -/
structure WriteCarries (s : Server) (n offset : Nat) (data : Bytes) : Prop where
  fits : ∀ step ∈ s.writeSteps n offset data.length, s.connectors n step.2 ≠ [] → ∀ port,
    ((s.nodes n).ports .provide)[step.2]? = some port →
      step.1 + port.dataSize ≤ offset + data.length
  reached : ∀ p port, ((s.nodes n).ports .provide)[p]? = some port → ∀ ref ∈ s.connectors n p,
    ∀ step, s.lastStep n ref (s.writeSteps n offset data.length) = some step →
      slice data (step.1 - offset) port.dataSize =
        slice (splice (s.area .provide n) offset data) port.dataOffset port.dataSize
  passed : ∀ p port, ((s.nodes n).ports .provide)[p]? = some port → ∀ ref ∈ s.connectors n p,
    s.lastStep n ref (s.writeSteps n offset data.length) = none →
      slice (splice (s.area .provide n) offset data) port.dataOffset port.dataSize =
        slice (s.area .provide n) port.dataOffset port.dataSize

/-- More passes through the loop do not change its result. -/
theorem routeChange_mono {n endOffset fuel more : Nat} (le : fuel ≤ more) {s : Server}
    {retval : Option Failure} {offset : Nat} {data : Bytes} {result : Result Server Unit}
    (done : routeChange takesAll n endOffset fuel s retval offset data = some result) :
    routeChange takesAll n endOffset more s retval offset data = some result := by
  induction fuel generalizing more s retval offset data with
  | zero => contradiction
  | succ fuel ih =>
    cases more with
    | zero => omega
    | succ more =>
      simp only [routeChange] at done ⊢
      by_cases going : offset < endOffset
      · rw [if_pos going] at done ⊢
        by_cases invalid : BytePortMap.lookup (s.nodes n).inst.bytePortMap offset = invalidPortId
        · rw [if_pos invalid] at done ⊢
          exact done
        · rw [if_neg invalid] at done ⊢
          cases port : ((s.nodes n).ports .provide)[BytePortMap.lookup
              (s.nodes n).inst.bytePortMap offset]? with
          | none =>
            rw [port] at done
            exact ih (by omega) done
          | some provide =>
            rw [port] at done
            simp only at done ⊢
            by_cases empty : provide.dataSize = 0
            · rw [if_pos empty] at done ⊢
              exact done
            · rw [if_neg empty] at done ⊢
              split at done
              · exact done
              · split at done
                · exact done
                · exact ih (by omega) done
      · rw [if_neg going] at done ⊢
        exact done

theorem processRemoteWriteProvidePortData_unique {s : Server} {fuel fuel' n offset : Nat} {data : Bytes}
    {result result' : Result Server Unit}
    (one : s.processRemoteWriteProvidePortData fuel n offset data = some result)
    (two : s.processRemoteWriteProvidePortData fuel' n offset data = some result') :
    result = result' := by
  have mono {fuel more : Nat} (le : fuel ≤ more) {result : Result Server Unit}
      (done : s.processRemoteWriteProvidePortData fuel n offset data = some result) :
      s.processRemoteWriteProvidePortData more n offset data = some result := by
    unfold processRemoteWriteProvidePortData at done ⊢
    cases state : (s.nodes n).state .provide <;> rw [state] at done <;> try exact done
    cases wrote : s.writeProvidePortData n offset data with
    | fail failure s₁ =>
      rw [wrote] at done
      exact done
    | ok _ s₁ =>
      rw [wrote] at done
      simp only [routeProvidePortDataChangeToReceivers] at done ⊢
      by_cases missing : (s₁.nodes n).inst.bytePortMap = none
      · rw [if_pos missing] at done ⊢
        exact done
      · rw [if_neg missing] at done ⊢
        exact routeChange_mono le done
  have one := mono (Nat.le_max_left fuel fuel') one
  have two := mono (Nat.le_max_right fuel fuel') two
  exact Option.some.inj (one.symm.trans two)

theorem Routed.held_reached {s s' : Server} {n offset size : Nat} {data : Bytes}
    {steps : List (Nat × Nat)} {ref : PortRef} {step : Nat × Nat}
    (routed : s.Routed s' n offset data steps) (receives : s.Receives ref size)
    (last : s.lastStep n ref steps = some step) :
    s'.held .require ref = slice data (step.1 - offset) size := by
  obtain ⟨port, here, rfl, -⟩ := receives.port
  rw [held, routed.same.port, here]
  apply List.ext_getElem?
  intro i
  rw [slice_getElem?, slice_getElem?]
  by_cases inside : i < port.dataSize
  · rw [if_pos inside, if_pos inside,
      routed.ports ref step last port here (port.dataOffset + i) (by omega) (by omega),
      Nat.add_sub_cancel_left]
  · rw [if_neg inside, if_neg inside]

theorem Routed.held_passed {s s' : Server} {n offset : Nat} {data : Bytes} {steps : List (Nat × Nat)}
    {ref : PortRef} (routed : s.Routed s' n offset data steps)
    (arranged : ∀ n, s.Arranged .require n) (last : s.lastStep n ref steps = none) :
    s'.held .require ref = s.held .require ref := by
  rw [held, held, routed.same.port]
  cases here : s.port .require ref with
  | none => rfl
  | some port =>
    apply List.ext_getElem?
    intro i
    simp only [slice_getElem?]
    by_cases inside : i < port.dataSize
    · rw [if_pos inside, if_pos inside]
      apply routed.others
      intro step mem ref' connector inPort
      have inRef : s.InPort ref ref.node (port.dataOffset + i) :=
        ⟨rfl, port, here, by omega, by omega⟩
      obtain rfl := inPort_unique arranged inPort inRef
      exact lastStep_eq_none.mp last step mem connector
    · rw [if_neg inside, if_neg inside]

/-- A node with provide ports has a byte port map. -/
theorem Provider.mapped {s : Server} {n : Nat} (provider : s.Provider n) :
    (s.nodes n).inst.bytePortMap ≠ none := by
  intro missing
  obtain ⟨port, rest, ports⟩ := List.exists_cons_of_ne_nil provider.nonempty
  have first : ((s.nodes n).ports .provide)[0]? = some port := by
    rw [ports]
    rfl
  have taken := provider.positive port (List.mem_of_getElem? first)
  have found := (provider.maps.inside 0 port first port.dataOffset).mpr ⟨Nat.le_refl _, by omega⟩
  rw [missing] at found
  contradiction

/-- A write to a connected node inside of its area, up to the result of the loop -/
theorem processRemoteWriteProvidePortData_routed {s : Server} {n offset : Nat} {data : Bytes}
    (connected : (s.nodes n).state .provide = .connected) (provider : s.Provider n)
    (arranged : ∀ n, s.Arranged .require n) (receivers : s.Connected n)
    (inside : offset + data.length ≤ (s.area .provide n).length) :
    ∃ s₁, SameButData s s₁ ∧ s₁.area .provide n = splice (s.area .provide n) offset data ∧
      (∀ m, s₁.area .require m = s.area .require m) ∧
      let steps := s.writeSteps n offset data.length
      let Fits := ∀ step ∈ steps, s.connectors n step.2 ≠ [] → ∀ port,
        ((s.nodes n).ports .provide)[step.2]? = some port →
          step.1 + port.dataSize ≤ offset + data.length
      (Fits → ∃ s', s.processRemoteWriteProvidePortData (data.length + 1) n offset data =
          some (.ok () s') ∧ s₁.Routed s' n offset data steps) ∧
      (¬Fits → ∃ s', s.processRemoteWriteProvidePortData (data.length + 1) n offset data =
        some (.fail .outOfBounds s')) := by
  obtain ⟨s₁, wrote, same, written, others⟩ := writePortData_ok inside
  refine ⟨s₁, same, written, fun m => others .require m (.inl PortType.noConfusion), ?_⟩
  have mapped := (same.provider provider).mapped
  have word : u32 (offset + data.length) = offset + data.length :=
    Nat.mod_eq_of_lt (Nat.lt_of_le_of_lt inside provider.fits)
  have call : s.processRemoteWriteProvidePortData (data.length + 1) n offset data =
      routeChange takesAll n (offset + data.length) (data.length + 1) s₁ none offset data := by
    rw [processRemoteWriteProvidePortData, connected]
    simp only [writeProvidePortData, wrote, routeProvidePortDataChangeToReceivers, if_neg mapped, word]
  have looped := routeChange_routed (same.provider provider) (same.connected receivers)
    (fun m => same.arranged (arranged m)) (by rw [same.length]; exact inside)
    (show data.length = offset + data.length - offset by omega)
    (show offset + data.length - offset < data.length + 1 by omega)
  have map : (s₁.nodes n).inst.bytePortMap = (s.nodes n).inst.bytePortMap := by
    obtain ⟨_, _, node⟩ := same.node n
    rw [node]
  simp only [same.ports, same.connectors, map] at looped
  rw [call]
  exact looped

/-- A write to a provide port area keeps the connectors in sync exactly when it carries to every provide
port what it leaves in it. -/
theorem processRemoteWriteProvidePortData_keepsInSync_iff {s : Server} {n offset : Nat} {data : Bytes}
    (connected : (s.nodes n).state .provide = .connected) (provider : s.Provider n)
    (arranged : ∀ n, s.Arranged .require n) (receivers : s.Connected n) (inSync : s.InSync n)
    (inside : offset + data.length ≤ (s.area .provide n).length) :
    s.KeepsInSync n offset data ↔ s.WriteCarries n offset data := by
  obtain ⟨s₁, same, written, kept, routes, beyond⟩ :=
    processRemoteWriteProvidePortData_routed connected provider arranged receivers inside
  have arranged₁ (m : Nat) : s₁.Arranged .require m := same.arranged (arranged m)
  -- what both sides of the routing hold behind it
  have provided {s' : Server} (routed : s₁.Routed s' n offset data (s.writeSteps n offset data.length))
      {p : Nat} {port : PortInstance} (here : ((s.nodes n).ports .provide)[p]? = some port) :
      s'.held .provide ⟨n, p⟩ =
        slice (splice (s.area .provide n) offset data) port.dataOffset port.dataSize := by
    have here' : s.port .provide ⟨n, p⟩ = some port := here
    rw [held, routed.same.port, same.port, here']
    simp only
    rw [routed.provided, written]
  have before {p : Nat} {port : PortInstance} (here : ((s.nodes n).ports .provide)[p]? = some port)
      {ref : PortRef} (connector : ref ∈ s.connectors n p) :
      s₁.held .require ref = slice (s.area .provide n) port.dataOffset port.dataSize := by
    have here' : s.port .provide ⟨n, p⟩ = some port := here
    have sync := inSync p ref connector
    rw [held, held, here'] at sync
    rw [held, same.port, kept, sync]
  constructor
  · rintro ⟨fuel, s', done, sync, -⟩
    by_cases fits : ∀ step ∈ s.writeSteps n offset data.length, s.connectors n step.2 ≠ [] → ∀ port,
        ((s.nodes n).ports .provide)[step.2]? = some port →
          step.1 + port.dataSize ≤ offset + data.length
    swap
    · obtain ⟨s'', failed⟩ := beyond fits
      cases processRemoteWriteProvidePortData_unique done failed
    obtain ⟨s'', done', routed⟩ := routes fits
    cases processRemoteWriteProvidePortData_unique done done'
    have equal {p : Nat} {ref : PortRef} (connector : ref ∈ s.connectors n p) :
        s'.held .require ref = s'.held .provide ⟨n, p⟩ := by
      apply sync p ref
      rw [routed.same.connectors, same.connectors]
      exact connector
    refine ⟨fits, ?_, ?_⟩
    · intro p port here ref connector step last
      have receives := same.receives (receivers p port here ref connector).2
      rw [← provided routed here, ← equal connector,
        routed.held_reached receives ((same.lastStep n ref _).trans last)]
    · intro p port here ref connector last
      rw [← provided routed here, ← equal connector,
        routed.held_passed arranged₁ ((same.lastStep n ref _).trans last), before here connector]
  · intro carries
    obtain ⟨s', done, routed⟩ := routes carries.fits
    refine ⟨data.length + 1, s', done, ?_, ?_⟩
    · intro p ref connector
      rw [routed.same.connectors, same.connectors] at connector
      obtain ⟨port, here⟩ : ∃ port, ((s.nodes n).ports .provide)[p]? = some port := by
        have listed : p < (s.nodes n).connectorTable.length := by
          by_contra beyond
          rw [connectors, List.getElem?_eq_none (by omega)] at connector
          exact List.not_mem_nil connector
        exact ⟨_, List.getElem?_eq_getElem (provider.table ▸ listed)⟩
      rw [provided routed here]
      cases last : s.lastStep n ref (s.writeSteps n offset data.length) with
      | some step =>
        have receives := same.receives (receivers p port here ref connector).2
        rw [routed.held_reached receives ((same.lastStep n ref _).trans last)]
        exact carries.reached p port here ref connector step last
      | none =>
        rw [routed.held_passed arranged₁ ((same.lastStep n ref _).trans last), before here connector]
        exact (carries.passed p port here ref connector last).symm
    · intro m i outside
      rw [routed.others m i, kept]
      intro step _ ref connector inPort
      rw [same.connectors] at connector
      exact outside step.2 ref connector ((same.inPort ref m i).mp inPort)

/-! Writes of whole ports -/

theorem offsetOf_next {instances : List PortInstance} {p : Nat} {inst : PortInstance}
    (here : instances[p]? = some inst) :
    offsetOf instances (p + 1) = offsetOf instances p + inst.dataSize := by
  induction instances generalizing p with
  | nil => contradiction
  | cons head rest ih =>
    rw [offsetOf_succ]
    cases p with
    | zero =>
      cases here
      simp
    | succ p =>
      rw [ih here, offsetOf_succ, Nat.add_assoc]

theorem offsetOf_length (instances : List PortInstance) :
    offsetOf instances instances.length = (dataSizes instances).sum := by
  rw [offsetOf, List.take_of_length_le (by simp [dataSizes])]

theorem offsetOf_mono (instances : List PortInstance) {p q : Nat} (le : p ≤ q) :
    offsetOf instances p ≤ offsetOf instances q := by
  induction instances generalizing p q with
  | nil => simp [offsetOf]
  | cons head rest ih =>
    cases p with
    | zero => simp
    | succ p =>
      cases q with
      | zero => omega
      | succ q =>
        rw [offsetOf_succ, offsetOf_succ]
        have below := ih (Nat.le_of_succ_le_succ le)
        omega

/-- A write of the ports from `a` up to `b` comes to the start of each of them. -/
theorem steps_wholePorts {s : Server} {n : Nat} (provider : s.Provider n) {a b fuel : Nat} (le : a ≤ b)
    (last : b ≤ ((s.nodes n).ports .provide).length)
    (enough : offsetOf ((s.nodes n).ports .provide) b - offsetOf ((s.nodes n).ports .provide) a < fuel) :
    steps (s.nodes n).inst.bytePortMap ((s.nodes n).ports .provide)
      (offsetOf ((s.nodes n).ports .provide) b) fuel (offsetOf ((s.nodes n).ports .provide) a) =
    (List.range' a (b - a)).map fun p => (offsetOf ((s.nodes n).ports .provide) p, p) := by
  induction fuel generalizing a with
  | zero => omega
  | succ fuel ih =>
    rw [steps]
    by_cases more : a < b
    · have here : ((s.nodes n).ports .provide)[a]? = some ((s.nodes n).ports .provide)[a] :=
        List.getElem?_eq_getElem (by omega)
      have next := offsetOf_next here
      have taken := provider.positive _ (List.mem_of_getElem? here)
      have above := offsetOf_mono ((s.nodes n).ports .provide) (show a + 1 ≤ b from more)
      have found := (provider.maps.inside a _ here (offsetOf ((s.nodes n).ports .provide) a)).mpr (by
        rw [provider.arranged.offset a _ here]
        omega)
      rw [if_pos (by omega), found, here]
      simp only
      rw [← next, ih (a := a + 1) more (by omega), show b - a = (b - (a + 1)) + 1 by omega, List.range'_succ,
        List.map_cons]
    · obtain rfl : a = b := by omega
      rw [if_neg (Nat.lt_irrefl _), Nat.sub_self]
      rfl

/-- Whole ports reach their connectors, if none of these is connected to two provide ports of the node. -/
theorem writeCarries_of_wholePorts {s : Server} {n : Nat} {data : Bytes} (provider : s.Provider n)
    (unique : ∀ p q, ∀ ref ∈ s.connectors n p, ref ∈ s.connectors n q → p = q) {a b : Nat} (le : a ≤ b)
    (last : b ≤ ((s.nodes n).ports .provide).length)
    (length : offsetOf ((s.nodes n).ports .provide) a + data.length =
      offsetOf ((s.nodes n).ports .provide) b) :
    s.WriteCarries n (offsetOf ((s.nodes n).ports .provide) a) data := by
  have whole : s.writeSteps n (offsetOf ((s.nodes n).ports .provide) a) data.length =
      (List.range' a (b - a)).map fun p => (offsetOf ((s.nodes n).ports .provide) p, p) := by
    rw [writeSteps, length]
    exact steps_wholePorts provider le last (by omega)
  have visited {pos p : Nat} (mem : (pos, p) ∈ s.writeSteps n
      (offsetOf ((s.nodes n).ports .provide) a) data.length) :
      pos = offsetOf ((s.nodes n).ports .provide) p ∧ a ≤ p ∧ p < b := by
    rw [whole, List.mem_map] at mem
    obtain ⟨q, range, same⟩ := mem
    cases same
    rw [List.mem_range'_1] at range
    exact ⟨rfl, range.1, by omega⟩
  have inside : offsetOf ((s.nodes n).ports .provide) a + data.length ≤ (s.area .provide n).length := by
    rw [length, provider.arranged.size, ← offsetOf_length]
    exact offsetOf_mono _ last
  constructor
  · rintro ⟨pos, p⟩ mem - port here
    obtain ⟨rfl, low, high⟩ := visited mem
    have next := offsetOf_next here
    have above := offsetOf_mono ((s.nodes n).ports .provide) (show p + 1 ≤ b from high)
    rw [length, ← next]
    exact above
  · rintro p port here ref connector ⟨pos, q⟩ found
    obtain ⟨mem, connector'⟩ := mem_of_lastStep found
    obtain rfl := unique p q ref connector connector'
    obtain ⟨rfl, low, high⟩ := visited mem
    have next := offsetOf_next here
    have above := offsetOf_mono ((s.nodes n).ports .provide) (show p + 1 ≤ b from high)
    have below := offsetOf_mono ((s.nodes n).ports .provide) low
    rw [provider.arranged.offset p port here]
    apply List.ext_getElem?
    intro i
    rw [slice_getElem?, slice_getElem?]
    by_cases within : i < port.dataSize
    · rw [if_pos within, if_pos within, splice_getElem? inside, if_pos (by omega)]
      congr 1
      omega
    · rw [if_neg within, if_neg within]
  · intro p port here ref connector nowhere
    have outside : ¬(a ≤ p ∧ p < b) := by
      intro range
      apply lastStep_eq_none.mp nowhere (offsetOf ((s.nodes n).ports .provide) p, p) _ connector
      rw [whole, List.mem_map]
      exact ⟨p, List.mem_range'_1.mpr ⟨range.1, by omega⟩, rfl⟩
    have next := offsetOf_next here
    rw [provider.arranged.offset p port here]
    apply List.ext_getElem?
    intro i
    rw [slice_getElem?, slice_getElem?]
    by_cases within : i < port.dataSize
    · rw [if_pos within, if_pos within, splice_getElem? inside, if_neg]
      by_cases low : p < a
      · have below := offsetOf_mono ((s.nodes n).ports .provide) (show p + 1 ≤ a from low)
        omega
      · have above := offsetOf_mono ((s.nodes n).ports .provide) (show b ≤ p by omega)
        omega
    · rw [if_neg within, if_neg within]

/-! Nodes that were built meet what the routing needs. -/

theorem arranged_of_built {s : Server} {portType : PortType} {n : Nat} {dtl : Dtl} {ports : List Port}
    (built : BuiltPorts dtl portType ports ((s.nodes n).ports portType)
      ((s.nodes n).inst.portData portType)) : s.Arranged portType n where
  offset := built.laidOut.offset
  size := built.laidOut.size

theorem provider_of_built {s : Server} {n : Nat} {dtl : Dtl} {ports : List Port}
    (built : BuiltPorts dtl .provide ports ((s.nodes n).ports .provide)
      ((s.nodes n).inst.portData .provide))
    (mapped : newBytePortMap ((s.nodes n).ports .provide) ((s.nodes n).inst.portData .provide) =
      .ok (s.nodes n).inst.bytePortMap)
    (nonempty : (s.nodes n).ports .provide ≠ [])
    (fits : (s.area .provide n).length < 2 ^ 32)
    (table : (s.nodes n).connectorTable.length = ((s.nodes n).ports .provide).length) :
    s.Provider n where
  nonempty := nonempty
  arranged := arranged_of_built built
  positive := built.positive
  fits := fits
  maps := by
    obtain ⟨map, made, maps⟩ := built.maps
    rw [Except.ok.inj (mapped.symm.trans made)]
    exact maps
  table := table

/-! Two provide ports of two bytes, with a connector of the first one -/

def routedPort (portType : PortType) (portId dataOffset dataSize : Nat) : PortInstance :=
  { portType := portType, portId := portId, dataOffset := dataOffset, dataSize := dataSize }

def routedInstance (providePorts requirePorts : List PortInstance) (provided required : Option Bytes)
    (map : Option BytePortMap) : NodeInstance where
  mode := .server
  providePorts := providePorts
  requirePorts := requirePorts
  dataElements := []
  providePortInitData := none
  requirePortInitData := none
  providePortData := provided
  requirePortData := required
  bytePortMap := map

def pairProvider : ServerNode where
  connection := 0
  inst := routedInstance [routedPort .provide 0 0 2, routedPort .provide 1 2 2] [] (some [0, 0, 0, 0]) none
    (some [0, 0, 1, 1])
  state := fun _ => .connected
  connectorTable := [[⟨1, 0⟩], []]

def pairRequester : ServerNode where
  connection := 1
  inst := routedInstance [] [routedPort .require 0 0 2] none (some [0, 0]) none
  state := fun _ => .connected
  requirePortDataFile := some true

def pairServer : Server where
  nodes
    | 0 => pairProvider
    | _ => pairRequester

theorem pairServer_provider : pairServer.Provider 0 := by
  have offsets : ∀ p port, ((pairServer.nodes 0).ports .provide)[p]? = some port →
      port.dataOffset = offsetOf ((pairServer.nodes 0).ports .provide) p := by
    intro p port here
    match p with
    | 0 => cases here; rfl
    | 1 => cases here; rfl
    | p + 2 => contradiction
  have positive : ∀ port ∈ (pairServer.nodes 0).ports .provide, 0 < port.dataSize := by
    show ∀ port ∈ [routedPort .provide 0 0 2, routedPort .provide 1 2 2], 0 < port.dataSize
    simp [routedPort]
  obtain ⟨map, made, maps⟩ := @newBytePortMap_maps _ (some [0, 0, 0, 0]) offsets positive (by decide)
    rfl (iff_of_false (by decide) (by decide))
  obtain rfl : map = some [0, 0, 1, 1] := (Except.ok.inj made).symm
  exact ⟨by decide, ⟨offsets, rfl⟩, positive, by decide, maps, rfl⟩

theorem pairServer_arranged (n : Nat) : pairServer.Arranged .require n := by
  match n with
  | 0 => exact ⟨fun _ _ here => by contradiction, rfl⟩
  | n + 1 =>
    refine ⟨?_, rfl⟩
    intro p port here
    match p with
    | 0 => cases here; rfl
    | p + 1 => contradiction

theorem pairServer_connectors {p : Nat} {ref : PortRef} (connector : ref ∈ pairServer.connectors 0 p) :
    p = 0 ∧ ref = ⟨1, 0⟩ := by
  match p with
  | 0 => exact ⟨rfl, List.mem_singleton.mp connector⟩
  | 1 => exact absurd connector List.not_mem_nil
  | p + 2 => exact absurd connector List.not_mem_nil

theorem pairServer_connected : pairServer.Connected 0 := by
  intro p port here ref connector
  obtain ⟨rfl, rfl⟩ := pairServer_connectors connector
  cases here
  exact ⟨rfl, ⟨_, rfl, rfl, by decide⟩, rfl⟩

theorem pairServer_inSync : pairServer.InSync 0 := by
  intro p ref connector
  obtain ⟨rfl, rfl⟩ := pairServer_connectors connector
  rfl

/-- Both ports are written at once. -/
theorem processRemoteWriteProvidePortData_keepsInSync_pairServer :
    pairServer.KeepsInSync 0 0 [1, 2, 3, 4] := by
  apply (processRemoteWriteProvidePortData_keepsInSync_iff (s := pairServer) rfl pairServer_provider
    pairServer_arranged pairServer_connected pairServer_inSync (by decide)).mpr
  apply writeCarries_of_wholePorts pairServer_provider _ (Nat.zero_le 2) (Nat.le_refl 2) rfl
  intro p q ref connector connector'
  rw [(pairServer_connectors connector).1, (pairServer_connectors connector').1]

/-- Two bytes that begin in the middle of the first port arrive at the start of its connector. -/
theorem not_keepsInSync_of_offset : ¬∀ (s : Server) (n offset : Nat) (data : Bytes),
    (s.nodes n).state .provide = .connected → s.Provider n → (∀ n, s.Arranged .require n) →
    s.Connected n → s.InSync n → offset + data.length ≤ (s.area .provide n).length →
    s.KeepsInSync n offset data := by
  intro holds
  obtain ⟨fuel, s', done, sync, -⟩ := holds pairServer 0 1 [5, 6] rfl pairServer_provider
    pairServer_arranged pairServer_connected pairServer_inSync (by decide)
  have run : (pairServer.processRemoteWriteProvidePortData 3 0 1 [5, 6]).map (fun result =>
      (result.state.connectors 0 0, result.state.held .require ⟨1, 0⟩,
        result.state.held .provide ⟨0, 0⟩)) = some ([⟨1, 0⟩], [5, 6], [0, 5]) := by decide +kernel
  obtain ⟨result, done', found⟩ := Option.map_eq_some_iff.mp run
  cases processRemoteWriteProvidePortData_unique done done'
  simp only [Result.state, Prod.mk.injEq] at found
  have equal := sync 0 ⟨1, 0⟩ (by rw [found.1]; exact List.mem_singleton_self _)
  rw [found.2.1, found.2.2] at equal
  contradiction

end Server

end Apx
