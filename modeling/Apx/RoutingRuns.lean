import Apx.RoutingDisconnect

/-! The runs of a server whose clients keep to the protocol: who is connected to whom, and what the clients hold. -/

namespace Apx

open LittleEndian

namespace Server

/-- A call of a client that keeps to the protocol: a file is opened once, and nodes do not wait again behind their
connecting. Writes to the nodes `carried` carry to the ports what they leave in them. -/
def Proper (carried : Nat → Prop) (s : Server) : RoutingCall → Prop
  | .opened n => (s.nodes n).state .require ≠ .connected
  | .wrote n offset data => carried n → (s.nodes n).state .provide = .connected →
      offset + data.length ≤ (s.area .provide n).length → s.WriteCarries n offset data
  | .waits n portType _ =>
      (s.nodes n).state portType ≠ .connected ∧ (s.nodes n).state portType ≠ .disconnected
  | .left _ => True

/-- The states of a server in all its runs with such clients from a state on in which it has routed nothing, as long as
no signature has two providers -/
inductive Served (s₀ : Server) (carried : Nat → Prop) : Server → Prop
  | new (new : s₀.New) (built : s₀.WellBuilt) : Served s₀ carried s₀
  | call {s s' : Server} {call : RoutingCall} (before : Served s₀ carried s) (proper : s.Proper carried call)
      (calls : s.Calls call s') (oneProvider : s'.OneProvider) : Served s₀ carried s'

section
variable {carried : Nat → Prop} {s₀ s s' : Server}

theorem New.serving (new : s.New) (built : s.WellBuilt) : s.Serving carried := by
  have entries (signature : Bytes) (portType : PortType) : s.entryPorts signature portType = [] := by
    rw [Server.entryPorts, new.map]
    cases portType <;> rfl
  refine ⟨built, new.steady, fun signature portType => ?_, fun signature => ?_, ?_, ?_, ?_, ?_, ?_⟩
  · rw [entries]
    exact ⟨List.nodup_nil, fun ref mem => absurd mem List.not_mem_nil⟩
  · rw [entries]
    exact Nat.zero_le 1
  · exact fun n connected => absurd connected (new.state n .require)
  · exact fun provide _ connected => absurd connected (new.state provide.node .provide)
  · exact fun n _ _ p => new.connectors n p
  · exact fun n _ connected => absurd connected (new.state n .provide)
  · exact fun n connected => absurd connected (new.state n .require)

/-- A node that has not been connected waits for something else. -/
theorem Serving.waits (serving : s.Serving carried) {n : Nat} {portType : PortType} {state : DataState}
    (other : state ≠ .connected) (waited : (s.nodes n).state portType ≠ .connected)
    (waited' : (s.nodes n).state portType ≠ .disconnected) :
    (s.update n fun node => node.setState portType state).Serving carried := by
  let s' := s.update n fun node => node.setState portType state
  have same : SameData s s' := sameData_update s n rfl rfl
  have before {m : Nat} {portType' : PortType} (connected : (s'.nodes m).state portType' = .connected) :
      (s.nodes m).state portType' = .connected := by
    rw [state_update_setState] at connected
    split at connected
    · exact absurd connected other
    · exact connected
  refine ⟨same.sameBuild.wellBuilt serving.built, serving.steady.setState fun is => absurd is other, ?_,
    serving.oneProvider, ?_, ?_, ?_, ?_, ?_⟩
  · intro signature portType'
    obtain ⟨once, connected⟩ := serving.registered signature portType'
    refine ⟨once, fun ref mem => ?_⟩
    rw [state_update_setState, if_neg]
    · exact connected ref mem
    · rintro ⟨here, rfl⟩
      exact waited (here ▸ connected ref mem)
  · intro m connected
    rw [file_update_setState]
    exact serving.files m (before connected)
  · intro provide signature connected own
    rw [show s'.signature .provide provide = _ from same.sameBuild.signature .provide provide] at own
    rw [show s'.connectors provide.node provide.portId = _ from same.connectors _ _]
    exact serving.table provide signature (before connected) own
  · intro m apart apart' p
    rw [show s'.connectors m p = _ from same.connectors m p]
    rw [state_update_setState] at apart apart'
    split at apart
    · next here =>
      obtain ⟨rfl, rfl⟩ := here
      exact serving.waiting m waited waited' p
    · next here =>
      rw [if_neg here] at apart'
      exact serving.waiting m apart apart' p
  · intro m carries connected
    exact @InSync.of_held s s' m (serving.inSync m carries (before connected)) (same.connectors m)
      (fun p ref _ => same.held .require ref) fun p => same.held .provide ⟨m, p⟩
  · intro m connected
    exact (serving.mirrored m (before connected)).elsewhere (same.area .require m) rfl

theorem Calls.serving {call : RoutingCall} (calls : s.Calls call s') (serving : s.Serving carried)
    (proper : s.Proper carried call) (oneProvider : s'.OneProvider) : s'.Serving carried ∧ SameBuild s s' := by
  cases calls with
  | @opened n _ done =>
    have steady := openRequirePortDataFile_steady serving.steady done
    by_cases signed : s.Signed .require n
    · obtain ⟨s₁, done', opened⟩ :=
        openRequirePortDataFile_opened serving.built serving.steady serving.oneProvider signed
      rw [done'] at done
      obtain rfl := Option.some.inj done
      exact ⟨opened.serving serving steady proper, opened.build⟩
    · obtain ⟨s₁, failed⟩ := openRequirePortDataFile_unsigned serving.steady signed
      rw [failed] at done
      contradiction
  | wrote ends done => exact processRemoteWriteProvidePortData_serving serving ends done oneProvider proper
  | @waits n portType state other =>
    have same : SameData s (s.update n fun node => node.setState portType state) := sameData_update s n rfl rfl
    exact ⟨serving.waits other proper.1 proper.2, same.sameBuild⟩
  | left distinct => exact ⟨detachAllNodes_serving serving distinct, serving.detached_build distinct⟩

/-- What holds in all runs -/
theorem Served.holds (served : s₀.Served carried s) : s.Serving carried ∧ SameBuild s₀ s := by
  induction served with
  | new new built => exact ⟨new.serving built, .refl s₀⟩
  | call _ proper calls oneProvider ih =>
    obtain ⟨serving, build⟩ := ih
    obtain ⟨serving', build'⟩ := calls.serving serving proper oneProvider
    exact ⟨serving', build.trans build'⟩

theorem Served.serving (served : s₀.Served carried s) : s.Serving carried := served.holds.1

theorem Served.build (served : s₀.Served carried s) : SameBuild s₀ s := served.holds.2

end

/-! No call gets stuck. -/

/-- A call that a server has to answer: the ports of a node that connects have signatures, of which none is provided
already, and data lies in the area that it is for. -/
def Expected (s : Server) : RoutingCall → Prop
  | .opened n => (s.nodes n).state .require ≠ .connected ∧ s.Signed .require n
  | .wrote n offset data => offset + data.length ≤ (s.area .provide n).length ∧
      ((s.nodes n).state .provide = .waitingForFileData ∧ s.Signed .provide n ∧ s.Unclaimed n ∨
        (s.nodes n).state .provide = .connected ∧ (s.nodes n).ports .provide ≠ [] ∧ s.WriteCarries n offset data)
  | .waits n portType state => state ≠ .connected ∧
      (s.nodes n).state portType ≠ .connected ∧ (s.nodes n).state portType ≠ .disconnected
  | .left nodes => nodes.Nodup

/-- A call that ends without an error -/
inductive Completes (s : Server) : RoutingCall → Server → Prop
  | opened {n : Nat} {s' : Server} (done : s.openRequirePortDataFile n = .ok () s') : Completes s (.opened n) s'
  | wrote {fuel n offset : Nat} {data : Bytes} {s' : Server}
      (done : s.processRemoteWriteProvidePortData fuel n offset data = some (.ok () s')) :
      Completes s (.wrote n offset data) s'
  | waits {n : Nat} {portType : PortType} {state : DataState} (other : state ≠ .connected) :
      Completes s (.waits n portType state) (s.update n fun node => node.setState portType state)
  | left {nodes : List Nat} (distinct : nodes.Nodup) : Completes s (.left nodes) (s.detachAllNodes nodes)

section
variable {carried : Nat → Prop} {s₀ s s₁ s' : Server}

theorem Completes.calls {call : RoutingCall} (completes : s.Completes call s') : s.Calls call s' := by
  cases completes with
  | opened done => exact .opened (by rw [done]; rfl)
  | wrote done => exact .wrote done rfl
  | waits other => exact .waits other
  | left distinct => exact .left distinct

theorem Expected.proper {call : RoutingCall} (expected : s.Expected call) : s.Proper carried call := by
  cases call with
  | opened n => exact expected.1
  | wrote n offset data =>
    intro _ connected _
    rcases expected.2 with ⟨waits, -⟩ | ⟨-, -, carries⟩
    · rw [waits] at connected
      contradiction
    · exact carries
  | waits n portType state => exact expected.2
  | left nodes => trivial

theorem SameButData.signed (same : SameButData s s₁) {portType : PortType} {n : Nat} (signed : s.Signed portType n) :
    s₁.Signed portType n := by
  intro ref mem
  rw [Server.refs, same.ports, ← Server.refs] at mem
  rw [same.sameBuild.signature]
  exact signed ref mem

theorem SameButData.unclaimed (same : SameButData s s₁) (map : s₁.signatureMap = s.signatureMap) {n : Nat}
    (unclaimed : s.Unclaimed n) : s₁.Unclaimed n := by
  intro signature
  have refs : s₁.refs .provide n = s.refs .provide n := by rw [Server.refs, same.ports, Server.refs]
  have own (ref : PortRef) : s₁.signature .provide ref = s.signature .provide ref :=
    same.sameBuild.signature .provide ref
  simp only [Server.entryPorts, map, refs, own]
  exact unclaimed signature

theorem Serving.connects (serving : s.Serving carried) {n offset : Nat} {data : Bytes}
    (inside : offset + data.length ≤ (s.area .provide n).length)
    (waits : (s.nodes n).state .provide = .waitingForFileData) (signed : s.Signed .provide n)
    (unclaimed : s.Unclaimed n) :
    ∃ s', s.processRemoteWriteProvidePortData 0 n offset data = some (.ok () s') ∧ s'.OneProvider ∧ SameBuild s s' ∧
      ∀ m portType, (s'.nodes m).state portType =
        if m = n ∧ portType = .provide then .connected else (s.nodes m).state portType := by
  obtain ⟨s₁, wrote, same, written, others⟩ := writePortData_ok inside
  have routing := writePortData_sameRouting s .provide n offset data
  rw [wrote, Result.state_ok] at routing
  have serving₁ : s₁.Serving carried := serving.unread same routing
    (fun m => others .require m (.inl PortType.noConfusion)) (fun m other => others .provide m (.inr other))
    (Connecting.sent_of_write wrote) (.inl (by rw [waits]; exact DataState.noConfusion))
  have unclaimed₁ := same.unclaimed routing.map unclaimed
  obtain ⟨s', done, provided⟩ := connectProvidePorts_provided serving₁.built serving₁.steady serving₁.filesOfEntries
    (same.signed signed) unclaimed₁
  refine ⟨s', ?_, fun signature => ?_, same.sameBuild.trans provided.build, fun m portType => ?_⟩
  · rw [processRemoteWriteProvidePortData, waits]
    dsimp only
    rw [writeProvidePortData, wrote, Result.bind_ok, done]
  · rw [provided.provide]
    exact unclaimed₁ signature
  · rw [provided.state, routing.state]

/-- What is expected of a server ends without an error. -/
theorem Serving.completes (serving : s.Serving carried) {call : RoutingCall} (expected : s.Expected call) :
    ∃ s', s.Completes call s' ∧ s'.OneProvider := by
  cases call with
  | opened n =>
    obtain ⟨s', done, opened⟩ :=
      openRequirePortDataFile_opened serving.built serving.steady serving.oneProvider expected.2
    refine ⟨s', .opened done, fun signature => ?_⟩
    rw [opened.provide]
    exact serving.oneProvider signature
  | wrote n offset data =>
    obtain ⟨inside, ⟨waits, signed, unclaimed⟩ | ⟨connected, some_, carries⟩⟩ := expected
    · obtain ⟨s', done, oneProvider, -⟩ := serving.connects inside waits signed unclaimed
      exact ⟨s', .wrote done, oneProvider⟩
    · obtain ⟨s₁, -, -, -, routes, -⟩ := processRemoteWriteProvidePortData_routed connected
        (serving.built.provider n some_) (serving.built.arranged .require) (serving.receivers connected) inside
      obtain ⟨s', done, -⟩ := routes carries.fits
      refine ⟨s', .wrote done, fun signature => ?_⟩
      obtain ⟨s₂, wrote, -⟩ := writePortData_ok inside
      have routing := writePortData_sameRouting s .provide n offset data
      rw [wrote, Result.state_ok] at routing
      have routed : SameRouting s₂ s' := routeProvidePortDataChangeToReceivers_sameRouting
        (processRemoteWriteProvidePortData_connected connected wrote done)
      rw [Server.entryPorts, (routing.trans routed).map]
      exact serving.oneProvider signature
  | waits n portType state => exact ⟨_, .waits expected.1, serving.oneProvider⟩
  | left nodes => exact ⟨_, .left expected, (detachAllNodes_serving serving expected).oneProvider⟩

theorem Served.complete (served : s₀.Served carried s) {call : RoutingCall} (expected : s.Expected call)
    (completes : s.Completes call s') (oneProvider : s'.OneProvider) : s₀.Served carried s' :=
  .call served expected.proper completes.calls oneProvider

/-- One node opens its require ports, and behind it another one brings its first data. -/
theorem Served.pairs (served : s₀.Served carried s) {n m offset : Nat} {data : Bytes} (signed : s.Signed .require m)
    (apart : (s.nodes m).state .require ≠ .connected) (signed' : s.Signed .provide n) (unclaimed : s.Unclaimed n)
    (waits : (s.nodes n).state .provide = .waitingForFileData)
    (inside : offset + data.length ≤ (s.area .provide n).length) :
    ∃ s₁ s', s.openRequirePortDataFile m = .ok () s₁ ∧
      s₁.processRemoteWriteProvidePortData 0 n offset data = some (.ok () s') ∧ s₀.Served carried s' ∧ SameBuild s s' ∧
      (s'.nodes m).state .require = .connected ∧ (s'.nodes n).state .provide = .connected := by
  have serving := served.serving
  obtain ⟨s₁, done, opened⟩ :=
    openRequirePortDataFile_opened serving.built serving.steady serving.oneProvider signed
  have expected : s.Expected (.opened m) := ⟨apart, signed⟩
  have served₁ : s₀.Served carried s₁ := by
    refine served.complete expected (.opened done) fun signature => ?_
    rw [opened.provide]
    exact serving.oneProvider signature
  have refs : s₁.refs .provide n = s.refs .provide n := by
    rw [Server.refs, opened.build.ports, Server.refs]
  have own (ref : PortRef) : s₁.signature .provide ref = s.signature .provide ref :=
    opened.build.signature .provide ref
  have signed₁ : s₁.Signed .provide n := by
    rw [Signed, refs]
    simp only [own]
    exact signed'
  have unclaimed₁ : s₁.Unclaimed n := by
    intro signature
    simp only [opened.provide, refs, own]
    exact unclaimed signature
  have waits₁ : (s₁.nodes n).state .provide = .waitingForFileData := by
    rw [opened.stateProvide]
    exact waits
  have inside₁ : offset + data.length ≤ (s₁.area .provide n).length := by
    rw [opened.build.length]
    exact inside
  have expected₁ : s₁.Expected (.wrote n offset data) := ⟨inside₁, .inl ⟨waits₁, signed₁, unclaimed₁⟩⟩
  obtain ⟨s', done', oneProvider, build, states⟩ := served₁.serving.connects inside₁ waits₁ signed₁ unclaimed₁
  refine ⟨s₁, s', done, done', served₁.complete expected₁ (.wrote done') oneProvider, opened.build.trans build, ?_, ?_⟩
  · rw [states, if_neg fun both => PortType.noConfusion both.2, opened.state, if_pos ⟨rfl, rfl⟩]
  · rw [states, if_pos ⟨rfl, rfl⟩]

end

/-! A provider of two ports, and a client with a require port for each -/

theorem counterparts_refs (portType : PortType) (n : Nat) : (counterparts 2).refs portType n =
    if portType = .provide ∧ n = 0 ∨ portType = .require ∧ n = 1 then [⟨n, 0⟩, ⟨n, 1⟩] else [] := by
  cases portType <;> rcases n with _ | _ | n <;> rfl

theorem counterparts_signed (portType : PortType) (n : Nat) : (counterparts 2).Signed portType n := by
  intro ref mem
  rw [counterparts_refs] at mem
  split at mem
  · next here =>
    rw [List.mem_cons, List.mem_singleton] at mem
    rcases here with ⟨rfl, rfl⟩ | ⟨rfl, rfl⟩ <;> rcases mem with rfl | rfl <;>
      exact ⟨_, rfl, List.cons_ne_nil _ _⟩
  · contradiction

theorem counterparts_wellBuilt : (counterparts 2).WellBuilt := by
  have arranged (portType : PortType) (n : Nat) : (counterparts 2).Arranged portType n := by
    constructor
    · intro p port here
      cases portType <;> rcases n with _ | _ | n <;> rcases p with _ | _ | p <;> first
        | contradiction
        | cases here; rfl
    · cases portType <;> rcases n with _ | _ | n <;> rfl
  refine ⟨arranged, fun n some_ => ?_, fun n => ?_, ?_⟩
  · obtain rfl : n = 0 := by
      rcases n with _ | n
      · rfl
      · exact absurd rfl some_
    have positive : ∀ port ∈ ((counterparts 2).nodes 0).ports .provide, 0 < port.dataSize := by decide
    obtain ⟨map, made, maps⟩ := @newBytePortMap_maps (((counterparts 2).nodes 0).ports .provide) (some [0, 0])
      (arranged .provide 0).offset positive (by decide) rfl (iff_of_false (by decide) (by decide))
    obtain rfl : map = some [0, 1] := (Except.ok.inj made).symm
    exact ⟨by decide, arranged .provide 0, positive, by decide, maps, rfl⟩
  · rcases n with _ | n <;> rfl
  · intro signature provide require own own'
    have provides := mem_refs.mpr (exists_of_signature own)
    have requires := mem_refs.mpr (exists_of_signature own')
    rw [counterparts_refs] at provides requires
    obtain ⟨n, p⟩ := provide
    obtain ⟨m, q⟩ := require
    rcases n with _ | n
    swap
    · contradiction
    rcases m with _ | _ | m
    · contradiction
    swap
    · contradiction
    rw [if_pos (.inl ⟨rfl, rfl⟩), List.mem_cons, List.mem_singleton] at provides
    rw [if_pos (.inr ⟨rfl, rfl⟩), List.mem_cons, List.mem_singleton] at requires
    replace provides : p = 0 ∨ p = 1 := provides.imp (congrArg PortRef.portId) (congrArg PortRef.portId)
    replace requires : q = 0 ∨ q = 1 := requires.imp (congrArg PortRef.portId) (congrArg PortRef.portId)
    have same := own.trans own'.symm
    rcases provides with rfl | rfl <;> rcases requires with rfl | rfl
    · exact ⟨_, _, rfl, rfl, rfl, rfl⟩
    · exact absurd same (by decide)
    · exact absurd same (by decide)
    · exact ⟨_, _, rfl, rfl, rfl, rfl⟩

theorem counterparts_unclaimed : (counterparts 2).Unclaimed 0 := by
  intro signature
  have nothing : (counterparts 2).entryPorts signature .provide = [] := rfl
  rw [nothing, List.nil_append, counterparts_refs, if_pos (.inl ⟨rfl, rfl⟩), List.filter_cons, List.filter_cons,
    List.filter_nil]
  simp only [decide_eq_true_iff]
  split
  · next first =>
    rw [if_neg]
    · exact Nat.le_refl 1
    · intro second
      exact absurd (first.trans second.symm) (by decide)
  · split
    · exact Nat.le_refl 1
    · exact Nat.zero_le 1

theorem counterpartsConnected_served : (counterparts 2).Served (fun _ => True) (counterpartsConnected 2) := by
  have new : (counterparts 2).Served (fun _ => True) (counterparts 2) := .new (counterparts_new 2) counterparts_wellBuilt
  obtain ⟨s₁, s₂, done, done', served, -⟩ := @Served.pairs _ _ _ new 0 1 0 [7, 7] (counterparts_signed .require 1)
    DataState.noConfusion (counterparts_signed .provide 0) counterparts_unclaimed rfl (by decide)
  have is : ((counterparts 2).openRequirePortDataFile 1).state = s₁ := by rw [done, Result.state_ok]
  have waits : (s₁.nodes 0).state .provide = .waitingForFileData := by
    rw [← is]
    decide +kernel
  have same : counterpartsConnected 2 = s₂ := by
    rw [processRemoteWriteProvidePortData, waits] at done'
    rw [counterpartsConnected, is]
    rw [processRemoteWriteProvidePortData, waits, show List.replicate 2 (7 : UInt8) = [7, 7] from rfl]
    dsimp only at done' ⊢
    rw [Option.some.inj done', Result.state_ok]
  rwa [same]

theorem counterpartsConnected_expected : (counterpartsConnected 2).Expected (.wrote 0 1 [9]) := by
  have serving := counterpartsConnected_served.serving
  have connected : ((counterpartsConnected 2).nodes 0).state .provide = .connected := by decide +kernel
  have some_ : ((counterpartsConnected 2).nodes 0).ports .provide ≠ [] := by decide +kernel
  have start : offsetOf (((counterpartsConnected 2).nodes 0).ports .provide) 1 = 1 := by decide +kernel
  have end_ : offsetOf (((counterpartsConnected 2).nodes 0).ports .provide) 2 = 2 := by decide +kernel
  refine ⟨by decide +kernel, .inr ⟨connected, some_, ?_⟩⟩
  have whole := @writeCarries_of_wholePorts _ 0 [9] (serving.built.provider 0 some_)
    (fun p q ref mem mem' => (serving.unique connected connected mem mem').2) 1 2 (by decide) (by decide +kernel)
    (by rw [start, end_]; rfl)
  rwa [start] at whole

/-- The counterparts behind data for the second port -/
def counterpartsWritten : Server :=
  match (counterpartsConnected 2).processRemoteWriteProvidePortData 2 0 1 [9] with
  | none => counterpartsConnected 2
  | some result => result.state

theorem counterpartsWritten_served : (counterparts 2).Served (fun _ => True) counterpartsWritten := by
  have served := counterpartsConnected_served
  obtain ⟨s', completes, oneProvider⟩ := served.serving.completes counterpartsConnected_expected
  have served' := served.complete counterpartsConnected_expected completes oneProvider
  cases completes with
  | wrote done =>
    have some_ : ((counterpartsConnected 2).processRemoteWriteProvidePortData 2 0 1 [9]).isSome := by decide +kernel
    obtain ⟨result, ends⟩ := Option.isSome_iff_exists.mp some_
    have same : counterpartsWritten = s' := by
      rw [counterpartsWritten, ends, processRemoteWriteProvidePortData_unique ends done]
      rfl
    rwa [same]

section
variable {carried : Nat → Prop} {s₀ s : Server}

/-- In all runs, whatever is expected of a server ends without an error and goes on with the run. -/
theorem Served.call_completes (served : s₀.Served carried s) {call : RoutingCall} (expected : s.Expected call) :
    ∃ s', s.Completes call s' ∧ s₀.Served carried s' := by
  obtain ⟨s', completes, oneProvider⟩ := served.serving.completes expected
  exact ⟨s', completes, served.complete expected completes oneProvider⟩

theorem Served.call_completes_counterparts : ∃ s', (counterpartsConnected 2).Completes (.wrote 0 1 [9]) s' ∧
    (counterparts 2).Served (fun _ => True) s' :=
  counterpartsConnected_served.call_completes counterpartsConnected_expected

end

section
variable {carried : Nat → Prop} {s₀ s : Server}

/-! Who is connected to whom -/

/-- A connected port is listed under its signature. -/
theorem Serving.listed (serving : s.Serving carried) {portType : PortType} {ref : PortRef}
    (connected : (s.nodes ref.node).state portType = .connected) (inside : s.Exists portType ref) :
    ∃ signature, s.signature portType ref = some signature ∧ ref ∈ s.entryPorts signature portType := by
  obtain ⟨signature, -, listed⟩ := serving.steady.inMap ref.node portType connected ref (mem_refs.mpr inside)
  exact ⟨signature, serving.steady.listed signature portType ref listed, listed⟩

/-- Connected ports of one signature are connected to each other. -/
theorem Serving.joins (serving : s.Serving carried) {provide require : PortRef}
    (connected : (s.nodes provide.node).state .provide = .connected) (inside : s.Exists .provide provide)
    (connected' : (s.nodes require.node).state .require = .connected) (inside' : s.Exists .require require)
    (same : s.signature .require require = s.signature .provide provide) :
    require ∈ s.connectors provide.node provide.portId := by
  obtain ⟨signature, own, -⟩ := serving.listed connected inside
  obtain ⟨signature', own', listed'⟩ := serving.listed connected' inside'
  rw [own', own] at same
  obtain rfl := Option.some.inj same
  rw [serving.table provide signature' connected own]
  exact listed'

/-- In all runs, the connectors of a connected provide port are the connected require ports of its signature, each of
them once. -/
theorem Served.connectors_iff (served : s₀.Served carried s) {provide : PortRef}
    (connected : (s.nodes provide.node).state .provide = .connected) (inside : s.Exists .provide provide) :
    (s.connectors provide.node provide.portId).Nodup ∧
      ∀ require, require ∈ s.connectors provide.node provide.portId ↔
        (s.nodes require.node).state .require = .connected ∧ s.Exists .require require ∧
          s.signature .require require = s.signature .provide provide := by
  have serving := served.serving
  obtain ⟨signature, own, -⟩ := serving.listed connected inside
  obtain ⟨once, states⟩ := serving.registered signature .require
  constructor
  · rwa [serving.table provide signature connected own]
  · intro require
    constructor
    · intro mem
      rw [serving.table provide signature connected own] at mem
      have own' := serving.steady.listed signature .require require mem
      exact ⟨states require mem, exists_of_signature own', own'.trans own.symm⟩
    · rintro ⟨connected', inside', same⟩
      exact serving.joins connected inside connected' inside' same

theorem Served.connectors_iff_counterparts : (counterpartsWritten.connectors 0 1).Nodup ∧
    ∀ require, require ∈ counterpartsWritten.connectors 0 1 ↔
      (counterpartsWritten.nodes require.node).state .require = .connected ∧
        counterpartsWritten.Exists .require require ∧
          counterpartsWritten.signature .require require = counterpartsWritten.signature .provide ⟨0, 1⟩ := by
  have connected : (counterpartsWritten.nodes 0).state .provide = .connected := by decide +kernel
  have inside : 1 < ((counterpartsWritten.nodes 0).ports .provide).length := by decide +kernel
  exact @Served.connectors_iff _ _ _ counterpartsWritten_served ⟨0, 1⟩ connected inside

/-! What the clients hold -/

/-- What the client of a node holds for a require port behind all messages to it, if it had the data `client` before -/
def clientHeld (s : Server) (require : PortRef) (client : Bytes) : Bytes :=
  match s.port .require require with
  | none => []
  | some port => slice (receivedArea client (Connecting.messagesTo require.node s.sent)) port.dataOffset port.dataSize

/-- In all runs, whatever is written, the client of a connected node has been sent all that the server holds for its
require ports. -/
theorem Served.client_inSync (served : s₀.Served carried s) {n : Nat} (connected : (s.nodes n).state .require = .connected)
    {client : Bytes} (size : client.length = (s.area .require n).length) :
    receivedArea client (Connecting.messagesTo n s.sent) = s.area .require n :=
  served.serving.mirrored n connected client size

theorem Served.client_inSync_counterparts :
    receivedArea [0, 0] (Connecting.messagesTo 1 counterpartsWritten.sent) = counterpartsWritten.area .require 1 := by
  have connected : (counterpartsWritten.nodes 1).state .require = .connected := by decide +kernel
  exact counterpartsWritten_served.client_inSync connected (by decide +kernel)

/-- Behind all messages, a client holds for a require port what the server does. -/
theorem Serving.clientHeld_eq (serving : s.Serving carried) {require : PortRef}
    (connected : (s.nodes require.node).state .require = .connected) {client : Bytes}
    (size : client.length = (s.area .require require.node).length) :
    s.clientHeld require client = s.held .require require := by
  have received := serving.mirrored require.node connected client size
  cases here : s.port .require require with
  | none => simp only [clientHeld, Server.held, here]
  | some port => simp only [clientHeld, Server.held, here, received]

/-- In all runs, the client of a connected require port has the data of the connected provide port of its signature
behind all messages to it. -/
theorem Served.client_holds (served : s₀.Served carried s) {provide require : PortRef} (carries : carried provide.node)
    (connected : (s.nodes provide.node).state .provide = .connected) (inside : s.Exists .provide provide)
    (connected' : (s.nodes require.node).state .require = .connected) (inside' : s.Exists .require require)
    (same : s.signature .require require = s.signature .provide provide) {client : Bytes}
    (size : client.length = (s.area .require require.node).length) :
    s.clientHeld require client = s.held .provide provide := by
  have serving := served.serving
  have mem := serving.joins connected inside connected' inside' same
  rw [serving.clientHeld_eq connected' size]
  exact serving.inSync provide.node carries connected provide.portId require mem

theorem Served.client_holds_counterparts :
    counterpartsWritten.clientHeld ⟨1, 1⟩ [0, 0] = counterpartsWritten.held .provide ⟨0, 1⟩ := by
  have connected : (counterpartsWritten.nodes 0).state .provide = .connected := by decide +kernel
  have connected' : (counterpartsWritten.nodes 1).state .require = .connected := by decide +kernel
  have inside : 1 < ((counterpartsWritten.nodes 0).ports .provide).length := by decide +kernel
  have inside' : 1 < ((counterpartsWritten.nodes 1).ports .require).length := by decide +kernel
  exact @Served.client_holds _ _ _ counterpartsWritten_served ⟨0, 1⟩ ⟨1, 1⟩ trivial connected inside connected' inside'
    (by decide +kernel) [0, 0] (by decide +kernel)

/-! What a disconnect does to the others -/

/-- Nodes have left, with all their entries and connectors, and for all others nothing else has changed. -/
structure Departs (s s' : Server) (nodes : List Nat) : Prop where
  entries : ∀ signature portType,
    s'.entryPorts signature portType = (s.entryPorts signature portType).filter fun ref => ref.node ∉ nodes
  connectors : ∀ n p, n ∉ nodes → (s.nodes n).state .provide = .connected →
    s'.connectors n p = (s.connectors n p).filter fun ref => ref.node ∉ nodes
  state : ∀ n, n ∉ nodes → (s'.nodes n).state = (s.nodes n).state
  left : ∀ n ∈ nodes, ∀ portType, (s'.nodes n).state portType ≠ .connected
  held : ∀ portType ref, s'.held portType ref = s.held portType ref
  sent : s'.sent = s.sent

/-- In all runs, a disconnect takes the departing ports out of all lists, keeps the order of the others, and neither
sends a message nor changes the data of any port. -/
theorem Served.nodes_detached (served : s₀.Served carried s) {nodes : List Nat} (distinct : nodes.Nodup) :
    s₀.Served carried (s.detachAllNodes nodes) ∧ Departs s (s.detachAllNodes nodes) nodes := by
  have serving := served.serving
  have spares := serving.spares distinct
  have expected : s.Expected (.left nodes) := distinct
  have oneProvider := (detachAllNodes_serving serving distinct).oneProvider
  refine ⟨served.complete expected (.left distinct) oneProvider, ?_⟩
  constructor
  · intro signature portType
    exact serving.entryPorts_detached distinct signature portType
  · intro n p stays connected
    exact serving.connectors_detached distinct connected stays
  · exact spares.state
  · intro n among portType
    rw [detachAllNodes_eq]
    exact settle_state _ distinct among portType
  · exact spares.held
  · exact spares.sent

/-- The client leaves. -/
theorem Served.nodes_detached_counterparts :
    (counterparts 2).Served (fun _ => True) (counterpartsWritten.detachAllNodes [1]) ∧
      Departs counterpartsWritten (counterpartsWritten.detachAllNodes [1]) [1] :=
  counterpartsWritten_served.nodes_detached (List.nodup_singleton 1)

end

end Server

end Apx
