import Apx.RoutingTable

/-! The writes of providers: the first one connects the provide ports of a node, and every later one reaches the require
ports that are connected to them. -/

namespace Apx

open LittleEndian

namespace Server

/-- The state behind the call that connects the provide ports of a node -/
structure Provided (s s' : Server) (n : Nat) : Prop where
  build : SameBuild s s'
  state : ∀ m portType, (s'.nodes m).state portType =
    if m = n ∧ portType = .provide then .connected else (s.nodes m).state portType
  file : ∀ m, (s'.nodes m).requirePortDataFile = (s.nodes m).requirePortDataFile
  require : ∀ signature, s'.entryPorts signature .require = s.entryPorts signature .require
  provide : ∀ signature, s'.entryPorts signature .provide = s.entryPorts signature .provide ++
    (s.refs .provide n).filter fun ref => s.signature .provide ref = some signature
  connectors : ∀ m p, s'.connectors m p = s.connectors m p ++
    ((s.joinedProvide n).filter fun pair => pair.1 = ⟨m, p⟩).map Prod.snd
  heldProvide : ∀ ref, s'.held .provide ref = s.held .provide ref
  heldOther : ∀ ref, (∀ pair ∈ s.joinedProvide n, pair.2 ≠ ref) → s'.held .require ref = s.held .require ref
  held : ∀ pair ∈ s.joinedProvide n, s'.held .require pair.2 = s.held .provide pair.1
  mirrors : ∀ m, s.Mirrored m → s'.Mirrored m

/-- What comes behind the registration of the provide ports -/
def connectRegistered (s : Server) (n : Nat) : Result Server Unit :=
  match (s.nodes n).changes .provide with
  | none => .ok () s
  | some table => processProvideChanges n s 0 table

theorem connectRegistered_sameRouting (s : Server) (n : Nat) : SameRouting s (s.connectRegistered n).state := by
  rw [connectRegistered]
  split
  · exact .refl s
  · exact processProvideChanges_sameRouting n s 0 _

theorem connectProvidePorts_eq {s s₁ : Server} {n : Nat} (done : s.connectPorts .provide n = .ok () s₁) :
    s.connectProvidePorts n = (((s₁.update n fun node => node.setState .provide .connected).connectRegistered n).bind
      fun _ s => .ok () (s.clearChanges .provide n)).lift clearPortConnectorChanges := by
  rw [connectProvidePorts, done, Result.bind_ok]
  rfl

/-- No signature gets a second provider with the provide ports of the node. -/
def Unclaimed (s : Server) (n : Nat) : Prop :=
  ∀ signature, (s.entryPorts signature .provide ++
    (s.refs .provide n).filter fun ref => s.signature .provide ref = some signature).length ≤ 1

theorem connectProvidePorts_provided {s : Server} (built : s.WellBuilt) (steady : s.Steady)
    (files : ∀ signature, ∀ ref ∈ s.entryPorts signature .require,
      (s.nodes ref.node).requirePortDataFile = some true) {n : Nat} (signed : s.Signed .provide n)
    (unclaimed : s.Unclaimed n) : ∃ s', s.connectProvidePorts n = .ok () s' ∧ Provided s s' n := by
  obtain ⟨s₁, registered, inserted, inMap⟩ := connectPorts_signed steady signed
  let s₂ := s₁.update n fun node => node.setState .provide .connected
  have same₂ : SameData s₁ s₂ := sameData_update s₁ n rfl rfl
  have front : SameData s s₂ := inserted.same.sameData.trans same₂
  have file₂ (m : Nat) : (s₂.nodes m).requirePortDataFile = (s.nodes m).requirePortDataFile := by
    rw [file_update_setState, inserted.same.file]
  have changes (portType : PortType) : (s₂.nodes n).changes portType = (s₁.nodes n).changes portType := by
    rw [nodes_update_self]
    rfl
  have orderly : s₂.Orderly := by
    refine (inserted.orderly steady.orderly).setState fun _ ref mem => inMap ref ?_
    rwa [inserted.same.refs] at mem
  have built₂ := front.sameBuild.wellBuilt built
  have able : Linkable true s₂ (s.joinedProvide n) := by
    refine ⟨fun pair mem => ?_, fun _ pair mem => ?_, fun pair mem pair' mem' same => ?_⟩
    · obtain ⟨-, -, signature, own, -, own'⟩ := mem_joinedProvide steady.listed mem
      refine @WellBuilt.fits s₂ built₂ signature _ _ ?_ ?_
      · rwa [front.sameBuild.signature]
      · rwa [front.sameBuild.signature]
    · obtain ⟨-, -, signature, -, listed, -⟩ := mem_joinedProvide steady.listed mem
      rw [file₂]
      exact files signature _ listed
    · obtain ⟨-, here, signature, own, -, own'⟩ := mem_joinedProvide steady.listed mem
      obtain ⟨-, here', signature', own'', -, own'''⟩ := mem_joinedProvide steady.listed mem'
      rw [same, own'''] at own'
      cases own'
      have short := unclaimed signature
      rw [List.length_append] at short
      refine eq_of_short (Nat.le_trans (Nat.le_add_left _ _) short) ?_ ?_
      · exact List.mem_filter.mpr ⟨here, decide_eq_true own⟩
      · exact List.mem_filter.mpr ⟨here', decide_eq_true own''⟩
  obtain ⟨nothing, speaks⟩ := inserted.speaks steady.quiet
  obtain ⟨s₃, connected, links⟩ : ∃ s₃, s₂.connectRegistered n = .ok () s₃ ∧
      Links true s₂ s₃ (s.joinedProvide n) := by
    rw [connectRegistered, changes]
    cases told : (s₁.nodes n).changes .provide with
    | none =>
      have empty : s.joinedProvide n = [] := pairs_of_nothing (nothing told)
      rw [empty]
      exact ⟨s₂, rfl, .refl true s₂⟩
    | some table =>
      obtain ⟨ids, speaks⟩ := speaks table told
      rw [joinedProvide, ← ids] at able ⊢
      exact processProvideChanges_links built₂.arranged speaks able
  obtain ⟨s', is⟩ : ∃ s', s' = (s₃.clearChanges .provide n).clearPortConnectorChanges := ⟨_, rfl⟩
  have done : s.connectProvidePorts n = .ok () s' := by
    rw [connectProvidePorts_eq registered, connected, Result.bind_ok, is]
    rfl
  have orderly₃ := (links.sameRouting.orderly orderly).clearChanges .provide n
  obtain ⟨-, cleared, map⟩ := clearPortConnectorChanges_quiet orderly₃.modified
  have entries (signature : Bytes) (portType : PortType) :
      s'.entryPorts signature portType = s₁.entryPorts signature portType := by
    have same : s'.signatureMap = s₁.signatureMap := by
      rw [is, map]
      exact links.map
    rw [Server.entryPorts, Server.entryPorts, same]
  have cleared : SameButMap s₃ s' := by
    rw [is]
    exact (sameButMap_update s₃ n .provide none).trans cleared
  have arranged₂ (m : Nat) : s₂.Arranged .require m := built₂.arranged .require m
  refine ⟨s', done, ?_, ?_, ?_, ?_, ?_, ?_, ?_, ?_, ?_, ?_⟩
  · exact (front.sameBuild.trans links.sameBuild).trans cleared.sameBuild
  · intro m portType
    rw [cleared.state, links.state, state_update_setState, inserted.same.state]
  · intro m
    rw [cleared.file, links.file, file₂]
  · intro signature
    rw [entries]
    exact inserted.opposite signature
  · intro signature
    rw [entries, inserted.own]
  · intro m p
    rw [cleared.connectors, links.connectors, front.connectors]
  · intro ref
    rw [cleared.sameData.held, links.heldProvide, front.held]
  · intro ref other
    rw [cleared.sameData.held, links.heldOther arranged₂ other, front.held]
  · intro pair mem
    rw [cleared.sameData.held, links.held pair mem, front.held]
  · intro m mirrored
    have before : s₂.Mirrored m := mirrored.elsewhere (front.area .require m) inserted.same.sent
    have behind := links.mirrors m (fun is => absurd is.symm Bool.false_ne_true) before
    exact behind.elsewhere (cleared.area .require m) cleared.sent

theorem connectProvidePorts_unsigned {s : Server} (steady : s.Steady) {n : Nat} (unsigned : ¬s.Signed .provide n) :
    ∃ s', s.connectProvidePorts n = .fail .assertion s' := by
  obtain ⟨s₁, failed⟩ := connectPorts_unsigned steady unsigned
  refine ⟨s₁.clearPortConnectorChanges, ?_⟩
  rw [connectProvidePorts, failed]
  rfl

/-- Whatever comes behind the registration, the signature map stays. -/
theorem entryPorts_of_connectProvidePorts {s s' : Server} (steady : s.Steady) {n : Nat} (signed : s.Signed .provide n)
    (done : s' ∈ returned (s.connectProvidePorts n)) (signature : Bytes) :
    s'.entryPorts signature .provide = s.entryPorts signature .provide ++
      (s.refs .provide n).filter fun ref => s.signature .provide ref = some signature := by
  obtain ⟨s₁, registered, inserted, -⟩ := connectPorts_signed steady signed
  let s₂ := s₁.update n fun node => node.setState .provide .connected
  have routing := connectRegistered_sameRouting s₂ n
  rw [connectProvidePorts_eq registered] at done
  have map : s'.signatureMap = s₁.signatureMap := by
    obtain rfl := state_of_returned done
    cases result : s₂.connectRegistered n with
    | ok value s₃ =>
      rw [result, Result.state_ok] at routing
      exact ((clearPortConnectorChanges_settles _).map.trans (clearChanges_settles s₃ .provide n).map).trans routing.map
    | fail failure s₃ =>
      rw [result, Result.state_fail] at routing
      exact (clearPortConnectorChanges_settles s₃).map.trans routing.map
  rw [Server.entryPorts, map]
  exact inserted.own signature

theorem Provided.stateRequire {s s' : Server} {n : Nat} (provided : Provided s s' n) (m : Nat) :
    (s'.nodes m).state .require = (s.nodes m).state .require := by
  rw [provided.state, if_neg fun both => PortType.noConfusion both.2]

/-- Connecting the provide ports of a node that waits for data keeps what holds. -/
theorem Provided.serving {carried : Nat → Prop} {s s' : Server} {n : Nat} (provided : Provided s s' n)
    (serving : s.Serving carried) (steady : s'.Steady) (oneProvider : s'.OneProvider)
    (waits : (s.nodes n).state .provide = .waitingForFileData) : s'.Serving carried where
  built := provided.build.wellBuilt serving.built
  steady := steady
  registered signature portType := by
    obtain ⟨distinct, states⟩ := serving.registered signature portType
    cases portType with
    | require =>
      rw [provided.require]
      refine ⟨distinct, fun ref mem => ?_⟩
      rw [provided.stateRequire]
      exact states ref mem
    | provide =>
      rw [provided.provide]
      constructor
      · refine List.Nodup.append distinct ((s.refs_nodup .provide n).filter _) fun ref mem mem' => ?_
        have connected := states ref mem
        rw [node_of_refs (List.mem_filter.mp mem').1, waits] at connected
        contradiction
      · intro ref mem
        rw [provided.state]
        split
        · rfl
        · next other =>
          rcases List.mem_append.mp mem with mem | mem
          · exact states ref mem
          · exact absurd ⟨node_of_refs (List.mem_filter.mp mem).1, rfl⟩ other
  oneProvider := oneProvider
  files m connected := by
    rw [provided.stateRequire] at connected
    rw [provided.file]
    exact serving.files m connected
  table provide signature connected own := by
    rw [provided.build.signature] at own
    have joined : ((s.joinedProvide n).filter fun pair => pair.1 = provide).map Prod.snd =
        if provide.node = n ∧ provide.portId ∈ s.portIds .provide n then s.told .provide n provide.portId else [] :=
      providePairs_filter List.nodup_range' provide
    rw [provided.connectors, provided.require]
    rw [show ((s.joinedProvide n).filter fun pair => pair.1 = ⟨provide.node, provide.portId⟩).map Prod.snd = _
      from joined]
    by_cases here : provide.node = n
    · have nothing := serving.waiting n (by rw [waits]; exact DataState.noConfusion)
        (by rw [waits]; exact DataState.noConfusion) provide.portId
      have inside : provide.portId ∈ s.portIds .provide n := by
        rw [mem_portIds, ← here]
        exact exists_of_signature own
      rw [if_pos ⟨here, inside⟩, here, nothing, List.nil_append, told, Server.partners, ← here, own]
      rfl
    · rw [provided.state, if_neg fun both => here both.1] at connected
      rw [if_neg fun both => here both.1, List.append_nil]
      exact serving.table provide signature connected own
  waiting m other other' p := by
    rw [provided.state] at other other'
    split at other
    · exact absurd rfl other
    · next elsewhere =>
      rw [if_neg elsewhere] at other'
      have nowhere : (s.joinedProvide n).filter (fun pair => pair.1 = ⟨m, p⟩) = [] := by
        rw [List.filter_eq_nil_iff]
        intro pair mem
        rw [decide_eq_true_iff]
        intro same
        obtain ⟨node, -⟩ := mem_joinedProvide serving.steady.listed mem
        rw [same] at node
        exact elsewhere ⟨node, rfl⟩
      rw [provided.connectors, serving.waiting m other other' p, nowhere]
      rfl
  inSync m carries connected p ref mem := by
    rw [provided.connectors, List.mem_append] at mem
    rw [provided.heldProvide]
    rcases mem with mem | mem
    · by_cases here : m = n
      · subst here
        rw [serving.waiting m (by rw [waits]; exact DataState.noConfusion)
          (by rw [waits]; exact DataState.noConfusion) p] at mem
        exact absurd mem List.not_mem_nil
      · rw [provided.state, if_neg fun both => here both.1] at connected
        rw [provided.heldOther, serving.inSync m carries connected p ref mem]
        rintro pair joined rfl
        obtain ⟨signature, own, -, own', -⟩ := serving.connector connected mem
        obtain ⟨node, refs, signature', own'', -, own'''⟩ := mem_joinedProvide serving.steady.listed joined
        rw [own'] at own'''
        cases own'''
        have listed := @Serving.entry carried s serving ⟨m, p⟩ signature connected own
        have short := oneProvider signature
        rw [provided.provide] at short
        have same := eq_of_short short (List.mem_append_left _ listed)
          (List.mem_append_right _ (List.mem_filter.mpr ⟨refs, decide_eq_true own''⟩))
        rw [← same] at node
        exact here node
    · exact provided.held _ (mem_filter_pairs.mp mem)
  mirrored m connected := by
    rw [provided.stateRequire] at connected
    exact provided.mirrors m (serving.mirrored m connected)

/-! A write to a node whose provide ports are connected already -/

/-- What routing does: provide ports keep their data, and clients are sent what is written for them. -/
structure Forwards (s s' : Server) : Prop where
  same : SameButData s s'
  provided : ∀ n, s'.area .provide n = s.area .provide n
  mirrors : ∀ n, s.Mirrored n → s'.Mirrored n

theorem Forwards.refl (s : Server) : Forwards s s := ⟨.refl s, fun _ => rfl, fun _ mirrored => mirrored⟩

theorem Forwards.trans {s s₁ s' : Server} (first : Forwards s s₁) (second : Forwards s₁ s') : Forwards s s' where
  same := first.same.trans second.same
  provided n := (second.provided n).trans (first.provided n)
  mirrors n mirrored := second.mirrors n (first.mirrors n mirrored)

theorem remoteRouteRequirePortData_forwards {s : Server} {n offset : Nat} {data : Bytes}
    (file : (s.nodes n).requirePortDataFile = some true) :
    Forwards s (s.remoteRouteRequirePortData takesAll n offset data).state := by
  by_cases inside : offset + data.length ≤ (s.area .require n).length
  · obtain ⟨s₁, wrote, same, written, others⟩ := writePortData_ok inside
    have isOpen := (same.file n).trans file
    have call : s.remoteRouteRequirePortData takesAll n offset data =
        .ok () { s₁ with sent := s₁.sent ++ [(n, offset, data)] } := by
      rw [remoteRouteRequirePortData, writeRequirePortData, wrote, Result.bind_ok, isOpen]
      rfl
    have sent : s₁.sent ++ [(n, offset, data)] = s.sent ++ [(n, offset, data)] := by
      rw [Connecting.sent_of_write wrote]
    rw [call, Result.state_ok]
    refine ⟨⟨same.node, same.length⟩, fun m => others .provide m (.inl PortType.noConfusion), fun m mirrored => ?_⟩
    exact mirrored.message inside written (fun k other => others .require k (.inr other)) sent
  · have refused : s.writePortData .require n offset data = .fail (.code .invalidArgument) s :=
      if_pos (Nat.lt_of_not_le inside)
    have call : s.remoteRouteRequirePortData takesAll n offset data = .fail (.code .invalidArgument) s := by
      rw [remoteRouteRequirePortData, writeRequirePortData, refused, Result.bind_fail]
    rw [call, Result.state_fail]
    exact .refl s

theorem routeToConnectors_forwards {provide : PortInstance} {data : Bytes} {s s' : Server}
    {retval retval' : Option Failure} {refs : List PortRef}
    (files : ∀ ref ∈ refs, (s.nodes ref.node).requirePortDataFile = some true)
    (routed : routeToConnectors takesAll provide data s retval refs = .ok (s', retval')) : Forwards s s' := by
  induction refs generalizing s retval with
  | nil =>
    cases routed
    exact .refl _
  | cons ref rest ih =>
    rw [List.forall_mem_cons] at files
    rw [routeToConnectors] at routed
    split at routed
    · contradiction
    · split at routed
      · split at routed
        · exact ih files.2 routed
        · split at routed
          · contradiction
          · have forwards := @remoteRouteRequirePortData_forwards s ref.node
            exact (forwards files.1).trans
              (ih (fun ref mem => ((forwards files.1).same.file ref.node).trans (files.2 ref mem)) routed)
      · exact ih files.2 routed

theorem routeChange_forwards {n endOffset fuel offset : Nat} {s : Server} {retval : Option Failure} {data : Bytes}
    {result : Result Server Unit}
    (files : ∀ p, ∀ ref ∈ s.connectors n p, (s.nodes ref.node).requirePortDataFile = some true)
    (routed : routeChange takesAll n endOffset fuel s retval offset data = some result) : Forwards s result.state := by
  induction fuel generalizing s retval offset data with
  | zero => contradiction
  | succ fuel ih =>
    simp only [routeChange] at routed
    split at routed
    · split at routed
      · cases routed
        exact .refl s
      · split at routed
        · exact ih files routed
        · split at routed
          · cases routed
            exact .refl s
          · split at routed
            · cases routed
              exact .refl s
            · next connectors listed =>
              split at routed
              · cases routed
                exact .refl s
              · next delivered =>
                have forwards := routeToConnectors_forwards (fun ref mem => by
                  refine files (BytePortMap.lookup (s.nodes n).inst.bytePortMap offset) ref ?_
                  rw [Server.connectors, listed]
                  exact mem) delivered
                refine forwards.trans (ih (fun p ref mem => ?_) routed)
                rw [forwards.same.connectors] at mem
                exact (forwards.same.file ref.node).trans (files p ref mem)
    · split at routed
      · cases routed
        exact .refl s
      · cases routed
        exact .refl s

theorem routeProvidePortDataChangeToReceivers_forwards {fuel n offset : Nat} {s : Server} {data : Bytes}
    {result : Result Server Unit}
    (files : ∀ p, ∀ ref ∈ s.connectors n p, (s.nodes ref.node).requirePortDataFile = some true)
    (routed : s.routeProvidePortDataChangeToReceivers takesAll fuel n offset data = some result) :
    Forwards s result.state := by
  rw [routeProvidePortDataChangeToReceivers] at routed
  split at routed
  · cases routed
    exact .refl s
  · exact routeChange_forwards files routed

section
variable {carried : Nat → Prop} {s s₁ s' : Server}

/-- Data may change as long as what holds of it goes on to hold. -/
theorem SameButData.serving (same : SameButData s s') (routing : SameRouting s s') (serving : s.Serving carried)
    (inSync : ∀ n, carried n → (s.nodes n).state .provide = .connected → s'.InSync n)
    (mirrored : ∀ n, (s.nodes n).state .require = .connected → s'.Mirrored n) : s'.Serving carried where
  built := same.sameBuild.wellBuilt serving.built
  steady := routing.steady serving.steady
  registered signature portType := by
    rw [Server.entryPorts, routing.map]
    refine ⟨(serving.registered signature portType).1, fun ref mem => ?_⟩
    rw [routing.state]
    exact (serving.registered signature portType).2 ref mem
  oneProvider signature := by
    rw [Server.entryPorts, routing.map]
    exact serving.oneProvider signature
  files n connected := by
    rw [routing.state] at connected
    exact (same.file n).trans (serving.files n connected)
  table provide signature connected own := by
    rw [routing.state] at connected
    rw [same.sameBuild.signature] at own
    rw [same.connectors, Server.entryPorts, routing.map]
    exact serving.table provide signature connected own
  waiting n other other' p := by
    rw [routing.state] at other other'
    rw [same.connectors]
    exact serving.waiting n other other' p
  inSync n carries connected := by
    rw [routing.state] at connected
    exact inSync n carries connected
  mirrored n connected := by
    rw [routing.state] at connected
    exact mirrored n connected

/-- The connectors hold what they held. -/
theorem InSync.of_held {n : Nat} (inSync : s.InSync n) (connectors : ∀ p, s'.connectors n p = s.connectors n p)
    (required : ∀ p, ∀ ref ∈ s.connectors n p, s'.held .require ref = s.held .require ref)
    (provided : ∀ p, s'.held .provide ⟨n, p⟩ = s.held .provide ⟨n, p⟩) : s'.InSync n := by
  intro p ref mem
  rw [connectors] at mem
  rw [required p ref mem, provided, inSync p ref mem]

theorem SameButData.held (same : SameButData s s') {portType : PortType} {ref : PortRef}
    (area : s'.area portType ref.node = s.area portType ref.node) : s'.held portType ref = s.held portType ref := by
  rw [Server.held, Server.held, same.port, area]

/-- The require ports in the signature map have open files. -/
theorem Serving.filesOfEntries (serving : s.Serving carried) (signature : Bytes) (ref : PortRef)
    (mem : ref ∈ s.entryPorts signature .require) : (s.nodes ref.node).requirePortDataFile = some true :=
  serving.files ref.node ((serving.registered signature .require).2 ref mem)

/-- The connectors of a node take its data. -/
theorem Serving.receivers (serving : s.Serving carried) {n : Nat}
    (connected : (s.nodes n).state .provide = .connected) : s.Connected n := by
  intro p port here ref mem
  obtain ⟨signature, own, -, own', listed⟩ := serving.connector connected mem
  obtain ⟨provide, require, here', required, queue, size⟩ := serving.built.matching signature ⟨n, p⟩ ref own own'
  obtain rfl := Option.some.inj (here.symm.trans here')
  refine ⟨queue, ⟨require, required, size.symm, ?_⟩, serving.files ref.node listed⟩
  rw [size]
  exact (serving.built.arranged .require ref.node).inside required

/-- No require port is connected to two provide ports. -/
theorem Serving.unique (serving : s.Serving carried) {n m p q : Nat} {ref : PortRef}
    (connected : (s.nodes n).state .provide = .connected) (connected' : (s.nodes m).state .provide = .connected)
    (mem : ref ∈ s.connectors n p) (mem' : ref ∈ s.connectors m q) : n = m ∧ p = q := by
  obtain ⟨signature, own, -, required, -⟩ := serving.connector connected mem
  obtain ⟨signature', own', -, required', -⟩ := serving.connector connected' mem'
  obtain rfl := Option.some.inj (required.symm.trans required')
  have entry := @Serving.entry carried s serving ⟨n, p⟩ signature connected own
  have entry' := @Serving.entry carried s serving ⟨m, q⟩ signature connected' own'
  have same := eq_of_short (serving.oneProvider signature) entry entry'
  exact ⟨congrArg PortRef.node same, congrArg PortRef.portId same⟩

/-- The data of a node whose provide ports are not connected has no readers. -/
theorem Serving.unread (serving : s.Serving carried) {n : Nat} (same : SameButData s s')
    (routing : SameRouting s s') (required : ∀ m, s'.area .require m = s.area .require m)
    (provided : ∀ m, m ≠ n → s'.area .provide m = s.area .provide m) (sent : s'.sent = s.sent)
    (unread : (s.nodes n).state .provide ≠ .connected ∨ ∀ p, s'.held .provide ⟨n, p⟩ = s.held .provide ⟨n, p⟩) :
    s'.Serving carried := by
  refine same.serving routing serving (fun m carries connected => ?_) fun m connected =>
    (serving.mirrored m connected).elsewhere (required m) sent
  refine (serving.inSync m carries connected).of_held (same.connectors m) (fun p ref _ => same.held (required _)) ?_
  intro p
  by_cases here : m = n
  · subst here
    exact unread.resolve_left (not_not_intro connected) p
  · exact same.held (provided m here)

/-- The two parts of a write to a node whose provide ports are connected -/
theorem processRemoteWriteProvidePortData_connected {fuel n offset : Nat} {data : Bytes} {result : Result Server Unit}
    (connected : (s.nodes n).state .provide = .connected) (wrote : s.writePortData .provide n offset data = .ok () s₁)
    (ends : s.processRemoteWriteProvidePortData fuel n offset data = some result) :
    s₁.routeProvidePortDataChangeToReceivers takesAll fuel n offset data = some result := by
  rw [processRemoteWriteProvidePortData, connected] at ends
  dsimp only at ends
  rwa [writeProvidePortData, wrote] at ends

/-- A require port that is connected to another node keeps what it holds. -/
theorem Serving.elsewhere (serving : s.Serving carried) {n m p offset : Nat} {data : Bytes} {steps : List (Nat × Nat)}
    (same : SameButData s s₁) (required : ∀ m, s₁.area .require m = s.area .require m)
    (routed : s₁.Routed s' n offset data steps) (connected : (s.nodes n).state .provide = .connected)
    (connected' : (s.nodes m).state .provide = .connected) (other : m ≠ n) {ref : PortRef}
    (mem : ref ∈ s.connectors m p) : s'.held .require ref = s.held .require ref := by
  rw [routed.held_passed fun n => same.arranged (serving.built.arranged .require n)]
  · exact same.held (required ref.node)
  · rw [lastStep_eq_none]
    intro step _ mem'
    rw [same.connectors] at mem'
    exact other (serving.unique connected' connected mem mem').1

/-- A write to a node whose provide ports are connected keeps what holds. -/
theorem Serving.routed (serving : s.Serving carried) {fuel n offset : Nat} {data : Bytes} {result : Result Server Unit}
    (connected : (s.nodes n).state .provide = .connected)
    (inside : offset + data.length ≤ (s.area .provide n).length)
    (ends : s.processRemoteWriteProvidePortData fuel n offset data = some result) (done : s' ∈ returned result)
    (carries : carried n → s.WriteCarries n offset data) : s'.Serving carried ∧ SameBuild s s' := by
  have receivers := serving.receivers connected
  have arranged := serving.built.arranged .require
  obtain ⟨s₁, wrote, same, written, others⟩ := writePortData_ok inside
  have required (m : Nat) : s₁.area .require m = s.area .require m := others .require m (.inl PortType.noConfusion)
  have routing := writePortData_sameRouting s .provide n offset data
  rw [wrote, Result.state_ok] at routing
  have ends₁ := processRemoteWriteProvidePortData_connected connected wrote ends
  have forwards : Forwards s₁ result.state := by
    refine routeProvidePortDataChangeToReceivers_forwards (fun p ref mem => ?_) ends₁
    rw [same.connectors] at mem
    obtain ⟨-, -, -, -, listed⟩ := serving.connector connected mem
    exact (same.file ref.node).trans (serving.files ref.node listed)
  have behind : SameRouting s s' := by
    obtain rfl := state_of_returned done
    exact routing.trans (routeProvidePortDataChangeToReceivers_sameRouting ends₁)
  have mirrored (m : Nat) (listed : (s.nodes m).state .require = .connected) : s'.Mirrored m := by
    obtain rfl := state_of_returned done
    exact forwards.mirrors m ((serving.mirrored m listed).elsewhere (required m) (Connecting.sent_of_write wrote))
  have provided (m : Nat) (other : m ≠ n) : s'.area .provide m = s.area .provide m := by
    obtain rfl := state_of_returned done
    exact (forwards.provided m).trans (others .provide m (.inr other))
  have build : SameBuild s s' := by
    obtain rfl := state_of_returned done
    exact (same.trans forwards.same).sameBuild
  refine ⟨?_, build⟩
  by_cases some_ : (s.nodes n).ports .provide = []
  · -- a node without provide ports takes no data, and there is nothing to route
    have empty : (s.area .provide n).length = 0 := by
      rw [(serving.built.arranged .provide n).size, some_]
      rfl
    have nothing : offset = 0 ∧ data = [] := ⟨by omega, List.eq_nil_of_length_eq_zero (by omega)⟩
    obtain ⟨rfl, rfl⟩ := nothing
    obtain rfl : s₁ = s' := by
      rw [routeProvidePortDataChangeToReceivers] at ends₁
      split at ends₁
      · cases ends₁
        contradiction
      · cases fuel with
        | zero => contradiction
        | succ fuel =>
          rw [routeChange, if_neg (by decide)] at ends₁
          cases ends₁
          exact Option.some.inj done
    refine serving.unread same behind required provided (Connecting.sent_of_write wrote) (.inr fun p => ?_)
    rw [Server.held, Server.held, same.port]
    have missing : s.port .provide ⟨n, p⟩ = none := by
      rw [Server.port, some_]
      rfl
    rw [missing]
  · have provider := serving.built.provider n some_
    obtain ⟨s₂, same₂, -, required₂, routes, beyond⟩ :=
      processRemoteWriteProvidePortData_routed connected provider arranged receivers inside
    have fits : ∀ step ∈ s.writeSteps n offset data.length, s.connectors n step.2 ≠ [] → ∀ port,
        ((s.nodes n).ports .provide)[step.2]? = some port → step.1 + port.dataSize ≤ offset + data.length := by
      by_contra fits
      obtain ⟨s₃, failed⟩ := beyond fits
      cases processRemoteWriteProvidePortData_unique ends failed
      contradiction
    obtain ⟨s₃, done', routed⟩ := routes fits
    cases processRemoteWriteProvidePortData_unique ends done'
    obtain rfl := Option.some.inj done
    refine (same₂.trans routed.same).serving behind serving (fun m carries_ connected' => ?_) mirrored
    by_cases here : m = n
    · subst here
      obtain ⟨fuel', s₄, ends', inSync, -⟩ := (processRemoteWriteProvidePortData_keepsInSync_iff connected provider
        arranged receivers (serving.inSync m carries_ connected) inside).mpr (carries carries_)
      cases processRemoteWriteProvidePortData_unique ends ends'
      exact inSync
    · refine (serving.inSync m carries_ connected').of_held (fun p => ?_) (fun p ref mem => ?_) fun p => ?_
      · rw [routed.same.connectors, same₂.connectors]
      · exact serving.elsewhere same₂ required₂ routed connected connected' here mem
      · exact (same₂.trans routed.same).held (provided m here)

/-- A write from remote keeps what holds. -/
theorem processRemoteWriteProvidePortData_serving (serving : s.Serving carried) {fuel n offset : Nat} {data : Bytes}
    {result : Result Server Unit} (ends : s.processRemoteWriteProvidePortData fuel n offset data = some result)
    (done : s' ∈ returned result) (oneProvider : s'.OneProvider)
    (carries : carried n → (s.nodes n).state .provide = .connected →
      offset + data.length ≤ (s.area .provide n).length → s.WriteCarries n offset data) :
    s'.Serving carried ∧ SameBuild s s' := by
  have steady := processRemoteWriteProvidePortData_steady serving.steady ends done
  by_cases inside : offset + data.length ≤ (s.area .provide n).length
  swap
  · -- nothing is written, whatever the state of the node
    have refused : s.writePortData .provide n offset data = .fail (.code .invalidArgument) s :=
      if_pos (Nat.lt_of_not_le inside)
    have same : s' = s := by
      rw [processRemoteWriteProvidePortData, writeProvidePortData, refused] at ends
      cases state : (s.nodes n).state .provide <;>
      · rw [state] at ends
        cases ends
        exact (Option.some.inj done).symm
    rw [same]
    exact ⟨serving, .refl s⟩
  cases state : (s.nodes n).state .provide with
  | connected => exact serving.routed state inside ends done fun here => carries here state inside
  | waitingForFileData =>
    obtain ⟨s₁, wrote, same, written, others⟩ := writePortData_ok inside
    have routing := writePortData_sameRouting s .provide n offset data
    rw [wrote, Result.state_ok] at routing
    have serving₁ : s₁.Serving carried := serving.unread same routing
      (fun m => others .require m (.inl PortType.noConfusion)) (fun m other => others .provide m (.inr other))
      (Connecting.sent_of_write wrote) (.inl (by rw [state]; exact DataState.noConfusion))
    rw [processRemoteWriteProvidePortData, state] at ends
    dsimp only at ends
    rw [writeProvidePortData, wrote, Result.bind_ok] at ends
    obtain rfl := Option.some.inj ends
    by_cases signed : s₁.Signed .provide n
    · have unclaimed : s₁.Unclaimed n := fun signature => by
        rw [← entryPorts_of_connectProvidePorts serving₁.steady signed done]
        exact oneProvider signature
      obtain ⟨s₂, done', provided⟩ := connectProvidePorts_provided serving₁.built serving₁.steady
        serving₁.filesOfEntries signed unclaimed
      rw [done'] at done
      obtain rfl := Option.some.inj done
      exact ⟨provided.serving serving₁ steady oneProvider (by rw [routing.state]; exact state),
        same.sameBuild.trans provided.build⟩
    · obtain ⟨s₂, failed⟩ := connectProvidePorts_unsigned serving₁.steady signed
      rw [failed] at done
      contradiction
  | _ =>
    rw [processRemoteWriteProvidePortData, state] at ends
    cases ends
    rw [← Option.some.inj done]
    exact ⟨serving, .refl s⟩

end

end Server

end Apx
