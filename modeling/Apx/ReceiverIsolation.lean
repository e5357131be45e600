import Apx.RequireFileOpen

/-! What the connection of a provider is told about its write when receivers fail
(route_provide_port_data_change_to_receivers in node_instance.c). Here the queues of the file managers may
be full. -/

namespace Apx

open LittleEndian

namespace Server

/-- process_remote_write_provide_port_data in the state APX_DATA_STATE_CONNECTED -/
def processConnectedWrite (queue : QueueInsert) (fuel : Nat) (s : Server) (n offset : Nat) (data : Bytes) :
    Option (Result Server Unit) :=
  match s.writeProvidePortData n offset data with
  | .fail failure s => some (.fail failure s)
  | .ok _ s =>
    s.routeProvidePortDataChangeToReceivers queue fuel n offset data

/-- Without full queues this is the write of a connected node. -/
theorem processConnectedWrite_takesAll {s : Server} {n : Nat}
    (connected : (s.nodes n).state .provide = .connected) (fuel offset : Nat) (data : Bytes) :
    processConnectedWrite takesAll fuel s n offset data =
      s.processRemoteWriteProvidePortData fuel n offset data := by
  cases wrote : s.writeProvidePortData n offset data <;>
    simp only [processConnectedWrite, processRemoteWriteProvidePortData, connected, wrote]

/-! What a write does to one receiver after the other -/

/-- A connector that the loop comes to: the provide port, the received data from there on, and the require
port -/
structure Visit where
  provide : PortInstance
  data : Bytes
  ref : PortRef

/-- The connectors of a provide port -/
def visitsOf (provide : PortInstance) (data : Bytes) (refs : List PortRef) : List Visit :=
  refs.map fun ref => ⟨provide, data, ref⟩

/-- The connectors that come with the places of a write, whose data begin at `start` -/
def visitsAt (s : Server) (n start : Nat) (data : Bytes) (steps : List (Nat × Nat)) : List Visit :=
  steps.flatMap fun step =>
    match ((s.nodes n).ports .provide)[step.2]? with
    | none => []
    | some provide => visitsOf provide (data.drop (step.1 - start)) (s.connectors n step.2)

/-- All connectors that the loop over a write comes to -/
def visits (s : Server) (n offset : Nat) (data : Bytes) : List Visit :=
  s.visitsAt n offset data (s.writeSteps n offset data.length)

/-- The ports match, and data are written to the require port. -/
def Visit.Matches (visit : Visit) (require : PortInstance) : Prop :=
  visit.provide.queueLength = 0 ∧ visit.provide.dataSize = require.dataSize

instance (visit : Visit) (require : PortInstance) : Decidable (visit.Matches require) :=
  inferInstanceAs (Decidable (_ ∧ _))

/-- The write to the data of the require port -/
def Visit.write? (s : Server) (visit : Visit) : Option (Nat × Nat × Bytes) :=
  match s.port .require visit.ref with
  | none => none
  | some require =>
    if visit.Matches require then
      some (visit.ref.node, require.dataOffset, visit.data.take visit.provide.dataSize)
    else none

/-- The loop does not survive the visit: there is no such port, or the received data do not suffice for
it. -/
def Visit.Stops (s : Server) (visit : Visit) : Prop :=
  match s.port .require visit.ref with
  | none => True
  | some require => visit.Matches require ∧ visit.data.length < visit.provide.dataSize

/-- Why the receiver does not get the update, with `sent` in the queues -/
def Visit.error? (queue : QueueInsert) (s : Server) (sent : List (Nat × Nat × Bytes)) (visit : Visit) :
    Option ApxError :=
  match s.port .require visit.ref with
  | none => none
  | some require =>
    if visit.provide.queueLength ≠ 0 then some .notImplemented
    else if visit.provide.dataSize ≠ require.dataSize then some .valueLength
    else if require.dataOffset + visit.provide.dataSize > (s.area .require visit.ref.node).length then
      some .invalidArgument
    else
      match (s.nodes visit.ref.node).requirePortDataFile with
      | none => none
      | some false => some .fileNotOpen
      | some true => queue visit.ref.node sent

/-- What is in the queues behind visits: the updates of all receivers that do not fail and have a file -/
def sentBehind (queue : QueueInsert) (s : Server) : List (Nat × Nat × Bytes) → List Visit →
    List (Nat × Nat × Bytes)
  | sent, [] => sent
  | sent, visit :: rest =>
    if visit.error? queue s sent = none ∧ (s.nodes visit.ref.node).requirePortDataFile ≠ none then
      sentBehind queue s (sent ++ (visit.write? s).toList) rest
    else sentBehind queue s sent rest

def lastError? (queue : QueueInsert) (s : Server) (sent : List (Nat × Nat × Bytes)) (visits : List Visit) :
    Option ApxError :=
  visits.getLast?.bind fun visit => visit.error? queue s (sentBehind queue s sent visits.dropLast)

/-- What visits leave when the loop survives all of them: every receiver has its update, whatever becomes
of the others, and the variable `retval` tells about the last of them. -/
structure Visited (queue : QueueInsert) (s : Server) (retval : Option Failure) (visits : List Visit)
    (s' : Server) (retval' : Option Failure) : Prop where
  same : SameButData s s'
  provided : ∀ n, s'.area .provide n = s.area .provide n
  required : ∀ n, s'.area .require n =
    receivedArea (s.area .require n) (Connecting.messagesTo n (visits.filterMap (Visit.write? s)))
  sent : s'.sent = sentBehind queue s s.sent visits
  retval : retval' =
    if visits = [] then retval else (lastError? queue s s.sent visits).map Failure.code

theorem SameButData.write? {s s' : Server} (same : SameButData s s') (visit : Visit) :
    visit.write? s' = visit.write? s := by
  rw [Visit.write?, Visit.write?, same.port]

theorem SameButData.stops {s s' : Server} (same : SameButData s s') (visit : Visit) :
    visit.Stops s' ↔ visit.Stops s := by
  rw [Visit.Stops, Visit.Stops, same.port]

theorem SameButData.error? {s s' : Server} (same : SameButData s s') (queue : QueueInsert)
    (sent : List (Nat × Nat × Bytes)) (visit : Visit) :
    visit.error? queue s' sent = visit.error? queue s sent := by
  rw [Visit.error?, Visit.error?, same.port, same.length, same.file]

theorem SameButData.sentBehind {s s' : Server} (same : SameButData s s') (queue : QueueInsert)
    (sent : List (Nat × Nat × Bytes)) (visits : List Visit) :
    Server.sentBehind queue s' sent visits = Server.sentBehind queue s sent visits := by
  induction visits generalizing sent with
  | nil => rfl
  | cons visit rest ih =>
    rw [Server.sentBehind, Server.sentBehind, same.error?, same.write?, same.file, ih, ih]

theorem sentBehind_append (queue : QueueInsert) (s : Server) (sent : List (Nat × Nat × Bytes))
    (front back : List Visit) :
    sentBehind queue s sent (front ++ back) = sentBehind queue s (sentBehind queue s sent front) back := by
  induction front generalizing sent with
  | nil => rfl
  | cons visit rest ih =>
    rw [List.cons_append, sentBehind, sentBehind]
    by_cases takes : visit.error? queue s sent = none ∧
        (s.nodes visit.ref.node).requirePortDataFile ≠ none
    · rw [if_pos takes, if_pos takes, ih]
    · rw [if_neg takes, if_neg takes, ih]

/-- The last one of many decides. -/
theorem lastError?_append (queue : QueueInsert) (s : Server) (sent : List (Nat × Nat × Bytes))
    (front : List Visit) {back : List Visit} (nonempty : back ≠ []) :
    lastError? queue s sent (front ++ back) = lastError? queue s (sentBehind queue s sent front) back := by
  rw [lastError?, lastError?, List.getLast?_append_of_ne_nil front nonempty,
    List.dropLast_append_of_ne_nil nonempty, sentBehind_append]

theorem Visited.nil (queue : QueueInsert) (s : Server) (retval : Option Failure) :
    Visited queue s retval [] s retval :=
  ⟨.refl s, fun _ => rfl, fun _ => rfl, rfl, rfl⟩

theorem Visited.append {queue : QueueInsert} {s s₁ s₂ : Server} {retval retval₁ retval₂ : Option Failure}
    {front back : List Visit} (first : Visited queue s retval front s₁ retval₁)
    (second : Visited queue s₁ retval₁ back s₂ retval₂) :
    Visited queue s retval (front ++ back) s₂ retval₂ where
  same := first.same.trans second.same
  provided n := (second.provided n).trans (first.provided n)
  required n := by
    have writes : back.filterMap (Visit.write? s₁) = back.filterMap (Visit.write? s) := by
      congr 1
      funext visit
      exact first.same.write? visit
    rw [second.required, first.required, writes, List.filterMap_append]
    simp only [receivedArea, Connecting.messagesTo, List.filterMap_append, List.foldl_append]
  sent := by rw [second.sent, first.sent, first.same.sentBehind, sentBehind_append]
  retval := by
    rw [second.retval, first.retval]
    by_cases empty : back = []
    · rw [if_pos empty, empty, List.append_nil]
    · rw [if_neg empty, if_neg (by simp [empty]), lastError?_append queue s s.sent front empty, first.sent]
      simp only [lastError?, first.same.error?, first.same.sentBehind]

theorem Visited.one {queue : QueueInsert} {s s' : Server} {retval : Option Failure} {visit : Visit}
    {outcome : Option ApxError} (same : SameButData s s')
    (provided : ∀ n, s'.area .provide n = s.area .provide n)
    (required : ∀ n, s'.area .require n =
      receivedArea (s.area .require n) (Connecting.messagesTo n ([visit].filterMap (Visit.write? s))))
    (error : visit.error? queue s s.sent = outcome)
    (sent : s'.sent =
      if outcome = none ∧ (s.nodes visit.ref.node).requirePortDataFile ≠ none then
        s.sent ++ (visit.write? s).toList
      else s.sent) :
    Visited queue s retval [visit] s' (outcome.map Failure.code) where
  same := same
  provided := provided
  required := required
  sent := by
    rw [sent, sentBehind, error]
    rfl
  retval := by
    rw [if_neg (List.cons_ne_nil _ _)]
    show _ = (visit.error? queue s s.sent).map Failure.code
    rw [error]

theorem Visited.skip {queue : QueueInsert} {s : Server} {retval : Option Failure} {visit : Visit}
    {failure : ApxError} (write : visit.write? s = none)
    (error : visit.error? queue s s.sent = some failure) :
    Visited queue s retval [visit] s (some (.code failure)) := by
  apply Visited.one (.refl s) (fun _ => rfl) _ error
  · rw [if_neg (fun takes => Option.some_ne_none failure takes.1)]
  · intro n
    rw [List.filterMap_cons, write]
    rfl

theorem required_of_write {s s' : Server} {visit : Visit} {m offset : Nat} {data : Bytes}
    (write : visit.write? s = some (m, offset, data))
    (here : s'.area .require m = writtenArea (s.area .require m) offset data)
    (others : ∀ n, n ≠ m → s'.area .require n = s.area .require n) (n : Nat) :
    s'.area .require n = receivedArea (s.area .require n)
      (Connecting.messagesTo n ([visit].filterMap (Visit.write? s))) := by
  rw [List.filterMap_cons, write]
  show _ = receivedArea (s.area .require n) (Connecting.messagesTo n ([] ++ [(m, offset, data)]))
  rw [Connecting.messagesTo_append]
  by_cases same : m = n
  · rw [if_pos same, ← same, here]
    rfl
  · rw [if_neg same, others n (Ne.symm same)]
    rfl

theorem remoteRouteRequirePortData_visited {queue : QueueInsert} {s : Server} {retval : Option Failure}
    {visit : Visit} {require : PortInstance} (here : s.port .require visit.ref = some require)
    (enough : visit.provide.dataSize ≤ visit.data.length) (matches_ : visit.Matches require) :
    let result := s.remoteRouteRequirePortData queue visit.ref.node require.dataOffset
      (visit.data.take visit.provide.dataSize)
    Visited queue s retval [visit] result.state result.failure? := by
  have write : visit.write? s =
      some (visit.ref.node, require.dataOffset, visit.data.take visit.provide.dataSize) := by
    rw [Visit.write?, here]
    exact if_pos matches_
  have taken : (visit.data.take visit.provide.dataSize).length = visit.provide.dataSize := by
    rw [List.length_take]
    omega
  by_cases inside : require.dataOffset + visit.provide.dataSize ≤ (s.area .require visit.ref.node).length
  · obtain ⟨s₁, wrote, same, written, others⟩ := @writePortData_ok s .require visit.ref.node
      require.dataOffset (visit.data.take visit.provide.dataSize) (by rw [taken]; exact inside)
    have areas := @required_of_write s s₁ visit _ _ _ write
      (by rw [writtenArea_of_fits (by rw [taken]; exact inside), written])
      fun n other => others .require n (.inr other)
    have sent : s₁.sent = s.sent := Connecting.sent_of_write wrote
    have file := same.file visit.ref.node
    rw [remoteRouteRequirePortData, writeRequirePortData, wrote, Result.bind_ok, file, sent]
    have one {s' : Server} {outcome : Option ApxError} (same' : SameButData s₁ s')
        (areas' : ∀ portType n, s'.area portType n = s₁.area portType n)
        (error : visit.error? queue s s.sent = outcome) (sent' : s'.sent =
          if outcome = none ∧ (s.nodes visit.ref.node).requirePortDataFile ≠ none then
            s.sent ++ (visit.write? s).toList
          else s.sent) : Visited queue s retval [visit] s' (outcome.map Failure.code) := by
      apply Visited.one (same.trans same') _ _ error sent'
      · intro n
        rw [areas', others .provide n (.inl PortType.noConfusion)]
      · intro n
        rw [areas', areas]
    have fits := Nat.not_lt.mpr (matches_.2 ▸ inside)
    cases isOpen : (s.nodes visit.ref.node).requirePortDataFile with
    | none =>
      have error : visit.error? queue s s.sent = none := by
        simp [Visit.error?, here, matches_.1, matches_.2, fits, isOpen]
      exact one (.refl s₁) (fun _ _ => rfl) error (by simp [isOpen, sent])
    | some state =>
      cases state with
      | false =>
        have error : visit.error? queue s s.sent = some .fileNotOpen := by
          simp [Visit.error?, here, matches_.1, matches_.2, fits, isOpen]
        exact one (.refl s₁) (fun _ _ => rfl) error (by simp [sent])
      | true =>
        have error : visit.error? queue s s.sent = queue visit.ref.node s.sent := by
          simp [Visit.error?, here, matches_.1, matches_.2, fits, isOpen]
        cases full : queue visit.ref.node s.sent with
        | some failure =>
          rw [full] at error
          exact one (.refl s₁) (fun _ _ => rfl) error (by simp [sent])
        | none =>
          rw [full] at error
          refine @one { s₁ with sent := s.sent ++
            [(visit.ref.node, require.dataOffset, visit.data.take visit.provide.dataSize)] } none
            ⟨fun n => ⟨_, _, rfl⟩, fun _ _ => rfl⟩ (fun _ _ => rfl) error ?_
          rw [if_pos ⟨rfl, by simp [isOpen]⟩, write]
          rfl
  · -- the area of the receiver refuses the write
    have refused : s.remoteRouteRequirePortData queue visit.ref.node require.dataOffset
        (visit.data.take visit.provide.dataSize) = .fail (.code .invalidArgument) s := by
      have call : s.writePortData .require visit.ref.node require.dataOffset
          (visit.data.take visit.provide.dataSize) = .fail (.code .invalidArgument) s := by
        apply if_pos
        rw [taken]
        exact Nat.lt_of_not_le inside
      rw [remoteRouteRequirePortData, writeRequirePortData, call]
      rfl
    have error : visit.error? queue s s.sent = some .invalidArgument := by
      simp [Visit.error?, here, matches_.1, matches_.2, matches_.2 ▸ inside]
    rw [refused]
    apply Visited.one (.refl s) (fun _ => rfl) _ error
    · rw [if_neg (fun takes => Option.some_ne_none _ takes.1)]
    · apply required_of_write write _ fun _ _ => rfl
      rw [writtenArea, if_pos]
      rw [taken]
      exact Nat.lt_of_not_le inside

/-- The loop goes on behind a receiver, whether it fails or not. -/
theorem routeToConnectors_cons {queue : QueueInsert} {provide : PortInstance} {data : Bytes}
    {s : Server} {retval : Option Failure} {ref : PortRef} (rest : List PortRef)
    (survives : ¬Visit.Stops s ⟨provide, data, ref⟩) :
    ∃ s₁ retval₁, Visited queue s retval [⟨provide, data, ref⟩] s₁ retval₁ ∧
      routeToConnectors queue provide data s retval (ref :: rest) =
        routeToConnectors queue provide data s₁ retval₁ rest := by
  rw [routeToConnectors]
  cases port : s.port .require ref with
  | none =>
    rw [Visit.Stops, port] at survives
    exact absurd trivial survives
  | some require =>
    rw [Visit.Stops, port] at survives
    by_cases queueLength : provide.queueLength = 0
    · by_cases size : provide.dataSize = require.dataSize
      · have enough : provide.dataSize ≤ data.length := by
          by_contra short
          exact survives ⟨⟨queueLength, size⟩, Nat.lt_of_not_le short⟩
        simp only [if_pos queueLength, size, ne_eq, not_true_eq_false, if_false]
        rw [if_neg (by omega), ← size]
        exact ⟨_, _, @remoteRouteRequirePortData_visited queue s retval ⟨provide, data, ref⟩ require port enough
          ⟨queueLength, size⟩, rfl⟩
      · simp only [if_pos queueLength, ne_eq, size, not_false_eq_true, if_true]
        refine ⟨s, _, Visited.skip ?_ ?_, rfl⟩
        · simp [Visit.write?, port, Visit.Matches, size]
        · simp [Visit.error?, port, queueLength, size]
    · simp only [if_neg queueLength]
      refine ⟨s, _, Visited.skip ?_ ?_, rfl⟩
      · simp [Visit.write?, port, Visit.Matches, queueLength]
      · simp [Visit.error?, port, queueLength]

theorem routeToConnectors_visited {queue : QueueInsert} {provide : PortInstance} {data : Bytes}
    {s : Server} {retval : Option Failure} {refs : List PortRef}
    (survives : ∀ visit ∈ visitsOf provide data refs, ¬visit.Stops s) :
    ∃ s' retval', routeToConnectors queue provide data s retval refs = .ok (s', retval') ∧
      Visited queue s retval (visitsOf provide data refs) s' retval' := by
  induction refs generalizing s retval with
  | nil => exact ⟨s, retval, rfl, .nil queue s retval⟩
  | cons ref rest ih =>
    rw [visitsOf, List.map_cons, List.forall_mem_cons] at survives
    obtain ⟨s₁, retval₁, first, pass⟩ :=
      @routeToConnectors_cons queue provide data s retval ref rest survives.1
    obtain ⟨s', retval', done, visited⟩ := @ih s₁ retval₁ fun visit mem stops =>
      survives.2 visit mem ((first.same.stops visit).mp stops)
    exact ⟨s', retval', pass.trans done, first.append visited⟩

/-- The loop does not come to an error code when a visit stops it. -/
theorem routeToConnectors_stops {queue : QueueInsert} {provide : PortInstance} {data : Bytes}
    {s : Server} {retval : Option Failure} {refs : List PortRef}
    (stops : ∃ visit ∈ visitsOf provide data refs, visit.Stops s) :
    ∃ failure, routeToConnectors queue provide data s retval refs = .error failure ∧
      ∀ error, failure ≠ .code error := by
  induction refs generalizing s retval with
  | nil =>
    obtain ⟨visit, mem, -⟩ := stops
    exact absurd mem List.not_mem_nil
  | cons ref rest ih =>
    by_cases here : Visit.Stops s ⟨provide, data, ref⟩
    · rw [routeToConnectors]
      cases port : s.port .require ref with
      | none => exact ⟨_, rfl, fun _ => Failure.noConfusion⟩
      | some require =>
        rw [Visit.Stops, port] at here
        obtain ⟨⟨queueLength, size⟩, short⟩ := here
        have queueLength : provide.queueLength = 0 := queueLength
        have size : provide.dataSize = require.dataSize := size
        have short : data.length < provide.dataSize := short
        simp only [if_pos queueLength, size, ne_eq, not_true_eq_false, if_false]
        rw [if_pos (by omega)]
        exact ⟨_, rfl, fun _ => Failure.noConfusion⟩
    · obtain ⟨s₁, retval₁, first, pass⟩ :=
        @routeToConnectors_cons queue provide data s retval ref rest here
      rw [pass]
      apply ih
      obtain ⟨visit, mem, stops⟩ := stops
      rcases List.mem_cons.mp mem with rfl | mem
      · exact absurd stops here
      · exact ⟨visit, mem, (first.same.stops visit).mpr stops⟩

theorem routeChange_pass {queue : QueueInsert} {n endOffset fuel offset : Nat} {s : Server}
    {retval : Option Failure} {data : Bytes} (provider : s.Provider n)
    (inside : endOffset ≤ (s.area .provide n).length) (going : offset < endOffset) :
    ∃ p port, ((s.nodes n).ports .provide)[p]? = some port ∧ 0 < port.dataSize ∧
      steps (s.nodes n).inst.bytePortMap ((s.nodes n).ports .provide) endOffset (fuel + 1) offset =
        (offset, p) :: steps (s.nodes n).inst.bytePortMap ((s.nodes n).ports .provide) endOffset fuel
          (offset + port.dataSize) ∧
      routeChange queue n endOffset (fuel + 1) s retval offset data =
        match routeToConnectors queue port data s retval (s.connectors n p) with
        | .error failure => some (.fail failure s)
        | .ok (s, retval) => routeChange queue n endOffset fuel s retval (offset + port.dataSize)
            (data.drop port.dataSize) := by
  obtain ⟨p, port, here, found, low, high⟩ := provider.lookup (show offset < _ by omega)
  have valid : p ≠ invalidPortId := by
    have below := le_offsetOf provider.positive (Nat.le_of_lt (List.getElem?_eq_some_iff.mp here).1)
    rw [← provider.arranged.offset p port here] at below
    have fits := provider.fits
    have last : invalidPortId = 2 ^ 32 - 1 := rfl
    omega
  have taken : ¬port.dataSize = 0 := by omega
  have list : (s.nodes n).connectorTable[p]? = some (s.connectors n p) := by
    have count := (List.getElem?_eq_some_iff.mp here).1
    rw [← provider.table] at count
    rw [connectors, List.getElem?_eq_getElem count, Option.getD_some]
  refine ⟨p, port, here, by omega, ?_, ?_⟩
  · rw [steps, if_pos going, found, here]
  · cases routed : routeToConnectors queue port data s retval (s.connectors n p) with
    | error failure =>
      simp only [routeChange, if_pos going, found, if_neg valid, here, if_neg taken, list, routed]
    | ok left =>
      simp only [routeChange, if_pos going, found, if_neg valid, here, if_neg taken, list, routed]

/-- Behind the first port the data begin at its end. -/
theorem visitsAt_cons {s : Server} {n start p : Nat} {port : PortInstance} {data : Bytes}
    {rest : List (Nat × Nat)} (here : ((s.nodes n).ports .provide)[p]? = some port)
    (behind : ∀ step ∈ rest, start + port.dataSize ≤ step.1) :
    s.visitsAt n start data ((start, p) :: rest) = visitsOf port data (s.connectors n p) ++
      s.visitsAt n (start + port.dataSize) (data.drop port.dataSize) rest := by
  rw [visitsAt, List.flatMap_cons, visitsAt]
  simp only [Nat.sub_self, List.drop_zero, here]
  congr 1
  apply List.flatMap_congr
  intro step mem
  have from_ := behind step mem
  have moved : data.drop (step.1 - start) =
      (data.drop port.dataSize).drop (step.1 - (start + port.dataSize)) := by
    rw [List.drop_drop]
    congr 1
    omega
  rw [moved]

theorem SameButData.visitsAt {s s' : Server} (same : SameButData s s') (n start : Nat) (data : Bytes)
    (steps : List (Nat × Nat)) : s'.visitsAt n start data steps = s.visitsAt n start data steps := by
  simp only [Server.visitsAt, same.ports, same.connectors]

/-- The loop over a write -/
theorem routeChange_visits {queue : QueueInsert} {n endOffset fuel offset : Nat} {s : Server}
    {retval : Option Failure} {data : Bytes} (provider : s.Provider n)
    (inside : endOffset ≤ (s.area .provide n).length) (enough : endOffset - offset < fuel) :
    let visits := s.visitsAt n offset data
      (steps (s.nodes n).inst.bytePortMap ((s.nodes n).ports .provide) endOffset fuel offset)
    ((∀ visit ∈ visits, ¬visit.Stops s) → ∃ result,
      routeChange queue n endOffset fuel s retval offset data = some result ∧
        Visited queue s retval visits result.state result.failure?) ∧
    ((∃ visit ∈ visits, visit.Stops s) → ∃ failure s',
      routeChange queue n endOffset fuel s retval offset data = some (.fail failure s') ∧
        ∀ error, failure ≠ .code error) := by
  induction fuel generalizing s retval offset data with
  | zero => omega
  | succ fuel ih =>
    intro visits
    by_cases going : offset < endOffset
    · obtain ⟨p, port, here, taken, steps_eq, pass⟩ :=
        @routeChange_pass queue n endOffset fuel offset s retval data provider inside going
      have split : visits = visitsOf port data (s.connectors n p) ++
          s.visitsAt n (offset + port.dataSize) (data.drop port.dataSize)
            (steps (s.nodes n).inst.bytePortMap ((s.nodes n).ports .provide) endOffset fuel
              (offset + port.dataSize)) := by
        show s.visitsAt n offset data _ = _
        rw [steps_eq]
        exact visitsAt_cons here fun step mem => (steps_inside provider inside mem).1
      rw [pass, split]
      by_cases first : ∃ visit ∈ visitsOf port data (s.connectors n p), visit.Stops s
      · obtain ⟨failure, stopped, noCode⟩ :=
          @routeToConnectors_stops queue port data s retval (s.connectors n p) first
        rw [stopped]
        constructor
        · intro survives
          obtain ⟨visit, mem, stops⟩ := first
          exact absurd stops (survives visit (List.mem_append_left _ mem))
        · intro _
          exact ⟨failure, s, rfl, noCode⟩
      · have survives : ∀ visit ∈ visitsOf port data (s.connectors n p), ¬visit.Stops s :=
          fun visit mem stops => first ⟨visit, mem, stops⟩
        obtain ⟨s₁, retval₁, done, visited⟩ :=
          @routeToConnectors_visited queue port data s retval (s.connectors n p) survives
        have same := visited.same
        have map : (s₁.nodes n).inst.bytePortMap = (s.nodes n).inst.bytePortMap := by
          obtain ⟨_, _, node⟩ := same.node n
          rw [node]
        have later := @ih (offset + port.dataSize) s₁ retval₁ (data.drop port.dataSize)
          (same.provider provider) (by rw [same.length]; exact inside) (by omega)
        simp only [same.ports, map, same.visitsAt, same.stops] at later
        rw [done]
        constructor
        · intro all
          obtain ⟨result, looped, rest⟩ := later.1 fun visit mem => all visit (List.mem_append_right _ mem)
          exact ⟨result, looped, visited.append rest⟩
        · rintro ⟨visit, mem, stops⟩
          rcases List.mem_append.mp mem with mem | mem
          · exact absurd stops (survives visit mem)
          · exact later.2 ⟨visit, mem, stops⟩
    · have nothing : visits = [] := by
        show s.visitsAt n offset data (steps _ _ endOffset (fuel + 1) offset) = []
        rw [steps, if_neg going]
        rfl
      simp only [nothing, routeChange, if_neg going]
      constructor
      · intro _
        cases retval with
        | none => exact ⟨_, rfl, .nil queue s none⟩
        | some failure => exact ⟨_, rfl, .nil queue s (some failure)⟩
      · rintro ⟨visit, mem, -⟩
        exact absurd mem List.not_mem_nil

/-- A write to a connected node inside of its area. Every pass through the loop takes one byte at least. -/
theorem processConnectedWrite_visits {queue : QueueInsert} {s : Server} {n offset : Nat} {data : Bytes}
    (provider : s.Provider n) (inside : offset + data.length ≤ (s.area .provide n).length) :
    ((∀ visit ∈ s.visits n offset data, ¬visit.Stops s) → ∃ result,
      processConnectedWrite queue (data.length + 1) s n offset data = some result ∧
        result.state.area .provide n = splice (s.area .provide n) offset data ∧
        (∀ m, result.state.area .require m = receivedArea (s.area .require m)
          (Connecting.messagesTo m ((s.visits n offset data).filterMap (Visit.write? s)))) ∧
        result.state.sent = sentBehind queue s s.sent (s.visits n offset data) ∧
        result.failure? = (lastError? queue s s.sent (s.visits n offset data)).map Failure.code) ∧
    ((∃ visit ∈ s.visits n offset data, visit.Stops s) → ∃ failure s',
      processConnectedWrite queue (data.length + 1) s n offset data = some (.fail failure s') ∧
        ∀ error, failure ≠ .code error) := by
  obtain ⟨s₁, wrote, same, written, others⟩ := writePortData_ok inside
  have provider₁ := same.provider provider
  have inside₁ : offset + data.length ≤ (s₁.area .provide n).length := by
    rw [same.length]
    exact inside
  have word : u32 (offset + data.length) = offset + data.length :=
    Nat.mod_eq_of_lt (Nat.lt_of_le_of_lt inside provider.fits)
  have call : processConnectedWrite queue (data.length + 1) s n offset data =
      routeChange queue n (offset + data.length) (data.length + 1) s₁ none offset data := by
    simp only [processConnectedWrite, writeProvidePortData, wrote, routeProvidePortDataChangeToReceivers,
      if_neg provider₁.mapped, word]
  have looped := @routeChange_visits queue n (offset + data.length) (data.length + 1) offset s₁ none data
    provider₁ inside₁ (by omega)
  have map : (s₁.nodes n).inst.bytePortMap = (s.nodes n).inst.bytePortMap := by
    obtain ⟨_, _, node⟩ := same.node n
    rw [node]
  simp only [same.ports, map, same.visitsAt, same.stops] at looped
  rw [call]
  refine ⟨fun survives => ?_, looped.2⟩
  obtain ⟨result, done, visited⟩ := looped.1 survives
  have sent : s₁.sent = s.sent := Connecting.sent_of_write wrote
  have writes : Visit.write? s₁ = Visit.write? s := funext same.write?
  refine ⟨result, done, ?_, ?_, ?_, ?_⟩
  · rw [visited.provided, written]
  · intro m
    rw [visited.required, writes, others .require m (.inl PortType.noConfusion)]
    rfl
  · rw [visited.sent, same.sentBehind, sent]
    rfl
  · rw [visited.retval, sent]
    simp only [lastError?, same.error?, same.sentBehind]
    show (if s.visits n offset data = [] then none else _) = _
    by_cases empty : s.visits n offset data = []
    · rw [if_pos empty, empty]
      rfl
    · rw [if_neg empty]
      rfl

/-- Two servers that agree on a connected provider, but for the receivers of its ports -/
structure AgreeOn (s s' : Server) (n : Nat) : Prop where
  inst : (s'.nodes n).inst = (s.nodes n).inst
  state : (s'.nodes n).state = (s.nodes n).state
  connected : (s.nodes n).state .provide = .connected
  table : (s'.nodes n).connectorTable.length = (s.nodes n).connectorTable.length

theorem AgreeOn.area {s s' : Server} {n : Nat} (agree : AgreeOn s s' n) (portType : PortType) :
    s'.area portType n = s.area portType n := by
  rw [Server.area, Server.area, agree.inst]

theorem AgreeOn.ports {s s' : Server} {n : Nat} (agree : AgreeOn s s' n) (portType : PortType) :
    (s'.nodes n).ports portType = (s.nodes n).ports portType := by
  rw [ServerNode.ports, ServerNode.ports, agree.inst]

theorem AgreeOn.provider {s s' : Server} {n : Nat} (agree : AgreeOn s s' n) (provider : s.Provider n) :
    s'.Provider n where
  nonempty := by
    rw [agree.ports]
    exact provider.nonempty
  arranged := by
    constructor
    · rw [agree.ports]
      exact provider.arranged.offset
    · rw [agree.ports, agree.area]
      exact provider.arranged.size
  positive := by
    rw [agree.ports]
    exact provider.positive
  fits := by
    rw [agree.area]
    exact provider.fits
  maps := by
    rw [agree.ports, agree.inst]
    exact provider.maps
  table := by
    rw [agree.ports, agree.table]
    exact provider.table

/-- The write returns with this error code, `none` being APX_NO_ERROR, and every receiver that does not
fail has its update: in the require port data of its node, and in the queue for its file. -/
def Returns (queue : QueueInsert) (s : Server) (n offset : Nat) (data : Bytes) (code : Option ApxError) :
    Prop :=
  ∃ result, processConnectedWrite queue (data.length + 1) s n offset data = some result ∧
    result.failure? = code.map Failure.code ∧
    (∀ m, result.state.area .require m = receivedArea (s.area .require m)
      (Connecting.messagesTo m ((s.visits n offset data).filterMap (Visit.write? s)))) ∧
    result.state.sent = sentBehind queue s s.sent (s.visits n offset data)

/-- A write of the provider fares the same, whatever the receivers are. -/
def Isolated (queue queue' : QueueInsert) (s s' : Server) (n offset : Nat) (data : Bytes) : Prop :=
  ∃ code, s.Returns queue n offset data code ∧ s'.Returns queue' n offset data code

theorem returns_iff {queue : QueueInsert} {s : Server} {n offset : Nat} {data : Bytes}
    (provider : s.Provider n) (inside : offset + data.length ≤ (s.area .provide n).length)
    (code : Option ApxError) :
    s.Returns queue n offset data code ↔ (∀ visit ∈ s.visits n offset data, ¬visit.Stops s) ∧
      code = lastError? queue s s.sent (s.visits n offset data) := by
  obtain ⟨good, bad⟩ := @processConnectedWrite_visits queue s n offset data provider inside
  constructor
  · rintro ⟨result, done, failure, -⟩
    by_cases stops : ∃ visit ∈ s.visits n offset data, visit.Stops s
    · obtain ⟨failure', s', stopped, noCode⟩ := bad stops
      cases done.symm.trans stopped
      cases code with
      | none => contradiction
      | some error => exact absurd (Option.some.inj failure) (noCode error)
    · have survives : ∀ visit ∈ s.visits n offset data, ¬visit.Stops s :=
        fun visit mem stop => stops ⟨visit, mem, stop⟩
      obtain ⟨result', done', -, -, -, failure'⟩ := good survives
      cases done.symm.trans done'
      refine ⟨survives, Option.map_injective ?_ (failure.symm.trans failure')⟩
      intro error error' same
      exact Failure.code.inj same
  · rintro ⟨survives, rfl⟩
    obtain ⟨result, done, -, required, sent, failure⟩ := good survives
    exact ⟨result, done, failure, required, sent⟩

/-- The error code is that of the last receiver: a write fares the same in two servers exactly when the
last receiver fails in the same way in both, and none stops the loop. -/
theorem isolated_iff {queue queue' : QueueInsert} {s s' : Server} {n offset : Nat} {data : Bytes}
    (agree : AgreeOn s s' n) (provider : s.Provider n)
    (inside : offset + data.length ≤ (s.area .provide n).length) :
    Isolated queue queue' s s' n offset data ↔
      (∀ visit ∈ s.visits n offset data, ¬visit.Stops s) ∧
      (∀ visit ∈ s'.visits n offset data, ¬visit.Stops s') ∧
      lastError? queue s s.sent (s.visits n offset data) =
        lastError? queue' s' s'.sent (s'.visits n offset data) := by
  have one := @returns_iff queue s n offset data provider inside
  have two := @returns_iff queue' s' n offset data (agree.provider provider)
    (by rw [agree.area]; exact inside)
  simp only [Isolated, one, two]
  constructor
  · rintro ⟨code, ⟨survives, equal⟩, survives', equal'⟩
    exact ⟨survives, survives', equal.symm.trans equal'⟩
  · rintro ⟨survives, survives', equal⟩
    exact ⟨_, ⟨survives, rfl⟩, survives', equal⟩

/-- The receiver of a pair has a queue of one element. -/
def queuedServer : Server where
  nodes
    | 0 => pairProvider
    | _ => { pairRequester with
        inst := routedInstance [] [{ routedPort .require 0 0 3 with queueLength := 1 }] none
          (some [0, 0, 0]) none }

/-- A receiver that takes the write, and none at all -/
theorem isolated_pairServer :
    Isolated (fun _ _ => none) (fun _ _ => none) pairServer Connecting.pairOpening.server 0 0 [1, 2] := by
  apply (@isolated_iff (fun _ _ => none) (fun _ _ => none) pairServer Connecting.pairOpening.server 0 0 [1, 2]
    ⟨rfl, rfl, rfl, rfl⟩ pairServer_provider (by decide)).mpr
  refine ⟨fun visit mem stops => ?_, fun visit mem => absurd mem List.not_mem_nil, by decide⟩
  cases List.mem_singleton.mp mem
  exact absurd stops.2 (by decide)

/-- The same write is an error when the receiver has a queue. -/
theorem not_isolated_of_queued : ¬∀ (queue queue' : QueueInsert) (s s' : Server) (n offset : Nat)
    (data : Bytes), AgreeOn s s' n → s.Provider n → offset + data.length ≤ (s.area .provide n).length →
      Isolated queue queue' s s' n offset data := by
  intro all
  obtain ⟨code, ⟨result, done, failure, -⟩, result', done', failure', -⟩ :=
    all (fun _ _ => none) (fun _ _ => none) pairServer queuedServer 0 0 [1, 2] ⟨rfl, rfl, rfl, rfl⟩
      pairServer_provider (by decide)
  have one : (processConnectedWrite takesAll 3 pairServer 0 0 [1, 2]).map Result.failure? =
      some none := by decide +kernel
  have two : (processConnectedWrite takesAll 3 queuedServer 0 0 [1, 2]).map Result.failure? =
      some (some (.code .valueLength)) := by decide +kernel
  have done : processConnectedWrite takesAll 3 pairServer 0 0 [1, 2] = some result := done
  have done' : processConnectedWrite takesAll 3 queuedServer 0 0 [1, 2] = some result' := done'
  rw [done] at one
  rw [done'] at two
  have equal := (Option.some.inj one).symm.trans (failure.trans (failure'.symm.trans (Option.some.inj two)))
  contradiction

end Server

end Apx
