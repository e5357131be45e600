import Apx.PortRouting

/-! What the signature map tells the ports of a server about each other: the change tables that a series
of insertions or of removals fills. -/

namespace Apx

/-- What an event adds to the count of an entry -/
def ConnectorEvent.sign : ConnectorEvent → Int
  | .connected => 1
  | .disconnected => -1

theorem ChangeEntry.act_ok (event : ConnectorEvent) {entry : ChangeEntry} (port : PortRef)
    (counts : entry.count = event.sign * entry.ports.length) :
    ∃ entry', entry.act event port = .ok entry' ∧ entry'.ports = entry.ports ++ [port] ∧
      entry'.count = event.sign * entry'.ports.length := by
  cases event with
  | connected =>
    have notNegative : ¬entry.count < 0 := by
      rw [counts, ConnectorEvent.sign]
      omega
    refine ⟨_, if_neg notNegative, rfl, ?_⟩
    rw [List.length_append, counts, ConnectorEvent.sign]
    simp
  | disconnected =>
    have notPositive : ¬entry.count > 0 := by
      rw [counts, ConnectorEvent.sign]
      omega
    refine ⟨_, if_neg notPositive, rfl, ?_⟩
    rw [List.length_append, counts, ConnectorEvent.sign]
    simp
    omega

theorem PortType.opposite_ne (portType : PortType) : portType.opposite ≠ portType := by
  cases portType <;> exact PortType.noConfusion

theorem PortType.eq_or_opposite (portType portType' : PortType) :
    portType' = portType ∨ portType' = portType.opposite := by
  cases portType <;> cases portType' <;> simp [PortType.opposite]

namespace Server

/-- The ports that the changes of a port speak of -/
def noted (s : Server) (portType : PortType) (ref : PortRef) : List PortRef :=
  match ((s.nodes ref.node).changes portType).bind fun table => table[ref.portId]? with
  | none => []
  | some entry => entry.ports

/-- The change tables while events of one kind go on -/
structure Tables (s : Server) (event : ConnectorEvent) : Prop where
  length : ∀ n portType table, (s.nodes n).changes portType = some table →
    table.length = ((s.nodes n).ports portType).length
  count : ∀ n portType table, (s.nodes n).changes portType = some table →
    ∀ entry ∈ table, entry.count = event.sign * entry.ports.length
  modified : ∀ n portType table, (s.nodes n).changes portType = some table → n ∈ s.modifiedNodes

/-- Nothing but the signature map and the change tables differs. -/
structure SameButMap (s s' : Server) : Prop where
  node : ∀ n, ∃ changes, s'.nodes n = { s.nodes n with changes := changes }
  sent : s'.sent = s.sent

theorem SameButMap.refl (s : Server) : SameButMap s s := ⟨fun _ => ⟨_, rfl⟩, rfl⟩

theorem SameButMap.trans {s s₁ s₂ : Server} (first : SameButMap s s₁) (second : SameButMap s₁ s₂) :
    SameButMap s s₂ where
  node n := by
    obtain ⟨_, same⟩ := first.node n
    obtain ⟨changes, same'⟩ := second.node n
    exact ⟨changes, by rw [same', same]⟩
  sent := second.sent.trans first.sent

theorem SameButMap.ports {s s' : Server} (same : SameButMap s s') (n : Nat) (portType : PortType) :
    (s'.nodes n).ports portType = (s.nodes n).ports portType := by
  obtain ⟨_, node⟩ := same.node n
  rw [node]
  rfl

theorem SameButMap.port {s s' : Server} (same : SameButMap s s') (portType : PortType) (ref : PortRef) :
    s'.port portType ref = s.port portType ref := by
  rw [Server.port, Server.port, same.ports]

theorem SameButMap.signature {s s' : Server} (same : SameButMap s s') (portType : PortType)
    (ref : PortRef) : s'.signature portType ref = s.signature portType ref := by
  rw [Server.signature, Server.signature, same.port]

/-! One change -/

theorem changes_update (s : Server) (n m : Nat) (portType portType' : PortType)
    (changes : Option ChangeTable) :
    ((s.update n fun node => node.setChanges portType changes).nodes m).changes portType' =
      if m = n ∧ portType' = portType then changes else (s.nodes m).changes portType' := by
  by_cases same : m = n
  · subst same
    rw [nodes_update_self]
    by_cases type : portType' = portType
    · subst type
      simp [ServerNode.setChanges]
    · simp [ServerNode.setChanges, type]
  · rw [nodes_update_of_ne s same, if_neg fun both => same both.1]

theorem sameButMap_update (s : Server) (n : Nat) (portType : PortType) (changes : Option ChangeTable) :
    SameButMap s (s.update n fun node => node.setChanges portType changes) where
  node m := by
    by_cases same : m = n
    · subst same
      rw [nodes_update_self]
      exact ⟨_, rfl⟩
    · rw [nodes_update_of_ne s same]
      exact ⟨_, rfl⟩
  sent := rfl

def Exists (s : Server) (portType : PortType) (ref : PortRef) : Prop :=
  ref.portId < ((s.nodes ref.node).ports portType).length

theorem SameButMap.exists {s s' : Server} (same : SameButMap s s') {portType : PortType} {ref : PortRef} :
    s'.Exists portType ref ↔ s.Exists portType ref := by
  rw [Server.Exists, Server.Exists, same.ports]

/-- What the notifications leave: only tables have changed, and those that there were are there still. -/
structure Notes (s s' : Server) (event : ConnectorEvent) : Prop where
  same : SameButMap s s'
  map : s'.signatureMap = s.signatureMap
  tables : s'.Tables event
  kept : ∀ n portType, (s.nodes n).changes portType ≠ none → (s'.nodes n).changes portType ≠ none

theorem Notes.trans {s s₁ s₂ : Server} {event : ConnectorEvent} (first : Notes s s₁ event)
    (second : Notes s₁ s₂ event) : Notes s s₂ event where
  same := first.same.trans second.same
  map := second.map.trans first.map
  tables := second.tables
  kept n portType has := second.kept n portType (first.kept n portType has)

theorem createChanges_notes {s : Server} {event : ConnectorEvent} (tables : s.Tables event)
    (portType : PortType) (n : Nat) :
    Notes s (s.createChanges portType n) event ∧
    (∀ portType' ref, (s.createChanges portType n).noted portType' ref = s.noted portType' ref) ∧
    (0 < ((s.nodes n).ports portType).length →
      ((s.createChanges portType n).nodes n).changes portType ≠ none) := by
  rw [createChanges]
  by_cases create : ((s.nodes n).ports portType).length > 0 ∧ (s.nodes n).changes portType = none
  swap
  · rw [if_neg create]
    refine ⟨⟨.refl s, rfl, tables, fun _ _ has => has⟩, fun _ _ => rfl, fun some none => create ⟨some, none⟩⟩
  rw [if_pos create]
  let fresh : ChangeTable := List.replicate ((s.nodes n).ports portType).length {}
  let s₁ := s.update n fun node => node.setChanges portType (some fresh)
  obtain ⟨modified, result, more⟩ : ∃ modified,
      (if n ∈ s₁.modifiedNodes then s₁ else { s₁ with modifiedNodes := s₁.modifiedNodes ++ [n] }) =
        { s₁ with modifiedNodes := modified } ∧ ∀ m, m ∈ s.modifiedNodes ∨ m = n → m ∈ modified := by
    by_cases mem : n ∈ s.modifiedNodes
    · refine ⟨s.modifiedNodes, if_pos mem, ?_⟩
      rintro m (mem' | rfl)
      · exact mem'
      · exact mem
    · exact ⟨s.modifiedNodes ++ [n], if_neg mem, fun m either => by simpa using either⟩
  have changes := changes_update s n
  rw [show (if n ∈ s₁.modifiedNodes then s₁ else _) = _ from result]
  have same := sameButMap_update s n portType (some fresh)
  refine ⟨⟨⟨same.node, rfl⟩, rfl, ⟨?_, ?_, ?_⟩, ?_⟩, ?_, ?_⟩
  · intro m portType' table here
    rw [show ((s₁.nodes m).changes portType') = _ from changes m portType portType' _] at here
    rw [same.ports]
    split at here
    next both =>
      obtain ⟨rfl, rfl⟩ := both
      rw [← Option.some.inj here]
      exact List.length_replicate
    next => exact tables.length m portType' table here
  · intro m portType' table here entry mem
    rw [show ((s₁.nodes m).changes portType') = _ from changes m portType portType' _] at here
    split at here
    next both =>
      rw [← Option.some.inj here] at mem
      rw [List.eq_of_mem_replicate mem]
      simp
    next => exact tables.count m portType' table here entry mem
  · intro m portType' table here
    rw [show ((s₁.nodes m).changes portType') = _ from changes m portType portType' _] at here
    split at here
    next both => exact more m (.inr both.1)
    next => exact more m (.inl (tables.modified m portType' table here))
  · intro m portType' has
    rw [show ((s₁.nodes m).changes portType') = _ from changes m portType portType' _]
    split
    · exact Option.some_ne_none _
    · exact has
  · intro portType' ref
    rw [noted, noted, show ((s₁.nodes ref.node).changes portType') = _ from
      changes ref.node portType portType' _]
    by_cases both : ref.node = n ∧ portType' = portType
    · -- a fresh entry speaks of no port
      obtain ⟨rfl, rfl⟩ := both
      rw [if_pos ⟨rfl, rfl⟩, create.2, Option.bind_some]
      by_cases inside : ref.portId < ((s.nodes ref.node).ports portType').length
      · simp [fresh, inside]
      · simp [fresh, inside]
    · rw [if_neg both]
  · intro _
    rw [show ((s₁.nodes n).changes portType) = _ from changes n portType portType _, if_pos ⟨rfl, rfl⟩]
    exact Option.some_ne_none _

theorem act_notes {s : Server} {event : ConnectorEvent} (tables : s.Tables event) {portType : PortType}
    {port : PortRef} (other : PortRef) (inside : s.Exists portType port)
    (has : (s.nodes port.node).changes portType ≠ none) :
    ∃ s', s.act event portType port other = .ok () s' ∧ Notes s s' event ∧
      ∀ portType' ref, s'.noted portType' ref = s.noted portType' ref ++
        if portType' = portType ∧ ref = port then [other] else [] := by
  obtain ⟨table, here⟩ := Option.ne_none_iff_exists'.mp has
  have length := tables.length _ _ _ here
  obtain ⟨entry, found⟩ : ∃ entry, table[port.portId]? = some entry :=
    ⟨_, List.getElem?_eq_getElem (by rw [length]; exact inside)⟩
  obtain ⟨entry', acted, ports, counts⟩ := entry.act_ok event other
    (tables.count _ _ _ here entry (List.mem_of_getElem? found))
  let s' := s.update port.node fun node => node.setChanges portType (some (table.set port.portId entry'))
  have call : s.act event portType port other = .ok () s' := by
    rw [act, here]
    simp only [found, acted]
    rfl
  have same := sameButMap_update s port.node portType (some (table.set port.portId entry'))
  have changes := changes_update s port.node
  refine ⟨s', call, ⟨same, rfl, ⟨?_, ?_, ?_⟩, ?_⟩, ?_⟩
  · intro m portType' table' here'
    rw [show ((s'.nodes m).changes portType') = _ from changes m portType portType' _] at here'
    rw [same.ports]
    split at here'
    next both =>
      obtain ⟨rfl, rfl⟩ := both
      cases here'
      rw [List.length_set, length]
    next => exact tables.length m portType' table' here'
  · intro m portType' table' here' entry'' mem
    rw [show ((s'.nodes m).changes portType') = _ from changes m portType portType' _] at here'
    split at here'
    next both =>
      cases here'
      rcases List.mem_or_eq_of_mem_set mem with old | rfl
      · exact tables.count _ _ _ here entry'' old
      · exact counts
    next => exact tables.count m portType' table' here' entry'' mem
  · intro m portType' table' here'
    rw [show ((s'.nodes m).changes portType') = _ from changes m portType portType' _] at here'
    split at here'
    next both => exact both.1 ▸ tables.modified _ _ _ here
    next => exact tables.modified m portType' table' here'
  · intro m portType' has'
    rw [show ((s'.nodes m).changes portType') = _ from changes m portType portType' _]
    split
    · exact Option.some_ne_none _
    · exact has'
  · intro portType' ref
    rw [noted, noted, show ((s'.nodes ref.node).changes portType') = _ from
      changes ref.node portType portType' _]
    by_cases both : ref.node = port.node ∧ portType' = portType
    · obtain ⟨node, rfl⟩ := both
      rw [if_pos ⟨node, rfl⟩, node, here, Option.bind_some, Option.bind_some]
      by_cases portId : ref.portId = port.portId
      · obtain rfl : ref = port := by
          cases ref
          cases port
          simp_all
        rw [found, List.getElem?_set_self (List.getElem?_eq_some_iff.mp found).1, if_pos ⟨rfl, rfl⟩]
        exact ports
      · rw [List.getElem?_set_ne (Ne.symm portId), if_neg fun same => portId (by rw [same.2]),
          List.append_nil]
    · rw [if_neg both, if_neg fun same => both ⟨by rw [same.2], same.1⟩, List.append_nil]

/-- One pass through the notification: both ports take note of the other. -/
theorem notify_one {s : Server} {event : ConnectorEvent} (tables : s.Tables event) {portType : PortType}
    {port other : PortRef} (inside : s.Exists portType port) (inside' : s.Exists portType.opposite other) :
    ∃ s', (∀ rest, s.notify event portType port (other :: rest) = s'.notify event portType port rest) ∧
      Notes s s' event ∧
      (∀ ref, s'.noted portType ref = s.noted portType ref ++ if ref = port then [other] else []) ∧
      ∀ ref, s'.noted portType.opposite ref = s.noted portType.opposite ref ++
        if ref = other then [port] else [] := by
  obtain ⟨notes₁, noted₁, has₁⟩ := createChanges_notes tables portType port.node
  obtain ⟨notes₂, noted₂, has₂⟩ := createChanges_notes notes₁.tables portType.opposite other.node
  have notes := notes₁.trans notes₂
  have hasPort := notes₂.kept _ _ (has₁ (Nat.zero_lt_of_lt inside))
  have hasOther := has₂ (Nat.zero_lt_of_lt (notes₁.same.exists.mpr inside'))
  have insidePort := notes.same.exists.mpr inside
  have insideOther := notes.same.exists.mpr inside'
  cases portType with
  | provide =>
    obtain ⟨s₃, acted₃, notes₃, noted₃⟩ := act_notes notes.tables port insideOther hasOther
    obtain ⟨s₄, acted₄, notes₄, noted₄⟩ := act_notes notes₃.tables other
      (notes₃.same.exists.mpr insidePort) (notes₃.kept _ _ hasPort)
    refine ⟨s₄, ?_, (notes.trans notes₃).trans notes₄, ?_, ?_⟩
    · intro rest
      rw [notify]
      simp only [PortType.opposite] at acted₃ ⊢
      rw [acted₃, Result.bind_ok, acted₄, Result.bind_ok]
    · intro ref
      rw [noted₄, noted₃, noted₂, noted₁]
      simp [PortType.opposite]
    · intro ref
      rw [noted₄, noted₃, noted₂, noted₁]
      simp [PortType.opposite]
  | require =>
    obtain ⟨s₃, acted₃, notes₃, noted₃⟩ := act_notes notes.tables other insidePort hasPort
    obtain ⟨s₄, acted₄, notes₄, noted₄⟩ := act_notes notes₃.tables port
      (notes₃.same.exists.mpr insideOther) (notes₃.kept _ _ hasOther)
    refine ⟨s₄, ?_, (notes.trans notes₃).trans notes₄, ?_, ?_⟩
    · intro rest
      rw [notify]
      simp only [PortType.opposite] at acted₃ acted₄ ⊢
      rw [acted₃, Result.bind_ok, acted₄, Result.bind_ok]
    · intro ref
      rw [noted₄, noted₃, noted₂, noted₁]
      simp [PortType.opposite]
    · intro ref
      rw [noted₄, noted₃, noted₂, noted₁]
      simp [PortType.opposite]

theorem notify_notes {s : Server} {event : ConnectorEvent} (tables : s.Tables event) {portType : PortType}
    {port : PortRef} {others : List PortRef} (inside : s.Exists portType port)
    (valid : ∀ other ∈ others, s.Exists portType.opposite other) :
    ∃ s', s.notify event portType port others = .ok () s' ∧ Notes s s' event ∧
      (∀ ref, s'.noted portType ref = s.noted portType ref ++ if ref = port then others else []) ∧
      ∀ ref, s'.noted portType.opposite ref = s.noted portType.opposite ref ++
        List.replicate (others.count ref) port := by
  induction others generalizing s with
  | nil =>
    refine ⟨s, rfl, ⟨.refl s, rfl, tables, fun _ _ has => has⟩, fun ref => ?_, fun ref => ?_⟩
    · simp
    · simp
  | cons other rest ih =>
    rw [List.forall_mem_cons] at valid
    obtain ⟨s₁, pass, notes, own, opposite⟩ := notify_one tables inside valid.1
    obtain ⟨s', done, notes', own', opposite'⟩ := ih notes.tables (notes.same.exists.mpr inside)
      fun other mem => notes.same.exists.mpr (valid.2 other mem)
    refine ⟨s', (pass rest).trans done, notes.trans notes', fun ref => ?_, fun ref => ?_⟩
    · rw [own', own, List.append_assoc]
      by_cases same : ref = port
      · simp [same]
      · simp [same]
    · rw [opposite', opposite, List.append_assoc, List.count_cons]
      by_cases same : ref = other
      · subst same
        rw [if_pos rfl, if_pos (beq_self_eq_true ref), Nat.add_comm, List.replicate_add]
        rfl
      · rw [if_neg same, if_neg (by simpa using Ne.symm same)]
        rfl

/-! Insertion and removal of ports -/

/-- The ports of a type that the signature map lists under a signature -/
def entryPorts (s : Server) (signature : Bytes) (portType : PortType) : List PortRef :=
  ((s.signatureMap signature).getD {}).ports portType

/-- The ports of the other type that are listed under the signature of a port -/
def partners (s : Server) (portType : PortType) (ref : PortRef) : List PortRef :=
  match s.signature portType ref with
  | none => []
  | some signature => s.entryPorts signature portType.opposite

/-- The provide port that was listed last under a signature -/
def preferred (s : Server) (signature : Bytes) : Option PortRef :=
  (s.signatureMap signature).bind SignatureMapEntry.preferredProvider

theorem exists_of_signature {s : Server} {portType : PortType} {ref : PortRef} {signature : Bytes}
    (found : s.signature portType ref = some signature) : s.Exists portType ref := by
  obtain ⟨port, here, -⟩ := Option.bind_eq_some_iff.mp found
  exact (List.getElem?_eq_some_iff.mp here).1

/-- Every port is listed under its own signature. -/
def Listed (s : Server) : Prop :=
  ∀ signature portType, ∀ ref ∈ s.entryPorts signature portType, s.signature portType ref = some signature

/-- What the insertion of ports of one type leaves -/
structure Inserted (s s' : Server) (portType : PortType) (refs : List PortRef) : Prop where
  same : SameButMap s s'
  tables : s'.Tables .connected
  own : ∀ signature, s'.entryPorts signature portType = s.entryPorts signature portType ++
    refs.filter fun ref => s.signature portType ref = some signature
  opposite : ∀ signature,
    s'.entryPorts signature portType.opposite = s.entryPorts signature portType.opposite
  noted : ∀ ref, s'.noted portType ref = s.noted portType ref ++
    if ref ∈ refs then s.partners portType ref else []
  preferred : ∀ signature ref, s'.preferred signature = some ref →
    s.preferred signature = some ref ∨ portType = .provide ∧ ref ∈ refs

theorem insertPort_inserted {s : Server} (tables : s.Tables .connected) (listed : s.Listed)
    {portType : PortType} {ref : PortRef} {signature : Bytes}
    (found : s.signature portType ref = some signature) (nonempty : signature ≠ []) :
    ∃ s', s.insertPort portType ref = .ok () s' ∧ Inserted s s' portType [ref] := by
  let entry := ((s.signatureMap signature).getD {}).attach ref portType
  let s₁ := { s with signatureMap := Function.update s.signatureMap signature (some entry) }
  have partners_eq : s.partners portType ref = s.entryPorts signature portType.opposite := by
    rw [partners, found]
  have told : entry.ports portType.opposite = s.partners portType ref := by
    rw [partners_eq]
    cases portType <;> rfl
  have entries (signature' : Bytes) (portType' : PortType) : s₁.entryPorts signature' portType' =
      if signature' = signature then entry.ports portType' else s.entryPorts signature' portType' := by
    by_cases same : signature' = signature
    · subst same
      simp [s₁, entryPorts]
    · simp [s₁, entryPorts, same]
  have tables₁ : s₁.Tables .connected := ⟨tables.length, tables.count, tables.modified⟩
  have inside : s₁.Exists portType ref := exists_of_signature found
  have valid : ∀ other ∈ entry.ports portType.opposite, s₁.Exists portType.opposite other := by
    rw [told, partners_eq]
    exact fun other mem => exists_of_signature (listed signature _ other mem)
  obtain ⟨s', done, notes, own, -⟩ := notify_notes tables₁ inside valid
  refine ⟨s', ?_, ⟨⟨notes.same.node, notes.same.sent⟩, notes.tables, ?_, ?_, ?_, ?_⟩⟩
  · obtain ⟨byte, rest, rfl⟩ := List.exists_cons_of_ne_nil nonempty
    rw [insertPort, found]
    dsimp only
    rw [show Server.notify .connected portType ref _ (entry.ports portType.opposite) = _ from done]
  · intro signature'
    rw [entryPorts, notes.map, ← entryPorts, entries]
    by_cases same : signature' = signature
    · subst same
      rw [if_pos rfl, List.filter_singleton, found]
      simp only [decide_true, cond_true]
      cases portType <;> rfl
    · rw [if_neg same, List.filter_singleton, found]
      simp [Ne.symm same]
  · intro signature'
    rw [entryPorts, notes.map, ← entryPorts, entries]
    by_cases same : signature' = signature
    · subst same
      rw [if_pos rfl, told, partners_eq]
    · rw [if_neg same]
  · intro ref'
    rw [own ref', told]
    by_cases same : ref' = ref
    · subst same
      rw [if_pos rfl, if_pos (List.mem_singleton_self ref')]
      rfl
    · rw [if_neg same, if_neg (by simpa using same)]
      rfl
  · intro signature' ref' last
    rw [preferred, notes.map] at last
    by_cases same : signature' = signature
    · subst same
      simp only [s₁, Function.update_self, Option.bind_some] at last
      cases portType with
      | provide =>
        cases last
        exact .inr ⟨rfl, List.mem_singleton_self _⟩
      | require =>
        refine .inl ?_
        rw [preferred]
        cases before : s.signatureMap signature' with
        | none =>
          simp [entry, before, SignatureMapEntry.attach] at last
        | some entry' =>
          simpa [entry, before, SignatureMapEntry.attach] using last
    · simp only [s₁, Function.update_of_ne same] at last
      exact .inl last

theorem Inserted.listed {s s' : Server} {portType : PortType} {refs : List PortRef}
    (inserted : Inserted s s' portType refs) (listed : s.Listed) : s'.Listed := by
  intro signature portType' ref mem
  rw [inserted.same.signature]
  rcases portType.eq_or_opposite portType' with rfl | rfl
  · rw [inserted.own, List.mem_append, List.mem_filter] at mem
    rcases mem with mem | mem
    · exact listed signature _ ref mem
    · simpa using mem.2
  · rw [inserted.opposite] at mem
    exact listed signature _ ref mem

theorem Inserted.partners {s s' : Server} {portType : PortType} {refs : List PortRef}
    (inserted : Inserted s s' portType refs) (ref : PortRef) :
    s'.partners portType ref = s.partners portType ref := by
  rw [Server.partners, Server.partners, inserted.same.signature]
  cases s.signature portType ref with
  | none => rfl
  | some signature => exact inserted.opposite signature

theorem Inserted.cons {s s₁ s' : Server} {portType : PortType} {ref : PortRef} {rest : List PortRef}
    (first : Inserted s s₁ portType [ref]) (later : Inserted s₁ s' portType rest) (new : ref ∉ rest) :
    Inserted s s' portType (ref :: rest) where
  same := first.same.trans later.same
  tables := later.tables
  own signature := by
    rw [later.own, first.own, List.append_assoc]
    simp only [first.same.signature]
    by_cases same : s.signature portType ref = some signature
    · simp [same]
    · simp [same]
  opposite signature := (later.opposite signature).trans (first.opposite signature)
  noted ref' := by
    rw [later.noted, first.noted, first.partners]
    by_cases same : ref' = ref
    · subst same
      simp [new]
    · simp [same]
  preferred signature ref' last := by
    rcases later.preferred signature ref' last with last | ⟨type, mem⟩
    · rcases first.preferred signature ref' last with last | ⟨type, mem⟩
      · exact .inl last
      · exact .inr ⟨type, List.mem_cons.mpr (.inl (List.mem_singleton.mp mem))⟩
    · exact .inr ⟨type, List.mem_cons_of_mem _ mem⟩

theorem eachPort_inserted {s : Server} (tables : s.Tables .connected) (listed : s.Listed)
    {portType : PortType} {refs : List PortRef}
    (signed : ∀ ref ∈ refs, ∃ signature, s.signature portType ref = some signature ∧ signature ≠ [])
    (distinct : refs.Nodup) :
    ∃ s', eachPort (fun s ref => s.insertPort portType ref) s refs = .ok () s' ∧
      Inserted s s' portType refs := by
  induction refs generalizing s with
  | nil =>
    refine ⟨s, rfl, .refl s, tables, fun _ => ?_, fun _ => rfl, fun _ => ?_, fun _ _ last => .inl last⟩
    · simp
    · simp
  | cons ref rest ih =>
    rw [List.forall_mem_cons] at signed
    rw [List.nodup_cons] at distinct
    obtain ⟨signature, found, nonempty⟩ := signed.1
    obtain ⟨s₁, done, inserted⟩ := insertPort_inserted tables listed found nonempty
    obtain ⟨s', done', inserted'⟩ := ih inserted.tables (inserted.listed listed)
      (fun ref mem => by rw [inserted.same.signature]; exact signed.2 ref mem) distinct.2
    refine ⟨s', ?_, inserted.cons inserted' distinct.1⟩
    rw [eachPort, done, Result.bind_ok, done']

structure Removed (s s' : Server) (portType : PortType) (ref : PortRef) : Prop where
  same : SameButMap s s'
  tables : s'.Tables .disconnected
  own : ∀ signature, s'.entryPorts signature portType = (s.entryPorts signature portType).erase ref
  opposite : ∀ signature,
    s'.entryPorts signature portType.opposite = s.entryPorts signature portType.opposite
  noted : ∀ ref', s'.noted portType ref' = s.noted portType ref' ++
    if ref' = ref then s.partners portType ref else []
  notedOpposite : ∀ ref', s'.noted portType.opposite ref' = s.noted portType.opposite ref' ++
    List.replicate ((s.partners portType ref).count ref') ref
  preferred : ∀ signature ref', s'.preferred signature = some ref' → s.preferred signature = some ref'

theorem removePort_removed {s : Server} (tables : s.Tables .disconnected) (listed : s.Listed)
    {portType : PortType} {ref : PortRef} {signature : Bytes} (nonempty : signature ≠ [])
    (mem : ref ∈ s.entryPorts signature portType) :
    ∃ s', s.removePort portType ref = .ok () s' ∧ Removed s s' portType ref := by
  have found := listed signature portType ref mem
  obtain ⟨old, here⟩ : ∃ old, s.signatureMap signature = some old := by
    cases here : s.signatureMap signature with
    | some old => exact ⟨old, rfl⟩
    | none =>
      rw [entryPorts, here] at mem
      cases portType <;> exact absurd mem List.not_mem_nil
  let entry := old.detach ref portType
  let s₁ := { s with signatureMap := Function.update s.signatureMap signature (some entry) }
  have partners_eq : s.partners portType ref = s.entryPorts signature portType.opposite := by
    rw [partners, found]
  have own_eq : entry.ports portType = (s.entryPorts signature portType).erase ref := by
    rw [entryPorts, here]
    cases portType <;> rfl
  have told : entry.ports portType.opposite = s.entryPorts signature portType.opposite := by
    rw [entryPorts, here]
    cases portType <;> rfl
  have tables₁ : s₁.Tables .disconnected := ⟨tables.length, tables.count, tables.modified⟩
  have inside : s₁.Exists portType ref := exists_of_signature found
  have valid : ∀ other ∈ entry.ports portType.opposite, s₁.Exists portType.opposite other := by
    rw [told]
    exact fun other mem => exists_of_signature (listed signature _ other mem)
  obtain ⟨s₂, done, notes, own, opposite⟩ := notify_notes tables₁ inside valid
  -- whether the entry is deleted makes no difference to what is listed
  obtain ⟨s', call, nodes, sent, modified, map⟩ : ∃ s', s.removePort portType ref = .ok () s' ∧
      s'.nodes = s₂.nodes ∧ s'.sent = s₂.sent ∧ s'.modifiedNodes = s₂.modifiedNodes ∧
      s'.signatureMap = Function.update s.signatureMap signature
        (if entry.isEmpty then none else some entry) := by
    obtain ⟨byte, rest, rfl⟩ := List.exists_cons_of_ne_nil nonempty
    have step : s.removePort portType ref = if entry.isEmpty then
        (s₁.notify .disconnected portType ref (entry.ports portType.opposite)).lift fun s =>
          { s with signatureMap := Function.update s.signatureMap (byte :: rest) none }
        else s₁.notify .disconnected portType ref (entry.ports portType.opposite) := by
      rw [removePort, found]
      simp only [here]
      rfl
    rw [step, done]
    by_cases empty : entry.isEmpty
    · rw [if_pos empty, if_pos empty]
      refine ⟨_, rfl, rfl, rfl, rfl, ?_⟩
      show Function.update s₂.signatureMap _ _ = _
      rw [notes.map, Function.update_idem]
    · rw [if_neg empty, if_neg empty]
      exact ⟨_, rfl, rfl, rfl, rfl, notes.map⟩
  have entries (signature' : Bytes) (portType' : PortType) : s'.entryPorts signature' portType' =
      if signature' = signature then entry.ports portType' else s.entryPorts signature' portType' := by
    rw [entryPorts, map]
    by_cases same : signature' = signature
    · subst same
      rw [Function.update_self, if_pos rfl]
      by_cases empty : entry.isEmpty
      · have nothing : entry.providePorts = [] ∧ entry.requirePorts = [] := by
          simpa [SignatureMapEntry.isEmpty] using empty
        rw [if_pos empty]
        cases portType' with
        | provide => exact nothing.1.symm
        | require => exact nothing.2.symm
      · rw [if_neg empty]
        rfl
    · rw [Function.update_of_ne same, if_neg same]
      rfl
  have noted_eq (portType' : PortType) (ref' : PortRef) :
      s'.noted portType' ref' = s₂.noted portType' ref' := by
    rw [noted, nodes]
    rfl
  refine ⟨s', call, ⟨fun n => ?_, sent.trans notes.same.sent⟩, ⟨?_, ?_, ?_⟩, ?_, ?_, ?_, ?_, ?_⟩
  · rw [nodes]
    exact notes.same.node n
  · rw [nodes]
    exact notes.tables.length
  · rw [nodes]
    exact notes.tables.count
  · rw [nodes, modified]
    exact notes.tables.modified
  · intro signature'
    rw [entries]
    by_cases same : signature' = signature
    · subst same
      rw [if_pos rfl, own_eq]
    · rw [if_neg same, List.erase_of_not_mem]
      intro mem'
      have found' := listed signature' portType ref mem'
      rw [found] at found'
      exact same (Option.some.inj found').symm
  · intro signature'
    rw [entries]
    by_cases same : signature' = signature
    · subst same
      rw [if_pos rfl, told]
    · rw [if_neg same]
  · intro ref'
    rw [noted_eq, own, told, partners_eq]
    rfl
  · intro ref'
    rw [noted_eq, opposite, told, partners_eq]
    rfl
  · intro signature' ref' last
    rw [preferred, map] at last
    by_cases same : signature' = signature
    · subst same
      rw [Function.update_self] at last
      rw [preferred, here]
      by_cases empty : entry.isEmpty
      · rw [if_pos empty] at last
        contradiction
      · rw [if_neg empty] at last
        cases portType <;> exact last
    · rw [Function.update_of_ne same] at last
      exact last

/-! The end of a series of events -/

/-- The change tables between the events -/
structure Quiet (s : Server) : Prop where
  changes : ∀ n portType, (s.nodes n).changes portType = none
  modified : s.modifiedNodes = []

theorem Quiet.tables {s : Server} (quiet : s.Quiet) (event : ConnectorEvent) : s.Tables event where
  length n portType table here := by
    rw [quiet.changes] at here
    contradiction
  count n portType table here := by
    rw [quiet.changes] at here
    contradiction
  modified n portType table here := by
    rw [quiet.changes] at here
    contradiction

theorem Quiet.noted {s : Server} (quiet : s.Quiet) (portType : PortType) (ref : PortRef) :
    s.noted portType ref = [] := by
  rw [Server.noted, quiet.changes]
  rfl

/-- Every table of a modified node is cleared. -/
theorem clearPortConnectorChanges_quiet {s : Server}
    (modified : ∀ n portType table, (s.nodes n).changes portType = some table → n ∈ s.modifiedNodes) :
    s.clearPortConnectorChanges.Quiet ∧ SameButMap s s.clearPortConnectorChanges ∧
    s.clearPortConnectorChanges.signatureMap = s.signatureMap := by
  have loop (nodes : List Nat) : ∀ s : Server,
      let s' := nodes.foldl (fun s n => (s.clearChanges .provide n).clearChanges .require n) s
      SameButMap s s' ∧ s'.signatureMap = s.signatureMap ∧
      ∀ n portType, (s'.nodes n).changes portType =
        if n ∈ nodes then none else (s.nodes n).changes portType := by
    induction nodes with
    | nil => exact fun s => ⟨.refl s, rfl, fun _ _ => rfl⟩
    | cons first rest ih =>
      intro s
      let s₁ := s.clearChanges .provide first
      obtain ⟨same, map, changes⟩ := ih (s₁.clearChanges .require first)
      have cleared := (sameButMap_update s first .provide none).trans
        (sameButMap_update s₁ first .require none)
      refine ⟨cleared.trans same, map, fun n portType => ?_⟩
      rw [List.foldl_cons, changes, clearChanges, changes_update, show (s₁.nodes n).changes portType = _ from
        changes_update s first n .provide portType none]
      by_cases later : n ∈ rest
      · simp [later]
      · by_cases here : n = first
        · subst here
          cases portType <;> simp
        · simp [later, here]
  obtain ⟨same, map, changes⟩ := loop s.modifiedNodes s
  refine ⟨⟨fun n portType => ?_, rfl⟩, ⟨same.node, same.sent⟩, map⟩
  show ((List.foldl _ s s.modifiedNodes).nodes n).changes portType = none
  rw [changes]
  by_cases mem : n ∈ s.modifiedNodes
  · rw [if_pos mem]
  · rw [if_neg mem]
    cases here : (s.nodes n).changes portType with
    | none => rfl
    | some table => exact absurd (modified n portType table here) mem

end Server

end Apx
