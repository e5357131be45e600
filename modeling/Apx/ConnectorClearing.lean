import Apx.ConnectorChanges
import Apx.RoutingSync

/-! What the disconnect of a connection leaves in the connector lists of its nodes (server_connection.c,
node_instance.c). -/

namespace Apx

namespace Server

/-! The ports that leave the signature map one after the other -/

/-- The port is listed in the signature map. -/
def InMap (s : Server) (portType : PortType) (ref : PortRef) : Prop :=
  ∃ signature, signature ≠ [] ∧ ref ∈ s.entryPorts signature portType

/-- These ports are removed from the signature map, one by one. -/
inductive Removals : Server → List (PortType × PortRef) → Server → Prop
  | nil (s : Server) (tables : s.Tables .disconnected) (listed : s.Listed) : Removals s [] s
  | cons {s s₁ s' : Server} {portType : PortType} {ref : PortRef} {rest : List (PortType × PortRef)}
      (tables : s.Tables .disconnected) (listed : s.Listed) (inMap : s.InMap portType ref)
      (removed : Removed s s₁ portType ref) :
      Removals s₁ rest s' → Removals s ((portType, ref) :: rest) s'

theorem Removed.listed {s s' : Server} {portType : PortType} {ref : PortRef}
    (removed : Removed s s' portType ref) (listed : s.Listed) : s'.Listed := by
  intro signature portType' ref' mem
  rw [removed.same.signature]
  rcases portType.eq_or_opposite portType' with rfl | rfl
  · rw [removed.own] at mem
    exact listed signature _ ref' (List.mem_of_mem_erase mem)
  · rw [removed.opposite] at mem
    exact listed signature _ ref' mem

/-- Another port stays in its list. -/
theorem Removed.mem_iff {s s' : Server} {portType portType' : PortType} {ref ref' : PortRef}
    (removed : Removed s s' portType ref) (other : ¬(portType' = portType ∧ ref' = ref)) (signature : Bytes) :
    ref' ∈ s'.entryPorts signature portType' ↔ ref' ∈ s.entryPorts signature portType' := by
  rcases portType.eq_or_opposite portType' with rfl | rfl
  · rw [removed.own, List.mem_erase_of_ne fun same => other ⟨rfl, same⟩]
  · rw [removed.opposite]

theorem Removals.same {s s' : Server} {removed : List (PortType × PortRef)} (removals : Removals s removed s') :
    SameButMap s s' := by
  induction removals with
  | nil s => exact .refl s
  | cons _ _ _ removed _ ih => exact removed.same.trans ih

theorem Removals.tables {s s' : Server} {removed : List (PortType × PortRef)} (removals : Removals s removed s') :
    s'.Tables .disconnected := by
  induction removals with
  | nil s tables => exact tables
  | cons _ _ _ _ _ ih => exact ih

theorem Removals.listed {s s' : Server} {removed : List (PortType × PortRef)} (removals : Removals s removed s') :
    s'.Listed := by
  induction removals with
  | nil s _ listed => exact listed
  | cons _ _ _ _ _ ih => exact ih

theorem Removals.append {s s₁ s' : Server} {first second : List (PortType × PortRef)}
    (removals : Removals s first s₁) (more : Removals s₁ second s') : Removals s (first ++ second) s' := by
  induction removals with
  | nil s => exact more
  | cons tables listed inMap removed _ ih => exact .cons tables listed inMap removed (ih more)

theorem Removals.mem_iff {s s' : Server} {removed : List (PortType × PortRef)} (removals : Removals s removed s')
    {portType : PortType} {ref : PortRef} (other : (portType, ref) ∉ removed) (signature : Bytes) :
    ref ∈ s'.entryPorts signature portType ↔ ref ∈ s.entryPorts signature portType := by
  induction removals with
  | nil s => exact Iff.rfl
  | cons _ _ _ removed _ ih =>
    rw [List.mem_cons, not_or, Prod.mk.injEq] at other
    exact (ih other.2).trans (removed.mem_iff other.1 signature)

theorem eachPort_removals {s : Server} (tables : s.Tables .disconnected) (listed : s.Listed) {portType : PortType}
    {refs : List PortRef} (inMap : ∀ ref ∈ refs, s.InMap portType ref) (distinct : refs.Nodup) :
    Removals s (refs.map fun ref => (portType, ref))
      (eachPort (fun s ref => s.removePort portType ref) s refs).state := by
  induction refs generalizing s with
  | nil => exact .nil s tables listed
  | cons ref rest ih =>
    rw [List.forall_mem_cons] at inMap
    rw [List.nodup_cons] at distinct
    obtain ⟨signature, nonempty, mem⟩ := inMap.1
    obtain ⟨s₁, done, removed⟩ := removePort_removed tables listed nonempty mem
    rw [eachPort, done, Result.bind_ok]
    refine .cons tables listed inMap.1 removed (ih removed.tables (removed.listed listed) ?_ distinct.2)
    intro other later
    obtain ⟨signature', nonempty', mem'⟩ := inMap.2 other later
    refine ⟨signature', nonempty', (removed.mem_iff ?_ signature').mpr mem'⟩
    rintro ⟨-, rfl⟩
    exact distinct.1 later

/-- The ports of the nodes that are connected, in the order in which the disconnect removes them -/
def detached (s : Server) (nodes : List Nat) : List (PortType × PortRef) :=
  nodes.flatMap fun n =>
    (if (s.nodes n).state .require = .connected then (s.refs .require n).map fun ref => (.require, ref) else []) ++
      if (s.nodes n).state .provide = .connected then (s.refs .provide n).map fun ref => (.provide, ref) else []

/-- The change tables are empty, and every port of a node that is connected is listed, under its signature. -/
structure Steady (s : Server) : Prop where
  quiet : s.Quiet
  listed : s.Listed
  inMap : ∀ n portType, (s.nodes n).state portType = .connected → ∀ ref ∈ s.refs portType n, s.InMap portType ref

theorem SameButMap.state {s s' : Server} (same : SameButMap s s') (n : Nat) : (s'.nodes n).state = (s.nodes n).state := by
  obtain ⟨_, node⟩ := same.node n
  rw [node]

theorem SameButMap.refs {s s' : Server} (same : SameButMap s s') (portType : PortType) (n : Nat) :
    s'.refs portType n = s.refs portType n := by
  rw [Server.refs, Server.refs, same.ports]

theorem SameButMap.detached {s s' : Server} (same : SameButMap s s') (nodes : List Nat) :
    s'.detached nodes = s.detached nodes := by
  simp only [Server.detached, same.state, same.refs]

theorem refs_nodup (s : Server) (portType : PortType) (n : Nat) : (s.refs portType n).Nodup :=
  List.Nodup.map (fun _ _ same => congrArg PortRef.portId same) List.nodup_range

theorem node_of_refs {s : Server} {portType : PortType} {n : Nat} {ref : PortRef} (mem : ref ∈ s.refs portType n) :
    ref.node = n := by
  obtain ⟨portId, -, rfl⟩ := List.mem_map.mp mem
  rfl

theorem disconnectPorts_removals {s : Server} (tables : s.Tables .disconnected) (listed : s.Listed)
    (portType : PortType) (n : Nat) (connected : Bool)
    (inMap : connected → ∀ ref ∈ s.refs portType n, s.InMap portType ref) :
    Removals s (if connected then (s.refs portType n).map fun ref => (portType, ref) else [])
      (if connected then (s.disconnectPorts portType n).state else s) := by
  cases connected with
  | false => exact .nil s tables listed
  | true => exact eachPort_removals tables listed (inMap rfl) (refs_nodup s portType n)

theorem Removals.inMap {s s' : Server} {removed : List (PortType × PortRef)} (removals : Removals s removed s')
    {portType : PortType} {ref : PortRef} (other : (portType, ref) ∉ removed) (inMap : s.InMap portType ref) :
    s'.InMap portType ref := by
  obtain ⟨signature, nonempty, mem⟩ := inMap
  exact ⟨signature, nonempty, (removals.mem_iff other signature).mpr mem⟩

theorem removeNodes_removals {s : Server} (tables : s.Tables .disconnected) (listed : s.Listed) {nodes : List Nat}
    (inMap : ∀ n ∈ nodes, ∀ portType, (s.nodes n).state portType = .connected →
      ∀ ref ∈ s.refs portType n, s.InMap portType ref) (distinct : nodes.Nodup) :
    Removals s (s.detached nodes) (s.removeNodesFromSignatureMap nodes) := by
  induction nodes generalizing s with
  | nil => exact .nil s tables listed
  | cons n rest ih =>
    rw [List.nodup_cons] at distinct
    rw [List.forall_mem_cons] at inMap
    have first := disconnectPorts_removals tables listed .require n
      (decide ((s.nodes n).state .require = .connected)) fun connected => inMap.1 .require (of_decide_eq_true connected)
    simp only [decide_eq_true_eq] at first
    have second := disconnectPorts_removals first.tables first.listed .provide n
      (decide ((s.nodes n).state .provide = .connected)) (by
        intro connected ref mem
        rw [first.same.refs] at mem
        refine first.inMap ?_ (inMap.1 .provide (of_decide_eq_true connected) ref mem)
        split <;> simp)
    simp only [decide_eq_true_eq, first.same.refs] at second
    have both := first.append second
    have later := @ih _ both.tables both.listed (by
      intro m mem portType connected ref listed_
      rw [both.same.state] at connected
      rw [both.same.refs] at listed_
      refine both.inMap ?_ (inMap.2 m mem portType connected ref listed_)
      have other : m ≠ n := by
        rintro rfl
        exact distinct.1 mem
      have node := node_of_refs listed_
      intro removed
      rcases List.mem_append.mp removed with removed | removed <;>
      · split at removed
        · obtain ⟨ref', mem', same⟩ := List.mem_map.mp removed
          cases same
          exact other (node.symm.trans (node_of_refs mem'))
        · contradiction) distinct.2
    rw [both.same.detached] at later
    exact both.append later

/-! What the change tables say behind the removals -/

/-- A provide port and a require port with one signature: the provide port has been told, or both are listed. -/
def Tells (s : Server) (signature : Bytes) (provide require : PortRef) : Prop :=
  s.noted .provide provide ≠ [] ∨
    provide ∈ s.entryPorts signature .provide ∧ require ∈ s.entryPorts signature .require

/-- What a port has been told is kept. -/
theorem Removed.noted_append {s s' : Server} {portType : PortType} {ref : PortRef}
    (removed : Removed s s' portType ref) (portType' : PortType) (ref' : PortRef) :
    ∃ more, s'.noted portType' ref' = s.noted portType' ref' ++ more := by
  rcases portType.eq_or_opposite portType' with rfl | rfl
  · exact ⟨_, removed.noted ref'⟩
  · exact ⟨_, removed.notedOpposite ref'⟩

theorem Removed.told {s s' : Server} {portType portType' : PortType} {ref ref' : PortRef}
    (removed : Removed s s' portType ref) (noted : s.noted portType' ref' ≠ []) : s'.noted portType' ref' ≠ [] := by
  obtain ⟨more, append⟩ := removed.noted_append portType' ref'
  rw [append]
  exact fun none_ => noted (List.append_eq_nil_iff.mp none_).1

theorem Removals.told {s s' : Server} {removed : List (PortType × PortRef)} (removals : Removals s removed s')
    {portType : PortType} {ref : PortRef} (noted : s.noted portType ref ≠ []) : s'.noted portType ref ≠ [] := by
  induction removals with
  | nil s => exact noted
  | cons _ _ _ removed _ ih => exact ih (removed.told noted)

theorem partners_of_mem {s : Server} (listed : s.Listed) {signature : Bytes} {portType : PortType} {ref : PortRef}
    (mem : ref ∈ s.entryPorts signature portType) :
    s.partners portType ref = s.entryPorts signature portType.opposite := by
  rw [Server.partners, listed signature portType ref mem]

theorem Removed.tells {s s' : Server} {portType : PortType} {ref : PortRef} (removed : Removed s s' portType ref)
    (listed : s.Listed) {signature : Bytes} {provide require : PortRef} (tells : s.Tells signature provide require) :
    s'.Tells signature provide require ∧
      (portType = .provide → ref = provide → s'.noted .provide provide ≠ []) := by
  rcases tells with noted | ⟨provides, requires⟩
  · exact ⟨.inl (removed.told noted), fun _ _ => removed.told noted⟩
  · cases portType with
    | provide =>
      by_cases same : ref = provide
      · subst same
        have told : s'.noted .provide ref ≠ [] := by
          rw [removed.noted, if_pos rfl, partners_of_mem listed provides]
          exact fun none_ => List.ne_nil_of_mem requires (List.append_eq_nil_iff.mp none_).2
        exact ⟨.inl told, fun _ _ => told⟩
      · refine ⟨.inr ⟨?_, ?_⟩, fun _ is => absurd is same⟩
        · exact (removed.mem_iff (fun both => same both.2.symm) signature).mpr provides
        · exact (removed.mem_iff (fun both => PortType.noConfusion both.1) signature).mpr requires
    | require =>
      refine ⟨?_, fun is => PortType.noConfusion is⟩
      by_cases same : ref = require
      · subst same
        have told := removed.notedOpposite provide
        rw [partners_of_mem listed requires] at told
        refine .inl ?_
        intro none_
        have count : 0 < (s.entryPorts signature .provide).count provide := List.count_pos_iff.mpr provides
        have empty := (List.append_eq_nil_iff.mp (told.symm.trans none_)).2
        rw [List.replicate_eq_nil_iff] at empty
        exact absurd empty (Nat.ne_of_gt count)
      · refine .inr ⟨?_, ?_⟩
        · exact (removed.mem_iff (fun both => PortType.noConfusion both.1) signature).mpr provides
        · exact (removed.mem_iff (fun both => same both.2.symm) signature).mpr requires

/-- A provide port that is removed has been told of a require port that was listed with it. -/
theorem Removals.tells {s s' : Server} {removed : List (PortType × PortRef)} (removals : Removals s removed s')
    {signature : Bytes} {provide require : PortRef} (tells : s.Tells signature provide require)
    (mem : (.provide, provide) ∈ removed) : s'.noted .provide provide ≠ [] := by
  induction removals with
  | nil s => contradiction
  | cons tables listed inMap removed later ih =>
    obtain ⟨tells', own⟩ := removed.tells listed tells
    rcases List.mem_cons.mp mem with here | mem
    · cases here
      exact later.told (own rfl rfl)
    · exact ih tells' mem

/-- A require port that is still to be told of the one provider that its entry has, or of none -/
structure Untold (s : Server) (signature : Bytes) (ref : PortRef) (provider : Option PortRef) : Prop where
  noted : s.noted .require ref = []
  provides : s.entryPorts signature .provide = provider.toList
  once : (s.entryPorts signature .require).count ref = 1

/-- A require port that has been told of its provider, and will be told no more -/
structure Told (s : Server) (signature : Bytes) (ref : PortRef) (provider : Option PortRef) : Prop where
  noted : s.noted .require ref = provider.toList
  apart : ref ∉ s.entryPorts signature .require ∨ s.entryPorts signature .provide = []

/-- A port is listed under its own signature only. -/
theorem not_mem_of_signature {s : Server} (listed : s.Listed) {signature signature' : Bytes} {portType : PortType}
    {ref : PortRef} (own : s.signature portType ref = some signature) (other : signature' ≠ signature) :
    ref ∉ s.entryPorts signature' portType := by
  intro mem
  exact other (Option.some.inj ((listed signature' portType ref mem).symm.trans own))

theorem Removed.keeps_told {s s' : Server} {portType : PortType} {ref : PortRef}
    (removed : Removed s s' portType ref) (listed : s.Listed) (inMap : s.InMap portType ref) {signature : Bytes}
    {require : PortRef} (own : s.signature .require require = some signature) {provider : Option PortRef}
    (told : s.Told signature require provider) : s'.Told signature require provider := by
  obtain ⟨signature', -, mem⟩ := inMap
  cases portType with
  | require =>
    refine ⟨?_, ?_⟩
    · have noted := removed.noted require
      by_cases same : require = ref
      · subst same
        obtain rfl := Option.some.inj ((listed signature' .require require mem).symm.trans own)
        have none_ := told.apart.resolve_left (not_not_intro mem)
        rw [if_pos rfl, partners_of_mem listed mem] at noted
        rw [noted, told.noted, PortType.opposite, none_, List.append_nil]
      · rw [noted, if_neg same, List.append_nil, told.noted]
    · rw [removed.own]
      have provides := removed.opposite signature
      rw [PortType.opposite] at provides
      rw [provides]
      exact told.apart.imp_left fun apart mem' => apart (List.mem_of_mem_erase mem')
  | provide =>
    have requires := removed.opposite signature
    rw [PortType.opposite] at requires
    have noted := removed.notedOpposite require
    rw [partners_of_mem listed mem] at noted
    simp only [PortType.opposite] at noted
    have nothing : (s.entryPorts signature' .require).count require = 0 := by
      rw [List.count_eq_zero]
      by_cases same : signature' = signature
      · subst same
        exact told.apart.resolve_right (List.ne_nil_of_mem mem)
      · exact not_mem_of_signature listed own same
    refine ⟨?_, ?_⟩
    · rw [noted, nothing, List.replicate_zero, List.append_nil, told.noted]
    · rw [removed.own, requires]
      refine told.apart.imp_right fun none_ => ?_
      rw [none_]
      rfl

theorem Removed.untold {s s' : Server} {portType : PortType} {ref : PortRef}
    (removed : Removed s s' portType ref) (listed : s.Listed) (inMap : s.InMap portType ref) {signature : Bytes}
    {require : PortRef} (own : s.signature .require require = some signature) {provider : Option PortRef}
    (untold : s.Untold signature require provider) :
    s'.Told signature require provider ∨
      s'.Untold signature require provider ∧ ¬(portType = .require ∧ ref = require) := by
  obtain ⟨signature', -, mem⟩ := inMap
  cases portType with
  | require =>
    have provides := removed.opposite signature
    rw [PortType.opposite] at provides
    have noted := removed.noted require
    by_cases same : require = ref
    · subst same
      obtain rfl := Option.some.inj ((listed signature' .require require mem).symm.trans own)
      rw [if_pos rfl, partners_of_mem listed mem] at noted
      refine .inl ⟨?_, .inl ?_⟩
      · rw [noted, untold.noted, PortType.opposite, untold.provides, List.nil_append]
      · have count := List.count_erase_self (a := require) (l := s.entryPorts signature' .require)
        rw [untold.once] at count
        rw [removed.own]
        exact List.count_eq_zero.mp count
    · refine .inr ⟨⟨?_, ?_, ?_⟩, fun both => same both.2.symm⟩
      · rw [noted, if_neg same, List.append_nil, untold.noted]
      · rw [provides, untold.provides]
      · rw [removed.own, List.count_erase_of_ne same, untold.once]
  | provide =>
    have requires := removed.opposite signature
    rw [PortType.opposite] at requires
    have noted := removed.notedOpposite require
    rw [partners_of_mem listed mem] at noted
    simp only [PortType.opposite] at noted
    by_cases same : signature' = signature
    · subst same
      have one : provider = some ref := by
        rw [untold.provides] at mem
        exact Option.mem_toList.mp mem
      subst one
      refine .inl ⟨?_, .inr ?_⟩
      · rw [noted, untold.noted, untold.once]
        rfl
      · rw [removed.own, untold.provides]
        simp
    · have nothing : (s.entryPorts signature' .require).count require = 0 :=
        List.count_eq_zero.mpr (not_mem_of_signature listed own same)
      have elsewhere : ref ∉ s.entryPorts signature .provide := by
        intro mem'
        exact same (Option.some.inj ((listed signature' .provide ref mem).symm.trans (listed signature .provide ref mem')))
      refine .inr ⟨⟨?_, ?_, ?_⟩, fun both => PortType.noConfusion both.1⟩
      · rw [noted, nothing, List.replicate_zero, List.append_nil, untold.noted]
      · rw [removed.own, List.erase_of_not_mem elsewhere, untold.provides]
      · rw [requires, untold.once]

theorem Removals.keeps_told {s s' : Server} {removed : List (PortType × PortRef)} (removals : Removals s removed s')
    {signature : Bytes} {require : PortRef} (own : s.signature .require require = some signature)
    {provider : Option PortRef} (told : s.Told signature require provider) :
    s'.Told signature require provider := by
  induction removals with
  | nil s => exact told
  | cons tables listed inMap removed _ ih =>
    exact ih ((removed.same.signature _ _).trans own) (removed.keeps_told listed inMap own told)

/-- A require port that is removed has been told of its provider. -/
theorem Removals.hears {s s' : Server} {removed : List (PortType × PortRef)} (removals : Removals s removed s')
    {signature : Bytes} {require : PortRef} (own : s.signature .require require = some signature)
    {provider : Option PortRef} (untold : s.Untold signature require provider)
    (mem : (.require, require) ∈ removed) : s'.noted .require require = provider.toList := by
  induction removals with
  | nil s => contradiction
  | cons tables listed inMap removed later ih =>
    have own' := (removed.same.signature _ _).trans own
    rcases removed.untold listed inMap own untold with told | ⟨untold', other⟩
    · exact (later.keeps_told own' told).noted
    · refine ih own' untold' ((List.mem_cons.mp mem).resolve_left ?_)
      rintro here
      cases here
      exact other ⟨rfl, rfl⟩

/-! The rest of the disconnect -/

/-- Connectors, change tables and connected nodes have become fewer, and nothing else has changed that the
disconnect looks at. -/
structure Settles (s s' : Server) : Prop where
  ports : ∀ n portType, (s'.nodes n).ports portType = (s.nodes n).ports portType
  connectors : ∀ n p, (s'.connectors n p).Sublist (s.connectors n p)
  tableLength : ∀ n, (s'.nodes n).connectorTable.length = (s.nodes n).connectorTable.length
  state : ∀ n portType, (s'.nodes n).state portType = (s.nodes n).state portType ∨
    (s'.nodes n).state portType = .disconnected
  changes : ∀ n portType table, (s'.nodes n).changes portType = some table →
    (s.nodes n).changes portType = some table
  map : s'.signatureMap = s.signatureMap
  modified : s'.modifiedNodes ⊆ s.modifiedNodes

theorem Settles.refl (s : Server) : Settles s s :=
  ⟨fun _ _ => rfl, fun _ _ => .refl _, fun _ => rfl, fun _ _ => .inl rfl, fun _ _ _ has => has, rfl, List.Subset.refl _⟩

theorem Settles.trans {s s₁ s' : Server} (first : Settles s s₁) (second : Settles s₁ s') : Settles s s' where
  ports n portType := (second.ports n portType).trans (first.ports n portType)
  connectors n p := (second.connectors n p).trans (first.connectors n p)
  tableLength n := (second.tableLength n).trans (first.tableLength n)
  state n portType := (second.state n portType).elim
    (fun same => (first.state n portType).imp same.trans same.trans) .inr
  changes n portType table has := first.changes n portType table (second.changes n portType table has)
  map := second.map.trans first.map
  modified := List.Subset.trans second.modified first.modified

theorem settles_update (s : Server) (n : Nat) {change : ServerNode → ServerNode}
    (inst : (change (s.nodes n)).inst = (s.nodes n).inst)
    (connectors : ∀ p : Nat, ((change (s.nodes n)).connectorTable[p]?.getD []).Sublist
      ((s.nodes n).connectorTable[p]?.getD []))
    (tableLength : (change (s.nodes n)).connectorTable.length = (s.nodes n).connectorTable.length)
    (state : ∀ portType, (change (s.nodes n)).state portType = (s.nodes n).state portType ∨
      (change (s.nodes n)).state portType = .disconnected)
    (changes : ∀ portType table, (change (s.nodes n)).changes portType = some table →
      (s.nodes n).changes portType = some table) : Settles s (s.update n change) := by
  have each (m : Nat) : (s.update n change).nodes m = if m = n then change (s.nodes n) else s.nodes m := by
    by_cases same : m = n
    · subst same
      rw [nodes_update_self, if_pos rfl]
    · rw [nodes_update_of_ne s same, if_neg same]
  refine ⟨fun m portType => ?_, fun m p => ?_, fun m => ?_, fun m portType => ?_, fun m portType table has => ?_, rfl,
    List.Subset.refl _⟩
  · rw [each]
    split
    · next same => rw [same, ServerNode.ports, inst, ServerNode.ports]
    · rfl
  · rw [Server.connectors, each]
    split
    · next same =>
      rw [same]
      exact connectors p
    · exact .refl _
  · rw [each]
    split
    · next same => rw [same, tableLength]
    · rfl
  · rw [each]
    split
    · next same =>
      rw [same]
      exact state portType
    · exact .inl rfl
  · rw [each] at has
    split at has
    · next same =>
      rw [same]
      exact changes portType table has
    · exact has

theorem clearChanges_settles (s : Server) (portType : PortType) (n : Nat) : Settles s (s.clearChanges portType n) := by
  refine settles_update s n rfl (fun _ => .refl _) rfl (fun _ => .inl rfl) ?_
  intro portType' table has
  by_cases same : portType' = portType
  · subst same
    simp [ServerNode.setChanges] at has
  · simpa [ServerNode.setChanges, same] using has

theorem setState_self (node : ServerNode) (portType : PortType) (state : DataState) :
    (node.setState portType state).state portType = state := Function.update_self ..

theorem setState_of_ne (node : ServerNode) {portType portType' : PortType} (other : portType' ≠ portType)
    (state : DataState) : (node.setState portType state).state portType' = node.state portType' :=
  Function.update_of_ne other ..

theorem setDisconnected_state (node : ServerNode) (portType portType' : PortType) :
    (node.setState portType .disconnected).state portType' = node.state portType' ∨
      (node.setState portType .disconnected).state portType' = .disconnected := by
  by_cases same : portType' = portType
  · subst same
    exact .inr (setState_self ..)
  · exact .inl (setState_of_ne node same .disconnected)

theorem setDisconnected_settles (s : Server) (portType : PortType) (n : Nat) :
    Settles s (s.update n fun node => node.setState portType .disconnected) :=
  settles_update s n rfl (fun _ => .refl _) rfl (setDisconnected_state _ _) fun _ _ has => has

theorem gatherChanges_settles (portType : PortType) (nodes : List Nat) (s : Server)
    (gathered : List (Nat × ChangeTable)) : Settles s (gatherChanges portType s gathered nodes).1 := by
  induction nodes generalizing s gathered with
  | nil => exact .refl s
  | cons n rest ih =>
    rw [gatherChanges]
    split
    · split
      · exact (clearChanges_settles s portType n).trans (ih _ _)
      · exact (setDisconnected_settles s portType n).trans (ih _ _)
    · exact ih s gathered

theorem clearPortConnectorChanges_settles (s : Server) : Settles s s.clearPortConnectorChanges := by
  have loop (nodes : List Nat) : ∀ s : Server,
      Settles s (nodes.foldl (fun s n => (s.clearChanges .provide n).clearChanges .require n) s) := by
    induction nodes with
    | nil => exact .refl
    | cons n rest ih =>
      intro s
      exact (clearChanges_settles s .provide n).trans ((clearChanges_settles _ .require n).trans (ih _))
  have cleared := loop s.modifiedNodes s
  exact ⟨cleared.ports, cleared.connectors, cleared.tableLength, cleared.state, cleared.changes, cleared.map,
    List.nil_subset _⟩

theorem set_sublist {table : List (List PortRef)} {p : Nat} {refs : List PortRef}
    (fewer : refs.Sublist (table[p]?.getD [])) (q : Nat) :
    ((table.set p refs)[q]?.getD []).Sublist (table[q]?.getD []) := by
  rw [List.getElem?_set]
  by_cases same : p = q
  · subst same
    rw [if_pos rfl]
    split
    · exact fewer
    · exact List.nil_sublist _
  · rw [if_neg same]

theorem clearTable_settles (s : Server) (n : Nat) : Settles s (s.update n fun node =>
    { node.setState .provide .disconnected with connectorTable := node.connectorTable.set 0 [] }) :=
  settles_update s n rfl (fun p => set_sublist (List.nil_sublist _) p) (List.length_set ..)
    (setDisconnected_state _ _) fun _ _ has => has

theorem processDisconnectedProviders_settles (gathered : List (Nat × ChangeTable)) (s : Server) :
    Settles s (s.processDisconnectedProviders gathered) := by
  induction gathered generalizing s with
  | nil => exact .refl s
  | cons first rest ih => exact (clearTable_settles s first.1).trans (ih _)

theorem removeProvidePortConnector_settles (s : Server) (providePort requirePort : PortRef) :
    Settles s (s.removeProvidePortConnector providePort requirePort).state := by
  rw [removeProvidePortConnector]
  split
  · exact .refl s
  · next connectors here =>
    have fewer : (connectors.erase requirePort).Sublist
        ((s.nodes providePort.node).connectorTable[providePort.portId]?.getD []) := by
      rw [here]
      exact List.erase_sublist
    rw [Result.state_ok]
    exact settles_update s providePort.node rfl (set_sublist fewer) (List.length_set ..) (fun _ => .inl rfl)
      fun _ _ has => has

theorem handleRequirePortsDisconnected_settles (n : Nat) (table : ChangeTable) (s : Server) (portId : Nat) :
    Settles s (handleRequirePortsDisconnected n s portId table).state := by
  induction table generalizing s portId with
  | nil => exact .refl s
  | cons entry rest ih =>
    rw [handleRequirePortsDisconnected]
    split
    · exact .refl s
    · split
      · split
        · exact .refl s
        · next providePort _ =>
          have removed := removeProvidePortConnector_settles s providePort ⟨n, portId⟩
          cases done : s.removeProvidePortConnector providePort ⟨n, portId⟩ with
          | ok value s₁ =>
            rw [done] at removed
            exact removed.trans (ih s₁ (portId + 1))
          | fail failure s₁ =>
            rw [done] at removed
            exact removed
      · split
        · exact .refl s
        · exact ih s (portId + 1)

theorem processDisconnectedRequesters_settles (gathered : List (Nat × ChangeTable)) (s : Server) :
    Settles s (s.processDisconnectedRequesters gathered) := by
  induction gathered generalizing s with
  | nil => exact .refl s
  | cons first rest ih =>
    exact (handleRequirePortsDisconnected_settles first.1 first.2 s 0).trans
      ((setDisconnected_settles _ .require first.1).trans (ih _))

/-- What has been gathered stays gathered, and each node that is connected and has a table is gathered. -/
theorem mem_gatherChanges {portType : PortType} {nodes : List Nat} (distinct : nodes.Nodup) {s : Server}
    {gathered : List (Nat × ChangeTable)} {n : Nat} {table : ChangeTable}
    (either : (n, table) ∈ gathered ∨ n ∈ nodes ∧ (s.nodes n).state portType = .connected ∧
      (s.nodes n).changes portType = some table) :
    (n, table) ∈ (gatherChanges portType s gathered nodes).2 := by
  induction nodes generalizing s gathered with
  | nil => exact either.resolve_right fun both => List.not_mem_nil both.1
  | cons m rest ih =>
    rw [List.nodup_cons] at distinct
    rw [gatherChanges]
    rcases either with mem | ⟨mem, connected, has⟩
    · split
      · split
        · exact ih distinct.2 (.inl (List.mem_append_left _ mem))
        · exact ih distinct.2 (.inl mem)
      · exact ih distinct.2 (.inl mem)
    · rcases List.mem_cons.mp mem with rfl | later
      · rw [if_pos connected, has]
        exact ih distinct.2 (.inl (List.mem_append_right _ (List.mem_singleton_self _)))
      · have other : n ≠ m := by
          rintro rfl
          exact distinct.1 later
        split
        · split
          · exact ih distinct.2 (.inr ⟨later, by rw [clearChanges, nodes_update_of_ne s other]; exact ⟨connected, has⟩⟩)
          · exact ih distinct.2 (.inr ⟨later, by rw [nodes_update_of_ne s other]; exact ⟨connected, has⟩⟩)
        · exact ih distinct.2 (.inr ⟨later, connected, has⟩)

/-- What is gathered of one type leaves the other one as it is. -/
theorem gatherChanges_opposite (portType : PortType) (nodes : List Nat) (s : Server)
    (gathered : List (Nat × ChangeTable)) (n : Nat) :
    ((gatherChanges portType s gathered nodes).1.nodes n).state portType.opposite =
        (s.nodes n).state portType.opposite ∧
      ((gatherChanges portType s gathered nodes).1.nodes n).changes portType.opposite =
        (s.nodes n).changes portType.opposite := by
  induction nodes generalizing s gathered with
  | nil => exact ⟨rfl, rfl⟩
  | cons m rest ih =>
    have ne := portType.opposite_ne
    have cleared : ((s.clearChanges portType m).nodes n).state portType.opposite = (s.nodes n).state portType.opposite ∧
        ((s.clearChanges portType m).nodes n).changes portType.opposite = (s.nodes n).changes portType.opposite := by
      by_cases same : n = m
      · subst same
        simp [clearChanges, ServerNode.setChanges, ne]
      · rw [clearChanges, nodes_update_of_ne s same]
        exact ⟨rfl, rfl⟩
    have set_ : ((s.update m fun node => node.setState portType .disconnected).nodes n).state portType.opposite =
          (s.nodes n).state portType.opposite ∧
        ((s.update m fun node => node.setState portType .disconnected).nodes n).changes portType.opposite =
          (s.nodes n).changes portType.opposite := by
      by_cases same : n = m
      · subst same
        simp [ServerNode.setState, ne]
      · rw [nodes_update_of_ne s same]
        exact ⟨rfl, rfl⟩
    rw [gatherChanges]
    split
    · split
      · exact ⟨(ih _ _).1.trans cleared.1, (ih _ _).2.trans cleared.2⟩
      · exact ⟨(ih _ _).1.trans set_.1, (ih _ _).2.trans set_.2⟩
    · exact ih s gathered

theorem gatherChanges_modified (portType : PortType) (nodes : List Nat) (s : Server)
    (gathered : List (Nat × ChangeTable)) :
    (gatherChanges portType s gathered nodes).1.modifiedNodes = s.modifiedNodes := by
  induction nodes generalizing s gathered with
  | nil => rfl
  | cons n rest ih =>
    rw [gatherChanges]
    split
    · split
      · exact ih _ _
      · exact ih _ _
    · exact ih _ _

/-- A node that is still connected behind the gathering has been gathered. -/
theorem gathered_of_connected {portType : PortType} {nodes : List Nat} (distinct : nodes.Nodup) {s : Server}
    {gathered : List (Nat × ChangeTable)} {n : Nat} (mem : n ∈ nodes)
    (connected : ((gatherChanges portType s gathered nodes).1.nodes n).state portType = .connected) :
    ∃ table, (n, table) ∈ (gatherChanges portType s gathered nodes).2 := by
  have before := (gatherChanges_settles portType nodes s gathered).state n portType
  rw [connected] at before
  have here := before.resolve_right DataState.noConfusion
  cases has : (s.nodes n).changes portType with
  | some table => exact ⟨table, mem_gatherChanges distinct (.inr ⟨mem, here.symm, has⟩)⟩
  | none =>
    exfalso
    clear before
    induction nodes generalizing s gathered with
    | nil => contradiction
    | cons m rest ih =>
      rw [List.nodup_cons] at distinct
      rw [gatherChanges] at connected
      rcases List.mem_cons.mp mem with rfl | later
      · rw [if_pos here.symm, has] at connected
        have after := (gatherChanges_settles portType rest
          (s.update n fun node => node.setState portType .disconnected) gathered).state n portType
        rw [connected, nodes_update_self] at after
        simp [ServerNode.setState] at after
      · have other : n ≠ m := by
          rintro rfl
          exact distinct.1 later
        split at connected
        · split at connected
          · refine ih distinct.2 later connected ?_ ?_
            all_goals rw [clearChanges, nodes_update_of_ne s other]
            · exact here
            · exact has
          · refine ih distinct.2 later connected ?_ ?_
            all_goals rw [nodes_update_of_ne s other]
            · exact here
            · exact has
        · exact ih distinct.2 later connected here has

/-- The first list of a provider that was gathered is empty. -/
theorem processDisconnectedProviders_clears {gathered : List (Nat × ChangeTable)} {s : Server} {n : Nat}
    {table : ChangeTable} (mem : (n, table) ∈ gathered) :
    (s.processDisconnectedProviders gathered).connectors n 0 = [] := by
  induction gathered generalizing s with
  | nil => contradiction
  | cons first rest ih =>
    rcases List.mem_cons.mp mem with rfl | mem
    · have later := processDisconnectedProviders_settles rest (s.update n fun node =>
        { node.setState .provide .disconnected with connectorTable := node.connectorTable.set 0 [] })
      have empty : (s.update n fun node => { node.setState .provide .disconnected with
          connectorTable := node.connectorTable.set 0 [] }).connectors n 0 = [] := by
        rw [Server.connectors, nodes_update_self, List.getElem?_set, if_pos rfl]
        split <;> rfl
      exact List.sublist_nil.mp (empty ▸ later.connectors n 0)
    · exact ih mem

theorem processDisconnectedProviders_state {gathered : List (Nat × ChangeTable)} {s : Server} {n : Nat}
    {table : ChangeTable} (mem : (n, table) ∈ gathered) :
    ((s.processDisconnectedProviders gathered).nodes n).state .provide = .disconnected := by
  induction gathered generalizing s with
  | nil => contradiction
  | cons first rest ih =>
    rcases List.mem_cons.mp mem with rfl | mem
    · have later := processDisconnectedProviders_settles rest (s.update n fun node =>
        { node.setState .provide .disconnected with connectorTable := node.connectorTable.set 0 [] })
      have here := later.state n .provide
      rw [nodes_update_self] at here
      exact here.elim (fun same => same.trans (setState_self (s.nodes n) .provide .disconnected)) id
    · exact ih mem

theorem processDisconnectedRequesters_state {gathered : List (Nat × ChangeTable)} {s : Server} {n : Nat}
    {table : ChangeTable} (mem : (n, table) ∈ gathered) :
    ((s.processDisconnectedRequesters gathered).nodes n).state .require = .disconnected := by
  induction gathered generalizing s with
  | nil => contradiction
  | cons first rest ih =>
    rcases List.mem_cons.mp mem with rfl | mem
    · have later := processDisconnectedRequesters_settles rest ((handleRequirePortsDisconnected n s 0 table).state.update n
        fun node => node.setState .require .disconnected)
      have here := later.state n .require
      rw [nodes_update_self] at here
      exact here.elim (fun same => same.trans (setState_self _ _ _)) id
    · exact ih mem

/-- An entry of a require port that was told of one provider, which has a connector list, or of none -/
def Handled (s : Server) (entry : ChangeEntry) : Prop :=
  entry.count = 0 ∨ entry.count = -1 ∧
    ∃ provider : PortRef, entry.ports = [provider] ∧ provider.portId < (s.nodes provider.node).connectorTable.length

theorem Settles.handled {s s' : Server} (settles : Settles s s') {entry : ChangeEntry} (handled : s.Handled entry) :
    s'.Handled entry := by
  refine handled.imp_right fun ⟨count, provider, ports, inside⟩ => ⟨count, provider, ports, ?_⟩
  rw [settles.tableLength]
  exact inside

/-- A require port that was told of its provider is taken out of its connector list, unless an entry in front of its
own one ends the loop. -/
theorem handleRequirePortsDisconnected_erases {n : Nat} {table : ChangeTable} {s : Server} {portId i : Nat}
    {provider : PortRef} {entry : ChangeEntry} (here : table[i]? = some entry) (count : entry.count = -1)
    (ports : entry.ports = [provider]) (front : ∀ j ≤ i, ∀ entry ∈ table[j]?, s.Handled entry)
    (once : (s.connectors provider.node provider.portId).count ⟨n, portId + i⟩ ≤ 1) :
    ⟨n, portId + i⟩ ∉ (handleRequirePortsDisconnected n s portId table).state.connectors
      provider.node provider.portId := by
  have removes (portId : Nat) (first : ChangeEntry) (rest : ChangeTable) (s : Server) (handled : s.Handled first) :
      ∃ s₁, Settles s s₁ ∧ handleRequirePortsDisconnected n s portId (first :: rest) =
          handleRequirePortsDisconnected n s₁ (portId + 1) rest ∧
        ∀ provider, first.count = -1 → first.ports = [provider] →
          s₁.connectors provider.node provider.portId =
            (s.connectors provider.node provider.portId).erase ⟨n, portId⟩ := by
    rw [handleRequirePortsDisconnected]
    rcases handled with none_ | ⟨one, provider, ports, inside⟩
    · refine ⟨s, .refl s, ?_, fun _ one => ?_⟩
      · rw [if_neg (by omega), if_neg (by omega), if_neg (by omega)]
      · rw [none_] at one
        contradiction
    · have settles := removeProvidePortConnector_settles s provider ⟨n, portId⟩
      have table : (s.nodes provider.node).connectorTable[provider.portId]? =
          some (s.connectors provider.node provider.portId) := by
        rw [Server.connectors, List.getElem?_eq_getElem inside]
        rfl
      have done : ∃ s₁, s.removeProvidePortConnector provider ⟨n, portId⟩ = .ok () s₁ ∧
          s₁.connectors provider.node provider.portId =
            (s.connectors provider.node provider.portId).erase ⟨n, portId⟩ := by
        rw [removeProvidePortConnector, table]
        refine ⟨_, rfl, ?_⟩
        rw [Server.connectors, nodes_update_self, List.getElem?_set, if_pos rfl, if_pos inside]
        rfl
      obtain ⟨s₁, done, erased⟩ := done
      rw [done] at settles
      refine ⟨s₁, settles, ?_, ?_⟩
      · rw [if_neg (by omega), if_pos one, ports]
        simp only [List.getElem?_cons_zero, done, Result.bind_ok]
      · intro provider' _ ports'
        obtain rfl := (List.cons.inj (ports.symm.trans ports')).1
        exact erased
  induction table generalizing s portId i with
  | nil => contradiction
  | cons first rest ih =>
    obtain ⟨s₁, settles, passes, erases⟩ := removes portId first rest s (front 0 (Nat.zero_le i) first rfl)
    rw [passes]
    cases i with
    | zero =>
      obtain rfl := Option.some.inj here
      have later := handleRequirePortsDisconnected_settles n rest s₁ (portId + 1)
      intro mem
      have mem' := (later.connectors provider.node provider.portId).mem mem
      rw [erases provider count ports, Nat.add_zero, ← List.count_pos_iff, List.count_erase_self] at mem'
      rw [Nat.add_zero] at once
      omega
    | succ i =>
      have shift : portId + (i + 1) = portId + 1 + i := by omega
      rw [shift] at once ⊢
      refine ih here (fun j le entry is => ?_) ?_
      · exact settles.handled (front (j + 1) (Nat.succ_le_succ le) entry is)
      · exact Nat.le_trans ((settles.connectors _ _).count_le _) once

/-- A require port that was told of its provider is not among the connectors any more. -/
theorem processDisconnectedRequesters_erases {gathered : List (Nat × ChangeTable)} {s : Server} {n i : Nat}
    {table : ChangeTable} (mem : (n, table) ∈ gathered) {provider : PortRef} {entry : ChangeEntry}
    (here : table[i]? = some entry) (count : entry.count = -1) (ports : entry.ports = [provider])
    (front : ∀ j ≤ i, ∀ entry ∈ table[j]?, s.Handled entry)
    (once : (s.connectors provider.node provider.portId).count ⟨n, i⟩ ≤ 1) :
    ⟨n, i⟩ ∉ (s.processDisconnectedRequesters gathered).connectors provider.node provider.portId := by
  induction gathered generalizing s with
  | nil => contradiction
  | cons first rest ih =>
    have settles := (handleRequirePortsDisconnected_settles first.1 first.2 s 0).trans
      (setDisconnected_settles _ .require first.1)
    rcases List.mem_cons.mp mem with rfl | mem
    · have erased := @handleRequirePortsDisconnected_erases n table s 0 i provider entry here count ports front
        (by rwa [Nat.zero_add])
      rw [Nat.zero_add] at erased
      have later := (setDisconnected_settles (handleRequirePortsDisconnected n s 0 table).state .require n).trans
        (processDisconnectedRequesters_settles rest _)
      exact fun mem => erased ((later.connectors _ _).mem mem)
    · exact ih mem (fun j le entry is => settles.handled (front j le entry is))
        (Nat.le_trans ((settles.connectors _ _).count_le _) once)

end Server

end Apx
