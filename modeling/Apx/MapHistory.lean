import Apx.ConnectorChanges

/-! The port signature map over any sequence of ports that are attached to it and detached from it
(port_signature_map.c and port_signature_map_entry.c), beside the ports that are attached. -/

namespace Apx

namespace Server

/-- A step on the signature map: one port, as the loops of connect_* and disconnect_* take them, or what
clears the change tables in between -/
inductive MapCall where
  | attach (portType : PortType) (ref : PortRef)
  | detach (portType : PortType) (ref : PortRef)
  | clearChanges
  deriving DecidableEq, Repr

/-- The state behind a call, which may have returned an error, `none` where an assertion has failed -/
def returned : Result Server Unit → Option Server
  | .ok _ s => some s
  | .fail (.code _) s => some s
  | .fail _ _ => none

def after (s : Server) : MapCall → Option Server
  | .attach portType ref => returned (s.insertPort portType ref)
  | .detach portType ref => returned (s.removePort portType ref)
  | .clearChanges => some s.clearPortConnectorChanges

abbrev Attached := PortType → PortRef → Prop

def MapCall.attached (attached : Attached) : MapCall → Attached
  | .attach portType ref => fun portType' ref' => (portType' = portType ∧ ref' = ref) ∨ attached portType' ref'
  | .detach portType ref => fun portType' ref' => ¬(portType' = portType ∧ ref' = ref) ∧ attached portType' ref'
  | .clearChanges => attached

/-- What is to hold of the map beside the ports that are attached -/
structure Consistent (s : Server) (attached : Attached) : Prop where
  /-- A preferred provider is one of the provide ports of its entry. -/
  preferred : ∀ signature entry, s.signatureMap signature = some entry →
    ∀ ref ∈ entry.preferredProvider, ref ∈ entry.providePorts
  /-- There is an entry for the signatures of the ports that are attached. -/
  exists_iff : ∀ signature, s.signatureMap signature ≠ none ↔
    ∃ portType ref, attached portType ref ∧ s.signature portType ref = some signature
  /-- A port that is not attached occurs in no entry. -/
  detached : ∀ portType ref, ¬attached portType ref →
    ∀ signature entry, s.signatureMap signature = some entry → ref ∉ entry.ports portType

/-- A port to be detached occurs once at most in its entry, and the preferred provider is the only port there. -/
def Detachable (s : Server) (portType : PortType) (ref : PortRef) : Prop :=
  ∀ signature entry, s.signature portType ref = some signature → s.signatureMap signature = some entry →
    (entry.ports portType).count ref ≤ 1 ∧
      (portType = .provide → entry.preferredProvider = some ref → (entry.detach ref .provide).isEmpty)

def Allowed (s : Server) : MapCall → Prop
  | .detach portType ref => s.Detachable portType ref
  | _ => True

/-- The map is consistent in each state of these steps. -/
def StaysConsistent (s : Server) (attached : Attached) : List MapCall → Prop
  | [] => s.Consistent attached
  | call :: rest => s.Consistent attached ∧ ∀ s' ∈ s.after call, StaysConsistent s' (call.attached attached) rest

/-- Each step that does not end in an assertion is allowed when it comes. -/
def AllAllowed (s : Server) : List MapCall → Prop
  | [] => True
  | call :: rest => ∀ s' ∈ s.after call, s.Allowed call ∧ AllAllowed s' rest

/-! What a step does to the map -/

structure SameMap (s s' : Server) : Prop where
  same : SameButMap s s'
  map : s'.signatureMap = s.signatureMap

theorem SameMap.refl (s : Server) : SameMap s s := ⟨.refl s, rfl⟩

theorem SameMap.trans {s s₁ s₂ : Server} (first : SameMap s s₁) (second : SameMap s₁ s₂) : SameMap s s₂ :=
  ⟨first.same.trans second.same, second.map.trans first.map⟩

theorem sameMap_update (s : Server) (n : Nat) (portType : PortType) (changes : Option ChangeTable) :
    SameMap s (s.update n fun node => node.setChanges portType changes) :=
  ⟨sameButMap_update s n portType changes, rfl⟩

theorem createChanges_sameMap (s : Server) (portType : PortType) (n : Nat) :
    SameMap s (s.createChanges portType n) := by
  rw [createChanges]
  split
  · have update := sameMap_update s n portType (some (List.replicate ((s.nodes n).ports portType).length {}))
    dsimp only
    split
    · exact update
    · exact ⟨⟨update.same.node, update.same.sent⟩, update.map⟩
  · exact .refl s

theorem act_sameMap (s : Server) (event : ConnectorEvent) (portType : PortType) (port other : PortRef) :
    SameMap s (s.act event portType port other).state := by
  rw [act]
  split
  · exact .refl s
  · split
    · exact .refl s
    · split
      · exact .refl s
      · exact sameMap_update s _ _ _

theorem bind_sameMap {s : Server} {first : Result Server Unit} {second : Unit → Server → Result Server Unit}
    (here : SameMap s first.state) (later : ∀ s', SameMap s' (second () s').state) :
    SameMap s (first.bind second).state := by
  cases first with
  | ok value s' => exact here.trans (later s')
  | fail failure s' => exact here

theorem notify_sameMap (event : ConnectorEvent) (portType : PortType) (port : PortRef) (s : Server)
    (others : List PortRef) : SameMap s (s.notify event portType port others).state := by
  induction others generalizing s with
  | nil => exact .refl s
  | cons other rest ih =>
    have created := (createChanges_sameMap s portType port.node).trans
      (createChanges_sameMap _ portType.opposite other.node)
    have acted (s₁ : Server) (require provide : PortRef) :
        SameMap s₁ ((s₁.act event .require require provide).bind fun _ s =>
          (s.act event .provide provide require).bind fun _ s => notify event portType port s rest).state :=
      bind_sameMap (act_sameMap _ _ _ _ _) fun s₂ => bind_sameMap (act_sameMap s₂ _ _ _ _) ih
    cases portType <;> exact created.trans (acted _ _ _)

/-- The entry of a signature with another port, or with a new entry for it -/
def attachEntry (entry : Option SignatureMapEntry) (portType : PortType) (ref : PortRef) :
    Option SignatureMapEntry :=
  some ((entry.getD {}).attach ref portType)

/-- The entry of a signature without a port, unless nothing is left in it -/
def detachEntry (entry : Option SignatureMapEntry) (portType : PortType) (ref : PortRef) :
    Option SignatureMapEntry :=
  entry.bind fun entry =>
    if (entry.detach ref portType).isEmpty then none else some (entry.detach ref portType)

/-- The ports are as they were, and the entry of one signature is another one. -/
structure EntryChanged (s s' : Server) (signature : Bytes) (entry : Option SignatureMapEntry) : Prop where
  same : SameButMap s s'
  map : s'.signatureMap = Function.update s.signatureMap signature entry

theorem SameMap.changed {s s₁ s' : Server} {signature : Bytes} {entry : Option SignatureMapEntry}
    (second : SameMap s₁ s') (first : EntryChanged s s₁ signature entry) : EntryChanged s s' signature entry :=
  ⟨first.same.trans second.same, second.map.trans first.map⟩

theorem entryChanged (s : Server) (signature : Bytes) (entry : Option SignatureMapEntry) :
    EntryChanged s { s with signatureMap := Function.update s.signatureMap signature entry } signature entry :=
  ⟨⟨fun _ => ⟨_, rfl⟩, rfl⟩, rfl⟩

theorem state_of_returned {result : Result Server Unit} {s' : Server} (is : s' ∈ returned result) :
    s' = result.state := by
  cases result with
  | ok value s => exact (Option.some.inj is).symm
  | fail failure s =>
    cases failure with
    | code error => exact (Option.some.inj is).symm
    | assertion => contradiction
    | outOfBounds => contradiction

theorem after_attach {s s' : Server} {portType : PortType} {ref : PortRef}
    (reached : s' ∈ s.after (.attach portType ref)) :
    ∃ signature, s.signature portType ref = some signature ∧
      EntryChanged s s' signature (attachEntry (s.signatureMap signature) portType ref) := by
  have state := state_of_returned reached
  rw [after, insertPort] at reached
  rw [insertPort] at state
  cases found : s.signature portType ref with
  | none =>
    rw [found] at reached
    contradiction
  | some signature =>
    cases signature with
    | nil =>
      rw [found] at reached
      contradiction
    | cons b rest =>
      refine ⟨_, rfl, ?_⟩
      rw [found] at state
      dsimp only at state
      have told := notify_sameMap .connected portType ref
        { s with signatureMap := Function.update s.signatureMap (b :: rest)
                  (attachEntry (s.signatureMap (b :: rest)) portType ref) }
        ((((s.signatureMap (b :: rest)).getD {}).attach ref portType).ports portType.opposite)
      have same : s' = (Server.notify .connected portType ref
          { s with signatureMap := Function.update s.signatureMap (b :: rest)
                    (attachEntry (s.signatureMap (b :: rest)) portType ref) }
          ((((s.signatureMap (b :: rest)).getD {}).attach ref portType).ports portType.opposite)).state := by
        rw [state]
        split
        · next notified => exact (congrArg Result.state notified).symm
        · rfl
      rw [same]
      exact told.changed (entryChanged s _ _)

theorem after_detach {s s' : Server} {portType : PortType} {ref : PortRef}
    (reached : s' ∈ s.after (.detach portType ref)) :
    ∃ signature, s.signature portType ref = some signature ∧
      EntryChanged s s' signature (detachEntry (s.signatureMap signature) portType ref) := by
  have state := state_of_returned reached
  rw [after, removePort] at reached
  rw [removePort] at state
  cases found : s.signature portType ref with
  | none =>
    rw [found] at reached
    contradiction
  | some signature =>
    cases signature with
    | nil =>
      rw [found] at reached
      contradiction
    | cons b rest =>
      refine ⟨_, rfl, ?_⟩
      rw [found] at state
      dsimp only at state
      cases listed : s.signatureMap (b :: rest) with
      | none =>
        rw [listed] at state
        rw [state]
        have same : Function.update s.signatureMap (b :: rest) none = s.signatureMap := by
          rw [← listed, Function.update_eq_self]
        exact ⟨.refl s, same.symm⟩
      | some entry =>
        rw [listed] at state
        dsimp only at state
        have told := notify_sameMap .disconnected portType ref
          { s with signatureMap := Function.update s.signatureMap (b :: rest) (some (entry.detach ref portType)) }
          ((entry.detach ref portType).ports portType.opposite)
        have changed := told.changed (entryChanged s _ _)
        rw [detachEntry, Option.bind_some]
        by_cases empty : (entry.detach ref portType).isEmpty
        · rw [if_pos empty, Result.state_lift] at state
          rw [if_pos empty, state]
          refine ⟨⟨changed.same.node, changed.same.sent⟩, ?_⟩
          have map := congrArg (fun map => Function.update map (b :: rest) none) changed.map
          exact map.trans (Function.update_idem ..)
        · rw [if_neg empty] at state
          rw [if_neg empty, state]
          exact changed

/-! The lists of the map -/

/-- What the lists hold beside the ports that are attached, as long as each step is allowed -/
structure Lists (s : Server) (attached : Attached) : Prop where
  member : ∀ signature entry portType ref, s.signatureMap signature = some entry →
    (ref ∈ entry.ports portType ↔ attached portType ref ∧ s.signature portType ref = some signature)
  present : ∀ portType ref, attached portType ref →
    ∃ signature entry, s.signature portType ref = some signature ∧ s.signatureMap signature = some entry
  nonempty : ∀ signature entry, s.signatureMap signature = some entry → ∃ portType ref, ref ∈ entry.ports portType
  preferred : ∀ signature entry, s.signatureMap signature = some entry →
    ∀ ref ∈ entry.preferredProvider, ref ∈ entry.providePorts

theorem Lists.consistent {s : Server} {attached : Attached} (lists : s.Lists attached) : s.Consistent attached where
  preferred := lists.preferred
  exists_iff signature := by
    constructor
    · intro some_
      obtain ⟨entry, found⟩ := Option.ne_none_iff_exists'.mp some_
      obtain ⟨portType, ref, mem⟩ := lists.nonempty signature entry found
      exact ⟨portType, ref, (lists.member signature entry portType ref found).mp mem⟩
    · rintro ⟨portType, ref, attached_, own⟩ none_
      obtain ⟨signature', entry, own', found⟩ := lists.present portType ref attached_
      obtain rfl := Option.some.inj (own.symm.trans own')
      rw [none_] at found
      contradiction
  detached portType ref free signature entry found mem :=
    free ((lists.member signature entry portType ref found).mp mem).1

theorem isEmpty_iff (entry : SignatureMapEntry) : entry.isEmpty ↔ ∀ portType, entry.ports portType = [] := by
  rw [SignatureMapEntry.isEmpty, Bool.and_eq_true, List.isEmpty_iff, List.isEmpty_iff]
  constructor
  · rintro ⟨provide, require⟩ portType
    cases portType with
    | provide => exact provide
    | require => exact require
  · exact fun all => ⟨all .provide, all .require⟩

theorem ports_attach (entry : SignatureMapEntry) (portType portType' : PortType) (ref : PortRef) :
    (entry.attach ref portType).ports portType' =
      if portType' = portType then entry.ports portType' ++ [ref] else entry.ports portType' := by
  cases portType <;> cases portType' <;> rfl

theorem ports_detach (entry : SignatureMapEntry) (portType portType' : PortType) (ref : PortRef) :
    (entry.detach ref portType).ports portType' =
      if portType' = portType then (entry.ports portType').erase ref else entry.ports portType' := by
  cases portType <;> cases portType' <;> rfl

theorem preferred_detach (entry : SignatureMapEntry) (portType : PortType) (ref : PortRef) :
    (entry.detach ref portType).preferredProvider = entry.preferredProvider := by
  cases portType <;> rfl

/-- The ports of an entry, none where there is no entry -/
theorem Lists.member_getD {s : Server} {attached : Attached} (lists : s.Lists attached) (signature : Bytes)
    (portType : PortType) (ref : PortRef) :
    ref ∈ ((s.signatureMap signature).getD {}).ports portType ↔
      attached portType ref ∧ s.signature portType ref = some signature := by
  cases found : s.signatureMap signature with
  | some entry => exact lists.member signature entry portType ref found
  | none =>
    refine iff_of_false ?_ ?_
    · cases portType <;> exact List.not_mem_nil
    · rintro ⟨attached_, own⟩
      obtain ⟨signature', entry, own', found'⟩ := lists.present portType ref attached_
      obtain rfl := Option.some.inj (own.symm.trans own')
      rw [found] at found'
      contradiction

theorem Lists.attach {s s' : Server} {attached : Attached} (lists : s.Lists attached) {portType : PortType}
    {ref : PortRef} (reached : s' ∈ s.after (.attach portType ref)) :
    s'.Lists (MapCall.attached attached (.attach portType ref)) := by
  obtain ⟨signature, own, changed⟩ := after_attach reached
  have here : s'.signatureMap signature = some (((s.signatureMap signature).getD {}).attach ref portType) := by
    rw [changed.map, Function.update_self]
    rfl
  have others {signature' : Bytes} (other : signature' ≠ signature) :
      s'.signatureMap signature' = s.signatureMap signature' := by
    rw [changed.map, Function.update_of_ne other]
  refine ⟨?_, ?_, ?_, ?_⟩
  · intro signature' entry portType' ref' found
    rw [changed.same.signature, MapCall.attached]
    by_cases same : signature' = signature
    · subst same
      obtain rfl := Option.some.inj (here.symm.trans found)
      have before := lists.member_getD signature' portType' ref'
      rw [ports_attach]
      by_cases type : portType' = portType
      · subst type
        rw [if_pos rfl, List.mem_append, List.mem_singleton, before]
        constructor
        · rintro (⟨attached_, own'⟩ | rfl)
          · exact ⟨.inr attached_, own'⟩
          · exact ⟨.inl ⟨rfl, rfl⟩, own⟩
        · rintro ⟨⟨-, rfl⟩ | attached_, own'⟩
          · exact .inr rfl
          · exact .inl ⟨attached_, own'⟩
      · rw [if_neg type, before]
        exact and_congr_left fun _ => ⟨.inr, fun either => either.resolve_left fun both => type both.1⟩
    · rw [others same] at found
      rw [lists.member signature' entry portType' ref' found]
      refine and_congr_left fun own' => ⟨.inr, ?_⟩
      rintro (⟨rfl, rfl⟩ | attached_)
      · exact absurd (Option.some.inj (own'.symm.trans own)) same
      · exact attached_
  · rintro portType' ref' (⟨rfl, rfl⟩ | attached_)
    · exact ⟨signature, _, (changed.same.signature _ _).trans own, here⟩
    · obtain ⟨signature', entry, own', found⟩ := lists.present portType' ref' attached_
      rw [← changed.same.signature] at own'
      by_cases same : signature' = signature
      · subst same
        exact ⟨_, _, own', here⟩
      · exact ⟨_, _, own', (others same).trans found⟩
  · intro signature' entry found
    by_cases same : signature' = signature
    · subst same
      obtain rfl := Option.some.inj (here.symm.trans found)
      exact ⟨portType, ref, by rw [ports_attach, if_pos rfl]; exact List.mem_append_right _ (List.mem_singleton_self _)⟩
    · exact lists.nonempty signature' entry ((others same).symm.trans found)
  · intro signature' entry found
    by_cases same : signature' = signature
    · subst same
      obtain rfl := Option.some.inj (here.symm.trans found)
      cases portType with
      | provide =>
        rintro ref' last
        obtain rfl := Option.some.inj last
        exact List.mem_append_right _ (List.mem_singleton_self _)
      | require =>
        cases before : s.signatureMap signature' with
        | none => exact nofun
        | some entry => exact lists.preferred signature' entry before
    · exact lists.preferred signature' entry ((others same).symm.trans found)

/-- A port that occurs once at most is gone when it is detached. -/
theorem mem_erase_of_count {α : Type*} [DecidableEq α] {xs : List α} {x y : α} (once : xs.count x ≤ 1) :
    y ∈ xs.erase x ↔ y ≠ x ∧ y ∈ xs := by
  by_cases same : y = x
  · subst same
    refine iff_of_false ?_ fun both => both.1 rfl
    rw [← List.count_pos_iff, List.count_erase_self]
    omega
  · rw [List.mem_erase_of_ne same, and_iff_right same]

theorem Lists.detach {s s' : Server} {attached : Attached} (lists : s.Lists attached) {portType : PortType}
    {ref : PortRef} (reached : s' ∈ s.after (.detach portType ref)) (detachable : s.Detachable portType ref) :
    s'.Lists (MapCall.attached attached (.detach portType ref)) := by
  obtain ⟨signature, own, changed⟩ := after_detach reached
  have others {signature' : Bytes} (other : signature' ≠ signature) :
      s'.signatureMap signature' = s.signatureMap signature' := by
    rw [changed.map, Function.update_of_ne other]
  have here {entry' : SignatureMapEntry} (found : s'.signatureMap signature = some entry') :
      ∃ entry, s.signatureMap signature = some entry ∧ entry' = entry.detach ref portType ∧ ¬entry'.isEmpty := by
    rw [changed.map, Function.update_self, detachEntry] at found
    obtain ⟨entry, before, found⟩ := Option.bind_eq_some_iff.mp found
    rw [Option.ite_none_left_eq_some] at found
    obtain rfl := Option.some.inj found.2
    exact ⟨entry, before, rfl, found.1⟩
  refine ⟨?_, ?_, ?_, ?_⟩
  · intro signature' entry' portType' ref' found
    rw [changed.same.signature, MapCall.attached]
    by_cases same : signature' = signature
    · subst same
      obtain ⟨entry, before, rfl, some_⟩ := here found
      have member := lists.member signature' entry portType' ref' before
      rw [ports_detach]
      by_cases type : portType' = portType
      · subst type
        rw [if_pos rfl, mem_erase_of_count (detachable _ _ own before).1, member, ← and_assoc]
        simp
      · rw [if_neg type, member]
        simp [type]
    · rw [others same] at found
      rw [lists.member signature' entry' portType' ref' found]
      refine and_congr_left fun own' => ?_
      refine (and_iff_right ?_).symm
      rintro ⟨rfl, rfl⟩
      exact same (Option.some.inj (own'.symm.trans own))
  · rintro portType' ref' ⟨other, attached_⟩
    obtain ⟨signature', entry, own', found⟩ := lists.present portType' ref' attached_
    by_cases same : signature' = signature
    · subst same
      have mem := (lists.member _ entry portType' ref' found).mpr ⟨attached_, own'⟩
      have left : ref' ∈ (entry.detach ref portType).ports portType' := by
        rw [ports_detach]
        by_cases type : portType' = portType
        · subst type
          rw [if_pos rfl, List.mem_erase_of_ne fun same => other ⟨rfl, same⟩]
          exact mem
        · rw [if_neg type]
          exact mem
      have some_ : ¬(entry.detach ref portType).isEmpty := by
        rw [isEmpty_iff]
        exact fun all => List.ne_nil_of_mem left (all portType')
      refine ⟨_, entry.detach ref portType, (changed.same.signature _ _).trans own', ?_⟩
      rw [changed.map, Function.update_self, detachEntry, found, Option.bind_some, if_neg some_]
    · exact ⟨_, _, (changed.same.signature _ _).trans own', (others same).trans found⟩
  · intro signature' entry' found
    by_cases same : signature' = signature
    · subst same
      obtain ⟨entry, before, rfl, some_⟩ := here found
      rw [isEmpty_iff, not_forall] at some_
      obtain ⟨portType', some_⟩ := some_
      exact ⟨portType', List.exists_mem_of_ne_nil _ some_⟩
    · exact lists.nonempty signature' entry' ((others same).symm.trans found)
  · intro signature' entry' found
    by_cases same : signature' = signature
    · subst same
      obtain ⟨entry, before, rfl, some_⟩ := here found
      intro ref' last
      rw [preferred_detach] at last
      have mem := lists.preferred _ entry before ref' last
      cases portType with
      | require => exact mem
      | provide =>
        have other : ref' ≠ ref := by
          rintro rfl
          exact some_ ((detachable _ _ own before).2 rfl last)
        exact (List.mem_erase_of_ne other).mpr mem
    · exact lists.preferred signature' entry' ((others same).symm.trans found)

/-- Where the map is consistent behind it, a port was allowed to be detached. -/
theorem detachable_of_consistent {s s' : Server} {attached : Attached} {portType : PortType} {ref : PortRef}
    (reached : s' ∈ s.after (.detach portType ref))
    (consistent : s'.Consistent (MapCall.attached attached (.detach portType ref))) :
    s.Detachable portType ref := by
  obtain ⟨signature, own, changed⟩ := after_detach reached
  intro signature' entry own' before
  obtain rfl := Option.some.inj (own.symm.trans own')
  have erased := ports_detach entry portType portType ref
  rw [if_pos rfl] at erased
  have count := List.count_erase_self (a := ref) (l := entry.ports portType)
  by_cases empty : (entry.detach ref portType).isEmpty
  · refine ⟨?_, ?_⟩
    · rw [(isEmpty_iff _).mp empty portType] at erased
      rw [← erased, List.count_nil] at count
      omega
    · rintro rfl -
      exact empty
  · have found : s'.signatureMap signature = some (entry.detach ref portType) := by
      rw [changed.map, Function.update_self, detachEntry, before, Option.bind_some, if_neg empty]
    have gone : ref ∉ (entry.ports portType).erase ref := by
      rw [← erased]
      exact consistent.detached portType ref (fun both => both.1 ⟨rfl, rfl⟩) _ _ found
    refine ⟨?_, ?_⟩
    · rw [← List.count_eq_zero, count] at gone
      omega
    · rintro rfl last
      exact absurd (consistent.preferred _ _ found ref last) gone

theorem clearPortConnectorChanges_sameMap (s : Server) : SameMap s s.clearPortConnectorChanges := by
  have loop (nodes : List Nat) : ∀ s : Server,
      SameMap s (nodes.foldl (fun s n => (s.clearChanges .provide n).clearChanges .require n) s) := by
    induction nodes with
    | nil => exact .refl
    | cons first rest ih =>
      intro s
      exact (sameMap_update s first .provide none).trans ((sameMap_update _ first .require none).trans (ih _))
  have cleared := loop s.modifiedNodes s
  exact ⟨⟨cleared.same.node, cleared.same.sent⟩, cleared.map⟩

theorem Lists.of_sameMap {s s' : Server} {attached : Attached} (lists : s.Lists attached) (same : SameMap s s') :
    s'.Lists attached := by
  refine ⟨?_, ?_, ?_, ?_⟩
  · intro signature entry portType ref found
    rw [same.map] at found
    rw [same.same.signature]
    exact lists.member signature entry portType ref found
  · intro portType ref attached_
    rw [same.same.signature, same.map]
    exact lists.present portType ref attached_
  · rw [same.map]
    exact lists.nonempty
  · rw [same.map]
    exact lists.preferred

/-- A step of a map in order: it is allowed if and only if the map is consistent behind it, and then the map is in
order again. -/
theorem Lists.step {s s' : Server} {attached : Attached} (lists : s.Lists attached) {call : MapCall}
    (reached : s' ∈ s.after call) :
    (s.Allowed call → s'.Lists (call.attached attached)) ∧
      (s'.Consistent (call.attached attached) → s.Allowed call) := by
  cases call with
  | attach portType ref => exact ⟨fun _ => lists.attach reached, fun _ => trivial⟩
  | detach portType ref => exact ⟨lists.detach reached, detachable_of_consistent reached⟩
  | clearChanges =>
    obtain rfl := Option.some.inj reached
    exact ⟨fun _ => lists.of_sameMap s.clearPortConnectorChanges_sameMap, fun _ => trivial⟩

theorem Lists.staysConsistent_iff {s : Server} {attached : Attached} (lists : s.Lists attached)
    (calls : List MapCall) : s.StaysConsistent attached calls ↔ s.AllAllowed calls := by
  induction calls generalizing s attached with
  | nil => exact iff_of_true lists.consistent trivial
  | cons call rest ih =>
    constructor
    · rintro ⟨-, stays⟩ s' reached
      have consistent : s'.Consistent (call.attached attached) := by
        have here := stays s' reached
        cases rest with
        | nil => exact here
        | cons next rest => exact here.1
      have allowed := (lists.step reached).2 consistent
      exact ⟨allowed, (ih ((lists.step reached).1 allowed)).mp (stays s' reached)⟩
    · intro all
      refine ⟨lists.consistent, fun s' reached => ?_⟩
      obtain ⟨allowed, later⟩ := all s' reached
      exact (ih ((lists.step reached).1 allowed)).mpr later

/-- A new map stays consistent in every state of these steps if and only if each step is allowed when it comes. -/
theorem newMap_staysConsistent_iff (nodes : Nat → ServerNode) (calls : List MapCall) :
    ({ nodes := nodes } : Server).StaysConsistent (fun _ _ => False) calls ↔
      ({ nodes := nodes } : Server).AllAllowed calls := by
  refine Lists.staysConsistent_iff ⟨?_, nofun, ?_, ?_⟩ calls
  · intro signature entry portType ref found
    contradiction
  · intro signature entry found
    contradiction
  · intro signature entry found
    contradiction

/-- Nodes with one port of each type, all with one signature -/
def oneSignature : Server where
  nodes _ := {
    connection := 0
    inst := {
      mode := .server
      providePorts := [{ portType := .provide, portSignature := some [80] }]
      requirePorts := [{ portType := .require, portSignature := some [80] }]
      dataElements := []
      providePortInitData := none
      requirePortInitData := none
      providePortData := none
      requirePortData := none
      bytePortMap := none }
    state := fun _ => .connected }

/-- A provider that is detached while a requester keeps its entry stays the preferred provider. -/
theorem not_staysConsistent_oneSignature : ¬oneSignature.StaysConsistent (fun _ _ => False)
    [.attach .provide ⟨0, 0⟩, .attach .require ⟨1, 0⟩, .detach .provide ⟨0, 0⟩] := by
  intro stays
  have last := ((stays.2 _ rfl).2 _ rfl).2 _ rfl
  have mem := last.preferred [80] ⟨[⟨1, 0⟩], [], some ⟨0, 0⟩⟩ rfl ⟨0, 0⟩ rfl
  contradiction

/-! The ports that connect_* and disconnect_* take one by one -/

theorem eachPort_steps {call : Server → PortRef → Result Server Unit} {step : PortRef → MapCall}
    (same : ∀ s ref, s.after (step ref) = returned (call s ref)) {refs : List PortRef} {s s' : Server}
    (reached : s' ∈ returned (eachPort call s refs)) :
    ∃ taken, taken <+: refs ∧ (taken.map step).foldlM after s = some s' := by
  induction refs generalizing s with
  | nil =>
    obtain rfl := Option.some.inj reached
    exact ⟨[], List.prefix_refl _, rfl⟩
  | cons ref rest ih =>
    have here := same s ref
    rw [eachPort] at reached
    cases result : call s ref with
    | ok value s₁ =>
      rw [result] at reached here
      obtain ⟨taken, front, steps⟩ := ih reached
      refine ⟨ref :: taken, List.cons_prefix_cons.mpr ⟨rfl, front⟩, ?_⟩
      rw [List.map_cons, List.foldlM_cons, here]
      exact steps
    | fail failure s₁ =>
      rw [result] at reached here
      refine ⟨[ref], List.cons_prefix_cons.mpr ⟨rfl, List.nil_prefix⟩, ?_⟩
      rw [List.map_singleton, List.foldlM_cons, here]
      have found : returned (.fail failure s₁) = some s' := reached
      rw [found]
      rfl

/-- A call of connect_provide_ports or connect_require_ports attaches the ports of the node one by one, to the end
or to its first error. -/
theorem connectPorts_steps {s s' : Server} {portType : PortType} {n : Nat}
    (reached : s' ∈ returned (s.connectPorts portType n)) :
    ∃ taken, taken <+: s.refs portType n ∧ (taken.map (MapCall.attach portType)).foldlM after s = some s' :=
  eachPort_steps (fun _ _ => rfl) reached

/-- A call of disconnect_provide_ports or disconnect_require_ports detaches the ports of the node one by one, to the
end or to its first error. -/
theorem disconnectPorts_steps {s s' : Server} {portType : PortType} {n : Nat}
    (reached : s' ∈ returned (s.disconnectPorts portType n)) :
    ∃ taken, taken <+: s.refs portType n ∧ (taken.map (MapCall.detach portType)).foldlM after s = some s' :=
  eachPort_steps (fun _ _ => rfl) reached

end Server

end Apx
