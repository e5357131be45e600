import Apx.ConnectorChanges

/-! The entry of a port connector change table as it is stored: a count with a sign, and a union of one port and an
array of ports (port_connector_change_entry.c). -/

namespace Apx

/-- apx_portInstance_t*, which may be null -/
abbrev PortPointer := Option PortRef

/-- adt_error_t without ADT_NO_ERROR -/
inductive AdtError where
  | invalidArgument | mem | indexOutOfBounds | length | notImplemented | other
  deriving DecidableEq, Repr

/-- convert_from_adt_to_apx_error -/
def convertFromAdtToApxError : AdtError → ApxError
  | .invalidArgument => .invalidArgument
  | .mem => .memory
  | .indexOutOfBounds => .invalidArgument
  | .length => .length
  | .notImplemented => .notImplemented
  | .other => .internal

/-- How the calls into adt_ary end: whether adt_ary_new has memory, and the errors of adt_ary_push for the port that
is already there and for the new one -/
structure AryMemory where
  new : Bool := true
  first : Option AdtError := none
  push : Option AdtError := none
  deriving DecidableEq, Repr

/-- Nothing fails. -/
def AryMemory.Suffices (memory : AryMemory) : Prop := memory.new = true ∧ memory.first = none ∧ memory.push = none

/-- The union in an entry -/
inductive ChangeData where
  | portInstance (port : PortPointer)
  | array (ports : List PortPointer)
  deriving DecidableEq, Repr

/-- apx_portConnectorChangeEntry_t, as apx_portConnectorChangeEntry_create leaves it -/
structure StoredChangeEntry where
  count : BitVec 32 := 0
  data : ChangeData := .portInstance none
  deriving DecidableEq, Repr

def ConnectorEvent.step : ConnectorEvent → BitVec 32
  | .connected => 1
  | .disconnected => -1

namespace StoredChangeEntry

/-- What the two functions below do, which differ in the counts that they reject and in the direction they count in.
Where the count says that the union holds the other of its two forms, one address would be taken for another. -/
def change (rejected : Int → Prop) [DecidablePred rejected] (step : BitVec 32) (memory : AryMemory)
    (entry : StoredChangeEntry) (port : PortPointer) : Result StoredChangeEntry Unit :=
  if rejected entry.count.toInt then .fail (.code .unsupported) entry
  else if entry.count = 0 then .ok () { count := entry.count + step, data := .portInstance port }
  else if entry.count = step then
    match entry.data with
    | .array _ => .fail .outOfBounds entry
    | .portInstance tmp =>
      -- the union holds the null pointer that adt_ary_new returns
      if memory.new = false then .fail (.code .memory) { entry with data := .portInstance none }
      else
        match memory.first with
        | some error => .fail (.code (convertFromAdtToApxError error)) { entry with data := .array [] }
        | none =>
          match memory.push with
          | some error => .fail (.code (convertFromAdtToApxError error)) { entry with data := .array [tmp] }
          | none => .ok () { count := entry.count + step, data := .array [tmp, port] }
  else
    match entry.data with
    | .portInstance _ => .fail .outOfBounds entry
    | .array ports =>
      match memory.push with
      | some error => .fail (.code (convertFromAdtToApxError error)) entry
      | none => .ok () { count := entry.count + step, data := .array (ports ++ [port]) }

/-- apx_portConnectorChangeEntry_add_connection -/
def addConnection : AryMemory → StoredChangeEntry → PortPointer → Result StoredChangeEntry Unit :=
  change (· < 0) ConnectorEvent.connected.step

/-- apx_portConnectorChangeEntry_remove_connection -/
def removeConnection : AryMemory → StoredChangeEntry → PortPointer → Result StoredChangeEntry Unit :=
  change (· > 0) ConnectorEvent.disconnected.step

def act : ConnectorEvent → AryMemory → StoredChangeEntry → PortPointer → Result StoredChangeEntry Unit
  | .connected => addConnection
  | .disconnected => removeConnection

/-- apx_portConnectorChangeEntry_get -/
def get (entry : StoredChangeEntry) (index : BitVec 32) : Except Failure PortPointer :=
  if entry.count ≠ 0 ∧ 0 ≤ index.toInt then
    if entry.count = 1 ∨ entry.count = -1 then
      if index = 0 then
        match entry.data with
        | .portInstance port => .ok port
        | .array _ => .error .outOfBounds
      else .ok none
    else if entry.count.toInt < 0 ∧ index.toInt < (-entry.count).toInt ∨
        entry.count.toInt > 0 ∧ index.toInt < entry.count.toInt then
      match entry.data with
      | .portInstance _ => .error .outOfBounds
      | .array ports => .ok ports[index.toNat]?.join
    else .ok none
  else .ok none

end StoredChangeEntry

def ChangeData.ofPorts : List PortRef → ChangeData
  | [] => .portInstance none
  | [port] => .portInstance (some port)
  | ports => .array (ports.map some)

theorem ChangeData.ofPorts_array {ports : List PortRef} (several : 1 < ports.length) :
    ofPorts ports = .array (ports.map some) := by
  match ports, several with
  | _ :: _ :: _, _ => rfl

theorem ConnectorEvent.step_eq (event : ConnectorEvent) : event.step = BitVec.ofInt 32 event.sign := by
  cases event <;> rfl

theorem ConnectorEvent.sign_cases (event : ConnectorEvent) : event.sign = 1 ∨ event.sign = -1 := by
  cases event
  · exact .inl rfl
  · exact .inr rfl

namespace StoredChangeEntry

def ofPorts (event : ConnectorEvent) (ports : List PortRef) : StoredChangeEntry where
  count := BitVec.ofInt 32 (event.sign * ports.length)
  data := .ofPorts ports

theorem ofPorts_nil (event event' : ConnectorEvent) : ofPorts event [] = ofPorts event' [] := by
  rw [ofPorts, ofPorts, List.length_nil, Int.natCast_zero, Int.mul_zero, Int.mul_zero]

section

variable {event : ConnectorEvent} {ports : List PortRef}

theorem count_ofPorts (small : ports.length < 2 ^ 31) :
    (ofPorts event ports).count.toInt = event.sign * ports.length := by
  rw [ofPorts, BitVec.toInt_ofInt]
  rcases event.sign_cases with sign | sign
  · rw [sign]
    exact Int.bmod_eq_of_le (by omega) (by omega)
  · rw [sign]
    exact Int.bmod_eq_of_le (by omega) (by omega)

theorem count_eq_iff (small : ports.length < 2 ^ 31) {x : Int} (lower : -2 ^ 31 ≤ x) (upper : x < 2 ^ 31) :
    (ofPorts event ports).count = BitVec.ofInt 32 x ↔ event.sign * ports.length = x := by
  have same : (BitVec.ofInt 32 x).toInt = x := by
    rw [BitVec.toInt_ofInt]
    exact Int.bmod_eq_of_le (by omega) (by omega)
  rw [← BitVec.toInt_inj, count_ofPorts small, same]

theorem count_append (port : PortRef) :
    (ofPorts event ports).count + event.step = (ofPorts event (ports ++ [port])).count := by
  rw [ofPorts, ofPorts, event.step_eq, ← BitVec.ofInt_add, List.length_append, List.length_singleton]
  congr 1
  rw [Int.natCast_add, Int.mul_add]
  simp

/-- An event of the other kind is rejected. -/
theorem act_opposite (small : ports.length < 2 ^ 31) (some_ : ports ≠ []) {other : ConnectorEvent}
    (opposite : other ≠ event) (memory : AryMemory) (port : PortPointer) :
    act other memory (ofPorts event ports) port = .fail (.code .unsupported) (ofPorts event ports) := by
  have positive := List.length_pos_of_ne_nil some_
  have count := @count_ofPorts event ports small
  cases event with
  | connected =>
    cases other with
    | connected => contradiction
    | disconnected =>
      rw [ConnectorEvent.sign] at count
      exact if_pos (by omega)
  | disconnected =>
    cases other with
    | connected =>
      rw [ConnectorEvent.sign] at count
      exact if_pos (by omega)
    | disconnected => contradiction

/-- One more port of the same event, where the library decides what fails -/
def append (event : ConnectorEvent) (memory : AryMemory) (port : PortRef) :
    List PortRef → Result StoredChangeEntry Unit
  | [] => .ok () (ofPorts event [port])
  | [tmp] =>
    if memory.new = false then .fail (.code .memory) { ofPorts event [tmp] with data := .portInstance none }
    else
      match memory.first with
      | some error => .fail (.code (convertFromAdtToApxError error)) { ofPorts event [tmp] with data := .array [] }
      | none =>
        match memory.push with
        | some error =>
          .fail (.code (convertFromAdtToApxError error)) { ofPorts event [tmp] with data := .array [some tmp] }
        | none => .ok () (ofPorts event [tmp, port])
  | first :: second :: rest =>
    match memory.push with
    | some error => .fail (.code (convertFromAdtToApxError error)) (ofPorts event (first :: second :: rest))
    | none => .ok () (ofPorts event (first :: second :: rest ++ [port]))

theorem change_same (small : ports.length < 2 ^ 31) (memory : AryMemory) (port : PortRef) (rejected : Int → Prop)
    [DecidablePred rejected] (admits : ¬rejected (event.sign * ports.length)) :
    change rejected event.step memory (ofPorts event ports) (some port) = append event memory port ports := by
  have grown := @count_append event ports port
  have zero : (ofPorts event ports).count = 0 ↔ event.sign * ports.length = 0 :=
    @count_eq_iff event ports small 0 (by decide) (by decide)
  have one := @count_eq_iff event ports small event.sign (by cases event <;> decide) (by cases event <;> decide)
  rw [← event.step_eq] at one
  rw [change, count_ofPorts small, if_neg admits]
  match ports with
  | [] =>
    rw [if_pos (zero.mpr (by simp)), grown]
    rfl
  | [tmp] =>
    have other : event.sign * [tmp].length ≠ 0 := by
      rw [List.length_singleton]
      rcases event.sign_cases with sign | sign <;> rw [sign] <;> decide
    rw [if_neg (mt zero.mp other), if_pos (one.mpr (by simp)), grown]
    rfl
  | first :: second :: rest =>
    have several : event.sign * (first :: second :: rest).length ≠ event.sign ∧
        event.sign * (first :: second :: rest).length ≠ 0 := by
      rw [List.length_cons, List.length_cons]
      rcases event.sign_cases with sign | sign <;> rw [sign] <;> omega
    rw [if_neg (mt zero.mp several.2), if_neg (mt one.mp several.1), grown]
    have union : ChangeData.array ((first :: second :: rest).map some ++ [some port]) =
        (ofPorts event (first :: second :: rest ++ [port])).data := by
      rw [ofPorts, ChangeData.ofPorts_array (by simp), List.map_append]
      rfl
    rw [append]
    cases memory.push with
    | some error => rfl
    | none =>
      show Result.ok () (StoredChangeEntry.mk _ (.array ((first :: second :: rest).map some ++ [some port]))) = _
      rw [union]

/-- What an event of the same kind does: it only fails where the library does. -/
theorem act_same (small : ports.length < 2 ^ 31) (memory : AryMemory) (port : PortRef) :
    act event memory (ofPorts event ports) (some port) = append event memory port ports := by
  cases event with
  | connected =>
    have admits : ¬ConnectorEvent.connected.sign * ports.length < 0 := by
      rw [ConnectorEvent.sign]
      omega
    exact change_same small memory port (· < 0) admits
  | disconnected =>
    have admits : ¬ConnectorEvent.disconnected.sign * ports.length > 0 := by
      rw [ConnectorEvent.sign]
      omega
    exact change_same small memory port (· > 0) admits

end

/-- The entry stands for a list of accepted calls, each with its event and its port. -/
structure Represents (entry : StoredChangeEntry) (accepted : List (ConnectorEvent × PortRef)) : Prop where
  length : entry.count.toInt.natAbs = accepted.length
  sign : ∀ call ∈ accepted, entry.count.toInt.sign = call.1.sign
  get : ∀ index : BitVec 32, entry.get index =
    .ok (if 0 ≤ index.toInt then (accepted.map Prod.snd)[index.toInt.toNat]? else none)
  single : accepted.length = 1 ↔ ∃ port, entry.data = .portInstance (some port)
  array : 1 < accepted.length ↔ ∃ ports, entry.data = .array ports
  rejects : ∀ call ∈ accepted, ∀ event, event ≠ call.1 → ∀ memory port,
    act event memory entry port = .fail (.code .unsupported) entry

theorem toNat_of_nonneg {index : BitVec 32} (nonneg : 0 ≤ index.toInt) : index.toInt.toNat = index.toNat := by
  have cond := BitVec.toInt_eq_toNat_cond index
  have below := index.isLt
  split at cond <;> omega

theorem get_ofPorts {event : ConnectorEvent} {ports : List PortRef} (small : ports.length < 2 ^ 31)
    (index : BitVec 32) :
    (ofPorts event ports).get index = .ok (if 0 ≤ index.toInt then ports[index.toInt.toNat]? else none) := by
  have count := @count_ofPorts event ports small
  have zero : (ofPorts event ports).count = 0 ↔ event.sign * ports.length = 0 :=
    @count_eq_iff event ports small 0 (by decide) (by decide)
  have one : (ofPorts event ports).count = 1 ↔ event.sign * ports.length = 1 :=
    @count_eq_iff event ports small 1 (by decide) (by decide)
  have minusOne : (ofPorts event ports).count = -1 ↔ event.sign * ports.length = -1 := by
    rw [show (-1 : BitVec 32) = BitVec.ofInt 32 (-1) by decide]
    exact @count_eq_iff event ports small (-1) (by decide) (by decide)
  rw [get]
  by_cases nonneg : 0 ≤ index.toInt
  · rw [if_pos nonneg]
    match ports with
    | [] =>
      rw [if_neg fun both => both.1 (zero.mpr (by simp))]
      rfl
    | [port] =>
      have isOne : event.sign * [port].length = 1 ∨ event.sign * [port].length = -1 := by
        simpa using event.sign_cases
      rw [if_pos ⟨mt zero.mp (by omega), nonneg⟩, if_pos (isOne.imp one.mpr minusOne.mpr)]
      by_cases first : index = 0
      · rw [if_pos first, first]
        rfl
      · have behind : 0 < index.toNat := by
          rw [Nat.pos_iff_ne_zero]
          exact fun same => first (BitVec.eq_of_toNat_eq same)
        rw [if_neg first, toNat_of_nonneg nonneg, List.getElem?_eq_none (by rw [List.length_singleton]; exact behind)]
    | first :: second :: rest =>
      have several : 2 ≤ (first :: second :: rest).length := by simp
      have large : ¬((ofPorts event (first :: second :: rest)).count = 1 ∨
          (ofPorts event (first :: second :: rest)).count = -1) := by
        rw [one, minusOne]
        rcases event.sign_cases with sign | sign <;> rw [sign] <;> omega
      have some_ : (ofPorts event (first :: second :: rest)).count ≠ 0 := by
        rw [ne_eq, zero]
        rcases event.sign_cases with sign | sign <;> rw [sign] <;> omega
      have negated : (-(ofPorts event (first :: second :: rest)).count).toInt =
          -(event.sign * (first :: second :: rest).length) := by
        rw [BitVec.toInt_neg, count]
        rcases event.sign_cases with sign | sign
        · rw [sign]
          exact Int.bmod_eq_of_le (by omega) (by omega)
        · rw [sign]
          exact Int.bmod_eq_of_le (by omega) (by omega)
      rw [if_pos ⟨some_, nonneg⟩, if_neg large, count, negated]
      have union : (ofPorts event (first :: second :: rest)).data = .array ((first :: second :: rest).map some) :=
        ChangeData.ofPorts_array several
      by_cases inside : index.toInt < (first :: second :: rest).length
      · have here : event.sign * (first :: second :: rest).length < 0 ∧
            index.toInt < -(event.sign * (first :: second :: rest).length) ∨
            event.sign * (first :: second :: rest).length > 0 ∧
              index.toInt < event.sign * (first :: second :: rest).length := by
          rcases event.sign_cases with sign | sign <;> rw [sign] <;> omega
        rw [if_pos here, union, toNat_of_nonneg nonneg]
        dsimp only
        rw [List.getElem?_map]
        cases (first :: second :: rest)[index.toNat]? <;> rfl
      · have beyond : ¬(event.sign * (first :: second :: rest).length < 0 ∧
            index.toInt < -(event.sign * (first :: second :: rest).length) ∨
            event.sign * (first :: second :: rest).length > 0 ∧
              index.toInt < event.sign * (first :: second :: rest).length) := by
          rcases event.sign_cases with sign | sign <;> rw [sign] <;> omega
        rw [if_neg beyond, List.getElem?_eq_none (by omega)]
  · rw [if_neg nonneg, if_neg fun both => nonneg both.2]

theorem represents_ofPorts (event : ConnectorEvent) {ports : List PortRef} (small : ports.length < 2 ^ 31) :
    (ofPorts event ports).Represents (ports.map fun port => (event, port)) where
  length := by
    rw [count_ofPorts small, List.length_map]
    rcases event.sign_cases with sign | sign <;> rw [sign] <;> omega
  sign := by
    intro call mem
    obtain ⟨port, inside, rfl⟩ := List.mem_map.mp mem
    have positive := List.length_pos_of_mem inside
    rw [count_ofPorts small]
    rcases event.sign_cases with sign | sign
    · rw [sign]
      exact Int.sign_eq_one_of_pos (by omega)
    · rw [sign]
      exact Int.sign_eq_neg_one_of_neg (by omega)
  get := by
    intro index
    rw [get_ofPorts small, List.map_map]
    simp
  single := by
    match ports with
    | [] => exact ⟨nofun, fun ⟨port, same⟩ => nomatch same⟩
    | [port] => exact ⟨fun _ => ⟨port, rfl⟩, fun _ => rfl⟩
    | _ :: _ :: _ => exact ⟨nofun, fun ⟨port, same⟩ => nomatch same⟩
  array := by
    match ports with
    | [] => exact ⟨nofun, fun ⟨ports, same⟩ => nomatch same⟩
    | [port] => exact ⟨fun more => absurd more (Nat.lt_irrefl 1), fun ⟨ports, same⟩ => nomatch same⟩
    | _ :: _ :: _ => exact ⟨fun _ => ⟨_, rfl⟩, fun _ => by simp⟩
  rejects := by
    intro call mem other opposite memory port
    obtain ⟨port', inside, rfl⟩ := List.mem_map.mp mem
    exact act_opposite small (List.ne_nil_of_mem inside) opposite memory port

end StoredChangeEntry

/-! Runs of calls on one entry -/

/-- A call of one of the two functions, with what the library does in it -/
structure EntryCall where
  event : ConnectorEvent
  port : PortRef
  memory : AryMemory := {}

structure EntryRun where
  entry : StoredChangeEntry := {}
  accepted : List (ConnectorEvent × PortRef) := []

namespace EntryRun

def call (run : EntryRun) (c : EntryCall) : EntryRun :=
  match StoredChangeEntry.act c.event c.memory run.entry (some c.port) with
  | .ok _ entry => { entry := entry, accepted := run.accepted ++ [(c.event, c.port)] }
  | .fail _ entry => { run with entry := entry }

def ofCalls (calls : List EntryCall) : EntryRun := calls.foldl call {}

def Represents (run : EntryRun) : Prop := run.entry.Represents run.accepted

/-- Where a call is not rejected, the library has memory for turning the port into an array, and no room for 2^31
ports. -/
def Stores (run : EntryRun) (c : EntryCall) : Prop :=
  (∀ call ∈ run.accepted, call.1 = c.event) →
    (run.accepted.length = 1 → c.memory.Suffices) ∧ (run.accepted.length = 2 ^ 31 - 1 → c.memory.push ≠ none)

def ofPorts (event : ConnectorEvent) (ports : List PortRef) : EntryRun where
  entry := .ofPorts event ports
  accepted := ports.map fun port => (event, port)

theorem ofPorts_nil (event event' : ConnectorEvent) : ofPorts event [] = ofPorts event' [] := by
  rw [ofPorts, ofPorts, StoredChangeEntry.ofPorts_nil event event']
  rfl

/-- In front of any call, the event of the run is that of the call, or the call is rejected. -/
theorem same_or_rejected (event : ConnectorEvent) (ports : List PortRef) (small : ports.length < 2 ^ 31)
    (c : EntryCall) :
    ofPorts event ports = ofPorts c.event ports ∨
      (∃ call ∈ (ofPorts event ports).accepted, call.1 ≠ c.event) ∧ (ofPorts event ports).call c = ofPorts event ports := by
  by_cases same : c.event = event
  · exact .inl (by rw [same])
  · cases ports with
    | nil => exact .inl (ofPorts_nil event c.event)
    | cons port rest =>
      refine .inr ⟨⟨(event, port), List.mem_cons_self, Ne.symm same⟩, ?_⟩
      have rejected := StoredChangeEntry.act_opposite small (List.cons_ne_nil port rest) same c.memory (some c.port)
      rw [call, show (ofPorts event (port :: rest)).entry = .ofPorts event (port :: rest) from rfl, rejected]
      rfl

theorem call_ofPorts {c : EntryCall} {ports : List PortRef} (small : ports.length < 2 ^ 31) :
    (ofPorts c.event ports).call c =
      match StoredChangeEntry.append c.event c.memory c.port ports with
      | .ok _ entry => { entry := entry, accepted := (ports ++ [c.port]).map fun port => (c.event, port) }
      | .fail _ entry => { entry := entry, accepted := ports.map fun port => (c.event, port) } := by
  rw [call, show (ofPorts c.event ports).entry = .ofPorts c.event ports from rfl,
    StoredChangeEntry.act_same small c.memory c.port, List.map_append]
  rfl

/-- A call whose ports are stored leads to the entry of more ports, or of the same. -/
theorem call_stores {event : ConnectorEvent} {ports : List PortRef} (small : ports.length < 2 ^ 31) {c : EntryCall}
    (stores : (ofPorts event ports).Stores c) :
    ∃ event' ports', ports'.length < 2 ^ 31 ∧ (ofPorts event ports).call c = ofPorts event' ports' := by
  rcases same_or_rejected event ports small c with same | ⟨-, rejected⟩
  · rw [same] at stores ⊢
    have accepted : ∀ call ∈ (ofPorts c.event ports).accepted, call.1 = c.event := by
      intro call mem
      obtain ⟨port, -, rfl⟩ := List.mem_map.mp mem
      rfl
    obtain ⟨single, full⟩ := stores accepted
    rw [show (ofPorts c.event ports).accepted.length = ports.length from List.length_map _] at single full
    rw [call_ofPorts small]
    match ports with
    | [] => exact ⟨c.event, [c.port], by simp, rfl⟩
    | [tmp] =>
      obtain ⟨new, first, push⟩ := single rfl
      refine ⟨c.event, [tmp, c.port], by simp, ?_⟩
      rw [StoredChangeEntry.append, new, first, push]
      rfl
    | tmp :: second :: rest =>
      rw [StoredChangeEntry.append]
      cases pushed : c.memory.push with
      | some error => exact ⟨c.event, tmp :: second :: rest, small, rfl⟩
      | none =>
        refine ⟨c.event, tmp :: second :: rest ++ [c.port], ?_, rfl⟩
        have room : (tmp :: second :: rest).length ≠ 2 ^ 31 - 1 := fun last => full last pushed
        rw [List.length_append, List.length_singleton]
        omega
  · exact ⟨event, ports, small, rejected⟩

/-- Any other call leaves an entry that does not represent what was accepted. -/
theorem not_represents_call {event : ConnectorEvent} {ports : List PortRef} (small : ports.length < 2 ^ 31)
    {c : EntryCall} (fails : ¬(ofPorts event ports).Stores c) : ¬((ofPorts event ports).call c).Represents := by
  rcases same_or_rejected event ports small c with same | ⟨⟨call, mem, opposite⟩, -⟩
  · rw [same] at fails ⊢
    rw [call_ofPorts small]
    rw [Stores, show (ofPorts c.event ports).accepted.length = ports.length from List.length_map _] at fails
    match ports with
    | [] => exact absurd (fun _ => ⟨nofun, nofun⟩) fails
    | [tmp] =>
      have scarce : ¬c.memory.Suffices := fun suffices_ => fails fun _ => ⟨fun _ => suffices_, fun full => by simp at full⟩
      rw [StoredChangeEntry.append]
      by_cases new : c.memory.new = false
      · rw [if_pos new]
        intro represents
        obtain ⟨port, same⟩ := represents.single.mp rfl
        cases same
      · rw [if_neg new]
        cases first : c.memory.first with
        | some error =>
          intro represents
          obtain ⟨port, same⟩ := represents.single.mp rfl
          cases same
        | none =>
          cases pushed : c.memory.push with
          | some error =>
            intro represents
            obtain ⟨port, same⟩ := represents.single.mp rfl
            cases same
          | none => exact absurd ⟨Bool.not_eq_false _ ▸ new, first, pushed⟩ scarce
    | tmp :: second :: rest =>
      have full : (tmp :: second :: rest).length = 2 ^ 31 - 1 ∧ c.memory.push = none := by
        by_contra not
        refine fails fun _ => ⟨fun single => ?_, fun last pushed => not ⟨last, pushed⟩⟩
        simp at single
      rw [StoredChangeEntry.append, full.2]
      intro represents
      -- the count has wrapped around
      have count : (StoredChangeEntry.ofPorts c.event (tmp :: second :: rest ++ [c.port])).count = BitVec.intMin 32 := by
        show BitVec.ofInt 32 (c.event.sign * (tmp :: second :: rest ++ [c.port]).length) = _
        rw [List.length_append, full.1, List.length_singleton]
        cases c.event <;> decide
      cases event_ : c.event with
      | connected =>
        have sign := represents.sign (c.event, c.port) (List.mem_map.mpr ⟨c.port, by simp, rfl⟩)
        dsimp only at sign
        rw [count, event_] at sign
        exact absurd sign (by decide)
      | disconnected =>
        have first := represents.get 0
        dsimp only at first
        rw [StoredChangeEntry.get, count, if_pos (by decide), if_neg (by decide), if_neg (by decide),
          if_pos (by decide)] at first
        cases first
  · exact absurd (fun accepted => absurd (accepted call mem) opposite) fails

/-- The entries of a run represent the calls that were accepted as long as each call is stored. -/
theorem represents_from {event : ConnectorEvent} {ports : List PortRef} (small : ports.length < 2 ^ 31)
    (calls : List EntryCall) :
    (∀ front, front <+: calls → (front.foldl call (ofPorts event ports)).Represents) ↔
      ∀ front c, front ++ [c] <+: calls → (front.foldl call (ofPorts event ports)).Stores c := by
  induction calls generalizing event ports with
  | nil =>
    refine iff_of_true (fun front inside => ?_) fun front c inside => ?_
    · rw [List.prefix_nil.mp inside]
      exact StoredChangeEntry.represents_ofPorts event small
    · exact absurd (List.prefix_nil.mp inside) (by simp)
  | cons c rest ih =>
    constructor
    · intro represents
      have stores : (ofPorts event ports).Stores c := by
        by_contra fails
        exact not_represents_call small fails (represents [c] (by simp))
      obtain ⟨event', ports', small', next⟩ := call_stores small stores
      have behind := (ih small').mp fun front inside => by
        have here := represents (c :: front) (by simpa using inside)
        rwa [List.foldl_cons, next] at here
      intro front c' inside
      cases front with
      | nil =>
        obtain rfl : c' = c := by simpa using inside
        exact stores
      | cons c'' front =>
        obtain ⟨rfl, later⟩ : c'' = c ∧ front ++ [c'] <+: rest := by simpa using inside
        rw [List.foldl_cons, next]
        exact behind front c' later
    · intro stores
      obtain ⟨event', ports', small', next⟩ := call_stores small (stores [] c (by simp))
      have behind := (ih small').mpr fun front c' inside => by
        have here := stores (c :: front) c' (by simpa using inside)
        rwa [List.foldl_cons, next] at here
      intro front inside
      cases front with
      | nil => exact StoredChangeEntry.represents_ofPorts event small
      | cons c'' front =>
        obtain ⟨rfl, later⟩ : c'' = c ∧ front <+: rest := by simpa using inside
        rw [List.foldl_cons, next]
        exact behind front later

/-- All entries of a run of calls on a new entry represent the calls that were accepted if and only if each call is
stored. -/
theorem represents_iff (calls : List EntryCall) :
    (∀ front, front <+: calls → (ofCalls front).Represents) ↔
      ∀ front c, front ++ [c] <+: calls → (ofCalls front).Stores c :=
  @represents_from .connected [] (by decide) calls

/-- The port of an entry is lost when there is no memory for the array. -/
theorem not_represents_withoutMemory :
    ¬(ofCalls [⟨.connected, ⟨1, 0⟩, {}⟩, ⟨.connected, ⟨2, 0⟩, { new := false }⟩]).Represents := by
  intro represents
  have first : Except.ok none = Except.ok (some (⟨1, 0⟩ : PortRef)) := represents.get 0
  cases first

end EntryRun

/-- Where nothing fails, the entry goes on as the one with a list. -/
theorem StoredChangeEntry.act_refines (event : ConnectorEvent) {memory : AryMemory} (suffices_ : memory.Suffices)
    {entry : ChangeEntry} (counts : entry.count = event.sign * entry.ports.length)
    (small : entry.ports.length < 2 ^ 31) (port : PortRef) :
    ∃ entry', entry.act event port = .ok entry' ∧
      act event memory (ofPorts event entry.ports) (some port) = .ok () (ofPorts event entry'.ports) := by
  obtain ⟨new, first, push⟩ := suffices_
  obtain ⟨entry', acts, ports, -⟩ := ChangeEntry.act_ok event port counts
  refine ⟨entry', acts, ?_⟩
  rw [act_same small, ports]
  match entry.ports with
  | [] => rfl
  | [tmp] =>
    rw [append, new, first, push]
    rfl
  | _ :: _ :: _ =>
    rw [append, push]

end Apx
