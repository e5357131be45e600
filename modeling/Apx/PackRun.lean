import Apx.CompiledRun
import Apx.LimitEncoding
import Apx.PackElement
import Apx.VmTermination

/-! Packing one value with a compiled program: what happens does not depend on what the machine has
packed before, and nothing is written behind the buffer. -/

namespace Apx

open Machine LittleEndian

/-- Any program that was compiled for a port without a queue, or whose header is read again, is the
usable program of the data element that was written. -/
theorem usable_narrow {e : DataElement} {queueLength : Nat} {programType : ProgramType}
    {program : Bytes} (compiled : compilePort e queueLength programType = ⟨some program, none⟩)
    (sized : queueLength = 0 ∨ e.narrow.emittedSize % 2 ^ 32 ≠ 0) :
    Usable e.narrow queueLength programType program where
  fit := e.limitsFit_narrow
  compiled := (compilePort_narrow e queueLength programType).trans compiled
  sized := sized

/-- The buffer has this many bytes where the program does not fail. -/
def PackEnd.Room (length : Nat) : PackEnd → Prop
  | .failed .. => True
  | .closed b => b.bytes.length = length
  | .left b => b.bytes.length = length

theorem Serializer.sized_fresh (value : Dv) (b : WriteBuffer) : (fresh value {} [] b).Sized := by
  intro st mem
  rw [List.mem_singleton.mp mem]
  show 0 < 2 ^ 32
  decide

theorem packLeaf_room {dtl : Dtl} {code : LeafCode} (arrayLen : UInt32) {isDynamic : Bool}
    {limits : Option Limits} {value : Dv} {b b' : WriteBuffer}
    (packed : packLeaf dtl code arrayLen.toNat isDynamic limits value b = .ok () b') :
    b'.bytes.length = b.bytes.length := by
  obtain ⟨s', executed, rfl⟩ := Result.lift_eq_ok.mp packed
  have data {s : Serializer} (sized : s.Sized)
      (done : (packEngine dtl).exec
        [.pack (dataInfo code.typeCode arrayLen.toNat isDynamic)] s = .ok () s') :
      s'.buffer.bytes.length = s.buffer.bytes.length := by
    simp only [Engine.exec, Result.bind_pure] at done
    exact (Vm.progress_packOperation arrayLen.toNat_lt sized done).length
  cases limits with
  | none => exact data (Serializer.sized_fresh value b) executed
  | some limits =>
    rw [leafOperations, Engine.exec_append] at executed
    obtain ⟨⟨⟩, s, checked, done⟩ := Result.bind_eq_ok.mp executed
    have wrote : ∃ count, (Serializer.fresh value {} [] b).Writes s count := by
      cases code with
      | none | char | char8 | char16 | char32 | bool =>
        cases checked
        exact ⟨0, rfl, .refl _, rfl, rfl, rfl, rfl⟩
      | _ =>
        simp only [limitCheck, Engine.exec, Result.bind_pure, packEngine] at checked
        exact ⟨0, Serializer.writes_checkValueRange checked⟩
    obtain ⟨count, wrote⟩ := wrote
    exact (data (wrote.sized (Serializer.sized_fresh value b)) done).trans wrote.length

theorem WriteBuffer.flush_room {b b' : WriteBuffer} (flushed : b.flush = .ok () b') :
    b'.bytes.length = b.bytes.length := by
  unfold WriteBuffer.flush at flushed
  split at flushed
  · contradiction
  · split at flushed
    · split at flushed
      · contradiction
      · cases flushed
        rfl
    · cases flushed
      rfl

theorem packRecords_room {fields : List (Bytes × Dv) → WriteBuffer → PackEnd}
    (each : ∀ hv b, (fields hv b).Room b.bytes.length) (av : List Dv) (b : WriteBuffer) :
    (packRecords fields av b).Room b.bytes.length := by
  induction av generalizing b with
  | nil => exact rfl
  | cons child more ih =>
    cases child with
    | hash hv =>
      have room := each hv b
      rw [packRecords]
      cases which : fields hv b with
      | failed failure b' => trivial
      | left b' => trivial
      | closed b' =>
        rw [which] at room
        simp only
        split
        · exact room
        · rw [← show b'.bytes.length = b.bytes.length from room]
          exact ih b'
    | _ => trivial

/-- Packing never writes behind the buffer: the length of the buffer stays. -/
theorem packElement_room (dtl : Dtl) (e : DataElement) (value : Dv) (b : WriteBuffer) :
    (packElement dtl e value b).Room b.bytes.length := by
  induction e using DataElement.tree_induction generalizing value b with
  | leaf name code arrayLen isDynamic limits =>
    rw [packElement]
    cases packed : packLeaf dtl code arrayLen.toNat isDynamic limits value b with
    | fail failure b' => trivial
    | ok _ b' => exact packLeaf_room arrayLen packed
  | record name arrayLen isDynamic elements ih =>
    have fields (hv : List (Bytes × Dv)) (b : WriteBuffer) :
        (packFields dtl elements hv b).Room b.bytes.length := by
      clear arrayLen
      induction elements generalizing b with
      | nil => exact rfl
      | cons child rest ihRest =>
        rw [packFields]
        cases Hash.get hv child.nameBytes with
        | none => trivial
        | some value =>
          have room := ih child List.mem_cons_self value b
          simp only
          cases which : packElement dtl child value b with
          | failed failure b' => trivial
          | left b' =>
            rw [which] at room
            simp only
            split
            · exact room
            · trivial
          | closed b' =>
            rw [which] at room
            simp only
            split
            · exact room
            · rw [← show b'.bytes.length = b.bytes.length from room]
              exact ihRest (fun child mem => ih child (List.mem_cons_of_mem _ mem)) b'
    rw [packElement]
    cases flushed : b.flush with
    | fail failure b' => trivial
    | ok _ b' =>
      simp only
      rw [← WriteBuffer.flush_room flushed]
      split
      · split
        · exact fields _ _
        · trivial
      · split
        · trivial
        · split
          · split
            · trivial
            · exact packRecords_room fields _ _
          · trivial
  | refId => trivial
  | refName => trivial
  | refPtr name arrayLen isDynamic target ih =>
    rw [packElement]
    exact ih value b

/-- What the calls return for this end of the program: the buffer that they leave, with no queue
that is being written. -/
def PackEnd.Returned : PackEnd → Result Vm Unit → Prop
  | .failed failure b, .fail failure' vm => failure' = failure ∧ vm.serializer.buffer = b
  | .closed b, .ok _ vm => vm.serializer.buffer = b ∧ vm.serializer.queuedWriteState = {}
  | .left b, .ok _ vm => vm.serializer.buffer = b ∧ vm.serializer.queuedWriteState = {}
  | _, _ => False

namespace Vm

/-- Packing a value does what `packElement` does, whatever the machine has packed before. -/
theorem packs_element {dtl : Dtl} {e : DataElement} {queueLength : Nat} {program : Bytes}
    (usable : Usable e queueLength .pack program) {vm : Vm} (idle : vm.serializer.queuedWriteState = {})
    {buffer : Bytes} (nonempty : 0 < buffer.length) {dv : Dv} (representable : dv.Representable) :
    ∃ r, Packs dtl vm program buffer dv r ∧
      (packElement dtl e dv { bytes := buffer }).Returned r := by
  let start : Serializer :=
    .fresh dv vm.serializer.state.scalar.reset vm.serializer.stack { bytes := buffer }
  have ready : { vm.serializer with buffer := { bytes := buffer },
                                    state := vm.serializer.state.setValue dv } = start := by
    simp only [start, Serializer.fresh, WriteState.setValue, idle]
  have ends := @Serializer.runs_element dtl e usable.complete dv
    vm.serializer.state.scalar.reset vm.serializer.stack { bytes := buffer } none []
    (ScalarSlot.same_reset _ {}) representable
  rw [List.append_nil] at ends
  -- behind the code of the element the engine returns
  have atEnd {data : Serializer} {mark : Option (List Operation)} {b : WriteBuffer}
      (reaches : Reaches (packEngine dtl).turn { code := e.emitted .pack, data := start }
        { code := [], mark := mark, data := data })
      (buffer_eq : data.buffer = b) (queue : data.queuedWriteState = {}) :
      ∃ r, Packs dtl vm program buffer dv r ∧ (PackEnd.closed b).Returned r := by
    have returns : Yields (packEngine dtl).turn { code := e.emitted .pack, data := start }
        (.ok () data) := reaches.yields (.halt rfl)
    rw [← ready] at returns
    obtain ⟨r, packs, related⟩ := packs_compiled usable vm nonempty dv returns
    cases related with
    | ok same => exact ⟨_, packs, by rw [same, buffer_eq], by rw [same, queue]⟩
  cases which : packElement dtl e dv { bytes := buffer } with
  | failed failure b =>
    rw [which] at ends
    obtain ⟨s, yields, rfl⟩ := ends
    have returns : Yields (packEngine dtl).turn { code := e.emitted .pack, data := start }
        (.fail failure s) := yields
    rw [← ready] at returns
    obtain ⟨r, packs, related⟩ := packs_compiled usable vm nonempty dv returns
    cases related with
    | fail same => exact ⟨_, packs, rfl, by rw [same]⟩
  | closed b =>
    rw [which] at ends
    obtain ⟨st, reaches⟩ := ends
    have frame := Serializer.popLoop_frame { state := st, buffer := b } vm.serializer.stack
    exact atEnd reaches frame.1 frame.2.1
  | left b =>
    rw [which] at ends
    obtain ⟨st, above, mark, _, reaches⟩ := ends
    obtain ⟨r, packs, returned⟩ := atEnd reaches rfl rfl
    refine ⟨r, packs, ?_⟩
    cases r <;> exact returned

/-- Two machines that write no queue pack the same bytes. -/
theorem packs_independent {dtl : Dtl} {e : DataElement} {queueLength : Nat} {program : Bytes}
    (usable : Usable e queueLength .pack program) {vm vm₂ vm' : Vm}
    (idle : vm.serializer.queuedWriteState = {}) (idle₂ : vm₂.serializer.queuedWriteState = {})
    {buffer : Bytes} (nonempty : 0 < buffer.length) {dv : Dv} (representable : dv.Representable)
    (packs : Packs dtl vm program buffer dv (.ok () vm')) :
    (∃ vm₂', Packs dtl vm₂ program buffer dv (.ok () vm₂') ∧
      vm₂'.serializer.buffer = vm'.serializer.buffer) ∧
    vm'.serializer.buffer.bytes.length = buffer.length ∧ vm'.serializer.queuedWriteState = {} := by
  obtain ⟨r, packs₁, returned₁⟩ := @packs_element dtl _ _ _ usable _ idle _ nonempty _ representable
  obtain ⟨r₂, packs₂, returned₂⟩ := @packs_element dtl _ _ _ usable _ idle₂ _ nonempty _ representable
  obtain rfl := packs.unique packs₁
  have room := packElement_room dtl e dv { bytes := buffer }
  cases which : packElement dtl e dv { bytes := buffer } with
  | failed failure b =>
    rw [which] at returned₁
    exact returned₁.elim
  | closed b | left b =>
    rw [which] at returned₁ returned₂ room
    cases r₂ with
    | fail failure vm₂' => exact returned₂.elim
    | ok _ vm₂' =>
      obtain ⟨rfl, queue⟩ := returned₁
      exact ⟨⟨vm₂', packs₂, returned₂.1⟩, room, queue⟩

end Vm

end Apx
