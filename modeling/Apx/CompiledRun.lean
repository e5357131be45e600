import Apx.CompilerCorrect
import Apx.OperationMachine

/-! Compiled programs in the virtual machine: the calls that pack or unpack one value do what
the engine does on the operations of the data element. -/

namespace Apx

open Machine

def dataSizeOf (program : Bytes) : Nat :=
  match decodeHeader program 0 {} with
  | .ok _ (_, header) => header.dataSize
  | .fail .. => 0

/-- A program for one value of a data element. -/
def Compiled (e : DataElement) (programType : ProgramType) (program : Bytes) : Prop :=
  compilePort e 0 programType = ⟨some program, none⟩

/-- A program for a port that the decoder can use again: see `compiled_decodesTo_iff` for the
ports that it cannot. -/
structure Usable (e : DataElement) (queueLength : Nat) (programType : ProgramType)
    (program : Bytes) : Prop where
  fit : e.LimitsFit
  compiled : compilePort e queueLength programType = ⟨some program, none⟩
  sized : queueLength = 0 ∨ e.emittedSize % 2 ^ 32 ≠ 0

variable {e : DataElement} {queueLength : Nat} {programType : ProgramType} {program : Bytes}

theorem Usable.complete (usable : Usable e queueLength programType program) : e.Complete := by
  obtain ⟨c, size, header, compiled, _⟩ := compilePort_eq usable.compiled
  exact Compiler.compileElement_complete e compiled

/-- What selecting a compiled program leaves. -/
structure Vm.Selected (vm vm' : Vm) (e : DataElement) (queueLength : Nat)
    (programType : ProgramType) : Prop where
  serializer : vm'.serializer = vm.serializer
  deserializer : vm'.deserializer = vm.deserializer
  header : ∃ isDynamic,
    vm'.programHeader = headerOf programType (e.emittedSize % 2 ^ 32) queueLength isDynamic
  code : ∃ bytes, vm'.decoder.Before bytes ∧ Decoder.Codes bytes (e.emitted programType)
  mark : vm'.decoder.programMark = none

theorem Usable.selects (usable : Usable e queueLength programType program) (vm : Vm) :
    ∃ vm', vm.selectProgram program = .ok () vm' ∧ vm.Selected vm' e queueLength programType := by
  obtain ⟨d', isDynamic, code, selected, codes, before, _, mark⟩ :=
    (selects_compiled usable.fit usable.compiled vm.decoder vm.programHeader).1 usable.sized
  have nonempty : program.length ≠ 0 := by
    intro empty
    rw [List.length_eq_zero_iff.mp empty] at selected
    contradiction
  refine ⟨{ vm with decoder := d', programHeader := headerOf _ _ _ isDynamic }, ?_,
    rfl, rfl, ⟨isDynamic, rfl⟩, ⟨code, before, codes⟩, mark⟩
  rw [Vm.selectProgram, if_neg nonempty, selected]
  rfl

theorem dataSizeOf_compiled (fit : e.LimitsFit) (compiled : Compiled e programType program) :
    dataSizeOf program = e.emittedSize % 2 ^ 32 := by
  obtain ⟨d', isDynamic, code, selected, _⟩ :=
    (selects_compiled fit compiled .create {}).1 (.inl rfl)
  rw [dataSizeOf]
  simp only [Decoder.parseProgramHeader, Decoder.selectProgram] at selected
  cases decoded : decodeHeader program 0 {} with
  | fail failure state =>
    rw [decoded] at selected
    contradiction
  | ok _ state =>
    obtain ⟨next, header⟩ := state
    rw [decoded] at selected
    simp only [Result.lift_ok, Result.ok.injEq, Prod.mk.injEq, true_and] at selected
    simp only [selected.2]
    simp [headerOf, headerDataSize]

namespace Vm

/-- The loop on a selected program returns what the engine returns. -/
theorem Selected.yields {σ : Type} {host : Host σ} (faithful : host.Faithful) {vm vm₁ vm₂ : Vm}
    (selected : vm.Selected vm₁ e queueLength host.type) (header : vm₂.programHeader = vm₁.programHeader)
    (decoder : vm₂.decoder = vm₁.decoder) {r' : Result σ Unit}
    (returns : Yields host.engine.turn
      { code := e.emitted host.type, data := host.get vm₂ } r') :
    ∃ r, Yields (turn host.execute) vm₂ r ∧ Result.Rel (fun vm data => host.get vm = data) r r' := by
  obtain ⟨isDynamic, same⟩ := selected.header
  refine faithful.simulates.yields ?_ returns
  exact { type := by rw [header, same]; rfl, data := rfl, code := decoder ▸ selected.code,
          mark := decoder ▸ selected.mark }

theorem packs_compiled {dtl : Dtl} (usable : Usable e queueLength .pack program) (vm : Vm)
    {buffer : Bytes} (nonempty : 0 < buffer.length) (dv : Dv) {r' : Result Serializer Unit}
    (returns : Yields (packEngine dtl).turn
      { code := e.emitted .pack,
        data := { vm.serializer with buffer := { bytes := buffer },
                                     state := vm.serializer.state.setValue dv } } r') :
    ∃ r, Packs dtl vm program buffer dv r ∧ Result.Rel (fun vm s => vm.serializer = s) r r' := by
  obtain ⟨vm₁, done, selected⟩ := usable.selects vm
  let ready : Vm := { vm₁ with serializer :=
    { vm.serializer with buffer := { bytes := buffer },
                         state := vm.serializer.state.setValue dv } }
  obtain ⟨r, ⟨fuel, yields⟩, related⟩ := @Selected.yields e queueLength _ _ (packHost_faithful dtl)
    vm vm₁ ready selected rfl rfl r' returns
  have type : vm₁.programHeader.programType = .pack := by
    obtain ⟨isDynamic, header⟩ := selected.header
    rw [header]
    rfl
  refine ⟨r, ⟨fuel, ?_⟩, related⟩
  simp only [packWith, done, setWriteBuffer, Serializer.setWriteBuffer, if_pos nonempty,
    Result.lift_ok, packValue, type, ne_eq, not_true_eq_false, if_false, selected.serializer]
  exact yields

/-- The calls on an empty buffer fail. -/
theorem packs_empty {dtl : Dtl} (usable : Usable e queueLength .pack program) (vm : Vm) (dv : Dv) :
    ∃ vm', Packs dtl vm program [] dv (.fail (.code .invalidArgument) vm') ∧
      vm'.serializer = vm.serializer := by
  obtain ⟨vm₁, done, selected⟩ := usable.selects vm
  refine ⟨vm₁, ⟨0, ?_⟩, selected.serializer⟩
  simp [packWith, done, setWriteBuffer, Serializer.setWriteBuffer]

/-- What the calls that unpack with a compiled program return, given what the engine does: the
value that the deserializer holds at the end. -/
theorem unpacks_compiled {dtl : Dtl} (usable : Usable e queueLength .unpack program) (vm : Vm)
    {buffer : Bytes} (nonempty : 0 < buffer.length) {r' : Result Deserializer Unit}
    (returns : Yields (unpackEngine dtl).turn
      { code := e.emitted .unpack,
        data := { vm.deserializer with buffer := { bytes := buffer } } } r') :
    ∃ r, Unpacks dtl vm program buffer (r.bind fun _ vm => takeValue vm) ∧
      Result.Rel (fun vm d => vm.deserializer = d) r r' := by
  obtain ⟨vm₁, done, selected⟩ := usable.selects vm
  let ready : Vm := { vm₁ with deserializer := { vm.deserializer with buffer := { bytes := buffer } } }
  obtain ⟨r, ⟨fuel, yields⟩, related⟩ := @Selected.yields e queueLength _ _ (unpackHost_faithful dtl)
    vm vm₁ ready selected rfl rfl r' returns
  have type : vm₁.programHeader.programType = .unpack := by
    obtain ⟨isDynamic, header⟩ := selected.header
    rw [header]
    rfl
  refine ⟨r, ⟨fuel, ?_⟩, related⟩
  simp only [unpackWith, done, setReadBuffer, Deserializer.setReadBuffer, if_pos nonempty,
    Result.lift_ok, unpackValue, type, ne_eq, not_true_eq_false, if_false, selected.deserializer]
  rw [show runUnpackProgram dtl fuel _ = some r from yields]
  rfl

/-- The calls on an empty buffer fail. -/
theorem unpacks_empty {dtl : Dtl} (usable : Usable e queueLength .unpack program) (vm : Vm) :
    ∃ vm', Unpacks dtl vm program [] (.fail (.code .invalidArgument) vm') := by
  obtain ⟨vm₁, done, selected⟩ := usable.selects vm
  refine ⟨vm₁, ⟨0, ?_⟩⟩
  simp [unpackWith, done, setReadBuffer, Deserializer.setReadBuffer]

theorem packWith_mono {dtl : Dtl} {fuel more : Nat} (le : fuel ≤ more) {vm : Vm}
    {program buffer : Bytes} {dv : Dv} {r : Result Vm Unit}
    (done : packWith dtl fuel vm program buffer dv = some r) :
    packWith dtl more vm program buffer dv = some r := by
  unfold packWith at done ⊢
  split at done
  · exact done
  · split at done
    · exact done
    next vm₂ _ =>
      unfold packValue at done ⊢
      by_cases other : vm₂.programHeader.programType ≠ .pack
      · rwa [if_pos other] at done ⊢
      · rw [if_neg other] at done ⊢
        exact run_mono _ le done

/-- The calls return one result at most. -/
theorem Packs.unique {dtl : Dtl} {vm : Vm} {program buffer : Bytes} {dv : Dv} {r r' : Result Vm Unit}
    (first : Packs dtl vm program buffer dv r) (second : Packs dtl vm program buffer dv r') :
    r = r' := by
  obtain ⟨n, hn⟩ := first
  obtain ⟨m, hm⟩ := second
  have left := packWith_mono (Nat.le_max_left n m) hn
  have right := packWith_mono (Nat.le_max_right n m) hm
  exact Option.some.inj (left.symm.trans right)

theorem unpackWith_mono {dtl : Dtl} {fuel more : Nat} (le : fuel ≤ more) {vm : Vm}
    {program buffer : Bytes} {r : Result Vm Dv}
    (done : unpackWith dtl fuel vm program buffer = some r) :
    unpackWith dtl more vm program buffer = some r := by
  unfold unpackWith at done ⊢
  split at done
  · exact done
  · split at done
    · exact done
    next vm₂ _ =>
      unfold unpackValue at done ⊢
      by_cases other : vm₂.programHeader.programType ≠ .unpack
      · rwa [if_pos other] at done ⊢
      · rw [if_neg other] at done ⊢
        obtain ⟨result, ran, rfl⟩ := Option.map_eq_some_iff.mp done
        rw [show runUnpackProgram dtl more vm₂ = some result from run_mono _ le ran]
        rfl

theorem Unpacks.unique {dtl : Dtl} {vm : Vm} {program buffer : Bytes} {r r' : Result Vm Dv}
    (first : Unpacks dtl vm program buffer r) (second : Unpacks dtl vm program buffer r') :
    r = r' := by
  obtain ⟨n, hn⟩ := first
  obtain ⟨m, hm⟩ := second
  have left := unpackWith_mono (Nat.le_max_left n m) hn
  have right := unpackWith_mono (Nat.le_max_right n m) hm
  exact Option.some.inj (left.symm.trans right)

end Vm

end Apx
