import Apx.DecoderCursor
import Apx.DeserializerProgress
import Apx.Vm

/-! The loops of run_pack_program and run_unpack_program end. A jump of ARRAY_NEXT disarms
the state that it starts from, only reading or writing bytes arms a state again, and without a
jump the position in the program increases. -/

namespace Apx

open Machine

/-- Where decoding a program from `first` on, one instruction after another, comes to. -/
inductive InstructionAt (program : Bytes) (first : Nat) : Nat → Prop where
  | first : InstructionAt program first first
  | next {d d' : Decoder} {op : OperationType} (loaded : d.hasProgram = true)
      (same : d.program = program) (here : InstructionAt program first d.programNext)
      (parse : d.parseNextOperation = .ok op d') : InstructionAt program first d'.programNext

/-- Every RECORD_SELECT of the program has a name that ends inside the program. -/
def NamesTerminated (program : Bytes) (first : Nat) : Prop :=
  ∀ d : Decoder, d.program = program → InstructionAt program first d.programNext → d.NameTerminated

/-- What a run keeps of the decoder: it stands before an instruction of the program, and the
saved position is that of an instruction that it has come by. -/
structure Decoder.Runs (d : Decoder) (program : Bytes) (first : Nat) : Prop where
  ready : d.Ready
  same : d.program = program
  here : InstructionAt program first d.programNext
  mark : ∀ mark, d.programMark = some mark → InstructionAt program first mark ∧ mark ≤ d.programNext
  sized : d.Sized

namespace Decoder.Runs
variable {d : Decoder} {program : Bytes} {first : Nat}

theorem parse {op : OperationType} {d' : Decoder} (runs : d.Runs program first)
    (names : NamesTerminated program first) (parse : d.parseNextOperation = .ok op d')
    (notEnd : op ≠ .programEnd) :
    d'.Runs program first ∧ d.programNext < d'.programNext ∧ d'.programMark = d.programMark := by
  obtain ⟨holds, same, mark, loaded, sized⟩ :=
    runs.ready.parse_moves (names d runs.same runs.here)
  have inside := holds.inside
  have further := (holds.advances op d' parse).resolve_left notEnd
  rw [parse] at inside same mark loaded sized
  simp only [Result.state_ok] at inside same mark loaded sized
  refine ⟨⟨⟨loaded, inside, ?_⟩, same.trans runs.same, .next runs.ready.loaded runs.same runs.here parse,
    ?_, sized runs.sized⟩, further, mark⟩
  · intro position saved
    rw [same]
    exact runs.ready.markInside position (mark ▸ saved)
  · intro position saved
    obtain ⟨instruction, le⟩ := runs.mark position (mark ▸ saved)
    exact ⟨instruction, by omega⟩

theorem save (runs : d.Runs program first) :
    d.saveProgramPosition.Runs program first ∧ d.saveProgramPosition.programNext = d.programNext := by
  rw [saveProgramPosition, if_pos runs.ready.loaded]
  refine ⟨⟨⟨runs.ready.loaded, runs.ready.inside, ?_⟩, runs.same, runs.here, ?_, runs.sized⟩, rfl⟩
  · intro position saved
    cases saved
    exact runs.ready.inside
  · intro position saved
    cases saved
    exact ⟨runs.here, Nat.le_refl _⟩

theorem recalled (runs : d.Runs program first) (saved : d.hasSavedProgramPosition = true) :
    d.recallProgramPosition.Runs program first ∧
      d.programMark = some d.recallProgramPosition.programNext := by
  obtain ⟨mark, same⟩ := Option.isSome_iff_exists.mp saved
  obtain ⟨instruction, le⟩ := runs.mark mark same
  simp only [recallProgramPosition, same]
  refine ⟨⟨⟨runs.ready.loaded, runs.ready.markInside mark same, ?_⟩, runs.same, instruction, ?_,
    runs.sized⟩, trivial⟩
  · intro position saved
    cases saved
    exact runs.ready.markInside mark same
  · intro position saved
    cases saved
    exact ⟨instruction, Nat.le_refl _⟩

end Decoder.Runs

namespace Vm

/-- What the loops of run_pack_program and run_unpack_program differ in: the switch, and the
part of the machine that it works on. -/
structure Side where
  type : ProgramType
  execute : OperationType → Vm → Result Vm Unit
  cursor : Vm → Nat
  room : Vm → Nat
  Armed : Vm → Prop
  Sized : Vm → Prop

/-- What an operation other than PROGRAM_END does. -/
structure Side.Effect (side : Side) (op : OperationType) (vm vm' : Vm) : Prop where
  header : vm'.programHeader = vm.programHeader
  room : side.room vm' = side.room vm
  sized : side.Sized vm'
  outcome :
    (vm'.decoder = vm.decoder ∨ vm'.decoder = vm.decoder.saveProgramPosition) ∧
      (side.cursor vm < side.cursor vm' ∧ side.cursor vm ≤ side.room vm ∨
        side.cursor vm = side.cursor vm' ∧ (side.Armed vm' → side.Armed vm)) ∨
    (op = .arrayNext ∧ vm.decoder.hasSavedProgramPosition = true ∧
      vm'.decoder = vm.decoder.recallProgramPosition ∧ side.cursor vm = side.cursor vm' ∧
      side.Armed vm ∧ ¬side.Armed vm')

/-- The loop of run_pack_program -/
def packSide (dtl : Dtl) : Side where
  type := .pack
  execute := executePack dtl
  cursor vm := vm.serializer.cursor
  room vm := vm.serializer.buffer.bytes.length
  Armed vm := vm.serializer.Armed
  Sized vm := vm.serializer.Sized

/-- The loop of run_unpack_program -/
def unpackSide (dtl : Dtl) : Side where
  type := .unpack
  execute := executeUnpack dtl
  cursor vm := vm.deserializer.cursor
  room vm := vm.deserializer.buffer.bytes.length
  Armed vm := vm.deserializer.Armed
  Sized _ := True

theorem progress_packOperation {dtl : Dtl} {operation : PackUnpackInfo} {s s' : Serializer}
    (fits : operation.arrayLength < 2 ^ 32) (sized : s.Sized)
    (done : packOperation dtl operation s = .ok () s') : s.Progress s' := by
  unfold packOperation at done
  simp only at done
  have byteLength : (if operation.arrayLength = 0 then 1 else operation.arrayLength) < 2 ^ 32 := by
    split
    · decide
    · exact fits
  split at done
  · exact Serializer.progress_packAs fits sized (by simp) done
  · exact Serializer.progress_packAs fits sized (by simp) done
  · exact Serializer.progress_packAs fits sized (by simp) done
  · exact Serializer.progress_packAs fits sized (by simp) done
  · exact Serializer.progress_packAs fits sized (by simp) done
  · exact Serializer.progress_packAs fits sized (by simp) done
  · exact Serializer.progress_packAs fits sized (by simp) done
  · exact Serializer.progress_packAs fits sized (by simp) done
  · exact Serializer.progress_packAs fits sized (by simp) done
  · exact Serializer.progress_packAs fits sized (by simp) done
  · exact Serializer.progress_packAs fits sized (by simp) done
  · exact Serializer.progress_packAs byteLength sized (by simp) done
  · exact Serializer.progress_packAs fits sized (by simp) done
  · contradiction

theorem progress_unpackOperation {operation : PackUnpackInfo} {d d' : Deserializer}
    (done : unpackOperation operation d = .ok () d') : d.Progress d' := by
  unfold unpackOperation at done
  simp only at done
  split at done
  · exact Deserializer.progress_unpackAs done
  · exact Deserializer.progress_unpackAs done
  · exact Deserializer.progress_unpackAs done
  · exact Deserializer.progress_unpackAs done
  · exact Deserializer.progress_unpackAs done
  · exact Deserializer.progress_unpackAs done
  · exact Deserializer.progress_unpackAs done
  · exact Deserializer.progress_unpackAs done
  · exact Deserializer.progress_unpackAs done
  · exact Deserializer.progress_unpackAs done
  · exact Deserializer.progress_unpackAs done
  · exact Deserializer.progress_unpackAs done
  · exact Deserializer.progress_unpackAs done
  · contradiction

/-- Progress of the serializer alone is an effect of the pack loop. -/
theorem packEffect_of_progress {dtl : Dtl} {op : OperationType} {vm : Vm} {s' : Serializer}
    {decoder : Decoder} (same : decoder = vm.decoder ∨ decoder = vm.decoder.saveProgramPosition)
    (progress : vm.serializer.Progress s') :
    (packSide dtl).Effect op vm { vm with serializer := s', decoder := decoder } where
  header := rfl
  room := progress.length
  sized := progress.sized
  outcome := .inl ⟨same, progress.advance⟩

theorem unpackEffect_of_progress {dtl : Dtl} {op : OperationType} {vm : Vm} {d' : Deserializer}
    {decoder : Decoder} (same : decoder = vm.decoder ∨ decoder = vm.decoder.saveProgramPosition)
    (progress : vm.deserializer.Progress d') :
    (unpackSide dtl).Effect op vm { vm with deserializer := d', decoder := decoder } where
  header := rfl
  room := congrArg List.length progress.bytes
  sized := trivial
  outcome := .inl ⟨same, progress.advance⟩

theorem onSerializer_ok {vm vm' : Vm} {α : Type} {call : Serializer → Result Serializer α} {a : α}
    (done : vm.onSerializer call = .ok a vm') :
    ∃ s', call vm.serializer = .ok a s' ∧ vm' = { vm with serializer := s' } := by
  obtain ⟨s', called, same⟩ := Result.lift_eq_ok.mp done
  exact ⟨s', called, same.symm⟩

theorem onDeserializer_ok {vm vm' : Vm} {α : Type} {call : Deserializer → Result Deserializer α}
    {a : α} (done : vm.onDeserializer call = .ok a vm') :
    ∃ d', call vm.deserializer = .ok a d' ∧ vm' = { vm with deserializer := d' } := by
  obtain ⟨d', called, same⟩ := Result.lift_eq_ok.mp done
  exact ⟨d', called, same.symm⟩

theorem effect_executePack {dtl : Dtl} {op : OperationType} {vm vm' : Vm} (notEnd : op ≠ .programEnd)
    (type : vm.programHeader.programType = .pack) (decoder : vm.decoder.Sized)
    (sized : vm.serializer.Sized) (done : executePack dtl op vm = .ok () vm') :
    (packSide dtl).Effect op vm vm' := by
  have check {call : Serializer → Result Serializer Unit}
      (progress : ∀ s', call vm.serializer = .ok () s' → vm.serializer.Progress s')
      (done : vm.onSerializer call = .ok () vm') : (packSide dtl).Effect op vm vm' := by
    obtain ⟨s', called, rfl⟩ := onSerializer_ok done
    exact packEffect_of_progress (.inl rfl) (progress s' called)
  have writes {typeCode : TypeCode} {inRange : ScalarWord → Bool} (s' : Serializer)
      (done : Serializer.checkValueRange dtl typeCode inRange vm.serializer = .ok () s') :
      vm.serializer.Progress s' :=
    Serializer.progress_of_writes sized (Serializer.writes_checkValueRange done)
  cases op with
  | unpack => contradiction
  | programEnd => exact absurd rfl notEnd
  | pack =>
    obtain ⟨vm₁, lifted, saved⟩ := Result.lift_eq_ok.mp done
    obtain ⟨s', packed, rfl⟩ := onSerializer_ok lifted
    have progress := progress_packOperation decoder sized packed
    subst saved
    unfold saveForRecordArray
    split
    · exact packEffect_of_progress (.inr rfl) progress
    · exact packEffect_of_progress (.inl rfl) progress
  | rangeCheckInt32 => exact check writes done
  | rangeCheckUInt32 => exact check writes done
  | rangeCheckInt64 => exact check writes done
  | rangeCheckUInt64 => exact check writes done
  | recordSelect =>
    rw [executePack] at done
    exact check (fun s' selected => Serializer.progress_recordSelect sized selected) done
  | arrayNext =>
    unfold executePack runArrayNext at done
    simp only [if_pos type] at done
    obtain ⟨isLast, vm₁, next, done⟩ := Result.bind_eq_ok.mp done
    obtain ⟨s', stepped, rfl⟩ := onSerializer_ok next
    obtain ⟨sized', buffer, atEnd, notLast⟩ := Serializer.arrayNext_ok sized stepped
    have cursor : s'.cursor = vm.serializer.cursor := by
      rw [Serializer.cursor, Serializer.cursor, buffer]
    cases isLast with
    | true =>
      cases done
      exact ⟨rfl, congrArg (·.bytes.length) buffer, sized', .inl ⟨.inl rfl, .inr ⟨cursor.symm, atEnd rfl⟩⟩⟩
    | false =>
      simp only [Bool.false_eq_true, if_false] at done
      split at done
      next saved =>
        cases done
        exact ⟨rfl, congrArg (·.bytes.length) buffer, sized',
          .inr ⟨rfl, saved, rfl, cursor.symm, notLast rfl⟩⟩
      · contradiction

theorem effect_executeUnpack {dtl : Dtl} {op : OperationType} {vm vm' : Vm}
    (notEnd : op ≠ .programEnd) (type : vm.programHeader.programType = .unpack)
    (done : executeUnpack dtl op vm = .ok () vm') : (unpackSide dtl).Effect op vm vm' := by
  have check {call : Deserializer → Result Deserializer Unit}
      (progress : ∀ d', call vm.deserializer = .ok () d' → vm.deserializer.Progress d')
      (done : vm.onDeserializer call = .ok () vm') : (unpackSide dtl).Effect op vm vm' := by
    obtain ⟨d', called, rfl⟩ := onDeserializer_ok done
    exact unpackEffect_of_progress (.inl rfl) (progress d' called)
  cases op with
  | pack => contradiction
  | programEnd => exact absurd rfl notEnd
  | unpack =>
    obtain ⟨vm₁, lifted, saved⟩ := Result.lift_eq_ok.mp done
    obtain ⟨d', unpacked, rfl⟩ := onDeserializer_ok lifted
    have progress := progress_unpackOperation unpacked
    subst saved
    unfold saveForRecordArray
    split
    · exact unpackEffect_of_progress (.inr rfl) progress
    · exact unpackEffect_of_progress (.inl rfl) progress
  | rangeCheckInt32 => exact check (fun _ => Deserializer.progress_checkValueRange) done
  | rangeCheckUInt32 => exact check (fun _ => Deserializer.progress_checkValueRange) done
  | rangeCheckInt64 => exact check (fun _ => Deserializer.progress_checkValueRange) done
  | rangeCheckUInt64 => exact check (fun _ => Deserializer.progress_checkValueRange) done
  | recordSelect =>
    rw [executeUnpack] at done
    exact check (fun d' selected => Deserializer.progress_recordSelect selected) done
  | arrayNext =>
    have notPack : ¬vm.programHeader.programType = .pack := by rw [type]; decide
    unfold executeUnpack runArrayNext at done
    simp only [if_neg notPack] at done
    obtain ⟨isLast, vm₁, next, done⟩ := Result.bind_eq_ok.mp done
    obtain ⟨d', stepped, rfl⟩ := onDeserializer_ok next
    obtain ⟨buffer, atEnd, notLast⟩ := Deserializer.arrayNext_ok stepped
    have cursor : d'.cursor = vm.deserializer.cursor := by
      rw [Deserializer.cursor, Deserializer.cursor, buffer]
    cases isLast with
    | true =>
      cases done
      exact ⟨rfl, congrArg (·.bytes.length) buffer, trivial, .inl ⟨.inl rfl, .inr ⟨cursor.symm, atEnd rfl⟩⟩⟩
    | false =>
      simp only [Bool.false_eq_true, if_false] at done
      split at done
      next saved =>
        cases done
        exact ⟨rfl, congrArg (·.bytes.length) buffer, trivial,
          .inr ⟨rfl, saved, rfl, cursor.symm, notLast rfl⟩⟩
      · contradiction

/-- The two loops, with what is known of their operations. -/
structure Side.Sound (side : Side) : Prop where
  effect : ∀ {op : OperationType} {vm vm' : Vm}, op ≠ .programEnd →
    vm.programHeader.programType = side.type → vm.decoder.Sized → side.Sized vm →
    side.execute op vm = .ok () vm' → side.Effect op vm vm'
  decoder : ∀ (vm : Vm) (d : Decoder), side.cursor { vm with decoder := d } = side.cursor vm ∧
    side.room { vm with decoder := d } = side.room vm ∧
    (side.Armed { vm with decoder := d } ↔ side.Armed vm) ∧
    (side.Sized { vm with decoder := d } ↔ side.Sized vm)

theorem packSide_sound (dtl : Dtl) : (packSide dtl).Sound where
  effect notEnd type decoder sized done := effect_executePack notEnd type decoder sized done
  decoder _ _ := ⟨rfl, rfl, .rfl, .rfl⟩

theorem unpackSide_sound (dtl : Dtl) : (unpackSide dtl).Sound where
  effect notEnd type _ _ done := effect_executeUnpack notEnd type done
  decoder _ _ := ⟨rfl, rfl, .rfl, .rfl⟩

def position (vm : Vm) : Nat := vm.decoder.programNext

/-- A pass that goes forward in the program, and forward in the buffer or arms no state. -/
def Forward (side : Side) (vm vm' : Vm) : Prop :=
  vm.position < vm'.position ∧
    (side.cursor vm < side.cursor vm' ∧ side.cursor vm ≤ side.room vm ∨
      side.cursor vm = side.cursor vm' ∧ (side.Armed vm' → side.Armed vm))

/-- A pass in which ARRAY_NEXT goes back to the saved position. -/
def Jump (side : Side) (vm vm' : Vm) : Prop :=
  (∃ d, vm.decoder.parseNextOperation = .ok .arrayNext d) ∧ vm'.position ≤ vm.position ∧
    side.cursor vm = side.cursor vm' ∧ side.Armed vm ∧ ¬side.Armed vm'

variable {side : Side} {program : Bytes} {first : Nat}

/-- What a run keeps of the machine. -/
structure Running (side : Side) (program : Bytes) (first : Nat) (vm : Vm) : Prop where
  type : vm.programHeader.programType = side.type
  decoder : vm.decoder.Runs program first
  sized : side.Sized vm

theorem Running.turn {vm vm' : Vm} (sound : side.Sound) (names : NamesTerminated program first)
    (running : Running side program first vm) (goes : Vm.turn side.execute vm = .next vm') :
    Running side program first vm' ∧ side.room vm' = side.room vm ∧
      (Forward side vm vm' ∨ Jump side vm vm') := by
  unfold Vm.turn at goes
  cases parse : vm.decoder.parseNextOperation with
  | fail failure d =>
    rw [parse] at goes
    contradiction
  | ok op d =>
    rw [parse] at goes
    simp only at goes
    cases executed : side.execute op { vm with decoder := d } with
    | fail failure vm₁ =>
      rw [executed] at goes
      contradiction
    | ok value vm₁ =>
      rw [executed] at goes
      simp only at goes
      split at goes
      · contradiction
      next notEnd =>
      cases goes
      obtain ⟨runs, further, markSame⟩ := running.decoder.parse names parse notEnd
      obtain ⟨cursor, room, armed, sizedSame⟩ := sound.decoder vm d
      have effect : side.Effect op { vm with decoder := d } vm' :=
        sound.effect notEnd running.type runs.sized (sizedSame.mpr running.sized) executed
      have type : vm'.programHeader.programType = side.type := by
        rw [effect.header]
        exact running.type
      have outcome := effect.outcome
      rw [cursor, room, armed] at outcome
      rcases outcome with ⟨stays, advance⟩ | ⟨rfl, saved, recalls, same, wasArmed, disarmed⟩
      · have kept : vm'.decoder.Runs program first ∧ vm'.decoder.programNext = d.programNext := by
          rcases stays with stays | saves
          · rw [stays]
            exact ⟨runs, rfl⟩
          · rw [saves]
            exact runs.save
        refine ⟨⟨type, kept.1, effect.sized⟩, effect.room.trans room, .inl ⟨?_, advance⟩⟩
        rw [position, position, kept.2]
        exact further
      · obtain ⟨recalled, mark⟩ := runs.recalled saved
        refine ⟨⟨type, recalls ▸ recalled, effect.sized⟩, effect.room.trans room,
          .inr ⟨⟨d, parse⟩, ?_, same, wasArmed, disarmed⟩⟩
        rw [position, recalls]
        exact (running.decoder.mark _ (markSame ▸ mark)).2

/-- The room that is left in the buffer, the armed states, and the rest of the program: each
pass lowers the first of these that it changes. -/
noncomputable def measure (side : Side) (program : Bytes) (vm : Vm) : Nat × Nat × Nat :=
  (side.room vm + 1 - side.cursor vm, open Classical in if side.Armed vm then 1 else 0,
    program.length - vm.position)

theorem measure_lt {vm vm' : Vm} (inside : vm'.position ≤ program.length)
    (room : side.room vm' = side.room vm) (pass : Forward side vm vm' ∨ Jump side vm vm') :
    Prod.Lex (· < ·) (Prod.Lex (· < ·) (· < ·)) (measure side program vm')
      (measure side program vm) := by
  rcases pass with ⟨further, ⟨more, bound⟩ | ⟨same, arms⟩⟩ | ⟨_, _, same, armed, disarmed⟩
  · apply Prod.Lex.left
    omega
  · unfold measure
    rw [room, ← same]
    apply Prod.Lex.right
    by_cases armed' : side.Armed vm'
    · rw [if_pos armed', if_pos (arms armed')]
      apply Prod.Lex.right
      omega
    · rw [if_neg armed']
      by_cases armed : side.Armed vm
      · rw [if_pos armed]
        exact Prod.Lex.left _ _ Nat.zero_lt_one
      · rw [if_neg armed]
        apply Prod.Lex.right
        omega
  · unfold measure
    rw [room, ← same, if_pos armed, if_neg disarmed]
    exact Prod.Lex.right _ (Prod.Lex.left _ _ Nat.zero_lt_one)

/-- The loop returns. -/
theorem Running.yields {vm : Vm} (sound : side.Sound) (names : NamesTerminated program first)
    (running : Running side program first vm) : ∃ result, Yields (Vm.turn side.execute) vm result := by
  refine yields_of_measure (Prod.Lex (· < ·) (Prod.Lex (· < ·) (· < ·)))
    (WellFounded.prod_lex Nat.lt_wfRel.wf (WellFounded.prod_lex Nat.lt_wfRel.wf Nat.lt_wfRel.wf))
    (measure side program) (Running side program first) ?_ vm running
  intro s t running goes
  obtain ⟨running', room, pass⟩ := running.turn sound names goes
  refine ⟨running', measure_lt ?_ room pass⟩
  have inside := running'.decoder.ready.inside
  rwa [Decoder.Inside, running'.decoder.same] at inside

theorem Running.reaches {s t : Vm} (sound : side.Sound) (names : NamesTerminated program first)
    (running : Running side program first s) (path : Reaches (Vm.turn side.execute) s t) :
    Running side program first t :=
  path.invariant (fun _ _ running goes => (running.turn sound names goes).1) running

/-- Nothing is armed after a jump until bytes were read or written. -/
theorem Running.armed_later {s t : Vm} (sound : side.Sound) (names : NamesTerminated program first)
    (running : Running side program first s) (disarmed : ¬side.Armed s)
    (path : Reaches (Vm.turn side.execute) s t) :
    side.cursor s ≤ side.cursor t ∧ (side.Armed t → side.cursor s < side.cursor t) := by
  induction path with
  | refl => exact ⟨Nat.le_refl _, fun armed => absurd armed disarmed⟩
  | @tail u t path goes ih =>
    obtain ⟨le, later⟩ := ih
    obtain ⟨_, _, pass⟩ := (running.reaches sound names path).turn sound names goes
    rcases pass with ⟨_, ⟨more, _⟩ | ⟨same, arms⟩⟩ | ⟨_, _, same, _, unarmed⟩
    · exact ⟨by omega, fun _ => by omega⟩
    · refine ⟨by omega, fun armed => ?_⟩
      have further := later (arms armed)
      omega
    · exact ⟨by omega, fun armed => absurd armed unarmed⟩

/-- What the claim on the runs of a loop is: it returns; every pass goes forward in the program
unless it is a jump back of ARRAY_NEXT; and between two jumps the position in the buffer has
gone forward. -/
structure Terminates (side : Side) (vm : Vm) : Prop where
  returns : ∃ result, Yields (Vm.turn side.execute) vm result
  forward : ∀ s t, Reaches (Vm.turn side.execute) vm s → Vm.turn side.execute s = .next t →
    s.position < t.position ∨
      t.position ≤ s.position ∧ ∃ d, s.decoder.parseNextOperation = .ok .arrayNext d
  separated : ∀ s t s' t', Reaches (Vm.turn side.execute) vm s →
    Vm.turn side.execute s = .next t → t.position ≤ s.position →
    Reaches (Vm.turn side.execute) t s' → Vm.turn side.execute s' = .next t' →
    t'.position ≤ s'.position → side.cursor t < side.cursor s'

theorem Running.terminates {vm : Vm} (sound : side.Sound) (names : NamesTerminated program first)
    (running : Running side program first vm) : Terminates side vm where
  returns := running.yields sound names
  forward s t path goes := by
    obtain ⟨_, _, pass⟩ := (running.reaches sound names path).turn sound names goes
    rcases pass with forward | ⟨arrayNext, back, _⟩
    · exact .inl forward.1
    · exact .inr ⟨back, arrayNext⟩
  separated s t s' t' path goes back between goes' back' := by
    obtain ⟨running', _, pass⟩ := (running.reaches sound names path).turn sound names goes
    have jump : Jump side s t := pass.resolve_left fun forward => by
      have further := forward.1
      omega
    obtain ⟨_, _, pass'⟩ := (running'.reaches sound names between).turn sound names goes'
    have jump' : Jump side s' t' := pass'.resolve_left fun forward => by
      have further := forward.1
      omega
    exact (running'.armed_later sound names jump.2.2.2.2 between).2 jump'.2.2.2.1

/-- Behind a header that is accepted, in a program whose names are terminated, the loop that
the header asks for terminates from any serializer or deserializer. -/
theorem programs_terminate {dtl : Dtl} {program : Bytes} {d : Decoder} {header : ProgramHeader}
    {vm : Vm}
    (selected : (d.selectProgram program).parseProgramHeader header =
      .ok () (vm.decoder, vm.programHeader))
    (names : NamesTerminated program vm.decoder.programNext)
    (info : d.Sized) (sized : vm.serializer.Sized) :
    (vm.programHeader.programType = .pack → Terminates (packSide dtl) vm) ∧
    (vm.programHeader.programType = .unpack → Terminates (unpackSide dtl) vm) := by
  obtain ⟨ready, same, unmarked⟩ := Decoder.ready_of_select selected
  have decoder : vm.decoder.Runs program vm.decoder.programNext := by
    refine ⟨ready, same, .first, ?_, ?_⟩
    · intro mark saved
      rw [unmarked] at saved
      contradiction
    · obtain ⟨_, _, put⟩ := Result.lift_eq_ok.mp selected
      have sameInfo := congrArg Decoder.packUnpackInfo (Prod.mk.inj put).1
      rw [Decoder.Sized, ← sameInfo]
      exact info
  constructor
  · intro type
    exact Running.terminates (packSide_sound dtl) names ⟨type, decoder, sized⟩
  · intro type
    exact Running.terminates (unpackSide_sound dtl) names ⟨type, decoder, trivial⟩

/-- An array of two records with one number each, which takes one jump back. -/
theorem programs_terminate_records :
    Terminates (unpackSide .numeric)
      ((Vm.create 0).selectProgram [0x00, 2, 0xd0, 0x02, 2, 0x83, 97, 0, 0x00, 0x04]).state := by
  have table : ∀ next : Fin 10, ∀ b ∈ ([0x00, 2, 0xd0, 0x02, 2, 0x83, 97, 0, 0x00, 0x04] : Bytes)[next.val]?,
      (decodeInstruction b).1 = opcodeDataCtrl → (decodeInstruction b).2.1 = variantRecordSelect →
      0 ∈ ([0x00, 2, 0xd0, 0x02, 2, 0x83, 97, 0, 0x00, 0x04] : Bytes).drop (next.val + 1) := by decide +kernel
  have names (first : Nat) :
      NamesTerminated [0x00, 2, 0xd0, 0x02, 2, 0x83, 97, 0, 0x00, 0x04] first := by
    intro d same _ b here control select
    rw [same] at here ⊢
    exact .inr (table ⟨d.programNext, (List.getElem?_eq_some_iff.mp here).1⟩ b here control select)
  have info : Decoder.create.Sized := Nat.two_pow_pos 32
  have sized : Serializer.create.Sized := by
    intro st mem
    cases List.mem_singleton.mp mem
    exact Nat.two_pow_pos 32
  have selected : (Decoder.create.selectProgram
      [0x00, 2, 0xd0, 0x02, 2, 0x83, 97, 0, 0x00, 0x04]).parseProgramHeader {} = .ok () _ := rfl
  exact (programs_terminate selected (names _) info sized).2 rfl

end Vm

end Apx
