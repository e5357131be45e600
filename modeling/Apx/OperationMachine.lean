import Apx.Denotation
import Apx.Vm

/-! The machine on operations: what the virtual machine does, without the bytes of its program.
A run of the virtual machine on a program follows the run on the operations that the program
stands for. -/

namespace Apx

open Machine

/-- The operation saves the position behind it: it starts an array of records. -/
def Operation.marks : Operation → Bool
  | .unpack info => info.typeCode = .record ∧ info.arrayLength > 0
  | .pack info => info.typeCode = .record ∧ info.arrayLength > 0
  | _ => false

/-- A data engine (the serializer or the deserializer): the operations but ARRAY_NEXT, and the
step of ARRAY_NEXT, which says whether the array is at its end. -/
structure Engine (σ : Type) where
  execute : Operation → σ → Result σ Unit
  arrayNext : σ → Result σ Bool

/-- The operations that are left, those behind the saved position, and the data. -/
structure Task (σ : Type) where
  code : List Operation
  mark : Option (List Operation) := none
  data : σ

namespace Engine
variable {σ : Type} (engine : Engine σ)

/-- One pass through the loop -/
def turn (task : Task σ) : Turn (Task σ) (Result σ Unit) :=
  match task.code with
  | [] => .halt (.ok () task.data)
  | .arrayNext :: rest =>
      match engine.arrayNext task.data with
      | .fail failure data => .halt (.fail failure data)
      | .ok true data => .next { task with code := rest, data := data }
      | .ok false data =>
        match task.mark with
        | some code => .next { task with code := code, data := data }
        | none => .halt (.fail (.code .invalidInstruction) data)
  | op :: rest =>
      match engine.execute op task.data with
      | .fail failure data => .halt (.fail failure data)
      | .ok _ data =>
          .next { code := rest, mark := if op.marks then some rest else task.mark, data := data }

/-- A pass through the loop on any other operation than ARRAY_NEXT -/
theorem turn_execute {op : Operation} (notNext : op ≠ .arrayNext) (rest : List Operation)
    (mark : Option (List Operation)) (data : σ) :
    engine.turn { code := op :: rest, mark := mark, data := data } =
      match engine.execute op data with
      | .fail failure data => .halt (.fail failure data)
      | .ok _ data =>
          .next { code := rest, mark := if op.marks then some rest else mark, data := data } := by
  cases op with
  | arrayNext => exact absurd rfl notNext
  | _ => rfl

/-- Operations one after another, none of which is ARRAY_NEXT -/
def exec : List Operation → σ → Result σ Unit
  | [], data => .ok () data
  | op :: rest, data => (engine.execute op data).bind fun _ data => exec rest data

theorem exec_append (ops others : List Operation) (data : σ) :
    engine.exec (ops ++ others) data =
      (engine.exec ops data).bind fun _ data => engine.exec others data := by
  induction ops generalizing data with
  | nil => rfl
  | cons op ops ih =>
    simp only [List.cons_append, exec]
    cases engine.execute op data with
    | ok value data => exact ih data
    | fail failure data => rfl

/-- An operation that neither starts nor ends a pass through an array of records -/
def Plain (op : Operation) : Prop := op ≠ .arrayNext ∧ op.marks = false

theorem plain_leafOperations (programType : ProgramType) (code : LeafCode) (arrayLength : Nat)
    (isDynamic : Bool) (limits : Option Limits) :
    ∀ op ∈ leafOperations programType code arrayLength isDynamic limits, Plain op := by
  have notRecord : code.typeCode ≠ .record := by cases code <;> decide
  have data : Plain (.data programType (dataInfo code.typeCode arrayLength isDynamic)) := by
    cases programType <;>
      exact ⟨nofun, by simp [Operation.data, Operation.marks, dataInfo, notRecord]⟩
  have check (limits : Limits) : ∀ op ∈ limitCheck code limits, Plain op := by
    intro op mem
    cases code with
    | none | char | char8 | char16 | char32 | bool => cases mem
    | _ =>
      rw [List.mem_singleton.mp mem]
      exact ⟨nofun, rfl⟩
  intro op mem
  cases limits with
  | none =>
    rw [List.mem_singleton.mp mem]
    exact data
  | some limits =>
    cases programType with
    | pack =>
      rcases List.mem_append.mp mem with mem | mem
      · exact check limits op mem
      · rw [List.mem_singleton.mp mem]
        exact data
    | unpack =>
      rcases List.mem_cons.mp mem with rfl | mem
      · exact data
      · exact check limits op mem

theorem run_exec {ops : List Operation} (plain : ∀ op ∈ ops, Plain op) (rest : List Operation)
    (mark : Option (List Operation)) (data : σ) :
    match engine.exec ops data with
    | .ok _ data' => Reaches engine.turn { code := ops ++ rest, mark := mark, data := data }
        { code := rest, mark := mark, data := data' }
    | .fail failure data' => Yields engine.turn { code := ops ++ rest, mark := mark, data := data }
        (.fail failure data') := by
  induction ops generalizing data with
  | nil => exact .refl _ _
  | cons op ops ih =>
    obtain ⟨⟨notNext, unmarked⟩, plain⟩ := List.forall_mem_cons.mp plain
    have turn := engine.turn_execute notNext (ops ++ rest) mark data
    rw [unmarked] at turn
    rw [exec]
    cases executed : engine.execute op data with
    | fail failure data' =>
      rw [executed] at turn
      exact .halt turn
    | ok value data' =>
      rw [executed] at turn
      rw [Result.bind_ok]
      have behind := ih plain data'
      cases ended : engine.exec ops data' with
      | ok value data'' =>
        rw [ended] at behind
        exact (Reaches.one turn).trans behind
      | fail failure data'' =>
        rw [ended] at behind
        exact .next turn behind

end Engine

def packEngine (dtl : Dtl) : Engine Serializer where
  execute
    | .pack info, s => Vm.packOperation dtl info s
    | .unpack _, s => .fail (.code .invalidInstruction) s
    | .rangeCheckInt32 info, s => s.checkValueRangeInt32 dtl info.lower info.upper
    | .rangeCheckUInt32 info, s => s.checkValueRangeUInt32 dtl info.lower info.upper
    | .rangeCheckInt64 info, s => s.checkValueRangeInt64 dtl info.lower info.upper
    | .rangeCheckUInt64 info, s => s.checkValueRangeUInt64 dtl info.lower info.upper
    | .recordSelect name isLastField, s => s.recordSelect name isLastField
    | .arrayNext, s => .ok () s
  arrayNext := Serializer.arrayNext

def unpackEngine (dtl : Dtl) : Engine Deserializer where
  execute
    | .unpack info, d => Vm.unpackOperation info d
    | .pack _, d => .fail (.code .invalidInstruction) d
    | .rangeCheckInt32 info, d => d.checkValueRangeInt32 dtl info.lower info.upper
    | .rangeCheckUInt32 info, d => d.checkValueRangeUInt32 dtl info.lower info.upper
    | .rangeCheckInt64 info, d => d.checkValueRangeInt64 dtl info.lower info.upper
    | .rangeCheckUInt64 info, d => d.checkValueRangeUInt64 dtl info.lower info.upper
    | .recordSelect name isLastField, d => d.recordSelect name isLastField
    | .arrayNext, d => .ok () d
  arrayNext := Deserializer.arrayNext

namespace Vm

/-- A loop of the virtual machine, the part of it that the loop works on, and the engine that
says what happens there. -/
structure Host (σ : Type) where
  type : ProgramType
  get : Vm → σ
  engine : Engine σ
  execute : OperationType → Vm → Result Vm Unit

namespace Host
variable {σ : Type} (host : Host σ)

/-- The call ends as the engine does. Where it succeeds it leaves `decoder`. -/
def Follows (vm : Vm) (decoder : Decoder) (call : Result Vm Unit) : Result σ Unit → Prop
  | .ok _ data => ∃ vm', call = .ok () vm' ∧ host.get vm' = data ∧
      vm'.programHeader = vm.programHeader ∧ vm'.decoder = decoder
  | .fail failure data => ∃ vm', call = .fail failure vm' ∧ host.get vm' = data

/-- What run_array_next does behind the array_next of its side. -/
def afterArrayNext (vm : Vm) : Result σ Bool → Decoder × Result σ Unit
  | .fail failure data => (vm.decoder, .fail failure data)
  | .ok true data => (vm.decoder, .ok () data)
  | .ok false data =>
      if vm.decoder.hasSavedProgramPosition then (vm.decoder.recallProgramPosition, .ok () data)
      else (vm.decoder, .fail (.code .invalidInstruction) data)

/-- The loop executes what the engine executes. -/
structure Faithful : Prop where
  get_decoder : ∀ (vm : Vm) (d : Decoder), host.get { vm with decoder := d } = host.get vm
  programEnd : ∀ vm, host.execute .programEnd vm = .ok () vm
  execute : ∀ {op : Operation} {vm : Vm}, op ≠ .arrayNext →
    vm.decoder.operation op.type = some op →
    host.Follows vm (if op.marks then vm.decoder.saveProgramPosition else vm.decoder)
      (host.execute op.type vm) (host.engine.execute op (host.get vm))
  arrayNext : ∀ {vm : Vm}, vm.programHeader.programType = host.type →
    host.Follows vm (afterArrayNext vm (host.engine.arrayNext (host.get vm))).1
      (host.execute .arrayNext vm) (afterArrayNext vm (host.engine.arrayNext (host.get vm))).2

end Host

def packHost (dtl : Dtl) : Host Serializer := ⟨.pack, serializer, packEngine dtl, executePack dtl⟩

def unpackHost (dtl : Dtl) : Host Deserializer :=
  ⟨.unpack, deserializer, unpackEngine dtl, executeUnpack dtl⟩

theorem follows_onSerializer (dtl : Dtl) (vm : Vm) (call : Serializer → Result Serializer Unit) :
    (packHost dtl).Follows vm vm.decoder (vm.onSerializer call) (call vm.serializer) := by
  unfold onSerializer
  cases call vm.serializer with
  | ok value s => exact ⟨_, rfl, rfl, rfl, rfl⟩
  | fail failure s => exact ⟨_, rfl, rfl⟩

theorem follows_onDeserializer (dtl : Dtl) (vm : Vm)
    (call : Deserializer → Result Deserializer Unit) :
    (unpackHost dtl).Follows vm vm.decoder (vm.onDeserializer call) (call vm.deserializer) := by
  unfold onDeserializer
  cases call vm.deserializer with
  | ok value d => exact ⟨_, rfl, rfl, rfl, rfl⟩
  | fail failure d => exact ⟨_, rfl, rfl⟩

theorem saveForRecordArray_eq (info : PackUnpackInfo) :
    saveForRecordArray info = fun vm => { vm with
      decoder := if (Operation.pack info).marks then vm.decoder.saveProgramPosition
        else vm.decoder } := by
  funext vm
  simp only [saveForRecordArray, Operation.marks, decide_eq_true_eq]
  split <;> rfl

theorem packHost_faithful (dtl : Dtl) : (packHost dtl).Faithful where
  get_decoder _ _ := rfl
  programEnd _ := rfl
  execute {op vm} notNext holds := by
    cases op with
    | arrayNext => exact absurd rfl notNext
    | unpack info => exact ⟨vm, rfl, rfl⟩
    | pack info =>
      obtain rfl : vm.decoder.packUnpackInfo = info := by
        simpa [Operation.type, Decoder.operation] using holds
      show (packHost dtl).Follows _ _ (runPackInstruction dtl vm) (packOperation dtl _ vm.serializer)
      simp only [runPackInstruction, onSerializer, saveForRecordArray_eq]
      cases packOperation dtl vm.decoder.packUnpackInfo vm.serializer with
      | ok value s => exact ⟨_, rfl, rfl, rfl, rfl⟩
      | fail failure s => exact ⟨_, rfl, rfl⟩
    | rangeCheckInt32 info =>
      cases holds
      exact follows_onSerializer dtl vm fun s => s.checkValueRangeInt32 dtl _ _
    | rangeCheckUInt32 info =>
      cases holds
      exact follows_onSerializer dtl vm fun s => s.checkValueRangeUInt32 dtl _ _
    | rangeCheckInt64 info =>
      cases holds
      exact follows_onSerializer dtl vm fun s => s.checkValueRangeInt64 dtl _ _
    | rangeCheckUInt64 info =>
      cases holds
      exact follows_onSerializer dtl vm fun s => s.checkValueRangeUInt64 dtl _ _
    | recordSelect name isLastField =>
      cases holds
      exact follows_onSerializer dtl vm fun s => s.recordSelect _ _
  arrayNext {vm} type := by
    have pack : vm.programHeader.programType = .pack := type
    show (packHost dtl).Follows _ (Host.afterArrayNext vm vm.serializer.arrayNext).1
      (runArrayNext vm) (Host.afterArrayNext vm vm.serializer.arrayNext).2
    unfold runArrayNext onSerializer
    rw [if_pos pack]
    cases vm.serializer.arrayNext with
    | fail failure s => exact ⟨_, rfl, rfl⟩
    | ok isLast s =>
      cases isLast with
      | true => exact ⟨_, rfl, rfl, rfl, rfl⟩
      | false =>
        simp only [Host.afterArrayNext, Result.lift_ok, Result.bind_ok]
        split
        · exact ⟨_, rfl, rfl, rfl, rfl⟩
        · exact ⟨_, rfl, rfl⟩

theorem unpackHost_faithful (dtl : Dtl) : (unpackHost dtl).Faithful where
  get_decoder _ _ := rfl
  programEnd _ := rfl
  execute {op vm} notNext holds := by
    cases op with
    | arrayNext => exact absurd rfl notNext
    | pack info => exact ⟨vm, rfl, rfl⟩
    | unpack info =>
      obtain rfl : vm.decoder.packUnpackInfo = info := by
        simpa [Operation.type, Decoder.operation] using holds
      show (unpackHost dtl).Follows _ _ (runUnpackInstruction vm) (unpackOperation _ vm.deserializer)
      simp only [runUnpackInstruction, onDeserializer, saveForRecordArray_eq]
      cases unpackOperation vm.decoder.packUnpackInfo vm.deserializer with
      | ok value d => exact ⟨_, rfl, rfl, rfl, rfl⟩
      | fail failure d => exact ⟨_, rfl, rfl⟩
    | rangeCheckInt32 info =>
      cases holds
      exact follows_onDeserializer dtl vm fun d => d.checkValueRangeInt32 dtl _ _
    | rangeCheckUInt32 info =>
      cases holds
      exact follows_onDeserializer dtl vm fun d => d.checkValueRangeUInt32 dtl _ _
    | rangeCheckInt64 info =>
      cases holds
      exact follows_onDeserializer dtl vm fun d => d.checkValueRangeInt64 dtl _ _
    | rangeCheckUInt64 info =>
      cases holds
      exact follows_onDeserializer dtl vm fun d => d.checkValueRangeUInt64 dtl _ _
    | recordSelect name isLastField =>
      cases holds
      exact follows_onDeserializer dtl vm fun d => d.recordSelect _ _
  arrayNext {vm} type := by
    have unpack : vm.programHeader.programType ≠ .pack := by
      rw [show vm.programHeader.programType = .unpack from type]
      decide
    show (unpackHost dtl).Follows _ (Host.afterArrayNext vm vm.deserializer.arrayNext).1
      (runArrayNext vm) (Host.afterArrayNext vm vm.deserializer.arrayNext).2
    unfold runArrayNext onDeserializer
    rw [if_neg unpack]
    cases vm.deserializer.arrayNext with
    | fail failure d => exact ⟨_, rfl, rfl⟩
    | ok isLast d =>
      cases isLast with
      | true => exact ⟨_, rfl, rfl, rfl, rfl⟩
      | false =>
        simp only [Host.afterArrayNext, Result.lift_ok, Result.bind_ok]
        split
        · exact ⟨_, rfl, rfl, rfl, rfl⟩
        · exact ⟨_, rfl, rfl⟩

/-- The decoder has saved the position where these operations start. -/
def Marked (d : Decoder) : Option (List Operation) → Prop
  | none => d.programMark = none
  | some ops => ∃ mark bytes, d.programMark = some mark ∧ mark ≤ d.program.length ∧
      d.program.drop mark = bytes ∧ Decoder.Codes bytes ops

structure Host.At {σ : Type} (host : Host σ) (vm : Vm) (task : Task σ) : Prop where
  type : vm.programHeader.programType = host.type
  data : host.get vm = task.data
  code : ∃ bytes, vm.decoder.Before bytes ∧ Decoder.Codes bytes task.code
  mark : Marked vm.decoder task.mark

theorem Marked.took {d d' : Decoder} {bytes : Bytes} {op : Operation} {mark : Option (List Operation)}
    (marked : Marked d mark) (took : Decoder.Took d d' bytes op) : Marked d' mark := by
  cases mark with
  | none => exact took.mark.trans marked
  | some ops =>
    obtain ⟨position, rest, saved, inside, here, codes⟩ := marked
    exact ⟨position, rest, took.mark.trans saved, took.program ▸ inside, took.program ▸ here, codes⟩

theorem marked_save {d : Decoder} {bytes : Bytes} {ops : List Operation} (before : d.Before bytes)
    (codes : Decoder.Codes bytes ops) :
    Marked d.saveProgramPosition (some ops) ∧ d.saveProgramPosition.Before bytes := by
  rw [Decoder.saveProgramPosition, if_pos before.loaded]
  exact ⟨⟨d.programNext, bytes, rfl, before.inside, before.rest, codes⟩,
    ⟨before.loaded, before.inside, before.rest⟩⟩

theorem turn_next {execute : OperationType → Vm → Result Vm Unit} {vm vm' : Vm} {d' : Decoder}
    {bytes : Bytes} {op : Operation} (took : Decoder.Took vm.decoder d' bytes op)
    (done : execute op.type { vm with decoder := d' } = .ok () vm') :
    turn execute vm = .next vm' := by
  simp only [turn, took.parse, done, if_neg op.type_ne_programEnd]

theorem turn_halt {execute : OperationType → Vm → Result Vm Unit} {vm vm' : Vm} {d' : Decoder}
    {bytes : Bytes} {op : Operation} {failure : Failure} (took : Decoder.Took vm.decoder d' bytes op)
    (failed : execute op.type { vm with decoder := d' } = .fail failure vm') :
    turn execute vm = .halt (.fail failure vm') := by
  simp only [turn, took.parse, failed]

theorem Host.Faithful.step {σ : Type} {host : Host σ} (faithful : host.Faithful) {vm : Vm}
    {task : Task σ} (related : host.At vm task) :
    match host.engine.turn task with
    | .next task' => ∃ vm', turn host.execute vm = .next vm' ∧ host.At vm' task'
    | .halt r' => ∃ r, turn host.execute vm = .halt r ∧
        Result.Rel (fun vm data => host.get vm = data) r r' := by
  obtain ⟨code, mark, data⟩ := task
  obtain ⟨type, rfl, ⟨bytes, before, codes⟩, marked⟩ := related
  simp only at before codes marked
  cases codes with
  | nil =>
    obtain ⟨_, parse⟩ := before.programEnd
    exact ⟨.ok () vm, by simp only [turn, parse, faithful.programEnd, if_pos], .ok rfl⟩
  | @cons bytes more op rest nonempty first codes =>
    obtain ⟨d', took⟩ := first vm.decoder more before
    have behind := took.before before nonempty
    have same : host.get { vm with decoder := d' } = host.get vm := faithful.get_decoder vm d'
    by_cases next : op = .arrayNext
    · subst next
      have follows := @Faithful.arrayNext _ _ faithful { vm with decoder := d' } type
      rw [same] at follows
      have marked' := marked.took took
      simp only [Engine.turn]
      cases stepped : host.engine.arrayNext (host.get vm) with
      | fail failure data =>
        rw [stepped] at follows
        obtain ⟨vm', failed, got⟩ := follows
        exact ⟨_, turn_halt took failed, .fail got⟩
      | ok isLast data =>
        rw [stepped] at follows
        cases isLast with
        | true =>
          obtain ⟨vm', done, got, header, decoder⟩ := follows
          exact ⟨vm', turn_next took done, header ▸ type, got, ⟨more, decoder ▸ behind, codes⟩,
            decoder ▸ marked'⟩
        | false =>
          cases mark with
          | none =>
            have unsaved : d'.hasSavedProgramPosition = false := by
              rw [Decoder.hasSavedProgramPosition, show d'.programMark = none from marked']
              rfl
            simp only [afterArrayNext, unsaved] at follows
            obtain ⟨vm', failed, got⟩ := follows
            exact ⟨_, turn_halt took failed, .fail got⟩
          | some ops =>
            obtain ⟨position, rest, saved, inside, here, codes'⟩ := marked'
            have has : d'.hasSavedProgramPosition = true := by
              rw [Decoder.hasSavedProgramPosition, saved]
              rfl
            simp only [afterArrayNext, has, if_true] at follows
            obtain ⟨vm', done, got, header, decoder⟩ := follows
            have recalled : d'.recallProgramPosition = { d' with programNext := position } := by
              rw [Decoder.recallProgramPosition, saved]
            rw [recalled] at decoder
            refine ⟨vm', turn_next took done, header ▸ type, got, ⟨rest, ?_, codes'⟩, ?_⟩
            · rw [decoder]
              exact ⟨took.loaded, inside, here⟩
            · rw [decoder]
              exact ⟨position, rest, saved, inside, here, codes'⟩
    · have follows := @Faithful.execute _ _ faithful op { vm with decoder := d' } next took.operation
      rw [same] at follows
      rw [Engine.turn_execute _ next]
      cases executed : host.engine.execute op (host.get vm) with
      | fail failure data =>
        rw [executed] at follows
        obtain ⟨vm', failed, got⟩ := follows
        exact ⟨_, turn_halt took failed, .fail got⟩
      | ok value data =>
        rw [executed] at follows
        obtain ⟨vm', done, got, header, decoder⟩ := follows
        refine ⟨vm', turn_next took done, ?_⟩
        have saved := marked_save behind codes
        refine { type := header ▸ type, data := got, code := ⟨more, ?_, codes⟩, mark := ?_ }
        · rw [decoder]
          split
          · exact saved.2
          · exact behind
        · rw [decoder]
          split
          · exact saved.1
          · exact marked.took took

/-- A run of the loop on a program follows the run of the engine on its operations. -/
theorem Host.Faithful.simulates {σ : Type} {host : Host σ} (faithful : host.Faithful) :
    Simulates (turn host.execute) host.engine.turn host.At
      (Result.Rel fun vm data => host.get vm = data) where
  next {vm task task'} related goes := by
    have step := faithful.step related
    rwa [goes] at step
  halt {vm task r'} related halts := by
    have step := faithful.step related
    rwa [halts] at step

end Vm

end Apx
