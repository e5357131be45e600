import Mathlib.Data.List.TakeWhile
import Apx.Operation

/-! The decoder stays inside its program, whatever the bytes of the program are, as long as
the names of the record selects that it parses are terminated. -/

namespace Apx

open LittleEndian Vm

namespace Decoder

/-! A parse function returns the position behind the number, which is inside the program. -/

theorem parseUInt32ByVariant_next {program : Bytes} {begin variant next : Nat} {value : BitVec 32}
    (parsed : parseUInt32ByVariant program begin variant = some (value, next)) :
    begin ≤ next ∧ next ≤ program.length := by
  unfold parseUInt32ByVariant at parsed
  simp only at parsed
  split at parsed
  · contradiction
  · cases parsed
    omega

theorem parseUInt64ByVariant_next {program : Bytes} {begin variant next : Nat} {value : BitVec 64}
    (parsed : parseUInt64ByVariant program begin variant = some (value, next)) :
    begin ≤ next ∧ next ≤ program.length := by
  unfold parseUInt64ByVariant at parsed
  simp only at parsed
  split at parsed
  · contradiction
  · cases parsed
    omega

theorem parseInt64ByVariant_next {program : Bytes} {begin variant next : Nat} {value : BitVec 64}
    (parsed : parseInt64ByVariant program begin variant = some (value, next)) :
    begin ≤ next ∧ next ≤ program.length := by
  unfold parseInt64ByVariant at parsed
  simp only at parsed
  split at parsed
  · contradiction
  · cases parsed
    omega

theorem parseInt32ByVariant_next {program : Bytes} {begin variant next : Nat} {value : BitVec 32}
    (parsed : parseInt32ByVariant program begin variant = some (value, next)) :
    begin ≤ next ∧ next ≤ program.length := by
  unfold parseInt32ByVariant at parsed
  simp only at parsed
  split at parsed
  · contradiction
  · split at parsed
    · cases parsed
      omega
    · split at parsed
      · cases parsed
        omega
      · split at parsed
        · cases parsed
          omega
        · contradiction

/-- The array length is a number of the type uint32_t. -/
def Sized (d : Decoder) : Prop := d.packUnpackInfo.arrayLength < 2 ^ 32

/-- A call that reads inside the program only, and moves the cursor forward at most to its end. -/
structure Moves (d : Decoder) (result : Result Decoder Unit) : Prop where
  noFault : ∀ d', result ≠ .fail .outOfBounds d'
  loaded : result.state.hasProgram = d.hasProgram
  program : result.state.program = d.program
  mark : result.state.programMark = d.programMark
  forward : d.programNext ≤ result.state.programNext
  inside : result.state.programNext ≤ d.program.length
  sized : d.Sized → result.state.Sized

theorem Moves.ok {d d' : Decoder} (loaded : d'.hasProgram = d.hasProgram)
    (program : d'.program = d.program) (mark : d'.programMark = d.programMark)
    (forward : d.programNext ≤ d'.programNext) (inside : d'.programNext ≤ d.program.length)
    (sized : d.Sized → d'.Sized) : Moves d (.ok () d') :=
  ⟨by simp, loaded, program, mark, forward, inside, sized⟩

theorem Moves.failed {d d' : Decoder} (error : ApxError) (loaded : d'.hasProgram = d.hasProgram)
    (program : d'.program = d.program) (mark : d'.programMark = d.programMark)
    (forward : d.programNext ≤ d'.programNext) (inside : d'.programNext ≤ d.program.length)
    (sized : d.Sized → d'.Sized) : Moves d (.fail (.code error) d') :=
  ⟨by simp, loaded, program, mark, forward, inside, sized⟩

/-- An earlier start makes the move longer. -/
theorem Moves.before {d d' : Decoder} {result : Result Decoder Unit} (moves : Moves d' result)
    (loaded : d'.hasProgram = d.hasProgram) (program : d'.program = d.program)
    (mark : d'.programMark = d.programMark) (forward : d.programNext ≤ d'.programNext)
    (sized : d.Sized → d'.Sized) : Moves d result where
  noFault := moves.noFault
  loaded := moves.loaded.trans loaded
  program := moves.program.trans program
  mark := moves.mark.trans mark
  forward := Nat.le_trans forward moves.forward
  inside := program ▸ moves.inside
  sized := fun start => moves.sized (sized start)

theorem moves_decodeArraySize {d : Decoder} (inside : d.programNext ≤ d.program.length) :
    Moves d d.decodeArraySize := by
  unfold decodeArraySize
  by_cases bound : d.programNext < d.program.length
  · have here : d.program[d.programNext]? = some d.program[d.programNext] := by simp [bound]
    have step : d.programNext ≤ d.programNext + 1 := Nat.le_succ _
    simp only [if_pos bound, fetch, here, Result.bind_ok]
    generalize decodeInstruction d.program[d.programNext] = decoded
    obtain ⟨opcode, variant, isDynamicArray⟩ := decoded
    simp only
    split
    · split
      · exact .failed _ rfl rfl rfl step bound id
      · split
        · exact .failed _ rfl rfl rfl step bound id
        next parsed =>
          obtain ⟨forward, inside⟩ := parseUInt32ByVariant_next parsed
          exact .ok rfl rfl rfl (Nat.le_trans step forward) inside fun _ => BitVec.isLt _
    · exact .ok rfl rfl rfl step bound id
  · rw [if_neg bound]
    exact .failed _ rfl rfl rfl (Nat.le_refl _) inside id

theorem moves_decodeRangeCheck {w : Nat} (kind : RangeCheckKind w)
    (next : ∀ {program begin variant value next}, kind.parse program begin variant =
      some (value, next) → begin ≤ next ∧ next ≤ program.length)
    (old : RangeCheckInfo w) (d : Decoder) (variant : Nat) (inside : d.programNext ≤ d.program.length) :
    Moves d (decodeRangeCheck kind.parse kind.put old d variant) := by
  unfold decodeRangeCheck
  by_cases bound : d.programNext + variantToSize variant * 2 ≤ d.program.length
  · rw [if_pos bound]
    cases first : kind.parse d.program d.programNext variant with
    | none => exact .failed _ rfl rfl rfl (Nat.le_refl _) inside id
    | some lower =>
      obtain ⟨lower, middle⟩ := lower
      obtain ⟨forward, bound⟩ := next first
      obtain ⟨loaded, program, mark, position, _, info⟩ :=
        kind.frame { old with lower := lower } { d with programNext := middle }
      simp only at loaded program mark position info ⊢
      generalize kind.put { old with lower := lower } { d with programNext := middle } = half at *
      cases second : kind.parse half.program half.programNext variant with
      | none =>
        exact .failed _ loaded program mark (position ▸ forward) (position ▸ bound)
          fun sized => by rw [Sized, info]; exact sized
      | some upper =>
        obtain ⟨upper, behind⟩ := upper
        obtain ⟨forward', bound'⟩ := next second
        obtain ⟨loaded', program', mark', position', _, info'⟩ :=
          kind.frame { lower := lower, upper := upper } { half with programNext := behind }
        refine .ok (loaded'.trans loaded) (program'.trans program) (mark'.trans mark) ?_ ?_
          fun sized => ?_
        · rw [position']
          exact Nat.le_trans forward (position ▸ forward')
        · rw [position']
          exact program ▸ bound'
        · rw [Sized, info', info]
          exact sized
  · rw [if_neg bound]
    exact .failed _ rfl rfl rfl (Nat.le_refl _) inside id

theorem moves_decodePackUnpack {d : Decoder} (operationType : OperationType) (variant : Nat)
    (flag : Bool) (inside : d.programNext ≤ d.program.length) :
    Moves d (d.decodePackUnpack operationType variant flag) := by
  unfold decodePackUnpack
  simp only
  split
  · exact .failed _ rfl rfl rfl (Nat.le_refl _) inside id
  split
  · exact .failed _ rfl rfl rfl (Nat.le_refl _) inside id
  split
  · refine Moves.before (moves_decodeArraySize ?_) rfl rfl rfl (Nat.le_refl _)
      fun _ => Nat.two_pow_pos 32
    exact inside
  · exact .ok rfl rfl rfl (Nat.le_refl _) inside fun _ => Nat.two_pow_pos 32

/-! The name of a record select ends at a zero byte or at the end of the program. -/

theorem whileNotZero_le (program : Bytes) {begin : Nat} (inside : begin ≤ program.length) :
    begin ≤ whileNotZero program begin ∧ whileNotZero program begin ≤ program.length := by
  have bound := (List.takeWhile_sublist (fun b => decide (b ≠ 0)) (l := program.drop begin)).length_le
  rw [List.length_drop] at bound
  unfold whileNotZero
  omega

theorem whileNotZero_lt {program : Bytes} {begin : Nat} (zero : 0 ∈ program.drop begin) :
    whileNotZero program begin < program.length := by
  have bound := (List.takeWhile_sublist (fun b => decide (b ≠ 0)) (l := program.drop begin)).length_le
  have short : (program.drop begin).takeWhile (fun b => decide (b ≠ 0)) ≠ program.drop begin := by
    intro whole
    have differ := List.takeWhile_eq_self_iff.mp whole 0 zero
    simp at differ
  have shorter : ((program.drop begin).takeWhile fun b => decide (b ≠ 0)).length ≠
      (program.drop begin).length :=
    fun same => short ((List.takeWhile_sublist _).eq_of_length same)
  rw [List.length_drop] at bound shorter
  unfold whileNotZero
  omega

theorem whileNotZero_eq {program : Bytes} {begin : Nat} (inside : begin ≤ program.length)
    (noZero : 0 ∉ program.drop begin) : whileNotZero program begin = program.length := by
  have keep : ∀ b ∈ program.drop begin, (decide (b ≠ 0)) = true := by
    intro b mem
    have differ : b ≠ 0 := fun zero => noZero (zero ▸ mem)
    simpa using differ
  rw [whileNotZero, List.takeWhile_eq_self_iff.mpr keep, List.length_drop]
  omega

/-- There is no name, or there is a zero byte behind it inside the program. -/
def NameEnds (rest : Bytes) : Prop := rest = [] ∨ 0 ∈ rest

theorem moves_decodeRecordSelect {d : Decoder} (isLastField : Bool)
    (inside : d.programNext ≤ d.program.length) (ends : NameEnds (d.program.drop d.programNext)) :
    Moves d (d.decodeRecordSelect isLastField) := by
  unfold decodeRecordSelect
  simp only
  split
  next found =>
    have bound : whileNotZero d.program d.programNext < d.program.length := by
      rcases ends with empty | zero
      · have short := List.drop_eq_nil_iff.mp empty
        have upper := (whileNotZero_le d.program inside).2
        omega
      · exact whileNotZero_lt zero
    exact .ok rfl rfl rfl (Nat.le_succ_of_le (Nat.le_of_lt found.1)) bound id
  · exact .failed _ rfl rfl rfl (Nat.le_refl _) inside id

/-- A name that does not end inside the program takes the cursor beyond the end. -/
theorem decodeRecordSelect_overrun {d : Decoder} (isLastField : Bool)
    (inside : d.programNext ≤ d.program.length)
    (runsOn : ¬NameEnds (d.program.drop d.programNext)) :
    (d.decodeRecordSelect isLastField).state.programNext = d.program.length + 1 ∧
      (d.decodeRecordSelect isLastField).state.program = d.program := by
  rw [NameEnds, not_or] at runsOn
  have stop := whileNotZero_eq inside runsOn.2
  have room : d.programNext < d.program.length := by
    by_contra full
    exact runsOn.1 (List.drop_eq_nil_iff.mpr (by omega))
  have found : d.program.length > d.programNext ∧ d.programNext ≤ d.program.length := ⟨room, inside⟩
  simp only [decodeRecordSelect, stop, if_pos found, Result.state_ok, and_self]

theorem moves_decodeDataCtrl {d : Decoder} (variant : Nat) (flag : Bool)
    (inside : d.programNext ≤ d.program.length)
    (ends : variant = variantRecordSelect → NameEnds (d.program.drop d.programNext)) :
    Moves d (d.decodeDataCtrl variant flag) := by
  have uint32 (variant : Nat) :
      Moves d (decodeRangeCheckUInt32 { d with operationType := .rangeCheckUInt32 } variant) :=
    (moves_decodeRangeCheck checkUInt32 parseUInt32ByVariant_next _
      { d with operationType := .rangeCheckUInt32 } variant inside).before rfl rfl rfl (Nat.le_refl _) id
  have uint64 (variant : Nat) :
      Moves d (decodeRangeCheckUInt64 { d with operationType := .rangeCheckUInt64 } variant) :=
    (moves_decodeRangeCheck checkUInt64 parseUInt64ByVariant_next _
      { d with operationType := .rangeCheckUInt64 } variant inside).before rfl rfl rfl (Nat.le_refl _) id
  have int32 (variant : Nat) :
      Moves d (decodeRangeCheckInt32 { d with operationType := .rangeCheckInt32 } variant) :=
    (moves_decodeRangeCheck checkInt32 parseInt32ByVariant_next _
      { d with operationType := .rangeCheckInt32 } variant inside).before rfl rfl rfl (Nat.le_refl _) id
  have int64 (variant : Nat) :
      Moves d (decodeRangeCheckInt64 { d with operationType := .rangeCheckInt64 } variant) :=
    (moves_decodeRangeCheck checkInt64 parseInt64ByVariant_next _
      { d with operationType := .rangeCheckInt64 } variant inside).before rfl rfl rfl (Nat.le_refl _) id
  unfold decodeDataCtrl
  split
  next select => exact moves_decodeRecordSelect flag inside (ends select)
  split
  · split
    · exact uint32 _
    split
    · exact uint32 _
    split
    · exact uint32 _
    split
    · exact uint64 _
    split
    · exact int32 _
    split
    · exact int32 _
    split
    · exact int32 _
    split
    · exact int64 _
    · exact .ok rfl rfl rfl (Nat.le_refl _) inside id
  · exact .failed _ rfl rfl rfl (Nat.le_refl _) inside id

/-- If the decoder stands before a record select, the name behind it ends inside the program. -/
def NameTerminated (d : Decoder) : Prop :=
  ∀ b, d.program[d.programNext]? = some b → (decodeInstruction b).1 = opcodeDataCtrl →
    (decodeInstruction b).2.1 = variantRecordSelect →
    NameEnds (d.program.drop (d.programNext + 1))

theorem moves_decodeNextInstruction {d : Decoder} (room : d.programNext < d.program.length)
    (terminated : d.NameTerminated) : Moves d.skip d.decodeNextInstruction := by
  have here : d.program[d.programNext]? = some d.program[d.programNext] := by simp [room]
  have terminated := terminated _ here
  have fetched : d.fetch = .ok d.program[d.programNext] d.skip := by
    simp only [fetch, here, skip]
  have inside : d.skip.programNext ≤ d.skip.program.length := room
  simp only [decodeNextInstruction, fetched, Result.bind_ok]
  generalize decodeInstruction d.program[d.programNext] = decoded at terminated ⊢
  obtain ⟨opcode, variant, flag⟩ := decoded
  simp only at terminated ⊢
  split
  · exact moves_decodePackUnpack _ variant flag inside
  split
  · exact moves_decodePackUnpack _ variant flag inside
  split
  next control => exact moves_decodeDataCtrl variant flag inside (terminated control)
  split
  · split
    · exact .ok rfl rfl rfl (Nat.le_refl _) inside id
    · exact .failed _ rfl rfl rfl (Nat.le_refl _) inside id
  · exact .failed _ rfl rfl rfl (Nat.le_refl _) inside id

/-- The cursor is in the program or at its end. -/
def Inside (d : Decoder) : Prop := d.programNext ≤ d.program.length

/-- What holds of a decoder between two calls: a program is selected, and the cursor and the
saved position are inside it. -/
structure Ready (d : Decoder) : Prop where
  loaded : d.hasProgram = true
  inside : d.Inside
  markInside : ∀ mark, d.programMark = some mark → mark ≤ d.program.length

/-- What is promised of one parse. -/
structure ParseHolds (d : Decoder) : Prop where
  inside : d.parseNextOperation.state.Inside
  noFault : ∀ d', d.parseNextOperation ≠ .fail .outOfBounds d'
  advances : ∀ op d', d.parseNextOperation = .ok op d' → op = .programEnd ∨
    d.programNext < d'.programNext

/-- A parse away from the end of the program decodes one instruction. -/
theorem Ready.parse {d : Decoder} (ready : d.Ready) (room : d.programNext < d.program.length) :
    d.parseNextOperation = d.decodeNextInstruction.bind fun _ d => .ok d.operationType d := by
  have loaded : d.hasProgram ≠ false := by simp [ready.loaded]
  rw [parseNextOperation, if_neg loaded, if_neg (Nat.ne_of_lt room)]

theorem Ready.parse_atEnd {d : Decoder} (ready : d.Ready) (atEnd : d.programNext = d.program.length) :
    d.parseNextOperation = .ok .programEnd d := by
  simp [parseNextOperation, ready.loaded, atEnd]

/-- What a parse does to a decoder whose name is terminated. -/
theorem Ready.parse_moves {d : Decoder} (ready : d.Ready) (terminated : d.NameTerminated) :
    d.ParseHolds ∧ d.parseNextOperation.state.program = d.program ∧
      d.parseNextOperation.state.programMark = d.programMark ∧
      d.parseNextOperation.state.hasProgram = true ∧
      (d.Sized → d.parseNextOperation.state.Sized) := by
  rcases Nat.lt_or_eq_of_le ready.inside with room | atEnd
  · have moves := moves_decodeNextInstruction room terminated
    have parse := ready.parse room
    have state : d.parseNextOperation.state = d.decodeNextInstruction.state := by
      rw [parse, Result.state_bind_pure]
    refine ⟨⟨?_, ?_, ?_⟩, ?_, ?_, ?_, ?_⟩
    · rw [state, Inside, moves.program]
      exact moves.inside
    · intro d' same
      rw [parse, Result.bind_pure_eq_fail] at same
      exact moves.noFault d' same
    · intro op d' same
      have next := congrArg (·.state.programNext) same
      simp only [state, Result.state_ok] at next
      exact .inr (next ▸ moves.forward)
    · exact (congrArg program state).trans moves.program
    · exact (congrArg programMark state).trans moves.mark
    · exact (congrArg hasProgram state).trans (moves.loaded.trans ready.loaded)
    · rw [state]
      exact moves.sized
  · have stopped := ready.parse_atEnd atEnd
    rw [stopped]
    refine ⟨⟨?_, ?_, ?_⟩, rfl, rfl, ready.loaded, id⟩
    · rw [stopped]
      exact ready.inside
    · rw [stopped]
      simp
    · intro op d' same
      rw [stopped] at same
      cases same
      exact .inl rfl

/-- A parse keeps its promise exactly when the name that it may find is terminated. -/
theorem Ready.parseHolds_iff {d : Decoder} (ready : d.Ready) : d.ParseHolds ↔ d.NameTerminated := by
  constructor
  · intro holds b here control select
    by_contra runsOn
    have room := (List.getElem?_eq_some_iff.mp here).1
    have fetched : d.fetch = .ok b d.skip := by simp only [fetch, here, skip]
    have decoded : d.decodeNextInstruction = d.skip.decodeRecordSelect (decodeInstruction b).2.2 := by
      simp only [decodeNextInstruction, fetched, Result.bind_ok, control, decodeDataCtrl, if_pos select]
      rfl
    obtain ⟨next, program⟩ := decodeRecordSelect_overrun (decodeInstruction b).2.2
      (show d.skip.programNext ≤ d.skip.program.length from room) runsOn
    have outside := holds.inside
    rw [ready.parse room, Result.state_bind_pure, decoded, Inside, next, program] at outside
    omega
  · exact fun terminated => (ready.parse_moves terminated).1

/-! Sequences of calls. -/

/-- The calls that move the cursor. -/
inductive Call where
  | parseNextOperation
  | saveProgramPosition
  | recallProgramPosition
  deriving DecidableEq, Repr

/-- The decoder that a call leaves behind, also when it failed. -/
def after (d : Decoder) : Call → Decoder
  | .parseNextOperation => d.parseNextOperation.state
  | .saveProgramPosition => d.saveProgramPosition
  | .recallProgramPosition => d.recallProgramPosition

/-- In every state of the run the cursor is inside the program, and every parse of the run
keeps its promise. -/
def RunHolds (d : Decoder) : List Call → Prop
  | [] => d.Inside
  | call :: calls => d.Inside ∧ (call = .parseNextOperation → d.ParseHolds) ∧
      (d.after call).RunHolds calls

/-- Every parse of the run is made where the name of a record select is terminated. -/
def RunTerminated (d : Decoder) : List Call → Prop
  | [] => True
  | call :: calls => (call = .parseNextOperation → d.NameTerminated) ∧
      (d.after call).RunTerminated calls

/-- One call keeps the decoder ready. -/
theorem Ready.after {d : Decoder} (ready : d.Ready) {call : Call}
    (terminated : call = .parseNextOperation → d.NameTerminated) : (d.after call).Ready := by
  cases call with
  | parseNextOperation =>
    obtain ⟨holds, program, mark, loaded, _⟩ := ready.parse_moves (terminated rfl)
    refine ⟨loaded, holds.inside, ?_⟩
    intro position saved
    rw [Decoder.after, program]
    exact ready.markInside position (mark ▸ saved)
  | saveProgramPosition =>
    simp only [Decoder.after, saveProgramPosition, ready.loaded, if_true]
    exact ⟨rfl, ready.inside, fun position saved => by cases saved; exact ready.inside⟩
  | recallProgramPosition =>
    simp only [Decoder.after, recallProgramPosition]
    split
    next mark saved => exact ⟨ready.loaded, ready.markInside mark saved, ready.markInside⟩
    next => exact ready

theorem Ready.runHolds_iff {d : Decoder} (ready : d.Ready) (calls : List Call) :
    d.RunHolds calls ↔ d.RunTerminated calls := by
  induction calls generalizing d with
  | nil => exact ⟨fun _ => trivial, fun _ => ready.inside⟩
  | cons call calls ih =>
    have step : (call = .parseNextOperation → d.ParseHolds) ↔
        (call = .parseNextOperation → d.NameTerminated) :=
      forall_congr' fun _ => ready.parseHolds_iff
    constructor
    · rintro ⟨_, holds, rest⟩
      have terminated := step.mp holds
      exact ⟨terminated, (ih (ready.after terminated)).mp rest⟩
    · rintro ⟨terminated, rest⟩
      exact ⟨ready.inside, step.mpr terminated, (ih (ready.after terminated)).mpr rest⟩

theorem decodeQueuedHeader_next {program : Bytes} {next behind : Nat} {header decoded : ProgramHeader}
    (accepted : decodeQueuedHeader program next header = .ok () (behind, decoded)) :
    behind ≤ program.length := by
  unfold decodeQueuedHeader at accepted
  split at accepted
  · contradiction
  next instruction here =>
    simp only at accepted
    -- every branch that accepts has parsed the element size last
    repeat' split at accepted
    all_goals first
      | contradiction
      | (cases accepted
         exact (parseUInt32ByVariant_next (by assumption)).2)

/-- A header that is accepted ends inside the program. -/
theorem decodeHeader_next {program : Bytes} {next behind : Nat} {header decoded : ProgramHeader}
    (accepted : decodeHeader program next header = .ok () (behind, decoded)) :
    behind ≤ program.length := by
  unfold decodeHeader at accepted
  split at accepted
  · simp only at accepted
    split at accepted
    · contradiction
    next parsed =>
      split at accepted
      · exact decodeQueuedHeader_next accepted
      · cases accepted
        exact (parseUInt32ByVariant_next parsed).2
  · contradiction

/-- A decoder is ready when it has selected a program whose header is accepted. -/
theorem ready_of_select {program : Bytes} {d d₀ : Decoder} {header header₀ : ProgramHeader}
    (selected : (d.selectProgram program).parseProgramHeader header = .ok () (d₀, header₀)) :
    d₀.Ready ∧ d₀.program = program ∧ d₀.programMark = none := by
  unfold parseProgramHeader at selected
  cases accepted : decodeHeader (d.selectProgram program).program
      (d.selectProgram program).programNext header with
  | fail failure state =>
    rw [accepted] at selected
    contradiction
  | ok value state =>
    rw [accepted] at selected
    cases selected
    refine ⟨⟨rfl, decodeHeader_next accepted, ?_⟩, rfl, rfl⟩
    intro mark saved
    contradiction

/-- After a header that is accepted, any sequence of calls keeps the cursor inside the program,
reads inside it only, and lets every parse advance up to the end of the program, exactly when
every record select that it parses has a name that ends inside the program. -/
theorem cursor_inside_iff {program : Bytes} {d d₀ : Decoder} {header header₀ : ProgramHeader}
    (selected : (d.selectProgram program).parseProgramHeader header = .ok () (d₀, header₀))
    (calls : List Call) : d₀.RunHolds calls ↔ d₀.RunTerminated calls :=
  (ready_of_select selected).1.runHolds_iff calls

/-- A record select with a name that ends inside its program. -/
theorem cursor_inside_iff_terminated :
    let d₀ := { create.selectProgram [0, 1, 3, 97, 0] with programNext := 2 }
    d₀.RunHolds [.saveProgramPosition, .parseNextOperation, .parseNextOperation] := by
  intro d₀
  have selected : (create.selectProgram [0, 1, 3, 97, 0]).parseProgramHeader {} =
      .ok () (d₀, { dataSize := 1 }) := rfl
  refine (cursor_inside_iff selected _).mpr ⟨nofun, fun _ _ _ _ _ => .inr (by decide), ?_, trivial⟩
  intro _ b here
  contradiction

/-- The name of the record select in this program runs up to its end. -/
theorem cursor_not_inside_unterminated :
    ¬∀ (program : Bytes) (d d₀ : Decoder) (header header₀ : ProgramHeader) (calls : List Call),
      (d.selectProgram program).parseProgramHeader header = .ok () (d₀, header₀) →
      d₀.RunHolds calls := by
  intro claim
  have holds := claim [0, 1, 3, 97] create _ {} _ [.parseNextOperation] rfl
  have overrun : 5 ≤ 4 := holds.2.2
  omega

end Decoder

end Apx
