import Apx.DecoderCursor

/-! The format of programs: headers are read back as they were written, and what the decoder accepts as an
instruction. -/

namespace Apx

open LittleEndian Vm

/-- The bytes that the length of a queue takes in front of its elements -/
def queuePrefix (queueLength : Nat) : Nat :=
  if queueLength ≤ 255 then 1 else if queueLength ≤ 65535 then 2 else 4

/-- The bytes of a queue of this many elements, or of the one element without a queue -/
def queuedSize (elementSize queueLength : Nat) : Nat :=
  if queueLength = 0 then elementSize else queuePrefix queueLength + elementSize * queueLength

theorem variantToSize_sizeVariant (size : Nat) : variantToSize (sizeVariant size) = queuePrefix size := by
  unfold sizeVariant queuePrefix
  by_cases byte : size ≤ 255
  · rw [if_pos (show size ≤ uint8Max from byte), if_pos byte]
    rfl
  · rw [if_neg (show ¬size ≤ uint8Max from byte), if_neg byte]
    by_cases word : size ≤ 65535
    · rw [if_pos (show size ≤ uint16Max from word), if_pos word]
      rfl
    · rw [if_neg (show ¬size ≤ uint16Max from word), if_neg word]
      rfl

theorem headerDataSize_eq (elementSize queueLength : Nat) :
    headerDataSize elementSize queueLength = queuedSize elementSize queueLength := by
  unfold headerDataSize queuedSize
  by_cases queued : queueLength = 0
  · rw [if_neg (by omega), if_pos queued]
  · rw [if_pos (by omega), if_neg queued, variantToSize_sizeVariant]

theorem headerOf_eq (programType : ProgramType) (elementSize queueLength : Nat) (isDynamic : Bool) :
    headerOf programType elementSize queueLength isDynamic =
      { programType := programType, dataSize := queuedSize elementSize queueLength,
        elementSize := if queueLength = 0 then 0 else elementSize, queueLength := queueLength,
        hasDynamicData := isDynamic } := by
  rw [headerOf, headerDataSize_eq]
  congr 1
  by_cases queued : queueLength = 0
  · rw [if_neg (by omega), if_pos queued]
  · rw [if_pos (by omega), if_neg queued]

/-- The encoder refuses a queue that is too large, and nothing else. -/
theorem encodeHeader_error {programType : ProgramType} {elementSize queueLength : Nat} {isDynamic : Bool}
    {failure : Failure}
    (refused : encodeHeader programType elementSize queueLength isDynamic = .error failure) :
    2 ^ 32 - 1 < queuePrefix queueLength + elementSize * queueLength := by
  unfold encodeHeader at refused
  simp only at refused
  split at refused
  · next large =>
    obtain ⟨queued, large⟩ := large
    rw [headerDataSize_eq, queuedSize, if_neg (Nat.ne_of_gt queued)] at large
    exact large
  · split at refused
    · contradiction
    · contradiction

/-- Whatever stands behind a header, it is read back as it was written, up to its end. A header is not
written only where the size that it would state needs more than 32 bits. -/
theorem header_round_trip (programType : ProgramType) (isDynamic : Bool) {elementSize queueLength : Nat}
    (positive : 1 ≤ elementSize) (fits : elementSize ≤ 2 ^ 32 - 1) :
    (∀ bytes, encodeHeader programType elementSize queueLength isDynamic = .ok bytes →
      ∀ (t : Bytes) (next : Nat) (header : ProgramHeader), ∃ behind,
        decodeHeader (bytes ++ t) next header = .ok () (behind,
          { programType := programType, dataSize := queuedSize elementSize queueLength,
            elementSize := if queueLength = 0 then 0 else elementSize, queueLength := queueLength,
            hasDynamicData := isDynamic }) ∧
        behind = bytes.length ∧ (bytes ++ t).drop behind = t) ∧
    (∀ failure, encodeHeader programType elementSize queueLength isDynamic = .error failure →
      2 ^ 32 - 1 < queuePrefix queueLength + elementSize * queueLength) := by
  constructor
  · intro bytes encoded t next header
    have bound : elementSize < 2 ^ 32 := by omega
    have decoded := (decodeHeader_encodeHeader t next header bound encoded).1 (.inr (by omega))
    rw [headerOf_eq] at decoded
    exact ⟨bytes.length, decoded, rfl, List.drop_left⟩
  · intro failure refused
    exact encodeHeader_error refused

/-- A queue of 70000 elements of 300 bytes, with the variants of 16 and of 32 bits in one nibble -/
theorem header_round_trip_queue : ∃ bytes, encodeHeader .pack 300 70000 true = .ok bytes ∧
    ∃ behind, decodeHeader (bytes ++ [7, 8]) 0 {} = .ok () (behind,
      { programType := .pack, dataSize := 21000004, elementSize := 300, queueLength := 70000,
        hasDynamicData := true }) ∧
    behind = 8 ∧ (bytes ++ [7, 8]).drop behind = [7, 8] := by
  have encoded : encodeHeader .pack 300 70000 true = .ok _ := rfl
  exact ⟨_, encoded, (header_round_trip .pack true (by decide) (by decide)).1 _ encoded [7, 8] 0 {}⟩

/-! Instructions as vm_defs.h defines them -/

/-- A LIMIT_CHECK: the bytes of each of its limits, and the operation with these limits -/
structure LimitFormat where
  size : Nat
  operation : Bytes → Bytes → Operation

/-- A number without a sign -/
def unsignedLimit (w : Nat) (bytes : Bytes) : BitVec w := BitVec.ofNat w (unpackLE bytes)

/-- A number with a sign that has fewer than 32 bits -/
def signedLimit (w : Nat) (bytes : Bytes) : BitVec 32 := (BitVec.ofNat w (unpackLE bytes)).signExtend 32

/-- The eight variants of LIMIT_CHECK -/
def limitFormats : List (Nat × LimitFormat) :=
  [(variantLimitCheckU8, ⟨1, fun l u => .rangeCheckUInt32 ⟨unsignedLimit 32 l, unsignedLimit 32 u⟩⟩),
   (variantLimitCheckU16, ⟨2, fun l u => .rangeCheckUInt32 ⟨unsignedLimit 32 l, unsignedLimit 32 u⟩⟩),
   (variantLimitCheckU32, ⟨4, fun l u => .rangeCheckUInt32 ⟨unsignedLimit 32 l, unsignedLimit 32 u⟩⟩),
   (variantLimitCheckU64, ⟨8, fun l u => .rangeCheckUInt64 ⟨unsignedLimit 64 l, unsignedLimit 64 u⟩⟩),
   (variantLimitCheckS8, ⟨1, fun l u => .rangeCheckInt32 ⟨signedLimit 8 l, signedLimit 8 u⟩⟩),
   (variantLimitCheckS16, ⟨2, fun l u => .rangeCheckInt32 ⟨signedLimit 16 l, signedLimit 16 u⟩⟩),
   (variantLimitCheckS32, ⟨4, fun l u => .rangeCheckInt32 ⟨unsignedLimit 32 l, unsignedLimit 32 u⟩⟩),
   (variantLimitCheckS64, ⟨8, fun l u => .rangeCheckInt64 ⟨unsignedLimit 64 l, unsignedLimit 64 u⟩⟩)]

/-- The variants of DATA_SIZE for an array, with the bytes of the number -/
def arraySizes : List (Nat × Nat) :=
  [(variantArraySizeU8, 1), (variantArraySizeU16, 2), (variantArraySizeU32, 4)]

/-- PACK or UNPACK with these bytes behind the first one -/
def dataInstruction (programType : ProgramType) (variant : Nat) (isArray : Bool) : Bytes → Option Operation
  | [] =>
    if variantToTypeCode variant ≠ .none ∧ isArray = false then
      some (.data programType { typeCode := variantToTypeCode variant })
    else none
  | s :: number =>
    if variantToTypeCode variant ≠ .none ∧ isArray = true ∧ (decodeInstruction s).1 = opcodeDataSize ∧
        arraySizes.lookup (decodeInstruction s).2.1 = some number.length then
      some (.data programType
        { typeCode := variantToTypeCode variant, arrayLength := unpackLE number,
          isDynamicArray := (decodeInstruction s).2.2 })
    else none

/-- RECORD_SELECT with these bytes behind the first one: a name and the zero at its end -/
def recordSelectInstruction (isLastField : Bool) (text : Bytes) : Option Operation :=
  let name := text.takeWhile (· ≠ 0)
  if name ≠ [] ∧ text = name ++ [0] then some (.recordSelect name isLastField) else none

/-- LIMIT_CHECK with these bytes behind the first one -/
def limitCheckInstruction (variant : Nat) (limits : Bytes) : Option Operation :=
  match limitFormats.lookup variant with
  | none => none
  | some format =>
    if limits.length = format.size + format.size then
      some (format.operation (limits.take format.size) (limits.drop format.size))
    else none

/-- The operation of a whole instruction, `none` for bytes that are none -/
def instruction : Bytes → Option Operation
  | [] => none
  | b :: rest =>
    let (opcode, variant, flag) := decodeInstruction b
    if opcode = opcodeUnpack then dataInstruction .unpack variant flag rest
    else if opcode = opcodePack then dataInstruction .pack variant flag rest
    else if opcode = opcodeDataCtrl then
      if variant = variantRecordSelect then recordSelectInstruction flag rest
      else limitCheckInstruction variant rest
    else if opcode = opcodeFlowCtrl ∧ variant = variantArrayNext ∧ rest = [] then some .arrayNext
    else none

namespace Decoder

/-- What is promised of a parse in front of the suffix of a program: it succeeds at the end of the program,
and else only where the suffix starts with an instruction. Then it reports the operation that these bytes
alone determine, and the cursor stands behind them. -/
def ParsesInstructions (d : Decoder) (suffix : Bytes) : Prop :=
  ∀ type d', d.parseNextOperation = .ok type d' →
    (suffix = [] ∧ type = .programEnd) ∨
    ∃ bytes behind op, suffix = bytes ++ behind ∧ instruction bytes = some op ∧ type = op.type ∧
      d'.operation type = some op ∧ d'.programNext = d.programNext + bytes.length

/-- Suffixes that the decoder takes for an instruction: DATA_CTRL with the variant 7, a name without its
zero, and an array flag without DATA_SIZE behind it -/
def Gap : Bytes → Prop
  | [] => False
  | b :: rest =>
    let (opcode, variant, flag) := decodeInstruction b
    opcode = opcodeDataCtrl ∧ variant = 7 ∨
    opcode = opcodeDataCtrl ∧ variant = variantRecordSelect ∧ rest ≠ [] ∧ 0 ∉ rest ∨
    (opcode = opcodeUnpack ∨ opcode = opcodePack) ∧ variantToTypeCode variant ≠ .none ∧ flag = true ∧
      ∃ s behind, rest = s :: behind ∧ (decodeInstruction s).1 ≠ opcodeDataSize

/-- The number that a parse function has read is the front of the text. -/
theorem parsed_front {program suffix : Bytes} {next size : Nat} (here : program.drop next = suffix)
    (inside : next + size ≤ program.length) : ∃ number behind, suffix = number ++ behind ∧
      number.length = size ∧ slice program next size = number := by
  refine ⟨slice program next size, suffix.drop size, ?_, slice_length inside, rfl⟩
  rw [slice, here, List.take_append_drop]

theorem arraySizes_eq {variant : Nat} (small : ¬variant > variantArraySizeLast) :
    arraySizes.lookup variant = some (variantToSize variant) ∧ variantToSize variant ≤ 4 := by
  have cases_ : variant = 0 ∨ variant = 1 ∨ variant = 2 := by
    have bound : ¬variant > 2 := small
    omega
  rcases cases_ with rfl | rfl | rfl <;> decide

theorem toNat_unpackLE {number : Bytes} (short : number.length ≤ 4) :
    (BitVec.ofNat 32 (unpackLE number)).toNat = unpackLE number := by
  have bound : 256 ^ number.length ≤ 256 ^ 4 := Nat.pow_le_pow_right (by decide) short
  have fits : unpackLE number < 2 ^ 32 := Nat.lt_of_lt_of_le (unpackLE_lt number) bound
  rw [BitVec.toNat_ofNat, Nat.mod_eq_of_lt fits]

theorem decodeArraySize_end {d : Decoder} (before : d.Before []) :
    d.decodeArraySize = .fail (.code .unexpectedEnd) d := by
  have atEnd := before.programEnd.1
  rw [decodeArraySize, if_neg (by omega)]

theorem decodeArraySize_ok {d d' : Decoder} {s : Byte} {rest : Bytes} (before : d.Before (s :: rest))
    (isSize : (decodeInstruction s).1 = opcodeDataSize) (done : d.decodeArraySize = .ok () d') :
    ∃ number behind, rest = number ++ behind ∧
      arraySizes.lookup (decodeInstruction s).2.1 = some number.length ∧
      d' = { d with
        packUnpackInfo := { d.packUnpackInfo with
          arrayLength := unpackLE number, isDynamicArray := (decodeInstruction s).2.2 },
        programNext := d.programNext + 1 + number.length } := by
  have room : d.programNext < d.program.length := lt_length_of_drop before.rest
  simp only [decodeArraySize, if_pos room, before.fetch, Result.bind_ok, if_pos isSize] at done
  split at done
  · contradiction
  next small =>
    split at done
    · contradiction
    next arrayLength next parsed =>
      unfold parseUInt32ByVariant at parsed
      simp only at parsed
      split at parsed
      · contradiction
      next inside =>
        rw [not_or, Nat.not_lt] at inside
        obtain ⟨number, behind, same, length, text⟩ := parsed_front before.skip.rest inside.2
        obtain ⟨width, short⟩ := arraySizes_eq small
        cases parsed
        cases done
        refine ⟨number, behind, same, by rw [width, length], ?_⟩
        rw [text, toNat_unpackLE (length ▸ short), length]
        rfl

/-- Another instruction is taken for an array size. -/
theorem decodeArraySize_other {d : Decoder} {s : Byte} {rest : Bytes} (before : d.Before (s :: rest))
    (other : (decodeInstruction s).1 ≠ opcodeDataSize) : ∃ d', d.decodeArraySize = .ok () d' := by
  have room : d.programNext < d.program.length := lt_length_of_drop before.rest
  simp only [decodeArraySize, if_pos room, before.fetch, Result.bind_ok, if_neg other]
  exact ⟨_, rfl⟩

/-- The decoder took the front of these bytes, which `format` makes an operation of. -/
def Takes (format : Bytes → Option Operation) (d : Decoder) (rest : Bytes) (d' : Decoder) : Prop :=
  ∃ taken behind op, rest = taken ++ behind ∧ format taken = some op ∧ d'.operationType = op.type ∧
    d'.operation op.type = some op ∧ d'.programNext = d.programNext + taken.length

theorem takes_data {d d' : Decoder} {rest : Bytes} {programType : ProgramType} {variant : Nat} {flag : Bool}
    (before : d.Before rest)
    (sized : variantToTypeCode variant ≠ .none → flag = true → ∀ s behind, rest = s :: behind →
      (decodeInstruction s).1 = opcodeDataSize)
    (done : decodePackUnpack d (dataOperation programType) variant flag = .ok () d') :
    Takes (dataInstruction programType variant flag) d rest d' := by
  unfold decodePackUnpack at done
  simp only at done
  split at done
  · contradiction
  split at done
  · contradiction
  next known =>
    cases flag with
    | false =>
      cases done
      refine ⟨[], rest, .data programType { typeCode := variantToTypeCode variant }, rfl, ?_, ?_, ?_, rfl⟩
      · rw [dataInstruction, if_pos ⟨known, rfl⟩]
      · cases programType <;> rfl
      · cases programType <;> rfl
    | true =>
      rw [if_pos rfl] at done
      cases rest with
      | nil =>
        have typed : Before (resetPackUnpackInfo { d with operationType := dataOperation programType }
            (variantToTypeCode variant)) [] := ⟨before.loaded, before.inside, before.rest⟩
        rw [decodeArraySize_end typed] at done
        contradiction
      | cons s rest =>
        have isSize := sized known rfl s rest rfl
        have typed : Before (resetPackUnpackInfo { d with operationType := dataOperation programType }
            (variantToTypeCode variant)) (s :: rest) := ⟨before.loaded, before.inside, before.rest⟩
        obtain ⟨number, behind, same, width, rfl⟩ := decodeArraySize_ok typed isSize done
        refine ⟨s :: number, behind, .data programType
          { typeCode := variantToTypeCode variant, arrayLength := unpackLE number,
            isDynamicArray := (decodeInstruction s).2.2 }, by rw [same, List.cons_append], ?_, ?_, ?_, ?_⟩
        · rw [dataInstruction, if_pos ⟨known, rfl, isSize, width⟩]
        · cases programType <;> rfl
        · cases programType <;> rfl
        · rw [List.length_cons, Nat.add_comm number.length, ← Nat.add_assoc]
          rfl

theorem takeWhile_zero {text : Bytes} (zero : 0 ∈ text) :
    ∃ behind, text = text.takeWhile (· ≠ 0) ++ 0 :: behind := by
  induction text with
  | nil => contradiction
  | cons b text ih =>
    by_cases here : b = 0
    · refine ⟨text, ?_⟩
      rw [List.takeWhile_cons, if_neg (by simpa using here), here, List.nil_append]
    · obtain ⟨behind, same⟩ := ih ((List.mem_cons.mp zero).resolve_left (Ne.symm here))
      refine ⟨behind, ?_⟩
      rw [List.takeWhile_cons, if_pos (by simpa using here), List.cons_append, ← same]

theorem takes_recordSelect {d d' : Decoder} {rest : Bytes} {isLastField : Bool} (before : d.Before rest)
    (ends : rest = [] ∨ 0 ∈ rest) (done : d.decodeRecordSelect isLastField = .ok () d') :
    Takes (recordSelectInstruction isLastField) d rest d' := by
  unfold decodeRecordSelect at done
  simp only at done
  split at done
  next found =>
    cases done
    let name := rest.takeWhile (· ≠ 0)
    have stop : whileNotZero d.program d.programNext = d.programNext + name.length := by
      rw [whileNotZero, before.rest]
    have nonempty : name ≠ [] := by
      intro empty
      rw [stop, empty, List.length_nil] at found
      omega
    have some : rest ≠ [] := by
      intro empty
      rw [show name = [] by rw [show name = rest.takeWhile (· ≠ 0) from rfl, empty]; rfl] at nonempty
      contradiction
    obtain ⟨behind, same⟩ := takeWhile_zero (ends.resolve_left some)
    have text : slice d.program d.programNext name.length = name :=
      slice_of_drop (before.rest.trans same) rfl
    have noZero : (name ++ [0]).takeWhile (· ≠ 0) = name := by
      have last : ([0] : Bytes).takeWhile (· ≠ 0) = [] := by decide
      rw [List.takeWhile_append_of_pos fun b mem => List.all_eq_true.mp List.all_takeWhile b mem, last,
        List.append_nil]
    refine ⟨name ++ [0], behind, .recordSelect name isLastField, ?_, ?_, rfl, ?_, ?_⟩
    · rw [List.append_assoc]
      exact same
    · simp only [recordSelectInstruction, noZero]
      rw [if_pos ⟨nonempty, trivial⟩]
    · simp only [stop, Nat.add_sub_cancel_left, text]
      rfl
    · simp only [stop, List.length_append, List.length_singleton, Nat.add_assoc]
  · contradiction

theorem takes_rangeCheck {w : Nat} (kind : RangeCheckKind w) {limitVariant variant size : Nat}
    {value : Bytes → BitVec w}
    (defined : limitFormats.lookup limitVariant =
      some ⟨size, fun lower upper => kind.operation ⟨value lower, value upper⟩⟩)
    (reads : ∀ {program next number behind}, kind.parse program next variant = some (number, behind) →
      next + size ≤ program.length ∧ number = value (slice program next size) ∧ behind = next + size)
    {d d' : Decoder} {old : RangeCheckInfo w} {rest : Bytes} (here : d.program.drop d.programNext = rest)
    (done : decodeRangeCheck kind.parse kind.put old { d with operationType := kind.operationType } variant =
      .ok () d') :
    Takes (limitCheckInstruction limitVariant) d rest d' := by
  unfold decodeRangeCheck at done
  split at done
  · simp only at done
    split at done
    · contradiction
    next lower middle first =>
      obtain ⟨inside, rfl, rfl⟩ := reads first
      obtain ⟨front, behind, rfl, length, text⟩ := parsed_front here inside
      generalize put : kind.put { old with lower := value (slice d.program d.programNext size) }
        { { d with operationType := kind.operationType } with programNext := d.programNext + size } = half at done
      have frame := kind.frame { old with lower := value (slice d.program d.programNext size) }
        { { d with operationType := kind.operationType } with programNext := d.programNext + size }
      rw [put] at frame
      obtain ⟨-, program, -, position, type, -⟩ := frame
      simp only at program position type
      split at done
      · contradiction
      next upper last second =>
        obtain ⟨inside', rfl, rfl⟩ := reads second
        have here' : half.program.drop half.programNext = behind := by
          rw [program, position, ← length]
          exact drop_of_drop here
        obtain ⟨back, behind', rfl, length', text'⟩ := parsed_front here' inside'
        cases done
        obtain ⟨-, -, -, position', type', -⟩ := kind.frame
          { lower := value (slice d.program d.programNext size),
            upper := value (slice half.program half.programNext size) }
          { half with programNext := half.programNext + size }
        refine ⟨front ++ back, behind', kind.operation ⟨value front, value back⟩, ?_, ?_, ?_, ?_, ?_⟩
        · rw [List.append_assoc]
        · have whole : (front ++ back).length = size + size := by rw [List.length_append, length, length']
          simp only [limitCheckInstruction, defined]
          rw [if_pos whole, ← length, List.take_left, List.drop_left]
        · rw [type', type, kind.type_operation]
        · rw [kind.type_operation, ← text, ← text']
          exact kind.operation_put _ _
        · rw [position', position, List.length_append, length, length', Nat.add_assoc]
  · contradiction

theorem parseUInt32ByVariant_ok {variant size : Nat} (width : variantToSize variant = size)
    {program : Bytes} {next behind : Nat} {number : BitVec 32}
    (parsed : parseUInt32ByVariant program next variant = some (number, behind)) :
    next + size ≤ program.length ∧ number = unsignedLimit 32 (slice program next size) ∧
      behind = next + size := by
  unfold parseUInt32ByVariant at parsed
  simp only [width] at parsed
  split at parsed
  · contradiction
  · cases parsed
    exact ⟨by omega, rfl, rfl⟩

theorem parseUInt64ByVariant_ok {variant size : Nat} (width : variantToSize variant = size)
    {program : Bytes} {next behind : Nat} {number : BitVec 64}
    (parsed : parseUInt64ByVariant program next variant = some (number, behind)) :
    next + size ≤ program.length ∧ number = unsignedLimit 64 (slice program next size) ∧
      behind = next + size := by
  unfold parseUInt64ByVariant at parsed
  simp only [width] at parsed
  split at parsed
  · contradiction
  · cases parsed
    exact ⟨by omega, rfl, rfl⟩

theorem parseInt64ByVariant_ok {variant size : Nat} (width : variantToSize variant = size)
    {program : Bytes} {next behind : Nat} {number : BitVec 64}
    (parsed : parseInt64ByVariant program next variant = some (number, behind)) :
    next + size ≤ program.length ∧ number = unsignedLimit 64 (slice program next size) ∧
      behind = next + size := by
  unfold parseInt64ByVariant at parsed
  simp only [width] at parsed
  split at parsed
  · contradiction
  · cases parsed
    exact ⟨by omega, rfl, rfl⟩

/-- The three widths of a signed limit of up to 32 bits -/
theorem parseInt32ByVariant_ok {variant size : Nat} {value : Bytes → BitVec 32}
    (width : variantToSize variant = size)
    (known : variant = variantInt8 ∧ value = signedLimit 8 ∨ variant = variantInt16 ∧ value = signedLimit 16 ∨
      variant = variantInt32 ∧ value = unsignedLimit 32)
    {program : Bytes} {next behind : Nat} {number : BitVec 32}
    (parsed : parseInt32ByVariant program next variant = some (number, behind)) :
    next + size ≤ program.length ∧ number = value (slice program next size) ∧ behind = next + size := by
  unfold parseInt32ByVariant at parsed
  simp only [width] at parsed
  split at parsed
  · contradiction
  · rcases known with ⟨rfl, rfl⟩ | ⟨rfl, rfl⟩ | ⟨rfl, rfl⟩
    · cases parsed
      exact ⟨by omega, rfl, rfl⟩
    · cases parsed
      exact ⟨by omega, rfl, rfl⟩
    · cases parsed
      exact ⟨by omega, rfl, rfl⟩

theorem takes_limitCheck {d d' : Decoder} {rest : Bytes} {variant : Nat} {flag : Bool}
    (before : d.Before rest) (noSelect : variant ≠ variantRecordSelect) (noHole : variant ≠ 7)
    (done : decodeDataCtrl d variant flag = .ok () d') : Takes (limitCheckInstruction variant) d rest d' := by
  unfold decodeDataCtrl at done
  rw [if_neg noSelect] at done
  split at done
  next small =>
    have bound : variant < 10 := Nat.lt_succ_of_le small
    have positive : variant ≠ 0 := noSelect
    have known : variant = variantLimitCheckU8 ∨ variant = variantLimitCheckU16 ∨
        variant = variantLimitCheckU32 ∨ variant = variantLimitCheckU64 ∨ variant = variantLimitCheckS8 ∨
        variant = variantLimitCheckS16 ∨ variant = variantLimitCheckS32 ∨ variant = variantLimitCheckS64 := by
      simp only [variantLimitCheckU8, variantLimitCheckU16, variantLimitCheckU32, variantLimitCheckU64,
        variantLimitCheckS8, variantLimitCheckS16, variantLimitCheckS32, variantLimitCheckS64]
      omega
    rcases known with rfl | rfl | rfl | rfl | rfl | rfl | rfl | rfl
    · exact takes_rangeCheck checkUInt32 rfl (parseUInt32ByVariant_ok rfl) before.rest done
    · exact takes_rangeCheck checkUInt32 rfl (parseUInt32ByVariant_ok rfl) before.rest done
    · exact takes_rangeCheck checkUInt32 rfl (parseUInt32ByVariant_ok rfl) before.rest done
    · exact takes_rangeCheck checkUInt64 rfl (parseUInt64ByVariant_ok rfl) before.rest done
    · exact takes_rangeCheck checkInt32 rfl (parseInt32ByVariant_ok rfl (.inl ⟨rfl, rfl⟩)) before.rest done
    · exact takes_rangeCheck checkInt32 rfl (parseInt32ByVariant_ok rfl (.inr (.inl ⟨rfl, rfl⟩))) before.rest
        done
    · exact takes_rangeCheck checkInt32 rfl (parseInt32ByVariant_ok rfl (.inr (.inr ⟨rfl, rfl⟩))) before.rest
        done
    · exact takes_rangeCheck checkInt64 rfl (parseInt64ByVariant_ok rfl) before.rest done
  · contradiction

/-- The first switch of decode_next_instruction_internal -/
theorem Before.decode {d : Decoder} {b : Byte} {rest : Bytes} (before : d.Before (b :: rest))
    {opcode variant : Nat} {flag : Bool} (head : decodeInstruction b = (opcode, variant, flag)) :
    d.decodeNextInstruction =
      if opcode = opcodeUnpack then decodePackUnpack d.skip .unpack variant flag
      else if opcode = opcodePack then decodePackUnpack d.skip .pack variant flag
      else if opcode = opcodeDataCtrl then Decoder.decodeDataCtrl d.skip variant flag
      else if opcode = opcodeFlowCtrl then
        if variant = variantArrayNext then .ok () { d.skip with operationType := .arrayNext }
        else .fail (.code .invalidInstruction) d.skip
      else .fail (.code .invalidInstruction) d.skip := by
  simp only [decodeNextInstruction, before.fetch, Result.bind_ok, head]

/-- Where there is no gap, what the decoder takes is an instruction. -/
theorem Before.takes {d d' : Decoder} {b : Byte} {rest : Bytes} (before : d.Before (b :: rest))
    (noGap : ¬Gap (b :: rest)) (done : d.decodeNextInstruction = .ok () d') :
    Takes (fun taken => instruction (b :: taken)) d.skip rest d' := by
  obtain ⟨opcode, variant, flag, head⟩ : ∃ opcode variant flag, decodeInstruction b = (opcode, variant, flag) :=
    ⟨_, _, _, rfl⟩
  rw [before.decode head] at done
  simp only [Gap, head, not_or] at noGap
  obtain ⟨noHole, ends, sized⟩ := noGap
  simp only [instruction, head]
  by_cases unpack : opcode = opcodeUnpack
  · simp only [if_pos unpack] at done ⊢
    refine takes_data before.skip (fun known array s behind same => ?_) done
    by_contra other
    exact sized ⟨.inl unpack, known, array, s, behind, same, other⟩
  · by_cases pack : opcode = opcodePack
    · simp only [if_neg unpack, if_pos pack] at done ⊢
      refine takes_data before.skip (fun known array s behind same => ?_) done
      by_contra other
      exact sized ⟨.inr pack, known, array, s, behind, same, other⟩
    · by_cases control : opcode = opcodeDataCtrl
      · simp only [if_neg unpack, if_neg pack, if_pos control] at done ⊢
        by_cases select : variant = variantRecordSelect
        · simp only [if_pos select]
          rw [Decoder.decodeDataCtrl, if_pos select] at done
          refine takes_recordSelect before.skip ?_ done
          by_contra open_
          rw [not_or] at open_
          exact ends ⟨control, select, open_.1, open_.2⟩
        · simp only [if_neg select]
          exact takes_limitCheck before.skip select (fun hole => noHole ⟨control, hole⟩) done
      · simp only [if_neg unpack, if_neg pack, if_neg control] at done ⊢
        split at done
        · next flow =>
          split at done
          · next array =>
            cases done
            exact ⟨[], rest, .arrayNext, rfl, if_pos ⟨flow, array, rfl⟩, rfl, rfl, rfl⟩
          · contradiction
        · contradiction

/-- In a gap the decoder succeeds. -/
theorem Before.parse_gap {d : Decoder} {suffix : Bytes} (before : d.Before suffix) (gap : Gap suffix) :
    ∃ type d', d.parseNextOperation = .ok type d' := by
  cases suffix with
  | nil => exact gap.elim
  | cons b rest =>
    obtain ⟨opcode, variant, flag, head⟩ : ∃ opcode variant flag,
        decodeInstruction b = (opcode, variant, flag) := ⟨_, _, _, rfl⟩
    simp only [Gap, head] at gap
    suffices decoded : ∃ d', d.decodeNextInstruction = .ok () d' by
      obtain ⟨d', done⟩ := decoded
      exact ⟨_, d', by rw [before.parse, done, Result.bind_ok]⟩
    rw [before.decode head]
    rcases gap with ⟨rfl, rfl⟩ | ⟨rfl, rfl, some, noZero⟩ | ⟨opcode, known, rfl, s, behind, rfl, other⟩
    · exact ⟨d.skip, rfl⟩
    · have here := before.skip.rest
      have stop := whileNotZero_eq before.skip.inside (here ▸ noZero)
      have room : d.skip.programNext < d.skip.program.length := by
        by_contra full
        exact some (here ▸ List.drop_eq_nil_iff.mpr (by omega))
      have found : whileNotZero d.skip.program d.skip.programNext > d.skip.programNext ∧
          d.skip.programNext ≤ d.skip.program.length := ⟨stop ▸ room, before.skip.inside⟩
      exact ⟨_, if_pos found⟩
    · have data (operationType : OperationType) :
          ∃ d', decodePackUnpack d.skip operationType variant true = .ok () d' := by
        have small : ¬variant > variantLast := by
          have bound : (decodeInstruction b).2.1 ≤ 15 := Nat.and_le_right
          rw [head] at bound
          exact Nat.not_lt.mpr bound
        have typed : Before (resetPackUnpackInfo { d.skip with operationType := operationType }
            (variantToTypeCode variant)) (s :: behind) :=
          ⟨before.loaded, before.skip.inside, before.skip.rest⟩
        obtain ⟨d', done⟩ := decodeArraySize_other typed other
        refine ⟨d', ?_⟩
        rw [decodePackUnpack, if_neg small]
        simp only [if_neg known, if_true]
        exact done
      rcases opcode with rfl | rfl
      · exact data .unpack
      · exact data .pack

/-- What the decoder accepts in a gap is no instruction. -/
theorem gap_not_instruction {bytes behind : Bytes} (gap : Gap (bytes ++ behind)) : instruction bytes = none := by
  cases bytes with
  | nil => rfl
  | cons b taken =>
    obtain ⟨opcode, variant, flag, head⟩ : ∃ opcode variant flag,
        decodeInstruction b = (opcode, variant, flag) := ⟨_, _, _, rfl⟩
    simp only [List.cons_append, Gap, head] at gap
    simp only [instruction, head]
    rcases gap with ⟨rfl, rfl⟩ | ⟨rfl, rfl, -, noZero⟩ | ⟨opcode, -, rfl, s, rest, same, other⟩
    · rfl
    · have open_ : ¬(taken.takeWhile (· ≠ 0) ≠ [] ∧ taken = taken.takeWhile (· ≠ 0) ++ [0]) := by
        rintro ⟨-, ends⟩
        apply noZero
        rw [ends]
        simp
      exact if_neg open_
    · have none_ (programType : ProgramType) : dataInstruction programType variant true taken = none := by
        cases taken with
        | nil => exact if_neg fun all => Bool.true_eq_false_eq_False all.2
        | cons s' number =>
          rw [List.cons_append, List.cons.injEq] at same
          rw [same.1]
          exact if_neg fun all => other all.2.2.1
      rcases opcode with rfl | rfl
      · exact none_ .unpack
      · exact none_ .pack

/-- Whatever it decoded before, the decoder parses instructions and nothing else exactly in front of
suffixes without a gap. -/
theorem parsesInstructions_iff {d : Decoder} {suffix : Bytes} (before : d.Before suffix) :
    d.ParsesInstructions suffix ↔ ¬Gap suffix := by
  constructor
  · intro parses gap
    obtain ⟨type, d', done⟩ := before.parse_gap gap
    rcases parses type d' done with ⟨rfl, -⟩ | ⟨bytes, behind, op, rfl, defined, -⟩
    · exact gap
    · rw [gap_not_instruction gap] at defined
      contradiction
  · intro noGap type d' done
    cases suffix with
    | nil =>
      rw [before.programEnd.2] at done
      cases done
      exact .inl ⟨rfl, rfl⟩
    | cons b rest =>
      rw [before.parse] at done
      obtain ⟨_, behind, decoded, same⟩ := Result.bind_eq_ok.mp done
      cases same
      obtain ⟨taken, rest', op, rfl, defined, typed, holds, next⟩ := before.takes noGap decoded
      refine .inr ⟨b :: taken, rest', op, List.cons_append.symm, defined, typed, by rw [typed]; exact holds, ?_⟩
      rw [next, List.length_cons, Nat.add_comm taken.length, ← Nat.add_assoc]
      rfl

/-- LIMIT_CHECK_U8 with the limits 0 and 7, after an ARRAY_NEXT -/
theorem parsesInstructions_iff_limitCheck :
    ParsesInstructions { create.selectProgram [11, 0, 7] with operationType := .arrayNext } [11, 0, 7] := by
  refine (parsesInstructions_iff ⟨rfl, by decide, rfl⟩).mpr ?_
  simp only [Gap]
  rintro (⟨-, hole⟩ | ⟨-, select, -⟩ | ⟨-, -, array, -⟩)
  · exact absurd hole (by decide)
  · exact absurd select (by decide)
  · exact absurd array (by decide)

/-- DATA_CTRL with the variant 7 is parsed as the operation before it, here ARRAY_NEXT. -/
theorem not_parsesInstructions_variant7 :
    ¬∀ (d : Decoder) (suffix : Bytes), d.Before suffix → d.ParsesInstructions suffix := by
  intro claim
  have parses := claim { create.selectProgram [59] with operationType := .arrayNext } [59]
    ⟨rfl, by decide, rfl⟩ .arrayNext _ rfl
  rcases parses with ⟨full, -⟩ | ⟨bytes, behind, op, same, defined, -⟩
  · contradiction
  · have gap : Gap (bytes ++ behind) := same ▸ .inl ⟨rfl, rfl⟩
    rw [gap_not_instruction gap] at defined
    contradiction

end Decoder

end Apx
