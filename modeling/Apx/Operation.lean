import Apx.Decoder

/-! Operations with their operands, and the byte strings that the decoder parses into them. -/

namespace Apx

open LittleEndian Vm

/-- What one instruction of a program asks for. -/
inductive Operation where
  | unpack (info : PackUnpackInfo)
  | pack (info : PackUnpackInfo)
  | rangeCheckInt32 (info : RangeCheckInfo 32)
  | rangeCheckUInt32 (info : RangeCheckInfo 32)
  | rangeCheckInt64 (info : RangeCheckInfo 64)
  | rangeCheckUInt64 (info : RangeCheckInfo 64)
  | recordSelect (fieldName : Bytes) (isLastField : Bool)
  | arrayNext
  deriving DecidableEq, Repr

namespace Operation

def type : Operation → OperationType
  | .unpack _ => .unpack
  | .pack _ => .pack
  | .rangeCheckInt32 _ => .rangeCheckInt32
  | .rangeCheckUInt32 _ => .rangeCheckUInt32
  | .rangeCheckInt64 _ => .rangeCheckInt64
  | .rangeCheckUInt64 _ => .rangeCheckUInt64
  | .recordSelect .. => .recordSelect
  | .arrayNext => .arrayNext

def data : ProgramType → PackUnpackInfo → Operation
  | .pack, info => .pack info
  | .unpack, info => .unpack info

theorem type_ne_programEnd (op : Operation) : op.type ≠ .programEnd := by
  cases op <;> exact fun same => nomatch same

end Operation

namespace Decoder

/-- The operation of a decoder that has just parsed one, as the accessors of decoder.c
return its parts. -/
def operation (d : Decoder) : OperationType → Option Operation
  | .programEnd => none
  | .unpack => some (.unpack d.packUnpackInfo)
  | .pack => some (.pack d.packUnpackInfo)
  | .rangeCheckInt32 => some (.rangeCheckInt32 d.rangeCheckInt32)
  | .rangeCheckUInt32 => some (.rangeCheckUInt32 d.rangeCheckUInt32)
  | .rangeCheckInt64 => some (.rangeCheckInt64 d.rangeCheckInt64)
  | .rangeCheckUInt64 => some (.rangeCheckUInt64 d.rangeCheckUInt64)
  | .recordSelect => some (.recordSelect d.fieldName d.isLastField)
  | .arrayNext => some .arrayNext

/-- The operation type of the data instructions of a program. -/
def dataOperation : ProgramType → OperationType
  | .pack => .pack
  | .unpack => .unpack

/-- Repeated calls of apx_vm_decoder_parse_next_operation from `d` on return these operations
one after another, and then PROGRAM_END in the last decoder. -/
inductive Parsed : Decoder → List Operation → Decoder → Prop where
  | programEnd {d d' : Decoder} (parse : d.parseNextOperation = .ok .programEnd d') :
      Parsed d [] d'
  | operation {d d' d'' : Decoder} {op : Operation} {ops : List Operation}
      (parse : d.parseNextOperation = .ok op.type d') (same : d'.operation op.type = some op)
      (rest : Parsed d' ops d'') : Parsed d (op :: ops) d''

/-- The decoder stands in its program, and `rest` is what it has not read yet. -/
structure Before (d : Decoder) (rest : Bytes) : Prop where
  loaded : d.hasProgram = true
  inside : d.programNext ≤ d.program.length
  rest : d.program.drop d.programNext = rest

/-- Parsing `bytes` from `d` on ends in `d'`, which holds the operation `op`. -/
structure Took (d d' : Decoder) (bytes : Bytes) (op : Operation) : Prop where
  parse : d.parseNextOperation = .ok op.type d'
  operation : d'.operation op.type = some op
  loaded : d'.hasProgram = true
  program : d'.program = d.program
  mark : d'.programMark = d.programMark
  next : d'.programNext = d.programNext + bytes.length

/-- Wherever the decoder finds these bytes it parses them into this operation. -/
def Parses (bytes : Bytes) (op : Operation) : Prop :=
  ∀ (d : Decoder) (rest : Bytes), Before d (bytes ++ rest) → ∃ d', Took d d' bytes op

/-- A byte string that is parsed into these operations, one after another. -/
inductive Codes : Bytes → List Operation → Prop where
  | nil : Codes [] []
  | cons {bytes more : Bytes} {op : Operation} {ops : List Operation} (nonempty : bytes ≠ [])
      (first : Parses bytes op) (rest : Codes more ops) : Codes (bytes ++ more) (op :: ops)

theorem Codes.append {bytes more : Bytes} {ops others : List Operation} (left : Codes bytes ops)
    (right : Codes more others) : Codes (bytes ++ more) (ops ++ others) := by
  induction left with
  | nil => exact right
  | cons nonempty first _ ih =>
    rw [List.append_assoc, List.cons_append]
    exact .cons nonempty first ih

theorem Codes.single {bytes : Bytes} {op : Operation} (nonempty : bytes ≠ [])
    (parses : Parses bytes op) : Codes bytes [op] := by
  simpa using Codes.cons nonempty parses .nil

theorem Took.before {d d' : Decoder} {bytes rest : Bytes} {op : Operation}
    (took : Took d d' bytes op) (before : Before d (bytes ++ rest)) (nonempty : bytes ≠ []) :
    Before d' rest where
  loaded := took.loaded
  inside := by
    rw [took.program, took.next]
    exact le_length_of_drop before.rest nonempty
  rest := by
    rw [took.program, took.next]
    exact drop_of_drop before.rest

theorem Before.programEnd {d : Decoder} (before : Before d []) :
    d.programNext = d.program.length ∧ d.parseNextOperation = .ok .programEnd d := by
  have atEnd : d.programNext = d.program.length := by
    have total := congrArg List.length before.rest
    have inside := before.inside
    rw [List.length_drop, List.length_nil] at total
    omega
  exact ⟨atEnd, by simp [parseNextOperation, before.loaded, atEnd]⟩

/-- A decoder in front of the code of some operations parses exactly these. -/
theorem Codes.parsed {bytes : Bytes} {ops : List Operation} (codes : Codes bytes ops)
    {d : Decoder} (before : Before d bytes) :
    ∃ d', Parsed d ops d' ∧ d'.program = d.program ∧ d'.programNext = d'.program.length := by
  induction codes generalizing d with
  | nil =>
    obtain ⟨atEnd, parse⟩ := before.programEnd
    exact ⟨d, .programEnd parse, rfl, atEnd⟩
  | cons nonempty first _ ih =>
    obtain ⟨d₁, took⟩ := first d _ before
    obtain ⟨d₂, parsed, program, atEnd⟩ := ih (took.before before nonempty)
    exact ⟨d₂, .operation took.parse took.operation parsed, program.trans took.program, atEnd⟩

/-! One lemma for each kind of instruction. The first byte decides what is decoded. -/

/-- The decoder behind the first byte of an instruction. -/
def skip (d : Decoder) : Decoder := { d with programNext := d.programNext + 1 }

theorem Before.fetch {d : Decoder} {b : Byte} {rest : Bytes} (before : Before d (b :: rest)) :
    d.fetch = .ok b d.skip := by
  simp only [Decoder.fetch, getElem?_of_drop before.rest, skip]

theorem Before.skip {d : Decoder} {b : Byte} {rest : Bytes} (before : Before d (b :: rest)) :
    Before d.skip rest where
  loaded := before.loaded
  inside := lt_length_of_drop before.rest
  rest := drop_succ_of_drop before.rest

theorem Before.parse {d : Decoder} {b : Byte} {rest : Bytes} (before : Before d (b :: rest)) :
    d.parseNextOperation = d.decodeNextInstruction.bind fun _ d => .ok d.operationType d := by
  have notAtEnd : d.programNext ≠ d.program.length := Nat.ne_of_lt (lt_length_of_drop before.rest)
  have loaded : d.hasProgram ≠ false := by simp [before.loaded]
  rw [parseNextOperation, if_neg loaded, if_neg notAtEnd]

theorem Before.decodeData {d : Decoder} {rest : Bytes} {programType : ProgramType} {variant : Nat}
    {flag : Bool} (small : variant < 16)
    (before : Before d (encodeInstruction (dataOpcode programType) variant flag :: rest)) :
    d.decodeNextInstruction = decodePackUnpack d.skip (dataOperation programType) variant flag := by
  have bound : dataOpcode programType < 8 := by cases programType <;> decide
  have decoded := decode_encodeInstruction flag bound small
  simp only [decodeNextInstruction, before.fetch, Result.bind_ok, decoded]
  cases programType <;> rfl

theorem Before.decodeDataCtrl {d : Decoder} {rest : Bytes} {variant : Nat} {flag : Bool}
    (small : variant < 16)
    (before : Before d (encodeInstruction opcodeDataCtrl variant flag :: rest)) :
    d.decodeNextInstruction = Decoder.decodeDataCtrl d.skip variant flag := by
  have bound : opcodeDataCtrl < 8 := by decide
  have decoded := decode_encodeInstruction flag bound small
  simp only [decodeNextInstruction, before.fetch, Result.bind_ok, decoded]
  rfl

theorem parses_arrayNext :
    Parses [encodeInstruction opcodeFlowCtrl variantArrayNext false] .arrayNext := by
  intro d rest before
  rw [List.singleton_append] at before
  have decoded : decodeInstruction (encodeInstruction opcodeFlowCtrl variantArrayNext false) =
      (opcodeFlowCtrl, variantArrayNext, false) :=
    decode_encodeInstruction false (by decide) (by decide)
  refine ⟨{ d.skip with operationType := .arrayNext }, ?_⟩
  refine { parse := ?_, operation := rfl, loaded := before.loaded, program := rfl, mark := rfl,
           next := rfl }
  simp only [before.parse, decodeNextInstruction, before.fetch, Result.bind_ok, decoded]
  rfl

theorem whileNotZero_of_drop {program name rest : Bytes} {next : Nat}
    (here : program.drop next = name ++ 0 :: rest) (noZero : 0 ∉ name) :
    whileNotZero program next = next + name.length := by
  have keep : ∀ b ∈ name, (decide (b ≠ 0)) = true := by
    intro b mem
    have differ : b ≠ 0 := fun zero => noZero (zero ▸ mem)
    simpa using differ
  rw [whileNotZero, here, List.takeWhile_append_of_pos keep]
  simp

theorem parses_recordSelect {name : Bytes} (isLastField : Bool) (nonempty : name ≠ [])
    (noZero : 0 ∉ name) :
    Parses (encodeInstruction opcodeDataCtrl variantRecordSelect isLastField :: (name ++ [0]))
      (.recordSelect name isLastField) := by
  intro d rest before
  have code : (name ++ [0]) ++ rest = name ++ 0 :: rest := by simp
  rw [List.cons_append, code] at before
  have behind := before.skip
  have positive := List.length_pos_iff.mpr nonempty
  have stop := whileNotZero_of_drop behind.rest noZero
  have text := slice_of_drop behind.rest rfl
  have found : d.skip.programNext + name.length > d.skip.programNext ∧
      d.skip.programNext ≤ d.skip.program.length := ⟨by omega, behind.inside⟩
  refine ⟨{ d.skip with programNext := d.skip.programNext + name.length + 1,
                        operationType := .recordSelect, fieldName := name,
                        isLastField := isLastField }, ?_⟩
  refine { parse := ?_, operation := rfl, loaded := before.loaded, program := rfl, mark := rfl,
           next := ?_ }
  · rw [before.parse, before.decodeDataCtrl (by decide), decodeDataCtrl, if_pos rfl]
    simp only [decodeRecordSelect, stop, if_pos found, Nat.add_sub_cancel_left, text,
      Result.bind_ok, Operation.type]
  · simp only [skip, List.length_cons, List.length_append, List.length_nil]
    omega

theorem Before.decodeArraySize {d : Decoder} {rest : Bytes} {variant size arrayLength : Nat}
    {isDynamicArray : Bool}
    (before : Before d (encodeInstruction opcodeDataSize variant isDynamicArray ::
      (packLE arrayLength size ++ rest)))
    (small : variant ≤ variantArraySizeLast) (width : variantToSize variant = size)
    (positive : 0 < size) (fits : arrayLength < 256 ^ size) (fits32 : arrayLength < 2 ^ 32) :
    Decoder.decodeArraySize d = .ok () { d with
      packUnpackInfo := { d.packUnpackInfo with
        isDynamicArray := isDynamicArray, arrayLength := arrayLength },
      programNext := d.programNext + 1 + size } := by
  have decoded : decodeInstruction (encodeInstruction opcodeDataSize variant isDynamicArray) =
      (opcodeDataSize, variant, isDynamicArray) :=
    decode_encodeInstruction isDynamicArray (by decide) (Nat.lt_of_le_of_lt small (by decide))
  have inside : d.programNext < d.program.length := before.skip.inside
  have number : parseUInt32ByVariant d.skip.program d.skip.programNext variant =
      some (BitVec.ofNat 32 arrayLength, d.skip.programNext + size) :=
    parseUInt32ByVariant_packLE before.skip.rest width positive fits
  have exact : (BitVec.ofNat 32 arrayLength).toNat = arrayLength := by
    rw [BitVec.toNat_ofNat, Nat.mod_eq_of_lt fits32]
  simp only [Decoder.decodeArraySize, if_pos inside, before.fetch, Result.bind_ok, decoded,
    if_true, if_neg (Nat.not_lt.mpr small), number, exact]
  rfl

theorem parses_data {programType : ProgramType} {variant : Nat} {typeCode : TypeCode}
    (small : variant ≤ variantLast) (code : variantToTypeCode variant = typeCode)
    (known : typeCode ≠ .none) :
    Parses [encodeInstruction (dataOpcode programType) variant false]
      (.data programType { typeCode := typeCode }) := by
  intro d rest before
  rw [List.singleton_append] at before
  have decode := before.decodeData (Nat.lt_succ_of_le small)
  refine ⟨{ d.skip with operationType := dataOperation programType,
                        packUnpackInfo := { typeCode := typeCode } }, ?_⟩
  refine { parse := ?_, operation := ?_, loaded := before.loaded, program := rfl, mark := rfl,
           next := rfl }
  · simp only [before.parse, decode, decodePackUnpack, if_neg (Nat.not_lt.mpr small), code,
      if_neg known, resetPackUnpackInfo]
    cases programType <;> rfl
  · cases programType <;> rfl

theorem parses_dataArray {programType : ProgramType} {variant : Nat} {typeCode : TypeCode}
    {sizeVariant size arrayLength : Nat} {isDynamicArray : Bool}
    (small : variant ≤ variantLast) (code : variantToTypeCode variant = typeCode)
    (known : typeCode ≠ .none) (sizeSmall : sizeVariant ≤ variantArraySizeLast)
    (width : variantToSize sizeVariant = size) (positive : 0 < size)
    (fits : arrayLength < 256 ^ size) (fits32 : arrayLength < 2 ^ 32) :
    Parses (encodeInstruction (dataOpcode programType) variant true ::
        encodeInstruction opcodeDataSize sizeVariant isDynamicArray :: packLE arrayLength size)
      (.data programType
        { typeCode := typeCode, arrayLength := arrayLength, isDynamicArray := isDynamicArray }) := by
  intro d rest before
  rw [List.cons_append] at before
  have decode := before.decodeData (Nat.lt_succ_of_le small)
  let typed : Decoder := { d.skip with operationType := dataOperation programType,
                                       packUnpackInfo := { typeCode := typeCode } }
  have behind : Before typed (encodeInstruction opcodeDataSize sizeVariant isDynamicArray ::
      (packLE arrayLength size ++ rest)) := ⟨before.loaded, before.skip.inside, before.skip.rest⟩
  have array := behind.decodeArraySize sizeSmall width positive fits fits32
  refine ⟨{ typed with
    packUnpackInfo := { typeCode := typeCode, isDynamicArray := isDynamicArray,
                        arrayLength := arrayLength },
    programNext := typed.programNext + 1 + size }, ?_⟩
  refine { parse := ?_, operation := ?_, loaded := before.loaded, program := rfl, mark := rfl,
           next := ?_ }
  · simp only [before.parse, decode, decodePackUnpack, if_neg (Nat.not_lt.mpr small), code,
      if_neg known, resetPackUnpackInfo, if_true]
    rw [array]
    cases programType <;> rfl
  · cases programType <;> rfl
  · simp only [typed, skip, List.length_cons, packLE_length]
    omega

/-- A number of a range check that is read back as it was written. -/
def Reads {w : Nat} (parse : Bytes → Nat → Nat → Option (BitVec w × Nat)) (variant size : Nat)
    (value : BitVec w) : Prop :=
  ∀ (program rest : Bytes) (next : Nat), program.drop next = packLE value.toNat size ++ rest →
    parse program next variant = some (value, next + size)

/-- What the four decode_range_check functions differ in: the parse function, and where the
decoder holds the limits. -/
structure RangeCheckKind (w : Nat) where
  parse : Bytes → Nat → Nat → Option (BitVec w × Nat)
  put : RangeCheckInfo w → Decoder → Decoder
  get : Decoder → RangeCheckInfo w
  operation : RangeCheckInfo w → Operation
  operationType : OperationType
  type_operation : ∀ info, (operation info).type = operationType
  operation_put : ∀ info d, (put info d).operation operationType = some (operation info)
  frame : ∀ info d, (put info d).hasProgram = d.hasProgram ∧ (put info d).program = d.program ∧
    (put info d).programMark = d.programMark ∧ (put info d).programNext = d.programNext ∧
    (put info d).operationType = d.operationType ∧ (put info d).packUnpackInfo = d.packUnpackInfo

def checkUInt32 : RangeCheckKind 32 where
  parse := parseUInt32ByVariant
  put info d := { d with rangeCheckUInt32 := info }
  get := rangeCheckUInt32
  operation := .rangeCheckUInt32
  operationType := .rangeCheckUInt32
  type_operation _ := rfl
  operation_put _ _ := rfl
  frame _ _ := ⟨rfl, rfl, rfl, rfl, rfl, rfl⟩

def checkUInt64 : RangeCheckKind 64 where
  parse := parseUInt64ByVariant
  put info d := { d with rangeCheckUInt64 := info }
  get := rangeCheckUInt64
  operation := .rangeCheckUInt64
  operationType := .rangeCheckUInt64
  type_operation _ := rfl
  operation_put _ _ := rfl
  frame _ _ := ⟨rfl, rfl, rfl, rfl, rfl, rfl⟩

def checkInt32 : RangeCheckKind 32 where
  parse := parseInt32ByVariant
  put info d := { d with rangeCheckInt32 := info }
  get := rangeCheckInt32
  operation := .rangeCheckInt32
  operationType := .rangeCheckInt32
  type_operation _ := rfl
  operation_put _ _ := rfl
  frame _ _ := ⟨rfl, rfl, rfl, rfl, rfl, rfl⟩

def checkInt64 : RangeCheckKind 64 where
  parse := parseInt64ByVariant
  put info d := { d with rangeCheckInt64 := info }
  get := rangeCheckInt64
  operation := .rangeCheckInt64
  operationType := .rangeCheckInt64
  type_operation _ := rfl
  operation_put _ _ := rfl
  frame _ _ := ⟨rfl, rfl, rfl, rfl, rfl, rfl⟩

theorem decodeRangeCheck_eq {w : Nat} {parse : Bytes → Nat → Nat → Option (BitVec w × Nat)}
    {put : RangeCheckInfo w → Decoder → Decoder} {old : RangeCheckInfo w} {d half : Decoder}
    {variant next behind : Nat} {lower upper : BitVec w}
    (inside : d.programNext + variantToSize variant * 2 ≤ d.program.length)
    (first : parse d.program d.programNext variant = some (lower, next))
    (middle : half = put { old with lower := lower } { d with programNext := next })
    (second : parse half.program half.programNext variant = some (upper, behind)) :
    decodeRangeCheck parse put old d variant =
      .ok () (put { lower := lower, upper := upper } { half with programNext := behind }) := by
  subst middle
  rw [decodeRangeCheck, if_pos inside, first]
  simp only
  rw [second]

/-- A range check of any kind, by the variant that stands for the width of its limits. -/
theorem parses_rangeCheck {w : Nat} (kind : RangeCheckKind w) {limitVariant variant size : Nat}
    (flag : Bool) {lower upper : BitVec w} (small : limitVariant < 16)
    (dispatch : ∀ d : Decoder, decodeDataCtrl d limitVariant flag =
      decodeRangeCheck kind.parse kind.put (kind.get d)
        { d with operationType := kind.operationType } variant)
    (width : variantToSize variant = size) (positive : 0 < size)
    (readsLower : Reads kind.parse variant size lower)
    (readsUpper : Reads kind.parse variant size upper) :
    Parses (encodeInstruction opcodeDataCtrl limitVariant flag ::
        (packLE lower.toNat size ++ packLE upper.toNat size))
      (kind.operation { lower := lower, upper := upper }) := by
  intro d rest before
  rw [List.cons_append, List.append_assoc] at before
  have behind := before.skip
  let typed : Decoder := { d.skip with operationType := kind.operationType }
  have here : typed.program.drop typed.programNext =
    packLE lower.toNat size ++ (packLE upper.toNat size ++ rest) := behind.rest
  have next : typed.program.drop (typed.programNext + size) = packLE upper.toNat size ++ rest := by
    simpa only [packLE_length] using drop_of_drop here
  have nonempty : packLE upper.toNat size ≠ [] := by
    rw [← List.length_pos_iff, packLE_length]
    exact positive
  have inside : typed.programNext + variantToSize variant * 2 ≤ typed.program.length := by
    have bound := le_length_of_drop next nonempty
    rw [packLE_length] at bound
    omega
  let half := kind.put { kind.get d.skip with lower := lower }
    { typed with programNext := typed.programNext + size }
  obtain ⟨halfLoaded, halfProgram, halfMark, halfNext, halfType, _⟩ := kind.frame
    { kind.get d.skip with lower := lower } { typed with programNext := typed.programNext + size }
  have firstRead := readsLower _ _ _ here
  have secondRead : kind.parse half.program half.programNext variant =
      some (upper, typed.programNext + size + size) := by
    rw [halfProgram, halfNext]
    exact readsUpper _ _ _ next
  obtain ⟨loaded, program, mark, position, type, _⟩ := kind.frame
    { lower := lower, upper := upper }
    { half with programNext := typed.programNext + size + size }
  refine ⟨kind.put { lower := lower, upper := upper }
    { half with programNext := typed.programNext + size + size }, ?_⟩
  refine { parse := ?_, operation := ?_, loaded := ?_, program := ?_, mark := ?_, next := ?_ }
  · have decoded : decodeRangeCheck kind.parse kind.put (kind.get d.skip) typed variant = _ :=
      decodeRangeCheck_eq inside firstRead rfl secondRead
    have kept := type.trans halfType
    rw [before.parse, before.decodeDataCtrl small, dispatch, decoded, Result.bind_ok,
      kind.type_operation, kept]
  · rw [kind.type_operation]
    exact kind.operation_put _ _
  · rw [loaded]
    exact halfLoaded.trans before.loaded
  · rw [program]
    exact halfProgram
  · rw [mark]
    exact halfMark
  · rw [position]
    simp only [typed, skip, List.length_cons, List.length_append, packLE_length]
    omega

end Decoder

end Apx
