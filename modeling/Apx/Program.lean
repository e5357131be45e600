import Apx.VmCommon

/-! Instruction bytes and program headers (program.c). -/

namespace Apx

open LittleEndian Vm

/-- apx_program_encode_instruction -/
def encodeInstruction (opcode variant : Nat) (flag : Bool) : Byte :=
  UInt8.ofNat ((opcode &&& 7) ||| ((variant &&& 0xf) <<< 3) ||| (if flag then 0x80 else 0))

/-- apx_program_decode_instruction: opcode, variant and flag -/
def decodeInstruction (instruction : Byte) : Nat × Nat × Bool :=
  (instruction.toNat &&& 7, (instruction.toNat >>> 3) &&& 0xf, instruction.toNat &&& 0x80 == 0x80)

private theorem decode_encode_table : ∀ (opcode : Fin 8) (variant : Fin 16) (flag : Bool),
    decodeInstruction (encodeInstruction opcode variant flag) = (opcode.val, variant.val, flag) := by
  decide

theorem decode_encodeInstruction {opcode variant : Nat} (flag : Bool) (opcodeFits : opcode < 8)
    (variantFits : variant < 16) :
    decodeInstruction (encodeInstruction opcode variant flag) = (opcode, variant, flag) :=
  decode_encode_table ⟨opcode, opcodeFits⟩ ⟨variant, variantFits⟩ flag

def dataOpcode : ProgramType → Nat
  | .pack => opcodePack
  | .unpack => opcodeUnpack

/-- apx_programHeader_t -/
structure ProgramHeader where
  programType : ProgramType := .unpack
  dataSize : Nat := 0
  elementSize : Nat := 0
  queueLength : Nat := 0
  hasDynamicData : Bool := false
  deriving DecidableEq, Repr

/-- The narrowest of the variants UINT8, UINT16 and UINT32 that holds a size. -/
def sizeVariant (size : Nat) : Nat :=
  if size ≤ uint8Max then variantUInt8
  else if size ≤ uint16Max then variantUInt16
  else variantUInt32

/-- calc_data_size_variant -/
def calcDataSizeVariant (elementVariant queueVariant : Nat) : Nat :=
  (if elementVariant = variantUInt8 then variantElementSizeU8Base
   else if elementVariant = variantUInt16 then variantElementSizeU16Base
   else variantElementSizeU32Base) + queueVariant

/-- encode_program_byte -/
def encodeProgramByte (programType : ProgramType) (isDynamic isQueued : Bool)
    (dataSizeVariant : Nat) : Byte :=
  UInt8.ofNat ((if programType = .pack then 0x08 else 0x00) ||| (dataSizeVariant &&& 0x07) |||
    (if isDynamic then 0x10 else 0) ||| (if isQueued then 0x20 else 0))

/-- The data size that a header states; the product is taken in 64 bits. -/
def headerDataSize (elementSize queueSize : Nat) : Nat :=
  if queueSize > 0 then variantToSize (sizeVariant queueSize) + elementSize * queueSize
  else elementSize

/-- apx_program_encode_header -/
def encodeHeader (programType : ProgramType) (elementSize queueSize : Nat) (isDynamic : Bool) :
    Except Failure Bytes :=
  let isQueued := queueSize > 0
  let dataSize := headerDataSize elementSize queueSize
  if isQueued ∧ dataSize > uint32Max then .error (.code .length)
  else
    let dataSizeVariant := sizeVariant dataSize
    let fixed := encodeProgramByte programType isDynamic isQueued dataSizeVariant ::
      packLE dataSize (variantToSize dataSizeVariant)
    if isQueued then
      let elementVariant := sizeVariant elementSize
      let variant := calcDataSizeVariant elementVariant (sizeVariant queueSize)
      .ok (fixed ++ encodeInstruction opcodeDataSize variant false ::
        packLE elementSize (variantToSize elementVariant))
    else .ok fixed

/-- The part of apx_program_decode_header behind the data size, for queued data. -/
def decodeQueuedHeader (program : Bytes) (next : Nat) (header : ProgramHeader) :
    Result (Nat × ProgramHeader) Unit :=
  match program[next]? with
  | none => .fail (.code .parse) (next, header)
  | some instruction =>
    let (opcode, variant, _) := decodeInstruction instruction
    if opcode ≠ opcodeDataSize ∨ variant < variantElementSizeU8Base ∨
        variant > variantElementSizeLast then .fail (.code .parse) (next, header)
    else
      let next := next + 1
      let (elementVariant, queuedVariant) :=
        if variant < variantElementSizeU16Base then (variantUInt8, variant - variantElementSizeU8Base)
        else if variant < variantElementSizeU32Base then
          (variantUInt16, variant - variantElementSizeU16Base)
        else (variantUInt32, variant - variantElementSizeU32Base)
      let queuedElemSize := variantToSize queuedVariant
      if queuedElemSize = 0 ∨ queuedElemSize > header.dataSize then
        .fail (.code .parse) (next, header)
      else
        match parseUInt32ByVariant program next elementVariant with
        | none => .fail (.code .parse) (next, header)
        | some (elementSize, next) =>
          let header := { header with elementSize := elementSize.toNat }
          if header.elementSize = 0 then .fail (.code .parse) (next, header)
          else
            let tmp := header.dataSize - queuedElemSize
            if tmp % header.elementSize ≠ 0 then .fail (.code .invalidHeader) (next, header)
            else .ok () (next, { header with queueLength := tmp / header.elementSize })

/-- apx_program_decode_header: the state is the next position and the header, both of which
a failing call may have changed already. -/
def decodeHeader (program : Bytes) (next : Nat) (header : ProgramHeader) :
    Result (Nat × ProgramHeader) Unit :=
  match program with
  | first :: _ :: _ =>
    let dataVariant := first.toNat &&& 0x07
    let isQueued := first.toNat &&& 0x20 == 0x20
    let header := { header with
      elementSize := 0, queueLength := 0,
      programType := if first.toNat &&& 0x08 == 0x08 then .pack else .unpack,
      hasDynamicData := first.toNat &&& 0x10 == 0x10 }
    match parseUInt32ByVariant program 1 dataVariant with
    | none => .fail (.code .parse) (1, header)
    | some (dataSize, next) =>
      let header := { header with dataSize := dataSize.toNat }
      if isQueued then decodeQueuedHeader program next header
      else .ok () (next, header)
  | _ => .fail (.code .invalidArgument) (next, header)

/-! A header that the encoder writes is decoded again, unless its elements have no size. -/

theorem sizeVariant_cases (size : Nat) :
    (sizeVariant size = variantUInt8 ∧ size ≤ uint8Max) ∨
      (sizeVariant size = variantUInt16 ∧ size ≤ uint16Max) ∨ sizeVariant size = variantUInt32 := by
  unfold sizeVariant
  by_cases byte : size ≤ uint8Max
  · exact .inl ⟨if_pos byte, byte⟩
  · by_cases word : size ≤ uint16Max
    · exact .inr (.inl ⟨by rw [if_neg byte, if_pos word], word⟩)
    · exact .inr (.inr (by rw [if_neg byte, if_neg word]))

/-- The chosen width holds the size. -/
theorem lt_of_sizeVariant {size : Nat} (fits : size < 2 ^ 32) :
    size < 256 ^ variantToSize (sizeVariant size) := by
  rcases sizeVariant_cases size with ⟨same, bound⟩ | ⟨same, bound⟩ | same
  · rw [same, show variantToSize variantUInt8 = 1 from rfl]
    simp only [uint8Max] at bound
    omega
  · rw [same, show variantToSize variantUInt16 = 2 from rfl]
    simp only [uint16Max] at bound
    omega
  · rw [same, show variantToSize variantUInt32 = 4 from rfl]
    omega

theorem variantToSize_sizeVariant_pos (size : Nat) : 0 < variantToSize (sizeVariant size) := by
  rcases sizeVariant_cases size with ⟨same, _⟩ | ⟨same, _⟩ | same <;> rw [same] <;> decide

theorem sizeVariant_lt (size : Nat) : sizeVariant size < 3 := by
  rcases sizeVariant_cases size with ⟨same, _⟩ | ⟨same, _⟩ | same <;> rw [same] <;> decide

private theorem programByte_table : ∀ (isPack isDynamic isQueued : Bool) (variant : Fin 8),
    let b := encodeProgramByte (if isPack then .pack else .unpack) isDynamic isQueued variant
    b.toNat &&& 0x07 = variant.val ∧ (b.toNat &&& 0x20 == 0x20) = isQueued ∧
      (b.toNat &&& 0x08 == 0x08) = isPack ∧ (b.toNat &&& 0x10 == 0x10) = isDynamic := by
  decide

theorem decode_encodeProgramByte {programType : ProgramType} {isDynamic isQueued : Bool}
    {variant : Nat} (small : variant < 8) :
    let b := encodeProgramByte programType isDynamic isQueued variant
    b.toNat &&& 0x07 = variant ∧ (b.toNat &&& 0x20 == 0x20) = isQueued ∧
      (if b.toNat &&& 0x08 == 0x08 then ProgramType.pack else .unpack) = programType ∧
      (b.toNat &&& 0x10 == 0x10) = isDynamic := by
  cases programType with
  | pack =>
    obtain ⟨data, queued, pack, dynamic⟩ :=
      programByte_table true isDynamic isQueued ⟨variant, small⟩
    exact ⟨data, queued, by rw [if_pos rfl] at pack; rw [pack]; rfl, dynamic⟩
  | unpack =>
    obtain ⟨data, queued, pack, dynamic⟩ :=
      programByte_table false isDynamic isQueued ⟨variant, small⟩
    exact ⟨data, queued, by rw [if_neg (by decide)] at pack; rw [pack]; rfl, dynamic⟩

/-- The header that stands for these properties of a program. -/
def headerOf (programType : ProgramType) (elementSize queueSize : Nat) (isDynamic : Bool) :
    ProgramHeader where
  programType := programType
  dataSize := headerDataSize elementSize queueSize
  elementSize := if queueSize > 0 then elementSize else 0
  queueLength := queueSize
  hasDynamicData := isDynamic

/-- The variants of an element size and a queue length are recovered from their sum. -/
private theorem queued_variant_table : ∀ element queue : Fin 3,
    let variant := calcDataSizeVariant element queue
    variant < 16 ∧ ¬(variant < variantElementSizeU8Base ∨ variant > variantElementSizeLast) ∧
      (if variant < variantElementSizeU16Base then
          (variantUInt8, variant - variantElementSizeU8Base)
        else if variant < variantElementSizeU32Base then
          (variantUInt16, variant - variantElementSizeU16Base)
        else (variantUInt32, variant - variantElementSizeU32Base)) = (element.val, queue.val) := by
  decide

theorem decodeQueuedHeader_encode {program rest : Bytes} {next elementSize queueSize : Nat}
    {header : ProgramHeader}
    (here : program.drop next =
      encodeInstruction opcodeDataSize
        (calcDataSizeVariant (sizeVariant elementSize) (sizeVariant queueSize)) false ::
      (packLE elementSize (variantToSize (sizeVariant elementSize)) ++ rest))
    (dataSize : header.dataSize = variantToSize (sizeVariant queueSize) + elementSize * queueSize)
    (fits : elementSize < 2 ^ 32) :
    (elementSize ≠ 0 → decodeQueuedHeader program next header =
      .ok () (next + 1 + variantToSize (sizeVariant elementSize),
        { header with elementSize := elementSize, queueLength := queueSize })) ∧
    (elementSize = 0 → ∃ state,
      decodeQueuedHeader program next header = .fail (.code .parse) state) := by
  obtain ⟨small, inside, variants⟩ := queued_variant_table
    ⟨sizeVariant elementSize, sizeVariant_lt _⟩ ⟨sizeVariant queueSize, sizeVariant_lt _⟩
  have decoded : decodeInstruction (encodeInstruction opcodeDataSize
      (calcDataSizeVariant (sizeVariant elementSize) (sizeVariant queueSize)) false) =
      (opcodeDataSize, calcDataSizeVariant (sizeVariant elementSize) (sizeVariant queueSize), false) :=
    decode_encodeInstruction false (by decide) small
  have number := parseUInt32ByVariant_packLE (drop_succ_of_drop here) rfl
    (variantToSize_sizeVariant_pos elementSize) (lt_of_sizeVariant fits)
  have exact : (BitVec.ofNat 32 elementSize).toNat = elementSize := by
    rw [BitVec.toNat_ofNat, Nat.mod_eq_of_lt fits]
  have known : ¬(opcodeDataSize ≠ opcodeDataSize ∨
      calcDataSizeVariant (sizeVariant elementSize) (sizeVariant queueSize) <
        variantElementSizeU8Base ∨
      calcDataSizeVariant (sizeVariant elementSize) (sizeVariant queueSize) >
        variantElementSizeLast) := by simpa using inside
  have lengthPrefix : ¬(variantToSize (sizeVariant queueSize) = 0 ∨
      variantToSize (sizeVariant queueSize) >
        variantToSize (sizeVariant queueSize) + elementSize * queueSize) := by
    have positive := variantToSize_sizeVariant_pos queueSize
    omega
  simp only [decodeQueuedHeader, getElem?_of_drop here, decoded, if_neg known, variants,
    if_neg lengthPrefix, number, exact, dataSize, Nat.add_sub_cancel_left]
  constructor
  · intro positive
    have divides : ¬elementSize * queueSize % elementSize ≠ 0 := by simp
    have quotient : elementSize * queueSize / elementSize = queueSize :=
      Nat.mul_div_cancel_left _ (Nat.pos_of_ne_zero positive)
    rw [if_neg positive, if_neg divides, quotient]
  · intro zero
    exact ⟨_, if_pos zero⟩

/-- The program byte and the data size, which every header starts with. -/
theorem decodeHeader_fixed {programType : ProgramType} {isDynamic isQueued : Bool}
    {dataSize : Nat} {rest : Bytes} (next : Nat) (header : ProgramHeader)
    (fits : dataSize < 2 ^ 32) :
    let program := encodeProgramByte programType isDynamic isQueued (sizeVariant dataSize) ::
      (packLE dataSize (variantToSize (sizeVariant dataSize)) ++ rest)
    let behind := 1 + variantToSize (sizeVariant dataSize)
    let decoded : ProgramHeader :=
      { programType := programType, dataSize := dataSize, hasDynamicData := isDynamic }
    decodeHeader program next header =
      if isQueued then decodeQueuedHeader program behind decoded else .ok () (behind, decoded) := by
  intro program behind decoded
  obtain ⟨variant, queued, type, dynamic⟩ :=
    @decode_encodeProgramByte programType isDynamic isQueued (sizeVariant dataSize)
      (Nat.lt_trans (sizeVariant_lt _) (by decide))
  have number : parseUInt32ByVariant program 1 (sizeVariant dataSize) =
      some (BitVec.ofNat 32 dataSize, behind) :=
    parseUInt32ByVariant_packLE rfl rfl (variantToSize_sizeVariant_pos dataSize)
      (lt_of_sizeVariant fits)
  have exact : (BitVec.ofNat 32 dataSize).toNat = dataSize := by
    rw [BitVec.toNat_ofNat, Nat.mod_eq_of_lt fits]
  obtain ⟨second, tail, two⟩ : ∃ second tail,
      packLE dataSize (variantToSize (sizeVariant dataSize)) ++ rest = second :: tail := by
    cases split : packLE dataSize (variantToSize (sizeVariant dataSize)) ++ rest with
    | nil =>
      have empty := congrArg List.length split
      have positive := variantToSize_sizeVariant_pos dataSize
      rw [List.length_append, packLE_length, List.length_nil] at empty
      omega
    | cons second tail => exact ⟨second, tail, rfl⟩
  simp only [program, two] at number ⊢
  simp only [decodeHeader, variant, queued, type, dynamic, number, exact]
  rfl

/-- A queue of elements without a size is the one header that is not decoded again. -/
theorem decodeHeader_encodeHeader {programType : ProgramType} {elementSize queueSize : Nat}
    {isDynamic : Bool} {bytes : Bytes} (code : Bytes) (next : Nat) (header : ProgramHeader)
    (fits : elementSize < 2 ^ 32)
    (encoded : encodeHeader programType elementSize queueSize isDynamic = .ok bytes) :
    (queueSize = 0 ∨ elementSize ≠ 0 → decodeHeader (bytes ++ code) next header =
      .ok () (bytes.length, headerOf programType elementSize queueSize isDynamic)) ∧
    (queueSize ≠ 0 ∧ elementSize = 0 → ∃ state,
      decodeHeader (bytes ++ code) next header = .fail (.code .parse) state) := by
  unfold encodeHeader at encoded
  simp only at encoded
  split at encoded
  · contradiction
  next short =>
    split at encoded
    · next queued =>
      cases encoded
      have positive : queueSize ≠ 0 := Nat.ne_of_gt queued
      have dataFits : headerDataSize elementSize queueSize < 2 ^ 32 := by
        simp only [queued, true_and, uint32Max] at short
        omega
      let dataSize := headerDataSize elementSize queueSize
      let elements := encodeInstruction opcodeDataSize
          (calcDataSizeVariant (sizeVariant elementSize) (sizeVariant queueSize)) false ::
        (packLE elementSize (variantToSize (sizeVariant elementSize)) ++ code)
      let program := encodeProgramByte programType isDynamic (decide (queueSize > 0))
          (sizeVariant dataSize) :: (packLE dataSize (variantToSize (sizeVariant dataSize)) ++ elements)
      have here : program.drop (1 + variantToSize (sizeVariant dataSize)) = elements := by
        have first : program.drop 1 = packLE dataSize (variantToSize (sizeVariant dataSize)) ++
          elements := rfl
        simpa only [packLE_length] using drop_of_drop first
      have whole : decodeHeader program next header =
          decodeQueuedHeader program (1 + variantToSize (sizeVariant dataSize))
            { programType := programType, dataSize := dataSize, hasDynamicData := isDynamic } := by
        rw [decodeHeader_fixed next header dataFits, if_pos (decide_eq_true queued)]
      have product : dataSize = variantToSize (sizeVariant queueSize) + elementSize * queueSize :=
        if_pos queued
      obtain ⟨good, bad⟩ := @decodeQueuedHeader_encode program code _ elementSize queueSize
        { programType := programType, dataSize := dataSize, hasDynamicData := isDynamic } here product
        fits
      simp only [List.cons_append, List.append_assoc]
      constructor
      · intro condition
        refine (whole.trans (good (condition.resolve_left positive))).trans ?_
        simp only [headerOf, if_pos queued, List.length_cons, List.length_append, packLE_length]
        congr 2
        simp only [dataSize]
        omega
      · intro condition
        obtain ⟨state, failed⟩ := bad condition.2
        exact ⟨state, whole.trans failed⟩
    · next single =>
      cases encoded
      have zero : queueSize = 0 := by omega
      subst zero
      constructor
      · intro _
        rw [List.cons_append, show headerDataSize elementSize 0 = elementSize from rfl,
          decodeHeader_fixed next header fits]
        simp [headerOf, headerDataSize, Nat.add_comm]
      · intro impossible
        exact absurd rfl impossible.1

end Apx
