import Apx.Denotation

/-! The decoder finds in a compiled program the operations that its data element denotes. -/

namespace Apx

open LittleEndian Vm Decoder

/-! The numbers of a range check are read back as they were written. -/

theorem unpackLE_slice_of_drop {program rest : Bytes} {next value size : Nat}
    (here : program.drop next = packLE value size ++ rest) (positive : 0 < size) :
    unpackLE (slice program next size) = value % 256 ^ size ∧ next + size ≤ program.length := by
  have nonempty : packLE value size ≠ [] := by
    rw [← List.length_pos_iff, packLE_length]
    exact positive
  have inside := le_length_of_drop here nonempty
  rw [packLE_length] at inside
  exact ⟨by rw [slice_of_drop here (packLE_length value size), unpackLE_packLE], inside⟩

theorem reads_uint32 {variant size : Nat} {value : BitVec 32} (width : variantToSize variant = size)
    (positive : 0 < size) (fits : value.toNat < 256 ^ size) :
    Reads parseUInt32ByVariant variant size value := by
  intro program rest next here
  rw [parseUInt32ByVariant_packLE here width positive fits, BitVec.ofNat_toNat, BitVec.setWidth_eq]

theorem reads_uint64 (value : BitVec 64) : Reads parseUInt64ByVariant variantUInt64 8 value := by
  intro program rest next here
  obtain ⟨number, inside⟩ := unpackLE_slice_of_drop here (by decide)
  have fits : value.toNat < 256 ^ 8 := value.isLt
  have outside : ¬(8 = 0 ∨ next + 8 > program.length) := by omega
  simp only [parseUInt64ByVariant, show variantToSize variantUInt64 = 8 from rfl, if_neg outside,
    number, Nat.mod_eq_of_lt fits, BitVec.ofNat_toNat, BitVec.setWidth_eq]

theorem reads_int64 (value : BitVec 64) : Reads parseInt64ByVariant variantInt64 8 value := by
  intro program rest next here
  obtain ⟨number, inside⟩ := unpackLE_slice_of_drop here (by decide)
  have fits : value.toNat < 256 ^ 8 := value.isLt
  have outside : ¬(8 = 0 ∨ next + 8 > program.length) := by omega
  simp only [parseInt64ByVariant, show variantToSize variantInt64 = 8 from rfl, if_neg outside,
    number, Nat.mod_eq_of_lt fits, BitVec.ofNat_toNat, BitVec.setWidth_eq]

/-- The low bits of a number that fits in them are extended to the number again. -/
theorem signExtend_ofNat {value : BitVec 32} {w : Nat} (narrow : w + 1 ≤ 32)
    (low : -2 ^ w ≤ value.toInt) (high : value.toInt < 2 ^ w) :
    (BitVec.ofNat (w + 1) (value.toNat % 2 ^ (w + 1))).signExtend 32 = value := by
  have same : ((value.toNat : Int) - value.toInt) % ((2 ^ (w + 1) : Nat) : Int) = 0 := by
    apply Int.emod_eq_zero_of_dvd
    have whole : ((2 ^ 32 : Nat) : Int) ∣ value.toNat - value.toInt := by
      rw [BitVec.toInt_eq_toNat_cond]
      split <;> omega
    exact Int.dvd_trans (by exact_mod_cast Nat.pow_dvd_pow 2 narrow) whole
  have small : value.toInt.bmod (2 ^ (w + 1)) = value.toInt := by
    have half : (((2 : Nat) ^ (w + 1) : Nat) : Int) = 2 * 2 ^ w := by push_cast; ring
    apply Int.bmod_eq_of_le <;> omega
  apply BitVec.eq_of_toInt_eq
  rw [BitVec.toInt_signExtend_of_le narrow, BitVec.toInt_ofNat', Int.natCast_emod, Int.emod_bmod,
    ← Int.emod_bmod, Int.emod_eq_emod_iff_emod_sub_eq_zero.mpr same, Int.emod_bmod, small]

theorem reads_int32 {variant size w : Nat} {value : BitVec 32}
    (known : variant = variantInt8 ∧ size = 1 ∧ w = 7 ∨ variant = variantInt16 ∧ size = 2 ∧ w = 15 ∨
      variant = variantInt32 ∧ size = 4 ∧ w = 31)
    (low : -2 ^ w ≤ value.toInt) (high : value.toInt < 2 ^ w) :
    Reads parseInt32ByVariant variant size value := by
  intro program rest next here
  have positive : 0 < size := by omega
  obtain ⟨number, inside⟩ := unpackLE_slice_of_drop here positive
  have outside : ¬(size = 0 ∨ next + size > program.length) := by omega
  rcases known with ⟨rfl, rfl, rfl⟩ | ⟨rfl, rfl, rfl⟩ | ⟨rfl, rfl, rfl⟩
  · have value8 := signExtend_ofNat (by decide) low high
    simp only [parseInt32ByVariant, show variantToSize variantInt8 = 1 from rfl, if_neg outside,
      number, if_true]
    exact congrArg (fun v => some (v, next + 1)) value8
  · have value16 := signExtend_ofNat (by decide) low high
    simp only [parseInt32ByVariant, show variantToSize variantInt16 = 2 from rfl, if_neg outside,
      number, if_neg (show variantInt16 ≠ variantInt8 by decide), if_true]
    exact congrArg (fun v => some (v, next + 2)) value16
  · have fits : value.toNat < 256 ^ 4 := value.isLt
    simp only [parseInt32ByVariant, show variantToSize variantInt32 = 4 from rfl, if_neg outside,
      number, if_neg (show variantInt32 ≠ variantInt8 by decide),
      if_neg (show variantInt32 ≠ variantInt16 by decide), if_true, Nat.mod_eq_of_lt fits,
      BitVec.ofNat_toNat, BitVec.setWidth_eq]

namespace Compiler

/-- The call added the code of these operations to the program. -/
def Emits (c c' : Compiler) (ops : List Operation) : Prop :=
  ∃ bytes, c'.program = c.program ++ bytes ∧ Codes bytes ops

theorem Emits.refl (c : Compiler) : Emits c c [] := ⟨[], by simp, .nil⟩

theorem Emits.trans {c c₁ c₂ : Compiler} {ops others : List Operation} (first : Emits c c₁ ops)
    (second : Emits c₁ c₂ others) : Emits c c₂ (ops ++ others) := by
  obtain ⟨bytes, program, codes⟩ := first
  obtain ⟨more, program', codes'⟩ := second
  exact ⟨bytes ++ more, by rw [program', program, List.append_assoc], codes.append codes'⟩

theorem emits_append (c : Compiler) {bytes : Bytes} {op : Operation} (nonempty : bytes ≠ [])
    (parses : Parses bytes op) : Emits c (c.append bytes) [op] :=
  ⟨bytes, rfl, .single nonempty parses⟩

variable {programType : ProgramType}

/-- The array size takes the narrowest width that holds it. -/
theorem compileArraySizeInstruction_eq (c : Compiler) {arrayLength : Nat} (isDynamic : Bool)
    (fits : arrayLength < 2 ^ 32) :
    ∃ variant size, c.compileArraySizeInstruction arrayLength isDynamic =
        c.append (encodeInstruction opcodeDataSize variant isDynamic :: packLE arrayLength size) ∧
      variant ≤ variantArraySizeLast ∧ variantToSize variant = size ∧ 0 < size ∧
      arrayLength < 256 ^ size := by
  by_cases wide : arrayLength > uint16Max
  · refine ⟨variantArraySizeU32, 4, ?_, by decide, rfl, by decide, fits⟩
    simp only [compileArraySizeInstruction, if_pos wide]
  · by_cases word : arrayLength > uint8Max
    · refine ⟨variantArraySizeU16, 2, ?_, by decide, rfl, by decide, ?_⟩
      · simp only [compileArraySizeInstruction, if_neg wide, if_pos word]
      · simp only [uint16Max] at wide
        omega
    · refine ⟨variantArraySizeU8, 1, ?_, by decide, rfl, by decide, ?_⟩
      · simp only [compileArraySizeInstruction, if_neg wide, if_neg word]
      · simp only [uint8Max] at word
        omega

/-- A data instruction with or without an array size. -/
theorem emits_data (c : Compiler) {variant arrayLength : Nat} {typeCode : TypeCode}
    (isDynamic : Bool) (small : variant ≤ variantLast) (code : variantToTypeCode variant = typeCode)
    (known : typeCode ≠ .none) (fits : arrayLength < 2 ^ 32) :
    Emits c ((c.append [encodeInstruction (dataOpcode programType) variant
      (arrayLength > 0)]).compileArray arrayLength isDynamic)
      [.data programType (dataInfo typeCode arrayLength isDynamic)] := by
  by_cases isArray : arrayLength > 0
  · obtain ⟨sizeVariant, size, same, sizeSmall, width, positive, narrow⟩ :=
      (c.append [encodeInstruction (dataOpcode programType) variant
        true]).compileArraySizeInstruction_eq isDynamic fits
    have info : dataInfo typeCode arrayLength isDynamic =
        { typeCode := typeCode, arrayLength := arrayLength, isDynamicArray := isDynamic } := by
      simp [dataInfo, isArray]
    rw [info]
    refine ⟨_, ?_, .single (List.cons_ne_nil _ _)
      (parses_dataArray small code known sizeSmall width positive narrow fits)⟩
    rw [compileArray, if_pos isArray, decide_eq_true isArray, same]
    cases isDynamic <;> simp [append]
  · have zero : arrayLength = 0 := by omega
    subst zero
    have info : dataInfo typeCode 0 isDynamic = { typeCode := typeCode } := by simp [dataInfo]
    rw [compileArray, if_neg isArray, info, decide_eq_false isArray]
    exact emits_append c (List.cons_ne_nil _ _) (parses_data small code known)

/-- The element size of a limit instruction: what the table of the variants says. -/
theorem emits_limits {w : Nat} (c : Compiler) (kind : RangeCheckKind w)
    {limitVariant variant size : Nat} (isArray : Bool) {lower upper : BitVec w}
    (small : limitVariant < 16)
    (dispatch : ∀ d : Decoder, decodeDataCtrl d limitVariant isArray =
      decodeRangeCheck kind.parse kind.put (kind.get d)
        { d with operationType := kind.operationType } variant)
    (width : variantToSize variant = size) (positive : 0 < size)
    (readsLower : Reads kind.parse variant size lower)
    (readsUpper : Reads kind.parse variant size upper) :
    Emits c ((c.append [encodeInstruction opcodeDataCtrl limitVariant isArray]).append
      (packLE lower.toNat size ++ packLE upper.toNat size))
      [kind.operation { lower := lower, upper := upper }] := by
  refine ⟨_, ?_, .single (List.cons_ne_nil _ _)
    (parses_rangeCheck kind isArray small dispatch width positive readsLower readsUpper)⟩
  simp [append]

/-- The limit instruction of a type, for limits of that type. -/
theorem emits_limitCheck {c c' : Compiler} {code : LeafCode} {info : LeafInfo} {limits : Limits}
    {isArray : Bool} (known : leafInfo code = some info) (fit : limits.Fit code)
    (compiled : c.compileLimitInstruction limits info.isSignedType info.is64BitType isArray
      info.limitCheckVariant = .ok c') : Emits c c' (limitCheck code limits) := by
  cases code with
  | uint8 =>
    cases known
    cases compiled
    exact emits_limits c checkUInt32 isArray (by decide) (fun _ => rfl) rfl (by decide)
      (reads_uint32 rfl (by decide) fit.1) (reads_uint32 rfl (by decide) fit.2)
  | byte =>
    cases known
    cases compiled
    exact emits_limits c checkUInt32 isArray (by decide) (fun _ => rfl) rfl (by decide)
      (reads_uint32 rfl (by decide) fit.1) (reads_uint32 rfl (by decide) fit.2)
  | uint16 =>
    cases known
    cases compiled
    exact emits_limits c checkUInt32 isArray (by decide) (fun _ => rfl) rfl (by decide)
      (reads_uint32 rfl (by decide) fit.1) (reads_uint32 rfl (by decide) fit.2)
  | uint32 =>
    cases known
    cases compiled
    exact emits_limits c checkUInt32 isArray (by decide) (fun _ => rfl) rfl (by decide)
      (reads_uint32 rfl (by decide) (BitVec.isLt _)) (reads_uint32 rfl (by decide) (BitVec.isLt _))
  | uint64 =>
    cases known
    cases compiled
    exact emits_limits c checkUInt64 isArray (by decide) (fun _ => rfl) rfl (by decide)
      (reads_uint64 _) (reads_uint64 _)
  | int8 =>
    cases known
    cases compiled
    exact emits_limits c checkInt32 isArray (by decide) (fun _ => rfl) rfl (by decide)
      (reads_int32 (.inl ⟨rfl, rfl, rfl⟩) fit.1.1 fit.1.2)
      (reads_int32 (.inl ⟨rfl, rfl, rfl⟩) fit.2.1 fit.2.2)
  | int16 =>
    cases known
    cases compiled
    exact emits_limits c checkInt32 isArray (by decide) (fun _ => rfl) rfl (by decide)
      (reads_int32 (.inr (.inl ⟨rfl, rfl, rfl⟩)) fit.1.1 fit.1.2)
      (reads_int32 (.inr (.inl ⟨rfl, rfl, rfl⟩)) fit.2.1 fit.2.2)
  | int32 =>
    cases known
    cases compiled
    exact emits_limits c checkInt32 isArray (by decide) (fun _ => rfl) rfl (by decide)
      (reads_int32 (.inr (.inr ⟨rfl, rfl, rfl⟩)) (BitVec.le_toInt _) BitVec.toInt_lt)
      (reads_int32 (.inr (.inr ⟨rfl, rfl, rfl⟩)) (BitVec.le_toInt _) BitVec.toInt_lt)
  | int64 =>
    cases known
    cases compiled
    exact emits_limits c checkInt64 isArray (by decide) (fun _ => rfl) rfl (by decide)
      (reads_int64 _) (reads_int64 _)
  | bool | char | char8 =>
    cases known
    contradiction
  | none | char16 | char32 => contradiction

/-- The table of the type codes: its data variants are decoded to the same type codes. -/
theorem leafInfo_eq {code : LeafCode} {info : LeafInfo} (known : leafInfo code = some info) :
    info.dataVariant ≤ variantLast ∧ variantToTypeCode info.dataVariant = code.typeCode ∧
      code.typeCode ≠ .none ∧ info.dataSize = code.size ∧ 0 < code.size := by
  cases code <;> first | contradiction | (cases known; decide)

theorem arrayDataSize_eq {size n : Nat} {isDynamic : Bool} {total : Nat}
    (sized : arrayDataSize (size % 2 ^ 32) n isDynamic = .ok total) :
    total = extent size n isDynamic % 2 ^ 32 := by
  unfold arrayDataSize at sized
  split at sized
  · split at sized
    · next isArray =>
      rw [extent, if_neg (Nat.ne_of_gt isArray)]
      cases isDynamic with
      | true =>
        cases sized
        simp [u32]
      | false =>
        cases sized
        simp [u32]
    · next single =>
      cases sized
      rw [extent, if_pos (by omega)]
  · contradiction

theorem compileLeaf_emits {c c' : Compiler} {code : LeafCode} {arrayLength size : Nat}
    {isDynamic : Bool} {limits : Option Limits} (fits : arrayLength < 2 ^ 32)
    (fit : ∀ l ∈ limits, l.Fit code)
    (compiled : c.compileLeaf programType code arrayLength isDynamic limits = .ok (c', size)) :
    Emits c c' (leafOperations programType code arrayLength isDynamic limits) ∧
      size = extent code.size arrayLength isDynamic % 2 ^ 32 := by
  unfold compileLeaf at compiled
  split at compiled
  · contradiction
  next info known =>
  obtain ⟨small, typeCode, isKnown, width, positive⟩ := leafInfo_eq known
  have data (c : Compiler) := @emits_data programType c _ _ _ isDynamic small typeCode isKnown fits
  simp only at compiled
  split at compiled
  · contradiction
  · contradiction
  next c₁ total emitted sized =>
  cases compiled
  have size_eq : size = extent code.size arrayLength isDynamic % 2 ^ 32 := by
    have wrapped : info.dataSize % 2 ^ 32 = info.dataSize := by
      rw [width]
      cases code <;> decide
    rw [← width]
    exact arrayDataSize_eq (by rw [wrapped]; exact sized)
  refine ⟨?_, size_eq⟩
  cases limits with
  | none =>
    cases emitted
    exact data c
  | some limits =>
    have fit := fit limits rfl
    cases programType with
    | pack =>
      simp only at emitted
      split at emitted
      · contradiction
      next c₂ checked =>
        cases emitted
        exact (emits_limitCheck known fit checked).trans (data c₂)
    | unpack => exact (data c).trans (emits_limitCheck known fit emitted)

theorem compileRecordSelect_emits {c c' : Compiler} {e : DataElement} {isLastField : Bool}
    (compiled : c.compileRecordSelectInstruction e.getName isLastField = .ok c') :
    Emits c c' [.recordSelect e.nameBytes isLastField] ∧ e.nameBytes ≠ [] := by
  cases named : e.getName with
  | none =>
    rw [named] at compiled
    contradiction
  | some name =>
    rw [named, compileRecordSelectInstruction] at compiled
    simp only [DataElement.nameBytes, named]
    split at compiled
    · contradiction
    next nonempty =>
    split at compiled
    · contradiction
    · cases compiled
      have named : name.bytes ≠ [] := fun empty => nonempty (by rw [empty]; rfl)
      exact ⟨emits_append c (List.cons_ne_nil _ _)
        (parses_recordSelect isLastField named name.noZero), named⟩

/-- What the compiler adds for a tree is the code of its operations, and the size that it
returns is that of the tree modulo `2 ^ 32`. -/
theorem compileElement_emits (e : DataElement) (fit : e.LimitsFit) {approach : Approach}
    {c c' : Compiler} {size : Nat}
    (compiled : compileElement c programType approach e = .ok (c', size)) :
    Emits c c' (e.emitted programType) ∧ size = e.emittedSize % 2 ^ 32 := by
  induction e using DataElement.tree_induction generalizing approach c c' size with
  | leaf name code arrayLen isDynamic limits =>
    rw [compileElement] at compiled
    exact compileLeaf_emits arrayLen.toNat_lt fit compiled
  | refId => cases approach <;> simp [compileElement] at compiled
  | refName => cases approach <;> simp [compileElement] at compiled
  | refPtr name arrayLen isDynamic target ih =>
    cases approach with
    | direct => simp [compileElement] at compiled
    | derive =>
      rw [compileElement] at compiled
      exact ih fit compiled
    | follow count =>
      rw [compileElement] at compiled
      split at compiled
      · exact ih fit compiled
      · contradiction
  | record name arrayLen isDynamic elements ih =>
    -- the loop over the fields, from any size of the fields before
    have fields : ∀ (fields : List DataElement) (c c' : Compiler) (before size : Nat),
        (∀ child ∈ fields, child ∈ elements) → DataElement.LimitsFits fields → before < 2 ^ 32 →
        compileRecordFields c programType before fields = .ok (c', size) →
        Emits c c' (DataElement.emittedFields programType fields) ∧
          size = (before + DataElement.emittedSizes fields) % 2 ^ 32 := by
      intro fields
      induction fields with
      | nil =>
        intro c c' before size _ _ bound compiled
        cases compiled
        exact ⟨.refl c, by rw [DataElement.emittedSizes, Nat.add_zero, Nat.mod_eq_of_lt bound]⟩
      | cons child rest ihFields =>
        intro c c' before size members fit bound compiled
        rw [compileRecordFields] at compiled
        split at compiled
        · contradiction
        next c₁ selected =>
        split at compiled
        · contradiction
        next c₂ childSize compiledChild =>
        split at compiled
        · contradiction
        next =>
        obtain ⟨emitsChild, childSize_eq⟩ := ih child (members child List.mem_cons_self) fit.1
          compiledChild
        obtain ⟨emitsRest, size_eq⟩ := ihFields c₂ c' _ size
          (fun x mem => members x (List.mem_cons_of_mem _ mem)) fit.2 (u32_lt _) compiled
        refine ⟨(compileRecordSelect_emits selected).1.trans (emitsChild.trans emitsRest), ?_⟩
        rw [size_eq, childSize_eq, DataElement.emittedSizes, u32]
        omega
    rw [compileElement] at compiled
    simp only at compiled
    split at compiled
    · contradiction
    split at compiled
    · contradiction
    next c₁ recordSize compiledFields =>
    split at compiled
    · contradiction
    next total sized =>
    cases compiled
    have header := @emits_data programType c variantRecord _ _ isDynamic (by decide) rfl
      (show TypeCode.record ≠ .none by decide) arrayLen.toNat_lt
    obtain ⟨emitsFields, recordSize_eq⟩ := fields elements _ c₁ 0 recordSize (fun _ mem => mem) fit
      (by decide) compiledFields
    rw [Nat.zero_add] at recordSize_eq
    refine ⟨?_, arrayDataSize_eq (by rw [← recordSize_eq]; exact sized)⟩
    have closing : Emits c₁ (if arrayLen.toNat > 0 then c₁.compileArrayNextInstruction else c₁)
        (if arrayLen.toNat > 0 then [Operation.arrayNext] else []) := by
      split
      · exact emits_append c₁ (List.cons_ne_nil _ _) parses_arrayNext
      · exact .refl c₁
    exact header.trans (emitsFields.trans closing)

theorem compileElement_complete (e : DataElement) {approach : Approach} {c c' : Compiler}
    {size : Nat} (compiled : compileElement c programType approach e = .ok (c', size)) :
    e.Complete := by
  induction e using DataElement.tree_induction generalizing approach c c' size with
  | leaf name code arrayLen isDynamic limits =>
    rw [compileElement, compileLeaf] at compiled
    split at compiled
    · contradiction
    next info known =>
      intro unknown
      rw [unknown] at known
      contradiction
  | refId => cases approach <;> simp [compileElement] at compiled
  | refName => cases approach <;> simp [compileElement] at compiled
  | refPtr name arrayLen isDynamic target ih =>
    cases approach with
    | direct => simp [compileElement] at compiled
    | derive =>
      rw [compileElement] at compiled
      exact ih compiled
    | follow count =>
      rw [compileElement] at compiled
      split at compiled
      · exact ih compiled
      · contradiction
  | record name arrayLen isDynamic elements ih =>
    have fields : ∀ (fields : List DataElement) (c c' : Compiler) (before size : Nat),
        (∀ child ∈ fields, child ∈ elements) →
        compileRecordFields c programType before fields = .ok (c', size) →
        DataElement.Completes fields := by
      intro fields
      induction fields with
      | nil => exact fun _ _ _ _ _ _ => trivial
      | cons child rest ihFields =>
        intro c c' before size members compiled
        rw [compileRecordFields] at compiled
        split at compiled
        · contradiction
        next c₁ selected =>
        split at compiled
        · contradiction
        next c₂ childSize compiledChild =>
        split at compiled
        · contradiction
        · exact ⟨(compileRecordSelect_emits selected).2,
            ih child (members child List.mem_cons_self) compiledChild,
            ihFields _ _ _ _ (fun x mem => members x (List.mem_cons_of_mem _ mem)) compiled⟩
    rw [compileElement] at compiled
    simp only at compiled
    split at compiled
    · contradiction
    next nonempty =>
    split at compiled
    · contradiction
    next c₁ recordSize compiledFields =>
      exact ⟨by simpa using nonempty, fields elements _ c₁ 0 recordSize (fun _ mem => mem)
        compiledFields⟩

end Compiler

/-- A compiled program is its header and the code of its data element. -/
theorem compilePort_eq {e : DataElement} {queueLength : Nat} {programType : ProgramType}
    {program : Bytes} (compiled : compilePort e queueLength programType = ⟨some program, none⟩) :
    ∃ c size header, Compiler.compileDataElement {} programType e = .ok (c, size) ∧
      encodeHeader programType size queueLength c.hasDynamicData = .ok header ∧
      program = header ++ c.program := by
  unfold compilePort at compiled
  split at compiled
  · simp at compiled
  next c size compiledElement =>
  split at compiled
  · simp at compiled
  next header encoded =>
    simp only [CompiledPort.mk.injEq, Option.some.injEq, and_true] at compiled
    exact ⟨c, size, header, compiledElement, encoded, compiled.symm⟩

/-- Selecting a compiled program leaves the decoder in front of the code of its operations,
unless the program is for a queue of elements without a size. -/
theorem selects_compiled {e : DataElement} {queueLength : Nat} {programType : ProgramType}
    {program : Bytes} (fit : e.LimitsFit)
    (compiled : compilePort e queueLength programType = ⟨some program, none⟩)
    (d : Decoder) (header : ProgramHeader) :
    (queueLength = 0 ∨ e.emittedSize % 2 ^ 32 ≠ 0 → ∃ d' isDynamic code,
      (d.selectProgram program).parseProgramHeader header =
        .ok () (d', headerOf programType (e.emittedSize % 2 ^ 32) queueLength isDynamic) ∧
      Codes code (e.emitted programType) ∧ d'.Before code ∧ d'.program = program ∧
      d'.programMark = none) ∧
    (queueLength ≠ 0 ∧ e.emittedSize % 2 ^ 32 = 0 → ∃ state,
      (d.selectProgram program).parseProgramHeader header = .fail (.code .parse) state) := by
  obtain ⟨c, size, fixed, compiledElement, encoded, rfl⟩ := compilePort_eq compiled
  obtain ⟨⟨code, emitted, codes⟩, size_eq⟩ := Compiler.compileElement_emits e fit compiledElement
  have bound : size < 2 ^ 32 := size_eq ▸ Nat.mod_lt _ (by decide)
  obtain ⟨good, bad⟩ := decodeHeader_encodeHeader c.program 0 header bound encoded
  rw [size_eq] at good bad
  have program_eq : c.program = code := emitted
  constructor
  · intro condition
    refine ⟨{ d.selectProgram (fixed ++ c.program) with programNext := fixed.length },
      c.hasDynamicData, code, ?_, codes, ⟨rfl, ?_, ?_⟩, rfl, rfl⟩
    · simp only [parseProgramHeader, selectProgram, good condition, Result.lift_ok]
    · simp [selectProgram]
    · simp [selectProgram, program_eq]
  · intro condition
    obtain ⟨state, failed⟩ := bad condition
    exact ⟨_, by simp only [parseProgramHeader, selectProgram, failed, Result.lift_fail]; rfl⟩

/-- From any decoder on, the program selects and its header and all of its bytes are decoded to
these operations. -/
def DecodesTo (program : Bytes) (ops : List Operation) : Prop :=
  ∀ (d : Decoder) (header : ProgramHeader), ∃ d₁ header₁ d₂,
    (d.selectProgram program).parseProgramHeader header = .ok () (d₁, header₁) ∧
    Parsed d₁ ops d₂ ∧ d₂.programNext = program.length

end Apx
