import Apx.CompilerCorrect
import Apx.SignatureGrammar

/-! The limits that a program checks, and those that its data element states. -/

namespace Apx

open LittleEndian Vm Decoder

/-! The operations of a program are determined by its bytes. -/

theorem Decoder.Parsed.unique {d d' d'' : Decoder} {ops ops' : List Operation} (first : Parsed d ops d')
    (second : Parsed d ops' d'') : ops = ops' := by
  induction first generalizing ops' with
  | programEnd parse =>
    cases second with
    | programEnd => rfl
    | operation parse' =>
      have same := (Result.ok.inj (parse'.symm.trans parse)).1
      exact absurd same (Operation.type_ne_programEnd _)
  | operation parse same rest ih =>
    cases second with
    | programEnd parse' =>
      have same := (Result.ok.inj (parse.symm.trans parse')).1
      exact absurd same (Operation.type_ne_programEnd _)
    | operation parse' same' rest' =>
      obtain ⟨type, rfl⟩ := Result.ok.inj (parse.symm.trans parse')
      rw [← type, same] at same'
      rw [Option.some.inj same', ih rest']

theorem Decoder.Codes.unique {bytes : Bytes} {ops ops' : List Operation} (codes : Codes bytes ops)
    (codes' : Codes bytes ops') : ops = ops' := by
  let d : Decoder := { program := bytes, hasProgram := true, programNext := 0 }
  have before : Before d bytes := ⟨rfl, Nat.zero_le _, rfl⟩
  obtain ⟨_, parsed, -⟩ := codes.parsed before
  obtain ⟨_, parsed', -⟩ := codes'.parsed before
  exact parsed.unique parsed'

namespace Compiler

end Compiler

/-! What is left of limits in a program -/

/-- The limits as the compiler writes them: of each as many low bits as the type has. -/
def Limits.narrow (limits : Limits) : LeafCode → Limits
  | .uint8 | .byte => ⟨(limits.lower.setWidth 8).setWidth 64, (limits.upper.setWidth 8).setWidth 64⟩
  | .uint16 => ⟨(limits.lower.setWidth 16).setWidth 64, (limits.upper.setWidth 16).setWidth 64⟩
  | .int8 => ⟨(limits.lower.setWidth 8).signExtend 64, (limits.upper.setWidth 8).signExtend 64⟩
  | .int16 => ⟨(limits.lower.setWidth 16).signExtend 64, (limits.upper.setWidth 16).signExtend 64⟩
  | _ => limits

/-- Of a number that was extended, the low bits are extended again. -/
theorem setWidth_signExtended (x : BitVec 64) {w : Nat} :
    ((x.setWidth w).signExtend 64).setWidth 32 = (x.setWidth w).signExtend 32 := by
  ext i inside
  rw [BitVec.getElem_setWidth, BitVec.getLsbD_signExtend, BitVec.getElem_signExtend]
  by_cases low : i < w <;> simp [low, show i < 64 by omega]

theorem Limits.fit_narrow (limits : Limits) (code : LeafCode) : (limits.narrow code).Fit code := by
  have unsigned {w : Nat} (small : w ≤ 32) (x : BitVec 64) :
      (((x.setWidth w).setWidth 64).setWidth 32).toNat < 2 ^ w := by
    have low := (x.setWidth w).isLt
    simp only [BitVec.toNat_setWidth]
    calc _ ≤ x.toNat % 2 ^ w % 2 ^ 64 := Nat.mod_le _ _
      _ ≤ x.toNat % 2 ^ w := Nat.mod_le _ _
      _ < 2 ^ w := Nat.mod_lt _ (Nat.two_pow_pos w)
  have range {w : Nat} (small : w + 1 ≤ 32) (x : BitVec (w + 1)) :
      -2 ^ w ≤ (x.signExtend 32).toInt ∧ (x.signExtend 32).toInt < 2 ^ w := by
    rw [BitVec.toInt_signExtend_of_le small]
    have low := BitVec.le_toInt x
    have high := BitVec.toInt_lt (x := x)
    simpa using And.intro low high
  cases code with
  | uint8 => exact ⟨unsigned (by decide) _, unsigned (by decide) _⟩
  | byte => exact ⟨unsigned (by decide) _, unsigned (by decide) _⟩
  | uint16 => exact ⟨unsigned (by decide) _, unsigned (by decide) _⟩
  | int8 =>
    simp only [narrow, Fit, DataElement.limitsInt32, setWidth_signExtended]
    exact ⟨range (by decide) _, range (by decide) _⟩
  | int16 =>
    simp only [narrow, Fit, DataElement.limitsInt32, setWidth_signExtended]
    exact ⟨range (by decide) _, range (by decide) _⟩
  | _ => trivial

theorem Limits.fit_of_limitCheck {limits limits' : Limits} {code : LeafCode}
    (same : limitCheck code limits = limitCheck code limits') (fit : limits.Fit code) : limits'.Fit code := by
  cases code <;> simp_all [limitCheck, Limits.Fit]

/-- The check of what is left is the declared one for numbers of the type, and only for these. -/
theorem Limits.limitCheck_narrow_iff (limits : Limits) (code : LeafCode) :
    limitCheck code (limits.narrow code) = limitCheck code limits ↔ limits.Fit code := by
  have unsigned {w : Nat} (x : BitVec 64) (small : w ≤ 32) (fits : (x.setWidth 32).toNat < 2 ^ w) :
      ((x.setWidth w).setWidth 64).setWidth 32 = x.setWidth 32 := by
    apply BitVec.eq_of_toNat_eq
    simp only [BitVec.toNat_setWidth] at fits ⊢
    have low : x.toNat % 2 ^ w = x.toNat % 2 ^ 32 := by
      rw [← Nat.mod_mod_of_dvd x.toNat (Nat.pow_dvd_pow 2 small), Nat.mod_eq_of_lt fits]
    rw [low]
    omega
  have signed {w : Nat} (x : BitVec 64) (small : w + 1 ≤ 32) (low : -2 ^ w ≤ (x.setWidth 32).toInt)
      (high : (x.setWidth 32).toInt < 2 ^ w) :
      ((x.setWidth (w + 1)).signExtend 64).setWidth 32 = x.setWidth 32 := by
    have cut : BitVec.ofNat (w + 1) ((x.setWidth 32).toNat % 2 ^ (w + 1)) = x.setWidth (w + 1) := by
      apply BitVec.eq_of_toNat_eq
      simp only [BitVec.toNat_ofNat, BitVec.toNat_setWidth, Nat.mod_mod]
      exact Nat.mod_mod_of_dvd x.toNat (Nat.pow_dvd_pow 2 small)
    rw [setWidth_signExtended, ← cut]
    exact signExtend_ofNat small low high
  constructor
  · exact fun same => Limits.fit_of_limitCheck same (limits.fit_narrow code)
  · intro fit
    cases code with
    | uint8 | byte =>
      simp only [limitCheck, narrow, DataElement.limitsUInt32]
      rw [unsigned _ (by decide) fit.1, unsigned _ (by decide) fit.2]
    | uint16 =>
      simp only [limitCheck, narrow, DataElement.limitsUInt32]
      rw [unsigned _ (by decide) fit.1, unsigned _ (by decide) fit.2]
    | int8 =>
      simp only [limitCheck, narrow, DataElement.limitsInt32]
      rw [signed _ (by decide) fit.1.1 fit.1.2, signed _ (by decide) fit.2.1 fit.2.2]
    | int16 =>
      simp only [limitCheck, narrow, DataElement.limitsInt32]
      rw [signed _ (by decide) fit.1.1 fit.1.2, signed _ (by decide) fit.2.1 fit.2.2]
    | _ => rfl

/-- Limits with the same low bits are written as the same bytes. -/
theorem packLE_low {w size : Nat} (bits : 2 ^ w = 256 ^ size) {x y : BitVec 32}
    (same : x.setWidth w = y.setWidth w) : packLE x.toNat size = packLE y.toNat size := by
  have low := congrArg BitVec.toNat same
  rw [BitVec.toNat_setWidth, BitVec.toNat_setWidth, bits] at low
  rw [← packLE_mod x.toNat, low, packLE_mod]

theorem Compiler.compileLimitInstruction_narrow (c : Compiler) (limits : Limits) {code : LeafCode}
    {info : LeafInfo} (known : leafInfo code = some info) (isArray : Bool) :
    c.compileLimitInstruction (limits.narrow code) info.isSignedType info.is64BitType isArray
        info.limitCheckVariant =
      c.compileLimitInstruction limits info.isSignedType info.is64BitType isArray
        info.limitCheckVariant := by
  have unsigned {w : Nat} (small : w ≤ 32) (x : BitVec 64) :
      (((x.setWidth w).setWidth 64).setWidth 32).setWidth w = (x.setWidth 32).setWidth w := by
    apply BitVec.eq_of_getLsbD_eq
    intro i inside
    simp only [BitVec.getLsbD_setWidth]
    simp [inside, show i < 32 by omega, show i < 64 by omega]
  have signed {w : Nat} (small : w ≤ 32) (x : BitVec 64) :
      (((x.setWidth w).signExtend 64).setWidth 32).setWidth w = (x.setWidth 32).setWidth w := by
    apply BitVec.eq_of_getLsbD_eq
    intro i inside
    simp only [BitVec.getLsbD_setWidth, BitVec.getLsbD_signExtend]
    simp [inside, show i < 32 by omega, show i < 64 by omega]
  -- only the bytes of the two limits depend on them
  have same {size : Nat} {narrowed limits : BitVec 32 × BitVec 32} (c : Compiler)
      (lower : packLE narrowed.1.toNat size = packLE limits.1.toNat size)
      (upper : packLE narrowed.2.toNat size = packLE limits.2.toNat size) :
      c.compileLimitValues (some size) narrowed = c.compileLimitValues (some size) limits := by
    rw [compileLimitValues, compileLimitValues, lower, upper]
  cases code with
  | uint8 | byte =>
    cases known
    exact same _ (packLE_low (w := 8) rfl (unsigned (by decide) _))
      (packLE_low (w := 8) rfl (unsigned (by decide) _))
  | uint16 =>
    cases known
    exact same _ (packLE_low (w := 16) rfl (unsigned (by decide) _))
      (packLE_low (w := 16) rfl (unsigned (by decide) _))
  | int8 =>
    cases known
    exact same _ (packLE_low (w := 8) rfl (signed (by decide) _))
      (packLE_low (w := 8) rfl (signed (by decide) _))
  | int16 =>
    cases known
    exact same _ (packLE_low (w := 16) rfl (signed (by decide) _))
      (packLE_low (w := 16) rfl (signed (by decide) _))
  | _ => rfl

namespace DataElement

mutual

/-- The data element that the compiler writes. -/
def narrow : DataElement → DataElement
  | .leaf name code arrayLen isDynamic limits =>
      .leaf name code arrayLen isDynamic (limits.map fun l => l.narrow code)
  | .record name arrayLen isDynamic elements => .record name arrayLen isDynamic (narrowAll elements)
  | .refId name arrayLen isDynamic id => .refId name arrayLen isDynamic id
  | .refName name arrayLen isDynamic typeName => .refName name arrayLen isDynamic typeName
  | .refPtr name arrayLen isDynamic target => .refPtr name arrayLen isDynamic (narrow target)

def narrowAll : List DataElement → List DataElement
  | [] => []
  | child :: rest => narrow child :: narrowAll rest

end

theorem narrowAll_eq (elements : List DataElement) : narrowAll elements = elements.map narrow := by
  induction elements with
  | nil => rfl
  | cons head tail ih => rw [narrowAll, ih, List.map_cons]

theorem getName_narrow (e : DataElement) : e.narrow.getName = e.getName := by
  cases e <;> rfl

theorem limitsFit_narrow (e : DataElement) : e.narrow.LimitsFit := by
  induction e using tree_induction with
  | leaf name code arrayLen isDynamic limits =>
    intro l mem
    obtain ⟨l, _, rfl⟩ := Option.map_eq_some_iff.mp mem
    exact l.fit_narrow code
  | record name arrayLen isDynamic elements ih =>
    rw [narrow, narrowAll_eq, LimitsFit]
    clear arrayLen
    induction elements with
    | nil => trivial
    | cons head tail ihTail =>
      exact ⟨ih head List.mem_cons_self,
        ihTail fun child mem => ih child (List.mem_cons_of_mem _ mem)⟩
  | refId => trivial
  | refName => trivial
  | refPtr name arrayLen isDynamic target ih => exact ih

end DataElement

namespace Compiler

theorem compileLeaf_narrow (c : Compiler) (programType : ProgramType) (code : LeafCode)
    (arrayLength : Nat) (isDynamic : Bool) (limits : Option Limits) :
    c.compileLeaf programType code arrayLength isDynamic (limits.map fun l => l.narrow code) =
      c.compileLeaf programType code arrayLength isDynamic limits := by
  unfold compileLeaf
  cases known : leafInfo code with
  | none => rfl
  | some info =>
    cases limits with
    | none => rfl
    | some limits =>
      have same (c : Compiler) := c.compileLimitInstruction_narrow limits known (arrayLength > 0)
      cases programType <;> simp only [Option.map_some, same]

/-- The compiler does not tell a data element from the one that it writes. -/
theorem compileElement_narrow (programType : ProgramType) (e : DataElement) (c : Compiler)
    (approach : Approach) :
    compileElement c programType approach e.narrow = compileElement c programType approach e := by
  induction e using DataElement.tree_induction generalizing c approach with
  | leaf name code arrayLen isDynamic limits =>
    rw [DataElement.narrow]
    cases approach <;> exact compileLeaf_narrow c programType code _ isDynamic limits
  | record name arrayLen isDynamic elements ih =>
    have fields (c : Compiler) (size : Nat) :
        compileRecordFields c programType size (elements.map DataElement.narrow) =
          compileRecordFields c programType size elements := by
      clear arrayLen
      induction elements generalizing c size with
      | nil => rfl
      | cons head tail ihTail =>
        have child := fun c => ih head List.mem_cons_self c .derive
        have rest := ihTail fun child mem => ih child (List.mem_cons_of_mem _ mem)
        simp only [List.map_cons, compileRecordFields, DataElement.getName_narrow, List.isEmpty_map,
          child, rest]
    rw [DataElement.narrow, DataElement.narrowAll_eq]
    cases approach <;> simp only [compileElement, List.isEmpty_map, fields]
  | refId => rfl
  | refName => rfl
  | refPtr name arrayLen isDynamic target ih =>
    rw [DataElement.narrow]
    cases approach <;> simp only [compileElement, ih]

end Compiler

theorem DataElement.emittedSize_narrow (e : DataElement) : e.narrow.emittedSize = e.emittedSize := by
  induction e using tree_induction with
  | leaf => rfl
  | record name n d elements ih =>
    have fields : emittedSizes (narrowAll elements) = emittedSizes elements := by
      induction elements with
      | nil => rfl
      | cons child rest ihRest =>
        rw [narrowAll, emittedSizes, emittedSizes, ih child List.mem_cons_self,
          ihRest fun other mem => ih other (List.mem_cons_of_mem _ mem)]
    rw [narrow, emittedSize, emittedSize, fields]
  | refId => rfl
  | refName => rfl
  | refPtr name n d target ih => exact ih

theorem compilePort_narrow (e : DataElement) (queueLength : Nat) (programType : ProgramType) :
    compilePort e.narrow queueLength programType = compilePort e queueLength programType := by
  rw [compilePort, compilePort, Compiler.compileDataElement, Compiler.compileDataElement,
    Compiler.compileElement_narrow]

namespace Compiler

theorem leafInfo_limitable {code : LeafCode} (limitable : code.limitable = true) :
    ∃ info, leafInfo code = some info ∧ 0 < info.dataSize ∧
      ∀ (c : Compiler) (limits : Limits) (isArray : Bool), ∃ c',
        c.compileLimitInstruction limits info.isSignedType info.is64BitType isArray info.limitCheckVariant = .ok c' := by
  cases code <;> first
    | contradiction
    | exact ⟨_, rfl, by decide, fun c limits isArray => ⟨_, rfl⟩⟩

theorem arrayDataSize_ok {size : Nat} (positive : 0 < size) (arrayLength : Nat) (isDynamic : Bool) :
    ∃ total, arrayDataSize size arrayLength isDynamic = .ok total := by
  rw [arrayDataSize, if_pos positive]
  dsimp only
  split
  · split <;> exact ⟨_, rfl⟩
  · exact ⟨_, rfl⟩

end Compiler

end Apx
