import Apx.PortPrograms
import Apx.ProgramFormat

/-! The size that a compiled program states, and which elements are compiled. -/

namespace Apx

open LittleEndian Vm Compiler

namespace DataElement

/-- The references in front of the first element that is none -/
def referenceCount : DataElement → Nat
  | .refPtr _ _ _ target => referenceCount target + 1
  | .leaf .. => 0
  | .record .. => 0
  | .refId .. => 0
  | .refName .. => 0

/-- The compiler knows the type, and where there are limits it is a type that can have them. -/
def ValidLeaf (code : LeafCode) (limits : Option Limits) : Prop :=
  leafInfo code ≠ none ∧ (limits ≠ none → code.limitable = true)

/-- A field that can be selected: its name has 1 to APX_MAX_NAME_LEN bytes, and behind it there are no more
references than can be followed. -/
def ValidField (e : DataElement) : Prop :=
  e.nameBytes ≠ [] ∧ e.nameBytes.length ≤ maxNameLen ∧ e.referenceCount ≤ maxTypeRefFollowCount + 1

mutual

/-- The compiler has no reason to refuse the tree other than its sizes. -/
def Valid : DataElement → Prop
  | .leaf _ code _ _ limits => ValidLeaf code limits
  | .record _ _ _ elements => elements ≠ [] ∧ ValidFields elements
  | .refPtr _ _ _ target => Valid target
  | .refId .. => False
  | .refName .. => False

def ValidFields : List DataElement → Prop
  | [] => True
  | child :: rest => ValidField child ∧ Valid child ∧ ValidFields rest

end

mutual

/-- Some field of a record in the tree, or the sum of the fields of some record, has a size that is zero
in an uint32_t. -/
def Vanishes : DataElement → Prop
  | .record _ _ _ elements => emittedSizes elements % 2 ^ 32 = 0 ∨ VanishesFields elements
  | .refPtr _ _ _ target => Vanishes target
  | .leaf .. => False
  | .refId .. => False
  | .refName .. => False

def VanishesFields : List DataElement → Prop
  | [] => False
  | child :: rest => emittedSize child % 2 ^ 32 = 0 ∨ Vanishes child ∨ VanishesFields rest

end

end DataElement

namespace Compiler

open DataElement

variable {programType : ProgramType}

theorem compileLimit_unsupported {code : LeafCode} {info : LeafInfo} (known : leafInfo code = some info)
    (unlimited : code.limitable = false) (c : Compiler) (limits : Limits) (isArray : Bool) :
    c.compileLimitInstruction limits info.isSignedType info.is64BitType isArray info.limitCheckVariant =
      .error (.code .unsupported) := by
  cases code <;> first
    | contradiction
    | (cases known; rfl)

theorem arrayDataSize_extent {size : Nat} (positive : size % 2 ^ 32 ≠ 0) (arrayLength : Nat) (isDynamic : Bool) :
    arrayDataSize (size % 2 ^ 32) arrayLength isDynamic = .ok (extent size arrayLength isDynamic % 2 ^ 32) := by
  obtain ⟨total, sized⟩ := arrayDataSize_ok (Nat.pos_of_ne_zero positive) arrayLength isDynamic
  rw [sized, arrayDataSize_eq sized]

theorem compileLeaf_valid (c : Compiler) {code : LeafCode} {limits : Option Limits} (valid : ValidLeaf code limits)
    (arrayLength : Nat) (isDynamic : Bool) :
    ∃ c', c.compileLeaf programType code arrayLength isDynamic limits =
      .ok (c', extent code.size arrayLength isDynamic % 2 ^ 32) := by
  obtain ⟨info, known⟩ := Option.ne_none_iff_exists'.mp valid.1
  obtain ⟨-, -, -, width, positive⟩ := leafInfo_eq known
  have small : code.size % 2 ^ 32 = code.size := by cases code <;> decide
  have sized := arrayDataSize_extent (small.symm ▸ Nat.ne_of_gt positive) arrayLength isDynamic
  rw [small] at sized
  unfold compileLeaf
  simp only [known, width, sized]
  cases limits with
  | none => exact ⟨_, rfl⟩
  | some limits =>
    obtain ⟨info', known', -, limit⟩ := leafInfo_limitable (valid.2 nofun)
    obtain rfl := Option.some.inj (known.symm.trans known')
    cases programType with
    | pack =>
      obtain ⟨c', checked⟩ := limit c limits (arrayLength > 0)
      exact ⟨_, by simp only [checked]; rfl⟩
    | unpack =>
      obtain ⟨c', checked⟩ := limit
        ((c.append [encodeInstruction (dataOpcode .unpack) info.dataVariant (arrayLength > 0)]).compileArray
          arrayLength isDynamic) limits (arrayLength > 0)
      exact ⟨_, by simp only [checked]; rfl⟩

theorem validLeaf_of_compileLeaf {c c' : Compiler} {code : LeafCode} {limits : Option Limits} {arrayLength size : Nat}
    {isDynamic : Bool} (compiled : c.compileLeaf programType code arrayLength isDynamic limits = .ok (c', size)) :
    ValidLeaf code limits := by
  unfold compileLeaf at compiled
  split at compiled
  · contradiction
  next info known =>
    refine ⟨known ▸ nofun, ?_⟩
    intro limited
    by_contra unlimited
    obtain ⟨l, rfl⟩ := Option.ne_none_iff_exists'.mp limited
    have refused := compileLimit_unsupported known (Bool.eq_false_of_not_eq_true unlimited)
    cases programType <;> simp [refused] at compiled

/-- The compiler comes to the element behind all references. -/
def Approach.Reaches : Approach → DataElement → Prop
  | .direct, e => e.referenceCount = 0
  | .derive, e => e.referenceCount ≤ maxTypeRefFollowCount + 1
  | .follow count, e => e.referenceCount = 0 ∨ count + e.referenceCount ≤ maxTypeRefFollowCount

theorem compileRecordSelect_valid (c : Compiler) {e : DataElement} (isLastField : Bool) (named : e.nameBytes ≠ [])
    (short : e.nameBytes.length ≤ maxNameLen) :
    ∃ c', c.compileRecordSelectInstruction e.getName isLastField = .ok c' := by
  unfold nameBytes at named short
  cases name : e.getName with
  | none => simp [name] at named
  | some name' =>
    simp only [name] at named short
    rw [compileRecordSelectInstruction, if_neg (fun empty => named (List.length_eq_zero_iff.mp empty)),
      if_neg (Nat.not_lt.mpr short)]
    exact ⟨_, rfl⟩

theorem nameBytes_of_compileRecordSelect {c c' : Compiler} {e : DataElement} {isLastField : Bool}
    (compiled : c.compileRecordSelectInstruction e.getName isLastField = .ok c') :
    e.nameBytes ≠ [] ∧ e.nameBytes.length ≤ maxNameLen := by
  refine ⟨(compileRecordSelect_emits compiled).2, ?_⟩
  cases named : e.getName with
  | none => simp [nameBytes, named]
  | some name =>
    rw [named, compileRecordSelectInstruction] at compiled
    simp only [nameBytes, named]
    split at compiled
    · contradiction
    · split at compiled
      · contradiction
      · next short => exact Nat.not_lt.mp short

/-- A valid tree of which no part vanishes is compiled, and the size that is returned is its size in an
uint32_t. -/
theorem compileElement_valid (e : DataElement) (approach : Approach) (c : Compiler) (reaches : approach.Reaches e)
    (valid : e.Valid) (visible : ¬e.Vanishes) :
    ∃ c', compileElement c programType approach e = .ok (c', e.emittedSize % 2 ^ 32) := by
  induction e using tree_induction generalizing approach c with
  | leaf name code arrayLen isDynamic limits =>
    rw [compileElement]
    exact compileLeaf_valid c valid arrayLen.toNat isDynamic
  | refId => exact valid.elim
  | refName => exact valid.elim
  | refPtr name arrayLen isDynamic target ih =>
    cases approach with
    | direct => exact absurd reaches (Nat.succ_ne_zero _)
    | derive =>
      rw [compileElement]
      refine ih (.follow 0) c (.inr ?_) valid visible
      rw [Approach.Reaches, referenceCount] at reaches
      omega
    | follow count =>
      have few : count + (target.referenceCount + 1) ≤ maxTypeRefFollowCount :=
        reaches.resolve_left (Nat.succ_ne_zero _)
      rw [compileElement, if_pos (by omega)]
      exact ih (.follow (count + 1)) c (.inr (by omega)) valid visible
  | record name arrayLen isDynamic elements ih =>
    -- the loop over the fields, from any size of the fields before
    have loop : ∀ (fields : List DataElement) (c : Compiler) (before : Nat), (∀ child ∈ fields, child ∈ elements) →
        before < 2 ^ 32 → ValidFields fields → ¬VanishesFields fields →
        ∃ c', compileRecordFields c programType before fields =
          .ok (c', (before + emittedSizes fields) % 2 ^ 32) := by
      intro fields
      induction fields with
      | nil =>
        intro c before _ bound _ _
        exact ⟨c, by rw [compileRecordFields, emittedSizes, Nat.add_zero, Nat.mod_eq_of_lt bound]⟩
      | cons child rest ihFields =>
        intro c before members bound valid visible
        obtain ⟨⟨named, short, few⟩, validChild, validRest⟩ := valid
        rw [VanishesFields, not_or, not_or] at visible
        obtain ⟨c₁, selected⟩ := compileRecordSelect_valid c rest.isEmpty named short
        obtain ⟨c₂, compiled⟩ := ih child (members child List.mem_cons_self) .derive c₁ few validChild visible.2.1
        obtain ⟨c', compiledRest⟩ := ihFields c₂ (u32 (before + child.emittedSize % 2 ^ 32))
          (fun x mem => members x (List.mem_cons_of_mem _ mem)) (u32_lt _) validRest visible.2.2
        refine ⟨c', ?_⟩
        simp only [compileRecordFields, selected, compiled, if_neg visible.1]
        rw [compiledRest, emittedSizes, u32]
        congr 2
        omega
    rw [Vanishes, not_or] at visible
    obtain ⟨nonempty, validFields⟩ := valid
    obtain ⟨c', compiled⟩ := loop elements (c.compileRecordBegin programType arrayLen.toNat isDynamic) 0
      (fun _ mem => mem) (by decide) validFields visible.2
    rw [Nat.zero_add] at compiled
    have sized := arrayDataSize_extent visible.1 arrayLen.toNat isDynamic
    have some_ : elements.isEmpty = false := by
      rw [List.isEmpty_eq_false_iff]
      exact nonempty
    rw [compileElement]
    simp only [some_, compiled, sized]
    exact ⟨_, rfl⟩

theorem valid_of_compileElement (e : DataElement) {approach : Approach} {c c' : Compiler} {size : Nat}
    (compiled : compileElement c programType approach e = .ok (c', size)) :
    approach.Reaches e ∧ e.Valid ∧ ¬e.Vanishes := by
  induction e using tree_induction generalizing approach c c' size with
  | leaf name code arrayLen isDynamic limits =>
    rw [compileElement] at compiled
    refine ⟨?_, validLeaf_of_compileLeaf compiled, id⟩
    cases approach with
    | direct => rfl
    | derive => exact Nat.zero_le _
    | follow => exact .inl rfl
  | refId => cases approach <;> simp [compileElement] at compiled
  | refName => cases approach <;> simp [compileElement] at compiled
  | refPtr name arrayLen isDynamic target ih =>
    cases approach with
    | direct => simp [compileElement] at compiled
    | derive =>
      rw [compileElement] at compiled
      obtain ⟨reaches, valid⟩ := ih compiled
      refine ⟨?_, valid⟩
      change target.referenceCount = 0 ∨ 0 + target.referenceCount ≤ maxTypeRefFollowCount at reaches
      change target.referenceCount + 1 ≤ maxTypeRefFollowCount + 1
      omega
    | follow count =>
      rw [compileElement] at compiled
      split at compiled
      · next more =>
        obtain ⟨reaches, valid⟩ := ih compiled
        refine ⟨.inr ?_, valid⟩
        change target.referenceCount = 0 ∨ count + 1 + target.referenceCount ≤ maxTypeRefFollowCount at reaches
        rw [referenceCount]
        omega
      · contradiction
  | record name arrayLen isDynamic elements ih =>
    have loop : ∀ (fields : List DataElement) (c c' : Compiler) (before size : Nat),
        (∀ child ∈ fields, child ∈ elements) → before < 2 ^ 32 →
        compileRecordFields c programType before fields = .ok (c', size) →
        ValidFields fields ∧ ¬VanishesFields fields ∧ size = (before + emittedSizes fields) % 2 ^ 32 := by
      intro fields
      induction fields with
      | nil =>
        intro c c' before size _ bound compiled
        cases compiled
        exact ⟨trivial, id, by rw [emittedSizes, Nat.add_zero, Nat.mod_eq_of_lt bound]⟩
      | cons child rest ihFields =>
        intro c c' before size members bound compiled
        rw [compileRecordFields] at compiled
        split at compiled
        · contradiction
        next c₁ selected =>
        split at compiled
        · contradiction
        next c₂ childSize compiledChild =>
        split at compiled
        · contradiction
        next positive =>
        obtain ⟨few, validChild, visibleChild⟩ := ih child (members child List.mem_cons_self) compiledChild
        obtain ⟨_, again⟩ := @compileElement_valid programType child .derive c₁ few validChild visibleChild
        obtain ⟨rfl, rfl⟩ := Prod.mk.inj (Except.ok.inj (compiledChild.symm.trans again))
        obtain ⟨validRest, visibleRest, total⟩ := ihFields c₂ c' _ size
          (fun x mem => members x (List.mem_cons_of_mem _ mem)) (u32_lt _) compiled
        obtain ⟨named, short⟩ := nameBytes_of_compileRecordSelect selected
        refine ⟨⟨⟨named, short, few⟩, validChild, validRest⟩, ?_, ?_⟩
        · rw [VanishesFields, not_or, not_or]
          exact ⟨positive, visibleChild, visibleRest⟩
        · rw [total, emittedSizes, u32]
          omega
    rw [compileElement] at compiled
    simp only at compiled
    split at compiled
    · contradiction
    next nonempty =>
    split at compiled
    · contradiction
    next c₁ recordSize compiledFields =>
    split at compiled
    · contradiction
    next total sized =>
    obtain ⟨validFields, visibleFields, recordSize_eq⟩ := loop elements _ c₁ 0 recordSize (fun _ mem => mem)
      (by decide) compiledFields
    rw [Nat.zero_add] at recordSize_eq
    refine ⟨?_, ⟨by simpa using nonempty, validFields⟩, ?_⟩
    · cases approach with
      | direct => rfl
      | derive => exact Nat.zero_le _
      | follow => exact .inl rfl
    · rw [Vanishes, not_or]
      refine ⟨?_, visibleFields⟩
      intro zero
      rw [recordSize_eq, zero] at sized
      contradiction

end Compiler

namespace DataElement

theorem Valid.complete {e : DataElement} (valid : e.Valid) : e.Complete := by
  induction e using tree_induction with
  | leaf => exact valid.1
  | record name arrayLen isDynamic elements ih =>
    obtain ⟨nonempty, each⟩ := valid
    refine ⟨nonempty, ?_⟩
    clear nonempty arrayLen
    induction elements with
    | nil => trivial
    | cons child rest ihRest =>
      exact ⟨each.1.1, ih child List.mem_cons_self each.2.1,
        ihRest (fun x mem => ih x (List.mem_cons_of_mem _ mem)) each.2.2⟩
  | refPtr name arrayLen isDynamic target ih => exact ih valid
  | refId => exact valid.elim
  | refName => exact valid.elim

theorem validFields_iff (elements : List DataElement) :
    ValidFields elements ↔ ∀ child ∈ elements, child.ValidField ∧ child.Valid := by
  induction elements with
  | nil => exact iff_of_true trivial nofun
  | cons child rest ih => rw [ValidFields, ih, List.forall_mem_cons, and_assoc]

theorem vanishesFields_iff (elements : List DataElement) :
    VanishesFields elements ↔ ∃ child ∈ elements, child.emittedSize % 2 ^ 32 = 0 ∨ child.Vanishes := by
  induction elements with
  | nil => simp [VanishesFields]
  | cons child rest ih => rw [VanishesFields, ih, List.exists_mem_cons_iff, or_assoc]

/-- No size vanishes in a tree whose own size needs no more than 32 bits. -/
theorem visible_of_small {e : DataElement} (valid : e.Valid) (small : e.emittedSize < 2 ^ 32) : ¬e.Vanishes := by
  induction e using tree_induction with
  | leaf => exact id
  | record name arrayLen isDynamic elements ih =>
    obtain ⟨nonempty, validFields⟩ := valid
    have each := (validFields_iff elements).mp validFields
    have sum : emittedSizes elements < 2 ^ 32 := Nat.lt_of_le_of_lt (le_extent _ _ _) small
    have childSmall {child : DataElement} (mem : child ∈ elements) : child.emittedSize < 2 ^ 32 :=
      Nat.lt_of_le_of_lt (emittedSize_le_emittedSizes mem) sum
    rw [Vanishes, not_or, vanishesFields_iff]
    constructor
    · obtain ⟨child, mem⟩ := List.exists_mem_of_ne_nil elements nonempty
      have positive := emittedSize_pos (each child mem).2.complete
      have atLeast := emittedSize_le_emittedSizes mem
      rw [Nat.mod_eq_of_lt sum]
      omega
    · rintro ⟨child, mem, zero | vanishes⟩
      · have positive := emittedSize_pos (each child mem).2.complete
        rw [Nat.mod_eq_of_lt (childSmall mem)] at zero
        omega
      · exact ih child mem (each child mem).2 (childSmall mem) vanishes
  | refPtr name arrayLen isDynamic target ih => exact ih valid small
  | refId => exact id
  | refName => exact id

/-! Flattening changes neither -/

theorem referenceCount_clone (e : DataElement) : e.clone.referenceCount = e.referenceCount := by
  cases e <;> rfl

theorem valid_clone_iff (e : DataElement) : e.clone.Valid ↔ e.Valid := by
  induction e using tree_induction with
  | leaf name code arrayLen isDynamic limits =>
    simp only [clone, Valid, ValidLeaf, ne_eq, Option.map_eq_none_iff]
  | record name arrayLen isDynamic elements ih =>
    rw [clone, cloneAll_eq, Valid, Valid, validFields_iff, validFields_iff, List.forall_mem_map, ne_eq, ne_eq,
      List.map_eq_nil_iff]
    refine and_congr_right fun _ => forall₂_congr fun child mem => ?_
    rw [ValidField, ValidField, nameBytes_clone, referenceCount_clone, ih child mem]
  | refId | refName | refPtr => exact Iff.rfl

theorem vanishes_clone_iff (e : DataElement) : e.clone.Vanishes ↔ e.Vanishes := by
  induction e using tree_induction with
  | leaf => exact Iff.rfl
  | record name arrayLen isDynamic elements ih =>
    have sizes : emittedSizes (elements.map clone) = emittedSizes elements := by
      rw [emittedSizes_eq, emittedSizes_eq, List.map_map]
      exact congrArg List.sum (List.map_congr_left fun child _ => emittedSize_clone child)
    rw [clone, cloneAll_eq, Vanishes, Vanishes, sizes, vanishesFields_iff, vanishesFields_iff]
    apply or_congr_right
    simp only [List.mem_map, exists_exists_and_eq_and, emittedSize_clone]
    exact exists_congr fun child => and_congr_right fun mem => or_congr_right (ih child mem)
  | refId | refName | refPtr => exact Iff.rfl

/-- The array suffix at the root of a tree has no part in either. -/
theorem valid_flattened (e : DataElement) :
    (e.flattened.Valid ↔ e.Valid) ∧ (e.flattened.Vanishes ↔ e.Vanishes) := by
  induction e using tree_induction with
  | leaf | record | refId | refName => exact ⟨Iff.rfl, Iff.rfl⟩
  | refPtr name arrayLen isDynamic target ih =>
    rw [flattened]
    split
    · exact ih
    · split
      · exact ⟨Iff.rfl, Iff.rfl⟩
      · cases target <;> exact ⟨Iff.rfl, Iff.rfl⟩

theorem referenceCount_flat {e : DataElement} (concrete : e.getTypeCode ≠ .refPtr) : e.referenceCount = 0 := by
  cases e <;> first | rfl | exact absurd rfl concrete

end DataElement

open DataElement

/-- The mathematically exact number of bytes of the data of a port -/
def exactSize (e : DataElement) (queueLength : Nat) : Nat := queuedSize e.layoutSize queueLength

/-- A size of up to 32 bits is the one that the header states, and for any other one the compiler returns no
program and an error. -/
def SizeExact (programType : ProgramType) (e : DataElement) (queueLength : Nat) : Prop :=
  ∀ flat, e.flatten = .ok flat →
    (exactSize e queueLength ≤ uint32Max → e.Valid →
      ∃ program, compilePort flat queueLength programType = ⟨some program, none⟩ ∧
        ∃ next header, decodeHeader program 0 {} = .ok () (next, header) ∧
          header.dataSize = exactSize e queueLength) ∧
    (uint32Max < exactSize e queueLength →
      ∃ failure, compilePort flat queueLength programType = ⟨none, some failure⟩)

theorem le_queuedSize (elementSize queueLength : Nat) : elementSize ≤ queuedSize elementSize queueLength := by
  unfold queuedSize
  split
  · exact Nat.le_refl _
  · next queued =>
    have once := Nat.le_mul_of_pos_right elementSize (Nat.pos_of_ne_zero queued)
    omega

theorem queuedSize_strictMono (queueLength : Nat) : StrictMono fun elementSize => queuedSize elementSize queueLength := by
  intro size other less
  simp only [queuedSize]
  split
  · exact less
  · next queued => exact Nat.add_lt_add_left (Nat.mul_lt_mul_of_pos_right less (Nat.pos_of_ne_zero queued)) _

/-- What is valid and not too large is compiled, and its header states its size. -/
theorem compilePort_small {programType : ProgramType} {flat : DataElement} {queueLength : Nat}
    (small : queuedSize flat.emittedSize queueLength ≤ uint32Max) (concrete : flat.referenceCount = 0)
    (valid : flat.Valid) :
    ∃ program, compilePort flat queueLength programType = ⟨some program, none⟩ ∧
      ∃ next header, decodeHeader program 0 {} = .ok () (next, header) ∧
        header.dataSize = queuedSize flat.emittedSize queueLength := by
  have bound : flat.emittedSize < 2 ^ 32 := by
    have atLeast := (le_queuedSize flat.emittedSize queueLength).trans small
    exact Nat.lt_succ_of_le atLeast
  obtain ⟨c, compiled⟩ :=
    @compileElement_valid programType flat .direct {} concrete valid (visible_of_small valid bound)
  rw [Nat.mod_eq_of_lt bound] at compiled
  have positive := emittedSize_pos valid.complete
  cases encoded : encodeHeader programType flat.emittedSize queueLength c.hasDynamicData with
  | error failure =>
    have large := encodeHeader_error encoded
    rw [queuedSize] at small
    split at small
    · next single =>
      subst single
      simp [encodeHeader] at encoded
    · exact absurd large (Nat.not_lt.mpr small)
  | ok header =>
    have decoded := (decodeHeader_encodeHeader c.program 0 {} bound encoded).1 (.inr (by omega))
    refine ⟨header ++ c.program, ?_, _, _, decoded, headerDataSize_eq _ _⟩
    rw [compilePort, compileDataElement, compiled]
    simp only [encoded]

/-- What the compiler accepts gets a program, even where the header cannot be written. -/
theorem compilePort_program {programType : ProgramType} {e : DataElement} (queueLength : Nat)
    (concrete : e.referenceCount = 0) (valid : e.Valid) (visible : ¬e.Vanishes) :
    (compilePort e queueLength programType).program ≠ none := by
  obtain ⟨c, compiled⟩ := @compileElement_valid programType e .direct {} concrete valid visible
  rw [compilePort, compileDataElement, compiled]
  dsimp only
  split <;> exact Option.some_ne_none _

theorem compilePort_refused {programType : ProgramType} {e : DataElement} (queueLength : Nat)
    (refused : ¬(e.referenceCount = 0 ∧ e.Valid ∧ ¬e.Vanishes)) :
    ∃ failure, compilePort e queueLength programType = ⟨none, some failure⟩ := by
  rw [compilePort, compileDataElement]
  cases compiled : compileElement {} programType .direct e with
  | error failure => exact ⟨failure, rfl⟩
  | ok result => exact absurd (valid_of_compileElement e compiled) refused

/-- The stated size of a port is exact if and only if the port cannot be flattened, or its tree is not valid, or
some part of it vanishes, or its size needs no more than 32 bits and no array suffix was passed over but those of
one element. -/
theorem sizeExact_iff (programType : ProgramType) (e : DataElement) (queueLength : Nat) :
    SizeExact programType e queueLength ↔
      (∀ flat, e.flatten ≠ .ok flat) ∨ ¬e.Valid ∨ e.Vanishes ∨
        exactSize e queueLength ≤ uint32Max ∧ e.PortSkipsOnly OneElement := by
  cases flatten : e.flatten with
  | error failure =>
    refine iff_of_true ?_ (.inl nofun)
    intro flat flatten'
    rw [flatten] at flatten'
    contradiction
  | ok flat =>
  obtain ⟨is, once, notReference⟩ := flatten_eq flatten
  have concrete : flat.referenceCount = 0 := by
    rw [is, referenceCount_clone]
    exact referenceCount_flat notReference
  have validIff : flat.Valid ↔ e.Valid := is ▸ (valid_clone_iff _).trans e.valid_flattened.1
  have vanishesIff : flat.Vanishes ↔ e.Vanishes := is ▸ (vanishes_clone_iff _).trans e.valid_flattened.2
  constructor
  · intro exact_
    obtain ⟨small, large⟩ := exact_ flat flatten
    by_contra condition
    simp only [not_or, not_and, not_not] at condition
    obtain ⟨-, valid, visible, wrong⟩ := condition
    have flatValid := validIff.mpr valid
    rcases Nat.lt_or_ge uint32Max (exactSize e queueLength) with wide | fits
    · obtain ⟨failure, compiled⟩ := large wide
      have program := @compilePort_program programType flat queueLength concrete flatValid (vanishesIff.not.mpr visible)
      rw [compiled] at program
      exact program rfl
    · obtain ⟨le, same⟩ := emittedSize_flat flatten flatValid.complete
      have flatFits : queuedSize flat.emittedSize queueLength ≤ uint32Max :=
        ((queuedSize_strictMono queueLength).monotone le).trans fits
      -- the header states the size of what was compiled
      obtain ⟨program, compiled, next, header, decoded, stated⟩ := small fits valid
      obtain ⟨program', compiled', next', header', decoded', stated'⟩ :=
        @compilePort_small programType _ _ flatFits concrete flatValid
      rw [compiled] at compiled'
      cases compiled'
      rw [decoded] at decoded'
      cases decoded'
      have equal : flat.emittedSize = e.layoutSize :=
        (queuedSize_strictMono queueLength).injective (stated'.symm.trans stated)
      exact wrong fits (same.mp equal)
  · intro condition flat' flatten'
    cases flatten.symm.trans flatten'
    constructor
    · intro small valid
      have flatValid := validIff.mpr valid
      obtain ⟨le, same⟩ := emittedSize_flat flatten flatValid.complete
      have bound : flat.emittedSize < 2 ^ 32 :=
        Nat.lt_succ_of_le ((le.trans (le_queuedSize e.layoutSize queueLength)).trans small)
      have visible := visible_of_small flatValid bound
      rcases condition with never | invalid | vanishes | ⟨-, skips⟩
      · exact absurd rfl (never flat)
      · exact absurd valid invalid
      · exact absurd (vanishesIff.mpr vanishes) visible
      · rw [exactSize, ← same.mpr skips] at small ⊢
        exact compilePort_small small concrete flatValid
    · intro wide
      apply compilePort_refused
      rintro ⟨-, valid, visible⟩
      rcases condition with never | invalid | vanishes | ⟨small, -⟩
      · exact never flat rfl
      · exact invalid (validIff.mp valid)
      · exact visible (vanishesIff.mpr vanishes)
      · exact absurd wide (Nat.not_lt.mpr small)

/-- The program of an array of 2 ^ 31 numbers of two bytes states a size of zero, an error comes with an empty
program for a queue of 2 ^ 31 of them, and the program of the port type {"a"T[0][3]}, where T[0] is C, states a size
of one. -/
theorem not_sizeExact :
    ¬SizeExact .pack (.leaf none .uint16 2147483648 false none) 0 ∧
      ¬SizeExact .pack (.leaf none .uint16 0 false none) (2 ^ 31) ∧
      ¬SizeExact .pack (.record none 0 false [.refPtr (some .a) 3 false (.leaf none .uint8 0 false none)]) 0 := by
  have valid : ValidLeaf .uint16 none := ⟨nofun, fun limited => absurd rfl limited⟩
  refine ⟨?_, ?_, ?_⟩
  · intro exact_
    obtain ⟨failure, compiled⟩ := (exact_ (.leaf none .uint16 2147483648 false none) rfl).2 (by decide)
    have program := @compilePort_program .pack (.leaf none .uint16 2147483648 false none) 0 rfl valid id
    rw [compiled] at program
    exact program rfl
  · intro exact_
    obtain ⟨failure, compiled⟩ := (exact_ (.leaf none .uint16 0 false none) rfl).2 (by decide)
    have program := @compilePort_program .pack (.leaf none .uint16 0 false none) (2 ^ 31) rfl valid id
    rw [compiled] at program
    exact program rfl
  · intro exact_
    obtain ⟨program, compiled, next, header, decoded, stated⟩ := (exact_ _ rfl).1 (by decide)
      ⟨nofun, ⟨by decide, by decide, by decide⟩, ⟨nofun, fun limited => absurd rfl limited⟩, trivial⟩
    cases compiled
    cases decoded
    exact absurd stated (by decide)

end Apx
