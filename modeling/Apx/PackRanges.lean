import Apx.PackLayout
import Apx.CompiledSize

/-! Which integers a compiled pack program accepts. -/

namespace Apx

open LittleEndian Vm DataElement

/-- The numbers of an element of an integer type, whose limits are numbers of that type -/
def IntegerValue : LeafCondition := fun code arrayLen isDynamic limits value =>
  code.isInteger = true ∧ LimitsOf code limits ∧ LeafNumbers code arrayLen isDynamic value (code.numbers value)

/-- Every number lies between the limits of its element, or else in the range of its type. -/
def AcceptsAll : LeafCondition := fun code _ _ limits value => ∀ x ∈ code.numbers value, Accepts code limits x

theorem LeafCode.isNumber_of_isInteger {code : LeafCode} (isInteger : code.isInteger = true) :
    code.isNumber = true := by
  cases code <;> first | contradiction | rfl

theorem limitsFit_of_shaped {e : DataElement} {value : Dv} (shaped : e.Shaped IntegerValue value) : e.LimitsFit := by
  induction e using tree_induction generalizing value with
  | leaf name code arrayLen isDynamic limits => exact fun l mem => (shaped.2.1 l mem).2
  | refId => trivial
  | refName => trivial
  | refPtr name arrayLen isDynamic target ih => exact ih shaped
  | record name arrayLen isDynamic elements ih =>
    obtain ⟨-, shapedFields⟩ := shaped
    rw [LimitsFit]
    clear arrayLen
    induction elements with
    | nil => trivial
    | cons child rest ihRest =>
      obtain ⟨⟨hv, v, -, -, shapedChild⟩, shapedRest⟩ := shapedFields
      exact ⟨ih child List.mem_cons_self shapedChild,
        ihRest (fun x mem => ih x (List.mem_cons_of_mem _ mem)) shapedRest⟩

theorem leafPiece_nonempty {code : LeafCode} (isNumber : code.isNumber = true) {arrayLen : Nat} {isDynamic : Bool}
    {value : Dv} {xs : List Int} (numbers : LeafNumbers code arrayLen isDynamic value xs) :
    0 < (leafPiece code arrayLen isDynamic value).data.length := by
  have sized : 0 < code.size := by cases code <;> first | contradiction | decide
  simp only [leafPiece_numbers numbers, List.length_append, Serializer.encodeAll_length]
  rcases Nat.eq_zero_or_pos arrayLen with rfl | positive
  · obtain ⟨sv, x, -, -, rfl⟩ := numbers
    rw [List.length_singleton, Nat.mul_one]
    exact Nat.add_pos_right _ sized
  · rw [LeafNumbers, if_neg (Nat.ne_of_gt positive)] at numbers
    obtain ⟨av, rfl, each, length⟩ := numbers
    have same : av.length = xs.length := List.Forall₂.length_eq each
    cases isDynamic with
    | true =>
      have width : 0 < sizeTypeToSize (sizeToSizeType arrayLen) :=
        Serializer.sizeTypeToSize_pos (sizeToSizeType_ne positive)
      rw [Serializer.lengthPrefix_length positive]
      exact Nat.add_pos_left width _
    | false =>
      rw [← same, show av.length = arrayLen from length]
      exact Nat.add_pos_right _ (Nat.mul_pos sized positive)

/-- Packing in a buffer of the size that the program states succeeds exactly for the values whose numbers are
all accepted. -/
def PacksExactly (dtl : Dtl) (e : DataElement) (program : Bytes) (value : Dv) : Prop :=
  ∀ vm : Vm, vm.serializer.queuedWriteState = {} → ∀ buffer : Bytes, buffer.length = dataSizeOf program →
    ((∃ vm', Vm.Packs dtl vm program buffer value (.ok () vm')) ↔ e.Each AcceptsAll value)

/-- Packing succeeds where all numbers are accepted and the pieces fit into the buffer. -/
theorem packs_iff {dtl : Dtl} (exact_ : dtl.Exact) {e : DataElement} {program : Bytes}
    (compiled : Compiled e .pack program) {value : Dv} (shaped : e.Shaped IntegerValue value)
    (representable : value.Representable) {vm : Vm} (idle : vm.serializer.queuedWriteState = {}) (buffer : Bytes) :
    (∃ vm', Vm.Packs dtl vm program buffer value (.ok () vm')) ↔
      e.Each AcceptsAll value ∧ FitFrom buffer.length 0 (e.pieces value) := by
  have usable : Usable e 0 .pack program := ⟨limitsFit_of_shaped shaped, compiled, .inl rfl⟩
  have leaves : ∀ code arrayLen isDynamic limits value b, IntegerValue code arrayLen isDynamic limits value →
      b.Ready → arrayLen < 2 ^ 32 → (packLeaf dtl code arrayLen isDynamic limits value b).Settles
        (AcceptsAll code arrayLen isDynamic limits value ∧
          b.Fits (leafPiece code arrayLen isDynamic value).data (leafPiece code arrayLen isDynamic value).reserved)
        (b.put (leafPiece code arrayLen isDynamic value).data (leafPiece code arrayLen isDynamic value).reserved) := by
    rintro code arrayLen isDynamic limits value b ⟨isInteger, limitsOf, numbers⟩ ready -
    rw [leafPiece_numbers numbers]
    exact settles_packLeaf exact_ (LeafCode.isNumber_of_isInteger isInteger) limitsOf numbers ready
  obtain ⟨succeeds, fails⟩ := Vm.packs_shaped leaves
    (fun _ _ _ _ _ shape => leafPiece_nonempty (LeafCode.isNumber_of_isInteger shape.1) shape.2.2) usable shaped
    representable idle buffer
  constructor
  · rintro ⟨vm', packs⟩
    by_contra not
    obtain ⟨failure, vm₁, failed⟩ := fails not
    exact nomatch packs.unique failed
  · intro holds
    obtain ⟨vm', packs, -⟩ := succeeds holds
    exact ⟨vm', packs⟩

/-- Packing enforces the ranges exactly if and only if the pieces of the value fit into as many bytes as the program
states, or some number is not accepted anyway. -/
theorem packsExactly_iff {dtl : Dtl} (exact_ : dtl.Exact) {e : DataElement} {program : Bytes}
    (compiled : Compiled e .pack program) {value : Dv} (shaped : e.Shaped IntegerValue value)
    (representable : value.Representable) :
    PacksExactly dtl e program value ↔
      FitFrom (e.emittedSize % 2 ^ 32) 0 (e.pieces value) ∨ ¬e.Each AcceptsAll value := by
  have stated := dataSizeOf_compiled (limitsFit_of_shaped shaped) compiled
  have packs {vm : Vm} (idle : vm.serializer.queuedWriteState = {}) {buffer : Bytes}
      (sized : buffer.length = dataSizeOf program) := packs_iff exact_ compiled shaped representable idle buffer
  constructor
  · intro exactly_
    by_cases accepted : e.Each AcceptsAll value
    · have length : (List.replicate (e.emittedSize % 2 ^ 32) (0 : Byte)).length = dataSizeOf program := by
        rw [List.length_replicate, stated]
      have succeeds := (exactly_ {} rfl _ length).mpr accepted
      have fits := ((packs rfl length).mp succeeds).2
      rw [length, stated] at fits
      exact .inl fits
    · exact .inr accepted
  · intro condition vm idle buffer sized
    rw [packs idle sized, sized, stated]
    refine ⟨And.left, fun accepted => ⟨accepted, ?_⟩⟩
    exact condition.resolve_right (not_not_intro accepted)

/-- In 32 bits a piece spans the bytes of its element. -/
theorem leafPiece_span {code : LeafCode} {arrayLen : Nat} {isDynamic : Bool} {value : Dv} {xs : List Int}
    (numbers : LeafNumbers code arrayLen isDynamic value xs) (small : extent code.size arrayLen isDynamic < 2 ^ 32) :
    (leafPiece code arrayLen isDynamic value).span = extent code.size arrayLen isDynamic ∧
      (leafPiece code arrayLen isDynamic value).data.length ≤ (leafPiece code arrayLen isDynamic value).span := by
  rw [leafPiece_numbers numbers]
  rcases Nat.eq_zero_or_pos arrayLen with rfl | positive
  · obtain ⟨sv, x, -, -, rfl⟩ := numbers
    simp [Piece.span, reservedBytes, lengthPrefix, extent]
  · rw [LeafNumbers, if_neg (Nat.ne_of_gt positive)] at numbers
    obtain ⟨av, rfl, each, length⟩ := numbers
    have same : av.length = xs.length := List.Forall₂.length_eq each
    rw [extent, if_neg (Nat.ne_of_gt positive)] at small ⊢
    cases isDynamic with
    | false =>
      have exact_ : xs.length = arrayLen := same.symm.trans length
      simp [Piece.span, reservedBytes, lengthPrefix, exact_]
    | true =>
      have atMost : xs.length ≤ arrayLen := same ▸ length
      have bytes : code.size * xs.length ≤ code.size * arrayLen := Nat.mul_le_mul_left _ atMost
      have exact_ : u32 (arrayLen * code.size) = code.size * arrayLen := by
        rw [Nat.mul_comm, u32_of_lt (by omega)]
      simp only [Piece.span, reservedBytes, positive, and_self, if_true, Option.getD_some, exact_, List.length_append,
        Serializer.encodeAll_length, Serializer.lengthPrefix_length positive]
      omega

/-- So no element of up to 32 bits meets the condition that is left. -/
theorem fitFrom_of_small {e : DataElement} {value : Dv} (shaped : e.Shaped IntegerValue value)
    (small : e.emittedSize < 2 ^ 32) : FitFrom (e.emittedSize % 2 ^ 32) 0 (e.pieces value) := by
  obtain ⟨total, tight⟩ := spans_of_small (fun _ _ _ _ _ value => leafPiece_span value.2.2) shaped small
  rw [Nat.mod_eq_of_lt small]
  exact .of_spans tight (by omega)

/-- Without a queue, everything that the compiler can compile has a program. -/
theorem compiled_of_valid {programType : ProgramType} {e : DataElement} (concrete : e.referenceCount = 0)
    (valid : e.Valid) (visible : ¬e.Vanishes) : ∃ program, Compiled e programType program := by
  obtain ⟨c, compiled⟩ := @Compiler.compileElement_valid programType e .direct {} concrete valid visible
  have single : ∃ header, encodeHeader programType (e.emittedSize % 2 ^ 32) 0 c.hasDynamicData = .ok header :=
    ⟨_, by rw [encodeHeader]; rfl⟩
  obtain ⟨header, encoded⟩ := single
  refine ⟨header ++ c.program, ?_⟩
  rw [Compiled, compilePort, Compiler.compileDataElement, compiled]
  simp only [encoded]

/-- A record of a number with limits and of a dynamic array -/
private def limited : DataElement :=
  .record none 0 false
    [.leaf (some .a) .uint8 0 false (some ⟨1, 5⟩), .leaf (some .b) .int16 2 true none]

private def limitedValue (x y : BitVec 32) : Dv := .hash [([97], .scalar (.u32 x)), ([98], .array [.scalar (.i32 y)])]

private theorem limitedValue_shaped (x y : BitVec 32) : limited.Shaped IntegerValue (limitedValue x y) := by
  have limits : LimitsOf .uint8 (some ⟨1, 5⟩) := by
    intro l mem
    cases mem
    exact ⟨rfl, by decide⟩
  have first : LeafNumbers .uint8 0 false (.scalar (.u32 x)) [x.toNat] := ⟨.u32 x, x.toNat, rfl, rfl, rfl⟩
  have second : LeafNumbers .int16 2 true (.array [.scalar (.i32 y)]) [y.toInt] :=
    ⟨_, rfl, .cons ⟨.i32 y, rfl, rfl⟩ .nil, show 1 ≤ 2 by decide⟩
  refine ⟨rfl, ⟨_, _, rfl, rfl, rfl, limits, ?_⟩, ⟨_, _, rfl, rfl, rfl, nofun, ?_⟩, _, rfl⟩
  · exact first.numbers.symm ▸ first
  · exact second.numbers.symm ▸ second

private theorem limitedValue_representable (x y : BitVec 32) : (limitedValue x y).Representable := by
  refine .hash fun key v found => ?_
  have mem : v ∈ [Dv.scalar (.u32 x), .array [.scalar (.i32 y)]] := by
    simp only [Hash.get, List.lookup_cons, List.lookup_nil] at found
    split at found
    · cases found
      exact List.mem_cons_self
    · split at found
      · cases found
        exact List.mem_cons_of_mem _ List.mem_cons_self
      · contradiction
  rcases List.mem_cons.mp mem with rfl | mem
  · exact .scalar _
  · obtain rfl := List.mem_singleton.mp mem
    refine .array (show 1 < 2 ^ 31 by decide) fun v mem => ?_
    obtain rfl := List.mem_singleton.mp mem
    exact .scalar _

/-- A value with accepted numbers, and one whose first number is beyond its limit and whose second one is beyond
its type -/
theorem packsExactly_limited :
    ∃ program, Compiled limited .pack program ∧
      PacksExactly .numeric limited program (limitedValue 5 (-7)) ∧
      PacksExactly .numeric limited program (limitedValue 6 40000) := by
  obtain ⟨program, compiled⟩ : ∃ program, Compiled limited .pack program := ⟨_, rfl⟩
  have exactly_ (x y : BitVec 32) : PacksExactly .numeric limited program (limitedValue x y) :=
    (packsExactly_iff Dtl.numeric_exact compiled (limitedValue_shaped x y) (limitedValue_representable x y)).mpr
      (.inl (fitFrom_of_small (limitedValue_shaped x y) (by decide)))
  exact ⟨program, compiled, exactly_ 5 (-7), exactly_ 6 40000⟩

/-- The program of a dynamic array of 2 ^ 31 numbers of two bytes states a size of four, in which there is no room
for a value with one number. -/
theorem not_packsExactly :
    ∃ program, Compiled (.leaf none .uint16 2147483648 true none) .pack program ∧
      (DataElement.leaf none .uint16 2147483648 true none).Shaped IntegerValue (.array [.scalar (.u32 1)]) ∧
      (Dv.array [.scalar (.u32 1)]).Representable ∧
      ¬PacksExactly .numeric (.leaf none .uint16 2147483648 true none) program (.array [.scalar (.u32 1)]) := by
  obtain ⟨program, compiled⟩ := @compiled_of_valid .pack (.leaf none .uint16 2147483648 true none) rfl
    ⟨nofun, fun limited => absurd rfl limited⟩ id
  have numbers : LeafNumbers .uint16 2147483648 true (.array [.scalar (.u32 1)]) [1] :=
    ⟨_, rfl, .cons ⟨.u32 1, rfl, rfl⟩ .nil, show 1 ≤ 2 ^ 31 by decide⟩
  have shaped : (DataElement.leaf none .uint16 2147483648 true none).Shaped IntegerValue (.array [.scalar (.u32 1)]) :=
    ⟨rfl, nofun, numbers.numbers.symm ▸ numbers⟩
  have representable : (Dv.array [.scalar (.u32 1)]).Representable := by
    refine .array (show 1 < 2 ^ 31 by decide) fun v mem => ?_
    obtain rfl := List.mem_singleton.mp mem
    exact .scalar _
  refine ⟨program, compiled, shaped, representable, fun exactly_ => ?_⟩
  have accepted : (DataElement.leaf none .uint16 2147483648 true none).Each AcceptsAll (.array [.scalar (.u32 1)]) := by
    intro x mem
    rw [numbers.numbers] at mem
    obtain rfl := List.mem_singleton.mp mem
    exact ⟨by decide, by decide⟩
  have stated : dataSizeOf program = 4 := dataSizeOf_compiled (limitsFit_of_shaped shaped) compiled
  obtain ⟨-, fits⟩ := (@packs_iff _ Dtl.numeric_exact _ _ compiled _ shaped representable {} rfl [0, 0, 0, 0]).mp
    ((exactly_ {} rfl [0, 0, 0, 0] stated.symm).mpr accepted)
  exact absurd fits (by decide)

end Apx
