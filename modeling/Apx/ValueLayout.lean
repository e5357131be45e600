import Apx.PackArrays

/-! The bytes of a value in the buffer, as the pieces that the elements without children write one behind
the other. -/

namespace Apx

open LittleEndian Vm

/-- What one element without children writes, and the bytes that it reserves where it is a dynamic array -/
structure Piece where
  data : Bytes
  reserved : Option Nat
  deriving DecidableEq, Repr

def Piece.span (p : Piece) : Nat := p.reserved.getD p.data.length

def spans (ps : List Piece) : Nat := (ps.map Piece.span).sum

/-- The pieces fit into a buffer of `length` bytes from `start` on. -/
def FitFrom (length : Nat) : Nat → List Piece → Prop
  | _, [] => True
  | start, p :: rest =>
      (start + p.data.length ≤ length ∧ ∀ size ∈ p.reserved, start + size ≤ length) ∧
        FitFrom length (start + p.span) rest

instance FitFrom.decidable (length : Nat) : (start : Nat) → (ps : List Piece) → Decidable (FitFrom length start ps)
  | _, [] => inferInstanceAs (Decidable True)
  | start, p :: rest =>
      have := FitFrom.decidable length (start + p.span) rest
      inferInstanceAs (Decidable ((_ ∧ _) ∧ _))

theorem spans_append (ps qs : List Piece) : spans (ps ++ qs) = spans ps + spans qs := by
  rw [spans, List.map_append, List.sum_append]
  rfl

theorem fitFrom_append {length start : Nat} {ps qs : List Piece} :
    FitFrom length start (ps ++ qs) ↔ FitFrom length start ps ∧ FitFrom length (start + spans ps) qs := by
  induction ps generalizing start with
  | nil => simp [FitFrom, spans]
  | cons p rest ih =>
    have total : spans (p :: rest) = p.span + spans rest := rfl
    simp only [List.cons_append, FitFrom, ih, total, and_assoc, Nat.add_assoc]

/-- Pieces whose data stays in the bytes that they span fit where the sum of these does. -/
theorem FitFrom.of_spans {length start : Nat} {ps : List Piece} (tight : ∀ p ∈ ps, p.data.length ≤ p.span)
    (room : start + spans ps ≤ length) : FitFrom length start ps := by
  induction ps generalizing start with
  | nil => trivial
  | cons p rest ih =>
    have total : spans (p :: rest) = p.span + spans rest := rfl
    have inside := tight p List.mem_cons_self
    refine ⟨⟨by omega, fun size reserved => ?_⟩, ih (fun q mem => tight q (List.mem_cons_of_mem _ mem)) (by omega)⟩
    have span : p.span = size := by rw [Piece.span, Option.mem_def.mp reserved, Option.getD_some]
    omega

namespace WriteBuffer

def putAll (b : WriteBuffer) (ps : List Piece) : WriteBuffer :=
  ps.foldl (fun b p => b.put p.data p.reserved) b

theorem putAll_append (b : WriteBuffer) (ps qs : List Piece) : b.putAll (ps ++ qs) = (b.putAll ps).putAll qs :=
  List.foldl_append

/-- The first piece is written behind the padding anyway. -/
theorem putAll_flushed (b : WriteBuffer) {ps : List Piece} (some_ : ps ≠ []) : b.flushed.putAll ps = b.putAll ps := by
  cases ps with
  | nil => contradiction
  | cons p rest => rfl

theorem Ready.flushed {b : WriteBuffer} (ready : b.Ready) : b.flushed.Ready where
  nonempty := ready.nonempty
  inside := ready.padded
  padded := ready.padded

theorem putAll_fits {b : WriteBuffer} (ready : b.Ready) {ps : List Piece}
    (fits : FitFrom b.bytes.length b.cursor ps) :
    (b.putAll ps).Ready ∧ (b.putAll ps).bytes.length = b.bytes.length ∧
      (b.putAll ps).cursor = b.cursor + spans ps := by
  induction ps generalizing b with
  | nil => exact ⟨ready, rfl, rfl⟩
  | cons p rest ih =>
    obtain ⟨first, behind⟩ := fits
    have here : b.Fits p.data p.reserved := first
    have length := here.length
    have cursor := b.cursor_put p.data p.reserved
    obtain ⟨ready', length', cursor'⟩ := ih (here.ready ready) (by rw [length, cursor]; exact behind)
    refine ⟨ready', length'.trans length, cursor'.trans ?_⟩
    rw [cursor, Nat.add_assoc]
    rfl

end WriteBuffer

namespace LeafCode

def elementNumber (code : LeafCode) : Dv → Option Int
  | .scalar sv => code.number sv
  | _ => Option.none

def numbers (code : LeafCode) : Dv → List Int
  | .scalar sv => (code.number sv).toList
  | .array av => av.filterMap code.elementNumber
  | _ => []

theorem numbers_array {code : LeafCode} {av : List Dv} {xs : List Int} (each : Serializer.Numbers code av xs) :
    code.numbers (.array av) = xs := by
  rw [numbers]
  induction each with
  | nil => rfl
  | cons first _ ih =>
    obtain ⟨sv, rfl, number⟩ := first
    simp only [List.filterMap_cons, elementNumber, number, ih]

end LeafCode

theorem LeafNumbers.numbers {code : LeafCode} {arrayLength : Nat} {isDynamic : Bool} {value : Dv} {xs : List Int}
    (stands : LeafNumbers code arrayLength isDynamic value xs) : code.numbers value = xs := by
  unfold LeafNumbers at stands
  split at stands
  · obtain ⟨sv, x, rfl, number, rfl⟩ := stands
    rw [LeafCode.numbers, number]
    rfl
  · obtain ⟨av, rfl, each, -⟩ := stands
    exact LeafCode.numbers_array each

/-- The piece of an element without children. A string that is shorter than its array is filled with zeros. -/
def leafPiece (code : LeafCode) (arrayLength : Nat) (isDynamic : Bool) (value : Dv) : Piece :=
  let reserved := reservedBytes code arrayLength isDynamic
  match value with
  | .scalar (.str text) =>
      ⟨lengthPrefix arrayLength isDynamic text.length ++
        (text ++ List.replicate ((if isDynamic then text.length else arrayLength) - text.length) 0), reserved⟩
  | .scalar (.bytearray bytes) => ⟨lengthPrefix arrayLength isDynamic bytes.length ++ bytes, reserved⟩
  | value =>
      ⟨lengthPrefix arrayLength isDynamic (code.numbers value).length ++ Serializer.encodeAll code (code.numbers value),
        reserved⟩

theorem leafPiece_numbers {code : LeafCode} {arrayLen : Nat} {isDynamic : Bool} {value : Dv} {xs : List Int}
    (numbers : LeafNumbers code arrayLen isDynamic value xs) :
    leafPiece code arrayLen isDynamic value =
      ⟨lengthPrefix arrayLen isDynamic xs.length ++ Serializer.encodeAll code xs,
        reservedBytes code arrayLen isDynamic⟩ := by
  have same := numbers.numbers
  unfold LeafNumbers at numbers
  split at numbers
  · obtain ⟨sv, x, rfl, stands, -⟩ := numbers
    cases sv with
    | str | bytearray => cases code <;> contradiction
    | _ => rw [← same]; rfl
  · obtain ⟨av, rfl, -, -⟩ := numbers
    rw [← same]
    rfl

def Dv.field (key : Bytes) : Dv → Dv
  | .hash hv => (Hash.get hv key).getD .null
  | _ => .null

namespace DataElement

mutual

/-- The pieces of a value, where no record is an array, and without the array suffixes of references -/
def pieces : DataElement → Dv → List Piece
  | .leaf _ code arrayLen isDynamic _, value => [leafPiece code arrayLen.toNat isDynamic value]
  | .record _ _ _ elements, value => fieldPieces elements value
  | .refPtr _ _ _ target, value => pieces target value
  | .refId .., _ => []
  | .refName .., _ => []

def fieldPieces : List DataElement → Dv → List Piece
  | [], _ => []
  | child :: rest, value => pieces child (value.field child.nameBytes) ++ fieldPieces rest value

end

/-- A condition on the parts of a value that belong to elements without children -/
abbrev LeafCondition := LeafCode → Nat → Bool → Option Limits → Dv → Prop

mutual

/-- The condition holds in all of the value. -/
def Each (condition : LeafCondition) : DataElement → Dv → Prop
  | .leaf _ code arrayLen isDynamic limits, value => condition code arrayLen.toNat isDynamic limits value
  | .record _ _ _ elements, value => EachField condition elements value
  | .refPtr _ _ _ target, value => Each condition target value
  | .refId .., _ => True
  | .refName .., _ => True

def EachField (condition : LeafCondition) : List DataElement → Dv → Prop
  | [], _ => True
  | child :: rest, value =>
      Each condition child (value.field child.nameBytes) ∧ EachField condition rest value

end

mutual

/-- A value with the fields of its records, none of which is an array, and with the condition in all of it. A reference
has the values of its type, whatever array suffix it has of its own. -/
def Shaped (condition : LeafCondition) : DataElement → Dv → Prop
  | .leaf _ code arrayLen isDynamic limits, value => condition code arrayLen.toNat isDynamic limits value
  | .record _ arrayLen _ elements, value => arrayLen.toNat = 0 ∧ ShapedFields condition elements value
  | .refPtr _ _ _ target, value => Shaped condition target value
  | .refId .., _ => False
  | .refName .., _ => False

def ShapedFields (condition : LeafCondition) : List DataElement → Dv → Prop
  | [], value => ∃ hv, value = .hash hv
  | child :: rest, value =>
      (∃ hv v, value = .hash hv ∧ Hash.get hv child.nameBytes = some v ∧ Shaped condition child v) ∧
        ShapedFields condition rest value

end

theorem ShapedFields.hash {condition : LeafCondition} {elements : List DataElement} {value : Dv}
    (shaped : ShapedFields condition elements value) : ∃ hv, value = .hash hv := by
  induction elements with
  | nil => exact shaped
  | cons child rest ih => exact ih shaped.2

theorem ShapedFields.field {condition : LeafCondition} {elements : List DataElement} {value : Dv}
    (shaped : ShapedFields condition elements value) :
    ∀ child ∈ elements, Shaped condition child (value.field child.nameBytes) := by
  induction elements with
  | nil => nofun
  | cons head tail ih =>
    obtain ⟨⟨hv, v, rfl, get, shapedHead⟩, shapedTail⟩ := shaped
    refine List.forall_mem_cons.mpr ⟨?_, ih shapedTail⟩
    rwa [Dv.field, get, Option.getD_some]

theorem EachField.field {condition : LeafCondition} {elements : List DataElement} {value : Dv}
    (each : EachField condition elements value) :
    ∀ child ∈ elements, Each condition child (value.field child.nameBytes) := by
  induction elements with
  | nil => nofun
  | cons head tail ih => exact List.forall_mem_cons.mpr ⟨each.1, ih each.2⟩

/-- Where the element is below a bound, the pieces of a value fit into its size if each of them fits into the size of
its part. -/
theorem spans_of_small {shape : LeafCondition} {bound : Nat}
    (leaves : ∀ code arrayLen isDynamic limits value, shape code arrayLen isDynamic limits value →
      extent code.size arrayLen isDynamic < bound →
      (leafPiece code arrayLen isDynamic value).span = extent code.size arrayLen isDynamic ∧
        (leafPiece code arrayLen isDynamic value).data.length ≤ (leafPiece code arrayLen isDynamic value).span)
    {e : DataElement} {value : Dv} (shaped : e.Shaped shape value) (small : e.emittedSize < bound) :
    spans (e.pieces value) = e.emittedSize ∧ ∀ p ∈ e.pieces value, p.data.length ≤ p.span := by
  induction e using tree_induction generalizing value with
  | leaf name code arrayLen isDynamic limits =>
    obtain ⟨span, tight⟩ := leaves code arrayLen.toNat isDynamic limits value shaped small
    simp only [pieces, List.mem_singleton, forall_eq]
    exact ⟨span, tight⟩
  | refId => exact shaped.elim
  | refName => exact shaped.elim
  | refPtr name arrayLen isDynamic target ih => exact ih shaped small
  | record name arrayLen isDynamic elements ih =>
    obtain ⟨single, shapedFields⟩ := shaped
    have total : (DataElement.record name arrayLen isDynamic elements).emittedSize = emittedSizes elements := by
      rw [emittedSize, extent, if_pos single]
    rw [total] at small ⊢
    rw [pieces]
    clear total single arrayLen
    induction elements with
    | nil => exact ⟨rfl, List.forall_mem_nil _⟩
    | cons child rest ihRest =>
      obtain ⟨⟨hv, v, rfl, get, shapedChild⟩, shapedRest⟩ := shapedFields
      have field : (Dv.hash hv).field child.nameBytes = v := by rw [Dv.field, get, Option.getD_some]
      rw [emittedSizes] at small ⊢
      obtain ⟨first, tight⟩ := ih child List.mem_cons_self shapedChild (by omega)
      obtain ⟨behind, tightRest⟩ := ihRest (fun x mem => ih x (List.mem_cons_of_mem _ mem)) (by omega) shapedRest
      rw [fieldPieces, field, spans_append, first, behind]
      refine ⟨rfl, fun p mem => ?_⟩
      rcases List.mem_append.mp mem with mem | mem
      · exact tight p mem
      · exact tightRest p mem

theorem pieces_ne_nil {e : DataElement} (complete : e.Complete) (value : Dv) : e.pieces value ≠ [] := by
  induction e using tree_induction generalizing value with
  | leaf => exact List.cons_ne_nil _ _
  | record name arrayLen isDynamic elements ih =>
    obtain ⟨nonempty, completes⟩ := complete
    cases elements with
    | nil => contradiction
    | cons child rest =>
      have first := ih child List.mem_cons_self completes.2.1 (value.field child.nameBytes)
      rw [pieces, fieldPieces]
      exact List.append_ne_nil_of_left_ne_nil first _
  | refId => exact complete.elim
  | refName => exact complete.elim
  | refPtr name arrayLen isDynamic target ih => exact ih complete value

end DataElement

end Apx
