import Apx.Conforming
import Apx.PackLayout

/-! Packing a value that conforms to its element: the bytes of each of its parts are in the buffer then. -/

namespace Apx

open LittleEndian Vm

/-- How many elements a value of an element without children has -/
def Dv.count : Dv → Nat
  | .array av => av.length
  | .scalar (.str text) => text.length
  | .scalar (.bytearray bytes) => bytes.length
  | _ => 1

namespace LeafValue

variable {code : LeafCode} {arrayLength : Nat} {isDynamic : Bool} {value : Dv}

theorem known (leaf : LeafValue code arrayLength isDynamic value) : Compiler.leafInfo code ≠ none := by
  cases leaf with
  | numbers isNumber => cases code <;> first | contradiction | nofun
  | string isText => rcases isText with rfl | rfl <;> nofun
  | byte x isByte => subst isByte; nofun
  | bytes isByte => subst isByte; nofun

theorem sized (leaf : LeafValue code arrayLength isDynamic value) : 0 < code.size := by
  have known := leaf.known
  cases code <;> first | exact absurd rfl known | decide

theorem piece (leaf : LeafValue code arrayLength isDynamic value) :
    ∃ body, leafPiece code arrayLength isDynamic value =
        ⟨lengthPrefix arrayLength isDynamic value.count ++ body, reservedBytes code arrayLength isDynamic⟩ ∧
      body.length = code.size * (if arrayLength = 0 then 1 else if isDynamic then value.count else arrayLength) ∧
      (0 < arrayLength → isDynamic = true → value.count ≤ arrayLength) := by
  cases leaf with
  | numbers isNumber numbers inRange =>
    rw [leafPiece_numbers numbers]
    rcases Nat.eq_zero_or_pos arrayLength with rfl | positive
    · obtain ⟨sv, x, -, -, rfl⟩ := numbers
      refine ⟨Serializer.encodeAll code [x], by simp [lengthPrefix], ?_, fun positive => absurd positive (by decide)⟩
      rw [Serializer.encodeAll_length, if_pos rfl, List.length_singleton]
    · rw [LeafNumbers, if_neg (Nat.ne_of_gt positive)] at numbers
      obtain ⟨av, rfl, each, length⟩ := numbers
      have same : av.length = _ := List.Forall₂.length_eq each
      refine ⟨_, by rw [Dv.count, same], ?_, fun _ dynamic => by simpa [dynamic, Dv.count] using length⟩
      rw [Serializer.encodeAll_length, ← same, if_neg (Nat.ne_of_gt positive)]
      cases isDynamic with
      | false => rw [show av.length = arrayLength from length]; rfl
      | true => rfl
  | @string text isText positive short ends =>
    have one : code.size = 1 := by rcases isText with rfl | rfl <;> rfl
    refine ⟨_, rfl, ?_, fun _ _ => short⟩
    rw [one, Nat.one_mul, if_neg (Nat.ne_of_gt positive), List.length_append, List.length_replicate, Dv.count]
    cases isDynamic with
    | false => exact Nat.add_sub_of_le short
    | true => simp
  | byte x isByte single =>
    subst isByte single
    exact ⟨[x], rfl, rfl, fun positive => absurd positive (by decide)⟩
  | @bytes bytes isByte positive length =>
    subst isByte
    refine ⟨bytes, rfl, ?_, fun _ dynamic => by simpa [dynamic, Dv.count] using length⟩
    rw [show LeafCode.size .byte = 1 from rfl, Nat.one_mul, if_neg (Nat.ne_of_gt positive), Dv.count]
    cases isDynamic with
    | false => exact length
    | true => rfl

/-- The bytes of a value never need more room than its element states. -/
theorem data_length (leaf : LeafValue code arrayLength isDynamic value) :
    (leafPiece code arrayLength isDynamic value).data ≠ [] ∧
      (leafPiece code arrayLength isDynamic value).data.length ≤ extent code.size arrayLength isDynamic := by
  obtain ⟨body, piece, length, short⟩ := leaf.piece
  have sized := leaf.sized
  rw [piece]
  simp only [← List.length_pos_iff, List.length_append, length]
  rcases Nat.eq_zero_or_pos arrayLength with rfl | positive
  · simp [lengthPrefix, extent]
    omega
  rw [extent, if_neg (Nat.ne_of_gt positive), if_neg (Nat.ne_of_gt positive)]
  cases isDynamic with
  | false =>
    have room : 0 < code.size * arrayLength := Nat.mul_pos sized positive
    simp [lengthPrefix]
    omega
  | true =>
    have room : code.size * value.count ≤ code.size * arrayLength := Nat.mul_le_mul_left _ (short positive rfl)
    have width : 0 < sizeTypeToSize (sizeToSizeType arrayLength) :=
      Serializer.sizeTypeToSize_pos (sizeToSizeType_ne positive)
    rw [Serializer.lengthPrefix_length positive, if_pos rfl, if_pos rfl]
    omega

theorem span_fixed (leaf : LeafValue code arrayLength false value) :
    (leafPiece code arrayLength false value).span = extent code.size arrayLength false := by
  obtain ⟨body, piece, length, -⟩ := leaf.piece
  rw [piece, Piece.span]
  rcases Nat.eq_zero_or_pos arrayLength with rfl | positive
  · simp [reservedBytes, lengthPrefix, extent, length]
  · simp [reservedBytes, lengthPrefix, extent, length, Nat.ne_of_gt positive]

/-- In 32 bits a piece spans the bytes of its element. -/
theorem piece_span (leaf : LeafValue code arrayLength isDynamic value)
    (small : extent code.size arrayLength isDynamic < 2 ^ 32) :
    (leafPiece code arrayLength isDynamic value).span = extent code.size arrayLength isDynamic ∧
      (leafPiece code arrayLength isDynamic value).data.length ≤ (leafPiece code arrayLength isDynamic value).span := by
  have span : (leafPiece code arrayLength isDynamic value).span = extent code.size arrayLength isDynamic := by
    cases isDynamic with
    | false => exact leaf.span_fixed
    | true =>
      obtain ⟨body, piece, length, -⟩ := leaf.piece
      rw [piece, Piece.span]
      rcases Nat.eq_zero_or_pos arrayLength with rfl | positive
      · simp [reservedBytes, lengthPrefix, extent, length]
      rw [extent, if_neg (Nat.ne_of_gt positive), if_pos rfl] at small ⊢
      rw [reservedBytes, if_pos ⟨rfl, positive⟩, Option.getD_some, Nat.mul_comm, u32_of_lt (by omega), Nat.add_comm]
  exact ⟨span, span ▸ leaf.data_length.2⟩

theorem packOperation_byte (dtl : Dtl) (isDynamic : Bool) (s : Serializer) :
    packOperation dtl (dataInfo LeafCode.byte.typeCode 0 isDynamic) s =
      packOperation dtl (dataInfo LeafCode.byte.typeCode 1 false) s := by
  simp [packOperation, dataInfo, LeafCode.typeCode, Serializer.packByte, dynamicSizeType]

/-- Packing a value of an element without limits only needs room. -/
theorem settles {dtl : Dtl} (exact_ : dtl.Exact) (leaf : LeafValue code arrayLength isDynamic value)
    (small : arrayLength < 2 ^ 32) {b : WriteBuffer} (ready : b.Ready) :
    (packLeaf dtl code arrayLength isDynamic none value b).Settles
      (b.Fits (leafPiece code arrayLength isDynamic value).data (leafPiece code arrayLength isDynamic value).reserved)
      (b.put (leafPiece code arrayLength isDynamic value).data (leafPiece code arrayLength isDynamic value).reserved) := by
  have data {value : Dv} : packLeaf dtl code arrayLength isDynamic none value b =
      (packOperation dtl (dataInfo code.typeCode arrayLength isDynamic) (Serializer.inFront value {} .notChecked b)).lift
        Serializer.buffer := by
    rw [packLeaf, leafOperations, Engine.exec]
    exact congrArg (Result.lift Serializer.buffer) (Result.bind_pure _)
  have known := leaf.known
  cases leaf with
  | numbers isNumber numbers inRange =>
    rw [leafPiece_numbers numbers]
    exact (@settles_packLeaf _ exact_ _ isNumber none (fun _ limited => by cases limited) _ _ _ _ numbers _ ready).iff
      (and_iff_right inRange)
  | @string text isText positive short ends =>
    rw [data]
    cases isDynamic with
    | false =>
      obtain ⟨s, packs, buffer⟩ := Serializer.settles_packFixed known positive
        (Serializer.body_string exact_ isText text {} .notChecked short small 0 .none) ready
      have piece : leafPiece code arrayLength false (.scalar (.str text)) =
          ⟨text ++ List.replicate (arrayLength - text.length) 0, none⟩ := by
        simp [leafPiece, lengthPrefix, reservedBytes]
      rw [piece]
      exact buffer ▸ (packs.lift Serializer.buffer).iff (and_iff_right trivial)
    | true =>
      have counted (st : WriteState) (value : st.value = .scalar (.str text)) :
          st.determineArrayLengthFromValue dtl = .ok () { st with arrayLen := text.length } := by
        rw [WriteState.determineArrayLengthFromValue, value]
        simp [exact_.toStr]
      obtain ⟨s, packs, buffer⟩ := Serializer.settles_packDynamic known positive short counted
        (fun _ => Serializer.body_string exact_ isText text {} .notChecked (Nat.le_refl _) (by omega) arrayLength _)
        (fun empty => ⟨trivial, by simp [List.length_eq_zero_iff.mp empty]⟩) ready
      exact buffer ▸ (packs.lift Serializer.buffer).iff (and_iff_right trivial)
  | byte x isByte single =>
    subst isByte single
    obtain ⟨s, packs, buffer⟩ := Serializer.settles_packFixed known Nat.one_pos
      (Serializer.body_bytes [x] {} .notChecked 0 .none) ready
    have piece : leafPiece .byte 0 isDynamic (.scalar (.bytearray [x])) = ⟨[x], none⟩ := by
      simp [leafPiece, lengthPrefix, reservedBytes]
    rw [data, packOperation_byte, piece]
    exact buffer ▸ (packs.lift Serializer.buffer).iff (and_iff_right trivial)
  | @bytes bytes isByte positive length =>
    subst isByte
    rw [data]
    cases isDynamic with
    | false =>
      obtain rfl : bytes.length = arrayLength := length
      obtain ⟨s, packs, buffer⟩ := Serializer.settles_packFixed known positive
        (Serializer.body_bytes bytes {} .notChecked 0 .none) ready
      have piece : leafPiece .byte bytes.length false (.scalar (.bytearray bytes)) = ⟨bytes, none⟩ := by
        simp [leafPiece, lengthPrefix, reservedBytes]
      rw [piece]
      exact buffer ▸ (packs.lift Serializer.buffer).iff (and_iff_right trivial)
    | true =>
      have counted (st : WriteState) (value : st.value = .scalar (.bytearray bytes)) :
          st.determineArrayLengthFromValue dtl = .ok () { st with arrayLen := bytes.length } := by
        rw [WriteState.determineArrayLengthFromValue, value]
      obtain ⟨s, packs, buffer⟩ := Serializer.settles_packDynamic known positive length counted
        (fun _ => Serializer.body_bytes bytes {} .notChecked arrayLength _)
        (fun empty => ⟨trivial, List.length_eq_zero_iff.mp empty⟩) ready
      exact buffer ▸ (packs.lift Serializer.buffer).iff (and_iff_right trivial)

end LeafValue

/-- Nothing in front of its first piece is written. -/
theorem WriteBuffer.take_putAll {b : WriteBuffer} {ps : List Piece}
    (fits : FitFrom b.bytes.length b.cursor ps) :
    (b.putAll ps).bytes.take b.cursor = b.bytes.take b.cursor := by
  induction ps generalizing b with
  | nil => rfl
  | cons p rest ih =>
    obtain ⟨first, behind⟩ := fits
    have here : b.Fits p.data p.reserved := first
    have cursor := b.cursor_put p.data p.reserved
    have further : b.cursor ≤ (b.put p.data p.reserved).cursor := cursor ▸ Nat.le_add_right _ _
    have same := ih (b := b.put p.data p.reserved) (by rw [here.length, cursor]; exact behind)
    have front : (b.put p.data p.reserved).bytes.take b.cursor = b.bytes.take b.cursor := by
      show (splice b.bytes b.cursor p.data).take b.cursor = _
      rw [splice, List.append_assoc, List.take_append_of_le_length, List.take_take, Nat.min_self]
      rw [List.length_take]
      have := first.1
      omega
    have shorter := congrArg (List.take b.cursor) same
    rw [List.take_take, List.take_take, Nat.min_eq_left further, front] at shorter
    exact shorter

namespace DataElement

/-- An element without limits, and a value of it -/
def leafValue : LeafCondition := fun code arrayLen isDynamic limits value =>
  limits = none ∧ LeafValue code arrayLen isDynamic value

mutual

/-- The bytes of the value are in the buffer from `cursor` on, where a reference has those of its type, whatever array
suffix it has of its own. -/
def Stored : DataElement → Bytes → Nat → Dv → Prop
  | .leaf _ code arrayLen isDynamic _, bytes, cursor, value =>
      (leafPiece code arrayLen.toNat isDynamic value).data <+: bytes.drop cursor
  | .record _ _ _ elements, bytes, cursor, value => StoredFields elements bytes cursor value
  | .refPtr _ _ _ target, bytes, cursor, value => Stored target bytes cursor value
  | .refId .., _, _, _ => True
  | .refName .., _, _, _ => True

def StoredFields : List DataElement → Bytes → Nat → Dv → Prop
  | [], _, _, _ => True
  | child :: rest, bytes, cursor, value =>
      Stored child bytes cursor (value.field child.nameBytes) ∧ StoredFields rest bytes (cursor + emittedSize child) value

end

mutual

/-- Every part of the element starts in the first `length` bytes or behind the last of them. -/
def StartsWithin (length : Nat) : DataElement → Nat → Prop
  | .leaf .., start => start ≤ length
  | .record _ _ _ elements, start => StartWithin length elements start
  | .refPtr _ _ _ target, start => StartsWithin length target start
  | .refId .., _ => True
  | .refName .., _ => True

def StartWithin (length : Nat) : List DataElement → Nat → Prop
  | [], _ => True
  | child :: rest, start => StartsWithin length child start ∧ StartWithin length rest (start + emittedSize child)

end

theorem StartsWithin.start {length : Nat} {e : DataElement} (complete : e.Complete) {start : Nat}
    (starts : e.StartsWithin length start) : start ≤ length := by
  induction e using tree_induction with
  | leaf => exact starts
  | record name arrayLen isDynamic elements ih =>
    obtain ⟨nonempty, completes⟩ := complete
    cases elements with
    | nil => contradiction
    | cons child rest => exact ih child List.mem_cons_self completes.2.1 starts.1
  | refId => exact complete.elim
  | refName => exact complete.elim
  | refPtr name arrayLen isDynamic target ih => exact ih complete starts

theorem startsWithin_of_small {e : DataElement} {value : Dv} (shaped : e.Shaped leafValue value) {length start : Nat}
    (room : start + e.emittedSize ≤ length) : e.StartsWithin length start := by
  induction e using tree_induction generalizing value start with
  | leaf => exact (Nat.le_add_right _ _).trans room
  | record name arrayLen isDynamic elements ih =>
    obtain ⟨single, shapedFields⟩ := shaped
    rw [emittedSize, extent, if_pos single] at room
    rw [StartsWithin]
    clear single arrayLen
    induction elements generalizing start with
    | nil => trivial
    | cons child rest ihRest =>
      obtain ⟨⟨hv, v, -, -, shapedChild⟩, shapedRest⟩ := shapedFields
      rw [emittedSizes] at room
      exact ⟨ih child List.mem_cons_self shapedChild (by omega),
        ihRest (fun x mem => ih x (List.mem_cons_of_mem _ mem)) (by omega) shapedRest⟩
  | refId => trivial
  | refName => trivial
  | refPtr name arrayLen isDynamic target ih => exact ih shaped room

/-- What is behind the element in the buffer does not matter. -/
theorem Stored.of_take {e : DataElement} {value : Dv} (shaped : e.Shaped leafValue value) {bytes bytes' : Bytes}
    {cursor : Nat} (same : bytes'.take (cursor + e.emittedSize) = bytes.take (cursor + e.emittedSize))
    (stored : e.Stored bytes cursor value) : e.Stored bytes' cursor value := by
  induction e using tree_induction generalizing value cursor with
  | leaf name code arrayLen isDynamic limits =>
    obtain ⟨-, leaf⟩ := shaped
    rw [Stored, List.prefix_iff_eq_take] at stored ⊢
    have inside : cursor + (leafPiece code arrayLen.toNat isDynamic value).data.length ≤
        cursor + extent code.size arrayLen.toNat isDynamic := Nat.add_le_add_left leaf.data_length.2 _
    have front := congrArg (List.take (cursor + (leafPiece code arrayLen.toNat isDynamic value).data.length)) same
    rw [emittedSize, List.take_take, List.take_take, Nat.min_eq_left inside] at front
    rw [List.take_drop, front, ← List.take_drop]
    exact stored
  | record name arrayLen isDynamic elements ih =>
    obtain ⟨single, shapedFields⟩ := shaped
    rw [emittedSize, extent, if_pos single] at same
    rw [Stored] at stored ⊢
    clear single arrayLen
    induction elements generalizing cursor with
    | nil => trivial
    | cons child rest ihRest =>
      obtain ⟨⟨hv, v, rfl, get, shapedChild⟩, shapedRest⟩ := shapedFields
      obtain ⟨storedChild, storedRest⟩ := stored
      have field : (Dv.hash hv).field child.nameBytes = v := by rw [Dv.field, get, Option.getD_some]
      rw [emittedSizes] at same
      have front := congrArg (List.take (cursor + child.emittedSize)) same
      rw [List.take_take, List.take_take, Nat.min_eq_left (by omega)] at front
      refine ⟨ih child List.mem_cons_self (field.symm ▸ shapedChild) front storedChild,
        ihRest (fun x mem => ih x (List.mem_cons_of_mem _ mem)) ?_ storedRest shapedRest⟩
      rw [Nat.add_assoc]
      exact same
  | refId => trivial
  | refName => trivial
  | refPtr name arrayLen isDynamic target ih => exact ih shaped same stored

/-- Where the pieces of a value fit, and all parts start in the buffer, the bytes of all of them are in it. -/
theorem stored_putAll {e : DataElement} (complete : e.Complete) {value : Dv} (shaped : e.Shaped leafValue value)
    {b : WriteBuffer} (ready : b.Ready) (bounded : b.bytes.length < 2 ^ 32)
    (fits : FitFrom b.bytes.length b.cursor (e.pieces value)) (starts : e.StartsWithin b.bytes.length b.cursor) :
    e.Stored (b.putAll (e.pieces value)).bytes b.cursor value := by
  induction e using tree_induction generalizing value b with
  | leaf name code arrayLen isDynamic limits =>
    obtain ⟨⟨inside, -⟩, -⟩ := fits
    show _ <+: (splice b.bytes b.cursor _).drop b.cursor
    have front : (b.bytes.take b.cursor).length = b.cursor := by
      rw [List.length_take]
      omega
    rw [splice, List.append_assoc, List.drop_left' front]
    exact List.prefix_append _ _
  | record name arrayLen isDynamic elements ih =>
    obtain ⟨-, completes⟩ := complete
    obtain ⟨-, shapedFields⟩ := shaped
    rw [pieces] at fits ⊢
    rw [StartsWithin] at starts
    rw [Stored]
    clear arrayLen
    induction elements generalizing b with
    | nil => trivial
    | cons child rest ihRest =>
      obtain ⟨⟨hv, v, rfl, get, shapedChild⟩, shapedRest⟩ := shapedFields
      obtain ⟨startsChild, startsRest⟩ := starts
      have field : (Dv.hash hv).field child.nameBytes = v := by rw [Dv.field, get, Option.getD_some]
      rw [fieldPieces, field, fitFrom_append] at fits
      rw [fieldPieces, field, WriteBuffer.putAll_append, StoredFields, field]
      obtain ⟨ready', length, cursor⟩ := WriteBuffer.putAll_fits ready fits.1
      have first := ih child List.mem_cons_self completes.2.1 shapedChild ready bounded fits.1 startsChild
      cases rest with
      | nil => exact ⟨first, trivial⟩
      | cons next more =>
        -- the next field starts in the buffer, so this one does not wrap around
        have within := startsRest.1.start completes.2.2.2.1
        obtain ⟨total, -⟩ := spans_of_small (fun _ _ _ _ _ value => value.2.piece_span) shapedChild (by omega)
        rw [total] at cursor fits
        have fits' : FitFrom (b.putAll (child.pieces v)).bytes.length (b.putAll (child.pieces v)).cursor
            (fieldPieces (next :: more) (.hash hv)) := by
          rw [length, cursor]
          exact fits.2
        have same := WriteBuffer.take_putAll fits'
        rw [cursor] at same
        have behind := ihRest (fun x mem => ih x (List.mem_cons_of_mem _ mem)) ready' (by rw [length]; exact bounded)
          fits' (by rw [length, cursor]; exact startsRest) completes.2.2 shapedRest
        rw [cursor] at behind
        exact ⟨first.of_take shapedChild same, behind⟩
  | refId => exact complete.elim
  | refName => exact complete.elim
  | refPtr name arrayLen isDynamic target ih => exact ih complete shaped ready bounded fits starts

end DataElement

end Apx
