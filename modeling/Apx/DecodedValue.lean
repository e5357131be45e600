import Apx.StoredValue
import Apx.UnpackElement

/-! Decoding the bytes of a value gives the value back, if none of its dynamic arrays is empty. -/

namespace Apx

open LittleEndian Vm

/-- The length prefix has room for the lengths that the array can have. -/
theorem length_lt_pow {arrayLength length : Nat} (positive : 0 < arrayLength) (short : length ≤ arrayLength)
    (small : arrayLength < 2 ^ 32) : length < 256 ^ sizeTypeToSize (sizeToSizeType arrayLength) := by
  unfold sizeToSizeType
  rw [if_pos positive]
  split
  next one => exact lt_of_le_of_lt (short.trans one) (by decide)
  next =>
    split
    next two => exact lt_of_le_of_lt (short.trans two) (by decide)
    next => exact lt_of_le_of_lt short small

/-- The number in a length prefix that was written -/
theorem prefixNumber_of_drop {bytes rest : Bytes} {next arrayLength length : Nat} (positive : 0 < arrayLength)
    (short : length ≤ arrayLength) (small : arrayLength < 2 ^ 32)
    (here : bytes.drop next = lengthPrefix arrayLength true length ++ rest) :
    prefixNumber bytes next arrayLength = length := by
  rw [prefixNumber, slice_of_drop here (Serializer.lengthPrefix_length positive length), lengthPrefix,
    if_pos ⟨rfl, positive⟩, unpackLE_packLE, Nat.mod_eq_of_lt (length_lt_pow positive short small)]

namespace LeafCode

theorem readAs_number {code : LeafCode} (isNumber : code.isNumber = true) : code.readAs = code.typeCode := by
  cases code <;> first | contradiction | rfl

theorem decodeScalar_encode {code : LeafCode} (isNumber : code.isNumber = true) {sv : Sv} {x : Int}
    (stands : code.number sv = some x) (inRange : code.InRange x) : (code.decodeScalar (code.encode x)).Eqv sv := by
  obtain ⟨slot, sv', stored, taken, same⟩ := ReadState.read_encoded isNumber stands inRange {}
  rw [decodeScalar, readAs_number isNumber, stored, Option.bind_some, taken]
  exact same

/-- The elements of an array come back one by one. -/
theorem decodeElements_encodeAll {code : LeafCode} (isNumber : code.isNumber = true) {av : List Dv} {xs : List Int}
    (numbers : Serializer.Numbers code av xs) (inRange : ∀ x ∈ xs, code.InRange x) {bytes rest : Bytes} {next : Nat}
    (here : bytes.drop next = Serializer.encodeAll code xs ++ rest) :
    List.Forall₂ Dv.Same av (code.decodeElements bytes next xs.length) := by
  induction numbers generalizing next with
  | nil => exact .nil
  | @cons dv x av xs stands more ih =>
    obtain ⟨sv, rfl, number⟩ := stands
    obtain ⟨first, behind⟩ := List.forall_mem_cons.mp inRange
    have split : bytes.drop next = code.encode x ++ (Serializer.encodeAll code xs ++ rest) := by
      rw [here, Serializer.encodeAll, List.map_cons, List.flatten_cons, List.append_assoc]
      rfl
    have further := drop_of_drop split
    rw [encode_length] at further
    rw [List.length_cons, decodeElements, slice_of_drop split (code.encode_length x)]
    exact .cons (.scalar (decodeScalar_encode isNumber number first)) (ih behind further)

end LeafCode

namespace LeafValue

variable {code : LeafCode} {arrayLength : Nat} {isDynamic : Bool} {value : Dv}

/-- What is behind the length prefix of an array is read as the array. -/
theorem decodeArray_same (leaf : LeafValue code arrayLength isDynamic value) (positive : 0 < arrayLength) {body : Bytes}
    (piece : (leafPiece code arrayLength isDynamic value).data =
      lengthPrefix arrayLength isDynamic value.count ++ body)
    {bytes rest : Bytes} {next : Nat} (here : bytes.drop next = body ++ rest) :
    value.Same (decodeArray code isDynamic bytes next (if isDynamic then value.count else arrayLength)) := by
  have notZero := Nat.ne_of_gt positive
  cases leaf with
  | @numbers _ xs isNumber numbers inRange =>
    rw [leafPiece_numbers numbers] at piece
    rw [LeafNumbers, if_neg notZero] at numbers
    obtain ⟨av, rfl, stand, length⟩ := numbers
    have same : av.length = xs.length := List.Forall₂.length_eq stand
    rw [Dv.count, same] at piece
    obtain rfl := List.append_cancel_left piece
    have count : (if isDynamic then (Dv.array av).count else arrayLength) = xs.length := by
      cases isDynamic with
      | false => exact (show av.length = arrayLength from length) ▸ same
      | true => exact same
    have array : decodeArray code isDynamic bytes next xs.length =
        .array (code.decodeElements bytes next xs.length) := by
      cases code <;> first | contradiction | rfl
    rw [count, array]
    exact .array (LeafCode.decodeElements_encodeAll isNumber stand inRange here)
  | @string text isText _ short ends =>
    obtain rfl := List.append_cancel_left piece
    have decoded (count : Nat) : decodeArray code isDynamic bytes next count = .scalar (.str
        (if isDynamic then slice bytes next count else (slice bytes next count).takeWhile (· ≠ 0))) := by
      rcases isText with rfl | rfl <;> rfl
    rw [decoded]
    cases isDynamic with
    | true =>
      have text_eq : slice bytes next text.length = text := @slice_of_drop _ _ rest _ _ (by simpa using here) rfl
      show (Dv.scalar (.str text)).Same (.scalar (.str (slice bytes next text.length)))
      rw [text_eq]
      exact .scalar ⟨rfl, fun _ => rfl⟩
    | false =>
      have filled : (text ++ List.replicate (arrayLength - text.length) (0 : Byte)).length = arrayLength := by
        rw [List.length_append, List.length_replicate, Nat.add_sub_of_le short]
      have front : ∀ c ∈ text, (decide (c ≠ 0)) = true := fun c mem =>
        decide_eq_true fun zero => ends rfl (zero ▸ mem)
      have text_eq : (slice bytes next arrayLength).takeWhile (· ≠ 0) = text := by
        rw [slice_of_drop here filled, List.takeWhile_append_of_pos front]
        simp
      show (Dv.scalar (.str text)).Same (.scalar (.str ((slice bytes next arrayLength).takeWhile (· ≠ 0))))
      rw [text_eq]
      exact .scalar ⟨rfl, fun _ => rfl⟩
  | byte x isByte single => exact absurd single notZero
  | @bytes stored isByte _ length =>
    subst isByte
    obtain rfl := List.append_cancel_left piece
    have count : (if isDynamic then (Dv.scalar (.bytearray stored)).count else arrayLength) = stored.length := by
      cases isDynamic with
      | false => exact (show stored.length = arrayLength from length).symm
      | true => rfl
    rw [count, decodeArray, slice_of_drop here rfl]
    exact .scalar ⟨rfl, fun _ => rfl⟩

/-- The bytes of a value are read as the value, if it is no empty dynamic array. -/
theorem decoded (leaf : LeafValue code arrayLength isDynamic value) (small : arrayLength < 2 ^ 32) {bytes : Bytes}
    {cursor : Nat} (stored : (leafPiece code arrayLength isDynamic value).data <+: bytes.drop cursor)
    (some_ : 0 < arrayLength → isDynamic = true → value.count ≠ 0) :
    ReadableLeaf code arrayLength isDynamic bytes cursor ∧
      value.Same (decodeLeaf code arrayLength isDynamic bytes cursor) := by
  obtain ⟨rest, here⟩ := stored
  obtain ⟨nonempty, -⟩ := leaf.data_length
  have inside := le_length_of_drop here.symm nonempty
  obtain ⟨body, piece, length, short⟩ := leaf.piece
  have data : (leafPiece code arrayLength isDynamic value).data =
      lengthPrefix arrayLength isDynamic value.count ++ body := by rw [piece]
  rw [data, List.length_append, length] at inside
  rw [ReadableLeaf, decodeLeaf]
  rcases Nat.eq_zero_or_pos arrayLength with rfl | positive
  · have noPrefix : lengthPrefix 0 isDynamic value.count = [] := if_neg (by simp)
    rw [noPrefix, List.length_nil, Nat.zero_add, if_pos rfl, Nat.mul_one] at inside
    rw [if_pos rfl, if_pos rfl]
    refine ⟨⟨by omega, inside⟩, ?_⟩
    cases leaf with
    | numbers isNumber numbers inRange =>
      rw [leafPiece_numbers numbers] at here
      obtain ⟨sv, x, rfl, stands, rfl⟩ := numbers
      have single : bytes.drop cursor = code.encode x ++ rest := by
        rw [← here]
        simp [lengthPrefix, Serializer.encodeAll]
      rw [slice_of_drop single (code.encode_length x)]
      exact .scalar (LeafCode.decodeScalar_encode isNumber stands (inRange x List.mem_cons_self))
    | string _ positive => exact absurd positive (Nat.lt_irrefl 0)
    | byte x isByte _ =>
      subst isByte
      have single : bytes.drop cursor = [x] ++ rest := by
        rw [← here]
        simp [leafPiece, lengthPrefix]
      have read : LeafCode.decodeScalar .byte [x] = .bytearray [x] := by
        simp [LeafCode.decodeScalar, LeafCode.readAs, LeafCode.typeCode, ReadState.storedScalar,
          ReadState.scalarFromStorage, ReadState.lowByte_setByte]
      rw [slice_of_drop single (show [x].length = LeafCode.size .byte from rfl), read]
      exact .scalar ⟨rfl, fun _ => rfl⟩
    | bytes _ positive => exact absurd positive (Nat.lt_irrefl 0)
  have notZero := Nat.ne_of_gt positive
  have array := @decodeArray_same code arrayLength isDynamic value leaf positive body data bytes
  rw [data, List.append_assoc] at here
  rw [if_neg notZero, if_neg notZero]
  rw [if_neg notZero] at inside
  cases isDynamic with
  | false =>
    have noPrefix : lengthPrefix arrayLength false value.count = [] := if_neg (by simp)
    rw [noPrefix, List.length_nil, Nat.zero_add, if_neg (by decide)] at inside
    rw [noPrefix, List.nil_append] at here
    exact ⟨⟨by omega, .inl inside⟩, array here.symm⟩
  | true =>
    rw [Serializer.lengthPrefix_length positive, if_pos rfl] at inside
    have counted := prefixNumber_of_drop positive (short positive rfl) small here.symm
    have behind := drop_of_drop here.symm
    rw [Serializer.lengthPrefix_length positive] at behind
    rw [if_pos rfl, if_pos rfl, counted]
    refine ⟨⟨by omega, by omega, short positive rfl, some_ positive rfl, .inl ?_⟩, array behind⟩
    rw [Nat.add_assoc]
    exact inside

/-- An empty dynamic array is not read. -/
theorem not_readable_empty (leaf : LeafValue code arrayLength true value) (positive : 0 < arrayLength)
    (small : arrayLength < 2 ^ 32) (empty : value.count = 0) {bytes : Bytes} {cursor : Nat}
    (stored : (leafPiece code arrayLength true value).data <+: bytes.drop cursor) :
    ¬ReadableLeaf code arrayLength true bytes cursor := by
  obtain ⟨rest, here⟩ := stored
  obtain ⟨body, piece, -, -⟩ := leaf.piece
  rw [piece, empty, List.append_assoc] at here
  have counted := prefixNumber_of_drop positive (Nat.zero_le _) small here.symm
  rw [ReadableLeaf, if_neg (Nat.ne_of_gt positive), if_pos rfl]
  rintro ⟨-, -, -, some_, -⟩
  exact some_ counted

end LeafValue

namespace DataElement

/-- No dynamic array is empty. -/
def nonempty : LeafCondition := fun _ arrayLen isDynamic _ value => 0 < arrayLen → isDynamic = true → value.count ≠ 0

/-- What comes back of the fields, behind those in `hv` -/
theorem restores_decodeFields {elements : List DataElement} {value : Dv} {bytes : Bytes} {cursor : Nat}
    (restores : ∀ child ∈ elements, ∀ cursor, child.Stored bytes cursor (value.field child.nameBytes) →
      child.Restores (value.field child.nameBytes) (child.decode bytes cursor))
    (stored : StoredFields elements bytes cursor value) (hv : List (Bytes × Dv)) (key : Bytes) :
    if key ∈ fieldNames elements then
      RestoresField elements key (value.field key) (Hash.get (decodeFields elements bytes cursor hv) key)
    else Hash.get (decodeFields elements bytes cursor hv) key = Hash.get hv key := by
  induction elements generalizing cursor hv with
  | nil => rfl
  | cons child rest ih =>
    obtain ⟨storedChild, storedRest⟩ := stored
    have first := restores child List.mem_cons_self cursor storedChild
    have behind := ih (fun x mem => restores x (List.mem_cons_of_mem _ mem)) storedRest
      (Hash.set hv child.nameBytes (child.decode bytes cursor))
    rw [decodeFields, RestoresField]
    by_cases later : key ∈ fieldNames rest
    · have named : key ∈ fieldNames (child :: rest) := List.mem_cons_of_mem _ later
      rw [if_pos later] at behind
      rw [if_pos named, if_pos later]
      exact behind
    rw [if_neg later] at behind
    by_cases same : child.nameBytes = key
    · subst same
      have named : child.nameBytes ∈ fieldNames (child :: rest) := List.mem_cons_self
      rw [if_pos named, if_neg later, if_pos rfl, behind, Hash.get_set_same]
      exact ⟨_, rfl, first⟩
    · have absent : key ∉ fieldNames (child :: rest) := fun mem =>
        (List.mem_cons.mp mem).elim (fun first => same first.symm) later
      rw [if_neg absent, behind, Hash.get_set_other _ _ (Ne.symm same)]

theorem readableFields_of_stored {elements : List DataElement} {value : Dv} {bytes : Bytes} {cursor : Nat}
    (readable : ∀ child ∈ elements, ∀ cursor, child.Stored bytes cursor (value.field child.nameBytes) →
      child.Readable bytes cursor)
    (stored : StoredFields elements bytes cursor value) : ReadableFields elements bytes cursor := by
  induction elements generalizing cursor with
  | nil => trivial
  | cons child rest ih =>
    exact ⟨readable child List.mem_cons_self cursor stored.1,
      ih (fun x mem => readable x (List.mem_cons_of_mem _ mem)) stored.2⟩

/-- Where the bytes of a value are in the buffer, the value is read if no dynamic array is empty. -/
theorem decoded {e : DataElement} {value : Dv} (shaped : e.Shaped leafValue value) (each : e.Each nonempty value)
    {bytes : Bytes} {cursor : Nat} (stored : e.Stored bytes cursor value) :
    e.Readable bytes cursor ∧ e.Restores value (e.decode bytes cursor) := by
  induction e using tree_induction generalizing value cursor with
  | leaf name code arrayLen isDynamic limits => exact shaped.2.decoded arrayLen.toNat_lt stored each
  | record name arrayLen isDynamic elements ih =>
    obtain ⟨single, shapedFields⟩ := shaped
    have parts (child : DataElement) (mem : child ∈ elements) (cursor : Nat)
        (stored : child.Stored bytes cursor (value.field child.nameBytes)) :=
      ih child mem (shapedFields.field child mem) (each.field child mem) stored
    refine ⟨readableFields_of_stored (fun child mem cursor stored => (parts child mem cursor stored).1) stored, ?_⟩
    have back := restores_decodeFields (fun child mem cursor stored => (parts child mem cursor stored).2) stored []
    rw [Restores, if_pos single]
    refine ⟨_, rfl, fun key => ?_⟩
    have here := back key
    by_cases named : key ∈ fieldNames elements
    · rwa [if_pos named] at here
    · rw [if_neg named] at here
      exact (restoresField_absent named _ _).mpr here
  | refId => exact shaped.elim
  | refName => exact shaped.elim
  | refPtr name arrayLen isDynamic target ih => exact ih shaped each stored

theorem nonempty_of_readable {e : DataElement} {value : Dv} (shaped : e.Shaped leafValue value) {bytes : Bytes}
    {cursor : Nat} (stored : e.Stored bytes cursor value) (readable : e.Readable bytes cursor) :
    e.Each nonempty value := by
  induction e using tree_induction generalizing value cursor with
  | leaf name code arrayLen isDynamic limits =>
    intro positive dynamic empty
    subst dynamic
    exact shaped.2.not_readable_empty positive arrayLen.toNat_lt empty stored readable
  | record name arrayLen isDynamic elements ih =>
    obtain ⟨-, shapedFields⟩ := shaped
    rw [Each]
    rw [Stored] at stored
    rw [Readable] at readable
    clear arrayLen
    induction elements generalizing cursor with
    | nil => trivial
    | cons child rest ihRest =>
      exact ⟨ih child List.mem_cons_self (shapedFields.field child List.mem_cons_self) stored.1 readable.1,
        ihRest (fun x mem => ih x (List.mem_cons_of_mem _ mem)) stored.2 readable.2 shapedFields.2⟩
  | refId => trivial
  | refName => trivial
  | refPtr name arrayLen isDynamic target ih => exact ih shaped stored readable

/-- What can be read starts in the buffer. -/
theorem Readable.startsWithin {e : DataElement} {bytes : Bytes} {cursor : Nat} (readable : e.Readable bytes cursor) :
    e.StartsWithin bytes.length cursor := by
  induction e using tree_induction generalizing cursor with
  | leaf => exact readable.1
  | record name arrayLen isDynamic elements ih =>
    rw [StartsWithin]
    rw [Readable] at readable
    clear arrayLen
    induction elements generalizing cursor with
    | nil => trivial
    | cons child rest ihRest =>
      exact ⟨ih child List.mem_cons_self readable.1, ihRest (fun x mem => ih x (List.mem_cons_of_mem _ mem)) readable.2⟩
  | refId => trivial
  | refName => trivial
  | refPtr name arrayLen isDynamic target ih => exact ih readable

end DataElement

end Apx
