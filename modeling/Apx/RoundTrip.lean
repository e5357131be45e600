import Apx.DecodedValue
import Apx.PackLayout

/-! What a compiled program packs, the unpack program of the same element makes the same value of. -/

namespace Apx

open Machine Vm DataElement

namespace DataElement

mutual

/-- No array is dynamic. -/
def Fixed : DataElement → Prop
  | .leaf _ _ _ isDynamic _ => isDynamic = false
  | .record _ _ _ elements => FixedFields elements
  | .refPtr _ _ _ target => Fixed target
  | .refId .. => True
  | .refName .. => True

def FixedFields : List DataElement → Prop
  | [] => True
  | child :: rest => Fixed child ∧ FixedFields rest

end

theorem FixedFields.mem {elements : List DataElement} (fixed : FixedFields elements) :
    ∀ child ∈ elements, child.Fixed := by
  induction elements with
  | nil => nofun
  | cons head tail ih => exact List.forall_mem_cons.mpr ⟨fixed.1, ih fixed.2⟩

theorem Flat.limitsFit {e : DataElement} (flat : e.Flat) : e.LimitsFit := by
  induction e using tree_induction with
  | leaf name code arrayLen isDynamic limits =>
    obtain rfl : limits = none := flat
    nofun
  | record name arrayLen isDynamic elements ih =>
    obtain ⟨-, flatFields⟩ := flat
    rw [LimitsFit]
    clear arrayLen
    induction elements with
    | nil => trivial
    | cons child rest ihRest =>
      exact ⟨ih child List.mem_cons_self flatFields.1,
        ihRest (fun x mem => ih x (List.mem_cons_of_mem _ mem)) flatFields.2⟩
  | refId => trivial
  | refName => trivial
  | refPtr name arrayLen isDynamic target ih => exact ih flat

theorem Flat.shaped {e : DataElement} (flat : e.Flat) {value : Dv} (conforms : e.Conforms value) :
    e.Shaped leafValue value := by
  induction e using tree_induction generalizing value with
  | leaf => exact ⟨flat, conforms⟩
  | record name arrayLen isDynamic elements ih =>
    obtain ⟨single, flatFields⟩ := flat
    rw [Conforms, if_pos single] at conforms
    refine ⟨single, ?_⟩
    clear single arrayLen
    induction elements with
    | nil => exact conforms
    | cons child rest ihRest =>
      obtain ⟨⟨hv, v, rfl, get, conformsChild⟩, conformsRest⟩ := conforms
      exact ⟨⟨hv, v, rfl, get, ih child List.mem_cons_self flatFields.1 conformsChild⟩,
        ihRest (fun x mem => ih x (List.mem_cons_of_mem _ mem)) conformsRest flatFields.2⟩
  | refId => exact conforms.elim
  | refName => exact conforms.elim
  | refPtr name arrayLen isDynamic target ih => exact ih flat conforms

/-- A condition that all elements without children meet -/
theorem each_of_shaped {shape condition : LeafCondition} (leaves : ∀ code arrayLen isDynamic limits value,
      shape code arrayLen isDynamic limits value → condition code arrayLen isDynamic limits value)
    {e : DataElement} {value : Dv} (shaped : e.Shaped shape value) : e.Each condition value := by
  induction e using tree_induction generalizing value with
  | leaf => exact leaves _ _ _ _ _ shaped
  | record name arrayLen isDynamic elements ih =>
    obtain ⟨-, shapedFields⟩ := shaped
    rw [Each]
    clear arrayLen
    induction elements with
    | nil => trivial
    | cons child rest ihRest =>
      exact ⟨ih child List.mem_cons_self (shapedFields.field child List.mem_cons_self),
        ihRest (fun x mem => ih x (List.mem_cons_of_mem _ mem)) shapedFields.2⟩
  | refId => exact shaped.elim
  | refName => exact shaped.elim
  | refPtr name arrayLen isDynamic target ih => exact ih shaped

/-- Without dynamic arrays none of them is empty. -/
theorem Fixed.each {e : DataElement} (fixed : e.Fixed) (value : Dv) : e.Each nonempty value := by
  induction e using tree_induction generalizing value with
  | leaf => exact fun _ isDynamic => absurd (fixed.symm.trans isDynamic) Bool.false_ne_true
  | record name arrayLen isDynamic elements ih =>
    have members := FixedFields.mem fixed
    rw [Each]
    clear fixed arrayLen
    induction elements with
    | nil => trivial
    | cons child rest ihRest =>
      exact ⟨ih child List.mem_cons_self (members child List.mem_cons_self) _,
        ihRest (fun x mem => ih x (List.mem_cons_of_mem _ mem)) (fun x mem => members x (List.mem_cons_of_mem _ mem))⟩
  | refId => trivial
  | refName => trivial
  | refPtr name arrayLen isDynamic target ih => exact ih fixed value

/-- Where no array is dynamic, nothing is reserved. -/
theorem Fixed.unreserved {e : DataElement} (fixed : e.Fixed) {value : Dv} :
    ∀ p ∈ e.pieces value, p.reserved = none := by
  induction e using tree_induction generalizing value with
  | leaf name code arrayLen isDynamic limits =>
    obtain rfl : isDynamic = false := fixed
    intro p mem
    obtain rfl := List.mem_singleton.mp mem
    have nothing : reservedBytes code arrayLen.toNat false = none := if_neg fun both => Bool.false_ne_true both.1
    unfold leafPiece
    split <;> exact nothing
  | record name arrayLen isDynamic elements ih =>
    have members := FixedFields.mem fixed
    rw [pieces]
    clear fixed arrayLen
    induction elements with
    | nil => exact fun p mem => absurd mem List.not_mem_nil
    | cons child rest ihRest =>
      intro p mem
      rcases List.mem_append.mp mem with first | later
      · exact ih child List.mem_cons_self (members child List.mem_cons_self) p first
      · exact ihRest (fun x mem => ih x (List.mem_cons_of_mem _ mem))
          (fun x mem => members x (List.mem_cons_of_mem _ mem)) p later
  | refId => exact fun p mem => absurd mem List.not_mem_nil
  | refName => exact fun p mem => absurd mem List.not_mem_nil
  | refPtr name arrayLen isDynamic target ih => exact ih fixed

theorem Fixed.past_unpadded {e : DataElement} (fixed : e.Fixed) {b : ReadBuffer} (unpadded : b.paddedNext = none) :
    (e.past b).paddedNext = none := by
  induction e using tree_induction generalizing b with
  | leaf name code arrayLen isDynamic limits =>
    obtain rfl : isDynamic = false := fixed
    rw [past, ReadBuffer.past, if_neg fun both => Bool.false_ne_true both.2]
  | record name arrayLen isDynamic elements ih =>
    have members := FixedFields.mem fixed
    have fields (b : ReadBuffer) (unpadded : b.paddedNext = none) : (pastFields elements b).paddedNext = none := by
      clear fixed arrayLen
      induction elements generalizing b with
      | nil => exact unpadded
      | cons child rest ihRest =>
        have first := ih child List.mem_cons_self (members child List.mem_cons_self) unpadded
        exact ihRest (fun x mem => ih x (List.mem_cons_of_mem _ mem))
          (fun x mem => members x (List.mem_cons_of_mem _ mem)) _ first
    exact fields b.flushed rfl
  | refId => exact unpadded
  | refName => exact unpadded
  | refPtr name arrayLen isDynamic target ih => exact ih fixed unpadded

end DataElement

theorem WriteBuffer.putAll_unpadded {b : WriteBuffer} {ps : List Piece} (unreserved : ∀ p ∈ ps, p.reserved = none)
    (unpadded : b.paddedNext = none) : (b.putAll ps).paddedNext = none := by
  induction ps generalizing b with
  | nil => exact unpadded
  | cons p rest ih =>
    have here : (b.put p.data p.reserved).paddedNext = none := by
      rw [unreserved p List.mem_cons_self]
      rfl
    exact ih (fun q mem => unreserved q (List.mem_cons_of_mem _ mem)) here

namespace Vm

/-- The calls that unpack return the value that the engine leaves. -/
theorem unpacks_of_yields {dtl : Dtl} {e : DataElement} {program : Bytes} (usable : Usable e 0 .unpack program) (vm : Vm)
    {bytes : Bytes} (nonempty : 0 < bytes.length) {d : Deserializer} (some_ : d.state.value ≠ .null)
    (returns : Yields (unpackEngine dtl).turn
      { code := e.emitted .unpack, data := { vm.deserializer with buffer := { bytes := bytes } } } (.ok () d)) :
    ∃ vm', Unpacks dtl vm program bytes (.ok d.state.value vm') ∧ vm'.deserializer.buffer = d.buffer := by
  obtain ⟨r, unpacks, related⟩ := unpacks_compiled usable vm nonempty returns
  cases related with
  | @ok _ vm₁ _ same =>
    have taken : takeValue vm₁ = .ok d.state.value { vm₁ with deserializer :=
        { vm₁.deserializer with state := { vm₁.deserializer.state with value := .null } } } := by
      rw [takeValue, same]
      cases held : d.state.value with
      | null => exact absurd held some_
      | _ => rfl
    have whole : (Result.ok () vm₁).bind (fun _ vm => takeValue vm) = takeValue vm₁ := rfl
    rw [whole, taken] at unpacks
    refine ⟨_, unpacks, ?_⟩
    show vm₁.deserializer.buffer = _
    rw [same]

theorem unpacks_of_fails {dtl : Dtl} {e : DataElement} {program : Bytes} (usable : Usable e 0 .unpack program) (vm : Vm)
    {bytes : Bytes} (nonempty : 0 < bytes.length) {failure : Failure} {d : Deserializer}
    (fails : Yields (unpackEngine dtl).turn
      { code := e.emitted .unpack, data := { vm.deserializer with buffer := { bytes := bytes } } } (.fail failure d)) :
    ∃ vm', Unpacks dtl vm program bytes (.fail failure vm') := by
  obtain ⟨r, unpacks, related⟩ := unpacks_compiled usable vm nonempty fails
  cases related with
  | @fail failure vm₁ _ same => exact ⟨vm₁, unpacks⟩

theorem unpacks_value {dtl : Dtl} {e : DataElement} {program : Bytes} (usable : Usable e 0 .unpack program)
    (flat : e.Flat) {vm : Vm} (idle : vm.deserializer.queuedReadState.isActive = false)
    (alone : vm.deserializer.stack = []) {bytes : Bytes} (nonempty : 0 < bytes.length) :
    (e.Readable bytes 0 → ∃ vm', Unpacks dtl vm program bytes (.ok (e.decode bytes 0) vm') ∧
      vm'.deserializer.buffer = e.past { bytes := bytes }) ∧
    (¬e.Readable bytes 0 → ∃ failure vm', Unpacks dtl vm program bytes (.fail failure vm')) := by
  let d : Deserializer := { vm.deserializer with buffer := { bytes := bytes } }
  have sound : d.buffer.Sound := ⟨nonempty, fun padded => absurd rfl padded⟩
  have element := @Deserializer.unpacks_element dtl e usable.complete flat d idle sound
  constructor
  · intro readable
    obtain ⟨st, value, continues⟩ := element.ok readable none []
    rw [List.append_nil, show d.stack = [] from alone] at continues
    have returns : Yields (unpackEngine dtl).turn { code := e.emitted .unpack, data := d }
        (.ok () { d.reading st (e.past d.buffer) with stack := [] }) := Reaches.yields continues (.halt rfl)
    have held : st.value = e.decode bytes 0 := value
    obtain ⟨vm', unpacks, buffer⟩ :=
      unpacks_of_yields usable vm nonempty (held ▸ decode_ne_null usable.complete bytes 0) returns
    exact ⟨vm', held ▸ unpacks, buffer⟩
  · intro unreadable
    obtain ⟨failure, d', fails⟩ := element.fail unreadable none []
    rw [List.append_nil] at fails
    exact ⟨failure, unpacks_of_fails usable vm nonempty fails⟩

/-- Packing a value of an element without limits only needs room. -/
theorem settles_leafValue {dtl : Dtl} (exact_ : dtl.Exact) (code : LeafCode) (arrayLen : Nat) (isDynamic : Bool)
    (limits : Option Limits) (value : Dv) (b : WriteBuffer) (shape : leafValue code arrayLen isDynamic limits value)
    (ready : b.Ready) (small : arrayLen < 2 ^ 32) :
    (packLeaf dtl code arrayLen isDynamic limits value b).Settles
      (True ∧ b.Fits (leafPiece code arrayLen isDynamic value).data (leafPiece code arrayLen isDynamic value).reserved)
      (b.put (leafPiece code arrayLen isDynamic value).data (leafPiece code arrayLen isDynamic value).reserved) := by
  obtain ⟨rfl, leaf⟩ := shape
  exact (leaf.settles exact_ small ready).iff (and_iff_right trivial).symm

theorem packs_value {dtl : Dtl} (exact_ : dtl.Exact) {e : DataElement} {program : Bytes}
    (usable : Usable e 0 .pack program) {value : Dv} (shaped : e.Shaped leafValue value)
    (representable : value.Representable) {vm : Vm} (idle : vm.serializer.queuedWriteState = {}) (buffer : Bytes) :
    (FitFrom buffer.length 0 (e.pieces value) → ∃ vm', Packs dtl vm program buffer value (.ok () vm') ∧
      vm'.serializer.buffer = ({ bytes := buffer } : WriteBuffer).putAll (e.pieces value)) ∧
    (¬FitFrom buffer.length 0 (e.pieces value) → ∃ failure vm', Packs dtl vm program buffer value (.fail failure vm')) := by
  have each : e.Each (fun _ _ _ _ _ => True) value := each_of_shaped (fun _ _ _ _ _ _ => trivial) shaped
  obtain ⟨succeeds, fails⟩ := packs_shaped (settles_leafValue exact_)
    (fun _ _ _ _ _ shape => List.length_pos_of_ne_nil shape.2.data_length.1) usable shaped representable idle buffer
  exact ⟨fun fits => succeeds ⟨each, fits⟩, fun not => fails fun both => not both.2⟩

end Vm

/-- A value is packed into a buffer and unpacked from there, each by a new machine. -/
structure RoundTrip (dtl : Dtl) (memory : ScalarWord) (pack unpack buffer : Bytes) (value value' : Dv)
    (packed unpacked : Vm) : Prop where
  packs : Vm.Packs dtl (.create memory) pack buffer value (.ok () packed)
  unpacks : Vm.Unpacks dtl (.create memory) unpack packed.serializer.buffer.bytes (.ok value' unpacked)

/-- The value comes back, and what was written and read are as many bytes as the programs state. -/
def RoundTripsExactly (dtl : Dtl) (e : DataElement) (pack unpack : Bytes) (value : Dv) : Prop :=
  ∀ memory buffer, buffer.length = dataSizeOf pack → ∃ value' packed unpacked,
    RoundTrip dtl memory pack unpack buffer value value' packed unpacked ∧
      (e.Restores value value' ∧ (e.Tight value → value.Same value')) ∧
      packed.serializer.buffer.bytes.length = dataSizeOf pack ∧ packed.getBytesWritten = dataSizeOf pack ∧
      unpacked.getBytesRead = dataSizeOf unpack

/-- The value comes back, with all parts of it at places that only depend on the element. -/
def RoundTripsInPlace (dtl : Dtl) (e : DataElement) (pack unpack : Bytes) (value : Dv) : Prop :=
  ∀ memory buffer, buffer.length = dataSizeOf pack → ∃ value' packed unpacked,
    RoundTrip dtl memory pack unpack buffer value value' packed unpacked ∧
      (e.Restores value value' ∧ (e.Tight value → value.Same value')) ∧
      e.Stored packed.serializer.buffer.bytes 0 value

section

variable {dtl : Dtl} {e : DataElement} {pack unpack : Bytes} {value : Dv}

structure Programs (e : DataElement) (pack unpack : Bytes) : Prop where
  pack : Compiled e .pack pack
  unpack : Compiled e .unpack unpack

/-- Where the pieces fit and all parts start in the buffer, the value comes back if no dynamic array is empty. -/
theorem roundTrip (exact_ : dtl.Exact) (flat : e.Flat) (programs : Programs e pack unpack)
    (conforms : e.Conforms value) (representable : value.Representable) (memory : ScalarWord) {buffer : Bytes}
    (bounded : buffer.length < 2 ^ 32) (each : e.Each nonempty value)
    (fits : FitFrom buffer.length 0 (e.pieces value)) (starts : e.StartsWithin buffer.length 0) :
    ∃ packed unpacked, packed.serializer.buffer = ({ bytes := buffer } : WriteBuffer).putAll (e.pieces value) ∧
      packed.serializer.buffer.bytes.length = buffer.length ∧ e.Stored packed.serializer.buffer.bytes 0 value ∧
      unpacked.deserializer.buffer = e.past { bytes := packed.serializer.buffer.bytes } ∧
      e.Restores value (e.decode packed.serializer.buffer.bytes 0) ∧
      RoundTrip dtl memory pack unpack buffer value (e.decode packed.serializer.buffer.bytes 0) packed unpacked := by
  have shaped := flat.shaped conforms
  have packUsable : Usable e 0 .pack pack := ⟨flat.limitsFit, programs.pack, .inl rfl⟩
  have unpackUsable : Usable e 0 .unpack unpack := ⟨flat.limitsFit, programs.unpack, .inl rfl⟩
  have some_ : 0 < buffer.length := start_of_fitFrom
    (fun _ _ _ _ _ shape => List.length_pos_of_ne_nil shape.2.data_length.1) packUsable.complete shaped fits
  have ready : ({ bytes := buffer } : WriteBuffer).Ready := ⟨some_, Nat.zero_le _, Nat.zero_le _⟩
  obtain ⟨packed, packs, wrote⟩ :=
    (@Vm.packs_value dtl exact_ e pack packUsable value shaped representable (.create memory) rfl buffer).1 fits
  obtain ⟨-, length, -⟩ := WriteBuffer.putAll_fits ready fits
  rw [← wrote] at length
  have stored : e.Stored packed.serializer.buffer.bytes 0 value := by
    rw [wrote]
    exact stored_putAll packUsable.complete shaped ready bounded fits starts
  obtain ⟨readable, restores⟩ := decoded shaped each stored
  have nonempty : 0 < packed.serializer.buffer.bytes.length := length ▸ some_
  obtain ⟨unpacked, unpacks, read⟩ :=
    (@Vm.unpacks_value dtl e unpack unpackUsable flat (.create memory) rfl rfl _ nonempty).1 readable
  exact ⟨packed, unpacked, wrote, length, stored, read, restores, packs, unpacks⟩

/-- The programs state the size of the element, where it needs no more than 32 bits. -/
theorem Programs.stated (programs : Programs e pack unpack) (flat : e.Flat) :
    dataSizeOf pack = e.emittedSize % 2 ^ 32 ∧ dataSizeOf unpack = e.emittedSize % 2 ^ 32 :=
  ⟨dataSizeOf_compiled flat.limitsFit programs.pack, dataSizeOf_compiled flat.limitsFit programs.unpack⟩

theorem fits_of_small {value : Dv} (shaped : e.Shaped leafValue value) (small : e.emittedSize < 2 ^ 32) :
    FitFrom (e.emittedSize % 2 ^ 32) 0 (e.pieces value) ∧ e.StartsWithin (e.emittedSize % 2 ^ 32) 0 := by
  obtain ⟨total, tight⟩ := spans_of_small (fun _ _ _ _ _ value => value.2.piece_span) shaped small
  rw [Nat.mod_eq_of_lt small]
  exact ⟨.of_spans tight (by omega), startsWithin_of_small shaped (by omega)⟩

/-- Elements without dynamic arrays make the round trip. -/
theorem roundTripsExactly (exact_ : dtl.Exact) (flat : e.Flat) (fixed : e.Fixed) (small : e.emittedSize < 2 ^ 32)
    (programs : Programs e pack unpack) (conforms : e.Conforms value) (representable : value.Representable) :
    RoundTripsExactly dtl e pack unpack value := by
  intro memory buffer sized
  have shaped := flat.shaped conforms
  have complete : e.Complete := Usable.complete (⟨flat.limitsFit, programs.pack, .inl rfl⟩ : Usable e 0 .pack pack)
  obtain ⟨statedPack, statedUnpack⟩ := programs.stated flat
  obtain ⟨fits, starts⟩ := fits_of_small shaped small
  have length : buffer.length = e.emittedSize % 2 ^ 32 := sized.trans statedPack
  rw [← length] at fits starts
  have bounded : buffer.length < 2 ^ 32 := length ▸ Nat.mod_lt _ (by decide)
  obtain ⟨packed, unpacked, wrote, room, -, read, restores, trip⟩ :=
    roundTrip exact_ flat programs conforms representable memory bounded (fixed.each value) fits starts
  refine ⟨_, packed, unpacked, trip, ⟨restores, restores.same conforms⟩, room.trans sized, ?_, ?_⟩
  · obtain ⟨total, -⟩ := spans_of_small (fun _ _ _ _ _ value => value.2.piece_span) shaped small
    have ready : ({ bytes := buffer } : WriteBuffer).Ready :=
      ⟨start_of_fitFrom (fun _ _ _ _ _ shape => List.length_pos_of_ne_nil shape.2.data_length.1) complete shaped fits,
        Nat.zero_le _, Nat.zero_le _⟩
    obtain ⟨-, -, cursor⟩ := WriteBuffer.putAll_fits ready fits
    have unpadded : packed.serializer.buffer.paddedNext = none := by
      rw [wrote]
      exact WriteBuffer.putAll_unpadded fixed.unreserved rfl
    rw [← wrote, WriteBuffer.cursor, unpadded, total] at cursor
    rw [statedPack, Nat.mod_eq_of_lt small]
    exact cursor.trans (Nat.zero_add _)
  · have unpadded : unpacked.deserializer.buffer.paddedNext = none := by
      rw [read]
      exact fixed.past_unpadded rfl
    have cursor := past_cursor complete flat { bytes := packed.serializer.buffer.bytes }
    rw [← read, ReadBuffer.cursor, unpadded] at cursor
    rw [statedUnpack, Nat.mod_eq_of_lt small]
    exact cursor.trans (Nat.zero_add _)

theorem conditions_of_roundTripsInPlace (exact_ : dtl.Exact) (flat : e.Flat) (programs : Programs e pack unpack)
    (conforms : e.Conforms value) (representable : value.Representable)
    (inPlace : RoundTripsInPlace dtl e pack unpack value) :
    e.Each nonempty value ∧ FitFrom (e.emittedSize % 2 ^ 32) 0 (e.pieces value) ∧
      e.StartsWithin (e.emittedSize % 2 ^ 32) 0 := by
  have shaped := flat.shaped conforms
  have packUsable : Usable e 0 .pack pack := ⟨flat.limitsFit, programs.pack, .inl rfl⟩
  have unpackUsable : Usable e 0 .unpack unpack := ⟨flat.limitsFit, programs.unpack, .inl rfl⟩
  obtain ⟨stated, -⟩ := programs.stated flat
  let buffer : Bytes := List.replicate (e.emittedSize % 2 ^ 32) 0
  have length : buffer.length = e.emittedSize % 2 ^ 32 := List.length_replicate
  obtain ⟨value', packed, unpacked, trip, -, stored⟩ := inPlace default buffer (length.trans stated.symm)
  have packs := @Vm.packs_value dtl exact_ e pack packUsable value shaped representable (.create default) rfl buffer
  have fits : FitFrom buffer.length 0 (e.pieces value) := by
    by_contra not
    obtain ⟨failure, vm, fails⟩ := packs.2 not
    exact nomatch trip.packs.unique fails
  have some_ : 0 < buffer.length := start_of_fitFrom
    (fun _ _ _ _ _ shape => List.length_pos_of_ne_nil shape.2.data_length.1) packUsable.complete shaped fits
  have ready : ({ bytes := buffer } : WriteBuffer).Ready := ⟨some_, Nat.zero_le _, Nat.zero_le _⟩
  have room : packed.serializer.buffer.bytes.length = buffer.length := by
    obtain ⟨vm, succeeds, wrote⟩ := packs.1 fits
    obtain ⟨-, same⟩ := Result.ok.inj (trip.packs.unique succeeds)
    rw [same, wrote]
    exact (WriteBuffer.putAll_fits ready fits).2.1
  have readable : e.Readable packed.serializer.buffer.bytes 0 := by
    by_contra not
    have nonempty : 0 < packed.serializer.buffer.bytes.length := room ▸ some_
    obtain ⟨failure, vm, fails⟩ :=
      (@Vm.unpacks_value dtl e unpack unpackUsable flat (.create default) rfl rfl _ nonempty).2 not
    exact nomatch trip.unpacks.unique fails
  have starts := readable.startsWithin
  rw [room, length] at starts
  rw [length] at fits
  exact ⟨nonempty_of_readable shaped stored readable, fits, starts⟩

/-- The round trip succeeds in place if and only if no dynamic array is empty and the value has room in as many
bytes as the programs state. -/
theorem roundTripsInPlace_iff (exact_ : dtl.Exact) (flat : e.Flat) (programs : Programs e pack unpack)
    (conforms : e.Conforms value) (representable : value.Representable) :
    RoundTripsInPlace dtl e pack unpack value ↔
      e.Each nonempty value ∧ FitFrom (e.emittedSize % 2 ^ 32) 0 (e.pieces value) ∧
        e.StartsWithin (e.emittedSize % 2 ^ 32) 0 := by
  constructor
  · exact conditions_of_roundTripsInPlace exact_ flat programs conforms representable
  · rintro ⟨each, fits, starts⟩ memory buffer sized
    have length : buffer.length = e.emittedSize % 2 ^ 32 := sized.trans (programs.stated flat).1
    rw [← length] at fits starts
    have bounded : buffer.length < 2 ^ 32 := length ▸ Nat.mod_lt _ (by decide)
    obtain ⟨packed, unpacked, -, -, stored, -, restores, trip⟩ :=
      roundTrip exact_ flat programs conforms representable memory bounded each fits starts
    exact ⟨_, packed, unpacked, trip, ⟨restores, restores.same conforms⟩, stored⟩

end

/-- A record of a number and of a text -/
private def labelled : DataElement :=
  .record none 0 false
    [.leaf (some .a) .uint8 0 false none, .leaf (some .b) .char 3 false none]

private def labelledValue : Dv := .hash [([97], .scalar (.u32 5)), ([98], .scalar (.str [104, 105]))]

/-- The record of the number 5 and of a text that is shorter than its array -/
theorem roundTripsExactly_labelled : ∃ pack unpack, Programs labelled pack unpack ∧
    RoundTripsExactly .numeric labelled pack unpack labelledValue := by
  obtain ⟨pack, packs⟩ : ∃ pack, Compiled labelled .pack pack := ⟨_, rfl⟩
  obtain ⟨unpack, unpacks⟩ : ∃ unpack, Compiled labelled .unpack unpack := ⟨_, rfl⟩
  have number : LeafValue .uint8 0 false (.scalar (.u32 5)) := by
    have numbers : LeafNumbers .uint8 0 false (.scalar (.u32 5)) [5] := ⟨.u32 5, 5, rfl, rfl, rfl⟩
    refine .numbers rfl numbers fun x mem => ?_
    obtain rfl := List.mem_singleton.mp mem
    exact ⟨by decide, by decide⟩
  have text : LeafValue .char 3 false (.scalar (.str [104, 105])) :=
    .string (.inl rfl) (by decide) (by decide) fun _ => by decide
  have conforms : labelled.Conforms labelledValue := by
    rw [labelled, Conforms, if_pos (show (0 : UInt32).toNat = 0 from rfl)]
    exact ⟨⟨_, _, rfl, rfl, number⟩, ⟨_, _, rfl, rfl, text⟩, _, rfl⟩
  have representable : labelledValue.Representable := by
    refine .hash fun key v found => ?_
    simp only [Hash.get, List.lookup_cons, List.lookup_nil] at found
    split at found
    · cases found
      exact .scalar _
    · split at found
      · cases found
        exact .scalar _
      · contradiction
  exact ⟨pack, unpack, ⟨packs, unpacks⟩, roundTripsExactly Dtl.numeric_exact ⟨rfl, rfl, rfl, trivial⟩
    ⟨rfl, rfl, trivial⟩ (by decide) ⟨packs, unpacks⟩ conforms representable⟩

/-- A dynamic array of numbers, and a value with some of them -/
private def samples : DataElement := .leaf none .uint16 2 true none

private def samplesValue (xs : List (BitVec 32)) : Dv := .array (xs.map fun x => .scalar (.u32 x))

private theorem samples_conforms {xs : List (BitVec 32)} (short : xs.length ≤ 2) (small : ∀ x ∈ xs, x.toNat < 2 ^ 16) :
    samples.Conforms (samplesValue xs) := by
  have each : List.Forall₂ (fun dv (x : Int) => ∃ sv, dv = Dv.scalar sv ∧ LeafCode.uint16.number sv = some x)
      (xs.map fun x => Dv.scalar (.u32 x)) (xs.map fun x => (x.toNat : Int)) := by
    induction xs with
    | nil => exact .nil
    | cons x rest ih =>
      exact .cons ⟨.u32 x, rfl, rfl⟩ (ih (Nat.le_of_succ_le short) fun y mem => small y (List.mem_cons_of_mem _ mem))
  have numbers : LeafNumbers .uint16 2 true (samplesValue xs) (xs.map fun x => (x.toNat : Int)) :=
    ⟨_, rfl, each, by simpa using short⟩
  refine .numbers rfl numbers fun y mem => ?_
  obtain ⟨x, inside, rfl⟩ := List.mem_map.mp mem
  have bound : (x.toNat : Int) ≤ 65535 := by
    have := small x inside
    omega
  exact ⟨Int.natCast_nonneg _, bound⟩

private theorem samples_representable {xs : List (BitVec 32)} (short : xs.length ≤ 2) :
    (samplesValue xs).Representable := by
  refine .array (by rw [List.length_map]; omega) fun v mem => ?_
  obtain ⟨x, -, rfl⟩ := List.mem_map.mp mem
  exact .scalar _

/-- One of two numbers -/
theorem roundTripsInPlace_one : ∃ pack unpack, Programs samples pack unpack ∧
    RoundTripsInPlace .numeric samples pack unpack (samplesValue [7]) := by
  obtain ⟨pack, packs⟩ : ∃ pack, Compiled samples .pack pack := ⟨_, rfl⟩
  obtain ⟨unpack, unpacks⟩ : ∃ unpack, Compiled samples .unpack unpack := ⟨_, rfl⟩
  have conforms : samples.Conforms (samplesValue [7]) := samples_conforms (by decide) (by simp)
  obtain ⟨fits, starts⟩ := fits_of_small (Flat.shaped (show samples.Flat from rfl) conforms) (by decide)
  exact ⟨pack, unpack, ⟨packs, unpacks⟩, (roundTripsInPlace_iff Dtl.numeric_exact (show samples.Flat from rfl)
    ⟨packs, unpacks⟩ conforms (samples_representable (by decide))).mpr ⟨fun _ _ => by decide, fits, starts⟩⟩

/-- An array without numbers is packed, and does not come back. -/
theorem not_roundTripsInPlace_empty : ∃ pack unpack, Programs samples pack unpack ∧
    samples.Conforms (samplesValue []) ∧ ¬RoundTripsInPlace .numeric samples pack unpack (samplesValue []) := by
  obtain ⟨pack, packs⟩ : ∃ pack, Compiled samples .pack pack := ⟨_, rfl⟩
  obtain ⟨unpack, unpacks⟩ : ∃ unpack, Compiled samples .unpack unpack := ⟨_, rfl⟩
  have conforms : samples.Conforms (samplesValue []) := samples_conforms (by decide) nofun
  refine ⟨pack, unpack, ⟨packs, unpacks⟩, conforms, fun inPlace => ?_⟩
  obtain ⟨each, -, -⟩ := conditions_of_roundTripsInPlace Dtl.numeric_exact (show samples.Flat from rfl)
    ⟨packs, unpacks⟩ conforms (samples_representable (by decide)) inPlace
  exact each (by decide) rfl rfl

end Apx
