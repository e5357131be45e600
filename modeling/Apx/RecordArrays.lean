import Apx.RoundTrip

/-! An array of records: the records one behind the other in the buffer, and the loops that pack and unpack them. -/

namespace Apx

open Machine Vm

namespace DataElement

def oneOf (elements : List DataElement) : DataElement := .record none 0 false elements

def recordPieces (elements : List DataElement) (av : List Dv) : List Piece := av.flatMap (fieldPieces elements)

def StoredRecords (elements : List DataElement) (bytes : Bytes) : Nat → List Dv → Prop
  | _, [] => True
  | cursor, v :: more =>
      StoredFields elements bytes cursor v ∧ StoredRecords elements bytes (cursor + emittedSizes elements) more

/-- The values of `count` records from `cursor` on -/
def decodeRecords (elements : List DataElement) (bytes : Bytes) : Nat → Nat → List Dv
  | _, 0 => []
  | cursor, count + 1 =>
      .hash (decodeFields elements bytes cursor []) ::
        decodeRecords elements bytes (cursor + emittedSizes elements) count

def ReadableRecords (elements : List DataElement) (bytes : Bytes) : Nat → Nat → Prop
  | _, 0 => True
  | cursor, count + 1 =>
      ReadableFields elements bytes cursor ∧ ReadableRecords elements bytes (cursor + emittedSizes elements) count

def pastRecords (elements : List DataElement) : Nat → ReadBuffer → ReadBuffer
  | 0, b => b
  | count + 1, b => pastRecords elements count (pastFields elements b)

variable {elements : List DataElement}

/-- Without dynamic arrays the pieces span exactly the bytes of the element. -/
theorem Fixed.spans {e : DataElement} (fixed : e.Fixed) {value : Dv} (shaped : e.Shaped leafValue value) :
    spans (e.pieces value) = e.emittedSize := by
  induction e using tree_induction generalizing value with
  | leaf name code arrayLen isDynamic limits =>
    obtain rfl : isDynamic = false := fixed
    obtain ⟨-, leaf⟩ := shaped
    exact leaf.span_fixed
  | record name arrayLen isDynamic elements ih =>
    obtain ⟨single, shapedFields⟩ := shaped
    have members := FixedFields.mem fixed
    have parts := shapedFields.field
    rw [emittedSize, extent, if_pos single, pieces]
    clear fixed single shapedFields arrayLen
    induction elements with
    | nil => rfl
    | cons child rest ihRest =>
      rw [fieldPieces, spans_append, emittedSizes,
        ih child List.mem_cons_self (members child List.mem_cons_self) (parts child List.mem_cons_self),
        ihRest (fun x mem => ih x (List.mem_cons_of_mem _ mem)) (fun x mem => members x (List.mem_cons_of_mem _ mem))
          (fun x mem => parts x (List.mem_cons_of_mem _ mem))]
  | refId => exact shaped.elim
  | refName => exact shaped.elim
  | refPtr name arrayLen isDynamic target ih => exact ih fixed shaped

theorem emittedSize_oneOf (elements : List DataElement) : (oneOf elements).emittedSize = emittedSizes elements := by
  rw [oneOf, emittedSize, extent]
  rfl

theorem spans_recordPieces (fixed : FixedFields elements) {av : List Dv}
    (shaped : ∀ v ∈ av, ShapedFields leafValue elements v) :
    spans (recordPieces elements av) = emittedSizes elements * av.length := by
  induction av with
  | nil => rfl
  | cons v more ih =>
    obtain ⟨first, behind⟩ := List.forall_mem_cons.mp shaped
    have one := Fixed.spans (e := oneOf elements) fixed ⟨rfl, first⟩
    rw [emittedSize_oneOf] at one
    rw [recordPieces, List.flatMap_cons, spans_append, show spans (fieldPieces elements v) = _ from one, ← recordPieces,
      ih behind, List.length_cons, Nat.mul_succ, Nat.add_comm]

theorem unreserved_recordPieces (fixed : FixedFields elements) (av : List Dv) :
    ∀ p ∈ recordPieces elements av, p.reserved = none := by
  intro p mem
  obtain ⟨v, -, here⟩ := List.mem_flatMap.mp mem
  exact Fixed.unreserved (e := oneOf elements) fixed p here

end DataElement

/-- Pieces that fit and reserve nothing end in the buffer. -/
theorem FitFrom.spans_le {length start : Nat} {ps : List Piece} (unreserved : ∀ p ∈ ps, p.reserved = none)
    (inside : start ≤ length) (fits : FitFrom length start ps) : start + spans ps ≤ length := by
  induction ps generalizing start with
  | nil => exact inside
  | cons p rest ih =>
    obtain ⟨⟨here, -⟩, behind⟩ := fits
    have span : p.span = p.data.length := by rw [Piece.span, unreserved p List.mem_cons_self, Option.getD_none]
    have further := ih (fun q mem => unreserved q (List.mem_cons_of_mem _ mem)) (span ▸ here) behind
    have total : spans (p :: rest) = p.span + spans rest := rfl
    omega

namespace DataElement

variable {elements : List DataElement}

/-- Where the pieces of the records fit, the bytes of all records are in the buffer. -/
theorem stored_records (complete : (oneOf elements).Complete) (fixed : FixedFields elements) {av : List Dv}
    (shaped : ∀ v ∈ av, ShapedFields leafValue elements v) {b : WriteBuffer} (ready : b.Ready)
    (inside : b.cursor ≤ b.bytes.length) (bounded : b.bytes.length < 2 ^ 32)
    (fits : FitFrom b.bytes.length b.cursor (recordPieces elements av)) :
    StoredRecords elements (b.putAll (recordPieces elements av)).bytes b.cursor av := by
  induction av generalizing b with
  | nil => trivial
  | cons v more ih =>
    obtain ⟨first, behind⟩ := List.forall_mem_cons.mp shaped
    have record : (oneOf elements).Shaped leafValue v := ⟨rfl, first⟩
    have cons : recordPieces elements (v :: more) = (oneOf elements).pieces v ++ recordPieces elements more :=
      List.flatMap_cons
    rw [cons, fitFrom_append] at fits
    obtain ⟨here, further⟩ := fits
    obtain ⟨ready', length, cursor⟩ := WriteBuffer.putAll_fits ready here
    have total : spans ((oneOf elements).pieces v) = (oneOf elements).emittedSize :=
      Fixed.spans (e := oneOf elements) fixed record
    have room := here.spans_le (Fixed.unreserved (e := oneOf elements) fixed) inside
    rw [total] at cursor further room
    have starts := startsWithin_of_small record room
    have fits' : FitFrom (b.putAll ((oneOf elements).pieces v)).bytes.length
        (b.putAll ((oneOf elements).pieces v)).cursor (recordPieces elements more) := by
      rw [length, cursor]
      exact further
    have same := WriteBuffer.take_putAll fits'
    have stored := stored_putAll complete record ready bounded here starts
    have rest := ih behind ready' (by rw [length, cursor]; exact room) (by rw [length]; exact bounded) fits'
    rw [cursor] at same rest
    rw [cons, WriteBuffer.putAll_append]
    rw [emittedSize_oneOf] at rest
    exact ⟨stored.of_take record same, rest⟩

/-- Where the bytes of the records are in the buffer, the records are read. -/
theorem decoded_records (fixed : FixedFields elements) {av : List Dv}
    (shaped : ∀ v ∈ av, ShapedFields leafValue elements v) {bytes : Bytes} {cursor : Nat}
    (stored : StoredRecords elements bytes cursor av) :
    ReadableRecords elements bytes cursor av.length ∧
      List.Forall₂ (oneOf elements).Restores av (decodeRecords elements bytes cursor av.length) := by
  induction av generalizing cursor with
  | nil => exact ⟨trivial, .nil⟩
  | cons v more ih =>
    obtain ⟨first, behind⟩ := List.forall_mem_cons.mp shaped
    obtain ⟨here, further⟩ := stored
    have record : (oneOf elements).Shaped leafValue v := ⟨rfl, first⟩
    obtain ⟨readable, restores⟩ := decoded record (Fixed.each (e := oneOf elements) fixed v) here
    obtain ⟨readableRest, restoresRest⟩ := ih behind further
    exact ⟨⟨readable, readableRest⟩, .cons restores restoresRest⟩

end DataElement

open DataElement

variable {elements : List DataElement}

theorem settles_packFields {dtl : Dtl} (exact_ : dtl.Exact) (complete : (oneOf elements).Complete)
    {hv : List (Bytes × Dv)} (shaped : ShapedFields leafValue elements (.hash hv)) {b : WriteBuffer} (ready : b.Ready)
    (unpadded : b.paddedNext = none) :
    (packFields dtl elements hv b).Settles (FitFrom b.bytes.length b.cursor (fieldPieces elements (.hash hv)))
      (b.putAll (fieldPieces elements (.hash hv))) := by
  have record : (oneOf elements).Shaped leafValue (.hash hv) := ⟨rfl, shaped⟩
  have settles := settles_packElement (settles_leafValue exact_) (oneOf elements) complete record ready
  have flushed : b.flushed = b := by
    rw [WriteBuffer.flushed, WriteBuffer.cursor, unpadded]
    cases b
    cases unpadded
    rfl
  have same : packElement dtl (oneOf elements) (.hash hv) b = packFields dtl elements hv b := by
    rw [oneOf, packElement, WriteBuffer.flush_ready ready, flushed]
    rfl
  rw [same] at settles
  exact settles.iff (and_iff_right (each_of_shaped (fun _ _ _ _ _ _ => trivial) record))

theorem packRecords_fits {dtl : Dtl} (exact_ : dtl.Exact) (complete : (oneOf elements).Complete)
    (fixed : FixedFields elements) {av : List Dv} (some_ : av ≠ [])
    (shaped : ∀ v ∈ av, ShapedFields leafValue elements v) {b : WriteBuffer} (ready : b.Ready)
    (unpadded : b.paddedNext = none) :
    (FitFrom b.bytes.length b.cursor (recordPieces elements av) →
      packRecords (packFields dtl elements) av b = .left (b.putAll (recordPieces elements av))) ∧
    (¬FitFrom b.bytes.length b.cursor (recordPieces elements av) →
      ∃ failure b', packRecords (packFields dtl elements) av b = .failed failure b') := by
  induction av generalizing b with
  | nil => contradiction
  | cons v more ih =>
    obtain ⟨first, behind⟩ := List.forall_mem_cons.mp shaped
    obtain ⟨hv, rfl⟩ := first.hash
    have settles := settles_packFields exact_ complete first ready unpadded
    rw [recordPieces, List.flatMap_cons, ← recordPieces, fitFrom_append, WriteBuffer.putAll_append, packRecords]
    by_cases here : FitFrom b.bytes.length b.cursor (fieldPieces elements (.hash hv))
    swap
    · obtain ⟨failure, b', failed⟩ := settles.fail here
      rw [failed]
      exact ⟨fun both => absurd both.1 here, fun _ => ⟨failure, b', rfl⟩⟩
    obtain ⟨ready', length, cursor⟩ := WriteBuffer.putAll_fits ready here
    rw [settles.ok here]
    cases more with
    | nil => exact ⟨fun _ => rfl, fun not => absurd ⟨here, trivial⟩ not⟩
    | cons next more =>
      have unreserved : ∀ p ∈ fieldPieces elements (.hash hv), p.reserved = none :=
        Fixed.unreserved (e := oneOf elements) fixed
      have rest := ih (List.cons_ne_nil _ _) behind ready' (WriteBuffer.putAll_unpadded unreserved unpadded)
      rw [length, cursor] at rest
      exact ⟨fun both => rest.1 both.2, fun not => rest.2 fun further => not ⟨here, further⟩⟩

/-- The first record starts in the buffer. -/
theorem start_of_records (complete : (oneOf elements).Complete) {av : List Dv} (some_ : av ≠ [])
    (shaped : ∀ v ∈ av, ShapedFields leafValue elements v) {length start : Nat}
    (fits : FitFrom length start (recordPieces elements av)) : start < length := by
  obtain ⟨v, more, rfl⟩ := List.exists_cons_of_ne_nil some_
  rw [recordPieces, List.flatMap_cons, fitFrom_append] at fits
  exact start_of_fitFrom (e := oneOf elements)
    (fun _ _ _ _ _ shape => List.length_pos_of_ne_nil shape.2.data_length.1) complete
    ⟨rfl, shaped v List.mem_cons_self⟩ fits.1

theorem Vm.packs_array {dtl : Dtl} (exact_ : dtl.Exact) {name : Option CString} {arrayLen : UInt32} {program : Bytes}
    (usable : Usable (.record name arrayLen false elements) 0 .pack program) (positive : 0 < arrayLen.toNat)
    (fixed : FixedFields elements) {av : List Dv} (length : av.length = arrayLen.toNat)
    (shaped : ∀ v ∈ av, ShapedFields leafValue elements v) (representable : (Dv.array av).Representable) {vm : Vm}
    (idle : vm.serializer.queuedWriteState = {}) (buffer : Bytes) :
    (FitFrom buffer.length 0 (recordPieces elements av) → ∃ vm', Packs dtl vm program buffer (.array av) (.ok () vm') ∧
      vm'.serializer.buffer = ({ bytes := buffer } : WriteBuffer).putAll (recordPieces elements av)) ∧
    (¬FitFrom buffer.length 0 (recordPieces elements av) → ∃ failure vm',
      Packs dtl vm program buffer (.array av) (.fail failure vm')) := by
  have complete : (oneOf elements).Complete := usable.complete
  have some_ : av ≠ [] := List.ne_nil_of_length_pos (length ▸ positive)
  rcases Nat.eq_zero_or_pos buffer.length with empty | nonempty
  · obtain rfl := List.length_eq_zero_iff.mp empty
    obtain ⟨vm₁, fails, -⟩ := @Vm.packs_empty _ 0 program dtl usable vm (.array av)
    exact ⟨fun fits => absurd (start_of_records complete some_ shaped fits) (Nat.lt_irrefl 0), fun _ => ⟨_, vm₁, fails⟩⟩
  have ready : ({ bytes := buffer } : WriteBuffer).Ready := ⟨nonempty, Nat.zero_le _, Nat.zero_le _⟩
  obtain ⟨r, packs, returned⟩ := @Vm.packs_element dtl _ 0 program usable vm idle buffer nonempty _ representable
  have settles := packRecords_fits exact_ complete fixed some_ shaped ready rfl
  have whole : packElement dtl (.record name arrayLen false elements) (.array av) { bytes := buffer } =
      packRecords (packFields dtl elements) av { bytes := buffer } := by
    rw [packElement, WriteBuffer.flush_ready ready]
    simp only [if_neg (Nat.ne_of_gt positive), Bool.false_eq_true, if_false, length, ne_eq, not_true_eq_false]
    rfl
  rw [whole] at returned
  constructor
  · intro fits
    rw [settles.1 fits] at returned
    cases r with
    | ok _ vm' => exact ⟨vm', packs, returned.1⟩
    | fail failure vm' => exact returned.elim
  · intro not
    obtain ⟨failure, b, failed⟩ := settles.2 not
    rw [failed] at returned
    cases r with
    | ok _ vm' => exact returned.elim
    | fail failure vm' => exact ⟨failure, vm', packs⟩

namespace Deserializer

variable {dtl : Dtl}

/-- The state of an array of records in front of its record at `index` -/
def arrayRead (st : ReadState) (arrayLen index : Nat) (av : List Dv) : ReadState :=
  { st.reset.setTypeAndSize .record 0 with arrayLen := arrayLen, index := index, value := .array av }

def recordOf (memory : ScalarWord) : ReadState := { ReadState.create memory with value := .hash [], typeCode := .record }

theorem popLoop_array {d : Deserializer} (some_ : d.state.value ≠ .null) (st : ReadState) (arrayLen index : Nat)
    (av : List Dv) (outer : List ReadState) :
    popLoop d (arrayRead st arrayLen index av :: outer) =
      .ok () { d with state := arrayRead st arrayLen index (av ++ [d.state.value]), stack := outer } := by
  have pushed : (arrayRead st arrayLen index av).pushValueFromChildState av d.state =
      .ok () (arrayRead st arrayLen index (av ++ [d.state.value])) := by
    rw [ReadState.pushValueFromChildState]
    cases child : d.state.value with
    | null => exact absurd child some_
    | _ => rfl
  have record : (arrayRead st arrayLen index av).typeCode = .record := rfl
  have value : (arrayRead st arrayLen index av).value = .array av := rfl
  rw [popLoop]
  simp only [if_pos record, value, pushed]
  rfl

theorem arrayNext_eq {d : Deserializer} {st : ReadState} {arrayLen index : Nat} {av : List Dv}
    (state : d.state = arrayRead st arrayLen index av) (inside : index < arrayLen) (small : arrayLen < 2 ^ 32) :
    d.arrayNext =
      if index + 1 = arrayLen then .ok true { d with state := arrayRead st arrayLen (index + 1) av }
      else .ok false { d with
        stack := arrayRead st arrayLen (index + 1) av :: d.stack, state := recordOf d.memory } := by
  have next : u32 (index + 1) = index + 1 := u32_of_lt (by omega)
  have positive : arrayLen > 0 := by omega
  rw [arrayNext, state]
  simp only [arrayRead, ReadState.setTypeAndSize, if_pos positive, next]
  split
  · rfl
  · rfl

theorem turn_arrayNext (code : List Operation) (mark : Option (List Operation)) (d : Deserializer) :
    (unpackEngine dtl).turn { code := .arrayNext :: code, mark := mark, data := d } =
      match d.arrayNext with
      | .fail failure d => .halt (.fail failure d)
      | .ok true d => .next { code := code, mark := mark, data := d }
      | .ok false d =>
        match mark with
        | some saved => .next { code := saved, mark := mark, data := d }
        | none => .halt (.fail (.code .invalidInstruction) d) := by
  simp only [Engine.turn, unpackEngine]
  cases d.arrayNext with
  | fail failure d => rfl
  | ok isLast d => cases isLast <;> rfl

theorem unpacks_oneOf (complete : (oneOf elements).Complete) (flat : FlatFields elements) {d : Deserializer}
    (state : d.state = recordOf d.memory) (idle : d.queuedReadState.isActive = false) (sound : d.buffer.Sound) :
    Unpacks dtl (emittedFields .unpack elements) (ReadableFields elements d.buffer.bytes d.buffer.cursor)
      (.hash (decodeFields elements d.buffer.bytes d.buffer.cursor [])) (pastFields elements d.buffer) d := by
  obtain ⟨nonempty, completes⟩ := complete
  refine unpacks_fields nonempty completes.mem (fun child mem d idle sound => ?_) flat.mem (by rw [state]; rfl)
    (by rw [state]; rfl) idle sound
  exact unpacks_element (completes.mem child mem).2 (flat.mem child mem) d idle sound

/-- A record of an array, up to the ARRAY_NEXT behind its fields -/
theorem reaches_arrayNext (complete : (oneOf elements).Complete) (flat : FlatFields elements) {st : ReadState}
    {arrayLen index : Nat} {av : List Dv} {outer : List ReadState} {d : Deserializer}
    (stack : d.stack = arrayRead st arrayLen index av :: outer) (state : d.state = recordOf d.memory)
    (idle : d.queuedReadState.isActive = false) (sound : d.buffer.Sound)
    (readable : ReadableFields elements d.buffer.bytes d.buffer.cursor) (mark : Option (List Operation))
    (rest : List Operation) :
    Reaches (unpackEngine dtl).turn { code := emittedFields .unpack elements ++ (.arrayNext :: rest), mark := mark,
                                      data := d }
      { code := .arrayNext :: rest, mark := mark, data := { d with
          stack := outer
          state := arrayRead st arrayLen index
            (av ++ [.hash (decodeFields elements d.buffer.bytes d.buffer.cursor [])])
          buffer := pastFields elements d.buffer } } := by
  have unpacks := @unpacks_oneOf elements dtl complete flat d state idle sound
  obtain ⟨st', value, continues⟩ := unpacks.ok readable mark (.arrayNext :: rest)
  have some_ : (d.reading st' (pastFields elements d.buffer)).state.value ≠ .null := by
    rw [reading_state, value]
    exact Dv.noConfusion
  rw [stack, popLoop_array some_, reading_state, value] at continues
  exact continues

/-- The records of an array from `index` on, one pass through the code of the fields for each -/
theorem unpacks_records (complete : (oneOf elements).Complete) (flat : FlatFields elements) (st : ReadState)
    {arrayLen : Nat} (small : arrayLen < 2 ^ 32) (rest : List Operation) (outer : List ReadState) (count : Nat)
    {index : Nat} (left : index + (count + 1) = arrayLen) (av : List Dv) {d : Deserializer}
    (stack : d.stack = arrayRead st arrayLen index av :: outer) (state : d.state = recordOf d.memory)
    (idle : d.queuedReadState.isActive = false) (sound : d.buffer.Sound) :
    let code := emittedFields .unpack elements ++ (.arrayNext :: rest)
    (ReadableRecords elements d.buffer.bytes d.buffer.cursor (count + 1) →
      Reaches (unpackEngine dtl).turn { code := code, mark := some code, data := d }
        { code := rest, mark := some code, data := { d with
            stack := outer
            state := arrayRead st arrayLen arrayLen
              (av ++ decodeRecords elements d.buffer.bytes d.buffer.cursor (count + 1))
            buffer := pastRecords elements (count + 1) d.buffer } }) ∧
    (¬ReadableRecords elements d.buffer.bytes d.buffer.cursor (count + 1) →
      ∃ failure d', Yields (unpackEngine dtl).turn { code := code, mark := some code, data := d } (.fail failure d')) := by
  intro code
  induction count generalizing index av d with
  | zero =>
    have fails := (@unpacks_oneOf elements dtl complete flat d state idle sound).fail
    refine ⟨?_, fun unreadable => fails (fun readable => unreadable ⟨readable, trivial⟩) (some code) (.arrayNext :: rest)⟩
    rintro ⟨readable, -⟩
    refine (reaches_arrayNext complete flat stack state idle sound readable (some code) rest).trans (.one ?_)
    rw [turn_arrayNext, arrayNext_eq rfl (by omega) small, if_pos left, left]
    rfl
  | succ count ih =>
    by_cases readable : ReadableFields elements d.buffer.bytes d.buffer.cursor
    swap
    · have fails := (@unpacks_oneOf elements dtl complete flat d state idle sound).fail
      exact ⟨fun both => absurd both.1 readable, fun _ => fails readable (some code) (.arrayNext :: rest)⟩
    have path := @reaches_arrayNext elements dtl complete flat _ _ _ _ _ _ stack state idle sound readable (some code) rest
    let array := arrayRead st arrayLen (index + 1)
      (av ++ [.hash (decodeFields elements d.buffer.bytes d.buffer.cursor [])])
    let d' : Deserializer :=
      { d with stack := array :: outer, state := recordOf d.memory, buffer := pastFields elements d.buffer }
    have next : Reaches (unpackEngine dtl).turn { code := code, mark := some code, data := d }
        { code := code, mark := some code, data := d' } := by
      refine path.trans (.one ?_)
      rw [turn_arrayNext, arrayNext_eq rfl (by omega) small, if_neg (by omega)]
    have behind := @ih (index + 1) (by omega) (av ++ [.hash (decodeFields elements d.buffer.bytes d.buffer.cursor [])])
      d' rfl rfl idle (pastFields_sound complete.2 flat sound readable)
    rw [show d'.buffer = pastFields elements d.buffer from rfl, pastFields_bytes, pastFields_cursor complete.2 flat,
      List.append_assoc] at behind
    constructor
    · rintro ⟨-, readableRest⟩
      exact next.trans (behind.1 readableRest)
    · intro unreadable
      obtain ⟨failure, d'', fails⟩ := behind.2 fun readableRest => unreadable ⟨readable, readableRest⟩
      exact ⟨failure, d'', next.yields fails⟩

theorem unpackPrepared_records {d : Deserializer} (idle : d.queuedReadState.isActive = false)
    (positive : 0 < d.state.arrayLen) (record : d.state.typeCode = .record) :
    d.unpackPrepared = .ok () { d with
      stack := { d.state with value := .array [] } :: d.stack, state := recordOf d.memory } := by
  have active : ¬(d.queuedReadState.isActive = true ∧ d.queuedReadState.index ≥ d.queuedReadState.currentLength) := by
    simp [idle]
  have noNumber : d.state.isNumOrBoolType = false := by rw [ReadState.isNumOrBoolType, record]
  have noChar : d.state.isCharType = false := by rw [ReadState.isCharType, record]
  have noByte : d.state.isByteType = false := by
    rw [ReadState.isByteType, record]
    rfl
  have isRecord : d.state.isRecordType = true := by
    rw [ReadState.isRecordType, record]
    rfl
  rw [unpackPrepared, if_neg active, if_neg (Nat.ne_of_gt positive), noNumber, noChar, noByte, isRecord,
    unpackRecordValue, if_pos positive]
  rfl

theorem settles_unpackArray {arrayLen : Nat} (positive : 0 < arrayLen) {d : Deserializer}
    (idle : d.queuedReadState.isActive = false) (sound : d.buffer.Sound) :
    (unpackOperation (dataInfo .record arrayLen false) d).Settles (d.buffer.cursor ≤ d.buffer.bytes.length)
      { d with stack := arrayRead d.state arrayLen 0 [] :: d.stack, state := recordOf d.memory,
               buffer := d.buffer.flushed } := by
  have info : dataInfo .record arrayLen false = ⟨.record, arrayLen, false⟩ := by simp [dataInfo]
  have prepares := settles_prepareForBufferRead sound .record 0
  rw [info]
  show ((d.prepareForBufferRead .record 0).bind fun _ d => d.unpackValue arrayLen .none).Settles _ _
  constructor
  · intro inside
    rw [prepares.ok inside, Result.bind_ok, unpackValue, prepareForArray, if_pos positive, if_neg (not_not.mpr rfl),
      Result.bind_ok]
    exact unpackPrepared_records idle positive rfl
  · intro outside
    obtain ⟨failure, d', failed⟩ := prepares.fail outside
    exact ⟨failure, d', by rw [failed]; rfl⟩

/-- The machine unpacks an array of records without arrays of records in them, and keeps its state. -/
theorem unpacks_array (name : Option CString) {arrayLen : UInt32} (positive : 0 < arrayLen.toNat)
    (complete : (oneOf elements).Complete) (flat : FlatFields elements) {d : Deserializer}
    (idle : d.queuedReadState.isActive = false) (sound : d.buffer.Sound) (mark : Option (List Operation))
    (rest : List Operation) :
    let code := (DataElement.record name arrayLen false elements).emitted .unpack ++ rest
    (ReadableRecords elements d.buffer.bytes d.buffer.cursor arrayLen.toNat → ∃ st mark',
      st.value = .array (decodeRecords elements d.buffer.bytes d.buffer.cursor arrayLen.toNat) ∧
        Reaches (unpackEngine dtl).turn { code := code, mark := mark, data := d }
          { code := rest, mark := mark',
            data := d.reading st (pastRecords elements arrayLen.toNat d.buffer.flushed) }) ∧
    (¬ReadableRecords elements d.buffer.bytes d.buffer.cursor arrayLen.toNat →
      ∃ failure d', Yields (unpackEngine dtl).turn { code := code, mark := mark, data := d } (.fail failure d')) := by
  intro code
  have settles := settles_unpackArray positive idle sound
  have marked : (Operation.unpack (dataInfo .record arrayLen.toNat false)).marks = true := by
    simp [Operation.marks, dataInfo, positive]
  let loop := emittedFields .unpack elements ++ (.arrayNext :: rest)
  have operations : code = .unpack (dataInfo .record arrayLen.toNat false) :: loop := by
    simp [code, loop, DataElement.emitted, Operation.data, positive]
  have step := @turn_unpackData dtl (dataInfo .record arrayLen.toNat false) loop mark d
  rw [marked] at step
  obtain ⟨count, size⟩ : ∃ count, arrayLen.toNat = count + 1 := ⟨arrayLen.toNat - 1, by omega⟩
  by_cases inside : d.buffer.cursor ≤ d.buffer.bytes.length
  swap
  · obtain ⟨failure, d', failed⟩ := settles.fail inside
    rw [failed] at step
    rw [operations]
    refine ⟨fun readable => ?_, fun _ => ⟨failure, d', .halt step⟩⟩
    rw [size] at readable
    exact absurd (readable.1.start complete.1 complete.2.mem) inside
  rw [settles.ok inside] at step
  let d₁ : Deserializer := { d with
    stack := arrayRead d.state arrayLen.toNat 0 [] :: d.stack
    state := recordOf d.memory
    buffer := d.buffer.flushed }
  have first : Reaches (unpackEngine dtl).turn { code := code, mark := mark, data := d }
      { code := loop, mark := some loop, data := d₁ } := by
    rw [operations]
    exact .one step
  have records := @unpacks_records elements dtl complete flat d.state arrayLen.toNat arrayLen.toNat_lt rest d.stack count
    0 (by omega) [] d₁ rfl rfl idle ⟨sound.nonempty, fun padded => absurd rfl padded⟩
  rw [← size] at records
  constructor
  · intro readable
    exact ⟨_, _, rfl, first.trans (records.1 readable)⟩
  · intro unreadable
    obtain ⟨failure, d', fails⟩ := records.2 unreadable
    exact ⟨failure, d', first.yields fails⟩

end Deserializer

end Apx
