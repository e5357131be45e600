import Apx.UnpackLeaf
import Apx.OperationMachine

/-! Unpacking a whole value: what its program makes of the bytes, from any stack. -/

namespace Apx

open Machine Vm

namespace DataElement

mutual

/-- The value of an element from `cursor` on, where no record is an array, and without the array suffixes of
references -/
def decode : DataElement → Bytes → Nat → Dv
  | .leaf _ code arrayLen isDynamic _, bytes, cursor => decodeLeaf code arrayLen.toNat isDynamic bytes cursor
  | .record _ _ _ elements, bytes, cursor => .hash (decodeFields elements bytes cursor [])
  | .refPtr _ _ _ target, bytes, cursor => decode target bytes cursor
  | .refId .., _, _ => .null
  | .refName .., _, _ => .null

def decodeFields : List DataElement → Bytes → Nat → List (Bytes × Dv) → List (Bytes × Dv)
  | [], _, _, hv => hv
  | child :: rest, bytes, cursor, hv =>
      decodeFields rest bytes (cursor + emittedSize child) (Hash.set hv child.nameBytes (decode child bytes cursor))

end

mutual

/-- Everything of the element can be read from `cursor` on. -/
def Readable : DataElement → Bytes → Nat → Prop
  | .leaf _ code arrayLen isDynamic _, bytes, cursor => ReadableLeaf code arrayLen.toNat isDynamic bytes cursor
  | .record _ _ _ elements, bytes, cursor => ReadableFields elements bytes cursor
  | .refPtr _ _ _ target, bytes, cursor => Readable target bytes cursor
  | .refId .., _, _ => True
  | .refName .., _, _ => True

def ReadableFields : List DataElement → Bytes → Nat → Prop
  | [], _, _ => True
  | child :: rest, bytes, cursor => Readable child bytes cursor ∧ ReadableFields rest bytes (cursor + emittedSize child)

end

mutual

def past : DataElement → ReadBuffer → ReadBuffer
  | .leaf _ code arrayLen isDynamic _, b => b.past code arrayLen.toNat isDynamic
  | .record _ _ _ elements, b => pastFields elements b.flushed
  | .refPtr _ _ _ target, b => past target b
  | .refId .., b => b
  | .refName .., b => b

def pastFields : List DataElement → ReadBuffer → ReadBuffer
  | [], b => b
  | child :: rest, b => pastFields rest (past child b)

end

mutual

/-- No record is an array, and nothing has limits. -/
def Flat : DataElement → Prop
  | .leaf _ _ _ _ limits => limits = none
  | .record _ arrayLen _ elements => arrayLen.toNat = 0 ∧ FlatFields elements
  | .refPtr _ _ _ target => Flat target
  | .refId .. => True
  | .refName .. => True

def FlatFields : List DataElement → Prop
  | [] => True
  | child :: rest => Flat child ∧ FlatFields rest

end

theorem FlatFields.mem {elements : List DataElement} (flat : FlatFields elements) : ∀ child ∈ elements, child.Flat := by
  induction elements with
  | nil => nofun
  | cons head tail ih => exact List.forall_mem_cons.mpr ⟨flat.1, ih flat.2⟩

theorem Readable.start {e : DataElement} (complete : e.Complete) {bytes : Bytes} {cursor : Nat}
    (readable : e.Readable bytes cursor) : cursor ≤ bytes.length := by
  induction e using tree_induction with
  | leaf => exact readable.1
  | record name arrayLen isDynamic elements ih =>
    obtain ⟨nonempty, completes⟩ := complete
    cases elements with
    | nil => contradiction
    | cons child rest => exact ih child List.mem_cons_self completes.2.1 readable.1
  | refId => exact complete.elim
  | refName => exact complete.elim
  | refPtr name arrayLen isDynamic target ih => exact ih complete readable

/-- A record can be read only from inside of the buffer. -/
theorem ReadableFields.start {elements : List DataElement} (nonempty : elements ≠ [])
    (complete : ∀ child ∈ elements, child.nameBytes ≠ [] ∧ child.Complete) {bytes : Bytes} {cursor : Nat}
    (readable : ReadableFields elements bytes cursor) : cursor ≤ bytes.length := by
  cases elements with
  | nil => contradiction
  | cons child rest => exact readable.1.start (complete child List.mem_cons_self).2

theorem decode_ne_null {e : DataElement} (complete : e.Complete) (bytes : Bytes) (cursor : Nat) :
    e.decode bytes cursor ≠ .null := by
  induction e using tree_induction with
  | leaf name code arrayLen isDynamic limits =>
    have array (isDynamic : Bool) (next count : Nat) : decodeArray code isDynamic bytes next count ≠ .null := by
      cases code <;> exact Dv.noConfusion
    rw [decode, decodeLeaf]
    split
    · exact Dv.noConfusion
    · split
      · exact array _ _ _
      · exact array _ _ _
  | record => exact Dv.noConfusion
  | refId => exact complete.elim
  | refName => exact complete.elim
  | refPtr name arrayLen isDynamic target ih => exact ih complete

theorem pastFields_bytes_of {elements : List DataElement}
    (each : ∀ child ∈ elements, ∀ b : ReadBuffer, (child.past b).bytes = b.bytes) (b : ReadBuffer) :
    (pastFields elements b).bytes = b.bytes := by
  induction elements generalizing b with
  | nil => rfl
  | cons child rest ih =>
    rw [pastFields, ih (fun x mem => each x (List.mem_cons_of_mem _ mem)), each child List.mem_cons_self]

theorem past_bytes (e : DataElement) (b : ReadBuffer) : (e.past b).bytes = b.bytes := by
  induction e using tree_induction generalizing b with
  | leaf name code arrayLen isDynamic limits => exact b.past_bytes code arrayLen.toNat isDynamic
  | record name arrayLen isDynamic elements ih => exact pastFields_bytes_of ih b.flushed
  | refId => rfl
  | refName => rfl
  | refPtr name arrayLen isDynamic target ih => exact ih b

theorem pastFields_bytes (elements : List DataElement) (b : ReadBuffer) : (pastFields elements b).bytes = b.bytes :=
  pastFields_bytes_of (fun child _ => child.past_bytes) b

theorem pastFields_cursor_of {elements : List DataElement}
    (each : ∀ child ∈ elements, ∀ b : ReadBuffer, (child.past b).cursor = b.cursor + child.emittedSize)
    (b : ReadBuffer) : (pastFields elements b).cursor = b.cursor + emittedSizes elements := by
  induction elements generalizing b with
  | nil => rfl
  | cons child rest ih =>
    rw [pastFields, ih (fun x mem => each x (List.mem_cons_of_mem _ mem)), each child List.mem_cons_self, emittedSizes,
      Nat.add_assoc]

theorem past_cursor {e : DataElement} (complete : e.Complete) (flat : e.Flat) (b : ReadBuffer) :
    (e.past b).cursor = b.cursor + e.emittedSize := by
  induction e using tree_induction generalizing b with
  | leaf name code arrayLen isDynamic limits => exact b.past_cursor code arrayLen.toNat isDynamic
  | record name arrayLen isDynamic elements ih =>
    obtain ⟨single, flatFields⟩ := flat
    have members := complete.2.mem
    rw [emittedSize, extent, if_pos single]
    exact pastFields_cursor_of (fun child mem => ih child mem (members child mem).2 (flatFields.mem child mem)) b.flushed
  | refId => exact complete.elim
  | refName => exact complete.elim
  | refPtr name arrayLen isDynamic target ih => exact ih complete flat b

theorem pastFields_cursor {elements : List DataElement} (complete : Completes elements) (flat : FlatFields elements)
    (b : ReadBuffer) : (pastFields elements b).cursor = b.cursor + emittedSizes elements :=
  pastFields_cursor_of (fun child mem => past_cursor (complete.mem child mem).2 (flat.mem child mem)) b

theorem ReadableLeaf.sound {code : LeafCode} {arrayLength : Nat} {isDynamic : Bool} {b : ReadBuffer}
    (readable : ReadableLeaf code arrayLength isDynamic b.bytes b.cursor) (sound : b.Sound) :
    (b.past code arrayLength isDynamic).Sound := by
  refine ⟨by rw [b.past_bytes]; exact sound.nonempty, fun padded => ?_⟩
  rw [b.past_bytes]
  unfold ReadBuffer.past at padded ⊢
  split at padded
  next dynamic =>
    obtain ⟨positive, rfl⟩ := dynamic
    rw [if_pos ⟨positive, rfl⟩]
    obtain ⟨-, readable⟩ := readable
    rw [if_neg (Nat.ne_of_gt positive), if_pos rfl] at readable
    obtain ⟨-, -, -, room | ⟨-, isFixed, -⟩⟩ := readable
    · exact room
    · contradiction
  · contradiction

theorem pastFields_sound_of {elements : List DataElement} (complete : Completes elements) (flat : FlatFields elements)
    (each : ∀ child ∈ elements, ∀ b : ReadBuffer, b.Sound → child.Readable b.bytes b.cursor → (child.past b).Sound)
    {b : ReadBuffer} (sound : b.Sound) (readable : ReadableFields elements b.bytes b.cursor) :
    (pastFields elements b).Sound := by
  induction elements generalizing b with
  | nil => exact sound
  | cons child rest ih =>
    obtain ⟨readableChild, readableRest⟩ := readable
    have first := each child List.mem_cons_self b sound readableChild
    refine ih complete.2.2 flat.2 (fun x mem => each x (List.mem_cons_of_mem _ mem)) first ?_
    rw [past_bytes, past_cursor complete.2.1 flat.1]
    exact readableRest

theorem past_sound {e : DataElement} (complete : e.Complete) (flat : e.Flat) {b : ReadBuffer} (sound : b.Sound)
    (readable : e.Readable b.bytes b.cursor) : (e.past b).Sound := by
  induction e using tree_induction generalizing b with
  | leaf name code arrayLen isDynamic limits => exact ReadableLeaf.sound readable sound
  | record name arrayLen isDynamic elements ih =>
    obtain ⟨-, completes⟩ := complete
    obtain ⟨-, flatFields⟩ := flat
    exact pastFields_sound_of (b := b.flushed) completes flatFields
      (fun child mem _ => ih child mem (completes.mem child mem).2 (flatFields.mem child mem))
      ⟨sound.nonempty, fun padded => absurd rfl padded⟩ readable
  | refId => exact complete.elim
  | refName => exact complete.elim
  | refPtr name arrayLen isDynamic target ih => exact ih complete flat sound readable

theorem pastFields_sound {elements : List DataElement} (complete : Completes elements) (flat : FlatFields elements)
    {b : ReadBuffer} (sound : b.Sound) (readable : ReadableFields elements b.bytes b.cursor) :
    (pastFields elements b).Sound :=
  pastFields_sound_of complete flat
    (fun child mem _ sound => past_sound (complete.mem child mem).2 (flat.mem child mem) sound) sound readable

end DataElement

namespace Deserializer

variable {dtl : Dtl}

/-- The task goes on, or ends, as closing the states does. -/
def Continues (dtl : Dtl) (task : Task Deserializer) (mark : Option (List Operation)) (rest : List Operation) :
    Result Deserializer Unit → Prop
  | .ok _ d => Reaches (unpackEngine dtl).turn task { code := rest, mark := mark, data := d }
  | .fail failure d => Yields (unpackEngine dtl).turn task (.fail failure d)

theorem Continues.after {task task' : Task Deserializer} {mark : Option (List Operation)} {rest : List Operation}
    {r : Result Deserializer Unit} (path : Reaches (unpackEngine dtl).turn task task')
    (continues : Continues dtl task' mark rest r) : Continues dtl task mark rest r := by
  cases r with
  | ok _ d => exact path.trans continues
  | fail failure d => exact path.yields continues

/-- Wherever the machine comes to the code of an element, it reads the value of the element and hands it on, or
fails where the element cannot be read. -/
structure Unpacks (dtl : Dtl) (code : List Operation) (condition : Prop) (value : Dv) (b : ReadBuffer)
    (d : Deserializer) : Prop where
  ok : condition → ∀ (mark : Option (List Operation)) (rest : List Operation), ∃ st : ReadState, st.value = value ∧
    Continues dtl { code := code ++ rest, mark := mark, data := d } mark rest (popLoop (d.reading st b) d.stack)
  fail : ¬condition → ∀ (mark : Option (List Operation)) (rest : List Operation), ∃ failure d',
    Yields (unpackEngine dtl).turn { code := code ++ rest, mark := mark, data := d } (.fail failure d')

theorem turn_unpackData (info : PackUnpackInfo) (code : List Operation) (mark : Option (List Operation))
    (d : Deserializer) :
    (unpackEngine dtl).turn { code := .unpack info :: code, mark := mark, data := d } =
      match unpackOperation info d with
      | .fail failure d => .halt (.fail failure d)
      | .ok _ d => .next { code := code, mark := if (Operation.unpack info).marks then some code else mark, data := d } := by
  rw [Engine.turn_execute _ (by nofun)]
  simp only [unpackEngine]
  cases unpackOperation info d <;> rfl

theorem turn_unpack {info : PackUnpackInfo} (unmarked : (Operation.unpack info).marks = false) (code : List Operation)
    (mark : Option (List Operation)) (d : Deserializer) :
    (unpackEngine dtl).turn { code := .unpack info :: code, mark := mark, data := d } =
      match unpackOperation info d with
      | .fail failure d => .halt (.fail failure d)
      | .ok _ d => .next { code := code, mark := mark, data := d } := by
  rw [turn_unpackData, unmarked]
  cases unpackOperation info d <;> rfl

theorem turn_recordSelect (name : Bytes) (isLastField : Bool) (code : List Operation)
    (mark : Option (List Operation)) (d : Deserializer) :
    (unpackEngine dtl).turn { code := .recordSelect name isLastField :: code, mark := mark, data := d } =
      match d.recordSelect name isLastField with
      | .fail failure d => .halt (.fail failure d)
      | .ok _ d => .next { code := code, mark := mark, data := d } := by
  rw [Engine.turn_execute _ (by nofun)]
  simp only [unpackEngine]
  cases d.recordSelect name isLastField <;> rfl

theorem unpacks_leaf {code : LeafCode} (known : Compiler.leafInfo code ≠ none) (arrayLength : Nat) (isDynamic : Bool)
    {d : Deserializer} (idle : d.queuedReadState.isActive = false) (sound : d.buffer.Sound) :
    Unpacks dtl (leafOperations .unpack code arrayLength isDynamic none)
      (ReadableLeaf code arrayLength isDynamic d.buffer.bytes d.buffer.cursor)
      (decodeLeaf code arrayLength isDynamic d.buffer.bytes d.buffer.cursor) (d.buffer.past code arrayLength isDynamic)
      d := by
  have hands := hands_leaf known arrayLength isDynamic d idle sound
  have unmarked : (Operation.unpack (dataInfo code.typeCode arrayLength isDynamic)).marks = false := by
    cases code <;> simp [Operation.marks, dataInfo, LeafCode.typeCode]
  constructor
  · intro readable mark rest
    obtain ⟨st, value, unpacked⟩ := hands.ok readable
    refine ⟨st, value, ?_⟩
    have step := @turn_unpack dtl _ unmarked rest mark d
    rw [unpacked] at step
    cases popped : popLoop (d.reading st (d.buffer.past code arrayLength isDynamic)) d.stack with
    | ok _ d' =>
      rw [popped] at step
      exact .one step
    | fail failure d' =>
      rw [popped] at step
      exact .halt step
  · intro unreadable mark rest
    obtain ⟨failure, d', failed⟩ := hands.fail unreadable
    have step := @turn_unpack dtl _ unmarked rest mark d
    rw [failed] at step
    exact ⟨failure, d', .halt step⟩

/-- A record that waits on the stack while one of its fields is read -/
def waiting (st : ReadState) (name : Bytes) (isLastField : Bool) : ReadState :=
  { st with isLastField := isLastField, fieldName := name }

def holding (st : ReadState) (name : Bytes) (isLastField : Bool) (hv : List (Bytes × Dv)) : ReadState :=
  { waiting st name isLastField with value := .hash hv }

theorem recordSelect_eq {d : Deserializer} {hv : List (Bytes × Dv)} (holds : d.state.value = .hash hv) (name : Bytes)
    (isLastField : Bool) :
    d.recordSelect name isLastField =
      .ok () { d with stack := waiting d.state name isLastField :: d.stack, state := ReadState.create d.memory } := by
  rw [recordSelect, holds]
  rfl

/-- Behind a RECORD_SELECT the record waits on the stack. -/
theorem reaches_recordSelect {d : Deserializer} {hv : List (Bytes × Dv)} (holds : d.state.value = .hash hv)
    (name : Bytes) (isLastField : Bool) (code : List Operation) (mark : Option (List Operation)) :
    Reaches (unpackEngine dtl).turn { code := .recordSelect name isLastField :: code, mark := mark, data := d }
      { code := code, mark := mark, data := { d with
          stack := waiting d.state name isLastField :: d.stack, state := ReadState.create d.memory } } := by
  refine .one ?_
  rw [turn_recordSelect, recordSelect_eq holds]

theorem popLoop_waiting {d : Deserializer} {st : ReadState} {hv : List (Bytes × Dv)} (holds : st.value = .hash hv)
    (record : st.typeCode = .record) {name : Bytes} (named : name ≠ []) (some_ : d.state.value ≠ .null)
    (isLastField : Bool) (stack : List ReadState) :
    popLoop d (waiting st name isLastField :: stack) =
      let d' := { d with state := holding st name isLastField (Hash.set hv name d.state.value), stack := stack }
      if isLastField then popLoop d' stack else .ok () d' := by
  have handed : (waiting st name isLastField).createChildValueFromChildState hv d.state =
      .ok () (holding st name isLastField (Hash.set hv name d.state.value)) := by
    rw [ReadState.createChildValueFromChildState, if_neg (show (waiting st name isLastField).fieldName ≠ [] from named)]
    cases child : d.state.value with
    | null => exact absurd child some_
    | _ => rfl
  have isRecord : (waiting st name isLastField).typeCode = .record := record
  have value : (waiting st name isLastField).value = .hash hv := holds
  rw [popLoop]
  simp only [if_pos isRecord, value, handed]
  rfl

theorem unpacks_field {child : DataElement} (named : child.nameBytes ≠ []) (complete : child.Complete)
    (unpacks : ∀ d : Deserializer, d.queuedReadState.isActive = false → d.buffer.Sound →
      Unpacks dtl (child.emitted .unpack) (child.Readable d.buffer.bytes d.buffer.cursor)
        (child.decode d.buffer.bytes d.buffer.cursor) (child.past d.buffer) d)
    {d : Deserializer} {hv : List (Bytes × Dv)} (holds : d.state.value = .hash hv) (record : d.state.typeCode = .record)
    (idle : d.queuedReadState.isActive = false) (sound : d.buffer.Sound) (isLastField : Bool)
    (mark : Option (List Operation)) (rest : List Operation) :
    let task : Task Deserializer :=
      { code := .recordSelect child.nameBytes isLastField :: (child.emitted .unpack ++ rest), mark := mark, data := d }
    let d' := d.reading (holding d.state child.nameBytes isLastField
      (Hash.set hv child.nameBytes (child.decode d.buffer.bytes d.buffer.cursor))) (child.past d.buffer)
    (child.Readable d.buffer.bytes d.buffer.cursor →
      Continues dtl task mark rest (if isLastField then popLoop d' d.stack else .ok () d')) ∧
    (¬child.Readable d.buffer.bytes d.buffer.cursor →
      ∃ failure d', Yields (unpackEngine dtl).turn task (.fail failure d')) := by
  intro task d'
  let d₁ : Deserializer := { d with
    stack := waiting d.state child.nameBytes isLastField :: d.stack
    state := ReadState.create d.memory }
  have select : Reaches (unpackEngine dtl).turn task
      { code := child.emitted .unpack ++ rest, mark := mark, data := d₁ } :=
    reaches_recordSelect holds child.nameBytes isLastField _ mark
  have first := unpacks d₁ idle sound
  constructor
  · intro readable
    obtain ⟨st, value, continues⟩ := first.ok readable mark rest
    -- the child hands its value to this record
    have some_ : (d₁.reading st (child.past d.buffer)).state.value ≠ .null :=
      value ▸ DataElement.decode_ne_null complete _ _
    have popped := popLoop_waiting (d := d₁.reading st (child.past d.buffer)) holds record named some_ isLastField d.stack
    rw [reading_state, value] at popped
    rw [show d₁.stack = waiting d.state child.nameBytes isLastField :: d.stack from rfl, popped] at continues
    exact Continues.after select continues
  · intro unreadable
    obtain ⟨failure, d', failed⟩ := first.fail unreadable mark rest
    exact ⟨failure, d', select.yields failed⟩

theorem unpacks_fields {elements : List DataElement} (nonempty : elements ≠ [])
    (complete : ∀ child ∈ elements, child.nameBytes ≠ [] ∧ child.Complete)
    (unpacks : ∀ child ∈ elements, ∀ d : Deserializer, d.queuedReadState.isActive = false → d.buffer.Sound →
      Unpacks dtl (child.emitted .unpack) (child.Readable d.buffer.bytes d.buffer.cursor)
        (child.decode d.buffer.bytes d.buffer.cursor) (child.past d.buffer) d)
    (flat : ∀ child ∈ elements, child.Flat) {d : Deserializer} {hv : List (Bytes × Dv)}
    (holds : d.state.value = .hash hv) (record : d.state.typeCode = .record)
    (idle : d.queuedReadState.isActive = false) (sound : d.buffer.Sound) :
    Unpacks dtl (DataElement.emittedFields .unpack elements)
      (DataElement.ReadableFields elements d.buffer.bytes d.buffer.cursor)
      (.hash (DataElement.decodeFields elements d.buffer.bytes d.buffer.cursor hv))
      (DataElement.pastFields elements d.buffer) d := by
  induction elements generalizing d hv with
  | nil => contradiction
  | cons child more ih =>
    obtain ⟨⟨named, completeChild⟩, completeRest⟩ := List.forall_mem_cons.mp complete
    obtain ⟨unpacksChild, unpacksRest⟩ := List.forall_mem_cons.mp unpacks
    obtain ⟨flatChild, flatRest⟩ := List.forall_mem_cons.mp flat
    let d₂ : Deserializer := d.reading (holding d.state child.nameBytes more.isEmpty
      (Hash.set hv child.nameBytes (child.decode d.buffer.bytes d.buffer.cursor))) (child.past d.buffer)
    have first (mark : Option (List Operation)) (rest : List Operation) :=
      unpacks_field named completeChild unpacksChild holds record idle sound more.isEmpty mark
        (DataElement.emittedFields .unpack more ++ rest)
    have front (rest : List Operation) : DataElement.emittedFields .unpack (child :: more) ++ rest =
        .recordSelect child.nameBytes more.isEmpty ::
          (child.emitted .unpack ++ (DataElement.emittedFields .unpack more ++ rest)) := by
      rw [DataElement.emittedFields, List.cons_append, List.append_assoc]
    simp only [DataElement.ReadableFields, DataElement.decodeFields, DataElement.pastFields]
    by_cases readable : child.Readable d.buffer.bytes d.buffer.cursor
    swap
    · refine ⟨fun both => absurd both.1 readable, fun _ mark rest => ?_⟩
      rw [front]
      exact (first mark rest).2 readable
    cases more with
    | nil =>
      refine ⟨fun _ mark rest => ?_, fun not => absurd ⟨readable, trivial⟩ not⟩
      rw [front]
      exact ⟨d₂.state, rfl, (first mark rest).1 readable⟩
    | cons next more =>
      have behind := @ih (List.cons_ne_nil _ _) completeRest unpacksRest flatRest d₂ _ rfl record idle
        (DataElement.past_sound completeChild flatChild sound readable)
      rw [show d₂.buffer = child.past d.buffer from rfl, child.past_bytes,
        DataElement.past_cursor completeChild flatChild] at behind
      -- what is reached behind the child
      have reached (mark : Option (List Operation)) (rest : List Operation) :
          Reaches (unpackEngine dtl).turn
            { code := DataElement.emittedFields .unpack (child :: next :: more) ++ rest, mark := mark, data := d }
            { code := DataElement.emittedFields .unpack (next :: more) ++ rest, mark := mark, data := d₂ } := by
        rw [front]
        exact (first mark rest).1 readable
      constructor
      · intro both mark rest
        obtain ⟨st, value, continues⟩ := behind.ok both.2 mark rest
        exact ⟨st, value, continues.after (reached mark rest)⟩
      · intro not mark rest
        obtain ⟨failure, d', failed⟩ := behind.fail (fun readableRest => not ⟨readable, readableRest⟩) mark rest
        exact ⟨failure, d', (reached mark rest).yields failed⟩

/-- The state of a record behind its data instruction -/
def recordRead (st : ReadState) : ReadState := { st.reset.setTypeAndSize .record 0 with value := .hash [] }

theorem settles_unpackRecord (isDynamic : Bool) {d : Deserializer} (idle : d.queuedReadState.isActive = false)
    (sound : d.buffer.Sound) :
    (unpackOperation (dataInfo .record 0 isDynamic) d).Settles (d.buffer.cursor ≤ d.buffer.bytes.length)
      (d.reading (recordRead d.state) d.buffer.flushed) := by
  have info : dataInfo .record 0 isDynamic = ⟨.record, 0, false⟩ := by simp [dataInfo]
  have prepares := settles_prepareForBufferRead sound .record 0
  have active : ¬(d.queuedReadState.isActive = true ∧ d.queuedReadState.index ≥ d.queuedReadState.currentLength) := by
    simp [idle]
  rw [info]
  show ((d.prepareForBufferRead .record 0).bind fun _ d => d.unpackValue 0 .none).Settles _ _
  constructor
  · intro inside
    rw [prepares.ok inside, Result.bind_ok, unpackValue, prepareForArray, if_neg (Nat.lt_irrefl 0), Result.bind_ok,
      unpackPrepared]
    exact if_neg active
  · intro outside
    obtain ⟨failure, d', failed⟩ := prepares.fail outside
    exact ⟨failure, d', by rw [failed]; rfl⟩

theorem unpacks_record (name : Option CString) {arrayLen : UInt32} (single : arrayLen.toNat = 0) (isDynamic : Bool)
    {elements : List DataElement} (nonempty : elements ≠ [])
    (complete : ∀ child ∈ elements, child.nameBytes ≠ [] ∧ child.Complete)
    (unpacks : ∀ child ∈ elements, ∀ d : Deserializer, d.queuedReadState.isActive = false → d.buffer.Sound →
      Unpacks dtl (child.emitted .unpack) (child.Readable d.buffer.bytes d.buffer.cursor)
        (child.decode d.buffer.bytes d.buffer.cursor) (child.past d.buffer) d)
    (flat : ∀ child ∈ elements, child.Flat) {d : Deserializer} (idle : d.queuedReadState.isActive = false)
    (sound : d.buffer.Sound) :
    Unpacks dtl ((DataElement.record name arrayLen isDynamic elements).emitted .unpack)
      (DataElement.ReadableFields elements d.buffer.bytes d.buffer.cursor)
      (.hash (DataElement.decodeFields elements d.buffer.bytes d.buffer.cursor []))
      (DataElement.pastFields elements d.buffer.flushed) d := by
  have settles := settles_unpackRecord isDynamic idle sound
  have unmarked : (Operation.unpack (dataInfo .record 0 isDynamic)).marks = false := by simp [Operation.marks, dataInfo]
  have step (code : List Operation) (mark : Option (List Operation)) := @turn_unpack dtl _ unmarked code mark d
  have fields := unpacks_fields nonempty complete unpacks flat
    (d := d.reading (recordRead d.state) d.buffer.flushed) rfl rfl idle ⟨sound.nonempty, fun padded => absurd rfl padded⟩
  have operations (rest : List Operation) :
      (DataElement.record name arrayLen isDynamic elements).emitted .unpack ++ rest =
        .unpack (dataInfo .record 0 isDynamic) :: (DataElement.emittedFields .unpack elements ++ rest) := by
    simp [DataElement.emitted, Operation.data, single]
  constructor
  · intro readable mark rest
    have inside : d.buffer.cursor ≤ d.buffer.bytes.length := readable.start nonempty complete
    obtain ⟨st, value, continues⟩ := fields.ok readable mark rest
    refine ⟨st, value, Continues.after (.one ?_) continues⟩
    rw [operations, step, settles.ok inside]
  · intro unreadable mark rest
    rw [operations]
    by_cases inside : d.buffer.cursor ≤ d.buffer.bytes.length
    · obtain ⟨failure, d', failed⟩ := fields.fail unreadable mark rest
      refine ⟨failure, d', (Reaches.one ?_).yields failed⟩
      rw [step, settles.ok inside]
    · obtain ⟨failure, d', failed⟩ := settles.fail inside
      refine ⟨failure, d', .halt ?_⟩
      rw [step, failed]

/-- The machine unpacks every element without arrays of records. -/
theorem unpacks_element {e : DataElement} (complete : e.Complete) (flat : e.Flat) (d : Deserializer)
    (idle : d.queuedReadState.isActive = false) (sound : d.buffer.Sound) :
    Unpacks dtl (e.emitted .unpack) (e.Readable d.buffer.bytes d.buffer.cursor)
      (e.decode d.buffer.bytes d.buffer.cursor) (e.past d.buffer) d := by
  induction e using DataElement.tree_induction generalizing d with
  | leaf name code arrayLen isDynamic limits =>
    obtain rfl : limits = none := flat
    exact unpacks_leaf complete arrayLen.toNat isDynamic idle sound
  | record name arrayLen isDynamic elements ih =>
    obtain ⟨single, flatFields⟩ := flat
    obtain ⟨nonempty, completes⟩ := complete
    refine unpacks_record name single isDynamic nonempty completes.mem (fun child mem => ?_) flatFields.mem idle sound
    exact ih child mem (completes.mem child mem).2 (flatFields.mem child mem)
  | refId => exact complete.elim
  | refName => exact complete.elim
  | refPtr name arrayLen isDynamic target ih => exact ih complete flat d idle sound

end Deserializer

end Apx
