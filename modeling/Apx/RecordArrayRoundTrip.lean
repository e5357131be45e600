import Apx.RecordArrays

/-! The round trip of elements with arrays of records: such an array does not end where it is a field. -/

namespace Apx

open Machine Vm DataElement

namespace DataElement

mutual

/-- Nothing has limits, and no array is dynamic. -/
def Bare : DataElement → Prop
  | .leaf _ _ _ isDynamic limits => limits = none ∧ isDynamic = false
  | .record _ _ isDynamic elements => isDynamic = false ∧ BareFields elements
  | .refPtr _ _ _ target => Bare target
  | .refId .. => True
  | .refName .. => True

def BareFields : List DataElement → Prop
  | [] => True
  | child :: rest => Bare child ∧ BareFields rest

end

/-- No record below the root is an array. -/
def FlatBelow : DataElement → Prop
  | .record _ _ _ elements => FlatFields elements
  | _ => True

mutual

/-- The last field of the last field and so on is an array of records, and nothing else is one. -/
def TailArray : DataElement → Prop
  | .record _ arrayLen _ elements => if arrayLen.toNat = 0 then TailArrays elements else FlatFields elements
  | .refPtr _ _ _ target => TailArray target
  | .leaf .. => False
  | .refId .. => False
  | .refName .. => False

def TailArrays : List DataElement → Prop
  | [] => False
  | child :: rest => if rest.isEmpty then TailArray child else Flat child ∧ TailArrays rest

end

theorem BareFields.mem {elements : List DataElement} (bare : BareFields elements) :
    ∀ child ∈ elements, child.Bare := by
  induction elements with
  | nil => exact fun child mem => absurd mem List.not_mem_nil
  | cons head tail ih => exact List.forall_mem_cons.mpr ⟨bare.1, ih bare.2⟩

theorem Bare.fixed {e : DataElement} (bare : e.Bare) : e.Fixed := by
  induction e using tree_induction with
  | leaf => exact bare.2
  | record name arrayLen isDynamic elements ih =>
    have members := BareFields.mem bare.2
    rw [Fixed]
    clear bare
    induction elements with
    | nil => trivial
    | cons child rest ihRest =>
      exact ⟨ih child List.mem_cons_self (members child List.mem_cons_self),
        ihRest (fun x mem => ih x (List.mem_cons_of_mem _ mem)) fun x mem => members x (List.mem_cons_of_mem _ mem)⟩
  | refId => trivial
  | refName => trivial
  | refPtr name arrayLen isDynamic target ih => exact ih bare

theorem Bare.limitsFit {e : DataElement} (bare : e.Bare) : e.LimitsFit := by
  induction e using tree_induction with
  | leaf name code arrayLen isDynamic limits =>
    obtain ⟨rfl, -⟩ := bare
    exact fun l mem => absurd mem (Option.not_mem_none l)
  | record name arrayLen isDynamic elements ih =>
    have members := BareFields.mem bare.2
    rw [LimitsFit]
    clear bare
    induction elements with
    | nil => trivial
    | cons child rest ihRest =>
      exact ⟨ih child List.mem_cons_self (members child List.mem_cons_self),
        ihRest (fun x mem => ih x (List.mem_cons_of_mem _ mem)) fun x mem => members x (List.mem_cons_of_mem _ mem)⟩
  | refId => trivial
  | refName => trivial
  | refPtr name arrayLen isDynamic target ih => exact ih bare

end DataElement

/-- An array of records is left open, so its parents are. -/
theorem flat_of_packRecords {fields : List (Bytes × Dv) → WriteBuffer → PackEnd} {av : List Dv} (some_ : av ≠ [])
    {b b' : WriteBuffer} (left : packRecords fields av b = .left b') : ∃ hv b₁ b₂, fields hv b₁ = .closed b₂ := by
  cases av with
  | nil => contradiction
  | cons child more =>
    cases child with
    | hash hv =>
      rw [packRecords] at left
      cases packed : fields hv b with
      | closed b₂ => exact ⟨hv, b, b₂, packed⟩
      | failed | left =>
        rw [packed] at left
        contradiction
    | null | scalar | array => contradiction

/-- Only an element without arrays of records is closed, and only behind an array at its end it is left open. -/
theorem shape_of_packElement {dtl : Dtl} {e : DataElement} (bare : e.Bare) {value : Dv} {b b' : WriteBuffer} :
    (packElement dtl e value b = .closed b' → e.Flat) ∧ (packElement dtl e value b = .left b' → e.TailArray) := by
  induction e using tree_induction generalizing value b b' with
  | leaf name code arrayLen isDynamic limits =>
    refine ⟨fun _ => bare.1, fun left => ?_⟩
    rw [packElement] at left
    split at left <;> contradiction
  | refId => exact ⟨fun _ => trivial, fun left => by rw [packElement] at left; contradiction⟩
  | refName => exact ⟨fun _ => trivial, fun left => by rw [packElement] at left; contradiction⟩
  | refPtr name arrayLen isDynamic target ih =>
    rw [packElement]
    exact ih bare
  | record name arrayLen isDynamic elements ih =>
    have members := BareFields.mem bare.2
    have fields (hv : List (Bytes × Dv)) (b b' : WriteBuffer) :
        (packFields dtl elements hv b = .closed b' → FlatFields elements) ∧
          (packFields dtl elements hv b = .left b' → TailArrays elements) := by
      clear bare arrayLen
      induction elements generalizing b with
      | nil =>
        rw [packFields]
        exact ⟨fun _ => trivial, fun left => by contradiction⟩
      | cons child rest ihRest =>
        have first := @ih child List.mem_cons_self (members child List.mem_cons_self)
        have behind := ihRest (fun x mem => ih x (List.mem_cons_of_mem _ mem))
          fun x mem => members x (List.mem_cons_of_mem _ mem)
        rw [packFields]
        cases Hash.get hv child.nameBytes with
        | none => exact ⟨fun closed => by contradiction, fun left => by contradiction⟩
        | some value =>
          simp only
          cases packed : packElement dtl child value b with
          | failed failure b₁ => exact ⟨fun closed => by contradiction, fun left => by contradiction⟩
          | left b₁ =>
            simp only
            cases rest with
            | nil => exact ⟨fun closed => by contradiction, fun _ => first.2 packed⟩
            | cons next more => exact ⟨fun closed => by contradiction, fun left => by contradiction⟩
          | closed b₁ =>
            simp only
            cases rest with
            | nil => exact ⟨fun _ => ⟨first.1 packed, trivial⟩, fun left => by contradiction⟩
            | cons next more =>
              exact ⟨fun closed => ⟨first.1 packed, (behind b₁).1 closed⟩,
                fun left => ⟨first.1 packed, (behind b₁).2 left⟩⟩
    rw [packElement, Flat, TailArray]
    cases b.flush with
    | fail failure b₁ => exact ⟨fun closed => by contradiction, fun left => by contradiction⟩
    | ok _ b₁ =>
      simp only
      by_cases single : arrayLen.toNat = 0
      · simp only [if_pos single]
        cases value with
        | hash hv => exact ⟨fun closed => ⟨single, (fields hv b₁ b').1 closed⟩, (fields hv b₁ b').2⟩
        | null | scalar | array => exact ⟨fun closed => by contradiction, fun left => by contradiction⟩
      · obtain ⟨rfl, -⟩ := bare
        simp only [if_neg single, Bool.false_eq_true, if_false]
        cases value with
        | array av =>
          simp only
          split
          · exact ⟨fun closed => by contradiction, fun left => by contradiction⟩
          next length =>
            have some_ : av ≠ [] := by
              rintro rfl
              exact single (not_not.mp length)
            refine ⟨fun closed => absurd closed (packRecords_not_closed _ _ _ _), fun left => ?_⟩
            obtain ⟨hv, b₁, b₂, closed⟩ := flat_of_packRecords some_ left
            exact (fields hv b₁ b₂).1 closed
        | null | scalar | hash => exact ⟨fun closed => by contradiction, fun left => by contradiction⟩

namespace Deserializer

variable {dtl : Dtl}

/-- The task fails, or it leaves an array. -/
def EndsInArray (dtl : Dtl) (task : Task Deserializer) : Prop :=
  (∃ failure d, Yields (unpackEngine dtl).turn task (.fail failure d)) ∨
    ∃ av d, d.state.value = .array av ∧ Yields (unpackEngine dtl).turn task (.ok () d)

theorem EndsInArray.after {task task' : Task Deserializer} (path : Reaches (unpackEngine dtl).turn task task')
    (ends : EndsInArray dtl task') : EndsInArray dtl task := by
  rcases ends with ⟨failure, d, fails⟩ | ⟨av, d, value, yields⟩
  · exact .inl ⟨failure, d, path.yields fails⟩
  · exact .inr ⟨av, d, value, path.yields yields⟩

/-- An array of records at the end of an element is not handed to the record that it belongs to. -/
theorem endsInArray {e : DataElement} (complete : e.Complete) (bare : e.Bare) (tail : e.TailArray) {d : Deserializer}
    (idle : d.queuedReadState.isActive = false) (sound : d.buffer.Sound) (mark : Option (List Operation)) :
    EndsInArray dtl { code := e.emitted .unpack, mark := mark, data := d } := by
  induction e using tree_induction generalizing d mark with
  | leaf => exact tail.elim
  | refId => exact tail.elim
  | refName => exact tail.elim
  | refPtr name arrayLen isDynamic target ih => exact ih complete bare tail idle sound mark
  | record name arrayLen isDynamic elements ih =>
    obtain ⟨rfl, bareFields⟩ := bare
    rw [TailArray] at tail
    by_cases single : arrayLen.toNat = 0
    swap
    · rw [if_neg single] at tail
      have unpacks :=
        @unpacks_array elements dtl name arrayLen (Nat.pos_of_ne_zero single) complete tail d idle sound mark []
      rw [List.append_nil] at unpacks
      by_cases readable : ReadableRecords elements d.buffer.bytes d.buffer.cursor arrayLen.toNat
      · obtain ⟨st, mark', value, reaches⟩ := unpacks.1 readable
        exact .inr ⟨_, _, value, reaches.yields (.halt rfl)⟩
      · exact .inl (unpacks.2 readable)
    rw [if_pos single] at tail
    obtain ⟨nonempty, completes⟩ := complete
    have members := BareFields.mem bareFields
    -- the fields in front of the last one are handed to the record
    have fields (d : Deserializer) (hv : List (Bytes × Dv)) (holds : d.state.value = .hash hv)
        (record : d.state.typeCode = .record) (idle : d.queuedReadState.isActive = false) (sound : d.buffer.Sound) :
        EndsInArray dtl { code := emittedFields .unpack elements, mark := mark, data := d } := by
      clear single nonempty bareFields arrayLen
      induction elements generalizing d hv with
      | nil => exact tail.elim
      | cons child rest ihRest =>
        obtain ⟨named, completeChild, completeRest⟩ := completes
        rw [TailArrays] at tail
        rw [emittedFields]
        cases rest with
        | nil =>
          let d₁ : Deserializer :=
            { d with stack := waiting d.state child.nameBytes true :: d.stack, state := ReadState.create d.memory }
          refine EndsInArray.after (reaches_recordSelect holds child.nameBytes true _ mark) ?_
          show EndsInArray dtl { code := child.emitted .unpack ++ [], mark := mark, data := d₁ }
          rw [List.append_nil]
          exact ih child List.mem_cons_self completeChild (members child List.mem_cons_self) tail (d := d₁) idle sound mark
        | cons next more =>
          obtain ⟨flat, tailRest⟩ := tail
          have field := @unpacks_field dtl child named completeChild
            (fun d idle sound => unpacks_element completeChild flat d idle sound) d hv holds record idle sound false mark
            (emittedFields .unpack (next :: more))
          by_cases readable : child.Readable d.buffer.bytes d.buffer.cursor
          · refine EndsInArray.after (field.1 readable) ?_
            exact ihRest (fun x mem => ih x (List.mem_cons_of_mem _ mem)) tailRest completeRest
              (fun x mem => members x (List.mem_cons_of_mem _ mem)) _ _ rfl record idle
              (past_sound completeChild flat sound readable)
          · exact .inl (field.2 readable)
    have operations : (DataElement.record name arrayLen false elements).emitted .unpack =
        .unpack (dataInfo .record 0 false) :: emittedFields .unpack elements := by
      simp [DataElement.emitted, Operation.data, single]
    have unmarked : (Operation.unpack (dataInfo .record 0 false)).marks = false := by simp [Operation.marks, dataInfo]
    have step := @turn_unpack dtl _ unmarked (emittedFields .unpack elements) mark d
    have settles := settles_unpackRecord false idle sound
    rw [operations]
    by_cases inside : d.buffer.cursor ≤ d.buffer.bytes.length
    · rw [settles.ok inside] at step
      exact EndsInArray.after (.one step)
        (fields _ _ rfl rfl idle ⟨sound.nonempty, fun padded => absurd rfl padded⟩)
    · obtain ⟨failure, d', failed⟩ := settles.fail inside
      rw [failed] at step
      exact .inl ⟨failure, d', .halt step⟩

end Deserializer

/-- The value comes back from a buffer of as many bytes as the pack program states. -/
def ComesBack (dtl : Dtl) (e : DataElement) (pack unpack : Bytes) (value : Dv) : Prop :=
  ∀ memory buffer, buffer.length = dataSizeOf pack → ∃ value' packed unpacked,
    RoundTrip dtl memory pack unpack buffer value value' packed unpacked ∧
      e.Restores value value' ∧ (e.Tight value → value.Same value')

section

variable {dtl : Dtl} {e : DataElement} {pack unpack : Bytes} {value : Dv}

/-- The compiler takes no reference for the element of a port. -/
theorem Compiled.not_refPtr {name : Option CString} {arrayLen : UInt32} {isDynamic : Bool} {target : DataElement}
    {programType : ProgramType} {program : Bytes} :
    ¬Compiled (.refPtr name arrayLen isDynamic target) programType program := by
  intro compiled
  cases compiled

/-- An element that is no array of records, and has none, makes the round trip as before. -/
theorem comesBack_of_flat (exact_ : dtl.Exact) (bare : e.Bare) (flat : e.Flat) (small : e.emittedSize < 2 ^ 32)
    (programs : Programs e pack unpack) (conforms : e.Conforms value) (representable : value.Representable) :
    ComesBack dtl e pack unpack value := by
  intro memory buffer sized
  obtain ⟨value', packed, unpacked, trip, restores, -⟩ :=
    roundTripsExactly exact_ flat bare.fixed small programs conforms representable memory buffer sized
  exact ⟨value', packed, unpacked, trip, restores⟩

/-- The values in an array of records without arrays of records in them -/
theorem shaped_of_conforms {elements : List DataElement} (flat : FlatFields elements) {av : List Dv}
    (conforms : ∀ v ∈ av, ConformsFields elements v) : ∀ v ∈ av, ShapedFields leafValue elements v := by
  intro v mem
  have single : (oneOf elements).Conforms v := by
    rw [oneOf, Conforms, if_pos (show (0 : UInt32).toNat = 0 from rfl)]
    exact conforms v mem
  exact (Flat.shaped (e := oneOf elements) ⟨rfl, flat⟩ single).2

/-- An array of records at the root makes the round trip. -/
theorem comesBack_array (exact_ : dtl.Exact) {name : Option CString} {arrayLen : UInt32} {elements : List DataElement}
    (bare : (DataElement.record name arrayLen false elements).Bare) (positive : 0 < arrayLen.toNat)
    (flat : FlatFields elements) (small : (DataElement.record name arrayLen false elements).emittedSize < 2 ^ 32)
    (programs : Programs (.record name arrayLen false elements) pack unpack)
    (conforms : (DataElement.record name arrayLen false elements).Conforms value) (representable : value.Representable) :
    ComesBack dtl (.record name arrayLen false elements) pack unpack value := by
  intro memory buffer sized
  have notZero := Nat.ne_of_gt positive
  have packUsable : Usable (.record name arrayLen false elements) 0 .pack pack :=
    ⟨bare.limitsFit, programs.pack, .inl rfl⟩
  have unpackUsable : Usable (.record name arrayLen false elements) 0 .unpack unpack :=
    ⟨bare.limitsFit, programs.unpack, .inl rfl⟩
  have complete : (oneOf elements).Complete := packUsable.complete
  have fixed : FixedFields elements := bare.fixed
  rw [Conforms, if_neg notZero] at conforms
  obtain ⟨av, rfl, count, conforms⟩ := conforms
  have shaped := shaped_of_conforms flat conforms
  have total : (DataElement.record name arrayLen false elements).emittedSize = emittedSizes elements * av.length := by
    rw [emittedSize, extent, if_neg notZero, count]
    rfl
  have length : buffer.length = emittedSizes elements * av.length := by
    rw [sized, dataSizeOf_compiled bare.limitsFit programs.pack, Nat.mod_eq_of_lt small, total]
  have unreserved := unreserved_recordPieces fixed av
  have fits : FitFrom buffer.length 0 (recordPieces elements av) := by
    refine .of_spans (fun p mem => ?_) ?_
    · rw [Piece.span, unreserved p mem, Option.getD_none]
    · rw [spans_recordPieces fixed shaped, length, Nat.zero_add]
  obtain ⟨packed, packs, wrote⟩ :=
    (@Vm.packs_array elements dtl exact_ name arrayLen pack packUsable positive fixed av count shaped representable
      (.create memory) rfl buffer).1 fits
  have nonempty : 0 < buffer.length :=
    start_of_records complete (List.ne_nil_of_length_pos (count ▸ positive)) shaped fits
  have ready : ({ bytes := buffer } : WriteBuffer).Ready := ⟨nonempty, Nat.zero_le _, Nat.zero_le _⟩
  obtain ⟨-, room, -⟩ := WriteBuffer.putAll_fits ready fits
  have bounded : buffer.length < 2 ^ 32 := by
    rw [length, ← total]
    exact small
  have stored := stored_records complete fixed shaped ready (Nat.zero_le _) bounded fits
  rw [← wrote] at stored room
  obtain ⟨readable, restores⟩ := decoded_records fixed shaped stored
  rw [count] at readable restores
  let d : Deserializer := { (Vm.create memory).deserializer with buffer := { bytes := packed.serializer.buffer.bytes } }
  have some_ : 0 < packed.serializer.buffer.bytes.length := room ▸ nonempty
  have unpacks := @Deserializer.unpacks_array elements dtl name arrayLen positive complete flat d rfl
    ⟨some_, fun padded => absurd rfl padded⟩ none []
  rw [List.append_nil] at unpacks
  obtain ⟨st, mark, held, reaches⟩ := unpacks.1 readable
  obtain ⟨unpacked, unpacks, -⟩ := Vm.unpacks_of_yields unpackUsable (.create memory) some_
    (by rw [Deserializer.reading_state, held]; exact Dv.noConfusion) (reaches.yields (.halt rfl))
  rw [Deserializer.reading_state, held] at unpacks
  have back : (DataElement.record name arrayLen false elements).Restores (.array av)
      (.array (decodeRecords elements packed.serializer.buffer.bytes 0 arrayLen.toNat)) := by
    rw [Restores, if_neg notZero]
    refine ⟨_, _, rfl, rfl, restores.imp fun v v' one => ?_⟩
    rw [oneOf, Restores, if_pos (show (0 : UInt32).toNat = 0 from rfl)] at one
    exact one
  refine ⟨_, packed, unpacked, ⟨packs, unpacks⟩, back, fun tight => ?_⟩
  refine back.same ?_ tight
  rw [Conforms, if_neg notZero]
  exact ⟨av, rfl, count, conforms⟩

/-- Pieces that need more bytes than can be stated do not fit. -/
theorem not_fits_of_large {ps : List Piece} (unreserved : ∀ p ∈ ps, p.reserved = none) {size : Nat}
    (total : spans ps = size) (large : 2 ^ 32 ≤ size) : ¬FitFrom (size % 2 ^ 32) 0 ps := by
  intro fits
  have inside := fits.spans_le unreserved (Nat.zero_le _)
  have wrapped : size % 2 ^ 32 < 2 ^ 32 := Nat.mod_lt _ (by decide)
  omega

/-- The header of a pack program cannot state a size from `2 ^ 32` on, and the value does not fit then. -/
theorem packs_large (exact_ : dtl.Exact) (bare : e.Bare) (below : e.FlatBelow) (large : 2 ^ 32 ≤ e.emittedSize)
    (compiled : Compiled e .pack pack) (conforms : e.Conforms value) (representable : value.Representable)
    (memory : ScalarWord) {buffer : Bytes} (sized : buffer.length = dataSizeOf pack) :
    ∃ failure vm, Vm.Packs dtl (.create memory) pack buffer value (.fail failure vm) := by
  have usable : Usable e 0 .pack pack := ⟨bare.limitsFit, compiled, .inl rfl⟩
  have length : buffer.length = e.emittedSize % 2 ^ 32 := sized.trans (dataSizeOf_compiled bare.limitsFit compiled)
  have single (flat : e.Flat) : ∃ failure vm, Vm.Packs dtl (.create memory) pack buffer value (.fail failure vm) := by
    have shaped := flat.shaped conforms
    refine (@Vm.packs_value dtl exact_ e pack usable value shaped representable (.create memory) rfl buffer).2 ?_
    rw [length]
    exact not_fits_of_large bare.fixed.unreserved (bare.fixed.spans shaped) large
  cases e with
  | leaf => exact single bare.1
  | refId => exact conforms.elim
  | refName => exact conforms.elim
  | refPtr => exact absurd compiled Compiled.not_refPtr
  | record name arrayLen isDynamic elements =>
    rcases Nat.eq_zero_or_pos arrayLen.toNat with zero | positive
    · exact single ⟨zero, below⟩
    obtain ⟨rfl, -⟩ := id bare
    have notZero := Nat.ne_of_gt positive
    have fixed : FixedFields elements := bare.fixed
    rw [Conforms, if_neg notZero] at conforms
    obtain ⟨av, rfl, count, conforms⟩ := conforms
    have shaped := shaped_of_conforms below conforms
    refine (@Vm.packs_array elements dtl exact_ name arrayLen pack usable positive fixed av count shaped representable
      (.create memory) rfl buffer).2 ?_
    rw [length]
    refine not_fits_of_large (unreserved_recordPieces fixed av) ?_ large
    rw [spans_recordPieces fixed shaped, emittedSize, extent, if_neg notZero, count]
    rfl

/-- A value that comes back is no record with an array of records in it. -/
theorem flatBelow_of_comesBack (bare : e.Bare) (programs : Programs e pack unpack) (representable : value.Representable)
    (back : ComesBack dtl e pack unpack value) : e.FlatBelow := by
  have packUsable : Usable e 0 .pack pack := ⟨bare.limitsFit, programs.pack, .inl rfl⟩
  have unpackUsable : Usable e 0 .unpack unpack := ⟨bare.limitsFit, programs.unpack, .inl rfl⟩
  let buffer : Bytes := List.replicate (dataSizeOf pack) 0
  obtain ⟨value', packed, unpacked, trip, restores, -⟩ := back default buffer List.length_replicate
  have nonempty : 0 < buffer.length := by
    refine Nat.pos_of_ne_zero fun empty => ?_
    obtain ⟨vm, fails, -⟩ := @Vm.packs_empty e 0 pack dtl packUsable (.create default) value
    have packs := trip.packs
    rw [List.length_eq_zero_iff.mp empty] at packs
    cases packs.unique fails
  obtain ⟨r, packs, returned⟩ := @Vm.packs_element dtl e 0 pack packUsable (.create default) rfl buffer nonempty value
    representable
  obtain rfl := trip.packs.unique packs
  have room := packElement_room dtl e value { bytes := buffer }
  have shape (b' : WriteBuffer) := @shape_of_packElement dtl e bare value { bytes := buffer } b'
  cases e with
  | leaf | refId | refName | refPtr => trivial
  | record name arrayLen isDynamic elements =>
    cases which : packElement dtl (.record name arrayLen isDynamic elements) value { bytes := buffer } with
    | failed failure b =>
      rw [which] at returned
      exact returned.elim
    | closed b => exact ((shape b).1 which).2
    | left b =>
      have tailArray := (shape b).2 which
      rw [which] at returned room
      by_cases single : arrayLen.toNat = 0
      swap
      · rwa [TailArray, if_neg single] at tailArray
      -- the unpack program leaves the array, where the value is a record
      have some_ : 0 < packed.serializer.buffer.bytes.length := by
        rw [returned.1, show b.bytes.length = buffer.length from room]
        exact nonempty
      have ends := @Deserializer.endsInArray dtl _ unpackUsable.complete bare tailArray
        { (Vm.create default).deserializer with buffer := { bytes := packed.serializer.buffer.bytes } } rfl
        ⟨some_, fun padded => absurd rfl padded⟩ none
      rw [Restores, if_pos single] at restores
      obtain ⟨hv, rfl, -⟩ := restores
      rcases ends with ⟨failure, d, fails⟩ | ⟨av, d, held, yields⟩
      · obtain ⟨vm, unpacks⟩ := Vm.unpacks_of_fails unpackUsable (.create default) some_ fails
        cases trip.unpacks.unique unpacks
      · obtain ⟨vm, unpacks, -⟩ := Vm.unpacks_of_yields unpackUsable (.create default) some_
          (by rw [held]; exact Dv.noConfusion) yields
        rw [held] at unpacks
        cases trip.unpacks.unique unpacks

/-- A value comes back if and only if no record below the root is an array, and its size can be stated in 32 bits. -/
theorem comesBack_iff_flatBelow (exact_ : dtl.Exact) (bare : e.Bare) (programs : Programs e pack unpack)
    (conforms : e.Conforms value) (representable : value.Representable) :
    ComesBack dtl e pack unpack value ↔ e.FlatBelow ∧ e.emittedSize < 2 ^ 32 := by
  constructor
  · intro back
    have below := flatBelow_of_comesBack bare programs representable back
    refine ⟨below, Nat.lt_of_not_le fun large => ?_⟩
    obtain ⟨value', packed, unpacked, trip, -⟩ := back default (List.replicate (dataSizeOf pack) 0) List.length_replicate
    obtain ⟨failure, vm, fails⟩ := packs_large exact_ bare below large programs.pack conforms representable default
      List.length_replicate
    cases trip.packs.unique fails
  · rintro ⟨below, small⟩
    cases e with
    | leaf => exact comesBack_of_flat exact_ bare bare.1 small programs conforms representable
    | refId => exact conforms.elim
    | refName => exact conforms.elim
    | refPtr => exact absurd programs.pack Compiled.not_refPtr
    | record name arrayLen isDynamic elements =>
      rcases Nat.eq_zero_or_pos arrayLen.toNat with zero | positive
      · exact comesBack_of_flat exact_ bare ⟨zero, below⟩ small programs conforms representable
      · obtain ⟨rfl, -⟩ := id bare
        exact comesBack_array exact_ bare positive below small programs conforms representable

end

private def samplePair : DataElement := .record (some .b) 2 false [.leaf (some .a) .uint8 0 false none]

private def samplePairValue : Dv := .array [.hash [([97], .scalar (.u32 1))], .hash [([97], .scalar (.u32 2))]]

private def pairHolder : DataElement := .record none 0 false [samplePair]

private def pairHolderValue : Dv := .hash [([98], samplePairValue)]

private theorem samplePair_conforms : samplePair.Conforms samplePairValue := by
  have number {x : BitVec 32} (small : x.toNat < 256) : LeafValue .uint8 0 false (.scalar (.u32 x)) := by
    have numbers : LeafNumbers .uint8 0 false (.scalar (.u32 x)) [(x.toNat : Int)] := ⟨.u32 x, _, rfl, rfl, rfl⟩
    refine .numbers rfl numbers fun y mem => ?_
    obtain rfl := List.mem_singleton.mp mem
    have bound : (x.toNat : Int) ≤ 255 := by omega
    exact ⟨Int.natCast_nonneg _, bound⟩
  rw [samplePair, Conforms, if_neg (show ¬(2 : UInt32).toNat = 0 by decide)]
  refine ⟨_, rfl, rfl, List.forall_mem_cons.mpr ⟨?_, List.forall_mem_singleton.mpr ?_⟩⟩
  · exact ⟨⟨_, _, rfl, rfl, number (by decide)⟩, _, rfl⟩
  · exact ⟨⟨_, _, rfl, rfl, number (by decide)⟩, _, rfl⟩

private theorem representable_single {key : Bytes} {v : Dv} (representable : v.Representable) :
    (Dv.hash [(key, v)]).Representable := by
  refine .hash fun other v found => ?_
  simp only [Hash.get, List.lookup_cons, List.lookup_nil] at found
  split at found
  · cases found
    exact representable
  · contradiction

private theorem samplePair_representable : samplePairValue.Representable := by
  have record (x : BitVec 32) := @representable_single [97] _ (Dv.Representable.scalar (.u32 x))
  exact .array (by decide) (List.forall_mem_cons.mpr ⟨record 1, List.forall_mem_singleton.mpr (record 2)⟩)

/-- An array of two records at the root -/
theorem comesBack_samplePair : ∃ pack unpack, Programs samplePair pack unpack ∧
    ComesBack .numeric samplePair pack unpack samplePairValue := by
  obtain ⟨pack, packs⟩ : ∃ pack, Compiled samplePair .pack pack := ⟨_, rfl⟩
  obtain ⟨unpack, unpacks⟩ : ∃ unpack, Compiled samplePair .unpack unpack := ⟨_, rfl⟩
  have bare : samplePair.Bare := ⟨rfl, ⟨rfl, rfl⟩, trivial⟩
  exact ⟨pack, unpack, ⟨packs, unpacks⟩, (comesBack_iff_flatBelow Dtl.numeric_exact bare ⟨packs, unpacks⟩ samplePair_conforms
    samplePair_representable).mpr ⟨⟨rfl, trivial⟩, by decide⟩⟩

/-- The same array as the field of a record -/
theorem not_comesBack_pairHolder : ∃ pack unpack, Programs pairHolder pack unpack ∧ pairHolder.Bare ∧
    pairHolder.Conforms pairHolderValue ∧ ¬ComesBack .numeric pairHolder pack unpack pairHolderValue := by
  obtain ⟨pack, packs⟩ : ∃ pack, Compiled pairHolder .pack pack := ⟨_, rfl⟩
  obtain ⟨unpack, unpacks⟩ : ∃ unpack, Compiled pairHolder .unpack unpack := ⟨_, rfl⟩
  have bare : pairHolder.Bare := ⟨rfl, ⟨rfl, ⟨rfl, rfl⟩, trivial⟩, trivial⟩
  have conforms : pairHolder.Conforms pairHolderValue := by
    rw [pairHolder, Conforms, if_pos (show (0 : UInt32).toNat = 0 from rfl)]
    exact ⟨⟨_, _, rfl, rfl, samplePair_conforms⟩, _, rfl⟩
  have representable : pairHolderValue.Representable := representable_single samplePair_representable
  refine ⟨pack, unpack, ⟨packs, unpacks⟩, bare, conforms, fun back => ?_⟩
  have below := flatBelow_of_comesBack bare ⟨packs, unpacks⟩ representable back
  exact absurd below.1.1 (by decide)

end Apx
