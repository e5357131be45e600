import Apx.PackLeaf

/-! Packing the value of a data element: what its program does to the write buffer, and how the
loop of the machine does it from any stack. -/

namespace Apx

open Machine Vm

/-- No array of the value has `2 ^ 31` elements or more: the library counts them in int32_t. -/
inductive Dv.Representable : Dv → Prop where
  | null : Representable .null
  | scalar (sv : Sv) : Representable (.scalar sv)
  | array {av : List Dv} (short : av.length < 2 ^ 31) (each : ∀ v ∈ av, Representable v) :
      Representable (.array av)
  | hash {hv : List (Bytes × Dv)} (each : ∀ key v, Hash.get hv key = some v → Representable v) :
      Representable (.hash hv)

/-- How the program of an element ends. A closed value has also closed the records that it was
the last field of; nothing ever closes an array of records. -/
inductive PackEnd where
  | failed (failure : Failure) (buffer : WriteBuffer)
  | closed (buffer : WriteBuffer)
  | left (buffer : WriteBuffer)
  deriving DecidableEq, Repr

/-- What every data instruction does to the buffer first. -/
def WriteBuffer.flush (b : WriteBuffer) : Result WriteBuffer Unit :=
  if b.isValid = false then .fail (.code .missingBuffer) b
  else
    match b.paddedNext with
    | some padded =>
        if padded > b.bytes.length then .fail (.code .bufferBoundary) b
        else .ok () { b with next := padded, paddedNext := none }
    | none => .ok () b

theorem WriteBuffer.flush_fail {b b' : WriteBuffer} {failure : Failure}
    (failed : b.flush = .fail failure b') : b' = b := by
  unfold WriteBuffer.flush at failed
  split at failed
  · cases failed
    rfl
  · split at failed
    · split at failed
      · cases failed
        rfl
      · contradiction
    · contradiction

/-- How a dynamic array of records fails: a record has no element size. -/
def dynamicRecordFailure (dtl : Dtl) (arrayLength : Nat) (value : Dv) : Failure :=
  match WriteState.determineArrayLengthFromValue dtl { value := value } with
  | .fail failure _ => failure
  | .ok _ st => if st.arrayLen > arrayLength then .code .valueLength else .assertion

/-- The records of an array one after another, where `fields` packs the fields of one. An
array that was left open inside of a record is taken for this one, and is at its end. -/
def packRecords (fields : List (Bytes × Dv) → WriteBuffer → PackEnd) : List Dv → WriteBuffer → PackEnd
  | [], b => .left b
  | .hash hv :: more, b =>
      match fields hv b with
      | .failed failure b => .failed failure b
      | .left b => .failed (.code .nullPtr) b
      | .closed b => if more.isEmpty then .left b else packRecords fields more b
  | _ :: _, b => .failed (.code .valueType) b

theorem packRecords_not_closed (fields : List (Bytes × Dv) → WriteBuffer → PackEnd) (av : List Dv)
    (b b' : WriteBuffer) : packRecords fields av b ≠ .closed b' := by
  induction av generalizing b with
  | nil => nofun
  | cons child more ih =>
    cases child with
    | hash hv =>
      rw [packRecords]
      split
      · nofun
      · nofun
      · split
        · nofun
        · exact ih _
    | _ => nofun

mutual

/-- What the pack program of an element does with a value and a buffer. -/
def packElement (dtl : Dtl) : DataElement → Dv → WriteBuffer → PackEnd
  | .leaf _ code arrayLen isDynamic limits, value, b =>
      match packLeaf dtl code arrayLen.toNat isDynamic limits value b with
      | .fail failure b => .failed failure b
      | .ok _ b => .closed b
  | .record _ arrayLen isDynamic elements, value, b =>
      match b.flush with
      | .fail failure b => .failed failure b
      | .ok _ b =>
        if arrayLen.toNat = 0 then
          match value with
          | .hash hv => packFields dtl elements hv b
          | _ => .failed (.code .valueType) b
        else if isDynamic then .failed (dynamicRecordFailure dtl arrayLen.toNat value) b
        else
          match value with
          | .array av =>
            if arrayLen.toNat ≠ av.length then .failed (.code .valueLength) b
            else packRecords (packFields dtl elements) av b
          | _ => .failed (.code .valueType) b
  | .refPtr _ _ _ target, value, b => packElement dtl target value b
  | .refId .., _, b => .failed .assertion b
  | .refName .., _, b => .failed .assertion b

/-- The fields of a record. Behind an array that was left open there is no record to select
a field of. -/
def packFields (dtl : Dtl) : List DataElement → List (Bytes × Dv) → WriteBuffer → PackEnd
  | [], _, b => .closed b
  | child :: rest, hv, b =>
      match Hash.get hv child.nameBytes with
      | none => .failed (.code .notFound) b
      | some value =>
        match packElement dtl child value b with
        | .failed failure b => .failed failure b
        | .left b => if rest.isEmpty then .left b else .failed (.code .valueType) b
        | .closed b => if rest.isEmpty then .closed b else packFields dtl rest hv b

end

namespace Serializer

/-- The state of an array of records behind its last record -/
structure Finished (st : WriteState) : Prop where
  value : ∃ av, st.value = .array av ∧ st.arrayLen = av.length ∧ av.length < 2 ^ 31
  index : st.index = st.arrayLen
  positive : 0 < st.arrayLen
  typeCode : st.typeCode = .record

/-- The task ends as the element does, in front of `rest` and above `stack`. -/
def Ends (dtl : Dtl) (stack : List WriteState) (rest : List Operation) (task : Task Serializer) :
    PackEnd → Prop
  | .failed failure b => ∃ s, Yields (packEngine dtl).turn task (.fail failure s) ∧ s.buffer = b
  | .closed b => ∃ st, Reaches (packEngine dtl).turn task
      { code := rest, mark := task.mark, data := popLoop { state := st, buffer := b } stack }
  | .left b => ∃ st above mark, Finished st ∧ Reaches (packEngine dtl).turn task
      { code := rest, mark := mark, data := { stack := above, state := st, buffer := b } }

variable {dtl : Dtl} {stack : List WriteState} {rest : List Operation}

/-- The turns in front of a task leave its end as it is. -/
theorem Ends.after {task task' : Task Serializer} {e : PackEnd} (ends : Ends dtl stack rest task' e)
    (path : Reaches (packEngine dtl).turn task task') (mark : task'.mark = task.mark) :
    Ends dtl stack rest task e := by
  cases e with
  | failed failure b =>
    obtain ⟨s, yields, buffer⟩ := ends
    exact ⟨s, path.yields yields, buffer⟩
  | closed b =>
    obtain ⟨st, reaches⟩ := ends
    exact ⟨st, mark ▸ path.trans reaches⟩
  | left b =>
    obtain ⟨st, above, mark, finished, reaches⟩ := ends
    exact ⟨st, above, mark, finished, path.trans reaches⟩

/-- An element that is not closed may also have changed the mark. -/
theorem Ends.afterMark {task task' : Task Serializer} {e : PackEnd} (ends : Ends dtl stack rest task' e)
    (path : Reaches (packEngine dtl).turn task task') (notClosed : ∀ b, e ≠ .closed b) :
    Ends dtl stack rest task e := by
  cases e with
  | closed b => exact absurd rfl (notClosed b)
  | failed failure b =>
    obtain ⟨s, yields, buffer⟩ := ends
    exact ⟨s, path.yields yields, buffer⟩
  | left b =>
    obtain ⟨st, above, mark, finished, reaches⟩ := ends
    exact ⟨st, above, mark, finished, path.trans reaches⟩

theorem Ends.fail {task : Task Serializer} {failure : Failure} {s : Serializer}
    (halts : (packEngine dtl).turn task = .halt (.fail failure s)) :
    Ends dtl stack rest task (.failed failure s.buffer) := ⟨s, .halt halts, rfl⟩

theorem prepareForBufferWrite_eq (s : Serializer) (typeCode : TypeCode) (elementSize : Nat) :
    s.prepareForBufferWrite typeCode elementSize =
      match s.buffer.flush with
      | .fail failure _ => .fail failure s
      | .ok _ b => .ok () { s with
          buffer := b, state := { s.state with typeCode := typeCode, elementSize := elementSize } } := by
  unfold prepareForBufferWrite WriteBuffer.flush
  by_cases valid : s.buffer.isValid = false
  · rw [if_pos valid, if_pos valid]
  rw [if_neg valid, if_neg valid]
  cases same : s.buffer.paddedNext with
  | none => rfl
  | some padded =>
    by_cases beyond : padded > s.buffer.bytes.length
    · simp only [if_pos beyond]
    · simp only [if_neg beyond]

/-- The state of a record, or of an array of records, behind its data instruction -/
def recordState (value : Dv) (scalar : ScalarSlot) (arrayLen index : Nat) : WriteState :=
  { value := value, scalar := scalar, arrayLen := arrayLen, index := index, typeCode := .record }

/-- A state that is about to pack a value that is a part of another -/
def childState (value : Dv) : WriteState := { value := value, scalar := ScalarSlot.reset {} }

theorem packRecord_single (value : Dv) (scalar : ScalarSlot) (b : WriteBuffer) (isDynamic : Bool) :
    packOperation dtl (dataInfo .record 0 isDynamic) (fresh value scalar stack b) =
      match b.flush with
      | .fail failure _ => .fail failure (fresh value scalar stack b)
      | .ok _ b =>
        let s : Serializer :=
          { stack := stack, state := recordState value scalar 0 0, buffer := b }
        match value with
        | .hash _ => .ok () s
        | _ => .fail (.code .valueType) s := by
  have info : dataInfo .record 0 isDynamic = ⟨.record, 0, false⟩ := by simp [dataInfo]
  rw [info]
  show packAs dtl .record 0 (fresh value scalar stack b) 0 .none = _
  rw [packAs, prepareForBufferWrite_eq]
  show (match b.flush with | .fail failure _ => _ | .ok _ b => _ : Result Serializer Unit).bind _ = _
  cases b.flush with
  | fail failure b => rfl
  | ok _ b => cases value <;> rfl

theorem packRecord_array (value : Dv) (scalar : ScalarSlot) (b : WriteBuffer) {arrayLen : Nat}
    (positive : 0 < arrayLen) :
    packOperation dtl (dataInfo .record arrayLen false) (fresh value scalar stack b) =
      match b.flush with
      | .fail failure _ => .fail failure (fresh value scalar stack b)
      | .ok _ b =>
        let st := recordState value scalar arrayLen 0
        let s : Serializer := { stack := stack, state := st, buffer := b }
        match value with
        | .array av =>
          if arrayLen ≠ av.length then .fail (.code .valueLength) s
          else
            match av with
            | [] => .fail (.code .nullPtr) s
            | child :: _ =>
              let s : Serializer := { stack := st :: stack, state := childState child, buffer := b }
              match child with
              | .hash _ => .ok () s
              | _ => .fail (.code .valueType) s
        | _ => .fail (.code .valueType) s := by
  have info : dataInfo .record arrayLen false = ⟨.record, arrayLen, false⟩ := by simp [dataInfo]
  rw [info]
  show packAs dtl .record 0 (fresh value scalar stack b) arrayLen .none = _
  rw [packAs, prepareForBufferWrite_eq]
  show (match b.flush with | .fail failure _ => _ | .ok _ b => _ : Result Serializer Unit).bind _ = _
  cases b.flush with
  | fail failure b => rfl
  | ok _ b =>
    have notZero : arrayLen ≠ 0 := Nat.ne_of_gt positive
    simp only [Result.bind_ok, prepareForArray, if_pos positive, ne_eq, not_true_eq_false, if_false,
      packValue, fresh, notZero, packRecordValue]
    cases value with
    | array av =>
      by_cases length : arrayLen = av.length
      · simp only [length, not_true_eq_false, and_false, if_false]
        cases av with
        | nil => rfl
        | cons child more => cases child <;> rfl
      · simp only [length, not_false_eq_true, and_self, if_true]
        rfl
    | _ => rfl

theorem packRecord_dynamic (value : Dv) (scalar : ScalarSlot) (b : WriteBuffer) {arrayLen : Nat}
    (positive : 0 < arrayLen) :
    ∃ st, packOperation dtl (dataInfo .record arrayLen true) (fresh value scalar stack b) =
      match b.flush with
      | .fail failure _ => .fail failure (fresh value scalar stack b)
      | .ok _ b => .fail (dynamicRecordFailure dtl arrayLen value)
          { stack := stack, state := st, buffer := b } := by
  have sizeType : sizeToSizeType arrayLen ≠ .none := sizeToSizeType_ne positive
  have dynamic : dynamicSizeType (dataInfo .record arrayLen true) = sizeToSizeType arrayLen := by
    simp [dynamicSizeType, dataInfo, positive]
  have pack : packOperation dtl (dataInfo .record arrayLen true) (fresh value scalar stack b) =
      packAs dtl .record 0 (fresh value scalar stack b) arrayLen (sizeToSizeType arrayLen) := by
    rw [← dynamic]
    rfl
  rw [pack, packAs, prepareForBufferWrite_eq]
  show ∃ st, (match b.flush with
    | .fail failure _ => _ | .ok _ b => _ : Result Serializer Unit).bind _ = _
  cases b.flush with
  | fail failure b => exact ⟨{}, rfl⟩
  | ok _ b =>
    simp only [Result.bind_ok, prepareForArray, if_pos positive, if_pos sizeType, dynamicRecordFailure, fresh]
    -- whatever length is found, the call fails behind the comparison with the maximum at the latest
    have found : ∀ n : Nat, ∃ st,
        ((if n > arrayLen then .fail (.code .valueLength)
            { stack := stack, buffer := b, state := { recordState value scalar n 0 with
              maxArrayLen := arrayLen } }
          else .fail .assertion
            { stack := stack, buffer := b, state := { recordState value scalar n 0 with
              maxArrayLen := arrayLen, dynamicSizeType := sizeToSizeType arrayLen } } :
            Result Serializer Unit).bind fun _ s => packValue dtl s) =
          .fail (if n > arrayLen then .code .valueLength else .assertion)
            { stack := stack, state := st, buffer := b } := by
      intro n
      split
      · exact ⟨_, rfl⟩
      · exact ⟨_, rfl⟩
    cases value with
    | null | hash => exact ⟨_, rfl⟩
    | array av => exact found av.length
    | scalar sv =>
      cases sv with
      | str text =>
        simp only [WriteState.determineArrayLengthFromValue]
        split
        · exact found _
        · exact ⟨_, rfl⟩
      | bytearray value => exact found value.length
      | _ => exact found 0

/-- Wherever the machine comes to the code of an element, with a value of it to pack, the
element decides how this ends. -/
def Runs (dtl : Dtl) (e : DataElement) : Prop :=
  ∀ (value : Dv) (scalar : ScalarSlot) (stack : List WriteState) (b : WriteBuffer)
    (mark : Option (List Operation)) (rest : List Operation),
    ScalarSlot.Same scalar {} → value.Representable →
    Ends dtl stack rest { code := e.emitted .pack ++ rest, mark := mark,
                          data := fresh value scalar stack b } (packElement dtl e value b)

/-- Closing states does not look at the stack that the serializer holds. -/
theorem popLoop_stack (above above' : List WriteState) (st : WriteState) (b : WriteBuffer)
    (stack : List WriteState) :
    popLoop { stack := above, state := st, buffer := b } stack =
      popLoop { stack := above', state := st, buffer := b } stack := by
  induction stack generalizing st with
  | nil => rfl
  | cons top rest ih =>
    simp only [popLoop]
    split
    · exact ih top
    · rfl

theorem runs_leaf (name : Option CString) (code : LeafCode) (arrayLen : UInt32) (isDynamic : Bool)
    (limits : Option Limits) : Runs dtl (.leaf name code arrayLen isDynamic limits) := by
  intro value scalar stack b mark rest same _
  have closes := closes_leafOperations (like_fresh value same stack b) dtl code arrayLen.toNat
    isDynamic limits
  have run := (packEngine dtl).run_exec
    (Engine.plain_leafOperations .pack code arrayLen.toNat isDynamic limits) rest mark
    (fresh value scalar stack b)
  rw [packElement, packLeaf, DataElement.emitted]
  generalize (packEngine dtl).exec _ (fresh value scalar stack b) = result at closes run
  generalize (packEngine dtl).exec _ (fresh value {} [] b) = result' at closes
  cases closes with
  | @ok s s' like =>
    obtain ⟨above, st, buffer, queue⟩ := s
    obtain ⟨_, rfl, scalar, _, rfl⟩ := like
    exact ⟨st, popLoop_stack above [] st buffer stack ▸ run⟩
  | @fail failure s s' like =>
    obtain ⟨_, _, _, _, rfl⟩ := like
    exact ⟨s, run, rfl⟩

theorem childState_same (value : Dv) : ScalarSlot.Same (childState value).scalar {} :=
  ⟨rfl, rfl, fun _ => rfl⟩

/-- A record that waits on the stack while one of its fields is packed -/
def waiting (st : WriteState) (name : Bytes) (isLastField : Bool) : WriteState :=
  { st with isLastField := isLastField, fieldName := name }

theorem recordSelect_eq {st : WriteState} {hv : List (Bytes × Dv)} (holds : st.value = .hash hv)
    (name : Bytes) (isLastField : Bool) (b : WriteBuffer) :
    recordSelect { stack := stack, state := st, buffer := b } name isLastField =
      match Hash.get hv name with
      | none => .fail (.code .notFound) { stack := stack, state := st, buffer := b }
      | some value => .ok () { stack := waiting st name isLastField :: stack,
                               state := childState value, buffer := b } := by
  unfold recordSelect
  simp only [holds]
  cases Hash.get hv name <;> simp only [enterNewChildState, waiting, WriteState.setValue, childState, holds]

theorem recordSelect_failed {st : WriteState} (noHash : ∀ hv, st.value ≠ .hash hv) (name : Bytes)
    (isLastField : Bool) (b : WriteBuffer) :
    recordSelect { stack := stack, state := st, buffer := b } name isLastField =
      .fail (.code .valueType) { stack := stack, state := st, buffer := b } := by
  unfold recordSelect
  split
  next hv holds => exact absurd holds (noHash hv)
  · rfl

theorem turn_recordSelect (name : Bytes) (isLastField : Bool) (code : List Operation)
    (mark : Option (List Operation)) (s : Serializer) :
    (packEngine dtl).turn { code := .recordSelect name isLastField :: code, mark := mark, data := s } =
      match s.recordSelect name isLastField with
      | .fail failure s => .halt (.fail failure s)
      | .ok _ s => .next { code := code, mark := mark, data := s } := by
  rw [Engine.turn_execute _ (by nofun)]
  simp only [packEngine]
  cases s.recordSelect name isLastField <;> rfl

theorem ends_fields {elements : List DataElement} (runs : ∀ child ∈ elements, Runs dtl child)
    (nonempty : elements ≠ []) {st : WriteState} {hv : List (Bytes × Dv)} (holds : st.value = .hash hv)
    (representable : ∀ key v, Hash.get hv key = some v → v.Representable) (b : WriteBuffer)
    (mark : Option (List Operation)) (rest : List Operation) :
    Ends dtl stack rest { code := DataElement.emittedFields .pack elements ++ rest, mark := mark,
                          data := { stack := stack, state := st, buffer := b } }
      (packFields dtl elements hv b) := by
  induction elements generalizing st b with
  | nil => exact absurd rfl nonempty
  | cons child more ih =>
    obtain ⟨runsChild, runs⟩ := List.forall_mem_cons.mp runs
    have select := @turn_recordSelect dtl child.nameBytes more.isEmpty
      (child.emitted .pack ++ (DataElement.emittedFields .pack more ++ rest)) mark
      { stack := stack, state := st, buffer := b }
    rw [recordSelect_eq holds] at select
    simp only [DataElement.emittedFields, List.cons_append, List.append_assoc, packFields]
    cases field : Hash.get hv child.nameBytes with
    | none =>
      rw [field] at select
      exact Ends.fail select
    | some value =>
      rw [field] at select
      have childEnds := runsChild value (childState value).scalar
        (waiting st child.nameBytes more.isEmpty :: stack) b mark
        (DataElement.emittedFields .pack more ++ rest) (childState_same value)
        (representable _ _ field)
      refine Ends.after ?_ (.one select) rfl
      simp only
      cases packed : packElement dtl child value b with
      | failed failure b' =>
        rw [packed] at childEnds
        exact childEnds
      | left b' =>
        rw [packed] at childEnds
        obtain ⟨st', above, mark', finished, reaches⟩ := childEnds
        cases more with
        | nil => exact ⟨st', above, mark', finished, reaches⟩
        | cons next more =>
          obtain ⟨av, holds', _⟩ := finished.value
          refine ⟨{ stack := above, state := st', buffer := b' }, reaches.yields (.halt ?_), rfl⟩
          rw [DataElement.emittedFields, List.cons_append, turn_recordSelect,
            recordSelect_failed (by simp [holds'])]
      | closed b' =>
        rw [packed] at childEnds
        obtain ⟨st', reaches⟩ := childEnds
        cases more with
        | nil => exact ⟨_, reaches⟩
        | cons next more =>
          exact (@ih runs (by nofun) (waiting st child.nameBytes false) holds b').after reaches rfl

/-- The state of an array of records in front of its record at `index` -/
def arrayState (av : List Dv) (scalar : ScalarSlot) (index : Nat) : WriteState :=
  recordState (.array av) scalar av.length index

/-- ARRAY_NEXT behind the record of an array -/
theorem arrayNext_eq {av : List Dv} {index : Nat} (inside : index < av.length)
    (short : av.length < 2 ^ 31) (scalar : ScalarSlot) (b : WriteBuffer) :
    arrayNext { stack := stack, state := arrayState av scalar index, buffer := b } =
      match av[index + 1]? with
      | none => .ok true { stack := stack, state := arrayState av scalar (index + 1), buffer := b }
      | some child => .ok false { stack := arrayState av scalar (index + 1) :: stack,
                                  state := childState child, buffer := b } := by
  have positive : av.length > 0 := by omega
  have next : u32 (index + 1) = index + 1 := u32_of_lt (by omega)
  simp only [arrayNext, arrayState, recordState, if_pos positive, next]
  by_cases last : index + 1 = av.length
  · rw [if_pos last, List.getElem?_eq_none (by omega)]
  · rw [if_neg last, List.getElem?_eq_getElem (by omega)]
    rfl

/-- ARRAY_NEXT on an array that is at its end -/
theorem arrayNext_finished {st : WriteState} (finished : Finished st) (b : WriteBuffer) :
    ∃ s, arrayNext { stack := stack, state := st, buffer := b } = .fail (.code .nullPtr) s ∧
      s.buffer = b := by
  obtain ⟨av, value, length, short⟩ := finished.value
  have next : u32 (st.index + 1) = av.length + 1 := by
    rw [finished.index, length]
    exact u32_of_lt (by omega)
  have beyond : av.length + 1 ≠ st.arrayLen := by omega
  have none : av[av.length + 1]? = none := List.getElem?_eq_none (by omega)
  refine ⟨_, by
    simp only [arrayNext, value, if_pos finished.positive, next, if_neg beyond,
      if_pos finished.typeCode, none]
    rfl, rfl⟩

theorem turn_arrayNext (code : List Operation) (mark : Option (List Operation)) (s : Serializer) :
    (packEngine dtl).turn { code := .arrayNext :: code, mark := mark, data := s } =
      match s.arrayNext with
      | .fail failure s => .halt (.fail failure s)
      | .ok true s => .next { code := code, mark := mark, data := s }
      | .ok false s =>
        match mark with
        | some saved => .next { code := saved, mark := mark, data := s }
        | none => .halt (.fail (.code .invalidInstruction) s) := by
  simp only [Engine.turn, packEngine]
  cases s.arrayNext with
  | fail failure s => rfl
  | ok isLast s => cases isLast <;> rfl

/-- One record of an array, up to the ARRAY_NEXT behind its fields -/
theorem ends_record {elements : List DataElement} (runs : ∀ child ∈ elements, Runs dtl child)
    (nonempty : elements ≠ []) {child : Dv} (representable : child.Representable)
    {array : WriteState} (notField : array.isLastField = false) (b : WriteBuffer)
    (mark : Option (List Operation)) (task : Task Serializer)
    (start : task = { code := DataElement.emittedFields .pack elements ++ (.arrayNext :: rest),
                      mark := mark,
                      data := { stack := array :: stack, state := childState child, buffer := b } }) :
    (∃ hv b', child = .hash hv ∧ packFields dtl elements hv b = .closed b' ∧
      Reaches (packEngine dtl).turn task
        { code := .arrayNext :: rest, mark := mark,
          data := { stack := stack, state := array, buffer := b' } }) ∨
    ∃ failure b', (∀ more, packRecords (packFields dtl elements) (child :: more) b =
        .failed failure b') ∧ Ends dtl stack rest task (.failed failure b') := by
  subst start
  by_cases record : ∃ hv, child = .hash hv
  · obtain ⟨hv, rfl⟩ := record
    have each : ∀ key v, Hash.get hv key = some v → v.Representable := by
      cases representable with
      | hash each => exact each
    have ends := @ends_fields dtl (array :: stack) elements runs nonempty (childState (.hash hv)) hv
      rfl each b mark (.arrayNext :: rest)
    cases packed : packFields dtl elements hv b with
    | failed failure b' =>
      rw [packed] at ends
      exact .inr ⟨failure, b', fun more => by simp only [packRecords, packed], ends⟩
    | left b' =>
      rw [packed] at ends
      obtain ⟨st, above, mark', finished, reaches⟩ := ends
      obtain ⟨s, failed, buffer⟩ := @arrayNext_finished above st finished b'
      refine .inr ⟨.code .nullPtr, b', fun more => by simp only [packRecords, packed], s,
        reaches.yields (.halt ?_), buffer⟩
      rw [turn_arrayNext, failed]
    | closed b' =>
      rw [packed] at ends
      obtain ⟨st, reaches⟩ := ends
      simp only [popLoop, notField, Bool.false_eq_true, if_false] at reaches
      exact .inl ⟨hv, b', rfl, packed, reaches⟩
  · rw [not_exists] at record
    obtain ⟨head, tail, rfl⟩ := List.exists_cons_of_ne_nil nonempty
    refine .inr ⟨.code .valueType, b, fun more => ?_, Ends.fail
      (s := { stack := array :: stack, state := childState child, buffer := b }) ?_⟩
    · cases child with
      | hash hv => exact absurd rfl (record hv)
      | _ => rfl
    · rw [DataElement.emittedFields, List.cons_append, turn_recordSelect, recordSelect_failed record]

/-- The records of an array from `index` on, one pass through the code of the fields for each -/
theorem ends_records {elements : List DataElement} (runs : ∀ child ∈ elements, Runs dtl child)
    (nonempty : elements ≠ []) {av : List Dv} (short : av.length < 2 ^ 31)
    (each : ∀ v ∈ av, v.Representable) (scalar : ScalarSlot) (child : Dv) (more : List Dv)
    {index : Nat} (here : av.drop index = child :: more) (b : WriteBuffer) :
    let code := DataElement.emittedFields .pack elements ++ (.arrayNext :: rest)
    Ends dtl stack rest
      { code := code, mark := some code,
        data := { stack := arrayState av scalar index :: stack, state := childState child,
                  buffer := b } }
      (packRecords (packFields dtl elements) (child :: more) b) := by
  intro code
  have memAt {index : Nat} {child : Dv} {more : List Dv} (here : av.drop index = child :: more) :
      child ∈ av := List.mem_of_mem_drop (i := index) (by rw [here]; exact List.mem_cons_self)
  have insideAt {index : Nat} {child : Dv} {more : List Dv} (here : av.drop index = child :: more) :
      index < av.length := by
    have total := congrArg List.length here
    rw [List.length_drop, List.length_cons] at total
    omega
  have behind {index : Nat} {child : Dv} {more : List Dv} (here : av.drop index = child :: more) :
      av.drop (index + 1) = more := by
    rw [← List.drop_drop, here, List.drop_one, List.tail_cons]
  induction more generalizing child index b with
  | nil =>
    rcases ends_record runs nonempty (each _ (memAt here))
      (show (arrayState av scalar index).isLastField = false from rfl) b (some code) _ rfl with
      ⟨hv, b', rfl, packed, reaches⟩ | ⟨failure, b', packs, ends⟩
    · have atEnd : av[index + 1]? = none := by
        rw [← List.head?_drop, behind here]
        rfl
      have next := @arrayNext_eq stack av index (insideAt here) short scalar b'
      rw [atEnd] at next
      have last : index + 1 = av.length := by
        have beyond := List.getElem?_eq_none_iff.mp atEnd
        have inside := insideAt here
        omega
      simp only [packRecords, packed, List.isEmpty_nil, if_true]
      refine ⟨arrayState av scalar (index + 1), stack, some code, ?_, reaches.trans (.one ?_)⟩
      · exact ⟨⟨av, rfl, rfl, short⟩, last, Nat.lt_of_le_of_lt (Nat.zero_le _) (insideAt here), rfl⟩
      · rw [turn_arrayNext, next]
    · rw [packs]
      exact ends
  | cons next more ih =>
    rcases ends_record runs nonempty (each _ (memAt here))
      (show (arrayState av scalar index).isLastField = false from rfl) b (some code) _ rfl with
      ⟨hv, b', rfl, packed, reaches⟩ | ⟨failure, b', packs, ends⟩
    · have further : av[index + 1]? = some next := by
        rw [← List.head?_drop, behind here]
        rfl
      have step := @arrayNext_eq stack av index (insideAt here) short scalar b'
      rw [further] at step
      rw [packRecords, packed]
      refine Ends.after (ih next (behind here) b') (reaches.trans (.one ?_)) rfl
      rw [turn_arrayNext, step]
    · rw [packs]
      exact ends

theorem turn_pack (info : PackUnpackInfo) (code : List Operation) (mark : Option (List Operation))
    (s : Serializer) :
    (packEngine dtl).turn { code := .pack info :: code, mark := mark, data := s } =
      match packOperation dtl info s with
      | .fail failure s => .halt (.fail failure s)
      | .ok _ s => .next { code := code, mark := if (Operation.pack info).marks then some code else mark,
                           data := s } := by
  rw [Engine.turn_execute _ (by nofun)]
  simp only [packEngine]
  cases packOperation dtl info s <;> rfl

theorem runs_record (name : Option CString) (arrayLen : UInt32) (isDynamic : Bool)
    {elements : List DataElement} (runs : ∀ child ∈ elements, Runs dtl child)
    (nonempty : elements ≠ []) : Runs dtl (.record name arrayLen isDynamic elements) := by
  intro value scalar stack b mark rest same representable
  have step := @turn_pack dtl (dataInfo .record arrayLen.toNat isDynamic)
    (DataElement.emittedFields .pack elements ++
      ((if arrayLen.toNat > 0 then [Operation.arrayNext] else []) ++ rest)) mark
    (fresh value scalar stack b)
  simp only [DataElement.emitted, Operation.data, List.cons_append, List.append_assoc]
  rw [packElement]
  cases flushed : b.flush with
  | fail failure b' =>
    -- nothing of this depends on what the element is
    obtain rfl := WriteBuffer.flush_fail flushed
    have failed : packOperation dtl (dataInfo .record arrayLen.toNat isDynamic)
        (fresh value scalar stack b') = .fail failure (fresh value scalar stack b') := by
      rcases Nat.eq_zero_or_pos arrayLen.toNat with zero | positive
      · rw [zero, packRecord_single, flushed]
      · cases isDynamic with
        | false => rw [packRecord_array value scalar b' positive, flushed]
        | true =>
          obtain ⟨st, packed⟩ := @packRecord_dynamic dtl stack value scalar b' _ positive
          rw [packed, flushed]
    rw [failed] at step
    exact Ends.fail step
  | ok _ b' =>
    rcases Nat.eq_zero_or_pos arrayLen.toNat with zero | positive
    · -- a single record
      have unmarked : (Operation.pack (dataInfo .record 0 isDynamic)).marks = false := by
        simp [Operation.marks, dataInfo]
      rw [zero, packRecord_single, flushed, unmarked] at step
      simp only [zero, if_true]
      cases value with
      | hash hv =>
        have each : ∀ key v, Hash.get hv key = some v → v.Representable := by
          cases representable with
          | hash each => exact each
        exact (ends_fields runs nonempty
          (show (recordState (.hash hv) scalar 0 0).value = .hash hv from rfl) each b' mark
          rest).after (.one step) rfl
      | _ => exact Ends.fail step
    have notZero : arrayLen.toNat ≠ 0 := Nat.ne_of_gt positive
    simp only [if_neg notZero, if_pos positive] at step ⊢
    cases isDynamic with
    | true =>
      obtain ⟨st, packed⟩ := @packRecord_dynamic dtl stack value scalar b _ positive
      rw [packed, flushed] at step
      exact Ends.fail step
    | false =>
      have marked : (Operation.pack (dataInfo .record arrayLen.toNat false)).marks = true := by
        simp [Operation.marks, dataInfo, positive]
      rw [packRecord_array value scalar b positive, flushed, marked] at step
      simp only [Bool.false_eq_true, if_false]
      cases value with
      | array av =>
        simp only at step ⊢
        by_cases length : arrayLen.toNat = av.length
        · simp only [if_neg (not_not.mpr length)] at step ⊢
          cases av with
          | nil => exact absurd length notZero
          | cons child more =>
            obtain ⟨short, each⟩ : (child :: more).length < 2 ^ 31 ∧
                ∀ v ∈ child :: more, v.Representable := by
              cases representable with
              | array short each => exact ⟨short, each⟩
            rw [length] at step ⊢
            by_cases record : ∃ hv, child = .hash hv
            · obtain ⟨hv, rfl⟩ := record
              have ends := @ends_records dtl stack rest elements runs nonempty _ short each scalar
                (.hash hv) more 0 rfl b'
              exact ends.afterMark (.one step) (packRecords_not_closed _ _ _)
            · rw [not_exists] at record
              cases child with
              | hash hv => exact absurd rfl (record hv)
              | _ => exact Ends.fail step
        · rw [if_pos length] at step ⊢
          exact Ends.fail step
      | _ => exact Ends.fail step

/-- The machine packs every element as `packElement` says. -/
theorem runs_element (e : DataElement) (complete : e.Complete) : Runs dtl e := by
  induction e using DataElement.tree_induction with
  | leaf name code arrayLen isDynamic limits => exact runs_leaf name code arrayLen isDynamic limits
  | record name arrayLen isDynamic elements ih =>
    exact runs_record name arrayLen isDynamic
      (fun child mem => ih child mem (complete.2.mem child mem).2) complete.1
  | refId => exact complete.elim
  | refName => exact complete.elim
  | refPtr name arrayLen isDynamic target ih =>
    intro value scalar stack b mark rest same representable
    rw [packElement, DataElement.emitted]
    exact ih complete value scalar stack b mark rest same representable

end Serializer

end Apx
