import Apx.RoundTrip

/-! Limits of an element below a record: the check of its program finds the record and refuses it. -/

namespace Apx

open Machine Vm

namespace DataElement

mutual

/-- Integers, alone or as fields of records that are not arrays -/
def Integral : DataElement → Prop
  | .leaf _ code _ _ _ => code.isInteger = true
  | .record _ arrayLen _ elements => arrayLen.toNat = 0 ∧ IntegralFields elements
  | .refPtr _ _ _ target => Integral target
  | .refId .. => True
  | .refName .. => True

def IntegralFields : List DataElement → Prop
  | [] => True
  | child :: rest => Integral child ∧ IntegralFields rest

end

theorem IntegralFields.mem {elements : List DataElement} (integral : IntegralFields elements) :
    ∀ child ∈ elements, child.Integral := by
  induction elements with
  | nil => exact fun child mem => absurd mem List.not_mem_nil
  | cons head tail ih => exact List.forall_mem_cons.mpr ⟨integral.1, ih integral.2⟩

end DataElement

namespace ReadState

def IsHash (st : ReadState) : Prop := ∃ hv, st.value = .hash hv

theorem createChildValue_isHash {st st' child : ReadState} {hv : List (Bytes × Dv)}
    (created : st.createChildValueFromChildState hv child = .ok () st') : st'.IsHash := by
  unfold createChildValueFromChildState at created
  split at created
  · contradiction
  · cases value : child.value with
    | null =>
      rw [value] at created
      contradiction
    | _ =>
      rw [value] at created
      cases created
      exact ⟨_, rfl⟩

end ReadState

/-- The type that a check behind an unpack instruction converts a number to: a scalar, or an element of an array -/
def LeafCode.checkedAs : LeafCode → Bool → LeafCode
  | .uint8, _ | .uint16, _ | .uint32, _ => .uint32
  | .uint64, false | .int64, false => .int64
  | _, _ => .int32

/-- The comparison of a check behind an unpack instruction -/
def Limits.test (limits : Limits) (code : LeafCode) (w : ScalarWord) : Bool :=
  match code with
  | .uint8 | .uint16 | .uint32 =>
      valueInRangeI32 w.low (DataElement.limitsUInt32 limits).1 (DataElement.limitsUInt32 limits).2
  | .uint64 => valueInRangeU64 w (DataElement.limitsUInt64 limits).1 (DataElement.limitsUInt64 limits).2
  | .int64 => valueInRangeI64 w (DataElement.limitsInt64 limits).1 (DataElement.limitsInt64 limits).2
  | _ => valueInRangeI32 w.low (DataElement.limitsInt32 limits).1 (DataElement.limitsInt32 limits).2

namespace Deserializer

variable {dtl : Dtl}

def Fails (dtl : Dtl) (code : List Operation) (mark : Option (List Operation)) (d : Deserializer) : Prop :=
  ∃ failure d', Yields (unpackEngine dtl).turn { code := code, mark := mark, data := d } (.fail failure d')

/-- The check behind the data instruction of an integer -/
def checkLimits (dtl : Dtl) (code : LeafCode) (limits : Limits) : Deserializer → Result Deserializer Unit :=
  checkValueRange dtl (code.checkedAs false).typeCode (code.checkedAs true).typeCode (limits.test code)

theorem turn_limitCheck {code : LeafCode} (isInteger : code.isInteger = true) (limits : Limits) :
    ∃ op, limitCheck code limits = [op] ∧ ∀ rest mark d,
      (unpackEngine dtl).turn { code := op :: rest, mark := mark, data := d } =
        match checkLimits dtl code limits d with
        | .fail failure d => .halt (.fail failure d)
        | .ok _ d => .next { code := rest, mark := mark, data := d } := by
  have turns {op : Operation} (notNext : op ≠ .arrayNext) (unmarked : op.marks = false)
      (executes : ∀ d, (unpackEngine dtl).execute op d =
        checkLimits dtl code limits d)
      (rest : List Operation) (mark : Option (List Operation)) (d : Deserializer) :
      (unpackEngine dtl).turn { code := op :: rest, mark := mark, data := d } =
        match checkLimits dtl code limits d with
        | .fail failure d => .halt (.fail failure d)
        | .ok _ d => .next { code := rest, mark := mark, data := d } := by
    rw [Engine.turn_execute _ notNext, executes, unmarked]
    cases checkLimits dtl code limits d <;> rfl
  cases code with
  | none | char | char8 | char16 | char32 | bool | byte => contradiction
  | _ => exact ⟨_, rfl, turns Operation.noConfusion rfl fun _ => rfl⟩

/-- A record has no value that could be compared. -/
theorem checkValueRange_hash {d : Deserializer} (isHash : d.state.IsHash) (scalarCode elementCode : TypeCode)
    (inRange : ScalarWord → Bool) :
    checkValueRange dtl scalarCode elementCode inRange d = .fail (.code .unsupported) d := by
  obtain ⟨hv, value⟩ := isHash
  rw [checkValueRange, value]

/-- Where only records wait on the stack, handing on a value ends in one of them. -/
theorem popLoop_isHash {stack : List ReadState} (records : ∀ st ∈ stack, st.IsHash) {d d' : Deserializer}
    (ready : d.state.IsHash ∨ stack ≠ []) (popped : popLoop d stack = .ok () d') : d'.state.IsHash := by
  induction stack generalizing d with
  | nil =>
    cases popped
    exact ready.resolve_right fun nonempty => nonempty rfl
  | cons top rest ih =>
    obtain ⟨⟨hv, value⟩, recordsRest⟩ := List.forall_mem_cons.mp records
    rw [popLoop] at popped
    by_cases record : top.typeCode = .record
    · simp only [if_pos record, value] at popped
      cases created : top.createChildValueFromChildState hv d.state with
      | fail failure st =>
        rw [created] at popped
        contradiction
      | ok _ st =>
        have isHash := ReadState.createChildValue_isHash created
        rw [created] at popped
        by_cases last : st.isLastField
        · simp only [if_pos last] at popped
          exact ih recordsRest (.inl isHash) popped
        · simp only [if_neg last] at popped
          cases popped
          exact isHash
    · simp only [if_neg record] at popped
      contradiction

theorem fails_leaf {code : LeafCode} (isInteger : code.isInteger = true) (arrayLength : Nat) (isDynamic : Bool)
    (limits : Limits) {d : Deserializer} (idle : d.queuedReadState.isActive = false) (sound : d.buffer.Sound)
    (below : d.stack ≠ []) (records : ∀ st ∈ d.stack, st.IsHash) (mark : Option (List Operation))
    (rest : List Operation) :
    Fails dtl (leafOperations .unpack code arrayLength isDynamic (some limits) ++ rest) mark d := by
  have known : Compiler.leafInfo code ≠ none := by cases code <;> first | contradiction | exact Option.some_ne_none _
  have unmarked : (Operation.unpack (dataInfo code.typeCode arrayLength isDynamic)).marks = false := by
    cases code <;> first | contradiction | simp [Operation.marks, dataInfo, LeafCode.typeCode]
  obtain ⟨op, same, check⟩ := @turn_limitCheck dtl code isInteger limits
  have operations : leafOperations .unpack code arrayLength isDynamic (some limits) ++ rest =
      .unpack (dataInfo code.typeCode arrayLength isDynamic) :: op :: rest := by
    rw [leafOperations, same]
    rfl
  have hands := hands_leaf known arrayLength isDynamic d idle sound
  have step := @turn_unpack dtl _ unmarked (op :: rest) mark d
  rw [operations]
  by_cases readable : ReadableLeaf code arrayLength isDynamic d.buffer.bytes d.buffer.cursor
  swap
  · obtain ⟨failure, d', failed⟩ := hands.fail readable
    rw [failed] at step
    exact ⟨failure, d', .halt step⟩
  obtain ⟨st, -, unpacked⟩ := hands.ok readable
  rw [unpacked] at step
  cases popped : popLoop (d.reading st (d.buffer.past code arrayLength isDynamic)) d.stack with
  | fail failure d' =>
    rw [popped] at step
    exact ⟨failure, d', .halt step⟩
  | ok _ d' =>
    -- what the check finds is the record that got the value
    have isHash := popLoop_isHash records (.inr below) popped
    have refused := check rest mark d'
    rw [checkLimits, checkValueRange_hash isHash] at refused
    rw [popped] at step
    exact ⟨_, d', .next step (.halt refused)⟩

theorem fails_fields {elements : List DataElement} (completes : DataElement.Completes elements)
    (fails : ∀ child ∈ elements, ¬child.Flat → ∀ d : Deserializer, d.queuedReadState.isActive = false → d.buffer.Sound →
      d.stack ≠ [] → (∀ st ∈ d.stack, st.IsHash) → ∀ mark rest,
        Fails dtl (child.emitted .unpack ++ rest) mark d)
    (limited : ¬DataElement.FlatFields elements) {d : Deserializer} (isHash : d.state.IsHash)
    (record : d.state.typeCode = .record) (idle : d.queuedReadState.isActive = false) (sound : d.buffer.Sound)
    (records : ∀ st ∈ d.stack, st.IsHash) (mark : Option (List Operation)) (rest : List Operation) :
    Fails dtl (DataElement.emittedFields .unpack elements ++ rest) mark d := by
  induction elements generalizing d with
  | nil => exact absurd trivial limited
  | cons child more ih =>
    obtain ⟨named, completeChild, completeRest⟩ := completes
    obtain ⟨failsChild, failsRest⟩ := List.forall_mem_cons.mp fails
    obtain ⟨hv, holds⟩ := isHash
    have front : DataElement.emittedFields .unpack (child :: more) ++ rest =
        .recordSelect child.nameBytes more.isEmpty ::
          (child.emitted .unpack ++ (DataElement.emittedFields .unpack more ++ rest)) := by
      rw [DataElement.emittedFields, List.cons_append, List.append_assoc]
    rw [front]
    by_cases flat : child.Flat
    · have limitedRest : ¬DataElement.FlatFields more := fun flatRest => limited ⟨flat, flatRest⟩
      obtain ⟨reads, stops⟩ := @unpacks_field dtl child named completeChild
        (fun d idle sound => unpacks_element completeChild flat d idle sound) d hv holds record idle sound more.isEmpty mark
        (DataElement.emittedFields .unpack more ++ rest)
      by_cases readable : child.Readable d.buffer.bytes d.buffer.cursor
      swap
      · exact stops readable
      cases more with
      | nil => exact absurd trivial limitedRest
      | cons next more =>
        have path := reads readable
        obtain ⟨failure, d', failed⟩ := ih completeRest failsRest limitedRest (d := d.reading (holding d.state
          child.nameBytes false (Hash.set hv child.nameBytes (child.decode d.buffer.bytes d.buffer.cursor)))
            (child.past d.buffer)) ⟨_, rfl⟩ record idle (DataElement.past_sound completeChild flat sound readable) records
        exact ⟨failure, d', Reaches.yields path failed⟩
    · have select := @reaches_recordSelect dtl d hv holds child.nameBytes more.isEmpty
        (child.emitted .unpack ++ (DataElement.emittedFields .unpack more ++ rest)) mark
      have waits : ∀ st ∈ waiting d.state child.nameBytes more.isEmpty :: d.stack, st.IsHash :=
        List.forall_mem_cons.mpr ⟨⟨hv, holds⟩, records⟩
      obtain ⟨failure, d', failed⟩ := failsChild flat { d with
          stack := waiting d.state child.nameBytes more.isEmpty :: d.stack
          state := ReadState.create d.memory } idle sound (List.cons_ne_nil _ _) waits mark
        (DataElement.emittedFields .unpack more ++ rest)
      exact ⟨failure, d', select.yields failed⟩

theorem fails_record (name : Option CString) {arrayLen : UInt32} (single : arrayLen.toNat = 0) (isDynamic : Bool)
    {elements : List DataElement} (completes : DataElement.Completes elements)
    (fails : ∀ child ∈ elements, ¬child.Flat → ∀ d : Deserializer, d.queuedReadState.isActive = false → d.buffer.Sound →
      d.stack ≠ [] → (∀ st ∈ d.stack, st.IsHash) → ∀ mark rest,
        Fails dtl (child.emitted .unpack ++ rest) mark d)
    (limited : ¬DataElement.FlatFields elements) {d : Deserializer} (idle : d.queuedReadState.isActive = false)
    (sound : d.buffer.Sound) (records : ∀ st ∈ d.stack, st.IsHash) (mark : Option (List Operation))
    (rest : List Operation) :
    Fails dtl ((DataElement.record name arrayLen isDynamic elements).emitted .unpack ++ rest) mark d := by
  have settles := settles_unpackRecord isDynamic idle sound
  have unmarked : (Operation.unpack (dataInfo .record 0 isDynamic)).marks = false := by simp [Operation.marks, dataInfo]
  have step := @turn_unpack dtl _ unmarked (DataElement.emittedFields .unpack elements ++ rest) mark d
  have operations : (DataElement.record name arrayLen isDynamic elements).emitted .unpack ++ rest =
      .unpack (dataInfo .record 0 isDynamic) :: (DataElement.emittedFields .unpack elements ++ rest) := by
    simp [DataElement.emitted, Operation.data, single]
  rw [operations]
  by_cases inside : d.buffer.cursor ≤ d.buffer.bytes.length
  · obtain ⟨failure, d', failed⟩ := fails_fields completes fails limited
      (d := d.reading (recordRead d.state) d.buffer.flushed) ⟨[], rfl⟩ rfl idle
      ⟨sound.nonempty, fun padded => absurd rfl padded⟩ records mark rest
    rw [settles.ok inside] at step
    exact ⟨failure, d', .next step failed⟩
  · obtain ⟨failure, d', failed⟩ := settles.fail inside
    rw [failed] at step
    exact ⟨failure, d', .halt step⟩

/-- Below a record the machine fails on every element with limits. -/
theorem fails_element {e : DataElement} (complete : e.Complete) (integral : e.Integral) (limited : ¬e.Flat)
    (d : Deserializer) (idle : d.queuedReadState.isActive = false) (sound : d.buffer.Sound) (below : d.stack ≠ [])
    (records : ∀ st ∈ d.stack, st.IsHash) (mark : Option (List Operation)) (rest : List Operation) :
    Fails dtl (e.emitted .unpack ++ rest) mark d := by
  induction e using DataElement.tree_induction generalizing d mark rest with
  | leaf name code arrayLen isDynamic limits =>
    cases limits with
    | none => exact absurd rfl limited
    | some limits => exact fails_leaf integral arrayLen.toNat isDynamic limits idle sound below records mark rest
  | record name arrayLen isDynamic elements ih =>
    obtain ⟨single, integralFields⟩ := integral
    obtain ⟨-, completes⟩ := complete
    refine fails_record name single isDynamic completes (fun child mem => ?_) (fun flat => limited ⟨single, flat⟩) idle
      sound records mark rest
    exact ih child mem (completes.mem child mem).2 (integralFields.mem child mem)
  | refId => exact complete.elim
  | refName => exact complete.elim
  | refPtr name arrayLen isDynamic target ih => exact ih complete integral limited d idle sound below records mark rest

end Deserializer

end Apx
