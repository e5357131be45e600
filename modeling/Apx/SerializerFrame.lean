import Apx.Serializer

/-! What the parts of the serializer leave as it was. -/

namespace Apx

open LittleEndian Vm

/-- The result of a call that is known to succeed. -/
theorem Result.lift_eq_ok {σ τ α : Type} {put : σ → τ} {result : Result σ α} {value : α} {t : τ} :
    result.lift put = .ok value t ↔ ∃ s, result = .ok value s ∧ put s = t := by
  cases result with
  | ok a s => simp only [Result.lift_ok, Result.ok.injEq]; grind
  | fail failure s => simp

namespace WriteState

/-- Only the scalar and the state of the range check differ. -/
def SameShape (st st' : WriteState) : Prop :=
  ∃ scalar check, st' = { st with scalar := scalar, rangeCheckState := check }

theorem SameShape.refl (st : WriteState) : SameShape st st := ⟨st.scalar, st.rangeCheckState, rfl⟩

theorem SameShape.trans {st st₁ st₂ : WriteState} (first : SameShape st st₁)
    (second : SameShape st₁ st₂) : SameShape st st₂ := by
  obtain ⟨_, _, rfl⟩ := first
  obtain ⟨scalar, check, rfl⟩ := second
  exact ⟨scalar, check, rfl⟩

theorem readScalarInternal_shape (dtl : Dtl) (st : WriteState) (sv : Sv) (typeCode : TypeCode) :
    SameShape st (st.readScalarInternal dtl sv typeCode).state := by
  unfold readScalarInternal
  cases st.scalar.load dtl sv typeCode with
  | ok value scalar => exact ⟨scalar, st.rangeCheckState, rfl⟩
  | fail failure scalar => exact ⟨scalar, st.rangeCheckState, rfl⟩

theorem readScalarValue_shape (dtl : Dtl) (st : WriteState) (typeCode : TypeCode) :
    SameShape st (st.readScalarValue dtl typeCode).state := by
  unfold readScalarValue
  split
  · exact readScalarInternal_shape dtl st _ typeCode
  · exact .refl st

theorem readScalarElement_shape (dtl : Dtl) (st : WriteState) (dv : Dv) (typeCode : TypeCode) :
    SameShape st (st.readScalarElement dtl dv typeCode).state := by
  unfold readScalarElement
  split
  · exact readScalarInternal_shape dtl st _ typeCode
  · exact .refl st

theorem defaultRangeCheckScalar_state (st : WriteState) : st.defaultRangeCheckScalar.state = st := by
  have check (expected : ScalarStorageType) (inRange : Bool) :
      (if st.scalar.storageType = expected then
        if inRange then .ok () st else .fail (.code .valueRange) st
      else .fail (.code .valueType) st : Result WriteState Unit).state = st := by
    split
    · split <;> rfl
    · rfl
  unfold defaultRangeCheckScalar
  cases st.typeCode <;> first | rfl | exact check _ _

theorem defaultRangeCheckElements_shape (dtl : Dtl) (av : List Dv) (st₀ st : WriteState)
    (last : Result WriteState Unit) (shape : SameShape st₀ st) (lastShape : SameShape st₀ last.state) :
    SameShape st₀ (st.defaultRangeCheckElements dtl last av).state := by
  induction av generalizing st last with
  | nil => exact lastShape
  | cons dv rest ih =>
    have read := readScalarElement_shape dtl st dv st.typeCode
    rw [defaultRangeCheckElements]
    cases result : st.readScalarElement dtl dv st.typeCode with
    | fail failure st₁ =>
      rw [result] at read
      exact ih st₁ _ (shape.trans read) (shape.trans read)
    | ok value st₁ =>
      rw [result] at read
      have checked := st₁.defaultRangeCheckScalar_state
      simp only
      cases check : st₁.defaultRangeCheckScalar with
      | fail failure st₂ =>
        rw [check] at checked
        cases checked
        exact shape.trans read
      | ok value st₂ =>
        rw [check] at checked
        cases checked
        exact ih _ _ (shape.trans read) (shape.trans read)

theorem defaultRangeCheckValue_shape (dtl : Dtl) (st : WriteState) :
    SameShape st (st.defaultRangeCheckValue dtl).state := by
  unfold defaultRangeCheckValue
  split
  · have read := readScalarValue_shape dtl st st.typeCode
    cases result : st.readScalarValue dtl st.typeCode with
    | fail failure st₁ =>
      rw [result] at read
      exact read
    | ok value st₁ =>
      rw [result] at read
      rw [Result.bind_ok, defaultRangeCheckScalar_state]
      exact read
  · exact defaultRangeCheckElements_shape dtl _ st st _ (.refl st) (.refl st)
  · exact .refl st

theorem checkElements_shape (dtl : Dtl) (typeCode : TypeCode) (inRange : ScalarWord → Bool)
    (av : List Dv) (st : WriteState) :
    SameShape st (Serializer.checkElements dtl typeCode inRange st av).state := by
  induction av generalizing st with
  | nil => exact .refl st
  | cons dv rest ih =>
    have read := readScalarElement_shape dtl st dv typeCode
    rw [Serializer.checkElements]
    cases result : st.readScalarElement dtl dv typeCode with
    | fail failure st₁ =>
      rw [result] at read
      exact read.trans ⟨_, .fail, rfl⟩
    | ok value st₁ =>
      rw [result] at read
      simp only
      split
      · exact read.trans (ih st₁)
      · exact read.trans ⟨_, .fail, rfl⟩

end WriteState

namespace Serializer

/-- `count` bytes were written behind each other, and nothing else happened but that the
scalar and the state of the range check were used. -/
structure Writes (s s' : Serializer) (count : Nat) : Prop where
  stack : s'.stack = s.stack
  shape : s.state.SameShape s'.state
  queued : s'.queuedWriteState = s.queuedWriteState
  length : s'.buffer.bytes.length = s.buffer.bytes.length
  padded : s'.buffer.paddedNext = s.buffer.paddedNext
  next : s'.buffer.next = s.buffer.next + count

theorem Writes.trans {s s₁ s₂ : Serializer} {n m : Nat} (first : Writes s s₁ n)
    (second : Writes s₁ s₂ m) : Writes s s₂ (n + m) where
  stack := second.stack.trans first.stack
  shape := first.shape.trans second.shape
  queued := second.queued.trans first.queued
  length := second.length.trans first.length
  padded := second.padded.trans first.padded
  next := by rw [second.next, first.next, Nat.add_assoc]

/-- A call on the state that keeps its shape writes nothing. -/
theorem writes_onState {s s' : Serializer} {call : WriteState → Result WriteState Unit}
    (shape : s.state.SameShape (call s.state).state) (done : s.onState call = .ok () s') :
    Writes s s' 0 := by
  obtain ⟨st, result, rfl⟩ := Result.lift_eq_ok.mp done
  rw [result] at shape
  exact ⟨rfl, shape, rfl, rfl, rfl, rfl⟩

theorem writes_write {s : Serializer} {data : Bytes}
    (fits : s.buffer.next + data.length ≤ s.buffer.bytes.length) :
    Writes s { s with buffer := s.buffer.write data } data.length :=
  ⟨rfl, .refl _, rfl, splice_length fits, rfl, rfl⟩

theorem writes_packScalarValueInternal {s s' : Serializer}
    (done : s.packScalarValueInternal = .ok () s') : ∃ count, 0 < count ∧ Writes s s' count := by
  have put {storage : ScalarStorageType} {size value : Nat} (positive : 0 < size)
      (fits : s.buffer.next + s.state.elementSize ≤ s.buffer.bytes.length)
      (stored : (if s.state.scalar.storageType = storage ∧ s.state.elementSize = size then
          .ok () { s with buffer := s.buffer.write (packLE value size) }
        else (.fail .assertion s : Result Serializer Unit)) = .ok () s') :
      ∃ count, 0 < count ∧ Writes s s' count := by
    split at stored
    next same =>
      cases stored
      refine ⟨(packLE value size).length, ?_, writes_write ?_⟩
      · rwa [packLE_length]
      · rwa [packLE_length, ← same.2]
    · contradiction
  unfold packScalarValueInternal at done
  simp only at done
  split at done
  next fits =>
    split at done
    · exact put (by decide) fits done
    · exact put (by decide) fits done
    · exact put (by decide) fits done
    · exact put (by decide) fits done
    · exact put (by decide) fits done
    · exact put (by decide) fits done
    · exact put (by decide) fits done
    · exact put (by decide) fits done
    · exact put (by decide) fits done
    · contradiction
  · contradiction

theorem writes_packElements {dtl : Dtl} {s s' : Serializer} {av : List Dv}
    (done : s.packElements dtl av = .ok () s') : ∃ count, av.length ≤ count ∧ Writes s s' count := by
  induction av generalizing s with
  | nil =>
    cases done
    exact ⟨0, Nat.le_refl _, rfl, .refl _, rfl, rfl, rfl, rfl⟩
  | cons dv rest ih =>
    rw [packElements] at done
    obtain ⟨_, s₁, read, done⟩ := Result.bind_eq_ok.mp done
    obtain ⟨_, s₂, packed, done⟩ := Result.bind_eq_ok.mp done
    have first := writes_onState (s.state.readScalarElement_shape dtl dv s.state.typeCode) read
    obtain ⟨count, positive, second⟩ := writes_packScalarValueInternal packed
    obtain ⟨more, enough, third⟩ := ih done
    refine ⟨0 + count + more, ?_, (first.trans second).trans third⟩
    rw [List.length_cons]
    omega

/-- The range check that comes before the bytes of a value are written. -/
theorem writes_checked {dtl : Dtl} {s s' : Serializer}
    (done : (match s.state.rangeCheckState with
      | .notChecked => s.onState (WriteState.defaultRangeCheckValue dtl)
      | .fail => .fail (.code .valueRange) s
      | .ok => .ok () s : Result Serializer Unit) = .ok () s') : Writes s s' 0 := by
  split at done
  · exact writes_onState (s.state.defaultRangeCheckValue_shape dtl) done
  · contradiction
  · cases done
    exact ⟨rfl, .refl _, rfl, rfl, rfl, rfl⟩

theorem writes_packScalarValue {dtl : Dtl} {s s' : Serializer}
    (done : s.packScalarValue dtl = .ok () s') : ∃ count, 0 < count ∧ Writes s s' count := by
  unfold packScalarValue at done
  split at done
  · obtain ⟨_, s₁, checked, done⟩ := Result.bind_eq_ok.mp done
    obtain ⟨count, positive, packed⟩ := writes_packScalarValueInternal done
    refine ⟨0 + count, by omega, (writes_checked checked).trans packed⟩
  · contradiction

theorem writes_packArrayOfScalar {dtl : Dtl} {s s' : Serializer}
    (done : s.packArrayOfScalar dtl = .ok () s') :
    ∃ count, (s.state.dynamicSizeType = .none → s.state.arrayLen ≤ count) ∧ Writes s s' count := by
  unfold packArrayOfScalar at done
  split at done
  next av value =>
    split at done
    · contradiction
    next same =>
      obtain ⟨_, s₁, checked, done⟩ := Result.bind_eq_ok.mp done
      obtain ⟨count, enough, packed⟩ := writes_packElements done
      refine ⟨0 + count, ?_, (writes_checked checked).trans packed⟩
      intro fixed
      rw [not_and_not_right] at same
      have length := same fixed
      omega
  · contradiction

theorem writes_packString {dtl : Dtl} {s s' : Serializer} (done : s.packString dtl = .ok () s') :
    Writes s s' (u32 (s.state.elementSize * s.state.arrayLen)) := by
  unfold packString at done
  split at done
  · simp only at done
    split at done
    · contradiction
    split at done
    next fits =>
      split at done
      · split at done
        · contradiction
        next short =>
          cases done
          have cleared : (splice s.buffer.bytes s.buffer.next
              (List.replicate (u32 (s.state.elementSize * s.state.arrayLen)) 0)).length =
              s.buffer.bytes.length := splice_length (by rw [List.length_replicate]; exact fits)
          refine ⟨rfl, .refl _, rfl, ?_, rfl, rfl⟩
          simp only
          rw [splice_length (by rw [cleared]; omega), cleared]
      · contradiction
    · contradiction
  · contradiction

theorem writes_packByteArrayInternal {s s' : Serializer} (done : s.packByteArrayInternal = .ok () s') :
    Writes s s' s.state.arrayLen := by
  unfold packByteArrayInternal at done
  split at done
  next value _ =>
    split at done
    · contradiction
    split at done
    next fits =>
      split at done
      next enough =>
        cases done
        have taken : (value.take s.state.arrayLen).length = s.state.arrayLen := by
          rw [List.length_take, Nat.min_eq_left enough]
        have writes := @writes_write s (value.take s.state.arrayLen) (by rw [taken]; exact fits)
        rwa [taken] at writes
      · contradiction
    · contradiction
  · contradiction

theorem writes_writeDynamicValueToBuffer {s s' : Serializer} {value valueSize : Nat}
    (done : s.writeDynamicValueToBuffer value valueSize = .ok () s') :
    0 < valueSize ∧ Writes s s' valueSize := by
  unfold writeDynamicValueToBuffer at done
  split at done
  · contradiction
  split at done
  · contradiction
  split at done
  next fits =>
    cases done
    have writes := @writes_write s (packLE value valueSize) (by rw [packLE_length]; exact fits)
    rw [packLE_length] at writes
    exact ⟨by omega, writes⟩
  · contradiction

/-- Packing a record writes nothing and ends in a state that holds a hash. -/
theorem packRecordValue_ok {s s' : Serializer} (done : s.packRecordValue = .ok () s') :
    s'.buffer = s.buffer ∧ s'.queuedWriteState = s.queuedWriteState ∧
      (∃ hv, s'.state.value = .hash hv) ∧
      (s' = s ∨ ∃ child, s' = { s with stack := s.state :: s.stack, state := WriteState.setValue {} child }) := by
  unfold packRecordValue at done
  obtain ⟨_, s₁, entered, done⟩ := Result.bind_eq_ok.mp done
  have hash : s₁ = s' ∧ ∃ hv, s₁.state.value = .hash hv := by
    split at done
    next hv value =>
      cases done
      exact ⟨rfl, hv, value⟩
    · contradiction
  obtain ⟨rfl, hash⟩ := hash
  split at entered
  · split at entered
    · split at entered
      · contradiction
      split at entered
      · contradiction
      split at entered
      · contradiction
      next child _ =>
        cases entered
        exact ⟨rfl, rfl, hash, .inr ⟨child, rfl⟩⟩
    · contradiction
  · cases entered
    exact ⟨rfl, rfl, hash, .inl rfl⟩

theorem writes_checkValueRange {dtl : Dtl} {s s' : Serializer} {typeCode : TypeCode}
    {inRange : ScalarWord → Bool} (done : s.checkValueRange dtl typeCode inRange = .ok () s') :
    Writes s s' 0 := by
  unfold checkValueRange at done
  split at done
  · have read := s.state.readScalarValue_shape dtl typeCode
    split at done
    · contradiction
    next st result =>
      rw [result] at read
      split at done
      · cases done
        exact ⟨rfl, read.trans ⟨_, .ok, rfl⟩, rfl, rfl, rfl, rfl⟩
      · contradiction
  next av _ =>
    refine writes_onState ?_ done
    have start : s.state.SameShape { s.state with rangeCheckState := .ok } := ⟨_, .ok, rfl⟩
    exact start.trans (WriteState.checkElements_shape dtl typeCode inRange av _)
  · contradiction

/-! The states that a pop leaves come from the stack, and the buffer stays. -/

theorem popLoop_frame (s : Serializer) (stack : List WriteState) :
    (s.popLoop stack).buffer = s.buffer ∧
      (s.popLoop stack).queuedWriteState = s.queuedWriteState ∧
      ∀ st ∈ (s.popLoop stack).state :: (s.popLoop stack).stack, st ∈ s.state :: stack := by
  induction stack generalizing s with
  | nil => exact ⟨rfl, rfl, fun st mem => mem⟩
  | cons top rest ih =>
    rw [popLoop]
    split
    · obtain ⟨buffer, queued, states⟩ := ih { s with state := top }
      exact ⟨buffer, queued, fun st mem => List.mem_cons_of_mem _ (states st mem)⟩
    · exact ⟨rfl, rfl, fun st mem => List.mem_cons_of_mem _ mem⟩

end Serializer

end Apx
