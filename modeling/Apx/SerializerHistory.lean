import Apx.SerializerFrame

/-! What a serializer does depends neither on the states below the current one nor on the part
of the scalar union that nobody reads. -/

namespace Apx

open LittleEndian Vm

namespace WriteState

/-- The states differ at most in what is left in the scalar union. -/
def Like (st st' : WriteState) : Prop :=
  ∃ scalar, ScalarSlot.Same st.scalar scalar ∧ st' = { st with scalar := scalar }

theorem Like.checked {st st' : WriteState} (like : Like st st')
    (check : RangeCheckState) :
    Like { st with rangeCheckState := check } { st' with rangeCheckState := check } := by
  obtain ⟨scalar, same, rfl⟩ := like
  exact ⟨scalar, same, rfl⟩

theorem Like.scalar {st st' : WriteState} (like : Like st st') :
    ScalarSlot.Same st.scalar st'.scalar := by
  obtain ⟨_, same, rfl⟩ := like
  exact same

theorem rel_readScalarInternal {st st' : WriteState} (like : Like st st') (dtl : Dtl) (sv : Sv)
    (typeCode : TypeCode) :
    Result.Rel Like (st.readScalarInternal dtl sv typeCode)
      (st'.readScalarInternal dtl sv typeCode) := by
  obtain ⟨scalar, same, rfl⟩ := like
  exact (ScalarSlot.rel_load same dtl sv typeCode).lift fun x y same => ⟨y, same, rfl⟩

theorem rel_readScalarValue {st st' : WriteState} (like : Like st st') (dtl : Dtl)
    (typeCode : TypeCode) :
    Result.Rel Like (st.readScalarValue dtl typeCode) (st'.readScalarValue dtl typeCode) := by
  have value : st'.value = st.value := by
    obtain ⟨_, _, rfl⟩ := like
    rfl
  rw [readScalarValue, readScalarValue, value]
  split
  · exact rel_readScalarInternal like dtl _ typeCode
  · exact .fail like

theorem rel_readScalarElement {st st' : WriteState} (like : Like st st') (dtl : Dtl) (dv : Dv)
    (typeCode : TypeCode) :
    Result.Rel Like (st.readScalarElement dtl dv typeCode)
      (st'.readScalarElement dtl dv typeCode) := by
  unfold readScalarElement
  split
  · exact rel_readScalarInternal like dtl _ typeCode
  · exact .fail like

theorem rel_defaultRangeCheckScalar {st st' : WriteState} (like : Like st st') :
    Result.Rel Like st.defaultRangeCheckScalar st'.defaultRangeCheckScalar := by
  have same : ScalarSlot.Same st.scalar st'.scalar ∧ st'.typeCode = st.typeCode := by
    obtain ⟨_, same, rfl⟩ := like
    exact ⟨same, rfl⟩
  have check (expected : ScalarStorageType) (inRange inRange' : Bool)
      (agree : st.scalar.storageType = expected → inRange = inRange') :
      Result.Rel Like
        (if st.scalar.storageType = expected then
          if inRange then .ok () st else .fail (.code .valueRange) st
        else .fail (.code .valueType) st : Result WriteState Unit)
        (if st'.scalar.storageType = expected then
          if inRange' then .ok () st' else .fail (.code .valueRange) st'
        else .fail (.code .valueType) st') := by
    rw [← same.1.storageType]
    split
    next active =>
      rw [agree active]
      split
      · exact .ok like
      · exact .fail like
    · exact .fail like
  rw [defaultRangeCheckScalar, defaultRangeCheckScalar, same.2]
  cases st.typeCode with
  | uint8 | uint16 | uint32 | int8 | int16 | int32 =>
    exact check _ _ _ fun _ => by rw [same.1.low]
  | uint64 | int64 => exact check _ _ _ fun active => by rw [same.1.whole (by simp [active])]
  | bool => exact .ok like
  | _ => exact .fail like

theorem rel_defaultRangeCheckElements (dtl : Dtl) (av : List Dv) {st st' : WriteState}
    (like : Like st st') {last last' : Result WriteState Unit} (ends : Result.Rel Like last last') :
    Result.Rel Like (st.defaultRangeCheckElements dtl last av)
      (st'.defaultRangeCheckElements dtl last' av) := by
  induction av generalizing st st' last last' with
  | nil => exact ends
  | cons dv rest ih =>
    have typeCode : st'.typeCode = st.typeCode := by
      obtain ⟨_, _, rfl⟩ := like
      rfl
    have read := rel_readScalarElement like dtl dv st.typeCode
    rw [defaultRangeCheckElements, defaultRangeCheckElements, typeCode]
    rcases read.ends with ⟨_, st₁, st₁', eq, eq', like⟩ | ⟨_, st₁, st₁', eq, eq', like⟩
    · rw [eq, eq']
      rcases (rel_defaultRangeCheckScalar like).ends with
        ⟨_, _, _, eq, eq', like⟩ | ⟨_, _, _, eq, eq', like⟩
      · simp only [eq, eq']
        exact ih like (.ok like)
      · simp only [eq, eq']
        exact .fail like
    · rw [eq, eq']
      exact ih like (.fail like)

theorem rel_defaultRangeCheckValue {st st' : WriteState} (like : Like st st') (dtl : Dtl) :
    Result.Rel Like (st.defaultRangeCheckValue dtl) (st'.defaultRangeCheckValue dtl) := by
  have fields : st'.value = st.value ∧ st'.typeCode = st.typeCode := by
    obtain ⟨_, _, rfl⟩ := like
    exact ⟨rfl, rfl⟩
  rw [defaultRangeCheckValue, defaultRangeCheckValue, fields.1, fields.2]
  split
  · exact (rel_readScalarValue like dtl _).bind fun _ _ _ like => rel_defaultRangeCheckScalar like
  · exact rel_defaultRangeCheckElements dtl _ like (.ok like)
  · exact .fail like

theorem rel_determineArrayLength {st st' : WriteState} (like : Like st st') (dtl : Dtl) :
    Result.Rel Like (st.determineArrayLengthFromValue dtl)
      (st'.determineArrayLengthFromValue dtl) := by
  obtain ⟨scalar, same, rfl⟩ := like
  unfold determineArrayLengthFromValue
  simp only
  split
  · split
    · exact .ok ⟨scalar, same, rfl⟩
    · exact .fail ⟨scalar, same, rfl⟩
  · exact .ok ⟨scalar, same, rfl⟩
  · exact .ok ⟨scalar, same, rfl⟩
  · exact .ok ⟨scalar, same, rfl⟩
  · exact .fail ⟨scalar, same, rfl⟩

end WriteState

namespace Serializer

/-- The second serializer is the first one, with nothing on its stack and with something else
in the hidden part of its scalar union. No queue is being written. -/
def Like (stack : List WriteState) (s s' : Serializer) : Prop :=
  s.stack = stack ∧ s.queuedWriteState = {} ∧ ∃ scalar, ScalarSlot.Same s.state.scalar scalar ∧
    s' = { s with stack := [], state := { s.state with scalar := scalar } }

variable {stack : List WriteState} {s s' : Serializer}

theorem Like.withState (like : Like stack s s') {st st' : WriteState}
    (states : WriteState.Like st st') :
    Like stack { s with state := st } { s' with state := st' } := by
  obtain ⟨rfl, idle, _, _, rfl⟩ := like
  obtain ⟨scalar, same, rfl⟩ := states
  exact ⟨rfl, idle, scalar, same, rfl⟩

theorem Like.state (like : Like stack s s') : WriteState.Like s.state s'.state := by
  obtain ⟨_, _, scalar, same, rfl⟩ := like
  exact ⟨scalar, same, rfl⟩

theorem rel_onState (like : Like stack s s') {call : WriteState → Result WriteState Unit}
    (calls : ∀ st st', WriteState.Like st st' → Result.Rel WriteState.Like (call st) (call st')) :
    Result.Rel (Like stack) (s.onState call) (s'.onState call) :=
  (calls _ _ like.state).lift fun _ _ states => like.withState states

theorem rel_prepareForBufferWrite (like : Like stack s s') (typeCode : TypeCode)
    (elementSize : Nat) :
    Result.Rel (Like stack) (s.prepareForBufferWrite typeCode elementSize)
      (s'.prepareForBufferWrite typeCode elementSize) := by
  obtain ⟨rfl, idle, scalar, same, rfl⟩ := like
  unfold prepareForBufferWrite
  simp only
  split
  · exact .fail ⟨rfl, idle, scalar, same, rfl⟩
  · split
    · split
      · exact .fail ⟨rfl, idle, scalar, same, rfl⟩
      · exact .ok ⟨rfl, idle, scalar, same, rfl⟩
    · exact .ok ⟨rfl, idle, scalar, same, rfl⟩

theorem rel_prepareForArray (like : Like stack s s') (dtl : Dtl) (arrayLength : Nat)
    (dynamicSizeType : SizeType) :
    Result.Rel (Like stack) (s.prepareForArray dtl arrayLength dynamicSizeType)
      (s'.prepareForArray dtl arrayLength dynamicSizeType) := by
  obtain ⟨rfl, idle, scalar, same, rfl⟩ := like
  have bounded : WriteState.Like { s.state with maxArrayLen := arrayLength }
      { s.state with scalar := scalar, maxArrayLen := arrayLength } := ⟨scalar, same, rfl⟩
  unfold prepareForArray
  split
  · split
    · simp only
      refine Result.Rel.bind ((WriteState.rel_determineArrayLength bounded dtl).lift ?_) ?_
      · rintro st _ ⟨scalar, same, rfl⟩
        exact ⟨rfl, idle, scalar, same, rfl⟩
      · rintro _ t _ ⟨held, idle, scalar, same, rfl⟩
        simp only
        split
        · exact .fail ⟨held, idle, scalar, same, rfl⟩
        · split
          · exact .fail ⟨held, idle, scalar, same, rfl⟩
          · split
            · exact .fail ⟨held, idle, scalar, same, rfl⟩
            · exact .ok ⟨held, idle, scalar, same, rfl⟩
    · exact .ok ⟨rfl, idle, scalar, same, rfl⟩
  · exact .ok ⟨rfl, idle, scalar, same, rfl⟩

theorem rel_writeDynamicValueToBuffer (like : Like stack s s') (value valueSize : Nat) :
    Result.Rel (Like stack) (s.writeDynamicValueToBuffer value valueSize)
      (s'.writeDynamicValueToBuffer value valueSize) := by
  obtain ⟨rfl, idle, scalar, same, rfl⟩ := like
  unfold writeDynamicValueToBuffer
  simp only
  split
  · exact .fail ⟨rfl, idle, scalar, same, rfl⟩
  · split
    · exact .fail ⟨rfl, idle, scalar, same, rfl⟩
    · split
      · exact .ok ⟨rfl, idle, scalar, same, rfl⟩
      · exact .fail ⟨rfl, idle, scalar, same, rfl⟩

theorem rel_packScalarValueInternal (like : Like stack s s') :
    Result.Rel (Like stack) s.packScalarValueInternal s'.packScalarValueInternal := by
  have same : ScalarSlot.Same s.state.scalar s'.state.scalar ∧ s'.buffer = s.buffer ∧
      s'.state.typeCode = s.state.typeCode ∧ s'.state.elementSize = s.state.elementSize := by
    obtain ⟨_, _, _, same, rfl⟩ := like
    exact ⟨same, rfl, rfl, rfl⟩
  have onBuffer (b : WriteBuffer) : Like stack { s with buffer := b } { s' with buffer := b } := by
    obtain ⟨held, idle, scalar, hidden, rfl⟩ := like
    exact ⟨held, idle, scalar, hidden, rfl⟩
  have put (storage : ScalarStorageType) (size value value' : Nat)
      (agree : s.state.scalar.storageType = storage → value = value') :
      Result.Rel (Like stack)
        (if s.state.scalar.storageType = storage ∧ s.state.elementSize = size then
          .ok () { s with buffer := s.buffer.write (packLE value size) }
        else .fail .assertion s : Result Serializer Unit)
        (if s'.state.scalar.storageType = storage ∧ s.state.elementSize = size then
          .ok () { s' with buffer := s.buffer.write (packLE value' size) }
        else .fail .assertion s') := by
    rw [← same.1.storageType]
    split
    next active =>
      rw [agree active.1]
      exact .ok (onBuffer _)
    · exact .fail like
  rw [packScalarValueInternal, packScalarValueInternal, same.2.1, same.2.2.1, same.2.2.2]
  split
  · cases s.state.typeCode with
    | uint8 | uint16 | uint32 | int8 | int16 | int32 =>
      exact put _ _ _ _ fun _ => by rw [same.1.low]
    | uint64 | int64 | bool =>
      exact put _ _ _ _ fun active => by rw [same.1.whole (by simp [active])]
    | _ => exact .fail (onBuffer _)
  · exact .fail like

theorem rel_packElements (dtl : Dtl) (av : List Dv) (like : Like stack s s') :
    Result.Rel (Like stack) (s.packElements dtl av) (s'.packElements dtl av) := by
  induction av generalizing s s' with
  | nil => exact .ok like
  | cons dv rest ih =>
    refine (rel_onState like ?_).bind fun _ _ _ like =>
      (rel_packScalarValueInternal like).bind fun _ _ _ like => ih like
    intro st st' like
    have typeCode : st'.typeCode = st.typeCode := by
      obtain ⟨_, _, rfl⟩ := like
      rfl
    simp only [typeCode]
    exact WriteState.rel_readScalarElement like dtl dv _

theorem rel_checked (like : Like stack s s') (dtl : Dtl) :
    Result.Rel (Like stack)
      (match s.state.rangeCheckState with
        | .notChecked => s.onState (WriteState.defaultRangeCheckValue dtl)
        | .fail => .fail (.code .valueRange) s
        | .ok => .ok () s)
      (match s'.state.rangeCheckState with
        | .notChecked => s'.onState (WriteState.defaultRangeCheckValue dtl)
        | .fail => .fail (.code .valueRange) s'
        | .ok => .ok () s') := by
  have check : s'.state.rangeCheckState = s.state.rangeCheckState := by
    obtain ⟨_, _, _, _, rfl⟩ := like
    rfl
  rw [check]
  split
  · exact rel_onState like fun _ _ like => WriteState.rel_defaultRangeCheckValue like dtl
  · exact .fail like
  · exact .ok like

theorem rel_packScalarValue (like : Like stack s s') (dtl : Dtl) :
    Result.Rel (Like stack) (s.packScalarValue dtl) (s'.packScalarValue dtl) := by
  have value : s'.state.value = s.state.value := by
    obtain ⟨_, _, _, _, rfl⟩ := like
    rfl
  rw [packScalarValue, packScalarValue, value]
  split
  · exact (rel_checked like dtl).bind fun _ _ _ like => rel_packScalarValueInternal like
  · exact .fail like

theorem rel_packArrayOfScalar (like : Like stack s s') (dtl : Dtl) :
    Result.Rel (Like stack) (s.packArrayOfScalar dtl) (s'.packArrayOfScalar dtl) := by
  have fields : s'.state.value = s.state.value ∧
      s'.state.dynamicSizeType = s.state.dynamicSizeType ∧ s'.state.arrayLen = s.state.arrayLen := by
    obtain ⟨_, _, _, _, rfl⟩ := like
    exact ⟨rfl, rfl, rfl⟩
  rw [packArrayOfScalar, packArrayOfScalar, fields.1, fields.2.1, fields.2.2]
  split
  · split
    · exact .fail like
    · exact (rel_checked like dtl).bind fun _ _ _ like => rel_packElements dtl _ like
  · exact .fail like

theorem rel_packString (like : Like stack s s') (dtl : Dtl) :
    Result.Rel (Like stack) (s.packString dtl) (s'.packString dtl) := by
  obtain ⟨rfl, idle, scalar, same, rfl⟩ := like
  unfold packString
  simp only
  split
  · split
    · exact .fail ⟨rfl, idle, scalar, same, rfl⟩
    · split
      · split
        · split
          · exact .fail ⟨rfl, idle, scalar, same, rfl⟩
          · exact .ok ⟨rfl, idle, scalar, same, rfl⟩
        · exact .fail ⟨rfl, idle, scalar, same, rfl⟩
      · exact .fail ⟨rfl, idle, scalar, same, rfl⟩
  · exact .fail ⟨rfl, idle, scalar, same, rfl⟩

theorem rel_packByteArrayInternal (like : Like stack s s') :
    Result.Rel (Like stack) s.packByteArrayInternal s'.packByteArrayInternal := by
  obtain ⟨rfl, idle, scalar, same, rfl⟩ := like
  unfold packByteArrayInternal
  simp only
  split
  · split
    · exact .fail ⟨rfl, idle, scalar, same, rfl⟩
    · split
      · split
        · exact .ok ⟨rfl, idle, scalar, same, rfl⟩
        · exact .fail ⟨rfl, idle, scalar, same, rfl⟩
      · exact .fail ⟨rfl, idle, scalar, same, rfl⟩
  · exact .fail ⟨rfl, idle, scalar, same, rfl⟩

/-- The test of a range check reads no more of the scalar union than its type code loads. -/
def Reads (typeCode : TypeCode) (inRange : ScalarWord → Bool) : Prop :=
  ∀ x y : ScalarSlot, ScalarSlot.Same x y → x.storageType = ScalarSlot.storageOf typeCode →
    inRange x.value = inRange y.value

theorem reads_low {typeCode : TypeCode} (test : BitVec 32 → Bool) :
    Reads typeCode fun w => test w.low := by
  intro x y same _
  simp only [same.low]

theorem reads_whole {typeCode : TypeCode} (test : BitVec 64 → Bool)
    (wide : typeCode = .int64 ∨ typeCode = .uint64) : Reads typeCode test := by
  intro x y same active
  rw [same.whole (by rcases wide with rfl | rfl <;> simp [active, ScalarSlot.storageOf])]

theorem readScalarInternal_storageType {st st' : WriteState} {dtl : Dtl} {sv : Sv}
    {typeCode : TypeCode} (read : st.readScalarInternal dtl sv typeCode = .ok () st') :
    st'.scalar.storageType = ScalarSlot.storageOf typeCode := by
  obtain ⟨scalar, loaded, rfl⟩ := Result.lift_eq_ok.mp read
  exact ScalarSlot.load_storageType loaded

theorem readScalarElement_storageType {st st' : WriteState} {dtl : Dtl} {dv : Dv}
    {typeCode : TypeCode} (read : st.readScalarElement dtl dv typeCode = .ok () st') :
    st'.scalar.storageType = ScalarSlot.storageOf typeCode := by
  unfold WriteState.readScalarElement at read
  split at read
  · exact readScalarInternal_storageType read
  · cases read

theorem rel_checkElements {typeCode : TypeCode} {inRange : ScalarWord → Bool}
    (reads : Reads typeCode inRange) (dtl : Dtl) (av : List Dv) {st st' : WriteState}
    (like : WriteState.Like st st') :
    Result.Rel WriteState.Like (checkElements dtl typeCode inRange st av)
      (checkElements dtl typeCode inRange st' av) := by
  induction av generalizing st st' with
  | nil => exact .ok like
  | cons dv rest ih =>
    rw [checkElements, checkElements]
    rcases (WriteState.rel_readScalarElement like dtl dv typeCode).ends with
      ⟨_, st₁, st₁', eq, eq', like⟩ | ⟨_, st₁, st₁', eq, eq', like⟩
    · have agree := reads _ _ like.scalar (readScalarElement_storageType eq)
      rw [eq, eq']
      simp only [agree]
      split
      · exact ih like
      · exact .fail (like.checked .fail)
    · rw [eq, eq']
      exact .fail (like.checked .fail)

theorem rel_checkValueRange {typeCode : TypeCode} {inRange : ScalarWord → Bool}
    (reads : Reads typeCode inRange) (like : Like stack s s') (dtl : Dtl) :
    Result.Rel (Like stack) (s.checkValueRange dtl typeCode inRange)
      (s'.checkValueRange dtl typeCode inRange) := by
  have value : s'.state.value = s.state.value := by
    obtain ⟨_, _, _, _, rfl⟩ := like
    rfl
  rw [checkValueRange, checkValueRange, value]
  split
  next sv held =>
    have internal (st : WriteState) (value : st.value = .scalar sv) :
        st.readScalarValue dtl typeCode = st.readScalarInternal dtl sv typeCode := by
      rw [WriteState.readScalarValue, value]
    rw [internal _ held, internal _ (value.trans held)]
    rcases (WriteState.rel_readScalarInternal like.state dtl sv typeCode).ends with
      ⟨_, st, st', eq, eq', states⟩ | ⟨_, st, st', eq, eq', states⟩
    · have agree := reads _ _ states.scalar (readScalarInternal_storageType eq)
      rw [eq, eq']
      simp only [agree]
      split
      · exact .ok (like.withState (states.checked .ok))
      · exact .fail (like.withState (states.checked .fail))
    · rw [eq, eq']
      exact .fail (like.withState (states.checked .fail))
  · refine rel_onState like fun st st' like => rel_checkElements reads dtl _ (like.checked .ok)
  · exact .fail like

end Serializer

end Apx
