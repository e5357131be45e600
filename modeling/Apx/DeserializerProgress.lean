import Apx.SerializerProgress
import Apx.Deserializer

/-! What one operation does to the position in the read buffer, and to the states that an
ARRAY_NEXT can go back from. -/

namespace Apx

open LittleEndian Vm

namespace ReadState

/-- Only the scalar and the state of the range check differ. -/
def SameShape (st st' : ReadState) : Prop :=
  ∃ scalar check, st' = { st with scalar := scalar, rangeCheckState := check }

theorem SameShape.refl (st : ReadState) : SameShape st st := ⟨st.scalar, st.rangeCheckState, rfl⟩

theorem SameShape.trans {st st₁ st₂ : ReadState} (first : SameShape st st₁)
    (second : SameShape st₁ st₂) : SameShape st st₂ := by
  obtain ⟨_, _, rfl⟩ := first
  obtain ⟨scalar, check, rfl⟩ := second
  exact ⟨scalar, check, rfl⟩

theorem storeScalarValue_shape (dtl : Dtl) (st : ReadState) (sv : Sv) (typeCode : TypeCode) :
    SameShape st (st.storeScalarValue dtl sv typeCode).state := by
  unfold storeScalarValue
  cases st.scalar.load dtl sv typeCode with
  | ok value scalar => exact ⟨scalar, st.rangeCheckState, rfl⟩
  | fail failure scalar => exact ⟨scalar, st.rangeCheckState, rfl⟩

theorem storeScalarElement_shape (dtl : Dtl) (st : ReadState) (dv : Dv) (typeCode : TypeCode) :
    SameShape st (st.storeScalarElement dtl dv typeCode).state := by
  unfold storeScalarElement
  split
  · exact storeScalarValue_shape dtl st _ typeCode
  · exact .refl st

theorem checkElements_shape (dtl : Dtl) (typeCode : TypeCode) (inRange : ScalarWord → Bool)
    (av : List Dv) (st : ReadState) :
    SameShape st (Deserializer.checkElements dtl typeCode inRange st av).state := by
  induction av generalizing st with
  | nil => exact .refl st
  | cons dv rest ih =>
    have read := storeScalarElement_shape dtl st dv typeCode
    rw [Deserializer.checkElements]
    cases result : st.storeScalarElement dtl dv typeCode with
    | fail failure st₁ =>
      rw [result] at read
      exact read.trans ⟨_, .fail, rfl⟩
    | ok value st₁ =>
      rw [result] at read
      simp only
      split
      · exact read.trans (ih st₁)
      · exact read.trans ⟨_, .fail, rfl⟩

/-- Reading a scalar moves the read position by its size, which is not zero. -/
theorem readScalarValue_ok {st st' : ReadState} {b b' : ReadBuffer}
    (done : st.readScalarValue b = .ok () (st', b')) :
    0 < st.elementSize ∧ st.SameShape st' ∧ b' = { b with next := b.next + st.elementSize } := by
  unfold readScalarValue at done
  split at done
  · contradiction
  next positive =>
    split at done
    · contradiction
    split at done
    next scalar _ =>
      cases done
      exact ⟨Nat.pos_of_ne_zero positive, ⟨scalar, st.rangeCheckState, rfl⟩, rfl⟩
    · contradiction

end ReadState

namespace Deserializer

/-- Where the next operation reads, behind the padding of a dynamic array. -/
def cursor (d : Deserializer) : Nat := d.buffer.paddedNext.getD d.buffer.next

/-- An ARRAY_NEXT may go back to the saved position: the value is an array of records. -/
def Armed (d : Deserializer) : Prop :=
  (∃ av, d.state.value = .array av) ∧ d.state.arrayLen > 0 ∧ d.state.typeCode = .record

/-- An operation goes forward in the buffer, or it arms no state that was not armed. -/
structure Progress (d d' : Deserializer) : Prop where
  bytes : d'.buffer.bytes = d.buffer.bytes
  advance : d.cursor < d'.cursor ∧ d.cursor ≤ d.buffer.bytes.length ∨
    d.cursor = d'.cursor ∧ (d'.Armed → d.Armed)

/-- Where unpacking has gone in the buffer since `d`, before the padding is taken into account. -/
structure Unpacked (d d' : Deserializer) : Prop where
  bytes : d'.buffer.bytes = d.buffer.bytes
  padded : d'.buffer.paddedNext = d.buffer.paddedNext
  advance : d.buffer.next < d'.buffer.next ∨ d.buffer.next = d'.buffer.next ∧ ¬d'.Armed

theorem popLoop_state_buffer (d : Deserializer) (stack : List ReadState) :
    (d.popLoop stack).state.buffer = d.buffer := by
  induction stack generalizing d with
  | nil => rfl
  | cons top rest ih =>
    rw [popLoop]
    simp only
    split
    · rfl
    · split
      · exact ih _
      · rfl

theorem popLoop_buffer {d d' : Deserializer} {stack : List ReadState}
    (done : d.popLoop stack = .ok () d') : d'.buffer = d.buffer := by
  rw [← popLoop_state_buffer d stack, done, Result.state_ok]

theorem unpacked_popState {d d' : Deserializer} {read : Result Deserializer Unit}
    (done : (read.bind fun _ d => d.popState) = .ok () d')
    (reads : ∀ d₁, read = .ok () d₁ → d.buffer.next < d₁.buffer.next ∧
      d₁.buffer = { d.buffer with next := d₁.buffer.next }) : Unpacked d d' := by
  obtain ⟨_, d₁, result, done⟩ := Result.bind_eq_ok.mp done
  obtain ⟨further, buffer⟩ := reads d₁ result
  have popped := popLoop_buffer done
  rw [buffer] at popped
  rw [buffer] at further
  exact ⟨by rw [popped], by rw [popped], .inl (by rw [popped]; exact further)⟩

theorem unpackScalarValue_ok {d d' : Deserializer} (done : d.unpackScalarValue = .ok () d') :
    d.buffer.next < d'.buffer.next ∧ d'.buffer = { d.buffer with next := d'.buffer.next } := by
  unfold unpackScalarValue at done
  obtain ⟨_, d₁, lifted, done⟩ := Result.bind_eq_ok.mp done
  obtain ⟨⟨st, b⟩, read, rfl⟩ := Result.lift_eq_ok.mp lifted
  obtain ⟨positive, _, rfl⟩ := ReadState.readScalarValue_ok read
  obtain ⟨st', _, rfl⟩ := Result.lift_eq_ok.mp done
  simp only at positive ⊢
  exact ⟨by omega, trivial⟩

theorem unpackElements_ok {d d' : Deserializer} {child : ReadState} {av : List Dv} {count : Nat}
    (done : d.unpackElements child av count = .ok () d') :
    d.buffer.next + count ≤ d'.buffer.next ∧ d'.buffer = { d.buffer with next := d'.buffer.next } := by
  induction count generalizing d child av with
  | zero =>
    cases done
    exact ⟨Nat.le_refl _, rfl⟩
  | succ count ih =>
    rw [unpackElements] at done
    split at done
    · contradiction
    next child' b read =>
      obtain ⟨positive, _, rfl⟩ := ReadState.readScalarValue_ok read
      split at done
      · contradiction
      · obtain ⟨further, buffer⟩ := ih done
        refine ⟨?_, buffer⟩
        simp only at further
        omega

theorem unpackCharacters_ok {bytes text text' : Bytes} {isDynamic : Bool}
    {adjusted next next' count : Nat}
    (done : unpackCharacters bytes isDynamic adjusted next text count = .ok text' next') :
    next' = next + count ∨ next' = adjusted := by
  induction count generalizing next text with
  | zero =>
    cases done
    exact .inl rfl
  | succ count ih =>
    rw [unpackCharacters] at done
    split at done
    · contradiction
    · split at done
      · cases done
        exact .inr rfl
      · rcases ih done with same | same
        · exact .inl (by omega)
        · exact .inr same

theorem unpackString_ok {d d' : Deserializer} (done : d.unpackString = .ok () d') :
    d'.buffer = { d.buffer with next := d.buffer.next + d.state.arrayLen } := by
  unfold unpackString at done
  simp only at done
  split at done
  · contradiction
  next text next read =>
    cases done
    rcases unpackCharacters_ok read with rfl | rfl <;> rfl

theorem unpackByteArrayInternal_ok {d d' : Deserializer}
    (done : d.unpackByteArrayInternal = .ok () d') :
    d'.buffer = { d.buffer with next := d.buffer.next + d.state.arrayLen } := by
  unfold unpackByteArrayInternal at done
  simp only at done
  split at done
  · cases done
    rfl
  · contradiction

theorem unpacked_unpackRecordValue (d : Deserializer) : Unpacked d d.unpackRecordValue := by
  unfold unpackRecordValue
  split
  · refine ⟨rfl, rfl, .inr ⟨rfl, ?_⟩⟩
    rintro ⟨⟨av, value⟩, _⟩
    cases value
  · refine ⟨rfl, rfl, .inr ⟨rfl, ?_⟩⟩
    rintro ⟨⟨av, value⟩, _⟩
    cases value

theorem unpacked_unpackPrepared {d d' : Deserializer} (done : d.unpackPrepared = .ok () d') :
    Unpacked d d' := by
  unfold unpackPrepared at done
  split at done
  · contradiction
  split at done
  · split at done
    · contradiction
    split at done
    · exact unpacked_popState done fun _ read => unpackScalarValue_ok read
    split at done
    · cases done
      exact unpacked_unpackRecordValue d
    · contradiction
  next nonempty =>
    split at done
    · refine unpacked_popState done fun _ read => ?_
      obtain ⟨further, buffer⟩ := unpackElements_ok read
      exact ⟨by omega, buffer⟩
    split at done
    · refine unpacked_popState done fun _ read => ?_
      rw [unpackString_ok read]
      exact ⟨by simp only; omega, rfl⟩
    split at done
    · refine unpacked_popState done fun _ read => ?_
      rw [unpackByteArrayInternal_ok read]
      exact ⟨by simp only; omega, rfl⟩
    split at done
    · cases done
      exact unpacked_unpackRecordValue d
    · contradiction

theorem prepareForBufferRead_ok {d d' : Deserializer} {typeCode : TypeCode} {elementSize : Nat}
    (done : d.prepareForBufferRead typeCode elementSize = .ok () d') :
    d.cursor ≤ d.buffer.bytes.length ∧ d' = { d with
      buffer := { d.buffer with next := d.cursor, paddedNext := none },
      state := d.state.reset.setTypeAndSize typeCode elementSize } := by
  unfold prepareForBufferRead at done
  split at done
  · contradiction
  next valid =>
    simp only at done
    split at done
    next padded same =>
      split at done
      · contradiction
      next inside =>
        cases done
        simp only [cursor, same, Option.getD_some, and_true]
        omega
    next same =>
      cases done
      have inside : d.buffer.next ≤ d.buffer.bytes.length := by
        simp only [ReadBuffer.isValid, Bool.not_eq_false, Bool.and_eq_true, decide_eq_true_eq] at valid
        exact valid.2
      simp only [cursor, same, Option.getD_none]
      refine ⟨inside, ?_⟩
      rw [← same]

theorem parseUInt32BySizeType_next {bytes : Bytes} {begin next : Nat} {sizeType : SizeType}
    {value : BitVec 32} (parsed : parseUInt32BySizeType bytes begin sizeType = some (value, next)) :
    begin < next := by
  unfold parseUInt32BySizeType at parsed
  split at parsed
  · contradiction
  next variant _ =>
    unfold parseUInt32ByVariant at parsed
    simp only at parsed
    split at parsed
    · contradiction
    · cases parsed
      omega

theorem prepareForArray_ok {d d' : Deserializer} {arrayLength : Nat} {dynamicSizeType : SizeType}
    (done : d.prepareForArray arrayLength dynamicSizeType = .ok () d') :
    d'.buffer = d.buffer ∨ d'.buffer.bytes = d.buffer.bytes ∧
      ∃ padded, d'.buffer.paddedNext = some padded ∧ d.buffer.next < padded := by
  unfold prepareForArray at done
  split at done
  · split at done
    next dynamic =>
      simp only at done
      obtain ⟨_, d₁, lifted, done⟩ := Result.bind_eq_ok.mp done
      obtain ⟨⟨st, b⟩, determined, rfl⟩ := Result.lift_eq_ok.mp lifted
      unfold ReadState.determineArrayLengthFromReadBuffer at determined
      split at determined
      · contradiction
      split at determined
      next parsed =>
        cases determined
        have further := parseUInt32BySizeType_next parsed
        simp only at done
        split at done
        · contradiction
        split at done
        · contradiction
        · cases done
          exact .inr ⟨rfl, _, rfl, by omega⟩
      · contradiction
    · cases done
      exact .inl rfl
  · cases done
    exact .inl rfl

/-- Every data operation is progress. -/
theorem progress_unpackAs {d d' : Deserializer} {typeCode : TypeCode} {elementSize : Nat}
    {arrayLength : Nat} {dynamicSizeType : SizeType}
    (done : unpackAs typeCode elementSize d arrayLength dynamicSizeType = .ok () d') :
    Progress d d' := by
  obtain ⟨_, d₁, prepared, done⟩ := Result.bind_eq_ok.mp done
  obtain ⟨inside, rfl⟩ := prepareForBufferRead_ok prepared
  obtain ⟨_, d₂, array, done⟩ := Result.bind_eq_ok.mp done
  obtain ⟨bytes, same, advance⟩ := unpacked_unpackPrepared done
  rcases prepareForArray_ok array with buffer | ⟨bytes', padded, some, further⟩
  · rw [buffer] at bytes same advance
    refine ⟨bytes, ?_⟩
    have cursor' : d'.cursor = d'.buffer.next := by rw [cursor, same, Option.getD_none]
    rw [cursor']
    rcases advance with further | ⟨stays, unarmed⟩
    · exact .inl ⟨further, inside⟩
    · exact .inr ⟨stays, fun armed => absurd armed unarmed⟩
  · refine ⟨bytes.trans bytes', ?_⟩
    have cursor' : d'.cursor = padded := by rw [cursor, same, some, Option.getD_some]
    rw [cursor']
    exact .inl ⟨further, inside⟩

theorem progress_checkValueRange {dtl : Dtl} {d d' : Deserializer} {scalarCode elementCode : TypeCode}
    {inRange : ScalarWord → Bool}
    (done : checkValueRange dtl scalarCode elementCode inRange d = .ok () d') : Progress d d' := by
  have same : d'.buffer = d.buffer ∧ d.state.SameShape d'.state := by
    unfold checkValueRange at done
    split at done
    next sv _ =>
      have read := d.state.storeScalarValue_shape dtl sv scalarCode
      split at done
      · contradiction
      next st result =>
        rw [result] at read
        split at done
        · cases done
          exact ⟨rfl, read.trans ⟨_, .ok, rfl⟩⟩
        · contradiction
    next av _ =>
      obtain ⟨st, checked, rfl⟩ := Result.lift_eq_ok.mp done
      have shape := ReadState.checkElements_shape dtl elementCode inRange av
        { d.state with rangeCheckState := .ok }
      rw [checked] at shape
      have start : d.state.SameShape { d.state with rangeCheckState := .ok } := ⟨_, .ok, rfl⟩
      exact ⟨rfl, start.trans shape⟩
    · contradiction
  obtain ⟨buffer, scalar, check, state⟩ := same
  refine ⟨by rw [buffer], .inr ⟨by rw [cursor, cursor, buffer], ?_⟩⟩
  rintro ⟨⟨av, value⟩, positive, type⟩
  rw [state] at value positive type
  exact ⟨⟨av, value⟩, positive, type⟩

theorem progress_recordSelect {d d' : Deserializer} {key : Bytes} {isLastField : Bool}
    (done : d.recordSelect key isLastField = .ok () d') : Progress d d' := by
  unfold recordSelect at done
  split at done
  · cases done
    refine ⟨rfl, .inr ⟨rfl, ?_⟩⟩
    rintro ⟨⟨av, value⟩, _⟩
    cases value
  · contradiction

/-- At the end of an array nothing changes but the index; before it, the state is armed and
the state of the next record is not. -/
theorem arrayNext_ok {d d' : Deserializer} {isLast : Bool} (done : d.arrayNext = .ok isLast d') :
    d'.buffer = d.buffer ∧ (isLast = true → d'.Armed → d.Armed) ∧
      (isLast = false → d.Armed ∧ ¬d'.Armed) := by
  unfold arrayNext at done
  split at done
  next av value =>
    split at done
    next positive =>
      simp only at done
      split at done
      · cases done
        exact ⟨rfl, fun _ armed => armed, nofun⟩
      split at done
      next isRecord =>
        cases done
        refine ⟨rfl, nofun, fun _ => ⟨⟨⟨av, value⟩, positive, isRecord⟩, ?_⟩⟩
        rintro ⟨⟨av', value'⟩, _⟩
        cases value'
      · contradiction
    · contradiction
  · contradiction

end Deserializer

end Apx
