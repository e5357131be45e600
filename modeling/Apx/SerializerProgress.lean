import Apx.SerializerFrame

/-! What one operation does to the position in the write buffer, and to the states that an
ARRAY_NEXT can go back from. -/

namespace Apx

open LittleEndian Vm

namespace Serializer

/-- Where the next operation writes, behind the padding of a dynamic array. -/
def cursor (s : Serializer) : Nat := s.buffer.paddedNext.getD s.buffer.next

/-- An ARRAY_NEXT may go back to the saved position: the value is an array of records. -/
def Armed (s : Serializer) : Prop :=
  (∃ av, s.state.value = .array av) ∧ s.state.arrayLen > 0 ∧ s.state.typeCode = .record

/-- The array lengths are numbers of the type uint32_t. -/
def Sized (s : Serializer) : Prop := ∀ st ∈ s.state :: s.stack, st.arrayLen < 2 ^ 32

/-- An operation goes forward in the buffer, or it arms no state that was not armed. -/
structure Progress (s s' : Serializer) : Prop where
  length : s'.buffer.bytes.length = s.buffer.bytes.length
  sized : s'.Sized
  advance : s.cursor < s'.cursor ∧ s.cursor ≤ s.buffer.bytes.length ∨
    s.cursor = s'.cursor ∧ (s'.Armed → s.Armed)

theorem Writes.sized {s s' : Serializer} {count : Nat} (writes : Writes s s' count)
    (sized : s.Sized) : s'.Sized := by
  obtain ⟨scalar, check, state⟩ := writes.shape
  intro st mem
  rw [state, writes.stack] at mem
  rcases List.mem_cons.mp mem with rfl | mem
  · exact sized s.state List.mem_cons_self
  · exact sized st (List.mem_cons_of_mem _ mem)

/-- Where packing has gone in the buffer since `s`, before the padding is taken into account. -/
structure Packed (s s' : Serializer) : Prop where
  length : s'.buffer.bytes.length = s.buffer.bytes.length
  padded : s'.buffer.paddedNext = s.buffer.paddedNext
  sized : s'.Sized
  advance : s.buffer.next < s'.buffer.next ∨ s.buffer.next = s'.buffer.next ∧ ¬s'.Armed

/-- Writing bytes before packing is progress whatever packing does then. -/
theorem Packed.after {s s₁ s' : Serializer} {count : Nat} (writes : Writes s s₁ count)
    (packed : Packed s₁ s') : Packed s s' where
  length := packed.length.trans writes.length
  padded := packed.padded.trans writes.padded
  sized := packed.sized
  advance := by
    have next := writes.next
    rcases packed.advance with further | ⟨same, unarmed⟩
    · left
      omega
    · by_cases none : count = 0
      · exact .inr ⟨by omega, unarmed⟩
      · left
        omega

theorem packed_finishPack_pop {s s' : Serializer} {written : Result Serializer Unit}
    (sized : s.Sized) (done : finishPack true written = .ok () s')
    (writes : ∀ s₁, written = .ok () s₁ → ∃ count, 0 < count ∧ Writes s s₁ count) : Packed s s' := by
  obtain ⟨_, s₁, result, done⟩ := Result.bind_eq_ok.mp done
  obtain ⟨count, positive, writes⟩ := writes s₁ result
  have next := writes.next
  have states := writes.sized sized
  simp only [if_true] at done
  cases done
  generalize counted : (if s₁.queuedWriteState.isActive then
    { s₁ with queuedWriteState :=
      { s₁.queuedWriteState with currentLength := u32 (s₁.queuedWriteState.currentLength + 1) } }
    else s₁) = s₂
  have same : s₂.buffer = s₁.buffer ∧ s₂.state = s₁.state ∧ s₂.stack = s₁.stack := by
    subst counted
    split <;> exact ⟨rfl, rfl, rfl⟩
  obtain ⟨buffer, state, stack⟩ := same
  obtain ⟨popBuffer, _, popStates⟩ := popLoop_frame s₂ s₂.stack
  rw [popState]
  refine ⟨?_, ?_, ?_, ?_⟩
  · rw [popBuffer, buffer]
    exact writes.length
  · rw [popBuffer, buffer]
    exact writes.padded
  · intro st mem
    have mem := popStates st mem
    rw [state, stack] at mem
    exact states st mem
  · rw [popBuffer, buffer]
    left
    omega

theorem packed_finishPack_record {s s' : Serializer} (sized : s.Sized)
    (done : finishPack false s.packRecordValue = .ok () s') : Packed s s' := by
  obtain ⟨_, s₁, result, done⟩ := Result.bind_eq_ok.mp done
  obtain ⟨buffer, _, ⟨hv, hash⟩, shape⟩ := packRecordValue_ok result
  cases done
  generalize counted : (if s₁.queuedWriteState.isActive then
    { s₁ with queuedWriteState :=
      { s₁.queuedWriteState with currentLength := u32 (s₁.queuedWriteState.currentLength + 1) } }
    else s₁) = s₂
  have same : s₂.buffer = s₁.buffer ∧ s₂.state = s₁.state ∧ s₂.stack = s₁.stack := by
    subst counted
    split <;> exact ⟨rfl, rfl, rfl⟩
  obtain ⟨buffer', state, stack⟩ := same
  have states : s₁.Sized := by
    rcases shape with rfl | ⟨child, rfl⟩
    · exact sized
    · intro st mem
      rcases List.mem_cons.mp mem with rfl | mem
      · exact Nat.two_pow_pos 32
      · exact sized st mem
  refine ⟨?_, ?_, ?_, .inr ⟨?_, ?_⟩⟩
  · simp [buffer', buffer]
  · simp [buffer', buffer]
  · intro st mem
    simp only [Bool.false_eq_true, if_false, state, stack] at mem
    exact states st mem
  · simp [buffer', buffer]
  · rintro ⟨⟨av, array⟩, _⟩
    simp only [Bool.false_eq_true, if_false, state, hash] at array
    contradiction

theorem packed_packValue {dtl : Dtl} {s s' : Serializer} (sized : s.Sized)
    (element : s.state.isCharType → s.state.elementSize = 1)
    (done : s.packValue dtl = .ok () s') : Packed s s' := by
  unfold packValue at done
  split at done
  · contradiction
  simp only at done
  split at done
  next empty =>
    split at done
    next dynamic =>
      refine packed_finishPack_pop sized done fun s₁ written => ?_
      obtain ⟨positive, writes⟩ := writes_writeDynamicValueToBuffer written
      exact ⟨_, positive, writes⟩
    split at done
    · exact packed_finishPack_pop sized done fun s₁ written => writes_packScalarValue written
    split at done
    · exact packed_finishPack_record sized done
    · contradiction
  next nonempty =>
    obtain ⟨_, s₁, prefixed, done⟩ := Result.bind_eq_ok.mp done
    -- a dynamic array has written its length by now
    obtain ⟨first, count, writes⟩ : (s.state.dynamicSizeType ≠ .none →
        ∃ count, 0 < count ∧ Writes s s₁ count) ∧ ∃ count, Writes s s₁ count := by
      split at prefixed
      next dynamic =>
        obtain ⟨positive, writes⟩ := writes_writeDynamicValueToBuffer prefixed
        exact ⟨fun _ => ⟨_, positive, writes⟩, _, writes⟩
      next fixed =>
        cases prefixed
        exact ⟨fun dynamic => absurd dynamic fixed, 0, rfl, .refl _, rfl, rfl, rfl, rfl⟩
    obtain ⟨scalar, check, state⟩ := writes.shape
    have lengthSame : s₁.state.arrayLen = s.state.arrayLen := by rw [state]
    have typeSame : s₁.state.dynamicSizeType = s.state.dynamicSizeType := by rw [state]
    have bounded := sized s.state List.mem_cons_self
    split at done
    · refine packed_finishPack_pop sized done fun s₂ written => ?_
      obtain ⟨more, enough, packed⟩ := writes_packArrayOfScalar written
      by_cases dynamic : s.state.dynamicSizeType = .none
      · have long := enough (typeSame.trans dynamic)
        exact ⟨count + more, by omega, writes.trans packed⟩
      · obtain ⟨size, positive, writes⟩ := first dynamic
        exact ⟨size + more, by omega, writes.trans packed⟩
    split at done
    next isChar =>
      refine packed_finishPack_pop sized done fun s₂ written => ⟨_, ?_, writes.trans (writes_packString written)⟩
      have size : s₁.state.elementSize = 1 := by
        rw [state]
        refine element ?_
        rw [state] at isChar
        exact isChar
      rw [size, Nat.one_mul, lengthSame, u32_of_lt bounded]
      omega
    split at done
    · refine packed_finishPack_pop sized done fun s₂ written =>
        ⟨_, ?_, writes.trans (writes_packByteArrayInternal written)⟩
      omega
    split at done
    · exact (packed_finishPack_record (writes.sized sized) done).after writes
    · contradiction

theorem prepareForBufferWrite_ok {s s' : Serializer} {typeCode : TypeCode} {elementSize : Nat}
    (done : s.prepareForBufferWrite typeCode elementSize = .ok () s') :
    s.cursor ≤ s.buffer.bytes.length ∧ s' = { s with
      buffer := { s.buffer with next := s.cursor, paddedNext := none },
      state := { s.state with typeCode := typeCode, elementSize := elementSize } } := by
  unfold prepareForBufferWrite at done
  split at done
  · contradiction
  next valid =>
    simp only at done
    split at done
    next padded same =>
      split at done
      · contradiction
      next inside =>
        cases done
        simp only [cursor, same, Option.getD_some, and_true]
        omega
    next same =>
      cases done
      have inside : s.buffer.next ≤ s.buffer.bytes.length := by
        simp only [WriteBuffer.isValid, Bool.not_eq_false, Bool.and_eq_true, decide_eq_true_eq] at valid
        exact valid.2
      simp only [cursor, same, Option.getD_none]
      refine ⟨inside, ?_⟩
      rw [← same]

theorem determineArrayLengthFromValue_ok {dtl : Dtl} {st st' : WriteState}
    (done : st.determineArrayLengthFromValue dtl = .ok () st') :
    ∃ length, st' = { st with arrayLen := length } := by
  unfold WriteState.determineArrayLengthFromValue at done
  split at done
  · simp only at done
    split at done
    · cases done
      exact ⟨_, rfl⟩
    · contradiction
  · cases done
    exact ⟨_, rfl⟩
  · cases done
    exact ⟨st.arrayLen, rfl⟩
  · cases done
    exact ⟨_, rfl⟩
  · contradiction

/-- A size of a length prefix is positive. -/
theorem sizeTypeToSize_pos {sizeType : SizeType} (known : sizeType ≠ .none) :
    0 < sizeTypeToSize sizeType := by
  cases sizeType with
  | none => exact absurd rfl known
  | _ => decide

theorem prepareForArray_ok {dtl : Dtl} {s s' : Serializer} {arrayLength : Nat}
    {dynamicSizeType : SizeType} (fits : arrayLength < 2 ^ 32) (sized : s.Sized)
    (fresh : s.buffer.paddedNext = none)
    (done : s.prepareForArray dtl arrayLength dynamicSizeType = .ok () s') :
    s'.Sized ∧ s'.buffer.next = s.buffer.next ∧ s'.buffer.bytes = s.buffer.bytes ∧
      s'.state.typeCode = s.state.typeCode ∧ s'.state.elementSize = s.state.elementSize ∧
      (s'.buffer.paddedNext = none ∨
        ∃ padded, s'.buffer.paddedNext = some padded ∧ s.buffer.next < padded) := by
  have resized (st : WriteState) (small : st.arrayLen < 2 ^ 32) (buffer : WriteBuffer) :
      Sized { s with state := st, buffer := buffer } := by
    intro other mem
    rcases List.mem_cons.mp mem with rfl | mem
    · exact small
    · exact sized other (List.mem_cons_of_mem _ mem)
  unfold prepareForArray at done
  split at done
  · split at done
    next dynamic =>
      simp only at done
      obtain ⟨_, s₁, lifted, done⟩ := Result.bind_eq_ok.mp done
      obtain ⟨st, determined, rfl⟩ := Result.lift_eq_ok.mp lifted
      obtain ⟨length, rfl⟩ := determineArrayLengthFromValue_ok determined
      simp only at done
      split at done
      · contradiction
      next short =>
        split at done
        · contradiction
        split at done
        · contradiction
        · cases done
          have positive := sizeTypeToSize_pos dynamic
          refine ⟨resized _ (Nat.lt_of_le_of_lt (Nat.not_lt.mp short) fits) _, rfl, rfl, rfl, rfl,
            .inr ⟨_, rfl, ?_⟩⟩
          omega
    · cases done
      exact ⟨resized _ fits _, rfl, rfl, rfl, rfl, .inl fresh⟩
  · cases done
    exact ⟨sized, rfl, rfl, rfl, rfl, .inl fresh⟩

/-- Every data operation is progress. -/
theorem progress_packAs {dtl : Dtl} {s s' : Serializer} {typeCode : TypeCode} {elementSize : Nat}
    {arrayLength : Nat} {dynamicSizeType : SizeType} (fits : arrayLength < 2 ^ 32) (sized : s.Sized)
    (element : typeCode = .char ∨ typeCode = .char8 ∨ typeCode = .char16 ∨ typeCode = .char32 →
      elementSize = 1)
    (done : packAs dtl typeCode elementSize s arrayLength dynamicSizeType = .ok () s') :
    Progress s s' := by
  obtain ⟨_, s₁, prepared, done⟩ := Result.bind_eq_ok.mp done
  obtain ⟨inside, rfl⟩ := prepareForBufferWrite_ok prepared
  obtain ⟨_, s₂, prepared, done⟩ := Result.bind_eq_ok.mp done
  have typed : Sized { s with
      buffer := { s.buffer with next := s.cursor, paddedNext := none },
      state := { s.state with typeCode := typeCode, elementSize := elementSize } } := by
    intro st mem
    rcases List.mem_cons.mp mem with rfl | mem
    · exact sized s.state List.mem_cons_self
    · exact sized st (List.mem_cons_of_mem _ mem)
  obtain ⟨sized₂, next, bytes, type, size, padded⟩ := prepareForArray_ok fits typed rfl prepared
  have packed := packed_packValue sized₂ (by
    intro isChar
    rw [size]
    apply element
    simp only [WriteState.isCharType, type] at isChar
    cases typeCode <;> first | contradiction | simp) done
  have length := packed.length
  rw [bytes] at length
  refine ⟨length, packed.sized, ?_⟩
  simp only at next padded
  rcases padded with none | ⟨position, some, further⟩
  · have cursor' : s'.cursor = s'.buffer.next := by rw [cursor, packed.padded, none, Option.getD_none]
    rw [cursor']
    rcases packed.advance with further | ⟨same, unarmed⟩
    · exact .inl ⟨by omega, inside⟩
    · exact .inr ⟨by omega, fun armed => absurd armed unarmed⟩
  · have cursor' : s'.cursor = position := by rw [cursor, packed.padded, some, Option.getD_some]
    rw [cursor']
    exact .inl ⟨further, inside⟩

/-- The range checks and the record selects write nothing and arm nothing. -/
theorem progress_of_writes {s s' : Serializer} (sized : s.Sized) (writes : Writes s s' 0) :
    Progress s s' := by
  obtain ⟨scalar, check, state⟩ := writes.shape
  refine ⟨writes.length, writes.sized sized, .inr ⟨?_, ?_⟩⟩
  · rw [cursor, cursor, writes.padded, writes.next, Nat.add_zero]
  · rintro ⟨⟨av, value⟩, positive, type⟩
    rw [state] at value positive type
    exact ⟨⟨av, value⟩, positive, type⟩

theorem progress_recordSelect {s s' : Serializer} {key : Bytes} {isLastField : Bool}
    (sized : s.Sized) (done : s.recordSelect key isLastField = .ok () s') : Progress s s' := by
  unfold recordSelect at done
  split at done
  · split at done
    · contradiction
    · cases done
      refine ⟨rfl, ?_, .inr ⟨rfl, ?_⟩⟩
      · intro st mem
        rcases List.mem_cons.mp mem with rfl | mem
        · exact Nat.two_pow_pos 32
        · rcases List.mem_cons.mp mem with rfl | mem
          · exact sized s.state List.mem_cons_self
          · exact sized st (List.mem_cons_of_mem _ mem)
      · rintro ⟨_, positive, _⟩
        exact absurd positive (Nat.lt_irrefl 0)
  · contradiction

/-- At the end of an array nothing changes but the index; before it, the state is armed and
the state of the next record is not. -/
theorem arrayNext_ok {s s' : Serializer} {isLast : Bool} (sized : s.Sized)
    (done : s.arrayNext = .ok isLast s') :
    s'.Sized ∧ s'.buffer = s.buffer ∧ (isLast = true → s'.Armed → s.Armed) ∧
      (isLast = false → s.Armed ∧ ¬s'.Armed) := by
  unfold arrayNext at done
  split at done
  next av value =>
    split at done
    next positive =>
      simp only at done
      split at done
      · cases done
        refine ⟨?_, rfl, fun _ armed => armed, nofun⟩
        intro st mem
        rcases List.mem_cons.mp mem with rfl | mem
        · exact sized s.state List.mem_cons_self
        · exact sized st (List.mem_cons_of_mem _ mem)
      split at done
      next isRecord =>
        split at done
        · contradiction
        · cases done
          refine ⟨?_, rfl, nofun, fun _ => ⟨⟨⟨av, value⟩, positive, isRecord⟩, ?_⟩⟩
          · intro st mem
            rcases List.mem_cons.mp mem with rfl | mem
            · exact Nat.two_pow_pos 32
            · rcases List.mem_cons.mp mem with rfl | mem
              · exact sized s.state List.mem_cons_self
              · exact sized st (List.mem_cons_of_mem _ mem)
          · rintro ⟨_, positive, _⟩
            exact absurd positive (Nat.lt_irrefl 0)
      · contradiction
    · contradiction
  · contradiction

end Serializer

end Apx
