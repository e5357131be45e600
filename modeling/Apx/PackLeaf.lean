import Apx.SerializerHistory
import Apx.SerializerProgress
import Apx.OperationMachine
import Apx.Denotation

/-! Packing the value of an element without children. How it ends depends on the value and on
the write buffer only. -/

namespace Apx

open LittleEndian Vm

namespace Serializer

/-- How packing a value ends in two like serializers: where it succeeds, the first one closes
the states that the value was the last part of. -/
inductive Closes (stack : List WriteState) : Result Serializer Unit → Result Serializer Unit → Prop where
  | ok {s s' : Serializer} (like : Like stack s s') : Closes stack (.ok () (s.popLoop stack)) (.ok () s')
  | fail {failure : Failure} {s s' : Serializer} (like : Like stack s s') :
      Closes stack (.fail failure s) (.fail failure s')

variable {stack : List WriteState} {s s' : Serializer}

theorem closes_bind {r r' : Result Serializer Unit} {f g : Unit → Serializer → Result Serializer Unit}
    (rel : Result.Rel (Like stack) r r')
    (next : ∀ s s', r = .ok () s → Like stack s s' → Closes stack (f () s) (g () s')) :
    Closes stack (r.bind f) (r'.bind g) := by
  rcases rel.ends with ⟨_, s, s', rfl, rfl, like⟩ | ⟨_, s, s', rfl, rfl, like⟩
  · exact next s s' rfl like
  · exact .fail like

theorem closes_finishPack {written written' : Result Serializer Unit}
    (rel : Result.Rel (Like stack) written written') :
    Closes stack (finishPack true written) (finishPack true written') := by
  rcases rel.ends with ⟨_, s, _, rfl, rfl, rfl, idle, scalar, same, rfl⟩ |
    ⟨_, s, s', rfl, rfl, like⟩
  · simp only [finishPack, Result.bind_ok, if_true, popState, idle, Bool.false_eq_true, if_false]
    exact .ok ⟨rfl, idle, scalar, same, by rw [popLoop, idle]⟩
  · exact .fail like

theorem closes_packValue (like : Like stack s s') (dtl : Dtl) (leaf : s.state.typeCode ≠ .record) :
    Closes stack (s.packValue dtl) (s'.packValue dtl) := by
  have fields : s'.queuedWriteState = s.queuedWriteState ∧
      s'.state.dynamicSizeType = s.state.dynamicSizeType ∧ s'.state.arrayLen = s.state.arrayLen := by
    obtain ⟨_, _, _, _, rfl⟩ := like
    exact ⟨rfl, rfl, rfl⟩
  have kinds {t t' : Serializer} (like : Like stack t t') :
      t'.state.isNumOrBoolType = t.state.isNumOrBoolType ∧ t'.state.isCharType = t.state.isCharType ∧
      t'.state.isBytesType = t.state.isBytesType ∧ t'.state.isRecordType = t.state.isRecordType := by
    obtain ⟨_, _, _, _, rfl⟩ := like
    exact ⟨rfl, rfl, rfl, rfl⟩
  have notRecord {t : Serializer} (leaf : t.state.typeCode ≠ .record) :
      t.state.isRecordType ≠ true := by simpa [WriteState.isRecordType] using leaf
  have prefix_ : Result.Rel (Like stack)
      (if s.state.dynamicSizeType ≠ .none then
        s.writeDynamicValueToBuffer s.state.arrayLen (sizeTypeToSize s.state.dynamicSizeType)
        else .ok () s)
      (if s.state.dynamicSizeType ≠ .none then
        s'.writeDynamicValueToBuffer s.state.arrayLen (sizeTypeToSize s.state.dynamicSizeType)
        else .ok () s') := by
    split
    · exact rel_writeDynamicValueToBuffer like _ _
    · exact .ok like
  rw [packValue, packValue, fields.1, fields.2.1, fields.2.2]
  split
  · exact .fail like
  simp only
  split
  · rw [(kinds like).1, (kinds like).2.2.2, if_neg (notRecord leaf), if_neg (notRecord leaf)]
    split
    · exact closes_finishPack (rel_writeDynamicValueToBuffer like _ _)
    · split
      · exact closes_finishPack (rel_packScalarValue like dtl)
      · exact .fail like
  · refine closes_bind prefix_ fun t t' written like => ?_
    have leaf : t.state.typeCode ≠ .record := by
      split at written
      · obtain ⟨_, _, state⟩ := (writes_writeDynamicValueToBuffer written).2.shape
        rw [state]
        exact leaf
      · cases written
        exact leaf
    rw [(kinds like).1, (kinds like).2.1, (kinds like).2.2.1, (kinds like).2.2.2,
      if_neg (notRecord leaf), if_neg (notRecord leaf)]
    split
    · exact closes_finishPack (rel_packArrayOfScalar like dtl)
    · split
      · exact closes_finishPack (rel_packString like dtl)
      · split
        · exact closes_finishPack (rel_packByteArrayInternal like)
        · exact .fail like

theorem prepareForArray_typeCode {dtl : Dtl} {arrayLength : Nat} {dynamicSizeType : SizeType}
    (done : s.prepareForArray dtl arrayLength dynamicSizeType = .ok () s') :
    s'.state.typeCode = s.state.typeCode := by
  unfold prepareForArray at done
  split at done
  · split at done
    · simp only at done
      obtain ⟨_, s₁, lifted, done⟩ := Result.bind_eq_ok.mp done
      obtain ⟨st, determined, rfl⟩ := Result.lift_eq_ok.mp lifted
      obtain ⟨length, rfl⟩ := determineArrayLengthFromValue_ok determined
      simp only at done
      split at done
      · contradiction
      split at done
      · contradiction
      split at done
      · contradiction
      · cases done
        rfl
    · cases done
      rfl
  · cases done
    rfl

theorem closes_packAs (like : Like stack s s') (dtl : Dtl) {typeCode : TypeCode}
    (leaf : typeCode ≠ .record) (elementSize arrayLength : Nat) (dynamicSizeType : SizeType) :
    Closes stack (packAs dtl typeCode elementSize s arrayLength dynamicSizeType)
      (packAs dtl typeCode elementSize s' arrayLength dynamicSizeType) := by
  refine closes_bind (rel_prepareForBufferWrite like typeCode elementSize) fun t t' done like => ?_
  obtain ⟨_, rfl⟩ := prepareForBufferWrite_ok done
  refine closes_bind (rel_prepareForArray like dtl arrayLength dynamicSizeType)
    fun u u' done like => closes_packValue like dtl ?_
  rw [prepareForArray_typeCode done]
  exact leaf

/-- The data instruction of an element without children -/
theorem closes_packOperation (like : Like stack s s') (dtl : Dtl) (code : LeafCode)
    (arrayLength : Nat) (isDynamic : Bool) :
    Closes stack (packOperation dtl (dataInfo code.typeCode arrayLength isDynamic) s)
      (packOperation dtl (dataInfo code.typeCode arrayLength isDynamic) s') := by
  cases code with
  | none | char16 | char32 => exact .fail like
  | _ => exact closes_packAs like dtl (by decide) _ _ _

theorem rel_limitCheck (like : Like stack s s') (dtl : Dtl) (code : LeafCode) (limits : Limits) :
    Result.Rel (Like stack) ((packEngine dtl).exec (limitCheck code limits) s)
      ((packEngine dtl).exec (limitCheck code limits) s') := by
  have single {typeCode : TypeCode} {inRange : ScalarWord → Bool} (reads : Reads typeCode inRange) :
      Result.Rel (Like stack)
        ((s.checkValueRange dtl typeCode inRange).bind fun _ s => .ok () s)
        ((s'.checkValueRange dtl typeCode inRange).bind fun _ s => .ok () s) :=
    (rel_checkValueRange reads like dtl).bind fun _ _ _ like => .ok like
  cases code with
  | uint8 | uint16 | uint32 | byte => exact single (reads_low fun x => valueInRangeU32 x _ _)
  | int8 | int16 | int32 => exact single (reads_low fun x => valueInRangeI32 x _ _)
  | uint64 => exact single (reads_whole (fun x => valueInRangeU64 x _ _) (.inr rfl))
  | int64 => exact single (reads_whole (fun x => valueInRangeI64 x _ _) (.inl rfl))
  | _ => exact .ok like

theorem closes_leafOperations (like : Like stack s s') (dtl : Dtl) (code : LeafCode)
    (arrayLength : Nat) (isDynamic : Bool) (limits : Option Limits) :
    Closes stack ((packEngine dtl).exec (leafOperations .pack code arrayLength isDynamic limits) s)
      ((packEngine dtl).exec (leafOperations .pack code arrayLength isDynamic limits) s') := by
  have data {s s' : Serializer} (like : Like stack s s') :
      Closes stack
        ((packEngine dtl).exec [.pack (dataInfo code.typeCode arrayLength isDynamic)] s)
        ((packEngine dtl).exec [.pack (dataInfo code.typeCode arrayLength isDynamic)] s') := by
    simp only [Engine.exec, Result.bind_pure]
    exact closes_packOperation like dtl code arrayLength isDynamic
  cases limits with
  | none => exact data like
  | some limits =>
    rw [leafOperations, Engine.exec_append, Engine.exec_append]
    exact closes_bind (rel_limitCheck like dtl code limits) fun _ _ _ like => data like

/-- A serializer that is about to pack a value -/
def fresh (value : Dv) (scalar : ScalarSlot) (stack : List WriteState) (buffer : WriteBuffer) :
    Serializer :=
  { stack := stack, state := { value := value, scalar := scalar }, buffer := buffer }

theorem like_fresh (value : Dv) {scalar scalar' : ScalarSlot} (same : ScalarSlot.Same scalar scalar')
    (stack : List WriteState) (buffer : WriteBuffer) :
    Like stack (fresh value scalar stack buffer) (fresh value scalar' [] buffer) :=
  ⟨rfl, rfl, scalar', same, rfl⟩

end Serializer

/-- What packing a value as an element without children does to a buffer. -/
def packLeaf (dtl : Dtl) (code : LeafCode) (arrayLength : Nat) (isDynamic : Bool)
    (limits : Option Limits) (value : Dv) (buffer : WriteBuffer) : Result WriteBuffer Unit :=
  ((packEngine dtl).exec (leafOperations .pack code arrayLength isDynamic limits)
    (Serializer.fresh value {} [] buffer)).lift Serializer.buffer

end Apx
