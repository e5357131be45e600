import Apx.ValueLayout
import Apx.PackRun

/-! Packing a whole value: when it succeeds, and what it leaves in the buffer. -/

namespace Apx

open LittleEndian Vm DataElement

/-- Packing ends with this buffer where the condition holds, and fails where it does not. -/
structure PackEnd.Settles (e : PackEnd) (condition : Prop) (b : WriteBuffer) : Prop where
  ok : condition → e = .closed b
  fail : ¬condition → ∃ failure b', e = .failed failure b'

theorem PackEnd.Settles.iff {e : PackEnd} {condition condition' : Prop} {b : WriteBuffer}
    (settles : e.Settles condition b) (same : condition ↔ condition') : e.Settles condition' b :=
  ⟨fun holds => settles.ok (same.mpr holds), fun not => settles.fail fun holds => not (same.mp holds)⟩

/-- Wherever the values of elements without children are packed under a condition, in the bytes of their
piece, whole values are packed where the condition holds in all of them and the pieces fit. -/
theorem settles_packElement {dtl : Dtl} {shape condition : LeafCondition}
    (leaves : ∀ code arrayLen isDynamic limits value b, shape code arrayLen isDynamic limits value → b.Ready →
      arrayLen < 2 ^ 32 →
      (packLeaf dtl code arrayLen isDynamic limits value b).Settles
        (condition code arrayLen isDynamic limits value ∧
          b.Fits (leafPiece code arrayLen isDynamic value).data (leafPiece code arrayLen isDynamic value).reserved)
        (b.put (leafPiece code arrayLen isDynamic value).data (leafPiece code arrayLen isDynamic value).reserved))
    (e : DataElement) (complete : e.Complete) {value : Dv} (shaped : e.Shaped shape value) {b : WriteBuffer}
    (ready : b.Ready) :
    (packElement dtl e value b).Settles
      (e.Each condition value ∧ FitFrom b.bytes.length b.cursor (e.pieces value)) (b.putAll (e.pieces value)) := by
  induction e using tree_induction generalizing value b with
  | leaf name code arrayLen isDynamic limits =>
    have packs := leaves code arrayLen.toNat isDynamic limits value b shaped ready arrayLen.toNat_lt
    rw [packElement]
    constructor
    · rintro ⟨holds, fits, -⟩
      rw [packs.ok ⟨holds, fits⟩]
      rfl
    · intro not
      obtain ⟨failure, b', failed⟩ := packs.fail fun both => not ⟨both.1, both.2, trivial⟩
      exact ⟨failure, b', by rw [failed]⟩
  | refId => exact shaped.elim
  | refName => exact shaped.elim
  | refPtr name arrayLen isDynamic target ih =>
    rw [packElement]
    exact ih complete shaped ready
  | record name arrayLen isDynamic elements ih =>
    obtain ⟨single, shapedFields⟩ := shaped
    obtain ⟨nonempty, completes⟩ := complete
    -- the fields one behind the other, from any buffer
    have fields : ∀ (fields : List DataElement) (hv : List (Bytes × Dv)) (b : WriteBuffer), fields ≠ [] →
        (∀ child ∈ fields, child ∈ elements) → ShapedFields shape fields (.hash hv) → Completes fields → b.Ready →
        (packFields dtl fields hv b).Settles
          (EachField condition fields (.hash hv) ∧ FitFrom b.bytes.length b.cursor (fieldPieces fields (.hash hv)))
          (b.putAll (fieldPieces fields (.hash hv))) := by
      intro fields hv
      induction fields with
      | nil =>
        intro b some_
        contradiction
      | cons child rest ihRest =>
        intro b _ members shaped completes ready
        obtain ⟨⟨hv', v, rfl_, get, shapedChild⟩, shapedRest⟩ := shaped
        obtain rfl := Dv.hash.inj rfl_
        have field : (Dv.hash hv).field child.nameBytes = v := by rw [Dv.field, get, Option.getD_some]
        have first := ih child (members child List.mem_cons_self) completes.2.1 shapedChild ready
        simp only [packFields, get, EachField, fieldPieces, field, fitFrom_append]
        by_cases holds : child.Each condition v ∧ FitFrom b.bytes.length b.cursor (child.pieces v)
        · obtain ⟨ready', length, cursor⟩ := WriteBuffer.putAll_fits ready holds.2
          rw [first.ok holds]
          cases rest with
          | nil =>
            refine ⟨fun _ => ?_, fun not => absurd ⟨⟨holds.1, trivial⟩, holds.2, trivial⟩ not⟩
            rw [fieldPieces, List.append_nil]
            rfl
          | cons next more =>
            have behind := ihRest (b.putAll (child.pieces v)) (List.cons_ne_nil _ _)
              (fun x mem => members x (List.mem_cons_of_mem _ mem)) shapedRest completes.2.2 ready'
            rw [length, cursor, ← WriteBuffer.putAll_append] at behind
            refine behind.iff ?_
            tauto
        · obtain ⟨failure, b', failed⟩ := first.fail holds
          rw [failed]
          refine ⟨fun both => absurd ⟨both.1.1, both.2.1⟩ holds, fun _ => ⟨failure, b', rfl⟩⟩
    obtain ⟨hv, rfl⟩ := ShapedFields.hash shapedFields
    have whole := fields elements hv b.flushed nonempty (fun _ mem => mem) shapedFields completes ready.flushed
    have some_ : fieldPieces elements (.hash hv) ≠ [] :=
      pieces_ne_nil (e := .record name arrayLen isDynamic elements) ⟨nonempty, completes⟩ (.hash hv)
    rw [WriteBuffer.putAll_flushed b some_] at whole
    rw [packElement, WriteBuffer.flush_ready ready]
    simp only [if_pos single]
    exact whole

/-- Where no piece is empty, the first one starts in the buffer. -/
theorem start_of_fitFrom {shape : LeafCondition} (some_ : ∀ code arrayLen isDynamic limits value,
      shape code arrayLen isDynamic limits value → 0 < (leafPiece code arrayLen isDynamic value).data.length)
    {e : DataElement} (complete : e.Complete) {value : Dv} (shaped : e.Shaped shape value) {length start : Nat}
    (fits : FitFrom length start (e.pieces value)) : start < length := by
  induction e using tree_induction generalizing value with
  | leaf name code arrayLen isDynamic limits =>
    have nonempty := some_ _ _ _ _ _ shaped
    obtain ⟨⟨inside, -⟩, -⟩ := fits
    omega
  | refId => exact shaped.elim
  | refName => exact shaped.elim
  | refPtr name arrayLen isDynamic target ih => exact ih complete shaped fits
  | record name arrayLen isDynamic elements ih =>
    obtain ⟨-, shapedFields⟩ := shaped
    obtain ⟨nonempty, completes⟩ := complete
    cases elements with
    | nil => contradiction
    | cons child rest =>
      obtain ⟨⟨hv, v, rfl, get, shapedChild⟩, -⟩ := shapedFields
      have field : (Dv.hash hv).field child.nameBytes = v := by rw [Dv.field, get, Option.getD_some]
      rw [pieces, fieldPieces, field, fitFrom_append] at fits
      exact ih child List.mem_cons_self completes.2.1 shapedChild fits.1

/-- What the calls do with a value whose parts are packed under a condition. -/
theorem Vm.packs_shaped {dtl : Dtl} {shape condition : LeafCondition}
    (leaves : ∀ code arrayLen isDynamic limits value b, shape code arrayLen isDynamic limits value → b.Ready →
      arrayLen < 2 ^ 32 →
      (packLeaf dtl code arrayLen isDynamic limits value b).Settles
        (condition code arrayLen isDynamic limits value ∧
          b.Fits (leafPiece code arrayLen isDynamic value).data (leafPiece code arrayLen isDynamic value).reserved)
        (b.put (leafPiece code arrayLen isDynamic value).data (leafPiece code arrayLen isDynamic value).reserved))
    (some_ : ∀ code arrayLen isDynamic limits value,
      shape code arrayLen isDynamic limits value → 0 < (leafPiece code arrayLen isDynamic value).data.length)
    {e : DataElement} {program : Bytes} (usable : Usable e 0 .pack program) {value : Dv}
    (shaped : e.Shaped shape value) (representable : value.Representable) {vm : Vm}
    (idle : vm.serializer.queuedWriteState = {}) (buffer : Bytes) :
    (e.Each condition value ∧ FitFrom buffer.length 0 (e.pieces value) → ∃ vm',
      Packs dtl vm program buffer value (.ok () vm') ∧
        vm'.serializer.buffer = ({ bytes := buffer } : WriteBuffer).putAll (e.pieces value)) ∧
    (¬(e.Each condition value ∧ FitFrom buffer.length 0 (e.pieces value)) → ∃ failure vm',
      Packs dtl vm program buffer value (.fail failure vm')) := by
  rcases Nat.eq_zero_or_pos buffer.length with empty | nonempty
  · obtain rfl := List.length_eq_zero_iff.mp empty
    obtain ⟨vm₁, fails, -⟩ := @Vm.packs_empty e 0 program dtl usable vm value
    refine ⟨?_, fun _ => ⟨_, vm₁, fails⟩⟩
    rintro ⟨-, fits⟩
    exact absurd (start_of_fitFrom some_ usable.complete shaped fits) (Nat.lt_irrefl 0)
  · obtain ⟨r, packs, returned⟩ := @Vm.packs_element dtl e 0 program usable vm idle buffer nonempty value representable
    have ready : ({ bytes := buffer } : WriteBuffer).Ready := ⟨nonempty, Nat.zero_le _, Nat.zero_le _⟩
    have settles := settles_packElement leaves e usable.complete shaped ready
    constructor
    · intro holds
      rw [settles.ok holds] at returned
      cases r with
      | ok _ vm' => exact ⟨vm', packs, returned.1⟩
      | fail failure vm' => exact returned.elim
    · intro fails
      obtain ⟨failure, b, failed⟩ := settles.fail fails
      rw [failed] at returned
      cases r with
      | ok _ vm' => exact returned.elim
      | fail failure vm' => exact ⟨failure, vm', packs⟩

end Apx
