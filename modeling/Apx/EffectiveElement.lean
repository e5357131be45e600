import Apx.PrintParse

/-! Clones of parsed elements, and the effective element behind a chain of references. -/

namespace Apx

open Bstr SignatureParser

variable {bs : Bstr}

namespace DataElement

/-! What a clone loses -/

/-- No byte in the tree has limits other than those of a new element. -/
def NoByteLimits (e : DataElement) : Prop := e.LimitsAll fun code l => code = .byte → l = ⟨0, 0⟩

theorem limitsAll_setName {Q : LeafCode → Limits → Prop} (name : CString) (e : DataElement) :
    (e.setName name).LimitsAll Q ↔ e.LimitsAll Q := by
  cases e <;> rfl

mutual

/-- The limits that the parser reads fill no more than the field of their type. -/
theorem limitWordsAll_of_signature {width : Nat} {t rest : Bytes} {e : DataElement} :
    Signature bs width t e rest → e.LimitWordsAll
  | .leaf _ limited _ => by
    intro limits mem
    cases limited with
    | absent => cases mem
    | present rest _ first _ _ second _ =>
      obtain rfl := Option.some.inj mem
      exact ⟨limitWord_of_limitNumber first, limitWord_of_limitNumber second⟩
  | .record fields _ => limitWordsAllFields_of_signatures fields
  | .refId .. => trivial
  | .refName .. => trivial

theorem limitWordsAllFields_of_signatures {width : Nat} {t rest : Bytes} {elements : List DataElement} :
    FieldSignatures bs width t elements rest →
      LimitsAllFields (fun code l => LimitWord code l.lower ∧ LimitWord code l.upper) elements
  | .last _ signature => by
    refine ⟨?_, trivial⟩
    apply (limitsAll_setName _ _).mpr
    exact limitWordsAll_of_signature signature
  | .more _ signature fields => by
    refine ⟨?_, limitWordsAllFields_of_signatures fields⟩
    apply (limitsAll_setName _ _).mpr
    exact limitWordsAll_of_signature signature

end

theorem withoutByteLimits_eq_self_iff (e : DataElement) : e.withoutByteLimits = e ↔ e.NoByteLimits := by
  induction e using tree_induction with
  | leaf name code n d limits =>
    rw [withoutByteLimits, NoByteLimits, LimitsAll]
    cases limits with
    | none => simp
    | some l =>
      by_cases isByte : code = .byte
      · simp [isByte, eq_comm]
      · simp [isByte]
  | record name n d elements ih =>
    rw [withoutByteLimits, NoByteLimits, LimitsAll, limitsAllFields_iff, withoutByteLimitsFields_eq]
    calc DataElement.record name n d (elements.map withoutByteLimits) = .record name n d elements
        ↔ elements.map withoutByteLimits = elements := by simp
      _ ↔ elements.map withoutByteLimits = elements.map id := by rw [List.map_id]
      _ ↔ ∀ child ∈ elements, child.withoutByteLimits = child := List.map_inj_left
      _ ↔ ∀ child ∈ elements, child.NoByteLimits := forall₂_congr ih
  | refId => exact iff_of_true rfl trivial
  | refName => exact iff_of_true rfl trivial
  | refPtr => exact iff_of_true rfl trivial

/-- A clone of a parsed element is equal to the element exactly when no byte in it has limits to lose. -/
theorem clone_eq_self_iff {t rest : Bytes} {e : DataElement} (accepts : Accepts bs t rest (some e)) :
    e.clone = e ↔ e.NoByteLimits := by
  have words := limitWordsAll_of_signature (accepts_iff_signature.mp accepts)
  rw [clone_of_limitWordsAll words]
  exact withoutByteLimits_eq_self_iff e

def byteUpToSeven : DataElement := .leaf none .byte 0 false (some ⟨1, 7⟩)

theorem accepts_byteUpToSeven :
    Accepts Bstr.asciiLibrary ("B(1,7)".toList.map ascii) [] (some byteUpToSeven) := by
  have one : LimitNumber 64 .byte [ascii '1'] 1 :=
    ⟨⟨List.cons_ne_nil _ _, by decide +kernel⟩, by decide +kernel, by decide⟩
  have seven : LimitNumber 64 .byte [ascii '7'] 7 :=
    ⟨⟨List.cons_ne_nil _ _, by decide +kernel⟩, by decide +kernel, by decide⟩
  have noSpace : Spaces Bstr.asciiLibrary [] := fun b mem => absurd mem List.not_mem_nil
  have limited := @LimitsSuffix.present Bstr.asciiLibrary 64 .byte [] [] [] [] _ _ _ _ [] noSpace one noSpace noSpace
    seven noSpace
  exact accepts_signature (@Signature.leaf Bstr.asciiLibrary 64 (ascii 'B') .byte _ _ _ _ _ _ rfl limited
    (.absent (Option.some_ne_none _).symm))

theorem clone_eq_self_iff_byteUpToSeven :
    byteUpToSeven.clone = byteUpToSeven ↔ byteUpToSeven.NoByteLimits :=
  clone_eq_self_iff accepts_byteUpToSeven

/-- The clone accepts only zero where the element accepts one to seven. -/
theorem clone_byteUpToSeven_ne :
    Accepts Bstr.asciiLibrary ("B(1,7)".toList.map ascii) [] (some byteUpToSeven) ∧
      byteUpToSeven.clone ≠ byteUpToSeven := by
  refine ⟨accepts_byteUpToSeven, ?_⟩
  intro same
  exact absurd (DataElement.leaf.inj same).2.2.2.2 (by decide)

/-! Chains of references -/

/-- An element that is no reference -/
def Concrete : DataElement → Prop
  | .leaf .. => True
  | .record .. => True
  | .refId .. => False
  | .refName .. => False
  | .refPtr .. => False

/-- An array suffix, as the length and the dynamic flag. One that is missing reads as a length of zero, and an
element with that length is not an array. -/
abbrev Suffix := UInt32 × Bool

def suffix (e : DataElement) : Suffix := (e.arrayLen, e.isDynamicArray)

/-- A resolved reference, as far as it is not the type it points to -/
structure Link where
  name : Option CString
  suffix : Suffix

/-- The element of the first link, whose type is the second link, and so on to the element at the end -/
def chain : List Link → DataElement → DataElement
  | [], e => e
  | link :: rest, e => .refPtr link.name link.suffix.1 link.suffix.2 (chain rest e)

/-- The array suffixes along the chain -/
def suffixes (links : List Link) (e : DataElement) : List Suffix :=
  (links.map Link.suffix ++ [e.suffix]).filter fun suffix => suffix.1 ≠ 0

def withSuffix (e : DataElement) : List Suffix → DataElement
  | [] => e
  | (arrayLen, isDynamic) :: _ => e.setArray arrayLen isDynamic

/-- A port whose element is the chain can be flattened exactly when the chain has no more than one array
suffix, and then its effective element is the one at the end, with that suffix. -/
def KeepsDimension (links : List Link) (e : DataElement) : Prop :=
  ((∃ flat, (chain links e).flatten = .ok flat) ↔ (suffixes links e).length ≤ 1) ∧
    ∀ flat, (chain links e).flatten = .ok flat → flat = e.withSuffix (suffixes links e)

theorem isArray_iff (e : DataElement) : e.isArray = true ↔ e.suffix.1 ≠ 0 := by
  rw [← Bool.not_eq_false, isArray_eq_false_iff]
  rfl

theorem suffix_clone (e : DataElement) : e.clone.suffix = e.suffix := by
  cases e <;> rfl

/-- Its own suffix changes nothing. -/
theorem setArray_suffix (e : DataElement) : e.setArray e.suffix.1 e.suffix.2 = e := by
  cases e <;> simp [setArray, suffix, arrayLen, isDynamicArray]

/-- The loop at the end of the chain. Of all links that it has followed, it knows the last. -/
theorem followWithParent_chain {e : DataElement} (concrete : e.Concrete) (links : List Link) (count : Nat)
    (parent : DataElement) (few : count + links.length ≤ maxTypeRefFollowCount) :
    ∃ parent', followWithParent count parent (chain links e) = .ok (e, parent') ∧
      parent'.suffix = (links.map Link.suffix).getLastD parent.suffix := by
  induction links generalizing count parent with
  | nil => cases e <;> first | exact ⟨parent, rfl, rfl⟩ | exact concrete.elim
  | cons link rest ih =>
    rw [List.length_cons] at few
    obtain ⟨parent', follows, last⟩ := ih (count + 1)
      (.refPtr link.name link.suffix.1 link.suffix.2 (chain rest e)) (by omega)
    refine ⟨parent', ?_, ?_⟩
    · rw [chain, followWithParent, if_pos (by omega)]
      exact follows
    · rw [last, List.map_cons, List.getLastD_cons]
      rfl

theorem followWithParent_long (e : DataElement) (links : List Link) (count : Nat) (parent : DataElement)
    (start : count ≤ maxTypeRefFollowCount) (many : maxTypeRefFollowCount < count + links.length) :
    followWithParent count parent (chain links e) = .error (.code .tooManyReferences) := by
  induction links generalizing count parent with
  | nil => exact absurd many (by simpa using start)
  | cons link rest ih =>
    rw [List.length_cons] at many
    rw [chain, followWithParent]
    split
    · next more => exact ih (count + 1) _ more (by omega)
    · rfl

/-- The effective element at the end of the chain, from the suffix of the last link -/
theorem flatten_chain {e : DataElement} (concrete : e.Concrete) (link : Link) (rest : List Link)
    (few : rest.length ≤ maxTypeRefFollowCount) (last : Suffix)
    (isLast : (rest.map Link.suffix).getLastD link.suffix = last) :
    (chain (link :: rest) e).flatten =
      if last.1 ≠ 0 ∧ e.suffix.1 ≠ 0 then .error (.code .parse)
      else if last.1 ≠ 0 then .ok (e.clone.setArray last.1 last.2)
      else .ok e.clone := by
  obtain ⟨parent', follows, suffixEq⟩ := followWithParent_chain concrete rest 0
    (.refPtr link.name link.suffix.1 link.suffix.2 (chain rest e)) (by omega)
  have derives : (chain (link :: rest) e).deriveWithParent = .ok (e, some parent') := by
    simp only [chain, deriveWithParent, follows]
  have isSuffix : parent'.suffix = last := suffixEq.trans isLast
  have parentIsArray : parent'.isArray = true ↔ last.1 ≠ 0 := isSuffix ▸ isArray_iff parent'
  have cloneIsArray : e.clone.isArray = true ↔ e.suffix.1 ≠ 0 := suffix_clone e ▸ isArray_iff e.clone
  rw [flatten, derives]
  simp only [parentIsArray, cloneIsArray, ← isSuffix]
  rfl

theorem flatten_long (e : DataElement) (link : Link) (rest : List Link)
    (many : maxTypeRefFollowCount < rest.length) :
    (chain (link :: rest) e).flatten = .error (.code .tooManyReferences) := by
  have follows := followWithParent_long e rest 0
    (.refPtr link.name link.suffix.1 link.suffix.2 (chain rest e)) (Nat.zero_le _) (by omega)
  have derives : (chain (link :: rest) e).deriveWithParent = .error (.code .tooManyReferences) := by
    simp only [chain, deriveWithParent, follows]
  rw [flatten, derives]

theorem suffixes_of_plain {front : List Link} {last : Link} {e : DataElement}
    (plain : ∀ link ∈ front, link.suffix.1 = 0) :
    suffixes (front ++ [last]) e = [last.suffix, e.suffix].filter fun suffix => suffix.1 ≠ 0 := by
  have none_ : (front.map Link.suffix).filter (fun suffix : Suffix => suffix.1 ≠ 0) = [] := by
    apply List.filter_eq_nil_iff.mpr
    intro suffix mem
    obtain ⟨link, memFront, rfl⟩ := List.mem_map.mp mem
    simp [plain link memFront]
  rw [suffixes, List.map_append, List.append_assoc, List.filter_append, none_]
  rfl

/-- What is made of the suffix of the last link and that of the element at the end -/
theorem joined_iff (last : Suffix) (e : DataElement) (result : Except Failure DataElement)
    (is : result = if last.1 ≠ 0 ∧ e.suffix.1 ≠ 0 then .error (.code .parse)
      else if last.1 ≠ 0 then .ok (e.clone.setArray last.1 last.2)
      else .ok e.clone) :
    ((∃ flat, result = .ok flat) ↔ ([last, e.suffix].filter fun suffix => suffix.1 ≠ 0).length ≤ 1) ∧
      ∀ flat, result = .ok flat →
        flat = e.clone.withSuffix ([last, e.suffix].filter fun suffix => suffix.1 ≠ 0) := by
  by_cases lastIsArray : last.1 = 0
  · by_cases endIsArray : e.suffix.1 = 0
    · rw [if_neg (fun both => both.1 lastIsArray), if_neg (not_not.mpr lastIsArray)] at is
      simp [is, lastIsArray, endIsArray, withSuffix, eq_comm]
    · rw [if_neg (fun both => both.1 lastIsArray), if_neg (not_not.mpr lastIsArray)] at is
      have own := suffix_clone e ▸ setArray_suffix e.clone
      simp [is, lastIsArray, endIsArray, withSuffix, own]
  · by_cases endIsArray : e.suffix.1 = 0
    · rw [if_neg (fun both => both.2 endIsArray), if_pos lastIsArray] at is
      simp [is, lastIsArray, endIsArray, withSuffix, eq_comm]
    · rw [if_pos ⟨lastIsArray, endIsArray⟩] at is
      simp [is, lastIsArray, endIsArray]

/-- Up to 256 links can be followed. Where no link but the last is an array, the effective element is the
clone of the one at the end, with the only suffix of the chain. -/
theorem flatten_keeps_dimension {links : List Link} {e : DataElement} (nonempty : links ≠ [])
    (concrete : e.Concrete) :
    (maxTypeRefFollowCount + 1 < links.length →
      (chain links e).flatten = .error (.code .tooManyReferences)) ∧
    (links.length ≤ maxTypeRefFollowCount + 1 → (∀ link ∈ links.dropLast, link.suffix.1 = 0) →
      ((∃ flat, (chain links e).flatten = .ok flat) ↔ (suffixes links e).length ≤ 1) ∧
        ∀ flat, (chain links e).flatten = .ok flat → flat = e.clone.withSuffix (suffixes links e)) := by
  constructor
  · intro many
    obtain ⟨link, rest, rfl⟩ := List.exists_cons_of_ne_nil nonempty
    rw [List.length_cons] at many
    exact flatten_long e link rest (by omega)
  · intro few plain
    obtain ⟨front, last, ends⟩ := (List.eq_nil_or_concat' links).resolve_left nonempty
    obtain ⟨link, rest, rfl⟩ := List.exists_cons_of_ne_nil nonempty
    have isLast : (rest.map Link.suffix).getLastD link.suffix = last.suffix := by
      rw [← List.getLastD_cons (a := link.suffix), ← List.map_cons, ends, List.map_append]
      exact List.getLastD_concat
    have few : rest.length ≤ maxTypeRefFollowCount := by
      rw [List.length_cons] at few
      omega
    have result := flatten_chain concrete link rest few last.suffix isLast
    rw [ends, List.dropLast_concat] at plain
    rw [ends, suffixes_of_plain plain, ← ends]
    exact joined_iff last.suffix e _ result

theorem flatten_keeps_dimension_two :
    (maxTypeRefFollowCount + 1 < 2 →
      (chain [⟨none, (0, false)⟩, ⟨none, (2, true)⟩] (.leaf none .uint8 0 false none)).flatten =
        .error (.code .tooManyReferences)) ∧
    ((chain [⟨none, (0, false)⟩, ⟨none, (2, true)⟩] (.leaf none .uint8 0 false none)).flatten =
      .ok (.leaf none .uint8 2 true none)) := by
  have nonempty : [Link.mk none (0, false), ⟨none, (2, true)⟩] ≠ [] := nofun
  have concrete : (DataElement.leaf none .uint8 0 false none).Concrete := trivial
  have keeps := flatten_keeps_dimension nonempty concrete
  obtain ⟨succeeds, equal⟩ := keeps.2 (by decide) (by decide)
  obtain ⟨flat, flatten⟩ := succeeds.mpr (by decide)
  refine ⟨keeps.1, ?_⟩
  rw [flatten, equal flat flatten]
  rfl

/-- A chain of 257 references to a C, and the port type T[1][2], where the type T[1] is T[0] and T[0] is C -/
theorem not_keepsDimension :
    ¬KeepsDimension (List.replicate 257 ⟨none, (0, false)⟩) (.leaf none .uint8 0 false none) ∧
      ¬KeepsDimension [⟨none, (2, false)⟩, ⟨none, (0, false)⟩] (.leaf none .uint8 0 false none) := by
  constructor
  · rintro ⟨succeeds, -⟩
    have none_ : (suffixes (List.replicate 257 ⟨none, (0, false)⟩) (.leaf none .uint8 0 false none)).length ≤ 1 := by
      rw [suffixes, List.map_replicate, List.filter_append, List.filter_replicate_of_neg (by decide)]
      exact Nat.zero_le _
    obtain ⟨flat, flatten⟩ := succeeds.mpr none_
    have long := flatten_long (.leaf none .uint8 0 false none) ⟨none, (0, false)⟩
      (List.replicate 256 ⟨none, (0, false)⟩) (by rw [List.length_replicate]; decide)
    rw [← List.replicate_succ, flatten] at long
    cases long
  · rintro ⟨-, equal⟩
    have same := equal (.leaf none .uint8 0 false none) rfl
    exact absurd (DataElement.leaf.inj same).2.2.1 (by decide)

end DataElement

end Apx
