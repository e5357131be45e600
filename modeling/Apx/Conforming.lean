import Apx.ValueLayout

/-! The values of a data element, and when two of them are the same. -/

namespace Apx

open LittleEndian Vm

/-- The same value: scalars by their numbers, hashes by their entries -/
inductive Dv.Same : Dv → Dv → Prop where
  | null : Same .null .null
  | scalar {sv sv' : Sv} (same : sv'.Eqv sv) : Same (.scalar sv) (.scalar sv')
  | array {av av' : List Dv} (each : List.Forall₂ Same av av') : Same (.array av) (.array av')
  | hash {hv hv' : List (Bytes × Dv)} (each : ∀ key, Option.Rel Same (Hash.get hv key) (Hash.get hv' key)) :
      Same (.hash hv) (.hash hv')

/-- A value of an element without children: numbers of its type, a string or a byte array, with as many elements
as it has, or up to as many where it is dynamic. -/
inductive LeafValue (code : LeafCode) (arrayLength : Nat) (isDynamic : Bool) : Dv → Prop where
  | numbers {value : Dv} {xs : List Int} (isNumber : code.isNumber = true)
      (numbers : LeafNumbers code arrayLength isDynamic value xs) (inRange : ∀ x ∈ xs, code.InRange x) :
      LeafValue code arrayLength isDynamic value
  | string {text : Bytes} (isText : code = .char ∨ code = .char8) (positive : 0 < arrayLength)
      (short : text.length ≤ arrayLength) (ends : isDynamic = false → 0 ∉ text) :
      LeafValue code arrayLength isDynamic (.scalar (.str text))
  | byte (x : Byte) (isByte : code = .byte) (single : arrayLength = 0) :
      LeafValue code arrayLength isDynamic (.scalar (.bytearray [x]))
  | bytes {bytes : Bytes} (isByte : code = .byte) (positive : 0 < arrayLength)
      (length : if isDynamic then bytes.length ≤ arrayLength else bytes.length = arrayLength) :
      LeafValue code arrayLength isDynamic (.scalar (.bytearray bytes))

namespace DataElement

mutual

/-- A value that has all fields of the records, and whose parts are values of the elements without children. A reference
has the values of its type, whatever array suffix it has of its own. -/
def Conforms : DataElement → Dv → Prop
  | .leaf _ code arrayLen isDynamic _, value => LeafValue code arrayLen.toNat isDynamic value
  | .record _ arrayLen _ elements, value =>
      if arrayLen.toNat = 0 then ConformsFields elements value
      else ∃ av, value = .array av ∧ av.length = arrayLen.toNat ∧ ∀ v ∈ av, ConformsFields elements v
  | .refPtr _ _ _ target, value => Conforms target value
  | .refId .., _ => False
  | .refName .., _ => False

def ConformsFields : List DataElement → Dv → Prop
  | [], value => ∃ hv, value = .hash hv
  | child :: rest, value =>
      (∃ hv v, value = .hash hv ∧ Hash.get hv child.nameBytes = some v ∧ Conforms child v) ∧
        ConformsFields rest value

end

def fieldNames (elements : List DataElement) : List Bytes := elements.map nameBytes

def OnlyKeys (names : List Bytes) (value : Dv) : Prop :=
  ∀ hv key, value = .hash hv → Hash.get hv key ≠ none → key ∈ names

mutual

/-- The hashes of the value have no other fields than the records. -/
def Tight : DataElement → Dv → Prop
  | .leaf .., _ => True
  | .record _ arrayLen _ elements, value =>
      if arrayLen.toNat = 0 then OnlyKeys (fieldNames elements) value ∧ TightFields elements value
      else ∀ av, value = .array av → ∀ v ∈ av, OnlyKeys (fieldNames elements) v ∧ TightFields elements v
  | .refPtr _ _ _ target, value => Tight target value
  | .refId .., _ => True
  | .refName .., _ => True

def TightFields : List DataElement → Dv → Prop
  | [], _ => True
  | child :: rest, value => Tight child (value.field child.nameBytes) ∧ TightFields rest value

end

mutual

/-- The value that comes back for another: a record has its fields and no others. -/
def Restores : DataElement → Dv → Dv → Prop
  | .leaf .., value, value' => value.Same value'
  | .record _ arrayLen _ elements, value, value' =>
      if arrayLen.toNat = 0 then ∃ hv', value' = .hash hv' ∧
        ∀ key, RestoresField elements key (value.field key) (Hash.get hv' key)
      else ∃ av av', value = .array av ∧ value' = .array av' ∧ List.Forall₂ (fun v v' => ∃ hv', v' = .hash hv' ∧
        ∀ key, RestoresField elements key (v.field key) (Hash.get hv' key)) av av'
  | .refPtr _ _ _ target, value, value' => Restores target value value'
  | .refId .., _, _ => False
  | .refName .., _, _ => False

/-- What comes back under a key. Where fields have the same name it is the last one. -/
def RestoresField : List DataElement → Bytes → Dv → Option Dv → Prop
  | [], _, _, found => found = none
  | child :: rest, key, v, found =>
      if key ∈ fieldNames rest then RestoresField rest key v found
      else if child.nameBytes = key then ∃ v', found = some v' ∧ Restores child v v'
      else found = none

end

theorem restoresField_absent {elements : List DataElement} {key : Bytes} (absent : key ∉ fieldNames elements)
    (v : Dv) (found : Option Dv) : RestoresField elements key v found ↔ found = none := by
  cases elements with
  | nil => exact Iff.rfl
  | cons child rest =>
    have notFirst : key ≠ child.nameBytes := fun same => absent (same ▸ List.mem_cons_self)
    have notRest : key ∉ fieldNames rest := fun mem => absent (List.mem_cons_of_mem _ mem)
    rw [RestoresField, if_neg notRest, if_neg (Ne.symm notFirst)]

theorem RestoresField.some {elements : List DataElement} {key : Bytes} (named : key ∈ fieldNames elements) {v : Dv}
    {found : Option Dv} (restores : RestoresField elements key v found) :
    ∃ child ∈ elements, child.nameBytes = key ∧ ∃ v', found = some v' ∧ Restores child v v' := by
  induction elements with
  | nil => contradiction
  | cons child rest ih =>
    rw [RestoresField] at restores
    by_cases later : key ∈ fieldNames rest
    · rw [if_pos later] at restores
      obtain ⟨other, mem, same, back⟩ := ih later restores
      exact ⟨other, List.mem_cons_of_mem _ mem, same, back⟩
    · rw [if_neg later] at restores
      have same : child.nameBytes = key := ((List.mem_cons.mp named).resolve_right later).symm
      rw [if_pos same] at restores
      exact ⟨child, List.mem_cons_self, same, restores⟩

theorem ConformsFields.hash {elements : List DataElement} {value : Dv} (conforms : ConformsFields elements value) :
    ∃ hv, value = .hash hv := by
  induction elements with
  | nil => exact conforms
  | cons child rest ih => exact ih conforms.2

theorem ConformsFields.get {elements : List DataElement} {hv : List (Bytes × Dv)}
    (conforms : ConformsFields elements (.hash hv)) :
    ∀ child ∈ elements, ∃ v, Hash.get hv child.nameBytes = some v ∧ Conforms child v := by
  induction elements with
  | nil => nofun
  | cons head tail ih =>
    obtain ⟨⟨_, v, rfl_, get, conformsHead⟩, conformsTail⟩ := conforms
    obtain rfl := Dv.hash.inj rfl_
    exact List.forall_mem_cons.mpr ⟨⟨v, get, conformsHead⟩, ih conformsTail⟩

theorem TightFields.get {elements : List DataElement} {hv : List (Bytes × Dv)}
    (tight : TightFields elements (.hash hv)) {child : DataElement} (mem : child ∈ elements) {v : Dv}
    (get : Hash.get hv child.nameBytes = some v) : Tight child v := by
  induction elements with
  | nil => contradiction
  | cons head tail ih =>
    obtain ⟨tightHead, tightTail⟩ := tight
    rcases List.mem_cons.mp mem with rfl | mem
    · rwa [Dv.field, get, Option.getD_some] at tightHead
    · exact ih tightTail mem

/-- A value without other fields comes back as the same value. -/
theorem Restores.same {e : DataElement} {value value' : Dv} (conforms : e.Conforms value) (tight : e.Tight value)
    (restores : e.Restores value value') : value.Same value' := by
  induction e using tree_induction generalizing value value' with
  | leaf => exact restores
  | refId => exact conforms.elim
  | refName => exact conforms.elim
  | refPtr name arrayLen isDynamic target ih => exact ih conforms tight restores
  | record name arrayLen isDynamic elements ih =>
    have record {v v' : Dv} (conforms : ConformsFields elements v) (only : OnlyKeys (fieldNames elements) v)
        (tight : TightFields elements v)
        (restores : ∃ hv', v' = .hash hv' ∧ ∀ key, RestoresField elements key (v.field key) (Hash.get hv' key)) :
        v.Same v' := by
      obtain ⟨hv, rfl⟩ := conforms.hash
      obtain ⟨hv', rfl, restores⟩ := restores
      refine .hash fun key => ?_
      have back := restores key
      by_cases named : key ∈ fieldNames elements
      · obtain ⟨child, mem, rfl, v', found, restored⟩ := back.some named
        obtain ⟨v, get, conformsChild⟩ := conforms.get child mem
        rw [Dv.field, get, Option.getD_some] at restored
        rw [get, found]
        exact .some (ih child mem conformsChild (tight.get mem get) restored)
      · have empty : Hash.get hv key = none := by
          by_contra some_
          exact named (only hv key rfl some_)
        rw [(restoresField_absent named _ _).mp back, empty]
        exact .none
    rw [Conforms] at conforms
    rw [Tight] at tight
    rw [Restores] at restores
    by_cases single : arrayLen.toNat = 0
    · rw [if_pos single] at conforms tight restores
      exact record conforms tight.1 tight.2 restores
    · rw [if_neg single] at conforms tight restores
      obtain ⟨av, rfl, -, conforms⟩ := conforms
      obtain ⟨_, av', rfl_, rfl, restores⟩ := restores
      obtain rfl := Dv.array.inj rfl_
      have each := (List.forall₂_and_left av av').mpr
        ⟨fun v mem => (⟨conforms v mem, tight av rfl v mem⟩ : ConformsFields elements v ∧ _), restores⟩
      refine .array (each.imp fun v v' both => ?_)
      obtain ⟨⟨conforms, only, tight⟩, restores⟩ := both
      exact record conforms only tight restores

end DataElement

end Apx
