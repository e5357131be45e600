import Apx.Finalize
import Apx.PackElement

/-! The init values that apx_dataElement_derive_proper_init_value makes of the parsed ones, and the shape of the
elements that they are for (data_element.c). -/

namespace Apx

/-- A value of an element with an array suffix: an array of items, none when it is dynamic. A length of zero is no
suffix. -/
def ArrayShape (arrayLen : UInt32) (isDynamic : Bool) (item : Dv → Prop) (value : Dv) : Prop :=
  if arrayLen = 0 then item value
  else if isDynamic then value = .array []
  else ∃ av, value = .array av ∧ av.length = arrayLen.toNat ∧ ∀ v ∈ av, item v

def StringFits (code : LeafCode) (arrayLen : UInt32) (value : Dv) : Prop :=
  (code = .char ∨ code = .char8) ∧ ∃ text, value = .scalar (.str text) ∧ text.length ≤ arrayLen.toNat

namespace DataElement

mutual

def InShape : DataElement → Dv → Prop
  | .leaf _ code arrayLen isDynamic _, value =>
      arrayLen ≠ 0 ∧ StringFits code arrayLen value ∨
        ArrayShape arrayLen isDynamic (fun value => value.type = .scalar) value
  | .record _ arrayLen isDynamic elements, value =>
      ArrayShape arrayLen isDynamic
        (fun value => ∃ hv, value = .hash hv ∧ hv.length = elements.length ∧ FieldsInShape elements hv) value
  | .refPtr _ arrayLen isDynamic target, value => ArrayShape arrayLen isDynamic (InShape target) value
  | .refId .., _ => False
  | .refName .., _ => False

def FieldsInShape : List DataElement → List (Bytes × Dv) → Prop
  | [], _ => True
  | child :: rest, hv =>
      (∃ value, Hash.get hv child.nameBytes = some value ∧ InShape child value) ∧ FieldsInShape rest hv

end

/-- The element at the end of a chain of references -/
def resolved : DataElement → DataElement
  | .refPtr _ _ _ target => resolved target
  | e => e

/-- No reference of the chain has an array suffix. -/
def Plain : DataElement → Prop
  | .refPtr _ arrayLen _ target => arrayLen = 0 ∧ Plain target
  | _ => True

/-- An init value that leaves an empty array: the list is empty, or none of its entries is a list as a record
needs one. -/
def Empties (e : DataElement) (parsed : Dv) : Prop :=
  e.isArray ∧ ∃ av, parsed = .array av ∧ (av = [] ∨ e.getTypeCode = .record ∧ ∀ v ∈ av, v.type ≠ .array)

/-- An init value of strings that each fit the element -/
def Strings (count : Nat) : DataElement → Dv → Prop
  | .leaf _ code arrayLen _ _, parsed =>
      ∃ av, parsed = .array av ∧ av.length = count ∧ ∀ v ∈ av, StringFits code arrayLen v
  | _, _ => False

mutual

/-- A parsed init value from which a value of the element's shape is made -/
def Fitting : DataElement → Dv → Prop
  | .leaf _ _ arrayLen _ _, parsed =>
      ∀ text, parsed = .scalar (.str text) → arrayLen ≠ 0 → text.length ≤ arrayLen.toNat
  | .record _ arrayLen isDynamic elements, parsed =>
      if arrayLen = 0 then ∃ av, parsed = .array av ∧ (elements.map nameBytes).Nodup ∧ FittingFields elements av
      else isDynamic ∨ ∃ av, parsed = .array av ∧
        ∀ v ∈ av, ∃ fields, v = .array fields ∧ (elements.map nameBytes).Nodup ∧ FittingFields elements fields
  | .refPtr _ arrayLen isDynamic target, parsed =>
      -- the suffix of a reference in a record has no effect on the value
      if arrayLen = 0 then Fitting target parsed
      else if isDynamic then Empties target.resolved parsed
      else Plain target ∧ Strings arrayLen.toNat target.resolved parsed
  | .refId .., _ => False
  | .refName .., _ => False

def FittingFields : List DataElement → List Dv → Prop
  | child :: children, parsed :: rest => Fitting child parsed ∧ FittingFields children rest
  | _, _ => True

end

end DataElement

namespace DataElement

/-! What is made of a parsed value -/

/-- The ways to a proper init value -/
inductive Made : DataElement → Dv → Dv → Prop
  | scalar {name : Option CString} {code : LeafCode} {arrayLen : UInt32} {isDynamic : Bool} {limits : Option Limits}
      {sv : Sv} (text : arrayLen ≠ 0 → (code = .char ∨ code = .char8) ∧ ∃ text, sv = .str text) :
      Made (.leaf name code arrayLen isDynamic limits) (.scalar sv) (.scalar sv)
  | items {name : Option CString} {code : LeafCode} {arrayLen : UInt32} {isDynamic : Bool} {limits : Option Limits}
      {av : List Dv} (array : arrayLen ≠ 0) (dynamic : isDynamic = true → av = [])
      (fixed : isDynamic = false → u32 av.length = arrayLen.toNat ∧ ∀ v ∈ av, v.type = .scalar) :
      Made (.leaf name code arrayLen isDynamic limits) (.array av) (.array av)
  | hash {name : Option CString} {arrayLen : UInt32} {isDynamic : Bool} {elements : List DataElement} {av : List Dv}
      {hv : List (Bytes × Dv)} (single : arrayLen = 0) (length : elements.length = av.length)
      (derived : deriveHashInitValue elements [] av = .ok hv) :
      Made (.record name arrayLen isDynamic elements) (.array av) (.hash hv)
  | empty {name : Option CString} {arrayLen : UInt32} {elements : List DataElement} (array : arrayLen ≠ 0) :
      Made (.record name arrayLen true elements) (.array []) (.array [])
  | records {name : Option CString} {arrayLen : UInt32} {elements : List DataElement} {av derived : List Dv}
      (array : arrayLen ≠ 0) (length : u32 av.length = arrayLen.toNat)
      (records : deriveRecordInitValues elements av = .ok derived) :
      Made (.record name arrayLen false elements) (.array av) (.array derived)

theorem pos_iff_ne_zero (arrayLen : UInt32) : 0 < arrayLen ↔ arrayLen ≠ 0 := by
  rw [UInt32.lt_iff_toNat_lt, ne_eq, ← UInt32.toNat_inj]
  exact Nat.pos_iff_ne_zero

theorem made_of_derive {e : DataElement} {parsed value : Dv} (derived : deriveProperInitValue e parsed = .ok value) :
    Made e parsed value := by
  cases parsed with
  | null =>
    rw [deriveProperInitValue] at derived
    cases e with
    | leaf name code arrayLen isDynamic limits =>
      rw [otherInitValue] at derived
      split at derived <;> contradiction
    | _ => contradiction
  | hash hv =>
    rw [deriveProperInitValue] at derived
    cases e with
    | leaf name code arrayLen isDynamic limits =>
      rw [otherInitValue] at derived
      split at derived <;> contradiction
    | _ => contradiction
  | scalar sv =>
    unfold deriveProperInitValue at derived
    cases e with
    | leaf name code arrayLen isDynamic limits =>
      dsimp only at derived
      split at derived
      · contradiction
      · split at derived
        · split at derived
          · split at derived
            · next isText =>
              cases derived
              exact .scalar fun _ => ⟨isText, _, rfl⟩
            · contradiction
          · contradiction
        · next single =>
          cases derived
          exact .scalar fun array => absurd ((pos_iff_ne_zero arrayLen).mpr array) single
    | _ => contradiction
  | array av =>
    cases e with
    | leaf name code arrayLen isDynamic limits =>
      rw [deriveProperInitValue] at derived
      split at derived
      · contradiction
      · split at derived
        · next array =>
          split at derived
          · next dynamic =>
            split at derived
            · next nothing =>
              cases derived
              rw [nothing]
              exact .items ((pos_iff_ne_zero arrayLen).mp array) (fun _ => rfl) fun fixed => by
                rw [dynamic] at fixed
                contradiction
            · contradiction
          · next fixed =>
            split at derived
            · contradiction
            · next length =>
              split at derived
              · next scalars =>
                cases derived
                refine .items ((pos_iff_ne_zero arrayLen).mp array) (fun dynamic => absurd dynamic fixed) fun _ =>
                  ⟨(not_not.mp length).symm, ?_⟩
                intro v mem
                exact of_decide_eq_true (List.all_eq_true.mp scalars v mem)
              · contradiction
        · contradiction
    | record name arrayLen isDynamic elements =>
      rw [deriveProperInitValue] at derived
      split at derived
      · next array =>
        split at derived
        · next dynamic =>
          split at derived
          · next nothing =>
            cases derived
            rw [nothing, dynamic]
            exact .empty ((pos_iff_ne_zero arrayLen).mp array)
          · contradiction
        · next fixed =>
          split at derived
          · contradiction
          · next length =>
            split at derived
            · contradiction
            · next records =>
              cases derived
              rw [Bool.not_eq_true] at fixed
              rw [fixed]
              exact .records ((pos_iff_ne_zero arrayLen).mp array) (not_not.mp length) records
      · next single =>
        split at derived
        · contradiction
        · next length =>
          split at derived
          · contradiction
          · next hv =>
            cases derived
            exact .hash (not_not.mp (mt (pos_iff_ne_zero arrayLen).mpr single)) (not_not.mp length) hv
    | _ =>
      rw [deriveProperInitValue] at derived
      · contradiction
      all_goals
        intros
        contradiction

end DataElement

namespace Hash

theorem mem_set_keys (hv : List (Bytes × Dv)) (key other : Bytes) (value : Dv) :
    other ∈ (set hv key value).map Prod.fst ↔ other ∈ hv.map Prod.fst ∨ other = key := by
  induction hv with
  | nil => simp [set]
  | cons entry rest ih =>
    obtain ⟨k, v⟩ := entry
    rw [set]
    split
    · next same =>
      rw [List.map_cons, List.map_cons, List.mem_cons, same]
      tauto
    · rw [List.map_cons, List.map_cons, List.mem_cons, List.mem_cons, ih]
      tauto

theorem nodup_set_keys {hv : List (Bytes × Dv)} (distinct : (hv.map Prod.fst).Nodup) (key : Bytes) (value : Dv) :
    ((set hv key value).map Prod.fst).Nodup := by
  induction hv with
  | nil => exact List.nodup_singleton key
  | cons entry rest ih =>
    obtain ⟨k, v⟩ := entry
    rw [List.map_cons, List.nodup_cons] at distinct
    rw [set]
    split
    · rw [List.map_cons, List.nodup_cons]
      exact distinct
    · next other =>
      rw [List.map_cons, List.nodup_cons, mem_set_keys]
      exact ⟨fun either => either.elim distinct.1 other, ih distinct.2⟩

end Hash

namespace DataElement

theorem deriveHashInitValue_nil (hv : List (Bytes × Dv)) (av : List Dv) : deriveHashInitValue [] hv av = .ok hv := by
  rw [deriveHashInitValue]
  intro _ _ _ _ some
  cases some

theorem deriveHashInitValue_cons {child : DataElement} {children : List DataElement} {hv hv' : List (Bytes × Dv)}
    {parsed : Dv} {rest : List Dv}
    (derived : deriveHashInitValue (child :: children) hv (parsed :: rest) = .ok hv') :
    ∃ element value, child.deriveDataElement = .ok element ∧ deriveProperInitValue element parsed = .ok value ∧
      deriveHashInitValue children (Hash.set hv child.nameBytes value) rest = .ok hv' := by
  rw [deriveHashInitValue] at derived
  split at derived
  · contradiction
  · next name named =>
    split at derived
    · contradiction
    · next element resolves =>
      split at derived
      · contradiction
      · next value made =>
        refine ⟨element, value, resolves, made, ?_⟩
        rw [nameBytes, named]
        exact derived

/-- The keys are the names of the fields, each one once. -/
theorem deriveHashInitValue_keys {elements : List DataElement} {hv hv' : List (Bytes × Dv)} {av : List Dv}
    (length : elements.length = av.length) (derived : deriveHashInitValue elements hv av = .ok hv')
    (distinct : (hv.map Prod.fst).Nodup) :
    (hv'.map Prod.fst).Nodup ∧
      ∀ key, key ∈ hv'.map Prod.fst ↔ key ∈ hv.map Prod.fst ∨ key ∈ elements.map nameBytes := by
  induction elements generalizing hv av with
  | nil =>
    rw [deriveHashInitValue_nil] at derived
    cases derived
    exact ⟨distinct, fun key => (or_iff_left List.not_mem_nil).symm⟩
  | cons child children ih =>
    cases av with
    | nil => contradiction
    | cons parsed rest =>
      obtain ⟨element, value, -, -, later⟩ := deriveHashInitValue_cons derived
      obtain ⟨nodup, keys⟩ := ih (Nat.succ.inj length) later (Hash.nodup_set_keys distinct _ value)
      refine ⟨nodup, fun key => ?_⟩
      rw [keys, Hash.mem_set_keys, List.map_cons, List.mem_cons, or_assoc]

theorem deriveHashInitValue_other {elements : List DataElement} {hv hv' : List (Bytes × Dv)} {av : List Dv}
    (length : elements.length = av.length) (derived : deriveHashInitValue elements hv av = .ok hv') {key : Bytes}
    (other : key ∉ elements.map nameBytes) : Hash.get hv' key = Hash.get hv key := by
  induction elements generalizing hv av with
  | nil =>
    rw [deriveHashInitValue_nil] at derived
    cases derived
    rfl
  | cons child children ih =>
    cases av with
    | nil => contradiction
    | cons parsed rest =>
      obtain ⟨element, value, -, -, later⟩ := deriveHashInitValue_cons derived
      rw [List.map_cons, List.mem_cons, not_or] at other
      rw [ih (Nat.succ.inj length) later other.2, Hash.get_set_other _ _ other.1]

/-- Each field has its own entry exactly when no two have one name. -/
theorem deriveHashInitValue_length {elements : List DataElement} {hv : List (Bytes × Dv)} {av : List Dv}
    (length : elements.length = av.length) (derived : deriveHashInitValue elements [] av = .ok hv) :
    hv.length = elements.length ↔ (elements.map nameBytes).Nodup := by
  obtain ⟨distinct, keys⟩ := deriveHashInitValue_keys length derived List.nodup_nil
  have same : (hv.map Prod.fst).Perm (elements.map nameBytes).dedup := by
    rw [List.perm_ext_iff_of_nodup distinct (List.nodup_dedup _)]
    intro key
    rw [keys, List.mem_dedup]
    exact or_iff_right List.not_mem_nil
  have count := same.length_eq
  rw [List.length_map] at count
  rw [count]
  constructor
  · intro all
    have whole := (List.dedup_sublist (elements.map nameBytes)).eq_of_length (by rw [all, List.length_map])
    exact List.dedup_eq_self.mp whole
  · intro nodup
    rw [List.dedup_eq_self.mpr nodup, List.length_map]

/-! References -/

theorem resolved_of_follow {count : Nat} {e element : DataElement} (follows : followReferences count e = .ok element) :
    e.resolved = element := by
  induction e using tree_induction generalizing count with
  | leaf => exact Except.ok.inj follows
  | record => exact Except.ok.inj follows
  | refId => contradiction
  | refName => contradiction
  | refPtr name arrayLen isDynamic target ih =>
    rw [followReferences] at follows
    split at follows
    · exact ih follows
    · contradiction

theorem resolved_of_derive {e element : DataElement} (derives : e.deriveDataElement = .ok element) :
    e.resolved = element := by
  cases e with
  | leaf => exact Except.ok.inj derives
  | record => exact Except.ok.inj derives
  | refId => contradiction
  | refName => contradiction
  | refPtr name arrayLen isDynamic target => exact @resolved_of_follow 0 target element derives

theorem shaped_of_plain {e : DataElement} (plain : e.Plain) (value : Dv) : InShape e value ↔ InShape e.resolved value := by
  induction e using tree_induction with
  | refPtr name arrayLen isDynamic target ih =>
    rw [InShape, ArrayShape, if_pos plain.1]
    exact ih plain.2
  | _ => exact Iff.rfl

/-- Only an array has the shape of a reference with a suffix. -/
theorem plain_of_shaped {e : DataElement} {value : Dv} (shaped : InShape e value) (other : value.type ≠ .array) :
    e.Plain := by
  induction e using tree_induction with
  | refPtr name arrayLen isDynamic target ih =>
    rw [InShape, ArrayShape] at shaped
    by_cases suffix : arrayLen = 0
    · rw [if_pos suffix] at shaped
      exact ⟨suffix, ih shaped⟩
    · rw [if_neg suffix] at shaped
      exfalso
      split at shaped
      · rw [shaped] at other
        exact other rfl
      · obtain ⟨av, rfl, -⟩ := shaped
        exact other rfl
  | _ => trivial

theorem typeCode_ne_record (code : LeafCode) : code.typeCode ≠ .record := by
  cases code <;> exact TypeCode.noConfusion

theorem isArray_iff_ne_zero (e : DataElement) : e.isArray = true ↔ e.arrayLen ≠ 0 := by
  have same : e.getArrayLength = e.arrayLen.toNat := by cases e <;> rfl
  rw [isArray, decide_eq_true_iff, same, gt_iff_lt, Nat.pos_iff_ne_zero, ne_eq, ne_eq, ← UInt32.toNat_inj]
  rfl

/-- What the loop over an array of records makes are hashes, one for each list. -/
theorem deriveRecordInitValues_hashes {elements : List DataElement} {av derived : List Dv}
    (made : deriveRecordInitValues elements av = .ok derived) :
    (∀ v ∈ derived, v.type = .hash) ∧ (derived = [] ↔ ∀ v ∈ av, v.type ≠ .array) := by
  induction av generalizing derived with
  | nil =>
    rw [deriveRecordInitValues] at made
    cases made
    have none (v : Dv) (mem : v ∈ []) : False := absurd mem List.not_mem_nil
    exact ⟨fun v mem => (none v mem).elim, iff_of_true rfl fun v mem => (none v mem).elim⟩
  | cons first rest ih =>
    have passes (other : first.type ≠ .array) (made : deriveRecordInitValues elements rest = .ok derived) :
        (∀ v ∈ derived, v.type = .hash) ∧ (derived = [] ↔ ∀ v ∈ first :: rest, v.type ≠ .array) := by
      rw [List.forall_mem_cons, and_iff_right other]
      exact ih made
    cases first with
    | array fields =>
      rw [deriveRecordInitValues] at made
      split at made
      · contradiction
      · split at made
        · contradiction
        · split at made
          · contradiction
          · next later =>
            cases made
            refine ⟨List.forall_mem_cons.mpr ⟨rfl, (ih later).1⟩, iff_of_false (List.cons_ne_nil _ _) ?_⟩
            intro all
            exact all _ List.mem_cons_self rfl
    | null =>
      rw [deriveRecordInitValues] at made
      · exact passes DvType.noConfusion made
      · intro _ isArray
        cases isArray
    | scalar sv =>
      rw [deriveRecordInitValues] at made
      · exact passes DvType.noConfusion made
      · intro _ isArray
        cases isArray
    | hash hv =>
      rw [deriveRecordInitValues] at made
      · exact passes DvType.noConfusion made
      · intro _ isArray
        cases isArray

theorem Made.empties {e : DataElement} {parsed value : Dv} (made : Made e parsed value) :
    value = .array [] ↔ Empties e parsed := by
  cases made with
  | scalar text => exact iff_of_false Dv.noConfusion fun ⟨_, _, other, _⟩ => Dv.noConfusion other
  | @items name code arrayLen isDynamic limits av array dynamic fixed =>
    constructor
    · intro empty
      exact ⟨(isArray_iff_ne_zero _).mpr array, av, rfl, .inl (Dv.array.inj empty)⟩
    · rintro ⟨-, av', same, either⟩
      obtain rfl := Dv.array.inj same
      rw [either.resolve_right fun both => typeCode_ne_record code both.1]
  | hash single length derived =>
    refine iff_of_false Dv.noConfusion ?_
    rintro ⟨array, -⟩
    exact (isArray_iff_ne_zero _).mp array single
  | empty array => exact iff_of_true rfl ⟨(isArray_iff_ne_zero _).mpr array, [], rfl, .inl rfl⟩
  | @records name arrayLen elements av derived array length records =>
    have hashes := (deriveRecordInitValues_hashes records).2
    rw [Dv.array.injEq, hashes]
    constructor
    · exact fun all => ⟨(isArray_iff_ne_zero _).mpr array, av, rfl, .inr ⟨rfl, all⟩⟩
    · rintro ⟨-, av', same, rfl | ⟨-, all⟩⟩
      · obtain rfl := Dv.array.inj same
        nofun
      · obtain rfl := Dv.array.inj same
        exact all

/-- When the value for the type of a reference with a fixed suffix is an array of so many values of its shape -/
theorem Made.strings {e target : DataElement} {parsed value : Dv} (made : Made e parsed value)
    (resolves : target.resolved = e) {count : Nat} (positive : 0 < count) :
    (∃ av, value = .array av ∧ av.length = count ∧ ∀ v ∈ av, InShape target v) ↔
      target.Plain ∧ Strings count e parsed := by
  cases made with
  | scalar text =>
    refine iff_of_false (fun ⟨_, other, _⟩ => Dv.noConfusion other) fun ⟨_, _, other, _⟩ => Dv.noConfusion other
  | @items name code arrayLen isDynamic limits av array dynamic fixed =>
    have item {v : Dv} (plain : target.Plain) (scalar : v.type = .scalar) :
        InShape target v ↔ StringFits code arrayLen v := by
      rw [shaped_of_plain plain, resolves, InShape, ArrayShape, if_neg array, and_iff_right array]
      refine or_iff_left ?_
      intro other
      split at other
      · rw [other] at scalar
        contradiction
      · obtain ⟨_, rfl, -⟩ := other
        contradiction
    constructor
    · rintro ⟨av', same, length, shaped⟩
      obtain rfl := Dv.array.inj same
      have scalars : ∀ v ∈ av, v.type = .scalar := by
        cases isDynamic with
        | true =>
          rw [dynamic rfl] at length
          rw [← length] at positive
          contradiction
        | false => exact (fixed rfl).2
      obtain ⟨first, mem⟩ := List.exists_mem_of_length_pos (length ▸ positive)
      have plain : target.Plain := by
        refine plain_of_shaped (shaped first mem) ?_
        rw [scalars first mem]
        exact DvType.noConfusion
      exact ⟨plain, av, rfl, length, fun v mem => (item plain (scalars v mem)).mp (shaped v mem)⟩
    · rintro ⟨plain, av', same, length, fits⟩
      obtain rfl := Dv.array.inj same
      refine ⟨av, rfl, length, fun v mem => (item plain ?_).mpr (fits v mem)⟩
      obtain ⟨-, text, rfl, -⟩ := fits v mem
      rfl
  | hash => exact iff_of_false (fun ⟨_, other, _⟩ => Dv.noConfusion other) And.right
  | empty =>
    refine iff_of_false ?_ And.right
    rintro ⟨av, same, length, -⟩
    obtain rfl := Dv.array.inj same
    rw [← length] at positive
    contradiction
  | @records name arrayLen elements av derived array length records =>
    refine iff_of_false ?_ And.right
    rintro ⟨av', same, length, shaped⟩
    obtain rfl := Dv.array.inj same
    obtain ⟨first, mem⟩ := List.exists_mem_of_length_pos (length ▸ positive)
    have isHash := (deriveRecordInitValues_hashes records).1 first mem
    have here := shaped first mem
    have plain : target.Plain := plain_of_shaped here (by rw [isHash]; exact DvType.noConfusion)
    rw [shaped_of_plain plain, resolves, InShape, ArrayShape, if_neg array, if_neg Bool.false_ne_true] at here
    obtain ⟨_, rfl, -⟩ := here
    contradiction

/-- What holds of a type holds of a reference to it. -/
theorem shaped_of_resolved {e target : DataElement} {parsed value : Dv} (made : Made e parsed value)
    (resolves : target.resolved = e) (here : InShape e value ↔ Fitting e parsed) :
    InShape target value ↔ Fitting target parsed := by
  induction target using tree_induction with
  | leaf => rwa [← resolves] at here
  | record => rwa [← resolves] at here
  | refId => exact Iff.rfl
  | refName => exact Iff.rfl
  | refPtr name arrayLen isDynamic target ih =>
    have resolves' : target.resolved = e := resolves
    rw [InShape, ArrayShape, Fitting]
    by_cases suffix : arrayLen = 0
    · rw [if_pos suffix, if_pos suffix]
      exact ih resolves'
    · have positive : 0 < arrayLen.toNat := UInt32.lt_iff_toNat_lt.mp ((pos_iff_ne_zero arrayLen).mpr suffix)
      rw [if_neg suffix, if_neg suffix, resolves']
      split
      · exact made.empties
      · exact made.strings resolves' positive

def HashShape (elements : List DataElement) (value : Dv) : Prop :=
  ∃ hv, value = .hash hv ∧ hv.length = elements.length ∧ FieldsInShape elements hv

def FittingList (elements : List DataElement) (parsed : Dv) : Prop :=
  ∃ fields, parsed = .array fields ∧ (elements.map nameBytes).Nodup ∧ FittingFields elements fields

theorem hashShape_iff {elements : List DataElement} {av : List Dv} {hv : List (Bytes × Dv)}
    (length : elements.length = av.length) (derived : deriveHashInitValue elements [] av = .ok hv)
    (fields : (elements.map nameBytes).Nodup → (FieldsInShape elements hv ↔ FittingFields elements av)) :
    HashShape elements (.hash hv) ↔ FittingList elements (.array av) := by
  have count := deriveHashInitValue_length length derived
  constructor
  · rintro ⟨hv', same, all, shaped⟩
    obtain rfl := Dv.hash.inj same
    have distinct := count.mp all
    exact ⟨av, rfl, distinct, (fields distinct).mp shaped⟩
  · rintro ⟨av', same, distinct, fits⟩
    obtain rfl := Dv.array.inj same
    exact ⟨hv, rfl, count.mpr distinct, (fields distinct).mpr fits⟩

/-- An entry that is no list is passed over. -/
theorem passed_over {elements : List DataElement} {first : Dv} {derived : List Dv} (rest : List Dv)
    (other : ∀ fields, first ≠ .array fields) (fewer : derived.length ≤ rest.length) :
    derived.length ≤ (first :: rest).length ∧
      (derived.length = (first :: rest).length ∧ (∀ v ∈ derived, HashShape elements v) ↔
        ∀ v ∈ first :: rest, FittingList elements v) := by
  rw [List.length_cons]
  refine ⟨Nat.le_succ_of_le fewer, iff_of_false (fun both => ?_) fun all => ?_⟩
  · exact absurd both.1 (by omega)
  · obtain ⟨fields, same, -⟩ := all first List.mem_cons_self
    exact other fields same

mutual

theorem shaped_iff {e : DataElement} : ∀ (parsed : Dv) {value : Dv}, deriveProperInitValue e parsed = .ok value →
    parsed.Representable → (InShape e value ↔ Fitting e parsed)
  | .null, value, derived, _ => by cases made_of_derive derived
  | .hash _, value, derived, _ => by cases made_of_derive derived
  | .scalar sv, value, derived, _ => by
    cases made_of_derive derived with
    | @scalar name code arrayLen isDynamic limits _ needs =>
      rw [InShape, ArrayShape, Fitting]
      by_cases suffix : arrayLen = 0
      · rw [if_pos suffix]
        exact iff_of_true (.inr rfl) fun _ _ array => absurd suffix array
      · rw [if_neg suffix, and_iff_right suffix]
        obtain ⟨isText, text, rfl⟩ := needs suffix
        have other : ¬(if isDynamic = true then Dv.scalar (.str text) = .array []
            else ∃ av, Dv.scalar (.str text) = .array av ∧ av.length = arrayLen.toNat ∧
              ∀ v ∈ av, v.type = .scalar) := by
          split
          · exact Dv.noConfusion
          · exact fun ⟨_, same, _⟩ => Dv.noConfusion same
        rw [or_iff_left other]
        constructor
        · rintro ⟨-, text', same, short⟩ text'' same' -
          cases same
          cases same'
          exact short
        · exact fun fits => ⟨isText, text, rfl, fits text rfl suffix⟩
  | .array av, value, derived, representable => by
    have short : u32 av.length = av.length := by
      cases representable with
      | array short each => exact Nat.mod_eq_of_lt (Nat.lt_trans short (by decide))
    have each : ∀ v ∈ av, v.Representable := by
      cases representable with
      | array short each => exact each
    cases made_of_derive derived with
    | @items name code arrayLen isDynamic limits _ array dynamic fixed =>
      rw [InShape, Fitting]
      refine iff_of_true (.inr ?_) (fun text same => Dv.noConfusion same)
      rw [ArrayShape, if_neg array]
      split
      · next isDyn => rw [dynamic isDyn]
      · next isFixed =>
        rw [Bool.not_eq_true] at isFixed
        obtain ⟨length, scalars⟩ := fixed isFixed
        exact ⟨av, rfl, short.symm.trans length, scalars⟩
    | @hash name arrayLen isDynamic elements _ hv single length derived' =>
      rw [InShape, ArrayShape, Fitting, if_pos single, if_pos single]
      exact hashShape_iff length derived' fun distinct => shapedFields_iff av length derived' each distinct
    | @empty name arrayLen elements array =>
      rw [InShape, ArrayShape, Fitting, if_neg array, if_neg array]
      exact iff_of_true rfl (.inl rfl)
    | @records name arrayLen elements _ made array length records =>
      rw [InShape, ArrayShape, Fitting, if_neg array, if_neg array, if_neg Bool.false_ne_true]
      obtain ⟨-, all⟩ := shapedRecords_iff av records each
      constructor
      · rintro ⟨made', same, count, shaped⟩
        obtain rfl := Dv.array.inj same
        exact .inr ⟨av, rfl, all.mp ⟨by rw [count, ← length, short], shaped⟩⟩
      · rintro (dynamic | ⟨av', same, fits⟩)
        · contradiction
        · obtain rfl := Dv.array.inj same
          obtain ⟨count, shaped⟩ := all.mpr fits
          exact ⟨made, rfl, by rw [count, ← length, short], shaped⟩

theorem shapedRecords_iff {elements : List DataElement} : ∀ (av : List Dv) {derived : List Dv},
    deriveRecordInitValues elements av = .ok derived → (∀ v ∈ av, v.Representable) →
      derived.length ≤ av.length ∧
        (derived.length = av.length ∧ (∀ v ∈ derived, HashShape elements v) ↔ ∀ v ∈ av, FittingList elements v)
  | [], derived, made, _ => by
    rw [deriveRecordInitValues] at made
    cases made
    exact ⟨Nat.le_refl 0, iff_of_true ⟨rfl, nofun⟩ nofun⟩
  | .array fields :: rest, derived, made, representable => by
    rw [List.forall_mem_cons] at representable
    have each : ∀ v ∈ fields, v.Representable := by
      cases representable.1 with
      | array short each => exact each
    rw [deriveRecordInitValues] at made
    split at made
    · contradiction
    · next length =>
      split at made
      · contradiction
      · next hv first =>
        split at made
        · contradiction
        · next more later =>
          cases made
          obtain ⟨fewer, all⟩ := shapedRecords_iff rest later representable.2
          have here := hashShape_iff (not_not.mp length) first fun distinct =>
            shapedFields_iff fields (not_not.mp length) first each distinct
          refine ⟨Nat.succ_le_succ fewer, ?_⟩
          rw [List.forall_mem_cons, List.forall_mem_cons, ← here, ← all, List.length_cons, List.length_cons,
            Nat.add_right_cancel_iff]
          tauto
  | .null :: rest, derived, made, representable => by
    rw [deriveRecordInitValues] at made
    · exact passed_over rest nofun (shapedRecords_iff rest made (List.forall_mem_cons.mp representable).2).1
    · nofun
  | .scalar _ :: rest, derived, made, representable => by
    rw [deriveRecordInitValues] at made
    · exact passed_over rest nofun (shapedRecords_iff rest made (List.forall_mem_cons.mp representable).2).1
    · nofun
  | .hash _ :: rest, derived, made, representable => by
    rw [deriveRecordInitValues] at made
    · exact passed_over rest nofun (shapedRecords_iff rest made (List.forall_mem_cons.mp representable).2).1
    · nofun

theorem shapedFields_iff {elements : List DataElement} {hv : List (Bytes × Dv)} : ∀ (av : List Dv)
    {hv' : List (Bytes × Dv)}, elements.length = av.length → deriveHashInitValue elements hv av = .ok hv' →
      (∀ v ∈ av, v.Representable) → (elements.map nameBytes).Nodup →
        (FieldsInShape elements hv' ↔ FittingFields elements av)
  | [], hv', length, _, _, _ => by
    obtain rfl := List.length_eq_zero_iff.mp length
    exact iff_of_true trivial trivial
  | parsed :: rest, hv', length, derived, representable, distinct => by
    cases elements with
    | nil => contradiction
    | cons child children =>
      rw [List.forall_mem_cons] at representable
      rw [List.map_cons, List.nodup_cons] at distinct
      obtain ⟨element, value, resolves, made, later⟩ := deriveHashInitValue_cons derived
      have first := shaped_of_resolved (made_of_derive made) (resolved_of_derive resolves)
        (shaped_iff parsed made representable.1)
      have others := shapedFields_iff rest (Nat.succ.inj length) later representable.2 distinct.2
      have found : Hash.get hv' child.nameBytes = some value := by
        rw [deriveHashInitValue_other (Nat.succ.inj length) later distinct.1, Hash.get_set_same]
      rw [FieldsInShape, FittingFields, ← first, ← others, found]
      refine and_congr_left fun _ => ⟨?_, fun shaped => ⟨value, rfl, shaped⟩⟩
      rintro ⟨value', same, shaped⟩
      obtain rfl := Option.some.inj same
      exact shaped

end

/-- What is derived has the shape of the element exactly when the parsed value is fitting. -/
theorem deriveProperInitValue_shaped_iff {e : DataElement} {parsed value : Dv}
    (derived : e.deriveProperInitValue parsed = .ok value) (representable : parsed.Representable) :
    InShape e value ↔ Fitting e parsed :=
  shaped_iff parsed derived representable

def countField : DataElement :=
  .leaf (some .a) .uint8 0 false none

/-- Two records of one field, where the second value is no list -/
def looseRecords : Dv :=
  .array [.array [.scalar (.u32 1)], .scalar (.u32 2)]

theorem deriveProperInitValue_shaped_iff_record :
    InShape (.record none 0 false [countField]) (.hash [(countField.nameBytes, .scalar (.u32 1))]) ↔
      Fitting (.record none 0 false [countField]) (.array [.scalar (.u32 1)]) := by
  refine deriveProperInitValue_shaped_iff rfl (.array (by decide) ?_)
  intro v mem
  rw [List.mem_singleton.mp mem]
  exact .scalar _

/-- An array of two records gets the one value that is a list. -/
theorem not_derived_shaped :
    ¬∀ e parsed value, deriveProperInitValue e parsed = .ok value → parsed.Representable → InShape e value := by
  intro all
  have representable : looseRecords.Representable := by
    refine .array (by decide) (List.forall_mem_cons.mpr ⟨.array (by decide) ?_, ?_⟩)
    · exact List.forall_mem_cons.mpr ⟨.scalar _, nofun⟩
    · exact List.forall_mem_cons.mpr ⟨.scalar _, nofun⟩
  have shaped := all (.record none 2 false [countField]) looseRecords
    (.array [.hash [(countField.nameBytes, .scalar (.u32 1))]]) rfl representable
  rw [InShape, ArrayShape, if_neg (by decide), if_neg (by decide)] at shaped
  obtain ⟨av, same, length, -⟩ := shaped
  obtain rfl := Dv.array.inj same
  contradiction

end DataElement

end Apx
