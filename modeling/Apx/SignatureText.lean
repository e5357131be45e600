import Apx.SignatureAccepts
import Mathlib.Data.List.TakeWhile

/-! The text of an element that the signature parser has made, and what the parser makes of that text. -/

namespace Apx

open Bstr

/-! What is left behind a signature is the end of the text. -/

theorem ArraySuffix.suffix {bs : Bstr} {width : Nat} {t rest : Bytes} {n : UInt32} {d : Bool}
    (array : ArraySuffix bs width t n d rest) : rest <:+ t := by
  cases array with
  | absent => exact List.suffix_refl _
  | @fixed s digits s' => exact ⟨ascii '[' :: (s ++ (digits ++ (s' ++ [ascii ']']))), by simp⟩
  | @dynamic s digits s' s'' =>
    exact ⟨ascii '[' :: (s ++ (digits ++ (s' ++ ascii '*' :: (s'' ++ [ascii ']'])))), by simp⟩

theorem LimitsSuffix.suffix {bs : Bstr} {width : Nat} {code : LeafCode} {t rest : Bytes}
    {limits : Option Limits} (limited : LimitsSuffix bs width code t limits rest) : rest <:+ t := by
  cases limited with
  | absent => exact List.suffix_refl _
  | @present s₁ s₂ s₃ s₄ lower upper =>
    exact ⟨ascii '(' :: (s₁ ++ (lower ++ (s₂ ++ ascii ',' :: (s₃ ++ (upper ++ (s₄ ++ [ascii ')'])))))), by simp⟩

theorem suffix_of_quoted (name t : Bytes) : t <:+ quote :: (name ++ quote :: t) :=
  ⟨quote :: (name ++ [quote]), by simp⟩

mutual

theorem Signature.suffix {bs : Bstr} {width : Nat} {t rest : Bytes} {e : DataElement} :
    Signature bs width t e rest → rest <:+ t
  | .leaf _ limited array => (array.suffix.trans limited.suffix).trans (List.suffix_cons _ _)
  | .record fields array => (array.suffix.trans fields.suffix).trans (List.suffix_cons _ _)
  | @Signature.refId _ _ s digits s' _ _ _ _ _ _ _ _ array =>
    array.suffix.trans ⟨ascii 'T' :: ascii '[' :: (s ++ (digits ++ (s' ++ [ascii ']']))), by simp⟩
  | @Signature.refName _ _ s name s' _ _ _ _ _ _ _ array =>
    array.suffix.trans
      ⟨ascii 'T' :: ascii '[' :: (s ++ quote :: (name ++ quote :: (s' ++ [ascii ']']))), by simp⟩

theorem FieldSignatures.suffix {bs : Bstr} {width : Nat} {t rest : Bytes} {elements : List DataElement} :
    FieldSignatures bs width t elements rest → rest <:+ t
  | .last _ signature => ((List.suffix_cons _ _).trans signature.suffix).trans (suffix_of_quoted _ _)
  | .more _ signature fields => (fields.suffix.trans signature.suffix).trans (suffix_of_quoted _ _)

end

/-! Decimal numbers as text -/

theorem toNat_digit {d : Nat} (small : d < 10) : (UInt8.ofNat (48 + d)).toNat - 48 = d := by
  have fits : (48 + d) % 2 ^ 8 = 48 + d := Nat.mod_eq_of_lt (by omega)
  rw [UInt8.toNat_ofNat', fits]
  omega

theorem isDigit_digit {d : Nat} (small : d < 10) : isDigit (UInt8.ofNat (48 + d)) = true := by
  have fits : (48 + d) % 2 ^ 8 = 48 + d := Nat.mod_eq_of_lt (by omega)
  have value : (UInt8.ofNat (48 + d)).toNat = 48 + d := by rw [UInt8.toNat_ofNat', fits]
  rw [isDigit, Bool.and_eq_true, decide_eq_true_eq, decide_eq_true_eq, UInt8.le_iff_toNat_le,
    UInt8.le_iff_toNat_le, value]
  exact ⟨Nat.le_add_right 48 d, by simp; omega⟩

theorem digits_decimal (n : Nat) : Digits (decimal n) := by
  rw [decimal]
  split
  · exact ⟨nofun, by decide +kernel⟩
  · next positive =>
    constructor
    · simpa [Nat.digits_ne_nil_iff_ne_zero] using positive
    · intro b mem
      rw [List.mem_reverse, List.mem_map] at mem
      obtain ⟨d, mem, rfl⟩ := mem
      exact isDigit_digit (Nat.digits_lt_base (by omega) mem)

theorem decimalValue_decimal (n : Nat) : decimalValue (decimal n) = n := by
  rw [decimal]
  split
  · next zero =>
    subst zero
    rfl
  · rw [decimalValue, List.reverse_reverse, List.map_map]
    have same : (Nat.digits 10 n).map ((fun b : Byte => b.toNat - 48) ∘ fun d => UInt8.ofNat (48 + d)) =
        Nat.digits 10 n := by
      conv_rhs => rw [← List.map_id (Nat.digits 10 n)]
      apply List.map_congr_left
      intro d mem
      exact toNat_digit (Nat.digits_lt_base (by omega) mem)
    rw [same, Nat.ofDigits_digits]

theorem signedText_signedDecimal (x : Int) : SignedText (signedDecimal x) x := by
  rw [signedDecimal]
  split
  · next negative =>
    refine .inl ⟨_, rfl, digits_decimal _, ?_⟩
    rw [decimalValue_decimal]
    omega
  · next positive =>
    refine .inr ⟨digits_decimal _, ?_⟩
    rw [decimalValue_decimal]
    omega

theorem decimal_injective {m n : Nat} (same : decimal m = decimal n) : m = n := by
  rw [← decimalValue_decimal m, same, decimalValue_decimal]

/-- A byte that is no digit does not stand in a number. -/
theorem not_mem_decimal {c : Byte} (other : isDigit c = false) (n : Nat) : c ∉ decimal n := by
  intro mem
  have digit := (digits_decimal n).2 c mem
  rw [other] at digit
  contradiction

theorem not_mem_signedDecimal {c : Byte} (other : isDigit c = false) (noMinus : c ≠ ascii '-') (x : Int) :
    c ∉ signedDecimal x := by
  rw [signedDecimal]
  split
  · intro mem
    rcases List.mem_cons.mp mem with same | mem
    · exact noMinus same
    · exact not_mem_decimal other _ mem
  · exact not_mem_decimal other _

theorem CString.eq_of_bytes {s s' : CString} (same : s.bytes = s'.bytes) : s = s' := by
  cases s
  cases s'
  simpa using same

/-- A string that ends at its terminator is read back as it is. -/
theorem CString.ofBytes_bytes (s : CString) : CString.ofBytes s.bytes = s := by
  have whole : s.bytes.takeWhile (fun c => c ≠ 0) = s.bytes := by
    rw [List.takeWhile_eq_self_iff]
    intro c mem
    have other : c ≠ 0 := fun zero => s.noZero (zero ▸ mem)
    simpa using other
  rw [CString.ofBytes]
  simp only [whole]

namespace DataElement

def withName (name : Option CString) : DataElement → DataElement
  | .leaf _ code n d limits => .leaf name code n d limits
  | .record _ n d elements => .record name n d elements
  | .refId _ n d id => .refId name n d id
  | .refName _ n d typeName => .refName name n d typeName
  | .refPtr _ n d target => .refPtr name n d target

/-- The words that limits of a type can be made of: those of 32 bits have no upper half. -/
def LimitWord (code : LeafCode) (word : BitVec 64) : Prop :=
  code.limitable = true ∧ (code ≠ .uint64 ∧ code ≠ .int64 → (word.setWidth 32).setWidth 64 = word)

mutual

/-- The shape of what the parser makes of a signature without references: names are cut at the first zero,
and a dynamic array has a length. -/
def Parsable : DataElement → Prop
  | .leaf _ code n d limits =>
      code ≠ .none ∧ (∀ l ∈ limits, LimitWord code l.lower ∧ LimitWord code l.upper) ∧ (d = true → n ≠ 0)
  | .record _ n d elements => elements ≠ [] ∧ ParsableFields elements ∧ (d = true → n ≠ 0)
  | .refId .. => False
  | .refName .. => False
  | .refPtr .. => False

def ParsableFields : List DataElement → Prop
  | [] => True
  | child :: rest => (∃ name, Closed name ∧ child.getName = some (CString.ofBytes name)) ∧ Parsable child ∧
      ParsableFields rest

end

mutual

/-- Every dynamic array in the tree has a length of at least one. -/
def DynamicPositive : DataElement → Prop
  | .leaf _ _ n d _ => d = true → n ≠ 0
  | .record _ n d elements => (d = true → n ≠ 0) ∧ DynamicPositiveFields elements
  | .refId _ n d _ => d = true → n ≠ 0
  | .refName _ n d _ => d = true → n ≠ 0
  | .refPtr _ n d _ => d = true → n ≠ 0

def DynamicPositiveFields : List DataElement → Prop
  | [] => True
  | child :: rest => DynamicPositive child ∧ DynamicPositiveFields rest

end

mutual

/-- The names of all fields in the tree are of one kind. -/
def NamesAll (Q : CString → Prop) : DataElement → Prop
  | .record _ _ _ elements => NamesAllFields Q elements
  | .leaf .. => True
  | .refId .. => True
  | .refName .. => True
  | .refPtr .. => True

def NamesAllFields (Q : CString → Prop) : List DataElement → Prop
  | [] => True
  | child :: rest => (∀ name ∈ child.getName, Q name) ∧ NamesAll Q child ∧ NamesAllFields Q rest

end

/-- The names of all fields in the tree can stand between quotes. -/
def NamesClosed (e : DataElement) : Prop := e.NamesAll fun name => Closed name.bytes

def NamesClosedFields (elements : List DataElement) : Prop := NamesAllFields (fun name => Closed name.bytes) elements

theorem getName_setName (name : CString) (e : DataElement) : (e.setName name).getName = some name := by
  cases e <;> rfl

theorem withName_setName {name : CString} {e : DataElement} (named : e.getName = some name) :
    (e.withName none).setName name = e := by
  cases e <;> cases named <;> rfl

theorem parsable_setName (name : CString) (e : DataElement) : (e.setName name).Parsable ↔ e.Parsable := by
  cases e <;> rfl

theorem namesClosed_setName (name : CString) (e : DataElement) :
    (e.setName name).NamesClosed ↔ e.NamesClosed := by
  cases e <;> rfl

theorem hasReference_setName (name : CString) (e : DataElement) :
    (e.setName name).HasReference ↔ e.HasReference := by
  cases e <;> rfl

theorem dynamicPositive_setName (name : CString) (e : DataElement) :
    (e.setName name).DynamicPositive ↔ e.DynamicPositive := by
  cases e <;> rfl

def limitText (code : LeafCode) (word : BitVec 64) : Bytes :=
  match code with
  | .uint64 => decimal word.toNat
  | .int64 => signedDecimal word.toInt
  | .int8 | .int16 | .int32 => signedDecimal (word.setWidth 32).toInt
  | _ => decimal (word.setWidth 32).toNat

theorem limitsToString_eq {code : LeafCode} (limitable : code.limitable = true) (limits : Limits) :
    limitsToString code limits = some (limitPair (limitText code limits.lower) (limitText code limits.upper)) := by
  cases code <;> first | rfl | contradiction

/-- The text of a limit is that of a number in the range of its field. -/
theorem limitNumber_limitText {code : LeafCode} {word : BitVec 64} (is : LimitWord code word) :
    LimitNumber 32 code (limitText code word) word := by
  obtain ⟨limitable, narrow⟩ := is
  have unsignedCase (narrow : (word.setWidth 32).setWidth 64 = word) :
      let text := decimal (word.setWidth 32).toNat
      Digits text ∧ decimalValue text < 2 ^ 32 ∧ word = (BitVec.ofNat 32 (decimalValue text)).setWidth 64 := by
    dsimp only
    rw [decimalValue_decimal, BitVec.ofNat_toNat, BitVec.setWidth_eq]
    exact ⟨digits_decimal _, (word.setWidth 32).isLt, narrow.symm⟩
  have signedCase (narrow : (word.setWidth 32).setWidth 64 = word) :
      ∃ x, SignedText (signedDecimal (word.setWidth 32).toInt) x ∧ -2 ^ (32 - 1) ≤ x ∧ x < 2 ^ (32 - 1) ∧
        word = (BitVec.ofInt 32 x).setWidth 64 := by
    refine ⟨_, signedText_signedDecimal _, ?_, ?_, ?_⟩
    · exact BitVec.le_toInt _
    · exact BitVec.toInt_lt
    · rw [BitVec.ofInt_toInt]
      exact narrow.symm
  cases code with
  | byte => exact unsignedCase (narrow ⟨nofun, nofun⟩)
  | uint8 => exact unsignedCase (narrow ⟨nofun, nofun⟩)
  | uint16 => exact unsignedCase (narrow ⟨nofun, nofun⟩)
  | uint32 => exact unsignedCase (narrow ⟨nofun, nofun⟩)
  | int8 => exact signedCase (narrow ⟨nofun, nofun⟩)
  | int16 => exact signedCase (narrow ⟨nofun, nofun⟩)
  | int32 => exact signedCase (narrow ⟨nofun, nofun⟩)
  | uint64 =>
    refine ⟨digits_decimal _, ?_, ?_⟩
    · rw [limitText, decimalValue_decimal]
      exact word.isLt
    · rw [limitText, decimalValue_decimal, BitVec.ofNat_toNat, BitVec.setWidth_eq]
  | int64 =>
    refine ⟨_, signedText_signedDecimal _, ?_, ?_, ?_⟩
    · exact BitVec.le_toInt _
    · exact BitVec.toInt_lt
    · rw [BitVec.ofInt_toInt]
  | _ => contradiction

theorem limitWord_of_limitNumber {width : Nat} {code : LeafCode} {text : Bytes} {word : BitVec 64}
    (number : LimitNumber width code text word) : LimitWord code word := by
  have narrow (x : BitVec 32) : ((x.setWidth 64).setWidth 32).setWidth 64 = x.setWidth 64 := by
    rw [BitVec.setWidth_setWidth_of_le _ (by decide : 32 ≤ 64), BitVec.setWidth_eq]
  have unsignedCase {n : Nat} (same : word = (BitVec.ofNat 32 n).setWidth 64) :
      (word.setWidth 32).setWidth 64 = word := by
    rw [same]
    exact narrow _
  have signedCase {x : Int} (same : word = (BitVec.ofInt 32 x).setWidth 64) :
      (word.setWidth 32).setWidth 64 = word := by
    rw [same]
    exact narrow _
  cases code with
  | byte => exact ⟨rfl, fun _ => unsignedCase number.2.2⟩
  | uint8 => exact ⟨rfl, fun _ => unsignedCase number.2.2⟩
  | uint16 => exact ⟨rfl, fun _ => unsignedCase number.2.2⟩
  | uint32 => exact ⟨rfl, fun _ => unsignedCase number.2.2⟩
  | int8 => exact ⟨rfl, fun _ => signedCase number.choose_spec.2.2.2⟩
  | int16 => exact ⟨rfl, fun _ => signedCase number.choose_spec.2.2.2⟩
  | int32 => exact ⟨rfl, fun _ => signedCase number.choose_spec.2.2.2⟩
  | uint64 => exact ⟨rfl, fun other => absurd rfl other.1⟩
  | int64 => exact ⟨rfl, fun other => absurd rfl other.2⟩
  | _ => exact number.elim

variable {bs : Bstr}

theorem arraySuffix_arrayToString {n : UInt32} {d : Bool} (positive : d = true → n ≠ 0) {rest : Bytes}
    (follow : rest.head? ≠ some (ascii '[')) :
    ArraySuffix bs 32 (arrayToString false n.toNat d ++ rest) n d rest := by
  have fits : decimalValue (decimal n.toNat) < 2 ^ 32 := by
    rw [decimalValue_decimal]
    exact n.toNat_lt
  have same : UInt32.ofNat (decimalValue (decimal n.toNat)) = n := by
    rw [decimalValue_decimal, UInt32.ofNat_toNat]
  by_cases zero : n = 0
  · subst zero
    obtain rfl : d = false := by
      cases d with
      | false => rfl
      | true => exact absurd rfl (positive rfl)
    exact .absent follow
  · have nonzero : n.toNat ≠ 0 := fun h => zero (UInt32.toNat.inj h)
    rw [arrayToString, if_neg nonzero]
    cases d with
    | false =>
      have array := @ArraySuffix.fixed bs 32 [] _ [] rest nofun
        (digits_decimal n.toNat) fits nofun
      rw [same] at array
      simpa using array
    | true =>
      have array := @ArraySuffix.dynamic bs 32 [] _ [] [] rest nofun
        (digits_decimal n.toNat) fits nofun nofun
      rw [same] at array
      simpa using array

theorem limitsSuffix_limitPair {code : LeafCode} {limits : Limits} (lower : LimitWord code limits.lower)
    (upper : LimitWord code limits.upper) (rest : Bytes) :
    LimitsSuffix bs 32 code (limitPair (limitText code limits.lower) (limitText code limits.upper) ++ rest)
      (some limits) rest := by
  have limited := @LimitsSuffix.present bs 32 _ [] [] [] [] _ _ _ _ rest nofun
    (limitNumber_limitText lower) nofun nofun (limitNumber_limitText upper) nofun
  simpa [limitPair] using limited

/-- Behind a text that is complete, neither limits nor an array suffix begin. -/
def NoSuffix (rest : Bytes) : Prop := rest.head? ≠ some (ascii '[') ∧ rest.head? ≠ some (ascii '(')

theorem noSuffix_cons {c : Byte} (rest : Bytes) (array : c ≠ ascii '[') (limits : c ≠ ascii '(') :
    NoSuffix (c :: rest) :=
  ⟨fun same => array (Option.some.inj same), fun same => limits (Option.some.inj same)⟩

theorem fieldsToString_starts {normalized : Bool} {child : DataElement} {more : List DataElement} {text : Bytes}
    (written : fieldsToString normalized (child :: more) = some text) : ∃ tail, text = quote :: tail := by
  rw [fieldsToString] at written
  split at written
  · contradiction
  · split at written
    · contradiction
    · obtain rfl := Option.some.inj written
      exact ⟨_, rfl⟩

theorem limits_follow {normalized : Bool} {n : UInt32} {d : Bool} {rest : Bytes} (follow : NoSuffix rest) :
    (arrayToString normalized n.toNat d ++ rest).head? ≠ some (ascii '(') := by
  rw [arrayToString]
  split
  · exact follow.2
  · split
    · exact nofun
    · exact fun same => absurd (Option.some.inj same) (by decide)

/-- The text of fields: the first name, the text of the first element and those of the others -/
theorem fieldsToString_cons {normalized : Bool} {child : DataElement} {more : List DataElement} {text : Bytes}
    (parsable : ParsableFields (child :: more)) (written : fieldsToString normalized (child :: more) = some text) :
    ∃ (name : CString) (childText moreText : Bytes), child.getName = some name ∧
      child.toString normalized = some childText ∧ fieldsToString normalized more = some moreText ∧
      text = quote :: (name.bytes ++ quote :: (childText ++ moreText)) := by
  obtain ⟨⟨name, -, named⟩, -⟩ := parsable
  rw [fieldsToString] at written
  split at written
  · contradiction
  · next childText writtenChild =>
    split at written
    · contradiction
    · next moreText writtenMore =>
      refine ⟨_, childText, moreText, named, writtenChild, writtenMore, ?_⟩
      rw [← Option.some.inj written, named]
      simp [quoted, quote]

theorem noSuffix_behind {normalized : Bool} {elements : List DataElement} {text : Bytes}
    (written : fieldsToString normalized elements = some text) (rest : Bytes) :
    NoSuffix (text ++ ascii '}' :: rest) := by
  cases elements with
  | nil =>
    obtain rfl := Option.some.inj written
    exact noSuffix_cons rest (by decide) (by decide)
  | cons child more =>
    obtain ⟨tail, rfl⟩ := fieldsToString_starts written
    exact noSuffix_cons _ (by decide) (by decide)

theorem fieldSignatures_fieldsToString {elements : List DataElement} (nonempty : elements ≠ [])
    (each : ∀ child ∈ elements, child.Parsable → child.NamesClosed → ∀ text, child.toString false = some text →
      ∀ rest, NoSuffix rest → Signature bs 32 (text ++ rest) (child.withName none) rest)
    (parsable : ParsableFields elements) (closed : NamesClosedFields elements) {text : Bytes}
    (written : fieldsToString false elements = some text) (rest : Bytes) :
    FieldSignatures bs 32 (text ++ ascii '}' :: rest) elements rest := by
  induction elements generalizing text with
  | nil => exact absurd rfl nonempty
  | cons child more ih =>
    obtain ⟨name, childText, moreText, named, writtenChild, writtenMore, rfl⟩ :=
      fieldsToString_cons parsable written
    obtain ⟨-, parsableChild, parsableMore⟩ := parsable
    obtain ⟨closedName, closedChild, closedMore⟩ := closed
    have closedName := closedName _ named
    have signature := each child List.mem_cons_self parsableChild closedChild _ writtenChild _
      (noSuffix_behind writtenMore rest)
    have back := withName_setName named
    rw [← CString.ofBytes_bytes name] at back
    simp only [List.cons_append, List.append_assoc]
    cases more with
    | nil =>
      obtain rfl := Option.some.inj writtenMore
      have fields := FieldSignatures.last closedName signature
      rw [back] at fields
      exact fields
    | cons next others =>
      have fields := FieldSignatures.more closedName signature
        (ih nofun (fun other mem => each other (List.mem_cons_of_mem _ mem)) parsableMore closedMore writtenMore)
      rw [back] at fields
      exact fields

/-- In front of any text that begins no suffix, the text of an element has a signature that denotes the
element. -/
theorem signature_toString {e : DataElement} (parsable : e.Parsable) (closed : e.NamesClosed) {text : Bytes}
    (written : e.toString false = some text) {rest : Bytes} (follow : NoSuffix rest) :
    Signature bs 32 (text ++ rest) (e.withName none) rest := by
  induction e using tree_induction generalizing text rest with
  | leaf name code n d limits =>
    obtain ⟨known, words, positive⟩ := parsable
    obtain ⟨letter, type⟩ := Option.ne_none_iff_exists'.mp (typeLetter_ne_none known)
    have array := @arraySuffix_arrayToString bs _ _ positive _ follow.1
    rw [toString, type] at written
    cases limits with
    | none =>
      obtain rfl := Option.some.inj written
      exact .leaf type (.absent fun _ => limits_follow follow) array
    | some limits =>
      obtain ⟨lower, upper⟩ := words limits rfl
      simp only [limitsToString_eq lower.1] at written
      obtain rfl := Option.some.inj written
      rw [List.cons_append, List.append_assoc]
      exact .leaf type (limitsSuffix_limitPair lower upper _) array
  | record name n d elements ih =>
    obtain ⟨nonempty, parsable, positive⟩ := parsable
    rw [toString] at written
    split at written
    · contradiction
    · next fieldsText writtenFields =>
      obtain rfl := Option.some.inj written
      have fields := @fieldSignatures_fieldsToString bs _ nonempty
        (fun child mem parsable closed _ written _ follow => ih child mem parsable closed written follow)
        parsable closed _ writtenFields (arrayToString false n.toNat d ++ rest)
      rw [List.cons_append, List.append_assoc, List.cons_append]
      exact .record fields (arraySuffix_arrayToString positive follow.1)
  | refId => exact parsable.elim
  | refName => exact parsable.elim
  | refPtr => exact parsable.elim

mutual

/-- What a signature denotes has the shape that the parser makes. -/
theorem parsable_of_signature {width : Nat} {t rest : Bytes} {e : DataElement} :
    Signature bs width t e rest → ¬e.HasReference → e.DynamicPositive → e.Parsable
  | .leaf type limited _, _, positive => by
    refine ⟨?_, ?_, positive⟩
    · rintro rfl
      cases type
    · intro limits mem
      cases limited with
      | absent => cases mem
      | present rest _ first _ _ second _ =>
        obtain rfl := Option.some.inj mem
        exact ⟨limitWord_of_limitNumber first, limitWord_of_limitNumber second⟩
  | .record fields _, none_, positive => by
    refine ⟨?_, parsableFields_of_signatures fields none_ positive.2, positive.1⟩
    rintro rfl
    cases fields
  | .refId .., none_, _ => absurd trivial none_
  | .refName .., none_, _ => absurd trivial none_

theorem parsableFields_of_signatures {width : Nat} {t rest : Bytes} {elements : List DataElement} :
    FieldSignatures bs width t elements rest → ¬HasReferences elements → DynamicPositiveFields elements →
      ParsableFields elements
  | .last closed signature, none_, positive => by
    rw [HasReferences, not_or, hasReference_setName] at none_
    rw [DynamicPositiveFields, dynamicPositive_setName] at positive
    refine ⟨⟨_, closed, getName_setName _ _⟩, ?_, trivial⟩
    rw [parsable_setName]
    exact parsable_of_signature signature none_.1 positive.1
  | .more closed signature fields, none_, positive => by
    rw [HasReferences, not_or, hasReference_setName] at none_
    rw [DynamicPositiveFields, dynamicPositive_setName] at positive
    refine ⟨⟨_, closed, getName_setName _ _⟩, ?_, parsableFields_of_signatures fields none_.2 positive.2⟩
    rw [parsable_setName]
    exact parsable_of_signature signature none_.1 positive.1

end

/-- A name without a zero is not cut. -/
theorem ofBytes_of_noZero {name : Bytes} (noZero : 0 ∉ name) : (CString.ofBytes name).bytes = name :=
  congrArg CString.bytes (CString.ofBytes_bytes ⟨name, noZero⟩)

theorem closed_of_noZero {name t : Bytes} {e : DataElement} (closed : Closed name)
    (noZero : 0 ∉ quote :: (name ++ quote :: t)) :
    ∀ field ∈ (e.setName (CString.ofBytes name)).getName, Closed field.bytes := by
  intro field mem
  rw [getName_setName] at mem
  obtain rfl := Option.some.inj mem
  rw [ofBytes_of_noZero fun mem => noZero (List.mem_cons_of_mem _ (List.mem_append_left _ mem))]
  exact closed

theorem noZero_behind {name t : Bytes} (noZero : 0 ∉ quote :: (name ++ quote :: t)) : 0 ∉ t :=
  fun mem => noZero (List.mem_cons_of_mem _ (List.mem_append_right _ (List.mem_cons_of_mem _ mem)))

mutual

/-- The names in a text without zeros can stand between quotes. -/
theorem namesClosed_of_noZero {width : Nat} {t rest : Bytes} {e : DataElement} :
    Signature bs width t e rest → 0 ∉ t → e.NamesClosed
  | .leaf .., _ => trivial
  | .record fields _, noZero =>
    namesClosedFields_of_noZero fields fun mem => noZero (List.mem_cons_of_mem _ mem)
  | .refId .., _ => trivial
  | .refName .., _ => trivial

theorem namesClosedFields_of_noZero {width : Nat} {t rest : Bytes} {elements : List DataElement} :
    FieldSignatures bs width t elements rest → 0 ∉ t → NamesClosedFields elements
  | .last closed signature, noZero => by
    refine ⟨closed_of_noZero closed noZero, ?_, trivial⟩
    exact (namesClosed_setName _ _).mpr (namesClosed_of_noZero signature (noZero_behind noZero))
  | .more closed signature fields, noZero => by
    refine ⟨closed_of_noZero closed noZero, ?_, ?_⟩
    · exact (namesClosed_setName _ _).mpr (namesClosed_of_noZero signature (noZero_behind noZero))
    · exact namesClosedFields_of_noZero fields fun mem =>
        noZero_behind noZero (signature.suffix.subset mem)

end

end DataElement

end Apx
