import Apx.SignatureParser

/-! The grammar of data signatures, and which texts the parser accepts. -/

namespace Apx

open Bstr

/-- The array suffix in front of `rest`: none when no bracket opens. Numbers have up to `width` bits. -/
inductive ArraySuffix (bs : Bstr) (width : Nat) : Bytes → UInt32 → Bool → Bytes → Prop where
  | absent {t : Bytes} (closed : t.head? ≠ some (ascii '[')) : ArraySuffix bs width t 0 false t
  | fixed {s digits s' : Bytes} (rest : Bytes) (spaces : Spaces bs s) (number : Digits digits)
      (fits : decimalValue digits < 2 ^ width) (spaces' : Spaces bs s') :
      ArraySuffix bs width (ascii '[' :: (s ++ (digits ++ (s' ++ ascii ']' :: rest))))
        (UInt32.ofNat (decimalValue digits)) false rest
  | dynamic {s digits s' s'' : Bytes} (rest : Bytes) (spaces : Spaces bs s) (number : Digits digits)
      (fits : decimalValue digits < 2 ^ width) (spaces' : Spaces bs s') (spaces'' : Spaces bs s'') :
      ArraySuffix bs width
        (ascii '[' :: (s ++ (digits ++ (s' ++ ascii '*' :: (s'' ++ ascii ']' :: rest)))))
        (UInt32.ofNat (decimalValue digits)) true rest

/-- The text of one limit, and the word that holds it -/
def LimitNumber (width : Nat) (code : LeafCode) (text : Bytes) (word : BitVec 64) : Prop :=
  match code with
  | .byte | .uint8 | .uint16 | .uint32 => Digits text ∧ decimalValue text < 2 ^ width ∧
      word = (BitVec.ofNat 32 (decimalValue text)).setWidth 64
  | .int8 | .int16 | .int32 => ∃ x, SignedText text x ∧ -2 ^ (width - 1) ≤ x ∧ x < 2 ^ (width - 1) ∧
      word = (BitVec.ofInt 32 x).setWidth 64
  | .uint64 => Digits text ∧ decimalValue text < 2 ^ 64 ∧ word = BitVec.ofNat 64 (decimalValue text)
  | .int64 => ∃ x, SignedText text x ∧ -2 ^ 63 ≤ x ∧ x < 2 ^ 63 ∧ word = BitVec.ofInt 64 x
  | _ => False

def LeafCode.limitable : LeafCode → Bool
  | .byte | .uint8 | .uint16 | .uint32 | .uint64 | .int8 | .int16 | .int32 | .int64 => true
  | _ => false

/-- The limits in front of `rest` -/
inductive LimitsSuffix (bs : Bstr) (width : Nat) (code : LeafCode) :
    Bytes → Option Limits → Bytes → Prop where
  | absent {t : Bytes} (closed : code.limitable = true → t.head? ≠ some (ascii '(')) :
      LimitsSuffix bs width code t none t
  | present {s₁ s₂ s₃ s₄ lower upper : Bytes} {low high : BitVec 64} (rest : Bytes)
      (spaces₁ : Spaces bs s₁) (first : LimitNumber width code lower low) (spaces₂ : Spaces bs s₂)
      (spaces₃ : Spaces bs s₃) (second : LimitNumber width code upper high) (spaces₄ : Spaces bs s₄) :
      LimitsSuffix bs width code
        (ascii '(' :: (s₁ ++ (lower ++ (s₂ ++ ascii ',' :: (s₃ ++ (upper ++ (s₄ ++ ascii ')' :: rest)))))))
        (some ⟨low, high⟩) rest

mutual

/-- `Signature bs width t e rest`: in front of `rest`, the text `t` has a data signature that denotes `e`. An
optional part is missing only where its bracket does not open. -/
inductive Signature (bs : Bstr) (width : Nat) : Bytes → DataElement → Bytes → Prop where
  | leaf {letter : Byte} {code : LeafCode} {t t' rest : Bytes} {limits : Option Limits} {n : UInt32} {d : Bool}
      (type : DataElement.typeLetter code = some letter) (limited : LimitsSuffix bs width code t limits t')
      (array : ArraySuffix bs width t' n d rest) :
      Signature bs width (letter :: t) (.leaf none code n d limits) rest
  | record {t t' rest : Bytes} {elements : List DataElement} {n : UInt32} {d : Bool}
      (fields : FieldSignatures bs width t elements t') (array : ArraySuffix bs width t' n d rest) :
      Signature bs width (ascii '{' :: t) (.record none n d elements) rest
  | refId {s digits s' t rest : Bytes} {n : UInt32} {d : Bool} (spaces : Spaces bs s)
      (number : Digits digits) (fits : decimalValue digits < 2 ^ width) (spaces' : Spaces bs s')
      (array : ArraySuffix bs width t n d rest) :
      Signature bs width (ascii 'T' :: ascii '[' :: (s ++ (digits ++ (s' ++ ascii ']' :: t))))
        (.refId none n d (UInt32.ofNat (decimalValue digits))) rest
  | refName {s name s' t rest : Bytes} {n : UInt32} {d : Bool} (spaces : Spaces bs s) (closed : Closed name)
      (spaces' : Spaces bs s') (array : ArraySuffix bs width t n d rest) :
      Signature bs width
        (ascii 'T' :: ascii '[' :: (s ++ quote :: (name ++ quote :: (s' ++ ascii ']' :: t))))
        (.refName none n d (CString.ofBytes name)) rest

/-- One field after the other, up to the brace behind the last one -/
inductive FieldSignatures (bs : Bstr) (width : Nat) : Bytes → List DataElement → Bytes → Prop where
  | last {name t rest : Bytes} {e : DataElement} (closed : Closed name)
      (signature : Signature bs width t e (ascii '}' :: rest)) :
      FieldSignatures bs width (quote :: (name ++ quote :: t)) [e.setName (CString.ofBytes name)] rest
  | more {name t t' rest : Bytes} {e : DataElement} {elements : List DataElement} (closed : Closed name)
      (signature : Signature bs width t e t') (fields : FieldSignatures bs width t' elements rest) :
      FieldSignatures bs width (quote :: (name ++ quote :: t)) (e.setName (CString.ofBytes name) :: elements) rest

end

mutual

/-- The text ends right behind the brace that opens a record. -/
inductive OpenBrace (bs : Bstr) : Bytes → Prop where
  | here : OpenBrace bs [ascii '{']
  | field {t : Bytes} (inner : OpenField bs t) : OpenBrace bs (ascii '{' :: t)

/-- So does the text of a field, behind any number of complete ones. -/
inductive OpenField (bs : Bstr) : Bytes → Prop where
  | here {name t : Bytes} (closed : Closed name) (inner : OpenBrace bs t) :
      OpenField bs (quote :: (name ++ quote :: t))
  | behind {name t t' : Bytes} {e : DataElement} (closed : Closed name) (signature : Signature bs 64 t e t')
      (inner : OpenField bs t') : OpenField bs (quote :: (name ++ quote :: t))

end

namespace Bstr

theorem not_space (bs : Bstr) {c : Byte} (other : c ∉ ([9, 10, 11, 12, 13, 32] : Bytes)) :
    bs.isSpace c = false := by
  cases known : bs.isSpace c with
  | false => rfl
  | true => exact absurd (bs.only c known) other

theorem not_space_of_digit (bs : Bstr) {c : Byte} (digit : isDigit c = true) : bs.isSpace c = false := by
  apply not_space
  intro mem
  simp only [List.mem_cons, List.not_mem_nil, or_false] at mem
  rcases mem with rfl | rfl | rfl | rfl | rfl | rfl <;> exact absurd digit (by decide)

theorem lstrip_cons (bs : Bstr) {s : Bytes} {c : Byte} (rest : Bytes) (spaces : Spaces bs s)
    (plain : bs.isSpace c = false) : lstrip bs (s ++ c :: rest) = c :: rest :=
  lstrip_spaces bs spaces fun _ mem => (Option.some.inj mem) ▸ plain

/-- What bstr_lstrip has taken away in front of a byte -/
theorem lstrip_eq_cons (bs : Bstr) {t rest : Bytes} {c : Byte} (strip : lstrip bs t = c :: rest) :
    ∃ s, Spaces bs s ∧ t = s ++ c :: rest := by
  obtain ⟨s, spaces, same, -⟩ := spaces_lstrip bs t
  exact ⟨s, spaces, by rw [← strip]; exact same⟩

theorem not_digit_of_space (bs : Bstr) {c : Byte} (space : bs.isSpace c = true) : isDigit c = false := by
  cases known : isDigit c with
  | false => rfl
  | true => exact absurd space (by rw [not_space_of_digit bs known]; decide)

/-- A number ends before whitespace and a byte that is no digit. -/
theorem digits_end (bs : Bstr) {s : Bytes} {c : Byte} (rest : Bytes) (spaces : Spaces bs s)
    (other : isDigit c = false) : ∀ b ∈ (s ++ c :: rest).head?, isDigit b = false := by
  intro b mem
  cases s with
  | nil =>
    obtain rfl := Option.some.inj mem
    exact other
  | cons d s =>
    obtain rfl := Option.some.inj mem
    exact not_digit_of_space bs (spaces _ List.mem_cons_self)

end Bstr

theorem parseU32_complete (bs : Bstr) {digits rest : Bytes} (number : Digits digits) (fits : decimalValue digits < 2 ^ 64)
    (ends : ∀ b ∈ rest.head?, isDigit b = false) :
    parseU32 bs (digits ++ rest) = some (BitVec.ofNat 32 (decimalValue digits), rest) := by
  have read : bs.toUnsignedLong (digits ++ rest) = some (decimalValue digits, rest) :=
    (bs.toUnsignedLong_iff _ _ _).mpr ⟨digits, rfl, number, ends, rfl, fits⟩
  rw [parseU32, read]
  rfl

theorem parseU32_sound {bs : Bstr} {t rest : Bytes} {x : BitVec 32} (read : parseU32 bs t = some (x, rest)) :
    ∃ digits, t = digits ++ rest ∧ Digits digits ∧ decimalValue digits < 2 ^ 64 ∧
      x = BitVec.ofNat 32 (decimalValue digits) := by
  obtain ⟨⟨n, rest'⟩, known, same⟩ := Option.map_eq_some_iff.mp read
  cases same
  obtain ⟨digits, rfl, number, -, rfl, fits⟩ := (bs.toUnsignedLong_iff _ _ _).mp known
  exact ⟨digits, rfl, number, fits, rfl⟩

theorem parseI32_complete (bs : Bstr) {text rest : Bytes} {x : Int} (number : SignedText text x) (lower : -2 ^ 63 ≤ x)
    (upper : x < 2 ^ 63) (ends : ∀ b ∈ rest.head?, isDigit b = false) :
    parseI32 bs (text ++ rest) = some (BitVec.ofInt 32 x, rest) := by
  have read : bs.toLong (text ++ rest) = some (x, rest) :=
    (bs.toLong_iff _ _ _).mpr ⟨text, rfl, number, ends, lower, upper⟩
  rw [parseI32, read]
  rfl

/-- What a function for the numbers of limits takes: texts of numbers up to something that is no digit -/
structure Numeral (number : Bytes → Option (BitVec 64 × Bytes)) (is : Bytes → BitVec 64 → Prop) : Prop where
  complete : ∀ {text rest : Bytes} {word : BitVec 64}, is text word →
    (∀ b ∈ rest.head?, isDigit b = false) → number (text ++ rest) = some (word, rest)
  sound : ∀ {t rest : Bytes} {word : BitVec 64}, number t = some (word, rest) →
    ∃ text, t = text ++ rest ∧ is text word
  starts : ∀ {text : Bytes} {word : BitVec 64}, is text word →
    ∃ c rest, text = c :: rest ∧ (isDigit c = true ∨ c = ascii '-')

theorem digits_start {text : Bytes} (number : Digits text) :
    ∃ c rest, text = c :: rest ∧ (isDigit c = true ∨ c = ascii '-') := by
  cases text with
  | nil => exact absurd rfl number.1
  | cons c rest => exact ⟨c, rest, rfl, .inl (number.2 c List.mem_cons_self)⟩

theorem signedText_start {text : Bytes} {x : Int} (number : SignedText text x) :
    ∃ c rest, text = c :: rest ∧ (isDigit c = true ∨ c = ascii '-') := by
  rcases number with ⟨digits, rfl, -⟩ | ⟨digits, -⟩
  · exact ⟨_, _, rfl, .inr rfl⟩
  · exact digits_start digits

theorem numeral_u32 {bs : Bstr} : Numeral (SignatureParser.lowHalf (parseU32 bs)) fun text word =>
    Digits text ∧ decimalValue text < 2 ^ 64 ∧ word = (BitVec.ofNat 32 (decimalValue text)).setWidth 64 where
  complete := by
    rintro text rest word ⟨number, fits, rfl⟩ ends
    rw [SignatureParser.lowHalf, parseU32_complete bs number fits ends]
    rfl
  sound := by
    intro t rest word read
    obtain ⟨⟨x, rest'⟩, known, same⟩ := Option.map_eq_some_iff.mp read
    cases same
    obtain ⟨digits, rfl, number, fits, rfl⟩ := parseU32_sound known
    exact ⟨digits, rfl, number, fits, rfl⟩
  starts := fun is => digits_start is.1

theorem numeral_i32 {bs : Bstr} : Numeral (SignatureParser.lowHalf (parseI32 bs)) fun text word =>
    ∃ x, SignedText text x ∧ -2 ^ 63 ≤ x ∧ x < 2 ^ 63 ∧ word = (BitVec.ofInt 32 x).setWidth 64 where
  complete := by
    rintro text rest word ⟨x, number, lower, upper, rfl⟩ ends
    rw [SignatureParser.lowHalf, parseI32_complete bs number lower upper ends]
    rfl
  sound := by
    intro t rest word read
    obtain ⟨⟨y, rest'⟩, known, same⟩ := Option.map_eq_some_iff.mp read
    cases same
    obtain ⟨⟨x, rest''⟩, known, same⟩ := Option.map_eq_some_iff.mp known
    cases same
    obtain ⟨text, rfl, number, -, lower, upper⟩ := (bs.toLong_iff _ _ _).mp known
    exact ⟨text, rfl, x, number, lower, upper, rfl⟩
  starts := fun ⟨_, number, _⟩ => signedText_start number

theorem numeral_u64 {bs : Bstr} : Numeral (parseU64 bs) fun text word =>
    Digits text ∧ decimalValue text < 2 ^ 64 ∧ word = BitVec.ofNat 64 (decimalValue text) where
  complete := by
    rintro text rest word ⟨number, fits, rfl⟩ ends
    have read : bs.toUnsignedLong (text ++ rest) = some (decimalValue text, rest) :=
      (bs.toUnsignedLong_iff _ _ _).mpr ⟨text, rfl, number, ends, rfl, fits⟩
    rw [parseU64, read]
    rfl
  sound := by
    intro t rest word read
    obtain ⟨⟨n, rest'⟩, known, same⟩ := Option.map_eq_some_iff.mp read
    cases same
    obtain ⟨digits, rfl, number, -, rfl, fits⟩ := (bs.toUnsignedLong_iff _ _ _).mp known
    exact ⟨digits, rfl, number, fits, rfl⟩
  starts := fun is => digits_start is.1

theorem numeral_i64 {bs : Bstr} : Numeral (parseI64 bs) fun text word =>
    ∃ x, SignedText text x ∧ -2 ^ 63 ≤ x ∧ x < 2 ^ 63 ∧ word = BitVec.ofInt 64 x where
  complete := by
    rintro text rest word ⟨x, number, lower, upper, rfl⟩ ends
    have read : bs.toLong (text ++ rest) = some (x, rest) :=
      (bs.toLong_iff _ _ _).mpr ⟨text, rfl, number, ends, lower, upper⟩
    rw [parseI64, read]
    rfl
  sound := by
    intro t rest word read
    obtain ⟨⟨x, rest'⟩, known, same⟩ := Option.map_eq_some_iff.mp read
    cases same
    obtain ⟨text, rfl, number, -, lower, upper⟩ := (bs.toLong_iff _ _ _).mp known
    exact ⟨text, rfl, x, number, lower, upper, rfl⟩
  starts := fun ⟨_, number, _⟩ => signedText_start number

theorem not_space_of_start (bs : Bstr) {c : Byte} (start : isDigit c = true ∨ c = ascii '-') :
    bs.isSpace c = false := by
  rcases start with digit | rfl
  · exact not_space_of_digit bs digit
  · exact not_space bs (by decide)

namespace SignatureParser

variable (bs : Bstr)

theorem parseArray_complete {t rest : Bytes} {n : UInt32} {d : Bool} (array : ArraySuffix bs 64 t n d rest)
    {e : DataElement} (plain : e.arrayLen = 0 ∧ e.isDynamicArray = false) :
    parseArray bs (some e) t = (some (e.setArray n d), some rest) := by
  have same : e.setArray 0 false = e := by
    obtain ⟨len, dynamic⟩ := plain
    cases e <;> simp_all [DataElement.setArray, DataElement.arrayLen, DataElement.isDynamicArray]
  have twice (len : UInt32) : (e.setArrayLength len).setDynamicArray = e.setArray len true := by
    cases e <;> simp [DataElement.setArrayLength, DataElement.setDynamicArray, DataElement.setArray,
      DataElement.arrayLen]
  cases array with
  | absent closed =>
    rw [same]
    cases t with
    | nil => rfl
    | cons c next =>
      have other : c ≠ ascii '[' := fun h => closed (congrArg some h)
      rw [parseArray, if_pos other]
  | @fixed s digits s' rest spaces number fits spaces' =>
    obtain ⟨c, tail, rfl, start⟩ := digits_start number
    have strip := lstrip_cons bs (tail ++ (s' ++ ascii ']' :: rest)) spaces (not_space_of_start bs start)
    have read := parseU32_complete bs number fits (digits_end bs rest spaces' (c := ascii ']') (by decide))
    rw [List.cons_append] at read ⊢
    rw [parseArray, if_neg (not_not.mpr rfl), strip]
    simp only [read, lstrip_cons bs rest spaces' (not_space bs (c := ascii ']') (by decide))]
    rw [if_neg (by decide), if_neg (by decide)]
    rfl
  | @dynamic s digits s' s'' rest spaces number fits spaces' spaces'' =>
    obtain ⟨c, tail, rfl, start⟩ := digits_start number
    have strip := lstrip_cons bs (tail ++ (s' ++ ascii '*' :: (s'' ++ ascii ']' :: rest))) spaces
      (not_space_of_start bs start)
    have read := parseU32_complete bs number fits
      (digits_end bs (s'' ++ ascii ']' :: rest) spaces' (c := ascii '*') (by decide))
    rw [List.cons_append] at read ⊢
    rw [parseArray, if_neg (not_not.mpr rfl), strip]
    simp only [read, lstrip_cons bs _ spaces' (not_space bs (c := ascii '*') (by decide)),
      lstrip_cons bs rest spaces'' (not_space bs (c := ascii ']') (by decide))]
    rw [if_pos trivial, if_neg (by decide), ← twice]
    rfl

theorem parseArray_sound {t rest : Bytes} {element element' : Option DataElement}
    (parses : parseArray bs element t = (element', some rest)) :
    ∃ n d, ArraySuffix bs 64 t n d rest := by
  cases t with
  | nil =>
    cases parses
    exact ⟨0, false, .absent nofun⟩
  | cons c next =>
    rw [parseArray] at parses
    split at parses
    · next other =>
      cases parses
      exact ⟨0, false, .absent fun h => other (Option.some.inj h)⟩
    · next opens =>
      obtain rfl := not_not.mp opens
      split at parses
      · cases parses
      · next b next' strip =>
        obtain ⟨s, spaces, rfl⟩ := lstrip_eq_cons bs strip
        split at parses
        · cases parses
        · next x after read =>
          obtain ⟨digits, same, number, fits, rfl⟩ := parseU32_sound read
          rw [same]
          simp only at parses
          split at parses
          · cases parses
          · next b' next₁ strip₁ =>
            obtain ⟨s', spaces', rfl⟩ := lstrip_eq_cons bs strip₁
            split at parses
            · next star =>
              subst star
              split at parses
              · cases parses
              · next b'' next₂ strip₂ =>
                obtain ⟨s'', spaces'', rfl⟩ := lstrip_eq_cons bs strip₂
                split at parses
                · cases parses
                · next ends =>
                  obtain rfl := not_not.mp ends
                  cases parses
                  exact ⟨_, _, .dynamic _ spaces number fits spaces' spaces''⟩
            · split at parses
              · cases parses
              · next ends =>
                obtain rfl := not_not.mp ends
                cases parses
                exact ⟨_, _, .fixed _ spaces number fits spaces'⟩

/-- A pair of limits in the texts of numbers that the function takes -/
theorem parseLimits_complete {number : Bytes → Option (BitVec 64 × Bytes)} {is : Bytes → BitVec 64 → Prop}
    (numeral : Numeral number is) {s₁ s₂ s₃ s₄ lower upper : Bytes} {low high : BitVec 64} (rest : Bytes)
    (spaces₁ : Spaces bs s₁) (first : is lower low) (spaces₂ : Spaces bs s₂) (spaces₃ : Spaces bs s₃)
    (second : is upper high) (spaces₄ : Spaces bs s₄) (element : Option DataElement) :
    parseLimits bs number element
        (ascii '(' :: (s₁ ++ (lower ++ (s₂ ++ ascii ',' :: (s₃ ++ (upper ++ (s₄ ++ ascii ')' :: rest))))))) =
      (element.map fun e => e.setLimits ⟨low, high⟩, some rest) := by
  obtain ⟨c, tail, rfl, start⟩ := numeral.starts first
  obtain ⟨c', tail', rfl, start'⟩ := numeral.starts second
  have readHigh := numeral.complete second (digits_end bs rest spaces₄ (c := ascii ')') (by decide))
  have readLow := numeral.complete first (digits_end bs
    (s₃ ++ (c' :: tail' ++ (s₄ ++ ascii ')' :: rest))) spaces₂ (c := ascii ',') (by decide))
  have plain := not_space_of_start bs start
  have plain' := not_space_of_start bs start'
  simp only [List.cons_append] at readLow readHigh ⊢
  rw [parseLimits, if_neg (not_not.mpr rfl)]
  simp only [lstrip_cons bs _ spaces₁ plain, readLow,
    lstrip_cons bs _ spaces₂ (not_space bs (c := ascii ',') (by decide)),
    lstrip_cons bs _ spaces₃ plain', readHigh,
    lstrip_cons bs rest spaces₄ (not_space bs (c := ascii ')') (by decide))]
  rw [if_neg (by decide), if_neg (by decide)]

theorem parseLimits_sound {number : Bytes → Option (BitVec 64 × Bytes)} {is : Bytes → BitVec 64 → Prop}
    (numeral : Numeral number is) {t rest : Bytes} {element element' : Option DataElement}
    (parses : parseLimits bs number element t = (element', some rest)) :
    (t.head? ≠ some (ascii '(') ∧ rest = t ∧ element' = element) ∨
    ∃ (s₁ s₂ s₃ s₄ lower upper : Bytes) (low high : BitVec 64),
      t = ascii '(' :: (s₁ ++ (lower ++ (s₂ ++ ascii ',' :: (s₃ ++ (upper ++ (s₄ ++ ascii ')' :: rest)))))) ∧
      Spaces bs s₁ ∧ is lower low ∧ Spaces bs s₂ ∧ Spaces bs s₃ ∧ is upper high ∧ Spaces bs s₄ := by
  cases t with
  | nil =>
    cases parses
    exact .inl ⟨nofun, rfl, rfl⟩
  | cons c next =>
    rw [parseLimits] at parses
    split at parses
    · next other =>
      cases parses
      exact .inl ⟨fun h => other (Option.some.inj h), rfl, rfl⟩
    · next opens =>
      obtain rfl := not_not.mp opens
      right
      split at parses
      · cases parses
      · next b next₁ strip =>
        obtain ⟨s₁, spaces₁, rfl⟩ := lstrip_eq_cons bs strip
        split at parses
        · cases parses
        · next low after read =>
          obtain ⟨lower, same, first⟩ := numeral.sound read
          rw [same]
          split at parses
          · cases parses
          · next b₂ next₂ strip₂ =>
            obtain ⟨s₂, spaces₂, rfl⟩ := lstrip_eq_cons bs strip₂
            split at parses
            · cases parses
            · next comma =>
              obtain rfl := not_not.mp comma
              split at parses
              · cases parses
              · next b₃ next₃ strip₃ =>
                obtain ⟨s₃, spaces₃, rfl⟩ := lstrip_eq_cons bs strip₃
                split at parses
                · cases parses
                · next high after' read' =>
                  obtain ⟨upper, same', second⟩ := numeral.sound read'
                  rw [same']
                  simp only at parses
                  split at parses
                  · cases parses
                  · next b₄ next₄ strip₄ =>
                    obtain ⟨s₄, spaces₄, rfl⟩ := lstrip_eq_cons bs strip₄
                    split at parses
                    · cases parses
                    · next ends =>
                      obtain rfl := not_not.mp ends
                      cases parses
                      exact ⟨s₁, s₂, s₃, s₄, lower, upper, low, high, rfl, spaces₁, first, spaces₂,
                        spaces₃, second, spaces₄⟩

/-- The limits of a type that can have them are those of one of the four functions. -/
theorem parseLimitsOf_limitable {code : LeafCode} (limitable : code.limitable = true) :
    ∃ number, Numeral number (LimitNumber 64 code) ∧
      ∀ element t, parseLimitsOf bs code element t = parseLimits bs number element t := by
  cases code with
  | byte => exact ⟨_, numeral_u32, fun _ _ => rfl⟩
  | uint8 => exact ⟨_, numeral_u32, fun _ _ => rfl⟩
  | uint16 => exact ⟨_, numeral_u32, fun _ _ => rfl⟩
  | uint32 => exact ⟨_, numeral_u32, fun _ _ => rfl⟩
  | uint64 => exact ⟨_, numeral_u64, fun _ _ => rfl⟩
  | int8 => exact ⟨_, numeral_i32, fun _ _ => rfl⟩
  | int16 => exact ⟨_, numeral_i32, fun _ _ => rfl⟩
  | int32 => exact ⟨_, numeral_i32, fun _ _ => rfl⟩
  | int64 => exact ⟨_, numeral_i64, fun _ _ => rfl⟩
  | _ => contradiction

theorem parseLimitsOf_other {code : LeafCode} (other : code.limitable = false) (element : Option DataElement)
    (t : Bytes) : parseLimitsOf bs code element t = (element, some t) := by
  cases code <;> first | rfl | contradiction

theorem parseLimitsOf_complete {code : LeafCode} {t rest : Bytes} {limits : Option Limits}
    (limited : LimitsSuffix bs 64 code t limits rest) (name : Option CString) :
    parseLimitsOf bs code (some (.leaf name code 0 false none)) t =
      (some (.leaf name code 0 false limits), some rest) := by
  cases known : code.limitable with
  | true =>
    obtain ⟨number, numeral, same⟩ := parseLimitsOf_limitable bs known
    rw [same]
    cases limited with
    | absent closed =>
      cases t with
      | nil => rfl
      | cons c next =>
        have other : c ≠ ascii '(' := fun h => closed known (congrArg some h)
        rw [parseLimits, if_pos other]
    | present rest spaces₁ first spaces₂ spaces₃ second spaces₄ =>
      rw [parseLimits_complete bs numeral rest spaces₁ first spaces₂ spaces₃ second spaces₄]
      rfl
  | false =>
    rw [parseLimitsOf_other bs known]
    cases limited with
    | absent => rfl
    | present rest spaces₁ first => cases code <;> contradiction

theorem parseLimitsOf_sound {code : LeafCode} {t rest : Bytes} {element element' : Option DataElement}
    (parses : parseLimitsOf bs code element t = (element', some rest)) :
    ∃ limits, LimitsSuffix bs 64 code t limits rest := by
  cases known : code.limitable with
  | true =>
    obtain ⟨number, numeral, same⟩ := parseLimitsOf_limitable bs known
    rw [same] at parses
    rcases parseLimits_sound bs numeral parses with ⟨closed, rfl, -⟩ |
      ⟨s₁, s₂, s₃, s₄, lower, upper, low, high, rfl, spaces₁, first, spaces₂, spaces₃, second, spaces₄⟩
    · exact ⟨none, .absent fun _ => closed⟩
    · exact ⟨_, .present rest spaces₁ first spaces₂ spaces₃ second spaces₄⟩
  | false =>
    rw [parseLimitsOf_other bs known] at parses
    cases parses
    exact ⟨none, .absent fun limitable => by rw [known] at limitable; contradiction⟩

/-- What stands between the brackets of a reference -/
inductive ReferenceText (width : Nat) : Bytes → (DataElement → DataElement) → Bytes → Prop where
  | id {s digits s' : Bytes} (rest : Bytes) (spaces : Spaces bs s) (number : Digits digits)
      (fits : decimalValue digits < 2 ^ width) (spaces' : Spaces bs s') :
      ReferenceText width (ascii '[' :: (s ++ (digits ++ (s' ++ ascii ']' :: rest))))
        (fun e => e.setTypeRefId (UInt32.ofNat (decimalValue digits))) rest
  | name {s name s' : Bytes} (rest : Bytes) (spaces : Spaces bs s) (closed : Closed name)
      (spaces' : Spaces bs s') :
      ReferenceText width (ascii '[' :: (s ++ quote :: (name ++ quote :: (s' ++ ascii ']' :: rest))))
        (fun e => e.setTypeRefName (CString.ofBytes name)) rest

theorem parseTypeReference_complete {t rest : Bytes} {change : DataElement → DataElement}
    (reference : ReferenceText bs 64 t change rest) (e : DataElement) :
    parseTypeReference bs (some e) t = (some (change e), some rest) := by
  cases reference with
  | @id s digits s' _ spaces number fits spaces' =>
    have read := parseU32_complete bs number fits (digits_end bs rest spaces' (c := ascii ']') (by decide))
    obtain ⟨c, tail, rfl, start⟩ := digits_start number
    have noQuote : c ≠ quote := by
      rintro rfl
      exact absurd start (by decide)
    rw [List.cons_append] at read ⊢
    rw [parseTypeReference, if_neg (not_not.mpr rfl)]
    simp only [lstrip_cons bs _ spaces (not_space_of_start bs start), if_neg noQuote, read,
      lstrip_cons bs rest spaces' (not_space bs (c := ascii ']') (by decide)), Option.map_some]
    rw [if_neg (by decide)]
    rfl
  | @name s name s' _ spaces closed spaces' =>
    have read := (bs.matchPair_iff _ name (s' ++ ascii ']' :: rest)).mpr ⟨rfl, closed⟩
    rw [parseTypeReference, if_neg (not_not.mpr rfl)]
    simp only [lstrip_cons bs _ spaces (not_space bs (c := quote) (by decide)), ↓reduceIte, read,
      lstrip_cons bs rest spaces' (not_space bs (c := ascii ']') (by decide)), Option.map_some]
    rw [if_neg (by decide)]

theorem parseTypeReference_sound {t rest : Bytes} {e : DataElement} {element : Option DataElement}
    (parses : parseTypeReference bs (some e) t = (element, some rest)) (shorter : rest.length < t.length) :
    ∃ change, ReferenceText bs 64 t change rest := by
  cases t with
  | nil => contradiction
  | cons c next =>
    rw [parseTypeReference] at parses
    split at parses
    · cases parses
      omega
    · next opens =>
      obtain rfl := not_not.mp opens
      split at parses
      · cases parses
      · next d after strip =>
        obtain ⟨s, spaces, rfl⟩ := lstrip_eq_cons bs strip
        dsimp only at parses
        split at parses
        · cases parses
        · next element' next' parsed =>
          split at parses
          · cases parses
          · next d' next'' strip' =>
            obtain ⟨s', spaces', rfl⟩ := lstrip_eq_cons bs strip'
            split at parses
            · cases parses
            · next ends =>
              obtain rfl := not_not.mp ends
              cases parses
              split at parsed
              · next isQuote =>
                subst isQuote
                obtain ⟨⟨name, behind⟩, read, same⟩ := Option.map_eq_some_iff.mp parsed
                cases same
                obtain ⟨same, closed⟩ := (bs.matchPair_iff _ _ _).mp read
                rw [same]
                exact ⟨_, .name _ spaces closed spaces'⟩
              · obtain ⟨⟨id, behind⟩, read, same⟩ := Option.map_eq_some_iff.mp parsed
                cases same
                obtain ⟨digits, same, number, fits, -⟩ := parseU32_sound read
                rw [same]
                exact ⟨_, .id _ spaces number fits spaces'⟩

/-- The letters of the parser are those of the texts. -/
theorem tokens_letters : tokens.all (fun entry =>
    match entry.2 with
    | .leaf code => decide (DataElement.typeLetter code = some entry.1)
    | .record => decide (entry.1 = ascii '{')
    | .typeReference => decide (entry.1 = ascii 'T')
    | _ => true) = true := by
  decide

theorem mem_tokens {c : Byte} {t : Token} (known : token c = t) (listed : t ≠ .unknown) : (c, t) ∈ tokens := by
  cases found : tokens.lookup c with
  | none =>
    rw [token, found] at known
    exact absurd known.symm listed
  | some t' =>
    rw [token, found] at known
    obtain rfl : t' = t := known
    obtain ⟨before, behind, same, -⟩ := List.lookup_eq_some_iff.mp found
    rw [same]
    exact List.mem_append_right _ List.mem_cons_self

theorem typeLetter_of_token {c : Byte} {code : LeafCode} (known : token c = .leaf code) :
    DataElement.typeLetter code = some c :=
  of_decide_eq_true (List.all_eq_true.mp tokens_letters _ (mem_tokens known nofun))

theorem token_of_typeLetter {c : Byte} {code : LeafCode} (letter : DataElement.typeLetter code = some c) :
    token c = .leaf code := by
  cases code <;> cases letter <;> rfl

theorem eq_of_token_record {c : Byte} (known : token c = .record) : c = ascii '{' :=
  of_decide_eq_true (List.all_eq_true.mp tokens_letters _ (mem_tokens known nofun))

theorem eq_of_token_reference {c : Byte} (known : token c = .typeReference) : c = ascii 'T' :=
  of_decide_eq_true (List.all_eq_true.mp tokens_letters _ (mem_tokens known nofun))

end SignatureParser

theorem ArraySuffix.length {bs : Bstr} {width : Nat} {t rest : Bytes} {n : UInt32} {d : Bool}
    (array : ArraySuffix bs width t n d rest) : rest.length ≤ t.length := by
  cases array with
  | absent => exact Nat.le_refl _
  | fixed =>
    simp only [List.length_cons, List.length_append]
    omega
  | dynamic =>
    simp only [List.length_cons, List.length_append]
    omega

theorem LimitsSuffix.length {bs : Bstr} {width : Nat} {code : LeafCode} {t rest : Bytes}
    {limits : Option Limits} (limited : LimitsSuffix bs width code t limits rest) : rest.length ≤ t.length := by
  cases limited with
  | absent => exact Nat.le_refl _
  | present =>
    simp only [List.length_cons, List.length_append]
    omega

mutual

/-- A signature takes a byte at least. -/
theorem Signature.length {bs : Bstr} {width : Nat} {t rest : Bytes} {e : DataElement} :
    Signature bs width t e rest → rest.length < t.length
  | .leaf _ limited array => by
    have first := limited.length
    have second := array.length
    rw [List.length_cons]
    omega
  | .record fields array => by
    have first := fields.length
    have second := array.length
    rw [List.length_cons]
    omega
  | .refId _ _ _ _ array => by
    have second := array.length
    simp only [List.length_cons, List.length_append]
    omega
  | .refName _ _ _ array => by
    have second := array.length
    simp only [List.length_cons, List.length_append]
    omega

theorem FieldSignatures.length {bs : Bstr} {width : Nat} {t rest : Bytes} {elements : List DataElement} :
    FieldSignatures bs width t elements rest → rest.length < t.length
  | .last _ signature => by
    have first := signature.length
    simp only [List.length_cons, List.length_append] at first ⊢
    omega
  | .more _ signature fields => by
    have first := signature.length
    have second := fields.length
    simp only [List.length_cons, List.length_append]
    omega

end

theorem FieldSignatures.starts {bs : Bstr} {width : Nat} {t rest : Bytes} {elements : List DataElement}
    (fields : FieldSignatures bs width t elements rest) : ∃ tail, t = quote :: tail := by
  cases fields with
  | last => exact ⟨_, rfl⟩
  | more => exact ⟨_, rfl⟩

theorem OpenField.starts {bs : Bstr} {t : Bytes} (inner : OpenField bs t) : ∃ tail, t = quote :: tail := by
  cases inner with
  | here => exact ⟨_, rfl⟩
  | behind => exact ⟨_, rfl⟩

namespace SignatureParser

variable {bs : Bstr}

theorem newElement_leaf (name : Option Bytes) (code : LeafCode) (n : UInt32) (d : Bool) (limits : Option Limits) :
    newElement name (.leaf none code n d limits) = .leaf (name.map CString.ofBytes) code n d limits := by
  cases name <;> rfl

theorem newElement_record (name : Option Bytes) (n : UInt32) (d : Bool) (elements : List DataElement) :
    newElement name (.record none n d elements) = .record (name.map CString.ofBytes) n d elements := by
  cases name <;> rfl

theorem newElement_refId (name : Option Bytes) (n : UInt32) (d : Bool) (id : UInt32) :
    newElement name (.refId none n d id) = .refId (name.map CString.ofBytes) n d id := by
  cases name <;> rfl

theorem newElement_refName (name : Option Bytes) (n : UInt32) (d : Bool) (typeName : CString) :
    newElement name (.refName none n d typeName) = .refName (name.map CString.ofBytes) n d typeName := by
  cases name <;> rfl

/-- The end of an element whose array suffix is still to come -/
theorem finishElement_complete {t rest : Bytes} {n : UInt32} {d : Bool} (array : ArraySuffix bs 64 t n d rest)
    {self : SignatureParser} {e : DataElement} (is : self.state.dataElement = some e)
    (plain : e.arrayLen = 0 ∧ e.isDynamicArray = false) :
    finishElement bs self t = .ok (some rest) (self.withElement (some (e.setArray n d))) := by
  rw [finishElement, is, parseArray_complete bs array plain]

theorem parseDataElement_named {fuel : Nat} {self : SignatureParser} {name t : Bytes} (closed : Closed name)
    (nested : self.state.isRecord = true) :
    parseDataElement bs (fuel + 1) self (quote :: (name ++ quote :: t)) =
      parseElementBody bs (parseFields bs fuel) self (quote :: (name ++ quote :: t)) (some name) t := by
  have read := (bs.matchPair_iff _ name t).mpr ⟨rfl, closed⟩
  rw [parseDataElement, if_pos nested, read]

mutual

/-- The parser takes every signature, with numbers of up to 64 bits, and makes the element it denotes. -/
theorem parse_complete {t rest : Bytes} {e : DataElement} : Signature bs 64 t e rest →
    ∀ (fuel : Nat) (self : SignatureParser) (begin_ : Bytes) (name : Option Bytes), 2 * t.length ≤ fuel →
      parseElementBody bs (parseFields bs fuel) self begin_ name t =
        .ok (some rest) (self.withElement (some (newElement name e)))
  | .leaf type limited array, fuel, self, begin_, name, _ => by
    rw [parseElementBody, token_of_typeLetter type]
    simp only [newElement_leaf, parseLimitsOf_complete bs limited]
    rw [finishElement_complete array rfl ⟨rfl, rfl⟩]
    rfl
  | .record fields array, fuel, self, begin_, name, enough => by
    rw [parseElementBody]
    simp only [show token (ascii '{') = .record from rfl, newElement_record]
    have inner := fields_complete fields fuel
      { self.state with dataElement := some (.record (name.map CString.ofBytes) 0 false []) }
      { self with state := ⟨true, none⟩ } rfl rfl (by rw [List.length_cons] at enough; omega)
    have nonempty := fields.length
    split
    · simp at nonempty
    · rw [inner]
      dsimp only
      rw [finishElement_complete array rfl ⟨rfl, rfl⟩]
      rfl
  | .refId spaces number fits spaces' array, fuel, self, begin_, name, _ => by
    rw [parseElementBody]
    simp only [show token (ascii 'T') = .typeReference from rfl, newElement_refId,
      parseTypeReference_complete bs (.id _ spaces number fits spaces')]
    rw [if_pos (by simp only [List.length_cons, List.length_append]; omega),
      finishElement_complete array rfl ⟨rfl, rfl⟩]
    rfl
  | .refName spaces closed spaces' array, fuel, self, begin_, name, _ => by
    rw [parseElementBody]
    simp only [show token (ascii 'T') = .typeReference from rfl, newElement_refId, newElement_refName,
      parseTypeReference_complete bs (.name _ spaces closed spaces')]
    rw [if_pos (by simp only [List.length_cons, List.length_append]; omega),
      finishElement_complete array rfl ⟨rfl, rfl⟩]
    rfl

/-- The loop takes the fields of a record and puts them behind those it has. -/
theorem fields_complete {t rest : Bytes} {elements : List DataElement} : FieldSignatures bs 64 t elements rest →
    ∀ (fuel : Nat) (parent : SignatureParserState) (self : SignatureParser) {name : Option CString} {n : UInt32}
      {d : Bool} {done : List DataElement}, self.state.isRecord = true →
      parent.dataElement = some (.record name n d done) → 2 * t.length + 2 ≤ fuel →
      parseFields bs fuel parent self t = .ok (some rest)
        { self with state := { parent with dataElement := some (.record name n d (done ++ elements)) } }
  | .last closed signature, fuel, parent, self, name, n, d, done, nested, is, enough => by
    obtain ⟨fuel, rfl⟩ : ∃ k, fuel = k + 2 := ⟨fuel - 2, by omega⟩
    have shorter := signature.length
    simp only [List.length_cons, List.length_append] at enough shorter
    rw [parseFields, parseDataElement_named closed nested, parse_complete signature fuel self _ _ (by omega)]
    dsimp only
    rw [if_pos (by simp only [List.length_cons, List.length_append]; omega), is]
    rfl
  | @FieldSignatures.more _ _ field _ _ _ e _ closed signature fields, fuel, parent, self, name, n, d, done,
      nested, is, enough => by
    obtain ⟨fuel, rfl⟩ : ∃ k, fuel = k + 2 := ⟨fuel - 2, by omega⟩
    have shorter := signature.length
    simp only [List.length_cons, List.length_append] at enough
    rw [parseFields, parseDataElement_named closed nested, parse_complete signature fuel self _ _ (by omega)]
    dsimp only
    rw [if_pos (by simp only [List.length_cons, List.length_append]; omega), is]
    have inner := fields_complete fields (fuel + 1)
      { parent with dataElement := some (.record name n d (done ++ [e.setName (CString.ofBytes field)])) }
      (self.withElement none) nested rfl (by omega)
    obtain ⟨tail, rfl⟩ := fields.starts
    rw [List.append_assoc, List.singleton_append] at inner
    dsimp only [withElement] at inner ⊢
    rw [if_neg (by decide)]
    exact inner

end

/-- The parser returns the null pointer and an error code. -/
def Rejected (result : ParseStep) : Prop := ∃ self code, result = .ok none self ∧ self.errorCode = some code

theorem setError_rejected (self : SignatureParser) (code : ApxError) (t : Bytes) :
    Rejected (self.setError code t) := ⟨_, code, rfl, rfl⟩

mutual

/-- Behind an opening brace at the end of the text the parser has lost its state: it returns the end of the
text for the brace alone and runs into an assert when the brace is in a record. -/
theorem openBrace_ends {t : Bytes} : OpenBrace bs t →
    ∀ (fuel : Nat) (self : SignatureParser) (begin_ : Bytes) (name : Option Bytes), 2 * t.length ≤ fuel →
      (t = [ascii '{'] ∧ parseElementBody bs (parseFields bs fuel) self begin_ name t =
        .ok (some []) { self with state := ⟨true, none⟩ }) ∨
      (t ≠ [ascii '{'] ∧
        ∃ state, parseElementBody bs (parseFields bs fuel) self begin_ name t = .fail .assertion state)
  | .here, fuel, self, begin_, name, _ => .inl ⟨rfl, rfl⟩
  | .field inner, fuel, self, begin_, name, enough => by
    right
    obtain ⟨state, fails⟩ := openField_fails inner fuel
      { self.state with dataElement := some (newElement name (.record none 0 false [])) }
      { self with state := ⟨true, none⟩ } rfl
      ⟨name.map CString.ofBytes, 0, false, [], by rw [newElement_record]⟩
      (by rw [List.length_cons] at enough; omega)
    obtain ⟨tail, rfl⟩ := inner.starts
    refine ⟨nofun, state, ?_⟩
    rw [parseElementBody]
    simp only [show token (ascii '{') = .record from rfl]
    rw [fails]

theorem openField_fails {t : Bytes} : OpenField bs t →
    ∀ (fuel : Nat) (parent : SignatureParserState) (self : SignatureParser), self.state.isRecord = true →
      (∃ name n d done, parent.dataElement = some (.record name n d done)) → 2 * t.length + 2 ≤ fuel →
      ∃ state, parseFields bs fuel parent self t = .fail .assertion state
  | .here closed inner, fuel, parent, self, nested, ⟨name, n, d, done, is⟩, enough => by
    obtain ⟨fuel, rfl⟩ : ∃ k, fuel = k + 2 := ⟨fuel - 2, by omega⟩
    simp only [List.length_cons, List.length_append] at enough
    rw [parseFields, parseDataElement_named closed nested]
    rcases openBrace_ends inner fuel self _ _ (by omega) with ⟨-, leaves⟩ | ⟨-, state, fails⟩
    · rw [leaves]
      dsimp only
      rw [if_pos (by simp only [List.length_cons, List.length_append, List.length_nil]; omega), is]
      exact ⟨_, rfl⟩
    · rw [fails]
      exact ⟨state, rfl⟩
  | .behind closed signature inner, fuel, parent, self, nested, ⟨name, n, d, done, is⟩, enough => by
    obtain ⟨fuel, rfl⟩ : ∃ k, fuel = k + 2 := ⟨fuel - 2, by omega⟩
    have shorter := signature.length
    simp only [List.length_cons, List.length_append] at enough
    rw [parseFields, parseDataElement_named closed nested, parse_complete signature fuel self _ _ (by omega)]
    dsimp only
    rw [if_pos (by simp only [List.length_cons, List.length_append]; omega), is]
    obtain ⟨tail, rfl⟩ := inner.starts
    dsimp only [withElement]
    rw [if_neg (by decide)]
    exact openField_fails inner _ _ _ nested ⟨name, n, d, _, rfl⟩ (by omega)

end

theorem finishElement_cases (self : SignatureParser) (t : Bytes) :
    (∃ n d rest, ArraySuffix bs 64 t n d rest) ∨ Rejected (finishElement bs self t) := by
  rw [finishElement]
  cases parses : parseArray bs self.state.dataElement t with
  | mk element next =>
    cases next with
    | none => exact .inr (setError_rejected _ _ _)
    | some rest =>
      obtain ⟨n, d, array⟩ := parseArray_sound bs parses
      exact .inl ⟨n, d, rest, array⟩

/-- What there is in front of a text: a signature, an opening brace at the end, nothing at all, or
something that the parser rejects. -/
def Classified (bs : Bstr) (t : Bytes) : Prop :=
  (∃ e rest, Signature bs 64 t e rest) ∨ OpenBrace bs t ∨ t = [] ∨
    ∀ (fuel : Nat) (self : SignatureParser) (begin_ : Bytes) (name : Option Bytes), 2 * t.length ≤ fuel →
      Rejected (parseElementBody bs (parseFields bs fuel) self begin_ name t)

def ClassifiedFields (bs : Bstr) (t : Bytes) : Prop :=
  (∃ elements rest, FieldSignatures bs 64 t elements rest) ∨ OpenField bs t ∨
    ∀ (fuel : Nat) (parent : SignatureParserState) (self : SignatureParser), self.state.isRecord = true →
      (∃ name n d done, parent.dataElement = some (.record name n d done)) → 2 * t.length + 2 ≤ fuel →
      Rejected (parseFields bs fuel parent self t)

theorem classified_of_fields {t : Bytes} (fields : ∀ t', t'.length < t.length → ClassifiedFields bs t') :
    Classified bs t := by
  cases t with
  | nil => exact .inr (.inr (.inl rfl))
  | cons c next =>
    cases known : token c with
    | group =>
      refine .inr (.inr (.inr fun fuel self begin_ name _ => ?_))
      rw [parseElementBody, known]
      exact setError_rejected _ _ _
    | function =>
      refine .inr (.inr (.inr fun fuel self begin_ name _ => ?_))
      rw [parseElementBody, known]
      exact setError_rejected _ _ _
    | unknown =>
      refine .inr (.inr (.inr fun fuel self begin_ name _ => ?_))
      rw [parseElementBody, known]
      exact setError_rejected _ _ _
    | typeReference =>
      obtain rfl := eq_of_token_reference known
      by_cases reference : ∃ change rest, ReferenceText bs 64 next change rest
      · obtain ⟨change, rest, reference⟩ := reference
        by_cases array : ∃ n d rest', ArraySuffix bs 64 rest n d rest'
        · obtain ⟨n, d, rest', array⟩ := array
          left
          cases reference with
          | id _ spaces number fits spaces' => exact ⟨_, _, .refId spaces number fits spaces' array⟩
          | name _ spaces closed spaces' => exact ⟨_, _, .refName spaces closed spaces' array⟩
        · refine .inr (.inr (.inr fun fuel self begin_ name _ => ?_))
          rw [parseElementBody, known]
          simp only [parseTypeReference_complete bs reference]
          split
          · exact (finishElement_cases _ rest).resolve_left array
          · exact setError_rejected _ _ _
      · refine .inr (.inr (.inr fun fuel self begin_ name _ => ?_))
        rw [parseElementBody, known]
        dsimp only
        split
        · next element rest parses =>
          split
          · next shorter =>
            obtain ⟨change, text⟩ := parseTypeReference_sound bs parses shorter
            exact absurd ⟨change, rest, text⟩ reference
          · exact setError_rejected _ _ _
        · exact setError_rejected _ _ _
    | leaf code =>
      have letter := typeLetter_of_token known
      by_cases limited : ∃ limits rest, LimitsSuffix bs 64 code next limits rest
      · obtain ⟨limits, rest, limited⟩ := limited
        by_cases array : ∃ n d rest', ArraySuffix bs 64 rest n d rest'
        · obtain ⟨n, d, rest', array⟩ := array
          exact .inl ⟨_, _, .leaf letter limited array⟩
        · refine .inr (.inr (.inr fun fuel self begin_ name _ => ?_))
          rw [parseElementBody, known]
          simp only [newElement_leaf, parseLimitsOf_complete bs limited]
          exact (finishElement_cases _ rest).resolve_left array
      · refine .inr (.inr (.inr fun fuel self begin_ name _ => ?_))
        rw [parseElementBody, known]
        dsimp only
        split
        · exact setError_rejected _ _ _
        · next element rest parses =>
          obtain ⟨limits, text⟩ := parseLimitsOf_sound bs parses
          exact absurd ⟨limits, rest, text⟩ limited
    | record =>
      obtain rfl := eq_of_token_record known
      cases next with
      | nil => exact .inr (.inl .here)
      | cons d next =>
        rcases fields (d :: next) (Nat.lt_succ_self _) with ⟨elements, rest, fields⟩ | inner | rejects
        · by_cases array : ∃ n d rest', ArraySuffix bs 64 rest n d rest'
          · obtain ⟨n, d, rest', array⟩ := array
            exact .inl ⟨_, _, .record fields array⟩
          · refine .inr (.inr (.inr fun fuel self begin_ name enough => ?_))
            have inner := fields_complete fields fuel
              { self.state with dataElement := some (.record (name.map CString.ofBytes) 0 false []) }
              { self with state := ⟨true, none⟩ } rfl rfl (by rw [List.length_cons] at enough; omega)
            rw [parseElementBody, known]
            simp only [newElement_record, inner]
            exact (finishElement_cases _ rest).resolve_left array
        · exact .inr (.inl (.field inner))
        · refine .inr (.inr (.inr fun fuel self begin_ name enough => ?_))
          obtain ⟨state, code, returns, coded⟩ := rejects fuel
            { self.state with dataElement := some (newElement name (.record none 0 false [])) }
            { self with state := ⟨true, none⟩ } rfl
            ⟨name.map CString.ofBytes, 0, false, [], by rw [newElement_record]⟩
            (by rw [List.length_cons] at enough; omega)
          rw [parseElementBody, known]
          simp only [returns]
          exact ⟨state, code, rfl, coded⟩

/-- The loop over the fields of a record behind a field, with the record as it is then -/
def behindField (bs : Bstr) (fuel : Nat) (parent : SignatureParserState) (self : SignatureParser) :
    Bytes → ParseStep
  | [] => setError { self with state := parent } .parse []
  | c :: next =>
    if c = ascii '}' then .ok (some next) { self with state := parent }
    else parseFields bs fuel parent (self.withElement none) (c :: next)

theorem classifiedFields_of_smaller {t : Bytes} (elements : ∀ t', t'.length < t.length → Classified bs t')
    (fields : ∀ t', t'.length < t.length → ClassifiedFields bs t') : ClassifiedFields bs t := by
  cases read : bs.matchPair t with
  | none =>
    refine .inr (.inr fun fuel parent self nested _ enough => ?_)
    obtain ⟨fuel, rfl⟩ : ∃ k, fuel = k + 2 := ⟨fuel - 2, by omega⟩
    rw [parseFields, parseDataElement, if_pos nested, read]
    exact setError_rejected _ _ _
  | some pair =>
    obtain ⟨field, behind⟩ := pair
    obtain ⟨rfl, closed⟩ := (bs.matchPair_iff _ _ _).mp read
    have shorter : behind.length < (quote :: (field ++ quote :: behind)).length := by
      simp only [List.length_cons, List.length_append]
      omega
    rcases elements behind shorter with ⟨e, rest, signature⟩ | inner | rfl | rejects
    · have shorter' := signature.length
      -- what the loop does behind the element
      have step (fuel : Nat) (parent : SignatureParserState) (self : SignatureParser)
          (nested : self.state.isRecord = true) {name : Option CString} {n : UInt32} {d : Bool}
          {done : List DataElement} (is : parent.dataElement = some (.record name n d done))
          (enough : 2 * (quote :: (field ++ quote :: behind)).length + 2 ≤ fuel + 2) :
          parseFields bs (fuel + 2) parent self (quote :: (field ++ quote :: behind)) =
            behindField bs (fuel + 1)
              { parent with dataElement := some (.record name n d (done ++ [newElement (some field) e])) }
              self rest := by
        rw [parseFields, parseDataElement_named closed nested,
          parse_complete signature fuel self _ _ (by omega)]
        dsimp only
        rw [if_pos (by omega), is]
        rfl
      cases rest with
      | nil =>
        refine .inr (.inr fun fuel parent self nested ⟨name, n, d, done, is⟩ enough => ?_)
        obtain ⟨fuel, rfl⟩ : ∃ k, fuel = k + 2 := ⟨fuel - 2, by omega⟩
        rw [step fuel parent self nested is enough]
        exact setError_rejected _ _ _
      | cons c next =>
        by_cases ends : c = ascii '}'
        · subst ends
          exact .inl ⟨_, _, .last closed signature⟩
        · rcases fields (c :: next) (by omega) with ⟨more, rest, fields⟩ | inner | rejects
          · exact .inl ⟨_, _, .more closed signature fields⟩
          · exact .inr (.inl (.behind closed signature inner))
          · refine .inr (.inr fun fuel parent self nested ⟨name, n, d, done, is⟩ enough => ?_)
            obtain ⟨fuel, rfl⟩ : ∃ k, fuel = k + 2 := ⟨fuel - 2, by omega⟩
            rw [step fuel parent self nested is enough]
            rw [behindField, if_neg ends]
            exact rejects _ _ _ nested ⟨name, n, d, _, rfl⟩ (by omega)
    · exact .inr (.inl (.here closed inner))
    · refine .inr (.inr fun fuel parent self nested _ enough => ?_)
      obtain ⟨fuel, rfl⟩ : ∃ k, fuel = k + 2 := ⟨fuel - 2, by omega⟩
      rw [parseFields, parseDataElement_named closed nested, parseElementBody]
      dsimp only
      rw [if_neg (Nat.lt_irrefl _)]
      exact setError_rejected _ _ _
    · refine .inr (.inr fun fuel parent self nested _ enough => ?_)
      obtain ⟨fuel, rfl⟩ : ∃ k, fuel = k + 2 := ⟨fuel - 2, by omega⟩
      obtain ⟨state, code, returns, coded⟩ :=
        rejects fuel self (quote :: (field ++ quote :: behind)) (some field) (by omega)
      rw [parseFields, parseDataElement_named closed nested, returns]
      exact setError_rejected _ _ _

/-- Every text is classified. -/
theorem classified (bs : Bstr) (t : Bytes) : Classified bs t ∧ ClassifiedFields bs t := by
  induction known : t.length using Nat.strong_induction_on generalizing t with
  | _ n ih =>
    subst known
    have element : Classified bs t :=
      classified_of_fields fun t' shorter => (ih _ shorter t' rfl).2
    exact ⟨element, classifiedFields_of_smaller (fun t' shorter => (ih _ shorter t' rfl).1)
      fun t' shorter => (ih _ shorter t' rfl).2⟩

end SignatureParser

end Apx
