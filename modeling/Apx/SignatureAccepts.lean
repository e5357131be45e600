import Apx.SignatureGrammar

/-! Which texts the signature parser takes as its grammar says: those whose numbers fit, but for an opening
brace at the end of the text. -/

namespace Apx

open Bstr

variable {bs : Bstr} {w w' : Nat}

theorem ArraySuffix.mono (wider : w ≤ w') {t rest : Bytes} {n : UInt32} {d : Bool}
    (array : ArraySuffix bs w t n d rest) : ArraySuffix bs w' t n d rest := by
  have bound := Nat.pow_le_pow_right (n := 2) (by omega) wider
  cases array with
  | absent closed => exact .absent closed
  | fixed rest spaces number fits spaces' => exact .fixed rest spaces number (by omega) spaces'
  | dynamic rest spaces number fits spaces' spaces'' =>
    exact .dynamic rest spaces number (by omega) spaces' spaces''

theorem LimitNumber.mono (wider : w ≤ w') {code : LeafCode} {text : Bytes} {word : BitVec 64}
    (number : LimitNumber w code text word) : LimitNumber w' code text word := by
  have bound := Nat.pow_le_pow_right (n := 2) (by omega) wider
  have signed : (2 : Int) ^ (w - 1) ≤ 2 ^ (w' - 1) := by
    exact_mod_cast Nat.pow_le_pow_right (n := 2) (by omega) (by omega : w - 1 ≤ w' - 1)
  have unsignedCase (number : Digits text ∧ decimalValue text < 2 ^ w ∧
      word = (BitVec.ofNat 32 (decimalValue text)).setWidth 64) :
      Digits text ∧ decimalValue text < 2 ^ w' ∧ word = (BitVec.ofNat 32 (decimalValue text)).setWidth 64 :=
    ⟨number.1, lt_of_lt_of_le number.2.1 bound, number.2.2⟩
  have signedCase (number : ∃ x, SignedText text x ∧ -2 ^ (w - 1) ≤ x ∧ x < 2 ^ (w - 1) ∧
      word = (BitVec.ofInt 32 x).setWidth 64) :
      ∃ x, SignedText text x ∧ -2 ^ (w' - 1) ≤ x ∧ x < 2 ^ (w' - 1) ∧ word = (BitVec.ofInt 32 x).setWidth 64 := by
    obtain ⟨x, is, lower, upper, same⟩ := number
    exact ⟨x, is, by omega, by omega, same⟩
  cases code with
  | byte => exact unsignedCase number
  | uint8 => exact unsignedCase number
  | uint16 => exact unsignedCase number
  | uint32 => exact unsignedCase number
  | int8 => exact signedCase number
  | int16 => exact signedCase number
  | int32 => exact signedCase number
  | uint64 => exact number
  | int64 => exact number
  | _ => exact number.elim

theorem LimitsSuffix.mono (wider : w ≤ w') {code : LeafCode} {t rest : Bytes} {limits : Option Limits}
    (limited : LimitsSuffix bs w code t limits rest) : LimitsSuffix bs w' code t limits rest := by
  cases limited with
  | absent closed => exact .absent closed
  | present rest spaces₁ first spaces₂ spaces₃ second spaces₄ =>
    exact .present rest spaces₁ (first.mono wider) spaces₂ spaces₃ (second.mono wider) spaces₄

mutual

/-- A signature stays one where numbers may be larger. -/
theorem Signature.mono (wider : w ≤ w') {t rest : Bytes} {e : DataElement} :
    Signature bs w t e rest → Signature bs w' t e rest
  | .leaf type limited array => .leaf type (limited.mono wider) (array.mono wider)
  | .record fields array => .record (fields.mono wider) (array.mono wider)
  | .refId spaces number fits spaces' array =>
    .refId spaces number (lt_of_lt_of_le fits (Nat.pow_le_pow_right (by omega) wider)) spaces' (array.mono wider)
  | .refName spaces closed spaces' array => .refName spaces closed spaces' (array.mono wider)

theorem FieldSignatures.mono (wider : w ≤ w') {t rest : Bytes} {elements : List DataElement} :
    FieldSignatures bs w t elements rest → FieldSignatures bs w' t elements rest
  | .last closed signature => .last closed (signature.mono wider)
  | .more closed signature fields => .more closed (signature.mono wider) (fields.mono wider)

end

namespace SignatureParser

/-- The parser returns a pointer beyond the start of the text, with no error. What
apx_signatureParser_take_data_element returns then is `e`. -/
def Accepts (bs : Bstr) (t rest : Bytes) (e : Option DataElement) : Prop :=
  ∃ self, parseDataSignature bs t = .ok (some rest) self ∧ self.errorCode = none ∧
    rest.length < t.length ∧ takeDataElement self = e

/-- The parser returns from `t`. It accepts `t` if and only if a signature is in front of it, with numbers
that fit their field of 32 or 64 bits, and what it returns then is the end of that signature and the
element it denotes. -/
def AcceptsGrammar (bs : Bstr) (t : Bytes) : Prop :=
  (∃ next self, parseDataSignature bs t = .ok next self) ∧
  ((∃ rest e, Accepts bs t rest e) ↔ ∃ e rest, Signature bs 32 t e rest) ∧
  ∀ e rest, Signature bs 32 t e rest → Accepts bs t rest (some e)

/-- The numbers in a signature fit their fields when they fit a long. -/
def NumbersFit (bs : Bstr) (t : Bytes) : Prop :=
  ∀ e rest, Signature bs 64 t e rest → Signature bs 32 t e rest

theorem parseDataSignature_eq (bs : Bstr) (t : Bytes) :
    parseDataSignature bs t = parseElementBody bs (parseFields bs (2 * t.length)) ⟨⟨false, none⟩, none, none⟩ t
      none t := by
  rw [parseDataSignature, parseDataElement, if_neg (by decide)]

/-- The parser accepts a signature with numbers of up to 64 bits. -/
theorem parses_signature {t rest : Bytes} {e : DataElement} (signature : Signature bs 64 t e rest) :
    parseDataSignature bs t = .ok (some rest) ⟨⟨false, some e⟩, none, none⟩ := by
  rw [parseDataSignature_eq, parse_complete signature _ _ t none (Nat.le_refl _)]
  rfl

theorem accepts_signature {t rest : Bytes} {e : DataElement} (signature : Signature bs 64 t e rest) :
    Accepts bs t rest (some e) :=
  ⟨_, parses_signature signature, rfl, signature.length, rfl⟩

/-- The element and its end are determined by the text. -/
theorem signature_unique {t rest rest' : Bytes} {e e' : DataElement} (first : Signature bs 64 t e rest)
    (second : Signature bs 64 t e' rest') : e = e' ∧ rest = rest' := by
  have same := (parses_signature first).symm.trans (parses_signature second)
  simp only [Result.ok.injEq, Option.some.injEq, mk.injEq, SignatureParserState.mk.injEq, true_and,
    and_true] at same
  exact ⟨same.2, same.1⟩

/-- An opening brace at the end of the text is no signature. -/
theorem not_signature_of_openBrace {t : Bytes} (inner : OpenBrace bs t) :
    ¬∃ e rest, Signature bs 64 t e rest := by
  rintro ⟨e, rest, signature⟩
  have returns := parses_signature signature
  rw [parseDataSignature_eq] at returns
  rcases openBrace_ends inner _ ⟨⟨false, none⟩, none, none⟩ t none (Nat.le_refl _) with
    ⟨-, ends⟩ | ⟨-, state, fails⟩
  · rw [ends] at returns
    simp at returns
  · rw [fails] at returns
    cases returns

/-- Where neither is in front of the text, the parser returns and does not accept. -/
theorem not_accepts {t : Bytes} (none_ : ¬∃ e rest, Signature bs 64 t e rest) (closed : ¬OpenBrace bs t) :
    (∃ next self, parseDataSignature bs t = .ok next self) ∧ ¬∃ rest e, Accepts bs t rest e := by
  rcases (classified bs t).1 with signature | inner | rfl | rejects
  · exact absurd signature none_
  · exact absurd inner closed
  · refine ⟨⟨_, _, rfl⟩, ?_⟩
    rintro ⟨rest, e, self, -, -, shorter, -⟩
    exact Nat.not_lt_zero _ shorter
  · obtain ⟨self, code, returns, coded⟩ := rejects (2 * t.length) ⟨⟨false, none⟩, none, none⟩ t none
      (Nat.le_refl _)
    rw [← parseDataSignature_eq] at returns
    refine ⟨⟨none, self, returns⟩, ?_⟩
    rintro ⟨rest, e, self', accepts, -⟩
    rw [returns] at accepts
    cases accepts

/-- The parser accepts exactly its grammar on the texts whose numbers fit and that do not end behind the
opening brace of a record. -/
theorem acceptsGrammar_iff (bs : Bstr) (t : Bytes) :
    AcceptsGrammar bs t ↔ NumbersFit bs t ∧ ¬OpenBrace bs t := by
  constructor
  · intro ⟨⟨next, self, returns⟩, accepts, _⟩
    constructor
    · intro e rest signature
      obtain ⟨e', rest', fits⟩ := accepts.mp ⟨rest, _, accepts_signature signature⟩
      obtain ⟨rfl, rfl⟩ := signature_unique signature (fits.mono (by omega))
      exact fits
    · intro inner
      rcases openBrace_ends inner _ ⟨⟨false, none⟩, none, none⟩ t none (Nat.le_refl _) with
        ⟨rfl, ends⟩ | ⟨-, state, fails⟩
      · rw [← parseDataSignature_eq] at ends
        obtain ⟨e, rest, fits⟩ := accepts.mp ⟨[], none, _, ends, rfl, Nat.lt_succ_self _, rfl⟩
        exact not_signature_of_openBrace inner ⟨e, rest, fits.mono (by omega)⟩
      · rw [← parseDataSignature_eq, returns] at fails
        cases fails
  · intro ⟨fits, closed⟩
    by_cases signature : ∃ e rest, Signature bs 64 t e rest
    · obtain ⟨e, rest, signature⟩ := signature
      refine ⟨⟨_, _, parses_signature signature⟩, ⟨fun _ => ⟨e, rest, fits e rest signature⟩, fun _ => ?_⟩, ?_⟩
      · exact ⟨rest, some e, accepts_signature signature⟩
      · intro e' rest' signature'
        exact accepts_signature (signature'.mono (by omega))
    · obtain ⟨returns, rejects⟩ := not_accepts signature closed
      refine ⟨returns, ⟨fun accepts => absurd accepts rejects, ?_⟩, ?_⟩
      · intro ⟨e, rest, fits⟩
        exact absurd ⟨e, rest, fits.mono (by omega)⟩ signature
      · intro e rest fits
        exact absurd ⟨e, rest, fits.mono (by omega)⟩ signature

/-- An array length that does not fit: C[4294967297] -/
def wideLength : Bytes := "C[4294967297]".toList.map ascii

/-- The number between the brackets is the whole run of digits. -/
theorem decimalValue_of_wideLength {s digits s' : Bytes} {c : Byte} {rest : Bytes}
    (same : "4294967297]".toList.map ascii = s ++ (digits ++ (s' ++ c :: rest)))
    (spaces : Spaces Bstr.asciiLibrary s) (number : Digits digits) (spaces' : Spaces Bstr.asciiLibrary s')
    (other : isDigit c = false) (fits : decimalValue digits < 2 ^ 32) : False := by
  cases s with
  | cons b s =>
    obtain ⟨rfl, -⟩ := List.cons.inj same
    exact absurd (spaces _ List.mem_cons_self) (by decide)
  | nil =>
    rw [List.nil_append] at same
    have read : Bstr.asciiLibrary.toUnsignedLong ("4294967297]".toList.map ascii) =
        some (decimalValue digits, s' ++ c :: rest) :=
      (Bstr.asciiLibrary.toUnsignedLong_iff _ _ _).mpr ⟨digits, same, number, digits_end _ rest spaces' other,
        rfl, by omega⟩
    have known : Bstr.asciiLibrary.toUnsignedLong ("4294967297]".toList.map ascii) =
        some (4294967297, [ascii ']']) := by decide
    have value := congrArg Prod.fst (Option.some.inj (read.symm.trans known))
    dsimp only at value
    omega

theorem not_arraySuffix_of_wideLength {n : UInt32} {d : Bool} {rest : Bytes} :
    ¬ArraySuffix Bstr.asciiLibrary 32 ("[4294967297]".toList.map ascii) n d rest := by
  intro array
  generalize text : "[4294967297]".toList.map ascii = t at array
  cases array with
  | absent closed =>
    rw [← text] at closed
    exact closed rfl
  | fixed rest spaces number fits spaces' =>
    exact decimalValue_of_wideLength (List.cons.inj text).2 spaces number spaces' (by decide) fits
  | dynamic rest spaces number fits spaces' spaces'' =>
    exact decimalValue_of_wideLength (List.cons.inj text).2 spaces number spaces' (by decide) fits

theorem not_signature_of_wideLength {e : DataElement} {rest : Bytes} :
    ¬Signature Bstr.asciiLibrary 32 wideLength e rest := by
  intro fits
  generalize text : wideLength = t at fits
  cases fits with
  | leaf type limited array =>
    obtain ⟨-, behind⟩ := List.cons.inj text
    cases limited with
    | absent =>
      rw [← behind] at array
      exact not_arraySuffix_of_wideLength array
    | present => cases (List.cons.inj behind).1
  | record => cases (List.cons.inj text).1
  | refId => cases (List.cons.inj text).1
  | refName => cases (List.cons.inj text).1

/-- The parser makes an array of one element of it. -/
theorem not_acceptsGrammar : ¬AcceptsGrammar Bstr.asciiLibrary wideLength := by
  intro accepts
  have signature : Signature Bstr.asciiLibrary 64 wideLength (.leaf none .uint8 1 false none) [] :=
    @Signature.leaf _ _ (ascii 'C') _ _ _ _ _ _ _ rfl (.absent fun _ => by decide)
      (@ArraySuffix.fixed _ _ [] ("4294967297".toList.map ascii) [] [] nofun
        ⟨by decide, by decide +kernel⟩ (by decide +kernel) nofun)
  obtain ⟨e, rest, fits⟩ := accepts.2.1.mp ⟨_, _, accepts_signature signature⟩
  exact not_signature_of_wideLength fits

end SignatureParser

end Apx
