import Apx.DefinitionLines
import Apx.SignatureAccepts
import Apx.TypeAttributeGrammar

/-! The lines of a definition: which lines the parser takes in each section, and what it makes of them -/

namespace Apx

open Bstr

/-- A name between quotes that is not too long -/
structure NameText (name : Bytes) : Prop where
  closed : Closed name
  short : name.length ≤ maxNameLen

/-- What stands behind a name: the signature, and attributes behind a colon. The signature may be missing altogether. -/
inductive SignatureText (bs : Bstr) : Bytes → Option DataElement → Option Bytes → Prop
  | bare : SignatureText bs [] none none
  | plain {t : Bytes} {e : DataElement} (signature : Signature bs 64 t e []) (noColon : ascii ':' ∉ t) :
      SignatureText bs t (some e) none
  | attributes {t attributes : Bytes} {e : DataElement} (signature : Signature bs 64 t e []) (noColon : ascii ':' ∉ t)
      (some_ : attributes ≠ []) : SignatureText bs (t ++ ascii ':' :: attributes) (some e) (some attributes)

inductive VersionLine : Bytes → BitVec 32 → BitVec 32 → Prop
  | mk {major minor : Bytes} {x y : Int} (first : SignedText major x) (second : SignedText minor y)
      (fits : -2 ^ 63 ≤ x ∧ x < 2 ^ 63) (fits' : -2 ^ 63 ≤ y ∧ y < 2 ^ 63) :
      VersionLine ("APX/".toList.map ascii ++ (major ++ ascii '.' :: minor)) (BitVec.ofInt 32 x) (BitVec.ofInt 32 y)

inductive NodeLine : Bytes → CString → Prop
  | mk {name : Bytes} (named : NameText name) :
      NodeLine (ascii 'N' :: quote :: (name ++ [quote])) (CString.ofBytes name)

/-- A line that declares a type, and what is declared -/
inductive TypeLine (bs : Bstr) (double : DoubleReader) :
    Bytes → CString → Option DataElement → Option (List Computation) → Prop
  | plain {name behind : Bytes} {e : Option DataElement} (named : NameText name)
      (signature : SignatureText bs behind e none) :
      TypeLine bs double (ascii 'T' :: quote :: (name ++ quote :: behind)) (CString.ofBytes name) e none
  | attributes {name behind attributes : Bytes} {e : Option DataElement} {attr : List Computation}
      (named : NameText name) (signature : SignatureText bs behind e (some attributes))
      (written : TypeAttributesText bs double attributes attr) :
      TypeLine bs double (ascii 'T' :: quote :: (name ++ quote :: behind)) (CString.ofBytes name) e (some attr)

/-- A line that is passed over: a type with something behind its signature, or with attributes that cannot be read -/
inductive LostTypeLine (bs : Bstr) (double : DoubleReader) : Bytes → Prop
  | stray {name signature tail rest : Bytes} {e : DataElement} (named : NameText name)
      (written : Signature bs 64 signature e rest) (some_ : rest ≠ []) (noColon : ascii ':' ∉ signature)
      (ends : tail = [] ∨ ∃ attributes, tail = ascii ':' :: attributes) :
      LostTypeLine bs double (ascii 'T' :: quote :: (name ++ quote :: (signature ++ tail)))
  | attributes {name behind attributes : Bytes} {e : Option DataElement} (named : NameText name)
      (signature : SignatureText bs behind e (some attributes))
      (unread : ∀ attr, ¬TypeAttributesText bs double attributes attr) :
      LostTypeLine bs double (ascii 'T' :: quote :: (name ++ quote :: behind))

/-- A line that declares a port, and what is declared -/
inductive PortLine (bs : Bstr) :
    Bytes → PortType → CString → Option DataElement → Option PortAttributes → Prop
  | plain {c : Byte} {name behind : Bytes} {portType : PortType} {e : Option DataElement}
      (letter : portTypeOf c = some portType) (named : NameText name) (signature : SignatureText bs behind e none) :
      PortLine bs (c :: quote :: (name ++ quote :: behind)) portType (CString.ofBytes name) e none
  | attributes {c : Byte} {name behind attributes : Bytes} {portType : PortType} {e : Option DataElement}
      {attr : PortAttributes} (letter : portTypeOf c = some portType) (named : NameText name)
      (signature : SignatureText bs behind e (some attributes)) (written : PortAttributesText bs true attributes attr) :
      PortLine bs (c :: quote :: (name ++ quote :: behind)) portType (CString.ofBytes name) e (some attr)

section
variable (bs : Bstr)

theorem signatureParts_plain {t : Bytes} (noColon : ascii ':' ∉ t) : signatureParts bs t = (t, none) := by
  rw [signatureParts, searchVal_missing bs noColon]

theorem signatureParts_attributes {t : Bytes} (noColon : ascii ':' ∉ t) (some_ : t ≠ []) (attributes : Bytes) :
    signatureParts bs (t ++ ascii ':' :: attributes) = (t, some attributes) := by
  rw [signatureParts, searchVal_found bs noColon]
  exact if_neg some_

theorem signatureParts_cases (t : Bytes) :
    signatureParts bs t = (t, none) ∧ (ascii ':' ∉ t ∨ ∃ rest, t = ascii ':' :: rest) ∨
      ∃ signature attributes, signature ≠ [] ∧ ascii ':' ∉ signature ∧ t = signature ++ ascii ':' :: attributes ∧
        signatureParts bs t = (signature, some attributes) := by
  by_cases colon : ascii ':' ∈ t
  · obtain ⟨signature, attributes, rfl, noColon⟩ := List.eq_append_cons_of_mem colon
    by_cases some_ : signature = []
    · subst some_
      exact .inl ⟨by rw [signatureParts, searchVal_found bs noColon]; rfl, .inr ⟨attributes, rfl⟩⟩
    · exact .inr ⟨signature, attributes, some_, noColon, rfl, signatureParts_attributes bs noColon some_ attributes⟩
  · exact .inl ⟨signatureParts_plain bs colon, .inl colon⟩

end

section
variable {bs : Bstr}

theorem signature_starts {c : Byte} {t rest : Bytes} {e : DataElement} (signature : Signature bs 64 (c :: t) e rest) :
    c ≠ ascii ':' := by
  rintro rfl
  generalize text : ascii ':' :: t = whole at signature
  cases signature with
  | leaf type limited array =>
    obtain ⟨rfl, -⟩ := List.cons.inj text
    exact absurd (SignatureParser.token_of_typeLetter type) nofun
  | record => cases (List.cons.inj text).1
  | refId => cases (List.cons.inj text).1
  | refName => cases (List.cons.inj text).1

/-- What comes of the text of a signature: the element, what is behind it, nothing for no text, or an error -/
theorem stateParseDataSignature_cases (bs : Bstr) (t : Bytes) :
    (∃ e, Signature bs 64 t e [] ∧ stateParseDataSignature bs t = .ok ⟨none, some e, none⟩) ∨
      (∃ e rest, Signature bs 64 t e rest ∧ rest ≠ [] ∧
        stateParseDataSignature bs t = .ok ⟨some .strayCharactersAfterParse, none, none⟩) ∨
      (t = [] ∧ stateParseDataSignature bs t = .ok ⟨none, none, none⟩) ∨
      (¬∃ e rest, Signature bs 64 t e rest) ∧ t ≠ [] ∧
        ((∃ failure, stateParseDataSignature bs t = .error failure) ∨
          ∃ code, stateParseDataSignature bs t = .ok ⟨some code, none, some code⟩) := by
  by_cases signature : ∃ e rest, Signature bs 64 t e rest
  · obtain ⟨e, rest, signature⟩ := signature
    rw [stateParseDataSignature, SignatureParser.parses_signature signature]
    dsimp only
    rw [if_pos signature.length]
    by_cases ends : rest = []
    · subst ends
      exact .inl ⟨e, signature, by rw [if_pos rfl]; rfl⟩
    · exact .inr (.inl ⟨e, rest, signature, ends, by rw [if_neg ends]⟩)
  · rcases (SignatureParser.classified bs t).1 with written | inner | rfl | rejects
    · exact absurd written signature
    · refine .inr (.inr (.inr ⟨signature, ?_, .inl ?_⟩))
      · rintro rfl
        cases inner
      · rcases SignatureParser.openBrace_ends inner _ ⟨⟨false, none⟩, none, none⟩ t none (Nat.le_refl _) with
          ⟨rfl, ends⟩ | ⟨-, state, fails⟩
        · rw [← SignatureParser.parseDataSignature_eq] at ends
          exact ⟨.assertion, by rw [stateParseDataSignature, ends]; rfl⟩
        · rw [← SignatureParser.parseDataSignature_eq] at fails
          exact ⟨.assertion, by rw [stateParseDataSignature, fails]⟩
    · exact .inr (.inr (.inl ⟨rfl, rfl⟩))
    · by_cases none_ : t = []
      · subst none_
        exact .inr (.inr (.inl ⟨rfl, rfl⟩))
      · obtain ⟨self, code, returns, coded⟩ := rejects (2 * t.length) ⟨⟨false, none⟩, none, none⟩ t none
          (Nat.le_refl _)
        rw [← SignatureParser.parseDataSignature_eq] at returns
        exact .inr (.inr (.inr ⟨signature, none_, .inr ⟨code, by rw [stateParseDataSignature, returns, ← coded]⟩⟩))

theorem stateParseDataSignature_iff {t : Bytes} {e : Option DataElement} {lastError : Option ApxError} :
    stateParseDataSignature bs t = .ok ⟨none, e, lastError⟩ ↔
      lastError = none ∧ (t = [] ∧ e = none ∨ ∃ e', Signature bs 64 t e' [] ∧ e = some e') := by
  constructor
  · intro parsed
    rcases stateParseDataSignature_cases bs t with
      ⟨e', signature, is⟩ | ⟨e', rest, signature, some_, is⟩ | ⟨rfl, is⟩ | ⟨-, -, ⟨failure, is⟩ | ⟨code, is⟩⟩ <;>
      rw [is] at parsed <;> cases parsed
    · exact ⟨rfl, .inr ⟨e', signature, rfl⟩⟩
    · exact ⟨rfl, .inl ⟨rfl, rfl⟩⟩
  · rintro ⟨rfl, ⟨rfl, rfl⟩ | ⟨e', signature, rfl⟩⟩
    · rfl
    · rw [stateParseDataSignature, SignatureParser.parses_signature signature]
      dsimp only
      rw [if_pos signature.length, if_pos rfl]
      rfl

theorem stateParseDataSignature_lost {t : Bytes} {code : ApxError} {e : Option DataElement} :
    stateParseDataSignature bs t = .ok ⟨some code, e, none⟩ ↔
      code = .strayCharactersAfterParse ∧ e = none ∧ ∃ e' rest, Signature bs 64 t e' rest ∧ rest ≠ [] := by
  constructor
  · intro parsed
    rcases stateParseDataSignature_cases bs t with
      ⟨e', signature, is⟩ | ⟨e', rest, signature, some_, is⟩ | ⟨rfl, is⟩ | ⟨-, -, ⟨failure, is⟩ | ⟨code, is⟩⟩ <;>
      rw [is] at parsed <;> cases parsed
    exact ⟨rfl, rfl, e', rest, signature, some_⟩
  · rintro ⟨rfl, rfl, e', rest, signature, some_⟩
    rw [stateParseDataSignature, SignatureParser.parses_signature signature]
    dsimp only
    rw [if_pos signature.length, if_neg some_]

theorem signatureText_plain {t : Bytes} {e : Option DataElement} :
    SignatureText bs t e none ↔
      (signatureParts bs t).2 = none ∧ stateParseDataSignature bs (signatureParts bs t).1 = .ok ⟨none, e, none⟩ := by
  rw [stateParseDataSignature_iff]
  constructor
  · intro written
    cases written with
    | bare =>
      rw [signatureParts_plain bs List.not_mem_nil]
      exact ⟨rfl, rfl, .inl ⟨rfl, rfl⟩⟩
    | plain signature noColon =>
      rw [signatureParts_plain bs noColon]
      exact ⟨rfl, rfl, .inr ⟨_, signature, rfl⟩⟩
  · rintro ⟨none_, -, written⟩
    rcases signatureParts_cases bs t with ⟨parts, colon⟩ | ⟨signature, attributes, -, -, -, parts⟩
    · rw [parts] at written
      rcases written with ⟨rfl, rfl⟩ | ⟨e', signature, rfl⟩
      · exact .bare
      · refine .plain signature (colon.resolve_right ?_)
        rintro ⟨rest, rfl⟩
        exact signature_starts signature rfl
    · rw [parts] at none_
      cases none_

theorem signatureText_attributes {t attributes : Bytes} {e : Option DataElement} :
    SignatureText bs t e (some attributes) ↔ attributes ≠ [] ∧ (signatureParts bs t).2 = some attributes ∧
      stateParseDataSignature bs (signatureParts bs t).1 = .ok ⟨none, e, none⟩ := by
  rw [stateParseDataSignature_iff]
  constructor
  · intro written
    cases written with
    | attributes signature noColon some_ =>
      have nonempty := List.ne_nil_of_length_pos (Nat.zero_lt_of_lt signature.length)
      rw [signatureParts_attributes bs noColon nonempty]
      exact ⟨some_, rfl, rfl, .inr ⟨_, signature, rfl⟩⟩
  · rintro ⟨some_, has, -, written⟩
    rcases signatureParts_cases bs t with ⟨parts, -⟩ | ⟨signature, attributes', nonempty, noColon, rfl, parts⟩
    · rw [parts] at has
      cases has
    · rw [parts] at has written
      cases has
      rcases written with ⟨rfl, -⟩ | ⟨e', signature, rfl⟩
      · exact absurd rfl nonempty
      · exact .attributes signature noColon some_

end

theorem makeName_ok {name : Bytes} {made : CString} :
    makeName name = .ok made ↔ name.length ≤ maxNameLen ∧ made = CString.ofBytes name := by
  rw [makeName]
  split
  · next long =>
    refine ⟨nofun, fun ⟨short, _⟩ => absurd short (Nat.not_le.mpr long)⟩
  · next short =>
    rw [Except.ok.injEq, eq_comm]
    exact (and_iff_right (Nat.not_lt.mp short)).symm

namespace ParseState
variable {setting : ParserSetting} {state state' : ParseState} {t : Bytes}

theorem parseI32_iff {bs : Bstr} {t rest : Bytes} {n : BitVec 32} : parseI32 bs t = some (n, rest) ↔
    ∃ text x, t = text ++ rest ∧ SignedText text x ∧ (∀ b ∈ rest.head?, isDigit b = false) ∧
      (-2 ^ 63 ≤ x ∧ x < 2 ^ 63) ∧ n = BitVec.ofInt 32 x := by
  simp only [parseI32, Option.map_eq_some_iff, Prod.exists, Prod.mk.injEq]
  constructor
  · rintro ⟨x, r, reads, rfl, rfl⟩
    obtain ⟨text, rfl, number, ends, fits⟩ := (bs.toLong_iff _ _ _).mp reads
    exact ⟨text, x, rfl, number, ends, fits, rfl⟩
  · rintro ⟨text, x, rfl, number, ends, fits, rfl⟩
    exact ⟨x, rest, (bs.toLong_iff _ _ _).mpr ⟨text, rfl, number, ends, fits⟩, rfl, rfl⟩

theorem acceptVersionLine_iff {bs : Bstr} : state.acceptVersionLine bs t = (none, state') ↔
    ∃ major minor, VersionLine t major minor ∧
      state' = { state with acceptNext := .node, majorVersion := major, minorVersion := minor } := by
  constructor
  · intro accepted
    rw [acceptVersionLine] at accepted
    split at accepted
    · cases accepted
    · next next word =>
      obtain rfl := (bs.matchCstr_iff _ _ _).mp word
      split at accepted
      · cases accepted
      · next major behind reads =>
        obtain ⟨text, x, rfl, number, -, fits, rfl⟩ := parseI32_iff.mp reads
        dsimp only at accepted
        split at accepted
        · cases accepted
        · next c next =>
          split at accepted
          · next dot =>
            obtain ⟨rfl, -⟩ := dot
            split at accepted
            · cases accepted
            · next minor behind reads =>
              split at accepted
              · next ends =>
                cases accepted
                subst ends
                obtain ⟨text', y, rfl, number', -, fits', rfl⟩ := parseI32_iff.mp reads
                rw [List.append_nil]
                exact ⟨_, _, .mk number number' fits fits', rfl⟩
              · cases accepted
          · cases accepted
  · rintro ⟨major, minor, line, rfl⟩
    cases line with
    | @mk major minor x y first second fits fits' =>
      have some_ : minor ≠ [] := by
        rcases second with ⟨digits, rfl, -⟩ | ⟨digits, -⟩
        · exact List.cons_ne_nil _ _
        · exact digits.1
      have word : bs.matchCstr ("APX/".toList.map ascii) ("APX/".toList.map ascii ++ (major ++ ascii '.' :: minor)) =
          some (major ++ ascii '.' :: minor) := (bs.matchCstr_iff _ _ _).mpr rfl
      have reads : parseI32 bs (major ++ ascii '.' :: minor) = some (BitVec.ofInt 32 x, ascii '.' :: minor) :=
        parseI32_iff.mpr ⟨major, x, rfl, first, fun b mem => by cases mem; decide, fits, rfl⟩
      have reads' : parseI32 bs minor = some (BitVec.ofInt 32 y, []) :=
        parseI32_iff.mpr ⟨minor, y, (List.append_nil minor).symm, second, (by rintro b ⟨⟩), fits', rfl⟩
      simp only [acceptVersionLine, word, reads, some_, reads', ne_eq, not_false_eq_true, and_self, if_true]

theorem acceptNodeDeclaration_iff {bs : Bstr} : state.acceptNodeDeclaration bs t = (none, state') ↔
    ∃ name, NodeLine t name ∧ state' = { state with acceptNext := .type, node := some { name := name } } := by
  constructor
  · intro accepted
    cases t with
    | nil => cases accepted
    | cons c next =>
      rw [acceptNodeDeclaration] at accepted
      split at accepted
      · next starts =>
        obtain ⟨rfl, -⟩ := starts
        split at accepted
        · cases accepted
        · next name behind literal =>
          obtain ⟨rfl, closed⟩ := (bs.matchPair_iff _ _ _).mp literal
          split at accepted
          · cases accepted
          · next made named =>
            obtain ⟨short, rfl⟩ := makeName_ok.mp named
            dsimp only at accepted
            split at accepted
            · next ends =>
              cases accepted
              subst ends
              exact ⟨_, .mk ⟨closed, short⟩, rfl⟩
            · cases accepted
      · cases accepted
  · rintro ⟨name, line, rfl⟩
    cases line with
    | mk named =>
      simp only [acceptNodeDeclaration, List.cons_ne_nil, ne_eq, not_false_eq_true, and_self, if_true,
        (bs.matchPair_iff _ _ _).mpr ⟨rfl, named.closed⟩, makeName_ok.mpr ⟨named.short, rfl⟩]

/-- A port is declared by exactly the lines of the grammar. -/
theorem acceptPortDeclaration_iff : state.acceptPortDeclaration setting t = .ok (none, state') ↔
    ∃ portType name e attr, PortLine setting.bs t portType name e attr ∧ state' = state.keepPort portType
      { name := name, dataElement := e, attributes := attr, lineNumber := state.lineno.toInt } := by
  constructor
  · intro accepted
    cases t with
    | nil => cases accepted
    | cons c next =>
      rw [acceptPortDeclaration] at accepted
      split at accepted
      · cases accepted
      · split at accepted
        · cases accepted
        · next portType letter =>
          split at accepted
          · cases accepted
          · next name behind literal =>
            obtain ⟨rfl, closed⟩ := (setting.bs.matchPair_iff _ _ _).mp literal
            split at accepted
            · cases accepted
            · next made named =>
              obtain ⟨short, rfl⟩ := makeName_ok.mp named
              have named : NameText name := ⟨closed, short⟩
              split at accepted
              · cases accepted
              · cases accepted
              · next e lastError signature =>
                obtain ⟨rfl, -⟩ := stateParseDataSignature_iff.mp signature
                split at accepted
                · next none_ =>
                  cases accepted
                  exact ⟨portType, _, e, none, .plain letter named (signatureText_plain.mpr ⟨none_, signature⟩), rfl⟩
                · cases accepted
                · next attributes some_ has =>
                  split at accepted
                  · cases accepted
                  · next attr written =>
                    cases accepted
                    exact ⟨portType, _, e, some attr, .attributes letter named
                      (signatureText_attributes.mpr ⟨some_, has, signature⟩)
                      ((stateParsePortAttributes_iff some_).mp written), rfl⟩
  · rintro ⟨portType, name, e, attr, line, rfl⟩
    cases line with
    | plain letter named signature =>
      obtain ⟨none_, signature⟩ := signatureText_plain.mp signature
      simp only [acceptPortDeclaration, List.cons_ne_nil, if_false, letter,
        (setting.bs.matchPair_iff _ _ _).mpr ⟨rfl, named.closed⟩, makeName_ok.mpr ⟨named.short, rfl⟩, signature, none_]
    | @attributes c name behind attributes portType e attr letter named signature written =>
      obtain ⟨some_, has, parsed⟩ := signatureText_attributes.mp signature
      have accepted := (@stateParsePortAttributes_iff _ (setting.lineEnd state.lineno) none _ _ some_).mpr written
      cases attributes with
      | nil => exact absurd rfl some_
      | cons b more =>
        simp only [acceptPortDeclaration, List.cons_ne_nil, if_false, letter,
          (setting.bs.matchPair_iff _ _ _).mpr ⟨rfl, named.closed⟩, makeName_ok.mpr ⟨named.short, rfl⟩, parsed, has,
          accepted]

/-- A type is declared by exactly the lines of the grammar, and lost in exactly those that say so. -/
theorem acceptTypeDeclaration_iff (some_ : state.node.isSome) :
    state.acceptTypeDeclaration setting t = .ok (none, state') ↔
      (∃ name e attr, TypeLine setting.bs setting.double t name e attr ∧ state' = state.keepDataType
        { name := name, dataElement := e, attributes := attr, lineNumber := state.lineno.toInt }) ∨
      LostTypeLine setting.bs setting.double t ∧ state' = state := by
  have isNode : ¬state.node.isNone = true := by
    rw [← Option.not_isSome, some_]
    decide
  have attributes_iff {t : Bytes} :=
    @stateParseTypeAttributes_iff setting.bs setting.double (setting.lineEnd state.lineno) none t
  constructor
  · intro accepted
    cases t with
    | nil => cases accepted
    | cons c next =>
      rw [acceptTypeDeclaration, if_neg isNode] at accepted
      split at accepted
      · next starts =>
        obtain ⟨rfl, -⟩ := starts
        split at accepted
        · cases accepted
        · next name behind literal =>
          obtain ⟨rfl, closed⟩ := (setting.bs.matchPair_iff _ _ _).mp literal
          split at accepted
          · cases accepted
          · next made named =>
            obtain ⟨short, rfl⟩ := makeName_ok.mp named
            have named : NameText name := ⟨closed, short⟩
            split at accepted
            · cases accepted
            · next code e lastError signature =>
              cases accepted
              obtain ⟨-, -, e', rest, written, some_⟩ := stateParseDataSignature_lost.mp signature
              refine .inr ⟨?_, rfl⟩
              rcases signatureParts_cases setting.bs behind with
                ⟨parts, colon⟩ | ⟨front, attributes, -, noColon, rfl, parts⟩
              · rw [parts] at written
                have noColon : ascii ':' ∉ behind := by
                  refine colon.resolve_right ?_
                  rintro ⟨tail, rfl⟩
                  exact signature_starts written rfl
                rw [← List.append_nil behind]
                exact .stray named written some_ noColon (.inl rfl)
              · rw [parts] at written
                exact .stray named written some_ noColon (.inr ⟨attributes, rfl⟩)
            · next e lastError signature =>
              obtain ⟨rfl, -⟩ := stateParseDataSignature_iff.mp signature
              split at accepted
              · next none_ =>
                cases accepted
                exact .inl ⟨_, e, none, .plain named (signatureText_plain.mpr ⟨none_, signature⟩), rfl⟩
              · cases accepted
              · next attributes some_ has =>
                have text := signatureText_attributes.mpr ⟨some_, has, signature⟩
                split at accepted
                · cases accepted
                · next error fails =>
                  cases accepted
                  refine .inr ⟨.attributes named text fun attr written => ?_, rfl⟩
                  rw [((attributes_iff some_).2 attr).mpr written] at fails
                  cases fails
                · next attr written =>
                  cases accepted
                  exact .inl ⟨_, e, some attr,
                    .attributes named text (((attributes_iff some_).2 attr).mp written), rfl⟩
      · cases accepted
  · rintro (⟨name, e, attr, line, rfl⟩ | ⟨line, rfl⟩)
    · cases line with
      | plain named signature =>
        obtain ⟨none_, signature⟩ := signatureText_plain.mp signature
        simp only [acceptTypeDeclaration, if_neg isNode, List.cons_ne_nil, ne_eq, not_false_eq_true, and_self, if_true,
          (setting.bs.matchPair_iff _ _ _).mpr ⟨rfl, named.closed⟩, makeName_ok.mpr ⟨named.short, rfl⟩, signature, none_]
      | @attributes name behind attributes e attr named signature written =>
        obtain ⟨some_, has, parsed⟩ := signatureText_attributes.mp signature
        have accepted := ((attributes_iff some_).2 attr).mpr written
        cases attributes with
        | nil => exact absurd rfl some_
        | cons b more =>
          simp only [acceptTypeDeclaration, if_neg isNode, List.cons_ne_nil, ne_eq, not_false_eq_true, and_self,
            if_true, (setting.bs.matchPair_iff _ _ _).mpr ⟨rfl, named.closed⟩, makeName_ok.mpr ⟨named.short, rfl⟩,
            parsed, has, accepted]
    · cases line with
      | @stray name signature tail rest e named written some_ noColon ends =>
        have nonempty := List.ne_nil_of_length_pos (Nat.zero_lt_of_lt written.length)
        have part : (signatureParts setting.bs (signature ++ tail)).1 = signature := by
          rcases ends with rfl | ⟨attributes, rfl⟩
          · rw [List.append_nil, signatureParts_plain _ noColon]
          · rw [signatureParts_attributes _ noColon nonempty]
        have parsed := stateParseDataSignature_lost.mpr ⟨rfl, rfl, e, rest, written, some_⟩
        simp only [acceptTypeDeclaration, if_neg isNode, List.cons_ne_nil, ne_eq, not_false_eq_true, and_self, if_true,
          (setting.bs.matchPair_iff _ _ _).mpr ⟨rfl, named.closed⟩, makeName_ok.mpr ⟨named.short, rfl⟩, part, parsed]
      | @attributes name behind attributes e named signature unread =>
        obtain ⟨some_, has, parsed⟩ := signatureText_attributes.mp signature
        obtain ⟨⟨answer, answers⟩, accepts⟩ := attributes_iff some_
        cases attributes with
        | nil => exact absurd rfl some_
        | cons b more =>
          cases answer with
          | ok attr => exact absurd ((accepts attr).mp answers) (unread attr)
          | error code =>
            simp only [acceptTypeDeclaration, if_neg isNode, List.cons_ne_nil, ne_eq, not_false_eq_true, and_self,
              if_true, (setting.bs.matchPair_iff _ _ _).mpr ⟨rfl, named.closed⟩, makeName_ok.mpr ⟨named.short, rfl⟩,
              parsed, has, answers]

end ParseState

end Apx
