import Apx.PortSignature

/-! The elements and the names of parsed ports: whether the text of an element is parsed back to it, and
whether signatures tell ports apart. -/

namespace Apx

open Bstr DataElement SignatureParser

variable {bs : Bstr}

theorem SignatureParser.accepts_iff_signature {t rest : Bytes} {e : DataElement} :
    Accepts bs t rest (some e) ↔ Signature bs 64 t e rest := by
  constructor
  · rintro ⟨self, returns, -, shorter, taken⟩
    rcases (classified bs t).1 with ⟨e', rest', signature⟩ | inner | rfl | rejects
    · have same := returns.symm.trans (parses_signature signature)
      obtain ⟨rests, rfl⟩ := Result.ok.inj same
      obtain rfl := Option.some.inj rests
      obtain rfl := Option.some.inj taken
      exact signature
    · rw [parseDataSignature_eq] at returns
      rcases openBrace_ends inner _ ⟨⟨false, none⟩, none, none⟩ t none (Nat.le_refl _) with
        ⟨-, ends⟩ | ⟨-, state, fails⟩
      · rw [ends] at returns
        obtain ⟨-, rfl⟩ := Result.ok.inj returns
        cases taken
      · rw [fails] at returns
        cases returns
    · exact absurd shorter (Nat.not_lt_zero _)
    · obtain ⟨self', code, rejected, -⟩ := rejects (2 * t.length) ⟨⟨false, none⟩, none, none⟩ t none (Nat.le_refl _)
      rw [← parseDataSignature_eq, returns] at rejected
      cases rejected
  · exact accepts_signature

theorem Signature.getName {width : Nat} {t rest : Bytes} {e : DataElement} (signature : Signature bs width t e rest) :
    e.getName = none := by
  cases signature <;> rfl

namespace DataElement

theorem withName_none {e : DataElement} (unnamed : e.getName = none) : e.withName none = e := by
  cases e <;> cases unnamed <;> rfl

theorem declared_of_parsable {e : DataElement} (parsable : e.Parsable) : e.Declared ∧ ¬e.HasReference := by
  induction e using tree_induction with
  | leaf name code n d limits =>
    refine ⟨⟨parsable.1, ?_⟩, id⟩
    intro l mem
    rw [limitsToString_eq (parsable.2.1 l mem).1.1]
    nofun
  | record name n d elements ih =>
    obtain ⟨-, parsable, -⟩ := parsable
    rw [Declared, HasReference]
    induction elements with
    | nil => exact ⟨trivial, id⟩
    | cons child more ihFields =>
      obtain ⟨declared, noReference⟩ := ih child List.mem_cons_self parsable.2.1
      obtain ⟨declaredMore, noReferences⟩ :=
        ihFields (fun other mem => ih other (List.mem_cons_of_mem _ mem)) parsable.2.2
      exact ⟨⟨declared, declaredMore⟩, not_or.mpr ⟨noReference, noReferences⟩⟩
  | refId => exact parsable.elim
  | refName => exact parsable.elim
  | refPtr => exact parsable.elim

theorem exists_toString (normalized : Bool) {e : DataElement} (parsable : e.Parsable) :
    ∃ text, e.toString normalized = some text := by
  obtain ⟨declared, noReference⟩ := declared_of_parsable parsable
  exact Option.ne_none_iff_exists'.mp (toString_declared normalized e declared noReference)

mutual

/-- The limits of all leaves in the tree are of one kind. -/
def LimitsAll (Q : LeafCode → Limits → Prop) : DataElement → Prop
  | .leaf _ code _ _ limits => ∀ l ∈ limits, Q code l
  | .record _ _ _ elements => LimitsAllFields Q elements
  | .refId .. => True
  | .refName .. => True
  | .refPtr .. => True

def LimitsAllFields (Q : LeafCode → Limits → Prop) : List DataElement → Prop
  | [] => True
  | child :: rest => LimitsAll Q child ∧ LimitsAllFields Q rest

end

theorem limitsAllFields_iff {Q : LeafCode → Limits → Prop} (elements : List DataElement) :
    LimitsAllFields Q elements ↔ ∀ child ∈ elements, child.LimitsAll Q := by
  induction elements with
  | nil => simp [LimitsAllFields]
  | cons child rest ih => rw [LimitsAllFields, ih, List.forall_mem_cons]

/-- The words of all limits in the tree are those of their types. -/
def LimitWordsAll (e : DataElement) : Prop :=
  e.LimitsAll fun code l => LimitWord code l.lower ∧ LimitWord code l.upper

theorem withoutByteLimitsFields_eq (elements : List DataElement) :
    withoutByteLimitsFields elements = elements.map withoutByteLimits := by
  induction elements with
  | nil => rfl
  | cons child rest ih => rw [withoutByteLimitsFields, ih, List.map_cons]

/-- A clone has lost the limits of its bytes, and nothing else. -/
theorem clone_of_limitWordsAll {e : DataElement} (words : e.LimitWordsAll) : e.clone = e.withoutByteLimits := by
  induction e using tree_induction with
  | leaf name code n d limits =>
    rw [clone, withoutByteLimits]
    cases limits with
    | none => simp
    | some l =>
      obtain ⟨⟨limitable, lower⟩, -, upper⟩ := words l rfl
      cases l
      cases code <;> first | contradiction | simp_all [Limits.clone]
  | record name n d elements ih =>
    rw [LimitWordsAll, LimitsAll, limitsAllFields_iff] at words
    rw [clone, withoutByteLimits, cloneAll_eq, withoutByteLimitsFields_eq]
    congr 1
    apply List.map_congr_left
    intro child mem
    exact ih child mem (words child mem)
  | refId => rfl
  | refName => rfl
  | refPtr => rfl

theorem limitWordsAll_of_parsable {e : DataElement} (parsable : e.Parsable) : e.LimitWordsAll := by
  induction e using tree_induction with
  | leaf name code n d limits => exact parsable.2.1
  | record name n d elements ih =>
    obtain ⟨-, parsable, -⟩ := parsable
    rw [LimitWordsAll, LimitsAll]
    induction elements with
    | nil => trivial
    | cons child more ihFields =>
      exact ⟨ih child List.mem_cons_self parsable.2.1,
        ihFields (fun other mem => ih other (List.mem_cons_of_mem _ mem)) parsable.2.2⟩
  | refId => trivial
  | refName => trivial
  | refPtr => trivial

theorem clone_of_parsable {e : DataElement} (parsable : e.Parsable) : e.clone = e.withoutByteLimits :=
  clone_of_limitWordsAll (limitWordsAll_of_parsable parsable)

theorem parsable_withoutByteLimits {e : DataElement} (parsable : e.Parsable) : e.withoutByteLimits.Parsable := by
  induction e using tree_induction with
  | leaf name code n d limits =>
    obtain ⟨known, words, positive⟩ := parsable
    refine ⟨known, ?_, positive⟩
    split
    · next isByte =>
      subst isByte
      intro l mem
      obtain ⟨l', -, rfl⟩ := Option.map_eq_some_iff.mp mem
      exact ⟨⟨rfl, fun _ => rfl⟩, rfl, fun _ => rfl⟩
    · exact words
  | record name n d elements ih =>
    obtain ⟨nonempty, parsable, positive⟩ := parsable
    have fields : ParsableFields (withoutByteLimitsFields elements) := by
      clear nonempty
      induction elements with
      | nil => trivial
      | cons child more ihFields =>
        refine ⟨?_, ih child List.mem_cons_self parsable.2.1,
          ihFields (fun other mem => ih other (List.mem_cons_of_mem _ mem)) parsable.2.2⟩
        rw [getName_withoutByteLimits]
        exact parsable.1
    refine ⟨?_, fields, positive⟩
    cases elements with
    | nil => exact absurd rfl nonempty
    | cons => nofun
  | refId => exact parsable.elim
  | refName => exact parsable.elim
  | refPtr => exact parsable.elim

theorem namesClosed_withoutByteLimits {e : DataElement} (closed : e.NamesClosed) :
    e.withoutByteLimits.NamesClosed := by
  induction e using tree_induction with
  | record name n d elements ih =>
    have fields : NamesClosedFields (withoutByteLimitsFields elements) := by
      induction elements with
      | nil => trivial
      | cons child more ihFields =>
        refine ⟨?_, ih child List.mem_cons_self closed.2.1,
          ihFields (fun other mem => ih other (List.mem_cons_of_mem _ mem)) closed.2.2⟩
        rw [getName_withoutByteLimits]
        exact closed.1
    exact fields
  | leaf => trivial
  | refId => trivial
  | refName => trivial
  | refPtr => trivial

/-- The normalized text does not tell the maximum lengths. -/
theorem toString_withoutMaxima {e : DataElement} (positive : e.DynamicPositive) :
    e.withoutMaxima.toString true = e.toString true := by
  have array {n : UInt32} {d : Bool} (positive : d = true → n ≠ 0) :
      arrayToString true (if d then 1 else n).toNat d = arrayToString true n.toNat d := by
    cases d with
    | false => rfl
    | true =>
      have nonzero : n.toNat ≠ 0 := fun zero => positive rfl (UInt32.toNat.inj zero)
      rw [arrayToString, arrayToString, if_neg nonzero]
      rfl
  induction e using tree_induction with
  | leaf name code n d limits =>
    rw [withoutMaxima, toString, toString, array positive]
  | record name n d elements ih =>
    have fields : fieldsToString true (withoutMaximaFields elements) = fieldsToString true elements := by
      obtain ⟨-, positive⟩ := positive
      induction elements with
      | nil => rfl
      | cons child more ihFields =>
        rw [withoutMaximaFields, fieldsToString, fieldsToString, ih child List.mem_cons_self positive.1,
          ihFields (fun other mem => ih other (List.mem_cons_of_mem _ mem)) positive.2, getName_withoutMaxima]
    rw [withoutMaxima, toString, toString, fields, array positive.1]
  | refId => rfl
  | refName => rfl
  | refPtr => rfl

theorem dynamicPositive_of_parsable {e : DataElement} (parsable : e.Parsable) : e.DynamicPositive := by
  induction e using tree_induction with
  | leaf => exact parsable.2.2
  | record name n d elements ih =>
    obtain ⟨-, parsable, positive⟩ := parsable
    refine ⟨positive, ?_⟩
    induction elements with
    | nil => trivial
    | cons child more ihFields =>
      exact ⟨ih child List.mem_cons_self parsable.2.1,
        ihFields (fun other mem => ih other (List.mem_cons_of_mem _ mem)) parsable.2.2⟩
  | refId => exact parsable.elim
  | refName => exact parsable.elim
  | refPtr => exact parsable.elim

end DataElement

/-- A port as the parsers make it from a declaration without type references: a name out of quotes and an
element that the signature parser has returned, with a length for every dynamic array -/
structure ParsedPort (bs : Bstr) where
  name : CString
  element : DataElement
  named : ∃ text, Closed text ∧ name = CString.ofBytes text
  parsed : ∃ t rest, Accepts bs t rest (some element)
  noReference : ¬element.HasReference
  positive : element.DynamicPositive

/-- The parser takes the whole text of the element and makes an equal element of it. -/
def RoundTrips (bs : Bstr) (e : DataElement) : Prop :=
  ∃ text, e.toString false = some text ∧ Accepts bs text [] (some e)

namespace ParsedPort

/-- The signature of an instance of the port: that of its effective element -/
def signature (port : ParsedPort bs) : Option Bytes :=
  match port.element.flatten with
  | .ok effective => portSignature port.name.bytes effective
  | .error _ => none

theorem parsable (port : ParsedPort bs) : port.element.Parsable := by
  obtain ⟨t, rest, accepts⟩ := port.parsed
  exact parsable_of_signature (accepts_iff_signature.mp accepts) port.noReference port.positive

theorem unnamed (port : ParsedPort bs) : port.element.getName = none := by
  obtain ⟨t, rest, accepts⟩ := port.parsed
  exact (accepts_iff_signature.mp accepts).getName

/-- The text of the element comes back as the element exactly when the names in it can stand between
quotes. -/
theorem roundTrips_iff (port : ParsedPort bs) : RoundTrips bs port.element ↔ port.element.NamesClosed := by
  constructor
  · rintro ⟨text, written, accepts⟩
    exact namesClosed_of_noZero (accepts_iff_signature.mp accepts) (noZero_toString port.parsable written)
  · intro closed
    obtain ⟨text, written⟩ := exists_toString false port.parsable
    have signature := @signature_toString bs _ port.parsable closed _ written [] ⟨nofun, nofun⟩
    rw [List.append_nil, withName_none port.unnamed] at signature
    exact ⟨text, written, accepts_signature (signature.mono (by omega))⟩

theorem signature_eq (port : ParsedPort bs) :
    port.signature = portSignature port.name.bytes port.element.withoutByteLimits := by
  rw [signature, flatten_of_no_reference port.noReference]
  dsimp only
  rw [clone_of_parsable port.parsable]

theorem names_unique (p q : ParsedPort bs) {text text' : Bytes} (reads : Reads text .outside .outside)
    (reads' : Reads text' .outside .outside)
    (same : p.name.bytes ++ quote :: text = q.name.bytes ++ quote :: text') : p.name = q.name ∧ text = text' := by
  -- how a text behind a name is read, from the beginning of the name on
  have whole {name text : Bytes} (closed : Closed name) (reads : Reads text .outside .outside) :
      Reads (name ++ quote :: text) .inside .outside := (Reads.closed closed).append (Reads.cons rfl reads)
  have cut {front text : Bytes} (closed : Closed front) (reads : Reads text .outside .outside) :
      ¬Reads (front ++ [backslash] ++ quote :: text) .inside .outside := by
    intro whole
    rw [List.append_assoc] at whole
    have escaped : Reads (backslash :: quote :: text) .inside .outside := (Reads.closed closed).behind whole
    have behind : Reads text .inside .outside := escaped
    rcases reads.opposite behind with ⟨-, impossible⟩ | ⟨impossible, -⟩
    · contradiction
    · contradiction
  obtain ⟨declared, closed, named⟩ := p.named
  obtain ⟨declared', closed', named'⟩ := q.named
  rcases closed_cut closed with first | ⟨front, first, cutName⟩
  · rcases closed_cut closed' with second | ⟨front', second, cutName'⟩
    · rw [← named] at first
      rw [← named'] at second
      obtain ⟨names, texts⟩ := closed_unique first second same
      exact ⟨CString.eq_of_bytes names, texts⟩
    · rw [← named] at first
      rw [← named'] at cutName'
      rw [cutName'] at same
      exact absurd (same ▸ whole first reads) (cut second reads')
  · rcases closed_cut closed' with second | ⟨front', second, cutName'⟩
    · rw [← named'] at second
      rw [← named] at cutName
      rw [cutName] at same
      exact absurd (same ▸ whole second reads') (cut first reads)
    · rw [← named] at cutName
      rw [← named'] at cutName'
      rw [cutName, cutName', List.append_assoc, List.append_assoc] at same
      obtain ⟨fronts, texts⟩ := cut_unique first second reads reads' same
      exact ⟨CString.eq_of_bytes (by rw [cutName, cutName', fronts]), texts⟩

/-- What is promised of two ports: the texts of their elements are parsed back to them, and their signatures
are equal if and only if their names are, and their elements up to the maximum lengths of dynamic arrays. -/
def SignaturesFaithful (p q : ParsedPort bs) : Prop :=
  RoundTrips bs p.element ∧ RoundTrips bs q.element ∧
    (p.signature = q.signature ↔ p.name = q.name ∧ p.element.withoutMaxima = q.element.withoutMaxima)

/-- Two ports of one name that differ in no more than the limits of bytes (and maximum lengths) do not
differ in those. -/
def ByteLimitsAgree (p q : ParsedPort bs) : Prop :=
  p.name = q.name → p.element.withoutByteLimits.withoutMaxima = q.element.withoutByteLimits.withoutMaxima →
    p.element.withoutMaxima = q.element.withoutMaxima

/-- Signatures tell names and elements apart, up to maximum lengths and the limits of bytes. -/
theorem signature_eq_iff (p q : ParsedPort bs) (closed : p.element.NamesClosed) (closed' : q.element.NamesClosed) :
    p.signature = q.signature ↔ p.name = q.name ∧
      p.element.withoutByteLimits.withoutMaxima = q.element.withoutByteLimits.withoutMaxima := by
  have parsable := parsable_withoutByteLimits p.parsable
  have parsable' := parsable_withoutByteLimits q.parsable
  have closed := namesClosed_withoutByteLimits closed
  have closed' := namesClosed_withoutByteLimits closed'
  have unnamed : p.element.withoutByteLimits.getName = none := (getName_withoutByteLimits _).trans p.unnamed
  have unnamed' : q.element.withoutByteLimits.getName = none := (getName_withoutByteLimits _).trans q.unnamed
  obtain ⟨text, written⟩ := exists_toString true parsable
  obtain ⟨text', written'⟩ := exists_toString true parsable'
  rw [signature_eq, signature_eq]
  constructor
  · intro same
    rw [portSignature, portSignature, written, written'] at same
    have bytes := Option.some.inj same
    simp only [quoted, List.cons_append, List.append_assoc, List.nil_append, List.cons.injEq, true_and] at bytes
    obtain ⟨names, texts⟩ := names_unique p q (reads_toString parsable closed written)
      (reads_toString parsable' closed' written') bytes
    have ends : NoSuffix [] := by
      constructor
      · intro mem
        cases mem
      · intro mem
        cases mem
    obtain ⟨elements, -⟩ := toString_injective parsable parsable' closed closed' written written' ends ends
      (by rw [List.append_nil, List.append_nil, texts])
    rw [withName_none unnamed, withName_none unnamed'] at elements
    exact ⟨names, elements⟩
  · rintro ⟨names, elements⟩
    rw [portSignature, portSignature, names, ← toString_withoutMaxima (dynamicPositive_of_parsable parsable),
      elements, toString_withoutMaxima (dynamicPositive_of_parsable parsable')]

theorem withoutMaxima_withoutByteLimits (e : DataElement) :
    e.withoutByteLimits.withoutMaxima = e.withoutMaxima.withoutByteLimits := by
  induction e using tree_induction with
  | record name n d elements ih =>
    rw [withoutByteLimits, withoutMaxima, withoutMaxima, withoutByteLimits]
    congr 1
    induction elements with
    | nil => rfl
    | cons child more ihFields =>
      rw [withoutByteLimitsFields, withoutMaximaFields, withoutMaximaFields, withoutByteLimitsFields,
        ih child List.mem_cons_self, ihFields fun other mem => ih other (List.mem_cons_of_mem _ mem)]
  | leaf => rfl
  | refId => rfl
  | refName => rfl
  | refPtr => rfl

/-- The promise is kept for exactly the pairs of ports whose field names can stand between quotes and that do
not clash in the limits of bytes. -/
theorem signaturesFaithful_iff (p q : ParsedPort bs) :
    SignaturesFaithful p q ↔
      p.element.NamesClosed ∧ q.element.NamesClosed ∧ ByteLimitsAgree p q := by
  rw [SignaturesFaithful, roundTrips_iff, roundTrips_iff]
  refine and_congr_right fun closed => and_congr_right fun closed' => ?_
  rw [signature_eq_iff p q closed closed', ByteLimitsAgree]
  constructor
  · intro same names elements
    exact (same.mp ⟨names, elements⟩).2
  · intro agree
    refine and_congr_right fun names => ⟨agree names, fun elements => ?_⟩
    rw [withoutMaxima_withoutByteLimits, withoutMaxima_withoutByteLimits, elements]

/-- The port P"p"B(lower,upper), with limits of one digit -/
def byteInRange (lower upper : Fin 10) : ParsedPort Bstr.asciiLibrary where
  name := ⟨[ascii 'p'], by decide⟩
  element := .leaf none .byte 0 false (some ⟨lower.val, upper.val⟩)
  named := ⟨[ascii 'p'], by decide, by decide⟩
  parsed := by
    have narrow (x : Fin 10) : ((BitVec.ofNat 64 x.val).setWidth 32).setWidth 64 = BitVec.ofNat 64 x.val := by
      revert x
      decide
    have words : LimitWords .byte (some ⟨lower.val, upper.val⟩) := by
      intro l mem
      obtain rfl := Option.some.inj mem
      exact ⟨⟨rfl, fun _ => narrow lower⟩, rfl, fun _ => narrow upper⟩
    have parsable : (DataElement.leaf none .byte 0 false (some ⟨lower.val, upper.val⟩)).Parsable :=
      ⟨nofun, words, nofun⟩
    obtain ⟨text, written⟩ := exists_toString false parsable
    have signature := @signature_toString Bstr.asciiLibrary _ parsable trivial _ written []
      ⟨nofun, nofun⟩
    exact ⟨text ++ [], [], accepts_signature (signature.mono (by omega))⟩
  noReference := id
  positive := nofun

/-- The ports P"p"B(1,5) and P"p"B(2,6) have one signature. -/
theorem not_signaturesFaithful : ¬SignaturesFaithful (byteInRange 1 5) (byteInRange 2 6) := by
  rintro ⟨-, -, signatures⟩
  have same := (signatures.mp rfl).2
  exact absurd (DataElement.leaf.inj same).2.2.2.2 (by decide)

end ParsedPort

end Apx
