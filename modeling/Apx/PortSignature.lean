import Apx.SignatureRoundTrip

/-! When two ports have the same signature. -/

namespace Apx

open Bstr

namespace DataElement

mutual

/-- The element with no maximum length for its dynamic arrays, that is with one length for all of them -/
def withoutMaxima : DataElement → DataElement
  | .leaf name code n d limits => .leaf name code (if d then 1 else n) d limits
  | .record name n d elements => .record name (if d then 1 else n) d (withoutMaximaFields elements)
  | .refId name n d id => .refId name (if d then 1 else n) d id
  | .refName name n d typeName => .refName name (if d then 1 else n) d typeName
  | .refPtr name n d target => .refPtr name (if d then 1 else n) d target

def withoutMaximaFields : List DataElement → List DataElement
  | [] => []
  | child :: rest => withoutMaxima child :: withoutMaximaFields rest

end

mutual

/-- The element with one pair of limits for all bytes that have limits -/
def withoutByteLimits : DataElement → DataElement
  | .leaf name code n d limits => .leaf name code n d (if code = .byte then limits.map fun _ => ⟨0, 0⟩ else limits)
  | .record name n d elements => .record name n d (withoutByteLimitsFields elements)
  | .refId name n d id => .refId name n d id
  | .refName name n d typeName => .refName name n d typeName
  | .refPtr name n d target => .refPtr name n d target

def withoutByteLimitsFields : List DataElement → List DataElement
  | [] => []
  | child :: rest => withoutByteLimits child :: withoutByteLimitsFields rest

end

theorem getName_withoutMaxima (e : DataElement) : e.withoutMaxima.getName = e.getName := by
  cases e <;> rfl

theorem getName_withoutByteLimits (e : DataElement) : e.withoutByteLimits.getName = e.getName := by
  cases e <;> rfl

theorem withName_withoutMaxima (name : Option CString) (e : DataElement) :
    (e.withName name).withoutMaxima = e.withoutMaxima.withName name := by
  cases e <;> rfl

/-- Two elements of one name that differ in no more than their names are equal. -/
theorem eq_of_withName {e e' : DataElement} (named : e.getName = e'.getName)
    (same : e.withName none = e'.withName none) : e = e' := by
  cases e <;> cases e' <;> simp_all [withName, getName]

/-! The texts of suffixes tell them apart. -/

variable {rest rest' : Bytes}

theorem unique_before {c : Byte} {s s' : Bytes} (no : c ∉ s) (no' : c ∉ s')
    (same : s ++ c :: rest = s' ++ c :: rest') : s = s' ∧ rest = rest' := by
  have others {s : Bytes} (no : c ∉ s) : ∀ b ∈ s, (b != c) = true := by
    intro b mem
    simpa using fun h : b = c => no (h ▸ mem)
  have ends (rest : Bytes) : ∀ b ∈ (c :: rest).head?, (b != c) = false := by
    intro b mem
    obtain rfl := Option.some.inj mem
    simp
  obtain ⟨take, drop⟩ := takeWhile_append_of (others no) (ends rest)
  obtain ⟨take', drop'⟩ := takeWhile_append_of (others no') (ends rest')
  rw [same] at take drop
  have tails := drop.symm.trans drop'
  exact ⟨take.symm.trans take', (List.cons.inj tails).2⟩

/-- A number does not begin with any other byte than a digit or a minus sign. -/
theorem number_head {number : Bytes} {c : Byte}
    (start : ∃ b rest, number = b :: rest ∧ (isDigit b = true ∨ b = ascii '-')) (other : isDigit c = false)
    (noMinus : c ≠ ascii '-') (rest rest' : Bytes) : number ++ rest ≠ c :: rest' := by
  obtain ⟨b, tail, rfl, start⟩ := start
  intro same
  obtain ⟨rfl, -⟩ := List.cons.inj same
  rcases start with digit | minus
  · rw [other] at digit
    contradiction
  · exact noMinus minus

theorem arrayToString_cases (n : UInt32) (d : Bool) (positive : d = true → n ≠ 0) :
    (n = 0 ∧ d = false ∧ arrayToString true n.toNat d = []) ∨
    (n ≠ 0 ∧ d = false ∧ arrayToString true n.toNat d = ascii '[' :: (decimal n.toNat ++ [ascii ']'])) ∨
    (d = true ∧ arrayToString true n.toNat d = [ascii '[', ascii '*', ascii ']']) := by
  have nonzero (other : n ≠ 0) : n.toNat ≠ 0 := fun zero => other (UInt32.toNat.inj zero)
  cases d with
  | true => exact .inr (.inr ⟨rfl, by rw [arrayToString, if_neg (nonzero (positive rfl)), if_pos ⟨rfl, rfl⟩]⟩)
  | false =>
    by_cases zero : n = 0
    · subst zero
      exact .inl ⟨rfl, rfl, rfl⟩
    · refine .inr (.inl ⟨zero, rfl, ?_⟩)
      rw [arrayToString, if_neg (nonzero zero)]
      rfl

theorem arrayToString_injective {n n' : UInt32} {d d' : Bool} (positive : d = true → n ≠ 0)
    (positive' : d' = true → n' ≠ 0) (follow : NoSuffix rest) (follow' : NoSuffix rest')
    (same : arrayToString true n.toNat d ++ rest = arrayToString true n'.toNat d' ++ rest') :
    (if d then 1 else n) = (if d' then 1 else n') ∧ d = d' ∧ rest = rest' := by
  rcases arrayToString_cases n d positive with ⟨rfl, rfl, text⟩ | ⟨nonzero, rfl, text⟩ | ⟨rfl, text⟩
  · rcases arrayToString_cases n' d' positive' with ⟨rfl, rfl, -⟩ | ⟨-, rfl, text'⟩ | ⟨rfl, text'⟩
    · rw [text] at same
      exact ⟨rfl, rfl, same⟩
    · rw [text, text'] at same
      exact absurd (congrArg List.head? same) follow.1
    · rw [text, text'] at same
      exact absurd (congrArg List.head? same) follow.1
  · rcases arrayToString_cases n' d' positive' with ⟨rfl, rfl, text'⟩ | ⟨-, rfl, text'⟩ | ⟨rfl, text'⟩
    · rw [text, text'] at same
      exact absurd (congrArg List.head? same).symm follow'.1
    · rw [text, text', List.cons_append, List.cons_append, List.append_assoc, List.append_assoc] at same
      obtain ⟨numbers, tails⟩ := unique_before (not_mem_decimal (by decide) _) (not_mem_decimal (by decide) _)
        (List.cons.inj same).2
      exact ⟨UInt32.toNat.inj (decimal_injective numbers), rfl, tails⟩
    · rw [text, text', List.cons_append, List.append_assoc] at same
      exact absurd (List.cons.inj same).2
        (number_head (digits_start (digits_decimal _)) (by decide) (by decide) _ _)
  · rcases arrayToString_cases n' d' positive' with ⟨rfl, rfl, text'⟩ | ⟨-, rfl, text'⟩ | ⟨rfl, text'⟩
    · rw [text, text'] at same
      exact absurd (congrArg List.head? same).symm follow'.1
    · rw [text, text', @List.cons_append _ _ (decimal _ ++ _), List.append_assoc] at same
      exact absurd (List.cons.inj same).2.symm
        (number_head (digits_start (digits_decimal _)) (by decide) (by decide) _ _)
    · rw [text, text'] at same
      exact ⟨rfl, rfl, List.append_cancel_left same⟩

theorem limitText_injective {code : LeafCode} {word word' : BitVec 64} (is : LimitWord code word)
    (is' : LimitWord code word') (same : limitText code word = limitText code word') : word = word' := by
  obtain ⟨number, numeral, -⟩ := SignatureParser.parseLimitsOf_limitable Bstr.asciiLibrary is.1
  have read := @numeral.complete _ [] _ ((limitNumber_limitText is).mono (by omega)) nofun
  have read' := @numeral.complete _ [] _ ((limitNumber_limitText is').mono (by omega)) nofun
  rw [same, read'] at read
  exact (Prod.mk.inj (Option.some.inj read)).1.symm

theorem not_mem_limitText {c : Byte} (other : isDigit c = false) (noMinus : c ≠ ascii '-') (code : LeafCode)
    (word : BitVec 64) : c ∉ limitText code word := by
  cases code with
  | int8 => exact not_mem_signedDecimal other noMinus _
  | int16 => exact not_mem_signedDecimal other noMinus _
  | int32 => exact not_mem_signedDecimal other noMinus _
  | int64 => exact not_mem_signedDecimal other noMinus _
  | _ => exact not_mem_decimal other _

def limitsText (code : LeafCode) (limits : Option Limits) : Bytes :=
  match limits with
  | none => []
  | some limits => limitPair (limitText code limits.lower) (limitText code limits.upper)

def LimitWords (code : LeafCode) (limits : Option Limits) : Prop :=
  ∀ l ∈ limits, LimitWord code l.lower ∧ LimitWord code l.upper

theorem limitsText_injective {code : LeafCode} {limits limits' : Option Limits} (words : LimitWords code limits)
    (words' : LimitWords code limits') (follow : rest.head? ≠ some (ascii '('))
    (follow' : rest'.head? ≠ some (ascii '('))
    (same : limitsText code limits ++ rest = limitsText code limits' ++ rest') :
    limits = limits' ∧ rest = rest' := by
  cases limits with
  | none =>
    cases limits' with
    | none => exact ⟨rfl, same⟩
    | some l' => exact absurd (congrArg List.head? same) follow
  | some l =>
    cases limits' with
    | none => exact absurd (congrArg List.head? same).symm follow'
    | some l' =>
      obtain ⟨lower, upper⟩ := words l rfl
      obtain ⟨lower', upper'⟩ := words' l' rfl
      simp only [limitsText, limitPair, List.cons_append, List.append_assoc, List.nil_append, List.cons.injEq,
        true_and] at same
      obtain ⟨first, same⟩ := unique_before (not_mem_limitText (by decide) (by decide) _ _)
        (not_mem_limitText (by decide) (by decide) _ _) same
      obtain ⟨second, same⟩ := unique_before (not_mem_limitText (by decide) (by decide) _ _)
        (not_mem_limitText (by decide) (by decide) _ _) same
      have lowers := limitText_injective lower lower' first
      have uppers := limitText_injective upper upper' second
      refine ⟨?_, same⟩
      cases l
      cases l'
      simp_all

theorem toString_leaf (normalized : Bool) {name : Option CString} {code : LeafCode} {n : UInt32} {d : Bool}
    {limits : Option Limits} (words : LimitWords code limits) {letter : Byte}
    (type : typeLetter code = some letter) :
    toString normalized (.leaf name code n d limits) =
      some (letter :: (limitsText code limits ++ arrayToString normalized n.toNat d)) := by
  rw [toString, type]
  cases limits with
  | none => rfl
  | some limits =>
    simp only [limitsToString_eq (words limits rfl).1.1]
    rfl

/-- The texts of fields up to the brace tell the fields apart, when the texts of the elements do. -/
theorem fieldsToString_injective {elements elements' : List DataElement}
    (each : ∀ child ∈ elements, ∀ (child' : DataElement) (text text' rest rest' : Bytes),
      child.Parsable → child'.Parsable → child.NamesClosed → child'.NamesClosed →
      child.toString true = some text → child'.toString true = some text' → NoSuffix rest → NoSuffix rest' →
      text ++ rest = text' ++ rest' →
      (child.withName none).withoutMaxima = (child'.withName none).withoutMaxima ∧ rest = rest')
    (parsable : ParsableFields elements) (parsable' : ParsableFields elements')
    (closed : NamesClosedFields elements) (closed' : NamesClosedFields elements') {text text' : Bytes}
    (written : fieldsToString true elements = some text)
    (written' : fieldsToString true elements' = some text')
    (same : text ++ ascii '}' :: rest = text' ++ ascii '}' :: rest') :
    withoutMaximaFields elements = withoutMaximaFields elements' ∧ rest = rest' := by
  induction elements generalizing elements' text text' with
  | nil =>
    obtain rfl := Option.some.inj written
    cases elements' with
    | nil =>
      obtain rfl := Option.some.inj written'
      exact ⟨rfl, (List.cons.inj same).2⟩
    | cons child' more' =>
      obtain ⟨tail, rfl⟩ := fieldsToString_starts written'
      exact absurd (List.cons.inj same).1 (by decide)
  | cons child more ih =>
    cases elements' with
    | nil =>
      obtain rfl := Option.some.inj written'
      obtain ⟨tail, rfl⟩ := fieldsToString_starts written
      exact absurd (List.cons.inj same).1 (by decide)
    | cons child' more' =>
      obtain ⟨name, childText, moreText, named, writtenChild, writtenMore, rfl⟩ := fieldsToString_cons parsable written
      obtain ⟨name', childText', moreText', named', writtenChild', writtenMore', rfl⟩ :=
        fieldsToString_cons parsable' written'
      simp only [List.cons_append, List.append_assoc, List.cons.injEq, true_and] at same
      obtain ⟨names, same⟩ := closed_unique (closed.1 _ named) (closed'.1 _ named') same
      obtain ⟨elements, same⟩ := each child List.mem_cons_self child' _ _ _ _ parsable.2.1 parsable'.2.1
        closed.2.1 closed'.2.1 writtenChild writtenChild' (noSuffix_behind writtenMore _)
        (noSuffix_behind writtenMore' _) same
      obtain ⟨others, same⟩ := ih (fun other mem => each other (List.mem_cons_of_mem _ mem)) parsable.2.2
        parsable'.2.2 closed.2.2 closed'.2.2 writtenMore writtenMore' same
      refine ⟨?_, same⟩
      rw [withoutMaximaFields, withoutMaximaFields, others]
      congr 1
      apply eq_of_withName
      · rw [getName_withoutMaxima, getName_withoutMaxima, named, named', CString.eq_of_bytes names]
      · rw [← withName_withoutMaxima, ← withName_withoutMaxima]
        exact elements

theorem typeLetter_injective {code code' : LeafCode} {letter : Byte} (type : typeLetter code = some letter)
    (type' : typeLetter code' = some letter) : code = code' := by
  have same := (SignatureParser.token_of_typeLetter type).symm.trans (SignatureParser.token_of_typeLetter type')
  exact SignatureParser.Token.leaf.inj same

theorem typeLetter_ne_brace {code : LeafCode} : typeLetter code ≠ some (ascii '{') := by
  cases code <;> decide

/-- In front of texts that begin no suffix, the texts of two elements are equal only if the elements are, up
to their names and the maximum lengths of dynamic arrays. -/
theorem toString_injective {e e' : DataElement} (parsable : e.Parsable) (parsable' : e'.Parsable)
    (closed : e.NamesClosed) (closed' : e'.NamesClosed) {text text' rest rest' : Bytes}
    (written : e.toString true = some text) (written' : e'.toString true = some text') (follow : NoSuffix rest)
    (follow' : NoSuffix rest') (same : text ++ rest = text' ++ rest') :
    (e.withName none).withoutMaxima = (e'.withName none).withoutMaxima ∧ rest = rest' := by
  induction e using tree_induction generalizing e' text text' rest rest' with
  | leaf name code n d limits =>
    obtain ⟨known, words, positive⟩ := parsable
    obtain ⟨letter, type⟩ := Option.ne_none_iff_exists'.mp (typeLetter_ne_none known)
    rw [toString_leaf true words type] at written
    obtain rfl := Option.some.inj written
    cases e' with
    | leaf name' code' n' d' limits' =>
      obtain ⟨known', words', positive'⟩ := parsable'
      obtain ⟨letter', type'⟩ := Option.ne_none_iff_exists'.mp (typeLetter_ne_none known')
      rw [toString_leaf true words' type'] at written'
      obtain rfl := Option.some.inj written'
      simp only [List.cons_append, List.append_assoc, List.cons.injEq] at same
      obtain ⟨rfl, tails⟩ := same
      obtain rfl := typeLetter_injective type type'
      obtain ⟨rfl, arrays⟩ := limitsText_injective words words' (limits_follow follow) (limits_follow follow') tails
      obtain ⟨lengths, rfl, ends⟩ := arrayToString_injective positive positive' follow follow' arrays
      refine ⟨?_, ends⟩
      simp only [withName, withoutMaxima, lengths]
    | record name' n' d' elements' =>
      rw [toString] at written'
      split at written'
      · contradiction
      · obtain rfl := Option.some.inj written'
        obtain ⟨rfl, -⟩ := List.cons.inj same
        exact absurd type typeLetter_ne_brace
    | refId => exact parsable'.elim
    | refName => exact parsable'.elim
    | refPtr => exact parsable'.elim
  | record name n d elements ih =>
    obtain ⟨-, parsable, positive⟩ := parsable
    rw [toString] at written
    split at written
    · contradiction
    · next fieldsText writtenFields =>
      obtain rfl := Option.some.inj written
      cases e' with
      | leaf name' code' n' d' limits' =>
        obtain ⟨known', words', positive'⟩ := parsable'
        obtain ⟨letter', type'⟩ := Option.ne_none_iff_exists'.mp (typeLetter_ne_none known')
        rw [toString_leaf true words' type'] at written'
        obtain rfl := Option.some.inj written'
        obtain ⟨rfl, -⟩ := List.cons.inj same
        exact absurd type' typeLetter_ne_brace
      | record name' n' d' elements' =>
        obtain ⟨-, parsable', positive'⟩ := parsable'
        rw [toString] at written'
        split at written'
        · contradiction
        · next fieldsText' writtenFields' =>
          obtain rfl := Option.some.inj written'
          rw [List.cons_append, List.cons_append, List.append_assoc, List.append_assoc] at same
          obtain ⟨fields, arrays⟩ := fieldsToString_injective
            (fun child mem _ _ _ _ _ parsable parsable' closed closed' written written' follow follow' same =>
              ih child mem parsable parsable' closed closed' written written' follow follow' same)
            parsable parsable' closed closed' writtenFields writtenFields' (List.cons.inj same).2
          obtain ⟨lengths, rfl, ends⟩ := arrayToString_injective positive positive' follow follow' arrays
          refine ⟨?_, ends⟩
          simp only [withName, withoutMaxima, lengths, fields]
      | refId => exact parsable'.elim
      | refName => exact parsable'.elim
      | refPtr => exact parsable'.elim
  | refId => exact parsable.elim
  | refName => exact parsable.elim
  | refPtr => exact parsable.elim

/-! What stands in a text -/

/-- The bytes of suffixes that are no digits -/
def marks : Bytes := "-(),[]*".toList.map ascii

theorem not_mem_limitsText {c : Byte} (other : isDigit c = false) (noMark : c ∉ marks) (code : LeafCode)
    (limits : Option Limits) : c ∉ limitsText code limits := by
  have differs {b : Byte} (mark : b ∈ marks) : c ≠ b := fun same => noMark (same ▸ mark)
  have number (word : BitVec 64) : c ∉ limitText code word :=
    not_mem_limitText other (differs (by decide)) code word
  cases limits with
  | none => exact List.not_mem_nil
  | some limits =>
    simp only [limitsText, limitPair, List.mem_cons, List.mem_append, List.not_mem_nil, or_false, not_or]
    exact ⟨differs (by decide), number _, differs (by decide), number _, differs (by decide)⟩

theorem not_mem_arrayToString {c : Byte} (other : isDigit c = false) (noMark : c ∉ marks) (normalized : Bool)
    (n : Nat) (d : Bool) : c ∉ arrayToString normalized n d := by
  have differs {b : Byte} (mark : b ∈ marks) : c ≠ b := fun same => noMark (same ▸ mark)
  have star : c ≠ ascii '*' := differs (by decide)
  have closes : c ≠ ascii ']' := differs (by decide)
  have opens : c ≠ ascii '[' := differs (by decide)
  have number := not_mem_decimal other n
  rw [arrayToString]
  split
  · exact List.not_mem_nil
  · split
    · simp [star, closes, opens]
    · cases d <;> simp [star, closes, opens, number]

theorem letter_ne {code : LeafCode} {letter : Byte} (type : typeLetter code = some letter) :
    letter ≠ quote ∧ letter ≠ backslash ∧ letter ≠ 0 := by
  cases code <;> cases type <;> decide

/-- A text is made of the texts of leaves, of names in quotes and of braces. -/
theorem toString_forall {normalized : Bool} {P : Bytes → Prop} {Q : CString → Prop}
    (leaf : ∀ (letter : Byte) (code : LeafCode) (limits : Option Limits) (n : Nat) (d : Bool),
      typeLetter code = some letter → P (letter :: (limitsText code limits ++ arrayToString normalized n d)))
    (record : ∀ (fields : Bytes) (n : Nat) (d : Bool), P fields →
      P (ascii '{' :: (fields ++ ascii '}' :: arrayToString normalized n d)))
    (nil : P []) (field : ∀ (name : CString) (text more : Bytes), Q name → P text → P more →
      P (quote :: (name.bytes ++ quote :: (text ++ more))))
    {e : DataElement} (parsable : e.Parsable) (names : e.NamesAll Q) {text : Bytes}
    (written : e.toString normalized = some text) : P text := by
  induction e using tree_induction generalizing text with
  | leaf name code n d limits =>
    obtain ⟨letter, type⟩ := Option.ne_none_iff_exists'.mp (typeLetter_ne_none parsable.1)
    rw [toString_leaf normalized parsable.2.1 type] at written
    obtain rfl := Option.some.inj written
    exact leaf letter code limits n.toNat d type
  | record name n d elements ih =>
    obtain ⟨-, parsable, -⟩ := parsable
    rw [toString] at written
    split at written
    · contradiction
    · next fields writtenFields =>
      obtain rfl := Option.some.inj written
      apply record
      clear written
      induction elements generalizing fields with
      | nil =>
        obtain rfl := Option.some.inj writtenFields
        exact nil
      | cons child more ihFields =>
        obtain ⟨name, childText, moreText, named, writtenChild, writtenMore, rfl⟩ :=
          fieldsToString_cons parsable writtenFields
        obtain ⟨nameOf, namesChild, namesMore⟩ := names
        apply field
        · exact nameOf name named
        · exact ih child List.mem_cons_self parsable.2.1 namesChild writtenChild
        · exact ihFields (fun other mem => ih other (List.mem_cons_of_mem _ mem)) namesMore parsable.2.2 _ writtenMore
  | refId => exact parsable.elim
  | refName => exact parsable.elim
  | refPtr => exact parsable.elim

/-- A reader is outside the names behind a text. -/
theorem reads_toString {normalized : Bool} {e : DataElement} (parsable : e.Parsable) (closed : e.NamesClosed)
    {text : Bytes} (written : e.toString normalized = some text) : Reads text .outside .outside := by
  have suffix {s : Bytes} (none_ : ∀ c, isDigit c = false → c ∉ marks → c ∉ s) : Reads s .outside .outside :=
    Reads.plain fun b mem => ⟨fun same => none_ quote (by decide) (by decide) (same ▸ mem),
      fun same => none_ backslash (by decide) (by decide) (same ▸ mem)⟩
  have array (n : Nat) (d : Bool) : Reads (arrayToString normalized n d) .outside .outside :=
    suffix fun c other noMark => not_mem_arrayToString other noMark normalized n d
  apply toString_forall ?_ ?_ (Reads.nil _) ?_ parsable closed written
  · intro letter code limits n d type
    obtain ⟨noQuote, noEscape, -⟩ := letter_ne type
    refine @Reads.cons _ _ _ .outside _ ?_ (Reads.append (suffix fun c other noMark => ?_) (array n d))
    · rw [QuoteMode.read, if_neg noQuote, if_neg noEscape]
    · exact not_mem_limitsText other noMark code limits
  · intro fields n d fieldsRead
    exact Reads.cons rfl (fieldsRead.append (Reads.cons rfl (array n d)))
  · intro name text more closed textRead moreRead
    exact Reads.cons rfl ((Reads.closed closed).append (Reads.cons rfl (textRead.append moreRead)))

theorem namesAll_trivial (e : DataElement) : e.NamesAll fun _ => True := by
  induction e using tree_induction with
  | record name n d elements ih =>
    rw [NamesAll]
    induction elements with
    | nil => trivial
    | cons child more ihFields =>
      exact ⟨fun _ _ => trivial, ih child List.mem_cons_self,
        ihFields fun other mem => ih other (List.mem_cons_of_mem _ mem)⟩
  | leaf => trivial
  | refId => trivial
  | refName => trivial
  | refPtr => trivial

theorem noZero_toString {normalized : Bool} {e : DataElement} (parsable : e.Parsable) {text : Bytes}
    (written : e.toString normalized = some text) : 0 ∉ text := by
  have array (n : Nat) (d : Bool) : 0 ∉ arrayToString normalized n d :=
    not_mem_arrayToString (by decide) (by decide) normalized n d
  apply toString_forall ?_ ?_ List.not_mem_nil ?_ parsable (namesAll_trivial e) written
  · intro letter code limits n d type
    obtain ⟨-, -, noZero⟩ := letter_ne type
    have limited : 0 ∉ limitsText code limits := not_mem_limitsText (by decide) (by decide) code limits
    simp [noZero.symm, limited, array]
  · intro fields n d noZero
    have brace : (0 : Byte) ≠ ascii '{' := by decide
    have brace' : (0 : Byte) ≠ ascii '}' := by decide
    simp [noZero, array, brace, brace']
  · intro name text more _ noZero noZeroMore
    have quotes : (0 : Byte) ≠ quote := by decide
    simp [noZero, noZeroMore, name.noZero, quotes]

end DataElement

end Apx
