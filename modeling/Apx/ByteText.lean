import Apx.DataElementText

/-! Texts as sequences of bytes: what the parsers use of the bstr library, which is not part of this
repository, and the numbers and quoted strings it reads. -/

namespace Apx

namespace Bstr

def quote : Byte := ascii '"'

def backslash : Byte := ascii '\\'

def isDigit (b : Byte) : Bool := 48 ≤ b && b ≤ 57

/-- The number that decimal digits denote -/
def decimalValue (digits : Bytes) : Nat := Nat.ofDigits 10 (digits.reverse.map fun b => b.toNat - 48)

def Digits (s : Bytes) : Prop := s ≠ [] ∧ ∀ b ∈ s, isDigit b = true

/-- The text can stand between quotes: each quote in it is escaped, and each backslash escapes a byte. -/
def Closed : Bytes → Prop
  | [] => True
  | [b] => b ≠ quote ∧ b ≠ backslash
  | b :: c :: rest => b ≠ quote ∧ if b = backslash then Closed rest else Closed (c :: rest)

instance : ∀ body, Decidable (Closed body)
  | [] => inferInstanceAs (Decidable True)
  | [b] => inferInstanceAs (Decidable (b ≠ quote ∧ b ≠ backslash))
  | b :: c :: rest =>
    have := instDecidableClosed rest
    have := instDecidableClosed (c :: rest)
    inferInstanceAs (Decidable (b ≠ quote ∧ if b = backslash then Closed rest else Closed (c :: rest)))

/-- The text of a number with an optional minus sign -/
def SignedText (text : Bytes) (x : Int) : Prop :=
  (∃ digits, text = ascii '-' :: digits ∧ Digits digits ∧ x = -(decimalValue digits : Int)) ∨
    Digits text ∧ x = decimalValue text

theorem closed_plain {b : Byte} {rest : Bytes} (noEscape : b ≠ backslash) :
    Closed (b :: rest) ↔ b ≠ quote ∧ Closed rest := by
  cases rest with
  | nil => simp [Closed, noEscape]
  | cons c rest => rw [Closed, if_neg noEscape]

theorem closed_escape {c : Byte} {rest : Bytes} : Closed (backslash :: c :: rest) ↔ Closed rest := by
  rw [Closed, if_pos rfl]
  exact and_iff_right (by decide)

end Bstr

/-- The functions of the bstr library that the parsers call, which is not part of this repository, and what they are
documented to do with a text. A pointer behind what was read stands as the text from there on. -/
structure Bstr where
  isSpace : Byte → Bool
  /-- bstr_lstrip -/
  lstrip : Bytes → Bytes
  /-- bstr_match_pair with quotes on both sides and the backslash as escape character: the bytes between the quotes -/
  matchPair : Bytes → Option (Bytes × Bytes)
  /-- bstr_to_unsigned_long and bstr_to_unsigned_long_long, for a long of 64 bits -/
  toUnsignedLong : Bytes → Option (Nat × Bytes)
  /-- bstr_to_long and bstr_to_long_long -/
  toLong : Bytes → Option (Int × Bytes)
  /-- bstr_search_val: what stands before the first such byte and behind it -/
  searchVal : Bytes → Byte → Option (Bytes × Bytes)
  /-- bstr_match_cstr: what stands behind the word -/
  matchCstr : Bytes → Bytes → Option Bytes
  blank : isSpace (ascii ' ') = true
  only : ∀ b, isSpace b = true → b ∈ ([9, 10, 11, 12, 13, 32] : Bytes)
  lstrip_eq : ∀ t, lstrip t = t.dropWhile isSpace
  matchPair_iff : ∀ t body behind, matchPair t = some (body, behind) ↔
    t = Bstr.quote :: (body ++ Bstr.quote :: behind) ∧ Bstr.Closed body
  toUnsignedLong_iff : ∀ t rest n, toUnsignedLong t = some (n, rest) ↔ ∃ digits, t = digits ++ rest ∧
    Bstr.Digits digits ∧ (∀ b ∈ rest.head?, Bstr.isDigit b = false) ∧ Bstr.decimalValue digits = n ∧ n < 2 ^ 64
  toLong_iff : ∀ t rest x, toLong t = some (x, rest) ↔ ∃ text, t = text ++ rest ∧ Bstr.SignedText text x ∧
    (∀ b ∈ rest.head?, Bstr.isDigit b = false) ∧ -2 ^ 63 ≤ x ∧ x < 2 ^ 63
  searchVal_iff : ∀ t b before behind, searchVal t b = some (before, behind) ↔ t = before ++ b :: behind ∧ b ∉ before
  matchCstr_iff : ∀ word t rest, matchCstr word t = some rest ↔ t = word ++ rest

namespace Bstr

def Spaces (bs : Bstr) (s : Bytes) : Prop := ∀ b ∈ s, bs.isSpace b = true

theorem takeWhile_append_of {p : Byte → Bool} {first rest : Bytes} (all : ∀ b ∈ first, p b = true)
    (ends : ∀ b ∈ rest.head?, p b = false) :
    (first ++ rest).takeWhile p = first ∧ (first ++ rest).dropWhile p = rest := by
  induction first with
  | nil =>
    cases rest with
    | nil => exact ⟨rfl, rfl⟩
    | cons b rest =>
      have no : p b = false := ends b rfl
      rw [List.nil_append, List.takeWhile_cons, List.dropWhile_cons, no]
      exact ⟨rfl, rfl⟩
  | cons b first ih =>
    obtain ⟨take, drop⟩ := ih fun c mem => all c (List.mem_cons_of_mem _ mem)
    have yes : p b = true := all b List.mem_cons_self
    rw [List.cons_append, List.takeWhile_cons, List.dropWhile_cons, yes]
    exact ⟨by rw [if_pos rfl, take], by rw [if_pos rfl, drop]⟩

theorem head_dropWhile (p : Byte → Bool) (t : Bytes) : ∀ b ∈ (t.dropWhile p).head?, p b = false := by
  intro b mem
  induction t with
  | nil => contradiction
  | cons c rest ih =>
    rw [List.dropWhile_cons] at mem
    split at mem
    · exact ih mem
    · next no =>
      obtain rfl := Option.some.inj mem
      simpa using no

theorem mem_takeWhile {p : Byte → Bool} {t : Bytes} : ∀ b ∈ t.takeWhile p, p b = true :=
  List.all_eq_true.mp (List.all_takeWhile)

/-- bstr_lstrip takes a run of whitespace away, up to a byte that is none. -/
theorem lstrip_spaces (bs : Bstr) {s rest : Bytes} (spaces : Spaces bs s)
    (ends : ∀ b ∈ rest.head?, bs.isSpace b = false) : lstrip bs (s ++ rest) = rest := by
  rw [bs.lstrip_eq]
  exact (takeWhile_append_of spaces ends).2

theorem spaces_lstrip (bs : Bstr) (t : Bytes) :
    ∃ s, Spaces bs s ∧ t = s ++ lstrip bs t ∧ ∀ b ∈ (lstrip bs t).head?, bs.isSpace b = false := by
  rw [bs.lstrip_eq]
  exact ⟨t.takeWhile bs.isSpace, mem_takeWhile, (List.takeWhile_append_dropWhile).symm, head_dropWhile _ t⟩

theorem lstrip_nil (bs : Bstr) : lstrip bs [] = [] := bs.lstrip_eq []

/-- No number starts at the end of a text. -/
theorem toUnsignedLong_nil (bs : Bstr) : toUnsignedLong bs [] = none := by
  cases read : toUnsignedLong bs [] with
  | none => rfl
  | some pair =>
    obtain ⟨digits, text, number, -⟩ := (bs.toUnsignedLong_iff [] pair.2 pair.1).mp read
    exact absurd (List.append_eq_nil_iff.mp text.symm).1 number.1

theorem length_lstrip_le (bs : Bstr) (t : Bytes) : (lstrip bs t).length ≤ t.length := by
  rw [bs.lstrip_eq]
  exact (List.dropWhile_suffix bs.isSpace).length_le

theorem searchVal_found (bs : Bstr) {b : Byte} {t : Bytes} (none_ : b ∉ t) (rest : Bytes) :
    searchVal bs (t ++ b :: rest) b = some (t, rest) :=
  (bs.searchVal_iff _ b t rest).mpr ⟨rfl, none_⟩

theorem searchVal_missing (bs : Bstr) {b : Byte} {t : Bytes} (none_ : b ∉ t) : searchVal bs t b = none := by
  cases found : searchVal bs t b with
  | none => rfl
  | some parts =>
    obtain ⟨rfl, -⟩ := (bs.searchVal_iff t b parts.1 parts.2).mp found
    exact absurd (List.mem_append_right _ List.mem_cons_self) none_

/-! Functions that do so -/

namespace Plain

/-- The search for the second quote: the bytes before it and those behind it. A
backslash takes its meaning from the byte behind it. -/
def closing : Bytes → Option (Bytes × Bytes)
  | [] => none
  | b :: rest =>
    if b = quote then some ([], rest)
    else if b = backslash then
      match rest with
      | [] => none
      | c :: rest => (closing rest).map fun (body, behind) => (b :: c :: body, behind)
    else (closing rest).map fun (body, behind) => (b :: body, behind)

/-- The bytes between two quotes and those behind the second one -/
def matchPair : Bytes → Option (Bytes × Bytes)
  | [] => none
  | b :: rest => if b = quote then closing rest else none

/-- A number in base 10 and what stands behind it. No number starts at `t`, or one that does not fit. -/
def toUnsignedLong (t : Bytes) : Option (Nat × Bytes) :=
  let digits := t.takeWhile isDigit
  if digits = [] then none
  else if decimalValue digits < 2 ^ 64 then some (decimalValue digits, t.dropWhile isDigit)
  else none

def toLong : Bytes → Option (Int × Bytes)
  | [] => none
  | b :: rest =>
    if b = ascii '-' then
      let digits := rest.takeWhile isDigit
      if digits = [] then none
      else if decimalValue digits ≤ 2 ^ 63 then some (-(decimalValue digits), rest.dropWhile isDigit)
      else none
    else
      let digits := (b :: rest).takeWhile isDigit
      if digits = [] then none
      else if decimalValue digits < 2 ^ 63 then some (decimalValue digits, (b :: rest).dropWhile isDigit)
      else none

def searchVal (t : Bytes) (b : Byte) : Option (Bytes × Bytes) :=
  match t with
  | [] => none
  | c :: rest =>
    if c = b then some ([], rest)
    else (searchVal rest b).map fun (before, behind) => (c :: before, behind)

def matchCstr (word t : Bytes) : Option Bytes := if word.isPrefixOf t then some (t.drop word.length) else none

theorem closing_quote (rest : Bytes) : closing (quote :: rest) = some ([], rest) := by
  unfold closing
  rw [if_pos rfl]

theorem closing_escape (c : Byte) (rest : Bytes) :
    closing (backslash :: c :: rest) =
      (closing rest).map fun (body, behind) => (backslash :: c :: body, behind) := by
  rw [closing, if_neg (by decide), if_pos rfl]

theorem closing_plain {b : Byte} (rest : Bytes) (noQuote : b ≠ quote) (noEscape : b ≠ backslash) :
    closing (b :: rest) = (closing rest).map fun (body, behind) => (b :: body, behind) := by
  unfold closing
  rw [if_neg noQuote, if_neg noEscape]
  rw [closing.eq_def]

theorem closing_complete {body : Bytes} (behind : Bytes) (closed : Closed body) :
    closing (body ++ quote :: behind) = some (body, behind) := by
  induction body using Closed.induct with
  | case1 => exact closing_quote behind
  | case2 b => rw [List.singleton_append, closing_plain _ closed.1 closed.2, closing_quote]; rfl
  | case3 b c rest ihEscaped ihPlain =>
    by_cases escape : b = backslash
    · subst escape
      rw [List.cons_append, List.cons_append, closing_escape, ihEscaped (closed_escape.mp closed)]
      rfl
    · obtain ⟨noQuote, closed⟩ := (closed_plain escape).mp closed
      rw [List.cons_append, closing_plain _ noQuote escape, ihPlain closed]
      rfl

theorem closing_sound {t body behind : Bytes} (found : closing t = some (body, behind)) :
    t = body ++ quote :: behind ∧ Closed body := by
  induction t using closing.induct generalizing body with
  | case1 => contradiction
  | case2 rest =>
    rw [closing_quote] at found
    cases found
    exact ⟨rfl, trivial⟩
  | case3 =>
    contradiction
  | case4 _ c rest ih =>
    rw [closing_escape] at found
    obtain ⟨⟨inner, behind'⟩, within, same⟩ := Option.map_eq_some_iff.mp found
    cases same
    obtain ⟨rfl, closed⟩ := ih within
    exact ⟨rfl, closed_escape.mpr closed⟩
  | case5 b rest noQuote noEscape ih =>
    rw [closing_plain rest noQuote noEscape] at found
    obtain ⟨⟨inner, behind'⟩, within, same⟩ := Option.map_eq_some_iff.mp found
    cases same
    obtain ⟨rfl, closed⟩ := ih within
    exact ⟨rfl, (closed_plain noEscape).mpr ⟨noQuote, closed⟩⟩

/-- The text of a quoted string -/
theorem matchPair_iff (t body behind : Bytes) :
    matchPair t = some (body, behind) ↔ t = quote :: (body ++ quote :: behind) ∧ Closed body := by
  constructor
  · intro found
    cases t with
    | nil => contradiction
    | cons b rest =>
      rw [matchPair] at found
      split at found
      · next same =>
        obtain ⟨rfl, closed⟩ := closing_sound found
        exact ⟨by rw [same], closed⟩
      · contradiction
  · rintro ⟨rfl, closed⟩
    rw [matchPair, if_pos rfl, closing_complete behind closed]

theorem toUnsignedLong_iff (t rest : Bytes) (n : Nat) :
    toUnsignedLong t = some (n, rest) ↔ ∃ digits, t = digits ++ rest ∧ Digits digits ∧
      (∀ b ∈ rest.head?, isDigit b = false) ∧ decimalValue digits = n ∧ n < 2 ^ 64 := by
  constructor
  · intro found
    unfold toUnsignedLong at found
    simp only at found
    split at found
    · contradiction
    · next nonempty =>
      split at found
      · next fits =>
        cases found
        exact ⟨_, (List.takeWhile_append_dropWhile).symm, ⟨nonempty, mem_takeWhile⟩, head_dropWhile _ t,
          rfl, fits⟩
      · contradiction
  · rintro ⟨digits, rfl, ⟨nonempty, all⟩, ends, rfl, fits⟩
    obtain ⟨take, drop⟩ := takeWhile_append_of all ends
    simp only [toUnsignedLong, take, drop]
    rw [if_neg nonempty, if_pos fits]

theorem toLong_iff (t rest : Bytes) (x : Int) :
    toLong t = some (x, rest) ↔ ∃ text, t = text ++ rest ∧ SignedText text x ∧
      (∀ b ∈ rest.head?, isDigit b = false) ∧ -2 ^ 63 ≤ x ∧ x < 2 ^ 63 := by
  constructor
  · intro found
    cases t with
    | nil => contradiction
    | cons b tail =>
      rw [toLong] at found
      split at found
      · next minus =>
        simp only at found
        split at found
        · contradiction
        · next nonempty =>
          split at found
          · next fits =>
            cases found
            refine ⟨b :: tail.takeWhile isDigit, ?_, .inl ⟨_, by rw [minus], ⟨nonempty, mem_takeWhile⟩, rfl⟩,
              head_dropWhile _ tail, by omega, by omega⟩
            rw [List.cons_append, List.takeWhile_append_dropWhile]
          · contradiction
      · simp only at found
        split at found
        · contradiction
        · next nonempty =>
          split at found
          · next fits =>
            cases found
            refine ⟨(b :: tail).takeWhile isDigit, ?_, .inr ⟨⟨nonempty, mem_takeWhile⟩, rfl⟩,
              head_dropWhile _ _, by omega, by omega⟩
            rw [List.takeWhile_append_dropWhile]
          · contradiction
  · rintro ⟨text, rfl, ⟨digits, rfl, ⟨nonempty, all⟩, rfl⟩ | ⟨⟨nonempty, all⟩, rfl⟩, ends, lower, upper⟩
    · obtain ⟨take, drop⟩ := takeWhile_append_of all ends
      rw [List.cons_append, toLong, if_pos rfl]
      simp only [take, drop]
      rw [if_neg nonempty, if_pos (by omega)]
    · obtain ⟨take, drop⟩ := takeWhile_append_of all ends
      cases text with
      | nil => contradiction
      | cons b tail =>
        have digit : isDigit b = true := all b List.mem_cons_self
        have noMinus : b ≠ ascii '-' := by
          rintro rfl
          exact absurd digit (by decide)
        rw [List.cons_append] at take drop ⊢
        rw [toLong, if_neg noMinus]
        simp only [take, drop]
        rw [if_neg nofun, if_pos (by omega)]

theorem searchVal_iff (t : Bytes) (b : Byte) (before behind : Bytes) :
    searchVal t b = some (before, behind) ↔ t = before ++ b :: behind ∧ b ∉ before := by
  induction t generalizing before with
  | nil => simp [searchVal]
  | cons c t ih =>
    rw [searchVal]
    by_cases first : c = b
    · subst first
      rw [if_pos rfl]
      cases before with
      | nil => simp
      | cons d before => simp +contextual
    · rw [if_neg first]
      cases before with
      | nil => simp [first]
      | cons d before =>
        simp only [Option.map_eq_some_iff, Prod.mk.injEq, Prod.exists, List.cons.injEq, List.cons_append,
          List.mem_cons, not_or]
        constructor
        · rintro ⟨before', behind', found, ⟨rfl, rfl⟩, rfl⟩
          obtain ⟨rfl, none_⟩ := (ih before').mp found
          exact ⟨⟨rfl, rfl⟩, Ne.symm first, none_⟩
        · rintro ⟨⟨rfl, rfl⟩, -, none_⟩
          exact ⟨before, behind, (ih before).mpr ⟨rfl, none_⟩, ⟨rfl, rfl⟩, rfl⟩

theorem matchCstr_iff (word t rest : Bytes) : matchCstr word t = some rest ↔ t = word ++ rest := by
  rw [matchCstr, Option.ite_none_right_eq_some, List.isPrefixOf_iff_prefix]
  constructor
  · rintro ⟨⟨more, rfl⟩, same⟩
    rw [List.drop_left] at same
    rw [Option.some.inj same]
  · rintro rfl
    exact ⟨List.prefix_append _ _, congrArg some List.drop_left⟩

end Plain

/-- These functions, with the whitespace characters of ASCII -/
def asciiLibrary : Bstr where
  isSpace := fun b => b ∈ ([9, 10, 11, 12, 13, 32] : Bytes)
  lstrip := List.dropWhile fun b => b ∈ ([9, 10, 11, 12, 13, 32] : Bytes)
  matchPair := Plain.matchPair
  toUnsignedLong := Plain.toUnsignedLong
  toLong := Plain.toLong
  searchVal := Plain.searchVal
  matchCstr := Plain.matchCstr
  blank := by decide
  only := fun _ space => of_decide_eq_true space
  lstrip_eq := fun _ => rfl
  matchPair_iff := Plain.matchPair_iff
  toUnsignedLong_iff := Plain.toUnsignedLong_iff
  toLong_iff := Plain.toLong_iff
  searchVal_iff := Plain.searchVal_iff
  matchCstr_iff := Plain.matchCstr_iff

end Bstr

end Apx
