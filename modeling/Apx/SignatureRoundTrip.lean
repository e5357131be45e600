import Apx.SignatureText

/-! Printing and parsing of elements, and when two ports have the same signature. -/

namespace Apx

open Bstr

/-! Reading a text byte by byte: whether a name in quotes is open -/

/-- Where a reader of a text stands: outside the names, inside one, or behind a backslash inside one -/
inductive QuoteMode where
  | outside
  | inside
  | escaped
  deriving DecidableEq

/-- One byte read. There are no backslashes outside the names. -/
def QuoteMode.read : QuoteMode → Byte → Option QuoteMode
  | .outside, b => if b = quote then some .inside else if b = backslash then none else some .outside
  | .inside, b => if b = quote then some .outside else if b = backslash then some .escaped else some .inside
  | .escaped, _ => some .inside

/-- A text read from one mode to another -/
def Reads (text : Bytes) (first last : QuoteMode) : Prop := text.foldlM QuoteMode.read first = some last

namespace Reads

theorem append {s t : Bytes} {first middle last : QuoteMode} (front : Reads s first middle)
    (back : Reads t middle last) : Reads (s ++ t) first last := by
  unfold Reads at front back ⊢
  rw [List.foldlM_append, front]
  exact back

theorem behind {s t : Bytes} {first middle last : QuoteMode} (front : Reads s first middle)
    (whole : Reads (s ++ t) first last) : Reads t middle last := by
  unfold Reads at front whole ⊢
  rw [List.foldlM_append, front] at whole
  exact whole

theorem cons {b : Byte} {t : Bytes} {first middle last : QuoteMode} (step : first.read b = some middle)
    (back : Reads t middle last) : Reads (b :: t) first last := by
  unfold Reads at back ⊢
  rw [List.foldlM_cons, step]
  exact back

theorem nil (mode : QuoteMode) : Reads [] mode mode := rfl

theorem plain {s : Bytes} (plain : ∀ b ∈ s, b ≠ quote ∧ b ≠ backslash) : Reads s .outside .outside := by
  induction s with
  | nil => exact nil _
  | cons b s ih =>
    obtain ⟨noQuote, noEscape⟩ := plain b List.mem_cons_self
    refine cons ?_ (ih fun c mem => plain c (List.mem_cons_of_mem _ mem))
    rw [QuoteMode.read, if_neg noQuote, if_neg noEscape]

/-- A name that can stand between quotes leaves none open. -/
theorem closed {name : Bytes} (closed : Closed name) : Reads name .inside .inside := by
  induction name using Closed.induct with
  | case1 => exact nil _
  | case2 b =>
    refine cons ?_ (nil _)
    rw [QuoteMode.read, if_neg closed.1, if_neg closed.2]
  | case3 b c rest ihEscaped ihPlain =>
    by_cases escape : b = backslash
    · subst escape
      exact cons rfl (cons rfl (ihEscaped (closed_escape.mp closed)))
    · obtain ⟨noQuote, closed⟩ := (closed_plain escape).mp closed
      refine cons ?_ (ihPlain closed)
      rw [QuoteMode.read, if_neg noQuote, if_neg escape]

/-- A text cannot leave the names both when it begins outside and when it begins inside: it has no backslash
then, and each quote leads from one to the other. -/
theorem opposite {s : Bytes} {last last' : QuoteMode} (first : Reads s .outside last)
    (second : Reads s .inside last') : (last = .outside ∧ last' = .inside) ∨ (last = .inside ∧ last' = .outside) := by
  suffices both : ∀ a b : QuoteMode, (a = .outside ∧ b = .inside) ∨ (a = .inside ∧ b = .outside) →
      Reads s a last → Reads s b last' →
      (last = .outside ∧ last' = .inside) ∨ (last = .inside ∧ last' = .outside) from
    both _ _ (.inl ⟨rfl, rfl⟩) first second
  clear first second
  induction s with
  | nil =>
    intro a b modes first second
    cases first
    cases second
    exact modes
  | cons c s ih =>
    intro a b modes first second
    unfold Reads at first second
    rw [List.foldlM_cons] at first second
    by_cases isQuote : c = quote
    · rcases modes with ⟨rfl, rfl⟩ | ⟨rfl, rfl⟩
      · rw [QuoteMode.read, if_pos isQuote] at first
        rw [QuoteMode.read, if_pos isQuote] at second
        exact ih _ _ (.inr ⟨rfl, rfl⟩) first second
      · rw [QuoteMode.read, if_pos isQuote] at first
        rw [QuoteMode.read, if_pos isQuote] at second
        exact ih _ _ (.inl ⟨rfl, rfl⟩) first second
    · by_cases isEscape : c = backslash
      · rcases modes with ⟨rfl, rfl⟩ | ⟨rfl, rfl⟩
        · rw [QuoteMode.read, if_neg isQuote, if_pos isEscape] at first
          contradiction
        · rw [QuoteMode.read, if_neg isQuote, if_pos isEscape] at second
          contradiction
      · rcases modes with ⟨rfl, rfl⟩ | ⟨rfl, rfl⟩
        · rw [QuoteMode.read, if_neg isQuote, if_neg isEscape] at first
          rw [QuoteMode.read, if_neg isQuote, if_neg isEscape] at second
          exact ih _ _ (.inl ⟨rfl, rfl⟩) first second
        · rw [QuoteMode.read, if_neg isQuote, if_neg isEscape] at first
          rw [QuoteMode.read, if_neg isQuote, if_neg isEscape] at second
          exact ih _ _ (.inr ⟨rfl, rfl⟩) first second

/-- A text does not begin with part of a name in front of a backslash. -/
theorem no_escape {name rest : Bytes} (closed : Closed name) {last : QuoteMode} :
    ¬Reads (name ++ backslash :: rest) .outside last := by
  intro reads
  unfold Reads at reads
  induction name with
  | nil =>
    rw [List.nil_append, List.foldlM_cons] at reads
    contradiction
  | cons b name ih =>
    rw [List.cons_append, List.foldlM_cons] at reads
    by_cases escape : b = backslash
    · subst escape
      contradiction
    · obtain ⟨noQuote, closed⟩ := (closed_plain escape).mp closed
      rw [QuoteMode.read, if_neg noQuote, if_neg escape] at reads
      exact ih closed reads

end Reads

namespace Bstr

theorem closed_append {first second : Bytes} (closed : Closed first) :
    Closed (first ++ second) ↔ Closed second := by
  induction first using Closed.induct with
  | case1 => rfl
  | case2 b => exact (closed_plain closed.2).trans (and_iff_right closed.1)
  | case3 b c rest ihEscaped ihPlain =>
    by_cases escape : b = backslash
    · subst escape
      exact closed_escape.trans (ihEscaped (closed_escape.mp closed))
    · obtain ⟨noQuote, closed⟩ := (closed_plain escape).mp closed
      exact (closed_plain escape).trans ((and_iff_right noQuote).trans (ihPlain closed))

/-- Where a name is cut at its first zero, at most a backslash is left that escapes nothing. -/
theorem closed_cut {name : Bytes} (closed : Closed name) :
    Closed (CString.ofBytes name).bytes ∨
      ∃ front, Closed front ∧ (CString.ofBytes name).bytes = front ++ [backslash] := by
  unfold CString.ofBytes
  dsimp only
  induction name using Closed.induct with
  | case1 => exact .inl trivial
  | case2 b =>
    by_cases zero : b = 0
    · subst zero
      exact .inl trivial
    · left
      rw [List.takeWhile_cons, if_pos (by simpa using zero)]
      exact closed
  | case3 b c rest ihEscaped ihPlain =>
    by_cases zero : b = 0
    · subst zero
      exact .inl trivial
    · rw [List.takeWhile_cons, if_pos (by simpa using zero)]
      by_cases escape : b = backslash
      · subst escape
        by_cases zero' : c = 0
        · subst zero'
          exact .inr ⟨[], trivial, rfl⟩
        · rw [List.takeWhile_cons, if_pos (by simpa using zero')]
          rcases ihEscaped (closed_escape.mp closed) with whole | ⟨front, closedFront, same⟩
          · exact .inl (closed_escape.mpr whole)
          · exact .inr ⟨backslash :: c :: front, closed_escape.mpr closedFront, by rw [same]; rfl⟩
      · obtain ⟨noQuote, closed⟩ := (closed_plain escape).mp closed
        rcases ihPlain closed with whole | ⟨front, closedFront, same⟩
        · exact .inl ((closed_plain escape).mpr ⟨noQuote, whole⟩)
        · exact .inr ⟨b :: front, (closed_plain escape).mpr ⟨noQuote, closedFront⟩, by rw [same]; rfl⟩

/-- A name ends at its quote. -/
theorem closed_unique {name name' rest rest' : Bytes} (closed : Closed name) (closed' : Closed name')
    (same : name ++ quote :: rest = name' ++ quote :: rest') : name = name' ∧ rest = rest' := by
  have first := Plain.closing_complete rest closed
  rw [same, Plain.closing_complete rest' closed'] at first
  obtain ⟨names, rests⟩ := Prod.mk.inj (Option.some.inj first)
  exact ⟨names.symm, rests.symm⟩

/-- So does a name that was cut behind a backslash, in front of a text. -/
theorem cut_unique {front front' text text' : Bytes} {last last' : QuoteMode} (closed : Closed front)
    (closed' : Closed front') (reads : Reads text .outside last) (reads' : Reads text' .outside last')
    (same : front ++ backslash :: quote :: text = front' ++ backslash :: quote :: text') :
    front = front' ∧ text = text' := by
  -- the longer name would end in the text behind the shorter one
  have longer {front text more text' : Bytes} {last : QuoteMode} (closed : Closed front)
      (closed' : Closed (front ++ more)) (reads : Reads text .outside last)
      (same : backslash :: quote :: text = more ++ backslash :: quote :: text') : more = [] ∧ text = text' := by
    rw [closed_append closed] at closed'
    match more with
    | [] => exact ⟨rfl, (List.cons.inj (List.cons.inj same).2).2⟩
    | [b] => exact absurd (List.cons.inj (List.cons.inj same).2).1 (by decide)
    | b :: c :: more =>
      obtain ⟨rfl, tails⟩ := List.cons.inj same
      obtain ⟨rfl, rfl⟩ := List.cons.inj tails
      exact absurd reads (Reads.no_escape (closed_escape.mp closed'))
  rcases List.append_eq_append_iff.mp same with ⟨more, rfl, tails⟩ | ⟨more, rfl, tails⟩
  · obtain ⟨rfl, rfl⟩ := longer closed closed' reads tails
    exact ⟨(List.append_nil _).symm, rfl⟩
  · obtain ⟨rfl, rfl⟩ := longer closed' closed reads' tails
    exact ⟨List.append_nil _, rfl⟩

end Bstr

end Apx
