import Apx.DefinitionParsing

/-! One parser for many definitions: what it answers behind any texts that it has read before. Its stream is never
reset, and a line that was refused stays in the buffer. -/

namespace Apx.Parser

open Bstr Framing

variable {β : Type} {bstrSearchVal : Bytes → Byte → Nat} {calls : ByteArrayCalls β} {setting : ParserSetting}

def leftOver (setting : ParserSetting) (texts : List Bytes) : Bytes := texts.foldl (keeps setting) []

theorem Behind.again (finds : SearchFunction bstrSearchVal) (documented : calls.Documented) {kept : Bytes}
    {stream : Istream β (Nested Parser)} (behind : Behind calls setting kept stream) {t : Bytes}
    (small : t.length < 2 ^ 32) :
    ∃ parsed, parseBstr bstrSearchVal calls stream t = some parsed ∧
      Behind calls setting (keeps setting kept t) parsed := by
  rcases behind with ⟨able, self, lastError, stands⟩ | ⟨stopped, lastError, left, stands, stops⟩
  · obtain ⟨parsed, parses, -, behind⟩ := parses_stands finds documented stands able small
    exact ⟨parsed, parses, behind⟩
  · obtain ⟨parsed, parses, lastError, left, stands⟩ := stops.parses finds documented stands small
    exact ⟨parsed, parses, .inr ⟨stopped, lastError, left, stands, stops⟩⟩

theorem Behind.run (finds : SearchFunction bstrSearchVal) (documented : calls.Documented) {kept : Bytes}
    {stream : Istream β (Nested Parser)} (behind : Behind calls setting kept stream) {texts : List Bytes}
    (small : ∀ t ∈ texts, t.length < 2 ^ 32) :
    ∃ last, texts.foldlM (parseBstr bstrSearchVal calls) stream = some last ∧
      Behind calls setting (texts.foldl (keeps setting) kept) last := by
  induction texts generalizing stream kept with
  | nil => exact ⟨stream, rfl, behind⟩
  | cons t texts ih =>
    obtain ⟨parsed, parses, behind⟩ := behind.again finds documented (small t List.mem_cons_self)
    obtain ⟨last, run, behind⟩ := ih behind fun u mem => small u (List.mem_cons_of_mem t mem)
    refine ⟨last, ?_, behind⟩
    rw [List.foldlM_cons, parses]
    exact run

theorem create_behind (documented : calls.Documented) : Behind calls setting [] (create calls setting) :=
  .inl ⟨.inl List.not_mem_nil, _, _, create_stands documented⟩

theorem Behind.returned {kept : Bytes} {stream : Istream β (Nested Parser)} {self : Parser}
    (behind : Behind calls setting kept stream) (returned : stream.arg = some (.ok self)) :
    Kept setting kept ∧ ∃ lastError, stream.Stands calls (handler setting) (some (.ok self)) lastError kept := by
  rcases behind with ⟨able, self', lastError, stands⟩ | ⟨stopped, lastError, left, stands, stops⟩
  · cases returned.symm.trans stands.arg
    exact ⟨able, lastError, stands⟩
  · exact absurd (stands.arg.symm.trans returned) (stops self)

theorem history_stands (finds : SearchFunction bstrSearchVal) (documented : calls.Documented) {before : List Bytes}
    (small : ∀ t ∈ before, t.length < 2 ^ 32) {stream : Istream β (Nested Parser)} {self : Parser}
    (run : before.foldlM (parseBstr bstrSearchVal calls) (create calls setting) = some stream)
    (returned : stream.arg = some (.ok self)) :
    Kept setting (leftOver setting before) ∧
      ∃ lastError, stream.Stands calls (handler setting) (some (.ok self)) lastError (leftOver setting before) := by
  obtain ⟨last, run', behind⟩ := (create_behind documented).run finds documented small
  cases run.symm.trans run'
  exact behind.returned returned

theorem dropReturn_return (line : Bytes) : dropReturn (line ++ [carriageReturn]) = line := by
  simp [dropReturn]

/-- The lines of what is left over are refused with all that follows. -/
theorem refuses_longer {kept : Bytes} {error : ApxError} {self : Parser}
    (refused : acceptLines setting {} (lineReader.split kept).1 = .ok (some error, self)) (t : Bytes) :
    acceptLines setting {} (lineReader.split (kept ++ t)).1 = .ok (some error, self) := by
  rw [lineReader.split_append, acceptLines_append, refused]

theorem parseLines_refused {t : Bytes} {error : ApxError} {self : Parser}
    (refused : acceptLines setting {} (lineReader.split t).1 = .ok (some error, self)) :
    parseLines setting (Istream.lines t) = some (.ok self) := by
  rw [parseLines, lines_eq_split, acceptLines_append, refused]
  rfl

theorem refused_stands (finds : SearchFunction bstrSearchVal) (documented : calls.Documented)
    {stream : Istream β (Nested Parser)} {before self : Parser} {lastError : Option ApxError} {kept : Bytes}
    {error : ApxError} (stands : stream.Stands calls (handler setting) (some (.ok before)) lastError kept) {t : Bytes}
    (some_ : t ≠ []) (small : t.length < 2 ^ 32)
    (refused : acceptLines setting {} (lineReader.split (kept ++ t)).1 = .ok (some error, self)) :
    ∃ parsed, parseBstr bstrSearchVal calls stream t = some parsed ∧
      parsed.Stands calls (handler setting) (some (.ok self)) (some error) (kept ++ t) := by
  obtain ⟨written, parses, stands⟩ := parseBstr_stands finds documented stands some_ small
  rw [refused] at stands
  exact ⟨_, parses, (Istream.close_failed stands.lastError).symm ▸ stands⟩

theorem refused_run (finds : SearchFunction bstrSearchVal) (documented : calls.Documented)
    {stream : Istream β (Nested Parser)} {self : Parser} {kept : Bytes} {error : ApxError}
    (stands : stream.Stands calls (handler setting) (some (.ok self)) (some error) kept)
    (refused : acceptLines setting {} (lineReader.split kept).1 = .ok (some error, self)) {later : List Bytes}
    (some_ : ∀ u ∈ later, u ≠ [] ∧ u.length < 2 ^ 32) :
    ∃ parsed, later.foldlM (parseBstr bstrSearchVal calls) stream = some parsed ∧ parsed.arg = some (.ok self) := by
  induction later generalizing stream kept with
  | nil => exact ⟨stream, rfl, stands.arg⟩
  | cons u later ih =>
    have longer := refuses_longer refused u
    obtain ⟨nonempty, small⟩ := some_ u List.mem_cons_self
    obtain ⟨next, parses, stands⟩ := refused_stands finds documented stands nonempty small longer
    obtain ⟨parsed, run, same⟩ := ih stands longer fun v mem => some_ v (List.mem_cons_of_mem u mem)
    rw [List.foldlM_cons, parses]
    exact ⟨parsed, run, same⟩

/-- A parser that has refused a line gives the same answer to all texts that follow, whatever they are, unless they are
empty. -/
theorem refuses_ever_after (finds : SearchFunction bstrSearchVal) (documented : calls.Documented) {before : List Bytes}
    (small : ∀ t ∈ before, t.length < 2 ^ 32) {stream : Istream β (Nested Parser)} {last : Parser}
    (run : before.foldlM (parseBstr bstrSearchVal calls) (create calls setting) = some stream)
    (returned : stream.arg = some (.ok last)) {t : Bytes} (some_ : t ≠ []) (short : t.length < 2 ^ 32)
    {error : ApxError} {self : Parser}
    (refused : acceptLines setting {} (lineReader.split (leftOver setting before ++ t)).1 = .ok (some error, self))
    {later : List Bytes} (some_' : ∀ u ∈ later, u ≠ [] ∧ u.length < 2 ^ 32) :
    ∃ parsed, (t :: later).foldlM (parseBstr bstrSearchVal calls) stream = some parsed ∧
      parsed.arg = some (.ok self) ∧ self.lastError = some error := by
  obtain ⟨-, lastError, stands⟩ := history_stands finds documented small run returned
  obtain ⟨next, parses, stands⟩ := refused_stands finds documented stands some_ short refused
  obtain ⟨parsed, run, same⟩ := refused_run finds documented stands refused some_'
  refine ⟨parsed, ?_, same, acceptLines_lastError.1 error self refused⟩
  rw [List.foldlM_cons, parses]
  exact run

theorem refuses_ever_after_unversioned : ∃ parsed, [[ascii 'X', newline], [newline]].foldlM
      (parseBstr Istream.firstOccurrence Istream.bytesCalls) (create Istream.bytesCalls plainSetting) = some parsed ∧
    parsed.arg = some (.ok { state := { lineno := 1 }, lastError := some .parse, lastErrorLine := 1 }) := by
  have refused : acceptLines plainSetting {} (lineReader.split (leftOver plainSetting [] ++ [ascii 'X', newline])).1 =
      .ok (some .parse, { state := { lineno := 1 }, lastError := some .parse, lastErrorLine := 1 }) := by
    have split : lineReader.split [ascii 'X', newline] = ([[ascii 'X']], []) := by
      have one := @split_line [ascii 'X'] (by decide) []
      rw [split_whole List.not_mem_nil] at one
      exact one
    rw [leftOver, List.foldl_nil, List.nil_append, split]
    rfl
  obtain ⟨parsed, run, answers, -⟩ := @refuses_ever_after _ _ _ _ Istream.firstOccurrence_search
    Istream.bytesCalls_documented [] (by decide) (create Istream.bytesCalls plainSetting) _ rfl rfl
    [ascii 'X', newline] (by decide) (by decide) _ _ refused [[newline]] (by decide)
  exact ⟨parsed, run, answers⟩

end Apx.Parser
