import Apx.DefinitionParser
import Apx.StreamErrors

/-! What the parser of definitions makes of a text is what it makes of the lines of the text, one after the other, with
what an earlier text has left over in front of it. -/

namespace Apx.Parser

open Framing

variable {β : Type} {bstrSearchVal : Bytes → Byte → Nat} {calls : ByteArrayCalls β} {setting : ParserSetting}

/-- The lines of a text, up to the first error -/
def acceptLines (setting : ParserSetting) (self : Parser) : List Bytes → Except Failure (Option ApxError × Parser)
  | [] => .ok (none, self)
  | line :: rest =>
    match self.onNewLine setting line with
    | .ok (none, self) => acceptLines setting self rest
    | .ok (some error, self) => .ok (some error, self)
    | .error failure => .error failure

/-- The end of a text: the node is finalized where there was no error. -/
def endLines (setting : ParserSetting) : Except Failure (Option ApxError × Parser) → Nested Parser
  | .error failure => some (.error failure)
  | .ok (some _, self) => some (.ok self)
  | .ok (none, self) =>
    match self.onClose setting with
    | none => none
    | some (.error failure) => some (.error failure)
    | some (.ok (_, self)) => some (.ok self)

def parseLines (setting : ParserSetting) (lines : List Bytes) : Nested Parser :=
  endLines setting (acceptLines setting {} lines)

theorem acceptLines_append (self : Parser) (front back : List Bytes) :
    acceptLines setting self (front ++ back) =
      match acceptLines setting self front with
      | .ok (none, self) => acceptLines setting self back
      | .ok (some error, self) => .ok (some error, self)
      | .error failure => .error failure := by
  induction front generalizing self with
  | nil => rfl
  | cons line rest ih =>
    rw [List.cons_append, acceptLines, acceptLines]
    cases self.onNewLine setting line with
    | error failure => rfl
    | ok answer =>
      obtain ⟨error, next⟩ := answer
      cases error with
      | some error => rfl
      | none => exact ih next

/-! The handler of the stream -/

theorem accept_handle (self : Parser) (line : Bytes) :
    (handler setting).accept (some (.ok self)) line =
      match self.onNewLine setting line with
      | .ok (none, self) => .ok (some (.ok self))
      | .ok (some error, self) => .error (error, some (.ok self))
      | .error failure => .ok (some (.error failure)) := by
  have answers : Istream.handlerNewLine (handler setting) (some (.ok self)) line =
      handle (fun self => some (self.onNewLine setting line)) (some (.ok self)) := rfl
  rw [IstreamHandler.accept, answers, handle]
  cases self.onNewLine setting line with
  | error failure => rfl
  | ok answer =>
    obtain ⟨error, next⟩ := answer
    cases error with
    | none => rfl
    | some error => rfl

/-- A parser that has not come back: behind an assert that has failed, or with no stack left -/
def Stopped (parser : Nested Parser) : Prop := ∀ self, parser ≠ some (.ok self)

theorem stopped_failed (failure : Failure) : Stopped (some (.error failure)) := by
  intro self same
  cases same

theorem Stopped.handle {stopped : Nested Parser} (stops : Stopped stopped)
    (f : Parser → Nested (Option ApxError × Parser)) : Parser.handle f stopped = (none, stopped) := by
  rcases stopped with _ | failure | self
  · rfl
  · rfl
  · exact absurd rfl (stops self)

/-- No line is reached any more. -/
theorem Stopped.hand {stopped : Nested Parser} (stops : Stopped stopped) (lines : List Bytes) :
    Framing.hand (handler setting).accept stopped lines = .ok stopped := by
  induction lines with
  | nil => rfl
  | cons line rest ih =>
    have same : (handler setting).accept stopped line = .ok stopped := by
      have answers : Istream.handlerNewLine (handler setting) stopped line = (none, stopped) :=
        stops.handle fun self => some (self.onNewLine setting line)
      rw [IstreamHandler.accept, answers]
    rw [Framing.hand, same]
    exact ih

theorem hand_handle (self : Parser) (lines : List Bytes) :
    hand (handler setting).accept (some (.ok self)) lines =
      match acceptLines setting self lines with
      | .ok (none, self) => .ok (some (.ok self))
      | .ok (some error, self) => .error (error, some (.ok self))
      | .error failure => .ok (some (.error failure)) := by
  induction lines generalizing self with
  | nil => rfl
  | cons line rest ih =>
    rw [hand, accept_handle, acceptLines]
    cases self.onNewLine setting line with
    | error failure => exact (stopped_failed failure).hand rest
    | ok answer =>
      obtain ⟨error, next⟩ := answer
      cases error with
      | none => exact ih next
      | some error => rfl

theorem Stopped.close {stream : Istream β (Nested Parser)} {stopped : Nested Parser} (stops : Stopped stopped)
    {lastError : Option ApxError} {kept : Bytes}
    (stands : stream.Stands calls (handler setting) stopped lastError kept) :
    (stream.close calls).Stands calls (handler setting) stopped lastError kept := by
  cases lastError with
  | some error => exact (Istream.close_failed stands.lastError).symm ▸ stands
  | none =>
    have closed := stands.close
    rw [stops.hand] at closed
    have answers : Istream.handlerClose (handler setting) stopped = (none, stopped) :=
      stops.handle fun self => self.onClose setting
    dsimp only at closed
    rw [answers] at closed
    exact closed

/-- The answer and the state with which the stream is left behind a close that was reached -/
theorem close_handle {stream : Istream β (Nested Parser)} {self : Parser} {kept : Bytes}
    (stands : stream.Stands calls (handler setting) (some (.ok self)) none kept) :
    (stream.close calls).arg =
        endLines setting (acceptLines setting self (if kept = [] then [] else [kept])) ∧
      ∃ lastError, (stream.close calls).Stands calls (handler setting)
        (endLines setting (acceptLines setting self (if kept = [] then [] else [kept]))) lastError kept := by
  have closed := stands.close
  rw [hand_handle] at closed
  cases accepts : acceptLines setting self (if kept = [] then [] else [kept]) with
  | error failure =>
    rw [accepts] at closed
    exact ⟨closed.arg, _, closed⟩
  | ok answer =>
    obtain ⟨error, next⟩ := answer
    rw [accepts] at closed
    cases error with
    | some error => exact ⟨closed.arg, _, closed⟩
    | none =>
      have same : (Istream.handlerClose (handler setting) (some (.ok next))).2 =
          endLines setting (.ok (none, next)) := by
        change (handle (fun self => self.onClose setting) (some (.ok next))).2 = _
        rw [handle, endLines]
        rcases next.onClose setting with _ | _ | ⟨_, _⟩ <;> rfl
      dsimp only at closed
      rw [same] at closed
      exact ⟨closed.arg, _, closed⟩

/-! A text that follows on another one -/

theorem create_stands (documented : calls.Documented) :
    (create calls setting).Stands calls (handler setting) (some (.ok {})) none [] :=
  ⟨rfl, rfl, rfl, documented.create⟩

/-- The beginning of apx_parser_parse_bstr: the parser is reset, whether or not the stream is opened. -/
theorem open_stands {stream : Istream β (Nested Parser)} {self : Parser} {lastError : Option ApxError} {kept : Bytes}
    (stands : stream.Stands calls (handler setting) (some (.ok self)) lastError kept) :
    ({ stream with arg := resetHandle stream.arg }.open).Stands calls (handler setting) (some (.ok {})) lastError
      kept := by
  obtain ⟨same, arg, rfl, rfl⟩ := stands
  rw [arg, Istream.open]
  dsimp only
  split
  · next fine =>
    rw [Istream.keep, same]
    exact ⟨rfl, rfl, fine.symm, rfl⟩
  · exact ⟨same, rfl, rfl, rfl⟩

theorem parseBstr_stands (finds : SearchFunction bstrSearchVal) (documented : calls.Documented)
    {stream : Istream β (Nested Parser)} {self : Parser} {lastError : Option ApxError} {kept : Bytes}
    (stands : stream.Stands calls (handler setting) (some (.ok self)) lastError kept) {t : Bytes} (some_ : t ≠ [])
    (small : t.length < 2 ^ 32) :
    ∃ written : Istream β (Nested Parser), parseBstr bstrSearchVal calls stream t = some (written.close calls) ∧
      match acceptLines setting {} (lineReader.split (kept ++ t)).1 with
      | .error failure => ∃ lastError left,
          written.Stands calls (handler setting) (some (.error failure)) lastError left
      | .ok (some error, self) =>
          written.Stands calls (handler setting) (some (.ok self)) (some error) (kept ++ t)
      | .ok (none, self) => written.Stands calls (handler setting) (some (.ok self))
          (if newline ∈ kept ++ t then none else lastError) (lineReader.split (kept ++ t)).2 := by
  have whole : t.take (t.length % 2 ^ 32) = t := by
    rw [Nat.mod_eq_of_lt small, List.take_length]
  obtain ⟨written, wrote, stands⟩ := (open_stands stands).write finds documented some_
  refine ⟨written, ?_, ?_⟩
  · rw [parseBstr]
    simp only [List.length_pos_iff.mpr some_, if_true, whole, wrote, Option.bind_eq_bind, Option.bind_some]
  · rw [hand_handle] at stands
    cases accepts : acceptLines setting {} (lineReader.split (kept ++ t)).1 with
    | error failure =>
      rw [accepts] at stands
      exact ⟨_, _, stands⟩
    | ok answer =>
      obtain ⟨error, next⟩ := answer
      rw [accepts] at stands
      cases error with
      | none => exact stands
      | some error => exact stands

theorem lines_eq_split (t : Bytes) : Istream.lines t =
    (lineReader.split t).1 ++ if (lineReader.split t).2 = [] then [] else [(lineReader.split t).2] := by
  rw [split_lines]
  rfl

/-- What can be left over between two texts: a line that has no end yet, or a text of which a line was refused -/
def Kept (setting : ParserSetting) (kept : Bytes) : Prop :=
  newline ∉ kept ∨ ∃ error self, acceptLines setting {} (lineReader.split kept).1 = .ok (some error, self)

/-- What is left over in the buffer behind a text -/
def keeps (setting : ParserSetting) (kept t : Bytes) : Bytes :=
  match acceptLines setting {} (lineReader.split (kept ++ t)).1 with
  | .ok (none, _) => (lineReader.split (kept ++ t)).2
  | _ => kept ++ t

theorem keeps_accepted {kept t : Bytes} {self : Parser}
    (accepted : acceptLines setting {} (lineReader.split (kept ++ t)).1 = .ok (none, self)) :
    keeps setting kept t = (lineReader.split (kept ++ t)).2 := by
  rw [keeps, accepted]

theorem keeps_refused {kept t : Bytes} {error : ApxError} {self : Parser}
    (refused : acceptLines setting {} (lineReader.split (kept ++ t)).1 = .ok (some error, self)) :
    keeps setting kept t = kept ++ t := by
  rw [keeps, refused]

theorem split_whole {t : Bytes} (none_ : newline ∉ t) : lineReader.split t = ([], t) :=
  lineReader.split_none (lineReader_none none_)

theorem Kept.keeps_nil {kept : Bytes} (able : Kept setting kept) : keeps setting kept [] = kept := by
  rcases able with none_ | ⟨error, self, refused⟩
  · have whole : (lineReader.split (kept ++ [])) = ([], kept) := by rw [List.append_nil, split_whole none_]
    have accepted : acceptLines setting {} (lineReader.split (kept ++ [])).1 = .ok (none, {}) := by rw [whole]; rfl
    rw [keeps_accepted accepted, whole]
  · have same : acceptLines setting {} (lineReader.split (kept ++ [])).1 = .ok (some error, self) := by
      rw [List.append_nil, refused]
    rw [keeps_refused same, List.append_nil]

/-- No line ends in the rest behind the last line. -/
theorem newline_not_mem_rest (t : Bytes) : newline ∉ (lineReader.split t).2 := by
  intro mem
  obtain ⟨line, rest, same, one⟩ := List.eq_append_cons_of_mem mem
  have found := lineReader.next_rest t
  rw [same, lineReader_line one rest] at found
  cases found

/-- The stream of a parser that has come back, with what is left over, or of one that has not -/
def Behind (calls : ByteArrayCalls β) (setting : ParserSetting) (kept : Bytes) (stream : Istream β (Nested Parser)) :
    Prop :=
  (Kept setting kept ∧ ∃ self lastError, stream.Stands calls (handler setting) (some (.ok self)) lastError kept) ∨
    ∃ stopped lastError left, stream.Stands calls (handler setting) stopped lastError left ∧ Stopped stopped

theorem behind_of_stands {stream : Istream β (Nested Parser)} {arg : Nested Parser} {lastError : Option ApxError}
    {kept : Bytes} (able : Kept setting kept) (stands : stream.Stands calls (handler setting) arg lastError kept) :
    Behind calls setting kept stream := by
  by_cases stopped : Stopped arg
  · exact .inr ⟨_, _, _, stands, stopped⟩
  · rw [Stopped, not_forall] at stopped
    obtain ⟨self, returned⟩ := stopped
    rw [not_not.mp returned] at stands
    exact .inl ⟨able, _, _, stands⟩

/-- A parser that has come back reads the next text behind what was left over. When the stream has kept an error from
before, it takes a newline to clear it. -/
theorem parses_stands (finds : SearchFunction bstrSearchVal) (documented : calls.Documented)
    {stream : Istream β (Nested Parser)} {before : Parser} {lastError : Option ApxError} {kept : Bytes}
    (stands : stream.Stands calls (handler setting) (some (.ok before)) lastError kept) (able : Kept setting kept)
    {t : Bytes} (small : t.length < 2 ^ 32) :
    ∃ parsed, parseBstr bstrSearchVal calls stream t = some parsed ∧
      (newline ∈ t ∨ lastError = none ∧ kept = [] →
        parsed.arg = parseLines setting (Istream.lines (kept ++ t))) ∧
      Behind calls setting (keeps setting kept t) parsed := by
  by_cases some_ : t = []
  · subst some_
    have opened := open_stands stands
    rw [able.keeps_nil]
    cases lastError with
    | some error =>
      refine ⟨_, rfl, ?_, ?_⟩
      · rintro (mem | ⟨none_, -⟩)
        · contradiction
        · contradiction
      · exact (Istream.close_failed opened.lastError).symm ▸ behind_of_stands able opened
    | none =>
      obtain ⟨answers, lastError, closed⟩ := close_handle opened
      refine ⟨_, rfl, ?_, behind_of_stands able closed⟩
      rintro (mem | ⟨-, rfl⟩)
      · contradiction
      · exact answers
  · obtain ⟨written, parses, stands⟩ := parseBstr_stands finds documented stands some_ small
    refine ⟨_, parses, ?_⟩
    rw [parseLines, lines_eq_split, acceptLines_append]
    cases accepts : acceptLines setting {} (lineReader.split (kept ++ t)).1 with
    | error failure =>
      rw [accepts] at stands
      obtain ⟨lastError, left, stands⟩ := stands
      have closed := (stopped_failed failure).close stands
      exact ⟨fun _ => closed.arg, .inr ⟨_, _, _, closed, stopped_failed failure⟩⟩
    | ok answer =>
      obtain ⟨error, next⟩ := answer
      rw [accepts] at stands
      cases error with
      | some error =>
        dsimp only at stands
        rw [Istream.close_failed stands.lastError, keeps_refused accepts]
        exact ⟨fun _ => stands.arg, behind_of_stands (.inr ⟨error, next, accepts⟩) stands⟩
      | none =>
        dsimp only at stands
        rw [keeps_accepted accepts]
        have able : Kept setting (lineReader.split (kept ++ t)).2 := .inl (newline_not_mem_rest _)
        generalize was : (if newline ∈ kept ++ t then none else lastError) = now at stands
        cases now with
        | some error =>
          rw [Istream.close_failed stands.lastError]
          refine ⟨?_, behind_of_stands able stands⟩
          rintro (mem | ⟨rfl, -⟩)
          · rw [if_pos (List.mem_append_right _ mem)] at was
            cases was
          · rw [ite_self] at was
            cases was
        | none =>
          obtain ⟨answers, lastError, closed⟩ := close_handle stands
          exact ⟨fun _ => answers, behind_of_stands able closed⟩

theorem Stopped.parses (finds : SearchFunction bstrSearchVal) (documented : calls.Documented)
    {stream : Istream β (Nested Parser)} {stopped : Nested Parser} (stops : Stopped stopped)
    {lastError : Option ApxError} {kept : Bytes}
    (stands : stream.Stands calls (handler setting) stopped lastError kept) {t : Bytes} (small : t.length < 2 ^ 32) :
    ∃ parsed, parseBstr bstrSearchVal calls stream t = some parsed ∧
      ∃ lastError left, parsed.Stands calls (handler setting) stopped lastError left := by
  have opened : ({ stream with arg := resetHandle stream.arg }.open).Stands calls (handler setting) stopped lastError
      kept := by
    obtain ⟨same, rfl, rfl, rfl⟩ := stands
    have reset : resetHandle stream.arg = stream.arg := by
      rcases is : stream.arg with _ | failure | self
      · rfl
      · rfl
      · exact absurd is (stops self)
    have answers : Istream.handlerOpen (handler setting) stream.arg = (none, stream.arg) :=
      stops.handle fun self => some (.ok self.onOpen)
    rw [reset, Istream.open]
    split
    · next fine =>
      rw [Istream.keep, same, answers]
      exact ⟨rfl, rfl, fine.symm, rfl⟩
    · exact ⟨same, rfl, rfl, rfl⟩
  by_cases some_ : t = []
  · subst some_
    exact ⟨_, rfl, _, _, stops.close opened⟩
  · have whole : t.take (t.length % 2 ^ 32) = t := by rw [Nat.mod_eq_of_lt small, List.take_length]
    obtain ⟨written, wrote, stands⟩ := opened.write finds documented some_
    rw [stops.hand] at stands
    refine ⟨written.close calls, ?_, _, _, stops.close stands⟩
    rw [parseBstr]
    simp only [List.length_pos_iff.mpr some_, if_true, whole, wrote, Option.bind_eq_bind, Option.bind_some]

end Apx.Parser
