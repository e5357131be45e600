import Apx.ParserHistory

/-! Whether a parser that has been called before answers as a new one: it does where the calls have left nothing in its
stream. -/

namespace Apx.Parser

open Bstr Framing

variable {β : Type} {bstrSearchVal : Bytes → Byte → Nat} {calls : ByteArrayCalls β} {setting : ParserSetting}

/-- What a caller gets from a call: its return code, the line of the error and the node -/
structure Outcome where
  lastError : Option ApxError
  lastErrorLine : Int
  node : Option NodeDeclaration

def outcome (self : Parser) : Outcome := ⟨self.lastError, self.lastErrorLine, self.takeLastNode.1⟩

/-- What comes of a call, if the call comes back -/
def answer (parser : Nested Parser) : Nested Outcome := parser.map fun returned => returned.map outcome

/-- The call of apx_parser_take_last_node behind a call that has come back -/
def takeHandle : Nested Parser → Nested Parser
  | some (.ok self) => some (.ok self.takeLastNode.2)
  | stopped => stopped

/-- A call of apx_parser_parse_bstr, behind which the node is taken or is left in the parser -/
structure EarlierCall where
  text : Bytes
  nodeTaken : Bool

def EarlierCall.make (bstrSearchVal : Bytes → Byte → Nat) (calls : ByteArrayCalls β)
    (stream : Istream β (Nested Parser)) (call : EarlierCall) : Option (Istream β (Nested Parser)) := do
  let parsed ← parseBstr bstrSearchVal calls stream call.text
  some (if call.nodeTaken then { parsed with arg := takeHandle parsed.arg } else parsed)

/-- The bytes of a text that get to the stream, whose length has 32 bits -/
def sent (t : Bytes) : Bytes := t.take (t.length % 2 ^ 32)

theorem sent_length (t : Bytes) : (sent t).length = t.length % 2 ^ 32 := by
  rw [sent, List.length_take]
  exact Nat.min_eq_left (Nat.mod_le _ _)

theorem sent_small (t : Bytes) : (sent t).length < 2 ^ 32 := by
  rw [sent_length]
  exact Nat.mod_lt _ (by decide)

theorem parseBstr_sent (stream : Istream β (Nested Parser)) (t : Bytes) :
    parseBstr bstrSearchVal calls stream t = parseBstr bstrSearchVal calls stream (sent t) := by
  have whole : (sent t).take ((sent t).length % 2 ^ 32) = sent t := by
    rw [Nat.mod_eq_of_lt (sent_small t), List.take_length]
  rw [parseBstr, parseBstr, whole, ← sent]
  by_cases nothing : sent t = []
  · have writes (stream : Istream β (Nested Parser)) :
        Istream.write bstrSearchVal calls stream (sent t) = some stream := by
      rw [nothing]
      rfl
    rw [writes, ite_self, ite_self]
  · have some_ := List.length_pos_iff.mpr nothing
    have longer : 0 < t.length := by
      have short := Nat.mod_le t.length (2 ^ 32)
      rw [sent_length] at some_
      omega
    rw [if_pos longer, if_pos some_]

theorem take_stands {stream : Istream β (Nested Parser)} {self : Parser} {lastError : Option ApxError} {kept : Bytes}
    (stands : stream.Stands calls (handler setting) (some (.ok self)) lastError kept) :
    ({ stream with arg := takeHandle stream.arg } : Istream β (Nested Parser)).Stands calls (handler setting)
      (some (.ok self.takeLastNode.2)) lastError kept := by
  refine ⟨stands.handler, ?_, stands.lastError, stands.buf⟩
  rw [stands.arg]
  rfl

theorem Behind.take {kept : Bytes} {stream : Istream β (Nested Parser)} (behind : Behind calls setting kept stream) :
    Behind calls setting kept { stream with arg := takeHandle stream.arg } := by
  rcases behind with ⟨able, self, lastError, stands⟩ | ⟨stopped, lastError, left, stands, stops⟩
  · exact .inl ⟨able, _, lastError, take_stands stands⟩
  · have same : takeHandle stream.arg = stopped := by
      rw [stands.arg]
      rcases stopped with _ | failure | self
      · rfl
      · rfl
      · exact absurd rfl (stops self)
    exact .inr ⟨stopped, lastError, left, ⟨stands.handler, same, stands.lastError, stands.buf⟩, stops⟩

theorem Behind.call (finds : SearchFunction bstrSearchVal) (documented : calls.Documented) {kept : Bytes}
    {stream : Istream β (Nested Parser)} (behind : Behind calls setting kept stream) (call : EarlierCall) :
    ∃ next, call.make bstrSearchVal calls stream = some next ∧
      Behind calls setting (keeps setting kept (sent call.text)) next := by
  obtain ⟨parsed, parses, behind⟩ := behind.again finds documented (sent_small call.text)
  rw [EarlierCall.make, parseBstr_sent, parses]
  refine ⟨_, rfl, ?_⟩
  cases call.nodeTaken with
  | false => exact behind
  | true => exact behind.take

theorem acceptVersionLine_other {bs : Bstr} (state : ParseState) {c : Byte} (other : c ≠ ascii 'A') (t : Bytes) :
    state.acceptVersionLine bs (c :: t) = (some .parse, state) := by
  rw [ParseState.acceptVersionLine]
  cases found : bs.matchCstr ("APX/".toList.map ascii) (c :: t) with
  | none => rfl
  | some rest =>
    have starts := (bs.matchCstr_iff _ _ _).mp found
    exact absurd (List.cons.inj starts).1 other

theorem onNewLine_some (self : Parser) {line : Bytes} (some_ : line ≠ []) : self.onNewLine setting line =
    match self.nextLine.state.acceptLine setting line with
    | .error failure => .error failure
    | .ok (none, state) => .ok (none, { self.nextLine with state := state })
    | .ok (some error, state) =>
        .ok (some error, { self.nextLine with state := state }.setError error state.lineno.toInt) := by
  rw [onNewLine, if_neg some_]
  rfl

theorem onNewLine_other (self : Parser) (first : self.state.acceptNext = .version) {c : Byte} (other : c ≠ ascii 'A')
    (t : Bytes) : self.onNewLine setting (c :: t) =
      .ok (some .parse, self.nextLine.setError .parse self.nextLine.state.lineno.toInt) := by
  have accepts : self.nextLine.state.acceptLine setting (c :: t) = .ok (some .parse, self.nextLine.state) := by
    have here : self.nextLine.state.acceptNext = .version := first
    rw [ParseState.acceptLine, here]
    exact congrArg _ (acceptVersionLine_other _ other t)
  rw [onNewLine_some self (List.cons_ne_nil _ _), accepts]

/-- A line with the name of a node -/
def nodeLine : Bytes := [ascii 'N', quote, ascii 'a', quote]

theorem nodeLine_accepted (self : Parser) (second : self.state.acceptNext = .node) :
    ∃ next, self.onNewLine setting nodeLine = .ok (none, next) ∧ next.state.node ≠ none := by
  have named : NodeLine nodeLine (CString.ofBytes [ascii 'a']) := @NodeLine.mk [ascii 'a'] ⟨by decide, by decide⟩
  have accepted := (@ParseState.acceptNodeDeclaration_iff self.nextLine.state _ nodeLine setting.bs).mpr
    ⟨_, named, rfl⟩
  have here : self.nextLine.state.acceptNext = .node := second
  have line : self.nextLine.state.acceptLine setting nodeLine =
      .ok (self.nextLine.state.acceptNodeDeclaration setting.bs nodeLine) := by
    rw [ParseState.acceptLine, here]
  have some_ : nodeLine ≠ [] := List.cons_ne_nil _ _
  rw [onNewLine_some self some_, line, accepted]
  exact ⟨_, rfl, Option.some_ne_none _⟩

/-- A parser that is left with a node gives it to its caller, also where it cannot be finalized. -/
theorem endLines_node {self self' : Parser} (has : self.state.node ≠ none)
    (ends : endLines setting (.ok (none, self)) = some (.ok self')) : self'.state.node ≠ none := by
  obtain ⟨declared, is⟩ := Option.ne_none_iff_exists'.mp has
  rw [endLines, onClose, is] at ends
  dsimp only at ends
  rcases finalized : declared.finalize setting.depth with _ | ⟨⟨_ | _ | _, line⟩⟩ | node
  all_goals rw [finalized] at ends
  · cases ends
  · cases ends
    exact has
  · cases ends
  · cases ends
  · cases ends
    exact Option.some_ne_none _

/-- A new parser refuses the line at its number. -/
theorem nodeLine_unversioned :
    answer (parseLines setting [[], nodeLine]) = some (.ok ⟨some .parse, 2, none⟩) := by
  rw [parseLines, acceptLines_empty, acceptLines, nodeLine, onNewLine_other _ rfl (by decide)]
  rfl

/-- With something in front of it, the line is not reached, or a node is declared. -/
theorem nodeLine_behind {kept : Bytes} (some_ : kept ≠ []) :
    answer (parseLines setting [kept, nodeLine]) ≠ some (.ok ⟨some .parse, 2, none⟩) := by
  intro same
  obtain ⟨_ | self, ends, is⟩ := Option.map_eq_some_iff.mp same
  · cases is
  have is : outcome self = ⟨some .parse, 2, none⟩ := Except.ok.inj is
  have line : self.lastErrorLine = 2 := congrArg Outcome.lastErrorLine is
  have nothing : self.state.node = none := congrArg Outcome.node is
  rw [parseLines, acceptLines] at ends
  rcases accepts : ({} : Parser).onNewLine setting kept with failure | ⟨_ | error, next⟩
  all_goals rw [accepts] at ends
  · cases ends
  · have version : next.state.acceptNext = .node := by
      rw [onNewLine_some _ some_] at accepts
      rcases reads : ({} : Parser).nextLine.state.acceptVersionLine setting.bs kept with ⟨_ | error, state⟩
      · have here : ({} : Parser).nextLine.state.acceptLine setting kept = .ok (none, state) := congrArg _ reads
        rw [here] at accepts
        cases accepts
        obtain ⟨major, minor, -, rfl⟩ := ParseState.acceptVersionLine_iff.mp reads
        rfl
      · have here : ({} : Parser).nextLine.state.acceptLine setting kept = .ok (some error, state) :=
          congrArg _ reads
        rw [here] at accepts
        cases accepts
    obtain ⟨last, accepted, has⟩ := @nodeLine_accepted setting next version
    dsimp only at ends
    rw [acceptLines, accepted] at ends
    exact endLines_node has ends nothing
  · cases ends
    obtain ⟨-, ⟨none_, -⟩ | ⟨-, -, first⟩⟩ := onNewLine_leaves accepts
    · cases none_
    · have one : ((0 : BitVec 32) + 1).toInt = 2 := first.symm.trans line
      exact absurd one (by decide)

/-- With something left over in front, some text gets another answer. -/
theorem Kept.tells {kept : Bytes} (able : Kept setting kept) (some_ : kept ≠ []) :
    ∃ t, newline ∈ t ∧ t.length < 2 ^ 32 ∧
      answer (parseLines setting (Istream.lines (kept ++ t))) ≠ answer (parseLines setting (Istream.lines t)) := by
  rcases able with none_ | ⟨error, self, refused⟩
  · refine ⟨carriageReturn :: newline :: (nodeLine ++ [newline]), by simp, by decide, ?_⟩
    have one : newline ∉ kept ++ [carriageReturn] := by
      rw [List.mem_append, not_or]
      exact ⟨none_, by decide⟩
    have fresh : Istream.lines (carriageReturn :: newline :: (nodeLine ++ [newline])) = [[], nodeLine] := by decide
    have last : lineReader.split (nodeLine ++ [newline]) = ([nodeLine], []) := by
      rw [split_line (by decide), split_whole List.not_mem_nil]
      rfl
    have lines : Istream.lines (kept ++ carriageReturn :: newline :: (nodeLine ++ [newline])) = [kept, nodeLine] := by
      have whole : kept ++ carriageReturn :: newline :: (nodeLine ++ [newline]) =
          (kept ++ [carriageReturn]) ++ newline :: (nodeLine ++ [newline]) := by simp
      rw [whole, lines_eq_split, split_line one, dropReturn_return, last, if_pos rfl]
      rfl
    rw [fresh, lines, nodeLine_unversioned]
    exact nodeLine_behind some_
  · refine ⟨[carriageReturn, newline], by decide, by decide, ?_⟩
    have empty : Istream.lines [carriageReturn, newline] = [[]] := by decide
    rw [parseLines_refused (refuses_longer refused _), empty]
    intro same
    have wrong := acceptLines_lastError.1 error self refused
    have fine : self.lastError = none := congrArg Outcome.lastError (Except.ok.inj (Option.some.inj same))
    rw [wrong] at fine
    cases fine

end Apx.Parser
