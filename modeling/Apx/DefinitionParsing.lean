import Apx.DefinitionText

/-! What apx_parser_parse_bstr answers: the finalized node of a definition, or the first line at which a text is none -/

namespace Apx

open Bstr Framing

/-! The number of a line -/

theorem lines_length (t : Bytes) : (Istream.lines t).length ≤ t.length := by
  rw [Parser.lines_eq_split]
  induction t using lines_induction with
  | last t none_ =>
    rw [lineReader.split_none (lineReader_none none_)]
    by_cases empty : t = []
    · rw [if_pos empty]
      exact Nat.zero_le _
    · rw [if_neg empty]
      exact List.length_pos_iff.mpr empty
  | line line rest one ih =>
    rw [split_line one]
    simp only [List.cons_append, List.length_cons, List.length_append] at ih ⊢
    omega

theorem lineNumber_small {n : Nat} (small : n < 2 ^ 31) : lineNumber n = n := by
  rw [lineNumber, BitVec.toInt_eq_toNat_of_lt]
  · rw [BitVec.toNat_ofNat, Nat.mod_eq_of_lt (by omega)]
  · rw [BitVec.toNat_ofNat, Nat.mod_eq_of_lt (by omega)]
    omega

namespace ParseState
variable {setting : ParserSetting} {state state' : ParseState} {t : Bytes} {error : Option ApxError}

theorem acceptVersionLine_lineno {bs : Bstr} : (state.acceptVersionLine bs t).2.lineno = state.lineno := by
  unfold acceptVersionLine
  repeat' split
  all_goals rfl

theorem acceptNodeDeclaration_lineno {bs : Bstr} : (state.acceptNodeDeclaration bs t).2.lineno = state.lineno := by
  unfold acceptNodeDeclaration
  repeat' split
  all_goals rfl

theorem acceptTypeDeclaration_lineno (answers : state.acceptTypeDeclaration setting t = .ok (error, state')) :
    state'.lineno = state.lineno := by
  unfold acceptTypeDeclaration at answers
  repeat' split at answers
  all_goals first
    | contradiction
    | cases answers; rfl

theorem acceptPortDeclaration_lineno (answers : state.acceptPortDeclaration setting t = .ok (error, state')) :
    state'.lineno = state.lineno := by
  unfold acceptPortDeclaration at answers
  repeat' split at answers
  all_goals first
    | contradiction
    | cases answers; rfl

/-- No line changes the number of the line. -/
theorem acceptLine_lineno (answers : state.acceptLine setting t = .ok (error, state')) :
    state'.lineno = state.lineno := by
  rw [acceptLine] at answers
  split at answers
  · obtain rfl : (state.acceptVersionLine setting.bs t).2 = state' := congrArg Prod.snd (Except.ok.inj answers)
    exact acceptVersionLine_lineno
  · obtain rfl : (state.acceptNodeDeclaration setting.bs t).2 = state' := congrArg Prod.snd (Except.ok.inj answers)
    exact acceptNodeDeclaration_lineno
  · unfold acceptTypeOrPortDeclaration at answers
    split at answers
    · cases answers
      rfl
    · split at answers
      · cases answers
        rfl
      · split at answers
        · exact acceptTypeDeclaration_lineno answers
        · split at answers
          · cases answers
          · next declared =>
            cases answers
            exact acceptPortDeclaration_lineno declared
          · next declared =>
            cases answers
            have same := acceptPortDeclaration_lineno declared
            exact same
  · exact acceptPortDeclaration_lineno answers

end ParseState

namespace Parser
variable {setting : ParserSetting} {self self' : Parser}

theorem onNewLine_leaves {line : Bytes} {error : Option ApxError}
    (answers : self.onNewLine setting line = .ok (error, self')) :
    self'.state.lineno = self.state.lineno + 1 ∧
      (error = none ∧ self'.lastError = self.lastError ∨
        error ≠ none ∧ self'.lastError = error ∧ self'.lastErrorLine = (self.state.lineno + 1).toInt) := by
  rw [onNewLine] at answers
  dsimp only at answers
  split at answers
  · cases answers
    exact ⟨rfl, .inl ⟨rfl, rfl⟩⟩
  · split at answers
    · cases answers
    · next accepted =>
      cases answers
      exact ⟨ParseState.acceptLine_lineno accepted, .inl ⟨rfl, rfl⟩⟩
    · next refused =>
      cases answers
      have same := ParseState.acceptLine_lineno refused
      exact ⟨same, .inr ⟨Option.some_ne_none _, rfl, congrArg BitVec.toInt same⟩⟩

theorem acceptLines_accepted {lines : List Bytes} (accepted : acceptLines setting self lines = .ok (none, self')) :
    self'.state.lineno = self.state.lineno + BitVec.ofNat 32 lines.length ∧ self'.lastError = self.lastError := by
  induction lines generalizing self with
  | nil =>
    cases accepted
    exact ⟨(BitVec.add_zero _).symm, rfl⟩
  | cons line rest ih =>
    rw [acceptLines] at accepted
    split at accepted
    · next next answers =>
      obtain ⟨count, ⟨-, fine⟩ | ⟨wrong, -⟩⟩ := onNewLine_leaves answers
      · obtain ⟨count', fine'⟩ := ih accepted
        refine ⟨?_, fine'.trans fine⟩
        rw [count', count, List.length_cons, BitVec.ofNat_add, BitVec.add_assoc]
        exact congrArg _ (BitVec.add_comm _ _)
      · exact absurd rfl wrong
    · cases accepted
    · cases accepted

/-- The line with the error: all lines in front of it are accepted. -/
theorem acceptLines_refused {lines : List Bytes} {error : ApxError}
    (refused : acceptLines setting self lines = .ok (some error, self')) :
    ∃ before line after middle, lines = before ++ line :: after ∧
      acceptLines setting self before = .ok (none, middle) ∧
      middle.onNewLine setting line = .ok (some error, self') := by
  induction lines generalizing self with
  | nil => cases refused
  | cons line rest ih =>
    rw [acceptLines] at refused
    split at refused
    · next next answers =>
      obtain ⟨before, line', after, middle, rfl, accepted, answers'⟩ := ih refused
      refine ⟨line :: before, line', after, middle, rfl, ?_, answers'⟩
      rw [acceptLines, answers]
      exact accepted
    · next answers =>
      cases refused
      exact ⟨[], line, rest, self, rfl, rfl, answers⟩
    · cases refused

theorem isDefinition_iff {lines : List Bytes} : IsDefinition setting.bs setting.double lines ↔
    ∃ self, acceptLines setting {} lines = .ok (none, self) := by
  constructor
  · rintro ⟨node, text⟩
    obtain ⟨self, accepted, -⟩ := acceptLines_iff.mpr text
    exact ⟨self, accepted⟩
  · rintro ⟨self, accepted⟩
    exact ⟨_, acceptLines_iff.mp ⟨self, accepted, rfl⟩⟩

theorem acceptLines_lastError {lines : List Bytes} :
    (∀ error self, acceptLines setting {} lines = .ok (some error, self) → self.lastError = some error) ∧
      ∀ self, acceptLines setting {} lines = .ok (none, self) → self.lastError = none := by
  constructor
  · intro error self refused
    obtain ⟨before, line, after, middle, -, -, answers⟩ := acceptLines_refused refused
    obtain ⟨-, ⟨same, -⟩ | ⟨-, kept, -⟩⟩ := onNewLine_leaves answers
    · cases same
    · exact kept
  · intro self accepted
    exact (acceptLines_accepted accepted).2

variable {β : Type} {bstrSearchVal : Bytes → Byte → Nat} {calls : ByteArrayCalls β}

theorem create_parses (finds : SearchFunction bstrSearchVal) (documented : calls.Documented) {t : Bytes}
    (small : t.length < 2 ^ 32) : ∃ parsed, parseBstr bstrSearchVal calls (create calls setting) t = some parsed ∧
      parsed.arg = parseLines setting (Istream.lines t) := by
  obtain ⟨parsed, parses, answers, -⟩ :=
    parses_stands finds documented (create_stands documented) (.inl List.not_mem_nil) small
  exact ⟨parsed, parses, answers (.inr ⟨rfl, rfl⟩)⟩

/-- A reader that finds no number -/
def noDouble : DoubleReader where
  toDouble _ := none
  shorter found := (Option.some_ne_none _ found.symm).elim

/-- A setting that reads ASCII, and no numbers of double precision -/
def plainSetting : ParserSetting where
  bs := Bstr.asciiLibrary
  double := noDouble
  lineEnd _ := lineFeed
  depth := 2

def requiringText : Bytes := "APX/1.2\nN\"a\"\n\nR\"p\"C\n".toList.map ascii

def requiringNode : NodeDeclaration where
  name := CString.ofBytes [ascii 'a']
  requirePorts :=
    [{ name := CString.ofBytes [ascii 'p'], dataElement := some (.leaf none .uint8 0 false none), lineNumber := 4 }]

theorem requiringText_definition (double : DoubleReader) : DefinitionText Bstr.asciiLibrary double
    (numberedFrom 1 (Istream.lines requiringText)) (some requiringNode) := by
  have lines : numberedFrom 1 (Istream.lines requiringText) =
      [(1, "APX/1.2".toList.map ascii), (2, "N\"a\"".toList.map ascii), (4, "R\"p\"C".toList.map ascii)] := by decide
  have version : VersionLine ("APX/1.2".toList.map ascii) 1 2 :=
    @VersionLine.mk [ascii '1'] [ascii '2'] 1 2 (.inr ⟨⟨List.cons_ne_nil _ _, by decide +kernel⟩, by decide +kernel⟩)
      (.inr ⟨⟨List.cons_ne_nil _ _, by decide +kernel⟩, by decide +kernel⟩) (by decide) (by decide)
  have named : NodeLine ("N\"a\"".toList.map ascii) requiringNode.name :=
    @NodeLine.mk [ascii 'a'] ⟨by decide, by decide⟩
  have number : Signature Bstr.asciiLibrary 64 [ascii 'C'] (.leaf none .uint8 0 false none) [] :=
    .leaf rfl (.absent (by decide)) (.absent (by decide))
  have port : PortLine Bstr.asciiLibrary ("R\"p\"C".toList.map ascii) .require
      (CString.ofBytes [ascii 'p']) (some (.leaf none .uint8 0 false none)) none :=
    @PortLine.plain _ (ascii 'R') [ascii 'p'] [ascii 'C'] .require _ rfl ⟨by decide, by decide⟩
      (.plain number (by decide))
  rw [lines]
  exact .version version (.node named (.ports (.port port .ended)))

/-- A parser that comes back from a text that is no definition has refused its first line at which the text is none:
the lines in front of it are a definition, and with this line they are none, whatever follows. -/
theorem parseBstr_refuses (finds : SearchFunction bstrSearchVal) (documented : calls.Documented) {t : Bytes}
    (small : t.length < 2 ^ 31) {parsed : Istream β (Nested Parser)} {self : Parser}
    (parses : parseBstr bstrSearchVal calls (create calls setting) t = some parsed)
    (returns : parsed.arg = some (.ok self)) (none_ : ¬IsDefinition setting.bs setting.double (Istream.lines t)) :
    self.lastError ≠ none ∧ ∃ before line after, Istream.lines t = before ++ line :: after ∧
      self.lastErrorLine = before.length + 1 ∧ IsDefinition setting.bs setting.double before ∧
      ∀ behind, ¬IsDefinition setting.bs setting.double (before ++ line :: behind) := by
  obtain ⟨parsed', parses', answers⟩ := @create_parses setting _ _ _ finds documented t (by omega)
  cases parses.symm.trans parses'
  rw [returns, parseLines] at answers
  rcases known : acceptLines setting {} (Istream.lines t) with failure | ⟨_ | error, last⟩
  · rw [known] at answers
    cases answers
  · exact absurd (isDefinition_iff.mpr ⟨last, known⟩) none_
  · rw [known] at answers
    cases answers
    obtain ⟨before, line, after, middle, whole, accepted, refuses⟩ := acceptLines_refused known
    obtain ⟨-, ⟨same, -⟩ | ⟨-, kept, number⟩⟩ := onNewLine_leaves refuses
    · cases same
    · have count := (acceptLines_accepted accepted).1
      have inside : before.length < (Istream.lines t).length := by
        rw [whole, List.length_append, List.length_cons]
        omega
      have short := lines_length t
      refine ⟨by rw [kept]; exact Option.some_ne_none _, before, line, after, whole, ?_,
        isDefinition_iff.mpr ⟨middle, accepted⟩, ?_⟩
      · have next : middle.state.lineno + 1 = BitVec.ofNat 32 (before.length + 1) := by
          rw [count, BitVec.ofNat_add]
          exact congrArg (· + 1) (BitVec.zero_add _)
        rw [number, next]
        exact lineNumber_small (by omega)
      · intro behind definition
        obtain ⟨end_, accepted'⟩ := isDefinition_iff.mp definition
        rw [acceptLines_append, accepted] at accepted'
        dsimp only at accepted'
        rw [acceptLines, refuses] at accepted'
        cases accepted'

/-- A text without a version, behind an empty line -/
theorem parseBstr_refuses_unversioned : ∃ parsed self, parseBstr Istream.firstOccurrence Istream.bytesCalls
      (create Istream.bytesCalls plainSetting) [newline, ascii 'X', newline] = some parsed ∧
    parsed.arg = some (.ok self) ∧ self.lastError ≠ none ∧
    ∃ before line after, Istream.lines [newline, ascii 'X', newline] = before ++ line :: after ∧
      self.lastErrorLine = before.length + 1 ∧
      IsDefinition Bstr.asciiLibrary plainSetting.double before := by
  have lines : Istream.lines [newline, ascii 'X', newline] = [[], [ascii 'X']] := by decide
  have none_ : ¬IsDefinition Bstr.asciiLibrary plainSetting.double
      (Istream.lines [newline, ascii 'X', newline]) := by
    rw [lines]
    intro text
    obtain ⟨self, accepted⟩ := (@isDefinition_iff plainSetting _).mp text
    cases accepted
  obtain ⟨parsed, parses, answers⟩ := @create_parses plainSetting _ _ _ Istream.firstOccurrence_search
    Istream.bytesCalls_documented [newline, ascii 'X', newline] (by decide)
  rw [lines] at answers
  obtain ⟨wrong, before, line, after, whole, number, fine, -⟩ := parseBstr_refuses Istream.firstOccurrence_search
    Istream.bytesCalls_documented (by decide) parses answers none_
  exact ⟨parsed, _, parses, answers, wrong, before, line, after, whole, number, fine⟩

end Parser

end Apx
