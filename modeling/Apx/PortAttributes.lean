import Apx.Declarations
import Apx.ValueTable

/-! The attributes of a port and the parser for them (attribute_parser.c, parser.c) -/

namespace Apx

open Bstr

/-- The memory behind a line. It starts with what ends the line: CR or LF in a stream, zero behind a C string. -/
structure LineEnd where
  behind : Bytes
  ends : ∃ b more, behind = b :: more ∧ (b = 0 ∨ b = 10 ∨ b = 13)

/-- apx_attributeParseState_t. The parent of a state is the top of the stack. -/
structure AttributeParseState where
  sv : Option Sv := none
  initializerList : Option (List Dv) := none

namespace AttributeParseState

/-- apx_attributeParseState_has_value -/
def hasValue (state : AttributeParseState) : Bool := state.sv.isSome || state.initializerList.isSome

/-- dtl_av_push on the list of a state -/
def push (state : AttributeParseState) (value : Dv) : AttributeParseState :=
  { state with initializerList := state.initializerList.map (· ++ [value]) }

/-- dtl_av_is_empty on the list of a state -/
def listIsEmpty (state : AttributeParseState) : Bool := (state.initializerList.getD []).isEmpty

/-- apx_attributeParser_push_value_to_parent, for a state that has a value: the state and its parent -/
def pushValueToParent (state parent : AttributeParseState) : AttributeParseState × AttributeParseState :=
  match state.sv with
  | some sv => ({ state with sv := none }, parent.push (.scalar sv))
  | none =>
    match state.initializerList with
    | some list => ({ state with initializerList := none }, parent.push (.array list))
    | none => (state, parent)

end AttributeParseState

namespace AttributeParser

/-- The scalar that apx_attributeParser_parse_integer_literal makes of a value -/
def integerSv (unaryMinus : Bool) (value : BitVec 64) : Sv :=
  if unaryMinus ∧ value = 0x80000000#64 then .i32 (BitVec.intMin 32)
  else if value > 0x7fffffff#64 then .u32 (value.setWidth 32)
  else .i32 (if unaryMinus then -value.setWidth 32 else value.setWidth 32)

/-- apx_attributeParser_parse_integer_literal -/
def parseIntegerLiteral (behind t : Bytes) (unaryMinus : Bool) : Option (Sv × Bytes) :=
  (unsignedLong behind t).map fun (value, next) => (integerSv unaryMinus value, next)

/-- apx_attributeParser_parse_scalar; `none` is the null pointer. At the end of the line it looks at the byte that
ends the line, which starts no scalar. A literal that cannot be read leaves a new dtl_sv_t in the state. -/
def parseScalar (bs : Bstr) (behind : Bytes) (state : AttributeParseState) : Bytes → Option (AttributeParseState × Bytes)
  | [] => some (state, [])
  | c :: next =>
    if isDigit c then
      match parseIntegerLiteral behind (c :: next) false with
      | some (sv, next) => some ({ state with sv := some sv }, next)
      | none => some ({ state with sv := some .none }, c :: next)
    else if c = ascii '-' then
      if next = [] then none
      else
        match parseIntegerLiteral behind next true with
        | some (sv, next) => some ({ state with sv := some sv }, next)
        | none => some ({ state with sv := some .none }, next)
    else if c = quote then
      match bs.matchPair (c :: next) with
      | some (body, next) => some ({ state with sv := some (.str body) }, next)
      | none => some ({ state with sv := some .none }, c :: next)
    else some (state, c :: next)

/-- How the code at POST_VALUE_HANDLER ends: out of the loop, at its next pass, or with the null pointer -/
inductive PostValue where
  | done (state : AttributeParseState) (t : Bytes)
  | more (state : AttributeParseState) (stack : List AttributeParseState) (t : Bytes)
  | null

/-- The code at POST_VALUE_HANDLER. A closed list is the value of the state below, which is handled in the same way.
The byte that ends the line is neither a comma nor a brace. -/
def postValueHandler (bs : Bstr) (state : AttributeParseState) : List AttributeParseState → Bytes → PostValue
  | [], t => .done state t
  | parent :: stack, t =>
    match lstrip bs t with
    | [] => .null
    | c :: next =>
      let pushed := if state.hasValue then state.pushValueToParent parent else (state, parent)
      if !pushed.2.listIsEmpty && c = ascii ',' then .more pushed.1 (pushed.2 :: stack) next
      else if c = ascii '}' then
        if stack = [] then .done pushed.2 next else postValueHandler bs pushed.2 stack next
      else .null

/-! The parser never moves back. -/

theorem unsignedLong_length {behind t next : Bytes} {value : BitVec 64}
    (reads : unsignedLong behind t = some (value, next)) : next.length < t.length := by
  rw [unsignedLong] at reads
  split at reads
  · contradiction
  · next value' rest number =>
    obtain ⟨⟨x, r⟩, read, same⟩ := Option.map_eq_some_iff.mp number
    cases same
    have shorter := (Strtoul.integer_shorter read).1
    have part := (List.dropWhile_suffix (l := t ++ behind) Strtoul.isSpace).length_le
    rw [List.length_append] at part
    split at reads
    · cases reads
      rw [List.length_take]
      omega
    · contradiction

theorem parseIntegerLiteral_length {behind t next : Bytes} {minus : Bool} {sv : Sv}
    (reads : parseIntegerLiteral behind t minus = some (sv, next)) : next.length < t.length := by
  obtain ⟨⟨value, r⟩, read, same⟩ := Option.map_eq_some_iff.mp reads
  cases same
  exact unsignedLong_length read

theorem matchPair_length {bs : Bstr} {t body behind : Bytes} (found : bs.matchPair t = some (body, behind)) :
    behind.length < t.length := by
  obtain ⟨rfl, -⟩ := (bs.matchPair_iff _ _ _).mp found
  simp only [List.length_cons, List.length_append]
  omega

theorem parseScalar_length {bs : Bstr} {behind t next : Bytes} {state state' : AttributeParseState}
    (parsed : parseScalar bs behind state t = some (state', next)) : next.length ≤ t.length := by
  cases t with
  | nil =>
    cases parsed
    exact Nat.le_refl _
  | cons c t =>
    rw [parseScalar] at parsed
    split at parsed
    · split at parsed
      · next sv rest reads =>
        cases parsed
        exact (parseIntegerLiteral_length reads).le
      · cases parsed
        exact Nat.le_refl _
    · split at parsed
      · split at parsed
        · contradiction
        · split at parsed
          · next sv rest reads =>
            cases parsed
            exact (parseIntegerLiteral_length reads).le.trans (Nat.le_succ _)
          · cases parsed
            exact Nat.le_succ _
      · split at parsed
        · split at parsed
          · next body rest found =>
            cases parsed
            exact (matchPair_length found).le
          · cases parsed
            exact Nat.le_refl _
        · cases parsed
          exact Nat.le_refl _

theorem postValueHandler_length (bs : Bstr) {state : AttributeParseState} {stack : List AttributeParseState}
    {t : Bytes} :
    (∀ {state' next}, postValueHandler bs state stack t = .done state' next → next.length ≤ t.length) ∧
      ∀ {state' stack' next}, postValueHandler bs state stack t = .more state' stack' next → next.length < t.length := by
  induction stack generalizing state t with
  | nil =>
    constructor
    · intro state' next done
      cases done
      exact Nat.le_refl _
    · intro state' stack' next more
      cases more
  | cons parent stack ih =>
    have strip := length_lstrip_le bs t
    rw [postValueHandler]
    split
    · exact ⟨nofun, nofun⟩
    · next c rest stripped =>
      rw [stripped, List.length_cons] at strip
      dsimp only
      generalize (if state.hasValue = true then state.pushValueToParent parent else (state, parent)) = pushed
      split
      · refine ⟨nofun, fun more => ?_⟩
        cases more
        omega
      · split
        · split
          · refine ⟨fun done => ?_, nofun⟩
            cases done
            omega
          · exact ⟨fun done => (ih.1 done).trans (by omega), fun more => (ih.2 more).trans (by omega)⟩
        · exact ⟨nofun, nofun⟩

/-- apx_attributeParser_parse_initializer_list: the state at the end of the loop and the rest of the line; `none` is
the null pointer. -/
def parseInitializerList (bs : Bstr) (behind : Bytes) (state : AttributeParseState)
    (stack : List AttributeParseState) (t : Bytes) : Option (AttributeParseState × Bytes) :=
  if t = [] then some (state, lstrip bs t)
  else if _opens : (lstrip bs t).head? = some (ascii '{') then
    parseInitializerList bs behind {} ({ state with initializerList := some [] } :: stack) (lstrip bs t).tail
  else
    match _scalar : parseScalar bs behind state (lstrip bs t) with
    | none => none
    | some (state, next) =>
      match _post : postValueHandler bs state stack next with
      | .null => none
      | .done state next => some (state, lstrip bs next)
      | .more state stack next => parseInitializerList bs behind state stack next
  termination_by t.length
  decreasing_by
    · have strip := length_lstrip_le bs t
      have some := List.length_pos_of_ne_nil (List.ne_nil_of_mem (List.mem_of_mem_head? _opens))
      rw [List.length_tail]
      omega
    · have strip := length_lstrip_le bs t
      have scalar := parseScalar_length _scalar
      have post := (postValueHandler_length bs).2 _post
      omega

/-- apx_attributeParser_parse_initializer, which leaves the value as it is where it finds none -/
def parseInitializer (bs : Bstr) (behind t : Bytes) (dv : Option Dv) : Option (Option Dv × Bytes) :=
  match parseInitializerList bs behind {} [] t with
  | none => none
  | some (state, next) =>
    if next.length < t.length then
      match state.initializerList with
      | some list => some (some (.array list), next)
      | none =>
        match state.sv with
        | some sv => some (some (.scalar sv), next)
        | none => some (dv, next)
    else some (dv, next)

/-- apx_attributeParser_parse_array_length, with the length that it leaves behind -/
def parseArrayLength (bs : Bstr) (t : Bytes) (length : UInt32) : UInt32 × Option Bytes :=
  match t with
  | [] => (length, some [])
  | c :: next =>
    if c = ascii '[' then
      if lstrip bs next = [] then (length, some t)
      else
        match parseU32 bs (lstrip bs next) with
        | none => (length, none)
        | some (value, next) =>
          let length := UInt32.ofBitVec value
          match lstrip bs next with
          | [] => (length, some t)
          | d :: next => if d = ascii ']' then (length, some next) else (length, none)
    else (length, none)

theorem parseInitializerList_length {bs : Bstr} {behind next : Bytes} {state' : AttributeParseState}
    (bound : Nat) : ∀ {state : AttributeParseState} {stack : List AttributeParseState} {t : Bytes}, t.length ≤ bound →
      parseInitializerList bs behind state stack t = some (state', next) → next.length ≤ t.length := by
  induction bound with
  | zero =>
    intro state stack t short parsed
    obtain rfl := List.length_eq_zero_iff.mp (Nat.le_zero.mp short)
    rw [parseInitializerList, if_pos rfl] at parsed
    cases parsed
    exact length_lstrip_le bs []
  | succ bound ih =>
    intro state stack t short parsed
    have strip := length_lstrip_le bs t
    rw [parseInitializerList] at parsed
    split at parsed
    · cases parsed
      exact strip
    · split at parsed
      · next opens =>
        have some := List.length_pos_of_ne_nil (List.ne_nil_of_mem (List.mem_of_mem_head? opens))
        have tail := @List.length_tail _ (lstrip bs t)
        have later := ih (by omega) parsed
        omega
      · split at parsed
        · contradiction
        · next scalar =>
          have first := parseScalar_length scalar
          split at parsed
          · contradiction
          · next done =>
            cases parsed
            have post := (postValueHandler_length bs).1 done
            exact (length_lstrip_le bs _).trans (by omega)
          · next more =>
            have post := (postValueHandler_length bs).2 more
            have later := ih (by omega) parsed
            omega

theorem parseInitializer_length {bs : Bstr} {behind t next : Bytes} {dv dv' : Option Dv}
    (parsed : parseInitializer bs behind t dv = some (dv', next)) : next.length ≤ t.length := by
  rw [parseInitializer] at parsed
  split at parsed
  · contradiction
  · next state rest list =>
    have shorter := parseInitializerList_length _ (Nat.le_refl _) list
    split at parsed
    · split at parsed
      · cases parsed
        exact shorter
      · split at parsed
        · cases parsed
          exact shorter
        · cases parsed
          exact shorter
    · cases parsed
      exact shorter

theorem parseArrayLength_length {bs : Bstr} {t next : Bytes} {length length' : UInt32}
    (parsed : parseArrayLength bs t length = (length', some next)) : next.length ≤ t.length := by
  unfold parseArrayLength at parsed
  split at parsed
  · cases parsed
    exact Nat.le_refl _
  · next c t =>
    split at parsed
    · split at parsed
      · cases parsed
        exact Nat.le_refl _
      · have strip := length_lstrip_le bs t
        split at parsed
        · cases parsed
        · next n rest number =>
          obtain ⟨⟨value, r⟩, read, same⟩ := Option.map_eq_some_iff.mp number
          cases same
          obtain ⟨digits, text, -, -, -, -⟩ := (bs.toUnsignedLong_iff _ _ _).mp read
          have parts := congrArg List.length text
          rw [List.length_append] at parts
          have strip' := length_lstrip_le bs rest
          split at parsed
          · cases parsed
            exact Nat.le_refl _
          · next d after closes =>
            rw [closes, List.length_cons] at strip'
            split at parsed
            · cases parsed
              rw [List.length_cons]
              omega
            · cases parsed
    · cases parsed

/-- apx_attributeParser_parse_single_port_attribute at the character `c`: the attributes, also where it fails, and
the rest of the line -/
def parseSinglePortAttribute (bs : Bstr) (behind : Bytes) (attr : PortAttributes) (c : Byte) (next : Bytes) :
    PortAttributes × Option Bytes :=
  if c = ascii '=' then
    match parseInitializer bs behind next attr.initValue with
    | none => (attr, none)
    | some (initValue, next) => ({ attr with initValue := initValue }, some next)
  else if c = ascii 'P' then ({ attr with isParameter := true }, some next)
  else if c = ascii 'Q' then
    let (queueLength, next) := parseArrayLength bs next attr.queueLength
    ({ attr with queueLength := queueLength }, next)
  else (attr, none)

theorem parseSinglePortAttribute_length {bs : Bstr} {behind : Bytes} {attr attr' : PortAttributes} {c : Byte}
    {t next : Bytes} (parsed : parseSinglePortAttribute bs behind attr c t = (attr', some next)) :
    next.length ≤ t.length := by
  rw [parseSinglePortAttribute] at parsed
  split at parsed
  · split at parsed
    · cases parsed
    · next initValue rest value =>
      cases parsed
      exact parseInitializer_length value
  · split at parsed
    · cases parsed
      exact Nat.le_refl _
    · split at parsed
      · exact parseArrayLength_length (Prod.ext rfl (Prod.mk.inj parsed).2)
      · cases parsed

/-- apx_attributeParser_parse_port_attributes: the attributes, and where the parser stands at the end; `none` is the
null pointer. An attribute that fails ends the loop in front of it. -/
def parsePortAttributes (bs : Bstr) (behind : Bytes) (attr : PortAttributes) (t : Bytes) :
    PortAttributes × Option Bytes :=
  if t = [] then (attr, some t)
  else
    match _strip : lstrip bs t with
    | [] => (attr, some [])
    | c :: next =>
      match _single : parseSinglePortAttribute bs behind attr c next with
      | (attr, none) => (attr, some (c :: next))
      | (attr, some result) =>
        match _separator : lstrip bs result with
        | [] => (attr, some [])
        | d :: next => if d = ascii ',' then parsePortAttributes bs behind attr next else (attr, none)
  termination_by t.length
  decreasing_by
    have strip := congrArg List.length _strip ▸ length_lstrip_le bs t
    have single := parseSinglePortAttribute_length _single
    have separator := congrArg List.length _separator ▸ length_lstrip_le bs result
    rw [List.length_cons] at strip separator
    omega

end AttributeParser

/-- The last error of an attribute parser that has taken nothing of the text `t`: a parse error, or what an earlier
call has left if the text is empty -/
def errorAt (lastError : Option ApxError) (t : Bytes) : Option ApxError := if t = [] then lastError else some .parse

/-- state_parse_port_attributes, for a port with the attributes that apx_port_init_attributes has made, and a parser
with this last error -/
def stateParsePortAttributes (bs : Bstr) (line : LineEnd) (lastError : Option ApxError) (t : Bytes) :
    Except ApxError PortAttributes :=
  match AttributeParser.parsePortAttributes bs line.behind {} t with
  | (attr, some result) =>
    if result.length < t.length then .ok attr
    else
      match errorAt lastError t with
      | none => .ok attr
      | some error => .error error
  | (_, none) => .error .parse

end Apx
