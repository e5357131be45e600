import Apx.PortAttributes
import Apx.ValueTableText

/-! The texts that port attributes are written in, and what else the parser for them takes. Each relation has a strict
reading, which is what is meant, and a loose one with all that is accepted. -/

namespace Apx

open Bstr

def integerValue (x : Int) : Sv := if x < 2 ^ 31 then .i32 (BitVec.ofInt 32 x) else .u32 (BitVec.ofInt 32 x)

/-- The scalar that the parser makes of a number -/
def WrittenNumber.sv (x : WrittenNumber) : Sv := AttributeParser.integerSv x.minus (Strtoul.toUnsigned x.value)

/-- A scalar at the start of a text, and what stands behind it -/
inductive ScalarAt (loose : Bool) : Bytes → Sv → Bytes → Prop
  | integer {t rest : Bytes} {x : WrittenNumber} (number : ArgumentAt t (.number x) rest)
      (oneSign : x.minus = true → 0 ≤ x.value) (range : -2 ^ 31 ≤ x.written ∧ x.written < 2 ^ 32) :
      ScalarAt loose t (integerValue x.written) rest
  | string {body rest : Bytes} (closed : Closed body) :
      ScalarAt loose (quote :: (body ++ quote :: rest)) (.str body) rest
  -- a number with a second minus sign or out of range, and a minus sign without a number
  | otherNumber {t rest : Bytes} {x : WrittenNumber} (isLoose : loose = true)
      (number : ArgumentAt t (.number x) rest) : ScalarAt loose t x.sv rest
  | minus {t : Bytes} (isLoose : loose = true) (some : t ≠ []) (noNumber : Strtoul.integer t = none) :
      ScalarAt loose (ascii '-' :: t) .none t

mutual

/-- An initializer at the start of a text, and what stands behind it -/
inductive InitializerAt (bs : Bstr) (loose : Bool) : Bytes → Dv → Bytes → Prop
  | scalar {t rest : Bytes} {sv : Sv} (written : ScalarAt loose t sv rest) : InitializerAt bs loose t (.scalar sv) rest
  | list {t rest : Bytes} {values : List Dv} (elements : ElementsAt bs loose [] t values rest) :
      InitializerAt bs loose (ascii '{' :: t) (.array values) rest

/-- The elements of a list from some of them on, up to the closing brace -/
inductive ElementsAt (bs : Bstr) (loose : Bool) : List Dv → Bytes → List Dv → Bytes → Prop
  | close {t rest : Bytes} {before : List Dv} (closes : lstrip bs t = ascii '}' :: rest) :
      ElementsAt bs loose before t before rest
  | last {t next rest : Bytes} {before : List Dv} {value : Dv} (first : InitializerAt bs loose (lstrip bs t) value next)
      (closes : lstrip bs next = ascii '}' :: rest) : ElementsAt bs loose before t (before ++ [value]) rest
  | more {t next t' rest : Bytes} {before values : List Dv} {value : Dv}
      (first : InitializerAt bs loose (lstrip bs t) value next) (comma : lstrip bs next = ascii ',' :: t')
      (later : ElementsAt bs loose (before ++ [value]) t' values rest) : ElementsAt bs loose before t values rest
  -- one more comma behind a comma
  | comma {t t' rest : Bytes} {before values : List Dv} (isLoose : loose = true) (some : before ≠ [])
      (comma : lstrip bs t = ascii ',' :: t') (later : ElementsAt bs loose before t' values rest) :
      ElementsAt bs loose before t values rest

end

/-- A list that the line ends in, directly behind a brace or a comma -/
inductive UnclosedList (bs : Bstr) : List Dv → Bytes → Prop
  | ended {before : List Dv} : UnclosedList bs before []
  | nested {t t' : Bytes} {before : List Dv} (opens : lstrip bs t = ascii '{' :: t') (inner : UnclosedList bs [] t') :
      UnclosedList bs before t
  | more {t next t' : Bytes} {before : List Dv} {value : Dv} (first : InitializerAt bs true (lstrip bs t) value next)
      (comma : lstrip bs next = ascii ',' :: t') (later : UnclosedList bs (before ++ [value]) t') :
      UnclosedList bs before t
  | comma {t t' : Bytes} {before : List Dv} (some : before ≠ []) (comma : lstrip bs t = ascii ',' :: t')
      (later : UnclosedList bs before t') : UnclosedList bs before t

/-- An attribute at the start of a text: the attributes before and after it, and what stands behind it -/
inductive AttributeAt (bs : Bstr) (loose : Bool) : PortAttributes → Bytes → PortAttributes → Bytes → Prop
  | initValue {attr : PortAttributes} {t next : Bytes} {value : Dv}
      (written : InitializerAt bs loose (lstrip bs t) value next) :
      AttributeAt bs loose attr (ascii '=' :: t) { attr with initValue := some value } (lstrip bs next)
  | parameter {attr : PortAttributes} {rest : Bytes} :
      AttributeAt bs loose attr (ascii 'P' :: rest) { attr with isParameter := true } rest
  | queueLength {attr : PortAttributes} {t next rest : Bytes} {n : Nat}
      (number : bs.toUnsignedLong (lstrip bs t) = some (n, next)) (closes : lstrip bs next = ascii ']' :: rest)
      (fits : loose = true ∨ n < 2 ^ 32) :
      AttributeAt bs loose attr (ascii 'Q' :: ascii '[' :: t) { attr with queueLength := UInt32.ofNat n } rest
  -- no value before a comma or the end, a list that is not closed, and a Q at the end
  | noValue {attr : PortAttributes} {t : Bytes} (isLoose : loose = true)
      (nothing : ∀ c ∈ (lstrip bs t).head?, c = ascii ',') :
      AttributeAt bs loose attr (ascii '=' :: t) attr (lstrip bs t)
  | unclosed {attr : PortAttributes} {t t' : Bytes} (isLoose : loose = true) (opens : lstrip bs t = ascii '{' :: t')
      (list : UnclosedList bs [] t') : AttributeAt bs loose attr (ascii '=' :: t) attr []
  | noLength {attr : PortAttributes} (isLoose : loose = true) : AttributeAt bs loose attr [ascii 'Q'] attr []

/-- A text at which the parser finds no attribute, and the attributes that it leaves -/
inductive NoAttribute (bs : Bstr) : PortAttributes → Bytes → PortAttributes → Prop
  | other {attr : PortAttributes} {c : Byte} {t : Bytes} (unknown : c ≠ ascii '=' ∧ c ≠ ascii 'P' ∧ c ≠ ascii 'Q') :
      NoAttribute bs attr (c :: t) attr
  | noMinus {attr : PortAttributes} {t : Bytes} (alone : lstrip bs t = [ascii '-']) :
      NoAttribute bs attr (ascii '=' :: t) attr
  | noList {attr : PortAttributes} {t t' : Bytes} (opens : lstrip bs t = ascii '{' :: t')
      (notClosed : ∀ values rest, ¬ElementsAt bs true [] t' values rest) (notEnded : ¬UnclosedList bs [] t') :
      NoAttribute bs attr (ascii '=' :: t) attr
  | noBracket {attr : PortAttributes} {c : Byte} {t : Bytes} (other : c ≠ ascii '[') :
      NoAttribute bs attr (ascii 'Q' :: c :: t) attr
  | noNumber {attr : PortAttributes} {t : Bytes} (some : lstrip bs t ≠ [])
      (noNumber : bs.toUnsignedLong (lstrip bs t) = none) : NoAttribute bs attr (ascii 'Q' :: ascii '[' :: t) attr
  | notClosed {attr : PortAttributes} {c : Byte} {t next rest : Bytes} {n : Nat}
      (number : bs.toUnsignedLong (lstrip bs t) = some (n, next)) (stray : lstrip bs next = c :: rest)
      (other : c ≠ ascii ']') :
      NoAttribute bs attr (ascii 'Q' :: ascii '[' :: t) { attr with queueLength := UInt32.ofNat n }

/-- Attributes with commas between them, and maybe one behind them, up to the end of the line -/
inductive AttributesAt (bs : Bstr) (loose : Bool) : PortAttributes → Bytes → PortAttributes → Prop
  | last {attr attr' : PortAttributes} {t rest : Bytes} (first : AttributeAt bs loose attr (lstrip bs t) attr' rest)
      (ends : lstrip bs rest = []) : AttributesAt bs loose attr t attr'
  | comma {attr attr' : PortAttributes} {t rest t' : Bytes} (first : AttributeAt bs loose attr (lstrip bs t) attr' rest)
      (comma : lstrip bs rest = ascii ',' :: t') (ends : lstrip bs t' = []) : AttributesAt bs loose attr t attr'
  | more {attr attr' attr'' : PortAttributes} {t rest t' : Bytes}
      (first : AttributeAt bs loose attr (lstrip bs t) attr' rest) (comma : lstrip bs rest = ascii ',' :: t')
      (later : AttributesAt bs loose attr' t' attr'') : AttributesAt bs loose attr t attr''
  -- what is no attribute behind a comma, with all that follows it
  | broken {attr attr' attr'' : PortAttributes} {t rest t' : Bytes} (isLoose : loose = true)
      (first : AttributeAt bs loose attr (lstrip bs t) attr' rest) (comma : lstrip bs rest = ascii ',' :: t')
      (nothing : NoAttribute bs attr' (lstrip bs t') attr'') : AttributesAt bs loose attr t attr''

inductive PortAttributesText (bs : Bstr) (loose : Bool) : Bytes → PortAttributes → Prop
  | attributes {t : Bytes} {attr : PortAttributes} (written : AttributesAt bs loose {} t attr) :
      PortAttributesText bs loose t attr
  -- whitespace alone, or in front of what is no attribute
  | blank {t : Bytes} (isLoose : loose = true) (some : t ≠ []) (nothing : lstrip bs t = []) :
      PortAttributesText bs loose t {}
  | broken {t : Bytes} {attr : PortAttributes} (isLoose : loose = true) (space : (lstrip bs t).length < t.length)
      (nothing : NoAttribute bs {} (lstrip bs t) attr) : PortAttributesText bs loose t attr

theorem LineEnd.stops (line : LineEnd) : ∃ b more, line.behind = b :: more ∧ Strtoul.Stops b := by
  obtain ⟨b, more, behind, ends⟩ := line.ends
  refine ⟨b, more, behind, ?_, ?_⟩
  · intro base
    have none_ : Strtoul.digitValue b = none := by
      rcases ends with rfl | rfl | rfl <;> decide
    rw [Strtoul.isDigitOf, none_]
    rfl
  · rcases ends with rfl | rfl | rfl <;> decide

namespace AttributeParser

/-- In front of the end of the line strtoul reads what is written in the line. -/
theorem unsignedLong_line (line : LineEnd) (t : Bytes) :
    unsignedLong line.behind t = (Strtoul.integer t).map fun (x, rest) => (Strtoul.toUnsigned x, rest) := by
  cases known : Strtoul.integer t with
  | none =>
    cases read : unsignedLong line.behind t with
    | none => rfl
    | some pair =>
      obtain ⟨x, inside, -⟩ := unsignedLong_integer read
      rw [known] at inside
      contradiction
  | some pair =>
    obtain ⟨x, rest⟩ := pair
    obtain ⟨b, more, behind, stops⟩ := line.stops
    have read := Strtoul.integer_stop stops known more
    rw [← behind] at read
    rw [unsignedLong, Strtoul.strtoul, read]
    dsimp only [Option.map_some]
    rw [List.length_append, if_pos (Nat.le_add_left _ _), Nat.add_sub_cancel, List.take_left' rfl]

theorem parseIntegerLiteral_line (line : LineEnd) (t : Bytes) (minus : Bool) :
    parseIntegerLiteral line.behind t minus =
      (Strtoul.integer t).map fun (x, rest) => ((⟨minus, x⟩ : WrittenNumber).sv, rest) := by
  rw [parseIntegerLiteral, unsignedLong_line, Option.map_map]
  rfl

/-- What a number in the range is read as -/
theorem sv_eq {x : WrittenNumber} (oneSign : x.minus = true → 0 ≤ x.value)
    (range : -2 ^ 31 ≤ x.written ∧ x.written < 2 ^ 32) (plain : x.minus = false → 0 ≤ x.value) :
    x.sv = integerValue x.written := by
  obtain ⟨minus, v⟩ := x
  have positive : 0 ≤ v := by
    cases minus with
    | true => exact oneSign rfl
    | false => exact plain rfl
  have upper : v < 2 ^ 32 := by
    rw [WrittenNumber.written] at range
    split at range <;> dsimp only at range <;> omega
  have low := Strtoul.setWidth_toUnsigned (x := v) (by omega)
  have value : (Strtoul.toUnsigned v).toNat = v.toNat := by
    rw [Strtoul.toUnsigned, if_pos (by omega), BitVec.toNat_ofInt]
    omega
  have large : Strtoul.toUnsigned v > 0x7fffffff#64 ↔ 2 ^ 31 ≤ v := by
    rw [gt_iff_lt, BitVec.lt_def, value]
    show 2147483647 < _ ↔ _
    omega
  rw [WrittenNumber.sv, integerSv, integerValue]
  dsimp only
  rw [low]
  cases minus with
  | false =>
    rw [if_neg fun both => Bool.false_ne_true both.1]
    rw [show (⟨false, v⟩ : WrittenNumber).written = v from rfl]
    by_cases wide : 2 ^ 31 ≤ v
    · rw [if_pos (large.mpr wide), if_neg (show ¬v < 2 ^ 31 by omega)]
    · rw [if_neg (mt large.mp wide), if_neg Bool.false_ne_true, if_pos (show v < 2 ^ 31 by omega)]
  | true =>
    have lower : -2 ^ 31 ≤ -v := range.1
    rw [show (⟨true, v⟩ : WrittenNumber).written = -v from rfl, if_pos (show -v < 2 ^ 31 by omega)]
    by_cases least : v = 2 ^ 31
    · subst least
      decide
    · rw [if_neg, if_neg (mt large.mp (by omega)), if_pos rfl]
      · exact congrArg Sv.i32 (BitVec.ofInt_neg).symm
      · rintro ⟨-, same⟩
        have exactly_ := congrArg BitVec.toNat same
        rw [value] at exactly_
        have : v.toNat = 2147483648 := exactly_
        omega

theorem nonneg_of_plain {t rest : Bytes} {x : WrittenNumber} (number : ArgumentAt t (.number x) rest)
    (plain : x.minus = false) : 0 ≤ x.value := by
  cases number with
  | plain digit reads => exact Strtoul.integer_nonneg digit reads
  | minus reads => contradiction

theorem parseScalar_number {bs : Bstr} (line : LineEnd) (state : AttributeParseState) {t rest : Bytes} {x : WrittenNumber}
    (number : ArgumentAt t (.number x) rest) :
    parseScalar bs line.behind state t = some ({ state with sv := some x.sv }, rest) := by
  cases number with
  | plain digit reads =>
    rw [parseScalar, if_pos digit, parseIntegerLiteral_line, reads]
    rfl
  | @minus t rest x reads =>
    have some_ : t ≠ [] := by
      rintro rfl
      contradiction
    rw [parseScalar, if_neg (by decide), if_pos rfl, if_neg some_, parseIntegerLiteral_line, reads]
    rfl

theorem parseScalar_written {bs : Bstr} (line : LineEnd) (state : AttributeParseState) {loose : Bool} {t rest : Bytes}
    {sv : Sv} (written : ScalarAt loose t sv rest) :
    parseScalar bs line.behind state t = some ({ state with sv := some sv }, rest) := by
  cases written with
  | integer number oneSign range =>
    rw [← sv_eq oneSign range (nonneg_of_plain number)]
    exact parseScalar_number line state number
  | otherNumber isLoose number => exact parseScalar_number line state number
  | string closed =>
    rw [parseScalar, if_neg (by decide), if_neg (by decide), if_pos rfl, (bs.matchPair_iff _ _ _).mpr ⟨rfl, closed⟩]
  | minus isLoose some_ noNumber =>
    rw [parseScalar, if_neg (by decide), if_pos rfl, if_neg some_, parseIntegerLiteral_line, noNumber]
    rfl

/-- A scalar is read, or a lone minus sign fails, or the text is no scalar and the parser stays in front of it. -/
theorem parseScalar_cases (bs : Bstr) (line : LineEnd) (c : Byte) (t : Bytes) :
    (∃ sv rest, ScalarAt true (c :: t) sv rest) ∨ c :: t = [ascii '-'] ∨
      c = quote ∧ parseScalar bs line.behind {} (c :: t) = some ({ sv := some .none }, c :: t) ∨
      c ≠ quote ∧ c ≠ ascii '-' ∧ isDigit c = false ∧
        ∀ state, parseScalar bs line.behind state (c :: t) = some (state, c :: t) := by
  by_cases digit : isDigit c = true
  · obtain ⟨x, rest, reads⟩ := Strtoul.integer_of_digit digit t
    exact .inl ⟨_, rest, .otherNumber rfl (.plain digit reads)⟩
  · by_cases minus : c = ascii '-'
    · subst minus
      cases t with
      | nil => exact .inr (.inl rfl)
      | cons d t =>
        cases known : Strtoul.integer (d :: t) with
        | none => exact .inl ⟨_, _, .minus rfl (List.cons_ne_nil d t) known⟩
        | some pair => exact .inl ⟨_, _, .otherNumber rfl (.minus known)⟩
    · by_cases quoted : c = quote
      · subst quoted
        cases found : bs.matchPair (quote :: t) with
        | none =>
          refine .inr (.inr (.inl ⟨rfl, ?_⟩))
          rw [parseScalar, if_neg digit, if_neg minus, if_pos rfl, found]
        | some pair =>
          obtain ⟨text, closed⟩ := (bs.matchPair_iff _ _ _).mp found
          rw [text]
          exact .inl ⟨_, _, .string closed⟩
      · refine .inr (.inr (.inr ⟨quoted, minus, Bool.not_eq_true _ ▸ digit, fun state => ?_⟩))
        rw [parseScalar, if_neg digit, if_neg minus, if_neg quoted]

/-! Lists. The state below an element holds the elements before it. -/

def valueState : Dv → AttributeParseState
  | .scalar sv => { sv := some sv }
  | .array list => { initializerList := some list }
  | _ => {}

/-- What follows the code at POST_VALUE_HANDLER -/
def continueWith (bs : Bstr) (behind : Bytes) : PostValue → Option (AttributeParseState × Bytes)
  | .null => none
  | .done state next => some (state, lstrip bs next)
  | .more state stack next => parseInitializerList bs behind state stack next

theorem not_comma (b : Bool) {c : Byte} (other : c ≠ ascii ',') : ¬(b && decide (c = ascii ',')) = true := by
  rw [decide_eq_false other, Bool.and_false]
  exact Bool.false_ne_true

section

variable {bs : Bstr} {t rest : Bytes} {before : List Dv} {stack : List AttributeParseState}

theorem pushed_value {value : Dv} (isValue : (∃ sv, value = .scalar sv) ∨ ∃ list, value = .array list) :
    (if (valueState value).hasValue = true then (valueState value).pushValueToParent (valueState (.array before))
      else (valueState value, valueState (.array before))) = ({}, valueState (.array (before ++ [value]))) := by
  rcases isValue with ⟨sv, rfl⟩ | ⟨list, rfl⟩
  · rfl
  · rfl

theorem postValueHandler_comma {value : Dv} (isValue : (∃ sv, value = .scalar sv) ∨ ∃ list, value = .array list)
    (comma : lstrip bs t = ascii ',' :: rest) :
    postValueHandler bs (valueState value) (valueState (.array before) :: stack) t =
      .more {} (valueState (.array (before ++ [value])) :: stack) rest := by
  have some_ : (valueState (.array (before ++ [value]))).listIsEmpty = false := by
    simp [valueState, AttributeParseState.listIsEmpty]
  rw [postValueHandler, comma]
  dsimp only
  rw [pushed_value isValue, some_]
  rfl

theorem postValueHandler_close {value : Dv} (isValue : (∃ sv, value = .scalar sv) ∨ ∃ list, value = .array list)
    (closes : lstrip bs t = ascii '}' :: rest) :
    postValueHandler bs (valueState value) (valueState (.array before) :: stack) t =
      postValueHandler bs (valueState (.array (before ++ [value]))) stack rest := by
  rw [postValueHandler, closes]
  dsimp only
  rw [pushed_value isValue, if_neg (not_comma _ (by decide)), if_pos rfl]
  cases stack with
  | nil => rfl
  | cons => rfl

theorem postValueHandler_null {state : AttributeParseState} {below : AttributeParseState}
    (other : ∀ c ∈ (lstrip bs t).head?, c ≠ ascii ',' ∧ c ≠ ascii '}') :
    postValueHandler bs state (below :: stack) t = .null := by
  rw [postValueHandler]
  split
  · rfl
  · next c next strip =>
    obtain ⟨noComma, noBrace⟩ := other c (by rw [strip]; rfl)
    dsimp only
    rw [if_neg (not_comma _ noComma), if_neg noBrace]

theorem postValueHandler_empty_comma (some_ : before ≠ []) (comma : lstrip bs t = ascii ',' :: rest) :
    postValueHandler bs {} (valueState (.array before) :: stack) t =
      .more {} (valueState (.array before) :: stack) rest := by
  have some' : (valueState (.array before)).listIsEmpty = false := by
    simpa [valueState, AttributeParseState.listIsEmpty] using some_
  rw [postValueHandler, comma]
  show (if (!(valueState (.array before)).listIsEmpty && _) = true then _ else _) = _
  rw [some']
  rfl

theorem postValueHandler_empty_close (closes : lstrip bs t = ascii '}' :: rest) :
    postValueHandler bs {} (valueState (.array before) :: stack) t =
      postValueHandler bs (valueState (.array before)) stack rest := by
  rw [postValueHandler, closes]
  show (if (!(valueState (.array before)).listIsEmpty && _) = true then _ else _) = _
  rw [if_neg (not_comma _ (by decide)), if_pos rfl]
  cases stack with
  | nil => rfl
  | cons => rfl

end

section

variable {bs : Bstr} {t rest : Bytes} {before values : List Dv} {stack : List AttributeParseState}

theorem ne_nil_of_lstrip {c : Byte} (strip : lstrip bs t = c :: rest) : t ≠ [] := by
  rintro rfl
  rw [lstrip_nil] at strip
  contradiction

theorem parseInitializerList_open (behind : Bytes) (state : AttributeParseState) (opens : lstrip bs t = ascii '{' :: rest) :
    parseInitializerList bs behind state stack t =
      parseInitializerList bs behind {} ({ state with initializerList := some [] } :: stack) rest := by
  rw [parseInitializerList, if_neg (ne_nil_of_lstrip opens), dif_pos (by rw [opens]; rfl), opens, List.tail_cons]

theorem parseInitializerList_scalar {behind next : Bytes} {state state' : AttributeParseState} (some_ : t ≠ [])
    (noList : (lstrip bs t).head? ≠ some (ascii '{'))
    (scalar : parseScalar bs behind state (lstrip bs t) = some (state', next)) :
    parseInitializerList bs behind state stack t = continueWith bs behind (postValueHandler bs state' stack next) := by
  rw [parseInitializerList, if_neg some_, dif_neg noList]
  split
  · next fails =>
    rw [scalar] at fails
    contradiction
  · next state₁ next₁ known =>
    rw [scalar] at known
    cases known
    split
    · next post => rw [post, continueWith]
    · next post => rw [post, continueWith]
    · next post => rw [post, continueWith]

theorem ScalarAt.start {loose : Bool} {sv : Sv} (written : ScalarAt loose t sv rest) :
    ∃ c t', t = c :: t' ∧ (isDigit c = true ∨ c = ascii '-' ∨ c = quote) := by
  have of_number {x : WrittenNumber} (number : ArgumentAt t (.number x) rest) :
      ∃ c t', t = c :: t' ∧ (isDigit c = true ∨ c = ascii '-' ∨ c = quote) := by
    cases number with
    | plain digit => exact ⟨_, _, rfl, .inl digit⟩
    | minus => exact ⟨_, _, rfl, .inr (.inl rfl)⟩
  cases written with
  | integer number => exact of_number number
  | string => exact ⟨_, _, rfl, .inr (.inr rfl)⟩
  | otherNumber isLoose number => exact of_number number
  | minus => exact ⟨_, _, rfl, .inr (.inl rfl)⟩

theorem not_open_of_start {c : Byte} (start : isDigit c = true ∨ c = ascii '-' ∨ c = quote) : c ≠ ascii '{' := by
  rintro rfl
  revert start
  decide

theorem parseInitializerList_scalarAt (line : LineEnd) {loose : Bool} {sv : Sv}
    (written : ScalarAt loose (lstrip bs t) sv rest) (state : AttributeParseState) :
    parseInitializerList bs line.behind state stack t =
      continueWith bs line.behind (postValueHandler bs { state with sv := some sv } stack rest) := by
  obtain ⟨c, t', strip, start⟩ := ScalarAt.start written
  refine parseInitializerList_scalar (ne_nil_of_lstrip strip) ?_ (parseScalar_written line state written)
  rw [strip]
  exact fun same => not_open_of_start start (Option.some.inj same)

/-- At a character that starts no initializer the parser stays. -/
theorem parseInitializerList_stay (behind : Bytes) {c : Byte} {state : AttributeParseState}
    (strip : lstrip bs t = c :: rest) (noList : c ≠ ascii '{')
    (noScalar : isDigit c = false ∧ c ≠ ascii '-' ∧ c ≠ quote) :
    parseInitializerList bs behind state stack t =
      continueWith bs behind (postValueHandler bs state stack (c :: rest)) := by
  refine parseInitializerList_scalar (ne_nil_of_lstrip strip) ?_ ?_
  · rw [strip]
    exact fun same => noList (Option.some.inj same)
  · rw [strip, parseScalar, if_neg (by rw [noScalar.1]; exact Bool.false_ne_true), if_neg noScalar.2.1,
      if_neg noScalar.2.2]

theorem lstrip_lstrip (t : Bytes) : lstrip bs (lstrip bs t) = lstrip bs t := by
  obtain ⟨-, -, -, ends⟩ := spaces_lstrip bs t
  exact lstrip_spaces bs (s := []) nofun ends

theorem isValue_of_initializerAt {loose : Bool} {value : Dv} (written : InitializerAt bs loose t value rest) :
    (∃ sv, value = .scalar sv) ∨ ∃ list, value = .array list := by
  cases written with
  | scalar => exact .inl ⟨_, rfl⟩
  | list => exact .inr ⟨_, rfl⟩

end

mutual

/-- A value that is written is parsed, whatever it stands in. -/
theorem parseInitializerList_value (line : LineEnd) {bs : Bstr} {loose : Bool} :
    ∀ {t u rest : Bytes} {value : Dv} {stack : List AttributeParseState}, InitializerAt bs loose u value rest →
      lstrip bs t = u → parseInitializerList bs line.behind {} stack t =
        continueWith bs line.behind (postValueHandler bs (valueState value) stack rest)
  | _, _, _, _, _, .scalar written, strip => parseInitializerList_scalarAt line (strip ▸ written) {}
  | _, _, _, _, _, .list elements, strip =>
    (parseInitializerList_open line.behind {} strip).trans (parseInitializerList_elements line elements)

/-- The elements of a list are parsed up to its closing brace. -/
theorem parseInitializerList_elements (line : LineEnd) {bs : Bstr} {loose : Bool} :
    ∀ {t rest : Bytes} {before values : List Dv} {stack : List AttributeParseState},
      ElementsAt bs loose before t values rest →
        parseInitializerList bs line.behind {} (valueState (.array before) :: stack) t =
          continueWith bs line.behind (postValueHandler bs (valueState (.array values)) stack rest)
  | t, _, _, _, _, .close closes => by
    have plain := @lstrip_lstrip bs t
    rw [closes] at plain
    rw [parseInitializerList_stay line.behind closes (by decide) (by decide), postValueHandler_empty_close plain]
  | _, _, _, _, _, .last first closes => by
    rw [parseInitializerList_value line first rfl, postValueHandler_close (isValue_of_initializerAt first) closes]
  | _, _, _, _, _, .more first comma later => by
    rw [parseInitializerList_value line first rfl, postValueHandler_comma (isValue_of_initializerAt first) comma]
    exact parseInitializerList_elements line later
  | t, _, _, _, _, .comma isLoose some_ comma later => by
    have plain := @lstrip_lstrip bs t
    rw [comma] at plain
    rw [parseInitializerList_stay line.behind comma (by decide) (by decide), postValueHandler_empty_comma some_ plain]
    exact parseInitializerList_elements line later

end

/-- A list that the line ends in leaves no value. -/
theorem parseInitializerList_unclosed (line : LineEnd) {bs : Bstr} {before : List Dv} {t : Bytes}
    (unclosed : UnclosedList bs before t) : ∀ {stack : List AttributeParseState},
      parseInitializerList bs line.behind {} (valueState (.array before) :: stack) t = some ({}, []) := by
  induction unclosed with
  | ended =>
    intro stack
    rw [parseInitializerList, if_pos rfl, lstrip_nil]
  | nested opens inner ih =>
    intro stack
    rw [parseInitializerList_open line.behind {} opens]
    exact ih
  | more first comma later ih =>
    intro stack
    rw [parseInitializerList_value line first rfl, postValueHandler_comma (isValue_of_initializerAt first) comma]
    exact ih
  | @comma t _ _ some_ comma later ih =>
    intro stack
    have plain := @lstrip_lstrip bs t
    rw [comma] at plain
    rw [parseInitializerList_stay line.behind comma (by decide) (by decide), postValueHandler_empty_comma some_ plain]
    exact ih

theorem ScalarAt.shorter {loose : Bool} {t rest : Bytes} {sv : Sv} (written : ScalarAt loose t sv rest) :
    rest.length < t.length := by
  have of_number {x : WrittenNumber} (number : ArgumentAt t (.number x) rest) : rest.length < t.length := by
    cases number with
    | plain digit reads =>
      exact Nat.lt_of_lt_of_le (Strtoul.integer_shorter reads).1 (List.dropWhile_suffix _).length_le
    | minus reads =>
      have inner := Nat.lt_of_lt_of_le (Strtoul.integer_shorter reads).1 (List.dropWhile_suffix _).length_le
      exact inner.trans (Nat.lt_succ_self _)
  cases written with
  | integer number => exact of_number number
  | otherNumber isLoose number => exact of_number number
  | string =>
    simp only [List.length_cons, List.length_append]
    omega
  | minus => exact Nat.lt_succ_self _

theorem shorter_of_lstrip {bs : Bstr} {c : Byte} {t rest : Bytes} (strip : lstrip bs t = c :: rest) :
    rest.length < t.length := by
  have length := length_lstrip_le bs t
  rw [strip, List.length_cons] at length
  exact length

mutual

theorem InitializerAt.shorter {bs : Bstr} {loose : Bool} :
    ∀ {t rest : Bytes} {value : Dv}, InitializerAt bs loose t value rest → rest.length < t.length
  | _, _, _, .scalar written => ScalarAt.shorter written
  | _, _, _, .list elements => (ElementsAt.shorter elements).trans (Nat.lt_succ_self _)

theorem ElementsAt.shorter {bs : Bstr} {loose : Bool} :
    ∀ {t rest : Bytes} {before values : List Dv}, ElementsAt bs loose before t values rest → rest.length < t.length
  | _, _, _, _, .close closes => shorter_of_lstrip closes
  | t, _, _, _, .last first closes =>
    (shorter_of_lstrip closes).trans (Nat.lt_of_lt_of_le (InitializerAt.shorter first) (length_lstrip_le bs t))
  | t, _, _, _, .more first comma later =>
    ((ElementsAt.shorter later).trans (shorter_of_lstrip comma)).trans
      (Nat.lt_of_lt_of_le (InitializerAt.shorter first) (length_lstrip_le bs t))
  | _, _, _, _, .comma _ _ comma later => (ElementsAt.shorter later).trans (shorter_of_lstrip comma)

end

/-- Behind a value in a list there is a comma or a closing brace. -/
theorem separator_of_continue {bs : Bstr} {behind t : Bytes} {state below : AttributeParseState}
    {stack : List AttributeParseState}
    (goesOn : continueWith bs behind (postValueHandler bs state (below :: stack) t) ≠ none) :
    ∃ rest, lstrip bs t = ascii ',' :: rest ∨ lstrip bs t = ascii '}' :: rest := by
  by_contra other
  apply goesOn
  rw [postValueHandler_null]
  · rfl
  · intro c mem
    obtain ⟨rest, strip⟩ : ∃ rest, lstrip bs t = c :: rest := by
      cases known : lstrip bs t with
      | nil =>
        rw [known] at mem
        contradiction
      | cons d rest =>
        rw [known] at mem
        cases mem
        exact ⟨rest, rfl⟩
    constructor
    · rintro rfl
      exact other ⟨rest, .inl strip⟩
    · rintro rfl
      exact other ⟨rest, .inr strip⟩

/-- What the parser takes behind an opening brace is the elements of a list, or the line ends in it. -/
theorem elements_of_parse (line : LineEnd) {bs : Bstr} (bound : Nat) :
    ∀ {t : Bytes} {before : List Dv} {stack : List AttributeParseState}, t.length ≤ bound →
      parseInitializerList bs line.behind {} (valueState (.array before) :: stack) t ≠ none →
        (∃ values rest, ElementsAt bs true before t values rest) ∨ UnclosedList bs before t := by
  induction bound with
  | zero =>
    intro t before stack short parses
    obtain rfl := List.length_eq_zero_iff.mp (Nat.le_zero.mp short)
    exact .inr .ended
  | succ bound ih =>
    intro t before stack short parses
    -- a value, and what comes behind it
    have value {value : Dv} {next : Bytes} (first : InitializerAt bs true (lstrip bs t) value next) :
        (∃ values rest, ElementsAt bs true before t values rest) ∨ UnclosedList bs before t := by
      have shorter := Nat.lt_of_lt_of_le (InitializerAt.shorter first) (length_lstrip_le bs t)
      rw [parseInitializerList_value line first rfl] at parses
      obtain ⟨rest, comma | closes⟩ := separator_of_continue parses
      · rw [postValueHandler_comma (isValue_of_initializerAt first) comma] at parses
        have least := shorter_of_lstrip comma
        rcases ih (by omega) parses with ⟨values, rest', later⟩ | later
        · exact .inl ⟨values, rest', .more first comma later⟩
        · exact .inr (.more first comma later)
      · exact .inl ⟨_, rest, .last first closes⟩
    cases strip : lstrip bs t with
    | nil =>
      by_cases empty : t = []
      · rw [empty]
        exact .inr .ended
      · exfalso
        apply parses
        rw [parseInitializerList_scalar empty (by rw [strip]; nofun) (by rw [strip]; rfl), postValueHandler_null]
        · rfl
        · intro c mem
          rw [lstrip_nil] at mem
          cases mem
    | cons c rest =>
      have shorter := shorter_of_lstrip strip
      by_cases opens : c = ascii '{'
      · subst opens
        have inner := parses
        rw [parseInitializerList_open line.behind {} strip] at inner
        rcases ih (by omega) inner with ⟨values, rest', list⟩ | list
        · exact value (by rw [strip]; exact .list list)
        · exact .inr (.nested strip list)
      · rcases parseScalar_cases bs line c rest with
          ⟨sv, next, scalar⟩ | alone | ⟨quoted, fails⟩ | ⟨noQuote, noMinus, noDigit, -⟩
        · exact value (by rw [strip]; exact .scalar scalar)
        · exfalso
          apply parses
          rw [parseInitializerList, if_neg (ne_nil_of_lstrip strip), dif_neg]
          · rw [strip, alone]
            rfl
          · rw [strip]
            exact fun same => opens (Option.some.inj same)
        · exfalso
          apply parses
          rw [parseInitializerList_scalar (ne_nil_of_lstrip strip)
            (by rw [strip]; exact fun same => opens (Option.some.inj same))
            (by rw [strip]; exact fails), postValueHandler_null]
          · rfl
          · rw [quoted, lstrip_plain (not_space bs (by decide))]
            intro d mem
            cases mem
            decide
        · have plain := @lstrip_lstrip bs t
          rw [strip] at plain
          have goesOn := parses
          rw [parseInitializerList_stay line.behind strip opens ⟨noDigit, noMinus, noQuote⟩] at goesOn
          obtain ⟨rest', comma | closes⟩ := separator_of_continue goesOn
          · rw [plain] at comma
            cases comma
            by_cases empty : before = []
            · exfalso
              apply goesOn
              rw [empty, postValueHandler, plain]
              rfl
            · rw [postValueHandler_empty_comma empty plain] at goesOn
              rcases ih (by omega) goesOn with ⟨values, rest'', later⟩ | later
              · exact .inl ⟨values, rest'', .comma rfl empty strip later⟩
              · exact .inr (.comma empty strip later)
          · rw [plain] at closes
            cases closes
            exact .inl ⟨before, rest, .close strip⟩

/-! Attributes -/

section

variable {bs : Bstr} {t rest : Bytes}

theorem parseInitializer_value (line : LineEnd) {loose : Bool} {value : Dv} {next : Bytes}
    (written : InitializerAt bs loose (lstrip bs t) value next) (dv : Option Dv) :
    parseInitializer bs line.behind t dv = some (some value, lstrip bs next) := by
  have shorter := Nat.lt_of_lt_of_le (InitializerAt.shorter written) (length_lstrip_le bs t)
  rw [parseInitializer, parseInitializerList_value line written rfl]
  show (if (lstrip bs next).length < t.length then _ else _) = _
  rw [if_pos ((length_lstrip_le bs next).trans_lt shorter)]
  rcases isValue_of_initializerAt written with ⟨sv, rfl⟩ | ⟨list, rfl⟩
  · rfl
  · rfl

/-- A list of an empty state leaves the value as it was. -/
theorem parseInitializer_none {behind next : Bytes} (parses : parseInitializerList bs behind {} [] t = some ({}, next))
    (dv : Option Dv) : parseInitializer bs behind t dv = some (dv, next) := by
  rw [parseInitializer, parses]
  dsimp only
  split
  · rfl
  · rfl

theorem parseInitializer_blank (behind : Bytes) (blank : lstrip bs t = []) (dv : Option Dv) :
    parseInitializer bs behind t dv = some (dv, []) := by
  refine parseInitializer_none ?_ dv
  by_cases empty : t = []
  · rw [parseInitializerList, if_pos empty, blank]
  · rw [parseInitializerList_scalar empty (by rw [blank]; intro mem; cases mem) (by rw [blank]; rfl),
      postValueHandler]
    exact congrArg (fun rest => some (({} : AttributeParseState), rest)) (lstrip_nil bs)

theorem parseInitializer_stay (behind : Bytes) {c : Byte} (strip : lstrip bs t = c :: rest) (noList : c ≠ ascii '{')
    (noScalar : isDigit c = false ∧ c ≠ ascii '-' ∧ c ≠ quote) (dv : Option Dv) :
    parseInitializer bs behind t dv = some (dv, c :: rest) := by
  have plain := @lstrip_lstrip bs t
  rw [strip] at plain
  refine parseInitializer_none ?_ dv
  rw [parseInitializerList_stay behind strip noList noScalar, postValueHandler, continueWith, plain]

theorem parseInitializer_unclosed (line : LineEnd) (opens : lstrip bs t = ascii '{' :: rest)
    (list : UnclosedList bs [] rest) (dv : Option Dv) : parseInitializer bs line.behind t dv = some (dv, []) := by
  refine parseInitializer_none ?_ dv
  rw [parseInitializerList_open line.behind {} opens]
  exact parseInitializerList_unclosed line list

theorem parseSingle_attributeAt (line : LineEnd) {loose : Bool} {attr attr' : PortAttributes}
    (written : AttributeAt bs loose attr t attr' rest) :
    ∃ c t', t = c :: t' ∧ parseSinglePortAttribute bs line.behind attr c t' = (attr', some rest) := by
  cases written with
  | @initValue t next value written =>
    refine ⟨_, _, rfl, ?_⟩
    rw [parseSinglePortAttribute, if_pos rfl, parseInitializer_value line written]
  | parameter =>
    refine ⟨_, _, rfl, ?_⟩
    rw [parseSinglePortAttribute, if_neg (by decide), if_pos rfl]
  | @queueLength t next _ n number closes fits =>
    refine ⟨_, _, rfl, ?_⟩
    have some_ : lstrip bs t ≠ [] := by
      intro empty
      rw [empty, toUnsignedLong_nil] at number
      contradiction
    have length : parseArrayLength bs (ascii '[' :: t) attr.queueLength = (UInt32.ofNat n, some rest) := by
      rw [parseArrayLength, if_pos rfl, if_neg some_, parseU32, number, Option.map_some]
      dsimp only
      rw [closes]
      dsimp only
      rw [if_pos rfl]
      rfl
    rw [parseSinglePortAttribute, if_neg (by decide), if_neg (by decide), if_pos rfl, length]
  | @noValue t isLoose nothing =>
    refine ⟨_, _, rfl, ?_⟩
    rw [parseSinglePortAttribute, if_pos rfl]
    cases strip : lstrip bs t with
    | nil => rw [parseInitializer_blank line.behind strip]
    | cons c t' =>
      obtain rfl := nothing c (by rw [strip]; rfl)
      rw [parseInitializer_stay line.behind strip (by decide) (by decide)]
  | unclosed isLoose opens list =>
    refine ⟨_, _, rfl, ?_⟩
    rw [parseSinglePortAttribute, if_pos rfl, parseInitializer_unclosed line opens list]
  | noLength isLoose =>
    refine ⟨_, _, rfl, ?_⟩
    rw [parseSinglePortAttribute, if_neg (by decide), if_neg (by decide), if_pos rfl]
    rfl

theorem parseSingle_noAttribute (line : LineEnd) {attr attr' : PortAttributes} (nothing : NoAttribute bs attr t attr') :
    ∃ c t', t = c :: t' ∧ parseSinglePortAttribute bs line.behind attr c t' = (attr', none) := by
  cases nothing with
  | other unknown =>
    refine ⟨_, _, rfl, ?_⟩
    rw [parseSinglePortAttribute, if_neg unknown.1, if_neg unknown.2.1, if_neg unknown.2.2]
  | @noMinus t alone =>
    refine ⟨_, _, rfl, ?_⟩
    have fails : parseInitializerList bs line.behind {} [] t = none := by
      rw [parseInitializerList, if_neg (ne_nil_of_lstrip alone), dif_neg]
      · rw [alone]
        rfl
      · rw [alone]
        decide
    rw [parseSinglePortAttribute, if_pos rfl, parseInitializer, fails]
  | @noList t t' opens notClosed notEnded =>
    refine ⟨_, _, rfl, ?_⟩
    have fails : parseInitializerList bs line.behind {} [] t = none := by
      rw [parseInitializerList_open line.behind {} opens]
      by_contra parses
      rcases @elements_of_parse line bs _ t' [] [] (Nat.le_refl _) parses with ⟨values, rest, list⟩ | list
      · exact notClosed values rest list
      · exact notEnded list
    rw [parseSinglePortAttribute, if_pos rfl, parseInitializer, fails]
  | noBracket other =>
    refine ⟨_, _, rfl, ?_⟩
    rw [parseSinglePortAttribute, if_neg (by decide), if_neg (by decide), if_pos rfl, parseArrayLength, if_neg other]
  | @noNumber t some_ noNumber =>
    refine ⟨_, _, rfl, ?_⟩
    rw [parseSinglePortAttribute, if_neg (by decide), if_neg (by decide), if_pos rfl, parseArrayLength, if_pos rfl,
      if_neg some_, parseU32, noNumber]
    rfl
  | @notClosed c t next _ n number stray other =>
    refine ⟨_, _, rfl, ?_⟩
    have some_ : lstrip bs t ≠ [] := by
      intro empty
      rw [empty, toUnsignedLong_nil] at number
      contradiction
    have length : parseArrayLength bs (ascii '[' :: t) attr.queueLength = (UInt32.ofNat n, none) := by
      rw [parseArrayLength, if_pos rfl, if_neg some_, parseU32, number, Option.map_some]
      dsimp only
      rw [stray]
      dsimp only
      rw [if_neg other]
      rfl
    rw [parseSinglePortAttribute, if_neg (by decide), if_neg (by decide), if_pos rfl, length]

theorem not_space_of_lstrip {c : Byte} (strip : lstrip bs t = c :: rest) : bs.isSpace c = false := by
  obtain ⟨-, -, -, ends⟩ := spaces_lstrip bs t
  exact ends c (by rw [strip]; rfl)

/-- An attribute is read, or there is none, or the parser stays in front of a character that is no comma. -/
theorem parseSingle_cases (line : LineEnd) (attr : PortAttributes) (c : Byte) (t : Bytes) :
    (∃ attr' rest, AttributeAt bs true attr (c :: t) attr' rest) ∨ (∃ attr', NoAttribute bs attr (c :: t) attr') ∨
      ∃ attr' d rest, parseSinglePortAttribute bs line.behind attr c t = (attr', some (d :: rest)) ∧
        bs.isSpace d = false ∧ d ≠ ascii ',' := by
  by_cases value : c = ascii '='
  · subst value
    cases strip : lstrip bs t with
    | nil => exact .inl ⟨_, _, .noValue rfl (by rw [strip]; intro _ mem; cases mem)⟩
    | cons d u =>
      have plain := not_space_of_lstrip strip
      have same := @lstrip_lstrip bs t
      rw [strip] at same
      by_cases opens : d = ascii '{'
      · subst opens
        by_cases list : ∃ values rest, ElementsAt bs true [] u values rest
        · obtain ⟨values, rest, list⟩ := list
          exact .inl ⟨_, _, .initValue (by rw [strip]; exact .list list)⟩
        · by_cases unclosed : UnclosedList bs [] u
          · exact .inl ⟨_, _, .unclosed rfl strip unclosed⟩
          · exact .inr (.inl ⟨_, .noList strip (fun values rest closed => list ⟨values, rest, closed⟩) unclosed⟩)
      · rcases parseScalar_cases bs line d u with
          ⟨sv, next, scalar⟩ | alone | ⟨quoted, fails⟩ | ⟨noQuote, noMinus, noDigit, -⟩
        · exact .inl ⟨_, _, .initValue (by rw [strip]; exact .scalar scalar)⟩
        · exact .inr (.inl ⟨_, .noMinus (strip.trans alone)⟩)
        · have parses : parseInitializerList bs line.behind {} [] t = some ({ sv := some .none }, d :: u) := by
            rw [parseInitializerList_scalar (ne_nil_of_lstrip strip)
              (by rw [strip]; exact fun same => opens (Option.some.inj same)) (by rw [strip]; exact fails),
              postValueHandler, continueWith, same]
          have noComma : d ≠ ascii ',' := by
            rw [quoted]
            decide
          have read : ∃ dv, parseInitializer bs line.behind t attr.initValue = some (dv, d :: u) := by
            rw [parseInitializer, parses]
            dsimp only
            split
            · exact ⟨_, rfl⟩
            · exact ⟨_, rfl⟩
          obtain ⟨dv, read⟩ := read
          refine .inr (.inr ?_)
          rw [parseSinglePortAttribute, if_pos rfl, read]
          exact ⟨_, _, _, rfl, plain, noComma⟩
        · by_cases comma : d = ascii ','
          · refine .inl ⟨_, _, .noValue rfl ?_⟩
            rw [strip]
            intro e mem
            cases mem
            exact comma
          · refine .inr (.inr ⟨attr, d, u, ?_, plain, comma⟩)
            rw [parseSinglePortAttribute, if_pos rfl,
              parseInitializer_stay line.behind strip opens ⟨noDigit, noMinus, noQuote⟩]
  · by_cases parameter : c = ascii 'P'
    · subst parameter
      exact .inl ⟨_, _, .parameter⟩
    · by_cases queue : c = ascii 'Q'
      · subst queue
        cases t with
        | nil => exact .inl ⟨_, _, .noLength rfl⟩
        | cons d u =>
          by_cases bracket : d = ascii '['
          · subst bracket
            -- a number that the line ends in, or no number, leaves the parser in front of the bracket
            have stays {queueLength : UInt32} (length : parseArrayLength bs (ascii '[' :: u) attr.queueLength =
                (queueLength, some (ascii '[' :: u))) : ∃ attr' e rest,
                parseSinglePortAttribute bs line.behind attr (ascii 'Q') (ascii '[' :: u) = (attr', some (e :: rest)) ∧
                  bs.isSpace e = false ∧ e ≠ ascii ',' := by
              refine ⟨{ attr with queueLength := queueLength }, ascii '[', u, ?_, not_space bs (by decide), by decide⟩
              rw [parseSinglePortAttribute, if_neg (by decide), if_neg (by decide), if_pos rfl, length]
            by_cases blank : lstrip bs u = []
            · have length : parseArrayLength bs (ascii '[' :: u) attr.queueLength =
                  (attr.queueLength, some (ascii '[' :: u)) := by
                rw [parseArrayLength, if_pos rfl, if_pos blank]
              exact .inr (.inr (stays length))
            · cases number : bs.toUnsignedLong (lstrip bs u) with
              | none => exact .inr (.inl ⟨_, .noNumber blank number⟩)
              | some pair =>
                obtain ⟨n, next⟩ := pair
                cases strip : lstrip bs next with
                | nil =>
                  have length : parseArrayLength bs (ascii '[' :: u) attr.queueLength =
                      (UInt32.ofNat n, some (ascii '[' :: u)) := by
                    rw [parseArrayLength, if_pos rfl, if_neg blank, parseU32, number, Option.map_some]
                    dsimp only
                    rw [strip]
                    rfl
                  exact .inr (.inr (stays length))
                | cons e v =>
                  by_cases closes : e = ascii ']'
                  · subst closes
                    exact .inl ⟨_, _, .queueLength number strip (.inl rfl)⟩
                  · exact .inr (.inl ⟨_, .notClosed number strip closes⟩)
          · exact .inr (.inl ⟨_, .noBracket bracket⟩)
      · exact .inr (.inl ⟨_, .other ⟨value, parameter, queue⟩⟩)

/-! The loop over the attributes -/

theorem parsePortAttributes_single {behind : Bytes} {attr attr' : PortAttributes} {c : Byte} {next result : Bytes}
    (strip : lstrip bs t = c :: next)
    (single : parseSinglePortAttribute bs behind attr c next = (attr', some result)) :
    parsePortAttributes bs behind attr t =
      match lstrip bs result with
      | [] => (attr', some [])
      | d :: next => if d = ascii ',' then parsePortAttributes bs behind attr' next else (attr', none) := by
  rw [parsePortAttributes, if_neg (ne_nil_of_lstrip strip)]
  split
  · next nothing =>
    rw [strip] at nothing
    contradiction
  · next c' next' known =>
    rw [strip] at known
    cases known
    split
    · next attr'' fails =>
      rw [single] at fails
      cases fails
    · next attr'' result' known' =>
      rw [single] at known'
      cases known'
      split
      · next ends => rw [ends]
      · next d rest separated => rw [separated]

theorem parsePortAttributes_fails {behind : Bytes} {attr attr' : PortAttributes} {c : Byte} {next : Bytes}
    (strip : lstrip bs t = c :: next) (single : parseSinglePortAttribute bs behind attr c next = (attr', none)) :
    parsePortAttributes bs behind attr t = (attr', some (c :: next)) := by
  rw [parsePortAttributes, if_neg (ne_nil_of_lstrip strip)]
  split
  · next nothing =>
    rw [strip] at nothing
    contradiction
  · next c' next' known =>
    rw [strip] at known
    cases known
    split
    · next attr'' fails =>
      rw [single] at fails
      cases fails
      rfl
    · next attr'' result known' =>
      rw [single] at known'
      cases known'

theorem parsePortAttributes_blank {behind : Bytes} {attr : PortAttributes} (blank : lstrip bs t = []) :
    parsePortAttributes bs behind attr t = (attr, some []) := by
  rw [parsePortAttributes]
  split
  · next empty => rw [empty]
  · split
    · rfl
    · next c next known =>
      rw [blank] at known
      contradiction

end

theorem parsePortAttributes_written (line : LineEnd) {bs : Bstr} {loose : Bool} {attr attr' : PortAttributes}
    {t : Bytes} (written : AttributesAt bs loose attr t attr') :
    ∃ rest, parsePortAttributes bs line.behind attr t = (attr', some rest) ∧ rest.length < t.length := by
  induction written with
  | last first ends =>
    obtain ⟨c, next, strip, single⟩ := parseSingle_attributeAt line first
    rw [parsePortAttributes_single strip single, ends]
    exact ⟨[], rfl, Nat.lt_of_le_of_lt (Nat.zero_le _) (shorter_of_lstrip strip)⟩
  | comma first comma ends =>
    obtain ⟨c, next, strip, single⟩ := parseSingle_attributeAt line first
    rw [parsePortAttributes_single strip single, comma]
    dsimp only
    rw [if_pos rfl, parsePortAttributes_blank ends]
    exact ⟨[], rfl, Nat.lt_of_le_of_lt (Nat.zero_le _) (shorter_of_lstrip strip)⟩
  | more first comma later ih =>
    obtain ⟨c, next, strip, single⟩ := parseSingle_attributeAt line first
    obtain ⟨rest, parses, shorter⟩ := ih
    rw [parsePortAttributes_single strip single, comma]
    dsimp only
    rw [if_pos rfl, parses]
    have moved := parseSinglePortAttribute_length single
    exact ⟨rest, rfl, by have := shorter_of_lstrip strip; have := shorter_of_lstrip comma; omega⟩
  | @broken _ _ _ t rest t' isLoose first comma nothing =>
    obtain ⟨c, next, strip, single⟩ := parseSingle_attributeAt line first
    obtain ⟨c', next', strip', fails⟩ := parseSingle_noAttribute line nothing
    rw [parsePortAttributes_single strip single, comma]
    dsimp only
    rw [if_pos rfl, parsePortAttributes_fails strip' fails]
    have moved := parseSinglePortAttribute_length single
    have first := shorter_of_lstrip strip
    have second := shorter_of_lstrip comma
    have third := shorter_of_lstrip strip'
    refine ⟨_, rfl, ?_⟩
    rw [List.length_cons]
    omega

/-- What the parser takes is attributes, or nothing, or it has not moved on. -/
theorem written_of_parsePortAttributes (line : LineEnd) {bs : Bstr} (bound : Nat) :
    ∀ {attr attr' : PortAttributes} {t rest : Bytes}, t.length ≤ bound →
      parsePortAttributes bs line.behind attr t = (attr', some rest) →
        AttributesAt bs true attr t attr' ∨ lstrip bs t = [] ∧ attr' = attr ∨
          NoAttribute bs attr (lstrip bs t) attr' ∧ rest = lstrip bs t := by
  induction bound with
  | zero =>
    intro attr attr' t rest short parses
    obtain rfl := List.length_eq_zero_iff.mp (Nat.le_zero.mp short)
    rw [parsePortAttributes_blank (lstrip_nil bs)] at parses
    cases parses
    exact .inr (.inl ⟨lstrip_nil bs, rfl⟩)
  | succ bound ih =>
    intro attr attr' t rest short parses
    cases strip : lstrip bs t with
    | nil =>
      rw [parsePortAttributes_blank strip] at parses
      cases parses
      exact .inr (.inl ⟨rfl, rfl⟩)
    | cons c next =>
      rcases parseSingle_cases line attr c next with
        ⟨attr₁, result, first⟩ | ⟨attr₁, nothing⟩ | ⟨attr₁, d, after, single, plain, other⟩
      · obtain ⟨c', next', same, single⟩ := parseSingle_attributeAt line first
        cases same
        rw [parsePortAttributes_single strip single] at parses
        rw [← strip] at first
        split at parses
        · next ends =>
          cases parses
          exact .inl (.last first ends)
        · next d after separated =>
          split at parses
          · next comma =>
            subst comma
            have moved := parseSinglePortAttribute_length single
            have first' := shorter_of_lstrip strip
            have second := shorter_of_lstrip separated
            rcases ih (by omega) parses with later | ⟨ends, rfl⟩ | ⟨nothing, -⟩
            · exact .inl (.more first separated later)
            · exact .inl (.comma first separated ends)
            · exact .inl (.broken rfl first separated nothing)
          · cases parses
      · obtain ⟨c', next', same, single⟩ := parseSingle_noAttribute line nothing
        cases same
        rw [parsePortAttributes_fails strip single] at parses
        cases parses
        exact .inr (.inr ⟨nothing, rfl⟩)
      · rw [parsePortAttributes_single strip single, lstrip_plain plain] at parses
        dsimp only at parses
        rw [if_neg other] at parses
        cases parses

end AttributeParser

/-- The parser accepts exactly the texts of the loose reading, and the empty text where no error is left. -/
theorem stateParsePortAttributes_iff {bs : Bstr} {line : LineEnd} {lastError : Option ApxError} {t : Bytes}
    {attr : PortAttributes} (some_ : t ≠ []) :
    stateParsePortAttributes bs line lastError t = .ok attr ↔ PortAttributesText bs true t attr := by
  rw [stateParsePortAttributes, errorAt, if_neg some_]
  constructor
  · intro parses
    split at parses
    · next attr' rest known =>
      split at parses
      · next moved =>
        cases parses
        rcases AttributeParser.written_of_parsePortAttributes line _ (Nat.le_refl _) known with
          written | ⟨blank, rfl⟩ | ⟨nothing, rfl⟩
        · exact .attributes written
        · exact .blank rfl some_ blank
        · exact .broken rfl moved nothing
      · contradiction
    · contradiction
  · intro written
    cases written with
    | attributes written =>
      obtain ⟨rest, parses, shorter⟩ := AttributeParser.parsePortAttributes_written line written
      rw [parses]
      exact if_pos shorter
    | blank isLoose some_ nothing =>
      rw [AttributeParser.parsePortAttributes_blank nothing]
      exact if_pos (List.length_pos_of_ne_nil some_)
    | broken isLoose space nothing =>
      obtain ⟨c, next, strip, fails⟩ := AttributeParser.parseSingle_noAttribute line nothing
      rw [AttributeParser.parsePortAttributes_fails strip fails]
      dsimp only
      rw [← strip]
      exact if_pos space

/-! What is meant is also accepted. -/

theorem ScalarAt.loose {loose : Bool} {t rest : Bytes} {sv : Sv} (written : ScalarAt loose t sv rest) :
    ScalarAt true t sv rest := by
  cases written with
  | integer number oneSign range => exact .integer number oneSign range
  | string closed => exact .string closed
  | otherNumber isLoose number => exact .otherNumber rfl number
  | minus isLoose some_ noNumber => exact .minus rfl some_ noNumber

mutual

theorem InitializerAt.loose {bs : Bstr} {loose : Bool} : ∀ {t rest : Bytes} {value : Dv},
    InitializerAt bs loose t value rest → InitializerAt bs true t value rest
  | _, _, _, .scalar written => .scalar (ScalarAt.loose written)
  | _, _, _, .list elements => .list (ElementsAt.loose elements)

theorem ElementsAt.loose {bs : Bstr} {loose : Bool} : ∀ {t rest : Bytes} {before values : List Dv},
    ElementsAt bs loose before t values rest → ElementsAt bs true before t values rest
  | _, _, _, _, .close closes => .close closes
  | _, _, _, _, .last first closes => .last (InitializerAt.loose first) closes
  | _, _, _, _, .more first comma later => .more (InitializerAt.loose first) comma (ElementsAt.loose later)
  | _, _, _, _, .comma _ some_ comma later => .comma rfl some_ comma (ElementsAt.loose later)

end

theorem AttributeAt.loose {bs : Bstr} {loose : Bool} {attr attr' : PortAttributes} {t rest : Bytes}
    (written : AttributeAt bs loose attr t attr' rest) : AttributeAt bs true attr t attr' rest := by
  cases written with
  | initValue written => exact .initValue (InitializerAt.loose written)
  | parameter => exact .parameter
  | queueLength number closes fits => exact .queueLength number closes (.inl rfl)
  | noValue isLoose nothing => exact .noValue rfl nothing
  | unclosed isLoose opens list => exact .unclosed rfl opens list
  | noLength isLoose => exact .noLength rfl

theorem AttributesAt.loose {bs : Bstr} {loose : Bool} {attr attr' : PortAttributes} {t : Bytes}
    (written : AttributesAt bs loose attr t attr') : AttributesAt bs true attr t attr' := by
  induction written with
  | last first ends => exact .last first.loose ends
  | comma first comma ends => exact .comma first.loose comma ends
  | more first comma later ih => exact .more first.loose comma ih
  | broken isLoose first comma nothing => exact .broken rfl first.loose comma nothing

theorem PortAttributesText.loose {bs : Bstr} {loose : Bool} {attr : PortAttributes} {t : Bytes}
    (written : PortAttributesText bs loose t attr) : PortAttributesText bs true t attr := by
  cases written with
  | attributes written => exact .attributes written.loose
  | blank isLoose some_ nothing => exact .blank rfl some_ nothing
  | broken isLoose space nothing => exact .broken rfl space nothing

def lineFeed : LineEnd := ⟨[10], 10, [], rfl, .inr (.inl rfl)⟩

end Apx
