import Apx.Strtoul

/-! The text that names a resource (util.c): an address or the name of a computer, with a port behind it, or a
file. -/

namespace Apx

open Bstr

/-- apx_resource_type_t -/
inductive ResourceType where
  | unknown
  | ipv4
  | ipv6
  | file
  | name
  | error
  deriving DecidableEq, Repr

/-- What apx_parse_resource_name returns and what it leaves in its two results, which keep what they hold
otherwise -/
structure ParsedResource where
  type : ResourceType
  name : Option Bytes := none
  port : Option Nat := none
  deriving DecidableEq, Repr

namespace ResourceName

def maxInt : Nat := 2 ^ 31 - 1

/-- MAX_PORT_NUMBER -/
def maxPortNumber : Nat := 65535

/-- isalpha of the C locale -/
def isAlpha (b : Byte) : Bool := (65 ≤ b && b ≤ 90) || (97 ≤ b && b ≤ 122)

/-- strtoul in base 10, which is 0 where no number is written -/
def strtoul (t : Bytes) : Nat :=
  let (minus, text) := Strtoul.sign (t.dropWhile Strtoul.isSpace)
  let digits := text.takeWhile isDigit
  if digits = [] then 0
  else (Strtoul.toUnsigned (if minus then -(decimalValue digits : Int) else decimalValue digits)).toNat

/-- strrchr: what stands before the last such byte and behind it -/
def strrchr : Bytes → Byte → Option (Bytes × Bytes)
  | [], _ => none
  | c :: rest, b =>
    match strrchr rest b with
    | some (before, behind) => some (c :: before, behind)
    | none => if c = b then some ([], rest) else none

/-- The loop of apx_util_verifyIPV4Address. `none`: a counter has gone beyond an int. -/
def verifyLoop (numberInGroup groupLength groupCount : Nat) : Bytes → Option Bool
  | [] => some (groupCount = 4)
  | c :: rest =>
    if c = ascii '.' then
      if 0 < groupLength then
        if groupCount < maxInt then verifyLoop 0 0 (groupCount + 1) rest else none
      else some false
    else if isDigit c then
      if groupLength < maxInt then
        let number := numberInGroup * 10 + (c.toNat - 48)
        if 255 < number then some false else verifyLoop number (groupLength + 1) groupCount rest
      else none
    else some false

/-- apx_util_verifyIPV4Address -/
def verifyIPV4Address (t : Bytes) : Option Bool := verifyLoop 0 0 1 t

/-- The bytes besides letters that a name starts with -/
def isMark (b : Byte) : Bool := b = ascii '.' || b = ascii '_' || b = ascii '-' || b = ascii '~'

/-- apx_util_verify_name -/
def verifyName : Bytes → Bool
  | [] => true
  | c :: rest => (isMark c || isAlpha c) && rest.all fun b => isMark b || isAlpha b || isDigit b

/-- What apx_parse_resource_name makes of a text without a slash whose port has been read. strtoul always sets
the end that it is asked for, so that no text is refused for its port there. -/
def parseAddress (rest : Bytes) (parsedPort : Nat) : Option ParsedResource :=
  (verifyIPV4Address rest).map fun isAddress =>
    let type := if isAddress then .ipv4 else if verifyName rest then .name else .error
    if maxPortNumber < parsedPort ∨ type = .error then { type := .error }
    else { type := type, name := some rest, port := some parsedPort }

/-- apx_parse_resource_name with both results asked for and the memory for the name at hand. `none`: a counter has
gone beyond an int. -/
def parseResourceName (text : Bytes) : Option ParsedResource :=
  if ascii '/' ∈ text then some { type := .file, name := some text, port := some 0 }
  else
    match strrchr text (ascii ':') with
    | none => parseAddress text 0
    | some (rest, portText) => parseAddress rest (strtoul portText)

/-! The grammar of the names -/

def Octet (s : Bytes) : Prop := Digits s ∧ decimalValue s ≤ 255

/-- Four groups with dots between them -/
def IsAddress (text : Bytes) : Prop :=
  ∃ a b c d, text = a ++ ascii '.' :: (b ++ ascii '.' :: (c ++ ascii '.' :: d)) ∧ Octet a ∧ Octet b ∧ Octet c ∧ Octet d

/-- The empty name, or one that starts with a letter or a mark and goes on with letters, marks and digits -/
def IsName (text : Bytes) : Prop :=
  ∀ b rest, text = b :: rest → (isAlpha b = true ∨ isMark b = true) ∧
    ∀ c ∈ rest, isAlpha c = true ∨ isDigit c = true ∨ isMark c = true

/-- A text is split into what stands before its port and the port. Where no port is written, the port is 0. -/
inductive SplitPort : Bytes → Bytes → Nat → Prop where
  | absent {text : Bytes} : SplitPort text text 0
  | port {rest digits : Bytes} (number : Digits digits) (small : decimalValue digits ≤ maxPortNumber) :
    SplitPort (rest ++ ascii ':' :: digits) rest (decimalValue digits)

/-- The result for a text is the one of the grammar. -/
structure Classified (text : Bytes) (result : ParsedResource) : Prop where
  file : result.type = .file ↔ ascii '/' ∈ text
  ipv4 : ascii '/' ∉ text → (result.type = .ipv4 ↔ ∃ rest port, SplitPort text rest port ∧ IsAddress rest)
  name : ascii '/' ∉ text → (result.type = .name ↔ ∃ rest port, SplitPort text rest port ∧ IsName rest)
  error : ascii '/' ∉ text →
    (result.type = .error ↔ ∀ rest port, SplitPort text rest port → ¬IsAddress rest ∧ ¬IsName rest)
  writtenFile : ascii '/' ∈ text → result.name = some text ∧ result.port = some 0
  written : ascii '/' ∉ text → ∀ rest port, SplitPort text rest port → IsAddress rest ∨ IsName rest →
    result.name = some rest ∧ result.port = some port

/-- apx_parse_resource_name returns, with the result of the grammar. -/
def Classifies (text : Bytes) : Prop := ∃ result, parseResourceName text = some result ∧ Classified text result

/-! Where the scanner leaves the grammar -/

/-- Three groups with a dot behind each -/
def Trailing (text : Bytes) : Prop :=
  ∃ a b c, text = a ++ ascii '.' :: (b ++ ascii '.' :: (c ++ [ascii '.'])) ∧ Octet a ∧ Octet b ∧ Octet c

/-- A group, the digits of a group or the number of groups does not fit into an int. The text starts with the
group of that number. -/
inductive Overlong : Nat → Bytes → Prop where
  | digits {count : Nat} {group : Bytes} {c : Byte} {rest : Bytes} (octet : Octet group)
    (long : maxInt ≤ group.length) (digit : isDigit c = true) : Overlong count (group ++ c :: rest)
  | groups {count : Nat} {group rest : Bytes} (octet : Octet group) (many : maxInt ≤ count) :
    Overlong count (group ++ ascii '.' :: rest)
  | next {count : Nat} {group rest : Bytes} (octet : Octet group) (behind : Overlong (count + 1) rest) :
    Overlong count (group ++ ascii '.' :: rest)

/-- A text that the scanner reads by the grammar: its counters suffice, no address is accepted in front of its
last group, and what strtoul takes for the port of an address or a name is a number. -/
def Regular (text : Bytes) : Prop :=
  ascii '/' ∈ text ∨
    match strrchr text (ascii ':') with
    | none => ¬Overlong 1 text ∧ ¬Trailing text
    | some (rest, portText) =>
      ¬Overlong 1 rest ∧ (strtoul portText ≤ maxPortNumber →
        ¬Trailing rest ∧ (IsAddress rest ∨ IsName rest → Digits portText))

/-! The counters of the scanner -/

theorem decimalValue_append (front back : Bytes) :
    decimalValue (front ++ back) = decimalValue back + 10 ^ back.length * decimalValue front := by
  rw [decimalValue, decimalValue, decimalValue, List.reverse_append, List.map_append, Nat.ofDigits_append,
    List.length_map, List.length_reverse]

theorem decimalValue_snoc (front : Bytes) (c : Byte) :
    decimalValue (front ++ [c]) = decimalValue front * 10 + (c.toNat - 48) := by
  have last : decimalValue [c] = c.toNat - 48 := rfl
  rw [decimalValue_append, last, List.length_singleton]
  omega

theorem decimalValue_le_append (front back : Bytes) : decimalValue front ≤ decimalValue (front ++ back) := by
  have grows : decimalValue front ≤ 10 ^ back.length * decimalValue front :=
    Nat.le_mul_of_pos_left _ (Nat.pow_pos (by decide))
  rw [decimalValue_append]
  omega

theorem not_dot_of_digit {c : Byte} (digit : isDigit c = true) : c ≠ ascii '.' := by
  rintro rfl
  contradiction

theorem verifyLoop_digits {back : Bytes} (digits : ∀ b ∈ back, isDigit b = true) (count : Nat) (rest : Bytes) :
    ∀ front : Bytes, decimalValue (front ++ back) ≤ 255 → front.length ≤ maxInt →
      verifyLoop (decimalValue front) front.length count (back ++ rest) =
        if (front ++ back).length ≤ maxInt then
          verifyLoop (decimalValue (front ++ back)) (front ++ back).length count rest
        else none := by
  induction back with
  | nil =>
    intro front _ fits
    rw [List.append_nil, if_pos fits, List.nil_append]
  | cons c back ih =>
    intro front small fits
    have digit := digits c List.mem_cons_self
    have same : front ++ c :: back = (front ++ [c]) ++ back := by rw [List.append_assoc, List.singleton_append]
    rw [same] at small ⊢
    have step := Nat.le_trans (decimalValue_le_append (front ++ [c]) back) small
    rw [decimalValue_snoc] at step
    rw [List.cons_append, verifyLoop, if_neg (not_dot_of_digit digit), if_pos digit]
    have longer : (front ++ [c]).length = front.length + 1 := List.length_append
    by_cases room : front.length < maxInt
    · have next := ih (fun b mem => digits b (List.mem_cons_of_mem c mem)) (front ++ [c]) small (by omega)
      rw [decimalValue_snoc, longer] at next
      rw [if_pos room, if_neg (Nat.not_lt.mpr step)]
      exact next
    · rw [if_neg room, if_neg]
      rw [List.length_append, longer]
      omega

theorem verifyLoop_octet {group : Bytes} (octet : Octet group) (count : Nat) (rest : Bytes) :
    verifyLoop 0 0 count (group ++ rest) =
      if group.length ≤ maxInt then verifyLoop (decimalValue group) group.length count rest else none :=
  verifyLoop_digits octet.1.2 count rest [] octet.2 (Nat.zero_le _)

theorem verifyLoop_of_overlong {count : Nat} {t : Bytes} (long : Overlong count t) : verifyLoop 0 0 count t = none := by
  induction long with
  | @digits count group c rest octet long digit =>
    rw [verifyLoop_octet octet]
    split
    · rw [verifyLoop, if_neg (not_dot_of_digit digit), if_pos digit, if_neg (by omega)]
    · rfl
  | @groups count group rest octet many =>
    rw [verifyLoop_octet octet]
    split
    · rw [verifyLoop, if_pos rfl, if_pos (List.length_pos_of_ne_nil octet.1.1), if_neg (by omega)]
    · rfl
  | @next count group rest octet _ ih =>
    rw [verifyLoop_octet octet]
    split
    · rw [verifyLoop, if_pos rfl, if_pos (List.length_pos_of_ne_nil octet.1.1), ih, ite_self]
    · rfl

/-- What the scanner accepts from the group of that number on: the last group can be empty. -/
inductive Accepted : Nat → Bytes → Prop where
  | last {group : Bytes} (digits : ∀ b ∈ group, isDigit b = true) (small : decimalValue group ≤ 255) :
    Accepted 4 group
  | next {count : Nat} {group rest : Bytes} (octet : Octet group) (behind : Accepted (count + 1) rest) :
    Accepted count (group ++ ascii '.' :: rest)

theorem verifyLoop_of_accepted {count : Nat} {t : Bytes} (accepted : Accepted count t) :
    verifyLoop 0 0 count t = some true ∨ verifyLoop 0 0 count t = none := by
  induction accepted with
  | @last group digits small =>
    have run := verifyLoop_digits digits 4 [] [] small (Nat.zero_le _)
    rw [List.append_nil, List.nil_append] at run
    change verifyLoop 0 0 4 group = _ at run
    rw [run]
    split
    · exact .inl rfl
    · exact .inr rfl
  | @next count group rest octet _ ih =>
    rw [verifyLoop_octet octet]
    split
    · rw [verifyLoop, if_pos rfl, if_pos (List.length_pos_of_ne_nil octet.1.1)]
      split
      · exact ih
      · exact .inr rfl
    · exact .inr rfl

/-- What the answer of the scanner says about the text, from within a group on -/
theorem verifyLoop_reads (t : Bytes) : ∀ (group : Bytes) (count : Nat), (∀ b ∈ group, isDigit b = true) →
    decimalValue group ≤ 255 →
    (verifyLoop (decimalValue group) group.length count t = none → Overlong count (group ++ t)) ∧
      (verifyLoop (decimalValue group) group.length count t = some true → Accepted count (group ++ t)) := by
  induction t with
  | nil =>
    intro group count digits small
    rw [verifyLoop, List.append_nil]
    constructor
    · exact nofun
    · intro four
      rw [Option.some.injEq, decide_eq_true_eq] at four
      rw [four]
      exact .last digits small
  | cons c rest ih =>
    intro group count digits small
    rw [verifyLoop]
    by_cases dot : c = ascii '.'
    · rw [if_pos dot, dot]
      by_cases begun : 0 < group.length
      · have octet : Octet group := ⟨⟨List.ne_nil_of_length_pos begun, digits⟩, small⟩
        rw [if_pos begun]
        split
        · have behind := ih [] (count + 1) nofun (Nat.zero_le _)
          exact ⟨fun fails => .next octet (behind.1 fails), fun reads => .next octet (behind.2 reads)⟩
        · next many => exact ⟨fun _ => .groups octet (Nat.not_lt.mp many), nofun⟩
      · rw [if_neg begun]
        exact ⟨nofun, nofun⟩
    · rw [if_neg dot]
      by_cases digit : isDigit c = true
      · rw [if_pos digit]
        split
        · rw [← decimalValue_snoc]
          dsimp only
          split
          · exact ⟨nofun, nofun⟩
          · next fits =>
            have longer : ∀ b ∈ group ++ [c], isDigit b = true := by
              intro b mem
              rcases List.mem_append.mp mem with old | new
              · exact digits b old
              · rw [List.mem_singleton.mp new]
                exact digit
            have behind := ih (group ++ [c]) count longer (Nat.not_lt.mp fits)
            rw [List.length_append, List.length_singleton, List.append_assoc, List.singleton_append] at behind
            exact behind
        · next long =>
          have some : group ≠ [] := by
            rintro rfl
            exact long (by decide)
          exact ⟨fun _ => .digits ⟨⟨some, digits⟩, small⟩ (Nat.not_lt.mp long) digit, nofun⟩
      · rw [if_neg digit]
        exact ⟨nofun, nofun⟩

theorem Accepted.count_le {count : Nat} {t : Bytes} (accepted : Accepted count t) : count ≤ 4 := by
  induction accepted with
  | last => exact Nat.le_refl 4
  | next _ _ ih => exact Nat.le_of_succ_le ih

theorem Accepted.octet {count : Nat} {t : Bytes} (accepted : Accepted count t) (more : count < 4) :
    ∃ group rest, t = group ++ ascii '.' :: rest ∧ Octet group ∧ Accepted (count + 1) rest := by
  cases accepted with
  | last => exact absurd more (Nat.lt_irrefl 4)
  | @next _ group rest octet behind => exact ⟨group, rest, rfl, octet, behind⟩

theorem Accepted.group {t : Bytes} (accepted : Accepted 4 t) :
    (∀ b ∈ t, isDigit b = true) ∧ decimalValue t ≤ 255 := by
  cases accepted with
  | last digits small => exact ⟨digits, small⟩
  | next _ behind => exact absurd behind.count_le (by decide)

theorem accepted_one_iff (t : Bytes) : Accepted 1 t ↔ IsAddress t ∨ Trailing t := by
  constructor
  · intro accepted
    obtain ⟨a, t, rfl, first, accepted⟩ := accepted.octet (by decide)
    obtain ⟨b, t, rfl, second, accepted⟩ := accepted.octet (by decide)
    obtain ⟨c, t, rfl, third, accepted⟩ := accepted.octet (by decide)
    obtain ⟨digits, small⟩ := accepted.group
    by_cases empty : t = []
    · right
      rw [empty]
      exact ⟨a, b, c, rfl, first, second, third⟩
    · left
      exact ⟨a, b, c, t, rfl, first, second, third, ⟨empty, digits⟩, small⟩
  · rintro (⟨a, b, c, d, rfl, first, second, third, fourth⟩ | ⟨a, b, c, rfl, first, second, third⟩)
    · exact .next first (.next second (.next third (.last fourth.1.2 fourth.2)))
    · exact .next first (.next second (.next third (.last nofun (Nat.zero_le _))))

/-- apx_util_verifyIPV4Address answers unless a counter overflows, and accepts an address and three groups with a
dot behind each. -/
theorem verifyIPV4Address_cases (t : Bytes) :
    Overlong 1 t ∧ verifyIPV4Address t = none ∨
      ¬Overlong 1 t ∧ ∃ answer, verifyIPV4Address t = some answer ∧ (answer = true ↔ IsAddress t ∨ Trailing t) := by
  obtain ⟨fails, reads⟩ := verifyLoop_reads t [] 1 nofun (Nat.zero_le _)
  by_cases long : Overlong 1 t
  · exact .inl ⟨long, verifyLoop_of_overlong long⟩
  · right
    refine ⟨long, ?_⟩
    cases answers : verifyIPV4Address t with
    | none => exact absurd (fails answers) long
    | some answer =>
      refine ⟨answer, rfl, ?_⟩
      rw [← accepted_one_iff]
      constructor
      · rintro rfl
        exact reads answers
      · intro accepted
        rcases verifyLoop_of_accepted accepted with yes | overflows
        · exact Option.some.inj (answers.symm.trans yes)
        · exact absurd (answers.symm.trans overflows) (Option.some_ne_none _)

/-! Addresses and names -/

theorem IsAddress.mem {t : Bytes} (address : IsAddress t) : ∀ b ∈ t, isDigit b = true ∨ b = ascii '.' := by
  obtain ⟨a, b, c, d, rfl, first, second, third, fourth⟩ := address
  intro x mem
  simp only [List.mem_append, List.mem_cons] at mem
  rcases mem with mem | dot | mem | dot | mem | dot | mem
  · exact .inl (first.1.2 x mem)
  · exact .inr dot
  · exact .inl (second.1.2 x mem)
  · exact .inr dot
  · exact .inl (third.1.2 x mem)
  · exact .inr dot
  · exact .inl (fourth.1.2 x mem)

theorem IsName.mem {t : Bytes} (name : IsName t) :
    ∀ b ∈ t, isAlpha b = true ∨ isDigit b = true ∨ isMark b = true := by
  cases t with
  | nil => exact nofun
  | cons c rest =>
    obtain ⟨first, others⟩ := name c rest rfl
    intro b mem
    rcases List.mem_cons.mp mem with rfl | mem
    · exact first.imp id .inr
    · exact others b mem

theorem not_colon {t : Bytes} (reading : IsAddress t ∨ IsName t) : ascii ':' ∉ t := by
  intro mem
  rcases reading with address | name
  · exact absurd (address.mem _ mem) (by decide)
  · exact absurd (name.mem _ mem) (by decide)

theorem not_colon_of_digits {digits : Bytes} (number : Digits digits) : ascii ':' ∉ digits := fun mem =>
  absurd (number.2 _ mem) (by decide)

theorem not_start_of_digit {b : Byte} (digit : isDigit b = true) : ¬(isAlpha b = true ∨ isMark b = true) := by
  obtain ⟨lower, upper⟩ := (Strtoul.isDigit_iff b).mp digit
  rintro (letter | mark)
  · simp only [isAlpha, Bool.or_eq_true, Bool.and_eq_true, decide_eq_true_eq, UInt8.le_iff_toNat_le] at letter
    have values : (65 : Byte).toNat = 65 ∧ (97 : Byte).toNat = 97 := ⟨rfl, rfl⟩
    omega
  · simp only [isMark, Bool.or_eq_true, decide_eq_true_eq] at mark
    rcases mark with ((rfl | rfl) | rfl) | rfl <;> contradiction

/-- An address starts with a digit, and no name does. -/
theorem IsAddress.not_name {t : Bytes} (address : IsAddress t) : ¬IsName t := by
  intro name
  obtain ⟨a, b, c, d, rfl, first, -⟩ := address
  obtain ⟨x, a, rfl⟩ := List.exists_cons_of_ne_nil first.1.1
  exact not_start_of_digit (first.1.2 x List.mem_cons_self) (name x _ rfl).1

/-- An address ends with a digit, three groups with a dot behind each do not. -/
theorem Trailing.not_address {t : Bytes} (trailing : Trailing t) : ¬IsAddress t := by
  rintro ⟨a, b, c, d, rfl, -, -, -, last⟩
  obtain ⟨a', b', c', same, -⟩ := trailing
  have regroup : a' ++ ascii '.' :: (b' ++ ascii '.' :: (c' ++ [ascii '.'])) =
      (a' ++ ascii '.' :: (b' ++ ascii '.' :: c')) ++ [ascii '.'] := by simp
  have whole : a ++ ascii '.' :: (b ++ ascii '.' :: (c ++ ascii '.' :: d)) =
      (a ++ ascii '.' :: (b ++ ascii '.' :: (c ++ [ascii '.']))) ++ d := by simp
  rw [regroup, whole] at same
  have ends := congrArg List.getLast? same
  rw [List.getLast?_append_of_ne_nil _ last.1.1, List.getLast?_concat] at ends
  exact absurd (last.1.2 _ (List.mem_of_getLast? ends)) (by decide)

theorem verifyName_iff (t : Bytes) : verifyName t = true ↔ IsName t := by
  cases t with
  | nil => exact ⟨fun _ => nofun, fun _ => rfl⟩
  | cons b rest =>
    rw [verifyName, Bool.and_eq_true, List.all_eq_true, Bool.or_eq_true]
    constructor
    · rintro ⟨first, others⟩ _ _ ⟨⟩
      refine ⟨first.symm, fun c mem => ?_⟩
      have part := others c mem
      rw [Bool.or_eq_true, Bool.or_eq_true] at part
      tauto
    · intro name
      obtain ⟨first, others⟩ := name b rest rfl
      refine ⟨first.symm, fun c mem => ?_⟩
      have part := others c mem
      rw [Bool.or_eq_true, Bool.or_eq_true]
      tauto

/-! The port -/

theorem strtoul_digits {digits : Bytes} (number : Digits digits) :
    strtoul digits = if decimalValue digits < 2 ^ 64 then decimalValue digits else 2 ^ 64 - 1 := by
  obtain ⟨some, all⟩ := number
  obtain ⟨b, rest, rfl⟩ := List.exists_cons_of_ne_nil some
  obtain ⟨strip, noSign⟩ := Strtoul.front_of_digit (all b List.mem_cons_self) rest
  have run : (b :: rest).takeWhile isDigit = b :: rest := List.takeWhile_eq_self_iff.mpr all
  have natural : ((decimalValue (b :: rest) : Int)).natAbs = decimalValue (b :: rest) := Int.natAbs_natCast _
  simp only [strtoul, strip, noSign, run, if_neg some, Bool.false_eq_true, if_false, Strtoul.toUnsigned, natural]
  split
  · next fits => rw [BitVec.ofInt_natCast, BitVec.toNat_ofNat, Nat.mod_eq_of_lt fits]
  · rfl

theorem strtoul_le_iff {digits : Bytes} (number : Digits digits) :
    strtoul digits ≤ maxPortNumber ↔ decimalValue digits ≤ maxPortNumber := by
  have small : maxPortNumber < 2 ^ 64 - 1 := by decide
  rw [strtoul_digits number]
  split <;> omega

theorem strtoul_of_small {digits : Bytes} (number : Digits digits) (small : decimalValue digits ≤ maxPortNumber) :
    strtoul digits = decimalValue digits := by
  have fits : decimalValue digits < 2 ^ 64 := Nat.lt_of_le_of_lt small (by decide)
  rw [strtoul_digits number, if_pos fits]

theorem strrchr_eq_none {t : Bytes} {b : Byte} (absent : strrchr t b = none) : b ∉ t := by
  induction t with
  | nil => exact List.not_mem_nil
  | cons c rest ih =>
    rw [strrchr] at absent
    split at absent
    · contradiction
    · next before =>
      split at absent
      · contradiction
      · next other =>
        rw [List.mem_cons, not_or]
        exact ⟨fun same => other same.symm, ih before⟩

theorem strrchr_eq_some {t front behind : Bytes} {b : Byte} (last : strrchr t b = some (front, behind)) :
    t = front ++ b :: behind ∧ b ∉ behind := by
  induction t generalizing front with
  | nil => contradiction
  | cons c rest ih =>
    rw [strrchr] at last
    split at last
    · next before _ later =>
      cases last
      obtain ⟨rfl, absent⟩ := ih later
      exact ⟨rfl, absent⟩
    · next before =>
      split at last
      · next same =>
        cases last
        rw [same]
        exact ⟨rfl, strrchr_eq_none before⟩
      · contradiction

theorem SplitPort.port_le {text rest : Bytes} {port : Nat} (split : SplitPort text rest port) :
    port ≤ maxPortNumber := by
  cases split with
  | absent => exact Nat.zero_le _
  | port _ small => exact small

theorem SplitPort.of_no_colon {text rest : Bytes} {port : Nat} (split : SplitPort text rest port)
    (absent : ascii ':' ∉ text) : rest = text ∧ port = 0 := by
  cases split with
  | absent => exact ⟨rfl, rfl⟩
  | port => exact absurd (List.mem_append_right _ List.mem_cons_self) absent

/-- An address or a name that a text is split into stands before a colon, and the port behind it. -/
theorem SplitPort.of_colon {front behind rest : Bytes} {port : Nat}
    (split : SplitPort (front ++ ascii ':' :: behind) rest port) (reading : IsAddress rest ∨ IsName rest) :
    rest = front ∧ Digits behind ∧ port = decimalValue behind := by
  generalize whole : front ++ ascii ':' :: behind = text at split
  cases split with
  | absent => exact absurd (whole ▸ List.mem_append_right _ List.mem_cons_self) (not_colon reading)
  | @port _ digits number small =>
    have parts := (List.append_cons_inj_of_notMem (not_colon reading) (not_colon_of_digits number)).mp whole.symm
    obtain ⟨rfl, -, rfl⟩ := parts
    exact ⟨rfl, number, rfl⟩

/-! The classification -/

/-- What is returned for an address or a name that the text is split into in one way only -/
theorem classified_of_reading {text rest : Bytes} {port : Nat} {type : ResourceType} (plain : ascii '/' ∉ text)
    (split : SplitPort text rest port) (reading : type = .ipv4 ∧ IsAddress rest ∨ type = .name ∧ IsName rest)
    (only : ∀ r q, SplitPort text r q → IsAddress r ∨ IsName r → r = rest ∧ q = port) :
    Classified text { type := type, name := some rest, port := some port } := by
  have address : type = .ipv4 ↔ ∃ r q, SplitPort text r q ∧ IsAddress r := by
    constructor
    · rintro rfl
      rcases reading with ⟨-, address⟩ | ⟨other, -⟩
      · exact ⟨rest, port, split, address⟩
      · contradiction
    · rintro ⟨r, q, other, address⟩
      obtain ⟨rfl, rfl⟩ := only r q other (.inl address)
      rcases reading with ⟨same, -⟩ | ⟨-, name⟩
      · exact same
      · exact absurd name address.not_name
  have name : type = .name ↔ ∃ r q, SplitPort text r q ∧ IsName r := by
    constructor
    · rintro rfl
      rcases reading with ⟨other, -⟩ | ⟨-, name⟩
      · contradiction
      · exact ⟨rest, port, split, name⟩
    · rintro ⟨r, q, other, name⟩
      obtain ⟨rfl, rfl⟩ := only r q other (.inr name)
      rcases reading with ⟨-, address⟩ | ⟨same, -⟩
      · exact absurd name address.not_name
      · exact same
  refine ⟨?_, fun _ => address, fun _ => name, fun _ => ?_, fun slash => absurd slash plain, ?_⟩
  · constructor
    · rintro rfl
      rcases reading with ⟨other, -⟩ | ⟨other, -⟩ <;> contradiction
    · exact fun slash => absurd slash plain
  · constructor
    · rintro rfl
      rcases reading with ⟨other, -⟩ | ⟨other, -⟩ <;> contradiction
    · intro refused
      obtain ⟨noAddress, noName⟩ := refused rest port split
      rcases reading with ⟨-, address⟩ | ⟨-, name⟩
      · exact absurd address noAddress
      · exact absurd name noName
  · intro _ r q other read
    obtain ⟨rfl, rfl⟩ := only r q other read
    exact ⟨rfl, rfl⟩

theorem classified_error {text : Bytes} (plain : ascii '/' ∉ text)
    (refused : ∀ rest port, SplitPort text rest port → ¬(IsAddress rest ∨ IsName rest)) :
    Classified text { type := .error } where
  file := ⟨nofun, fun slash => absurd slash plain⟩
  ipv4 _ := ⟨nofun, fun ⟨rest, port, split, address⟩ => absurd (.inl address) (refused rest port split)⟩
  name _ := ⟨nofun, fun ⟨rest, port, split, name⟩ => absurd (.inr name) (refused rest port split)⟩
  error _ := ⟨fun _ rest port split => not_or.mp (refused rest port split), fun _ => rfl⟩
  writtenFile slash := absurd slash plain
  written _ rest port split reading := absurd reading (refused rest port split)

/-- The results for a text without a slash, whatever has been taken for its port, when no address or name is
written there with another port -/
theorem classified_parseAddress {text rest : Bytes} {port : Nat} (plain : ascii '/' ∉ text)
    (only : ∀ r q, SplitPort text r q → IsAddress r ∨ IsName r → r = rest ∧ q = port) :
    (∃ result, parseAddress rest port = some result ∧ Classified text result) ↔
      ¬Overlong 1 rest ∧ (port ≤ maxPortNumber →
        ¬Trailing rest ∧ (IsAddress rest ∨ IsName rest → SplitPort text rest port)) := by
  rcases verifyIPV4Address_cases rest with ⟨long, overflows⟩ | ⟨short, answer, answers, accepts⟩
  · rw [parseAddress, overflows]
    constructor
    · rintro ⟨_, ⟨⟩, -⟩
    · exact fun fine => absurd long fine.1
  · rw [parseAddress, answers, Option.map_some]
    simp only [Option.some.injEq, exists_eq_left', short, not_false_eq_true, true_and]
    by_cases large : maxPortNumber < port
    · rw [if_pos (.inl large)]
      constructor
      · exact fun _ small => absurd small (Nat.not_le.mpr large)
      · intro _
        apply classified_error plain
        intro r q split reading
        obtain ⟨-, rfl⟩ := only r q split reading
        exact Nat.not_le.mpr large split.port_le
    · have small : port ≤ maxPortNumber := Nat.not_lt.mp large
      simp only [large, false_or, small, true_imp_iff]
      by_cases trailing : Trailing rest
      · rw [if_pos (accepts.mpr (.inr trailing))]
        constructor
        · intro classified
          obtain ⟨r, q, split, address⟩ := (classified.ipv4 plain).mp rfl
          obtain ⟨rfl, -⟩ := only r q split (.inl address)
          exact absurd address trailing.not_address
        · exact fun fine => absurd trailing fine.1
      · simp only [trailing, not_false_eq_true, true_and]
        by_cases address : IsAddress rest
        · rw [if_pos (accepts.mpr (.inl address)), if_neg nofun]
          constructor
          · intro classified _
            obtain ⟨r, q, split, read⟩ := (classified.ipv4 plain).mp rfl
            obtain ⟨rfl, rfl⟩ := only r q split (.inl read)
            exact split
          · exact fun split => classified_of_reading plain (split (.inl address)) (.inl ⟨rfl, address⟩) only
        · rw [if_neg (fun accepted => (accepts.mp accepted).elim address trailing)]
          by_cases name : IsName rest
          · rw [if_pos ((verifyName_iff rest).mpr name), if_neg nofun]
            constructor
            · intro classified _
              obtain ⟨r, q, split, read⟩ := (classified.name plain).mp rfl
              obtain ⟨rfl, rfl⟩ := only r q split (.inr read)
              exact split
            · exact fun split => classified_of_reading plain (split (.inr name)) (.inr ⟨rfl, name⟩) only
          · rw [if_neg (mt (verifyName_iff rest).mp name), if_pos rfl]
            constructor
            · exact fun _ reading => (reading.elim address name).elim
            · intro _
              apply classified_error plain
              intro r q split reading
              obtain ⟨rfl, -⟩ := only r q split reading
              exact reading.elim address name

/-- A text gets the result of the grammar exactly when it is regular. -/
theorem classifies_iff (text : Bytes) : Classifies text ↔ Regular text := by
  rw [Classifies, Regular, parseResourceName]
  by_cases slash : ascii '/' ∈ text
  · simp only [slash, if_true, Option.some.injEq, exists_eq_left', true_or, iff_true]
    exact ⟨⟨fun _ => slash, fun _ => rfl⟩, absurd slash, absurd slash, absurd slash, fun _ => ⟨rfl, rfl⟩, absurd slash⟩
  · simp only [slash, if_false, false_or]
    cases last : strrchr text (ascii ':') with
    | none =>
      have absent := strrchr_eq_none last
      have only : ∀ r q, SplitPort text r q → IsAddress r ∨ IsName r → r = text ∧ q = 0 := fun r q split _ =>
        split.of_no_colon absent
      dsimp only
      rw [classified_parseAddress slash only]
      simp [SplitPort.absent]
    | some parts =>
      obtain ⟨rest, portText⟩ := parts
      obtain ⟨rfl, absent⟩ := strrchr_eq_some last
      have only : ∀ r q, SplitPort (rest ++ ascii ':' :: portText) r q → IsAddress r ∨ IsName r →
          r = rest ∧ q = strtoul portText := by
        intro r q split reading
        obtain ⟨same, number, value⟩ := split.of_colon reading
        rw [value, strtoul_of_small number (value ▸ split.port_le)]
        exact ⟨same, rfl⟩
      dsimp only
      rw [classified_parseAddress slash only]
      have written : strtoul portText ≤ maxPortNumber → IsAddress rest ∨ IsName rest →
          (SplitPort (rest ++ ascii ':' :: portText) rest (strtoul portText) ↔ Digits portText) := by
        intro small reading
        constructor
        · exact fun split => (split.of_colon reading).2.1
        · intro number
          have fits := (strtoul_le_iff number).mp small
          rw [strtoul_of_small number fits]
          exact .port number fits
      tauto

theorem octet_digit {b : Byte} (digit : isDigit b = true) : Octet [b] := by
  have value : decimalValue [b] = b.toNat - 48 := rfl
  have upper := ((Strtoul.isDigit_iff b).mp digit).2
  refine ⟨⟨List.cons_ne_nil b [], fun c mem => ?_⟩, by omega⟩
  rw [List.mem_singleton.mp mem]
  exact digit

private def threeGroups : Bytes := [49, 46, 50, 46, 51, 46]

/-- The text 1.2.3. is taken for an address. -/
theorem not_classifies_threeGroups : ¬Classifies threeGroups := by
  rintro ⟨result, run, classified⟩
  have accepted : result = { type := .ipv4, name := some threeGroups, port := some 0 } :=
    Option.some.inj (run.symm.trans rfl)
  have trailing : Trailing threeGroups :=
    ⟨[49], [50], [51], rfl, octet_digit rfl, octet_digit rfl, octet_digit rfl⟩
  obtain ⟨rest, port, split, address⟩ := (classified.ipv4 (by decide)).mp (congrArg ParsedResource.type accepted)
  obtain ⟨rfl, -⟩ := split.of_no_colon (by decide)
  exact trailing.not_address address

end ResourceName

end Apx
