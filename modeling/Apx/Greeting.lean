import Apx.StreamParsing

/-! The greetings that the two sides of a connection wait for. -/

namespace Apx

open LittleEndian StreamConnection

def newline : Byte := 10

/-- What process_greeting_message relies on in bstr_line: from the start of a line it goes to the next
newline, and it stays where it is when there is none. -/
structure LineFunction (bstrLine : Bytes → Nat) : Prop where
  found : ∀ line rest, newline ∉ line → bstrLine (line ++ newline :: rest) = line.length
  missing : ∀ t, newline ∉ t → bstrLine t = 0

/-- The loop of process_greeting_message over the bytes from `next` on. What a line says is not looked
at. -/
def processGreetingMessage (bstrLine : Bytes → Nat) (t : Bytes) : Bool × Option ApxError :=
  if 0 < t.length then
    let result := bstrLine t
    if result > 0 ∨ result = 0 ∧ t.head? = some newline then
      -- an empty line ends the header
      if result = 0 then (true, none)
      else processGreetingMessage bstrLine (t.drop (result + 1))
    else (false, some .internal)
  else (false, none)
termination_by t.length
decreasing_by simp only [List.length_drop]; omega

/-- A text of complete lines of which none is empty -/
def NoEmptyLine (t : Bytes) : Prop :=
  ∃ lines : List Bytes, (∀ line ∈ lines, line ≠ [] ∧ newline ∉ line) ∧
    t = lines.flatMap fun line => line ++ [newline]

variable {bstrLine : Bytes → Nat}

theorem processGreetingMessage_line (line : LineFunction bstrLine) {first : Bytes} (rest : Bytes)
    (one : newline ∉ first) : processGreetingMessage bstrLine (first ++ newline :: rest) =
      if first = [] then (true, none) else processGreetingMessage bstrLine rest := by
  rw [processGreetingMessage, if_pos (by simp), line.found first rest one]
  cases first with
  | nil => rfl
  | cons b more =>
    rw [if_pos (.inl (by simp)), if_neg (by simp), if_neg (List.cons_ne_nil b more),
      show (b :: more).length + 1 = (b :: more ++ [newline]).length by simp,
      show b :: more ++ newline :: rest = (b :: more ++ [newline]) ++ rest by simp, List.drop_left]

theorem processGreetingMessage_rest (line : LineFunction bstrLine) {t : Bytes} (none_ : newline ∉ t) :
    processGreetingMessage bstrLine t = if t = [] then (false, none) else (false, some .internal) := by
  rw [processGreetingMessage]
  cases t with
  | nil => rfl
  | cons b rest =>
    have other : b ≠ newline := fun same => none_ (same ▸ List.mem_cons_self)
    rw [if_pos (by simp), line.missing _ none_, if_neg (by simpa using other), if_neg (List.cons_ne_nil b rest)]

/-- The greeting is neither accepted nor refused exactly when it has no empty line, and ends with its
last line. -/
theorem processGreetingMessage_silent (finds : LineFunction bstrLine) (msg : Bytes) :
    processGreetingMessage bstrLine msg = (false, none) ↔ NoEmptyLine msg := by
  induction size : msg.length using Nat.strongRecOn generalizing msg with
  | ind n ih =>
    by_cases mem : newline ∈ msg
    · obtain ⟨first, rest, rfl, one⟩ := List.eq_append_cons_of_mem mem
      rw [processGreetingMessage_line finds rest one]
      have shorter : rest.length < n := by
        rw [← size, List.length_append, List.length_cons]
        omega
      cases first with
      | nil =>
        rw [if_pos rfl]
        refine iff_of_false (by decide) ?_
        rintro ⟨lines, each, same⟩
        cases lines with
        | nil => contradiction
        | cons line lines =>
          obtain ⟨b, more, rfl⟩ := List.exists_cons_of_ne_nil (each line List.mem_cons_self).1
          have start := (List.cons.inj same).1
          exact (each _ List.mem_cons_self).2 (start ▸ List.mem_cons_self)
      | cons b more =>
        rw [if_neg (List.cons_ne_nil b more), ih rest.length shorter rest rfl]
        constructor
        · rintro ⟨lines, each, rfl⟩
          refine ⟨(b :: more) :: lines, List.forall_mem_cons.mpr ⟨⟨List.cons_ne_nil b more, one⟩, each⟩, ?_⟩
          simp
        · rintro ⟨lines, each, same⟩
          cases lines with
          | nil => contradiction
          | cons line lines =>
            rw [List.forall_mem_cons] at each
            rw [List.flatMap_cons, List.append_assoc, List.singleton_append] at same
            have lengths := finds.found _ rest one
            rw [same, finds.found _ _ each.1.2] at lengths
            exact ⟨lines, each.2, (List.cons.inj (List.append_inj same lengths.symm).2).2⟩
    · rw [processGreetingMessage_rest finds mem]
      cases msg with
      | nil => exact iff_of_true rfl ⟨[], by simp, rfl⟩
      | cons b rest =>
        rw [if_neg (List.cons_ne_nil b rest)]
        refine iff_of_false (by decide) ?_
        rintro ⟨lines, each, same⟩
        cases lines with
        | nil => contradiction
        | cons line lines =>
          apply mem
          rw [same]
          simp

/-- A server connection parses a stream exactly when its greeting, if it waits for one that arrives, has
an empty line or ends in the middle of a line. -/
theorem serverConnection_parses_iff {σ : Type} (finds : LineFunction bstrLine) (calls : FileManagerCalls σ)
    (c : StreamConnection σ) (stream : Bytes) :
    Parses (processGreetingMessage bstrLine) calls c stream ↔
      ∀ msg, c.Greeting stream msg → ¬NoEmptyLine msg := by
  rw [parses_iff]
  simp only [ne_eq, processGreetingMessage_silent finds]

/-- bstr_line as it is relied on -/
def nextNewline (t : Bytes) : Nat := if newline ∈ t then t.idxOf newline else 0

theorem nextNewline_line : LineFunction nextNewline where
  found line rest one := by
    rw [nextNewline, if_pos (by simp), List.idxOf_append_of_notMem one, List.idxOf_cons_self, Nat.add_zero]
  missing _ none_ := if_neg none_

def countMessages : FileManagerCalls Nat where
  connected := id
  messageReceived count _ := (none, count + 1)

/-- A greeting of one line, without and with the empty line behind it, and the stream that begins with it -/
def greetingLine : Bytes := [82, 77, 70, 80, 47, 49, 46, 48, 10]

theorem split_greeting {size : Byte} {msg : Bytes}
    (found : messages.next (size :: msg) = some (msg, msg.length + 1)) :
    messages.split (size :: msg) = ([msg], []) := by
  rw [messages.split_some found, List.drop_eq_nil_of_le (by simp), messages.split_none messages_nil]

theorem serverConnection_parses_greeting :
    Parses (processGreetingMessage nextNewline) countMessages { fileManager := 0 }
      (10 :: (greetingLine ++ [newline])) := by
  apply (serverConnection_parses_iff nextNewline_line countMessages _ _).mpr
  rintro msg ⟨-, first⟩
  rw [split_greeting (by decide)] at first
  cases first
  rw [← processGreetingMessage_silent nextNewline_line,
    show greetingLine ++ [newline] = greetingLine.dropLast ++ newline :: [newline] from rfl,
    processGreetingMessage_line nextNewline_line _ (by decide), if_neg (by decide),
    show [newline] = [] ++ newline :: [] from rfl,
    processGreetingMessage_line nextNewline_line _ List.not_mem_nil]
  decide

/-- A greeting without the empty line makes the assert fail. -/
theorem not_serverConnection_parses : ¬∀ bstrLine, LineFunction bstrLine →
    ∀ (calls : FileManagerCalls Nat) (stream : Bytes),
      Parses (processGreetingMessage bstrLine) calls { fileManager := 0 } stream := by
  intro holds
  apply (parses_iff _).mp (holds nextNewline nextNewline_line countMessages (9 :: greetingLine)) greetingLine
  · refine ⟨rfl, ?_⟩
    rw [split_greeting (by decide)]
    rfl
  · rw [processGreetingMessage_silent nextNewline_line]
    exact ⟨[greetingLine.dropLast], by decide, by decide⟩

/-! The client -/

/-- RMF_CMD_AREA_START_ADDRESS -/
def cmdAreaStartAddress : Nat := 0x3FFFFC00

/-- rmf_address_decode: the size of the header, and what is in the variables for the address and the
more bit afterwards -/
def rmfAddressDecode (t : Bytes) (address : Nat) (moreBit : Bool) : Nat × Nat × Bool :=
  match t with
  | [] => (0, address, moreBit)
  | firstByte :: _ =>
    let moreBit := decide (firstByte &&& 0x40 ≠ 0)
    if firstByte &&& 0x80 ≠ 0 then
      if 4 ≤ t.length then (4, unpackBE (t.take 4) % 2 ^ 30, moreBit) else (0, address, moreBit)
    else
      if 2 ≤ t.length then (2, unpackBE (t.take 2) % 2 ^ 14, moreBit) else (0, address, moreBit)

/-- rmf_decode_cmd_type -/
def rmfDecodeCmdType (t : Bytes) (cmdType : Nat) : Nat × Nat :=
  if 4 ≤ t.length then (4, unpackLE (t.take 4)) else (0, cmdType)

/-- RMF_CMD_ACK_MSG -/
def cmdAckMsg : Nat := 0

/-- is_greeting_accepted. The variable `address` is not initialized: it holds `memory` until it is set. -/
def isGreetingAccepted (memory : Nat) (msg : Bytes) : Bool × Option ApxError :=
  let (headerSize, address, _) := rmfAddressDecode msg memory false
  if address = cmdAreaStartAddress then
    let (decodeSize, cmdType) := rmfDecodeCmdType (msg.drop headerSize) 0
    if decodeSize = 4 ∧ cmdType = cmdAckMsg then (true, none) else (false, none)
  else (false, some .invalidMsg)

theorem highBit_iff (b : Byte) : b &&& 0x80 ≠ 0 ↔ 128 ≤ b.toNat := by
  have all : ∀ n < 256, UInt8.ofNat n &&& 0x80 ≠ 0 ↔ 128 ≤ n := by decide +kernel
  have here := all b.toNat b.toNat_lt
  rwa [UInt8.ofNat_toNat] at here

end Apx
