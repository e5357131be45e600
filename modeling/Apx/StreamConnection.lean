import Apx.Framing
import Apx.Types

/-! How a connection takes messages out of the bytes that it receives (server_connection.c and
client_connection.c, which differ in the greeting that they wait for first). -/

namespace Apx

open LittleEndian

/-- The number a byte string stands for, highest byte first -/
def unpackBE (bytes : Bytes) : Nat := unpackLE bytes.reverse

/-- numheader_decode32: how far the header goes, which is nowhere when it has not arrived whole, and
its value. The result is never a null pointer. -/
def numheaderDecode32 (t : Bytes) : Nat × Nat :=
  match t with
  | [] => (0, 0)
  | c :: _ =>
    if c &&& 0x80 ≠ 0 then
      if 4 ≤ t.length then (4, unpackBE (t.take 4) &&& 0x7FFFFFFF) else (0, 0)
    else (1, c.toNat)

/-- What a connection calls in its file manager: apx_fileManager_connected and
apx_fileManager_message_received -/
structure FileManagerCalls (σ : Type) where
  connected : σ → σ
  messageReceived : σ → Bytes → Option ApxError × σ

/-- apx_serverConnection_t or apx_clientConnection_t with the state of its file manager -/
structure StreamConnection (σ : Type) where
  isGreetingAccepted : Bool := false
  lastError : Option ApxError := none
  fileManager : σ
  deriving DecidableEq

/-- A function that looks at the first message, with the error code that it leaves -/
abbrev GreetingCheck := Bytes → Bool × Option ApxError

/-- How a call of on_data_received ends: it returns 0 with parse_len or -1, or its assert fails. -/
inductive Received where
  | done (parseLen : Nat)
  | failed
  | assertion
  deriving DecidableEq, Repr

namespace StreamConnection
variable {σ : Type}

/-- parse_message on the bytes between `begin` and `end`: the returned pointer as an offset, where
`none` is a null pointer, the error code and what is left of the connection. -/
def parseMessage (check : GreetingCheck) (calls : FileManagerCalls σ) (c : StreamConnection σ) (t : Bytes) :
    Option Nat × Option ApxError × StreamConnection σ :=
  if 0 < t.length then
    let (result, msgSize) := numheaderDecode32 t
    -- not enough bytes in the buffer
    if result = 0 then (some 0, none, c)
    else if result + msgSize ≤ t.length then
      let msg := slice t result msgSize
      if c.isGreetingAccepted then
        let (error, fileManager) := calls.messageReceived c.fileManager msg
        (some (result + msgSize), error, { c with fileManager := fileManager })
      else
        match check msg with
        | (true, error) => (some (result + msgSize), error,
            { c with isGreetingAccepted := true, fileManager := calls.connected c.fileManager })
        | (false, error) => (none, error, c)
    -- message not complete
    else (some 0, none, c)
  else (none, some .parse, c)

/-- The loop of on_data_received over the bytes from `next` on -/
def receiveLoop (check : GreetingCheck) (calls : FileManagerCalls σ) (c : StreamConnection σ)
    (totalParseLen : Nat) (t : Bytes) : Received × StreamConnection σ :=
  if 0 < t.length then
    match parseMessage check calls c t with
    | (_, some error, c) => (.failed, { c with lastError := some error })
    | (none, none, c) => (.assertion, c)
    | (some result, none, c) =>
      if result = 0 then (.done totalParseLen, c)
      else if result ≤ t.length then
        receiveLoop check calls c (totalParseLen + result) (t.drop result)
      else (.assertion, c)
  else (.done totalParseLen, c)
termination_by t.length
decreasing_by simp only [List.length_drop]; omega

/-- apx_serverConnection_on_data_received and apx_clientConnection_on_data_received -/
def onDataReceived (check : GreetingCheck) (calls : FileManagerCalls σ) (c : StreamConnection σ)
    (data : Bytes) : Received × StreamConnection σ :=
  if 0 < data.length then receiveLoop check calls c 0 data else (.failed, c)

/-- The socket handler on a stream that arrives in pieces: what was not parsed comes in front of the
next piece. Every call is listed with its data; behind one that failed there is no other. -/
def deliver (check : GreetingCheck) (calls : FileManagerCalls σ) (c : StreamConnection σ) (kept : Bytes) :
    List Bytes → List (Bytes × Received) × StreamConnection σ
  | [] => ([], c)
  | piece :: pieces =>
    match onDataReceived check calls c (kept ++ piece) with
    | (.done parseLen, c) =>
      let (rest, c) := deliver check calls c ((kept ++ piece).drop parseLen) pieces
      ((kept ++ piece, .done parseLen) :: rest, c)
    | (received, c) => ([(kept ++ piece, received)], c)

/-! The messages of a stream -/

def message (t : Bytes) : Option (Bytes × Nat) :=
  let (result, msgSize) := numheaderDecode32 t
  if result ≠ 0 ∧ result + msgSize ≤ t.length then
    some (slice t result msgSize, result + msgSize)
  else none

theorem numheaderDecode32_append {t : Bytes} (whole : (numheaderDecode32 t).1 ≠ 0) (u : Bytes) :
    numheaderDecode32 (t ++ u) = numheaderDecode32 t := by
  cases t with
  | nil => exact absurd rfl whole
  | cons c rest =>
    rw [List.cons_append]
    unfold numheaderDecode32 at whole ⊢
    simp only at whole ⊢
    by_cases long : c &&& 0x80 ≠ 0
    · rw [if_pos long] at whole ⊢
      rw [if_pos long]
      by_cases enough : 4 ≤ (c :: rest).length
      · rw [if_pos enough, if_pos (by simp at enough ⊢; omega), ← List.cons_append,
          List.take_append_of_le_length enough]
      · rw [if_neg enough] at whole
        exact absurd rfl whole
    · rw [if_neg long, if_neg long]

theorem message_sized {t m : Bytes} {k : Nat} (found : message t = some (m, k)) : 0 < k ∧ k ≤ t.length := by
  unfold message at found
  simp only [ne_eq, Option.ite_none_right_eq_some, Option.some.injEq, Prod.mk.injEq] at found
  omega

theorem message_append {t m : Bytes} {k : Nat} (found : message t = some (m, k)) (u : Bytes) :
    message (t ++ u) = some (m, k) := by
  unfold message at found ⊢
  simp only [Option.ite_none_right_eq_some, Option.some.injEq, Prod.mk.injEq] at found
  obtain ⟨⟨whole, inside⟩, rfl, rfl⟩ := found
  simp only [numheaderDecode32_append whole]
  rw [if_pos ⟨whole, by rw [List.length_append]; omega⟩, slice, slice, List.drop_append_of_le_length (by omega),
    List.take_append_of_le_length (by rw [List.length_drop]; omega)]

def messages : Framing.Reader Byte Bytes where
  next := message
  positive found := (message_sized found).1
  inside found := (message_sized found).2
  stable found u := message_append found u

/-- What becomes of one message: the connection goes on, or the call ends. -/
def handleMessage (check : GreetingCheck) (calls : FileManagerCalls σ) (c : StreamConnection σ)
    (msg : Bytes) : Except (Received × StreamConnection σ) (StreamConnection σ) :=
  if c.isGreetingAccepted then
    match calls.messageReceived c.fileManager msg with
    | (none, fileManager) => .ok { c with fileManager := fileManager }
    | (some error, fileManager) =>
        .error (.failed, { c with fileManager := fileManager, lastError := some error })
  else
    match check msg with
    | (true, none) => .ok { c with
        isGreetingAccepted := true, fileManager := calls.connected c.fileManager }
    | (true, some error) => .error (.failed, { c with
        isGreetingAccepted := true, fileManager := calls.connected c.fileManager, lastError := some error })
    | (false, some error) => .error (.failed, { c with lastError := some error })
    | (false, none) => .error (.assertion, c)

theorem parseMessage_none {check : GreetingCheck} {calls : FileManagerCalls σ} {c : StreamConnection σ}
    {t : Bytes} (some : 0 < t.length) (nothing : message t = none) :
    parseMessage check calls c t = (Option.some 0, none, c) := by
  unfold message at nothing
  simp only [ite_eq_right_iff, reduceCtorEq, imp_false, not_and] at nothing
  unfold parseMessage
  rw [if_pos some]
  simp only
  by_cases whole : (numheaderDecode32 t).1 = 0
  · rw [if_pos whole]
  · rw [if_neg whole, if_neg (nothing whole)]

theorem parseMessage_some {check : GreetingCheck} {calls : FileManagerCalls σ} {c : StreamConnection σ}
    {t msg : Bytes} {k : Nat} (found : message t = some (msg, k)) :
    match handleMessage check calls c msg with
    | .ok c' => parseMessage check calls c t = (some k, none, c')
    | .error (.failed, c') => ∃ result error c₁, parseMessage check calls c t = (result, some error, c₁) ∧
        c' = { c₁ with lastError := some error }
    | .error (.assertion, c') => parseMessage check calls c t = (none, none, c')
    | .error (.done _, _) => False := by
  have positive := messages.positive found
  have inside := messages.inside found
  unfold message at found
  simp only [Option.ite_none_right_eq_some, Option.some.injEq, Prod.mk.injEq] at found
  obtain ⟨⟨whole, fits⟩, rfl, rfl⟩ := found
  have some := Nat.lt_of_lt_of_le positive inside
  obtain ⟨accepted, lastError, fileManager⟩ := c
  cases accepted with
  | true =>
    cases received : calls.messageReceived fileManager
        (slice t (numheaderDecode32 t).1 (numheaderDecode32 t).2) with
    | mk error fileManager' =>
      have parsed : parseMessage check calls ⟨true, lastError, fileManager⟩ t =
          (Option.some ((numheaderDecode32 t).1 + (numheaderDecode32 t).2), error,
            ⟨true, lastError, fileManager'⟩) := by
        simp only [parseMessage, if_pos some, if_neg whole, if_pos fits, if_true, received]
      simp only [handleMessage, if_true, received]
      cases error with
      | none => exact parsed
      | some error => exact ⟨_, error, _, parsed, rfl⟩
  | false =>
    cases checked : check (slice t (numheaderDecode32 t).1 (numheaderDecode32 t).2) with
    | mk is error =>
      have parsed : parseMessage check calls ⟨false, lastError, fileManager⟩ t =
          if is then (Option.some ((numheaderDecode32 t).1 + (numheaderDecode32 t).2), error,
            ⟨true, lastError, calls.connected fileManager⟩)
          else (none, error, ⟨false, lastError, fileManager⟩) := by
        cases is <;>
        simp only [parseMessage, if_pos some, if_neg whole, if_pos fits, Bool.false_eq_true, if_false,
          checked, if_true]
      simp only [handleMessage, Bool.false_eq_true, if_false, checked]
      cases is <;> cases error
      · exact parsed
      · exact ⟨_, _, _, parsed, rfl⟩
      · exact parsed
      · exact ⟨_, _, _, parsed, rfl⟩

/-- One call hands on the messages that are complete, and parses up to the end of the last one. -/
theorem receiveLoop_eq (check : GreetingCheck) (calls : FileManagerCalls σ) (c : StreamConnection σ)
    (totalParseLen : Nat) (t : Bytes) : receiveLoop check calls c totalParseLen t =
      match Framing.hand (handleMessage check calls) c (messages.split t).1 with
      | .error stopped => stopped
      | .ok c' => (.done (totalParseLen + (t.length - (messages.split t).2.length)), c') := by
  induction t using messages.induction generalizing c totalParseLen with
  | last t nothing =>
    rw [messages.split_none nothing, receiveLoop, Nat.sub_self, Nat.add_zero]
    by_cases some : 0 < t.length
    · rw [if_pos some, parseMessage_none some nothing]
      rfl
    · rw [if_neg some]
      rfl
  | frame t msg k found ih =>
    have positive := messages.positive found
    have inside := messages.inside found
    have rest := (messages.rest_suffix (t.drop k)).length_le
    rw [List.length_drop] at rest
    rw [messages.split_some found, receiveLoop, if_pos (by omega), Framing.hand]
    have parsed := @parseMessage_some _ check calls c _ _ _ found
    cases handled : handleMessage check calls c msg with
    | ok c' =>
      rw [handled] at parsed
      rw [parsed]
      simp only
      rw [if_neg (by omega), if_pos inside, ih, List.length_drop]
      cases Framing.hand (handleMessage check calls) c' (messages.split (t.drop k)).1 with
      | error stopped => rfl
      | ok c'' =>
        simp only
        congr 2
        omega
    | error stopped =>
      rw [handled] at parsed
      obtain ⟨received, c'⟩ := stopped
      cases received with
      | done => exact parsed.elim
      | assertion =>
        rw [parsed]
      | failed =>
        obtain ⟨result, error, c₁, parsed, rfl⟩ := parsed
        rw [parsed]

end StreamConnection

end Apx
