import Apx.StreamConnection

/-! What the two kinds of connections make of any stream of bytes, however it is cut. -/

namespace Apx

open LittleEndian

namespace StreamConnection
variable {σ : Type} {check : GreetingCheck} {calls : FileManagerCalls σ} {c : StreamConnection σ}

/-- The end of the last complete message -/
def endOfMessages (t : Bytes) : Nat := t.length - (messages.split t).2.length

/-- The connection behind messages that are handed on one after the other, up to the first error -/
def handed (check : GreetingCheck) (calls : FileManagerCalls σ) (c : StreamConnection σ)
    (msgs : List Bytes) : StreamConnection σ :=
  match Framing.hand (handleMessage check calls) c msgs with
  | .ok c' => c'
  | .error (_, c') => c'

/-- However a stream is cut, every call returns 0 with the end of the last complete message or -1 with an
error recorded, and the messages of the stream are handed on in their order up to the first error. -/
structure Parses (check : GreetingCheck) (calls : FileManagerCalls σ) (c : StreamConnection σ)
    (stream : Bytes) : Prop where
  returns : ∀ pieces : List Bytes, pieces.flatten = stream → [] ∉ pieces →
    ∀ call ∈ (deliver check calls c [] pieces).1, match call.2 with
      | .done parseLen => parseLen = endOfMessages call.1
      | .failed => (deliver check calls c [] pieces).2.lastError ≠ none
      | .assertion => False
  hands : ∀ pieces : List Bytes, pieces.flatten = stream → [] ∉ pieces →
    (deliver check calls c [] pieces).2 = handed check calls c (messages.split stream).1

/-- The first message of a stream, while the connection waits for a greeting -/
def Greeting (c : StreamConnection σ) (stream msg : Bytes) : Prop :=
  c.isGreetingAccepted = false ∧ (messages.split stream).1.head? = some msg

theorem endOfMessages_drop (t : Bytes) : t.drop (endOfMessages t) = (messages.split t).2 :=
  (List.suffix_iff_eq_drop.mp (messages.rest_suffix t)).symm

theorem handleMessage_ok {msg : Bytes} {c' : StreamConnection σ}
    (done : handleMessage check calls c msg = .ok c') : c'.isGreetingAccepted = true := by
  unfold handleMessage at done
  by_cases accepted : c.isGreetingAccepted
  · rw [if_pos accepted] at done
    split at done
    · cases done
      exact accepted
    · contradiction
  · rw [if_neg accepted] at done
    split at done
    · cases done
      rfl
    · contradiction
    · contradiction
    · contradiction

theorem handleMessage_error {msg : Bytes} {stopped : Received × StreamConnection σ}
    (done : handleMessage check calls c msg = .error stopped) :
    stopped.1 = .failed ∧ stopped.2.lastError ≠ none ∨
    stopped.1 = .assertion ∧ c.isGreetingAccepted = false ∧ check msg = (false, none) := by
  unfold handleMessage at done
  by_cases accepted : c.isGreetingAccepted
  · rw [if_pos accepted] at done
    split at done
    · contradiction
    · cases done
      exact .inl ⟨rfl, Option.some_ne_none _⟩
  · rw [if_neg accepted] at done
    split at done
    · contradiction
    · cases done
      exact .inl ⟨rfl, Option.some_ne_none _⟩
    · cases done
      exact .inl ⟨rfl, Option.some_ne_none _⟩
    · next silent =>
      cases done
      exact .inr ⟨rfl, Bool.eq_false_of_not_eq_true accepted, silent⟩

/-- Only the first message can make the assert fail. -/
theorem hand_error {msgs : List Bytes} {stopped : Received × StreamConnection σ}
    (done : Framing.hand (handleMessage check calls) c msgs = .error stopped) :
    stopped.1 = .failed ∧ stopped.2.lastError ≠ none ∨
    stopped.1 = .assertion ∧ c.isGreetingAccepted = false ∧
      ∃ msg, msgs.head? = some msg ∧ check msg = (false, none) := by
  induction msgs generalizing c with
  | nil => contradiction
  | cons msg rest ih =>
    rw [Framing.hand] at done
    cases handled : handleMessage check calls c msg with
    | error stopped' =>
      rw [handled] at done
      cases done
      rcases handleMessage_error handled with failed | ⟨assertion, waits, silent⟩
      · exact .inl failed
      · exact .inr ⟨assertion, waits, msg, rfl, silent⟩
    | ok c' =>
      rw [handled] at done
      rcases ih done with failed | ⟨_, waits, _⟩
      · exact .inl failed
      · rw [handleMessage_ok handled] at waits
        contradiction

theorem onDataReceived_eq {data : Bytes} (some : data ≠ []) : onDataReceived check calls c data =
    match Framing.hand (handleMessage check calls) c (messages.split data).1 with
    | .error stopped => stopped
    | .ok c' => (.done (endOfMessages data), c') := by
  rw [onDataReceived, if_pos (List.length_pos_iff.mpr some), receiveLoop_eq]
  simp only [Nat.zero_add]
  rfl

theorem deliver_receive (kept : Bytes) {pieces : List Bytes} (some : [] ∉ pieces) :
    (deliver check calls c kept pieces).2 =
      match Framing.receive messages (handleMessage check calls) c kept pieces with
      | .error stopped => stopped.2
      | .ok left => left.1 := by
  induction pieces generalizing c kept with
  | nil => rfl
  | cons piece pieces ih =>
    rw [List.mem_cons, not_or] at some
    have data : kept ++ piece ≠ [] := fun empty => some.1 (List.append_eq_nil_iff.mp empty).2.symm
    rw [deliver, onDataReceived_eq data, Framing.receive]
    cases handled : Framing.hand (handleMessage check calls) c (messages.split (kept ++ piece)).1 with
    | ok c' =>
      simp only [endOfMessages_drop]
      exact ih _ some.2
    | error stopped =>
      obtain ⟨received, c'⟩ := stopped
      rcases hand_error handled with ⟨rfl, -⟩ | ⟨rfl, -⟩
      · rfl
      · rfl

theorem deliver_calls (kept : Bytes) {pieces : List Bytes} (some : [] ∉ pieces) :
    ∀ call ∈ (deliver check calls c kept pieces).1, match call.2 with
      | .done parseLen => parseLen = endOfMessages call.1
      | stopped => ∃ c', Framing.receive messages (handleMessage check calls) c kept pieces =
          .error (stopped, c') := by
  induction pieces generalizing c kept with
  | nil =>
    intro call mem
    exact absurd mem List.not_mem_nil
  | cons piece pieces ih =>
    rw [List.mem_cons, not_or] at some
    have data : kept ++ piece ≠ [] := fun empty => some.1 (List.append_eq_nil_iff.mp empty).2.symm
    rw [deliver, onDataReceived_eq data, Framing.receive]
    cases handled : Framing.hand (handleMessage check calls) c (messages.split (kept ++ piece)).1 with
    | ok c' =>
      simp only [endOfMessages_drop, List.forall_mem_cons, true_and]
      exact ih _ some.2
    | error stopped =>
      obtain ⟨received, c'⟩ := stopped
      rcases hand_error handled with ⟨rfl, -⟩ | ⟨rfl, -⟩
      · simp only [List.forall_mem_cons]
        exact ⟨⟨c', rfl⟩, fun call mem => absurd mem List.not_mem_nil⟩
      · simp only [List.forall_mem_cons]
        exact ⟨⟨c', rfl⟩, fun call mem => absurd mem List.not_mem_nil⟩

theorem messages_nil : messages.next [] = none := rfl

/-- A connection parses every stream whose greeting, if it comes to one, is accepted or refused with an
error. -/
theorem parses_iff (stream : Bytes) : Parses check calls c stream ↔
    ∀ msg, c.Greeting stream msg → check msg ≠ (false, none) := by
  have received (pieces : List Bytes) (whole : pieces.flatten = stream) :
      Framing.receive messages (handleMessage check calls) c [] pieces =
        (Framing.hand (handleMessage check calls) c (messages.split stream).1).map fun c' =>
          (c', (messages.split stream).2) := by
    rw [Framing.receive_eq messages _ c messages_nil, List.nil_append, whole]
  constructor
  · -- the whole stream as one piece shows the silent greeting
    rintro ⟨returns, -⟩ msg ⟨waits, first⟩ silent
    have some : stream ≠ [] := by
      rintro rfl
      rw [messages.split_none messages_nil] at first
      contradiction
    have handled : Framing.hand (handleMessage check calls) c (messages.split stream).1 =
        .error (.assertion, c) := by
      obtain ⟨rest, list⟩ : ∃ rest, (messages.split stream).1 = msg :: rest := by
        cases list : (messages.split stream).1 with
        | nil =>
          rw [list] at first
          contradiction
        | cons msg' rest =>
          rw [list] at first
          cases first
          exact ⟨rest, rfl⟩
      rw [list, Framing.hand, handleMessage, waits, if_neg Bool.false_ne_true, silent]
    have failed := returns [stream] (by simp) (by simpa using Ne.symm some) (stream, .assertion) (by
      rw [deliver, List.nil_append, onDataReceived_eq some, handled]
      exact List.mem_singleton_self _)
    exact failed
  · intro spoken
    refine ⟨fun pieces whole some call mem => ?_, fun pieces whole some => ?_⟩
    · have ends := deliver_calls [] some call mem
      rw [deliver_receive [] some]
      rw [received pieces whole] at ends ⊢
      obtain ⟨data, end_⟩ := call
      cases end_ with
      | done parseLen => exact ends
      | failed =>
        obtain ⟨c', failed⟩ := ends
        cases handled : Framing.hand (handleMessage check calls) c (messages.split stream).1 with
        | ok => rw [handled] at failed; contradiction
        | error stopped =>
          rw [handled] at failed
          cases failed
          rcases hand_error handled with ⟨_, recorded⟩ | ⟨assertion, _⟩
          · exact recorded
          · contradiction
      | assertion =>
        obtain ⟨c', failed⟩ := ends
        cases handled : Framing.hand (handleMessage check calls) c (messages.split stream).1 with
        | ok => rw [handled] at failed; contradiction
        | error stopped =>
          rw [handled] at failed
          cases failed
          rcases hand_error handled with ⟨assertion, _⟩ | ⟨_, waits, msg, first, silent⟩
          · contradiction
          · exact absurd silent (spoken msg ⟨waits, first⟩)
    · rw [deliver_receive [] some, received pieces whole, handed]
      cases Framing.hand (handleMessage check calls) c (messages.split stream).1 <;> rfl

end StreamConnection

end Apx
