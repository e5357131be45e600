import Apx.InputStream

/-! The input stream where its handler may fail: the first line with an error ends a call, and the text stays in the
buffer. -/

namespace Apx

open Framing

/-- The call of the handler for a line. With an error goes the state that the handler leaves. -/
def IstreamHandler.accept {σ : Type} (handler : IstreamHandler σ) (arg : σ) (line : Bytes) :
    Except (ApxError × σ) σ :=
  match Istream.handlerNewLine handler arg line with
  | (none, arg) => .ok arg
  | (some error, arg) => .error (error, arg)

namespace Istream
variable {β σ : Type} {bstrSearchVal : Bytes → Byte → Nat} {calls : ByteArrayCalls β}

theorem keep_accept (self : Istream β σ) (line : Bytes) :
    self.keep (handlerNewLine self.handler self.arg line) =
      match self.handler.accept self.arg line with
      | .ok arg => { self with lastError := none, arg := arg }
      | .error (error, arg) => { self with lastError := some error, arg := arg } := by
  rw [keep, IstreamHandler.accept]
  generalize handlerNewLine self.handler self.arg line = answer
  obtain ⟨error, arg⟩ := answer
  cases error with
  | none => rfl
  | some error => rfl

/-- One pass through the loop, over a line that has arrived whole -/
theorem splitLines_accept (finds : SearchFunction bstrSearchVal) (self : Istream β σ) (front : Bytes) {line : Bytes}
    (one : newline ∉ line) (rest : Bytes) :
    splitLines bstrSearchVal (front ++ (line ++ newline :: rest)) self front.length =
      match self.handler.accept self.arg (dropReturn line) with
      | .ok arg => splitLines bstrSearchVal (front ++ line ++ [newline] ++ rest)
          { self with lastError := none, arg := arg } (front ++ line ++ [newline]).length
      | .error (error, arg) => some ({ self with lastError := some error, arg := arg }, none) := by
  have regroup : front ++ line ++ [newline] ++ rest = front ++ (line ++ newline :: rest) := by simp
  rw [regroup, splitLines, if_pos (by simp)]
  simp only [List.drop_left, finds.found newline line rest one]
  rcases List.eq_nil_or_concat line with rfl | ⟨init, last, rfl⟩
  · have here := between_append front [] (newline :: rest)
    rw [List.append_nil, List.length_nil, Nat.add_zero] at here
    have plain : dropReturn [] = [] := rfl
    have there : (front ++ newline :: rest)[front.length]? = some newline := by simp
    simp only [List.nil_append, List.length_nil, Nat.add_zero, if_true, there, here, plain, Option.bind_eq_bind,
      Option.bind_some, keep_accept]
    cases self.handler.accept self.arg [] with
    | ok arg => simp
    | error failure => rfl
  · have there : (front ++ (init ++ [last] ++ newline :: rest))[front.length + init.length]? = some last := by
      simp
    have short := between_append front init (last :: newline :: rest)
    have whole := between_append front (init ++ [last]) (newline :: rest)
    rw [show front ++ init ++ last :: newline :: rest = front ++ (init ++ [last] ++ newline :: rest) by simp]
      at short
    rw [show front ++ (init ++ [last]) ++ newline :: rest = front ++ (init ++ [last] ++ newline :: rest) by simp,
      List.length_append, List.length_singleton] at whole
    have long : front.length + (init.length + 1) ≠ front.length := by omega
    have end_ : front.length + (init.length + 1) - 1 = front.length + init.length := rfl
    simp only [List.concat_eq_append, List.length_append, List.length_singleton, if_neg long, end_, there]
    by_cases return_ : last = carriageReturn
    · have dropped : dropReturn (init ++ [last]) = init := by simp [dropReturn, return_]
      rw [dropped]
      simp only [Option.bind_eq_bind, Option.bind_some, if_pos return_, short, keep_accept]
      cases self.handler.accept self.arg init with
      | ok arg => rfl
      | error failure => rfl
    · have kept : dropReturn (init ++ [last]) = init ++ [last] := by simp [dropReturn, return_]
      rw [kept]
      simp only [Option.bind_eq_bind, Option.bind_some, if_neg return_, whole, keep_accept]
      cases self.handler.accept self.arg (init ++ [last]) with
      | ok arg => rfl
      | error failure => rfl

/-- The loop hands on the lines that are whole, up to the first error. Without one it stops at the beginning of the
rest. -/
theorem splitLines_hand (finds : SearchFunction bstrSearchVal) (self : Istream β σ) (front t : Bytes) :
    match hand self.handler.accept self.arg (lineReader.split t).1 with
    | .error (error, arg) => splitLines bstrSearchVal (front ++ t) self front.length =
        some ({ self with lastError := some error, arg := arg }, none)
    | .ok arg => ∃ stop, splitLines bstrSearchVal (front ++ t) self front.length =
          some ({ self with lastError := if newline ∈ t then none else self.lastError, arg := arg }, some stop) ∧
        stop ≤ (front ++ t).length ∧ (front ++ t).drop stop = (lineReader.split t).2 := by
  induction t using lines_induction generalizing front self with
  | last t none_ =>
    rw [splitLines_rest finds self front none_, lineReader.split_none (lineReader_none none_), if_neg none_]
    exact ⟨front.length, rfl, by simp, List.drop_left⟩
  | line line rest one ih =>
    rw [splitLines_accept finds self front one rest, split_line one, hand]
    cases accepts : self.handler.accept self.arg (dropReturn line) with
    | error failure => rfl
    | ok arg =>
      have later := ih { self with lastError := none, arg := arg } (front ++ line ++ [newline])
      have regroup : front ++ line ++ [newline] ++ rest = front ++ (line ++ newline :: rest) := by simp
      rw [regroup] at later ⊢
      rw [if_pos (show newline ∈ line ++ newline :: rest by simp)]
      simpa only [ite_self] using later

/-- A stream between two calls -/
structure Stands (calls : ByteArrayCalls β) (handler : IstreamHandler σ) (arg : σ) (lastError : Option ApxError)
    (kept : Bytes) (stream : Istream β σ) : Prop where
  handler : stream.handler = handler
  arg : stream.arg = arg
  lastError : stream.lastError = lastError
  buf : calls.data stream.buf = kept

variable {handler : IstreamHandler σ} {arg : σ} {lastError : Option ApxError} {kept : Bytes}

/-- One call hands on the lines that it makes whole, up to the first error. With an error the buffer keeps all of the
text, and without one the rest. -/
theorem Stands.write (finds : SearchFunction bstrSearchVal) (documented : calls.Documented) {self : Istream β σ}
    (stands : self.Stands calls handler arg lastError kept) {chunk : Bytes} (some_ : chunk ≠ []) :
    ∃ self', Istream.write bstrSearchVal calls self chunk = some self' ∧
      match hand handler.accept arg (lineReader.split (kept ++ chunk)).1 with
      | .error (error, arg) => self'.Stands calls handler arg (some error) (kept ++ chunk)
      | .ok arg => self'.Stands calls handler arg (if newline ∈ kept ++ chunk then none else lastError)
          (lineReader.split (kept ++ chunk)).2 := by
  obtain ⟨rfl, rfl, rfl, rfl⟩ := stands
  have loop := splitLines_hand finds { self with buf := calls.append self.buf chunk } []
    (calls.data self.buf ++ chunk)
  have grown := documented.append self.buf chunk
  rw [Istream.write, if_pos (by simpa using some_)]
  simp only [List.nil_append, List.length_nil] at loop
  cases handed : hand self.handler.accept self.arg (lineReader.split (calls.data self.buf ++ chunk)).1 with
  | error failure =>
    rw [handed] at loop
    simp only [grown, loop, Option.bind_eq_bind, Option.bind_some]
    exact ⟨_, rfl, rfl, rfl, rfl, grown⟩
  | ok arg =>
    rw [handed] at loop
    obtain ⟨stop, loop, inside, here⟩ := loop
    simp only [grown, loop, Option.bind_eq_bind, Option.bind_some]
    by_cases start : stop > 0
    · rw [if_pos start]
      by_cases whole : stop = (calls.data self.buf ++ chunk).length
      · rw [if_pos whole]
        rw [whole, List.drop_length] at here
        exact ⟨_, rfl, rfl, rfl, rfl, (documented.clear _).trans here⟩
      · rw [if_neg whole, if_pos (Nat.lt_of_le_of_ne inside whole)]
        refine ⟨_, rfl, rfl, rfl, rfl, ?_⟩
        rw [← grown] at inside
        rw [← here, ← grown]
        exact documented.trimLeft _ stop inside
    · rw [if_neg start]
      rw [Nat.eq_zero_of_not_pos start, List.drop_zero] at here
      exact ⟨_, rfl, rfl, rfl, rfl, grown.trans here⟩

/-- A stream with an error is not closed. -/
theorem close_failed {self : Istream β σ} {error : ApxError} (failed : self.lastError = some error) :
    self.close calls = self := by
  rw [close, failed, if_neg (Option.some_ne_none _)]

/-- What is left in the buffer is the last line. It stays there when the stream is closed. -/
theorem Stands.close {self : Istream β σ} (stands : self.Stands calls handler arg none kept) :
    match hand handler.accept arg (if kept = [] then [] else [kept]) with
    | .error (error, arg) => (self.close calls).Stands calls handler arg (some error) kept
    | .ok arg => (self.close calls).Stands calls handler (handlerClose handler arg).2 (handlerClose handler arg).1
        kept := by
  obtain ⟨rfl, rfl, fine, rfl⟩ := stands
  rw [Istream.close, if_pos fine]
  cases rest : calls.data self.buf with
  | nil => exact ⟨rfl, rfl, rfl, rest⟩
  | cons b more =>
    simp only [List.length_cons, Nat.succ_pos, if_true, List.cons_ne_nil, if_false, keep_accept, hand]
    cases accepts : self.handler.accept self.arg (b :: more) with
    | error failure => exact ⟨rfl, rfl, rfl, rest⟩
    | ok arg => exact ⟨rfl, rfl, rfl, rest⟩

end Istream

end Apx
