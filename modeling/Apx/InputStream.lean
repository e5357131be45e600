import Apx.Greeting

/-! The input stream that cuts a definition into lines (stream.c). -/

namespace Apx

open LittleEndian

def carriageReturn : Byte := 13

/-- What apx_istream_write relies on in bstr_search_val -/
structure SearchFunction (bstrSearchVal : Bytes → Byte → Nat) : Prop where
  found : ∀ val line rest, val ∉ line → bstrSearchVal (line ++ val :: rest) val = line.length
  missing : ∀ val t, val ∉ t → bstrSearchVal t val = 0

/-- The functions of adt_bytearray_t that the stream calls -/
structure ByteArrayCalls (β : Type) where
  create : β
  append : β → Bytes → β
  clear : β → β
  trimLeft : β → Nat → β
  data : β → Bytes

/-- What the stream relies on in them -/
structure ByteArrayCalls.Documented {β : Type} (calls : ByteArrayCalls β) : Prop where
  create : calls.data calls.create = []
  append : ∀ buf chunk, calls.data (calls.append buf chunk) = calls.data buf ++ chunk
  clear : ∀ buf, calls.data (calls.clear buf) = []
  trimLeft : ∀ buf n, n ≤ (calls.data buf).length → calls.data (calls.trimLeft buf n) = (calls.data buf).drop n

/-- apx_istream_handler_t over the states of what its argument points to -/
structure IstreamHandler (σ : Type) where
  «open» : Option (σ → Option ApxError × σ)
  close : Option (σ → Option ApxError × σ)
  newLine : Option (σ → Bytes → Option ApxError × σ)

/-- apx_istream_t, with the state that its handler works on -/
structure Istream (β σ : Type) where
  handler : IstreamHandler σ
  arg : σ
  buf : β
  lastError : Option ApxError

namespace Istream
variable {β σ : Type}

def handlerOpen (handler : IstreamHandler σ) (arg : σ) : Option ApxError × σ :=
  match handler.open with
  | some f => f arg
  | none => (some .invalidArgument, arg)

def handlerClose (handler : IstreamHandler σ) (arg : σ) : Option ApxError × σ :=
  match handler.close with
  | some f => f arg
  | none => (some .invalidArgument, arg)

def handlerNewLine (handler : IstreamHandler σ) (arg : σ) (line : Bytes) : Option ApxError × σ :=
  match handler.newLine with
  | some f => f arg line
  | none => (some .invalidArgument, arg)

/-- apx_istream_create and apx_istream_set_handler -/
def create (calls : ByteArrayCalls β) (handler : IstreamHandler σ) (arg : σ) : Istream β σ where
  handler := handler
  arg := arg
  buf := calls.create
  lastError := none

/-- The call of a handler function, which leaves its error in the stream -/
def keep (self : Istream β σ) (answer : Option ApxError × σ) : Istream β σ :=
  { self with lastError := answer.1, arg := answer.2 }

/-- apx_istream_open -/
def «open» (self : Istream β σ) : Istream β σ :=
  if self.lastError = none then self.keep (handlerOpen self.handler self.arg) else self

/-- apx_istream_close -/
def close (calls : ByteArrayCalls β) (self : Istream β σ) : Istream β σ :=
  if self.lastError = none then
    let buffer := calls.data self.buf
    if 0 < buffer.length then
      let self := self.keep (handlerNewLine self.handler self.arg buffer)
      if self.lastError ≠ none then self else self.keep (handlerClose self.handler self.arg)
    else self.keep (handlerClose self.handler self.arg)
  else self

/-- The bytes between two positions of the buffer, which are given to the handler as two pointers -/
def between (buffer : Bytes) (start stop : Nat) : Option Bytes :=
  if start ≤ stop ∧ stop ≤ buffer.length then some (slice buffer start (stop - start)) else none

/-- The loop of apx_istream_write from `lineBegin` on: the stream and where the loop stops, which is
nowhere when the function returns from it. There is no result when it leaves the buffer. -/
def splitLines (bstrSearchVal : Bytes → Byte → Nat) (buffer : Bytes) (self : Istream β σ) (lineBegin : Nat) :
    Option (Istream β σ × Option Nat) :=
  if lineBegin < buffer.length then
    let lineEnd := lineBegin + bstrSearchVal (buffer.drop lineBegin) newline
    if lineEnd = lineBegin then do
      let firstByte ← buffer[lineBegin]?
      if firstByte = newline then
        -- empty line
        let line ← between buffer lineBegin lineEnd
        let self := self.keep (handlerNewLine self.handler self.arg line)
        if self.lastError ≠ none then some (self, none)
        else splitLines bstrSearchVal buffer self (lineBegin + 1)
      -- wait for the next write
      else some (self, some lineBegin)
    else do
      let lastByte ← buffer[lineEnd - 1]?
      if lastByte = carriageReturn then
        let line ← between buffer lineBegin (lineEnd - 1)
        let self := self.keep (handlerNewLine self.handler self.arg line)
        if self.lastError ≠ none then some (self, none)
        else splitLines bstrSearchVal buffer self (lineEnd - 1 + 2)
      else
        let line ← between buffer lineBegin lineEnd
        let self := self.keep (handlerNewLine self.handler self.arg line)
        if self.lastError ≠ none then some (self, none)
        else splitLines bstrSearchVal buffer self (lineEnd + 1)
  else some (self, some lineBegin)
termination_by buffer.length - lineBegin

/-- apx_istream_write. There is no result when it leaves the buffer or its assert fails. -/
def write (bstrSearchVal : Bytes → Byte → Nat) (calls : ByteArrayCalls β) (self : Istream β σ) (chunk : Bytes) :
    Option (Istream β σ) :=
  if chunk.length ≠ 0 then do
    let self := { self with buf := calls.append self.buf chunk }
    let buffer := calls.data self.buf
    match ← splitLines bstrSearchVal buffer self 0 with
    | (self, none) => some self
    | (self, some lineBegin) =>
      if lineBegin > 0 then
        if lineBegin = buffer.length then some { self with buf := calls.clear self.buf }
        else if lineBegin < buffer.length then some { self with buf := calls.trimLeft self.buf lineBegin }
        else none
      else some self
  else some self

/-- A stream that is opened, gets its text in chunks and is closed -/
def session (bstrSearchVal : Bytes → Byte → Nat) (calls : ByteArrayCalls β) (self : Istream β σ)
    (chunks : List Bytes) : Option (Istream β σ) :=
  (chunks.foldlM (write bstrSearchVal calls) self.open).map (close calls)

end Istream

/-- A line without the carriage return that ends it -/
def dropReturn (line : Bytes) : Bytes :=
  if line.getLast? = some carriageReturn then line.dropLast else line

def lineReader : Framing.Reader Byte Bytes where
  next t := if newline ∈ t then some (dropReturn (t.take (t.idxOf newline)), t.idxOf newline + 1) else none
  positive found := by
    rw [Option.ite_none_right_eq_some] at found
    cases found.2
    exact Nat.succ_pos _
  inside found := by
    rw [Option.ite_none_right_eq_some] at found
    cases found.2
    exact List.idxOf_lt_length_iff.mpr found.1
  stable {t m k} found u := by
    rw [Option.ite_none_right_eq_some] at found
    cases found.2
    have short := List.idxOf_lt_length_iff.mpr found.1
    rw [if_pos (List.mem_append_left u found.1), List.idxOf_append_of_mem found.1,
      List.take_append_of_le_length short.le]

theorem lineReader_line {line : Bytes} (one : newline ∉ line) (rest : Bytes) :
    lineReader.next (line ++ newline :: rest) = some (dropReturn line, line.length + 1) := by
  have index : (line ++ newline :: rest).idxOf newline = line.length := by
    rw [List.idxOf_append_of_notMem one, List.idxOf_cons_self, Nat.add_zero]
  change (if newline ∈ line ++ newline :: rest then some (_, _) else none) = _
  rw [if_pos (by simp), index, List.take_left]

theorem lineReader_none {t : Bytes} (none_ : newline ∉ t) : lineReader.next t = none :=
  if_neg none_

theorem split_line {line : Bytes} (one : newline ∉ line) (rest : Bytes) :
    lineReader.split (line ++ newline :: rest) =
      (dropReturn line :: (lineReader.split rest).1, (lineReader.split rest).2) := by
  rw [lineReader.split_some (lineReader_line one rest),
    show line ++ newline :: rest = (line ++ [newline]) ++ rest by simp,
    show line.length + 1 = (line ++ [newline]).length by simp, List.drop_left]

/-- Induction over the lines of a text -/
theorem lines_induction {motive : Bytes → Prop} (last : ∀ t, newline ∉ t → motive t)
    (line : ∀ line rest, newline ∉ line → motive rest → motive (line ++ newline :: rest)) (t : Bytes) :
    motive t := by
  induction size : t.length using Nat.strongRecOn generalizing t with
  | ind size ih =>
    by_cases mem : newline ∈ t
    · obtain ⟨first, rest, rfl, one⟩ := List.eq_append_cons_of_mem mem
      refine line first rest one (ih rest.length ?_ rest rfl)
      rw [← size, List.length_append, List.length_cons]
      omega
    · exact last t mem

/-- The lines of a text are its parts between the newlines. -/
theorem split_lines (t : Bytes) : lineReader.split t =
    ((t.splitOn newline).dropLast.map dropReturn,
      (t.splitOn newline).getLast (List.splitOn_ne_nil newline t)) := by
  induction t using lines_induction with
  | last t none_ =>
    rw [lineReader.split_none (lineReader_none none_)]
    have alone : t.splitOn newline = [t] := List.splitOn_eq_singleton none_
    simp [alone]
  | line line rest one ih =>
    have parts := List.splitOn_append_cons_self_of_not_mem one rest
    have some_ := List.splitOn_ne_nil newline rest
    rw [split_line one, ih]
    simp only [parts, List.dropLast_cons_of_ne_nil some_, List.map_cons, List.getLast_cons some_]

/-- A handler whose functions are there and return no error -/
structure IstreamHandler.NeverFails {σ : Type} (handler : IstreamHandler σ) : Prop where
  «open» : ∀ arg, (Istream.handlerOpen handler arg).1 = none
  close : ∀ arg, (Istream.handlerClose handler arg).1 = none
  newLine : ∀ arg line, (Istream.handlerNewLine handler arg line).1 = none

def IstreamHandler.next {σ : Type} (handler : IstreamHandler σ) (arg : σ) (line : Bytes) : σ :=
  (Istream.handlerNewLine handler arg line).2

namespace Istream
variable {β σ : Type} {bstrSearchVal : Bytes → Byte → Nat} {calls : ByteArrayCalls β}

theorem keep_newLine {self : Istream β σ} (ready : self.handler.NeverFails) (fine : self.lastError = none)
    (line : Bytes) : self.keep (handlerNewLine self.handler self.arg line) =
      { self with arg := self.handler.next self.arg line } := by
  rw [keep, ready.newLine, ← fine]
  rfl

theorem between_append (front line back : Bytes) :
    between (front ++ line ++ back) front.length (front.length + line.length) = some line := by
  rw [between, if_pos (by simp), Nat.add_sub_cancel_left, List.append_assoc, slice_append]

/-- One pass through the loop, over a line that has arrived whole -/
theorem splitLines_line (finds : SearchFunction bstrSearchVal) {self : Istream β σ}
    (ready : self.handler.NeverFails) (fine : self.lastError = none) (front : Bytes) {line : Bytes}
    (one : newline ∉ line) (rest : Bytes) :
    splitLines bstrSearchVal (front ++ (line ++ newline :: rest)) self front.length =
      splitLines bstrSearchVal (front ++ line ++ [newline] ++ rest)
        { self with arg := self.handler.next self.arg (dropReturn line) }
        (front ++ line ++ [newline]).length := by
  have regroup : front ++ line ++ [newline] ++ rest = front ++ (line ++ newline :: rest) := by simp
  rw [regroup, splitLines, if_pos (by simp)]
  simp only [List.drop_left, finds.found newline line rest one]
  rcases List.eq_nil_or_concat line with rfl | ⟨init, last, rfl⟩
  · have here := between_append front [] (newline :: rest)
    rw [List.append_nil, List.length_nil, Nat.add_zero] at here
    simp [here, keep_newLine ready fine, fine, dropReturn]
  · have there : (front ++ (init ++ [last] ++ newline :: rest))[front.length + init.length]? = some last := by
      simp
    have short := between_append front init (last :: newline :: rest)
    have whole := between_append front (init ++ [last]) (newline :: rest)
    rw [show front ++ init ++ last :: newline :: rest = front ++ (init ++ [last] ++ newline :: rest) by simp]
      at short
    rw [show front ++ (init ++ [last]) ++ newline :: rest = front ++ (init ++ [last] ++ newline :: rest) by simp,
      List.length_append, List.length_singleton] at whole
    have long : front.length + (init.length + 1) ≠ front.length := by omega
    have end_ : front.length + (init.length + 1) - 1 = front.length + init.length := rfl
    simp only [List.concat_eq_append, List.length_append, List.length_singleton, if_neg long, end_, there]
    by_cases return_ : last = carriageReturn
    · have dropped : dropReturn (init ++ [last]) = init := by simp [dropReturn, return_]
      rw [dropped]
      simp only [Option.bind_eq_bind, Option.bind_some, if_pos return_, short, keep_newLine ready fine, fine,
        ne_eq, not_true_eq_false, if_false]
      rfl
    · have kept : dropReturn (init ++ [last]) = init ++ [last] := by simp [dropReturn, return_]
      rw [kept]
      simp only [Option.bind_eq_bind, Option.bind_some, if_neg return_, whole, keep_newLine ready fine, fine,
        ne_eq, not_true_eq_false, if_false]

/-- The loop stops where no newline follows. -/
theorem splitLines_rest (finds : SearchFunction bstrSearchVal) (self : Istream β σ) (front : Bytes) {t : Bytes}
    (none_ : newline ∉ t) :
    splitLines bstrSearchVal (front ++ t) self front.length = some (self, some front.length) := by
  rw [splitLines]
  cases t with
  | nil => rw [List.append_nil, if_neg (Nat.lt_irrefl _)]
  | cons b more =>
    have other : b ≠ newline := fun same => none_ (same ▸ List.mem_cons_self)
    rw [if_pos (by simp)]
    simp only [List.drop_left, finds.missing newline _ none_, Nat.add_zero, if_true]
    simp [other]

/-- The loop hands on the lines that are whole, and stops at the beginning of the rest. -/
theorem splitLines_eq (finds : SearchFunction bstrSearchVal) (self : Istream β σ)
    (ready : self.handler.NeverFails) (fine : self.lastError = none) (front t : Bytes) :
    ∃ stop, splitLines bstrSearchVal (front ++ t) self front.length =
        some ({ self with arg := (lineReader.split t).1.foldl self.handler.next self.arg }, some stop) ∧
      stop ≤ (front ++ t).length ∧ (front ++ t).drop stop = (lineReader.split t).2 := by
  induction t using lines_induction generalizing front self with
  | last t none_ =>
    rw [splitLines_rest finds self front none_, lineReader.split_none (lineReader_none none_)]
    exact ⟨front.length, rfl, by simp, List.drop_left⟩
  | line line rest one ih =>
    rw [splitLines_line finds ready fine front one rest, split_line one]
    obtain ⟨stop, loop, inside, here⟩ :=
      ih { self with arg := self.handler.next self.arg (dropReturn line) } ready fine (front ++ line ++ [newline])
    have regroup : front ++ line ++ [newline] ++ rest = front ++ (line ++ newline :: rest) := by simp
    rw [regroup] at inside here
    exact ⟨stop, loop, inside, here⟩

/-- A stream between two calls: what its handler has got to, and the bytes of a line that is not whole -/
structure Holds (calls : ByteArrayCalls β) (handler : IstreamHandler σ) (arg : σ) (kept : Bytes)
    (self : Istream β σ) : Prop where
  handler : self.handler = handler
  arg : self.arg = arg
  lastError : self.lastError = none
  buf : calls.data self.buf = kept

variable {handler : IstreamHandler σ} {arg : σ} {kept : Bytes}

/-- One call hands on the lines that it makes whole, and keeps the rest. -/
theorem write_holds (finds : SearchFunction bstrSearchVal) (documented : calls.Documented)
    (ready : handler.NeverFails) {self : Istream β σ} (holds : self.Holds calls handler arg kept)
    {chunk : Bytes} (some_ : chunk ≠ []) : ∃ self', write bstrSearchVal calls self chunk = some self' ∧
      self'.Holds calls handler ((lineReader.split (kept ++ chunk)).1.foldl handler.next arg)
        (lineReader.split (kept ++ chunk)).2 := by
  obtain ⟨rfl, rfl, fine, rfl⟩ := holds
  obtain ⟨stop, loop, inside, here⟩ := splitLines_eq finds
    { self with buf := calls.append self.buf chunk } ready fine [] (calls.data self.buf ++ chunk)
  rw [List.nil_append] at inside here
  rw [write, if_pos (by simpa using some_)]
  simp only [List.nil_append, List.length_nil] at loop
  simp only [documented.append, loop, Option.bind_eq_bind, Option.bind_some]
  have grown := documented.append self.buf chunk
  by_cases start : stop > 0
  · rw [if_pos start]
    by_cases whole : stop = (calls.data self.buf ++ chunk).length
    · rw [if_pos whole]
      rw [whole, List.drop_length] at here
      exact ⟨_, rfl, rfl, rfl, fine, (documented.clear _).trans here⟩
    · rw [if_neg whole, if_pos (Nat.lt_of_le_of_ne inside whole)]
      refine ⟨_, rfl, rfl, rfl, fine, ?_⟩
      rw [← grown] at inside
      rw [← here, ← grown]
      exact documented.trimLeft _ stop inside
  · rw [if_neg start]
    rw [Nat.eq_zero_of_not_pos start, List.drop_zero] at here
    exact ⟨_, rfl, rfl, rfl, fine, grown.trans here⟩

/-- Where a text is cut makes no difference to its lines. -/
theorem writes_hold (finds : SearchFunction bstrSearchVal) (documented : calls.Documented)
    (ready : handler.NeverFails) {self : Istream β σ} (holds : self.Holds calls handler arg kept)
    (none_ : lineReader.next kept = none) {chunks : List Bytes} (some_ : [] ∉ chunks) :
    ∃ self', chunks.foldlM (write bstrSearchVal calls) self = some self' ∧
      self'.Holds calls handler ((lineReader.split (kept ++ chunks.flatten)).1.foldl handler.next arg)
        (lineReader.split (kept ++ chunks.flatten)).2 := by
  induction chunks generalizing self arg kept with
  | nil =>
    rw [List.flatten_nil, List.append_nil, lineReader.split_none none_]
    exact ⟨self, rfl, holds⟩
  | cons chunk chunks ih =>
    rw [List.mem_cons, not_or] at some_
    obtain ⟨next, wrote, holds⟩ := write_holds finds documented ready holds (Ne.symm some_.1)
    obtain ⟨last, rest, holds⟩ := ih holds (lineReader.next_rest _) some_.2
    rw [List.flatten_cons, ← List.append_assoc, lineReader.split_append, List.foldl_append]
    refine ⟨last, ?_, holds⟩
    rw [List.foldlM_cons, wrote]
    exact rest

/-- The lines of a text: its parts between the newlines, without the carriage return before a newline. What
is behind the last newline is a line of its own when it is not empty. -/
def lines (text : Bytes) : List Bytes :=
  let parts := text.splitOn newline
  let last := parts.getLast (List.splitOn_ne_nil newline text)
  parts.dropLast.map dropReturn ++ if last = [] then [] else [last]

/-- What is left at the end is delivered when the stream is closed. -/
theorem Holds.close (ready : handler.NeverFails) {self : Istream β σ} (holds : self.Holds calls handler arg kept) :
    (self.close calls).lastError = none ∧ (self.close calls).arg =
      (handlerClose handler ((if kept = [] then [] else [kept]).foldl handler.next arg)).2 := by
  obtain ⟨rfl, rfl, fine, rfl⟩ := holds
  rw [Istream.close, if_pos fine]
  cases rest : calls.data self.buf with
  | nil => exact ⟨ready.close _, rfl⟩
  | cons b more =>
    simp only [keep_newLine ready fine, List.length_cons, Nat.succ_pos, if_true, fine, ne_eq, not_true_eq_false,
      if_false, List.cons_ne_nil]
    exact ⟨ready.close _, rfl⟩

/-- However a text is cut, its handler gets the lines of the text, between its opening and its closing. No
read leaves the buffer. -/
theorem session_lines (finds : SearchFunction bstrSearchVal) (documented : calls.Documented)
    (ready : handler.NeverFails) (arg : σ) {chunks : List Bytes} (some_ : [] ∉ chunks) :
    ∃ self, session bstrSearchVal calls (create calls handler arg) chunks = some self ∧ self.lastError = none ∧
      self.arg = (handlerClose handler
        ((lines chunks.flatten).foldl handler.next (handlerOpen handler arg).2)).2 := by
  have opened : (create calls handler arg).open.Holds calls handler (handlerOpen handler arg).2 [] :=
    ⟨rfl, rfl, ready.open arg, documented.create⟩
  obtain ⟨self, wrote, holds⟩ := writes_hold finds documented ready opened (lineReader_none (by simp)) some_
  rw [List.nil_append, split_lines] at holds
  refine ⟨self.close calls, ?_, ?_⟩
  · rw [session, wrote]
    rfl
  · rw [lines, List.foldl_append]
    exact holds.close ready

/-- bstr_search_val as it is relied on -/
def firstOccurrence (t : Bytes) (val : Byte) : Nat := if val ∈ t then t.idxOf val else 0

theorem firstOccurrence_search : SearchFunction firstOccurrence where
  found val line rest one := by
    rw [firstOccurrence, if_pos (by simp), List.idxOf_append_of_notMem one, List.idxOf_cons_self, Nat.add_zero]
  missing _ _ none_ := if_neg none_

/-- adt_bytearray_t as it is relied on -/
def bytesCalls : ByteArrayCalls Bytes where
  create := []
  append := (· ++ ·)
  clear _ := []
  trimLeft buf n := buf.drop n
  data := id

theorem bytesCalls_documented : bytesCalls.Documented where
  create := rfl
  append _ _ := rfl
  clear _ := rfl
  trimLeft _ _ _ := rfl

/-- A handler that keeps the lines -/
def recorder : IstreamHandler (List Bytes) where
  «open» := some fun lines => (none, lines)
  close := some fun lines => (none, lines)
  newLine := some fun lines line => (none, lines ++ [line])

theorem recorder_neverFails : recorder.NeverFails where
  «open» _ := rfl
  close _ := rfl
  newLine _ _ := rfl

/-- A carriage return and its newline in two chunks, and a rest that is delivered at the end -/
theorem session_lines_cut : ∃ self, session firstOccurrence bytesCalls (create bytesCalls recorder [])
    [[97, 13], [10, 10, 98, 13]] = some self ∧ self.lastError = none ∧ self.arg = [[97], [], [98, 13]] := by
  obtain ⟨self, run, fine, got⟩ := session_lines firstOccurrence_search bytesCalls_documented recorder_neverFails []
    (show [] ∉ [[97, 13], [10, 10, 98, 13]] by decide)
  exact ⟨self, run, fine, got.trans (by decide)⟩

end Istream

end Apx
