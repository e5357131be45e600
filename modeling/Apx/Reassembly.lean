import Apx.FileTransfer

/-! Messages that come in fragments (file_manager_receiver.c). -/

namespace Apx

namespace Receiver

/-- Whether apx_fileManagerReceiver_reserve takes a new buffer -/
def Grows (bufSize size : Nat) : Prop := bufSize < size ∧ size ≤ maxFileSize

instance (bufSize size : Nat) : Decidable (Grows bufSize size) := inferInstanceAs (Decidable (_ ∧ _))

/-- apx_fileManagerReceiver_reserve: the old buffer is freed, and the first buf_pos bytes of the new one are what the
memory that malloc returns happens to hold. -/
def reserve (memory : Nat → Byte) (r : Receiver) (size : Nat) : Option ApxError × Receiver :=
  if 0 < size then
    if size > maxFileSize then (some .fileTooLarge, r)
    else if size > r.bufSize then
      (none, { r with bufSize := size, bufData := (List.range r.bufData.length).map memory })
    else (none, r)
  else (some .invalidArgument, r)

/-- A receiver that has been through any calls -/
inductive Reached : Receiver → Prop
  | created : Reached create
  | reserved {r : Receiver} (memory : Nat → Byte) (size : Nat) : Reached r → Reached (r.reserve memory size).2
  | written {r r' : Receiver} {address : Nat} {data : Bytes} {moreBit : Bool} {done : Option (Nat × Bytes)} :
      Reached r → r.write address data moreBit = .ok (done, r') → Reached r'

/-- A fragment, and the sizes that are reserved in front of it -/
structure Part where
  reserves : List Nat := []
  data : Bytes
  deriving DecidableEq, Repr

/-- What the fragments are made of -/
def payload (parts : List Part) : Bytes := (parts.map Part.data).flatten

def reserveAll (memory : Nat → Byte) (r : Receiver) (sizes : List Nat) : Receiver :=
  sizes.foldl (fun r size => (r.reserve memory size).2) r

/-- The fragments at consecutive addresses, all but the last one with the more bit: what each call returns, and the
receiver behind the last one. A call that fails leaves the receiver as it is. -/
def receive (memory : Nat → Byte) (r : Receiver) (address : Nat) :
    List Part → List (Except ApxError (Option (Nat × Bytes))) × Receiver
  | [] => ([], r)
  | part :: rest =>
    let r := r.reserveAll memory part.reserves
    let written := r.write address part.data !rest.isEmpty
    let (results, r) := receive memory
      (match written with
        | .error _ => r
        | .ok (_, r') => r') (address + part.data.length) rest
    (written.map Prod.fst :: results, r)

/-- Whatever new memory holds, the last fragment completes the message with its address and its bytes, no other one
completes anything, and the receiver waits for the next message. -/
def Reassembles (r : Receiver) (address : Nat) (parts : List Part) : Prop :=
  ∀ memory, ∃ r', receive memory r address parts =
    (List.replicate (parts.length - 1) (.ok none) ++ [.ok (some (address, payload parts))], r') ∧
      r'.bufData = [] ∧ r'.startAddress = invalidAddress

/-- The fragment is not at the address behind the bytes received, or there is no room for it. -/
def Unfit (r : Receiver) (address : Nat) (data : Bytes) : Prop :=
  (r.startAddress ≠ invalidAddress ∧ address ≠ r.startAddress + r.bufData.length) ∨
    r.bufSize < r.bufData.length + data.length

/-- The size of the buffer behind these calls of apx_fileManagerReceiver_reserve -/
def grown (bufSize : Nat) (sizes : List Nat) : Nat :=
  sizes.foldl (fun bufSize size => if Grows bufSize size then size else bufSize) bufSize

/-- No size is reserved that needs a new buffer once a byte has been received. -/
def Calm (bufSize received : Nat) : List Part → Prop
  | [] => True
  | part :: rest =>
      (0 < received → ∀ size ∈ part.reserves, ¬Grows bufSize size) ∧
        Calm (grown bufSize part.reserves) (received + part.data.length) rest

/-! What a receiver is like -/

/-- The bytes received fit into the buffer, and a receiver without a start address has none. -/
structure Sound (r : Receiver) : Prop where
  positive : 0 < r.bufSize
  small : r.bufSize ≤ maxFileSize
  inside : r.bufData.length ≤ r.bufSize
  waits : r.startAddress = invalidAddress → r.bufData = []

theorem reserve_grows {memory : Nat → Byte} {r : Receiver} {size : Nat} (grows : Grows r.bufSize size) :
    r.reserve memory size =
      (none, { r with bufSize := size, bufData := (List.range r.bufData.length).map memory }) := by
  obtain ⟨more, small⟩ := grows
  rw [reserve, if_pos (by omega), if_neg (by omega), if_pos more]

theorem reserve_calm {memory : Nat → Byte} {r : Receiver} {size : Nat} (calm : ¬Grows r.bufSize size) :
    (r.reserve memory size).2 = r := by
  rw [Grows] at calm
  rw [reserve]
  split
  · split
    · rfl
    · rw [if_neg (by omega)]
  · rfl

theorem Sound.reserve {r : Receiver} (sound : r.Sound) (memory : Nat → Byte) (size : Nat) :
    (r.reserve memory size).2.Sound := by
  by_cases grows : Grows r.bufSize size
  · have inside := sound.inside
    rw [reserve_grows grows]
    obtain ⟨more, small⟩ := grows
    refine ⟨?_, small, ?_, ?_⟩
    · exact Nat.lt_trans sound.positive more
    · simp only [List.length_map, List.length_range]
      omega
    · intro waits
      simp [sound.waits waits]
  · rw [reserve_calm grows]
    exact sound

theorem Sound.process {r : Receiver} {data : Bytes} {address : Nat} (positive : 0 < r.bufSize)
    (small : r.bufSize ≤ maxFileSize) (inside : data.length ≤ r.bufSize) (valid : address < invalidAddress)
    (moreBit : Bool) : (processMoreBit { r with bufData := data, startAddress := address } moreBit).2.Sound := by
  cases moreBit with
  | false => exact ⟨positive, small, Nat.zero_le _, fun _ => rfl⟩
  | true => exact ⟨positive, small, inside, fun waits => absurd waits (Nat.ne_of_lt valid)⟩

/-- The receiver holds these bytes of a message at `start`, or it waits and there are none. -/
structure Holds (r : Receiver) (start : Nat) (received : Bytes) : Prop where
  sound : r.Sound
  bufData : r.bufData = received
  startAddress : r.startAddress = start ∨ r.startAddress = invalidAddress

/-- The message with another fragment -/
def extended (r : Receiver) (start : Nat) (bytes : Bytes) : Receiver :=
  { r with bufData := bytes, startAddress := start }

theorem startNewReception_eq {r : Receiver} (sound : r.Sound) (waits : r.startAddress = invalidAddress)
    {data : Bytes} (fits : data.length ≤ r.bufSize) (start : Nat) (moreBit : Bool) :
    r.startNewReception start data moreBit = .ok (processMoreBit (r.extended start data) moreBit) := by
  have positive := sound.positive
  have nothing := sound.waits waits
  have stored : (if 0 < data.length then data else r.bufData) = data := by
    cases data with
    | nil => exact nothing
    | cons b rest => exact if_pos (Nat.succ_pos _)
  rw [startNewReception, if_neg (by omega), if_neg (by omega), stored]
  rfl

/-- A fragment that goes on where the bytes received end, and for which there is room -/
theorem Holds.write {r : Receiver} {start : Nat} {received : Bytes} (holds : r.Holds start received)
    (valid : start + received.length < invalidAddress) {data : Bytes}
    (fits : received.length + data.length ≤ r.bufSize) (moreBit : Bool) :
    r.write (start + received.length) data moreBit =
      .ok (processMoreBit (r.extended start (received ++ data)) moreBit) := by
  have small := holds.sound.small
  have positive := holds.sound.positive
  rw [Receiver.write, if_pos valid, if_neg (by omega)]
  by_cases waits : r.startAddress = invalidAddress
  · have nothing := holds.bufData.symm.trans (holds.sound.waits waits)
    subst nothing
    rw [if_pos waits]
    exact startNewReception_eq holds.sound waits (by simpa using fits) start moreBit
  · obtain rfl := holds.startAddress.resolve_right waits
    have expected : ¬r.startAddress + r.bufData.length ≠ r.startAddress + received.length := by
      rw [holds.bufData]
      exact not_not_intro rfl
    have room : ¬r.bufData.length + data.length > r.bufSize := by
      rw [holds.bufData]
      omega
    rw [if_neg waits, continueReception, if_neg expected, if_neg (by omega), if_neg room, holds.bufData]
    rfl

theorem write_invalid {r : Receiver} {address : Nat} (invalid : ¬address < invalidAddress) (data : Bytes)
    (moreBit : Bool) : r.write address data moreBit = .error .invalidArgument := if_neg invalid

/-- A fragment at another address, or for which there is no room -/
theorem write_unfit {r : Receiver} (sound : r.Sound) {address : Nat} {data : Bytes} (unfit : r.Unfit address data)
    (moreBit : Bool) : ∃ error, r.write address data moreBit = .error error := by
  have positive := sound.positive
  rw [Receiver.write]
  by_cases valid : address < invalidAddress
  · rw [if_pos valid]
    by_cases large : data.length > maxFileSize
    · exact ⟨_, if_pos large⟩
    · rw [if_neg large]
      by_cases waits : r.startAddress = invalidAddress
      · have full : data.length > r.bufSize := by
          rcases unfit with ⟨begun, -⟩ | full
          · exact absurd waits begun
          · rw [sound.waits waits] at full
            simpa using full
        rw [if_pos waits, startNewReception, if_neg (by omega), if_pos full]
        exact ⟨_, rfl⟩
      · rw [if_neg waits, continueReception]
        by_cases expected : r.startAddress + r.bufData.length ≠ address
        · exact ⟨_, if_pos expected⟩
        · rw [if_neg expected, if_neg (by omega)]
          rcases unfit with ⟨-, other⟩ | full
          · exact absurd (not_not.mp expected).symm other
          · exact ⟨_, if_pos full⟩
  · exact ⟨_, if_neg valid⟩

/-- A fragment that is written goes on where the bytes received end. -/
theorem fits_of_write {r : Receiver} (sound : r.Sound) {address : Nat} {data : Bytes} {moreBit : Bool}
    {result : Option (Nat × Bytes) × Receiver} (written : r.write address data moreBit = .ok result) :
    ∃ start, r.Holds start r.bufData ∧ address = start + r.bufData.length ∧ address < invalidAddress ∧
      r.bufData.length + data.length ≤ r.bufSize := by
  have valid : address < invalidAddress := by
    by_contra invalid
    rw [write_invalid invalid] at written
    contradiction
  have fit : ¬r.Unfit address data := by
    intro unfit
    obtain ⟨error, failed⟩ := write_unfit sound unfit moreBit
    rw [failed] at written
    contradiction
  rw [Unfit, not_or, not_and_or, not_not, not_not, Nat.not_lt] at fit
  by_cases waits : r.startAddress = invalidAddress
  · refine ⟨address, ⟨sound, rfl, .inr waits⟩, ?_, valid, fit.2⟩
    rw [sound.waits waits]
    rfl
  · exact ⟨r.startAddress, ⟨sound, rfl, .inl rfl⟩, fit.1.resolve_left waits, valid, fit.2⟩

theorem Sound.write {r r' : Receiver} (sound : r.Sound) {address : Nat} {data : Bytes} {moreBit : Bool}
    {done : Option (Nat × Bytes)} (written : r.write address data moreBit = .ok (done, r')) : r'.Sound := by
  obtain ⟨start, holds, rfl, valid, fits⟩ := fits_of_write sound written
  have inside : (r.bufData ++ data).length ≤ r.bufSize := by
    rw [List.length_append]
    exact fits
  have sound' := Sound.process sound.positive sound.small inside (Nat.lt_of_le_of_lt (Nat.le_add_right _ _) valid)
    moreBit
  have result := Except.ok.inj ((holds.write valid fits moreBit).symm.trans written)
  have same : (processMoreBit (r.extended start (r.bufData ++ data)) moreBit).2 = r' := congrArg Prod.snd result
  exact same ▸ sound'

theorem Reached.sound {r : Receiver} (reached : r.Reached) : r.Sound := by
  induction reached with
  | created => exact ⟨by decide, by decide, Nat.zero_le _, fun _ => rfl⟩
  | reserved memory size _ ih => exact ih.reserve memory size
  | written _ written ih => exact ih.write written

/-! Reserving in front of a fragment -/

theorem Sound.reserveAll {r : Receiver} (sound : r.Sound) (memory : Nat → Byte) (sizes : List Nat) :
    (r.reserveAll memory sizes).Sound := by
  induction sizes generalizing r with
  | nil => exact sound
  | cons size sizes ih => exact ih (sound.reserve memory size)

theorem reserveAll_cons (memory : Nat → Byte) (r : Receiver) (size : Nat) (sizes : List Nat) :
    r.reserveAll memory (size :: sizes) = (r.reserve memory size).2.reserveAll memory sizes := rfl

theorem grown_cons (bufSize size : Nat) (sizes : List Nat) :
    grown bufSize (size :: sizes) = grown (if Grows bufSize size then size else bufSize) sizes := rfl

theorem reserveAll_startAddress (memory : Nat → Byte) (r : Receiver) (sizes : List Nat) :
    (r.reserveAll memory sizes).startAddress = r.startAddress := by
  induction sizes generalizing r with
  | nil => rfl
  | cons size sizes ih =>
    rw [reserveAll_cons, ih]
    by_cases grows : Grows r.bufSize size
    · rw [reserve_grows grows]
    · rw [reserve_calm grows]

theorem reserveAll_bufSize (memory : Nat → Byte) (r : Receiver) (sizes : List Nat) :
    (r.reserveAll memory sizes).bufSize = grown r.bufSize sizes := by
  induction sizes generalizing r with
  | nil => rfl
  | cons size sizes ih =>
    rw [reserveAll_cons, ih, grown_cons]
    by_cases grows : Grows r.bufSize size
    · rw [reserve_grows grows, if_pos grows]
    · rw [reserve_calm grows, if_neg grows]

theorem le_grown (bufSize : Nat) (sizes : List Nat) : bufSize ≤ grown bufSize sizes := by
  induction sizes generalizing bufSize with
  | nil => exact Nat.le_refl _
  | cons size sizes ih =>
    rw [grown_cons]
    refine Nat.le_trans ?_ (ih _)
    by_cases grows : Grows bufSize size
    · rw [if_pos grows]
      exact Nat.le_of_lt grows.1
    · rw [if_neg grows]

/-- No byte is lost when there is none, or when no size needs a new buffer. -/
theorem Holds.reserveAll {r : Receiver} {start : Nat} {received : Bytes} (holds : r.Holds start received)
    (memory : Nat → Byte) {sizes : List Nat} (calm : 0 < received.length → ∀ size ∈ sizes, ¬Grows r.bufSize size) :
    (r.reserveAll memory sizes).Holds start received := by
  refine ⟨holds.sound.reserveAll memory sizes, ?_, ?_⟩
  · induction sizes generalizing r with
    | nil => exact holds.bufData
    | cons size sizes ih =>
      by_cases grows : Grows r.bufSize size
      · have nothing : received = [] := by
          by_contra some
          exact calm (List.length_pos_iff.mpr some) size List.mem_cons_self grows
        subst nothing
        have next : (r.reserve memory size).2.Holds start [] := by
          refine ⟨holds.sound.reserve memory size, ?_, ?_⟩
          · rw [reserve_grows grows, holds.bufData]
            rfl
          · rw [reserve_grows grows]
            exact holds.startAddress
        exact ih next nofun
      · rw [reserveAll_cons, reserve_calm grows]
        exact ih holds fun some other mem => calm some other (List.mem_cons_of_mem _ mem)
  · rw [reserveAll_startAddress]
    exact holds.startAddress

/-- The first byte is lost to the new memory with the first size that needs a new buffer, and stays lost. -/
theorem reserveAll_lost {r : Receiver} {b c : Byte} {more : Bytes} (sizes : List Nat)
    (held : r.bufData = b :: more) (lost : b = c ∨ ∃ size ∈ sizes, Grows r.bufSize size) :
    (r.reserveAll (fun _ => c) sizes).bufData.head? = some c := by
  induction sizes generalizing r b more with
  | nil =>
    obtain rfl := lost.resolve_right (by simp)
    exact congrArg List.head? held
  | cons size sizes ih =>
    rw [reserveAll_cons]
    by_cases grows : Grows r.bufSize size
    · rw [reserve_grows grows, held]
      exact @ih _ c ((List.range more.length).map fun _ => c) (by simp [List.replicate_succ]) (.inl rfl)
    · rw [reserve_calm grows]
      refine ih held (lost.imp_right ?_)
      rintro ⟨other, mem, other_grows⟩
      rcases List.mem_cons.mp mem with rfl | mem
      · exact absurd other_grows grows
      · exact ⟨other, mem, other_grows⟩

/-! Receiving -/

theorem receive_cons (memory : Nat → Byte) (r : Receiver) (address : Nat) (part : Part) (rest : List Part)
    {done : Option (Nat × Bytes)} {r' : Receiver}
    (written : (r.reserveAll memory part.reserves).write address part.data (!rest.isEmpty) = .ok (done, r')) :
    receive memory r address (part :: rest) =
      (.ok done :: (receive memory r' (address + part.data.length) rest).1,
        (receive memory r' (address + part.data.length) rest).2) := by
  rw [receive]
  simp only [written]
  rfl

/-- The calls on the way return nothing, and the last one returns the message. -/
theorem receive_holds (memory : Nat → Byte) {r : Receiver} {start : Nat} {received : Bytes}
    (holds : r.Holds start received) {parts : List Part} (some_ : parts ≠ [])
    (valid : start + (received ++ payload parts.dropLast).length < invalidAddress)
    (fits : (received ++ payload parts).length ≤ r.bufSize) (calm : Calm r.bufSize received.length parts) :
    ∃ r', receive memory r (start + received.length) parts =
      (List.replicate (parts.length - 1) (.ok none) ++ [.ok (some (start, received ++ payload parts))], r') ∧
        r'.bufData = [] ∧ r'.startAddress = invalidAddress := by
  induction parts generalizing r received with
  | nil => exact absurd rfl some_
  | cons part rest ih =>
    have kept := holds.reserveAll memory calm.1
    have more := le_grown r.bufSize part.reserves
    have size := reserveAll_bufSize memory r part.reserves
    have payload_cons : payload (part :: rest) = part.data ++ payload rest := rfl
    rw [payload_cons, ← List.append_assoc] at fits
    have room : received.length + part.data.length ≤ (r.reserveAll memory part.reserves).bufSize := by
      simp only [List.length_append] at fits
      omega
    have here : start + received.length < invalidAddress := by
      rw [List.length_append] at valid
      omega
    have written := kept.write here room (!rest.isEmpty)
    cases rest with
    | nil =>
      have whole : payload [part] = part.data := by simp [payload]
      rw [receive_cons memory r _ part [] written, whole]
      exact ⟨_, rfl, rfl, rfl⟩
    | cons next rest =>
      have inside : (received ++ part.data).length ≤ (r.reserveAll memory part.reserves).bufSize := by
        rw [List.length_append]
        exact room
      have sound' := Sound.process kept.sound.positive kept.sound.small inside
        (Nat.lt_of_le_of_lt (Nat.le_add_right _ _) here) true
      have last : payload (part :: next :: rest).dropLast = part.data ++ payload (next :: rest).dropLast := rfl
      rw [last, ← List.append_assoc] at valid
      have length : (received ++ part.data).length = received.length + part.data.length := List.length_append
      obtain ⟨r', results, nothing, waits⟩ := @ih ((r.reserveAll memory part.reserves).extended start
        (received ++ part.data)) (received ++ part.data) ⟨sound', rfl, .inl rfl⟩ (List.cons_ne_nil _ _) valid
        (Nat.le_trans fits (size ▸ more)) (by rw [length]; exact size ▸ calm.2)
      rw [length, ← Nat.add_assoc] at results
      have received_cons := receive_cons memory r (start + received.length) part (next :: rest) written
      rw [received_cons]
      refine ⟨r', ?_, nothing, waits⟩
      rw [results, payload_cons, List.append_assoc]
      rfl

/-- What the calls return, the first one and then the others -/
theorem receive_results (memory : Nat → Byte) (r : Receiver) (address : Nat) (part : Part) (rest : List Part) :
    ∃ r', (receive memory r address (part :: rest)).1 =
        ((r.reserveAll memory part.reserves).write address part.data !rest.isEmpty).map Prod.fst ::
          (receive memory r' (address + part.data.length) rest).1 ∧
      match (r.reserveAll memory part.reserves).write address part.data !rest.isEmpty with
      | .error _ => r' = r.reserveAll memory part.reserves
      | .ok (_, r'') => r' = r'' := by
  refine ⟨_, rfl, ?_⟩
  split <;> rfl

/-- Where all calls succeed, all addresses are valid. -/
theorem valid_of_receive {memory : Nat → Byte} {r : Receiver} {address : Nat} {parts : List Part}
    (some_ : parts ≠ []) (succeed : ∀ entry ∈ (receive memory r address parts).1, ∃ done, entry = .ok done) :
    address + (payload parts.dropLast).length < invalidAddress := by
  induction parts generalizing r address with
  | nil => exact absurd rfl some_
  | cons part rest ih =>
    obtain ⟨r', results, -⟩ := receive_results memory r address part rest
    rw [results] at succeed
    cases rest with
    | nil =>
      obtain ⟨done, written⟩ := succeed _ List.mem_cons_self
      by_contra invalid
      have none_ : payload [part].dropLast = [] := rfl
      rw [none_, List.length_nil, Nat.add_zero] at invalid
      rw [write_invalid invalid] at written
      contradiction
    | cons next rest =>
      have last : payload (part :: next :: rest).dropLast = part.data ++ payload (next :: rest).dropLast := rfl
      rw [last, List.length_append, ← Nat.add_assoc]
      exact ih (List.cons_ne_nil _ _) fun entry mem => succeed entry (List.mem_cons_of_mem _ mem)

/-- The first byte stays what it is until the message is complete. -/
theorem write_first {r r' : Receiver} {c : Byte} {more : Bytes} (sound : r.Sound) (held : r.bufData = c :: more)
    {address : Nat} {data : Bytes} {moreBit : Bool} {done : Option (Nat × Bytes)}
    (written : r.write address data moreBit = .ok (done, r')) :
    if moreBit then done = none ∧ r'.bufData = c :: (more ++ data)
    else ∃ start, done = some (start, c :: (more ++ data)) := by
  obtain ⟨start, holds, rfl, valid, fits⟩ := fits_of_write sound written
  have result := Except.ok.inj ((holds.write valid fits moreBit).symm.trans written)
  rw [held, List.cons_append] at result
  cases moreBit with
  | false =>
    rw [if_neg Bool.false_ne_true]
    exact ⟨start, (congrArg Prod.fst result).symm⟩
  | true =>
    rw [if_pos rfl]
    exact ⟨(congrArg Prod.fst result).symm, (congrArg (fun result => result.2.bufData) result).symm⟩

/-- A message whose first byte has been lost is delivered without it. -/
theorem receive_lost {r : Receiver} {b c : Byte} {more : Bytes} {address : Nat} {part : Part} {rest : List Part}
    (sound : r.Sound) (held : r.bufData = b :: more)
    (lost : b = c ∨ ∃ size ∈ part.reserves, Grows r.bufSize size) {start : Nat} {data : Bytes}
    (mem : .ok (some (start, data)) ∈ (receive (fun _ => c) r address (part :: rest)).1) : data.head? = some c := by
  induction rest generalizing r b more address part with
  | nil =>
    obtain ⟨r', results, -⟩ := receive_results (fun _ => c) r address part []
    obtain ⟨more', held'⟩ := List.head?_eq_some_iff.mp (reserveAll_lost part.reserves held lost)
    rw [results] at mem
    cases written : (r.reserveAll (fun _ => c) part.reserves).write address part.data !([] : List Part).isEmpty with
    | error error =>
      rw [written] at mem
      simp [Except.map, receive] at mem
    | ok result =>
      obtain ⟨start', done⟩ := write_first (sound.reserveAll _ part.reserves) held' written
      rw [written] at mem
      simp [Except.map, receive, done] at mem
      rw [mem.2]
      rfl
  | cons next rest ih =>
    obtain ⟨r', results, state⟩ := receive_results (fun _ => c) r address part (next :: rest)
    obtain ⟨more', held'⟩ := List.head?_eq_some_iff.mp (reserveAll_lost part.reserves held lost)
    have sound' := sound.reserveAll (fun _ => c) part.reserves
    rw [results] at mem
    cases written : (r.reserveAll (fun _ => c) part.reserves).write address part.data !(next :: rest).isEmpty with
    | error error =>
      rw [written] at mem state
      obtain rfl : r' = _ := state
      rcases List.mem_cons.mp mem with failed | mem
      · contradiction
      · exact ih sound' held' (.inl rfl) mem
    | ok result =>
      obtain ⟨none_, held''⟩ := write_first sound' held' written
      rw [written] at mem state
      obtain rfl : r' = _ := state
      rcases List.mem_cons.mp mem with complete | mem
      · have complete' : some (start, data) = result.1 := Except.ok.inj complete
        rw [none_] at complete'
        contradiction
      · exact ih (sound'.write written) held'' (.inl rfl) mem

/-- Where the message is delivered as it was sent, although new memory does not hold its first byte, no size has been
reserved that needs a new buffer once a byte has been received. -/
theorem calm_of_receive {r : Receiver} {start : Nat} {received : Bytes} (holds : r.Holds start received)
    {parts : List Part} {c : Byte} (other : ∀ b ∈ (received ++ payload parts).head?, b ≠ c)
    (results : (receive (fun _ => c) r (start + received.length) parts).1 =
      List.replicate (parts.length - 1) (.ok none) ++ [.ok (some (start, received ++ payload parts))]) :
    Calm r.bufSize received.length parts := by
  induction parts generalizing r received with
  | nil => trivial
  | cons part rest ih =>
    have calm : 0 < received.length → ∀ size ∈ part.reserves, ¬Grows r.bufSize size := by
      intro some_ size mem grows
      cases received with
      | nil => contradiction
      | cons b more =>
        have last : .ok (some (start, b :: more ++ payload (part :: rest))) ∈
            (receive (fun _ => c) r (start + (b :: more).length) (part :: rest)).1 := by
          rw [results]
          exact List.mem_append_right _ (List.mem_singleton_self _)
        have first := receive_lost holds.sound holds.bufData (.inr ⟨size, mem, grows⟩) last
        exact other c first rfl
    refine ⟨calm, ?_⟩
    have kept := holds.reserveAll (fun _ => c) calm
    have size := reserveAll_bufSize (fun _ => c) r part.reserves
    rw [← size]
    cases rest with
    | nil => trivial
    | cons next rest =>
      obtain ⟨r', here, state⟩ := receive_results (fun _ => c) r (start + received.length) part (next :: rest)
      rw [here] at results
      obtain ⟨first, results⟩ := List.cons.inj (results : _ :: _ = Except.ok none ::
        (List.replicate rest.length (.ok none) ++ [.ok (some (start, received ++ payload (part :: next :: rest)))]))
      cases written : (r.reserveAll (fun _ => c) part.reserves).write (start + received.length) part.data
          !(next :: rest).isEmpty with
      | error error =>
        rw [written] at first
        contradiction
      | ok result =>
        rw [written] at state
        obtain rfl : r' = _ := state
        obtain ⟨-, -, -, valid, fits⟩ := fits_of_write kept.sound written
        rw [kept.bufData] at fits
        have next_state := congrArg Prod.snd (Except.ok.inj ((kept.write valid fits _).symm.trans written))
        have sound' := kept.sound.write written
        have length : (received ++ part.data).length = received.length + part.data.length := List.length_append
        have payload_cons : payload (part :: next :: rest) = part.data ++ payload (next :: rest) := rfl
        rw [payload_cons, ← List.append_assoc] at results other
        have holds' : result.2.Holds start (received ++ part.data) := by
          rw [← next_state] at sound' ⊢
          exact ⟨sound', rfl, .inl rfl⟩
        rw [← length]
        have later := ih holds' other (by rw [length, ← Nat.add_assoc]; exact results)
        rw [← next_state] at later
        exact later

/-- A receiver refuses a fragment that is unfit. Where it waits, a message that fits into its buffer is put together
if and only if all fragments have valid addresses and no new buffer is reserved behind the first byte. -/
theorem reached_reassembles_iff {r : Receiver} (reached : r.Reached) :
    (∀ address data moreBit, r.Unfit address data → ∃ error, r.write address data moreBit = .error error) ∧
      (r.startAddress = invalidAddress → ∀ address parts, parts ≠ [] → (payload parts).length ≤ r.bufSize →
        (r.Reassembles address parts ↔
          address + (payload parts.dropLast).length < invalidAddress ∧ Calm r.bufSize 0 parts)) := by
  refine ⟨fun address data moreBit unfit => write_unfit reached.sound unfit moreBit, ?_⟩
  intro waits address parts some_ fits
  have holds : r.Holds address [] := ⟨reached.sound, reached.sound.waits waits, .inr waits⟩
  constructor
  · intro reassembles
    refine ⟨?_, ?_⟩
    · obtain ⟨r', results, -⟩ := reassembles fun _ => 0
      refine @valid_of_receive (fun _ => 0) r address parts some_ ?_
      rw [results]
      intro entry mem
      rcases List.mem_append.mp mem with mem | mem
      · exact ⟨none, List.eq_of_mem_replicate mem⟩
      · exact ⟨_, List.mem_singleton.mp mem⟩
    · obtain ⟨c, other⟩ : ∃ c : Byte, ∀ b ∈ (payload parts).head?, b ≠ c := by
        cases payload parts with
        | nil => exact ⟨0, nofun⟩
        | cons b more =>
          obtain ⟨c, other⟩ : ∃ c : Byte, c ≠ b := ⟨if b = 0 then 1 else 0, by split <;> simp_all [eq_comm]⟩
          refine ⟨c, ?_⟩
          rintro b' is rfl
          exact other (Option.some.inj is).symm
      obtain ⟨r', results, -⟩ := reassembles fun _ => c
      exact calm_of_receive holds other (congrArg Prod.fst results)
  · rintro ⟨valid, calm⟩ memory
    exact receive_holds memory holds some_ valid fits calm

/-- A new receiver and a message in two fragments -/
theorem reached_reassembles_iff_create : create.Reached ∧ create.startAddress = invalidAddress ∧
    (create.Reassembles 0x100 [{ data := [1, 2] }, { data := [3] }] ↔
      0x100 + (payload [{ data := [1, 2] }]).length < invalidAddress ∧
        Calm create.bufSize 0 [{ data := [1, 2] }, { data := [3] }]) :=
  ⟨.created, rfl, (reached_reassembles_iff .created).2 rfl 0x100 _ (List.cons_ne_nil _ _) (by decide)⟩

/-- A bigger buffer that is reserved between the two fragments of a message -/
theorem not_reassembles_reserve :
    ¬create.Reassembles 0x100 [{ data := [1] }, { reserves := [2000], data := [2] }] := by
  intro reassembles
  obtain ⟨r', results, -⟩ := reassembles fun _ => 0
  have delivered : (receive (fun _ => 0) create 0x100 [{ data := [1] }, { reserves := [2000], data := [2] }]).1 =
      [.ok none, .ok (some (0x100, [0, 2]))] := by decide +kernel
  have sent : (receive (fun _ => 0) create 0x100 [{ data := [1] }, { reserves := [2000], data := [2] }]).1 =
      [.ok none, .ok (some (0x100, [1, 2]))] := congrArg Prod.fst results
  exact absurd (delivered.symm.trans sent) (by decide)

end Receiver

end Apx
