import Apx.FileTransfer

/-! What the sessions of a socket connection put into its send buffer and hand to its socket
(socket_client_connection.c, and extension/socket_server_connection.c with the same code). -/

namespace Apx

open LittleEndian

/-- The sending side of apx_clientSocketConnection_t and apx_socketServerConnection_t: the bytes of send_buffer up
to its length, and what each call of send was given -/
structure SendBuffer where
  sendBuffer : Bytes := []
  pendingBytes : Nat := 0
  sent : List Bytes := []
  deriving DecidableEq

namespace SendBuffer

def memcpy (c : SendBuffer) (offset : Nat) (data : Bytes) : Except Failure SendBuffer :=
  if offset + data.length ≤ c.sendBuffer.length then .ok { c with sendBuffer := splice c.sendBuffer offset data }
  else .error .outOfBounds

/-- send_packet of a connection with a socket. adt_bytearray_clear sets the length to 0. -/
def sendPacket (c : SendBuffer) : SendBuffer :=
  if c.pendingBytes > 0 then
    { sendBuffer := [], pendingBytes := 0, sent := c.sent ++ [c.sendBuffer.take c.pendingBytes] }
  else c

/-- The free space, in the 32 bits of apx_size_t -/
def bufferAvailable (c : SendBuffer) : Nat := (c.sendBuffer.length + 2 ^ 32 - c.pendingBytes) % 2 ^ 32

/-- transmit_begin, where `resize` is adt_bytearray_resize -/
def transmitBegin (resize : Bytes → Nat → Bytes) (c : SendBuffer) : Except Failure SendBuffer :=
  let buffer := if c.sendBuffer.length < sendBufferGrowSize then resize c.sendBuffer sendBufferGrowSize
    else c.sendBuffer
  if buffer.length ≥ sendBufferGrowSize then .ok { c with sendBuffer := buffer, pendingBytes := 0 }
  else .error .assertion

/-- transmit_end -/
def transmitEnd (c : SendBuffer) : SendBuffer :=
  if c.pendingBytes > 0 then c.sendPacket else c

/-- The flush in front of a message of `bytesToSend` bytes -/
def makeRoom (c : SendBuffer) (bytesToSend : Nat) : SendBuffer :=
  if bytesToSend > c.bufferAvailable then c.sendPacket else c

/-- How both kinds of messages are stored: the header where `offset` says and the data behind what is pending then,
with the bytes that are available behind them -/
def store (c : SendBuffer) (offset : Nat) (header msgData : Bytes) : Except Failure (SendBuffer × Nat) := do
  let c ← c.memcpy offset header
  let c := { c with pendingBytes := c.pendingBytes + header.length }
  let c ← c.memcpy c.pendingBytes msgData
  let c := { c with pendingBytes := c.pendingBytes + msgData.length }
  return (c, c.bufferAvailable)

/-- transmit_data_message -/
def transmitDataMessage (c : SendBuffer) (writeAddress : Nat) (moreBit : Bool) (msgData : Bytes) :
    Except Failure (SendBuffer × Nat) :=
  let addressSize := rmfNeededEncodingSize writeAddress
  let payloadSize := addressSize + msgData.length
  if payloadSize > sendBufferGrowSize then .error (.code .msgTooLarge)
  else
    match numheaderEncode32 8 payloadSize with
    -- never here: the payload is short
    | none => .error .outOfBounds
    | some header1 =>
      let header2 := rmfAddressEncode (8 - header1.length) writeAddress moreBit
      if header2.length ≠ addressSize then .error .assertion
      else
        -- the size of the address is counted twice
        let c := c.makeRoom (header1.length + header2.length + payloadSize)
        c.store c.pendingBytes (header1 ++ header2) msgData

/-- transmit_direct_message -/
def transmitDirectMessage (c : SendBuffer) (msgData : Bytes) : Except Failure (SendBuffer × Nat) :=
  if msgData.length > sendBufferGrowSize then .error (.code .msgTooLarge)
  else
    match numheaderEncode32 4 msgData.length with
    -- never here: the message is short
    | none => .error .outOfBounds
    | some header =>
      let c := c.makeRoom (header.length + msgData.length)
      -- to the start of the buffer, whatever is pending
      c.store 0 header msgData

end SendBuffer

inductive Outgoing where
  | data (address : Nat) (moreBit : Bool) (msgData : Bytes)
  | direct (msgData : Bytes)
  deriving DecidableEq

namespace Outgoing

/-- The header in front of a message: its size, and in a data message the address that counts among its bytes -/
def header : Outgoing → Bytes
  | .data address moreBit msgData =>
      (numheaderEncode32 4 (rmfNeededEncodingSize address + msgData.length)).getD [] ++
        rmfAddressEncode 4 address moreBit
  | .direct msgData => (numheaderEncode32 4 msgData.length).getD []

def msgData : Outgoing → Bytes
  | .data _ _ msgData => msgData
  | .direct msgData => msgData

def frame (message : Outgoing) : Bytes := message.header ++ message.msgData

end Outgoing

namespace SendBuffer

def transmit (c : SendBuffer) : Outgoing → Except Failure (SendBuffer × Nat)
  | .data address moreBit msgData => c.transmitDataMessage address moreBit msgData
  | .direct msgData => c.transmitDirectMessage msgData

/-- The calls of a session between its begin and its end, and the messages that were accepted. A message that is
rejected with an error code is followed by the next one. -/
def transmitAll (c : SendBuffer) : List Outgoing → Except Failure (SendBuffer × List Outgoing)
  | [] => .ok (c, [])
  | message :: rest =>
    match c.transmit message with
    | .ok (c, _) => do
      let (c, accepted) ← transmitAll c rest
      return (c, message :: accepted)
    | .error (.code _) => transmitAll c rest
    | .error failure => .error failure

def session (resize : Bytes → Nat → Bytes) (c : SendBuffer) (messages : List Outgoing) :
    Except Failure (SendBuffer × List Outgoing) := do
  let c ← c.transmitBegin resize
  let (c, accepted) ← c.transmitAll messages
  return (c.transmitEnd, accepted)

def sessions (resize : Bytes → Nat → Bytes) (c : SendBuffer) :
    List (List Outgoing) → Except Failure (SendBuffer × List Outgoing)
  | [] => .ok (c, [])
  | messages :: rest => do
    let (c, accepted) ← c.session resize messages
    let (c, more) ← sessions resize c rest
    return (c, accepted ++ more)

end SendBuffer

/-- The sessions of a new connection store inside of the send buffer, and the socket is given the frames of the
accepted messages one behind the other, whatever memory adt_bytearray_resize finds. -/
def FramesLossless (sessions : List (List Outgoing)) : Prop :=
  ∀ resize : Bytes → Nat → Bytes, (∀ buffer size, (resize buffer size).length = size) →
    ∃ c accepted, ({} : SendBuffer).sessions resize sessions = .ok (c, accepted) ∧
      c.sent.flatten = accepted.flatMap Outgoing.frame

namespace Outgoing

/-- A message that is rejected -/
def TooLarge : Outgoing → Prop
  | .data address _ msgData => sendBufferGrowSize < rmfNeededEncodingSize address + msgData.length
  | .direct msgData => sendBufferGrowSize < msgData.length

instance (message : Outgoing) : Decidable message.TooLarge := by
  cases message <;> exact inferInstanceAs (Decidable (_ < _))

/-- A message that finds room behind `pending` bytes: as the first one it may fill the buffer, later it must be a
data message for which the free space suffices although its address is counted twice. -/
def Fits (pending : Nat) : Outgoing → Prop
  | .data address moreBit msgData => address ≤ 0x3FFFFFFF ∧
      (pending = 0 ∧ (data address moreBit msgData).frame.length ≤ sendBufferGrowSize ∨
        pending + (data address moreBit msgData).frame.length + rmfNeededEncodingSize address ≤ sendBufferGrowSize)
  | .direct msgData => pending = 0 ∧ (direct msgData).frame.length ≤ sendBufferGrowSize

instance (pending : Nat) (message : Outgoing) : Decidable (message.Fits pending) := by
  cases message <;> exact inferInstanceAs (Decidable (_ ∧ _))

/-- The messages of a session, those that are rejected apart, fit one behind the other. -/
def AllFit (pending : Nat) : List Outgoing → Prop
  | [] => True
  | message :: rest =>
    if message.TooLarge then AllFit pending rest
    else message.Fits pending ∧ AllFit (pending + message.frame.length) rest

instance decidableAllFit (pending : Nat) : (messages : List Outgoing) → Decidable (AllFit pending messages)
  | [] => isTrue trivial
  | message :: rest =>
    have := decidableAllFit pending rest
    have := decidableAllFit (pending + message.frame.length) rest
    inferInstanceAs (Decidable (if message.TooLarge then AllFit pending rest
      else message.Fits pending ∧ AllFit (pending + message.frame.length) rest))

end Outgoing

/-! One message -/

namespace SendBuffer
variable {c : SendBuffer}

theorem store_eq (c : SendBuffer) (offset : Nat) (header msgData : Bytes) :
    let stored : SendBuffer := { c with
      sendBuffer := splice (splice c.sendBuffer offset header) (c.pendingBytes + header.length) msgData
      pendingBytes := c.pendingBytes + header.length + msgData.length }
    c.store offset header msgData =
      if offset + header.length ≤ c.sendBuffer.length ∧
          c.pendingBytes + header.length + msgData.length ≤ c.sendBuffer.length then
        .ok (stored, stored.bufferAvailable)
      else .error .outOfBounds := by
  intro stored
  by_cases first : offset + header.length ≤ c.sendBuffer.length
  swap
  · rw [if_neg fun both => first both.1, store, memcpy, if_neg first]
    rfl
  have length := splice_length first
  by_cases second : c.pendingBytes + header.length + msgData.length ≤ c.sendBuffer.length
  · rw [if_pos ⟨first, second⟩, store, memcpy, if_pos first]
    simp only [bind, Except.bind, memcpy, length, if_pos second]
    rfl
  · rw [if_neg fun both => second both.2, store, memcpy, if_pos first]
    simp only [bind, Except.bind, memcpy, length, if_neg second]

/-- Within a session: the send buffer has its full size. -/
structure Open (c : SendBuffer) : Prop where
  full : c.sendBuffer.length = sendBufferGrowSize
  pending : c.pendingBytes ≤ sendBufferGrowSize

theorem Open.bufferAvailable (isOpen : c.Open) : c.bufferAvailable = sendBufferGrowSize - c.pendingBytes := by
  have pending := isOpen.pending
  rw [SendBuffer.bufferAvailable, isOpen.full]
  rw [sendBufferGrowSize] at pending ⊢
  omega

/-- A message for which the free space does not suffice leaves no buffer to store it in, unless it is the first
one. -/
theorem Open.makeRoom (isOpen : c.Open) (bytesToSend : Nat) :
    (c.pendingBytes = 0 ∨ c.pendingBytes + bytesToSend ≤ sendBufferGrowSize) ∧ c.makeRoom bytesToSend = c ∨
      ¬(c.pendingBytes = 0 ∨ c.pendingBytes + bytesToSend ≤ sendBufferGrowSize) ∧
        (c.makeRoom bytesToSend).sendBuffer = [] := by
  have pending := isOpen.pending
  rw [SendBuffer.makeRoom, isOpen.bufferAvailable]
  by_cases empty : c.pendingBytes = 0
  · have nothing : c.sendPacket = c := by
      rw [sendPacket, if_neg (by omega)]
    refine .inl ⟨.inl empty, ?_⟩
    rw [nothing, ite_self]
  · by_cases room : c.pendingBytes + bytesToSend ≤ sendBufferGrowSize
    · refine .inl ⟨.inr room, ?_⟩
      rw [if_neg (by omega)]
    · refine .inr ⟨fun either => either.elim empty room, ?_⟩
      rw [if_pos (by omega), sendPacket, if_pos (by omega)]

theorem store_flushed {offset : Nat} {header msgData : Bytes} (flushed : c.sendBuffer = []) (filled : header ≠ []) :
    c.store offset header msgData = .error .outOfBounds := by
  rw [store_eq, if_neg]
  rintro ⟨inside, -⟩
  rw [flushed, List.length_nil] at inside
  exact filled (List.length_eq_zero_iff.mp (by omega))

/-- A size that is written into a buffer with room for four bytes -/
theorem numheaderEncode32_of_room {maxBufLen value : Nat} (room : 4 ≤ maxBufLen) (small : value ≤ sendBufferGrowSize) :
    numheaderEncode32 maxBufLen value = some ((numheaderEncode32 4 value).getD []) ∧
      0 < ((numheaderEncode32 4 value).getD []).length ∧ ((numheaderEncode32 4 value).getD []).length ≤ 4 := by
  rw [sendBufferGrowSize] at small
  have encoded (size : Nat) (room : 4 ≤ size) : numheaderEncode32 size value =
      some (if value ≤ 127 then [UInt8.ofNat value] else packBE (value ||| 0x80000000) 4) := by
    rw [numheaderEncode32, if_neg (by omega)]
    by_cases byte : value ≤ 127
    · rw [if_pos byte, if_pos byte]
    · rw [if_neg byte, if_neg byte, if_neg (Nat.not_lt.mpr room)]
  rw [encoded maxBufLen room, encoded 4 (Nat.le_refl 4), Option.getD_some]
  refine ⟨rfl, ?_⟩
  split
  · rw [List.length_singleton]
    exact ⟨Nat.one_pos, by decide⟩
  · rw [packBE_length]
    exact ⟨by decide, Nat.le_refl 4⟩

/-- An address that is written into a buffer with room for four bytes -/
theorem rmfAddressEncode_of_room {bufSize : Nat} (room : 4 ≤ bufSize) (address : Nat) (moreBit : Bool) :
    rmfAddressEncode bufSize address moreBit = rmfAddressEncode 4 address moreBit := by
  have needed : rmfNeededEncodingSize address ≤ 4 := by
    rw [rmfNeededEncodingSize]
    split <;> decide
  have encoded (size : Nat) (room : 4 ≤ size) : rmfAddressEncode size address moreBit =
      if address > 0x3FFFFFFF then [] else
        if rmfNeededEncodingSize address = 2 then packBE ((if moreBit then 0x4000 else 0) ||| address) 2
        else packBE ((if moreBit then 0x80000000 ||| 0x40000000 else 0x80000000) ||| address) 4 := by
    rw [rmfAddressEncode]
    by_cases invalid : address > 0x3FFFFFFF
    · rw [if_pos (.inr invalid), if_pos invalid]
    · rw [if_neg (by omega), if_neg invalid, if_pos (Nat.le_trans needed room)]
  rw [encoded bufSize room, encoded 4 (Nat.le_refl 4)]

theorem transmit_tooLarge {message : Outgoing} (tooLarge : message.TooLarge) :
    c.transmit message = .error (.code .msgTooLarge) := by
  cases message with
  | data address moreBit msgData =>
    rw [transmit, transmitDataMessage]
    exact if_pos tooLarge
  | direct msgData =>
    rw [transmit, transmitDirectMessage]
    exact if_pos tooLarge

/-- A call that ends the run -/
def Ends {α : Type} (result : Except Failure α) : Prop := result = .error .assertion ∨ result = .error .outOfBounds

theorem Outgoing.data_frame {address : Nat} (moreBit : Bool) (msgData : Bytes) :
    (Outgoing.data address moreBit msgData).frame =
      (numheaderEncode32 4 (rmfNeededEncodingSize address + msgData.length)).getD [] ++
        rmfAddressEncode 4 address moreBit ++ msgData := rfl

/-- What a direct message leaves when something is pending: its header stands at the start of the buffer. -/
def overwritten (c : SendBuffer) (message : Outgoing) : SendBuffer := { c with
  sendBuffer := splice (splice c.sendBuffer 0 message.header) (c.pendingBytes + message.header.length) message.msgData
  pendingBytes := c.pendingBytes + message.frame.length }

/-- What a message leaves that is stored behind what is pending -/
def appended (c : SendBuffer) (message : Outgoing) : SendBuffer := { c with
  sendBuffer := splice c.sendBuffer c.pendingBytes message.frame
  pendingBytes := c.pendingBytes + message.frame.length }

theorem Open.transmit_data (isOpen : c.Open) {address : Nat} {moreBit : Bool} {msgData : Bytes}
    (small : ¬(Outgoing.data address moreBit msgData).TooLarge) :
    ((Outgoing.data address moreBit msgData).Fits c.pendingBytes →
      c.transmit (.data address moreBit msgData) = .ok (c.appended (.data address moreBit msgData),
        (c.appended (.data address moreBit msgData)).bufferAvailable)) ∧
    (¬(Outgoing.data address moreBit msgData).Fits c.pendingBytes →
      Ends (c.transmit (.data address moreBit msgData))) := by
  rw [Outgoing.TooLarge, Nat.not_lt] at small
  obtain ⟨encoded, filled, short⟩ := @numheaderEncode32_of_room 8 _ (by decide) small
  rw [Outgoing.Fits, appended, Outgoing.data_frame]
  generalize (numheaderEncode32 4 (rmfNeededEncodingSize address + msgData.length)).getD [] = header1
    at encoded filled short ⊢
  have room : 4 ≤ 8 - header1.length := by omega
  have call : c.transmit (.data address moreBit msgData) =
      if (rmfAddressEncode 4 address moreBit).length ≠ rmfNeededEncodingSize address then .error .assertion else
        let c := c.makeRoom (header1.length + (rmfAddressEncode 4 address moreBit).length +
          (rmfNeededEncodingSize address + msgData.length))
        c.store c.pendingBytes (header1 ++ rmfAddressEncode 4 address moreBit) msgData := by
    rw [transmit, transmitDataMessage]
    simp only [if_neg (Nat.not_lt.mpr small), encoded, rmfAddressEncode_of_room room]
  by_cases valid : address ≤ 0x3FFFFFFF
  swap
  · refine ⟨fun fits => absurd fits.1 valid, fun _ => .inl ?_⟩
    rw [call, if_pos]
    rw [rmfAddressEncode, if_pos (.inr (by omega)), rmfNeededEncodingSize]
    split <;> decide
  have length2 := rmfAddressEncode_length moreBit (Nat.le_refl 4) valid
  have size : (header1 ++ rmfAddressEncode 4 address moreBit ++ msgData).length =
      header1.length + rmfNeededEncodingSize address + msgData.length := by
    rw [List.length_append, List.length_append, length2]
  have filled' : header1 ++ rmfAddressEncode 4 address moreBit ≠ [] := by
    intro empty
    rw [(List.append_eq_nil_iff.mp empty).1] at filled
    contradiction
  have pending := isOpen.pending
  rw [call, if_neg (not_not_intro length2), length2, size]
  rcases isOpen.makeRoom (header1.length + rmfNeededEncodingSize address +
    (rmfNeededEncodingSize address + msgData.length)) with ⟨enough, same⟩ | ⟨full, flushed⟩
  · simp only [same, store_eq, isOpen.full, List.length_append, length2]
    have whole := @splice_splice c.sendBuffer c.pendingBytes (header1 ++ rmfAddressEncode 4 address moreBit) msgData
      (by rw [isOpen.full]; exact pending)
    rw [List.length_append, length2] at whole
    by_cases inside : c.pendingBytes + (header1.length + rmfNeededEncodingSize address) + msgData.length ≤
        sendBufferGrowSize
    · rw [if_pos ⟨by omega, inside⟩, whole]
      rw [Nat.add_assoc c.pendingBytes (header1.length + rmfNeededEncodingSize address)]
      refine ⟨fun _ => rfl, fun beyond => absurd ⟨valid, ?_⟩ beyond⟩
      rcases enough with first | enough
      · exact .inl ⟨first, by omega⟩
      · exact .inr (by omega)
    · rw [if_neg fun both => inside both.2]
      refine ⟨fun fits => ?_, fun _ => .inr rfl⟩
      exfalso
      rcases fits.2 with ⟨first, fits⟩ | fits <;> omega
  · refine ⟨fun fits => absurd (fits.2.imp And.left fun room => ?_) full, fun _ => .inr ?_⟩
    · omega
    · exact store_flushed flushed filled'

theorem Open.transmit_direct (isOpen : c.Open) {msgData : Bytes} (small : ¬(Outgoing.direct msgData).TooLarge) :
    ((Outgoing.direct msgData).Fits c.pendingBytes →
      c.transmit (.direct msgData) = .ok (c.appended (.direct msgData), (c.appended (.direct msgData)).bufferAvailable)) ∧
    (¬(Outgoing.direct msgData).Fits c.pendingBytes → Ends (c.transmit (.direct msgData)) ∨
      0 < c.pendingBytes ∧ c.pendingBytes + (Outgoing.direct msgData).frame.length ≤ sendBufferGrowSize ∧
      c.transmit (.direct msgData) =
        .ok (c.overwritten (.direct msgData), (c.overwritten (.direct msgData)).bufferAvailable)) := by
  rw [Outgoing.TooLarge, Nat.not_lt] at small
  obtain ⟨encoded, filled, short⟩ := @numheaderEncode32_of_room 4 _ (Nat.le_refl 4) small
  have call : c.transmit (.direct msgData) =
      (c.makeRoom ((Outgoing.direct msgData).header.length + msgData.length)).store 0
        (Outgoing.direct msgData).header msgData := by
    rw [transmit, transmitDirectMessage]
    simp only [if_neg (Nat.not_lt.mpr small)]
    rw [encoded]
    rfl
  have size : (Outgoing.direct msgData).frame.length =
      (Outgoing.direct msgData).header.length + msgData.length := by
    rw [Outgoing.frame, List.length_append]
    rfl
  have filled' : (Outgoing.direct msgData).header ≠ [] := List.length_pos_iff.mp filled
  have short' : (Outgoing.direct msgData).header.length ≤ 4 := short
  have whole := @splice_splice c.sendBuffer 0 (Outgoing.direct msgData).header msgData (Nat.zero_le _)
  rw [Nat.zero_add] at whole
  have large : sendBufferGrowSize = 4096 := rfl
  rw [call, Outgoing.Fits, size]
  rcases isOpen.makeRoom ((Outgoing.direct msgData).header.length + msgData.length) with
    ⟨enough, same⟩ | ⟨full, flushed⟩
  · rw [same, store_eq, isOpen.full]
    by_cases inside : c.pendingBytes + (Outgoing.direct msgData).header.length + msgData.length ≤ sendBufferGrowSize
    · rw [if_pos ⟨by omega, inside⟩]
      by_cases first : c.pendingBytes = 0
      · refine ⟨fun _ => ?_, fun beyond => absurd ⟨first, by omega⟩ beyond⟩
        rw [appended, first, size, Nat.zero_add, Nat.zero_add, whole]
        rfl
      · refine ⟨fun fits => absurd fits.1 first, fun _ => .inr ⟨by omega, by omega, ?_⟩⟩
        rw [overwritten, size, Nat.add_assoc]
        rfl
    · rw [if_neg fun both => inside both.2]
      exact ⟨fun fits => absurd (by omega) inside, fun _ => .inl (.inr rfl)⟩
  · refine ⟨fun fits => absurd (.inl fits.1) full, fun _ => .inl (.inr ?_)⟩
    exact store_flushed flushed filled'

/-! A session -/

/-- A message that is stored where it belongs, one that overwrites the start of the buffer, or the end of the run -/
theorem Open.transmit_cases (isOpen : c.Open) {message : Outgoing} (small : ¬message.TooLarge) :
    message.Fits c.pendingBytes ∧ c.pendingBytes + message.frame.length ≤ sendBufferGrowSize ∧
      c.transmit message = .ok (c.appended message, (c.appended message).bufferAvailable) ∨
    ¬message.Fits c.pendingBytes ∧ (Ends (c.transmit message) ∨
      0 < c.pendingBytes ∧ c.pendingBytes + message.frame.length ≤ sendBufferGrowSize ∧
      (∃ msgData, message = .direct msgData) ∧
      c.transmit message = .ok (c.overwritten message, (c.overwritten message).bufferAvailable)) := by
  by_cases fits : message.Fits c.pendingBytes
  · refine .inl ⟨fits, ?_, ?_⟩
    · cases message with
      | data address moreBit msgData => rcases fits.2 with fits | fits <;> omega
      | direct msgData =>
        rw [fits.1, Nat.zero_add]
        exact fits.2
    · cases message with
      | data address moreBit msgData => exact (isOpen.transmit_data small).1 fits
      | direct msgData => exact (isOpen.transmit_direct small).1 fits
  · refine .inr ⟨fits, ?_⟩
    cases message with
    | data address moreBit msgData => exact .inl ((isOpen.transmit_data small).2 fits)
    | direct msgData =>
      refine ((isOpen.transmit_direct small).2 fits).imp_right fun ⟨behind, inside, done⟩ => ?_
      exact ⟨behind, inside, ⟨_, rfl⟩, done⟩

theorem Open.stored_length (isOpen : c.Open) {offset : Nat} {data : Bytes}
    (inside : offset + data.length ≤ sendBufferGrowSize) :
    (splice c.sendBuffer offset data).length = sendBufferGrowSize := by
  rw [splice_length (by rw [isOpen.full]; exact inside), isOpen.full]

theorem Open.appended (isOpen : c.Open) {message : Outgoing}
    (inside : c.pendingBytes + message.frame.length ≤ sendBufferGrowSize) : (c.appended message).Open :=
  ⟨isOpen.stored_length inside, inside⟩

theorem Open.overwritten (isOpen : c.Open) {message : Outgoing}
    (inside : c.pendingBytes + message.frame.length ≤ sendBufferGrowSize) : (c.overwritten message).Open := by
  have size : message.frame.length = message.header.length + message.msgData.length := List.length_append
  refine ⟨?_, inside⟩
  have first := @Open.stored_length c isOpen 0 message.header (by omega)
  exact (splice_length (by rw [first]; omega)).trans first

theorem Open.pending_appended (isOpen : c.Open) (message : Outgoing) :
    (c.appended message).sendBuffer.take (c.appended message).pendingBytes =
      c.sendBuffer.take c.pendingBytes ++ message.frame := by
  have pending : (c.sendBuffer.take c.pendingBytes).length = c.pendingBytes := by
    rw [List.length_take, isOpen.full]
    exact Nat.min_eq_left isOpen.pending
  rw [SendBuffer.appended, splice]
  exact List.take_left' (by rw [List.length_append, pending])

/-! The model of a connection that has only the length of its buffer and what is pending: what is stored here is
pending there. -/

/-- The connection without the rest of its buffer -/
def connection (capacity : Nat) (c : SendBuffer) : SocketConnection where
  sendBuffer := ⟨c.sendBuffer.length, capacity⟩
  pending := c.sendBuffer.take c.pendingBytes
  sent := c.sent.flatten

theorem Open.connection_pending (isOpen : c.Open) (capacity : Nat) :
    (c.connection capacity).pending.length = c.pendingBytes := by
  rw [connection, List.length_take, isOpen.full]
  exact Nat.min_eq_left isOpen.pending

/-- A message that fits is not in need of a flush. -/
theorem Open.connection_makeRoom (isOpen : c.Open) (capacity : Nat) (clear : ByteArea → ByteArea) {bytesToSend : Nat}
    (enough : c.pendingBytes = 0 ∨ c.pendingBytes + bytesToSend ≤ sendBufferGrowSize) :
    (c.connection capacity).makeRoom clear bytesToSend = c.connection capacity := by
  have pending := isOpen.connection_pending capacity
  have available : (c.connection capacity).bufferAvailable = sendBufferGrowSize - c.pendingBytes := by
    rw [SocketConnection.bufferAvailable, pending]
    exact isOpen.bufferAvailable
  rw [SocketConnection.makeRoom, available]
  rcases enough with empty | room
  · have nothing : (c.connection capacity).sendPacket clear = c.connection capacity := by
      rw [SocketConnection.sendPacket, pending, if_neg (by omega)]
    rw [nothing, ite_self]
  · rw [if_neg (by omega)]

/-- A data message that is stored here is sent there, whatever memory is behind the buffer. -/
theorem Open.connection_transmitDataMessage (isOpen : c.Open) {capacity : Nat}
    (memory : sendBufferGrowSize ≤ capacity) (clear : ByteArea → ByteArea) {address : Nat} {moreBit : Bool}
    {msgData : Bytes} {c' : SendBuffer} {available : Nat}
    (stored : c.transmitDataMessage address moreBit msgData = .ok (c', available)) :
    (c.connection capacity).transmitDataMessage clear address moreBit msgData = .ok (c'.connection capacity) := by
  have small : ¬(Outgoing.data address moreBit msgData).TooLarge := by
    intro tooLarge
    cases stored.symm.trans (@transmit_tooLarge c (.data address moreBit msgData) tooLarge)
  rcases isOpen.transmit_cases small with ⟨fits, inside, done⟩ | ⟨-, (failed | failed) | ⟨-, -, ⟨_, direct⟩, -⟩⟩
  · obtain ⟨rfl, -⟩ := Prod.mk.inj (Except.ok.inj (stored.symm.trans done))
    rw [Outgoing.TooLarge, Nat.not_lt] at small
    obtain ⟨encoded, -, short⟩ := @numheaderEncode32_of_room 8 _ (by decide) small
    have pending := isOpen.pending_appended (.data address moreBit msgData)
    have full := (isOpen.appended inside).full
    rw [Outgoing.data_frame] at pending
    rw [Outgoing.Fits, Outgoing.data_frame] at fits
    rw [Outgoing.data_frame] at inside
    generalize (numheaderEncode32 4 (rmfNeededEncodingSize address + msgData.length)).getD [] = header1
      at encoded short pending fits inside
    have length2 := rmfAddressEncode_length moreBit (Nat.le_refl 4) fits.1
    simp only [List.length_append, length2] at fits inside
    have room := @Open.connection_makeRoom c isOpen capacity clear (header1.length + rmfNeededEncodingSize address +
      (rmfNeededEncodingSize address + msgData.length)) (fits.2.imp And.left (by omega))
    rw [SocketConnection.transmitDataMessage]
    simp only [if_neg (Nat.not_lt.mpr small), encoded, rmfAddressEncode_of_room (show 4 ≤ 8 - header1.length by omega),
      length2, ne_eq, not_true_eq_false, if_false, room, isOpen.connection_pending]
    have stores : c.pendingBytes + (header1.length + rmfNeededEncodingSize address) + msgData.length ≤
        (c.connection capacity).sendBuffer.capacity := by
      show _ ≤ capacity
      omega
    rw [if_pos stores, connection, connection, pending, full, isOpen.full, List.append_assoc, List.append_assoc]
    rfl
  · cases stored.symm.trans failed
  · cases stored.symm.trans failed
  · cases direct

theorem transmitAll_ok {message : Outgoing} {c' : SendBuffer} {available : Nat}
    (done : c.transmit message = .ok (c', available)) (rest : List Outgoing) :
    c.transmitAll (message :: rest) = (c'.transmitAll rest).map fun (c, accepted) => (c, message :: accepted) := by
  rw [transmitAll, done]
  dsimp only
  cases c'.transmitAll rest <;> rfl

theorem transmitAll_tooLarge {message : Outgoing} (tooLarge : message.TooLarge) (rest : List Outgoing) :
    c.transmitAll (message :: rest) = c.transmitAll rest := by
  rw [transmitAll, transmit_tooLarge tooLarge]

theorem transmitAll_ends {message : Outgoing} (ends : Ends (c.transmit message)) (rest : List Outgoing) :
    Ends (c.transmitAll (message :: rest)) := by
  rw [transmitAll]
  rcases ends with failed | failed
  · rw [failed]
    exact .inl rfl
  · rw [failed]
    exact .inr rfl

theorem header_ne_nil {message : Outgoing} (small : ¬message.TooLarge) : message.header ≠ [] := by
  intro header
  cases message with
  | data address moreBit msgData =>
    rw [Outgoing.TooLarge, Nat.not_lt] at small
    obtain ⟨-, filled, -⟩ := @numheaderEncode32_of_room 4 _ (Nat.le_refl 4) small
    rw [Outgoing.header, List.append_eq_nil_iff] at header
    rw [header.1] at filled
    contradiction
  | direct msgData =>
    rw [Outgoing.TooLarge, Nat.not_lt] at small
    obtain ⟨-, filled, -⟩ := @numheaderEncode32_of_room 4 _ (Nat.le_refl 4) small
    rw [Outgoing.header] at header
    rw [header] at filled
    contradiction

theorem frame_ne_nil {message : Outgoing} (small : ¬message.TooLarge) : message.frame ≠ [] :=
  fun empty => header_ne_nil small (List.append_eq_nil_iff.mp empty).1

/-- What a session that returns has stored, in the right places or not -/
structure Stored (c c' : SendBuffer) (accepted : List Outgoing) : Prop where
  isOpen : c'.Open
  sent : c'.sent = c.sent
  pending : c'.pendingBytes = c.pendingBytes + (accepted.flatMap Outgoing.frame).length
  nothing : accepted = [] → c' = c
  filled : accepted ≠ [] → 0 < c'.pendingBytes

theorem Stored.cons {c₁ c' : SendBuffer} {message : Outgoing} {accepted : List Outgoing}
    (small : ¬message.TooLarge) (pending : c₁.pendingBytes = c.pendingBytes + message.frame.length)
    (sent : c₁.sent = c.sent) (stored : Stored c₁ c' accepted) : Stored c c' (message :: accepted) := by
  have frame := List.length_pos_iff.mpr (frame_ne_nil small)
  refine ⟨stored.isOpen, stored.sent.trans sent, ?_, nofun, fun _ => ?_⟩
  · rw [stored.pending, pending, List.flatMap_cons, List.length_append, Nat.add_assoc]
  · rw [stored.pending, pending]
    omega

theorem Open.transmitAll_stored (isOpen : c.Open) {messages accepted : List Outgoing} {c' : SendBuffer}
    (done : c.transmitAll messages = .ok (c', accepted)) : Stored c c' accepted := by
  induction messages generalizing c accepted with
  | nil =>
    cases done
    exact ⟨isOpen, rfl, rfl, fun _ => rfl, fun some => absurd rfl some⟩
  | cons message rest ih =>
    by_cases tooLarge : message.TooLarge
    · rw [transmitAll_tooLarge tooLarge] at done
      exact ih isOpen done
    · have behind {c₁ : SendBuffer} {available : Nat} (open₁ : c₁.Open)
          (pending : c₁.pendingBytes = c.pendingBytes + message.frame.length) (sent : c₁.sent = c.sent)
          (first : c.transmit message = .ok (c₁, available)) : Stored c c' accepted := by
        rw [transmitAll_ok first] at done
        cases later : c₁.transmitAll rest with
        | error failure =>
          rw [later] at done
          contradiction
        | ok result =>
          rw [later] at done
          cases done
          exact (ih open₁ later).cons tooLarge pending sent
      rcases isOpen.transmit_cases tooLarge with ⟨-, inside, first⟩ | ⟨-, ends | ⟨-, inside, -, first⟩⟩
      · exact behind (isOpen.appended inside) rfl rfl first
      · have failed := transmitAll_ends ends rest
        rw [done] at failed
        rcases failed with failed | failed <;> contradiction
      · exact behind (isOpen.overwritten inside) rfl rfl first

theorem Open.transmitAll_allFit (isOpen : c.Open) {messages : List Outgoing}
    (allFit : Outgoing.AllFit c.pendingBytes messages) :
    ∃ c' accepted, c.transmitAll messages = .ok (c', accepted) ∧
      c'.sendBuffer.take c'.pendingBytes = c.sendBuffer.take c.pendingBytes ++ accepted.flatMap Outgoing.frame := by
  induction messages generalizing c with
  | nil => exact ⟨c, [], rfl, (List.append_nil _).symm⟩
  | cons message rest ih =>
    rw [Outgoing.AllFit] at allFit
    by_cases tooLarge : message.TooLarge
    · rw [if_pos tooLarge] at allFit
      rw [transmitAll_tooLarge tooLarge]
      exact ih isOpen allFit
    · rw [if_neg tooLarge] at allFit
      rcases isOpen.transmit_cases tooLarge with ⟨-, inside, first⟩ | ⟨beyond, -⟩
      · obtain ⟨c', accepted, done, pending⟩ := ih (isOpen.appended inside) allFit.2
        refine ⟨c', message :: accepted, ?_, ?_⟩
        · rw [transmitAll_ok first, done]
          rfl
        · rw [pending, isOpen.pending_appended, List.flatMap_cons, List.append_assoc]
      · exact absurd allFit.1 beyond

/-! Sessions whose messages do not fit -/

/-- A direct message is accepted among these. -/
def HasDirect (messages : List Outgoing) : Prop :=
  ∃ msgData, Outgoing.direct msgData ∈ messages ∧ ¬(Outgoing.direct msgData).TooLarge

/-- Data messages that do not fit end the run. -/
theorem Open.transmitAll_beyond (isOpen : c.Open) {messages : List Outgoing} (noDirect : ¬HasDirect messages)
    (beyond : ¬Outgoing.AllFit c.pendingBytes messages) : Ends (c.transmitAll messages) := by
  induction messages generalizing c with
  | nil => exact absurd trivial beyond
  | cons message rest ih =>
    have noDirect' : ¬HasDirect rest := fun ⟨msgData, mem, small⟩ => noDirect ⟨msgData, .tail _ mem, small⟩
    rw [Outgoing.AllFit] at beyond
    by_cases tooLarge : message.TooLarge
    · rw [if_pos tooLarge] at beyond
      rw [transmitAll_tooLarge tooLarge]
      exact ih isOpen noDirect' beyond
    · rw [if_neg tooLarge] at beyond
      rcases isOpen.transmit_cases tooLarge with ⟨fits, inside, first⟩ | ⟨-, ends | ⟨-, -, ⟨msgData, rfl⟩, -⟩⟩
      · have later := ih (isOpen.appended inside) noDirect' fun all => beyond ⟨fits, all⟩
        rw [transmitAll_ok first]
        rcases later with failed | failed
        · rw [failed]
          exact .inl rfl
        · rw [failed]
          exact .inr rfl
      · exact transmitAll_ends ends rest
      · exact absurd ⟨msgData, .head _, tooLarge⟩ noDirect

/-- Data messages alone are stored where they belong, unless they end the run. -/
theorem Open.transmitAll_noDirect (isOpen : c.Open) {messages accepted : List Outgoing} {c' : SendBuffer}
    (noDirect : ¬HasDirect messages) (done : c.transmitAll messages = .ok (c', accepted)) :
    c'.sendBuffer.take c'.pendingBytes = c.sendBuffer.take c.pendingBytes ++ accepted.flatMap Outgoing.frame := by
  by_cases fit : Outgoing.AllFit c.pendingBytes messages
  · obtain ⟨_, _, done', stored⟩ := isOpen.transmitAll_allFit fit
    rw [done] at done'
    cases done'
    exact stored
  · have failed := isOpen.transmitAll_beyond noDirect fit
    rw [done] at failed
    rcases failed with failed | failed <;> contradiction

/-- The buffer with `back` as what the memory holds behind what is pending -/
def holding (front back : Bytes) (sent : List Bytes) : SendBuffer :=
  { sendBuffer := front ++ back, pendingBytes := front.length, sent := sent }

theorem holding_open {front back : Bytes} (full : (front ++ back).length = sendBufferGrowSize) (sent : List Bytes) :
    (holding front back sent).Open := by
  refine ⟨full, ?_⟩
  rw [List.length_append] at full
  exact Nat.le.intro full

theorem holding_appended (front back : Bytes) (sent : List Bytes) (message : Outgoing) {before : Bytes}
    (length : before.length = message.frame.length) :
    (holding front (before ++ back) sent).appended message = holding (front ++ message.frame) back sent := by
  rw [appended, holding, holding, splice_append, List.drop_left' length, List.length_append]

/-- A run that does not come to a wanted content, whatever was sent before -/
def Misses (front wanted : Bytes) (messages : List Outgoing) (back : Bytes) : Prop :=
  (front ++ back).length = sendBufferGrowSize ∧
    ∀ sent c' accepted, (holding front back sent).transmitAll messages = .ok (c', accepted) →
      c'.sendBuffer.take c'.pendingBytes ≠ wanted ++ accepted.flatMap Outgoing.frame

theorem Misses.cons {front wanted front' wanted' before back : Bytes} {message : Outgoing} {rest : List Outgoing}
    (small : ¬message.TooLarge) (length : (front ++ (before ++ back)).length = sendBufferGrowSize)
    (wanted_eq : wanted' = wanted ++ message.frame)
    (first : ∀ sent c' available, (holding front (before ++ back) sent).transmit message = .ok (c', available) →
      c' = holding front' back sent)
    (misses : Misses front' wanted' rest back) : Misses front wanted (message :: rest) (before ++ back) := by
  refine ⟨length, fun sent c' accepted done => ?_⟩
  cases transmitted : (holding front (before ++ back) sent).transmit message with
  | error failure =>
    rcases (holding_open length sent).transmit_cases small with ⟨-, -, ok⟩ | ⟨-, ends | ⟨-, -, -, ok⟩⟩
    · rw [transmitted] at ok
      contradiction
    · have failed := transmitAll_ends ends rest
      rw [done] at failed
      rcases failed with failed | failed <;> contradiction
    · rw [transmitted] at ok
      contradiction
  | ok result =>
    obtain ⟨c₁, available⟩ := result
    obtain rfl := first sent c₁ available transmitted
    rw [transmitAll_ok transmitted] at done
    cases later : (holding front' back sent).transmitAll rest with
    | error failure =>
      rw [later] at done
      contradiction
    | ok result =>
      obtain ⟨c₂, accepted₂⟩ := result
      rw [later] at done
      cases done
      rw [List.flatMap_cons, ← List.append_assoc, ← wanted_eq]
      exact misses.2 sent _ _ later

/-- A run that ends misses everything. -/
theorem misses_of_ends {front wanted back : Bytes} {messages : List Outgoing}
    (length : (front ++ back).length = sendBufferGrowSize)
    (ends : ∀ sent, Ends ((holding front back sent).transmitAll messages)) : Misses front wanted messages back := by
  refine ⟨length, fun sent c' accepted done => ?_⟩
  have failed := ends sent
  rw [done] at failed
  rcases failed with failed | failed <;> contradiction

/-- What a direct message leaves of a front with a gap behind it -/
theorem holding_overwritten {front gap : Bytes} (msgData back : Bytes) (sent : List Bytes)
    (length : gap.length = (Outgoing.direct msgData).header.length) :
    (holding front (gap ++ msgData ++ back) sent).overwritten (.direct msgData) =
      holding ((Outgoing.direct msgData).header ++ (front ++ gap).drop (Outgoing.direct msgData).header.length ++
        msgData) back sent := by
  have header : splice (front ++ (gap ++ msgData ++ back)) 0 (Outgoing.direct msgData).header =
      (Outgoing.direct msgData).header ++ (front ++ gap).drop (Outgoing.direct msgData).header.length ++
        (msgData ++ back) := by
    have inside : (Outgoing.direct msgData).header.length ≤ (front ++ gap).length := by
      rw [List.length_append]
      omega
    have whole : front ++ (gap ++ msgData ++ back) = (front ++ gap) ++ (msgData ++ back) := by
      simp only [List.append_assoc]
    rw [whole, splice, List.take_zero, List.nil_append, Nat.zero_add, List.drop_append_of_le_length inside,
      List.append_assoc]
  have start : front.length + (Outgoing.direct msgData).header.length =
      ((Outgoing.direct msgData).header ++ (front ++ gap).drop (Outgoing.direct msgData).header.length).length := by
    rw [List.length_append, List.length_drop, List.length_append]
    omega
  have frame : (Outgoing.direct msgData).frame.length = (Outgoing.direct msgData).header.length + msgData.length :=
    List.length_append
  rw [overwritten, holding, holding]
  simp only
  rw [header, frame, start]
  have stored := splice_append ((Outgoing.direct msgData).header ++
    (front ++ gap).drop (Outgoing.direct msgData).header.length) (msgData ++ back) msgData
  rw [List.drop_left] at stored
  have total : ((Outgoing.direct msgData).header ++ (front ++ gap).drop (Outgoing.direct msgData).header.length ++
      msgData).length = front.length + ((Outgoing.direct msgData).header.length + msgData.length) := by
    rw [List.length_append, ← start, Nat.add_assoc]
  rw [show (Outgoing.direct msgData).msgData = msgData from rfl, stored, total]

/-- Where a header goes to the start of the buffer, what stands in its place behind the front is what the memory held
before. -/
theorem exists_stale {front header : Bytes} (filled : front ≠ []) (some_ : header ≠ []) :
    ∃ gap, gap.length = header.length ∧
      ∀ wanted, header ++ (front ++ gap).drop header.length ≠ wanted ++ header := by
  obtain ⟨init, last, split⟩ := (List.eq_nil_or_concat header).resolve_left some_
  rw [List.concat_eq_append] at split
  have size : header.length = init.length + 1 := by rw [split, List.length_append, List.length_singleton]
  refine ⟨List.replicate init.length 0 ++ [last + 1], ?_, fun wanted same => ?_⟩
  · rw [List.length_append, List.length_replicate, List.length_singleton, size]
  have inside : header.length ≤ (front ++ List.replicate init.length 0).length := by
    have behind := List.length_pos_iff.mpr filled
    rw [List.length_append, List.length_replicate]
    omega
  rw [← List.append_assoc, List.drop_append_of_le_length inside, ← List.append_assoc] at same
  nth_rewrite 3 [split] at same
  rw [← List.append_assoc] at same
  have lastByte := List.append_inj_right' same rfl
  simp at lastByte

/-- A direct message behind other messages misses the wanted content, for some content of the memory. -/
theorem exists_misses {messages : List Outgoing} (direct : HasDirect messages) {front wanted : Bytes}
    (filled : front ≠ []) (fits : front.length ≤ sendBufferGrowSize) (length : wanted.length = front.length) :
    ∃ back, Misses front wanted messages back := by
  have zeros (front : Bytes) (fits : front.length ≤ sendBufferGrowSize) :
      (front ++ List.replicate (sendBufferGrowSize - front.length) 0).length = sendBufferGrowSize := by
    rw [List.length_append, List.length_replicate]
    omega
  induction messages generalizing front wanted with
  | nil =>
    obtain ⟨_, mem, -⟩ := direct
    contradiction
  | cons message rest ih =>
    by_cases tooLarge : message.TooLarge
    · -- a message that is rejected changes nothing
      obtain ⟨msgData, mem, small⟩ := direct
      have mem' : Outgoing.direct msgData ∈ rest := by
        refine (List.mem_cons.mp mem).resolve_left ?_
        rintro rfl
        exact small tooLarge
      obtain ⟨back, full, misses⟩ := ih ⟨msgData, mem', small⟩ filled fits length
      refine ⟨back, full, fun sent c' accepted done => ?_⟩
      rw [transmitAll_tooLarge tooLarge] at done
      exact misses sent c' accepted done
    have size : message.frame.length = message.header.length + message.msgData.length := List.length_append
    by_cases inside : front.length + message.frame.length ≤ sendBufferGrowSize
    swap
    · refine ⟨_, misses_of_ends (zeros front fits) fun sent => transmitAll_ends ?_ rest⟩
      rcases (holding_open (zeros front fits) sent).transmit_cases tooLarge with
        ⟨-, room, -⟩ | ⟨-, ends | ⟨-, room, -⟩⟩
      · exact absurd room inside
      · exact ends
      · exact absurd room inside
    cases message with
    | data address moreBit msgData =>
      have direct' : HasDirect rest := by
        obtain ⟨msgData', mem, small⟩ := direct
        exact ⟨msgData', (List.mem_cons.mp mem).resolve_left Outgoing.noConfusion, small⟩
      obtain ⟨back, misses⟩ := @ih direct' (front ++ (Outgoing.data address moreBit msgData).frame)
        (wanted ++ (Outgoing.data address moreBit msgData).frame)
        (fun empty => filled (List.append_eq_nil_iff.mp empty).1)
        (by rwa [List.length_append]) (by rw [List.length_append, List.length_append, length])
      have total := misses.1
      rw [List.append_assoc] at total
      refine ⟨_, Misses.cons tooLarge total rfl (fun sent c' available done => ?_) misses⟩
      rcases (holding_open total sent).transmit_cases tooLarge with ⟨-, -, ok⟩ | ⟨-, ends | ⟨-, -, ⟨_, other⟩, -⟩⟩
      · rw [done] at ok
        cases ok
        exact holding_appended front back sent _ rfl
      · rw [done] at ends
        rcases ends with failed | failed <;> contradiction
      · contradiction
    | direct msgData =>
      have filled' := header_ne_nil tooLarge
      have behind {gap back : Bytes} (gapLength : gap.length = (Outgoing.direct msgData).header.length)
          (misses : Misses ((Outgoing.direct msgData).header ++
            (front ++ gap).drop (Outgoing.direct msgData).header.length ++ msgData)
            (wanted ++ (Outgoing.direct msgData).frame) rest back) :
          Misses front wanted (.direct msgData :: rest) (gap ++ msgData ++ back) := by
        have total := misses.1
        simp only [List.length_append, List.length_drop] at total
        have total' : (front ++ (gap ++ msgData ++ back)).length = sendBufferGrowSize := by
          simp only [List.length_append]
          omega
        refine Misses.cons tooLarge total' rfl (fun sent c' available done => ?_) misses
        rcases (holding_open total' sent).transmit_cases tooLarge with ⟨fitting, -⟩ | ⟨-, ends | ⟨-, -, -, ok⟩⟩
        · exact absurd (List.length_eq_zero_iff.mp fitting.1) filled
        · rw [done] at ends
          rcases ends with failed | failed <;> contradiction
        · rw [done] at ok
          cases ok
          exact holding_overwritten msgData back sent gapLength
      have frontLength {gap : Bytes} (gapLength : gap.length = (Outgoing.direct msgData).header.length) :
          ((Outgoing.direct msgData).header ++ (front ++ gap).drop (Outgoing.direct msgData).header.length ++
            msgData).length = front.length + (Outgoing.direct msgData).frame.length := by
        simp only [List.length_append, List.length_drop, size]
        rw [show (Outgoing.direct msgData).msgData = msgData from rfl]
        omega
      by_cases direct' : HasDirect rest
      · have gapLength := @List.length_replicate _ (Outgoing.direct msgData).header.length (0 : Byte)
        have length' := frontLength gapLength
        obtain ⟨back, misses⟩ := @ih direct' _ (wanted ++ (Outgoing.direct msgData).frame)
          (fun empty => filled' (List.append_eq_nil_iff.mp (List.append_eq_nil_iff.mp empty).1).1)
          (by rw [length']; exact inside) (by rw [length', List.length_append, length])
        exact ⟨_, behind gapLength misses⟩
      · obtain ⟨gap, gapLength, stale⟩ := exists_stale filled filled'
        have length' := frontLength gapLength
        have full := zeros _ (by rw [length']; exact inside)
        refine ⟨_, behind gapLength ⟨full, fun sent c' accepted done equal => ?_⟩⟩
        rw [(holding_open full sent).transmitAll_noDirect direct' done] at equal
        have same := List.append_cancel_right equal
        have frame : (Outgoing.direct msgData).frame = (Outgoing.direct msgData).header ++ msgData := rfl
        rw [holding, List.take_left, frame, ← List.append_assoc wanted] at same
        exact stale wanted (List.append_cancel_right same)

/-- A session with a message that does not fit misses its frames, for some content of the memory. -/
theorem exists_misses_session {messages : List Outgoing} (beyond : ¬Outgoing.AllFit 0 messages) :
    ∃ memory, Misses [] [] messages memory := by
  induction messages with
  | nil => exact absurd trivial beyond
  | cons message rest ih =>
    rw [Outgoing.AllFit] at beyond
    by_cases tooLarge : message.TooLarge
    · rw [if_pos tooLarge] at beyond
      obtain ⟨memory, full, misses⟩ := ih beyond
      refine ⟨memory, full, fun sent c' accepted done => ?_⟩
      rw [transmitAll_tooLarge tooLarge] at done
      exact misses sent c' accepted done
    rw [if_neg tooLarge] at beyond
    have memory {size : Nat} (inside : size ≤ sendBufferGrowSize) (front : Bytes) (length : front.length = size) :
        (front ++ List.replicate (sendBufferGrowSize - size) 0).length = sendBufferGrowSize := by
      rw [List.length_append, List.length_replicate, length]
      omega
    have empty := @memory 0 (Nat.zero_le _) [] rfl
    rcases (holding_open empty []).transmit_cases tooLarge with ⟨fits, inside, -⟩ | ⟨beyond', -⟩
    · -- the first message is stored, and what comes behind it does not fit
      have inside' : message.frame.length ≤ sendBufferGrowSize := by
        rwa [holding, List.length_nil, Nat.zero_add] at inside
      have behind : ¬Outgoing.AllFit message.frame.length rest := fun all => beyond ⟨fits, by rwa [Nat.zero_add]⟩
      obtain ⟨back, misses⟩ : ∃ back, Misses message.frame message.frame rest back := by
        by_cases direct : HasDirect rest
        · exact exists_misses direct (frame_ne_nil tooLarge) inside' rfl
        · have full := memory inside' message.frame rfl
          exact ⟨_, misses_of_ends full fun sent => (holding_open full sent).transmitAll_beyond direct behind⟩
      refine ⟨_, Misses.cons tooLarge misses.1 (List.nil_append _).symm (fun sent c' available done => ?_) misses⟩
      rcases (@holding_open [] (message.frame ++ back) misses.1 sent).transmit_cases tooLarge with
        ⟨-, -, ok⟩ | ⟨beyond', -⟩
      · rw [done] at ok
        cases ok
        exact holding_appended [] back sent message rfl
      · exact absurd fits beyond'
    · refine ⟨_, misses_of_ends empty fun sent => transmitAll_ends ?_ rest⟩
      rcases (holding_open empty sent).transmit_cases tooLarge with ⟨fits, -⟩ | ⟨-, ends | ⟨some_, -⟩⟩
      · exact absurd fits beyond'
      · exact ends
      · exact absurd some_ (Nat.lt_irrefl 0)

/-! All sessions of a connection -/

/-- Between the sessions: the send buffer has been flushed, or nothing was stored since it was taken. -/
def Between (memory : Bytes) (c : SendBuffer) : Prop := c.sendBuffer = [] ∨ c.sendBuffer = memory

/-- The resize in front of each session finds this memory. -/
structure Finds (resize : Bytes → Nat → Bytes) (memory : Bytes) : Prop where
  resized : resize [] sendBufferGrowSize = memory
  length : memory.length = sendBufferGrowSize

variable {resize : Bytes → Nat → Bytes} {memory : Bytes}

theorem Finds.session (finds : Finds resize memory) (between : c.Between memory) (messages : List Outgoing) :
    c.session resize messages =
      ((holding [] memory c.sent).transmitAll messages).map fun (c, accepted) => (c.transmitEnd, accepted) := by
  have buffer : (if c.sendBuffer.length < sendBufferGrowSize then resize c.sendBuffer sendBufferGrowSize
      else c.sendBuffer) = memory := by
    rcases between with flushed | kept
    · rw [flushed]
      exact finds.resized
    · rw [kept, finds.length, if_neg (Nat.lt_irrefl _)]
  have begins : c.transmitBegin resize = .ok (holding [] memory c.sent) := by
    rw [transmitBegin]
    simp only [buffer]
    exact if_pos (Nat.le_of_eq finds.length.symm)
  rw [SendBuffer.session, begins]
  simp only [bind, Except.bind]
  cases (holding [] memory c.sent).transmitAll messages <;> rfl

theorem Finds.isOpen (finds : Finds resize memory) (sent : List Bytes) : (holding [] memory sent).Open :=
  @holding_open [] memory finds.length sent

theorem Stored.transmitEnd {c₀ c₁ : SendBuffer} {accepted : List Outgoing} (stored : Stored c₀ c₁ accepted)
    (pending : c₀.pendingBytes = 0) (buffer : c₀.sendBuffer = memory) :
    c₁.transmitEnd.Between memory ∧
      c₁.transmitEnd.sent.flatten = c₀.sent.flatten ++ c₁.sendBuffer.take c₁.pendingBytes ∧
      (c₁.sendBuffer.take c₁.pendingBytes).length = (accepted.flatMap Outgoing.frame).length := by
  have length : (c₁.sendBuffer.take c₁.pendingBytes).length = (accepted.flatMap Outgoing.frame).length := by
    have fits := stored.isOpen.pending
    have total := stored.pending
    rw [List.length_take, stored.isOpen.full]
    omega
  refine ⟨?_, ?_, length⟩
  · by_cases nothing : accepted = []
    · obtain rfl := stored.nothing nothing
      rw [SendBuffer.transmitEnd, if_neg (by omega)]
      exact .inr buffer
    · rw [SendBuffer.transmitEnd, if_pos (stored.filled nothing), sendPacket, if_pos (stored.filled nothing)]
      exact .inl rfl
  · by_cases nothing : accepted = []
    · obtain rfl := stored.nothing nothing
      rw [SendBuffer.transmitEnd, if_neg (by omega), pending, List.take_zero, List.append_nil]
    · rw [SendBuffer.transmitEnd, if_pos (stored.filled nothing), sendPacket, if_pos (stored.filled nothing)]
      simp only [List.flatten_append, List.flatten_singleton, stored.sent]

theorem Finds.session_ok (finds : Finds resize memory) (between : c.Between memory) {messages accepted : List Outgoing}
    {c' : SendBuffer} (done : c.session resize messages = .ok (c', accepted)) :
    ∃ c₁, (holding [] memory c.sent).transmitAll messages = .ok (c₁, accepted) ∧ c'.Between memory ∧
      c'.sent.flatten = c.sent.flatten ++ c₁.sendBuffer.take c₁.pendingBytes ∧
      (c₁.sendBuffer.take c₁.pendingBytes).length = (accepted.flatMap Outgoing.frame).length := by
  rw [finds.session between] at done
  cases transmitted : (holding [] memory c.sent).transmitAll messages with
  | error failure =>
    rw [transmitted] at done
    contradiction
  | ok result =>
    obtain ⟨c₁, accepted₁⟩ := result
    rw [transmitted] at done
    cases done
    exact ⟨c₁, rfl, ((finds.isOpen c.sent).transmitAll_stored transmitted).transmitEnd rfl rfl⟩

theorem Finds.session_fits (finds : Finds resize memory) (between : c.Between memory) {messages : List Outgoing}
    (fit : Outgoing.AllFit 0 messages) :
    ∃ c' accepted, c.session resize messages = .ok (c', accepted) ∧ c'.Between memory ∧
      c'.sent.flatten = c.sent.flatten ++ accepted.flatMap Outgoing.frame := by
  obtain ⟨c₁, accepted, done, pending⟩ := (finds.isOpen c.sent).transmitAll_allFit fit
  have session := finds.session between messages
  rw [done] at session
  obtain ⟨c₁', done', between', sent, -⟩ := finds.session_ok between session
  rw [done] at done'
  cases done'
  rw [pending] at sent
  exact ⟨_, accepted, session, between', sent⟩

theorem sessions_cons {messages : List Outgoing} {c₁ : SendBuffer} {accepted : List Outgoing}
    (done : c.session resize messages = .ok (c₁, accepted)) (rest : List (List Outgoing)) :
    c.sessions resize (messages :: rest) =
      (c₁.sessions resize rest).map fun (c, more) => (c, accepted ++ more) := by
  rw [sessions, done]
  simp only [bind, Except.bind]
  cases c₁.sessions resize rest <;> rfl

theorem Finds.sessions_fit (finds : Finds resize memory) {sessions : List (List Outgoing)}
    (fit : ∀ messages ∈ sessions, Outgoing.AllFit 0 messages) (between : c.Between memory) :
    ∃ c' accepted, c.sessions resize sessions = .ok (c', accepted) ∧
      c'.sent.flatten = c.sent.flatten ++ accepted.flatMap Outgoing.frame := by
  induction sessions generalizing c with
  | nil => exact ⟨c, [], rfl, (List.append_nil _).symm⟩
  | cons messages rest ih =>
    rw [List.forall_mem_cons] at fit
    obtain ⟨c₁, accepted, done, between₁, sent⟩ := finds.session_fits between fit.1
    obtain ⟨c', more, done', sent'⟩ := ih fit.2 between₁
    refine ⟨c', accepted ++ more, ?_, ?_⟩
    · rw [sessions_cons done, done']
      rfl
    · rw [sent', sent, List.flatMap_append, List.append_assoc]

/-- Sessions that return hand over as many bytes as their frames have. -/
theorem Finds.sessions_ok (finds : Finds resize memory) {sessions : List (List Outgoing)} (between : c.Between memory)
    {c' : SendBuffer} {accepted : List Outgoing} (done : c.sessions resize sessions = .ok (c', accepted)) :
    ∃ out, c'.sent.flatten = c.sent.flatten ++ out := by
  induction sessions generalizing c accepted with
  | nil =>
    cases done
    exact ⟨[], (List.append_nil _).symm⟩
  | cons messages rest ih =>
    cases first : c.session resize messages with
    | error failure =>
      rw [sessions, first] at done
      contradiction
    | ok result =>
      obtain ⟨c₁, accepted₁⟩ := result
      rw [sessions_cons first] at done
      obtain ⟨c₂, -, between₁, sent, -⟩ := finds.session_ok between first
      cases later : c₁.sessions resize rest with
      | error failure =>
        rw [later] at done
        contradiction
      | ok result =>
        rw [later] at done
        cases done
        obtain ⟨out, sent'⟩ := ih between₁ later
        exact ⟨_, by rw [sent', sent, List.append_assoc]⟩

/-- Where a session has a message that does not fit, the socket is not given the frames, for some content of the
memory. -/
theorem exists_misses_sessions {sessions : List (List Outgoing)}
    (beyond : ¬∀ messages ∈ sessions, Outgoing.AllFit 0 messages) :
    ∃ memory, memory.length = sendBufferGrowSize ∧ ∀ resize, Finds resize memory → ∀ c : SendBuffer,
      c.Between memory → ∀ c' accepted, c.sessions resize sessions = .ok (c', accepted) →
        c'.sent.flatten ≠ c.sent.flatten ++ accepted.flatMap Outgoing.frame := by
  induction sessions with
  | nil => exact absurd (fun _ mem => absurd mem List.not_mem_nil) beyond
  | cons messages rest ih =>
    rw [List.forall_mem_cons] at beyond
    by_cases fit : Outgoing.AllFit 0 messages
    · obtain ⟨memory, length, misses⟩ := ih fun all => beyond ⟨fit, all⟩
      refine ⟨memory, length, fun resize finds c between c' accepted done equal => ?_⟩
      obtain ⟨c₁, accepted₁, first, between₁, sent⟩ := finds.session_fits between fit
      rw [sessions_cons first] at done
      cases later : c₁.sessions resize rest with
      | error failure =>
        rw [later] at done
        contradiction
      | ok result =>
        rw [later] at done
        cases done
        refine misses resize finds c₁ between₁ _ _ later ?_
        rw [equal, sent, List.flatMap_append, List.append_assoc]
    · obtain ⟨memory, full, misses⟩ := exists_misses_session fit
      refine ⟨memory, full, fun resize finds c between c' accepted done equal => ?_⟩
      cases first : c.session resize messages with
      | error failure =>
        rw [sessions, first] at done
        contradiction
      | ok result =>
        obtain ⟨c₁, accepted₁⟩ := result
        rw [sessions_cons first] at done
        obtain ⟨c₂, transmitted, between₁, sent, length⟩ := finds.session_ok between first
        cases later : c₁.sessions resize rest with
        | error failure =>
          rw [later] at done
          contradiction
        | ok result =>
          rw [later] at done
          cases done
          obtain ⟨out, sent'⟩ := finds.sessions_ok between₁ later
          -- what the first session handed over and its frames have one length
          rw [sent', sent, List.flatMap_append, List.append_assoc] at equal
          have same := List.append_inj_left (List.append_cancel_left equal) length
          exact misses c.sent c₂ accepted₁ transmitted (same.trans (List.nil_append _).symm)

end SendBuffer

theorem not_framesLossless {sessions : List (List Outgoing)}
    (beyond : ¬∀ messages ∈ sessions, Outgoing.AllFit 0 messages) : ¬FramesLossless sessions := by
  intro lossless
  obtain ⟨memory, length, misses⟩ := SendBuffer.exists_misses_sessions beyond
  obtain ⟨c, accepted, done, sent⟩ := lossless
    (fun _ size => if size = sendBufferGrowSize then memory else List.replicate size 0) (by
      intro buffer size
      by_cases here : size = sendBufferGrowSize
      · rw [if_pos here, length, here]
      · rw [if_neg here, List.length_replicate])
  exact misses _ ⟨if_pos rfl, length⟩ {} (.inl rfl) c accepted done sent

/-- Outgoing frames are lossless and in bounds exactly when all messages of each session that are not rejected fit
one behind the other. -/
theorem framesLossless_iff (sessions : List (List Outgoing)) :
    FramesLossless sessions ↔ ∀ messages ∈ sessions, Outgoing.AllFit 0 messages := by
  constructor
  · intro lossless
    by_contra beyond
    exact not_framesLossless beyond lossless
  · intro fit resize law
    exact @SendBuffer.Finds.sessions_fit {} resize _ ⟨rfl, law _ _⟩ sessions fit (.inl rfl)

/-- A direct message behind another one -/
theorem not_framesLossless_direct : ¬FramesLossless [[.direct [1], .direct [2]]] := by
  apply not_framesLossless
  rw [List.forall_mem_singleton]
  decide

end Apx
