import Apx.MessageHeaders

/-! The way of a file's content from the worker of one file manager (file_manager_worker.c) through a socket
connection (socket_client_connection.c, and extension/socket_server_connection.c with the same code) to the
write notifications of the peer's file manager (file_manager_receiver.c, file_manager.c). -/

namespace Apx

open LittleEndian

/-! The files -/

/-- apx_fileType_t -/
inductive FileType where
  | unknown
  | definition
  | providePortData
  | requirePortData
  | providePortCount
  | requirePortCount
  deriving DecidableEq, Repr

/-- apx_file_t: its address without flags -/
structure File where
  address : Nat
  size : Nat
  fileType : FileType
  isOpen : Bool := false
  deriving DecidableEq, Repr

/-- rmf_fileInfo_address_in_range -/
def File.addressInRange (file : File) (address : Nat) : Bool :=
  file.address ≤ address && address < file.address + file.size

/-- apx_fileMap_t, where last_file is a position in the list -/
structure FileMap where
  fileList : List File := []
  lastFile : Option Nat := none
  deriving DecidableEq, Repr

namespace FileMap

def last? (map : FileMap) : Option File := map.lastFile.bind fun i => map.fileList[i]?

/-- apx_fileMap_find_by_address -/
def findByAddress (map : FileMap) (address : Nat) : Option File × FileMap :=
  match map.last?.filter (·.addressInRange address) with
  | some file => (some file, map)
  | none =>
    match map.fileList.findIdx? (·.addressInRange address) with
    | some i => (map.fileList[i]?, { map with lastFile := some i })
    | none => (none, map)

end FileMap

/-! The sender -/

/-- adt_bytearray_t: its length, and how many bytes the memory behind it has -/
structure ByteArea where
  length : Nat
  capacity : Nat
  deriving DecidableEq, Repr

/-- SEND_BUFFER_GROW_SIZE -/
def sendBufferGrowSize : Nat := 4096

/-- apx_clientSocketConnection_t and apx_socketServerConnection_t: the first pending_bytes bytes in
send_buffer, and what has gone to the socket -/
structure SocketConnection where
  sendBuffer : ByteArea
  pending : Bytes := []
  sent : Bytes := []
  deriving DecidableEq

namespace SocketConnection

/-- What the peer gets, once what is pending has been sent -/
def stream (c : SocketConnection) : Bytes := c.sent ++ c.pending

/-- send_packet, where `clear` is adt_bytearray_clear -/
def sendPacket (clear : ByteArea → ByteArea) (c : SocketConnection) : SocketConnection :=
  if 0 < c.pending.length then
    { sendBuffer := clear c.sendBuffer, pending := [], sent := c.sent ++ c.pending }
  else c

/-- buffer_available, in the 32 bits of apx_size_t -/
def bufferAvailable (c : SocketConnection) : Nat :=
  (c.sendBuffer.length + 2 ^ 32 - c.pending.length) % 2 ^ 32

/-- The connection that a message of `bytesToSend` bytes is written to -/
def makeRoom (clear : ByteArea → ByteArea) (c : SocketConnection) (bytesToSend : Nat) : SocketConnection :=
  if bytesToSend > c.bufferAvailable then c.sendPacket clear else c

/-- transmit_data_message -/
def transmitDataMessage (clear : ByteArea → ByteArea) (c : SocketConnection) (writeAddress : Nat)
    (moreBit : Bool) (msgData : Bytes) : Except Failure SocketConnection :=
  let addressSize := rmfNeededEncodingSize writeAddress
  let payloadSize := addressSize + msgData.length
  if payloadSize > sendBufferGrowSize then .error (.code .msgTooLarge)
  else
    match numheaderEncode32 8 payloadSize with
    -- never here: the payload is short
    | none => .error .outOfBounds
    | some header1 =>
      let header2 := rmfAddressEncode (8 - header1.length) writeAddress moreBit
      if header2.length ≠ addressSize then .error .assertion
      else
        -- the size of the address is counted twice
        let c := c.makeRoom clear (header1.length + header2.length + payloadSize)
        if c.pending.length + (header1.length + header2.length) + msgData.length ≤ c.sendBuffer.capacity then
          .ok { c with pending := c.pending ++ (header1 ++ header2) ++ msgData }
        else .error .outOfBounds

end SocketConnection

/-- apx_command_t of the types APX_CMD_SEND_LOCAL_CONST_DATA and APX_CMD_SEND_LOCAL_DATA -/
structure SendCommand where
  address : Nat
  data : Bytes
  deriving DecidableEq

/-- apx_fileManager_send_local_const_data and apx_fileManager_send_local_data: the command that goes to
the worker -/
def sendLocalData (localFiles : FileMap) (address : Nat) (data : Bytes) : Except ApxError SendCommand :=
  match (localFiles.findByAddress address).1 with
  | none => .error .fileNotFound
  | some file => if file.isOpen then .ok { address := address, data := data } else .error .fileNotOpen

/-- run_send_local_const_data and run_send_local_data -/
def runSendLocalData (clear : ByteArea → ByteArea) (c : SocketConnection) (command : SendCommand) :
    Except Failure SocketConnection :=
  c.transmitDataMessage clear command.address false command.data

/-! The receiver -/

/-- RMF_CMD_AREA_SIZE -/
def cmdAreaSize : Nat := 1024

/-- RMF_INVALID_ADDRESS -/
def invalidAddress : Nat := 0x7FFFFFFF

/-- APX_MAX_FILE_SIZE -/
def maxFileSize : Nat := 0x1000000

/-- apx_fileManagerReceiver_t: the size of its buffer and the first buf_pos bytes in it -/
structure Receiver where
  bufSize : Nat
  bufData : Bytes := []
  startAddress : Nat := invalidAddress
  deriving DecidableEq

namespace Receiver

/-- apx_fileManagerReceiver_create with the one call of apx_fileManagerReceiver_reserve that there is -/
def create : Receiver where
  bufSize := cmdAreaSize

/-- apx_fileManagerReceiver_reset -/
def reset (r : Receiver) : Receiver :=
  { r with bufData := [], startAddress := invalidAddress }

/-- process_more_bit: a message that is complete, with its address -/
def processMoreBit (r : Receiver) (moreBit : Bool) : Option (Nat × Bytes) × Receiver :=
  if moreBit then (none, r) else (some (r.startAddress, r.bufData), r.reset)

/-- start_new_reception -/
def startNewReception (r : Receiver) (address : Nat) (data : Bytes) (moreBit : Bool) :
    Except ApxError (Option (Nat × Bytes) × Receiver) :=
  if r.bufSize = 0 then .error .missingBuffer
  else if data.length > r.bufSize then .error .bufferFull
  else .ok (processMoreBit { r with
    bufData := if 0 < data.length then data else r.bufData, startAddress := address } moreBit)

/-- continue_reception -/
def continueReception (r : Receiver) (address : Nat) (data : Bytes) (moreBit : Bool) :
    Except ApxError (Option (Nat × Bytes) × Receiver) :=
  if r.startAddress + r.bufData.length ≠ address then .error .invalidAddress
  else if r.bufSize = 0 then .error .missingBuffer
  else if r.bufData.length + data.length > r.bufSize then .error .bufferFull
  else .ok (processMoreBit { r with bufData := r.bufData ++ data } moreBit)

/-- apx_fileManagerReceiver_write -/
def write (r : Receiver) (address : Nat) (data : Bytes) (moreBit : Bool) :
    Except ApxError (Option (Nat × Bytes) × Receiver) :=
  if address < invalidAddress then
    if data.length > maxFileSize then .error .fileTooLarge
    else if r.startAddress = invalidAddress then r.startNewReception address data moreBit
    else r.continueReception address data moreBit
  else .error .invalidArgument

end Receiver

/-- A call of remote_file_write_notification -/
structure Notification where
  file : File
  offset : Nat
  data : Bytes
  deriving DecidableEq

/-- What the file manager calls: process_command_message, which changes its remote files, and the
connection's remote_file_write_notification -/
structure Peer where
  processCommandMessage : FileMap → Bytes → Option ApxError × FileMap
  remoteFileWriteNotification : Notification → Option ApxError

/-- apx_fileManager_t on the side that receives, and the notifications it has made -/
structure FileManager where
  receiver : Receiver := .create
  remoteFileMap : FileMap := {}
  written : List Notification := []
  deriving DecidableEq

namespace FileManager

/-- process_file_write_message -/
def processFileWriteMessage (peer : Peer) (m : FileManager) (address : Nat) (data : Bytes) :
    Option ApxError × FileManager :=
  let (found, map) := m.remoteFileMap.findByAddress address
  let m := { m with remoteFileMap := map }
  match found with
  | none => (some .invalidWrite, m)
  | some file =>
    -- writes on closed files are ignored
    if file.isOpen then
      let notification : Notification := { file := file, offset := address - file.address, data := data }
      (peer.remoteFileWriteNotification notification, { m with written := m.written ++ [notification] })
    else (none, m)

/-- process_message -/
def processMessage (peer : Peer) (m : FileManager) (address : Nat) (data : Bytes) :
    Option ApxError × FileManager :=
  if address = cmdAreaStartAddress then
    let (error, map) := peer.processCommandMessage m.remoteFileMap data
    (error, { m with remoteFileMap := map })
  else if address < cmdAreaStartAddress then m.processFileWriteMessage peer address data
  else (some .invalidAddress, m)

/-- apx_fileManager_message_received -/
def messageReceived (peer : Peer) (m : FileManager) (msg : Bytes) : Option ApxError × FileManager :=
  let (headerSize, address, moreBit) := rmfAddressDecode msg invalidAddress false
  if 0 < headerSize then
    match m.receiver.write address (msg.drop headerSize) moreBit with
    | .error error => (some error, m)
    | .ok (some (address, data), receiver) =>
      processMessage peer { m with receiver := receiver } address data
    -- more data has to arrive
    | .ok (none, receiver) => (none, { m with receiver := receiver })
  else (some .invalidMsg, m)

end FileManager

/-- The file manager behind its connection. Being connected makes no difference to what it receives. -/
def Peer.calls (peer : Peer) : FileManagerCalls FileManager where
  connected := id
  messageReceived := FileManager.messageReceived peer

/-! What a message does at the peer -/

/-- A receiver that waits for the start of a message -/
structure Receiver.Idle (r : Receiver) : Prop where
  bufSize : r.bufSize = cmdAreaSize
  bufData : r.bufData = []
  startAddress : r.startAddress = invalidAddress

/-- A file manager that has received any messages without the more bit, which is never set by what sends
them. Files come and go. -/
inductive FileManager.Reached (peer : Peer) : FileManager → Prop
  | created : Reached peer {}
  | files {m : FileManager} (map : FileMap) : Reached peer m → Reached peer { m with remoteFileMap := map }
  | received {m : FileManager} (msg : Bytes) : Reached peer m →
      (rmfAddressDecode msg invalidAddress false).2.2 = false → Reached peer (m.messageReceived peer msg).2

namespace Receiver

/-- The last part of a message leaves a receiver that waits. -/
theorem write_idle {r r' : Receiver} {address : Nat} {data : Bytes} {done : Option (Nat × Bytes)}
    (idle : r.Idle) (written : r.write address data false = .ok (done, r')) : r'.Idle := by
  have reset (s : Receiver) (size : s.bufSize = r.bufSize)
      (parts : (Except.ok (processMoreBit s false) : Except ApxError _) = .ok (done, r')) : r'.Idle := by
    cases parts
    exact ⟨size.trans idle.bufSize, rfl, rfl⟩
  rw [write] at written
  by_cases valid : address < invalidAddress
  swap
  · rw [if_neg valid] at written
    contradiction
  rw [if_pos valid, if_pos idle.startAddress, startNewReception] at written
  by_cases large : data.length > maxFileSize
  · rw [if_pos large] at written
    contradiction
  rw [if_neg large] at written
  by_cases missing : r.bufSize = 0
  · rw [if_pos missing] at written
    contradiction
  rw [if_neg missing] at written
  by_cases full : data.length > r.bufSize
  · rw [if_pos full] at written
    contradiction
  · rw [if_neg full] at written
    exact reset _ (by rfl) written

/-- The one message of a reception is complete when it fits into the buffer. -/
theorem write_whole {r : Receiver} (idle : r.Idle) {address : Nat} {data : Bytes}
    (valid : address < invalidAddress) (allowed : data.length ≤ maxFileSize) :
    r.write address data false =
      if data.length ≤ cmdAreaSize then .ok (some (address, data), r) else .error .bufferFull := by
  obtain ⟨size, nothing, waits⟩ := idle
  obtain ⟨bufSize, bufData, startAddress⟩ := r
  simp only at size nothing waits
  rw [size, nothing, waits, write, if_pos valid, if_neg (by omega), if_pos rfl, startNewReception,
    if_neg (by simp [cmdAreaSize])]
  by_cases fits : data.length ≤ cmdAreaSize
  · have stored : (if 0 < data.length then data else []) = data := by
      cases data with
      | nil => rfl
      | cons b rest => exact if_pos (Nat.succ_pos _)
    rw [if_pos fits, if_neg (by simpa using fits), processMoreBit, if_neg Bool.false_ne_true, reset]
    simp only [stored]
  · rw [if_neg fits, if_pos (by simpa using fits)]

end Receiver

namespace FileManager
variable {peer : Peer} {m : FileManager}

@[simp] theorem processFileWriteMessage_receiver (peer : Peer) (m : FileManager) (address : Nat) (data : Bytes) :
    (m.processFileWriteMessage peer address data).2.receiver = m.receiver := by
  rw [processFileWriteMessage]
  obtain ⟨found, map⟩ := m.remoteFileMap.findByAddress address
  cases found with
  | none => rfl
  | some file =>
    simp only
    by_cases isOpen : file.isOpen
    · rw [if_pos isOpen]
    · rw [if_neg isOpen]

@[simp] theorem processMessage_receiver (peer : Peer) (m : FileManager) (address : Nat) (data : Bytes) :
    (m.processMessage peer address data).2.receiver = m.receiver := by
  rw [processMessage]
  by_cases command : address = cmdAreaStartAddress
  · rw [if_pos command]
  · rw [if_neg command]
    by_cases file : address < cmdAreaStartAddress
    · rw [if_pos file, processFileWriteMessage_receiver]
    · rw [if_neg file]

/-- Between two messages the receiver waits. -/
theorem messageReceived_idle {msg : Bytes} (idle : m.receiver.Idle)
    (last : (rmfAddressDecode msg invalidAddress false).2.2 = false) :
    (m.messageReceived peer msg).2.receiver.Idle := by
  rw [messageReceived]
  cases decoded : rmfAddressDecode msg invalidAddress false with
  | mk headerSize parts =>
    obtain ⟨address, moreBit⟩ := parts
    rw [decoded] at last
    have never : moreBit = false := last
    rw [never]
    simp only
    by_cases header : 0 < headerSize
    · rw [if_pos header]
      cases written : m.receiver.write address (msg.drop headerSize) false with
      | error => exact idle
      | ok result =>
        obtain ⟨done, receiver⟩ := result
        have waits := Receiver.write_idle idle written
        cases done with
        | none => exact waits
        | some message =>
          obtain ⟨start, data⟩ := message
          simp only [processMessage_receiver]
          exact waits
    · rw [if_neg header]
      exact idle

theorem Reached.idle (reached : Reached peer m) : m.receiver.Idle := by
  induction reached with
  | created => exact ⟨rfl, rfl, rfl⟩
  | files map _ ih => exact ih
  | received msg _ last ih => exact messageReceived_idle ih last

theorem processMessage_written {file : File} {data : Bytes}
    (found : (m.remoteFileMap.findByAddress file.address).1 = some file) (isOpen : file.isOpen = true) :
    (m.processMessage peer file.address data).2.written = m.written ++
      if file.address < cmdAreaStartAddress then [{ file := file, offset := 0, data := data }] else [] := by
  rw [processMessage]
  by_cases command : file.address = cmdAreaStartAddress
  · rw [if_pos command, if_neg (by omega), List.append_nil]
  · rw [if_neg command]
    by_cases write : file.address < cmdAreaStartAddress
    · rw [if_pos write, if_pos write, processFileWriteMessage]
      cases lookup : m.remoteFileMap.findByAddress file.address with
      | mk here map =>
        rw [lookup] at found
        have same : here = some file := found
        simp only [same, isOpen, if_true, Nat.sub_self]
    · rw [if_neg write, if_neg write, List.append_nil]

theorem messageReceived_written (reached : Reached peer m) {file : File} {data : Bytes} {bufSize : Nat}
    (found : (m.remoteFileMap.findByAddress file.address).1 = some file) (isOpen : file.isOpen = true)
    (room : 4 ≤ bufSize) (valid : file.address ≤ 0x3FFFFFFF) (allowed : data.length ≤ maxFileSize) :
    (m.messageReceived peer (rmfAddressEncode bufSize file.address false ++ data)).2.written = m.written ++
      if data.length ≤ cmdAreaSize ∧ file.address < cmdAreaStartAddress then
        [{ file := file, offset := 0, data := data }]
      else [] := by
  have header : 0 < rmfNeededEncodingSize file.address := by
    rw [rmfNeededEncodingSize]
    split <;> omega
  have behind : (rmfAddressEncode bufSize file.address false ++ data).drop (rmfNeededEncodingSize file.address) =
      data := by
    rw [← rmfAddressEncode_length false room valid, List.drop_left]
  have known : file.address < invalidAddress := by
    rw [invalidAddress]
    omega
  rw [messageReceived, rmfAddressDecode_encode room valid]
  simp only [if_pos header, behind, Receiver.write_whole reached.idle known allowed]
  by_cases fits : data.length ≤ cmdAreaSize
  · rw [if_pos fits]
    simp only [fits, true_and]
    exact processMessage_written found isOpen
  · rw [if_neg fits, if_neg fun both => fits both.1, List.append_nil]

end FileManager

theorem StreamConnection.deliver_message {check : GreetingCheck} {σ : Type} {calls : FileManagerCalls σ}
    {c : StreamConnection σ} (accepted : c.isGreetingAccepted = true) {frame msg : Bytes}
    (found : messages.next frame = some (msg, frame.length)) {pieces : List Bytes}
    (whole : pieces.flatten = frame) (some : [] ∉ pieces) :
    (deliver check calls c [] pieces).2.fileManager = (calls.messageReceived c.fileManager msg).2 := by
  have parses : Parses check calls c frame := by
    apply (parses_iff frame).mpr
    rintro greeting ⟨waits, -⟩
    rw [accepted] at waits
    contradiction
  rw [parses.hands pieces whole some, messages.split_some found, List.drop_length,
    messages.split_none messages_nil, handed, Framing.hand, handleMessage, if_pos accepted]
  obtain ⟨error, fileManager⟩ := calls.messageReceived c.fileManager msg
  cases error with
  | none => rfl
  | some error => rfl

/-! What the sender writes -/

theorem numheaderEncode32_short {value : Nat} (short : value ≤ sendBufferGrowSize) :
    ∃ header, numheaderEncode32 8 value = some header ∧ header.length = if value ≤ 127 then 1 else 4 := by
  rw [sendBufferGrowSize] at short
  rw [numheaderEncode32, if_neg (by omega)]
  by_cases byte : value ≤ 127
  · rw [if_pos byte, if_pos byte]
    exact ⟨_, rfl, rfl⟩
  · rw [if_neg byte, if_neg byte, if_neg (by omega)]
    exact ⟨_, rfl, packBE_length _ _⟩

/-- The size of both headers of a message with `size` bytes of data -/
def headerLength (address size : Nat) : Nat :=
  (if rmfNeededEncodingSize address + size ≤ 127 then 1 else 4) + rmfNeededEncodingSize address

/-- What transmit_data_message takes for the size of such a message -/
def bytesToSend (address size : Nat) : Nat :=
  headerLength address size + (rmfNeededEncodingSize address + size)

namespace SocketConnection
variable {clear : ByteArea → ByteArea} {c : SocketConnection}

@[simp] theorem makeRoom_stream (clear : ByteArea → ByteArea) (c : SocketConnection) (bytesToSend : Nat) :
    (c.makeRoom clear bytesToSend).stream = c.stream := by
  rw [makeRoom]
  split
  · rw [sendPacket]
    split
    · rw [stream, stream, List.append_nil]
    · rfl
  · rfl

theorem stream_append (c : SocketConnection) (headers data : Bytes) :
    { c with pending := c.pending ++ headers ++ data }.stream = c.stream ++ (headers ++ data) := by
  simp only [stream, List.append_assoc]

/-- The memory of the send buffer has room for a message, behind what is pending or, where that is sent
before, from its start. -/
def Room (clear : ByteArea → ByteArea) (c : SocketConnection) (address size : Nat) : Prop :=
  if bytesToSend address size > c.bufferAvailable ∧ c.pending ≠ [] then
    headerLength address size + size ≤ (clear c.sendBuffer).capacity
  else c.pending.length + headerLength address size + size ≤ c.sendBuffer.capacity

theorem room_iff (address size : Nat) : c.Room clear address size ↔
    (c.makeRoom clear (bytesToSend address size)).pending.length + headerLength address size + size ≤
      (c.makeRoom clear (bytesToSend address size)).sendBuffer.capacity := by
  rw [Room, makeRoom]
  by_cases full : bytesToSend address size > c.bufferAvailable
  · rw [if_pos full, sendPacket]
    by_cases pending : 0 < c.pending.length
    · rw [if_pos pending, if_pos ⟨full, List.length_pos_iff.mp pending⟩]
      simp only [List.length_nil, Nat.zero_add]
    · rw [if_neg pending, if_neg fun both => pending (List.length_pos_iff.mpr both.2)]
  · rw [if_neg full, if_neg fun both => full both.1]

theorem transmitDataMessage_eq {address : Nat} {data : Bytes} (valid : address ≤ 0x3FFFFFFF)
    (short : rmfNeededEncodingSize address + data.length ≤ sendBufferGrowSize) :
    ∃ header1 bufSize, 4 ≤ bufSize ∧
      numheaderEncode32 8 (rmfNeededEncodingSize address + data.length) = some header1 ∧
      (c.Room clear address data.length → ∃ c', c.transmitDataMessage clear address false data = .ok c' ∧
        c'.stream = c.stream ++ (header1 ++ (rmfAddressEncode bufSize address false ++ data))) ∧
      (¬c.Room clear address data.length → c.transmitDataMessage clear address false data = .error .outOfBounds) := by
  obtain ⟨header1, encoded, length⟩ := numheaderEncode32_short short
  have room : 4 ≤ 8 - header1.length := by
    rw [length]
    split <;> omega
  have length2 := rmfAddressEncode_length false room valid
  have headers : header1.length + rmfNeededEncodingSize address = headerLength address data.length := by
    rw [length, headerLength]
  have size : headerLength address data.length + (rmfNeededEncodingSize address + data.length) =
      bytesToSend address data.length := rfl
  have transmit : c.transmitDataMessage clear address false data =
      if (c.makeRoom clear (bytesToSend address data.length)).pending.length +
          headerLength address data.length + data.length ≤
          (c.makeRoom clear (bytesToSend address data.length)).sendBuffer.capacity then
        .ok { c.makeRoom clear (bytesToSend address data.length) with
          pending := (c.makeRoom clear (bytesToSend address data.length)).pending ++
            (header1 ++ rmfAddressEncode (8 - header1.length) address false) ++ data }
      else .error .outOfBounds := by
    rw [transmitDataMessage]
    simp only [encoded, if_neg (Nat.not_lt.mpr short), length2, ne_eq, not_true_eq_false, if_false, headers, size]
  refine ⟨header1, 8 - header1.length, room, encoded, fun fits => ?_, fun full => ?_⟩
  · have before := makeRoom_stream clear c (bytesToSend address data.length)
    rw [transmit, if_pos ((room_iff address data.length).mp fits)]
    generalize c.makeRoom clear (bytesToSend address data.length) = c' at before ⊢
    refine ⟨_, rfl, ?_⟩
    rw [stream_append, before, List.append_assoc]
  · rw [transmit, if_neg fun fits => full ((room_iff address data.length).mpr fits)]

theorem transmitDataMessage_large {address : Nat} {data : Bytes}
    (large : ¬rmfNeededEncodingSize address + data.length ≤ sendBufferGrowSize) :
    c.transmitDataMessage clear address false data = .error (.code .msgTooLarge) := by
  rw [transmitDataMessage]
  simp only [if_pos (Nat.lt_of_not_le large)]

theorem transmitDataMessage_invalid {address : Nat} {data : Bytes} (invalid : ¬address ≤ 0x3FFFFFFF)
    (short : rmfNeededEncodingSize address + data.length ≤ sendBufferGrowSize) :
    c.transmitDataMessage clear address false data = .error .assertion := by
  obtain ⟨header1, encoded, -⟩ := numheaderEncode32_short short
  have needed : rmfNeededEncodingSize address = 4 := by
    rw [rmfNeededEncodingSize, if_neg (by omega)]
  have nothing : rmfAddressEncode (8 - header1.length) address false = [] := by
    rw [rmfAddressEncode, if_pos (.inr (by omega))]
  have other : ([] : Bytes).length ≠ rmfNeededEncodingSize address := by
    rw [needed]
    decide
  rw [transmitDataMessage]
  simp only [encoded, if_neg (Nat.not_lt.mpr short), nothing, if_pos other]

end SocketConnection

/-! The whole way -/

/-- Notifications with the parts of a content, one after the other from an offset on -/
def Consecutive (file : File) (offset : Nat) : List Notification → Bytes → Prop
  | [], content => content = []
  | n :: rest, content => n.file = file ∧ n.offset = offset ∧
      ∃ tail, content = n.data ++ tail ∧ Consecutive file (offset + n.data.length) rest tail

/-- The command puts a frame behind what the peer gets from the sender, and however it arrives, it is
notified at the peer: all bytes from the start of the file on, and a definition at once. -/
def Transfers (clear : ByteArea → ByteArea) (sender : SocketConnection) (command : SendCommand)
    (peer : Peer) (check : GreetingCheck) (c : StreamConnection FileManager) (file : File) : Prop :=
  ∃ sender' frame, runSendLocalData clear sender command = .ok sender' ∧
    sender'.stream = sender.stream ++ frame ∧
    ∀ pieces : List Bytes, pieces.flatten = frame → [] ∉ pieces →
      ∃ news, (StreamConnection.deliver check peer.calls c [] pieces).2.fileManager.written =
          c.fileManager.written ++ news ∧
        Consecutive file 0 news command.data ∧ (file.fileType = .definition → news.length = 1)

section
variable {clear : ByteArea → ByteArea} {sender : SocketConnection} {peer : Peer} {check : GreetingCheck}
  {c : StreamConnection FileManager} {file : File} {data : Bytes}

theorem deliver_frame (reached : FileManager.Reached peer c.fileManager) (accepted : c.isGreetingAccepted = true)
    (found : (c.fileManager.remoteFileMap.findByAddress file.address).1 = some file) (isOpen : file.isOpen = true)
    (allowed : data.length ≤ maxFileSize) {header1 : Bytes} {bufSize : Nat} (room : 4 ≤ bufSize)
    (valid : file.address ≤ 0x3FFFFFFF)
    (encoded : numheaderEncode32 8 (rmfNeededEncodingSize file.address + data.length) = some header1)
    {pieces : List Bytes}
    (whole : pieces.flatten = header1 ++ (rmfAddressEncode bufSize file.address false ++ data))
    (filled : [] ∉ pieces) :
    (StreamConnection.deliver check peer.calls c [] pieces).2.fileManager.written = c.fileManager.written ++
      if data.length ≤ cmdAreaSize ∧ file.address < cmdAreaStartAddress then
        [{ file := file, offset := 0, data := data }]
      else [] := by
  have size : (rmfAddressEncode bufSize file.address false ++ data).length =
      rmfNeededEncodingSize file.address + data.length := by
    rw [List.length_append, rmfAddressEncode_length false room valid]
  have positive : header1.length ≠ 0 := by
    intro empty
    have decoded := numheaderDecode32_encode encoded []
    rw [List.eq_nil_of_length_eq_zero empty] at decoded
    have zero := congrArg Prod.snd decoded
    have needed : rmfNeededEncodingSize file.address ≠ 0 := by
      rw [rmfNeededEncodingSize]
      split <;> decide
    simp only [List.append_nil, numheaderDecode32] at zero
    omega
  have next : StreamConnection.messages.next (header1 ++ (rmfAddressEncode bufSize file.address false ++ data)) =
      some (rmfAddressEncode bufSize file.address false ++ data,
        (header1 ++ (rmfAddressEncode bufSize file.address false ++ data)).length) := by
    show StreamConnection.message _ = _
    rw [StreamConnection.message, numheaderDecode32_encode encoded]
    simp only
    rw [if_pos ⟨positive, by rw [List.length_append, size]⟩, slice, List.drop_left, ← size, List.take_length]
    simp only [List.length_append]
  rw [StreamConnection.deliver_message accepted next whole filled]
  exact FileManager.messageReceived_written reached found isOpen room valid allowed

theorem sendLocalData_ok {localFiles : FileMap} {address : Nat} {command : SendCommand}
    (enqueued : sendLocalData localFiles address data = .ok command) :
    command = { address := address, data := data } := by
  rw [sendLocalData] at enqueued
  cases found : (localFiles.findByAddress address).1 with
  | none =>
    rw [found] at enqueued
    contradiction
  | some file =>
    simp only [found] at enqueued
    by_cases isOpen : file.isOpen
    · rw [if_pos isOpen] at enqueued
      cases enqueued
      rfl
    · rw [if_neg isOpen] at enqueued
      contradiction

/-- A content that is transferred fits into the receiver's buffer, and was written to the memory of the
sender's. -/
theorem Transfers.fits (transfers : Transfers clear sender ⟨file.address, data⟩ peer check c file)
    (filled : 1 ≤ data.length) (allowed : data.length ≤ maxFileSize)
    (reached : FileManager.Reached peer c.fileManager) (accepted : c.isGreetingAccepted = true)
    (found : (c.fileManager.remoteFileMap.findByAddress file.address).1 = some file)
    (isOpen : file.isOpen = true) :
    data.length ≤ cmdAreaSize ∧ file.address < cmdAreaStartAddress ∧
      sender.Room clear file.address data.length := by
  obtain ⟨sender', frame, sent, stream, delivers⟩ := transfers
  rw [runSendLocalData] at sent
  by_cases short : rmfNeededEncodingSize file.address + data.length ≤ sendBufferGrowSize
  swap
  · rw [SocketConnection.transmitDataMessage_large short] at sent
    contradiction
  by_cases valid : file.address ≤ 0x3FFFFFFF
  swap
  · rw [SocketConnection.transmitDataMessage_invalid valid short] at sent
    contradiction
  obtain ⟨header1, bufSize, enough, encoded, ok, full⟩ :=
    @SocketConnection.transmitDataMessage_eq clear sender _ _ valid short
  by_cases room : sender.Room clear file.address data.length
  swap
  · rw [full room] at sent
    contradiction
  obtain ⟨written, transmitted, appended⟩ := ok room
  rw [transmitted] at sent
  cases sent
  have same := List.append_cancel_left (stream.symm.trans appended)
  have whole : [] ∉ [frame] := by
    rw [List.mem_singleton]
    intro empty
    have lengths := congrArg List.length same
    rw [← empty, List.length_append, List.length_append] at lengths
    simp only [List.length_nil] at lengths
    omega
  obtain ⟨news, notified, consecutive, -⟩ := delivers [frame] (by simp) whole
  rw [deliver_frame reached accepted found isOpen allowed enough valid encoded (by simpa using same) whole]
    at notified
  by_cases both : data.length ≤ cmdAreaSize ∧ file.address < cmdAreaStartAddress
  · exact ⟨both.1, both.2, room⟩
  · rw [if_neg both] at notified
    rw [← List.append_cancel_left notified] at consecutive
    have nothing : data = [] := consecutive
    rw [nothing] at filled
    contradiction

/-- The send command of a whole file delivers it to the peer exactly when it fits into the buffer that the
receiver is created with, its address is below the command area and the sender's buffer has room for the
message. -/
theorem transfers_iff {localFiles : FileMap} {command : SendCommand}
    (enqueued : sendLocalData localFiles file.address data = .ok command)
    (filled : 1 ≤ data.length) (allowed : data.length ≤ maxFileSize)
    (reached : FileManager.Reached peer c.fileManager) (accepted : c.isGreetingAccepted = true)
    (found : (c.fileManager.remoteFileMap.findByAddress file.address).1 = some file)
    (isOpen : file.isOpen = true) :
    Transfers clear sender command peer check c file ↔
      data.length ≤ cmdAreaSize ∧ file.address < cmdAreaStartAddress ∧
        sender.Room clear file.address data.length := by
  rw [sendLocalData_ok enqueued]
  constructor
  · intro transfers
    exact transfers.fits filled allowed reached accepted found isOpen
  · rintro ⟨fits, low, room⟩
    have valid : file.address ≤ 0x3FFFFFFF := by
      rw [cmdAreaStartAddress] at low
      omega
    have short : rmfNeededEncodingSize file.address + data.length ≤ sendBufferGrowSize := by
      rw [rmfNeededEncodingSize, sendBufferGrowSize]
      rw [cmdAreaSize] at fits
      split <;> omega
    obtain ⟨header1, bufSize, enough, encoded, ok, -⟩ :=
      @SocketConnection.transmitDataMessage_eq clear sender _ _ valid short
    obtain ⟨sender', transmitted, appended⟩ := ok room
    refine ⟨sender', _, transmitted, appended, fun pieces whole pieced => ?_⟩
    refine ⟨[{ file := file, offset := 0, data := data }], ?_, ?_, fun _ => rfl⟩
    · rw [deliver_frame reached accepted found isOpen allowed enough valid encoded whole pieced,
        if_pos ⟨fits, low⟩]
    · exact ⟨rfl, rfl, [], (List.append_nil data).symm, rfl⟩

end

/-- A definition file of any size at the start of the definitions, open on both sides -/
def definitionFile (size : Nat) : File where
  address := 0x4000000
  size := size
  fileType := .definition
  isOpen := true

def definitionFiles (size : Nat) : FileMap where
  fileList := [definitionFile size]

/-- A peer that accepts everything -/
def quietPeer : Peer where
  processCommandMessage map _ := (none, map)
  remoteFileWriteNotification _ := none

/-- A send buffer at the beginning of a batch, and a connection that has received nothing but its
greeting -/
def emptySender : SocketConnection where
  sendBuffer := { length := sendBufferGrowSize, capacity := sendBufferGrowSize }

def greetedConnection (size : Nat) : StreamConnection FileManager where
  isGreetingAccepted := true
  fileManager := { remoteFileMap := definitionFiles size }

theorem findByAddress_definitionFiles {size : Nat} (filled : 0 < size) :
    ((definitionFiles size).findByAddress (definitionFile size).address).1 = some (definitionFile size) := by
  have inRange : (definitionFile size).addressInRange (definitionFile size).address = true := by
    simp only [File.addressInRange, definitionFile, Nat.le_refl, decide_true, Bool.true_and]
    exact decide_eq_true (by omega)
  rw [FileMap.findByAddress, FileMap.last?, definitionFiles]
  simp only [Option.bind_none, Option.filter_none, List.findIdx?_cons, inRange, if_true, List.getElem?_cons_zero]

theorem reached_greetedConnection (size : Nat) :
    FileManager.Reached quietPeer (greetedConnection size).fileManager :=
  .files (definitionFiles size) .created

theorem sendLocalData_definitionFile {data : Bytes} (filled : 0 < data.length) :
    sendLocalData (definitionFiles data.length) (definitionFile data.length).address data =
      .ok { address := (definitionFile data.length).address, data := data } := by
  rw [sendLocalData, findByAddress_definitionFiles filled]
  rfl

theorem transfers_short : Transfers id emptySender ⟨0x4000000, [65, 80, 88]⟩ quietPeer
    (fun _ => (true, none)) (greetedConnection 3) (definitionFile 3) :=
  (transfers_iff (@sendLocalData_definitionFile [65, 80, 88] (by decide)) (by decide) (by decide)
    (reached_greetedConnection _) rfl (findByAddress_definitionFiles (by decide)) rfl).mpr
    ⟨by decide, by decide, by
      rw [SocketConnection.Room, if_neg fun both => both.2 rfl]
      decide⟩

/-- A definition of 1025 bytes is lost. -/
theorem not_transfers_long : ¬∀ (localFiles : FileMap) (file : File) (data : Bytes) (command : SendCommand)
    (c : StreamConnection FileManager), sendLocalData localFiles file.address data = .ok command →
    1 ≤ data.length → data.length ≤ maxFileSize → FileManager.Reached quietPeer c.fileManager →
    c.isGreetingAccepted = true →
    (c.fileManager.remoteFileMap.findByAddress file.address).1 = some file → file.isOpen = true →
    Transfers id emptySender command quietPeer (fun _ => (true, none)) c file := by
  intro holds
  have size : (List.replicate 1025 (65 : Byte)).length = 1025 := List.length_replicate
  have transfers := holds (definitionFiles 1025) (definitionFile 1025) (List.replicate 1025 65) _
    (greetedConnection 1025) (by
      have enqueued := @sendLocalData_definitionFile (List.replicate 1025 65) (by rw [size]; decide)
      rw [size] at enqueued
      exact enqueued) (by rw [size]; decide) (by rw [size]; decide) (reached_greetedConnection _) rfl
    (findByAddress_definitionFiles (by decide)) rfl
  have fits := (transfers.fits (by rw [size]; decide) (by rw [size]; decide) (reached_greetedConnection _) rfl
    (findByAddress_definitionFiles (by decide)) rfl).1
  rw [size] at fits
  exact absurd fits (by decide)

end Apx
