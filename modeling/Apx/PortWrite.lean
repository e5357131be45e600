import Apx.FileTransfer
import Apx.NodeBuild
import Apx.Vm

/-! A client writes a value to one of its provide ports (client.c): what is stored in the data of the node, and
what goes to the worker of its file manager. -/

namespace Apx

open LittleEndian

/-- What adt_rbfh_insert returns for the queue of the worker: BUF_E_OK, BUF_E_OVERFLOW or BUF_E_NOT_OK -/
inductive BufError where
  | ok
  | overflow
  | notOk
  deriving DecidableEq, Repr

/-- apx_fileManagerWorker_process_ringbuffer_error -/
def BufError.processRingbufferError : BufError → Option ApxError
  | ok => none
  | overflow => some .bufferFull
  | notOk => some .memory

/-- What the library answers during one call -/
structure WriteAnswers where
  /-- malloc of a buffer for a port that is too large for the stack -/
  writeBuffer : Bool
  /-- what a buffer holds before it is written -/
  memory : Nat → Byte
  /-- apx_vm_new, with what its memory holds -/
  vmNew : Option ScalarWord
  /-- malloc of a buffer for the worker -/
  sendBuffer : Bool
  insert : BufError

/-- apx_fileManager_t: the files of its two maps, and the commands for the worker -/
structure SendManager where
  localFileMap : FileMap
  remoteFileMap : FileMap := {}
  queue : List SendCommand := []
  deriving DecidableEq

namespace SendManager

/-- apx_fileManagerShared_find_file_by_address -/
def findFileByAddress (self : SendManager) (address : Nat) : Option File × SendManager :=
  if address ≠ invalidAddress then
    let addressWithoutFlags := address &&& 0x7FFFFFFF
    if address &&& 0x80000000 ≠ 0 then
      let (file, map) := self.remoteFileMap.findByAddress addressWithoutFlags
      (file, { self with remoteFileMap := map })
    else
      let (file, map) := self.localFileMap.findByAddress addressWithoutFlags
      (file, { self with localFileMap := map })
  else (none, self)

/-- apx_fileManagerWorker_prepare_send_local_data -/
def prepareSendLocalData (self : SendManager) (address : Nat) (data : Bytes) (insert : BufError) :
    Option ApxError × SendManager :=
  let self := if insert = .ok then { self with queue := self.queue ++ [⟨address, data⟩] } else self
  (insert.processRingbufferError, self)

/-- apx_fileManager_send_local_data -/
def sendLocalData (self : SendManager) (address : Nat) (data : Bytes) (insert : BufError) :
    Option ApxError × SendManager :=
  match self.findFileByAddress address with
  | (none, self) => (some .fileNotFound, self)
  | (some file, self) =>
    if file.isOpen then self.prepareSendLocalData address data insert else (some .fileNotOpen, self)

end SendManager

/-- apx_client_t with one of its nodes: the provide port data of the node, the file with them, and the file
manager of that file -/
structure PortWriter where
  vm : Option Vm := none
  providePortData : Bytes
  providePortDataFile : Option File := none
  fileManager : Option SendManager := none

/-- MAX_STACK_BUFFER_SIZE -/
def maxStackBufferSize : Nat := 256

namespace PortWriter

/-- The virtual machine that packs, which is made when there is none -/
def machine (self : PortWriter) (answers : WriteAnswers) : Option Vm :=
  match self.vm with
  | some vm => some vm
  | none => answers.vmNew.map Vm.create

/-- A buffer of `size` bytes as it is allocated -/
def freshBuffer (answers : WriteAnswers) (size : Nat) : Bytes := (List.range size).map answers.memory

/-- apx_client_write_port_data up to the packed value. A machine that made its buffer longer has written
behind it. -/
def packPort (dtl : Dtl) (fuel : Nat) (answers : WriteAnswers) (self : PortWriter) (port : PortInstance)
    (value : Dv) : Option (Result PortWriter Bytes) :=
  if port.portType ≠ .provide then some (.fail (.code .invalidPortHandle) self)
  else
    match port.packProgram with
    | none => some (.fail (.code .invalidProgram) self)
    | some program =>
      if port.dataSize > maxStackBufferSize ∧ answers.writeBuffer = false then some (.fail (.code .memory) self)
      else
        match self.machine answers with
        | none => some (.fail (.code .memory) self)
        | some vm =>
          match vm.packWith dtl fuel program (freshBuffer answers port.dataSize) value with
          | none => none
          | some (.fail failure vm) => some (.fail failure { self with vm := some vm })
          | some (.ok _ vm) =>
            let bytes := vm.serializer.buffer.bytes
            if bytes.length ≠ port.dataSize then some (.fail .outOfBounds { self with vm := some vm })
            else some (.ok bytes { self with vm := some vm })

/-- remote_route_data_to_file -/
def remoteRouteDataToFile (answers : WriteAnswers) (self : PortWriter) (file : File) (offset : Nat)
    (data : Bytes) : Result PortWriter Unit :=
  match self.fileManager with
  | none => .fail (.code .nullPtr) self
  | some manager =>
    if file.isOpen = false then .fail (.code .fileNotOpen) self
    else if answers.sendBuffer = false then .fail (.code .memory) self
    else
      match manager.sendLocalData (u32 (file.address + offset)) data answers.insert with
      | (some error, manager) => .fail (.code error) { self with fileManager := some manager }
      | (none, manager) => .ok () { self with fileManager := some manager }

/-- remote_route_provide_port_data with apx_nodeData_write_provide_port_data -/
def remoteRouteProvidePortData (answers : WriteAnswers) (self : PortWriter) (offset : Nat) (data : Bytes) :
    Result PortWriter Unit :=
  if offset + data.length > self.providePortData.length then .fail (.code .invalidArgument) self
  else
    let self := { self with providePortData := splice self.providePortData offset data }
    match self.providePortDataFile with
    | none => .ok () self
    | some file => self.remoteRouteDataToFile answers file offset data

/-- apx_client_write_port_data -/
def writePortData (dtl : Dtl) (fuel : Nat) (answers : WriteAnswers) (self : PortWriter) (port : PortInstance)
    (value : Dv) : Option (Result PortWriter Unit) :=
  (self.packPort dtl fuel answers port value).map fun packed =>
    packed.bind fun bytes self => self.remoteRouteProvidePortData answers port.dataOffset bytes

/-! What the property says -/

/-- The commands that wait for the worker -/
def queued (self : PortWriter) : List SendCommand := (self.fileManager.map (·.queue)).getD []

/-- The pack program of the port produces these bytes for the value. -/
def Produces (dtl : Dtl) (answers : WriteAnswers) (self : PortWriter) (port : PortInstance) (value : Dv)
    (bytes : Bytes) : Prop :=
  ∃ program vm vm', port.packProgram = some program ∧ self.machine answers = some vm ∧
    vm.Packs dtl program (freshBuffer answers port.dataSize) value (.ok () vm') ∧
    vm'.serializer.buffer.bytes = bytes

/-- The message that goes to the worker when the file is open -/
def message (self : PortWriter) (offset : Nat) (data : Bytes) : List SendCommand :=
  match self.providePortDataFile with
  | none => []
  | some file => if file.isOpen then [⟨u32 (file.address + offset), data⟩] else []

structure Wrote (writer writer' : PortWriter) (port : PortInstance) (bytes : Bytes) : Prop where
  size : bytes.length = port.dataSize
  region : slice writer'.providePortData port.dataOffset port.dataSize = bytes
  others : ∀ i, i < port.dataOffset ∨ port.dataOffset + port.dataSize ≤ i →
    writer'.providePortData[i]? = writer.providePortData[i]?
  queued : writer'.queued = writer.queued ++ writer.message port.dataOffset bytes

/-- An error means that nothing happened, and success that the value was written and sent. -/
def AllOrNothing (dtl : Dtl) (answers : WriteAnswers) (self : PortWriter) (port : PortInstance) (value : Dv) :
    Prop :=
  ∀ fuel result, self.writePortData dtl fuel answers port value = some result →
    match result with
    | .fail _ self' => self'.providePortData = self.providePortData ∧ self'.queued = self.queued
    | .ok _ self' => ∃ bytes, self.Produces dtl answers port value bytes ∧ self.Wrote self' port bytes

/-- The file has a file manager and is open, there is memory for the message, the file that the manager finds
at its address is open too, and the queue takes the message. -/
structure Sends (answers : WriteAnswers) (writer : PortWriter) (file : File) (offset : Nat) : Prop where
  isOpen : file.isOpen = true
  memory : answers.sendBuffer = true
  found : ∃ manager, writer.fileManager = some manager ∧
    ∃ other, (manager.findFileByAddress (u32 (file.address + offset))).1 = some other ∧ other.isOpen = true
  room : answers.insert = .ok

/-- There is no file, or the message goes to the worker. -/
def Routed (answers : WriteAnswers) (self : PortWriter) (offset : Nat) : Prop :=
  ∀ file, self.providePortDataFile = some file → self.Sends answers file offset

/-- The value is packed, and the region of the port lies inside of the data. -/
def Stores (dtl : Dtl) (answers : WriteAnswers) (self : PortWriter) (port : PortInstance) (value : Dv)
    (bytes : Bytes) : Prop :=
  (∃ fuel self', self.packPort dtl fuel answers port value = some (.ok bytes self')) ∧
    port.dataOffset + port.dataSize ≤ self.providePortData.length

/-! The steps of a write -/

/-- Packing changes nothing but the machine. -/
structure SameData (writer writer' : PortWriter) : Prop where
  data : writer'.providePortData = writer.providePortData
  file : writer'.providePortDataFile = writer.providePortDataFile
  manager : writer'.fileManager = writer.fileManager

theorem packPort_frame {dtl : Dtl} {fuel : Nat} {answers : WriteAnswers} {self : PortWriter} {port : PortInstance}
    {value : Dv} {packed : Result PortWriter Bytes}
    (done : self.packPort dtl fuel answers port value = some packed) : self.SameData packed.state := by
  have same (vm : Option Vm) : self.SameData { self with vm := vm } := ⟨rfl, rfl, rfl⟩
  have here : self.SameData self := same self.vm
  unfold packPort at done
  split at done
  · cases done
    exact here
  split at done
  · cases done
    exact here
  split at done
  · cases done
    exact here
  split at done
  · cases done
    exact here
  split at done
  · contradiction
  · cases done
    exact same _
  · simp only at done
    split at done
    · cases done
      exact same _
    · cases done
      exact same _

theorem packPort_ok {dtl : Dtl} {fuel : Nat} {answers : WriteAnswers} {self self' : PortWriter}
    {port : PortInstance} {value : Dv} {bytes : Bytes}
    (done : self.packPort dtl fuel answers port value = some (.ok bytes self')) :
    self.Produces dtl answers port value bytes ∧ bytes.length = port.dataSize := by
  unfold packPort at done
  split at done
  · simp at done
  split at done
  · simp at done
  next program found =>
    split at done
    · simp at done
    split at done
    · simp at done
    next vm machine =>
      split at done
      · contradiction
      · simp at done
      next vm' packs =>
        simp only at done
        split at done
        · simp at done
        next size =>
          cases done
          exact ⟨⟨program, vm, vm', found, machine, ⟨fuel, packs⟩, rfl⟩, not_not.mp size⟩

theorem findFileByAddress_queue (manager : SendManager) (address : Nat) :
    (manager.findFileByAddress address).2.queue = manager.queue := by
  unfold SendManager.findFileByAddress
  split
  · simp only
    split
    · rfl
    · rfl
  · rfl

/-- The worker gets the message or the caller an error. -/
theorem sendLocalData_eq (manager : SendManager) (address : Nat) (data : Bytes) (insert : BufError) :
    let Taken := (∃ found, (manager.findFileByAddress address).1 = some found ∧ found.isOpen = true) ∧ insert = .ok
    (Taken → (manager.sendLocalData address data insert).1 = none ∧
      (manager.sendLocalData address data insert).2.queue = manager.queue ++ [⟨address, data⟩]) ∧
    (¬Taken → (manager.sendLocalData address data insert).1 ≠ none ∧
      (manager.sendLocalData address data insert).2.queue = manager.queue) := by
  have kept := findFileByAddress_queue manager address
  unfold SendManager.sendLocalData
  generalize manager.findFileByAddress address = looked at kept ⊢
  obtain ⟨file, after⟩ := looked
  cases file with
  | none => exact ⟨fun taken => by simp at taken, fun _ => ⟨nofun, kept⟩⟩
  | some file =>
    by_cases isOpen : file.isOpen = true
    · simp only [if_pos isOpen, SendManager.prepareSendLocalData]
      cases insert with
      | ok =>
        rw [if_pos rfl]
        refine ⟨fun _ => ⟨rfl, congrArg (· ++ [_]) kept⟩, fun other => ?_⟩
        exact absurd ⟨⟨file, rfl, isOpen⟩, rfl⟩ other
      | overflow => exact ⟨fun taken => BufError.noConfusion taken.2, fun _ => ⟨nofun, kept⟩⟩
      | notOk => exact ⟨fun taken => BufError.noConfusion taken.2, fun _ => ⟨nofun, kept⟩⟩
    · simp only [if_neg isOpen]
      refine ⟨?_, fun _ => ⟨nofun, kept⟩⟩
      rintro ⟨⟨found, same, other⟩, -⟩
      exact absurd (Option.some.inj same ▸ other) isOpen

theorem remoteRouteDataToFile_eq (answers : WriteAnswers) (self : PortWriter) (file : File) (offset : Nat)
    (data : Bytes) :
    let result := self.remoteRouteDataToFile answers file offset data
    result.state.providePortData = self.providePortData ∧
      (self.Sends answers file offset → result.failure? = none ∧
        result.state.queued = self.queued ++ [⟨u32 (file.address + offset), data⟩]) ∧
      (¬self.Sends answers file offset → result.failure? ≠ none ∧ result.state.queued = self.queued) := by
  simp only [remoteRouteDataToFile]
  cases managed : self.fileManager with
  | none =>
    refine ⟨rfl, ?_, fun _ => ⟨nofun, rfl⟩⟩
    rintro ⟨-, -, ⟨manager, same, -⟩, -⟩
    rw [managed] at same
    contradiction
  | some manager =>
    by_cases isOpen : file.isOpen = true
    · by_cases memory : answers.sendBuffer = true
      · have sent := sendLocalData_eq manager (u32 (file.address + offset)) data answers.insert
        have sends_iff : self.Sends answers file offset ↔
            (∃ found, (manager.findFileByAddress (u32 (file.address + offset))).1 = some found ∧
              found.isOpen = true) ∧ answers.insert = .ok := by
          constructor
          · rintro ⟨-, -, ⟨manager', same, found⟩, room⟩
            rw [managed] at same
            cases same
            exact ⟨found, room⟩
          · rintro ⟨found, room⟩
            exact ⟨isOpen, memory, ⟨manager, managed, found⟩, room⟩
        have before : self.queued = manager.queue := by
          rw [queued, managed]
          rfl
        simp only [← sends_iff] at sent
        simp only [isOpen, memory, Bool.true_eq_false, if_false, before]
        generalize manager.sendLocalData (u32 (file.address + offset)) data answers.insert = answer at sent ⊢
        obtain ⟨error, after⟩ := answer
        by_cases sends : self.Sends answers file offset
        · obtain ⟨rfl, grown⟩ := sent.1 sends
          exact ⟨rfl, fun _ => ⟨rfl, grown⟩, fun other => absurd sends other⟩
        · obtain ⟨fails, same⟩ := sent.2 sends
          obtain ⟨error', rfl⟩ := Option.ne_none_iff_exists'.mp fails
          exact ⟨rfl, fun other => absurd other sends, fun _ => ⟨nofun, same⟩⟩
      · have none_ : answers.sendBuffer = false := by simpa using memory
        simp only [isOpen, none_, Bool.true_eq_false, if_false, if_true]
        exact ⟨rfl, fun sends => absurd sends.memory memory, fun _ => ⟨nofun, rfl⟩⟩
    · have closed : file.isOpen = false := by simpa using isOpen
      simp only [closed, if_true]
      exact ⟨rfl, fun sends => absurd sends.isOpen isOpen, fun _ => ⟨nofun, rfl⟩⟩

/-- A region inside of the data is stored first, whatever becomes of the message. -/
theorem remoteRouteProvidePortData_eq (answers : WriteAnswers) (self : PortWriter) {offset : Nat} {data : Bytes}
    (inside : offset + data.length ≤ self.providePortData.length) :
    let result := self.remoteRouteProvidePortData answers offset data
    result.state.providePortData = splice self.providePortData offset data ∧
      (self.Routed answers offset → result.failure? = none ∧
        result.state.queued = self.queued ++ self.message offset data) ∧
      (¬self.Routed answers offset → result.failure? ≠ none ∧ result.state.queued = self.queued) := by
  simp only [remoteRouteProvidePortData, if_neg (Nat.not_lt.mpr inside)]
  cases there : self.providePortDataFile with
  | none =>
    have routed : self.Routed answers offset := fun file same => by simp [there] at same
    refine ⟨rfl, fun _ => ⟨rfl, ?_⟩, fun fails => absurd routed fails⟩
    rw [message, there]
    exact (List.append_nil _).symm
  | some file =>
    have routed_iff : self.Routed answers offset ↔ self.Sends answers file offset := by
      rw [Routed, there]
      exact ⟨fun routed => routed file rfl, fun sends file' same => Option.some.inj same ▸ sends⟩
    obtain ⟨stored, sent, refused⟩ := remoteRouteDataToFile_eq answers
      { self with
        providePortData := splice self.providePortData offset data, providePortDataFile := some file } file offset
      data
    refine ⟨stored, fun routed => ?_, fun fails => ?_⟩
    · have sends := routed_iff.mp routed
      obtain ⟨fine, grown⟩ := sent ⟨sends.isOpen, sends.memory, sends.found, sends.room⟩
      rw [message, there]
      simp only [sends.isOpen, if_true]
      exact ⟨fine, grown⟩
    · apply refused
      rintro ⟨isOpen, memory, found, room⟩
      exact fails (routed_iff.mpr ⟨isOpen, memory, found, room⟩)

theorem SameData.routed_iff {answers : WriteAnswers} {writer writer' : PortWriter} (same : writer.SameData writer')
    (offset : Nat) : writer'.Routed answers offset ↔ writer.Routed answers offset := by
  rw [Routed, Routed, same.file]
  constructor
  · intro routed file here
    obtain ⟨isOpen, memory, found, room⟩ := routed file here
    exact ⟨isOpen, memory, same.manager ▸ found, room⟩
  · intro routed file here
    obtain ⟨isOpen, memory, found, room⟩ := routed file here
    exact ⟨isOpen, memory, same.manager ▸ found, room⟩

theorem SameData.queued {writer writer' : PortWriter} (same : writer.SameData writer') :
    writer'.queued = writer.queued := by
  rw [PortWriter.queued, PortWriter.queued, same.manager]

theorem SameData.message {writer writer' : PortWriter} (same : writer.SameData writer') (offset : Nat)
    (data : Bytes) : writer'.message offset data = writer.message offset data := by
  rw [PortWriter.message, PortWriter.message, same.file]

theorem writePortData_packed {dtl : Dtl} {fuel : Nat} {answers : WriteAnswers} {self self' : PortWriter}
    {port : PortInstance} {value : Dv} {bytes : Bytes}
    (packed : self.packPort dtl fuel answers port value = some (.ok bytes self')) :
    self.writePortData dtl fuel answers port value =
      some (self'.remoteRouteProvidePortData answers port.dataOffset bytes) := by
  rw [writePortData, packed]
  rfl

/-- A write is all or nothing exactly when the message goes to the worker, unless there is no message, nothing is
stored or what is stored stands there already. -/
theorem allOrNothing_iff (dtl : Dtl) (answers : WriteAnswers) (self : PortWriter) (port : PortInstance)
    (value : Dv) : self.AllOrNothing dtl answers port value ↔ ∀ bytes, self.Stores dtl answers port value bytes →
      self.Routed answers port.dataOffset ∨ slice self.providePortData port.dataOffset port.dataSize = bytes := by
  constructor
  · rintro all bytes ⟨⟨fuel, self', packed⟩, inside⟩
    by_cases routed : self.Routed answers port.dataOffset
    · exact .inl routed
    right
    have same := packPort_frame packed
    have size := (packPort_ok packed).2
    rw [← size] at inside ⊢
    have room : port.dataOffset + bytes.length ≤ self'.providePortData.length := by
      rw [show self'.providePortData = self.providePortData from same.data]
      exact inside
    obtain ⟨stored, -, refused⟩ := self'.remoteRouteProvidePortData_eq answers room
    have fails := (refused fun sent => routed ((same.routed_iff _).mp sent)).1
    have outcome := all fuel _ (writePortData_packed packed)
    generalize self'.remoteRouteProvidePortData answers port.dataOffset bytes = result at stored fails outcome
    cases result with
    | ok _ last => exact absurd rfl fails
    | fail failure last =>
      have old : splice self.providePortData port.dataOffset bytes = self.providePortData := by
        rw [← show self'.providePortData = self.providePortData from same.data, ← show last.providePortData = _ from stored,
          outcome.1]
        exact same.data.symm
      calc slice self.providePortData port.dataOffset bytes.length
          = slice (splice self.providePortData port.dataOffset bytes) port.dataOffset bytes.length := by rw [old]
        _ = bytes := slice_splice inside
  · intro condition fuel result done
    obtain ⟨packed, ran, rfl⟩ := Option.map_eq_some_iff.mp done
    have same := packPort_frame ran
    cases packed with
    | fail failure self' => exact ⟨same.data, same.queued⟩
    | ok bytes self' =>
      have same : self.SameData self' := packPort_frame ran
      obtain ⟨produces, size⟩ := packPort_ok ran
      have data : self'.providePortData = self.providePortData := same.data
      change match self'.remoteRouteProvidePortData answers port.dataOffset bytes with
        | .fail _ last => last.providePortData = self.providePortData ∧ last.queued = self.queued
        | .ok _ last => ∃ bytes, self.Produces dtl answers port value bytes ∧ self.Wrote last port bytes
      by_cases inside : port.dataOffset + bytes.length ≤ self'.providePortData.length
      · obtain ⟨stored, sent, refused⟩ := self'.remoteRouteProvidePortData_eq answers inside
        rw [data] at inside stored
        rw [same.routed_iff] at sent refused
        by_cases routed : self.Routed answers port.dataOffset
        · obtain ⟨fine, grown⟩ := sent routed
          generalize self'.remoteRouteProvidePortData answers port.dataOffset bytes = result at stored fine grown ⊢
          cases result with
          | fail failure last => contradiction
          | ok _ last =>
            have after : last.providePortData = splice self.providePortData port.dataOffset bytes := stored
            refine ⟨bytes, produces, size, ?_, ?_, ?_⟩
            · rw [after, ← size, slice_splice inside]
            · intro i outside
              rw [after, splice_getElem? inside, if_neg (by omega)]
            · rw [same.queued, same.message] at grown
              exact grown
        · obtain ⟨fails, kept⟩ := refused routed
          have there : slice self.providePortData port.dataOffset bytes.length = bytes := by
            rw [size]
            exact (condition bytes ⟨⟨fuel, self', ran⟩, size ▸ inside⟩).resolve_left routed
          generalize self'.remoteRouteProvidePortData answers port.dataOffset bytes = result at stored fails kept ⊢
          cases result with
          | ok _ last => exact absurd rfl fails
          | fail failure last => exact ⟨stored.trans (splice_slice there), kept.trans same.queued⟩
      · rw [remoteRouteProvidePortData, if_pos (Nat.lt_of_not_le inside)]
        exact ⟨same.data, same.queued⟩

def bytePort : PortInstance where
  portType := .provide
  packProgram := (compilePort (.leaf none .uint8 0 false none) 0 .pack).program
  dataSize := 1

/-- A node whose file has been published and not been opened yet -/
def publishedWriter : PortWriter where
  providePortData := [0]
  providePortDataFile := some { address := 0, size := 1, fileType := .providePortData }
  fileManager := some { localFileMap := { fileList := [{ address := 0, size := 1, fileType := .providePortData }] } }

/-- Everything that is asked for is there. -/
def fullAnswers : WriteAnswers where
  writeBuffer := true
  memory _ := 0
  vmNew := some 0
  sendBuffer := true
  insert := .ok

/-- The value is stored although the call returns that the file is not open. -/
theorem not_allOrNothing_published :
    ¬∀ dtl answers (self : PortWriter) port value, self.AllOrNothing dtl answers port value := by
  intro all
  have stores : (publishedWriter.writePortData .numeric 3 fullAnswers bytePort (.scalar (.u32 7))).map
      (fun result => (result.failure?, result.state.providePortData)) =
        some (some (.code .fileNotOpen), [7]) := by decide +kernel
  obtain ⟨result, done, outcome⟩ := Option.map_eq_some_iff.mp stores
  have kept := all .numeric fullAnswers publishedWriter bytePort (.scalar (.u32 7)) 3 result done
  rw [Prod.mk.injEq] at outcome
  cases result with
  | ok _ last => exact absurd outcome.1 nofun
  | fail failure last => exact absurd (outcome.2.symm.trans kept.1) (by decide)

end PortWriter

end Apx
