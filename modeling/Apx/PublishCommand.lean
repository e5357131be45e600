import Apx.DecoderCursor

/-! The command that publishes a file, as one side writes it and the other reads it (file_info.c). -/

namespace Apx

open LittleEndian

/-- rmf_fileType_t -/
inductive RmfFileType where
  | fixed
  | dynamic8
  | dynamic16
  | dynamic32
  | device
  | stream
  deriving DecidableEq, Repr

def RmfFileType.toNat : RmfFileType → Nat
  | fixed => 0
  | dynamic8 => 1
  | dynamic16 => 2
  | dynamic32 => 3
  | device => 4
  | stream => 5

/-- rmf_digestType_t -/
inductive RmfDigestType where
  | none
  | sha1
  | sha256
  deriving DecidableEq, Repr

def RmfDigestType.toNat : RmfDigestType → Nat
  | none => 0
  | sha1 => 1
  | sha256 => 2

def sha1Size : Nat := 20
def sha256Size : Nat := 32
def fileInfoHeaderSize : Nat := 48
def rmfMaxFileNameSize : Nat := 255
def cmdPublishFileMsg : Nat := 3

/-- rmf_fileInfo_t -/
structure RmfFileInfo where
  address : UInt32
  size : UInt32
  rmfFileType : RmfFileType
  digestType : RmfDigestType
  digestData : { data : Bytes // data.length = sha256Size }
  name : Bytes
  deriving DecidableEq

def RmfFileInfo.addressWithoutFlags (self : RmfFileInfo) : UInt32 := self.address &&& 0x7FFFFFFF

/-- strlen of a string that is stored with a zero behind it -/
def strlen (name : Bytes) : Nat := (name.takeWhile (· ≠ 0)).length

/-- rmf_encode_publish_file_cmd: the returned size and the buffer afterwards -/
def rmfEncodePublishFileCmd (buf : Bytes) (file : RmfFileInfo) : Nat × Bytes :=
  let nameSize := strlen file.name % 2 ^ 32
  let requiredSize := (fileInfoHeaderSize + nameSize + 1) % 2 ^ 32
  if requiredSize > buf.length then (0, buf)
  else
    let buf := splice buf 0 (packLE cmdPublishFileMsg 4)
    let buf := splice buf 4 (packLE file.addressWithoutFlags.toNat 4)
    let buf := splice buf 8 (packLE file.size.toNat 4)
    let buf := splice buf 12 (packLE file.rmfFileType.toNat 2)
    let buf := splice buf 14 (packLE file.digestType.toNat 2)
    let buf := match file.digestType with
      | .none => splice buf 16 (List.replicate sha256Size 0)
      | .sha1 => splice (splice buf 16 (file.digestData.val.take sha1Size)) (16 + sha1Size)
          (List.replicate (sha256Size - sha1Size) 0)
      | .sha256 => splice buf 16 file.digestData.val
    let buf := splice buf 48 (file.name.take nameSize)
    (requiredSize, splice buf (48 + nameSize) [0])

/-- rmf_value_to_file_type -/
def rmfValueToFileType : Nat → Option RmfFileType
  | 0 => some .fixed
  | 1 => some .dynamic8
  | 2 => some .dynamic16
  | 3 => some .dynamic32
  | 4 => some .device
  | 5 => some .stream
  | _ => none

/-- rmf_value_to_digest_type -/
def rmfValueToDigestType : Nat → Option RmfDigestType
  | 0 => some .none
  | 1 => some .sha1
  | 2 => some .sha256
  | _ => none

/-- rmf_decode_publish_file_cmd: the returned size and the file info afterwards, which also a refused
command may have changed -/
def rmfDecodePublishFileCmd (buf : Bytes) (fileInfo : RmfFileInfo) : Nat × RmfFileInfo :=
  if long : fileInfoHeaderSize < buf.length then
    if unpackLE (slice buf 0 4) ≠ cmdPublishFileMsg then (0, fileInfo)
    else
      let fileInfo := { fileInfo with
        address := UInt32.ofNat (unpackLE (slice buf 4 4))
        size := UInt32.ofNat (unpackLE (slice buf 8 4))
        digestData := ⟨slice buf 16 sha256Size, slice_length (Nat.le_of_lt long)⟩ }
      match rmfValueToFileType (unpackLE (slice buf 12 2)) with
      | none => (0, fileInfo)
      | some fileType =>
        let fileInfo := { fileInfo with rmfFileType := fileType }
        match rmfValueToDigestType (unpackLE (slice buf 14 2)) with
        | none => (0, fileInfo)
        | some digestType =>
          let fileInfo := { fileInfo with digestType := digestType }
          let result := Decoder.whileNotZero buf 48
          if result > 48 ∧ result < buf.length then
            (result, { fileInfo with name := slice buf 48 (result - 48) })
          else (0, fileInfo)
  else (0, fileInfo)

/-- The message that run_publish_local_file hands to the connection. Its buffer holds anything before. -/
def runPublishLocalFile (buffer : Bytes) (file : RmfFileInfo) : Except ApxError Bytes :=
  let (encodedSize, buffer) := rmfEncodePublishFileCmd buffer file
  if encodedSize = 0 then .error .bufferBoundary else .ok (buffer.take encodedSize)

/-- The size of the buffer in run_publish_local_file -/
def publishBufferSize : Nat := fileInfoHeaderSize + rmfMaxFileNameSize + 1

/-! What the encoder writes -/

def RmfDigestType.size : RmfDigestType → Nat
  | none => 0
  | sha1 => sha1Size
  | sha256 => sha256Size

theorem RmfDigestType.size_le (type : RmfDigestType) : type.size ≤ sha256Size := by
  cases type <;> decide

namespace RmfFileInfo

/-- The bytes of the digest, which are as many as its type has -/
def digest (file : RmfFileInfo) : Bytes := file.digestData.val.take file.digestType.size

def digestArea (file : RmfFileInfo) : Bytes :=
  file.digest ++ List.replicate (sha256Size - file.digestType.size) 0

theorem digest_length (file : RmfFileInfo) : file.digest.length = file.digestType.size := by
  rw [digest, List.length_take, file.digestData.property]
  exact Nat.min_eq_left file.digestType.size_le

theorem digestArea_length (file : RmfFileInfo) : file.digestArea.length = sha256Size := by
  rw [digestArea, List.length_append, digest_length, List.length_replicate]
  exact Nat.add_sub_cancel' file.digestType.size_le

/-- What stands in front of the name -/
def header (file : RmfFileInfo) : Bytes :=
  packLE cmdPublishFileMsg 4 ++ packLE file.addressWithoutFlags.toNat 4 ++ packLE file.size.toNat 4 ++
    packLE file.rmfFileType.toNat 2 ++ packLE file.digestType.toNat 2 ++ file.digestArea

theorem header_length (file : RmfFileInfo) : file.header.length = fileInfoHeaderSize := by
  simp only [header, List.length_append, packLE_length, digestArea_length]
  rfl

def command (file : RmfFileInfo) : Bytes := file.header ++ file.name ++ [0]

theorem command_length (file : RmfFileInfo) :
    file.command.length = fileInfoHeaderSize + file.name.length + 1 := by
  rw [command, List.length_append, List.length_append, header_length]
  rfl

structure Named (file : RmfFileInfo) : Prop where
  nonempty : file.name ≠ []
  short : file.name.length ≤ rmfMaxFileNameSize
  nonzero : 0 ∉ file.name

theorem Named.strlen {file : RmfFileInfo} (named : file.Named) : strlen file.name = file.name.length := by
  rw [Apx.strlen, List.takeWhile_eq_self_iff.mpr]
  intro b mem
  simpa using fun zero : b = 0 => named.nonzero (zero ▸ mem)

/-- Writes behind each other from the beginning of a buffer on -/
theorem splice_next (buf : Bytes) {front data : Bytes} {offset : Nat} (here : front.length = offset) :
    splice (splice buf 0 front) offset data = splice buf 0 (front ++ data) := by
  have one := splice_splice front data (Nat.zero_le buf.length)
  rwa [Nat.zero_add, here] at one

theorem digestArea_eq (file : RmfFileInfo) (buf : Bytes) {front : Bytes} (here : front.length = 16) :
    (match file.digestType with
      | .none => splice (splice buf 0 front) 16 (List.replicate sha256Size 0)
      | .sha1 => splice (splice (splice buf 0 front) 16 (file.digestData.val.take sha1Size)) (16 + sha1Size)
          (List.replicate (sha256Size - sha1Size) 0)
      | .sha256 => splice (splice buf 0 front) 16 file.digestData.val) =
      splice buf 0 (front ++ file.digestArea) := by
  have full := file.digestData.property
  rw [digestArea, digest]
  cases file.digestType with
  | none => exact splice_next buf here
  | sha1 =>
    have part : (file.digestData.val.take sha1Size).length = sha1Size := by
      rw [List.length_take, full]
      rfl
    have both : (front ++ file.digestData.val.take sha1Size).length = 16 + sha1Size := by
      rw [List.length_append, here, part]
    simp only [splice_next buf here, splice_next buf both, List.append_assoc]
    rfl
  | sha256 =>
    simp only [splice_next buf here, RmfDigestType.size, ← full, List.take_length, Nat.sub_self,
      List.replicate_zero, List.append_nil]

/-- In a buffer that is long enough the encoder writes the command and nothing behind it. -/
theorem encode_eq {file : RmfFileInfo} (named : file.Named) {buf : Bytes}
    (room : file.command.length ≤ buf.length) : rmfEncodePublishFileCmd buf file =
      (file.command.length, file.command ++ buf.drop file.command.length) := by
  have short := named.short
  have small : file.name.length % 2 ^ 32 = file.name.length :=
    Nat.mod_eq_of_lt (Nat.lt_of_le_of_lt short (by decide))
  have required : (fileInfoHeaderSize + file.name.length + 1) % 2 ^ 32 = file.command.length := by
    rw [command_length]
    apply Nat.mod_eq_of_lt
    rw [rmfMaxFileNameSize] at short
    rw [fileInfoHeaderSize]
    omega
  rw [rmfEncodePublishFileCmd, named.strlen]
  simp only [small, required, if_neg (Nat.not_lt.mpr room), List.take_length]
  have front : file.header.length = 48 := file.header_length
  have named_ : (file.header ++ file.name).length = 48 + file.name.length := by
    rw [List.length_append, front]
  rw [splice_next buf (packLE_length _ 4), splice_next buf (by simp), splice_next buf (by simp),
    splice_next buf (by simp), file.digestArea_eq buf (by simp), ← header, splice_next buf front,
    splice_next buf named_, ← command, splice, List.take_zero, List.nil_append, Nat.zero_add]

/-! What the decoder makes of it -/

theorem rmfValueToFileType_toNat (type : RmfFileType) : rmfValueToFileType type.toNat = some type := by
  cases type <;> rfl

theorem rmfValueToDigestType_toNat (type : RmfDigestType) : rmfValueToDigestType type.toNat = some type := by
  cases type <;> rfl

theorem rmfFileType_lt (type : RmfFileType) : type.toNat < 256 ^ 2 := by
  cases type <;> decide

theorem rmfDigestType_lt (type : RmfDigestType) : type.toNat < 256 ^ 2 := by
  cases type <;> decide

theorem command_fields (file : RmfFileInfo) (tail : Bytes) :
    slice (file.command ++ tail) 0 4 = packLE cmdPublishFileMsg 4 ∧
    slice (file.command ++ tail) 4 4 = packLE file.addressWithoutFlags.toNat 4 ∧
    slice (file.command ++ tail) 8 4 = packLE file.size.toNat 4 ∧
    slice (file.command ++ tail) 12 2 = packLE file.rmfFileType.toNat 2 ∧
    slice (file.command ++ tail) 14 2 = packLE file.digestType.toNat 2 ∧
    slice (file.command ++ tail) 16 sha256Size = file.digestArea ∧
    (file.command ++ tail).drop 48 = file.name ++ 0 :: tail := by
  have whole : file.command ++ tail = packLE cmdPublishFileMsg 4 ++ (packLE file.addressWithoutFlags.toNat 4 ++
      (packLE file.size.toNat 4 ++ (packLE file.rmfFileType.toNat 2 ++ (packLE file.digestType.toNat 2 ++
      (file.digestArea ++ (file.name ++ 0 :: tail)))))) := by
    simp only [command, header, List.append_assoc, List.singleton_append]
  have type_ : (file.command ++ tail).drop 0 = _ := whole
  have address := drop_of_drop type_
  have size := drop_of_drop address
  have fileType := drop_of_drop size
  have digestType := drop_of_drop fileType
  have digest := drop_of_drop digestType
  have name := drop_of_drop digest
  rw [digestArea_length] at name
  exact ⟨slice_of_drop type_ (packLE_length _ _), slice_of_drop address (packLE_length _ _),
    slice_of_drop size (packLE_length _ _), slice_of_drop fileType (packLE_length _ _),
    slice_of_drop digestType (packLE_length _ _), slice_of_drop digest file.digestArea_length, name⟩

/-- What a decoded file info has in common with the one that was encoded -/
structure PublishedAs (file decoded : RmfFileInfo) : Prop where
  name : decoded.name = file.name
  size : decoded.size = file.size
  rmfFileType : decoded.rmfFileType = file.rmfFileType
  digestType : decoded.digestType = file.digestType
  digest : decoded.digest = file.digest
  area : decoded.digestData.val = file.digestArea
  address : decoded.address = file.addressWithoutFlags

theorem decode_command {file : RmfFileInfo} (named : file.Named) (tail : Bytes) (fileInfo : RmfFileInfo) :
    (rmfDecodePublishFileCmd (file.command ++ tail) fileInfo).1 = fileInfoHeaderSize + file.name.length ∧
      file.PublishedAs (rmfDecodePublishFileCmd (file.command ++ tail) fileInfo).2 := by
  obtain ⟨cmd, address, size, fileType, digestType, digest, name⟩ := file.command_fields tail
  have long : fileInfoHeaderSize < (file.command ++ tail).length := by
    rw [List.length_append, command_length]
    omega
  have number (value : UInt32) : UInt32.ofNat (unpackLE (packLE value.toNat 4)) = value := by
    rw [unpackLE_packLE_of_lt value.toNat_lt, UInt32.ofNat_toNat]
  have known : unpackLE (packLE cmdPublishFileMsg 4) = cmdPublishFileMsg := by decide
  have stop := Decoder.whileNotZero_of_drop name named.nonzero
  have positive := List.length_pos_iff.mpr named.nonempty
  have inside : 48 + file.name.length > 48 ∧ 48 + file.name.length < (file.command ++ tail).length := by
    rw [List.length_append, command_length, fileInfoHeaderSize]
    omega
  rw [rmfDecodePublishFileCmd, dif_pos long]
  simp only [cmd, known, address, size, fileType, digestType, number, unpackLE_packLE_of_lt (rmfFileType_lt _),
    unpackLE_packLE_of_lt (rmfDigestType_lt _), rmfValueToFileType_toNat, rmfValueToDigestType_toNat, stop,
    if_pos inside, ne_eq, not_true_eq_false, if_false]
  refine ⟨rfl, ?_, rfl, rfl, rfl, ?_, digest, rfl⟩
  · rw [Nat.add_sub_cancel_left]
    exact slice_of_drop name rfl
  · change (slice (file.command ++ tail) 16 sha256Size).take file.digestType.size = file.digest
    rw [digest, digestArea, ← file.digest_length, List.take_left]

end RmfFileInfo

/-! What the decoder refuses -/

/-- A byte string that is no command for a file -/
def MalformedPublish (buf : Bytes) : Prop :=
  buf.length ≤ fileInfoHeaderSize ∨ unpackLE (slice buf 0 4) ≠ cmdPublishFileMsg ∨
    6 ≤ unpackLE (slice buf 12 2) ∨ 3 ≤ unpackLE (slice buf 14 2) ∨
    0 ∉ buf.drop fileInfoHeaderSize ∨ buf[fileInfoHeaderSize]? = some 0

theorem rmfValueToFileType_none (value : Nat) : rmfValueToFileType value = none ↔ 6 ≤ value := by
  unfold rmfValueToFileType
  split
  case h_7 no fixed dynamic8 dynamic16 dynamic32 device stream =>
    simp only [imp_false] at fixed dynamic8 dynamic16 dynamic32 device stream
    simp only [true_iff]
    omega
  all_goals simp

theorem rmfValueToDigestType_none (value : Nat) : rmfValueToDigestType value = none ↔ 3 ≤ value := by
  unfold rmfValueToDigestType
  split
  case h_4 no none_ sha1 sha256 =>
    simp only [imp_false] at none_ sha1 sha256
    simp only [true_iff]
    omega
  all_goals simp

/-- A name is found exactly when a terminator follows at least one byte. -/
theorem whileNotZero_name_iff {buf : Bytes} (long : fileInfoHeaderSize < buf.length) :
    Decoder.whileNotZero buf 48 > 48 ∧ Decoder.whileNotZero buf 48 < buf.length ↔
      0 ∈ buf.drop fileInfoHeaderSize ∧ buf[fileInfoHeaderSize]? ≠ some 0 := by
  have ends : Decoder.whileNotZero buf 48 < buf.length ↔ 0 ∈ buf.drop fileInfoHeaderSize := by
    refine ⟨fun before => ?_, Decoder.whileNotZero_lt⟩
    by_contra none_
    exact Nat.ne_of_lt before (Decoder.whileNotZero_eq (Nat.le_of_lt long) none_)
  have begins : Decoder.whileNotZero buf 48 > 48 ↔ buf[fileInfoHeaderSize]? ≠ some 0 := by
    have here := List.drop_eq_getElem_cons long
    have first := List.getElem?_eq_getElem long
    rw [first, Decoder.whileNotZero, show buf.drop 48 = _ from here, List.takeWhile_cons]
    by_cases zero : buf[fileInfoHeaderSize] = 0
    · simp [zero]
    · simp [zero]
  rw [ends, begins, and_comm]

/-- The decoder returns 0 exactly for these. -/
theorem rmfDecodePublishFileCmd_zero_iff (buf : Bytes) (fileInfo : RmfFileInfo) :
    (rmfDecodePublishFileCmd buf fileInfo).1 = 0 ↔ MalformedPublish buf := by
  rw [rmfDecodePublishFileCmd, MalformedPublish, ← rmfValueToFileType_none, ← rmfValueToDigestType_none]
  by_cases long : fileInfoHeaderSize < buf.length
  · rw [dif_pos long, or_iff_right (Nat.not_le.mpr long)]
    by_cases other : unpackLE (slice buf 0 4) ≠ cmdPublishFileMsg
    · rw [if_pos other]
      exact iff_of_true rfl (.inl other)
    rw [if_neg other, or_iff_right other]
    cases rmfValueToFileType (unpackLE (slice buf 12 2)) with
    | none => exact iff_of_true rfl (.inl rfl)
    | some fileType =>
      rw [or_iff_right (Option.some_ne_none fileType)]
      cases rmfValueToDigestType (unpackLE (slice buf 14 2)) with
      | none => exact iff_of_true rfl (.inl rfl)
      | some digestType =>
        rw [or_iff_right (Option.some_ne_none digestType), ← not_iff_not, not_or, not_not,
          ← whileNotZero_name_iff long]
        by_cases named : Decoder.whileNotZero buf 48 > 48 ∧ Decoder.whileNotZero buf 48 < buf.length
        · simp only [if_pos named]
          exact iff_of_true (Nat.ne_of_gt (Nat.lt_trans (by decide) named.1)) named
        · simp only [if_neg named]
          exact iff_of_false (fun refused => refused trivial) named
  · rw [dif_neg long]
    exact iff_of_true rfl (.inl (Nat.le_of_not_lt long))

/-- The worker writes every command whole, into whatever its buffer held. -/
theorem RmfFileInfo.runPublishLocalFile_eq {file : RmfFileInfo} (named : file.Named) {buffer : Bytes}
    (room : buffer.length = publishBufferSize) : runPublishLocalFile buffer file = .ok file.command := by
  have fits : file.command.length ≤ buffer.length := by
    have short := named.short
    rw [room, publishBufferSize, command_length]
    omega
  have some_ : file.command.length ≠ 0 := by
    rw [command_length]
    exact Nat.succ_ne_zero _
  rw [runPublishLocalFile, encode_eq named fits]
  simp only [if_neg some_, List.take_left]

/-- What the worker sends for a file is read back, with anything behind it, as the same file without the
flags of its address. The decoder refuses exactly the malformed commands. -/
theorem publish_roundTrip :
    (∀ file : RmfFileInfo, file.Named → ∃ command : Bytes, command.length ≤ publishBufferSize ∧
      (∀ buffer : Bytes, buffer.length = publishBufferSize →
        rmfEncodePublishFileCmd buffer file = (command.length, command ++ buffer.drop command.length) ∧
        runPublishLocalFile buffer file = .ok command) ∧
      ∀ tail fileInfo, (rmfDecodePublishFileCmd (command ++ tail) fileInfo).1 ≠ 0 ∧
        file.PublishedAs (rmfDecodePublishFileCmd (command ++ tail) fileInfo).2) ∧
    ∀ buf fileInfo, (rmfDecodePublishFileCmd buf fileInfo).1 = 0 ↔ MalformedPublish buf := by
  refine ⟨fun file named => ⟨file.command, ?_, fun buffer room => ⟨?_, ?_⟩, fun tail fileInfo => ?_⟩,
    rmfDecodePublishFileCmd_zero_iff⟩
  · have short := named.short
    rw [publishBufferSize, file.command_length]
    omega
  · have short := named.short
    apply RmfFileInfo.encode_eq named
    rw [room, publishBufferSize, file.command_length]
    omega
  · exact RmfFileInfo.runPublishLocalFile_eq named room
  · obtain ⟨size, same⟩ := RmfFileInfo.decode_command named tail fileInfo
    rw [size]
    exact ⟨Nat.ne_of_gt (Nat.add_pos_left (by decide) _), same⟩

def digestFile : RmfFileInfo where
  address := 0x80000400
  size := 10
  rmfFileType := .fixed
  digestType := .sha1
  digestData := ⟨List.replicate sha256Size 7, List.length_replicate⟩
  name := [97, 46, 105, 110]

theorem publish_roundTrip_digest : ∃ command : Bytes, command.length ≤ publishBufferSize ∧
    (∀ buffer : Bytes, buffer.length = publishBufferSize →
      rmfEncodePublishFileCmd buffer digestFile = (command.length, command ++ buffer.drop command.length) ∧
      runPublishLocalFile buffer digestFile = .ok command) ∧
    ∀ tail fileInfo, (rmfDecodePublishFileCmd (command ++ tail) fileInfo).1 ≠ 0 ∧
      digestFile.PublishedAs (rmfDecodePublishFileCmd (command ++ tail) fileInfo).2 :=
  publish_roundTrip.1 digestFile ⟨by decide, by decide, by decide⟩

end Apx
