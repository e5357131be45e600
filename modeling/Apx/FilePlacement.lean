import Apx.FilePublishing
import Apx.IntervalList

/-! File maps (file_map.c): where files are placed, in 32-bit addresses as the code computes them. -/

namespace Apx

open IntervalList

/-- RMF_ADDRESS_MASK_INTERNAL, which is RMF_INVALID_ADDRESS as well -/
def addressMaskInternal : BitVec 32 := 0x7FFFFFFF

/-- RMF_REMOTE_ADDRESS_BIT -/
def remoteAddressBit : BitVec 32 := 0x80000000

/-- apx_file_t, as far as a file map reads it -/
structure MapFile where
  name : Bytes
  fileType : FileType
  address : BitVec 32
  size : BitVec 32
  deriving DecidableEq, Repr

namespace MapFile

/-- apx_file_new -/
def new (name : Bytes) (address size : BitVec 32) : MapFile where
  name := name
  fileType := calcFileType name
  address := address
  size := size

/-- apx_file_get_address_without_flags -/
def addressWithoutFlags (file : MapFile) : BitVec 32 := file.address &&& addressMaskInternal

/-- apx_file_get_end_address_without_flags, an uint32_t -/
def endAddressWithoutFlags (file : MapFile) : BitVec 32 := file.addressWithoutFlags + file.size

/-- The first byte of the file, and the first byte behind it -/
def start (file : MapFile) : Nat := file.addressWithoutFlags.toNat

def stop (file : MapFile) : Nat := file.start + file.size.toNat

end MapFile

/-- The start address and the alignment in the switch of auto_assign_address -/
def addressArea : FileType → BitVec 32 × BitVec 32
  | .definition => (0x4000000, 0x40000)
  | .providePortData | .requirePortData => (0, 0x400)
  | .providePortCount | .requirePortCount => (0x8000000, 0x400)
  | .unknown => (0x20000000, 0x1000)

/-- An iterator into the list of files, as what is in front of it, itself included, and what is behind it. The
null pointer has nothing in front of it. -/
abbrev Split := List MapFile × List MapFile

/-- apx_fileMap_t without its last_file -/
structure FileList where
  isRemoteMap : Bool
  files : List MapFile := []

namespace FileList

/-- find_last_element_of_type: the last file of the first files of the type that stand side by side -/
def findLastElementOfType (files : List MapFile) (fileType : FileType) : Split :=
  let front := files.takeWhile fun file => file.fileType ≠ fileType
  match files.dropWhile fun file => file.fileType ≠ fileType with
  | [] => ([], files)
  | first :: rest =>
    (front ++ first :: rest.takeWhile fun file => file.fileType = fileType,
      rest.dropWhile fun file => file.fileType = fileType)

/-- find_next_available_position -/
def findNextAvailablePosition (files : List MapFile) (file : MapFile) : Split :=
  (files.takeWhile fun other => other.addressWithoutFlags < file.addressWithoutFlags,
    files.dropWhile fun other => other.addressWithoutFlags < file.addressWithoutFlags)

/-- The quick method of auto_assign_address. All alignments are powers of two. -/
def alignUp (endAddress alignment : BitVec 32) : BitVec 32 := (endAddress + (alignment - 1)) &&& ~~~(alignment - 1)

/-- auto_assign_address -/
def autoAssignAddress (files : List MapFile) (file : MapFile) : Split × MapFile :=
  let (startAddress, alignment) := addressArea file.fileType
  let iteratorLeft := findLastElementOfType files file.fileType
  match iteratorLeft.1.getLast? with
  | none => (iteratorLeft, { file with address := startAddress })
  | some last => (iteratorLeft, { file with address := alignUp last.endAddressWithoutFlags alignment })

/-- insert_item: `none` for false -/
def insertItem (files : List MapFile) (file : MapFile) (iteratorLeft : Split) :
    Except Failure (Option (List MapFile)) :=
  if files = [] then .ok (some [file])
  else if ∃ left ∈ iteratorLeft.1.getLast?, ¬left.endAddressWithoutFlags ≤ file.addressWithoutFlags then
    .error .assertion
  else
    match iteratorLeft.2 with
    | [] => .ok (some (files ++ [file]))
    | right :: behind =>
      if file.endAddressWithoutFlags > right.addressWithoutFlags ∨
          file.endAddressWithoutFlags.toNat > cmdAreaStartAddress then .ok none
      else .ok (some (iteratorLeft.1 ++ file :: right :: behind))

/-- The first half of apx_fileMap_create_file: where the file is to be inserted, and the file with its address -/
def findPosition (files : List MapFile) (file : MapFile) : Split × MapFile :=
  if file.addressWithoutFlags = addressMaskInternal then
    let (iteratorLeft, file) := autoAssignAddress files file
    if iteratorLeft.1 = [] then (findNextAvailablePosition files file, file) else (iteratorLeft, file)
  else (findNextAvailablePosition files file, file)

/-- apx_fileMap_create_file -/
def createFile (self : FileList) (name : Bytes) (address size : BitVec 32) :
    Except Failure (Option MapFile × FileList) :=
  let (iteratorLeft, file) := findPosition self.files (.new name address size)
  let file := if self.isRemoteMap then { file with address := file.address ||| remoteAddressBit } else file
  match insertItem self.files file iteratorLeft with
  | .error failure => .error failure
  | .ok none => .ok (none, self)
  | .ok (some files) => .ok (some file, { self with files := files })

/-- apx_fileMap_remove_file of the i-th file in the list, APX_NOT_FOUND_ERROR behind the last one -/
def removeFile (self : FileList) (i : Nat) : Option ApxError × FileList :=
  if i < self.files.length then (none, { self with files := self.files.eraseIdx i })
  else (some .notFound, self)

/-! When a file map is in order -/

/-- The files are sorted by their start addresses, no two of them share an address, and all of them lie in front
of the command area. -/
structure Placed (files : List MapFile) : Prop where
  ordered : Ordered MapFile.start MapFile.stop files
  low : ∀ file ∈ files, file.stop ≤ cmdAreaStartAddress

/-- The file ends in front of the command area, or the file on its right is in the way of its end address, which
is an uint32_t. -/
def EndsWell (right : List MapFile) (start size : Nat) : Prop :=
  start + size ≤ cmdAreaStartAddress ∨
    ∃ next ∈ right.head?, next.start < (start + size) % 2 ^ 32 ∨ cmdAreaStartAddress < (start + size) % 2 ^ 32

/-- The file on the left of an address ends in front of it. -/
def StartsWell (left : List MapFile) (start : Nat) : Prop := ∀ last ∈ left.getLast?, last.stop ≤ start

def roundUp (n alignment : Nat) : Nat := (n + (alignment - 1)) / alignment * alignment

/-- A file of this size at an address that is given -/
def ClearAt (files : List MapFile) (start size : Nat) : Prop :=
  StartsWell (files.takeWhile fun other => other.start < start) start ∧
    EndsWell (files.dropWhile fun other => other.start < start) start size

/-- A request that a file map in order can deal with. One without an address is for the address behind the files
of its type, or for the start address of its type where there are none. -/
def Clear (files : List MapFile) (fileType : FileType) (address size : BitVec 32) : Prop :=
  if address &&& addressMaskInternal = addressMaskInternal then
    match (findLastElementOfType files fileType).1.getLast? with
    | none => ClearAt files (addressArea fileType).1.toNat size.toNat
    | some last => EndsWell (findLastElementOfType files fileType).2
        (roundUp last.stop (addressArea fileType).2.toNat) size.toNat
  else ClearAt files (address &&& addressMaskInternal).toNat size.toNat

theorem start_le_stop (file : MapFile) : file.start ≤ file.stop := Nat.le_add_right _ _

theorem endAddress_toNat (file : MapFile) : file.endAddressWithoutFlags.toNat = file.stop % 2 ^ 32 :=
  BitVec.toNat_add _ _

theorem Placed.endAddress {files : List MapFile} (placed : Placed files) {file : MapFile} (mem : file ∈ files) :
    file.endAddressWithoutFlags.toNat = file.stop := by
  have low := placed.low file mem
  rw [cmdAreaStartAddress] at low
  rw [endAddress_toNat, Nat.mod_eq_of_lt (by omega)]

/-- A file that starts and ends well is put in its place or refused. -/
theorem insertItem_clear {files : List MapFile} (placed : Placed files) {file : MapFile} {iteratorLeft : Split}
    (whole : iteratorLeft.1 ++ iteratorLeft.2 = files) (starts : StartsWell iteratorLeft.1 file.start)
    (ends : EndsWell iteratorLeft.2 file.start file.size.toNat) :
    ∃ result, insertItem files file iteratorLeft = .ok result ∧ ∀ files' ∈ result, Placed files' := by
  obtain ⟨left, right⟩ := iteratorLeft
  dsimp only at whole starts ends
  subst whole
  have memLeft {last : MapFile} (is : last ∈ left.getLast?) : last ∈ left ++ right :=
    List.mem_append_left _ (List.mem_of_getLast? is)
  have noAssertion : ¬∃ last ∈ left.getLast?, ¬last.endAddressWithoutFlags ≤ file.addressWithoutFlags := by
    rintro ⟨last, is, beyond⟩
    apply beyond
    rw [BitVec.le_def, placed.endAddress (memLeft is)]
    exact starts last is
  have insert (low : file.stop ≤ cmdAreaStartAddress) (behind : ∀ next ∈ right.head?, file.stop ≤ next.start) :
      Placed (left ++ file :: right) := by
    refine ⟨placed.ordered.insert start_le_stop starts behind, ?_⟩
    intro other mem
    rcases List.mem_append.mp mem with mem | mem
    · exact placed.low other (List.mem_append_left _ mem)
    · rcases List.mem_cons.mp mem with rfl | mem
      · exact low
      · exact placed.low other (List.mem_append_right _ mem)
  rw [insertItem]
  by_cases empty : left ++ right = []
  · obtain ⟨rfl, rfl⟩ := List.append_eq_nil_iff.mp empty
    have low : file.stop ≤ cmdAreaStartAddress := ends.resolve_right nofun
    exact ⟨_, if_pos rfl, fun files' is => Option.some.inj is ▸ insert low nofun⟩
  · rw [if_neg empty, if_neg noAssertion]
    cases right with
    | nil =>
      have low : file.stop ≤ cmdAreaStartAddress := ends.resolve_right nofun
      refine ⟨_, rfl, ?_⟩
      intro files' is
      obtain rfl := Option.some.inj is
      rw [List.append_nil]
      exact insert low nofun
    | cons next behind =>
      dsimp only
      split
      · exact ⟨none, rfl, nofun⟩
      · next fits =>
        rw [not_or, BitVec.not_lt, BitVec.le_def, endAddress_toNat] at fits
        have low : file.stop ≤ cmdAreaStartAddress := by
          apply ends.resolve_right
          rintro ⟨other, is, refused⟩
          obtain rfl := Option.some.inj is
          rcases refused with refused | refused
          · exact absurd refused (Nat.not_lt.mpr fits.1)
          · exact fits.2 refused
        have bound : file.stop % 2 ^ 32 = file.stop := by
          rw [cmdAreaStartAddress] at low
          exact Nat.mod_eq_of_lt (by omega)
        refine ⟨_, rfl, ?_⟩
        intro files' is
        obtain rfl := Option.some.inj is
        apply insert low
        intro other is'
        obtain rfl := Option.some.inj is'
        rw [bound] at fits
        exact fits.1

/-- Any other file trips the assertion, or it gets a place that it must not have. -/
theorem insertItem_not_clear {files : List MapFile} (placed : Placed files) {file : MapFile} {iteratorLeft : Split}
    (whole : iteratorLeft.1 ++ iteratorLeft.2 = files)
    (bad : ¬(StartsWell iteratorLeft.1 file.start ∧ EndsWell iteratorLeft.2 file.start file.size.toNat))
    {result : Option (List MapFile)} (inserted : insertItem files file iteratorLeft = .ok result) :
    ∃ files' ∈ result, file ∈ files' ∧ cmdAreaStartAddress < file.stop := by
  obtain ⟨left, right⟩ := iteratorLeft
  dsimp only at whole bad
  subst whole
  rw [insertItem] at inserted
  by_cases empty : left ++ right = []
  · rw [if_pos empty] at inserted
    obtain rfl := Except.ok.inj inserted
    obtain ⟨rfl, rfl⟩ := List.append_eq_nil_iff.mp empty
    refine ⟨_, rfl, List.mem_singleton_self file, ?_⟩
    by_contra low
    exact bad ⟨nofun, .inl (Nat.not_lt.mp low)⟩
  · rw [if_neg empty] at inserted
    split at inserted
    · contradiction
    next noAssertion =>
    have starts : StartsWell left file.start := by
      intro last is
      by_contra beyond
      apply noAssertion
      refine ⟨last, is, ?_⟩
      rw [BitVec.le_def, placed.endAddress (List.mem_append_left _ (List.mem_of_getLast? is))]
      exact beyond
    have high : cmdAreaStartAddress < file.stop := by
      by_contra low
      exact bad ⟨starts, .inl (Nat.not_lt.mp low)⟩
    cases right with
    | nil =>
      obtain rfl := Except.ok.inj inserted
      exact ⟨_, rfl, List.mem_append_right _ (List.mem_singleton_self file), high⟩
    | cons next behind =>
      dsimp only at inserted
      split at inserted
      · next refused =>
        rw [gt_iff_lt, BitVec.lt_def, endAddress_toNat] at refused
        exact absurd ⟨starts, .inr ⟨next, rfl, refused⟩⟩ bad
      · obtain rfl := Except.ok.inj inserted
        exact ⟨_, rfl, List.mem_append_right _ List.mem_cons_self, high⟩

/-! The position and the address of a request -/

theorem findLastElementOfType_append (files : List MapFile) (fileType : FileType) :
    (findLastElementOfType files fileType).1 ++ (findLastElementOfType files fileType).2 = files := by
  have whole := List.takeWhile_append_dropWhile
    (p := fun file : MapFile => decide (file.fileType ≠ fileType)) (l := files)
  rw [findLastElementOfType]
  split
  · rfl
  · next first rest rights =>
    rw [rights] at whole
    rw [List.append_assoc, List.cons_append, List.takeWhile_append_dropWhile]
    exact whole

theorem findNextAvailablePosition_eq (files : List MapFile) (file : MapFile) :
    findNextAvailablePosition files file =
      (files.takeWhile fun other => other.start < file.start, files.dropWhile fun other => other.start < file.start) :=
  rfl

theorem findNextAvailablePosition_append (files : List MapFile) (file : MapFile) :
    (findNextAvailablePosition files file).1 ++ (findNextAvailablePosition files file).2 = files :=
  List.takeWhile_append_dropWhile

theorem findPosition_append (files : List MapFile) (file : MapFile) :
    (findPosition files file).1.1 ++ (findPosition files file).1.2 = files := by
  rw [findPosition]
  split
  · dsimp only
    split
    · exact findNextAvailablePosition_append _ _
    · rw [autoAssignAddress]
      dsimp only
      split <;> exact findLastElementOfType_append _ _
  · exact findNextAvailablePosition_append _ _

theorem addressArea_start (fileType : FileType) :
    ((addressArea fileType).1 &&& addressMaskInternal).toNat = (addressArea fileType).1.toNat := by
  cases fileType <;> rfl

/-- The alignment of a type is a power of two. -/
theorem addressArea_alignment (fileType : FileType) :
    ∃ k ≤ 18, (addressArea fileType).2 = BitVec.twoPow 32 k := by
  cases fileType with
  | definition => exact ⟨18, by decide, rfl⟩
  | unknown => exact ⟨12, by decide, rfl⟩
  | _ => exact ⟨10, by decide, rfl⟩

theorem twoPow_sub_one_toNat {k : Nat} (small : k < 32) : (BitVec.twoPow 32 k - 1).toNat = 2 ^ k - 1 := by
  have bound : 2 ^ k < 2 ^ 32 := Nat.pow_lt_pow_right (by decide) small
  have positive := Nat.two_pow_pos k
  have one : (1 : BitVec 32) ≤ BitVec.twoPow 32 k := by
    rw [BitVec.le_def, BitVec.toNat_twoPow, Nat.mod_eq_of_lt bound]
    exact positive
  rw [BitVec.toNat_sub_of_le one, BitVec.toNat_twoPow, Nat.mod_eq_of_lt bound]
  rfl

/-- The mask clears the lowest bits. -/
theorem and_not_mask (x : BitVec 32) {k : Nat} (small : k < 32) :
    (x &&& ~~~(BitVec.twoPow 32 k - 1)).toNat = x.toNat / 2 ^ k * 2 ^ k := by
  have shifted : x &&& ~~~(BitVec.twoPow 32 k - 1) = (x >>> k) <<< k := by
    apply BitVec.eq_of_getLsbD_eq
    intro i inside
    have mask : (BitVec.twoPow 32 k - 1).getLsbD i = decide (i < k) := by
      rw [BitVec.getLsbD, twoPow_sub_one_toNat small, Nat.testBit_two_pow_sub_one]
    rw [BitVec.getLsbD_and, BitVec.getLsbD_not, mask, BitVec.getLsbD_shiftLeft, BitVec.getLsbD_ushiftRight]
    by_cases low : i < k
    · simp [low]
    · simp [low, inside, Nat.add_sub_cancel' (Nat.not_lt.mp low)]
  have bound : x.toNat / 2 ^ k * 2 ^ k < 2 ^ 32 := Nat.lt_of_le_of_lt (Nat.div_mul_le_self _ _) x.isLt
  rw [shifted, BitVec.toNat_shiftLeft, BitVec.toNat_ushiftRight, Nat.shiftRight_eq_div_pow, Nat.shiftLeft_eq,
    Nat.mod_eq_of_lt bound]

theorem alignUp_toNat {endAddress : BitVec 32} {k : Nat} (small : k ≤ 18)
    (low : endAddress.toNat ≤ cmdAreaStartAddress) :
    (alignUp endAddress (BitVec.twoPow 32 k)).toNat = roundUp endAddress.toNat (2 ^ k) := by
  have narrow : 2 ^ k ≤ 2 ^ 18 := Nat.pow_le_pow_right (by decide) small
  rw [cmdAreaStartAddress] at low
  rw [alignUp, and_not_mask _ (by omega), BitVec.toNat_add, twoPow_sub_one_toNat (by omega), roundUp,
    Nat.mod_eq_of_lt (by omega)]

theorem le_roundUp (n : Nat) {alignment : Nat} (positive : 0 < alignment) : n ≤ roundUp n alignment := by
  have parts := Nat.div_add_mod' (n + (alignment - 1)) alignment
  have rest := Nat.mod_lt (n + (alignment - 1)) positive
  rw [roundUp]
  omega

theorem roundUp_le (n alignment : Nat) : roundUp n alignment ≤ n + (alignment - 1) := Nat.div_mul_le_self _ _

theorem and_addressMask {x : BitVec 32} (low : x.toNat < 2 ^ 31) : (x &&& addressMaskInternal).toNat = x.toNat := by
  rw [BitVec.toNat_and, show addressMaskInternal.toNat = 2 ^ 31 - 1 from rfl, Nat.and_two_pow_sub_one_eq_mod,
    Nat.mod_eq_of_lt low]

/-- The position that the code finds is the one of the request: a clear request starts and ends well there, and
any other one does not. -/
theorem clear_iff {files : List MapFile} (placed : Placed files) (name : Bytes) (address size : BitVec 32) :
    Clear files (calcFileType name) address size ↔
      StartsWell (findPosition files (.new name address size)).1.1 (findPosition files (.new name address size)).2.start ∧
        EndsWell (findPosition files (.new name address size)).1.2 (findPosition files (.new name address size)).2.start
          (findPosition files (.new name address size)).2.size.toNat := by
  rw [Clear, findPosition]
  by_cases invalid : address &&& addressMaskInternal = addressMaskInternal
  · have invalid' : (MapFile.new name address size).addressWithoutFlags = addressMaskInternal := invalid
    have type : (MapFile.new name address size).fileType = calcFileType name := rfl
    rw [if_pos invalid, if_pos invalid', autoAssignAddress, type]
    dsimp only
    cases found : (findLastElementOfType files (calcFileType name)).1.getLast? with
    | none =>
      have start := addressArea_start (calcFileType name)
      rw [List.getLast?_eq_none_iff] at found
      dsimp only
      rw [if_pos found, findNextAvailablePosition_eq, ClearAt]
      simp only [MapFile.start, MapFile.addressWithoutFlags, start]
      rfl
    | some last =>
      obtain ⟨k, small, alignment⟩ := addressArea_alignment (calcFileType name)
      have mem : last ∈ files := by
        rw [← findLastElementOfType_append files (calcFileType name)]
        exact List.mem_append_left _ (List.mem_of_getLast? found)
      have nonempty : (findLastElementOfType files (calcFileType name)).1 ≠ [] := by
        intro empty
        rw [empty] at found
        contradiction
      have width : (BitVec.twoPow 32 k).toNat = 2 ^ k := by
        rw [BitVec.toNat_twoPow]
        exact Nat.mod_eq_of_lt (Nat.pow_lt_pow_right (by decide) (by omega))
      have low := placed.low last mem
      rw [← placed.endAddress mem] at low
      have aligned := alignUp_toNat small low
      rw [placed.endAddress mem] at aligned low
      have atMost := roundUp_le last.stop (2 ^ k)
      have narrow : 2 ^ k ≤ 2 ^ 18 := Nat.pow_le_pow_right (by decide) small
      have start : (alignUp last.endAddressWithoutFlags (BitVec.twoPow 32 k) &&& addressMaskInternal).toNat =
          roundUp last.stop (2 ^ k) := by
        rw [cmdAreaStartAddress] at low
        rw [and_addressMask (by rw [aligned]; omega), aligned]
      have starts : StartsWell (findLastElementOfType files (calcFileType name)).1 (roundUp last.stop (2 ^ k)) := by
        intro other is
        obtain rfl := Option.some.inj (found.symm.trans is)
        exact le_roundUp _ (Nat.two_pow_pos k)
      dsimp only
      rw [if_neg nonempty, alignment, width]
      simp only [MapFile.start, MapFile.addressWithoutFlags, start]
      exact (and_iff_right starts).symm
  · have invalid' : ¬(MapFile.new name address size).addressWithoutFlags = addressMaskInternal := invalid
    rw [if_neg invalid, if_neg invalid', findNextAvailablePosition_eq]
    rfl

/-- The file with the remote address bit that apx_fileMap_create_file sets in a remote map -/
def flagged (isRemoteMap : Bool) (file : MapFile) : MapFile :=
  if isRemoteMap then { file with address := file.address ||| remoteAddressBit } else file

theorem addressWithoutFlags_flagged (isRemoteMap : Bool) (file : MapFile) :
    (flagged isRemoteMap file).addressWithoutFlags = file.addressWithoutFlags := by
  cases isRemoteMap with
  | false => rfl
  | true =>
    have none_ : remoteAddressBit &&& addressMaskInternal = 0#32 := by decide
    change (file.address ||| remoteAddressBit) &&& addressMaskInternal = file.address &&& addressMaskInternal
    rw [BitVec.and_comm, BitVec.and_or_distrib_left, BitVec.and_comm _ remoteAddressBit, none_, BitVec.or_zero,
      BitVec.and_comm]

theorem size_flagged (isRemoteMap : Bool) (file : MapFile) : (flagged isRemoteMap file).size = file.size := by
  cases isRemoteMap <;> rfl

theorem start_flagged (isRemoteMap : Bool) (file : MapFile) : (flagged isRemoteMap file).start = file.start :=
  congrArg BitVec.toNat (addressWithoutFlags_flagged isRemoteMap file)

theorem createFile_eq (self : FileList) (name : Bytes) (address size : BitVec 32) :
    self.createFile name address size =
      match insertItem self.files (flagged self.isRemoteMap (findPosition self.files (.new name address size)).2)
        (findPosition self.files (.new name address size)).1 with
      | .error failure => .error failure
      | .ok none => .ok (none, self)
      | .ok (some files) =>
        .ok (some (flagged self.isRemoteMap (findPosition self.files (.new name address size)).2),
          { self with files := files }) := rfl

/-- A request is dealt with if and only if it is clear: the assertion does not fail, and the files are in order
as before. -/
theorem createFile_iff {self : FileList} (placed : Placed self.files) (name : Bytes) (address size : BitVec 32) :
    Clear self.files (calcFileType name) address size ↔
      ∃ file self', self.createFile name address size = .ok (file, self') ∧ Placed self'.files := by
  have whole := findPosition_append self.files (.new name address size)
  have position := clear_iff placed name address size
  rw [← start_flagged self.isRemoteMap, ← size_flagged self.isRemoteMap] at position
  rw [position, createFile_eq]
  constructor
  · rintro ⟨starts, ends⟩
    obtain ⟨result, inserted, placed'⟩ := insertItem_clear placed whole starts ends
    rw [inserted]
    cases result with
    | none => exact ⟨_, _, rfl, placed⟩
    | some files => exact ⟨_, _, rfl, placed' files rfl⟩
  · rintro ⟨file, self', created, placed'⟩
    by_contra bad
    cases inserted : insertItem self.files
        (flagged self.isRemoteMap (findPosition self.files (.new name address size)).2)
        (findPosition self.files (.new name address size)).1 with
    | error failure =>
      rw [inserted] at created
      contradiction
    | ok result =>
      obtain ⟨files, is, mem, high⟩ := insertItem_not_clear placed whole bad inserted
      obtain rfl := Option.mem_def.mp is
      rw [inserted] at created
      obtain ⟨-, rfl⟩ := Prod.mk.inj (Except.ok.inj created)
      exact absurd (placed'.low _ mem) (Nat.not_le.mpr high)

/-- A request that returns no file leaves the map as it is. -/
theorem createFile_none {self self' : FileList} {name : Bytes} {address size : BitVec 32}
    (created : self.createFile name address size = .ok (none, self')) : self' = self := by
  rw [createFile_eq] at created
  split at created
  · contradiction
  · exact (Prod.mk.inj (Except.ok.inj created)).2.symm
  · exact absurd (Prod.mk.inj (Except.ok.inj created)).1 nofun

theorem removeFile_placed {self : FileList} (placed : Placed self.files) (i : Nat) :
    Placed (self.removeFile i).2.files := by
  rw [removeFile]
  split
  · exact ⟨placed.ordered.eraseIdx i, fun file mem => placed.low file (List.mem_of_mem_eraseIdx mem)⟩
  · exact placed

/-! Runs -/

/-- A call of apx_fileMap_create_file or of apx_fileMap_remove_file -/
inductive Request where
  | create (name : Bytes) (address size : BitVec 32)
  | remove (i : Nat)

/-- No call trips the assertion, behind each of them the files are in order, and a call that returns no file
has left the map as it was. -/
def Keeps (self : FileList) : List Request → Prop
  | [] => True
  | .create name address size :: rest =>
      ∃ file self', self.createFile name address size = .ok (file, self') ∧ Placed self'.files ∧
        (file = none → self' = self) ∧ Keeps self' rest
  | .remove i :: rest => Placed (self.removeFile i).2.files ∧ Keeps (self.removeFile i).2 rest

def AllClear (self : FileList) : List Request → Prop
  | [] => True
  | .create name address size :: rest =>
      Clear self.files (calcFileType name) address size ∧
        ∀ file self', self.createFile name address size = .ok (file, self') → AllClear self' rest
  | .remove i :: rest => AllClear (self.removeFile i).2 rest

theorem keeps_iff_of_placed (requests : List Request) {self : FileList} (placed : Placed self.files) :
    self.Keeps requests ↔ self.AllClear requests := by
  induction requests generalizing self with
  | nil => exact Iff.rfl
  | cons request rest ih =>
    cases request with
    | create name address size =>
      constructor
      · rintro ⟨file, self', created, placed', -, keeps⟩
        refine ⟨(createFile_iff placed name address size).mpr ⟨file, self', created, placed'⟩, ?_⟩
        intro other other' created'
        obtain ⟨rfl, rfl⟩ := Prod.mk.inj (Except.ok.inj (created.symm.trans created'))
        exact (ih placed').mp keeps
      · rintro ⟨clear, allClear⟩
        obtain ⟨file, self', created, placed'⟩ := (createFile_iff placed name address size).mp clear
        refine ⟨file, self', created, placed', ?_, (ih placed').mpr (allClear file self' created)⟩
        rintro rfl
        exact createFile_none created
    | remove i =>
      have placed' := removeFile_placed placed i
      exact (and_iff_right placed').trans (ih placed')

/-- In every run of a new file map, the files stay in order if and only if each request is clear when it
comes. -/
theorem keeps_iff (isRemoteMap : Bool) (requests : List Request) :
    (FileList.mk isRemoteMap []).Keeps requests ↔ (FileList.mk isRemoteMap []).AllClear requests :=
  keeps_iff_of_placed requests ⟨.nil, nofun⟩

/-- A peer that publishes a file of 100 bytes and another one inside it, one that publishes a file in the command
area, and one that publishes a file whose end address is zero in front of a file of 16 bytes -/
theorem not_keeps :
    (¬(FileList.mk true []).Keeps [.create [] 0 100, .create [] 50 10]) ∧
      (¬(FileList.mk true []).Keeps [.create [] 0x3FFFFC00 1]) ∧
        ¬(FileList.mk true []).Keeps [.create [] 0x100 16, .create [] 0x80 0xFFFFFF80] := by
  refine ⟨?_, ?_, ?_⟩
  · rintro ⟨file, self', created, -, -, file', self'', created', -⟩
    obtain ⟨-, rfl⟩ := Prod.mk.inj (Except.ok.inj created)
    have trips : (FileList.mk true [⟨[], .unknown, 0x80000000, 100⟩]).createFile [] 50 10 = .error .assertion := rfl
    cases trips.symm.trans created'
  · rintro ⟨file, self', created, placed, -⟩
    obtain ⟨-, rfl⟩ := Prod.mk.inj (Except.ok.inj created)
    exact absurd (placed.low ⟨[], .unknown, 0xBFFFFC00, 1⟩ (List.mem_singleton_self _)) (by decide)
  · rintro ⟨file, self', created, -, -, file', self'', created', placed, -⟩
    obtain ⟨-, rfl⟩ := Prod.mk.inj (Except.ok.inj created)
    have inserted : (FileList.mk true [⟨[], .unknown, 0x80000100, 16⟩]).createFile [] 0x80 0xFFFFFF80 =
        .ok (some ⟨[], .unknown, 0x80000080, 0xFFFFFF80⟩,
          ⟨true, [⟨[], .unknown, 0x80000080, 0xFFFFFF80⟩, ⟨[], .unknown, 0x80000100, 16⟩]⟩) := rfl
    obtain ⟨-, rfl⟩ := Prod.mk.inj (Except.ok.inj (inserted.symm.trans created'))
    exact absurd (placed.low ⟨[], .unknown, 0x80000080, 0xFFFFFF80⟩ List.mem_cons_self) (by decide)

/-! The list of a connection's remote files, whose addresses are natural numbers, is such a map as long as no
end address needs more than 32 bits. -/

def ofRemoteFile (file : RemoteFile) : MapFile where
  name := file.info.name
  fileType := file.fileType
  address := BitVec.ofNat 32 file.info.address ||| remoteAddressBit
  size := BitVec.ofNat 32 file.info.size

/-- The numbers of the file are those of 32-bit words. -/
def Narrow (file : RemoteFile) : Prop := file.info.address < 2 ^ 31 ∧ file.info.endAddress < 2 ^ 32

theorem addressWithoutFlags_ofRemoteFile {file : RemoteFile} (narrow : Narrow file) :
    (ofRemoteFile file).addressWithoutFlags.toNat = file.info.address := by
  have address : (BitVec.ofNat 32 file.info.address).toNat = file.info.address := by
    rw [BitVec.toNat_ofNat]
    exact Nat.mod_eq_of_lt (Nat.lt_trans narrow.1 (by decide))
  have flags := addressWithoutFlags_flagged true
    ⟨file.info.name, file.fileType, BitVec.ofNat 32 file.info.address, BitVec.ofNat 32 file.info.size⟩
  refine (congrArg BitVec.toNat flags).trans ?_
  change (BitVec.ofNat 32 file.info.address &&& addressMaskInternal).toNat = _
  rw [and_addressMask (address.symm ▸ narrow.1), address]

theorem endAddress_ofRemoteFile {file : RemoteFile} (narrow : Narrow file) :
    (ofRemoteFile file).endAddressWithoutFlags.toNat = file.info.endAddress := by
  have bound : file.info.address + file.info.size < 2 ^ 32 := narrow.2
  have size : (ofRemoteFile file).size.toNat = file.info.size := by
    change (BitVec.ofNat 32 file.info.size).toNat = _
    rw [BitVec.toNat_ofNat]
    exact Nat.mod_eq_of_lt (by omega)
  rw [endAddress_toNat, MapFile.stop, MapFile.start, addressWithoutFlags_ofRemoteFile narrow, size,
    Nat.mod_eq_of_lt bound]
  rfl

theorem while_congr {α : Type*} {p q : α → Bool} {xs : List α} (same : ∀ x ∈ xs, p x = q x) :
    xs.takeWhile p = xs.takeWhile q ∧ xs.dropWhile p = xs.dropWhile q := by
  induction xs with
  | nil => exact ⟨rfl, rfl⟩
  | cons x rest ih =>
    obtain ⟨takes, drops⟩ := ih fun y mem => same y (List.mem_cons_of_mem x mem)
    rw [List.takeWhile_cons, List.takeWhile_cons, List.dropWhile_cons, List.dropWhile_cons,
      same x List.mem_cons_self, takes, drops]
    exact ⟨rfl, rfl⟩

/-- On such files the insertion into the list of a connection and the one into the map do the same. -/
theorem insertItem_ofRemoteFile {files : List RemoteFile} {file : RemoteFile} (narrow : Narrow file)
    (narrows : ∀ other ∈ files, Narrow other) :
    insertItem (files.map ofRemoteFile) (ofRemoteFile file)
        (findNextAvailablePosition (files.map ofRemoteFile) (ofRemoteFile file)) =
      match Apx.insertItem files file with
      | .error failure => .error failure
      | .ok result => .ok (result.map fun files => files.map ofRemoteFile) := by
  have before : ∀ other ∈ files,
      ((fun other : MapFile => decide (other.addressWithoutFlags < (ofRemoteFile file).addressWithoutFlags)) ∘
        ofRemoteFile) other = decide (other.info.address < file.info.address) := by
    intro other mem
    simp only [Function.comp_apply, BitVec.lt_def, addressWithoutFlags_ofRemoteFile narrow,
      addressWithoutFlags_ofRemoteFile (narrows other mem)]
  obtain ⟨takes, drops⟩ := while_congr before
  have position : findNextAvailablePosition (files.map ofRemoteFile) (ofRemoteFile file) =
      ((files.takeWhile fun other => other.info.address < file.info.address).map ofRemoteFile,
        (files.dropWhile fun other => other.info.address < file.info.address).map ofRemoteFile) := by
    rw [findNextAvailablePosition, List.takeWhile_map, List.dropWhile_map, takes, drops]
  have whole := List.takeWhile_append_dropWhile
    (p := fun other : RemoteFile => decide (other.info.address < file.info.address)) (l := files)
  rw [position, insertItem, Apx.insertItem]
  dsimp only
  generalize files.takeWhile (fun other => decide (other.info.address < file.info.address)) = left at whole ⊢
  generalize files.dropWhile (fun other => decide (other.info.address < file.info.address)) = right at whole ⊢
  subst whole
  by_cases empty : left ++ right = []
  · rw [if_pos empty, if_pos (by rw [empty]; rfl)]
    rfl
  · have asserted : (∃ last ∈ (left.map ofRemoteFile).getLast?,
        ¬last.endAddressWithoutFlags ≤ (ofRemoteFile file).addressWithoutFlags) ↔
        ∃ last ∈ left.getLast?, ¬last.info.endAddress ≤ file.info.address := by
      rw [List.getLast?_map]
      cases is : left.getLast? with
      | none => simp
      | some last =>
        have mem : last ∈ left ++ right := List.mem_append_left _ (List.mem_of_getLast? is)
        simp [BitVec.le_def, endAddress_ofRemoteFile (narrows last mem), addressWithoutFlags_ofRemoteFile narrow]
    rw [if_neg empty, if_neg (by simpa using empty)]
    simp only [asserted]
    split
    · rfl
    · cases right with
      | nil => simp
      | cons next behind =>
        have mem : next ∈ left ++ next :: behind := List.mem_append_right _ List.mem_cons_self
        simp only [List.map_cons, gt_iff_lt, BitVec.lt_def, endAddress_ofRemoteFile narrow,
          addressWithoutFlags_ofRemoteFile (narrows next mem)]
        split
        · rfl
        · simp

end FileList

end Apx
