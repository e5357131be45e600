import Apx.FilePlacement
import Apx.LastHit

/-! Lookups in a file map (file_map.c), which try the file that was found last before they scan the list. -/

namespace Apx

namespace MapFile

/-- apx_file_address_in_range -/
def addressInRange (file : MapFile) (address : BitVec 32) : Bool :=
  file.addressWithoutFlags ≤ address && address < file.endAddressWithoutFlags

end MapFile

/-- apx_fileMap_t, where last_file is a position in the list -/
structure LookupMap where
  list : FileList
  lastFile : Option Nat := none

namespace LookupMap

/-- apx_fileMap_create -/
def new (isRemoteMap : Bool) : LookupMap where
  list := { isRemoteMap := isRemoteMap }

/-- apx_fileMap_create_file: the file that last_file points to is one position further behind a new file in front
of it. -/
def createFile (self : LookupMap) (name : Bytes) (address size : BitVec 32) :
    Except Failure (Option MapFile × LookupMap) :=
  match self.list.createFile name address size with
  | .error failure => .error failure
  | .ok (none, list) => .ok (none, { self with list := list })
  | .ok (some file, list) =>
    let position := (FileList.findPosition self.list.files (.new name address size)).1.1.length
    .ok (some file, {
      list := list
      lastFile := self.lastFile.map fun k => if position ≤ k then k + 1 else k })

/-- apx_fileMap_remove_file -/
def removeFile (self : LookupMap) (i : Nat) : Option ApxError × LookupMap :=
  let (error, list) := self.list.removeFile i
  (error, { list := list, lastFile := none })

/-- The file that last_file points to -/
def last? (self : LookupMap) : Option MapFile := self.lastFile.bind fun k => self.list.files[k]?

/-- The body of both lookups: the position of the file that is found -/
def findFirst (self : LookupMap) (isFile : MapFile → Bool) : Option Nat × LookupMap :=
  if self.last?.any isFile then (self.lastFile, self)
  else
    match self.list.files.findIdx? isFile with
    | some k => (some k, { self with lastFile := some k })
    | none => (none, self)

/-- apx_fileMap_find_by_address -/
def findByAddress (self : LookupMap) (address : BitVec 32) : Option Nat × LookupMap :=
  self.findFirst (·.addressInRange address)

/-- apx_fileMap_find_by_name -/
def findByName (self : LookupMap) (name : Bytes) : Option Nat × LookupMap := self.findFirst (·.name == name)

inductive Call where
  | request (request : FileList.Request)
  | findByAddress (address : BitVec 32)
  | findByName (name : Bytes)

/-- Every lookup of these calls returns the file that a scan of the list from its first file on finds. The calls
end with an assertion that fails. -/
def Plain (self : LookupMap) : List Call → Prop
  | [] => True
  | .request (.create name address size) :: rest =>
      ∀ file self', self.createFile name address size = .ok (file, self') → Plain self' rest
  | .request (.remove i) :: rest => Plain (self.removeFile i).2 rest
  | .findByAddress address :: rest =>
      (self.findByAddress address).1 = self.list.files.findIdx? (·.addressInRange address) ∧
        Plain (self.findByAddress address).2 rest
  | .findByName name :: rest =>
      (self.findByName name).1 = self.list.files.findIdx? (·.name == name) ∧
        Plain (self.findByName name).2 rest

/-- The creations and the removals among the calls -/
def requests : List Call → List FileList.Request
  | [] => []
  | .request request :: rest => request :: requests rest
  | _ :: rest => requests rest

/-! When lookups are plain -/

def Share (file other : MapFile) : Prop :=
  file.name = other.name ∨ ∃ address, file.addressInRange address ∧ other.addressInRange address

/-- The name of the file and all its addresses are found in files in front of it. -/
def Covered (front : List MapFile) (file : MapFile) : Prop :=
  (∃ other ∈ front, other.name = file.name) ∧
    ∀ address, file.addressInRange address → ∃ other ∈ front, other.addressInRange address

/-- The file shares nothing with the files in front of it, or everything. -/
def Distinct (front : List MapFile) (file : MapFile) : Prop :=
  (∀ other ∈ front, ¬Share file other) ∨ Covered front file

/-- A file that is put into the list shares nothing with the files in front of it, or everything, and nothing with
a file behind it that can be found. -/
def Separate (front behind : List MapFile) (file : MapFile) : Prop :=
  Distinct front file ∧
    ∀ left other right, behind = left ++ other :: right → ¬Share other file ∨ Covered (front ++ left) other

/-- The list keeps each file distinct: a new file, if it is put into the list, is separate, and where a file is
removed, each of those that are left shares nothing with the files in front of it, or everything. -/
def KeepsDistinct (list : FileList) : FileList.Request → Prop
  | .create name address size =>
      ∀ files, FileList.insertItem list.files (FileList.findPosition list.files (.new name address size)).2
          (FileList.findPosition list.files (.new name address size)).1 = .ok (some files) →
        Separate (FileList.findPosition list.files (.new name address size)).1.1
          (FileList.findPosition list.files (.new name address size)).1.2
          (FileList.findPosition list.files (.new name address size)).2
  | .remove i => ∀ front file behind, list.files.eraseIdx i = front ++ file :: behind → Distinct front file

def AllKeepDistinct (list : FileList) : List FileList.Request → Prop
  | [] => True
  | .create name address size :: rest =>
      KeepsDistinct list (.create name address size) ∧
        ∀ file list', list.createFile name address size = .ok (file, list') → AllKeepDistinct list' rest
  | .remove i :: rest => KeepsDistinct list (.remove i) ∧ AllKeepDistinct (list.removeFile i).2 rest

/-! The map as a list with its last hit -/

/-- Whether a lookup by an address or by a name finds the file -/
def finds : BitVec 32 ⊕ Bytes → MapFile → Bool
  | .inl address, file => file.addressInRange address
  | .inr name, file => file.name == name

/-- What a request makes of the list -/
def editOf (isRemoteMap : Bool) (files : List MapFile) : FileList.Request → ListEdit MapFile
  | .create name address size =>
      match (FileList.mk isRemoteMap files).createFile name address size with
      | .error _ => .stop
      | .ok (none, _) => .keep
      | .ok (some file, _) =>
        .insert (FileList.findPosition files (.new name address size)).1.1.length file
  | .remove i => .erase i

def lastHit (self : LookupMap) : LastHit MapFile where
  items := self.list.files
  last := self.lastFile

def toCall : Call → (BitVec 32 ⊕ Bytes) ⊕ FileList.Request
  | .request request => .inr request
  | .findByAddress address => .inl (.inl address)
  | .findByName name => .inl (.inr name)

def ofCall : (BitVec 32 ⊕ Bytes) ⊕ FileList.Request → Call
  | .inr request => .request request
  | .inl (.inl address) => .findByAddress address
  | .inl (.inr name) => .findByName name

theorem toCall_ofCall (call : (BitVec 32 ⊕ Bytes) ⊕ FileList.Request) : toCall (ofCall call) = call := by
  rcases call with (_ | _) | _ <;> rfl

theorem requests_eq (calls : List Call) : requests calls = LastHit.requests (calls.map toCall) := by
  induction calls with
  | nil => rfl
  | cons call rest ih =>
    cases call with
    | request request => exact congrArg (request :: ·) ih
    | findByAddress address => exact ih
    | findByName name => exact ih

/-- A file that is put into the list is put at the position that was found for it. -/
theorem insertItem_some {files files' : List MapFile} {file : MapFile} {iteratorLeft : Split}
    (whole : iteratorLeft.1 ++ iteratorLeft.2 = files)
    (inserted : FileList.insertItem files file iteratorLeft = .ok (some files')) :
    files' = iteratorLeft.1 ++ file :: iteratorLeft.2 := by
  rw [FileList.insertItem] at inserted
  split at inserted
  · next empty =>
    cases inserted
    obtain ⟨left, right⟩ := List.append_eq_nil_iff.mp (whole.trans empty)
    rw [left, right]
    rfl
  · split at inserted
    · contradiction
    · split at inserted
      · next last =>
        cases inserted
        rw [← whole, last, List.append_nil]
      · next right behind last =>
        split at inserted
        · exact absurd (Except.ok.inj inserted) (Option.some_ne_none _).symm
        · cases inserted
          rw [last]

/-- The remote address bit does not decide whether a file is put into the list. -/
theorem insertItem_flagged (isRemoteMap : Bool) (files : List MapFile) (file : MapFile) (iteratorLeft : Split) :
    (∃ files', FileList.insertItem files (FileList.flagged isRemoteMap file) iteratorLeft = .ok (some files')) ↔
      ∃ files', FileList.insertItem files file iteratorLeft = .ok (some files') := by
  have address := FileList.addressWithoutFlags_flagged isRemoteMap file
  have stop : (FileList.flagged isRemoteMap file).endAddressWithoutFlags = file.endAddressWithoutFlags := by
    rw [MapFile.endAddressWithoutFlags, address, FileList.size_flagged]
    rfl
  simp only [FileList.insertItem, address, stop]
  split
  · simp
  · split
    · simp
    · split
      · simp
      · split <;> simp

theorem finds_flagged (isRemoteMap : Bool) (q : BitVec 32 ⊕ Bytes) (file : MapFile) :
    finds q (FileList.flagged isRemoteMap file) = finds q file := by
  cases q with
  | inl address =>
    rw [finds, finds, MapFile.addressInRange, MapFile.addressInRange, MapFile.endAddressWithoutFlags,
      MapFile.endAddressWithoutFlags, FileList.addressWithoutFlags_flagged, FileList.size_flagged]
  | inr name => cases isRemoteMap <;> rfl

theorem apart_iff (file other : MapFile) : LastHit.Apart finds file other ↔ ¬Share file other := by
  constructor
  · rintro apart (name | ⟨address, own, others⟩)
    · exact apart (.inr file.name) (beq_self_eq_true _) (beq_iff_eq.mpr name.symm)
    · exact apart (.inl address) own others
  · rintro none_ (address | name) own others
    · exact none_ (.inr ⟨address, own, others⟩)
    · exact none_ (.inl ((beq_iff_eq.mp own).trans (beq_iff_eq.mp others).symm))

theorem hidden_iff (front : List MapFile) (file : MapFile) :
    LastHit.Hidden finds front file ↔ Covered front file := by
  constructor
  · intro hidden
    obtain ⟨other, mem, same⟩ := hidden (.inr file.name) (beq_self_eq_true _)
    exact ⟨⟨other, mem, beq_iff_eq.mp same⟩, fun address own => hidden (.inl address) own⟩
  · rintro ⟨⟨other, mem, same⟩, addresses⟩ (address | name) own
    · exact addresses address own
    · exact ⟨other, mem, beq_iff_eq.mpr (same.trans (beq_iff_eq.mp own))⟩

theorem distinct_iff (front : List MapFile) (file : MapFile) :
    LastHit.Clean finds front file ∨ LastHit.Hidden finds front file ↔ Distinct front file := by
  rw [hidden_iff, Distinct]
  exact or_congr_left ⟨fun clean other mem => (apart_iff file other).mp (clean other mem),
    fun none_ other mem => (apart_iff file other).mpr (none_ other mem)⟩

/-- What a call of apx_fileMap_create_file does to the list -/
inductive Created (list : FileList) (name : Bytes) (address size : BitVec 32) : Prop where
  | failed {failure : Failure} (created : list.createFile name address size = .error failure)
      (edits : editOf list.isRemoteMap list.files (.create name address size) = .stop)
      (refused : ¬∃ files, FileList.insertItem list.files
        (FileList.findPosition list.files (.new name address size)).2
        (FileList.findPosition list.files (.new name address size)).1 = .ok (some files))
  | refused (created : list.createFile name address size = .ok (none, list))
      (edits : editOf list.isRemoteMap list.files (.create name address size) = .keep)
      (refused : ¬∃ files, FileList.insertItem list.files
        (FileList.findPosition list.files (.new name address size)).2
        (FileList.findPosition list.files (.new name address size)).1 = .ok (some files))
  | inserted {file : MapFile} {left right : List MapFile} (whole : left ++ right = list.files)
      (position : FileList.findPosition list.files (.new name address size) = ((left, right), file))
      (created : list.createFile name address size =
        .ok (some (FileList.flagged list.isRemoteMap file),
          { list with files := left ++ FileList.flagged list.isRemoteMap file :: right }))
      (edits : editOf list.isRemoteMap list.files (.create name address size) =
        .insert left.length (FileList.flagged list.isRemoteMap file))
      (accepted : ∃ files, FileList.insertItem list.files file (left, right) = .ok (some files))

theorem created (list : FileList) (name : Bytes) (address size : BitVec 32) :
    Created list name address size := by
  have whole := FileList.findPosition_append list.files (.new name address size)
  have equation := FileList.createFile_eq list name address size
  rcases position : FileList.findPosition list.files (.new name address size) with ⟨⟨left, right⟩, file⟩
  have accepts := insertItem_flagged list.isRemoteMap list.files file (left, right)
  have edits : editOf list.isRemoteMap list.files (.create name address size) =
      match list.createFile name address size with
      | .error _ => .stop
      | .ok (none, _) => .keep
      | .ok (some file, _) =>
        .insert (FileList.findPosition list.files (.new name address size)).1.1.length file := rfl
  rw [position] at whole equation edits
  cases result : FileList.insertItem list.files (FileList.flagged list.isRemoteMap file) (left, right) with
  | error failure =>
    rw [result] at equation accepts
    rw [equation] at edits
    exact .failed equation edits (by rw [position, ← accepts]; exact nofun)
  | ok inserted =>
    cases inserted with
    | none =>
      rw [result] at equation accepts
      rw [equation] at edits
      exact .refused equation edits (by rw [position, ← accepts]; exact nofun)
    | some files =>
      obtain rfl := insertItem_some whole result
      rw [result] at equation accepts
      rw [equation] at edits
      exact .inserted whole position equation edits (accepts.mp ⟨_, rfl⟩)

theorem safe_iff (list : FileList) (request : FileList.Request) :
    LastHit.Safe finds list.files (editOf list.isRemoteMap list.files request) ↔ KeepsDistinct list request := by
  cases request with
  | create name address size =>
    cases created list name address size with
    | failed created edits refused =>
      rw [edits]
      exact iff_of_true trivial fun files inserted => absurd ⟨files, inserted⟩ refused
    | refused created edits refused =>
      rw [edits]
      exact iff_of_true trivial fun files inserted => absurd ⟨files, inserted⟩ refused
    | @inserted file left right whole position created edits accepted =>
      obtain ⟨files, accepted⟩ := accepted
      rw [edits, KeepsDistinct, position]
      have front : list.files.take left.length = left := by rw [← whole, List.take_left]
      have keeps : (∀ files, FileList.insertItem list.files file (left, right) = .ok (some files) →
          Separate left right file) ↔ Separate left right file :=
        ⟨fun all => all files accepted, fun separate _ _ => separate⟩
      refine Iff.trans ?_ keeps.symm
      rw [LastHit.Safe, front, Separate, ← distinct_iff]
      simp only [LastHit.Clean, LastHit.Hidden, LastHit.Apart, finds_flagged]
      refine and_congr_right fun _ => ⟨?_, ?_⟩
      · rintro others inner other behind rfl
        have here := others (left ++ inner) other behind (by rw [← whole, List.append_assoc]) (by simp)
        rwa [← apart_iff, ← hidden_iff]
      · intro others front other behind same beyond
        obtain ⟨inner, rfl, rfl⟩ := LastHit.split_behind (whole.trans same) beyond
        have here := others inner other behind rfl
        rwa [← apart_iff, ← hidden_iff] at here
  | remove i => exact ⟨fun clear front file behind same => (distinct_iff front file).mp (clear front file behind same),
      fun clear front file behind same => (distinct_iff front file).mpr (clear front file behind same)⟩

/-- A lookup in the map is a lookup in the list with its last hit. -/
theorem lookup_eq (self : LookupMap) (q : BitVec 32 ⊕ Bytes) :
    LastHit.lookup finds self.lastHit q =
      ((self.findFirst (finds q)).1, (self.findFirst (finds q)).2.lastHit) := by
  rw [LastHit.lookup, findFirst, last?]
  change (match self.lastFile.filter fun k => self.list.files[k]?.any (finds q) with | some k => _ | none => _) = _
  cases last : self.lastFile with
  | none =>
    change (match self.list.files.findIdx? (finds q) with | some k => _ | none => _) = _
    rw [Option.bind_none, Option.any_none, if_neg Bool.false_ne_true]
    cases self.list.files.findIdx? (finds q) <;> rfl
  | some k =>
    rw [Option.bind_some]
    rw [Option.filter_some]
    by_cases found : self.list.files[k]?.any (finds q)
    · rw [if_pos found, if_pos found]
    · rw [if_neg found, if_neg found]
      change (match self.list.files.findIdx? (finds q) with | some k => _ | none => _) = _
      cases self.list.files.findIdx? (finds q) <;> rfl

theorem findFirst_list (self : LookupMap) (isFile : MapFile → Bool) :
    (self.findFirst isFile).2.list = self.list := by
  rw [findFirst]
  split
  · rfl
  · split <;> rfl

theorem apply_create (self : LookupMap) (name : Bytes) (address size : BitVec 32) :
    self.lastHit.apply (editOf self.list.isRemoteMap self.list.files (.create name address size)) =
      match self.createFile name address size with
      | .error _ => none
      | .ok (_, self') => some self'.lastHit := by
  rw [createFile]
  cases created self.list name address size with
  | failed created edits refused =>
    rw [edits, created]
    rfl
  | refused created edits refused =>
    rw [edits, created]
    rfl
  | @inserted file left right whole position created edits accepted =>
    have front : self.list.files.take left.length = left := by rw [← whole, List.take_left]
    have behind : self.list.files.drop left.length = right := by rw [← whole, List.drop_left]
    rw [edits, created]
    dsimp only
    rw [position, LastHit.apply, LastHit.edited, lastHit, front, behind]
    rfl

theorem createFile_isRemoteMap {list list' : FileList} {name : Bytes} {address size : BitVec 32}
    {file : Option MapFile} (made : list.createFile name address size = .ok (file, list')) :
    list'.isRemoteMap = list.isRemoteMap := by
  cases created list name address size with
  | failed created edits refused =>
    rw [created] at made
    contradiction
  | refused created edits refused =>
    rw [created] at made
    cases made
    rfl
  | inserted whole position created edits accepted =>
    rw [created] at made
    cases made
    rfl

/-- A call of apx_fileMap_create_file that returns -/
theorem createFile_list {self self' : LookupMap} {name : Bytes} {address size : BitVec 32}
    {file : Option MapFile} (made : self.createFile name address size = .ok (file, self')) :
    self.list.createFile name address size = .ok (file, self'.list) := by
  rw [createFile] at made
  split at made
  · contradiction
  · next created =>
    cases made
    exact created
  · next created =>
    cases made
    exact created

theorem removeFile_files (list : FileList) (i : Nat) :
    (list.removeFile i).2.files = list.files.eraseIdx i ∧ (list.removeFile i).2.isRemoteMap = list.isRemoteMap := by
  rw [FileList.removeFile]
  split
  · exact ⟨rfl, rfl⟩
  · next outside => exact ⟨(List.eraseIdx_of_length_le (Nat.not_lt.mp outside)).symm, rfl⟩

theorem plain_eq (self : LookupMap) (calls : List Call) :
    self.Plain calls ↔ LastHit.Plain finds (editOf self.list.isRemoteMap) self.lastHit (calls.map toCall) := by
  induction calls generalizing self with
  | nil => exact Iff.rfl
  | cons call rest ih =>
    cases call with
    | request request =>
      cases request with
      | create name address size =>
        have applied := apply_create self name address size
        rw [Plain]
        change _ ↔ ∀ c' ∈ self.lastHit.apply (editOf self.list.isRemoteMap self.list.files (.create name address size)),
          LastHit.Plain finds (editOf self.list.isRemoteMap) c' (rest.map toCall)
        rw [applied]
        cases made : self.createFile name address size with
        | error failure => exact iff_of_true nofun nofun
        | ok result =>
          have kept := createFile_isRemoteMap (createFile_list made)
          have here := ih result.2
          rw [kept] at here
          constructor
          · rintro plain c' is
            cases is
            exact here.mp (plain result.1 result.2 rfl)
          · rintro plain file self' is
            cases is
            exact here.mpr (plain _ rfl)
      | remove i =>
        have here := ih (self.removeFile i).2
        obtain ⟨files, kept⟩ := removeFile_files self.list i
        have kept' : (self.removeFile i).2.list.isRemoteMap = self.list.isRemoteMap := kept
        have items : (self.removeFile i).2.lastHit = { items := self.list.files.eraseIdx i, last := none } :=
          congrArg (LastHit.mk · none) files
        rw [kept', items] at here
        rw [Plain, here]
        constructor
        · rintro plain c' is
          cases is
          exact plain
        · exact fun plain => plain _ rfl
    | findByAddress address =>
      have here := ih (self.findByAddress address).2
      rw [findByAddress, findFirst_list] at here
      rw [Plain, findByAddress, here, List.map_cons, toCall, LastHit.Plain, lookup_eq]
      rfl
    | findByName name =>
      have here := ih (self.findByName name).2
      rw [findByName, findFirst_list] at here
      rw [Plain, findByName, here, List.map_cons, toCall, LastHit.Plain, lookup_eq]
      rfl

theorem allKeepDistinct_eq (list : FileList) (requests : List FileList.Request) :
    AllKeepDistinct list requests ↔
      LastHit.AllSafe finds (editOf list.isRemoteMap) list.files requests := by
  induction requests generalizing list with
  | nil => exact Iff.rfl
  | cons request rest ih =>
    rw [LastHit.AllSafe, safe_iff]
    cases request with
    | create name address size =>
      refine and_congr_right fun _ => ?_
      cases created list name address size with
      | failed created edits refused =>
        rw [created, edits]
        exact iff_of_true nofun nofun
      | refused created edits refused =>
        rw [edits]
        constructor
        · rintro keeps files is
          cases is
          exact (ih list).mp (keeps _ _ created)
        · rintro keeps file list' is
          cases created.symm.trans is
          exact (ih list).mpr (keeps list.files rfl)
      | @inserted file left right whole position created edits accepted =>
        have front : list.files.take left.length = left := by rw [← whole, List.take_left]
        have behind : list.files.drop left.length = right := by rw [← whole, List.drop_left]
        have here := ih { list with files := left ++ FileList.flagged list.isRemoteMap file :: right }
        rw [edits]
        constructor
        · rintro keeps files is
          rw [LastHit.edited, front, behind] at is
          cases is
          exact here.mp (keeps _ _ created)
        · rintro keeps file' list' is
          cases created.symm.trans is
          exact here.mpr (keeps _ (by rw [LastHit.edited, front, behind]; rfl))
    | remove i =>
      have here := ih (list.removeFile i).2
      obtain ⟨files, kept⟩ := removeFile_files list i
      rw [files, kept] at here
      refine and_congr_right fun _ => here.trans ?_
      constructor
      · rintro keeps files is
        cases is
        exact keeps
      · exact fun keeps => keeps _ rfl

/-- Lookups in a new map return the file that a scan finds, whatever lookups have been made before, if and only if
each request keeps the files distinct when it comes. -/
theorem lookups_plain_iff (isRemoteMap : Bool) (rs : List FileList.Request) :
    (∀ calls, requests calls = rs → (new isRemoteMap).Plain calls) ↔
      AllKeepDistinct { isRemoteMap := isRemoteMap } rs := by
  have empty : LastHit.Clear finds (new isRemoteMap).lastHit.items := by
    intro front file behind same
    simp [lastHit, new] at same
  have none_ : LastHit.LastClean finds (new isRemoteMap).lastHit := nofun
  rw [allKeepDistinct_eq]
  refine Iff.trans ?_ (@LastHit.plain_iff _ _ _ _ (editOf isRemoteMap) _ empty none_ rs)
  constructor
  · intro plain calls same
    have whole : (calls.map ofCall).map toCall = calls := by
      rw [List.map_map, show toCall ∘ ofCall = id from funext toCall_ofCall, List.map_id]
    have here := plain (calls.map ofCall) (by rw [requests_eq, whole, same])
    rwa [plain_eq, whole] at here
  · intro plain calls same
    rw [plain_eq]
    exact plain (calls.map toCall) (by rw [← requests_eq, same])

/-- Two files with one name: the second one, found by an address, is then found by the name. -/
theorem not_plain_twins : ¬∀ isRemoteMap calls, (new isRemoteMap).Plain calls := by
  intro plain
  have run := plain false [.request (.create [97] 0 10), .request (.create [97] 100 10), .findByAddress 105,
    .findByName [97]]
  obtain ⟨-, found, -⟩ := run _ _ rfl _ _ rfl
  exact absurd found (by decide)

end LookupMap

end Apx
