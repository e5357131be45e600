import Apx.FileTransfer
import Apx.Server
import Mathlib.Data.List.TakeWhile

/-! How nodes find their files: the names of files (file_info.c, file.c), the files that a peer publishes
(file_map.c) and the node instances that a server creates from them or a client has (server_connection.c,
client_connection.c, node_manager.c, node_instance.c). -/

namespace Apx

/-! Names -/

def dot : Byte := 46

/-- APX_DEFINITION_FILE_EXT -/
def definitionFileExt : Bytes := [46, 97, 112, 120]

/-- APX_PROVIDE_PORT_DATA_EXT -/
def providePortDataExt : Bytes := [46, 111, 117, 116]

/-- APX_REQUIRE_PORT_DATA_EXT -/
def requirePortDataExt : Bytes := [46, 105, 110]

/-- APX_PROVIDE_PORT_COUNT_EXT -/
def providePortCountExt : Bytes := [46, 99, 111, 117, 116]

/-- APX_REQUIRE_PORT_COUNT_EXT -/
def requirePortCountExt : Bytes := [46, 99, 105, 110]

/-- RMF_MAX_FILE_NAME_SIZE -/
def maxFileNameSize : Nat := 255

/-- strcpy of a name and strcat of an extension into a buffer of RMF_MAX_FILE_NAME_SIZE + 1 bytes, `none`
where they go beyond it: create_definition_file_info, create_provide_port_data_file_info and
create_require_port_data_file_info. -/
def makeFileName (name ext : Bytes) : Option Bytes :=
  if name.length + ext.length ≤ maxFileNameSize then some (name ++ ext) else none

/-- rmf_fileInfo_name_ends_with -/
def nameEndsWith (name suffix : Bytes) : Bool := suffix.isSuffixOf name

/-- rmf_fileInfo_base_name: up to the first dot -/
def baseName (name : Bytes) : Option Bytes :=
  if dot ∈ name then some (name.takeWhile (· ≠ dot)) else none

/-- apx_file_calc_file_type -/
def calcFileType (name : Bytes) : FileType :=
  if nameEndsWith name definitionFileExt then .definition
  else if nameEndsWith name providePortDataExt then .providePortData
  else if nameEndsWith name requirePortDataExt then .requirePortData
  else if nameEndsWith name providePortCountExt then .providePortCount
  else if nameEndsWith name requirePortCountExt then .requirePortCount
  else .unknown

/-- What is left of a name in front of its first dot -/
def nodeBase (name : Bytes) : Bytes := name.takeWhile (· ≠ dot)

theorem baseName_append (name ext : Bytes) : baseName (name ++ dot :: ext) = some (nodeBase name) := by
  rw [baseName, if_pos (by simp), nodeBase]
  congr 1
  induction name with
  | nil => simp
  | cons b rest ih =>
    rw [List.cons_append, List.takeWhile_cons, List.takeWhile_cons, ih]

theorem nodeBase_eq_self {name : Bytes} : nodeBase name = name ↔ dot ∉ name := by
  rw [nodeBase, List.takeWhile_eq_self_iff]
  constructor
  · intro other mem
    simpa using other dot mem
  · rintro absent b mem
    exact decide_eq_true fun same => absent (same ▸ mem)

theorem dot_notMem_nodeBase (name : Bytes) : dot ∉ nodeBase name := by
  intro mem
  simpa using List.mem_takeWhile_imp mem

theorem nodeBase_nodeBase (name : Bytes) : nodeBase (nodeBase name) = nodeBase name :=
  nodeBase_eq_self.mpr (dot_notMem_nodeBase name)

theorem nameEndsWith_append (name ext : Bytes) : nameEndsWith (name ++ ext) ext = true := by
  rw [nameEndsWith, List.isSuffixOf_iff_suffix]
  exact List.suffix_append name ext

theorem not_nameEndsWith {name ext suffix : Bytes} {b : Byte} (last : ext.getLast? = some b)
    (other : suffix.getLast? ≠ some b) (filled : suffix ≠ []) : nameEndsWith (name ++ ext) suffix = false := by
  rw [nameEndsWith, Bool.eq_false_iff, ne_eq, List.isSuffixOf_iff_suffix]
  rintro ⟨front, same⟩
  have ends := congrArg List.getLast? same
  obtain ⟨c, lastSuffix⟩ : ∃ c, suffix.getLast? = some c := by
    rw [List.getLast?_eq_some_getLast filled]
    exact ⟨_, rfl⟩
  rw [List.getLast?_append, List.getLast?_append, last, lastSuffix] at ends
  rw [lastSuffix] at other
  exact other ends

theorem calcFileType_definition (name : Bytes) : calcFileType (name ++ definitionFileExt) = .definition := by
  rw [calcFileType, if_pos (nameEndsWith_append ..)]

theorem calcFileType_providePortData (name : Bytes) :
    calcFileType (name ++ providePortDataExt) = .providePortData := by
  have other := @not_nameEndsWith name providePortDataExt definitionFileExt 116 rfl (by decide) (by decide)
  rw [calcFileType, other, if_neg Bool.false_ne_true, if_pos (nameEndsWith_append ..)]

theorem calcFileType_requirePortData (name : Bytes) :
    calcFileType (name ++ requirePortDataExt) = .requirePortData := by
  have other := @not_nameEndsWith name requirePortDataExt definitionFileExt 110 rfl (by decide) (by decide)
  have other' := @not_nameEndsWith name requirePortDataExt providePortDataExt 110 rfl (by decide) (by decide)
  rw [calcFileType, other, other', if_neg Bool.false_ne_true, if_neg Bool.false_ne_true,
    if_pos (nameEndsWith_append ..)]

/-! Files and nodes of one connection -/

/-- rmf_fileInfo_t -/
structure FileInfo where
  name : Bytes
  address : Nat
  size : Nat
  deriving DecidableEq, Repr

def FileInfo.endAddress (info : FileInfo) : Nat := info.address + info.size

/-- apx_file_t of a remote file. Its notification handler is the node instance with that name. -/
structure RemoteFile where
  info : FileInfo
  fileType : FileType
  isOpen : Bool := false
  handler : Option Bytes := none
  deriving DecidableEq, Repr

/-- apx_file_create -/
def createFile (info : FileInfo) : RemoteFile where
  info := info
  fileType := calcFileType info.name

/-- rmf_fileInfo_address_in_range -/
def RemoteFile.addressInRange (file : RemoteFile) (address : Nat) : Bool :=
  file.info.address ≤ address && address < file.info.endAddress

/-- find_next_available_position and insert_item of file_map.c: `none` when the file would overlap -/
def insertItem (files : List RemoteFile) (file : RemoteFile) : Except Failure (Option (List RemoteFile)) :=
  if files = [] then .ok (some [file])
  else
    let left := files.takeWhile fun other => other.info.address < file.info.address
    let right := files.dropWhile fun other => other.info.address < file.info.address
    if ∃ last ∈ left.getLast?, ¬last.info.endAddress ≤ file.info.address then .error .assertion
    else
      match right with
      | [] => .ok (some (files ++ [file]))
      | next :: _ =>
        if file.info.endAddress > next.info.address ∨ file.info.endAddress > cmdAreaStartAddress then .ok none
        else .ok (some (left ++ file :: right))

/-- Files of which no byte has the same address -/
def FileInfo.Apart (a b : FileInfo) : Prop := a.endAddress ≤ b.address ∨ b.endAddress ≤ a.address

theorem FileInfo.Apart.symm {a b : FileInfo} (apart : a.Apart b) : b.Apart a := Or.symm apart

theorem FileInfo.Apart.address_ne {a b : FileInfo} (apart : a.Apart b) (some : 0 < a.size) (some' : 0 < b.size) :
    a.address ≠ b.address := by
  rw [Apart, endAddress, endAddress] at apart
  omega

theorem insertItem_apart {files : List RemoteFile} {file : RemoteFile} (filled : 0 < file.info.size)
    (low : file.info.endAddress ≤ cmdAreaStartAddress)
    (apart : ∀ other ∈ files, file.info.Apart other.info) (sizes : ∀ other ∈ files, 0 < other.info.size) :
    ∃ files', insertItem files file = .ok (some files') ∧ ∀ f, f ∈ files' ↔ f = file ∨ f ∈ files := by
  rw [insertItem]
  by_cases empty : files = []
  · rw [if_pos empty, empty]
    exact ⟨_, rfl, fun f => by simp⟩
  · rw [if_neg empty]
    have whole := List.takeWhile_append_dropWhile
      (p := fun other : RemoteFile => decide (other.info.address < file.info.address)) (l := files)
    have lefts : ¬∃ last ∈ (files.takeWhile fun other => other.info.address < file.info.address).getLast?,
        ¬last.info.endAddress ≤ file.info.address := by
      rintro ⟨last, is, beyond⟩
      have mem := List.mem_of_getLast? is
      have before : last.info.address < file.info.address := by simpa using List.mem_takeWhile_imp mem
      have parts := apart last ((List.takeWhile_sublist _).mem mem)
      rw [FileInfo.Apart, FileInfo.endAddress] at parts
      omega
    simp only
    rw [if_neg lefts]
    cases rights : files.dropWhile fun other => other.info.address < file.info.address with
    | nil => exact ⟨_, rfl, fun f => by rw [List.mem_append, List.mem_singleton, or_comm]⟩
    | cons next rest =>
      have mem : next ∈ files := (List.dropWhile_sublist _).mem (rights ▸ List.mem_cons_self)
      have behind : ¬next.info.address < file.info.address := by
        have head := List.head?_dropWhile_not
          (fun other : RemoteFile => decide (other.info.address < file.info.address)) files
        rw [rights] at head
        simpa using head
      have parts := apart next mem
      have some := sizes next mem
      rw [FileInfo.Apart, FileInfo.endAddress] at parts
      have fits : ¬(file.info.endAddress > next.info.address ∨ file.info.endAddress > cmdAreaStartAddress) := by
        rw [FileInfo.endAddress] at parts low ⊢
        omega
      simp only
      rw [if_neg fits]
      refine ⟨_, rfl, fun f => ?_⟩
      rw [rights] at whole
      have members : f ∈ files ↔ f ∈ (files.takeWhile fun other => other.info.address < file.info.address) ∨
          f ∈ next :: rest := by
        rw [← List.mem_append, whole]
      rw [members, List.mem_append, List.mem_cons, List.mem_cons]
      tauto

/-- apx_nodeInstance_t: what its files need of it -/
structure NodeEntry where
  name : Bytes
  definitionDataState : DataState := .init
  providePortDataState : DataState := .init
  requirePortDataState : DataState := .init
  deriving DecidableEq, Repr

/-- The state of a node when its definition data are written -/
def NodeEntry.definitionWritten (entry : NodeEntry) : NodeEntry :=
  if entry.definitionDataState = .waitingForFileData then { entry with definitionDataState := .connected }
  else entry

/-- The sizes of the init data that a definition gives the ports of its node: 0 for no ports -/
structure Definition where
  provideDataSize : Nat := 0
  requireDataSize : Nat := 0
  deriving DecidableEq, Repr

/-- A connection with its node manager and its file manager: the node instances by their names, the files of
the peer, the names of the files that were published to the peer and the addresses of the files that the
peer was requested to open. -/
structure NodeConnection where
  nodes : Bytes → Option NodeEntry := fun _ => none
  remoteFiles : List RemoteFile := []
  publishedFiles : List Bytes := []
  openRequests : List Nat := []

namespace NodeConnection

def updateNode (c : NodeConnection) (name : Bytes) (change : NodeEntry → NodeEntry) : NodeConnection :=
  { c with nodes := Function.update c.nodes name ((c.nodes name).map change) }

def updateFile (c : NodeConnection) (address : Nat) (change : RemoteFile → RemoteFile) : NodeConnection :=
  { c with remoteFiles := c.remoteFiles.map fun file =>
      if file.info.address = address then change file else file }

/-- set_file_notification_handler -/
def setFileNotificationHandler (c : NodeConnection) (node : Bytes) (file : RemoteFile) : NodeConnection :=
  c.updateFile file.info.address fun file => { file with handler := some node }

/-- apx_file_open and apx_fileManager_send_open_file_request -/
def requestFile (c : NodeConnection) (file : RemoteFile) : NodeConnection :=
  { c.updateFile file.info.address fun file => { file with isOpen := true } with
    openRequests := c.openRequests ++ [file.info.address] }

/-- request_remote_require_port_data -/
def requestRemoteRequirePortData (c : NodeConnection) (node : Bytes) (file : RemoteFile) :
    Except Failure NodeConnection :=
  if (c.nodes node).map (·.requirePortDataState) = some .waitingFileInfo then
    .ok ((c.updateNode node fun entry =>
      { entry with requirePortDataState := .waitingForFileData }).requestFile file)
  else .error .assertion

/-- request_remote_provide_port_data -/
def requestRemoteProvidePortData (c : NodeConnection) (node : Bytes) (file : RemoteFile) : NodeConnection :=
  (c.updateNode node fun entry => { entry with providePortDataState := .waitingForFileData }).requestFile file

/-- apx_nodeInstance_remote_file_published_notification -/
def nodeRemoteFilePublishedNotification (c : NodeConnection) (node : Bytes) (file : RemoteFile) :
    Except Failure NodeConnection :=
  match file.fileType with
  | .definition => .ok (c.setFileNotificationHandler node file)
  | .requirePortData => (c.setFileNotificationHandler node file).requestRemoteRequirePortData node file
  | _ => .error (.code .notImplemented)

/-! The server -/

/-- init_node_instance_from_file_info: the new node is the one attached last. -/
def initNodeInstanceFromFileInfo (c : NodeConnection) (info : FileInfo) :
    Except Failure (Bytes × NodeConnection) :=
  match baseName info.name with
  | none => .error (.code .nullPtr)
  | some base =>
    if base.length = 0 then .error (.code .nameMissing)
    else if base.length > maxFileNameSize then .error (.code .nameTooLong)
    -- apx_nodeData_create_definition_data
    else if info.size = 0 then .error (.code .invalidArgument)
    else .ok (base, { c with nodes := Function.update c.nodes base (some { name := base }) })

/-- create_new_node_instance. What the node makes of the file is not looked at. -/
def createNewNodeInstance (c : NodeConnection) (file : RemoteFile) : Except Failure NodeConnection :=
  if nameEndsWith file.info.name definitionFileExt then
    match c.initNodeInstanceFromFileInfo file.info with
    | .error failure => .error failure
    | .ok (node, c) =>
      let c := match c.nodeRemoteFilePublishedNotification node file with
        | .ok c => c
        | .error _ => c
      .ok ((c.updateNode node fun entry =>
        { entry with definitionDataState := .waitingForFileData }).requestFile file)
  else .error (.code .invalidFile)

/-- process_new_definition_data_file -/
def processNewDefinitionDataFile (c : NodeConnection) (file : RemoteFile) : Except Failure NodeConnection :=
  match baseName file.info.name with
  | none => .error (.code .memory)
  | some base =>
    match c.nodes base with
    | none => c.createNewNodeInstance file
    | some _ => .error (.code .nodeAlreadyExists)

/-- process_new_provide_port_data_file -/
def processNewProvidePortDataFile (c : NodeConnection) (file : RemoteFile) : Except Failure NodeConnection :=
  match baseName file.info.name with
  | none => .error (.code .memory)
  | some base =>
    match c.nodes base with
    | some _ => c.nodeRemoteFilePublishedNotification base file
    | none => .ok c

/-- remote_file_published_notification of a server connection -/
def serverRemoteFilePublishedNotification (c : NodeConnection) (file : RemoteFile) :
    Except Failure NodeConnection :=
  match file.fileType with
  | .providePortData => c.processNewProvidePortDataFile file
  | .definition => c.processNewDefinitionDataFile file
  | _ => .ok c

/-- process_remote_file_published, up to the connection's `notification` -/
def processRemoteFilePublished (notification : NodeConnection → RemoteFile → Except Failure NodeConnection)
    (c : NodeConnection) (info : FileInfo) : Except Failure NodeConnection :=
  match insertItem c.remoteFiles (createFile info) with
  | .error failure => .error failure
  | .ok none => .error (.code .fileCreate)
  | .ok (some files) => notification { c with remoteFiles := files } (createFile info)

/-- search_for_remote_provide_port_data_file -/
def searchForRemoteProvidePortDataFile (c : NodeConnection) (node : Bytes) : NodeConnection :=
  -- apx_fileManager_find_remote_file_by_name
  match c.remoteFiles.find? fun file => file.info.name = node ++ providePortDataExt with
  | none => c
  | some file => (c.setFileNotificationHandler node file).requestRemoteProvidePortData node file

/-- The first half of apx_nodeInstance_attach_to_file_manager_server_mode -/
def attachProvidePortData (c : NodeConnection) (node : Bytes) (definition : Definition) : NodeConnection :=
  if definition.provideDataSize > 0 then
    (c.updateNode node fun entry =>
      { entry with providePortDataState := .waitingFileInfo }).searchForRemoteProvidePortDataFile node
  else c

/-- The other half: a file with the node's require port data is created and published. -/
def attachRequirePortData (c : NodeConnection) (node : Bytes) (definition : Definition) :
    Except Failure NodeConnection :=
  if definition.requireDataSize > 0 then
    let c := c.updateNode node fun entry => { entry with requirePortDataState := .waitingForFileOpenRequest }
    match makeFileName node requirePortDataExt with
    | none => .error .outOfBounds
    | some name => .ok { c with publishedFiles := c.publishedFiles ++ [name] }
  else .ok c

/-- process_remote_write_definition_data with the whole content of a definition that a node is built of,
and apx_nodeInstance_attach_to_file_manager_server_mode behind the build -/
def processRemoteWriteDefinitionData (c : NodeConnection) (node : Bytes) (definition : Definition) :
    Except Failure NodeConnection :=
  ((c.updateNode node NodeEntry.definitionWritten).attachProvidePortData node definition).attachRequirePortData
    node definition

/-- process_file_write_message with the whole content of a definition file -/
def processDefinitionWritten (c : NodeConnection) (address : Nat) (definition : Definition) :
    Except Failure NodeConnection :=
  match c.remoteFiles.find? (·.addressInRange address) with
  | none => .error (.code .invalidWrite)
  | some file =>
    if file.isOpen then
      match file.handler with
      | none => .error (.code .invalidWriteHandler)
      | some node => c.processRemoteWriteDefinitionData node definition
    else .ok c

/-! The client -/

/-- process_new_require_port_data_file -/
def processNewRequirePortDataFile (c : NodeConnection) (file : RemoteFile) : Except Failure NodeConnection :=
  match baseName file.info.name with
  | none => .error (.code .memory)
  | some base =>
    match c.nodes base with
    | some _ => c.nodeRemoteFilePublishedNotification base file
    | none => .ok c

/-- remote_file_published_notification of a client connection -/
def clientRemoteFilePublishedNotification (c : NodeConnection) (file : RemoteFile) :
    Except Failure NodeConnection :=
  if file.fileType = .requirePortData then c.processNewRequirePortDataFile file else .ok c

end NodeConnection

end Apx
