import Apx.FilePublishing
import Mathlib.Data.List.Basic

/-! A client publishes its nodes: what the server makes of the files and the definitions, in the order in
which they arrive. -/

namespace Apx

/-- A node of a client, with the addresses at which the client publishes its files -/
structure ClientNode where
  name : Bytes
  definition : Definition
  definitionAddress : Nat
  definitionSize : Nat
  providePortDataAddress : Nat := 0
  deriving DecidableEq, Repr

namespace ClientNode

/-- The name that the server takes from the names of the node's files -/
def base (n : ClientNode) : Bytes := nodeBase n.name

/-- create_definition_file_info -/
def definitionFile (n : ClientNode) : FileInfo where
  name := n.name ++ definitionFileExt
  address := n.definitionAddress
  size := n.definitionSize

/-- create_provide_port_data_file_info -/
def providePortDataFile (n : ClientNode) : FileInfo where
  name := n.name ++ providePortDataExt
  address := n.providePortDataAddress
  size := n.definition.provideDataSize

/-- The files of apx_nodeInstance_attach_to_file_manager_client_mode -/
def files (n : ClientNode) : List FileInfo :=
  n.definitionFile :: if 0 < n.definition.provideDataSize then [n.providePortDataFile] else []

end ClientNode

/-- A client as it can connect: its node manager has one node for each name, and its file manager has put
the files side by side, below the command area. -/
structure ValidClient (client : List ClientNode) : Prop where
  names : client.Pairwise fun n m => n.name ≠ m.name
  filled : ∀ info ∈ client.flatMap (·.files), 0 < info.size
  low : ∀ info ∈ client.flatMap (·.files), info.endAddress ≤ cmdAreaStartAddress
  apart : (client.flatMap (·.files)).Pairwise FileInfo.Apart

/-- What arrives at the server: the publish messages of a node's files, and the content of its definition
file -/
inductive Arrival where
  | definitionFile (n : ClientNode)
  | providePortDataFile (n : ClientNode)
  | definitionData (n : ClientNode)
  deriving DecidableEq, Repr

def ClientNode.arrivals (n : ClientNode) : List Arrival :=
  [.definitionFile n, .definitionData n] ++
    if 0 < n.definition.provideDataSize then [.providePortDataFile n] else []

/-- An order in which the messages of a client can arrive: a definition is sent when its file has been
published and requested. -/
structure PublishOrder (client : List ClientNode) (order : List Arrival) : Prop where
  perm : order.Perm (client.flatMap (·.arrivals))
  defined : ∀ n front back, order = front ++ .definitionData n :: back → .definitionFile n ∈ front

namespace NodeConnection

/-- What a server connection makes of one message -/
def process (c : NodeConnection) : Arrival → Except Failure NodeConnection
  | .definitionFile n => c.processRemoteFilePublished serverRemoteFilePublishedNotification n.definitionFile
  | .providePortDataFile n =>
    c.processRemoteFilePublished serverRemoteFilePublishedNotification n.providePortDataFile
  | .definitionData n => c.processDefinitionWritten n.definitionAddress n.definition

/-- One message after the other. The first error closes the connection. -/
def receive (c : NodeConnection) : List Arrival → Except Failure NodeConnection
  | [] => .ok c
  | e :: rest =>
    match c.process e with
    | .error failure => .error failure
    | .ok c => receive c rest

theorem receive_append (c : NodeConnection) (front back : List Arrival) :
    c.receive (front ++ back) =
      match c.receive front with
      | .error failure => .error failure
      | .ok c => c.receive back := by
  induction front generalizing c with
  | nil => rfl
  | cons e rest ih =>
    rw [List.cons_append, receive, receive]
    cases c.process e with
    | error failure => rfl
    | ok c' => exact ih c'

end NodeConnection

/-! Clients -/

namespace ValidClient
variable {client : List ClientNode} {n m : ClientNode}

theorem eq_of_name (valid : ValidClient client) (mem : n ∈ client) (mem' : m ∈ client)
    (same : n.name = m.name) : n = m := by
  by_contra different
  have : Std.Symm fun n m : ClientNode => n.name ≠ m.name := ⟨fun _ _ other => Ne.symm other⟩
  exact valid.names.forall mem mem' different same

theorem apart_of_ne (valid : ValidClient client) {a b : FileInfo} (mem : a ∈ client.flatMap (·.files))
    (mem' : b ∈ client.flatMap (·.files)) (different : a ≠ b) : a.Apart b := by
  have : Std.Symm FileInfo.Apart := ⟨fun _ _ apart => apart.symm⟩
  exact valid.apart.forall mem mem' different

theorem eq_of_address (valid : ValidClient client) {a b : FileInfo} (mem : a ∈ client.flatMap (·.files))
    (mem' : b ∈ client.flatMap (·.files)) (same : a.address = b.address) : a = b := by
  by_contra different
  exact (valid.apart_of_ne mem mem' different).address_ne (valid.filled a mem) (valid.filled b mem') same

/-- Only one file has an address. -/
theorem eq_of_inRange (valid : ValidClient client) {a b : FileInfo} (mem : a ∈ client.flatMap (·.files))
    (mem' : b ∈ client.flatMap (·.files)) (first : a.address ≤ b.address) (last : b.address < a.endAddress) :
    a = b := by
  by_contra different
  have apart := valid.apart_of_ne mem mem' different
  have filled := valid.filled b mem'
  rw [FileInfo.Apart, FileInfo.endAddress] at apart
  rw [FileInfo.endAddress] at last apart
  omega

end ValidClient

namespace ClientNode
variable {client : List ClientNode} {n m : ClientNode}

theorem definitionFile_mem (mem : n ∈ client) : n.definitionFile ∈ client.flatMap (·.files) :=
  List.mem_flatMap.mpr ⟨n, mem, List.mem_cons_self⟩

theorem providePortDataFile_mem (mem : n ∈ client) (provides : 0 < n.definition.provideDataSize) :
    n.providePortDataFile ∈ client.flatMap (·.files) := by
  refine List.mem_flatMap.mpr ⟨n, mem, List.mem_cons_of_mem _ ?_⟩
  rw [if_pos provides]
  exact List.mem_singleton_self _

theorem definitionFile_ne_providePortDataFile (n m : ClientNode) :
    n.definitionFile ≠ m.providePortDataFile := by
  intro same
  have types := congrArg (fun info : FileInfo => calcFileType info.name) same
  simp only [definitionFile, providePortDataFile, calcFileType_definition, calcFileType_providePortData] at types
  contradiction

theorem mem_arrivals {e : Arrival} : e ∈ n.arrivals ↔ e = .definitionFile n ∨ e = .definitionData n ∨
    e = .providePortDataFile n ∧ 0 < n.definition.provideDataSize := by
  rw [arrivals, List.mem_append, List.mem_cons, List.mem_singleton, or_assoc]
  by_cases provides : 0 < n.definition.provideDataSize
  · rw [if_pos provides, List.mem_singleton, and_iff_left provides]
  · rw [if_neg provides]
    simp [provides]

theorem definitionFile_mem_arrivals : .definitionFile n ∈ client.flatMap (·.arrivals) ↔ n ∈ client := by
  simp [List.mem_flatMap, mem_arrivals]

theorem definitionData_mem_arrivals : .definitionData n ∈ client.flatMap (·.arrivals) ↔ n ∈ client := by
  simp [List.mem_flatMap, mem_arrivals]

theorem providePortDataFile_mem_arrivals : .providePortDataFile n ∈ client.flatMap (·.arrivals) ↔
    n ∈ client ∧ 0 < n.definition.provideDataSize := by
  simp only [List.mem_flatMap, mem_arrivals, reduceCtorEq, false_or, Arrival.providePortDataFile.injEq]
  constructor
  · rintro ⟨m, mem, rfl, provides⟩
    exact ⟨mem, provides⟩
  · rintro ⟨mem, provides⟩
    exact ⟨n, mem, rfl, provides⟩

theorem baseName_definitionFile (n : ClientNode) : baseName n.definitionFile.name = some n.base :=
  baseName_append n.name _

theorem baseName_providePortDataFile (n : ClientNode) : baseName n.providePortDataFile.name = some n.base :=
  baseName_append n.name _

end ClientNode

/-- Every message arrives once. -/
theorem PublishOrder.nodup {client : List ClientNode} {order : List Arrival} (valid : ValidClient client)
    (publish : PublishOrder client order) : order.Nodup := by
  rw [publish.perm.nodup_iff, List.nodup_flatMap]
  refine ⟨fun n _ => ?_, valid.names.imp fun {n m} different => ?_⟩
  · rw [ClientNode.arrivals]
    split <;> simp
  · intro e mem mem'
    rw [ClientNode.mem_arrivals] at mem mem'
    have same : n = m := by
      rcases mem with rfl | rfl | ⟨rfl, -⟩ <;> rcases mem' with is | is | ⟨is, -⟩ <;> cases is <;> rfl
    exact different (congrArg ClientNode.name same)

theorem find?_of_alone {α : Type} {p : α → Bool} {l : List α} {a : α} (mem : a ∈ l) (holds : p a = true)
    (alone : ∀ b ∈ l, p b = true → b = a) : l.find? p = some a := by
  cases found : l.find? p with
  | none => exact absurd holds (List.find?_eq_none.mp found a mem)
  | some b => rw [alone b (List.mem_of_find?_eq_some found) (List.find?_some found)]

/-! The files of a connection -/

namespace NodeConnection
variable {c : NodeConnection}

@[simp] theorem setFileNotificationHandler_nodes (c : NodeConnection) (node : Bytes) (file : RemoteFile) :
    (c.setFileNotificationHandler node file).nodes = c.nodes := rfl

@[simp] theorem requestFile_nodes (c : NodeConnection) (file : RemoteFile) :
    (c.requestFile file).nodes = c.nodes := rfl

@[simp] theorem updateNode_remoteFiles (c : NodeConnection) (name : Bytes) (change : NodeEntry → NodeEntry) :
    (c.updateNode name change).remoteFiles = c.remoteFiles := rfl

/-- A change of a file leaves the others. -/
theorem mem_updateFile {file : RemoteFile} (mem : file ∈ c.remoteFiles)
    (alone : ∀ other ∈ c.remoteFiles, other.info.address = file.info.address → other = file)
    (change : RemoteFile → RemoteFile) (f : RemoteFile) :
    f ∈ (c.updateFile file.info.address change).remoteFiles ↔
      f = change file ∨ f ∈ c.remoteFiles ∧ f.info.address ≠ file.info.address := by
  rw [updateFile, List.mem_map]
  constructor
  · rintro ⟨g, memg, rfl⟩
    by_cases here : g.info.address = file.info.address
    · rw [if_pos here, alone g memg here]
      exact .inl rfl
    · rw [if_neg here]
      exact .inr ⟨memg, here⟩
  · rintro (rfl | ⟨memf, other⟩)
    · exact ⟨file, mem, if_pos rfl⟩
    · exact ⟨f, memf, if_neg other⟩

theorem mem_requestFile {file : RemoteFile} {node : Bytes} (mem : file ∈ c.remoteFiles)
    (alone : ∀ other ∈ c.remoteFiles, other.info.address = file.info.address → other = file)
    (change : NodeEntry → NodeEntry) (f : RemoteFile) :
    f ∈ (((c.setFileNotificationHandler node file).updateNode node change).requestFile file).remoteFiles ↔
      f = { file with isOpen := true, handler := some node } ∨
      f ∈ c.remoteFiles ∧ f.info.address ≠ file.info.address := by
  have handled (g : RemoteFile) := mem_updateFile mem alone (fun file => { file with handler := some node }) g
  have memHandled : { file with handler := some node } ∈ (c.setFileNotificationHandler node file).remoteFiles :=
    (handled _).mpr (.inl rfl)
  have aloneHandled : ∀ other ∈ (c.setFileNotificationHandler node file).remoteFiles,
      other.info.address = file.info.address → other = { file with handler := some node } := by
    intro other memo here
    rcases (handled other).mp memo with same | ⟨-, elsewhere⟩
    · exact same
    · exact absurd here elsewhere
  have opened := @mem_updateFile ((c.setFileNotificationHandler node file).updateNode node change)
    { file with handler := some node } memHandled aloneHandled (fun file => { file with isOpen := true }) f
  refine opened.trans (or_congr Iff.rfl ?_)
  constructor
  · rintro ⟨memf, elsewhere⟩
    rcases (handled f).mp memf with same | old
    · rw [same] at elsewhere
      exact absurd rfl elsewhere
    · exact old
  · rintro ⟨memf, elsewhere⟩
    exact ⟨(handled f).mpr (.inr ⟨memf, elsewhere⟩), elsewhere⟩

end NodeConnection

/-! What the server knows -/

/-- The server can tell the nodes apart by what it takes from their names. -/
structure Based (client : List ClientNode) : Prop where
  filled : ∀ n ∈ client, n.base ≠ []
  short : ∀ n ∈ client, n.base.length ≤ maxFileNameSize
  distinct : client.Pairwise fun n m => n.base ≠ m.base

theorem Based.eq_of_base {client : List ClientNode} {n m : ClientNode} (based : Based client) (mem : n ∈ client)
    (mem' : m ∈ client) (same : n.base = m.base) : n = m := by
  by_contra different
  have : Std.Symm fun n m : ClientNode => n.base ≠ m.base := ⟨fun _ _ other => Ne.symm other⟩
  exact based.distinct.forall mem mem' different same

namespace ClientNode

/-- The node has been built when its provide-port data file was there, and found it under its name. -/
def Requested (done : List Arrival) (n : ClientNode) : Prop :=
  .definitionData n ∈ done ∧ .providePortDataFile n ∈ done ∧ n.base = n.name

instance (done : List Arrival) (n : ClientNode) : Decidable (n.Requested done) :=
  inferInstanceAs (Decidable (_ ∧ _))

/-- The node instance of a node whose definition file has been published -/
def entry (done : List Arrival) (n : ClientNode) : NodeEntry where
  name := n.base
  definitionDataState := if .definitionData n ∈ done then .connected else .waitingForFileData
  providePortDataState :=
    if n.Requested done then .waitingForFileData
    else if .definitionData n ∈ done ∧ 0 < n.definition.provideDataSize then .waitingFileInfo
    else .init
  requirePortDataState :=
    if .definitionData n ∈ done ∧ 0 < n.definition.requireDataSize then .waitingForFileOpenRequest else .init

def remoteDefinitionFile (n : ClientNode) : RemoteFile where
  info := n.definitionFile
  fileType := .definition
  isOpen := true
  handler := some n.base

def remoteProvidePortDataFile (done : List Arrival) (n : ClientNode) : RemoteFile where
  info := n.providePortDataFile
  fileType := .providePortData
  isOpen := decide (n.Requested done)
  handler := if n.Requested done then some n.base else none

def requirePortDataFileName (n : ClientNode) : Bytes := n.base ++ requirePortDataExt

end ClientNode

/-- What a connection knows when the messages `done` have arrived without an error -/
structure Arrived (client : List ClientNode) (done : List Arrival) (c : NodeConnection) : Prop where
  arrivals : ∀ e ∈ done, e ∈ client.flatMap (·.arrivals)
  defined : ∀ n, .definitionData n ∈ done → .definitionFile n ∈ done
  nodes : ∀ n ∈ client, c.nodes n.base = if .definitionFile n ∈ done then some (n.entry done) else none
  others : ∀ name, (∀ n ∈ client, n.base ≠ name) → c.nodes name = none
  files : ∀ f, f ∈ c.remoteFiles ↔ ∃ n ∈ client,
    .definitionFile n ∈ done ∧ f = n.remoteDefinitionFile ∨
    .providePortDataFile n ∈ done ∧ f = n.remoteProvidePortDataFile done
  published : ∀ name, name ∈ c.publishedFiles ↔ ∃ n ∈ client, .definitionData n ∈ done ∧
    0 < n.definition.requireDataSize ∧ name = n.requirePortDataFileName
  distinct : c.publishedFiles.Nodup
  requests : ∀ n ∈ client, 0 < n.definition.provideDataSize →
    c.openRequests.count n.providePortDataAddress = if n.Requested done then 1 else 0

namespace Arrived
variable {client : List ClientNode} {done : List Arrival} {c : NodeConnection} {n : ClientNode}

theorem start (client : List ClientNode) : Arrived client [] {} where
  arrivals := by simp
  defined := by simp
  nodes := by simp
  others := by simp
  files := by simp
  published := by simp
  distinct := List.nodup_nil
  requests := by simp [ClientNode.Requested]

theorem provides (received : Arrived client done c) (mem : .providePortDataFile n ∈ done) :
    0 < n.definition.provideDataSize :=
  (ClientNode.providePortDataFile_mem_arrivals.mp (received.arrivals _ mem)).2

theorem info_mem (received : Arrived client done c) {f : RemoteFile} (mem : f ∈ c.remoteFiles) :
    f.info ∈ client.flatMap (·.files) := by
  obtain ⟨n, memn, ⟨-, rfl⟩ | ⟨arrived, rfl⟩⟩ := (received.files f).mp mem
  · exact ClientNode.definitionFile_mem memn
  · exact ClientNode.providePortDataFile_mem memn (received.provides arrived)

theorem eq_of_info (valid : ValidClient client) (received : Arrived client done c) {f g : RemoteFile}
    (mem : f ∈ c.remoteFiles) (mem' : g ∈ c.remoteFiles) (same : f.info = g.info) : f = g := by
  obtain ⟨n, memn, ⟨-, rfl⟩ | ⟨arrived, rfl⟩⟩ := (received.files f).mp mem <;>
    obtain ⟨m, memm, ⟨-, rfl⟩ | ⟨arrived', rfl⟩⟩ := (received.files g).mp mem'
  · have names := List.append_cancel_right (congrArg FileInfo.name same)
    rw [valid.eq_of_name memn memm names]
  · exact absurd same (ClientNode.definitionFile_ne_providePortDataFile n m)
  · exact absurd same.symm (ClientNode.definitionFile_ne_providePortDataFile m n)
  · have names := List.append_cancel_right (congrArg FileInfo.name same)
    rw [valid.eq_of_name memn memm names]

theorem eq_of_address (valid : ValidClient client) (received : Arrived client done c) {f g : RemoteFile}
    (mem : f ∈ c.remoteFiles) (mem' : g ∈ c.remoteFiles) (same : f.info.address = g.info.address) : f = g :=
  received.eq_of_info valid mem mem' (valid.eq_of_address (received.info_mem mem) (received.info_mem mem') same)

/-- A file that has not been published yet is put beside the others. -/
theorem createFile (valid : ValidClient client) (received : Arrived client done c) {info : FileInfo}
    (mem : info ∈ client.flatMap (·.files)) (fresh : ∀ f ∈ c.remoteFiles, f.info ≠ info) :
    ∃ files', insertItem c.remoteFiles (Apx.createFile info) = .ok (some files') ∧
      ∀ f, f ∈ files' ↔ f = Apx.createFile info ∨ f ∈ c.remoteFiles := by
  apply insertItem_apart (valid.filled info mem) (valid.low info mem)
  · intro other memo
    exact (valid.apart_of_ne (received.info_mem memo) mem (fresh other memo)).symm
  · intro other memo
    exact valid.filled _ (received.info_mem memo)

theorem definitionFile_fresh (valid : ValidClient client) (received : Arrived client done c) (mem : n ∈ client)
    (fresh : .definitionFile n ∉ done) : ∀ f ∈ c.remoteFiles, f.info ≠ n.definitionFile := by
  rintro f memf same
  obtain ⟨m, memm, ⟨arrived, rfl⟩ | ⟨arrived, rfl⟩⟩ := (received.files f).mp memf
  · have names := List.append_cancel_right (congrArg FileInfo.name same)
    rw [valid.eq_of_name memm mem names] at arrived
    exact fresh arrived
  · exact ClientNode.definitionFile_ne_providePortDataFile n m same.symm

theorem providePortDataFile_fresh (valid : ValidClient client) (received : Arrived client done c)
    (mem : n ∈ client) (fresh : .providePortDataFile n ∉ done) :
    ∀ f ∈ c.remoteFiles, f.info ≠ n.providePortDataFile := by
  rintro f memf same
  obtain ⟨m, memm, ⟨arrived, rfl⟩ | ⟨arrived, rfl⟩⟩ := (received.files f).mp memf
  · exact ClientNode.definitionFile_ne_providePortDataFile m n same
  · have names := List.append_cancel_right (congrArg FileInfo.name same)
    rw [valid.eq_of_name memm mem names] at arrived
    exact fresh arrived

/-- A provide-port data file that arrives in front of its definition file -/
theorem providePortDataFile (valid : ValidClient client) (received : Arrived client done c) (mem : n ∈ client)
    (provides : 0 < n.definition.provideDataSize) (fresh : .providePortDataFile n ∉ done)
    (early : .definitionFile n ∉ done) :
    ∃ c', c.process (.providePortDataFile n) = .ok c' ∧
      Arrived client (.providePortDataFile n :: done) c' := by
  have noData : .definitionData n ∉ done := fun arrived => early (received.defined n arrived)
  obtain ⟨files', inserted, members⟩ := received.createFile valid (ClientNode.providePortDataFile_mem mem provides)
    (received.providePortDataFile_fresh valid mem fresh)
  have fileType : (Apx.createFile n.providePortDataFile).fileType = .providePortData :=
    calcFileType_providePortData n.name
  have nobody : c.nodes n.base = none := by
    rw [received.nodes n mem, if_neg early]
  have processed : c.process (.providePortDataFile n) = .ok { c with remoteFiles := files' } := by
    rw [NodeConnection.process, NodeConnection.processRemoteFilePublished, inserted]
    simp only
    rw [NodeConnection.serverRemoteFilePublishedNotification, fileType]
    simp only
    rw [NodeConnection.processNewProvidePortDataFile,
      show (Apx.createFile n.providePortDataFile).info.name = n.providePortDataFile.name from rfl,
      n.baseName_providePortDataFile]
    simp only [nobody]
  -- no node that has been built is affected
  have requested (m : ClientNode) : m.Requested (.providePortDataFile n :: done) ↔ m.Requested done := by
    simp only [ClientNode.Requested, List.mem_cons, reduceCtorEq, false_or, Arrival.providePortDataFile.injEq]
    constructor
    · rintro ⟨built, rfl | arrived, same⟩
      · exact absurd built noData
      · exact ⟨built, arrived, same⟩
    · rintro ⟨built, arrived, same⟩
      exact ⟨built, .inr arrived, same⟩
  have entry (m : ClientNode) : m.entry (.providePortDataFile n :: done) = m.entry done := by
    simp only [ClientNode.entry, requested, List.mem_cons, reduceCtorEq, false_or]
  have file (m : ClientNode) : m.remoteProvidePortDataFile (.providePortDataFile n :: done) =
      m.remoteProvidePortDataFile done := by
    simp only [ClientNode.remoteProvidePortDataFile, requested]
  have created : Apx.createFile n.providePortDataFile = n.remoteProvidePortDataFile done := by
    have absent : ¬n.Requested done := fun both => noData both.1
    rw [ClientNode.remoteProvidePortDataFile, decide_eq_false absent, if_neg absent, Apx.createFile,
      show calcFileType n.providePortDataFile.name = .providePortData from fileType]
  refine ⟨_, processed, ?_⟩
  constructor
  case arrivals =>
    rw [List.forall_mem_cons]
    exact ⟨ClientNode.providePortDataFile_mem_arrivals.mpr ⟨mem, provides⟩, received.arrivals⟩
  case defined =>
    intro m arrived
    simp only [List.mem_cons, reduceCtorEq, false_or] at arrived ⊢
    exact received.defined m arrived
  case nodes =>
    intro m memm
    simp only [List.mem_cons, reduceCtorEq, false_or, entry]
    exact received.nodes m memm
  case others => exact received.others
  case files =>
    intro f
    rw [show f ∈ ({ c with remoteFiles := files' } : NodeConnection).remoteFiles ↔ f ∈ files' from Iff.rfl,
      members, received.files, created]
    simp only [List.mem_cons, reduceCtorEq, false_or, file, Arrival.providePortDataFile.injEq]
    constructor
    · rintro (rfl | ⟨m, memm, is⟩)
      · exact ⟨n, mem, .inr ⟨.inl rfl, rfl⟩⟩
      · exact ⟨m, memm, is.imp id fun old => ⟨.inr old.1, old.2⟩⟩
    · rintro ⟨m, memm, definition | ⟨rfl | arrived, rfl⟩⟩
      · exact .inr ⟨m, memm, .inl definition⟩
      · exact .inl rfl
      · exact .inr ⟨m, memm, .inr ⟨arrived, rfl⟩⟩
  case published =>
    intro name
    simp only [List.mem_cons, reduceCtorEq, false_or]
    exact received.published name
  case distinct => exact received.distinct
  case requests =>
    intro m memm provides'
    simp only [requested]
    exact received.requests m memm provides'

/-- A provide-port data file that arrives behind its definition file closes the connection. -/
theorem providePortDataFile_late (valid : ValidClient client) (received : Arrived client done c)
    (mem : n ∈ client) (provides : 0 < n.definition.provideDataSize) (fresh : .providePortDataFile n ∉ done)
    (late : .definitionFile n ∈ done) :
    c.process (.providePortDataFile n) = .error (.code .notImplemented) := by
  obtain ⟨files', inserted, -⟩ := received.createFile valid (ClientNode.providePortDataFile_mem mem provides)
    (received.providePortDataFile_fresh valid mem fresh)
  have fileType : (Apx.createFile n.providePortDataFile).fileType = .providePortData :=
    calcFileType_providePortData n.name
  have known : c.nodes n.base = some (n.entry done) := by
    rw [received.nodes n mem, if_pos late]
  rw [NodeConnection.process, NodeConnection.processRemoteFilePublished, inserted]
  simp only
  rw [NodeConnection.serverRemoteFilePublishedNotification, fileType]
  simp only
  rw [NodeConnection.processNewProvidePortDataFile,
    show (Apx.createFile n.providePortDataFile).info.name = n.providePortDataFile.name from rfl,
    n.baseName_providePortDataFile]
  simp only [known, NodeConnection.nodeRemoteFilePublishedNotification, fileType]

theorem definitionFile (valid : ValidClient client) (based : Based client) (received : Arrived client done c)
    (mem : n ∈ client) (fresh : .definitionFile n ∉ done) :
    ∃ c', c.process (.definitionFile n) = .ok c' ∧ Arrived client (.definitionFile n :: done) c' := by
  have noData : .definitionData n ∉ done := fun arrived => fresh (received.defined n arrived)
  have memFile := ClientNode.definitionFile_mem mem
  have freshFile := received.definitionFile_fresh valid mem fresh
  obtain ⟨files', inserted, members⟩ := received.createFile valid memFile freshFile
  have fileType : (Apx.createFile n.definitionFile).fileType = .definition := calcFileType_definition n.name
  have nobody : c.nodes n.base = none := by
    rw [received.nodes n mem, if_neg fresh]
  have filled : n.base.length ≠ 0 := fun empty => based.filled n mem (List.eq_nil_of_length_eq_zero empty)
  have processed : c.process (.definitionFile n) = .ok
      ((({ c with remoteFiles := files', nodes := Function.update c.nodes n.base (some { name := n.base }) } :
        NodeConnection).setFileNotificationHandler n.base (Apx.createFile n.definitionFile)).updateNode n.base
          (fun entry => { entry with definitionDataState := .waitingForFileData }) |>.requestFile
            (Apx.createFile n.definitionFile)) := by
    rw [NodeConnection.process, NodeConnection.processRemoteFilePublished, inserted]
    simp only
    rw [NodeConnection.serverRemoteFilePublishedNotification, fileType]
    simp only
    rw [NodeConnection.processNewDefinitionDataFile,
      show (Apx.createFile n.definitionFile).info = n.definitionFile from rfl, n.baseName_definitionFile]
    simp only [nobody]
    rw [NodeConnection.createNewNodeInstance, NodeConnection.initNodeInstanceFromFileInfo,
      show (Apx.createFile n.definitionFile).info = n.definitionFile from rfl, n.baseName_definitionFile,
      show nameEndsWith n.definitionFile.name definitionFileExt = true from nameEndsWith_append ..]
    simp only [if_true]
    rw [if_neg filled, if_neg (Nat.not_lt.mpr (based.short n mem)), if_neg (valid.filled _ memFile).ne']
    simp only [NodeConnection.nodeRemoteFilePublishedNotification, fileType]
  have requested (m : ClientNode) : m.Requested (.definitionFile n :: done) ↔ m.Requested done := by
    simp only [ClientNode.Requested, List.mem_cons, reduceCtorEq, false_or]
  have entry (m : ClientNode) : m.entry (.definitionFile n :: done) = m.entry done := by
    simp only [ClientNode.entry, requested, List.mem_cons, reduceCtorEq, false_or]
  have file (m : ClientNode) : m.remoteProvidePortDataFile (.definitionFile n :: done) =
      m.remoteProvidePortDataFile done := by
    simp only [ClientNode.remoteProvidePortDataFile, requested]
  have new : n.entry done = { name := n.base, definitionDataState := .waitingForFileData } := by
    have absent : ¬n.Requested done := fun both => noData both.1
    simp only [ClientNode.entry, if_neg absent, noData, false_and, if_false]
  -- no other file has the address
  have elsewhere : ∀ f ∈ c.remoteFiles, f.info.address ≠ n.definitionFile.address := by
    intro f memf same
    exact freshFile f memf (valid.eq_of_address (received.info_mem memf) memFile same)
  have opened (f : RemoteFile) := @NodeConnection.mem_requestFile
    { c with remoteFiles := files', nodes := Function.update c.nodes n.base (some { name := n.base }) }
    (Apx.createFile n.definitionFile) n.base ((members _).mpr (.inl rfl)) (by
      intro other memo same
      rcases (members other).mp memo with rfl | old
      · rfl
      · exact absurd same (elsewhere other old))
    (fun entry => { entry with definitionDataState := .waitingForFileData }) f
  refine ⟨_, processed, ?_⟩
  constructor
  case arrivals =>
    rw [List.forall_mem_cons]
    exact ⟨ClientNode.definitionFile_mem_arrivals.mpr mem, received.arrivals⟩
  case defined =>
    intro m arrived
    simp only [List.mem_cons, reduceCtorEq, false_or] at arrived
    exact List.mem_cons_of_mem _ (received.defined m arrived)
  case nodes =>
    intro m memm
    simp only [NodeConnection.requestFile_nodes, NodeConnection.updateNode,
      NodeConnection.setFileNotificationHandler_nodes, Function.update_self, entry]
    by_cases here : m = n
    · rw [here, Function.update_self, if_pos List.mem_cons_self, new]
      rfl
    · have other : m.base ≠ n.base := fun same => here (based.eq_of_base memm mem same)
      rw [Function.update_of_ne other, Function.update_of_ne other, received.nodes m memm]
      simp only [List.mem_cons, Arrival.definitionFile.injEq, here, false_or]
  case others =>
    intro name nobody'
    simp only [NodeConnection.requestFile_nodes, NodeConnection.updateNode,
      NodeConnection.setFileNotificationHandler_nodes]
    have other := (nobody' n mem).symm
    rw [Function.update_of_ne other, Function.update_of_ne other]
    exact received.others name nobody'
  case files =>
    intro f
    rw [opened]
    simp only [members, List.mem_cons, reduceCtorEq, false_or, file, Arrival.definitionFile.injEq]
    constructor
    · rintro (rfl | ⟨rfl | old, different⟩)
      · refine ⟨n, mem, .inl ⟨.inl rfl, ?_⟩⟩
        rw [ClientNode.remoteDefinitionFile, Apx.createFile, ← fileType]
        rfl
      · exact absurd rfl different
      · obtain ⟨m, memm, is⟩ := (received.files f).mp old
        exact ⟨m, memm, is.imp (fun known => ⟨.inr known.1, known.2⟩) id⟩
    · rintro ⟨m, memm, ⟨rfl | arrived, rfl⟩ | known⟩
      · refine .inl ?_
        rw [ClientNode.remoteDefinitionFile, Apx.createFile, ← fileType]
        rfl
      · have old := (received.files _).mpr ⟨m, memm, .inl ⟨arrived, rfl⟩⟩
        exact .inr ⟨.inr old, elsewhere _ old⟩
      · have old := (received.files _).mpr ⟨m, memm, .inr known⟩
        exact .inr ⟨.inr old, elsewhere _ old⟩
  case published =>
    intro name
    simp only [List.mem_cons, reduceCtorEq, false_or]
    exact received.published name
  case distinct => exact received.distinct
  case requests =>
    intro m memm provides'
    have other : n.definitionAddress ≠ m.providePortDataAddress := by
      intro same
      exact ClientNode.definitionFile_ne_providePortDataFile n m
        (valid.eq_of_address memFile (ClientNode.providePortDataFile_mem memm provides') same)
    simp only [requested, NodeConnection.requestFile]
    rw [List.count_append, show (Apx.createFile n.definitionFile).info.address = n.definitionAddress from rfl,
      List.count_singleton, beq_eq_false_iff_ne.mpr other, if_neg Bool.false_ne_true, Nat.add_zero]
    exact received.requests m memm provides'

theorem find?_providePortDataFile (based : Based client) (received : Arrived client done c)
    (mem : n ∈ client) :
    c.remoteFiles.find? (fun file => file.info.name = n.base ++ providePortDataExt) =
      if .providePortDataFile n ∈ done ∧ n.base = n.name then some (n.remoteProvidePortDataFile done) else none := by
  -- a file with this name belongs to a node with this name, which has the same base
  have owner : ∀ f ∈ c.remoteFiles, f.info.name = n.base ++ providePortDataExt →
      .providePortDataFile n ∈ done ∧ n.base = n.name ∧ f = n.remoteProvidePortDataFile done := by
    intro f memf named
    obtain ⟨m, memm, ⟨-, rfl⟩ | ⟨arrived, rfl⟩⟩ := (received.files f).mp memf
    · have types := congrArg calcFileType named
      rw [calcFileType_providePortData] at types
      exact absurd ((calcFileType_definition m.name).symm.trans types) (by decide)
    · have name : m.name = n.base := List.append_cancel_right named
      have same : m = n := by
        apply based.eq_of_base memm mem
        rw [ClientNode.base, name, ClientNode.base, nodeBase_nodeBase]
      rw [same] at name arrived ⊢
      exact ⟨arrived, name.symm, rfl⟩
  by_cases there : .providePortDataFile n ∈ done ∧ n.base = n.name
  · rw [if_pos there]
    apply find?_of_alone
    · exact (received.files _).mpr ⟨n, mem, .inr ⟨there.1, rfl⟩⟩
    · rw [there.2]
      exact decide_eq_true rfl
    · intro f memf named
      exact (owner f memf (of_decide_eq_true named)).2.2
  · rw [if_neg there, List.find?_eq_none]
    intro f memf named
    have known := owner f memf (of_decide_eq_true named)
    exact there ⟨known.1, known.2.1⟩

/-- What the arrival of a definition changes of the nodes that have requested their files -/
theorem requested_definitionData (fresh : .definitionData n ∉ done) (m : ClientNode) :
    m.Requested (.definitionData n :: done) ↔
      m = n ∧ .providePortDataFile n ∈ done ∧ n.base = n.name ∨ m.Requested done := by
  simp only [ClientNode.Requested, List.mem_cons, reduceCtorEq, false_or, Arrival.definitionData.injEq]
  constructor
  · rintro ⟨rfl | built, arrived, same⟩
    · exact .inl ⟨rfl, arrived, same⟩
    · exact .inr ⟨built, arrived, same⟩
  · rintro (⟨rfl, arrived, same⟩ | ⟨built, arrived, same⟩)
    · exact ⟨.inl rfl, arrived, same⟩
    · exact ⟨.inr built, arrived, same⟩

theorem requested_definitionData_of_ne {m : ClientNode} (other : m ≠ n) :
    m.Requested (.definitionData n :: done) ↔ m.Requested done := by
  simp only [ClientNode.Requested, List.mem_cons, Arrival.definitionData.injEq, other, false_or, reduceCtorEq]

theorem entry_definitionData_of_ne {m : ClientNode} (other : m ≠ n) :
    m.entry (.definitionData n :: done) = m.entry done := by
  simp only [ClientNode.entry, requested_definitionData_of_ne other, List.mem_cons, Arrival.definitionData.injEq,
    other, false_or]

theorem remoteProvidePortDataFile_of_ne {m : ClientNode} (other : m ≠ n) :
    m.remoteProvidePortDataFile (.definitionData n :: done) = m.remoteProvidePortDataFile done := by
  simp only [ClientNode.remoteProvidePortDataFile, requested_definitionData_of_ne other]

/-- What a connection knows between the two halves of attaching a node that has been built -/
structure Attached (client : List ClientNode) (done : List Arrival) (n : ClientNode) (c c' : NodeConnection) :
    Prop where
  nodes : c'.nodes = Function.update c.nodes n.base
    (some { n.entry (.definitionData n :: done) with requirePortDataState := .init })
  files : ∀ f, f ∈ c'.remoteFiles ↔ ∃ m ∈ client,
    .definitionFile m ∈ done ∧ f = m.remoteDefinitionFile ∨
    .providePortDataFile m ∈ done ∧ f = m.remoteProvidePortDataFile (.definitionData n :: done)
  published : c'.publishedFiles = c.publishedFiles
  requests : ∀ m ∈ client, 0 < m.definition.provideDataSize →
    c'.openRequests.count m.providePortDataAddress = if m.Requested (.definitionData n :: done) then 1 else 0

theorem attached_of_absent (received : Arrived client done c) (fresh : .definitionData n ∉ done)
    (absent : ¬(.providePortDataFile n ∈ done ∧ n.base = n.name)) {c' : NodeConnection}
    (nodes : c'.nodes = Function.update c.nodes n.base
      (some { n.entry (.definitionData n :: done) with requirePortDataState := .init }))
    (files : c'.remoteFiles = c.remoteFiles) (published : c'.publishedFiles = c.publishedFiles)
    (requests : c'.openRequests = c.openRequests) : Attached client done n c c' := by
  have requested (m : ClientNode) : m.Requested (.definitionData n :: done) ↔ m.Requested done := by
    rw [requested_definitionData fresh, or_iff_right fun here => absent here.2]
  refine ⟨nodes, fun f => ?_, published, fun m memm provides => ?_⟩
  · simp only [files, received.files, ClientNode.remoteProvidePortDataFile, requested]
  · simp only [requests, requested, received.requests m memm provides]

theorem attachProvidePortData (valid : ValidClient client) (based : Based client)
    (received : Arrived client done c) (mem : n ∈ client) (known : .definitionFile n ∈ done)
    (fresh : .definitionData n ∉ done) :
    Attached client done n c
      ((c.updateNode n.base NodeEntry.definitionWritten).attachProvidePortData n.base n.definition) := by
  have before : c.nodes n.base = some (n.entry done) := by
    rw [received.nodes n mem, if_pos known]
  have written : (n.entry done).definitionWritten = { n.entry done with definitionDataState := .connected } :=
    if_pos (if_neg fresh)
  have notYet : ¬n.Requested done := fun both => fresh both.1
  have built : .definitionData n ∈ .definitionData n :: done := List.mem_cons_self
  rw [NodeConnection.attachProvidePortData]
  by_cases provides : 0 < n.definition.provideDataSize
  · rw [if_pos provides, NodeConnection.searchForRemoteProvidePortDataFile]
    simp only [NodeConnection.updateNode_remoteFiles, received.find?_providePortDataFile based mem]
    by_cases there : .providePortDataFile n ∈ done ∧ n.base = n.name
    · rw [if_pos there]
      simp only
      have now : n.Requested (.definitionData n :: done) := ⟨built, List.mem_cons_of_mem _ there.1, there.2⟩
      have memFile := (received.files _).mpr ⟨n, mem, .inr ⟨there.1, rfl⟩⟩
      refine ⟨?_, ?_, rfl, ?_⟩
      · -- the node's state goes through WAITING_FILE_INFO
        simp only [NodeConnection.requestRemoteProvidePortData, NodeConnection.requestFile_nodes,
          NodeConnection.updateNode, NodeConnection.setFileNotificationHandler_nodes, Function.update_self,
          Function.update_idem, before, Option.map_some, written]
        congr 2
        simp only [ClientNode.entry, built, if_true, now, fresh, notYet, false_and, if_false]
      · intro f
        have opened := @NodeConnection.mem_requestFile
          ((c.updateNode n.base NodeEntry.definitionWritten).updateNode n.base fun entry =>
            { entry with providePortDataState := .waitingFileInfo })
          (n.remoteProvidePortDataFile done) n.base memFile
          (fun other memo same => received.eq_of_address valid memo memFile same)
          (fun entry => { entry with providePortDataState := .waitingForFileData }) f
        rw [NodeConnection.requestRemoteProvidePortData]
        refine opened.trans ?_
        have handled : ({ n.remoteProvidePortDataFile done with isOpen := true, handler := some n.base } :
            RemoteFile) = n.remoteProvidePortDataFile (.definitionData n :: done) := by
          simp only [ClientNode.remoteProvidePortDataFile, now, decide_true, if_true]
        rw [handled]
        constructor
        · rintro (rfl | ⟨old, elsewhere⟩)
          · exact ⟨n, mem, .inr ⟨there.1, rfl⟩⟩
          · obtain ⟨m, memm, definition | ⟨arrived, rfl⟩⟩ := (received.files f).mp old
            · exact ⟨m, memm, .inl definition⟩
            · have other : m ≠ n := fun same => elsewhere (same ▸ rfl)
              exact ⟨m, memm, .inr ⟨arrived, (remoteProvidePortDataFile_of_ne other).symm⟩⟩
        · rintro ⟨m, memm, ⟨arrived, rfl⟩ | ⟨arrived, rfl⟩⟩
          · refine .inr ⟨(received.files _).mpr ⟨m, memm, .inl ⟨arrived, rfl⟩⟩, fun same => ?_⟩
            exact ClientNode.definitionFile_ne_providePortDataFile m n (valid.eq_of_address
              (ClientNode.definitionFile_mem memm) (ClientNode.providePortDataFile_mem mem provides) same)
          · by_cases here : m = n
            · rw [here]
              exact .inl rfl
            · rw [remoteProvidePortDataFile_of_ne here]
              refine .inr ⟨(received.files _).mpr ⟨m, memm, .inr ⟨arrived, rfl⟩⟩, fun same => here ?_⟩
              have infos := valid.eq_of_address
                (ClientNode.providePortDataFile_mem memm (received.provides arrived))
                (ClientNode.providePortDataFile_mem mem provides) same
              exact valid.eq_of_name memm mem (List.append_cancel_right (congrArg FileInfo.name infos))
      · intro m memm provides'
        have appended : (c.openRequests ++ [n.providePortDataAddress]).count m.providePortDataAddress =
            (if m.Requested done then 1 else 0) + if m = n then 1 else 0 := by
          rw [List.count_append, received.requests m memm provides', List.count_singleton]
          congr 1
          by_cases here : m = n
          · rw [here, if_pos rfl, beq_self_eq_true, if_pos rfl]
          · have elsewhere : n.providePortDataAddress ≠ m.providePortDataAddress := by
              intro same
              have infos := valid.eq_of_address (ClientNode.providePortDataFile_mem mem provides)
                (ClientNode.providePortDataFile_mem memm provides') same
              exact here (valid.eq_of_name memm mem
                (List.append_cancel_right (congrArg FileInfo.name infos)).symm)
            rw [if_neg here, beq_eq_false_iff_ne.mpr elsewhere, if_neg Bool.false_ne_true]
        refine appended.trans ?_
        by_cases here : m = n
        · rw [here, if_neg notYet, if_pos rfl, if_pos now]
        · simp only [requested_definitionData_of_ne here, if_neg here, Nat.add_zero]
    · rw [if_neg there]
      refine received.attached_of_absent fresh there ?_ rfl rfl rfl
      have later : ¬n.Requested (.definitionData n :: done) := by
        rw [requested_definitionData fresh]
        rintro (⟨-, here⟩ | before')
        · exact there here
        · exact notYet before'
      simp only [NodeConnection.updateNode, Function.update_self, Function.update_idem, before,
        Option.map_some, written]
      congr 2
      simp only [ClientNode.entry, built, if_true, later, if_false, provides, and_self, fresh, false_and]
  · rw [if_neg provides]
    have there : ¬(.providePortDataFile n ∈ done ∧ n.base = n.name) :=
      fun both => provides (received.provides both.1)
    have later : ¬n.Requested (.definitionData n :: done) := by
      rw [requested_definitionData fresh]
      rintro (⟨-, here⟩ | before')
      · exact there here
      · exact notYet before'
    refine received.attached_of_absent fresh there ?_ rfl rfl rfl
    simp only [NodeConnection.updateNode, before, Option.map_some, written]
    congr 2
    simp only [ClientNode.entry, built, if_true, later, if_false, provides, and_false, notYet, fresh, false_and]

/-- The name of the require-port data file fits into its buffer, if the node has one. -/
def RequireNameFits (n : ClientNode) : Prop :=
  0 < n.definition.requireDataSize → n.base.length + requirePortDataExt.length ≤ maxFileNameSize

theorem process_definitionData (valid : ValidClient client) (received : Arrived client done c) (mem : n ∈ client)
    (known : .definitionFile n ∈ done) : c.process (.definitionData n) =
      ((c.updateNode n.base NodeEntry.definitionWritten).attachProvidePortData n.base
        n.definition).attachRequirePortData n.base n.definition := by
  have memFile := (received.files _).mpr ⟨n, mem, .inl ⟨known, rfl⟩⟩
  have found : c.remoteFiles.find? (·.addressInRange n.definitionAddress) = some n.remoteDefinitionFile := by
    apply find?_of_alone memFile
    · have filled := valid.filled _ (ClientNode.definitionFile_mem mem)
      rw [RemoteFile.addressInRange, FileInfo.endAddress, Bool.and_eq_true, decide_eq_true_eq, decide_eq_true_eq]
      exact ⟨Nat.le_refl _, Nat.lt_add_of_pos_right filled⟩
    · intro f memf inRange
      rw [RemoteFile.addressInRange, Bool.and_eq_true, decide_eq_true_eq, decide_eq_true_eq] at inRange
      exact received.eq_of_info valid memf memFile
        (valid.eq_of_inRange (received.info_mem memf) (ClientNode.definitionFile_mem mem) inRange.1 inRange.2)
  rw [NodeConnection.process, NodeConnection.processDefinitionWritten, found]
  rfl

/-- A definition builds its node, which looks for its provide-port data file and publishes its
require-port data file. -/
theorem definitionData (valid : ValidClient client) (based : Based client) (received : Arrived client done c)
    (mem : n ∈ client) (known : .definitionFile n ∈ done) (fresh : .definitionData n ∉ done)
    (fits : RequireNameFits n) :
    ∃ c', c.process (.definitionData n) = .ok c' ∧ Arrived client (.definitionData n :: done) c' := by
  have attached := received.attachProvidePortData valid based mem known fresh
  rw [received.process_definitionData valid mem known]
  generalize (c.updateNode n.base NodeEntry.definitionWritten).attachProvidePortData n.base n.definition = c₂
    at attached ⊢
  have built : .definitionData n ∈ .definitionData n :: done := List.mem_cons_self
  -- the other fields do not depend on the require port data
  have rest (c' : NodeConnection)
      (nodes : c'.nodes = Function.update c.nodes n.base (some (n.entry (.definitionData n :: done))))
      (published : ∀ name, name ∈ c'.publishedFiles ↔ name ∈ c.publishedFiles ∨
        0 < n.definition.requireDataSize ∧ name = n.requirePortDataFileName)
      (distinct : c'.publishedFiles.Nodup) (files : c'.remoteFiles = c₂.remoteFiles)
      (requests : c'.openRequests = c₂.openRequests) :
      Arrived client (.definitionData n :: done) c' := by
    constructor
    case arrivals =>
      rw [List.forall_mem_cons]
      exact ⟨ClientNode.definitionData_mem_arrivals.mpr mem, received.arrivals⟩
    case defined =>
      intro m arrived
      simp only [List.mem_cons, Arrival.definitionData.injEq, reduceCtorEq, false_or] at arrived ⊢
      rcases arrived with rfl | arrived
      · exact known
      · exact received.defined m arrived
    case nodes =>
      intro m memm
      simp only [List.mem_cons, reduceCtorEq, false_or]
      by_cases here : m = n
      · rw [here, nodes, Function.update_self, if_pos known]
      · have other : m.base ≠ n.base := fun same => here (based.eq_of_base memm mem same)
        rw [nodes, Function.update_of_ne other, received.nodes m memm, entry_definitionData_of_ne here]
    case others =>
      intro name nobody
      rw [nodes, Function.update_of_ne (nobody n mem).symm]
      exact received.others name nobody
    case files =>
      intro f
      simp only [List.mem_cons, reduceCtorEq, false_or, files]
      exact attached.files f
    case published =>
      intro name
      rw [published, received.published]
      simp only [List.mem_cons, Arrival.definitionData.injEq]
      constructor
      · rintro (⟨m, memm, arrived, some, named⟩ | ⟨some, named⟩)
        · exact ⟨m, memm, .inr arrived, some, named⟩
        · exact ⟨n, mem, .inl rfl, some, named⟩
      · rintro ⟨m, memm, rfl | arrived, some, named⟩
        · exact .inr ⟨some, named⟩
        · exact .inl ⟨m, memm, arrived, some, named⟩
    case distinct => exact distinct
    case requests =>
      intro m memm provides
      rw [requests]
      exact attached.requests m memm provides
  rw [NodeConnection.attachRequirePortData]
  by_cases requires : 0 < n.definition.requireDataSize
  · rw [if_pos requires, makeFileName, if_pos (fits requires)]
    refine ⟨_, rfl, rest _ ?_ ?_ ?_ rfl rfl⟩
    · simp only [NodeConnection.updateNode, attached.nodes, Function.update_self, Function.update_idem,
        Option.map_some]
      congr 2
      simp only [ClientNode.entry, built, requires, and_self, if_true]
    · intro name
      simp only [NodeConnection.updateNode, attached.published, List.mem_append, List.mem_singleton, requires,
        true_and]
      rfl
    · simp only [NodeConnection.updateNode, attached.published, List.nodup_append]
      refine ⟨received.distinct, List.nodup_singleton _, fun name old name' new => ?_⟩
      rw [List.mem_singleton] at new
      rw [new]
      rintro rfl
      obtain ⟨m, memm, arrived, -, named⟩ := (received.published _).mp old
      rw [based.eq_of_base mem memm (List.append_cancel_right named)] at fresh
      exact fresh arrived
  · rw [if_neg requires]
    refine ⟨_, rfl, rest _ ?_ ?_ ?_ rfl rfl⟩
    · rw [attached.nodes]
      congr 2
      simp only [ClientNode.entry, requires, and_false, if_false]
    · intro name
      simp only [attached.published, requires, false_and, or_false]
    · rw [attached.published]
      exact received.distinct

/-- The name of the require-port data file goes beyond its buffer. -/
theorem definitionData_long (valid : ValidClient client) (received : Arrived client done c) (mem : n ∈ client)
    (known : .definitionFile n ∈ done) (long : ¬RequireNameFits n) :
    c.process (.definitionData n) = .error .outOfBounds := by
  rw [RequireNameFits, Classical.not_imp] at long
  rw [received.process_definitionData valid mem known, NodeConnection.attachRequirePortData, if_pos long.1,
    makeFileName, if_neg long.2]

/-- What has to be when a message arrives -/
def Timely (done : List Arrival) : Arrival → Prop
  | .definitionFile _ => True
  | .providePortDataFile n => .definitionFile n ∉ done
  | .definitionData n => RequireNameFits n

theorem process (valid : ValidClient client) (based : Based client) (received : Arrived client done c)
    {e : Arrival} (mem : e ∈ client.flatMap (·.arrivals)) (fresh : e ∉ done)
    (defined : ∀ n, e = .definitionData n → .definitionFile n ∈ done) :
    (Timely done e → ∃ c', c.process e = .ok c' ∧ Arrived client (e :: done) c') ∧
    (¬Timely done e → ∃ failure, c.process e = .error failure) := by
  cases e with
  | definitionFile n =>
    have memn := ClientNode.definitionFile_mem_arrivals.mp mem
    exact ⟨fun _ => received.definitionFile valid based memn fresh, fun never => absurd trivial never⟩
  | providePortDataFile n =>
    obtain ⟨memn, provides⟩ := ClientNode.providePortDataFile_mem_arrivals.mp mem
    refine ⟨fun early => received.providePortDataFile valid memn provides fresh early, fun late => ?_⟩
    exact ⟨_, received.providePortDataFile_late valid memn provides fresh (not_not.mp late)⟩
  | definitionData n =>
    have memn := ClientNode.definitionData_mem_arrivals.mp mem
    have known := defined n rfl
    refine ⟨fun fits => received.definitionData valid based memn known fresh fits, fun long => ?_⟩
    exact ⟨_, received.definitionData_long valid memn known long⟩

/-- The rest of the messages, behind those that have arrived: the last one is the first in `done`. -/
theorem receive (valid : ValidClient client) (based : Based client) (received : Arrived client done c)
    {order rest : List Arrival} (publish : PublishOrder client order) (split : order = done.reverse ++ rest) :
    (∀ c', c.receive rest = .ok c' → Arrived client (rest.reverse ++ done) c') ∧
    ((∃ c', c.receive rest = .ok c') ↔
      ∀ front e back, rest = front ++ e :: back → Timely (front.reverse ++ done) e) := by
  induction rest generalizing done c with
  | nil =>
    refine ⟨fun c' is => ?_, iff_of_true ⟨c, rfl⟩ fun front e back empty => ?_⟩
    · cases is
      exact received
    · have lengths := congrArg List.length empty
      simp at lengths
  | cons e rest ih =>
    have mem : e ∈ client.flatMap (·.arrivals) := by
      rw [← publish.perm.mem_iff, split]
      simp
    have fresh : e ∉ done := by
      have nodup := publish.nodup valid
      rw [split, List.nodup_append] at nodup
      exact fun arrived => nodup.2.2 e (List.mem_reverse.mpr arrived) e List.mem_cons_self rfl
    have defined : ∀ n, e = .definitionData n → .definitionFile n ∈ done := by
      rintro n rfl
      exact List.mem_reverse.mp (publish.defined n done.reverse rest split)
    obtain ⟨accepts, refuses⟩ := received.process valid based mem fresh defined
    rw [NodeConnection.receive]
    by_cases timely : Timely done e
    · obtain ⟨c₁, processed, received₁⟩ := accepts timely
      obtain ⟨arrived, accepted⟩ := ih received₁ (by rw [split, List.reverse_cons, List.append_assoc]; rfl)
      rw [processed]
      simp only
      rw [accepted, List.reverse_cons, List.append_assoc]
      refine ⟨arrived, fun all front f back same => ?_, fun all front f back same => ?_⟩
      · cases front with
        | nil =>
          cases same
          exact timely
        | cons g front =>
          cases same
          rw [List.reverse_cons, List.append_assoc]
          exact all front f back rfl
      · have here := all (e :: front) f back (by rw [same]; rfl)
        rwa [List.reverse_cons, List.append_assoc] at here
    · obtain ⟨failure, processed⟩ := refuses timely
      rw [processed]
      simp only
      refine ⟨fun c' never => ?_, iff_of_false ?_ fun all => timely (all [] e rest rfl)⟩
      · contradiction
      · rintro ⟨c', never⟩
        contradiction

end Arrived

/-! Any client whose messages are accepted -/

namespace NodeConnection
variable {c c' : NodeConnection} {n : ClientNode}

@[simp] theorem updateNode_nodes (c : NodeConnection) (name : Bytes) (change : NodeEntry → NodeEntry) :
    (c.updateNode name change).nodes = Function.update c.nodes name ((c.nodes name).map change) := rfl

theorem updateNode_isSome (c : NodeConnection) (name : Bytes) (change : NodeEntry → NodeEntry) (other : Bytes) :
    ((c.updateNode name change).nodes other).isSome = (c.nodes other).isSome := by
  rw [updateNode_nodes]
  by_cases here : other = name
  · rw [here, Function.update_self, Option.isSome_map]
  · rw [Function.update_of_ne here]

theorem nodeRemoteFilePublishedNotification_isSome {node : Bytes} {file : RemoteFile}
    (accepted : c.nodeRemoteFilePublishedNotification node file = .ok c') (other : Bytes) :
    (c'.nodes other).isSome = (c.nodes other).isSome := by
  rw [nodeRemoteFilePublishedNotification] at accepted
  split at accepted
  · cases accepted
    rfl
  · rw [requestRemoteRequirePortData] at accepted
    split at accepted
    · cases accepted
      rw [requestFile_nodes, updateNode_isSome, setFileNotificationHandler_nodes]
    · contradiction
  · contradiction

theorem attachProvidePortData_isSome (c : NodeConnection) (node : Bytes) (definition : Definition)
    (other : Bytes) : ((c.attachProvidePortData node definition).nodes other).isSome = (c.nodes other).isSome := by
  rw [attachProvidePortData]
  split
  · rw [searchForRemoteProvidePortDataFile]
    split
    · rw [updateNode_isSome]
    · rw [requestRemoteProvidePortData, requestFile_nodes, updateNode_isSome, setFileNotificationHandler_nodes,
        updateNode_isSome]
  · rfl

theorem attachRequirePortData_isSome {node : Bytes} {definition : Definition}
    (accepted : c.attachRequirePortData node definition = .ok c') (other : Bytes) :
    (c'.nodes other).isSome = (c.nodes other).isSome := by
  rw [attachRequirePortData] at accepted
  split at accepted
  · split at accepted
    · contradiction
    · cases accepted
      exact updateNode_isSome ..
  · cases accepted
    rfl

/-- A new node instance has the name in front of the first dot, and was not there before. -/
theorem processNewDefinitionDataFile_ok {file : RemoteFile} {base : Bytes}
    (named : baseName file.info.name = some base) (accepted : c.processNewDefinitionDataFile file = .ok c') :
    base ≠ [] ∧ base.length ≤ maxFileNameSize ∧ c.nodes base = none ∧
      ∀ other, (c'.nodes other).isSome = (decide (other = base) || (c.nodes other).isSome) := by
  rw [processNewDefinitionDataFile, named] at accepted
  simp only at accepted
  split at accepted
  swap
  · contradiction
  next nobody =>
  rw [createNewNodeInstance] at accepted
  split at accepted
  swap
  · contradiction
  rw [initNodeInstanceFromFileInfo, named] at accepted
  simp only at accepted
  split at accepted
  · contradiction
  next node c₁ created =>
  split at created
  · contradiction
  next filled =>
  split at created
  · contradiction
  next short =>
  split at created
  · contradiction
  cases created
  cases accepted
  refine ⟨fun empty => filled (by rw [empty]; rfl), Nat.not_lt.mp short, nobody, fun other => ?_⟩
  rw [requestFile_nodes, updateNode_isSome]
  have inserted : (Function.update c.nodes base (some { name := base }) other).isSome =
      (decide (other = base) || (c.nodes other).isSome) := by
    by_cases here : other = base
    · rw [here, Function.update_self]
      simp
    · rw [Function.update_of_ne here, decide_eq_false here, Bool.false_or]
  split
  · next notified =>
    rw [nodeRemoteFilePublishedNotification_isSome notified]
    exact inserted
  · exact inserted

theorem processRemoteFilePublished_isSome {info : FileInfo} (type : calcFileType info.name ≠ .definition)
    (accepted : c.processRemoteFilePublished serverRemoteFilePublishedNotification info = .ok c') (other : Bytes) :
    (c'.nodes other).isSome = (c.nodes other).isSome := by
  rw [processRemoteFilePublished] at accepted
  split at accepted
  · contradiction
  · contradiction
  · rw [serverRemoteFilePublishedNotification] at accepted
    split at accepted
    · rw [processNewProvidePortDataFile] at accepted
      split at accepted
      · contradiction
      · split at accepted
        · exact nodeRemoteFilePublishedNotification_isSome accepted other
        · cases accepted
          rfl
    · next definition => exact absurd definition type
    · cases accepted
      rfl

theorem process_definitionFile_ok (accepted : c.process (.definitionFile n) = .ok c') :
    n.base ≠ [] ∧ n.base.length ≤ maxFileNameSize ∧ c.nodes n.base = none ∧
      ∀ other, (c'.nodes other).isSome = (decide (other = n.base) || (c.nodes other).isSome) := by
  have fileType : (Apx.createFile n.definitionFile).fileType = .definition := calcFileType_definition n.name
  rw [process, processRemoteFilePublished] at accepted
  split at accepted
  · contradiction
  · contradiction
  · next files _ =>
    rw [serverRemoteFilePublishedNotification, fileType] at accepted
    exact @processNewDefinitionDataFile_ok { c with remoteFiles := files } c' (Apx.createFile n.definitionFile)
      n.base n.baseName_definitionFile accepted

/-- Only definition files make node instances. -/
theorem process_isSome {e : Arrival} (other : ∀ n, e ≠ .definitionFile n) (accepted : c.process e = .ok c')
    (name : Bytes) : (c'.nodes name).isSome = (c.nodes name).isSome := by
  cases e with
  | definitionFile n => exact absurd rfl (other n)
  | providePortDataFile n =>
    have type : calcFileType n.providePortDataFile.name = .providePortData := calcFileType_providePortData n.name
    exact processRemoteFilePublished_isSome (by rw [type]; decide) accepted name
  | definitionData n =>
    rw [process, processDefinitionWritten] at accepted
    split at accepted
    · contradiction
    · split at accepted
      · split at accepted
        · contradiction
        · rw [attachRequirePortData_isSome accepted, attachProvidePortData_isSome, updateNode_isSome]
      · cases accepted
        rfl

theorem receive_isSome {order : List Arrival} (accepted : c.receive order = .ok c') (name : Bytes) :
    (c'.nodes name).isSome ↔ (c.nodes name).isSome ∨ ∃ n, .definitionFile n ∈ order ∧ n.base = name := by
  induction order generalizing c with
  | nil =>
    cases accepted
    simp
  | cons e rest ih =>
    rw [receive] at accepted
    split at accepted
    · contradiction
    · next c₁ processed =>
      rw [ih accepted]
      by_cases definition : ∃ n, e = .definitionFile n
      · obtain ⟨n, rfl⟩ := definition
        have new := (process_definitionFile_ok processed).2.2.2 name
        rw [new, Bool.or_eq_true, decide_eq_true_eq]
        simp only [List.mem_cons, Arrival.definitionFile.injEq]
        constructor
        · rintro ((rfl | old) | ⟨m, arrived, same⟩)
          · exact .inr ⟨n, .inl rfl, rfl⟩
          · exact .inl old
          · exact .inr ⟨m, .inr arrived, same⟩
        · rintro (old | ⟨m, rfl | arrived, same⟩)
          · exact .inl (.inr old)
          · exact .inl (.inl same.symm)
          · exact .inr ⟨m, arrived, same⟩
      · have others : ∀ n, e ≠ .definitionFile n := fun n is => definition ⟨n, is⟩
        rw [process_isSome others processed]
        refine or_congr Iff.rfl ⟨?_, ?_⟩
        · rintro ⟨n, arrived, same⟩
          exact ⟨n, List.mem_cons_of_mem _ arrived, same⟩
        · rintro ⟨n, arrived, same⟩
          rcases List.mem_cons.mp arrived with is | arrived
          · exact absurd is.symm (others n)
          · exact ⟨n, arrived, same⟩

theorem receive_split {order front back : List Arrival} {e : Arrival} (accepted : c.receive order = .ok c')
    (split : order = front ++ e :: back) :
    ∃ c₁ c₂, c.receive front = .ok c₁ ∧ c₁.process e = .ok c₂ := by
  rw [split, receive_append] at accepted
  cases first : c.receive front with
  | error failure =>
    rw [first] at accepted
    contradiction
  | ok c₁ =>
    rw [first] at accepted
    simp only at accepted
    rw [receive] at accepted
    cases processed : c₁.process e with
    | error failure =>
      rw [processed] at accepted
      contradiction
    | ok c₂ => exact ⟨c₁, c₂, rfl, processed⟩

end NodeConnection

/-- A client whose messages are all accepted has nodes that the server can tell apart. -/
theorem Based.of_receive {client : List ClientNode} {order : List Arrival} {c : NodeConnection}
    (valid : ValidClient client) (publish : PublishOrder client order)
    (accepted : ({} : NodeConnection).receive order = .ok c) : Based client := by
  have arrives (n : ClientNode) (mem : n ∈ client) : .definitionFile n ∈ order :=
    publish.perm.mem_iff.mpr (ClientNode.definitionFile_mem_arrivals.mpr mem)
  have next (n : ClientNode) (mem : n ∈ client) : ∃ front back c₁ c₂, order = front ++ .definitionFile n :: back ∧
      ({} : NodeConnection).receive front = .ok c₁ ∧ c₁.process (.definitionFile n) = .ok c₂ := by
    obtain ⟨front, back, split⟩ := List.append_of_mem (arrives n mem)
    obtain ⟨c₁, c₂, first, processed⟩ := NodeConnection.receive_split accepted split
    exact ⟨front, back, c₁, c₂, split, first, processed⟩
  -- of two nodes with one base, the second one is refused
  have refused (n m : ClientNode) (front back : List Arrival) (split : order = front ++ .definitionFile m :: back)
      (before : .definitionFile n ∈ front) : n.base ≠ m.base := by
    intro same
    obtain ⟨c₁, c₂, first, processed⟩ := NodeConnection.receive_split accepted split
    have nobody := (NodeConnection.process_definitionFile_ok processed).2.2.1
    have known := (NodeConnection.receive_isSome first m.base).mpr (.inr ⟨n, before, same⟩)
    rw [nobody] at known
    contradiction
  constructor
  case filled =>
    intro n mem
    obtain ⟨_, _, _, _, _, _, processed⟩ := next n mem
    exact (NodeConnection.process_definitionFile_ok processed).1
  case short =>
    intro n mem
    obtain ⟨_, _, _, _, _, _, processed⟩ := next n mem
    exact (NodeConnection.process_definitionFile_ok processed).2.1
  case distinct =>
    refine valid.names.imp_of_mem fun {n m} mem mem' different => ?_
    obtain ⟨front, back, split⟩ := List.append_of_mem (arrives m mem')
    have arrived := arrives n mem
    rw [split, List.mem_append, List.mem_cons] at arrived
    rcases arrived with before | same | behind
    · exact refused n m front back split before
    · cases same
      exact absurd rfl different
    · obtain ⟨middle, back', rfl⟩ := List.append_of_mem behind
      refine (refused m n (front ++ .definitionFile m :: middle) back' ?_ (by simp)).symm
      rw [split, List.append_assoc, List.cons_append]

/-- Every message is accepted, and behind the last one each node with provide ports has requested its
provide-port data file once and waits for the data, or is further. -/
def Accepted (client : List ClientNode) (order : List Arrival) : Prop :=
  ∃ c, ({} : NodeConnection).receive order = .ok c ∧
    ∀ n ∈ client, 0 < n.definition.provideDataSize →
      c.openRequests.count n.providePortDataAddress = 1 ∧
      ∃ entry, c.nodes n.base = some entry ∧
        entry.providePortDataState ∈ [DataState.waitingForFileData, .connected, .disconnected]

/-- Each provide-port data file is published in front of its definition file, as it is in the order of the
addresses, in which a client publishes its files when it connects. -/
def DataFirst (client : List ClientNode) (order : List Arrival) : Prop :=
  ∀ n ∈ client, 0 < n.definition.provideDataSize →
    ∀ front back, order = front ++ .providePortDataFile n :: back → .definitionFile n ∉ front

theorem DataFirst.of_timely {client : List ClientNode} {order : List Arrival}
    (timely : ∀ front e back, order = front ++ e :: back → Arrived.Timely front.reverse e) :
    DataFirst client order := by
  intro n _ _ front back split
  have early : .definitionFile n ∉ front.reverse := timely front _ back split
  rwa [List.mem_reverse] at early

namespace PublishOrder
variable {client : List ClientNode} {order : List Arrival}

theorem timely (publish : PublishOrder client order) (fits : ∀ n ∈ client, Arrived.RequireNameFits n)
    (first : DataFirst client order) (front : List Arrival) (e : Arrival) (back : List Arrival)
    (split : order = front ++ e :: back) : Arrived.Timely front.reverse e := by
  have mem : e ∈ client.flatMap (·.arrivals) := publish.perm.mem_iff.mp (by rw [split]; simp)
  cases e with
  | definitionFile n => exact trivial
  | providePortDataFile n =>
    obtain ⟨memn, provides⟩ := ClientNode.providePortDataFile_mem_arrivals.mp mem
    have early := first n memn provides front back split
    rwa [← List.mem_reverse] at early
  | definitionData n => exact fits n (ClientNode.definitionData_mem_arrivals.mp mem)

theorem requireNameFits_of_timely (publish : PublishOrder client order)
    (timely : ∀ front e back, order = front ++ e :: back → Arrived.Timely front.reverse e) :
    ∀ n ∈ client, Arrived.RequireNameFits n := by
  intro n mem
  obtain ⟨front, back, split⟩ := List.append_of_mem
    (publish.perm.mem_iff.mpr (ClientNode.definitionData_mem_arrivals.mpr mem))
  exact timely front _ back split

end PublishOrder

/-- The messages of a client are accepted, and its provide-port data requested, exactly when the server can
tell the nodes apart by what is in front of the first dot of their names, the names leave room for the
require-port data files, and each node with provide ports has no dot in its name and publishes its
provide-port data in front of its definition. -/
theorem accepted_iff {client : List ClientNode} {order : List Arrival} (valid : ValidClient client)
    (publish : PublishOrder client order) :
    Accepted client order ↔ Based client ∧ (∀ n ∈ client, Arrived.RequireNameFits n) ∧
      (∀ n ∈ client, 0 < n.definition.provideDataSize → dot ∉ n.name) ∧ DataFirst client order := by
  have run (based : Based client) := (Arrived.start client).receive valid based publish rfl
  simp only [List.append_nil] at run
  constructor
  · rintro ⟨c, accepted, requested⟩
    have based := Based.of_receive valid publish accepted
    have timely := (run based).2.mp ⟨c, accepted⟩
    have received := (run based).1 c accepted
    refine ⟨based, publish.requireNameFits_of_timely timely, fun n mem provides => ?_,
      DataFirst.of_timely timely⟩
    have once := received.requests n mem provides
    rw [(requested n mem provides).1] at once
    have named : n.Requested order.reverse := by
      by_contra never
      rw [if_neg never] at once
      contradiction
    exact nodeBase_eq_self.mp named.2.2
  · rintro ⟨based, fits, dotless, first⟩
    obtain ⟨c, accepted⟩ := (run based).2.mpr (publish.timely fits first)
    have received := (run based).1 c accepted
    refine ⟨c, accepted, fun n mem provides => ?_⟩
    have here {e : Arrival} (mem : e ∈ client.flatMap (·.arrivals)) : e ∈ order.reverse :=
      List.mem_reverse.mpr (publish.perm.mem_iff.mpr mem)
    have requested : n.Requested order.reverse :=
      ⟨here (ClientNode.definitionData_mem_arrivals.mpr mem),
        here (ClientNode.providePortDataFile_mem_arrivals.mpr ⟨mem, provides⟩),
        nodeBase_eq_self.mpr (dotless n mem provides)⟩
    refine ⟨?_, n.entry order.reverse, ?_, ?_⟩
    · rw [received.requests n mem provides, if_pos requested]
    · rw [received.nodes n mem, if_pos (here (ClientNode.definitionFile_mem_arrivals.mpr mem))]
    · rw [ClientNode.entry, if_pos requested]
      exact List.mem_cons_self

/-- A node with a provide port of one byte and a require port of two bytes -/
def portedNode (name : Bytes) (providePortDataAddress definitionAddress : Nat) : ClientNode where
  name := name
  definition := { provideDataSize := 1, requireDataSize := 2 }
  definitionAddress := definitionAddress
  definitionSize := 24
  providePortDataAddress := providePortDataAddress

def nodeA : ClientNode := portedNode [65] 0 0x4000000

def nodeB : ClientNode := portedNode [66] 1 0x4000400

/-- The files of one node come between those of the other, and the definitions in the other order than their files. -/
def twoNodesOrder : List Arrival :=
  [.providePortDataFile nodeB, .definitionFile nodeB, .providePortDataFile nodeA, .definitionFile nodeA,
    .definitionData nodeA, .definitionData nodeB]

theorem validClient_twoNodes : ValidClient [nodeA, nodeB] where
  names := by decide
  filled := by decide
  low := by decide
  apart := by
    simp [ClientNode.files, nodeA, nodeB, portedNode, ClientNode.definitionFile, ClientNode.providePortDataFile,
      FileInfo.Apart, FileInfo.endAddress]

theorem publishOrder_twoNodes : PublishOrder [nodeA, nodeB] twoNodesOrder where
  perm := by decide
  defined n front back split := by
    match front with
    | [] => cases split
    | [_] => cases split
    | [_, _] => cases split
    | [_, _, _] => cases split
    | [_, _, _, _] => cases split; decide
    | [_, _, _, _, _] => cases split; decide
    | _ :: _ :: _ :: _ :: _ :: _ :: front => cases front <;> cases split

theorem dataFirst_twoNodes : DataFirst [nodeA, nodeB] twoNodesOrder := by
  intro n _ _ front back split
  match front with
  | [] => exact List.not_mem_nil
  | [_] => cases split
  | [_, _] => cases split; decide
  | [_, _, _] => cases split
  | [_, _, _, _] => cases split
  | [_, _, _, _, _] => cases split
  | _ :: _ :: _ :: _ :: _ :: _ :: front => cases front <;> cases split

theorem accepted_twoNodes : Accepted [nodeA, nodeB] twoNodesOrder := by
  apply (accepted_iff validClient_twoNodes publishOrder_twoNodes).mpr
  have fits : ∀ n ∈ [nodeA, nodeB], Arrived.RequireNameFits n := by
    simp only [Arrived.RequireNameFits]
    decide
  exact ⟨⟨by decide, by decide, by decide⟩, fits, by decide, dataFirst_twoNodes⟩
/-- A node with one provide port of one byte -/
def singleNode (name : Bytes) : ClientNode where
  name := name
  definition := { provideDataSize := 1 }
  definitionAddress := 0x4000000
  definitionSize := 24

theorem provides_singleNode (name : Bytes) : 0 < (singleNode name).definition.provideDataSize := Nat.one_pos

theorem validClient_singleNode (name : Bytes) : ValidClient [singleNode name] where
  names := List.pairwise_singleton ..
  filled := by simp [ClientNode.files, singleNode, ClientNode.definitionFile, ClientNode.providePortDataFile]
  low := by
    simp [ClientNode.files, singleNode, ClientNode.definitionFile, ClientNode.providePortDataFile,
      FileInfo.endAddress, cmdAreaStartAddress]
  apart := by
    simp [ClientNode.files, singleNode, ClientNode.definitionFile, ClientNode.providePortDataFile,
      FileInfo.Apart, FileInfo.endAddress]

/-- The provide-port data file comes first. -/
def dataFirst (n : ClientNode) : List Arrival := [.providePortDataFile n, .definitionFile n, .definitionData n]

def definitionFirst (n : ClientNode) : List Arrival := [.definitionFile n, .definitionData n, .providePortDataFile n]

theorem publishOrder_dataFirst (name : Bytes) : PublishOrder [singleNode name] (dataFirst (singleNode name)) where
  perm := by
    rw [dataFirst, List.flatMap_singleton, ClientNode.arrivals, if_pos (provides_singleNode name)]
    exact (List.perm_append_singleton _ _).symm
  defined n front back split := by
    match front with
    | [] => cases split
    | [_] => cases split
    | [_, _] => cases split; simp
    | _ :: _ :: _ :: front => cases front <;> cases split

theorem publishOrder_definitionFirst (name : Bytes) :
    PublishOrder [singleNode name] (definitionFirst (singleNode name)) where
  perm := by
    rw [definitionFirst, List.flatMap_singleton, ClientNode.arrivals, if_pos (provides_singleNode name)]
    rfl
  defined n front back split := by
    match front with
    | [] => cases split
    | [_] => cases split; simp
    | [_, _] => cases split
    | _ :: _ :: _ :: front => cases front <;> cases split

/-- A provide-port data file that arrives behind its definition file closes the connection. -/
theorem not_accepted_definitionFirst : ¬∀ client order, ValidClient client → PublishOrder client order →
    Accepted client order := by
  intro holds
  obtain ⟨c, accepted, -⟩ := holds _ _ (validClient_singleNode [65]) (publishOrder_definitionFirst [65])
  have refused : ({} : NodeConnection).receive (definitionFirst (singleNode [65])) =
      .error (.code .notImplemented) := rfl
  rw [refused] at accepted
  contradiction

end Apx
