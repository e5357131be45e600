import Apx.PublishOrder

/-! The name of a node through its files: from the client to the server and back. -/

namespace Apx

/-! The client -/

/-- The node instance of apx_nodeInstance_attach_to_file_manager_client_mode -/
def ClientNode.clientEntry (n : ClientNode) : NodeEntry where
  name := n.name
  providePortDataState := if 0 < n.definition.provideDataSize then .waitingForFileOpenRequest else .init
  requirePortDataState := if 0 < n.definition.requireDataSize then .waitingFileInfo else .init

namespace NodeConnection

/-- The client's connection with its node manager, in front of any message of the server -/
def ofClient (client : List ClientNode) : NodeConnection where
  nodes name := (client.find? (·.name = name)).map (·.clientEntry)

/-- The files that a server publishes, one after the other -/
def receiveFiles (c : NodeConnection) : List FileInfo → Except Failure NodeConnection
  | [] => .ok c
  | info :: rest =>
    match c.processRemoteFilePublished clientRemoteFilePublishedNotification info with
    | .error failure => .error failure
    | .ok c => receiveFiles c rest

end NodeConnection

/-- Files that the map of a file manager accepts: side by side, below the command area -/
structure ValidFiles (infos : List FileInfo) : Prop where
  filled : ∀ info ∈ infos, 0 < info.size
  low : ∀ info ∈ infos, info.endAddress ≤ cmdAreaStartAddress
  apart : infos.Pairwise FileInfo.Apart

def ClientNode.requirePortDataName (n : ClientNode) : Bytes := n.name ++ requirePortDataExt

/-- All file names of a client are formed inside of their buffers. The server creates a node instance with
the name of each node, which has the node's definition file and its provide-port data file, and no other
instance has them. Wherever the server puts the require-port data files that it publishes, the client gives
each of them to the node that it was made for. -/
structure Identified (client : List ClientNode) (order : List Arrival) : Prop where
  definitionName : ∀ n ∈ client, (makeFileName n.name definitionFileExt).isSome
  provideName : ∀ n ∈ client, 0 < n.definition.provideDataSize →
    (makeFileName n.name providePortDataExt).isSome
  requireName : ∀ n ∈ client, 0 < n.definition.requireDataSize →
    (makeFileName n.name requirePortDataExt).isSome
  server : ∃ c, ({} : NodeConnection).receive order = .ok c ∧
    (∀ n ∈ client, (c.nodes n.name).map (·.name) = some n.name) ∧
    (∀ n ∈ client, ∃ f ∈ c.remoteFiles, f.info = n.definitionFile) ∧
    (∀ n ∈ client, 0 < n.definition.provideDataSize → ∃ f ∈ c.remoteFiles, f.info = n.providePortDataFile) ∧
    (∀ n ∈ client, ∀ f ∈ c.remoteFiles, f.info = n.definitionFile ∨ f.info = n.providePortDataFile →
      f.handler = some n.name) ∧
    ∀ infos : List FileInfo, ValidFiles infos → (infos.map (·.name)).Perm c.publishedFiles →
      ∃ d, (NodeConnection.ofClient client).receiveFiles infos = .ok d ∧
        ∀ n ∈ client, 0 < n.definition.requireDataSize →
          ∃ f ∈ d.remoteFiles, f.info.name = n.requirePortDataName ∧ f.handler = some n.name

/-! What the client makes of the files -/

/-- What a client knows when the files `done` have been published to it -/
structure Returned (client : List ClientNode) (done : List FileInfo) (c : NodeConnection) : Prop where
  nodes : ∀ n ∈ client, 0 < n.definition.requireDataSize →
    (c.nodes n.name).map (·.requirePortDataState) =
      some (if n.requirePortDataName ∈ done.map (·.name) then .waitingForFileData else .waitingFileInfo)
  files : ∀ f, f ∈ c.remoteFiles ↔ ∃ n ∈ client, ∃ info ∈ done, info.name = n.requirePortDataName ∧
    f = { info := info, fileType := .requirePortData, isOpen := true, handler := some n.name }

namespace Returned
variable {client : List ClientNode} {done : List FileInfo} {c : NodeConnection} {n : ClientNode}

theorem start (valid : ValidClient client) : Returned client [] (.ofClient client) := by
  constructor
  · intro n mem requires
    have found : client.find? (·.name = n.name) = some n := by
      apply find?_of_alone mem (decide_eq_true rfl)
      intro m memm same
      exact valid.eq_of_name memm mem (of_decide_eq_true same)
    simp only [NodeConnection.ofClient, found, Option.map_some, ClientNode.clientEntry, if_pos requires,
      List.map_nil, List.not_mem_nil, if_false]
  · simp [NodeConnection.ofClient]

/-- One file of the server -/
theorem publish (valid : ValidClient client) (returned : Returned client done c) (mem : n ∈ client)
    (requires : 0 < n.definition.requireDataSize) (plain : dot ∉ n.name) {info : FileInfo}
    (named : info.name = n.requirePortDataName) (fresh : info.name ∉ done.map (·.name))
    (files : ValidFiles (info :: done)) :
    ∃ c', c.processRemoteFilePublished NodeConnection.clientRemoteFilePublishedNotification info = .ok c' ∧
      Returned client (info :: done) c' := by
  have old : ∀ f ∈ c.remoteFiles, f.info ∈ done := by
    intro f memf
    obtain ⟨_, _, _, arrived, _, rfl⟩ := (returned.files f).mp memf
    exact arrived
  have apart : ∀ f ∈ c.remoteFiles, info.Apart f.info :=
    fun f memf => (List.pairwise_cons.mp files.apart).1 _ (old f memf)
  have filled : 0 < info.size := files.filled info List.mem_cons_self
  have sizes : ∀ f ∈ c.remoteFiles, 0 < f.info.size :=
    fun f memf => files.filled _ (List.mem_cons_of_mem _ (old f memf))
  obtain ⟨files', inserted, members⟩ := @insertItem_apart c.remoteFiles (createFile info) filled
    (files.low info List.mem_cons_self) apart sizes
  have fileType : (createFile info).fileType = .requirePortData := by
    rw [createFile, named]
    exact calcFileType_requirePortData n.name
  have base : baseName (createFile info).info.name = some n.name := by
    rw [show (createFile info).info.name = info.name from rfl, named]
    exact (baseName_append n.name _).trans (congrArg some (nodeBase_eq_self.mpr plain))
  have state := returned.nodes n mem requires
  rw [← named, if_neg fresh] at state
  obtain ⟨entry, known, waits⟩ := Option.map_eq_some_iff.mp state
  have elsewhere : ∀ f ∈ c.remoteFiles, f.info.address ≠ info.address :=
    fun f memf => ((apart f memf).address_ne filled (sizes f memf)).symm
  have processed : c.processRemoteFilePublished NodeConnection.clientRemoteFilePublishedNotification info = .ok
      (((({ c with remoteFiles := files' } : NodeConnection).setFileNotificationHandler n.name
        (createFile info)).updateNode n.name fun entry =>
          { entry with requirePortDataState := .waitingForFileData }).requestFile (createFile info)) := by
    rw [NodeConnection.processRemoteFilePublished, inserted]
    simp only
    rw [NodeConnection.clientRemoteFilePublishedNotification, if_pos fileType,
      NodeConnection.processNewRequirePortDataFile, base]
    simp only [known, NodeConnection.nodeRemoteFilePublishedNotification, fileType]
    rw [NodeConnection.requestRemoteRequirePortData, if_pos]
    rw [NodeConnection.setFileNotificationHandler_nodes]
    exact state
  have opened (f : RemoteFile) := @NodeConnection.mem_requestFile { c with remoteFiles := files' }
    (createFile info) n.name ((members _).mpr (.inl rfl)) (by
      intro other memo same
      rcases (members other).mp memo with rfl | before
      · rfl
      · exact absurd same (elsewhere other before))
    (fun entry => { entry with requirePortDataState := .waitingForFileData }) f
  refine ⟨_, processed, ?_, ?_⟩
  · intro m memm requires'
    simp only [NodeConnection.requestFile_nodes, NodeConnection.updateNode_nodes,
      NodeConnection.setFileNotificationHandler_nodes, List.map_cons, List.mem_cons, named]
    by_cases here : m = n
    · rw [here, Function.update_self, known, if_pos (.inl rfl)]
      rfl
    · have other : m.name ≠ n.name := fun same => here (valid.eq_of_name memm mem same)
      have otherFile : m.requirePortDataName ≠ n.requirePortDataName :=
        fun same => other (List.append_cancel_right same)
      rw [Function.update_of_ne other, returned.nodes m memm requires']
      simp only [otherFile, false_or]
  · intro f
    rw [opened]
    simp only [members, List.mem_cons]
    constructor
    · rintro (rfl | ⟨rfl | before, different⟩)
      · refine ⟨n, mem, info, .inl rfl, named, ?_⟩
        rw [← fileType]
        rfl
      · exact absurd rfl different
      · obtain ⟨m, memm, info', arrived, named', is⟩ := (returned.files f).mp before
        exact ⟨m, memm, info', .inr arrived, named', is⟩
    · rintro ⟨m, memm, info', rfl | arrived, named', rfl⟩
      · refine .inl ?_
        have same : m = n := valid.eq_of_name memm mem (List.append_cancel_right (named'.symm.trans named))
        rw [same, ← fileType]
        rfl
      · have before := (returned.files _).mpr ⟨m, memm, info', arrived, named', rfl⟩
        exact .inr ⟨.inr before, elsewhere _ before⟩

theorem receiveFiles (valid : ValidClient client) (plain : ∀ n ∈ client, dot ∉ n.name)
    (returned : Returned client done c) {rest : List FileInfo} (files : ValidFiles (rest.reverse ++ done))
    (distinct : ((rest.reverse ++ done).map (·.name)).Nodup)
    (owned : ∀ info ∈ rest, ∃ n ∈ client, 0 < n.definition.requireDataSize ∧ info.name = n.requirePortDataName) :
    ∃ c', c.receiveFiles rest = .ok c' ∧ Returned client (rest.reverse ++ done) c' := by
  induction rest generalizing done c with
  | nil => exact ⟨c, rfl, returned⟩
  | cons info rest ih =>
    rw [List.reverse_cons, List.append_assoc] at files distinct ⊢
    obtain ⟨n, mem, requires, named⟩ := owned info List.mem_cons_self
    have fresh : info.name ∉ done.map (·.name) := by
      rw [List.map_append, List.nodup_append] at distinct
      exact (List.nodup_cons.mp distinct.2.1).1
    have first : ValidFiles (info :: done) :=
      ⟨fun other memo => files.filled other (List.mem_append_right _ memo),
        fun other memo => files.low other (List.mem_append_right _ memo),
        (List.pairwise_append.mp files.apart).2.1⟩
    obtain ⟨c₁, processed, returned₁⟩ := returned.publish valid mem requires (plain n mem) named fresh first
    obtain ⟨c', received, returned'⟩ := ih returned₁ files distinct
      fun other memo => owned other (List.mem_cons_of_mem _ memo)
    refine ⟨c', ?_, returned'⟩
    rw [NodeConnection.receiveFiles, processed]
    exact received

end Returned

/-! What has to be said of the names -/

/-- Names that come back as they are -/
structure Plain (client : List ClientNode) : Prop where
  filled : ∀ n ∈ client, n.name ≠ []
  dotless : ∀ n ∈ client, dot ∉ n.name
  short : ∀ n ∈ client, n.name.length + definitionFileExt.length ≤ maxFileNameSize

namespace Plain
variable {client : List ClientNode}

theorem base_eq (plain : Plain client) {n : ClientNode} (mem : n ∈ client) : n.base = n.name :=
  nodeBase_eq_self.mpr (plain.dotless n mem)

theorem based (plain : Plain client) (valid : ValidClient client) : Based client where
  filled n mem := by
    rw [plain.base_eq mem]
    exact plain.filled n mem
  short n mem := by
    rw [plain.base_eq mem]
    exact Nat.le_trans (Nat.le_add_right _ _) (plain.short n mem)
  distinct := valid.names.imp_of_mem fun mem mem' different => by
    rw [plain.base_eq mem, plain.base_eq mem']
    exact different

theorem requireNameFits (plain : Plain client) {n : ClientNode} (mem : n ∈ client) : Arrived.RequireNameFits n := by
  intro _
  have short := plain.short n mem
  rw [show definitionFileExt.length = 4 from rfl] at short
  rw [plain.base_eq mem, show requirePortDataExt.length = 3 from rfl]
  omega

end Plain

theorem Arrived.of_plain {client : List ClientNode} {order : List Arrival} (valid : ValidClient client)
    (publish : PublishOrder client order) (plain : Plain client) (first : DataFirst client order) :
    ∃ c, ({} : NodeConnection).receive order = .ok c ∧ Arrived client order.reverse c := by
  have run := (Arrived.start client).receive valid (plain.based valid) publish rfl
  simp only [List.append_nil] at run
  obtain ⟨c, accepted⟩ := run.2.mpr (publish.timely (fun n mem => plain.requireNameFits mem) first)
  exact ⟨c, accepted, run.1 c accepted⟩

/-- A node keeps its identity only if its name is plain. -/
theorem Identified.plain {client : List ClientNode} {order : List Arrival} (valid : ValidClient client)
    (publish : PublishOrder client order) (identified : Identified client order) : Plain client := by
  obtain ⟨c, accepted, nodes, -⟩ := identified.server
  have based := Based.of_receive valid publish accepted
  -- the name is what the server takes from the name of some node
  have owner (n : ClientNode) (mem : n ∈ client) : ∃ m ∈ client, m.base = n.name := by
    have known : (c.nodes n.name).isSome := by
      have named := nodes n mem
      obtain ⟨entry, is, -⟩ := Option.map_eq_some_iff.mp named
      rw [is]
      rfl
    rcases (NodeConnection.receive_isSome accepted n.name).mp known with before | ⟨m, arrived, same⟩
    · contradiction
    · exact ⟨m, ClientNode.definitionFile_mem_arrivals.mp (publish.perm.mem_iff.mp arrived), same⟩
  constructor
  · intro n mem
    obtain ⟨m, memm, same⟩ := owner n mem
    rw [← same]
    exact based.filled m memm
  · intro n mem
    obtain ⟨m, memm, same⟩ := owner n mem
    rw [← same]
    exact dot_notMem_nodeBase m.name
  · intro n mem
    have formed := identified.definitionName n mem
    rw [makeFileName] at formed
    by_contra long
    rw [if_neg long] at formed
    contradiction

theorem Identified.dataFirst {client : List ClientNode} {order : List Arrival} (valid : ValidClient client)
    (publish : PublishOrder client order) (identified : Identified client order) : DataFirst client order := by
  have plain := identified.plain valid publish
  obtain ⟨c, accepted, -⟩ := identified.server
  have run := (Arrived.start client).receive valid (plain.based valid) publish rfl
  simp only [List.append_nil] at run
  exact DataFirst.of_timely (run.2.mp ⟨c, accepted⟩)

/-- Each node of a client keeps its identity exactly when no name is empty, has a dot or is so long that the
name of its definition file goes beyond its buffer, and each provide-port data file is published in front of
its definition file. -/
theorem identified_iff {client : List ClientNode} {order : List Arrival} (valid : ValidClient client)
    (publish : PublishOrder client order) :
    Identified client order ↔ Plain client ∧ DataFirst client order := by
  constructor
  · intro identified
    exact ⟨identified.plain valid publish, identified.dataFirst valid publish⟩
  · rintro ⟨plain, first⟩
    have fits {n : ClientNode} (mem : n ∈ client) {ext : Bytes} (short : ext.length ≤ definitionFileExt.length) :
        (makeFileName n.name ext).isSome := by
      have limit := plain.short n mem
      rw [makeFileName, if_pos (by omega)]
      rfl
    obtain ⟨c, accepted, received⟩ := Arrived.of_plain valid publish plain first
    have here {e : Arrival} (mem : e ∈ client.flatMap (·.arrivals)) : e ∈ order.reverse :=
      List.mem_reverse.mpr (publish.perm.mem_iff.mpr mem)
    refine ⟨fun n mem => fits mem (by decide), fun n mem _ => fits mem (by decide),
      fun n mem _ => fits mem (by decide), c, accepted, ?_, ?_, ?_, ?_, ?_⟩
    · intro n mem
      rw [← plain.base_eq mem, received.nodes n mem, if_pos (here (ClientNode.definitionFile_mem_arrivals.mpr mem))]
      rfl
    · intro n mem
      have arrived := here (ClientNode.definitionFile_mem_arrivals.mpr mem)
      exact ⟨_, (received.files _).mpr ⟨n, mem, .inl ⟨arrived, rfl⟩⟩, rfl⟩
    · intro n mem provides
      have arrived := here (ClientNode.providePortDataFile_mem_arrivals.mpr ⟨mem, provides⟩)
      exact ⟨_, (received.files _).mpr ⟨n, mem, .inr ⟨arrived, rfl⟩⟩, rfl⟩
    · intro n mem f memf is
      obtain ⟨m, memm, ⟨-, rfl⟩ | ⟨arrived, rfl⟩⟩ := (received.files f).mp memf
      · have same : m = n := by
          rcases is with same | same
          · exact valid.eq_of_name memm mem (List.append_cancel_right (congrArg FileInfo.name same))
          · exact absurd same (ClientNode.definitionFile_ne_providePortDataFile m n)
        rw [same, ClientNode.remoteDefinitionFile, plain.base_eq mem]
      · have same : m = n := by
          rcases is with same | same
          · exact absurd same.symm (ClientNode.definitionFile_ne_providePortDataFile n m)
          · exact valid.eq_of_name memm mem (List.append_cancel_right (congrArg FileInfo.name same))
        have requested : m.Requested order.reverse :=
          ⟨here (ClientNode.definitionData_mem_arrivals.mpr memm), arrived, plain.base_eq memm⟩
        rw [ClientNode.remoteProvidePortDataFile, if_pos requested, same, plain.base_eq mem]
    · intro infos files names
      have returned := @Returned.receiveFiles client [] _ valid plain.dotless (Returned.start valid) infos
      simp only [List.append_nil] at returned
      obtain ⟨d, done, returned⟩ := returned
        ⟨fun info mem => files.filled info (List.mem_reverse.mp mem),
          fun info mem => files.low info (List.mem_reverse.mp mem),
          List.pairwise_reverse.mpr (files.apart.imp fun apart => apart.symm)⟩
        (by
          rw [List.map_reverse, List.nodup_reverse, names.nodup_iff]
          exact received.distinct)
        (by
          intro info mem
          obtain ⟨n, memn, -, requires, named⟩ := (received.published _).mp
            (names.mem_iff.mp (List.mem_map_of_mem mem))
          rw [ClientNode.requirePortDataFileName, plain.base_eq memn] at named
          exact ⟨n, memn, requires, named⟩)
      refine ⟨d, done, fun n mem requires => ?_⟩
      have published : n.requirePortDataName ∈ c.publishedFiles := by
        apply (received.published _).mpr
        refine ⟨n, mem, here (ClientNode.definitionData_mem_arrivals.mpr mem), requires, ?_⟩
        rw [ClientNode.requirePortDataFileName, plain.base_eq mem]
        rfl
      obtain ⟨info, memInfo, named⟩ := List.mem_map.mp (names.mem_iff.mpr published)
      exact ⟨_, (returned.files _).mpr ⟨n, mem, info, List.mem_reverse.mpr memInfo, named, rfl⟩, named, rfl⟩

theorem identified_twoNodes : Identified [nodeA, nodeB] twoNodesOrder := by
  apply (identified_iff validClient_twoNodes publishOrder_twoNodes).mpr
  exact ⟨⟨by decide, by decide, by decide⟩, dataFirst_twoNodes⟩

/-- A node whose name has a dot becomes another one. -/
theorem not_identified_dotted : ¬∀ client order, ValidClient client → PublishOrder client order →
    Identified client order := by
  intro holds
  have identified := holds _ _ (validClient_singleNode [65, dot, 66]) (publishOrder_dataFirst [65, dot, 66])
  have plain := identified.plain (validClient_singleNode _) (publishOrder_dataFirst _)
  exact plain.dotless _ (List.mem_singleton_self _) (by decide)

end Apx
