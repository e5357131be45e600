import Apx.Interleaving
import Apx.LittleEndian

/-! The threads of a client at the open request for a provide port data file: one writes to provide
ports, the other handles the request (node_instance.c, file_manager.c). -/

namespace Apx

open LittleEndian

/-! Data areas and writes to them -/

/-- A data area behind a call of apx_nodeData_write_provide_port_data or
apx_nodeData_write_require_port_data, which refuses what does not fit -/
def writtenArea (area : Bytes) (offset : Nat) (data : Bytes) : Bytes :=
  if offset + data.length > area.length then area else splice area offset data

/-- A data area behind write messages, which are offsets and data -/
def receivedArea (area : Bytes) (messages : List (Nat × Bytes)) : Bytes :=
  messages.foldl (fun area (offset, data) => writtenArea area offset data) area

theorem writtenArea_of_fits {area data : Bytes} {offset : Nat} (fits : offset + data.length ≤ area.length) :
    writtenArea area offset data = splice area offset data := if_neg (Nat.not_lt.mpr fits)

@[simp] theorem writtenArea_length (area : Bytes) (offset : Nat) (data : Bytes) :
    (writtenArea area offset data).length = area.length := by
  by_cases fits : offset + data.length ≤ area.length
  · rw [writtenArea_of_fits fits, splice_length fits]
  · rw [writtenArea, if_pos (Nat.lt_of_not_le fits)]

theorem receivedArea_append (area : Bytes) (messages : List (Nat × Bytes)) (offset : Nat) (data : Bytes) :
    receivedArea area (messages ++ [(offset, data)]) = writtenArea (receivedArea area messages) offset data := by
  rw [receivedArea, List.foldl_append]
  rfl

@[simp] theorem receivedArea_length (area : Bytes) (messages : List (Nat × Bytes)) :
    (receivedArea area messages).length = area.length := by
  induction messages generalizing area with
  | nil => rfl
  | cons message rest ih =>
    rw [receivedArea, List.foldl_cons]
    exact (ih _).trans (writtenArea_length area message.1 message.2)

/-- A snapshot replaces all. -/
theorem writtenArea_whole {area snapshot : Bytes} (size : snapshot.length = area.length) :
    writtenArea area 0 snapshot = snapshot := by
  rw [writtenArea_of_fits (by omega), splice, List.take_zero, List.nil_append, Nat.zero_add,
    List.drop_of_length_le (Nat.le_of_eq size.symm), List.append_nil]

/-! The steps of the two threads. Each of them takes one lock. -/

/-- Where the writing thread stands in remote_route_provide_port_data and remote_route_data_to_file,
with the offset and the data of its write -/
inductive WriterAt where
  | idle
  | stored (offset : Nat) (data : Bytes)
  | foundOpen (offset : Nat) (data : Bytes)
  deriving DecidableEq

/-- Where the receive thread stands in process_open_file_request and
send_provide_port_data_to_file_manager -/
inductive OpenerAt where
  | waiting
  | opened
  | snapshotTaken (snapshot : Bytes)
  | done
  deriving DecidableEq

/-- A client with the provide port data file of a node. `queue` is what was put into the queue of the
worker of its file manager for this file: offsets and data. -/
structure ProvideFile where
  providePortData : Bytes
  isFileOpen : Bool
  queue : List (Nat × Bytes)
  writer : WriterAt
  opener : OpenerAt
  deriving DecidableEq

/-- The steps of the writer (of which the first one begins a write) and those of the receive thread -/
inductive ProvideFileStep where
  | store (offset : Nat) (data : Bytes)
  | testOpen
  | enqueue
  | markOpen
  | takeSnapshot
  | enqueueSnapshot

namespace ProvideFile

/-- What a step does. A thread takes its steps in the order of the code. -/
def apply (s : ProvideFile) : ProvideFileStep → Option ProvideFile
  | .store offset data =>
    match s.writer with
    | .idle =>
      -- a write that is refused returns at once
      if offset + data.length > s.providePortData.length then some s
      else some { s with
        providePortData := splice s.providePortData offset data, writer := .stored offset data }
    | _ => none
  | .testOpen =>
    match s.writer with
    | .stored offset data =>
      -- a closed file ends the write with APX_FILE_NOT_OPEN_ERROR
      some { s with writer := if s.isFileOpen then .foundOpen offset data else .idle }
    | _ => none
  | .enqueue =>
    match s.writer with
    | .foundOpen offset data => some { s with queue := s.queue ++ [(offset, data)], writer := .idle }
    | _ => none
  | .markOpen =>
    match s.opener with
    | .waiting => some { s with isFileOpen := true, opener := .opened }
    | _ => none
  | .takeSnapshot =>
    match s.opener with
    | .opened => some { s with opener := .snapshotTaken s.providePortData }
    | _ => none
  | .enqueueSnapshot =>
    match s.opener with
    | .snapshotTaken snapshot => some { s with queue := s.queue ++ [(0, snapshot)], opener := .done }
    | _ => none

/-- The open request has not arrived, and no write is going on. -/
structure Closed (s : ProvideFile) : Prop where
  isFileOpen : s.isFileOpen = false
  writer : s.writer = .idle
  opener : s.opener = .waiting

/-- Both threads are through. -/
structure Done (s : ProvideFile) : Prop where
  writer : s.writer = .idle
  opener : s.opener = .done

/-- A write is not put into the queue between the snapshot and its way into the queue, unless the
snapshot has the written bytes. -/
def NotOvertaken (s : ProvideFile) : ProvideFileStep → Prop
  | .enqueue =>
    match s.writer, s.opener with
    | .foundOpen offset data, .snapshotTaken snapshot => slice snapshot offset data.length = data
    | _, _ => True
  | _ => True

/-- An area with the write that is going on -/
def withPending (writer : WriterAt) (area : Bytes) : Bytes :=
  match writer with
  | .idle => area
  | .stored offset data | .foundOpen offset data => splice area offset data

/-- How far the server is informed: `received` is its provide port data behind all that is in the queue. -/
def Informs (received : Bytes) (s : ProvideFile) : OpenerAt → Prop
  | .waiting => s.isFileOpen = false ∧ ∀ offset data, s.writer ≠ .foundOpen offset data
  | .opened => s.isFileOpen = true
  | .snapshotTaken snapshot => s.isFileOpen = true ∧ snapshot.length = s.providePortData.length ∧
      s.providePortData = withPending s.writer snapshot
  | .done => s.isFileOpen = true ∧ s.providePortData = withPending s.writer received

/-- The invariant of all runs whose steps are not overtaken -/
structure Invariant (serverData : Bytes) (s : ProvideFile) : Prop where
  size : serverData.length = s.providePortData.length
  inside : ∀ offset data, s.writer = .stored offset data ∨ s.writer = .foundOpen offset data →
    offset + data.length ≤ s.providePortData.length ∧
      slice s.providePortData offset data.length = data
  informs : Informs (receivedArea serverData s.queue) s s.opener

theorem Invariant.store {serverData : Bytes} {s s' : ProvideFile} {offset : Nat} {data : Bytes}
    (inv : s.Invariant serverData) (taken : s.apply (.store offset data) = some s') :
    s'.Invariant serverData := by
  cases writer : s.writer with
  | stored | foundOpen => simp [apply, writer] at taken
  | idle =>
    by_cases fits : offset + data.length ≤ s.providePortData.length
    · obtain rfl : _ = s' := by simpa [apply, writer, Nat.not_lt.mpr fits] using taken
      have informs := inv.informs
      refine ⟨?_, ?_, ?_⟩
      · exact inv.size.trans (splice_length fits).symm
      · intro offset' data' going
        obtain ⟨rfl, rfl⟩ : offset = offset' ∧ data = data' := by simpa using going
        exact ⟨by rw [splice_length fits]; exact fits, slice_splice fits⟩
      · cases opener : s.opener with
        | waiting =>
          rw [opener] at informs
          exact ⟨informs.1, fun _ _ => nofun⟩
        | opened =>
          rw [opener] at informs
          exact informs
        | snapshotTaken snapshot =>
          rw [opener] at informs
          obtain ⟨isOpen, size, same⟩ := informs
          rw [writer] at same
          exact ⟨isOpen, size.trans (splice_length fits).symm, by
            show splice s.providePortData offset data = splice snapshot offset data
            rw [same]
            rfl⟩
        | done =>
          rw [opener] at informs
          obtain ⟨isOpen, same⟩ := informs
          rw [writer] at same
          exact ⟨isOpen, by
            show splice s.providePortData offset data = splice (receivedArea serverData s.queue) offset data
            rw [same]
            rfl⟩
    · obtain rfl : s = s' := by simpa [apply, writer, Nat.lt_of_not_le fits] using taken
      exact inv

theorem Invariant.testOpen {serverData : Bytes} {s s' : ProvideFile}
    (inv : s.Invariant serverData) (taken : s.apply .testOpen = some s') : s'.Invariant serverData := by
  cases writer : s.writer with
  | idle | foundOpen => simp [apply, writer] at taken
  | stored offset data =>
    have informs := inv.informs
    by_cases isOpen : s.isFileOpen
    · obtain rfl : _ = s' := by simpa [apply, writer, isOpen] using taken
      refine ⟨inv.size, ?_, ?_⟩
      · intro offset' data' going
        obtain ⟨rfl, rfl⟩ : offset = offset' ∧ data = data' := by simpa using going
        exact inv.inside offset data (.inl writer)
      · -- what is pending stays pending
        cases opener : s.opener with
        | waiting =>
          rw [opener] at informs
          exact absurd isOpen (by simp [informs.1])
        | opened => rfl
        | snapshotTaken snapshot =>
          rw [opener, Informs, writer] at informs
          exact ⟨rfl, informs.2⟩
        | done =>
          rw [opener, Informs, writer] at informs
          exact ⟨rfl, informs.2⟩
    · obtain rfl : _ = s' := by simpa [apply, writer, isOpen] using taken
      refine ⟨inv.size, fun _ _ => nofun, ?_⟩
      -- a closed file: the snapshot is still to come
      cases opener : s.opener with
      | waiting =>
        rw [opener] at informs
        exact ⟨rfl, fun _ _ => nofun⟩
      | opened =>
        rw [opener] at informs
        exact absurd informs isOpen
      | snapshotTaken snapshot =>
        rw [opener] at informs
        exact absurd informs.1 isOpen
      | done =>
        rw [opener] at informs
        exact absurd informs.1 isOpen

theorem Invariant.enqueue {serverData : Bytes} {s s' : ProvideFile} (inv : s.Invariant serverData)
    (met : s.NotOvertaken .enqueue) (taken : s.apply .enqueue = some s') : s'.Invariant serverData := by
  cases writer : s.writer with
  | idle | stored => simp [apply, writer] at taken
  | foundOpen offset data =>
    obtain rfl : _ = s' := by simpa [apply, writer] using taken
    have informs := inv.informs
    obtain ⟨fits, -⟩ := inv.inside offset data (.inr writer)
    refine ⟨inv.size, fun _ _ => nofun, ?_⟩
    cases opener : s.opener with
    | waiting =>
      rw [opener] at informs
      exact absurd writer (informs.2 offset data)
    | opened =>
      rw [opener] at informs
      exact informs
    | snapshotTaken snapshot =>
      rw [opener, Informs, writer] at informs
      obtain ⟨isOpen, size, same⟩ := informs
      have here : slice snapshot offset data.length = data := by
        simpa [NotOvertaken, writer, opener] using met
      exact ⟨isOpen, size, same.trans (splice_slice here)⟩
    | done =>
      rw [opener, Informs, writer] at informs
      obtain ⟨isOpen, same⟩ := informs
      have room : offset + data.length ≤ (receivedArea serverData s.queue).length := by
        rw [receivedArea_length, inv.size]
        exact fits
      exact ⟨isOpen, by
        show s.providePortData = receivedArea serverData (s.queue ++ [(offset, data)])
        rw [receivedArea_append, writtenArea_of_fits room]
        exact same⟩

theorem Invariant.markOpen {serverData : Bytes} {s s' : ProvideFile} (inv : s.Invariant serverData)
    (taken : s.apply .markOpen = some s') : s'.Invariant serverData := by
  cases opener : s.opener with
  | opened | snapshotTaken | done => simp [apply, opener] at taken
  | waiting =>
    obtain rfl : _ = s' := by simpa [apply, opener] using taken
    exact ⟨inv.size, inv.inside, rfl⟩

theorem Invariant.takeSnapshot {serverData : Bytes} {s s' : ProvideFile} (inv : s.Invariant serverData)
    (taken : s.apply .takeSnapshot = some s') : s'.Invariant serverData := by
  cases opener : s.opener with
  | waiting | snapshotTaken | done => simp [apply, opener] at taken
  | opened =>
    obtain rfl : _ = s' := by simpa [apply, opener] using taken
    have isOpen : s.isFileOpen = true := by
      have informs := inv.informs
      rwa [opener] at informs
    refine ⟨inv.size, inv.inside, isOpen, rfl, ?_⟩
    -- a write that is going on has stored its bytes
    show s.providePortData = withPending s.writer s.providePortData
    cases writer : s.writer with
    | idle => rfl
    | stored offset data => exact (splice_slice (inv.inside offset data (.inl writer)).2).symm
    | foundOpen offset data => exact (splice_slice (inv.inside offset data (.inr writer)).2).symm

theorem Invariant.enqueueSnapshot {serverData : Bytes} {s s' : ProvideFile} (inv : s.Invariant serverData)
    (taken : s.apply .enqueueSnapshot = some s') : s'.Invariant serverData := by
  cases opener : s.opener with
  | waiting | opened | done => simp [apply, opener] at taken
  | snapshotTaken snapshot =>
    obtain rfl : _ = s' := by simpa [apply, opener] using taken
    have informs := inv.informs
    rw [opener] at informs
    obtain ⟨isOpen, size, same⟩ := informs
    have received : receivedArea serverData (s.queue ++ [(0, snapshot)]) = snapshot := by
      rw [receivedArea_append]
      exact writtenArea_whole (by rw [receivedArea_length, size, inv.size])
    exact ⟨inv.size, inv.inside, isOpen, by rw [received]; exact same⟩

theorem Invariant.step {serverData : Bytes} (s : ProvideFile) (step : ProvideFileStep) (s' : ProvideFile)
    (inv : s.Invariant serverData) (met : s.NotOvertaken step) (taken : s.apply step = some s') :
    s'.Invariant serverData := by
  cases step with
  | store offset data => exact inv.store taken
  | testOpen => exact inv.testOpen taken
  | enqueue => exact inv.enqueue met taken
  | markOpen => exact inv.markOpen taken
  | takeSnapshot => exact inv.takeSnapshot taken
  | enqueueSnapshot => exact inv.enqueueSnapshot taken

theorem Closed.invariant {serverData : Bytes} {s : ProvideFile} (closed : s.Closed)
    (size : serverData.length = s.providePortData.length) : s.Invariant serverData where
  size := size
  inside offset data going := by simp [closed.writer] at going
  informs := by
    rw [closed.opener]
    exact ⟨closed.isFileOpen, fun _ _ => by simp [closed.writer]⟩

/-- At the end of a run in which no write overtakes the snapshot, the server that has received all of the
queue has the provide port data of the client. -/
theorem received_of_notOvertaken {start s : ProvideFile} {serverData : Bytes}
    {steps : List ProvideFileStep} (closed : start.Closed)
    (size : serverData.length = start.providePortData.length)
    (run : Interleaving.Run apply NotOvertaken start steps s) (done : s.Done) :
    receivedArea serverData s.queue = s.providePortData := by
  have inv : s.Invariant serverData := run.invariant Invariant.step (closed.invariant size)
  have informs := inv.informs
  rw [done.opener, Informs, done.writer] at informs
  exact informs.2.symm

def oneByte : ProvideFile :=
  { providePortData := [0], isFileOpen := false, queue := [], writer := .idle, opener := .waiting }

theorem oneByte_received : receivedArea [7] [(0, [1]), (0, [1]), (0, [2])] = [2] :=
  @received_of_notOvertaken oneByte
    { providePortData := [2], isFileOpen := true, queue := [(0, [1]), (0, [1]), (0, [2])], writer := .idle,
      opener := .done }
    [7]
    [.store 0 [1], .markOpen, .testOpen, .enqueue, .takeSnapshot, .store 0 [2], .testOpen,
      .enqueueSnapshot, .enqueue]
    ⟨rfl, rfl, rfl⟩ rfl
    ⟨trivial, _, rfl, trivial, _, rfl, trivial, _, rfl, trivial, _, rfl, trivial, _, rfl, trivial, _, rfl,
      trivial, _, rfl, trivial, _, rfl, trivial, _, rfl, rfl⟩
    ⟨rfl, rfl⟩

/-- A write that comes between the snapshot and the queue is lost. -/
theorem not_received_of_overtaken : ¬∀ (start s : ProvideFile) (serverData : Bytes)
    (steps : List ProvideFileStep), start.Closed → serverData.length = start.providePortData.length →
      Interleaving.Run apply (fun _ _ => True) start steps s → s.Done →
      receivedArea serverData s.queue = s.providePortData := by
  intro all
  have stale := all oneByte
    { providePortData := [1], isFileOpen := true, queue := [(0, [1]), (0, [0])], writer := .idle,
      opener := .done }
    [0] [.markOpen, .takeSnapshot, .store 0 [1], .testOpen, .enqueue, .enqueueSnapshot]
    ⟨rfl, rfl, rfl⟩ rfl
    ⟨trivial, _, rfl, trivial, _, rfl, trivial, _, rfl, trivial, _, rfl, trivial, _, rfl, trivial, _, rfl,
      rfl⟩
    ⟨rfl, rfl⟩
  exact absurd stale (by decide)

end ProvideFile

end Apx
