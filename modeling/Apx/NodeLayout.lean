import Apx.NodeBuildErrors
import Apx.NodeInstance
import Apx.PackRun

/-! The layout of the port data of a node: the offsets of the ports, the areas with their init data,
and the byte port map. -/

namespace Apx

open LittleEndian

def dataSizes (instances : List PortInstance) : List Nat := instances.map PortInstance.dataSize

/-- The bytes in front of a port -/
def offsetOf (instances : List PortInstance) (portId : Nat) : Nat :=
  ((dataSizes instances).take portId).sum

@[simp] theorem dataSizes_nil : dataSizes [] = [] := rfl

@[simp] theorem dataSizes_cons (inst : PortInstance) (rest : List PortInstance) :
    dataSizes (inst :: rest) = inst.dataSize :: dataSizes rest := rfl

@[simp] theorem offsetOf_zero (instances : List PortInstance) : offsetOf instances 0 = 0 := rfl

@[simp] theorem offsetOf_succ (inst : PortInstance) (rest : List PortInstance) (portId : Nat) :
    offsetOf (inst :: rest) (portId + 1) = inst.dataSize + offsetOf rest portId := by
  simp [offsetOf]

/-- Every port lies inside the sum of all. -/
theorem offsetOf_add_le {instances : List PortInstance} {portId : Nat} {inst : PortInstance}
    (here : instances[portId]? = some inst) :
    offsetOf instances portId + inst.dataSize ≤ (dataSizes instances).sum := by
  induction instances generalizing portId with
  | nil => simp at here
  | cons head rest ih =>
    cases portId with
    | zero =>
      cases here
      simp
    | succ portId =>
      have inside := ih here
      rw [offsetOf_succ, dataSizes_cons, List.sum_cons]
      omega

/-- The later steps of the build change nothing but the element and the signature. -/
def Relabelled (inst inst' : PortInstance) : Prop :=
  ∃ element signature, inst' = { inst with effectiveElement := element, portSignature := signature }

theorem Relabelled.refl (inst : PortInstance) : Relabelled inst inst := ⟨_, _, rfl⟩

theorem Relabelled.trans {first second third : PortInstance} (one : Relabelled first second)
    (two : Relabelled second third) : Relabelled first third := by
  obtain ⟨_, _, rfl⟩ := one
  obtain ⟨_, _, rfl⟩ := two
  exact ⟨_, _, rfl⟩

theorem forall₂_trans {first second third : List PortInstance}
    (one : List.Forall₂ Relabelled first second) (two : List.Forall₂ Relabelled second third) :
    List.Forall₂ Relabelled first third := by
  induction one generalizing third with
  | nil => exact two
  | cons head tail ih =>
    cases two with
    | cons head' tail' => exact .cons (head.trans head') (ih tail')

theorem ElementTable.update_relabels {table table' : ElementTable} {inst inst' : PortInstance}
    {port : Port} (done : table.update inst port = .ok (table', inst')) : Relabelled inst inst' := by
  unfold ElementTable.update at done
  split at done
  · contradiction
  · simp only at done
    split at done
    · cases done
      exact ⟨_, _, rfl⟩
    · cases done
      exact ⟨_, _, rfl⟩

theorem ElementTable.updateAll_relabels {table table' : ElementTable}
    {instances instances' : List PortInstance} {ports : List Port}
    (done : table.updateAll instances ports = .ok (table', instances')) :
    List.Forall₂ Relabelled instances instances' := by
  induction instances generalizing table ports instances' with
  | nil =>
    cases ports <;>
    · cases done
      exact .nil
  | cons inst rest ih =>
    cases ports with
    | nil =>
      cases done
      exact List.forall₂_same.mpr fun inst _ => .refl inst
    | cons port ports =>
      simp only [ElementTable.updateAll] at done
      cases updated : table.update inst port with
      | error failure =>
        rw [updated] at done
        contradiction
      | ok next =>
        obtain ⟨table₁, inst₁⟩ := next
        rw [updated] at done
        simp only at done
        cases others : table₁.updateAll rest ports with
        | error failure =>
          rw [others] at done
          contradiction
        | ok all =>
          obtain ⟨table₂, rest₂⟩ := all
          rw [others] at done
          cases done
          exact .cons (ElementTable.update_relabels updated) (ih others)

theorem createPortSignature_relabels {inst inst' : PortInstance}
    (done : inst.createPortSignature = .ok inst') : Relabelled inst inst' := by
  unfold PortInstance.createPortSignature at done
  split at done
  · cases done
    exact .refl inst
  · split at done
    · contradiction
    · split at done
      · contradiction
      · split at done
        · contradiction
        · cases done
          exact ⟨_, _, rfl⟩

theorem createPortSignatures_relabels {instances instances' : List PortInstance}
    (done : createPortSignatures instances = .ok instances') :
    List.Forall₂ Relabelled instances instances' := by
  induction instances generalizing instances' with
  | nil =>
    cases done
    exact .nil
  | cons inst rest ih =>
    rw [createPortSignatures] at done
    cases created : inst.createPortSignature with
    | error failure =>
      rw [created] at done
      contradiction
    | ok inst₁ =>
      rw [created] at done
      simp only at done
      cases others : createPortSignatures rest with
      | error failure =>
        rw [others] at done
        contradiction
      | ok rest₁ =>
        rw [others] at done
        cases done
        exact .cons (createPortSignature_relabels created) (ih others)

theorem createPortInstances_placed {memory : PortMemory} {portType : PortType} {ports : List Port}
    {instances : List PortInstance} {size : Nat}
    (done : createPortInstances portType (allocPortInstances memory portType ports.length) 0 0 none
      ports = .ok (instances, size)) :
    instances = placedInstances portType 0 0 (allocPortInstances memory portType ports.length) ports ∧
      size = placedSize portType 0 ports := by
  have length : (allocPortInstances memory portType ports.length).length = ports.length := by
    simp [allocPortInstances]
  have loop := createPortInstances_eq portType ports [] _ 0 none length
  simp only [List.nil_append, List.length_nil] at loop
  by_cases passes : (∀ port ∈ ports, ¬port.Stops portType) ∧ EndsClear portType none ports
  · rw [loop.1 passes] at done
    cases done
    exact ⟨rfl, rfl⟩
  · obtain ⟨failure, failed⟩ := loop.2 passes
    rw [failed] at done
    contradiction

/-- Every step behind the loops leaves the instances where they are. -/
theorem createPorts_placed {mode : Mode} {memory : PortMemory} {node : Node} {built : PortsBuilt}
    (done : createPortsOnNodeInstance mode memory node = .ok built) (portType : PortType) :
    List.Forall₂ Relabelled
      (placedInstances portType 0 0
        (allocPortInstances memory portType (node.ports portType).length) (node.ports portType))
      (built.ports portType) ∧
    built.portDataSize portType = placedSize portType 0 (node.ports portType) := by
  unfold createPortsOnNodeInstance at done
  cases provideLoop : createPortInstances .provide
      (allocPortInstances memory .provide node.providePorts.length) 0 0 none node.providePorts with
  | error failure =>
    rw [provideLoop] at done
    contradiction
  | ok provided =>
  obtain ⟨provides, provideSize⟩ := provided
  cases requireLoop : createPortInstances .require
      (allocPortInstances memory .require node.requirePorts.length) 0 0 none node.requirePorts with
  | error failure =>
    simp only [provideLoop, requireLoop] at done
    contradiction
  | ok required =>
  obtain ⟨requires, requireSize⟩ := required
  obtain ⟨providePlaced, provideSize_eq⟩ := createPortInstances_placed provideLoop
  obtain ⟨requirePlaced, requireSize_eq⟩ := createPortInstances_placed requireLoop
  cases provideStep : ElementTable.updateAll {} provides node.providePorts with
  | error failure =>
    simp only [provideLoop, requireLoop, provideStep] at done
    contradiction
  | ok updated =>
  obtain ⟨table, provides₁⟩ := updated
  cases requireStep : table.updateAll requires node.requirePorts with
  | error failure =>
    simp only [provideLoop, requireLoop, provideStep, requireStep] at done
    contradiction
  | ok updated =>
  obtain ⟨table', requires₁⟩ := updated
  have provides_ := ElementTable.updateAll_relabels provideStep
  have requires_ := ElementTable.updateAll_relabels requireStep
  simp only [provideLoop, requireLoop, provideStep, requireStep] at done
  by_cases server : mode = .server
  · rw [if_pos server] at done
    cases provideSigned : createPortSignatures provides₁ with
    | error failure =>
      rw [provideSigned] at done
      contradiction
    | ok provides₂ =>
    cases requireSigned : createPortSignatures requires₁ with
    | error failure =>
      simp only [provideSigned, requireSigned] at done
      contradiction
    | ok requires₂ =>
    simp only [provideSigned, requireSigned] at done
    cases done
    cases portType with
    | provide =>
      exact ⟨providePlaced ▸ forall₂_trans provides_ (createPortSignatures_relabels provideSigned),
        provideSize_eq⟩
    | require =>
      exact ⟨requirePlaced ▸ forall₂_trans requires_ (createPortSignatures_relabels requireSigned),
        requireSize_eq⟩
  · rw [if_neg server] at done
    cases done
    cases portType with
    | provide => exact ⟨providePlaced ▸ provides_, provideSize_eq⟩
    | require => exact ⟨requirePlaced ▸ requires_, requireSize_eq⟩

/-- Where a loop counts what its port instances take, and none of them is empty, every port has got its
instance, and each lies behind the ones before it. A port that failed would take something that the
loop has not counted. -/
theorem placed_layout {portType : PortType} {portId dataOffset : Nat} {instances : List PortInstance}
    {ports : List Port} (length : instances.length = ports.length)
    (positive : ∀ inst ∈ placedInstances portType portId dataOffset instances ports, 0 < inst.dataSize)
    (fits : dataOffset +
      (dataSizes (placedInstances portType portId dataOffset instances ports)).sum < 2 ^ 32) :
    placedSize portType dataOffset ports ≤
      dataOffset + (dataSizes (placedInstances portType portId dataOffset instances ports)).sum ∧
    (placedSize portType dataOffset ports =
        dataOffset + (dataSizes (placedInstances portType portId dataOffset instances ports)).sum →
      ∀ (i : Nat) (port : Port), ports[i]? = some port → ∃ header,
        port.header? portType = some header ∧
        (placedInstances portType portId dataOffset instances ports)[i]? = some (port.created portType
          (portId + i) (dataOffset +
            offsetOf (placedInstances portType portId dataOffset instances ports) i) header)) := by
  induction ports generalizing portId dataOffset instances with
  | nil =>
    obtain rfl : instances = [] := List.length_eq_zero_iff.mp length
    exact ⟨Nat.le_add_right _ _, fun _ i port there => by simp at there⟩
  | cons port rest ih =>
    cases instances with
    | nil => simp at length
    | cons inst instances =>
    have lengthRest : instances.length = rest.length := by simpa using length
    rw [placedInstances, placedSize]
    rw [placedInstances] at positive fits
    cases found : port.header? portType with
    | some header =>
      simp only [found, List.forall_mem_cons, dataSizes_cons, List.sum_cons] at positive fits ⊢
      have size : (port.created portType portId dataOffset header).dataSize = header.dataSize := rfl
      rw [size] at fits ⊢
      have low : u32 (dataOffset + header.dataSize) = dataOffset + header.dataSize :=
        Nat.mod_eq_of_lt (by omega)
      rw [low] at positive fits ⊢
      obtain ⟨le, each⟩ := ih lengthRest positive.2 (by omega)
      refine ⟨by omega, fun same i port' there => ?_⟩
      cases i with
      | zero =>
        cases there
        exact ⟨header, found, by simp⟩
      | succ i =>
        obtain ⟨header', found', here⟩ := each (by omega) i port' there
        refine ⟨header', found', ?_⟩
        rw [List.getElem?_cons_succ, here, offsetOf_succ, size]
        congr 2 <;> omega
    | none =>
      simp only [found, List.forall_mem_cons, dataSizes_cons, List.sum_cons] at positive fits ⊢
      obtain ⟨le, -⟩ := ih lengthRest positive.2 (by omega)
      have lost := positive.1
      exact ⟨by omega, fun same => absurd same (by omega)⟩

theorem dataSizes_relabelled {instances instances' : List PortInstance}
    (same : List.Forall₂ Relabelled instances instances') : dataSizes instances' = dataSizes instances := by
  induction same with
  | nil => rfl
  | cons head tail ih =>
    obtain ⟨_, _, rfl⟩ := head
    rw [dataSizes_cons, dataSizes_cons, ih]

theorem get_relabelled {instances instances' : List PortInstance}
    (same : List.Forall₂ Relabelled instances instances') {i : Nat} {inst : PortInstance}
    (here : instances[i]? = some inst) : ∃ inst', instances'[i]? = some inst' ∧ Relabelled inst inst' := by
  induction same generalizing i with
  | nil => simp at here
  | cons head tail ih =>
    cases i with
    | zero =>
      cases here
      exact ⟨_, rfl, head⟩
    | succ i => exact ih here

theorem sumDataSizes_ok {instances : List PortInstance} {totalSize size : Nat}
    (done : sumDataSizes totalSize instances = .ok size) :
    (∀ inst ∈ instances, 0 < inst.dataSize) ∧
      (totalSize + (dataSizes instances).sum < 2 ^ 32 → size = totalSize + (dataSizes instances).sum) := by
  induction instances generalizing totalSize with
  | nil =>
    cases done
    exact ⟨fun _ mem => absurd mem List.not_mem_nil, fun _ => rfl⟩
  | cons inst rest ih =>
    rw [sumDataSizes] at done
    split at done
    next positive =>
      obtain ⟨each, sum⟩ := ih done
      refine ⟨List.forall_mem_cons.mpr ⟨positive, each⟩, fun fits => ?_⟩
      rw [dataSizes_cons, List.sum_cons] at fits ⊢
      have low : u32 (totalSize + inst.dataSize) = totalSize + inst.dataSize :=
        Nat.mod_eq_of_lt (by omega)
      rw [low] at sum
      rw [sum (by omega)]
      omega
    · contradiction

theorem allocInitDataMemory_ok {portType : PortType} {instances : List PortInstance}
    {area : Option Bytes} (done : allocInitDataMemory portType instances = .ok area)
    (fits : (dataSizes instances).sum < 2 ^ 32) :
    (∀ inst ∈ instances, 0 < inst.dataSize) ∧
      area.getD [] = List.replicate (dataSizes instances).sum 0 ∧ (area = none ↔ instances = []) := by
  unfold allocInitDataMemory at done
  by_cases empty : instances = []
  · subst empty
    cases done
    exact ⟨fun _ mem => absurd mem List.not_mem_nil, rfl, by simp⟩
  · have some_ : instances.length > 0 := List.length_pos_iff.mpr empty
    rw [if_pos some_, calcInitDataSize, if_neg (by simpa using empty)] at done
    cases summed : sumDataSizes 0 instances with
    | error failure =>
      rw [summed] at done
      contradiction
    | ok size =>
      obtain ⟨each, sum⟩ := sumDataSizes_ok summed
      rw [Nat.zero_add] at sum
      rw [summed] at done
      simp only at done
      split at done
      · contradiction
      · cases done
        rw [sum fits]
        exact ⟨each, rfl, by simp [empty]⟩

/-- A program whose header is read again belongs to a queue of elements that have a size. -/
theorem sized_of_header {e : DataElement} {queueLength : Nat} {programType : ProgramType}
    {program : Bytes} (compiled : compilePort e queueLength programType = ⟨some program, none⟩)
    {state : Nat × ProgramHeader} (decoded : decodeHeader program 0 {} = .ok () state) :
    queueLength = 0 ∨ e.narrow.emittedSize % 2 ^ 32 ≠ 0 := by
  by_contra other
  rw [not_or, not_not] at other
  obtain ⟨_, failed⟩ := (selects_compiled e.limitsFit_narrow
    ((compilePort_narrow e queueLength programType).trans compiled) .create {}).2 other
  simp only [Decoder.parseProgramHeader, Decoder.selectProgram, decoded] at failed
  contradiction

theorem Port.compile_ok {port : Port} {programType : ProgramType}
    (compiles : (port.compile programType).error = none) : ∃ e program,
      port.effectiveElement = some e ∧ (port.compile programType).program = some program ∧
      compilePort e port.queueLength programType = ⟨some program, none⟩ := by
  unfold Port.compile at compiles ⊢
  cases element : port.effectiveElement with
  | none =>
    rw [element] at compiles
    contradiction
  | some e =>
    rw [element] at compiles
    simp only at compiles ⊢
    unfold compilePort at compiles ⊢
    split at compiles
    · contradiction
    · split at compiles
      · contradiction
      next c size compiled _ header encoded =>
        exact ⟨e, header ++ c.program, rfl, rfl, by simp only [compiled, encoded]⟩

/-- A port with a header has a pack program that the machine can use. -/
theorem Port.usable_of_header {port : Port} {portType : PortType} {header : ProgramHeader}
    (found : port.header? portType = some header) : ∃ e program,
      port.effectiveElement = some e ∧ (port.programs portType).1 = some program ∧
      Usable e.narrow port.queueLength .pack program := by
  unfold Port.header? at found
  split at found
  · contradiction
  next pack unpack compiled =>
  split at found
  · contradiction
  next program chosen =>
  split at found
  · contradiction
  next state decoded =>
  cases portType with
  | provide =>
    simp only [Port.programs, Prod.mk.injEq] at compiled
    obtain ⟨rfl, -, clear⟩ := compiled
    obtain ⟨e, program', element, same, compiled⟩ := Port.compile_ok clear
    rw [if_pos rfl, same] at chosen
    obtain rfl := Option.some.inj chosen
    exact ⟨e, _, element, same, usable_narrow compiled (sized_of_header compiled decoded)⟩
  | require =>
    simp only [Port.programs] at compiled ⊢
    cases clear : (port.compile .pack).error with
    | some failure =>
      rw [clear] at compiled
      simp at compiled
    | none =>
      simp only [clear, Prod.mk.injEq] at compiled ⊢
      obtain ⟨-, rfl, clear'⟩ := compiled
      obtain ⟨e, packProgram, element, same, compiled⟩ := Port.compile_ok clear
      obtain ⟨e', program', element', same', compiled'⟩ := Port.compile_ok clear'
      obtain rfl := Option.some.inj (element.symm.trans element')
      rw [if_neg (by decide), same'] at chosen
      obtain rfl := Option.some.inj chosen
      exact ⟨e, _, element, same, usable_narrow compiled (sized_of_header compiled' decoded)⟩

/-- The init data of a port: what a machine that has packed nothing before packs into zeros, or
zeros. -/
def InitRegion (dtl : Dtl) (port : Port) (inst : PortInstance) (region : Bytes) : Prop :=
  match port.properInitValue with
  | none => region = List.replicate inst.dataSize 0
  | some value => ∃ program, inst.packProgram = some program ∧ ∀ memory, ∃ vm,
      Vm.Packs dtl (.create memory) program (List.replicate inst.dataSize 0) value (.ok () vm) ∧
      vm.serializer.buffer.bytes = region

/-- An instance with a program to pack the init value of its port -/
def Packable (port : Port) (inst : PortInstance) : Prop :=
  ∃ e program, inst.packProgram = some program ∧ Usable e port.queueLength .pack program ∧
    ∀ value ∈ port.properInitValue, value.Representable

/-- What the loop makes of an area of zeros: one region behind the other, and each depends on its
own port alone. -/
theorem createInitData_regions {dtl : Dtl} {fuel : Nat} {vm vm' : Vm} {front data : Bytes}
    {ports : List Port} {instances : List PortInstance} (length : instances.length = ports.length)
    (packable : ∀ (i : Nat) (port : Port) (inst : PortInstance), ports[i]? = some port →
      instances[i]? = some inst → Packable port inst)
    (idle : vm.serializer.queuedWriteState = {})
    (done : createInitData dtl fuel vm front.length
      (front ++ List.replicate (dataSizes instances).sum 0) ports instances = some (.ok (vm', data))) :
    vm'.serializer.queuedWriteState = {} ∧ ∃ regions : List Bytes, data = front ++ regions.flatten ∧
      regions.map List.length = dataSizes instances ∧
      ∀ (i : Nat) (port : Port) (inst : PortInstance) (region : Bytes), ports[i]? = some port →
        instances[i]? = some inst → regions[i]? = some region → InitRegion dtl port inst region := by
  induction ports generalizing vm front instances with
  | nil =>
    obtain rfl : instances = [] := List.length_eq_zero_iff.mp length
    cases done
    exact ⟨idle, [], by simp⟩
  | cons port ports ih =>
    cases instances with
    | nil => simp at length
    | cons inst instances =>
    have lengthRest : instances.length = ports.length := by simpa using length
    have packableRest : ∀ (i : Nat) (port : Port) (inst : PortInstance), ports[i]? = some port →
        instances[i]? = some inst → Packable port inst := fun i => packable (i + 1)
    have zeros : List.replicate (dataSizes (inst :: instances)).sum (0 : UInt8) =
        List.replicate inst.dataSize 0 ++ List.replicate (dataSizes instances).sum 0 := by
      rw [dataSizes_cons, List.sum_cons, List.replicate_add]
    -- the region of this port, and those of the rest behind it
    have behind {vm₁ : Vm} (region : Bytes) (size : region.length = inst.dataSize)
        (init : InitRegion dtl port inst region) (idle : vm₁.serializer.queuedWriteState = {})
        (done : createInitData dtl fuel vm₁ (front.length + inst.dataSize)
          (front ++ (region ++ List.replicate (dataSizes instances).sum 0)) ports instances =
            some (.ok (vm', data))) :
        vm'.serializer.queuedWriteState = {} ∧ ∃ regions : List Bytes, data = front ++ regions.flatten ∧
          regions.map List.length = dataSizes (inst :: instances) ∧
          ∀ (i : Nat) (port' : Port) (inst' : PortInstance) (region : Bytes),
            (port :: ports)[i]? = some port' → (inst :: instances)[i]? = some inst' →
            regions[i]? = some region → InitRegion dtl port' inst' region := by
      have count : front.length + inst.dataSize = (front ++ region).length := by
        rw [List.length_append, size]
      rw [count, ← List.append_assoc] at done
      obtain ⟨idle', regions, rfl, sizes, each⟩ := ih lengthRest packableRest idle done
      refine ⟨idle', region :: regions, by simp, by simp [size, sizes], ?_⟩
      intro i port' inst' region' there here found
      cases i with
      | zero =>
        cases there
        cases here
        cases found
        exact init
      | succ i => exact each i port' inst' region' there here found
    rw [zeros, createInitData] at done
    by_cases empty : inst.dataSize = 0
    · rw [if_pos empty] at done
      simp at done
    rw [if_neg empty] at done
    cases value : port.properInitValue with
    | none =>
      simp only [value] at done
      exact behind (List.replicate inst.dataSize 0) (by simp) (by rw [InitRegion, value]) idle done
    | some value₁ =>
      simp only [value] at done
      have inside : ¬front.length + inst.dataSize > (front ++ (List.replicate inst.dataSize (0 : UInt8) ++
          List.replicate (dataSizes instances).sum 0)).length := by
        simp only [List.length_append, List.length_replicate]
        omega
      have region : slice (front ++ (List.replicate inst.dataSize (0 : UInt8) ++
          List.replicate (dataSizes instances).sum 0)) front.length inst.dataSize =
          List.replicate inst.dataSize 0 := by
        rw [slice, List.drop_left]
        exact List.take_left' (by simp)
      rw [if_neg inside, region] at done
      obtain ⟨e, program, packProgram, usable, representable⟩ := packable 0 port inst rfl rfl
      cases packed : createPortInitData dtl fuel vm inst value₁ (List.replicate inst.dataSize 0) with
      | none =>
        rw [packed] at done
        contradiction
      | some result =>
      cases result with
      | fail failure vm₁ =>
        rw [packed] at done
        simp at done
      | ok _ vm₁ =>
        simp only [packed] at done
        rw [createPortInitData, packProgram] at packed
        have packs : Vm.Packs dtl vm program (List.replicate inst.dataSize 0) value₁ (.ok () vm₁) :=
          ⟨fuel, packed⟩
        have nonempty : 0 < (List.replicate inst.dataSize (0 : UInt8)).length := by
          rw [List.length_replicate]
          omega
        have alone (memory : ScalarWord) := @Vm.packs_independent _ _ _ _ usable _ (.create memory) _ idle rfl _
          nonempty _ (representable value₁ value) packs
        obtain ⟨-, size, idle₁⟩ := alone 0
        rw [List.length_replicate] at size
        have spliced : splice (front ++ (List.replicate inst.dataSize (0 : UInt8) ++
            List.replicate (dataSizes instances).sum 0)) front.length vm₁.serializer.buffer.bytes =
            front ++ (vm₁.serializer.buffer.bytes ++ List.replicate (dataSizes instances).sum 0) := by
          simp [splice, size]
        rw [spliced] at done
        refine behind _ size ?_ idle₁ done
        rw [InitRegion, value]
        refine ⟨program, packProgram, fun memory => ?_⟩
        obtain ⟨⟨vm₂, packs₂, same⟩, -⟩ := alone memory
        exact ⟨vm₂, packs₂, by rw [same]⟩

def portIds (portId : Nat) : List PortInstance → BytePortMap
  | [] => []
  | inst :: rest => List.replicate inst.dataSize portId ++ portIds (portId + 1) rest

theorem bytePortMapLoop_ok (portId : Nat) (written : BytePortMap) (instances : List PortInstance) :
    bytePortMapLoop portId (written.length + (dataSizes instances).sum) written instances =
      .ok (written ++ portIds portId instances) := by
  induction instances generalizing portId written with
  | nil => simp [bytePortMapLoop, portIds]
  | cons inst rest ih =>
    have step := ih (portId + 1) (written ++ List.replicate inst.dataSize portId)
    rw [List.length_append, List.length_replicate, List.append_assoc] at step
    rw [bytePortMapLoop, if_pos (by simp), dataSizes_cons, List.sum_cons, ← Nat.add_assoc, step,
      portIds]

theorem portIds_length (portId : Nat) (instances : List PortInstance) :
    (portIds portId instances).length = (dataSizes instances).sum := by
  induction instances generalizing portId with
  | nil => rfl
  | cons inst rest ih => simp [portIds, ih]

theorem portIds_get (instances : List PortInstance) (portId offset p : Nat) :
    (portIds portId instances)[offset]? = some p ↔ ∃ i inst, instances[i]? = some inst ∧
      p = portId + i ∧ offsetOf instances i ≤ offset ∧ offset < offsetOf instances i + inst.dataSize := by
  induction instances generalizing portId offset with
  | nil => simp [portIds]
  | cons inst rest ih =>
    rw [portIds]
    by_cases first : offset < inst.dataSize
    · rw [List.getElem?_append_left (by simpa using first), List.getElem?_replicate, if_pos first]
      constructor
      · intro same
        exact ⟨0, inst, rfl, (Option.some.inj same).symm, Nat.zero_le _, by simpa using first⟩
      · rintro ⟨i, inst', here, same, low, high⟩
        cases i with
        | zero => rw [same, Nat.add_zero]
        | succ i =>
          rw [offsetOf_succ] at low
          omega
    · rw [List.getElem?_append_right (by simpa using first), List.length_replicate, ih]
      constructor
      · rintro ⟨i, inst', here, same, low, high⟩
        refine ⟨i + 1, inst', here, by omega, ?_, ?_⟩
        · rw [offsetOf_succ]
          omega
        · rw [offsetOf_succ]
          omega
      · rintro ⟨i, inst', here, same, low, high⟩
        cases i with
        | zero =>
          cases here
          rw [offsetOf_zero] at high
          omega
        | succ i =>
          rw [offsetOf_succ] at low high
          exact ⟨i, inst', here, by omega, by omega, by omega⟩

/-- Where no port is empty, an id is not above the offset of its port. -/
theorem le_offsetOf {instances : List PortInstance} (positive : ∀ inst ∈ instances, 0 < inst.dataSize)
    {i : Nat} (inside : i ≤ instances.length) : i ≤ offsetOf instances i := by
  induction instances generalizing i with
  | nil => simp at inside; omega
  | cons inst rest ih =>
    rw [List.forall_mem_cons] at positive
    cases i with
    | zero => exact Nat.zero_le _
    | succ i =>
      have below := ih positive.2 (Nat.le_of_succ_le_succ inside)
      have first := positive.1
      rw [offsetOf_succ]
      omega

/-- What the lookup in the byte port map of ports should give -/
structure MapsBytes (instances : List PortInstance) (map : Option BytePortMap) : Prop where
  inside : ∀ p inst, instances[p]? = some inst → ∀ o, BytePortMap.lookup map o = p ↔
    inst.dataOffset ≤ o ∧ o < inst.dataOffset + inst.dataSize
  outside : ∀ o, (dataSizes instances).sum ≤ o → BytePortMap.lookup map o = invalidPortId

/-- The map of ports whose offsets are the sums of the sizes before them -/
theorem newBytePortMap_maps {instances : List PortInstance} {data : Option Bytes}
    (offsets : ∀ p inst, instances[p]? = some inst → inst.dataOffset = offsetOf instances p)
    (positive : ∀ inst ∈ instances, 0 < inst.dataSize) (fits : (dataSizes instances).sum < 2 ^ 32)
    (size : (data.getD []).length = (dataSizes instances).sum)
    (missing : data = none ↔ instances = []) :
    ∃ map, newBytePortMap instances data = .ok map ∧ MapsBytes instances map := by
  cases data with
  | none =>
    obtain rfl := missing.mp rfl
    exact ⟨none, rfl, fun p inst here => by simp at here, fun _ _ => rfl⟩
  | some data =>
    have nonempty : instances ≠ [] := fun empty => absurd (missing.mpr empty) nofun
    have some_ : instances.length > 0 := List.length_pos_iff.mpr nonempty
    have total : data.length > 0 := by
      obtain ⟨inst, rest, rfl⟩ := List.exists_cons_of_ne_nil nonempty
      have first := positive inst List.mem_cons_self
      rw [Option.getD_some, dataSizes_cons, List.sum_cons] at size
      omega
    have loop := bytePortMapLoop_ok 0 [] instances
    rw [List.length_nil, Nat.zero_add, ← size, Option.getD_some, List.nil_append] at loop
    refine ⟨some (portIds 0 instances), ?_, ?_, ?_⟩
    · simp only [newBytePortMap, createBytePortMap, if_pos (And.intro some_ total), loop]
    · intro p inst here o
      have portId : p < instances.length := (List.getElem?_eq_some_iff.mp here).1
      have low := le_offsetOf positive (Nat.le_of_lt portId)
      have inside := offsetOf_add_le here
      have taken := positive inst (List.mem_of_getElem? here)
      have valid : p ≠ invalidPortId := by
        have : invalidPortId = 2 ^ 32 - 1 := rfl
        omega
      have looked : BytePortMap.lookup (some (portIds 0 instances)) o = p ↔
          (portIds 0 instances)[o]? = some p := by
        simp only [BytePortMap.lookup, List.getD_eq_getElem?_getD]
        cases (portIds 0 instances)[o]? with
        | none => simpa using fun same => valid same.symm
        | some q => simp
      rw [looked, portIds_get, offsets p inst here]
      constructor
      · rintro ⟨i, inst', here', same, low, high⟩
        obtain rfl : p = i := by omega
        obtain rfl := Option.some.inj (here.symm.trans here')
        exact ⟨low, high⟩
      · rintro ⟨low, high⟩
        exact ⟨p, inst, here, by omega, low, high⟩
    · intro o beyond
      rw [← portIds_length 0] at beyond
      simp [BytePortMap.lookup, List.getD_eq_getElem?_getD, List.getElem?_eq_none beyond]

theorem slice_flatten {regions : List Bytes} {instances : List PortInstance}
    (sizes : regions.map List.length = dataSizes instances) {i : Nat} {inst : PortInstance}
    (here : instances[i]? = some inst) : ∃ region, regions[i]? = some region ∧
      slice regions.flatten (offsetOf instances i) inst.dataSize = region := by
  induction instances generalizing regions i with
  | nil => simp at here
  | cons head rest ih =>
    cases regions with
    | nil => simp at sizes
    | cons region regions =>
    rw [List.map_cons, dataSizes_cons, List.cons.injEq] at sizes
    obtain ⟨size, sizes⟩ := sizes
    cases i with
    | zero =>
      cases here
      refine ⟨region, rfl, ?_⟩
      rw [offsetOf_zero, slice, List.drop_zero, List.flatten_cons, ← size, List.take_left]
    | succ i =>
      obtain ⟨region', found, same⟩ := ih sizes here
      refine ⟨region', found, ?_⟩
      rw [offsetOf_succ, slice, List.flatten_cons, ← size, List.drop_length_add_append]
      exact same

/-- The layout law for the ports of one type: an instance for every port, one behind the other, and an
area with the init data of each. -/
structure LaidOut (dtl : Dtl) (portType : PortType) (ports : List Port) (instances : List PortInstance)
    (area : Bytes) : Prop where
  count : instances.length = ports.length
  created : ∀ (p : Nat) (port : Port) (inst : PortInstance), ports[p]? = some port →
    instances[p]? = some inst → port.Created portType p inst
  offset : ∀ (p : Nat) (inst : PortInstance), instances[p]? = some inst →
    inst.dataOffset = offsetOf instances p
  size : area.length = (dataSizes instances).sum
  init : ∀ (p : Nat) (port : Port) (inst : PortInstance), ports[p]? = some port →
    instances[p]? = some inst → InitRegion dtl port inst (slice area inst.dataOffset inst.dataSize)

/-- The ports of one type, once their sizes are found to be those that the loop has counted -/
theorem createPorts_layout {mode : Mode} {memory : PortMemory} {node : Node} {built : PortsBuilt}
    (done : createPortsOnNodeInstance mode memory node = .ok built) (portType : PortType)
    (positive : ∀ inst ∈ built.ports portType, 0 < inst.dataSize)
    (fits : (dataSizes (built.ports portType)).sum < 2 ^ 32)
    (counted : (dataSizes (built.ports portType)).sum = built.portDataSize portType) :
    (built.ports portType).length = (node.ports portType).length ∧
    ∀ (p : Nat) (port : Port) (inst : PortInstance), (node.ports portType)[p]? = some port →
      (built.ports portType)[p]? = some inst →
      port.Created portType p inst ∧ inst.dataOffset = offsetOf (built.ports portType) p := by
  obtain ⟨relabelled, size⟩ := createPorts_placed done portType
  have alloc : (allocPortInstances memory portType (node.ports portType).length).length =
      (node.ports portType).length := by simp [allocPortInstances]
  have sizes := dataSizes_relabelled relabelled
  have placedPositive : ∀ inst ∈ placedInstances portType 0 0
      (allocPortInstances memory portType (node.ports portType).length) (node.ports portType),
      0 < inst.dataSize := by
    intro inst mem
    obtain ⟨i, here⟩ := List.mem_iff_getElem?.mp mem
    obtain ⟨_, here', element, signature, rfl⟩ := get_relabelled relabelled here
    have taken := positive _ (List.mem_of_getElem? here')
    exact taken
  have layout := placed_layout alloc placedPositive (by rw [← sizes]; omega)
  rw [Nat.zero_add, ← sizes, ← size] at layout
  refine ⟨relabelled.length_eq ▸ placedInstances_length portType 0 0 alloc, ?_⟩
  intro p port inst there here
  obtain ⟨header, found, placed⟩ := layout.2 counted.symm p port there
  obtain ⟨inst', here', element, signature, rfl⟩ := get_relabelled relabelled placed
  obtain rfl := Option.some.inj (here.symm.trans here')
  rw [Nat.zero_add, Nat.zero_add]
  refine ⟨⟨header, _, element, signature, found, rfl⟩, ?_⟩
  rw [offsetOf, offsetOf, sizes]
  rfl

theorem Port.Created.packable {port : Port} {portType : PortType} {p : Nat} {inst : PortInstance}
    (created : port.Created portType p inst)
    (representable : ∀ value ∈ port.properInitValue, value.Representable) : Packable port inst := by
  obtain ⟨header, offset, element, signature, found, rfl⟩ := created
  obtain ⟨e, program, _, pack, usable⟩ := Port.usable_of_header found
  exact ⟨_, program, pack, usable, representable⟩

/-- What a build leaves for the ports of one type, which have the area `data` -/
structure BuiltPorts (dtl : Dtl) (portType : PortType) (ports : List Port) (instances : List PortInstance)
    (data : Option Bytes) : Prop where
  positive : ∀ inst ∈ instances, 0 < inst.dataSize
  laidOut : LaidOut dtl portType ports instances (data.getD [])
  maps : ∃ map, newBytePortMap instances data = .ok map ∧ MapsBytes instances map

/-- What one loop of create_init_data_on_node_instance leaves for the ports of its type -/
theorem createInitData_laidOut {dtl : Dtl} {fuel : Nat} {vm vm' : Vm} {mode : Mode}
    {memory : PortMemory} {node : Node} {built : PortsBuilt}
    (ports : createPortsOnNodeInstance mode memory node = .ok built) (portType : PortType)
    (representable : ∀ port ∈ node.ports portType, ∀ value ∈ port.properInitValue, value.Representable)
    (fits : (dataSizes (built.ports portType)).sum < 2 ^ 32) {area : Option Bytes} {data : Bytes}
    (allocated : allocInitDataMemory portType (built.ports portType) = .ok area)
    (counted : (area.getD []).length = built.portDataSize portType)
    (idle : vm.serializer.queuedWriteState = {})
    (done : createInitData dtl fuel vm 0 (area.getD []) (node.ports portType) (built.ports portType) =
      some (.ok (vm', data))) :
    vm'.serializer.queuedWriteState = {} ∧
    BuiltPorts dtl portType (node.ports portType) (built.ports portType) (area.map fun _ => data) := by
  obtain ⟨positive, zeros, missing⟩ := allocInitDataMemory_ok allocated fits
  rw [zeros, List.length_replicate] at counted
  obtain ⟨count, each⟩ := createPorts_layout ports portType positive fits counted
  have offset : ∀ (p : Nat) (inst : PortInstance), (built.ports portType)[p]? = some inst →
      inst.dataOffset = offsetOf (built.ports portType) p := by
    intro p inst here
    have inside := (List.getElem?_eq_some_iff.mp here).1
    rw [count] at inside
    exact (each p _ inst (List.getElem?_eq_getElem inside) here).2
  have packable : ∀ (p : Nat) (port : Port) (inst : PortInstance), (node.ports portType)[p]? = some port →
      (built.ports portType)[p]? = some inst → Packable port inst := fun p port inst there here =>
    (each p port inst there here).1.packable (representable port (List.mem_of_getElem? there))
  rw [zeros] at done
  obtain ⟨idle', regions, rfl, sizes, init⟩ := @createInitData_regions _ _ _ _ [] _ _ _ count packable idle done
  rw [List.nil_append]
  have size : regions.flatten.length = (dataSizes (built.ports portType)).sum := by
    rw [List.length_flatten, sizes]
  have whole : (area.map fun _ => regions.flatten).getD [] = regions.flatten := by
    cases area with
    | none =>
      rw [missing.mp rfl] at size
      exact (List.length_eq_zero_iff.mp size).symm
    | some _ => rfl
  refine ⟨idle', positive, ?_, ?_⟩
  · rw [whole]
    refine ⟨count, fun p port inst there here => (each p port inst there here).1, offset, size, ?_⟩
    intro p port inst there here
    obtain ⟨region, found, same⟩ := slice_flatten sizes here
    rw [offset p inst here, same]
    exact init p port inst region there here found
  · apply newBytePortMap_maps offset positive fits
    · rw [whole, size]
    · rw [Option.map_eq_none_iff]
      exact missing

/-- Only one of the two types has its ports in the byte port map of the node. -/
def Mapped (mode : Mode) (portType : PortType) : Prop :=
  mode = .server ∧ portType = .provide ∨ mode = .client ∧ portType = .require

theorem createPortData_ok {initData data : Option Bytes} (done : createPortData initData = .ok data) :
    data = initData := by
  unfold createPortData at done
  split at done
  · cases done
    rfl
  · split at done
    · cases done
      rfl
    · contradiction

theorem buildNodeInstance_builtPorts {dtl : Dtl} {fuel : Nat} {mode : Mode} {instances : PortMemory}
    {memory : ScalarWord} {node : Node} {inst : NodeInstance}
    (representable : ∀ portType, ∀ port ∈ node.ports portType, ∀ value ∈ port.properInitValue,
      value.Representable)
    (done : buildNodeInstance dtl fuel mode instances memory node = some (.ok inst))
    (fits : ∀ portType, (dataSizes (inst.ports portType)).sum < 2 ^ 32) (portType : PortType) :
    BuiltPorts dtl portType (node.ports portType) (inst.ports portType) (inst.portData portType) ∧
    inst.portInitData portType = inst.portData portType ∧
    (Mapped mode portType →
      newBytePortMap (inst.ports portType) (inst.portData portType) = .ok inst.bytePortMap) := by
  unfold buildNodeInstance at done
  cases ports : createPortsOnNodeInstance mode instances node with
  | error failure => simp [ports] at done
  | ok built =>
  simp only [ports] at done
  cases init : createInitDataOnNodeInstance dtl fuel memory node built with
  | none => simp [init] at done
  | some result =>
  cases result with
  | error failure => simp [init] at done
  | ok areas =>
  obtain ⟨provideInit, requireInit⟩ := areas
  simp only [init] at done
  cases provideData : createPortData provideInit with
  | error failure => simp [provideData] at done
  | ok provided =>
  cases requireData : createPortData requireInit with
  | error failure => simp [provideData, requireData] at done
  | ok required =>
  simp only [provideData, requireData] at done
  cases mapped : nodeBytePortMap mode built provideInit requireInit with
  | error failure => simp [mapped] at done
  | ok map =>
  simp only [mapped] at done
  cases done
  obtain rfl := createPortData_ok provideData
  obtain rfl := createPortData_ok requireData
  unfold createInitDataOnNodeInstance at init
  cases provideArea : allocInitDataMemory .provide built.providePorts with
  | error failure => simp [provideArea] at init
  | ok provideAlloc =>
  cases requireArea : allocInitDataMemory .require built.requirePorts with
  | error failure => simp [provideArea, requireArea] at init
  | ok requireAlloc =>
  simp only [provideArea, requireArea] at init
  split at init
  · simp at init
  next counted =>
  rw [not_or, not_not, not_not] at counted
  cases provideLoop : createInitData dtl fuel (.create memory) 0 (provideAlloc.getD [])
      node.providePorts built.providePorts with
  | none => simp [provideLoop] at init
  | some result =>
  cases result with
  | error failure => simp [provideLoop] at init
  | ok left =>
  obtain ⟨vm, provideBytes⟩ := left
  simp only [provideLoop] at init
  cases requireLoop : createInitData dtl fuel vm 0 (requireAlloc.getD []) node.requirePorts
      built.requirePorts with
  | none => simp [requireLoop] at init
  | some result =>
  cases result with
  | error failure => simp [requireLoop] at init
  | ok left =>
  obtain ⟨vm', requireBytes⟩ := left
  simp only [requireLoop] at init
  cases init
  obtain ⟨idle, provideBuilt⟩ := createInitData_laidOut ports .provide (representable .provide)
    (fits .provide) provideArea counted.1 rfl provideLoop
  obtain ⟨-, requireBuilt⟩ := createInitData_laidOut ports .require (representable .require)
    (fits .require) requireArea counted.2 idle requireLoop
  cases portType with
  | provide =>
    refine ⟨provideBuilt, rfl, ?_⟩
    rintro (⟨rfl, -⟩ | ⟨-, other⟩)
    · exact mapped
    · contradiction
  | require =>
    refine ⟨requireBuilt, rfl, ?_⟩
    rintro (⟨-, other⟩ | ⟨rfl, -⟩)
    · contradiction
    · exact mapped

/-- Every node that is built is laid out as it should be, for ports of both types: the areas, which the
node data gets copies of, and the byte port map of the ports that the node maps. -/
theorem buildNodeInstance_laidOut {dtl : Dtl} {fuel : Nat} {mode : Mode} {instances : PortMemory}
    {memory : ScalarWord} {node : Node} {inst : NodeInstance}
    (representable : ∀ portType, ∀ port ∈ node.ports portType, ∀ value ∈ port.properInitValue,
      value.Representable)
    (done : buildNodeInstance dtl fuel mode instances memory node = some (.ok inst))
    (fits : ∀ portType, (dataSizes (inst.ports portType)).sum < 2 ^ 32) (portType : PortType) :
    LaidOut dtl portType (node.ports portType) (inst.ports portType)
      ((inst.portData portType).getD []) ∧
    inst.portInitData portType = inst.portData portType ∧
    ∃ map, newBytePortMap (inst.ports portType) (inst.portData portType) = .ok map ∧
      MapsBytes (inst.ports portType) map ∧ (Mapped mode portType → inst.bytePortMap = map) := by
  obtain ⟨built, init, mapped⟩ := buildNodeInstance_builtPorts representable done fits portType
  obtain ⟨map, made, maps⟩ := built.maps
  refine ⟨built.laidOut, init, map, made, maps, fun isMapped => ?_⟩
  exact Except.ok.inj ((mapped isMapped).symm.trans made)

/-- Two provide ports, a number with an init value and one without, and a require port -/
def layoutNode : Node where
  providePorts := [
    { name := .a, dataElement := .leaf none .uint8 0 false none,
      effectiveElement := some (.leaf none .uint8 0 false none), properInitValue := some (.scalar (.u32 7)) },
    { name := .b, dataElement := .leaf none .uint16 0 false none,
      effectiveElement := some (.leaf none .uint16 0 false none) }]
  requirePorts := [
    { name := ⟨[99], by decide⟩, dataElement := .leaf none .uint8 0 false none,
      effectiveElement := some (.leaf none .uint8 0 false none), properInitValue := some (.scalar (.u32 9)) }]

def layoutBuilt : Option (Except Failure NodeInstance) :=
  buildNodeInstance .numeric 3 .server (fun _ _ => {}) 0 layoutNode

theorem buildNodeInstance_laidOut_layoutNode : ∃ inst, layoutBuilt = some (.ok inst) ∧
    inst.providePortData = some [7, 0, 0] ∧
    LaidOut .numeric .provide layoutNode.providePorts inst.providePorts
      (inst.providePortData.getD []) := by
  have representable : ∀ portType, ∀ port ∈ layoutNode.ports portType, ∀ value ∈ port.properInitValue,
      value.Representable := by
    have each : ∀ port ∈ layoutNode.providePorts ++ layoutNode.requirePorts,
        ∀ value ∈ port.properInitValue, value.Representable := by
      simp only [layoutNode, List.cons_append, List.nil_append, List.forall_mem_cons, Option.mem_def,
        Option.some.injEq, forall_eq', reduceCtorEq, false_imp_iff, implies_true, true_and,
        List.not_mem_nil, and_true]
      exact ⟨.scalar _, .scalar _⟩
    intro portType port mem
    cases portType with
    | provide => exact each port (List.mem_append_left _ mem)
    | require => exact each port (List.mem_append_right _ mem)
  have builds : (layoutBuilt.bind Except.toOption).map (fun inst =>
      (inst.providePortData, dataSizes inst.providePorts, dataSizes inst.requirePorts)) =
        some (some [7, 0, 0], [1, 2], [1]) := by decide +kernel
  obtain ⟨inst, done, found⟩ := Option.map_eq_some_iff.mp builds
  obtain ⟨result, built, ok⟩ := Option.bind_eq_some_iff.mp done
  cases result with
  | error failure => contradiction
  | ok inst' =>
    cases ok
    simp only [Prod.mk.injEq] at found
    have fits : ∀ portType, (dataSizes (inst.ports portType)).sum < 2 ^ 32 := by
      intro portType
      cases portType with
      | provide => exact found.2.1 ▸ by decide
      | require => exact found.2.2 ▸ by decide
    exact ⟨inst, built, found.1, (buildNodeInstance_laidOut representable built fits .provide).1⟩

end Apx
