import Apx.NodeBuild
import Apx.Denotation

/-! Which failures of ports the build of a node reports. -/

namespace Apx

namespace Port

/-- The header that the properties of the port instance come from. There is none when a program of
the port does not compile or the port instance cannot be created. -/
def header? (port : Port) (portType : PortType) : Option ProgramHeader :=
  match port.programs portType with
  | (_, _, some _) => none
  | (pack, unpack, none) =>
    match if portType = .provide then pack else unpack with
    | none => none
    | some program =>
      match decodeHeader program 0 {} with
      | .fail .. => none
      | .ok _ (_, header) => some header

/-- The error code with which a program of the port does not compile -/
def compileError? (port : Port) (portType : PortType) : Option ApxError :=
  match (port.programs portType).2.2 with
  | some (.code error) => some error
  | _ => none

/-- The loop does not go on behind the port: its programs compile, but its instance cannot be created
(or the compiler runs into an assert). -/
def Stops (port : Port) (portType : PortType) : Prop :=
  port.header? portType = none ∧ port.compileError? portType = none

def created (port : Port) (portType : PortType) (portId dataOffset : Nat) (header : ProgramHeader) :
    PortInstance :=
  { portType := portType, portId := portId, name := some port.name.bytes,
    packProgram := (port.programs portType).1, unpackProgram := (port.programs portType).2.1,
    dataOffset := dataOffset, dataSize := header.dataSize, queueLength := header.queueLength,
    elementSize := header.elementSize, hasDynamicData := header.hasDynamicData }

/-- The instance was created for the port: with the programs compiled from it, at some offset. The
element and the signature are set later. -/
def Created (port : Port) (portType : PortType) (portId : Nat) (inst : PortInstance) : Prop :=
  ∃ header dataOffset element signature, port.header? portType = some header ∧
    inst = { port.created portType portId dataOffset header with
      effectiveElement := element, portSignature := signature }

end Port

theorem deriveProperties_create (portType : PortType) (portId : Nat) (name : Bytes)
    (pack unpack : Option Bytes) (offset : Nat) :
    (PortInstance.create portType portId name pack unpack).deriveProperties offset =
      match if portType = .provide then pack else unpack with
      | none => .fail (.code .nullPtr) (.create portType portId name pack unpack)
      | some program =>
        match decodeHeader program 0 {} with
        | .fail failure _ => .fail failure (.create portType portId name pack unpack)
        | .ok _ (_, header) => .ok header.dataSize
            { PortInstance.create portType portId name pack unpack with
              dataSize := header.dataSize, hasDynamicData := header.hasDynamicData,
              queueLength := header.queueLength, elementSize := header.elementSize,
              dataOffset := offset } := rfl

theorem createPortInstances_cons (portType : PortType) (instances : List PortInstance)
    (portId dataOffset : Nat) (result : Option ApxError) (port : Port) (rest : List Port) :
    (∃ header, port.header? portType = some header ∧
      createPortInstances portType instances portId dataOffset result (port :: rest) =
        createPortInstances portType
          (instances.set portId (port.created portType portId dataOffset header))
          (portId + 1) (u32 (dataOffset + header.dataSize)) none rest) ∨
    (∃ error, port.header? portType = none ∧ port.compileError? portType = some error ∧
      createPortInstances portType instances portId dataOffset result (port :: rest) =
        createPortInstances portType instances (portId + 1) dataOffset (some error) rest) ∨
    (port.Stops portType ∧ ∃ failure,
      createPortInstances portType instances portId dataOffset result (port :: rest) =
        .error failure) := by
  simp only [createPortInstances, Port.Stops, Port.header?, Port.compileError?, Port.created]
  obtain ⟨pack, unpack, error⟩ := port.programs portType
  cases error with
  | some failure =>
    cases failure with
    | code error => exact .inr (.inl ⟨error, rfl, rfl, rfl⟩)
    | assertion => exact .inr (.inr ⟨⟨rfl, rfl⟩, _, rfl⟩)
    | outOfBounds => exact .inr (.inr ⟨⟨rfl, rfl⟩, _, rfl⟩)
  | none =>
    simp only [deriveProperties_create]
    generalize (if portType = .provide then pack else unpack) = chosen
    cases chosen with
    | none => exact .inr (.inr ⟨⟨rfl, trivial⟩, _, rfl⟩)
    | some program =>
      dsimp only
      generalize decodeHeader program 0 {} = decoded
      cases decoded with
      | fail failure state => exact .inr (.inr ⟨⟨rfl, trivial⟩, _, rfl⟩)
      | ok value state => exact .inl ⟨state.2, rfl, rfl⟩

/-- The instances behind a loop that goes through all ports: those of ports that failed are as they
were. -/
def placedInstances (portType : PortType) (portId dataOffset : Nat) :
    List PortInstance → List Port → List PortInstance
  | inst :: instances, port :: ports =>
    match port.header? portType with
    | some header => port.created portType portId dataOffset header ::
        placedInstances portType (portId + 1) (u32 (dataOffset + header.dataSize)) instances ports
    | none => inst :: placedInstances portType (portId + 1) dataOffset instances ports
  | instances, _ => instances

def placedSize (portType : PortType) (dataOffset : Nat) : List Port → Nat
  | [] => dataOffset
  | port :: ports =>
    match port.header? portType with
    | some header => placedSize portType (u32 (dataOffset + header.dataSize)) ports
    | none => placedSize portType dataOffset ports

/-- The variable `result` is clear behind the loop: the last pass decides. -/
def EndsClear (portType : PortType) (result : Option ApxError) (ports : List Port) : Prop :=
  match ports.getLast? with
  | none => result = none
  | some last => last.header? portType ≠ none

theorem endsClear_cons (portType : PortType) (result : Option ApxError) (port : Port) (rest : List Port)
    {next : Option ApxError} (clear : next = none ↔ port.header? portType ≠ none) :
    EndsClear portType result (port :: rest) ↔ EndsClear portType next rest := by
  unfold EndsClear
  rw [List.getLast?_cons]
  cases rest.getLast? with
  | none => exact clear.symm
  | some last => exact Iff.rfl

/-- The loop succeeds exactly when no port stops it and the last port does not fail. -/
theorem createPortInstances_eq (portType : PortType) (ports : List Port) (done left : List PortInstance)
    (dataOffset : Nat) (result : Option ApxError) (length : left.length = ports.length) :
    ((∀ port ∈ ports, ¬port.Stops portType) ∧ EndsClear portType result ports →
      createPortInstances portType (done ++ left) done.length dataOffset result ports =
        .ok (done ++ placedInstances portType done.length dataOffset left ports,
          placedSize portType dataOffset ports)) ∧
    (¬((∀ port ∈ ports, ¬port.Stops portType) ∧ EndsClear portType result ports) →
      ∃ failure, createPortInstances portType (done ++ left) done.length dataOffset result ports =
        .error failure) := by
  induction ports generalizing done left dataOffset result with
  | nil =>
    obtain rfl : left = [] := List.length_eq_zero_iff.mp length
    cases result with
    | none =>
      refine ⟨fun _ => rfl, fun not => ?_⟩
      exact absurd ⟨fun _ mem => absurd mem List.not_mem_nil, rfl⟩ not
    | some error =>
      refine ⟨fun clear => ?_, fun _ => ⟨_, rfl⟩⟩
      exact absurd clear.2 (by simp [EndsClear])
  | cons port rest ih =>
    obtain ⟨inst, left, rfl⟩ : ∃ inst more, left = inst :: more := by
      cases left with
      | nil => simp at length
      | cons inst more => exact ⟨inst, more, rfl⟩
    have lengthRest : left.length = rest.length := by simpa using length
    rcases createPortInstances_cons portType (done ++ inst :: left) done.length dataOffset result port
      rest with ⟨header, found, step⟩ | ⟨error, missing, compile, step⟩ | ⟨stops, failure, step⟩
    · have goesOn : ¬port.Stops portType := fun stops => by simp [Port.Stops, found] at stops
      have clear := @endsClear_cons portType result port rest none (by simp [found])
      have behind := ih (done ++ [port.created portType done.length dataOffset header]) left
        (u32 (dataOffset + header.dataSize)) none lengthRest
      have same : (done ++ inst :: left).set done.length
          (port.created portType done.length dataOffset header) =
          done ++ [port.created portType done.length dataOffset header] ++ left := by simp
      have count : (done ++ [port.created portType done.length dataOffset header]).length =
          done.length + 1 := by simp
      rw [count] at behind
      rw [step, same, clear, List.forall_mem_cons, placedInstances, placedSize, found]
      simpa [goesOn] using behind
    · have goesOn : ¬port.Stops portType := fun stops => by simp [Port.Stops, compile] at stops
      have clear := @endsClear_cons portType result port rest (some error) (by simp [missing])
      have behind := ih (done ++ [inst]) left dataOffset (some error) lengthRest
      have count : (done ++ [inst]).length = done.length + 1 := by simp
      rw [count] at behind
      rw [step, clear, List.forall_mem_cons, placedInstances, placedSize, missing]
      simpa [goesOn] using behind
    · rw [step]
      refine ⟨fun all => ?_, fun _ => ⟨failure, rfl⟩⟩
      exact absurd stops (all.1 port List.mem_cons_self)

namespace DataElement

def HasText (e : DataElement) : Prop := e.toString true ≠ none

theorem toString_false_eq_none {e : DataElement} : e.toString false = none ↔ ¬e.HasText := by
  rw [HasText, not_not, toString_eq_none_iff, toString_eq_none_iff]

theorem hasText_clone {e : DataElement} : e.clone.HasText ↔ e.HasText := by
  rw [HasText, HasText, ne_eq, ne_eq, toString_eq_none_iff, toString_eq_none_iff, declared_clone,
    hasReference_clone]

end DataElement

/-- The port instance has got an element that has a text exactly if that of the port has one. -/
def Supplied (inst inst' : PortInstance) (port : Port) : Prop :=
  ∃ e e', port.effectiveElement = some e ∧ inst' = { inst with effectiveElement := some e' } ∧
    (e'.HasText ↔ e.HasText)

namespace ElementTable

/-- Every element in the map has a text. -/
def WithTexts (table : ElementTable) : Prop := ∀ entry ∈ table.map, entry.2.HasText

theorem update_eq {table : ElementTable} (texts : table.WithTexts) (inst : PortInstance) (port : Port) :
    (port.effectiveElement ≠ none → ∃ table' inst', table.update inst port = .ok (table', inst') ∧
      table'.WithTexts ∧ Supplied inst inst' port) ∧
    (port.effectiveElement = none → ∃ failure, table.update inst port = .error failure) := by
  unfold update
  cases element : port.effectiveElement with
  | none => exact ⟨fun present => absurd rfl present, fun _ => ⟨_, rfl⟩⟩
  | some e =>
    refine ⟨fun _ => ?_, nofun⟩
    dsimp only
    cases text : e.toString false with
    | none =>
      refine ⟨_, _, rfl, texts, e, e.clone, element, rfl, DataElement.hasText_clone⟩
    | some text' =>
      have hasText : e.HasText := by
        by_contra without
        rw [DataElement.toString_false_eq_none.mpr without] at text
        contradiction
      simp only [Option.bind_some]
      cases found : table.map.lookup text' with
      | none =>
        refine ⟨_, _, rfl, ?_, e, e.clone, element, rfl, DataElement.hasText_clone⟩
        intro entry mem
        rcases List.mem_cons.mp mem with rfl | mem
        · exact DataElement.hasText_clone.mpr hasText
        · exact texts entry mem
      | some existing =>
        have mem : (text', existing) ∈ table.map := by
          obtain ⟨front, back, same, -⟩ := List.lookup_eq_some_iff.mp found
          rw [same]
          simp
        exact ⟨_, _, rfl, texts, e, existing, element, rfl,
          fun _ => hasText, fun _ => texts _ mem⟩

/-- The loop over the ports of one type fails only for a port without an element. -/
theorem updateAll_eq {table : ElementTable} (texts : table.WithTexts) {instances : List PortInstance}
    {ports : List Port} (length : instances.length = ports.length) :
    ((∀ port ∈ ports, port.effectiveElement ≠ none) → ∃ table' instances',
      table.updateAll instances ports = .ok (table', instances') ∧ table'.WithTexts ∧
      instances'.length = ports.length ∧
      ∀ (i : Nat) (inst : PortInstance) (port : Port), instances[i]? = some inst →
        ports[i]? = some port → ∃ inst', instances'[i]? = some inst' ∧ Supplied inst inst' port) ∧
    ((∃ port ∈ ports, port.effectiveElement = none) →
      ∃ failure, table.updateAll instances ports = .error failure) := by
  induction ports generalizing table instances with
  | nil =>
    obtain rfl : instances = [] := List.length_eq_zero_iff.mp length
    exact ⟨fun _ => ⟨table, [], rfl, texts, rfl, nofun⟩, by simp⟩
  | cons port rest ih =>
    obtain ⟨inst, instances, rfl⟩ : ∃ inst more, instances = inst :: more := by
      cases instances with
      | nil => simp at length
      | cons inst more => exact ⟨inst, more, rfl⟩
    have lengthRest : instances.length = rest.length := by simpa using length
    obtain ⟨good, bad⟩ := update_eq texts inst port
    by_cases element : port.effectiveElement = none
    · obtain ⟨failure, failed⟩ := bad element
      refine ⟨fun all => absurd element (all port List.mem_cons_self), fun _ => ⟨failure, ?_⟩⟩
      rw [updateAll, failed]
    · obtain ⟨table', inst', updated, texts', supplied⟩ := good element
      obtain ⟨goodRest, badRest⟩ := ih texts' lengthRest
      constructor
      · intro all
        obtain ⟨table'', instances', updatedRest, texts'', count, each⟩ :=
          goodRest fun port mem => all port (List.mem_cons_of_mem _ mem)
        refine ⟨table'', inst' :: instances', ?_, texts'', by simp [count], ?_⟩
        · rw [updateAll, updated]
          simp only [updatedRest]
        · intro i inst₁ port₁ here there
          cases i with
          | zero =>
            cases here
            cases there
            exact ⟨inst', rfl, supplied⟩
          | succ i => exact each i inst₁ port₁ here there
      · rintro ⟨absent, mem, without⟩
        rcases List.mem_cons.mp mem with rfl | mem
        · exact absurd without element
        · obtain ⟨failure, failed⟩ := badRest ⟨absent, mem, without⟩
          refine ⟨failure, ?_⟩
          rw [updateAll, updated]
          simp only [failed]

end ElementTable

/-- A signature can be created for the instance, or is there already. -/
def Signable (inst : PortInstance) : Prop :=
  inst.portSignature ≠ none ∨ inst.name ≠ none ∧ ∃ e, inst.effectiveElement = some e ∧ e.HasText

theorem createPortSignature_eq (inst : PortInstance) :
    (Signable inst → ∃ signature,
      inst.createPortSignature = .ok { inst with portSignature := signature }) ∧
    (¬Signable inst → ∃ failure, inst.createPortSignature = .error failure) := by
  unfold PortInstance.createPortSignature Signable DataElement.portSignature DataElement.HasText
  cases signature : inst.portSignature with
  | some text =>
    exact ⟨fun _ => ⟨inst.portSignature, rfl⟩, by simp⟩
  | none =>
    cases named : inst.name with
    | none => exact ⟨by simp, fun _ => ⟨_, rfl⟩⟩
    | some name =>
      cases element : inst.effectiveElement with
      | none => exact ⟨by simp, fun _ => ⟨_, rfl⟩⟩
      | some e =>
        cases text : e.toString true with
        | none => exact ⟨by simp [text], fun _ => ⟨.code .nullPtr, by simp only [text, Option.map_none]⟩⟩
        | some text' =>
          refine ⟨fun _ => ⟨some (DataElement.quoted name ++ text'), ?_⟩, by simp [text]⟩
          simp only [text, Option.map_some]

/-- The loop over the instances of one type fails only for an instance that is not signable. -/
theorem createPortSignatures_eq (instances : List PortInstance) :
    ((∀ inst ∈ instances, Signable inst) → ∃ instances',
      createPortSignatures instances = .ok instances' ∧
      ∀ (i : Nat) (inst : PortInstance), instances[i]? = some inst →
        ∃ signature, instances'[i]? = some { inst with portSignature := signature }) ∧
    ((∃ inst ∈ instances, ¬Signable inst) →
      ∃ failure, createPortSignatures instances = .error failure) := by
  induction instances with
  | nil => exact ⟨fun _ => ⟨[], rfl, nofun⟩, by simp⟩
  | cons inst rest ih =>
    obtain ⟨good, bad⟩ := createPortSignature_eq inst
    by_cases signable : Signable inst
    · obtain ⟨signature, created⟩ := good signable
      constructor
      · intro all
        obtain ⟨rest', createdRest, each⟩ := ih.1 fun inst mem => all inst (List.mem_cons_of_mem _ mem)
        refine ⟨{ inst with portSignature := signature } :: rest', ?_, ?_⟩
        · rw [createPortSignatures, created]
          simp only [createdRest]
        · intro i inst₁ here
          cases i with
          | zero =>
            cases here
            exact ⟨signature, rfl⟩
          | succ i => exact each i inst₁ here
      · rintro ⟨without, mem, not⟩
        rcases List.mem_cons.mp mem with rfl | mem
        · exact absurd signable not
        · obtain ⟨failure, failed⟩ := ih.2 ⟨without, mem, not⟩
          refine ⟨failure, ?_⟩
          rw [createPortSignatures, created]
          simp only [failed]
    · obtain ⟨failure, failed⟩ := bad signable
      refine ⟨fun all => absurd (all inst List.mem_cons_self) signable, fun _ => ⟨failure, ?_⟩⟩
      rw [createPortSignatures, failed]

theorem placedInstances_length (portType : PortType) (portId dataOffset : Nat)
    {instances : List PortInstance} {ports : List Port} (length : instances.length = ports.length) :
    (placedInstances portType portId dataOffset instances ports).length = ports.length := by
  induction ports generalizing portId dataOffset instances with
  | nil => rw [placedInstances, length]; nofun
  | cons port rest ih =>
    cases instances with
    | nil => simp at length
    | cons inst instances =>
      have lengthRest : instances.length = rest.length := by simpa using length
      rw [placedInstances]
      split
      · rw [List.length_cons, ih _ _ lengthRest, List.length_cons]
      · rw [List.length_cons, ih _ _ lengthRest, List.length_cons]

/-- Every port has its instance behind the loops, or else what was in the memory before. -/
theorem placedInstances_get (portType : PortType) (portId dataOffset : Nat)
    {instances : List PortInstance} {ports : List Port} {i : Nat} {inst : PortInstance} {port : Port}
    (here : instances[i]? = some inst) (there : ports[i]? = some port) :
    ∃ inst', (placedInstances portType portId dataOffset instances ports)[i]? = some inst' ∧
      ((∃ header offset, port.header? portType = some header ∧
          inst' = port.created portType (portId + i) offset header) ∨
        port.header? portType = none ∧ inst' = inst) := by
  induction ports generalizing portId dataOffset instances i with
  | nil => simp at there
  | cons first rest ih =>
    cases instances with
    | nil => simp at here
    | cons inst₁ instances =>
      rw [placedInstances]
      cases i with
      | zero =>
        cases here
        cases there
        cases found : port.header? portType with
        | none => exact ⟨inst, rfl, .inr ⟨rfl, rfl⟩⟩
        | some header => exact ⟨_, rfl, .inl ⟨header, dataOffset, rfl, rfl⟩⟩
      | succ i =>
        have shift : portId + (i + 1) = portId + 1 + i := by omega
        rw [shift]
        cases first.header? portType with
        | none => exact ih (portId + 1) dataOffset here there
        | some header => exact ih (portId + 1) (u32 (dataOffset + header.dataSize)) here there

/-- The port has no signature when its signature is to be made, and cannot get one: its element has no text, or
it was not created in this memory and has no name there. -/
def Port.Unsigned (port : Port) (portType : PortType) (memory : PortInstance) : Prop :=
  (port.header? portType = none → memory.portSignature = none) ∧
    (port.header? portType = none ∧ memory.name = none ∨ ∃ e, port.effectiveElement = some e ∧ ¬e.HasText)

/-- A failure of a port that create_ports_on_node_instance cannot miss: the loop stops at it or ends
with it, the port has no element, or the signature that it should have got cannot be made. A port that
was not created has the signature and the name that lie in the memory of its instance. -/
def Noticed (mode : Mode) (memory : PortMemory) (node : Node) (portType : PortType) : Prop :=
  (∃ port ∈ node.ports portType, port.Stops portType) ∨
  (∃ last, (node.ports portType).getLast? = some last ∧ last.header? portType = none) ∨
  (∃ port ∈ node.ports portType, port.effectiveElement = none) ∨
  mode = .server ∧ ∃ (i : Nat) (port : Port), (node.ports portType)[i]? = some port ∧
    port.Unsigned portType (memory portType i)

/-- The loop over the ports of one type and the step for their elements, where nothing is noticed -/
structure Placed (memory : PortMemory) (portType : PortType) (ports : List Port)
    (instances : List PortInstance) : Prop where
  each : ∀ (i : Nat) (port : Port), ports[i]? = some port → ∃ e inst, instances[i]? = some inst ∧
    port.effectiveElement = some e ∧
    (∃ e', inst.effectiveElement = some e' ∧ (e'.HasText ↔ e.HasText)) ∧
    (inst.portSignature = none ∧ port.Created portType i inst ∨
      port.header? portType = none ∧ inst.portSignature = (memory portType i).portSignature ∧
        inst.name = (memory portType i).name)

theorem allocPortInstances_get (memory : PortMemory) (portType : PortType) {count i : Nat}
    (inside : i < count) :
    (allocPortInstances memory portType count)[i]? = some (memory portType i) := by
  simp [allocPortInstances, inside]

theorem createPortInstances_result (memory : PortMemory) (portType : PortType) (ports : List Port) :
    ((∀ port ∈ ports, ¬port.Stops portType) ∧
        (∀ last, ports.getLast? = some last → last.header? portType ≠ none) →
      ∃ dataOffset, createPortInstances portType (allocPortInstances memory portType ports.length)
        0 0 none ports = .ok (placedInstances portType 0 0
          (allocPortInstances memory portType ports.length) ports, dataOffset)) ∧
    (((∃ port ∈ ports, port.Stops portType) ∨
        ∃ last, ports.getLast? = some last ∧ last.header? portType = none) →
      ∃ failure, createPortInstances portType (allocPortInstances memory portType ports.length)
        0 0 none ports = .error failure) := by
  have length : (allocPortInstances memory portType ports.length).length = ports.length := by
    simp [allocPortInstances]
  have loop := createPortInstances_eq portType ports [] _ 0 none length
  simp only [List.nil_append, List.length_nil] at loop
  have clear : EndsClear portType none ports ↔
      ∀ last, ports.getLast? = some last → last.header? portType ≠ none := by
    unfold EndsClear
    cases ports.getLast? <;> simp
  rw [clear] at loop
  constructor
  · intro passes
    exact ⟨_, loop.1 passes⟩
  · intro noticed
    apply loop.2
    rintro ⟨goesOn, ends⟩
    rcases noticed with ⟨port, mem, stops⟩ | ⟨last, isLast, fails⟩
    · exact goesOn port mem stops
    · exact ends last isLast fails

theorem Placed.of_steps {memory : PortMemory} {portType : PortType} {ports : List Port}
    {instances : List PortInstance}
    (supplied : ∀ (i : Nat) (inst : PortInstance) (port : Port),
      (placedInstances portType 0 0 (allocPortInstances memory portType ports.length) ports)[i]? =
        some inst → ports[i]? = some port →
      ∃ inst', instances[i]? = some inst' ∧ Supplied inst inst' port) :
    Placed memory portType ports instances := by
  constructor
  intro i port there
  have inside : i < ports.length := (List.getElem?_eq_some_iff.mp there).1
  obtain ⟨inst, here, which⟩ := placedInstances_get portType 0 0
    (allocPortInstances_get memory portType inside) there
  obtain ⟨inst', here', e, e', element, rfl, text⟩ := supplied i inst port here there
  refine ⟨e, _, here', element, ⟨e', rfl, text⟩, ?_⟩
  rcases which with ⟨header, offset, found, rfl⟩ | ⟨missing, rfl⟩
  · rw [Nat.zero_add]
    exact .inl ⟨rfl, header, offset, some e', none, found, rfl⟩
  · exact .inr ⟨missing, rfl, rfl⟩

theorem Placed.sign {memory : PortMemory} {portType : PortType} {ports : List Port}
    {instances : List PortInstance} (placed : Placed memory portType ports instances)
    (length : instances.length = ports.length) :
    ((∀ (i : Nat) (port : Port), ports[i]? = some port → ¬port.Unsigned portType (memory portType i)) →
      ∃ instances', createPortSignatures instances = .ok instances' ∧
        ∀ (i : Nat) (port : Port), ports[i]? = some port → port.header? portType ≠ none →
          ∃ inst, instances'[i]? = some inst ∧ port.Created portType i inst) ∧
    ((∃ (i : Nat) (port : Port), ports[i]? = some port ∧ port.Unsigned portType (memory portType i)) →
      ∃ failure, createPortSignatures instances = .error failure) := by
  obtain ⟨good, bad⟩ := createPortSignatures_eq instances
  constructor
  · intro signed
    have signable : ∀ inst ∈ instances, Signable inst := by
      intro inst mem
      obtain ⟨i, inside, rfl⟩ := List.mem_iff_getElem.mp mem
      have there := List.getElem?_eq_getElem (length ▸ inside : i < ports.length)
      obtain ⟨e, inst, here, element, ⟨e', element', text⟩, which⟩ := placed.each i _ there
      obtain rfl : instances[i] = inst := by simpa [inside] using here
      have notUnsigned := signed i _ there
      rcases which with ⟨-, header, _, _, _, found, created⟩ | ⟨missing, same, sameName⟩
      · have hasText : e.HasText := by
          by_contra without
          exact notUnsigned ⟨fun missing => absurd (missing.symm.trans found) nofun, .inr ⟨e, element, without⟩⟩
        exact .inr ⟨by rw [created]; exact Option.some_ne_none _, e', element', text.mpr hasText⟩
      · by_cases there' : (memory portType i).portSignature = none
        · refine .inr ⟨?_, e', element', text.mpr ?_⟩
          · intro absent
            exact notUnsigned ⟨fun _ => there', .inl ⟨missing, sameName.symm.trans absent⟩⟩
          · by_contra without
            exact notUnsigned ⟨fun _ => there', .inr ⟨e, element, without⟩⟩
        · exact .inl (same ▸ there')
    obtain ⟨instances', created, each⟩ := good signable
    refine ⟨instances', created, ?_⟩
    intro i port there compiles
    obtain ⟨e, inst, here, -, -, which⟩ := placed.each i port there
    obtain ⟨signature, here'⟩ := each i inst here
    refine ⟨_, here', ?_⟩
    rcases which with ⟨-, header, offset, element, signature', found, rfl⟩ | ⟨missing, -⟩
    · exact ⟨header, offset, element, signature, found, rfl⟩
    · exact absurd missing compiles
  · rintro ⟨i, port, there, unsigned, why⟩
    obtain ⟨e, inst, here, element, ⟨e', element', text⟩, which⟩ := placed.each i port there
    apply bad
    refine ⟨inst, List.mem_of_getElem? here, ?_⟩
    rintro (signed | ⟨named, e₂, element₂, hasText⟩)
    · rcases which with ⟨absent, -⟩ | ⟨missing, same, -⟩
      · exact signed absent
      · exact signed (same.trans (unsigned missing))
    · rcases why with ⟨missing, nameless⟩ | ⟨e₁, element₁, without⟩
      · rcases which with ⟨-, header, _, _, _, found, -⟩ | ⟨-, -, sameName⟩
        · exact absurd (missing.symm.trans found) nofun
        · exact named (sameName.trans nameless)
      · obtain rfl : e = e₁ := Option.some.inj (element.symm.trans element₁)
        obtain rfl : e' = e₂ := Option.some.inj (element'.symm.trans element₂)
        exact without (text.mp hasText)

/-- Where nothing is noticed, create_ports_on_node_instance succeeds, and leaves an instance for every
port that did not fail. -/
theorem createPorts_succeeds {mode : Mode} {memory : PortMemory} {node : Node}
    (unnoticed : ∀ portType, ¬Noticed mode memory node portType) :
    ∃ built, createPortsOnNodeInstance mode memory node = .ok built ∧
      ∀ portType (i : Nat) (port : Port), (node.ports portType)[i]? = some port →
        port.header? portType ≠ none →
        ∃ inst, (built.ports portType)[i]? = some inst ∧ port.Created portType i inst := by
  simp only [Noticed, not_or] at unnoticed
  have loops (portType : PortType) := (createPortInstances_result memory portType (node.ports portType)).1
    ⟨fun port mem stops => (unnoticed portType).1 ⟨port, mem, stops⟩,
      fun last isLast fails => (unnoticed portType).2.1 ⟨last, isLast, fails⟩⟩
  have elements (portType : PortType) : ∀ port ∈ node.ports portType, port.effectiveElement ≠ none :=
    fun port mem absent => (unnoticed portType).2.2.1 ⟨port, mem, absent⟩
  have count (portType : PortType) : (placedInstances portType 0 0
      (allocPortInstances memory portType (node.ports portType).length) (node.ports portType)).length =
        (node.ports portType).length :=
    placedInstances_length portType 0 0 (by simp [allocPortInstances])
  obtain ⟨provideSize, provideLoop⟩ := loops .provide
  obtain ⟨requireSize, requireLoop⟩ := loops .require
  obtain ⟨table, provides, provideStep, texts, provideCount, provideEach⟩ :=
    (@ElementTable.updateAll_eq {} (by simp [ElementTable.WithTexts]) _ _
      (count .provide)).1 (elements .provide)
  obtain ⟨table', requires, requireStep, -, requireCount, requireEach⟩ :=
    (ElementTable.updateAll_eq texts (count .require)).1 (elements .require)
  have provided := Placed.of_steps provideEach
  have required := Placed.of_steps requireEach
  simp only [Node.ports] at provideLoop requireLoop provideStep requireStep
  unfold createPortsOnNodeInstance
  rw [provideLoop]
  simp only [requireLoop, provideStep, requireStep]
  by_cases server : mode = .server
  · -- the signatures come last
    have signed (portType : PortType) : ∀ (i : Nat) (port : Port), (node.ports portType)[i]? = some port →
        ¬port.Unsigned portType (memory portType i) :=
      fun i port there unsigned => (unnoticed portType).2.2.2 ⟨server, i, port, there, unsigned⟩
    obtain ⟨provides', provideSigned, provideCreated⟩ :=
      (provided.sign provideCount).1 (signed .provide)
    obtain ⟨requires', requireSigned, requireCreated⟩ :=
      (required.sign requireCount).1 (signed .require)
    rw [if_pos server, provideSigned]
    simp only [requireSigned]
    refine ⟨_, rfl, ?_⟩
    intro portType i port there compiles
    cases portType with
    | provide => exact provideCreated i port there compiles
    | require => exact requireCreated i port there compiles
  · rw [if_neg server]
    refine ⟨_, rfl, ?_⟩
    have created {portType : PortType} {instances : List PortInstance}
        (placed : Placed memory portType (node.ports portType) instances) (i : Nat) (port : Port)
        (there : (node.ports portType)[i]? = some port) (compiles : port.header? portType ≠ none) :
        ∃ inst, instances[i]? = some inst ∧ port.Created portType i inst := by
      obtain ⟨e, inst, here, -, -, which⟩ := placed.each i port there
      rcases which with ⟨-, created⟩ | ⟨missing, -⟩
      · exact ⟨inst, here, created⟩
      · exact absurd missing compiles
    intro portType i port there compiles
    cases portType with
    | provide => exact created provided i port there compiles
    | require => exact created required i port there compiles

/-- Where a failure is noticed, create_ports_on_node_instance returns an error. -/
theorem createPorts_fails {mode : Mode} {memory : PortMemory} {node : Node}
    (noticed : ∃ portType, Noticed mode memory node portType) :
    ∃ failure, createPortsOnNodeInstance mode memory node = .error failure := by
  have count (portType : PortType) : (placedInstances portType 0 0
      (allocPortInstances memory portType (node.ports portType).length) (node.ports portType)).length =
        (node.ports portType).length :=
    placedInstances_length portType 0 0 (by simp [allocPortInstances])
  have loop (portType : PortType) := createPortInstances_result memory portType (node.ports portType)
  have stopped (portType : PortType) (not : ¬((∀ port ∈ node.ports portType, ¬port.Stops portType) ∧
      ∀ last, (node.ports portType).getLast? = some last → last.header? portType ≠ none)) :=
    (loop portType).2 (by
      by_contra neither
      rw [not_or] at neither
      exact not ⟨fun port mem stops => neither.1 ⟨port, mem, stops⟩,
        fun last isLast fails => neither.2 ⟨last, isLast, fails⟩⟩)
  unfold createPortsOnNodeInstance
  -- the steps in their order, each with the failure that ends the call there
  by_cases provideGoesOn : (∀ port ∈ node.ports .provide, ¬port.Stops .provide) ∧
      ∀ last, (node.ports .provide).getLast? = some last → last.header? .provide ≠ none
  case neg =>
    obtain ⟨failure, failed⟩ := stopped .provide provideGoesOn
    rw [show node.providePorts = node.ports .provide from rfl, failed]
    exact ⟨failure, rfl⟩
  obtain ⟨provideSize, provideLoop⟩ := (loop .provide).1 provideGoesOn
  rw [show node.providePorts = node.ports .provide from rfl, provideLoop]
  by_cases requireGoesOn : (∀ port ∈ node.ports .require, ¬port.Stops .require) ∧
      ∀ last, (node.ports .require).getLast? = some last → last.header? .require ≠ none
  case neg =>
    obtain ⟨failure, failed⟩ := stopped .require requireGoesOn
    rw [show node.requirePorts = node.ports .require from rfl, failed]
    exact ⟨failure, rfl⟩
  obtain ⟨requireSize, requireLoop⟩ := (loop .require).1 requireGoesOn
  rw [show node.requirePorts = node.ports .require from rfl, requireLoop]
  have provideUpdate := @ElementTable.updateAll_eq {} (by simp [ElementTable.WithTexts]) _ _
    (count .provide)
  by_cases provideElement : ∃ port ∈ node.ports .provide, port.effectiveElement = none
  case pos =>
    obtain ⟨failure, failed⟩ := provideUpdate.2 provideElement
    simp only [failed]
    exact ⟨failure, rfl⟩
  obtain ⟨table, provides, provideStep, texts, provideCount, provideEach⟩ :=
    provideUpdate.1 fun port mem absent => provideElement ⟨port, mem, absent⟩
  simp only [provideStep]
  have requireUpdate := ElementTable.updateAll_eq texts (count .require)
  by_cases requireElement : ∃ port ∈ node.ports .require, port.effectiveElement = none
  case pos =>
    obtain ⟨failure, failed⟩ := requireUpdate.2 requireElement
    simp only [failed]
    exact ⟨failure, rfl⟩
  obtain ⟨table', requires, requireStep, -, requireCount, requireEach⟩ :=
    requireUpdate.1 fun port mem absent => requireElement ⟨port, mem, absent⟩
  simp only [requireStep]
  have provideSign := (Placed.of_steps provideEach).sign provideCount
  have requireSign := (Placed.of_steps requireEach).sign requireCount
  -- only a signature is left to fail
  obtain ⟨portType, stops | ⟨last, isLast, fails⟩ | element | ⟨server, unsignable⟩⟩ := noticed
  · obtain ⟨port, mem, stops⟩ := stops
    cases portType with
    | provide => exact absurd stops (provideGoesOn.1 port mem)
    | require => exact absurd stops (requireGoesOn.1 port mem)
  · cases portType with
    | provide => exact absurd fails (provideGoesOn.2 last isLast)
    | require => exact absurd fails (requireGoesOn.2 last isLast)
  · cases portType with
    | provide => exact absurd element provideElement
    | require => exact absurd element requireElement
  · rw [if_pos server]
    cases portType with
    | provide =>
      obtain ⟨failure, failed⟩ := provideSign.2 unsignable
      simp only [failed]
      exact ⟨failure, rfl⟩
    | require =>
      obtain ⟨failure, failed⟩ := requireSign.2 unsignable
      cases createPortSignatures provides with
      | error first => exact ⟨first, rfl⟩
      | ok provides' =>
        simp only [failed]
        exact ⟨failure, rfl⟩

/-- Every failure of a port is reported; and where create_ports_on_node_instance returns APX_NO_ERROR,
every port has its instance, with the programs compiled from it. -/
def ReportsFailures (mode : Mode) (memory : PortMemory) (node : Node) : Prop :=
  (∀ portType, ∀ port ∈ node.ports portType, port.header? portType = none →
    ∃ failure, createPortsOnNodeInstance mode memory node = .error failure) ∧
  ∀ built, createPortsOnNodeInstance mode memory node = .ok built →
    ∀ portType (i : Nat) (port : Port), (node.ports portType)[i]? = some port →
      ∃ inst, (built.ports portType)[i]? = some inst ∧ port.Created portType i inst

/-- The build reports the failures of its ports exactly when no port fails or a failure is one that it
notices: another failure is lost when the next port of its type compiles. -/
theorem reportsFailures_iff (mode : Mode) (memory : PortMemory) (node : Node) :
    ReportsFailures mode memory node ↔
      (∀ portType, ∀ port ∈ node.ports portType, port.header? portType ≠ none) ∨
      ∃ portType, Noticed mode memory node portType := by
  constructor
  · intro reports
    by_contra neither
    rw [not_or, not_exists] at neither
    obtain ⟨fails, unnoticed⟩ := neither
    obtain ⟨built, succeeds, -⟩ := createPorts_succeeds unnoticed
    apply fails
    intro portType port mem missing
    obtain ⟨failure, failed⟩ := reports.1 portType port mem missing
    rw [succeeds] at failed
    contradiction
  · intro condition
    by_cases noticed : ∃ portType, Noticed mode memory node portType
    · obtain ⟨failure, failed⟩ := createPorts_fails noticed
      refine ⟨fun _ _ _ _ => ⟨failure, failed⟩, ?_⟩
      intro built succeeds
      rw [failed] at succeeds
      contradiction
    · have compiles := condition.resolve_right noticed
      obtain ⟨built, succeeds, created⟩ := createPorts_succeeds (not_exists.mp noticed)
      refine ⟨fun portType port mem missing => absurd missing (compiles portType port mem), ?_⟩
      intro built' same portType i port there
      obtain rfl : built = built' := by
        rw [succeeds] at same
        exact Except.ok.inj same
      exact created portType i port there (compiles portType port (List.mem_of_getElem? there))

/-- A provide port of the type u, which has no instructions, and behind it one of the type C -/
def portLostBehind : Node where
  providePorts :=
    [{ name := ⟨[ascii 'x'], by decide⟩, dataElement := .leaf none .char16 0 false none,
       effectiveElement := some (.leaf none .char16 0 false none) },
     { name := ⟨[ascii 'y'], by decide⟩, dataElement := .leaf none .uint8 0 false none,
       effectiveElement := some (.leaf none .uint8 0 false none) }]
  requirePorts := []

theorem not_reportsFailures : ¬ReportsFailures .client (fun _ _ => {}) portLostBehind := by
  intro reports
  obtain ⟨failure, failed⟩ := reports.1 .provide _ List.mem_cons_self rfl
  have succeeds : (createPortsOnNodeInstance .client (fun _ _ => {}) portLostBehind).isOk = true := rfl
  rw [failed] at succeeds
  contradiction

end Apx
