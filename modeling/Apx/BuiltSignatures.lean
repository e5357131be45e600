import Apx.NodeLayout
import Apx.PrintParse
import Apx.RoundTrip

/-! Nodes of parsed ports: each port instance gets its own element and signature, whatever other ports of the node share
with it, and instances of one signature have one layout. -/

namespace Apx

open Bstr DataElement SignatureParser

variable {bs : Bstr}

namespace DataElement

theorem withoutByteLimits_idem (e : DataElement) : e.withoutByteLimits.withoutByteLimits = e.withoutByteLimits := by
  induction e using tree_induction with
  | leaf name code n d limits =>
    rw [withoutByteLimits, withoutByteLimits]
    by_cases byte : code = .byte
    · rw [if_pos byte, if_pos byte, Option.map_map]
      rfl
    · rw [if_neg byte, if_neg byte]
  | record name n d elements ih =>
    rw [withoutByteLimits, withoutByteLimits, withoutByteLimitsFields_eq, withoutByteLimitsFields_eq, List.map_map]
    congr 1
    apply List.map_congr_left
    intro child mem
    exact ih child mem
  | refId => rfl
  | refName => rfl
  | refPtr => rfl

/-- Elements of declarations are told apart by their texts. -/
theorem eq_of_toString {e e' : DataElement} (parsable : e.Parsable) (parsable' : e'.Parsable) (closed : e.NamesClosed)
    (closed' : e'.NamesClosed) (unnamed : e.getName = none) (unnamed' : e'.getName = none) {text : Bytes}
    (written : e.toString false = some text) (written' : e'.toString false = some text) : e = e' := by
  have ends : NoSuffix [] := by
    constructor
    · intro mem
      cases mem
    · intro mem
      cases mem
  have read := @signature_toString Bstr.asciiLibrary e parsable closed text written [] ends
  have read' := @signature_toString Bstr.asciiLibrary e' parsable' closed' text written' [] ends
  rw [withName_none unnamed] at read
  rw [withName_none unnamed'] at read'
  exact (signature_unique (read.mono (by omega)) (read'.mono (by omega))).1

mutual

/-- No array is dynamic, be it of records or of others. -/
def Static : DataElement → Prop
  | .leaf _ _ _ isDynamic _ => isDynamic = false
  | .record _ _ isDynamic elements => isDynamic = false ∧ StaticFields elements
  | .refId _ _ isDynamic _ => isDynamic = false
  | .refName _ _ isDynamic _ => isDynamic = false
  | .refPtr _ _ isDynamic _ => isDynamic = false

def StaticFields : List DataElement → Prop
  | [] => True
  | child :: rest => Static child ∧ StaticFields rest

end

theorem staticFields_iff (elements : List DataElement) : StaticFields elements ↔ ∀ child ∈ elements, child.Static := by
  induction elements with
  | nil => exact iff_of_true trivial fun _ mem => absurd mem List.not_mem_nil
  | cons child rest ih => rw [StaticFields, ih, List.forall_mem_cons]

theorem withoutMaximaFields_eq (elements : List DataElement) :
    withoutMaximaFields elements = elements.map withoutMaxima := by
  induction elements with
  | nil => rfl
  | cons child rest ih => rw [withoutMaximaFields, ih, List.map_cons]

/-- Only dynamic arrays have a maximum length. -/
theorem Static.eq_of_withoutMaxima {e e' : DataElement} (static : e.Static)
    (same : e'.withoutMaxima = e.withoutMaxima) : e' = e := by
  have length {n n' : UInt32} (same : (if false = true then 1 else n') = if false = true then 1 else n) : n' = n := by
    rwa [if_neg Bool.false_ne_true, if_neg Bool.false_ne_true] at same
  induction e using tree_induction generalizing e' with
  | leaf name code n d limits =>
    obtain rfl : d = false := static
    cases e' <;> simp only [withoutMaxima, reduceCtorEq, leaf.injEq] at same
    obtain ⟨rfl, rfl, lengths, rfl, rfl⟩ := same
    rw [length lengths]
  | record name n d elements ih =>
    obtain ⟨rfl, members⟩ := static
    cases e' <;> simp only [withoutMaxima, reduceCtorEq, record.injEq] at same
    next elements' =>
    obtain ⟨rfl, lengths, rfl, fields⟩ := same
    rw [length lengths]
    congr 1
    rw [staticFields_iff] at members
    rw [withoutMaximaFields_eq, withoutMaximaFields_eq] at fields
    clear lengths
    induction elements generalizing elements' with
    | nil => exact List.map_eq_nil_iff.mp fields
    | cons child rest ihRest =>
      cases elements' with
      | nil => cases fields
      | cons child' rest' =>
        obtain ⟨head, tail⟩ := List.cons.inj fields
        rw [ih child List.mem_cons_self (members child List.mem_cons_self) head,
          ihRest (fun x mem => ih x (List.mem_cons_of_mem _ mem))
            (fun x mem => members x (List.mem_cons_of_mem _ mem)) rest' tail]
  | refId name n d id =>
    obtain rfl : d = false := static
    cases e' <;> simp only [withoutMaxima, reduceCtorEq, refId.injEq] at same
    obtain ⟨rfl, lengths, rfl, rfl⟩ := same
    rw [length lengths]
  | refName name n d typeName =>
    obtain rfl : d = false := static
    cases e' <;> simp only [withoutMaxima, reduceCtorEq, refName.injEq] at same
    obtain ⟨rfl, lengths, rfl, rfl⟩ := same
    rw [length lengths]
  | refPtr name n d target =>
    obtain rfl : d = false := static
    cases e' <;> simp only [withoutMaxima, reduceCtorEq, refPtr.injEq] at same
    obtain ⟨rfl, lengths, rfl, rfl⟩ := same
    rw [length lengths]

theorem Static.fixed {e : DataElement} (static : e.Static) (noReference : ¬e.HasReference) : e.Fixed := by
  induction e using tree_induction with
  | leaf => exact static
  | record name n d elements ih =>
    obtain ⟨-, members⟩ := static
    rw [Fixed]
    rw [HasReference] at noReference
    induction elements with
    | nil => trivial
    | cons child rest ihRest =>
      rw [HasReferences, not_or] at noReference
      exact ⟨ih child List.mem_cons_self members.1 noReference.1,
        ihRest (fun x mem => ih x (List.mem_cons_of_mem _ mem)) noReference.2 members.2⟩
  | refId => trivial
  | refName => trivial
  | refPtr => exact absurd trivial noReference

end DataElement

namespace ParsedPort

/-- What apx_node_finalize makes of the element of the port -/
def effective (p : ParsedPort bs) : DataElement := p.element.clone

section
variable (p q : ParsedPort bs)

theorem effective_eq : p.effective = p.element.withoutByteLimits := clone_of_parsable p.parsable

theorem effective_parsable : p.effective.Parsable := by
  rw [effective_eq]
  exact parsable_withoutByteLimits p.parsable

theorem effective_unnamed : p.effective.getName = none := by
  rw [effective_eq, getName_withoutByteLimits]
  exact p.unnamed

theorem effective_clone : p.effective.clone = p.effective := by
  rw [clone_of_parsable p.effective_parsable, effective_eq, withoutByteLimits_idem]

theorem signature_effective : p.signature = portSignature p.name.bytes p.effective := by
  rw [effective_eq]
  exact p.signature_eq

variable {p q}

theorem effective_closed (closed : p.element.NamesClosed) : p.effective.NamesClosed := by
  rw [effective_eq]
  exact namesClosed_withoutByteLimits closed

/-- A signature tells the element that it is made of, if no array in that is dynamic. -/
theorem effective_of_signature (closed : p.element.NamesClosed) (closed' : q.element.NamesClosed)
    (static : p.effective.Static) (same : q.signature = p.signature) : q.effective = p.effective := by
  have elements := ((signature_eq_iff q p closed' closed).mp same).2
  rw [← effective_eq, ← effective_eq] at elements
  exact static.eq_of_withoutMaxima elements

end

/-- The port as apx_node_finalize leaves it -/
structure Finalizes (p : ParsedPort bs) (port : Port) : Prop where
  closed : p.element.NamesClosed
  name : port.name = p.name
  dataElement : port.dataElement = p.element
  effectiveElement : port.effectiveElement = some p.effective

end ParsedPort

/-! Ports of one node share their elements. -/

def PortInstance.withElement (inst : PortInstance) (port : Port) : PortInstance :=
  { inst with effectiveElement := port.effectiveElement }

/-- The elements in the map stand under their own texts. -/
def ElementTable.Shares (bs : Bstr) (table : ElementTable) : Prop :=
  ∀ entry ∈ table.map, ∃ p : ParsedPort bs, p.element.NamesClosed ∧ entry.2 = p.effective ∧
    p.effective.toString false = some entry.1

/-- Whether it is found in the map or not, an instance gets the element of its port. -/
theorem ElementTable.update_shares {table table' : ElementTable} (shares : table.Shares bs) {inst inst' : PortInstance}
    {port : Port} {p : ParsedPort bs} (finalizes : p.Finalizes port)
    (updated : table.update inst port = .ok (table', inst')) : table'.Shares bs ∧ inst' = inst.withElement port := by
  obtain ⟨text, written⟩ := exists_toString false p.effective_parsable
  rw [ElementTable.update, finalizes.effectiveElement] at updated
  simp only [written, Option.bind_some, p.effective_clone] at updated
  rw [PortInstance.withElement, finalizes.effectiveElement]
  cases found : table.map.lookup text with
  | none =>
    rw [found] at updated
    cases updated
    refine ⟨fun entry mem => ?_, rfl⟩
    rcases List.mem_cons.mp mem with rfl | old
    · exact ⟨p, finalizes.closed, rfl, written⟩
    · exact shares entry old
  | some existing =>
    rw [found] at updated
    cases updated
    obtain ⟨front, back, entries, -⟩ := List.lookup_eq_some_iff.mp found
    have mem : (text, existing) ∈ table.map := by
      rw [entries]
      exact List.mem_append_right _ List.mem_cons_self
    obtain ⟨q, closed, is, written'⟩ := shares _ mem
    obtain rfl : existing = q.effective := is
    have same : q.effective = p.effective := eq_of_toString q.effective_parsable p.effective_parsable
      (ParsedPort.effective_closed closed) (ParsedPort.effective_closed finalizes.closed) q.effective_unnamed
      p.effective_unnamed written' written
    exact ⟨shares, by rw [same]⟩

theorem ElementTable.updateAll_shares {table table' : ElementTable} (shares : table.Shares bs)
    {instances instances' : List PortInstance} {ports : List Port} (length : instances.length = ports.length)
    (finalized : ∀ port ∈ ports, ∃ p : ParsedPort bs, p.Finalizes port)
    (updated : table.updateAll instances ports = .ok (table', instances')) :
    table'.Shares bs ∧ instances' = instances.zipWith PortInstance.withElement ports := by
  induction ports generalizing table instances instances' with
  | nil =>
    obtain rfl := List.length_eq_zero_iff.mp length
    cases updated
    exact ⟨shares, rfl⟩
  | cons port rest ih =>
    cases instances with
    | nil => cases length
    | cons inst others =>
      rw [ElementTable.updateAll] at updated
      cases first : table.update inst port with
      | error failure =>
        rw [first] at updated
        contradiction
      | ok next =>
        obtain ⟨table₁, inst'⟩ := next
        rw [first] at updated
        dsimp only at updated
        obtain ⟨p, finalizes⟩ := finalized port List.mem_cons_self
        obtain ⟨shares₁, rfl⟩ := update_shares shares finalizes first
        cases later : table₁.updateAll others rest with
        | error failure =>
          rw [later] at updated
          contradiction
        | ok all =>
          obtain ⟨table₂, others'⟩ := all
          rw [later] at updated
          cases updated
          obtain ⟨shares₂, rfl⟩ := ih shares₁ (Nat.succ.inj length)
            (fun port mem => finalized port (List.mem_cons_of_mem _ mem)) later
          exact ⟨shares₂, rfl⟩

def PortInstance.signed (inst : PortInstance) : PortInstance :=
  { inst with portSignature := inst.portSignature <|>
      inst.name.bind fun name => inst.effectiveElement.bind (DataElement.portSignature name) }

theorem PortInstance.createPortSignature_signed {inst inst' : PortInstance}
    (created : inst.createPortSignature = .ok inst') : inst' = inst.signed := by
  rw [createPortSignature] at created
  rw [signed]
  cases signature : inst.portSignature with
  | some text =>
    rw [signature] at created
    cases created
    cases inst
    cases signature
    rfl
  | none =>
    cases named : inst.name with
    | none =>
      rw [signature, named] at created
      contradiction
    | some name =>
      cases element : inst.effectiveElement with
      | none =>
        simp only [signature, named, element] at created
        contradiction
      | some e =>
        cases text : DataElement.portSignature name e with
        | none =>
          simp only [signature, named, element, text] at created
          contradiction
        | some text' =>
          simp only [signature, named, element, text] at created
          cases created
          rw [Option.bind_some, Option.bind_some, text]
          rfl

theorem createPortSignatures_signed {instances instances' : List PortInstance}
    (created : createPortSignatures instances = .ok instances') : instances' = instances.map PortInstance.signed := by
  induction instances generalizing instances' with
  | nil =>
    cases created
    rfl
  | cons inst rest ih =>
    rw [createPortSignatures] at created
    cases first : inst.createPortSignature with
    | error failure =>
      rw [first] at created
      contradiction
    | ok inst' =>
      rw [first] at created
      dsimp only at created
      cases later : createPortSignatures rest with
      | error failure =>
        rw [later] at created
        contradiction
      | ok rest' =>
        rw [later] at created
        cases created
        rw [PortInstance.createPortSignature_signed first, ih later]
        rfl

/-- The instances that the loops leave for the ports of one type -/
def Node.placed (node : Node) (memory : PortMemory) (portType : PortType) : List PortInstance :=
  placedInstances portType 0 0 (allocPortInstances memory portType (node.ports portType).length) (node.ports portType)

theorem Node.placed_length (node : Node) (memory : PortMemory) (portType : PortType) :
    (node.placed memory portType).length = (node.ports portType).length :=
  placedInstances_length portType 0 0 (by rw [allocPortInstances, List.length_map, List.length_range])

/-- What a server has done where it has built the ports of a node -/
structure BuildsPorts (node : Node) (memory : PortMemory) (built : PortsBuilt) : Prop where
  steps : ∃ table table' provides requires,
    ElementTable.updateAll {} (node.placed memory .provide) node.providePorts = .ok (table, provides) ∧
    table.updateAll (node.placed memory .require) node.requirePorts = .ok (table', requires) ∧
    createPortSignatures provides = .ok built.providePorts ∧
    createPortSignatures requires = .ok built.requirePorts

theorem createPorts_builds {memory : PortMemory} {node : Node} {built : PortsBuilt}
    (done : createPortsOnNodeInstance .server memory node = .ok built) : BuildsPorts node memory built := by
  unfold createPortsOnNodeInstance at done
  cases provideLoop : createPortInstances .provide
      (allocPortInstances memory .provide node.providePorts.length) 0 0 none node.providePorts with
  | error failure =>
    rw [provideLoop] at done
    contradiction
  | ok provided =>
  obtain ⟨provides, provideSize⟩ := provided
  cases requireLoop : createPortInstances .require
      (allocPortInstances memory .require node.requirePorts.length) 0 0 none node.requirePorts with
  | error failure =>
    simp only [provideLoop, requireLoop] at done
    contradiction
  | ok required =>
  obtain ⟨requires, requireSize⟩ := required
  cases provideStep : ElementTable.updateAll {} provides node.providePorts with
  | error failure =>
    simp only [provideLoop, requireLoop, provideStep] at done
    contradiction
  | ok updated =>
  obtain ⟨table, provides'⟩ := updated
  cases requireStep : table.updateAll requires node.requirePorts with
  | error failure =>
    simp only [provideLoop, requireLoop, provideStep, requireStep] at done
    contradiction
  | ok updated =>
  obtain ⟨table', requires'⟩ := updated
  simp only [provideLoop, requireLoop, provideStep, requireStep, if_true] at done
  cases provideSigned : createPortSignatures provides' with
  | error failure =>
    simp only [provideSigned] at done
    contradiction
  | ok provides'' =>
  cases requireSigned : createPortSignatures requires' with
  | error failure =>
    simp only [provideSigned, requireSigned] at done
    contradiction
  | ok requires'' =>
  simp only [provideSigned, requireSigned] at done
  cases done
  obtain ⟨rfl, -⟩ := createPortInstances_placed provideLoop
  obtain ⟨rfl, -⟩ := createPortInstances_placed requireLoop
  exact ⟨table, table', provides', requires', provideStep, requireStep, provideSigned, requireSigned⟩

theorem BuildsPorts.ports {node : Node} {memory : PortMemory} {built : PortsBuilt} (builds : BuildsPorts node memory built)
    (finalized : ∀ portType, ∀ port ∈ node.ports portType, ∃ p : ParsedPort bs, p.Finalizes port)
    (portType : PortType) : built.ports portType =
      ((node.placed memory portType).zipWith PortInstance.withElement (node.ports portType)).map PortInstance.signed := by
  obtain ⟨table, table', provides, requires, provideStep, requireStep, provideSigned, requireSigned⟩ := builds.steps
  have empty : ElementTable.Shares bs {} := fun entry mem => absurd mem List.not_mem_nil
  obtain ⟨shares, rfl⟩ := ElementTable.updateAll_shares empty (node.placed_length memory .provide)
    (finalized .provide) provideStep
  obtain ⟨-, rfl⟩ := ElementTable.updateAll_shares shares (node.placed_length memory .require)
    (finalized .require) requireStep
  cases portType with
  | provide => exact createPortSignatures_signed provideSigned
  | require => exact createPortSignatures_signed requireSigned

/-- The steps of the build behind the ports leave them as they are. -/
theorem buildNodeInstance_ports {dtl : Dtl} {fuel : Nat} {mode : Mode} {instances : PortMemory} {memory : ScalarWord}
    {node : Node} {inst : NodeInstance}
    (done : buildNodeInstance dtl fuel mode instances memory node = some (.ok inst)) :
    ∃ built, createPortsOnNodeInstance mode instances node = .ok built ∧
      ∀ portType, inst.ports portType = built.ports portType := by
  unfold buildNodeInstance at done
  cases ports : createPortsOnNodeInstance mode instances node with
  | error failure => simp only [ports, Option.some.injEq, reduceCtorEq] at done
  | ok built =>
  refine ⟨built, rfl, fun portType => ?_⟩
  simp only [ports] at done
  split at done
  · contradiction
  · cases done
  split at done
  · cases done
  split at done
  · cases done
  split at done
  · cases done
  cases done
  cases portType <;> rfl

/-! The instance of a parsed port -/

def PortInstance.program (inst : PortInstance) : Option Bytes :=
  if inst.portType = .provide then inst.packProgram else inst.unpackProgram

def PortType.programType : PortType → ProgramType
  | .provide => .pack
  | .require => .unpack

/-- The instance was made of the parsed port. -/
structure ParsedPort.Makes (p : ParsedPort bs) (portType : PortType) (portId : Nat) (inst : PortInstance) : Prop where
  closed : p.element.NamesClosed
  created : ∃ port, p.Finalizes port ∧ port.queueLength = 0 ∧ port.Created portType portId inst
  effectiveElement : inst.effectiveElement = some p.effective
  portSignature : inst.portSignature = p.signature

/-- Where the build succeeds, a port that compiles gets an instance with its own element and signature. -/
theorem createPorts_makes {memory : PortMemory} {node : Node} {built : PortsBuilt}
    (finalized : ∀ portType, ∀ port ∈ node.ports portType, ∃ p : ParsedPort bs, p.Finalizes port)
    (done : createPortsOnNodeInstance .server memory node = .ok built) {portType : PortType} {i : Nat} {port : Port}
    (there : (node.ports portType)[i]? = some port) {p : ParsedPort bs} (finalizes : p.Finalizes port)
    (unqueued : port.queueLength = 0) (compiles : port.header? portType ≠ none) :
    ∃ inst, (built.ports portType)[i]? = some inst ∧ p.Makes portType i inst := by
  have inside : i < (node.ports portType).length := (List.getElem?_eq_some_iff.mp there).1
  obtain ⟨inst, here, which⟩ := placedInstances_get portType 0 0 (allocPortInstances_get memory portType inside) there
  rcases which with ⟨header, offset, found, rfl⟩ | ⟨missing, -⟩
  · rw [Nat.zero_add] at here
    have same : (built.ports portType)[i]? =
        some ((port.created portType i offset header).withElement port).signed := by
      rw [(createPorts_builds done).ports finalized portType, List.getElem?_map, List.getElem?_zipWith, Node.placed, here,
        there]
      rfl
    refine ⟨_, same, finalizes.closed, ⟨port, finalizes, unqueued, header, offset, _, _, found, rfl⟩,
      finalizes.effectiveElement, ?_⟩
    rw [p.signature_effective, ← finalizes.name, PortInstance.signed, PortInstance.withElement,
      finalizes.effectiveElement]
    rfl
  · exact absurd missing compiles

theorem header_compiled {e : DataElement} {programType : ProgramType} {program : Bytes}
    (compiled : Compiled e programType program) {next : Nat} {header : ProgramHeader}
    (decoded : decodeHeader program 0 {} = .ok () (next, header)) :
    header.dataSize = e.emittedSize % 2 ^ 32 ∧ header.queueLength = 0 := by
  obtain ⟨d', isDynamic, code, selected, -⟩ := (selects_compiled e.limitsFit_narrow
    ((compilePort_narrow e 0 programType).trans compiled) .create {}).1 (.inl rfl)
  simp only [Decoder.parseProgramHeader, Decoder.selectProgram, decoded, Result.lift_ok, Result.ok.injEq,
    Prod.mk.injEq, true_and] at selected
  rw [selected.2, e.emittedSize_narrow]
  exact ⟨rfl, rfl⟩

theorem Port.Created.compiled {port : Port} {portType : PortType} {portId : Nat} {inst : PortInstance}
    (created : port.Created portType portId inst) {e : DataElement} (element : port.effectiveElement = some e)
    (unqueued : port.queueLength = 0) : ∃ program, inst.program = some program ∧
      Compiled e portType.programType program ∧ inst.dataSize = e.emittedSize % 2 ^ 32 ∧ inst.queueLength = 0 := by
  obtain ⟨header, offset, element', signature, found, rfl⟩ := created
  unfold Port.header? at found
  split at found
  · contradiction
  next pack unpack programs =>
  split at found
  · contradiction
  next program chosen =>
  split at found
  · contradiction
  next next_ header' decoded =>
  obtain rfl := Option.some.inj found
  have compiled : Compiled e portType.programType program := by
    cases portType with
    | provide =>
      simp only [Port.programs, Prod.mk.injEq] at programs
      obtain ⟨rfl, -, clear⟩ := programs
      obtain ⟨e', program', element', same, compiled⟩ := Port.compile_ok clear
      rw [if_pos rfl, same] at chosen
      obtain rfl := Option.some.inj chosen
      obtain rfl := Option.some.inj (element.symm.trans element')
      rw [unqueued] at compiled
      exact compiled
    | require =>
      rw [if_neg PortType.noConfusion] at chosen
      simp only [Port.programs] at programs
      cases clear : (port.compile .pack).error with
      | some failure =>
        rw [clear] at programs
        simp only [Prod.mk.injEq, reduceCtorEq, and_false] at programs
      | none =>
        simp only [clear, Prod.mk.injEq] at programs
        obtain ⟨-, rfl, clear'⟩ := programs
        obtain ⟨e', program', element', same, compiled⟩ := Port.compile_ok clear'
        rw [same] at chosen
        obtain rfl := Option.some.inj chosen
        obtain rfl := Option.some.inj (element.symm.trans element')
        rw [unqueued] at compiled
        exact compiled
  have is : (if portType = .provide then (port.programs portType).1 else (port.programs portType).2.1) = some program := by
    rw [programs]
    exact chosen
  obtain ⟨size, queue⟩ := header_compiled compiled decoded
  exact ⟨program, is, compiled, size, queue⟩

section
variable {p q : ParsedPort bs} {portType : PortType} {i j : Nat} {inst inst' : PortInstance}

theorem ParsedPort.Makes.compiled (makes : p.Makes portType i inst) : ∃ program, inst.program = some program ∧
    Compiled p.effective portType.programType program ∧ inst.dataSize = p.effective.emittedSize % 2 ^ 32 ∧
      inst.queueLength = 0 := by
  obtain ⟨port, finalizes, unqueued, created⟩ := makes.created
  exact created.compiled finalizes.effectiveElement unqueued

/-- Ports of one signature have one element, and with it one layout, if no array in that is dynamic. -/
theorem ParsedPort.Makes.sameLayout (makes : p.Makes .provide i inst) (makes' : q.Makes .require j inst')
    (static : p.effective.Static) (same : inst'.portSignature = inst.portSignature) :
    q.effective = p.effective ∧ inst'.dataSize = inst.dataSize := by
  rw [makes.portSignature, makes'.portSignature] at same
  have element := effective_of_signature makes.closed makes'.closed static same
  obtain ⟨-, -, -, size, -⟩ := makes.compiled
  obtain ⟨-, -, -, size', -⟩ := makes'.compiled
  rw [element] at size'
  exact ⟨element, size'.trans size.symm⟩

end

end Apx
