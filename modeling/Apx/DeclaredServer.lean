import Apx.BuiltSignatures
import Apx.RoutingRuns

/-! Servers whose nodes are built from parsed ports: what the runs of a server take for granted. -/

namespace Apx

open Bstr DataElement SignatureParser

variable {bs : Bstr}

namespace Server

/-- Every port instance was made of a parsed port without a queue and without dynamic arrays. -/
def Declared (bs : Bstr) (s : Server) : Prop :=
  ∀ portType ref inst, s.port portType ref = some inst →
    ∃ p : ParsedPort bs, p.Makes portType ref.portId inst ∧ p.effective.Static

/-- Every node was built from a definition, all ports of which are parsed ports without queues and dynamic arrays. -/
structure BuiltFrom (bs : Bstr) (dtl : Dtl) (definitions : Nat → Node) (s : Server) : Prop where
  finalized : ∀ n portType, ∀ port ∈ (definitions n).ports portType, ∃ p : ParsedPort bs, p.Finalizes port ∧
    p.effective.Static ∧ port.queueLength = 0
  representable : ∀ n portType, ∀ port ∈ (definitions n).ports portType, ∀ value ∈ port.properInitValue,
    value.Representable
  builds : ∀ n, ∃ fuel instances memory,
    buildNodeInstance dtl fuel .server instances memory (definitions n) = some (.ok (s.nodes n).inst)
  fits : ∀ n portType, (dataSizes ((s.nodes n).ports portType)).sum < 2 ^ 32
  table : ∀ n, (s.nodes n).connectorTable.length = ((s.nodes n).ports .provide).length

section
variable {s s' : Server} {dtl : Dtl} {definitions : Nat → Node}

theorem Declared.matching (declared : s.Declared bs) {signature : Bytes} {provide require : PortRef}
    (own : s.signature .provide provide = some signature) (own' : s.signature .require require = some signature) :
    ∃ p r, s.port .provide provide = some p ∧ s.port .require require = some r ∧ p.queueLength = 0 ∧
      p.dataSize = r.dataSize := by
  obtain ⟨p, here, signed⟩ := Option.bind_eq_some_iff.mp own
  obtain ⟨r, here', signed'⟩ := Option.bind_eq_some_iff.mp own'
  obtain ⟨port, makes, static⟩ := declared .provide provide p here
  obtain ⟨port', makes', -⟩ := declared .require require r here'
  obtain ⟨-, -, -, -, unqueued⟩ := makes.compiled
  obtain ⟨-, sizes⟩ := makes.sameLayout makes' static (signed'.trans signed.symm)
  exact ⟨p, r, here, here', unqueued, sizes.symm⟩

theorem SameBuild.declared (same : SameBuild s s') (declared : s.Declared bs) : s'.Declared bs := by
  intro portType ref inst here
  rw [same.port] at here
  exact declared portType ref inst here

namespace BuiltFrom

theorem builtPorts (built : s.BuiltFrom bs dtl definitions) (n : Nat) (portType : PortType) :
    BuiltPorts dtl portType ((definitions n).ports portType) ((s.nodes n).ports portType)
      ((s.nodes n).inst.portData portType) ∧
    (portType = .provide → newBytePortMap ((s.nodes n).ports .provide) ((s.nodes n).inst.portData .provide) =
      .ok (s.nodes n).inst.bytePortMap) := by
  obtain ⟨fuel, instances, memory, done⟩ := built.builds n
  obtain ⟨ports, -, mapped⟩ := buildNodeInstance_builtPorts (built.representable n) done (built.fits n) portType
  refine ⟨ports, ?_⟩
  rintro rfl
  exact mapped (.inl ⟨rfl, rfl⟩)

theorem arranged (built : s.BuiltFrom bs dtl definitions) (portType : PortType) (n : Nat) : s.Arranged portType n where
  offset := (built.builtPorts n portType).1.laidOut.offset
  size := (built.builtPorts n portType).1.laidOut.size

theorem declared (built : s.BuiltFrom bs dtl definitions) : s.Declared bs := by
  intro portType ref inst here
  obtain ⟨ports, -⟩ := built.builtPorts ref.node portType
  have inside : ref.portId < ((s.nodes ref.node).ports portType).length := (List.getElem?_eq_some_iff.mp here).1
  rw [ports.laidOut.count] at inside
  have there := List.getElem?_eq_getElem inside
  obtain ⟨header, -, -, -, found, -⟩ := ports.laidOut.created ref.portId _ inst there here
  obtain ⟨p, finalizes, static, unqueued⟩ := built.finalized ref.node portType _ (List.getElem_mem inside)
  obtain ⟨fuel, instances, memory, done⟩ := built.builds ref.node
  obtain ⟨made, created, same⟩ := buildNodeInstance_ports done
  have finalized (portType : PortType) : ∀ port ∈ (definitions ref.node).ports portType,
      ∃ p : ParsedPort bs, p.Finalizes port := by
    intro port mem
    obtain ⟨p, finalizes, -⟩ := built.finalized ref.node portType port mem
    exact ⟨p, finalizes⟩
  have compiles : ((definitions ref.node).ports portType)[ref.portId].header? portType ≠ none := by
    rw [found]
    exact Option.some_ne_none header
  obtain ⟨inst', here', makes⟩ := createPorts_makes finalized created there finalizes unqueued compiles
  rw [← same portType] at here'
  obtain rfl := Option.some.inj (here.symm.trans here')
  exact ⟨p, makes, static⟩

theorem wellBuilt (built : s.BuiltFrom bs dtl definitions) : s.WellBuilt where
  arranged := built.arranged
  provider n some_ := by
    obtain ⟨ports, mapped⟩ := built.builtPorts n .provide
    obtain ⟨map, made, maps⟩ := ports.maps
    obtain rfl := Except.ok.inj ((mapped rfl).symm.trans made)
    refine ⟨some_, built.arranged .provide n, ports.positive, ?_, maps, built.table n⟩
    rw [(built.arranged .provide n).size]
    exact built.fits n .provide
  table := built.table
  matching _ _ _ := built.declared.matching

theorem port (built : s.BuiltFrom bs dtl definitions) {portType : PortType} {ref : PortRef} {inst : PortInstance}
    (here : s.port portType ref = some inst) : ∃ p : ParsedPort bs, p.element.NamesClosed ∧ p.effective.Static ∧
      inst.name = some p.name.bytes ∧ inst.effectiveElement = some p.effective ∧ inst.portSignature = p.signature ∧
      inst.dataSize = p.effective.emittedSize % 2 ^ 32 := by
  obtain ⟨p, makes, static⟩ := built.declared portType ref inst here
  obtain ⟨-, -, -, size, -⟩ := makes.compiled
  obtain ⟨port, finalizes, -, header, offset, element, signature, -, rfl⟩ := makes.created
  exact ⟨p, makes.closed, static, congrArg (some ∘ CString.bytes) finalizes.name,
    makes.effectiveElement, makes.portSignature, size⟩

end BuiltFrom

end

end Server

section
variable {s : Server} {dtl : Dtl} {definitions : Nat → Node}

/-- The signatures of two ports of any nodes are equal if and only if their names and elements are, and with these also
the sizes of their data. -/
theorem Server.BuiltFrom.portSignature_eq_iff (built : s.BuiltFrom bs dtl definitions) {portType portType' : PortType}
    {ref ref' : PortRef} {inst inst' : PortInstance} (here : s.port portType ref = some inst)
    (here' : s.port portType' ref' = some inst') :
    (inst.portSignature = inst'.portSignature ↔
      inst.name = inst'.name ∧ inst.effectiveElement = inst'.effectiveElement) ∧
    (inst.portSignature = inst'.portSignature → inst.dataSize = inst'.dataSize) := by
  obtain ⟨p, closed, -, name, element, signature, size⟩ := built.port here
  obtain ⟨q, closed', static, name', element', signature', size'⟩ := built.port here'
  have tells : p.signature = q.signature → p.name = q.name ∧ p.effective = q.effective := fun same =>
    ⟨((p.signature_eq_iff q closed closed').mp same).1, ParsedPort.effective_of_signature closed' closed static same⟩
  rw [signature, signature', name, name', element, element', size, size']
  refine ⟨⟨fun same => ?_, fun both => ?_⟩, fun same => ?_⟩
  · obtain ⟨names, elements⟩ := tells same
    rw [names, elements]
    exact ⟨rfl, rfl⟩
  · obtain ⟨names, elements⟩ := both
    rw [p.signature_effective, q.signature_effective, Option.some.inj names, Option.some.inj elements]
  · rw [(tells same).2]

end

/-! A node with the port P"p"C, and one with the port R"p"C -/

def numberElement : DataElement := .leaf none .uint8 0 false none

theorem numberElement_parsable : numberElement.Parsable := by
  refine ⟨LeafCode.noConfusion, ?_, Bool.noConfusion⟩
  intro limits mem
  cases mem

def numberText : Bytes := [ascii 'p']

theorem numberText_declared : ∃ text, Closed text ∧ CString.ofBytes numberText = CString.ofBytes text :=
  ⟨numberText, by decide, rfl⟩

theorem numberElement_parsed : ∃ t rest, SignatureParser.Accepts Bstr.asciiLibrary t rest (some numberElement) := by
  have ends : NoSuffix [] := by
    constructor
    · intro mem
      cases mem
    · intro mem
      cases mem
  obtain ⟨text, written⟩ := DataElement.exists_toString false numberElement_parsable
  have signature := @signature_toString Bstr.asciiLibrary _ numberElement_parsable trivial _ written [] ends
  exact ⟨text ++ [], [], accepts_signature (signature.mono (by omega))⟩

def number : ParsedPort Bstr.asciiLibrary where
  name := CString.ofBytes numberText
  element := numberElement
  named := numberText_declared
  parsed := numberElement_parsed
  noReference := id
  positive := Bool.noConfusion

def numberPort : Port where
  name := CString.ofBytes numberText
  dataElement := numberElement
  effectiveElement := some numberElement

theorem number_finalizes : number.Finalizes numberPort := ⟨trivial, rfl, rfl, rfl⟩

def numberNodes : Nat → Node
  | 0 => ⟨[numberPort], []⟩
  | 1 => ⟨[], [numberPort]⟩
  | _ + 2 => ⟨[], []⟩

def numberBuilt (n : Nat) : Option NodeInstance :=
  (buildNodeInstance .numeric 3 .server (fun _ _ => {}) 0 (numberNodes n)).bind Except.toOption

def noInstance : NodeInstance where
  mode := .server
  providePorts := []
  requirePorts := []
  dataElements := []
  providePortInitData := none
  requirePortInitData := none
  providePortData := none
  requirePortData := none
  bytePortMap := none

def numberServer : Server where
  nodes n := {
    connection := n
    inst := (numberBuilt n).getD noInstance
    state := fun _ => .waitingForFileData
    connectorTable := (numberNodes n).providePorts.map fun _ => [] }

theorem numberBuilt_isSome (n : Nat) : (numberBuilt n).isSome := by
  match n with
  | 0 => decide +kernel
  | 1 => decide +kernel
  | n + 2 => rfl

theorem numberNodes_ports (n : Nat) (portType : PortType) : ∀ port ∈ (numberNodes n).ports portType,
    port = numberPort := by
  have all : ∀ port ∈ (numberNodes n).providePorts ++ (numberNodes n).requirePorts, port = numberPort := by
    intro port mem
    match n with
    | 0 => exact List.mem_singleton.mp mem
    | 1 => exact List.mem_singleton.mp mem
    | n + 2 => contradiction
  intro port mem
  cases portType with
  | provide => exact all port (List.mem_append_left _ mem)
  | require => exact all port (List.mem_append_right _ mem)

theorem numberServer_builtFrom : numberServer.BuiltFrom Bstr.asciiLibrary .numeric numberNodes where
  finalized n portType port mem := by
    obtain rfl := numberNodes_ports n portType port mem
    exact ⟨number, number_finalizes, rfl, rfl⟩
  representable n portType port mem value is := by
    obtain rfl := numberNodes_ports n portType port mem
    cases is
  builds n := by
    obtain ⟨inst, built⟩ := Option.isSome_iff_exists.mp (numberBuilt_isSome n)
    obtain ⟨result, done, ok⟩ := Option.bind_eq_some_iff.mp built
    refine ⟨3, fun _ _ => {}, 0, ?_⟩
    cases result with
    | error failure => contradiction
    | ok inst' =>
      obtain rfl := Option.some.inj ok
      rw [done, show (numberServer.nodes n).inst = (numberBuilt n).getD noInstance from rfl, built]
      rfl
  fits n portType := by
    match n with
    | 0 => cases portType <;> decide +kernel
    | 1 => cases portType <;> decide +kernel
    | n + 2 => cases portType <;> exact Nat.zero_lt_of_lt (Nat.lt_two_pow_self : 32 < _)
  table n := by
    match n with
    | 0 => decide +kernel
    | 1 => decide +kernel
    | n + 2 => rfl

/-- Both ports have instances of the parsed port. -/
theorem numberServer_makes {n : Nat} {portType : PortType}
    (there : ((numberNodes n).ports portType)[0]? = some numberPort) :
    ∃ inst, numberServer.port portType ⟨n, 0⟩ = some inst ∧ number.Makes portType 0 inst := by
  obtain ⟨fuel, instances, memory, done⟩ := numberServer_builtFrom.builds n
  obtain ⟨built, created, same⟩ := buildNodeInstance_ports done
  have finalized (portType : PortType) : ∀ port ∈ (numberNodes n).ports portType,
      ∃ p : ParsedPort Bstr.asciiLibrary, p.Finalizes port := by
    intro port mem
    obtain rfl := numberNodes_ports n portType port mem
    exact ⟨number, number_finalizes⟩
  have compiles : numberPort.header? portType ≠ none := by
    rw [Option.ne_none_iff_isSome]
    cases portType <;> decide +kernel
  obtain ⟨inst, here, makes⟩ := createPorts_makes finalized created there number_finalizes rfl compiles
  rw [← same portType] at here
  exact ⟨inst, here, makes⟩

theorem Server.BuiltFrom.portSignature_eq_iff_number : ∃ inst inst', numberServer.port .provide ⟨0, 0⟩ = some inst ∧
    numberServer.port .require ⟨1, 0⟩ = some inst' ∧
    (inst.portSignature = inst'.portSignature ↔
      inst.name = inst'.name ∧ inst.effectiveElement = inst'.effectiveElement) ∧
    (inst.portSignature = inst'.portSignature → inst.dataSize = inst'.dataSize) := by
  obtain ⟨inst, here, -⟩ := @numberServer_makes 0 .provide rfl
  obtain ⟨inst', here', -⟩ := @numberServer_makes 1 .require rfl
  exact ⟨inst, inst', here, here', numberServer_builtFrom.portSignature_eq_iff here here'⟩

end Apx
