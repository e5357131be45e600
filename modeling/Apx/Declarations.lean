import Apx.DataElement

/-! What the text of a node declares: its types and ports (data_type.c, port.c, node.c and
computation.c), as a parser leaves them. -/

namespace Apx

/-- The limits of a computation, as the words that hold them -/
structure ComputationRange where
  isSignedRange : Bool := false
  lowerLimit : BitVec 32 := 0
  upperLimit : BitVec 32 := 0
  deriving DecidableEq, Repr

/-- apx_valueTable_t and apx_rationalScaling_t. The offset stands as the word of its double. -/
inductive Computation where
  | valueTable (range : ComputationRange) (values : List Bytes)
  | rationalScaling (range : ComputationRange) (offset : BitVec 64) (numerator denominator : BitVec 32)
      (unit : Option CString)
  deriving DecidableEq, Repr

/-- apx_dataType_t. The element is null for a line without a signature. -/
structure DataType where
  name : CString
  dataElement : Option DataElement
  attributes : Option (List Computation) := none
  lineNumber : Int := 0
  deriving Repr

/-- apx_portAttributes_t -/
structure PortAttributes where
  isParameter : Bool := false
  queueLength : UInt32 := 0
  initValue : Option Dv := none
  deriving Repr

/-- apx_port_t, whose type is the list that it stands in -/
structure PortDeclaration where
  name : CString
  dataElement : Option DataElement
  effectiveElement : Option DataElement := none
  attributes : Option PortAttributes := none
  properInitValue : Option Dv := none
  lineNumber : Int := 0
  deriving Repr

/-- apx_node_t. The ids of types and ports are their places in the lists. -/
structure NodeDeclaration where
  name : CString
  dataTypes : List DataType := []
  providePorts : List PortDeclaration := []
  requirePorts : List PortDeclaration := []
  isFinalized : Bool := false
  deriving Repr

end Apx
