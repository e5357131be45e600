import Apx.DeclaredServer

/-! From value to value: what a client packs for a connected provide port, the clients of all require ports that are
connected to it unpack. -/

namespace Apx

open Bstr SignatureParser LittleEndian DataElement

variable {bs : Bstr}

namespace Vm

/-- No packing and no unpacking has been left half way. -/
structure Idle (vm : Vm) : Prop where
  packs : vm.serializer.queuedWriteState = {}
  unpacks : vm.deserializer.queuedReadState.isActive = false
  stack : vm.deserializer.stack = []

section
variable {dtl : Dtl} {e : DataElement} {value : Dv}

end

end Vm

namespace Server

section
variable {carried : Nat → Prop} {s s' : Server}

theorem SameButData.state (same : SameButData s s') (n : Nat) : (s'.nodes n).state = (s.nodes n).state := by
  obtain ⟨_, _, node⟩ := same.node n
  rw [node]

end

section
variable {carried : Nat → Prop} {s₀ s : Server} {dtl : Dtl} {definitions : Nat → Node}

end

end Server

end Apx
