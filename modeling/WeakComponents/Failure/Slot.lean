/-!
# Slots for the first failure

Workers record their failures in one slot, which keeps the first and discards the others.
-/

namespace WeakComponents

/-- A place for the first failure that any worker records. -/
structure FaultSlot (ε : Type) where
  held : Option ε

namespace FaultSlot

variable {ε : Type}

def empty : FaultSlot ε := ⟨none⟩

def isTripped (slot : FaultSlot ε) : Bool :=
  slot.held.isSome

/-- Keeps `fault` if it is the first; the flag says whether it was kept. -/
def record (slot : FaultSlot ε) (fault : ε) : Bool × FaultSlot ε :=
  match slot.held with
  | some _ => (false, slot)
  | none => (true, ⟨some fault⟩)

end FaultSlot

end WeakComponents
