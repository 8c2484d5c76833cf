import WeakComponents.Decimal.Natural

/-!
# Slots

Algorithms number the nodes of a graph densely from zero. Such a number is a slot; it is 32 bits
wide, which bounds the nodes of a graph.
-/

namespace WeakComponents

/-- A node or a position of a dense array, counted from zero. -/
abbrev Slot := UInt32

/-- The most nodes that a graph can have so that each has a slot. -/
def slotLimit : Nat := 4294967295

/-- An index that is not below the size of what it indexes. -/
structure OutOfBounds where
  size : Nat
  index : Nat
deriving DecidableEq

def OutOfBounds.message (error : OutOfBounds) : String :=
  "index out of bounds: the len is " ++ Decimal.text error.size ++ " but the index is " ++
    Decimal.text error.index

end WeakComponents
