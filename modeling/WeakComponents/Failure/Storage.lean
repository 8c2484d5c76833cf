import WeakComponents.Failure.Panic
import WeakComponents.Graph.Direction

/-!
# Failures of a graph

What a graph answers when it cannot deliver the relationships of a node. A read of a graph either
goes through, or is interrupted by such a fault or by a panic.
-/

namespace WeakComponents

/-- A graph cannot deliver what it was asked for. -/
inductive StorageFault where
  | directionNotLoaded (direction : Direction)
  | nodeOutOfRange (node : Slot) (nodeCount : Nat)
  /-- The relationships of the node cannot be read. -/
  | corrupt (node : Slot) (message : String) (cause : Option Cause)
deriving DecidableEq

namespace StorageFault

def ofCause (node : Slot) (cause : Cause) : StorageFault :=
  corrupt node cause.message (some cause)

def message : StorageFault → String
  | directionNotLoaded direction => "Direction " ++ direction.name ++ " was not loaded for this graph"
  | nodeOutOfRange node nodeCount =>
    "Node " ++ Decimal.text node.toNat ++ " is out of range for graph with " ++
      Decimal.text nodeCount ++ " nodes"
  | corrupt node message _ =>
    "Adjacency of node " ++ Decimal.text node.toNat ++ " is unavailable: " ++ message

def cause? : StorageFault → Option Cause
  | corrupt _ _ cause => cause
  | _ => none

end StorageFault

/-- What ends a read of a graph before it is complete. -/
inductive Interruption where
  | fault (fault : StorageFault)
  | panic (value : PanicValue)
deriving DecidableEq

end WeakComponents
