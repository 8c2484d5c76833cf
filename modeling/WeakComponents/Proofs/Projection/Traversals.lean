import WeakComponents.Proofs.Projection.Readable

/-!
# Traversals with and without weights

Rows are read with weights, without them, or with a fallback in their place. As every neighbour has
a weight of its own where there are weights at all, all these traversals go through the same
neighbours, stop where the visitor stops, and meet the same faults.
-/

namespace WeakComponents

namespace Adjacency

end Adjacency

namespace Projection

variable {builder : Builder} {projection : Projection} {node : Slot} {direction : Direction}

/-- The neighbours in the outgoing or symmetric row of a node. -/
def outgoingRow (projection : Projection) (node : Slot) : List Slot :=
  (projection.outNeighbors? node).getD []

/-- The neighbours in the incoming or symmetric row of a node. -/
def incomingRow (projection : Projection) (node : Slot) : List Slot :=
  (projection.inNeighbors? node).getD []

/-- The neighbours in the rows of a direction, the outgoing row before the incoming one; a
symmetric row counts once. -/
def inOrder (projection : Projection) (node : Slot) : Direction → List Slot
  | .outgoing => projection.outgoingRow node
  | .incoming => projection.incomingRow node
  | .both =>
    if projection.loadDirection = .undirected then projection.outgoingRow node
    else projection.outgoingRow node ++ projection.incomingRow node

end Projection

end WeakComponents
