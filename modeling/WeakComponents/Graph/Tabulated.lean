import WeakComponents.Graph.Basic

/-!
# Graphs written out as tables

A graph given by the neighbours of each node in each direction, in which reading chosen nodes is
interrupted. It relies on the derived reads alone, and it takes any slot for a node.
-/

namespace WeakComponents

/-- The neighbours of every node with their weights; nodes past the list have none. -/
abbrev NeighborTable :=
  Array (List (Slot × Float))

structure TabulatedGraph where
  nodeCount : Nat
  /-- The table of a direction, if the graph serves it. -/
  rows : Direction → Option NeighborTable
  weighted : Bool
  /-- The nodes whose reading is interrupted, the first entry of a node counting. -/
  interruptions : List (Slot × Interruption)
  columns : Table PropertyColumn

namespace TabulatedGraph

def read (graph : TabulatedGraph) (node : Slot) (direction : Direction) :
    Reading (Slot × Float) :=
  match graph.interruptions.lookup node with
  | some interruption => .interrupted interruption
  | none =>
    match graph.rows direction with
    | none => .interrupted (.fault (.directionNotLoaded direction))
    | some rows => .complete ((rows[node.toNat]?).getD [])

instance : Graph TabulatedGraph where
  nodeCount graph := graph.nodeCount
  neighbors graph node direction := (graph.read node direction).map Prod.fst

instance : WeightedGraph TabulatedGraph where
  hasWeights graph := graph.weighted
  weightedNeighbors graph node direction fallback :=
    (graph.read node direction).map fun (target, weight) ↦
      (target, if graph.weighted then weight else fallback)
  weightOf _ _ _ fallback := fallback

instance : PropertyGraph TabulatedGraph where
  property? graph key := graph.columns.get? key
  propertyNames graph := graph.columns.keys
  schema _ := .empty

end TabulatedGraph

/-- A numbering of ids written out as a list, in which a slot may have no id. -/
structure TabulatedIds where
  nodes : Array (Option NodeId)

instance : IdMapping TabulatedIds where
  slotOf? mapping node := (mapping.nodes.idxOf? (some node)).map Nat.toUInt32
  nodeAt? mapping slot := mapping.nodes[slot.toNat]?.join

end WeakComponents
