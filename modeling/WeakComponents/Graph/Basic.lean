import WeakComponents.Failure.Panic
import WeakComponents.Graph.Reading
import WeakComponents.NodeId
import WeakComponents.Property

/-!
# The read contract of graphs

An algorithm asks a graph for its number of nodes and for the neighbours of a node in a direction.
Degrees and existence checks follow from the neighbours, unless a graph knows a faster way. Richer
graphs carry weights, numeric node properties or the ids that their source gave to their nodes.
-/

namespace WeakComponents

/-- A graph whose nodes are the slots below its node count. -/
class Graph (G : Type) where
  nodeCount : G → Nat
  neighbors : G → Slot → Direction → Reading Slot
  /-- The number of stored relationships, if known. -/
  relationshipCount : G → Option Nat := fun _ ↦ none
  /-- The number of neighbours of a node; none if they cannot be read. -/
  degree : G → Slot → Direction → Except PanicValue (Option UInt32) :=
    fun graph node direction ↦ (neighbors graph node direction).count
  /-- Whether a target is among the neighbours of a source, or what kept it from being checked. -/
  tryExists : G → Slot → Slot → Direction → Except Interruption Bool :=
    fun graph source target direction ↦ (neighbors graph source direction).search target

class WeightedGraph (G : Type) extends Graph G where
  hasWeights : G → Bool
  /-- The neighbours of a node with their weights, or with a fallback where there are none. -/
  weightedNeighbors : G → Slot → Direction → Float → Reading (Slot × Float)
  /-- The weight of the first relationship from a source to a target, or a fallback. -/
  weightOf : G → Slot → Slot → Float → Float

class PropertyGraph (G : Type) where
  property? : G → String → Option PropertyColumn
  /-- The names of the properties, in ascending order. -/
  propertyNames : G → List String
  schema : G → Schema

class IdMapping (M : Type) where
  slotOf? : M → NodeId → Option Slot
  nodeAt? : M → Slot → Option NodeId

def IdMapping.contains {M : Type} [IdMapping M] (mapping : M) (node : NodeId) : Bool :=
  (IdMapping.slotOf? mapping node).isSome

namespace Graph

variable {G σ : Type} [Graph G]

def containsNode (graph : G) (node : Slot) : Bool :=
  decide (node.toNat < nodeCount graph)

/-- Whether a target is among the neighbours of a source; a fault counts as absence. -/
def exists? (graph : G) (source target : Slot) (direction : Direction) :
    Except PanicValue Bool :=
  match tryExists graph source target direction with
  | .ok found => .ok found
  | .error (.fault _) => .ok false
  | .error (.panic value) => .error value

def visitSlots (step : σ → Slot → σ × Bool) (state : σ) (slot : Slot) : (count : Nat) → σ
  | 0 => state
  | count + 1 =>
    match step state slot with
    | (state, true) => visitSlots step state (slot + 1) count
    | (state, false) => state

/-- Takes steps over the nodes in ascending order; nodes beyond the slot limit have no slot. -/
def visitNodes (graph : G) (step : σ → Slot → σ × Bool) (state : σ) : σ :=
  visitSlots step state 0 (min (nodeCount graph) slotLimit)

def batches (graph : G) (size : Nat) : List NodeBatch :=
  NodeBatch.partition (nodeCount graph) size

/--
The nodes adjacent to both `a` and `b`. The neighbours of the one with fewer of them are delivered,
as often as they are stored there, if they are not the other one and exist on its side. Where the
degree of either is unknown the direction counts as not loaded.
-/
def commonNeighbors (graph : G) (a b : Slot) (direction : Direction) : Reading Slot :=
  match degree graph a direction with
  | .error value => .interrupted (.panic value)
  | .ok none => .interrupted (.fault (.directionNotLoaded direction))
  | .ok (some degreeA) =>
    match degree graph b direction with
    | .error value => .interrupted (.panic value)
    | .ok none => .interrupted (.fault (.directionNotLoaded direction))
    | .ok (some degreeB) =>
      let (walked, other) := if degreeA ≤ degreeB then (a, b) else (b, a)
      (neighbors graph walked direction).filter fun neighbor ↦
        if neighbor = other then .ok false else exists? graph other neighbor direction

end Graph

end WeakComponents
