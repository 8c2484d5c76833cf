import WeakComponents.EngineError
import WeakComponents.Graph.Basic
import WeakComponents.IdMap
import WeakComponents.Projection.Adjacency

/-!
# Projections

A projection is a graph loaded for an algorithm: its ids numbered by slots, its relationships in
compressed rows for the directions that were loaded, its numeric node properties in columns, and
the schema of those properties. Once built it only answers reads.
-/

namespace WeakComponents

/-- The rows that a projection keeps. -/
inductive LoadDirection where
  | outgoing
  | incoming
  | both
  /-- Symmetric rows that serve every direction. -/
  | undirected
deriving DecidableEq

def LoadDirection.name : LoadDirection → String
  | outgoing => "Outgoing"
  | incoming => "Incoming"
  | both => "Both"
  | undirected => "Undirected"

structure Projection where
  nodeCount : Nat
  /-- The number of relationships between loaded nodes, before any mirroring. -/
  relationshipCount : Nat
  loadDirection : LoadDirection
  /-- Outgoing rows, or symmetric ones. -/
  outgoing : Option Adjacency
  incoming : Option Adjacency
  idMap : IdMap
  columns : Table PropertyColumn
  schema : Schema

namespace Projection

/-- The rows that stand for all rows: the outgoing ones, or else the incoming ones. -/
def mainRows (projection : Projection) : Option Adjacency :=
  projection.outgoing <|> projection.incoming

def edgeCount (projection : Projection) : Nat :=
  projection.mainRows.elim 0 fun rows ↦ rows.targets.size

def hasWeights (projection : Projection) : Bool :=
  projection.mainRows.elim false fun rows ↦ rows.weights.isSome

/--
The bytes of the rows, the ids and the columns, at sixteen for each cell of a column. The ids of a
projection have no hash index.
-/
def memorySize (projection : Projection) : Nat :=
  projection.outgoing.elim 0 Adjacency.memorySize +
    projection.incoming.elim 0 Adjacency.memorySize +
    projection.idMap.listMemorySize +
    projection.columns.values.foldl (fun total column ↦ total + 16 * column.size) 0

/-- The outgoing row of a slot: empty if outgoing rows are not loaded, none beyond the slots. -/
def outNeighbors? (projection : Projection) (slot : Slot) : Option (List Slot) :=
  projection.outgoing.elim (some []) fun rows ↦ rows.neighbors? slot

def inNeighbors? (projection : Projection) (slot : Slot) : Option (List Slot) :=
  match projection.loadDirection with
  | .undirected => projection.outNeighbors? slot
  | _ => projection.incoming.elim (some []) fun rows ↦ rows.neighbors? slot

/-- The rows that serve a direction, in the order in which they are read. -/
def lists (projection : Projection) (direction : Direction) :
    Except StorageFault (List Adjacency) :=
  let out := projection.outgoing.toList
  let inc := projection.incoming.toList
  match projection.loadDirection, direction with
  | .undirected, _ => .ok out
  | .outgoing, .outgoing => .ok out
  | .incoming, .incoming => .ok inc
  | .both, .outgoing => .ok out
  | .both, .incoming => .ok inc
  | .both, .both => .ok (out ++ inc)
  | _, _ => .error (.directionNotLoaded direction)

/-- The rows that serve a node in a direction; a node out of range is found before the direction. -/
def rowsOf (projection : Projection) (node : Slot) (direction : Direction) :
    Except StorageFault (List Adjacency) :=
  if node.toNat < projection.nodeCount then projection.lists direction
  else .error (.nodeOutOfRange node projection.nodeCount)

/-- The entries that `row` takes from the rows of a node, one after the other. -/
def read {α : Type} (projection : Projection) (node : Slot) (direction : Direction)
    (row : Adjacency → List α) : Reading α :=
  match projection.rowsOf node direction with
  | .ok rows => .complete (rows.flatMap row)
  | .error fault => .interrupted (.fault fault)

/-- The number of neighbours of a node, from the offsets; none if they cannot be read. -/
def degree (projection : Projection) (node : Slot) (direction : Direction) : Option UInt32 :=
  match projection.rowsOf node direction with
  | .ok rows => some (rows.foldl (fun total row ↦ total + row.degree node) 0)
  | .error _ => none

def tryExists (projection : Projection) (source target : Slot) (direction : Direction) :
    Except StorageFault Bool :=
  match projection.rowsOf source direction with
  | .ok rows => .ok (rows.any fun row ↦ decide (target ∈ row.neighbors source))
  | .error fault => .error fault

/--
The weight of the first relationship from a source to a target. Incoming rows alone keep it in the
row of the target.
-/
def weightOf (projection : Projection) (source target : Slot) (fallback : Float) : Float :=
  if source.toNat < projection.nodeCount ∧ target.toNat < projection.nodeCount then
    let place? : Option (Adjacency × Slot × Slot) :=
      match projection.outgoing, projection.incoming with
      | some rows, _ => some (rows, source, target)
      | none, some rows => some (rows, target, source)
      | none, none => none
    match place? with
    | none => fallback
    | some (rows, owner, wanted) =>
      match rows.rowWeights owner with
      | none => fallback
      | some weights =>
        (((rows.neighbors owner).zip weights).lookup wanted).getD fallback
  else fallback

instance : Graph Projection where
  nodeCount projection := projection.nodeCount
  neighbors projection node direction :=
    projection.read node direction fun rows ↦ rows.neighbors node
  relationshipCount projection := some projection.relationshipCount
  degree projection node direction := .ok (projection.degree node direction)
  tryExists projection source target direction :=
    (projection.tryExists source target direction).mapError Interruption.fault

instance : WeightedGraph Projection where
  hasWeights := hasWeights
  weightedNeighbors projection node direction fallback :=
    projection.read node direction fun rows ↦ rows.weightedNeighbors node fallback
  weightOf := weightOf

instance : PropertyGraph Projection where
  property? projection key := projection.columns.get? key
  propertyNames projection := projection.columns.keys
  schema projection := projection.schema

instance : IdMapping Projection where
  slotOf? projection node := projection.idMap.slotOf? node
  nodeAt? projection slot := projection.idMap.nodeAt? slot

def requireSlot (projection : Projection) (node : NodeId) : Except EngineError Slot :=
  match projection.idMap.slotOf? node with
  | some slot => .ok slot
  | none => .error (.nodeNotFound node)

end Projection

end WeakComponents
