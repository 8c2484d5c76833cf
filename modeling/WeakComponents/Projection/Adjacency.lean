import WeakComponents.Slot

/-!
# Compressed adjacency rows

The neighbours of all slots in one array, row after row, with an array of offsets that says where
each row starts. Rows are filled by a counting sort over the relationships: their degrees are
counted, summed up to offsets, and every relationship is put at the cursor of its source, so that
a row keeps the order of the relationships. Offsets are 32 bits wide.
-/

namespace WeakComponents

structure Edge where
  source : Slot
  target : Slot
  weight : Float

namespace Edge

def reverse (edge : Edge) : Edge :=
  ⟨edge.target, edge.source, edge.weight⟩

/-- A relationship seen from both ends; a loop has one end only. -/
def bothEnds (edge : Edge) : List Edge :=
  if edge.source = edge.target then [edge] else [edge, edge.reverse]

end Edge

/-- The adjacency of all slots in one direction. -/
structure Adjacency where
  /-- Where each row starts, and in the last place where the last row ends. -/
  offsets : Array UInt32
  targets : Array Slot
  weights : Option (Array Float)

namespace Adjacency

/-- The start and the end of the row of `slot`. -/
def range? (adjacency : Adjacency) (slot : Slot) : Option (UInt32 × UInt32) :=
  match adjacency.offsets[slot.toNat]?, adjacency.offsets[slot.toNat + 1]? with
  | some start, some stop => some (start, stop)
  | _, _ => none

/-- The neighbours of `slot`; none if there is no such row. -/
def neighbors? (adjacency : Adjacency) (slot : Slot) : Option (List Slot) :=
  (adjacency.range? slot).map fun (start, stop) ↦
    (adjacency.targets.extract start.toNat stop.toNat).toList

def neighbors (adjacency : Adjacency) (slot : Slot) : List Slot :=
  (adjacency.neighbors? slot).getD []

def rowWeights (adjacency : Adjacency) (slot : Slot) : Option (List Float) :=
  adjacency.weights.map fun weights ↦
    match adjacency.range? slot with
    | some (start, stop) => (weights.extract start.toNat stop.toNat).toList
    | none => []

/-- The neighbours of `slot` with their weights, or with `fallback` where there are none. -/
def weightedNeighbors (adjacency : Adjacency) (slot : Slot) (fallback : Float) :
    List (Slot × Float) :=
  match adjacency.rowWeights slot with
  | some weights => (adjacency.neighbors slot).zip weights
  | none => (adjacency.neighbors slot).map fun target ↦ (target, fallback)

def degree (adjacency : Adjacency) (slot : Slot) : UInt32 :=
  match adjacency.range? slot with
  | some (start, stop) => stop - start
  | none => 0

/-- The bytes of the arrays: four for an offset or a neighbour and eight for a weight. -/
def memorySize (adjacency : Adjacency) : Nat :=
  4 * adjacency.offsets.size + 4 * adjacency.targets.size +
    (adjacency.weights.elim 0 fun weights ↦ 8 * weights.size)

def empty : Adjacency := ⟨#[0], #[], none⟩

/-- The number of relationships from each slot. -/
def degrees (nodeCount : Nat) (edges : List Edge) : Array UInt32 :=
  edges.foldl (fun degrees edge ↦ degrees.modify edge.source.toNat (· + 1))
    (Array.replicate nodeCount 0)

/-- The sums of the degrees before each slot, and in the last place their total. -/
def sums (degrees : Array UInt32) : Array UInt32 :=
  (degrees.foldl (fun (offsets, total) degree ↦ (offsets.push (total + degree), total + degree))
    (#[0], 0)).1

/-- Rows being filled: the next free place of each row, and the arrays. -/
structure Filling where
  cursors : Array UInt32
  targets : Array Slot
  weights : Array Float

/-- Puts a relationship at the cursor of its source and moves the cursor on. -/
def Filling.put (filling : Filling) (edge : Edge) : Filling :=
  match filling.cursors[edge.source.toNat]? with
  | none => filling
  | some place =>
    { cursors := filling.cursors.setIfInBounds edge.source.toNat (place + 1)
      targets := filling.targets.setIfInBounds place.toNat edge.target
      weights := filling.weights.setIfInBounds place.toNat edge.weight }

/--
The rows of `nodeCount` slots that hold the targets of `edges` by source, in the order of `edges`.
Without slots there are no weights either.
-/
def ofEdges (nodeCount : Nat) (edges : List Edge) (weighted : Bool) : Adjacency :=
  if nodeCount = 0 then empty
  else
    let offsets := sums (degrees nodeCount edges)
    let filled := edges.foldl Filling.put
      ⟨offsets, Array.replicate edges.length 0, Array.replicate edges.length 0.0⟩
    ⟨offsets, filled.targets, if weighted then some filled.weights else none⟩

end Adjacency

end WeakComponents
