import Std.Data.HashMap
import WeakComponents.NodeId
import WeakComponents.Slot

/-!
# Numbering node ids

An id map gives every id the next free slot when it is first seen. As long as ids arrive in
ascending order the list of ids alone answers reverse lookups, by binary search; compacting the map
then drops its hash index. Inserting an id below the largest one brings the index back.
-/

namespace WeakComponents

inductive SlotIndex where
  | hashed (table : Std.HashMap NodeId Slot)
  /-- The ids ascend strictly, so that they can be searched. -/
  | sorted

/-- The ids seen so far, by slot, with an index that may have been dropped. -/
structure IdMap where
  nodes : Array NodeId
  index : SlotIndex
  /-- Whether every new id was larger than the one before it. -/
  ascending : Bool
  /-- The ids for which room was reserved. -/
  reserved : Nat

namespace IdMap

def withCapacity (capacity : Nat) : IdMap :=
  ⟨#[], .hashed ∅, true, capacity⟩

def empty : IdMap := withCapacity 0

instance : Inhabited IdMap := ⟨empty⟩

def size (map : IdMap) : Nat :=
  map.nodes.size

def isEmpty (map : IdMap) : Bool :=
  map.nodes.isEmpty

/-- Whether slots follow the order of ids. -/
def isSorted (map : IdMap) : Bool :=
  map.ascending

/-- Whether the hash index has been dropped. -/
def isCompacted (map : IdMap) : Bool :=
  match map.index with
  | .sorted => true
  | .hashed _ => false

/--
The position of `node` among the ids from `low` up to, but not including, `high`, which must
ascend.
-/
def search (nodes : Array NodeId) (node : NodeId) (low high : Nat) : Option Nat :=
  if _h : low < high then
    let middle := (low + high) / 2
    match nodes[middle]? with
    | none => none
    | some found =>
      if found = node then some middle
      else if found < node then search nodes node (middle + 1) high
      else search nodes node low middle
  else none
termination_by high - low

def slotOf? (map : IdMap) (node : NodeId) : Option Slot :=
  match map.index with
  | .hashed table => table[node]?
  | .sorted => (search map.nodes node 0 map.nodes.size).map Nat.toUInt32

def nodeAt? (map : IdMap) (slot : Slot) : Option NodeId :=
  map.nodes[slot.toNat]?

def contains (map : IdMap) (node : NodeId) : Bool :=
  (map.slotOf? node).isSome

def toList (map : IdMap) : List (Slot × NodeId) :=
  map.nodes.toList.zipIdx.map fun (node, position) ↦ (position.toUInt32, node)

def hashIndex (map : IdMap) : Std.HashMap NodeId Slot :=
  map.toList.foldl (fun table entry ↦ table.insert entry.2 entry.1) ∅

/-- Whether an id is larger than the last one, or the first of all. -/
def isAfterLast (map : IdMap) (node : NodeId) : Bool :=
  match map.nodes.back? with
  | none => true
  | some last => decide (last < node)

/--
Appends an id that has not been seen. The dropped index stays dropped if the id is larger than
all others, and is built anew otherwise.
-/
def append (map : IdMap) (node : NodeId) : IdMap :=
  let slot := map.nodes.size.toUInt32
  let afterLast := map.isAfterLast node
  let index : SlotIndex :=
    match map.index with
    | .hashed table => .hashed (table.insert node slot)
    | .sorted => if afterLast then .sorted else .hashed (map.hashIndex.insert node slot)
  { map with nodes := map.nodes.push node, index, ascending := map.ascending && afterLast }

/-- The slot of an id, which takes the next free one when it is first seen. -/
def insert (map : IdMap) (node : NodeId) : Slot × IdMap :=
  match map.slotOf? node with
  | some slot => (slot, map)
  | none => (map.nodes.size.toUInt32, map.append node)

def insertAll (map : IdMap) (nodes : List NodeId) : IdMap :=
  nodes.foldl (fun map node ↦ (map.insert node).2) map

def ofList (nodes : List NodeId) : IdMap :=
  (withCapacity nodes.length).insertAll nodes

/-- Drops the hash index if slots follow the order of ids. -/
def compact (map : IdMap) : IdMap :=
  if map.ascending then { map with index := .sorted } else map

/-- The bytes of the list of ids, at eight for each id there is room for. -/
def listMemorySize (map : IdMap) : Nat :=
  8 * max map.reserved map.nodes.size

/--
The bytes of the list of ids and of the hash index, at thirteen for each entry that the table has
room for. How much room a table has is up to its maker.
-/
def memorySize (capacity : Std.HashMap NodeId Slot → Nat) (map : IdMap) : Nat :=
  match map.index with
  | .hashed table => map.listMemorySize + 13 * capacity table
  | .sorted => map.listMemorySize

end IdMap

end WeakComponents
