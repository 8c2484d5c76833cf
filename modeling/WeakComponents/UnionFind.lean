import Std.Data.HashMap
import WeakComponents.Slot

/-!
# Disjoint sets of slots

A forest over the slots below a size. Every slot has a key, its seed if seeds are in use followed
by the slot itself; slots without a seed come after all seeded ones. A parent link leads to a slot
with a strictly smaller key, so climbing ends, and the root of a set is its member with the
smallest key. Slots that share a seed start in one set.

Asking for a slot beyond the size is out of bounds. Reads of the forest shorten the paths they
climb, so operations return the forest they leave behind, also when they are out of bounds.
-/

namespace WeakComponents

/-- A forest of slots, one tree for each set. -/
structure UnionFind where
  /-- The parent of each slot; a root is its own parent. -/
  parents : Array Slot
  /-- The seed of each slot where seeds are in use, `unseeded` standing for none. -/
  seeds : Option (Array UInt64)

namespace UnionFind

/-- The seed key of a slot without a seed: the largest word, which no seed may be. -/
def unseeded : UInt64 := 18446744073709551615

def size (forest : UnionFind) : Nat :=
  forest.parents.size

/-- The seed part of a slot's key. -/
def seedKey (forest : UnionFind) (slot : Slot) : UInt64 :=
  match forest.seeds with
  | none => unseeded
  | some seeds => (seeds[slot.toNat]?).getD unseeded

def precedes (forest : UnionFind) (a b : Slot) : Bool :=
  decide (forest.seedKey a < forest.seedKey b) ||
    (forest.seedKey a == forest.seedKey b && decide (a < b))

/-- The parent of a slot; a slot beyond the size has none but itself. -/
def parent (forest : UnionFind) (slot : Slot) : Slot :=
  (forest.parents[slot.toNat]?).getD slot

theorem lex_of_precedes {forest : UnionFind} {a b : Slot} (h : forest.precedes a b) :
    Prod.Lex (· < ·) (· < ·) ((forest.seedKey a).toNat, a.toNat)
      ((forest.seedKey b).toNat, b.toNat) := by
  simp only [precedes, Bool.or_eq_true, Bool.and_eq_true, beq_iff_eq, decide_eq_true_eq,
    UInt64.lt_iff_toNat_lt, UInt32.lt_iff_toNat_lt] at h
  rcases h with h | ⟨heq, h⟩
  · exact .left _ _ h
  · rw [heq]
    exact .right _ h

/-- The root above a slot: climbs as long as the parent has a smaller key. -/
def root (forest : UnionFind) (slot : Slot) : Slot :=
  if forest.precedes (forest.parent slot) slot then forest.root (forest.parent slot) else slot
termination_by ((forest.seedKey slot).toNat, slot.toNat)
decreasing_by exact lex_of_precedes ‹_›

def path (forest : UnionFind) (slot : Slot) : List Slot :=
  if forest.precedes (forest.parent slot) slot then slot :: forest.path (forest.parent slot)
  else []
termination_by ((forest.seedKey slot).toNat, slot.toNat)
decreasing_by exact lex_of_precedes ‹_›

def repoint (forest : UnionFind) (slot target : Slot) : UnionFind :=
  { forest with parents := forest.parents.setIfInBounds slot.toNat target }

/-- Points every slot on the path from `slot` at its root. -/
def compress (forest : UnionFind) (slot : Slot) : UnionFind :=
  let target := forest.root slot
  (forest.path slot).foldl (fun forest member ↦ forest.repoint member target) forest

def find (forest : UnionFind) (slot : Slot) : Except OutOfBounds Slot × UnionFind :=
  if slot.toNat < forest.size then (.ok (forest.root slot), forest.compress slot)
  else (.error ⟨forest.size, slot.toNat⟩, forest)

/-- The representative of a set once all unions are done: its root. -/
def setIdOf (forest : UnionFind) (slot : Slot) : Except OutOfBounds Slot × UnionFind :=
  forest.find slot

/-- Links the root with the larger key below the other one. -/
def link (forest : UnionFind) (a b : Slot) : UnionFind :=
  if forest.precedes b a then forest.repoint a b else forest.repoint b a

/-- Merges the sets of two slots; the answer says whether they were different sets. -/
def union (forest : UnionFind) (a b : Slot) : Except OutOfBounds Bool × UnionFind :=
  match forest.find a with
  | (.error error, forest) => (.error error, forest)
  | (.ok rootA, forest) =>
    match forest.find b with
    | (.error error, forest) => (.error error, forest)
    | (.ok rootB, forest) =>
      if rootA = rootB then (.ok false, forest) else (.ok true, forest.link rootA rootB)

/-- Merges the sets of pairs in order, up to the first pair that is out of bounds. -/
def unionAll (forest : UnionFind) : List (Slot × Slot) → Except OutOfBounds (List Bool) × UnionFind
  | [] => (.ok [], forest)
  | (a, b) :: pairs =>
    match forest.union a b with
    | (.error error, forest) => (.error error, forest)
    | (.ok merged, forest) =>
      match forest.unionAll pairs with
      | (.error error, forest) => (.error error, forest)
      | (.ok answers, forest) => (.ok (merged :: answers), forest)

def sameSet (forest : UnionFind) (a b : Slot) : Except OutOfBounds Bool × UnionFind :=
  match forest.find a with
  | (.error error, forest) => (.error error, forest)
  | (.ok rootA, forest) =>
    match forest.find b with
    | (.error error, forest) => (.error error, forest)
    | (.ok rootB, forest) => (.ok (rootA == rootB), forest)

def isRoot (forest : UnionFind) (slot : Slot) : Except OutOfBounds Bool :=
  match forest.parents[slot.toNat]? with
  | some parent => .ok (parent == slot)
  | none => .error ⟨forest.size, slot.toNat⟩

/-- The seed of a slot. Without seeds in use no slot has one, in bounds or not. -/
def seedOf (forest : UnionFind) (slot : Slot) : Except OutOfBounds (Option UInt64) :=
  match forest.seeds with
  | none => .ok none
  | some seeds =>
    match seeds[slot.toNat]? with
    | some seed => .ok (if seed = unseeded then none else some seed)
    | none => .error ⟨seeds.size, slot.toNat⟩

def slots (forest : UnionFind) : List Slot :=
  (List.range forest.size).map Nat.toUInt32

def componentCount (forest : UnionFind) : Nat :=
  forest.slots.countP fun slot ↦ forest.parent slot == slot

/-- The forest of `count` sets of one slot each, without seeds. -/
def singletons (count : Nat) : UnionFind :=
  ⟨((List.range count).map Nat.toUInt32).toArray, none⟩

/-- Unites a slot with the first slot of its seed, or notes it as the first. -/
def uniteSeed (state : Std.HashMap UInt64 Slot × UnionFind) (entry : Slot × UInt64) :
    Std.HashMap UInt64 Slot × UnionFind :=
  match state.1[entry.2]? with
  | some first => (state.1, (state.2.union first entry.1).2)
  | none => (state.1.insert entry.2 entry.1, (state.2.union entry.1 entry.1).2)

/-- Unites every slot that has a seed with the first slot of that seed, in ascending order. -/
def uniteSeeds (forest : UnionFind) (seeded : List (Slot × UInt64)) : UnionFind :=
  (seeded.foldl uniteSeed (∅, forest)).2

def seededSlots (seeds : Array (Option UInt64)) : List (Slot × UInt64) :=
  seeds.toList.zipIdx.filterMap fun (seed, index) ↦ seed.map fun seed ↦ (index.toUInt32, seed)

def keyed (seeds : Array (Option UInt64)) : UnionFind :=
  { singletons seeds.size with seeds := some (seeds.map fun seed ↦ seed.getD unseeded) }

/-- The forest over the slots of `seeds` in which slots of one seed form one set. -/
def ofSeeds (seeds : Array (Option UInt64)) : UnionFind :=
  uniteSeeds (keyed seeds) (seededSlots seeds)

end UnionFind

end WeakComponents
