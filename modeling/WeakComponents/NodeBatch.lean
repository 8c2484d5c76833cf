import WeakComponents.Slot

/-!
# Batches of nodes

The slots `0 .. n` are cut into contiguous half-open ranges, each of which one worker takes at a
time. All ranges but the last have the size asked for.
-/

namespace WeakComponents

/-- The slots from `start` up to, but not including, `stop`. -/
structure NodeBatch where
  start : Slot
  stop : Slot
deriving DecidableEq

namespace NodeBatch

/-- The number of slots of a range that does not end before it starts. -/
def size? (batch : NodeBatch) : Option Nat :=
  if batch.start ≤ batch.stop then some (batch.stop.toNat - batch.start.toNat) else none

def isEmpty (batch : NodeBatch) : Bool :=
  batch.start == batch.stop

def contains (batch : NodeBatch) (slot : Slot) : Bool :=
  decide (batch.start ≤ slot) && decide (slot < batch.stop)

def toList (batch : NodeBatch) : List Slot :=
  (List.range' batch.start.toNat (batch.stop.toNat - batch.start.toNat)).map Nat.toUInt32

/-- The batches of at most `size` slots that cover the slots from `start` up to `count`. -/
def cut (count size start : Nat) : List NodeBatch :=
  if _h : start < count ∧ 0 < size then
    let stop := min (start + size) count
    ⟨start.toUInt32, stop.toUInt32⟩ :: cut count size stop
  else []
termination_by count - start
decreasing_by omega

/--
Cuts the slots below `count` into batches of `size` slots, the last one taking the rest. A size of
zero counts as one.
-/
def partition (count size : Nat) : List NodeBatch :=
  cut count (max size 1) 0

def ceilDiv (count size : Nat) : Nat :=
  count / size + if count % size = 0 then 0 else 1

/-- The size of the batches that give each worker one, but never below `minimum` nor one. -/
def adjustedSize (count workers minimum : Nat) : Nat :=
  max (max (ceilDiv count (max workers 1)) minimum) 1

end NodeBatch

end WeakComponents
