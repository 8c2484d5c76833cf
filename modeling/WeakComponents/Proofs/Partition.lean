import Mathlib.Algebra.Order.Floor.Div
import WeakComponents.Proofs.Batches

/-!
# The batches of a partition

The batch at a position of a partition starts at that multiple of the size and ends a size later or
with the last slot. So there are as many batches as the count divided by the size, rounded up; none
is empty; only the last can be short; and the batch of a slot is told by a division.
-/

namespace WeakComponents.NodeBatch

variable {count size position : ℕ} {batch : NodeBatch}

theorem getElem?_cut (hsize : 0 < size) (start position : ℕ) :
    (cut count size start)[position]? =
      if start + position * size < count then
        some ⟨(start + position * size).toUInt32,
          (min (start + position * size + size) count).toUInt32⟩
      else none := by
  induction start using cut.induct count size generalizing position with
  | case1 start h stop ih =>
    have hstop : stop = min (start + size) count := rfl
    rw [cut, dif_pos h]
    cases position with
    | zero => rw [List.getElem?_cons_zero, Nat.zero_mul, Nat.add_zero, if_pos h.1]
    | succ position =>
      rw [List.getElem?_cons_succ, ih, Nat.succ_mul]
      by_cases hinside : start + (position * size + size) < count
      · have hfull : stop + position * size = start + (position * size + size) := by omega
        rw [hfull]
      · rw [if_neg (by omega), if_neg hinside]
  | case2 start h =>
    rw [cut, dif_neg h, List.getElem?_nil, if_neg (by omega)]

theorem getElem?_partition (count size position : ℕ) :
    (partition count size)[position]? =
      if position * max size 1 < count then
        some ⟨(position * max size 1).toUInt32,
          (min (position * max size 1 + max size 1) count).toUInt32⟩
      else none := by
  rw [partition, getElem?_cut (by omega), Nat.zero_add]

theorem lt_length_partition_iff :
    position < (partition count size).length ↔ position * max size 1 < count := by
  have hfound : position < (partition count size).length ↔
      (partition count size)[position]? ≠ none := by simp
  rw [hfound, getElem?_partition]
  split
  · rename_i h
    exact iff_of_true (Option.some_ne_none _) h
  · rename_i h
    exact iff_of_false (fun hne ↦ hne rfl) h

/-- There are as many batches as the count divided by the size, rounded up. -/
theorem length_partition (count size : ℕ) :
    (partition count size).length = count ⌈/⌉ max size 1 := by
  apply eq_of_forall_ge_iff
  intro bound
  rw [ceilDiv_le_iff_le_mul (by omega), Nat.mul_comm, ← not_lt, ← not_lt,
    not_congr lt_length_partition_iff]

/-- Where the batch at a position starts and stops. -/
theorem bounds_of_getElem? (hcount : count ≤ slotLimit)
    (h : (partition count size)[position]? = some batch) :
    position * max size 1 < count ∧ batch.start.toNat = position * max size 1 ∧
      batch.stop.toNat = min (position * max size 1 + max size 1) count := by
  have hinside : position * max size 1 < count :=
    lt_length_partition_iff.mp (List.getElem?_eq_some_iff.mp h).1
  rw [getElem?_partition, if_pos hinside, Option.some_inj] at h
  rw [← h]
  refine ⟨hinside, ?_, ?_⟩
  · exact toNat_toUInt32_of_le (by omega)
  · exact toNat_toUInt32_of_le (by omega)

theorem length_toList (batch : NodeBatch) :
    batch.toList.length = batch.stop.toNat - batch.start.toNat := by
  rw [toList, List.length_map, List.length_range']

/-- No batch is empty, and its size is the number of its slots. -/
theorem size?_of_mem (hcount : count ≤ slotLimit) (h : batch ∈ partition count size) :
    batch.isEmpty = false ∧ batch.size? = some batch.toList.length := by
  obtain ⟨position, hposition⟩ := List.getElem?_of_mem h
  have hbounds := bounds_of_getElem? hcount hposition
  have hlt : batch.start.toNat < batch.stop.toNat := by omega
  constructor
  · exact beq_eq_false_iff_ne.mpr (UInt32.ne_of_lt (UInt32.lt_iff_toNat_lt.mpr hlt))
  · rw [size?, if_pos (UInt32.le_iff_toNat_le.mpr hlt.le), length_toList]

theorem map_toNat_toList_partition (hcount : count ≤ slotLimit) (size : ℕ) :
    ((partition count size).flatMap toList).map UInt32.toNat = List.range count := by
  rw [flatMap_toList_partition hcount, slotsBelow, List.map_map]
  conv_rhs => rw [← List.map_id (List.range count)]
  apply List.map_congr_left
  intro index hindex
  exact toNat_toUInt32 hcount (List.mem_range.mp hindex)

/-- A batch with another one behind it is full. -/
theorem length_toList_of_mem_dropLast (hcount : count ≤ slotLimit)
    (h : batch ∈ (partition count size).dropLast) : batch.toList.length = max size 1 := by
  obtain ⟨position, hposition⟩ := List.getElem?_of_mem h
  rw [List.getElem?_dropLast] at hposition
  split at hposition
  · rename_i hbefore
    have hnext : (position + 1) * max size 1 < count := lt_length_partition_iff.mp (by omega)
    have hbounds := bounds_of_getElem? hcount hposition
    rw [Nat.succ_mul] at hnext
    rw [length_toList]
    omega
  · cases hposition

/--
The end of a batch is looked for at its start plus the size. A start is below the count, and a size
from the count on cuts a single batch that starts at zero, so that this sum never leaves 64 bits.
-/
theorem start_add_size_lt_of_mem (hcount : count ≤ slotLimit) (hsize : size < UInt64.size)
    (h : batch ∈ partition count size) : batch.start.toNat + max size 1 < UInt64.size := by
  obtain ⟨position, hposition⟩ := List.getElem?_of_mem h
  obtain ⟨hinside, hstart, _⟩ := bounds_of_getElem? hcount hposition
  unfold slotLimit at hcount
  unfold UInt64.size at hsize ⊢
  rw [hstart]
  cases position with
  | zero => omega
  | succ position =>
    rw [Nat.succ_mul] at hinside ⊢
    omega

/-- A slot is in the batch at its quotient by the size, and in no other. -/
theorem contains_iff_of_getElem? (hcount : count ≤ slotLimit)
    (h : (partition count size)[position]? = some batch) (slot : Slot) :
    batch.contains slot = true ↔ slot.toNat < count ∧ position = slot.toNat / max size 1 := by
  obtain ⟨_, hstart, hstop⟩ := bounds_of_getElem? hcount h
  have hquotient : slot.toNat / max size 1 = position ↔
      position * max size 1 ≤ slot.toNat ∧
        slot.toNat ≤ position * max size 1 + max size 1 - 1 := Nat.div_eq_iff (by omega)
  rw [contains, Bool.and_eq_true, decide_eq_true_iff, decide_eq_true_iff, UInt32.le_iff_toNat_le,
    UInt32.lt_iff_toNat_lt, hstart, hstop, eq_comm, hquotient]
  omega

theorem existsUnique_contains (hcount : count ≤ slotLimit) {slot : Slot}
    (hslot : slot.toNat < count) :
    ∃! position : ℕ, ∃ batch : NodeBatch, (partition count size)[position]? = some batch ∧
      batch.contains slot = true := by
  have hinside : slot.toNat / max size 1 * max size 1 < count :=
    (Nat.div_mul_le_self _ _).trans_lt hslot
  have hbatch : (partition count size)[slot.toNat / max size 1]? = some _ :=
    List.getElem?_eq_getElem (lt_length_partition_iff.mpr hinside)
  refine ⟨slot.toNat / max size 1, ⟨_, hbatch, ?_⟩, ?_⟩
  · exact (contains_iff_of_getElem? hcount hbatch slot).mpr ⟨hslot, rfl⟩
  · rintro position ⟨batch, hposition, hcontains⟩
    exact ((contains_iff_of_getElem? hcount hposition slot).mp hcontains).2

theorem ceilDiv_eq (hsize : 0 < size) : ceilDiv count size = count ⌈/⌉ size := by
  have hbelow : size - 1 < size := by omega
  have hrest : size ≤ count % size + (size - 1) ↔ ¬ count % size = 0 := by omega
  rw [ceilDiv, Nat.ceilDiv_eq_add_pred_div, Nat.add_sub_assoc hsize, Nat.add_div hsize,
    Nat.div_eq_of_lt hbelow, Nat.mod_eq_of_lt hbelow, Nat.add_zero]
  simp only [hrest, ite_not]

theorem length_partition_adjustedSize_le (count workers minimum : ℕ) :
    (partition count (adjustedSize count workers minimum)).length ≤ max workers 1 := by
  have hworkers : 0 < max workers 1 := by omega
  have hpositive : 0 < max (adjustedSize count workers minimum) 1 := by omega
  have hshare : ceilDiv count (max workers 1) ≤ max (adjustedSize count workers minimum) 1 := by
    unfold adjustedSize
    omega
  rw [length_partition, ceilDiv_le_iff_le_mul hpositive]
  calc
    count ≤ max workers 1 * (count ⌈/⌉ max workers 1) := le_smul_ceilDiv hworkers
    _ = ceilDiv count (max workers 1) * max workers 1 := by rw [ceilDiv_eq hworkers, Nat.mul_comm]
    _ ≤ max (adjustedSize count workers minimum) 1 * max workers 1 :=
      Nat.mul_le_mul_right _ hshare

/-- The size for some workers stays within 64 bits, as the sizes it is made of do. -/
theorem adjustedSize_lt (hcount : count ≤ slotLimit) (workers minimum : UInt64) :
    adjustedSize count workers.toNat minimum.toNat < UInt64.size := by
  have hminimum := minimum.toNat_lt
  have hshare : ceilDiv count (max workers.toNat 1) ≤ count := by
    rw [ceilDiv_eq (by omega), ceilDiv_le_iff_le_mul (by omega)]
    exact Nat.le_mul_of_pos_left count (by omega)
  unfold slotLimit at hcount
  unfold adjustedSize UInt64.size
  omega

/--
A partition holds the slots below the count once and in order, in batches of which none is empty
and all but the last are full; there are as many as the count divided by the size, rounded up, and
their ends are found within 64 bits. At the size for some workers there are no more batches than
workers, and all but the last keep the minimum.
-/
theorem partition_covers_in_full_batches (hcount : count ≤ slotLimit) (size : UInt64) :
    (∀ batch ∈ partition count size.toNat,
      batch.start.toNat + max size.toNat 1 < UInt64.size) ∧
    ((partition count size.toNat).flatMap toList).map UInt32.toNat = List.range count ∧
    (∀ batch ∈ partition count size.toNat,
      batch.isEmpty = false ∧ batch.size? = some batch.toList.length) ∧
    (∀ batch ∈ (partition count size.toNat).dropLast,
      batch.toList.length = max size.toNat 1) ∧
    (partition count size.toNat).length = count ⌈/⌉ max size.toNat 1 ∧
    (∀ slot : Slot, slot.toNat < count →
      ∃! position : ℕ, ∃ batch : NodeBatch, (partition count size.toNat)[position]? = some batch ∧
        batch.contains slot = true) ∧
    ∀ workers minimum : UInt64,
      adjustedSize count workers.toNat minimum.toNat < UInt64.size ∧
      (partition count (adjustedSize count workers.toNat minimum.toNat)).length ≤
        max workers.toNat 1 ∧
      ∀ batch ∈ (partition count (adjustedSize count workers.toNat minimum.toNat)).dropLast,
        max minimum.toNat 1 ≤ batch.toList.length := by
  refine ⟨fun batch hbatch ↦ start_add_size_lt_of_mem hcount size.toNat_lt hbatch,
    map_toNat_toList_partition hcount _, fun batch hbatch ↦ size?_of_mem hcount hbatch,
    fun batch hbatch ↦ length_toList_of_mem_dropLast hcount hbatch, length_partition _ _,
    fun slot hslot ↦ existsUnique_contains hcount hslot, fun workers minimum ↦ ?_⟩
  refine ⟨adjustedSize_lt hcount workers minimum,
    length_partition_adjustedSize_le count workers.toNat minimum.toNat, fun batch hbatch ↦ ?_⟩
  rw [length_toList_of_mem_dropLast hcount hbatch]
  unfold adjustedSize
  omega

/-- As many slots as there can be, at the largest size and shared out among seven workers. -/
theorem partition_covers_in_full_batches_of_all_slots :
    slotLimit ≤ slotLimit ∧
    (partition slotLimit 18446744073709551615).length = 1 ∧
    (partition slotLimit (adjustedSize slotLimit 7 10000)).length ≤ 7 ∧
    ∃! position : ℕ, ∃ batch : NodeBatch,
      (partition slotLimit 18446744073709551615)[position]? = some batch ∧
        batch.contains 4294967294 = true := by
  obtain ⟨_, _, _, _, hlength, hcontains, hworkers⟩ :=
    partition_covers_in_full_batches (Nat.le_refl slotLimit) 18446744073709551615
  refine ⟨Nat.le_refl slotLimit, ?_, (hworkers 7 10000).2.1, ?_⟩
  · rw [show (18446744073709551615 : ℕ) = (18446744073709551615 : UInt64).toNat from rfl, hlength]
    decide
  · exact hcontains 4294967294 (by decide)

end WeakComponents.NodeBatch
