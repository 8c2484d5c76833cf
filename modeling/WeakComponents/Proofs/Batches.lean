import Mathlib.Data.List.Pairwise
import WeakComponents.NodeBatch
import WeakComponents.Proofs.Slots

/-!
# Cutting slots into batches

The batches of a partition hold every slot once, in ascending order.
-/

namespace WeakComponents

namespace NodeBatch

theorem toList_of_le {start stop : ℕ} (hle : start ≤ stop) (hstop : stop ≤ slotLimit) :
    (⟨start.toUInt32, stop.toUInt32⟩ : NodeBatch).toList =
      (List.range' start (stop - start)).map Nat.toUInt32 := by
  rw [toList, toNat_toUInt32_of_le (Nat.le_trans hle hstop), toNat_toUInt32_of_le hstop]

theorem flatMap_toList_cut {count size start : ℕ} (hcount : count ≤ slotLimit) (hsize : 0 < size) :
    (cut count size start).flatMap toList =
      (List.range' start (count - start)).map Nat.toUInt32 := by
  induction start using cut.induct count size with
  | case1 start h stop ih =>
    have hstart : start ≤ stop := by omega
    have hstop : stop ≤ count := by omega
    rw [cut, dif_pos h, List.flatMap_cons, toList_of_le hstart (Nat.le_trans hstop hcount), ih,
      ← List.map_append]
    congr 1
    have hmiddle : start + (stop - start) = stop := by omega
    have htotal : stop - start + (count - stop) = count - start := by omega
    calc
      List.range' start (stop - start) ++ List.range' stop (count - stop) =
          List.range' start (stop - start) ++
            List.range' (start + (stop - start)) (count - stop) := by rw [hmiddle]
      _ = List.range' start (count - start) := by rw [List.range'_append_1, htotal]
  | case2 start h =>
    have hempty : count - start = 0 := by omega
    rw [cut, dif_neg h, hempty]
    rfl

/-- The batches of a partition hold the slots below the count, each once and in order. -/
theorem flatMap_toList_partition {count : ℕ} (hcount : count ≤ slotLimit) (size : ℕ) :
    (partition count size).flatMap toList = slotsBelow count := by
  rw [partition, flatMap_toList_cut hcount (by omega), Nat.sub_zero, slotsBelow,
    List.range_eq_range']

theorem mem_toList {batch : NodeBatch} {slot : Slot} :
    slot ∈ batch.toList ↔ batch.contains slot = true := by
  unfold toList contains
  rw [List.mem_map, Bool.and_eq_true, decide_eq_true_iff, decide_eq_true_iff,
    UInt32.le_iff_toNat_le, UInt32.lt_iff_toNat_lt]
  constructor
  · rintro ⟨number, hnumber, rfl⟩
    rw [List.mem_range'_1] at hnumber
    have hstop := batch.stop.toNat_lt
    rw [toNat_toUInt32_of_le (by unfold slotLimit; omega)]
    omega
  · intro hslot
    refine ⟨slot.toNat, ?_, UInt32.ofNat_toNat⟩
    rw [List.mem_range'_1]
    omega

theorem pairwise_toList (batch : NodeBatch) : batch.toList.Pairwise (· < ·) := by
  unfold toList
  rw [List.pairwise_map]
  apply List.Pairwise.imp_of_mem _ List.pairwise_lt_range'
  intro earlier later hearlier hlater hlt
  rw [List.mem_range'_1] at hearlier hlater
  have hstop := batch.stop.toNat_lt
  rw [UInt32.lt_iff_toNat_lt, toNat_toUInt32_of_le (by unfold slotLimit; omega),
    toNat_toUInt32_of_le (by unfold slotLimit; omega)]
  exact hlt

theorem mem_partition_iff {count : ℕ} (hcount : count ≤ slotLimit) {size : ℕ} {slot : Slot} :
    (∃ batch ∈ partition count size, slot ∈ batch.toList) ↔ slot.toNat < count := by
  rw [← mem_slotsBelow hcount, ← flatMap_toList_partition hcount size, List.mem_flatMap]

/-- A slot lies in one batch of a partition only. -/
theorem eq_of_mem_toList {count : ℕ} (hcount : count ≤ slotLimit) {size : ℕ}
    {batch other : NodeBatch} {slot : Slot} (hbatch : batch ∈ partition count size)
    (hother : other ∈ partition count size) (hslot : slot ∈ batch.toList)
    (hslot' : slot ∈ other.toList) : batch = other := by
  have hnodup : ((partition count size).flatMap toList).Nodup := by
    rw [flatMap_toList_partition hcount]
    exact nodup_slotsBelow hcount
  have hsymm : Std.Symm (Function.onFun List.Disjoint toList) :=
    ⟨fun _ _ h _ hslot hslot' ↦ h hslot' hslot⟩
  have hdisjoint := (List.nodup_flatMap.mp hnodup).2
  by_contra hne
  exact hdisjoint.forall hbatch hother hne hslot hslot'

end NodeBatch

end WeakComponents
