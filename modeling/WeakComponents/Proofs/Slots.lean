import Mathlib.Data.List.Nodup
import WeakComponents.Slot

/-!
# Slots below a count

As long as there are no more nodes than slots, a position and its slot determine each other.
-/

namespace WeakComponents

/-- The slots below a count, ascending. -/
def slotsBelow (count : ℕ) : List Slot :=
  (List.range count).map Nat.toUInt32

theorem toNat_toUInt32_of_le {index : ℕ} (h : index ≤ slotLimit) :
    index.toUInt32.toNat = index := by
  unfold slotLimit at h
  exact UInt32.toNat_ofNat_of_lt' (by simp only [UInt32.size]; omega)

theorem toNat_toUInt32 {count index : ℕ} (hcount : count ≤ slotLimit) (hindex : index < count) :
    index.toUInt32.toNat = index :=
  toNat_toUInt32_of_le (Nat.le_trans (Nat.le_of_lt hindex) hcount)

theorem mem_slotsBelow {count : ℕ} (hcount : count ≤ slotLimit) {slot : Slot} :
    slot ∈ slotsBelow count ↔ slot.toNat < count := by
  unfold slotsBelow
  rw [List.mem_map]
  constructor
  · rintro ⟨index, hindex, rfl⟩
    rw [List.mem_range] at hindex
    rwa [toNat_toUInt32 hcount hindex]
  · intro hslot
    exact ⟨slot.toNat, List.mem_range.mpr hslot, UInt32.ofNat_toNat⟩

theorem pairwise_slotsBelow {count : ℕ} (hcount : count ≤ slotLimit) :
    (slotsBelow count).Pairwise (· < ·) := by
  rw [slotsBelow, List.pairwise_map]
  apply List.Pairwise.imp_of_mem _ List.pairwise_lt_range
  intro earlier later hearlier hlater hlt
  rw [List.mem_range] at hearlier hlater
  rwa [UInt32.lt_iff_toNat_lt, toNat_toUInt32 hcount hearlier, toNat_toUInt32 hcount hlater]

theorem nodup_slotsBelow {count : ℕ} (hcount : count ≤ slotLimit) : (slotsBelow count).Nodup :=
  (pairwise_slotsBelow hcount).imp UInt32.ne_of_lt

/-- The slots below the size of an array read it from front to back. -/
theorem map_getElem?_slotsBelow {α : Type} {entries : Array α} (hsize : entries.size ≤ slotLimit) :
    ((slotsBelow entries.size).map fun slot ↦ entries[slot.toNat]?) =
      entries.toList.map some := by
  apply List.ext_getElem
  · simp [slotsBelow]
  · intro index hindex hindex'
    have hbelow : index < entries.size := by simpa using hindex'
    simp [slotsBelow, toNat_toUInt32 hsize hbelow, hbelow]

end WeakComponents
