import Mathlib.Algebra.BigOperators.Group.List.Lemmas
import Mathlib.Data.List.Dedup
import WeakComponents.Proofs.Components.Successful

/-!
# Sizes of components

In a sorted list equal numbers stand next to each other, so that its runs are its distinct numbers
with their multiplicities. The sizes of components therefore count the slots of each.
-/

namespace WeakComponents.Components.Result

variable {result : Result} {id : UInt64}

theorem map_count_cons_of_notMem {first : UInt64} {rest ids : List UInt64} (h : first ∉ ids) :
    (ids.map fun id ↦ (id, (first :: rest).count id)) = ids.map fun id ↦ (id, rest.count id) := by
  apply List.map_congr_left
  intro id hid
  have hne : first ≠ id := fun heq ↦ h (heq ▸ hid)
  rw [List.count_cons_of_ne hne]

/-- The runs of a sorted list are its distinct numbers, each as often as it occurs. -/
theorem runLengths_eq {list : List UInt64} (h : list.Pairwise (· ≤ ·)) :
    runLengths list = list.dedup.map fun id ↦ (id, list.count id) := by
  induction list with
  | nil => rfl
  | cons first rest ih =>
    obtain ⟨hfirst, hrest⟩ := List.pairwise_cons.mp h
    rw [runLengths, ih hrest]
    cases hdistinct : rest.dedup with
    | nil =>
      obtain rfl := (List.dedup_eq_nil rest).mp hdistinct
      simp
    | cons next others =>
      have hnodup : (next :: others).Nodup := hdistinct ▸ rest.nodup_dedup
      have hsorted : (next :: others).Pairwise (· ≤ ·) :=
        hdistinct ▸ hrest.sublist (List.dedup_sublist rest)
      have hmem {id : UInt64} : id ∈ rest ↔ id ∈ next :: others := by
        rw [← List.mem_dedup, hdistinct]
      by_cases hsame : first = next
      · subst hsame
        have hruns : ((first :: rest).dedup.map fun id ↦ (id, (first :: rest).count id)) =
            (first, rest.count first + 1) :: others.map fun id ↦ (id, rest.count id) := by
          rw [List.dedup_cons_of_mem (hmem.mpr List.mem_cons_self), hdistinct, List.map_cons,
            map_count_cons_of_notMem (List.nodup_cons.mp hnodup).1, List.count_cons_self]
        rw [hruns]
        exact if_pos rfl
      · -- the smallest of the others is larger, so none of them is the same
        have hnew : first ∉ next :: others := by
          intro hmember
          have hnext : next ≤ first := by
            rcases List.mem_cons.mp hmember with heq | hother
            · exact absurd heq hsame
            · exact (List.pairwise_cons.mp hsorted).1 first hother
          exact hsame (UInt64.le_antisymm (hfirst next (hmem.mpr List.mem_cons_self)) hnext)
        have hruns : ((first :: rest).dedup.map fun id ↦ (id, (first :: rest).count id)) =
            (first, 1) :: (next :: others).map fun id ↦ (id, rest.count id) := by
          rw [List.dedup_cons_of_notMem (mt hmem.mp hnew), hdistinct, List.map_cons,
            map_count_cons_of_notMem hnew, List.count_cons_self,
            List.count_eq_zero.mpr (mt hmem.mp hnew)]
        rw [hruns]
        exact if_neg hsame

/-- The sizes of components count how often each occurs. -/
theorem componentSizes_perm (result : Result) :
    result.componentSizes.Perm (result.components.toList.dedup.map fun id ↦
      (id, result.components.toList.count id)) := by
  let sorted := result.components.toList.mergeSort fun a b ↦ decide (a ≤ b)
  have hperm : sorted.Perm result.components.toList := List.mergeSort_perm _ _
  have hsorted : sorted.Pairwise (· ≤ ·) := by
    have hdecided : sorted.Pairwise fun a b ↦ decide (a ≤ b) = true := by
      apply List.pairwise_mergeSort
      · intro a b c hab hbc
        rw [decide_eq_true_iff] at hab hbc ⊢
        exact UInt64.le_trans hab hbc
      · intro a b
        rw [Bool.or_eq_true, decide_eq_true_iff, decide_eq_true_iff]
        exact UInt64.le_total a b
    exact hdecided.imp fun h ↦ decide_eq_true_iff.mp h
  have hsizes : result.componentSizes =
      sorted.dedup.map fun id ↦ (id, result.components.toList.count id) := by
    rw [componentSizes, runLengths_eq hsorted]
    simp only [hperm.count_eq]
  rw [hsizes]
  exact hperm.dedup.map _

theorem nodup_keys_componentSizes (result : Result) :
    (result.componentSizes.map Prod.fst).Nodup := by
  rw [(result.componentSizes_perm.map Prod.fst).nodup_iff, List.map_map]
  exact (List.map_id _).symm ▸ result.components.toList.nodup_dedup

/-- The sizes add up to the number of slots. -/
theorem sum_componentSizes (result : Result) :
    (result.componentSizes.map Prod.snd).sum = result.nodeCount := by
  rw [(result.componentSizes_perm.map Prod.snd).sum_eq, List.map_map]
  exact List.sum_map_count_dedup_eq_length _

theorem mem_componentSizes {size : ℕ} :
    (id, size) ∈ result.componentSizes ↔
      id ∈ result.components ∧ size = result.components.toList.count id := by
  rw [result.componentSizes_perm.mem_iff, List.mem_map, ← Array.mem_toList_iff, ← List.mem_dedup]
  constructor
  · rintro ⟨other, hother, heq⟩
    obtain ⟨rfl, rfl⟩ := Prod.mk.inj heq
    exact ⟨hother, rfl⟩
  · rintro ⟨hid, rfl⟩
    exact ⟨id, hid, rfl⟩

section

variable (hcount : result.nodeCount ≤ slotLimit)

include hcount

theorem map_componentOf?_slotsBelow :
    (slotsBelow result.nodeCount).map result.componentOf? = result.components.toList.map some :=
  map_getElem?_slotsBelow hcount

theorem exists_componentOf?_eq_iff :
    (∃ slot, result.componentOf? slot = some id) ↔ id ∈ result.components := by
  rw [← Array.mem_toList_iff, ← List.mem_map_of_injective (Option.some_injective _),
    ← map_componentOf?_slotsBelow hcount, List.mem_map]
  constructor
  · rintro ⟨slot, hslot⟩
    exact ⟨slot, (mem_slotsBelow hcount).mpr (Array.getElem?_eq_some_iff.mp hslot).1, hslot⟩
  · rintro ⟨slot, _, hslot⟩
    exact ⟨slot, hslot⟩

/-- A component occurs as often as there are slots with it. -/
theorem count_eq_ncard (id : UInt64) :
    result.components.toList.count id = {slot : Slot | result.componentOf? slot = some id}.ncard := by
  have hslots : {slot : Slot | result.componentOf? slot = some id} =
      ((slotsBelow result.nodeCount).filter fun slot ↦
        result.componentOf? slot == some id).toFinset := by
    ext slot
    rw [Finset.mem_coe, List.mem_toFinset, List.mem_filter, mem_slotsBelow hcount, beq_iff_eq]
    exact ⟨fun h ↦ ⟨(Array.getElem?_eq_some_iff.mp h).1, h⟩, And.right⟩
  calc
    result.components.toList.count id = (result.components.toList.map some).count (some id) :=
      (List.count_map_of_injective _ some (Option.some_injective _) id).symm
    _ = ((slotsBelow result.nodeCount).map result.componentOf?).count (some id) := by
      rw [map_componentOf?_slotsBelow hcount]
    _ = ((slotsBelow result.nodeCount).filter fun slot ↦
          result.componentOf? slot == some id).length := by
      rw [List.count, List.countP_map, List.countP_eq_length_filter]
      rfl
    _ = {slot : Slot | result.componentOf? slot = some id}.ncard := by
      rw [hslots, Set.ncard_coe_finset,
        List.toFinset_card_of_nodup ((nodup_slotsBelow hcount).filter _)]

/-- The sizes list every component that occurs with the number of its slots. -/
theorem mem_componentSizes_iff {size : ℕ} :
    (id, size) ∈ result.componentSizes ↔
      (∃ slot, result.componentOf? slot = some id) ∧
        size = {slot : Slot | result.componentOf? slot = some id}.ncard := by
  rw [mem_componentSizes, exists_componentOf?_eq_iff hcount, count_eq_ncard hcount]

/-- There are as many sizes as classes, if exactly the slots of a class have one component. -/
theorem length_componentSizes {relation : Slot → Slot → Prop} {seedAt : Slot → Option ℕ}
    {offset : ℕ} (h : Answers relation seedAt result.nodeCount offset result) :
    result.componentSizes.length = result.componentCount := by
  have himage : (slotsBelow result.nodeCount).toFinset.image result.componentOf? =
      result.components.toList.toFinset.image some := by
    ext component
    rw [Finset.mem_image, Finset.mem_image]
    simp only [List.mem_toFinset]
    rw [← List.mem_map, ← List.mem_map, map_componentOf?_slotsBelow hcount]
  calc
    result.componentSizes.length = result.components.toList.toFinset.card := by
      rw [result.componentSizes_perm.length_eq, List.length_map, List.card_toFinset]
    _ = (result.components.toList.toFinset.image some).card :=
      (Finset.card_image_of_injective _ (Option.some_injective _)).symm
    _ = (Connectivity.classes relation result.nodeCount).ncard := by
      rw [← himage]
      exact (Connectivity.ncard_classes_eq_card_image hcount h.same_iff).symm
    _ = result.componentCount := h.count_eq.symm

end

end WeakComponents.Components.Result
