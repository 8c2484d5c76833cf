import Mathlib.Order.Defs.LinearOrder
import WeakComponents.IdMap
import WeakComponents.Proofs.Slots

/-!
# Searching ascending ids

Ids are ordered as numbers. An array of strictly ascending ids holds each id at one position at
most, and binary search finds it there.
-/

namespace WeakComponents

namespace NodeId

instance : LinearOrder NodeId where
  le_refl id := UInt64.le_refl id.value
  le_trans _ _ _ := UInt64.le_trans
  lt_iff_le_not_ge a b := by
    change a.value < b.value ↔ a.value ≤ b.value ∧ ¬ b.value ≤ a.value
    rw [UInt64.lt_iff_toNat_lt, UInt64.le_iff_toNat_le, UInt64.le_iff_toNat_le]
    omega
  le_antisymm _ _ hab hba := congrArg NodeId.mk (UInt64.le_antisymm hab hba)
  le_total a b := UInt64.le_total a.value b.value
  toDecidableLE := inferInstance
  toDecidableEq := inferInstance
  toDecidableLT := inferInstance

theorem pairwise_sort (ids : List NodeId) : (sort ids).Pairwise (· ≤ ·) := by
  have hsorted : (sort ids).Pairwise fun a b ↦ decide (a ≤ b) = true := by
    apply List.pairwise_mergeSort
    · intro a b c hab hbc
      rw [decide_eq_true_iff] at hab hbc ⊢
      exact le_trans hab hbc
    · intro a b
      rw [Bool.or_eq_true, decide_eq_true_iff, decide_eq_true_iff]
      exact le_total a b
  exact hsorted.imp fun h ↦ decide_eq_true_iff.mp h

end NodeId

namespace IdMap

section

variable {nodes : Array NodeId} {node : NodeId} {low high position : ℕ}

theorem lt_of_getElem?_of_lt (h : nodes.toList.Pairwise (· < ·)) {earlier later : ℕ}
    {a b : NodeId} (ha : nodes[earlier]? = some a) (hb : nodes[later]? = some b)
    (hlt : earlier < later) : a < b := by
  obtain ⟨hearlier, rfl⟩ := Array.getElem?_eq_some_iff.mp ha
  obtain ⟨hlater, rfl⟩ := Array.getElem?_eq_some_iff.mp hb
  exact List.pairwise_iff_getElem.mp h earlier later hearlier hlater hlt

theorem getElem?_of_search_eq_some (h : search nodes node low high = some position) :
    nodes[position]? = some node := by
  induction low, high using search.induct nodes node with
  | case1 low high hlt middle hnone =>
    rw [search, dif_pos hlt] at h
    simp [middle, hnone] at h
  | case2 low high hlt middle hfound =>
    rw [search, dif_pos hlt] at h
    simp only [middle, hfound, if_true, Option.some.injEq] at h
    rwa [← h]
  | case3 low high hlt middle found hfound hne hless ih =>
    rw [search, dif_pos hlt] at h
    simp only [middle, hfound, if_neg hne, if_pos hless] at h
    exact ih h
  | case4 low high hlt middle found hfound hne hless ih =>
    rw [search, dif_pos hlt] at h
    simp only [middle, hfound, if_neg hne, if_neg hless] at h
    exact ih h
  | case5 low high hlt =>
    rw [search, dif_neg hlt] at h
    exact absurd h (by simp)

theorem search_eq_some_of_getElem? (hascending : nodes.toList.Pairwise (· < ·))
    (hnode : nodes[position]? = some node) (hlow : low ≤ position) (hhigh : position < high)
    (hsize : high ≤ nodes.size) : search nodes node low high = some position := by
  induction low, high using search.induct nodes node with
  | case1 low high hlt middle hnone =>
    rw [Array.getElem?_eq_none_iff] at hnone
    omega
  | case2 low high hlt middle hfound =>
    have hsame : middle = position := by
      rcases Nat.lt_trichotomy middle position with hbefore | hsame | hafter
      · exact absurd (lt_of_getElem?_of_lt hascending hfound hnode hbefore) (lt_irrefl node)
      · exact hsame
      · exact absurd (lt_of_getElem?_of_lt hascending hnode hfound hafter) (lt_irrefl node)
    rw [search, dif_pos hlt]
    simp only [middle] at hsame
    simp [hsame, hnode]
  | case3 low high hlt middle found hfound hne hless ih =>
    -- everything up to the middle is smaller than what is searched for
    have hafter : middle < position := by
      rcases Nat.lt_trichotomy middle position with hafter | rfl | hbefore
      · exact hafter
      · exact absurd (Option.some.inj (hfound.symm.trans hnode)) hne
      · exact absurd (lt_of_getElem?_of_lt hascending hnode hfound hbefore) (lt_asymm hless)
    rw [search, dif_pos hlt]
    simp only [middle] at hfound
    simp only [hfound, if_neg hne, if_pos hless]
    exact ih hafter hhigh hsize
  | case4 low high hlt middle found hfound hne hless ih =>
    have hbefore : position < middle := by
      rcases Nat.lt_trichotomy middle position with hafter | rfl | hbefore
      · exact absurd (lt_of_getElem?_of_lt hascending hfound hnode hafter) hless
      · exact absurd (Option.some.inj (hfound.symm.trans hnode)) hne
      · exact hbefore
    have hmiddle : middle ≤ nodes.size := by omega
    rw [search, dif_pos hlt]
    simp only [middle] at hfound
    simp only [hfound, if_neg hne, if_neg hless]
    exact ih hlow hbefore hmiddle
  | case5 low high hlt => omega

/-- Binary search among ascending ids finds the position of every id that is there. -/
theorem search_eq_some_iff (hascending : nodes.toList.Pairwise (· < ·)) :
    search nodes node 0 nodes.size = some position ↔ nodes[position]? = some node := by
  constructor
  · exact getElem?_of_search_eq_some
  · intro hnode
    have hposition : position < nodes.size := (Array.getElem?_eq_some_iff.mp hnode).1
    exact search_eq_some_of_getElem? hascending hnode (Nat.zero_le _) hposition (Nat.le_refl _)

end

end IdMap

end WeakComponents
