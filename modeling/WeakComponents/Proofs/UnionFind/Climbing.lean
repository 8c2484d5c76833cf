import Mathlib.Data.Prod.Lex
import Mathlib.Logic.Function.Iterate
import WeakComponents.UnionFind

/-!
# Climbing to a root

In an ordered forest every parent link leads to a slot with a strictly smaller key. Climbing the
links from a slot therefore ends, at the one slot of its tree that is its own parent, and the root
function is determined by what it does on a single link.
-/

namespace WeakComponents.UnionFind

variable {forest : UnionFind} {slot a b : Slot}

/-- The key of a slot: its seed and then the slot itself, compared in this order. -/
def key (forest : UnionFind) (slot : Slot) : ℕ ×ₗ ℕ :=
  toLex ((forest.seedKey slot).toNat, slot.toNat)

theorem key_lt_key_iff :
    forest.key a < forest.key b ↔
      forest.seedKey a < forest.seedKey b ∨ forest.seedKey a = forest.seedKey b ∧ a < b := by
  unfold key
  rw [Prod.Lex.toLex_lt_toLex, UInt64.toNat_inj, ← UInt64.lt_iff_toNat_lt,
    ← UInt32.lt_iff_toNat_lt]

theorem precedes_iff_key_lt :
    forest.precedes a b = true ↔ forest.key a < forest.key b := by
  rw [key_lt_key_iff]
  simp [precedes]

theorem key_injective (forest : UnionFind) : Function.Injective forest.key := by
  intro a b h
  have hslot : a.toNat = b.toNat := congrArg (fun pair ↦ (ofLex pair).2) h
  exact UInt32.toNat_inj.mp hslot

theorem key_eq_of_seeds_eq {other : UnionFind} (h : forest.seeds = other.seeds) :
    forest.key = other.key := by
  funext slot
  simp [key, seedKey, h]

/-- Every parent link stays within the forest and leads to a strictly smaller key. -/
structure Ordered (forest : UnionFind) : Prop where
  parent_lt_size : ∀ slot, slot.toNat < forest.size → (forest.parent slot).toNat < forest.size
  key_parent_lt : ∀ slot, forest.parent slot ≠ slot →
    forest.key (forest.parent slot) < forest.key slot

theorem parent_of_size_le (h : forest.size ≤ slot.toNat) : forest.parent slot = slot := by
  unfold parent
  rw [Array.getElem?_eq_none h, Option.getD_none]

theorem Ordered.precedes_parent_iff (h : forest.Ordered) :
    forest.precedes (forest.parent slot) slot = true ↔ forest.parent slot ≠ slot := by
  rw [precedes_iff_key_lt]
  refine ⟨fun hlt heq ↦ ?_, h.key_parent_lt slot⟩
  rw [heq] at hlt
  exact lt_irrefl _ hlt

/-- Climbing stops at a slot that is its own parent and nowhere else. -/
theorem Ordered.root_eq_ite (h : forest.Ordered) (slot : Slot) :
    forest.root slot =
      if forest.parent slot = slot then slot else forest.root (forest.parent slot) := by
  rw [root]
  simp only [h.precedes_parent_iff, ne_eq, ite_not]

theorem Ordered.root_eq_self_of_parent (h : forest.Ordered) (hroot : forest.parent slot = slot) :
    forest.root slot = slot := by
  rw [h.root_eq_ite, if_pos hroot]

@[simp]
theorem Ordered.root_parent (h : forest.Ordered) (slot : Slot) :
    forest.root (forest.parent slot) = forest.root slot := by
  by_cases hroot : forest.parent slot = slot
  · rw [hroot]
  · rw [h.root_eq_ite slot, if_neg hroot]

/-- A property that climbs every link holds between a slot and its root. -/
theorem Ordered.root_induction (h : forest.Ordered) {motive : Slot → Prop}
    (isRoot : ∀ slot, forest.parent slot = slot → motive slot)
    (climb : ∀ slot, forest.parent slot ≠ slot → motive (forest.parent slot) → motive slot)
    (slot : Slot) : motive slot := by
  have hwell : WellFounded (InvImage (· < ·) forest.key) := InvImage.wf _ wellFounded_lt
  induction slot using hwell.induction with
  | h slot ih =>
    by_cases hroot : forest.parent slot = slot
    · exact isRoot slot hroot
    · exact climb slot hroot (ih _ (h.key_parent_lt slot hroot))

theorem Ordered.parent_root (h : forest.Ordered) (slot : Slot) :
    forest.parent (forest.root slot) = forest.root slot := by
  induction slot using h.root_induction with
  | isRoot slot hroot => rw [h.root_eq_self_of_parent hroot, hroot]
  | climb slot _ ih => rwa [h.root_parent] at ih

@[simp]
theorem Ordered.root_root (h : forest.Ordered) (slot : Slot) :
    forest.root (forest.root slot) = forest.root slot :=
  h.root_eq_self_of_parent (h.parent_root slot)

theorem Ordered.root_eq_self_iff (h : forest.Ordered) :
    forest.root slot = slot ↔ forest.parent slot = slot := by
  refine ⟨fun heq ↦ ?_, h.root_eq_self_of_parent⟩
  rw [← heq]
  exact h.parent_root slot

theorem Ordered.root_lt_size (h : forest.Ordered) (hslot : slot.toNat < forest.size) :
    (forest.root slot).toNat < forest.size := by
  induction slot using h.root_induction with
  | isRoot slot hroot => rwa [h.root_eq_self_of_parent hroot]
  | climb slot _ ih =>
    rw [← h.root_parent]
    exact ih (h.parent_lt_size slot hslot)

theorem Ordered.key_root_le (h : forest.Ordered) (slot : Slot) :
    forest.key (forest.root slot) ≤ forest.key slot := by
  induction slot using h.root_induction with
  | isRoot slot hroot => rw [h.root_eq_self_of_parent hroot]
  | climb slot hroot ih =>
    calc
      forest.key (forest.root slot) = forest.key (forest.root (forest.parent slot)) := by
        rw [h.root_parent]
      _ ≤ forest.key (forest.parent slot) := ih
      _ ≤ forest.key slot := (h.key_parent_lt slot hroot).le

/-- Following parent links one at a time ends, at the root. -/
theorem Ordered.exists_iterate_parent_eq_root (h : forest.Ordered) (slot : Slot) :
    ∃ steps, forest.parent^[steps] slot = forest.root slot := by
  induction slot using h.root_induction with
  | isRoot slot hroot => exact ⟨0, (h.root_eq_self_of_parent hroot).symm⟩
  | climb slot _ ih =>
    have ⟨steps, hsteps⟩ := ih
    refine ⟨steps + 1, ?_⟩
    calc
      forest.parent^[steps + 1] slot = forest.parent^[steps] (forest.parent slot) :=
        Function.iterate_succ_apply forest.parent steps slot
      _ = forest.root (forest.parent slot) := hsteps
      _ = forest.root slot := h.root_parent slot

/-- A function that fixes the roots of a forest and is constant along links is the root function. -/
theorem Ordered.root_eq_of_climb (h : forest.Ordered) {target : Slot → Slot}
    (hroot : ∀ slot, forest.parent slot = slot → target slot = slot)
    (hlink : ∀ slot, target (forest.parent slot) = target slot) : forest.root = target := by
  funext slot
  induction slot using h.root_induction with
  | isRoot slot hself => rw [h.root_eq_self_of_parent hself, hroot slot hself]
  | climb slot _ ih => rw [← h.root_parent, ih, hlink]

/-- The path to the root holds every slot on the way that is not its own parent. -/
theorem Ordered.path_eq_ite (h : forest.Ordered) (slot : Slot) :
    forest.path slot =
      if forest.parent slot = slot then [] else slot :: forest.path (forest.parent slot) := by
  rw [path]
  simp only [h.precedes_parent_iff, ne_eq, ite_not]

theorem Ordered.root_eq_of_mem_path (h : forest.Ordered) {member : Slot}
    (hmember : member ∈ forest.path slot) :
    forest.root member = forest.root slot ∧ forest.parent member ≠ member := by
  induction slot using h.root_induction with
  | isRoot slot hroot =>
    rw [h.path_eq_ite, if_pos hroot] at hmember
    exact absurd hmember List.not_mem_nil
  | climb slot hroot ih =>
    rw [h.path_eq_ite, if_neg hroot] at hmember
    rcases List.mem_cons.mp hmember with rfl | hmember
    · exact ⟨rfl, hroot⟩
    · rw [← h.root_parent slot]
      exact ih hmember

theorem Ordered.root_iterate_parent (h : forest.Ordered) (slot : Slot) (steps : ℕ) :
    forest.root (forest.parent^[steps] slot) = forest.root slot := by
  induction steps generalizing slot with
  | zero => rfl
  | succ steps ih => rw [Function.iterate_succ_apply, ih, h.root_parent]

/-- The path holds what climbing comes by, except for the root. -/
theorem Ordered.mem_path_iff (h : forest.Ordered) {member : Slot} :
    member ∈ forest.path slot ↔
      (∃ steps, forest.parent^[steps] slot = member) ∧ forest.parent member ≠ member := by
  induction slot using h.root_induction with
  | isRoot slot hroot =>
    rw [h.path_eq_ite, if_pos hroot]
    constructor
    · intro hmember
      exact absurd hmember List.not_mem_nil
    · rintro ⟨⟨steps, rfl⟩, hne⟩
      rw [Function.iterate_fixed hroot] at hne
      exact absurd hroot hne
  | climb slot hroot ih =>
    rw [h.path_eq_ite, if_neg hroot, List.mem_cons, ih]
    constructor
    · rintro (rfl | ⟨⟨steps, hsteps⟩, hne⟩)
      · exact ⟨⟨0, rfl⟩, hroot⟩
      · exact ⟨⟨steps + 1, hsteps⟩, hne⟩
    · rintro ⟨⟨steps, hsteps⟩, hne⟩
      cases steps with
      | zero => exact .inl hsteps.symm
      | succ steps => exact .inr ⟨⟨steps, hsteps⟩, hne⟩

end WeakComponents.UnionFind
