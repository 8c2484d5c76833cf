import WeakComponents.Components.Run
import WeakComponents.Proofs.UnionFind.Runs

/-!
# Settling

Once all unions are done every slot is given the number of its root: the seed of the root, or the
root behind the offset. Asking for the roots keeps them, so what is settled depends only on the
classes that the seeds and the united pairs make.
-/

open Relation

namespace WeakComponents.Components

open UnionFind (Origin)

variable {origin : Origin} {forest : UnionFind} {pairs : List (Slot × Slot)} {slot : Slot}

section

variable {G : Type} [Graph G] {graph : G} {config : Config}

theorem checkNodeCount_eq_ok (hcount : Graph.nodeCount graph ≤ slotLimit) :
    checkNodeCount graph = .ok () :=
  if_neg (not_lt.mpr hcount)

theorem checkUnweighted_of_nodeCount_le (hcount : Graph.nodeCount graph ≤ slotLimit)
    (hvalid : config.validate = .ok ()) (hthreshold : config.threshold = none)
    (hunseeded : config.seedProperty = none) : checkUnweighted graph config = .ok () := by
  unfold checkUnweighted
  rw [hvalid, checkNodeCount_eq_ok hcount, hthreshold, hunseeded]
  rfl

end

/-- What the forest of a run is made for. -/
def originOf (count : ℕ) : Option (Array (Option UInt64)) → Origin
  | none => .unseeded count
  | some seeds => .seeded seeds

/-- There are no more nodes than slots, and seeds, if any, are given for all nodes and are not the
word that stands for having none. -/
structure Admissible (count : ℕ) (seeds : Option (Array (Option UInt64))) : Prop where
  count_le : count ≤ slotLimit
  size_eq : ∀ given ∈ seeds, given.size = count
  seed_lt : ∀ given ∈ seeds, ∀ seed, some seed ∈ given → seed < UnionFind.unseeded

/-- Without seeds any number of nodes that there are slots for is admissible. -/
theorem admissible_none {count : ℕ} (hcount : count ≤ slotLimit) : Admissible count none :=
  ⟨hcount, by simp, by simp⟩

theorem start_fst (count : ℕ) (seeds : Option (Array (Option UInt64))) :
    (start count seeds).1 = (originOf count seeds).forest := by
  cases seeds <;> rfl

theorem Admissible.size_originOf {count : ℕ} {seeds : Option (Array (Option UInt64))}
    (h : Admissible count seeds) : (originOf count seeds).size = count := by
  cases seeds with
  | none => rfl
  | some given => exact h.size_eq given rfl

theorem Admissible.valid {count : ℕ} {seeds : Option (Array (Option UInt64))}
    (h : Admissible count seeds) : (originOf count seeds).Valid where
  size_le := h.size_originOf.symm ▸ h.count_le
  seed_lt seed hseed := by
    cases seeds with
    | none => simp [originOf, Origin.seedList] at hseed
    | some given =>
      obtain ⟨entry, hentry, rfl⟩ := List.mem_filterMap.mp hseed
      exact h.seed_lt given rfl seed (Array.mem_toList_iff.mp hentry)

/-- The result that a run settles on once its unions are done. -/
def conclude (forest : UnionFind) (offset : UInt64) (minComponentSize : Option UInt64) : Result :=
  ⟨(settle forest offset).1, (settle forest offset).2.componentCount, minComponentSize⟩

/-- The number of the component with a root. -/
def numberOf (origin : Origin) (offset : UInt64) (root : Slot) : UInt64 :=
  (origin.seed? root).getD (offset + root.toUInt64)

theorem componentId_eq (hvalid : origin.Valid) (h : origin.Grown pairs forest) (offset : UInt64)
    (hslot : slot.toNat < origin.size) :
    componentId forest offset slot = numberOf origin offset slot := by
  unfold componentId numberOf
  rw [hvalid.seedOf_eq h.seeds_eq hslot]
  cases origin.seed? slot <;> rfl

theorem settleSlot_eq (hvalid : origin.Valid) (h : origin.Grown pairs forest) (offset : UInt64)
    (components : Array UInt64) (hslot : slot.toNat < origin.size) :
    settleSlot offset (components, forest) slot =
      (components.push (numberOf origin offset (forest.root slot)), forest.compress slot) := by
  have hroot : (forest.root slot).toNat < origin.size :=
    h.size_eq ▸ h.ordered.root_lt_size (h.size_eq ▸ hslot)
  unfold settleSlot UnionFind.setIdOf
  rw [h.find_eq hslot]
  dsimp only
  rw [componentId_eq hvalid (h.compress slot) offset hroot]

theorem foldl_settleSlot (hvalid : origin.Valid) (h : origin.Grown pairs forest) (offset : UInt64)
    (components : Array UInt64) {slots : List Slot}
    (hslots : ∀ slot ∈ slots, slot.toNat < origin.size) :
    ∃ settled, origin.Grown pairs settled ∧
      slots.foldl (settleSlot offset) (components, forest) =
        (components ++ (slots.map fun slot ↦ numberOf origin offset (forest.root slot)).toArray,
          settled) := by
  induction slots generalizing forest components with
  | nil => exact ⟨forest, h, by simp⟩
  | cons slot rest ih =>
    obtain ⟨hslot, hrest⟩ := List.forall_mem_cons.mp hslots
    obtain ⟨settled, hgrown, hfold⟩ :=
      ih (h.compress slot) (components.push (numberOf origin offset (forest.root slot))) hrest
    refine ⟨settled, hgrown, ?_⟩
    rw [List.foldl_cons, settleSlot_eq hvalid h offset components hslot, hfold]
    simp [h.ordered.root_compress]

/-- The number of every slot in order, and the number of classes. -/
theorem conclude_eq (hvalid : origin.Valid) (h : origin.Grown pairs forest) (offset : UInt64)
    (minComponentSize : Option UInt64) :
    conclude forest offset minComponentSize =
      ⟨(forest.slots.map fun slot ↦ numberOf origin offset (forest.root slot)).toArray,
        (Connectivity.classes (origin.Joins pairs) origin.size).ncard, minComponentSize⟩ := by
  have hsize : forest.size ≤ slotLimit := h.size_eq ▸ hvalid.size_le
  have hslots : ∀ slot ∈ forest.slots, slot.toNat < origin.size := by
    intro slot hslot
    rw [← h.size_eq]
    exact (mem_slotsBelow hsize).mp hslot
  obtain ⟨settled, hgrown, hfold⟩ := foldl_settleSlot hvalid h offset #[] hslots
  have hcount := hgrown.represents.componentCount_eq hgrown.ordered
    (hgrown.size_eq ▸ hvalid.size_le)
  unfold conclude settle
  rw [hfold, hcount, hgrown.size_eq]
  simp

end WeakComponents.Components
