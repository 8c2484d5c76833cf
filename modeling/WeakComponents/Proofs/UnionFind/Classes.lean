import WeakComponents.Proofs.Connectivity
import WeakComponents.Proofs.Slots
import WeakComponents.Proofs.UnionFind.Operations

/-!
# The sets of a forest

A forest stands for a relation when its trees are the classes that the relation connects. Merging
two slots adds one step to the relation, so a forest that merges a list of pairs stands for the
relation it started from with those pairs added, and it has as many roots as there are classes.
-/

open Relation

namespace WeakComponents.UnionFind

variable {forest : UnionFind} {relation other : Slot → Slot → Prop} {slot a b : Slot}

theorem slots_eq (forest : UnionFind) : forest.slots = slotsBelow forest.size := rfl

/-- Two slots are in one tree exactly if the relation connects them. -/
def Represents (forest : UnionFind) (relation : Slot → Slot → Prop) : Prop :=
  ∀ a b, forest.root a = forest.root b ↔ EqvGen relation a b

theorem Represents.congr (h : forest.Represents relation) (heq : EqvGen relation = EqvGen other) :
    forest.Represents other := by
  intro a b
  rw [h a b, heq]

theorem Represents.merge (hrep : forest.Represents relation) (h : forest.Ordered)
    (ha : a.toNat < forest.size) (hb : b.toNat < forest.size) :
    (forest.merge a b).Represents (Connectivity.withStep relation a b) := by
  obtain ⟨_, hroot⟩ := h.root_merge_eq_iff ha hb
  have hstep : EqvGen (Connectivity.withStep relation a b) a b :=
    Connectivity.eqvGen_withStep_step
  have hold {x y : Slot} (hxy : forest.root x = forest.root y) :
      EqvGen (Connectivity.withStep relation a b) x y :=
    Connectivity.eqvGen_withStep_of_eqvGen ((hrep x y).mp hxy)
  intro x y
  rw [hroot]
  constructor
  · rintro (hxy | ⟨hxa, hyb⟩ | ⟨hxb, hya⟩)
    · exact hold hxy
    · exact ((hold hxa).trans x a b hstep).trans x b y (hold hyb.symm)
    · exact ((hold hxb).trans x b a (hstep.symm a b)).trans x a y (hold hya.symm)
  · intro hxy
    rw [← hroot]
    induction hxy with
    | rel x y hstep =>
      rcases hstep with hstep | ⟨rfl, rfl⟩
      · exact (hroot x y).mpr (.inl ((hrep x y).mpr (.rel x y hstep)))
      · exact (hroot x y).mpr (.inr (.inl ⟨rfl, rfl⟩))
    | refl x => rfl
    | symm x y _ ih => exact ih.symm
    | trans x y z _ _ hxy hyz => exact hxy.trans hyz

/-- The root of a set is its member with the smallest key. -/
theorem Represents.key_root_le (hrep : forest.Represents relation) (h : forest.Ordered)
    (hconnected : EqvGen relation a b) : forest.key (forest.root a) ≤ forest.key b := by
  rw [(hrep a b).mpr hconnected]
  exact h.key_root_le b

theorem Represents.eqvGen_root (hrep : forest.Represents relation) (h : forest.Ordered)
    (slot : Slot) : EqvGen relation slot (forest.root slot) :=
  (hrep _ _).mp (h.root_root slot).symm

/-- Forests with the same keys that stand for the same classes have the same roots. -/
theorem Represents.root_eq {forest' : UnionFind} (hrep : forest.Represents relation)
    (hrep' : forest'.Represents relation) (h : forest.Ordered) (h' : forest'.Ordered)
    (hseeds : forest.seeds = forest'.seeds) (slot : Slot) :
    forest.root slot = forest'.root slot := by
  apply forest.key_injective
  apply le_antisymm
  · exact hrep.key_root_le h (hrep'.eqvGen_root h' slot)
  · calc
      forest.key (forest'.root slot) = forest'.key (forest'.root slot) := by
        rw [key_eq_of_seeds_eq hseeds]
      _ ≤ forest'.key (forest.root slot) := hrep'.key_root_le h' (hrep.eqvGen_root h slot)
      _ = forest.key (forest.root slot) := by rw [key_eq_of_seeds_eq hseeds]

/-- The slots that stand for their sets. -/
def roots (forest : UnionFind) : Finset Slot :=
  forest.slots.toFinset.filter fun slot ↦ forest.root slot = slot

theorem mem_roots (hsize : forest.size ≤ slotLimit) {slot : Slot} :
    slot ∈ forest.roots ↔ slot.toNat < forest.size ∧ forest.root slot = slot := by
  rw [roots, Finset.mem_filter, List.mem_toFinset, slots_eq, mem_slotsBelow hsize]

theorem Ordered.componentCount_eq_card_roots (h : forest.Ordered)
    (hsize : forest.size ≤ slotLimit) : forest.componentCount = forest.roots.card := by
  have hnodup : forest.slots.Nodup := nodup_slotsBelow hsize
  have hfilter : forest.roots =
      (forest.slots.filter fun slot ↦ decide (forest.root slot = slot)).toFinset := by
    rw [roots, List.toFinset_filter]
    simp only [decide_eq_true_eq]
  rw [hfilter, List.toFinset_card_of_nodup (hnodup.filter _), h.componentCount_eq,
    List.countP_eq_length_filter]

theorem Ordered.componentCount_eq_ncard (h : forest.Ordered) (hsize : forest.size ≤ slotLimit) :
    forest.componentCount =
      {slot : Slot | slot.toNat < forest.size ∧ forest.root slot = slot}.ncard := by
  have hset : {slot : Slot | slot.toNat < forest.size ∧ forest.root slot = slot} =
      (forest.roots : Set Slot) := by
    ext slot
    exact (mem_roots hsize).symm
  rw [hset, Set.ncard_coe_finset, h.componentCount_eq_card_roots hsize]

theorem Represents.componentCount_eq (hrep : forest.Represents relation) (h : forest.Ordered)
    (hsize : forest.size ≤ slotLimit) :
    forest.componentCount = (Connectivity.classes relation forest.size).ncard := by
  calc
    forest.componentCount =
        {slot : Slot | slot.toNat < forest.size ∧ forest.root slot = slot}.ncard :=
      h.componentCount_eq_ncard hsize
    _ = (Connectivity.classes relation forest.size).ncard :=
      (Connectivity.ncard_classes_eq hrep h.root_root fun _ ↦ h.root_lt_size).symm

/-- The forest after the sets of some pairs were merged in order. -/
def mergeAll (forest : UnionFind) (pairs : List (Slot × Slot)) : UnionFind :=
  pairs.foldl (fun forest pair ↦ forest.merge pair.1 pair.2) forest

@[simp]
theorem mergeAll_nil (forest : UnionFind) : forest.mergeAll [] = forest := rfl

@[simp]
theorem mergeAll_cons (forest : UnionFind) (pair : Slot × Slot) (pairs : List (Slot × Slot)) :
    forest.mergeAll (pair :: pairs) = (forest.merge pair.1 pair.2).mergeAll pairs := rfl

theorem mergeAll_append (forest : UnionFind) (pairs pairs' : List (Slot × Slot)) :
    forest.mergeAll (pairs ++ pairs') = (forest.mergeAll pairs).mergeAll pairs' :=
  List.foldl_append

@[simp]
theorem size_mergeAll (forest : UnionFind) (pairs : List (Slot × Slot)) :
    (forest.mergeAll pairs).size = forest.size := by
  induction pairs generalizing forest with
  | nil => rfl
  | cons pair rest ih => rw [mergeAll_cons, ih, size_merge]

@[simp]
theorem seeds_mergeAll (forest : UnionFind) (pairs : List (Slot × Slot)) :
    (forest.mergeAll pairs).seeds = forest.seeds := by
  induction pairs generalizing forest with
  | nil => rfl
  | cons pair rest ih => rw [mergeAll_cons, ih, seeds_merge]

/-- Both slots of every pair are below a count. -/
def PairsBelow (count : ℕ) (pairs : List (Slot × Slot)) : Prop :=
  ∀ pair ∈ pairs, pair.1.toNat < count ∧ pair.2.toNat < count

theorem PairsBelow.of_cons {count : ℕ} {pair : Slot × Slot} {pairs : List (Slot × Slot)}
    (h : PairsBelow count (pair :: pairs)) :
    (pair.1.toNat < count ∧ pair.2.toNat < count) ∧ PairsBelow count pairs :=
  List.forall_mem_cons.mp h

theorem Ordered.mergeAll (h : forest.Ordered) {pairs : List (Slot × Slot)}
    (hpairs : PairsBelow forest.size pairs) : (forest.mergeAll pairs).Ordered := by
  induction pairs generalizing forest with
  | nil => exact h
  | cons pair rest ih =>
    obtain ⟨⟨ha, hb⟩, hrest⟩ := hpairs.of_cons
    exact ih (h.merge ha hb) (by rwa [size_merge])

/-- The forest stands for its relation with all the pairs added. -/
theorem Represents.mergeAll (hrep : forest.Represents relation) (h : forest.Ordered)
    {pairs : List (Slot × Slot)} (hpairs : PairsBelow forest.size pairs) :
    (forest.mergeAll pairs).Represents fun x y ↦ relation x y ∨ (x, y) ∈ pairs := by
  induction pairs generalizing forest relation with
  | nil => simpa using hrep
  | cons pair rest ih =>
    obtain ⟨⟨ha, hb⟩, hrest⟩ := hpairs.of_cons
    have hnext := ih (hrep.merge h ha hb) (h.merge ha hb) (by rwa [size_merge])
    have hsame : (fun x y ↦ Connectivity.withStep relation pair.1 pair.2 x y ∨ (x, y) ∈ rest) =
        fun x y ↦ relation x y ∨ (x, y) ∈ pair :: rest := by
      ext x y
      simp only [Connectivity.withStep, List.mem_cons, Prod.ext_iff, or_assoc]
    rw [mergeAll_cons, ← hsame]
    exact hnext

/-- In bounds, merging pairs one after the other succeeds. -/
theorem Ordered.unionAll_eq (h : forest.Ordered) {pairs : List (Slot × Slot)}
    (hpairs : PairsBelow forest.size pairs) :
    ∃ answers, forest.unionAll pairs = (.ok answers, forest.mergeAll pairs) := by
  induction pairs generalizing forest with
  | nil => exact ⟨[], rfl⟩
  | cons pair rest ih =>
    obtain ⟨⟨ha, hb⟩, hrest⟩ := hpairs.of_cons
    obtain ⟨answers, hanswers⟩ := ih (h.merge ha hb) (by rwa [size_merge])
    refine ⟨decide (forest.root pair.1 ≠ forest.root pair.2) :: answers, ?_⟩
    rw [unionAll, h.union_eq ha hb]
    dsimp only
    rw [hanswers, mergeAll_cons]

end WeakComponents.UnionFind
