import WeakComponents.Proofs.UnionFind.Origin

/-!
# Runs of operations

Whatever is asked of a forest, its trees stay the classes of the slots that were given the same
seed or were united. Each operation keeps this, so every run does, and the answers along a run are
those of an equivalence relation whose classes stand for their members with the smallest keys.
-/

open Relation

namespace WeakComponents.UnionFind

namespace Origin

/-- The slots that share a seed or are one of the pairs. -/
def Joins (origin : Origin) (pairs : List (Slot × Slot)) (a b : Slot) : Prop :=
  origin.SharesSeed a b ∨ (a, b) ∈ pairs

/-- A forest that an origin gives when some pairs are united. -/
structure Grown (origin : Origin) (pairs : List (Slot × Slot)) (forest : UnionFind) : Prop where
  ordered : forest.Ordered
  size_eq : forest.size = origin.size
  seeds_eq : forest.seeds = origin.forest.seeds
  represents : forest.Represents (origin.Joins pairs)

variable {origin : Origin} {forest : UnionFind} {pairs : List (Slot × Slot)} {slot a b : Slot}

theorem Valid.grown (h : origin.Valid) : origin.Grown [] origin.forest where
  ordered := h.ordered_forest
  size_eq := h.size_forest
  seeds_eq := rfl
  represents := by
    have hjoins : origin.Joins [] = origin.SharesSeed := by
      ext a b
      simp [Joins]
    rw [hjoins]
    exact h.represents_forest

theorem Grown.compress (h : origin.Grown pairs forest) (slot : Slot) :
    origin.Grown pairs (forest.compress slot) where
  ordered := h.ordered.compress slot
  size_eq := by rw [size_compress, h.size_eq]
  seeds_eq := by rw [seeds_compress, h.seeds_eq]
  represents a b := by
    rw [h.ordered.root_compress, h.ordered.root_compress]
    exact h.represents a b

theorem Grown.mergeAll (h : origin.Grown pairs forest) {more : List (Slot × Slot)}
    (hmore : PairsBelow origin.size more) :
    origin.Grown (pairs ++ more) (forest.mergeAll more) where
  ordered := h.ordered.mergeAll (h.size_eq ▸ hmore)
  size_eq := by rw [size_mergeAll, h.size_eq]
  seeds_eq := by rw [seeds_mergeAll, h.seeds_eq]
  represents := by
    have hjoins : (fun a b ↦ origin.Joins pairs a b ∨ (a, b) ∈ more) =
        origin.Joins (pairs ++ more) := by
      ext a b
      simp only [Joins, List.mem_append, or_assoc]
    rw [← hjoins]
    exact h.represents.mergeAll h.ordered (h.size_eq ▸ hmore)

theorem Grown.merge (h : origin.Grown pairs forest) (ha : a.toNat < origin.size)
    (hb : b.toNat < origin.size) : origin.Grown (pairs ++ [(a, b)]) (forest.merge a b) := by
  have hpair : PairsBelow origin.size [(a, b)] := by simp [PairsBelow, ha, hb]
  exact h.mergeAll hpair

end Origin

/-- Something asked of a forest. -/
inductive Operation where
  | union (a b : Slot)
  | find (slot : Slot)
  | setIdOf (slot : Slot)
  | sameSet (a b : Slot)

namespace Operation

/-- The pairs that an operation unites. -/
def pairs : Operation → List (Slot × Slot)
  | union a b => [(a, b)]
  | find _ | setIdOf _ | sameSet _ _ => []

/-- The slots that an operation names. -/
def slots : Operation → List Slot
  | union a b | sameSet a b => [a, b]
  | find slot | setIdOf slot => [slot]

end Operation

/-- The forest that an operation leaves behind. -/
def perform (forest : UnionFind) : Operation → UnionFind
  | .union a b => (forest.union a b).2
  | .find slot => (forest.find slot).2
  | .setIdOf slot => (forest.setIdOf slot).2
  | .sameSet a b => (forest.sameSet a b).2

namespace Origin

variable {origin : Origin} {forest : UnionFind} {pairs : List (Slot × Slot)} {slot a b : Slot}

/-- The forest after some operations on the one made for an origin. -/
def after (origin : Origin) (operations : List Operation) : UnionFind :=
  operations.foldl perform origin.forest

/-- Two slots are connected by shared seeds and by the pairs that operations united. -/
def Connected (origin : Origin) (operations : List Operation) : Slot → Slot → Prop :=
  EqvGen (origin.Joins (operations.flatMap Operation.pairs))

theorem Grown.find_eq (h : origin.Grown pairs forest) (hslot : slot.toNat < origin.size) :
    forest.find slot = (.ok (forest.root slot), forest.compress slot) :=
  find_of_lt (h.size_eq ▸ hslot)

theorem Grown.union_eq (h : origin.Grown pairs forest) (ha : a.toNat < origin.size)
    (hb : b.toNat < origin.size) :
    forest.union a b = (.ok (decide (forest.root a ≠ forest.root b)), forest.merge a b) :=
  h.ordered.union_eq (h.size_eq ▸ ha) (h.size_eq ▸ hb)

theorem Grown.sameSet_eq (h : origin.Grown pairs forest) (ha : a.toNat < origin.size)
    (hb : b.toNat < origin.size) :
    forest.sameSet a b =
      (.ok (forest.root a == forest.root b), (forest.compress a).compress b) := by
  unfold sameSet
  rw [h.find_eq ha]
  dsimp only
  rw [(h.compress a).find_eq hb, h.ordered.root_compress]

/-- One operation keeps the trees the classes of all pairs united so far. -/
theorem Grown.perform (h : origin.Grown pairs forest) {operation : Operation}
    (hbelow : ∀ slot ∈ operation.slots, slot.toNat < origin.size) :
    origin.Grown (pairs ++ operation.pairs) (forest.perform operation) := by
  cases operation with
  | union a b =>
    have ha := hbelow a (by simp [Operation.slots])
    have hb := hbelow b (by simp [Operation.slots])
    rw [UnionFind.perform, h.union_eq ha hb]
    exact h.merge ha hb
  | find slot =>
    rw [UnionFind.perform, h.find_eq (hbelow slot (by simp [Operation.slots])), Operation.pairs,
      List.append_nil]
    exact h.compress slot
  | setIdOf slot =>
    rw [UnionFind.perform, setIdOf, h.find_eq (hbelow slot (by simp [Operation.slots])),
      Operation.pairs, List.append_nil]
    exact h.compress slot
  | sameSet a b =>
    have ha := hbelow a (by simp [Operation.slots])
    have hb := hbelow b (by simp [Operation.slots])
    rw [UnionFind.perform, h.sameSet_eq ha hb, Operation.pairs, List.append_nil]
    exact (h.compress a).compress b

theorem Grown.foldl_perform (h : origin.Grown pairs forest) {operations : List Operation}
    (hbelow : ∀ operation ∈ operations, ∀ slot ∈ operation.slots, slot.toNat < origin.size) :
    origin.Grown (pairs ++ operations.flatMap Operation.pairs)
      (operations.foldl UnionFind.perform forest) := by
  induction operations generalizing pairs forest with
  | nil => simpa using h
  | cons operation rest ih =>
    obtain ⟨hfirst, hrest⟩ := List.forall_mem_cons.mp hbelow
    rw [List.foldl_cons, List.flatMap_cons, ← List.append_assoc]
    exact ih (h.perform hfirst) hrest

theorem Valid.grown_after (h : origin.Valid) {operations : List Operation}
    (hbelow : ∀ operation ∈ operations, ∀ slot ∈ operation.slots, slot.toNat < origin.size) :
    origin.Grown (operations.flatMap Operation.pairs) (origin.after operations) :=
  h.grown.foldl_perform hbelow

/-- The root of a slot is the member of its class with the smallest key. -/
theorem Grown.key_root_le (h : origin.Grown pairs forest) (hvalid : origin.Valid)
    (hconnected : EqvGen (origin.Joins pairs) a b) :
    origin.key (forest.root a) ≤ origin.key b := by
  have hkey := h.represents.key_root_le h.ordered hconnected
  rw [← not_lt] at hkey ⊢
  rwa [hvalid.key_lt_key_iff h.seeds_eq] at hkey

/--
After any run within bounds every link that leads away from its slot leads to a smaller key, so
that climbing ends; it ends at the member with the smallest key of the class that the shared seeds
and the united pairs make; and slots are in one set, and are refused by a union, exactly if they
are connected.
-/
theorem answers_after_run (h : origin.Valid) {operations : List Operation}
    (hbelow : ∀ operation ∈ operations, ∀ slot ∈ operation.slots, slot.toNat < origin.size) :
    (∀ slot, (origin.after operations).parent slot ≠ slot →
      ((origin.after operations).parent slot).toNat < origin.size ∧
        origin.key ((origin.after operations).parent slot) < origin.key slot) ∧
    (∀ slot, slot.toNat < origin.size → ∃ root,
      ((origin.after operations).find slot).1 = .ok root ∧
        ((origin.after operations).setIdOf slot).1 = .ok root ∧
        (∃ steps, (origin.after operations).parent^[steps] slot = root) ∧
        (origin.after operations).parent root = root ∧
        origin.Connected operations slot root ∧
        ∀ other, origin.Connected operations slot other → origin.key root ≤ origin.key other) ∧
    (∀ a b, a.toNat < origin.size → b.toNat < origin.size → ∃ same,
      ((origin.after operations).sameSet a b).1 = .ok same ∧
        (same = true ↔ origin.Connected operations a b)) ∧
    (∀ a b, a.toNat < origin.size → b.toNat < origin.size → ∃ merged,
      ((origin.after operations).union a b).1 = .ok merged ∧
        (merged = true ↔ ¬ origin.Connected operations a b)) := by
  have hgrown := h.grown_after hbelow
  refine ⟨fun slot hne ↦ ⟨?_, ?_⟩, fun slot hslot ↦ ?_, fun a b ha hb ↦ ?_, fun a b ha hb ↦ ?_⟩
  · rw [← hgrown.size_eq]
    apply hgrown.ordered.parent_lt_size
    by_contra hsize
    exact hne (parent_of_size_le (not_lt.mp hsize))
  · rw [← h.key_lt_key_iff hgrown.seeds_eq]
    exact hgrown.ordered.key_parent_lt slot hne
  · have hfind := hgrown.find_eq hslot
    refine ⟨(origin.after operations).root slot, by rw [hfind], by rw [setIdOf, hfind],
      hgrown.ordered.exists_iterate_parent_eq_root slot, hgrown.ordered.parent_root slot,
      hgrown.represents.eqvGen_root hgrown.ordered slot, fun other hother ↦ ?_⟩
    exact hgrown.key_root_le h hother
  · refine ⟨_, by rw [hgrown.sameSet_eq ha hb], ?_⟩
    rw [beq_iff_eq]
    exact hgrown.represents a b
  · refine ⟨_, by rw [hgrown.union_eq ha hb], ?_⟩
    rw [decide_eq_true_iff]
    exact not_congr (hgrown.represents a b)

/-- Slots 0 and 2 share a seed and 2 was united with 3, whose seed is lower. -/
theorem answers_after_run_on_seeds :
    (seeded #[some 7, none, some 7, some 3, none]).Valid ∧
      ∃ root, (((seeded #[some 7, none, some 7, some 3, none]).after
          [.union 2 3, .find 0, .sameSet 1 0]).find 0).1 = .ok root ∧
        (seeded #[some 7, none, some 7, some 3, none]).key root ≤
          (seeded #[some 7, none, some 7, some 3, none]).key 3 := by
  have hvalid : (seeded #[some 7, none, some 7, some 3, none]).Valid := by
    refine ⟨by decide, ?_⟩
    simp [seedList, UnionFind.unseeded]
  have hbelow : ∀ operation ∈ ([.union 2 3, .find 0, .sameSet 1 0] : List Operation),
      ∀ slot ∈ operation.slots,
        slot.toNat < (seeded #[some 7, none, some 7, some 3, none]).size := by
    simp [Operation.slots, size]
  obtain ⟨root, hfind, _, _, _, _, hleast⟩ :=
    (answers_after_run hvalid hbelow).2.1 0 (by decide)
  have hseed : (seeded #[some 7, none, some 7, some 3, none]).Connected
      [.union 2 3, .find 0, .sameSet 1 0] 0 2 :=
    .rel 0 2 (.inl ⟨7, by decide, by decide⟩)
  have hunion : (seeded #[some 7, none, some 7, some 3, none]).Connected
      [.union 2 3, .find 0, .sameSet 1 0] 2 3 :=
    .rel 2 3 (.inr (by decide))
  exact ⟨hvalid, root, hfind, hleast 3 (hseed.trans 0 2 3 hunion)⟩

end Origin

end WeakComponents.UnionFind
