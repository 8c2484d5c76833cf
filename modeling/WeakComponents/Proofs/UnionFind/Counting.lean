import WeakComponents.Proofs.UnionFind.Requests

/-!
# Accounting for sets

A union that merges two sets turns one root into the child of another and keeps all others, and
shortening paths keeps every root. So the number of sets goes down by one for every union that
answers that it merged, from as many as a fresh forest has: one for each slot without a seed and
one for each seed.
-/

open Relation

namespace WeakComponents.UnionFind

variable {forest : UnionFind} {a b : Slot}

theorem exists_link_eq (forest : UnionFind) (a b : Slot) :
    ∃ winner loser, (winner = a ∧ loser = b ∨ winner = b ∧ loser = a) ∧
      forest.link a b = forest.repoint loser winner := by
  unfold link
  split
  · exact ⟨b, a, .inr ⟨rfl, rfl⟩, rfl⟩
  · exact ⟨a, b, .inl ⟨rfl, rfl⟩, rfl⟩

/-- Merging two sets takes the root of one of them away and no other. -/
theorem Ordered.exists_roots_merge (h : forest.Ordered) (hsize : forest.size ≤ slotLimit)
    (ha : a.toNat < forest.size) (hb : b.toNat < forest.size)
    (hne : forest.root a ≠ forest.root b) :
    ∃ loser ∈ forest.roots, (forest.merge a b).roots = forest.roots.erase loser := by
  let shortened := (forest.compress a).compress b
  have hshort : shortened.Ordered := (h.compress a).compress b
  have hroot (slot : Slot) : shortened.root slot = forest.root slot := by
    rw [(h.compress a).root_compress, h.root_compress]
  have hmerge : forest.merge a b = shortened.link (forest.root a) (forest.root b) := if_neg hne
  obtain ⟨winner, loser, hends, hlink⟩ := shortened.exists_link_eq (forest.root a) (forest.root b)
  have hloser : loser.toNat < forest.size ∧ forest.root loser = loser := by
    rcases hends with ⟨_, rfl⟩ | ⟨_, rfl⟩
    · exact ⟨h.root_lt_size hb, h.root_root b⟩
    · exact ⟨h.root_lt_size ha, h.root_root a⟩
  have hdistinct : winner ≠ loser := by
    rcases hends with ⟨rfl, rfl⟩ | ⟨rfl, rfl⟩
    · exact hne
    · exact hne.symm
  refine ⟨loser, (mem_roots hsize).mpr hloser, ?_⟩
  ext slot
  have hself : (forest.merge a b).root slot = slot ↔ slot ≠ loser ∧ forest.root slot = slot := by
    rw [(h.merge ha hb).root_eq_self_iff, hmerge, hlink,
      parent_repoint (by simpa [shortened] using hloser.1), ← hroot slot, hshort.root_eq_self_iff]
    split
    · rename_i heq
      simp [heq, hdistinct]
    · rename_i heq
      simp [heq]
  rw [mem_roots (by rwa [size_merge]), Finset.mem_erase, mem_roots hsize, size_merge, hself]
  exact and_left_comm

theorem Ordered.componentCount_merge (h : forest.Ordered) (hsize : forest.size ≤ slotLimit)
    (ha : a.toNat < forest.size) (hb : b.toNat < forest.size) :
    (forest.merge a b).componentCount + (if forest.root a ≠ forest.root b then 1 else 0) =
      forest.componentCount := by
  rw [(h.merge ha hb).componentCount_eq_card_roots (by rwa [size_merge]),
    h.componentCount_eq_card_roots hsize]
  by_cases hroots : forest.root a = forest.root b
  · have hmerge : forest.merge a b = (forest.compress a).compress b := if_pos hroots
    have hkept : (forest.merge a b).roots = forest.roots := by
      ext slot
      rw [hmerge, mem_roots (by simpa using hsize), mem_roots hsize,
        (h.compress a).root_compress, h.root_compress, size_compress, size_compress]
    rw [hkept, if_neg (not_not.mpr hroots), Nat.add_zero]
  · obtain ⟨loser, hloser, hmerge⟩ := h.exists_roots_merge hsize ha hb hroots
    rw [hmerge, if_pos hroots, Finset.card_erase_add_one hloser]

/-- Each union that merges leaves one set less. -/
theorem Ordered.componentCount_unionAll (h : forest.Ordered) (hsize : forest.size ≤ slotLimit)
    {pairs : List (Slot × Slot)} (hpairs : PairsBelow forest.size pairs) :
    ∃ answers, forest.unionAll pairs = (.ok answers, forest.mergeAll pairs) ∧
      answers.length = pairs.length ∧
      (forest.mergeAll pairs).componentCount + answers.count true = forest.componentCount := by
  induction pairs generalizing forest with
  | nil => exact ⟨[], rfl, rfl, rfl⟩
  | cons pair rest ih =>
    obtain ⟨⟨ha, hb⟩, hrest⟩ := hpairs.of_cons
    obtain ⟨answers, hanswers, hlength, hcount⟩ :=
      ih (h.merge ha hb) (by rwa [size_merge]) (by rwa [size_merge])
    have hmerge := h.componentCount_merge hsize ha hb
    refine ⟨decide (forest.root pair.1 ≠ forest.root pair.2) :: answers, ?_, ?_, ?_⟩
    · rw [unionAll, h.union_eq ha hb]
      dsimp only
      rw [hanswers, mergeAll_cons]
    · rw [List.length_cons, List.length_cons, hlength]
    · rw [mergeAll_cons, List.count_cons, ← hmerge, ← hcount, Nat.add_assoc]
      simp only [beq_true, decide_eq_true_eq]

theorem Ordered.askAll_find (h : forest.Ordered) {slots : List Slot}
    (hslots : ∀ slot ∈ slots, slot.toNat < forest.size) :
    (forest.askAll (slots.map .find)).1 = slots.map fun slot ↦ .ok (.slot (forest.root slot)) := by
  induction slots generalizing forest with
  | nil => rfl
  | cons slot rest ih =>
    obtain ⟨hslot, hrest⟩ := List.forall_mem_cons.mp hslots
    rw [List.map_cons, List.map_cons, askAll, ask, find_of_lt hslot]
    dsimp only
    rw [ih (h.compress slot) (by simpa using hrest)]
    simp only [h.root_compress]
    rfl

namespace Origin

variable {origin : Origin}

/-- The sets that a fresh forest has: one for each slot without a seed and one for each seed. -/
def setCount : Origin → ℕ
  | unseeded count => count
  | seeded seeds => seeds.toList.count none + (seeds.toList.filterMap id).toFinset.card

/-- What tells the sets of a fresh forest apart: the seed of a slot, or the slot if it has none. -/
def label (origin : Origin) (slot : Slot) : UInt64 ⊕ Slot :=
  (origin.seed? slot).elim (.inr slot) .inl

theorem label_eq_inl_iff {slot : Slot} {seed : UInt64} :
    origin.label slot = .inl seed ↔ origin.seed? slot = some seed := by
  unfold label
  cases origin.seed? slot <;> simp

theorem label_eq_inr_iff {slot other : Slot} :
    origin.label slot = .inr other ↔ origin.seed? slot = none ∧ slot = other := by
  unfold label
  cases origin.seed? slot <;> simp

theorem label_eq_iff : origin.label a = origin.label b ↔ EqvGen origin.SharesSeed a b := by
  constructor
  · intro hlabel
    cases ha : origin.seed? a with
    | none =>
      have hown : origin.label a = .inr a := label_eq_inr_iff.mpr ⟨ha, rfl⟩
      obtain ⟨_, rfl⟩ := label_eq_inr_iff.mp (hlabel.symm.trans hown)
      exact .refl b
    | some seed =>
      have hseed : origin.label a = .inl seed := label_eq_inl_iff.mpr ha
      exact .rel a b ⟨seed, ha, label_eq_inl_iff.mp (hlabel.symm.trans hseed)⟩
  · intro hconnected
    induction hconnected with
    | rel a b hshared =>
      obtain ⟨seed, ha, hb⟩ := hshared
      rw [label_eq_inl_iff.mpr ha, label_eq_inl_iff.mpr hb]
    | refl a => rfl
    | symm a b _ ih => exact ih.symm
    | trans a b c _ _ hab hbc => exact hab.trans hbc

/-- There are as many labels as slots without a seed and seeds. -/
theorem card_image_label (origin : Origin) {slots : List Slot} (hnodup : slots.Nodup) :
    (slots.toFinset.image origin.label).card =
      (slots.map origin.seed?).count none +
        ((slots.map origin.seed?).filterMap id).toFinset.card := by
  have himage : slots.toFinset.image origin.label =
      ((slots.map origin.seed?).filterMap id).toFinset.disjSum
        (slots.filter fun slot ↦ decide (origin.seed? slot = none)).toFinset := by
    ext tag
    cases tag with
    | inl seed => simp [label_eq_inl_iff]
    | inr slot => simp [label_eq_inr_iff]
  rw [himage, Finset.card_disjSum, List.toFinset_card_of_nodup (hnodup.filter _), Nat.add_comm,
    ← List.countP_eq_length_filter, List.count, List.countP_map]
  congr 1
  apply List.countP_congr
  intro slot _
  simp

theorem map_seed?_slotsBelow {seeds : Array (Option UInt64)} (hsize : seeds.size ≤ slotLimit) :
    (slotsBelow seeds.size).map (seeded seeds).seed? = seeds.toList := by
  calc
    (slotsBelow seeds.size).map (seeded seeds).seed? =
        ((slotsBelow seeds.size).map fun slot ↦ seeds[slot.toNat]?).map Option.join := by
      rw [List.map_map]
      rfl
    _ = seeds.toList := by
      rw [map_getElem?_slotsBelow hsize, List.map_map]
      exact List.map_id _

/-- A fresh forest has as many sets as its slots without a seed and its seeds. -/
theorem Valid.componentCount_forest (h : origin.Valid) :
    origin.forest.componentCount = origin.setCount := by
  have hcount : origin.forest.componentCount =
      ((slotsBelow origin.size).toFinset.image origin.label).card := by
    rw [h.represents_forest.componentCount_eq h.ordered_forest (h.size_forest.symm ▸ h.size_le),
      h.size_forest]
    exact Connectivity.ncard_classes_eq_card_image h.size_le fun a b _ _ ↦ label_eq_iff
  rw [hcount, card_image_label origin (nodup_slotsBelow h.size_le)]
  cases origin with
  | unseeded count =>
    simp [setCount, seed?, slotsBelow, size, Function.comp_def]
  | seeded seeds => rw [size, map_seed?_slotsBelow h.size_le, setCount]

/--
After unions within bounds there are as many sets as at first, less the unions that answered that
they merged; and asking all slots for their roots, one after the other, gives as many different
answers as there are sets.
-/
theorem componentCount_after_unions (h : origin.Valid) {pairs : List (Slot × Slot)}
    (hpairs : PairsBelow origin.size pairs) :
    ∃ answers forest, origin.forest.unionAll pairs = (.ok answers, forest) ∧
      answers.length = pairs.length ∧
      forest.componentCount + answers.count true = origin.setCount ∧
      ∃ found : List Slot,
        (forest.askAll ((slotsBelow origin.size).map .find)).1 =
          found.map (fun root ↦ .ok (.slot root)) ∧
        forest.componentCount = found.toFinset.card := by
  have hsize : origin.forest.size ≤ slotLimit := h.size_forest.symm ▸ h.size_le
  obtain ⟨answers, hanswers, hlength, hcount⟩ :=
    h.ordered_forest.componentCount_unionAll hsize (h.size_forest.symm ▸ hpairs)
  have hgrown := h.grown.mergeAll hpairs
  have hslots : ∀ slot ∈ slotsBelow origin.size,
      slot.toNat < (origin.forest.mergeAll pairs).size := by
    intro slot hslot
    rw [hgrown.size_eq]
    exact (mem_slotsBelow h.size_le).mp hslot
  refine ⟨answers, _, hanswers, hlength, hcount.trans h.componentCount_forest,
    (slotsBelow origin.size).map (origin.forest.mergeAll pairs).root, ?_, ?_⟩
  · rw [hgrown.ordered.askAll_find hslots, List.map_map]
    rfl
  · have himage : ((slotsBelow origin.size).map (origin.forest.mergeAll pairs).root).toFinset =
        (slotsBelow origin.size).toFinset.image (origin.forest.mergeAll pairs).root := by
      ext root
      simp
    rw [himage, hgrown.represents.componentCount_eq hgrown.ordered
      (hgrown.size_eq.symm ▸ h.size_le), hgrown.size_eq]
    exact Connectivity.ncard_classes_eq_card_image h.size_le fun a b _ _ ↦ hgrown.represents a b

/-- Of five slots with two different seeds, two unions merge and two do not. -/
theorem componentCount_after_unions_on_seeds :
    (seeded #[some 7, none, some 7, some 3, none]).Valid ∧
      PairsBelow (seeded #[some 7, none, some 7, some 3, none]).size
        [(0, 2), (1, 4), (2, 3), (3, 0)] ∧
      ∃ answers forest, (seeded #[some 7, none, some 7, some 3, none]).forest.unionAll
          [(0, 2), (1, 4), (2, 3), (3, 0)] = (.ok answers, forest) ∧
        answers.length = 4 ∧ forest.componentCount + answers.count true = 4 := by
  have hvalid : (seeded #[some 7, none, some 7, some 3, none]).Valid := by
    refine ⟨by decide, ?_⟩
    simp [seedList, UnionFind.unseeded]
  have hpairs : PairsBelow (seeded #[some 7, none, some 7, some 3, none]).size
      [(0, 2), (1, 4), (2, 3), (3, 0)] := by
    simp [PairsBelow, size]
  obtain ⟨answers, forest, hanswers, hlength, hcount, _⟩ :=
    componentCount_after_unions hvalid hpairs
  exact ⟨hvalid, hpairs, answers, forest, hanswers, hlength, hcount⟩

end Origin

end WeakComponents.UnionFind
