import WeakComponents.Proofs.UnionFind.Runs

/-!
# Requests in and out of bounds

A forest may be asked for slots that it does not have, which it refuses. A union that is refused
because of its second slot has shortened the path of the first one by then, and every read rewrites
parents on its way. No answer shows this: answers depend on the roots alone, and the roots only on
the pairs united so far. So a run is answered alike whether or not such requests are made in between.
-/

open Relation

namespace WeakComponents.UnionFind

variable {forest : UnionFind} {slot a b : Slot}

/-- Something asked of a forest, also of slots that it does not have. -/
inductive Request where
  | union (a b : Slot)
  | find (slot : Slot)
  | setIdOf (slot : Slot)
  | sameSet (a b : Slot)
  | isRoot (slot : Slot)
  | seedOf (slot : Slot)
  | componentCount

namespace Request

/-- A read, or a union that is refused because one of its slots is not below the size. -/
def Idle (size : ℕ) : Request → Prop
  | union a b => ¬ (a.toNat < size ∧ b.toNat < size)
  | find _ | setIdOf _ | sameSet _ _ | isRoot _ | seedOf _ | componentCount => True

/-- The pairs that a request unites in a forest of some size. -/
def pairs (size : ℕ) : Request → List (Slot × Slot)
  | union a b => if a.toNat < size ∧ b.toNat < size then [(a, b)] else []
  | find _ | setIdOf _ | sameSet _ _ | isRoot _ | seedOf _ | componentCount => []

theorem Idle.pairs_eq {size : ℕ} {request : Request} (h : request.Idle size) :
    request.pairs size = [] := by
  cases request with
  | union a b => exact if_neg h
  | _ => rfl

end Request

/-- An answer to a request that is not refused. -/
inductive Reply where
  | slot (slot : Slot)
  | truth (value : Bool)
  | seed (seed : Option UInt64)
  | count (count : ℕ)

/-- The answer to a request, and the forest that is left. -/
def ask (forest : UnionFind) : Request → Except OutOfBounds Reply × UnionFind
  | .union a b => ((forest.union a b).1.map .truth, (forest.union a b).2)
  | .find slot => ((forest.find slot).1.map .slot, (forest.find slot).2)
  | .setIdOf slot => ((forest.setIdOf slot).1.map .slot, (forest.setIdOf slot).2)
  | .sameSet a b => ((forest.sameSet a b).1.map .truth, (forest.sameSet a b).2)
  | .isRoot slot => ((forest.isRoot slot).map .truth, forest)
  | .seedOf slot => ((forest.seedOf slot).map .seed, forest)
  | .componentCount => (.ok (.count forest.componentCount), forest)

/-- The answers to some requests in order, and the forest that is left. -/
def askAll (forest : UnionFind) : List Request → List (Except OutOfBounds Reply) × UnionFind
  | [] => ([], forest)
  | request :: rest =>
    ((forest.ask request).1 :: ((forest.ask request).2.askAll rest).1,
      ((forest.ask request).2.askAll rest).2)

/-- The answers of a run to those of its requests that are not marked as inserted. -/
def keptAnswers (forest : UnionFind) (run : List (Request × Bool)) :
    List (Except OutOfBounds Reply) :=
  ((forest.askAll (run.map Prod.fst)).1.zip run).filterMap fun (answer, _, inserted) ↦
    if inserted then none else some answer

theorem keptAnswers_cons (forest : UnionFind) (request : Request) (inserted : Bool)
    (rest : List (Request × Bool)) :
    forest.keptAnswers ((request, inserted) :: rest) =
      if inserted then (forest.ask request).2.keptAnswers rest
      else (forest.ask request).1 :: (forest.ask request).2.keptAnswers rest := by
  cases inserted <;> rfl

theorem find_of_not_lt (hslot : ¬ slot.toNat < forest.size) :
    forest.find slot = (.error ⟨forest.size, slot.toNat⟩, forest) :=
  if_neg hslot

theorem union_of_first_not_lt (ha : ¬ a.toNat < forest.size) (b : Slot) :
    forest.union a b = (.error ⟨forest.size, a.toNat⟩, forest) := by
  rw [union, find_of_not_lt ha]

theorem union_of_second_not_lt (ha : a.toNat < forest.size) (hb : ¬ b.toNat < forest.size) :
    forest.union a b = (.error ⟨forest.size, b.toNat⟩, forest.compress a) := by
  have hb' : ¬ b.toNat < (forest.compress a).size := by rwa [size_compress]
  rw [union, find_of_lt ha]
  dsimp only
  rw [find_of_not_lt hb', size_compress]

theorem sameSet_of_first_not_lt (ha : ¬ a.toNat < forest.size) (b : Slot) :
    forest.sameSet a b = (.error ⟨forest.size, a.toNat⟩, forest) := by
  rw [sameSet, find_of_not_lt ha]

theorem sameSet_of_second_not_lt (ha : a.toNat < forest.size) (hb : ¬ b.toNat < forest.size) :
    forest.sameSet a b = (.error ⟨forest.size, b.toNat⟩, forest.compress a) := by
  have hb' : ¬ b.toNat < (forest.compress a).size := by rwa [size_compress]
  rw [sameSet, find_of_lt ha]
  dsimp only
  rw [find_of_not_lt hb', size_compress]

theorem Ordered.isRoot_eq (h : forest.Ordered) (slot : Slot) :
    forest.isRoot slot =
      if slot.toNat < forest.size then .ok (decide (forest.root slot = slot))
      else .error ⟨forest.size, slot.toNat⟩ := by
  unfold isRoot
  by_cases hslot : slot.toNat < forest.size
  · have hlookup : forest.parents[slot.toNat]? = some (forest.parent slot) := by
      rw [parent, Array.getElem?_eq_getElem hslot, Option.getD_some]
    rw [hlookup, if_pos hslot]
    dsimp only
    rw [Bool.beq_eq_decide_eq, decide_eq_decide.mpr h.root_eq_self_iff.symm]
  · rw [Array.getElem?_eq_none (not_lt.mp hslot), if_neg hslot]

namespace Origin

variable {origin : Origin} {forest' : UnionFind} {pairs : List (Slot × Slot)}

/-! ## Answers -/

/-- A forest keeps to the pairs that requests within bounds unite. -/
theorem Grown.ask (h : origin.Grown pairs forest) (request : Request) :
    origin.Grown (pairs ++ request.pairs origin.size) (forest.ask request).2 := by
  cases request with
  | union a b =>
    rw [Request.pairs]
    by_cases ha : a.toNat < origin.size
    · by_cases hb : b.toNat < origin.size
      · rw [if_pos ⟨ha, hb⟩, UnionFind.ask, h.union_eq ha hb]
        exact h.merge ha hb
      · rw [if_neg fun hboth ↦ hb hboth.2, List.append_nil, UnionFind.ask,
          union_of_second_not_lt (h.size_eq ▸ ha) (h.size_eq ▸ hb)]
        exact h.compress a
    · rw [if_neg fun hboth ↦ ha hboth.1, List.append_nil, UnionFind.ask,
        union_of_first_not_lt (h.size_eq ▸ ha)]
      exact h
  | find slot | setIdOf slot =>
    rw [Request.pairs, List.append_nil]
    by_cases hslot : slot.toNat < origin.size
    · simp only [UnionFind.ask, setIdOf, h.find_eq hslot]
      exact h.compress slot
    · simp only [UnionFind.ask, setIdOf, find_of_not_lt (h.size_eq ▸ hslot)]
      exact h
  | sameSet a b =>
    rw [Request.pairs, List.append_nil]
    by_cases ha : a.toNat < origin.size
    · by_cases hb : b.toNat < origin.size
      · rw [UnionFind.ask, h.sameSet_eq ha hb]
        exact (h.compress a).compress b
      · rw [UnionFind.ask, sameSet_of_second_not_lt (h.size_eq ▸ ha) (h.size_eq ▸ hb)]
        exact h.compress a
    · rw [UnionFind.ask, sameSet_of_first_not_lt (h.size_eq ▸ ha)]
      exact h
  | isRoot slot | seedOf slot | componentCount =>
    rw [Request.pairs, List.append_nil]
    exact h

/-- Some pairs grow the forest. -/
def Grows (origin : Origin) (forest : UnionFind) : Prop :=
  ∃ pairs, origin.Grown pairs forest

theorem Grows.union (h : origin.Grows forest) (a b : Slot) :
    origin.Grows (forest.union a b).2 := by
  obtain ⟨pairs, hgrown⟩ := h
  exact ⟨_, hgrown.ask (.union a b)⟩

theorem Grown.root_eq (h : origin.Grown pairs forest) (h' : origin.Grown pairs forest') :
    forest.root = forest'.root := by
  funext slot
  exact h.represents.root_eq h'.represents h.ordered h'.ordered
    (h.seeds_eq.trans h'.seeds_eq.symm) slot

/-- Forests grown by the same pairs answer alike, however short their paths are. -/
theorem Grown.answer_eq (h : origin.Grown pairs forest) (h' : origin.Grown pairs forest')
    (request : Request) : (forest.ask request).1 = (forest'.ask request).1 := by
  have hroot := h.root_eq h'
  cases request with
  | union a b =>
    rw [UnionFind.ask, UnionFind.ask]
    by_cases ha : a.toNat < origin.size
    · by_cases hb : b.toNat < origin.size
      · rw [h.union_eq ha hb, h'.union_eq ha hb, hroot]
      · rw [union_of_second_not_lt (h.size_eq ▸ ha) (h.size_eq ▸ hb),
          union_of_second_not_lt (h'.size_eq ▸ ha) (h'.size_eq ▸ hb), h.size_eq, h'.size_eq]
    · rw [union_of_first_not_lt (h.size_eq ▸ ha), union_of_first_not_lt (h'.size_eq ▸ ha),
        h.size_eq, h'.size_eq]
  | find slot | setIdOf slot =>
    simp only [UnionFind.ask, setIdOf]
    by_cases hslot : slot.toNat < origin.size
    · rw [h.find_eq hslot, h'.find_eq hslot, hroot]
    · rw [find_of_not_lt (h.size_eq ▸ hslot), find_of_not_lt (h'.size_eq ▸ hslot), h.size_eq,
        h'.size_eq]
  | sameSet a b =>
    rw [UnionFind.ask, UnionFind.ask]
    by_cases ha : a.toNat < origin.size
    · by_cases hb : b.toNat < origin.size
      · rw [h.sameSet_eq ha hb, h'.sameSet_eq ha hb, hroot]
      · rw [sameSet_of_second_not_lt (h.size_eq ▸ ha) (h.size_eq ▸ hb),
          sameSet_of_second_not_lt (h'.size_eq ▸ ha) (h'.size_eq ▸ hb), h.size_eq, h'.size_eq]
    · rw [sameSet_of_first_not_lt (h.size_eq ▸ ha), sameSet_of_first_not_lt (h'.size_eq ▸ ha),
        h.size_eq, h'.size_eq]
  | isRoot slot =>
    rw [UnionFind.ask, UnionFind.ask, h.ordered.isRoot_eq, h'.ordered.isRoot_eq, hroot, h.size_eq,
      h'.size_eq]
  | seedOf slot =>
    rw [UnionFind.ask, UnionFind.ask, seedOf, seedOf, h.seeds_eq, h'.seeds_eq]
  | componentCount =>
    rw [UnionFind.ask, UnionFind.ask, h.ordered.componentCount_eq, h'.ordered.componentCount_eq,
      hroot, slots_eq, slots_eq, h.size_eq, h'.size_eq]

theorem Grown.askAll (h : origin.Grown pairs forest) (requests : List Request) :
    origin.Grown (pairs ++ requests.flatMap (Request.pairs origin.size))
      (forest.askAll requests).2 := by
  induction requests generalizing pairs forest with
  | nil => simpa [UnionFind.askAll] using h
  | cons request rest ih =>
    rw [UnionFind.askAll, List.flatMap_cons, ← List.append_assoc]
    exact ih (h.ask request)

/-- Two runs on forests grown by the same pairs answer alike but for inserted idle requests. -/
theorem Grown.keptAnswers_eq (h : origin.Grown pairs forest) (h' : origin.Grown pairs forest')
    {run : List (Request × Bool)}
    (hidle : ∀ entry ∈ run, entry.2 = true → entry.1.Idle origin.size) :
    forest.keptAnswers run =
      (forest'.askAll ((run.filter fun entry ↦ !entry.2).map Prod.fst)).1 := by
  induction run generalizing pairs forest forest' with
  | nil => rfl
  | cons entry rest ih =>
    obtain ⟨request, inserted⟩ := entry
    obtain ⟨hfirst, hrest⟩ := List.forall_mem_cons.mp hidle
    rw [keptAnswers_cons]
    cases inserted with
    | false =>
      have hask := ih (h.ask request) (h'.ask request) hrest
      rw [if_neg Bool.false_ne_true, List.filter_cons_of_pos (by rfl), List.map_cons,
        UnionFind.askAll, h.answer_eq h' request, hask]
    | true =>
      -- an idle request leaves a forest that is grown by the same pairs
      have hsame := h.ask request
      rw [(hfirst rfl).pairs_eq, List.append_nil] at hsame
      rw [if_pos rfl, List.filter_cons_of_neg (by simp)]
      exact ih hsame h' hrest

/--
Reads and refused requests do not show: inserted anywhere into a run, in whatever number, they
change no answer of the others. Of the forest that a run leaves, asking for a root points everything
that climbing comes by at the root, keeps every other parent, and keeps the roots.
-/
theorem answers_without_reads (h : origin.Valid) :
    (∀ run : List (Request × Bool),
      (∀ entry ∈ run, entry.2 = true → entry.1.Idle origin.size) →
        origin.forest.keptAnswers run =
          (origin.forest.askAll ((run.filter fun entry ↦ !entry.2).map Prod.fst)).1) ∧
    (∀ (requests : List Request) (slot : Slot), slot.toNat < origin.size →
      ∃ root after, (origin.forest.askAll requests).2.find slot = (.ok root, after) ∧
        (∀ steps,
          after.parent ((origin.forest.askAll requests).2.parent^[steps] slot) = root) ∧
        (∀ other, (∀ steps, (origin.forest.askAll requests).2.parent^[steps] slot ≠ other) →
          after.parent other = (origin.forest.askAll requests).2.parent other) ∧
        ∀ other, after.isRoot other = (origin.forest.askAll requests).2.isRoot other) := by
  refine ⟨fun run hidle ↦ h.grown.keptAnswers_eq h.grown hidle, fun requests slot hslot ↦ ?_⟩
  have hgrown := h.grown.askAll requests
  refine ⟨_, _, hgrown.find_eq hslot, hgrown.ordered.parent_compress_iterate slot,
    fun other hother ↦ hgrown.ordered.parent_compress_of_ne_iterate hother, fun other ↦ ?_⟩
  rw [(hgrown.ordered.compress slot).isRoot_eq, hgrown.ordered.isRoot_eq, size_compress,
    hgrown.ordered.root_compress]

/-- Into four unions on seeded slots, reads and a union that is refused after it has shortened a
path are inserted. -/
def interruptedUnions : List (Request × Bool) :=
  [(.union 2 3, false), (.find 0, true), (.union 1 4, false), (.union 0 9, true),
    (.sameSet 4 0, true), (.union 4 2, false), (.isRoot 4, true), (.union 3 1, false)]

theorem answers_without_reads_of_interruptedUnions :
    (seeded #[some 7, none, some 7, some 3, none]).Valid ∧
      (∀ entry ∈ interruptedUnions, entry.2 = true →
        entry.1.Idle (seeded #[some 7, none, some 7, some 3, none]).size) ∧
      (seeded #[some 7, none, some 7, some 3, none]).forest.keptAnswers interruptedUnions =
        ((seeded #[some 7, none, some 7, some 3, none]).forest.askAll
          [.union 2 3, .union 1 4, .union 4 2, .union 3 1]).1 ∧
      ∃ root after, ((seeded #[some 7, none, some 7, some 3, none]).forest.askAll
        [.union 2 3, .union 1 4]).2.find 0 = (.ok root, after) ∧ after.parent 0 = root := by
  have hvalid : (seeded #[some 7, none, some 7, some 3, none]).Valid := by
    refine ⟨by decide, ?_⟩
    simp [seedList, UnionFind.unseeded]
  have hidle : ∀ entry ∈ interruptedUnions, entry.2 = true →
      entry.1.Idle (seeded #[some 7, none, some 7, some 3, none]).size := by
    simp [interruptedUnions, Request.Idle, size]
  obtain ⟨hrun, hfind⟩ := answers_without_reads hvalid
  obtain ⟨root, after, hroot, hpath, _⟩ := hfind [.union 2 3, .union 1 4] 0 (by decide)
  exact ⟨hvalid, hidle, hrun interruptedUnions hidle, root, after, hroot, hpath 0⟩

end Origin

end WeakComponents.UnionFind
