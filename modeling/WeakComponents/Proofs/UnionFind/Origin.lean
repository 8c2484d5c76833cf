import Mathlib.Order.WithBot
import WeakComponents.Proofs.UnionFind.Classes

/-!
# Fresh forests

A forest is made for a number of slots, or for an optional seed of each slot. It is ordered from
the start and stands for the relation of sharing a seed: the slots of one seed are united while
they are gone through in ascending order, each with the first slot of its seed.
-/

open Relation

namespace WeakComponents.UnionFind

section

variable {forest : UnionFind} {slot a b : Slot}

theorem parent_of_parents_eq {count : ℕ}
    (h : forest.parents = ((List.range count).map Nat.toUInt32).toArray) (slot : Slot) :
    forest.parent slot = slot := by
  unfold parent
  rw [h, List.getElem?_toArray, List.getElem?_map]
  by_cases hslot : slot.toNat < count
  · rw [List.getElem?_range hslot, Option.map_some, Option.getD_some]
    exact UInt32.ofNat_toNat
  · rw [List.getElem?_eq_none (by simpa using hslot), Option.map_none, Option.getD_none]

theorem ordered_of_parent_eq_self (h : ∀ slot, forest.parent slot = slot) : forest.Ordered where
  parent_lt_size slot hslot := by rwa [h slot]
  key_parent_lt slot hne := absurd (h slot) hne

theorem represents_of_parent_eq_self (h : ∀ slot, forest.parent slot = slot) :
    forest.Represents fun _ _ ↦ False := by
  have hroot (slot : Slot) : forest.root slot = slot :=
    (ordered_of_parent_eq_self h).root_eq_self_of_parent (h slot)
  intro a b
  rw [hroot, hroot]
  constructor
  · rintro rfl
    exact .refl a
  · intro hconnected
    induction hconnected with
    | rel _ _ hfalse => exact hfalse.elim
    | refl _ => rfl
    | symm _ _ _ ih => exact ih.symm
    | trans _ _ _ _ _ hxy hyz => exact hxy.trans hyz

/-- Two slots are listed with the same seed. -/
def ListedTogether (seeded : List (Slot × UInt64)) (a b : Slot) : Prop :=
  ∃ seed, (a, seed) ∈ seeded ∧ (b, seed) ∈ seeded

/-- The first slots of all seeds gone through so far, and the forest that unites their slots. -/
structure SeedsUnited (start : UnionFind) (done : List (Slot × UInt64))
    (state : Std.HashMap UInt64 Slot × UnionFind) : Prop where
  listed_of_first : ∀ seed slot, state.1[seed]? = some slot → (slot, seed) ∈ done
  not_listed_of_none : ∀ seed, state.1[seed]? = none → ∀ slot, (slot, seed) ∉ done
  ordered : state.2.Ordered
  size_eq : state.2.size = start.size
  seeds_eq : state.2.seeds = start.seeds
  represents : state.2.Represents (ListedTogether done)

theorem eqvGen_listedTogether_append_of_first {done : List (Slot × UInt64)} {first : Slot}
    {seed : UInt64} (hfirst : (first, seed) ∈ done) :
    EqvGen (ListedTogether (done ++ [(slot, seed)])) =
      EqvGen (Connectivity.withStep (ListedTogether done) first slot) := by
  apply Connectivity.eqvGen_eq_of_le
  · -- every slot listed with the seed is already together with the first one
    have hold {x : Slot} (hx : (x, seed) ∈ done) :
        EqvGen (Connectivity.withStep (ListedTogether done) first slot) x slot :=
      .trans x first slot (.rel x first (.inl ⟨seed, hx, hfirst⟩))
        Connectivity.eqvGen_withStep_step
    rintro x y ⟨shared, hx, hy⟩
    simp only [List.mem_append, List.mem_singleton, Prod.mk.injEq] at hx hy
    rcases hx with hx | ⟨rfl, rfl⟩ <;> rcases hy with hy | ⟨rfl, hseed⟩
    · exact .rel x y (.inl ⟨shared, hx, hy⟩)
    · exact hold (hseed ▸ hx)
    · exact (hold hy).symm
    · exact .refl _
  · rintro x y (⟨shared, hx, hy⟩ | ⟨rfl, rfl⟩)
    · exact .rel x y ⟨shared, List.mem_append_left _ hx, List.mem_append_left _ hy⟩
    · exact .rel x y ⟨seed, List.mem_append_left _ hfirst, by simp⟩

theorem eqvGen_listedTogether_append_of_new {done : List (Slot × UInt64)} {seed : UInt64}
    (hnew : ∀ other, (other, seed) ∉ done) :
    EqvGen (ListedTogether (done ++ [(slot, seed)])) =
      EqvGen (Connectivity.withStep (ListedTogether done) slot slot) := by
  rw [Connectivity.eqvGen_withStep_of_eqvGen_step (.refl slot)]
  apply Connectivity.eqvGen_eq_of_le
  · rintro x y ⟨shared, hx, hy⟩
    simp only [List.mem_append, List.mem_singleton, Prod.mk.injEq] at hx hy
    rcases hx with hx | ⟨rfl, rfl⟩ <;> rcases hy with hy | ⟨rfl, hseed⟩
    · exact .rel x y ⟨shared, hx, hy⟩
    · exact absurd (hseed ▸ hx) (hnew x)
    · exact absurd hy (hnew y)
    · exact .refl _
  · rintro x y ⟨shared, hx, hy⟩
    exact .rel x y ⟨shared, List.mem_append_left _ hx, List.mem_append_left _ hy⟩

/-- Going on to one more listed slot keeps the slots of each seed united. -/
theorem SeedsUnited.uniteSeed {start : UnionFind} {done : List (Slot × UInt64)}
    {state : Std.HashMap UInt64 Slot × UnionFind} (h : SeedsUnited start done state)
    (hdone : ∀ entry ∈ done, entry.1.toNat < start.size) {entry : Slot × UInt64}
    (hentry : entry.1.toNat < start.size) :
    SeedsUnited start (done ++ [entry]) (uniteSeed state entry) := by
  obtain ⟨slot, seed⟩ := entry
  have hslot : slot.toNat < state.2.size := h.size_eq ▸ hentry
  unfold UnionFind.uniteSeed
  dsimp only
  cases hlookup : state.1[seed]? with
  | some first =>
    have hlisted : (first, seed) ∈ done := h.listed_of_first seed first hlookup
    have hfirst : first.toNat < state.2.size := h.size_eq ▸ hdone _ hlisted
    dsimp only
    rw [h.ordered.union_eq hfirst hslot]
    refine ⟨fun other x hx ↦ List.mem_append_left _ (h.listed_of_first other x hx),
      fun other hnone x hx ↦ ?_, h.ordered.merge hfirst hslot, ?_, ?_, ?_⟩
    · rcases List.mem_append.mp hx with hx | hx
      · exact h.not_listed_of_none other hnone x hx
      · obtain ⟨_, rfl⟩ := Prod.mk.injEq .. ▸ List.mem_singleton.mp hx
        simp [hlookup] at hnone
    · rw [size_merge, h.size_eq]
    · rw [seeds_merge, h.seeds_eq]
    · exact (h.represents.merge h.ordered hfirst hslot).congr
        (eqvGen_listedTogether_append_of_first hlisted).symm
  | none =>
    dsimp only
    rw [h.ordered.union_eq hslot hslot]
    refine ⟨fun other x hx ↦ ?_, fun other hnone x hx ↦ ?_, h.ordered.merge hslot hslot, ?_, ?_, ?_⟩
    · rw [Std.HashMap.getElem?_insert] at hx
      split at hx
      · rename_i heq
        obtain rfl : seed = other := by simpa using heq
        obtain rfl : slot = x := by simpa using hx
        simp
      · exact List.mem_append_left _ (h.listed_of_first other x hx)
    · rw [Std.HashMap.getElem?_insert] at hnone
      split at hnone
      · simp at hnone
      · rename_i hne
        rcases List.mem_append.mp hx with hx | hx
        · exact h.not_listed_of_none other hnone x hx
        · obtain ⟨_, rfl⟩ := Prod.mk.injEq .. ▸ List.mem_singleton.mp hx
          simp at hne
    · rw [size_merge, h.size_eq]
    · rw [seeds_merge, h.seeds_eq]
    · exact (h.represents.merge h.ordered hslot hslot).congr
        (eqvGen_listedTogether_append_of_new (h.not_listed_of_none seed hlookup)).symm

theorem SeedsUnited.foldl {start : UnionFind} {done rest : List (Slot × UInt64)}
    {state : Std.HashMap UInt64 Slot × UnionFind} (h : SeedsUnited start done state)
    (hdone : ∀ entry ∈ done, entry.1.toNat < start.size)
    (hrest : ∀ entry ∈ rest, entry.1.toNat < start.size) :
    SeedsUnited start (done ++ rest) (rest.foldl UnionFind.uniteSeed state) := by
  induction rest generalizing done state with
  | nil => simpa using h
  | cons entry rest ih =>
    obtain ⟨hentry, hrest⟩ := List.forall_mem_cons.mp hrest
    have hnext : ∀ other ∈ done ++ [entry], other.1.toNat < start.size := by
      intro other hother
      rcases List.mem_append.mp hother with hother | hother
      · exact hdone other hother
      · rwa [List.mem_singleton.mp hother]
    have hall := ih (h.uniteSeed hdone hentry) hnext hrest
    rwa [List.append_assoc] at hall

theorem seedsUnited_nil (h : forest.Ordered) (hrep : forest.Represents fun _ _ ↦ False) :
    SeedsUnited forest [] (∅, forest) where
  listed_of_first seed slot hslot := by simp at hslot
  not_listed_of_none seed _ slot := List.not_mem_nil
  ordered := h
  size_eq := rfl
  seeds_eq := rfl
  represents := by
    have hnone : ListedTogether [] = fun _ _ ↦ False := by
      ext a b
      simp [ListedTogether]
    rwa [hnone]

end

/-! ## Origins -/

/-- What a forest is made for: a number of slots, or an optional seed for each slot. -/
inductive Origin where
  | unseeded (count : ℕ)
  | seeded (seeds : Array (Option UInt64))

namespace Origin

/-- The number of slots. -/
def size : Origin → ℕ
  | .unseeded count => count
  | .seeded seeds => seeds.size

/-- The forest made for an origin. -/
def forest : Origin → UnionFind
  | .unseeded count => singletons count
  | .seeded seeds => ofSeeds seeds

/-- The seed of a slot. -/
def seed? : Origin → Slot → Option UInt64
  | .unseeded _, _ => none
  | .seeded seeds, slot => seeds[slot.toNat]?.join

/-- The seeds given, by slot. -/
def seedList : Origin → List UInt64
  | .unseeded _ => []
  | .seeded seeds => seeds.toList.filterMap id

/-- Two slots have the same seed. -/
def SharesSeed (origin : Origin) (a b : Slot) : Prop :=
  ∃ seed, origin.seed? a = some seed ∧ origin.seed? b = some seed

/-- Slots suffice for the size, and no seed is the word that stands for having none. -/
structure Valid (origin : Origin) : Prop where
  size_le : origin.size ≤ slotLimit
  seed_lt : ∀ seed ∈ origin.seedList, seed < UnionFind.unseeded

/-- The key of a slot: its seed, or infinity without one, and then the slot itself. -/
def key (origin : Origin) (slot : Slot) : WithTop ℕ ×ₗ ℕ :=
  toLex ((origin.seed? slot).elim ⊤ fun seed ↦ (seed.toNat : WithTop ℕ), slot.toNat)

variable {origin : Origin} {slot a b : Slot}

theorem mem_seedList_of_seed? {seed : UInt64} (h : origin.seed? slot = some seed) :
    seed ∈ origin.seedList := by
  cases origin with
  | unseeded count => simp [seed?] at h
  | seeded seeds =>
    have hmem : some seed ∈ seeds :=
      Array.mem_of_getElem? (Option.join_eq_some_iff.mp h)
    exact List.mem_filterMap.mpr ⟨some seed, Array.mem_toList_iff.mpr hmem, rfl⟩

theorem mem_seededSlots {seeds : Array (Option UInt64)} (hsize : seeds.size ≤ slotLimit)
    {seed : UInt64} :
    (slot, seed) ∈ seededSlots seeds ↔ seeds[slot.toNat]?.join = some seed := by
  unfold seededSlots
  simp only [List.mem_filterMap, Option.map_eq_some_iff, Prod.mk.injEq, Option.join_eq_some_iff]
  constructor
  · rintro ⟨⟨entry, index⟩, hmem, seed, rfl, hindex, rfl⟩
    have hentry : seeds.toList[index]? = some (some seed) := List.mk_mem_zipIdx_iff_getElem?.mp hmem
    have hlt : index < seeds.size := (List.getElem?_eq_some_iff.mp hentry).1
    rw [← hindex, toNat_toUInt32 hsize hlt]
    simpa using hentry
  · intro hentry
    refine ⟨(some seed, slot.toNat), ?_, seed, rfl, UInt32.ofNat_toNat, rfl⟩
    exact List.mk_mem_zipIdx_iff_getElem?.mpr (by simpa using hentry)

theorem ofSeeds_eq (seeds : Array (Option UInt64)) :
    ofSeeds seeds = ((seededSlots seeds).foldl uniteSeed (∅, keyed seeds)).2 :=
  rfl

theorem size_keyed (seeds : Array (Option UInt64)) : (keyed seeds).size = seeds.size := by
  simp [keyed, UnionFind.size, singletons]

/-- The slots of each seed are united in the forest made for them. -/
theorem Valid.seedsUnited {seeds : Array (Option UInt64)} (h : (seeded seeds).Valid) :
    SeedsUnited (keyed seeds) (seededSlots seeds)
      ((seededSlots seeds).foldl uniteSeed (∅, keyed seeds)) := by
  have hself : ∀ slot, (keyed seeds).parent slot = slot := parent_of_parents_eq rfl
  have hnil : SeedsUnited (keyed seeds) [] (∅, keyed seeds) :=
    seedsUnited_nil (ordered_of_parent_eq_self hself) (represents_of_parent_eq_self hself)
  have hrange : ∀ entry ∈ seededSlots seeds, entry.1.toNat < (keyed seeds).size := by
    rintro ⟨slot, seed⟩ hentry
    rw [mem_seededSlots h.size_le, Option.join_eq_some_iff] at hentry
    rw [size_keyed]
    exact (Array.getElem?_eq_some_iff.mp hentry).1
  exact hnil.foldl (by simp) hrange

theorem Valid.ordered_forest (h : origin.Valid) : origin.forest.Ordered := by
  cases origin with
  | unseeded count => exact ordered_of_parent_eq_self (parent_of_parents_eq rfl)
  | seeded seeds =>
    rw [forest, ofSeeds_eq]
    exact h.seedsUnited.ordered

theorem Valid.size_forest (h : origin.Valid) : origin.forest.size = origin.size := by
  cases origin with
  | unseeded count => simp [forest, size, UnionFind.size, singletons]
  | seeded seeds =>
    rw [forest, ofSeeds_eq, h.seedsUnited.size_eq]
    exact size_keyed seeds

theorem Valid.represents_forest (h : origin.Valid) :
    origin.forest.Represents origin.SharesSeed := by
  cases origin with
  | unseeded count =>
    have hnone : (unseeded count).SharesSeed = fun _ _ ↦ False := by
      ext a b
      simp [SharesSeed, seed?]
    rw [hnone]
    exact represents_of_parent_eq_self (parent_of_parents_eq rfl)
  | seeded seeds =>
    have hshares : ListedTogether (seededSlots seeds) = (seeded seeds).SharesSeed := by
      ext a b
      simp only [ListedTogether, SharesSeed, seed?, mem_seededSlots h.size_le]
    rw [← hshares, forest, ofSeeds_eq]
    exact h.seedsUnited.represents

theorem Valid.seeds_forest_seeded {seeds : Array (Option UInt64)} (h : (seeded seeds).Valid) :
    (seeded seeds).forest.seeds =
      some (seeds.map fun seed ↦ seed.getD UnionFind.unseeded) := by
  rw [forest, ofSeeds_eq, h.seedsUnited.seeds_eq]
  rfl

theorem Valid.seedKey_eq (h : origin.Valid) {forest : UnionFind}
    (hseeds : forest.seeds = origin.forest.seeds) (slot : Slot) :
    forest.seedKey slot = (origin.seed? slot).getD UnionFind.unseeded := by
  unfold seedKey
  rw [hseeds]
  cases origin with
  | unseeded count => rfl
  | seeded seeds =>
    rw [h.seeds_forest_seeded]
    simp only [Array.getElem?_map, seed?]
    rcases seeds[slot.toNat]? with _ | _ | _ <;> rfl

theorem Valid.seedOf_eq (h : origin.Valid) {forest : UnionFind}
    (hseeds : forest.seeds = origin.forest.seeds) (hslot : slot.toNat < origin.size) :
    forest.seedOf slot = .ok (origin.seed? slot) := by
  unfold seedOf
  rw [hseeds]
  cases origin with
  | unseeded count => rfl
  | seeded seeds =>
    have hlookup : seeds[slot.toNat]? = some seeds[slot.toNat] := Array.getElem?_eq_getElem hslot
    have hseed : (seeded seeds).seed? slot = seeds[slot.toNat] := by
      simp [seed?, hlookup]
    rw [h.seeds_forest_seeded, hseed]
    simp only [Array.getElem?_map, hlookup, Option.map_some]
    cases hcell : seeds[slot.toNat] with
    | none => simp
    | some seed =>
      have hlt := h.seed_lt seed (mem_seedList_of_seed? (hseed.trans hcell))
      have hne : seed ≠ UnionFind.unseeded := fun heq ↦ UInt64.lt_irrefl _ (heq ▸ hlt)
      simp [hne]

/-- Forests made for an origin order slots as the origin does. -/
theorem Valid.key_lt_key_iff (h : origin.Valid) {forest : UnionFind}
    (hseeds : forest.seeds = origin.forest.seeds) :
    forest.key a < forest.key b ↔ origin.key a < origin.key b := by
  have hbelow (slot : Slot) (seed : UInt64) (hseed : origin.seed? slot = some seed) :
      seed.toNat < UnionFind.unseeded.toNat :=
    UInt64.lt_iff_toNat_lt.mp (h.seed_lt seed (mem_seedList_of_seed? hseed))
  unfold UnionFind.key key
  rw [Prod.Lex.toLex_lt_toLex, Prod.Lex.toLex_lt_toLex, h.seedKey_eq hseeds, h.seedKey_eq hseeds]
  cases ha : origin.seed? a with
  | none =>
    cases hb : origin.seed? b with
    | none => simp
    | some seed =>
      have hlt := hbelow b seed hb
      simp
      omega
  | some seed =>
    cases hb : origin.seed? b with
    | none =>
      have hlt := hbelow a seed ha
      simp
      omega
    | some seed' => simp

end Origin

end WeakComponents.UnionFind
