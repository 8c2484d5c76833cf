import WeakComponents.Proofs.Components.Settlement

/-!
# What components answer

A class with seeds is numbered by its lowest one and a class without seeds by its smallest slot,
counted from an offset behind all seeds. As long as the offset leaves room for all slots, no two
classes share a number.
-/

open Relation

namespace WeakComponents

namespace UnionFind.Origin

variable {origin : Origin} {a b : Slot}

theorem exists_seed_le_of_key_le (h : origin.key a ≤ origin.key b) {seed : UInt64}
    (hseed : origin.seed? b = some seed) :
    ∃ lower, origin.seed? a = some lower ∧ lower.toNat ≤ seed.toNat := by
  unfold key at h
  rw [hseed, Option.elim_some, Prod.Lex.toLex_le_toLex] at h
  cases ha : origin.seed? a with
  | none => simp [ha] at h
  | some lower =>
    refine ⟨lower, rfl, ?_⟩
    simp only [ha, Option.elim_some, Nat.cast_lt, Nat.cast_inj] at h
    omega

theorem toNat_le_of_key_le (h : origin.key a ≤ origin.key b) (ha : origin.seed? a = none) :
    a.toNat ≤ b.toNat := by
  unfold key at h
  rw [ha, Option.elim_none, Prod.Lex.toLex_le_toLex] at h
  rcases h with hlt | ⟨_, hle⟩
  · exact absurd hlt not_top_lt
  · exact hle

/-- If any of some slots has a seed, the one with the smallest key has the lowest seed. -/
theorem exists_isLeast_seed {among : Slot → Prop} {first member : Slot} {seed : UInt64}
    (hfirst : among first) (hleast : ∀ other, among other → origin.key first ≤ origin.key other)
    (hmember : among member) (hseed : origin.seed? member = some seed) :
    ∃ lowest, origin.seed? first = some lowest ∧
      IsLeast {number | ∃ other, among other ∧ (origin.seed? other).map UInt64.toNat = some number}
        lowest.toNat := by
  obtain ⟨lowest, hlowest, _⟩ := exists_seed_le_of_key_le (hleast member hmember) hseed
  refine ⟨lowest, hlowest, ⟨first, hfirst, by rw [hlowest, Option.map_some]⟩, ?_⟩
  rintro _ ⟨other, hother, hnumber⟩
  obtain ⟨given, hgiven, rfl⟩ := Option.map_eq_some_iff.mp hnumber
  obtain ⟨lower, hlower, hle⟩ := exists_seed_le_of_key_le (hleast other hother) hgiven
  rw [hlowest] at hlower
  rwa [Option.some.inj hlower]

end UnionFind.Origin

namespace Components

open UnionFind (Origin)

/-- The components of the slots below a count, where some slots have a seed. -/
structure Answers (relation : Slot → Slot → Prop) (seedAt : Slot → Option ℕ) (count offset : ℕ)
    (result : Result) : Prop where
  size_eq : result.components.size = count
  lowest_seed : ∀ slot id, result.components[slot.toNat]? = some id →
    (∃ member, EqvGen relation slot member ∧ seedAt member ≠ none) →
      IsLeast {seed | ∃ member, EqvGen relation slot member ∧ seedAt member = some seed} id.toNat
  smallest_slot : ∀ slot id, result.components[slot.toNat]? = some id →
    (∀ member, EqvGen relation slot member → seedAt member = none) →
      ∃ least, IsLeast {member | EqvGen relation slot member} least ∧
        id.toNat = offset + least.toNat
  same_iff : ∀ a b : Slot, a.toNat < count → b.toNat < count →
    (result.components[a.toNat]? = result.components[b.toNat]? ↔ EqvGen relation a b)
  count_eq : result.componentCount = (Connectivity.classes relation count).ncard

theorem Answers.exists_component {relation : Slot → Slot → Prop} {seedAt : Slot → Option ℕ}
    {count offset : ℕ} {result : Result} (h : Answers relation seedAt count offset result)
    {slot : Slot} (hslot : slot.toNat < count) :
    ∃ id, result.components[slot.toNat]? = some id :=
  ⟨_, Array.getElem?_eq_getElem (h.size_eq.symm ▸ hslot)⟩

variable {origin : Origin} {forest : UnionFind} {pairs : List (Slot × Slot)} {slot a b : Slot}
  {offset : UInt64}

theorem getElem?_conclude (hvalid : origin.Valid) (h : origin.Grown pairs forest)
    (offset : UInt64) (minComponentSize : Option UInt64) (hslot : slot.toNat < origin.size) :
    (conclude forest offset minComponentSize).components[slot.toNat]? =
      some (numberOf origin offset (forest.root slot)) := by
  rw [conclude_eq hvalid h]
  dsimp only
  rw [List.getElem?_toArray, List.getElem?_map, UnionFind.slots_eq, h.size_eq, slotsBelow,
    List.getElem?_map, List.getElem?_range hslot, Option.map_some, Option.map_some]
  congr 3
  exact UInt32.ofNat_toNat

theorem toNat_numberOf_of_seed {seed : UInt64} (hseed : origin.seed? slot = some seed)
    (offset : UInt64) : (numberOf origin offset slot).toNat = seed.toNat := by
  rw [numberOf, hseed, Option.getD_some]

theorem toNat_numberOf_of_none (hseed : origin.seed? slot = none)
    (hroom : offset.toNat + slot.toNat < UInt64.size) :
    (numberOf origin offset slot).toNat = offset.toNat + slot.toNat := by
  calc
    (numberOf origin offset slot).toNat = (offset + slot.toUInt64).toNat := by
      rw [numberOf, hseed, Option.getD_none]
    _ = (offset.toNat + slot.toNat) % UInt64.size := by
      rw [UInt64.toNat_add, UInt32.toNat_toUInt64]
    _ = offset.toNat + slot.toNat := Nat.mod_eq_of_lt hroom

/-- Behind all seeds and without a wrap, only slots of one seed are numbered alike. -/
theorem eq_or_sharesSeed_of_numberOf_eq
    (hoffset : ∀ seed ∈ origin.seedList, seed.toNat < offset.toNat)
    (hroom : offset.toNat + origin.size ≤ UInt64.size) (ha : a.toNat < origin.size)
    (hb : b.toNat < origin.size) (hnumber : numberOf origin offset a = numberOf origin offset b) :
    a = b ∨ origin.SharesSeed a b := by
  have hvalue := congrArg UInt64.toNat hnumber
  cases hseedA : origin.seed? a with
  | some seedA =>
    have hbehindA := hoffset seedA (Origin.mem_seedList_of_seed? hseedA)
    rw [toNat_numberOf_of_seed hseedA] at hvalue
    cases hseedB : origin.seed? b with
    | some seedB =>
      rw [toNat_numberOf_of_seed hseedB, UInt64.toNat_inj] at hvalue
      exact .inr ⟨seedA, hseedA, hvalue ▸ hseedB⟩
    | none =>
      rw [toNat_numberOf_of_none hseedB (by omega)] at hvalue
      omega
  | none =>
    rw [toNat_numberOf_of_none hseedA (by omega)] at hvalue
    cases hseedB : origin.seed? b with
    | some seedB =>
      have hbehindB := hoffset seedB (Origin.mem_seedList_of_seed? hseedB)
      rw [toNat_numberOf_of_seed hseedB] at hvalue
      omega
    | none =>
      rw [toNat_numberOf_of_none hseedB (by omega)] at hvalue
      exact .inl (UInt32.toNat_inj.mp (Nat.add_left_cancel hvalue))

theorem numberOf_root_eq_iff (h : origin.Grown pairs forest)
    (hoffset : ∀ seed ∈ origin.seedList, seed.toNat < offset.toNat)
    (hroom : offset.toNat + origin.size ≤ UInt64.size) (ha : a.toNat < origin.size)
    (hb : b.toNat < origin.size) :
    numberOf origin offset (forest.root a) = numberOf origin offset (forest.root b) ↔
      EqvGen (origin.Joins pairs) a b := by
  have hbelow (slot : Slot) (hslot : slot.toNat < origin.size) :
      (forest.root slot).toNat < origin.size :=
    h.size_eq ▸ h.ordered.root_lt_size (h.size_eq ▸ hslot)
  rw [← h.represents a b]
  constructor
  · intro hnumber
    rcases eq_or_sharesSeed_of_numberOf_eq hoffset hroom (hbelow a ha) (hbelow b hb) hnumber with
      hroot | hshared
    · exact hroot
    · have hroots : EqvGen (origin.Joins pairs) (forest.root a) (forest.root b) :=
        .rel _ _ (.inl hshared)
      rwa [← h.represents, h.ordered.root_root, h.ordered.root_root] at hroots
  · intro hroot
    rw [hroot]

/-- What a run settles on answers for the classes that its forest stands for. -/
theorem answers_conclude (hvalid : origin.Valid) (h : origin.Grown pairs forest)
    {relation : Slot → Slot → Prop} (hrelation : EqvGen (origin.Joins pairs) = EqvGen relation)
    (hoffset : ∀ seed ∈ origin.seedList, seed.toNat < offset.toNat)
    (hroom : offset.toNat + origin.size ≤ UInt64.size) (minComponentSize : Option UInt64) :
    Answers relation (fun slot ↦ (origin.seed? slot).map UInt64.toNat) origin.size offset.toNat
      (conclude forest offset minComponentSize) := by
  have hsize : (conclude forest offset minComponentSize).components.size = origin.size := by
    rw [conclude_eq hvalid h, UnionFind.slots_eq, h.size_eq]
    simp [slotsBelow]
  have hnumber (slot : Slot) (id : UInt64)
      (hid : (conclude forest offset minComponentSize).components[slot.toNat]? = some id) :
      slot.toNat < origin.size ∧ numberOf origin offset (forest.root slot) = id := by
    have hslot : slot.toNat < origin.size := by
      rw [← hsize]
      exact (Array.getElem?_eq_some_iff.mp hid).1
    rw [getElem?_conclude hvalid h offset minComponentSize hslot] at hid
    exact ⟨hslot, Option.some.inj hid⟩
  have hconnected (slot : Slot) : EqvGen relation slot (forest.root slot) :=
    hrelation ▸ h.represents.eqvGen_root h.ordered slot
  have hleast (slot member : Slot) (hmember : EqvGen relation slot member) :
      origin.key (forest.root slot) ≤ origin.key member :=
    h.key_root_le hvalid (hrelation ▸ hmember)
  refine ⟨hsize, fun slot id hid hseeded ↦ ?_, fun slot id hid hunseeded ↦ ?_,
    fun a b ha hb ↦ ?_, ?_⟩
  · obtain ⟨_, rfl⟩ := hnumber slot id hid
    obtain ⟨member, hmember, hseed⟩ := hseeded
    obtain ⟨seed, hseed⟩ := Option.ne_none_iff_exists'.mp hseed
    obtain ⟨given, hgiven, rfl⟩ := Option.map_eq_some_iff.mp hseed
    obtain ⟨lowest, hlowest, hlower⟩ :=
      Origin.exists_isLeast_seed (hconnected slot) (hleast slot) hmember hgiven
    rwa [toNat_numberOf_of_seed hlowest]
  · obtain ⟨hslot, rfl⟩ := hnumber slot id hid
    have hnone : origin.seed? (forest.root slot) = none :=
      Option.map_eq_none_iff.mp (hunseeded _ (hconnected slot))
    have hroot := h.ordered.root_lt_size (h.size_eq ▸ hslot)
    rw [h.size_eq] at hroot
    refine ⟨forest.root slot, ⟨hconnected slot, fun other hother ↦ ?_⟩,
      toNat_numberOf_of_none hnone (by omega)⟩
    exact Origin.toNat_le_of_key_le (hleast slot other hother) hnone
  · rw [getElem?_conclude hvalid h _ _ ha, getElem?_conclude hvalid h _ _ hb, Option.some_inj,
      numberOf_root_eq_iff h hoffset hroom ha hb, hrelation]
  · rw [conclude_eq hvalid h]
    dsimp only [Connectivity.classes]
    rw [hrelation]

end Components

end WeakComponents
