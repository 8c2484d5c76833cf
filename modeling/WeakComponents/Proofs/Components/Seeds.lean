import WeakComponents.Proofs.Components.Answer
import WeakComponents.Proofs.Outcomes

/-!
# Seeds from a column

A column of integers, none of them negative, gives every node the seed in its cell. The numbers
behind the largest seed are enough for all slots.
-/

namespace WeakComponents

instance lawfulOrderMax_word : Std.LawfulOrderMax UInt64 where
  max_eq_or a b := by
    change (if a ≤ b then b else a) = a ∨ (if a ≤ b then b else a) = b
    split
    · exact .inr rfl
    · exact .inl rfl
  max_le_iff a b c := by
    change (if a ≤ b then b else a) ≤ c ↔ a ≤ c ∧ b ≤ c
    simp only [UInt64.le_iff_toNat_le]
    split <;> omega

theorem toNat_toUInt64_of_nonneg {value : Int64} (h : 0 ≤ value) :
    value.toUInt64.toNat = value.toNatClampNeg := by
  have hnonneg : 0 ≤ value.toBitVec.toInt := by
    simpa using Int64.le_iff_toInt_le.mp h
  have hmsb : value.toBitVec.msb = false := by
    rw [BitVec.msb_eq_false_iff_two_mul_lt]
    rw [BitVec.toInt_eq_toNat_cond] at hnonneg
    split at hnonneg <;> omega
  rw [Int64.toNatClampNeg, Int64.toInt, BitVec.toInt_eq_toNat_of_msb hmsb, Int.toNat_natCast]
  rfl

namespace Components

open UnionFind (Origin)

variable {cells : Array (Option Int64)} {count : ℕ} {slot : Slot}

/-- The seed of a slot: the integer in its cell. -/
def seedAt (column : PropertyColumn) (slot : Slot) : Option ℕ :=
  (column.long? slot).map Int64.toNatClampNeg

/-- The seeds that cells give to the slots below a count. -/
def seedsOf (cells : Array (Option Int64)) (count : ℕ) : Array (Option UInt64) :=
  ((List.range count).map fun slot ↦ (cells[slot]?.join).map Int64.toUInt64).toArray

theorem seedOfCell_eq_ok {key : String} {index : ℕ} {cell : Option Int64}
    (h : ∀ value, cell = some value → 0 ≤ value) :
    seedOfCell key index cell = .ok (cell.map Int64.toUInt64) := by
  cases cell with
  | none => rfl
  | some value =>
    rw [seedOfCell, if_neg (Int64.not_lt.mpr (h value rfl))]
    rfl

section

variable (hcells : ∀ value, some value ∈ cells → 0 ≤ value)

include hcells

theorem nonneg_of_getElem? {index : ℕ} {value : Int64} (h : cells[index]?.join = some value) :
    0 ≤ value :=
  hcells value (Array.mem_of_getElem? (Option.join_eq_some_iff.mp h))

/-- A column without negative values is read as it is. -/
theorem readSeeds_eq {G : Type} [Graph G] [PropertyGraph G] (graph : G) {key : String}
    (hcolumn : PropertyGraph.property? graph key = some (.long cells)) :
    readSeeds graph key = .ok (seedsOf cells (Graph.nodeCount graph)) := by
  have hread : (List.range (Graph.nodeCount graph)).mapM
      (fun slot ↦ seedOfCell key slot cells[slot]?.join) =
        .ok ((List.range (Graph.nodeCount graph)).map fun slot ↦
          (cells[slot]?.join).map Int64.toUInt64) := by
    apply mapM_eq_ok
    intro index _
    exact seedOfCell_eq_ok fun value hvalue ↦ nonneg_of_getElem? hcells hvalue
  unfold readSeeds
  rw [hcolumn]
  dsimp only
  rw [hread]
  rfl

theorem seed_lt_of_mem_seedsOf {seed : UInt64} (h : some seed ∈ seedsOf cells count) :
    seed.toNat < 2 ^ 63 := by
  rw [seedsOf, List.mem_toArray, List.mem_map] at h
  obtain ⟨index, _, hseed⟩ := h
  obtain ⟨value, hvalue, rfl⟩ := Option.map_eq_some_iff.mp hseed
  rw [toNat_toUInt64_of_nonneg (nonneg_of_getElem? hcells hvalue)]
  exact value.toNatClampNeg_lt

theorem admissible_seedsOf (hcount : count ≤ slotLimit) :
    Admissible count (some (seedsOf cells count)) where
  count_le := hcount
  size_eq := by
    rintro given ⟨⟩
    simp [seedsOf]
  seed_lt := by
    rintro given ⟨⟩ seed hseed
    rw [UInt64.lt_iff_toNat_lt]
    calc
      seed.toNat < 2 ^ 63 := seed_lt_of_mem_seedsOf hcells hseed
      _ < UnionFind.unseeded.toNat := by decide

theorem seed?_seedsOf (hsize : cells.size ≤ count) (slot : Slot) :
    ((Origin.seeded (seedsOf cells count)).seed? slot).map UInt64.toNat =
      seedAt (.long cells) slot := by
  unfold Origin.seed? seedAt seedsOf PropertyColumn.long?
  dsimp only
  rw [List.getElem?_toArray, List.getElem?_map]
  by_cases hslot : slot.toNat < count
  · rw [List.getElem?_range hslot, Option.map_some, Option.join_some]
    cases hvalue : cells[slot.toNat]?.join with
    | none => rfl
    | some value =>
      rw [Option.map_some, Option.map_some, Option.map_some,
        toNat_toUInt64_of_nonneg (nonneg_of_getElem? hcells hvalue)]
  · rw [List.getElem?_eq_none (by simpa using hslot), Array.getElem?_eq_none (by omega)]
    rfl

end

/-- The offset is zero without seeds and the number after the largest one otherwise. -/
theorem seedOffset_cases (seeds : Array (Option UInt64)) :
    (∀ seed, some seed ∉ seeds) ∧ seedOffset seeds = 0 ∨
      ∃ largest, some largest ∈ seeds ∧ (∀ seed, some seed ∈ seeds → seed ≤ largest) ∧
        seedOffset seeds = largest + 1 := by
  have hmem (seed : UInt64) : seed ∈ seeds.toList.filterMap id ↔ some seed ∈ seeds := by
    simp
  unfold seedOffset
  cases hmax : (seeds.toList.filterMap id).max? with
  | none =>
    refine .inl ⟨fun seed hseed ↦ ?_, rfl⟩
    rw [List.max?_eq_none_iff] at hmax
    rw [← hmem, hmax] at hseed
    exact absurd hseed List.not_mem_nil
  | some largest =>
    obtain ⟨hlargest, hgreatest⟩ := List.max?_eq_some_iff.mp hmax
    exact .inr ⟨largest, (hmem largest).mp hlargest,
      fun seed hseed ↦ hgreatest seed ((hmem seed).mpr hseed), rfl⟩

section

variable (hcells : ∀ value, some value ∈ cells → 0 ≤ value)

include hcells

/-- No seed of a column is so large that the number after it wraps. -/
theorem toNat_seedOffset_cases (count : ℕ) :
    (∀ seed, some seed ∉ seedsOf cells count) ∧ (seedOffset (seedsOf cells count)).toNat = 0 ∨
      ∃ largest, some largest ∈ seedsOf cells count ∧
        (∀ seed, some seed ∈ seedsOf cells count → seed.toNat ≤ largest.toNat) ∧
        (seedOffset (seedsOf cells count)).toNat = largest.toNat + 1 := by
  rcases seedOffset_cases (seedsOf cells count) with
    ⟨hnone, hzero⟩ | ⟨largest, hlargest, hgreatest, hoffset⟩
  · exact .inl ⟨hnone, by rw [hzero, UInt64.toNat_zero]⟩
  · have hlt := seed_lt_of_mem_seedsOf hcells hlargest
    refine .inr ⟨largest, hlargest, fun seed hseed ↦ hgreatest seed hseed, ?_⟩
    rw [hoffset, UInt64.toNat_add, UInt64.toNat_one]
    exact Nat.mod_eq_of_lt (by omega)

theorem lt_seedOffset_of_mem {seed : UInt64} (hseed : some seed ∈ seedsOf cells count) :
    seed.toNat < (seedOffset (seedsOf cells count)).toNat := by
  rcases toNat_seedOffset_cases hcells count with ⟨hnone, _⟩ | ⟨largest, _, hgreatest, hoffset⟩
  · exact absurd hseed (hnone seed)
  · have hle := hgreatest seed hseed
    omega

theorem toNat_seedOffset_le (count : ℕ) :
    (seedOffset (seedsOf cells count)).toNat ≤ 2 ^ 63 := by
  rcases toNat_seedOffset_cases hcells count with ⟨_, hzero⟩ | ⟨largest, hlargest, _, hoffset⟩
  · omega
  · have hlt := seed_lt_of_mem_seedsOf hcells hlargest
    omega

variable (hsize : cells.size ≤ count) (hcount : count ≤ slotLimit)

include hsize hcount

theorem exists_seedAt_iff {number : ℕ} :
    (∃ slot, seedAt (.long cells) slot = some number) ↔
      ∃ seed, some seed ∈ seedsOf cells count ∧ seed.toNat = number := by
  constructor
  · rintro ⟨slot, hslot⟩
    rw [← seed?_seedsOf hcells hsize, Option.map_eq_some_iff] at hslot
    obtain ⟨seed, hseed, hnumber⟩ := hslot
    exact ⟨seed, Array.mem_of_getElem? (Option.join_eq_some_iff.mp hseed), hnumber⟩
  · rintro ⟨seed, hseed, hnumber⟩
    obtain ⟨index, hindex, hentry⟩ := Array.mem_iff_getElem.mp hseed
    have hbelow : index < count := by simpa [seedsOf] using hindex
    refine ⟨index.toUInt32, ?_⟩
    rw [← seed?_seedsOf hcells hsize, Origin.seed?, toNat_toUInt32 hcount hbelow,
      Array.getElem?_eq_getElem hindex, hentry, Option.join_some, Option.map_some, hnumber]

theorem toNat_seedOffset_of_none (h : ∀ slot, seedAt (.long cells) slot = none) :
    (seedOffset (seedsOf cells count)).toNat = 0 := by
  rcases toNat_seedOffset_cases hcells count with ⟨_, hzero⟩ | ⟨largest, hlargest, _⟩
  · exact hzero
  · obtain ⟨slot, hslot⟩ := (exists_seedAt_iff hcells hsize hcount).mpr ⟨largest, hlargest, rfl⟩
    rw [h slot] at hslot
    exact absurd hslot (by simp)

theorem toNat_seedOffset_of_isGreatest {number : ℕ}
    (h : IsGreatest {seed | ∃ slot, seedAt (.long cells) slot = some seed} number) :
    (seedOffset (seedsOf cells count)).toNat = number + 1 := by
  obtain ⟨seed, hseed, hnumber⟩ := (exists_seedAt_iff hcells hsize hcount).mp h.1
  rcases toNat_seedOffset_cases hcells count with
    ⟨hnone, _⟩ | ⟨largest, hlargest, hgreatest, hoffset⟩
  · exact absurd hseed (hnone seed)
  · have hle : largest.toNat ≤ number :=
      h.2 ((exists_seedAt_iff hcells hsize hcount).mpr ⟨largest, hlargest, rfl⟩)
    have hge := hgreatest seed hseed
    omega

end

end Components

end WeakComponents
