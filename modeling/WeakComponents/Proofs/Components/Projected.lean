import WeakComponents.Proofs.Components.Following
import WeakComponents.Proofs.Projection.Relationships

/-!
# Following the relationships of a projection

In a direction that a projection serves, every reading of a run completes, and what the run follows
connects the same slots as the relationships that were added and pass the threshold.
-/

open Relation

namespace WeakComponents.Components

open Projection (Builder nodeCount_of_build)

variable {builder : Builder} {projection : Projection} {config : Config} {slot target a b : Slot}

section

variable (hbuild : builder.build = .ok projection) (h : projection.Addressable)
  (hserved : config.direction ∈ builder.loadDirection.served)

include hbuild h hserved

theorem interruption_followedNeighbors (hslot : slot.toNat < projection.nodeCount) :
    (followedNeighbors projection config slot).interruption = none := by
  unfold followedNeighbors
  cases config.threshold with
  | none =>
    dsimp only
    rw [h.neighbors_eq hbuild hserved hslot]
    rfl
  | some threshold =>
    dsimp only [aboveThreshold]
    rw [h.weightedNeighbors_eq hbuild hserved hslot]
    rfl

/-- A run follows the stored relationships that pass the threshold. -/
theorem mem_followedNeighbors (hslot : slot.toNat < projection.nodeCount) :
    target ∈ (followedNeighbors projection config slot).entries ↔
      ∃ stored ∈ builder.listsRead config.direction, ∃ edge ∈ stored,
        edge.source = slot ∧ edge.target = target ∧
          ∀ least ∈ config.threshold, least < if builder.isWeighted then edge.weight else 1.0 := by
  unfold followedNeighbors
  cases config.threshold with
  | none =>
    dsimp only
    rw [h.neighbors_eq hbuild hserved hslot]
    simp only [Reading.complete, List.mem_flatMap, List.mem_map, Adjacency.mem_rowOf]
    simp [and_assoc]
  | some threshold =>
    dsimp only [aboveThreshold]
    rw [h.weightedNeighbors_eq hbuild hserved hslot]
    simp only [Reading.complete, List.mem_map, List.mem_filter, List.mem_flatMap,
      Adjacency.mem_rowOf, decide_eq_true_iff]
    constructor
    · rintro ⟨_, ⟨⟨stored, hstored, edge, ⟨hedge, hsource⟩, rfl⟩, habove⟩, htarget⟩
      refine ⟨stored, hstored, edge, hedge, hsource, htarget, ?_⟩
      rintro least ⟨⟩
      exact habove
    · rintro ⟨stored, hstored, edge, hedge, hsource, htarget, habove⟩
      exact ⟨_, ⟨⟨stored, hstored, edge, ⟨hedge, hsource⟩, rfl⟩, habove threshold rfl⟩, htarget⟩

theorem readsWithin_followedNeighbors :
    ReadsWithin (followedNeighbors projection config) projection.nodeCount := by
  intro slot hslot
  refine ⟨interruption_followedNeighbors hbuild h hserved hslot, fun target htarget ↦ ?_⟩
  obtain ⟨stored, hstored, edge, hedge, _, rfl, _⟩ :=
    (mem_followedNeighbors hbuild h hserved hslot).mp htarget
  have hkept := LoadDirection.mem_listsKept_of_mem_listsRead hstored
  rw [nodeCount_of_build hbuild]
  exact (Builder.lt_card_of_mem_listsKept hkept hedge).2

theorem symmGen_joins_of_mem_pairsFrom
    (hpair : (a, b) ∈ pairsFrom (followedNeighbors projection config)
      (slotsBelow projection.nodeCount)) : SymmGen (builder.Joins config.threshold) a b := by
  obtain ⟨ha, hb⟩ := mem_pairsFrom.mp hpair
  rw [mem_slotsBelow h.nodeCount_le] at ha
  obtain ⟨stored, hstored, edge, hedge, rfl, rfl, habove⟩ :=
    (mem_followedNeighbors hbuild h hserved ha).mp hb
  obtain ⟨given, hgiven, rfl | rfl⟩ :=
    LoadDirection.exists_of_mem_listsKept
      (LoadDirection.mem_listsKept_of_mem_listsRead hstored) hedge
  · exact .inl ((Builder.joins_iff (h.card_le hbuild)).mpr ⟨edge, hgiven, rfl, rfl, habove⟩)
  · exact .inr ((Builder.joins_iff (h.card_le hbuild)).mpr ⟨given, hgiven, rfl, rfl, habove⟩)

theorem symmGen_pairsFrom_of_joins (hjoins : builder.Joins config.threshold a b) :
    SymmGen (fun a b ↦ (a, b) ∈ pairsFrom (followedNeighbors projection config)
      (slotsBelow projection.nodeCount)) a b := by
  obtain ⟨ha, hb⟩ := hjoins.lt_card
  rw [← nodeCount_of_build hbuild] at ha hb
  obtain ⟨edge, hedge, rfl, rfl, habove⟩ := (Builder.joins_iff (h.card_le hbuild)).mp hjoins
  obtain ⟨stored, hstored, hend | hend⟩ := LoadDirection.exists_mem_listsRead hserved hedge
  · refine .inl (mem_pairsFrom.mpr ⟨(mem_slotsBelow h.nodeCount_le).mpr ha, ?_⟩)
    exact (mem_followedNeighbors hbuild h hserved ha).mpr
      ⟨stored, hstored, edge, hend, rfl, rfl, habove⟩
  · refine .inr (mem_pairsFrom.mpr ⟨(mem_slotsBelow h.nodeCount_le).mpr hb, ?_⟩)
    exact (mem_followedNeighbors hbuild h hserved hb).mpr
      ⟨stored, hstored, edge.reverse, hend, rfl, rfl, habove⟩

/-- With shared seeds, the pairs a run follows connect what relationships connect. -/
theorem eqvGen_joins_pairsFrom (origin : UnionFind.Origin) :
    EqvGen (origin.Joins (pairsFrom (followedNeighbors projection config)
      (slotsBelow projection.nodeCount))) =
        EqvGen fun a b ↦ origin.SharesSeed a b ∨ builder.Joins config.threshold a b := by
  apply Connectivity.eqvGen_eq_of_le
  · rintro a b (hshared | hpair)
    · exact .rel a b (.inl hshared)
    · rcases symmGen_joins_of_mem_pairsFrom hbuild h hserved hpair with hjoins | hjoins
      · exact .rel a b (.inr hjoins)
      · exact .symm b a (.rel b a (.inr hjoins))
  · rintro a b (hshared | hjoins)
    · exact .rel a b (.inl hshared)
    · rcases symmGen_pairsFrom_of_joins hbuild h hserved hjoins with hpair | hpair
      · exact .rel a b (.inr hpair)
      · exact .symm b a (.rel b a (.inr hpair))

end

end WeakComponents.Components
