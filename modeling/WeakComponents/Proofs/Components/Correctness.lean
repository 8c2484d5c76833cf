import WeakComponents.Proofs.Components.Projected
import WeakComponents.Proofs.Components.Schedule
import WeakComponents.Proofs.Components.Seeds
import WeakComponents.Proofs.Projection.Memory

/-!
# Correctness of runs on projections

A run on a projection, with any number of workers and batches of any size, numbers the classes that
the relationships it may follow make of the nodes, together with shared seeds if seeds are in use.
-/

open Relation

namespace WeakComponents.Components

open Projection (Builder nodeCount_of_build)
open UnionFind (Origin)

variable {builder : Builder} {projection : Projection} {config : Config}
  {seeds : Option (Array (Option UInt64))}

section

variable (h : projection.Addressable) (hvalid : config.validate = .ok ())

include h hvalid

theorem checkUnweighted_eq_ok (hthreshold : config.threshold = none)
    (hunseeded : config.seedProperty = none) : checkUnweighted projection config = .ok () :=
  checkUnweighted_of_nodeCount_le h.nodeCount_le hvalid hthreshold hunseeded

theorem checkWeighted_eq_none (hunseeded : config.seedProperty = none) :
    checkWeighted projection config = .ok none := by
  unfold checkWeighted
  rw [hvalid, checkNodeCount_eq_ok h.nodeCount_le, hunseeded]
  rfl

theorem checkWeighted_eq_some {key : String} (hkey : config.seedProperty = some key)
    {given : Array (Option UInt64)} (hread : readSeeds projection key = .ok given) :
    checkWeighted projection config = .ok (some given) := by
  unfold checkWeighted
  rw [hvalid, checkNodeCount_eq_ok h.nodeCount_le, hkey]
  dsimp only [bind, Except.bind]
  rw [hread]
  rfl

end

/-- Over complete readings a run settles on an answer for the classes of any relation that the
pairs it follows connect. -/
theorem answers_settledResult {followed : Slot → Reading Slot} {count : ℕ}
    (h : Admissible count seeds) (hreads : ReadsWithin followed count)
    {relation : Slot → Slot → Prop}
    (hrelation : EqvGen ((originOf count seeds).Joins (pairsFrom followed (slotsBelow count))) =
      EqvGen relation)
    (hoffset : ∀ seed ∈ (originOf count seeds).seedList,
      seed.toNat < (start count seeds).2.toNat)
    (hroom : (start count seeds).2.toNat + count ≤ UInt64.size)
    (minComponentSize : Option UInt64) :
    Answers relation (fun slot ↦ ((originOf count seeds).seed? slot).map UInt64.toNat) count
      (start count seeds).2.toNat (settledResult count seeds followed minComponentSize) := by
  have hgrown := h.valid.grown.mergeAll (pairsBelow_pairsFrom_slotsBelow h hreads)
  have hanswers := answers_conclude h.valid hgrown hrelation hoffset
    (h.size_originOf.symm ▸ hroom) minComponentSize
  rwa [h.size_originOf] at hanswers

/-- Without seeds, what is settled answers for the relationships above the threshold. -/
theorem answers_joins_settledResult (hbuild : builder.build = .ok projection)
    (h : projection.Addressable) (hserved : config.direction ∈ builder.loadDirection.served) :
    Answers (builder.Joins config.threshold) (fun _ ↦ none) projection.nodeCount 0
      (settledResult projection.nodeCount none (followedNeighbors projection config)
        config.minComponentSize) := by
  have hrelation : EqvGen ((Origin.unseeded projection.nodeCount).Joins
      (pairsFrom (followedNeighbors projection config) (slotsBelow projection.nodeCount))) =
        EqvGen (builder.Joins config.threshold) := by
    rw [eqvGen_joins_pairsFrom hbuild h hserved]
    simp [Origin.SharesSeed, Origin.seed?]
  have hroom : projection.nodeCount ≤ UInt64.size := h.nodeCount_le.trans (by decide)
  exact answers_settledResult (admissible_none h.nodeCount_le)
    (readsWithin_followedNeighbors hbuild h hserved) hrelation
    (by simp [originOf, Origin.seedList]) (by simpa [start] using hroom) config.minComponentSize

/--
A run without seeds whose workers are started succeeds and gives every slot the smallest slot that
is connected to it, in whatever direction the relationships above the threshold point.
-/
theorem unseeded_run_finds_smallest_slots (hbuild : builder.build = .ok projection)
    (h : projection.Addressable) (hvalid : config.validate = .ok ())
    (hunseeded : config.seedProperty = none)
    (hserved : config.direction ∈ builder.loadDirection.served) :
    ∃ result, (∀ threads : Threads, threads.Offers config.concurrency.toNat →
        runWeighted threads projection config = .ok result ∧
          (config.threshold = none → runUnweighted threads projection config = .ok result)) ∧
      projection.nodeCount = builder.ids.card ∧
      result.components.size = projection.nodeCount ∧
      (∀ slot : Slot, slot.toNat < projection.nodeCount → ∃ least : Slot,
        result.components[slot.toNat]? = some least.toUInt64 ∧
          IsLeast {other | EqvGen (builder.Joins config.threshold) slot other} least) ∧
      result.componentCount =
        (Connectivity.classes (builder.Joins config.threshold) projection.nodeCount).ncard ∧
      SettlesAs projection.nodeCount none (followedNeighbors projection config)
        config.minComponentSize result := by
  have hadmissible : Admissible projection.nodeCount none := admissible_none h.nodeCount_le
  have hreads := readsWithin_followedNeighbors hbuild h hserved
  have hanswers := answers_joins_settledResult hbuild h hserved
  refine ⟨settledResult projection.nodeCount none (followedNeighbors projection config)
    config.minComponentSize, fun threads hthreads ↦ ⟨?_, fun hthreshold ↦ ?_⟩,
    nodeCount_of_build hbuild, hanswers.size_eq, fun slot hslot ↦ ?_, hanswers.count_eq,
    settlesAs_of_readsWithin hadmissible hreads _⟩
  · rw [runWeighted, checkWeighted_eq_none h hvalid hunseeded]
    exact execute_eq_of_readsWithin hthreads projection hadmissible hreads
  · have hfollowed : followedNeighbors projection config =
        fun node ↦ Graph.neighbors projection node config.direction := by
      funext node
      rw [followedNeighbors, hthreshold]
    rw [runUnweighted, checkUnweighted_eq_ok h hvalid hthreshold hunseeded, ← hfollowed]
    exact execute_eq_of_readsWithin hthreads projection hadmissible hreads
  · obtain ⟨id, hid⟩ := hanswers.exists_component hslot
    obtain ⟨least, hleast, hvalue⟩ := hanswers.smallest_slot slot id hid fun _ _ ↦ rfl
    refine ⟨least, ?_, hleast⟩
    rw [hid, Option.some_inj, ← UInt64.toNat_inj, hvalue, UInt32.toNat_toUInt64]
    exact Nat.zero_add _

/-- Three nodes of which the first and the last are related. -/
def relatedNodes : Builder :=
  .ofCalls [.nodes [⟨30⟩, ⟨10⟩, ⟨20⟩], .relationship ⟨30⟩ ⟨10⟩]

/-- On four workers the slot of the largest id gets the slot of the smallest one. -/
theorem unseeded_run_finds_smallest_slots_of_related_nodes :
    ∃ projection result, relatedNodes.build = .ok projection ∧
      runWeighted .unlimited projection ⟨4, 1, .outgoing, none, none, none⟩ = .ok result ∧
        result.components[2]? = some 0 := by
  have hcard : relatedNodes.ids.card = 3 := by decide
  have hkeys : relatedNodes.columnTypes.keys.length = 0 := by decide
  obtain ⟨projection, hbuild, haddressable⟩ := relatedNodes.exists_addressable_of_small
    (by decide) (by decide) (by decide) (by rw [hcard, hkeys]; decide)
  have hvalid : Config.validate ⟨4, 1, .outgoing, none, none, none⟩ = .ok () := rfl
  obtain ⟨result, hrun, hnodes, _, hleast, _⟩ :=
    unseeded_run_finds_smallest_slots hbuild haddressable hvalid rfl (by decide)
  obtain ⟨least, hcomponent, hconnected, hlower⟩ := hleast 2 (by rw [hnodes, hcard]; decide)
  have hjoins : relatedNodes.Joins none 2 0 :=
    ⟨⟨⟨30⟩, ⟨10⟩, none⟩, Array.mem_push_self, by decide, by decide, by simp⟩
  obtain rfl : least = 0 := by
    have hle := hlower (EqvGen.rel 2 0 hjoins)
    rwa [UInt32.le_zero_iff] at hle
  exact ⟨projection, result, hbuild, (hrun .unlimited (Threads.offers_unlimited 4)).1, hcomponent⟩

/-- Two slots are tied by a relationship above the threshold or by equal seeds. -/
def Tied (builder : Builder) (threshold : Option Float) (column : PropertyColumn)
    (a b : Slot) : Prop :=
  builder.Joins threshold a b ∨ ∃ seed, seedAt column a = some seed ∧ seedAt column b = some seed

theorem sharesSeed_seedsOf_iff {cells : Array (Option Int64)} {count : ℕ}
    (hcells : ∀ value, some value ∈ cells → 0 ≤ value) (hsize : cells.size ≤ count) (a b : Slot) :
    (Origin.seeded (seedsOf cells count)).SharesSeed a b ↔
      ∃ seed, seedAt (.long cells) a = some seed ∧ seedAt (.long cells) b = some seed := by
  simp only [← seed?_seedsOf hcells hsize, Option.map_eq_some_iff]
  constructor
  · rintro ⟨seed, ha, hb⟩
    exact ⟨seed.toNat, ⟨seed, ha, rfl⟩, ⟨seed, hb, rfl⟩⟩
  · rintro ⟨_, ⟨seed, ha, rfl⟩, ⟨other, hb, hsame⟩⟩
    exact ⟨seed, ha, UInt64.toNat_inj.mp hsame ▸ hb⟩

/--
A run with seeds whose workers are started succeeds and gives every slot the lowest seed among the
slots that relationships above the threshold and shared seeds connect to it, or the smallest of
these slots, counted from behind all seeds, if none has a seed. No number wraps, so different
classes have different numbers.
-/
theorem seeded_run_finds_lowest_seeds (hbuild : builder.build = .ok projection)
    (h : projection.Addressable) (hvalid : config.validate = .ok ())
    (hserved : config.direction ∈ builder.loadDirection.served) {key : String}
    (hkey : config.seedProperty = some key) {cells : Array (Option Int64)}
    (hcolumn : PropertyGraph.property? projection key = some (.long cells))
    (hcells : ∀ value, some value ∈ cells → 0 ≤ value) :
    ∃ seeds result, readSeeds projection key = .ok seeds ∧
      (∀ threads : Threads, threads.Offers config.concurrency.toNat →
        runWeighted threads projection config = .ok result) ∧
      Answers (Tied builder config.threshold (.long cells)) (seedAt (.long cells))
        projection.nodeCount (seedOffset seeds).toNat result ∧
      ((∀ slot, seedAt (.long cells) slot = none) → (seedOffset seeds).toNat = 0) ∧
      (∀ largest, IsGreatest {seed | ∃ slot, seedAt (.long cells) slot = some seed} largest →
        (seedOffset seeds).toNat = largest + 1) ∧
      (seedOffset seeds).toNat + projection.nodeCount < UInt64.size ∧
      SettlesAs projection.nodeCount (some seeds) (followedNeighbors projection config)
        config.minComponentSize result := by
  have hsize : cells.size ≤ projection.nodeCount :=
    (Projection.size_of_property?_eq_some hbuild hcolumn).le
  have hadmissible := admissible_seedsOf hcells h.nodeCount_le
  have hreads := readsWithin_followedNeighbors hbuild h hserved
  have hread := readSeeds_eq hcells projection hcolumn
  have hseedAt : (fun slot ↦ ((Origin.seeded (seedsOf cells projection.nodeCount)).seed? slot).map
      UInt64.toNat) = seedAt (.long cells) := by
    funext slot
    exact seed?_seedsOf hcells hsize slot
  have hrelation : EqvGen ((Origin.seeded (seedsOf cells projection.nodeCount)).Joins
      (pairsFrom (followedNeighbors projection config) (slotsBelow projection.nodeCount))) =
        EqvGen (Tied builder config.threshold (.long cells)) := by
    rw [eqvGen_joins_pairsFrom hbuild h hserved]
    congr 1
    ext a b
    rw [sharesSeed_seedsOf_iff hcells hsize, Tied, or_comm]
  have hroom : (seedOffset (seedsOf cells projection.nodeCount)).toNat + projection.nodeCount <
      UInt64.size := by
    have hoffset := toNat_seedOffset_le hcells projection.nodeCount
    have hcount := h.nodeCount_le
    unfold slotLimit at hcount
    simp only [UInt64.size]
    omega
  have hbehind : ∀ seed ∈ (Origin.seeded (seedsOf cells projection.nodeCount)).seedList,
      seed.toNat < (seedOffset (seedsOf cells projection.nodeCount)).toNat := by
    intro seed hseed
    exact lt_seedOffset_of_mem hcells (by simpa [Origin.seedList] using hseed)
  have hanswers := answers_settledResult hadmissible hreads hrelation hbehind hroom.le
    config.minComponentSize
  refine ⟨seedsOf cells projection.nodeCount, settledResult projection.nodeCount
    (some (seedsOf cells projection.nodeCount)) (followedNeighbors projection config)
    config.minComponentSize, hread, fun threads hthreads ↦ ?_, ?_,
    toNat_seedOffset_of_none hcells hsize h.nodeCount_le,
    fun largest hlargest ↦
      toNat_seedOffset_of_isGreatest hcells hsize h.nodeCount_le hlargest, hroom,
    settlesAs_of_readsWithin hadmissible hreads _⟩
  · rw [runWeighted, checkWeighted_eq_some h hvalid hkey hread]
    exact execute_eq_of_readsWithin hthreads projection hadmissible hreads
  · exact hseedAt ▸ hanswers

/-- Four nodes, two of them with one seed and one of these related to a third node. -/
def seededNodes : Builder :=
  .ofCalls [.nodeProperty ⟨40⟩ "seed" (.long 7), .nodes [⟨10⟩, ⟨20⟩],
    .nodeProperty ⟨30⟩ "seed" (.long 7), .relationship ⟨20⟩ ⟨40⟩]

/-- A node that is related to a seeded one gets its seed. -/
theorem seeded_run_finds_lowest_seeds_of_related_nodes :
    ∃ projection result, seededNodes.build = .ok projection ∧
      runWeighted .unlimited projection ⟨4, 1, .outgoing, some "seed", none, none⟩ = .ok result ∧
        result.components[1]? = some 7 := by
  have hcard : seededNodes.ids.card = 4 := by decide
  have hkeys : seededNodes.columnTypes.keys.length = 1 := by decide
  obtain ⟨projection, hbuild, haddressable⟩ := seededNodes.exists_addressable_of_small
    (by decide) (by decide) (by decide) (by rw [hcard, hkeys]; decide)
  have hvalid : Config.validate ⟨4, 1, .outgoing, some "seed", none, none⟩ = .ok () := rfl
  have hslot30 : (Builder.idMapOf seededNodes.distinctNodes).slotOf? ⟨30⟩ = some 2 :=
    (Builder.slotOf?_idMapOf (by decide)).mpr (by decide)
  have hslot40 : (Builder.idMapOf seededNodes.distinctNodes).slotOf? ⟨40⟩ = some 3 :=
    (Builder.slotOf?_idMapOf (by decide)).mpr (by decide)
  have hcolumn : PropertyGraph.property? projection "seed" =
      some (.long #[none, none, some 7, some 7]) := by
    have htype : seededNodes.columnTypes.get? "seed" = some .integer := by decide
    rw [Projection.property?_eq hbuild, htype, Option.map_some, Builder.column, Builder.cells,
      Builder.size_idMapOf, hcard]
    have hproperties : seededNodes.properties =
        #[⟨⟨40⟩, "seed", .long 7⟩, ⟨⟨30⟩, "seed", .long 7⟩] := rfl
    rw [hproperties]
    simp [Builder.put, hslot30, hslot40]
    rfl
  have hseven : ∀ value, some value ∈ #[none, none, some 7, some 7] → value = (7 : Int64) := by
    intro value hvalue
    simpa using hvalue
  obtain ⟨_, result, _, hrun, hanswers, _⟩ := seeded_run_finds_lowest_seeds hbuild haddressable
    hvalid (by decide) rfl hcolumn fun value hvalue ↦ by rw [hseven value hvalue]; decide
  have hslot : (1 : Slot).toNat < projection.nodeCount := by
    rw [nodeCount_of_build hbuild, hcard]
    decide
  obtain ⟨id, hid⟩ := hanswers.exists_component hslot
  have hjoins : seededNodes.Joins none 1 3 :=
    ⟨⟨⟨20⟩, ⟨40⟩, none⟩, Array.mem_push_self, by decide, by decide, by simp⟩
  have hlowest := hanswers.lowest_seed 1 id hid ⟨3, .rel 1 3 (.inl hjoins), by decide⟩
  obtain ⟨member, _, hseed⟩ := hlowest.1
  obtain ⟨value, hvalue, hnumber⟩ := Option.map_eq_some_iff.mp hseed
  rw [hseven value (Array.mem_of_getElem? (Option.join_eq_some_iff.mp hvalue))] at hnumber
  have hnumber' : (7 : UInt64) = id := UInt64.toNat_inj.mp hnumber
  exact ⟨projection, result, hbuild, hrun .unlimited (Threads.offers_unlimited 4), hnumber' ▸ hid⟩

end WeakComponents.Components
