import WeakComponents.Proofs.Components.Correctness
import WeakComponents.Proofs.Components.Interrupted
import WeakComponents.Proofs.Projection.Dangling
import WeakComponents.Proofs.UnionFind.Requests

/-!
# Runs that succeed

Whatever a run reads, every union that it asks for is done or refused, and either way the forest
stays one that some pairs grow. So a run that comes to a result has settled such a forest, and the
result answers for classes of the nodes even where it cannot be told which relationships were read.
-/

open Relation

namespace WeakComponents

namespace Components

open UnionFind (Origin)

variable {origin : Origin} {forest : UnionFind} {followed : Slot → Reading Slot}

theorem fst_uniteStep (source : Slot) (state : UnionFind × Option OutOfBounds) (target : Slot) :
    (uniteStep source state target).1.1 = (state.1.union source target).2 := by
  unfold uniteStep
  rcases state.1.union source target with ⟨_ | _, _⟩ <;> rfl

theorem grows_visitEntries (source : Slot) (entries : List Slot)
    {state : UnionFind × Option OutOfBounds} (h : origin.Grows state.1) :
    origin.Grows (Reading.visitEntries (uniteStep source) state entries).1.1 := by
  induction entries generalizing state with
  | nil => exact h
  | cons target rest ih =>
    have hstep : origin.Grows (uniteStep source state target).1.1 :=
      fst_uniteStep source state target ▸ h.union source target
    rw [Reading.visitEntries]
    split
    · rename_i next hnext
      rw [hnext] at hstep
      exact ih hstep
    · rename_i next hnext
      rwa [hnext] at hstep

theorem fst_uniteNeighbors (forest : UnionFind) (source : Slot) (reading : Reading Slot) :
    (uniteNeighbors forest source reading).1 =
      (Reading.visitEntries (uniteStep source) (forest, none) reading.entries).1.1 := by
  unfold uniteNeighbors Reading.visit
  rcases Reading.visitEntries (uniteStep source) (forest, none) reading.entries with
    ⟨⟨_, _ | _⟩, _ | _⟩ <;> rfl

theorem grows_uniteNodes (batch : NodeBatch) (slots : List Slot) (h : origin.Grows forest) :
    origin.Grows (uniteNodes followed batch forest slots).1 := by
  induction slots generalizing forest with
  | nil => exact h
  | cons slot rest ih =>
    have hslot : origin.Grows (uniteNeighbors forest slot (followed slot)).1 := by
      rw [fst_uniteNeighbors]
      exact grows_visitEntries slot _ h
    -- the forest is handed on whether the node was read to its end or not
    rcases huniting : uniteNeighbors forest slot (followed slot) with ⟨next, _ | (_ | _)⟩
    all_goals rw [huniting] at hslot; rw [uniteNodes, huniting]
    · exact ih hslot
    · exact hslot
    · exact hslot

section

variable {G : Type} [Graph G] {threads : Threads} {graph : G} {config : Config}
  {seeds : Option (Array (Option UInt64))} {result : Result}

/-- A run that succeeds has settled a forest that some pairs grow. -/
theorem exists_grown_of_execute (h : Admissible (Graph.nodeCount graph) seeds)
    (hrun : execute threads graph config seeds followed = .ok result) :
    ∃ pairs forest, (originOf (Graph.nodeCount graph) seeds).Grown pairs forest ∧
      result = conclude forest (start (Graph.nodeCount graph) seeds).2
        config.minComponentSize := by
  have hstart : (originOf (Graph.nodeCount graph) seeds).Grows
      (start (Graph.nodeCount graph) seeds).1 := by
    rw [start_fst]
    exact ⟨[], h.valid.grown⟩
  have htask (batch : NodeBatch) (forest : UnionFind)
      (hforest : (originOf (Graph.nodeCount graph) seeds).Grows forest) :
      (originOf (Graph.nodeCount graph) seeds).Grows (uniteBatch followed forest batch).1 :=
    grows_uniteNodes batch batch.toList hforest
  obtain ⟨pairs, hgrown⟩ := Dispatch.runBatches_keeps threads RunError.ofWorkerFault
    config.concurrency.toNat (workBatches graph config) hstart htask
  exact ⟨pairs, _, hgrown, (execute_eq_ok_iff.mp hrun).2.symm⟩

/-- Behind all seeds and with room for all slots, the result of a run answers for some classes. -/
theorem exists_answers_of_execute
    (hrun : execute threads graph config seeds followed = .ok result)
    (h : Admissible (Graph.nodeCount graph) seeds)
    (hbehind : ∀ seed ∈ (originOf (Graph.nodeCount graph) seeds).seedList,
      seed.toNat < (start (Graph.nodeCount graph) seeds).2.toNat)
    (hroom : (start (Graph.nodeCount graph) seeds).2.toNat + Graph.nodeCount graph ≤ UInt64.size) :
    result.minComponentSize = config.minComponentSize ∧
      ∃ relation, Answers relation
        (fun slot ↦ ((originOf (Graph.nodeCount graph) seeds).seed? slot).map UInt64.toNat)
        (Graph.nodeCount graph) (start (Graph.nodeCount graph) seeds).2.toNat result := by
  obtain ⟨pairs, forest, hgrown, rfl⟩ := exists_grown_of_execute h hrun
  have hanswers := answers_conclude h.valid hgrown rfl hbehind (h.size_originOf.symm ▸ hroom)
    config.minComponentSize
  rw [h.size_originOf] at hanswers
  exact ⟨rfl, _, hanswers⟩

theorem nodeCount_le_of_checkNodeCount (h : checkNodeCount graph = .ok ()) :
    Graph.nodeCount graph ≤ slotLimit := by
  unfold checkNodeCount at h
  split at h
  · cases h
  · omega

theorem of_checkUnweighted (h : checkUnweighted graph config = .ok ()) :
    Graph.nodeCount graph ≤ slotLimit ∧ config.threshold = none ∧ config.seedProperty = none := by
  unfold checkUnweighted at h
  obtain ⟨_, _, h⟩ := of_bind_eq_ok h
  obtain ⟨_, hcount, h⟩ := of_bind_eq_ok h
  refine ⟨nodeCount_le_of_checkNodeCount hcount, ?_⟩
  cases hthreshold : config.threshold with
  | some _ =>
    rw [hthreshold] at h
    cases h
  | none =>
    cases hseeds : config.seedProperty with
    | some _ =>
      rw [hthreshold, hseeds] at h
      cases h
    | none => exact ⟨rfl, rfl⟩

/-- A check that passes has read the seeds, if the configuration names a property for them. -/
theorem of_checkWeighted [PropertyGraph G] (h : checkWeighted graph config = .ok seeds) :
    Graph.nodeCount graph ≤ slotLimit ∧
      (config.seedProperty = none ∧ seeds = none ∨
        ∃ key given, config.seedProperty = some key ∧ readSeeds graph key = .ok given ∧
          seeds = some given) := by
  unfold checkWeighted at h
  obtain ⟨_, _, h⟩ := of_bind_eq_ok h
  obtain ⟨_, hcount, h⟩ := of_bind_eq_ok h
  refine ⟨nodeCount_le_of_checkNodeCount hcount, ?_⟩
  cases hkey : config.seedProperty with
  | none =>
    rw [hkey] at h
    exact .inl ⟨rfl, (Except.ok.inj h).symm⟩
  | some key =>
    rw [hkey] at h
    obtain ⟨given, hread, h⟩ := of_bind_eq_ok h
    exact .inr ⟨key, given, rfl, hread, (Except.ok.inj h).symm⟩

end

/-- Only a column of integers without a negative one is read. -/
theorem cells_of_readSeeds {G : Type} [Graph G] [PropertyGraph G] {graph : G} {key : String}
    {given : Array (Option UInt64)} (h : readSeeds graph key = .ok given) :
    ∃ cells, PropertyGraph.property? graph key = some (.long cells) ∧
      ∀ index value, index < Graph.nodeCount graph → cells[index]? = some (some value) →
        0 ≤ value := by
  unfold readSeeds at h
  split at h
  · cases h
  · cases h
  · rename_i cells hcolumn
    refine ⟨cells, hcolumn, fun index value hindex hvalue ↦ ?_⟩
    obtain ⟨seeds, hseeds, _⟩ := of_bind_eq_ok h
    obtain ⟨seed, hseed⟩ := exists_of_mapM_eq_ok hseeds (List.mem_range.mpr hindex)
    rw [hvalue, Option.join_some, seedOfCell] at hseed
    split at hseed
    · cases hseed
    · rename_i hnegative
      exact Int64.not_lt.mp hnegative

section

variable {builder : Projection.Builder} {projection : Projection} {config : Config}
  {result : Result}

/-- A run on a projection, with or without weights, has come to a result. -/
def Succeeds (projection : Projection) (config : Config) (result : Result) : Prop :=
  ∃ threads, runWeighted threads projection config = .ok result ∨
    runUnweighted threads projection config = .ok result

/-- A run that succeeds has followed neighbours from a fresh forest, with the seeds of a property
if the configuration names one. -/
theorem Succeeds.execute_eq (h : Succeeds projection config result) :
    projection.nodeCount ≤ slotLimit ∧
      (config.seedProperty = none ∧
          execute .unlimited projection config none (followedNeighbors projection config) =
            .ok result ∨
        ∃ key given, config.seedProperty = some key ∧ readSeeds projection key = .ok given ∧
          execute .unlimited projection config (some given) (followedNeighbors projection config) =
            .ok result) := by
  have hoffers := Threads.offers_unlimited config.concurrency.toNat
  obtain ⟨threads, hrun | hrun⟩ := h
  · unfold runWeighted at hrun
    split at hrun
    · cases hrun
    · rename_i seeds hcheck
      obtain ⟨hcount, ⟨hunseeded, rfl⟩ | ⟨key, given, hkey, hread, rfl⟩⟩ := of_checkWeighted hcheck
      · exact ⟨hcount, .inl ⟨hunseeded, execute_of_offers_of_eq_ok hoffers hrun⟩⟩
      · exact ⟨hcount, .inr ⟨key, given, hkey, hread, execute_of_offers_of_eq_ok hoffers hrun⟩⟩
  · unfold runUnweighted at hrun
    split at hrun
    · cases hrun
    · rename_i hcheck
      obtain ⟨hcount, hthreshold, hunseeded⟩ := of_checkUnweighted hcheck
      have hfollowed : followedNeighbors projection config =
          fun node ↦ Graph.neighbors projection node config.direction := by
        funext node
        rw [followedNeighbors, hthreshold]
      exact ⟨hcount, .inl ⟨hunseeded, hfollowed ▸ execute_of_offers_of_eq_ok hoffers hrun⟩⟩

theorem Succeeds.execute_eq_of_unseeded (h : Succeeds projection config result)
    (hunseeded : config.seedProperty = none) :
    execute .unlimited projection config none (followedNeighbors projection config) =
      .ok result := by
  obtain ⟨_, ⟨_, hrun⟩ | ⟨key, _, hkey, _⟩⟩ := h.execute_eq
  · exact hrun
  · rw [hkey] at hunseeded
    cases hunseeded

/-- The result of a run without seeds answers for classes that smallest slots stand for. -/
theorem exists_answers_of_unseeded {followed : Slot → Reading Slot}
    (hcount : projection.nodeCount ≤ slotLimit)
    (hrun : execute .unlimited projection config none followed = .ok result) :
    result.minComponentSize = config.minComponentSize ∧
      ∃ relation, Answers relation (fun _ ↦ none) projection.nodeCount 0 result := by
  have hroom : (start projection.nodeCount none).2.toNat + projection.nodeCount ≤ UInt64.size := by
    rw [start, UInt64.toNat_zero, Nat.zero_add]
    exact hcount.trans (by decide)
  exact exists_answers_of_execute hrun (admissible_none hcount)
    (by simp [originOf, Origin.seedList]) hroom

/-- The result of a run with seeds answers for classes that lowest seeds stand for. -/
theorem exists_answers_of_seeded (hbuild : builder.build = .ok projection)
    {followed : Slot → Reading Slot} {key : String} {given : Array (Option UInt64)}
    (hcount : projection.nodeCount ≤ slotLimit) (hread : readSeeds projection key = .ok given)
    (hrun : execute .unlimited projection config (some given) followed = .ok result) :
    result.minComponentSize = config.minComponentSize ∧
      ∃ relation seedAt offset, Answers relation seedAt projection.nodeCount offset result := by
  obtain ⟨cells, hcolumn, hnonneg⟩ := cells_of_readSeeds hread
  have hsize : cells.size = projection.nodeCount :=
    Projection.size_of_property?_eq_some hbuild hcolumn
  have hcells : ∀ value, some value ∈ cells → 0 ≤ value := by
    intro value hvalue
    obtain ⟨index, hcell⟩ := Array.mem_iff_getElem?.mp hvalue
    have hindex : index < cells.size := (Array.getElem?_eq_some_iff.mp hcell).1
    exact hnonneg index value (hindex.trans_eq hsize) hcell
  have hgiven : given = seedsOf cells projection.nodeCount :=
    Except.ok.inj (hread.symm.trans (readSeeds_eq hcells projection hcolumn))
  subst hgiven
  have hbehind : ∀ seed ∈ (originOf projection.nodeCount
      (some (seedsOf cells projection.nodeCount))).seedList,
      seed.toNat < (seedOffset (seedsOf cells projection.nodeCount)).toNat := by
    intro seed hseed
    exact lt_seedOffset_of_mem hcells (by simpa [originOf, Origin.seedList] using hseed)
  have hroom : (seedOffset (seedsOf cells projection.nodeCount)).toNat + projection.nodeCount ≤
      UInt64.size := by
    have hoffset := toNat_seedOffset_le hcells projection.nodeCount
    unfold slotLimit at hcount
    simp only [UInt64.size]
    omega
  obtain ⟨hleast, relation, hanswers⟩ :=
    exists_answers_of_execute hrun (admissible_seedsOf hcells hcount) hbehind hroom
  exact ⟨hleast, relation, _, _, hanswers⟩

/-- The result of any run that succeeds answers for some classes of the nodes. -/
theorem exists_answers_of_succeeds (hbuild : builder.build = .ok projection)
    (hrun : Succeeds projection config result) :
    projection.nodeCount ≤ slotLimit ∧ result.minComponentSize = config.minComponentSize ∧
      (∃ relation seedAt offset, Answers relation seedAt projection.nodeCount offset result) ∧
      (config.seedProperty = none →
        ∃ relation, Answers relation (fun _ ↦ none) projection.nodeCount 0 result) := by
  obtain ⟨hcount, ⟨_, hexecute⟩ | ⟨key, given, hkey, hread, hexecute⟩⟩ := hrun.execute_eq
  · obtain ⟨hleast, relation, hanswers⟩ := exists_answers_of_unseeded hcount hexecute
    exact ⟨hcount, hleast, ⟨relation, _, _, hanswers⟩, fun _ ↦ ⟨relation, hanswers⟩⟩
  · obtain ⟨hleast, hanswers⟩ := exists_answers_of_seeded hbuild hcount hread hexecute
    refine ⟨hcount, hleast, hanswers, fun hunseeded ↦ ?_⟩
    rw [hkey] at hunseeded
    cases hunseeded

theorem followedNeighbors_of_rowsOf_eq_error {slot : Slot} {fault : StorageFault}
    (h : projection.rowsOf slot config.direction = .error fault) :
    followedNeighbors projection config slot = .interrupted (.fault fault) := by
  have hread {α : Type} (row : Adjacency → List α) :
      projection.read slot config.direction row = .interrupted (.fault fault) := by
    rw [Projection.read, h]
  unfold followedNeighbors
  cases config.threshold with
  | none => exact hread _
  | some threshold =>
    have hweighted : WeightedGraph.weightedNeighbors projection slot config.direction
        defaultWeight = .interrupted (.fault fault) := hread _
    dsimp only
    rw [hweighted]
    rfl

/-- If there are any nodes, a run that succeeds follows a direction that was loaded. -/
theorem served_of_succeeds (hbuild : builder.build = .ok projection)
    (hunseeded : config.seedProperty = none) (hrun : Succeeds projection config result)
    {slot : Slot} (hslot : slot.toNat < projection.nodeCount) :
    config.direction ∈ builder.loadDirection.served := by
  have hcount := hrun.execute_eq.1
  have hexecute := hrun.execute_eq_of_unseeded hunseeded
  by_contra hunserved
  -- in any other direction all readings are interrupted before they deliver anything
  have hinterrupted (node : Slot) :
      ∃ fault, followedNeighbors projection config node = .interrupted (.fault fault) := by
    cases hrows : projection.rowsOf node config.direction with
    | error fault => exact ⟨fault, followedNeighbors_of_rowsOf_eq_error hrows⟩
    | ok rows =>
      exact absurd (Projection.Builder.served_of_rowsOf_eq_ok hbuild hrows).2 hunserved
  have hdelivers : DeliversWithin (followedNeighbors projection config) projection.nodeCount := by
    intro node _ target htarget
    obtain ⟨fault, hnode⟩ := hinterrupted node
    rw [hnode] at htarget
    cases htarget
  obtain ⟨fault, hfault⟩ := hinterrupted slot
  have hcomplete := (exists_execute_eq_ok_iff (Threads.offers_unlimited _)
    (admissible_none hcount) hdelivers).mp ⟨result, hexecute⟩ slot hslot
  rw [hfault] at hcomplete
  cases hcomplete

section

variable (hbuild : builder.build = .ok projection) (h : projection.Addressable)
  (hunseeded : config.seedProperty = none)
  (hserved : config.direction ∈ builder.loadDirection.served)

include hbuild h hunseeded hserved

/-- Where all rows can be addressed, a run in a direction that was loaded succeeds. -/
theorem exists_succeeds (hvalid : config.validate = .ok ()) :
    ∃ result, Succeeds projection config result := by
  have hadmissible : Admissible projection.nodeCount none := admissible_none h.nodeCount_le
  have hreads := readsWithin_followedNeighbors hbuild h hserved
  have hoffers := Threads.offers_unlimited config.concurrency.toNat
  have hexecute := execute_eq_of_readsWithin hoffers projection hadmissible hreads
  have hrun : runWeighted .unlimited projection config =
      execute .unlimited projection config none (followedNeighbors projection config) := by
    rw [runWeighted, checkWeighted_eq_none h hvalid hunseeded]
  exact ⟨_, .unlimited, .inl (hrun.trans hexecute)⟩

/-- Where all rows can be addressed, the classes are those of the relationships to be followed. -/
theorem answers_joins_of_succeeds (hrun : Succeeds projection config result) :
    Answers (builder.Joins config.threshold) (fun _ ↦ none) projection.nodeCount 0 result := by
  have hadmissible : Admissible projection.nodeCount none := admissible_none h.nodeCount_le
  have hreads := readsWithin_followedNeighbors hbuild h hserved
  have hsettled : settledResult projection.nodeCount none (followedNeighbors projection config)
      config.minComponentSize = result :=
    Except.ok.inj ((execute_eq_of_readsWithin (Threads.offers_unlimited config.concurrency.toNat)
      projection hadmissible hreads).symm.trans (hrun.execute_eq_of_unseeded hunseeded))
  rw [← hsettled]
  exact answers_joins_settledResult hbuild h hserved

end

end

end Components

end WeakComponents
