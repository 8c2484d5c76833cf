import WeakComponents.Proofs.Projection.Lists
import WeakComponents.Proofs.Projection.Unweighted

/-!
# Relationships with a missing end

A relationship with an end that is not among the nodes never reaches the rows of a projection. All
that it can do is to bring weights: a projection carries weights as soon as any relationship was
given one. Apart from this, input with such relationships builds what it builds without them.
-/

namespace WeakComponents

open Components (followedNeighbors runWeighted)

namespace Projection

variable {projection : Projection} {slot : Slot} {direction : Direction}

/-- Both ends of a relationship are among some ids. -/
def Relationship.Within (relationship : Relationship) (ids : Finset NodeId) : Prop :=
  relationship.source ∈ ids ∧ relationship.target ∈ ids

instance (relationship : Relationship) (ids : Finset NodeId) :
    Decidable (relationship.Within ids) :=
  inferInstanceAs (Decidable (_ ∧ _))

namespace Builder

variable {builder : Builder} {calls : List Call} {ids : Finset NodeId} {id : NodeId}

/-- A builder without the relationships that leave some ids. -/
def restrict (builder : Builder) (ids : Finset NodeId) : Builder :=
  { builder with
    relationships := builder.relationships.filter fun relationship ↦
      decide (relationship.Within ids) }

/-- A call without the relationships that leave some ids, or nothing if it gave no other. -/
def Call.within? (ids : Finset NodeId) : Call → Option Call
  | relationship source target =>
    if (⟨source, target, none⟩ : Relationship).Within ids then some (relationship source target)
    else none
  | weightedRelationship source target weight =>
    if (⟨source, target, some weight⟩ : Relationship).Within ids then
      some (weightedRelationship source target weight)
    else none
  | relationships pairs =>
    some (relationships (pairs.filter fun pair ↦
      decide ((⟨pair.1, pair.2, none⟩ : Relationship).Within ids)))
  | call => some call

/-- The calls without the relationships that have an end which no call adds. -/
def withoutDangling (calls : List Call) : List Call :=
  calls.filterMap (Call.within? (addedIds calls))

theorem foldl_perform_within? (builder : Builder) (call : Call) :
    (call.within? ids).toList.foldl perform (builder.restrict ids) =
      (builder.perform call).restrict ids := by
  cases call with
  | relationship source target =>
    by_cases h : (⟨source, target, none⟩ : Relationship).Within ids <;>
      simp [Call.within?, h, perform, relationship, restrict]
  | weightedRelationship source target weight =>
    by_cases h : (⟨source, target, some weight⟩ : Relationship).Within ids <;>
      simp [Call.within?, h, perform, weightedRelationship, restrict]
  | relationships pairs =>
    simp [Call.within?, perform, addRelationships_eq, restrict, List.filter_map, Function.comp_def]
  | _ => rfl

/-- Leaving out relationships call by call leaves them out of what is built. -/
theorem foldl_perform_filterMap_within? (builder : Builder) (calls : List Call) :
    (calls.filterMap (Call.within? ids)).foldl perform (builder.restrict ids) =
      (calls.foldl perform builder).restrict ids := by
  induction calls generalizing builder with
  | nil => rfl
  | cons call rest ih =>
    have hcons : (call :: rest).filterMap (Call.within? ids) =
        (call.within? ids).toList ++ rest.filterMap (Call.within? ids) := by
      rw [List.filterMap_cons]
      cases call.within? ids <;> rfl
    rw [hcons, List.foldl_append, foldl_perform_within?, ih, List.foldl_cons]

theorem ofCalls_withoutDangling (calls : List Call) :
    ofCalls (withoutDangling calls) = (ofCalls calls).restrict (ofCalls calls).ids := by
  rw [ids_ofCalls]
  exact foldl_perform_filterMap_within? empty calls

theorem mem_ids_of_slotOf?_idMapOf (h : (idMapOf builder.distinctNodes).slotOf? id = some slot) :
    id ∈ builder.ids := by
  rw [← toFinset_distinctNodes, List.mem_toFinset]
  exact (slotOf?_idMapOf_iff_placed.mp h).mem

/-- A relationship with a missing end is no edge, so that leaving it out changes no edge. -/
theorem edges_restrict (builder : Builder) :
    (builder.restrict builder.ids).edges (idMapOf builder.distinctNodes) =
      builder.edges (idMapOf builder.distinctNodes) := by
  unfold edges restrict
  dsimp only
  rw [Array.toList_filter, List.filterMap_filter]
  apply List.filterMap_congr
  intro relationship _
  split
  · rfl
  · -- a missing end has no slot, however many nodes there are
    rename_i hleaves
    rw [decide_eq_true_iff] at hleaves
    split
    · rename_i source target hsource htarget
      exact absurd ⟨mem_ids_of_slotOf?_idMapOf hsource, mem_ids_of_slotOf?_idMapOf htarget⟩ hleaves
    · rfl

theorem isWeighted_of_restrict (h : (builder.restrict ids).isWeighted = true) :
    builder.isWeighted = true := by
  unfold isWeighted restrict at *
  simp only [Array.any_eq_true', Array.mem_filter] at *
  obtain ⟨relationship, hmem, hweight⟩ := h
  exact ⟨relationship, hmem.1, hweight⟩

theorem assemble_restrict_of_isWeighted_eq
    (h : (builder.restrict builder.ids).isWeighted = builder.isWeighted) :
    (builder.restrict builder.ids).assemble builder.distinctNodes =
      builder.assemble builder.distinctNodes := by
  unfold assemble
  dsimp only
  rw [edges_restrict, h]
  rfl

theorem assemble_restrict_of_isWeighted_eq_false
    (h : (builder.restrict builder.ids).isWeighted = false) :
    (builder.restrict builder.ids).assemble builder.distinctNodes =
      (builder.assemble builder.distinctNodes).withoutWeights := by
  have houtgoing (load : LoadDirection) (nodeCount : ℕ) (edges : List Edge) (weighted : Bool) :
      outgoingRows load nodeCount edges false =
        (outgoingRows load nodeCount edges weighted).map Adjacency.withoutWeights := by
    cases load <;> simp [outgoingRows, Adjacency.withoutWeights_ofEdges]
  have hincoming (load : LoadDirection) (nodeCount : ℕ) (edges : List Edge) (weighted : Bool) :
      incomingRows load nodeCount edges false =
        (incomingRows load nodeCount edges weighted).map Adjacency.withoutWeights := by
    cases load <;> simp [incomingRows, Adjacency.withoutWeights_ofEdges]
  unfold assemble withoutWeights
  dsimp only
  rw [edges_restrict, h, ← houtgoing, ← hincoming]
  rfl

/-! ## Building without relationships -/

theorem build_restrict_of_isWeighted_eq
    (h : (builder.restrict builder.ids).isWeighted = builder.isWeighted) :
    (builder.restrict builder.ids).build = builder.build := by
  unfold build
  dsimp only
  rw [← assemble_restrict_of_isWeighted_eq h]
  rfl

/-- Weights take memory, and this is all that they can fail for. -/
theorem build_restrict_of_build_eq_error {error : EngineError}
    (hbuild : builder.build = .error error) :
    (builder.restrict builder.ids).build = .error error ∨
      error = .limitExceeded "memory" builder.maxMemory := by
  rcases build_eq_error_iff.mp hbuild with ⟨hnodes, rfl⟩ | ⟨_, _, hmemory⟩
  · exact .inl (build_eq_error_iff.mpr (.inl ⟨hnodes, rfl⟩))
  · exact .inr hmemory

theorem served_of_rowsOf_eq_ok (hbuild : builder.build = .ok projection) {rows : List Adjacency}
    (hrows : projection.rowsOf slot direction = .ok rows) :
    slot.toNat < projection.nodeCount ∧ direction ∈ builder.loadDirection.served := by
  unfold rowsOf at hrows
  split at hrows
  · rename_i hslot
    refine ⟨hslot, ?_⟩
    obtain ⟨_, _, rfl⟩ := build_eq_ok_iff.mp hbuild
    have hlists : (builder.assemble builder.distinctNodes).loadDirection =
        builder.loadDirection := rfl
    unfold lists at hrows
    rw [hlists] at hrows
    cases hload : builder.loadDirection <;> cases direction <;>
      simp [hload, LoadDirection.served] at hrows ⊢
  · exact absurd hrows (by simp)

section

variable (hunweighted : (builder.restrict builder.ids).isWeighted = false)

include hunweighted

theorem build_restrict_of_build (hbuild : builder.build = .ok projection) :
    (builder.restrict builder.ids).build = .ok projection.withoutWeights := by
  obtain ⟨hnodes, hmemory, rfl⟩ := build_eq_ok_iff.mp hbuild
  refine build_eq_ok_iff.mpr ⟨hnodes, ?_, ?_⟩
  · exact (memorySize_withoutWeights_le _).trans hmemory
  · exact (assemble_restrict_of_isWeighted_eq_false hunweighted).symm

theorem build_eq_error_of_restrict {error : EngineError}
    (hbuild : (builder.restrict builder.ids).build = .error error) :
    builder.build = .error error := by
  rcases build_eq_error_iff.mp hbuild with ⟨hnodes, rfl⟩ | ⟨hnodes, hmemory, rfl⟩
  · exact build_eq_error_iff.mpr (.inl ⟨hnodes, rfl⟩)
  · refine build_eq_error_iff.mpr (.inr ⟨hnodes, ?_, rfl⟩)
    calc
      builder.maxMemory.toNat <
          ((builder.restrict builder.ids).assemble builder.distinctNodes).memorySize := hmemory
      _ = (builder.assemble builder.distinctNodes).withoutWeights.memorySize := by
        rw [assemble_restrict_of_isWeighted_eq_false hunweighted]
      _ ≤ (builder.assemble builder.distinctNodes).memorySize := memorySize_withoutWeights_le _

theorem weight_eq_of_mem_edges (hcount : builder.ids.card ≤ slotLimit) {edge : Edge}
    (hedge : edge ∈ builder.edges (idMapOf builder.distinctNodes)) :
    edge.weight = builder.defaultWeight := by
  have hkept : edge ∈ (builder.restrict builder.ids).edges
      (idMapOf (builder.restrict builder.ids).distinctNodes) := edges_restrict builder ▸ hedge
  have hids : (builder.restrict builder.ids).ids.card ≤ slotLimit := hcount
  obtain ⟨relationship, hmem, _, _, hweight⟩ := (mem_edges hids).mp hkept
  have hnone : relationship.weight = none := by
    unfold isWeighted at hunweighted
    rw [Array.any_eq_false'] at hunweighted
    simpa using hunweighted relationship hmem
  rw [← hweight, hnone]
  rfl

/-- Weights that no relationship between nodes was given are all the default weight. -/
theorem weightedNeighbors_withoutWeights (hbuild : builder.build = .ok projection)
    (h : projection.Addressable) (hweighted : builder.isWeighted = true) (slot : Slot)
    (direction : Direction) (fallback : Float) :
    WeightedGraph.weightedNeighbors projection slot direction fallback =
      WeightedGraph.weightedNeighbors projection.withoutWeights slot direction
        builder.defaultWeight := by
  cases hrows : projection.rowsOf slot direction with
  | error fault =>
    change projection.read _ _ _ = projection.withoutWeights.read _ _ _
    unfold read
    rw [rowsOf_withoutWeights, hrows]
    rfl
  | ok rows =>
    obtain ⟨hslot, hserved⟩ := served_of_rowsOf_eq_ok hbuild hrows
    have hkept := build_restrict_of_build hunweighted hbuild
    have hlists : (builder.restrict builder.ids).listsRead direction =
        builder.listsRead direction := by
      unfold listsRead
      exact congrArg (fun edges ↦ builder.loadDirection.listsRead edges direction)
        (edges_restrict builder)
    rw [h.weightedNeighbors_eq hbuild hserved hslot,
      h.withoutWeights.weightedNeighbors_eq hkept hserved hslot, hlists, hweighted, hunweighted]
    congr 1
    apply List.flatMap_congr
    intro stored hstored
    apply List.map_congr_left
    intro edge hedge
    have hmem := (Adjacency.mem_rowOf.mp hedge).1
    obtain ⟨given, hgiven, hend⟩ := LoadDirection.exists_of_mem_listsKept
      (LoadDirection.mem_listsKept_of_mem_listsRead hstored) hmem
    have hweight := weight_eq_of_mem_edges hunweighted (h.card_le hbuild) hgiven
    rcases hend with rfl | rfl
    · simp [hweight]
    · simp [Edge.reverse, hweight]

/-- By default the weights that are left count like missing ones. -/
theorem runWeighted_eq_of_defaultWeight (hbuild : builder.build = .ok projection)
    (h : projection.Addressable) (hweighted : builder.isWeighted = true)
    (hdefault : builder.defaultWeight = Components.defaultWeight) (threads : Threads) :
    runWeighted threads projection = runWeighted threads projection.withoutWeights := by
  funext config
  apply runWeighted_withoutWeights
  funext node
  unfold followedNeighbors
  rw [projection.sameUnweighted_withoutWeights.neighbors_eq,
    weightedNeighbors_withoutWeights hunweighted hbuild h hweighted, hdefault]

end

theorem given_withoutDangling (calls : List Call) :
    (withoutDangling calls).flatMap Call.given =
      (calls.flatMap Call.given).filter fun relationship ↦
        decide (relationship.Within (addedIds calls)) := by
  rw [← relationships_ofCalls, ← relationships_ofCalls, ofCalls_withoutDangling, ids_ofCalls]
  exact Array.toList_filter

/--
Relationships with a missing end can be left out of any input. Where this takes no weights away,
the same is built. Where it takes all weights away, the same is built but for the weights, and these
are the default weight everywhere; weights can fail for the memory that they take.
-/
theorem build_withoutDangling (calls : List Call) :
    (withoutDangling calls).flatMap Call.given =
        (calls.flatMap Call.given).filter (fun relationship ↦
          decide (relationship.Within (addedIds calls))) ∧
      ((GivesWeights calls → GivesWeights (withoutDangling calls)) →
        (ofCalls (withoutDangling calls)).build = (ofCalls calls).build) ∧
      (GivesWeights calls → ¬ GivesWeights (withoutDangling calls) →
        (∀ projection, (ofCalls calls).build = .ok projection →
          (ofCalls (withoutDangling calls)).build = .ok projection.withoutWeights ∧
          projection.SameUnweighted projection.withoutWeights ∧
          (projection.Addressable →
            (∀ slot direction fallback,
              WeightedGraph.weightedNeighbors projection slot direction fallback =
                WeightedGraph.weightedNeighbors projection.withoutWeights slot direction
                  (chosenWeight calls)) ∧
            (chosenWeight calls = Components.defaultWeight → ∀ threads,
              runWeighted threads projection = runWeighted threads projection.withoutWeights))) ∧
        (∀ error, (ofCalls (withoutDangling calls)).build = .error error →
          (ofCalls calls).build = .error error) ∧
        ∀ error, (ofCalls calls).build = .error error →
          (ofCalls (withoutDangling calls)).build = .error error ∨
            error = .limitExceeded "memory" (ofCalls calls).maxMemory) := by
  refine ⟨given_withoutDangling calls, fun hkept ↦ ?_, fun hweights hnone ↦ ?_⟩
  · rw [← isWeighted_ofCalls, ← isWeighted_ofCalls, ofCalls_withoutDangling] at hkept
    rw [ofCalls_withoutDangling]
    exact build_restrict_of_isWeighted_eq (Bool.eq_iff_iff.mpr ⟨isWeighted_of_restrict, hkept⟩)
  · rw [← isWeighted_ofCalls, ofCalls_withoutDangling, Bool.not_eq_true] at hnone
    rw [← isWeighted_ofCalls] at hweights
    rw [ofCalls_withoutDangling, ← defaultWeight_ofCalls]
    refine ⟨fun projection hbuild ↦ ⟨build_restrict_of_build hnone hbuild,
      sameUnweighted_withoutWeights projection, fun h ↦ ⟨?_, ?_⟩⟩,
      fun error ↦ build_eq_error_of_restrict hnone,
      fun error ↦ build_restrict_of_build_eq_error⟩
    · exact weightedNeighbors_withoutWeights hnone hbuild h hweights
    · exact runWeighted_eq_of_defaultWeight hnone hbuild h hweights

/-- A relationship without a weight, and one with a weight that leads to no node. -/
def danglingWeight : List Call :=
  [.nodes [⟨10⟩, ⟨20⟩], .relationship ⟨10⟩ ⟨20⟩, .weightedRelationship ⟨10⟩ ⟨99⟩ 5.0]

theorem exists_build_danglingWeight :
    ∃ projection, (ofCalls danglingWeight).build = .ok projection ∧ projection.Addressable := by
  have hcard : (ofCalls danglingWeight).ids.card = 2 := by decide
  have hkeys : (ofCalls danglingWeight).columnTypes.keys.length = 0 := by decide
  exact (ofCalls danglingWeight).exists_addressable_of_small (by decide) (by decide) (by decide)
    (by rw [hcard, hkeys]; decide)

theorem givesWeights_danglingWeight :
    GivesWeights danglingWeight ∧ ¬ GivesWeights (withoutDangling danglingWeight) := by
  constructor
  · exact ⟨⟨⟨10⟩, ⟨99⟩, some 5.0⟩, by simp [danglingWeight, Call.given], rfl⟩
  · have hkept : withoutDangling danglingWeight =
        [.nodes [⟨10⟩, ⟨20⟩], .relationship ⟨10⟩ ⟨20⟩] := rfl
    rw [hkept]
    simp [GivesWeights, Call.given]

theorem build_withoutDangling_of_danglingWeight :
    ∃ projection, (ofCalls danglingWeight).build = .ok projection ∧
      (ofCalls (withoutDangling danglingWeight)).build = .ok projection.withoutWeights ∧
      runWeighted .unlimited projection =
        runWeighted .unlimited projection.withoutWeights := by
  obtain ⟨projection, hbuild, haddressable⟩ := exists_build_danglingWeight
  obtain ⟨_, _, hdropped⟩ := build_withoutDangling danglingWeight
  obtain ⟨hprojection, _⟩ :=
    hdropped givesWeights_danglingWeight.1 givesWeights_danglingWeight.2
  obtain ⟨hkept, _, hreads⟩ := hprojection projection hbuild
  exact ⟨projection, hbuild, hkept, (hreads haddressable).2 rfl .unlimited⟩

/-- What a relationship with a missing end leaves behind can be read. -/
theorem hasWeights_of_danglingWeight :
    ∃ projection kept, (ofCalls danglingWeight).build = .ok projection ∧
      (ofCalls (withoutDangling danglingWeight)).build = .ok kept ∧
      WeightedGraph.hasWeights projection = true ∧ WeightedGraph.hasWeights kept = false := by
  obtain ⟨projection, hbuild, _⟩ := exists_build_danglingWeight
  have hnodes : 0 < projection.nodeCount := by
    rw [nodeCount_of_build hbuild]
    decide
  have hweighted : (ofCalls danglingWeight).isWeighted = true :=
    isWeighted_ofCalls.mpr givesWeights_danglingWeight.1
  have hunweighted : (ofCalls (withoutDangling danglingWeight)).isWeighted = false := by
    rw [← Bool.not_eq_true, isWeighted_ofCalls]
    exact givesWeights_danglingWeight.2
  have hkept : (ofCalls (withoutDangling danglingWeight)).build = .ok projection.withoutWeights := by
    rw [ofCalls_withoutDangling] at hunweighted ⊢
    exact build_restrict_of_build hunweighted hbuild
  refine ⟨projection, projection.withoutWeights, hbuild, hkept, ?_, ?_⟩
  · exact (hasWeights_of_build hbuild).trans (by simp [hweighted, hnodes])
  · exact (hasWeights_of_build hkept).trans (by simp [hunweighted])

end Builder

end Projection

end WeakComponents
