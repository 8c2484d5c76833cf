import WeakComponents.Proofs.Projection.Calls
import WeakComponents.Proofs.Projection.Memory

/-!
# Neighbour lists of a projection

The lists of a built projection are the relationships between its nodes, seen from the slot that is
asked for, in the order in which the calls gave them; a stored weight is the weight of the
relationship that its neighbour comes from.
-/

namespace WeakComponents

namespace Edge

/-- The targets of the relationships from a slot, with the weights. -/
def leaving (edges : List Edge) (slot : Slot) : List (Slot × Float) :=
  edges.filterMap fun edge ↦
    if edge.source = slot then some (edge.target, edge.weight) else none

/-- The sources of the relationships to a slot, with the weights. -/
def arriving (edges : List Edge) (slot : Slot) : List (Slot × Float) :=
  edges.filterMap fun edge ↦
    if edge.target = slot then some (edge.source, edge.weight) else none

/-- The other ends of the relationships that touch a slot, with the weights. -/
def touching (edges : List Edge) (slot : Slot) : List (Slot × Float) :=
  edges.filterMap fun edge ↦
    if edge.source = slot then some (edge.target, edge.weight)
    else if edge.target = slot then some (edge.source, edge.weight)
    else none

theorem leaving_reverse (edges : List Edge) (slot : Slot) :
    leaving (edges.map reverse) slot = arriving edges slot := by
  unfold leaving arriving
  rw [List.filterMap_map]
  rfl

/-- Of the two ends of a relationship one at most is at a slot, and a loop has a single end. -/
theorem leaving_bothEnds (edge : Edge) (slot : Slot) :
    leaving edge.bothEnds slot = touching [edge] slot := by
  obtain ⟨source, target, weight⟩ := edge
  unfold leaving touching bothEnds reverse
  by_cases hloop : source = target
  · subst hloop
    by_cases hslot : source = slot <;> simp [hslot]
  · by_cases hsource : source = slot
    · subst hsource
      simp [hloop, Ne.symm hloop]
    · by_cases htarget : target = slot <;> simp [hloop, hsource, htarget]

theorem leaving_flatMap_bothEnds (edges : List Edge) (slot : Slot) :
    leaving (edges.flatMap bothEnds) slot = touching edges slot := by
  induction edges with
  | nil => rfl
  | cons edge rest ih =>
    calc
      leaving (edge.bothEnds ++ rest.flatMap bothEnds) slot =
          leaving edge.bothEnds slot ++ leaving (rest.flatMap bothEnds) slot :=
        List.filterMap_append
      _ = touching [edge] slot ++ touching rest slot := by rw [leaving_bothEnds, ih]
      _ = touching (edge :: rest) slot := List.filterMap_append.symm

end Edge

theorem Adjacency.map_rowOf (edges : List Edge) (slot : Slot) :
    (rowOf edges slot.toNat).map (fun edge ↦ (edge.target, edge.weight)) =
      Edge.leaving edges slot := by
  unfold rowOf Edge.leaving
  rw [← List.filterMap_eq_map, List.filterMap_filter]
  simp [UInt32.toNat_inj]

theorem Adjacency.isSome_weights_ofEdges (nodeCount : ℕ) (edges : List Edge) (weighted : Bool) :
    (ofEdges nodeCount edges weighted).weights.isSome = (weighted && decide (0 < nodeCount)) := by
  unfold ofEdges
  split
  · rename_i hcount
    simp [empty, hcount]
  · rename_i hcount
    cases weighted <;> simp [Nat.pos_of_ne_zero hcount]

namespace Projection

open Builder

variable {builder : Builder} {calls : List Call} {projection : Projection} {direction : Direction}
  {slot : Slot}

namespace Builder

/-- The number of added ids below one. -/
def rankOf (calls : List Call) (id : NodeId) : ℕ :=
  ((addedIds calls).filter (· < id)).card

/-- The relationships whose ends were both added, between slots, in the order of the calls. -/
def edgesOf (calls : List Call) : List Edge :=
  (calls.flatMap Call.given).filterMap fun relationship ↦
    if relationship.source ∈ addedIds calls ∧ relationship.target ∈ addedIds calls then
      some ⟨(rankOf calls relationship.source).toUInt32, (rankOf calls relationship.target).toUInt32,
        relationship.weight.getD (chosenWeight calls)⟩
    else none

theorem slotOf?_idMapOf_ofCalls (hcount : (addedIds calls).card ≤ slotLimit) (id : NodeId) :
    (idMapOf (ofCalls calls).distinctNodes).slotOf? id =
      if id ∈ addedIds calls then some (rankOf calls id).toUInt32 else none := by
  ext slot
  rw [slotOf?_idMapOf (ids_ofCalls calls ▸ hcount), Numbered, ids_ofCalls]
  split
  · rename_i hadded
    have hrank : rankOf calls id ≤ slotLimit := (Finset.card_filter_le _ _).trans hcount
    rw [Option.some_inj, ← UInt32.toNat_inj, toNat_toUInt32_of_le hrank]
    exact and_iff_right hadded
  · rename_i habsent
    simp [habsent]

theorem edges_ofCalls (hcount : (addedIds calls).card ≤ slotLimit) :
    (ofCalls calls).edges (idMapOf (ofCalls calls).distinctNodes) = edgesOf calls := by
  unfold edges edgesOf
  rw [relationships_ofCalls, defaultWeight_ofCalls]
  apply List.filterMap_congr
  intro relationship _
  rw [slotOf?_idMapOf_ofCalls hcount, slotOf?_idMapOf_ofCalls hcount]
  by_cases hsource : relationship.source ∈ addedIds calls
  · by_cases htarget : relationship.target ∈ addedIds calls <;> simp [hsource, htarget]
  · simp [hsource]

end Builder

/-- The list of a slot holds neighbours in order and, where weights are stored, their weights. -/
structure Lists (rows : Option Adjacency) (slot : Slot) (weighted : Bool)
    (entries : List (Slot × Float)) : Prop where
  neighbors?_eq : rows.bind (·.neighbors? slot) = some (entries.map Prod.fst)
  rowWeights_eq : rows.bind (·.rowWeights slot) =
    if weighted then some (entries.map Prod.snd) else none

/-- Reading a slot visits neighbours in order, with their weights where these are stored. -/
structure Visits (projection : Projection) (slot : Slot) (direction : Direction)
    (entries : List (Slot × Float)) : Prop where
  neighbors_eq :
    Graph.neighbors projection slot direction = .complete (entries.map Prod.fst)
  weightedNeighbors_eq : ∀ fallback,
    WeightedGraph.weightedNeighbors projection slot direction fallback =
      .complete (entries.map fun entry ↦
        (entry.1, if projection.hasWeights then entry.2 else fallback))

/-- A projection with nodes carries weights if any relationship was given one. -/
theorem hasWeights_of_build (hbuild : builder.build = .ok projection) :
    projection.hasWeights = (builder.isWeighted && decide (0 < projection.nodeCount)) := by
  obtain ⟨_, _, rfl⟩ := build_eq_ok_iff.mp hbuild
  unfold hasWeights mainRows assemble outgoingRows incomingRows
  cases builder.loadDirection <;> simp [Adjacency.isSome_weights_ofEdges]

/-- As soon as a slot is in range, weights are carried if any relationship was given one. -/
theorem hasWeights_of_build_of_lt (hbuild : builder.build = .ok projection)
    (hslot : slot.toNat < projection.nodeCount) : projection.hasWeights = builder.isWeighted := by
  rw [hasWeights_of_build hbuild, decide_eq_true (by omega), Bool.and_true]

theorem Addressable.lists_of_mem (hbuild : builder.build = .ok projection)
    (h : projection.Addressable) {stored : List Edge} (hstored : stored ∈ builder.listsKept)
    (hslot : slot.toNat < projection.nodeCount) :
    Lists (some (.ofEdges builder.ids.card stored builder.isWeighted)) slot projection.hasWeights
      (Edge.leaving stored slot) := by
  have hbelow : slot.toNat < builder.ids.card := nodeCount_of_build hbuild ▸ hslot
  have hlength := h.length_lt_of_mem_listsKept hbuild hstored
  have hsource := source_lt_card hstored
  constructor
  · rw [Option.bind_some, Adjacency.neighbors?_ofEdges hlength hsource hbelow,
      ← Adjacency.map_rowOf, List.map_map]
    rfl
  · rw [Option.bind_some, Adjacency.rowWeights_ofEdges hlength hsource hbelow,
      ← Adjacency.map_rowOf, List.map_map, hasWeights_of_build_of_lt hbuild hslot]
    rfl

theorem Addressable.visits (hbuild : builder.build = .ok projection)
    (h : projection.Addressable) (hserved : direction ∈ builder.loadDirection.served)
    (hslot : slot.toNat < projection.nodeCount) :
    Visits projection slot direction
      ((builder.listsRead direction).flatMap fun stored ↦ Edge.leaving stored slot) := by
  constructor
  · rw [h.neighbors_eq hbuild hserved hslot, List.map_flatMap]
    simp only [← Adjacency.map_rowOf, List.map_map]
    rfl
  · intro fallback
    rw [h.weightedNeighbors_eq hbuild hserved hslot, List.map_flatMap,
      hasWeights_of_build_of_lt hbuild hslot]
    simp only [← Adjacency.map_rowOf, List.map_map]
    rfl

theorem rows_of_build (hbuild : builder.build = .ok projection) :
    projection.outgoing = outgoingRows builder.loadDirection builder.ids.card
        (builder.edges (idMapOf builder.distinctNodes)) builder.isWeighted ∧
      projection.incoming = incomingRows builder.loadDirection builder.ids.card
        (builder.edges (idMapOf builder.distinctNodes)) builder.isWeighted := by
  obtain ⟨_, _, rfl⟩ := build_eq_ok_iff.mp hbuild
  rw [← size_idMapOf]
  exact ⟨rfl, rfl⟩

theorem listsKept_ofCalls (hcount : (addedIds calls).card ≤ slotLimit) :
    (ofCalls calls).listsKept = (chosenLoad calls).listsKept (edgesOf calls) := by
  rw [listsKept, edges_ofCalls hcount, loadDirection_ofCalls]

theorem listsRead_ofCalls (hcount : (addedIds calls).card ≤ slotLimit) (direction : Direction) :
    (ofCalls calls).listsRead direction =
      (chosenLoad calls).listsRead (edgesOf calls) direction := by
  rw [listsRead, edges_ofCalls hcount, loadDirection_ofCalls]

/--
The relationships between added nodes, in the order of the calls, are what a projection holds. The
outgoing list of a slot has the targets of those from it and the incoming list the sources of those
to it, with repetitions; a symmetric list has the other ends of all that touch the slot, and a loop
once. Stored weights stand in the places of their neighbours. In both directions a slot with both
lists is read from its outgoing list to its incoming one.
-/
theorem lists_of_relationships (hbuild : (ofCalls calls).build = .ok projection)
    (h : projection.Addressable) :
    Graph.relationshipCount projection = some (edgesOf calls).length ∧
    projection.nodeCount = (addedIds calls).card ∧
    (∀ id slot, IdMapping.slotOf? projection id = some slot ↔
      id ∈ addedIds calls ∧ rankOf calls id = slot.toNat) ∧
    ∀ slot : Slot, slot.toNat < projection.nodeCount →
      (chosenLoad calls = .outgoing ∨ chosenLoad calls = .both →
        Lists projection.outgoing slot projection.hasWeights (Edge.leaving (edgesOf calls) slot) ∧
        Visits projection slot .outgoing (Edge.leaving (edgesOf calls) slot)) ∧
      (chosenLoad calls = .incoming ∨ chosenLoad calls = .both →
        Lists projection.incoming slot projection.hasWeights (Edge.arriving (edgesOf calls) slot) ∧
        Visits projection slot .incoming (Edge.arriving (edgesOf calls) slot)) ∧
      (chosenLoad calls = .undirected →
        Lists projection.outgoing slot projection.hasWeights (Edge.touching (edgesOf calls) slot) ∧
        ∀ direction, Visits projection slot direction (Edge.touching (edgesOf calls) slot)) ∧
      (chosenLoad calls = .both →
        Visits projection slot .both
          (Edge.leaving (edgesOf calls) slot ++ Edge.arriving (edgesOf calls) slot)) := by
  have hnodes : projection.nodeCount = (addedIds calls).card := by
    rw [nodeCount_of_build hbuild, ids_ofCalls]
  have hcount : (addedIds calls).card ≤ slotLimit := hnodes ▸ h.nodeCount_le
  obtain ⟨houtgoing, hincoming⟩ := rows_of_build hbuild
  rw [loadDirection_ofCalls, edges_ofCalls hcount] at houtgoing hincoming
  refine ⟨?_, hnodes, fun id slot ↦ ?_, fun slot hslot ↦ ?_⟩
  · obtain ⟨_, _, rfl⟩ := build_eq_ok_iff.mp hbuild
    exact congrArg (fun edges ↦ some edges.length) (edges_ofCalls hcount)
  · obtain ⟨_, _, rfl⟩ := build_eq_ok_iff.mp hbuild
    rw [rankOf, ← ids_ofCalls]
    exact slotOf?_idMapOf (ids_ofCalls calls ▸ hcount)
  · have hlists {stored : List Edge}
        (hstored : stored ∈ (chosenLoad calls).listsKept (edgesOf calls)) :
        Lists (some (.ofEdges (ofCalls calls).ids.card stored (ofCalls calls).isWeighted)) slot
          projection.hasWeights (Edge.leaving stored slot) :=
      h.lists_of_mem hbuild (listsKept_ofCalls hcount ▸ hstored) hslot
    have hvisits (direction : Direction) (hserved : direction ∈ (chosenLoad calls).served) :
        Visits projection slot direction
          (((chosenLoad calls).listsRead (edgesOf calls) direction).flatMap fun stored ↦
            Edge.leaving stored slot) :=
      listsRead_ofCalls hcount direction ▸
        h.visits hbuild (loadDirection_ofCalls calls ▸ hserved) hslot
    rw [houtgoing, hincoming, ← Edge.leaving_reverse, ← Edge.leaving_flatMap_bothEnds]
    cases hload : chosenLoad calls with
    | outgoing =>
      rw [hload] at hlists hvisits
      refine ⟨fun _ ↦ ⟨hlists (by simp [LoadDirection.listsKept]), ?_⟩, by simp, by simp, by simp⟩
      simpa [LoadDirection.listsRead] using hvisits .outgoing (by decide)
    | incoming =>
      rw [hload] at hlists hvisits
      refine ⟨by simp, fun _ ↦ ⟨hlists (by simp [LoadDirection.listsKept]), ?_⟩, by simp, by simp⟩
      simpa [LoadDirection.listsRead] using hvisits .incoming (by decide)
    | both =>
      rw [hload] at hlists hvisits
      refine ⟨fun _ ↦ ⟨hlists (by simp [LoadDirection.listsKept]), ?_⟩,
        fun _ ↦ ⟨hlists (by simp [LoadDirection.listsKept]), ?_⟩, by simp, fun _ ↦ ?_⟩
      · simpa [LoadDirection.listsRead] using hvisits .outgoing (by decide)
      · simpa [LoadDirection.listsRead] using hvisits .incoming (by decide)
      · simpa [LoadDirection.listsRead] using hvisits .both (by decide)
    | undirected =>
      rw [hload] at hlists hvisits
      refine ⟨by simp, by simp, fun _ ↦ ⟨hlists (by simp [LoadDirection.listsKept]),
        fun direction ↦ ?_⟩, by simp⟩
      have hserved : direction ∈ LoadDirection.undirected.served := by cases direction <;> decide
      simpa [LoadDirection.listsRead] using hvisits direction hserved

/-- Parallel relationships of both orientations, a loop and one with an end that is not a node. -/
def mixedRelationships : List Call :=
  [.load .undirected, .weightedRelationship ⟨30⟩ ⟨10⟩ 0.5, .nodes [⟨30⟩, ⟨10⟩, ⟨20⟩],
    .relationship ⟨10⟩ ⟨99⟩, .relationships [(⟨20⟩, ⟨20⟩), (⟨10⟩, ⟨30⟩)], .defaultWeight 2.0]

theorem lists_of_relationships_of_mixedRelationships :
    ∃ projection, (ofCalls mixedRelationships).build = .ok projection ∧ projection.Addressable ∧
      Graph.relationshipCount projection = some 3 ∧
      Visits projection 0 .incoming [(2, 0.5), (2, 2.0)] ∧
      Visits projection 1 .outgoing [(1, 2.0)] := by
  have hcard : (ofCalls mixedRelationships).ids.card = 3 := by decide
  have hkeys : (ofCalls mixedRelationships).columnTypes.keys.length = 0 := by decide
  obtain ⟨projection, hbuild, haddressable⟩ :=
    (ofCalls mixedRelationships).exists_addressable_of_small (by decide) (by decide) (by decide)
      (by rw [hcard, hkeys]; decide)
  obtain ⟨hrelationships, hnodes, _, hlists⟩ := lists_of_relationships hbuild haddressable
  have hslot (slot : Slot) (h : slot.toNat < 3) : slot.toNat < projection.nodeCount := by
    rwa [hnodes, ← ids_ofCalls, hcard]
  refine ⟨projection, hbuild, haddressable, hrelationships, ?_, ?_⟩
  · exact ((hlists 0 (hslot 0 (by decide))).2.2.1 rfl).2 .incoming
  · exact ((hlists 1 (hslot 1 (by decide))).2.2.1 rfl).2 .outgoing

end Projection

end WeakComponents
