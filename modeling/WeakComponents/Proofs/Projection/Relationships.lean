import WeakComponents.Proofs.Projection.Numbering
import WeakComponents.Proofs.Projection.Rows

/-!
# Relationships of a projection

A projection keeps the relationships whose ends were both added, and its rows list them from the
sides that were loaded. Whichever of the directions that it serves a projection is read in, the
rows hold every relationship from one end at least, and nothing else.
-/

namespace WeakComponents

namespace Projection.Builder

variable {builder : Builder} {edge : Edge}

/-- The weight that a relationship counts with: one if no relationship was given a weight. -/
def storedWeight (builder : Builder) (relationship : Relationship) : Float :=
  if builder.isWeighted then relationship.weight.getD builder.defaultWeight else 1.0

/-- A relationship above the threshold, if there is one, leads from one slot to the other. -/
def Joins (builder : Builder) (threshold : Option Float) (a b : Slot) : Prop :=
  ∃ relationship ∈ builder.relationships,
    builder.Numbered relationship.source a ∧ builder.Numbered relationship.target b ∧
      ∀ least ∈ threshold, least < builder.storedWeight relationship

theorem Joins.lt_card {threshold : Option Float} {a b : Slot} (h : builder.Joins threshold a b) :
    a.toNat < builder.ids.card ∧ b.toNat < builder.ids.card := by
  obtain ⟨relationship, _, ha, hb, _⟩ := h
  exact ⟨ha.lt_card, hb.lt_card⟩

theorem mem_edges_iff_slotOf? :
    edge ∈ builder.edges (idMapOf builder.distinctNodes) ↔
      ∃ relationship ∈ builder.relationships,
        (idMapOf builder.distinctNodes).slotOf? relationship.source = some edge.source ∧
          (idMapOf builder.distinctNodes).slotOf? relationship.target = some edge.target ∧
            relationship.weight.getD builder.defaultWeight = edge.weight := by
  unfold edges
  rw [List.mem_filterMap]
  constructor
  · rintro ⟨relationship, hmem, hedge⟩
    refine ⟨relationship, Array.mem_toList_iff.mp hmem, ?_⟩
    split at hedge
    · rename_i source target hsource htarget
      obtain rfl := Option.some.inj hedge
      exact ⟨hsource, htarget, rfl⟩
    · exact absurd hedge (by simp)
  · rintro ⟨relationship, hmem, hsource, htarget, hweight⟩
    refine ⟨relationship, Array.mem_toList_iff.mpr hmem, ?_⟩
    rw [hsource, htarget, hweight]

theorem mem_edges (hcount : builder.ids.card ≤ slotLimit) :
    edge ∈ builder.edges (idMapOf builder.distinctNodes) ↔
      ∃ relationship ∈ builder.relationships,
        builder.Numbered relationship.source edge.source ∧
          builder.Numbered relationship.target edge.target ∧
            relationship.weight.getD builder.defaultWeight = edge.weight := by
  simp only [← slotOf?_idMapOf hcount]
  exact mem_edges_iff_slotOf?

theorem joins_iff (hcount : builder.ids.card ≤ slotLimit) {threshold : Option Float} {a b : Slot} :
    builder.Joins threshold a b ↔
      ∃ edge ∈ builder.edges (idMapOf builder.distinctNodes), edge.source = a ∧ edge.target = b ∧
        ∀ least ∈ threshold, least < if builder.isWeighted then edge.weight else 1.0 := by
  constructor
  · rintro ⟨relationship, hmem, ha, hb, habove⟩
    refine ⟨⟨a, b, relationship.weight.getD builder.defaultWeight⟩, ?_, rfl, rfl, habove⟩
    exact (mem_edges hcount).mpr ⟨relationship, hmem, ha, hb, rfl⟩
  · rintro ⟨edge, hedge, rfl, rfl, habove⟩
    obtain ⟨relationship, hmem, ha, hb, hweight⟩ := (mem_edges hcount).mp hedge
    refine ⟨relationship, hmem, ha, hb, ?_⟩
    rw [storedWeight, hweight]
    exact habove

theorem lt_card_of_mem_edges (h : edge ∈ builder.edges (idMapOf builder.distinctNodes)) :
    edge.source.toNat < builder.ids.card ∧ edge.target.toNat < builder.ids.card := by
  obtain ⟨relationship, _, hsource, htarget, _⟩ := mem_edges_iff_slotOf?.mp h
  exact ⟨lt_card_of_slotOf?_idMapOf hsource, lt_card_of_slotOf?_idMapOf htarget⟩

end Projection.Builder

namespace LoadDirection

variable {load : LoadDirection} {direction : Direction} {edges stored : List Edge} {edge : Edge}

/-- The directions in which the rows of a load direction can be read. -/
def served : LoadDirection → List Direction
  | outgoing => [.outgoing]
  | incoming => [.incoming]
  | both | undirected => [.outgoing, .incoming, .both]

/-- The relationships in the rows that a load direction keeps, list by list. -/
def listsKept (load : LoadDirection) (edges : List Edge) : List (List Edge) :=
  match load with
  | .outgoing => [edges]
  | .incoming => [edges.map Edge.reverse]
  | .both => [edges, edges.map Edge.reverse]
  | .undirected => [edges.flatMap Edge.bothEnds]

/-- The relationships in the rows that are read in a direction, list by list. -/
def listsRead (load : LoadDirection) (edges : List Edge) (direction : Direction) :
    List (List Edge) :=
  match load, direction with
  | .undirected, _ => [edges.flatMap Edge.bothEnds]
  | .outgoing, .outgoing | .both, .outgoing => [edges]
  | .incoming, .incoming | .both, .incoming => [edges.map Edge.reverse]
  | .both, .both => [edges, edges.map Edge.reverse]
  | _, _ => []

theorem mem_bothEnds {other : Edge} :
    edge ∈ other.bothEnds ↔ edge = other ∨ edge = other.reverse := by
  obtain ⟨source, target, weight⟩ := other
  unfold Edge.bothEnds Edge.reverse
  split
  · rename_i hloop
    dsimp only at hloop
    subst hloop
    simp
  · simp

theorem mem_listsKept_of_mem_listsRead (h : stored ∈ load.listsRead edges direction) :
    stored ∈ load.listsKept edges := by
  cases load <;> cases direction <;>
    simp [LoadDirection.listsRead, LoadDirection.listsKept] at h ⊢ <;> simp [h]

/-- A relationship that is stored is one of those given, seen from one of its ends. -/
theorem exists_of_mem_listsKept (hstored : stored ∈ load.listsKept edges) (hedge : edge ∈ stored) :
    ∃ given ∈ edges, edge = given ∨ edge = given.reverse := by
  have hplain (h : edge ∈ edges) : ∃ given ∈ edges, edge = given ∨ edge = given.reverse :=
    ⟨edge, h, .inl rfl⟩
  have hreverse (h : edge ∈ edges.map Edge.reverse) :
      ∃ given ∈ edges, edge = given ∨ edge = given.reverse := by
    obtain ⟨given, hgiven, rfl⟩ := List.mem_map.mp h
    exact ⟨given, hgiven, .inr rfl⟩
  cases load with
  | outgoing =>
    obtain rfl := List.mem_singleton.mp hstored
    exact hplain hedge
  | incoming =>
    obtain rfl := List.mem_singleton.mp hstored
    exact hreverse hedge
  | both =>
    rcases List.mem_pair.mp hstored with rfl | rfl
    · exact hplain hedge
    · exact hreverse hedge
  | undirected =>
    obtain rfl := List.mem_singleton.mp hstored
    obtain ⟨given, hgiven, hend⟩ := List.mem_flatMap.mp hedge
    exact ⟨given, hgiven, mem_bothEnds.mp hend⟩

/-- Every relationship given is stored from one of its ends. -/
theorem exists_mem_listsRead (hserved : direction ∈ load.served) (hedge : edge ∈ edges) :
    ∃ stored ∈ load.listsRead edges direction, edge ∈ stored ∨ edge.reverse ∈ stored := by
  have hreverse : edge.reverse ∈ edges.map Edge.reverse := List.mem_map_of_mem hedge
  have hboth : edge ∈ edges.flatMap Edge.bothEnds :=
    List.mem_flatMap.mpr ⟨edge, hedge, mem_bothEnds.mpr (.inl rfl)⟩
  cases load <;> cases direction <;> simp [served] at hserved <;>
    simp [LoadDirection.listsRead, hedge, hreverse, hboth]

/-- Mirroring repeats every relationship but the loops. -/
theorem length_flatMap_bothEnds_add_countP (edges : List Edge) :
    (edges.flatMap Edge.bothEnds).length +
      edges.countP (fun edge ↦ decide (edge.source = edge.target)) = 2 * edges.length := by
  induction edges with
  | nil => rfl
  | cons edge rest ih =>
    have hends : edge.bothEnds.length + (if edge.source = edge.target then 1 else 0) = 2 := by
      unfold Edge.bothEnds
      split <;> rfl
    rw [List.flatMap_cons, List.length_append, List.countP_cons, List.length_cons]
    simp only [decide_eq_true_eq]
    omega

theorem length_flatMap_bothEnds_le (edges : List Edge) :
    (edges.flatMap Edge.bothEnds).length ≤ 2 * edges.length :=
  length_flatMap_bothEnds_add_countP edges ▸ Nat.le_add_right _ _

theorem length_le_of_mem_listsKept (hstored : stored ∈ load.listsKept edges) :
    stored.length ≤ 2 * edges.length := by
  cases load with
  | outgoing =>
    obtain rfl := List.mem_singleton.mp hstored
    omega
  | incoming =>
    obtain rfl := List.mem_singleton.mp hstored
    rw [List.length_map]
    omega
  | both =>
    rcases List.mem_pair.mp hstored with rfl | rfl
    · omega
    · rw [List.length_map]
      omega
  | undirected =>
    obtain rfl := List.mem_singleton.mp hstored
    exact length_flatMap_bothEnds_le edges

/-- Each list that is kept is in the rows of one side. -/
theorem rows_of_mem_listsKept (hstored : stored ∈ load.listsKept edges) (nodeCount : ℕ)
    (weighted : Bool) :
    Projection.Builder.outgoingRows load nodeCount edges weighted =
        some (.ofEdges nodeCount stored weighted) ∨
      Projection.Builder.incomingRows load nodeCount edges weighted =
        some (.ofEdges nodeCount stored weighted) := by
  cases load with
  | outgoing =>
    obtain rfl := List.mem_singleton.mp hstored
    exact .inl rfl
  | incoming =>
    obtain rfl := List.mem_singleton.mp hstored
    exact .inr rfl
  | both =>
    rcases List.mem_pair.mp hstored with rfl | rfl
    · exact .inl rfl
    · exact .inr rfl
  | undirected =>
    obtain rfl := List.mem_singleton.mp hstored
    exact .inl rfl

/-- The rows of either side hold one of the lists that are kept. -/
theorem exists_of_mem_rows {nodeCount : ℕ} {weighted : Bool} {rows : Adjacency}
    (h : Projection.Builder.outgoingRows load nodeCount edges weighted = some rows ∨
      Projection.Builder.incomingRows load nodeCount edges weighted = some rows) :
    ∃ stored ∈ load.listsKept edges, rows = .ofEdges nodeCount stored weighted := by
  cases load <;>
    simp [Projection.Builder.outgoingRows, Projection.Builder.incomingRows, listsKept] at h ⊢ <;>
    grind

end LoadDirection

/-! ## Reading a projection -/

namespace Projection

variable {builder : Builder} {projection : Projection} {direction : Direction} {slot : Slot}

/-- There are no more nodes than slots, and no list has more entries than 32-bit offsets tell
apart. -/
structure Addressable (projection : Projection) : Prop where
  nodeCount_le : projection.nodeCount ≤ slotLimit
  outgoing_lt : ∀ rows ∈ projection.outgoing, rows.targets.size < UInt32.size
  incoming_lt : ∀ rows ∈ projection.incoming, rows.targets.size < UInt32.size

/-- The relationships of a builder in the lists that are kept. -/
def Builder.listsKept (builder : Builder) : List (List Edge) :=
  builder.loadDirection.listsKept (builder.edges (Builder.idMapOf builder.distinctNodes))

/-- The relationships of a builder in the lists that are read in a direction. -/
def Builder.listsRead (builder : Builder) (direction : Direction) : List (List Edge) :=
  builder.loadDirection.listsRead (builder.edges (Builder.idMapOf builder.distinctNodes)) direction

theorem Builder.lt_card_of_mem_listsKept {stored : List Edge}
    (hstored : stored ∈ builder.listsKept) {edge : Edge} (hedge : edge ∈ stored) :
    edge.source.toNat < builder.ids.card ∧ edge.target.toNat < builder.ids.card := by
  obtain ⟨given, hgiven, hend⟩ := LoadDirection.exists_of_mem_listsKept hstored hedge
  have hbelow := Builder.lt_card_of_mem_edges hgiven
  rcases hend with rfl | rfl
  · exact hbelow
  · exact hbelow.symm

/-- The relationships of a list that is kept start at nodes. -/
theorem Builder.source_lt_card {stored : List Edge} (hstored : stored ∈ builder.listsKept) :
    ∀ edge ∈ stored, edge.source.toNat < builder.ids.card := by
  intro edge hedge
  exact (Builder.lt_card_of_mem_listsKept hstored hedge).1

/-- The rows of a list that is kept have a neighbour for each relationship in it. -/
theorem Builder.size_targets_of_mem_listsKept {stored : List Edge}
    (hstored : stored ∈ builder.listsKept) :
    (Adjacency.ofEdges builder.ids.card stored builder.isWeighted).targets.size = stored.length :=
  Adjacency.size_targets_ofEdges (Builder.source_lt_card hstored) _

theorem lists_assemble (hserved : direction ∈ builder.loadDirection.served) :
    (builder.assemble builder.distinctNodes).lists direction =
      .ok ((builder.listsRead direction).map fun stored ↦
        .ofEdges builder.ids.card stored builder.isWeighted) := by
  unfold lists Builder.assemble Builder.listsRead Builder.outgoingRows Builder.incomingRows
  rw [← Builder.size_idMapOf]
  cases hload : builder.loadDirection <;> cases direction <;>
    simp [hload, LoadDirection.served] at hserved <;> simp [LoadDirection.listsRead]

theorem nodeCount_of_build (hbuild : builder.build = .ok projection) :
    projection.nodeCount = builder.ids.card := by
  obtain ⟨_, _, rfl⟩ := Builder.build_eq_ok_iff.mp hbuild
  exact Builder.size_idMapOf builder

theorem Builder.length_edges_le (builder : Builder) (idMap : IdMap) :
    (builder.edges idMap).length ≤ builder.relationships.size := by
  rw [← Array.length_toList]
  exact List.length_filterMap_le _ _

/-- The rows that are built hold one of the lists that are kept. -/
theorem exists_listsKept_of_rows (hbuild : builder.build = .ok projection) {rows : Adjacency}
    (hrows : projection.outgoing = some rows ∨ projection.incoming = some rows) :
    ∃ stored ∈ builder.listsKept,
      rows = .ofEdges builder.ids.card stored builder.isWeighted := by
  obtain ⟨_, _, rfl⟩ := Builder.build_eq_ok_iff.mp hbuild
  rw [← Builder.size_idMapOf]
  exact LoadDirection.exists_of_mem_rows hrows

/-- It suffices to count the nodes and the relationships of every list. -/
theorem addressable_of_build (hbuild : builder.build = .ok projection)
    (hcount : builder.ids.card ≤ slotLimit)
    (hlength : ∀ stored ∈ builder.listsKept, stored.length < UInt32.size) :
    projection.Addressable := by
  have hrows {rows : Adjacency} (hrows : projection.outgoing = some rows ∨
      projection.incoming = some rows) : rows.targets.size < UInt32.size := by
    obtain ⟨stored, hstored, rfl⟩ := exists_listsKept_of_rows hbuild hrows
    rw [Builder.size_targets_of_mem_listsKept hstored]
    exact hlength stored hstored
  refine ⟨nodeCount_of_build hbuild ▸ hcount, fun rows h ↦ hrows (.inl h), fun rows h ↦ ?_⟩
  exact hrows (.inr h)

section

variable (hbuild : builder.build = .ok projection) (h : projection.Addressable)

include hbuild h

theorem Addressable.card_le : builder.ids.card ≤ slotLimit :=
  nodeCount_of_build hbuild ▸ h.nodeCount_le

theorem Addressable.length_lt_of_mem_listsKept {stored : List Edge}
    (hstored : stored ∈ builder.listsKept) : stored.length < UInt32.size := by
  rw [← Builder.size_targets_of_mem_listsKept hstored, ← Builder.size_idMapOf]
  obtain ⟨_, _, rfl⟩ := Builder.build_eq_ok_iff.mp hbuild
  rcases LoadDirection.rows_of_mem_listsKept hstored _ builder.isWeighted with hrows | hrows
  · exact h.outgoing_lt _ hrows
  · exact h.incoming_lt _ hrows

variable (hserved : direction ∈ builder.loadDirection.served)
  (hslot : slot.toNat < projection.nodeCount)

include hserved hslot

theorem Addressable.read_eq {α : Type} (row : Adjacency → List α) :
    projection.read slot direction row =
      .complete ((builder.listsRead direction).flatMap fun stored ↦
        row (.ofEdges builder.ids.card stored builder.isWeighted)) := by
  obtain ⟨_, _, rfl⟩ := Builder.build_eq_ok_iff.mp hbuild
  rw [read, rowsOf, if_pos hslot, lists_assemble hserved]
  dsimp only
  rw [List.flatMap_map]

/-- Reading a node delivers the targets of its relationships, list by list. -/
theorem Addressable.neighbors_eq :
    Graph.neighbors projection slot direction =
      .complete ((builder.listsRead direction).flatMap fun stored ↦
        (Adjacency.rowOf stored slot.toNat).map Edge.target) := by
  have hbelow : slot.toNat < builder.ids.card := nodeCount_of_build hbuild ▸ hslot
  refine (h.read_eq hbuild hserved hslot fun rows ↦ rows.neighbors slot).trans ?_
  congr 1
  apply List.flatMap_congr
  intro stored hstored
  have hkept := LoadDirection.mem_listsKept_of_mem_listsRead hstored
  rw [Adjacency.neighbors, Adjacency.neighbors?_ofEdges (h.length_lt_of_mem_listsKept hbuild hkept)
    (Builder.source_lt_card hkept) hbelow]
  rfl

theorem Addressable.weightedNeighbors_eq (fallback : Float) :
    WeightedGraph.weightedNeighbors projection slot direction fallback =
      .complete ((builder.listsRead direction).flatMap fun stored ↦
        (Adjacency.rowOf stored slot.toNat).map fun edge ↦
          (edge.target, if builder.isWeighted then edge.weight else fallback)) := by
  have hbelow : slot.toNat < builder.ids.card := nodeCount_of_build hbuild ▸ hslot
  refine (h.read_eq hbuild hserved hslot fun rows ↦ rows.weightedNeighbors slot fallback).trans ?_
  congr 1
  apply List.flatMap_congr
  intro stored hstored
  have hkept := LoadDirection.mem_listsKept_of_mem_listsRead hstored
  exact Adjacency.weightedNeighbors_ofEdges (h.length_lt_of_mem_listsKept hbuild hkept)
    (Builder.source_lt_card hkept) hbelow _ fallback

end

end Projection

end WeakComponents
