import WeakComponents.Components.Run
import WeakComponents.Proofs.Projection.Relationships

/-!
# Forgetting weights

A projection without the weights of its relationships takes no more memory than before, and whatever
does not ask for weights is answered as before.
-/

namespace WeakComponents

open Components (Config followedNeighbors runUnweighted runWeighted)

namespace Adjacency

/-- Rows without their weights. -/
def withoutWeights (rows : Adjacency) : Adjacency :=
  { rows with weights := none }

theorem withoutWeights_ofEdges (nodeCount : ℕ) (edges : List Edge) (weighted : Bool) :
    (ofEdges nodeCount edges weighted).withoutWeights = ofEdges nodeCount edges false := by
  unfold ofEdges
  split <;> rfl

theorem memorySize_withoutWeights_le (rows : Adjacency) :
    rows.withoutWeights.memorySize ≤ rows.memorySize :=
  Nat.le_add_right _ _

end Adjacency

namespace Projection

variable {projection : Projection} {slot : Slot} {direction : Direction}

/-- A projection without the weights of its relationships. -/
def withoutWeights (projection : Projection) : Projection :=
  { projection with
    outgoing := projection.outgoing.map Adjacency.withoutWeights
    incoming := projection.incoming.map Adjacency.withoutWeights }

theorem memorySize_withoutWeights_le (projection : Projection) :
    projection.withoutWeights.memorySize ≤ projection.memorySize := by
  have hrows (rows : Option Adjacency) :
      (rows.map Adjacency.withoutWeights).elim 0 Adjacency.memorySize ≤
        rows.elim 0 Adjacency.memorySize := by
    cases rows with
    | none => exact Nat.le_refl 0
    | some rows => exact rows.memorySize_withoutWeights_le
  have houtgoing := hrows projection.outgoing
  have hincoming := hrows projection.incoming
  unfold memorySize withoutWeights
  dsimp only
  omega

theorem Addressable.withoutWeights (h : projection.Addressable) :
    projection.withoutWeights.Addressable := by
  refine ⟨h.nodeCount_le, fun rows hrows ↦ ?_, fun rows hrows ↦ ?_⟩
  · obtain ⟨stored, hstored, rfl⟩ := Option.map_eq_some_iff.mp hrows
    exact h.outgoing_lt stored hstored
  · obtain ⟨stored, hstored, rfl⟩ := Option.map_eq_some_iff.mp hrows
    exact h.incoming_lt stored hstored

theorem rowsOf_withoutWeights (projection : Projection) (node : Slot) (direction : Direction) :
    projection.withoutWeights.rowsOf node direction =
      (projection.rowsOf node direction).map (List.map Adjacency.withoutWeights) := by
  obtain ⟨_, _, load, outgoing, incoming, _, _, _⟩ := projection
  unfold rowsOf withoutWeights lists
  split
  · cases load <;> cases direction <;> cases outgoing <;> cases incoming <;> rfl
  · rfl

/-- What is read from rows without looking at weights is read the same without weights. -/
theorem read_withoutWeights {α : Type} {row : Adjacency → List α}
    (hrow : ∀ rows : Adjacency, row rows.withoutWeights = row rows) (projection : Projection)
    (node : Slot) (direction : Direction) :
    projection.withoutWeights.read node direction row = projection.read node direction row := by
  unfold read
  rw [rowsOf_withoutWeights]
  cases projection.rowsOf node direction with
  | error fault => rfl
  | ok rows =>
    dsimp only [Except.map]
    rw [List.flatMap_map]
    simp only [hrow]

/-- A run depends on nothing but the readings that it follows, the nodes and the properties. -/
theorem runWeighted_withoutWeights (threads : Threads) {config : Config}
    (hfollowed : followedNeighbors projection config =
      followedNeighbors projection.withoutWeights config) :
    runWeighted threads projection config =
      runWeighted threads projection.withoutWeights config := by
  unfold runWeighted
  rw [hfollowed]
  rfl

/-- Two projections answer alike whatever does not ask for weights. -/
structure SameUnweighted (projection other : Projection) : Prop where
  nodeCount_eq : Graph.nodeCount projection = Graph.nodeCount other
  relationshipCount_eq : Graph.relationshipCount projection = Graph.relationshipCount other
  edgeCount_eq : projection.edgeCount = other.edgeCount
  loadDirection_eq : projection.loadDirection = other.loadDirection
  outNeighbors?_eq : projection.outNeighbors? = other.outNeighbors?
  inNeighbors?_eq : projection.inNeighbors? = other.inNeighbors?
  neighbors_eq : Graph.neighbors projection = Graph.neighbors other
  degree_eq : Graph.degree projection = Graph.degree other
  tryExists_eq : Graph.tryExists projection = Graph.tryExists other
  commonNeighbors_eq : Graph.commonNeighbors projection = Graph.commonNeighbors other
  idMap_eq : projection.idMap = other.idMap
  columns_eq : projection.columns = other.columns
  schema_eq : projection.schema = other.schema
  runUnweighted_eq : ∀ threads, runUnweighted threads projection = runUnweighted threads other
  runWeighted_eq : ∀ threads config, config.threshold = none →
    runWeighted threads projection config = runWeighted threads other config

theorem sameUnweighted_withoutWeights (projection : Projection) :
    projection.SameUnweighted projection.withoutWeights := by
  have hneighbors : Graph.neighbors projection = Graph.neighbors projection.withoutWeights := by
    funext node direction
    exact (read_withoutWeights (fun _ ↦ rfl) projection node direction).symm
  have hdegree : Graph.degree projection = Graph.degree projection.withoutWeights := by
    funext node direction
    change Except.ok (projection.degree node direction) = .ok (degree _ node direction)
    unfold degree
    rw [rowsOf_withoutWeights]
    cases projection.rowsOf node direction with
    | error fault => rfl
    | ok rows =>
      dsimp only [Except.map]
      rw [List.foldl_map]
      rfl
  have hexists : Graph.tryExists projection = Graph.tryExists projection.withoutWeights := by
    funext source target direction
    change (tryExists projection source target direction).mapError _ =
      (tryExists _ source target direction).mapError _
    unfold tryExists
    rw [rowsOf_withoutWeights]
    cases projection.rowsOf source direction with
    | error fault => rfl
    | ok rows =>
      dsimp only [Except.map]
      rw [List.any_map]
      rfl
  have houtNeighbors : projection.outNeighbors? = projection.withoutWeights.outNeighbors? := by
    funext slot
    unfold outNeighbors? withoutWeights
    cases projection.outgoing <;> rfl
  exact {
    nodeCount_eq := rfl
    relationshipCount_eq := rfl
    edgeCount_eq := by
      unfold edgeCount mainRows withoutWeights
      cases projection.outgoing <;> cases projection.incoming <;> rfl
    loadDirection_eq := rfl
    outNeighbors?_eq := houtNeighbors
    inNeighbors?_eq := by
      funext slot
      unfold inNeighbors?
      rw [houtNeighbors]
      unfold withoutWeights
      cases projection.loadDirection <;> cases projection.incoming <;> rfl
    neighbors_eq := hneighbors
    degree_eq := hdegree
    tryExists_eq := hexists
    commonNeighbors_eq := by
      funext a b direction
      unfold Graph.commonNeighbors Graph.exists?
      rw [hneighbors, hdegree, hexists]
    idMap_eq := rfl
    columns_eq := rfl
    schema_eq := rfl
    runUnweighted_eq := fun threads ↦ by
      funext config
      unfold runUnweighted
      rw [hneighbors]
      rfl
    runWeighted_eq := fun threads config hthreshold ↦ by
      apply runWeighted_withoutWeights
      funext node
      unfold followedNeighbors
      rw [hthreshold, hneighbors] }

end Projection

end WeakComponents
