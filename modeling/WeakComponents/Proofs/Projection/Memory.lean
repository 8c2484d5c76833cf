import Mathlib.Algebra.GroupWithZero.Nat
import Mathlib.Algebra.Order.BigOperators.Group.List
import WeakComponents.Proofs.Projection.Columns
import WeakComponents.Proofs.Projection.Relationships

/-!
# The memory of a projection

The memory that a projection counts for itself depends on nothing but the numbers of its nodes,
its properties and the relationships in its rows.
-/

namespace WeakComponents.Projection.Builder

variable {builder : Builder}

theorem foldl_memorySize_columns (builder : Builder) (idMap : IdMap) :
    (builder.columns idMap).values.foldl (fun total column ↦ total + 16 * column.size) 0 =
      16 * idMap.size * builder.columnTypes.keys.length := by
  have hfold (entries : List (String × NumberType)) (total : ℕ) :
      (entries.map fun entry ↦ builder.column idMap entry.1 entry.2).foldl
        (fun total column ↦ total + 16 * column.size) total =
          total + 16 * idMap.size * entries.length := by
    induction entries generalizing total with
    | nil => simp
    | cons entry rest ih =>
      rw [List.map_cons, List.foldl_cons, ih, size_column, List.length_cons, Nat.mul_succ]
      omega
  have hvalues : (builder.columns idMap).values =
      builder.columnTypes.entries.map fun entry ↦ builder.column idMap entry.1 entry.2 := by
    rw [columns, Table.values, Table.mapEntries, List.map_map]
    rfl
  rw [hvalues, hfold, Nat.zero_add, Table.keys, List.length_map]

/-- What is counted over the rows of both sides is counted over the lists that are kept. -/
theorem sum_rows (builder : Builder) (count : Adjacency → ℕ) :
    (outgoingRows builder.loadDirection builder.ids.card
        (builder.edges (idMapOf builder.distinctNodes)) builder.isWeighted).elim 0 count +
      (incomingRows builder.loadDirection builder.ids.card
        (builder.edges (idMapOf builder.distinctNodes)) builder.isWeighted).elim 0 count =
      (builder.listsKept.map fun stored ↦
        count (.ofEdges builder.ids.card stored builder.isWeighted)).sum := by
  unfold listsKept outgoingRows incomingRows LoadDirection.listsKept
  cases builder.loadDirection <;> simp

theorem memorySize_rows (builder : Builder) :
    (outgoingRows builder.loadDirection builder.ids.card
        (builder.edges (idMapOf builder.distinctNodes)) builder.isWeighted).elim 0
        Adjacency.memorySize +
      (incomingRows builder.loadDirection builder.ids.card
        (builder.edges (idMapOf builder.distinctNodes)) builder.isWeighted).elim 0
        Adjacency.memorySize =
      (builder.listsKept.map fun stored ↦ 4 * (builder.ids.card + 1) +
        Adjacency.entryCost builder.isWeighted * stored.length).sum := by
  rw [sum_rows]
  congr 1
  apply List.map_congr_left
  intro stored hstored
  exact Adjacency.memorySize_ofEdges (source_lt_card hstored) builder.isWeighted

/-- The memory of the rows, the ids and the columns of what a builder was told. -/
theorem memorySize_assemble (builder : Builder) :
    (builder.assemble builder.distinctNodes).memorySize =
      (builder.listsKept.map fun stored ↦ 4 * (builder.ids.card + 1) +
        Adjacency.entryCost builder.isWeighted * stored.length).sum +
      8 * builder.ids.card + 16 * builder.ids.card * builder.columnTypes.keys.length := by
  have hids : (idMapOf builder.distinctNodes).listMemorySize = 8 * builder.ids.card := by
    rw [idMapOf, IdMap.listMemorySize_compact_ofList (pairwise_distinctNodes builder),
      length_distinctNodes]
  rw [← memorySize_rows, ← hids]
  unfold memorySize assemble
  dsimp only
  rw [foldl_memorySize_columns, size_idMapOf]

/-- The id map of a projection has no hash index whose memory would count. -/
theorem memorySize_idMap_of_build {projection : Projection}
    (hbuild : builder.build = .ok projection) (capacity : Std.HashMap NodeId Slot → ℕ) :
    projection.idMap.memorySize capacity = projection.idMap.listMemorySize := by
  obtain ⟨_, _, rfl⟩ := build_eq_ok_iff.mp hbuild
  apply IdMap.memorySize_of_isCompacted
  change (idMapOf builder.distinctNodes).isCompacted = true
  rw [idMapOf, IdMap.compact_ofList (pairwise_distinctNodes builder)]
  rfl

theorem length_le_of_mem_listsKept {stored : List Edge} (hstored : stored ∈ builder.listsKept) :
    stored.length ≤ 2 * builder.relationships.size := by
  have hlist := LoadDirection.length_le_of_mem_listsKept hstored
  have hedges := length_edges_le builder (idMapOf builder.distinctNodes)
  omega

theorem length_listsKept_le (builder : Builder) : builder.listsKept.length ≤ 2 := by
  unfold listsKept LoadDirection.listsKept
  split <;> simp

/-- An input that is small enough for the limits builds, and its lists can be addressed. -/
theorem exists_addressable_of_small (builder : Builder) (hcount : builder.ids.card ≤ slotLimit)
    (hnodes : builder.ids.card ≤ builder.maxNodes.toNat)
    (hlength : 2 * builder.relationships.size < UInt32.size)
    (hmemory : 2 * (4 * (builder.ids.card + 1) + 12 * (2 * builder.relationships.size)) +
      8 * builder.ids.card + 16 * builder.ids.card * builder.columnTypes.keys.length ≤
        builder.maxMemory.toNat) :
    ∃ projection, builder.build = .ok projection ∧ projection.Addressable := by
  let bound := 4 * (builder.ids.card + 1) + 12 * (2 * builder.relationships.size)
  have hlists : (builder.listsKept.map fun stored ↦ 4 * (builder.ids.card + 1) +
      Adjacency.entryCost builder.isWeighted * stored.length).sum ≤ 2 * bound := by
    calc
      _ ≤ builder.listsKept.length * bound := by
        rw [← @List.length_map _ _ builder.listsKept]
        apply List.sum_le_card_nsmul
        intro bytes hbytes
        obtain ⟨stored, hstored, rfl⟩ := List.mem_map.mp hbytes
        exact Nat.add_le_add_left (Nat.mul_le_mul (Adjacency.entryCost_le _)
          (length_le_of_mem_listsKept hstored)) _
      _ ≤ 2 * bound := Nat.mul_le_mul_right _ (length_listsKept_le builder)
  have hbuild : builder.build = .ok (builder.assemble builder.distinctNodes) := by
    refine build_eq_ok_iff.mpr ⟨hnodes, ?_, rfl⟩
    rw [memorySize_assemble]
    omega
  refine ⟨_, hbuild, addressable_of_build hbuild hcount fun stored hstored ↦ ?_⟩
  calc
    stored.length ≤ 2 * builder.relationships.size := length_le_of_mem_listsKept hstored
    _ < UInt32.size := hlength

end WeakComponents.Projection.Builder
