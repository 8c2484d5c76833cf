import Mathlib.Algebra.BigOperators.Group.List.Basic
import WeakComponents.Proofs.Projection.Readable

/-!
# Stored neighbours

Every relationship of a list that is kept has a place in exactly one row of it, so that the rows of
a projection together are as long as its lists. What a projection gives as its number of neighbours
is read off one list: it is the length of all rows unless two lists are kept.
-/

namespace WeakComponents

namespace Adjacency

variable {edges : List Edge} {nodeCount : ℕ}

/-- The lengths of the rows of all nodes that have a slot, added up. -/
def rowTotal (rows : Adjacency) (nodeCount : ℕ) : ℕ :=
  ((slotsBelow (min nodeCount UInt32.size)).map fun slot ↦ (rows.neighbors slot).length).sum

/-- Rows follow each other without a gap. -/
theorem sum_length_rowOf (edges : List Edge) (count : ℕ) :
    ((List.range count).map fun index ↦ (rowOf edges index).length).sum =
      countBelow edges count := by
  induction count with
  | zero => simp
  | succ count ih =>
    rw [List.range_succ, List.map_append, List.sum_append, ih, List.map_singleton,
      List.sum_singleton, countBelow_succ]

theorem countBelow_eq_length (hsource : ∀ edge ∈ edges, edge.source.toNat < nodeCount) :
    countBelow edges nodeCount = edges.length := by
  apply List.countP_eq_length.mpr
  intro edge hedge
  exact decide_eq_true (hsource edge hedge)

theorem rowTotal_ofEdges (hlength : edges.length < UInt32.size)
    (hsource : ∀ edge ∈ edges, edge.source.toNat < nodeCount) (weighted : Bool) :
    (ofEdges nodeCount edges weighted).rowTotal nodeCount = edges.length := by
  have hrow : ∀ index ∈ List.range (min nodeCount UInt32.size),
      ((ofEdges nodeCount edges weighted).neighbors index.toUInt32).length =
        (rowOf edges index).length := by
    intro index hindex
    obtain ⟨hbelow, hword⟩ := Nat.lt_min.mp (List.mem_range.mp hindex)
    have hslot : index.toUInt32.toNat = index := UInt32.toNat_ofNat_of_lt' hword
    rw [neighbors, neighbors?_ofEdges hlength hsource (hslot.symm ▸ hbelow), hslot,
      Option.getD_some, List.length_map]
  calc
    (ofEdges nodeCount edges weighted).rowTotal nodeCount =
        ((List.range (min nodeCount UInt32.size)).map fun index ↦
          (rowOf edges index).length).sum := by
      rw [rowTotal, slotsBelow, List.map_map]
      exact congrArg List.sum (List.map_congr_left hrow)
    _ = countBelow edges (min nodeCount UInt32.size) := sum_length_rowOf edges _
    _ = edges.length := countBelow_eq_length fun edge hedge ↦
      Nat.lt_min.mpr ⟨hsource edge hedge, edge.source.toNat_lt⟩

end Adjacency

namespace LoadDirection

variable {load : LoadDirection} {edges stored other : List Edge}

/-- The number of lists that a load direction keeps. -/
def listCount : LoadDirection → ℕ
  | both => 2
  | outgoing | incoming | undirected => 1

theorem length_listsKept (load : LoadDirection) (edges : List Edge) :
    (load.listsKept edges).length = load.listCount := by
  cases load <;> rfl

/-- A relationship is stored as often in one list that is kept as in the other. -/
theorem length_eq_of_mem_listsKept (hstored : stored ∈ load.listsKept edges)
    (hother : other ∈ load.listsKept edges) : stored.length = other.length := by
  have hsame (kept : List Edge) (hkept : kept ∈ load.listsKept edges) :
      kept.length = if load = .undirected then (edges.flatMap Edge.bothEnds).length
        else edges.length := by
    cases load with
    | both =>
      rcases List.mem_pair.mp hkept with rfl | rfl
      · rfl
      · exact List.length_map _
    | incoming =>
      obtain rfl := List.mem_singleton.mp hkept
      exact List.length_map _
    | outgoing | undirected =>
      obtain rfl := List.mem_singleton.mp hkept
      rfl
  rw [hsame stored hstored, hsame other hother]

end LoadDirection

namespace Projection

open Builder

variable {builder : Builder} {projection : Projection}

/-- The lengths of the rows of all nodes, over the lists that are kept. -/
def rowTotal (projection : Projection) : ℕ :=
  projection.outgoing.elim 0 (fun rows ↦ rows.rowTotal projection.nodeCount) +
    projection.incoming.elim 0 fun rows ↦ rows.rowTotal projection.nodeCount

/-- No list has more neighbours than 32-bit offsets tell apart. -/
def OffsetsFit (projection : Projection) : Prop :=
  ∀ rows, projection.outgoing = some rows ∨ projection.incoming = some rows →
    rows.targets.size < UInt32.size

theorem Addressable.offsetsFit (h : projection.Addressable) : projection.OffsetsFit := by
  rintro rows (hrows | hrows)
  · exact h.outgoing_lt rows hrows
  · exact h.incoming_lt rows hrows

theorem exists_mainRows_of_build (hbuild : builder.build = .ok projection) :
    ∃ rows, projection.mainRows = some rows ∧
      (projection.outgoing = some rows ∨ projection.incoming = some rows) := by
  obtain ⟨houtgoing, hincoming⟩ := rows_of_build hbuild
  unfold mainRows
  rw [houtgoing, hincoming]
  cases builder.loadDirection <;> simp [outgoingRows, incomingRows]

/-- The number of neighbours that a projection gives is the length of any list. -/
theorem length_eq_edgeCount (hbuild : builder.build = .ok projection) {stored : List Edge}
    (hstored : stored ∈ builder.listsKept) : stored.length = projection.edgeCount := by
  obtain ⟨rows, hmain, hside⟩ := exists_mainRows_of_build hbuild
  obtain ⟨main, hkept, rfl⟩ := exists_listsKept_of_rows hbuild hside
  rw [edgeCount, hmain, Option.elim_some, size_targets_of_mem_listsKept hkept]
  exact LoadDirection.length_eq_of_mem_listsKept hstored hkept

theorem entryCount_eq_mul (hbuild : builder.build = .ok projection) :
    projection.entryCount = projection.loadDirection.listCount * projection.edgeCount := by
  have hlengths : ∀ length ∈ builder.listsKept.map List.length,
      length = projection.edgeCount := by
    intro length hlength
    obtain ⟨stored, hstored, rfl⟩ := List.mem_map.mp hlength
    exact length_eq_edgeCount hbuild hstored
  rw [entryCount_of_build hbuild, List.sum_eq_card_nsmul _ _ hlengths, List.length_map, listsKept,
    LoadDirection.length_listsKept, loadDirection_of_build hbuild, Nat.nsmul_eq_mul]

theorem edgeCount_of_both (hbuild : builder.build = .ok projection)
    (hload : projection.loadDirection = .both) :
    projection.edgeCount = projection.relationshipCount := by
  have hkept : builder.edges (idMapOf builder.distinctNodes) ∈ builder.listsKept := by
    rw [listsKept, ← loadDirection_of_build hbuild, hload]
    exact List.mem_cons_self
  rw [← length_eq_edgeCount hbuild hkept]
  obtain ⟨_, _, rfl⟩ := build_eq_ok_iff.mp hbuild
  rfl

/-- The rows of one side of a built projection, added up, are its stored neighbours. -/
theorem rowTotal_rows (hbuild : builder.build = .ok projection) {rows : Adjacency}
    (hrows : projection.outgoing = some rows ∨ projection.incoming = some rows)
    (hsize : rows.targets.size < UInt32.size) :
    rows.rowTotal projection.nodeCount = rows.targets.size := by
  obtain ⟨stored, hkept, rfl⟩ := exists_listsKept_of_rows hbuild hrows
  rw [size_targets_of_mem_listsKept hkept] at hsize ⊢
  rw [nodeCount_of_build hbuild]
  exact Adjacency.rowTotal_ofEdges hsize (source_lt_card hkept) _

theorem rowTotal_eq_entryCount (hbuild : builder.build = .ok projection)
    (hfit : projection.OffsetsFit) : projection.rowTotal = projection.entryCount := by
  unfold rowTotal entryCount
  congr 1
  · cases hrows : projection.outgoing with
    | none => rfl
    | some rows => exact rowTotal_rows hbuild (.inl hrows) (hfit rows (.inl hrows))
  · cases hrows : projection.incoming with
    | none => rfl
    | some rows => exact rowTotal_rows hbuild (.inr hrows) (hfit rows (.inr hrows))

/--
The rows of all nodes together are as long as the number of neighbours that a projection gives,
once for each list that is kept. That number counts all of them exactly if one list is kept, or two
empty ones.
-/
theorem rowTotal_eq_listCount_mul_edgeCount (hbuild : builder.build = .ok projection)
    (hfit : projection.OffsetsFit) :
    projection.rowTotal = projection.loadDirection.listCount * projection.edgeCount ∧
      (projection.edgeCount = projection.rowTotal ↔
        projection.loadDirection = .both → projection.relationshipCount = 0) := by
  have htotal : projection.rowTotal = projection.loadDirection.listCount * projection.edgeCount :=
    (rowTotal_eq_entryCount hbuild hfit).trans (entryCount_eq_mul hbuild)
  refine ⟨htotal, ?_⟩
  rw [htotal]
  by_cases hload : projection.loadDirection = .both
  · rw [edgeCount_of_both hbuild hload, hload, LoadDirection.listCount]
    simp only [true_imp_iff]
    omega
  · have hone : projection.loadDirection.listCount = 1 := by
      cases hother : projection.loadDirection with
      | both => exact absurd hother hload
      | outgoing | incoming | undirected => rfl
    rw [hone, Nat.one_mul]
    exact iff_of_true rfl fun hboth ↦ absurd hboth hload

/-- In symmetric rows a relationship has a place at either end and a loop a single one. -/
theorem rowTotal_eq_listCount_mul_edgeCount_of_crowdedNode :
    ∃ projection, (ofCalls (crowdedNode ++ [.load .undirected])).build = .ok projection ∧
      projection.OffsetsFit ∧ projection.edgeCount = 7 ∧ projection.rowTotal = 7 := by
  have hcard : (ofCalls (crowdedNode ++ [.load .undirected])).ids.card = 3 := by decide
  have hkeys : (ofCalls (crowdedNode ++ [.load .undirected])).columnTypes.keys.length = 0 := by
    decide
  obtain ⟨projection, hbuild, haddressable⟩ :=
    (ofCalls (crowdedNode ++ [.load .undirected])).exists_addressable_of_small (by decide)
      (by decide) (by decide) (by rw [hcard, hkeys]; decide)
  have hload : projection.loadDirection = .undirected := loadDirection_of_build hbuild
  have hentries : projection.entryCount = 7 := by
    rw [entryCount_of_build hbuild, listsKept_ofCalls (by decide)]
    decide
  have hcount : projection.edgeCount = 7 := by
    rw [entryCount_eq_mul hbuild, hload, LoadDirection.listCount] at hentries
    omega
  obtain ⟨_, hcounts⟩ := rowTotal_eq_listCount_mul_edgeCount hbuild haddressable.offsetsFit
  have htotal := hcounts.mpr fun hboth ↦ absurd (hload.symm.trans hboth) (by decide)
  exact ⟨projection, hbuild, haddressable.offsetsFit, hcount, htotal.symm.trans hcount⟩

/-- Two nodes with a relationship from the first to the second, kept in two lists. -/
def pairInBothLists : List Call :=
  [.nodes [⟨10⟩, ⟨20⟩], .relationship ⟨10⟩ ⟨20⟩, .load .both]

/-- The relationship has a place in either list, and one of them is counted. -/
theorem edgeCount_of_pairInBothLists :
    ∃ projection, (ofCalls pairInBothLists).build = .ok projection ∧
      projection.OffsetsFit ∧ projection.edgeCount = 1 ∧ projection.rowTotal = 2 := by
  have hcard : (ofCalls pairInBothLists).ids.card = 2 := by decide
  have hkeys : (ofCalls pairInBothLists).columnTypes.keys.length = 0 := by decide
  obtain ⟨projection, hbuild, haddressable⟩ :=
    (ofCalls pairInBothLists).exists_addressable_of_small (by decide) (by decide) (by decide)
      (by rw [hcard, hkeys]; decide)
  have hload : projection.loadDirection = .both := loadDirection_of_build hbuild
  have hentries : projection.entryCount = 2 := by
    rw [entryCount_of_build hbuild, listsKept_ofCalls (by decide)]
    decide
  have hcount : projection.edgeCount = 1 := by
    rw [entryCount_eq_mul hbuild, hload, LoadDirection.listCount] at hentries
    omega
  refine ⟨projection, hbuild, haddressable.offsetsFit, hcount, ?_⟩
  rw [rowTotal_eq_entryCount hbuild haddressable.offsetsFit, hentries]

end Projection

end WeakComponents
