import Mathlib.Data.List.Flatten
import WeakComponents.Proofs.Graph.Visitors
import WeakComponents.Proofs.Projection.Lists

/-!
# Readable nodes

Reading a node goes through if it is one of the nodes and the direction is loaded. Otherwise the
fault names what is wrong, a node out of range before a direction that is not loaded. Degrees, which
are taken from the offsets, and existence checks, which look into the rows, answer what reading the
neighbours one by one would answer.
-/

namespace WeakComponents

namespace Adjacency

/-- The difference of two offsets is the length of the row between them. -/
theorem degree_ofEdges {edges : List Edge} {nodeCount : ℕ} (hlength : edges.length < UInt32.size)
    (hsource : ∀ edge ∈ edges, edge.source.toNat < nodeCount) {slot : Slot}
    (hslot : slot.toNat < nodeCount) (weighted : Bool) :
    (ofEdges nodeCount edges weighted).degree slot =
      ((ofEdges nodeCount edges weighted).neighbors slot).length.toUInt32 := by
  have hend : (countBelow edges (slot.toNat + 1)).toUInt32 =
      (countBelow edges slot.toNat).toUInt32 + (rowOf edges slot.toNat).length.toUInt32 := by
    rw [countBelow_succ]
    exact UInt32.ofNat_add _ _
  rw [degree, range?_ofEdges hlength hsource hslot, neighbors,
    neighbors?_ofEdges hlength hsource hslot, Option.getD_some, List.length_map]
  dsimp only
  rw [hend, UInt32.add_comm, UInt32.add_sub_cancel]

theorem length_neighbors_le (rows : Adjacency) (slot : Slot) :
    (rows.neighbors slot).length ≤ rows.targets.size := by
  unfold neighbors neighbors?
  cases rows.range? slot with
  | none => exact Nat.zero_le _
  | some range =>
    simp only [Option.map_some, Option.getD_some, Array.length_toList, Array.size_extract]
    omega

/-- Degrees of several rows add up to the number of all their neighbours. -/
theorem foldl_degree {lists : List Adjacency} {slot : Slot}
    (h : ∀ rows ∈ lists, rows.degree slot = (rows.neighbors slot).length.toUInt32)
    (total : UInt32) :
    lists.foldl (fun total rows ↦ total + rows.degree slot) total =
      total + (lists.flatMap fun rows ↦ rows.neighbors slot).length.toUInt32 := by
  induction lists generalizing total with
  | nil => exact (UInt32.add_zero total).symm
  | cons rows rest ih =>
    obtain ⟨hrows, hrest⟩ := List.forall_mem_cons.mp h
    rw [List.foldl_cons, ih hrest, hrows, List.flatMap_cons, List.length_append, UInt32.add_assoc]
    exact congrArg _ (UInt32.ofNat_add _ _).symm

end Adjacency

namespace Projection

variable {projection : Projection} {node target : Slot} {direction : Direction}

/-- A node of the projection in a direction that is loaded. -/
def Readable (projection : Projection) (node : Slot) (direction : Direction) : Prop :=
  node.toNat < projection.nodeCount ∧ direction ∈ projection.loadDirection.served

instance : Decidable (projection.Readable node direction) :=
  inferInstanceAs (Decidable (_ ∧ _))

theorem exists_lists_eq_ok (h : direction ∈ projection.loadDirection.served) :
    ∃ rows, projection.lists direction = .ok rows := by
  unfold lists
  cases hload : projection.loadDirection <;> cases direction <;>
    simp [hload, LoadDirection.served] at h ⊢

theorem lists_eq_error (h : direction ∉ projection.loadDirection.served) :
    projection.lists direction = .error (.directionNotLoaded direction) := by
  unfold lists
  cases hload : projection.loadDirection <;> cases direction <;>
    simp [hload, LoadDirection.served] at h ⊢

theorem Readable.exists_rowsOf_eq_ok (h : projection.Readable node direction) :
    ∃ rows, projection.rowsOf node direction = .ok rows := by
  unfold rowsOf
  rw [if_pos h.1]
  exact exists_lists_eq_ok h.2

/-- The fault of a node that cannot be read. -/
def faultOf (projection : Projection) (node : Slot) (direction : Direction) : StorageFault :=
  if node.toNat < projection.nodeCount then .directionNotLoaded direction
  else .nodeOutOfRange node projection.nodeCount

theorem rowsOf_eq_error (h : ¬ projection.Readable node direction) :
    projection.rowsOf node direction = .error (projection.faultOf node direction) := by
  unfold rowsOf faultOf
  split
  · rename_i hnode
    exact lists_eq_error fun hserved ↦ h ⟨hnode, hserved⟩
  · rfl

/-- The neighbours that are stored for a node in a direction, in order. -/
def stored (projection : Projection) (node : Slot) (direction : Direction) : List Slot :=
  (Graph.neighbors projection node direction).entries

theorem Readable.neighbors_eq (h : projection.Readable node direction) :
    Graph.neighbors projection node direction =
      .complete (projection.stored node direction) := by
  obtain ⟨rows, hrows⟩ := h.exists_rowsOf_eq_ok
  have hread : Graph.neighbors projection node direction =
      .complete (rows.flatMap fun row ↦ row.neighbors node) := by
    change projection.read node direction _ = _
    rw [read, hrows]
  rw [stored, hread]
  rfl

theorem neighbors_eq_interrupted (h : ¬ projection.Readable node direction) :
    Graph.neighbors projection node direction =
      .interrupted (.fault (projection.faultOf node direction)) := by
  change projection.read node direction _ = _
  rw [read, rowsOf_eq_error h]

/-- A node can be read exactly if no fault interrupts it. -/
theorem interruption_neighbors_eq_none_iff :
    (Graph.neighbors projection node direction).interruption = none ↔
      projection.Readable node direction := by
  by_cases h : projection.Readable node direction
  · rw [h.neighbors_eq]
    exact iff_of_true rfl h
  · rw [neighbors_eq_interrupted h]
    exact iff_of_false (by simp [Reading.interrupted]) h

theorem Readable.exists_degree_eq (h : projection.Readable node direction) :
    ∃ degree, Graph.degree projection node direction = .ok (some degree) := by
  obtain ⟨rows, hrows⟩ := h.exists_rowsOf_eq_ok
  refine ⟨rows.foldl (fun total row ↦ total + row.degree node) 0, ?_⟩
  change Except.ok (projection.degree node direction) = _
  rw [degree, hrows]

theorem degree_eq_none (h : ¬ projection.Readable node direction) :
    Graph.degree projection node direction = .ok none := by
  change Except.ok (projection.degree node direction) = _
  rw [degree, rowsOf_eq_error h]

theorem stored_eq_flatMap {lists : List Adjacency}
    (hlists : projection.rowsOf node direction = .ok lists) :
    projection.stored node direction = lists.flatMap fun rows ↦ rows.neighbors node := by
  change (projection.read node direction _).entries = _
  rw [read, hlists]
  rfl

theorem Readable.tryExists_eq (h : projection.Readable node direction) (target : Slot) :
    Graph.tryExists projection node target direction =
      .ok (decide (target ∈ projection.stored node direction)) := by
  obtain ⟨lists, hlists⟩ := h.exists_rowsOf_eq_ok
  have hany : (lists.any fun rows ↦ decide (target ∈ rows.neighbors node)) =
      decide (target ∈ projection.stored node direction) := by
    rw [stored_eq_flatMap hlists, Bool.eq_iff_iff, List.any_eq_true, decide_eq_true_iff,
      List.mem_flatMap]
    simp only [decide_eq_true_iff]
  change (projection.tryExists node target direction).mapError _ = _
  rw [tryExists, hlists, ← hany]
  rfl

theorem tryExists_eq_error (h : ¬ projection.Readable node direction) (target : Slot) :
    Graph.tryExists projection node target direction =
      .error (.fault (projection.faultOf node direction)) := by
  change (projection.tryExists node target direction).mapError _ = _
  rw [tryExists, rowsOf_eq_error h]
  rfl

/-- A target exists exactly if it is among the stored neighbours. -/
theorem Readable.exists?_eq (h : projection.Readable node direction) (target : Slot) :
    Graph.exists? projection node target direction =
      .ok (decide (target ∈ projection.stored node direction)) := by
  rw [Graph.exists?, h.tryExists_eq]

theorem exists?_eq_ok_false (h : ¬ projection.Readable node direction) (target : Slot) :
    Graph.exists? projection node target direction = .ok false := by
  rw [Graph.exists?, tryExists_eq_error h]

variable {builder : Builder}

theorem loadDirection_of_build (hbuild : builder.build = .ok projection) :
    projection.loadDirection = builder.loadDirection := by
  obtain ⟨_, _, rfl⟩ := Builder.build_eq_ok_iff.mp hbuild
  rfl

theorem readable_of_build (hbuild : builder.build = .ok projection)
    (hnode : node.toNat < builder.ids.card) (hserved : direction ∈ builder.loadDirection.served) :
    projection.Readable node direction :=
  ⟨nodeCount_of_build hbuild ▸ hnode, loadDirection_of_build hbuild ▸ hserved⟩

theorem Addressable.stored_ofCalls {calls : List Builder.Call}
    (hbuild : (Builder.ofCalls calls).build = .ok projection) (h : projection.Addressable)
    (hreadable : projection.Readable node direction) :
    projection.stored node direction =
      ((Builder.chosenLoad calls).listsRead (Builder.edgesOf calls) direction).flatMap fun edges ↦
        (Edge.leaving edges node).map Prod.fst := by
  have hserved : direction ∈ (Builder.ofCalls calls).loadDirection.served :=
    loadDirection_of_build hbuild ▸ hreadable.2
  have hcount : (Builder.addedIds calls).card ≤ slotLimit :=
    Builder.ids_ofCalls calls ▸ h.card_le hbuild
  rw [stored, (h.visits hbuild hserved hreadable.1).neighbors_eq, listsRead_ofCalls hcount,
    List.map_flatMap]
  rfl

/-- The rows that serve a node are among those of the two sides, in their order. -/
theorem sublist_of_rowsOf_eq_ok {lists : List Adjacency}
    (hlists : projection.rowsOf node direction = .ok lists) :
    lists.Sublist (projection.outgoing.toList ++ projection.incoming.toList) := by
  unfold rowsOf Projection.lists at hlists
  split at hlists
  · cases hload : projection.loadDirection <;> cases direction <;> simp [hload] at hlists <;>
      subst hlists <;> simp
  · exact absurd hlists (by simp)

theorem mem_rowsOf {lists : List Adjacency} (hlists : projection.rowsOf node direction = .ok lists)
    {rows : Adjacency} (hrows : rows ∈ lists) :
    projection.outgoing = some rows ∨ projection.incoming = some rows := by
  have hside := (sublist_of_rowsOf_eq_ok hlists).mem hrows
  rwa [List.mem_append, Option.mem_toList, Option.mem_toList] at hside

/-- The degree from the offsets counts the neighbours as long as offsets do not wrap around. -/
theorem Readable.degree_eq (hreadable : projection.Readable node direction)
    (hbuild : builder.build = .ok projection)
    (hsize : ∀ rows, projection.outgoing = some rows ∨ projection.incoming = some rows →
      rows.targets.size < UInt32.size) :
    Graph.degree projection node direction =
      .ok (some (projection.stored node direction).length.toUInt32) := by
  obtain ⟨lists, hlists⟩ := hreadable.exists_rowsOf_eq_ok
  have hdegree : ∀ rows ∈ lists, rows.degree node = (rows.neighbors node).length.toUInt32 := by
    intro rows hrows
    have hside := mem_rowsOf hlists hrows
    have hfits := hsize rows hside
    obtain ⟨edges, hkept, rfl⟩ := exists_listsKept_of_rows hbuild hside
    rw [Builder.size_targets_of_mem_listsKept hkept] at hfits
    apply Adjacency.degree_ofEdges hfits (Builder.source_lt_card hkept)
    exact nodeCount_of_build hbuild ▸ hreadable.1
  change Except.ok (projection.degree node direction) = _
  rw [degree, hlists, stored_eq_flatMap hlists]
  dsimp only
  rw [Adjacency.foldl_degree hdegree, UInt32.zero_add]

theorem Addressable.degree_eq (hbuild : builder.build = .ok projection)
    (h : projection.Addressable) (hreadable : projection.Readable node direction) :
    Graph.degree projection node direction =
      .ok (some (projection.stored node direction).length.toUInt32) := by
  apply hreadable.degree_eq hbuild
  rintro rows (hrows | hrows)
  · exact h.outgoing_lt rows hrows
  · exact h.incoming_lt rows hrows

/-! ## Degrees and existence by reading -/

/-- The number of stored neighbours, over all rows. -/
def entryCount (projection : Projection) : ℕ :=
  projection.outgoing.elim 0 (fun rows ↦ rows.targets.size) +
    projection.incoming.elim 0 fun rows ↦ rows.targets.size

theorem entryCount_of_build (hbuild : builder.build = .ok projection) :
    projection.entryCount = (builder.listsKept.map List.length).sum := by
  obtain ⟨houtgoing, hincoming⟩ := rows_of_build hbuild
  rw [entryCount, houtgoing, hincoming, Builder.sum_rows]
  congr 1
  apply List.map_congr_left
  intro stored hstored
  exact Builder.size_targets_of_mem_listsKept hstored

theorem size_targets_le_entryCount {rows : Adjacency}
    (hrows : projection.outgoing = some rows ∨ projection.incoming = some rows) :
    rows.targets.size ≤ projection.entryCount := by
  unfold entryCount
  rcases hrows with hrows | hrows <;> simp [hrows]

/-- No node has more neighbours than are stored. -/
theorem length_stored_le (projection : Projection) (node : Slot) (direction : Direction) :
    (projection.stored node direction).length ≤ projection.entryCount := by
  have hside (rows : Option Adjacency) :
      (rows.toList.flatMap fun rows ↦ rows.neighbors node).length ≤
        rows.elim 0 fun rows ↦ rows.targets.size := by
    cases rows with
    | none => exact Nat.le_refl 0
    | some rows => simpa using rows.length_neighbors_le node
  by_cases hreadable : projection.Readable node direction
  · obtain ⟨lists, hlists⟩ := hreadable.exists_rowsOf_eq_ok
    have hsublist := (sublist_of_rowsOf_eq_ok hlists).flatMap fun rows ↦ rows.neighbors node
    calc
      (projection.stored node direction).length =
          (lists.flatMap fun rows ↦ rows.neighbors node).length := by
        rw [stored_eq_flatMap hlists]
      _ ≤ ((projection.outgoing.toList ++ projection.incoming.toList).flatMap fun rows ↦
          rows.neighbors node).length := hsublist.length_le
      _ ≤ projection.entryCount := by
        rw [List.flatMap_append, List.length_append]
        exact Nat.add_le_add (hside projection.outgoing) (hside projection.incoming)
  · rw [stored, neighbors_eq_interrupted hreadable]
    exact Nat.zero_le _

/--
What offsets and rows answer at once is what reading the neighbours answers: the degree is the
number of neighbours that a visitor counts, a check whether a target exists ends like a search that
stops at the target, and a fault of the reading is the fault of the check.
-/
theorem degree_and_existence_by_reading (hbuild : builder.build = .ok projection)
    (hsize : projection.entryCount < UInt32.size) (node target : Slot) (direction : Direction) :
    Graph.degree projection node direction = (Graph.neighbors projection node direction).count ∧
    (∀ degree, Graph.degree projection node direction = .ok (some degree) ↔
      (Graph.neighbors projection node direction).visit (fun total _ ↦ (total + 1, true)) 0 =
        (degree, none)) ∧
    (∀ degree, Graph.degree projection node direction = .ok (some degree) →
      degree.toNat = (Graph.neighbors projection node direction).entries.length) ∧
    Graph.tryExists projection node target direction =
      (Graph.neighbors projection node direction).search target ∧
    Graph.exists? projection node target direction =
      .ok (decide ((Graph.neighbors projection node direction).interruption = none ∧
        target ∈ (Graph.neighbors projection node direction).entries)) := by
  have hcount : Graph.degree projection node direction =
      (Graph.neighbors projection node direction).count := by
    by_cases hreadable : projection.Readable node direction
    · rw [hreadable.degree_eq hbuild fun rows hrows ↦
        (size_targets_le_entryCount hrows).trans_lt hsize, hreadable.neighbors_eq]
      rfl
    · rw [degree_eq_none hreadable, neighbors_eq_interrupted hreadable]
      rfl
  refine ⟨hcount, fun degree ↦ ?_, fun degree hdegree ↦ ?_, ?_, ?_⟩
  · rw [hcount]
    exact Reading.count_eq_ok_some_iff
  · have hlength := (projection.length_stored_le node direction).trans_lt hsize
    exact Reading.toNat_of_count_eq (hcount ▸ hdegree) hlength
  · by_cases hreadable : projection.Readable node direction
    · rw [hreadable.tryExists_eq, hreadable.neighbors_eq, Reading.search_complete]
    · rw [tryExists_eq_error hreadable, neighbors_eq_interrupted hreadable,
        Reading.search_interrupted]
  · by_cases hreadable : projection.Readable node direction
    · rw [hreadable.exists?_eq, hreadable.neighbors_eq]
      simp [Reading.complete]
    · rw [exists?_eq_ok_false hreadable, neighbors_eq_interrupted hreadable]
      simp [Reading.interrupted]

/-- A node with a loop, two parallel relationships from it and one to it. -/
def crowdedNode : List Builder.Call :=
  [.load .both, .nodes [⟨10⟩, ⟨20⟩, ⟨30⟩],
    .relationships [(⟨10⟩, ⟨20⟩), (⟨10⟩, ⟨20⟩), (⟨30⟩, ⟨10⟩), (⟨10⟩, ⟨10⟩)]]

theorem degree_and_existence_by_reading_of_crowdedNode :
    ∃ projection, (Builder.ofCalls crowdedNode).build = .ok projection ∧
      projection.entryCount < UInt32.size ∧
      Graph.degree projection 0 .both = .ok (some 5) ∧
      Graph.tryExists projection 0 2 .both = .ok true ∧
      Graph.exists? projection 0 2 .both = .ok true ∧
      Graph.tryExists projection 7 2 .both = .error (.fault (.nodeOutOfRange 7 3)) := by
  have hcard : (Builder.ofCalls crowdedNode).ids.card = 3 := by decide
  have hkeys : (Builder.ofCalls crowdedNode).columnTypes.keys.length = 0 := by decide
  obtain ⟨projection, hbuild, haddressable⟩ :=
    (Builder.ofCalls crowdedNode).exists_addressable_of_small (by decide) (by decide) (by decide)
      (by rw [hcard, hkeys]; decide)
  have hsize : projection.entryCount < UInt32.size := by
    rw [entryCount_of_build hbuild, listsKept_ofCalls (by decide)]
    decide
  have hreadable : projection.Readable 0 .both := readable_of_build hbuild (by decide) (by decide)
  have hstored : projection.stored 0 .both = [1, 1, 0, 2, 0] :=
    haddressable.stored_ofCalls hbuild hreadable
  have hnodes : projection.nodeCount = 3 := (nodeCount_of_build hbuild).trans hcard
  have hmissing : ¬ projection.Readable 7 .both := by
    rintro ⟨hnode, _⟩
    rw [hnodes] at hnode
    exact absurd hnode (by decide)
  obtain ⟨hdegree, _, _, hfound, hexists⟩ :=
    degree_and_existence_by_reading hbuild hsize 0 2 .both
  obtain ⟨_, _, _, hfault, _⟩ := degree_and_existence_by_reading hbuild hsize 7 2 .both
  rw [hreadable.neighbors_eq, hstored] at hdegree hfound hexists
  rw [neighbors_eq_interrupted hmissing, faultOf, hnodes] at hfault
  exact ⟨projection, hbuild, hsize, hdegree, hfound, hexists, hfault⟩

end Projection

end WeakComponents
