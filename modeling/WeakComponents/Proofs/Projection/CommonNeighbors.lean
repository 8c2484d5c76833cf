import WeakComponents.Proofs.Projection.Readable

/-!
# Common neighbours in a projection

Of two nodes the one with fewer neighbours is walked, the first of them if both have as many. What
is reported are its neighbours that the other one has too, except the other one itself. Between
nodes without loops this is the intersection of their lists. With a loop, the order in which two
nodes of one degree are given decides which of them can be reported. Whatever keeps one of the
nodes from being read is reported as a direction that is not loaded.
-/

namespace WeakComponents.Projection

open Builder

variable {projection : Projection} {a b : Slot} {direction : Direction} {degreeA degreeB : UInt32}

/-- The node that is walked, and the other one, by their degrees. -/
def sides (degreeA degreeB : UInt32) (a b : Slot) : Slot × Slot :=
  if degreeA ≤ degreeB then (a, b) else (b, a)

/-- What is reported: the walked neighbours that the other node has too, but not the node itself. -/
def reported (projection : Projection) (sides : Slot × Slot) (direction : Direction) : List Slot :=
  (projection.stored sides.1 direction).filter fun node ↦
    decide (node ≠ sides.2 ∧ node ∈ projection.stored sides.2 direction)

theorem sides_cases (degreeA degreeB : UInt32) (a b : Slot) :
    sides degreeA degreeB a b = (a, b) ∨ sides degreeA degreeB a b = (b, a) := by
  unfold sides
  split
  · exact .inl rfl
  · exact .inr rfl

/-- What holds of both nodes holds of the one that is not walked. -/
theorem of_snd_sides {p : Slot → Prop} (ha : p a) (hb : p b) :
    p (sides degreeA degreeB a b).2 := by
  rcases sides_cases degreeA degreeB a b with hsides | hsides
  · rwa [hsides]
  · rwa [hsides]

/-- Between different degrees the order of the nodes does not matter. -/
theorem sides_comm (h : degreeA ≠ degreeB) (a b : Slot) :
    sides degreeA degreeB a b = sides degreeB degreeA b a := by
  rw [ne_eq, ← UInt32.toNat_inj] at h
  unfold sides
  simp only [UInt32.le_iff_toNat_le]
  by_cases hle : degreeA.toNat ≤ degreeB.toNat
  · rw [if_pos hle, if_neg (by omega)]
  · rw [if_neg hle, if_pos (by omega)]

section

variable (ha : projection.Readable a direction) (hb : projection.Readable b direction)

include ha hb

theorem commonNeighbors_eq (hdegreeA : Graph.degree projection a direction = .ok (some degreeA))
    (hdegreeB : Graph.degree projection b direction = .ok (some degreeB)) :
    Graph.commonNeighbors projection a b direction =
      .complete (projection.reported (sides degreeA degreeB a b) direction) := by
  have hwalk {walked other : Slot} (hwalked : projection.Readable walked direction)
      (hother : projection.Readable other direction) :
      ((Graph.neighbors projection walked direction).filter fun node ↦
        if node = other then .ok false else Graph.exists? projection other node direction) =
        .complete (projection.reported (walked, other) direction) := by
    have hkeep (node : Slot) :
        (if node = other then .ok false else Graph.exists? projection other node direction) =
          (Except.ok (decide (node ≠ other ∧ node ∈ projection.stored other direction)) :
            Except PanicValue Bool) := by
      by_cases hsame : node = other
      · simp [hsame]
      · simp [hsame, hother.exists?_eq]
    rw [Reading.filter_eq hkeep, hwalked.neighbors_eq]
    rfl
  unfold Graph.commonNeighbors sides
  rw [hdegreeA, hdegreeB]
  dsimp only
  split
  · exact hwalk ha hb
  · exact hwalk hb ha

theorem exists_commonNeighbors_eq :
    ∃ degreeA degreeB, Graph.degree projection a direction = .ok (some degreeA) ∧
      Graph.degree projection b direction = .ok (some degreeB) ∧
        Graph.commonNeighbors projection a b direction =
          .complete (projection.reported (sides degreeA degreeB a b) direction) := by
  obtain ⟨degreeA, hdegreeA⟩ := ha.exists_degree_eq
  obtain ⟨degreeB, hdegreeB⟩ := hb.exists_degree_eq
  exact ⟨degreeA, degreeB, hdegreeA, hdegreeB, commonNeighbors_eq ha hb hdegreeA hdegreeB⟩

end

/-! ## The intersection -/

theorem mem_reported_sides {node : Slot} :
    node ∈ projection.reported (sides degreeA degreeB a b) direction ↔
      (node ∈ projection.stored a direction ∧ node ∈ projection.stored b direction) ∧
        node ≠ (sides degreeA degreeB a b).2 := by
  unfold reported
  rw [List.mem_filter, decide_eq_true_iff]
  rcases sides_cases degreeA degreeB a b with hsides | hsides
  · rw [hsides]
    tauto
  · rw [hsides]
    tauto

/-- A node that is a neighbour of both. -/
def Shared (projection : Projection) (a b : Slot) (direction : Direction) (node : Slot) : Prop :=
  node ∈ projection.stored a direction ∧ node ∈ projection.stored b direction

theorem shared_comm {node : Slot} :
    projection.Shared a b direction node ↔ projection.Shared b a direction node :=
  and_comm

theorem mem_commonNeighbors (ha : projection.Readable a direction)
    (hb : projection.Readable b direction)
    (hdegreeA : Graph.degree projection a direction = .ok (some degreeA))
    (hdegreeB : Graph.degree projection b direction = .ok (some degreeB)) {node : Slot} :
    node ∈ (Graph.commonNeighbors projection a b direction).entries ↔
      projection.Shared a b direction node ∧ node ≠ (sides degreeA degreeB a b).2 := by
  rw [commonNeighbors_eq ha hb hdegreeA hdegreeB]
  exact mem_reported_sides

/-- Leaving out one of two nodes or the other makes no difference if neither is there. -/
theorem forall_and_ne_iff {p : Slot → Prop} :
    (∀ node, p node ∧ node ≠ b ↔ p node ∧ node ≠ a) ↔
      a = b ∨ ∀ node, node = a ∨ node = b → ¬ p node := by
  constructor
  · intro h
    by_cases hsame : a = b
    · exact .inl hsame
    · apply Or.inr
      rintro node (rfl | rfl) hnode
      · exact ((h node).mp ⟨hnode, hsame⟩).2 rfl
      · exact ((h node).mpr ⟨hnode, Ne.symm hsame⟩).2 rfl
  · rintro (rfl | hneither) node
    · exact Iff.rfl
    · constructor
      · rintro ⟨hnode, _⟩
        exact ⟨hnode, fun hsame ↦ hneither node (.inl hsame) hnode⟩
      · rintro ⟨hnode, _⟩
        exact ⟨hnode, fun hsame ↦ hneither node (.inr hsame) hnode⟩

/--
Two nodes are reported the same neighbours in either order exactly if they are one node, differ in
degree, or neither of them is a neighbour of both. Other nodes are reported if they are neighbours
of both, whatever the order.
-/
theorem mem_commonNeighbors_comm_iff (ha : projection.Readable a direction)
    (hb : projection.Readable b direction) :
    ((∀ node, node ∈ (Graph.commonNeighbors projection a b direction).entries ↔
        node ∈ (Graph.commonNeighbors projection b a direction).entries) ↔
      Graph.degree projection a direction ≠ Graph.degree projection b direction ∨ a = b ∨
        ∀ node, node = a ∨ node = b → ¬ projection.Shared a b direction node) ∧
    ∀ node, node ≠ a → node ≠ b →
      (node ∈ (Graph.commonNeighbors projection a b direction).entries ↔
        projection.Shared a b direction node) ∧
      (node ∈ (Graph.commonNeighbors projection b a direction).entries ↔
        projection.Shared a b direction node) := by
  obtain ⟨degreeA, hdegreeA⟩ := ha.exists_degree_eq
  obtain ⟨degreeB, hdegreeB⟩ := hb.exists_degree_eq
  have hfirst {node : Slot} := @mem_commonNeighbors _ _ _ _ _ _ ha hb hdegreeA hdegreeB node
  have hsecond {node : Slot} :
      node ∈ (Graph.commonNeighbors projection b a direction).entries ↔
        projection.Shared a b direction node ∧ node ≠ (sides degreeB degreeA b a).2 := by
    rw [mem_commonNeighbors hb ha hdegreeB hdegreeA, shared_comm]
  constructor
  · simp only [hfirst, hsecond, hdegreeA, hdegreeB, ne_eq, Except.ok.injEq, Option.some.injEq]
    by_cases hdegree : degreeA = degreeB
    · have hsides : sides degreeA degreeB a b = (a, b) := by simp [sides, hdegree]
      have hsides' : sides degreeB degreeA b a = (b, a) := by simp [sides, hdegree]
      rw [hsides, hsides', or_iff_right (not_not_intro hdegree)]
      exact forall_and_ne_iff
    · rw [sides_comm hdegree a b]
      exact iff_of_true (fun _ ↦ Iff.rfl) (.inl hdegree)
  · intro node hneA hneB
    constructor
    · exact hfirst.trans (and_iff_left (of_snd_sides (p := (node ≠ ·)) hneA hneB))
    · exact hsecond.trans (and_iff_left (of_snd_sides (p := (node ≠ ·)) hneB hneA))

/-- Two nodes of one degree, of which the first has a loop and is the neighbour of the second. -/
def loopedPair : List Call :=
  [.nodes [⟨10⟩, ⟨20⟩], .relationship ⟨10⟩ ⟨10⟩, .relationship ⟨20⟩ ⟨10⟩]

theorem exists_loopedPair :
    ∃ projection, (ofCalls loopedPair).build = .ok projection ∧
      projection.Readable 0 .outgoing ∧ projection.Readable 1 .outgoing ∧
        projection.stored 0 .outgoing = [0] ∧ projection.stored 1 .outgoing = [0] ∧
          Graph.degree projection 0 .outgoing = .ok (some 1) ∧
            Graph.degree projection 1 .outgoing = .ok (some 1) := by
  have hcard : (ofCalls loopedPair).ids.card = 2 := by decide
  have hkeys : (ofCalls loopedPair).columnTypes.keys.length = 0 := by decide
  obtain ⟨projection, hbuild, haddressable⟩ :=
    (ofCalls loopedPair).exists_addressable_of_small (by decide) (by decide) (by decide)
      (by rw [hcard, hkeys]; decide)
  have hreadable0 : projection.Readable 0 .outgoing :=
    readable_of_build hbuild (by decide) (by decide)
  have hreadable1 : projection.Readable 1 .outgoing :=
    readable_of_build hbuild (by decide) (by decide)
  have hstored0 : projection.stored 0 .outgoing = [0] :=
    haddressable.stored_ofCalls hbuild hreadable0
  have hstored1 : projection.stored 1 .outgoing = [0] :=
    haddressable.stored_ofCalls hbuild hreadable1
  refine ⟨projection, hbuild, hreadable0, hreadable1, hstored0, hstored1, ?_, ?_⟩
  · rw [haddressable.degree_eq hbuild hreadable0, hstored0]
    rfl
  · rw [haddressable.degree_eq hbuild hreadable1, hstored1]
    rfl

theorem mem_commonNeighbors_comm_iff_of_loopedPair :
    ∃ projection, (ofCalls loopedPair).build = .ok projection ∧
      projection.Readable 0 .outgoing ∧ projection.Readable 1 .outgoing ∧
        ¬ ∀ node, node ∈ (Graph.commonNeighbors projection 0 1 .outgoing).entries ↔
          node ∈ (Graph.commonNeighbors projection 1 0 .outgoing).entries := by
  obtain ⟨projection, hbuild, hreadable0, hreadable1, hstored0, hstored1, hdegree0, hdegree1⟩ :=
    exists_loopedPair
  refine ⟨projection, hbuild, hreadable0, hreadable1, ?_⟩
  rw [(mem_commonNeighbors_comm_iff hreadable0 hreadable1).1]
  simp [hdegree0, hdegree1, Shared, hstored0, hstored1]

/-- Given in one order, a node that is its own neighbour is reported; in the other it is not. -/
theorem commonNeighbors_not_comm_of_loop :
    ∃ projection, (ofCalls loopedPair).build = .ok projection ∧
      projection.Readable 0 .outgoing ∧ projection.Readable 1 .outgoing ∧
        (Graph.commonNeighbors projection 0 1 .outgoing).entries = [0] ∧
          (Graph.commonNeighbors projection 1 0 .outgoing).entries = [] := by
  obtain ⟨projection, hbuild, hreadable0, hreadable1, hstored0, hstored1, hdegree0, hdegree1⟩ :=
    exists_loopedPair
  refine ⟨projection, hbuild, hreadable0, hreadable1, ?_, ?_⟩
  · rw [commonNeighbors_eq hreadable0 hreadable1 hdegree0 hdegree1]
    simp [Reading.complete, reported, sides, hstored0, hstored1]
  · rw [commonNeighbors_eq hreadable1 hreadable0 hdegree1 hdegree0]
    simp [Reading.complete, reported, sides, hstored0, hstored1]

/-! ## Failures -/

theorem commonNeighbors_eq_interrupted
    (h : ¬ (projection.Readable a direction ∧ projection.Readable b direction)) :
    Graph.commonNeighbors projection a b direction =
      .interrupted (.fault (.directionNotLoaded direction)) := by
  unfold Graph.commonNeighbors
  by_cases ha : projection.Readable a direction
  · obtain ⟨degreeA, hdegreeA⟩ := ha.exists_degree_eq
    rw [hdegreeA, degree_eq_none fun hb ↦ h ⟨ha, hb⟩]
  · rw [degree_eq_none ha]

/-- The fault met first when both nodes are read is that of a direction that is not loaded. -/
theorem orElse_interruption_eq_iff
    (h : ¬ (projection.Readable a direction ∧ projection.Readable b direction)) :
    ((Graph.neighbors projection a direction).interruption <|>
        (Graph.neighbors projection b direction).interruption) =
          some (.fault (.directionNotLoaded direction)) ↔
      a.toNat < projection.nodeCount ∧
        (b.toNat < projection.nodeCount ∨ direction ∉ projection.loadDirection.served) := by
  by_cases ha : projection.Readable a direction
  · have hb : ¬ projection.Readable b direction := fun hb ↦ h ⟨ha, hb⟩
    rw [ha.neighbors_eq, neighbors_eq_interrupted hb]
    simp [Reading.complete, Reading.interrupted, faultOf, ha.1, ha.2]
  · rw [neighbors_eq_interrupted ha]
    unfold Readable at ha
    simp [Reading.interrupted, faultOf]
    tauto

/--
Common neighbours are reported exactly if both nodes can be read. If not, none is reported and the
fault is that of a direction that is not loaded, which is the fault met first when the nodes are
read only if the first one is in range and, in a direction that is loaded, the second one too.
-/
theorem interruption_commonNeighbors (projection : Projection) (a b : Slot)
    (direction : Direction) :
    ((Graph.commonNeighbors projection a b direction).interruption = none ↔
      (Graph.neighbors projection a direction).interruption = none ∧
        (Graph.neighbors projection b direction).interruption = none) ∧
    ((Graph.commonNeighbors projection a b direction).interruption ≠ none →
      Graph.commonNeighbors projection a b direction =
        .interrupted (.fault (.directionNotLoaded direction)) ∧
      ((Graph.commonNeighbors projection a b direction).interruption =
          ((Graph.neighbors projection a direction).interruption <|>
            (Graph.neighbors projection b direction).interruption) ↔
        a.toNat < projection.nodeCount ∧
          (b.toNat < projection.nodeCount ∨ direction ∉ projection.loadDirection.served))) := by
  rw [interruption_neighbors_eq_none_iff, interruption_neighbors_eq_none_iff]
  by_cases h : projection.Readable a direction ∧ projection.Readable b direction
  · obtain ⟨degreeA, degreeB, _, _, hcommon⟩ := exists_commonNeighbors_eq h.1 h.2
    rw [hcommon]
    exact ⟨iff_of_true rfl h, fun hfailed ↦ absurd rfl hfailed⟩
  · rw [commonNeighbors_eq_interrupted h]
    refine ⟨iff_of_false (by simp [Reading.interrupted]) h, fun _ ↦ ⟨rfl, ?_⟩⟩
    rw [← orElse_interruption_eq_iff h]
    exact eq_comm

/-- Two nodes with a relationship from the first to the second. -/
def outgoingPair : List Call :=
  [.nodes [⟨10⟩, ⟨20⟩], .relationship ⟨10⟩ ⟨20⟩]

/-- A node out of range is reported as a direction that is not loaded, though it is. -/
theorem commonNeighbors_of_missing_node :
    ∃ projection, (ofCalls outgoingPair).build = .ok projection ∧
      .outgoing ∈ projection.loadDirection.served ∧
        (Graph.neighbors projection 0 .outgoing).interruption = none ∧
          (Graph.neighbors projection 5 .outgoing).interruption =
              some (.fault (.nodeOutOfRange 5 2)) ∧
            (Graph.commonNeighbors projection 0 5 .outgoing).interruption =
              some (.fault (.directionNotLoaded .outgoing)) := by
  have hcard : (ofCalls outgoingPair).ids.card = 2 := by decide
  have hkeys : (ofCalls outgoingPair).columnTypes.keys.length = 0 := by decide
  obtain ⟨projection, hbuild, _⟩ :=
    (ofCalls outgoingPair).exists_addressable_of_small (by decide) (by decide) (by decide)
      (by rw [hcard, hkeys]; decide)
  have hnodes : projection.nodeCount = 2 := (nodeCount_of_build hbuild).trans hcard
  have hreadable : projection.Readable 0 .outgoing :=
    readable_of_build hbuild (by decide) (by decide)
  have hmissing : ¬ projection.Readable 5 .outgoing := by
    rintro ⟨hnode, _⟩
    rw [hnodes] at hnode
    exact absurd hnode (by decide)
  refine ⟨projection, hbuild, hreadable.2, ?_, ?_, ?_⟩
  · exact interruption_neighbors_eq_none_iff.mpr hreadable
  · rw [neighbors_eq_interrupted hmissing, faultOf, hnodes]
    rfl
  · rw [commonNeighbors_eq_interrupted fun h ↦ hmissing h.2]
    rfl

end WeakComponents.Projection
