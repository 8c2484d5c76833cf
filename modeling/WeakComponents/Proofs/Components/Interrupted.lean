import WeakComponents.Proofs.Components.Causes
import WeakComponents.Proofs.Components.Schedule

/-!
# Interrupted runs

A run has a result just if every reading completes. Otherwise it ends with the error of the first
batch in which a reading is interrupted, made of the first interruption there; what could have been
read behind that interruption plays no part.
-/

namespace WeakComponents.Components

variable {G : Type} [Graph G] {threads : Threads} {graph : G} {config : Config}
  {seeds : Option (Array (Option UInt64))} {followed : Slot → Reading Slot} {count : ℕ}
  {batch : NodeBatch} {node slot : Slot} {interruption : Interruption} {error : RunError}

theorem exists_mem_workBatches_iff (hcount : Graph.nodeCount graph ≤ slotLimit) :
    (∃ batch ∈ workBatches graph config, slot ∈ batch.toList) ↔
      slot.toNat < Graph.nodeCount graph :=
  NodeBatch.mem_partition_iff hcount

theorem lt_of_mem_workBatches (hcount : Graph.nodeCount graph ≤ slotLimit)
    (hbatch : batch ∈ workBatches graph config) (hslot : slot ∈ batch.toList) :
    slot.toNat < Graph.nodeCount graph :=
  (exists_mem_workBatches_iff hcount).mp ⟨batch, hbatch, hslot⟩

/-- The error of a batch in which a reading is interrupted. -/
def errorOf? (followed : Slot → Reading Slot) (batch : NodeBatch) : Option RunError :=
  (firstInterruption followed batch.toList).map (RunError.ofInterruption batch)

theorem errorOf?_eq_none_iff :
    errorOf? followed batch = none ↔ ∀ slot ∈ batch.toList, (followed slot).interruption = none := by
  rw [errorOf?, Option.map_eq_none_iff, firstInterruption_eq_none_iff]

theorem failure?_outcomeOf (batch : NodeBatch) (first : Option Interruption) :
    Dispatch.failure? RunError.ofWorkerFault batch (outcomeOf batch first) =
      first.map (RunError.ofInterruption batch) := by
  rcases first with _ | (_ | _) <;> rfl

theorem uniteBatch_eq (hdelivers : DeliversWithin followed count) {forest : UnionFind}
    (h : forest.Ordered) (hsize : forest.size = count)
    (hslots : ∀ slot ∈ batch.toList, slot.toNat < count) :
    (uniteBatch followed forest batch).2 =
        outcomeOf batch (firstInterruption followed batch.toList) ∧
      (uniteBatch followed forest batch).1.Ordered ∧
        (uniteBatch followed forest batch).1.size = count := by
  have hread : ∀ slot ∈ traversed followed batch.toList, slot.toNat < count :=
    fun slot hslot ↦ hslots slot (mem_of_mem_traversed hslot)
  have hpairs : UnionFind.PairsBelow forest.size
      (pairsFrom followed (traversed followed batch.toList)) :=
    hsize ▸ pairsBelow_pairsFrom hdelivers hread
  rw [uniteBatch, uniteNodes_eq hdelivers batch h hsize hslots]
  exact ⟨rfl, h.mergeAll hpairs, (UnionFind.size_mergeAll _ _).trans hsize⟩

/-- A run ends with the error of the first batch that has one. -/
theorem execute_eq_error (hthreads : threads.Offers config.concurrency.toNat)
    (h : Admissible (Graph.nodeCount graph) seeds)
    (hdelivers : DeliversWithin followed (Graph.nodeCount graph))
    (herror : (workBatches graph config).findSome? (errorOf? followed) = some error) :
    execute threads graph config seeds followed = .error error := by
  have hsize : (originOf (Graph.nodeCount graph) seeds).forest.size = Graph.nodeCount graph := by
    rw [h.valid.size_forest, h.size_originOf]
  have htask : ∀ batch ∈ workBatches graph config, ∀ forest : UnionFind,
      forest.Ordered ∧ forest.size = Graph.nodeCount graph →
        (uniteBatch followed forest batch).2 =
            outcomeOf batch (firstInterruption followed batch.toList) ∧
          (uniteBatch followed forest batch).1.Ordered ∧
            (uniteBatch followed forest batch).1.size = Graph.nodeCount graph :=
    fun batch hbatch forest hforest ↦ uniteBatch_eq hdelivers hforest.1 hforest.2
      fun slot hslot ↦ lt_of_mem_workBatches h.count_le hbatch hslot
  have hfailure : ((workBatches graph config).findSome? fun batch ↦
      Dispatch.failure? RunError.ofWorkerFault batch
        (outcomeOf batch (firstInterruption followed batch.toList))) = some error := by
    simp only [failure?_outcomeOf]
    exact herror
  rw [execute_eq_error_iff, worked_of_offers hthreads, start_fst]
  exact Dispatch.runStarted_of_findSome? _ _ ⟨h.valid.ordered_forest, hsize⟩ htask hfailure

/-- A run has a result just if no reading is interrupted. -/
theorem exists_execute_eq_ok_iff (hthreads : threads.Offers config.concurrency.toNat)
    (h : Admissible (Graph.nodeCount graph) seeds)
    (hdelivers : DeliversWithin followed (Graph.nodeCount graph)) :
    (∃ result, execute threads graph config seeds followed = .ok result) ↔
      ∀ slot, slot.toNat < Graph.nodeCount graph → (followed slot).interruption = none := by
  constructor
  · rintro ⟨result, hresult⟩ slot hslot
    obtain ⟨batch, hbatch, hmem⟩ := (exists_mem_workBatches_iff h.count_le).mpr hslot
    have hnone : (workBatches graph config).findSome? (errorOf? followed) = none := by
      cases herror : (workBatches graph config).findSome? (errorOf? followed) with
      | none => rfl
      | some error =>
        rw [execute_eq_error hthreads h hdelivers herror] at hresult
        cases hresult
    exact errorOf?_eq_none_iff.mp (List.findSome?_eq_none_iff.mp hnone batch hbatch) slot hmem
  · intro hcomplete
    have hreads : ReadsWithin followed (Graph.nodeCount graph) :=
      fun slot hslot ↦ ⟨hcomplete slot hslot, hdelivers slot hslot⟩
    exact ⟨_, execute_eq_of_readsWithin hthreads graph h hreads⟩

/-- A run is through with its batches just if every reading completes; otherwise it has failed. -/
theorem current_course_eq_completed_iff (hthreads : threads.Offers config.concurrency.toNat)
    (h : Admissible (Graph.nodeCount graph) seeds)
    (hdelivers : DeliversWithin followed (Graph.nodeCount graph)) :
    (course threads graph config seeds followed).lifecycle.current = .completed ↔
      ∀ slot, slot.toNat < Graph.nodeCount graph → (followed slot).interruption = none := by
  rw [← exists_execute_eq_ok_iff hthreads h hdelivers]
  obtain ⟨error, hend, hcurrent⟩ | ⟨result, hend, hcurrent⟩ :=
    current_course threads graph config seeds followed
  · rw [hend, hcurrent]
    exact iff_of_false (by simp) (by simp)
  · exact iff_of_true hcurrent ⟨result, hend⟩

theorem ne_none_of_visitEntries_eq_false {source : Slot} {entries : List Slot}
    {state : UnionFind × Option OutOfBounds}
    (h : (Reading.visitEntries (uniteStep source) state entries).2 = false) :
    (Reading.visitEntries (uniteStep source) state entries).1.2 ≠ none := by
  -- only an end out of bounds stops a visit, and it leaves its error behind
  induction entries generalizing state with
  | nil => cases h
  | cons target rest ih =>
    rcases hunion : state.1.union source target with ⟨error | _, forest⟩
    · have hstep : uniteStep source state target = ((forest, some error), false) := by
        rw [uniteStep, hunion]
      rw [Reading.visitEntries, hstep]
      exact Option.some_ne_none error
    · have hstep : uniteStep source state target = ((forest, none), true) := by
        rw [uniteStep, hunion]
      rw [Reading.visitEntries, hstep] at h ⊢
      exact ih h

/-- Whatever a reading delivers before it is interrupted, uniting a node with it is interrupted. -/
theorem uniteNeighbors_ne_none (forest : UnionFind) (source : Slot) {reading : Reading Slot}
    (h : reading.interruption ≠ none) : (uniteNeighbors forest source reading).2 ≠ none := by
  have hstopped := @ne_none_of_visitEntries_eq_false source reading.entries (forest, none)
  unfold uniteNeighbors Reading.visit
  rcases hvisit : Reading.visitEntries (uniteStep source) (forest, none) reading.entries with
    ⟨⟨_, _ | _⟩, _ | _⟩
  · rw [hvisit] at hstopped
    exact absurd rfl (hstopped rfl)
  · exact h
  · exact Option.some_ne_none _
  · exact Option.some_ne_none _

/-- A task that comes to an interrupted reading does not read the slots behind it. -/
theorem uniteNodes_cons_of_interrupted (hfails : (followed node).interruption ≠ none)
    (forest : UnionFind) (after : List Slot) :
    uniteNodes followed batch forest (node :: after) =
      uniteNodes followed batch forest [node] := by
  have hinterrupted := uniteNeighbors_ne_none forest node hfails
  rw [uniteNodes, uniteNodes]
  rcases huniting : uniteNeighbors forest node (followed node) with ⟨_, _ | (_ | _)⟩
  · rw [huniting] at hinterrupted
    exact absurd rfl hinterrupted
  · rfl
  · rfl

theorem uniteNodes_append_congr {followed' : Slot → Reading Slot} {before after : List Slot}
    (hbefore : ∀ slot ∈ before, followed' slot = followed slot)
    (hafter : ∀ forest, uniteNodes followed' batch forest after =
      uniteNodes followed batch forest after) (forest : UnionFind) :
    uniteNodes followed' batch forest (before ++ after) =
      uniteNodes followed batch forest (before ++ after) := by
  induction before generalizing forest with
  | nil => exact hafter forest
  | cons slot rest ih =>
    obtain ⟨hslot, hrest⟩ := List.forall_mem_cons.mp hbefore
    rw [List.cons_append, uniteNodes, uniteNodes, hslot]
    rcases uniteNeighbors forest slot (followed slot) with ⟨forest, _ | (_ | _)⟩
    · exact ih hrest forest
    · rfl
    · rfl

theorem uniteNodes_congr {followed' : Slot → Reading Slot} {slots : List Slot}
    (h : ∀ slot ∈ slots, followed' slot = followed slot) (forest : UnionFind) :
    uniteNodes followed' batch forest slots = uniteNodes followed batch forest slots := by
  rw [← List.append_nil slots]
  exact uniteNodes_append_congr h (fun _ ↦ rfl) forest

theorem execute_congr (threads : Threads) {H : Type} [Graph H] {other : H}
    {followed' : Slot → Reading Slot} (hnodes : Graph.nodeCount other = Graph.nodeCount graph)
    (h : ∀ batch ∈ workBatches graph config, ∀ forest,
      uniteBatch followed' forest batch = uniteBatch followed forest batch) :
    execute threads other config seeds followed' = execute threads graph config seeds followed := by
  have hbatches : workBatches other config = workBatches graph config := by
    unfold workBatches Graph.batches
    rw [hnodes]
  have hworked : worked threads other config seeds followed' =
      worked threads graph config seeds followed := by
    unfold worked
    rw [hbatches, hnodes]
    exact Dispatch.runBatches_congr threads _ _ _ h
  rw [execute_eq_map, execute_eq_map, hworked, hnodes]

/-- All readings of slots below a count that are interrupted are those of slots in one batch, and
a node is the first of these slots. -/
structure FailsFirst (followed : Slot → Reading Slot) (count : ℕ) (batch : NodeBatch) (node : Slot)
    (interruption : Interruption) : Prop where
  contains_of_ne_none : ∀ slot, slot.toNat < count → (followed slot).interruption ≠ none →
    batch.contains slot = true
  isLeast : IsLeast {slot | slot.toNat < count ∧ (followed slot).interruption ≠ none} node
  interruption_eq : (followed node).interruption = some interruption

/-- If nodes fail at all, and only nodes of one batch, one of them is the first. -/
theorem exists_failsFirst
    (hfails : ∃ slot : Slot, slot.toNat < count ∧ (followed slot).interruption ≠ none)
    (hwithin : ∀ slot : Slot, slot.toNat < count → (followed slot).interruption ≠ none →
      batch.contains slot = true) :
    ∃ node interruption, FailsFirst followed count batch node interruption := by
  obtain ⟨node, hnode, hleast⟩ := (measure UInt32.toNat).wf.has_min
    {slot : Slot | slot.toNat < count ∧ (followed slot).interruption ≠ none} hfails
  obtain ⟨interruption, hinterruption⟩ := Option.ne_none_iff_exists'.mp hnode.2
  refine ⟨node, interruption, hwithin, ⟨hnode, fun slot hslot ↦ ?_⟩, hinterruption⟩
  exact UInt32.le_iff_toNat_le.mpr (Nat.le_of_not_lt (hleast slot hslot))

theorem FailsFirst.mem_toList (h : FailsFirst followed count batch node interruption) :
    node ∈ batch.toList :=
  NodeBatch.mem_toList.mpr (h.contains_of_ne_none node h.isLeast.1.1 h.isLeast.1.2)

/-- The batch reads its slots below the node, all completely, and then the node. -/
theorem FailsFirst.toList_eq (h : FailsFirst followed count batch node interruption) :
    ∃ before after, batch.toList = before ++ node :: after ∧
      (∀ slot ∈ before, slot < node ∧ (followed slot).interruption = none) ∧
        ∀ slot ∈ after, node < slot := by
  obtain ⟨before, after, heq⟩ := List.append_of_mem h.mem_toList
  have hascending := batch.pairwise_toList
  rw [heq, List.pairwise_append, List.pairwise_cons] at hascending
  obtain ⟨_, ⟨hafter, _⟩, hbefore⟩ := hascending
  refine ⟨before, after, heq, fun slot hslot ↦ ?_, hafter⟩
  have hlt : slot < node := hbefore slot hslot node List.mem_cons_self
  refine ⟨hlt, ?_⟩
  by_contra hfails
  have hcount : slot.toNat < count := (UInt32.lt_iff_toNat_lt.mp hlt).trans h.isLeast.1.1
  exact absurd hlt (UInt32.not_lt.mpr (h.isLeast.2 ⟨hcount, hfails⟩))

theorem FailsFirst.firstInterruption_eq (h : FailsFirst followed count batch node interruption) :
    firstInterruption followed batch.toList = some interruption := by
  obtain ⟨before, after, heq, hbefore, _⟩ := h.toList_eq
  have hnone : firstInterruption followed before = none :=
    firstInterruption_eq_none_iff.mpr fun slot hslot ↦ (hbefore slot hslot).2
  unfold firstInterruption at hnone ⊢
  rw [heq, List.findSome?_append, hnone, List.findSome?_cons, h.interruption_eq]
  rfl

theorem FailsFirst.not_lt_of_mem_traversed (h : FailsFirst followed count batch node interruption)
    (hslot : slot ∈ traversed followed batch.toList) : ¬ node < slot := by
  obtain ⟨before, after, heq, hbefore, _⟩ := h.toList_eq
  have htraversed : traversed followed batch.toList = before ++ [node] := by
    rw [heq, traversed_append _ fun slot hslot ↦ (hbefore slot hslot).2, traversed,
      h.interruption_eq]
  rw [htraversed, List.mem_append, List.mem_singleton] at hslot
  rcases hslot with hslot | rfl
  · exact UInt32.lt_asymm (hbefore slot hslot).1
  · exact UInt32.lt_irrefl slot

section

variable (h : FailsFirst followed (Graph.nodeCount graph) batch node interruption)
  (hcount : Graph.nodeCount graph ≤ slotLimit) (hbatch : batch ∈ workBatches graph config)

include h hcount hbatch

theorem FailsFirst.eq_of_errorOf?_eq_some {other : NodeBatch}
    (hother : other ∈ workBatches graph config) (herror : errorOf? followed other = some error) :
    other = batch := by
  have hfails : ¬ ∀ slot ∈ other.toList, (followed slot).interruption = none := by
    rw [← errorOf?_eq_none_iff, herror]
    exact Option.some_ne_none _
  push Not at hfails
  obtain ⟨slot, hslot, hne⟩ := hfails
  have hwithin := h.contains_of_ne_none slot (lt_of_mem_workBatches hcount hother hslot) hne
  exact NodeBatch.eq_of_mem_toList hcount hother hbatch hslot (NodeBatch.mem_toList.mpr hwithin)

theorem FailsFirst.errorOf?_eq_some_iff {other : NodeBatch}
    (hother : other ∈ workBatches graph config) :
    errorOf? followed other = some error ↔
      other = batch ∧ RunError.ofInterruption batch interruption = error := by
  constructor
  · intro herror
    obtain rfl := h.eq_of_errorOf?_eq_some hcount hbatch hother herror
    rw [errorOf?, h.firstInterruption_eq] at herror
    exact ⟨rfl, Option.some.inj herror⟩
  · rintro ⟨rfl, rfl⟩
    rw [errorOf?, h.firstInterruption_eq]
    rfl

theorem FailsFirst.findSome?_errorOf? :
    (workBatches graph config).findSome? (errorOf? followed) =
      some (RunError.ofInterruption batch interruption) := by
  have hfound : errorOf? followed batch = some (RunError.ofInterruption batch interruption) :=
    (h.errorOf?_eq_some_iff hcount hbatch hbatch).mpr ⟨rfl, rfl⟩
  -- only this batch has an error, so the first error found is its own
  cases herror : (workBatches graph config).findSome? (errorOf? followed) with
  | none =>
    rw [List.findSome?_eq_none_iff.mp herror batch hbatch] at hfound
    cases hfound
  | some error =>
    obtain ⟨other, hother, hsome⟩ := List.exists_of_findSome?_eq_some herror
    rw [((h.errorOf?_eq_some_iff hcount hbatch hother).mp hsome).2]

/-- Behind the node nothing of its batch is read: whatever a graph has there, a task on any batch of
the run does the same and ends alike. -/
theorem FailsFirst.uniteBatch_eq_of_same {followed' : Slot → Reading Slot}
    (hsame : ∀ slot, ¬ (batch.contains slot = true ∧ node < slot) → followed' slot = followed slot)
    {work : NodeBatch} (hwork : work ∈ workBatches graph config) (forest : UnionFind) :
    uniteBatch followed' forest work = uniteBatch followed forest work := by
  by_cases heq : work = batch
  · obtain ⟨before, after, hlist, hbefore, _⟩ := h.toList_eq
    have hnode : followed' node = followed node :=
      hsame node fun hbehind ↦ UInt32.lt_irrefl node hbehind.2
    have hfails := h.isLeast.1.2
    subst heq
    rw [uniteBatch, uniteBatch, hlist]
    apply uniteNodes_append_congr
    · intro slot hslot
      exact hsame slot fun hbehind ↦ UInt32.lt_asymm hbehind.2 (hbefore slot hslot).1
    · intro forest
      rw [uniteNodes_cons_of_interrupted (hnode ▸ hfails), uniteNodes_cons_of_interrupted hfails]
      exact uniteNodes_congr (by simpa using hnode) forest
  · apply uniteNodes_congr
    intro slot hslot
    refine hsame slot fun hbehind ↦ heq ?_
    exact NodeBatch.eq_of_mem_toList hcount hwork hbatch hslot (NodeBatch.mem_toList.mpr hbehind.1)

end

end WeakComponents.Components
