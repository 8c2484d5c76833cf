import WeakComponents.Proofs.Batches
import WeakComponents.Proofs.Components.Course

/-!
# Following relationships

When every reading completes within the slots of the graph, no task of a run fails: the run unites
each node with the neighbours it reads, in the order of the slots, and settles on the forest that
is left. The number of workers and the size of the batches do not show in the result.
-/

namespace WeakComponents.Components

open UnionFind (PairsBelow)

/-- Every reading of a slot below a count delivers slots below it, whether or not it completes. -/
def DeliversWithin (followed : Slot → Reading Slot) (count : ℕ) : Prop :=
  ∀ slot, slot.toNat < count → ∀ target ∈ (followed slot).entries, target.toNat < count

/-- Every reading of a slot below a count completes and delivers slots below it. -/
def ReadsWithin (followed : Slot → Reading Slot) (count : ℕ) : Prop :=
  ∀ slot, slot.toNat < count →
    (followed slot).interruption = none ∧ ∀ target ∈ (followed slot).entries, target.toNat < count

/-- What interrupts the readings of slots first. -/
def firstInterruption (followed : Slot → Reading Slot) (slots : List Slot) : Option Interruption :=
  slots.findSome? fun slot ↦ (followed slot).interruption

/-- The slots that are read, up to the first one whose reading is interrupted. -/
def traversed (followed : Slot → Reading Slot) : List Slot → List Slot
  | [] => []
  | slot :: rest =>
    match (followed slot).interruption with
    | none => slot :: traversed followed rest
    | some _ => [slot]

/-- The slots with the neighbours that their readings deliver. -/
def pairsFrom (followed : Slot → Reading Slot) (slots : List Slot) : List (Slot × Slot) :=
  slots.flatMap fun slot ↦ (followed slot).entries.map fun target ↦ (slot, target)

variable {followed : Slot → Reading Slot} {count : ℕ} {forest : UnionFind}

theorem mem_pairsFrom {slots : List Slot} {source target : Slot} :
    (source, target) ∈ pairsFrom followed slots ↔
      source ∈ slots ∧ target ∈ (followed source).entries := by
  simp [pairsFrom]

theorem ReadsWithin.delivers (h : ReadsWithin followed count) : DeliversWithin followed count :=
  fun slot hslot ↦ (h slot hslot).2

theorem pairsBelow_pairsFrom (hdelivers : DeliversWithin followed count) {slots : List Slot}
    (hslots : ∀ slot ∈ slots, slot.toNat < count) :
    PairsBelow count (pairsFrom followed slots) := by
  rintro ⟨source, target⟩ hpair
  obtain ⟨hsource, htarget⟩ := mem_pairsFrom.mp hpair
  exact ⟨hslots source hsource, hdelivers source (hslots source hsource) target htarget⟩

theorem traversed_append {before : List Slot} (rest : List Slot)
    (h : ∀ slot ∈ before, (followed slot).interruption = none) :
    traversed followed (before ++ rest) = before ++ traversed followed rest := by
  induction before with
  | nil => rfl
  | cons slot before ih =>
    obtain ⟨hslot, hbefore⟩ := List.forall_mem_cons.mp h
    rw [List.cons_append, traversed, hslot, ih hbefore, List.cons_append]

theorem traversed_eq_self {slots : List Slot}
    (h : ∀ slot ∈ slots, (followed slot).interruption = none) : traversed followed slots = slots := by
  simpa [traversed] using traversed_append [] h

theorem mem_of_mem_traversed {slots : List Slot} {slot : Slot}
    (h : slot ∈ traversed followed slots) : slot ∈ slots := by
  induction slots with
  | nil => exact h
  | cons first rest ih =>
    rw [traversed] at h
    cases hfirst : (followed first).interruption with
    | none =>
      rw [hfirst] at h
      exact List.mem_cons.mpr ((List.mem_cons.mp h).imp id ih)
    | some interruption =>
      rw [hfirst] at h
      exact List.mem_cons.mpr ((List.mem_cons.mp h).imp id fun hnil ↦ absurd hnil List.not_mem_nil)

theorem firstInterruption_eq_none_iff {slots : List Slot} :
    firstInterruption followed slots = none ↔
      ∀ slot ∈ slots, (followed slot).interruption = none :=
  List.findSome?_eq_none_iff

theorem visitEntries_uniteStep (h : forest.Ordered) {source : Slot} {entries : List Slot}
    (hsource : source.toNat < forest.size)
    (hentries : ∀ target ∈ entries, target.toNat < forest.size) :
    Reading.visitEntries (uniteStep source) (forest, none) entries =
      ((forest.mergeAll (entries.map fun target ↦ (source, target)), none), true) := by
  induction entries generalizing forest with
  | nil => rfl
  | cons target rest ih =>
    obtain ⟨htarget, hrest⟩ := List.forall_mem_cons.mp hentries
    have hstep : uniteStep source (forest, none) target =
        ((forest.merge source target, none), true) := by
      simp only [uniteStep, h.union_eq hsource htarget]
    rw [Reading.visitEntries, hstep]
    dsimp only
    rw [ih (h.merge hsource htarget) (by rwa [UnionFind.size_merge])
      (by simpa only [UnionFind.size_merge] using hrest), List.map_cons, UnionFind.mergeAll_cons]

theorem uniteNeighbors_eq (h : forest.Ordered) {source : Slot} {reading : Reading Slot}
    (hsource : source.toNat < forest.size)
    (hentries : ∀ target ∈ reading.entries, target.toNat < forest.size) :
    uniteNeighbors forest source reading =
      (forest.mergeAll (reading.entries.map fun target ↦ (source, target)),
        reading.interruption) := by
  unfold uniteNeighbors Reading.visit
  rw [visitEntries_uniteStep h hsource hentries]

/-- How a task ends on a batch whose readings are interrupted in some way first, if at all. -/
def outcomeOf (batch : NodeBatch) : Option Interruption → TaskOutcome RunError
  | none => .done
  | some (.fault fault) => .failed (.storage batch fault)
  | some (.panic value) => .panicked value

/-- A task unites each slot that it reads with the neighbours it is given, and ends with the first
interruption. -/
theorem uniteNodes_eq (hdelivers : DeliversWithin followed count) (batch : NodeBatch)
    (h : forest.Ordered) (hsize : forest.size = count) {slots : List Slot}
    (hslots : ∀ slot ∈ slots, slot.toNat < count) :
    uniteNodes followed batch forest slots =
      (forest.mergeAll (pairsFrom followed (traversed followed slots)),
        outcomeOf batch (firstInterruption followed slots)) := by
  induction slots generalizing forest with
  | nil => rfl
  | cons slot rest ih =>
    obtain ⟨hslot, hrest⟩ := List.forall_mem_cons.mp hslots
    have hsingle : pairsFrom followed [slot] =
        (followed slot).entries.map fun target ↦ (slot, target) := List.flatMap_singleton _ _
    have hpairs : PairsBelow forest.size (pairsFrom followed [slot]) :=
      hsize ▸ pairsBelow_pairsFrom hdelivers (by simpa using hslot)
    rw [hsingle] at hpairs
    rw [uniteNodes, uniteNeighbors_eq h (hsize ▸ hslot) (hsize ▸ hdelivers slot hslot), traversed,
      firstInterruption, List.findSome?_cons]
    cases (followed slot).interruption with
    | none =>
      dsimp only
      rw [ih (h.mergeAll hpairs) (by rw [UnionFind.size_mergeAll, hsize]) hrest,
        ← UnionFind.mergeAll_append]
      rfl
    | some interruption =>
      rw [hsingle]
      cases interruption <;> rfl

/-- Over complete readings all tasks are done, and they unite what one would unite on all slots. -/
theorem allDone_uniteBatch (hreads : ReadsWithin followed count) (h : forest.Ordered)
    (hsize : forest.size = count) {batches : List NodeBatch}
    (hbatches : ∀ slot ∈ batches.flatMap NodeBatch.toList, slot.toNat < count) :
    Dispatch.AllDone (uniteBatch followed) forest batches ∧
      Dispatch.stateAfter (uniteBatch followed) forest batches =
        forest.mergeAll (pairsFrom followed (batches.flatMap NodeBatch.toList)) := by
  induction batches generalizing forest with
  | nil => exact ⟨Dispatch.allDone_nil, rfl⟩
  | cons batch rest ih =>
    rw [List.flatMap_cons, List.forall_mem_append] at hbatches
    obtain ⟨hslots, hrest⟩ := hbatches
    have hcomplete : ∀ slot ∈ batch.toList, (followed slot).interruption = none :=
      fun slot hslot ↦ (hreads slot (hslots slot hslot)).1
    have hpairs : PairsBelow forest.size (pairsFrom followed batch.toList) :=
      hsize ▸ pairsBelow_pairsFrom hreads.delivers hslots
    have hbatch : uniteBatch followed forest batch =
        (forest.mergeAll (pairsFrom followed batch.toList), .done) := by
      rw [uniteBatch, uniteNodes_eq hreads.delivers batch h hsize hslots,
        traversed_eq_self hcomplete, firstInterruption_eq_none_iff.mpr hcomplete]
      rfl
    obtain ⟨hdone, hunited⟩ := ih (h.mergeAll hpairs)
      ((UnionFind.size_mergeAll _ _).trans hsize) hrest
    have hnext : (uniteBatch followed forest batch).1 =
        forest.mergeAll (pairsFrom followed batch.toList) := by rw [hbatch]
    refine ⟨Dispatch.allDone_cons.mpr ⟨by rw [hbatch], hnext ▸ hdone⟩, ?_⟩
    calc
      Dispatch.stateAfter (uniteBatch followed) forest (batch :: rest) =
          Dispatch.stateAfter (uniteBatch followed)
            (forest.mergeAll (pairsFrom followed batch.toList)) rest :=
        congrArg (fun forest ↦ Dispatch.stateAfter (uniteBatch followed) forest rest) hnext
      _ = forest.mergeAll (pairsFrom followed ((batch :: rest).flatMap NodeBatch.toList)) := by
        rw [hunited, ← UnionFind.mergeAll_append, List.flatMap_cons]
        simp only [pairsFrom, List.flatMap_append]

/-- A run over complete readings settles the forest that unites every node with its neighbours. -/
theorem execute_eq {G : Type} [Graph G] {threads : Threads} {config : Config}
    (hthreads : threads.Offers config.concurrency.toNat) (graph : G)
    (seeds : Option (Array (Option UInt64))) {offset : UInt64}
    (hstart : start (Graph.nodeCount graph) seeds = (forest, offset)) (h : forest.Ordered)
    (hsize : forest.size = Graph.nodeCount graph) (hcount : Graph.nodeCount graph ≤ slotLimit)
    (hreads : ReadsWithin followed (Graph.nodeCount graph)) :
    execute threads graph config seeds followed =
      .ok (conclude (forest.mergeAll (pairsFrom followed (slotsBelow (Graph.nodeCount graph))))
        offset config.minComponentSize) := by
  have hcover : (workBatches graph config).flatMap NodeBatch.toList =
      slotsBelow (Graph.nodeCount graph) := NodeBatch.flatMap_toList_partition hcount _
  have hbelow : ∀ slot ∈ (workBatches graph config).flatMap NodeBatch.toList,
      slot.toNat < Graph.nodeCount graph := fun slot hslot ↦
    (mem_slotsBelow hcount).mp (hcover ▸ hslot)
  obtain ⟨hdone, hunited⟩ := allDone_uniteBatch hreads h hsize hbelow
  rw [execute_eq_ok_iff, worked_of_offers hthreads, hstart,
    Dispatch.runStarted_of_allDone _ _ hdone, hunited, hcover]
  exact ⟨⟨_, rfl⟩, rfl⟩

end WeakComponents.Components
