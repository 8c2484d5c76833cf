import WeakComponents.Proofs.Components.Interrupted
import WeakComponents.Proofs.UnionFind.Requests

/-!
# Workers that fail

Several workers share out the batches of a run. Each reads the nodes of its batch in order and
unites what it reads; when a reading is interrupted it records the error, which is kept if it is the
first, and gives the batch up. Workers stop once an error is recorded or no batch waits. A worker
looks for an error before it takes a batch, and another one may record its error in between; so a
batch may be taken at any time.
-/

open Relation

namespace WeakComponents.Components

/-- One action of a worker on a batch. -/
inductive Action where
  | read (node : Slot)
  | unite (a b : Slot)
  | fail (error : RunError)

/-- The pair that an action unites. -/
def Action.pair? : Action → Option (Slot × Slot)
  | unite a b => some (a, b)
  | _ => none

/-- The actions of a worker on a batch, up to the first interrupted reading. -/
def actionsOf (followed : Slot → Reading Slot) (batch : NodeBatch) : List Action :=
  ((traversed followed batch.toList).flatMap fun node ↦
    .read node :: (followed node).entries.map (.unite node)) ++
      ((errorOf? followed batch).map .fail).toList

variable {followed : Slot → Reading Slot} {batch : NodeBatch} {node : Slot} {error : RunError}

theorem read_mem_actionsOf :
    .read node ∈ actionsOf followed batch ↔ node ∈ traversed followed batch.toList := by
  simp [actionsOf]

theorem fail_mem_actionsOf :
    .fail error ∈ actionsOf followed batch ↔ errorOf? followed batch = some error := by
  simp [actionsOf]

theorem filterMap_pair?_actionsOf (followed : Slot → Reading Slot) (batch : NodeBatch) :
    (actionsOf followed batch).filterMap Action.pair? =
      pairsFrom followed (traversed followed batch.toList) := by
  have hread (node : Slot) : List.filterMap Action.pair?
      (.read node :: (followed node).entries.map (.unite node)) =
        (followed node).entries.map fun target ↦ (node, target) := by
    rw [List.filterMap_cons, List.filterMap_map, ← List.filterMap_eq_map]
    rfl
  have hfail : ((errorOf? followed batch).map Action.fail).toList.filterMap Action.pair? = [] := by
    cases errorOf? followed batch <;> rfl
  rw [actionsOf, List.filterMap_append, hfail, List.append_nil, List.filterMap_flatMap]
  simp only [hread]
  rfl

/-! ## Steps -/

/-- Workers that share a forest and a slot for the first error: the batches that no worker has
taken, the actions that each worker has left, and the nodes that have been read. -/
structure Crew where
  forest : UnionFind
  waiting : List NodeBatch
  workers : List (List Action)
  faults : FaultSlot RunError
  seen : List Slot

namespace Crew

variable {actions : NodeBatch → List Action} {crew crew' : Crew} {batches : List NodeBatch}

/-- An idle worker takes the next batch, or a busy one does its next action. -/
inductive Step (actions : NodeBatch → List Action) : Crew → Crew → Prop where
  | take (forest : UnionFind) (batch : NodeBatch) (waiting : List NodeBatch)
    (before after : List (List Action)) (faults : FaultSlot RunError) (seen : List Slot) :
    Step actions ⟨forest, batch :: waiting, before ++ [] :: after, faults, seen⟩
      ⟨forest, waiting, before ++ actions batch :: after, faults, seen⟩
  | read (forest : UnionFind) (waiting : List NodeBatch) (node : Slot) (rest : List Action)
    (before after : List (List Action)) (faults : FaultSlot RunError) (seen : List Slot) :
    Step actions ⟨forest, waiting, before ++ (.read node :: rest) :: after, faults, seen⟩
      ⟨forest, waiting, before ++ rest :: after, faults, node :: seen⟩
  | unite (forest : UnionFind) (waiting : List NodeBatch) (a b : Slot) (rest : List Action)
    (before after : List (List Action)) (faults : FaultSlot RunError) (seen : List Slot) :
    Step actions ⟨forest, waiting, before ++ (.unite a b :: rest) :: after, faults, seen⟩
      ⟨(forest.union a b).2, waiting, before ++ rest :: after, faults, seen⟩
  | fail (forest : UnionFind) (waiting : List NodeBatch) (error : RunError) (rest : List Action)
    (before after : List (List Action)) (faults : FaultSlot RunError) (seen : List Slot) :
    Step actions ⟨forest, waiting, before ++ (.fail error :: rest) :: after, faults, seen⟩
      ⟨forest, waiting, before ++ [] :: after, (faults.record error).2, seen⟩

/-- A number of idle workers before any batch is taken. -/
def idle (forest : UnionFind) (batches : List NodeBatch) (workers : ℕ) : Crew :=
  ⟨forest, batches, List.replicate workers [], .empty, []⟩

/-- Every worker has stopped: it has nothing left to do, and no batch waits or an error was
recorded. -/
def Finished (crew : Crew) : Prop :=
  (∀ worker ∈ crew.workers, worker = []) ∧ (crew.waiting = [] ∨ crew.faults.isTripped = true)

/-- The actions that are still to be done if nothing fails. -/
def left (actions : NodeBatch → List Action) (crew : Crew) : List Action :=
  crew.workers.flatten ++ crew.waiting.flatMap actions

/-- The steps that are still to be made if nothing fails. -/
def remaining (actions : NodeBatch → List Action) (crew : Crew) : ℕ :=
  (crew.left actions).length + crew.waiting.length

theorem remaining_lt_of_step (h : Step actions crew crew') :
    crew'.remaining actions < crew.remaining actions := by
  cases h with
  | take forest batch waiting before after faults seen =>
    simp [remaining, left]
    omega
  | read forest waiting node rest before after faults seen => simp [remaining, left]
  | unite forest waiting a b rest before after faults seen => simp [remaining, left]
  | fail forest waiting error rest before after faults seen => simp [remaining, left]

theorem length_workers_of_step (h : Step actions crew crew') :
    crew'.workers.length = crew.workers.length := by
  cases h <;> simp

theorem exists_step_of_not_finished (actions : NodeBatch → List Action)
    (hworkers : 0 < crew.workers.length) (h : ¬ crew.Finished) :
    ∃ next, Step actions crew next := by
  obtain ⟨forest, waiting, workers, faults, seen⟩ := crew
  by_cases hbusy : ∃ worker ∈ workers, worker ≠ []
  · obtain ⟨worker, hmem, hne⟩ := hbusy
    obtain ⟨before, after, rfl⟩ := List.append_of_mem hmem
    obtain ⟨action, rest, rfl⟩ := List.exists_cons_of_ne_nil hne
    cases action with
    | read node => exact ⟨_, .read forest waiting node rest before after faults seen⟩
    | unite a b => exact ⟨_, .unite forest waiting a b rest before after faults seen⟩
    | fail error => exact ⟨_, .fail forest waiting error rest before after faults seen⟩
  · push Not at hbusy
    cases waiting with
    | nil => exact absurd ⟨hbusy, .inl rfl⟩ h
    | cons batch waiting =>
      cases workers with
      | nil => simp at hworkers
      | cons worker workers =>
        obtain rfl : worker = [] := hbusy worker List.mem_cons_self
        exact ⟨_, .take forest batch waiting [] workers faults seen⟩

/-- A crew with workers can always go on until it is finished. -/
theorem exists_finished (hworkers : 0 < crew.workers.length) :
    ∃ last, ReflTransGen (Step actions) crew last ∧ last.Finished :=
  exists_finished_of_progress (remaining actions) (fun _ _ ↦ remaining_lt_of_step)
    (fun _ _ hstep ↦ (length_workers_of_step hstep).symm ▸ id)
    (fun _ ↦ exists_step_of_not_finished actions) hworkers

theorem length_workers_of_reaches (hreach : ReflTransGen (Step actions) crew crew') :
    crew'.workers.length = crew.workers.length := by
  induction hreach with
  | refl => rfl
  | tail _ hstep ih => rw [length_workers_of_step hstep, ih]

/-- What is left for a crew is left for one worker, or for the others and in waiting batches. -/
theorem mem_left_iff {forest : UnionFind} {waiting : List NodeBatch}
    {before after : List (List Action)} {worker : List Action} {faults : FaultSlot RunError}
    {seen : List Slot} {action : Action} :
    action ∈ left actions ⟨forest, waiting, before ++ worker :: after, faults, seen⟩ ↔
      action ∈ worker ∨ action ∈ (before ++ after).flatten ++ waiting.flatMap actions := by
  simp only [left, List.flatten_append, List.flatten_cons, List.mem_append]
  tauto

/-- Whatever is left, has been read or has failed is an action on one of the batches, and as long
as no error is recorded all failing actions are left. -/
structure Accounts (batches : List NodeBatch) (actions : NodeBatch → List Action) (crew : Crew) :
    Prop where
  waiting_subset : crew.waiting ⊆ batches
  left_subset : crew.left actions ⊆ batches.flatMap actions
  read_mem : ∀ node ∈ crew.seen, .read node ∈ batches.flatMap actions
  fail_mem : ∀ error ∈ crew.faults.held, .fail error ∈ batches.flatMap actions
  fail_left : crew.faults.held = none →
    ∀ error, .fail error ∈ batches.flatMap actions → .fail error ∈ crew.left actions

theorem accounts_idle (forest : UnionFind) (batches : List NodeBatch) (workers : ℕ) :
    Accounts batches actions (idle forest batches workers) := by
  have hleft : (idle forest batches workers).left actions = batches.flatMap actions := by
    simp [left, idle]
  refine ⟨List.Subset.refl _, hleft ▸ List.Subset.refl _, by simp [idle],
    by simp [idle, FaultSlot.empty], ?_⟩
  intro _ error herror
  rwa [hleft]

/-- A step that records no error and leaves all failing actions keeps account. -/
theorem Accounts.of_left (h : Accounts batches actions crew) (hfaults : crew'.faults = crew.faults)
    (hwaiting : crew'.waiting ⊆ crew.waiting) (hleft : crew'.left actions ⊆ crew.left actions)
    (hfail : ∀ error, .fail error ∈ crew.left actions → .fail error ∈ crew'.left actions)
    (hseen : ∀ node ∈ crew'.seen, node ∈ crew.seen ∨ .read node ∈ crew.left actions) :
    Accounts batches actions crew' where
  waiting_subset := List.Subset.trans hwaiting h.waiting_subset
  left_subset := List.Subset.trans hleft h.left_subset
  read_mem node hnode := (hseen node hnode).elim (h.read_mem node) fun hread ↦ h.left_subset hread
  fail_mem := hfaults ▸ h.fail_mem
  fail_left hheld error herror := hfail error (h.fail_left (hfaults ▸ hheld) error herror)

theorem Accounts.step (h : Accounts batches actions crew) (hstep : Step actions crew crew') :
    Accounts batches actions crew' := by
  cases hstep with
  | take forest batch waiting before after faults seen =>
    have hsame (action : Action) :
        action ∈ left actions ⟨forest, waiting, before ++ actions batch :: after, faults, seen⟩ ↔
          action ∈ left actions ⟨forest, batch :: waiting, before ++ [] :: after, faults, seen⟩ := by
      simp only [mem_left_iff, List.flatMap_cons, List.mem_append, List.not_mem_nil]
      tauto
    exact h.of_left rfl (List.subset_cons_self _ _) (fun action ↦ (hsame action).mp)
      (fun error ↦ (hsame _).mpr) fun node ↦ .inl
  | read forest waiting node rest before after faults seen =>
    refine h.of_left rfl (List.Subset.refl _) (fun action haction ↦ ?_) (fun error herror ↦ ?_)
      fun other hother ↦ ?_
    · exact mem_left_iff.mpr ((mem_left_iff.mp haction).imp_left (List.mem_cons_of_mem _))
    · exact mem_left_iff.mpr ((mem_left_iff.mp herror).imp_left (by simp))
    · rcases List.mem_cons.mp hother with rfl | hother
      · exact .inr (mem_left_iff.mpr (.inl List.mem_cons_self))
      · exact .inl hother
  | unite forest waiting a b rest before after faults seen =>
    refine h.of_left rfl (List.Subset.refl _) (fun action haction ↦ ?_) (fun error herror ↦ ?_)
      fun node ↦ .inl
    · exact mem_left_iff.mpr ((mem_left_iff.mp haction).imp_left (List.mem_cons_of_mem _))
    · exact mem_left_iff.mpr ((mem_left_iff.mp herror).imp_left (by simp))
  | fail forest waiting error rest before after faults seen =>
    -- the rest of the batch is given up, so that less is left than was
    have hmem : .fail error ∈ batches.flatMap actions :=
      h.left_subset (mem_left_iff.mpr (.inl List.mem_cons_self))
    have hleft : left actions ⟨forest, waiting, before ++ [] :: after, faults, seen⟩ ⊆
        batches.flatMap actions := by
      intro action haction
      apply h.left_subset
      exact mem_left_iff.mpr (.inr ((mem_left_iff.mp haction).resolve_left List.not_mem_nil))
    -- an error that was recorded before stays, and the new one is discarded
    obtain ⟨_ | first⟩ := faults
    · refine ⟨h.waiting_subset, hleft, h.read_mem, ?_,
        fun hheld ↦ absurd hheld (Option.some_ne_none error)⟩
      rintro other ⟨⟩
      exact hmem
    · exact ⟨h.waiting_subset, hleft, h.read_mem, h.fail_mem,
        fun hheld ↦ absurd hheld (Option.some_ne_none first)⟩

theorem Accounts.reaches (h : Accounts batches actions crew)
    (hreach : ReflTransGen (Step actions) crew crew') : Accounts batches actions crew' := by
  induction hreach with
  | refl => exact h
  | tail _ hstep ih => exact ih.step hstep

theorem Finished.left_eq (h : crew.Finished) (hheld : crew.faults.held = none)
    (actions : NodeBatch → List Action) : crew.waiting = [] ∧ crew.left actions = [] := by
  have hwaiting : crew.waiting = [] := h.2.resolve_right fun htripped ↦ by
    rw [FaultSlot.isTripped, hheld] at htripped
    cases htripped
  refine ⟨hwaiting, ?_⟩
  rw [left, hwaiting, List.flatten_eq_nil_iff.mpr h.1]
  rfl

/-- A finished crew has recorded an error just if some action of the run fails. -/
theorem Accounts.held_eq_none_iff (h : Accounts batches actions crew)
    (hfinished : crew.Finished) :
    crew.faults.held = none ↔ ∀ error, .fail error ∉ batches.flatMap actions := by
  constructor
  · intro hheld error herror
    have hleft := h.fail_left hheld error herror
    rw [(hfinished.left_eq hheld actions).2] at hleft
    exact List.not_mem_nil hleft
  · intro hnone
    cases hheld : crew.faults.held with
    | none => rfl
    | some error => exact absurd (h.fail_mem error hheld) (hnone error)

section

variable {forest : UnionFind} {count : ℕ} {waiting : List NodeBatch}
  {before after : List (List Action)} {rest : List Action} {faults : FaultSlot RunError}

theorem reaches_unites (h : forest.Ordered) {pairs : List (Slot × Slot)}
    (hpairs : UnionFind.PairsBelow forest.size pairs) (seen : List Slot) :
    ReflTransGen (Step actions)
      ⟨forest, waiting, before ++ (pairs.map (fun pair ↦ .unite pair.1 pair.2) ++ rest) :: after,
        faults, seen⟩
      ⟨forest.mergeAll pairs, waiting, before ++ rest :: after, faults, seen⟩ := by
  induction pairs generalizing forest with
  | nil => exact .refl
  | cons pair pairs ih =>
    obtain ⟨⟨ha, hb⟩, hrest⟩ := List.forall_mem_cons.mp hpairs
    have hunion : (forest.union pair.1 pair.2).2 = forest.merge pair.1 pair.2 := by
      rw [h.union_eq ha hb]
    have hreach := ih (h.merge ha hb) (by rwa [UnionFind.size_merge])
    rw [UnionFind.mergeAll_cons]
    exact .head (hunion ▸ .unite forest waiting pair.1 pair.2 _ before after faults seen) hreach

theorem reaches_reads (hdelivers : DeliversWithin followed count) (h : forest.Ordered)
    (hsize : forest.size = count) {slots : List Slot} (hslots : ∀ slot ∈ slots, slot.toNat < count)
    (seen : List Slot) :
    ReflTransGen (Step actions)
      ⟨forest, waiting, before ++ ((slots.flatMap fun node ↦
        .read node :: (followed node).entries.map (.unite node)) ++ rest) :: after, faults, seen⟩
      ⟨forest.mergeAll (pairsFrom followed slots), waiting, before ++ rest :: after, faults,
        slots.reverse ++ seen⟩ := by
  induction slots generalizing forest seen with
  | nil => exact .refl
  | cons slot slots ih =>
    obtain ⟨hslot, hrest⟩ := List.forall_mem_cons.mp hslots
    have hpairs : UnionFind.PairsBelow forest.size (pairsFrom followed [slot]) :=
      hsize ▸ pairsBelow_pairsFrom hdelivers (by simpa using hslot)
    have hactions : (followed slot).entries.map (Action.unite slot) =
        (pairsFrom followed [slot]).map fun pair ↦ Action.unite pair.1 pair.2 := by
      simp [pairsFrom]
    have hnext := ih (h.mergeAll hpairs) ((UnionFind.size_mergeAll _ _).trans hsize) hrest
      (slot :: seen)
    have hall : pairsFrom followed [slot] ++ pairsFrom followed slots =
        pairsFrom followed (slot :: slots) := by
      simp [pairsFrom]
    rw [← UnionFind.mergeAll_append, hall] at hnext
    rw [List.flatMap_cons, List.cons_append, List.cons_append, List.append_assoc, hactions,
      List.reverse_cons, List.append_assoc]
    exact .head (.read forest waiting slot _ before after faults seen)
      ((reaches_unites h hpairs _).trans hnext)

end

/-- What becomes of a crew if one worker goes through the next batch while the others wait: to the
forest happens what the task of a run does, of whose outcome the report is recorded. -/
def afterBatch (followed : Slot → Reading Slot) (batch : NodeBatch) (waiting : List NodeBatch)
    (crew : Crew) : Crew where
  forest := (uniteBatch followed crew.forest batch).1
  waiting := waiting
  workers := crew.workers
  faults := ⟨crew.faults.held.or (Dispatch.failure? RunError.ofWorkerFault batch
    (uniteBatch followed crew.forest batch).2)⟩
  seen := (traversed followed batch.toList).reverse ++ crew.seen

/-- The actions of a worker on a batch do what the task of a run does on it. -/
theorem reaches_afterBatch {count : ℕ} (hdelivers : DeliversWithin followed count)
    (h : crew.forest.Ordered) (hsize : crew.forest.size = count) {waiting : List NodeBatch}
    (hslots : ∀ slot ∈ batch.toList, slot.toNat < count)
    (hwaiting : crew.waiting = batch :: waiting) (hidle : [] ∈ crew.workers) :
    ReflTransGen (Step (actionsOf followed)) crew (crew.afterBatch followed batch waiting) := by
  obtain ⟨forest, _, workers, faults, seen⟩ := crew
  obtain rfl : _ = batch :: waiting := hwaiting
  obtain ⟨before, after, rfl⟩ := List.append_of_mem hidle
  have hread : ∀ slot ∈ traversed followed batch.toList, slot.toNat < count :=
    fun slot hslot ↦ hslots slot (mem_of_mem_traversed hslot)
  unfold afterBatch
  rw [uniteBatch, uniteNodes_eq hdelivers batch h hsize hslots]
  dsimp only
  rw [failure?_outcomeOf]
  refine .head (.take forest batch waiting before after faults seen)
    ((reaches_reads hdelivers h hsize hread seen).trans ?_)
  change ReflTransGen _ _ (Crew.mk _ _ _ ⟨faults.held.or (errorOf? followed batch)⟩ _)
  cases errorOf? followed batch with
  | none =>
    rw [Option.or_none]
    exact .refl
  | some error =>
    rw [← FaultSlot.snd_record]
    exact .single (.fail _ waiting error [] before after faults _)

/-- The pool that is left of a crew when only its unions are looked at. -/
def toPool (crew : Crew) : Pool :=
  ⟨crew.forest, crew.waiting, crew.workers.map (List.filterMap Action.pair?)⟩

section

variable {pairsOf : NodeBatch → List (Slot × Slot)}

theorem toPool_step (hfail : ∀ error, .fail error ∉ crew.left actions)
    (hpairs : ∀ batch ∈ crew.waiting, (actions batch).filterMap Action.pair? = pairsOf batch)
    (hstep : Step actions crew crew') :
    ReflTransGen (Pool.Step pairsOf) crew.toPool crew'.toPool := by
  unfold toPool
  cases hstep with
  | take forest batch waiting before after faults seen =>
    simp only [List.map_append, List.map_cons, List.filterMap_nil]
    rw [hpairs batch List.mem_cons_self]
    exact .single (.take forest batch waiting _ _)
  | read forest waiting node rest before after faults seen =>
    simp only [List.map_append, List.map_cons, List.filterMap_cons, Action.pair?]
    exact .refl
  | unite forest waiting a b rest before after faults seen =>
    simp only [List.map_append, List.map_cons, List.filterMap_cons, Action.pair?]
    exact .single (.unite forest waiting a b _ _ _)
  | fail forest waiting error rest before after faults seen =>
    exact absurd (mem_left_iff.mpr (.inl List.mem_cons_self)) (hfail error)

/-- A crew on batches without failing actions unites like a pool. -/
theorem toPool_reaches (h : Accounts batches actions crew)
    (hfail : ∀ error, .fail error ∉ batches.flatMap actions)
    (hpairs : ∀ batch ∈ batches, (actions batch).filterMap Action.pair? = pairsOf batch)
    (hreach : ReflTransGen (Step actions) crew crew') :
    ReflTransGen (Pool.Step pairsOf) crew.toPool crew'.toPool := by
  induction hreach with
  | refl => exact .refl
  | tail hreach hstep ih =>
    have hkept := h.reaches hreach
    exact ih.trans (toPool_step (fun error herror ↦ hfail error (hkept.left_subset herror))
      (fun batch hbatch ↦ hpairs batch (hkept.waiting_subset hbatch)) hstep)

end

theorem Finished.toPool (h : crew.Finished) (hheld : crew.faults.held = none) :
    crew.toPool.Finished := by
  refine ⟨(h.left_eq hheld fun _ ↦ []).1, fun worker hworker ↦ ?_⟩
  obtain ⟨actions, hactions, rfl⟩ := List.mem_map.mp hworker
  rw [h.1 actions hactions]
  rfl

/-- The answer of a finished crew: the recorded error, or what its forest settles on. -/
def answer (crew : Crew) (offset : UInt64) (minComponentSize : Option UInt64) :
    Except RunError Result :=
  match crew.faults.held with
  | some error => .error error
  | none => .ok (conclude crew.forest offset minComponentSize)

theorem answer_of_held_eq_some (h : crew.faults.held = some error) (offset : UInt64)
    (minComponentSize : Option UInt64) :
    crew.answer offset minComponentSize = .error error := by
  rw [answer, h]

theorem answer_of_held_eq_none (h : crew.faults.held = none) (offset : UInt64)
    (minComponentSize : Option UInt64) :
    crew.answer offset minComponentSize = .ok (conclude crew.forest offset minComponentSize) := by
  rw [answer, h]

end Crew

/-! ## Crews of a run -/

section

variable {G : Type} [Graph G] {threads : Threads} {graph : G} {config : Config}
  {seeds : Option (Array (Option UInt64))} {crew : Crew} {workers : ℕ}
  {interruption : Interruption}

/-- A number of workers gets this far on the batches of a run. -/
def GetsTo (graph : G) (config : Config) (seeds : Option (Array (Option UInt64)))
    (followed : Slot → Reading Slot) (workers : ℕ) (crew : Crew) : Prop :=
  ReflTransGen (Crew.Step (actionsOf followed))
    (Crew.idle (start (Graph.nodeCount graph) seeds).1 (workBatches graph config) workers) crew

theorem GetsTo.exists_finished (hreach : GetsTo graph config seeds followed workers crew)
    (hworkers : 0 < workers) :
    ∃ last, ReflTransGen (Crew.Step (actionsOf followed)) crew last ∧ last.Finished := by
  apply Crew.exists_finished
  rw [Crew.length_workers_of_reaches hreach, Crew.idle, List.length_replicate]
  exact hworkers

theorem GetsTo.grows (hreach : GetsTo graph config seeds followed workers crew)
    (h : Admissible (Graph.nodeCount graph) seeds) :
    (originOf (Graph.nodeCount graph) seeds).Grows crew.forest := by
  induction hreach with
  | refl => exact ⟨[], start_fst _ seeds ▸ h.valid.grown⟩
  | tail _ hstep ih =>
    cases hstep with
    | take | read | fail => exact ih
    | unite forest waiting a b => exact ih.union a b

theorem GetsTo.accounts (hreach : GetsTo graph config seeds followed workers crew) :
    Crew.Accounts (workBatches graph config) (actionsOf followed) crew :=
  (Crew.accounts_idle _ _ _).reaches hreach

/-- Wherever workers have got to, one of them can do what the task of a run does on a batch. -/
theorem GetsTo.reaches_afterBatch (hreach : GetsTo graph config seeds followed workers crew)
    (h : Admissible (Graph.nodeCount graph) seeds)
    (hdelivers : DeliversWithin followed (Graph.nodeCount graph)) {waiting : List NodeBatch}
    (hwaiting : crew.waiting = batch :: waiting) (hidle : [] ∈ crew.workers) :
    ReflTransGen (Crew.Step (actionsOf followed)) crew
      (crew.afterBatch followed batch waiting) := by
  obtain ⟨pairs, hgrown⟩ := hreach.grows h
  have hbatch : batch ∈ workBatches graph config :=
    hreach.accounts.waiting_subset (hwaiting ▸ List.mem_cons_self)
  exact Crew.reaches_afterBatch hdelivers hgrown.ordered (hgrown.size_eq.trans h.size_originOf)
    (fun slot hslot ↦ lt_of_mem_workBatches h.count_le hbatch hslot) hwaiting hidle

theorem fail_mem_flatMap_iff :
    .fail error ∈ (workBatches graph config).flatMap (actionsOf followed) ↔
      ∃ batch ∈ workBatches graph config, errorOf? followed batch = some error := by
  simp only [List.mem_flatMap, fail_mem_actionsOf]

theorem forall_fail_not_mem_iff (hcount : Graph.nodeCount graph ≤ slotLimit) :
    (∀ error, .fail error ∉ (workBatches graph config).flatMap (actionsOf followed)) ↔
      ∀ slot, slot.toNat < Graph.nodeCount graph → (followed slot).interruption = none := by
  simp only [fail_mem_flatMap_iff]
  constructor
  · intro hnone slot hslot
    obtain ⟨batch, hbatch, hmem⟩ := (exists_mem_workBatches_iff hcount).mpr hslot
    have herror : errorOf? followed batch = none :=
      Option.eq_none_iff_forall_ne_some.mpr fun error herror ↦ hnone error ⟨batch, hbatch, herror⟩
    exact errorOf?_eq_none_iff.mp herror slot hmem
  · rintro hcomplete error ⟨batch, hbatch, herror⟩
    have hnone : errorOf? followed batch = none := errorOf?_eq_none_iff.mpr fun slot hslot ↦
      hcomplete slot (lt_of_mem_workBatches hcount hbatch hslot)
    rw [hnone] at herror
    cases herror

/-- Finished workers answer with a result just if no reading is interrupted. -/
theorem GetsTo.exists_answer_eq_ok_iff (hreach : GetsTo graph config seeds followed workers crew)
    (hcount : Graph.nodeCount graph ≤ slotLimit) (hfinished : crew.Finished) (offset : UInt64)
    (minComponentSize : Option UInt64) :
    (∃ result, crew.answer offset minComponentSize = .ok result) ↔
      ∀ slot, slot.toNat < Graph.nodeCount graph → (followed slot).interruption = none := by
  rw [← forall_fail_not_mem_iff hcount, ← hreach.accounts.held_eq_none_iff hfinished]
  cases hheld : crew.faults.held with
  | none => simp [Crew.answer_of_held_eq_none hheld]
  | some error => simp [Crew.answer_of_held_eq_some hheld]

/-- Where no reading is interrupted every schedule leads to the result of the run. -/
theorem GetsTo.answer_eq_of_complete (hreach : GetsTo graph config seeds followed workers crew)
    (hthreads : threads.Offers config.concurrency.toNat)
    (h : Admissible (Graph.nodeCount graph) seeds) (hworkers : 0 < workers)
    (hreads : ReadsWithin followed (Graph.nodeCount graph)) (hfinished : crew.Finished) :
    crew.answer (start (Graph.nodeCount graph) seeds).2 config.minComponentSize =
      execute threads graph config seeds followed := by
  have hcomplete : ∀ slot, slot.toNat < Graph.nodeCount graph →
      (followed slot).interruption = none := fun slot hslot ↦ (hreads slot hslot).1
  have hfail : ∀ error, .fail error ∉ (workBatches graph config).flatMap (actionsOf followed) :=
    (forall_fail_not_mem_iff h.count_le).mpr hcomplete
  have hheld := (hreach.accounts.held_eq_none_iff hfinished).mpr hfail
  have hpairs : ∀ batch ∈ workBatches graph config,
      (actionsOf followed batch).filterMap Action.pair? = pairsFrom followed batch.toList := by
    intro batch hbatch
    rw [filterMap_pair?_actionsOf, traversed_eq_self fun slot hslot ↦
      hcomplete slot (lt_of_mem_workBatches h.count_le hbatch hslot)]
  -- without failing actions the crew unites just what a pool unites on the same batches
  have hpool := Crew.toPool_reaches (Crew.accounts_idle _ _ _) hfail hpairs hreach
  have hidle (forest : UnionFind) (batches : List NodeBatch) :
      (Crew.idle forest batches workers).toPool = Pool.idle forest batches workers := by
    simp [Crew.toPool, Crew.idle, Pool.idle]
  rw [hidle] at hpool
  have hcover : (workBatches graph config).flatMap NodeBatch.toList =
      slotsBelow (Graph.nodeCount graph) := NodeBatch.flatMap_toList_partition h.count_le _
  have hsettled := (settlesAs_of_readsWithin h hreads config.minComponentSize
    (workBatches graph config) workers crew.toPool (hcover ▸ .refl _) hworkers hpool).2
    (hfinished.toPool hheld)
  rw [Crew.answer_of_held_eq_none hheld, execute_eq_of_readsWithin hthreads graph h hreads]
  exact congrArg Except.ok hsettled

section

variable {node : Slot} (h : FailsFirst followed (Graph.nodeCount graph) batch node interruption)
  (hcount : Graph.nodeCount graph ≤ slotLimit) (hbatch : batch ∈ workBatches graph config)
  (hreach : GetsTo graph config seeds followed workers crew)

include h hcount hbatch hreach

/-- Where all interruptions are in one batch every schedule ends with the error of this batch. -/
theorem FailsFirst.answer_eq (hfinished : crew.Finished) (offset : UInt64)
    (minComponentSize : Option UInt64) :
    crew.answer offset minComponentSize = .error (RunError.ofInterruption batch interruption) := by
  have haccounts := hreach.accounts
  cases hheld : crew.faults.held with
  | none =>
    have hcomplete := (forall_fail_not_mem_iff hcount).mp
      ((haccounts.held_eq_none_iff hfinished).mp hheld)
    exact absurd (hcomplete node h.isLeast.1.1) h.isLeast.1.2
  | some error =>
    obtain ⟨other, hother, herror⟩ := fail_mem_flatMap_iff.mp (haccounts.fail_mem error hheld)
    rw [Crew.answer_of_held_eq_some hheld,
      ((h.errorOf?_eq_some_iff hcount hbatch hother).mp herror).2]

/-- No worker ever reads the batch behind its first interrupted node. -/
theorem FailsFirst.not_mem_seen {slot : Slot} (hslot : batch.contains slot = true)
    (hbehind : node < slot) : slot ∉ crew.seen := by
  intro hseen
  obtain ⟨other, hother, hread⟩ := List.mem_flatMap.mp (hreach.accounts.read_mem slot hseen)
  rw [read_mem_actionsOf] at hread
  obtain rfl := NodeBatch.eq_of_mem_toList hcount hother hbatch (mem_of_mem_traversed hread)
    (NodeBatch.mem_toList.mpr hslot)
  exact h.not_lt_of_mem_traversed hread hbehind

end

end

end WeakComponents.Components
