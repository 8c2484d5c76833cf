import WeakComponents.Proofs.Components.Settlement
import WeakComponents.Proofs.Dispatch.Calls

/-!
# The course of a run

The workers of a run leave a forest behind, and an answer. If the answer is an error, so is the run;
otherwise the run settles on the forest. Either way the phases that it goes through follow each
other as they may.
-/

namespace WeakComponents.Components

namespace Lifecycle

variable {lifecycle : Lifecycle} {next : Phase}

/-- Each phase may follow the one before it, and the first one is that of a prepared run. -/
inductive Lawful : Lifecycle → Prop where
  | initial : Lawful .initial
  | advance {lifecycle : Lifecycle} {next : Phase} (h : Lawful lifecycle)
    (hnext : lifecycle.current.canAdvanceTo next = true) : Lawful (lifecycle.advance next)

/-- The phases that a run must have been in to get to one. -/
def before : Phase → List Phase
  | .initialized => []
  | .running => [.initialized]
  | .completed | .failed => [.running, .initialized]

theorem before_eq_cons_of_canAdvanceTo {current : Phase}
    (h : current.canAdvanceTo next = true) : before next = current :: before current := by
  cases current <;> cases next <;> first | rfl | cases h

/-- A run has been in no phase twice, and where it stands tells where it has been. -/
theorem Lawful.past_eq (h : lifecycle.Lawful) : lifecycle.past = before lifecycle.current := by
  induction h with
  | initial => rfl
  | @advance lifecycle next _ hnext ih =>
    change lifecycle.current :: lifecycle.past = before next
    rw [before_eq_cons_of_canAdvanceTo hnext, ih]

end Lifecycle

section

variable {G : Type} [Graph G] {threads : Threads} {graph : G} {config : Config}
  {seeds : Option (Array (Option UInt64))} {followed : Slot → Reading Slot} {result : Result}
  {error : RunError}

/-- The batches that the workers of a run take, in order. -/
def workBatches (graph : G) (config : Config) : List NodeBatch :=
  Graph.batches graph (NodeBatch.adjustedSize (Graph.nodeCount graph) config.concurrency.toNat
    config.batchSize.toNat)

/-- The forest that the workers of a run leave behind, and their answer. -/
def worked (threads : Threads) (graph : G) (config : Config)
    (seeds : Option (Array (Option UInt64))) (followed : Slot → Reading Slot) :
    UnionFind × Except RunError BatchStats :=
  Dispatch.runBatches threads RunError.ofWorkerFault config.concurrency.toNat
    (workBatches graph config) (uniteBatch followed) (start (Graph.nodeCount graph) seeds).1

theorem course_of_worked_eq_error
    (h : (worked threads graph config seeds followed).2 = .error error) :
    course threads graph config seeds followed =
      ⟨(Lifecycle.initial.advance .running).advance .failed, .error error⟩ := by
  unfold worked workBatches at h
  unfold course
  dsimp only
  split
  · rename_i heq
    rw [heq] at h
    rw [Except.error.inj h]
  · rename_i heq
    rw [heq] at h
    cases h

theorem course_of_worked_eq_ok {stats : BatchStats}
    (h : (worked threads graph config seeds followed).2 = .ok stats) :
    course threads graph config seeds followed =
      ⟨(Lifecycle.initial.advance .running).advance .completed,
        .ok (conclude (worked threads graph config seeds followed).1
          (start (Graph.nodeCount graph) seeds).2 config.minComponentSize)⟩ := by
  unfold worked workBatches at h ⊢
  unfold course
  dsimp only
  split
  · rename_i heq
    rw [heq] at h
    cases h
  · rename_i heq
    rw [heq]
    rfl

theorem lawful_course (threads : Threads) (graph : G) (config : Config)
    (seeds : Option (Array (Option UInt64))) (followed : Slot → Reading Slot) :
    (course threads graph config seeds followed).lifecycle.Lawful := by
  have hrunning : (Lifecycle.initial.advance .running).Lawful := .advance .initial rfl
  cases hworked : (worked threads graph config seeds followed).2 with
  | error error =>
    rw [course_of_worked_eq_error hworked]
    exact .advance hrunning rfl
  | ok stats =>
    rw [course_of_worked_eq_ok hworked]
    exact .advance hrunning rfl

/-- A run ends as failed with an error, and as completed with a result. -/
theorem current_course (threads : Threads) (graph : G) (config : Config)
    (seeds : Option (Array (Option UInt64))) (followed : Slot → Reading Slot) :
    (∃ error, execute threads graph config seeds followed = .error error ∧
        (course threads graph config seeds followed).lifecycle.current = .failed) ∨
      ∃ result, execute threads graph config seeds followed = .ok result ∧
        (course threads graph config seeds followed).lifecycle.current = .completed := by
  unfold execute
  cases hworked : (worked threads graph config seeds followed).2 with
  | error error =>
    rw [course_of_worked_eq_error hworked]
    exact .inl ⟨error, rfl, rfl⟩
  | ok stats =>
    rw [course_of_worked_eq_ok hworked]
    exact .inr ⟨_, rfl, rfl⟩

/-- A run settles on the forest that its workers leave behind, unless their answer is an error. -/
theorem execute_eq_map (threads : Threads) (graph : G) (config : Config)
    (seeds : Option (Array (Option UInt64))) (followed : Slot → Reading Slot) :
    execute threads graph config seeds followed =
      (worked threads graph config seeds followed).2.map fun _ ↦
        conclude (worked threads graph config seeds followed).1
          (start (Graph.nodeCount graph) seeds).2 config.minComponentSize := by
  unfold execute
  cases hworked : (worked threads graph config seeds followed).2 with
  | error error =>
    rw [course_of_worked_eq_error hworked]
    rfl
  | ok stats =>
    rw [course_of_worked_eq_ok hworked]
    rfl

theorem execute_eq_error_iff :
    execute threads graph config seeds followed = .error error ↔
      (worked threads graph config seeds followed).2 = .error error := by
  rw [execute_eq_map]
  cases (worked threads graph config seeds followed).2 <;> simp [Except.map]

theorem execute_eq_ok_iff :
    execute threads graph config seeds followed = .ok result ↔
      (∃ stats, (worked threads graph config seeds followed).2 = .ok stats) ∧
        conclude (worked threads graph config seeds followed).1
          (start (Graph.nodeCount graph) seeds).2 config.minComponentSize = result := by
  rw [execute_eq_map]
  cases (worked threads graph config seeds followed).2 <;> simp [Except.map]

theorem worked_of_offers (h : threads.Offers config.concurrency.toNat) (graph : G)
    (seeds : Option (Array (Option UInt64))) (followed : Slot → Reading Slot) :
    worked threads graph config seeds followed =
      Dispatch.runStarted RunError.ofWorkerFault
        (Dispatch.workers config.concurrency.toNat (workBatches graph config).length)
        (workBatches graph config) (uniteBatch followed) (start (Graph.nodeCount graph) seeds).1 :=
  Dispatch.runBatches_eq_runStarted _ (Dispatch.startWorkers_of_offers h _) _ _

/-- A run whose workers are not started unites nothing and says why. -/
theorem execute_of_refused {message : String}
    (h : Dispatch.startWorkers threads (Dispatch.workers config.concurrency.toNat
      (workBatches graph config).length) = .error message) :
    execute threads graph config seeds followed = .error (.executor message) := by
  rw [execute_eq_error_iff, worked, Dispatch.runBatches_of_refused _ h]
  rfl

/-- A run with a result would have had it with as many threads as it may ask for. -/
theorem execute_of_offers_of_eq_ok {enough : Threads}
    (h : enough.Offers config.concurrency.toNat)
    (hrun : execute threads graph config seeds followed = .ok result) :
    execute enough graph config seeds followed = .ok result := by
  cases hstart : Dispatch.startWorkers threads (Dispatch.workers config.concurrency.toNat
      (workBatches graph config).length) with
  | error message =>
    rw [execute_of_refused hstart] at hrun
    cases hrun
  | ok =>
    have hsame : worked enough graph config seeds followed =
        worked threads graph config seeds followed := by
      rw [worked_of_offers h, worked, Dispatch.runBatches_eq_runStarted _ hstart]
    rw [execute_eq_ok_iff] at hrun ⊢
    rwa [hsame]

end

end WeakComponents.Components
