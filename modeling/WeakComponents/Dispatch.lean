import WeakComponents.Failure.Panic
import WeakComponents.Failure.Slot

/-!
# Dispatching batches

A task is run on every batch until one fails. The first failure is the answer: an error of the
task as it is, a panic as a failure of the pool that names the batch. Workers take the batches in
list order; tasks act on a common state. Several workers need threads, which the system may not
give; then no batch is taken.
-/

namespace WeakComponents

/-- How a task ends on one batch. -/
inductive TaskOutcome (ε : Type) where
  | done
  | failed (error : ε)
  | panicked (value : PanicValue)

structure BatchStats where
  workers : Nat
  batches : Nat
  completed : Nat
deriving DecidableEq

/-- The system that threads are asked of: whether it starts a number of them, or why it does not. -/
structure Threads where
  start : Nat → Except String Unit

def Threads.unlimited : Threads := ⟨fun _ ↦ .ok ()⟩

namespace Dispatch

/-- A run under way: the common state, the completed batches and the first failure. -/
structure Progress (σ ε : Type) where
  state : σ
  completed : Nat
  faults : FaultSlot ε

variable {σ ε : Type}

/-- Runs the task on the next batch, unless a failure has been recorded. -/
def Progress.next (ofWorker : WorkerFault → ε) (task : σ → NodeBatch → σ × TaskOutcome ε)
    (progress : Progress σ ε) (batch : NodeBatch) : Progress σ ε :=
  if progress.faults.isTripped then progress
  else
    match task progress.state batch with
    | (state, .done) => { progress with state, completed := progress.completed + 1 }
    | (state, .failed error) =>
      { progress with state, faults := (progress.faults.record error).2 }
    | (state, .panicked value) =>
      let fault := ofWorker (.panicked batch (.ofValue value))
      { progress with state, faults := (progress.faults.record fault).2 }

/-- The workers that a run starts: never more than there are batches, but one at least. -/
def workers (concurrency batches : Nat) : Nat :=
  max (min concurrency batches) 1

def runStarted (ofWorker : WorkerFault → ε) (workers : Nat) (batches : List NodeBatch)
    (task : σ → NodeBatch → σ × TaskOutcome ε) (state : σ) : σ × Except ε BatchStats :=
  let progress := batches.foldl (Progress.next ofWorker task) ⟨state, 0, .empty⟩
  match progress.faults.held with
  | some fault => (progress.state, .error fault)
  | none => (progress.state, .ok ⟨workers, batches.length, progress.completed⟩)

/-- Starts the workers of a run; a single one works on the thread that asks for the run. -/
def startWorkers (threads : Threads) (workers : Nat) : Except String Unit :=
  if workers = 1 then .ok () else threads.start workers

/--
Runs a task over the batches and answers with the final state and either the counts of the run or
its first failure.
-/
def runBatches (threads : Threads) (ofWorker : WorkerFault → ε) (concurrency : Nat)
    (batches : List NodeBatch) (task : σ → NodeBatch → σ × TaskOutcome ε) (state : σ) :
    σ × Except ε BatchStats :=
  let workers := workers concurrency batches.length
  match startWorkers threads workers with
  | .error message => (state, .error (ofWorker (.pool message)))
  | .ok () => runStarted ofWorker workers batches task state

end Dispatch

end WeakComponents
