import Mathlib.Data.List.Basic
import Mathlib.Data.List.Induction
import WeakComponents.Dispatch

/-!
# The calls of a run

One worker calls the task on the batches in order, and stops behind the first call that fails. The
outcome of a call can depend on the calls before it through the state that they leave behind. A run
whose threads the system does not start makes no call at all.
-/

namespace WeakComponents

/-- The system starts the threads of every run that asks for as many workers at most. -/
def Threads.Offers (threads : Threads) (concurrency : ℕ) : Prop :=
  ∀ workers, 1 < workers → workers ≤ concurrency → threads.start workers = .ok ()

theorem Threads.offers_unlimited (concurrency : ℕ) : Threads.unlimited.Offers concurrency :=
  fun _ _ _ ↦ rfl

/-- The first failure that is recorded stays. -/
theorem FaultSlot.snd_record {ε : Type} (slot : FaultSlot ε) (fault : ε) :
    (slot.record fault).2 = ⟨slot.held.or (some fault)⟩ := by
  obtain ⟨_ | _⟩ := slot
  · rfl
  · rfl

namespace Dispatch

variable {σ ε : Type} {task : σ → NodeBatch → σ × TaskOutcome ε} {state : σ}
  {before after batches : List NodeBatch} {batch : NodeBatch} {error : ε}

/-- The state after calls on some batches. -/
def stateAfter (task : σ → NodeBatch → σ × TaskOutcome ε) (state : σ) (batches : List NodeBatch) :
    σ :=
  batches.foldl (fun state batch ↦ (task state batch).1) state

theorem stateAfter_append_singleton :
    stateAfter task state (before ++ [batch]) = (task (stateAfter task state before) batch).1 :=
  List.foldl_concat ..

/-- The outcome of the call on a batch that follows calls on others. -/
def outcomeAfter (task : σ → NodeBatch → σ × TaskOutcome ε) (state : σ) (before : List NodeBatch)
    (batch : NodeBatch) : TaskOutcome ε :=
  (task (stateAfter task state before) batch).2

/-- No call on the batches fails. -/
def AllDone (task : σ → NodeBatch → σ × TaskOutcome ε) (state : σ) (batches : List NodeBatch) :
    Prop :=
  ∀ before batch after, batches = before ++ batch :: after →
    outcomeAfter task state before batch = .done

theorem allDone_nil : AllDone task state [] := by
  intro before batch after h
  exact absurd h (by simp)

theorem allDone_cons :
    AllDone task state (batch :: batches) ↔
      (task state batch).2 = .done ∧ AllDone task (task state batch).1 batches := by
  constructor
  · intro h
    refine ⟨h [] batch batches rfl, fun before other after hbatches ↦ ?_⟩
    exact h (batch :: before) other after (by rw [hbatches, List.cons_append])
  · rintro ⟨hfirst, hrest⟩ before other after hbatches
    cases before with
    | nil =>
      obtain ⟨rfl, _⟩ := List.cons.inj hbatches
      exact hfirst
    | cons first before =>
      obtain ⟨rfl, htail⟩ := List.cons.inj hbatches
      exact hrest before other after htail

/-- What every call keeps, the calls on some batches keep. -/
theorem stateAfter_keeps {invariant : σ → Prop} (hstate : invariant state)
    (htask : ∀ batch ∈ batches, ∀ state, invariant state → invariant (task state batch).1) :
    invariant (stateAfter task state batches) := by
  induction batches generalizing state with
  | nil => exact hstate
  | cons batch rest ih =>
    obtain ⟨hbatch, hrest⟩ := List.forall_mem_cons.mp htask
    exact ih (hbatch state hstate) hrest

/-- What is reported of a batch by the outcome of its task, if that is a failure. -/
def failure? (ofWorker : WorkerFault → ε) (batch : NodeBatch) : TaskOutcome ε → Option ε
  | .done => none
  | .failed error => some error
  | .panicked value => some (ofWorker (.panicked batch (.ofValue value)))

/-- Only of a call that is done nothing is reported. -/
theorem failure?_eq_none_iff (ofWorker : WorkerFault → ε) {outcome : TaskOutcome ε} :
    failure? ofWorker batch outcome = none ↔ outcome = .done := by
  cases outcome <;> simp [failure?]

/-- Either all calls are done, or there is a first one of which an error is reported. -/
theorem allDone_or_exists_first_failure (ofWorker : WorkerFault → ε)
    (task : σ → NodeBatch → σ × TaskOutcome ε) (state : σ) (batches : List NodeBatch) :
    AllDone task state batches ∨ ∃ before batch after error,
      batches = before ++ batch :: after ∧ AllDone task state before ∧
        failure? ofWorker batch (outcomeAfter task state before batch) = some error := by
  induction batches generalizing state with
  | nil => exact .inl allDone_nil
  | cons first rest ih =>
    cases hfirst : failure? ofWorker first (task state first).2 with
    | some error => exact .inr ⟨[], first, rest, error, rfl, allDone_nil, hfirst⟩
    | none =>
      have hdone := (failure?_eq_none_iff ofWorker).mp hfirst
      obtain hrest | ⟨before, batch, after, error, rfl, hbefore, herror⟩ := ih (task state first).1
      · exact .inl (allDone_cons.mpr ⟨hdone, hrest⟩)
      · exact .inr ⟨first :: before, batch, after, error, rfl, allDone_cons.mpr ⟨hdone, hbefore⟩,
          herror⟩

theorem next_of_held_eq_some (ofWorker : WorkerFault → ε) {progress : Progress σ ε}
    (h : progress.faults.held = some error) (batch : NodeBatch) :
    progress.next ofWorker task batch = progress := by
  unfold Progress.next FaultSlot.isTripped
  rw [h]
  rfl

theorem next_of_held_eq_none (ofWorker : WorkerFault → ε) {progress : Progress σ ε}
    (h : progress.faults.held = none) (batch : NodeBatch) :
    (progress.next ofWorker task batch).state = (task progress.state batch).1 ∧
      (progress.next ofWorker task batch).faults.held =
        failure? ofWorker batch (task progress.state batch).2 := by
  unfold Progress.next FaultSlot.isTripped FaultSlot.record
  rw [h]
  rcases task progress.state batch with ⟨state, _ | _ | _⟩
  · exact ⟨rfl, h⟩
  · exact ⟨rfl, rfl⟩
  · exact ⟨rfl, rfl⟩

theorem foldl_next_of_allDone (ofWorker : WorkerFault → ε) (h : AllDone task state batches)
    (completed : ℕ) :
    batches.foldl (Progress.next ofWorker task) ⟨state, completed, .empty⟩ =
      ⟨stateAfter task state batches, completed + batches.length, .empty⟩ := by
  induction batches generalizing state completed with
  | nil => rfl
  | cons batch rest ih =>
    obtain ⟨hfirst, hrest⟩ := allDone_cons.mp h
    have htask : task state batch = ((task state batch).1, .done) := Prod.ext rfl hfirst
    have hstep : Progress.next ofWorker task ⟨state, completed, .empty⟩ batch =
        ⟨(task state batch).1, completed + 1, .empty⟩ := by
      rw [Progress.next, htask]
      rfl
    rw [List.foldl_cons, hstep, ih hrest, List.length_cons]
    congr 1
    omega

/-- Once a failure is held no batch changes anything. -/
theorem foldl_next_of_held_eq_some (ofWorker : WorkerFault → ε) {progress : Progress σ ε}
    (h : progress.faults.held = some error) (batches : List NodeBatch) :
    batches.foldl (Progress.next ofWorker task) progress = progress := by
  induction batches with
  | nil => rfl
  | cons batch rest ih => rw [List.foldl_cons, next_of_held_eq_some ofWorker h, ih]

theorem runStarted_of_allDone (ofWorker : WorkerFault → ε) (workers : ℕ)
    (h : AllDone task state batches) :
    runStarted ofWorker workers batches task state =
      (stateAfter task state batches, .ok ⟨workers, batches.length, batches.length⟩) := by
  unfold runStarted
  rw [foldl_next_of_allDone ofWorker h, Nat.zero_add]
  rfl

/-- A run ends behind the first call that fails, with what is reported of it. -/
theorem runStarted_of_first_failure (ofWorker : WorkerFault → ε) (workers : ℕ)
    (hbefore : AllDone task state before)
    (hfailure : failure? ofWorker batch (outcomeAfter task state before batch) = some error)
    (after : List NodeBatch) :
    runStarted ofWorker workers (before ++ batch :: after) task state =
      (stateAfter task state (before ++ [batch]), .error error) := by
  let progress : Progress σ ε := ⟨stateAfter task state before, 0 + before.length, .empty⟩
  obtain ⟨hstate, hheld⟩ : (progress.next ofWorker task batch).state = _ ∧ _ = _ :=
    next_of_held_eq_none ofWorker rfl batch
  have hend : (before ++ batch :: after).foldl (Progress.next ofWorker task) ⟨state, 0, .empty⟩ =
      progress.next ofWorker task batch := by
    rw [List.foldl_append, foldl_next_of_allDone ofWorker hbefore, List.foldl_cons,
      foldl_next_of_held_eq_some ofWorker (hheld.trans hfailure)]
  unfold runStarted
  dsimp only
  rw [hend, hheld.trans hfailure, hstate]
  exact congrArg (fun state ↦ (state, Except.error error)) stateAfter_append_singleton.symm

/-- A run over tasks that keep an invariant, and whose outcomes are known under it, ends with what
is reported of the first batch of which anything is. -/
theorem runStarted_of_findSome? (ofWorker : WorkerFault → ε) (workers : ℕ)
    {outcome : NodeBatch → TaskOutcome ε} {invariant : σ → Prop} (hstate : invariant state)
    (htask : ∀ batch ∈ batches, ∀ state, invariant state →
      (task state batch).2 = outcome batch ∧ invariant (task state batch).1)
    (hfailure : (batches.findSome? fun batch ↦ failure? ofWorker batch (outcome batch)) =
      some error) :
    (runStarted ofWorker workers batches task state).2 = .error error := by
  obtain ⟨before, batch, after, rfl, hbatch, hbefore⟩ := List.findSome?_eq_some_iff.mp hfailure
  have houtcome {earlier later : List NodeBatch} {other : NodeBatch}
      (h : before ++ batch :: after = earlier ++ other :: later) :
      outcomeAfter task state earlier other = outcome other := by
    have hearlier : invariant (stateAfter task state earlier) :=
      stateAfter_keeps hstate fun batch hmem state hinvariant ↦
        (htask batch (h ▸ List.mem_append_left _ hmem) state hinvariant).2
    exact (htask other (h ▸ List.mem_append_right _ List.mem_cons_self) _ hearlier).1
  have hdone : AllDone task state before := by
    rintro earlier other later rfl
    rw [houtcome (by rw [List.append_assoc, List.cons_append])]
    exact (failure?_eq_none_iff ofWorker).mp
      (hbefore other (List.mem_append_right _ List.mem_cons_self))
  rw [runStarted_of_first_failure ofWorker workers hdone ((houtcome rfl).symm ▸ hbatch)]

/-- Tasks that act alike on the batches of a run lead to the same answer. -/
theorem runStarted_congr (ofWorker : WorkerFault → ε) (workers : ℕ)
    {task' : σ → NodeBatch → σ × TaskOutcome ε} (state : σ)
    (h : ∀ batch ∈ batches, ∀ state, task state batch = task' state batch) :
    runStarted ofWorker workers batches task state =
      runStarted ofWorker workers batches task' state := by
  have hfold : batches.foldl (Progress.next ofWorker task) ⟨state, 0, .empty⟩ =
      batches.foldl (Progress.next ofWorker task') ⟨state, 0, .empty⟩ := by
    apply List.foldl_ext
    intro progress batch hbatch
    unfold Progress.next
    rw [h batch hbatch]
  unfold runStarted
  rw [hfold]

/-! ## Starting workers -/

variable {threads : Threads} {concurrency : ℕ}

theorem startWorkers_of_offers (h : threads.Offers concurrency) (batches : ℕ) :
    startWorkers threads (workers concurrency batches) = .ok () := by
  unfold startWorkers workers
  split
  · rfl
  · exact h _ (by omega) (by omega)

theorem runBatches_eq_runStarted (ofWorker : WorkerFault → ε)
    (h : startWorkers threads (workers concurrency batches.length) = .ok ())
    (task : σ → NodeBatch → σ × TaskOutcome ε) (state : σ) :
    runBatches threads ofWorker concurrency batches task state =
      runStarted ofWorker (workers concurrency batches.length) batches task state := by
  unfold runBatches
  dsimp only
  rw [h]

/-- A run whose workers are not started leaves the state alone and says why. -/
theorem runBatches_of_refused (ofWorker : WorkerFault → ε) {message : String}
    (h : startWorkers threads (workers concurrency batches.length) = .error message)
    (task : σ → NodeBatch → σ × TaskOutcome ε) (state : σ) :
    runBatches threads ofWorker concurrency batches task state =
      (state, .error (ofWorker (.pool message))) := by
  unfold runBatches
  dsimp only
  rw [h]

/-- Whatever the system starts, a run has made the calls on some of the first batches. -/
theorem exists_runBatches_fst_eq (threads : Threads) (ofWorker : WorkerFault → ε)
    (concurrency : ℕ) (batches : List NodeBatch) (task : σ → NodeBatch → σ × TaskOutcome ε)
    (state : σ) :
    ∃ called, called <+: batches ∧
      (runBatches threads ofWorker concurrency batches task state).1 =
        stateAfter task state called := by
  cases hstart : startWorkers threads (workers concurrency batches.length) with
  | error message => exact ⟨[], List.nil_prefix, by rw [runBatches_of_refused ofWorker hstart]; rfl⟩
  | ok =>
    rw [runBatches_eq_runStarted ofWorker hstart]
    obtain hdone | ⟨before, batch, after, error, rfl, hbefore, herror⟩ :=
      allDone_or_exists_first_failure ofWorker task state batches
    · exact ⟨batches, List.prefix_rfl, by rw [runStarted_of_allDone ofWorker _ hdone]⟩
    · refine ⟨before ++ [batch], ⟨after, by rw [List.append_assoc]; rfl⟩, ?_⟩
      rw [runStarted_of_first_failure ofWorker _ hbefore herror]

/-- What every task keeps, however it ends, a run keeps. -/
theorem runBatches_keeps (threads : Threads) (ofWorker : WorkerFault → ε) {invariant : σ → Prop}
    (concurrency : ℕ) (batches : List NodeBatch) (hstate : invariant state)
    (htask : ∀ batch state, invariant state → invariant (task state batch).1) :
    invariant (runBatches threads ofWorker concurrency batches task state).1 := by
  obtain ⟨called, _, hcalled⟩ :=
    exists_runBatches_fst_eq threads ofWorker concurrency batches task state
  rw [hcalled]
  exact stateAfter_keeps hstate fun batch _ ↦ htask batch

theorem runBatches_congr (threads : Threads) (ofWorker : WorkerFault → ε) (concurrency : ℕ)
    {task' : σ → NodeBatch → σ × TaskOutcome ε} (state : σ)
    (h : ∀ batch ∈ batches, ∀ state, task state batch = task' state batch) :
    runBatches threads ofWorker concurrency batches task state =
      runBatches threads ofWorker concurrency batches task' state := by
  unfold runBatches
  dsimp only
  rw [runStarted_congr ofWorker _ state h]

theorem exists_runBatches_eq_ok_iff (ofWorker : WorkerFault → ε)
    (h : startWorkers threads (workers concurrency batches.length) = .ok ()) :
    (∃ stats, (runBatches threads ofWorker concurrency batches task state).2 = .ok stats) ↔
      AllDone task state batches := by
  rw [runBatches_eq_runStarted ofWorker h]
  obtain hdone | ⟨before, batch, after, error, rfl, hbefore, herror⟩ :=
    allDone_or_exists_first_failure ofWorker task state batches
  · rw [runStarted_of_allDone ofWorker _ hdone]
    exact iff_of_true ⟨_, rfl⟩ hdone
  · rw [runStarted_of_first_failure ofWorker _ hbefore herror]
    refine iff_of_false (by simp) fun hdone ↦ ?_
    rw [hdone before batch after rfl] at herror
    cases herror

/-- The error of a run says that no workers were started, or is what is reported of some call. -/
theorem exists_failure_of_runBatches (ofWorker : WorkerFault → ε)
    (h : (runBatches threads ofWorker concurrency batches task state).2 = .error error) :
    (∃ message, error = ofWorker (.pool message)) ∨
      ∃ before batch after, batches = before ++ batch :: after ∧
        failure? ofWorker batch (outcomeAfter task state before batch) = some error := by
  cases hstart : startWorkers threads (workers concurrency batches.length) with
  | error message =>
    rw [runBatches_of_refused ofWorker hstart] at h
    exact .inl ⟨message, (Except.error.inj h).symm⟩
  | ok =>
    rw [runBatches_eq_runStarted ofWorker hstart] at h
    obtain hdone | ⟨before, batch, after, reported, rfl, hbefore, hreported⟩ :=
      allDone_or_exists_first_failure ofWorker task state batches
    · rw [runStarted_of_allDone ofWorker _ hdone] at h
      cases h
    · rw [runStarted_of_first_failure ofWorker _ hbefore hreported] at h
      exact .inr ⟨before, batch, after, rfl, hreported.trans (congrArg some (Except.error.inj h))⟩

/-! ## Noting calls -/

/-- The task that notes the batches it is called on, in the order of the calls. -/
def noting (task : σ → NodeBatch → σ × TaskOutcome ε) (noted : σ × List NodeBatch)
    (batch : NodeBatch) : (σ × List NodeBatch) × TaskOutcome ε :=
  (((task noted.1 batch).1, noted.2 ++ [batch]), (task noted.1 batch).2)

theorem stateAfter_noting (calls batches : List NodeBatch) :
    stateAfter (noting task) (state, calls) batches =
      (stateAfter task state batches, calls ++ batches) := by
  induction batches using List.reverseRecOn with
  | nil => rw [List.append_nil]; rfl
  | append_singleton batches batch ih =>
    rw [stateAfter_append_singleton, ih, stateAfter_append_singleton, noting, List.append_assoc]

theorem outcomeAfter_noting (calls : List NodeBatch) :
    outcomeAfter (noting task) (state, calls) before batch =
      outcomeAfter task state before batch := by
  rw [outcomeAfter, stateAfter_noting]
  rfl

theorem allDone_noting (calls : List NodeBatch) :
    AllDone (noting task) (state, calls) batches ↔ AllDone task state batches := by
  unfold AllDone
  simp only [outcomeAfter_noting]

/-- A run calls the task on some batches, in this order and on no others, and returns an answer. -/
structure RunsThrough (threads : Threads) (ofWorker : WorkerFault → ε) (concurrency : ℕ)
    (batches : List NodeBatch) (task : σ → NodeBatch → σ × TaskOutcome ε) (state : σ)
    (called : List NodeBatch) (answer : Except ε BatchStats) : Prop where
  runBatches_eq : runBatches threads ofWorker concurrency batches task state =
    (stateAfter task state called, answer)
  runBatches_noting_eq :
    runBatches threads ofWorker concurrency batches (noting task) (state, []) =
      ((stateAfter task state called, called), answer)

theorem runsThrough_of_refused (ofWorker : WorkerFault → ε) {message : String}
    (h : startWorkers threads (workers concurrency batches.length) = .error message)
    (task : σ → NodeBatch → σ × TaskOutcome ε) (state : σ) :
    RunsThrough threads ofWorker concurrency batches task state []
      (.error (ofWorker (.pool message))) where
  runBatches_eq := runBatches_of_refused ofWorker h task state
  runBatches_noting_eq := runBatches_of_refused ofWorker h (noting task) (state, [])

theorem runsThrough_of_allDone (ofWorker : WorkerFault → ε)
    (hstart : startWorkers threads (workers concurrency batches.length) = .ok ())
    (h : AllDone task state batches) :
    RunsThrough threads ofWorker concurrency batches task state batches
      (.ok ⟨workers concurrency batches.length, batches.length, batches.length⟩) where
  runBatches_eq := by
    rw [runBatches_eq_runStarted ofWorker hstart, runStarted_of_allDone ofWorker _ h]
  runBatches_noting_eq := by
    rw [runBatches_eq_runStarted ofWorker hstart,
      runStarted_of_allDone ofWorker _ ((allDone_noting []).mpr h), stateAfter_noting,
      List.nil_append]

theorem runsThrough_of_first_failure (ofWorker : WorkerFault → ε)
    (hstart : startWorkers threads (workers concurrency (before ++ batch :: after).length) = .ok ())
    (hbefore : AllDone task state before)
    (hfailure : failure? ofWorker batch (outcomeAfter task state before batch) = some error) :
    RunsThrough threads ofWorker concurrency (before ++ batch :: after) task state
      (before ++ [batch]) (.error error) where
  runBatches_eq := by
    rw [runBatches_eq_runStarted ofWorker hstart,
      runStarted_of_first_failure ofWorker _ hbefore hfailure]
  runBatches_noting_eq := by
    rw [runBatches_eq_runStarted ofWorker hstart,
      runStarted_of_first_failure ofWorker _ ((allDone_noting []).mpr hbefore)
        ((outcomeAfter_noting []).symm ▸ hfailure), stateAfter_noting, List.nil_append]

end Dispatch

end WeakComponents
