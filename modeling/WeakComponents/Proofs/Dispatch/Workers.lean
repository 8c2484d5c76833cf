import Mathlib.Data.List.Count
import WeakComponents.Proofs.Components.Causes
import WeakComponents.Proofs.Components.Schedule
import WeakComponents.Proofs.Dispatch.Calls

/-!
# Workers that share out batches

Several workers take the batches from the front of one list. Before it takes a batch a worker looks
whether a failure has been recorded; between the look and the taking others may go on. However the
workers interleave, each place on the list is taken once at most, and if one task fails at most,
what is returned depends neither on the schedule nor on the order of the batches.
-/

open Relation

namespace WeakComponents

namespace Dispatch

variable {σ ε : Type} {ofWorker : WorkerFault → ε} {error : ε} {threads : Threads}
  {concurrency : ℕ}

/-- A place on the list of batches, with the outcome that the task has there. -/
structure Job (ε : Type) where
  batch : NodeBatch
  outcome : TaskOutcome ε

variable {jobs order : List (Job ε)}

namespace Job

/-- Whether the task fails on a job. -/
def fails (job : Job ε) : Bool :=
  match job.outcome with
  | .done => false
  | _ => true

/-- What is reported of a job that fails. -/
def report? (ofWorker : WorkerFault → ε) (job : Job ε) : Option ε :=
  failure? ofWorker job.batch job.outcome

theorem report?_eq_none_iff {job : Job ε} : job.report? ofWorker = none ↔ job.outcome = .done :=
  failure?_eq_none_iff ofWorker

theorem isSome_report? (ofWorker : WorkerFault → ε) (job : Job ε) :
    (job.report? ofWorker).isSome = job.fails := by
  unfold report? failure? fails
  cases job.outcome <;> rfl

end Job

/-- The task that has some outcomes, one call after the other. -/
def replay : List (TaskOutcome ε) → NodeBatch → List (TaskOutcome ε) × TaskOutcome ε
  | [], _ => ([], .done)
  | outcome :: rest, _ => (rest, outcome)

/-- What a run over some jobs returns. -/
def returned (threads : Threads) (ofWorker : WorkerFault → ε) (concurrency : ℕ)
    (jobs : List (Job ε)) : Except ε BatchStats :=
  (runBatches threads ofWorker concurrency (jobs.map Job.batch) replay (jobs.map Job.outcome)).2

/-- What is returned when the first failure, if there is one, has been found. -/
def conclusion (workers jobs completed : ℕ) : Option ε → Except ε BatchStats
  | some error => .error error
  | none => .ok ⟨workers, jobs, completed⟩

theorem stateAfter_replay (jobs : List (Job ε)) (later : List (TaskOutcome ε)) :
    stateAfter replay (jobs.map Job.outcome ++ later) (jobs.map Job.batch) = later := by
  induction jobs with
  | nil => rfl
  | cons job rest ih => exact ih

theorem allDone_replay (h : ∀ job ∈ jobs, job.outcome = .done) (later : List (TaskOutcome ε)) :
    AllDone replay (jobs.map Job.outcome ++ later) (jobs.map Job.batch) := by
  induction jobs with
  | nil => exact allDone_nil
  | cons job rest ih =>
    obtain ⟨hjob, hrest⟩ := List.forall_mem_cons.mp h
    exact allDone_cons.mpr ⟨hjob, ih hrest⟩

/-- A run over some jobs returns what is reported of the first that fails. -/
theorem returned_eq (hthreads : threads.Offers concurrency) (ofWorker : WorkerFault → ε)
    (jobs : List (Job ε)) :
    returned threads ofWorker concurrency jobs =
      conclusion (workers concurrency jobs.length) jobs.length jobs.length
        (jobs.findSome? (Job.report? ofWorker)) := by
  unfold returned
  rw [runBatches_eq_runStarted ofWorker (startWorkers_of_offers hthreads _), List.length_map]
  cases hfirst : jobs.findSome? (Job.report? ofWorker) with
  | none =>
    have hdone : ∀ job ∈ jobs, job.outcome = .done := fun job hjob ↦
      Job.report?_eq_none_iff.mp (List.findSome?_eq_none_iff.mp hfirst job hjob)
    have hall := allDone_replay hdone []
    rw [List.append_nil] at hall
    rw [runStarted_of_allDone ofWorker _ hall, List.length_map]
    rfl
  | some error =>
    obtain ⟨before, job, after, rfl, hjob, hbefore⟩ := List.findSome?_eq_some_iff.mp hfirst
    have hdone : ∀ job ∈ before, job.outcome = .done := fun job hmem ↦
      Job.report?_eq_none_iff.mp (hbefore job hmem)
    have hfailure : failure? ofWorker job.batch
        (outcomeAfter replay (before.map Job.outcome ++ (job :: after).map Job.outcome)
          (before.map Job.batch) job.batch) = some error := by
      rw [outcomeAfter, stateAfter_replay]
      exact hjob
    rw [List.map_append, List.map_append, @List.map_cons _ _ Job.batch,
      runStarted_of_first_failure ofWorker _ (allDone_replay hdone _) hfailure]
    rfl

/-- If one job fails at most, any report is the first one. -/
theorem findSome?_report?_of_mem (hone : jobs.countP Job.fails ≤ 1) {job : Job ε}
    (hjob : job ∈ jobs) (herror : job.report? ofWorker = some error) :
    jobs.findSome? (Job.report? ofWorker) = some error := by
  have hlength : (jobs.filterMap (Job.report? ofWorker)).length ≤ 1 := by
    rw [List.length_filterMap_eq_countP]
    simpa only [Job.isSome_report?] using hone
  have hmem : error ∈ jobs.filterMap (Job.report? ofWorker) :=
    List.mem_filterMap.mpr ⟨job, hjob, herror⟩
  obtain ⟨only, honly⟩ := List.length_eq_one_iff.mp
    (Nat.le_antisymm hlength (List.length_pos_of_mem hmem))
  rw [honly, List.mem_singleton] at hmem
  rw [← List.head?_filterMap, honly, hmem]
  rfl

/-- Among jobs in another order the first report is the same. -/
theorem findSome?_report?_of_perm (hone : jobs.countP Job.fails ≤ 1) (h : order.Perm jobs) :
    order.findSome? (Job.report? ofWorker) = jobs.findSome? (Job.report? ofWorker) := by
  cases hfirst : order.findSome? (Job.report? ofWorker) with
  | none =>
    symm
    rw [List.findSome?_eq_none_iff] at hfirst ⊢
    intro job hjob
    exact hfirst job (h.mem_iff.mpr hjob)
  | some error =>
    obtain ⟨job, hjob, herror⟩ := List.exists_of_findSome?_eq_some hfirst
    exact (findSome?_report?_of_mem hone (h.mem_iff.mp hjob) herror).symm

theorem returned_eq_of_perm (hthreads : threads.Offers concurrency)
    (hone : jobs.countP Job.fails ≤ 1) (h : order.Perm jobs) :
    returned threads ofWorker concurrency order = returned threads ofWorker concurrency jobs := by
  rw [returned_eq hthreads, returned_eq hthreads, findSome?_report?_of_perm hone h, h.length_eq]

/-! ## Teams -/

/-- What a worker is about: to look for a failure, to take a job, one job, or nothing more. -/
inductive Station (ε : Type) where
  | looking
  | taking
  | busy (job : Job ε)
  | stopped

/-- The job that a worker is busy with. -/
def Station.job? : Station ε → Option (Job ε)
  | busy job => some job
  | _ => none

/-- Workers that share a list of jobs: those that no worker has taken, what the workers are about,
the jobs that have ended, in the order of their ends, how many of them are done, and the slot for
the first failure. -/
structure Team (ε : Type) where
  waiting : List (Job ε)
  stations : List (Station ε)
  ended : List (Job ε)
  completed : ℕ
  faults : FaultSlot ε

namespace Team

variable {team team' : Team ε}

/-- One worker goes on: it looks for a failure, takes the job in front, or ends its job. -/
inductive Step (ofWorker : WorkerFault → ε) : Team ε → Team ε → Prop where
  | look (waiting : List (Job ε)) (before after : List (Station ε)) (ended : List (Job ε))
    (completed : ℕ) (faults : FaultSlot ε) (h : faults.held = none) :
    Step ofWorker ⟨waiting, before ++ .looking :: after, ended, completed, faults⟩
      ⟨waiting, before ++ .taking :: after, ended, completed, faults⟩
  | halt (waiting : List (Job ε)) (before after : List (Station ε)) (ended : List (Job ε))
    (completed : ℕ) (faults : FaultSlot ε) (h : faults.held ≠ none) :
    Step ofWorker ⟨waiting, before ++ .looking :: after, ended, completed, faults⟩
      ⟨waiting, before ++ .stopped :: after, ended, completed, faults⟩
  | take (job : Job ε) (waiting : List (Job ε)) (before after : List (Station ε))
    (ended : List (Job ε)) (completed : ℕ) (faults : FaultSlot ε) :
    Step ofWorker ⟨job :: waiting, before ++ .taking :: after, ended, completed, faults⟩
      ⟨waiting, before ++ .busy job :: after, ended, completed, faults⟩
  | leave (before after : List (Station ε)) (ended : List (Job ε)) (completed : ℕ)
    (faults : FaultSlot ε) :
    Step ofWorker ⟨[], before ++ .taking :: after, ended, completed, faults⟩
      ⟨[], before ++ .stopped :: after, ended, completed, faults⟩
  | finish (job : Job ε) (waiting : List (Job ε)) (before after : List (Station ε))
    (ended : List (Job ε)) (completed : ℕ) (faults : FaultSlot ε)
    (h : job.report? ofWorker = none) :
    Step ofWorker ⟨waiting, before ++ .busy job :: after, ended, completed, faults⟩
      ⟨waiting, before ++ .looking :: after, ended ++ [job], completed + 1, faults⟩
  | fail (job : Job ε) (error : ε) (waiting : List (Job ε)) (before after : List (Station ε))
    (ended : List (Job ε)) (completed : ℕ) (faults : FaultSlot ε)
    (h : job.report? ofWorker = some error) :
    Step ofWorker ⟨waiting, before ++ .busy job :: after, ended, completed, faults⟩
      ⟨waiting, before ++ .looking :: after, ended ++ [job], completed, (faults.record error).2⟩

/-- A number of workers before any of them has looked. -/
def idle (jobs : List (Job ε)) (workers : ℕ) : Team ε :=
  ⟨jobs, List.replicate workers .looking, [], 0, .empty⟩

/-- Every worker has stopped. -/
def Finished (team : Team ε) : Prop :=
  ∀ station ∈ team.stations, station = .stopped

/-- The jobs that workers are busy with. -/
def underWay (team : Team ε) : List (Job ε) :=
  team.stations.filterMap Station.job?

/-- What a team returns that has taken a number of jobs on. -/
def answer (team : Team ε) (jobs : ℕ) : Except ε BatchStats :=
  conclusion team.stations.length jobs team.completed team.faults.held

/-- The steps that a worker makes at most before it takes another job or stops. -/
def stepsLeft : Station ε → ℕ
  | .looking => 2
  | .taking => 1
  | .busy _ => 3
  | .stopped => 0

/-- A bound on the steps that a team can still make. -/
def remaining (team : Team ε) : ℕ :=
  3 * team.waiting.length + (team.stations.map stepsLeft).sum

theorem remaining_lt_of_step (h : Step ofWorker team team') : team'.remaining < team.remaining := by
  cases h with
  | look => simp [remaining, stepsLeft]
  | halt => simp [remaining, stepsLeft]
  | take =>
    simp [remaining, stepsLeft]
    omega
  | leave => simp [remaining, stepsLeft]
  | finish => simp [remaining, stepsLeft]
  | fail => simp [remaining, stepsLeft]

theorem length_stations_of_step (h : Step ofWorker team team') :
    team'.stations.length = team.stations.length := by
  cases h <;> simp

theorem exists_step_of_not_finished (ofWorker : WorkerFault → ε) (h : ¬ team.Finished) :
    ∃ next, Step ofWorker team next := by
  obtain ⟨waiting, stations, ended, completed, faults⟩ := team
  unfold Finished at h
  push Not at h
  obtain ⟨station, hmem, hgoes⟩ := h
  obtain ⟨before, after, rfl⟩ := List.append_of_mem hmem
  cases station with
  | looking =>
    by_cases hheld : faults.held = none
    · exact ⟨_, .look waiting before after ended completed faults hheld⟩
    · exact ⟨_, .halt waiting before after ended completed faults hheld⟩
  | taking =>
    cases waiting with
    | nil => exact ⟨_, .leave before after ended completed faults⟩
    | cons job waiting => exact ⟨_, .take job waiting before after ended completed faults⟩
  | busy job =>
    cases hreport : job.report? ofWorker with
    | none => exact ⟨_, .finish job waiting before after ended completed faults hreport⟩
    | some error => exact ⟨_, .fail job error waiting before after ended completed faults hreport⟩
  | stopped => exact absurd rfl hgoes

/-- Whatever its workers have done so far, a team can finish. -/
theorem exists_finished (ofWorker : WorkerFault → ε) (team : Team ε) :
    ∃ last, ReflTransGen (Step ofWorker) team last ∧ last.Finished :=
  Components.exists_finished_of_progress remaining (fun _ _ ↦ remaining_lt_of_step)
    (fun _ _ _ (h : True) ↦ h) (fun _ _ ↦ exists_step_of_not_finished ofWorker) trivial

/-- Jobs are taken from the front of the list. Those taken have ended or are under way, those done
are counted, the first failure among those ended is held, and no worker stops before either a
failure is held or no job waits. -/
structure Accounts (ofWorker : WorkerFault → ε) (jobs : List (Job ε)) (team : Team ε) : Prop where
  exists_taken : ∃ taken, taken ++ team.waiting = jobs ∧ (team.ended ++ team.underWay).Perm taken
  completed_eq : team.completed + team.ended.countP Job.fails = team.ended.length
  held_eq : team.faults.held = team.ended.findSome? (Job.report? ofWorker)
  waiting_eq : .stopped ∈ team.stations → team.faults.held = none → team.waiting = []

theorem accounts_idle (jobs : List (Job ε)) (workers : ℕ) :
    Accounts ofWorker jobs (idle jobs workers) where
  exists_taken := ⟨[], rfl, by simp [idle, underWay, Station.job?]⟩
  completed_eq := rfl
  held_eq := rfl
  waiting_eq hstopped := absurd hstopped (by simp [idle])

/-- Under way is the job of one worker, if it is busy, and what the others are busy with. -/
theorem perm_underWay_iff (waiting : List (Job ε)) (before after : List (Station ε))
    (station : Station ε) (ended : List (Job ε)) (completed : ℕ) (faults : FaultSlot ε)
    (past taken : List (Job ε)) :
    (past ++ underWay ⟨waiting, before ++ station :: after, ended, completed, faults⟩).Perm taken ↔
      (past ++ (station.job?.toList ++ (before ++ after).filterMap Station.job?)).Perm taken := by
  have hmiddle : (before ++ station :: after).Perm ([station] ++ (before ++ after)) :=
    List.perm_middle
  have hstation : [station].filterMap Station.job? = station.job?.toList := by
    cases station <;> rfl
  have hunderWay := (hmiddle.filterMap Station.job?).append_left past
  rw [@List.filterMap_append _ _ [station], hstation] at hunderWay
  exact ⟨hunderWay.symm.trans, hunderWay.trans⟩

theorem Accounts.step (h : Accounts ofWorker jobs team) (hstep : Step ofWorker team team') :
    Accounts ofWorker jobs team' := by
  obtain ⟨⟨taken, htaken, hperm⟩, hcompleted, hheld, hwaiting⟩ := h
  cases hstep with
  | look waiting before after ended completed faults hnone =>
    rw [perm_underWay_iff] at hperm
    refine ⟨⟨taken, htaken, (perm_underWay_iff ..).mpr hperm⟩, hcompleted, hheld, ?_⟩
    simpa using hwaiting
  | halt waiting before after ended completed faults hsome =>
    rw [perm_underWay_iff] at hperm
    exact ⟨⟨taken, htaken, (perm_underWay_iff ..).mpr hperm⟩, hcompleted, hheld,
      fun _ hnone ↦ absurd hnone hsome⟩
  | take job waiting before after ended completed faults =>
    rw [perm_underWay_iff] at hperm
    refine ⟨⟨taken ++ [job], ?_, (perm_underWay_iff ..).mpr ?_⟩, hcompleted, hheld,
      fun hstopped hnone ↦ ?_⟩
    · rw [← htaken, List.append_assoc, List.singleton_append]
    · calc
        List.Perm (ended ++ job :: (before ++ after).filterMap Station.job?)
            (job :: (ended ++ (before ++ after).filterMap Station.job?)) := List.perm_middle
        List.Perm _ (job :: taken) := hperm.cons job
        List.Perm _ (taken ++ [job]) := (List.perm_append_singleton job taken).symm
    · exact absurd (hwaiting (by simpa using hstopped) hnone) (List.cons_ne_nil job waiting)
  | leave before after ended completed faults =>
    rw [perm_underWay_iff] at hperm
    exact ⟨⟨taken, htaken, (perm_underWay_iff ..).mpr hperm⟩, hcompleted, hheld, fun _ _ ↦ rfl⟩
  | finish job waiting before after ended completed faults hreport =>
    rw [perm_underWay_iff] at hperm
    have hdone : job.fails = false := by rw [← job.isSome_report? ofWorker, hreport]; rfl
    refine ⟨⟨taken, htaken, (perm_underWay_iff ..).mpr ?_⟩, ?_, ?_, ?_⟩
    · rw [List.append_assoc]
      exact hperm
    · dsimp only at hcompleted ⊢
      rw [List.countP_append, List.countP_singleton, hdone, List.length_append,
        List.length_singleton, if_neg Bool.false_ne_true]
      omega
    · rw [List.findSome?_append, List.findSome?_singleton, hreport, Option.or_none]
      exact hheld
    · simpa using hwaiting
  | fail job error waiting before after ended completed faults hreport =>
    rw [perm_underWay_iff] at hperm
    have hfails : job.fails = true := by rw [← job.isSome_report? ofWorker, hreport]; rfl
    refine ⟨⟨taken, htaken, (perm_underWay_iff ..).mpr ?_⟩, ?_, ?_, fun _ hnone ↦ ?_⟩
    · rw [List.append_assoc]
      exact hperm
    · dsimp only at hcompleted ⊢
      rw [List.countP_append, List.countP_singleton, hfails, List.length_append,
        List.length_singleton, if_pos rfl]
      omega
    · -- a failure that was held before stays, and the new one is discarded
      dsimp only at hheld ⊢
      rw [FaultSlot.snd_record, List.findSome?_append, List.findSome?_singleton, hreport, hheld]
    · rw [FaultSlot.snd_record, Option.or_eq_none_iff] at hnone
      exact absurd hnone.2 (Option.some_ne_none error)

theorem Accounts.reaches (h : Accounts ofWorker jobs team)
    (hreach : ReflTransGen (Step ofWorker) team team') : Accounts ofWorker jobs team' := by
  induction hreach with
  | refl => exact h
  | tail _ hstep ih => exact ih.step hstep

theorem length_stations_of_reaches (hreach : ReflTransGen (Step ofWorker) team team') :
    team'.stations.length = team.stations.length := by
  induction hreach with
  | refl => rfl
  | tail _ hstep ih => rw [length_stations_of_step hstep, ih]

/-- The jobs that a team has taken when it has finished have all ended, and none is left waiting
unless a failure is held. -/
theorem Accounts.of_finished (h : Accounts ofWorker jobs team) (hfinished : team.Finished)
    (hworkers : 0 < team.stations.length) :
    (∃ taken, taken ++ team.waiting = jobs ∧ team.ended.Perm taken) ∧
      (team.faults.held = none → team.ended.Perm jobs) := by
  obtain ⟨taken, htaken, hperm⟩ := h.exists_taken
  have hidle : team.underWay = [] := by
    unfold underWay
    rw [List.filterMap_eq_nil_iff]
    intro station hstation
    rw [hfinished station hstation]
    rfl
  rw [hidle, List.append_nil] at hperm
  refine ⟨⟨taken, htaken, hperm⟩, fun hnone ↦ ?_⟩
  have hstopped : .stopped ∈ team.stations :=
    hfinished _ (List.getElem_mem hworkers) ▸ List.getElem_mem hworkers
  rw [h.waiting_eq hstopped hnone, List.append_nil] at htaken
  rwa [← htaken]

/-- If one job fails at most, a team that has finished returns what a run returns. -/
theorem Accounts.answer_eq (h : Accounts ofWorker jobs team) (hfinished : team.Finished)
    (hthreads : threads.Offers concurrency)
    (hworkers : team.stations.length = workers concurrency jobs.length)
    (hone : jobs.countP Job.fails ≤ 1) :
    team.answer jobs.length = returned threads ofWorker concurrency jobs := by
  have hpositive : 0 < team.stations.length := by
    rw [hworkers, workers]
    omega
  obtain ⟨⟨taken, htaken, hperm⟩, hall⟩ := h.of_finished hfinished hpositive
  rw [returned_eq hthreads, answer, hworkers]
  cases hheld : team.faults.held with
  | none =>
    have hended := hall hheld
    have hnone := h.held_eq.symm.trans hheld
    have hfails : team.ended.countP Job.fails = 0 := by
      rw [List.countP_eq_zero]
      intro job hjob
      rw [← job.isSome_report? ofWorker, List.findSome?_eq_none_iff.mp hnone job hjob]
      exact Bool.false_ne_true
    have hcompleted := h.completed_eq
    rw [hfails, Nat.add_zero, hended.length_eq] at hcompleted
    rw [← findSome?_report?_of_perm hone hended, hnone, hcompleted]
  | some error =>
    obtain ⟨job, hjob, herror⟩ :=
      List.exists_of_findSome?_eq_some (h.held_eq.symm.trans hheld)
    have hmem : job ∈ jobs := htaken ▸ List.mem_append_left _ (hperm.mem_iff.mp hjob)
    rw [findSome?_report?_of_mem hone hmem herror]
    rfl

end Team

/-! ## Every batch once, or up to the first failure -/

/-- One worker calls the task on the batches in order, up to the first call that fails. It returns
counts if no call does, and otherwise the error of that call, or its batch with the value of its
panic; it needs no threads. Several workers take each place on the list once at most; and if they are
started and one task fails at most, they return, however they interleave, what one worker returns on
the batches in any order. -/
theorem runBatches_up_to_first_failure (threads : Threads) (ofWorker : WorkerFault → ε)
    (concurrency : ℕ) :
    (∀ (task : σ → NodeBatch → σ × TaskOutcome ε) (state : σ) (batches : List NodeBatch),
      concurrency ≤ 1 ∨ batches.length ≤ 1 →
      workers concurrency batches.length = 1 ∧
      ((∃ stats, (runBatches threads ofWorker concurrency batches task state).2 = .ok stats) ↔
        AllDone task state batches) ∧
      (AllDone task state batches →
        RunsThrough threads ofWorker concurrency batches task state batches
          (.ok ⟨max 1 (min concurrency batches.length), batches.length, batches.length⟩)) ∧
      ∀ before batch after, batches = before ++ batch :: after → AllDone task state before →
        (∀ error, outcomeAfter task state before batch = .failed error →
          RunsThrough threads ofWorker concurrency batches task state (before ++ [batch])
            (.error error)) ∧
        ∀ value, outcomeAfter task state before batch = .panicked value →
          ∃ payload : PanicPayload, payload = .ofValue value ∧ payload.value? = some value ∧
            RunsThrough threads ofWorker concurrency batches task state (before ++ [batch])
              (.error (ofWorker (.panicked batch payload)))) ∧
    ∀ (jobs : List (Job ε)) (team : Team ε),
      ReflTransGen (Team.Step ofWorker) (.idle jobs (workers concurrency jobs.length)) team →
      (∃ last, ReflTransGen (Team.Step ofWorker) team last ∧ last.Finished) ∧
      (team.Finished →
        (∃ taken, taken ++ team.waiting = jobs ∧ team.ended.Perm taken) ∧
        (team.faults.held = none → team.ended.Perm jobs) ∧
        (threads.Offers concurrency → jobs.countP Job.fails ≤ 1 → ∀ order, order.Perm jobs →
          team.answer jobs.length = returned threads ofWorker concurrency order)) := by
  refine ⟨fun task state batches halone ↦ ?_, fun jobs team hreach ↦ ?_⟩
  · have hworkers : workers concurrency batches.length = 1 := by
      unfold workers
      omega
    have hstart : startWorkers threads (workers concurrency batches.length) = .ok () := by
      rw [hworkers, startWorkers, if_pos rfl]
    refine ⟨hworkers, exists_runBatches_eq_ok_iff ofWorker hstart, fun h ↦ ?_, ?_⟩
    · rw [max_comm]
      exact runsThrough_of_allDone ofWorker hstart h
    · rintro before batch after rfl hbefore
      refine ⟨fun error herror ↦ ?_, fun value hvalue ↦ ?_⟩
      · apply runsThrough_of_first_failure ofWorker hstart hbefore
        rw [herror]
        rfl
      · refine ⟨_, rfl, PanicPayload.value?_ofValue value, ?_⟩
        apply runsThrough_of_first_failure ofWorker hstart hbefore
        rw [hvalue]
        rfl
  · have haccounts := (Team.accounts_idle jobs _).reaches hreach
    have hstations : team.stations.length = workers concurrency jobs.length := by
      rw [Team.length_stations_of_reaches hreach, Team.idle, List.length_replicate]
    refine ⟨Team.exists_finished ofWorker team, fun hfinished ↦ ?_⟩
    have hended := haccounts.of_finished hfinished (by rw [hstations, workers]; omega)
    refine ⟨hended.1, hended.2, fun hthreads hone order h ↦ ?_⟩
    rw [haccounts.answer_eq hfinished hthreads hstations hone, returned_eq_of_perm hthreads hone h]

/-- The task that panics on its third call. -/
def thirdCallPanics (calls : ℕ) (_ : NodeBatch) : ℕ × TaskOutcome WorkerFault :=
  (calls + 1, if calls = 2 then .panicked (.marker "late") else .done)

/-- A batch that is on the list twice, and fails the second time only. -/
def repeatedBatch : List (Job WorkerFault) :=
  [⟨⟨0, 2⟩, .done⟩, ⟨⟨2, 4⟩, .done⟩, ⟨⟨2, 4⟩, .panicked (.marker "late")⟩, ⟨⟨4, 6⟩, .done⟩]

theorem runBatches_up_to_first_failure_of_repeatedBatch :
    runBatches .unlimited id 1 [⟨0, 2⟩, ⟨2, 4⟩, ⟨2, 4⟩, ⟨4, 6⟩] (noting thirdCallPanics) (0, []) =
      ((3, [⟨0, 2⟩, ⟨2, 4⟩, ⟨2, 4⟩]), .error (.panicked ⟨2, 4⟩ (.ofValue (.marker "late")))) ∧
    repeatedBatch.countP Job.fails ≤ 1 ∧
    ∃ team, ReflTransGen (Team.Step id) (.idle repeatedBatch 3) team ∧ team.Finished ∧
      team.answer 4 = returned .unlimited id 3 repeatedBatch.reverse := by
  have hone : repeatedBatch.countP Job.fails ≤ 1 := by decide
  have hbefore : AllDone thirdCallPanics 0 [⟨0, 2⟩, ⟨2, 4⟩] :=
    allDone_cons.mpr ⟨rfl, allDone_cons.mpr ⟨rfl, allDone_nil⟩⟩
  refine ⟨?_, hone, ?_⟩
  · obtain ⟨_, _, _, hfirst⟩ := (runBatches_up_to_first_failure .unlimited id 1).1
      thirdCallPanics 0 [⟨0, 2⟩, ⟨2, 4⟩, ⟨2, 4⟩, ⟨4, 6⟩] (.inl (Nat.le_refl 1))
    obtain ⟨_, rfl, _, hruns⟩ := (hfirst [⟨0, 2⟩, ⟨2, 4⟩] ⟨2, 4⟩ [⟨4, 6⟩] rfl hbefore).2 _ rfl
    exact hruns.runBatches_noting_eq
  · obtain ⟨team, hreach, hfinished⟩ := Team.exists_finished id (Team.idle repeatedBatch 3)
    obtain ⟨_, hanswer⟩ :=
      (@runBatches_up_to_first_failure ℕ _ .unlimited id 3).2 repeatedBatch team hreach
    exact ⟨team, hreach, hfinished, (hanswer hfinished).2.2 (Threads.offers_unlimited 3) hone _
      (List.reverse_perm repeatedBatch)⟩

end Dispatch

end WeakComponents
