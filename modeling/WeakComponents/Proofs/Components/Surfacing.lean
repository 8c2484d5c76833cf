import WeakComponents.Graph.Tabulated
import WeakComponents.Proofs.Components.Crew

/-!
# How failures surface

A run has a result just if no node fails to be read. If all nodes that fail lie in one batch, every
run ends with the failure of the first of them as it was, under the name of the batch, whatever the
number of workers and however they take turns.
-/

open Relation

namespace WeakComponents.Components

variable {G : Type} [Graph G] {threads : Threads} {graph : G} {config : Config}

/-- What a run without weights follows from each node. -/
def neighborsIn (graph : G) (config : Config) (node : Slot) : Reading Slot :=
  Graph.neighbors graph node config.direction

theorem runUnweighted_eq_execute (threads : Threads) (hcount : Graph.nodeCount graph ≤ slotLimit)
    (hvalid : config.validate = .ok ()) (hthreshold : config.threshold = none)
    (hunseeded : config.seedProperty = none) :
    runUnweighted threads graph config =
      execute threads graph config none (neighborsIn graph config) := by
  rw [runUnweighted, checkUnweighted_of_nodeCount_le hcount hvalid hthreshold hunseeded]
  rfl

/-- Finished workers have a result just if the run has, and it is the same. -/
theorem answer_eq_ok_iff (hthreads : threads.Offers config.concurrency.toNat)
    (hcount : Graph.nodeCount graph ≤ slotLimit) {followed : Slot → Reading Slot}
    (hdelivers : DeliversWithin followed (Graph.nodeCount graph)) {workers : ℕ}
    (hworkers : 0 < workers) {crew : Crew}
    (hreach : GetsTo graph config none followed workers crew) (hfinished : crew.Finished)
    (result : Result) :
    crew.answer 0 config.minComponentSize = .ok result ↔
      execute threads graph config none followed = .ok result := by
  have hanswer (hcomplete : ∀ slot, slot.toNat < Graph.nodeCount graph →
      (followed slot).interruption = none) :
      crew.answer 0 config.minComponentSize = execute threads graph config none followed :=
    hreach.answer_eq_of_complete hthreads (admissible_none hcount) hworkers
      (fun slot hslot ↦ ⟨hcomplete slot hslot, hdelivers slot hslot⟩) hfinished
  constructor
  · intro hresult
    rw [← hresult, hanswer ((hreach.exists_answer_eq_ok_iff hcount hfinished _ _).mp ⟨_, hresult⟩)]
  · intro hresult
    rw [← hresult, hanswer ((exists_execute_eq_ok_iff hthreads (admissible_none hcount)
      hdelivers).mp ⟨result, hresult⟩)]

/--
A run without weights and seeds has a result just if every node can be read, and so have all
schedules of its batches, in which a worker does what the task of the run does. If all nodes that
cannot be read lie in one batch, the run ends with an error that carries the batch and the failure
of the first of them, and so does every schedule; nothing of the batch is read behind that node, and
what a graph has there makes no difference to the task or to the run.
-/
theorem failures_surface (hthreads : threads.Offers config.concurrency.toNat)
    (hcount : Graph.nodeCount graph ≤ slotLimit)
    (hdelivers : DeliversWithin (neighborsIn graph config) (Graph.nodeCount graph))
    (hvalid : config.validate = .ok ()) (hthreshold : config.threshold = none)
    (hunseeded : config.seedProperty = none) :
    ((∃ result, runUnweighted threads graph config = .ok result) ↔
      ∀ node, node.toNat < Graph.nodeCount graph →
        (neighborsIn graph config node).interruption = none) ∧
    (∀ workers crew, 0 < workers →
      GetsTo graph config none (neighborsIn graph config) workers crew →
      (∃ last, ReflTransGen (Crew.Step (actionsOf (neighborsIn graph config))) crew last ∧
        last.Finished) ∧
      (∀ batch waiting, crew.waiting = batch :: waiting → [] ∈ crew.workers →
        ReflTransGen (Crew.Step (actionsOf (neighborsIn graph config))) crew
          (crew.afterBatch (neighborsIn graph config) batch waiting)) ∧
      (crew.Finished → ∀ result, runUnweighted threads graph config = .ok result ↔
        crew.answer 0 config.minComponentSize = .ok result)) ∧
    ∀ batch ∈ workBatches graph config,
      (∃ node : Slot, node.toNat < Graph.nodeCount graph ∧
        (neighborsIn graph config node).interruption ≠ none) →
      (∀ node : Slot, node.toNat < Graph.nodeCount graph →
        (neighborsIn graph config node).interruption ≠ none → batch.contains node = true) →
      ∃ node interruption error,
        IsLeast {node : Slot | node.toNat < Graph.nodeCount graph ∧
          (neighborsIn graph config node).interruption ≠ none} node ∧
        (neighborsIn graph config node).interruption = some interruption ∧
        runUnweighted threads graph config = .error error ∧ error.Carries batch interruption ∧
        (∀ (H : Type) [Graph H] (other : H), Graph.nodeCount other = Graph.nodeCount graph →
          (∀ slot, ¬ (batch.contains slot = true ∧ node < slot) →
            neighborsIn other config slot = neighborsIn graph config slot) →
          (∀ forest, uniteBatch (neighborsIn other config) forest batch =
            uniteBatch (neighborsIn graph config) forest batch) ∧
          runUnweighted threads other config = .error error) ∧
        ∀ workers crew, GetsTo graph config none (neighborsIn graph config) workers crew →
          (crew.Finished → crew.answer 0 config.minComponentSize = .error error) ∧
          ∀ slot, batch.contains slot = true → node < slot → slot ∉ crew.seen := by
  have hadmissible := admissible_none hcount
  have hrun := runUnweighted_eq_execute threads hcount hvalid hthreshold hunseeded
  refine ⟨?_, fun workers crew hworkers hreach ↦ ⟨hreach.exists_finished hworkers,
    fun batch waiting ↦ hreach.reaches_afterBatch hadmissible hdelivers, ?_⟩, ?_⟩
  · rw [hrun]
    exact exists_execute_eq_ok_iff hthreads hadmissible hdelivers
  · intro hfinished result
    rw [hrun]
    exact (answer_eq_ok_iff hthreads hcount hdelivers hworkers hreach hfinished result).symm
  · intro batch hbatch hfails hwithin
    obtain ⟨node, interruption, hfirst⟩ := exists_failsFirst hfails hwithin
    have herror := execute_eq_error hthreads hadmissible hdelivers
      (hfirst.findSome?_errorOf? hcount hbatch)
    refine ⟨node, interruption, RunError.ofInterruption batch interruption, hfirst.isLeast,
      hfirst.interruption_eq, hrun.trans herror, RunError.carries_ofInterruption batch interruption,
      fun H _ other hnodes hsame ↦ ?_, fun workers crew hreach ↦ ⟨fun hfinished ↦ ?_, ?_⟩⟩
    · have htasks {work : NodeBatch} (hwork : work ∈ workBatches graph config)
          (forest : UnionFind) := hfirst.uniteBatch_eq_of_same hcount hbatch hsame hwork forest
      refine ⟨htasks hbatch, ?_⟩
      rw [runUnweighted_eq_execute threads (hnodes ▸ hcount) hvalid hthreshold hunseeded,
        execute_congr threads hnodes fun work hwork ↦ htasks hwork, herror]
    · exact hfirst.answer_eq hcount hbatch hreach hfinished _ _
    · intro slot hslot hbehind
      exact hfirst.not_mem_seen hcount hbatch hreach hslot hbehind

/-- Four nodes of which the last two cannot be read, one for a fault and one for a panic. -/
def brokenGraph : TabulatedGraph where
  nodeCount := 4
  rows _ := some #[[(1, 1.0)], [(2, 1.0)], [], []]
  weighted := false
  interruptions := [(3, .panic (.marker "late")),
    (2, .fault (.ofCause 2 (.wrapped "page lost" (.typed "disk is full" "disk"))))]
  columns := .empty

/-- Two workers take two nodes each, and the run ends with the fault of the smaller node. -/
theorem failures_surface_of_brokenGraph :
    ∃ error, runUnweighted .unlimited brokenGraph ⟨2, 1, .outgoing, none, none, none⟩ = .error error ∧
      error.batch? = some ⟨2, 4⟩ ∧ error.rootCause = .cause (.typed "disk is full" "disk") := by
  have hnodes (slot : Slot) (h : slot.toNat < 4) : slot = 0 ∨ slot = 1 ∨ slot = 2 ∨ slot = 3 := by
    simp only [← UInt32.toNat_inj, UInt32.reduceToNat]
    omega
  have hdelivers : DeliversWithin (neighborsIn brokenGraph ⟨2, 1, .outgoing, none, none, none⟩)
      (Graph.nodeCount brokenGraph) := by
    intro slot hslot target htarget
    rcases hnodes slot hslot with rfl | rfl | rfl | rfl
    · obtain rfl := List.mem_singleton.mp htarget
      decide
    · obtain rfl := List.mem_singleton.mp htarget
      decide
    · exact absurd htarget List.not_mem_nil
    · exact absurd htarget List.not_mem_nil
  have hbatches : workBatches brokenGraph ⟨2, 1, .outgoing, none, none, none⟩ =
      [⟨0, 2⟩, ⟨2, 4⟩] := by
    change NodeBatch.cut 4 2 0 = _
    simp [NodeBatch.cut]
  obtain ⟨_, _, hsurface⟩ := failures_surface (Threads.offers_unlimited 2) (by decide) hdelivers
    rfl rfl rfl
  obtain ⟨node, interruption, error, hleast, hinterruption, hrun, hcarries, _⟩ :=
    hsurface ⟨2, 4⟩ (by simp [hbatches]) ⟨2, by decide, by decide⟩ fun slot hslot hfails ↦ by
      rcases hnodes slot hslot with rfl | rfl | rfl | rfl
      · exact absurd rfl hfails
      · exact absurd rfl hfails
      · decide
      · decide
  have hnode : node = 2 := by
    have hle : node ≤ 2 := hleast.2 ⟨by decide, by decide⟩
    rcases hnodes node hleast.1.1 with rfl | rfl | rfl | rfl
    · exact absurd rfl hleast.1.2
    · exact absurd rfl hleast.1.2
    · rfl
    · exact absurd hle (by decide)
  subst hnode
  obtain ⟨_, hroot⟩ := hcarries.of_fault _ (Option.some.inj hinterruption).symm
  exact ⟨error, hrun, hcarries.batch?_eq, hroot⟩

end WeakComponents.Components
