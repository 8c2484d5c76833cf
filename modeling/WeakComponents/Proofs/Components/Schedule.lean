import WeakComponents.Proofs.Components.Following

/-!
# Schedules

Several workers take batches in turn and unite pairs in one forest, each union happening at once.
However their unions interleave, they unite the same pairs in the end, and what a run settles on
depends only on which slots are connected by them: not on their order, on the way they point, or
on how often they are united.
-/

open Relation

namespace WeakComponents.Components

open UnionFind (Origin PairsBelow)

variable {origin : Origin} {forest forest' : UnionFind} {pairs pairs' all : List (Slot × Slot)}

/-- Forests grown from one origin by pairs that connect the same slots settle alike. -/
theorem conclude_eq_of_eqvGen_eq (hvalid : origin.Valid) (h : origin.Grown pairs forest)
    (h' : origin.Grown pairs' forest')
    (hsame : EqvGen (origin.Joins pairs) = EqvGen (origin.Joins pairs')) (offset : UInt64)
    (minComponentSize : Option UInt64) :
    conclude forest offset minComponentSize = conclude forest' offset minComponentSize := by
  have hroot (slot : Slot) : forest.root slot = forest'.root slot :=
    h.represents.root_eq (h'.represents.congr hsame.symm) h.ordered h'.ordered
      (h.seeds_eq.trans h'.seeds_eq.symm) slot
  have hslots : forest.slots = forest'.slots := by
    rw [UnionFind.slots_eq, UnionFind.slots_eq, h.size_eq, h'.size_eq]
  have hclasses : Connectivity.classes (origin.Joins pairs) origin.size =
      Connectivity.classes (origin.Joins pairs') origin.size := by
    unfold Connectivity.classes
    rw [hsame]
  calc
    conclude forest offset minComponentSize =
        ⟨(forest.slots.map fun slot ↦ numberOf origin offset (forest.root slot)).toArray,
          (Connectivity.classes (origin.Joins pairs) origin.size).ncard, minComponentSize⟩ :=
      conclude_eq hvalid h offset minComponentSize
    _ = ⟨(forest'.slots.map fun slot ↦ numberOf origin offset (forest'.root slot)).toArray,
          (Connectivity.classes (origin.Joins pairs') origin.size).ncard, minComponentSize⟩ := by
      rw [hslots, hclasses]
      simp only [hroot]
    _ = conclude forest' offset minComponentSize :=
      (conclude_eq hvalid h' offset minComponentSize).symm

theorem eqvGen_joins_eq_of_symmGen_iff
    (hsymm : ∀ a b, SymmGen (fun a b ↦ (a, b) ∈ pairs) a b ↔
      SymmGen (fun a b ↦ (a, b) ∈ pairs') a b) :
    EqvGen (origin.Joins pairs) = EqvGen (origin.Joins pairs') := by
  apply Connectivity.eqvGen_eq_of_symmGen_iff
  intro a b
  have hab := hsymm a b
  rw [Connectivity.symmGen_iff, Connectivity.symmGen_iff] at hab ⊢
  unfold UnionFind.Origin.Joins
  grind

/-- The same calls in another order, some with their arguments swapped and some repeated. -/
inductive Rearranged : List (Slot × Slot) → List (Slot × Slot) → Prop where
  | perm {calls calls' : List (Slot × Slot)} (h : calls.Perm calls') : Rearranged calls calls'
  | swap (before after : List (Slot × Slot)) (a b : Slot) :
    Rearranged (before ++ (a, b) :: after) (before ++ (b, a) :: after)
  | again {calls : List (Slot × Slot)} {call : Slot × Slot} (h : call ∈ calls) :
    Rearranged calls (call :: calls)
  | trans {calls calls' calls'' : List (Slot × Slot)} (h : Rearranged calls calls')
    (h' : Rearranged calls' calls'') : Rearranged calls calls''

theorem Rearranged.symmGen_iff (h : Rearranged pairs pairs') (a b : Slot) :
    SymmGen (fun a b ↦ (a, b) ∈ pairs) a b ↔ SymmGen (fun a b ↦ (a, b) ∈ pairs') a b := by
  rw [Connectivity.symmGen_iff, Connectivity.symmGen_iff]
  induction h with
  | perm h => simp only [h.mem_iff]
  | swap before after c d =>
    simp only [List.mem_append, List.mem_cons, Prod.mk.injEq]
    tauto
  | again h =>
    simp only [List.mem_cons]
    grind
  | trans _ _ ih ih' => exact ih.trans ih'

theorem Rearranged.pairsBelow {count : ℕ} (h : Rearranged pairs pairs')
    (hpairs : PairsBelow count pairs) : PairsBelow count pairs' := by
  rintro ⟨a, b⟩ hpair
  rcases (h.symmGen_iff a b).mpr (.inl hpair) with hold | hold
  · exact hpairs (a, b) hold
  · exact (hpairs (b, a) hold).symm

/-- What a run settles on that makes some calls of union, in order. -/
def settleCalls (count : ℕ) (seeds : Option (Array (Option UInt64)))
    (minComponentSize : Option UInt64) (calls : List (Slot × Slot)) : Except OutOfBounds Result :=
  match (start count seeds).1.unionAll calls with
  | (.error error, _) => .error error
  | (.ok _, forest) => .ok (conclude forest (start count seeds).2 minComponentSize)

theorem settleCalls_eq {count : ℕ} {seeds : Option (Array (Option UInt64))}
    (h : Admissible count seeds) (minComponentSize : Option UInt64)
    (hpairs : PairsBelow count pairs) :
    settleCalls count seeds minComponentSize pairs =
      .ok (conclude ((originOf count seeds).forest.mergeAll pairs) (start count seeds).2
        minComponentSize) := by
  have hbelow : PairsBelow (originOf count seeds).forest.size pairs := by
    rwa [h.valid.size_forest, h.size_originOf]
  obtain ⟨answers, hanswers⟩ := h.valid.ordered_forest.unionAll_eq hbelow
  rw [settleCalls, start_fst, hanswers]

/-- A system of states that can step until it is finished does finish if steps use up a measure. -/
theorem exists_finished_of_progress {σ : Type} {step : σ → σ → Prop} {finished valid : σ → Prop}
    (measure : σ → ℕ) (hmeasure : ∀ state next, step state next → measure next < measure state)
    (hvalid : ∀ state next, step state next → valid state → valid next)
    (hprogress : ∀ state, valid state → ¬ finished state → ∃ next, step state next) {state : σ}
    (h : valid state) : ∃ last, ReflTransGen step state last ∧ finished last := by
  induction hsteps : measure state using Nat.strong_induction_on generalizing state with
  | h steps ih =>
    by_cases hfinished : finished state
    · exact ⟨state, .refl, hfinished⟩
    · obtain ⟨next, hnext⟩ := hprogress state h hfinished
      obtain ⟨last, hreach, hlast⟩ :=
        ih _ (hsteps ▸ hmeasure state next hnext) (hvalid state next hnext h) rfl
      exact ⟨last, .head hnext hreach, hlast⟩

/-- Workers that share a forest: the batches that no worker has taken, and for each worker the
pairs that it still has to unite. -/
structure Pool where
  forest : UnionFind
  waiting : List NodeBatch
  workers : List (List (Slot × Slot))

namespace Pool

variable {pairsOf : NodeBatch → List (Slot × Slot)} {pool pool' : Pool}

/-- An idle worker takes the next batch, or a busy one unites its next pair. -/
inductive Step (pairsOf : NodeBatch → List (Slot × Slot)) : Pool → Pool → Prop where
  | take (forest : UnionFind) (batch : NodeBatch) (waiting : List NodeBatch)
    (before after : List (List (Slot × Slot))) :
    Step pairsOf ⟨forest, batch :: waiting, before ++ [] :: after⟩
      ⟨forest, waiting, before ++ pairsOf batch :: after⟩
  | unite (forest : UnionFind) (waiting : List NodeBatch) (a b : Slot)
    (rest : List (Slot × Slot)) (before after : List (List (Slot × Slot))) :
    Step pairsOf ⟨forest, waiting, before ++ ((a, b) :: rest) :: after⟩
      ⟨(forest.union a b).2, waiting, before ++ rest :: after⟩

/-- A number of idle workers before any batch is taken. -/
def idle (forest : UnionFind) (batches : List NodeBatch) (workers : ℕ) : Pool :=
  ⟨forest, batches, List.replicate workers []⟩

/-- No batch waits and no worker has a pair left. -/
def Finished (pool : Pool) : Prop :=
  pool.waiting = [] ∧ ∀ worker ∈ pool.workers, worker = []

/-- The pairs that are still to be united. -/
def left (pairsOf : NodeBatch → List (Slot × Slot)) (pool : Pool) : List (Slot × Slot) :=
  pool.workers.flatten ++ pool.waiting.flatMap pairsOf

/-- The steps that are still to be made. -/
def remaining (pairsOf : NodeBatch → List (Slot × Slot)) (pool : Pool) : ℕ :=
  (pool.left pairsOf).length + pool.waiting.length

theorem remaining_lt_of_step (h : Step pairsOf pool pool') :
    pool'.remaining pairsOf < pool.remaining pairsOf := by
  cases h with
  | take forest batch waiting before after =>
    simp [remaining, left]
    omega
  | unite forest waiting a b rest before after => simp [remaining, left]

theorem length_workers_of_step (h : Step pairsOf pool pool') :
    pool'.workers.length = pool.workers.length := by
  cases h <;> simp

theorem exists_step_of_not_finished (pairsOf : NodeBatch → List (Slot × Slot))
    (hworkers : 0 < pool.workers.length) (h : ¬ pool.Finished) :
    ∃ next, Step pairsOf pool next := by
  obtain ⟨forest, waiting, workers⟩ := pool
  by_cases hbusy : ∃ worker ∈ workers, worker ≠ []
  · obtain ⟨worker, hmem, hne⟩ := hbusy
    obtain ⟨before, after, rfl⟩ := List.append_of_mem hmem
    obtain ⟨⟨a, b⟩, rest, rfl⟩ := List.exists_cons_of_ne_nil hne
    exact ⟨_, .unite forest waiting a b rest before after⟩
  · push Not at hbusy
    cases waiting with
    | nil => exact absurd ⟨rfl, hbusy⟩ h
    | cons batch waiting =>
      cases workers with
      | nil => simp at hworkers
      | cons worker workers =>
        obtain rfl : worker = [] := hbusy worker List.mem_cons_self
        exact ⟨_, .take forest batch waiting [] workers⟩

/-- A pool with workers can always go on until it is finished. -/
theorem exists_finished (hworkers : 0 < pool.workers.length) :
    ∃ last, ReflTransGen (Step pairsOf) pool last ∧ last.Finished :=
  exists_finished_of_progress (remaining pairsOf) (fun _ _ ↦ remaining_lt_of_step)
    (fun _ _ hstep ↦ (length_workers_of_step hstep).symm ▸ id)
    (fun _ ↦ exists_step_of_not_finished pairsOf) hworkers

/-- The forest was grown by some pairs, and with the pairs left they are all there are. -/
def Accounts (origin : Origin) (all : List (Slot × Slot))
    (pairsOf : NodeBatch → List (Slot × Slot)) (pool : Pool) : Prop :=
  ∃ done, origin.Grown done pool.forest ∧ (done ++ pool.left pairsOf).Perm all

theorem Accounts.step (hall : PairsBelow origin.size all) (h : Accounts origin all pairsOf pool)
    (hstep : Step pairsOf pool pool') : Accounts origin all pairsOf pool' := by
  obtain ⟨done, hgrown, hperm⟩ := h
  cases hstep with
  | take forest batch waiting before after =>
    -- the pairs of the batch move from behind all workers to one of them
    have hleft : (left pairsOf ⟨forest, waiting, before ++ pairsOf batch :: after⟩).Perm
        (left pairsOf ⟨forest, batch :: waiting, before ++ [] :: after⟩) := by
      simp only [left, List.flatten_append, List.flatten_cons, List.flatMap_cons,
        List.append_assoc, List.nil_append]
      apply List.Perm.append_left
      rw [← List.append_assoc, ← List.append_assoc]
      exact List.perm_append_comm.append_right _
    exact ⟨done, hgrown, (hleft.append_left done).trans hperm⟩
  | unite forest waiting a b rest before after =>
    have hmem : (a, b) ∈ all := hperm.subset (by simp [left])
    obtain ⟨ha, hb⟩ := hall (a, b) hmem
    have hleft : ((a, b) :: left pairsOf ⟨(forest.union a b).2, waiting,
        before ++ rest :: after⟩).Perm
          (left pairsOf ⟨forest, waiting, before ++ ((a, b) :: rest) :: after⟩) := by
      simp only [left, List.flatten_append, List.flatten_cons, List.append_assoc, List.cons_append]
      exact List.perm_middle.symm
    refine ⟨done ++ [(a, b)], ?_, ?_⟩
    · rw [hgrown.union_eq ha hb]
      exact hgrown.merge ha hb
    · rw [List.append_assoc]
      exact (hleft.append_left done).trans hperm

theorem Accounts.reaches (hall : PairsBelow origin.size all)
    (h : Accounts origin all pairsOf pool) (hreach : ReflTransGen (Step pairsOf) pool pool') :
    Accounts origin all pairsOf pool' := by
  induction hreach with
  | refl => exact h
  | tail _ hstep ih => exact ih.step hall hstep

theorem length_workers_of_reaches (hreach : ReflTransGen (Step pairsOf) pool pool') :
    pool'.workers.length = pool.workers.length := by
  induction hreach with
  | refl => rfl
  | tail _ hstep ih => rw [length_workers_of_step hstep, ih]

theorem Finished.left_eq (h : pool.Finished) (pairsOf : NodeBatch → List (Slot × Slot)) :
    pool.left pairsOf = [] := by
  rw [left, h.1, List.flatten_eq_nil_iff.mpr h.2]
  rfl

end Pool

/-! ## Every schedule -/

/-- However workers share out batches that hold every slot once, they can finish, and once they
have finished the run settles on the result. -/
def SettlesAs (count : ℕ) (seeds : Option (Array (Option UInt64)))
    (followed : Slot → Reading Slot) (minComponentSize : Option UInt64) (result : Result) : Prop :=
  ∀ (batches : List NodeBatch) (workers : ℕ) (pool : Pool),
    (batches.flatMap NodeBatch.toList).Perm (slotsBelow count) → 0 < workers →
    ReflTransGen (Pool.Step fun batch ↦ pairsFrom followed batch.toList)
      (Pool.idle (start count seeds).1 batches workers) pool →
    (∃ last, ReflTransGen (Pool.Step fun batch ↦ pairsFrom followed batch.toList) pool last ∧
      last.Finished) ∧
    (pool.Finished → conclude pool.forest (start count seeds).2 minComponentSize = result)

variable {count : ℕ} {seeds : Option (Array (Option UInt64))} {followed : Slot → Reading Slot}

theorem perm_pairsFrom {slots slots' : List Slot} (followed : Slot → Reading Slot)
    (h : slots.Perm slots') : (pairsFrom followed slots).Perm (pairsFrom followed slots') :=
  h.flatMap_right _

/-- What a run settles on that unites every slot with its neighbours, in the order of the slots. -/
def settledResult (count : ℕ) (seeds : Option (Array (Option UInt64)))
    (followed : Slot → Reading Slot) (minComponentSize : Option UInt64) : Result :=
  conclude ((originOf count seeds).forest.mergeAll (pairsFrom followed (slotsBelow count)))
    (start count seeds).2 minComponentSize

theorem pairsBelow_pairsFrom_slotsBelow (h : Admissible count seeds)
    (hreads : ReadsWithin followed count) :
    PairsBelow (originOf count seeds).size (pairsFrom followed (slotsBelow count)) := by
  rw [h.size_originOf]
  exact pairsBelow_pairsFrom hreads.delivers fun slot hslot ↦ (mem_slotsBelow h.count_le).mp hslot

theorem settlesAs_of_readsWithin (h : Admissible count seeds) (hreads : ReadsWithin followed count)
    (minComponentSize : Option UInt64) :
    SettlesAs count seeds followed minComponentSize
      (settledResult count seeds followed minComponentSize) := by
  intro batches workers pool hcover hworkers hreach
  have hall := pairsBelow_pairsFrom_slotsBelow h hreads
  have hstart : Pool.Accounts (originOf count seeds) (pairsFrom followed (slotsBelow count))
      (fun batch ↦ pairsFrom followed batch.toList)
      (Pool.idle (start count seeds).1 batches workers) := by
    refine ⟨[], start_fst count seeds ▸ h.valid.grown, ?_⟩
    have hleft : (Pool.idle (start count seeds).1 batches workers).left
        (fun batch ↦ pairsFrom followed batch.toList) =
          pairsFrom followed (batches.flatMap NodeBatch.toList) := by
      simp [Pool.left, Pool.idle, pairsFrom, List.flatMap_assoc]
    rw [List.nil_append, hleft]
    exact perm_pairsFrom followed hcover
  constructor
  · apply Pool.exists_finished
    rw [Pool.length_workers_of_reaches hreach, Pool.idle, List.length_replicate]
    exact hworkers
  · intro hfinished
    obtain ⟨done, hgrown, hperm⟩ := hstart.reaches hall hreach
    rw [hfinished.left_eq, List.append_nil] at hperm
    apply conclude_eq_of_eqvGen_eq h.valid hgrown (h.valid.grown.mergeAll hall)
    exact eqvGen_joins_eq_of_symmGen_iff (Rearranged.perm hperm).symmGen_iff

theorem execute_eq_of_readsWithin {G : Type} [Graph G] {threads : Threads} {config : Config}
    (hthreads : threads.Offers config.concurrency.toNat) (graph : G)
    (h : Admissible (Graph.nodeCount graph) seeds)
    (hreads : ReadsWithin followed (Graph.nodeCount graph)) :
    execute threads graph config seeds followed =
      .ok (settledResult (Graph.nodeCount graph) seeds followed config.minComponentSize) := by
  apply execute_eq hthreads graph seeds _ h.valid.ordered_forest _ h.count_le hreads
  · rw [← start_fst]
  · rw [h.valid.size_forest, h.size_originOf]

/--
Any list of calls of union on slots below the count settles on one result, in whatever order the
calls are made, however their arguments are swapped and however often they are repeated. A run
over complete readings whose workers are started therefore settles on the same result under every
schedule of them.
-/
theorem result_independent_of_schedule (h : Admissible count seeds)
    (minComponentSize : Option UInt64) :
    (∀ calls, PairsBelow count calls → ∃ result, ∀ calls', Rearranged calls calls' →
      settleCalls count seeds minComponentSize calls' = .ok result) ∧
    ∀ (G : Type) [Graph G] (graph : G) (config : Config) (followed : Slot → Reading Slot),
      Graph.nodeCount graph = count → ReadsWithin followed count →
      ∃ result, (∀ threads : Threads, threads.Offers config.concurrency.toNat →
          execute threads graph config seeds followed = .ok result) ∧
        SettlesAs count seeds followed config.minComponentSize result := by
  constructor
  · intro calls hcalls
    have hbelow : PairsBelow (originOf count seeds).size calls := by rwa [h.size_originOf]
    refine ⟨conclude ((originOf count seeds).forest.mergeAll calls) (start count seeds).2
      minComponentSize, ?_⟩
    intro calls' hrearranged
    have hbelow' := hrearranged.pairsBelow hbelow
    rw [settleCalls_eq h minComponentSize (hrearranged.pairsBelow hcalls)]
    congr 1
    apply conclude_eq_of_eqvGen_eq h.valid (h.valid.grown.mergeAll hbelow')
      (h.valid.grown.mergeAll hbelow)
    exact (eqvGen_joins_eq_of_symmGen_iff hrearranged.symmGen_iff).symm
  · rintro G _ graph config followed rfl hreads
    exact ⟨_, fun threads hthreads ↦ execute_eq_of_readsWithin hthreads graph h hreads,
      settlesAs_of_readsWithin h hreads _⟩

/-- Turned round, repeated and in another order, two unions on seeded slots settle the same. -/
theorem result_independent_of_schedule_on_seeds :
    Admissible 4 (some #[some 9, none, some 7, none]) ∧
      PairsBelow 4 [(0, 1), (1, 2)] ∧
      ∃ result,
        settleCalls 4 (some #[some 9, none, some 7, none]) none [(0, 1), (1, 2)] = .ok result ∧
        settleCalls 4 (some #[some 9, none, some 7, none]) none [(1, 2), (1, 0), (0, 1)] =
          .ok result := by
  have hadmissible : Admissible 4 (some #[some 9, none, some 7, none]) := by
    refine ⟨by decide, ?_, ?_⟩
    · rintro given ⟨⟩
      rfl
    · rintro given ⟨⟩ seed hseed
      obtain rfl | rfl : seed = 9 ∨ seed = 7 := by simpa using hseed
      · decide
      · decide
  have hbelow : PairsBelow 4 [(0, 1), (1, 2)] := by simp [PairsBelow]
  have hrepeated : Rearranged [(0, 1), (1, 2)] [(0, 1), (0, 1), (1, 2)] := .again (by decide)
  have hswapped : Rearranged [(0, 1), (0, 1), (1, 2)] [(1, 0), (0, 1), (1, 2)] :=
    .swap [] [(0, 1), (1, 2)] 0 1
  have hpermuted : Rearranged [(1, 0), (0, 1), (1, 2)] [(1, 2), (1, 0), (0, 1)] :=
    .perm (by decide)
  obtain ⟨result, hresult⟩ :=
    (result_independent_of_schedule hadmissible none).1 [(0, 1), (1, 2)] hbelow
  exact ⟨hadmissible, hbelow, result, hresult _ (.perm (.refl _)),
    hresult _ (.trans hrepeated (.trans hswapped hpermuted))⟩

end WeakComponents.Components
