import WeakComponents.Proofs.Components.Successful
import WeakComponents.Proofs.Dispatch.Calls

/-!
# Objections to a run

A run is refused for what it is asked for: for its settings, and for the column that its seeds are
to come from. Of several objections the first one is raised, in a fixed order, and no relationship
is read before. So whether a run is refused, and why, depends neither on the relationships nor on
the rows that were loaded.
-/

namespace WeakComponents.Components

open Projection (Builder)

/-- The place of a complaint in the order in which a run looks for them. Negative seeds are looked
for last, slot by slot; complaints about arguments never concern a run. -/
def Complaint.place : Complaint → ℕ
  | noWorkers => 0
  | emptyBatches => 1
  | thresholdNotANumber => 2
  | unnamedSeedProperty => 3
  | tooManyNodes _ => 4
  | thresholdWithoutWeights => 5
  | seedsWithoutProperties => 6
  | seedPropertyMissing _ => 7
  | seedPropertyNotInteger _ _ => 8
  | negativeSeed _ _ slot => 9 + slot
  | argumentNotNatural _ _ | argumentNotDirection _ | argumentNotText _ _
  | argumentNotNumber _ _ => 0

/-- A complaint is an objection and comes before all others. -/
def IsFirst (objection : Complaint → Prop) (complaint : Complaint) : Prop :=
  objection complaint ∧
    ∀ other, objection other → other ≠ complaint → complaint.place < other.place

/-- A check fails with the first of the objections, and passes if there is none. -/
def Raises {α : Type} (check : Except Complaint α) (objection : Complaint → Prop) : Prop :=
  match check with
  | .ok _ => ∀ complaint, ¬ objection complaint
  | .error complaint => IsFirst objection complaint

section

variable {α β : Type} {check : Except Complaint α} {objection further : Complaint → Prop}
  {complaint other : Complaint}

theorem IsFirst.eq (h : IsFirst objection complaint) (hother : IsFirst objection other) :
    complaint = other := by
  by_contra hne
  have hlt := h.2 other hother.1 (Ne.symm hne)
  have hgt := hother.2 complaint h.1 hne
  omega

theorem Raises.eq_error_iff (h : Raises check objection) :
    check = .error complaint ↔ IsFirst objection complaint := by
  cases check with
  | ok value => exact iff_of_false (by simp) fun hfirst ↦ h complaint hfirst.1
  | error raised =>
    rw [Except.error.injEq]
    exact ⟨fun hraised ↦ hraised ▸ h, fun hfirst ↦ IsFirst.eq h hfirst⟩

theorem Raises.exists_error_iff (h : Raises check objection) :
    (∃ complaint, check = .error complaint) ↔ ∃ complaint, objection complaint := by
  cases check with
  | ok value => exact iff_of_false (by simp) fun ⟨complaint, hobjection⟩ ↦ h complaint hobjection
  | error raised => exact iff_of_true ⟨raised, rfl⟩ ⟨raised, h.1⟩

theorem Raises.congr (h : Raises check objection)
    (hiff : ∀ complaint, objection complaint ↔ further complaint) : Raises check further := by
  obtain rfl : objection = further := funext fun complaint ↦ propext (hiff complaint)
  exact h

theorem raises_error (complaint : Complaint) :
    Raises (.error complaint : Except Complaint α) (· = complaint) :=
  ⟨rfl, fun _ hother hne ↦ absurd hother hne⟩

theorem raises_ok (value : α) : Raises (.ok value : Except Complaint α) fun _ ↦ False :=
  fun _ hfalse ↦ hfalse

/-- A check that is followed by another one raises the objections of both. -/
theorem Raises.bind {next : α → Except Complaint β} (h : Raises check objection)
    (hnext : ∀ value, Raises (next value) further)
    (hplace : ∀ complaint other, objection complaint → further other →
      complaint.place < other.place) :
    Raises (check >>= next) fun complaint ↦ objection complaint ∨ further complaint := by
  cases check with
  | ok value =>
    exact (hnext value).congr fun complaint ↦ (or_iff_right (h complaint)).symm
  | error raised =>
    refine ⟨.inl h.1, ?_⟩
    rintro other (hother | hother) hne
    · exact h.2 other hother hne
    · exact hplace raised other h.1 hother

/-- A condition that is tested before a check adds its complaint in front. -/
theorem Raises.ite {condition : Prop} [Decidable condition] (h : Raises check objection)
    (hplace : ∀ other, objection other → complaint.place < other.place) :
    Raises (if condition then .error complaint else check) fun other ↦
      condition ∧ other = complaint ∨ objection other := by
  split
  · rename_i hcondition
    refine ⟨.inl ⟨hcondition, rfl⟩, ?_⟩
    rintro other (⟨_, rfl⟩ | hother) hne
    · exact absurd rfl hne
    · exact hplace other hother
  · rename_i hcondition
    exact h.congr fun other ↦ (or_iff_right fun hother ↦ hcondition hother.1).symm

theorem raises_guard {condition : Prop} [Decidable condition] (value : α) :
    Raises (if condition then .error complaint else .ok value) fun other ↦
      condition ∧ other = complaint :=
  ((raises_ok value).ite fun _ hfalse ↦ hfalse.elim).congr fun _ ↦ by rw [or_false]

theorem Raises.map (h : Raises check objection) (g : α → β) :
    Raises (check >>= fun value ↦ .ok (g value)) objection := by
  cases check <;> exact h

/-- Checks of entries in order raise the objections to all of them. -/
theorem raises_mapM {f : α → Except Complaint β} {objection : α → Complaint → Prop}
    {entries : List α} (h : ∀ entry ∈ entries, Raises (f entry) (objection entry))
    (hplace : entries.Pairwise fun entry later ↦ ∀ complaint other,
      objection entry complaint → objection later other → complaint.place < other.place) :
    Raises (entries.mapM f) fun complaint ↦ ∃ entry ∈ entries, objection entry complaint := by
  induction entries with
  | nil => exact (raises_ok []).congr fun complaint ↦ by simp
  | cons entry rest ih =>
    obtain ⟨hentry, hrest⟩ := List.forall_mem_cons.mp h
    obtain ⟨hbefore, hordered⟩ := List.pairwise_cons.mp hplace
    rw [List.mapM_cons]
    have hboth := hentry.bind (fun value ↦ (ih hrest hordered).map (List.cons value))
      fun complaint other hcomplaint ⟨later, hlater, hother⟩ ↦
        hbefore later hlater complaint other hcomplaint hother
    exact hboth.congr fun complaint ↦ by rw [List.exists_mem_cons_iff]

end

/-- What can be held against settings. -/
inductive Config.Objection (config : Config) : Complaint → Prop where
  | noWorkers (h : config.concurrency = 0) : config.Objection .noWorkers
  | emptyBatches (h : config.batchSize = 0) : config.Objection .emptyBatches
  | thresholdNotANumber {threshold : Float} (h : config.threshold = some threshold)
      (hnan : threshold.isNaN = true) : config.Objection .thresholdNotANumber
  | unnamedSeedProperty (h : config.seedProperty = some "") :
      config.Objection .unnamedSeedProperty

/-- What can be held against settings where neither weights nor properties can be used. -/
inductive Config.PlainObjection (config : Config) : Complaint → Prop where
  | threshold {threshold : Float} (h : config.threshold = some threshold) :
      config.PlainObjection .thresholdWithoutWeights
  | seeds {key : String} (h : config.seedProperty = some key) :
      config.PlainObjection .seedsWithoutProperties

/-- What can be held against taking seeds from the column that settings name. -/
inductive Config.SeedObjection (config : Config) (column? : String → Option PropertyColumn) :
    Complaint → Prop where
  | missing {key : String} (hkey : config.seedProperty = some key) (h : column? key = none) :
      config.SeedObjection column? (.seedPropertyMissing key)
  | notInteger {key : String} (hkey : config.seedProperty = some key)
      {cells : Array (Option Float)} (h : column? key = some (.double cells)) :
      config.SeedObjection column? (.seedPropertyNotInteger key .floating)
  | negative {key : String} (hkey : config.seedProperty = some key)
      {cells : Array (Option Int64)} (h : column? key = some (.long cells)) {slot : ℕ}
      {value : Int64} (hcell : cells[slot]? = some (some value)) (hvalue : value < 0) :
      config.SeedObjection column? (.negativeSeed key value slot)

/-- What can be held against a run without weights and properties. -/
def Config.UnweightedObjection (config : Config) (complaint : Complaint) : Prop :=
  config.Objection complaint ∨ config.PlainObjection complaint

/-- What can be held against a run with weights and properties. -/
def Config.WeightedObjection (config : Config) (column? : String → Option PropertyColumn)
    (complaint : Complaint) : Prop :=
  config.Objection complaint ∨ config.SeedObjection column? complaint

variable {config : Config} {complaint : Complaint} {column? : String → Option PropertyColumn}

theorem Config.seedObjection_iff {key : String} (hkey : config.seedProperty = some key) :
    config.SeedObjection column? complaint ↔
      match column? key with
      | none => complaint = .seedPropertyMissing key
      | some (.double _) => complaint = .seedPropertyNotInteger key .floating
      | some (.long cells) => ∃ (slot : ℕ) (value : Int64), cells[slot]? = some (some value) ∧
          value < 0 ∧ complaint = .negativeSeed key value slot := by
  constructor
  · intro h
    cases h with
    | missing hother h =>
      obtain rfl := Option.some.inj (hkey.symm.trans hother)
      rw [h]
    | notInteger hother h =>
      obtain rfl := Option.some.inj (hkey.symm.trans hother)
      rw [h]
    | negative hother h hcell hvalue =>
      obtain rfl := Option.some.inj (hkey.symm.trans hother)
      rw [h]
      exact ⟨_, _, hcell, hvalue, rfl⟩
  · intro h
    split at h
    · rename_i hcolumn
      exact h ▸ .missing hkey hcolumn
    · rename_i hcolumn
      exact h ▸ .notInteger hkey hcolumn
    · rename_i hcolumn
      obtain ⟨slot, value, hcell, hvalue, rfl⟩ := h
      exact .negative hkey hcolumn hcell hvalue

theorem Config.Objection.place_le (h : config.Objection complaint) : complaint.place ≤ 3 := by
  cases h <;> decide

theorem Config.PlainObjection.lt_place (h : config.PlainObjection complaint) :
    3 < complaint.place := by
  cases h <;> decide

theorem Config.SeedObjection.lt_place (h : config.SeedObjection column? complaint) :
    3 < complaint.place := by
  cases h <;> (rw [Complaint.place]; omega)

/-! ## Checks of a run -/

theorem raises_validate (config : Config) : Raises config.validate config.Objection := by
  have hchecks : Raises config.validate fun complaint ↦
      config.concurrency = 0 ∧ complaint = .noWorkers ∨
      config.batchSize = 0 ∧ complaint = .emptyBatches ∨
      config.threshold.any Float.isNaN ∧ complaint = .thresholdNotANumber ∨
      config.seedProperty = some "" ∧ complaint = .unnamedSeedProperty := by
    refine Raises.ite (Raises.ite (Raises.ite (raises_guard ()) ?_) ?_) ?_
    · rintro _ ⟨_, rfl⟩
      decide
    · rintro _ (⟨_, rfl⟩ | ⟨_, rfl⟩) <;> decide
    · rintro _ (⟨_, rfl⟩ | ⟨_, rfl⟩ | ⟨_, rfl⟩) <;> decide
  refine hchecks.congr fun complaint ↦ ⟨?_, fun h ↦ ?_⟩
  · rintro (⟨h, rfl⟩ | ⟨h, rfl⟩ | ⟨h, rfl⟩ | ⟨h, rfl⟩)
    · exact .noWorkers h
    · exact .emptyBatches h
    · obtain ⟨threshold, hthreshold, hnan⟩ := (Option.any_eq_true _ _).mp h
      exact .thresholdNotANumber hthreshold hnan
    · exact .unnamedSeedProperty h
  · cases h with
    | noWorkers h => exact .inl ⟨h, rfl⟩
    | emptyBatches h => exact .inr (.inl ⟨h, rfl⟩)
    | thresholdNotANumber h hnan => exact .inr (.inr (.inl ⟨by rw [h]; exact hnan, rfl⟩))
    | unnamedSeedProperty h => exact .inr (.inr (.inr ⟨h, rfl⟩))

theorem raises_plain (config : Config) :
    Raises (if config.threshold.isSome then .error .thresholdWithoutWeights
      else if config.seedProperty.isSome then .error .seedsWithoutProperties else .ok ())
      config.PlainObjection := by
  have hchecks : Raises (if config.threshold.isSome then .error .thresholdWithoutWeights
      else if config.seedProperty.isSome then .error .seedsWithoutProperties else .ok ())
      fun complaint ↦ config.threshold.isSome ∧ complaint = .thresholdWithoutWeights ∨
        config.seedProperty.isSome ∧ complaint = .seedsWithoutProperties := by
    refine Raises.ite (raises_guard ()) ?_
    rintro _ ⟨_, rfl⟩
    decide
  refine hchecks.congr fun complaint ↦ ⟨?_, fun h ↦ ?_⟩
  · rintro (⟨h, rfl⟩ | ⟨h, rfl⟩)
    · obtain ⟨threshold, hthreshold⟩ := Option.isSome_iff_exists.mp h
      exact .threshold hthreshold
    · obtain ⟨key, hkey⟩ := Option.isSome_iff_exists.mp h
      exact .seeds hkey
  · cases h with
    | threshold h => exact .inl ⟨by rw [h]; rfl, rfl⟩
    | seeds h => exact .inr ⟨by rw [h]; rfl, rfl⟩

theorem raises_seedOfCell (key : String) (slot : ℕ) (cell : Option Int64) :
    Raises (seedOfCell key slot cell) fun complaint ↦
      ∃ value, cell = some value ∧ value < 0 ∧ complaint = .negativeSeed key value slot := by
  cases cell with
  | none => exact (raises_ok none).congr fun complaint ↦ by simp
  | some value => exact (raises_guard (some value.toUInt64)).congr fun complaint ↦ by simp

section

variable {G : Type} [Graph G] {graph : G}

theorem checkUnweighted_eq (hcount : Graph.nodeCount graph ≤ slotLimit) (config : Config) :
    checkUnweighted graph config = config.validate >>= fun _ ↦
      if config.threshold.isSome then .error .thresholdWithoutWeights
      else if config.seedProperty.isSome then .error .seedsWithoutProperties else .ok () := by
  unfold checkUnweighted
  rw [checkNodeCount_eq_ok hcount]
  cases config.validate with
  | error complaint => rfl
  | ok _ => cases config.threshold <;> cases config.seedProperty <;> rfl

theorem raises_checkUnweighted (hcount : Graph.nodeCount graph ≤ slotLimit) (config : Config) :
    Raises (checkUnweighted graph config) config.UnweightedObjection := by
  rw [checkUnweighted_eq hcount]
  exact (raises_validate config).bind (fun _ ↦ raises_plain config)
    fun complaint other h hother ↦ h.place_le.trans_lt hother.lt_place

variable [PropertyGraph G]

/-- No column has more cells than the graph has nodes. -/
def ColumnsWithin (graph : G) : Prop :=
  ∀ key column, PropertyGraph.property? graph key = some column →
    column.size ≤ Graph.nodeCount graph

theorem raises_readSeeds (hcolumns : ColumnsWithin graph) {key : String}
    (hkey : config.seedProperty = some key) :
    Raises (readSeeds graph key) (config.SeedObjection (PropertyGraph.property? graph)) := by
  suffices h : Raises (readSeeds graph key) fun complaint ↦
      match PropertyGraph.property? graph key with
      | none => complaint = .seedPropertyMissing key
      | some (.double _) => complaint = .seedPropertyNotInteger key .floating
      | some (.long cells) => ∃ (slot : ℕ) (value : Int64), cells[slot]? = some (some value) ∧
          value < 0 ∧ complaint = .negativeSeed key value slot from
    h.congr fun complaint ↦ (Config.seedObjection_iff hkey).symm
  unfold readSeeds
  cases hcolumn : PropertyGraph.property? graph key with
  | none => exact raises_error _
  | some column =>
    cases column with
    | double cells => exact raises_error _
    | long cells =>
      have hsize : cells.size ≤ Graph.nodeCount graph := hcolumns key _ hcolumn
      have hcells : Raises ((List.range (Graph.nodeCount graph)).mapM fun slot ↦
          seedOfCell key slot cells[slot]?.join) fun complaint ↦
            ∃ slot ∈ List.range (Graph.nodeCount graph), ∃ value,
              cells[slot]?.join = some value ∧ value < 0 ∧
                complaint = .negativeSeed key value slot := by
        apply raises_mapM fun slot _ ↦ raises_seedOfCell key slot _
        apply List.pairwise_lt_range.imp
        rintro slot later hlt _ _ ⟨_, _, _, rfl⟩ ⟨_, _, _, rfl⟩
        exact Nat.add_lt_add_left hlt 9
      refine (hcells.map List.toArray).congr fun complaint ↦ ⟨?_, ?_⟩
      · rintro ⟨slot, _, value, hcell, hvalue, rfl⟩
        exact ⟨slot, value, Option.join_eq_some_iff.mp hcell, hvalue, rfl⟩
      · rintro ⟨slot, value, hcell, hvalue, rfl⟩
        have hslot : slot < cells.size := (Array.getElem?_eq_some_iff.mp hcell).1
        exact ⟨slot, List.mem_range.mpr (hslot.trans_le hsize), value,
          Option.join_eq_some_iff.mpr hcell, hvalue, rfl⟩

theorem raises_checkWeighted (hcount : Graph.nodeCount graph ≤ slotLimit)
    (hcolumns : ColumnsWithin graph) (config : Config) :
    Raises (checkWeighted graph config)
      (config.WeightedObjection (PropertyGraph.property? graph)) := by
  unfold checkWeighted
  rw [checkNodeCount_eq_ok hcount]
  refine (raises_validate config).bind (fun _ ↦ ?_)
    fun complaint other h hother ↦ h.place_le.trans_lt hother.lt_place
  cases hkey : config.seedProperty with
  | none =>
    refine (raises_ok none).congr fun complaint ↦ ⟨False.elim, fun h ↦ ?_⟩
    cases h <;> simp_all
  | some key => exact (raises_readSeeds hcolumns hkey).map some

end

/-- However readings end, a batch ends as if some interruption came first, or none. -/
theorem exists_outcomeOf (followed : Slot → Reading Slot) (batch : NodeBatch)
    (forest : UnionFind) (slots : List Slot) :
    ∃ first, (uniteNodes followed batch forest slots).2 = outcomeOf batch first := by
  induction slots generalizing forest with
  | nil => exact ⟨none, rfl⟩
  | cons slot rest ih =>
    rcases huniting : uniteNeighbors forest slot (followed slot) with ⟨next, _ | interruption⟩
    · rw [uniteNodes, huniting]
      exact ih next
    · refine ⟨some interruption, ?_⟩
      rw [uniteNodes, huniting]
      cases interruption <;> rfl

section

variable {G : Type} [Graph G] {threads : Threads} {graph : G}
  {seeds : Option (Array (Option UInt64))} {followed : Slot → Reading Slot} {error : RunError}

/-- Once the checks have passed, a run can only fail for want of workers or on a batch. -/
theorem executor_or_ofInterruption_of_execute
    (h : execute threads graph config seeds followed = .error error) :
    (∃ message, error = .executor message) ∨
      ∃ batch interruption, error = RunError.ofInterruption batch interruption := by
  obtain hrefused | ⟨before, batch, _, _, hfailure⟩ :=
    Dispatch.exists_failure_of_runBatches _ (execute_eq_error_iff.mp h)
  · exact .inl hrefused
  · obtain ⟨first, hfirst⟩ := exists_outcomeOf followed batch
      (Dispatch.stateAfter (uniteBatch followed) (start (Graph.nodeCount graph) seeds).1 before)
      batch.toList
    rw [Dispatch.outcomeAfter, uniteBatch, hfirst, failure?_outcomeOf,
      Option.map_eq_some_iff] at hfailure
    obtain ⟨interruption, _, hraised⟩ := hfailure
    exact .inr ⟨batch, interruption, hraised.symm⟩

theorem execute_ne_configuration (complaint : Complaint) :
    execute threads graph config seeds followed ≠ .error (.configuration complaint) := by
  intro h
  obtain ⟨message, herror⟩ | ⟨batch, interruption, herror⟩ :=
    executor_or_ofInterruption_of_execute h
  · cases herror
  · cases interruption <;> cases herror

theorem runUnweighted_eq_configuration_iff :
    runUnweighted threads graph config = .error (.configuration complaint) ↔
      checkUnweighted graph config = .error complaint := by
  unfold runUnweighted
  cases checkUnweighted graph config with
  | error raised => simp
  | ok _ => exact iff_of_false (execute_ne_configuration complaint) (by simp)

end

theorem runWeighted_eq_configuration_iff {G : Type} [WeightedGraph G] [PropertyGraph G]
    {threads : Threads} {graph : G} :
    runWeighted threads graph config = .error (.configuration complaint) ↔
      checkWeighted graph config = .error complaint := by
  unfold runWeighted
  cases checkWeighted graph config with
  | error raised => simp
  | ok _ => exact iff_of_false (execute_ne_configuration complaint) (by simp)

/-! ## Refused runs -/

section

variable {builder : Projection.Builder} {projection : Projection}

theorem columnsWithin_of_build (hbuild : builder.build = .ok projection) :
    ColumnsWithin projection :=
  fun _ _ hcolumn ↦ (Projection.size_of_property?_eq_some hbuild hcolumn).le

/--
A run on a projection is refused just if there is an objection to its settings or, with weights and
properties, to the column that its seeds are to come from; the error is the first objection, and of
negative seeds the one on the lowest slot. Two projections with the same columns refuse the same
runs with the same errors, whatever their relationships, their rows, the directions they serve and
the threads there are.
-/
theorem refused_by_first_objection (hbuild : builder.build = .ok projection)
    (hcount : projection.nodeCount ≤ slotLimit) (threads : Threads) (config : Config) :
    ((∃ complaint, runWeighted threads projection config = .error (.configuration complaint)) ↔
      ∃ complaint, config.WeightedObjection (PropertyGraph.property? projection) complaint) ∧
    (∀ complaint, runWeighted threads projection config = .error (.configuration complaint) ↔
      IsFirst (config.WeightedObjection (PropertyGraph.property? projection)) complaint) ∧
    ((∃ complaint, runUnweighted threads projection config = .error (.configuration complaint)) ↔
      ∃ complaint, config.UnweightedObjection complaint) ∧
    (∀ complaint, runUnweighted threads projection config = .error (.configuration complaint) ↔
      IsFirst config.UnweightedObjection complaint) ∧
    ∀ (available : Threads) (source : Projection.Builder) (other : Projection),
      source.build = .ok other → other.nodeCount ≤ slotLimit →
      (∀ key, PropertyGraph.property? other key = PropertyGraph.property? projection key) →
      ∀ complaint,
        (runWeighted available other config = .error (.configuration complaint) ↔
          runWeighted threads projection config = .error (.configuration complaint)) ∧
        (runUnweighted available other config = .error (.configuration complaint) ↔
          runUnweighted threads projection config = .error (.configuration complaint)) := by
  have hweighted := raises_checkWeighted hcount (columnsWithin_of_build hbuild) config
  have hunweighted : Raises (checkUnweighted projection config) config.UnweightedObjection :=
    raises_checkUnweighted hcount config
  simp only [runWeighted_eq_configuration_iff, runUnweighted_eq_configuration_iff]
  refine ⟨hweighted.exists_error_iff, fun complaint ↦ hweighted.eq_error_iff,
    hunweighted.exists_error_iff, fun complaint ↦ hunweighted.eq_error_iff, ?_⟩
  intro available source other hsource hother hcolumns complaint
  have hsame : (PropertyGraph.property? other : String → Option PropertyColumn) =
      PropertyGraph.property? projection := funext hcolumns
  have hweighted' := raises_checkWeighted hother (columnsWithin_of_build hsource) config
  have hunweighted' : Raises (checkUnweighted other config) config.UnweightedObjection :=
    raises_checkUnweighted hother config
  rw [hweighted.eq_error_iff, hweighted'.eq_error_iff, hunweighted.eq_error_iff,
    hunweighted'.eq_error_iff, hsame]
  exact ⟨Iff.rfl, Iff.rfl⟩

end

/-- Three nodes, two of them with a negative seed, and the rows of one load direction. -/
def negativeSeeds (direction : LoadDirection) : Projection.Builder :=
  .ofCalls [.nodeProperty ⟨30⟩ "seed" (.long (-7)), .nodeProperty ⟨20⟩ "seed" (.long (-2)),
    .nodeProperty ⟨10⟩ "seed" (.long 4), .relationship ⟨20⟩ ⟨30⟩, .load direction]

theorem exists_negativeSeeds (direction : LoadDirection) :
    ∃ projection, (negativeSeeds direction).build = .ok projection ∧
      projection.nodeCount ≤ slotLimit ∧ ∀ key, PropertyGraph.property? projection key =
        if key = "seed" then some (.long #[some 4, some (-2), some (-7)]) else none := by
  have hcard : (negativeSeeds direction).ids.card = 3 := by
    cases direction <;> decide
  have htypes : (negativeSeeds direction).columnTypes = Table.empty.insert "seed" .integer := by
    cases direction <;> rfl
  obtain ⟨projection, hbuild, haddressable⟩ := (negativeSeeds direction).exists_addressable_of_small
    (by rw [hcard]; decide) (by rw [hcard]; cases direction <;> decide)
    (by cases direction <;> decide) (by rw [hcard, htypes]; cases direction <;> decide)
  refine ⟨projection, hbuild, haddressable.nodeCount_le, fun key ↦ ?_⟩
  rw [Projection.property?_eq hbuild, htypes, Table.get?_insert]
  split
  · have hslot (id : NodeId) (slot : Slot) (h : (negativeSeeds direction).Numbered id slot) :
        (Builder.idMapOf (negativeSeeds direction).distinctNodes).slotOf? id = some slot :=
      (Builder.slotOf?_idMapOf (by rw [hcard]; decide)).mpr h
    have hslot10 := hslot ⟨10⟩ 0 (by cases direction <;> decide)
    have hslot20 := hslot ⟨20⟩ 1 (by cases direction <;> decide)
    have hslot30 := hslot ⟨30⟩ 2 (by cases direction <;> decide)
    have hproperties : (negativeSeeds direction).properties =
        #[⟨⟨30⟩, "seed", .long (-7)⟩, ⟨⟨20⟩, "seed", .long (-2)⟩, ⟨⟨10⟩, "seed", .long 4⟩] := by
      cases direction <;> rfl
    rename_i hkey
    rw [Option.map_some, Builder.column, Builder.cells, Builder.size_idMapOf, hcard, hproperties,
      hkey]
    simp [Builder.put, hslot10, hslot20, hslot30]
    rfl
  · rfl

/-- Of two negative seeds the one on the lower slot is named, by a run on rows that were not loaded
and by one on rows that were; without properties, naming a column is refused. -/
theorem refused_by_first_objection_of_negativeSeeds :
    ∃ projection other, (negativeSeeds .incoming).build = .ok projection ∧
      (negativeSeeds .undirected).build = .ok other ∧
      runWeighted .unlimited projection ⟨4, 1, .outgoing, some "seed", none, none⟩ =
        .error (.configuration (.negativeSeed "seed" (-2) 1)) ∧
      runWeighted .unlimited other ⟨4, 1, .outgoing, some "seed", none, none⟩ =
        .error (.configuration (.negativeSeed "seed" (-2) 1)) ∧
      runUnweighted .unlimited projection ⟨4, 1, .outgoing, some "seed", none, none⟩ =
        .error (.configuration .seedsWithoutProperties) := by
  obtain ⟨projection, hbuild, hcount, hcolumns⟩ := exists_negativeSeeds .incoming
  obtain ⟨other, hbuild', hcount', hcolumns'⟩ := exists_negativeSeeds .undirected
  obtain ⟨_, hweighted, _, hunweighted, hsame⟩ := refused_by_first_objection hbuild hcount
    .unlimited ⟨4, 1, .outgoing, some "seed", none, none⟩
  have hvalid : Raises (.ok () : Except Complaint Unit)
      (Config.Objection ⟨4, 1, .outgoing, some "seed", none, none⟩) :=
    raises_validate ⟨4, 1, .outgoing, some "seed", none, none⟩
  have hcolumn : PropertyGraph.property? projection "seed" =
      some (.long #[some 4, some (-2), some (-7)]) := by
    rw [hcolumns, if_pos rfl]
  have hfirst : IsFirst (Config.WeightedObjection ⟨4, 1, .outgoing, some "seed", none, none⟩
      (PropertyGraph.property? projection)) (.negativeSeed "seed" (-2) 1) := by
    refine ⟨.inr (.negative rfl hcolumn rfl (by decide)), ?_⟩
    rintro complaint (h | h) hne
    · exact absurd h (hvalid complaint)
    · rw [Config.seedObjection_iff rfl, hcolumn] at h
      obtain ⟨_ | _ | slot, value, hcell, hvalue, rfl⟩ := h
      · obtain rfl : 4 = value := by simpa using hcell
        exact absurd hvalue (by decide)
      · obtain rfl : -2 = value := by simpa using hcell
        exact absurd rfl hne
      · rw [Complaint.place, Complaint.place]
        omega
  have hplain : IsFirst (Config.UnweightedObjection ⟨4, 1, .outgoing, some "seed", none, none⟩)
      .seedsWithoutProperties := by
    refine ⟨.inr (.seeds rfl), ?_⟩
    rintro complaint (h | h) hne
    · exact absurd h (hvalid complaint)
    · cases h with
      | threshold h => cases h
      | seeds h => exact absurd rfl hne
  have hrefused := (hweighted _).mpr hfirst
  have hagree := hsame .unlimited _ other hbuild' hcount' fun key ↦
    (hcolumns' key).trans (hcolumns key).symm
  exact ⟨projection, other, hbuild, hbuild', hrefused, (hagree _).1.mpr hrefused,
    (hunweighted _).mpr hplain⟩

end WeakComponents.Components
