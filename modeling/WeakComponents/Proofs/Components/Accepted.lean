import WeakComponents.Proofs.Components.Objections
import WeakComponents.Proofs.Limits
import WeakComponents.Proofs.Projection.Ranks

/-!
# Accepted limits

Neither the numbering nor the builder checks that the slots suffice for the nodes, and ids behind
the last slot would share slots with others. They never do where the bound on nodes comes from
accepted limits. Such limits can also be written down and read again, and run with as they are.
-/

namespace WeakComponents

namespace Projection.Builder

variable {before after : List Call} {call : Call} {most : ℕ}

/-- The bound that is chosen was set by the given call or by one behind it. -/
theorem chosenMaxNodes_le {count : UInt64} (hset : call.maxNodes? = some count)
    (hcount : count.toNat ≤ most)
    (hafter : ∀ later ∈ after, ∀ count, later.maxNodes? = some count → count.toNat ≤ most) :
    (chosenMaxNodes (before ++ call :: after)).toNat ≤ most := by
  unfold chosenMaxNodes
  rw [List.filterMap_append, List.filterMap_cons_some hset, List.getLast?_append_cons]
  cases hlast : (count :: after.filterMap Call.maxNodes?).getLast? with
  | none => simp at hlast
  | some chosen =>
    rw [Option.getD_some]
    rcases List.mem_cons.mp (List.mem_of_getLast? hlast) with rfl | hchosen
    · exact hcount
    · obtain ⟨later, hlater, hset⟩ := List.mem_filterMap.mp hchosen
      exact hafter later hlater chosen hset

/-- Behind accepted limits, only other accepted limits replace the bound on nodes. -/
theorem chosenMaxNodes_le_slotLimit {limits : Limits} (hvalid : limits.validate = .ok ())
    (hbound : ∀ count, .maxNodes count ∉ after)
    (hlimits : ∀ later, .limits later ∈ after → later.validate = .ok ()) :
    (chosenMaxNodes (before ++ .limits limits :: after)).toNat ≤ slotLimit := by
  apply chosenMaxNodes_le rfl (Limits.validate_eq_ok_iff.mp hvalid).2.2
  intro later hlater count hset
  cases later with
  | maxNodes other => exact absurd hlater (hbound other)
  | limits other =>
    obtain rfl := Option.some.inj hset
    exact (Limits.validate_eq_ok_iff.mp (hlimits other hlater)).2.2
  | _ => cases hset

end Projection.Builder

namespace Components

open Projection (Builder)

variable {config : Config}

theorem Config.validate_ofLimits {limits : Limits} (hvalid : limits.validate = .ok ()) :
    (Config.ofLimits limits).validate = .ok () := by
  obtain ⟨hworkers, hbatches, _⟩ := Limits.validate_eq_ok_iff.mp hvalid
  exact (if_neg hworkers).trans (if_neg hbatches)

section

variable {G : Type} [Graph G] {threads : Threads} {graph : G}

theorem runUnweighted_ne_tooManyNodes (hcount : Graph.nodeCount graph ≤ slotLimit) (count : ℕ) :
    runUnweighted threads graph config ≠ .error (.configuration (.tooManyNodes count)) := by
  intro h
  rw [runUnweighted_eq_configuration_iff, (raises_checkUnweighted hcount config).eq_error_iff] at h
  rcases h.1 with hobjection | hobjection <;> cases hobjection

end

theorem runWeighted_ne_tooManyNodes {G : Type} [WeightedGraph G] [PropertyGraph G]
    {threads : Threads} {graph : G} (hcount : Graph.nodeCount graph ≤ slotLimit)
    (hcolumns : ColumnsWithin graph) (count : ℕ) :
    runWeighted threads graph config ≠ .error (.configuration (.tooManyNodes count)) := by
  intro h
  rw [runWeighted_eq_configuration_iff,
    (raises_checkWeighted hcount hcolumns config).eq_error_iff] at h
  rcases h.1 with hobjection | hobjection <;> cases hobjection

/--
Accepted limits are read back from the configuration that sets them, and a run can take its settings
from them. A builder that takes its bounds from them, whatever else it is told, as long as no other
bound on nodes replaces theirs except that of other limits that pass the check, builds no projection
with more nodes than slots. Slots and ids of what it builds translate exactly into each other, so
that no two ids share a slot, and no run on it is refused for too many nodes.
-/
theorem slots_suffice_for_accepted_limits {workers : UInt64} {document : String} {limits : Limits}
    (h : Limits.ofJsonText workers document = .ok limits) :
    (∀ offered, Limits.ofJsonText offered limits.toJson.toText = .ok limits) ∧
    (Config.ofLimits limits).validate = .ok () ∧
    ∀ (before after : List Builder.Call) (projection : Projection),
      (∀ count, .maxNodes count ∉ after) →
      (∀ later, .limits later ∈ after → later.validate = .ok ()) →
      (Builder.ofCalls (before ++ .limits limits :: after)).build = .ok projection →
        projection.nodeCount ≤ slotLimit ∧
        (∀ id slot, IdMapping.slotOf? projection id = some slot ↔
          (Builder.ofCalls (before ++ .limits limits :: after)).Numbered id slot) ∧
        (∀ id slot, IdMapping.slotOf? projection id = some slot ↔
          IdMapping.nodeAt? projection slot = some id) ∧
        (∀ id other slot, IdMapping.slotOf? projection id = some slot →
          IdMapping.slotOf? projection other = some slot → id = other) ∧
        ∀ threads config count,
          run threads projection config ≠ .error (.configuration (.tooManyNodes count)) ∧
          runWeighted threads projection config ≠ .error (.configuration (.tooManyNodes count)) ∧
          runUnweighted threads projection config ≠ .error (.configuration (.tooManyNodes count)) := by
  have hvalid : limits.validate = .ok () := Limits.validate_of_ofJsonText h
  refine ⟨Limits.ofJsonText_toJson hvalid, Config.validate_ofLimits hvalid, ?_⟩
  intro before after projection hbound hlimits hbuild
  have hids : (Builder.ofCalls (before ++ .limits limits :: after)).ids.card ≤ slotLimit := by
    apply (Builder.build_eq_ok_iff.mp hbuild).1.trans
    rw [Builder.maxNodes_ofCalls]
    exact Builder.chosenMaxNodes_le_slotLimit hvalid hbound hlimits
  have hcount : projection.nodeCount ≤ slotLimit :=
    (Projection.nodeCount_of_build hbuild).trans_le hids
  have hexact {id : NodeId} {slot : Slot} : IdMapping.slotOf? projection id = some slot ↔
      IdMapping.nodeAt? projection slot = some id :=
    Projection.slotOf?_eq_some_iff_nodeAt? hbuild hids
  have hweighted (threads : Threads) (config : Config) (count : ℕ) :
      runWeighted threads projection config ≠ .error (.configuration (.tooManyNodes count)) :=
    runWeighted_ne_tooManyNodes hcount (columnsWithin_of_build hbuild) count
  have hunweighted (threads : Threads) (config : Config) (count : ℕ) :
      runUnweighted threads projection config ≠ .error (.configuration (.tooManyNodes count)) :=
    runUnweighted_ne_tooManyNodes hcount count
  refine ⟨hcount, ?_, fun id slot ↦ hexact, ?_, ?_⟩
  · intro id slot
    exact Projection.Builder.slotOf?_eq_some_iff_numbered hbuild hids
  · intro id other slot hid hother
    have hsame := (hexact.mp hid).symm.trans (hexact.mp hother)
    exact Option.some.inj hsame
  · intro threads config count
    exact ⟨hweighted threads config count, hweighted threads config count,
      hunweighted threads config count⟩

/-- The most nodes that can be accepted, for runs on eight workers. -/
def widest : Limits :=
  ⟨1073741824, 4294967295, 8, 2⟩

/-- Two nodes with a relationship, and limits that allow five nodes. -/
def narrowedPair : List Builder.Call :=
  [.nodes [⟨10⟩, ⟨30⟩], .relationship ⟨30⟩ ⟨10⟩, .limits ⟨1000, 5, 1, 1⟩]

/-- The widest limits replace a bound that is too small, and narrower ones replace them. -/
theorem slots_suffice_for_accepted_limits_of_widest :
    Limits.ofJsonText 2 widest.toJson.toText = .ok widest ∧
      (Config.ofLimits widest).validate = .ok () ∧
      ∃ projection, (Builder.ofCalls
        ([.maxNodes 0, .node ⟨30⟩] ++ .limits widest :: narrowedPair)).build = .ok projection ∧
        projection.nodeCount ≤ slotLimit ∧
        IdMapping.slotOf? projection ⟨10⟩ = some 0 ∧ IdMapping.slotOf? projection ⟨30⟩ = some 1 ∧
        ∀ count, run .unlimited projection (Config.ofLimits widest) ≠
          .error (.configuration (.tooManyNodes count)) := by
  have hread : Limits.ofJsonText 8
      "\x7b\"max_vertices\": 4294967295, \"min_batch_size\": 2\x7d" = .ok widest := rfl
  obtain ⟨hagain, hvalid, hsafe⟩ := slots_suffice_for_accepted_limits hread
  let builder := Builder.ofCalls ([.maxNodes 0, .node ⟨30⟩] ++ .limits widest :: narrowedPair)
  have hcard : builder.ids.card = 2 := by decide
  obtain ⟨projection, hbuild, _⟩ := builder.exists_addressable_of_small
    (by rw [hcard]; decide) (by rw [hcard]; decide) (by decide) (by rw [hcard]; decide)
  have hbound (count : UInt64) : .maxNodes count ∉ narrowedPair := by simp [narrowedPair]
  have hlimits (later : Limits) (hlater : .limits later ∈ narrowedPair) :
      later.validate = .ok () := by
    obtain rfl : later = ⟨1000, 5, 1, 1⟩ := by simpa [narrowedPair] using hlater
    rfl
  obtain ⟨hcount, hnumbered, _, _, hruns⟩ := hsafe _ _ projection hbound hlimits hbuild
  refine ⟨hagain 2, hvalid, projection, hbuild, hcount, ?_, ?_, fun count ↦ (hruns _ _ count).1⟩
  · exact (hnumbered _ _).mpr (by decide)
  · exact (hnumbered _ _).mpr (by decide)

end Components

end WeakComponents
