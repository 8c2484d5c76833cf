import WeakComponents.Proofs.Projection.Dangling
import WeakComponents.Proofs.Projection.Properties

/-!
# Limits of a projection

Whether a projection is refused can be told from the calls. It has as many nodes as distinct ids were
added; its lists hold the relationships between them, mirrored ones twice; and every property has a
cell for each node, whether the node was given a value or not.
-/

namespace WeakComponents.Projection.Builder

variable {calls : List Call}

/-- The relationships between added nodes, in the order of the calls. -/
def relationshipsKept (calls : List Call) : List Relationship :=
  (calls.flatMap Call.given).filter fun relationship ↦
    decide (relationship.Within (addedIds calls))

/-- The number of these that lead from a node to itself. -/
def loopCount (calls : List Call) : ℕ :=
  (relationshipsKept calls).countP fun relationship ↦
    decide (relationship.source = relationship.target)

theorem edgesOf_eq_map (calls : List Call) :
    edgesOf calls = (relationshipsKept calls).map fun relationship ↦
      ⟨(rankOf calls relationship.source).toUInt32, (rankOf calls relationship.target).toUInt32,
        relationship.weight.getD (chosenWeight calls)⟩ := by
  unfold edgesOf relationshipsKept
  rw [← List.filterMap_eq_map, List.filterMap_filter]
  simp only [decide_eq_true_eq, Function.comp_apply]
  rfl

theorem length_edgesOf (calls : List Call) :
    (edgesOf calls).length = (relationshipsKept calls).length := by
  rw [edgesOf_eq_map, List.length_map]

/-- Added ids have one slot only if they are the same. -/
theorem toUInt32_rankOf_inj (hcount : (addedIds calls).card ≤ slotLimit) {id other : NodeId}
    (hid : id ∈ addedIds calls) (hother : other ∈ addedIds calls) :
    (rankOf calls id).toUInt32 = (rankOf calls other).toUInt32 ↔ id = other := by
  have hslot {node : NodeId} (hnode : node ∈ addedIds calls) :
      (idMapOf (ofCalls calls).distinctNodes).slotOf? node = some (rankOf calls node).toUInt32 := by
    rw [slotOf?_idMapOf_ofCalls hcount, if_pos hnode]
  rw [← slotOf?_idMapOf_eq_some_iff_eq (ids_ofCalls calls ▸ hcount) (hslot hother), hslot hid,
    Option.some_inj]

theorem countP_loops_edgesOf (hcount : (addedIds calls).card ≤ slotLimit) :
    (edgesOf calls).countP (fun edge ↦ decide (edge.source = edge.target)) = loopCount calls := by
  unfold loopCount
  rw [edgesOf_eq_map, List.countP_map]
  apply List.countP_congr
  intro relationship hkept
  obtain ⟨hsource, htarget⟩ := of_decide_eq_true (List.mem_filter.mp hkept).2
  simp only [Function.comp_apply, decide_eq_true_eq, toUInt32_rankOf_inj hcount hsource htarget]

/-- The numbers of entries of the lists that are kept. -/
def entriesKept (calls : List Call) : List ℕ :=
  match chosenLoad calls with
  | .outgoing | .incoming => [(relationshipsKept calls).length]
  | .both => [(relationshipsKept calls).length, (relationshipsKept calls).length]
  | .undirected => [2 * (relationshipsKept calls).length - loopCount calls]

/--
The bytes of a projection: four for each offset of a list, four for an entry without a weight and
twelve for one with a weight, eight for an id and sixteen for a cell of a property.
-/
def bytesOf (calls : List Call) : ℕ :=
  ((entriesKept calls).map fun entries ↦
      4 * ((addedIds calls).card + 1) + (if GivesWeights calls then 12 else 4) * entries).sum +
    8 * (addedIds calls).card + 16 * (addedIds calls).card * (keysSet calls).card

theorem map_length_listsKept_ofCalls (hcount : (addedIds calls).card ≤ slotLimit) :
    (ofCalls calls).listsKept.map List.length = entriesKept calls := by
  have hmirrored : ((edgesOf calls).flatMap Edge.bothEnds).length =
      2 * (relationshipsKept calls).length - loopCount calls := by
    rw [← length_edgesOf, ← countP_loops_edgesOf hcount,
      ← LoadDirection.length_flatMap_bothEnds_add_countP, Nat.add_sub_cancel]
  rw [listsKept_ofCalls hcount, entriesKept]
  cases chosenLoad calls <;> simp [LoadDirection.listsKept, length_edgesOf, hmirrored]

theorem entryCost_ofCalls (calls : List Call) :
    Adjacency.entryCost (ofCalls calls).isWeighted = if GivesWeights calls then 12 else 4 := by
  unfold Adjacency.entryCost
  simp only [isWeighted_ofCalls]

theorem length_keys_columnTypes_ofCalls (calls : List Call) :
    (ofCalls calls).columnTypes.keys.length = (keysSet calls).card := by
  rw [← List.toFinset_card_of_nodup (Table.nodup_keys _)]
  congr 1
  ext key
  rw [List.mem_toFinset, Table.mem_keys_iff, get?_columnTypes_ofCalls, isSome_common?_typesSet,
    mem_keysSet]
  simp only [true_and]

theorem memorySize_assemble_ofCalls (hcount : (addedIds calls).card ≤ slotLimit) :
    ((ofCalls calls).assemble (ofCalls calls).distinctNodes).memorySize = bytesOf calls := by
  rw [memorySize_assemble, ids_ofCalls, length_keys_columnTypes_ofCalls, entryCost_ofCalls, bytesOf,
    ← map_length_listsKept_ofCalls hcount, List.map_map]
  rfl

/--
The limits are exact. More nodes than allowed are refused, whatever memory they take; with no more
nodes than that, more memory than allowed is; and otherwise a projection of just that size is built.
-/
theorem build_within_limits (hcount : (addedIds calls).card ≤ slotLimit) :
    ((ofCalls calls).build = .error (.limitExceeded "node" (chosenMaxNodes calls)) ↔
      (chosenMaxNodes calls).toNat < (addedIds calls).card) ∧
    ((ofCalls calls).build = .error (.limitExceeded "memory" (chosenMaxMemory calls)) ↔
      (addedIds calls).card ≤ (chosenMaxNodes calls).toNat ∧
        (chosenMaxMemory calls).toNat < bytesOf calls) ∧
    ((addedIds calls).card ≤ (chosenMaxNodes calls).toNat →
      bytesOf calls ≤ (chosenMaxMemory calls).toNat →
        ∃ projection, (ofCalls calls).build = .ok projection ∧
          projection.memorySize = bytesOf calls) := by
  have hmemory := memorySize_assemble_ofCalls hcount
  refine ⟨?_, ?_, fun hnodes hfits ↦ ?_⟩
  · rw [build_eq_error_iff, ids_ofCalls, maxNodes_ofCalls]
    simp
  · rw [build_eq_error_iff, ids_ofCalls, maxNodes_ofCalls, maxMemory_ofCalls, hmemory]
    simp
  · refine ⟨_, build_eq_ok_iff.mpr ⟨?_, ?_, rfl⟩, hmemory⟩
    · rwa [ids_ofCalls, maxNodes_ofCalls]
    · rwa [hmemory, maxMemory_ofCalls]

/-- Three nodes of which one has a property, a loop, and a relationship with a missing end. -/
def loopedTrio (nodes memory : UInt64) : List Call :=
  [.load .undirected, .nodes [⟨10⟩, ⟨20⟩, ⟨10⟩], .weightedRelationship ⟨10⟩ ⟨20⟩ 0.5,
    .relationships [(⟨20⟩, ⟨20⟩), (⟨20⟩, ⟨99⟩)], .nodeProperty ⟨30⟩ "x" (.long 1),
    .limits ⟨memory, 0, 1, 1⟩, .maxNodes nodes]

theorem build_within_limits_of_loopedTrio :
    (∃ projection, (ofCalls (loopedTrio 3 124)).build = .ok projection ∧
      projection.memorySize = 124) ∧
    (ofCalls (loopedTrio 3 123)).build = .error (.limitExceeded "memory" 123) ∧
    (ofCalls (loopedTrio 2 123)).build = .error (.limitExceeded "node" 2) := by
  have hcard (nodes memory : UInt64) : (addedIds (loopedTrio nodes memory)).card = 3 := rfl
  have hcount (nodes memory : UInt64) : (addedIds (loopedTrio nodes memory)).card ≤ slotLimit := by
    rw [hcard]
    decide
  have hbytes (nodes memory : UInt64) : bytesOf (loopedTrio nodes memory) = 124 := by
    have hweights : GivesWeights (loopedTrio nodes memory) :=
      ⟨⟨⟨10⟩, ⟨20⟩, some 0.5⟩, by simp [loopedTrio, Call.given], rfl⟩
    have hkept : relationshipsKept (loopedTrio nodes memory) =
        [⟨⟨10⟩, ⟨20⟩, some 0.5⟩, ⟨⟨20⟩, ⟨20⟩, none⟩] := rfl
    have hentries : entriesKept (loopedTrio nodes memory) = [3] := by
      rw [entriesKept, loopCount, hkept]
      rfl
    have hkeys : (keysSet (loopedTrio nodes memory)).card = 1 := rfl
    rw [bytesOf, hentries, hcard, hkeys]
    simp only [if_pos hweights]
    rfl
  refine ⟨?_, ?_, ?_⟩
  · rw [← hbytes 3 124]
    exact (build_within_limits (hcount 3 124)).2.2 (by decide) (by rw [hbytes]; decide)
  · exact (build_within_limits (hcount 3 123)).2.1.mpr ⟨by decide, by rw [hbytes]; decide⟩
  · exact (build_within_limits (hcount 2 123)).1.mpr (by decide)

end WeakComponents.Projection.Builder
