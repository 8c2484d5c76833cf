import WeakComponents.Proofs.Components.Successful
import WeakComponents.Proofs.Projection.Ranks

/-!
# Slots and components by ids

The slot of an id is its rank among the ids that were added, so that the order of slots is the order
of ids. A run without seeds therefore names each component after the node with the smallest id in it.
-/

open Relation

namespace WeakComponents.Components

open Projection (nodeCount_of_build nodeAt?_eq_some_iff_numbered isSome_nodeAt?_iff lt_iff_of_nodeAt?
  isLeast_nodeAt? slotOf?_eq_some_iff_nodeAt?)
open Projection.Builder

variable {builder : Projection.Builder} {projection : Projection} {config : Config}
  {result : Result}

/-- The component of a slot is the slot of the smallest id in it: of the ids of all slots with that
component, and where all rows can be addressed also of the ids of all connected slots. -/
structure NamedAfter (builder : Projection.Builder) (projection : Projection) (config : Config)
    (result : Result) (slot least : Slot) (id : NodeId) : Prop where
  component_eq : result.components[slot.toNat]? = some least.toUInt64
  nodeAt?_eq : IdMapping.nodeAt? projection least = some id
  isLeast_alike : IsLeast {other | ∃ member : Slot,
    result.components[member.toNat]? = result.components[slot.toNat]? ∧
      IdMapping.nodeAt? projection member = some other} id
  isLeast_connected : projection.Addressable →
    IsLeast {other | ∃ member, EqvGen (builder.Joins config.threshold) slot member ∧
      IdMapping.nodeAt? projection member = some other} id

/-- A run without seeds names the component of a slot after the smallest id in it. -/
theorem exists_namedAfter (hbuild : builder.build = .ok projection)
    (hunseeded : config.seedProperty = none) (hrun : Succeeds projection config result)
    {slot : Slot} (hslot : slot.toNat < projection.nodeCount) :
    ∃ least id, NamedAfter builder projection config result slot least id := by
  obtain ⟨_, _, _, hunseededAnswers⟩ := exists_answers_of_succeeds hbuild hrun
  obtain ⟨relation, hanswers⟩ := hunseededAnswers hunseeded
  obtain ⟨component, hcomponent⟩ := hanswers.exists_component hslot
  obtain ⟨least, hleast, hvalue⟩ := hanswers.smallest_slot slot component hcomponent fun _ _ ↦ rfl
  have hbelow : least.toNat < projection.nodeCount :=
    (UInt32.le_iff_toNat_le.mp (hleast.2 (EqvGen.refl slot))).trans_lt hslot
  obtain ⟨id, hid⟩ := Option.isSome_iff_exists.mp ((isSome_nodeAt?_iff hbuild).mpr hbelow)
  have hname : component = least.toUInt64 := by
    rw [← UInt64.toNat_inj, hvalue, UInt32.toNat_toUInt64, Nat.zero_add]
  refine ⟨least, id, hname ▸ hcomponent, hid, isLeast_nodeAt? hbuild hid ?_ ?_, fun h ↦ ?_⟩
  · exact ((hanswers.same_iff slot least hslot hbelow).mpr hleast.1).symm
  · intro member hmember hwithin
    exact hleast.2 ((hanswers.same_iff slot member hslot hwithin).mp hmember.symm)
  · have hserved := served_of_succeeds hbuild hunseeded hrun hslot
    have hjoins := answers_joins_of_succeeds hbuild h hunseeded hserved hrun
    obtain ⟨named, hnamed, hvalue'⟩ :=
      hjoins.smallest_slot slot component hcomponent fun _ _ ↦ rfl
    -- one component has one smallest slot, whatever relation it answers for
    obtain rfl : named = least := by
      rw [← UInt32.toNat_inj]
      omega
    exact isLeast_nodeAt? hbuild hid hnamed.1 fun member hmember _ ↦ hnamed.2 hmember

/--
A projection is numbered by rank: its map of ids has no hash index, the slot of an added id counts
the smaller ones, and ids and slots translate into each other. Adding the same nodes otherwise makes
no difference. So slots follow the order of ids, and a run without seeds names every component after
the slot of the smallest id in it.
-/
theorem slots_by_rank {calls : List Call} (hbuild : (ofCalls calls).build = .ok projection)
    (hcount : (addedIds calls).card ≤ slotLimit) :
    projection.idMap.isCompacted = true ∧
    (∀ id ∈ addedIds calls, ∃ slot, IdMapping.slotOf? projection id = some slot ∧
      slot.toNat = ((addedIds calls).filter (· < id)).card) ∧
    (∀ id ∉ addedIds calls, IdMapping.slotOf? projection id = none) ∧
    projection.nodeCount = (addedIds calls).card ∧
    (∀ slot : Slot, slot.toNat < projection.nodeCount →
      ∃ id, IdMapping.nodeAt? projection slot = some id ∧
        IdMapping.slotOf? projection id = some slot) ∧
    (∀ slot : Slot, projection.nodeCount ≤ slot.toNat →
      IdMapping.nodeAt? projection slot = none) ∧
    (∀ id slot, IdMapping.slotOf? projection id = some slot →
      IdMapping.nodeAt? projection slot = some id) ∧
    (∀ calls', SameNodes calls calls' →
      ∃ projection', (ofCalls calls').build = .ok projection' ∧
        (∀ id, IdMapping.slotOf? projection' id = IdMapping.slotOf? projection id) ∧
        ∀ slot, IdMapping.nodeAt? projection' slot = IdMapping.nodeAt? projection slot) ∧
    (∀ a b idA idB, IdMapping.nodeAt? projection a = some idA →
      IdMapping.nodeAt? projection b = some idB → (a < b ↔ idA < idB)) ∧
    ∀ config result, config.seedProperty = none → Succeeds projection config result →
      ∀ slot : Slot, slot.toNat < projection.nodeCount →
        ∃ least id, NamedAfter (ofCalls calls) projection config result slot least id := by
  have hids : (ofCalls calls).ids.card ≤ slotLimit := ids_ofCalls calls ▸ hcount
  have hslotOf (id : NodeId) : IdMapping.slotOf? projection id =
      if id ∈ addedIds calls then some (rankOf calls id).toUInt32 else none := by
    rw [slotOf?_of_build hbuild, slotOf?_idMapOf_ofCalls hcount]
  have hrank (id : NodeId) : rankOf calls id ≤ slotLimit :=
    (Finset.card_filter_le _ _).trans hcount
  refine ⟨?_, fun id hid ↦ ⟨_, (hslotOf id).trans (if_pos hid), toNat_toUInt32_of_le (hrank id)⟩,
    fun id hid ↦ (hslotOf id).trans (if_neg hid), ids_ofCalls calls ▸ nodeCount_of_build hbuild,
    fun slot hslot ↦ ?_, fun slot hslot ↦ ?_,
    fun id slot ↦ (slotOf?_eq_some_iff_nodeAt? hbuild hids).mp, fun calls' hsame ↦ ?_,
    fun a b idA idB ↦ lt_iff_of_nodeAt? hbuild,
    fun config result hunseeded hrun slot ↦ exists_namedAfter hbuild hunseeded hrun⟩
  · rw [Projection.idMap_of_build hbuild]
    rfl
  · obtain ⟨id, hid⟩ := Option.isSome_iff_exists.mp ((isSome_nodeAt?_iff hbuild).mpr hslot)
    exact ⟨id, hid, (slotOf?_eq_some_iff_nodeAt? hbuild hids).mpr hid⟩
  · rw [← Option.not_isSome_iff_eq_none, isSome_nodeAt?_iff hbuild]
    exact not_lt.mpr hslot
  · obtain ⟨projection', hbuild', hmap⟩ := hsame.exists_build hcount hbuild
    refine ⟨projection', hbuild', fun id ↦ ?_, fun slot ↦ ?_⟩
    · change projection'.idMap.slotOf? id = projection.idMap.slotOf? id
      rw [hmap]
    · change projection'.idMap.nodeAt? slot = projection.idMap.nodeAt? slot
      rw [hmap]

/-- Three nodes, one of them added twice, of which the first and the last are related. -/
def scatteredNodes : List Call :=
  [.nodes [⟨30⟩, ⟨10⟩], .relationship ⟨30⟩ ⟨10⟩, .node ⟨20⟩, .node ⟨10⟩]

/-- The same nodes added in another order, one of them once more. -/
def reorderedNodes : List Call :=
  [.node ⟨10⟩, .node ⟨20⟩, .relationship ⟨30⟩ ⟨10⟩, .node ⟨10⟩, .nodes [⟨30⟩, ⟨10⟩]]

/-- The largest of three ids has the last slot, and its component is the slot of the smallest. -/
theorem slots_by_rank_of_scatteredNodes :
    ∃ projection, (ofCalls scatteredNodes).build = .ok projection ∧
      (addedIds scatteredNodes).card ≤ slotLimit ∧
      IdMapping.slotOf? projection ⟨30⟩ = some 2 ∧
      (∃ projection', (ofCalls reorderedNodes).build = .ok projection' ∧
        IdMapping.slotOf? projection' ⟨30⟩ = some 2) ∧
      ∃ result, Succeeds projection ⟨4, 1, .outgoing, none, none, none⟩ result ∧
        result.components[2]? = some 0 := by
  have hcard : (ofCalls scatteredNodes).ids.card = 3 := by decide
  have hkeys : (ofCalls scatteredNodes).columnTypes.keys.length = 0 := by decide
  obtain ⟨projection, hbuild, haddressable⟩ :=
    (ofCalls scatteredNodes).exists_addressable_of_small (by decide) (by decide) (by decide)
      (by rw [hcard, hkeys]; decide)
  have hcount : (addedIds scatteredNodes).card ≤ slotLimit := by decide
  obtain ⟨result, hrun⟩ : ∃ result,
      Succeeds projection ⟨4, 1, .outgoing, none, none, none⟩ result :=
    exists_succeeds hbuild haddressable rfl (by decide) rfl
  obtain ⟨_, hrank, _, hnodes, _, _, hback, hsame, horder, hnamed⟩ := slots_by_rank hbuild hcount
  have hslot : IdMapping.slotOf? projection ⟨30⟩ = some 2 := by
    obtain ⟨slot, hslot, hvalue⟩ := hrank ⟨30⟩ (by decide)
    obtain rfl : slot = 2 := UInt32.toNat_inj.mp (hvalue.trans (by decide))
    exact hslot
  have hfirst : IdMapping.nodeAt? projection 0 = some ⟨10⟩ := by
    obtain ⟨slot, hslot, hvalue⟩ := hrank ⟨10⟩ (by decide)
    obtain rfl : slot = 0 := UInt32.toNat_inj.mp (hvalue.trans (by decide))
    exact hback _ _ hslot
  have hreordered : SameNodes scatteredNodes reorderedNodes := by
    refine sameNodes_of_mem_iff (fun call _ ↦ ?_) rfl
    simp only [scatteredNodes, reorderedNodes, List.mem_cons, List.not_mem_nil]
    tauto
  obtain ⟨projection', hbuild', hslots, _⟩ := hsame reorderedNodes hreordered
  have hjoins : (ofCalls scatteredNodes).Joins none 2 0 :=
    ⟨⟨⟨30⟩, ⟨10⟩, none⟩, Array.mem_push_self, by decide, by decide, by simp⟩
  obtain ⟨least, id, hleast⟩ := hnamed _ result rfl hrun 2 (by rw [hnodes]; decide)
  obtain rfl : least = 0 := by
    have hlower := (hleast.isLeast_connected haddressable).2 ⟨0, EqvGen.rel 2 0 hjoins, hfirst⟩
    have hge := (horder 0 least _ _ hfirst hleast.nodeAt?_eq).not.mpr (not_lt.mpr hlower)
    exact UInt32.le_zero_iff.mp (UInt32.not_lt.mp hge)
  exact ⟨projection, hbuild, hcount, hslot, ⟨projection', hbuild', (hslots ⟨30⟩).trans hslot⟩,
    result, hrun, hleast.component_eq⟩

end WeakComponents.Components
