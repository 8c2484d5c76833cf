import WeakComponents.Proofs.Components.Sizes
import WeakComponents.Proofs.Projection.Ranks

/-!
# Rows of a result

The rows of a result are those of the slots whose component is large enough, in the order of the
slots. For a least size of one or none the sizes are not looked at, which makes no difference: every
component has a slot. On a projection each slot has an id, so that no row is lost, and rows ascend
by id.
-/

namespace WeakComponents.Components

namespace Result

variable {result : Result} {component : UInt64} {index : ℕ}

/-- The least size of the components whose rows are kept, as a number. -/
def leastSize (result : Result) : ℕ :=
  (result.minComponentSize.getD 0).toNat

theorem getElem?_ofList_componentSizes (hmem : component ∈ result.components) :
    (Std.HashMap.ofList result.componentSizes)[component]? =
      some (result.components.toList.count component) := by
  have hdistinct : result.componentSizes.Pairwise fun a b ↦ (a.1 == b.1) = false := by
    have hnodup := List.pairwise_map.mp result.nodup_keys_componentSizes
    exact hnodup.imp fun hne ↦ beq_false_of_ne hne
  exact Std.HashMap.getElem?_ofList_of_mem BEq.rfl hdistinct (mem_componentSizes.mpr ⟨hmem, rfl⟩)

/-- Looking at sizes only where they can matter keeps the same slots. -/
theorem keptSlots_eq_filter (result : Result) :
    result.keptSlots = result.components.toList.zipIdx.filter fun entry ↦
      decide (result.leastSize ≤ result.components.toList.count entry.1) := by
  have hmem {entry : UInt64 × ℕ} (hentry : entry ∈ result.components.toList.zipIdx) :
      entry.1 ∈ result.components.toList :=
    List.mem_of_getElem? (List.mem_zipIdx_iff_getElem?.mp hentry)
  unfold keptSlots
  dsimp only
  split
  · apply List.filter_congr
    intro entry hentry
    rw [getElem?_ofList_componentSizes (Array.mem_toList_iff.mp (hmem hentry)), Option.getD_some]
    rfl
  · rename_i hsmall
    -- the component of a slot has at least that slot
    symm
    rw [List.filter_eq_self]
    intro entry hentry
    have hpositive : 0 < result.components.toList.count entry.1 :=
      List.count_pos_iff.mpr (hmem hentry)
    rw [decide_eq_true_iff, leastSize]
    omega

theorem mem_keptSlots :
    (component, index) ∈ result.keptSlots ↔
      result.components[index]? = some component ∧
        result.leastSize ≤ result.components.toList.count component := by
  rw [keptSlots_eq_filter, List.mem_filter, List.mem_zipIdx_iff_getElem?, decide_eq_true_iff,
    Array.getElem?_toList]

theorem pairwise_keptSlots (hcount : result.nodeCount ≤ slotLimit) :
    (result.keptSlots.map fun entry ↦ entry.2.toUInt32).Pairwise (· < ·) := by
  have hslots : (result.components.toList.zipIdx.map fun entry ↦ entry.2.toUInt32) =
      slotsBelow result.nodeCount := by
    calc
      _ = (result.components.toList.zipIdx.map Prod.snd).map Nat.toUInt32 := by
        rw [List.map_map]
        rfl
      _ = slotsBelow result.nodeCount := by
        rw [List.zipIdx_map_snd, Array.length_toList, ← List.range_eq_range']
        rfl
  rw [keptSlots_eq_filter]
  exact (hslots ▸ pairwise_slotsBelow hcount).sublist (List.filter_sublist.map _)

/-- The slots with rows are those whose component has at least the least size. -/
theorem mem_map_keptSlots_iff (hcount : result.nodeCount ≤ slotLimit) {slot : Slot} :
    slot ∈ (result.keptSlots.map fun entry ↦ entry.2.toUInt32) ↔
      ∃ id, result.componentOf? slot = some id ∧
        result.leastSize ≤ {other : Slot | result.componentOf? other = some id}.ncard := by
  rw [List.mem_map]
  constructor
  · rintro ⟨⟨component, index⟩, hentry, rfl⟩
    obtain ⟨hcomponent, hleast⟩ := mem_keptSlots.mp hentry
    have hindex : index < result.nodeCount := (Array.getElem?_eq_some_iff.mp hcomponent).1
    refine ⟨component, ?_, count_eq_ncard hcount component ▸ hleast⟩
    rwa [componentOf?, toNat_toUInt32 hcount hindex]
  · rintro ⟨id, hid, hleast⟩
    refine ⟨(id, slot.toNat), mem_keptSlots.mpr ⟨hid, ?_⟩, UInt32.ofNat_toNat⟩
    rwa [count_eq_ncard hcount]

theorem forall₂_filterMap {α β : Type} {R : α → β → Prop} {f : α → Option β} {list : List α}
    (h : ∀ entry ∈ list, ∃ value, f entry = some value ∧ R entry value) :
    List.Forall₂ R list (list.filterMap f) := by
  induction list with
  | nil => exact .nil
  | cons first rest ih =>
    obtain ⟨hfirst, hrest⟩ := List.forall_mem_cons.mp h
    obtain ⟨value, hvalue, hrelated⟩ := hfirst
    rw [List.filterMap_cons_some hvalue]
    exact .cons hrelated (ih hrest)

section

variable {builder : Projection.Builder} {projection : Projection}
  (hbuild : builder.build = .ok projection) (hcount : result.nodeCount ≤ slotLimit)

include hbuild hcount

/-- Rows ascend by id. -/
theorem pairwise_rows :
    ((result.rows projection).map Prod.fst).Pairwise (· < ·) := by
  rw [List.pairwise_map]
  apply List.Pairwise.filterMap _ _ (List.pairwise_map.mp (pairwise_keptSlots hcount))
  intro earlier later hlt row hrow row' hrow'
  obtain ⟨id, hid, rfl⟩ := Option.map_eq_some_iff.mp hrow
  obtain ⟨id', hid', rfl⟩ := Option.map_eq_some_iff.mp hrow'
  exact (Projection.lt_iff_of_nodeAt? hbuild hid hid').mp hlt

/-- Each slot with a row has the row of its id and its component. -/
theorem forall₂_rows (hnodes : result.nodeCount = projection.nodeCount) :
    List.Forall₂ (fun slot row ↦ IdMapping.nodeAt? projection slot = some row.1 ∧
        result.componentOf? slot = some row.2)
      (result.keptSlots.map fun entry ↦ entry.2.toUInt32) (result.rows projection) := by
  rw [List.forall₂_map_left_iff]
  apply forall₂_filterMap
  rintro ⟨component, index⟩ hentry
  have hcomponent := (mem_keptSlots.mp hentry).1
  have hindex : index < result.nodeCount := (Array.getElem?_eq_some_iff.mp hcomponent).1
  have hslot : index.toUInt32.toNat = index := toNat_toUInt32 hcount hindex
  obtain ⟨id, hid⟩ := Option.isSome_iff_exists.mp
    ((Projection.isSome_nodeAt?_iff hbuild).mpr (hslot.symm ▸ hnodes ▸ hindex))
  refine ⟨(id, component), Option.map_eq_some_iff.mpr ⟨id, hid, rfl⟩, hid, ?_⟩
  rwa [componentOf?, hslot]

end

/-- The list of objects has the numbers of each row under their names. -/
theorem forall₂_toJson {M : Type} [IdMapping M] (result : Result) (mapping : M) :
    ∃ objects, result.toJson mapping = .list objects ∧
      List.Forall₂ (fun row object ↦
        (object.get? "nodeId").bind Json.natural? = some row.1.value ∧
          (object.get? "componentId").bind Json.natural? = some row.2)
        (result.rows mapping) objects := by
  refine ⟨_, rfl, ?_⟩
  rw [List.forall₂_map_right_iff, List.forall₂_same]
  intro row _
  exact ⟨rfl, rfl⟩

end Result

/--
The sizes of a result and its rows agree. The sizes of all components add up to the number of nodes,
and there is one for each component counted. The rows are those of the slots whose component has at
least the least size, in the order of the slots and so of the ids, and each is an object of the list
that is written.
-/
theorem rows_and_sizes {builder : Projection.Builder} {projection : Projection} {config : Config}
    {result : Result} (hbuild : builder.build = .ok projection)
    (hrun : Succeeds projection config result) :
    result.nodeCount = projection.nodeCount ∧
    (result.componentSizes.map Prod.snd).sum = projection.nodeCount ∧
    (result.componentSizes.map Prod.fst).Nodup ∧
    result.componentSizes.length = result.componentCount ∧
    (∀ id size, (id, size) ∈ result.componentSizes ↔
      (∃ slot, result.componentOf? slot = some id) ∧
        size = {slot : Slot | result.componentOf? slot = some id}.ncard) ∧
    (∃ kept : List Slot, kept.Pairwise (· < ·) ∧
      (∀ slot, slot ∈ kept ↔ ∃ id, result.componentOf? slot = some id ∧
        (config.minComponentSize.getD 0).toNat ≤
          {other : Slot | result.componentOf? other = some id}.ncard) ∧
      List.Forall₂ (fun slot row ↦ IdMapping.nodeAt? projection slot = some row.1 ∧
        result.componentOf? slot = some row.2) kept (result.rows projection)) ∧
    ((result.rows projection).map Prod.fst).Pairwise (· < ·) ∧
    ∃ objects, result.toJson projection = .list objects ∧
      List.Forall₂ (fun row object ↦
        (object.get? "nodeId").bind Json.natural? = some row.1.value ∧
          (object.get? "componentId").bind Json.natural? = some row.2)
        (result.rows projection) objects := by
  obtain ⟨hlimit, hleast, ⟨relation, seedAt, offset, hanswers⟩, _⟩ :=
    exists_answers_of_succeeds hbuild hrun
  have hnodes : result.nodeCount = projection.nodeCount := hanswers.size_eq
  have hcount : result.nodeCount ≤ slotLimit := hnodes ▸ hlimit
  refine ⟨hnodes, hnodes ▸ result.sum_componentSizes, result.nodup_keys_componentSizes,
    Result.length_componentSizes hcount (hnodes ▸ hanswers),
    fun id size ↦ Result.mem_componentSizes_iff hcount,
    ⟨_, Result.pairwise_keptSlots hcount, fun slot ↦ ?_, Result.forall₂_rows hbuild hcount hnodes⟩,
    Result.pairwise_rows hbuild hcount, result.forall₂_toJson projection⟩
  rw [Result.mem_map_keptSlots_iff hcount, Result.leastSize, hleast]

/-- Three nodes of which the first and the last are related. -/
def pairBesideNode : Projection.Builder :=
  .ofCalls [.nodes [⟨30⟩, ⟨10⟩, ⟨20⟩], .relationship ⟨30⟩ ⟨10⟩]

/-- Where rows take a component of two nodes at least, the node with the largest id has one. -/
theorem rows_and_sizes_of_pairBesideNode :
    ∃ projection result, pairBesideNode.build = .ok projection ∧
      Succeeds projection ⟨4, 1, .outgoing, none, none, some 2⟩ result ∧
      (result.componentSizes.map Prod.snd).sum = 3 ∧
      ∃ row ∈ result.rows projection, IdMapping.nodeAt? projection 2 = some row.1 := by
  have hcard : pairBesideNode.ids.card = 3 := by decide
  have hkeys : pairBesideNode.columnTypes.keys.length = 0 := by decide
  obtain ⟨projection, hbuild, haddressable⟩ := pairBesideNode.exists_addressable_of_small
    (by decide) (by decide) (by decide) (by rw [hcard, hkeys]; decide)
  have hnodes : projection.nodeCount = 3 :=
    (Projection.nodeCount_of_build hbuild).trans hcard
  obtain ⟨result, hrun⟩ : ∃ result,
      Succeeds projection ⟨4, 1, .outgoing, none, none, some 2⟩ result :=
    exists_succeeds hbuild haddressable rfl (by decide) rfl
  obtain ⟨hnodes', hsum, _, _, _, ⟨kept, _, hkept, hrows⟩, _⟩ := rows_and_sizes hbuild hrun
  have hanswers := answers_joins_of_succeeds hbuild haddressable rfl (by decide) hrun
  have hjoins : pairBesideNode.Joins none 2 0 :=
    ⟨⟨⟨30⟩, ⟨10⟩, none⟩, Array.mem_push_self, by decide, by decide, by simp⟩
  have hlast : (2 : Slot).toNat < projection.nodeCount := by
    rw [hnodes]
    decide
  have hfirst : (0 : Slot).toNat < projection.nodeCount := by
    rw [hnodes]
    decide
  obtain ⟨id, hid⟩ := hanswers.exists_component hlast
  have hid' : result.componentOf? 0 = some id :=
    ((hanswers.same_iff 2 0 hlast hfirst).mpr (.rel 2 0 hjoins)).symm.trans hid
  have hmember : 2 ∈ kept := by
    have hfinite : {slot : Slot | result.componentOf? slot = some id}.Finite := by
      apply (Finset.finite_toSet (slotsBelow 3).toFinset).subset
      intro slot hslot
      rw [Finset.mem_coe, List.mem_toFinset, mem_slotsBelow (by decide), ← hnodes, ← hnodes']
      exact (Array.getElem?_eq_some_iff.mp hslot).1
    refine (hkept 2).mpr ⟨id, hid, ?_⟩
    exact (Set.one_lt_ncard hfinite).mpr ⟨2, hid, 0, hid', by decide⟩
  obtain ⟨position, hposition, hat⟩ := List.getElem_of_mem hmember
  obtain ⟨hlength, hget⟩ := List.forall₂_iff_get.mp hrows
  have hrow := (hget position hposition (hlength ▸ hposition)).1
  rw [List.get_eq_getElem, hat] at hrow
  exact ⟨projection, result, hbuild, hrun, hsum.trans hnodes, _, List.get_mem _ _, hrow⟩

end WeakComponents.Components
