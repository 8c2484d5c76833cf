import Mathlib.Data.Finset.Card
import WeakComponents.Projection.Builder
import WeakComponents.Proofs.IdMap.FirstSight

/-!
# The slots of ids

However often and in whatever order nodes are added, the slot of a node is the number of ids below
its own.
-/

namespace WeakComponents.Projection.Builder

variable {builder : Builder} {projection : Projection} {nodes : List NodeId} {id : NodeId}

theorem mem_cons_dropRepeats (previous : NodeId) (nodes : List NodeId) :
    id ∈ previous :: dropRepeats previous nodes ↔ id ∈ previous :: nodes := by
  induction nodes generalizing previous with
  | nil => rfl
  | cons next rest ih =>
    rw [dropRepeats]
    split
    · rename_i hsame
      rw [ih, hsame]
      simp
    · rw [List.mem_cons, ih, ← List.mem_cons]

theorem pairwise_cons_dropRepeats {previous : NodeId}
    (h : (previous :: nodes).Pairwise (· ≤ ·)) :
    (previous :: dropRepeats previous nodes).Pairwise (· < ·) := by
  induction nodes generalizing previous with
  | nil => exact List.pairwise_singleton _ _
  | cons next rest ih =>
    obtain ⟨hprevious, hrest⟩ := List.pairwise_cons.mp h
    rw [dropRepeats]
    split
    · rename_i hsame
      exact ih (hsame ▸ hrest)
    · rename_i hne
      have hnext : previous < next :=
        lt_of_le_of_ne (hprevious next List.mem_cons_self) (Ne.symm hne)
      apply List.pairwise_cons.mpr
      refine ⟨fun later hlater ↦ ?_, ih hrest⟩
      rw [mem_cons_dropRepeats] at hlater
      rcases List.mem_cons.mp hlater with rfl | hlater
      · exact hnext
      · calc
          previous < next := hnext
          _ ≤ later := (List.pairwise_cons.mp hrest).1 later hlater

theorem mem_distinctNodes : id ∈ builder.distinctNodes ↔ id ∈ builder.nodes := by
  have hsort : id ∈ NodeId.sort builder.nodes.toList ↔ id ∈ builder.nodes := by
    rw [NodeId.sort, List.mem_mergeSort, Array.mem_toList_iff]
  rw [← hsort, distinctNodes]
  cases NodeId.sort builder.nodes.toList with
  | nil => rfl
  | cons first rest => exact mem_cons_dropRepeats first rest

theorem pairwise_distinctNodes (builder : Builder) :
    builder.distinctNodes.Pairwise (· < ·) := by
  have hsorted := NodeId.pairwise_sort builder.nodes.toList
  rw [distinctNodes]
  cases hsort : NodeId.sort builder.nodes.toList with
  | nil => exact List.Pairwise.nil
  | cons first rest => exact pairwise_cons_dropRepeats (hsort ▸ hsorted)

theorem countP_lt_of_getElem? (h : nodes.Pairwise (· < ·)) {position : ℕ}
    (hid : nodes[position]? = some id) :
    nodes.countP (fun other ↦ decide (other < id)) = position := by
  induction nodes generalizing position with
  | nil => simp at hid
  | cons first rest ih =>
    obtain ⟨hfirst, hrest⟩ := List.pairwise_cons.mp h
    cases position with
    | zero =>
      obtain rfl : first = id := by simpa using hid
      rw [List.countP_eq_zero]
      intro other hother
      rw [decide_eq_true_iff, not_lt]
      rcases List.mem_cons.mp hother with rfl | hother
      · exact le_refl other
      · exact (hfirst other hother).le
    | succ position =>
      rw [List.getElem?_cons_succ] at hid
      have hless : first < id := hfirst id (List.mem_of_getElem? hid)
      rw [List.countP_cons, ih hrest hid, if_pos (decide_eq_true hless)]

theorem card_filter_lt_of_getElem? (h : nodes.Pairwise (· < ·)) {position : ℕ}
    (hid : nodes[position]? = some id) : (nodes.toFinset.filter (· < id)).card = position := by
  have hnodup : nodes.Nodup := h.imp fun hlt ↦ hlt.ne
  calc
    (nodes.toFinset.filter (· < id)).card = (nodes.filter (· < id)).toFinset.card := by
      rw [List.toFinset_filter]
      simp
    _ = (nodes.filter (· < id)).length := List.toFinset_card_of_nodup (hnodup.filter _)
    _ = nodes.countP (· < id) := List.countP_eq_length_filter.symm
    _ = position := countP_lt_of_getElem? h hid

/-- The ids that were added. -/
def ids (builder : Builder) : Finset NodeId :=
  builder.nodes.toList.toFinset

/-- A slot is the one of an added id if it counts the ids below. -/
def Numbered (builder : Builder) (id : NodeId) (slot : Slot) : Prop :=
  id ∈ builder.ids ∧ (builder.ids.filter (· < id)).card = slot.toNat

instance (builder : Builder) (id : NodeId) (slot : Slot) : Decidable (builder.Numbered id slot) :=
  inferInstanceAs (Decidable (_ ∧ _))

theorem toFinset_distinctNodes (builder : Builder) :
    builder.distinctNodes.toFinset = builder.ids := by
  ext id
  rw [List.mem_toFinset, mem_distinctNodes, ids, List.mem_toFinset, Array.mem_toList_iff]

theorem length_distinctNodes (builder : Builder) :
    builder.distinctNodes.length = builder.ids.card := by
  have hnodup : builder.distinctNodes.Nodup :=
    (pairwise_distinctNodes builder).imp fun hlt ↦ hlt.ne
  rw [← toFinset_distinctNodes, List.toFinset_card_of_nodup hnodup]

theorem getElem?_distinctNodes_iff {position : ℕ} :
    builder.distinctNodes[position]? = some id ↔
      id ∈ builder.ids ∧ (builder.ids.filter (· < id)).card = position := by
  rw [← toFinset_distinctNodes, List.mem_toFinset]
  constructor
  · intro hid
    constructor
    · exact List.mem_of_getElem? hid
    · exact card_filter_lt_of_getElem? (pairwise_distinctNodes builder) hid
  · rintro ⟨hmem, hcard⟩
    obtain ⟨position', hid⟩ := List.getElem?_of_mem hmem
    rwa [← hcard, card_filter_lt_of_getElem? (pairwise_distinctNodes builder) hid]

/-- The numbering of the added ids gives each the slot of its position among them. -/
theorem slotOf?_idMapOf_iff_placed {slot : Slot} :
    (idMapOf builder.distinctNodes).slotOf? id = some slot ↔
      IdMap.Placed builder.distinctNodes id slot := by
  rw [idMapOf, IdMap.compact_ofList (pairwise_distinctNodes builder)]
  exact IdMap.slotOf?_of_sorted rfl rfl (pairwise_distinctNodes builder)

/-- The numbering of the added ids gives each the slot that counts the ids below. -/
theorem slotOf?_idMapOf (hcount : builder.ids.card ≤ slotLimit) {slot : Slot} :
    (idMapOf builder.distinctNodes).slotOf? id = some slot ↔ builder.Numbered id slot := by
  rw [slotOf?_idMapOf_iff_placed, IdMap.placed_iff (length_distinctNodes builder ▸ hcount),
    getElem?_distinctNodes_iff]
  rfl

/-- A slot that was given out is in range, even where there are more ids than slots. -/
theorem lt_card_of_slotOf?_idMapOf {slot : Slot}
    (h : (idMapOf builder.distinctNodes).slotOf? id = some slot) :
    slot.toNat < builder.ids.card := by
  obtain ⟨position, hid, rfl⟩ := slotOf?_idMapOf_iff_placed.mp h
  calc
    position.toUInt32.toNat = position % 2 ^ 32 := UInt32.toNat_ofNat'
    _ ≤ position := Nat.mod_le _ _
    _ < builder.distinctNodes.length := (List.getElem?_eq_some_iff.mp hid).1
    _ = builder.ids.card := length_distinctNodes builder

theorem size_idMapOf (builder : Builder) :
    (idMapOf builder.distinctNodes).size = builder.ids.card := by
  rw [idMapOf, IdMap.compact_ofList (pairwise_distinctNodes builder), IdMap.size,
    List.size_toArray, length_distinctNodes]

theorem Numbered.lt_card {slot : Slot} (h : builder.Numbered id slot) :
    slot.toNat < builder.ids.card := by
  rw [← h.2]
  apply Finset.card_lt_card
  rw [Finset.filter_ssubset]
  exact ⟨id, h.1, lt_irrefl id⟩

theorem build_eq_ok_iff :
    builder.build = .ok projection ↔
      builder.ids.card ≤ builder.maxNodes.toNat ∧
        projection.memorySize ≤ builder.maxMemory.toNat ∧
        projection = builder.assemble builder.distinctNodes := by
  unfold build
  dsimp only
  rw [length_distinctNodes]
  by_cases hnodes : builder.maxNodes.toNat < builder.ids.card
  · rw [if_pos hnodes]
    constructor
    · rintro ⟨⟩
    · rintro ⟨hfits, _⟩
      omega
  · rw [if_neg hnodes]
    by_cases hmemory :
        builder.maxMemory.toNat < (builder.assemble builder.distinctNodes).memorySize
    · rw [if_pos hmemory]
      constructor
      · rintro ⟨⟩
      · rintro ⟨_, hfits, rfl⟩
        omega
    · rw [if_neg hmemory]
      constructor
      · rintro ⟨⟩
        exact ⟨by omega, by omega, rfl⟩
      · rintro ⟨_, _, rfl⟩
        rfl

theorem build_eq_error_iff {error : EngineError} :
    builder.build = .error error ↔
      builder.maxNodes.toNat < builder.ids.card ∧
          error = .limitExceeded "node" builder.maxNodes ∨
        builder.ids.card ≤ builder.maxNodes.toNat ∧
          builder.maxMemory.toNat < (builder.assemble builder.distinctNodes).memorySize ∧
            error = .limitExceeded "memory" builder.maxMemory := by
  unfold build
  dsimp only
  rw [length_distinctNodes]
  by_cases hnodes : builder.maxNodes.toNat < builder.ids.card
  · rw [if_pos hnodes]
    simp [hnodes, eq_comm]
  · rw [if_neg hnodes]
    by_cases hmemory :
        builder.maxMemory.toNat < (builder.assemble builder.distinctNodes).memorySize
    · rw [if_pos hmemory]
      simp [hnodes, hmemory, eq_comm, not_lt.mp hnodes]
    · rw [if_neg hmemory]
      simp [hnodes, hmemory]

/-- A built projection numbers the ids that were added. -/
theorem slotOf?_of_build (hbuild : builder.build = .ok projection) (id : NodeId) :
    IdMapping.slotOf? projection id = (idMapOf builder.distinctNodes).slotOf? id := by
  obtain ⟨_, _, rfl⟩ := build_eq_ok_iff.mp hbuild
  rfl

theorem slotOf?_eq_some_iff_numbered (hbuild : builder.build = .ok projection)
    (hcount : builder.ids.card ≤ slotLimit) {slot : Slot} :
    IdMapping.slotOf? projection id = some slot ↔ builder.Numbered id slot := by
  rw [slotOf?_of_build hbuild, slotOf?_idMapOf hcount]

end WeakComponents.Projection.Builder
