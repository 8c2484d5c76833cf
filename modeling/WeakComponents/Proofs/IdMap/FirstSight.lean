import Mathlib.Data.Finset.Card
import Mathlib.Data.Finset.Dedup
import Mathlib.Data.List.Pairwise
import WeakComponents.Proofs.IdMap

/-!
# Ids in the order of first sight

An id map is a view of the list of distinct ids in the order in which they were first inserted. Each
insertion and each compaction keeps the index in agreement with this list, so that a run of them
answers as the list does, whichever index was in use when it answered. A map that is given strictly
ascending ids keeps them as they are and drops its hash index when it is compacted.
-/

namespace WeakComponents.IdMap

variable {nodes : List NodeId} {node other : NodeId} {map : IdMap} {slot : Slot}

theorem eraseDups_append_singleton (nodes : List NodeId) (node : NodeId) :
    (nodes ++ [node]).eraseDups =
      if node ∈ nodes then nodes.eraseDups else nodes.eraseDups ++ [node] := by
  rw [List.eraseDups_append]
  by_cases h : node ∈ nodes
  · simp [List.removeAll, h]
  · simp [List.removeAll, h, List.eraseDups_cons]

theorem nodup_eraseDups (nodes : List NodeId) : nodes.eraseDups.Nodup := by
  induction nodes using List.reverseRecOn with
  | nil => simp
  | append_singleton nodes node ih =>
    rw [eraseDups_append_singleton]
    split
    · exact ih
    · rename_i hnew
      rw [← List.mem_eraseDups] at hnew
      exact ih.append (List.nodup_singleton node) (by simpa using hnew)

theorem length_eraseDups (nodes : List NodeId) : nodes.eraseDups.length = nodes.toFinset.card := by
  rw [← List.toFinset_card_of_nodup (nodup_eraseDups nodes)]
  congr 1
  ext node
  rw [List.mem_toFinset, List.mem_toFinset, List.mem_eraseDups]

theorem eraseDups_eq_self (h : nodes.Nodup) : nodes.eraseDups = nodes := by
  induction nodes using List.reverseRecOn with
  | nil => simp
  | append_singleton nodes node ih =>
    obtain ⟨hnodes, _, hdisjoint⟩ := List.nodup_append'.mp h
    have hnew : node ∉ nodes := fun hmem ↦ hdisjoint hmem (List.mem_singleton_self node)
    rw [eraseDups_append_singleton, if_neg hnew, ih hnodes]

/-- The number of distinct ids that stand before the first place of an id. -/
def sightsBefore (nodes : List NodeId) (node : NodeId) : ℕ :=
  (nodes.takeWhile fun other ↦ decide (other ≠ node)).toFinset.card

/-- Among the distinct ids an id stands behind those that were seen before it. -/
theorem getElem?_eraseDups_iff {position : ℕ} :
    nodes.eraseDups[position]? = some node ↔
      node ∈ nodes ∧ sightsBefore nodes node = position := by
  have hplace (hmem : node ∈ nodes) :
      nodes.eraseDups[sightsBefore nodes node]? = some node := by
    obtain ⟨before, after, rfl, hnew⟩ := List.eq_append_cons_of_mem hmem
    have hbefore : (before ++ node :: after).takeWhile (fun other ↦ decide (other ≠ node)) =
        before := by
      rw [List.takeWhile_append_of_pos]
      · simp
      · intro other hother
        exact decide_eq_true fun heq ↦ hnew (heq ▸ hother)
    rw [sightsBefore, hbefore, ← length_eraseDups, List.eraseDups_append,
      List.getElem?_append_right (Nat.le_refl _), Nat.sub_self]
    simp [List.removeAll, hnew, List.eraseDups_cons]
  constructor
  · intro hnode
    have hmem : node ∈ nodes := List.mem_eraseDups.mp (List.mem_of_getElem? hnode)
    refine ⟨hmem, ?_⟩
    have hinside := (List.getElem?_eq_some_iff.mp (hplace hmem)).1
    exact (List.getElem?_inj hinside (nodup_eraseDups nodes)).mp ((hplace hmem).trans hnode.symm)
  · rintro ⟨hmem, rfl⟩
    exact hplace hmem

/-- A slot counts the position of an id in a list. -/
def Placed (nodes : List NodeId) (node : NodeId) (slot : Slot) : Prop :=
  ∃ position : ℕ, nodes[position]? = some node ∧ position.toUInt32 = slot

theorem placed_append_singleton :
    Placed (nodes ++ [other]) node slot ↔
      Placed nodes node slot ∨ node = other ∧ nodes.length.toUInt32 = slot := by
  unfold Placed
  constructor
  · rintro ⟨position, hnode, rfl⟩
    rw [List.getElem?_append] at hnode
    split at hnode
    · exact .inl ⟨position, hnode, rfl⟩
    · obtain ⟨hlast, hsame⟩ := List.getElem?_eq_some_iff.mp hnode
      rw [List.length_singleton] at hlast
      obtain rfl : position = nodes.length := by omega
      exact .inr ⟨by simpa using hsame.symm, rfl⟩
  · rintro (⟨position, hnode, rfl⟩ | ⟨rfl, rfl⟩)
    · have hinside : position < nodes.length := (List.getElem?_eq_some_iff.mp hnode).1
      exact ⟨position, by rwa [List.getElem?_append_left hinside], rfl⟩
    · exact ⟨nodes.length, by simp, rfl⟩

theorem placed_iff (hroom : nodes.length ≤ slotLimit) :
    Placed nodes node slot ↔ nodes[slot.toNat]? = some node := by
  constructor
  · rintro ⟨position, hnode, rfl⟩
    rwa [toNat_toUInt32 hroom (List.getElem?_eq_some_iff.mp hnode).1]
  · intro hnode
    exact ⟨slot.toNat, hnode, UInt32.ofNat_toNat⟩

theorem Placed.mem (h : Placed nodes node slot) : node ∈ nodes := by
  obtain ⟨position, hnode, _⟩ := h
  exact List.mem_of_getElem? hnode

/-- A map holds distinct ids by their positions and knows whether they ascend; it has dropped its
index only if they do. -/
structure Holds (nodes : List NodeId) (map : IdMap) : Prop where
  nodup : nodes.Nodup
  nodes_eq : map.nodes = nodes.toArray
  ascending_iff : map.ascending = true ↔ nodes.Pairwise (· < ·)
  slotOf?_iff : ∀ node slot, map.slotOf? node = some slot ↔ Placed nodes node slot
  ascending_of_compacted : map.isCompacted = true → map.ascending = true

theorem holds_withCapacity (capacity : ℕ) : Holds [] (withCapacity capacity) where
  nodup := List.nodup_nil
  nodes_eq := rfl
  ascending_iff := by simp [withCapacity]
  slotOf?_iff node slot := by simp [withCapacity, slotOf?, Placed]
  ascending_of_compacted _ := rfl

theorem slotOf?_of_sorted (hindex : map.index = .sorted) (hnodes : map.nodes = nodes.toArray)
    (hascending : nodes.Pairwise (· < ·)) :
    map.slotOf? node = some slot ↔ Placed nodes node slot := by
  unfold slotOf? Placed
  rw [hindex, hnodes]
  dsimp only
  rw [Option.map_eq_some_iff]
  simp only [search_eq_some_iff hascending, List.getElem?_toArray]

theorem getElem?_foldl_insert {entries : List (Slot × NodeId)} (table : Std.HashMap NodeId Slot)
    (hnew : (entries.map Prod.snd).Nodup) :
    (entries.foldl (fun table entry ↦ table.insert entry.2 entry.1) table)[node]? = some slot ↔
      (slot, node) ∈ entries ∨ node ∉ entries.map Prod.snd ∧ table[node]? = some slot := by
  induction entries generalizing table with
  | nil => simp
  | cons entry rest ih =>
    obtain ⟨place, first⟩ := entry
    obtain ⟨hfirst, hrest⟩ := List.nodup_cons.mp hnew
    dsimp only at hfirst
    rw [List.foldl_cons, ih _ hrest, Std.HashMap.getElem?_insert]
    by_cases hsame : first = node
    · subst hsame
      have habsent : (slot, first) ∉ rest := fun hmem ↦ hfirst (List.mem_map.mpr ⟨_, hmem, rfl⟩)
      simp [habsent, hfirst, eq_comm]
    · simp [hsame, Ne.symm hsame]

theorem Holds.getElem?_hashIndex (h : Holds nodes map) :
    map.hashIndex[node]? = some slot ↔ Placed nodes node slot := by
  have hentries : map.toList = nodes.zipIdx.map fun entry ↦ (entry.2.toUInt32, entry.1) := by
    rw [toList, h.nodes_eq]
  have hnodes : map.toList.map Prod.snd = nodes := by
    rw [hentries, List.map_map]
    exact List.zipIdx_map_fst 0 nodes
  unfold hashIndex Placed
  rw [getElem?_foldl_insert ∅ (hnodes.symm ▸ h.nodup), hentries]
  simp [List.mem_zipIdx_iff_getElem?, and_comm]

theorem Holds.isAfterLast_iff (h : Holds nodes map) :
    (map.ascending && map.isAfterLast node) = true ↔ (nodes ++ [node]).Pairwise (· < ·) := by
  have hlast : map.isAfterLast node = true ↔ ∀ last ∈ nodes.getLast?, last < node := by
    unfold isAfterLast
    rw [h.nodes_eq, List.back?_toArray]
    cases nodes.getLast? <;> simp
  rw [Bool.and_eq_true, h.ascending_iff, hlast, List.pairwise_append]
  constructor
  · rintro ⟨hascending, hbelow⟩
    refine ⟨hascending, List.pairwise_singleton _ _, fun earlier hearlier last hsame ↦ ?_⟩
    obtain rfl := List.mem_singleton.mp hsame
    have hne : nodes ≠ [] := List.ne_nil_of_mem hearlier
    calc
      earlier ≤ nodes.getLast hne := (hascending.imp le_of_lt).rel_getLast hearlier
      _ < last := hbelow _ (List.getLast?_eq_getLast_of_ne_nil hne)
  · rintro ⟨hascending, _, hbelow⟩
    refine ⟨hascending, fun last hmem ↦ hbelow last (List.mem_of_getLast? hmem) node ?_⟩
    exact List.mem_singleton_self node

theorem Holds.append (h : Holds nodes map) (hnew : node ∉ nodes) :
    Holds (nodes ++ [node]) (map.append node) := by
  have htable {table : Std.HashMap NodeId Slot}
      (htable : ∀ other slot, table[other]? = some slot ↔ Placed nodes other slot) (other : NodeId)
      (slot : Slot) : (table.insert node map.nodes.size.toUInt32)[other]? = some slot ↔
        Placed (nodes ++ [node]) other slot := by
    rw [Std.HashMap.getElem?_insert, placed_append_singleton, h.nodes_eq, List.size_toArray]
    by_cases hsame : node = other
    · subst hsame
      have habsent : ¬ Placed nodes node slot := fun hplaced ↦ hnew hplaced.mem
      simp [habsent]
    · simp [hsame, Ne.symm hsame, htable]
  have hnodes : (map.append node).nodes = (nodes ++ [node]).toArray := by
    simp [IdMap.append, h.nodes_eq]
  refine ⟨h.nodup.append (List.nodup_singleton node) (by simpa using hnew), hnodes,
    h.isAfterLast_iff, fun other slot ↦ ?_, fun hcompacted ↦ ?_⟩
  · cases hindex : map.index with
    | hashed table =>
      have hold (other : NodeId) (slot : Slot) :
          table[other]? = some slot ↔ Placed nodes other slot := by
        rw [← h.slotOf?_iff, slotOf?, hindex]
      simp only [slotOf?, IdMap.append, hindex]
      exact htable hold other slot
    | sorted =>
      cases hafter : map.isAfterLast node with
      | true =>
        have hascending : map.ascending = true :=
          h.ascending_of_compacted (by rw [isCompacted, hindex])
        apply slotOf?_of_sorted _ hnodes
        · rw [← h.isAfterLast_iff, hascending, hafter, Bool.and_self]
        · simp [IdMap.append, hindex, hafter]
      | false =>
        simp only [slotOf?, IdMap.append, hindex, hafter]
        exact htable (fun other slot ↦ h.getElem?_hashIndex) other slot
  · have hsorted : map.isCompacted = true ∧ map.isAfterLast node = true := by
      unfold isCompacted IdMap.append at hcompacted
      unfold isCompacted
      cases hindex : map.index with
      | hashed table => simp [hindex] at hcompacted
      | sorted => cases hafter : map.isAfterLast node <;> simp [hindex, hafter] at hcompacted ⊢
    simp [IdMap.append, h.ascending_of_compacted hsorted.1, hsorted.2]

theorem Holds.notMem_of_slotOf?_eq_none (h : Holds nodes map) (hslot : map.slotOf? node = none) :
    node ∉ nodes := by
  intro hmem
  obtain ⟨position, hposition⟩ := List.getElem?_of_mem hmem
  have hfound := (h.slotOf?_iff node _).mpr ⟨position, hposition, rfl⟩
  exact absurd (hslot.symm.trans hfound) (by simp)

/-- Inserting answers with the position of the id among the distinct ids. -/
theorem Holds.insert (h : Holds nodes.eraseDups map) (node : NodeId) :
    Holds (nodes ++ [node]).eraseDups (map.insert node).2 ∧
      Placed (nodes ++ [node]).eraseDups node (map.insert node).1 := by
  rw [eraseDups_append_singleton]
  unfold IdMap.insert
  cases hslot : map.slotOf? node with
  | some slot =>
    have hplaced := (h.slotOf?_iff node slot).mp hslot
    rw [if_pos (List.mem_eraseDups.mp hplaced.mem)]
    exact ⟨h, hplaced⟩
  | none =>
    have hnew := h.notMem_of_slotOf?_eq_none hslot
    rw [if_neg (by rwa [List.mem_eraseDups] at hnew)]
    refine ⟨h.append hnew, ?_⟩
    rw [placed_append_singleton]
    exact .inr ⟨rfl, by rw [h.nodes_eq, List.size_toArray]⟩

theorem Holds.compact (h : Holds nodes map) : Holds nodes map.compact := by
  unfold IdMap.compact
  split
  · rename_i hascending
    refine ⟨h.nodup, h.nodes_eq, h.ascending_iff, fun node slot ↦ ?_, fun _ ↦ hascending⟩
    exact slotOf?_of_sorted rfl h.nodes_eq (h.ascending_iff.mp hascending)
  · exact h

theorem Holds.insertAll (h : Holds nodes.eraseDups map) (more : List NodeId) :
    Holds (nodes ++ more).eraseDups (map.insertAll more) := by
  induction more generalizing nodes map with
  | nil => rwa [List.append_nil]
  | cons node rest ih =>
    rw [List.append_cons]
    exact ih (h.insert node).1

theorem holds_ofList (nodes : List NodeId) : Holds nodes.eraseDups (ofList nodes) := by
  have hempty : Holds ([] : List NodeId).eraseDups (withCapacity nodes.length) :=
    holds_withCapacity nodes.length
  exact hempty.insertAll nodes

theorem reserved_insert (map : IdMap) (node : NodeId) :
    (map.insert node).2.reserved = map.reserved := by
  unfold IdMap.insert
  split
  · rfl
  · rfl

theorem reserved_insertAll (map : IdMap) (nodes : List NodeId) :
    (map.insertAll nodes).reserved = map.reserved := by
  induction nodes generalizing map with
  | nil => rfl
  | cons node rest ih => exact (ih (map.insert node).2).trans (reserved_insert map node)

/-- A compacted map of ascending ids keeps nothing but the ids. -/
theorem compact_ofList (h : nodes.Pairwise (· < ·)) :
    (ofList nodes).compact = ⟨nodes.toArray, .sorted, true, nodes.length⟩ := by
  have hholds : Holds nodes (ofList nodes) := by
    have hdistinct := holds_ofList nodes
    rwa [eraseDups_eq_self (h.imp fun hlt ↦ hlt.ne)] at hdistinct
  have hascending : (ofList nodes).ascending = true := hholds.ascending_iff.mpr h
  have hreserved : (ofList nodes).reserved = nodes.length := reserved_insertAll _ nodes
  rw [IdMap.compact, if_pos hascending, hholds.nodes_eq, hascending, hreserved]

theorem listMemorySize_compact_ofList (h : nodes.Pairwise (· < ·)) :
    (ofList nodes).compact.listMemorySize = 8 * nodes.length := by
  rw [compact_ofList h, listMemorySize, List.size_toArray, Nat.max_self]

/-- Whatever room a table would have, a compacted map has none. -/
theorem memorySize_of_isCompacted (capacity : Std.HashMap NodeId Slot → ℕ)
    (h : map.isCompacted = true) : map.memorySize capacity = map.listMemorySize := by
  unfold isCompacted at h
  unfold memorySize
  cases hindex : map.index with
  | sorted => rfl
  | hashed table =>
    rw [hindex] at h
    cases h

/-- Compacting frees the memory of a hash index if slots follow the order of ids. -/
theorem memorySize_compact_lt {capacity : Std.HashMap NodeId Slot → ℕ}
    {table : Std.HashMap NodeId Slot} (hindex : map.index = .hashed table)
    (hsorted : map.isSorted = true) (hroom : 0 < capacity table) :
    map.compact.memorySize capacity < map.memorySize capacity := by
  have hcompact : map.compact = { map with index := .sorted } := if_pos hsorted
  rw [memorySize_of_isCompacted capacity (by rw [hcompact]; rfl), hcompact, memorySize, hindex]
  change map.listMemorySize < map.listMemorySize + 13 * capacity table
  omega

end WeakComponents.IdMap
