import Mathlib.Data.Finset.Max
import WeakComponents.Proofs.IdMap.Runs

/-!
# What the flags of an id map tell

A map is sorted as long as every new id was larger than all ids before it, and it is compacted
since the last compaction that found it sorted, until a new id comes below the largest one. From
then on it is neither again, whatever follows.
-/

namespace WeakComponents.IdMap

variable {nodes : List NodeId} {node : NodeId} {map : IdMap}

/-- An id is new and below the largest one so far. -/
def ComesLate (nodes : List NodeId) (node : NodeId) : Prop :=
  node ∉ nodes ∧ ∃ largest, IsGreatest {id | id ∈ nodes} largest ∧ node < largest

theorem comesLate_iff : ComesLate nodes node ↔ node ∉ nodes ∧ ∃ other ∈ nodes, node < other := by
  apply and_congr_right
  intro _
  constructor
  · rintro ⟨largest, hlargest, hlt⟩
    exact ⟨largest, hlargest.1, hlt⟩
  · rintro ⟨other, hother, hlt⟩
    have hnonempty : nodes.toFinset.Nonempty := ⟨other, List.mem_toFinset.mpr hother⟩
    have hgreatest := nodes.toFinset.isGreatest_max' hnonempty
    rw [List.coe_toFinset] at hgreatest
    exact ⟨_, hgreatest, hlt.trans_le (hgreatest.2 hother)⟩

/-- A new id that does not come late is larger than all others. -/
theorem not_comesLate_iff (hnew : node ∉ nodes) :
    ¬ ComesLate nodes node ↔ ∀ other ∈ nodes, other < node := by
  rw [comesLate_iff, and_iff_right hnew]
  push Not
  constructor
  · intro h other hother
    exact lt_of_le_of_ne (h other hother) fun hsame ↦ hnew (hsame ▸ hother)
  · intro h other hother
    exact (h other hother).le

theorem isCompacted_compact (map : IdMap) :
    map.compact.isCompacted = (map.isSorted || map.isCompacted) := by
  unfold compact isSorted
  split
  · rename_i hascending
    rw [hascending]
    rfl
  · rename_i hascending
    simp [hascending]

theorem isCompacted_append (map : IdMap) (node : NodeId) :
    (map.append node).isCompacted = (map.isCompacted && map.isAfterLast node) := by
  unfold isCompacted IdMap.append
  cases map.index with
  | hashed table => rfl
  | sorted => cases map.isAfterLast node <;> rfl

/-- Inserting never compacts a map. -/
theorem isCompacted_insertAll (h : map.isCompacted = false) (nodes : List NodeId) :
    (map.insertAll nodes).isCompacted = false := by
  induction nodes generalizing map with
  | nil => exact h
  | cons node rest ih =>
    apply ih
    change (map.insert node).2.isCompacted = false
    unfold IdMap.insert
    split
    · exact h
    · rw [isCompacted_append, h, Bool.false_and]

namespace Holds

theorem isAfterLast_iff_of_isCompacted (h : Holds nodes map) (hcompacted : map.isCompacted = true) :
    map.isAfterLast node = true ↔ ∀ other ∈ nodes, other < node := by
  have hascending := h.ascending_of_compacted hcompacted
  have hafter : (map.ascending && map.isAfterLast node) = true ↔
      (nodes ++ [node]).Pairwise (· < ·) := h.isAfterLast_iff
  rw [hascending, Bool.true_and] at hafter
  rw [hafter, List.pairwise_append]
  simp [h.ascending_iff.mp hascending]

/-- Inserting an id leaves the map compacted unless the id comes late. -/
theorem isCompacted_insert (h : Holds nodes.eraseDups map) (node : NodeId) :
    (map.insert node).2.isCompacted = true ↔
      map.isCompacted = true ∧ ¬ ComesLate nodes node := by
  unfold IdMap.insert
  cases hslot : map.slotOf? node with
  | some slot =>
    have hknown : node ∈ nodes := List.mem_eraseDups.mp ((h.slotOf?_iff node slot).mp hslot).mem
    exact (and_iff_left fun hlate ↦ hlate.1 hknown).symm
  | none =>
    have hnew : node ∉ nodes := by
      have habsent := h.notMem_of_slotOf?_eq_none hslot
      rwa [List.mem_eraseDups] at habsent
    dsimp only
    rw [isCompacted_append, Bool.and_eq_true]
    apply and_congr_right
    intro hcompacted
    rw [h.isAfterLast_iff_of_isCompacted hcompacted, not_comesLate_iff hnew]
    simp only [List.mem_eraseDups]

end Holds

namespace Origin

variable {origin : Origin} {operations : List Operation}

/-- No map is made compacted. -/
theorem isCompacted_map (origin : Origin) : origin.map.isCompacted = false := by
  cases origin with
  | empty => rfl
  | withCapacity capacity => rfl
  | ofList nodes => exact isCompacted_insertAll rfl nodes

theorem snd_performAll_append (map : IdMap) (operations more : List Operation) :
    (map.performAll (operations ++ more)).2 =
      ((map.performAll operations).2.performAll more).2 := by
  induction operations generalizing map with
  | nil => rfl
  | cons operation rest ih =>
    cases operation with
    | insert node => exact ih (map.insert node).2
    | compact => exact ih map.compact

theorem after_append_insert (origin : Origin) (operations : List Operation) (node : NodeId) :
    origin.after (operations ++ [.insert node]) = ((origin.after operations).insert node).2 :=
  snd_performAll_append origin.map operations [.insert node]

theorem after_append_compact (origin : Origin) (operations : List Operation) :
    origin.after (operations ++ [.compact]) = (origin.after operations).compact :=
  snd_performAll_append origin.map operations [.compact]

/-- Some compaction found the map sorted, and no id has come late since. -/
def CompactedInTime (origin : Origin) (operations : List Operation) : Prop :=
  ∃ before after, operations = before ++ .compact :: after ∧
    (origin.after before).isSorted = true ∧
    ∀ since node, (since ++ [.insert node]) <+: after →
      ¬ ComesLate (origin.history (before ++ .compact :: since)) node

theorem not_compactedInTime_nil : ¬ origin.CompactedInTime [] := by
  rintro ⟨before, after, heq, _⟩
  exact List.append_ne_nil_of_right_ne_nil before (List.cons_ne_nil _ after) heq.symm

/-- The last operation either was the compaction or came after it. -/
theorem compactedInTime_append_singleton (operation : Operation) :
    origin.CompactedInTime (operations ++ [operation]) ↔
      operation = .compact ∧ (origin.after operations).isSorted = true ∨
        origin.CompactedInTime operations ∧
          ∀ node, operation = .insert node → ¬ ComesLate (origin.history operations) node := by
  constructor
  · rintro ⟨before, after, heq, hsorted, hsince⟩
    induction after using List.reverseRecOn with
    | nil =>
      obtain ⟨rfl, hlast⟩ := List.append_inj' heq rfl
      exact .inl ⟨(List.cons.inj hlast).1, hsorted⟩
    | append_singleton after last _ =>
      rw [← List.cons_append, ← List.append_assoc] at heq
      obtain ⟨rfl, hlast⟩ := List.append_inj' heq rfl
      obtain rfl := (List.cons.inj hlast).1
      refine .inr ⟨⟨before, after, rfl, hsorted, ?_⟩, ?_⟩
      · intro since node hinitial
        exact hsince since node (hinitial.trans (List.prefix_append _ _))
      · intro node hinsert
        exact hsince after node (hinsert ▸ List.prefix_rfl)
  · rintro (⟨rfl, hsorted⟩ | ⟨⟨before, after, rfl, hsorted, hsince⟩, hlast⟩)
    · refine ⟨operations, [], rfl, hsorted, fun since node hinitial ↦ ?_⟩
      exact absurd (List.prefix_nil.mp hinitial) (List.append_ne_nil_of_right_ne_nil _ (by simp))
    · refine ⟨before, after ++ [operation], by simp, hsorted, fun since node hinitial ↦ ?_⟩
      rcases List.prefix_concat_iff.mp hinitial with heq | hinitial
      · obtain ⟨rfl, hoperation⟩ := List.append_inj' heq rfl
        exact hlast node (List.cons.inj hoperation).1.symm
      · exact hsince since node hinitial

/-- A map is compacted just if a compaction found it sorted and no id has come late since. -/
theorem isCompacted_after_iff (origin : Origin) (operations : List Operation) :
    (origin.after operations).isCompacted = true ↔ origin.CompactedInTime operations := by
  induction operations using List.reverseRecOn with
  | nil =>
    refine iff_of_false ?_ not_compactedInTime_nil
    rw [Bool.not_eq_true]
    exact origin.isCompacted_map
  | append_singleton operations operation ih =>
    rw [compactedInTime_append_singleton, ← ih]
    cases operation with
    | insert node =>
      rw [after_append_insert, (origin.holds_after operations).isCompacted_insert]
      simp
    | compact =>
      rw [after_append_compact, isCompacted_compact, Bool.or_eq_true]
      simp

theorem isSorted_after_iff (origin : Origin) (operations : List Operation) :
    (origin.after operations).isSorted = true ↔
      (origin.history operations).eraseDups.Pairwise (· < ·) :=
  (origin.holds_after operations).ascending_iff

/-- A map that is not sorted never becomes sorted again. -/
theorem isSorted_after_append_eq_false (h : (origin.after operations).isSorted = false)
    (more : List Operation) : (origin.after (operations ++ more)).isSorted = false := by
  have hhistory : origin.history (operations ++ more) =
      origin.history operations ++ more.flatMap Operation.nodes := by
    rw [history, List.flatMap_append, ← List.append_assoc, history]
  rw [← Bool.not_eq_true, isSorted_after_iff] at h ⊢
  rw [hhistory, List.eraseDups_append]
  exact fun hsorted ↦ h (List.pairwise_append.mp hsorted).1

/--
After any insertions and compactions, a map is sorted just if its ids ascend in the order of their
slots; it is compacted just if some compaction found it sorted and since then no id came that was
new and below the largest one; a compacted map can be searched; and a map that is not sorted is
never sorted or compacted again.
-/
theorem flags_by_history (origin : Origin) (operations : List Operation) :
    ((origin.after operations).isSorted = true ↔
      ((origin.after operations).toList.map Prod.snd).Pairwise (· < ·)) ∧
    ((origin.after operations).isCompacted = true ↔
      ∃ before after, operations = before ++ .compact :: after ∧
        (origin.after before).isSorted = true ∧
        ∀ since node, (since ++ [.insert node]) <+: after →
          ¬ ComesLate (origin.history (before ++ .compact :: since)) node) ∧
    ((origin.after operations).isCompacted = true →
      ((origin.after operations).toList.map Prod.snd).Pairwise (· < ·) ∧
      ∀ node position,
        search (origin.after operations).nodes node 0 (origin.after operations).size =
            some position ↔
          (origin.after operations).nodes[position]? = some node) ∧
    ((origin.after operations).isSorted = false → ∀ more,
      (origin.after (operations ++ more)).isSorted = false ∧
      (origin.after (operations ++ more)).isCompacted = false) := by
  have hholds := origin.holds_after operations
  have hsorted := origin.isSorted_after_iff operations
  rw [← hholds.map_snd_toList] at hsorted
  refine ⟨hsorted, origin.isCompacted_after_iff operations, fun hcompacted ↦ ?_, fun h more ↦ ?_⟩
  · have hascending := hsorted.mp (hholds.ascending_of_compacted hcompacted)
    refine ⟨hascending, fun node position ↦ search_eq_some_iff ?_⟩
    rwa [hholds.nodes_eq, ← hholds.map_snd_toList]
  · have hunsorted := isSorted_after_append_eq_false h more
    refine ⟨hunsorted, ?_⟩
    rw [← Bool.not_eq_true] at hunsorted ⊢
    exact fun hcompacted ↦ hunsorted ((origin.holds_after _).ascending_of_compacted hcompacted)

/-- A map made of two ids in ascending order. -/
def sortedPair : Origin :=
  ofList [⟨3⟩, ⟨7⟩]

/-- An id above the largest keeps a compacted map compacted; one below undoes it for good. -/
theorem flags_by_history_of_lateId :
    (sortedPair.after [.compact, .insert ⟨9⟩]).isCompacted = true ∧
      search (sortedPair.after [.compact, .insert ⟨9⟩]).nodes ⟨9⟩ 0
        (sortedPair.after [.compact, .insert ⟨9⟩]).size = some 2 ∧
      (sortedPair.after [.compact, .insert ⟨9⟩, .insert ⟨5⟩, .compact]).isSorted = false ∧
      (sortedPair.after [.compact, .insert ⟨9⟩, .insert ⟨5⟩, .compact]).isCompacted = false := by
  have htable (operations : List Operation) := sortedPair.holds_after operations
  have hsorted : (sortedPair.after []).isSorted = true := by
    rw [(flags_by_history sortedPair []).1, (htable []).map_snd_toList]
    decide
  have hunsorted : (sortedPair.after [.compact, .insert ⟨9⟩, .insert ⟨5⟩]).isSorted = false := by
    rw [← Bool.not_eq_true, (flags_by_history sortedPair _).1, (htable _).map_snd_toList]
    decide
  obtain ⟨_, hcompacted, hsearch, _⟩ := flags_by_history sortedPair [.compact, .insert ⟨9⟩]
  have hkept : (sortedPair.after [.compact, .insert ⟨9⟩]).isCompacted = true := by
    refine hcompacted.mpr ⟨[], [.insert ⟨9⟩], rfl, hsorted, fun since node hinitial ↦ ?_⟩
    cases since with
    | nil =>
      obtain rfl : node = ⟨9⟩ := by simpa using hinitial
      rw [comesLate_iff]
      decide
    | cons operation since => simpa using hinitial.length_le
  refine ⟨hkept, ((hsearch hkept).2 ⟨9⟩ 2).mpr ?_, ?_⟩
  · rw [(htable _).nodes_eq]
    decide
  · exact (flags_by_history sortedPair _).2.2.2 hunsorted [.compact]

end Origin

end WeakComponents.IdMap
