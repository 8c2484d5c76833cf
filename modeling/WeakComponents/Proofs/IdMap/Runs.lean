import WeakComponents.Proofs.IdMap.FirstSight

/-!
# Runs of insertions and compactions

Whatever a map was made from and however insertions and compactions follow each other, it answers
as the list of distinct ids in the order of first sight. When it was compacted does not show.
-/

namespace WeakComponents.IdMap

/-- Something that may change a map. -/
inductive Operation where
  | insert (node : NodeId)
  | compact

/-- The ids that an operation inserts. -/
def Operation.nodes : Operation → List NodeId
  | insert node => [node]
  | compact => []

/-- The answers of the insertions among some operations, and the map that is left. -/
def performAll (map : IdMap) : List Operation → List Slot × IdMap
  | [] => ([], map)
  | .insert node :: rest =>
    ((map.insert node).1 :: ((map.insert node).2.performAll rest).1,
      ((map.insert node).2.performAll rest).2)
  | .compact :: rest => map.compact.performAll rest

theorem placed_append {nodes : List NodeId} {node : NodeId} {slot : Slot}
    (h : Placed nodes.eraseDups node slot) (more : List NodeId) :
    Placed (nodes ++ more).eraseDups node slot := by
  obtain ⟨position, hnode, hslot⟩ := h
  have hinside : position < nodes.eraseDups.length := (List.getElem?_eq_some_iff.mp hnode).1
  refine ⟨position, ?_, hslot⟩
  rwa [List.eraseDups_append, List.getElem?_append_left hinside]

/-- Every insertion of a run answers with the position of its id among the distinct ids. -/
theorem Holds.performAll {nodes : List NodeId} {map : IdMap} (h : Holds nodes.eraseDups map)
    (operations : List Operation) :
    Holds (nodes ++ operations.flatMap Operation.nodes).eraseDups
        (map.performAll operations).2 ∧
      List.Forall₂ (Placed (nodes ++ operations.flatMap Operation.nodes).eraseDups)
        (operations.flatMap Operation.nodes) (map.performAll operations).1 := by
  induction operations generalizing nodes map with
  | nil => simpa [IdMap.performAll] using h
  | cons operation rest ih =>
    cases operation with
    | insert node =>
      obtain ⟨hinsert, hplaced⟩ := h.insert node
      obtain ⟨hholds, hanswers⟩ := ih hinsert
      rw [List.append_assoc] at hholds hanswers
      refine ⟨hholds, .cons ?_ hanswers⟩
      have hlater := placed_append hplaced (rest.flatMap Operation.nodes)
      rwa [List.append_assoc] at hlater
    | compact => exact ih h.compact

namespace Holds

variable {nodes : List NodeId} {map : IdMap} {node : NodeId} {slot : Slot}

theorem nodeAt?_eq (h : Holds nodes map) (slot : Slot) : map.nodeAt? slot = nodes[slot.toNat]? := by
  rw [nodeAt?, h.nodes_eq, List.getElem?_toArray]

theorem size_eq (h : Holds nodes map) : map.size = nodes.length := by
  rw [size, h.nodes_eq, List.size_toArray]

theorem toList_eq (h : Holds nodes map) :
    map.toList = nodes.zipIdx.map fun entry ↦ (entry.2.toUInt32, entry.1) := by
  rw [toList, h.nodes_eq]

theorem map_snd_toList (h : Holds nodes map) : map.toList.map Prod.snd = nodes := by
  rw [h.toList_eq, List.map_map]
  exact List.zipIdx_map_fst 0 nodes

theorem map_fst_toList (h : Holds nodes map) (hroom : nodes.length ≤ slotLimit) :
    map.toList.map (fun entry ↦ entry.1.toNat) = List.range nodes.length := by
  rw [h.toList_eq, List.map_map]
  calc
    nodes.zipIdx.map (fun entry ↦ entry.2.toUInt32.toNat) = nodes.zipIdx.map Prod.snd := by
      apply List.map_congr_left
      intro entry hentry
      exact toNat_toUInt32 hroom (List.snd_lt_of_mem_zipIdx hentry)
    _ = List.range nodes.length := by rw [List.zipIdx_map_snd, List.range_eq_range']

theorem contains_iff (h : Holds nodes map) : map.contains node = true ↔ node ∈ nodes := by
  rw [contains, Option.isSome_iff_exists]
  simp only [h.slotOf?_iff]
  constructor
  · rintro ⟨slot, hplaced⟩
    exact hplaced.mem
  · intro hmem
    obtain ⟨position, hposition⟩ := List.getElem?_of_mem hmem
    exact ⟨position.toUInt32, position, hposition, rfl⟩

/-- Lookups depend on the ids alone, not on the index in use. -/
theorem slotOf?_eq {other : IdMap} (h : Holds nodes map) (hother : Holds nodes other)
    (node : NodeId) : map.slotOf? node = other.slotOf? node := by
  ext slot
  rw [h.slotOf?_iff, hother.slotOf?_iff]

end Holds

theorem placed_eraseDups_iff {nodes : List NodeId} {node : NodeId} {slot : Slot}
    (hroom : nodes.toFinset.card ≤ slotLimit) :
    Placed nodes.eraseDups node slot ↔
      node ∈ nodes ∧ sightsBefore nodes node = slot.toNat := by
  rw [placed_iff (length_eraseDups nodes ▸ hroom), getElem?_eraseDups_iff]

/-- What a map is made from. -/
inductive Origin where
  | empty
  | withCapacity (capacity : ℕ)
  | ofList (nodes : List NodeId)

namespace Origin

/-- The map made from an origin. -/
def map : Origin → IdMap
  | empty => .empty
  | withCapacity capacity => .withCapacity capacity
  | ofList nodes => .ofList nodes

/-- The ids inserted when the map is made. -/
def nodes : Origin → List NodeId
  | empty | withCapacity _ => []
  | ofList nodes => nodes

/-- All ids inserted up to the end of some operations, in order and as often as they were. -/
def history (origin : Origin) (operations : List Operation) : List NodeId :=
  origin.nodes ++ operations.flatMap Operation.nodes

/-- What the insertions among some operations answer. -/
def answers (origin : Origin) (operations : List Operation) : List Slot :=
  (origin.map.performAll operations).1

/-- The map after some operations. -/
def after (origin : Origin) (operations : List Operation) : IdMap :=
  (origin.map.performAll operations).2

variable {origin : Origin} {operations : List Operation}

theorem holds (origin : Origin) : Holds origin.nodes.eraseDups origin.map := by
  cases origin with
  | empty => exact holds_withCapacity 0
  | withCapacity capacity => exact holds_withCapacity capacity
  | ofList nodes => exact holds_ofList nodes

theorem holds_after (origin : Origin) (operations : List Operation) :
    Holds (origin.history operations).eraseDups (origin.after operations) :=
  (origin.holds.performAll operations).1

/-- Each insertion of a run answers with the number of ids first seen before its own. -/
theorem map_toNat_answers (hroom : (origin.history operations).toFinset.card ≤ slotLimit) :
    (origin.answers operations).map UInt32.toNat =
      (operations.flatMap Operation.nodes).map (sightsBefore (origin.history operations)) := by
  have hanswers : List.Forall₂ (Placed (origin.history operations).eraseDups)
      (operations.flatMap Operation.nodes) (origin.answers operations) :=
    (origin.holds.performAll operations).2
  symm
  rw [← List.forall₂_eq_eq_eq, List.forall₂_map_left_iff, List.forall₂_map_right_iff]
  exact hanswers.imp fun node slot hplaced ↦ ((placed_eraseDups_iff hroom).mp hplaced).2

/--
After any insertions and compactions, an id has the slot that counts the distinct ids first seen
before it, which is also what each of its insertions answered; slots and ids determine each other;
and the ids are listed in the order of first sight. Compacting at other moments changes no answer.
-/
theorem answers_by_first_sight (hroom : (origin.history operations).toFinset.card ≤ slotLimit) :
    (origin.answers operations).map UInt32.toNat =
        (operations.flatMap Operation.nodes).map (sightsBefore (origin.history operations)) ∧
    (∀ node slot, (origin.after operations).slotOf? node = some slot ↔
      node ∈ origin.history operations ∧
        sightsBefore (origin.history operations) node = slot.toNat) ∧
    (∀ node slot, (origin.after operations).nodeAt? slot = some node ↔
      (origin.after operations).slotOf? node = some slot) ∧
    (∀ slot, (∃ node, (origin.after operations).nodeAt? slot = some node) ↔
      slot.toNat < (origin.after operations).size) ∧
    (∀ node, (origin.after operations).contains node = true ↔
      node ∈ origin.history operations) ∧
    (origin.after operations).size = (origin.history operations).toFinset.card ∧
    (origin.after operations).toList.map Prod.snd = (origin.history operations).eraseDups ∧
    (origin.after operations).toList.map (fun entry ↦ entry.1.toNat) =
      List.range (origin.after operations).size ∧
    ∀ operations', operations'.flatMap Operation.nodes = operations.flatMap Operation.nodes →
      origin.answers operations' = origin.answers operations ∧
      (origin.after operations').slotOf? = (origin.after operations).slotOf? ∧
      (origin.after operations').nodeAt? = (origin.after operations).nodeAt? ∧
      (origin.after operations').contains = (origin.after operations).contains ∧
      (origin.after operations').size = (origin.after operations).size ∧
      (origin.after operations').toList = (origin.after operations).toList := by
  have hlength : (origin.history operations).eraseDups.length ≤ slotLimit := by
    rwa [length_eraseDups]
  have hholds := origin.holds_after operations
  refine ⟨map_toNat_answers hroom, fun node slot ↦ ?_, fun node slot ↦ ?_, fun slot ↦ ?_,
    fun node ↦ ?_, ?_, ?_, ?_, fun operations' hsame ↦ ?_⟩
  · rw [hholds.slotOf?_iff, placed_eraseDups_iff hroom]
  · rw [hholds.slotOf?_iff, placed_iff hlength, hholds.nodeAt?_eq]
  · rw [hholds.size_eq]
    simp only [hholds.nodeAt?_eq]
    constructor
    · rintro ⟨node, hnode⟩
      exact (List.getElem?_eq_some_iff.mp hnode).1
    · intro hslot
      exact ⟨_, List.getElem?_eq_getElem hslot⟩
  · rw [hholds.contains_iff, List.mem_eraseDups]
  · rw [hholds.size_eq, length_eraseDups]
  · exact hholds.map_snd_toList
  · rw [hholds.map_fst_toList hlength, hholds.size_eq]
  · have hhistory : origin.history operations' = origin.history operations := by
      rw [history, hsame, history]
    have hholds' := origin.holds_after operations'
    rw [hhistory] at hholds'
    refine ⟨?_, ?_, ?_, ?_, ?_, ?_⟩
    · apply List.map_injective_iff.mpr fun a b ↦ UInt32.toNat_inj.mp
      rw [map_toNat_answers hroom, map_toNat_answers (hhistory.symm ▸ hroom), hsame, hhistory]
    · funext node
      exact hholds'.slotOf?_eq hholds node
    · funext slot
      rw [hholds'.nodeAt?_eq, hholds.nodeAt?_eq]
    · funext node
      rw [Bool.eq_iff_iff, hholds'.contains_iff, hholds.contains_iff]
    · rw [hholds'.size_eq, hholds.size_eq]
    · rw [hholds'.toList_eq, hholds.toList_eq]

/-- A run in which the second insertion brings back an index that was dropped. -/
def outOfOrder : List Operation :=
  [.compact, .insert ⟨9⟩, .insert ⟨5⟩, .compact, .insert ⟨7⟩]

theorem answers_by_first_sight_out_of_order :
    ((ofList [⟨3⟩, ⟨7⟩]).history outOfOrder).toFinset.card ≤ slotLimit ∧
      ((ofList [⟨3⟩, ⟨7⟩]).answers outOfOrder).map UInt32.toNat = [2, 3, 1] ∧
      ((ofList [⟨3⟩, ⟨7⟩]).after outOfOrder).size = 4 ∧
      ((ofList [⟨3⟩, ⟨7⟩]).after outOfOrder).slotOf? ⟨5⟩ = some 3 := by
  have hroom : ((ofList [⟨3⟩, ⟨7⟩]).history outOfOrder).toFinset.card ≤ slotLimit := by decide
  obtain ⟨hanswers, hslots, _, _, _, hsize, _⟩ := answers_by_first_sight hroom
  refine ⟨hroom, ?_, ?_, ?_⟩
  · rw [hanswers]
    decide
  · rw [hsize]
    decide
  · rw [hslots]
    decide

end Origin

end WeakComponents.IdMap
