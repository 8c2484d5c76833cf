import Mathlib.Order.Bounds.Basic
import WeakComponents.Proofs.Projection.Limits

/-!
# Slots as ranks

Building sorts the ids before it numbers them, so that the numbering can be searched and needs no
hash index. Slots and ids translate into each other in the order of the ids, and nothing but the set
of added ids decides how: neither the order in which nodes were added nor how often.
-/

namespace WeakComponents.Projection

open Builder

variable {builder builder' : Builder} {calls calls' : List Call} {projection : Projection}
  {id other : NodeId} {slot a b : Slot}

theorem idMap_of_build (hbuild : builder.build = .ok projection) :
    projection.idMap =
      ⟨builder.distinctNodes.toArray, .sorted, true, builder.distinctNodes.length⟩ := by
  obtain ⟨_, _, rfl⟩ := build_eq_ok_iff.mp hbuild
  exact IdMap.compact_ofList (pairwise_distinctNodes builder)

theorem nodeAt?_of_build (hbuild : builder.build = .ok projection) (slot : Slot) :
    IdMapping.nodeAt? projection slot = builder.distinctNodes[slot.toNat]? := by
  change projection.idMap.nodes[slot.toNat]? = _
  rw [idMap_of_build hbuild, List.getElem?_toArray]

theorem nodeAt?_eq_some_iff_numbered (hbuild : builder.build = .ok projection) :
    IdMapping.nodeAt? projection slot = some id ↔ builder.Numbered id slot := by
  rw [nodeAt?_of_build hbuild, getElem?_distinctNodes_iff]
  rfl

theorem slotOf?_eq_some_iff_nodeAt? (hbuild : builder.build = .ok projection)
    (hcount : builder.ids.card ≤ slotLimit) :
    IdMapping.slotOf? projection id = some slot ↔ IdMapping.nodeAt? projection slot = some id := by
  rw [slotOf?_eq_some_iff_numbered hbuild hcount, nodeAt?_eq_some_iff_numbered hbuild]

/-- The slots below the number of nodes are those that have an id. -/
theorem isSome_nodeAt?_iff (hbuild : builder.build = .ok projection) :
    (IdMapping.nodeAt? projection slot).isSome = true ↔ slot.toNat < projection.nodeCount := by
  rw [nodeAt?_of_build hbuild, nodeCount_of_build hbuild, ← length_distinctNodes, isSome_getElem?]

theorem lt_iff_of_nodeAt? (hbuild : builder.build = .ok projection)
    (ha : IdMapping.nodeAt? projection a = some id)
    (hb : IdMapping.nodeAt? projection b = some other) : a < b ↔ id < other := by
  have hascending {a b : Slot} {id other : NodeId} (hlt : a < b)
      (ha : IdMapping.nodeAt? projection a = some id)
      (hb : IdMapping.nodeAt? projection b = some other) : id < other := by
    rw [nodeAt?_of_build hbuild, ← List.getElem?_toArray] at ha hb
    exact IdMap.lt_of_getElem?_of_lt (pairwise_distinctNodes builder) ha hb hlt
  constructor
  · intro hlt
    exact hascending hlt ha hb
  · intro hless
    by_contra hge
    rcases UInt32.lt_or_eq_of_le (UInt32.not_lt.mp hge) with hlt | rfl
    · exact lt_asymm hless (hascending hlt hb ha)
    · rw [ha, Option.some_inj] at hb
      exact lt_irrefl other (hb ▸ hless)

/-- The id at the smallest of some slots is the smallest of their ids. -/
theorem isLeast_nodeAt? (hbuild : builder.build = .ok projection) {members : Slot → Prop}
    {least : Slot} (hid : IdMapping.nodeAt? projection least = some id) (hleast : members least)
    (hlower : ∀ member, members member → member.toNat < projection.nodeCount → least ≤ member) :
    IsLeast {other | ∃ member, members member ∧
      IdMapping.nodeAt? projection member = some other} id := by
  refine ⟨⟨least, hleast, hid⟩, ?_⟩
  rintro other ⟨member, hmember, hother⟩
  have hbelow : member.toNat < projection.nodeCount := by
    rw [← isSome_nodeAt?_iff hbuild, hother]
    rfl
  rw [← not_lt, ← lt_iff_of_nodeAt? hbuild hother hid]
  exact UInt32.not_lt.mpr (hlower member hmember hbelow)

namespace Builder

/-- Whether a call adds nodes. -/
def Call.addsNodes : Call → Bool
  | node _ | nodes _ | labeledNode _ _ | nodeProperty _ _ _ => true
  | _ => false

/-- A call that gives no relationships and leaves the settings of a build alone. -/
structure Call.Neutral (call : Call) : Prop where
  given_eq : call.given = []
  load?_eq : call.load? = none
  maxNodes?_eq : call.maxNodes? = none
  maxMemory?_eq : call.maxMemory? = none

theorem Call.of_addsNodes {call : Call} (h : call.addsNodes = true) : call.Neutral := by
  cases call <;> first | exact ⟨rfl, rfl, rfl, rfl⟩ | cases h

/-- The calls that add no nodes, in order. -/
def otherCalls (calls : List Call) : List Call :=
  calls.filter fun call ↦ !call.addsNodes

/-- Calls that add the same nodes and set properties of the same keys, in whatever order, however
often and wherever among the other calls, which are the same. -/
structure SameNodes (calls calls' : List Call) : Prop where
  addedIds_eq : addedIds calls' = addedIds calls
  keysSet_eq : keysSet calls' = keysSet calls
  otherCalls_eq : otherCalls calls' = otherCalls calls

/-- It is enough to make the same calls that add nodes, reordered and repeated at will. -/
theorem sameNodes_of_mem_iff
    (hnodes : ∀ call : Call, call.addsNodes = true → (call ∈ calls' ↔ call ∈ calls))
    (hothers : otherCalls calls' = otherCalls calls) : SameNodes calls calls' where
  addedIds_eq := by
    ext id
    simp only [addedIds, List.mem_toFinset, List.mem_flatMap]
    have hadds {call : Call} (hid : id ∈ call.ids) : call.addsNodes = true := by
      cases call <;> first | rfl | cases hid
    constructor
    · rintro ⟨call, hcall, hid⟩
      exact ⟨call, (hnodes call (hadds hid)).mp hcall, hid⟩
    · rintro ⟨call, hcall, hid⟩
      exact ⟨call, (hnodes call (hadds hid)).mpr hcall, hid⟩
  keysSet_eq := by
    ext key
    rw [mem_keysSet, mem_keysSet]
    apply exists_congr
    intro id
    apply exists_congr
    intro value
    exact hnodes _ rfl
  otherCalls_eq := hothers

/-- What is gathered from calls that add no nodes is gathered from the other calls alone. -/
theorem filterMap_otherCalls {α : Type} {gathered : Call → Option α}
    (h : ∀ call : Call, call.addsNodes = true → gathered call = none) (calls : List Call) :
    (otherCalls calls).filterMap gathered = calls.filterMap gathered := by
  rw [otherCalls, List.filterMap_filter]
  apply List.filterMap_congr
  intro call _
  cases hadds : call.addsNodes with
  | true => exact (h call hadds).symm
  | false => rfl

theorem flatMap_given_otherCalls (calls : List Call) :
    (otherCalls calls).flatMap Call.given = calls.flatMap Call.given := by
  induction calls with
  | nil => rfl
  | cons call rest ih =>
    unfold otherCalls at ih ⊢
    cases hadds : call.addsNodes with
    | true =>
      rw [List.filter_cons_of_neg (by simp [hadds]), List.flatMap_cons,
        (Call.of_addsNodes hadds).given_eq, List.nil_append, ih]
    | false =>
      rw [List.filter_cons_of_pos (by simp [hadds]), List.flatMap_cons, List.flatMap_cons, ih]

namespace SameNodes

variable (h : SameNodes calls calls')

include h

theorem filterMap_eq {α : Type} {gathered : Call → Option α}
    (hgathered : ∀ call : Call, call.addsNodes = true → gathered call = none) :
    calls'.filterMap gathered = calls.filterMap gathered := by
  rw [← filterMap_otherCalls hgathered calls', h.otherCalls_eq, filterMap_otherCalls hgathered]

theorem given_eq : calls'.flatMap Call.given = calls.flatMap Call.given := by
  rw [← flatMap_given_otherCalls calls', h.otherCalls_eq, flatMap_given_otherCalls]

theorem chosenLoad_eq : chosenLoad calls' = chosenLoad calls := by
  rw [chosenLoad, chosenLoad, h.filterMap_eq fun _ hadds ↦ (Call.of_addsNodes hadds).load?_eq]

theorem chosenMaxNodes_eq : chosenMaxNodes calls' = chosenMaxNodes calls := by
  rw [chosenMaxNodes, chosenMaxNodes,
    h.filterMap_eq fun _ hadds ↦ (Call.of_addsNodes hadds).maxNodes?_eq]

theorem chosenMaxMemory_eq : chosenMaxMemory calls' = chosenMaxMemory calls := by
  rw [chosenMaxMemory, chosenMaxMemory,
    h.filterMap_eq fun _ hadds ↦ (Call.of_addsNodes hadds).maxMemory?_eq]

theorem relationshipsKept_eq : relationshipsKept calls' = relationshipsKept calls := by
  rw [relationshipsKept, relationshipsKept, h.given_eq]
  simp only [h.addedIds_eq]

/-- Adding nodes otherwise takes no more and no less memory. -/
theorem bytesOf_eq : bytesOf calls' = bytesOf calls := by
  have hweights : GivesWeights calls' ↔ GivesWeights calls := by
    rw [GivesWeights, GivesWeights, h.given_eq]
  have hentries : entriesKept calls' = entriesKept calls := by
    rw [entriesKept, entriesKept, loopCount, loopCount, h.chosenLoad_eq, h.relationshipsKept_eq]
  rw [bytesOf, bytesOf, h.addedIds_eq, h.keysSet_eq, hentries]
  simp only [hweights]

end SameNodes

theorem distinctNodes_eq_of_ids_eq (h : builder'.ids = builder.ids) :
    builder'.distinctNodes = builder.distinctNodes := by
  apply List.ext_getElem?
  intro position
  ext id
  rw [getElem?_distinctNodes_iff, getElem?_distinctNodes_iff, h]

/-- However nodes are added, if a projection is built at all, it numbers them alike. -/
theorem SameNodes.exists_build (h : SameNodes calls calls')
    (hcount : (addedIds calls).card ≤ slotLimit)
    (hbuild : (ofCalls calls).build = .ok projection) :
    ∃ projection', (ofCalls calls').build = .ok projection' ∧
      projection'.idMap = projection.idMap := by
  have hids : (ofCalls calls').ids = (ofCalls calls).ids := by
    rw [ids_ofCalls, ids_ofCalls, h.addedIds_eq]
  obtain ⟨hnodes, hmemory, heq⟩ := build_eq_ok_iff.mp hbuild
  rw [heq, memorySize_assemble_ofCalls hcount, maxMemory_ofCalls] at hmemory
  rw [maxNodes_ofCalls] at hnodes
  have hbuild' : (ofCalls calls').build =
      .ok ((ofCalls calls').assemble (ofCalls calls').distinctNodes) := by
    refine build_eq_ok_iff.mpr ⟨?_, ?_, rfl⟩
    · rwa [hids, maxNodes_ofCalls, h.chosenMaxNodes_eq]
    · rwa [memorySize_assemble_ofCalls (h.addedIds_eq ▸ hcount), maxMemory_ofCalls, h.bytesOf_eq,
        h.chosenMaxMemory_eq]
  refine ⟨_, hbuild', ?_⟩
  rw [idMap_of_build hbuild', idMap_of_build hbuild, distinctNodes_eq_of_ids_eq hids]

end Builder

end WeakComponents.Projection
