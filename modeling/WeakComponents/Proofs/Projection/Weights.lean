import WeakComponents.Proofs.Projection.Lists

/-!
# Weights of relationships

Asked for the weight of a relationship between two slots, a projection answers with the weight of the
first one that the calls gave. Outgoing rows are searched at its source and incoming ones at its
target; as both keep the order of the calls, it does not matter which of them are loaded. Symmetric
rows do not tell the two ends apart.
-/

namespace WeakComponents

namespace Edge

variable {source target : Slot} {edges : List Edge}

/-- The relationship goes from one slot to another. -/
def Leads (source target : Slot) (edge : Edge) : Prop :=
  edge.source = source ∧ edge.target = target

/-- The relationship is between two slots, in either orientation. -/
def Connects (a b : Slot) (edge : Edge) : Prop :=
  edge.Leads a b ∨ edge.Leads b a

instance : DecidablePred (Leads source target) := fun edge ↦
  inferInstanceAs (Decidable (edge.source = source ∧ edge.target = target))

instance : DecidablePred (Connects source target) := fun edge ↦
  inferInstanceAs (Decidable (edge.Leads source target ∨ edge.Leads target source))

/-- The weight of the first relationship with a property. -/
def firstWeight? (edges : List Edge) (p : Edge → Prop) [DecidablePred p] : Option Float :=
  (edges.find? fun edge ↦ decide (p edge)).map weight

/-- Entries drawn from relationships in order lead to the first one that is looked for. -/
theorem lookup_filterMap_eq {p : Edge → Prop} [DecidablePred p]
    {drawn? : Edge → Option (Slot × Float)} {wanted : Slot}
    (hfound : ∀ edge, p edge → drawn? edge = some (wanted, edge.weight))
    (hother : ∀ edge entry, ¬ p edge → drawn? edge = some entry → wanted ≠ entry.1)
    (edges : List Edge) :
    (edges.filterMap drawn?).lookup wanted = firstWeight? edges p := by
  unfold firstWeight?
  induction edges with
  | nil => rfl
  | cons edge rest ih =>
    rw [List.filterMap_cons, List.find?_cons]
    by_cases hedge : p edge
    · simp [hfound edge hedge, hedge]
    · cases hentry : drawn? edge with
      | none => simpa [hedge] using ih
      | some entry =>
        obtain ⟨found, weight⟩ := entry
        have hne : (wanted == found) = false := beq_false_of_ne (hother edge _ hedge hentry)
        simpa [hedge, List.lookup_cons, hne] using ih

theorem lookup_leaving (edges : List Edge) (source target : Slot) :
    (leaving edges source).lookup target = firstWeight? edges (Leads source target) := by
  apply lookup_filterMap_eq
  · rintro edge ⟨rfl, rfl⟩
    simp
  · intro edge entry hedge hentry
    split at hentry
    · rename_i hsource
      obtain rfl := Option.some.inj hentry
      exact fun htarget ↦ hedge ⟨hsource, htarget.symm⟩
    · exact absurd hentry (by simp)

theorem lookup_arriving (edges : List Edge) (source target : Slot) :
    (arriving edges target).lookup source = firstWeight? edges (Leads source target) := by
  apply lookup_filterMap_eq
  · rintro edge ⟨rfl, rfl⟩
    simp
  · intro edge entry hedge hentry
    split at hentry
    · rename_i htarget
      obtain rfl := Option.some.inj hentry
      exact fun hsource ↦ hedge ⟨hsource.symm, htarget⟩
    · exact absurd hentry (by simp)

theorem lookup_touching (edges : List Edge) (a b : Slot) :
    (touching edges a).lookup b = firstWeight? edges (Connects a b) := by
  apply lookup_filterMap_eq
  · rintro edge (⟨rfl, rfl⟩ | ⟨rfl, rfl⟩)
    · simp
    · by_cases hloop : edge.source = edge.target <;> simp [hloop]
  · intro edge entry hedge hentry
    split at hentry
    · rename_i hsource
      obtain rfl := Option.some.inj hentry
      exact fun htarget ↦ hedge (.inl ⟨hsource, htarget.symm⟩)
    · split at hentry
      · rename_i htarget
        obtain rfl := Option.some.inj hentry
        exact fun hsource ↦ hedge (.inr ⟨hsource.symm, htarget⟩)
      · exact absurd hentry (by simp)

theorem firstWeight?_connects_comm (edges : List Edge) (a b : Slot) :
    firstWeight? edges (Connects a b) = firstWeight? edges (Connects b a) := by
  have hsame : (fun edge ↦ decide (Connects a b edge)) = fun edge ↦ decide (Connects b a edge) := by
    funext edge
    exact decide_eq_decide.mpr or_comm
  rw [firstWeight?, hsame, firstWeight?]

end Edge

namespace Projection

open Builder Edge

variable {builder : Builder} {calls : List Call} {load : LoadDirection} {projection : Projection}
  {source target : Slot}

/-- Searching the list of a slot finds the weight of the first entry that is wanted. -/
theorem Lists.lookup_eq {rows : Adjacency} {owner wanted : Slot} {weighted : Bool}
    {entries : List (Slot × Float)} (h : Lists (some rows) owner weighted entries)
    (fallback : Float) :
    (match rows.rowWeights owner with
      | none => fallback
      | some weights => (((rows.neighbors owner).zip weights).lookup wanted).getD fallback) =
      if weighted then (entries.lookup wanted).getD fallback else fallback := by
  have hneighbors : rows.neighbors? owner = some (entries.map Prod.fst) := h.neighbors?_eq
  have hweights : rows.rowWeights owner = if weighted then some (entries.map Prod.snd) else none :=
    h.rowWeights_eq
  rw [hweights, Adjacency.neighbors, hneighbors]
  cases weighted with
  | false => rfl
  | true => simp [List.zip_map']

theorem weightOf_of_not_lt
    (h : ¬ (source.toNat < projection.nodeCount ∧ target.toNat < projection.nodeCount))
    (fallback : Float) : WeightedGraph.weightOf projection source target fallback = fallback :=
  if_neg h

section

variable (hsource : source.toNat < projection.nodeCount)
  (htarget : target.toNat < projection.nodeCount) {rows : Adjacency} {weighted : Bool}
  {entries : List (Slot × Float)}

include hsource htarget

/-- Outgoing or symmetric rows are searched at the source. -/
theorem weightOf_of_outgoing (hrows : projection.outgoing = some rows)
    (hlists : Lists (some rows) source weighted entries) (fallback : Float) :
    WeightedGraph.weightOf projection source target fallback =
      if weighted then (entries.lookup target).getD fallback else fallback := by
  change projection.weightOf source target fallback = _
  rw [weightOf, if_pos ⟨hsource, htarget⟩, hrows]
  exact hlists.lookup_eq fallback

/-- Incoming rows alone are searched at the target. -/
theorem weightOf_of_incoming (hnone : projection.outgoing = none)
    (hrows : projection.incoming = some rows)
    (hlists : Lists (some rows) target weighted entries) (fallback : Float) :
    WeightedGraph.weightOf projection source target fallback =
      if weighted then (entries.lookup source).getD fallback else fallback := by
  change projection.weightOf source target fallback = _
  rw [weightOf, if_pos ⟨hsource, htarget⟩, hnone, hrows]
  exact hlists.lookup_eq fallback

end

section

variable (hbuild : builder.build = .ok projection) (h : projection.Addressable)
  (hsource : source.toNat < projection.nodeCount) (htarget : target.toNat < projection.nodeCount)

include hbuild h hsource htarget

/-- With rows of either side, or of both, the first relationship from one slot to the other counts. -/
theorem Addressable.weightOf_eq_of_ne_undirected (hload : builder.loadDirection ≠ .undirected)
    (fallback : Float) :
    WeightedGraph.weightOf projection source target fallback =
      if projection.hasWeights then
        (firstWeight? (builder.edges (idMapOf builder.distinctNodes))
          (Leads source target)).getD fallback
      else fallback := by
  obtain ⟨houtgoing, hincoming⟩ := rows_of_build hbuild
  have hkept {stored : List Edge} (hstored : stored ∈ builder.listsKept) {slot : Slot}
      (hslot : slot.toNat < projection.nodeCount) := h.lists_of_mem hbuild hstored hslot
  cases hrows : builder.loadDirection with
  | outgoing =>
    rw [hrows] at houtgoing
    rw [← lookup_leaving]
    apply weightOf_of_outgoing hsource htarget houtgoing
    exact hkept (by simp [listsKept, LoadDirection.listsKept, hrows]) hsource
  | incoming =>
    rw [hrows] at houtgoing hincoming
    rw [← lookup_arriving, ← leaving_reverse]
    apply weightOf_of_incoming hsource htarget houtgoing hincoming
    exact hkept (by simp [listsKept, LoadDirection.listsKept, hrows]) htarget
  | both =>
    rw [hrows] at houtgoing
    rw [← lookup_leaving]
    apply weightOf_of_outgoing hsource htarget houtgoing
    exact hkept (by simp [listsKept, LoadDirection.listsKept, hrows]) hsource
  | undirected => exact absurd hrows hload

theorem Addressable.weightOf_eq_of_undirected (hload : builder.loadDirection = .undirected)
    (fallback : Float) :
    WeightedGraph.weightOf projection source target fallback =
      if projection.hasWeights then
        (firstWeight? (builder.edges (idMapOf builder.distinctNodes))
          (Connects source target)).getD fallback
      else fallback := by
  obtain ⟨houtgoing, _⟩ := rows_of_build hbuild
  rw [hload] at houtgoing
  rw [← lookup_touching, ← leaving_flatMap_bothEnds]
  apply weightOf_of_outgoing hsource htarget houtgoing
  apply h.lists_of_mem hbuild _ hsource
  simp [listsKept, LoadDirection.listsKept, hload]

end

/-! ## Weights by call order -/

section

variable (hbuild : ((ofCalls calls).load load).build = .ok projection) (h : projection.Addressable)

include hbuild

theorem nodeCount_of_build_load : projection.nodeCount = (addedIds calls).card :=
  (nodeCount_of_build hbuild).trans (congrArg Finset.card (ids_ofCalls calls))

theorem hasWeights_of_build_load :
    projection.hasWeights = true ↔ GivesWeights calls ∧ 0 < projection.nodeCount := by
  have hweighted : ((ofCalls calls).load load).isWeighted = true ↔ GivesWeights calls :=
    isWeighted_ofCalls
  rw [hasWeights_of_build hbuild, Bool.and_eq_true, hweighted, decide_eq_true_iff]

include h

theorem slotOf?_of_build_load {id : NodeId} {slot : Slot} :
    IdMapping.slotOf? projection id = some slot ↔
      id ∈ addedIds calls ∧ rankOf calls id = slot.toNat := by
  have hids : ((ofCalls calls).load load).ids = addedIds calls := ids_ofCalls calls
  rw [slotOf?_eq_some_iff_numbered hbuild (h.card_le hbuild), Numbered, hids]
  rfl

/-- Which rows are kept does not change the relationships between added nodes. -/
theorem edges_of_build_load :
    ((ofCalls calls).load load).edges (idMapOf ((ofCalls calls).load load).distinctNodes) =
      edgesOf calls := by
  have hcount : (addedIds calls).card ≤ slotLimit := nodeCount_of_build_load hbuild ▸ h.nodeCount_le
  exact edges_ofCalls hcount

theorem weightOf_eq_first_leading (hload : load ≠ .undirected)
    (hsource : source.toNat < projection.nodeCount) (htarget : target.toNat < projection.nodeCount)
    (fallback : Float) :
    WeightedGraph.weightOf projection source target fallback =
      if WeightedGraph.hasWeights projection then
        (firstWeight? (edgesOf calls) (Leads source target)).getD fallback
      else fallback := by
  rw [h.weightOf_eq_of_ne_undirected hbuild hsource htarget hload, edges_of_build_load hbuild h]
  rfl

theorem weightOf_eq_first_connecting (hload : load = .undirected)
    (hsource : source.toNat < projection.nodeCount) (htarget : target.toNat < projection.nodeCount)
    (fallback : Float) :
    WeightedGraph.weightOf projection source target fallback =
      if WeightedGraph.hasWeights projection then
        (firstWeight? (edgesOf calls) (Connects source target)).getD fallback
      else fallback := by
  rw [h.weightOf_eq_of_undirected hbuild hsource htarget hload, edges_of_build_load hbuild h]
  rfl

omit hbuild h in
/-- Projections of the same input answer alike under loads that tell the ends apart. -/
theorem weightOf_eq_of_loads {other : LoadDirection} {otherProjection : Projection}
    (hbuild : ((ofCalls calls).load load).build = .ok projection) (h : projection.Addressable)
    (hbuild' : ((ofCalls calls).load other).build = .ok otherProjection)
    (h' : otherProjection.Addressable) (hload : load ≠ .undirected) (hother : other ≠ .undirected) :
    WeightedGraph.weightOf projection = WeightedGraph.weightOf otherProjection := by
  have hnodes : projection.nodeCount = otherProjection.nodeCount :=
    (nodeCount_of_build_load hbuild).trans (nodeCount_of_build_load hbuild').symm
  have hweights : WeightedGraph.hasWeights projection = WeightedGraph.hasWeights otherProjection := by
    rw [Bool.eq_iff_iff]
    exact (hasWeights_of_build_load hbuild).trans
      (hnodes ▸ (hasWeights_of_build_load hbuild').symm)
  funext source target fallback
  by_cases hrange : source.toNat < projection.nodeCount ∧ target.toNat < projection.nodeCount
  · rw [weightOf_eq_first_leading hbuild h hload hrange.1 hrange.2, hweights]
    rw [hnodes] at hrange
    exact (weightOf_eq_first_leading hbuild' h' hother hrange.1 hrange.2 fallback).symm
  · rw [weightOf_of_not_lt hrange, weightOf_of_not_lt (hnodes ▸ hrange)]

theorem weightOf_comm_of_undirected (hload : load = .undirected) (source target : Slot)
    (fallback : Float) :
    WeightedGraph.weightOf projection source target fallback =
      WeightedGraph.weightOf projection target source fallback := by
  by_cases hrange : source.toNat < projection.nodeCount ∧ target.toNat < projection.nodeCount
  · rw [weightOf_eq_first_connecting hbuild h hload hrange.1 hrange.2,
      weightOf_eq_first_connecting hbuild h hload hrange.2 hrange.1, firstWeight?_connects_comm]
  · rw [weightOf_of_not_lt hrange, weightOf_of_not_lt fun hswapped ↦ hrange hswapped.symm]

end

/--
The weight of a relationship from one slot to another is the one of the first that the calls gave,
or the weight chosen for those without one, and it is the same under all loads that tell the two
ends of a relationship apart. Under a symmetric load it is that of the first relationship between
the slots in either orientation. The fallback stands for missing weights, relationships and slots.
-/
theorem weightOf_by_call_order (hbuild : ((ofCalls calls).load load).build = .ok projection)
    (h : projection.Addressable) :
    projection.nodeCount = (addedIds calls).card ∧
    (∀ id slot, IdMapping.slotOf? projection id = some slot ↔
      id ∈ addedIds calls ∧ rankOf calls id = slot.toNat) ∧
    (WeightedGraph.hasWeights projection = true ↔ GivesWeights calls ∧ 0 < projection.nodeCount) ∧
    (∀ source target fallback,
      ¬ (source.toNat < projection.nodeCount ∧ target.toNat < projection.nodeCount) →
        WeightedGraph.weightOf projection source target fallback = fallback) ∧
    (load ≠ .undirected →
      (∀ source target fallback,
        source.toNat < projection.nodeCount → target.toNat < projection.nodeCount →
          WeightedGraph.weightOf projection source target fallback =
            if WeightedGraph.hasWeights projection then
              (firstWeight? (edgesOf calls) (Leads source target)).getD fallback
            else fallback) ∧
      ∀ other otherProjection, other ≠ .undirected →
        ((ofCalls calls).load other).build = .ok otherProjection → otherProjection.Addressable →
          WeightedGraph.weightOf projection = WeightedGraph.weightOf otherProjection) ∧
    (load = .undirected →
      (∀ source target fallback,
        source.toNat < projection.nodeCount → target.toNat < projection.nodeCount →
          WeightedGraph.weightOf projection source target fallback =
            if WeightedGraph.hasWeights projection then
              (firstWeight? (edgesOf calls) (Connects source target)).getD fallback
            else fallback) ∧
      ∀ source target fallback, WeightedGraph.weightOf projection source target fallback =
        WeightedGraph.weightOf projection target source fallback) := by
  refine ⟨nodeCount_of_build_load hbuild, fun id slot ↦ slotOf?_of_build_load hbuild h,
    hasWeights_of_build_load hbuild, ?_, ?_, ?_⟩
  · exact fun source target fallback hrange ↦ weightOf_of_not_lt hrange fallback
  · refine fun hload ↦ ⟨fun source target fallback hsource htarget ↦ ?_,
      fun other otherProjection hother hbuild' h' ↦ ?_⟩
    · exact weightOf_eq_first_leading hbuild h hload hsource htarget fallback
    · exact weightOf_eq_of_loads hbuild h hbuild' h' hload hother
  · refine fun hload ↦ ⟨fun source target fallback hsource htarget ↦ ?_, ?_⟩
    · exact weightOf_eq_first_connecting hbuild h hload hsource htarget fallback
    · exact weightOf_comm_of_undirected hbuild h hload

/-- Parallel relationships with different weights, and one without a weight in the way back. -/
def contrastingPair : List Call :=
  [.nodes [⟨20⟩, ⟨10⟩], .relationship ⟨20⟩ ⟨10⟩, .weightedRelationship ⟨10⟩ ⟨20⟩ 0.5,
    .weightedRelationship ⟨10⟩ ⟨20⟩ 7.0, .defaultWeight 2.0]

theorem weightOf_by_call_order_of_contrastingPair :
    ∃ incoming symmetric,
      ((ofCalls contrastingPair).load .incoming).build = .ok incoming ∧ incoming.Addressable ∧
      ((ofCalls contrastingPair).load .undirected).build = .ok symmetric ∧ symmetric.Addressable ∧
      WeightedGraph.weightOf incoming 0 1 9.0 = 0.5 ∧
      WeightedGraph.weightOf incoming 1 0 9.0 = 2.0 ∧
      WeightedGraph.weightOf incoming 1 1 9.0 = 9.0 ∧
      WeightedGraph.weightOf symmetric 0 1 9.0 = 2.0 := by
  have hcard : (ofCalls contrastingPair).ids.card = 2 := by decide
  have hkeys : (ofCalls contrastingPair).columnTypes.keys.length = 0 := by decide
  have hcount : (ofCalls contrastingPair).ids.card ≤ slotLimit := by decide
  have hnodes : (ofCalls contrastingPair).ids.card ≤ (ofCalls contrastingPair).maxNodes.toNat := by
    decide
  have hlength : 2 * (ofCalls contrastingPair).relationships.size < UInt32.size := by decide
  have hmemory : 2 * (4 * ((ofCalls contrastingPair).ids.card + 1) +
      12 * (2 * (ofCalls contrastingPair).relationships.size)) +
        8 * (ofCalls contrastingPair).ids.card + 16 * (ofCalls contrastingPair).ids.card *
          (ofCalls contrastingPair).columnTypes.keys.length ≤
            (ofCalls contrastingPair).maxMemory.toNat := by
    rw [hcard, hkeys]
    decide
  -- the rows to be kept play no part in the size of the input
  have hload (load : LoadDirection) :
      ∃ projection, ((ofCalls contrastingPair).load load).build = .ok projection ∧
        projection.Addressable :=
    exists_addressable_of_small _ hcount hnodes hlength hmemory
  obtain ⟨incoming, hbuild, h⟩ := hload .incoming
  obtain ⟨symmetric, hbuild', h'⟩ := hload .undirected
  obtain ⟨hnodes, _, hweights, _, hfirst, _⟩ := weightOf_by_call_order hbuild h
  obtain ⟨hnodes', _, hweights', _, _, hconnecting⟩ := weightOf_by_call_order hbuild' h'
  obtain ⟨hleading, _⟩ := hfirst (by decide)
  obtain ⟨hconnecting, _⟩ := hconnecting rfl
  have hadded : (addedIds contrastingPair).card = 2 := by decide
  rw [hnodes, hadded] at hweights hleading
  rw [hnodes', hadded] at hweights' hconnecting
  rw [hweights.mpr (by decide)] at hleading
  rw [hweights'.mpr (by decide)] at hconnecting
  refine ⟨incoming, symmetric, hbuild, h, hbuild', h', ?_, ?_, ?_, ?_⟩
  · exact hleading 0 1 9.0 (by decide) (by decide)
  · exact hleading 1 0 9.0 (by decide) (by decide)
  · exact hleading 1 1 9.0 (by decide) (by decide)
  · exact hconnecting 0 1 9.0 (by decide) (by decide)

end Projection

end WeakComponents
