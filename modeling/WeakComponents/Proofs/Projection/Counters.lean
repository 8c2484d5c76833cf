import WeakComponents.Proofs.Projection.Entries
import WeakComponents.Proofs.Projection.Limits

/-!
# Counters of a list

Rows are laid out with counters of 32 bits: the degrees, the offsets summed up from them, and a
cursor for each row. They count right exactly as long as a list has fewer than `2 ^ 32`
relationships. Relationships themselves are not limited: what keeps a list below that number is the
limit on memory, and only if it is small enough.
-/

namespace WeakComponents

namespace Adjacency

variable {nodeCount : ℕ} {edges done : List Edge}

/-- The rows of `edges` after the relationships `done` were put into them. -/
def fillingAfter (nodeCount : ℕ) (edges done : List Edge) : Filling :=
  done.foldl Filling.put
    ⟨sums (degrees nodeCount edges), Array.replicate edges.length 0,
      Array.replicate edges.length 0.0⟩

/--
No counter wraps around: after any part of the relationships the degrees and, later, the cursors
have counted exactly these, and the offsets in between are the true sums.
-/
structure CountersFit (nodeCount : ℕ) (edges : List Edge) : Prop where
  toNat_degrees : ∀ done index, done <+: edges → index < nodeCount →
    (degrees nodeCount done)[index]?.map UInt32.toNat = some (rowOf done index).length
  toNat_offsets : ∀ index, index ≤ nodeCount →
    (sums (degrees nodeCount edges))[index]?.map UInt32.toNat = some (countBelow edges index)
  toNat_cursors : ∀ done index, done <+: edges → index < nodeCount →
    (fillingAfter nodeCount edges done).cursors[index]?.map UInt32.toNat =
      some (countBelow edges index + (rowOf done index).length)

theorem filled_fillingAfter (hlength : edges.length < UInt32.size)
    (hsource : ∀ edge ∈ edges, edge.source.toNat < nodeCount) (hdone : done <+: edges) :
    Filled nodeCount edges done (fillingAfter nodeCount edges done) := by
  induction done using List.reverseRecOn with
  | nil => exact filled_start nodeCount edges
  | append_singleton done edge ih =>
    have hbefore : done <+: edges := (List.prefix_append done [edge]).trans hdone
    have hedge : edge ∈ edges :=
      hdone.subset (List.mem_append_right done (List.mem_singleton_self edge))
    rw [fillingAfter, List.foldl_append]
    exact (ih hbefore).put hdone hlength (hsource edge hedge)

theorem getElem?_sums_degrees {index : ℕ} (hindex : index ≤ nodeCount) :
    (sums (degrees nodeCount edges))[index]? = some (countBelow edges index).toUInt32 := by
  rw [sums_degrees_eq, List.getElem?_toArray, List.getElem?_map, List.getElem?_range (by omega),
    Option.map_some]

theorem toNat_toUInt32_of_le_length (hlength : edges.length < UInt32.size) {count : ℕ}
    (hcount : count ≤ edges.length) : count.toUInt32.toNat = count :=
  UInt32.toNat_ofNat_of_lt' (Nat.lt_of_le_of_lt hcount hlength)

/-- The last offset is the first to tell: it counts all relationships. -/
theorem countersFit_iff (hsource : ∀ edge ∈ edges, edge.source.toNat < nodeCount) :
    CountersFit nodeCount edges ↔ edges.length < UInt32.size := by
  constructor
  · intro hfit
    obtain ⟨total, _, htotal⟩ :=
      Option.map_eq_some_iff.mp (hfit.toNat_offsets nodeCount (Nat.le_refl nodeCount))
    rw [countBelow_eq_length hsource] at htotal
    rw [← htotal]
    exact total.toNat_lt
  · intro hlength
    refine ⟨fun done index hdone hindex ↦ ?_, fun index hindex ↦ ?_,
      fun done index hdone hindex ↦ ?_⟩
    · have hrow : (rowOf done index).length ≤ edges.length :=
        (List.length_filter_le _ _).trans hdone.length_le
      rw [degrees_eq, List.getElem?_toArray, List.getElem?_map, List.getElem?_range hindex,
        Option.map_some, Option.map_some, toNat_toUInt32_of_le_length hlength hrow]
    · rw [getElem?_sums_degrees hindex, Option.map_some,
        toNat_toUInt32_of_le_length hlength (countBelow_le_length edges index)]
    · have hcursor : countBelow edges index + (rowOf done index).length ≤ edges.length := by
        calc
          countBelow edges index + (rowOf done index).length ≤
              countBelow edges index + (rowOf edges index).length :=
            Nat.add_le_add_left (length_rowOf_mono hdone index) _
          _ = countBelow edges (index + 1) := (countBelow_succ edges index).symm
          _ ≤ edges.length := countBelow_le_length edges (index + 1)
      rw [(filled_fillingAfter hlength hsource hdone).cursors_eq index hindex, Option.map_some,
        toNat_toUInt32_of_le_length hlength hcursor]

theorem offsets_ofEdges (nodeCount : ℕ) (edges : List Edge) (weighted : Bool) :
    (ofEdges nodeCount edges weighted).offsets = sums (degrees nodeCount edges) := by
  unfold ofEdges
  split
  · rename_i hcount
    simp [sums_degrees_eq, hcount, empty]
  · rfl

/-- Where the last row ends, as far as 32 bits tell. -/
theorem getElem?_offsets_ofEdges (hsource : ∀ edge ∈ edges, edge.source.toNat < nodeCount)
    (weighted : Bool) :
    (ofEdges nodeCount edges weighted).offsets[nodeCount]? = some edges.length.toUInt32 := by
  rw [offsets_ofEdges, getElem?_sums_degrees (Nat.le_refl nodeCount), countBelow_eq_length hsource]

theorem le_entryCost (weighted : Bool) : 4 ≤ entryCost weighted := by
  cases weighted <;> decide

end Adjacency

/--
The bytes of the smallest projection with `2 ^ 32` neighbours in a list: two offsets and the
neighbours for every list that is kept, and the id of a single node.
-/
def LoadDirection.overflowMemory (load : LoadDirection) : ℕ :=
  load.listCount * (4 * 2 + 4 * UInt32.size) + 8

namespace Projection

namespace Builder

variable {builder : Builder} {projection : Projection} {calls : List Call}

theorem length_lt_of_memory_lt (hbuild : builder.build = .ok projection)
    (hlimits : builder.maxNodes = 0 ∨
      builder.maxMemory.toNat < builder.loadDirection.overflowMemory)
    {stored : List Edge} (hstored : stored ∈ builder.listsKept) : stored.length < UInt32.size := by
  by_contra hlong
  rw [Nat.not_lt] at hlong
  obtain ⟨hnodes, hmemory, rfl⟩ := build_eq_ok_iff.mp hbuild
  have hcard : 1 ≤ builder.ids.card := by
    obtain ⟨edge, hedge⟩ := List.exists_mem_of_length_pos (Nat.lt_of_lt_of_le (by decide) hlong)
    exact Nat.lt_of_le_of_lt (Nat.zero_le _) (source_lt_card hstored edge hedge)
  have hbytes : builder.loadDirection.listCount * (4 * 2 + 4 * UInt32.size) ≤
      (builder.listsKept.map fun kept ↦ 4 * (builder.ids.card + 1) +
        Adjacency.entryCost builder.isWeighted * kept.length).sum := by
    calc
      builder.loadDirection.listCount * (4 * 2 + 4 * UInt32.size) =
          (builder.listsKept.map fun kept ↦ 4 * (builder.ids.card + 1) +
            Adjacency.entryCost builder.isWeighted * kept.length).length •
              (4 * 2 + 4 * UInt32.size) := by
        rw [List.length_map, listsKept, LoadDirection.length_listsKept, Nat.nsmul_eq_mul]
      _ ≤ _ := by
        apply List.card_nsmul_le_sum
        intro bytes hmem
        obtain ⟨kept, hkept, rfl⟩ := List.mem_map.mp hmem
        have hlength : UInt32.size ≤ kept.length :=
          hlong.trans (LoadDirection.length_eq_of_mem_listsKept hstored hkept).le
        have hentries := Nat.mul_le_mul (Adjacency.le_entryCost builder.isWeighted) hlength
        omega
  rcases hlimits with hnone | hsmall
  · rw [hnone] at hnodes
    exact absurd (hcard.trans hnodes) (by decide)
  · rw [memorySize_assemble] at hmemory
    unfold LoadDirection.overflowMemory at hsmall
    omega

/-- Calls within the limits build lists of the sizes that can be told from them. -/
theorem exists_rows_of_bytesOf_le (hcount : (addedIds calls).card ≤ slotLimit)
    (hnodes : (addedIds calls).card ≤ (chosenMaxNodes calls).toNat)
    (hbytes : bytesOf calls ≤ (chosenMaxMemory calls).toNat) {entries : ℕ}
    (hentries : entries ∈ entriesKept calls) :
    ∃ projection rows, (ofCalls calls).build = .ok projection ∧
      (projection.outgoing = some rows ∨ projection.incoming = some rows) ∧
      rows.targets.size = entries ∧
      rows.offsets[projection.nodeCount]? = some entries.toUInt32 := by
  have hbuild : (ofCalls calls).build =
      .ok ((ofCalls calls).assemble (ofCalls calls).distinctNodes) := by
    refine build_eq_ok_iff.mpr ⟨?_, ?_, rfl⟩
    · rwa [ids_ofCalls, maxNodes_ofCalls]
    · rwa [memorySize_assemble_ofCalls hcount, maxMemory_ofCalls]
  rw [← map_length_listsKept_ofCalls hcount] at hentries
  obtain ⟨stored, hstored, rfl⟩ := List.mem_map.mp hentries
  refine ⟨_, .ofEdges (ofCalls calls).ids.card stored (ofCalls calls).isWeighted, hbuild, ?_,
    size_targets_of_mem_listsKept hstored, ?_⟩
  · obtain ⟨houtgoing, hincoming⟩ := rows_of_build hbuild
    rw [houtgoing, hincoming]
    exact LoadDirection.rows_of_mem_listsKept hstored _ _
  · rw [nodeCount_of_build hbuild]
    exact Adjacency.getElem?_offsets_ofEdges (source_lt_card hstored) _

/-! ## Many loops -/

/-- A node with a number of loops, under given limits. -/
def loopsAt (load : LoadDirection) (maxNodes maxMemory : UInt64) (count : ℕ) : List Call :=
  [.load load, .limits ⟨maxMemory, maxNodes, 1, 1⟩, .nodes [⟨7⟩],
    .relationships (List.replicate count (⟨7⟩, ⟨7⟩))]

section

variable (load : LoadDirection) (maxNodes maxMemory : UInt64) (count : ℕ)

theorem addedIds_loopsAt : addedIds (loopsAt load maxNodes maxMemory count) = {⟨7⟩} := rfl

theorem relationshipsKept_loopsAt :
    relationshipsKept (loopsAt load maxNodes maxMemory count) =
      List.replicate count ⟨⟨7⟩, ⟨7⟩, none⟩ := by
  have hgiven : (loopsAt load maxNodes maxMemory count).flatMap Call.given =
      List.replicate count ⟨⟨7⟩, ⟨7⟩, none⟩ := by
    simp [loopsAt, Call.given]
  rw [relationshipsKept, hgiven, addedIds_loopsAt, List.filter_replicate, if_pos (by decide)]

theorem entriesKept_loopsAt :
    entriesKept (loopsAt load maxNodes maxMemory count) =
      List.replicate load.listCount count := by
  have hloops : loopCount (loopsAt load maxNodes maxMemory count) = count := by
    rw [loopCount, relationshipsKept_loopsAt, List.countP_replicate]
    simp
  have hload : chosenLoad (loopsAt load maxNodes maxMemory count) = load := rfl
  rw [entriesKept, hload, hloops, relationshipsKept_loopsAt, List.length_replicate]
  cases load with
  | undirected => simp [LoadDirection.listCount, Nat.two_mul]
  | _ => rfl

theorem bytesOf_loopsAt :
    bytesOf (loopsAt load maxNodes maxMemory count) =
      load.listCount * (4 * 2 + 4 * count) + 8 := by
  have hweights : ¬ GivesWeights (loopsAt load maxNodes maxMemory count) := by
    simp [GivesWeights, loopsAt, Call.given]
  have hkeys : (keysSet (loopsAt load maxNodes maxMemory count)).card = 0 := rfl
  rw [bytesOf, entriesKept_loopsAt, addedIds_loopsAt, hkeys, if_neg hweights, List.map_replicate,
    List.sum_replicate, Finset.card_singleton, Nat.nsmul_eq_mul]

end

/-- Loops fill a list up to any size for which there is memory. -/
theorem exists_rows_of_loopsAt (load : LoadDirection) {maxNodes maxMemory : UInt64} {count : ℕ}
    (hnodes : maxNodes ≠ 0) (hmemory : load.listCount * (4 * 2 + 4 * count) + 8 ≤ maxMemory.toNat) :
    ∃ projection rows, (ofCalls (loopsAt load maxNodes maxMemory count)).build = .ok projection ∧
      (projection.outgoing = some rows ∨ projection.incoming = some rows) ∧
      rows.targets.size = count := by
  have hnode : 1 ≤ maxNodes.toNat :=
    Nat.pos_of_ne_zero fun hzero ↦ hnodes (UInt64.toNat_inj.mp hzero)
  have hentries : count ∈ entriesKept (loopsAt load maxNodes maxMemory count) := by
    rw [entriesKept_loopsAt]
    exact List.mem_replicate.mpr ⟨by cases load <;> decide, rfl⟩
  obtain ⟨projection, rows, hbuild, hrows, hsize, _⟩ :=
    exists_rows_of_bytesOf_le (by rw [addedIds_loopsAt]; decide)
      (by rw [addedIds_loopsAt]; exact hnode) (by rw [bytesOf_loopsAt]; exact hmemory) hentries
  exact ⟨projection, rows, hbuild, hrows, hsize⟩

/--
Limits keep every counter of every list from wrapping around exactly if they allow no node, or less
memory than it takes to store `2 ^ 32` neighbours.
-/
theorem counters_fit_iff_limits (load : LoadDirection) (maxNodes maxMemory : UInt64) :
    (∀ calls projection, chosenLoad calls = load → chosenMaxNodes calls = maxNodes →
      chosenMaxMemory calls = maxMemory → (ofCalls calls).build = .ok projection →
        projection.OffsetsFit ∧ ∀ stored ∈ (ofCalls calls).listsKept,
          Adjacency.CountersFit projection.nodeCount stored) ↔
      maxNodes = 0 ∨ maxMemory.toNat < load.overflowMemory := by
  constructor
  · intro hfit
    by_contra hlimits
    rw [not_or, Nat.not_lt] at hlimits
    obtain ⟨hnodes, hmemory⟩ := hlimits
    obtain ⟨projection, rows, hbuild, hrows, hsize⟩ :=
      exists_rows_of_loopsAt load hnodes hmemory
    have hlt := (hfit _ projection rfl rfl rfl hbuild).1 rows hrows
    rw [hsize] at hlt
    exact Nat.lt_irrefl _ hlt
  · rintro hlimits calls projection rfl rfl rfl hbuild
    have hlength {stored : List Edge} (hstored : stored ∈ (ofCalls calls).listsKept) :
        stored.length < UInt32.size := by
      rw [← loadDirection_ofCalls, ← maxNodes_ofCalls, ← maxMemory_ofCalls] at hlimits
      exact length_lt_of_memory_lt hbuild hlimits hstored
    refine ⟨fun rows hrows ↦ ?_, fun stored hstored ↦ ?_⟩
    · obtain ⟨stored, hstored, rfl⟩ := exists_listsKept_of_rows hbuild hrows
      rw [size_targets_of_mem_listsKept hstored]
      exact hlength hstored
    · rw [nodeCount_of_build hbuild, Adjacency.countersFit_iff (source_lt_card hstored)]
      exact hlength hstored

/-! ## A chain -/

/-- The id with the number `index`. -/
def idAt (index : ℕ) : NodeId :=
  ⟨index.toUInt64⟩

theorem idAt_inj {index other : ℕ} (hindex : index ≤ slotLimit) (hother : other ≤ slotLimit) :
    idAt index = idAt other ↔ index = other := by
  unfold slotLimit at hindex hother
  have hword {number : ℕ} (hnumber : number ≤ 4294967295) : number.toUInt64.toNat = number :=
    UInt64.toNat_ofNat_of_lt' (by simp only [UInt64.size]; omega)
  rw [idAt, idAt, NodeId.mk.injEq, ← UInt64.toNat_inj, hword hindex, hword hother]

/-- Nodes from zero up, each related to the next one, in symmetric rows and under wide limits. -/
def chain (count : ℕ) : List Call :=
  [.relationships ((List.range count).map fun index ↦ (idAt index, idAt (index + 1))),
    .nodes ((List.range (count + 1)).map idAt), .load .undirected,
    .limits ⟨9223372036854775807, 4294967295, 1, 1⟩]

section

variable {count : ℕ}

theorem addedIds_chain (count : ℕ) :
    addedIds (chain count) = ((List.range (count + 1)).map idAt).toFinset := by
  simp [addedIds, chain, Call.ids]

theorem card_addedIds_chain (hcount : count < slotLimit) :
    (addedIds (chain count)).card = count + 1 := by
  have hnodup : ((List.range (count + 1)).map idAt).Nodup := by
    apply List.Nodup.map_on _ List.nodup_range
    intro index hindex other hother hsame
    rw [List.mem_range] at hindex hother
    exact (idAt_inj (by omega) (by omega)).mp hsame
  rw [addedIds_chain, List.toFinset_card_of_nodup hnodup, List.length_map, List.length_range]

theorem relationshipsKept_chain (count : ℕ) :
    relationshipsKept (chain count) =
      (List.range count).map fun index ↦ ⟨idAt index, idAt (index + 1), none⟩ := by
  have hgiven : (chain count).flatMap Call.given =
      (List.range count).map fun index ↦ ⟨idAt index, idAt (index + 1), none⟩ := by
    simp [chain, Call.given]
  have hadded {index : ℕ} (hindex : index < count + 1) : idAt index ∈ addedIds (chain count) := by
    rw [addedIds_chain, List.mem_toFinset]
    exact List.mem_map_of_mem (List.mem_range.mpr hindex)
  rw [relationshipsKept, hgiven]
  apply List.filter_eq_self.mpr
  intro relationship hmem
  obtain ⟨index, hindex, rfl⟩ := List.mem_map.mp hmem
  rw [List.mem_range] at hindex
  exact decide_eq_true ⟨hadded (by omega), hadded (by omega)⟩

theorem loopCount_chain (hcount : count < slotLimit) : loopCount (chain count) = 0 := by
  rw [loopCount, relationshipsKept_chain]
  apply List.countP_eq_zero.mpr
  intro relationship hmem
  obtain ⟨index, hindex, rfl⟩ := List.mem_map.mp hmem
  rw [List.mem_range] at hindex
  rw [decide_eq_true_iff, idAt_inj (by omega) (by omega)]
  omega

theorem entriesKept_chain (hcount : count < slotLimit) :
    entriesKept (chain count) = [2 * count] := by
  have hload : chosenLoad (chain count) = .undirected := rfl
  rw [entriesKept, hload, loopCount_chain hcount, relationshipsKept_chain, List.length_map,
    List.length_range, Nat.sub_zero]

theorem bytesOf_chain (hcount : count < slotLimit) :
    bytesOf (chain count) = 20 * count + 16 := by
  have hweights : ¬ GivesWeights (chain count) := by
    simp [GivesWeights, chain, Call.given]
  have hkeys : (keysSet (chain count)).card = 0 := rfl
  rw [bytesOf, entriesKept_chain hcount, card_addedIds_chain hcount, hkeys, if_neg hweights,
    List.map_singleton, List.sum_singleton]
  omega

end

/-- A chain long enough builds, with the end of its last row at the very start. -/
theorem wrapped_end_of_chain :
    ∃ projection rows, (ofCalls (chain 2147483648)).build = .ok projection ∧
      (projection.outgoing = some rows ∨ projection.incoming = some rows) ∧
      rows.targets.size = 4294967296 ∧ rows.offsets[projection.nodeCount]? = some 0 := by
  have hcount : 2147483648 < slotLimit := by decide
  have hnodes : (chosenMaxNodes (chain 2147483648)).toNat = 4294967295 := rfl
  have hmemory : (chosenMaxMemory (chain 2147483648)).toNat = 9223372036854775807 := rfl
  apply exists_rows_of_bytesOf_le
  · rw [card_addedIds_chain hcount]
    decide
  · rw [card_addedIds_chain hcount, hnodes]
    decide
  · rw [bytesOf_chain hcount, hmemory]
    decide
  · rw [entriesKept_chain hcount]
    exact List.mem_singleton_self _

end Builder

end Projection

end WeakComponents
