import Mathlib.Data.List.Basic
import WeakComponents.Projection.Adjacency

/-!
# Rows of relationships

The counting sort behind compressed rows is stable: as long as all relationships fit into 32 bits,
the row of a slot lists the relationships from that slot, in the order in which they were given.
-/

namespace WeakComponents.Adjacency

/-- The relationships from one slot, in the order given. -/
def rowOf (edges : List Edge) (index : ℕ) : List Edge :=
  edges.filter fun edge ↦ decide (edge.source.toNat = index)

/-- The number of relationships from the slots before one. -/
def countBelow (edges : List Edge) (index : ℕ) : ℕ :=
  edges.countP fun edge ↦ decide (edge.source.toNat < index)

variable {edges : List Edge} {nodeCount : ℕ}

theorem mem_rowOf {edge : Edge} {slot : Slot} :
    edge ∈ rowOf edges slot.toNat ↔ edge ∈ edges ∧ edge.source = slot := by
  rw [rowOf, List.mem_filter, decide_eq_true_iff, UInt32.toNat_inj]

theorem rowOf_append_singleton (edges : List Edge) (edge : Edge) (index : ℕ) :
    rowOf (edges ++ [edge]) index =
      if edge.source.toNat = index then rowOf edges index ++ [edge] else rowOf edges index := by
  unfold rowOf
  rw [List.filter_append, List.filter_singleton]
  by_cases h : edge.source.toNat = index
  · simp [h]
  · simp [h]

/-- One more relationship adds nothing to a row but itself at the end. -/
theorem getElem?_rowOf_append_singleton {done : List Edge} {edge found : Edge} {index place : ℕ}
    (h : (rowOf (done ++ [edge]) index)[place]? = some found) :
    (rowOf done index)[place]? = some found ∨
      edge.source.toNat = index ∧ place = (rowOf done index).length ∧ edge = found := by
  rw [rowOf_append_singleton] at h
  split at h
  · rename_i hsame
    rw [List.getElem?_append] at h
    split at h
    · exact .inl h
    · rename_i hbehind
      obtain ⟨hlast, hfound⟩ := List.getElem?_eq_some_iff.mp h
      rw [List.length_singleton] at hlast
      exact .inr ⟨hsame, by omega, by simpa using hfound⟩
  · exact .inl h

@[simp]
theorem countBelow_zero (edges : List Edge) : countBelow edges 0 = 0 := by
  simp [countBelow]

theorem countBelow_succ (edges : List Edge) (index : ℕ) :
    countBelow edges (index + 1) = countBelow edges index + (rowOf edges index).length := by
  unfold countBelow rowOf
  induction edges with
  | nil => rfl
  | cons edge rest ih =>
    rw [List.countP_cons, List.countP_cons, List.filter_cons, ih]
    by_cases hindex : edge.source.toNat = index
    · simp [hindex]
      omega
    · have hlt : edge.source.toNat < index + 1 ↔ edge.source.toNat < index := by omega
      simp only [hlt, hindex, decide_false, Bool.false_eq_true, if_false]
      omega

theorem countBelow_mono (edges : List Edge) {index later : ℕ} (h : index ≤ later) :
    countBelow edges index ≤ countBelow edges later := by
  apply List.countP_mono_left
  intro edge _ hedge
  rw [decide_eq_true_iff] at hedge ⊢
  omega

theorem countBelow_le_length (edges : List Edge) (index : ℕ) :
    countBelow edges index ≤ edges.length :=
  List.countP_le_length

/-- The row of an earlier slot ends before the row of a later one begins. -/
theorem countBelow_add_length_le (edges : List Edge) {index later : ℕ} (h : index < later) :
    countBelow edges index + (rowOf edges index).length ≤ countBelow edges later := by
  calc
    countBelow edges index + (rowOf edges index).length = countBelow edges (index + 1) :=
      (countBelow_succ edges index).symm
    _ ≤ countBelow edges later := countBelow_mono edges h

theorem getElem?_foldl_modify (edges : List Edge) (degrees : Array UInt32) (index : ℕ) :
    (edges.foldl (fun degrees edge ↦ degrees.modify edge.source.toNat (· + 1)) degrees)[index]? =
      (degrees[index]?).map (· + (rowOf edges index).length.toUInt32) := by
  induction edges generalizing degrees with
  | nil => simp [rowOf]
  | cons edge rest ih =>
    rw [List.foldl_cons, ih, Array.getElem?_modify]
    unfold rowOf
    by_cases h : edge.source.toNat = index
    · simp [h, Function.comp_def, UInt32.add_assoc, UInt32.add_comm]
    · simp [h]

theorem degrees_eq (nodeCount : ℕ) (edges : List Edge) :
    degrees nodeCount edges =
      ((List.range nodeCount).map fun index ↦ (rowOf edges index).length.toUInt32).toArray := by
  apply Array.ext_getElem?
  intro index
  rw [degrees, getElem?_foldl_modify, Array.getElem?_replicate, List.getElem?_toArray,
    List.getElem?_map]
  by_cases h : index < nodeCount
  · rw [if_pos h, List.getElem?_range h, Option.map_some, Option.map_some, UInt32.zero_add]
  · rw [if_neg h, List.getElem?_eq_none (by simpa using h)]
    rfl

theorem sums_degrees_eq (nodeCount : ℕ) (edges : List Edge) :
    sums (degrees nodeCount edges) =
      ((List.range (nodeCount + 1)).map fun index ↦ (countBelow edges index).toUInt32).toArray := by
  have hfold (count : ℕ) :
      ((List.range count).map fun index ↦ (rowOf edges index).length.toUInt32).foldl
        (fun state degree ↦ (state.1.push (state.2 + degree), state.2 + degree)) (#[0], 0) =
        (((List.range (count + 1)).map fun index ↦ (countBelow edges index).toUInt32).toArray,
          (countBelow edges count).toUInt32) := by
    induction count with
    | zero => simp
    | succ count ih =>
      have htotal : (countBelow edges count).toUInt32 + (rowOf edges count).length.toUInt32 =
          (countBelow edges (count + 1)).toUInt32 := by
        rw [countBelow_succ]
        exact (UInt32.ofNat_add _ _).symm
      rw [List.range_succ, List.map_append, List.foldl_append, ih, List.map_singleton,
        List.foldl_cons, List.foldl_nil, htotal, @List.range_succ (count + 1)]
      simp
  unfold sums
  rw [degrees_eq, List.foldl_toArray', hfold]
  simp

theorem cell_lt_length {index place : ℕ} (h : place < (rowOf edges index).length) :
    countBelow edges index + place < edges.length := by
  have hend := countBelow_succ edges index
  have htotal := countBelow_le_length edges (index + 1)
  omega

/-- Each cell belongs to one place of one row. -/
theorem cell_injective {index place index' place' : ℕ} (h : place < (rowOf edges index).length)
    (h' : place' < (rowOf edges index').length)
    (hcell : countBelow edges index + place = countBelow edges index' + place') :
    index = index' ∧ place = place' := by
  rcases Nat.lt_trichotomy index index' with hlt | rfl | hgt
  · have hends := countBelow_add_length_le edges hlt
    omega
  · exact ⟨rfl, by omega⟩
  · have hends := countBelow_add_length_le edges hgt
    omega

/-! ## Filling -/

/--
After some of the relationships every cursor stands behind those put so far for its slot, and these
are in place.
-/
structure Filled (nodeCount : ℕ) (edges done : List Edge) (filling : Filling) : Prop where
  cursors_eq : ∀ index, index < nodeCount →
    filling.cursors[index]? =
      some (countBelow edges index + (rowOf done index).length).toUInt32
  targets_size : filling.targets.size = edges.length
  weights_size : filling.weights.size = edges.length
  placed : ∀ (index place : ℕ) (edge : Edge), index < nodeCount →
    (rowOf done index)[place]? = some edge →
      filling.targets[countBelow edges index + place]? = some edge.target ∧
        filling.weights[countBelow edges index + place]? = some edge.weight

theorem filled_start (nodeCount : ℕ) (edges : List Edge) :
    Filled nodeCount edges []
      ⟨sums (degrees nodeCount edges), Array.replicate edges.length 0,
        Array.replicate edges.length 0.0⟩ where
  cursors_eq index hindex := by
    rw [sums_degrees_eq, List.getElem?_toArray, List.getElem?_map,
      List.getElem?_range (by omega)]
    rfl
  targets_size := Array.size_replicate
  weights_size := Array.size_replicate
  placed index place edge _ hedge := by simp [rowOf] at hedge

theorem length_rowOf_mono {done : List Edge} (h : done <+: edges) (index : ℕ) :
    (rowOf done index).length ≤ (rowOf edges index).length :=
  (h.filter _).length_le

section

variable {done : List Edge} {edge : Edge} {filling : Filling}

theorem length_rowOf_lt (h : done ++ [edge] <+: edges) :
    (rowOf done edge.source.toNat).length < (rowOf edges edge.source.toNat).length := by
  have hlast := length_rowOf_mono h edge.source.toNat
  rw [rowOf_append_singleton, if_pos rfl, List.length_append, List.length_singleton] at hlast
  omega

theorem Filled.put_eq (h : Filled nodeCount edges done filling) (hnext : done ++ [edge] <+: edges)
    (hlength : edges.length < UInt32.size) (hsource : edge.source.toNat < nodeCount) :
    let cell := countBelow edges edge.source.toNat + (rowOf done edge.source.toNat).length
    filling.put edge =
      ⟨filling.cursors.setIfInBounds edge.source.toNat (cell.toUInt32 + 1),
        filling.targets.setIfInBounds cell edge.target,
        filling.weights.setIfInBounds cell edge.weight⟩ := by
  intro cell
  have hcell : cell < edges.length := cell_lt_length (length_rowOf_lt hnext)
  have hword : cell.toUInt32.toNat = cell :=
    UInt32.toNat_ofNat_of_lt' (Nat.lt_trans hcell hlength)
  rw [Filling.put, h.cursors_eq _ hsource]
  dsimp only
  rw [hword]

/-- Putting the next relationship fills the cell behind those of its slot and no other. -/
theorem Filled.put (h : Filled nodeCount edges done filling) (hnext : done ++ [edge] <+: edges)
    (hlength : edges.length < UInt32.size) (hsource : edge.source.toNat < nodeCount) :
    Filled nodeCount edges (done ++ [edge]) (filling.put edge) := by
  have hmine := length_rowOf_lt hnext
  rw [h.put_eq hnext hlength hsource]
  refine ⟨fun index hindex ↦ ?_, ?_, ?_, fun index place found hindex hfound ↦ ?_⟩
  · rw [Array.getElem?_setIfInBounds, rowOf_append_singleton]
    by_cases hsame : edge.source.toNat = index
    · have hinside : edge.source.toNat < filling.cursors.size := by
        rw [hsame]
        exact (Array.getElem?_eq_some_iff.mp (h.cursors_eq index hindex)).1
      rw [if_pos hsame, if_pos hinside, if_pos hsame, List.length_append, List.length_singleton,
        ← Nat.add_assoc, ← hsame]
      exact congrArg some (UInt32.ofNat_add _ _).symm
    · rw [if_neg hsame, if_neg hsame]
      exact h.cursors_eq index hindex
  · rw [Array.size_setIfInBounds, h.targets_size]
  · rw [Array.size_setIfInBounds, h.weights_size]
  · rcases getElem?_rowOf_append_singleton hfound with hold | ⟨rfl, rfl, rfl⟩
    · have hplace : place < (rowOf done index).length := (List.getElem?_eq_some_iff.mp hold).1
      have hrow := length_rowOf_mono ((List.prefix_append done [edge]).trans hnext) index
      have hother : countBelow edges edge.source.toNat + (rowOf done edge.source.toNat).length ≠
          countBelow edges index + place := by
        intro hcell
        obtain ⟨rfl, hsame⟩ := cell_injective hmine (Nat.lt_of_lt_of_le hplace hrow) hcell
        omega
      rw [Array.getElem?_setIfInBounds_ne hother, Array.getElem?_setIfInBounds_ne hother]
      exact h.placed index place found hindex hold
    · have hcell := cell_lt_length hmine
      constructor
      · exact Array.getElem?_setIfInBounds_self_of_lt (h.targets_size ▸ hcell)
      · exact Array.getElem?_setIfInBounds_self_of_lt (h.weights_size ▸ hcell)

theorem Filled.foldl_put {rest : List Edge} (h : Filled nodeCount edges done filling)
    (hedges : done ++ rest = edges) (hlength : edges.length < UInt32.size)
    (hsource : ∀ edge ∈ rest, edge.source.toNat < nodeCount) :
    Filled nodeCount edges edges (rest.foldl Filling.put filling) := by
  induction rest generalizing done filling with
  | nil =>
    rw [List.append_nil] at hedges
    rwa [← hedges] at h ⊢
  | cons edge rest ih =>
    obtain ⟨hedge, hrest⟩ := List.forall_mem_cons.mp hsource
    rw [List.append_cons] at hedges
    exact ih (h.put ⟨rest, hedges⟩ hlength hedge) hedges hrest

end

/-! ## Reading what was filled -/

theorem toList_extract_eq {α : Type} {cells : Array α} {start : ℕ} {row : List α}
    (h : ∀ (place : ℕ) (entry : α), row[place]? = some entry →
      cells[start + place]? = some entry) :
    (cells.extract start (start + row.length)).toList = row := by
  apply List.ext_getElem?
  intro place
  rw [Array.getElem?_toList, Array.getElem?_extract]
  by_cases hplace : place < row.length
  · have hentry := h place row[place] (List.getElem?_eq_getElem hplace)
    have hcell : start + place < cells.size := (Array.getElem?_eq_some_iff.mp hentry).1
    rw [if_pos (by omega), hentry, List.getElem?_eq_getElem hplace]
  · rw [if_neg (by omega), List.getElem?_eq_none (by omega)]

/-- Cells of the row of a slot, read off the range in its offsets. -/
theorem toList_extract_countBelow (hlength : edges.length < UInt32.size) {α : Type}
    {cells : Array α} {index : ℕ} {f : Edge → α}
    (h : ∀ (place : ℕ) (edge : Edge), (rowOf edges index)[place]? = some edge →
      cells[countBelow edges index + place]? = some (f edge)) :
    (cells.extract (countBelow edges index).toUInt32.toNat
      (countBelow edges (index + 1)).toUInt32.toNat).toList = (rowOf edges index).map f := by
  have hword (index : ℕ) : (countBelow edges index).toUInt32.toNat = countBelow edges index :=
    UInt32.toNat_ofNat_of_lt' (Nat.lt_of_le_of_lt (countBelow_le_length edges index) hlength)
  rw [hword, hword, countBelow_succ, ← @List.length_map _ _ (rowOf edges index) f]
  apply toList_extract_eq
  intro place entry hentry
  rw [List.getElem?_map, Option.map_eq_some_iff] at hentry
  obtain ⟨edge, hedge, rfl⟩ := hentry
  exact h place edge hedge

section

variable (hlength : edges.length < UInt32.size)
  (hsource : ∀ edge ∈ edges, edge.source.toNat < nodeCount)

include hlength hsource

theorem exists_filled_of_ofEdges (hcount : 0 < nodeCount) (weighted : Bool) :
    ∃ filling, Filled nodeCount edges edges filling ∧
      ofEdges nodeCount edges weighted =
        ⟨sums (degrees nodeCount edges), filling.targets,
          if weighted then some filling.weights else none⟩ := by
  refine ⟨_, (filled_start nodeCount edges).foldl_put (List.nil_append edges) hlength hsource, ?_⟩
  rw [ofEdges, if_neg (by omega)]

theorem range?_ofEdges {slot : Slot} (hslot : slot.toNat < nodeCount) (weighted : Bool) :
    (ofEdges nodeCount edges weighted).range? slot =
      some ((countBelow edges slot.toNat).toUInt32,
        (countBelow edges (slot.toNat + 1)).toUInt32) := by
  obtain ⟨filling, _, hrows⟩ := exists_filled_of_ofEdges hlength hsource (by omega) weighted
  rw [hrows, range?, sums_degrees_eq, List.getElem?_toArray, List.getElem?_toArray,
    List.getElem?_map, List.getElem?_map, List.getElem?_range (by omega),
    List.getElem?_range (by omega)]
  rfl

/-- The row of a slot lists the targets of its relationships, in the order given. -/
theorem neighbors?_ofEdges {slot : Slot} (hslot : slot.toNat < nodeCount) (weighted : Bool) :
    (ofEdges nodeCount edges weighted).neighbors? slot =
      some ((rowOf edges slot.toNat).map Edge.target) := by
  obtain ⟨filling, hfilled, hrows⟩ := exists_filled_of_ofEdges hlength hsource (by omega) weighted
  rw [neighbors?, range?_ofEdges hlength hsource hslot, Option.map_some, hrows]
  congr 1
  exact toList_extract_countBelow hlength fun place edge hedge ↦
    (hfilled.placed slot.toNat place edge hslot hedge).1

theorem rowWeights_ofEdges {slot : Slot} (hslot : slot.toNat < nodeCount) (weighted : Bool) :
    (ofEdges nodeCount edges weighted).rowWeights slot =
      if weighted then some ((rowOf edges slot.toNat).map Edge.weight) else none := by
  obtain ⟨filling, hfilled, hrows⟩ := exists_filled_of_ofEdges hlength hsource (by omega) weighted
  rw [rowWeights, range?_ofEdges hlength hsource hslot, hrows]
  cases weighted with
  | false => rfl
  | true =>
    rw [if_pos rfl, if_pos rfl, Option.map_some]
    congr 1
    exact toList_extract_countBelow hlength fun place edge hedge ↦
      (hfilled.placed slot.toNat place edge hslot hedge).2

/-- The row of a slot with its weights lists the targets and weights of its relationships. -/
theorem weightedNeighbors_ofEdges {slot : Slot} (hslot : slot.toNat < nodeCount) (weighted : Bool)
    (fallback : Float) :
    (ofEdges nodeCount edges weighted).weightedNeighbors slot fallback =
      (rowOf edges slot.toNat).map fun edge ↦
        (edge.target, if weighted then edge.weight else fallback) := by
  unfold weightedNeighbors neighbors
  rw [rowWeights_ofEdges hlength hsource hslot, neighbors?_ofEdges hlength hsource hslot]
  cases weighted with
  | false => simp
  | true => simp [List.zip_map']

end

theorem size_put (filling : Filling) (edge : Edge) :
    (filling.put edge).targets.size = filling.targets.size ∧
      (filling.put edge).weights.size = filling.weights.size := by
  unfold Filling.put
  split
  · exact ⟨rfl, rfl⟩
  · exact ⟨Array.size_setIfInBounds, Array.size_setIfInBounds⟩

theorem size_foldl_put (edges : List Edge) (filling : Filling) :
    (edges.foldl Filling.put filling).targets.size = filling.targets.size ∧
      (edges.foldl Filling.put filling).weights.size = filling.weights.size := by
  induction edges generalizing filling with
  | nil => exact ⟨rfl, rfl⟩
  | cons edge rest ih =>
    obtain ⟨htargets, hweights⟩ := ih (filling.put edge)
    rw [List.foldl_cons, htargets, hweights]
    exact size_put filling edge

theorem eq_nil_of_nodeCount_eq_zero (hsource : ∀ edge ∈ edges, edge.source.toNat < nodeCount)
    (hcount : nodeCount = 0) : edges = [] := by
  apply List.eq_nil_iff_forall_not_mem.mpr
  intro edge hedge
  have hbelow := hsource edge hedge
  omega

/-- There is one stored neighbour for each relationship. -/
theorem size_targets_ofEdges (hsource : ∀ edge ∈ edges, edge.source.toNat < nodeCount)
    (weighted : Bool) : (ofEdges nodeCount edges weighted).targets.size = edges.length := by
  unfold ofEdges
  split
  · rename_i hcount
    rw [eq_nil_of_nodeCount_eq_zero hsource hcount]
    rfl
  · dsimp only
    rw [(size_foldl_put _ _).1, Array.size_replicate]

/-- The bytes of one stored relationship: four for its end and eight for its weight. -/
def entryCost (weighted : Bool) : ℕ :=
  if weighted then 12 else 4

theorem entryCost_le (weighted : Bool) : entryCost weighted ≤ 12 := by
  cases weighted <;> decide

/-- Rows take four bytes for each slot and for their end, and the bytes of their relationships. -/
theorem memorySize_ofEdges (hsource : ∀ edge ∈ edges, edge.source.toNat < nodeCount)
    (weighted : Bool) :
    (ofEdges nodeCount edges weighted).memorySize =
      4 * (nodeCount + 1) + entryCost weighted * edges.length := by
  have hoffsets : (sums (degrees nodeCount edges)).size = nodeCount + 1 := by
    rw [sums_degrees_eq]
    simp
  unfold ofEdges
  split
  · rename_i hcount
    rw [eq_nil_of_nodeCount_eq_zero hsource hcount, hcount]
    cases weighted <;> rfl
  · obtain ⟨htargets, hweights⟩ := size_foldl_put edges ⟨sums (degrees nodeCount edges),
      Array.replicate edges.length 0, Array.replicate edges.length 0.0⟩
    rw [Array.size_replicate] at htargets hweights
    unfold memorySize entryCost
    dsimp only
    rw [hoffsets, htargets]
    cases weighted with
    | false => simp
    | true =>
      simp only [if_true, Option.elim_some, hweights]
      omega

end WeakComponents.Adjacency
