import WeakComponents.Proofs.Projection.Numbering
import WeakComponents.Proofs.Table

/-!
# Columns of a projection

Every column of a projection has one cell for each of its nodes.
-/

namespace WeakComponents

namespace Projection

variable {builder : Builder} {projection : Projection}

section

variable {α : Type} (idMap : IdMap) (key : String) (read : PropertyValue → Option α)

theorem Builder.size_put (cells : Array (Option α)) (setting : PropertySetting) :
    (put idMap key read cells setting).size = cells.size := by
  unfold put
  split
  · split
    · exact Array.size_setIfInBounds
    · rfl
  · rfl

theorem Builder.size_cells (builder : Builder) :
    (builder.cells idMap key read).size = idMap.size := by
  unfold cells
  apply Array.foldl_induction
    (motive := fun _ (cells : Array (Option α)) ↦ cells.size = idMap.size)
  · exact Array.size_replicate
  · intro index cells hcells
    rw [size_put, hcells]

end

theorem Builder.size_column (builder : Builder) (idMap : IdMap) (key : String)
    (type : NumberType) : (builder.column idMap key type).size = idMap.size := by
  cases type <;> exact size_cells idMap key _ builder

theorem Builder.numberType_column (builder : Builder) (idMap : IdMap) (key : String)
    (type : NumberType) : (builder.column idMap key type).numberType = type := by
  cases type <;> rfl

theorem property?_eq (hbuild : builder.build = .ok projection) (key : String) :
    PropertyGraph.property? projection key = (builder.columnTypes.get? key).map
      (builder.column (Builder.idMapOf builder.distinctNodes) key) := by
  obtain ⟨_, _, rfl⟩ := Builder.build_eq_ok_iff.mp hbuild
  exact Table.get?_mapEntries builder.columnTypes _ key

/-- The columns of a built projection cover exactly its nodes. -/
theorem size_of_property?_eq_some (hbuild : builder.build = .ok projection) {key : String}
    {column : PropertyColumn} (hcolumn : PropertyGraph.property? projection key = some column) :
    column.size = projection.nodeCount := by
  rw [property?_eq hbuild, Option.map_eq_some_iff] at hcolumn
  obtain ⟨type, _, rfl⟩ := hcolumn
  obtain ⟨_, _, rfl⟩ := Builder.build_eq_ok_iff.mp hbuild
  exact builder.size_column _ key type

end Projection

end WeakComponents
