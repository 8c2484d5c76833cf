import WeakComponents.Proofs.Projection.Columns
import WeakComponents.Proofs.Projection.Lists
import WeakComponents.Proofs.Projection.Memory
import WeakComponents.Proofs.Projection.Settings

/-!
# Properties of a projection

The columns of a projection and its schema are two views of the properties that were set. A column
keeps the last value of each node, and is floating as soon as any value of its key was, even one
that was replaced. The schema gathers the keys by the labels that nodes carry in the end, so that
the types under all labels together are those of the columns.
-/

namespace WeakComponents.Projection

namespace Builder

variable {builder : Builder} {calls : List Call} {idMap : IdMap} {id : NodeId} {slot : Slot}
  {key label : String}

section

variable {α : Type} {read : PropertyValue → Option α} {cells : Array (Option α)} {old : Option α}

/-- A setting changes the cell of its own node only. -/
theorem getElem?_put {setting : PropertySetting}
    (hslot : idMap.slotOf? setting.node = some slot ↔ setting.node = id)
    (hcell : cells[slot.toNat]? = some old) :
    (put idMap key read cells setting)[slot.toNat]? =
      some (if setting.key = key ∧ setting.node = id then (read setting.value).or old else old) := by
  have hsize : slot.toNat < cells.size := (Array.getElem?_eq_some_iff.mp hcell).1
  unfold put
  by_cases hkey : setting.key = key
  · by_cases hid : setting.node = id
    · rw [hslot.mpr hid]
      cases read setting.value with
      | none => simp [hkey, hid, hcell]
      | some value => simp [hkey, hid, hsize]
    · cases hother : idMap.slotOf? setting.node with
      | none => simp [hkey, hid, hcell]
      | some other =>
        have hne : other.toNat ≠ slot.toNat := by
          intro hsame
          rw [UInt32.toNat_inj] at hsame
          exact hid (hslot.mp (hsame ▸ hother))
        cases read setting.value with
        | none => simp [hkey, hid, hcell]
        | some value => simp [hkey, hid, hcell, Array.getElem?_setIfInBounds_ne hne]
  · simp [hkey, hcell]

/-- The last setting of a node decides what is in its cell. -/
theorem getElem?_foldl_put {settings : List PropertySetting}
    (hslot : ∀ node, idMap.slotOf? node = some slot ↔ node = id)
    (hcell : cells[slot.toNat]? = some old) :
    (settings.foldl (put idMap key read) cells)[slot.toNat]? =
      some ((((settings.filter fun setting ↦ decide (setting.key = key ∧ setting.node = id)).map
        PropertySetting.value).filterMap read).getLast?.or old) := by
  induction settings generalizing cells old with
  | nil => simpa using hcell
  | cons first rest ih =>
    rw [List.foldl_cons, ih (getElem?_put (hslot first.node) hcell)]
    by_cases hfirst : first.key = key ∧ first.node = id
    · rw [if_pos hfirst, List.filter_cons_of_pos (by simpa using hfirst), List.map_cons]
      cases hread : read first.value with
      | none => simp [hread]
      | some value => simp [hread, List.getLast?_cons, Option.or_some]
    · rw [if_neg hfirst, List.filter_cons_of_neg (by simpa using hfirst)]

end

theorem slotOf?_idMapOf_eq_some_iff_eq (hcount : builder.ids.card ≤ slotLimit)
    (hslot : (idMapOf builder.distinctNodes).slotOf? id = some slot) (node : NodeId) :
    (idMapOf builder.distinctNodes).slotOf? node = some slot ↔ node = id := by
  rw [slotOf?_idMapOf hcount, Numbered, ← getElem?_distinctNodes_iff] at hslot ⊢
  rw [hslot, Option.some_inj, eq_comm]

/-- The cell of a node holds the last value that is read of those set for it. -/
theorem getElem?_cells_ofCalls {α : Type} (hcount : (ofCalls calls).ids.card ≤ slotLimit)
    (hslot : (idMapOf (ofCalls calls).distinctNodes).slotOf? id = some slot) (key : String)
    (read : PropertyValue → Option α) :
    ((ofCalls calls).cells (idMapOf (ofCalls calls).distinctNodes) key read)[slot.toNat]? =
      some ((valuesSet calls key (· = id)).filterMap read).getLast? := by
  have hsize : slot.toNat < (idMapOf (ofCalls calls).distinctNodes).size := by
    rw [size_idMapOf]
    exact ((slotOf?_idMapOf hcount).mp hslot).lt_card
  have hcell : (Array.replicate (idMapOf (ofCalls calls).distinctNodes).size
      (none : Option α))[slot.toNat]? = some none := by
    rw [Array.getElem?_replicate, if_pos hsize]
  rw [cells, ← Array.foldl_toList, properties_ofCalls,
    getElem?_foldl_put (slotOf?_idMapOf_eq_some_iff_eq hcount hslot) hcell, Option.or_none]
  rfl

/-! ## Types -/

/-- The types of the values that were set for a key, on any node, make up the type of its column. -/
theorem get?_columnTypes_ofCalls (calls : List Call) (key : String) :
    (ofCalls calls).columnTypes.get? key =
      NumberType.common? (typesSet calls key fun _ ↦ True) := by
  unfold columnTypes typesSet valuesSet
  rw [← Array.foldl_toList, properties_ofCalls]
  refine (Table.get?_foldl_widen PropertySetting.key (fun setting ↦ setting.value.numberType)
    (settingsOf calls) key).trans ?_
  simp only [and_true, List.map_map]
  rfl

/-- What the nodes and properties that some calls named show of the labels. -/
def observations (calls : List Call) : List Schema.Observation :=
  ((ofCalls calls).distinctNodes.map fun id ↦ .label (finalLabel calls id)) ++
    (settingsOf calls).map fun setting ↦
      .property (finalLabel calls setting.node) setting.key setting.value.numberType

theorem schemaOf_ofCalls (calls : List Call) :
    (ofCalls calls).schemaOf (ofCalls calls).distinctNodes =
      .ofObservations (observations calls) := by
  unfold schemaOf observations Schema.ofObservations
  simp only [labelOf_ofCalls]
  rw [← Array.foldl_toList, properties_ofCalls, List.foldl_append, List.foldl_map, List.foldl_map]
  rfl

theorem typesAt_observations (calls : List Call) (label key : String) :
    Schema.typesAt (observations calls) label key =
      typesSet calls key (finalLabel calls · = label) := by
  unfold Schema.typesAt observations
  rw [typesSet_eq_filterMap]
  simp [List.filterMap_map, Function.comp_def, Schema.Observation.typeAt?, and_comm]

theorem typesOf_observations (calls : List Call) (key : String) :
    Schema.typesOf (observations calls) key = typesSet calls key fun _ ↦ True := by
  unfold Schema.typesOf observations
  rw [typesSet_eq_filterMap]
  simp [List.filterMap_map, Function.comp_def, Schema.Observation.typeOf?]

/-- The labels seen are those that nodes carry in the end. -/
theorem exists_mem_observations_iff :
    (∃ observation ∈ observations calls, observation.on = label) ↔
      ∃ id ∈ addedIds calls, finalLabel calls id = label := by
  unfold observations
  constructor
  · rintro ⟨observation, hmem, hlabel⟩
    rcases List.mem_append.mp hmem with hmem | hmem
    · obtain ⟨id, hid, rfl⟩ := List.mem_map.mp hmem
      rw [← List.mem_toFinset, toFinset_distinctNodes, ids_ofCalls] at hid
      exact ⟨id, hid, hlabel⟩
    · obtain ⟨setting, hsetting, rfl⟩ := List.mem_map.mp hmem
      exact ⟨setting.node, mem_addedIds_of_nodeProperty (mem_settingsOf.mp hsetting), hlabel⟩
  · rintro ⟨id, hid, hlabel⟩
    rw [← ids_ofCalls, ← toFinset_distinctNodes, List.mem_toFinset] at hid
    exact ⟨_, List.mem_append_left _ (List.mem_map_of_mem hid), hlabel⟩

end Builder

open Builder

variable {builder : Builder} {calls : List Call} {projection : Projection}

/--
A column has a cell for each node. It is one of integers just if all values that some calls set for
its key are, also those that were replaced, and it keeps the last value set for each node.
-/
structure Keeps (calls : List Call) (projection : Projection) (key : String)
    (column : PropertyColumn) : Prop where
  size_eq : column.size = projection.nodeCount
  numberType_eq_integer_iff : column.numberType = .integer ↔
    ∀ id value, .nodeProperty id key value ∈ calls → value.numberType = .integer
  long?_eq : column.numberType = .integer →
    ∀ id slot, IdMapping.slotOf? projection id = some slot →
      (column.long? slot).map PropertyValue.long = (valuesSet calls key (· = id)).getLast?
  double?_eq : ∀ id slot, IdMapping.slotOf? projection id = some slot →
    column.double? slot = (valuesSet calls key (· = id)).getLast?.map PropertyValue.toFloat

/-- Values that are all integers are read back as they were. -/
theorem map_long_filterMap {read : PropertyValue → Option Int64}
    (hread : ∀ value, read (.long value) = some value) {values : List PropertyValue}
    (h : ∀ value ∈ values, value.numberType = .integer) :
    (values.filterMap read).map PropertyValue.long = values := by
  rw [List.map_filterMap]
  calc
    _ = values.filterMap some := by
      apply List.filterMap_congr
      intro value hvalue
      cases value with
      | long value => rw [hread, Option.map_some]
      | double value => exact absurd (h _ hvalue) (by simp [PropertyValue.numberType])
    _ = values := List.filterMap_some

theorem keeps_of_property?_eq_some (hbuild : (ofCalls calls).build = .ok projection)
    (hcount : (addedIds calls).card ≤ slotLimit) {key : String} {column : PropertyColumn}
    (hcolumn : PropertyGraph.property? projection key = some column) :
    Keeps calls projection key column := by
  have hsize := size_of_property?_eq_some hbuild hcolumn
  rw [property?_eq hbuild, Option.map_eq_some_iff] at hcolumn
  obtain ⟨type, htype, rfl⟩ := hcolumn
  rw [get?_columnTypes_ofCalls] at htype
  have hcells {α : Type} (read : PropertyValue → Option α) (id : NodeId) (slot : Slot)
      (hslot : IdMapping.slotOf? projection id = some slot) :
      ((ofCalls calls).cells (idMapOf (ofCalls calls).distinctNodes) key read)[slot.toNat]?.join =
        ((valuesSet calls key (· = id)).filterMap read).getLast? := by
    rw [slotOf?_of_build hbuild] at hslot
    rw [getElem?_cells_ofCalls (ids_ofCalls calls ▸ hcount) hslot]
    rfl
  cases type with
  | integer =>
    have hall : ∀ id value, .nodeProperty id key value ∈ calls → value.numberType = .integer := by
      intro id value hcall
      exact (NumberType.common?_eq_some_integer_iff.mp htype).2 _
        (mem_typesSet.mpr ⟨id, value, trivial, hcall, rfl⟩)
    have hlong (id : NodeId) (slot : Slot)
        (hslot : IdMapping.slotOf? projection id = some slot) :
        (((ofCalls calls).column (idMapOf (ofCalls calls).distinctNodes) key .integer).long?
          slot).map PropertyValue.long = (valuesSet calls key (· = id)).getLast? := by
      have hvalues : ∀ value ∈ valuesSet calls key (· = id), value.numberType = .integer := by
        intro value hvalue
        obtain ⟨_, _, hcall⟩ := mem_valuesSet.mp hvalue
        exact hall _ value hcall
      unfold column PropertyColumn.long?
      dsimp only
      rw [hcells _ id slot hslot, ← List.getLast?_map, map_long_filterMap (fun _ ↦ rfl) hvalues]
    refine ⟨hsize, iff_of_true rfl hall, fun _ ↦ hlong, fun id slot hslot ↦ ?_⟩
    rw [← hlong id slot hslot, Option.map_map]
    rfl
  | floating =>
    refine ⟨hsize, iff_of_false (by simp [column, PropertyColumn.numberType]) fun hall ↦ ?_,
      fun hinteger ↦ ?_, fun id slot hslot ↦ ?_⟩
    · obtain ⟨id, value, _, hcall, hfloating⟩ := common?_typesSet_eq_floating_iff.mp htype
      simp [hall id value hcall] at hfloating
    · simp [column, PropertyColumn.numberType] at hinteger
    · unfold column PropertyColumn.double?
      dsimp only
      rw [hcells _ id slot hslot, List.filterMap_eq_map', List.getLast?_map]

/--
A schema mentions the labels that nodes carry in the end, each with the keys that some calls set on
nodes of that label, which are floating if any of these values is.
-/
structure Describes (calls : List Call) (schema : Schema) : Prop where
  mem_labels_iff : ∀ label, label ∈ schema.labels ↔
    ∃ id ∈ addedIds calls, finalLabel calls id = label
  exists_table : ∀ label ∈ schema.labels, ∃ table, schema.propertiesOf? label = some table ∧
    ∀ key,
      (key ∈ table.keys ↔
        ∃ id value, finalLabel calls id = label ∧ .nodeProperty id key value ∈ calls) ∧
      (table.get? key = some .floating ↔
        ∃ id value, finalLabel calls id = label ∧ .nodeProperty id key value ∈ calls ∧
          value.numberType = .floating)

theorem describes_ofObservations (calls : List Call) :
    Describes calls (.ofObservations (observations calls)) := by
  constructor
  · intro label
    rw [Schema.mem_labels_ofObservations, exists_mem_observations_iff]
  · intro label hlabel
    obtain ⟨table, htable⟩ := Option.isSome_iff_exists.mp (Schema.mem_labels_iff.mp hlabel)
    refine ⟨table, htable, fun key ↦ ?_⟩
    have htype :
        table.get? key = NumberType.common? (typesSet calls key (finalLabel calls · = label)) := by
      rw [← typesAt_observations, ← Schema.typeAt?_ofObservations, Schema.typeAt?, htable]
      rfl
    rw [Table.mem_keys_iff, htype]
    exact ⟨isSome_common?_typesSet, common?_typesSet_eq_floating_iff⟩

/-! ## Columns and schema -/

/-- Each slot in range is the one of an added id. -/
theorem exists_slotOf?_eq_some (hbuild : builder.build = .ok projection)
    (hcount : builder.ids.card ≤ slotLimit) {slot : Slot}
    (hslot : slot.toNat < projection.nodeCount) :
    ∃ id ∈ builder.ids, IdMapping.slotOf? projection id = some slot := by
  rw [nodeCount_of_build hbuild, ← length_distinctNodes] at hslot
  have hid := getElem?_distinctNodes_iff.mp (List.getElem?_eq_getElem hslot)
  refine ⟨_, hid.1, ?_⟩
  rw [slotOf?_eq_some_iff_numbered hbuild hcount]
  exact hid

/--
The properties that are available, in ascending order of their bytes, are those that were set. Each
has a column that keeps what was set, and the schema describes them by label; over all labels its
types are those of the columns.
-/
theorem properties_of_settings (hbuild : (ofCalls calls).build = .ok projection)
    (hcount : (addedIds calls).card ≤ slotLimit) :
    (projection.nodeCount = (addedIds calls).card ∧
      (∀ slot : Slot, slot.toNat < projection.nodeCount →
        ∃ id ∈ addedIds calls, IdMapping.slotOf? projection id = some slot) ∧
      ∀ id slot, IdMapping.slotOf? projection id = some slot ↔
        id ∈ addedIds calls ∧ rankOf calls id = slot.toNat) ∧
    (PropertyGraph.propertyNames projection).Pairwise
      (fun key other ↦ Text.bytes key < Text.bytes other) ∧
    (∀ key, key ∈ PropertyGraph.propertyNames projection ↔
      ∃ id value, .nodeProperty id key value ∈ calls) ∧
    (∀ key, key ∈ PropertyGraph.propertyNames projection ↔
      (PropertyGraph.property? projection key).isSome) ∧
    (∀ key column, PropertyGraph.property? projection key = some column →
      Keeps calls projection key column) ∧
    Describes calls (PropertyGraph.schema projection) ∧
    ∀ key, (PropertyGraph.schema projection).propertyType? key =
      (PropertyGraph.property? projection key).map PropertyColumn.numberType := by
  have hids : (ofCalls calls).ids.card ≤ slotLimit := ids_ofCalls calls ▸ hcount
  have hnumbered (id : NodeId) (slot : Slot) :
      IdMapping.slotOf? projection id = some slot ↔
        id ∈ addedIds calls ∧ rankOf calls id = slot.toNat := by
    rw [slotOf?_of_build hbuild, slotOf?_idMapOf hids, Numbered, ids_ofCalls]
    rfl
  have hslots (slot : Slot) (hslot : slot.toNat < projection.nodeCount) :
      ∃ id ∈ addedIds calls, IdMapping.slotOf? projection id = some slot := by
    rw [← ids_ofCalls]
    exact exists_slotOf?_eq_some hbuild hids hslot
  have hnames (key : String) : key ∈ PropertyGraph.propertyNames projection ↔
      (PropertyGraph.property? projection key).isSome := Table.mem_keys_iff
  have hset (key : String) : (PropertyGraph.property? projection key).isSome ↔
      ∃ id value, .nodeProperty id key value ∈ calls := by
    rw [property?_eq hbuild, Option.isSome_map, get?_columnTypes_ofCalls, isSome_common?_typesSet]
    simp only [true_and]
  have hschema : PropertyGraph.schema projection = .ofObservations (observations calls) := by
    obtain ⟨_, _, rfl⟩ := build_eq_ok_iff.mp hbuild
    exact schemaOf_ofCalls calls
  have htypes (key : String) : (PropertyGraph.schema projection).propertyType? key =
      (PropertyGraph.property? projection key).map PropertyColumn.numberType := by
    rw [hschema, Schema.propertyType?_ofObservations, typesOf_observations, property?_eq hbuild,
      get?_columnTypes_ofCalls, Option.map_map]
    have htype : PropertyColumn.numberType ∘
        (ofCalls calls).column (idMapOf (ofCalls calls).distinctNodes) key = id :=
      funext fun type ↦ numberType_column _ _ key type
    rw [htype, Option.map_id, id]
  exact ⟨⟨by rw [nodeCount_of_build hbuild, ids_ofCalls], hslots, hnumbered⟩,
    Table.pairwise_bytes_keys _, fun key ↦ (hnames key).trans (hset key), hnames,
    fun key column hcolumn ↦ keeps_of_property?_eq_some hbuild hcount hcolumn,
    hschema ▸ describes_ofObservations calls, htypes⟩

/-- Two nodes with a floating value that is replaced by an integer and a label that is replaced. -/
def relabelledPair : List Call :=
  [.labeledNode ⟨10⟩ "A", .nodeProperty ⟨10⟩ "x" (.double 0.5), .nodeProperty ⟨10⟩ "x" (.long 3),
    .nodeProperty ⟨20⟩ "x" (.long 7), .nodeProperty ⟨20⟩ "n" (.long 1), .labeledNode ⟨10⟩ "B"]

theorem properties_of_settings_of_relabelledPair :
    ∃ projection, (ofCalls relabelledPair).build = .ok projection ∧
      (addedIds relabelledPair).card ≤ slotLimit ∧
      (∃ column, PropertyGraph.property? projection "x" = some column ∧
        column.numberType = .floating ∧ column.double? 0 = some (Int64.toFloat 3) ∧
          column.double? 1 = some (Int64.toFloat 7)) ∧
      (∃ column, PropertyGraph.property? projection "n" = some column ∧
        column.numberType = .integer ∧ column.long? 0 = none) ∧
      "B" ∈ (PropertyGraph.schema projection).labels ∧
        "A" ∉ (PropertyGraph.schema projection).labels := by
  have hcard : (ofCalls relabelledPair).ids.card = 2 := by decide
  have hkeys : (ofCalls relabelledPair).columnTypes.keys.length = 2 := by decide +kernel
  have hcount : (addedIds relabelledPair).card ≤ slotLimit := by decide
  obtain ⟨projection, hbuild, _⟩ :=
    (ofCalls relabelledPair).exists_addressable_of_small (by decide) (by decide) (by decide)
      (by rw [hcard, hkeys]; decide)
  obtain ⟨⟨_, _, hslots⟩, _, hset, hnames, hkeeps, hdescribes, _⟩ :=
    properties_of_settings hbuild hcount
  have hcolumn {key : String} {id : NodeId} {value : PropertyValue}
      (hcall : .nodeProperty id key value ∈ relabelledPair) :
      ∃ column, PropertyGraph.property? projection key = some column ∧
        Keeps relabelledPair projection key column := by
    obtain ⟨column, hcolumn⟩ :=
      Option.isSome_iff_exists.mp ((hnames key).mp ((hset key).mpr ⟨id, value, hcall⟩))
    exact ⟨column, hcolumn, hkeeps key column hcolumn⟩
  have hfirst : IdMapping.slotOf? projection ⟨10⟩ = some 0 := (hslots _ _).mpr (by decide)
  have hsecond : IdMapping.slotOf? projection ⟨20⟩ = some 1 := (hslots _ _).mpr (by decide)
  have hfloating : Call.nodeProperty ⟨10⟩ "x" (.double 0.5) ∈ relabelledPair := by
    simp [relabelledPair]
  have hinteger : Call.nodeProperty ⟨20⟩ "n" (.long 1) ∈ relabelledPair := by
    simp [relabelledPair]
  refine ⟨projection, hbuild, hcount, ?_, ?_, ?_, ?_⟩
  · obtain ⟨column, hx, hkept⟩ := hcolumn hfloating
    refine ⟨column, hx, ?_, hkept.double?_eq _ _ hfirst, hkept.double?_eq _ _ hsecond⟩
    cases htype : column.numberType with
    | integer => exact absurd (hkept.numberType_eq_integer_iff.mp htype _ _ hfloating) (by decide)
    | floating => rfl
  · obtain ⟨column, hn, hkept⟩ := hcolumn hinteger
    have htype : column.numberType = .integer := by
      rw [hkept.numberType_eq_integer_iff]
      simp [relabelledPair, PropertyValue.numberType]
    refine ⟨column, hn, htype, ?_⟩
    have hcell := hkept.long?_eq htype _ _ hfirst
    exact Option.map_eq_none_iff.mp hcell
  · exact (hdescribes.mem_labels_iff "B").mpr ⟨⟨10⟩, by decide, by decide⟩
  · rw [hdescribes.mem_labels_iff]
    decide

end WeakComponents.Projection
