import WeakComponents.Proofs.Schema

/-!
# Schemas as sets of observations

What a schema mentions, and how it types it, is a matter of which observations were made. So their
order and their repetition leave no trace, and the form that callers see distinguishes schemas just
as far as they differ.
-/

namespace WeakComponents

theorem NumberType.displayName_injective : Function.Injective NumberType.displayName := by
  rintro (_ | _) (_ | _) h
  · rfl
  · exact absurd h (by decide)
  · exact absurd h (by decide)
  · rfl

namespace Schema

variable {observations others : List Observation} {schema other : Schema}
  {label property : String} {type : NumberType}

theorem mem_typesAt_iff :
    type ∈ typesAt observations label property ↔ .property label property type ∈ observations := by
  rw [typesAt, List.mem_filterMap]
  constructor
  · rintro ⟨observation, hmem, htype⟩
    cases observation with
    | label name => cases htype
    | property name key found =>
      rw [Observation.typeAt?] at htype
      split at htype
      · rename_i hsame
        obtain ⟨rfl, rfl⟩ := hsame
        exact Option.some.inj htype ▸ hmem
      · cases htype
  · intro hmem
    exact ⟨_, hmem, if_pos ⟨rfl, rfl⟩⟩

theorem mem_typesOf_iff_exists_property :
    type ∈ typesOf observations property ↔
      ∃ label, .property label property type ∈ observations := by
  simp only [mem_typesOf_iff, mem_typesAt_iff]

theorem isSome_typeAt?_ofObservations :
    ((ofObservations observations).typeAt? label property).isSome ↔
      ∃ type, .property label property type ∈ observations := by
  rw [← Option.ne_none_iff_isSome, typeAt?_ofObservations, ne_eq,
    NumberType.common?_eq_none_iff, List.eq_nil_iff_forall_not_mem]
  simp only [mem_typesAt_iff, not_forall, not_not]

theorem typeAt?_ofObservations_eq_floating_iff :
    (ofObservations observations).typeAt? label property = some .floating ↔
      .property label property .floating ∈ observations := by
  rw [typeAt?_ofObservations, NumberType.common?_eq_some_floating_iff, mem_typesAt_iff]

theorem propertyType?_ofObservations_eq_none_iff :
    (ofObservations observations).propertyType? property = none ↔
      ∀ label type, .property label property type ∉ observations := by
  rw [propertyType?_ofObservations, NumberType.common?_eq_none_iff,
    List.eq_nil_iff_forall_not_mem]
  simp only [mem_typesOf_iff_exists_property, not_exists]
  exact forall_comm

theorem propertyType?_ofObservations_eq_floating_iff :
    (ofObservations observations).propertyType? property = some .floating ↔
      ∃ label, .property label property .floating ∈ observations := by
  rw [propertyType?_ofObservations, NumberType.common?_eq_some_floating_iff,
    mem_typesOf_iff_exists_property]

/-- A schema is determined by its labels and the types it records under them. -/
theorem eq_of_typeAt?_eq (hlabels : ∀ label, label ∈ schema.labels ↔ label ∈ other.labels)
    (htypes : ∀ label property, schema.typeAt? label property = other.typeAt? label property) :
    schema = other := by
  have hproperties : schema.properties = other.properties := by
    apply Table.eq_of_get?_eq
    intro label
    have hsome : (schema.propertiesOf? label).isSome ↔ (other.propertiesOf? label).isSome := by
      rw [← mem_labels_iff, ← mem_labels_iff, hlabels]
    have htypes' := htypes label
    unfold typeAt? at htypes'
    change schema.propertiesOf? label = other.propertiesOf? label
    cases htable : schema.propertiesOf? label with
    | none =>
      rw [htable] at hsome
      exact (Option.not_isSome_iff_eq_none.mp (hsome.not.mp (by simp))).symm
    | some table =>
      rw [htable] at hsome htypes'
      obtain ⟨table', htable'⟩ := Option.isSome_iff_exists.mp (hsome.mp rfl)
      rw [htable'] at htypes' ⊢
      exact congrArg some (Table.eq_of_get?_eq htypes')
  cases schema
  cases other
  exact congrArg Schema.mk hproperties

theorem toObject_injective {typeName : NumberType → String} (h : Function.Injective typeName) :
    Function.Injective fun schema : Schema ↦ schema.toObject typeName := by
  have htable : Function.Injective fun table : Table NumberType ↦
      Json.object (table.entries.map fun entry ↦ (entry.1, .text (typeName entry.2))) := by
    intro table table' hsame
    refine Table.ext_entries (List.map_injective_iff.mpr ?_ (Json.object.inj hsame))
    intro entry entry' hentry
    obtain ⟨hproperty, htext⟩ := Prod.mk.inj hentry
    exact Prod.ext hproperty (h (Json.text.inj htext))
  intro schema other hsame
  have hentries : schema.properties.entries = other.properties.entries := by
    refine List.map_injective_iff.mpr ?_ (Json.object.inj hsame)
    intro entry entry' hentry
    obtain ⟨hlabel, hobject⟩ := Prod.mk.inj hentry
    exact Prod.ext hlabel (htable hobject)
  cases schema
  cases other
  exact congrArg Schema.mk (Table.ext_entries hentries)

theorem display_injective : Function.Injective display :=
  toObject_injective NumberType.displayName_injective

/--
A schema records some observations: their labels, in ascending order of the bytes; under each label
the properties that were observed there, floating if any observation was; and over all labels those
observed anywhere.
-/
structure Records (observations : List Observation) (schema : Schema) : Prop where
  mem_labels_iff : ∀ label, label ∈ schema.labels ↔
    ∃ observation ∈ observations, observation.on = label
  labels_ascending : schema.labels.Pairwise fun a b ↦ Text.bytes a < Text.bytes b
  propertiesOf?_eq_none_iff : ∀ label, schema.propertiesOf? label = none ↔
    ∀ observation ∈ observations, observation.on ≠ label
  table : ∀ label table, schema.propertiesOf? label = some table → ∀ property,
    (property ∈ table.keys ↔ ∃ type, .property label property type ∈ observations) ∧
    (table.get? property = some .floating ↔ .property label property .floating ∈ observations)
  propertyType?_eq_none_iff : ∀ property, schema.propertyType? property = none ↔
    ∀ label type, .property label property type ∉ observations
  propertyType?_eq_floating_iff : ∀ property, schema.propertyType? property = some .floating ↔
    ∃ label, .property label property .floating ∈ observations

theorem records_ofObservations (observations : List Observation) :
    Records observations (ofObservations observations) where
  mem_labels_iff _ := mem_labels_ofObservations
  labels_ascending := Table.pairwise_bytes_keys _
  propertiesOf?_eq_none_iff label := by
    rw [← Option.not_isSome_iff_eq_none, ← mem_labels_iff, mem_labels_ofObservations]
    simp only [not_exists, not_and, ne_eq]
  table label table htable property := by
    have htype : table.get? property = (ofObservations observations).typeAt? label property := by
      rw [typeAt?, htable, Option.bind_some]
    rw [Table.mem_keys_iff, htype]
    exact ⟨isSome_typeAt?_ofObservations, typeAt?_ofObservations_eq_floating_iff⟩
  propertyType?_eq_none_iff _ := propertyType?_ofObservations_eq_none_iff
  propertyType?_eq_floating_iff _ := propertyType?_ofObservations_eq_floating_iff

/-- The same observations make the same schema, in any order and however often each was made. -/
theorem ofObservations_congr
    (h : ∀ observation, observation ∈ others ↔ observation ∈ observations) :
    ofObservations others = ofObservations observations := by
  apply eq_of_typeAt?_eq
  · intro label
    simp only [mem_labels_ofObservations, h]
  · intro label property
    rw [typeAt?_ofObservations, typeAt?_ofObservations]
    apply NumberType.common?_congr
    · simp only [List.eq_nil_iff_forall_not_mem, mem_typesAt_iff, h]
    · simp only [mem_typesAt_iff, h]

/--
A schema records the set of its observations: with the same observations, in any order and however
often, it is the same schema. Schemas are shown to callers in the same form just if they are equal.
-/
theorem ofObservations_records_set (observations : List Observation) :
    Records observations (ofObservations observations) ∧
    (∀ others, (∀ observation, observation ∈ others ↔ observation ∈ observations) →
      ofObservations others = ofObservations observations) ∧
    ∀ others, (ofObservations others).display = (ofObservations observations).display ↔
      ofObservations others = ofObservations observations :=
  ⟨records_ofObservations observations, fun _ ↦ ofObservations_congr,
    fun _ ↦ display_injective.eq_iff⟩

/-- A label may be mentioned again, and before what was observed on others: it is the same schema,
with the same labels and a floating property. -/
theorem ofObservations_records_set_of_repetition :
    ofObservations [.label "A", .property "B" "seed" .floating, .property "B" "seed" .integer,
      .label "A"] =
      ofObservations [.property "B" "seed" .integer, .property "B" "seed" .floating, .label "A"] ∧
    "A" ∈ (ofObservations [.property "B" "seed" .integer, .property "B" "seed" .floating,
      .label "A"]).labels ∧
    (ofObservations [.property "B" "seed" .integer, .property "B" "seed" .floating,
      .label "A"]).propertyType? "seed" = some .floating := by
  obtain ⟨hrecords, hsame, _⟩ := ofObservations_records_set
    [.property "B" "seed" .integer, .property "B" "seed" .floating, .label "A"]
  refine ⟨hsame _ fun observation ↦ ?_,
    (hrecords.mem_labels_iff "A").mpr ⟨.label "A", by simp, rfl⟩,
    (hrecords.propertyType?_eq_floating_iff "seed").mpr ⟨"B", by simp⟩⟩
  simp only [List.mem_cons, List.not_mem_nil, or_false]
  tauto

end Schema

end WeakComponents
