import Mathlib.Data.List.Induction
import WeakComponents.Proofs.Table
import WeakComponents.Schema

/-!
# What a schema records

Whatever the order in which labels and properties were observed, a schema mentions exactly the
labels that were, and types a property by all that was observed of it: floating as soon as one
observation is.
-/

namespace WeakComponents

namespace NumberType

variable {type : NumberType} {types others : List NumberType}

/-- The common type of observed numbers: none of no numbers, and floating if any number is. -/
def common? (types : List NumberType) : Option NumberType :=
  if types = [] then none else if floating ∈ types then some floating else some integer

theorem common?_eq_none_iff : common? types = none ↔ types = [] := by
  unfold common?
  split_ifs <;> simp_all

theorem common?_eq_some_floating_iff : common? types = some floating ↔ floating ∈ types := by
  unfold common?
  split_ifs <;> simp_all

theorem common?_eq_some_integer_iff :
    common? types = some integer ↔ types ≠ [] ∧ ∀ type ∈ types, type = integer := by
  have hinteger : (∀ type ∈ types, type = integer) ↔ floating ∉ types := by
    constructor
    · intro h hmem
      exact absurd (h floating hmem) (by decide)
    · rintro h (_ | _) hmem
      · rfl
      · exact absurd hmem h
  rw [hinteger]
  unfold common?
  split_ifs <;> simp_all

/-- The common type depends only on whether there are numbers and whether any is floating. -/
theorem common?_congr (hnil : types = [] ↔ others = [])
    (hfloating : floating ∈ types ↔ floating ∈ others) : common? types = common? others := by
  unfold common?
  simp only [hnil, hfloating]

theorem widen_eq_floating_iff {other : NumberType} :
    type.widen other = floating ↔ type = floating ∨ other = floating := by
  cases type <;> cases other <;> simp [widen]

theorem common?_append_singleton (types : List NumberType) (type : NumberType) :
    common? (types ++ [type]) = some ((common? types).elim type (·.widen type)) := by
  cases hcommon : common? types with
  | none =>
    rw [common?_eq_none_iff.mp hcommon]
    cases type <;> rfl
  | some known =>
    have hfloating : floating ∈ types ↔ known = floating := by
      rw [← common?_eq_some_floating_iff, hcommon, Option.some_inj]
    have hwiden : floating ∈ types ++ [type] ↔ known.widen type = floating := by
      rw [List.mem_append, List.mem_singleton, hfloating, widen_eq_floating_iff,
        @eq_comm _ floating]
    unfold common?
    rw [if_neg (by simp)]
    simp only [hwiden, Option.elim_some]
    cases known.widen type <;> simp

/-- Widening the first type by all others gives the common type. -/
theorem common?_cons (type : NumberType) (others : List NumberType) :
    common? (type :: others) = some (others.foldl widen type) := by
  induction others using List.reverseRecOn with
  | nil => cases type <;> rfl
  | append_singleton others last ih =>
    rw [← List.cons_append, common?_append_singleton, ih, List.foldl_append]
    rfl

end NumberType

/-- Entries that each widen the type at their key leave the common type there. -/
theorem Table.get?_foldl_widen {ι : Type} (keyOf : ι → String) (typeOf : ι → NumberType)
    (entries : List ι) (key : String) :
    (entries.foldl (fun table entry ↦ table.upsert (keyOf entry) fun
      | some known => known.widen (typeOf entry)
      | none => typeOf entry) Table.empty).get? key =
      NumberType.common? ((entries.filter fun entry ↦ decide (keyOf entry = key)).map typeOf) := by
  induction entries using List.reverseRecOn with
  | nil => rfl
  | append_singleton entries last ih =>
    rw [List.foldl_append, List.foldl_cons, List.foldl_nil, get?_upsert, List.filter_append]
    by_cases hkey : keyOf last = key
    · rw [if_pos hkey.symm, hkey, ih, List.filter_singleton, decide_eq_true hkey, cond_true,
        List.map_append, List.map_singleton, NumberType.common?_append_singleton]
      cases NumberType.common? _ <;> rfl
    · rw [if_neg (Ne.symm hkey), ih, List.filter_singleton, decide_eq_false hkey, cond_false,
        List.append_nil]

namespace Schema

/-- One thing that a schema is told. -/
inductive Observation where
  | label (label : String)
  | property (label property : String) (type : NumberType)

namespace Observation

/-- The label that was observed. -/
def on : Observation → String
  | label name => name
  | property name _ _ => name

/-- The type observed of a property under a label, if it is this that was observed. -/
def typeAt? (label property : String) : Observation → Option NumberType
  | .label _ => none
  | .property other name type => if other = label ∧ name = property then some type else none

/-- The type observed of a property under any label, if it is this property that was observed. -/
def typeOf? (property : String) : Observation → Option NumberType
  | .label _ => none
  | .property _ name type => if name = property then some type else none

theorem typeOf?_eq_some_iff {property : String} {observation : Observation} {type : NumberType} :
    observation.typeOf? property = some type ↔
      ∃ label, observation.typeAt? label property = some type := by
  cases observation with
  | label name => simp [typeOf?, typeAt?]
  | property other name found =>
    unfold typeOf? typeAt?
    by_cases hname : name = property
    · simp [hname]
    · simp [hname]

end Observation

/-- Records an observation. -/
def observe (schema : Schema) : Observation → Schema
  | .label label => schema.addLabel label
  | .property label property type => schema.addProperty label property type

/-- The schema of all that was observed, in order. -/
def ofObservations (observations : List Observation) : Schema :=
  observations.foldl observe empty

/-- The types observed of a property under a label, in order. -/
def typesAt (observations : List Observation) (label property : String) : List NumberType :=
  observations.filterMap (Observation.typeAt? label property)

/-- The types observed of a property under any label, in order. -/
def typesOf (observations : List Observation) (property : String) : List NumberType :=
  observations.filterMap (Observation.typeOf? property)

/-- The type that a schema records of a property under a label. -/
def typeAt? (schema : Schema) (label property : String) : Option NumberType :=
  (schema.propertiesOf? label).bind (·.get? property)

variable {schema : Schema} {label property : String} {type : NumberType}
  {observations : List Observation}

theorem mem_labels_iff : label ∈ schema.labels ↔ (schema.propertiesOf? label).isSome :=
  Table.mem_keys_iff

theorem propertiesOf?_observe (schema : Schema) (observation : Observation) (label : String) :
    (schema.observe observation).propertiesOf? label =
      if label = observation.on then
        some (match observation with
          | .label _ => (schema.propertiesOf? label).getD .empty
          | .property _ property type =>
            ((schema.propertiesOf? label).getD .empty).upsert property fun
              | some old => old.widen type
              | none => type)
      else schema.propertiesOf? label := by
  cases observation with
  | label name =>
    refine (Table.get?_upsert _ _ _ _).trans ?_
    by_cases hlabel : label = name
    · subst hlabel
      rfl
    · simp [Observation.on, hlabel, propertiesOf?]
  | property name property type =>
    refine (Table.get?_upsert _ _ _ _).trans ?_
    by_cases hlabel : label = name
    · subst hlabel
      rfl
    · simp [Observation.on, hlabel, propertiesOf?]

theorem mem_labels_observe {observation : Observation} :
    label ∈ (schema.observe observation).labels ↔
      label ∈ schema.labels ∨ observation.on = label := by
  rw [mem_labels_iff, mem_labels_iff, propertiesOf?_observe]
  by_cases hlabel : label = observation.on
  · simp [hlabel]
  · simp [hlabel, Ne.symm hlabel]

theorem get?_getD_empty (known : Option (Table NumberType)) (property : String) :
    (known.getD .empty).get? property = known.bind (·.get? property) := by
  cases known <;> rfl

/-- An observation widens the type of what is observed and leaves all others. -/
theorem typeAt?_observe (schema : Schema) (observation : Observation) (label property : String) :
    (schema.observe observation).typeAt? label property =
      match observation.typeAt? label property with
      | some type => some ((schema.typeAt? label property).elim type (·.widen type))
      | none => schema.typeAt? label property := by
  unfold typeAt?
  rw [propertiesOf?_observe]
  cases observation with
  | label name =>
    by_cases hlabel : label = name
    · simp [Observation.on, Observation.typeAt?, hlabel, get?_getD_empty]
    · simp [Observation.on, Observation.typeAt?, hlabel]
  | property name other type =>
    by_cases hlabel : label = name
    · by_cases hproperty : property = other
      · simp only [Observation.on, Observation.typeAt?, hlabel, hproperty, if_true, and_self,
          Option.bind_some, Table.get?_upsert, get?_getD_empty]
        cases (schema.propertiesOf? name).bind fun table ↦ table.get? other <;> rfl
      · simp [Observation.on, Observation.typeAt?, hlabel, hproperty, Ne.symm hproperty,
          Table.get?_upsert, get?_getD_empty]
    · simp [Observation.on, Observation.typeAt?, hlabel, Ne.symm hlabel]

theorem ofObservations_append_singleton (observations : List Observation)
    (observation : Observation) :
    ofObservations (observations ++ [observation]) =
      (ofObservations observations).observe observation := by
  rw [ofObservations, List.foldl_append]
  rfl

/-- A schema mentions the labels that were observed. -/
theorem mem_labels_ofObservations :
    label ∈ (ofObservations observations).labels ↔
      ∃ observation ∈ observations, observation.on = label := by
  induction observations using List.reverseRecOn with
  | nil => simp [ofObservations, empty, labels, Table.keys, Table.empty]
  | append_singleton observations last ih =>
    rw [ofObservations_append_singleton, mem_labels_observe, ih]
    simp [or_and_right, exists_or]

/-- A schema records the common type of what was observed under a label. -/
theorem typeAt?_ofObservations (observations : List Observation) (label property : String) :
    (ofObservations observations).typeAt? label property =
      NumberType.common? (typesAt observations label property) := by
  induction observations using List.reverseRecOn with
  | nil => rfl
  | append_singleton observations last ih =>
    unfold typesAt at ih ⊢
    rw [ofObservations_append_singleton, typeAt?_observe, ih, List.filterMap_append]
    cases hlast : last.typeAt? label property with
    | none => simp [hlast]
    | some type => simp [hlast, NumberType.common?_append_singleton]

theorem propertyType?_eq_common? (schema : Schema) (property : String) :
    schema.propertyType? property = NumberType.common?
      (schema.properties.values.filterMap fun table ↦ table.get? property) := by
  unfold propertyType?
  cases schema.properties.values.filterMap fun table ↦ table.get? property with
  | nil => rfl
  | cons type others => exact (NumberType.common?_cons type others).symm

theorem mem_filterMap_values_iff :
    (type ∈ schema.properties.values.filterMap fun table ↦ table.get? property) ↔
      ∃ label, schema.typeAt? label property = some type := by
  simp only [List.mem_filterMap, Table.mem_values_iff, typeAt?, propertiesOf?,
    Option.bind_eq_some_iff]
  constructor
  · rintro ⟨table, ⟨label, hlabel⟩, htype⟩
    exact ⟨label, table, hlabel, htype⟩
  · rintro ⟨label, table, hlabel, htype⟩
    exact ⟨table, ⟨label, hlabel⟩, htype⟩

theorem mem_typesOf_iff :
    type ∈ typesOf observations property ↔ ∃ label, type ∈ typesAt observations label property := by
  simp only [typesOf, typesAt, List.mem_filterMap, Observation.typeOf?_eq_some_iff]
  constructor
  · rintro ⟨observation, hmem, label, htype⟩
    exact ⟨label, observation, hmem, htype⟩
  · rintro ⟨label, observation, hmem, htype⟩
    exact ⟨observation, hmem, label, htype⟩

/-- The type over all labels is the common type of what was observed under any. -/
theorem propertyType?_ofObservations (observations : List Observation) (property : String) :
    (ofObservations observations).propertyType? property =
      NumberType.common? (typesOf observations property) := by
  have hrecorded (label : String) := typeAt?_ofObservations observations label property
  rw [propertyType?_eq_common?]
  apply NumberType.common?_congr
  · simp only [List.eq_nil_iff_forall_not_mem, mem_filterMap_values_iff, mem_typesOf_iff,
      hrecorded, not_exists]
    constructor
    · intro h type label
      have hnone : NumberType.common? (typesAt observations label property) = none :=
        Option.eq_none_iff_forall_ne_some.mpr fun type ↦ h type label
      rw [NumberType.common?_eq_none_iff.mp hnone]
      exact List.not_mem_nil
    · intro h type label
      have hnil : typesAt observations label property = [] :=
        List.eq_nil_iff_forall_not_mem.mpr fun type ↦ h type label
      rw [NumberType.common?_eq_none_iff.mpr hnil]
      simp
  · simp only [mem_filterMap_values_iff, mem_typesOf_iff, hrecorded,
      NumberType.common?_eq_some_floating_iff]

end Schema

end WeakComponents
