import WeakComponents.Proofs.Projection.Calls
import WeakComponents.Proofs.Schema

/-!
# Labels and properties that a builder was told

A node carries the label that it was given last. The values of a property are all those that were
set for it, in the order of the calls.
-/

namespace WeakComponents.Projection.Builder

variable {calls : List Call} {setting : PropertySetting}

namespace Call

/-- The property that a call sets. -/
def settings : Call → List PropertySetting
  | nodeProperty id key value => [⟨id, key, value⟩]
  | _ => []

/-- The label that a call gives to a node. -/
def labelFor? (id : NodeId) : Call → Option String
  | labeledNode other label => if other = id then some label else none
  | _ => none

end Call

theorem properties_perform (builder : Builder) (call : Call) :
    (builder.perform call).properties.toList = builder.properties.toList ++ call.settings := by
  cases call <;>
    simp [perform, node, addNodes, labeledNode, nodeProperty, relationship, addRelationships_eq,
      weightedRelationship, load, withDefaultWeight, withMaxNodes, withLimits, Call.settings]

theorem labelOf_perform (id : NodeId) (builder : Builder) (call : Call) :
    (builder.perform call).labelOf id = (call.labelFor? id).getD (builder.labelOf id) := by
  cases call with
  | labeledNode other label =>
    unfold labelOf perform labeledNode Call.labelFor?
    rw [Std.HashMap.getElem?_insert]
    by_cases hid : other = id
    · simp [hid]
    · simp [hid]
  | relationships pairs => simp [perform, addRelationships_eq, Call.labelFor?, labelOf]
  | _ => rfl

/-- The properties that some calls set, in order. -/
def settingsOf (calls : List Call) : List PropertySetting :=
  calls.flatMap Call.settings

/-- The keys that some calls set properties for. -/
def keysSet (calls : List Call) : Finset String :=
  ((settingsOf calls).map PropertySetting.key).toFinset

/-- The label that some calls give to a node last. -/
def finalLabel (calls : List Call) (id : NodeId) : String :=
  (calls.filterMap (Call.labelFor? id)).getLast?.getD Schema.allNodesLabel

/-- The values that some calls set for a property of the nodes that are `chosen`, in order. -/
def valuesSet (calls : List Call) (key : String) (chosen : NodeId → Prop) [DecidablePred chosen] :
    List PropertyValue :=
  ((settingsOf calls).filter fun setting ↦ decide (setting.key = key ∧ chosen setting.node)).map
    PropertySetting.value

/-- The types of these values. -/
def typesSet (calls : List Call) (key : String) (chosen : NodeId → Prop) [DecidablePred chosen] :
    List NumberType :=
  (valuesSet calls key chosen).map PropertyValue.numberType

theorem properties_ofCalls (calls : List Call) :
    (ofCalls calls).properties.toList = settingsOf calls :=
  @collected_ofCalls _ (fun builder ↦ builder.properties.toList) _ rfl properties_perform calls

theorem labelOf_ofCalls (calls : List Call) (id : NodeId) :
    (ofCalls calls).labelOf id = finalLabel calls id := by
  have hempty : empty.labelOf id = Schema.allNodesLabel := by simp [labelOf, empty]
  rw [finalLabel, ← hempty]
  exact @setting_ofCalls _ (fun builder ↦ builder.labelOf id) _ (labelOf_perform id) calls

theorem mem_settingsOf :
    setting ∈ settingsOf calls ↔
      .nodeProperty setting.node setting.key setting.value ∈ calls := by
  rw [settingsOf, List.mem_flatMap]
  constructor
  · rintro ⟨call, hcall, hsetting⟩
    cases call with
    | nodeProperty id key value =>
      obtain rfl : setting = ⟨id, key, value⟩ := List.mem_singleton.mp hsetting
      exact hcall
    | _ => exact absurd hsetting List.not_mem_nil
  · intro hcall
    exact ⟨_, hcall, List.mem_singleton_self setting⟩

theorem mem_keysSet {key : String} :
    key ∈ keysSet calls ↔ ∃ id value, .nodeProperty id key value ∈ calls := by
  rw [keysSet, List.mem_toFinset, List.mem_map]
  constructor
  · rintro ⟨⟨id, key, value⟩, hsetting, rfl⟩
    exact ⟨id, value, mem_settingsOf.mp hsetting⟩
  · rintro ⟨id, value, hcall⟩
    exact ⟨⟨id, key, value⟩, mem_settingsOf.mpr hcall, rfl⟩

theorem mem_addedIds_of_nodeProperty {id : NodeId} {key : String} {value : PropertyValue}
    (h : .nodeProperty id key value ∈ calls) : id ∈ addedIds calls := by
  rw [addedIds, List.mem_toFinset, List.mem_flatMap]
  exact ⟨_, h, List.mem_singleton_self id⟩

section

variable {key : String} {chosen : NodeId → Prop} [DecidablePred chosen]

theorem mem_valuesSet {value : PropertyValue} :
    value ∈ valuesSet calls key chosen ↔ ∃ id, chosen id ∧ .nodeProperty id key value ∈ calls := by
  unfold valuesSet
  simp only [List.mem_map, List.mem_filter, decide_eq_true_iff, mem_settingsOf]
  constructor
  · rintro ⟨⟨id, name, value⟩, ⟨hcall, rfl, hchosen⟩, rfl⟩
    exact ⟨id, hchosen, hcall⟩
  · rintro ⟨id, hchosen, hcall⟩
    exact ⟨⟨id, key, value⟩, ⟨hcall, rfl, hchosen⟩, rfl⟩

theorem mem_typesSet {type : NumberType} :
    type ∈ typesSet calls key chosen ↔
      ∃ id value, chosen id ∧ .nodeProperty id key value ∈ calls ∧ value.numberType = type := by
  unfold typesSet
  simp only [List.mem_map, mem_valuesSet]
  constructor
  · rintro ⟨value, ⟨id, hchosen, hcall⟩, htype⟩
    exact ⟨id, value, hchosen, hcall, htype⟩
  · rintro ⟨id, value, hchosen, hcall, htype⟩
    exact ⟨value, ⟨id, hchosen, hcall⟩, htype⟩

theorem typesSet_eq_filterMap (calls : List Call) (key : String) (chosen : NodeId → Prop)
    [DecidablePred chosen] :
    typesSet calls key chosen = (settingsOf calls).filterMap fun setting ↦
      if setting.key = key ∧ chosen setting.node then some setting.value.numberType else none := by
  unfold typesSet valuesSet
  rw [List.map_map, ← List.filterMap_eq_map, List.filterMap_filter]
  simp

/-- There is a common type as soon as a value was set. -/
theorem isSome_common?_typesSet :
    (NumberType.common? (typesSet calls key chosen)).isSome ↔
      ∃ id value, chosen id ∧ .nodeProperty id key value ∈ calls := by
  rw [Option.isSome_iff_ne_none, ne_eq, NumberType.common?_eq_none_iff,
    List.eq_nil_iff_forall_not_mem]
  simp [mem_typesSet]

theorem common?_typesSet_eq_floating_iff :
    NumberType.common? (typesSet calls key chosen) = some .floating ↔
      ∃ id value, chosen id ∧ .nodeProperty id key value ∈ calls ∧
        value.numberType = .floating := by
  rw [NumberType.common?_eq_some_floating_iff, mem_typesSet]

end

end WeakComponents.Projection.Builder
