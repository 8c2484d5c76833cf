import Mathlib.Data.Finset.Card
import WeakComponents.Proofs.Projection.Relationships

/-!
# What a builder was told

The calls that make up a builder name nodes, give relationships and choose settings. A builder has
the nodes and the relationships of its calls in the order of the calls, and of each setting the
last choice.
-/

namespace WeakComponents.Projection.Builder

variable {calls : List Call} {projection : Projection}

namespace Call

/-- The ids that a call adds as nodes. -/
def ids : Call → List NodeId
  | node id | labeledNode id _ | nodeProperty id _ _ => [id]
  | nodes ids => ids
  | _ => []

/-- The relationships that a call gives. -/
def given : Call → List Relationship
  | relationship source target => [⟨source, target, none⟩]
  | relationships pairs => pairs.map fun pair ↦ ⟨pair.1, pair.2, none⟩
  | weightedRelationship source target weight => [⟨source, target, some weight⟩]
  | _ => []

/-- The rows that a call asks for. -/
def load? : Call → Option LoadDirection
  | load direction => some direction
  | _ => none

/-- The weight that a call chooses for relationships without one. -/
def defaultWeight? : Call → Option Float
  | defaultWeight weight => some weight
  | _ => none

/-- The largest number of nodes that a call sets. -/
def maxNodes? : Call → Option UInt64
  | maxNodes count => some count
  | limits given => some given.maxVertices
  | _ => none

/-- The most bytes that a call allows. -/
def maxMemory? : Call → Option UInt64
  | limits given => some given.maxProjectionMemory
  | _ => none

end Call

theorem addRelationships_eq (builder : Builder) (pairs : List (NodeId × NodeId)) :
    builder.addRelationships pairs =
      { builder with
        relationships := builder.relationships ++
          (pairs.map fun pair ↦ ⟨pair.1, pair.2, none⟩).toArray } := by
  unfold addRelationships
  induction pairs generalizing builder with
  | nil => simp
  | cons pair rest ih =>
    rw [List.foldl_cons, ih]
    simp [relationship]

theorem nodes_perform (builder : Builder) (call : Call) :
    (builder.perform call).nodes.toList = builder.nodes.toList ++ call.ids := by
  cases call <;>
    simp [perform, node, addNodes, labeledNode, nodeProperty, relationship, addRelationships_eq,
      weightedRelationship, load, withDefaultWeight, withMaxNodes, withLimits, Call.ids]

theorem relationships_perform (builder : Builder) (call : Call) :
    (builder.perform call).relationships.toList = builder.relationships.toList ++ call.given := by
  cases call <;>
    simp [perform, node, addNodes, labeledNode, nodeProperty, relationship, addRelationships_eq,
      weightedRelationship, load, withDefaultWeight, withMaxNodes, withLimits, Call.given]

theorem loadDirection_perform (builder : Builder) (call : Call) :
    (builder.perform call).loadDirection = call.load?.getD builder.loadDirection := by
  cases call with
  | relationships pairs => simp [perform, addRelationships_eq, Call.load?]
  | _ => rfl

theorem defaultWeight_perform (builder : Builder) (call : Call) :
    (builder.perform call).defaultWeight = call.defaultWeight?.getD builder.defaultWeight := by
  cases call with
  | relationships pairs => simp [perform, addRelationships_eq, Call.defaultWeight?]
  | _ => rfl

theorem maxNodes_perform (builder : Builder) (call : Call) :
    (builder.perform call).maxNodes = call.maxNodes?.getD builder.maxNodes := by
  cases call with
  | relationships pairs => simp [perform, addRelationships_eq, Call.maxNodes?]
  | _ => rfl

theorem maxMemory_perform (builder : Builder) (call : Call) :
    (builder.perform call).maxMemory = call.maxMemory?.getD builder.maxMemory := by
  cases call with
  | relationships pairs => simp [perform, addRelationships_eq, Call.maxMemory?]
  | _ => rfl

/-- The ids that some calls add as nodes. -/
def addedIds (calls : List Call) : Finset NodeId :=
  (calls.flatMap Call.ids).toFinset

/-- The rows that some calls ask for last. -/
def chosenLoad (calls : List Call) : LoadDirection :=
  (calls.filterMap Call.load?).getLast?.getD .outgoing

/-- The weight that some calls choose last for relationships without one. -/
def chosenWeight (calls : List Call) : Float :=
  (calls.filterMap Call.defaultWeight?).getLast?.getD 1.0

/-- The largest number of nodes that some calls set last. -/
def chosenMaxNodes (calls : List Call) : UInt64 :=
  (calls.filterMap Call.maxNodes?).getLast?.getD (Limits.standard 1).maxVertices

/-- The most bytes that some calls allow last. -/
def chosenMaxMemory (calls : List Call) : UInt64 :=
  (calls.filterMap Call.maxMemory?).getLast?.getD (Limits.standard 1).maxProjectionMemory

theorem ofCalls_append_singleton (calls : List Call) (call : Call) :
    ofCalls (calls ++ [call]) = (ofCalls calls).perform call := by
  rw [ofCalls, List.foldl_append]
  rfl

/-- A list that each call appends to holds what all of them gave, in order. -/
theorem collected_ofCalls {α : Type} {collected : Builder → List α} {given : Call → List α}
    (hempty : collected empty = [])
    (hperform : ∀ builder call,
      collected (builder.perform call) = collected builder ++ given call) (calls : List Call) :
    collected (ofCalls calls) = calls.flatMap given := by
  induction calls using List.reverseRecOn with
  | nil => exact hempty
  | append_singleton calls call ih =>
    rw [ofCalls_append_singleton, hperform, ih, List.flatMap_append, List.flatMap_singleton]

theorem nodes_ofCalls (calls : List Call) :
    (ofCalls calls).nodes.toList = calls.flatMap Call.ids :=
  @collected_ofCalls _ (fun builder ↦ builder.nodes.toList) _ rfl nodes_perform calls

theorem relationships_ofCalls (calls : List Call) :
    (ofCalls calls).relationships.toList = calls.flatMap Call.given :=
  @collected_ofCalls _ (fun builder ↦ builder.relationships.toList) _ rfl relationships_perform calls

/-- Some relationship is given a weight. -/
def GivesWeights (calls : List Call) : Prop :=
  ∃ relationship ∈ calls.flatMap Call.given, relationship.weight.isSome = true

instance (calls : List Call) : Decidable (GivesWeights calls) :=
  inferInstanceAs (Decidable (∃ relationship ∈ _, _))

theorem isWeighted_ofCalls : (ofCalls calls).isWeighted = true ↔ GivesWeights calls := by
  rw [GivesWeights, ← relationships_ofCalls, isWeighted, Array.any_eq_true']
  simp only [Array.mem_toList_iff]

/-- A setting that each call keeps or replaces is the one chosen last. -/
theorem setting_ofCalls {α : Type} {setting : Builder → α} {choice? : Call → Option α}
    (hperform : ∀ builder call,
      setting (builder.perform call) = (choice? call).getD (setting builder)) (calls : List Call) :
    setting (ofCalls calls) = (calls.filterMap choice?).getLast?.getD (setting empty) := by
  induction calls using List.reverseRecOn with
  | nil => rfl
  | append_singleton calls call ih =>
    rw [ofCalls_append_singleton, hperform, ih, List.filterMap_append]
    cases hchoice : choice? call with
    | none => simp [hchoice]
    | some choice => simp [hchoice]

theorem loadDirection_ofCalls (calls : List Call) :
    (ofCalls calls).loadDirection = chosenLoad calls :=
  setting_ofCalls loadDirection_perform calls

theorem defaultWeight_ofCalls (calls : List Call) :
    (ofCalls calls).defaultWeight = chosenWeight calls :=
  setting_ofCalls defaultWeight_perform calls

theorem maxNodes_ofCalls (calls : List Call) : (ofCalls calls).maxNodes = chosenMaxNodes calls :=
  setting_ofCalls maxNodes_perform calls

theorem maxMemory_ofCalls (calls : List Call) : (ofCalls calls).maxMemory = chosenMaxMemory calls :=
  setting_ofCalls maxMemory_perform calls

theorem ids_ofCalls (calls : List Call) : (ofCalls calls).ids = addedIds calls := by
  rw [ids, nodes_ofCalls, addedIds]

end WeakComponents.Projection.Builder
