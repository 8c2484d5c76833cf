import Std.Data.HashMap
import WeakComponents.Graph.Basic
import WeakComponents.Json.Basic

/-!
# Results of a run

The component of every slot, the number of components, and the rows that callers see: node ids with
their components, without those of small components where a least size is set.
-/

namespace WeakComponents.Components

structure Result where
  components : Array UInt64
  componentCount : Nat
  /-- The least size of the components whose rows are kept. -/
  minComponentSize : Option UInt64

namespace Result

def nodeCount (result : Result) : Nat :=
  result.components.size

def componentOf? (result : Result) (slot : Slot) : Option UInt64 :=
  result.components[slot.toNat]?

/-- The runs of equal numbers in a list, with their lengths. -/
def runLengths : List UInt64 → List (UInt64 × Nat)
  | [] => []
  | component :: rest =>
    match runLengths rest with
    | [] => [(component, 1)]
    | (next, length) :: runs =>
      if component = next then (next, length + 1) :: runs
      else (component, 1) :: (next, length) :: runs

/-- The components with their sizes, by ascending component. -/
def componentSizes (result : Result) : List (UInt64 × Nat) :=
  runLengths (result.components.toList.mergeSort fun a b ↦ decide (a ≤ b))

/-- The components of the slots whose component has at least the least size. -/
def keptSlots (result : Result) : List (UInt64 × Nat) :=
  let least := (result.minComponentSize.getD 0).toNat
  let slots := result.components.toList.zipIdx
  if 1 < least then
    let sizes := Std.HashMap.ofList result.componentSizes
    slots.filter fun (component, _) ↦ decide (least ≤ (sizes[component]?).getD 0)
  else slots

/-- The ids of the kept slots with their components, by slot. -/
def rows {M : Type} [IdMapping M] (result : Result) (mapping : M) : List (NodeId × UInt64) :=
  result.keptSlots.filterMap fun (component, slot) ↦
    (IdMapping.nodeAt? mapping slot.toUInt32).map fun node ↦ (node, component)

def toJson {M : Type} [IdMapping M] (result : Result) (mapping : M) : Json :=
  .list ((result.rows mapping).map fun (node, component) ↦
    .object [("componentId", .ofUInt64 component), ("nodeId", .ofUInt64 node.value)])

end Result

end WeakComponents.Components
