import WeakComponents.Components.Config
import WeakComponents.Components.Phase
import WeakComponents.Components.Result
import WeakComponents.Dispatch
import WeakComponents.Projection.Basic
import WeakComponents.UnionFind

/-!
# Weakly connected components

A run unites the ends of every relationship it follows and then reads the settled root of every
slot. The component of a slot is the smallest slot connected to it; with seeds it is the lowest
seed in the component, and components without a seed are numbered behind all seeds.
-/

namespace WeakComponents.Components

/-- Unites the ends of a relationship; an end that is not a slot of the forest stops the visit. -/
def uniteStep (source : Slot) (state : UnionFind × Option OutOfBounds) (target : Slot) :
    (UnionFind × Option OutOfBounds) × Bool :=
  match state.1.union source target with
  | (.ok _, forest) => ((forest, none), true)
  | (.error error, forest) => ((forest, some error), false)

def uniteNeighbors (forest : UnionFind) (source : Slot) (reading : Reading Slot) :
    UnionFind × Option Interruption :=
  match reading.visit (uniteStep source) (forest, none) with
  | ((forest, none), interruption) => (forest, interruption)
  | ((forest, some error), _) => (forest, some (.panic (.composed error.message)))

/-- Unites the nodes of a batch with their neighbours, up to the first one that fails. -/
def uniteNodes (followed : Slot → Reading Slot) (batch : NodeBatch) (forest : UnionFind) :
    List Slot → UnionFind × TaskOutcome RunError
  | [] => (forest, .done)
  | node :: rest =>
    match uniteNeighbors forest node (followed node) with
    | (forest, none) => uniteNodes followed batch forest rest
    | (forest, some (.fault fault)) => (forest, .failed (.storage batch fault))
    | (forest, some (.panic value)) => (forest, .panicked value)

def uniteBatch (followed : Slot → Reading Slot) (forest : UnionFind) (batch : NodeBatch) :
    UnionFind × TaskOutcome RunError :=
  uniteNodes followed batch forest batch.toList

/-- The component with a root: the seed of the root, or its slot behind `offset`. -/
def componentId (forest : UnionFind) (offset : UInt64) (root : Slot) : UInt64 :=
  match forest.seedOf root with
  | .ok (some seed) => seed
  | _ => offset + root.toUInt64

def settleSlot (offset : UInt64) (state : Array UInt64 × UnionFind) (slot : Slot) :
    Array UInt64 × UnionFind :=
  match state.2.setIdOf slot with
  | (.ok root, forest) => (state.1.push (componentId forest offset root), forest)
  | (.error _, forest) => (state.1, forest)

/-- The components of all slots, ascending, and the forest that reading them leaves behind. -/
def settle (forest : UnionFind) (offset : UInt64) : Array UInt64 × UnionFind :=
  forest.slots.foldl (settleSlot offset) (#[], forest)

/-- The number after the largest seed, or zero if there is none. -/
def seedOffset (seeds : Array (Option UInt64)) : UInt64 :=
  match (seeds.toList.filterMap id).max? with
  | none => 0
  | some largest => largest + 1

/-- The seed in a cell of a column; a negative one is refused. -/
def seedOfCell (key : String) (slot : Nat) : Option Int64 → Except Complaint (Option UInt64)
  | none => .ok none
  | some value =>
    if value < 0 then .error (.negativeSeed key value slot) else .ok (some value.toUInt64)

def readSeeds {G : Type} [Graph G] [PropertyGraph G] (graph : G) (key : String) :
    Except Complaint (Array (Option UInt64)) :=
  match PropertyGraph.property? graph key with
  | none => .error (.seedPropertyMissing key)
  | some (.double cells) =>
    .error (.seedPropertyNotInteger key (PropertyColumn.double cells).numberType)
  | some (.long cells) => do
    let seeds ← (List.range (Graph.nodeCount graph)).mapM fun slot ↦
      seedOfCell key slot cells[slot]?.join
    return seeds.toArray

/-! ## Runs -/

/-- The forest a run starts from, and the number from which components without a seed count. -/
def start (nodeCount : Nat) : Option (Array (Option UInt64)) → UnionFind × UInt64
  | none => (.singletons nodeCount, 0)
  | some seeds => (.ofSeeds seeds, seedOffset seeds)

/-- A run as it passed, with what it came to. -/
structure Course where
  lifecycle : Lifecycle
  outcome : Except RunError Result

/-- Follows the relationships of all nodes in batches and settles the components. -/
def course {G : Type} [Graph G] (threads : Threads) (graph : G) (config : Config)
    (seeds : Option (Array (Option UInt64))) (followed : Slot → Reading Slot) : Course :=
  let (forest, offset) := start (Graph.nodeCount graph) seeds
  let size := NodeBatch.adjustedSize (Graph.nodeCount graph) config.concurrency.toNat
    config.batchSize.toNat
  let lifecycle := Lifecycle.initial.advance .running
  match Dispatch.runBatches threads RunError.ofWorkerFault config.concurrency.toNat
      (Graph.batches graph size) (uniteBatch followed) forest with
  | (_, .error error) => ⟨lifecycle.advance .failed, .error error⟩
  | (forest, .ok _) =>
    let (components, forest) := settle forest offset
    ⟨lifecycle.advance .completed,
      .ok ⟨components, forest.componentCount, config.minComponentSize⟩⟩

/-- What a run comes to whose settings have been accepted. -/
def execute {G : Type} [Graph G] (threads : Threads) (graph : G) (config : Config)
    (seeds : Option (Array (Option UInt64))) (followed : Slot → Reading Slot) :
    Except RunError Result :=
  (course threads graph config seeds followed).outcome

/-- Refuses graphs with more nodes than there are slots. -/
def checkNodeCount {G : Type} [Graph G] (graph : G) : Except Complaint Unit :=
  if slotLimit < Graph.nodeCount graph then .error (.tooManyNodes (Graph.nodeCount graph))
  else .ok ()

def checkUnweighted {G : Type} [Graph G] (graph : G) (config : Config) :
    Except Complaint Unit := do
  config.validate
  checkNodeCount graph
  if config.threshold.isSome then .error .thresholdWithoutWeights
  if config.seedProperty.isSome then .error .seedsWithoutProperties

def checkWeighted {G : Type} [Graph G] [PropertyGraph G] (graph : G) (config : Config) :
    Except Complaint (Option (Array (Option UInt64))) := do
  config.validate
  checkNodeCount graph
  match config.seedProperty with
  | none => return none
  | some key => return some (← readSeeds graph key)

/-- The components of a graph, following every relationship in the direction set. -/
def runUnweighted {G : Type} [Graph G] (threads : Threads) (graph : G) (config : Config) :
    Except RunError Result :=
  match checkUnweighted graph config with
  | .error complaint => .error (.configuration complaint)
  | .ok () =>
    execute threads graph config none fun node ↦ Graph.neighbors graph node config.direction

/-- The weight that relationships of a graph without weights count with. -/
def defaultWeight : Float := 1.0

def aboveThreshold (threshold : Float) (reading : Reading (Slot × Float)) : Reading Slot :=
  ⟨(reading.entries.filter fun entry ↦ decide (threshold < entry.2)).map Prod.fst,
    reading.interruption⟩

def followedNeighbors {G : Type} [WeightedGraph G] (graph : G) (config : Config) (node : Slot) :
    Reading Slot :=
  match config.threshold with
  | none => Graph.neighbors graph node config.direction
  | some threshold =>
    aboveThreshold threshold
      (WeightedGraph.weightedNeighbors graph node config.direction defaultWeight)

/-- The components of a graph, honouring the threshold and the seeds. -/
def runWeighted {G : Type} [WeightedGraph G] [PropertyGraph G] (threads : Threads) (graph : G)
    (config : Config) : Except RunError Result :=
  match checkWeighted graph config with
  | .error complaint => .error (.configuration complaint)
  | .ok seeds => execute threads graph config seeds (followedNeighbors graph config)

def run (threads : Threads) (projection : Projection) (config : Config) :
    Except RunError Result :=
  runWeighted threads projection config

end WeakComponents.Components
