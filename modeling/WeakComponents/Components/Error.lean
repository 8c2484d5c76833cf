import WeakComponents.Failure.Chain
import WeakComponents.Json.Printer
import WeakComponents.Schema

/-!
# Errors of a run

A run of the algorithm fails because its configuration cannot be used, because the graph has a
fault, because a worker panicked, or because no workers could be started. An error that arose on a
batch names the batch, and the failure behind it is kept as it was.
-/

namespace WeakComponents.Components

inductive Complaint where
  | noWorkers
  | emptyBatches
  | thresholdNotANumber
  | unnamedSeedProperty
  /-- The graph has more nodes than there are slots. -/
  | tooManyNodes (nodeCount : Nat)
  | thresholdWithoutWeights
  | seedsWithoutProperties
  | seedPropertyMissing (key : String)
  | seedPropertyNotInteger (key : String) (found : NumberType)
  | negativeSeed (key : String) (value : Int64) (slot : Nat)
  | argumentNotNatural (key : String) (value : Json)
  | argumentNotDirection (value : Json)
  | argumentNotText (key : String) (value : Json)
  | argumentNotNumber (key : String) (value : Json)

def Complaint.message : Complaint → String
  | noWorkers => "concurrency must be at least 1"
  | emptyBatches => "batch_size must be at least 1"
  | thresholdNotANumber => "threshold must not be NaN"
  | unnamedSeedProperty => "seed_property must not be empty"
  | tooManyNodes nodeCount =>
    "graph has " ++ Decimal.text nodeCount ++ " nodes, more than the " ++ Decimal.text slotLimit ++
      " supported"
  | thresholdWithoutWeights => "threshold requires a graph with relationship weights"
  | seedsWithoutProperties => "seed_property requires a graph with node properties"
  | seedPropertyMissing key => "seed property '" ++ key ++ "' does not exist"
  | seedPropertyNotInteger key found =>
    "seed property '" ++ key ++ "' must be Integer, found " ++ found.displayName
  | negativeSeed key value slot =>
    "seed property '" ++ key ++ "' has negative value " ++ Decimal.intText value.toInt ++
      " on node " ++ Decimal.text slot
  | argumentNotNatural key value =>
    key ++ " must be a non-negative integer, got " ++ value.toText
  | argumentNotDirection value =>
    "direction must be one of OUTGOING, INCOMING, BOTH, got " ++ value.toText
  | argumentNotText key value => key ++ " must be a string, got " ++ value.toText
  | argumentNotNumber key value => key ++ " must be a number, got " ++ value.toText

/-- Why a run has no result. -/
inductive RunError where
  | configuration (complaint : Complaint)
  | storage (batch : NodeBatch) (fault : StorageFault)
  | worker (batch : NodeBatch) (payload : PanicPayload)
  /-- The workers could not be started. -/
  | executor (message : String)

namespace RunError

def message : RunError → String
  | configuration complaint => "Invalid WCC configuration: " ++ complaint.message
  | storage batch _ => "Storage fault while processing nodes " ++ batch.rangeText
  | worker batch payload => "Worker failed on nodes " ++ batch.rangeText ++ ": " ++ payload.message
  | executor message => "Worker pool unavailable: " ++ message

def ofWorkerFault : WorkerFault → RunError
  | .panicked batch payload => worker batch payload
  | .pool message => executor message

/-- The batch that was being processed when the error arose. -/
def batch? : RunError → Option NodeBatch
  | storage batch _ | worker batch _ => some batch
  | _ => none

def payload? : RunError → Option PanicPayload
  | worker _ payload => some payload
  | _ => none

end RunError

/-- A failure in the chain from the error of a run down to its innermost cause. -/
inductive Link where
  | run (error : RunError)
  | fault (fault : StorageFault)
  | payload (payload : PanicPayload)
  | cause (cause : Cause)

namespace Link

def message : Link → String
  | run error => error.message
  | fault inner => inner.message
  | payload inner => inner.message
  | cause inner => inner.message

def source? : Link → Option Link
  | run (.storage _ inner) => some (fault inner)
  | run (.worker _ inner) => some (payload inner)
  | run _ => none
  | fault outer => outer.cause?.map cause
  | payload outer => outer.error.map cause
  | cause outer => outer.source?.map cause

/-- A bound on the number of failures behind one. -/
def depth : Link → Nat
  | run (.storage _ inner) => inner.cause?.elim 1 fun source ↦ source.depth + 2
  | run (.worker _ inner) => inner.error.elim 1 fun source ↦ source.depth + 2
  | run _ => 0
  | fault outer => outer.cause?.elim 0 fun source ↦ source.depth + 1
  | payload outer => outer.error.elim 0 fun source ↦ source.depth + 1
  | cause outer => outer.depth

theorem depth_lt_of_source? {link next : Link} (h : link.source? = some next) :
    next.depth < link.depth := by
  match link with
  | run (.storage _ inner) =>
    cases h
    cases hcause : inner.cause? <;> simp [depth, hcause]
  | run (.worker _ inner) =>
    cases h
    cases hcause : inner.error <;> simp [depth, hcause]
  | run (.configuration _) | run (.executor _) => simp [source?] at h
  | fault outer =>
    obtain ⟨inner, hcause, rfl⟩ := Option.map_eq_some_iff.mp h
    simp [depth, hcause]
  | payload outer =>
    obtain ⟨inner, hcause, rfl⟩ := Option.map_eq_some_iff.mp h
    simp [depth, hcause]
  | cause outer =>
    obtain ⟨inner, hcause, rfl⟩ := Option.map_eq_some_iff.mp h
    cases outer <;> simp_all [Cause.source?, depth, Cause.depth]

/-- A failure and those behind it, outermost first. -/
def trail (link : Link) : List Link :=
  match _h : link.source? with
  | none => [link]
  | some next => link :: next.trail
termination_by link.depth
decreasing_by exact depth_lt_of_source? _h

def innermost (link : Link) : Link :=
  match _h : link.source? with
  | none => link
  | some next => next.innermost
termination_by link.depth
decreasing_by exact depth_lt_of_source? _h

end Link

namespace RunError

/-- The wordings of an error and the failures behind it, outermost first. -/
def chain (error : RunError) : List String :=
  (Link.run error).trail.map Link.message

/-- The innermost failure behind an error, or the error itself. -/
def rootCause (error : RunError) : Link :=
  (Link.run error).innermost

end RunError

end WeakComponents.Components
