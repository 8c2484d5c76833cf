import WeakComponents.Components.Error
import WeakComponents.Limits

/-!
# Configuration of a run

A configuration says how many workers follow which relationships, where seeds come from, and which
result rows are kept. Arguments given as a JSON object replace single settings; the configuration
they lead to is checked as a whole.
-/

namespace WeakComponents.Components

structure Config where
  concurrency : UInt64
  /-- The fewest nodes of a work batch. -/
  batchSize : UInt64
  direction : Direction
  seedProperty : Option String
  /-- Only relationships with a weight strictly above it are followed. -/
  threshold : Option Float
  /-- Rows of smaller components are left out of the results. -/
  minComponentSize : Option UInt64

namespace Config

def ofLimits (limits : Limits) : Config where
  concurrency := limits.defaultConcurrency
  batchSize := limits.minBatchSize
  direction := .outgoing
  seedProperty := none
  threshold := none
  minComponentSize := none

/-- Finds the first setting that cannot be used. -/
def validate (config : Config) : Except Complaint Unit :=
  if config.concurrency = 0 then .error .noWorkers
  else if config.batchSize = 0 then .error .emptyBatches
  else if config.threshold.any Float.isNaN then .error .thresholdNotANumber
  else if config.seedProperty = some "" then .error .unnamedSeedProperty
  else .ok ()

def naturalArgument (arguments : Json) (key : String) : Except Complaint (Option UInt64) :=
  match arguments.given? key with
  | none => .ok none
  | some value =>
    match value.natural? with
    | some size => .ok (some size)
    | none => .error (.argumentNotNatural key value)

/-- The direction that a text names, in letters of either case. -/
def directionNamed? (name : String) : Option Direction :=
  match name.map Char.toUpper with
  | "OUTGOING" => some .outgoing
  | "INCOMING" => some .incoming
  | "BOTH" => some .both
  | _ => none

def directionArgument (arguments : Json) : Except Complaint (Option Direction) :=
  match arguments.given? "direction" with
  | none => .ok none
  | some value =>
    match value.text?.bind directionNamed? with
    | some direction => .ok (some direction)
    | none => .error (.argumentNotDirection value)

def textArgument (arguments : Json) (key : String) : Except Complaint (Option String) :=
  match arguments.given? key with
  | none => .ok none
  | some value =>
    match value.text? with
    | some text => .ok (some text)
    | none => .error (.argumentNotText key value)

def numberArgument (arguments : Json) (key : String) : Except Complaint (Option Float) :=
  match arguments.given? key with
  | none => .ok none
  | some value =>
    match value.real? with
    | some number => .ok (some number)
    | none => .error (.argumentNotNumber key value)

/--
Applies arguments to a configuration and checks the outcome. An argument that is missing or null
keeps its setting, and so does everything if the arguments are not an object.
-/
def withArguments (config : Config) (arguments : Json) : Except Complaint Config := do
  let concurrency ← naturalArgument arguments "concurrency"
  let batchSize ← naturalArgument arguments "batchSize"
  let minComponentSize ← naturalArgument arguments "minComponentSize"
  let direction ← directionArgument arguments
  let seedProperty ← textArgument arguments "seedProperty"
  let threshold ← numberArgument arguments "threshold"
  let changed : Config :=
    { concurrency := concurrency.getD config.concurrency
      batchSize := batchSize.getD config.batchSize
      direction := direction.getD config.direction
      seedProperty := seedProperty <|> config.seedProperty
      threshold := threshold <|> config.threshold
      minComponentSize := minComponentSize <|> config.minComponentSize }
  changed.validate
  return changed

end Config

end WeakComponents.Components
