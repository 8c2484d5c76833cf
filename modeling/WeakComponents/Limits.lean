import WeakComponents.EngineError
import WeakComponents.Json.Printer
import WeakComponents.Json.Reader
import WeakComponents.Slot

/-!
# Limits of loading and running

Four sizes that a configuration text sets for loading a projection and for running on it. Sizes
that the text leaves out take their defaults; the number of workers defaults to what the machine
offers, which the caller supplies.
-/

namespace WeakComponents

/-- Sizes shared by projection loading and algorithm execution. -/
structure Limits where
  maxProjectionMemory : UInt64
  maxVertices : UInt64
  /-- The workers of a run that does not set its own number. -/
  defaultConcurrency : UInt64
  /-- The fewest nodes of a work batch. -/
  minBatchSize : UInt64
deriving DecidableEq

namespace Limits

/-- The limits of an empty configuration on a machine that runs `workers` threads at once. -/
def standard (workers : UInt64) : Limits where
  maxProjectionMemory := 1073741824
  maxVertices := 100000000
  defaultConcurrency := workers
  minBatchSize := 10000

def validate (limits : Limits) : Except EngineError Unit :=
  if limits.defaultConcurrency = 0 then
    .error (.invalidArgument "default_concurrency" "must be at least 1")
  else if limits.minBatchSize = 0 then
    .error (.invalidArgument "min_batch_size" "must be at least 1")
  else if slotLimit < limits.maxVertices.toNat then
    .error (.invalidArgument "max_vertices"
      ("cannot exceed " ++ Decimal.text slotLimit))
  else .ok ()

/-- The names of the limits in a configuration text, in the order of a list. -/
def fieldNames : List String :=
  ["max_projection_memory", "max_vertices", "default_concurrency", "min_batch_size"]

abbrev Fields :=
  List (String × UInt64)

def readFields (document : String) : Except Json.Problem Fields :=
  Json.readDocument (Json.Read.record fieldNames) document

/-- Fills the sizes that a configuration text leaves out. -/
def ofFields (workers : UInt64) (fields : Fields) : Limits where
  maxProjectionMemory :=
    (fields.lookup "max_projection_memory").getD (standard workers).maxProjectionMemory
  maxVertices := (fields.lookup "max_vertices").getD (standard workers).maxVertices
  defaultConcurrency :=
    (fields.lookup "default_concurrency").getD (standard workers).defaultConcurrency
  minBatchSize := (fields.lookup "min_batch_size").getD (standard workers).minBatchSize

/-- Reads a configuration text and checks the limits it sets. -/
def ofJsonText (workers : UInt64) (document : String) : Except EngineError Limits :=
  match readFields document with
  | .error problem => .error (.configuration problem)
  | .ok fields =>
    match (ofFields workers fields).validate with
    | .error error => .error error
    | .ok () => .ok (ofFields workers fields)

def toJson (limits : Limits) : Json :=
  .object
    [("max_projection_memory", .ofUInt64 limits.maxProjectionMemory),
      ("max_vertices", .ofUInt64 limits.maxVertices),
      ("default_concurrency", .ofUInt64 limits.defaultConcurrency),
      ("min_batch_size", .ofUInt64 limits.minBatchSize)]

end Limits

end WeakComponents
