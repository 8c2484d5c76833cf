import WeakComponents.Decimal.Natural
import WeakComponents.Json.Lexeme
import WeakComponents.NodeId

/-!
# Errors of loading a graph

What can go wrong before an algorithm runs: a node that is not loaded, a projection beyond its
limits, an argument or a configuration text that cannot be used.
-/

namespace WeakComponents

inductive EngineError where
  | nodeNotFound (node : NodeId)
  /-- A projection needs more of a resource than it may use. -/
  | limitExceeded (resource : String) (limit : UInt64)
  | invalidArgument (argument : String) (reason : String)
  | configuration (problem : Json.Problem)
  /-- An error of another part, by its text. -/
  | internal (message : String)
deriving DecidableEq

namespace EngineError

def message : EngineError → String
  | nodeNotFound node => "Node " ++ node.text ++ " not found in graph"
  | limitExceeded resource limit =>
    "Projection exceeded " ++ resource ++ " limit of " ++ Decimal.text limit.toNat
  | invalidArgument argument reason => "Argument '" ++ argument ++ "' is invalid: " ++ reason
  | configuration .truncated => "Configuration error: the text ends too early"
  | configuration .malformed => "Configuration error: the text is malformed"
  | configuration .mismatched => "Configuration error: the text has an unexpected value"
  | internal message => "Internal error: " ++ message

/-- The wordings of an error and of its causes, outermost first. -/
def chain (error : EngineError) : List String :=
  match error with
  | internal message => [error.message, message]
  | _ => [error.message]

end EngineError

end WeakComponents
