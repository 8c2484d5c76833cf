/-!
# Directions

The side of a relationship from which an algorithm follows it.
-/

namespace WeakComponents

inductive Direction where
  | outgoing
  | incoming
  /-- Outgoing ones, then incoming ones. -/
  | both
deriving DecidableEq

def Direction.name : Direction → String
  | outgoing => "Outgoing"
  | incoming => "Incoming"
  | both => "Both"

end WeakComponents
