/-!
# Phases of a run

A run is prepared, works through its batches, and ends either with settled components or with a
failure. It keeps a record of the phases it has been in.
-/

namespace WeakComponents.Components

/-- Where a run stands. -/
inductive Phase where
  /-- The configuration is accepted and the batches are cut. -/
  | initialized
  | running
  /-- Every batch is done and the components are settled. -/
  | completed
  | failed
deriving DecidableEq

def Phase.canAdvanceTo (current next : Phase) : Bool :=
  match current, next with
  | initialized, running => true
  | running, completed => true
  | running, failed => true
  | _, _ => false

/-- The phase a run is in, and those it has been in, the latest in front. -/
structure Lifecycle where
  current : Phase
  past : List Phase

namespace Lifecycle

def initial : Lifecycle := ⟨.initialized, []⟩

def advance (lifecycle : Lifecycle) (next : Phase) : Lifecycle :=
  ⟨next, lifecycle.current :: lifecycle.past⟩

end Lifecycle

end WeakComponents.Components
