/-!
# Causes of failures

The errors that a failure of this library can wrap: a bare text, an error of a type that only its
maker knows, or an error that has itself a cause.
-/

namespace WeakComponents

/-- An error that another one wraps. -/
inductive Cause where
  | text (message : String)
  /-- An error of some type, with a value by which those who know the type recognise it. -/
  | typed (message value : String)
  | wrapped (message : String) (source : Cause)
deriving DecidableEq

namespace Cause

def message : Cause → String
  | text message | typed message _ | wrapped message _ => message

def source? : Cause → Option Cause
  | wrapped _ source => some source
  | _ => none

def depth : Cause → Nat
  | wrapped _ source => source.depth + 1
  | _ => 0

end Cause

end WeakComponents
