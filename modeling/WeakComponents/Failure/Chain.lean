import WeakComponents.Failure.Storage

/-!
# Chains of causes

A failure is reported with its own wording followed by the wordings of the failures behind it,
down to the innermost one.
-/

namespace WeakComponents

/-- The wordings of an error and its causes, outermost first. -/
def Cause.chain : Cause → List String
  | .wrapped message source => message :: source.chain
  | cause => [cause.message]

def Cause.chainOf? : Option Cause → List String
  | none => []
  | some cause => cause.chain

def StorageFault.chain (fault : StorageFault) : List String :=
  fault.message :: Cause.chainOf? fault.cause?

def PanicPayload.chain (payload : PanicPayload) : List String :=
  payload.message :: Cause.chainOf? payload.error

def WorkerFault.chain (fault : WorkerFault) : List String :=
  match fault with
  | .panicked _ payload => fault.message :: payload.chain
  | .pool message => [fault.message, message]

end WeakComponents
