import WeakComponents.Failure.Cause
import WeakComponents.NodeBatch
import WeakComponents.Text.Quoted

/-!
# Panics

A task that panics leaves a value behind. The payload made of it keeps a message, the wrapped
error if the value is one, and otherwise the value itself, which can be taken out once by whoever
knows its type.
-/

namespace WeakComponents

/-- A value that a task panics with. -/
inductive PanicValue where
  /-- A text fixed in the program. -/
  | fixed (message : String)
  /-- A text put together for the occasion. -/
  | composed (message : String)
  | error (cause : Cause)
  /-- A value of a type that only its maker knows. -/
  | marker (label : String)
deriving DecidableEq

namespace PanicValue

def fixed? : PanicValue → Option String
  | fixed message => some message
  | _ => none

def composed? : PanicValue → Option String
  | composed message => some message
  | _ => none

def marker? : PanicValue → Option String
  | marker label => some label
  | _ => none

end PanicValue

/-- What is known of a panic after it was caught. -/
structure PanicPayload where
  message : String
  error : Option Cause
  /-- The value, unless it was an error or has been taken. -/
  retained : Option PanicValue
deriving DecidableEq

namespace PanicPayload

/-- The message of a value that is neither a text nor an error. -/
def unknownMessage : String := "non-string panic payload"

def ofValue : PanicValue → PanicPayload
  | .error cause => ⟨cause.message, some cause, none⟩
  | .fixed message => ⟨message, none, some (.fixed message)⟩
  | .composed message => ⟨message, none, some (.composed message)⟩
  | .marker label => ⟨unknownMessage, none, some (.marker label)⟩

def holds {α : Type} (payload : PanicPayload) (select : PanicValue → Option α) : Bool :=
  (payload.retained.bind select).isSome

/-- Takes the retained value out if `select` recognises it; any other value stays. -/
def take {α : Type} (payload : PanicPayload) (select : PanicValue → Option α) :
    Option α × PanicPayload :=
  match payload.retained.bind select with
  | some value => (some value, { payload with retained := none })
  | none => (none, payload)

/-- The text of a payload in a diagnostic, in which `describe` gives the text of an error. -/
def debugText (describe : Cause → String) (payload : PanicPayload) : String :=
  let error := payload.error.elim "None" fun cause ↦ "Some(" ++ describe cause ++ ")"
  "PanicPayload \x7b message: " ++ Text.quoted payload.message ++ ", error: " ++ error ++
    ", .. \x7d"

end PanicPayload

/-- A failure that a pool of workers raises itself. -/
inductive WorkerFault where
  | panicked (batch : NodeBatch) (payload : PanicPayload)
  | pool (message : String)
deriving DecidableEq

def NodeBatch.rangeText (batch : NodeBatch) : String :=
  Decimal.text batch.start.toNat ++ ".." ++ Decimal.text batch.stop.toNat

def WorkerFault.message : WorkerFault → String
  | panicked batch payload =>
    "Worker panicked while processing nodes " ++ batch.rangeText ++ ": " ++ payload.message
  | pool message => "Failed to start worker pool: " ++ message

end WeakComponents
