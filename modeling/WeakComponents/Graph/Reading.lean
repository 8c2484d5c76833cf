import WeakComponents.Failure.Storage

/-!
# Reading the relationships of a node

A reading is what one traversal of a node delivers: entries in order, and the interruption that
ends it if it does not complete. Whoever reads passes a step that acts on a state and says whether
to go on; a step that stops ends the traversal well.
-/

namespace WeakComponents

/-- The entries that a traversal delivers, and what interrupts it after them, if anything. -/
structure Reading (α : Type) where
  entries : List α
  interruption : Option Interruption

namespace Reading

variable {α β σ : Type}

def complete (entries : List α) : Reading α :=
  ⟨entries, none⟩

def interrupted (interruption : Interruption) : Reading α :=
  ⟨[], some interruption⟩

def map (f : α → β) (reading : Reading α) : Reading β :=
  ⟨reading.entries.map f, reading.interruption⟩

/-- The entries that pass a test, up to an entry on which the test itself panics. -/
def filterEntries (keep : α → Except PanicValue Bool) (interruption : Option Interruption) :
    List α → Reading α
  | [] => ⟨[], interruption⟩
  | entry :: rest =>
    match keep entry with
    | .error value => interrupted (.panic value)
    | .ok false => filterEntries keep interruption rest
    | .ok true =>
      let kept := filterEntries keep interruption rest
      ⟨entry :: kept.entries, kept.interruption⟩

def filter (reading : Reading α) (keep : α → Except PanicValue Bool) : Reading α :=
  filterEntries keep reading.interruption reading.entries

/-- Takes steps over a list until one stops; the flag says whether none did. -/
def visitEntries (step : σ → α → σ × Bool) (state : σ) : List α → σ × Bool
  | [] => (state, true)
  | entry :: rest =>
    match step state entry with
    | (state, true) => visitEntries step state rest
    | (state, false) => (state, false)

/-- Takes steps over a reading. A reading that no step stops may end with its interruption. -/
def visit (reading : Reading α) (step : σ → α → σ × Bool) (state : σ) :
    σ × Option Interruption :=
  match visitEntries step state reading.entries with
  | (state, true) => (state, reading.interruption)
  | (state, false) => (state, none)

/-- The number of entries in 32 bits; none if a fault interrupts the reading. -/
def count (reading : Reading α) : Except PanicValue (Option UInt32) :=
  match reading.interruption with
  | none => .ok (some reading.entries.length.toUInt32)
  | some (.fault _) => .ok none
  | some (.panic value) => .error value

/-- Whether `target` is delivered; reading stops as soon as it is. -/
def search [DecidableEq α] (reading : Reading α) (target : α) : Except Interruption Bool :=
  match reading.visit (fun _ entry ↦ (decide (entry = target), decide (entry ≠ target))) false with
  | (found, none) => .ok found
  | (_, some interruption) => .error interruption

end Reading

end WeakComponents
