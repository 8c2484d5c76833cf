import WeakComponents.Components.Error

/-!
# Causes of errors

Behind the error of a run stands the fault or the payload it was made of, as it was, and behind
this the chain of its causes, which ends in the innermost one.
-/

namespace WeakComponents

/-- The cause at the end of the chain that starts with a cause. -/
def Cause.innermost : Cause → Cause
  | .wrapped _ source => source.innermost
  | cause => cause

theorem Cause.source?_innermost (cause : Cause) : cause.innermost.source? = none := by
  induction cause with
  | wrapped _ _ ih => exact ih
  | text _ => rfl
  | typed _ _ => rfl

/-- The value that a payload was made of, unless it has been taken out. -/
def PanicPayload.value? (payload : PanicPayload) : Option PanicValue :=
  payload.retained <|> payload.error.map .error

/-- A payload loses nothing of the value that it is made of. -/
theorem PanicPayload.value?_ofValue (value : PanicValue) :
    (ofValue value).value? = some value := by
  cases value <;> rfl

namespace Components

namespace Link

variable {link next : Link}

theorem innermost_of_source?_eq_none (h : link.source? = none) : link.innermost = link := by
  rw [innermost]
  split
  · rfl
  · rename_i hsome
    simp [h] at hsome

theorem innermost_of_source?_eq_some (h : link.source? = some next) :
    link.innermost = next.innermost := by
  rw [innermost]
  split
  · rename_i hnone
    simp [h] at hnone
  · rename_i found hfound
    rw [h] at hfound
    rw [Option.some.inj hfound]

theorem innermost_cause (inner : Cause) : (cause inner).innermost = cause inner.innermost := by
  induction inner with
  | text _ => exact innermost_of_source?_eq_none rfl
  | typed _ _ => exact innermost_of_source?_eq_none rfl
  | wrapped _ source ih => exact (innermost_of_source?_eq_some rfl).trans ih

/-- Behind a failure stands its innermost cause, or the failure itself if it has none. -/
def endOf (failure : Link) (cause? : Option Cause) : Link :=
  cause?.elim failure fun inner ↦ cause inner.innermost

theorem innermost_eq_endOf {cause? : Option Cause} (h : link.source? = cause?.map cause) :
    link.innermost = endOf link cause? := by
  cases cause? with
  | none => exact innermost_of_source?_eq_none h
  | some inner => exact (innermost_of_source?_eq_some h).trans (innermost_cause inner)

theorem source?_endOf {cause? : Option Cause} (h : link.source? = cause?.map cause) :
    (endOf link cause?).source? = none := by
  cases cause? with
  | none => exact h
  | some inner => exact congrArg (Option.map cause) inner.source?_innermost

end Link

namespace RunError

/-- The error of a run in which reading a node of a batch was interrupted. -/
def ofInterruption (batch : NodeBatch) : Interruption → RunError
  | .fault fault => storage batch fault
  | .panic value => worker batch (.ofValue value)

/-- An error names a batch, keeps a fault or the value of a panic as it was, and leads to the
innermost cause of either. -/
structure Carries (error : RunError) (batch : NodeBatch) (interruption : Interruption) : Prop where
  batch?_eq : error.batch? = some batch
  of_fault : ∀ fault, interruption = .fault fault →
    error = storage batch fault ∧ error.rootCause = .endOf (.fault fault) fault.cause?
  of_panic : ∀ value, interruption = .panic value →
    ∃ payload : PanicPayload, error = worker batch payload ∧ payload = .ofValue value ∧
      payload.value? = some value ∧ error.rootCause = .endOf (.payload payload) payload.error
  source?_rootCause : error.rootCause.source? = none

theorem rootCause_storage (batch : NodeBatch) (fault : StorageFault) :
    (storage batch fault).rootCause = .endOf (.fault fault) fault.cause? :=
  (Link.innermost_of_source?_eq_some rfl).trans (Link.innermost_eq_endOf rfl)

theorem rootCause_worker (batch : NodeBatch) (payload : PanicPayload) :
    (worker batch payload).rootCause = .endOf (.payload payload) payload.error :=
  (Link.innermost_of_source?_eq_some rfl).trans (Link.innermost_eq_endOf rfl)

theorem carries_ofInterruption (batch : NodeBatch) (interruption : Interruption) :
    (ofInterruption batch interruption).Carries batch interruption where
  batch?_eq := by cases interruption <;> rfl
  of_fault := by
    rintro fault rfl
    exact ⟨rfl, rootCause_storage batch fault⟩
  of_panic := by
    rintro value rfl
    exact ⟨_, rfl, rfl, PanicPayload.value?_ofValue value, rootCause_worker batch _⟩
  source?_rootCause := by
    cases interruption with
    | fault fault =>
      exact rootCause_storage batch fault ▸ Link.source?_endOf rfl
    | panic value =>
      exact rootCause_worker batch (.ofValue value) ▸ Link.source?_endOf rfl

end RunError

end Components

end WeakComponents
