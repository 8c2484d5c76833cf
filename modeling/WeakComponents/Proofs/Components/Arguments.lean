import WeakComponents.Components.Config
import WeakComponents.Proofs.Outcomes

/-!
# Arguments applied one after the other

Reading arguments does not look at the configuration they are applied to. What they give replaces
settings, and where two values are applied in turn the later one counts. So two applications are
one application of both values combined, with the same outcome down to the error.
-/

namespace WeakComponents.Components

/-- The names of the arguments that are looked at, in ascending order. -/
def argumentNames : List String :=
  ["batchSize", "concurrency", "direction", "minComponentSize", "seedProperty", "threshold"]

/-- A value gives each argument as `later` does, or as `earlier` does if `later` gives none. -/
def Combines (earlier later both : Json) : Prop :=
  ∀ name ∈ argumentNames, both.get? name = (later.given? name <|> earlier.get? name)

/-- The object of the arguments that `later` gives and of those that only `earlier` has. -/
def combined (earlier later : Json) : Json :=
  .object (argumentNames.filterMap fun name ↦
    (later.given? name <|> earlier.get? name).map fun value ↦ (name, value))

/-- No argument that is looked at is given: each is missing or null. -/
def GivesNothing (arguments : Json) : Prop :=
  ∀ members, arguments = .object members →
    ∀ name ∈ argumentNames, members.lookup name = none ∨ members.lookup name = some .null

variable {α : Type} {earlier later both : Json} {name : String}

theorem lookup_filterMap_named (value? : String → Option α) (names : List String) (name : String) :
    (names.filterMap fun name ↦ (value? name).map fun value ↦ (name, value)).lookup name =
      if name ∈ names then value? name else none := by
  induction names with
  | nil => rfl
  | cons first rest ih =>
    rw [List.filterMap_cons]
    by_cases hname : name = first
    · subst hname
      cases hvalue : value? name with
      | none => simp [ih, hvalue]
      | some value => simp
    · cases hvalue : value? first with
      | none => simp [ih, hname]
      | some value => simp [ih, hname, List.lookup_cons, beq_false_of_ne hname]

theorem combines_combined (earlier later : Json) :
    Combines earlier later (combined earlier later) := by
  intro name hname
  refine (lookup_filterMap_named _ argumentNames name).trans ?_
  rw [if_pos hname]

theorem given?_eq_none_iff {value : Json} :
    value.given? name = none ↔ value.get? name = none ∨ value.get? name = some .null := by
  unfold Json.given?
  split <;> simp_all

theorem given?_eq_some_iff {value member : Json} :
    value.given? name = some member ↔ value.get? name = some member ∧ member ≠ .null := by
  unfold Json.given?
  split
  · simp_all
  · simp_all
  · rename_i other hnull hother
    simp_all
    rintro rfl rfl
    simp_all

theorem Combines.given?_eq (h : Combines earlier later both) (hname : name ∈ argumentNames) :
    both.given? name = (later.given? name <|> earlier.given? name) := by
  have hget := h name hname
  cases hlater : later.given? name with
  | none =>
    rw [hlater] at hget
    unfold Json.given?
    rw [hget]
    rfl
  | some member =>
    rw [hlater] at hget
    exact given?_eq_some_iff.mpr ⟨hget, (given?_eq_some_iff.mp hlater).2⟩

theorem combines_self (arguments : Json) : Combines arguments arguments arguments := by
  intro name _
  cases hgiven : arguments.given? name with
  | none => rfl
  | some member => exact (given?_eq_some_iff.mp hgiven).1

theorem GivesNothing.given?_eq_none {arguments : Json} (h : GivesNothing arguments)
    (hname : name ∈ argumentNames) : arguments.given? name = none := by
  rw [given?_eq_none_iff]
  cases arguments with
  | object members => exact h members rfl name hname
  | null | bool _ | number _ | text _ | list _ => exact .inl rfl

namespace Config

/-- What the argument under a name is in a view of it; a complaint if it is nothing there. -/
def argument (name : String) (view? : Json → Option α) (complaint : Json → Complaint)
    (arguments : Json) : Except Complaint (Option α) :=
  match arguments.given? name with
  | none => .ok none
  | some value =>
    match view? value with
    | some found => .ok (some found)
    | none => .error (complaint value)

theorem naturalArgument_eq (arguments : Json) (key : String) :
    naturalArgument arguments key =
      argument key Json.natural? (.argumentNotNatural key) arguments := by
  unfold naturalArgument argument
  cases arguments.given? key with
  | none => rfl
  | some value => dsimp only; cases value.natural? <;> rfl

theorem directionArgument_eq (arguments : Json) :
    directionArgument arguments = argument "direction"
      (fun value ↦ value.text?.bind directionNamed?) .argumentNotDirection arguments := by
  unfold directionArgument argument
  cases arguments.given? "direction" with
  | none => rfl
  | some value => dsimp only; cases value.text?.bind directionNamed? <;> rfl

theorem textArgument_eq (arguments : Json) (key : String) :
    textArgument arguments key = argument key Json.text? (.argumentNotText key) arguments := by
  unfold textArgument argument
  cases arguments.given? key with
  | none => rfl
  | some value => dsimp only; cases value.text? <;> rfl

theorem numberArgument_eq (arguments : Json) (key : String) :
    numberArgument arguments key =
      argument key Json.real? (.argumentNotNumber key) arguments := by
  unfold numberArgument argument
  cases arguments.given? key with
  | none => rfl
  | some value => dsimp only; cases value.real? <;> rfl

section

variable {view? : Json → Option α} {complaint : Json → Complaint}

theorem argument_eq_none {arguments : Json} (h : arguments.given? name = none) :
    argument name view? complaint arguments = .ok none := by
  rw [argument, h]

/-- Behind an earlier argument that can be read, reading ends as it does on the later one. -/
theorem argument_eq_of_combines {found : Option α} (h : Combines earlier later both)
    (hname : name ∈ argumentNames)
    (hearlier : argument name view? complaint earlier = .ok found) :
    argument name view? complaint both =
      (· <|> found) <$> argument name view? complaint later := by
  unfold argument at hearlier ⊢
  rw [h.given?_eq hname]
  cases later.given? name with
  | none => exact hearlier
  | some value =>
    dsimp only [Option.orElse_eq_orElse, Option.orElse_some]
    cases view? value <;> rfl

end

/-- The settings that arguments replace. -/
structure Changes where
  concurrency : Option UInt64
  batchSize : Option UInt64
  minComponentSize : Option UInt64
  direction : Option Direction
  seedProperty : Option String
  threshold : Option Float

namespace Changes

/-- Reads what arguments replace, up to the first one that cannot be read. -/
def read (arguments : Json) : Except Complaint Changes := do
  let concurrency ← naturalArgument arguments "concurrency"
  let batchSize ← naturalArgument arguments "batchSize"
  let minComponentSize ← naturalArgument arguments "minComponentSize"
  let direction ← directionArgument arguments
  let seedProperty ← textArgument arguments "seedProperty"
  let threshold ← numberArgument arguments "threshold"
  return ⟨concurrency, batchSize, minComponentSize, direction, seedProperty, threshold⟩

/-- The settings after changes. -/
def applyTo (changes : Changes) (config : Config) : Config where
  concurrency := changes.concurrency.getD config.concurrency
  batchSize := changes.batchSize.getD config.batchSize
  direction := changes.direction.getD config.direction
  seedProperty := changes.seedProperty <|> config.seedProperty
  threshold := changes.threshold <|> config.threshold
  minComponentSize := changes.minComponentSize <|> config.minComponentSize

/-- The changes of which those in `later` count where both are given. -/
def followedBy (changes later : Changes) : Changes where
  concurrency := later.concurrency <|> changes.concurrency
  batchSize := later.batchSize <|> changes.batchSize
  minComponentSize := later.minComponentSize <|> changes.minComponentSize
  direction := later.direction <|> changes.direction
  seedProperty := later.seedProperty <|> changes.seedProperty
  threshold := later.threshold <|> changes.threshold

theorem applyTo_followedBy (changes later : Changes) (config : Config) :
    (changes.followedBy later).applyTo config = later.applyTo (changes.applyTo config) := by
  obtain ⟨_ | _, _ | _, _ | _, _ | _, _ | _, _ | _⟩ := later <;> rfl

theorem read_eq (arguments : Json) :
    read arguments = do
      let concurrency ← argument "concurrency" Json.natural?
        (.argumentNotNatural "concurrency") arguments
      let batchSize ← argument "batchSize" Json.natural? (.argumentNotNatural "batchSize") arguments
      let minComponentSize ← argument "minComponentSize" Json.natural?
        (.argumentNotNatural "minComponentSize") arguments
      let direction ← argument "direction" (fun value ↦ value.text?.bind directionNamed?)
        .argumentNotDirection arguments
      let seedProperty ← argument "seedProperty" Json.text? (.argumentNotText "seedProperty")
        arguments
      let threshold ← argument "threshold" Json.real? (.argumentNotNumber "threshold") arguments
      return ⟨concurrency, batchSize, minComponentSize, direction, seedProperty, threshold⟩ := by
  unfold read
  simp only [naturalArgument_eq, directionArgument_eq, textArgument_eq, numberArgument_eq]

/-- Behind earlier arguments that can be read, the later ones decide how reading ends. -/
theorem read_eq_of_combines {changes : Changes} (h : Combines earlier later both)
    (hearlier : read earlier = .ok changes) :
    read both = changes.followedBy <$> read later := by
  rw [read_eq] at hearlier
  obtain ⟨_, hconcurrency, hearlier⟩ := of_bind_eq_ok hearlier
  obtain ⟨_, hbatchSize, hearlier⟩ := of_bind_eq_ok hearlier
  obtain ⟨_, hminComponentSize, hearlier⟩ := of_bind_eq_ok hearlier
  obtain ⟨_, hdirection, hearlier⟩ := of_bind_eq_ok hearlier
  obtain ⟨_, hseedProperty, hearlier⟩ := of_bind_eq_ok hearlier
  obtain ⟨_, hthreshold, hearlier⟩ := of_bind_eq_ok hearlier
  obtain rfl := Except.ok.inj hearlier
  rw [read_eq, read_eq, argument_eq_of_combines h (by decide) hconcurrency,
    argument_eq_of_combines h (by decide) hbatchSize,
    argument_eq_of_combines h (by decide) hminComponentSize,
    argument_eq_of_combines h (by decide) hdirection,
    argument_eq_of_combines h (by decide) hseedProperty,
    argument_eq_of_combines h (by decide) hthreshold]
  simp only [map_eq_pure_bind, bind_assoc, pure_bind, followedBy]

theorem read_eq_of_givesNothing {arguments : Json} (h : GivesNothing arguments) :
    read arguments = .ok ⟨none, none, none, none, none, none⟩ := by
  rw [read_eq, argument_eq_none (h.given?_eq_none (by decide)),
    argument_eq_none (h.given?_eq_none (by decide)),
    argument_eq_none (h.given?_eq_none (by decide)),
    argument_eq_none (h.given?_eq_none (by decide)),
    argument_eq_none (h.given?_eq_none (by decide)),
    argument_eq_none (h.given?_eq_none (by decide))]
  rfl

end Changes

/-- Applying arguments reads them and checks the settings they lead to. -/
theorem withArguments_eq (config : Config) (arguments : Json) :
    config.withArguments arguments = do
      let changes ← Changes.read arguments
      (changes.applyTo config).validate
      return changes.applyTo config := by
  unfold withArguments Changes.read
  simp only [bind_assoc, pure_bind]
  rfl

theorem of_withArguments_eq_ok {config changed : Config} {arguments : Json}
    (h : config.withArguments arguments = .ok changed) :
    changed.validate = .ok () ∧
      ∃ changes, Changes.read arguments = .ok changes ∧ changed = changes.applyTo config := by
  rw [withArguments_eq] at h
  obtain ⟨changes, hread, h⟩ := of_bind_eq_ok h
  obtain ⟨_, hvalid, h⟩ := of_bind_eq_ok h
  obtain rfl := Except.ok.inj h
  exact ⟨hvalid, changes, hread, rfl⟩

theorem withArguments_withArguments {config changed : Config} (h : Combines earlier later both)
    (hearlier : config.withArguments earlier = .ok changed) :
    changed.withArguments later = config.withArguments both := by
  obtain ⟨_, changes, hread, rfl⟩ := of_withArguments_eq_ok hearlier
  rw [withArguments_eq, withArguments_eq, Changes.read_eq_of_combines h hread]
  simp only [map_eq_pure_bind, bind_assoc, pure_bind, Changes.applyTo_followedBy]

theorem withArguments_of_givesNothing {config : Config} {arguments : Json}
    (hvalid : config.validate = .ok ()) (h : GivesNothing arguments) :
    config.withArguments arguments = .ok config := by
  have hsame : Changes.applyTo ⟨none, none, none, none, none, none⟩ config = config := rfl
  rw [withArguments_eq, Changes.read_eq_of_givesNothing h]
  change (do (Changes.applyTo _ config).validate; return Changes.applyTo _ config) = _
  rw [hsame, hvalid]
  rfl

/--
Arguments lead to a configuration that passes its own check. Applying more arguments to it ends as
applying both values combined does, with the same settings or the same error; so arguments applied
twice do what they do once. Arguments that give nothing leave a valid configuration as it is.
-/
theorem withArguments_composes (config : Config) (earlier : Json) :
    (∀ changed, config.withArguments earlier = .ok changed →
      changed.validate = .ok () ∧
      ∀ later both, Combines earlier later both →
        changed.withArguments later = config.withArguments both) ∧
    (∀ later, Combines earlier later (combined earlier later)) ∧
    (config.withArguments earlier >>= fun changed ↦ changed.withArguments earlier) =
      config.withArguments earlier ∧
    (config.validate = .ok () → GivesNothing earlier →
      config.withArguments earlier = .ok config) := by
  refine ⟨fun changed hchanged ↦ ⟨(of_withArguments_eq_ok hchanged).1, fun later both h ↦ ?_⟩,
    combines_combined earlier, ?_, withArguments_of_givesNothing⟩
  · exact withArguments_withArguments h hchanged
  · cases hchanged : config.withArguments earlier with
    | error complaint => rfl
    | ok changed =>
      exact (withArguments_withArguments (combines_self earlier) hchanged).trans hchanged

/-- A later batch size of zero is refused, whether it is given behind other arguments or with them,
and a null argument changes nothing. -/
theorem withArguments_composes_of_emptyBatches :
    ∃ changed,
      withArguments ⟨4, 10, .outgoing, none, none, none⟩
        (.object [("concurrency", .ofUInt64 2), ("threshold", .null)]) = .ok changed ∧
      changed.withArguments (.object [("batchSize", .ofUInt64 0), ("seedProperty", .text "")]) =
        .error .emptyBatches ∧
      withArguments ⟨4, 10, .outgoing, none, none, none⟩
        (combined (.object [("concurrency", .ofUInt64 2), ("threshold", .null)])
          (.object [("batchSize", .ofUInt64 0), ("seedProperty", .text "")])) =
            .error .emptyBatches ∧
      changed.withArguments (.object [("direction", .null)]) = .ok changed := by
  have hearlier : withArguments ⟨4, 10, .outgoing, none, none, none⟩
      (.object [("concurrency", .ofUInt64 2), ("threshold", .null)]) =
        .ok ⟨2, 10, .outgoing, none, none, none⟩ := rfl
  have hlater : withArguments ⟨2, 10, .outgoing, none, none, none⟩
      (.object [("batchSize", .ofUInt64 0), ("seedProperty", .text "")]) =
        .error .emptyBatches := rfl
  obtain ⟨happlied, hcombines, _⟩ := withArguments_composes ⟨4, 10, .outgoing, none, none, none⟩
    (.object [("concurrency", .ofUInt64 2), ("threshold", .null)])
  obtain ⟨hvalid, hsame⟩ := happlied _ hearlier
  have hnothing : GivesNothing (.object [("direction", .null)]) := by
    rintro _ ⟨⟩ name _
    by_cases hname : name = "direction"
    · exact .inr (by rw [hname]; rfl)
    · exact .inl (by rw [List.lookup_cons, beq_false_of_ne hname]; rfl)
  obtain ⟨_, _, _, hneutral⟩ := withArguments_composes ⟨2, 10, .outgoing, none, none, none⟩
    (.object [("direction", .null)])
  exact ⟨_, hearlier, hlater, (hsame _ _ (hcombines _)).symm.trans hlater,
    hneutral hvalid hnothing⟩

end Config

end WeakComponents.Components
