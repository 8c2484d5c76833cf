/-!
# Steps that can fail

Steps taken one after the other succeed just if each of them does.
-/

namespace WeakComponents

variable {α β ε : Type}

/-- A step that succeeded hands its value on. -/
@[simp]
theorem ok_bind (value : α) (next : α → Except ε β) : (Except.ok value >>= next) = next value := rfl

/-- Steps that succeed one after the other succeed each. -/
theorem of_bind_eq_ok {first : Except ε α} {next : α → Except ε β} {value : β}
    (h : first >>= next = .ok value) : ∃ found, first = .ok found ∧ next found = .ok value := by
  cases first with
  | error _ => cases h
  | ok found => exact ⟨found, rfl, h⟩

theorem exists_of_mapM_eq_ok {f : α → Except ε β} {entries : List α} {results : List β}
    (h : entries.mapM f = .ok results) {entry : α} (hentry : entry ∈ entries) :
    ∃ result, f entry = .ok result := by
  induction entries generalizing results with
  | nil => cases hentry
  | cons first rest ih =>
    rw [List.mapM_cons] at h
    obtain ⟨value, hfirst, h⟩ := of_bind_eq_ok h
    obtain ⟨values, hrest, _⟩ := of_bind_eq_ok h
    rcases List.mem_cons.mp hentry with rfl | hentry
    · exact ⟨value, hfirst⟩
    · exact ih hrest hentry

theorem mapM_eq_ok {f : α → Except ε β} {g : α → β} {entries : List α}
    (h : ∀ entry ∈ entries, f entry = .ok (g entry)) :
    entries.mapM f = .ok (entries.map g) := by
  induction entries with
  | nil => rfl
  | cons entry rest ih =>
    obtain ⟨hentry, hrest⟩ := List.forall_mem_cons.mp h
    rw [List.mapM_cons, hentry, ih hrest]
    rfl

end WeakComponents
