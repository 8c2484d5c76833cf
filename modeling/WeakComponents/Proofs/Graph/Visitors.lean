import Mathlib.Data.List.Infix
import WeakComponents.Graph.Reading

/-!
# Visitors

A visitor answers every entry that it receives by whether to go on, and may recall all that it has
received. It receives the entries of a reading in order, up to the first one at which it stops.
Counting entries and searching for one are visits of this kind.
-/

namespace WeakComponents.Reading

variable {α : Type} {answer : List α → α → Bool} {entries received : List α}

/-- The step of a visitor that answers an entry knowing the entries received before it. -/
def visitor (answer : List α → α → Bool) (received : List α) (entry : α) : List α × Bool :=
  (received ++ [entry], answer received entry)

/-- Entries received in order: all of them, or those up to the first that is answered by a stop. -/
structure Receives (answer : List α → α → Bool) (entries received : List α) : Prop where
  is_prefix_of : received <+: entries
  goes_on : ∀ earlier entry, earlier ++ [entry] <+: received → earlier ++ [entry] ≠ received →
    answer earlier entry = true
  stops : received ≠ entries →
    ∃ earlier entry, received = earlier ++ [entry] ∧ answer earlier entry = false

theorem Receives.cons {entry : α} (hanswer : answer [] entry = true)
    (h : Receives (fun earlier ↦ answer (entry :: earlier)) entries received) :
    Receives answer (entry :: entries) (entry :: received) where
  is_prefix_of := List.prefix_cons_inj entry |>.mpr h.is_prefix_of
  goes_on earlier other hbefore hne := by
    cases earlier with
    | nil =>
      obtain rfl : other = entry := by simpa using hbefore
      exact hanswer
    | cons first earlier =>
      rw [List.cons_append] at hbefore hne
      obtain ⟨rfl, hrest⟩ := List.cons_prefix_cons.mp hbefore
      exact h.goes_on earlier other hrest fun heq ↦ hne (congrArg _ heq)
  stops hne := by
    obtain ⟨earlier, other, rfl, hstop⟩ := h.stops fun heq ↦ hne (congrArg _ heq)
    exact ⟨entry :: earlier, other, rfl, hstop⟩

theorem visitEntries_count (entries : List α) (total : UInt32) :
    visitEntries (fun total _ ↦ (total + 1, true)) total entries =
      (total + entries.length.toUInt32, true) := by
  induction entries generalizing total with
  | nil => simp [visitEntries]
  | cons entry rest ih =>
    have hlength : (entry :: rest).length.toUInt32 = rest.length.toUInt32 + 1 := by
      rw [List.length_cons]
      exact UInt32.ofNat_add _ _
    calc
      visitEntries (fun total _ ↦ (total + 1, true)) total (entry :: rest) =
          visitEntries (fun total _ ↦ (total + 1, true)) (total + 1) rest := rfl
      _ = (total + 1 + rest.length.toUInt32, true) := ih (total + 1)
      _ = (total + (entry :: rest).length.toUInt32, true) := by
        rw [hlength, UInt32.add_assoc, UInt32.add_comm 1]

/-- The number of entries is what a visitor that never stops counts. -/
theorem count_eq_ok_some_iff {reading : Reading α} {total : UInt32} :
    reading.count = .ok (some total) ↔
      reading.visit (fun total _ ↦ (total + 1, true)) 0 = (total, none) := by
  unfold count visit
  rw [visitEntries_count, UInt32.zero_add]
  cases reading.interruption with
  | none => simp
  | some interruption => cases interruption <;> simp

theorem toNat_of_count_eq {reading : Reading α} {total : UInt32}
    (hcount : reading.count = .ok (some total)) (hsize : reading.entries.length < UInt32.size) :
    total.toNat = reading.entries.length := by
  obtain ⟨entries, interruption⟩ := reading
  unfold count at hcount
  cases interruption with
  | none =>
    obtain rfl : entries.length.toUInt32 = total := by simpa using hcount
    exact UInt32.toNat_ofNat_of_lt' hsize
  | some interruption => cases interruption <;> simp at hcount

/-- Searching stops at the first entry that is the target, if there is one. -/
theorem visitEntries_search [DecidableEq α] (target : α) (entries : List α) :
    visitEntries (fun _ entry ↦ (decide (entry = target), decide (entry ≠ target))) false entries =
      (decide (target ∈ entries), decide (target ∉ entries)) := by
  induction entries with
  | nil => simp [visitEntries]
  | cons entry rest ih =>
    by_cases hsame : entry = target
    · simp [visitEntries, hsame]
    · simp only [visitEntries, hsame, decide_false, ne_eq, not_false_eq_true, decide_true, ih]
      simp [Ne.symm hsame]

theorem search_complete [DecidableEq α] (target : α) (entries : List α) :
    (complete entries).search target = .ok (decide (target ∈ entries)) := by
  unfold search visit complete
  rw [visitEntries_search]
  by_cases hmem : target ∈ entries
  · simp [hmem]
  · simp [hmem]

theorem search_interrupted [DecidableEq α] (target : α) (interruption : Interruption) :
    (interrupted interruption).search target = .error interruption := rfl

/-- A test that never panics leaves the entries that pass it. -/
theorem filter_eq {keep : α → Except PanicValue Bool} {passes : α → Bool} {reading : Reading α}
    (h : ∀ entry, keep entry = .ok (passes entry)) :
    reading.filter keep = ⟨reading.entries.filter passes, reading.interruption⟩ := by
  obtain ⟨entries, interruption⟩ := reading
  change filterEntries keep interruption entries = _
  induction entries with
  | nil => rfl
  | cons entry rest ih =>
    rw [filterEntries, h, List.filter_cons, ih]
    cases passes entry <;> rfl

end WeakComponents.Reading
