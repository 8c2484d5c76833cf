import Mathlib.Data.List.Basic
import Mathlib.Data.List.Induction
import WeakComponents.Decimal.Natural

/-!
# Runs of digits

The value of a run of digits grows with every digit that is appended. What is written for a natural
consists of digits only, and begins with a zero only for zero itself.
-/

namespace WeakComponents.Decimal

variable {n : ℕ} {c : Char} {run : List Char}

theorem isSome_digit? (c : Char) : (digit? c).isSome = c.isDigit := by
  rw [Bool.eq_iff_iff, digit?, Char.isDigit, Bool.and_eq_true, decide_eq_true_iff,
    decide_eq_true_iff]
  split
  · rename_i hdigit
    exact iff_of_true rfl hdigit
  · rename_i hdigit
    exact iff_of_false Bool.false_ne_true hdigit

theorem digit?_eq_none_iff : digit? c = none ↔ c.isDigit = false := by
  rw [← isSome_digit?, Option.isSome_eq_false_iff, Option.isNone_iff_eq_none]

theorem isDigit_of_digit?_eq_some {digit : ℕ} (h : digit? c = some digit) : c.isDigit = true := by
  rw [← isSome_digit?, h, Option.isSome_some]

theorem exists_digit?_eq_some (h : c.isDigit = true) : ∃ digit, digit? c = some digit := by
  rwa [← isSome_digit?, Option.isSome_iff_exists] at h

/-- A nonempty run of ASCII digits. -/
def IsNumeral (run : List Char) : Prop :=
  run ≠ [] ∧ ∀ c ∈ run, c.isDigit = true

theorem value_append_digit {digit : ℕ} (h : digit? c = some digit) (run : List Char) :
    value (run ++ [c]) = 10 * value run + digit := by
  rw [value_append_singleton, h, Option.getD_some]

/-- Further digits never lower the value. -/
theorem value_le_value_append (run more : List Char) : value run ≤ value (run ++ more) := by
  induction more using List.reverseRecOn with
  | nil => simp
  | append_singleton more c ih =>
    rw [← List.append_assoc, value_append_singleton]
    omega

theorem digits_of_lt (h : n < 10) : digits n = [digitChar n] := by
  rw [digits, if_pos h]

theorem isNumeral_digits (n : ℕ) : IsNumeral (digits n) := by
  induction n using Nat.strongRecOn with
  | ind n ih =>
    have hchar {digit : ℕ} (h : digit < 10) : (digitChar digit).isDigit = true :=
      isDigit_of_digit?_eq_some (digit?_digitChar h)
    rw [digits]
    split
    · rename_i hsmall
      refine ⟨List.cons_ne_nil _ _, fun c hc ↦ ?_⟩
      rw [List.mem_singleton.mp hc]
      exact hchar hsmall
    · refine ⟨List.append_ne_nil_of_right_ne_nil _ (List.cons_ne_nil _ _), fun c hc ↦ ?_⟩
      rcases List.mem_append.mp hc with hc | hc
      · exact (ih (n / 10) (by omega)).2 c hc
      · rw [List.mem_singleton.mp hc]
        exact hchar (Nat.mod_lt n (by omega))

theorem head?_digits_ne_zero (h : n ≠ 0) : (digits n).head? ≠ some '0' := by
  induction n using Nat.strongRecOn with
  | ind n ih =>
    rw [digits]
    split
    · rename_i hsmall
      intro hzero
      have hdigit : digit? '0' = some n := by
        rw [← digit?_digitChar hsmall, Option.some.inj hzero]
      exact h (Option.some.inj hdigit).symm
    · rw [List.head?_append_of_ne_nil _ (isNumeral_digits _).1]
      exact ih (n / 10) (by omega) (by omega)

end WeakComponents.Decimal
