/-!
# Decimal notation of naturals

Naturals are written with ASCII digits, the most significant first and without leading zeros.
`value_digits` says that the digits written for a number stand for that number.
-/

namespace WeakComponents.Decimal

def digitChar (digit : Nat) : Char :=
  Char.ofNat ('0'.toNat + digit)

/-- The digit that a character stands for, for ASCII digits only. -/
def digit? (c : Char) : Option Nat :=
  if '0' ≤ c ∧ c ≤ '9' then some (c.toNat - '0'.toNat) else none

/-- The digits of a natural, most significant first. -/
def digits (n : Nat) : List Char :=
  if n < 10 then [digitChar n] else digits (n / 10) ++ [digitChar (n % 10)]

/-- The natural that a run of digits stands for; characters that are not digits count as zero. -/
def value (run : List Char) : Nat :=
  run.foldl (fun total c ↦ 10 * total + (digit? c).getD 0) 0

def text (n : Nat) : String :=
  String.ofList (digits n)

def intText (n : Int) : String :=
  if n < 0 then "-" ++ text n.natAbs else text n.natAbs

@[simp]
theorem digit?_digitChar {digit : Nat} (h : digit < 10) : digit? (digitChar digit) = some digit := by
  match digit, h with
  | 0, _ | 1, _ | 2, _ | 3, _ | 4, _ | 5, _ | 6, _ | 7, _ | 8, _ | 9, _ => rfl

@[simp]
theorem value_append_singleton (run : List Char) (c : Char) :
    value (run ++ [c]) = 10 * value run + (digit? c).getD 0 := by
  simp [value]

@[simp]
theorem value_digits (n : Nat) : value (digits n) = n := by
  induction n using Nat.strongRecOn with
  | ind n ih =>
    unfold digits
    split
    · rename_i h
      simp [value, digit?_digitChar h]
    · rename_i h
      rw [value_append_singleton, ih (n / 10) (by omega),
        digit?_digitChar (Nat.mod_lt n (by omega))]
      simp only [Option.getD_some]
      omega

end WeakComponents.Decimal
