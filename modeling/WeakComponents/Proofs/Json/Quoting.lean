import Mathlib.Tactic.IntervalCases
import WeakComponents.Json.Lexeme
import WeakComponents.Json.Printer
import WeakComponents.Proofs.Outcomes

/-!
# Quoted text

A text value is written with escapes for the characters that could not stand between quotation
marks, and read back character by character. Whatever a text contains, and whatever follows it in
the document, reading gives the text and leaves what follows.
-/

namespace WeakComponents.Json

/-- A reader takes a value from the front of a document if it is written there, whatever follows. -/
def Reads {α : Type} (reader : Reader α) (written : List Char) (value : α) : Prop :=
  ∀ rest, reader (written ++ rest) = .ok (value, rest)

namespace Read

theorem hexDigit?_hexDigit {digit : ℕ} (h : digit < 16) :
    hexDigit? (hexDigit digit) = some digit := by
  interval_cases digit <;> rfl

/-- The digits that a control character is escaped with. -/
theorem reads_hexUnit {number : ℕ} (h : number < 0x100) :
    Reads hexUnit ['0', '0', hexDigit (number / 16), hexDigit (number % 16)] number := by
  intro rest
  have hhigh : hexDigit? (hexDigit (number / 16)) = some (number / 16) :=
    hexDigit?_hexDigit (by omega)
  have hlow : hexDigit? (hexDigit (number % 16)) = some (number % 16) :=
    hexDigit?_hexDigit (by omega)
  have hdigits : ['0', '0', hexDigit (number / 16), hexDigit (number % 16)].mapM hexDigit? =
      some [0, 0, number / 16, number % 16] := by
    have hzero : hexDigit? '0' = some 0 := rfl
    simp [hzero, hhigh, hlow]
  have htake : (['0', '0', hexDigit (number / 16), hexDigit (number % 16)] ++ rest).take 4 =
      ['0', '0', hexDigit (number / 16), hexDigit (number % 16)] := List.take_left' rfl
  unfold hexUnit
  rw [htake, hdigits]
  change Except.ok (((0 * 16 + 0) * 16 + number / 16) * 16 + number % 16, rest) = _
  rw [show ((0 * 16 + 0) * 16 + number / 16) * 16 + number % 16 = number by omega]

theorem reads_unicodeEscape {c : Char} (h : c.toNat < 0x20) :
    Reads unicodeEscape ['0', '0', hexDigit (c.toNat / 16), hexDigit (c.toNat % 16)] c := by
  intro rest
  have hunit := reads_hexUnit (by omega : c.toNat < 0x100) rest
  have htrailing : ¬ (0xDC00 ≤ c.toNat ∧ c.toNat ≤ 0xDFFF) := by omega
  have hbasic : c.toNat < 0xD800 ∨ 0xDBFF < c.toNat := by omega
  unfold unicodeEscape
  rw [hunit, ok_bind]
  dsimp only
  rw [if_neg htrailing, if_pos hbasic, Char.ofNat_toNat]
  rfl

/-- Every character is read back from how it is written between quotation marks. -/
theorem reads_textUnit (c : Char) : Reads textUnit (escape c) (some c) := by
  intro rest
  unfold escape
  split
  -- The seven characters with an escape of their own come first.
  iterate 7 rfl
  rename_i hquote hbackslash _ _ _ _ _
  split
  · rename_i hcontrol
    have hescaped : escaped (['u', '0', '0', hexDigit (c.toNat / 16), hexDigit (c.toNat % 16)] ++
        rest) = .ok (c, rest) := reads_unicodeEscape hcontrol rest
    rw [List.cons_append, textUnit, hescaped]
    rfl
  · rename_i hplain
    rw [List.singleton_append, textUnit]
    · rw [if_neg hplain]
    · exact hquote
    · exact hbackslash

theorem escape_ne_nil (c : Char) : escape c ≠ [] := by
  unfold escape
  split
  iterate 7 exact List.cons_ne_nil _ _
  split <;> exact List.cons_ne_nil _ _

theorem length_le_length_flatMap {α β : Type} {f : α → List β} (h : ∀ entry, f entry ≠ [])
    (entries : List α) : entries.length ≤ (entries.flatMap f).length := by
  induction entries with
  | nil => exact Nat.le_refl 0
  | cons entry rest ih =>
    have hentry : 0 < (f entry).length := List.length_pos_iff.mpr (h entry)
    rw [List.flatMap_cons, List.length_append, List.length_cons]
    omega

theorem reads_textUnits {fuel : ℕ} {chars : List Char} (h : chars.length < fuel) :
    Reads (textUnits fuel) (chars.flatMap escape ++ ['"']) chars := by
  intro rest
  induction chars generalizing fuel with
  | nil =>
    obtain ⟨fuel, rfl⟩ := Nat.exists_eq_add_one_of_ne_zero (Nat.ne_zero_of_lt h)
    rfl
  | cons c chars ih =>
    obtain ⟨fuel, rfl⟩ := Nat.exists_eq_add_one_of_ne_zero (Nat.ne_zero_of_lt h)
    rw [List.flatMap_cons, List.append_assoc, List.append_assoc, textUnits, reads_textUnit c,
      ok_bind]
    dsimp only
    rw [← List.append_assoc, ih (Nat.lt_of_succ_lt_succ h)]
    rfl

theorem reads_textBody (value : String) :
    Reads textBody (value.toList.flatMap escape ++ ['"']) value := by
  intro rest
  have hfuel : value.toList.length <
      (value.toList.flatMap escape ++ ['"'] ++ rest).length + 1 := by
    have hlength := length_le_length_flatMap escape_ne_nil value.toList
    simp only [List.length_append]
    omega
  unfold textBody
  rw [reads_textUnits hfuel]
  change Except.ok (String.ofList value.toList, rest) = _
  rw [String.ofList_toList]

end Read

end WeakComponents.Json
