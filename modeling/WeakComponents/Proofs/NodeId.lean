import WeakComponents.NodeId
import WeakComponents.Proofs.Json.Naturals

/-!
# Texts of node ids

A text is read as an id exactly if it is a number below `2 ^ 64` in decimal notation, which may have
a mark, a plus sign and zeros in front. Any other text is refused for the first character with which
the number cannot go on. An id is read back from its own text, with and without the mark, and from
its JSON text.
-/

namespace WeakComponents.NodeId

open Decimal (IsNumeral)

variable {cs front read rest run : List Char} {lead : Char} {reason : Rejection} {n : ℕ}
  {text : String}

/-- A text is an optional mark, an optional plus sign and digits of value `n`. -/
def Spells (text : String) (n : ℕ) : Prop :=
  ∃ mark sign run : List Char, (mark = [] ∨ mark = ['n']) ∧ (sign = [] ∨ sign = ['+']) ∧
    text.toList = mark ++ sign ++ run ∧ IsNumeral run ∧ Decimal.value run = n

/-- Why a number below `2 ^ 64`, written by the digits `run`, does not go on with a character. -/
inductive Stops (run : List Char) (c : Char) : Rejection → Prop where
  | invalidDigit (h : c.isDigit = false) : Stops run c .invalidDigit
  | tooLarge (h : c.isDigit = true) (hvalue : UInt64.size ≤ Decimal.value (run ++ [c])) :
    Stops run c .tooLarge

/-- Why a number, written by `read` so far, does not go on with all of some characters: digits take
it to the first one that stops it. -/
def StopsWithin (read cs : List Char) (reason : Rejection) : Prop :=
  ∃ run c rest, cs = run ++ c :: rest ∧ (∀ digit ∈ run, digit.isDigit = true) ∧
    Decimal.value (read ++ run) < UInt64.size ∧ Stops (read ++ run) c reason

/-- The characters behind a leading one, if they have it. -/
def behind (lead : Char) (cs : List Char) : List Char :=
  if cs.head? = some lead then cs.tail else cs

/-- Why the characters behind the mark are not a number below `2 ^ 64`. -/
inductive Refused : List Char → Rejection → Prop where
  | empty : Refused [] .empty
  | loneSign : Refused ['+'] .invalidDigit
  | digits {cs : List Char} {reason : Rejection} (hsign : cs ≠ ['+'])
      (h : StopsWithin [] (behind '+' cs) reason) : Refused cs reason

/-- One more digit is read as long as the number stays below `2 ^ 64`. -/
theorem ofDigits?_cons (read : List Char) (c : Char) (cs : List Char) :
    ofDigits? (Decimal.value read) (c :: cs) =
      if c.isDigit then
        if Decimal.value (read ++ [c]) < UInt64.size then
          ofDigits? (Decimal.value (read ++ [c])) cs
        else .error .tooLarge
      else .error .invalidDigit := by
  rw [ofDigits?]
  cases hdigit : Decimal.digit? c with
  | none => rw [Decimal.digit?_eq_none_iff.mp hdigit]; rfl
  | some digit =>
    rw [Decimal.isDigit_of_digit?_eq_some hdigit, Decimal.value_append_digit hdigit]
    rfl

/-- Reading on succeeds if only digits follow and the number stays below `2 ^ 64`. -/
theorem ofDigits?_eq_ok_iff (h : Decimal.value read < UInt64.size) :
    ofDigits? (Decimal.value read) cs = .ok n ↔
      (∀ c ∈ cs, c.isDigit = true) ∧ Decimal.value (read ++ cs) = n ∧ n < UInt64.size := by
  induction cs generalizing read with
  | nil =>
    rw [ofDigits?, Except.ok.injEq, List.append_nil]
    constructor
    · rintro rfl
      exact ⟨List.forall_mem_nil _, rfl, h⟩
    · exact fun hvalue ↦ hvalue.2.1
  | cons c cs ih =>
    rw [ofDigits?_cons, List.forall_mem_cons, List.append_cons read c cs]
    split
    · rename_i hdigit
      split
      · rename_i hbelow
        rw [ih hbelow]
        simp only [hdigit, true_and]
      · rename_i hlarge
        refine iff_of_false (by simp) ?_
        rintro ⟨_, rfl, hbelow⟩
        exact hlarge (Nat.lt_of_le_of_lt (Decimal.value_le_value_append _ _) hbelow)
    · rename_i hdigit
      exact iff_of_false (by simp) fun hall ↦ hdigit hall.1.1

theorem stops_iff {c : Char} :
    Stops run c reason ↔ c.isDigit = false ∧ reason = .invalidDigit ∨
      c.isDigit = true ∧ UInt64.size ≤ Decimal.value (run ++ [c]) ∧ reason = .tooLarge := by
  constructor
  · intro h
    cases h with
    | invalidDigit h => exact .inl ⟨h, rfl⟩
    | tooLarge h hvalue => exact .inr ⟨h, hvalue, rfl⟩
  · rintro (⟨h, rfl⟩ | ⟨h, hvalue, rfl⟩)
    · exact .invalidDigit h
    · exact .tooLarge h hvalue

theorem not_stopsWithin_nil : ¬ StopsWithin read [] reason := by
  rintro ⟨run, c, rest, heq, _⟩
  exact List.append_ne_nil_of_right_ne_nil run (List.cons_ne_nil c rest) heq.symm

theorem StopsWithin.lt (h : StopsWithin read cs reason) : Decimal.value read < UInt64.size := by
  obtain ⟨run, _, _, _, _, hbelow, _⟩ := h
  exact Nat.lt_of_le_of_lt (Decimal.value_le_value_append read run) hbelow

theorem stopsWithin_cons_iff (h : Decimal.value read < UInt64.size) (c : Char) (cs : List Char) :
    StopsWithin read (c :: cs) reason ↔
      Stops read c reason ∨ c.isDigit = true ∧ StopsWithin (read ++ [c]) cs reason := by
  constructor
  · rintro ⟨run, other, rest, heq, hdigits, hbelow, hstops⟩
    cases run with
    | nil =>
      obtain ⟨rfl, _⟩ := List.cons.inj heq
      rw [List.append_nil] at hstops
      exact .inl hstops
    | cons digit run =>
      obtain ⟨rfl, rfl⟩ := List.cons.inj heq
      obtain ⟨hdigit, hdigits⟩ := List.forall_mem_cons.mp hdigits
      rw [List.append_cons] at hbelow hstops
      exact .inr ⟨hdigit, run, other, rest, rfl, hdigits, hbelow, hstops⟩
  · rintro (hstops | ⟨hdigit, run, other, rest, rfl, hdigits, hbelow, hstops⟩)
    · exact ⟨[], c, cs, rfl, List.forall_mem_nil _, by rwa [List.append_nil],
        by rwa [List.append_nil]⟩
    · rw [← List.append_cons] at hbelow hstops
      exact ⟨c :: run, other, rest, rfl, List.forall_mem_cons.mpr ⟨hdigit, hdigits⟩, hbelow, hstops⟩

/-- Reading on fails with the reason of the first character that stops the number. -/
theorem ofDigits?_eq_error_iff (h : Decimal.value read < UInt64.size) :
    ofDigits? (Decimal.value read) cs = .error reason ↔ StopsWithin read cs reason := by
  induction cs generalizing read with
  | nil => exact iff_of_false (by simp [ofDigits?]) not_stopsWithin_nil
  | cons c cs ih =>
    rw [ofDigits?_cons, stopsWithin_cons_iff h, stops_iff]
    split
    · rename_i hdigit
      split
      · rename_i hbelow
        rw [ih hbelow]
        simp [hdigit, Nat.not_le.mpr hbelow, -Decimal.value_append_singleton]
      · rename_i hlarge
        have hno : ¬ StopsWithin (read ++ [c]) cs reason := fun hstops ↦ hlarge hstops.lt
        simp [hdigit, hno, Nat.not_lt.mp hlarge, eq_comm, -Decimal.value_append_singleton]
    · rename_i hdigit
      simp [hdigit, eq_comm]

theorem behind_cons (lead c : Char) (rest : List Char) :
    behind lead (c :: rest) = if c = lead then rest else c :: rest := by
  simp [behind]

theorem exists_eq_append_behind (lead : Char) (cs : List Char) :
    ∃ front, (front = [] ∨ front = [lead]) ∧ cs = front ++ behind lead cs := by
  cases cs with
  | nil => exact ⟨[], .inl rfl, rfl⟩
  | cons c rest =>
    rw [behind_cons]
    split
    · rename_i hlead
      exact ⟨[lead], .inr rfl, congrArg (· :: rest) hlead⟩
    · exact ⟨[], .inl rfl, rfl⟩

theorem behind_append (hfront : front = [] ∨ front = [lead]) (hrest : rest.head? ≠ some lead) :
    behind lead (front ++ rest) = rest := by
  rcases hfront with rfl | rfl
  · rw [List.nil_append, behind, if_neg hrest]
  · rw [List.singleton_append, behind_cons, if_pos rfl]

theorem dropMark_eq (cs : List Char) : dropMark cs = behind 'n' cs := by
  cases cs with
  | nil => rfl
  | cons c rest =>
    rw [behind_cons]
    split
    · rename_i hmark
      rw [hmark]
      rfl
    · rename_i hmark
      rw [dropMark]
      exact fun _ heq ↦ hmark (List.cons.inj heq).1

/-- Behind a sign that does not stand alone, and without a sign, digits are read. -/
theorem unprefixed?_eq (hempty : cs ≠ []) (hsign : cs ≠ ['+']) :
    unprefixed? cs = ofDigits? (Decimal.value []) (behind '+' cs) := by
  cases cs with
  | nil => exact absurd rfl hempty
  | cons c rest =>
    rw [behind_cons]
    split
    · rename_i hplus
      subst hplus
      rw [unprefixed?]
      · rfl
      · rintro rfl
        exact hsign rfl
    · rename_i hplus
      rw [unprefixed?]
      · rfl
      · exact hempty
      · exact hsign
      · exact fun _ heq ↦ hplus (List.cons.inj heq).1

theorem head?_ne_of_isNumeral (hrun : IsNumeral run) (hlead : lead.isDigit = false) :
    run.head? ≠ some lead := by
  intro hhead
  have hdigit := hrun.2 lead (List.mem_of_head? hhead)
  exact Bool.false_ne_true (hlead.symm.trans hdigit)

theorem behind_ne_nil (hempty : cs ≠ []) (hlead : cs ≠ [lead]) : behind lead cs ≠ [] := by
  intro hbehind
  obtain ⟨front, rfl | rfl, heq⟩ := exists_eq_append_behind lead cs
  · exact hempty (heq.trans hbehind)
  · rw [hbehind] at heq
    exact hlead heq

/-- The characters behind the mark are a number just if they are digits behind a sign. -/
theorem unprefixed?_eq_ok_iff :
    unprefixed? cs = .ok n ↔
      IsNumeral (behind '+' cs) ∧ Decimal.value (behind '+' cs) = n ∧ n < UInt64.size := by
  by_cases hempty : cs = []
  · subst hempty
    exact iff_of_false (by simp [unprefixed?]) fun h ↦ h.1.1 rfl
  · by_cases hsign : cs = ['+']
    · subst hsign
      exact iff_of_false (by simp [unprefixed?]) fun h ↦ h.1.1 rfl
    · rw [unprefixed?_eq hempty hsign, ofDigits?_eq_ok_iff (by decide), IsNumeral, List.nil_append,
        and_iff_right (behind_ne_nil hempty hsign)]

theorem refused_nil_iff : Refused [] reason ↔ reason = .empty := by
  constructor
  · intro h
    cases h with
    | empty => rfl
    | digits _ h => exact absurd h not_stopsWithin_nil
  · rintro rfl
    exact .empty

theorem refused_loneSign_iff : Refused ['+'] reason ↔ reason = .invalidDigit := by
  constructor
  · intro h
    cases h with
    | loneSign => rfl
    | digits hsign _ => exact absurd rfl hsign
  · rintro rfl
    exact .loneSign

/-- They are refused for the first character that stops the digits behind the sign. -/
theorem unprefixed?_eq_error_iff : unprefixed? cs = .error reason ↔ Refused cs reason := by
  by_cases hempty : cs = []
  · subst hempty
    rw [unprefixed?, Except.error.injEq, refused_nil_iff, eq_comm]
  · by_cases hsign : cs = ['+']
    · subst hsign
      rw [unprefixed?, Except.error.injEq, refused_loneSign_iff, eq_comm]
    · rw [unprefixed?_eq hempty hsign, ofDigits?_eq_error_iff (by decide)]
      constructor
      · exact fun h ↦ .digits hsign h
      · intro h
        cases h with
        | empty => exact absurd rfl hempty
        | loneSign => exact absurd rfl hsign
        | digits _ h => exact h

/-- A text spells a number just if digits of its value stand behind its mark and its sign. -/
theorem spells_iff :
    Spells text n ↔ IsNumeral (behind '+' (behind 'n' text.toList)) ∧
      Decimal.value (behind '+' (behind 'n' text.toList)) = n := by
  constructor
  · rintro ⟨mark, sign, run, hmark, hsign, htext, hrun, hvalue⟩
    have hhead : (sign ++ run).head? ≠ some 'n' := by
      rcases hsign with rfl | rfl
      · exact head?_ne_of_isNumeral hrun (by decide)
      · rw [List.singleton_append, List.head?_cons]
        decide
    rw [htext, List.append_assoc, behind_append hmark hhead,
      behind_append hsign (head?_ne_of_isNumeral hrun (by decide))]
    exact ⟨hrun, hvalue⟩
  · rintro ⟨hrun, hvalue⟩
    obtain ⟨mark, hmark, htext⟩ := exists_eq_append_behind 'n' text.toList
    obtain ⟨sign, hsign, hrest⟩ := exists_eq_append_behind '+' (behind 'n' text.toList)
    refine ⟨mark, sign, _, hmark, hsign, ?_, hrun, hvalue⟩
    rw [List.append_assoc, ← hrest, ← htext]

theorem parse_eq_ok_iff {id : NodeId} : parse text = .ok id ↔ Spells text id.value.toNat := by
  have hread : parse text = .ok id ↔
      unprefixed? (behind 'n' text.toList) = .ok id.value.toNat := by
    rw [parse, dropMark_eq]
    cases hnumber : unprefixed? (behind 'n' text.toList) with
    | error reason => exact iff_of_false (by simp) (by simp)
    | ok n =>
      have hbelow : n < UInt64.size := (unprefixed?_eq_ok_iff.mp hnumber).2.2
      have hvalue : n.toUInt64.toNat = n := UInt64.toNat_ofNat_of_lt' hbelow
      rw [Except.ok.injEq, Except.ok.injEq]
      constructor
      · rintro rfl
        exact hvalue.symm
      · rintro rfl
        exact congrArg NodeId.mk UInt64.ofNat_toNat
  rw [hread, unprefixed?_eq_ok_iff, spells_iff, and_iff_left id.value.toNat_lt]

theorem parse_eq_error_iff {error : ParseError} :
    parse text = .error error ↔
      error.text = text ∧ Refused (behind 'n' text.toList) error.reason := by
  rw [← unprefixed?_eq_error_iff, parse, dropMark_eq]
  cases unprefixed? (behind 'n' text.toList) with
  | ok n => exact iff_of_false (by simp) (by simp)
  | error reason =>
    obtain ⟨refused, cause⟩ := error
    simp [eq_comm]

/-! ## Round trips -/

theorem parse_append_text {mark : String} (hmark : mark.toList = [] ∨ mark.toList = ['n'])
    (id : NodeId) : parse (mark ++ id.text) = .ok id := by
  rw [parse_eq_ok_iff]
  refine ⟨mark.toList, [], Decimal.digits id.value.toNat, hmark, .inl rfl, ?_,
    Decimal.isNumeral_digits _, Decimal.value_digits _⟩
  rw [String.toList_append, text, Decimal.text, String.toList_ofList, List.append_nil]

theorem ofJsonText_toJson (id : NodeId) : ofJsonText id.toJson.toText = .ok id := by
  have hread := Json.Read.natural_digits id.value Json.endsNumber_nil
  rw [List.append_nil] at hread
  have hwritten : id.toJson.render = Decimal.digits id.value.toNat := by
    rw [toJson, Json.ofUInt64, Json.render, Json.Number.render]
  rw [ofJsonText, Json.toText, hwritten, Json.readDocument_of_read hread]
  rfl

/--
A text is read as an id exactly if it is a number below `2 ^ 64` behind an optional mark and an
optional plus sign, and then as this number. Any other text is refused: as empty if nothing stands
behind the mark, and otherwise for the first character that is not a digit or with which the number
leaves 64 bits, in the order of the characters. Every id is read back from its text, from its text
with the mark and from its JSON text.
-/
theorem parse_by_grammar :
    (∀ text, (∃ id, parse text = .ok id) ↔ ∃ n < UInt64.size, Spells text n) ∧
    (∀ text id, parse text = .ok id ↔ Spells text id.value.toNat) ∧
    (∀ text error, parse text = .error error ↔
      error.text = text ∧ Refused (behind 'n' text.toList) error.reason) ∧
    ∀ id : NodeId, parse id.text = .ok id ∧ parse ("n" ++ id.text) = .ok id ∧
      ofJsonText id.toJson.toText = .ok id := by
  refine ⟨fun text ↦ ?_, fun text id ↦ parse_eq_ok_iff, fun text error ↦ parse_eq_error_iff,
    fun id ↦ ⟨?_, parse_append_text (.inr rfl) id, ofJsonText_toJson id⟩⟩
  · simp only [parse_eq_ok_iff]
    constructor
    · rintro ⟨id, hspells⟩
      exact ⟨id.value.toNat, id.value.toNat_lt, hspells⟩
    · rintro ⟨n, hbelow, hspells⟩
      refine ⟨⟨n.toUInt64⟩, ?_⟩
      rwa [UInt64.toNat_ofNat_of_lt' hbelow]
  · rw [← @String.empty_append id.text]
    exact parse_append_text (.inl rfl) id

-- With the last digit the number leaves 64 bits, unless a letter is met before.
example : parse "n+18446744073709551616x" = .error ⟨"n+18446744073709551616x", .tooLarge⟩ := rfl

example : parse "n+1844674407370955161x6" =
    .error ⟨"n+1844674407370955161x6", .invalidDigit⟩ := rfl

end WeakComponents.NodeId
