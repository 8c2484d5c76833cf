import WeakComponents.Proofs.Decimal
import WeakComponents.Proofs.Json.Objects

/-!
# Naturals and records of naturals

The digits of a natural are read back from the front of a document unless the number goes on behind
them: with another digit, a point or an exponent. In an object it never does, so that a record of
naturals is read back from the object of its members, in whatever order they are written.
-/

namespace WeakComponents.Json

open Decimal (digits)

variable {run rest : List Char}

/-- No number goes on with these characters. -/
def EndsNumber (rest : List Char) : Prop :=
  ∀ c ∈ rest.head?, c.isDigit = false ∧ c ≠ '.' ∧ c ≠ 'e' ∧ c ≠ 'E'

theorem endsNumber_nil : EndsNumber [] := by
  rintro c ⟨⟩

namespace Read

theorem integerTail_of_endsNumber (h : EndsNumber rest) (negative : Bool) (significand : ℕ) :
    integerTail negative significand rest = .ok (Number.ofDigits negative significand, rest) := by
  cases rest with
  | nil => rfl
  | cons c cs =>
    obtain ⟨_, hpoint, hlower, hupper⟩ := h c rfl
    unfold integerTail
    split
    · rename_i heq
      exact absurd (List.cons.inj heq).1 hpoint
    · rename_i heq
      exact absurd (List.cons.inj heq).1 hlower
    · rename_i heq
      exact absurd (List.cons.inj heq).1 hupper
    · rfl

/-- Digits are read up to the end of the number, `read` being those in front of them. -/
theorem integerDigits_append {read : List Char} (hrun : ∀ c ∈ run, c.isDigit = true)
    (hvalue : Decimal.value (read ++ run) < UInt64.size) (hrest : EndsNumber rest) :
    integerDigits false (Decimal.value read) (run ++ rest) =
      .ok (.natural (Decimal.value (read ++ run)).toUInt64, rest) := by
  induction run generalizing read with
  | nil =>
    rw [List.append_nil, List.nil_append]
    cases rest with
    | nil => rfl
    | cons c cs =>
      have hdigit : Decimal.digit? c = none := Decimal.digit?_eq_none_iff.mpr (hrest c rfl).1
      rw [integerDigits, hdigit]
      exact integerTail_of_endsNumber hrest false _
  | cons c run ih =>
    obtain ⟨hdigit, hrun⟩ := List.forall_mem_cons.mp hrun
    obtain ⟨digit, hdigit⟩ := Decimal.exists_digit?_eq_some hdigit
    have hnext : Decimal.value read * 10 + digit = Decimal.value (read ++ [c]) := by
      rw [Decimal.value_append_digit hdigit, Nat.mul_comm]
    have hbelow : Decimal.value (read ++ [c]) < UInt64.size := by
      rw [List.append_cons] at hvalue
      exact Nat.lt_of_le_of_lt (Decimal.value_le_value_append _ _) hvalue
    rw [List.append_cons] at hvalue ⊢
    rw [List.cons_append, integerDigits, hdigit]
    dsimp only
    rw [hnext, if_pos hbelow]
    exact ih hrun hvalue

/-- A number that does not begin with a zero is read as the digits in front of its end. -/
theorem unsignedNumber_cons {c : Char} (hdigits : ∀ digit ∈ c :: run, digit.isDigit = true)
    (hzero : c ≠ '0') (hvalue : Decimal.value (c :: run) < UInt64.size) (hrest : EndsNumber rest) :
    unsignedNumber false (c :: run ++ rest) =
      .ok (.natural (Decimal.value (c :: run)).toUInt64, rest) := by
  obtain ⟨hdigit, hrun⟩ := List.forall_mem_cons.mp hdigits
  obtain ⟨digit, hdigit⟩ := Decimal.exists_digit?_eq_some hdigit
  have hfirst : digit = Decimal.value [c] := by
    rw [← List.nil_append [c], Decimal.value_append_digit hdigit]
    exact (Nat.zero_add digit).symm
  rw [List.cons_append, unsignedNumber]
  · rw [hdigit]
    dsimp only
    rw [hfirst]
    exact integerDigits_append hrun hvalue hrest
  · exact hzero

theorem unsignedNumber_digits (value : UInt64) (hrest : EndsNumber rest) :
    unsignedNumber false (digits value.toNat ++ rest) = .ok (.natural value, rest) := by
  by_cases hzero : value = 0
  · subst hzero
    have hwritten : digits (0 : UInt64).toNat = ['0'] := Decimal.digits_of_lt (by decide)
    rw [hwritten]
    cases rest with
    | nil => rfl
    | cons c cs =>
      have hdigit : (Decimal.digit? c).isSome = false := by
        rw [Decimal.isSome_digit?, (hrest c rfl).1]
      change (if (Decimal.digit? c).isSome then _ else integerTail false 0 (c :: cs)) = _
      rw [hdigit]
      exact integerTail_of_endsNumber hrest false 0
  · have hne : value.toNat ≠ 0 := fun h ↦ hzero (UInt64.toNat_inj.mp h)
    have hhead := Decimal.head?_digits_ne_zero hne
    have hdigits := (Decimal.isNumeral_digits value.toNat).2
    have hvalue := Decimal.value_digits value.toNat
    cases hrun : digits value.toNat with
    | nil => exact absurd hrun (Decimal.isNumeral_digits _).1
    | cons c run =>
      rw [hrun] at hhead hdigits hvalue
      have hfirst : c ≠ '0' := fun hsame ↦ hhead (congrArg some hsame)
      rw [unsignedNumber_cons hdigits hfirst (hvalue ▸ value.toNat_lt) hrest, hvalue]
      change Except.ok (Number.natural (UInt64.ofNat value.toNat), rest) = _
      rw [UInt64.ofNat_toNat]

/-- The digits of a natural begin with one. -/
theorem exists_digits_eq_cons (n : ℕ) :
    ∃ c run, digits n = c :: run ∧ c.isDigit = true := by
  obtain ⟨hne, hdigits⟩ := Decimal.isNumeral_digits n
  obtain ⟨c, run, hrun⟩ := List.exists_cons_of_ne_nil hne
  exact ⟨c, run, hrun, hdigits c (hrun ▸ List.mem_cons_self)⟩

theorem ne_of_isDigit {c other : Char} (hc : c.isDigit = true) (hother : other.isDigit = false) :
    c ≠ other := by
  rintro rfl
  exact Bool.false_ne_true (hother.symm.trans hc)

theorem isBlank_of_isDigit {c : Char} (h : c.isDigit = true) : isBlank c = false := by
  simp [isBlank, ne_of_isDigit h]

/-- A natural is read back from its digits. -/
theorem natural_digits (value : UInt64) (hrest : EndsNumber rest) :
    natural (digits value.toNat ++ rest) = .ok (value, rest) := by
  have hread := unsignedNumber_digits value hrest
  obtain ⟨c, run, hrun, hdigit⟩ := exists_digits_eq_cons value.toNat
  rw [hrun, List.cons_append] at hread ⊢
  have hnumber : number (c :: (run ++ rest)) = .ok (.natural value, rest) := by
    rw [number]
    · exact hread
    · intro _ hsame
      exact ne_of_isDigit hdigit (by decide) (List.cons.inj hsame).1
  rw [natural, skipBlanks_cons (isBlank_of_isDigit hdigit)]
  dsimp only
  rw [if_pos (.inr ((Decimal.isSome_digit? c).trans hdigit)), hnumber]
  rfl

theorem endsNumber_cons {c : Char} (h : c = ',' ∨ c = '\x7d') (rest : List Char) :
    EndsNumber (c :: rest) := by
  intro other hother
  obtain rfl : c = other := Option.some.inj hother
  rcases h with rfl | rfl <;> decide

section

variable {names : List String} {found : List (String × UInt64)} {member : String × UInt64}

theorem renderMember_ofUInt64 (member : String × UInt64) :
    renderMember (member.1, ofUInt64 member.2) =
      quote member.1 ++ ':' :: digits member.2.toNat := by
  rw [renderMember, ofUInt64, render, Number.render]

theorem lookup_eq_none_of_nodup {further : List (String × UInt64)}
    (h : ((found ++ member :: further).map Prod.fst).Nodup) : found.lookup member.1 = none := by
  rw [List.map_append, List.map_cons] at h
  rw [List.lookup_eq_none_iff]
  intro other hother
  have hne : member.1 ≠ other.1 := fun hsame ↦
    (List.nodup_append.mp h).2.2 other.1 (List.mem_map_of_mem hother) member.1
      List.mem_cons_self hsame.symm
  simp [hne]

/-- What follows a member in an object is a comma or the closing bracket. -/
theorem endsNumber_further (members : List (String × UInt64)) (rest : List Char) :
    EndsNumber ((members.flatMap fun member ↦ ',' :: renderMember (member.1, ofUInt64 member.2)) ++
      ['\x7d'] ++ rest) := by
  cases members with
  | nil => exact endsNumber_cons (.inr rfl) _
  | cons next members => exact endsNumber_cons (.inl rfl) _

/-- Reading a record goes on behind a member that is asked for and has not been read. -/
theorem recordMembers_of_nextName {fuel : ℕ} {first : Bool} {mark : List Char}
    (hmark : Reads (nextName first) mark (some member.1)) (hname : member.1 ∈ names)
    (hnew : found.lookup member.1 = none) (hrest : EndsNumber rest) :
    recordMembers (fuel + 1) names found first (mark ++ ':' :: (digits member.2.toNat ++ rest)) =
      recordMembers fuel names (found ++ [member]) false rest := by
  rw [recordMembers, hmark, ok_bind]
  dsimp only
  rw [if_pos hname, hnew, if_neg (by simp), colon_cons, ok_bind, natural_digits member.2 hrest,
    ok_bind]

theorem recordMembers_closing {fuel : ℕ} {first : Bool} :
    Reads (recordMembers (fuel + 1) names found first) ['\x7d'] found := by
  intro rest
  rw [recordMembers, reads_nextName_closing]
  rfl

/-- Further members are added one after the other. -/
theorem reads_recordMembers {members : List (String × UInt64)} {fuel : ℕ}
    (hnames : ∀ member ∈ members, member.1 ∈ names)
    (hnew : ((found ++ members).map Prod.fst).Nodup) (hfuel : members.length < fuel) :
    Reads (recordMembers fuel names found false)
      ((members.flatMap fun member ↦ ',' :: renderMember (member.1, ofUInt64 member.2)) ++ ['\x7d'])
      (found ++ members) := by
  intro rest
  induction members generalizing fuel found with
  | nil =>
    obtain ⟨fuel, rfl⟩ := Nat.exists_eq_add_one_of_ne_zero (Nat.ne_zero_of_lt hfuel)
    rw [List.append_nil]
    exact recordMembers_closing rest
  | cons member members ih =>
    obtain ⟨fuel, rfl⟩ := Nat.exists_eq_add_one_of_ne_zero (Nat.ne_zero_of_lt hfuel)
    obtain ⟨hname, hnames⟩ := List.forall_mem_cons.mp hnames
    have hends := endsNumber_further members rest
    have habsent := lookup_eq_none_of_nodup hnew
    rw [List.append_cons found] at hnew ⊢
    rw [← ih hnames hnew (Nat.lt_of_succ_lt_succ hfuel),
      ← recordMembers_of_nextName (reads_nextName member.1) hname habsent hends]
    simp only [List.flatMap_cons, renderMember_ofUInt64, List.append_assoc, List.cons_append]

/-- A record of naturals is read back from the object of some of its members. -/
theorem reads_record {members : List (String × UInt64)}
    (hnames : ∀ member ∈ members, member.1 ∈ names) (hnew : (members.map Prod.fst).Nodup) :
    Reads (record names)
      (render (.object (members.map fun member ↦ (member.1, ofUInt64 member.2)))) members := by
  intro rest
  rw [record, render, List.cons_append, skipBlanks_cons (by decide)]
  change recordMembers (_ + 1) names [] true _ = _
  -- No comma stands before the first member, so it is read apart from the further ones.
  cases members with
  | nil => exact recordMembers_closing rest
  | cons member members =>
    obtain ⟨hname, hnames⟩ := List.forall_mem_cons.mp hnames
    have hends := endsNumber_further members rest
    have hlength := length_le_length_flatMap
      (f := fun member : String × UInt64 ↦ ',' :: renderMember (member.1, ofUInt64 member.2))
      (fun _ ↦ List.cons_ne_nil _ _) members
    have hwritten :
        renderMembers ((member :: members).map fun member ↦ (member.1, ofUInt64 member.2)) ++
            ['\x7d'] ++ rest =
          quote member.1 ++ ':' :: (digits member.2.toNat ++ ((members.flatMap fun member ↦
            ',' :: renderMember (member.1, ofUInt64 member.2)) ++ ['\x7d'] ++ rest)) := by
      simp only [List.map_cons, renderMembers_cons, renderMember_ofUInt64, List.flatMap_map,
        List.append_assoc, List.cons_append]
    rw [hwritten, recordMembers_of_nextName (reads_nextName_first member.1) hname rfl hends]
    apply reads_recordMembers hnames hnew
    simp only [List.length_append, List.length_cons]
    omega

end

end Read

end WeakComponents.Json
