import Mathlib.Data.Set.Card
import Mathlib.Logic.Relation
import WeakComponents.Proofs.Slots

/-!
# Connected slots

Slots are connected by a relation when steps of it, taken either way, lead from one to the other.
Turning steps round and repeating them changes nothing, and one more step joins two classes at
most.
-/

open Relation

namespace WeakComponents.Connectivity

variable {relation other : Slot → Slot → Prop} {a b x y : Slot}

theorem eqvGen_eq_of_le (h : ∀ a b, relation a b → EqvGen other a b)
    (h' : ∀ a b, other a b → EqvGen relation a b) : EqvGen relation = EqvGen other := by
  apply le_antisymm
  · exact EqvGen.eqvGen_le h
  · exact EqvGen.eqvGen_le h'

theorem symmGen_iff : SymmGen relation a b ↔ relation a b ∨ relation b a := Iff.rfl

theorem eqvGen_eq_of_symmGen_iff (h : ∀ a b, SymmGen relation a b ↔ SymmGen other a b) :
    EqvGen relation = EqvGen other := by
  have hsymm : SymmGen relation = SymmGen other := by
    ext a b
    exact h a b
  calc
    EqvGen relation = EqvGen (SymmGen relation) := (EqvGen.eqvGen_symmGen relation).symm
    _ = EqvGen (SymmGen other) := by rw [hsymm]
    _ = EqvGen other := EqvGen.eqvGen_symmGen other

/-- The relation with one more step, from `a` to `b`. -/
def withStep (relation : Slot → Slot → Prop) (a b : Slot) : Slot → Slot → Prop :=
  fun x y ↦ relation x y ∨ x = a ∧ y = b

theorem eqvGen_withStep_of_eqvGen (h : EqvGen relation x y) :
    EqvGen (withStep relation a b) x y :=
  EqvGen.eqvGen_mono (fun _ _ ↦ Or.inl) x y h

theorem eqvGen_withStep_step : EqvGen (withStep relation a b) a b :=
  .rel a b (.inr ⟨rfl, rfl⟩)

theorem eqvGen_withStep_of_eqvGen_step (h : EqvGen relation a b) :
    EqvGen (withStep relation a b) = EqvGen relation := by
  apply eqvGen_eq_of_le
  · rintro x y (hxy | ⟨rfl, rfl⟩)
    · exact .rel x y hxy
    · exact h
  · intro x y hxy
    exact .rel x y (.inl hxy)

/-- The classes that connected slots form among the slots below `count`. -/
def classes (relation : Slot → Slot → Prop) (count : ℕ) : Set (Set Slot) :=
  (fun slot ↦ {other | EqvGen relation slot other}) '' {slot | slot.toNat < count}

theorem setOf_eqvGen_eq_iff :
    {slot | EqvGen relation a slot} = {slot | EqvGen relation b slot} ↔ EqvGen relation a b := by
  constructor
  · intro h
    have hb : b ∈ {slot | EqvGen relation b slot} := EqvGen.refl b
    rwa [← h] at hb
  · intro h
    ext slot
    exact ⟨(h.symm a b).trans b a slot, h.trans a b slot⟩

/-- There are as many classes as slots that stand for their class. -/
theorem ncard_classes_eq {count : ℕ} {root : Slot → Slot}
    (hroot : ∀ a b, root a = root b ↔ EqvGen relation a b)
    (hself : ∀ slot, root (root slot) = root slot)
    (hbelow : ∀ slot, slot.toNat < count → (root slot).toNat < count) :
    (classes relation count).ncard = {slot | slot.toNat < count ∧ root slot = slot}.ncard := by
  have himage : classes relation count =
      (fun slot ↦ {other | EqvGen relation slot other}) ''
        {slot | slot.toNat < count ∧ root slot = slot} := by
    apply Set.Subset.antisymm
    · rintro _ ⟨slot, hslot, rfl⟩
      refine ⟨root slot, ⟨hbelow slot hslot, hself slot⟩, ?_⟩
      exact setOf_eqvGen_eq_iff.mpr ((hroot _ _).mp (hself slot))
    · rintro _ ⟨slot, ⟨hslot, _⟩, rfl⟩
      exact ⟨slot, hslot, rfl⟩
  rw [himage]
  apply Set.InjOn.ncard_image
  rintro a ⟨_, ha⟩ b ⟨_, hb⟩ hab
  rw [← ha, ← hb]
  exact (hroot a b).mpr (setOf_eqvGen_eq_iff.mp hab)

/-- Labels that tell the same members apart are the same in number. -/
theorem card_image_eq_of_eq_iff {α β γ : Type} [DecidableEq α] [DecidableEq β] [DecidableEq γ]
    {label : α → β} {label' : α → γ} {members : Finset α}
    (h : ∀ a ∈ members, ∀ b ∈ members, label a = label b ↔ label' a = label' b) :
    (members.image label).card = (members.image label').card := by
  induction members using Finset.induction_on with
  | empty => rfl
  | insert first rest _ ih =>
    have hfirst : label first ∈ rest.image label ↔ label' first ∈ rest.image label' := by
      simp only [Finset.mem_image]
      apply exists_congr
      intro other
      rw [and_congr_right_iff]
      intro hother
      exact h other (Finset.mem_insert_of_mem hother) first (Finset.mem_insert_self first rest)
    have hrest := ih fun a ha b hb ↦
      h a (Finset.mem_insert_of_mem ha) b (Finset.mem_insert_of_mem hb)
    rw [Finset.image_insert, Finset.image_insert, Finset.card_insert_eq_ite,
      Finset.card_insert_eq_ite, hrest]
    simp only [hfirst]

/-- There are as many classes as labels, if exactly connected slots are labelled alike. -/
theorem ncard_classes_eq_card_image {γ : Type} [DecidableEq γ] {count : ℕ}
    (hcount : count ≤ slotLimit) {label : Slot → γ}
    (hlabel : ∀ a b : Slot, a.toNat < count → b.toNat < count →
      (label a = label b ↔ EqvGen relation a b)) :
    (classes relation count).ncard = ((slotsBelow count).toFinset.image label).card := by
  classical
  have hclasses : classes relation count =
      ((slotsBelow count).toFinset.image fun slot ↦ {other | EqvGen relation slot other} :
        Finset (Set Slot)) := by
    ext members
    simp [classes, mem_slotsBelow hcount]
  rw [hclasses, Set.ncard_coe_finset]
  apply card_image_eq_of_eq_iff
  intro a ha b hb
  rw [List.mem_toFinset, mem_slotsBelow hcount] at ha hb
  rw [setOf_eqvGen_eq_iff, hlabel a b ha hb]

end WeakComponents.Connectivity
