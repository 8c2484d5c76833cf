import WeakComponents.Proofs.UnionFind.Climbing

/-!
# What the operations do to the roots

Shortening a path keeps every root. Linking two roots sends the tree of the root with the larger
key to the other one and keeps all other roots. Both keep the forest ordered, so a merge joins
exactly the two sets it is asked to join.
-/

namespace WeakComponents.UnionFind

variable {forest : UnionFind} {slot a b winner loser : Slot}

@[simp]
theorem size_repoint (forest : UnionFind) (slot target : Slot) :
    (forest.repoint slot target).size = forest.size := by
  simp [repoint, size]

@[simp]
theorem seeds_repoint (forest : UnionFind) (slot target : Slot) :
    (forest.repoint slot target).seeds = forest.seeds := rfl

theorem parent_repoint (hslot : slot.toNat < forest.size) (target other : Slot) :
    (forest.repoint slot target).parent other =
      if other = slot then target else forest.parent other := by
  have hbound : slot.toNat < forest.parents.size := hslot
  unfold parent repoint
  rw [Array.getElem?_setIfInBounds]
  by_cases h : other = slot
  · subst h
    rw [if_pos rfl, if_pos rfl, if_pos hbound, Option.getD_some]
  · rw [if_neg h, if_neg fun heq ↦ h (UInt32.toNat_inj.mp heq.symm)]

theorem Ordered.repoint (h : forest.Ordered) (hslot : slot.toNat < forest.size) {target : Slot}
    (htarget : target.toNat < forest.size) (hkey : forest.key target < forest.key slot) :
    (forest.repoint slot target).Ordered where
  parent_lt_size other hother := by
    rw [size_repoint] at hother ⊢
    rw [parent_repoint hslot]
    split
    · exact htarget
    · exact h.parent_lt_size other hother
  key_parent_lt other := by
    rw [parent_repoint hslot, key_eq_of_seeds_eq (seeds_repoint forest slot target)]
    split
    · rename_i heq
      exact fun _ ↦ heq ▸ hkey
    · exact h.key_parent_lt other

@[simp]
theorem size_foldl_repoint (members : List Slot) (target : Slot) (forest : UnionFind) :
    (members.foldl (fun forest member ↦ forest.repoint member target) forest).size =
      forest.size := by
  induction members generalizing forest with
  | nil => rfl
  | cons member rest ih => rw [List.foldl_cons, ih, size_repoint]

@[simp]
theorem seeds_foldl_repoint (members : List Slot) (target : Slot) (forest : UnionFind) :
    (members.foldl (fun forest member ↦ forest.repoint member target) forest).seeds =
      forest.seeds := by
  induction members generalizing forest with
  | nil => rfl
  | cons member rest ih => rw [List.foldl_cons, ih, seeds_repoint]

theorem parent_foldl_repoint {members : List Slot} {target : Slot} {forest : UnionFind}
    (hmembers : ∀ member ∈ members, member.toNat < forest.size) (other : Slot) :
    (members.foldl (fun forest member ↦ forest.repoint member target) forest).parent other =
      if other ∈ members then target else forest.parent other := by
  induction members generalizing forest with
  | nil => simp
  | cons member rest ih =>
    have hmember : member.toNat < forest.size := hmembers member List.mem_cons_self
    have hrest : ∀ other ∈ rest, other.toNat < (forest.repoint member target).size := by
      intro other hother
      rw [size_repoint]
      exact hmembers other (List.mem_cons_of_mem _ hother)
    rw [List.foldl_cons, ih hrest, parent_repoint hmember]
    by_cases hother : other = member <;> simp [hother]

@[simp]
theorem size_compress (forest : UnionFind) (slot : Slot) :
    (forest.compress slot).size = forest.size := by
  simp [compress]

@[simp]
theorem seeds_compress (forest : UnionFind) (slot : Slot) :
    (forest.compress slot).seeds = forest.seeds := by
  simp [compress]

theorem Ordered.lt_size_of_mem_path (h : forest.Ordered) {member : Slot}
    (hmember : member ∈ forest.path slot) : member.toNat < forest.size := by
  by_contra hsize
  exact (h.root_eq_of_mem_path hmember).2 (parent_of_size_le (not_lt.mp hsize))

/-- Exactly the slots on the path get a new parent, the root. -/
theorem Ordered.parent_compress (h : forest.Ordered) (slot other : Slot) :
    (forest.compress slot).parent other =
      if other ∈ forest.path slot then forest.root slot else forest.parent other :=
  parent_foldl_repoint (fun _ hmember ↦ h.lt_size_of_mem_path hmember) other

theorem Ordered.key_root_lt (h : forest.Ordered) (hne : forest.root slot ≠ slot) :
    forest.key (forest.root slot) < forest.key slot :=
  (h.key_root_le slot).lt_of_ne fun heq ↦ hne (forest.key_injective heq)

theorem Ordered.compress (h : forest.Ordered) (slot : Slot) : (forest.compress slot).Ordered where
  parent_lt_size other hother := by
    rw [size_compress] at hother ⊢
    rw [h.parent_compress]
    split
    · rename_i hmember
      rw [← (h.root_eq_of_mem_path hmember).1]
      exact h.root_lt_size hother
    · exact h.parent_lt_size other hother
  key_parent_lt other := by
    rw [h.parent_compress, key_eq_of_seeds_eq (seeds_compress forest slot)]
    split
    · rename_i hmember
      rw [← (h.root_eq_of_mem_path hmember).1]
      exact h.key_root_lt
    · exact h.key_parent_lt other

@[simp]
theorem Ordered.root_compress (h : forest.Ordered) (slot other : Slot) :
    (forest.compress slot).root other = forest.root other := by
  have hkept : (forest.compress slot).root = forest.root := by
    apply (h.compress slot).root_eq_of_climb
    · intro other hroot
      rw [h.parent_compress] at hroot
      split at hroot
      · rename_i hmember
        rw [(h.root_eq_of_mem_path hmember).1, hroot]
      · exact h.root_eq_self_of_parent hroot
    · intro other
      rw [h.parent_compress]
      split
      · rename_i hmember
        rw [h.root_root, (h.root_eq_of_mem_path hmember).1]
      · exact h.root_parent other
  rw [hkept]

theorem find_of_lt (hslot : slot.toNat < forest.size) :
    forest.find slot = (.ok (forest.root slot), forest.compress slot) :=
  if_pos hslot

/-- After a path was shortened, all that climbing came by is next to the root. -/
theorem Ordered.parent_compress_iterate (h : forest.Ordered) (slot : Slot) (steps : ℕ) :
    (forest.compress slot).parent (forest.parent^[steps] slot) = forest.root slot := by
  rw [h.parent_compress]
  split
  · rfl
  · rename_i hpath
    -- only the root itself is left out of the path
    have hself : forest.parent (forest.parent^[steps] slot) = forest.parent^[steps] slot := by
      by_contra hne
      exact hpath (h.mem_path_iff.mpr ⟨⟨steps, rfl⟩, hne⟩)
    rw [hself, ← h.root_iterate_parent slot steps, h.root_eq_self_of_parent hself]

theorem Ordered.parent_compress_of_ne_iterate (h : forest.Ordered) {other : Slot}
    (hother : ∀ steps, forest.parent^[steps] slot ≠ other) :
    (forest.compress slot).parent other = forest.parent other := by
  rw [h.parent_compress, if_neg]
  intro hpath
  obtain ⟨⟨steps, hsteps⟩, _⟩ := h.mem_path_iff.mp hpath
  exact hother steps hsteps

/-- Pointing one root at another one sends its whole tree there. -/
theorem Ordered.root_repoint (h : forest.Ordered) (hwinner : forest.parent winner = winner)
    (hwinnerSize : winner.toNat < forest.size) (hloserSize : loser.toNat < forest.size)
    (hloser : forest.parent loser = loser) (hkey : forest.key winner < forest.key loser)
    (slot : Slot) :
    (forest.repoint loser winner).root slot =
      if forest.root slot = loser then winner else forest.root slot := by
  have hne : winner ≠ loser := fun heq ↦ lt_irrefl _ (heq ▸ hkey)
  have hlinked : (forest.repoint loser winner).root =
      fun slot ↦ if forest.root slot = loser then winner else forest.root slot := by
    apply (h.repoint hloserSize hwinnerSize hkey).root_eq_of_climb
    · intro slot hroot
      rw [parent_repoint hloserSize] at hroot
      split at hroot
      · rename_i heq
        exact absurd (hroot.trans heq) hne
      · rename_i heq
        rw [h.root_eq_self_of_parent hroot, if_neg heq]
    · intro slot
      rw [parent_repoint hloserSize]
      split
      · rename_i heq
        rw [heq, h.root_eq_self_of_parent hwinner, h.root_eq_self_of_parent hloser, if_neg hne,
          if_pos rfl]
      · rw [h.root_parent]
  rw [hlinked]

/-- Two slots share a root after two roots were linked if they did before or if each was below
one of the two. -/
theorem Ordered.root_link_eq_iff (h : forest.Ordered) (ha : forest.parent a = a)
    (hb : forest.parent b = b) (haSize : a.toNat < forest.size) (hbSize : b.toNat < forest.size)
    (hne : a ≠ b) :
    (forest.link a b).Ordered ∧ ∀ x y, (forest.link a b).root x = (forest.link a b).root y ↔
      forest.root x = forest.root y ∨ forest.root x = a ∧ forest.root y = b ∨
        forest.root x = b ∧ forest.root y = a := by
  unfold link
  by_cases hkey : forest.key b < forest.key a
  · rw [if_pos (precedes_iff_key_lt.mpr hkey)]
    refine ⟨h.repoint haSize hbSize hkey, fun x y ↦ ?_⟩
    rw [h.root_repoint hb hbSize haSize ha hkey, h.root_repoint hb hbSize haSize ha hkey]
    split_ifs <;> grind
  · have hlt : forest.key a < forest.key b :=
      (not_lt.mp hkey).lt_of_ne fun heq ↦ hne (forest.key_injective heq)
    rw [if_neg (by rwa [precedes_iff_key_lt])]
    refine ⟨h.repoint hbSize haSize hlt, fun x y ↦ ?_⟩
    rw [h.root_repoint ha haSize hbSize hb hlt, h.root_repoint ha haSize hbSize hb hlt]
    split_ifs <;> grind

@[simp]
theorem size_link (forest : UnionFind) (a b : Slot) : (forest.link a b).size = forest.size := by
  unfold link
  split <;> rw [size_repoint]

@[simp]
theorem seeds_link (forest : UnionFind) (a b : Slot) :
    (forest.link a b).seeds = forest.seeds := by
  unfold link
  split <;> rw [seeds_repoint]

/-- The forest that merging the sets of two slots leaves behind. -/
def merge (forest : UnionFind) (a b : Slot) : UnionFind :=
  let shortened := (forest.compress a).compress b
  if forest.root a = forest.root b then shortened
  else shortened.link (forest.root a) (forest.root b)

theorem Ordered.union_eq (h : forest.Ordered) (ha : a.toNat < forest.size)
    (hb : b.toNat < forest.size) :
    forest.union a b = (.ok (decide (forest.root a ≠ forest.root b)), forest.merge a b) := by
  have hb' : b.toNat < (forest.compress a).size := by rwa [size_compress]
  unfold union merge
  rw [find_of_lt ha]
  dsimp only
  rw [find_of_lt hb', h.root_compress]
  dsimp only
  split <;> simp [*]

@[simp]
theorem size_merge (forest : UnionFind) (a b : Slot) : (forest.merge a b).size = forest.size := by
  unfold merge
  dsimp only
  split <;> simp

@[simp]
theorem seeds_merge (forest : UnionFind) (a b : Slot) :
    (forest.merge a b).seeds = forest.seeds := by
  unfold merge
  dsimp only
  split <;> simp

theorem Ordered.root_merge_eq_iff (h : forest.Ordered) (ha : a.toNat < forest.size)
    (hb : b.toNat < forest.size) :
    (forest.merge a b).Ordered ∧ ∀ x y, (forest.merge a b).root x = (forest.merge a b).root y ↔
      forest.root x = forest.root y ∨
        forest.root x = forest.root a ∧ forest.root y = forest.root b ∨
        forest.root x = forest.root b ∧ forest.root y = forest.root a := by
  have hshort := (h.compress a).compress b
  have hroot (x : Slot) : ((forest.compress a).compress b).root x = forest.root x := by
    rw [(h.compress a).root_compress, h.root_compress]
  unfold merge
  dsimp only
  split
  · rename_i heq
    refine ⟨hshort, fun x y ↦ ?_⟩
    rw [hroot, hroot, heq]
    grind
  · rename_i hne
    have hself (x : Slot) :
        ((forest.compress a).compress b).parent (forest.root x) = forest.root x := by
      rw [← hroot x]
      exact hshort.parent_root x
    have hlink := hshort.root_link_eq_iff (hself a) (hself b)
      (by simpa using h.root_lt_size ha) (by simpa using h.root_lt_size hb) hne
    simpa only [hroot] using hlink

theorem Ordered.merge (h : forest.Ordered) (ha : a.toNat < forest.size)
    (hb : b.toNat < forest.size) : (forest.merge a b).Ordered :=
  (h.root_merge_eq_iff ha hb).1

theorem Ordered.componentCount_eq (h : forest.Ordered) :
    forest.componentCount = forest.slots.countP fun slot ↦ decide (forest.root slot = slot) := by
  unfold componentCount
  apply List.countP_congr
  intro slot _
  simp [h.root_eq_self_iff]

end WeakComponents.UnionFind
