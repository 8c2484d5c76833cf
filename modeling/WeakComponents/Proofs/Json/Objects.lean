import WeakComponents.Json.Reader
import WeakComponents.Proofs.Json.Quoting
import WeakComponents.Proofs.Table

/-!
# Objects and named cases

A mapping is written as an object with a member for each entry, a named case as its name. The
readers take them back from compact text, as long as they take back the values of the members.
-/

namespace WeakComponents

namespace Json

/-- How a member of an object is written. -/
def renderMember (member : String × Json) : List Char :=
  quote member.1 ++ ':' :: member.2.render

theorem renderMembers_cons (member : String × Json) (rest : List (String × Json)) :
    renderMembers (member :: rest) =
      renderMember member ++ rest.flatMap fun member ↦ ',' :: renderMember member := by
  induction rest generalizing member with
  | nil => rw [renderMembers, List.flatMap_nil, List.append_nil, renderMember]
  | cons next rest ih =>
    rw [renderMembers, ih]
    · simp only [renderMember, List.flatMap_cons, List.append_assoc, List.cons_append]
    · exact List.cons_ne_nil _ _

namespace Read

theorem skipBlanks_cons {c : Char} (h : isBlank c = false) (cs : List Char) :
    skipBlanks (c :: cs) = c :: cs := by
  rw [skipBlanks, List.dropWhile_cons_of_neg (by rw [h]; decide)]

theorem reads_memberName (name : String) : Reads memberName (quote name) name := by
  intro rest
  rw [memberName, quote, List.cons_append, skipBlanks_cons (by decide)]
  exact reads_textBody name rest

theorem reads_nextName_first (name : String) : Reads (nextName true) (quote name) (some name) := by
  intro rest
  rw [nextName, quote, List.cons_append, skipBlanks_cons (by decide)]
  change (textBody _ >>= _) = _
  rw [reads_textBody, ok_bind]
  rfl

theorem reads_nextName (name : String) :
    Reads (nextName false) (',' :: quote name) (some name) := by
  intro rest
  rw [nextName, List.cons_append, skipBlanks_cons (by decide)]
  change (memberName _ >>= _) = _
  rw [reads_memberName, ok_bind]
  rfl

theorem reads_nextName_closing (first : Bool) : Reads (nextName first) ['\x7d'] none := by
  intro rest
  rw [nextName, List.singleton_append, skipBlanks_cons (by decide)]
  rfl

theorem colon_cons (cs : List Char) : colon (':' :: cs) = .ok cs := by
  rw [colon, skipBlanks_cons (by decide)]
  rfl

section

variable {α : Type} {reader : Reader α} {write : α → Json}

/-- Reading a mapping goes on behind a member with a value that can be read. -/
theorem mappingMembers_of_nextName {fuel : ℕ} {first : Bool} {found : Table α} {name : String}
    {value : α} {mark written : List Char}
    (hname : Reads (nextName first) mark (some name)) (hvalue : Reads reader written value)
    (rest : List Char) :
    mappingMembers reader (fuel + 1) first found (mark ++ ':' :: (written ++ rest)) =
      mappingMembers reader fuel false (found.insert name value) rest := by
  rw [mappingMembers, hname, ok_bind]
  dsimp only
  rw [colon_cons, ok_bind, hvalue, ok_bind]

theorem mappingMembers_closing {fuel : ℕ} {first : Bool} {found : Table α} :
    Reads (mappingMembers reader (fuel + 1) first found) ['\x7d'] found := by
  intro rest
  rw [mappingMembers, reads_nextName_closing]
  rfl

/-- Further members are inserted one after the other. -/
theorem reads_mappingMembers (found : Table α) {entries : List (String × α)} {fuel : ℕ}
    (hreads : ∀ entry ∈ entries, Reads reader (write entry.2).render entry.2)
    (hfuel : entries.length < fuel) :
    Reads (mappingMembers reader fuel false found)
      ((entries.flatMap fun entry ↦ ',' :: renderMember (entry.1, write entry.2)) ++ ['\x7d'])
      (entries.foldl (fun table entry ↦ table.insert entry.1 entry.2) found) := by
  intro rest
  induction entries generalizing fuel found with
  | nil =>
    obtain ⟨fuel, rfl⟩ := Nat.exists_eq_add_one_of_ne_zero (Nat.ne_zero_of_lt hfuel)
    exact mappingMembers_closing rest
  | cons entry entries ih =>
    obtain ⟨fuel, rfl⟩ := Nat.exists_eq_add_one_of_ne_zero (Nat.ne_zero_of_lt hfuel)
    obtain ⟨hentry, hentries⟩ := List.forall_mem_cons.mp hreads
    rw [List.flatMap_cons, List.foldl_cons, ← ih _ hentries (Nat.lt_of_succ_lt_succ hfuel),
      ← mappingMembers_of_nextName (reads_nextName entry.1) hentry]
    simp only [renderMember, List.append_assoc, List.cons_append]

theorem reads_mapping_ofList (write : α → Json) {entries : List (String × α)}
    (hreads : ∀ entry ∈ entries, Reads reader (write entry.2).render entry.2) :
    Reads (mapping reader)
      (render (.object (entries.map fun entry ↦ (entry.1, write entry.2))))
      (Table.ofList entries) := by
  intro rest
  rw [mapping, render, List.cons_append, skipBlanks_cons (by decide)]
  change mappingMembers reader (_ + 1) true .empty _ = _
  -- No comma stands before the first member, so it is read apart from the further ones.
  cases entries with
  | nil => exact mappingMembers_closing rest
  | cons entry entries =>
    obtain ⟨hentry, hentries⟩ := List.forall_mem_cons.mp hreads
    have hfuel : entries.length <
        (renderMembers ((entry :: entries).map fun entry ↦ (entry.1, write entry.2)) ++ ['\x7d'] ++
          rest).length := by
      have hlength := length_le_length_flatMap
        (f := fun entry : String × α ↦ ',' :: renderMember (entry.1, write entry.2))
        (fun _ ↦ List.cons_ne_nil _ _) entries
      rw [List.map_cons, renderMembers_cons, List.flatMap_map]
      simp only [List.length_append, List.length_singleton]
      omega
    have hfurther := reads_mappingMembers (Table.empty.insert entry.1 entry.2) hentries hfuel rest
    rw [Table.ofList, List.foldl_cons, ← hfurther,
      ← mappingMembers_of_nextName (reads_nextName_first entry.1) hentry]
    simp only [List.map_cons, renderMembers_cons, renderMember, List.flatMap_map,
      List.append_assoc, List.cons_append]

/-- A mapping is read back from the object of its entries. -/
theorem reads_mapping (write : α → Json) {table : Table α}
    (hreads : ∀ entry ∈ table.entries, Reads reader (write entry.2).render entry.2) :
    Reads (mapping reader)
      (render (.object (table.entries.map fun entry ↦ (entry.1, write entry.2)))) table := by
  have hlist := reads_mapping_ofList write hreads
  rwa [Table.ofList_entries] at hlist

theorem reads_onlyMember {fuel : ℕ} {name : String} {value : α} {written : List Char}
    (h : Reads reader written value) :
    Reads (onlyMember name reader (fuel + 2) true none)
      (quote name ++ ':' :: (written ++ ['\x7d'])) value := by
  intro rest
  rw [onlyMember, List.append_assoc, reads_nextName_first, ok_bind]
  dsimp only
  rw [if_pos rfl, if_neg (by simp), List.cons_append, colon_cons, ok_bind, List.append_assoc, h,
    ok_bind, onlyMember, reads_nextName_closing]
  rfl

/-- A record of one member is read back from the object with that member. -/
theorem reads_only {name : String} {member : Json} {value : α}
    (h : Reads reader member.render value) :
    Reads (only name reader) (render (.object [(name, member)])) value := by
  intro rest
  rw [only, render, List.cons_append, skipBlanks_cons (by decide)]
  change onlyMember name reader (_ + 1) true none _ = _
  rw [renderMembers, quote, List.append_assoc _ _ ['\x7d']]
  exact reads_onlyMember h rest

/-- A named case is read back from its name. -/
theorem reads_namedCase {cases : List (String × α)} {name : String} {value : α}
    (h : cases.lookup name = some value) :
    Reads (namedCase cases) (render (.text name)) value := by
  intro rest
  rw [namedCase, render, quote, List.cons_append, skipBlanks_cons (by decide)]
  change (textBody _ >>= _) = _
  rw [reads_textBody, ok_bind]
  dsimp only
  rw [h]
  rfl

end

end Read

theorem readDocument_of_read {α : Type} {reader : Reader α} {written : List Char} {value : α}
    (h : reader written = .ok (value, [])) :
    readDocument reader (String.ofList written) = .ok value := by
  rw [readDocument, String.toList_ofList, h]
  rfl

/-- A document that holds a value that can be read, and nothing else, gives this value. -/
theorem readDocument_ofList {α : Type} {reader : Reader α} {written : List Char} {value : α}
    (h : Reads reader written value) :
    readDocument reader (String.ofList written) = .ok value := by
  have hread := h []
  rw [List.append_nil] at hread
  exact readDocument_of_read hread

end Json

end WeakComponents
