import WeakComponents.Proofs.Text.ByteOrder
import WeakComponents.Table

/-!
# Entries of a table

A table has an entry exactly if the key is looked up with that value, and it lists its keys by
ascending bytes. Entering its entries one after the other makes it again.
-/

namespace WeakComponents.Table

variable {α : Type} {table : Table α} {key : String} {value : α}

theorem get?_mapEntries {β : Type} (table : Table α) (f : String → α → β) (key : String) :
    (table.mapEntries f).get? key = (table.get? key).map (f key) := by
  obtain ⟨entries, ascending⟩ := table
  unfold mapEntries get?
  dsimp only
  clear ascending
  induction entries with
  | nil => rfl
  | cons entry rest ih =>
    obtain ⟨name, value⟩ := entry
    rw [List.map_cons, lookup_cons_eq_ite, lookup_cons_eq_ite, ih]
    by_cases hkey : key = name
    · simp [hkey]
    · simp [hkey]

theorem get?_eq_some_iff : table.get? key = some value ↔ (key, value) ∈ table.entries := by
  obtain ⟨entries, ascending⟩ := table
  unfold get?
  dsimp only
  induction entries with
  | nil => simp
  | cons entry rest ih =>
    obtain ⟨name, first⟩ := entry
    obtain ⟨hfirst, hrest⟩ := List.pairwise_cons.mp ascending
    rw [lookup_cons_eq_ite, List.mem_cons, Prod.mk.injEq]
    by_cases hkey : key = name
    · have habsent : (key, value) ∉ rest := by
        intro hmem
        have hless : name < key := hfirst key (List.mem_map_of_mem hmem)
        exact String.lt_irrefl _ (hkey ▸ hless)
      rw [if_pos hkey, Option.some_inj, or_iff_left habsent, eq_comm]
      exact (and_iff_right hkey).symm
    · rw [if_neg hkey, ih hrest]
      exact (or_iff_right fun h ↦ hkey h.1).symm

theorem mem_keys_iff : key ∈ table.keys ↔ (table.get? key).isSome := by
  rw [keys, List.mem_map, Option.isSome_iff_exists]
  constructor
  · rintro ⟨⟨name, value⟩, hentry, rfl⟩
    exact ⟨value, get?_eq_some_iff.mpr hentry⟩
  · rintro ⟨value, hvalue⟩
    exact ⟨(key, value), get?_eq_some_iff.mp hvalue, rfl⟩

theorem mem_values_iff : value ∈ table.values ↔ ∃ key, table.get? key = some value := by
  simp only [get?_eq_some_iff]
  rw [values, List.mem_map]
  constructor
  · rintro ⟨⟨key, value⟩, hentry, rfl⟩
    exact ⟨key, hentry⟩
  · rintro ⟨key, hentry⟩
    exact ⟨(key, value), hentry, rfl⟩

theorem nodup_keys (table : Table α) : table.keys.Nodup := by
  apply table.ascending.imp
  intro key other hless hsame
  exact String.lt_irrefl other (hsame ▸ hless)

/-- Keys are listed by ascending bytes. -/
theorem pairwise_bytes_keys (table : Table α) :
    table.keys.Pairwise fun a b ↦ Text.bytes a < Text.bytes b :=
  table.ascending.imp Text.lt_iff_bytes_lt.mp

theorem get?_foldl_insert {entries : List (String × α)}
    (h : (entries.map Prod.fst).Pairwise (· < ·)) (table : Table α) (key : String) :
    (entries.foldl (fun table entry ↦ table.insert entry.1 entry.2) table).get? key =
      (entries.lookup key <|> table.get? key) := by
  induction entries generalizing table with
  | nil => rfl
  | cons entry rest ih =>
    obtain ⟨name, value⟩ := entry
    obtain ⟨hfirst, hrest⟩ := List.pairwise_cons.mp h
    rw [List.foldl_cons, ih hrest, get?_insert, lookup_cons_eq_ite]
    by_cases hkey : key = name
    · rw [hkey, lookup_eq_none_of_lt hfirst, if_pos rfl, if_pos rfl]
      rfl
    · rw [if_neg hkey, if_neg hkey]

/-- A table is made of its entries. -/
theorem ofList_entries (table : Table α) : ofList table.entries = table := by
  apply eq_of_get?_eq
  intro key
  rw [ofList, get?_foldl_insert table.ascending, get?_empty]
  change (table.get? key <|> none) = table.get? key
  cases table.get? key <;> rfl

end WeakComponents.Table
