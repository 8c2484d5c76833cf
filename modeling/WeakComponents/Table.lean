/-!
# Tables keyed by text

A `Table` maps texts to values and lists its entries by strictly ascending key, in code point
order, which is also the byte order of UTF-8. Since the listing is determined by the mapping, two
tables that answer every lookup alike are equal.
-/

namespace WeakComponents

namespace Table

/-- Replaces the value at `key`, entering the key at its place when it is new. -/
def upsertEntry {α : Type} (key : String) (update : Option α → α) :
    List (String × α) → List (String × α)
  | [] => [(key, update none)]
  | (other, value) :: rest =>
    if key < other then (key, update none) :: (other, value) :: rest
    else if other < key then (other, value) :: upsertEntry key update rest
    else (other, update (some value)) :: rest

theorem mem_map_fst_upsertEntry {α : Type} {key name : String} {update : Option α → α}
    {entries : List (String × α)}
    (h : name ∈ (upsertEntry key update entries).map Prod.fst) :
    name = key ∨ name ∈ entries.map Prod.fst := by
  induction entries with
  | nil => simpa [upsertEntry] using h
  | cons entry rest ih =>
    obtain ⟨other, value⟩ := entry
    unfold upsertEntry at h
    split at h
    · simpa using h
    · split at h
      · rcases List.mem_cons.mp h with h | h
        · exact .inr (List.mem_cons.mpr (.inl h))
        · exact (ih h).imp id (List.mem_cons_of_mem _)
      · exact .inr (by simpa using h)

theorem pairwise_upsertEntry {α : Type} (key : String) (update : Option α → α)
    {entries : List (String × α)} (h : (entries.map Prod.fst).Pairwise (· < ·)) :
    ((upsertEntry key update entries).map Prod.fst).Pairwise (· < ·) := by
  induction entries with
  | nil => simp [upsertEntry]
  | cons entry rest ih =>
    obtain ⟨other, value⟩ := entry
    have hrest : ∀ name ∈ rest.map Prod.fst, other < name := (List.pairwise_cons.mp h).1
    have htail : (rest.map Prod.fst).Pairwise (· < ·) := (List.pairwise_cons.mp h).2
    unfold upsertEntry
    split
    · rename_i hkey
      refine List.pairwise_cons.mpr ⟨fun name hname ↦ ?_, h⟩
      rcases List.mem_cons.mp hname with rfl | hname
      · exact hkey
      · exact String.lt_trans hkey (hrest name hname)
    · split
      · rename_i hother
        refine List.pairwise_cons.mpr ⟨fun name hname ↦ ?_, ih htail⟩
        rcases mem_map_fst_upsertEntry hname with rfl | hname
        · exact hother
        · exact hrest name hname
      · exact h

end Table

/-- A finite map from texts to values, listed by strictly ascending key. -/
structure Table (α : Type) where
  entries : List (String × α)
  ascending : (entries.map Prod.fst).Pairwise (· < ·)

namespace Table

variable {α : Type}

@[ext]
theorem ext_entries {a b : Table α} (h : a.entries = b.entries) : a = b := by
  cases a
  cases b
  cases h
  rfl

instance [DecidableEq α] : DecidableEq (Table α) := fun a b ↦
  decidable_of_iff (a.entries = b.entries) ⟨ext_entries, fun h ↦ h ▸ rfl⟩

def empty : Table α := ⟨[], .nil⟩

instance : Inhabited (Table α) := ⟨empty⟩

def get? (table : Table α) (key : String) : Option α :=
  table.entries.lookup key

/-- Replaces the value at `key` by what `update` makes of the old one, or of its absence. -/
def upsert (table : Table α) (key : String) (update : Option α → α) : Table α :=
  ⟨upsertEntry key update table.entries, pairwise_upsertEntry key update table.ascending⟩

def insert (table : Table α) (key : String) (value : α) : Table α :=
  table.upsert key fun _ ↦ value

def keys (table : Table α) : List String :=
  table.entries.map Prod.fst

def values (table : Table α) : List α :=
  table.entries.map Prod.snd

def isEmpty (table : Table α) : Bool :=
  table.entries.isEmpty

/-- The table of the values under `f`, which also sees their keys. -/
def mapEntries {β : Type} (table : Table α) (f : String → α → β) : Table β :=
  ⟨table.entries.map fun (key, value) ↦ (key, f key value), by
    simpa [List.map_map, Function.comp_def] using table.ascending⟩

/-- The table of a list of entries, in which the last value of a repeated key counts. -/
def ofList (entries : List (String × α)) : Table α :=
  entries.foldl (fun table entry ↦ table.insert entry.1 entry.2) empty

/-! ## Lookup after an operation -/

theorem lookup_cons_eq_ite (name other : String) (value : α) (rest : List (String × α)) :
    ((other, value) :: rest).lookup name = if name = other then some value else rest.lookup name := by
  rw [List.lookup_cons]
  by_cases h : name = other
  · simp [h]
  · rw [if_neg h, beq_false_of_ne h]

theorem lookup_eq_none_of_lt {key : String} {entries : List (String × α)}
    (h : ∀ name ∈ entries.map Prod.fst, key < name) : entries.lookup key = none := by
  induction entries with
  | nil => rfl
  | cons entry rest ih =>
    obtain ⟨other, value⟩ := entry
    have hother : key < other := h other (by simp)
    rw [lookup_cons_eq_ite, if_neg fun heq ↦ String.lt_irrefl _ (heq ▸ hother)]
    exact ih fun name hname ↦ h name (List.mem_cons_of_mem _ hname)

theorem eq_of_not_lt {a b : String} (hab : ¬ a < b) (hba : ¬ b < a) : a = b :=
  String.le_antisymm (String.not_lt.mp hba) (String.not_lt.mp hab)

theorem lookup_upsertEntry (key name : String) (update : Option α → α)
    {entries : List (String × α)} (h : (entries.map Prod.fst).Pairwise (· < ·)) :
    (upsertEntry key update entries).lookup name =
      if name = key then some (update (entries.lookup key)) else entries.lookup name := by
  induction entries with
  | nil => rw [upsertEntry, lookup_cons_eq_ite]; rfl
  | cons entry rest ih =>
    obtain ⟨other, value⟩ := entry
    have hrest : ∀ name ∈ rest.map Prod.fst, other < name := (List.pairwise_cons.mp h).1
    unfold upsertEntry
    split
    · rename_i hkey
      have hnone : List.lookup key ((other, value) :: rest) = none := by
        refine lookup_eq_none_of_lt fun name hname ↦ ?_
        rcases List.mem_cons.mp hname with rfl | hname
        · exact hkey
        · exact String.lt_trans hkey (hrest name hname)
      rw [lookup_cons_eq_ite, hnone]
    · split
      · rename_i hother
        have hne : key ≠ other := fun heq ↦ String.lt_irrefl _ (heq ▸ hother)
        simp only [lookup_cons_eq_ite, ih (List.pairwise_cons.mp h).2, if_neg hne]
        by_cases hname : name = other
        · simp [hname, hne.symm]
        · simp [hname]
      · rename_i hkey hother
        obtain rfl : key = other := eq_of_not_lt hkey hother
        simp only [lookup_cons_eq_ite, if_pos]
        by_cases hname : name = key <;> simp [hname]

theorem entries_eq_of_lookup_eq {entries others : List (String × α)}
    (hentries : (entries.map Prod.fst).Pairwise (· < ·))
    (hothers : (others.map Prod.fst).Pairwise (· < ·))
    (h : ∀ key, entries.lookup key = others.lookup key) : entries = others := by
  induction entries generalizing others with
  | nil =>
    cases others with
    | nil => rfl
    | cons other rest =>
      obtain ⟨key, value⟩ := other
      simpa [lookup_cons_eq_ite] using h key
  | cons entry rest ih =>
    cases others with
    | nil =>
      obtain ⟨key, value⟩ := entry
      simpa [lookup_cons_eq_ite] using h key
    | cons other rest' =>
      obtain ⟨key, value⟩ := entry
      obtain ⟨key', value'⟩ := other
      have hrest : ∀ name ∈ rest.map Prod.fst, key < name := (List.pairwise_cons.mp hentries).1
      have hrest' : ∀ name ∈ rest'.map Prod.fst, key' < name := (List.pairwise_cons.mp hothers).1
      have hkey : key = key' := by
        refine eq_of_not_lt (fun hlt ↦ ?_) fun hlt ↦ ?_
        · have hnone : List.lookup key ((key', value') :: rest') = none :=
            lookup_eq_none_of_lt fun name hname ↦ by
              rcases List.mem_cons.mp hname with rfl | hname
              · exact hlt
              · exact String.lt_trans hlt (hrest' name hname)
          simpa [hnone, lookup_cons_eq_ite] using h key
        · have hnone : List.lookup key' ((key, value) :: rest) = none :=
            lookup_eq_none_of_lt fun name hname ↦ by
              rcases List.mem_cons.mp hname with rfl | hname
              · exact hlt
              · exact String.lt_trans hlt (hrest name hname)
          simpa [hnone, lookup_cons_eq_ite] using (h key').symm
      subst hkey
      have hvalue : value = value' := by simpa [lookup_cons_eq_ite] using h key
      subst hvalue
      refine congrArg _ (ih (List.pairwise_cons.mp hentries).2 (List.pairwise_cons.mp hothers).2
        fun name ↦ ?_)
      by_cases hname : name = key
      · rw [hname, lookup_eq_none_of_lt hrest, lookup_eq_none_of_lt hrest']
      · simpa [lookup_cons_eq_ite, hname] using h name

/-- A table is determined by its lookups. -/
theorem eq_of_get?_eq {table other : Table α} (h : ∀ key, table.get? key = other.get? key) :
    table = other :=
  ext_entries (entries_eq_of_lookup_eq table.ascending other.ascending h)

@[simp]
theorem get?_empty (key : String) : (empty : Table α).get? key = none := rfl

theorem get?_upsert (table : Table α) (key name : String) (update : Option α → α) :
    (table.upsert key update).get? name =
      if name = key then some (update (table.get? key)) else table.get? name :=
  lookup_upsertEntry key name update table.ascending

theorem get?_insert (table : Table α) (key name : String) (value : α) :
    (table.insert key value).get? name = if name = key then some value else table.get? name :=
  get?_upsert table key name fun _ ↦ value

end Table

end WeakComponents
