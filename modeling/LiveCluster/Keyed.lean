/-!
# Keyed lists

A table in the order in which its keys first came. Writing a key that is there
replaces its entry in place, writing a new one appends; so iteration order is the
order of first insertion, and a key that was erased and written again comes last.
-/

namespace LiveCluster

/-- A table from texts, in insertion order. -/
abbrev Keyed (α : Type) := List (String × α)

namespace Keyed

variable {α : Type}

/-- The entry under a key. -/
def get? (table : Keyed α) (key : String) : Option α :=
  table.lookup key

/-- Whether the key is there. -/
def has (table : Keyed α) (key : String) : Bool :=
  (table.lookup key).isSome

/-- The keys in order. -/
def keys (table : Keyed α) : List String :=
  table.map (·.1)

/-- The entries in order. -/
def entries (table : Keyed α) : List α :=
  table.map (·.2)

/-- Writes an entry: in its place if the key is there, else at the end. -/
def set : Keyed α → String → α → Keyed α
  | [], key, x => [(key, x)]
  | (k, old) :: rest, key, x =>
    if k = key then (key, x) :: rest else (k, old) :: set rest key x

/-- The table without a key. -/
def erase (table : Keyed α) (key : String) : Keyed α :=
  table.filter (·.1 ≠ key)

/-- The entries under some of the keys. -/
def restrict (keep : String → Bool) (table : Keyed α) : Keyed α :=
  table.filter fun entry => keep entry.1

/-- The table that results from writing entries one after another. -/
def ofList (entries : List (String × α)) : Keyed α :=
  entries.foldl (fun table (key, x) => table.set key x) []

@[simp] theorem get?_nil (key : String) : get? ([] : Keyed α) key = none := rfl

@[simp] theorem get?_cons (k key : String) (x : α) (rest : Keyed α) :
    get? ((k, x) :: rest) key = if key = k then some x else get? rest key := by
  by_cases h : key = k
  · simp [get?, h]
  · simp [get?, List.lookup_cons, beq_eq_false_iff_ne.2 h, h]

/-- A key is there exactly when it is among the keys. -/
theorem has_iff_mem_keys {table : Keyed α} {key : String} :
    table.has key = true ↔ key ∈ table.keys := by
  change (get? table key).isSome = true ↔ _
  induction table with
  | nil => simp [keys]
  | cons entry rest ih =>
    rw [get?_cons, keys, List.map_cons, List.mem_cons, ← keys, ← ih]
    by_cases h : key = entry.1 <;> simp [h]

/-- An entry that was written is found, and every other one as before. -/
theorem get?_set (table : Keyed α) (key : String) (x : α) (k : String) :
    (table.set key x).get? k = if k = key then some x else table.get? k := by
  induction table with
  | nil => simp [set]
  | cons entry rest ih =>
    rw [set]
    split
    · rename_i h
      subst h
      rw [get?_cons, get?_cons]
      by_cases hk : k = entry.1 <;> simp [hk]
    · rename_i h
      rw [get?_cons, get?_cons, ih]
      by_cases hk : k = entry.1
      · simp [hk, h]
      · simp [hk]

/-- A key that was erased is not found, and every other entry as before. -/
theorem get?_erase (table : Keyed α) (key k : String) :
    (table.erase key).get? k = if k = key then none else table.get? k := by
  induction table with
  | nil => simp [erase]
  | cons entry rest ih =>
    rw [erase, List.filter_cons, ← erase]
    split
    · rename_i h
      rw [get?_cons, get?_cons, ih]
      by_cases hk : k = entry.1
      · simp_all
      · simp [hk]
    · rename_i h
      rw [ih, get?_cons]
      by_cases hk : k = entry.1 <;> simp_all

/-- Writing keeps the place of a key that is there and appends one that is not. -/
theorem keys_set (table : Keyed α) (key : String) (x : α) :
    (table.set key x).keys = if key ∈ table.keys then table.keys else table.keys ++ [key] := by
  induction table with
  | nil => simp [set, keys]
  | cons entry rest ih =>
    rw [set]
    simp only [keys, List.map_cons, List.mem_cons] at ih ⊢
    by_cases h : entry.1 = key
    · simp [h]
    · rw [if_neg h, List.map_cons, ih]
      by_cases hk : key ∈ rest.map (·.1) <;> simp [hk, Ne.symm h]

/-- Erasing keeps the order of the other keys. -/
theorem keys_erase (table : Keyed α) (key : String) :
    (table.erase key).keys = table.keys.filter (· ≠ key) := by
  simp only [erase, keys, List.filter_map]
  rfl

/-- A table never has a key twice, if it is made by writing. -/
theorem nodup_keys_set {table : Keyed α} (h : table.keys.Nodup) (key : String) (x : α) :
    (table.set key x).keys.Nodup := by
  rw [keys_set]
  split
  · exact h
  · rename_i hk
    refine List.nodup_append.2 ⟨h, by simp, ?_⟩
    intro a ha b hb
    rw [List.mem_singleton] at hb
    subst hb
    exact fun hab => hk (hab ▸ ha)

/-- Writing adds no entry but the one that is written. -/
theorem mem_entries_set {table : Keyed α} {key : String} {x y : α}
    (h : y ∈ entries (table.set key x)) : y ∈ table.entries ∨ y = x := by
  induction table with
  | nil =>
      rw [set, entries, List.map_singleton, List.mem_singleton] at h
      exact .inr h
  | cons entry rest ih =>
      rw [entries, List.map_cons, List.mem_cons]
      rw [set] at h
      split at h
      · rw [entries, List.map_cons, List.mem_cons] at h
        rcases h with h | h
        · exact .inr h
        · exact .inl (.inr h)
      · rw [entries, List.map_cons, List.mem_cons] at h
        rcases h with h | h
        · exact .inl (.inl h)
        · exact (ih h).imp .inr id

/-- What is under a key that is kept stays there. -/
theorem get?_restrict (keep : String → Bool) {key : String} (h : keep key = true)
    (table : Keyed α) : (table.restrict keep).get? key = table.get? key := by
  induction table with
  | nil => rfl
  | cons entry rest ih =>
      rw [restrict, List.filter_cons, ← restrict, get?_cons]
      by_cases hkey : key = entry.1
      · subst hkey
        rw [if_pos h, if_pos rfl, get?_cons, if_pos rfl]
      · rw [if_neg hkey]
        split
        · rw [get?_cons, if_neg hkey, ih]
        · exact ih

/-- What is in a table after writing was there before or was written. -/
theorem mem_set {table : Keyed α} {key : String} {x : α} {entry : String × α}
    (h : entry ∈ table.set key x) : entry ∈ table ∨ entry = (key, x) := by
  induction table with
  | nil => exact .inr (List.mem_singleton.1 h)
  | cons first rest ih =>
      rw [set] at h
      split at h
      · rcases List.mem_cons.1 h with h | h
        · exact .inr h
        · exact .inl (List.mem_cons_of_mem _ h)
      · rcases List.mem_cons.1 h with h | h
        · exact .inl (h ▸ List.mem_cons_self)
        · exact (ih h).imp (List.mem_cons_of_mem _) id

theorem nodup_keys_erase {table : Keyed α} (h : table.keys.Nodup) (key : String) :
    (table.erase key).keys.Nodup := by
  rw [keys_erase]
  exact h.filter _

/-- What is found is among the entries. -/
theorem mem_entries_of_get? {table : Keyed α} {key : String} {x : α}
    (h : table.get? key = some x) : x ∈ table.entries := by
  induction table with
  | nil => cases h
  | cons entry rest ih =>
      rw [entries, List.map_cons, List.mem_cons]
      rw [get?_cons] at h
      split at h
      · cases h
        exact .inl rfl
      · exact .inr (ih h)

/-- Where each key is there once, what is found under a key is what stands beside it. -/
theorem get?_eq_some_iff {table : Keyed α} {key : String} {x : α} (h : table.keys.Nodup) :
    table.get? key = some x ↔ (key, x) ∈ table := by
  induction table with
  | nil => simp
  | cons entry rest ih =>
      obtain ⟨k, y⟩ := entry
      obtain ⟨hk, hrest⟩ := List.nodup_cons.1 h
      rw [get?_cons, List.mem_cons, Prod.mk.injEq]
      split
      · next heq =>
          subst heq
          have hother : (key, x) ∉ rest := fun hin => hk (List.mem_map.2 ⟨_, hin, rfl⟩)
          simp [hother, eq_comm]
      · next hne =>
          rw [ih hrest]
          simp [hne]

end Keyed

end LiveCluster
