import Mathlib.Data.List.Nodup

/-!
Tables of rows under distinct keys, in insertion order: a dictionary, or a database table with its
primary key.
-/

/-- Rows under distinct keys. -/
structure KeyedTable (α : Type) {κ : Type} (key : α → κ) where
  rows : List α
  nodup : (rows.map key).Nodup

namespace KeyedTable

variable {α κ : Type} {key : α → κ}

def empty : KeyedTable α key := ⟨[], List.nodup_nil⟩

variable [DecidableEq κ]

def find (table : KeyedTable α key) (k : κ) : Option α := table.rows.find? fun row => key row = k

/-- The table after the row under the key of `row` has been changed to `row`. -/
def replace (table : KeyedTable α key) (row : α) : KeyedTable α key where
  rows := table.rows.map fun old => if key old = key row then row else old
  nodup := by
    have hkeys : (table.rows.map fun old => if key old = key row then row else old).map key =
        table.rows.map key := by
      rw [List.map_map]
      refine List.map_congr_left fun old _ => ?_
      by_cases h : key old = key row
      · simp [h]
      · simp [h]
    rw [hkeys]
    exact table.nodup

/-- The table after `row` has been stored under its key: in place when the key is there. -/
def insert (table : KeyedTable α key) (row : α) : KeyedTable α key :=
  if h : key row ∈ table.rows.map key then table.replace row
  else {
    rows := table.rows ++ [row]
    nodup := by
      rw [List.map_append, List.map_singleton, List.nodup_append]
      refine ⟨table.nodup, List.nodup_singleton _, ?_⟩
      intro a ha b hb hab
      rw [List.mem_singleton] at hb
      exact h (by rw [← hb, ← hab]; exact ha) }

/-- The table without the row under `k`. -/
def erase (table : KeyedTable α key) (k : κ) : KeyedTable α key where
  rows := table.rows.filter fun row => key row ≠ k
  nodup := table.nodup.sublist ((List.filter_sublist).map key)

@[simp] theorem find_empty (k : κ) : (empty : KeyedTable α key).find k = none := rfl

theorem key_of_find {table : KeyedTable α key} {k : κ} {row : α} (h : table.find k = some row) :
    key row = k := by
  simpa using List.find?_some h

theorem mem_of_find {table : KeyedTable α key} {k : κ} {row : α} (h : table.find k = some row) :
    row ∈ table.rows := List.mem_of_find?_eq_some h

/-- A row of the table is the one found under its key. -/
theorem find_of_mem {table : KeyedTable α key} {row : α} (h : row ∈ table.rows) :
    table.find (key row) = some row := by
  cases hfind : table.find (key row) with
  | none =>
      have habsent := List.find?_eq_none.mp hfind row h
      simp at habsent
  | some found =>
      rw [List.inj_on_of_nodup_map table.nodup (mem_of_find hfind) h (key_of_find hfind)]

theorem find_eq_none {table : KeyedTable α key} {k : κ} :
    table.find k = none ↔ k ∉ table.rows.map key := by
  simp [find]

theorem find_replace_map (table : KeyedTable α key) (row : α) (k : κ) :
    (table.replace row).find k =
      (table.find k).map fun old => if key old = key row then row else old := by
  have hkeys : (fun other : α => decide (key other = k)) ∘
      (fun old => if key old = key row then row else old) = fun old => decide (key old = k) := by
    funext old
    by_cases h : key old = key row
    · simp [h]
    · simp [h]
  rw [find, replace, List.find?_map, hkeys, find]

/-- Replacing a row that is there changes what is found under its key and under no other. -/
theorem find_replace {table : KeyedTable α key} {row old : α} (hold : table.find (key row) = some old)
    (k : κ) : (table.replace row).find k = if k = key row then some row else table.find k := by
  rw [find_replace_map]
  by_cases hk : k = key row
  · subst hk
    simp [hold, key_of_find hold]
  · rw [if_neg hk]
    cases hfind : table.find k with
    | none => rfl
    | some found =>
        have hne : key found ≠ key row := by
          rw [key_of_find hfind]
          exact hk
        simp [hne]

/-- Inserting under a fresh key adds a row and changes no other. -/
theorem find_insert {table : KeyedTable α key} {row : α} (hfresh : table.find (key row) = none)
    (k : κ) : (table.insert row).find k = if k = key row then some row else table.find k := by
  rw [insert, dif_neg (find_eq_none.mp hfresh)]
  simp only [find, List.find?_append, List.find?_singleton]
  by_cases hk : key row = k
  · subst hk
    rw [find] at hfresh
    simp [hfresh]
  · rw [if_neg (Ne.symm hk)]
    simp [hk]

theorem rows_insert {table : KeyedTable α key} {row : α} (hfresh : table.find (key row) = none) :
    (table.insert row).rows = table.rows ++ [row] := by
  rw [insert, dif_neg (find_eq_none.mp hfresh)]

/-- What the replaced row and the new one have in common is the same in the whole table. -/
theorem map_replace {β : Type} {table : KeyedTable α key} {row old : α} (f : α → β)
    (hold : table.find (key row) = some old) (h : f row = f old) :
    (table.replace row).rows.map f = table.rows.map f := by
  rw [replace, List.map_map]
  refine List.map_congr_left fun other hother => ?_
  by_cases hkey : key other = key row
  · have hfind : table.find (key row) = some other := by
      rw [← hkey]
      exact find_of_mem hother
    obtain rfl : other = old := Option.some.inj (hfind.symm.trans hold)
    simp [hkey, h]
  · simp [hkey]

/-- Erasing a key removes what is found under it and nothing else. -/
theorem find_erase (table : KeyedTable α key) (k other : κ) :
    (table.erase k).find other = if other = k then none else table.find other := by
  by_cases hother : other = k
  · rw [if_pos hother, find_eq_none]
    intro hmem
    obtain ⟨row, hrow, hkey⟩ := List.mem_map.mp hmem
    have hne := (List.mem_filter.mp hrow).2
    rw [hkey, hother] at hne
    simp at hne
  · rw [if_neg hother, find, erase, List.find?_filter]
    congr 1
    funext row
    by_cases hkey : key row = other
    · simp [hkey, hother]
    · simp [hkey]

end KeyedTable
