import Mathlib.Data.List.Basic

/-!
Columns of tables. A column takes some values and refuses others, and what it keeps of a value may be less than the
value. An update writes the columns that have been changed since the row was read, and no others.
-/

/-- The values that a column takes, and what it keeps of them. -/
structure TableColumn (α : Type) where
  takes : α → Bool
  keeps : α → α

namespace TableColumn

variable {α : Type}

/-- A column that takes every value as it is. -/
def plain : TableColumn α := ⟨fun _ => true, id⟩

/-- A column that may be NULL. -/
def nullable (column : TableColumn α) : TableColumn (Option α) :=
  ⟨fun value => value.all column.takes, Option.map column.keeps⟩

/-- VARCHAR(`n`) in Postgres: a text without null characters; after its first `n` characters there may be spaces only,
and these are cut off. -/
def varchar (n : Nat) : TableColumn String where
  takes value := !value.toList.contains (Char.ofNat 0) && (value.toList.drop n).all (· = ' ')
  keeps value := String.ofList (value.toList.take n)

/-- INTEGER, of four bytes. -/
def integer : TableColumn Int := ⟨fun value => -2147483648 ≤ value && value < 2147483648, id⟩

/-- The column takes the value and keeps it as it is. -/
def Holds (column : TableColumn α) (value : α) : Prop := column.takes value = true ∧ column.keeps value = value

/-- What the column keeps of the values that it takes, it holds. -/
def Lawful (column : TableColumn α) : Prop := ∀ value, column.takes value = true → column.Holds (column.keeps value)

section Writes

variable [DecidableEq α] (column : TableColumn α)

/-- A value can be written where `loaded` has been read, if anything has: the value that was read is not written. -/
def accepts (loaded : Option α) (value : α) : Bool := loaded = some value || column.takes value

/-- What an update leaves in the column where `stored` is by then. -/
def flush (loaded changed stored : α) : α := if changed = loaded then stored else column.keeps changed

@[simp] theorem accepts_loaded (value : α) : column.accepts (some value) value = true := by simp [accepts]

@[simp] theorem accepts_none (value : α) : column.accepts none value = column.takes value := by simp [accepts]

theorem accepts_of_takes {value : α} (h : column.takes value = true) (loaded : Option α) :
    column.accepts loaded value = true := by simp [accepts, h]

@[simp] theorem flush_loaded (loaded stored : α) : column.flush loaded loaded stored = stored := if_pos rfl

/-- A value that the column keeps as it is is what the update of the row as it was read leaves. -/
theorem flush_self {loaded changed : α} (h : column.keeps changed = changed) :
    column.flush loaded changed loaded = changed := by
  unfold flush
  split
  · rename_i hsame
    exact hsame.symm
  · exact h

/-- The value that has been read is one that the column takes, so that it matters only whether it takes the new one. -/
theorem accepts_iff_takes {loaded value : α} (h : column.Holds loaded) :
    column.accepts (some loaded) value = true ↔ column.takes value = true := by
  refine ⟨?_, fun htakes => column.accepts_of_takes htakes _⟩
  intro haccepts
  rcases Bool.or_eq_true_iff.mp haccepts with hsame | htakes
  · rw [← Option.some.inj (of_decide_eq_true hsame)]
    exact h.1
  · exact htakes

/-- An update leaves the new value exactly when the column keeps it as it is. -/
theorem flush_eq_iff {loaded value : α} (h : column.Holds loaded) :
    column.flush loaded value loaded = value ↔ column.keeps value = value := by
  refine ⟨?_, column.flush_self⟩
  intro hflush
  unfold flush at hflush
  split at hflush
  · rename_i hsame
    rw [hsame]
    exact h.2
  · exact hflush

theorem holds_flush (hlawful : column.Lawful) {loaded value : α} (h : column.Holds loaded)
    (haccepts : column.accepts (some loaded) value = true) : column.Holds (column.flush loaded value loaded) := by
  unfold flush
  split
  · exact h
  · exact hlawful value ((column.accepts_iff_takes h).mp haccepts)

end Writes

@[simp] theorem takes_plain (value : α) : plain.takes value = true := rfl

@[simp] theorem keeps_plain (value : α) : plain.keeps value = value := rfl

@[simp] theorem accepts_plain [DecidableEq α] (loaded : Option α) (value : α) :
    plain.accepts loaded value = true := by simp [accepts]

@[simp] theorem flush_plain [DecidableEq α] (loaded changed : α) : plain.flush loaded changed loaded = changed :=
  flush_self plain rfl

@[simp] theorem takes_nullable_none (column : TableColumn α) : column.nullable.takes none = true := rfl

@[simp] theorem takes_nullable_some (column : TableColumn α) (value : α) :
    column.nullable.takes (some value) = column.takes value := rfl

@[simp] theorem keeps_nullable_none (column : TableColumn α) : column.nullable.keeps none = none := rfl

@[simp] theorem keeps_nullable_some (column : TableColumn α) (value : α) :
    column.nullable.keeps (some value) = some (column.keeps value) := rfl

@[simp] theorem flush_integer (loaded changed : Int) : integer.flush loaded changed loaded = changed :=
  flush_self integer rfl

/-- A text of at most `n` characters is kept as it is. -/
theorem keeps_varchar {n : Nat} {value : String} (h : value.toList.length ≤ n) : (varchar n).keeps value = value := by
  show String.ofList (value.toList.take n) = value
  rw [List.take_of_length_le h, String.ofList_toList]

theorem takes_varchar {n : Nat} {value : String} (h : value.toList.length ≤ n) :
    (varchar n).takes value = !value.toList.contains (Char.ofNat 0) := by
  show (!value.toList.contains (Char.ofNat 0) && (value.toList.drop n).all (· = ' ')) = _
  rw [List.drop_of_length_le h, List.all_nil, Bool.and_true]

theorem lawful_varchar (n : Nat) : (varchar n).Lawful := by
  intro value htakes
  have hshort : (String.ofList (value.toList.take n)).toList.length ≤ n := by
    rw [String.toList_ofList]
    exact List.length_take_le n _
  refine ⟨?_, keeps_varchar hshort⟩
  show (varchar n).takes (String.ofList (value.toList.take n)) = true
  rw [takes_varchar hshort, String.toList_ofList]
  have hnull := (Bool.and_eq_true_iff.mp htakes).1
  simp only [Bool.not_eq_true', List.contains_eq_mem, decide_eq_false_iff_not] at hnull ⊢
  exact fun hmem => hnull (List.mem_of_mem_take hmem)

theorem Lawful.nullable {column : TableColumn α} (h : column.Lawful) : column.nullable.Lawful := by
  intro value htakes
  cases value with
  | none => exact ⟨rfl, rfl⟩
  | some value =>
      obtain ⟨htaken, hkept⟩ := h value htakes
      exact ⟨htaken, congrArg some hkept⟩

theorem holds_nullable_none (column : TableColumn α) : column.nullable.Holds none := ⟨rfl, rfl⟩

/-- A text that has been cut to `n` characters. -/
theorem keeps_varchar_take (n : Nat) (value : String) :
    (varchar n).keeps (String.ofList (value.toList.take n)) = String.ofList (value.toList.take n) := by
  refine keeps_varchar ?_
  rw [String.toList_ofList]
  exact List.length_take_le n _

end TableColumn
