import Mathlib.Data.List.Basic

/-!
Texts whose parts end with a separator, and the bytes of a text. The parts can be told from the whole if the separator is
in none of them; the text can be told from its bytes.
-/

namespace Delimited

section Fields

variable {α : Type} {sep : α}

/-- Every field, with the separator behind it. -/
def join (sep : α) (fields : List (List α)) : List α := fields.flatMap fun field => field ++ [sep]

@[simp] theorem join_nil : join sep [] = [] := rfl

@[simp] theorem join_cons (field : List α) (fields : List (List α)) :
    join sep (field :: fields) = field ++ sep :: join sep fields := by
  rw [join, List.flatMap_cons, List.append_assoc]
  rfl

@[simp] theorem join_append (left right : List (List α)) : join sep (left ++ right) = join sep left ++ join sep right :=
  List.flatMap_append

/-- The first separator ends the first field. -/
theorem append_sep_inj {field field' rest rest' : List α} (h : sep ∉ field) (h' : sep ∉ field') :
    field ++ sep :: rest = field' ++ sep :: rest' ↔ field = field' ∧ rest = rest' := by
  constructor
  · intro hsame
    induction field generalizing field' with
    | nil =>
        cases field' with
        | nil => exact ⟨rfl, (List.cons.inj hsame).2⟩
        | cons c field' =>
            obtain ⟨rfl, -⟩ := List.cons.inj hsame
            exact absurd List.mem_cons_self h'
    | cons c field ih =>
        rw [List.mem_cons, not_or] at h
        cases field' with
        | nil => exact absurd (List.cons.inj hsame).1.symm h.1
        | cons d field' =>
            rw [List.mem_cons, not_or] at h'
            obtain ⟨rfl, hbehind⟩ := List.cons.inj hsame
            obtain ⟨rfl, hrest⟩ := ih h.2 h'.2 hbehind
            exact ⟨rfl, hrest⟩
  · rintro ⟨rfl, rfl⟩
    rfl

/-- **Fields without the separator** can be told from their join. -/
theorem join_inj {fields fields' : List (List α)} (h : ∀ field ∈ fields, sep ∉ field)
    (h' : ∀ field ∈ fields', sep ∉ field) : join sep fields = join sep fields' ↔ fields = fields' := by
  constructor
  · intro hsame
    induction fields generalizing fields' with
    | nil =>
        cases fields' with
        | nil => rfl
        | cons field' fields' => simp at hsame
    | cons field fields ih =>
        cases fields' with
        | nil => simp at hsame
        | cons field' fields' =>
            rw [List.forall_mem_cons] at h h'
            rw [join_cons, join_cons, append_sep_inj h.1 h'.1] at hsame
            rw [hsame.1, ih h.2 h'.2 hsame.2]
  · rintro rfl
    rfl

/-- The fields that end with the separator, and what comes behind the last one. -/
def split [DecidableEq α] (sep : α) : List α → List (List α) × List α
  | [] => ([], [])
  | c :: rest =>
      if c = sep then ([] :: (split sep rest).1, (split sep rest).2)
      else match split sep rest with
        | ([], last) => ([], c :: last)
        | (field :: fields, last) => ((c :: field) :: fields, last)

theorem split_append_sep [DecidableEq α] {field : List α} (h : sep ∉ field) (rest : List α) :
    split sep (field ++ sep :: rest) = (field :: (split sep rest).1, (split sep rest).2) := by
  induction field with
  | nil => rw [List.nil_append, split, if_pos rfl]
  | cons c field ih =>
      rw [List.mem_cons, not_or] at h
      rw [List.cons_append, split, if_neg (Ne.symm h.1), ih h.2]

/-- **Fields without the separator** are read back. -/
theorem split_join [DecidableEq α] {fields : List (List α)} (h : ∀ field ∈ fields, sep ∉ field) :
    split sep (join sep fields) = (fields, []) := by
  induction fields with
  | nil => rfl
  | cons field fields ih =>
      rw [List.forall_mem_cons] at h
      rw [join_cons, split_append_sep h.1, ih h.2]

end Fields

/-- What the loop of `ByteArray.toList` still has to read. -/
theorem toList_loop (bytes : ByteArray) (index : Nat) (read : List UInt8) :
    ByteArray.toList.loop bytes index read = read.reverse ++ bytes.data.toList.drop index := by
  induction index, read using ByteArray.toList.loop.induct bytes with
  | case1 index read hlt ih =>
      have hlength : index < bytes.data.toList.length := hlt
      have hdrop := List.drop_eq_getElem_cons hlength
      rw [ByteArray.toList.loop, if_pos hlt, ih, hdrop, List.reverse_cons, List.append_assoc, List.singleton_append]
      simp [ByteArray.get!, hlt]
  | case2 index read hge =>
      have hlength : bytes.data.toList.length ≤ index := Nat.le_of_not_lt hge
      rw [ByteArray.toList.loop, if_neg hge, List.drop_of_length_le hlength, List.append_nil]

theorem toList_eq (bytes : ByteArray) : bytes.toList = bytes.data.toList := toList_loop bytes 0 []

theorem toUTF8_append (left right : String) :
    (left ++ right).toUTF8.toList = left.toUTF8.toList ++ right.toUTF8.toList := by
  simp only [toList_eq, String.toUTF8_eq_toByteArray, String.toByteArray_append, ByteArray.data_append,
    Array.toList_append]

theorem toUTF8_inj {left right : String} : left.toUTF8.toList = right.toUTF8.toList ↔ left = right := by
  simp only [toList_eq, String.toUTF8_eq_toByteArray, Array.toList_inj]
  exact ⟨fun h => String.toByteArray_inj.mp (ByteArray.ext h), fun h => by rw [h]⟩

end Delimited
