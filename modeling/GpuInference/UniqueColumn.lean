import Mathlib.Data.List.Nodup

/-!
Insertions into a unique column. A value is stored in the form that the column gives it, if it has one, and an
insertion fails when that form is there already. Whether a stored value is there for the insertions that follow
depends on what becomes of the transaction that inserted it.
-/

namespace UniqueColumn

variable {α κ : Type} (store : α → Option κ) (keeps : Bool)

/-- The column after an insertion has succeeded. -/
def after (taken : List κ) (stored : κ) : List κ := if keeps then taken ++ [stored] else taken

/-- The value has a stored form that is not there. -/
def Admits (taken : List κ) (value : α) (stored : κ) : Prop := store value = some stored ∧ stored ∉ taken

/-- The insertions succeed, one after the other. -/
def Accepts : List κ → List α → Prop
  | _, [] => True
  | taken, value :: values => ∃ stored, Admits store taken value stored ∧ Accepts (after keeps taken stored) values

/-- The values can be stored, none of their forms is taken, and where they are kept no two have the same. -/
def Fits (taken : List κ) (values : List α) : Prop :=
  ∃ stored : List κ, values.map store = stored.map some ∧ (∀ k ∈ stored, k ∉ taken) ∧
    (keeps = true → stored.Nodup)

variable {store keeps}

theorem not_mem_after {taken : List κ} {stored k : κ} :
    k ∉ after keeps taken stored ↔ k ∉ taken ∧ (keeps = true → k ≠ stored) := by
  cases keeps with
  | false => simp [after]
  | true => simp [after]

theorem nodup_after {taken ks : List κ} {k : κ} (h : (taken ++ k :: ks).Nodup) :
    (after keeps taken k ++ ks).Nodup := by
  cases keeps with
  | false => exact h.sublist ((List.Sublist.refl taken).append (List.sublist_cons_self k ks))
  | true =>
      rw [after, if_pos rfl, List.append_assoc]
      exact h

theorem map_after {ι : Type} (f : κ → ι) (taken : List κ) (stored : κ) :
    (after keeps taken stored).map f = after keeps (taken.map f) (f stored) := by
  cases keeps with
  | false => rfl
  | true => exact List.map_append

theorem subset_after (taken : List κ) (stored : κ) : taken ⊆ after keeps taken stored := by
  cases keeps with
  | false => exact List.Subset.refl taken
  | true => exact List.subset_append_left taken _

theorem fits_nil (taken : List κ) : Fits store keeps taken ([] : List α) :=
  ⟨[], rfl, List.forall_mem_nil _, fun _ => List.nodup_nil⟩

theorem fits_cons {taken : List κ} {value : α} {values : List α} :
    Fits store keeps taken (value :: values) ↔
      ∃ stored, Admits store taken value stored ∧ Fits store keeps (after keeps taken stored) values := by
  constructor
  · rintro ⟨stored, hmap, hfree, hnodup⟩
    cases stored with
    | nil => cases hmap
    | cons k ks =>
        obtain ⟨hstore, hvalues⟩ := List.cons.inj hmap
        refine ⟨k, ⟨hstore, hfree k List.mem_cons_self⟩, ks, hvalues, ?_, fun hkeeps => (hnodup hkeeps).of_cons⟩
        intro other hother
        refine not_mem_after.mpr ⟨hfree other (List.mem_cons_of_mem _ hother), ?_⟩
        rintro hkeeps rfl
        exact (List.nodup_cons.mp (hnodup hkeeps)).1 hother
  · rintro ⟨k, ⟨hstore, hk⟩, ks, hvalues, hfree, hnodup⟩
    refine ⟨k :: ks, ?_, ?_, ?_⟩
    · rw [List.map_cons, List.map_cons, hstore, hvalues]
    · intro other hother
      rcases List.mem_cons.mp hother with rfl | hother
      · exact hk
      · exact (not_mem_after.mp (hfree other hother)).1
    · intro hkeeps
      refine List.nodup_cons.mpr ⟨?_, hnodup hkeeps⟩
      intro hmem
      exact (not_mem_after.mp (hfree k hmem)).2 hkeeps rfl

/-- **Insertions one after the other succeed if and only if the values fit together.** -/
theorem accepts_iff_fits (taken : List κ) (values : List α) :
    Accepts store keeps taken values ↔ Fits store keeps taken values := by
  induction values generalizing taken with
  | nil => exact iff_of_true trivial (fits_nil taken)
  | cons value values ih =>
      rw [fits_cons, Accepts]
      exact exists_congr fun stored => and_congr_right fun _ => ih _

end UniqueColumn
