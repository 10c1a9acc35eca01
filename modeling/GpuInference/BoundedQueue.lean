import Mathlib.Data.List.Induction
import Mathlib.Data.List.Nodup
import Mathlib.Data.List.Perm.Basic
import Mathlib.Order.Basic

/-!
Queues with a bound, and lists grouped by a key. A queue that is full refuses the next item; draining
takes items from the front. Grouping keeps the order of the items under each key, and the keys in the
order in which they first appear.
-/

/-- A first-in-first-out queue. A bound of zero or less is no bound. -/
structure BoundedQueue (α : Type) (bound : Int) where
  items : List α
  bounded : 0 < bound → (items.length : Int) ≤ bound

namespace BoundedQueue

variable {α : Type} {bound : Int}

def empty : BoundedQueue α bound := ⟨[], fun h => Int.le_of_lt h⟩

def full (queue : BoundedQueue α bound) : Bool := 0 < bound ∧ bound ≤ queue.items.length

/-- The queue with one more item at its end, unless it is full. -/
def put (queue : BoundedQueue α bound) (item : α) : Option (BoundedQueue α bound) :=
  if h : queue.full = true then none
  else some {
    items := queue.items ++ [item]
    bounded := by
      intro hbound
      have hroom : ¬ bound ≤ queue.items.length := fun hle => h (decide_eq_true ⟨hbound, hle⟩)
      rw [List.length_append, List.length_singleton]
      omega }

/-- How many of `count` more items the queue takes. -/
def room (queue : BoundedQueue α bound) (count : Nat) : Nat :=
  if 0 < bound then min count (bound - queue.items.length).toNat else count

/-- The first item and the rest, unless the queue is empty. -/
def get (queue : BoundedQueue α bound) : Option (α × BoundedQueue α bound) :=
  match h : queue.items with
  | [] => none
  | item :: items => some (item, {
      items := items
      bounded := by
        intro hbound
        have hlength := queue.bounded hbound
        rw [h, List.length_cons] at hlength
        omega })

/-- Take items until there are `count` of them or the queue is empty. -/
def drain : Nat → BoundedQueue α bound → List α × BoundedQueue α bound
  | 0, queue => ([], queue)
  | count + 1, queue =>
      match queue.get with
      | none => ([], queue)
      | some (item, rest) => (item :: (drain count rest).1, (drain count rest).2)

@[simp] theorem items_empty : (empty : BoundedQueue α bound).items = [] := rfl

theorem items_put {queue queue' : BoundedQueue α bound} {item : α} (h : queue.put item = some queue') :
    queue'.items = queue.items ++ [item] := by
  unfold put at h
  split at h
  · cases h
  · cases h
    rfl

theorem full_of_put {queue : BoundedQueue α bound} {item : α} (h : queue.put item = none) :
    queue.full = true := by
  unfold put at h
  split at h
  · assumption
  · cases h

theorem full_iff {queue : BoundedQueue α bound} :
    queue.full = true ↔ 0 < bound ∧ bound ≤ queue.items.length := by
  simp [full]

/-- A full queue takes nothing. -/
theorem room_of_put_none {queue : BoundedQueue α bound} {item : α} (h : queue.put item = none) (count : Nat) :
    queue.room count = 0 := by
  obtain ⟨hbound, hfull⟩ := full_iff.mp (full_of_put h)
  rw [room, if_pos hbound]
  omega

/-- A queue that takes an item has had room for it. -/
theorem room_of_put_some {queue queue' : BoundedQueue α bound} {item : α} (h : queue.put item = some queue')
    (count : Nat) : queue.room (count + 1) = queue'.room count + 1 := by
  have hitems := congrArg List.length (items_put h)
  rw [List.length_append, List.length_singleton] at hitems
  unfold room
  split
  · rename_i hbound
    have hroom : ¬ bound ≤ queue.items.length := by
      intro hfull
      rw [put, dif_pos (full_iff.mpr ⟨hbound, hfull⟩)] at h
      cases h
    omega
  · rfl

/-- What was drained fits again, whatever the bound. -/
theorem room_of_le {queue : BoundedQueue α bound} {count : Nat}
    (h : 0 < bound → ((queue.items.length + count : Nat) : Int) ≤ bound) : queue.room count = count := by
  unfold room
  split
  · rename_i hbound
    have hfits := h hbound
    omega
  · rfl

/-- A queue without items has room. -/
theorem put_of_empty {queue : BoundedQueue α bound} (h : queue.items = []) (item : α) :
    ∃ queue', queue.put item = some queue' := by
  cases hput : queue.put item with
  | some queue' => exact ⟨queue', rfl⟩
  | none =>
      obtain ⟨hbound, hfull⟩ := of_decide_eq_true (full_of_put hput)
      rw [h, List.length_nil] at hfull
      omega

theorem get_eq_none {queue : BoundedQueue α bound} : queue.get = none ↔ queue.items = [] := by
  unfold get
  split
  · rename_i h
    exact iff_of_true rfl h
  · rename_i item items h
    refine iff_of_false (Option.some_ne_none _) ?_
    rw [h]
    exact List.cons_ne_nil item items

theorem items_get {queue rest : BoundedQueue α bound} {item : α} (h : queue.get = some (item, rest)) :
    queue.items = item :: rest.items := by
  unfold get at h
  split at h
  · cases h
  · rename_i items hitems
    cases h
    exact hitems

/-- What is drained is the front of the queue, and what is left is the rest. -/
theorem items_drain (count : Nat) (queue : BoundedQueue α bound) :
    (queue.drain count).1 = queue.items.take count ∧
      (queue.drain count).2.items = queue.items.drop count := by
  induction count generalizing queue with
  | zero => exact ⟨List.take_zero.symm, List.drop_zero.symm⟩
  | succ count ih =>
      unfold drain
      split
      · rename_i hget
        rw [get_eq_none.mp hget]
        exact ⟨List.take_nil.symm, List.drop_nil.symm⟩
      · rename_i item rest hget
        rw [items_get hget, List.take_succ_cons, List.drop_succ_cons, (ih rest).1]
        exact ⟨rfl, (ih rest).2⟩

end BoundedQueue

namespace Grouping

variable {α β κ : Type} [DecidableEq κ]

/-- Append a value under its key, which is new at the end. -/
def append (groups : List (κ × List β)) (key : κ) (value : β) : List (κ × List β) :=
  match groups with
  | [] => [(key, [value])]
  | (other, values) :: rest =>
      if other = key then (other, values ++ [value]) :: rest
      else (other, values) :: append rest key value

def group (key : α → κ) (value : α → β) (items : List α) : List (κ × List β) :=
  items.foldl (fun groups item => append groups (key item) (value item)) []

theorem group_append (key : α → κ) (value : α → β) (items : List α) (item : α) :
    group key value (items ++ [item]) = append (group key value items) (key item) (value item) := by
  rw [group, List.foldl_append]
  rfl

/-- Appending adds one value to the values of all groups. -/
theorem values_append (groups : List (κ × List β)) (key : κ) (value : β) :
    ((append groups key value).flatMap Prod.snd).Perm (groups.flatMap Prod.snd ++ [value]) := by
  induction groups with
  | nil => exact List.Perm.refl _
  | cons entry rest ih =>
      obtain ⟨other, values⟩ := entry
      unfold append
      split
      · simp only [List.flatMap_cons, List.append_assoc]
        exact (List.perm_append_comm).append_left values
      · simp only [List.flatMap_cons, List.append_assoc]
        exact ih.append_left values

/-- Grouping keeps every value. -/
theorem values_group (key : α → κ) (value : α → β) (items : List α) :
    ((group key value items).flatMap Prod.snd).Perm (items.map value) := by
  induction items using List.reverseRecOn with
  | nil => exact List.Perm.refl _
  | append_singleton items item ih =>
      rw [group_append, List.map_append, List.map_singleton]
      exact (values_append _ _ _).trans (ih.append_right _)

theorem keys_append (groups : List (κ × List β)) (key : κ) (value : β) :
    (append groups key value).map Prod.fst =
      if key ∈ groups.map Prod.fst then groups.map Prod.fst else groups.map Prod.fst ++ [key] := by
  induction groups with
  | nil => rfl
  | cons entry rest ih =>
      obtain ⟨other, values⟩ := entry
      unfold append
      by_cases hkey : other = key
      · simp [hkey]
      · have hne : key ≠ other := Ne.symm hkey
        rw [if_neg hkey, List.map_cons, ih]
        by_cases hmem : key ∈ rest.map Prod.fst
        · simp [hmem]
        · simp [hmem, hne]

theorem nodup_keys_append {groups : List (κ × List β)} (h : (groups.map Prod.fst).Nodup) (key : κ)
    (value : β) : ((append groups key value).map Prod.fst).Nodup := by
  rw [keys_append]
  split
  · exact h
  · rename_i hmem
    rw [List.nodup_append]
    refine ⟨h, List.nodup_singleton _, ?_⟩
    rintro a ha b hb rfl
    rw [List.mem_singleton] at hb
    exact hmem (hb ▸ ha)

/-- No key has two groups. -/
theorem nodup_keys_group (key : α → κ) (value : α → β) (items : List α) :
    ((group key value items).map Prod.fst).Nodup := by
  induction items using List.reverseRecOn with
  | nil => exact List.nodup_nil
  | append_singleton items item ih =>
      rw [group_append]
      exact nodup_keys_append ih _ _

/-- The group of a key after appending, by whether it is the key of the new value. -/
theorem mem_append {groups : List (κ × List β)} (hnodup : (groups.map Prod.fst).Nodup) {key k : κ}
    {value : β} {values : List β} (h : (k, values) ∈ append groups key value) :
    if k = key then ∃ old, ((k, old) ∈ groups ∨ old = [] ∧ k ∉ groups.map Prod.fst) ∧
      values = old ++ [value] else (k, values) ∈ groups := by
  induction groups with
  | nil =>
      obtain ⟨rfl, rfl⟩ := Prod.mk.inj (List.mem_singleton.mp h)
      rw [if_pos rfl]
      exact ⟨[], .inr ⟨rfl, List.not_mem_nil⟩, rfl⟩
  | cons entry rest ih =>
      obtain ⟨other, old⟩ := entry
      rw [List.map_cons, List.nodup_cons] at hnodup
      obtain ⟨hfresh, hnodup⟩ := hnodup
      unfold append at h
      by_cases hother : other = key
      · subst hother
        rw [if_pos rfl] at h
        rcases List.mem_cons.mp h with heq | hrest
        · obtain ⟨rfl, rfl⟩ := Prod.mk.inj heq
          rw [if_pos rfl]
          exact ⟨old, .inl (List.mem_cons_self ..), rfl⟩
        · have hne : k ≠ other := fun heq => hfresh (List.mem_map.mpr ⟨(k, values), hrest, heq⟩)
          rw [if_neg hne]
          exact List.mem_cons_of_mem _ hrest
      · rw [if_neg hother] at h
        rcases List.mem_cons.mp h with heq | hrest
        · obtain ⟨rfl, rfl⟩ := Prod.mk.inj heq
          rw [if_neg hother]
          exact List.mem_cons_self ..
        · have hmem := ih hnodup hrest
          by_cases hkey : k = key
          · subst hkey
            rw [if_pos rfl] at hmem ⊢
            obtain ⟨old', hold', rfl⟩ := hmem
            refine ⟨old', ?_, rfl⟩
            rcases hold' with hmem' | ⟨hnil, hnone⟩
            · exact .inl (List.mem_cons_of_mem _ hmem')
            · refine .inr ⟨hnil, ?_⟩
              rw [List.map_cons, List.mem_cons, not_or]
              exact ⟨Ne.symm hother, hnone⟩
          · rw [if_neg hkey] at hmem ⊢
            exact List.mem_cons_of_mem _ hmem

theorem key_mem_append (groups : List (κ × List β)) (key : κ) (value : β) (k : κ) :
    k ∈ (append groups key value).map Prod.fst ↔ k ∈ groups.map Prod.fst ∨ k = key := by
  rw [keys_append]
  split
  · rename_i hmem
    constructor
    · exact Or.inl
    · intro h
      rcases h with h | heq
      · exact h
      · rw [heq]
        exact hmem
  · rw [List.mem_append, List.mem_singleton]

theorem key_mem_group {key : α → κ} {value : α → β} {items : List α} {k : κ} :
    k ∈ (group key value items).map Prod.fst ↔ ∃ item ∈ items, key item = k := by
  induction items using List.reverseRecOn with
  | nil => simp [group]
  | append_singleton items item ih =>
      rw [group_append, key_mem_append, ih]
      constructor
      · intro h
        rcases h with ⟨found, hfound, hkey⟩ | hkey
        · exact ⟨found, List.mem_append_left _ hfound, hkey⟩
        · exact ⟨item, List.mem_append_right _ (List.mem_singleton_self _), hkey.symm⟩
      · intro h
        obtain ⟨found, hfound, hkey⟩ := h
        rcases List.mem_append.mp hfound with hfound | hfound
        · exact .inl ⟨found, hfound, hkey⟩
        · rw [List.mem_singleton.mp hfound] at hkey
          exact .inr hkey.symm

/-- A group holds the values of its key, in the order of the items. -/
theorem values_of_mem_group {key : α → κ} {value : α → β} {items : List α} {k : κ} {values : List β}
    (h : (k, values) ∈ group key value items) :
    values = (items.filter fun item => key item = k).map value := by
  induction items using List.reverseRecOn generalizing values with
  | nil => cases h
  | append_singleton items item ih =>
      rw [group_append] at h
      have hmem := mem_append (nodup_keys_group key value items) h
      rw [List.filter_append, List.map_append]
      by_cases hkey : k = key item
      · rw [if_pos hkey] at hmem
        obtain ⟨old, hold, rfl⟩ := hmem
        have hsame : (key item = k) := hkey.symm
        rcases hold with hold | ⟨rfl, hnone⟩
        · simp [ih hold, hsame]
        · have hempty : items.filter (fun item => key item = k) = [] := by
            rw [List.filter_eq_nil_iff]
            intro other hother hk
            exact hnone (key_mem_group.mpr ⟨other, hother, by simpa using hk⟩)
          simp [hempty, hsame]
      · rw [if_neg hkey] at hmem
        have hdiffers : key item ≠ k := Ne.symm hkey
        simp [ih hmem, hdiffers]

end Grouping
