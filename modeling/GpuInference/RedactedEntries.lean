import GpuInference.SentryScrub
import Mathlib.Data.List.Perm.Basic

/-!
The entries that are replaced. Two values that differ in them only are scrubbed to the same one; outside of them a
scrubbed value has the keys, the lengths and the scalars that it had before.
-/

namespace GpuInference

variable {Key Scalar : Type}

mutual

/-- Two values are equal, apart from what is below hidden keys. `arranged` says in which orders the entries of two
dictionaries may be: `Eq` is the same order, and `List.Perm` any order, which is what `==` compares. -/
inductive EqualApart (arranged : List (Key × PyValue Key Scalar) → List (Key × PyValue Key Scalar) → Prop)
    (hides : Key → Prop) : PyValue Key Scalar → PyValue Key Scalar → Prop
  | dict {items arrangement items' : List (Key × PyValue Key Scalar)} (harranged : arranged items arrangement)
      (h : EqualEntries arranged hides arrangement items') : EqualApart arranged hides (.dict items) (.dict items')
  | list {items items' : List (PyValue Key Scalar)} (h : EqualItems arranged hides items items') :
      EqualApart arranged hides (.list items) (.list items')
  | tuple {items items' : List (PyValue Key Scalar)} (h : EqualItems arranged hides items items') :
      EqualApart arranged hides (.tuple items) (.tuple items')
  | str (text : String) : EqualApart arranged hides (.str text) (.str text)
  | scalar (value : Scalar) : EqualApart arranged hides (.scalar value) (.scalar value)

/-- The same for entries, one after the other. -/
inductive EqualEntries (arranged : List (Key × PyValue Key Scalar) → List (Key × PyValue Key Scalar) → Prop)
    (hides : Key → Prop) : List (Key × PyValue Key Scalar) → List (Key × PyValue Key Scalar) → Prop
  | nil : EqualEntries arranged hides [] []
  | hidden {key : Key} {items items' : List (Key × PyValue Key Scalar)} (hkey : hides key)
      (item item' : PyValue Key Scalar) (h : EqualEntries arranged hides items items') :
      EqualEntries arranged hides ((key, item) :: items) ((key, item') :: items')
  | shown {key : Key} {item item' : PyValue Key Scalar} {items items' : List (Key × PyValue Key Scalar)}
      (hitem : EqualApart arranged hides item item') (h : EqualEntries arranged hides items items') :
      EqualEntries arranged hides ((key, item) :: items) ((key, item') :: items')

/-- The same for the items of a list or of a tuple. -/
inductive EqualItems (arranged : List (Key × PyValue Key Scalar) → List (Key × PyValue Key Scalar) → Prop)
    (hides : Key → Prop) : List (PyValue Key Scalar) → List (PyValue Key Scalar) → Prop
  | nil : EqualItems arranged hides [] []
  | cons {item item' : PyValue Key Scalar} {items items' : List (PyValue Key Scalar)}
      (hitem : EqualApart arranged hides item item') (h : EqualItems arranged hides items items') :
      EqualItems arranged hides (item :: items) (item' :: items')

end

/-- No key is hidden. -/
def hidesNone (_ : Key) : Prop := False

mutual

/-- In the same order, and with nothing hidden, equal values are the same. -/
theorem EqualApart.eq {value value' : PyValue Key Scalar} : EqualApart Eq hidesNone value value' → value = value'
  | .dict harranged h => by rw [harranged, h.eq]
  | .list h => by rw [h.eq]
  | .tuple h => by rw [h.eq]
  | .str _ => rfl
  | .scalar _ => rfl

theorem EqualEntries.eq {items items' : List (Key × PyValue Key Scalar)} :
    EqualEntries Eq hidesNone items items' → items = items'
  | .nil => rfl
  | .hidden hkey _ _ _ => hkey.elim
  | .shown hitem h => by rw [hitem.eq, h.eq]

theorem EqualItems.eq {items items' : List (PyValue Key Scalar)} :
    EqualItems Eq hidesNone items items' → items = items'
  | .nil => rfl
  | .cons hitem h => by rw [hitem.eq, h.eq]

end

section Scrubbed

variable (isalnum : Char → Bool) (keyText : Key → String)

theorem scrubEntries_eq_map (items : List (Key × PyValue Key Scalar)) :
    scrubEntries isalnum keyText items = items.map fun entry =>
      (entry.1, if redacts keyText entry.1 then .str redacted else scrubData isalnum keyText entry.2) := by
  induction items with
  | nil => rfl
  | cons entry items ih => rw [scrubEntries, ih, List.map_cons]

/-- The orders that are allowed do not depend on what the entries hold. -/
def Uniform (arranged : List (Key × PyValue Key Scalar) → List (Key × PyValue Key Scalar) → Prop) : Prop :=
  ∀ items arrangement (change : Key × PyValue Key Scalar → Key × PyValue Key Scalar),
    arranged items arrangement → arranged (items.map change) (arrangement.map change)

theorem uniform_eq : Uniform (Eq : List (Key × PyValue Key Scalar) → _ → Prop) := by
  rintro items _ change rfl
  rfl

theorem uniform_perm : Uniform (List.Perm : List (Key × PyValue Key Scalar) → _ → Prop) :=
  fun _ _ change h => h.map change

theorem Uniform.scrubEntries {arranged : List (Key × PyValue Key Scalar) → List (Key × PyValue Key Scalar) → Prop}
    (h : Uniform arranged) {items arrangement : List (Key × PyValue Key Scalar)} (harranged : arranged items arrangement) :
    arranged (scrubEntries isalnum keyText items) (scrubEntries isalnum keyText arrangement) := by
  rw [scrubEntries_eq_map, scrubEntries_eq_map]
  exact h _ _ _ harranged

section Hides

variable {arranged : List (Key × PyValue Key Scalar) → List (Key × PyValue Key Scalar) → Prop}

mutual

/-- **What is below the keys of replaced entries does not show.** -/
theorem EqualApart.scrubbed (huniform : Uniform arranged) {value value' : PyValue Key Scalar} :
    EqualApart arranged (fun key => redacts keyText key = true) value value' →
      EqualApart arranged hidesNone (scrubData isalnum keyText value) (scrubData isalnum keyText value')
  | .dict harranged h => by
      rw [scrubData, scrubData]
      exact .dict (huniform.scrubEntries isalnum keyText harranged) (h.scrubbed huniform)
  | .list h => by
      rw [scrubData, scrubData]
      exact .list (h.scrubbed huniform)
  | .tuple h => by
      rw [scrubData, scrubData]
      exact .tuple (h.scrubbed huniform)
  | .str text => by
      rw [scrubData]
      exact .str _
  | .scalar value => by
      rw [scrubData]
      exact .scalar value

theorem EqualEntries.scrubbed (huniform : Uniform arranged) {items items' : List (Key × PyValue Key Scalar)} :
    EqualEntries arranged (fun key => redacts keyText key = true) items items' →
      EqualEntries arranged hidesNone (scrubEntries isalnum keyText items) (scrubEntries isalnum keyText items')
  | .nil => by
      rw [scrubEntries]
      exact .nil
  | .hidden hkey item item' h => by
      rw [scrubEntries, scrubEntries, if_pos hkey, if_pos hkey]
      exact .shown (.str redacted) (h.scrubbed huniform)
  | .shown hitem h => by
      rw [scrubEntries, scrubEntries]
      split
      · exact .shown (.str redacted) (h.scrubbed huniform)
      · exact .shown (hitem.scrubbed huniform) (h.scrubbed huniform)

theorem EqualItems.scrubbed (huniform : Uniform arranged) {items items' : List (PyValue Key Scalar)} :
    EqualItems arranged (fun key => redacts keyText key = true) items items' →
      EqualItems arranged hidesNone (scrubItems isalnum keyText items) (scrubItems isalnum keyText items')
  | .nil => by
      rw [scrubItems]
      exact .nil
  | .cons hitem h => by
      rw [scrubItems, scrubItems]
      exact .cons (hitem.scrubbed huniform) (h.scrubbed huniform)

end

end Hides

mutual

/-- What is left of a value without its strings and without what is in the entries that are replaced: the kinds, the
keys, the lengths and the scalars. -/
def shape : PyValue Key Scalar → PyValue Key Scalar
  | .dict items => .dict (shapeEntries items)
  | .list items => .list (shapeItems items)
  | .tuple items => .tuple (shapeItems items)
  | .str _ => .str ""
  | .scalar value => .scalar value

/-- The entries of a dictionary. -/
def shapeEntries : List (Key × PyValue Key Scalar) → List (Key × PyValue Key Scalar)
  | [] => []
  | (key, item) :: items => (key, if redacts keyText key then .str "" else shape item) :: shapeEntries items

/-- The items of a list or of a tuple. -/
def shapeItems : List (PyValue Key Scalar) → List (PyValue Key Scalar)
  | [] => []
  | item :: items => shape item :: shapeItems items

end

mutual

/-- **The shape is kept.** -/
theorem shape_scrubData : ∀ value : PyValue Key Scalar,
    shape keyText (scrubData isalnum keyText value) = shape keyText value
  | .dict items => by rw [scrubData, shape, shape, shapeEntries_scrubEntries items]
  | .list items => by rw [scrubData, shape, shape, shapeItems_scrubItems items]
  | .tuple items => by rw [scrubData, shape, shape, shapeItems_scrubItems items]
  | .str text => by rw [scrubData, shape, shape]
  | .scalar value => by rw [scrubData]

theorem shapeEntries_scrubEntries : ∀ items : List (Key × PyValue Key Scalar),
    shapeEntries keyText (scrubEntries isalnum keyText items) = shapeEntries keyText items
  | [] => by rw [scrubEntries]
  | (key, item) :: items => by
      rw [scrubEntries, shapeEntries, shapeEntries, shapeEntries_scrubEntries items]
      split
      · rfl
      · rw [shape_scrubData item]

theorem shapeItems_scrubItems : ∀ items : List (PyValue Key Scalar),
    shapeItems keyText (scrubItems isalnum keyText items) = shapeItems keyText items
  | [] => by rw [scrubItems]
  | item :: items => by rw [scrubItems, shapeItems, shapeItems, shape_scrubData item, shapeItems_scrubItems items]

end

/-- **Replaced entries do not leak**: values that are equal apart from them are scrubbed to the same value, or to values
that are equal where their dictionaries are arranged in different ways; and the shape of a value is kept. -/
theorem scrubData_hides :
    (∀ value value' : PyValue Key Scalar, EqualApart Eq (fun key => redacts keyText key = true) value value' →
      scrubData isalnum keyText value = scrubData isalnum keyText value') ∧
    (∀ value value' : PyValue Key Scalar, EqualApart List.Perm (fun key => redacts keyText key = true) value value' →
      EqualApart List.Perm hidesNone (scrubData isalnum keyText value) (scrubData isalnum keyText value')) ∧
    ∀ value : PyValue Key Scalar, shape keyText (scrubData isalnum keyText value) = shape keyText value := by
  refine ⟨?_, ?_, shape_scrubData isalnum keyText⟩
  · intro value value' h
    exact (h.scrubbed isalnum keyText uniform_eq).eq
  · intro value value' h
    exact h.scrubbed isalnum keyText uniform_perm

end Scrubbed

/-- The event of a request, with these headers and these messages. -/
def requestEvent (headers messages : PyValue String Int) : PyValue String Int :=
  .dict [("request", .dict [("Cookie", headers), ("method", .str "POST")]),
    ("extra", .list [.dict [("Messages", messages), ("count", .scalar 2)]])]

/-- What is below a cookie and below messages, in a dictionary and in one of a list. -/
theorem scrubData_hides_messages :
    scrubData Char.isAlphanum id (requestEvent (.str "a=1") (.list [.str "hello", .str "again"])) =
      scrubData Char.isAlphanum id (requestEvent (.tuple []) (.scalar 0)) := by
  apply (scrubData_hides Char.isAlphanum id).1
  have hcookie : redacts id "Cookie" = true := by decide
  have hmessages : redacts id "Messages" = true := by decide
  have hrequest : EqualApart Eq (fun key => redacts id key = true)
      (.dict [("Cookie", .str "a=1"), ("method", .str "POST")] : PyValue String Int)
      (.dict [("Cookie", .tuple []), ("method", .str "POST")]) := by
    refine EqualApart.dict rfl (EqualEntries.hidden ?_ _ _ (.shown (.str "POST") .nil))
    exact hcookie
  have hextra : EqualApart Eq (fun key => redacts id key = true)
      (.dict [("Messages", .list [.str "hello", .str "again"]), ("count", .scalar 2)] : PyValue String Int)
      (.dict [("Messages", .scalar 0), ("count", .scalar 2)]) := by
    refine EqualApart.dict rfl (EqualEntries.hidden ?_ _ _ (.shown (.scalar 2) .nil))
    exact hmessages
  exact .dict rfl (.shown hrequest (.shown (.list (.cons hextra .nil)) .nil))

end GpuInference
