import Mathlib.Algebra.Group.Int.Defs
import Mathlib.Data.List.Basic

/-!
The part of Python that the services rest on: exceptions, JSON values as `json.loads` builds them,
truth values and the `int` constructor, dictionaries in insertion order, and prefix tests on strings.
-/

namespace GpuInference

/-- `backend.core.errors.AppError`. -/
structure AppError where
  message : String
  code : String
  statusCode : Int
  type : String
  param : Option String
  deriving DecidableEq, Repr

/-- A raised exception. `exception` is any other `Exception`, with its `code` attribute when it has
one (it may be `None`) and its text; `base` is a `BaseException` that is no `Exception`, such as
`GeneratorExit` and `CancelledError`. -/
inductive PyExc where
  | app (error : AppError)
  | exception (code : Option (Option String)) (text : String)
  | base (name : String)
  deriving DecidableEq, Repr

namespace PyExc

/-- What `except Exception` catches. -/
def isException : PyExc → Bool
  | app _ => true
  | exception _ _ => true
  | base _ => false

/-- `getattr(exc, "code", default)`. -/
def codeOr (default : String) : PyExc → Option String
  | app error => some error.code
  | exception (some code) _ => code
  | exception none _ => some default
  | base _ => some default

/-- `str(exc)`. An `AppError` is built from keyword arguments, so its `args` are empty. -/
def text : PyExc → String
  | app _ => ""
  | exception _ text => text
  | base _ => ""

def generatorExit : PyExc := base "GeneratorExit"

end PyExc

def valueError : PyExc := .exception none "ValueError"

def typeError : PyExc := .exception none "TypeError"

def overflowError : PyExc := .exception none "OverflowError"

/-- A sequence of computations returns when both of its parts do. -/
theorem bind_eq_ok {α β : Type} {body : Except PyExc α} {rest : α → Except PyExc β} {value : β} :
    (body >>= rest) = .ok value ↔ ∃ a, body = .ok a ∧ rest a = .ok value := by
  cases body with
  | error exc => exact iff_of_false nofun nofun
  | ok a =>
      constructor
      · intro h
        exact ⟨a, rfl, h⟩
      · rintro ⟨a', ha, h⟩
        cases ha
        exact h

/-- It raises when one of its parts does. -/
theorem bind_eq_error {α β : Type} {body : Except PyExc α} {rest : α → Except PyExc β} {exc : PyExc} :
    (body >>= rest) = .error exc ↔ body = .error exc ∨ ∃ a, body = .ok a ∧ rest a = .error exc := by
  cases body with
  | error exc' =>
      constructor
      · intro h
        cases h
        exact .inl rfl
      · rintro (h | ⟨a, ha, -⟩)
        · cases h
          rfl
        · cases ha
  | ok a =>
      constructor
      · intro h
        exact .inr ⟨a, rfl, h⟩
      · rintro (h | ⟨a', ha, h⟩)
        · cases h
        · cases ha
          exact h

/-- A float: `mantissa * 2 ^ exponent`, an infinity or a NaN. -/
inductive PyFloat where
  | finite (mantissa exponent : Int)
  | inf (negative : Bool)
  | nan
  deriving DecidableEq, Repr

namespace PyFloat

/-- Round toward zero, as `int` does. -/
def trunc : PyFloat → Except PyExc Int
  | finite mantissa exponent =>
      if 0 ≤ exponent then .ok (mantissa * 2 ^ exponent.toNat)
      else .ok (mantissa.tdiv (2 ^ (-exponent).toNat))
  | inf _ => .error overflowError
  | nan => .error valueError

def isZero : PyFloat → Bool
  | finite mantissa _ => mantissa == 0
  | _ => false

end PyFloat

inductive Json where
  | null
  | bool (value : Bool)
  | int (value : Int)
  | float (value : PyFloat)
  | str (value : String)
  | arr (items : List Json)
  | obj (fields : List (String × Json))

/-- A dictionary with string keys, in insertion order. -/
abbrev JsonObject := List (String × Json)

namespace Json

mutual

def decEq : (a b : Json) → Decidable (a = b)
  | null, null => isTrue rfl
  | bool x, bool y => decidable_of_iff (x = y) (by simp)
  | int x, int y => decidable_of_iff (x = y) (by simp)
  | float x, float y => decidable_of_iff (x = y) (by simp)
  | str x, str y => decidable_of_iff (x = y) (by simp)
  | arr x, arr y => match decEqItems x y with
    | isTrue h => isTrue (by rw [h])
    | isFalse h => isFalse (by simpa using h)
  | obj x, obj y => match decEqFields x y with
    | isTrue h => isTrue (by rw [h])
    | isFalse h => isFalse (by simpa using h)
  | null, bool _ | null, int _ | null, float _ | null, str _ | null, arr _ | null, obj _
  | bool _, null | bool _, int _ | bool _, float _ | bool _, str _ | bool _, arr _ | bool _, obj _
  | int _, null | int _, bool _ | int _, float _ | int _, str _ | int _, arr _ | int _, obj _
  | float _, null | float _, bool _ | float _, int _ | float _, str _ | float _, arr _
  | float _, obj _
  | str _, null | str _, bool _ | str _, int _ | str _, float _ | str _, arr _ | str _, obj _
  | arr _, null | arr _, bool _ | arr _, int _ | arr _, float _ | arr _, str _ | arr _, obj _
  | obj _, null | obj _, bool _ | obj _, int _ | obj _, float _ | obj _, str _ | obj _, arr _ =>
      isFalse nofun

def decEqItems : (a b : List Json) → Decidable (a = b)
  | [], [] => isTrue rfl
  | [], _ :: _ | _ :: _, [] => isFalse nofun
  | x :: xs, y :: ys => match decEq x y, decEqItems xs ys with
    | isTrue hx, isTrue hxs => isTrue (by rw [hx, hxs])
    | isFalse hx, _ => isFalse (by simp [hx])
    | _, isFalse hxs => isFalse (by simp [hxs])

def decEqFields : (a b : List (String × Json)) → Decidable (a = b)
  | [], [] => isTrue rfl
  | [], _ :: _ | _ :: _, [] => isFalse nofun
  | (k, x) :: xs, (l, y) :: ys =>
    if hk : k = l then
      match decEq x y, decEqFields xs ys with
      | isTrue hx, isTrue hxs => isTrue (by rw [hk, hx, hxs])
      | isFalse hx, _ => isFalse (by simp [hx])
      | _, isFalse hxs => isFalse (by simp [hxs])
    else isFalse (by simp [hk])

end

instance : DecidableEq Json := decEq

/-- `bool(value)`. -/
def truthy : Json → Bool
  | null => false
  | bool value => value
  | int value => value != 0
  | float value => !value.isZero
  | str value => value != ""
  | arr items => !items.isEmpty
  | obj fields => !fields.isEmpty

end Json

namespace JsonObject

/-- `fields.get(key)`, without a default. -/
def get : JsonObject → String → Option Json
  | [], _ => none
  | (name, value) :: rest, key => if name = key then some value else get rest key

/-- `fields[key] = value`: in place when the key is there, at the end otherwise. -/
def set : JsonObject → String → Json → JsonObject
  | [], key, value => [(key, value)]
  | (name, old) :: rest, key, value =>
      if name = key then (name, value) :: rest else (name, old) :: set rest key value

def keys (fields : JsonObject) : List String := fields.map Prod.fst

@[simp] theorem get_nil (key : String) : get [] key = none := rfl

@[simp] theorem get_cons (name key : String) (value : Json) (fields : JsonObject) :
    get ((name, value) :: fields) key = if name = key then some value else get fields key := rfl

theorem get_append (fields more : JsonObject) (key : String) :
    get (fields ++ more) key = (get fields key).or (get more key) := by
  induction fields with
  | nil => rfl
  | cons field fields ih =>
      obtain ⟨name, value⟩ := field
      rw [List.cons_append, get_cons, get_cons, ih]
      split <;> rfl

theorem get_eq_none (fields : JsonObject) (key : String) (h : key ∉ keys fields) :
    get fields key = none := by
  induction fields with
  | nil => rfl
  | cons field fields ih =>
      obtain ⟨name, value⟩ := field
      simp only [keys, List.map_cons, List.mem_cons, not_or] at h
      rw [get_cons, if_neg (Ne.symm h.1)]
      exact ih h.2

theorem get_set (fields : JsonObject) (name key : String) (value : Json) :
    get (set fields name value) key = if name = key then some value else get fields key := by
  induction fields with
  | nil => rfl
  | cons field fields ih =>
      obtain ⟨k, v⟩ := field
      by_cases hk : k = name
      · subst hk
        simp only [set, if_true, get_cons]
        split <;> rfl
      · simp only [set, if_neg hk, get_cons, ih]
        by_cases hkey : k = key
        · have hname : name ≠ key := fun h => hk (hkey.trans h.symm)
          simp [hkey, hname]
        · simp [hkey]

end JsonObject

/-- `text.startswith(start)`. -/
def startsWith (text start : String) : Bool := start.toList.isPrefixOf text.toList

/-- What `str.strip` removes: the characters for which `str.isspace` holds. -/
def isPySpace (c : Char) : Bool :=
  let n := c.toNat
  (0x09 ≤ n && n ≤ 0x0D) || (0x1C ≤ n && n ≤ 0x20) || n == 0x85 || n == 0xA0 || n == 0x1680 ||
    (0x2000 ≤ n && n ≤ 0x200A) || n == 0x2028 || n == 0x2029 || n == 0x202F || n == 0x205F ||
    n == 0x3000

/-- `text.strip()`. -/
def strip (text : String) : String :=
  String.ofList (((text.toList.dropWhile isPySpace).reverse.dropWhile isPySpace).reverse)

/-- The first code points of the runs of ten decimal digits: category Nd of Unicode 14, the one of Python 3.11. -/
def digitRuns : List Nat :=
  [0x30, 0x660, 0x6F0, 0x7C0, 0x966, 0x9E6, 0xA66, 0xAE6, 0xB66, 0xBE6, 0xC66, 0xCE6, 0xD66, 0xDE6,
    0xE50, 0xED0, 0xF20, 0x1040, 0x1090, 0x17E0, 0x1810, 0x1946, 0x19D0, 0x1A80, 0x1A90, 0x1B50,
    0x1BB0, 0x1C40, 0x1C50, 0xA620, 0xA8D0, 0xA900, 0xA9D0, 0xA9F0, 0xAA50, 0xABF0, 0xFF10, 0x104A0,
    0x10D30, 0x11066, 0x110F0, 0x11136, 0x111D0, 0x112F0, 0x11450, 0x114D0, 0x11650, 0x116C0,
    0x11730, 0x118E0, 0x11950, 0x11C50, 0x11D50, 0x11DA0, 0x16A60, 0x16AC0, 0x16B50, 0x1D7CE,
    0x1D7D8, 0x1D7E2, 0x1D7EC, 0x1D7F6, 0x1E140, 0x1E2F0, 0x1E950, 0x1FBF0]

def digitValue (c : Char) : Option Nat :=
  (digitRuns.find? fun first => first ≤ c.toNat && c.toNat < first + 10).map fun first =>
    c.toNat - first

/-- The digits of a literal, single underscores allowed between them. -/
def digitsOf : List Char → Option (List Nat)
  | [] => none
  | [c] => (digitValue c).map fun d => [d]
  | c :: '_' :: rest => do return (← digitValue c) :: (← digitsOf rest)
  | c :: rest => do return (← digitValue c) :: (← digitsOf rest)

/-- The limit on the digits of a conversion from a string. -/
def maxStrDigits : Nat := 4300

/-- What `int` removes around a literal: not the separators U+001C to U+001F, which `str.strip` removes. -/
def isIntSpace (c : Char) : Bool := isPySpace c && !(0x1C ≤ c.toNat && c.toNat ≤ 0x1F)

/-- `int(text)`. -/
def intOfString (text : String) : Except PyExc Int :=
  let literal := ((text.toList.dropWhile isIntSpace).reverse.dropWhile isIntSpace).reverse
  let (sign, digits) : Int × List Char := match literal with
    | '-' :: rest => (-1, rest)
    | '+' :: rest => (1, rest)
    | chars => (1, chars)
  match digitsOf digits with
  | none => .error valueError
  | some ds =>
      if maxStrDigits < ds.length then .error valueError
      else .ok (sign * (ds.foldl (fun acc d => 10 * acc + d) 0 : Nat))

/-- `int(value)`. -/
def intOf : Json → Except PyExc Int
  | .bool value => .ok (if value then 1 else 0)
  | .int value => .ok value
  | .float value => value.trunc
  | .str value => intOfString value
  | .null => .error typeError
  | .arr _ => .error typeError
  | .obj _ => .error typeError

/-- `value or 0`. -/
def orZero (value : Json) : Json := if value.truthy then value else .int 0

theorem trunc_raises {value : PyFloat} {exc : PyExc} (h : value.trunc = .error exc) :
    exc.isException = true := by
  unfold PyFloat.trunc at h
  split at h
  · split at h
    · cases h
    · cases h
  · cases h
    rfl
  · cases h
    rfl

theorem intOfString_raises {text : String} {exc : PyExc} (h : intOfString text = .error exc) :
    exc.isException = true := by
  unfold intOfString at h
  simp only at h
  split at h
  · cases h
    rfl
  · split at h
    · cases h
      rfl
    · cases h

/-- What `int` raises is an `Exception`. -/
theorem intOf_raises {value : Json} {exc : PyExc} (h : intOf value = .error exc) :
    exc.isException = true := by
  cases value with
  | float value =>
      rw [intOf] at h
      exact trunc_raises h
  | str value =>
      rw [intOf] at h
      exact intOfString_raises h
  | bool value => cases h
  | int value => cases h
  | null => cases h; rfl
  | arr items => cases h; rfl
  | obj fields => cases h; rfl

end GpuInference
