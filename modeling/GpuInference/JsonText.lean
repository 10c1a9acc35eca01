import GpuInference.DelimitedText

/-!
Flat JSON objects as text. They are written in ASCII on one line: what is no printable character is escaped, and a character
outside of the basic plane is written as a pair of surrogates. Whatever has been written is read back.
-/

namespace JsonText

def isHigh (unit : Nat) : Bool := 0xd800 ≤ unit && unit < 0xdc00

def isLow (unit : Nat) : Bool := 0xdc00 ≤ unit && unit < 0xe000

/-- The code units of a character. -/
def units (c : Char) : List Nat :=
  if c.toNat < 0x10000 then [c.toNat]
  else [0xd800 + (c.toNat - 0x10000) / 0x400, 0xdc00 + (c.toNat - 0x10000) % 0x400]

/-- The text of these code units, whose surrogates come in pairs. -/
def ofUnits : List Nat → Option (List Char)
  | [] => some []
  | [unit] => if isHigh unit || isLow unit then none else some [Char.ofNat unit]
  | unit :: next :: rest =>
      if isHigh unit then
        if isLow next then
          (ofUnits rest).map (Char.ofNat (0x10000 + (unit - 0xd800) * 0x400 + (next - 0xdc00)) :: ·)
        else none
      else if isLow unit then none
      else (ofUnits (next :: rest)).map (Char.ofNat unit :: ·)

theorem ofUnits_cons {unit : Nat} (hhigh : isHigh unit = false) (hlow : isLow unit = false) (rest : List Nat) :
    ofUnits (unit :: rest) = (ofUnits rest).map (Char.ofNat unit :: ·) := by
  cases rest with
  | nil => simp [ofUnits, hhigh, hlow]
  | cons next rest => simp [ofUnits, hhigh, hlow]

theorem ofUnits_pair {high low : Nat} (hhigh : isHigh high = true) (hlow : isLow low = true) (rest : List Nat) :
    ofUnits (high :: low :: rest) =
      (ofUnits rest).map (Char.ofNat (0x10000 + (high - 0xd800) * 0x400 + (low - 0xdc00)) :: ·) := by
  simp [ofUnits, hhigh, hlow]

theorem toNat_valid (c : Char) : c.toNat < 0xd800 ∨ 0xdfff < c.toNat ∧ c.toNat < 0x110000 := c.valid

theorem ofUnits_units (c : Char) (rest : List Nat) : ofUnits (units c ++ rest) = (ofUnits rest).map (c :: ·) := by
  have hvalid := toNat_valid c
  unfold units
  split
  · rename_i hbasic
    have hhigh : isHigh c.toNat = false := by
      simp only [isHigh, Bool.and_eq_false_iff, decide_eq_false_iff_not]
      omega
    have hlow : isLow c.toNat = false := by
      simp only [isLow, Bool.and_eq_false_iff, decide_eq_false_iff_not]
      omega
    rw [List.singleton_append, ofUnits_cons hhigh hlow, Char.ofNat_toNat]
  · rename_i hbasic
    have hhigh : isHigh (0xd800 + (c.toNat - 0x10000) / 0x400) = true := by
      simp only [isHigh, Bool.and_eq_true, decide_eq_true_eq]
      omega
    have hlow : isLow (0xdc00 + (c.toNat - 0x10000) % 0x400) = true := by
      simp only [isLow, Bool.and_eq_true, decide_eq_true_eq]
      omega
    have hcode : 0x10000 + (0xd800 + (c.toNat - 0x10000) / 0x400 - 0xd800) * 0x400 +
        (0xdc00 + (c.toNat - 0x10000) % 0x400 - 0xdc00) = c.toNat := by omega
    rw [List.cons_append, List.cons_append, List.nil_append, ofUnits_pair hhigh hlow, hcode, Char.ofNat_toNat]

theorem ofUnits_flatMap (text : List Char) : ofUnits (text.flatMap units) = some text := by
  induction text with
  | nil => rfl
  | cons c text ih => rw [List.flatMap_cons, ofUnits_units, ih, Option.map_some]

theorem lt_of_mem_units {c : Char} {unit : Nat} (h : unit ∈ units c) : unit < 0x10000 := by
  have hvalid := toNat_valid c
  unfold units at h
  split at h
  · rename_i hbasic
    rw [List.mem_singleton.mp h]
    exact hbasic
  · simp only [List.mem_cons, List.not_mem_nil, or_false] at h
    omega

/-- The escapes of one letter. -/
def escapes : List (Nat × Char) :=
  [(0x22, '"'), (0x5c, '\\'), (0x0a, 'n'), (0x0d, 'r'), (0x09, 't'), (0x08, 'b'), (0x0c, 'f')]

def hexDigits (unit : Nat) : List Char :=
  [(unit / 0x1000 % 16).digitChar, (unit / 0x100 % 16).digitChar, (unit / 0x10 % 16).digitChar, (unit % 16).digitChar]

def writeUnit (unit : Nat) : List Char :=
  match escapes.lookup unit with
  | some letter => ['\\', letter]
  | none => if 0x20 ≤ unit ∧ unit ≤ 0x7e then [Char.ofNat unit] else '\\' :: 'u' :: hexDigits unit

def writeText (text : List Char) : List Char := '"' :: (text.flatMap units).flatMap writeUnit ++ ['"']

/-- The unit of an escape of one letter; a slash may be escaped too. -/
def unescape (letter : Char) : Option Nat :=
  if letter = '/' then some 0x2f else (escapes.find? fun escape => escape.2 = letter).map Prod.fst

def hexValue (c : Char) : Option Nat :=
  if '0' ≤ c ∧ c ≤ '9' then some (c.toNat - '0'.toNat)
  else if 'a' ≤ c ∧ c ≤ 'f' then some (c.toNat - 'a'.toNat + 10)
  else if 'A' ≤ c ∧ c ≤ 'F' then some (c.toNat - 'A'.toNat + 10)
  else none

/-- Where the reader of a text stands: between characters, behind a backslash, or in an escape with so many digits left. -/
inductive Reading where
  | plain
  | escape
  | hex (left : Nat) (value : Nat)

/-- The units up to the quotation mark, and what comes behind it. -/
def readUnits : Reading → List Char → Option (List Nat × List Char)
  | _, [] => none
  | .plain, c :: rest =>
      if c = '"' then some ([], rest)
      else if c = '\\' then readUnits .escape rest
      else if c < ' ' then none
      else (readUnits .plain rest).map fun (read, rest) => (units c ++ read, rest)
  | .escape, c :: rest =>
      if c = 'u' then readUnits (.hex 3 0) rest
      else match unescape c with
        | none => none
        | some unit => (readUnits .plain rest).map fun (read, rest) => (unit :: read, rest)
  | .hex left value, c :: rest =>
      match hexValue c with
      | none => none
      | some digit =>
          match left with
          | 0 => (readUnits .plain rest).map fun (read, rest) => ((16 * value + digit) :: read, rest)
          | left + 1 => readUnits (.hex left (16 * value + digit)) rest

def readText : List Char → Option (List Char × List Char)
  | '"' :: rest => do
      let (read, rest) ← readUnits .plain rest
      return (← ofUnits read, rest)
  | _ => none

theorem hexValue_digitChar {digit : Nat} (h : digit < 16) : hexValue digit.digitChar = some digit := by
  have hall : ∀ digit < 16, hexValue digit.digitChar = some digit := by decide
  exact hall digit h

/-- The digit that is read, and those that are left. -/
theorem readUnits_hex_succ (left value : Nat) {digit : Nat} (h : digit < 16) (rest : List Char) :
    readUnits (.hex (left + 1) value) (digit.digitChar :: rest) = readUnits (.hex left (16 * value + digit)) rest := by
  rw [readUnits, hexValue_digitChar h]

theorem readUnits_hex_zero (value : Nat) {digit : Nat} (h : digit < 16) (rest : List Char) :
    readUnits (.hex 0 value) (digit.digitChar :: rest) =
      (readUnits .plain rest).map fun (read, rest) => ((16 * value + digit) :: read, rest) := by
  rw [readUnits, hexValue_digitChar h]

theorem readUnits_hexDigits {unit : Nat} (h : unit < 0x10000) (rest : List Char) :
    readUnits (.hex 3 0) (hexDigits unit ++ rest) =
      (readUnits .plain rest).map fun (read, rest) => (unit :: read, rest) := by
  have hvalue : 16 * (16 * (16 * (16 * 0 + unit / 0x1000 % 16) + unit / 0x100 % 16) + unit / 0x10 % 16) + unit % 16 =
      unit := by omega
  simp only [hexDigits, List.cons_append, List.nil_append]
  rw [readUnits_hex_succ _ _ (Nat.mod_lt _ (by omega)), readUnits_hex_succ _ _ (Nat.mod_lt _ (by omega)),
    readUnits_hex_succ _ _ (Nat.mod_lt _ (by omega)), readUnits_hex_zero _ (Nat.mod_lt _ (by omega)), hvalue]

theorem toNat_ofNat {unit : Nat} (h : unit < 0x7f) : (Char.ofNat unit).toNat = unit := by
  have hall : ∀ unit < 0x7f, (Char.ofNat unit).toNat = unit := by decide
  exact hall unit h

theorem unescape_of_lookup {unit : Nat} {letter : Char} (h : escapes.lookup unit = some letter) :
    letter ≠ 'u' ∧ unescape letter = some unit := by
  have hall : ∀ escape ∈ escapes, escape.2 ≠ 'u' ∧ unescape escape.2 = some escape.1 := by decide
  obtain ⟨before, after, hescapes, -⟩ := List.lookup_eq_some_iff.mp h
  exact hall (unit, letter) (by rw [hescapes]; simp)

theorem readUnits_plain {c : Char} (hquote : c ≠ '"') (hescape : c ≠ '\\') (hprintable : ¬ c < ' ') (rest : List Char) :
    readUnits .plain (c :: rest) = (readUnits .plain rest).map fun (read, rest) => (units c ++ read, rest) := by
  rw [readUnits, if_neg hquote, if_neg hescape, if_neg hprintable]

/-- A character that is written as it is has no escape. -/
theorem ne_of_escaped {unit : Nat} {c : Char} (hcode : (Char.ofNat unit).toNat = unit)
    (hlookup : escapes.lookup unit = none) (hescaped : (escapes.lookup c.toNat).isSome = true) : Char.ofNat unit ≠ c := by
  intro hsame
  rw [← hsame, hcode, hlookup] at hescaped
  cases hescaped

/-- **A unit is read as it has been written.** -/
theorem readUnits_writeUnit {unit : Nat} (h : unit < 0x10000) (rest : List Char) :
    readUnits .plain (writeUnit unit ++ rest) =
      (readUnits .plain rest).map fun (read, rest) => (unit :: read, rest) := by
  unfold writeUnit
  cases hlookup : escapes.lookup unit with
  | some letter =>
      obtain ⟨hletter, hunescape⟩ := unescape_of_lookup hlookup
      simp only [List.cons_append, List.nil_append]
      rw [readUnits, if_neg (by decide), if_pos rfl, readUnits, if_neg hletter, hunescape]
  | none =>
      by_cases hprintable : 0x20 ≤ unit ∧ unit ≤ 0x7e
      · have hcode : (Char.ofNat unit).toNat = unit := toNat_ofNat (by omega)
        have hquote : Char.ofNat unit ≠ '"' := ne_of_escaped hcode hlookup rfl
        have hescape : Char.ofNat unit ≠ '\\' := ne_of_escaped hcode hlookup rfl
        have hspace : ¬ Char.ofNat unit < ' ' := by
          rw [Char.lt_def, UInt32.lt_iff_toNat_lt]
          change ¬ (Char.ofNat unit).toNat < 0x20
          omega
        have hunits : units (Char.ofNat unit) = [unit] := by
          rw [units, hcode, if_pos h]
        simp only [if_pos hprintable, List.singleton_append]
        rw [readUnits_plain hquote hescape hspace, hunits]
        rfl
      · simp only [if_neg hprintable, List.cons_append]
        rw [readUnits, if_neg (by decide), if_pos rfl, readUnits, if_pos rfl, readUnits_hexDigits h]

theorem readUnits_flatMap {written : List Nat} (h : ∀ unit ∈ written, unit < 0x10000) (rest : List Char) :
    readUnits .plain (written.flatMap writeUnit ++ '"' :: rest) = some (written, rest) := by
  induction written with
  | nil => rfl
  | cons unit written ih =>
      rw [List.forall_mem_cons] at h
      rw [List.flatMap_cons, List.append_assoc, readUnits_writeUnit h.1, ih h.2, Option.map_some]

/-- **A text is read back.** -/
theorem readText_writeText (text rest : List Char) : readText (writeText text ++ rest) = some (text, rest) := by
  have hunits : ∀ unit ∈ text.flatMap units, unit < 0x10000 := by
    intro unit hmem
    obtain ⟨c, -, hunit⟩ := List.mem_flatMap.mp hmem
    exact lt_of_mem_units hunit
  have hread := readUnits_flatMap hunits rest
  simp [writeText, readText, hread, ofUnits_flatMap]

def writeInt : Int → List Char
  | .ofNat value => Nat.toDigits 10 value
  | .negSucc value => '-' :: Nat.toDigits 10 (value + 1)

/-- A natural number, without leading zeros. -/
def readNat (text : List Char) : Option (Nat × List Char) :=
  let digits := text.takeWhile Char.isDigit
  if digits = [] ∨ digits.head? = some '0' ∧ digits ≠ ['0'] then none
  else some (Nat.ofDigitChars 10 digits 0, text.dropWhile Char.isDigit)

def readInt : List Char → Option (Int × List Char)
  | '-' :: text => (readNat text).map fun (value, rest) => (-(value : Int), rest)
  | text => (readNat text).map fun (value, rest) => ((value : Int), rest)

/-- What comes behind the word. -/
def expect : List Char → List Char → Option (List Char)
  | [], rest => some rest
  | _ :: _, [] => none
  | c :: word, d :: rest => if c = d then expect word rest else none

@[simp] theorem expect_append (word rest : List Char) : expect word (word ++ rest) = some rest := by
  induction word with
  | nil => rfl
  | cons c word ih => rw [List.cons_append, expect, if_pos rfl, ih]

/-- The text goes on with something else than a digit. -/
def NoDigit (rest : List Char) : Prop := ∀ c ∈ rest.head?, c.isDigit = false

theorem takeWhile_digits {digits rest : List Char} (hdigits : ∀ c ∈ digits, c.isDigit = true) (hrest : NoDigit rest) :
    (digits ++ rest).takeWhile Char.isDigit = digits ∧ (digits ++ rest).dropWhile Char.isDigit = rest := by
  induction digits with
  | nil =>
      cases rest with
      | nil => exact ⟨rfl, rfl⟩
      | cons c rest =>
          have hstop : c.isDigit = false := hrest c rfl
          simp [hstop]
  | cons c digits ih =>
      rw [List.forall_mem_cons] at hdigits
      obtain ⟨htake, hdrop⟩ := ih hdigits.2
      simp [hdigits.1, htake, hdrop]

theorem isDigit_toDigits (value : Nat) : ∀ c ∈ Nat.toDigits 10 value, c.isDigit = true := by
  intro c hc
  exact Nat.isDigit_of_mem_toDigits (by omega) (by omega) hc

theorem digitChar_eq_zero {digit : Nat} (h : digit < 10) (hzero : digit.digitChar = '0') : digit = 0 := by
  have hall : ∀ digit < 10, digit.digitChar = '0' → digit = 0 := by decide
  exact hall digit h hzero

/-- Only zero begins with a zero. -/
theorem eq_zero_of_head_toDigits {value : Nat} (h : (Nat.toDigits 10 value).head? = some '0') : value = 0 := by
  induction value using Nat.strongRecOn with
  | ind value ih =>
      by_cases hsmall : value < 10
      · rw [Nat.toDigits_of_lt_base hsmall] at h
        exact digitChar_eq_zero hsmall (Option.some.inj h)
      · have hbase : 10 ≤ value := by omega
        rw [Nat.toDigits_of_base_le (by omega) hbase, List.head?_append_of_ne_nil _ Nat.toDigits_ne_nil] at h
        have hfront := ih (value / 10) (by omega) h
        omega

theorem readNat_toDigits (value : Nat) {rest : List Char} (hrest : NoDigit rest) :
    readNat (Nat.toDigits 10 value ++ rest) = some (value, rest) := by
  obtain ⟨htake, hdrop⟩ := takeWhile_digits (isDigit_toDigits value) hrest
  have hwritten : ¬ (Nat.toDigits 10 value = [] ∨
      (Nat.toDigits 10 value).head? = some '0' ∧ Nat.toDigits 10 value ≠ ['0']) := by
    rintro (hnil | ⟨hhead, hlonger⟩)
    · exact Nat.toDigits_ne_nil hnil
    · rw [eq_zero_of_head_toDigits hhead] at hlonger
      exact hlonger rfl
  simp only [readNat, htake, hdrop]
  rw [if_neg hwritten, Nat.ofDigitChars_ten_toDigits]

theorem digits_cons (value : Nat) : ∃ c digits, Nat.toDigits 10 value = c :: digits ∧ c.isDigit = true := by
  cases hdigits : Nat.toDigits 10 value with
  | nil => exact absurd hdigits Nat.toDigits_ne_nil
  | cons c digits =>
      have hmem : c ∈ Nat.toDigits 10 value := by
        rw [hdigits]
        exact List.mem_cons_self
      exact ⟨c, digits, rfl, isDigit_toDigits value c hmem⟩

/-- **A number is read back.** -/
theorem readInt_writeInt (value : Int) {rest : List Char} (hrest : NoDigit rest) :
    readInt (writeInt value ++ rest) = some (value, rest) := by
  cases value with
  | ofNat value =>
      obtain ⟨c, digits, hdigits, hc⟩ := digits_cons value
      have hread := readNat_toDigits value hrest
      have hminus : c ≠ '-' := by
        rintro rfl
        cases hc
      rw [writeInt, hdigits, List.cons_append, readInt, ← List.cons_append, ← hdigits, hread]
      · rfl
      · intro text htext
        exact hminus (List.cons.inj htext).1
  | negSucc value =>
      rw [writeInt, List.cons_append, readInt, readNat_toDigits (value + 1) hrest]
      rfl

/-- A value that is no list and no object. -/
inductive Scalar where
  | null
  | bool (value : Bool)
  | int (value : Int)
  | text (value : List Char)
  deriving DecidableEq

abbrev Field := List Char × Scalar

def writeScalar : Scalar → List Char
  | .null => ['n', 'u', 'l', 'l']
  | .bool true => ['t', 'r', 'u', 'e']
  | .bool false => ['f', 'a', 'l', 's', 'e']
  | .int value => writeInt value
  | .text value => writeText value

/-- The blanks behind a separator. -/
def blanks (gap : Nat) : List Char := List.replicate gap ' '

def writeField (gap : Nat) (field : Field) : List Char :=
  writeText field.1 ++ ':' :: (blanks gap ++ writeScalar field.2)

/-- The fields, up to the bracket behind them. -/
def writeFields (gap : Nat) : List Field → List Char
  | [] => ['}']
  | [field] => writeField gap field ++ ['}']
  | field :: next :: rest => writeField gap field ++ ',' :: (blanks gap ++ writeFields gap (next :: rest))

def writeObject (gap : Nat) (fields : List Field) : List Char := '{' :: writeFields gap fields

def isSpace (c : Char) : Bool := c = ' ' || c = '\t' || c = '\n' || c = '\r'

def skip (text : List Char) : List Char := text.dropWhile isSpace

def readScalar (text : List Char) : Option (Scalar × List Char) :=
  match expect ['n', 'u', 'l', 'l'] text with
  | some rest => some (.null, rest)
  | none =>
      match expect ['t', 'r', 'u', 'e'] text with
      | some rest => some (.bool true, rest)
      | none =>
          match expect ['f', 'a', 'l', 's', 'e'] text with
          | some rest => some (.bool false, rest)
          | none =>
              match readText text with
              | some (value, rest) => some (.text value, rest)
              | none => (readInt text).map fun (value, rest) => (.int value, rest)

def readField (text : List Char) : Option (Field × List Char) := do
  let (key, rest) ← readText (skip text)
  let rest ← expect [':'] (skip rest)
  let (value, rest) ← readScalar (skip rest)
  return ((key, value), skip rest)

/-- The fields, up to the bracket behind them; every field takes one unit of fuel. -/
def readFields : Nat → List Char → Option (List Field × List Char)
  | 0, _ => none
  | fuel + 1, text =>
      match readField text with
      | none => none
      | some (field, ',' :: rest) => (readFields fuel rest).map fun (fields, rest) => (field :: fields, rest)
      | some (field, '}' :: rest) => some ([field], rest)
      | some _ => none

/-- An object that is the whole text. -/
def readObject (text : List Char) : Option (List Field) :=
  match expect ['{'] (skip text) with
  | none => none
  | some rest =>
      match expect ['}'] (skip rest) with
      | some rest => if skip rest = [] then some [] else none
      | none =>
          match readFields (skip rest).length (skip rest) with
          | some (fields, rest) => if skip rest = [] then some fields else none
          | none => none

theorem expect_of_ne {c d : Char} (h : c ≠ d) (word rest : List Char) : expect (c :: word) (d :: rest) = none := by
  rw [expect, if_neg h]

theorem skip_cons {c : Char} (h : isSpace c = false) (rest : List Char) : skip (c :: rest) = c :: rest := by
  simp [skip, h]

theorem skip_blanks (gap : Nat) (rest : List Char) : skip (blanks gap ++ rest) = skip rest := by
  induction gap with
  | zero => rfl
  | succ gap ih =>
      rw [← ih]
      rfl

/-- A value begins with neither a blank nor a bracket. -/
theorem writeScalar_cons (value : Scalar) :
    ∃ c text, writeScalar value = c :: text ∧ isSpace c = false := by
  cases value with
  | null => exact ⟨_, _, rfl, rfl⟩
  | bool value =>
      cases value with
      | true => exact ⟨_, _, rfl, rfl⟩
      | false => exact ⟨_, _, rfl, rfl⟩
  | int value =>
      cases value with
      | ofNat value =>
          obtain ⟨c, digits, hdigits, hc⟩ := digits_cons value
          refine ⟨c, digits, hdigits, ?_⟩
          by_contra hspace
          simp only [isSpace, Bool.not_eq_false, Bool.or_eq_true, decide_eq_true_eq] at hspace
          rcases hspace with ((rfl | rfl) | rfl) | rfl
          all_goals cases hc
      | negSucc value => exact ⟨_, _, rfl, rfl⟩
  | text value => exact ⟨_, _, rfl, rfl⟩

/-- No word is the beginning of a number. -/
theorem readScalar_int (value : Int) {rest : List Char} (hrest : NoDigit rest) :
    readScalar (writeInt value ++ rest) = some (.int value, rest) := by
  have hread := readInt_writeInt value hrest
  obtain ⟨c, text, htext, hc⟩ : ∃ c text, writeInt value = c :: text ∧ (c.isDigit = true ∨ c = '-') := by
    cases value with
    | ofNat value =>
        obtain ⟨c, digits, hdigits, hc⟩ := digits_cons value
        exact ⟨c, digits, hdigits, .inl hc⟩
    | negSucc value => exact ⟨'-', _, rfl, .inr rfl⟩
  have hother : ∀ d : Char, d.isDigit = false → d ≠ '-' → d ≠ c := by
    rintro d hdigit hminus rfl
    rcases hc with hc | hc
    · rw [hdigit] at hc
      cases hc
    · exact hminus hc
  rw [htext, List.cons_append] at hread ⊢
  have hquote : readText (c :: (text ++ rest)) = none := by
    rw [readText]
    intro rest hsame
    exact hother '"' rfl (by decide) (List.cons.inj hsame).1.symm
  simp only [readScalar]
  rw [expect_of_ne (hother 'n' rfl (by decide)), expect_of_ne (hother 't' rfl (by decide)),
    expect_of_ne (hother 'f' rfl (by decide)), hquote, hread]
  rfl

theorem readScalar_writeScalar (value : Scalar) {rest : List Char} (hrest : NoDigit rest) :
    readScalar (writeScalar value ++ rest) = some (value, rest) := by
  cases value with
  | null => rfl
  | bool value =>
      cases value with
      | true => rfl
      | false => rfl
  | int value => exact readScalar_int value hrest
  | text value =>
      have hread := readText_writeText value rest
      rw [writeText, List.cons_append, List.cons_append] at hread
      simp only [writeScalar, writeText, List.cons_append, readScalar]
      rw [expect_of_ne (by decide), expect_of_ne (by decide), expect_of_ne (by decide), hread]

/-- What comes behind a field. -/
def Closes (rest : List Char) : Prop := ∃ c text, rest = c :: text ∧ (c = ',' ∨ c = '}')

theorem Closes.skip {rest : List Char} (h : Closes rest) : NoDigit rest ∧ JsonText.skip rest = rest := by
  obtain ⟨c, text, rfl, rfl | rfl⟩ := h
  · refine ⟨?_, rfl⟩
    intro c hc
    cases hc
    rfl
  · refine ⟨?_, rfl⟩
    intro c hc
    cases hc
    rfl

/-- **A field is read back.** -/
theorem readField_writeField (lead gap : Nat) (field : Field) {rest : List Char} (hrest : Closes rest) :
    readField (blanks lead ++ (writeField gap field ++ rest)) = some (field, rest) := by
  obtain ⟨key, value⟩ := field
  obtain ⟨hdigit, hskip⟩ := hrest.skip
  obtain ⟨c, text, htext, hspace⟩ := writeScalar_cons value
  have hkey : skip (blanks lead ++ (writeField gap (key, value) ++ rest)) =
      writeText key ++ (':' :: (blanks gap ++ (writeScalar value ++ rest))) := by
    rw [skip_blanks]
    simp [writeField, writeText, skip, isSpace]
  have hvalue : skip (blanks gap ++ (writeScalar value ++ rest)) = writeScalar value ++ rest := by
    rw [skip_blanks, htext, List.cons_append, skip_cons hspace]
  have hcolon : skip (':' :: (blanks gap ++ (writeScalar value ++ rest))) =
      [':'] ++ (blanks gap ++ (writeScalar value ++ rest)) := skip_cons rfl _
  simp only [readField, hkey, readText_writeText, hcolon, expect_append, hvalue, readScalar_writeScalar value hdigit,
    hskip, Option.bind_eq_bind, Option.bind_some, Option.pure_def]

theorem closes_comma (rest : List Char) : Closes (',' :: rest) := ⟨',', rest, rfl, .inl rfl⟩

theorem closes_bracket (rest : List Char) : Closes ('}' :: rest) := ⟨'}', rest, rfl, .inr rfl⟩

theorem readFields_writeFields (gap : Nat) {fields : List Field} (hne : fields ≠ []) (lead : Nat) {fuel : Nat}
    (hfuel : fields.length ≤ fuel) (rest : List Char) :
    readFields fuel (blanks lead ++ (writeFields gap fields ++ rest)) = some (fields, rest) := by
  induction fields generalizing lead fuel with
  | nil => exact absurd rfl hne
  | cons field fields ih =>
      cases fuel with
      | zero => cases hfuel
      | succ fuel =>
          cases fields with
          | nil =>
              rw [writeFields, List.append_assoc, List.singleton_append, readFields,
                readField_writeField lead gap field (closes_bracket rest)]
              rfl
          | cons next fields =>
              have hread := ih (List.cons_ne_nil _ _) gap (Nat.le_of_succ_le_succ hfuel)
              rw [writeFields, List.append_assoc, List.cons_append, List.append_assoc, readFields,
                readField_writeField lead gap field (closes_comma _)]
              simp only [hread, Option.map_some]

theorem length_writeFields (gap : Nat) (fields : List Field) : fields.length < (writeFields gap fields).length := by
  induction fields with
  | nil => simp [writeFields]
  | cons field fields ih =>
      cases fields with
      | nil =>
          simp only [writeFields, List.length_append, List.length_cons, List.length_nil, writeField]
          omega
      | cons next fields =>
          simp only [writeFields, List.length_append, List.length_cons] at ih ⊢
          omega

/-- **An object is read back.** -/
theorem readObject_writeObject (gap : Nat) (fields : List Field) : readObject (writeObject gap fields) = some fields := by
  cases fields with
  | nil => rfl
  | cons field fields =>
      have hfuel := Nat.le_of_lt (length_writeFields gap (field :: fields))
      have hread := readFields_writeFields gap (List.cons_ne_nil field fields) 0 hfuel []
      obtain ⟨text, htext⟩ : ∃ text, writeFields gap (field :: fields) = '"' :: text := by
        cases fields with
        | nil => exact ⟨_, rfl⟩
        | cons next fields => exact ⟨_, rfl⟩
      have hbrace : skip ('{' :: '"' :: text) = ['{'] ++ '"' :: text := skip_cons (by decide) _
      have hquote : skip ('"' :: text) = '"' :: text := skip_cons (by decide) _
      have hbracket : '}' ≠ '"' := by decide
      rw [List.append_nil, htext] at hread
      have hread : readFields ('"' :: text).length ('"' :: text) = some (field :: fields, []) := hread
      simp only [readObject, writeObject, htext, hbrace, expect_append, hquote, expect_of_ne hbracket, hread]
      rfl

/-- The printable characters of ASCII. -/
def Printable (c : Char) : Prop := 0x20 ≤ c.toNat ∧ c.toNat ≤ 0x7e

instance (c : Char) : Decidable (Printable c) := inferInstanceAs (Decidable (_ ∧ _))

theorem printable_digitChar {digit : Nat} (h : digit < 16) : Printable digit.digitChar := by
  have hall : ∀ digit < 16, Printable digit.digitChar := by decide
  exact hall digit h

theorem printable_writeUnit (unit : Nat) : ∀ c ∈ writeUnit unit, Printable c := by
  intro c hc
  unfold writeUnit at hc
  cases hlookup : escapes.lookup unit with
  | some letter =>
      have hletters : ∀ escape ∈ escapes, Printable escape.2 := by decide
      obtain ⟨before, after, hescapes, -⟩ := List.lookup_eq_some_iff.mp hlookup
      simp only [hlookup, List.mem_cons, List.not_mem_nil, or_false] at hc
      rcases hc with rfl | rfl
      · decide
      · exact hletters (unit, c) (by rw [hescapes]; simp)
  | none =>
      simp only [hlookup] at hc
      split at hc
      · rename_i hprintable
        rw [List.mem_singleton.mp hc, Printable, toNat_ofNat (by omega)]
        exact hprintable
      · simp only [hexDigits, List.mem_cons, List.not_mem_nil, or_false] at hc
        rcases hc with rfl | rfl | rfl | rfl | rfl | rfl
        · decide
        · decide
        all_goals exact printable_digitChar (Nat.mod_lt _ (by omega))

theorem printable_writeText (text : List Char) : ∀ c ∈ writeText text, Printable c := by
  intro c hc
  rw [writeText, List.mem_append, List.mem_cons, List.mem_singleton, List.mem_flatMap] at hc
  rcases hc with (rfl | ⟨unit, -, hc⟩) | rfl
  · decide
  · exact printable_writeUnit unit c hc
  · decide

theorem printable_toDigits (value : Nat) : ∀ c ∈ Nat.toDigits 10 value, Printable c := by
  intro c hc
  have hdigit := isDigit_toDigits value c hc
  simp only [Char.isDigit, Bool.and_eq_true, decide_eq_true_eq, ge_iff_le, UInt32.le_iff_toNat_le] at hdigit
  constructor
  · exact Nat.le_trans (by decide) hdigit.1
  · exact Nat.le_trans hdigit.2 (by decide)

theorem printable_of_all {text : List Char} (h : text.all (fun c => decide (Printable c)) = true) :
    ∀ c ∈ text, Printable c := by
  intro c hc
  exact of_decide_eq_true (List.all_eq_true.mp h c hc)

theorem printable_writeScalar (value : Scalar) : ∀ c ∈ writeScalar value, Printable c := by
  cases value with
  | null => exact printable_of_all rfl
  | bool value =>
      cases value with
      | true => exact printable_of_all rfl
      | false => exact printable_of_all rfl
  | int value =>
      cases value with
      | ofNat value => exact printable_toDigits value
      | negSucc value =>
          rw [writeScalar, writeInt, List.forall_mem_cons]
          exact ⟨by decide, printable_toDigits _⟩
  | text value => exact printable_writeText value

theorem printable_blanks (gap : Nat) : ∀ c ∈ blanks gap, Printable c := by
  intro c hc
  rw [List.eq_of_mem_replicate hc]
  decide

theorem printable_writeField (gap : Nat) (field : Field) : ∀ c ∈ writeField gap field, Printable c := by
  intro c hc
  simp only [writeField, List.mem_append, List.mem_cons] at hc
  rcases hc with hkey | rfl | hgap | hvalue
  · exact printable_writeText _ c hkey
  · decide
  · exact printable_blanks gap c hgap
  · exact printable_writeScalar _ c hvalue

theorem printable_writeFields (gap : Nat) (fields : List Field) : ∀ c ∈ writeFields gap fields, Printable c := by
  induction fields with
  | nil =>
      intro c hc
      rw [List.mem_singleton.mp hc]
      decide
  | cons field fields ih =>
      intro c hc
      cases fields with
      | nil =>
          rw [writeFields, List.mem_append, List.mem_singleton] at hc
          rcases hc with hfield | rfl
          · exact printable_writeField gap field c hfield
          · decide
      | cons next fields =>
          simp only [writeFields, List.mem_append, List.mem_cons] at hc
          rcases hc with hfield | rfl | hgap | hrest
          · exact printable_writeField gap field c hfield
          · decide
          · exact printable_blanks gap c hgap
          · exact ih c hrest

/-- **An object is written on one line of ASCII.** -/
theorem printable_writeObject (gap : Nat) (fields : List Field) : ∀ c ∈ writeObject gap fields, Printable c := by
  rw [writeObject, List.forall_mem_cons]
  exact ⟨by decide, printable_writeFields gap fields⟩

theorem newline_not_mem_writeObject (gap : Nat) (fields : List Field) : '\n' ∉ writeObject gap fields := by
  intro h
  have hprintable := printable_writeObject gap fields '\n' h
  exact absurd hprintable (by decide)

/-- Objects, every one on a line of its own. -/
def writeLines (gap : Nat) (objects : List (List Field)) : List Char :=
  Delimited.join '\n' (objects.map (writeObject gap))

def readLines (text : List Char) : Option (List (List Field)) :=
  match Delimited.split '\n' text with
  | (lines, []) => lines.mapM readObject
  | (_, _ :: _) => none

theorem mapM_map {α β γ : Type} {f : β → Option γ} {g : α → β} {k : α → γ} {items : List α}
    (h : ∀ item ∈ items, f (g item) = some (k item)) : (items.map g).mapM f = some (items.map k) := by
  induction items with
  | nil => rfl
  | cons item items ih =>
      rw [List.forall_mem_cons] at h
      simp [h.1, ih h.2]

/-- **A file of lines is read back.** -/
theorem readLines_writeLines (gap : Nat) (objects : List (List Field)) :
    readLines (writeLines gap objects) = some objects := by
  have hlines : ∀ line ∈ objects.map (writeObject gap), '\n' ∉ line := by
    intro line hline
    obtain ⟨fields, -, rfl⟩ := List.mem_map.mp hline
    exact newline_not_mem_writeObject gap fields
  rw [readLines, writeLines, Delimited.split_join hlines]
  have hread := mapM_map (k := id) fun fields (_ : fields ∈ objects) => readObject_writeObject gap fields
  rwa [List.map_id] at hread

/-- The value of a key. -/
def valueOf (fields : List Field) (key : String) : Option Scalar := fields.lookup key.toList

def scalarText (value : String) : Scalar := .text value.toList

def readString : Scalar → Option String
  | .text value => some (String.ofList value)
  | _ => none

theorem readString_scalarText (value : String) : readString (scalarText value) = some value := by
  rw [scalarText, readString, String.ofList_toList]

end JsonText
