import GpuInference.DelimitedText

/-!
Points in time as text. A point in time is a number of microseconds since the beginning of the year 1 of the proleptic
Gregorian calendar; its text names the day, the time of the day and the zone, and the point is read back from it.
-/

namespace DateText

/-- A day of the calendar. -/
structure Day where
  year : Nat
  month : Nat
  day : Nat

/-- The days of the year before a month. -/
def daysBeforeMonth (leap : Bool) (month : Nat) : Nat :=
  [0, 0, 31, 59, 90, 120, 151, 181, 212, 243, 273, 304, 334].getD month 0 + if 2 < month ∧ leap = true then 1 else 0

def isLeap (year : Nat) : Bool := year % 4 = 0 && (year % 100 ≠ 0 || year % 400 = 0)

def daysBeforeYear (year : Nat) : Nat := (year - 1) * 365 + (year - 1) / 4 - (year - 1) / 100 + (year - 1) / 400

/-- The number of a day, the first of January of the year 1 being day 0. -/
def Day.number (self : Day) : Nat :=
  daysBeforeYear self.year + daysBeforeMonth (isLeap self.year) self.month + (self.day - 1)

/-- The month of a day of the year, and the day of the month: the guess may be one month too late. -/
def monthOf (leap : Bool) (dayOfYear : Nat) : Nat × Nat :=
  let month := (dayOfYear + 50) / 32
  let month := if dayOfYear < daysBeforeMonth leap month then month - 1 else month
  (month, dayOfYear - daysBeforeMonth leap month + 1)

/-- The day with this number: cycles of 400, 100, 4 years and of one year are taken off. -/
def ofNumber (number : Nat) : Day :=
  let n400 := number / 146097
  let rest := number % 146097
  let n100 := rest / 36524
  let rest := rest % 36524
  let n4 := rest / 1461
  let rest := rest % 1461
  let n1 := rest / 365
  let rest := rest % 365
  let year := n400 * 400 + 1 + n100 * 100 + n4 * 4 + n1
  if n1 = 4 ∨ n100 = 4 then ⟨year - 1, 12, 31⟩
  else
    let leap := n1 = 3 && (n4 ≠ 24 || n100 = 3)
    ⟨year, (monthOf leap rest).1, (monthOf leap rest).2⟩

theorem monthOf_back (leap : Bool) {dayOfYear : Nat} (h : dayOfYear < if leap = true then 366 else 365) :
    daysBeforeMonth leap (monthOf leap dayOfYear).1 + ((monthOf leap dayOfYear).2 - 1) = dayOfYear := by
  have hall : ∀ leap : Bool, ∀ dayOfYear < if leap = true then 366 else 365,
      daysBeforeMonth leap (monthOf leap dayOfYear).1 ≤ dayOfYear := by decide +kernel
  have hle := hall leap dayOfYear h
  have hday : (monthOf leap dayOfYear).2 = dayOfYear - daysBeforeMonth leap (monthOf leap dayOfYear).1 + 1 := rfl
  omega

theorem daysBeforeYear_cycles {a b c d : Nat} (hb : b ≤ 3) (hc : c ≤ 24) (hd : d ≤ 3) :
    daysBeforeYear (400 * a + 100 * b + 4 * c + d + 1) = 146097 * a + 36524 * b + 1461 * c + 365 * d := by
  have hfour : (400 * a + 100 * b + 4 * c + d) / 4 = 100 * a + 25 * b + c := by omega
  have hcentury : (400 * a + 100 * b + 4 * c + d) / 100 = 4 * a + b := by omega
  have hcycle : (400 * a + 100 * b + 4 * c + d) / 400 = a := by omega
  rw [daysBeforeYear, Nat.add_sub_cancel, hfour, hcentury, hcycle]
  omega

theorem isLeap_cycles {a b c d : Nat} (hb : b ≤ 3) (hc : c ≤ 24) (hd : d ≤ 3) :
    isLeap (400 * a + 100 * b + 4 * c + d + 1) = (d = 3 && (c ≠ 24 || b = 3)) := by
  rw [isLeap, Bool.eq_iff_iff]
  simp only [Bool.and_eq_true, Bool.or_eq_true, decide_eq_true_eq]
  omega

/-- The last day of a year of 366 days. -/
theorem number_last {a b c : Nat} (hb : b ≤ 3) (hc : c ≤ 24) (hleap : c ≠ 24 ∨ b = 3) :
    (⟨400 * a + 100 * b + 4 * c + 3 + 1, 12, 31⟩ : Day).number = 146097 * a + 36524 * b + 1461 * c + 1460 := by
  have hleap : isLeap (400 * a + 100 * b + 4 * c + 3 + 1) = true := by
    rw [isLeap_cycles hb hc (by omega)]
    simpa using hleap
  have hbefore : daysBeforeMonth true 12 = 335 := rfl
  simp only [Day.number, hleap, hbefore, daysBeforeYear_cycles hb hc (Nat.le_refl 3)]

/-- **Every day is found by its number.** -/
theorem number_ofNumber (number : Nat) : (ofNumber number).number = number := by
  obtain ⟨a, ha⟩ : ∃ a, a = number / 146097 := ⟨_, rfl⟩
  obtain ⟨b, hb⟩ : ∃ b, b = number % 146097 / 36524 := ⟨_, rfl⟩
  obtain ⟨c, hc⟩ : ∃ c, c = number % 146097 % 36524 / 1461 := ⟨_, rfl⟩
  obtain ⟨d, hd⟩ : ∃ d, d = number % 146097 % 36524 % 1461 / 365 := ⟨_, rfl⟩
  obtain ⟨r, hr⟩ : ∃ r, r = number % 146097 % 36524 % 1461 % 365 := ⟨_, rfl⟩
  have hnumber : number = 146097 * a + 36524 * b + 1461 * c + 365 * d + r := by omega
  have hyear : a * 400 + 1 + b * 100 + c * 4 + d = 400 * a + 100 * b + 4 * c + d + 1 := by omega
  simp only [ofNumber, ← ha, ← hb, ← hc, ← hd, ← hr, hyear]
  split
  · rename_i hlast
    rcases hlast with hlast | hlast
    · -- the last day of four years
      have hday := number_last (a := a) (b := b) (c := c) (by omega) (by omega) (.inl (by omega))
      rw [hlast, Nat.add_sub_cancel, hday]
      omega
    · -- the last day of four centuries
      have hday := number_last (a := a) (b := 3) (c := 24) (by omega) (by omega) (.inr rfl)
      have hsame : 400 * a + 100 * b + 4 * c + d + 1 - 1 = 400 * a + 100 * 3 + 4 * 24 + 3 + 1 := by omega
      rw [hsame, hday]
      omega
  · rename_i hlast
    rw [not_or] at hlast
    have hcycles := daysBeforeYear_cycles (a := a) (b := b) (c := c) (d := d) (by omega) (by omega) (by omega)
    have hleap := isLeap_cycles (a := a) (b := b) (c := c) (d := d) (by omega) (by omega) (by omega)
    have hday : r < if (d = 3 && (c ≠ 24 || b = 3)) = true then 366 else 365 := by
      split
      · omega
      · omega
    have hback := monthOf_back (d = 3 && (c ≠ 24 || b = 3)) hday
    simp only [Day.number, hcycles, hleap]
    omega

/-- The decimal digits of a value, with zeros before them up to a width. -/
def padded (width value : Nat) : List Char :=
  List.replicate (width - (Nat.toDigits 10 value).length) '0' ++ Nat.toDigits 10 value

/-- Values, every one with a width and with the character behind it. -/
def writeNumbers (parts : List (Nat × Nat × Char)) : List Char :=
  parts.flatMap fun part => padded part.1 part.2.1 ++ [part.2.2]

def microsPerDay : Nat := 86400000000

/-- The day, the time of the day and the offset of the zone; whole seconds have no fraction. -/
def write (point : Nat) : List Char :=
  let day := ofNumber (point / microsPerDay)
  let micros := point % microsPerDay
  let second := micros / 1000000 % 60
  writeNumbers ([(4, day.year, '-'), (2, day.month, '-'), (2, day.day, ' '), (2, micros / 3600000000, ':'),
    (2, micros / 60000000 % 60, ':')] ++
    if micros % 1000000 = 0 then [(2, second, '+')] else [(2, second, '.'), (6, micros % 1000000, '+')]) ++
  ['0', '0', ':', '0', '0']

/-- The numbers in a text, given the value of the digits that have been read. -/
def numbers : Option Nat → List Char → List Nat
  | none, [] => []
  | some value, [] => [value]
  | read, c :: rest =>
      if c.isDigit = true then numbers (some (10 * read.getD 0 + (c.toNat - '0'.toNat))) rest
      else read.toList ++ numbers none rest

/-- The point in time on a day. -/
def pointOn (day : Day) (hour minute second micros : Nat) : Nat :=
  day.number * microsPerDay + hour * 3600000000 + minute * 60000000 + second * 1000000 + micros

def read (text : List Char) : Option Nat :=
  match numbers none text with
  | [year, month, day, hour, minute, second, 0, 0] => some (pointOn ⟨year, month, day⟩ hour minute second 0)
  | [year, month, day, hour, minute, second, micros, 0, 0] => some (pointOn ⟨year, month, day⟩ hour minute second micros)
  | _ => none

theorem numbers_some (value : Nat) {digits : List Char} (hdigits : ∀ c ∈ digits, c.isDigit = true) {sep : Char}
    (hsep : sep.isDigit = false) (rest : List Char) :
    numbers (some value) (digits ++ sep :: rest) = Nat.ofDigitChars 10 digits value :: numbers none rest := by
  induction digits generalizing value with
  | nil => simp [numbers, hsep]
  | cons c digits ih =>
      rw [List.forall_mem_cons] at hdigits
      rw [List.cons_append, numbers, if_pos hdigits.1, ih _ hdigits.2, Nat.ofDigitChars_cons]
      rfl

theorem isDigit_padded (width value : Nat) : ∀ c ∈ padded width value, c.isDigit = true := by
  intro c hc
  rcases List.mem_append.mp hc with hzero | hdigit
  · rw [List.eq_of_mem_replicate hzero]
    rfl
  · exact Nat.isDigit_of_mem_toDigits (by omega) (by omega) hdigit

/-- Zeros in front count for nothing. -/
theorem ofDigitChars_padded (width value : Nat) : Nat.ofDigitChars 10 (padded width value) 0 = value := by
  rw [padded, Nat.ofDigitChars_append, Nat.ofDigitChars_replicate_zero, Nat.mul_zero, Nat.ofDigitChars_ten_toDigits]

theorem numbers_padded (width value : Nat) {sep : Char} (hsep : sep.isDigit = false) (rest : List Char) :
    numbers none (padded width value ++ sep :: rest) = value :: numbers none rest := by
  have hvalue := ofDigitChars_padded width value
  have hdigits := isDigit_padded width value
  cases hpadded : padded width value with
  | nil =>
      rw [padded, List.append_eq_nil_iff] at hpadded
      exact absurd hpadded.2 Nat.toDigits_ne_nil
  | cons c digits =>
      rw [hpadded] at hvalue hdigits
      rw [List.forall_mem_cons] at hdigits
      rw [Nat.ofDigitChars_cons] at hvalue
      rw [List.cons_append, numbers, if_pos hdigits.1, numbers_some _ hdigits.2 hsep, Option.getD_none, hvalue]

theorem numbers_writeNumbers {parts : List (Nat × Nat × Char)} (h : ∀ part ∈ parts, part.2.2.isDigit = false)
    (rest : List Char) :
    numbers none (writeNumbers parts ++ rest) = parts.map (fun part => part.2.1) ++ numbers none rest := by
  induction parts with
  | nil => rfl
  | cons part parts ih =>
      rw [List.forall_mem_cons] at h
      have hpart := numbers_padded part.1 part.2.1 h.1 (writeNumbers parts ++ rest)
      calc numbers none (writeNumbers (part :: parts) ++ rest)
          = numbers none (padded part.1 part.2.1 ++ part.2.2 :: (writeNumbers parts ++ rest)) := by
            simp [writeNumbers]
        _ = part.2.1 :: numbers none (writeNumbers parts ++ rest) := hpart
        _ = _ := by rw [ih h.2]; rfl

/-- **A point in time is read back.** -/
theorem read_write (point : Nat) : read (write point) = some point := by
  have hday := number_ofNumber (point / microsPerDay)
  have hzone : numbers none ['0', '0', ':', '0', '0'] = [0, 0] := rfl
  have hpoint : point / microsPerDay * microsPerDay + point % microsPerDay / 3600000000 * 3600000000 +
      point % microsPerDay / 60000000 % 60 * 60000000 + point % microsPerDay / 1000000 % 60 * 1000000 +
      point % microsPerDay % 1000000 = point := by
    simp only [microsPerDay]
    omega
  unfold read write
  by_cases hwhole : point % microsPerDay % 1000000 = 0
  · rw [hwhole] at hpoint
    simp only [hwhole, if_true, List.cons_append, List.nil_append]
    rw [numbers_writeNumbers (by simp), hzone]
    simp only [List.map_cons, List.map_nil, List.cons_append, List.nil_append, pointOn, hday, hpoint]
  · simp only [hwhole, if_false, List.cons_append, List.nil_append]
    rw [numbers_writeNumbers (by simp), hzone]
    simp only [List.map_cons, List.map_nil, List.cons_append, List.nil_append, pointOn, hday, hpoint]

end DateText
