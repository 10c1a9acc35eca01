import Mathlib.Data.List.Basic
import Mathlib.Data.List.Forall2
import Mathlib.Data.List.TakeWhile
import Mathlib.Data.Bool.AllAny

/-!
Regular expressions, matched by backtracking. A place in a text knows the character before it, the text that is left and
the groups that have been read. An expression leads from a place to a list of places, the preferred one first; a match
is the first of them. Substitution goes through the text from the left and replaces every match that it comes to.
-/

/-- An expression: a character, a greedy repetition of a class of characters with a least number of them, a sequence, a
choice, a group, and a boundary between a word character and another one. -/
inductive Regex (α : Type) where
  | chr (accepts : α → Bool)
  | many (least : Nat) (accepts : α → Bool)
  | seq (first second : Regex α)
  | alt (first second : Regex α)
  | group (body : Regex α)
  | boundary (isWord : α → Bool)

namespace Regex

variable {α : Type}

/-- A place in a text. -/
@[ext] structure Place (α : Type) where
  before : Option α
  rest : List α
  groups : List (List α)

/-- The last character of a text that follows another one. -/
def after : Option α → List α → Option α
  | before, [] => before
  | _, c :: text => after (some c) text

@[simp] theorem after_nil (before : Option α) : after before [] = before := rfl

@[simp] theorem after_cons (before : Option α) (c : α) (text : List α) :
    after before (c :: text) = after (some c) text := rfl

@[simp] theorem after_append (before : Option α) (left right : List α) :
    after before (left ++ right) = after (after before left) right := by
  induction left generalizing before with
  | nil => rfl
  | cons c left ih => exact ih _

theorem after_none (text : List α) : after none text = text.getLast? := by
  rcases List.eq_nil_or_concat text with rfl | ⟨front, c, rfl⟩
  · rfl
  · simp

namespace Place

/-- The place, with more text behind it. -/
def append (place : Place α) (text : List α) : Place α := { place with rest := place.rest ++ text }

@[simp] theorem append_rest (place : Place α) (text : List α) : (place.append text).rest = place.rest ++ text := rfl

@[simp] theorem append_before (place : Place α) (text : List α) : (place.append text).before = place.before := rfl

@[simp] theorem append_groups (place : Place α) (text : List α) : (place.append text).groups = place.groups := rfl

end Place

/-- The ends of a repetition, the longest one first. -/
def manyEnds (accepts : α → Bool) (groups : List (List α)) : Nat → Option α → List α → List (Place α)
  | 0, before, [] => [⟨before, [], groups⟩]
  | _ + 1, _, [] => []
  | least, before, c :: rest =>
      (if accepts c then manyEnds accepts groups (least - 1) (some c) rest else []) ++
        if least = 0 then [⟨before, c :: rest, groups⟩] else []

/-- The places at which the expression can end. -/
def ends : Regex α → Place α → List (Place α)
  | chr accepts, place =>
      match place.rest with
      | [] => []
      | c :: rest => if accepts c then [⟨some c, rest, place.groups⟩] else []
  | many least accepts, place => manyEnds accepts place.groups least place.before place.rest
  | seq first second, place => (first.ends place).flatMap second.ends
  | alt first second, place => first.ends place ++ second.ends place
  | group body, place =>
      (body.ends place).map fun last =>
        { last with groups := last.groups ++ [place.rest.take (place.rest.length - last.rest.length)] }
  | boundary isWord, place =>
      if place.before.any isWord ≠ place.rest.head?.any isWord then [place] else []

section

-- The equations are derived here, once: the proofs below run side by side and would wait for one another.
attribute [local simp] ends manyEnds

end

/-- The match at the beginning of a text. -/
def find (self : Regex α) (before : Option α) (text : List α) : Option (Place α) := (self.ends ⟨before, text, []⟩).head?

/-- Every match replaced, for an expression that reads no empty text. `skip` characters belong to the last match. -/
def sub (self : Regex α) (template : List (List α) → List α) : Option α → Nat → List α → List α
  | _, _, [] => []
  | _, skip + 1, c :: rest => self.sub template (some c) skip rest
  | before, 0, c :: rest =>
      match self.find before (c :: rest) with
      | none => c :: self.sub template (some c) 0 rest
      | some last => template last.groups ++ self.sub template (some c) (rest.length - last.rest.length) rest

/-- What is written at a character, given the match that begins there. -/
def written (template : List (List α) → List α) (c : α) : Option (Place α) → List α
  | none => [c]
  | some last => template last.groups

/-- How many characters behind the first one belong to the match. -/
def skipped (rest : List α) : Option (Place α) → Nat
  | none => 0
  | some last => rest.length - last.rest.length

/-- A text, character by character, and then an expression. -/
def literal (same : α → α → Bool) : List α → Regex α → Regex α
  | [], next => next
  | c :: text, next => seq (chr (same c)) (literal same text next)

/-- The text begins with the word. -/
def begins (same : α → α → Bool) : List α → List α → Bool
  | [], _ => true
  | _ :: _, [] => false
  | c :: word, d :: text => same c d && begins same word text

theorem begins_iff {same : α → α → Bool} {word text : List α} :
    begins same word text = true ↔
      ∃ left right, text = left ++ right ∧ List.Forall₂ (fun c d => same c d = true) word left := by
  induction word generalizing text with
  | nil => exact ⟨fun _ => ⟨[], text, rfl, .nil⟩, fun _ => rfl⟩
  | cons c word ih =>
      constructor
      · intro h
        cases text with
        | nil => cases h
        | cons d text =>
            rw [begins, Bool.and_eq_true, ih] at h
            obtain ⟨hsame, left, right, rfl, hword⟩ := h
            exact ⟨d :: left, right, rfl, .cons hsame hword⟩
      · rintro ⟨_, right, rfl, hword⟩
        cases hword with
        | cons hsame hword =>
            rw [List.cons_append, begins, hsame, Bool.true_and, ih]
            exact ⟨_, right, rfl, hword⟩

theorem exists_of_mem_right {R : α → α → Prop} {word text : List α} (h : List.Forall₂ R word text) {d : α}
    (hd : d ∈ text) : ∃ c ∈ word, R c d := by
  induction h with
  | nil => cases hd
  | @cons c e word text hsame _ ih =>
      rcases List.mem_cons.mp hd with rfl | hd
      · exact ⟨c, List.mem_cons_self, hsame⟩
      · obtain ⟨c', hc', hsame'⟩ := ih hd
        exact ⟨c', List.mem_cons_of_mem c hc', hsame'⟩

theorem forall₂_beq_iff [BEq α] [LawfulBEq α] {word text : List α} :
    List.Forall₂ (fun c d => (c == d) = true) word text ↔ word = text := by
  simp only [beq_iff_eq, List.forall₂_eq_eq_eq]

theorem begins_beq_iff [BEq α] [LawfulBEq α] {word text : List α} :
    begins (· == ·) word text = true ↔ word <+: text := by
  rw [begins_iff]
  constructor
  · rintro ⟨left, right, rfl, hword⟩
    rw [forall₂_beq_iff.mp hword]
    exact List.prefix_append left right
  · rintro ⟨right, rfl⟩
    exact ⟨word, right, rfl, forall₂_beq_iff.mpr rfl⟩

/-- Only as much of the text counts as the word is long. -/
theorem begins_append (same : α → α → Bool) {word text : List α} (h : word.length ≤ text.length) (more : List α) :
    begins same word (text ++ more) = begins same word text := by
  induction word generalizing text with
  | nil => rfl
  | cons c word ih =>
      cases text with
      | nil => simp at h
      | cons d text =>
          rw [List.cons_append, begins, begins, ih (by simpa using h)]

/-- The texts that the expression reads, boundaries aside. -/
def Reads : Regex α → List α → Prop
  | chr accepts, text => ∃ c, text = [c] ∧ accepts c = true
  | many least accepts, text => least ≤ text.length ∧ ∀ c ∈ text, accepts c = true
  | seq first second, text => ∃ left right, text = left ++ right ∧ first.Reads left ∧ second.Reads right
  | alt first second, text => first.Reads text ∨ second.Reads text
  | group body, text => body.Reads text
  | boundary _, text => text = []

theorem reads_of_manyEnds {accepts : α → Bool} {groups : List (List α)} {least : Nat} {before : Option α}
    {rest : List α} {last : Place α} (h : last ∈ manyEnds accepts groups least before rest) :
    ∃ text, rest = text ++ last.rest ∧ least ≤ text.length ∧ (∀ c ∈ text, accepts c = true) ∧
      last.before = after before text := by
  induction rest generalizing least before with
  | nil =>
      cases least with
      | zero =>
          rw [manyEnds, List.mem_singleton] at h
          subst h
          exact ⟨[], rfl, Nat.le_refl 0, List.forall_mem_nil _, rfl⟩
      | succ least => cases h
  | cons c rest ih =>
      rw [manyEnds, List.mem_append] at h
      rcases h with h | h
      · split at h
        · rename_i haccepts
          obtain ⟨text, hrest, hleast, htext, hbefore⟩ := ih h
          refine ⟨c :: text, ?_, ?_, ?_, hbefore⟩
          · rw [hrest]
            rfl
          · rw [List.length_cons]
            omega
          · rw [List.forall_mem_cons]
            exact ⟨haccepts, htext⟩
        · cases h
      · split at h
        · rename_i hzero
          rw [List.mem_singleton] at h
          subst h
          exact ⟨[], rfl, Nat.le_of_eq hzero, List.forall_mem_nil _, rfl⟩
        · cases h

/-- What lies between a place and an end. -/
theorem reads_of_ends {self : Regex α} {place last : Place α} (h : last ∈ self.ends place) :
    ∃ text, place.rest = text ++ last.rest ∧ self.Reads text ∧ last.before = after place.before text := by
  induction self generalizing place last with
  | chr accepts =>
      rw [ends] at h
      split at h
      · cases h
      · rename_i c rest hrest
        split at h
        · rename_i haccepts
          rw [List.mem_singleton] at h
          subst h
          exact ⟨[c], hrest, ⟨c, rfl, haccepts⟩, rfl⟩
        · cases h
  | many least accepts =>
      obtain ⟨text, hrest, hleast, htext, hbefore⟩ := reads_of_manyEnds h
      exact ⟨text, hrest, ⟨hleast, htext⟩, hbefore⟩
  | seq first second ihfirst ihsecond =>
      obtain ⟨middle, hmiddle, hlast⟩ := List.mem_flatMap.mp h
      obtain ⟨left, hleft, hreads, hbefore⟩ := ihfirst hmiddle
      obtain ⟨right, hright, hreads', hbefore'⟩ := ihsecond hlast
      refine ⟨left ++ right, ?_, ⟨left, right, rfl, hreads, hreads'⟩, ?_⟩
      · rw [hleft, hright, List.append_assoc]
      · rw [hbefore', hbefore, after_append]
  | alt first second ihfirst ihsecond =>
      rcases List.mem_append.mp h with h | h
      · obtain ⟨text, hrest, hreads, hbefore⟩ := ihfirst h
        exact ⟨text, hrest, .inl hreads, hbefore⟩
      · obtain ⟨text, hrest, hreads, hbefore⟩ := ihsecond h
        exact ⟨text, hrest, .inr hreads, hbefore⟩
  | group body ih =>
      obtain ⟨inner, hinner, rfl⟩ := List.mem_map.mp h
      obtain ⟨text, hrest, hreads, hbefore⟩ := ih hinner
      exact ⟨text, hrest, hreads, hbefore⟩
  | boundary isWord =>
      rw [ends] at h
      split at h
      · rw [List.mem_singleton] at h
        subst h
        exact ⟨[], rfl, rfl, rfl⟩
      · cases h

theorem reads_of_find {self : Regex α} {before : Option α} {text : List α} {last : Place α}
    (h : self.find before text = some last) :
    ∃ found, text = found ++ last.rest ∧ self.Reads found ∧ last.before = after before found :=
  reads_of_ends (List.mem_of_head? h)

theorem reads_literal {same : α → α → Bool} {word : List α} {next : Regex α} {text : List α}
    (h : (literal same word next).Reads text) :
    ∃ left right, text = left ++ right ∧ List.Forall₂ (fun c d => same c d = true) word left ∧ next.Reads right := by
  induction word generalizing text with
  | nil => exact ⟨[], text, rfl, .nil, h⟩
  | cons c word ih =>
      obtain ⟨_, right, rfl, ⟨d, rfl, hsame⟩, hnext⟩ := h
      obtain ⟨left, right, rfl, hword, hreads⟩ := ih hnext
      exact ⟨d :: left, right, rfl, .cons hsame hword, hreads⟩

/-- The preferred end. -/
def first (self : Regex α) (place : Place α) : Option (Place α) := (self.ends place).head?

theorem find_eq (self : Regex α) (before : Option α) (text : List α) :
    self.find before text = self.first ⟨before, text, []⟩ := rfl

theorem first_chr {accepts : α → Bool} {c : α} (h : accepts c = true) (before : Option α) (rest : List α)
    (groups : List (List α)) : (chr accepts).first ⟨before, c :: rest, groups⟩ = some ⟨some c, rest, groups⟩ := by
  simp [first, ends, h]

theorem first_seq {left right : Regex α} {place middle last : Place α} (hleft : left.first place = some middle)
    (hright : right.first middle = some last) : (seq left right).first place = some last := by
  obtain ⟨others, hends⟩ := List.head?_eq_some_iff.mp hleft
  rw [first] at hright
  rw [first, ends, hends, List.flatMap_cons, List.head?_append, hright]
  rfl

theorem first_group {body : Regex α} {before last : Option α} {text rest : List α} {groups groups' : List (List α)}
    (h : body.first ⟨before, text ++ rest, groups⟩ = some ⟨last, rest, groups'⟩) :
    (group body).first ⟨before, text ++ rest, groups⟩ = some ⟨last, rest, groups' ++ [text]⟩ := by
  rw [first, ends, List.head?_map, ← first, h]
  simp

theorem first_alt_left {left right : Regex α} {place last : Place α} (h : left.first place = some last) :
    (alt left right).first place = some last := by
  rw [first, ends, List.head?_append, ← first, h]
  rfl

theorem first_alt_right {left right : Regex α} {place : Place α} (h : left.ends place = []) :
    (alt left right).first place = right.first place := by
  rw [first, ends, h]
  rfl

theorem first_boundary {isWord : α → Bool} {place : Place α}
    (h : place.before.any isWord ≠ place.rest.head?.any isWord) : (boundary isWord).first place = some place := by
  simp [first, ends, h]

/-- A repetition prefers to go on to the end of its characters. -/
theorem first_many {accepts : α → Bool} {least : Nat} {run rest : List α} (hleast : least ≤ run.length)
    (hrun : ∀ c ∈ run, accepts c = true) (hrest : ∀ c ∈ rest.head?, accepts c = false) (before : Option α)
    (groups : List (List α)) :
    (many least accepts).first ⟨before, run ++ rest, groups⟩ = some ⟨after before run, rest, groups⟩ := by
  rw [first, ends]
  induction run generalizing least before with
  | nil =>
      obtain rfl : least = 0 := Nat.le_zero.mp hleast
      cases rest with
      | nil => rfl
      | cons c rest =>
          have hstops : accepts c = false := hrest c rfl
          simp [manyEnds, hstops]
  | cons c run ih =>
      rw [List.forall_mem_cons] at hrun
      have hgoes := @ih (least - 1) (by simp at hleast; omega) hrun.2 (some c)
      rw [List.cons_append, manyEnds, if_pos hrun.1, List.head?_append]
      dsimp only at hgoes ⊢
      rw [hgoes]
      rfl

theorem ends_literal {same : α → α → Bool} {word text : List α}
    (h : List.Forall₂ (fun c d => same c d = true) word text) (next : Regex α) (before : Option α) (rest : List α)
    (groups : List (List α)) :
    (literal same word next).ends ⟨before, text ++ rest, groups⟩ = next.ends ⟨after before text, rest, groups⟩ := by
  induction h generalizing before with
  | nil => rfl
  | @cons c d word text hsame _ ih =>
      rw [literal, ends, ends]
      simp [hsame, ih]

/-- Where `c` comes next, nothing that lies behind it makes a difference. -/
def Stops (self : Regex α) (c : α) : Prop :=
  ∀ (before : Option α) (left right : List α) (groups : List (List α)),
    self.ends ⟨before, left ++ c :: right, groups⟩ =
      (self.ends ⟨before, left ++ [c], groups⟩).map fun last => last.append right

/-- No class of the expression has the character. -/
def Avoids : Regex α → α → Prop
  | chr accepts, c => accepts c = false
  | many _ accepts, c => accepts c = false
  | seq first second, c => first.Avoids c ∧ second.Avoids c
  | alt first second, c => first.Avoids c ∧ second.Avoids c
  | group body, c => body.Avoids c
  | boundary _, _ => True

theorem Avoids.not_mem {self : Regex α} {c : α} (h : self.Avoids c) {text : List α} (hreads : self.Reads text) :
    c ∉ text := by
  induction self generalizing text with
  | chr accepts =>
      obtain ⟨d, rfl, haccepts⟩ := hreads
      rw [List.mem_singleton]
      rintro rfl
      exact Bool.false_ne_true (h.symm.trans haccepts)
  | many least accepts => exact fun hmem => Bool.false_ne_true (h.symm.trans (hreads.2 c hmem))
  | seq first second ihfirst ihsecond =>
      obtain ⟨left, right, rfl, hleft, hright⟩ := hreads
      rw [List.mem_append]
      rintro (hmem | hmem)
      · exact ihfirst h.1 hleft hmem
      · exact ihsecond h.2 hright hmem
  | alt first second ihfirst ihsecond =>
      rcases hreads with hreads | hreads
      · exact ihfirst h.1 hreads
      · exact ihsecond h.2 hreads
  | group body ih => exact ih h hreads
  | boundary isWord =>
      obtain rfl : text = [] := hreads
      exact List.not_mem_nil

/-- An expression that avoids a character ends before it. -/
theorem Avoids.rest {self : Regex α} {c : α} (h : self.Avoids c) {before : Option α} {left : List α}
    {groups : List (List α)} {last : Place α} (hlast : last ∈ self.ends ⟨before, left ++ [c], groups⟩) :
    ∃ more, last.rest = more ++ [c] ∧ more.length ≤ left.length := by
  obtain ⟨text, hrest, hreads, -⟩ := reads_of_ends hlast
  have hnot := h.not_mem hreads
  dsimp only at hrest
  rcases List.append_eq_append_iff.mp hrest with ⟨more, rfl, hmore⟩ | ⟨more, rfl, hmore⟩
  · cases more with
    | nil =>
        refine ⟨[], hmore.symm, ?_⟩
        simp
    | cons d more =>
        obtain ⟨rfl, -⟩ := List.cons.inj hmore
        exact absurd (List.mem_append_right _ List.mem_cons_self) hnot
  · exact ⟨more, hmore, by simp⟩

theorem manyEnds_stops {accepts : α → Bool} {c : α} (hc : accepts c = false) (groups : List (List α)) (least : Nat)
    (before : Option α) (left right : List α) :
    manyEnds accepts groups least before (left ++ c :: right) =
      (manyEnds accepts groups least before (left ++ [c])).map fun last => last.append right := by
  induction left generalizing least before with
  | nil => by_cases hleast : least = 0 <;> simp [manyEnds, hc, hleast, Place.append]
  | cons d left ih =>
      rw [List.cons_append, List.cons_append, manyEnds, manyEnds, List.map_append]
      congr 1
      · split
        · exact ih _ _
        · rfl
      · split <;> simp [Place.append]

/-- One character is all that is looked at. -/
theorem stops_chr (accepts : α → Bool) (c : α) : (chr accepts).Stops c := by
  intro before left right groups
  cases left with
  | nil =>
      simp only [ends, List.nil_append]
      split <;> simp [Place.append]
  | cons d left =>
      simp only [ends, List.cons_append]
      split <;> simp [Place.append]

/-- The character may be in what comes last. -/
theorem Avoids.stops_seq {left right : Regex α} {c : α} (hleft : left.Avoids c) (hstops : left.Stops c)
    (hright : right.Stops c) : (seq left right).Stops c := by
  intro before text more groups
  rw [ends, ends, hstops, List.flatMap_map, List.map_flatMap]
  apply List.flatMap_congr
  intro middle hmiddle
  obtain ⟨text', htext, -⟩ := hleft.rest hmiddle
  obtain ⟨before', rest, groups'⟩ := middle
  dsimp only at htext
  subst htext
  have hends := hright before' text' more groups'
  rw [Place.append]
  simpa using hends

theorem Avoids.stops {self : Regex α} {c : α} (h : self.Avoids c) : self.Stops c := by
  induction self with
  | chr accepts => exact stops_chr accepts c
  | many least accepts =>
      intro before left right groups
      exact manyEnds_stops h groups least before left right
  | seq first second ihfirst ihsecond => exact h.1.stops_seq (ihfirst h.1) (ihsecond h.2)
  | alt first second ihfirst ihsecond =>
      intro before left right groups
      rw [ends, ends, ihfirst h.1, ihsecond h.2, List.map_append]
  | group body ih =>
      have hbody : body.Avoids c := h
      intro before left right groups
      rw [ends, ends, ih hbody, List.map_map, List.map_map]
      apply List.map_congr_left
      intro last hlast
      obtain ⟨more, hmore, hlength⟩ := hbody.rest hlast
      have htaken : (left ++ c :: right).length - (last.rest ++ right).length = left.length - more.length := by
        simp [hmore]
        omega
      have htaken' : (left ++ [c]).length - last.rest.length = left.length - more.length := by simp [hmore]
      have hle : left.length - more.length ≤ left.length := Nat.sub_le _ _
      simp only [Function.comp_apply, Place.append, htaken, htaken', List.take_append_of_le_length hle]
  | boundary isWord =>
      intro before left right groups
      cases left with
      | nil => by_cases hword : Option.any isWord before = isWord c <;> simp [ends, hword, Place.append]
      | cons d left => by_cases hword : Option.any isWord before = isWord d <;> simp [ends, hword, Place.append]

theorem Stops.literal {same : α → α → Bool} {word : List α} {next : Regex α} {c : α} (h : next.Stops c)
    (hword : ∀ d ∈ word, same d c = false) : (literal same word next).Stops c := by
  induction word with
  | nil => exact h
  | cons d word ih =>
      rw [List.forall_mem_cons] at hword
      have hchr : (chr (same d)).Avoids c := hword.1
      exact hchr.stops_seq (stops_chr _ c) (ih hword.2)

/-- The expression reads no empty text. -/
def Proper (self : Regex α) : Prop := ¬ self.Reads []

section Sub

variable {self : Regex α} {template : List (List α) → List α} {before : Option α}

theorem sub_cons (before : Option α) (c : α) (rest : List α) :
    self.sub template before 0 (c :: rest) = written template c (self.find before (c :: rest)) ++
      self.sub template (some c) (skipped rest (self.find before (c :: rest))) rest := by
  rw [sub]
  cases self.find before (c :: rest) <;> rfl

theorem skipped_le (rest : List α) (found : Option (Place α)) : skipped rest found ≤ rest.length := by
  cases found with
  | none => exact Nat.zero_le _
  | some last => exact Nat.sub_le _ _

/-- One step of a substitution, where more text makes no difference to the match. -/
theorem sub_cons_append {c : α} {rest more : List α}
    (h : self.find before (c :: rest ++ more) = (self.find before (c :: rest)).map fun last => last.append more) :
    self.sub template before 0 (c :: rest ++ more) = written template c (self.find before (c :: rest)) ++
      self.sub template (some c) (skipped rest (self.find before (c :: rest))) (rest ++ more) := by
  rw [List.cons_append] at h ⊢
  rw [sub_cons, h]
  cases self.find before (c :: rest) with
  | none => rfl
  | some last => simp [written, skipped, Nat.add_sub_add_right]

theorem sub_skip (text rest : List α) :
    self.sub template before text.length (text ++ rest) = self.sub template (after before text) 0 rest := by
  induction text generalizing before with
  | nil => rfl
  | cons c text ih =>
      rw [List.length_cons, List.cons_append, sub, ih]
      rfl

/-- A character at which no match begins is kept. -/
theorem sub_keep {c : α} {rest : List α} (h : self.find before (c :: rest) = none) :
    self.sub template before 0 (c :: rest) = c :: self.sub template (some c) 0 rest := by
  rw [sub, h]

/-- A match is replaced. -/
theorem sub_found {found rest : List α} {last : Option α} {groups : List (List α)} (hfound : found ≠ [])
    (h : self.find before (found ++ rest) = some ⟨last, rest, groups⟩) :
    self.sub template before 0 (found ++ rest) = template groups ++ self.sub template (after before found) 0 rest := by
  obtain ⟨c, found, rfl⟩ := List.exists_cons_of_ne_nil hfound
  rw [List.cons_append] at h ⊢
  have hskip : (found ++ rest).length - rest.length = found.length := by simp
  rw [sub, h]
  simp only [hskip, sub_skip, after_cons]

/-- Text in which no match begins is kept. -/
theorem sub_keeps {text rest : List α}
    (h : ∀ left right, text = left ++ right → right ≠ [] → self.find (after before left) (right ++ rest) = none) :
    self.sub template before 0 (text ++ rest) = text ++ self.sub template (after before text) 0 rest := by
  induction text generalizing before with
  | nil => rfl
  | cons c text ih =>
      have hfirst : self.find before (c :: (text ++ rest)) = none := h [] (c :: text) rfl (List.cons_ne_nil _ _)
      rw [List.cons_append, sub_keep hfirst, ih]
      · rfl
      · rintro left right rfl hright
        exact h (c :: left) right rfl hright

/-- **More text is replaced by itself**, where no match goes from a text into it. -/
theorem sub_append {text more : List α} (hfind : ∀ before tail, tail <:+ text → tail ≠ [] →
      self.find before (tail ++ more) = (self.find before tail).map fun last => last.append more)
    {skip : Nat} (hskip : skip ≤ text.length) :
    self.sub template before skip (text ++ more) =
      self.sub template before skip text ++ self.sub template (after before text) 0 more := by
  induction text generalizing before skip with
  | nil =>
      obtain rfl : skip = 0 := Nat.le_zero.mp hskip
      rfl
  | cons c text ih =>
      have hbehind : ∀ before tail, tail <:+ text → tail ≠ [] →
          self.find before (tail ++ more) = (self.find before tail).map fun last => last.append more :=
        fun before tail htail => hfind before tail (htail.trans (List.suffix_cons c text))
      cases skip with
      | succ skip => exact ih hbehind (Nat.le_of_succ_le_succ hskip)
      | zero =>
          have hfirst := hfind before (c :: text) (List.suffix_refl _) (List.cons_ne_nil c text)
          rw [sub_cons_append hfirst, sub_cons, ih hbehind (skipped_le _ _), List.append_assoc]
          rfl

/-- **Text is replaced up to a character that matches do not go beyond.** -/
theorem sub_stops {c : α} (hstops : self.Stops c) (left right : List α) :
    self.sub template before 0 (left ++ c :: right) =
      self.sub template before 0 (left ++ [c]) ++ self.sub template (some c) 0 right := by
  have hfind : ∀ before tail, tail <:+ left ++ [c] → tail ≠ [] →
      self.find before (tail ++ right) = (self.find before tail).map fun last => last.append right := by
    intro before tail htail hne
    obtain ⟨front, rfl⟩ : [c] <:+ tail := by
      apply List.suffix_of_suffix_length_le (List.suffix_append left [c]) htail
      exact List.length_pos_iff.mpr hne
    rw [List.append_assoc, List.singleton_append, find, hstops, List.head?_map]
    rfl
  have hsub : self.sub template before 0 (left ++ [c] ++ right) = _ := sub_append hfind (Nat.zero_le _)
  rwa [after_append, List.append_assoc, List.singleton_append] at hsub

/-- An expression that avoids a character has no match there. -/
theorem Avoids.find_head {c : α} (h : self.Avoids c) (hproper : self.Proper) (before : Option α) (right : List α) :
    self.find before (c :: right) = none := by
  rw [Option.eq_none_iff_forall_ne_some]
  intro last hfind
  obtain ⟨found, hfound, hreads, -⟩ := reads_of_find hfind
  cases found with
  | nil => exact hproper hreads
  | cons d found =>
      obtain ⟨rfl, -⟩ := List.cons.inj hfound
      exact h.not_mem hreads List.mem_cons_self

theorem Avoids.sub_head {c : α} (h : self.Avoids c) (hproper : self.Proper) (right : List α) :
    self.sub template before 0 (c :: right) = c :: self.sub template (some c) 0 right :=
  sub_keep (h.find_head hproper before right)

/-- A character that the expression avoids is kept, and separates what is before it from what is behind it. -/
theorem Avoids.sub_split {c : α} (h : self.Avoids c) (hproper : self.Proper) (left : List α) :
    ∃ out, (∀ right, self.sub template before 0 (left ++ c :: right) =
      out ++ c :: self.sub template (some c) 0 right) ∧
      (∀ d ∈ out, d ∈ left ∨ ∃ groups, d ∈ template groups) ∧
      (left ≠ [] → (∀ groups, template groups ≠ []) → out ≠ []) := by
  have hkept : ∀ (left : List α) (before : Option α) (skip : Nat), skip ≤ left.length →
      ∃ out, self.sub template before skip (left ++ [c]) = out ++ [c] ∧
        (∀ d ∈ out, d ∈ left ∨ ∃ groups, d ∈ template groups) ∧
        (left ≠ [] → skip = 0 → (∀ groups, template groups ≠ []) → out ≠ []) := by
    intro left
    induction left with
    | nil =>
        intro before skip hskip
        obtain rfl : skip = 0 := Nat.le_zero.mp hskip
        refine ⟨[], ?_, List.forall_mem_nil _, fun hne => absurd rfl hne⟩
        rw [List.nil_append, h.sub_head hproper]
        rfl
    | cons d left ih =>
        intro before skip hskip
        cases skip with
        | succ skip =>
            obtain ⟨out, hout, hmem, -⟩ := ih (some d) skip (Nat.le_of_succ_le_succ hskip)
            refine ⟨out, hout, ?_, fun _ hzero => absurd hzero (Nat.succ_ne_zero skip)⟩
            exact fun e he => (hmem e he).imp_left (List.mem_cons_of_mem d)
        | zero =>
            rw [List.cons_append, sub]
            cases hfind : self.find before (d :: (left ++ [c])) with
            | none =>
                obtain ⟨out, hout, hmem, -⟩ := ih (some d) 0 (Nat.zero_le _)
                refine ⟨d :: out, by simp [hout], ?_, fun _ _ _ => List.cons_ne_nil d out⟩
                intro e he
                rcases List.mem_cons.mp he with rfl | he
                · exact .inl List.mem_cons_self
                · exact (hmem e he).imp_left (List.mem_cons_of_mem d)
            | some last =>
                have hlast : last ∈ self.ends ⟨before, (d :: left) ++ [c], []⟩ := List.mem_of_head? hfind
                obtain ⟨more, hmore, -⟩ := h.rest hlast
                obtain ⟨out, hout, hmem, -⟩ := ih (some d) ((left ++ [c]).length - last.rest.length) (by simp [hmore])
                refine ⟨template last.groups ++ out, by simp only [hout, List.append_assoc], ?_, ?_⟩
                · intro e he
                  rcases List.mem_append.mp he with he | he
                  · exact .inr ⟨_, he⟩
                  · exact (hmem e he).imp_left (List.mem_cons_of_mem d)
                · exact fun _ _ htemplate => List.append_ne_nil_of_left_ne_nil (htemplate _) out
  obtain ⟨out, hout, hmem, hne⟩ := hkept left before 0 (Nat.zero_le _)
  refine ⟨out, ?_, hmem, fun hleft => hne hleft rfl⟩
  intro right
  rw [sub_stops h.stops, hout, List.append_assoc, List.singleton_append]

end Sub

end Regex
