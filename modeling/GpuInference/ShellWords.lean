import Mathlib.Data.List.Basic

/-!
Words of a command line. A shell splits a line at blanks, reads quoted parts as they are written, and gives other characters
a meaning of their own. A word that has been quoted is read as the word that it was.
-/

namespace Shell

inductive Quotation where
  | none
  | single
  | double

def isBlank (c : Char) : Bool := c = ' ' || c = '\t'

/-- The characters that mean something outside of quotation marks, at the beginning of a word or within it. -/
def specials : List Char :=
  ['\n', '\\', '$', '\x60', '|', '&', ';', '<', '>', '(', ')', '*', '?', '[', ']', '#', '~', '!', '{', '}', '^']

/-- The characters that mean something between double quotation marks. -/
def expansions : List Char := ['$', '\x60', '\\', '!']

/-- The words of a line, given the quotation and the word that is being read. There are none when the line has a character
that stands for something else. -/
def words : Quotation → Option (List Char) → List Char → Option (List (List Char))
  | .none, .none, [] => some []
  | .none, some word, [] => some [word]
  | _, _, [] => Option.none
  | .none, word, c :: rest =>
      if isBlank c = true then (words .none .none rest).map (word.toList ++ ·)
      else if c = '\x27' then words .single (some (word.getD [])) rest
      else if c = '"' then words .double (some (word.getD [])) rest
      else if c ∈ specials then Option.none
      else words .none (some (word.getD [] ++ [c])) rest
  | .single, word, c :: rest =>
      if c = '\x27' then words .none word rest else words .single (some (word.getD [] ++ [c])) rest
  | .double, word, c :: rest =>
      if c = '"' then words .none word rest
      else if c ∈ expansions then Option.none
      else words .double (some (word.getD [] ++ [c])) rest

/-- The characters that mean themselves. -/
def isSafe (c : Char) : Bool :=
  ('a' ≤ c && c ≤ 'z') || ('A' ≤ c && c ≤ 'Z') || ('0' ≤ c && c ≤ '9') || "_@%+=:,./-".toList.contains c

/-- A quotation mark, between double quotation marks, and the quotation goes on. -/
def escape (c : Char) : List Char := if c = '\x27' then ['\x27', '"', '\x27', '"', '\x27'] else [c]

/-- A word as the shell reads it: as it is if all its characters mean themselves, else between quotation marks. -/
def quote (word : List Char) : List Char :=
  if word = [] then ['\x27', '\x27']
  else if word.all isSafe = true then word
  else '\x27' :: (word.flatMap escape ++ ['\x27'])

/-- The words with a blank between two of them. -/
def join : List (List Char) → List Char
  | [] => []
  | [word] => quote word
  | word :: next :: rest => quote word ++ ' ' :: join (next :: rest)

theorem not_special {c : Char} (h : isSafe c = true) : isBlank c = false ∧ c ≠ '\x27' ∧ c ≠ '"' ∧ c ∉ specials := by
  have hspecial : ∀ d ∈ ' ' :: '\t' :: '\x27' :: '"' :: specials, isSafe d = false := by
    intro d hd
    have hall : (' ' :: '\t' :: '\x27' :: '"' :: specials).all (fun d => !isSafe d) = true := rfl
    simpa using List.all_eq_true.mp hall d hd
  have hne : ∀ d ∈ ' ' :: '\t' :: '\x27' :: '"' :: specials, c ≠ d := by
    rintro d hd rfl
    rw [hspecial c hd] at h
    cases h
  refine ⟨?_, hne _ (by simp), hne _ (by simp), fun hc => hne c (by simp [hc]) rfl⟩
  simp [isBlank, hne ' ' (by simp), hne '\t' (by simp)]

theorem words_safe {text : List Char} (hsafe : ∀ c ∈ text, isSafe c = true) (word rest : List Char) :
    words .none (some word) (text ++ rest) = words .none (some (word ++ text)) rest := by
  induction text generalizing word with
  | nil => rw [List.append_nil, List.nil_append]
  | cons c text ih =>
      rw [List.forall_mem_cons] at hsafe
      obtain ⟨hblank, hsingle, hdouble, hspecial⟩ := not_special hsafe.1
      rw [List.cons_append, words, if_neg (by simp [hblank]), if_neg hsingle, if_neg hdouble, if_neg hspecial,
        Option.getD_some, ih hsafe.2, List.append_assoc, List.singleton_append]

theorem words_escape (c : Char) (word rest : List Char) :
    words .single (some word) (escape c ++ rest) = words .single (some (word ++ [c])) rest := by
  unfold escape
  split
  · rename_i hquote
    rw [hquote]
    rfl
  · rename_i hquote
    rw [List.singleton_append, words, if_neg hquote, Option.getD_some]

theorem words_quoted (text word rest : List Char) :
    words .single (some word) (text.flatMap escape ++ '\x27' :: rest) = words .none (some (word ++ text)) rest := by
  induction text generalizing word with
  | nil => rw [List.flatMap_nil, List.nil_append, words, if_pos rfl, List.append_nil]
  | cons c text ih =>
      rw [List.flatMap_cons, List.append_assoc, words_escape, ih, List.append_assoc, List.singleton_append]

/-- **A quoted word is read as it was.** -/
theorem words_quote (word rest : List Char) : words .none .none (quote word ++ rest) = words .none (some word) rest := by
  unfold quote
  split
  · rename_i hempty
    rw [hempty]
    rfl
  · rename_i hne
    split
    · rename_i hsafe
      rw [List.all_eq_true] at hsafe
      cases word with
      | nil => exact absurd rfl hne
      | cons c text =>
          rw [List.forall_mem_cons] at hsafe
          obtain ⟨hblank, hsingle, hdouble, hspecial⟩ := not_special hsafe.1
          rw [List.cons_append, words, if_neg (by simp [hblank]), if_neg hsingle, if_neg hdouble, if_neg hspecial,
            words_safe hsafe.2]
          rfl
    · have hquoted := words_quoted word [] rest
      rw [List.nil_append] at hquoted
      rw [List.cons_append, List.append_assoc, List.singleton_append, words, if_neg (by decide), if_pos rfl]
      exact hquoted

/-- **A command line is read as the command**, whatever its words are. -/
theorem words_join (command : List (List Char)) : words .none .none (join command) = some command := by
  induction command with
  | nil => rfl
  | cons word rest ih =>
      cases rest with
      | nil =>
          have hword := words_quote word []
          rw [List.append_nil] at hword
          exact hword
      | cons next rest =>
          have hblank : isBlank ' ' = true := rfl
          rw [join, words_quote, words, if_pos hblank, ih]
          rfl

end Shell
