import GpuInference.RegexScan
import GpuInference.SentryScrub

/-!
The scan of a text for bearer tokens. A match that ends before the end of a text is not changed by what follows the
text; a match that is still open there goes on as far as the characters of a token do.
-/

open Regex

namespace GpuInference

/-- `Bearer`, some spaces, and nothing but characters of a token up to the end of the text. -/
def opensBearer (text : List Char) : Bool :=
  let rest := text.drop 6
  begins sameIgnoringCase "Bearer".toList text && rest.head?.any isPySpace &&
    (rest.dropWhile isPySpace).all isTokenChar

/-- The scan from the left, past every match, comes to a match that is still open at the end of the text. -/
def bearerOpen : Option Char → Nat → List Char → Bool
  | _, _, [] => false
  | _, skip + 1, c :: text => bearerOpen (some c) skip text
  | before, 0, c :: text =>
      opensBearer (c :: text) ||
        bearerOpen (some c) (skipped text (bearerPattern.find before (c :: text))) text

theorem isTokenChar_of_isKeyChar {c : Char} (h : isKeyChar c = true) : isTokenChar c = true := by
  simp only [isKeyChar, Bool.or_eq_true, beq_iff_eq] at h
  rcases h with (h | rfl) | rfl
  · simp [isTokenChar, h]
  · decide
  · decide

theorem alphanum_bounds {c : Char} (h : c.isAlphanum = true) : 48 ≤ c.toNat ∧ c.toNat ≤ 122 := by
  change (decide (65 ≤ c.toNat ∧ c.toNat ≤ 90) || (decide (97 ≤ c.toNat) && decide (c.toNat ≤ 122)) ||
    (decide (48 ≤ c.toNat) && decide (c.toNat ≤ 57))) = true at h
  simp only [Bool.or_eq_true, Bool.and_eq_true, decide_eq_true_eq] at h
  omega

theorem not_isPySpace_of_alphanum {c : Char} (h : c.isAlphanum = true) : isPySpace c = false := by
  have hbounds := alphanum_bounds h
  simp only [isPySpace, Bool.or_eq_false_iff, Bool.and_eq_false_iff, beq_eq_false_iff_ne, decide_eq_false_iff_not]
  omega

theorem not_isPySpace_of_isTokenChar {c : Char} (h : isTokenChar c = true) : isPySpace c = false := by
  rw [isTokenChar, Bool.or_eq_true, Bool.or_eq_true] at h
  rcases h with (h | h) | h
  · exact not_isPySpace_of_alphanum h
  · simp only [String.toList, List.contains_iff_mem] at h
    have hall : ∀ d ∈ "._~+/=-".toList, isPySpace d = false := List.all_iff_forall_prop.mp (by decide)
    exact hall c h
  · have hcodes : c.toNat = 0x130 ∨ c.toNat = 0x131 ∨ c.toNat = 0x17F ∨ c.toNat = 0x212A := by simpa using h
    rcases hcodes with h | h | h | h <;> simp [isPySpace, h]

/-- No character of a token or of a key, and no letter, is a space. -/
theorem not_isTokenChar_of_isPySpace {c : Char} (h : isPySpace c = true) : isTokenChar c = false := by
  by_contra htoken
  rw [Bool.not_eq_false] at htoken
  exact Bool.false_ne_true ((not_isPySpace_of_isTokenChar htoken).symm.trans h)

theorem not_isKeyChar_of_isPySpace {c : Char} (h : isPySpace c = true) : isKeyChar c = false := by
  by_contra hkey
  rw [Bool.not_eq_false] at hkey
  exact Bool.false_ne_true ((not_isTokenChar_of_isPySpace h).symm.trans (isTokenChar_of_isKeyChar hkey))

theorem not_alphanum_of_isPySpace {c : Char} (h : isPySpace c = true) : c.isAlphanum = false := by
  by_contra hletter
  rw [Bool.not_eq_false] at hletter
  exact Bool.false_ne_true ((not_isPySpace_of_alphanum hletter).symm.trans h)

theorem isTokenChar_head {text : List Char} (h : ∀ c ∈ text, isTokenChar c = true) :
    ∀ c ∈ text.head?, isPySpace c = false :=
  fun c hc => not_isPySpace_of_isTokenChar (h c (List.mem_of_head? hc))

/-- In any case, the letters of `Bearer` are letters. -/
theorem alphanum_of_bearer {c d : Char} (hc : c ∈ "Bearer".toList) (h : sameIgnoringCase c d = true) :
    d.isAlphanum = true := by
  have hletter : ∀ c ∈ "Bearer".toList, c.toLower.isAlphanum = true := List.all_iff_forall_prop.mp (by decide)
  rw [sameIgnoringCase, beq_iff_eq] at h
  cases hupper : d.isUpper with
  | true =>
      have hd : (d.isUpper || d.isLower || d.isDigit) = true := by rw [hupper, Bool.true_or, Bool.true_or]
      exact hd
  | false =>
      have hd : d.toLower = d := dif_neg (of_decide_eq_false hupper)
      rw [← hd, ← h]
      exact hletter c hc

theorem forall_alphanum_of_bearer {word : List Char}
    (h : List.Forall₂ (fun c d => sameIgnoringCase c d = true) "Bearer".toList word) :
    ∀ d ∈ word, d.isAlphanum = true := by
  intro d hd
  obtain ⟨c, hc, hsame⟩ := exists_of_mem_right h hd
  exact alphanum_of_bearer hc hsame

theorem bearerPattern_proper : bearerPattern.Proper := by
  rintro ⟨_, _, h, ⟨c, rfl, _⟩, _⟩
  simp at h

theorem bearerPattern_avoids_colon : bearerPattern.Avoids ':' :=
  ⟨rfl, rfl, rfl, rfl, rfl, rfl, rfl, rfl⟩

theorem bearerPattern_avoids_at : bearerPattern.Avoids '@' :=
  ⟨rfl, rfl, rfl, rfl, rfl, rfl, rfl, rfl⟩

theorem bearerPattern_avoids_open : bearerPattern.Avoids '[' :=
  ⟨rfl, rfl, rfl, rfl, rfl, rfl, rfl, rfl⟩

theorem bearerPattern_avoids_close : bearerPattern.Avoids ']' :=
  ⟨rfl, rfl, rfl, rfl, rfl, rfl, rfl, rfl⟩

/-- `Bearer`, spaces, and characters of a token. -/
structure BearerText (word spaces token : List Char) : Prop where
  same : List.Forall₂ (fun c d => sameIgnoringCase c d = true) "Bearer".toList word
  spaceChars : ∀ c ∈ spaces, isPySpace c = true
  spaces_ne : spaces ≠ []
  tokenChars : ∀ c ∈ token, isTokenChar c = true

/-- The same with another token. -/
theorem BearerText.retoken {word spaces token token' : List Char} (h : BearerText word spaces token)
    (htoken : ∀ c ∈ token', isTokenChar c = true) : BearerText word spaces token' :=
  ⟨h.same, h.spaceChars, h.spaces_ne, htoken⟩

theorem bearerPattern_free : bearerPattern.Free := by
  have hbehind : (seq (many 1 isPySpace) (many 1 isTokenChar)).Free := ⟨trivial, trivial⟩
  exact hbehind.literal "Bearer".toList

theorem reads_bearer_iff {text : List Char} : bearerPattern.Reads text ↔
    ∃ word spaces token, BearerText word spaces token ∧ token ≠ [] ∧ text = word ++ (spaces ++ token) := by
  constructor
  · intro hreads
    obtain ⟨word, _, rfl, hword, spaces, token, rfl, hspaces, htoken⟩ := reads_literal hreads
    have hbearer : BearerText word spaces token := ⟨hword, hspaces.2, List.length_pos_iff.mp hspaces.1, htoken.2⟩
    exact ⟨word, spaces, token, hbearer, List.length_pos_iff.mp htoken.1, rfl⟩
  · rintro ⟨word, spaces, token, h, hne, rfl⟩
    have hspaces := List.length_pos_iff.mpr h.spaces_ne
    exact literal_reads h.same ⟨spaces, token, rfl, ⟨hspaces, h.spaceChars⟩, List.length_pos_iff.mpr hne, h.tokenChars⟩

theorem isTokenChar_head_dropWhile (text : List Char) :
    ∀ c ∈ (text.dropWhile isTokenChar).head?, isTokenChar c = false := by
  intro c hc
  have hhead := List.head?_dropWhile_not isTokenChar text
  rw [Option.mem_def.mp hc] at hhead
  simpa using hhead

/-- A match goes on to the end of the token. -/
theorem find_bearer {word spaces token rest : List Char} (h : BearerText word spaces token) (htoken : token ≠ [])
    (hrest : ∀ c ∈ rest.head?, isTokenChar c = false) (before : Option Char) :
    bearerPattern.find before (word ++ (spaces ++ (token ++ rest))) =
      some ⟨after before (word ++ (spaces ++ token)), rest, []⟩ := by
  have hhead : ∀ c ∈ (token ++ rest).head?, isPySpace c = false := by
    rw [List.head?_append_of_ne_nil _ htoken]
    exact isTokenChar_head h.tokenChars
  have hend := first_seq (first_many (List.length_pos_iff.mpr h.spaces_ne) h.spaceChars hhead (after before word) [])
    (first_many (List.length_pos_iff.mpr htoken) h.tokenChars hrest (after (after before word) spaces) [])
  rw [find, bearerPattern, ends_literal h.same, ← first, hend]
  simp

theorem find_bearer_shape {before : Option Char} {text : List Char} {last : Regex.Place Char}
    (h : bearerPattern.find before text = some last) :
    ∃ word spaces token, BearerText word spaces token ∧ token ≠ [] ∧
      text = word ++ (spaces ++ (token ++ last.rest)) ∧ (∀ c ∈ last.rest.head?, isTokenChar c = false) ∧
      last = ⟨after before (word ++ (spaces ++ token)), last.rest, []⟩ := by
  obtain ⟨found, htext, hreads, hbefore⟩ := reads_of_find h
  obtain ⟨word, spaces, token, hbearer, htoken', rfl⟩ := reads_bearer_iff.mp hreads
  have hmore : ∀ c ∈ token ++ last.rest.takeWhile isTokenChar, isTokenChar c = true :=
    List.forall_mem_append.mpr ⟨hbearer.tokenChars, fun c hc => List.mem_takeWhile_imp hc⟩
  have hgreedy := find_bearer (hbearer.retoken hmore) (List.append_ne_nil_of_left_ne_nil htoken' _)
    (isTokenChar_head_dropWhile last.rest) before
  have hsame : word ++ (spaces ++ (token ++ last.rest.takeWhile isTokenChar ++ last.rest.dropWhile isTokenChar)) =
      text := by
    rw [List.append_assoc, List.takeWhile_append_dropWhile, htext]
    simp
  rw [hsame, h] at hgreedy
  have hlast := Option.some.inj hgreedy
  have hdrop : last.rest = last.rest.dropWhile isTokenChar := congrArg Regex.Place.rest hlast
  refine ⟨word, spaces, token, hbearer, htoken', by simpa using htext, ?_, ?_⟩
  · rw [hdrop]
    exact isTokenChar_head_dropWhile last.rest
  · have hgroups : last.groups = [] := congrArg Regex.Place.groups hlast
    exact Regex.Place.ext hbefore rfl hgroups

/-- A match begins with a B. -/
theorem find_bearer_cons {c : Char} (h : sameIgnoringCase 'B' c = false) (before : Option Char) (text : List Char) :
    bearerPattern.find before (c :: text) = none := by
  rw [Option.eq_none_iff_forall_ne_some]
  intro last hfind
  obtain ⟨word, _, _, ⟨hword, -, -, -⟩, -, htext, -⟩ := find_bearer_shape hfind
  obtain _ | ⟨hsame, -⟩ := hword
  obtain ⟨rfl, -⟩ := List.cons.inj htext
  exact Bool.false_ne_true (h.symm.trans hsame)

theorem not_bearer_of_not_alphanum {c : Char} (h : c.isAlphanum = false) : sameIgnoringCase 'B' c = false := by
  by_contra hsame
  rw [Bool.not_eq_false] at hsame
  exact Bool.false_ne_true (h.symm.trans (alphanum_of_bearer List.mem_cons_self hsame))

/-- The shape of a text in which the pattern is open. -/
theorem opensBearer_iff {text : List Char} :
    opensBearer text = true ↔ ∃ word spaces token, BearerText word spaces token ∧ text = word ++ (spaces ++ token) := by
  rw [opensBearer, Bool.and_eq_true, Bool.and_eq_true, begins_iff, List.all_eq_true]
  constructor
  · rintro ⟨⟨⟨word, rest, rfl, hword⟩, hspace⟩, htoken⟩
    have hlength : word.length = 6 := hword.length_eq.symm
    rw [List.drop_left' hlength] at hspace htoken
    have hne : rest.takeWhile isPySpace ≠ [] := by
      cases rest with
      | nil => simp at hspace
      | cons c rest =>
          have hc : isPySpace c = true := by simpa using hspace
          simp [hc]
    refine ⟨word, rest.takeWhile isPySpace, rest.dropWhile isPySpace, ⟨hword, ?_, hne, htoken⟩, ?_⟩
    · exact fun c hc => List.mem_takeWhile_imp hc
    · rw [List.takeWhile_append_dropWhile]
  · rintro ⟨word, spaces, token, h, rfl⟩
    have hlength : word.length = 6 := h.same.length_eq.symm
    rw [List.drop_left' hlength]
    refine ⟨⟨⟨word, _, rfl, h.same⟩, ?_⟩, ?_⟩
    · obtain ⟨c, rest, hspaces⟩ := List.exists_cons_of_ne_nil h.spaces_ne
      have hc := h.spaceChars c (by rw [hspaces]; exact List.mem_cons_self)
      simpa [hspaces] using hc
    · have hdrop : (spaces ++ token).dropWhile isPySpace = token := by
        rw [List.dropWhile_append_of_pos h.spaceChars]
        cases token with
        | nil => rfl
        | cons c token =>
            have hc := not_isPySpace_of_isTokenChar (h.tokenChars c List.mem_cons_self)
            simp [hc]
      rw [hdrop]
      exact h.tokenChars

/-- Where the pattern is not open, something that is no part of a token is behind `Bearer`, spaces and a token. -/
theorem ne_nil_of_not_opens {text rest word spaces token : List Char} (hopen : opensBearer text = false)
    (h : BearerText word spaces token) (htext : text = word ++ (spaces ++ (token ++ rest))) : rest ≠ [] := by
  rintro rfl
  rw [List.append_nil] at htext
  exact Bool.false_ne_true (hopen.symm.trans (opensBearer_iff.mpr ⟨word, spaces, token, h, htext⟩))

theorem find_bearer_append_of_some {text : List Char} (hopen : opensBearer text = false) {before : Option Char}
    {last : Regex.Place Char} (hfind : bearerPattern.find before text = some last) (more : List Char) :
    bearerPattern.find before (text ++ more) = some (last.append more) := by
  obtain ⟨word, spaces, token, h, htoken, htext, hrest, hlast⟩ := find_bearer_shape hfind
  have hrest' : ∀ c ∈ (last.rest ++ more).head?, isTokenChar c = false := by
    rwa [List.head?_append_of_ne_nil _ (ne_nil_of_not_opens hopen h htext)]
  have hsame : text ++ more = word ++ (spaces ++ (token ++ (last.rest ++ more))) := by
    rw [htext]
    simp
  rw [hsame, find_bearer h htoken hrest', hlast]
  rfl

theorem find_bearer_of_append {text more : List Char} (hopen : opensBearer text = false)
    (hmore : ∀ c ∈ more.head?, isPySpace c = false)
    (hbegins : begins sameIgnoringCase "Bearer".toList (text ++ more) = true →
      begins sameIgnoringCase "Bearer".toList text = true) {before : Option Char} {last : Regex.Place Char}
    (hfind : bearerPattern.find before (text ++ more) = some last) : bearerPattern.find before text ≠ none := by
  obtain ⟨word, spaces, token, h, htoken, htext, hrest, -⟩ := find_bearer_shape hfind
  obtain ⟨word', behind, rfl, hword⟩ := begins_iff.mp (hbegins (begins_iff.mpr ⟨word, _, htext, h.same⟩))
  have hlength : word'.length = word.length := hword.length_eq.symm.trans h.same.length_eq
  rw [List.append_assoc] at htext
  obtain ⟨rfl, hbehind⟩ := List.append_inj htext hlength
  rcases List.append_eq_append_iff.mp hbehind with ⟨others, rfl, hothers⟩ | ⟨token', rfl, hsplit⟩
  · -- the spaces would go on into what is behind the text
    cases others with
    | nil =>
        rw [List.append_nil] at h
        exact absurd rfl (ne_nil_of_not_opens hopen (h.retoken (List.forall_mem_nil _)) (by simp))
    | cons c others =>
        have hspace := h.spaceChars c (by simp)
        have hc := hmore c (by simp [hothers])
        exact absurd (hc.symm.trans hspace) Bool.false_ne_true
  · rcases List.append_eq_append_iff.mp hsplit.symm with ⟨token'', rfl, -⟩ | ⟨rest', rfl, hrest'⟩
    · have hstart := h.retoken fun c hc => h.tokenChars c (List.mem_append_left token'' hc)
      exact absurd rfl (ne_nil_of_not_opens hopen hstart (by simp))
    · have hne := ne_nil_of_not_opens hopen h rfl
      rw [hrest', List.head?_append_of_ne_nil _ hne] at hrest
      rw [find_bearer h htoken hrest]
      exact Option.some_ne_none _

/-- **More text makes no difference to a match that is not open**, if it does not complete the word. -/
theorem find_bearer_append {text more : List Char} (hopen : opensBearer text = false)
    (hmore : ∀ c ∈ more.head?, isPySpace c = false)
    (hbegins : begins sameIgnoringCase "Bearer".toList (text ++ more) = true →
      begins sameIgnoringCase "Bearer".toList text = true) (before : Option Char) :
    bearerPattern.find before (text ++ more) = (bearerPattern.find before text).map fun last => last.append more := by
  cases hfind : bearerPattern.find before text with
  | none =>
      rw [Option.map_none, Option.eq_none_iff_forall_ne_some]
      exact fun last hlast => find_bearer_of_append hopen hmore hbegins hlast hfind
  | some last => exact find_bearer_append_of_some hopen hfind more

/-- `Bearer` is nowhere partly in a text and partly in the text behind it. -/
def BearerApart (text more : List Char) : Prop :=
  ∀ tail, tail <:+ text → tail ≠ [] → begins sameIgnoringCase "Bearer".toList (tail ++ more) = true →
    begins sameIgnoringCase "Bearer".toList tail = true

theorem BearerApart.behind {c : Char} {text more : List Char} (h : BearerApart (c :: text) more) : BearerApart text more :=
  fun tail htail => h tail (htail.trans (List.suffix_cons c text))

theorem bearerOpen_length {before : Option Char} {skip : Nat} {text : List Char}
    (h : bearerOpen before skip text = true) : 6 ≤ text.length := by
  induction text generalizing before skip with
  | nil => simp [bearerOpen] at h
  | cons c text ih =>
      rw [List.length_cons]
      cases skip with
      | succ skip => exact Nat.le_succ_of_le (ih h)
      | zero =>
          rw [bearerOpen, Bool.or_eq_true] at h
          rcases h with h | h
          · obtain ⟨word, _, _, hbearer, htext⟩ := opensBearer_iff.mp h
            have hlength : 6 = word.length := hbearer.same.length_eq
            have htext' := congrArg List.length htext
            simp only [List.length_cons, List.length_append] at htext'
            omega
          · exact Nat.le_succ_of_le (ih h)

theorem bearerOpen_of_opens {text : List Char} (h : opensBearer text = true) (before : Option Char) :
    bearerOpen before 0 text = true := by
  cases text with
  | nil => cases h
  | cons c text => rw [bearerOpen, h, Bool.true_or]

section Scan

variable {template : List (List Char) → List Char} {more : List Char}

/-- **Where the scan of a text is not open, more text is scanned by itself.** -/
theorem sub_bearer_append (hmore : ∀ c ∈ more.head?, isPySpace c = false) {text : List Char}
    (hapart : BearerApart text more) {before : Option Char} {skip : Nat} (hskip : skip ≤ text.length)
    (hopen : bearerOpen before skip text = false) :
    bearerPattern.sub template before skip (text ++ more) =
      bearerPattern.sub template before skip text ++ bearerPattern.sub template (after before text) 0 more := by
  induction text generalizing before skip with
  | nil =>
      obtain rfl : skip = 0 := Nat.le_zero.mp hskip
      rfl
  | cons c text ih =>
      cases skip with
      | succ skip => exact ih hapart.behind (Nat.le_of_succ_le_succ hskip) hopen
      | zero =>
          rw [bearerOpen, Bool.or_eq_false_iff] at hopen
          have hfind := find_bearer_append hopen.1 hmore
            (hapart _ (List.suffix_refl _) (List.cons_ne_nil c text)) before
          rw [sub_cons_append hfind, sub_cons, ih hapart.behind (skipped_le _ _) hopen.2, List.append_assoc]
          rfl

/-- What comes next is no part of a token: the character before it makes no difference. -/
theorem sub_bearer_before {text : List Char} (h : ∀ c ∈ text.head?, isTokenChar c = false)
    (before before' : Option Char) :
    bearerPattern.sub template before 0 text = bearerPattern.sub template before' 0 text := by
  cases text with
  | nil => rfl
  | cons c text =>
      have hletter : c.isAlphanum = false := by
        have hc := h c rfl
        rw [isTokenChar, Bool.or_eq_false_iff, Bool.or_eq_false_iff] at hc
        exact hc.1.1
      have hnone := find_bearer_cons (not_bearer_of_not_alphanum hletter)
      rw [sub_keep (hnone before text), sub_keep (hnone before' text)]

/-- **Where the scan of a text is open, it swallows the token characters that follow.** -/
theorem sub_bearer_open {text : List Char} {before : Option Char} {skip : Nat}
    (hopen : bearerOpen before skip text = true) :
    ∃ out, ∀ token more, token ≠ [] → (∀ c ∈ token, isTokenChar c = true) →
      (∀ c ∈ more.head?, isTokenChar c = false) →
      bearerPattern.sub template before skip (text ++ (token ++ more)) =
        out ++ bearerPattern.sub template none 0 more := by
  induction text generalizing before skip with
  | nil => simp [bearerOpen] at hopen
  | cons c text ih =>
      cases skip with
      | succ skip => exact ih hopen
      | zero =>
          by_cases hopens : opensBearer (c :: text) = true
          · obtain ⟨word, spaces, token', h, htext⟩ := opensBearer_iff.mp hopens
            refine ⟨template [], ?_⟩
            intro token more hne htoken hmore
            have hall := h.retoken (List.forall_mem_append.mpr ⟨h.tokenChars, htoken⟩)
            have hfind := find_bearer hall (List.append_ne_nil_of_right_ne_nil _ hne) hmore before
            have hfound : word ++ (spaces ++ (token' ++ token)) ≠ [] :=
              List.append_ne_nil_of_right_ne_nil _ (List.append_ne_nil_of_left_ne_nil h.spaces_ne _)
            have hsame : c :: text ++ (token ++ more) = word ++ (spaces ++ (token' ++ token)) ++ more := by
              rw [htext]
              simp
            have hsame' : word ++ (spaces ++ (token' ++ token ++ more)) =
                word ++ (spaces ++ (token' ++ token)) ++ more := by simp
            rw [hsame'] at hfind
            rw [hsame, sub_found hfound hfind]
            exact congrArg _ (sub_bearer_before hmore _ _)
          · rw [bearerOpen, Bool.or_eq_true, or_iff_right hopens] at hopen
            have hlength := bearerOpen_length hopen
            rw [Bool.not_eq_true] at hopens
            obtain ⟨out, hout⟩ := ih hopen
            refine ⟨written template c (bearerPattern.find before (c :: text)) ++ out, ?_⟩
            intro token more hne htoken hmore
            have hhead : ∀ c ∈ (token ++ more).head?, isPySpace c = false := by
              rw [List.head?_append_of_ne_nil _ hne]
              exact isTokenChar_head htoken
            have hword : "Bearer".toList.length ≤ (c :: text).length := Nat.le_succ_of_le hlength
            have hfind := find_bearer_append hopens hhead
              (fun hbegins => by rwa [begins_append _ hword] at hbegins) before
            rw [sub_cons_append hfind, hout token more hne htoken hmore, List.append_assoc]

/-- There is a space in every match. -/
theorem find_bearer_solid {text : List Char} (h : ∀ c ∈ text, isPySpace c = false) (before : Option Char) :
    bearerPattern.find before text = none := by
  rw [Option.eq_none_iff_forall_ne_some]
  intro last hfind
  obtain ⟨word, spaces, token, ⟨-, hspaces, hspaces', -⟩, -, htext, -⟩ := find_bearer_shape hfind
  obtain ⟨c, spaces, rfl⟩ := List.exists_cons_of_ne_nil hspaces'
  have hc := h c (by simp [htext])
  exact Bool.false_ne_true (hc.symm.trans (hspaces c List.mem_cons_self))

/-- Text without a space is kept. -/
theorem sub_bearer_solid {text : List Char} (h : ∀ c ∈ text, isPySpace c = false) (before : Option Char) :
    bearerPattern.sub template before 0 text = text := by
  have hsilent : bearerPattern.Silent before text [] := by
    rintro left right rfl -
    rw [List.append_nil]
    exact find_bearer_solid (fun c hc => h c (List.mem_append_right left hc)) _
  exact hsilent.sub_eq template

/-- A match that is not open ends before the token characters at the end of the text. -/
theorem last_before_run {text run : List Char} {before : Option Char} {last : Regex.Place Char}
    (hopen : opensBearer (text ++ run) = false) (hrun : ∀ d ∈ run, isTokenChar d = true)
    (hfind : bearerPattern.find before (text ++ run) = some last) : run.length < last.rest.length := by
  obtain ⟨word, spaces, token, h, -, htext, hrest, -⟩ := find_bearer_shape hfind
  by_contra hle
  have hsuffix : last.rest <:+ text ++ run := ⟨word ++ (spaces ++ token), by simp [htext]⟩
  obtain ⟨_, hin⟩ := List.suffix_of_suffix_length_le hsuffix (List.suffix_append text run) (Nat.le_of_not_lt hle)
  cases hlast : last.rest with
  | nil => exact ne_nil_of_not_opens hopen h htext hlast
  | cons d rest =>
      have hd := hrest d (by simp [hlast])
      have hd' := hrun d (by simp [← hin, hlast])
      exact Bool.false_ne_true (hd.symm.trans hd')

/-- Up to the end of the text, token characters that are behind another character are kept, where the scan is not
open. -/
theorem sub_bearer_tail {head run : List Char} {c : Char} (hc : c.isAlphanum = false)
    (hrun : ∀ d ∈ run, isTokenChar d = true) {before : Option Char} {skip : Nat}
    (hskip : skip ≤ head.length) (hopen : bearerOpen before skip (head ++ c :: run) = false) :
    ∃ out, bearerPattern.sub template before skip (head ++ c :: run) = out ++ c :: run := by
  induction head generalizing before skip with
  | nil =>
      obtain rfl : skip = 0 := Nat.le_zero.mp hskip
      have hnone := find_bearer_cons (not_bearer_of_not_alphanum hc) before run
      refine ⟨[], ?_⟩
      rw [List.nil_append, sub_keep hnone, sub_bearer_solid fun d hd => not_isPySpace_of_isTokenChar (hrun d hd)]
  | cons d head ih =>
      cases skip with
      | succ skip => exact ih (Nat.le_of_succ_le_succ hskip) hopen
      | zero =>
          rw [List.cons_append, bearerOpen, Bool.or_eq_false_iff] at hopen
          rw [List.cons_append, sub]
          cases hfind : bearerPattern.find before (d :: (head ++ c :: run)) with
          | none =>
              rw [hfind] at hopen
              obtain ⟨out, hout⟩ := ih (Nat.zero_le _) hopen.2
              exact ⟨d :: out, congrArg (d :: ·) hout⟩
          | some last =>
              rw [hfind] at hopen
              have htext : d :: (head ++ c :: run) = (d :: head ++ [c]) ++ run := by simp
              have hlength : run.length < last.rest.length := by
                rw [htext] at hopen hfind
                exact last_before_run hopen.1 hrun hfind
              have hskip' : (head ++ c :: run).length - last.rest.length ≤ head.length := by
                simp only [List.length_append, List.length_cons]
                omega
              obtain ⟨out, hout⟩ := ih hskip' hopen.2
              refine ⟨template last.groups ++ out, ?_⟩
              simp only [hout, List.append_assoc]

theorem last_of_bearer {word : List Char}
    (h : List.Forall₂ (fun c d => sameIgnoringCase c d = true) "Bearer".toList word) :
    ∃ front c, word = front ++ [c] ∧ sameIgnoringCase 'r' c = true := by
  obtain _ | ⟨-, _ | ⟨-, _ | ⟨-, _ | ⟨-, _ | ⟨-, _ | ⟨hsame, _ | _⟩⟩⟩⟩⟩⟩ := h
  exact ⟨[_, _, _, _, _], _, rfl, hsame⟩

/-- A text without a space is kept in front of a space, if the word does not end there. -/
theorem sub_bearer_keeps {text : List Char} (h : ∀ c ∈ text, isPySpace c = false)
    (hlast : ∀ c ∈ text.getLast?, sameIgnoringCase 'r' c = false) (hmore : ∀ c ∈ more.head?, isPySpace c = true)
    (before : Option Char) :
    bearerPattern.sub template before 0 (text ++ more) = text ++ bearerPattern.sub template none 0 more := by
  have hkeeps : bearerPattern.sub template before 0 (text ++ more) =
      text ++ bearerPattern.sub template (after before text) 0 more := by
    apply sub_keeps
    rintro left right rfl hne
    rw [Option.eq_none_iff_forall_ne_some]
    intro last hfind
    obtain ⟨word, spaces, token, ⟨hword, hspaces, hspaces', -⟩, -, htext, -⟩ := find_bearer_shape hfind
    have hletters := forall_alphanum_of_bearer hword
    have hright : right = word := by
      rcases List.append_eq_append_iff.mp htext with ⟨others, hothers, hmore'⟩ | ⟨others, hothers, hmore'⟩
      · cases others with
        | nil => simpa using hothers.symm
        | cons c others =>
            have hspace := hmore c (by simp [hmore'])
            have hletter := not_isPySpace_of_alphanum (hletters c (by simp [hothers]))
            exact absurd (hletter.symm.trans hspace) Bool.false_ne_true
      · cases others with
        | nil => simpa using hothers
        | cons c others =>
            obtain ⟨d, spaces, rfl⟩ := List.exists_cons_of_ne_nil hspaces'
            obtain ⟨rfl, -⟩ := List.cons.inj hmore'
            have hc := h d (by simp [hothers])
            exact absurd (hc.symm.trans (hspaces d List.mem_cons_self)) Bool.false_ne_true
    obtain ⟨front, c, rfl, hsame⟩ := last_of_bearer hword
    subst hright
    have hnot := hlast c (by simp)
    exact Bool.false_ne_true (hnot.symm.trans hsame)
  rw [hkeeps]
  apply congrArg
  apply sub_bearer_before
  exact fun c hc => not_isTokenChar_of_isPySpace (hmore c hc)

end Scan

/-- No `Bearer` goes past a character that is no letter. -/
theorem apart_of_last {text more : List Char} {c : Char} (hc : c.isAlphanum = false) : BearerApart (text ++ [c]) more := by
  intro tail htail hne hbegins
  by_cases hlength : "Bearer".toList.length ≤ tail.length
  · rwa [begins_append _ hlength] at hbegins
  · obtain ⟨word, rest, htext, hword⟩ := begins_iff.mp hbegins
    obtain ⟨others, rfl⟩ : tail <+: word := by
      have hfront : tail <+: word ++ rest := ⟨more, htext⟩
      exact List.prefix_of_prefix_length_le hfront (List.prefix_append word rest)
        (by rw [← hword.length_eq]; exact Nat.le_of_not_le hlength)
    have hmem : c ∈ tail := by
      have hlast := htail.getLast hne
      rw [List.getLast_append_singleton] at hlast
      exact hlast ▸ List.getLast_mem hne
    have hletter := forall_alphanum_of_bearer hword c (List.mem_append_left _ hmem)
    exact absurd (hc.symm.trans hletter) Bool.false_ne_true

/-- No `Bearer` ends with the beginning of another one. -/
theorem apart_of_head {text more : List Char} {c : Char} (hhead : more.head? = some c) (hc : c.toLower = 'b') :
    BearerApart text more := by
  obtain ⟨more, rfl⟩ := List.head?_eq_some_iff.mp hhead
  intro tail htail hne hbegins
  by_cases hlength : "Bearer".toList.length ≤ tail.length
  · rwa [begins_append _ hlength] at hbegins
  · rcases tail with _ | ⟨c₁, _ | ⟨c₂, _ | ⟨c₃, _ | ⟨c₄, _ | ⟨c₅, _ | ⟨c₆, tail⟩⟩⟩⟩⟩⟩
    · exact absurd rfl hne
    · simp [begins, sameIgnoringCase, hc] at hbegins
    · simp [begins, sameIgnoringCase, hc] at hbegins
    · simp [begins, sameIgnoringCase, hc] at hbegins
    · simp [begins, sameIgnoringCase, hc] at hbegins
    · simp [begins, sameIgnoringCase, hc] at hbegins
    · simp at hlength

end GpuInference
