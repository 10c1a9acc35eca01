import GpuInference.AuthKeys
import GpuInference.BearerScan

/-!
The raw API keys in a text. A key is its prefix, an underscore and the token that `token_urlsafe` draws. The pattern
only knows keys that begin with `an_` or `sk-`, and it replaces all the characters of a key that come in one run.
-/

open Regex

namespace GpuInference

/-- The alphabet of `urlsafe_b64encode`. -/
def urlsafeAlphabet : List Char := "ABCDEFGHIJKLMNOPQRSTUVWXYZabcdefghijklmnopqrstuvwxyz0123456789-_".toList

def urlsafeChar (n : Nat) : Char := urlsafeAlphabet.getD n 'A'

/-- `urlsafe_b64encode(data).rstrip(b"=")`. -/
def urlsafeChars : List UInt8 → List Char
  | [] => []
  | [a] => [urlsafeChar (a.toNat / 4), urlsafeChar (a.toNat % 4 * 16)]
  | [a, b] =>
      [urlsafeChar (a.toNat / 4), urlsafeChar (a.toNat % 4 * 16 + b.toNat / 16), urlsafeChar (b.toNat % 16 * 4)]
  | a :: b :: c :: data =>
      urlsafeChar (a.toNat / 4) :: urlsafeChar (a.toNat % 4 * 16 + b.toNat / 16) ::
        urlsafeChar (b.toNat % 16 * 4 + c.toNat / 64) :: urlsafeChar (c.toNat % 64) :: urlsafeChars data

/-- `token_urlsafe(32)`, with the bytes that it draws. -/
def tokenUrlsafe (data : List UInt8) : String := String.ofList (urlsafeChars data)

theorem urlsafeChar_isKeyChar (n : Nat) : isKeyChar (urlsafeChar n) = true := by
  have hall : ∀ c ∈ urlsafeAlphabet, isKeyChar c = true := List.all_iff_forall_prop.mp (by decide)
  rw [urlsafeChar, List.getD_eq_getElem?_getD]
  cases hget : urlsafeAlphabet[n]? with
  | none => decide
  | some c => exact hall c (List.mem_of_getElem? hget)

theorem urlsafeChars_isKeyChar (data : List UInt8) : ∀ c ∈ urlsafeChars data, isKeyChar c = true := by
  fun_induction urlsafeChars data with
  | case1 => simp
  | case2 a => simp [urlsafeChar_isKeyChar]
  | case3 a b => simp [urlsafeChar_isKeyChar]
  | case4 a b c data ih => simpa [urlsafeChar_isKeyChar] using ih

theorem urlsafeChars_length (data : List UInt8) : data.length ≤ (urlsafeChars data).length := by
  fun_induction urlsafeChars data with
  | case1 => simp
  | case2 a => simp
  | case3 a b => simp
  | case4 a b c data ih =>
      simp only [List.length_cons]
      omega

/-- Where two bytes are left over, four bits are in the last character. -/
theorem urlsafeChars_last (data : List UInt8) (h : data.length % 3 = 2) :
    ∃ front n, n < 16 ∧ urlsafeChars data = front ++ [urlsafeChar (n * 4)] := by
  fun_induction urlsafeChars data with
  | case1 => simp at h
  | case2 a => simp at h
  | case3 a b => exact ⟨[_, _], b.toNat % 16, Nat.mod_lt _ (by decide), rfl⟩
  | case4 a b c data ih =>
      obtain ⟨front, n, hn, hdata⟩ := ih (by simp only [List.length_cons] at h; omega)
      exact ⟨_ :: _ :: _ :: _ :: front, n, hn, by rw [hdata]; rfl⟩

/-- The characters of a token: the last one is a letter or a digit, and not an r. -/
structure KeyToken (token : List Char) : Prop where
  length : 12 ≤ token.length
  keyChars : ∀ c ∈ token, isKeyChar c = true
  last : ∃ front c, token = front ++ [c] ∧ c.isAlphanum = true ∧ sameIgnoringCase 'r' c = false

/-- **What `token_urlsafe` draws is a token.** -/
theorem keyToken_tokenUrlsafe {data : List UInt8} (h : data.length = 32) : KeyToken (tokenUrlsafe data).toList := by
  rw [tokenUrlsafe, String.toList_ofList]
  have hlength := urlsafeChars_length data
  obtain ⟨front, n, hn, hdata⟩ := urlsafeChars_last data (by rw [h])
  have hlast : ∀ n < 16, (urlsafeChar (n * 4)).isAlphanum = true ∧
      sameIgnoringCase 'r' (urlsafeChar (n * 4)) = false := by decide
  exact ⟨by omega, urlsafeChars_isKeyChar data, front, _, hdata, hlast n hn⟩

section Keys

variable (isalnum : Char → Bool)

theorem isWordChar_of_alphanum {c : Char} (h : c.isAlphanum = true) : isWordChar isalnum c = true := by
  have hbounds := alphanum_bounds h
  rw [isWordChar, if_pos (by omega), h, Bool.true_or]

theorem not_isWordChar_of_isPySpace {c : Char} (h : isPySpace c = true) : isWordChar isalnum c = false := by
  rw [isWordChar]
  split
  · rename_i hascii
    have halphanum := not_alphanum_of_isPySpace h
    have hunderscore : c ≠ '_' := by
      rintro rfl
      exact Bool.false_ne_true h
    simp [halphanum, hunderscore]
  · simp [h]

theorem apiKeyPattern_proper : (apiKeyPattern isalnum).Proper := by
  rintro ⟨_, _, h, -, _, _, rfl, hreads, -⟩
  obtain ⟨-, hnil⟩ := List.append_eq_nil_iff.mp h.symm
  obtain ⟨rfl, -⟩ := List.append_eq_nil_iff.mp hnil
  rcases hreads with hreads | hreads
  · obtain ⟨word, _, hword, hforall, -⟩ := reads_literal hreads
    cases hforall
    cases hword
  · obtain ⟨word, _, hword, hforall, -⟩ := reads_literal hreads
    cases hforall
    cases hword

theorem apiKeyPattern_avoids {c : Char} (h : isKeyChar c = false) : (apiKeyPattern isalnum).Avoids c := by
  have hne : ∀ d, isKeyChar d = true → (d == c) = false := by
    intro d hd
    rw [beq_eq_false_iff_ne]
    rintro rfl
    exact Bool.false_ne_true (h.symm.trans hd)
  exact ⟨trivial, ⟨⟨hne 'a' rfl, hne 'n' rfl, hne '_' rfl, h⟩, hne 's' rfl, hne 'k' rfl, hne '-' rfl, h⟩, trivial⟩

/-- `an_` or `sk-`. -/
def beginsKey (text : List Char) : Bool :=
  begins (· == ·) "an_".toList text || begins (· == ·) "sk-".toList text

/-- A key begins here, and goes on to the end of the text. -/
def opensKey (before : Option Char) (text : List Char) : Bool :=
  !before.any (isWordChar isalnum) && beginsKey text && text.all isKeyChar

/-- A key begins in the text, and goes on to the end of the text. -/
def keyOpen : Option Char → List Char → Bool
  | _, [] => false
  | before, c :: text => opensKey isalnum before (c :: text) || keyOpen (some c) text

theorem beginsKey_append {text : List Char} (h : 3 ≤ text.length) (more : List Char) :
    beginsKey (text ++ more) = beginsKey text := by
  have han : "an_".toList.length ≤ text.length := h
  have hsk : "sk-".toList.length ≤ text.length := h
  rw [beginsKey, beginsKey, begins_append _ han, begins_append _ hsk]

theorem beginsKey_iff {text : List Char} :
    beginsKey text = true ↔ "an_".toList <+: text ∨ "sk-".toList <+: text := by
  rw [beginsKey, Bool.or_eq_true, begins_beq_iff, begins_beq_iff]

theorem beginsKey_head {text : List Char} (h : beginsKey text = true) :
    ∃ c ∈ text.head?, c.isAlphanum = true ∧ (c = 'a' ∨ c = 's') := by
  rcases beginsKey_iff.mp h with ⟨rest, rfl⟩ | ⟨rest, rfl⟩
  · exact ⟨'a', rfl, rfl, .inl rfl⟩
  · exact ⟨'s', rfl, rfl, .inr rfl⟩

theorem beginsKey_length {text : List Char} (h : beginsKey text = true) : 3 ≤ text.length := by
  rcases beginsKey_iff.mp h with h | h <;> exact h.length_le

/-- A match begins with a key, behind no character of a word. -/
theorem find_apiKey_shape {before : Option Char} {text : List Char} {last : Regex.Place Char}
    (h : (apiKeyPattern isalnum).find before text = some last) :
    before.any (isWordChar isalnum) = false ∧ beginsKey text = true := by
  obtain ⟨place, hplace, hlast⟩ := List.mem_flatMap.mp (List.mem_of_head? h)
  rw [ends] at hplace
  split at hplace
  · rename_i hboundary
    obtain rfl := List.mem_singleton.mp hplace
    obtain ⟨_, htext, ⟨_, _, rfl, hkey, -⟩, -⟩ := reads_of_ends hlast
    have hbegins : beginsKey text = true := by
      rw [List.append_assoc] at htext
      rw [beginsKey_iff]
      rcases hkey with hkey | hkey
      · obtain ⟨word, right, rfl, hword, -⟩ := reads_literal hkey
        obtain rfl := forall₂_beq_iff.mp hword
        exact .inl ⟨_, (htext.trans (List.append_assoc _ _ _)).symm⟩
      · obtain ⟨word, right, rfl, hword, -⟩ := reads_literal hkey
        obtain rfl := forall₂_beq_iff.mp hword
        exact .inr ⟨_, (htext.trans (List.append_assoc _ _ _)).symm⟩
    refine ⟨?_, hbegins⟩
    obtain ⟨c, hc, halphanum, -⟩ := beginsKey_head hbegins
    dsimp only at hboundary
    rw [Option.mem_def.mp hc] at hboundary
    simpa [isWordChar_of_alphanum isalnum halphanum] using hboundary
  · cases hplace

theorem find_apiKey_cons {c : Char} (h : c ≠ 'a' ∧ c ≠ 's') (before : Option Char) (text : List Char) :
    (apiKeyPattern isalnum).find before (c :: text) = none := by
  rw [Option.eq_none_iff_forall_ne_some]
  intro last hfind
  obtain ⟨d, hd, -, hcase⟩ := beginsKey_head (find_apiKey_shape isalnum hfind).2
  obtain rfl : c = d := Option.some.inj hd
  exact hcase.elim h.1 h.2

/-- No match begins in a text without an a and an s. -/
theorem silent_key_plain {text : List Char} (h : ∀ c ∈ text, c ≠ 'a' ∧ c ≠ 's') (before : Option Char)
    (behind : List Char) : (apiKeyPattern isalnum).Silent before text behind := by
  rintro left right rfl hright
  obtain ⟨c, right, rfl⟩ := List.exists_cons_of_ne_nil hright
  exact find_apiKey_cons isalnum (h c (by simp)) _ _

/-- The key pattern goes on to the end of the characters of a key. -/
theorem first_keyBody {text rest : List Char} (hbegins : beginsKey text = true)
    (hall : ∀ c ∈ text, isKeyChar c = true) (hlength : 15 ≤ text.length)
    (hrest : ∀ d ∈ rest.head?, isKeyChar d = false) (before : Option Char) :
    (alt (literal (· == ·) "an_".toList (.many 12 isKeyChar))
      (literal (· == ·) "sk-".toList (.many 12 isKeyChar))).first ⟨before, text ++ rest, []⟩ =
        some ⟨after before text, rest, []⟩ := by
  have hmany : ∀ {word right : List Char}, text = word ++ right → word.length = 3 → ∀ before,
      (many 12 isKeyChar).first ⟨after before word, right ++ rest, []⟩ = some ⟨after before text, rest, []⟩ := by
    rintro word right rfl hword before
    rw [List.length_append] at hlength
    rw [first_many (by omega) (fun c hc => hall c (List.mem_append_right _ hc)) hrest, after_append]
  rcases beginsKey_iff.mp hbegins with ⟨right, htext⟩ | ⟨right, htext⟩
  · apply first_alt_left
    have hfirst := hmany htext.symm rfl before
    rw [first] at hfirst ⊢
    rw [← htext] at hfirst ⊢
    rw [List.append_assoc, ends_literal (forall₂_beq_iff.mpr rfl), hfirst]
  · rw [first_alt_right]
    · have hfirst := hmany htext.symm rfl before
      rw [first] at hfirst ⊢
      rw [← htext] at hfirst ⊢
      rw [List.append_assoc, ends_literal (forall₂_beq_iff.mpr rfl), hfirst]
    · rw [← htext]
      rfl

/-- A match goes on to the end of the key, where a word ends there. -/
theorem find_apiKey {before : Option Char} {front rest : List Char} {c : Char}
    (hopens : opensKey isalnum before (front ++ [c]) = true) (hlength : 15 ≤ (front ++ [c]).length)
    (hc : c.isAlphanum = true) (hrest : ∀ d ∈ rest.head?, isPySpace d = true) :
    (apiKeyPattern isalnum).find before (front ++ [c] ++ rest) = some ⟨some c, rest, [front ++ [c]]⟩ := by
  rw [opensKey, Bool.and_eq_true, Bool.and_eq_true, List.all_eq_true, Bool.not_eq_true'] at hopens
  obtain ⟨⟨hbefore, hbegins⟩, hall⟩ := hopens
  have hkey : ∀ d ∈ rest.head?, isKeyChar d = false := fun d hd => not_isKeyChar_of_isPySpace (hrest d hd)
  have hstart : (boundary (isWordChar isalnum)).first ⟨before, front ++ [c] ++ rest, []⟩ =
      some ⟨before, front ++ [c] ++ rest, []⟩ := by
    apply first_boundary
    obtain ⟨d, hd, halphanum, -⟩ := beginsKey_head hbegins
    have hhead : (front ++ [c] ++ rest).head? = some d := by
      rw [List.head?_append, Option.mem_def.mp hd]
      rfl
    rw [hbefore, hhead, Option.any_some, isWordChar_of_alphanum isalnum halphanum]
    exact Bool.false_ne_true
  have hgroup := first_group (first_keyBody hbegins hall hlength hkey before)
  have hend : (boundary (isWordChar isalnum)).first ⟨some c, rest, [front ++ [c]]⟩ =
      some ⟨some c, rest, [front ++ [c]]⟩ := by
    apply first_boundary
    have hword : rest.head?.any (isWordChar isalnum) = false := by
      cases rest with
      | nil => rfl
      | cons d rest => exact not_isWordChar_of_isPySpace isalnum (hrest d rfl)
    rw [hword, Option.any_some, isWordChar_of_alphanum isalnum hc]
    exact Ne.symm Bool.false_ne_true
  rw [find_eq, apiKeyPattern]
  apply first_seq hstart
  rw [after_append] at hgroup
  exact first_seq hgroup hend

theorem keyOpen_append {before : Option Char} {left right : List Char} (hright : right ≠ [])
    (h : opensKey isalnum (after before left) right = true) : keyOpen isalnum before (left ++ right) = true := by
  induction left generalizing before with
  | nil =>
      obtain ⟨c, right, rfl⟩ := List.exists_cons_of_ne_nil hright
      rw [List.nil_append, keyOpen, Bool.or_eq_true]
      exact .inl h
  | cons c left ih =>
      rw [List.cons_append, keyOpen, Bool.or_eq_true]
      exact .inr (ih h)

theorem keyOpen_length {before : Option Char} {text : List Char} (h : keyOpen isalnum before text = true) :
    3 ≤ text.length := by
  induction text generalizing before with
  | nil => simp [keyOpen] at h
  | cons c text ih =>
      rw [keyOpen, Bool.or_eq_true] at h
      rcases h with h | h
      · rw [opensKey, Bool.and_eq_true, Bool.and_eq_true] at h
        exact beginsKey_length h.1.2
      · exact Nat.le_succ_of_le (ih h)

/-- In front of the last run of key characters nothing is open. -/
theorem keyOpen_behind {before : Option Char} {head run : List Char} {c : Char} (hc : isKeyChar c = false) :
    keyOpen isalnum before (head ++ c :: run) = keyOpen isalnum (some c) run := by
  have hopens : ∀ (before : Option Char) (text : List Char), c ∈ text → opensKey isalnum before text = false := by
    intro before text hmem
    rw [opensKey, Bool.and_eq_false_iff]
    right
    rw [List.all_eq_false]
    exact ⟨c, hmem, by simp [hc]⟩
  induction head generalizing before with
  | nil => rw [List.nil_append, keyOpen, hopens before _ List.mem_cons_self, Bool.false_or]
  | cons d head ih => rw [List.cons_append, keyOpen, hopens before _ (by simp), Bool.false_or, ih]

section Scan

variable {redacted more : List Char}

/-- A space comes next: the character before it makes no difference. -/
theorem sub_key_before (h : ∀ c ∈ more.head?, isPySpace c = true) (before before' : Option Char) :
    (apiKeyPattern isalnum).sub (fun _ => redacted) before 0 more =
      (apiKeyPattern isalnum).sub (fun _ => redacted) before' 0 more := by
  cases more with
  | nil => rfl
  | cons c more =>
      have hcase : c ≠ 'a' ∧ c ≠ 's' := by
        constructor
        · rintro rfl
          exact Bool.false_ne_true (h 'a' rfl)
        · rintro rfl
          exact Bool.false_ne_true (h 's' rfl)
      have hnone := find_apiKey_cons isalnum hcase
      rw [sub_keep (hnone before more), sub_keep (hnone before' more)]

/-- **Where a key is open, the token that follows is replaced with it.** -/
theorem sub_key_open {run : List Char} (hrun : ∀ c ∈ run, isKeyChar c = true) {before : Option Char}
    (hopen : keyOpen isalnum before run = true) :
    ∃ out, ∀ token more, KeyToken token → (∀ c ∈ more.head?, isPySpace c = true) →
      (apiKeyPattern isalnum).sub (fun _ => redacted) before 0 (run ++ (token ++ more)) =
        out ++ (apiKeyPattern isalnum).sub (fun _ => redacted) none 0 more := by
  induction run generalizing before with
  | nil => simp [keyOpen] at hopen
  | cons c run ih =>
      rw [List.forall_mem_cons] at hrun
      by_cases hopens : opensKey isalnum before (c :: run) = true
      · refine ⟨redacted, ?_⟩
        intro token more htoken hmore
        obtain ⟨front, d, rfl, hd, -⟩ := htoken.last
        have hopens' : opensKey isalnum before ((c :: run ++ front) ++ [d]) = true := by
          simp only [opensKey, Bool.and_eq_true, List.all_eq_true, List.append_assoc] at hopens ⊢
          obtain ⟨⟨hbefore, hbegins⟩, hall⟩ := hopens
          refine ⟨⟨hbefore, ?_⟩, ?_⟩
          · rwa [beginsKey_append (beginsKey_length hbegins)]
          · intro e he
            exact (List.mem_append.mp he).elim (hall e) (htoken.keyChars e)
        have hlength : 15 ≤ ((c :: run ++ front) ++ [d]).length := by
          rw [opensKey, Bool.and_eq_true, Bool.and_eq_true] at hopens
          have hkey := beginsKey_length hopens.1.2
          have htoken' := htoken.length
          rw [List.append_assoc, List.length_append]
          omega
        have hfind := find_apiKey isalnum hopens' hlength hd hmore
        have hsame : c :: run ++ (front ++ [d] ++ more) = (c :: run ++ front) ++ [d] ++ more := by simp
        rw [hsame, sub_found (by simp) hfind]
        exact congrArg _ (sub_key_before isalnum hmore _ _)
      · rw [keyOpen, Bool.or_eq_true, or_iff_right hopens] at hopen
        obtain ⟨out, hout⟩ := ih hrun.2 hopen
        refine ⟨c :: out, ?_⟩
        intro token more htoken hmore
        have hnone : (apiKeyPattern isalnum).find before (c :: (run ++ (token ++ more))) = none := by
          rw [Option.eq_none_iff_forall_ne_some]
          intro last hfind
          obtain ⟨hbefore, hbegins⟩ := find_apiKey_shape isalnum hfind
          have hlength : 3 ≤ (c :: run).length := Nat.le_succ_of_le (keyOpen_length isalnum hopen)
          rw [← List.cons_append, beginsKey_append hlength] at hbegins
          apply hopens
          simpa [opensKey, hbefore, hbegins] using hrun
        rw [List.cons_append, sub_keep hnone, hout token more htoken hmore]
        rfl

/-- Where no key is open, the characters up to an underscore are kept. -/
theorem sub_key_closed {front : List Char} (hrun : ∀ c ∈ front ++ ['_'], isKeyChar c = true) {before : Option Char}
    (hopen : keyOpen isalnum before (front ++ ['_']) = false) :
    (apiKeyPattern isalnum).sub (fun _ => redacted) before 0 (front ++ ['_'] ++ more) =
      front ++ ['_'] ++ (apiKeyPattern isalnum).sub (fun _ => redacted) (some '_') 0 more := by
  rw [sub_keeps, after_append]
  · rfl
  · intro left right hsplit hright
    rw [Option.eq_none_iff_forall_ne_some]
    intro last hfind
    obtain ⟨hbefore, hbegins⟩ := find_apiKey_shape isalnum hfind
    have hends : ['_'] <:+ right := by
      apply List.suffix_of_suffix_length_le (List.suffix_append front ['_'])
      · exact ⟨left, hsplit.symm⟩
      · exact List.length_pos_iff.mpr hright
    -- the underscore is at most the last character of `an_`
    have hbegins' : beginsKey right = true := by
      obtain ⟨middle, rfl⟩ := hends
      rcases middle with _ | ⟨c, _ | ⟨d, middle⟩⟩
      · simp [beginsKey, begins] at hbegins
      · simp [beginsKey, begins] at hbegins
      · rwa [beginsKey_append (by simp)] at hbegins
    have hopens : opensKey isalnum (after before left) right = true := by
      have hall : ∀ c ∈ right, isKeyChar c = true := fun c hc => hrun c (by simp [hsplit, hc])
      simpa [opensKey, hbefore, hbegins'] using hall
    rw [hsplit, keyOpen_append isalnum hright hopens] at hopen
    cases hopen

/-- A text without an a or an s is kept. -/
theorem sub_key_plain {text : List Char} (h : ∀ c ∈ text, c ≠ 'a' ∧ c ≠ 's') (before : Option Char) :
    (apiKeyPattern isalnum).sub (fun _ => redacted) before 0 (text ++ more) =
      text ++ (apiKeyPattern isalnum).sub (fun _ => redacted) (after before text) 0 more :=
  sub_keeps (silent_key_plain isalnum h before more)

end Scan

end Keys

end GpuInference
