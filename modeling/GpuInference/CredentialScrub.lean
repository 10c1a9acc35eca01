import GpuInference.KeyScan
import GpuInference.UrlScan

/-!
What a scrubbed text shows of a secret in it: of two secrets of a kind that are recognized nothing shows, and where the
secret is not recognized, two of them show.
-/

open Regex

namespace GpuInference

theorem isPasswordChar_of_isKeyChar {c : Char} (h : isKeyChar c = true) : isPasswordChar c = true := by
  refine isPasswordChar_iff.mpr ⟨?_, ?_, not_isPySpace_of_isTokenChar (isTokenChar_of_isKeyChar h)⟩
  · rintro rfl
    exact Bool.false_ne_true h
  · rintro rfl
    exact Bool.false_ne_true h

theorem bearer_spares : Spares bearerPattern ("Bearer " ++ redacted).toList where
  proper := bearerPattern_proper
  avoids_colon := bearerPattern_avoids_colon
  no_colon := by decide
  no_slash := by decide
  ne_nil := by decide
  passwordChars := fun h => absurd (h ' ' (by decide)) Bool.false_ne_true

theorem apiKey_spares (isalnum : Char → Bool) : Spares (apiKeyPattern isalnum) redacted.toList where
  proper := apiKeyPattern_proper isalnum
  avoids_colon := apiKeyPattern_avoids isalnum rfl
  no_colon := by decide
  no_slash := by decide
  ne_nil := by decide
  passwordChars := by
    intro _ text hreads c hc
    by_contra hpassword
    have hkey : isKeyChar c = false := by
      by_contra hkey
      rw [Bool.not_eq_false] at hkey
      exact hpassword (isPasswordChar_of_isKeyChar hkey)
    exact (apiKeyPattern_avoids isalnum hkey).not_mem hreads hc

theorem subBearer_split {c : Char} (h : bearerPattern.Avoids c) (before : Option Char) (text : List Char) :
    ∃ out, ∀ right, subBearer before (text ++ c :: right) = out ++ c :: subBearer (some c) right := by
  obtain ⟨out, hout, -⟩ := h.sub_split bearerPattern_proper text
  exact ⟨out, hout⟩

theorem subBearer_stops {c : Char} (h : bearerPattern.Avoids c) (before : Option Char) (left right : List Char) :
    subBearer before (left ++ c :: right) = subBearer before (left ++ [c]) ++ subBearer (some c) right :=
  sub_stops h.stops left right

theorem subUrlCredential_stops {c : Char} (h : urlCredentialPattern.Stops c) (before : Option Char)
    (left right : List Char) : subUrlCredential before (left ++ c :: right) =
      subUrlCredential before (left ++ [c]) ++ subUrlCredential (some c) right :=
  sub_stops h left right

theorem subUrlCredential_split {c : Char} (h : isPySpace c = true) (before : Option Char) (text : List Char) :
    ∃ out, ∀ right, subUrlCredential before (text ++ c :: right) = out ++ c :: subUrlCredential (some c) right := by
  obtain ⟨out, hout, -⟩ := (urlCredentialPattern_avoids h).sub_split urlCredentialPattern_proper text
  exact ⟨out, hout⟩

section Key

variable (isalnum : Char → Bool)

theorem subApiKey_head {c : Char} (h : isKeyChar c = false) (before : Option Char) (right : List Char) :
    subApiKey isalnum before (c :: right) = c :: subApiKey isalnum (some c) right :=
  (apiKeyPattern_avoids isalnum h).sub_head (apiKeyPattern_proper isalnum) right

theorem subApiKey_split {c : Char} (h : isKeyChar c = false) (before : Option Char) (text : List Char) :
    ∃ out, (∀ right, subApiKey isalnum before (text ++ c :: right) = out ++ c :: subApiKey isalnum (some c) right) ∧
      (∀ d ∈ out, d ∈ text ∨ d ∈ redacted.toList) ∧ (text ≠ [] → out ≠ []) := by
  obtain ⟨out, hout, hmem, hne⟩ := (apiKeyPattern_avoids isalnum h).sub_split (apiKeyPattern_proper isalnum) text
  refine ⟨out, hout, ?_, fun htext => hne htext fun _ => by decide⟩
  intro d hd
  exact (hmem d hd).imp_right fun ⟨_, hword⟩ => hword

end Key

/-- No bearer token is in a URL that is replaced. -/
theorem subBearer_url (text post : List Char) :
    ∃ out behind, ∀ user password, UrlCredential user password →
      subBearer none (text ++ (urlText user password ++ post)) = out ++ (urlText user password ++ behind) := by
  obtain ⟨out, hout⟩ := subBearer_split bearerPattern_avoids_colon none text
  refine ⟨out, subBearer (some '@') post, ?_⟩
  intro user password h
  have hsolid : ∀ c ∈ '/' :: '/' :: (user ++ ':' :: password) ++ ['@'], isPySpace c = false := by
    simp only [List.forall_mem_cons, List.forall_mem_append]
    refine ⟨⟨rfl, rfl, ?_, rfl, ?_⟩, rfl, List.forall_mem_nil _⟩
    · exact fun c hc => (isPasswordChar_iff.mp (isUserChar_iff.mp (h.userChars c hc)).2).2.2
    · exact fun c hc => (isPasswordChar_iff.mp (h.passwordChars c hc)).2.2
  have hbehind : subBearer (some ':') ('/' :: '/' :: (user ++ ':' :: password) ++ '@' :: post) =
      '/' :: '/' :: (user ++ ':' :: password) ++ ['@'] ++ subBearer (some '@') post := by
    rw [subBearer_stops bearerPattern_avoids_at]
    exact congrArg (· ++ subBearer (some '@') post) (sub_bearer_solid hsolid _)
  rw [urlText_eq, List.append_assoc]
  simp only [List.cons_append, List.nil_append, List.append_assoc] at hbehind ⊢
  rw [hout, hbehind]

/-- The characters of a URL stay the same ones where API keys are replaced. -/
theorem subApiKey_url (isalnum : Char → Bool) {user : List Char} (hne : user ≠ [])
    (huser : ∀ c ∈ user, isUserChar c = true) (text post : List Char) :
    ∃ out user' behind, ∀ password, UrlCredential user password → ∃ password', UrlCredential user' password' ∧
      subApiKey isalnum none (text ++ (urlText user password ++ post)) = out ++ (urlText user' password' ++ behind) := by
  obtain ⟨out, hout, -⟩ := subApiKey_split isalnum (rfl : isKeyChar ':' = false) none text
  obtain ⟨user', huser', hmem, hne'⟩ := subApiKey_split isalnum (rfl : isKeyChar ':' = false) (some '/') user
  refine ⟨out, user', subApiKey isalnum (some '@') post, ?_⟩
  intro password h
  obtain ⟨password', hpassword', hmem', hne''⟩ :=
    subApiKey_split isalnum (rfl : isKeyChar '@' = false) (some ':') password
  refine ⟨password', ⟨?_, hne' hne, ?_, hne'' h.password_ne⟩, ?_⟩
  · have hword : ∀ c ∈ redacted.toList, isUserChar c = true := List.all_iff_forall_prop.mp (by decide)
    exact fun c hc => (hmem c hc).elim (huser c) (hword c)
  · have hword : ∀ c ∈ redacted.toList, isPasswordChar c = true := List.all_iff_forall_prop.mp (by decide)
    exact fun c hc => (hmem' c hc).elim (h.passwordChars c) (hword c)
  · simp only [urlText, List.cons_append, List.nil_append, List.append_assoc]
    rw [hout, subApiKey_head isalnum rfl, subApiKey_head isalnum rfl, huser', hpassword']

/-- **The password of a URL with a user name does not show.** -/
theorem scrubChars_url (isalnum : Char → Bool) {user : List Char} (hne : user ≠ [])
    (huser : ∀ c ∈ user, isUserChar c = true) (text post : List Char) :
    ∃ out, ∀ password, UrlCredential user password →
      scrubChars isalnum (text ++ (urlText user password ++ post)) = out := by
  obtain ⟨front, behind, hbearer⟩ := subBearer_url text post
  obtain ⟨front', user', behind', hkey⟩ := subApiKey_url isalnum hne huser front behind
  refine ⟨subUrlCredential none front' ++ (("://".toList ++ user' ++ ":***@".toList) ++
    subUrlCredential (some '@') behind'), ?_⟩
  intro password h
  obtain ⟨password', h', hsub⟩ := hkey password h
  rw [scrubChars, hbearer user password h, hsub]
  exact sub_url_open h' front' behind' none

/-- A text that is read up to the first colon, as the name of a user. -/
theorem urlText_of_passwordChars {c : Char} (hc : c ≠ ':') {rest : List Char}
    (hall : ∀ d ∈ c :: rest, isPasswordChar d = true) :
    ∃ user, user ≠ [] ∧ (∀ d ∈ user, isUserChar d = true) ∧
      ∀ password, password ≠ [] → (∀ d ∈ password, isPasswordChar d = true) → ∃ password', UrlCredential user password' ∧
        ':' :: '/' :: '/' :: (c :: rest ++ ':' :: (password ++ ['@'])) = urlText user password' := by
  have huser : ∀ {name}, ':' ∉ name → (∀ d ∈ c :: name, isPasswordChar d = true) →
      ∀ d ∈ c :: name, isUserChar d = true := by
    intro name hname hpassword d hd
    refine isUserChar_iff.mpr ⟨?_, hpassword d hd⟩
    rintro rfl
    exact (List.mem_cons.mp hd).elim (fun h => hc h.symm) hname
  by_cases hmem : ':' ∈ rest
  · obtain ⟨name, behind, rfl, hname⟩ := List.eq_append_cons_of_mem hmem
    rw [← List.cons_append, List.forall_mem_append] at hall
    refine ⟨c :: name, List.cons_ne_nil c name, huser hname hall.1, ?_⟩
    intro password hne hpassword
    refine ⟨behind ++ ':' :: password, ⟨huser hname hall.1, List.cons_ne_nil c name, ?_, by simp⟩, by simp [urlText]⟩
    rw [List.forall_mem_append, List.forall_mem_cons]
    exact ⟨(List.forall_mem_cons.mp hall.2).2, rfl, hpassword⟩
  · refine ⟨c :: rest, List.cons_ne_nil c rest, huser hmem hall, ?_⟩
    intro password hne hpassword
    exact ⟨password, ⟨huser hmem hall, List.cons_ne_nil c rest, hpassword, hne⟩, rfl⟩

/-- **The password of an open URL does not show.** -/
theorem scrubChars_url_of_open (isalnum : Char → Bool) {text : List Char} (hopen : urlOpen text = true)
    (post : List Char) :
    ∃ out, ∀ password, password ≠ [] → (∀ c ∈ password, isPasswordChar c = true) →
      scrubChars isalnum (text ++ ':' :: (password ++ '@' :: post)) = out := by
  obtain ⟨head, c, rest, rfl, hc, hall⟩ := urlOpen_iff.mp hopen
  obtain ⟨user, hne, huser, hurl⟩ := urlText_of_passwordChars hc hall
  obtain ⟨out, hout⟩ := scrubChars_url isalnum hne huser head post
  refine ⟨out, ?_⟩
  intro password hpassword hpassword'
  obtain ⟨password', h, hsame⟩ := hurl password hpassword hpassword'
  rw [← hout password' h, ← hsame]
  simp

/-- A character that is in no match, where none is open before it. -/
structure Plain (c : Char) : Prop where
  bearer : sameIgnoringCase 'B' c = false
  key : c ≠ 'a' ∧ c ≠ 's'
  colon : c ≠ ':'
  at_ : c ≠ '@'

theorem subBearer_plain {c : Char} (h : Plain c) (before : Option Char) (text : List Char) :
    subBearer before (c :: text) = c :: subBearer (some c) text :=
  sub_keep (find_bearer_cons h.bearer before text)

theorem subApiKey_plain (isalnum : Char → Bool) {c : Char} (h : Plain c) (before : Option Char) (text : List Char) :
    subApiKey isalnum before (c :: text) = c :: subApiKey isalnum (some c) text :=
  sub_keep (find_apiKey_cons isalnum h.key before text)

theorem subUrlCredential_plain {c : Char} (h : Plain c) (before : Option Char) (text : List Char) :
    subUrlCredential before (c :: text) = c :: subUrlCredential (some c) text :=
  sub_keep (find_url_cons h.colon before text)

/-- **A password shows where no URL is open.** -/
theorem scrubChars_url_shows (isalnum : Char → Bool) {text : List Char} (hopen : urlOpen text = false)
    (post : List Char) :
    ∃ out, ∀ c, Plain c → ∃ rest, scrubChars isalnum (text ++ ':' :: c :: '@' :: post) = out ++ c :: rest := by
  obtain ⟨front, hfront⟩ := subBearer_split bearerPattern_avoids_colon none text
  obtain ⟨front', hfront', -⟩ := subApiKey_split isalnum (rfl : isKeyChar ':' = false) none front
  have hclosed : urlOpen front' = false := by
    by_contra hopen'
    rw [Bool.not_eq_false] at hopen'
    have hkey : subApiKey isalnum none (front ++ [':']) = front' ++ [':'] := hfront' []
    have hbearer : subBearer none (text ++ [':']) = front ++ [':'] := hfront []
    have hopenKey := urlOpen_append_colon hopen'
    rw [← hkey] at hopenKey
    have hopenBearer := urlOpen_append_colon (urlOpen_of_colon ((apiKey_spares isalnum).urlOpen_of_sub hopenKey))
    rw [← hbearer] at hopenBearer
    have hopenText := urlOpen_of_colon (bearer_spares.urlOpen_of_sub hopenBearer)
    exact Bool.false_ne_true (hopen.symm.trans hopenText)
  refine ⟨subUrlCredential none (front' ++ [':']), ?_⟩
  intro c h
  have hat : ∀ before right, subBearer before ('@' :: right) = '@' :: subBearer (some '@') right :=
    fun before right => sub_keep (find_bearer_cons rfl before right)
  rw [scrubChars, hfront, subBearer_plain h, hat, hfront', subApiKey_plain isalnum h, subApiKey_head isalnum rfl]
  have hsplit : ∀ behind, subUrlCredential none (front' ++ ':' :: c :: '@' :: behind) =
      subUrlCredential none (front' ++ [':'] ++ [c, '@']) ++ subUrlCredential (some '@') behind := by
    intro behind
    have hstops := subUrlCredential_stops urlCredentialPattern_stops none (front' ++ [':', c]) behind
    simpa using hstops
  have hkept : subUrlCredential none (front' ++ [':'] ++ [c, '@']) =
      subUrlCredential none (front' ++ [':']) ++ [c, '@'] := sub_url_closed hclosed h.colon h.at_ none
  rw [hsplit, hkept, List.append_assoc]
  exact ⟨_, rfl⟩

/-- **A bearer token does not show behind a text in which none is open.** -/
theorem scrubChars_bearer (isalnum : Char → Bool) {text : List Char} (hopen : bearerOpen none 0 text = false)
    (post : List Char) :
    ∃ out, ∀ token, token ≠ [] → (∀ c ∈ token, isTokenChar c = true) →
      scrubChars isalnum (text ++ ("Bearer ".toList ++ (token ++ post))) = out := by
  have hopens : opensBearer "Bearer ".toList = true := by decide
  obtain ⟨out, hout⟩ := sub_bearer_open (bearerOpen_of_opens hopens (after none text))
  refine ⟨subUrlCredential none (subApiKey isalnum none (subBearer none text ++ (out ++
    subBearer none (post.dropWhile isTokenChar)))), ?_⟩
  intro token hne htoken
  have hall : ∀ c ∈ token ++ post.takeWhile isTokenChar, isTokenChar c = true :=
    List.forall_mem_append.mpr ⟨htoken, fun c hc => List.mem_takeWhile_imp hc⟩
  have hbearer := hout _ _ (List.append_ne_nil_of_left_ne_nil hne _) hall
    (isTokenChar_head_dropWhile post)
  rw [List.append_assoc, List.takeWhile_append_dropWhile] at hbearer
  have happend : subBearer none (text ++ ("Bearer ".toList ++ (token ++ post))) =
      subBearer none text ++ subBearer (after none text) ("Bearer ".toList ++ (token ++ post)) := by
    have hhead : ("Bearer ".toList ++ (token ++ post)).head? = some 'B' := rfl
    have hspace : ∀ c ∈ ("Bearer ".toList ++ (token ++ post)).head?, isPySpace c = false := by
      rw [hhead]
      rintro _ ⟨⟩
      rfl
    exact sub_bearer_append hspace (apart_of_head hhead rfl) (Nat.zero_le _) hopen
  rw [scrubChars, happend]
  exact congrArg (fun behind => subUrlCredential none (subApiKey isalnum none (subBearer none text ++ behind))) hbearer

/-- **A bearer token shows behind a text in which one is open.** -/
theorem scrubChars_bearer_shows (isalnum : Char → Bool) {text : List Char} (hopen : bearerOpen none 0 text = true)
    (post : List Char) :
    ∃ out, ∀ c, Plain c → ∃ rest,
      scrubChars isalnum (text ++ ("Bearer ".toList ++ c :: post)) = out ++ c :: rest := by
  obtain ⟨front, hfront⟩ := sub_bearer_open hopen
  obtain ⟨front', hfront', -⟩ := subApiKey_split isalnum (rfl : isKeyChar ' ' = false) none front
  obtain ⟨out, hout⟩ := subUrlCredential_split (rfl : isPySpace ' ' = true) none front'
  refine ⟨out ++ [' '], ?_⟩
  intro c h
  have hbearer : subBearer none (text ++ ("Bearer ".toList ++ c :: post)) =
      front ++ subBearer none (' ' :: c :: post) :=
    hfront "Bearer".toList (' ' :: c :: post) (by decide) (List.all_iff_forall_prop.mp (by decide)) (by simp; rfl)
  have hspace : subBearer none (' ' :: c :: post) = ' ' :: subBearer (some ' ') (c :: post) :=
    sub_keep (find_bearer_cons rfl none _)
  rw [scrubChars, hbearer, hspace, subBearer_plain h, hfront', subApiKey_plain isalnum h, hout,
    subUrlCredential_plain h]
  simp only [List.append_assoc, List.cons_append, List.nil_append]
  exact ⟨_, rfl⟩

section Key

variable (isalnum : Char → Bool)

/-- The last run of the characters of a key. -/
theorem exists_last_run (text : List Char) : (∀ c ∈ text, isKeyChar c = true) ∨
    ∃ head c run, text = head ++ c :: run ∧ isKeyChar c = false ∧ ∀ d ∈ run, isKeyChar d = true := by
  induction text with
  | nil => exact .inl (List.forall_mem_nil _)
  | cons c text ih =>
      rcases ih with hall | ⟨head, d, run, rfl, hd, hrun⟩
      · by_cases hc : isKeyChar c = true
        · exact .inl (List.forall_mem_cons.mpr ⟨hc, hall⟩)
        · exact .inr ⟨[], c, text, rfl, Bool.eq_false_iff.mpr hc, hall⟩
      · exact .inr ⟨c :: head, d, run, rfl, hd, hrun⟩

/-- What the replacement of keys comes to, in a text in which no bearer token is open: the last run of the characters of
a key. -/
theorem subApiKey_last_run {front : List Char} (hbearer : bearerOpen none 0 (front ++ ['_']) = false) :
    ∃ out before start, (∀ c ∈ start ++ ['_'], isKeyChar c = true) ∧
      keyOpen isalnum before (start ++ ['_']) = keyOpen isalnum none (front ++ ['_']) ∧
      ∀ more, subApiKey isalnum none (subBearer none (front ++ ['_']) ++ more) =
        out ++ subApiKey isalnum before (start ++ ['_'] ++ more) := by
  rcases exists_last_run (front ++ ['_']) with hall | ⟨head, c, run, htext, hc, hrun⟩
  · have hsolid : subBearer none (front ++ ['_']) = front ++ ['_'] := by
      apply sub_bearer_solid
      exact fun c hc => not_isPySpace_of_isTokenChar (isTokenChar_of_isKeyChar (hall c hc))
    refine ⟨[], none, front, hall, rfl, ?_⟩
    intro more
    rw [hsolid, List.nil_append]
  · have hletter : c.isAlphanum = false := by
      simp only [isKeyChar, Bool.or_eq_false_iff] at hc
      exact hc.1.1
    obtain ⟨start, rfl⟩ : ∃ start, run = start ++ ['_'] := by
      rcases List.eq_nil_or_concat run with rfl | ⟨start, d, rfl⟩
      · obtain ⟨-, hsame⟩ := List.append_inj' htext rfl
        obtain rfl : '_' = c := by simpa using hsame
        cases hc
      · have hsplit : front ++ ['_'] = (head ++ c :: start) ++ [d] := by simpa using htext
        obtain ⟨-, hsame⟩ := List.append_inj' hsplit rfl
        exact ⟨start, by rw [hsame]; simp⟩
    rw [htext] at hbearer ⊢
    obtain ⟨out, hout⟩ := sub_bearer_tail hletter (fun d hd => isTokenChar_of_isKeyChar (hrun d hd))
      (Nat.zero_le _) hbearer
    obtain ⟨out', hout', -⟩ := subApiKey_split isalnum hc none out
    refine ⟨out' ++ [c], some c, start, hrun, (keyOpen_behind isalnum hc).symm, ?_⟩
    intro more
    have hsub : subBearer none (head ++ c :: (start ++ ['_'])) = out ++ c :: (start ++ ['_']) := hout
    rw [hsub, List.append_assoc, List.cons_append, hout']
    simp

/-- Where no bearer token is open, the token of a key is kept at first. -/
theorem subBearer_token {front : List Char} (hbearer : bearerOpen none 0 (front ++ ['_']) = false) {post : List Char}
    (hpost : ∀ c ∈ post.head?, isPySpace c = true) {token : List Char} (h : KeyToken token) :
    subBearer none (front ++ ['_'] ++ (token ++ post)) =
      subBearer none (front ++ ['_']) ++ (token ++ subBearer none post) := by
  have hsolid : ∀ c ∈ token, isPySpace c = false :=
    fun c hc => not_isPySpace_of_isTokenChar (isTokenChar_of_isKeyChar (h.keyChars c hc))
  obtain ⟨start, d, rfl, -, hd⟩ := h.last
  have hlast : ∀ c ∈ (start ++ [d]).getLast?, sameIgnoringCase 'r' c = false := by
    simpa using hd
  have hhead : ∀ c ∈ (start ++ [d] ++ post).head?, isPySpace c = false := by
    rw [List.head?_append_of_ne_nil _ (by simp)]
    exact fun c hc => hsolid c (List.mem_of_head? hc)
  have happend : subBearer none (front ++ ['_'] ++ (start ++ [d] ++ post)) =
      subBearer none (front ++ ['_']) ++ subBearer (after none (front ++ ['_'])) (start ++ [d] ++ post) :=
    sub_bearer_append hhead (apart_of_last rfl) (Nat.zero_le _) hbearer
  rw [happend]
  exact congrArg _ (sub_bearer_keeps hsolid hlast hpost _)

theorem subBearer_head {post : List Char} (hpost : ∀ c ∈ post.head?, isPySpace c = true) :
    ∀ c ∈ (subBearer none post).head?, isPySpace c = true := by
  cases post with
  | nil => exact hpost
  | cons c post =>
      have hc := hpost c rfl
      have hletter := not_alphanum_of_isPySpace hc
      have hkept : subBearer none (c :: post) = c :: subBearer (some c) post :=
        sub_keep (find_bearer_cons (not_bearer_of_not_alphanum hletter) none post)
      rw [hkept]
      simpa using hc

/-- **A key that is recognized does not show.** -/
theorem scrubChars_key {front : List Char}
    (h : bearerOpen none 0 (front ++ ['_']) = true ∨ keyOpen isalnum none (front ++ ['_']) = true) {post : List Char}
    (hpost : ∀ c ∈ post.head?, isPySpace c = true) :
    ∃ out, ∀ token, KeyToken token → scrubChars isalnum (front ++ ['_'] ++ (token ++ post)) = out := by
  by_cases hbearer : bearerOpen none 0 (front ++ ['_']) = true
  · obtain ⟨out, hout⟩ := sub_bearer_open hbearer
    refine ⟨subUrlCredential none (subApiKey isalnum none (out ++ subBearer none post)), ?_⟩
    intro token htoken
    have hne : token ≠ [] := List.length_pos_iff.mp (Nat.lt_of_lt_of_le (by decide) htoken.length)
    have htokens : ∀ c ∈ token, isTokenChar c = true := fun c hc => isTokenChar_of_isKeyChar (htoken.keyChars c hc)
    have hspace : ∀ c ∈ post.head?, isTokenChar c = false :=
      fun c hc => not_isTokenChar_of_isPySpace (hpost c hc)
    have hsub : subBearer none (front ++ ['_'] ++ (token ++ post)) = out ++ subBearer none post :=
      hout token post hne htokens hspace
    rw [scrubChars, hsub]
  · have hkey := h.resolve_left hbearer
    rw [Bool.not_eq_true] at hbearer
    obtain ⟨out, before, start, hrun, hopen, hsub⟩ := subApiKey_last_run isalnum hbearer
    obtain ⟨out', hout'⟩ := sub_key_open isalnum hrun (hopen.trans hkey)
    refine ⟨subUrlCredential none (out ++ (out' ++ subApiKey isalnum none (subBearer none post))), ?_⟩
    intro token htoken
    have hreplaced : subApiKey isalnum before (start ++ ['_'] ++ (token ++ subBearer none post)) =
        out' ++ subApiKey isalnum none (subBearer none post) :=
      hout' token _ htoken (subBearer_head hpost)
    rw [scrubChars, subBearer_token hbearer hpost htoken, hsub, hreplaced]

/-- **Any other key shows.** -/
theorem scrubChars_key_shows {front : List Char} (hbearer : bearerOpen none 0 (front ++ ['_']) = false)
    (hkey : keyOpen isalnum none (front ++ ['_']) = false) {post : List Char}
    (hpost : ∀ c ∈ post.head?, isPySpace c = true) :
    ∃ out, ∀ token, KeyToken token → (∀ c ∈ token, c ≠ 'a' ∧ c ≠ 's') → ∃ rest,
      scrubChars isalnum (front ++ ['_'] ++ (token ++ post)) = out ++ (token ++ rest) := by
  obtain ⟨out, before, start, hrun, hopen, hsub⟩ := subApiKey_last_run isalnum hbearer
  have hspace := subBearer_head hpost
  have hkeys : ∀ token, KeyToken token → (∀ c ∈ token, c ≠ 'a' ∧ c ≠ 's') →
      subApiKey isalnum none (subBearer none (front ++ ['_'] ++ (token ++ post))) =
        out ++ (start ++ ['_'] ++ (token ++ subApiKey isalnum none (subBearer none post))) := by
    intro token htoken hplain
    have hkept : subApiKey isalnum before (start ++ ['_'] ++ (token ++ subBearer none post)) =
        start ++ ['_'] ++ subApiKey isalnum (some '_') (token ++ subBearer none post) :=
      sub_key_closed isalnum hrun (hopen.trans hkey)
    have htoken' : subApiKey isalnum (some '_') (token ++ subBearer none post) =
        token ++ subApiKey isalnum (after (some '_') token) (subBearer none post) :=
      sub_key_plain isalnum hplain _
    have hbefore : subApiKey isalnum (after (some '_') token) (subBearer none post) =
        subApiKey isalnum none (subBearer none post) :=
      sub_key_before isalnum hspace _ _
    rw [subBearer_token hbearer hpost htoken, hsub, hkept, htoken', hbefore]
  have hurl : ∀ {more}, '@' ∉ more → ':' ∉ more → ∀ text, subUrlCredential none (text ++ more) =
      subUrlCredential none text ++ more := by
    intro more hat hcolon text
    have happend : subUrlCredential none (text ++ more) =
        subUrlCredential none text ++ subUrlCredential (after none text) more := sub_url_append hat text none
    rw [happend]
    exact congrArg _ (sub_url_plain hcolon _)
  have hnot : ∀ {token}, KeyToken token → ∀ c, isKeyChar c = false → c ∉ token :=
    fun htoken c hc hmem => Bool.false_ne_true (hc.symm.trans (htoken.keyChars c hmem))
  refine ⟨subUrlCredential none (out ++ (start ++ ['_'])), ?_⟩
  intro token htoken hplain
  rw [scrubChars, hkeys token htoken hplain, ← List.append_assoc]
  cases hbehind : subBearer none post with
  | nil =>
      refine ⟨[], ?_⟩
      rw [subApiKey, sub, List.append_nil, hurl (hnot htoken '@' rfl) (hnot htoken ':' rfl)]
  | cons c rest =>
      have hc : isPySpace c = true := hspace c (by rw [hbehind]; rfl)
      have hkey' := not_isKeyChar_of_isPySpace hc
      have hat : '@' ∉ token ++ [c] := by
        simp only [List.mem_append, List.mem_singleton, not_or]
        refine ⟨hnot htoken '@' rfl, ?_⟩
        rintro rfl
        cases hc
      have hcolon : ':' ∉ token ++ [c] := by
        simp only [List.mem_append, List.mem_singleton, not_or]
        refine ⟨hnot htoken ':' rfl, ?_⟩
        rintro rfl
        cases hc
      rw [subApiKey_head isalnum hkey', ← List.append_assoc,
        subUrlCredential_stops (urlCredentialPattern_avoids hc).stops, List.append_assoc _ token, hurl hat hcolon]
      simp only [List.append_assoc, List.singleton_append]
      exact ⟨_, rfl⟩

end Key

end GpuInference
