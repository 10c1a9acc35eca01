import GpuInference.KeyScan
import GpuInference.UrlScan

/-!
The scrubber, run on what it has written. No bearer token and no API key is left in a scrubbed text, because none begins
in a replaced one or goes through it, and the later replacements make none. A URL is replaced once more, by itself.
-/

open Regex

namespace GpuInference

/-- No match begins in a word without a space, of which the last character is in no match. -/
theorem silent_bearer_solid {word : List Char} {e : Char} (h : ∀ c ∈ word ++ [e], isPySpace c = false)
    (havoid : bearerPattern.Avoids e) (before : Option Char) (behind : List Char) :
    bearerPattern.Silent before (word ++ [e]) behind := by
  have hword : bearerPattern.Silent before word [e] := by
    rintro left right rfl -
    apply find_bearer_solid
    intro c hc
    exact h c (by simp only [List.append_assoc]; exact List.mem_append_right left hc)
  rw [silent_append, List.singleton_append, silent_cons]
  exact ⟨havoid.silent hword behind, havoid.find_head bearerPattern_proper _ _, silent_nil _⟩

/-- Only the first letter of `Bearer` is a B. -/
theorem not_mem_of_earer {word : List Char}
    (h : List.Forall₂ (fun c d => sameIgnoringCase c d = true) "earer".toList word) : 'B' ∉ word := by
  intro hmem
  obtain ⟨letter, hletter, hsame⟩ := exists_of_mem_right h hmem
  have hnot : ∀ letter ∈ "earer".toList, sameIgnoringCase letter 'B' = false := List.all_iff_forall_prop.mp (by decide)
  exact Bool.false_ne_true ((hnot letter hletter).symm.trans hsame)

/-- Where a character of a token has been written, there was one before. -/
theorem isTokenChar_of_subBearer {before : Option Char} {text rest : List Char} {t : Char}
    (h : subBearer before text = t :: rest) (ht : isTokenChar t = true) :
    ∃ c more, text = c :: more ∧ isTokenChar c = true := by
  cases text with
  | nil => simp [subBearer, sub] at h
  | cons c more =>
      refine ⟨c, more, rfl, ?_⟩
      cases hfind : bearerPattern.find before (c :: more) with
      | none =>
          rw [subBearer, sub_keep hfind] at h
          rw [(List.cons.inj h).1]
          exact ht
      | some last =>
          have hletter : sameIgnoringCase 'B' c = true := by
            by_contra hnot
            rw [Bool.not_eq_true] at hnot
            rw [find_bearer_cons hnot] at hfind
            cases hfind
          rw [isTokenChar, alphanum_of_bearer List.mem_cons_self hletter, Bool.true_or, Bool.true_or]

/-- A match that begins in kept text does not need the first letter of the word that is written behind. -/
theorem find_bearer_subBearer {before : Option Char} {c : Char} {rest : List Char}
    (h : bearerPattern.find before (c :: rest) = none) :
    bearerPattern.find before (c :: subBearer (some c) rest) = none := by
  rw [find_eq_none_iff bearerPattern_free] at h ⊢
  intro left right hout hreads
  obtain ⟨word, spaces, token, hbearer, hne, rfl⟩ := reads_bearer_iff.mp hreads
  obtain ⟨t, token, rfl⟩ := List.exists_cons_of_ne_nil hne
  obtain _ | @⟨_, d, _, word, hsame, hword⟩ := id hbearer.same
  simp only [List.cons_append, List.append_assoc, List.cons.injEq] at hout
  obtain ⟨rfl, hsub⟩ := hout
  rw [← List.append_assoc] at hsub
  have hhead : ∀ groups : List (List Char), ("Bearer " ++ redacted).toList.head? = some 'B' := fun _ => rfl
  have hkept : 'B' ∉ word ++ spaces := by
    rw [List.mem_append, not_or]
    exact ⟨not_mem_of_earer hword, fun hmem => Bool.false_ne_true (hbearer.spaceChars _ hmem)⟩
  obtain ⟨behind, rfl, hbehind⟩ := kept_of_head hhead hkept hsub
  obtain ⟨e, more, rfl, he⟩ := isTokenChar_of_subBearer hbehind (hbearer.tokenChars t List.mem_cons_self)
  have htoken : ∀ d ∈ [e], isTokenChar d = true := List.forall_mem_singleton.mpr he
  refine h (c :: word ++ (spaces ++ [e])) more (by simp) (reads_bearer_iff.mpr ?_)
  exact ⟨c :: word, spaces, [e], hbearer.retoken htoken, List.cons_ne_nil e [], rfl⟩

/-- **No bearer token is left** where bearer tokens have been replaced. -/
theorem silent_subBearer (text : List Char) : bearerPattern.Silent none (subBearer none text) [] := by
  apply silent_sub bearerPattern_proper
  · intro before c rest _ hnone
    exact find_bearer_subBearer hnone
  · intro before before' found rest groups _ _ behind
    have hfront : bearerPattern.Silent before' ['B', 'e', 'a', 'r', 'e', 'r', ' '] ['['] := by
      simp only [silent_cons, silent_nil, and_true]
      exact ⟨rfl, rfl, rfl, rfl, rfl, rfl, rfl⟩
    have hword : ("Bearer " ++ redacted).toList =
        ['B', 'e', 'a', 'r', 'e', 'r', ' '] ++ ("[Filtered".toList ++ [']']) := rfl
    rw [hword, silent_append]
    refine ⟨bearerPattern_avoids_open.silent hfront _, ?_⟩
    exact silent_bearer_solid (List.all_iff_forall_prop.mp (by decide)) bearerPattern_avoids_close _ _
  · intro before before' found c rest groups behind _ hnone
    exact find_none_before bearerPattern_free hnone _
  · exact within_rfl text

/-- `(an_[A-Za-z0-9_\-]{12,}|sk-[A-Za-z0-9_\-]{12,})`. -/
def keyBody : Regex Char :=
  .group (.alt (literal (· == ·) "an_".toList (.many 12 isKeyChar)) (literal (· == ·) "sk-".toList (.many 12 isKeyChar)))

theorem keyBody_free : keyBody.Free := by
  have hmany : (many 12 isKeyChar).Free := trivial
  exact ⟨hmany.literal "an_".toList, hmany.literal "sk-".toList⟩

theorem keyBody_begins {text : List Char} (h : keyBody.Reads text) : text ≠ [] ∧ ∀ c ∈ text, isKeyChar c = true := by
  refine ⟨?_, ?_⟩
  · rintro rfl
    exact apiKeyPattern_proper (fun _ => false) ⟨[], [], rfl, rfl, [], [], rfl, h, rfl⟩
  · intro c hc
    by_contra hkey
    rw [Bool.not_eq_true] at hkey
    have havoids : keyBody.Avoids c := (apiKeyPattern_avoids (fun _ => false) hkey).2.1
    exact havoids.not_mem h hc

section Key

variable (isalnum : Char → Bool)

theorem find_apiKey_eq_none_iff {before : Option Char} {text : List Char} :
    (apiKeyPattern isalnum).find before text = none ↔
      ∀ left right, text = left ++ right → keyBody.Reads left →
        before.any (isWordChar isalnum) ≠ text.head?.any (isWordChar isalnum) →
        (after before left).any (isWordChar isalnum) = right.head?.any (isWordChar isalnum) :=
  find_bounded_eq_none_iff keyBody_free

/-- A match ends where a word begins or ends. -/
theorem find_apiKey_end {before : Option Char} {text : List Char} {last : Regex.Place Char}
    (h : (apiKeyPattern isalnum).find before text = some last) :
    last.before.any (isWordChar isalnum) ≠ last.rest.head?.any (isWordChar isalnum) :=
  (mem_ends_bounded.mp (List.mem_of_head? h)).2.2

/-- A key is not cut off by the replacement of one that is behind it. -/
theorem find_key_subApiKey {before : Option Char} {c : Char} {rest : List Char}
    (h : (apiKeyPattern isalnum).find before (c :: rest) = none) :
    (apiKeyPattern isalnum).find before (c :: subApiKey isalnum (some c) rest) = none := by
  rw [find_apiKey_eq_none_iff]
  intro left right hout hreads hstart
  have hsub : subApiKey isalnum before (c :: rest) = left ++ right := (sub_keep h).trans hout
  have hhead : ∀ groups : List (List Char), redacted.toList.head? = some '[' := fun _ => rfl
  obtain ⟨behind, htext, hbehind⟩ :=
    kept_of_head hhead (fun hmem => Bool.false_ne_true ((keyBody_begins hreads).2 '[' hmem)) hsub
  have hend := (find_apiKey_eq_none_iff isalnum).mp h left behind htext hreads hstart
  cases behind with
  | nil =>
      rw [← hbehind]
      exact hend
  | cons d behind =>
      cases hfind : (apiKeyPattern isalnum).find (after before left) (d :: behind) with
      | none =>
          rw [sub_keep hfind] at hbehind
          rw [← hbehind]
          exact hend
      | some last =>
          -- a key begins at the end of a word, and would have to begin with a character of one
          obtain ⟨hnot, hbegins⟩ := find_apiKey_shape isalnum hfind
          obtain ⟨e, he, halphanum, -⟩ := beginsKey_head hbegins
          rw [hnot, Option.mem_def.mp he, Option.any_some, isWordChar_of_alphanum isalnum halphanum] at hend
          exact absurd hend Bool.false_ne_true

/-- **No API key is left** where API keys have been replaced. -/
theorem silent_subApiKey (text : List Char) :
    (apiKeyPattern isalnum).Silent none (subApiKey isalnum none text) [] := by
  apply silent_sub (apiKeyPattern_proper isalnum)
  · intro before c rest _ hnone
    exact find_key_subApiKey isalnum hnone
  · intro before before' found rest groups _ _ behind
    exact silent_key_plain isalnum (List.all_iff_forall_prop.mp (by decide)) before' behind
  · intro before before' found c rest groups behind hfind hnone
    have hboundary := find_apiKey_end isalnum hfind
    rw [find_apiKey_eq_none_iff] at hnone ⊢
    intro left right htext hreads _
    rw [after_of_ne_nil (keyBody_begins hreads).1 _ (after before found)]
    exact hnone left right htext hreads hboundary
  · exact within_rfl text

/-- **The replacement of API keys makes no bearer token.** -/
theorem silent_bearer_subApiKey {text : List Char} (h : bearerPattern.Silent none text []) :
    bearerPattern.Silent none (subApiKey isalnum none text) [] := by
  apply bearerPattern_avoids_open.silent_sub bearerPattern_free (apiKeyPattern_proper isalnum) (fun _ => rfl) _ h
  intro before before' found rest groups _ behind
  have hword : redacted.toList = "[Filtered".toList ++ [']'] := rfl
  rw [hword]
  exact silent_bearer_solid (List.all_iff_forall_prop.mp (by decide)) bearerPattern_avoids_close _ _

end Key

/-- What is found is a URL with a password, and its groups are the user name and the password. -/
theorem found_url {before last : Option Char} {found rest : List Char} {groups : List (List Char)}
    (h : urlCredentialPattern.find before (found ++ rest) = some ⟨last, rest, groups⟩) :
    ∃ user password, UrlCredential user password ∧ found = urlText user password ∧ groups = [user, password] ∧
      last = some '@' := by
  obtain ⟨user, password, hcredential, htext, hlast⟩ := find_url_shape h
  have hgroups : groups = [user, password] := congrArg Regex.Place.groups hlast
  have hbefore : last = some '@' := congrArg Regex.Place.before hlast
  exact ⟨user, password, hcredential, List.append_cancel_right htext, hgroups, hbefore⟩

theorem urlWord_eq (user password : List Char) :
    "://".toList ++ [user, password].headD [] ++ ":***@".toList = urlText user "***".toList := by
  simp [urlText]

theorem UrlCredential.starred {user password : List Char} (h : UrlCredential user password) :
    UrlCredential user "***".toList :=
  ⟨h.userChars, h.user_ne, List.all_iff_forall_prop.mp (by decide), by decide⟩

/-- **The replacement of passwords makes no bearer token.** -/
theorem silent_bearer_subUrl {text : List Char} (h : bearerPattern.Silent none text []) :
    bearerPattern.Silent none (subUrlCredential none text) [] := by
  apply bearerPattern_avoids_colon.silent_sub bearerPattern_free urlCredentialPattern_proper (fun _ => rfl) _ h
  intro before before' found rest groups hfind behind
  obtain ⟨user, password, hcredential, -, rfl, -⟩ := found_url hfind
  rw [urlWord_eq, urlText_eq]
  apply silent_bearer_solid _ bearerPattern_avoids_at
  rw [← urlText_eq, urlText]
  have huser : ∀ c ∈ user, isPySpace c = false :=
    fun c hc => (isPasswordChar_iff.mp (isUserChar_iff.mp (hcredential.userChars c hc)).2).2.2
  have hstars : ∀ c ∈ ':' :: ("***".toList ++ ['@']), isPySpace c = false := List.all_iff_forall_prop.mp (by decide)
  simp only [List.forall_mem_cons, List.forall_mem_append] at hstars ⊢
  exact ⟨rfl, rfl, rfl, huser, hstars⟩

/-- What is written for a URL begins as the URL does. -/
theorem head_subUrl (before : Option Char) (text : List Char) :
    (subUrlCredential before text).head? = text.head? := by
  apply head_sub _ urlCredentialPattern_proper
  intro before found rest groups _ hfind
  obtain ⟨user, password, -, rfl, rfl, -⟩ := found_url hfind
  exact ⟨List.cons_ne_nil _ _, rfl⟩

section Key

variable (isalnum : Char → Bool)

/-- A key is not cut off by the replacement of a URL that is behind it. -/
theorem find_key_subUrl {before : Option Char} {c : Char} {rest : List Char}
    (hurl : urlCredentialPattern.find before (c :: rest) = none)
    (h : (apiKeyPattern isalnum).find before (c :: rest) = none) :
    (apiKeyPattern isalnum).find before (c :: subUrlCredential (some c) rest) = none := by
  rw [find_apiKey_eq_none_iff] at h ⊢
  intro left right hout hreads hstart
  have hsub : subUrlCredential before (c :: rest) = left ++ right := (sub_keep hurl).trans hout
  have hhead : ∀ groups : List (List Char),
      ("://".toList ++ groups.headD [] ++ ":***@".toList).head? = some ':' := fun _ => rfl
  obtain ⟨behind, htext, hbehind⟩ :=
    kept_of_head hhead (fun hmem => Bool.false_ne_true ((keyBody_begins hreads).2 ':' hmem)) hsub
  have hsame : right.head? = behind.head? := by
    rw [← hbehind]
    exact head_subUrl _ behind
  rw [hsame]
  exact h left behind htext hreads hstart

/-- No key begins in what is written for a URL, if none begins where no URL does. -/
theorem silent_key_urlWord {before : Option Char} {user password rest : List Char} (h : UrlCredential user password)
    (hwithin : (apiKeyPattern isalnum).Within urlCredentialPattern before (urlText user password ++ rest))
    (before' : Option Char) (behind : List Char) :
    (apiKeyPattern isalnum).Silent before' ("://".toList ++ user ++ ":***@".toList) behind := by
  have havoids : (apiKeyPattern isalnum).Avoids ':' := apiKeyPattern_avoids isalnum rfl
  have hscheme : ∀ c ∈ "://".toList, c ≠ 'a' ∧ c ≠ 's' := List.all_iff_forall_prop.mp (by decide)
  have hstars : ∀ c ∈ ":***@".toList, c ≠ 'a' ∧ c ≠ 's' := List.all_iff_forall_prop.mp (by decide)
  have huser : (apiKeyPattern isalnum).Silent (some '/') user (':' :: (password ++ '@' :: rest)) := by
    rintro left right rfl hright
    have hsplit : urlText (left ++ right) password ++ rest =
        (':' :: '/' :: '/' :: left) ++ (right ++ ':' :: (password ++ '@' :: rest)) := by simp [urlText]
    apply hwithin _ _ hsplit (List.append_ne_nil_of_left_ne_nil hright _)
    apply silent_url_plain _ _ _ [] right rfl hright
    exact fun hmem => (isUserChar_iff.mp (h.userChars ':' (List.mem_append_right left hmem))).1 rfl
  rw [List.append_assoc, silent_append, silent_append]
  exact ⟨silent_key_plain isalnum hscheme _ _, havoids.silent huser _, silent_key_plain isalnum hstars _ _⟩

/-- **The replacement of passwords makes no API key.** -/
theorem silent_key_subUrl {text : List Char} (h : (apiKeyPattern isalnum).Silent none text []) :
    (apiKeyPattern isalnum).Silent none (subUrlCredential none text) [] := by
  apply silent_sub urlCredentialPattern_proper
  · intro before c rest hfind hnone
    exact find_key_subUrl isalnum hfind hnone
  · intro before before' found rest groups hfind hwithin behind
    obtain ⟨user, password, hcredential, rfl, rfl, -⟩ := found_url hfind
    exact silent_key_urlWord isalnum hcredential hwithin before' behind
  · intro before before' found c rest groups behind hfind hnone
    obtain ⟨user, password, -, -, rfl, hlast⟩ := found_url hfind
    rw [hlast] at hnone
    rw [urlWord_eq, urlText_eq, after_append]
    exact hnone
  · exact h.within

end Key

/-- A URL that begins in kept text does not need what is written behind. -/
theorem find_url_subUrl {before : Option Char} {c : Char} {rest : List Char}
    (h : urlCredentialPattern.find before (c :: rest) = none) (before' : Option Char) :
    urlCredentialPattern.find before' (c :: subUrlCredential (some c) rest) = none := by
  rw [Option.eq_none_iff_forall_ne_some]
  intro last hfind
  obtain ⟨user, password, hcredential, hout, -⟩ := find_url_shape hfind
  obtain ⟨rfl, hsub⟩ := List.cons.inj hout
  -- a written word would have slashes in the user name or in the password
  have hword : ∀ left right, '/' :: '/' :: (user ++ ':' :: (password ++ ['@'])) = left ++ right → right ≠ [] →
      ∀ groups : List (List Char), ¬ "://".toList ++ groups.headD [] ++ ":***@".toList <+: right ++ last.rest := by
    intro left right hsplit hright groups hprefix
    have hcolon : [':', '/'] <+: right ++ last.rest := List.IsPrefix.trans ⟨_, rfl⟩ hprefix
    obtain ⟨r, right, rfl⟩ := List.exists_cons_of_ne_nil hright
    rw [List.cons_append, List.cons_prefix_cons] at hcolon
    obtain ⟨rfl, hslash⟩ := hcolon
    cases right with
    | nil =>
        have hlast := congrArg List.getLast? hsplit
        simp [List.getLast?_cons, List.getLast?_append] at hlast
    | cons s right =>
        obtain ⟨rfl, -⟩ := List.cons_prefix_cons.mp hslash
        rcases left with _ | ⟨c₁, _ | ⟨c₂, left⟩⟩
        · simp at hsplit
        · simp at hsplit
        · simp only [List.cons_append, List.cons.injEq] at hsplit
          exact hcredential.no_slash (by simp [hsplit.2.2])
  obtain ⟨behind, rfl, -⟩ := kept_of_sub hsub hword
  have hfound : urlCredentialPattern.find before (urlText user password ++ behind) = _ := find_url hcredential behind before
  rw [urlText, List.cons_append, h] at hfound
  cases hfound

/-- **A replaced password is replaced by itself.** -/
theorem subUrl_subUrl (before before' : Option Char) (text : List Char) :
    subUrlCredential before' (subUrlCredential before text) = subUrlCredential before text := by
  induction before, text using scan_induction urlCredentialPattern_proper generalizing before' with
  | nil before => rfl
  | keep before c rest hfind ih =>
      have hsub : subUrlCredential before (c :: rest) = c :: subUrlCredential (some c) rest := sub_keep hfind
      have hagain : subUrlCredential before' (c :: subUrlCredential (some c) rest) = _ :=
        sub_keep (find_url_subUrl hfind before')
      rw [hsub, hagain]
      exact congrArg (c :: ·) (ih (some c))
  | found before found rest groups hne hfind ih =>
      obtain ⟨user, password, hcredential, rfl, rfl, -⟩ := found_url hfind
      have hsub : subUrlCredential before (urlText user password ++ rest) =
          urlText user "***".toList ++ subUrlCredential (after before (urlText user password)) rest := by
        rw [← urlWord_eq user password]
        exact sub_found hne hfind
      have hagain : ∀ behind, subUrlCredential before' (urlText user "***".toList ++ behind) =
          urlText user "***".toList ++ subUrlCredential (after before' (urlText user "***".toList)) behind := by
        intro behind
        have hfound : subUrlCredential before' (urlText user "***".toList ++ behind) = _ :=
          sub_found (List.cons_ne_nil _ _) (find_url hcredential.starred behind before')
        rwa [urlWord_eq] at hfound
      rw [hsub, hagain, ih]

/-- **Scrubbing a scrubbed text changes nothing.** -/
theorem scrubChars_scrubChars (isalnum : Char → Bool) (value : List Char) :
    scrubChars isalnum (scrubChars isalnum value) = scrubChars isalnum value := by
  have hbearer : bearerPattern.Silent none (scrubChars isalnum value) [] :=
    silent_bearer_subUrl (silent_bearer_subApiKey isalnum (silent_subBearer value))
  have hkey : (apiKeyPattern isalnum).Silent none (scrubChars isalnum value) [] :=
    silent_key_subUrl isalnum (silent_subApiKey isalnum (subBearer none value))
  have hbearer' : subBearer none (scrubChars isalnum value) = scrubChars isalnum value := hbearer.sub_eq _
  have hkey' : subApiKey isalnum none (scrubChars isalnum value) = scrubChars isalnum value := hkey.sub_eq _
  rw [scrubChars, hbearer', hkey', scrubChars, subUrl_subUrl]

theorem scrubString_scrubString (isalnum : Char → Bool) (value : String) :
    scrubString isalnum (scrubString isalnum value) = scrubString isalnum value := by
  rw [scrubString, scrubString, String.toList_ofList, scrubChars_scrubChars]

section Data

variable {Key Scalar : Type} (isalnum : Char → Bool) (keyText : Key → String)

mutual

theorem scrubData_scrubData : ∀ value : PyValue Key Scalar,
    scrubData isalnum keyText (scrubData isalnum keyText value) = scrubData isalnum keyText value
  | .dict items => by rw [scrubData, scrubData, scrubEntries_scrubEntries items]
  | .list items => by rw [scrubData, scrubData, scrubItems_scrubItems items]
  | .tuple items => by rw [scrubData, scrubData, scrubItems_scrubItems items]
  | .str text => by rw [scrubData, scrubData, scrubString_scrubString]
  | .scalar value => by rw [scrubData, scrubData]

theorem scrubEntries_scrubEntries : ∀ items : List (Key × PyValue Key Scalar),
    scrubEntries isalnum keyText (scrubEntries isalnum keyText items) = scrubEntries isalnum keyText items
  | [] => by rw [scrubEntries, scrubEntries]
  | (key, item) :: items => by
      rw [scrubEntries, scrubEntries, scrubEntries_scrubEntries items]
      split
      · rfl
      · rw [scrubData_scrubData item]

theorem scrubItems_scrubItems : ∀ items : List (PyValue Key Scalar),
    scrubItems isalnum keyText (scrubItems isalnum keyText items) = scrubItems isalnum keyText items
  | [] => by rw [scrubItems, scrubItems]
  | item :: items => by rw [scrubItems, scrubItems, scrubData_scrubData item, scrubItems_scrubItems items]

end

/-- A part that has been scrubbed is scrubbed with the whole as it was before. -/
theorem scrubData_fill_scrubData (place : ScrubContext Key Scalar) (value : PyValue Key Scalar) :
    scrubData isalnum keyText (place.fill (scrubData isalnum keyText value)) =
      scrubData isalnum keyText (place.fill value) := by
  induction place with
  | here => exact scrubData_scrubData isalnum keyText value
  | item left inner right ih => simp [ScrubContext.fill, scrubData, scrubItems, ih]
  | element left inner right ih => simp [ScrubContext.fill, scrubData, scrubItems, ih]
  | entry left key inner right ih => simp [ScrubContext.fill, scrubData, scrubEntries, ih]

/-- **Scrubbing is idempotent**: a scrubbed value stays as it is, by itself and as part of an event that is scrubbed. -/
theorem scrubData_idempotent :
    (∀ value : PyValue Key Scalar,
      scrubData isalnum keyText (scrubData isalnum keyText value) = scrubData isalnum keyText value) ∧
    ∀ (place : ScrubContext Key Scalar) (value : PyValue Key Scalar),
      scrubData isalnum keyText (place.fill (scrubData isalnum keyText value)) =
        scrubData isalnum keyText (place.fill value) :=
  ⟨scrubData_scrubData isalnum keyText, scrubData_fill_scrubData isalnum keyText⟩

end Data

end GpuInference
