import GpuInference.CredentialScrub

/-!
Which secrets a scrubbed event conceals: raw API keys, bearer tokens and URLs with a password, at any place of the event
and in any text. Two events that only differ in the secret are scrubbed to the same one exactly where the patterns come
to the secret, or its place is in an entry that is replaced.
-/

open Regex

namespace GpuInference

/-- The kinds of secrets: the raw keys that a setting of `api_key_prefix` leads to, the bearer tokens, and the URLs with
a password, of one scheme and one user. -/
inductive CredentialKind where
  | apiKey (keyPrefix : String)
  | bearer
  | url (scheme user : String)

namespace CredentialKind

/-- A secret of the kind. -/
def Secret : CredentialKind → String → Prop
  | apiKey keyPrefix, text =>
      ∃ data : List UInt8, data.length = 32 ∧ text = generateApiKey keyPrefix (tokenUrlsafe data)
  | bearer, text => ∃ token : String, token ≠ "" ∧ (∀ c ∈ token.toList, isTokenChar c = true) ∧ text = "Bearer " ++ token
  | url scheme user, text =>
      ∃ password : String, password ≠ "" ∧ (∀ c ∈ password.toList, isPasswordChar c = true) ∧
        text = scheme ++ "://" ++ user ++ ":" ++ password ++ "@"

/-- A raw key is followed by a space, or by nothing. -/
def Followed : CredentialKind → String → Prop
  | apiKey _, post => ∀ c ∈ post.toList.head?, isPySpace c = true
  | bearer, _ => True
  | url _ _, _ => True

/-- The patterns come to the secrets of the kind behind this text. A raw key is part of a bearer token, or of a key that
begins with `an_` or `sk-`. A bearer token is not behind the word `Bearer` of another one. A URL has a user name in front
of the first colon. -/
def Recognized (isalnum : Char → Bool) : CredentialKind → String → Prop
  | apiKey keyPrefix, pre =>
      let text := (pre ++ normalizedPrefix keyPrefix ++ "_").toList
      bearerOpen none 0 text = true ∨ keyOpen isalnum none text = true
  | bearer, pre => bearerOpen none 0 pre.toList = false
  | url _ user, _ => urlOpen ("://" ++ user).toList = true

instance (kind : CredentialKind) (post : String) : Decidable (kind.Followed post) :=
  match kind with
  | apiKey _ => decidable_of_iff (post.toList.head?.all isPySpace = true) (Option.all_eq_true isPySpace _)
  | bearer => inferInstanceAs (Decidable True)
  | url _ _ => inferInstanceAs (Decidable True)

instance (isalnum : Char → Bool) (kind : CredentialKind) (pre : String) : Decidable (kind.Recognized isalnum pre) :=
  match kind with
  | apiKey _ => inferInstanceAs (Decidable (_ ∨ _))
  | bearer => inferInstanceAs (Decidable (_ = _))
  | url _ _ => inferInstanceAs (Decidable (_ = _))

end CredentialKind

/-- What is seen is the same for all the secrets. -/
def Conceals {α β : Type} (secret : α → Prop) (view : α → β) : Prop :=
  ∀ a b, secret a → secret b → view a = view b

theorem plain_zero : Plain '0' := ⟨rfl, by decide, by decide, by decide⟩

theorem plain_one : Plain '1' := ⟨rfl, by decide, by decide, by decide⟩

/-- Two secrets that show in different ways. -/
theorem not_conceals_of_plain {view : Char → List Char} {out : List Char}
    (h : ∀ c, Plain c → ∃ rest, view c = out ++ c :: rest) : view '0' ≠ view '1' := by
  obtain ⟨rest, hzero⟩ := h '0' plain_zero
  obtain ⟨rest', hone⟩ := h '1' plain_one
  rw [hzero, hone]
  simp

section Kinds

variable (isalnum : Char → Bool)

theorem scrubString_eq_iff (text text' : String) :
    scrubString isalnum text = scrubString isalnum text' ↔
      scrubChars isalnum text.toList = scrubChars isalnum text'.toList := by
  rw [scrubString, scrubString, String.ofList_inj]

theorem conceals_bearer_iff (pre post : String) :
    Conceals CredentialKind.bearer.Secret (fun secret => scrubString isalnum (pre ++ secret ++ post)) ↔
      CredentialKind.bearer.Recognized isalnum pre := by
  have htext : ∀ token, (pre ++ ("Bearer " ++ token) ++ post).toList =
      pre.toList ++ ("Bearer ".toList ++ (token.toList ++ post.toList)) := by
    intro token
    simp only [String.toList_append, List.append_assoc]
  constructor
  · intro h
    by_contra hrecognized
    have hopen : bearerOpen none 0 pre.toList = true := eq_true_of_ne_false hrecognized
    obtain ⟨out, hout⟩ := scrubChars_bearer_shows isalnum hopen post.toList
    have hsame := h _ _ ⟨"0", by decide, List.all_iff_forall_prop.mp (by decide), rfl⟩
      ⟨"1", by decide, List.all_iff_forall_prop.mp (by decide), rfl⟩
    rw [scrubString_eq_iff, htext, htext] at hsame
    exact not_conceals_of_plain hout hsame
  · rintro hrecognized _ _ ⟨token, hne, htoken, rfl⟩ ⟨token', hne', htoken', rfl⟩
    obtain ⟨out, hout⟩ := scrubChars_bearer isalnum hrecognized post.toList
    rw [scrubString_eq_iff, htext, htext, hout _ (mt String.toList_eq_nil_iff.mp hne) htoken,
      hout _ (mt String.toList_eq_nil_iff.mp hne') htoken']

theorem conceals_url_iff (scheme user pre post : String) :
    Conceals (CredentialKind.url scheme user).Secret (fun secret => scrubString isalnum (pre ++ secret ++ post)) ↔
      (CredentialKind.url scheme user).Recognized isalnum pre := by
  have htext : ∀ password, (pre ++ (scheme ++ "://" ++ user ++ ":" ++ password ++ "@") ++ post).toList =
      (pre ++ scheme ++ ("://" ++ user)).toList ++ ':' :: (password.toList ++ '@' :: post.toList) := by
    intro password
    simp [String.toList_append]
  have hopen : urlOpen (pre ++ scheme ++ ("://" ++ user)).toList = urlOpen ("://" ++ user).toList := by
    have hurl : ("://" ++ user).toList = ':' :: '/' :: '/' :: user.toList := by simp [String.toList_append]
    rw [String.toList_append, hurl]
    exact urlOpen_last _ _
  constructor
  · intro h
    by_contra hrecognized
    have hclosed : urlOpen ("://" ++ user).toList = false := Bool.eq_false_iff.mpr hrecognized
    rw [← hopen] at hclosed
    obtain ⟨out, hout⟩ := scrubChars_url_shows isalnum hclosed post.toList
    have hsame := h _ _ ⟨"0", by decide, List.all_iff_forall_prop.mp (by decide), rfl⟩
      ⟨"1", by decide, List.all_iff_forall_prop.mp (by decide), rfl⟩
    rw [scrubString_eq_iff, htext, htext] at hsame
    exact not_conceals_of_plain hout hsame
  · rintro hrecognized _ _ ⟨password, hne, hpassword, rfl⟩ ⟨password', hne', hpassword', rfl⟩
    have hrecognized' := hopen.trans hrecognized
    obtain ⟨out, hout⟩ := scrubChars_url_of_open isalnum hrecognized' post.toList
    rw [scrubString_eq_iff, htext, htext, hout _ (mt String.toList_eq_nil_iff.mp hne) hpassword,
      hout _ (mt String.toList_eq_nil_iff.mp hne') hpassword']

theorem conceals_apiKey_iff (keyPrefix pre post : String) (h : ∀ c ∈ post.toList.head?, isPySpace c = true) :
    Conceals (CredentialKind.apiKey keyPrefix).Secret (fun secret => scrubString isalnum (pre ++ secret ++ post)) ↔
      (CredentialKind.apiKey keyPrefix).Recognized isalnum pre := by
  have htext : ∀ token, (pre ++ generateApiKey keyPrefix token ++ post).toList =
      (pre ++ normalizedPrefix keyPrefix).toList ++ ['_'] ++ (token.toList ++ post.toList) := by
    intro token
    simp [generateApiKey, String.toList_append]
  have hbefore : (pre ++ normalizedPrefix keyPrefix ++ "_").toList =
      (pre ++ normalizedPrefix keyPrefix).toList ++ ['_'] := String.toList_append
  rw [CredentialKind.Recognized, hbefore]
  constructor
  · intro hconceals
    by_contra hrecognized
    rw [not_or, Bool.not_eq_true, Bool.not_eq_true] at hrecognized
    obtain ⟨out, hout⟩ := scrubChars_key_shows isalnum hrecognized.1 hrecognized.2 h
    have hdata : (List.replicate 32 (0 : UInt8)).length = 32 := rfl
    have hdata' : (List.replicate 31 (0 : UInt8) ++ [1]).length = 32 := rfl
    obtain ⟨rest, hrest⟩ := hout _ (keyToken_tokenUrlsafe hdata) (List.all_iff_forall_prop.mp (by decide))
    obtain ⟨rest', hrest'⟩ := hout _ (keyToken_tokenUrlsafe hdata') (List.all_iff_forall_prop.mp (by decide))
    have hsame := hconceals _ _ ⟨_, hdata, rfl⟩ ⟨_, hdata', rfl⟩
    rw [scrubString_eq_iff, htext, htext, hrest, hrest'] at hsame
    have htokens := (List.append_inj (List.append_cancel_left hsame) (by decide)).1
    exact absurd htokens (by decide)
  · rintro hrecognized _ _ ⟨data, hdata, rfl⟩ ⟨data', hdata', rfl⟩
    obtain ⟨out, hout⟩ := scrubChars_key isalnum hrecognized h
    rw [scrubString_eq_iff, htext, htext, hout _ (keyToken_tokenUrlsafe hdata), hout _ (keyToken_tokenUrlsafe hdata')]

end Kinds

/-- A string is concealed in a nested value as it is by itself. -/
theorem conceals_fill_iff {Key Scalar : Type} (isalnum : Char → Bool) (keyText : Key → String)
    (place : ScrubContext Key Scalar) (secret : String → Prop) (text : String → String) :
    Conceals secret (fun s => scrubData isalnum keyText (place.fill (.str (text s)))) ↔
      place.Redacted keyText ∨ Conceals secret (fun s => scrubString isalnum (text s)) := by
  simp only [Conceals, ScrubContext.scrubData_fill_eq_iff]
  by_cases hredacted : place.Redacted keyText
  · simp [hredacted]
  · simp [hredacted]

/-- **The scrubber conceals a kind of secrets exactly where its patterns come to them**, or where the entry is replaced. -/
theorem scrubData_conceals_iff {Key Scalar : Type} (isalnum : Char → Bool) (keyText : Key → String)
    (place : ScrubContext Key Scalar) (kind : CredentialKind) (pre post : String) (h : kind.Followed post) :
    Conceals kind.Secret (fun secret => scrubData isalnum keyText (place.fill (.str (pre ++ secret ++ post)))) ↔
      place.Redacted keyText ∨ kind.Recognized isalnum pre := by
  rw [conceals_fill_iff isalnum keyText place kind.Secret fun secret => pre ++ secret ++ post]
  apply or_congr_right
  cases kind with
  | apiKey keyPrefix => exact conceals_apiKey_iff isalnum keyPrefix pre post h
  | bearer => exact conceals_bearer_iff isalnum pre post
  | url scheme user => exact conceals_url_iff isalnum scheme user pre post

theorem scrubData_conceals_an :
    Conceals (CredentialKind.apiKey "an_").Secret (fun secret => scrubData Char.isAlphanum (fun key : String => key)
      ((ScrubContext.here : ScrubContext String Unit).fill (.str ("key " ++ secret ++ " expired")))) :=
  (scrubData_conceals_iff Char.isAlphanum (fun key : String => key) ScrubContext.here (.apiKey "an_") "key " " expired"
    (by decide)).mpr (.inr (.inr (by decide)))

/-- A key of another prefix, a bearer token behind another `Bearer`, and the password of a URL without a user name. -/
theorem scrubData_not_conceals :
    ¬ Conceals (CredentialKind.apiKey "gpu").Secret (fun secret => scrubData Char.isAlphanum (fun key : String => key)
      ((ScrubContext.here : ScrubContext String Unit).fill (.str ("key " ++ secret ++ " expired")))) ∧
    ¬ Conceals CredentialKind.bearer.Secret (fun secret => scrubData Char.isAlphanum (fun key : String => key)
      ((ScrubContext.here : ScrubContext String Unit).fill (.str ("Bearer " ++ secret ++ " expired")))) ∧
    ¬ Conceals (CredentialKind.url "redis" "").Secret (fun secret => scrubData Char.isAlphanum (fun key : String => key)
      ((ScrubContext.here : ScrubContext String Unit).fill (.str ("connecting to " ++ secret ++ "cache:6379")))) := by
  have hspace : (CredentialKind.apiKey "gpu").Followed " expired" := by decide
  refine ⟨?_, ?_, ?_⟩
  · rw [conceals_fill_iff Char.isAlphanum _ _ _ fun secret => "key " ++ secret ++ " expired",
      conceals_apiKey_iff Char.isAlphanum "gpu" "key " " expired" hspace]
    exact not_or.mpr ⟨id, by decide⟩
  · rw [conceals_fill_iff Char.isAlphanum _ _ _ fun secret => "Bearer " ++ secret ++ " expired",
      conceals_bearer_iff Char.isAlphanum "Bearer " " expired"]
    exact not_or.mpr ⟨id, by decide⟩
  · rw [conceals_fill_iff Char.isAlphanum _ _ _ fun secret => "connecting to " ++ secret ++ "cache:6379",
      conceals_url_iff Char.isAlphanum "redis" "" "connecting to " "cache:6379"]
    exact not_or.mpr ⟨id, by decide⟩

/-- The keys of the default prefix are recognized behind everything but a word. -/
theorem recognized_an {keyPrefix : String} (hnormal : normalizedPrefix keyPrefix = "an") (isalnum : Char → Bool)
    {pre : String} (hpre : ∀ c ∈ pre.toList.getLast?, isWordChar isalnum c = false) :
    (CredentialKind.apiKey keyPrefix).Recognized isalnum pre := by
  right
  rw [hnormal, String.append_assoc, String.toList_append]
  apply keyOpen_append isalnum (List.cons_ne_nil _ _)
  have hbefore : (after none pre.toList).any (isWordChar isalnum) = false := by
    rw [after_none]
    cases hlast : pre.toList.getLast? with
    | none => rfl
    | some c => exact hpre c hlast
  rw [opensKey, hbefore]
  rfl

/-- A URL is recognized if it has the name of a user. -/
theorem recognized_url_iff (isalnum : Char → Bool) (scheme pre : String) {user : String}
    (huser : ∀ c ∈ user.toList, isUserChar c = true) :
    (CredentialKind.url scheme user).Recognized isalnum pre ↔ user ≠ "" := by
  have hurl : ("://" ++ user).toList = ':' :: '/' :: '/' :: user.toList := by simp [String.toList_append]
  rw [CredentialKind.Recognized, hurl]
  constructor
  · rintro hopen rfl
    exact absurd hopen (by decide)
  · intro hne
    obtain ⟨c, rest, hrest⟩ := List.exists_cons_of_ne_nil (mt String.toList_eq_nil_iff.mp hne)
    rw [hrest] at huser ⊢
    refine urlOpen_iff.mpr ⟨[], c, rest, rfl, (isUserChar_iff.mp (huser c List.mem_cons_self)).1, ?_⟩
    exact fun d hd => isPasswordChar_of_isUserChar (huser d hd)

end GpuInference
