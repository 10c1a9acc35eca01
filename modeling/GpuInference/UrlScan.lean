import GpuInference.RegexScan
import GpuInference.SentryScrub

/-!
The passwords of URLs in a text. The pattern wants a user name in front of the colon. It replaces what is behind the
first colon, up to the last `@` that it can come to.
-/

open Regex

namespace GpuInference

/-- `://` with a user name behind it, and nothing but characters of a password up to the end of the text. -/
def opensUrl (text : List Char) : Bool :=
  let rest := text.drop 3
  begins (· == ·) "://".toList text && rest.head?.any (· != ':') && rest.all isPasswordChar

/-- The text ends in a URL that goes on with a colon and a password. -/
def urlOpen : List Char → Bool
  | [] => false
  | c :: text => opensUrl (c :: text) || urlOpen text

theorem isPasswordChar_of_isUserChar {c : Char} (h : isUserChar c = true) : isPasswordChar c = true := by
  simp only [isUserChar, Bool.and_eq_true] at h
  simp only [isPasswordChar, Bool.and_eq_true]
  exact ⟨⟨h.1.1.2, h.1.2⟩, h.2⟩

theorem isPasswordChar_iff {c : Char} :
    isPasswordChar c = true ↔ c ≠ '/' ∧ c ≠ '@' ∧ isPySpace c = false := by
  simp [isPasswordChar, and_assoc]

theorem isUserChar_iff {c : Char} : isUserChar c = true ↔ c ≠ ':' ∧ isPasswordChar c = true := by
  simp [isUserChar, isPasswordChar, and_assoc]

theorem opensUrl_iff {text : List Char} :
    opensUrl text = true ↔ ∃ c rest, text = ':' :: '/' :: '/' :: c :: rest ∧ c ≠ ':' ∧
      ∀ d ∈ c :: rest, isPasswordChar d = true := by
  rw [opensUrl, Bool.and_eq_true, Bool.and_eq_true, begins_beq_iff, List.all_eq_true]
  constructor
  · rintro ⟨⟨⟨rest, rfl⟩, hhead⟩, hall⟩
    cases rest with
    | nil => cases hhead
    | cons c rest => exact ⟨c, rest, rfl, bne_iff_ne.mp hhead, hall⟩
  · rintro ⟨c, rest, rfl, hc, hall⟩
    exact ⟨⟨⟨c :: rest, rfl⟩, bne_iff_ne.mpr hc⟩, hall⟩

theorem urlOpen_iff {text : List Char} :
    urlOpen text = true ↔ ∃ head c rest, text = head ++ ':' :: '/' :: '/' :: c :: rest ∧ c ≠ ':' ∧
      ∀ d ∈ c :: rest, isPasswordChar d = true := by
  induction text with
  | nil => simp [urlOpen]
  | cons d text ih =>
      rw [urlOpen, Bool.or_eq_true, opensUrl_iff, ih]
      constructor
      · rintro (⟨c, rest, htext, hopens⟩ | ⟨head, c, rest, rfl, hopens⟩)
        · exact ⟨[], c, rest, htext, hopens⟩
        · exact ⟨d :: head, c, rest, rfl, hopens⟩
      · rintro ⟨head, c, rest, htext, hopens⟩
        cases head with
        | nil => exact .inl ⟨c, rest, htext, hopens⟩
        | cons e head =>
            obtain ⟨-, htext⟩ := List.cons.inj htext
            exact .inr ⟨head, c, rest, htext, hopens⟩

/-- A URL begins with a colon. -/
theorem urlOpen_append_right {left right : List Char} (h : ':' ∉ left) (hopen : urlOpen (left ++ right) = true) :
    urlOpen right = true := by
  induction left with
  | nil => exact hopen
  | cons c left ih =>
      rw [List.mem_cons, not_or] at h
      rw [List.cons_append, urlOpen, Bool.or_eq_true, opensUrl_iff] at hopen
      rcases hopen with ⟨_, _, htext, -⟩ | hopen
      · exact absurd (List.cons.inj htext).1.symm h.1
      · exact ih h.2 hopen

/-- A colon at the end is one of the password. -/
theorem urlOpen_of_colon {text : List Char} (hopen : urlOpen (text ++ [':']) = true) : urlOpen text = true := by
  obtain ⟨head, c, rest, htext, hc, hall⟩ := urlOpen_iff.mp hopen
  rcases List.eq_nil_or_concat rest with rfl | ⟨rest, d, rfl⟩
  · have hlast := congrArg List.getLast? htext
    simp at hlast
    exact absurd hlast.symm hc
  · have hsame : text ++ [':'] = (head ++ ':' :: '/' :: '/' :: c :: rest) ++ [d] := by simpa using htext
    refine urlOpen_iff.mpr ⟨head, c, rest, (List.append_inj' hsame rfl).1, hc, ?_⟩
    exact fun e he => hall e (by simp at he ⊢; tauto)

theorem urlOpen_append_colon {text : List Char} (hopen : urlOpen text = true) : urlOpen (text ++ [':']) = true := by
  obtain ⟨head, c, rest, rfl, hc, hall⟩ := urlOpen_iff.mp hopen
  refine urlOpen_iff.mpr ⟨head, c, rest ++ [':'], by simp, hc, ?_⟩
  rw [← List.cons_append, List.forall_mem_append]
  exact ⟨hall, by simp [isPasswordChar]; rfl⟩

/-- Only the last URL of a text can be open. -/
theorem urlOpen_last (head user : List Char) :
    urlOpen (head ++ ':' :: '/' :: '/' :: user) = urlOpen (':' :: '/' :: '/' :: user) := by
  rw [Bool.eq_iff_iff]
  constructor
  · intro hopen
    obtain ⟨front, c, rest, htext, hc, hall⟩ := urlOpen_iff.mp hopen
    rcases List.append_eq_append_iff.mp htext with ⟨middle, -, hmiddle⟩ | ⟨middle, -, hmiddle⟩
    · exact urlOpen_iff.mpr ⟨middle, c, rest, hmiddle, hc, hall⟩
    · rcases middle with _ | ⟨c₁, _ | ⟨c₂, _ | ⟨c₃, middle⟩⟩⟩
      · exact urlOpen_iff.mpr ⟨[], c, rest, hmiddle.symm, hc, hall⟩
      · simp at hmiddle
      · simp at hmiddle
      · -- the password would have a slash
        simp only [List.cons_append, List.cons.injEq] at hmiddle
        rw [hmiddle.2.2.2] at hall
        exact absurd (hall '/' (by simp)) Bool.false_ne_true
  · intro hopen
    obtain ⟨front, c, rest, htext, hc, hall⟩ := urlOpen_iff.mp hopen
    exact urlOpen_iff.mpr ⟨head ++ front, c, rest, by rw [htext, List.append_assoc], hc, hall⟩

/-- A user name and a password, as the pattern reads them. -/
structure UrlCredential (user password : List Char) : Prop where
  userChars : ∀ c ∈ user, isUserChar c = true
  user_ne : user ≠ []
  passwordChars : ∀ c ∈ password, isPasswordChar c = true
  password_ne : password ≠ []

/-- What the pattern reads. -/
def urlText (user password : List Char) : List Char :=
  ':' :: '/' :: '/' :: (user ++ ':' :: (password ++ ['@']))

theorem urlText_eq (user password : List Char) :
    urlText user password = (':' :: '/' :: '/' :: (user ++ ':' :: password)) ++ ['@'] := by
  simp [urlText]

/-- The two slashes in front are the only ones. -/
theorem UrlCredential.no_slash {user password : List Char} (h : UrlCredential user password) :
    '/' ∉ user ++ ':' :: (password ++ ['@']) := by
  simp only [List.mem_append, List.mem_cons, List.not_mem_nil, or_false, not_or]
  refine ⟨?_, by decide, ?_, by decide⟩
  · exact fun hmem => Bool.false_ne_true (h.userChars _ hmem)
  · exact fun hmem => Bool.false_ne_true (h.passwordChars _ hmem)

theorem urlCredentialPattern_proper : urlCredentialPattern.Proper := by
  rintro ⟨_, _, h, ⟨c, rfl, _⟩, _⟩
  simp at h

theorem urlCredentialPattern_avoids {c : Char} (h : isPySpace c = true) : urlCredentialPattern.Avoids c := by
  have hne : ∀ d, isPySpace d = false → (d == c) = false := by
    intro d hd
    rw [beq_eq_false_iff_ne]
    rintro rfl
    exact Bool.false_ne_true (hd.symm.trans h)
  have hne' : ∀ d, isPySpace d = false → (c == d) = false := by
    intro d hd
    rw [Bool.beq_comm]
    exact hne d hd
  have huser : isUserChar c = false := by simp [isUserChar, h]
  have hpassword : isPasswordChar c = false := by simp [isPasswordChar, h]
  exact ⟨hne ':' rfl, hne '/' rfl, hne '/' rfl, huser, hne' ':' rfl, hpassword, hne' '@' rfl⟩

/-- The pattern ends where it comes to an `@`. -/
theorem urlCredentialPattern_stops : urlCredentialPattern.Stops '@' := by
  have huser : (group (many 1 isUserChar)).Avoids '@' := (rfl : isUserChar '@' = false)
  have hcolon : (chr (· == ':')).Avoids '@' := (rfl : ('@' == ':') = false)
  have hpassword : (group (many 1 isPasswordChar)).Avoids '@' := (rfl : isPasswordChar '@' = false)
  apply Stops.literal
  · exact huser.stops_seq huser.stops
      (hcolon.stops_seq hcolon.stops (hpassword.stops_seq hpassword.stops (stops_chr _ _)))
  · exact List.all_iff_forall_prop.mp (by decide)

theorem find_url {user password : List Char} (h : UrlCredential user password) (rest : List Char)
    (before : Option Char) :
    urlCredentialPattern.find before (urlText user password ++ rest) = some ⟨some '@', rest, [user, password]⟩ := by
  have hcolon : ∀ c ∈ (':' :: (password ++ '@' :: rest)).head?, isUserChar c = false := by simp [isUserChar]
  have hat : ∀ c ∈ ('@' :: rest).head?, isPasswordChar c = false := by simp [isPasswordChar]
  have huser := first_group (first_many (List.length_pos_iff.mpr h.user_ne) h.userChars hcolon (some '/') [])
  have hpassword := first_group
    (first_many (List.length_pos_iff.mpr h.password_ne) h.passwordChars hat (some ':') [user])
  have hchr : ∀ (d : Char) (before : Option Char) (rest : List Char) (groups : List (List Char)),
      (chr (· == d)).first ⟨before, d :: rest, groups⟩ = some ⟨some d, rest, groups⟩ :=
    fun d => first_chr (beq_self_eq_true d)
  have hend := first_seq huser (first_seq (hchr ':' _ _ _) (first_seq hpassword (hchr '@' _ _ _)))
  have htext : urlText user password ++ rest =
      "://".toList ++ (user ++ ':' :: (password ++ '@' :: rest)) := by
    simp [urlText]
  rw [htext, find, urlCredentialPattern, ends_literal (forall₂_beq_iff.mpr rfl)]
  exact hend

theorem find_url_shape {before : Option Char} {text : List Char} {last : Regex.Place Char}
    (h : urlCredentialPattern.find before text = some last) :
    ∃ user password, UrlCredential user password ∧ text = urlText user password ++ last.rest ∧
      last = ⟨some '@', last.rest, [user, password]⟩ := by
  obtain ⟨found, htext, hreads, -⟩ := reads_of_find h
  obtain ⟨word, _, rfl, hword, user, _, rfl, huser, _, _, rfl, ⟨c, rfl, hc⟩, password, _, rfl, hpassword,
    d, rfl, hd⟩ := reads_literal hreads
  obtain rfl := beq_iff_eq.mp hc
  obtain rfl := beq_iff_eq.mp hd
  obtain rfl := forall₂_beq_iff.mp hword
  have hcredential : UrlCredential user password :=
    ⟨huser.2, List.length_pos_iff.mp huser.1, hpassword.2, List.length_pos_iff.mp hpassword.1⟩
  have hurl : text = urlText user password ++ last.rest := by
    rw [htext]
    simp [urlText]
  refine ⟨user, password, hcredential, hurl, ?_⟩
  rw [hurl, find_url hcredential] at h
  exact (Option.some.inj h).symm

theorem find_url_cons {c : Char} (h : c ≠ ':') (before : Option Char) (text : List Char) :
    urlCredentialPattern.find before (c :: text) = none := by
  rw [Option.eq_none_iff_forall_ne_some]
  intro last hfind
  obtain ⟨user, password, -, htext, -⟩ := find_url_shape hfind
  exact h (List.cons.inj htext).1

/-- No match begins in a text without a colon. -/
theorem silent_url_plain {text : List Char} (h : ':' ∉ text) (before : Option Char) (behind : List Char) :
    urlCredentialPattern.Silent before text behind := by
  rintro left right rfl hright
  obtain ⟨c, right, rfl⟩ := List.exists_cons_of_ne_nil hright
  apply find_url_cons
  rintro rfl
  exact h (by simp)

/-- **More text makes no difference**, where no match goes into it. -/
theorem find_url_append {text more : List Char}
    (h : ∀ user password rest, UrlCredential user password → text ++ more = urlText user password ++ rest →
      more.length ≤ rest.length) (before : Option Char) :
    urlCredentialPattern.find before (text ++ more) =
      (urlCredentialPattern.find before text).map fun last => last.append more := by
  cases hfind : urlCredentialPattern.find before (text ++ more) with
  | none =>
      cases hfind' : urlCredentialPattern.find before text with
      | none => rfl
      | some last =>
          obtain ⟨user, password, hcredential, htext, -⟩ := find_url_shape hfind'
          rw [htext, List.append_assoc, find_url hcredential] at hfind
          cases hfind
  | some last =>
      obtain ⟨user, password, hcredential, htext, hlast⟩ := find_url_shape hfind
      have hlength := h user password last.rest hcredential htext
      obtain ⟨rest, hrest⟩ : more <:+ last.rest := by
        apply List.suffix_of_suffix_length_le (List.suffix_append text more) _ hlength
        exact ⟨urlText user password, htext.symm⟩
      rw [← hrest, ← List.append_assoc] at htext
      rw [List.append_cancel_right htext, find_url hcredential, hlast, ← hrest]
      rfl

section Scan

variable {template : List (List Char) → List Char}

/-- Text without a colon is kept. -/
theorem sub_url_plain {text : List Char} (h : ':' ∉ text) (before : Option Char) :
    urlCredentialPattern.sub template before 0 text = text :=
  (silent_url_plain h before []).sub_eq template

/-- A match that goes from a text into what is behind it. -/
theorem url_into {text more url rest : List Char} (h : text ++ more = url ++ rest) (hlt : ¬ more.length ≤ rest.length) :
    ∃ c middle, more = c :: middle ++ rest ∧ url = text ++ c :: middle := by
  rcases List.append_eq_append_iff.mp h with ⟨middle, hurl, hmore⟩ | ⟨_, -, hrest⟩
  · cases middle with
    | nil => simp [hmore] at hlt
    | cons c middle => exact ⟨c, middle, hmore, hurl⟩
  · simp [hrest] at hlt

/-- A match ends with an `@`. -/
theorem at_last {user password text : List Char} {c : Char} {middle : List Char}
    (h : urlText user password = text ++ c :: middle) : (c :: middle).getLast? = some '@' := by
  have hlast : (urlText user password).getLast? = some '@' := by
    rw [urlText_eq, List.getLast?_concat]
  rw [h, List.getLast?_append_cons] at hlast
  exact hlast

/-- Text without an `@` is replaced by itself. -/
theorem sub_url_append {more : List Char} (h : '@' ∉ more) (text : List Char) (before : Option Char) :
    urlCredentialPattern.sub template before 0 (text ++ more) =
      urlCredentialPattern.sub template before 0 text ++
        urlCredentialPattern.sub template (after before text) 0 more := by
  apply sub_append _ (Nat.zero_le _)
  intro before tail _ _
  apply find_url_append
  intro user password rest _ htext
  by_contra hlt
  obtain ⟨c, middle, rfl, hurl⟩ := url_into htext hlt
  exact h (List.mem_append_left _ (List.mem_of_getLast? (at_last hurl)))

/-- **Where a URL is open, a colon and a password are replaced.** -/
theorem sub_url_open {user password : List Char} (h : UrlCredential user password) (text rest : List Char)
    (before : Option Char) :
    urlCredentialPattern.sub template before 0 (text ++ (urlText user password ++ rest)) =
      urlCredentialPattern.sub template before 0 text ++ (template [user, password] ++
        urlCredentialPattern.sub template (some '@') 0 rest) := by
  have hfind : ∀ before tail, tail <:+ text → tail ≠ [] →
      urlCredentialPattern.find before (tail ++ (urlText user password ++ rest)) =
        (urlCredentialPattern.find before tail).map fun last => last.append (urlText user password ++ rest) := by
    intro before tail _ hne
    apply find_url_append
    intro user' password' rest' hcredential htext
    by_contra hlt
    obtain ⟨c, middle, hmore, hurl⟩ := url_into htext hlt
    -- the match would have the slashes of what is behind in its name or in its password
    obtain ⟨rfl, hbehind⟩ := List.cons.inj hmore
    cases middle with
    | nil => exact absurd (at_last hurl) (by decide)
    | cons d middle =>
        obtain ⟨rfl, -⟩ := List.cons.inj hbehind
        rcases tail with _ | ⟨c₁, _ | ⟨c₂, _ | ⟨c₃, tail⟩⟩⟩
        · exact hne rfl
        · simp [urlText] at hurl
        · simp [urlText] at hurl
        · simp only [urlText, List.cons_append, List.cons.injEq] at hurl
          exact hcredential.no_slash (by simp [hurl.2.2.2])
  have hne : urlText user password ≠ [] := List.cons_ne_nil _ _
  have hafter : ∀ before, after before (urlText user password) = some '@' := by
    intro before
    rw [urlText_eq, after_append]
    rfl
  rw [sub_append hfind (Nat.zero_le _), sub_found hne (find_url h rest _), hafter]

/-- A match of which the last character of the password is behind a text and a colon. -/
theorem urlOpen_of_urlText {user password front text : List Char} {c : Char} (h : UrlCredential user password)
    (hfront : front <:+ text) (hurl : urlText user password = front ++ [':'] ++ [c, '@']) : urlOpen text = true := by
  obtain ⟨start, d, hpassword⟩ : ∃ start d, password = start ++ [d] :=
    ⟨_, _, (List.dropLast_append_getLast h.password_ne).symm⟩
  have hsame : ':' :: '/' :: '/' :: (user ++ ':' :: start) = front ++ [':'] := by
    rw [urlText_eq, hpassword] at hurl
    have hcancel : (':' :: '/' :: '/' :: (user ++ ':' :: start)) ++ [d, '@'] = front ++ [':'] ++ [c, '@'] := by
      simpa using hurl
    exact (List.append_inj' hcancel rfl).1
  obtain ⟨u, user, rfl⟩ := List.exists_cons_of_ne_nil h.user_ne
  have hu := isUserChar_iff.mp (h.userChars u List.mem_cons_self)
  rcases front with _ | ⟨c₁, _ | ⟨c₂, _ | ⟨c₃, _ | ⟨c₄, front⟩⟩⟩⟩
  · simp at hsame
  · simp at hsame
  · simp at hsame
  · simp [hu.1] at hsame
  · simp only [List.cons_append, List.cons.injEq] at hsame
    obtain ⟨rfl, rfl, rfl, rfl, hrest⟩ := hsame
    obtain ⟨head, rfl⟩ := hfront
    refine urlOpen_iff.mpr ⟨head, u, front, rfl, hu.1, ?_⟩
    have hall : ∀ e ∈ user ++ ':' :: start, isPasswordChar e = true := by
      intro e he
      rcases List.mem_append.mp he with he | he
      · exact isPasswordChar_of_isUserChar (h.userChars e (List.mem_cons_of_mem _ he))
      · rcases List.mem_cons.mp he with rfl | he
        · rfl
        · exact h.passwordChars e (by simp [hpassword, he])
    rw [hrest] at hall
    exact List.forall_mem_cons.mpr ⟨hu.2, fun e he => hall e (List.mem_append_left _ he)⟩

/-- Where no URL is open, a colon and a character behind it are kept. -/
theorem sub_url_closed {text : List Char} (h : urlOpen text = false) {c : Char} (hcolon : c ≠ ':') (hat : c ≠ '@')
    (before : Option Char) :
    urlCredentialPattern.sub template before 0 (text ++ [':'] ++ [c, '@']) =
      urlCredentialPattern.sub template before 0 (text ++ [':']) ++ [c, '@'] := by
  have hfind : ∀ before tail, tail <:+ text ++ [':'] → tail ≠ [] →
      urlCredentialPattern.find before (tail ++ [c, '@']) =
        (urlCredentialPattern.find before tail).map fun last => last.append [c, '@'] := by
    intro before tail htail hne
    apply find_url_append
    intro user password rest hcredential htext
    by_contra hlt
    obtain ⟨d, middle, hmore, hurl⟩ := url_into htext hlt
    obtain ⟨rfl, hbehind⟩ := List.cons.inj hmore
    cases middle with
    | nil => exact hat (by simpa using at_last hurl)
    | cons d middle =>
        obtain ⟨rfl, hnil⟩ := List.cons.inj hbehind
        obtain ⟨rfl, -⟩ := List.append_eq_nil_iff.mp hnil.symm
        obtain ⟨front, rfl⟩ : [':'] <:+ tail := by
          apply List.suffix_of_suffix_length_le (List.suffix_append text [':']) htail
          exact List.length_pos_iff.mpr hne
        have hfront : front <:+ text := by
          obtain ⟨head, hhead⟩ := htail
          exact ⟨head, List.append_cancel_right ((List.append_assoc _ _ _).trans hhead)⟩
        exact Bool.false_ne_true (h.symm.trans (urlOpen_of_urlText hcredential hfront hurl))
  have hplain : ':' ∉ [c, '@'] := by simp [Ne.symm hcolon]
  rw [sub_append hfind (Nat.zero_le _), sub_url_plain hplain]

end Scan

/-- A replacement that opens no URL. -/
structure Spares (regex : Regex Char) (word : List Char) : Prop where
  proper : regex.Proper
  avoids_colon : regex.Avoids ':'
  no_colon : ':' ∉ word
  no_slash : '/' ∉ word
  ne_nil : word ≠ []
  passwordChars : (∀ c ∈ word, isPasswordChar c = true) →
    ∀ text, regex.Reads text → ∀ c ∈ text, isPasswordChar c = true

namespace Spares

variable {regex : Regex Char} {word : List Char}

theorem sub_passwordChars (h : Spares regex word) {before : Option Char} {skip : Nat} {text : List Char}
    (hsub : ∀ c ∈ regex.sub (fun _ => word) before skip text, isPasswordChar c = true) :
    ∀ c ∈ text.drop skip, isPasswordChar c = true := by
  induction text generalizing before skip with
  | nil => simp
  | cons d text ih =>
      cases skip with
      | succ skip => exact ih hsub
      | zero =>
          rw [sub] at hsub
          rw [List.drop_zero]
          cases hfind : regex.find before (d :: text) with
          | none =>
              simp only [hfind, List.forall_mem_cons] at hsub
              exact List.forall_mem_cons.mpr ⟨hsub.1, ih hsub.2⟩
          | some last =>
              simp only [hfind, List.forall_mem_append] at hsub
              obtain ⟨found, htext, hreads, -⟩ := reads_of_find hfind
              have hbehind := ih hsub.2
              have hfound := h.passwordChars hsub.1 found hreads
              cases found with
              | nil => exact absurd hreads h.proper
              | cons e found =>
                  obtain ⟨rfl, htext'⟩ := List.cons.inj htext
                  have hdrop : text.drop (text.length - last.rest.length) = last.rest := by
                    rw [htext']
                    simp
                  rw [hdrop] at hbehind
                  rw [htext]
                  exact List.forall_mem_append.mpr ⟨hfound, hbehind⟩

theorem sub_slash (h : Spares regex word) {before : Option Char} {text out : List Char}
    (hsub : regex.sub (fun _ => word) before 0 text = '/' :: out) :
    ∃ rest, text = '/' :: rest ∧ regex.sub (fun _ => word) (some '/') 0 rest = out := by
  obtain ⟨c, rest, hword⟩ := List.exists_cons_of_ne_nil h.ne_nil
  have hhead : ∀ groups : List (List Char), word.head? = some c := fun _ => by rw [hword, List.head?_cons]
  have hslash : c ∉ ['/'] := by
    rw [List.mem_singleton]
    rintro rfl
    exact h.no_slash (by simp [hword])
  exact kept_of_head hhead hslash hsub

/-- **A URL that is open after the replacement was open before it.** -/
theorem urlOpen_of_sub (h : Spares regex word) {before : Option Char} {skip : Nat} {text : List Char}
    (hopen : urlOpen (regex.sub (fun _ => word) before skip text) = true) : urlOpen text = true := by
  induction text generalizing before skip with
  | nil => simp [sub, urlOpen] at hopen
  | cons c text ih =>
      rw [urlOpen, Bool.or_eq_true]
      cases skip with
      | succ skip => exact .inr (ih hopen)
      | zero =>
          rw [sub] at hopen
          cases hfind : regex.find before (c :: text) with
          | none =>
              rw [hfind] at hopen
              dsimp only at hopen
              rw [urlOpen, Bool.or_eq_true] at hopen
              refine hopen.imp ?_ ih
              intro hopens
              obtain ⟨d, rest, hsub, hd, hall⟩ := opensUrl_iff.mp hopens
              obtain ⟨rfl, hsub⟩ := List.cons.inj hsub
              obtain ⟨behind, rfl, hbehind⟩ := h.sub_slash hsub
              obtain ⟨user, rfl, huser⟩ := h.sub_slash hbehind
              rw [← huser] at hall
              have hall' := h.sub_passwordChars hall
              cases user with
              | nil => simp [sub] at huser
              | cons e user =>
                  refine opensUrl_iff.mpr ⟨e, user, rfl, ?_, hall'⟩
                  rintro rfl
                  rw [h.avoids_colon.sub_head h.proper] at huser
                  exact hd (List.cons.inj huser).1.symm
          | some last =>
              rw [hfind] at hopen
              exact .inr (ih (urlOpen_append_right h.no_colon hopen))

end Spares

end GpuInference
