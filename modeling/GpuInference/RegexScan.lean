import GpuInference.RegexMatch

/-!
The scan of a text. A substitution comes to one place after the other, past every match. Where no match begins nothing is
replaced; `silent_sub` is the rule for what a substitution has written: no match of another expression begins in it, if
none begins in the words that are written and none in the text that is kept.
-/

namespace Regex

variable {α : Type}

/-- Behind some text, what was before it makes no difference. -/
theorem after_of_ne_nil {text : List α} (h : text ≠ []) (before before' : Option α) :
    after before text = after before' text := by
  obtain ⟨c, text, rfl⟩ := List.exists_cons_of_ne_nil h
  rfl

/-- No boundary is in the expression. What is around a text makes no difference to whether it is read. -/
def Free : Regex α → Prop
  | chr _ => True
  | many _ _ => True
  | seq first second => first.Free ∧ second.Free
  | alt first second => first.Free ∧ second.Free
  | group body => body.Free
  | boundary _ => False

theorem Free.literal {same : α → α → Bool} {next : Regex α} (h : next.Free) (word : List α) :
    (literal same word next).Free := by
  induction word with
  | nil => exact h
  | cons c word ih => exact ⟨trivial, ih⟩

theorem literal_reads {same : α → α → Bool} {word left right : List α} {next : Regex α}
    (h : List.Forall₂ (fun c d => same c d = true) word left) (hnext : next.Reads right) :
    (literal same word next).Reads (left ++ right) := by
  induction h with
  | nil => exact hnext
  | @cons c d word left hsame _ ih => exact ⟨[d], left ++ right, rfl, ⟨d, rfl, hsame⟩, ih⟩

theorem mem_manyEnds {accepts : α → Bool} {text : List α} (h : ∀ c ∈ text, accepts c = true) {least : Nat}
    (hleast : least ≤ text.length) (before : Option α) (rest : List α) (groups : List (List α)) :
    (⟨after before text, rest, groups⟩ : Place α) ∈ manyEnds accepts groups least before (text ++ rest) := by
  induction text generalizing least before with
  | nil =>
      obtain rfl : least = 0 := Nat.le_zero.mp hleast
      cases rest <;> simp [manyEnds]
  | cons c text ih =>
      rw [List.forall_mem_cons] at h
      rw [List.cons_append, manyEnds, if_pos h.1]
      apply List.mem_append_left
      rw [after_cons]
      apply ih h.2
      rw [List.length_cons] at hleast
      omega

/-- A text that is read leads to an end behind it. -/
theorem mem_ends_of_reads {self : Regex α} (hfree : self.Free) {text : List α} (h : self.Reads text) (before : Option α)
    (rest : List α) (groups : List (List α)) :
    ∃ groups', ⟨after before text, rest, groups'⟩ ∈ self.ends ⟨before, text ++ rest, groups⟩ := by
  induction self generalizing text before rest groups with
  | chr accepts =>
      obtain ⟨c, rfl, haccepts⟩ := h
      exact ⟨groups, by simp [ends, haccepts]⟩
  | many least accepts => exact ⟨groups, mem_manyEnds h.2 h.1 before rest groups⟩
  | seq first second ihfirst ihsecond =>
      obtain ⟨left, right, rfl, hleft, hright⟩ := h
      obtain ⟨middle, hmiddle⟩ := ihfirst hfree.1 hleft before (right ++ rest) groups
      obtain ⟨last, hlast⟩ := ihsecond hfree.2 hright (after before left) rest middle
      rw [List.append_assoc, after_append]
      exact ⟨last, List.mem_flatMap.mpr ⟨_, hmiddle, hlast⟩⟩
  | alt first second ihfirst ihsecond =>
      rcases h with h | h
      · obtain ⟨last, hlast⟩ := ihfirst hfree.1 h before rest groups
        exact ⟨last, List.mem_append_left _ hlast⟩
      · obtain ⟨last, hlast⟩ := ihsecond hfree.2 h before rest groups
        exact ⟨last, List.mem_append_right _ hlast⟩
  | group body ih =>
      obtain ⟨last, hlast⟩ := ih hfree h before rest groups
      exact ⟨_, List.mem_map.mpr ⟨_, hlast, rfl⟩⟩
  | boundary isWord => exact hfree.elim

/-- **There is a match** exactly where the expression reads the beginning of the text. -/
theorem find_eq_none_iff {self : Regex α} (hfree : self.Free) {before : Option α} {text : List α} :
    self.find before text = none ↔ ∀ left right, text = left ++ right → ¬ self.Reads left := by
  rw [find, List.head?_eq_none_iff, List.eq_nil_iff_forall_not_mem]
  constructor
  · rintro hnone left right rfl hreads
    obtain ⟨groups, hends⟩ := mem_ends_of_reads hfree hreads before right []
    exact hnone _ hends
  · intro hnone last hlast
    obtain ⟨left, htext, hreads, -⟩ := reads_of_ends hlast
    exact hnone left last.rest htext hreads

theorem find_none_before {self : Regex α} (hfree : self.Free) {before : Option α} {text : List α}
    (h : self.find before text = none) (before' : Option α) : self.find before' text = none :=
  (find_eq_none_iff hfree).mpr ((find_eq_none_iff hfree).mp h)

/-- A word in a text: it begins and ends where characters of words and others meet. -/
def bounded (isWord : α → Bool) (body : Regex α) : Regex α := .seq (.boundary isWord) (.seq body (.boundary isWord))

theorem mem_ends_seq {first second : Regex α} {place last : Place α} :
    last ∈ (seq first second).ends place ↔ ∃ middle ∈ first.ends place, last ∈ second.ends middle := List.mem_flatMap

theorem mem_ends_boundary {isWord : α → Bool} {place last : Place α} :
    last ∈ (boundary isWord).ends place ↔ place.before.any isWord ≠ place.rest.head?.any isWord ∧ last = place := by
  rw [ends]
  split
  · rename_i hboundary
    simp [hboundary]
  · rename_i hboundary
    simp [hboundary]

theorem mem_ends_bounded {isWord : α → Bool} {body : Regex α} {place last : Place α} :
    last ∈ (bounded isWord body).ends place ↔
      place.before.any isWord ≠ place.rest.head?.any isWord ∧ last ∈ body.ends place ∧
        last.before.any isWord ≠ last.rest.head?.any isWord := by
  simp only [bounded, mem_ends_seq, mem_ends_boundary]
  constructor
  · rintro ⟨_, ⟨hstart, rfl⟩, _, hbody, hend, rfl⟩
    exact ⟨hstart, hbody, hend⟩
  · rintro ⟨hstart, hbody, hend⟩
    exact ⟨_, ⟨hstart, rfl⟩, _, hbody, hend, rfl⟩

/-- **There is a bounded match** exactly where the body reads a word of the text. -/
theorem find_bounded_eq_none_iff {isWord : α → Bool} {body : Regex α} (hfree : body.Free) {before : Option α}
    {text : List α} : (bounded isWord body).find before text = none ↔
      ∀ left right, text = left ++ right → body.Reads left → before.any isWord ≠ text.head?.any isWord →
        (after before left).any isWord = right.head?.any isWord := by
  rw [find, List.head?_eq_none_iff, List.eq_nil_iff_forall_not_mem]
  constructor
  · rintro hnone left right rfl hreads hstart
    by_contra hend
    obtain ⟨groups, hbody⟩ := mem_ends_of_reads hfree hreads before right []
    exact hnone _ (mem_ends_bounded.mpr ⟨hstart, hbody, hend⟩)
  · intro hnone last hlast
    obtain ⟨hstart, hbody, hend⟩ := mem_ends_bounded.mp hlast
    obtain ⟨left, htext, hreads, hbefore⟩ := reads_of_ends hbody
    rw [hbefore] at hend
    exact hend (hnone left last.rest htext hreads hstart)

/-- **The induction of a scan**: a character at which no match begins, or a match. -/
theorem scan_induction {self : Regex α} (hproper : self.Proper) {motive : Option α → List α → Prop}
    (nil : ∀ before, motive before [])
    (keep : ∀ before c rest, self.find before (c :: rest) = none → motive (some c) rest → motive before (c :: rest))
    (found : ∀ before found rest groups, found ≠ [] →
      self.find before (found ++ rest) = some ⟨after before found, rest, groups⟩ →
      motive (after before found) rest → motive before (found ++ rest))
    (before : Option α) (text : List α) : motive before text := by
  induction hlength : text.length using Nat.strong_induction_on generalizing before text with
  | _ length ih =>
      subst hlength
      cases text with
      | nil => exact nil before
      | cons c rest =>
          cases hfind : self.find before (c :: rest) with
          | none => exact keep before c rest hfind (ih _ (Nat.lt_succ_self _) (some c) rest rfl)
          | some last =>
              obtain ⟨matched, htext, hreads, hbefore⟩ := reads_of_find hfind
              have hne : matched ≠ [] := by
                rintro rfl
                exact hproper hreads
              have hlast : last = ⟨after before matched, last.rest, last.groups⟩ := Place.ext hbefore rfl rfl
              have hlt : last.rest.length < (c :: rest).length := by
                have hpos := List.length_pos_iff.mpr hne
                rw [htext, List.length_append]
                omega
              rw [htext, hlast] at hfind
              rw [htext]
              exact found before matched last.rest last.groups hne hfind (ih _ hlt _ last.rest rfl)

/-- No match begins in a text that `behind` follows. -/
def Silent (self : Regex α) (before : Option α) (text behind : List α) : Prop :=
  ∀ left right, text = left ++ right → right ≠ [] → self.find (after before left) (right ++ behind) = none

/-- In this text, a match of the expression begins only where one of another expression does. -/
def Within (self other : Regex α) (before : Option α) (text : List α) : Prop :=
  ∀ left right, text = left ++ right → right ≠ [] → other.find (after before left) right = none →
    self.find (after before left) right = none

section Places

variable {self other : Regex α} {before : Option α}

theorem silent_nil (behind : List α) : self.Silent before [] behind := by
  intro left right htext hright
  exact absurd (List.append_eq_nil_iff.mp htext.symm).2 hright

theorem silent_cons {c : α} {text behind : List α} : self.Silent before (c :: text) behind ↔
    self.find before (c :: (text ++ behind)) = none ∧ self.Silent (some c) text behind := by
  constructor
  · intro h
    refine ⟨h [] (c :: text) rfl (List.cons_ne_nil c text), ?_⟩
    rintro left right rfl hright
    exact h (c :: left) right rfl hright
  · rintro ⟨hhead, hbehind⟩ left right htext hright
    cases left with
    | nil =>
        rw [List.nil_append] at htext
        rwa [← htext]
    | cons d left =>
        obtain ⟨rfl, rfl⟩ := List.cons.inj htext
        exact hbehind left right rfl hright

theorem silent_append {left right behind : List α} : self.Silent before (left ++ right) behind ↔
    self.Silent before left (right ++ behind) ∧ self.Silent (after before left) right behind := by
  induction left generalizing before with
  | nil => exact ⟨fun h => ⟨silent_nil _, h⟩, fun h => h.2⟩
  | cons c left ih => rw [List.cons_append, silent_cons, silent_cons, ih, List.append_assoc, and_assoc, after_cons]

/-- Where no match begins, nothing is replaced. -/
theorem Silent.sub_eq (h : self.Silent before text []) (template : List (List α) → List α) :
    self.sub template before 0 text = text := by
  have hkeeps : self.sub template before 0 (text ++ []) = text ++ self.sub template (after before text) 0 [] :=
    sub_keeps h
  simpa [sub] using hkeeps

theorem within_rfl (text : List α) : self.Within self before text := fun _ _ _ _ hnone => hnone

theorem Silent.within {text : List α} (h : self.Silent before text []) : self.Within other before text := by
  intro left right htext hright _
  have hnone := h left right htext hright
  rwa [List.append_nil] at hnone

theorem Within.here {text : List α} (h : self.Within other before text) (hne : text ≠ [])
    (hnone : other.find before text = none) : self.find before text = none :=
  h [] text rfl hne hnone

theorem Within.behind {left right : List α} (h : self.Within other before (left ++ right)) :
    self.Within other (after before left) right := by
  rintro front back rfl hne hnone
  rw [← after_append] at hnone ⊢
  exact h (left ++ front) back (List.append_assoc _ _ _).symm hne hnone

/-- What lies behind a character that the expression avoids makes no difference. -/
theorem Avoids.silent {e : α} (h : self.Avoids e) {text right : List α} (hsilent : self.Silent before text (e :: right))
    (right' : List α) : self.Silent before text (e :: right') := by
  intro left tail htext htail
  have hnone := hsilent left tail htext htail
  rw [find, h.stops, List.head?_map, Option.map_eq_none_iff] at hnone ⊢
  exact hnone

end Places

section Written

variable {self other : Regex α} {template : List (List α) → List α} {before : Option α}

/-- The beginning of what is written, if no written word begins in it, is text that has been kept. -/
theorem kept_of_sub {text kept rest : List α} (h : other.sub template before 0 text = kept ++ rest)
    (hword : ∀ left right, kept = left ++ right → right ≠ [] → ∀ groups, ¬ template groups <+: right ++ rest) :
    ∃ behind, text = kept ++ behind ∧ other.sub template (after before kept) 0 behind = rest := by
  induction kept generalizing before text with
  | nil => exact ⟨text, rfl, h⟩
  | cons c kept ih =>
      cases text with
      | nil => simp [sub] at h
      | cons d text =>
          cases hfind : other.find before (d :: text) with
          | none =>
              rw [sub_keep hfind] at h
              obtain ⟨rfl, hrest⟩ := List.cons.inj h
              have hword' : ∀ left right, kept = left ++ right → right ≠ [] →
                  ∀ groups, ¬ template groups <+: right ++ rest := by
                rintro left right rfl
                exact hword (d :: left) right rfl
              obtain ⟨behind, rfl, hbehind⟩ := ih hrest hword'
              exact ⟨behind, rfl, hbehind⟩
          | some last =>
              rw [sub, hfind] at h
              exact absurd ⟨_, h⟩ (hword [] (c :: kept) rfl (List.cons_ne_nil c kept) last.groups)

/-- All written words begin with one character, which is not in it. -/
theorem kept_of_head {text kept rest : List α} {e : α} (hhead : ∀ groups, (template groups).head? = some e)
    (hkept : e ∉ kept) (h : other.sub template before 0 text = kept ++ rest) :
    ∃ behind, text = kept ++ behind ∧ other.sub template (after before kept) 0 behind = rest := by
  apply kept_of_sub h
  rintro left right rfl hright groups hword
  obtain ⟨word, hword'⟩ := List.head?_eq_some_iff.mp (hhead groups)
  obtain ⟨c, right, rfl⟩ := List.exists_cons_of_ne_nil hright
  rw [hword', List.cons_append, List.cons_prefix_cons] at hword
  exact hkept (by simp [hword.1])

/-- What is written begins with the first character of the text, if every written word does so. -/
theorem head_sub (hhead : ∀ before found rest groups, found ≠ [] →
      other.find before (found ++ rest) = some ⟨after before found, rest, groups⟩ →
      template groups ≠ [] ∧ (template groups).head? = found.head?) (hproper : other.Proper) (text : List α) :
    (other.sub template before 0 text).head? = text.head? := by
  induction before, text using scan_induction hproper with
  | nil before => rfl
  | keep before c rest hfind _ => rw [sub_keep hfind, List.head?_cons, List.head?_cons]
  | found before found rest groups hne hfind _ =>
      obtain ⟨hne', hsame⟩ := hhead before found rest groups hne hfind
      rw [sub_found hne hfind, List.head?_append_of_ne_nil _ hne', List.head?_append_of_ne_nil _ hne, hsame]

/-- **A match goes through no written word** that begins with a character the expression avoids. -/
theorem Avoids.find_sub {e : α} (h : self.Avoids e) (hfree : self.Free)
    (hhead : ∀ groups, (template groups).head? = some e) {text : List α} (hnone : self.find before text = none)
    (before' before'' : Option α) : self.find before' (other.sub template before'' 0 text) = none := by
  rw [find_eq_none_iff hfree]
  intro left right hsub hreads
  obtain ⟨behind, rfl, -⟩ := kept_of_head hhead (h.not_mem hreads) hsub
  exact (find_eq_none_iff hfree).mp hnone left behind rfl hreads

/-- **No match begins in what a substitution has written**, if none begins where text is kept (`hkeep`), in a written
word (`hword`), or behind a written word where none begins behind what it replaces (`hbehind`). -/
theorem silent_sub (hproper : other.Proper)
    (hkeep : ∀ before c rest, other.find before (c :: rest) = none → self.find before (c :: rest) = none →
      self.find before (c :: other.sub template (some c) 0 rest) = none)
    (hword : ∀ before before' found rest groups,
      other.find before (found ++ rest) = some ⟨after before found, rest, groups⟩ →
      self.Within other before (found ++ rest) → ∀ behind, self.Silent before' (template groups) behind)
    (hbehind : ∀ before before' found c rest groups behind,
      other.find before (found ++ c :: rest) = some ⟨after before found, c :: rest, groups⟩ →
      self.find (after before found) (c :: behind) = none →
      self.find (after before' (template groups)) (c :: behind) = none)
    {text : List α} (h : self.Within other before text) :
    self.Silent before (other.sub template before 0 text) [] := by
  -- the character before may be another one in what is written, right behind a word
  suffices hall : ∀ before' : Option α,
      (∀ c rest behind, text = c :: rest → self.find before (c :: behind) = none →
        self.find before' (c :: behind) = none) →
      self.Within other before text → self.Silent before' (other.sub template before 0 text) [] from
    hall before (fun _ _ _ _ hnone => hnone) h
  clear h
  induction before, text using scan_induction hproper with
  | nil before =>
      intro _ _ _
      exact silent_nil []
  | keep before c rest hfind ih =>
      intro before' hbefore hwithin
      have hnone := hwithin.here (List.cons_ne_nil c rest) hfind
      rw [sub_keep hfind, silent_cons, List.append_nil]
      have hrest : self.Within other before ([c] ++ rest) := hwithin
      exact ⟨hbefore c rest _ rfl (hkeep before c rest hfind hnone), ih _ (fun _ _ _ _ hnone => hnone) hrest.behind⟩
  | found before found rest groups hne hfind ih =>
      intro before' hbefore hwithin
      rw [sub_found hne hfind, silent_append]
      refine ⟨hword before before' found rest groups hfind hwithin _, ih _ ?_ hwithin.behind⟩
      rintro c rest' behind rfl hnone
      exact hbehind before before' found c rest' groups behind hfind hnone

/-- **A substitution makes no match of an expression that avoids the first character of every written word**, and of
which no match begins in a written word. -/
theorem Avoids.silent_sub {e : α} (havoid : self.Avoids e) (hfree : self.Free) (hproper : other.Proper)
    (hhead : ∀ groups, (template groups).head? = some e)
    (hword : ∀ before before' found rest groups,
      other.find before (found ++ rest) = some ⟨after before found, rest, groups⟩ →
      ∀ behind, self.Silent before' (template groups) behind)
    {text : List α} (h : self.Silent before text []) : self.Silent before (other.sub template before 0 text) [] := by
  apply Regex.silent_sub hproper
  · intro before c rest hfind hnone
    have hsub : self.find before (other.sub template before 0 (c :: rest)) = none :=
      havoid.find_sub hfree hhead hnone before before
    rwa [sub_keep hfind] at hsub
  · intro before before' found rest groups hfind _
    exact hword before before' found rest groups hfind
  · intro before before' found c rest groups behind _ hnone
    exact find_none_before hfree hnone _
  · exact h.within

end Written

end Regex
