import GpuInference.EffectBlock
import GpuInference.EffectTrace

/-!
Runs in which every call that raises raises an exception of a given kind, which may depend on the call. A protocol is
made calm by one more phase, which a call that raises anything else leads to and in which nothing is claimed; so only
the calls that raise an exception of their kind have to be considered.
-/

namespace Effect

variable {Op : Type} {Res : Op → Type} {Exc α β σ Φ : Type}

/-- The protocol up to the first call that raises an exception of another kind. -/
def Protocol.calm (protocol : Protocol Op Res Exc Φ) (kind : Op → Exc → Bool) : Protocol Op Res Exc (Option Φ) where
  may
    | none, _ => True
    | some φ, op => protocol.may φ op
  after
    | none, _, _ => none
    | some φ, op, .ok value => some (protocol.after φ op (.ok value))
    | some φ, op, .error exc => if kind op exc then some (protocol.after φ op (.error exc)) else none

/-- What is claimed of the end of a program in a calm run. -/
def calmDone (done : Φ → Except Exc α → Prop) (ψ : Option Φ) (outcome : Except Exc α) : Prop :=
  ∀ φ, ψ = some φ → done φ outcome

variable {protocol : Protocol Op Res Exc Φ} {kind : Op → Exc → Bool}

theorem phase_calm {φ : Φ} {calls : List (Event Op Res Exc)} (h : RaisesOnly kind calls) :
    (protocol.calm kind).phase (some φ) calls = some (protocol.phase φ calls) := by
  induction calls generalizing φ with
  | nil => rfl
  | cons event calls ih =>
      obtain ⟨op, answer⟩ := event
      have hrest : RaisesOnly kind calls := h.mono (List.subset_cons_self _ _)
      rw [Protocol.phase_cons, Protocol.phase_cons]
      cases answer with
      | ok value => exact ih hrest
      | error exc =>
          have hkind : kind op exc = true := h _ List.mem_cons_self exc rfl
          simp only [Protocol.calm, hkind, if_true]
          exact ih hrest

theorem keeps_of_calm {φ : Φ} {calls : List (Event Op Res Exc)} (h : RaisesOnly kind calls)
    (hkeeps : (protocol.calm kind).Keeps (some φ) calls) : protocol.Keeps φ calls := by
  intro left event right heq
  have hleft : RaisesOnly kind left := by
    rw [heq] at h
    exact h.mono (List.subset_append_left _ _)
  have hmay := hkeeps left event right heq
  rw [phase_calm hleft] at hmay
  exact hmay

/-- **The trace rule for calm runs.** -/
theorem Program.Follows.calm_traces {done : Φ → Except Exc α → Prop} {body : Program Op Res Exc α} {φ : Φ}
    (h : body.Follows (protocol.calm kind) (calmDone done) (some φ)) {calls : List (Event Op Res Exc)}
    {outcome : Except Exc α} (htraces : body.Traces calls outcome) (hraises : RaisesOnly kind calls) :
    protocol.Keeps φ calls ∧ done (protocol.phase φ calls) outcome := by
  obtain ⟨hkeeps, hdone⟩ := h.traces htraces
  exact ⟨keeps_of_calm hraises hkeeps, hdone _ (phase_calm hraises)⟩

namespace Program

/-- After another exception nothing is claimed. -/
theorem follows_calm_none {done : Option Φ → Except Exc α → Prop} (hdone : ∀ outcome, done none outcome)
    (body : Program Op Res Exc α) : body.Follows (protocol.calm kind) done none := by
  apply follows_of_stays
  · intro op
    trivial
  · intro op answer
    rfl
  · exact hdone

theorem calmDone_none (done : Φ → Except Exc α → Prop) (outcome : Except Exc α) : calmDone done none outcome := by
  intro φ h
  cases h

theorem calmDone_some {done : Φ → Except Exc α → Prop} {φ : Φ} {outcome : Except Exc α} (h : done φ outcome) :
    calmDone done (some φ) outcome := by
  intro ψ hψ
  cases hψ
  exact h

/-- A call that raises, at the end of a program. -/
theorem calmDone_error {done : Φ → Except Exc α → Prop} {φ : Φ} {op : Op} {exc : Exc} {outcome : Except Exc α}
    (h : done (protocol.after φ op (.error exc)) outcome) :
    calmDone done ((protocol.calm kind).after (some φ) op (.error exc)) outcome := by
  simp only [Protocol.calm]
  split
  · exact calmDone_some h
  · exact calmDone_none done outcome

/-- One call, from which the program goes on with the answer. -/
theorem follows_calm_call {done : Φ → Except Exc α → Prop} {φ : Φ} {op : Op}
    {next : Except Exc (Res op) → Program Op Res Exc α} (hmay : protocol.may φ op)
    (hok : ∀ value, (next (.ok value)).Follows (protocol.calm kind) (calmDone done)
      (some (protocol.after φ op (.ok value))))
    (herror : ∀ exc, kind op exc = true → (next (.error exc)).Follows (protocol.calm kind) (calmDone done)
      (some (protocol.after φ op (.error exc)))) :
    (Program.call op next).Follows (protocol.calm kind) (calmDone done) (some φ) := by
  refine ⟨hmay, ?_⟩
  intro answer
  cases answer with
  | ok value => exact hok value
  | error exc =>
      simp only [Protocol.calm]
      split
      · rename_i hkind
        exact herror exc hkind
      · exact follows_calm_none (calmDone_none done) _

theorem follows_calm_perform_bind {done : Φ → Except Exc β → Prop} {φ : Φ} {op : Op}
    {rest : Res op → Program Op Res Exc β} (hmay : protocol.may φ op)
    (herror : ∀ exc, kind op exc = true → done (protocol.after φ op (.error exc)) (.error exc))
    (hok : ∀ value, (rest value).Follows (protocol.calm kind) (calmDone done)
      (some (protocol.after φ op (.ok value)))) :
    ((perform op).bind rest).Follows (protocol.calm kind) (calmDone done) (some φ) := by
  apply follows_calm_call hmay hok
  intro exc hkind
  exact calmDone_some (herror exc hkind)

theorem follows_calm_perform {φ : Φ} {op : Op} {done : Φ → Except Exc (Res op) → Prop} (hmay : protocol.may φ op)
    (herror : ∀ exc, kind op exc = true → done (protocol.after φ op (.error exc)) (.error exc))
    (hok : ∀ value, done (protocol.after φ op (.ok value)) (.ok value)) :
    (perform op : Program Op Res Exc (Res op)).Follows (protocol.calm kind) (calmDone done) (some φ) := by
  apply follows_calm_call hmay
  · intro value
    exact calmDone_some (hok value)
  · intro exc hkind
    exact calmDone_some (herror exc hkind)

/-- A sequence, by what its first part ends with. -/
theorem follows_calm_bind {first : Φ → Except Exc α → Prop} {done : Φ → Except Exc β → Prop} {φ : Φ}
    {body : Program Op Res Exc α} {rest : α → Program Op Res Exc β}
    (h : body.Follows (protocol.calm kind) (calmDone first) (some φ))
    (herror : ∀ ψ exc, first ψ (.error exc) → done ψ (.error exc))
    (hok : ∀ ψ value, first ψ (.ok value) →
      (rest value).Follows (protocol.calm kind) (calmDone done) (some ψ)) :
    (body.bind rest).Follows (protocol.calm kind) (calmDone done) (some φ) := by
  rw [follows_bind]
  apply h.mono
  intro ψ outcome hfirst
  cases ψ with
  | none =>
      cases outcome with
      | ok value => exact follows_calm_none (calmDone_none done) _
      | error exc => exact calmDone_none done _
  | some ψ =>
      cases outcome with
      | ok value => exact hok ψ value (hfirst ψ rfl)
      | error exc => exact calmDone_some (herror ψ exc (hfirst ψ rfl))

/-- A `try` with a handler, by what its body ends with. -/
theorem follows_calm_tryExcept {first done : Φ → Except Exc α → Prop} {φ : Φ} {catches : Exc → Bool}
    {body : Program Op Res Exc α} {handler : Exc → Program Op Res Exc α}
    (h : body.Follows (protocol.calm kind) (calmDone first) (some φ))
    (hok : ∀ ψ value, first ψ (.ok value) → done ψ (.ok value))
    (herror : ∀ ψ exc, first ψ (.error exc) → catches exc = true →
      (handler exc).Follows (protocol.calm kind) (calmDone done) (some ψ))
    (hother : ∀ ψ exc, first ψ (.error exc) → catches exc = false → done ψ (.error exc)) :
    (tryExcept catches body handler).Follows (protocol.calm kind) (calmDone done) (some φ) := by
  rw [follows_tryExcept]
  apply h.mono
  intro ψ outcome hfirst
  cases outcome with
  | ok value =>
      intro χ hχ
      subst hχ
      exact hok χ value (hfirst χ rfl)
  | error exc =>
      simp only [exceptDone]
      cases ψ with
      | none =>
          split
          · exact follows_calm_none (calmDone_none done) _
          · exact calmDone_none done _
      | some ψ =>
          split
          · rename_i hcatches
            exact herror ψ exc (hfirst ψ rfl) hcatches
          · rename_i hcatches
            exact calmDone_some (hother ψ exc (hfirst ψ rfl) (by simpa using hcatches))

/-- A call whose value is dropped, with a handler for all exceptions of its kind. -/
theorem follows_calm_dropped {done : Φ → Except Exc Unit → Prop} {φ : Φ} {op : Op} {catches : Exc → Bool}
    (hcatches : ∀ exc, kind op exc = true → catches exc = true) (hmay : protocol.may φ op)
    (hdone : ∀ answer, done (protocol.after φ op answer) (.ok ())) :
    (tryExcept catches ((perform op).bind fun _ => ret ()) fun _ => ret ()).Follows
      (protocol.calm kind) (calmDone done) (some φ) := by
  apply follows_calm_call hmay
  · intro value
    exact calmDone_some (hdone (.ok value))
  · intro exc hkind
    simp only [bind, tryExcept, hcatches exc hkind, if_true]
    exact calmDone_some (hdone (.error exc))

/-- A `try` with a `finally` block, by what its body ends with. -/
theorem follows_calm_tryFinally {first done : Φ → Except Exc α → Prop} {φ : Φ} {body : Program Op Res Exc α}
    {final : Program Op Res Exc Unit} (h : body.Follows (protocol.calm kind) (calmDone first) (some φ))
    (hfinal : ∀ ψ outcome, first ψ outcome →
      final.Follows (protocol.calm kind) (calmDone (finallyDone done outcome)) (some ψ)) :
    (tryFinally body final).Follows (protocol.calm kind) (calmDone done) (some φ) := by
  rw [follows_tryFinally]
  apply h.mono
  intro ψ outcome hfirst
  cases ψ with
  | none =>
      apply follows_calm_none
      intro left
      cases left with
      | ok _ => exact calmDone_none done _
      | error exc => exact calmDone_none done _
  | some ψ =>
      refine (hfinal ψ outcome (hfirst ψ rfl)).mono ?_
      intro χ left hleft
      cases left with
      | ok _ => exact hleft
      | error exc => exact hleft

/-- The program does not raise. -/
def Quiet : Program Op Res Exc α → Prop
  | ret _ => True
  | raise _ => False
  | call _ next => ∀ answer, (next answer).Quiet

theorem Quiet.bind {body : Program Op Res Exc α} {rest : α → Program Op Res Exc β} (h : body.Quiet)
    (hrest : ∀ value, (rest value).Quiet) : (body.bind rest).Quiet := by
  induction body with
  | ret value => exact hrest value
  | raise exc => exact h.elim
  | call op next ih => exact fun answer => ih answer (h answer)

theorem quiet_attempt (body : Program Op Res Exc α) : body.attempt.Quiet := by
  induction body with
  | ret value => trivial
  | raise exc => trivial
  | call op next ih => exact ih

/-- After another exception nothing is claimed of a program that does not raise. -/
theorem Quiet.follows_calm_none {done : Option Φ → Except Exc α → Prop} {body : Program Op Res Exc α} (h : body.Quiet)
    (hdone : ∀ value, done none (.ok value)) : body.Follows (protocol.calm kind) done none := by
  induction body with
  | ret value => exact hdone value
  | raise exc => exact h.elim
  | call op next ih => exact ⟨trivial, fun answer => ih answer (h answer)⟩

end Program

namespace Block

/-- What is claimed of the end of a block in a calm run. -/
def calmPost (post : Φ → Except Exc α → σ → Prop) (ψ : Option Φ) (outcome : Except Exc α) (l : σ) : Prop :=
  ∀ φ, ψ = some φ → post φ outcome l

/-- The block hands its outcome on in every case; it does not raise itself. -/
def Quiet (body : Block Op Res Exc σ α) : Prop := ∀ l, (body l).Quiet

theorem quiet_pure (value : α) : (Pure.pure value : Block Op Res Exc σ α).Quiet := fun _ => trivial

theorem quiet_lift (outcome : Except Exc α) : (lift outcome : Block Op Res Exc σ α).Quiet := fun _ => trivial

theorem quiet_locals : (locals : Block Op Res Exc σ σ).Quiet := fun _ => trivial

theorem quiet_assign (f : σ → σ) : (assign f : Block Op Res Exc σ Unit).Quiet := fun _ => trivial

theorem quiet_await (body : Program Op Res Exc α) : (await body : Block Op Res Exc σ α).Quiet :=
  fun _ => body.quiet_attempt.bind fun _ => trivial

theorem Quiet.bind {body : Block Op Res Exc σ α} {rest : α → Block Op Res Exc σ β} (h : body.Quiet)
    (hrest : ∀ value, (rest value).Quiet) : (body >>= rest).Quiet := by
  intro l
  apply (h l).bind
  intro left
  obtain ⟨outcome, l'⟩ := left
  cases outcome with
  | ok value => exact hrest value l'
  | error exc => trivial

theorem Quiet.tryExcept {catches : Exc → Bool} {body : Block Op Res Exc σ α} {handler : Exc → Block Op Res Exc σ α}
    (h : body.Quiet) (hhandler : ∀ exc, (handler exc).Quiet) : (tryExcept catches body handler).Quiet := by
  intro l
  apply (h l).bind
  intro left
  obtain ⟨outcome, l'⟩ := left
  cases outcome with
  | ok value => trivial
  | error exc =>
      simp only [handle]
      split
      · exact hhandler exc l'
      · trivial

theorem calmPost_none (post : Φ → Except Exc α → σ → Prop) (outcome : Except Exc α) (l : σ) :
    calmPost post none outcome l := by
  intro φ h
  cases h

theorem calmPost_some {post : Φ → Except Exc α → σ → Prop} {φ : Φ} {outcome : Except Exc α} {l : σ}
    (h : post φ outcome l) : calmPost post (some φ) outcome l := by
  intro ψ hψ
  cases hψ
  exact h

theorem meets_calm_pure {post : Φ → Except Exc α → σ → Prop} {φ : Φ} {l : σ} {value : α} (h : post φ (.ok value) l) :
    Meets (protocol.calm kind) (calmPost post) (some φ) l (Pure.pure value) := calmPost_some h

theorem meets_calm_await {post : Φ → Except Exc α → σ → Prop} {φ : Φ} {l : σ} {body : Program Op Res Exc α}
    (h : body.Follows (protocol.calm kind) (calmDone fun ψ outcome => post ψ outcome l) (some φ)) :
    Meets (protocol.calm kind) (calmPost post) (some φ) l (await body) := (meets_await body).mpr h

theorem meets_calm_none {post : Φ → Except Exc α → σ → Prop} {body : Block Op Res Exc σ α} (h : body.Quiet) (l : σ) :
    Meets (protocol.calm kind) (calmPost post) none l body := by
  apply (h l).follows_calm_none
  intro left
  exact calmPost_none post left.1 left.2

theorem meets_calm_perform_bind {post : Φ → Except Exc β → σ → Prop} {φ : Φ} {l : σ} {op : Op}
    {rest : Res op → Block Op Res Exc σ β} (hmay : protocol.may φ op)
    (herror : ∀ exc, kind op exc = true → post (protocol.after φ op (.error exc)) (.error exc) l)
    (hok : ∀ value, Meets (protocol.calm kind) (calmPost post) (some (protocol.after φ op (.ok value))) l (rest value)) :
    Meets (protocol.calm kind) (calmPost post) (some φ) l (await (Program.perform op) >>= rest) := by
  refine meets_perform_bind (by exact hmay) ?_ hok
  intro exc
  simp only [Protocol.calm]
  split
  · rename_i hkind
    exact calmPost_some (herror exc hkind)
  · exact calmPost_none post _ l

/-- A part of a sequence, by what it ends with. -/
theorem meets_calm_await_bind {first : Φ → Except Exc α → Prop} {post : Φ → Except Exc β → σ → Prop} {φ : Φ} {l : σ}
    {body : Program Op Res Exc α} {rest : α → Block Op Res Exc σ β} (hrest : ∀ value, (rest value).Quiet)
    (h : body.Follows (protocol.calm kind) (calmDone first) (some φ))
    (herror : ∀ ψ exc, first ψ (.error exc) → post ψ (.error exc) l)
    (hok : ∀ ψ value, first ψ (.ok value) → Meets (protocol.calm kind) (calmPost post) (some ψ) l (rest value)) :
    Meets (protocol.calm kind) (calmPost post) (some φ) l (await body >>= rest) := by
  rw [meets_bind, meets_await]
  apply h.mono
  intro ψ outcome hfirst
  cases outcome with
  | error exc =>
      intro χ hχ
      subst hχ
      exact herror χ exc (hfirst χ rfl)
  | ok value =>
      cases ψ with
      | none => exact meets_calm_none (hrest value) l
      | some ψ => exact hok ψ value (hfirst ψ rfl)

/-- A `try` with a handler, by what its body ends with. -/
theorem meets_calm_tryExcept {first post : Φ → Except Exc α → σ → Prop} {φ : Φ} {l : σ} {catches : Exc → Bool}
    {body : Block Op Res Exc σ α} {handler : Exc → Block Op Res Exc σ α} (hquiet : ∀ exc, (handler exc).Quiet)
    (h : Meets (protocol.calm kind) (calmPost first) (some φ) l body)
    (hok : ∀ ψ value l', first ψ (.ok value) l' → post ψ (.ok value) l')
    (herror : ∀ ψ exc l', first ψ (.error exc) l' → catches exc = true →
      Meets (protocol.calm kind) (calmPost post) (some ψ) l' (handler exc))
    (hother : ∀ ψ exc l', first ψ (.error exc) l' → catches exc = false → post ψ (.error exc) l') :
    Meets (protocol.calm kind) (calmPost post) (some φ) l (tryExcept catches body handler) := by
  rw [meets_tryExcept]
  apply h.mono
  intro ψ outcome l' hfirst
  cases outcome with
  | ok value =>
      intro χ hχ
      subst hχ
      exact hok χ value l' (hfirst χ rfl)
  | error exc =>
      simp only [exceptPost]
      cases ψ with
      | none =>
          split
          · exact meets_calm_none (hquiet exc) l'
          · exact calmPost_none post _ l'
      | some ψ =>
          split
          · rename_i hcatches
            exact herror ψ exc l' (hfirst ψ rfl) hcatches
          · rename_i hcatches
            exact calmPost_some (hother ψ exc l' (hfirst ψ rfl) (by simpa using hcatches))

/-- A `try` with a `finally` block, by what its body ends with. -/
theorem meets_calm_tryFinally {first post : Φ → Except Exc α → σ → Prop} {φ : Φ} {l : σ} {body : Block Op Res Exc σ α}
    {final : Block Op Res Exc σ Unit} (hquiet : final.Quiet)
    (h : Meets (protocol.calm kind) (calmPost first) (some φ) l body)
    (hfinal : ∀ ψ outcome l', first ψ outcome l' →
      Meets (protocol.calm kind) (calmPost (finallyPost post outcome)) (some ψ) l' final) :
    Meets (protocol.calm kind) (calmPost post) (some φ) l (tryFinally body final) := by
  rw [meets_tryFinally]
  apply h.mono
  intro ψ outcome l' hfirst
  have hleave : Meets (protocol.calm kind) (calmPost (finallyPost post outcome)) ψ l' final := by
    cases ψ with
    | none => exact meets_calm_none hquiet l'
    | some ψ => exact hfinal ψ outcome l' (hfirst ψ rfl)
  apply hleave.mono
  intro χ left l'' hleft
  cases left with
  | ok _ => exact hleft
  | error exc => exact hleft

/-- A finished block in a calm run. -/
theorem Meets.calm_toProgram {done : Φ → Except Exc α → Prop} {body : Block Op Res Exc σ α} {φ : Φ} {l : σ}
    (h : Meets (protocol.calm kind) (calmPost fun ψ outcome _ => done ψ outcome) (some φ) l body) :
    (body.toProgram l).Follows (protocol.calm kind) (calmDone done) (some φ) :=
  Meets.toProgram h

end Block

end Effect
