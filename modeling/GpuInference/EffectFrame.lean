import GpuInference.EffectBlock

/-!
Programs that make only some of the calls. What none of these calls changes is as it was after a run of the
program, whatever the calls answer: the frame of the program.
-/

namespace Effect

variable {Op : Type} {Res : Op → Type} {Exc α β γ σ S : Type} {may : Op → Prop}

namespace Program

/-- Every call of the program is allowed, whatever the answers. -/
def Makes (may : Op → Prop) : Program Op Res Exc α → Prop
  | ret _ => True
  | raise _ => True
  | call op next => may op ∧ ∀ answer, (next answer).Makes may

theorem makes_ret (value : α) : (ret value : Program Op Res Exc α).Makes may := trivial

theorem makes_raise (exc : Exc) : (raise exc : Program Op Res Exc α).Makes may := trivial

theorem makes_lift (outcome : Except Exc α) : (lift outcome : Program Op Res Exc α).Makes may := by
  cases outcome with
  | error exc => exact makes_raise exc
  | ok value => exact makes_ret value

theorem makes_perform {op : Op} (h : may op) : (perform op : Program Op Res Exc (Res op)).Makes may := by
  refine ⟨h, ?_⟩
  intro answer
  cases answer with
  | error exc => exact makes_raise exc
  | ok value => exact makes_ret value

theorem Makes.mono {may' : Op → Prop} {body : Program Op Res Exc α} (h : body.Makes may)
    (himp : ∀ op, may op → may' op) : body.Makes may' := by
  induction body with
  | ret value => exact makes_ret value
  | raise exc => exact makes_raise exc
  | call op next ih => exact ⟨himp op h.1, fun answer => ih answer (h.2 answer)⟩

theorem Makes.bind {body : Program Op Res Exc α} {rest : α → Program Op Res Exc β} (h : body.Makes may)
    (hrest : ∀ value, (rest value).Makes may) : (body.bind rest).Makes may := by
  induction body with
  | ret value => exact hrest value
  | raise exc => exact makes_raise exc
  | call op next ih => exact ⟨h.1, fun answer => ih answer (h.2 answer)⟩

/-- In a phase that none of its calls leaves, the program follows the protocol. -/
theorem Makes.follows {Φ : Type} {protocol : Protocol Op Res Exc Φ} {done : Φ → Except Exc α → Prop}
    {body : Program Op Res Exc α} {φ : Φ} (h : body.Makes may) (hmay : ∀ op, may op → protocol.may φ op)
    (hafter : ∀ op answer, may op → protocol.after φ op answer = φ) (hdone : ∀ outcome, done φ outcome) :
    body.Follows protocol done φ := by
  induction body with
  | ret value => exact hdone _
  | raise exc => exact hdone _
  | call op next ih =>
      refine ⟨hmay op h.1, ?_⟩
      intro answer
      rw [hafter op answer h.1]
      exact ih answer (h.2 answer)

/-- The rest of a sequence needs to be considered only for the values that its first part returns. -/
theorem Makes.bind_follows {Φ : Type} {protocol : Protocol Op Res Exc Φ} {done : Φ → Except Exc α → Prop}
    {body : Program Op Res Exc α} {rest : α → Program Op Res Exc β} {φ : Φ} (h : body.Makes may)
    (hfollows : body.Follows protocol done φ) (hrest : ∀ ψ value, done ψ (.ok value) → (rest value).Makes may) :
    (body.bind rest).Makes may := by
  induction body generalizing φ with
  | ret value => exact hrest φ value hfollows
  | raise exc => exact makes_raise exc
  | call op next ih => exact ⟨h.1, fun answer => ih answer (h.2 answer) (hfollows.2 answer)⟩

theorem Makes.tryExcept {catches : Exc → Bool} {body : Program Op Res Exc α}
    {handler : Exc → Program Op Res Exc α} (h : body.Makes may) (hhandler : ∀ exc, (handler exc).Makes may) :
    (tryExcept catches body handler).Makes may := by
  induction body with
  | ret value => exact makes_ret value
  | raise exc =>
      rw [Program.tryExcept]
      split
      · exact hhandler exc
      · exact makes_raise exc
  | call op next ih => exact ⟨h.1, fun answer => ih answer (h.2 answer)⟩

theorem Makes.tryFinally {body : Program Op Res Exc α} {final : Program Op Res Exc Unit} (h : body.Makes may)
    (hfinal : final.Makes may) : (tryFinally body final).Makes may := by
  induction body with
  | ret value => exact hfinal.bind fun _ => makes_ret value
  | raise exc => exact hfinal.bind fun _ => makes_raise exc
  | call op next ih => exact ⟨h.1, fun answer => ih answer (h.2 answer)⟩

theorem Makes.attempt {body : Program Op Res Exc α} (h : body.Makes may) : body.attempt.Makes may := by
  induction body with
  | ret value => exact makes_ret _
  | raise exc => exact makes_ret _
  | call op next ih => exact ⟨h.1, fun answer => ih answer (h.2 answer)⟩

/-- **The frame rule.** What the allowed calls do not change is the same after a run. -/
theorem Makes.run {answer : (op : Op) → S → Except Exc (Res op) × S} {view : S → γ}
    {body : Program Op Res Exc α} (h : body.Makes may)
    (hcall : ∀ op s, may op → view (answer op s).2 = view s) (s : S) : view (body.run answer s).2 = view s := by
  induction body generalizing s with
  | ret value => rfl
  | raise exc => rfl
  | call op next ih =>
      calc view ((call op next).run answer s).2
          = view ((next (answer op s).1).run answer (answer op s).2).2 := rfl
        _ = view (answer op s).2 := ih _ (h.2 _) _
        _ = view s := hcall op s h.1

/-- The frame rule for every way the program can end. -/
theorem Makes.yields {exec : Exec Op Res Exc S} {view : S → γ} {body : Program Op Res Exc α} (h : body.Makes may)
    (hcall : ∀ op s answer s', may op → exec op s answer s' → view s' = view s) {s s' : S} {outcome : Except Exc α}
    (hyields : body.Yields exec s outcome s') : view s' = view s := by
  induction body generalizing s with
  | ret value =>
      obtain ⟨-, rfl⟩ := hyields
      rfl
  | raise exc =>
      obtain ⟨-, rfl⟩ := hyields
      rfl
  | call op next ih =>
      obtain ⟨answer, middle, hexec, hrest⟩ := hyields
      exact (ih answer (h.2 answer) hrest).trans (hcall op s answer middle h.1 hexec)

/-- A program all of whose calls are answered comes to an end. -/
theorem Makes.ends {exec : Exec Op Res Exc S} {body : Program Op Res Exc α} (h : body.Makes may)
    (hanswered : ∀ op s, may op → ∃ answer s', exec op s answer s') (s : S) :
    ∃ outcome s', body.Yields exec s outcome s' := by
  induction body generalizing s with
  | ret value => exact ⟨_, s, rfl, rfl⟩
  | raise exc => exact ⟨_, s, rfl, rfl⟩
  | call op next ih =>
      obtain ⟨answer, middle, hexec⟩ := hanswered op s h.1
      obtain ⟨outcome, s', hrest⟩ := ih answer (h.2 answer) middle
      exact ⟨outcome, s', answer, middle, hexec, hrest⟩

end Program

namespace Block

/-- Every call of the block is allowed, whatever its locals hold. -/
def Makes (may : Op → Prop) (body : Block Op Res Exc σ α) : Prop := ∀ l, (body l).Makes may

theorem makes_pure (value : α) : (Pure.pure value : Block Op Res Exc σ α).Makes may :=
  fun _ => Program.makes_ret _

theorem makes_throw (exc : Exc) : (throw exc : Block Op Res Exc σ α).Makes may := fun _ => Program.makes_ret _

theorem makes_lift (outcome : Except Exc α) : (lift outcome : Block Op Res Exc σ α).Makes may :=
  fun _ => Program.makes_ret _

theorem makes_locals : (locals : Block Op Res Exc σ σ).Makes may := fun _ => Program.makes_ret _

theorem makes_assign (f : σ → σ) : (assign f : Block Op Res Exc σ Unit).Makes may := fun _ => Program.makes_ret _

theorem makes_resume (left : Except Exc α × σ) : (resume left : Block Op Res Exc σ α).Makes may :=
  fun _ => Program.makes_ret left

theorem makes_await {body : Program Op Res Exc α} (h : body.Makes may) :
    (await body : Block Op Res Exc σ α).Makes may :=
  fun _ => h.attempt.bind fun _ => Program.makes_ret _

theorem Makes.bind {body : Block Op Res Exc σ α} {rest : α → Block Op Res Exc σ β} (h : body.Makes may)
    (hrest : ∀ value, (rest value).Makes may) : (body >>= rest).Makes may := by
  intro l
  refine (h l).bind ?_
  rintro ⟨exc | value, l'⟩
  · exact Program.makes_ret _
  · exact hrest value l'

theorem Makes.tryExcept {catches : Exc → Bool} {body : Block Op Res Exc σ α}
    {handler : Exc → Block Op Res Exc σ α} (h : body.Makes may) (hhandler : ∀ exc, (handler exc).Makes may) :
    (tryExcept catches body handler).Makes may := by
  intro l
  refine (h l).bind ?_
  rintro ⟨exc | value, l'⟩
  · rw [handle]
    split
    · exact hhandler exc l'
    · exact Program.makes_ret _
  · exact Program.makes_ret _

theorem Makes.tryFinally {body : Block Op Res Exc σ α} {final : Block Op Res Exc σ Unit} (h : body.Makes may)
    (hfinal : final.Makes may) : (tryFinally body final).Makes may := by
  intro l
  refine (h l).bind fun left => (hfinal left.2).bind ?_
  rintro ⟨exc | done, l'⟩
  · exact Program.makes_ret _
  · exact Program.makes_ret _

theorem Makes.toProgram {body : Block Op Res Exc σ α} (h : body.Makes may) (l : σ) :
    (body.toProgram l).Makes may :=
  (h l).bind fun left => Program.makes_lift left.1

section Stays

variable {Φ : Type} {protocol : Protocol Op Res Exc Φ} {view : σ → γ} {φ : Φ} {l : σ}

/-- The block keeps the protocol, leaves its phase and what `view` shows of the locals as they were, and ends well. -/
def Stays (protocol : Protocol Op Res Exc Φ) (view : σ → γ) (φ : Φ) (good : Except Exc α → Prop) (l : σ)
    (body : Block Op Res Exc σ α) : Prop :=
  Meets protocol (fun ψ outcome l' => ψ = φ ∧ view l' = view l ∧ good outcome) φ l body

/-- What comes after the block may rely on the frame. -/
theorem Stays.meets {good : Except Exc α → Prop} {post : Φ → Except Exc α → σ → Prop} {body : Block Op Res Exc σ α}
    (h : Stays protocol view φ good l body) (hpost : ∀ outcome l', view l' = view l → good outcome → post φ outcome l') :
    Meets protocol post φ l body := by
  apply Meets.mono h
  rintro ψ outcome l' ⟨rfl, hview, hgood⟩
  exact hpost outcome l' hview hgood

theorem Stays.mono {good good' : Except Exc α → Prop} {body : Block Op Res Exc σ α}
    (h : Stays protocol view φ good l body) (himp : ∀ outcome, good outcome → good' outcome) :
    Stays protocol view φ good' l body :=
  h.meets fun outcome _ hview hgood => ⟨rfl, hview, himp outcome hgood⟩

theorem stays_lift {good : Except Exc α → Prop} {outcome : Except Exc α} (h : good outcome) :
    Stays protocol view φ good l (lift outcome) := ⟨rfl, rfl, h⟩

theorem stays_pure {good : Except Exc α → Prop} {value : α} (h : good (.ok value)) :
    Stays protocol view φ good l (Pure.pure value) := stays_lift h

theorem stays_throw {good : Except Exc α → Prop} {exc : Exc} (h : good (.error exc)) :
    Stays protocol view φ good l (throw exc) := stays_lift h

theorem Stays.bind {good : Except Exc α → Prop} {good' : Except Exc β → Prop} {body : Block Op Res Exc σ α}
    {rest : α → Block Op Res Exc σ β} (h : Stays protocol view φ good l body)
    (herror : ∀ exc, good (.error exc) → good' (.error exc))
    (hrest : ∀ value l', view l' = view l → good (.ok value) → Stays protocol view φ good' l' (rest value)) :
    Stays protocol view φ good' l (body >>= rest) := by
  refine (meets_bind body rest).mpr (h.meets ?_)
  rintro (exc | value) l' hview hgood
  · exact ⟨rfl, hview, herror exc hgood⟩
  · refine (hrest value l' hview hgood).meets ?_
    intro outcome l'' hview' hgood'
    exact ⟨rfl, hview'.trans hview, hgood'⟩

theorem stays_locals_bind {good : Except Exc β → Prop} {rest : σ → Block Op Res Exc σ β}
    (h : Stays protocol view φ good l (rest l)) : Stays protocol view φ good l (locals >>= rest) :=
  (meets_locals_bind rest).mpr h

theorem stays_assign_bind {good : Except Exc β → Prop} {f : σ → σ} {rest : Unit → Block Op Res Exc σ β}
    (hview : view (f l) = view l) (h : Stays protocol view φ good (f l) (rest ())) :
    Stays protocol view φ good l (assign f >>= rest) := by
  refine (meets_assign_bind f rest).mpr (h.meets ?_)
  intro outcome l' hview' hgood
  exact ⟨rfl, hview'.trans hview, hgood⟩

/-- One call that does not leave the phase. -/
theorem stays_perform {op : Op} {good : Except Exc (Res op) → Prop} (hmay : protocol.may φ op)
    (hafter : ∀ answer, protocol.after φ op answer = φ) (h : ∀ answer, good answer) :
    Stays protocol view φ good l (await (Program.perform op)) := by
  refine (meets_await _).mpr ((Program.follows_perform _ φ).mpr ⟨hmay, ?_⟩)
  intro answer
  exact ⟨hafter answer, rfl, h answer⟩

theorem Stays.tryExcept {good good' : Except Exc α → Prop} {catches : Exc → Bool} {body : Block Op Res Exc σ α}
    {handler : Exc → Block Op Res Exc σ α} (h : Stays protocol view φ good l body)
    (hleft : ∀ outcome, good outcome → (∀ exc, outcome = .error exc → catches exc = false) → good' outcome)
    (hhandler : ∀ exc l', view l' = view l → good (.error exc) → catches exc = true →
      Stays protocol view φ good' l' (handler exc)) :
    Stays protocol view φ good' l (tryExcept catches body handler) := by
  refine (meets_tryExcept catches body handler).mpr (h.meets ?_)
  rintro (exc | value) l' hview hgood
  · rw [exceptPost]
    split
    · rename_i hcatches
      refine (hhandler exc l' hview hgood hcatches).meets ?_
      intro outcome l'' hview' hgood'
      exact ⟨rfl, hview'.trans hview, hgood'⟩
    · rename_i hcatches
      refine ⟨rfl, hview, hleft _ hgood ?_⟩
      intro exc' hexc
      cases hexc
      simpa using hcatches
  · refine ⟨rfl, hview, hleft _ hgood ?_⟩
    intro exc hexc
    cases hexc

theorem Stays.tryFinally {good good' : Except Exc α → Prop} {body : Block Op Res Exc σ α}
    {final : Block Op Res Exc σ Unit} {goodFinal : Except Exc Unit → Prop} (h : Stays protocol view φ good l body)
    (hfinal : ∀ l', view l' = view l → Stays protocol view φ goodFinal l' final)
    (hleft : ∀ outcome, good outcome → goodFinal (.ok ()) → good' outcome)
    (herror : ∀ exc, goodFinal (.error exc) → good' (.error exc)) :
    Stays protocol view φ good' l (tryFinally body final) := by
  refine (meets_tryFinally body final).mpr (h.meets ?_)
  intro outcome l' hview hgood
  refine (hfinal l' hview).meets ?_
  rintro (exc | done) l'' hview' hgoodFinal
  · exact ⟨rfl, hview'.trans hview, herror exc hgoodFinal⟩
  · exact ⟨rfl, hview'.trans hview, hleft outcome hgood hgoodFinal⟩

end Stays

section Establishes

variable {Φ : Type} {protocol : Protocol Op Res Exc Φ} {pre mid inv : Φ → σ → Prop}

/-- From a phase and locals that `pre` relates the block keeps the protocol, and `inv` relates them when it is left. -/
def Establishes (protocol : Protocol Op Res Exc Φ) (pre inv : Φ → σ → Prop) (body : Block Op Res Exc σ α) : Prop :=
  ∀ φ l, pre φ l → Meets protocol (fun ψ _ l' => inv ψ l') φ l body

theorem establishes_pure (value : α) : Establishes protocol inv inv (Pure.pure value : Block Op Res Exc σ α) :=
  fun _ _ h => h

theorem establishes_throw (exc : Exc) : Establishes protocol inv inv (throw exc : Block Op Res Exc σ α) :=
  fun _ _ h => h

theorem Establishes.bind {body : Block Op Res Exc σ α} {rest : α → Block Op Res Exc σ β}
    (h : Establishes protocol pre inv body) (hrest : ∀ value, Establishes protocol inv inv (rest value)) :
    Establishes protocol pre inv (body >>= rest) := by
  intro φ l hpre
  refine (meets_bind body rest).mpr ((h φ l hpre).mono ?_)
  rintro ψ (exc | value) l' hinv
  · exact hinv
  · exact hrest value ψ l' hinv

theorem establishes_locals_bind {rest : σ → Block Op Res Exc σ β} (h : ∀ l, Establishes protocol pre inv (rest l)) :
    Establishes protocol pre inv (locals >>= rest) :=
  fun φ l hpre => (meets_locals_bind rest).mpr (h l φ l hpre)

theorem establishes_assign_bind {f : σ → σ} {rest : Unit → Block Op Res Exc σ β}
    (hf : ∀ φ l, pre φ l → mid φ (f l)) (h : Establishes protocol mid inv (rest ())) :
    Establishes protocol pre inv (assign f >>= rest) :=
  fun φ l hpre => (meets_assign_bind f rest).mpr (h φ (f l) (hf φ l hpre))

theorem establishes_perform {op : Op}
    (h : ∀ φ l, pre φ l → protocol.may φ op ∧ ∀ answer, inv (protocol.after φ op answer) l) :
    Establishes protocol pre inv (await (Program.perform op)) :=
  fun φ l hpre => (meets_await _).mpr ((Program.follows_perform _ φ).mpr (h φ l hpre))

theorem Establishes.tryExcept {catches : Exc → Bool} {body : Block Op Res Exc σ α}
    {handler : Exc → Block Op Res Exc σ α} (h : Establishes protocol pre inv body)
    (hhandler : ∀ exc, Establishes protocol inv inv (handler exc)) :
    Establishes protocol pre inv (tryExcept catches body handler) := by
  intro φ l hpre
  refine (meets_tryExcept catches body handler).mpr ((h φ l hpre).mono ?_)
  rintro ψ (exc | value) l' hinv
  · rw [exceptPost]
    split
    · exact hhandler exc ψ l' hinv
    · exact hinv
  · exact hinv

theorem Establishes.tryFinally {body : Block Op Res Exc σ α} {final : Block Op Res Exc σ Unit}
    (h : Establishes protocol pre inv body) (hfinal : Establishes protocol inv inv final) :
    Establishes protocol pre inv (tryFinally body final) := by
  intro φ l hpre
  refine (meets_tryFinally body final).mpr ((h φ l hpre).mono ?_)
  intro ψ outcome l' hinv
  refine (hfinal ψ l' hinv).mono ?_
  rintro χ (exc | done) l'' hinv'
  · exact hinv'
  · exact hinv'

end Establishes

end Block

end Effect
