import GpuInference.EffectBlock
import GpuInference.EffectTrace

/-!
Erasure of calls. A program with calls that are only made on the side is compared with the program that does not make
them: leaving the hidden calls out of a trace of the one has to give a trace of the other. The two programs are related
by one rule for each way of composing programs, and the same for blocks, whose locals need only agree.
-/

namespace Effect

variable {Op : Type} {Res : Op → Type} {Exc α β γ δ σ τ : Type} {hidden : Op → Bool}
  {may : (op : Op) → Except Exc (Res op) → Prop}

/-- The calls that are not hidden. -/
def visible (hidden : Op → Bool) (calls : List (Event Op Res Exc)) : List (Event Op Res Exc) :=
  calls.filter fun event => !hidden event.op

namespace Program

variable {ends : Except Exc α → Except Exc β → Prop}

/-- Leaving the hidden calls out of the one program gives the other, as long as they are answered as they may be; the two
end as `ends` relates. -/
inductive Erases (hidden : Op → Bool) (may : (op : Op) → Except Exc (Res op) → Prop)
    (ends : Except Exc α → Except Exc β → Prop) : Program Op Res Exc α → Program Op Res Exc β → Prop
  | ended {outcome : Except Exc α} {outcome' : Except Exc β} (h : ends outcome outcome') :
      Erases hidden may ends (lift outcome) (lift outcome')
  | hide {op : Op} {next : Except Exc (Res op) → Program Op Res Exc α} {body' : Program Op Res Exc β}
      (hop : hidden op = true) (h : ∀ answer, may op answer → Erases hidden may ends (next answer) body') :
      Erases hidden may ends (call op next) body'
  | step {op : Op} {next : Except Exc (Res op) → Program Op Res Exc α}
      {next' : Except Exc (Res op) → Program Op Res Exc β} (hop : hidden op = false)
      (h : ∀ answer, Erases hidden may ends (next answer) (next' answer)) :
      Erases hidden may ends (call op next) (call op next')

/-- **Erasure of traces.** The visible calls of a trace are a trace of the other program. -/
theorem Erases.traces {body : Program Op Res Exc α} {body' : Program Op Res Exc β}
    (h : Erases hidden may ends body body') {calls : List (Event Op Res Exc)} {outcome : Except Exc α}
    (htraces : body.Traces calls outcome)
    (hmay : ∀ event ∈ calls, hidden event.op = true → may event.op event.answer) :
    ∃ outcome', body'.Traces (visible hidden calls) outcome' ∧ ends outcome outcome' := by
  induction h generalizing calls with
  | @ended left right hends =>
      have hended : calls = [] ∧ outcome = left := by
        cases left with
        | ok value => exact htraces
        | error exc => exact htraces
      obtain ⟨rfl, rfl⟩ := hended
      refine ⟨right, ?_, hends⟩
      cases right with
      | ok value => exact ⟨rfl, rfl⟩
      | error exc => exact ⟨rfl, rfl⟩
  | @hide op next body' hop _ ih =>
      obtain ⟨answer, rest, rfl, hrest⟩ := htraces
      have hvisible : visible hidden (⟨op, answer⟩ :: rest) = visible hidden rest :=
        List.filter_cons_of_neg (by simp [hop])
      rw [hvisible]
      exact ih answer (hmay _ List.mem_cons_self hop) hrest fun event hevent =>
        hmay event (List.mem_cons_of_mem _ hevent)
  | @step op next next' hop _ ih =>
      obtain ⟨answer, rest, rfl, hrest⟩ := htraces
      have hvisible : visible hidden (⟨op, answer⟩ :: rest) = ⟨op, answer⟩ :: visible hidden rest :=
        List.filter_cons_of_pos (by simp [hop])
      obtain ⟨outcome', htraces', hends⟩ := ih answer hrest fun event hevent =>
        hmay event (List.mem_cons_of_mem _ hevent)
      exact ⟨outcome', ⟨answer, _, hvisible, htraces'⟩, hends⟩

/-- **Every trace is an erasure**, when every hidden call has an answer that it may be given. -/
theorem Erases.exists_traces {body : Program Op Res Exc α} {body' : Program Op Res Exc β}
    (h : Erases hidden may ends body body') (hanswered : ∀ op, hidden op = true → ∃ answer, may op answer)
    {seen : List (Event Op Res Exc)} {outcome' : Except Exc β} (htraces : body'.Traces seen outcome') :
    ∃ calls outcome, body.Traces calls outcome ∧ ends outcome outcome' ∧ visible hidden calls = seen ∧
      ∀ event ∈ calls, hidden event.op = true → may event.op event.answer := by
  induction h generalizing seen with
  | @ended left right hends =>
      have hended : seen = [] ∧ outcome' = right := by
        cases right with
        | ok value => exact htraces
        | error exc => exact htraces
      obtain ⟨rfl, rfl⟩ := hended
      refine ⟨[], left, ?_, hends, rfl, nofun⟩
      cases left with
      | ok value => exact ⟨rfl, rfl⟩
      | error exc => exact ⟨rfl, rfl⟩
  | @hide op next body' hop _ ih =>
      obtain ⟨answer, hanswer⟩ := hanswered op hop
      obtain ⟨calls, outcome, hcalls, hends, hvisible, hmay⟩ := ih answer hanswer htraces
      refine ⟨⟨op, answer⟩ :: calls, outcome, ⟨answer, calls, rfl, hcalls⟩, hends, ?_, ?_⟩
      · exact (List.filter_cons_of_neg (by simp [hop])).trans hvisible
      · intro event hevent hhidden
        rcases List.mem_cons.mp hevent with rfl | hrest
        · exact hanswer
        · exact hmay event hrest hhidden
  | @step op next next' hop _ ih =>
      obtain ⟨answer, rest, rfl, hrest⟩ := htraces
      obtain ⟨calls, outcome, hcalls, hends, hvisible, hmay⟩ := ih answer hrest
      refine ⟨⟨op, answer⟩ :: calls, outcome, ⟨answer, calls, rfl, hcalls⟩, hends, ?_, ?_⟩
      · exact (List.filter_cons_of_pos (by simp [hop])).trans (congrArg (⟨op, answer⟩ :: ·) hvisible)
      · intro event hevent hhidden
        rcases List.mem_cons.mp hevent with rfl | hrest
        · exact absurd hhidden (by simp [hop])
        · exact hmay event hrest hhidden

/-- The rest of a sequence is compared from every two ends of the first part. -/
theorem Erases.bind {ends' : Except Exc γ → Except Exc δ → Prop} {body : Program Op Res Exc α}
    {body' : Program Op Res Exc β} {rest : α → Program Op Res Exc γ} {rest' : β → Program Op Res Exc δ}
    (h : Erases hidden may ends body body')
    (hrest : ∀ outcome outcome', ends outcome outcome' →
      Erases hidden may ends' ((lift outcome).bind rest) ((lift outcome').bind rest')) :
    Erases hidden may ends' (body.bind rest) (body'.bind rest') := by
  induction h with
  | ended hends => exact hrest _ _ hends
  | hide hop _ ih => exact .hide hop ih
  | step hop _ ih => exact .step hop ih

/-- The program makes hidden calls only, and ends as `done` says if they are answered as they may be. -/
def Hides (hidden : Op → Bool) (may : (op : Op) → Except Exc (Res op) → Prop) (done : Except Exc α → Prop) :
    Program Op Res Exc α → Prop
  | ret value => done (.ok value)
  | raise exc => done (.error exc)
  | call op next => hidden op = true ∧ ∀ answer, may op answer → (next answer).Hides hidden may done

theorem Hides.bind {done : Except Exc α → Prop} {done' : Except Exc β → Prop} {body : Program Op Res Exc α}
    {rest : α → Program Op Res Exc β} (h : body.Hides hidden may done)
    (hrest : ∀ outcome, done outcome → ((lift outcome).bind rest).Hides hidden may done') :
    (body.bind rest).Hides hidden may done' := by
  induction body with
  | ret value => exact hrest (.ok value) h
  | raise exc => exact hrest (.error exc) h
  | call op next ih => exact ⟨h.1, fun answer hanswer => ih answer (h.2 answer hanswer)⟩

theorem hides_perform {op : Op} {done : Except Exc (Res op) → Prop} (hop : hidden op = true)
    (hdone : ∀ answer, may op answer → done answer) :
    (perform op : Program Op Res Exc (Res op)).Hides hidden may done := by
  refine ⟨hop, ?_⟩
  intro answer hanswer
  cases answer with
  | ok value => exact hdone _ hanswer
  | error exc => exact hdone _ hanswer

/-- A program that only makes hidden calls is erased to its end. -/
theorem Hides.erases {done : Except Exc α → Prop} {body : Program Op Res Exc α} (h : body.Hides hidden may done)
    {outcome' : Except Exc β} (hends : ∀ outcome, done outcome → ends outcome outcome') :
    Erases hidden may ends body (lift outcome') := by
  induction body with
  | ret value =>
      have hended : Erases hidden may ends (lift (.ok value)) (lift outcome') := .ended (hends _ h)
      exact hended
  | raise exc =>
      have hended : Erases hidden may ends (lift (.error exc)) (lift outcome') := .ended (hends _ h)
      exact hended
  | call op next ih => exact .hide h.1 fun answer hanswer => ih answer (h.2 answer hanswer)

end Program

namespace Block

section Hides

variable {view : σ → γ} {good : Except Exc α → Prop} {l : σ}

/-- The block makes hidden calls only, leaves what `view` shows of the locals as it was, and ends well. -/
def Hides (hidden : Op → Bool) (may : (op : Op) → Except Exc (Res op) → Prop) (view : σ → γ)
    (good : Except Exc α → Prop) (l : σ) (body : Block Op Res Exc σ α) : Prop :=
  (body l).Hides hidden may fun left => ∃ outcome l', left = .ok (outcome, l') ∧ view l' = view l ∧ good outcome

theorem hides_lift {outcome : Except Exc α} (h : good outcome) : Hides hidden may view good l (lift outcome) :=
  ⟨outcome, l, rfl, rfl, h⟩

theorem hides_pure {value : α} (h : good (.ok value)) : Hides hidden may view good l (Pure.pure value) :=
  hides_lift h

theorem Hides.bind {good' : Except Exc β → Prop} {body : Block Op Res Exc σ α} {rest : α → Block Op Res Exc σ β}
    (h : Hides hidden may view good l body) (herror : ∀ exc, good (.error exc) → good' (.error exc))
    (hrest : ∀ value l', view l' = view l → good (.ok value) → Hides hidden may view good' l' (rest value)) :
    Hides hidden may view good' l (body >>= rest) := by
  apply Program.Hides.bind h
  rintro _ ⟨exc | value, l', rfl, hview, hgood⟩
  · exact ⟨.error exc, l', rfl, hview, herror exc hgood⟩
  · have h' := hrest value l' hview hgood
    rw [Hides, hview] at h'
    exact h'

theorem hides_locals_bind {good' : Except Exc β → Prop} {rest : σ → Block Op Res Exc σ β}
    (h : Hides hidden may view good' l (rest l)) : Hides hidden may view good' l (locals >>= rest) := h

theorem hides_assign_bind {good' : Except Exc β → Prop} {f : σ → σ} {rest : Unit → Block Op Res Exc σ β}
    (hview : view (f l) = view l) (h : Hides hidden may view good' (f l) (rest ())) :
    Hides hidden may view good' l (assign f >>= rest) := by
  rw [Hides, hview] at h
  exact h

theorem hides_perform (op : Op) {good : Except Exc (Res op) → Prop} (hop : hidden op = true)
    (hgood : ∀ answer, may op answer → good answer) :
    Hides hidden may view good l (await (Program.perform op)) := by
  refine ⟨hop, ?_⟩
  intro answer hanswer
  cases answer with
  | ok value => exact ⟨_, l, rfl, rfl, hgood _ hanswer⟩
  | error exc => exact ⟨_, l, rfl, rfl, hgood _ hanswer⟩

theorem Hides.tryExcept {good' : Except Exc α → Prop} {catches : Exc → Bool} {body : Block Op Res Exc σ α}
    {handler : Exc → Block Op Res Exc σ α} (h : Hides hidden may view good l body)
    (hok : ∀ value, good (.ok value) → good' (.ok value))
    (herror : ∀ exc, good (.error exc) → catches exc = false → good' (.error exc))
    (hhandler : ∀ exc l', good (.error exc) → catches exc = true → Hides hidden may view good' l' (handler exc)) :
    Hides hidden may view good' l (tryExcept catches body handler) := by
  apply Program.Hides.bind h
  rintro _ ⟨exc | value, l', rfl, hview, hgood⟩
  · simp only [Program.lift_ok, Program.ret_bind, handle]
    split
    · rename_i hcatches
      have h' := hhandler exc l' hgood hcatches
      rw [Hides, hview] at h'
      exact h'
    · rename_i hcatches
      exact ⟨.error exc, l', rfl, hview, herror exc hgood (by simpa using hcatches)⟩
  · exact ⟨.ok value, l', rfl, hview, hok value hgood⟩

end Hides

section Erases

variable {agree : σ → τ → Prop} {value : α → β → Prop}

/-- The same exception, or values that are related. -/
inductive Alike (value : α → β → Prop) : Except Exc α → Except Exc β → Prop
  | ok {a : α} {b : β} (h : value a b) : Alike value (.ok a) (.ok b)
  | error (exc : Exc) : Alike value (.error exc) (.error exc)

/-- Both blocks have been left in the same way, with locals that agree. -/
inductive LeftAlike (agree : σ → τ → Prop) (value : α → β → Prop) :
    Except Exc (Except Exc α × σ) → Except Exc (Except Exc β × τ) → Prop
  | left {outcome : Except Exc α} {outcome' : Except Exc β} {l : σ} {l' : τ} (h : Alike value outcome outcome')
      (hagree : agree l l') : LeftAlike agree value (.ok (outcome, l)) (.ok (outcome', l'))

/-- From locals that agree, leaving the hidden calls out of the one block gives the other. -/
def Erases (hidden : Op → Bool) (may : (op : Op) → Except Exc (Res op) → Prop) (agree : σ → τ → Prop)
    (value : α → β → Prop) (body : Block Op Res Exc σ α) (body' : Block Op Res Exc τ β) : Prop :=
  ∀ l l', agree l l' → Program.Erases hidden may (LeftAlike agree value) (body l) (body' l')

/-- Blocks that have been left. -/
theorem erases_left {outcome : Except Exc α} {outcome' : Except Exc β} {l : σ} {l' : τ}
    (h : Alike value outcome outcome') (hagree : agree l l') :
    Program.Erases hidden may (LeftAlike agree value) (Program.lift (.ok (outcome, l)) : Program Op Res Exc _)
      (Program.lift (.ok (outcome', l'))) := .ended (.left h hagree)

theorem erases_lift {outcome : Except Exc α} {outcome' : Except Exc β} (h : Alike value outcome outcome') :
    Erases hidden may agree value (lift outcome) (lift outcome') := fun _ _ hagree => erases_left h hagree

theorem erases_pure {a : α} {b : β} (h : value a b) :
    Erases hidden may agree value (Pure.pure a : Block Op Res Exc σ α) (Pure.pure b) := erases_lift (.ok h)

theorem erases_throw (exc : Exc) :
    Erases hidden may agree value (throw exc : Block Op Res Exc σ α) (throw exc) := erases_lift (.error exc)

theorem erases_assign {f : σ → σ} {f' : τ → τ} (h : ∀ l l', agree l l' → agree (f l) (f' l')) :
    Erases hidden may agree (fun _ _ => True) (assign f : Block Op Res Exc σ Unit) (assign f') :=
  fun l l' hagree => erases_left (.ok trivial) (h l l' hagree)

theorem Erases.bind {value' : γ → δ → Prop} {body : Block Op Res Exc σ α} {body' : Block Op Res Exc τ β}
    {rest : α → Block Op Res Exc σ γ} {rest' : β → Block Op Res Exc τ δ}
    (h : Erases hidden may agree value body body')
    (hrest : ∀ a b, value a b → Erases hidden may agree value' (rest a) (rest' b)) :
    Erases hidden may agree value' (body >>= rest) (body' >>= rest') := by
  intro l l' hagree
  refine Program.Erases.bind (h l l' hagree) ?_
  rintro _ _ ⟨hends, hagree'⟩
  cases hends with
  | ok hvalue => exact hrest _ _ hvalue _ _ hagree'
  | error exc => exact erases_left (.error exc) hagree'

theorem erases_locals_bind {rest : σ → Block Op Res Exc σ α} {rest' : τ → Block Op Res Exc τ β}
    (h : ∀ l l', agree l l' → Erases hidden may agree value (rest l) (rest' l')) :
    Erases hidden may agree value (locals >>= rest) (locals >>= rest') :=
  fun l l' hagree => h l l' hagree l l' hagree

/-- A call that is seen in both. -/
theorem erases_perform (op : Op) (hop : hidden op = false) :
    Erases hidden may agree Eq (await (Program.perform op) : Block Op Res Exc σ (Res op))
      (await (Program.perform op)) := by
  intro l l' hagree
  refine .step hop ?_
  intro answer
  cases answer with
  | ok value => exact erases_left (.ok rfl) hagree
  | error exc => exact erases_left (.error exc) hagree

theorem Erases.tryExcept {catches : Exc → Bool} {body : Block Op Res Exc σ α} {body' : Block Op Res Exc τ β}
    {handler : Exc → Block Op Res Exc σ α} {handler' : Exc → Block Op Res Exc τ β}
    (h : Erases hidden may agree value body body')
    (hhandler : ∀ exc, Erases hidden may agree value (handler exc) (handler' exc)) :
    Erases hidden may agree value (tryExcept catches body handler) (tryExcept catches body' handler') := by
  intro l l' hagree
  refine Program.Erases.bind (h l l' hagree) ?_
  rintro _ _ ⟨hends, hagree'⟩
  cases hends with
  | ok hvalue => exact erases_left (.ok hvalue) hagree'
  | error exc =>
      simp only [Program.lift_ok, Program.ret_bind, handle]
      split
      · exact hhandler exc _ _ hagree'
      · exact erases_left (.error exc) hagree'

theorem Erases.tryFinally {body : Block Op Res Exc σ α} {body' : Block Op Res Exc τ β}
    {final : Block Op Res Exc σ Unit} {final' : Block Op Res Exc τ Unit}
    {done : Unit → Unit → Prop} (h : Erases hidden may agree value body body')
    (hfinal : Erases hidden may agree done final final') :
    Erases hidden may agree value (tryFinally body final) (tryFinally body' final') := by
  intro l l' hagree
  refine Program.Erases.bind (h l l' hagree) ?_
  rintro _ _ ⟨hends, hagree'⟩
  simp only [Program.lift_ok, Program.ret_bind]
  refine Program.Erases.bind (hfinal _ _ hagree') ?_
  rintro _ _ ⟨hdone, hagree''⟩
  cases hdone with
  | ok _ => exact erases_left hends hagree''
  | error exc => exact erases_left (.error exc) hagree''

theorem Erases.toProgram {body : Block Op Res Exc σ α} {body' : Block Op Res Exc τ β}
    (h : Erases hidden may agree value body body') {l : σ} {l' : τ} (hagree : agree l l') :
    Program.Erases hidden may (Alike value) (body.toProgram l) (body'.toProgram l') := by
  refine Program.Erases.bind (h l l' hagree) ?_
  rintro _ _ ⟨hends, -⟩
  exact Program.Erases.ended hends

/-- A block whose calls are all hidden is erased to a block without calls. -/
theorem erases_hides {view : σ → γ} {good : Except Exc α → Prop} {body : Block Op Res Exc σ α} {b : β}
    (h : ∀ l, Hides hidden may view good l body) (hgood : ∀ exc, ¬good (.error exc))
    (hvalue : ∀ a, good (.ok a) → value a b) (hagree : ∀ l₀ l l', view l = view l₀ → agree l₀ l' → agree l l') :
    Erases hidden may agree value body (Pure.pure b) := by
  intro l₀ l' hagree₀
  have herased : Program.Erases hidden may (LeftAlike agree value) (body l₀) (Program.lift (.ok (.ok b, l'))) := by
    refine Program.Hides.erases (h l₀) ?_
    rintro _ ⟨exc | a, l, rfl, hview, hend⟩
    · exact absurd hend (hgood exc)
    · exact .left (.ok (hvalue a hend)) (hagree l₀ l l' hview hagree₀)
  exact herased

end Erases

end Block

end Effect
