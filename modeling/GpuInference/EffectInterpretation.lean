import GpuInference.EffectInversion

/-!
Interpretation of calls. Every call of a program is replaced by a program that answers it, over another signature and with
other exceptions. An interpretation commutes with sequences, with `try` statements and with blocks, so the interpretation
of a composed program is composed of the interpretations of its parts; and a trace of it is a trace of the program, each
call with the calls that answer it.
-/

namespace Effect

variable {Op Op' : Type} {Res : Op → Type} {Res' : Op' → Type} {Exc Exc' α β σ : Type}

namespace Program

/-- The program with every call `op` answered by `handler op`, and its exceptions as `into` gives them. -/
def interpret (handler : (op : Op) → Program Op' Res' Exc' (Except Exc (Res op))) (into : Exc → Exc') :
    Program Op Res Exc α → Program Op' Res' Exc' α
  | ret value => ret value
  | raise exc => raise (into exc)
  | call op next => (handler op).bind fun answer => interpret handler into (next answer)

variable {handler : (op : Op) → Program Op' Res' Exc' (Except Exc (Res op))} {into : Exc → Exc'}

@[simp] theorem interpret_ret (value : α) :
    (ret value : Program Op Res Exc α).interpret handler into = ret value := rfl

@[simp] theorem interpret_raise (exc : Exc) :
    (raise exc : Program Op Res Exc α).interpret handler into = raise (into exc) := rfl

@[simp] theorem interpret_call (op : Op) (next : Except Exc (Res op) → Program Op Res Exc α) :
    (call op next).interpret handler into =
      (handler op).bind fun answer => (next answer).interpret handler into := rfl

theorem interpret_lift (outcome : Except Exc α) :
    (lift outcome : Program Op Res Exc α).interpret handler into = lift (outcome.mapError into) := by
  cases outcome with
  | ok value => rfl
  | error exc => rfl

/-- **An interpretation is a morphism of sequences.** -/
theorem interpret_bind (body : Program Op Res Exc α) (rest : α → Program Op Res Exc β) :
    (body.bind rest).interpret handler into =
      (body.interpret handler into).bind fun value => (rest value).interpret handler into := by
  induction body with
  | ret value => rfl
  | raise exc => rfl
  | call op next ih =>
      rw [call_bind, interpret_call, interpret_call, bind_assoc]
      congr 1
      funext answer
      exact ih answer

/-- A program that does not raise passes a `try` statement. -/
theorem tryExcept_bind_of_quiet {catches : Exc' → Bool} {body : Program Op' Res' Exc' α}
    {rest : α → Program Op' Res' Exc' β} {otherwise : Exc' → Program Op' Res' Exc' β} (h : body.Quiet) :
    tryExcept catches (body.bind rest) otherwise = body.bind fun value => tryExcept catches (rest value) otherwise := by
  induction body with
  | ret value => rfl
  | raise exc => exact h.elim
  | call op next ih =>
      rw [call_bind, tryExcept_call, call_bind]
      congr 1
      funext answer
      exact ih answer (h answer)

theorem tryFinally_bind_of_quiet {body : Program Op' Res' Exc' α} {rest : α → Program Op' Res' Exc' β}
    {final : Program Op' Res' Exc' Unit} (h : body.Quiet) :
    tryFinally (body.bind rest) final = body.bind fun value => tryFinally (rest value) final := by
  induction body with
  | ret value => rfl
  | raise exc => exact h.elim
  | call op next ih =>
      rw [call_bind, tryFinally, call_bind]
      congr 1
      funext answer
      exact ih answer (h answer)

/-- A `try` statement, for handlers that agree on the exceptions that arise. -/
theorem interpret_tryExcept {catches : Exc → Bool} {catches' : Exc' → Bool} {body : Program Op Res Exc α}
    {otherwise : Exc → Program Op Res Exc α} {otherwise' : Exc' → Program Op' Res' Exc' α}
    (hquiet : ∀ op, (handler op).Quiet) (hcatches : ∀ exc, catches' (into exc) = catches exc)
    (hotherwise : ∀ exc, otherwise' (into exc) = (otherwise exc).interpret handler into) :
    (tryExcept catches body otherwise).interpret handler into =
      tryExcept catches' (body.interpret handler into) otherwise' := by
  induction body with
  | ret value => rfl
  | raise exc =>
      rw [tryExcept, interpret_raise, tryExcept, hcatches]
      by_cases h : catches exc = true
      · rw [if_pos h, if_pos h, hotherwise]
      · rw [if_neg h, if_neg h, interpret_raise]
  | call op next ih =>
      rw [tryExcept_call, interpret_call, interpret_call, tryExcept_bind_of_quiet (hquiet op)]
      congr 1
      funext answer
      exact ih answer

theorem interpret_tryFinally {body : Program Op Res Exc α} {final : Program Op Res Exc Unit}
    (hquiet : ∀ op, (handler op).Quiet) :
    (tryFinally body final).interpret handler into =
      tryFinally (body.interpret handler into) (final.interpret handler into) := by
  induction body with
  | ret value => exact interpret_bind final _
  | raise exc => exact interpret_bind final _
  | call op next ih =>
      rw [tryFinally, interpret_call, interpret_call, tryFinally_bind_of_quiet (hquiet op)]
      congr 1
      funext answer
      exact ih answer

/-- An interpretation of an interpretation. -/
theorem interpret_interpret {Op'' Exc'' : Type} {Res'' : Op'' → Type}
    (handler' : (op : Op') → Program Op'' Res'' Exc'' (Except Exc' (Res' op))) (into' : Exc' → Exc'')
    (body : Program Op Res Exc α) :
    (body.interpret handler into).interpret handler' into' =
      body.interpret (fun op => (handler op).interpret handler' into') (into' ∘ into) := by
  induction body with
  | ret value => rfl
  | raise exc => rfl
  | call op next ih =>
      rw [interpret_call, interpret_bind, interpret_call]
      congr 1
      funext answer
      exact ih answer

/-- The calls answer these events, one after the other. -/
inductive Answers (handler : (op : Op) → Program Op' Res' Exc' (Except Exc (Res op))) :
    List (Event Op' Res' Exc') → List (Event Op Res Exc) → Prop
  | nil : Answers handler [] []
  | cons {op : Op} {answer : Except Exc (Res op)} {left right : List (Event Op' Res' Exc')}
      {events : List (Event Op Res Exc)} (h : (handler op).Traces left (.ok answer))
      (hrest : Answers handler right events) : Answers handler (left ++ right) (⟨op, answer⟩ :: events)

/-- **A trace of the interpretation** is a trace of the program, with the calls that answer it. -/
theorem exists_traces_of_interpret (hquiet : ∀ op, (handler op).Quiet) {body : Program Op Res Exc α}
    {calls : List (Event Op' Res' Exc')} {outcome : Except Exc' α}
    (h : (body.interpret handler into).Traces calls outcome) :
    ∃ events out, body.Traces events out ∧ outcome = out.mapError into ∧ Answers handler calls events := by
  induction body generalizing calls with
  | ret value =>
      obtain ⟨rfl, rfl⟩ := h
      exact ⟨[], .ok value, ⟨rfl, rfl⟩, rfl, .nil⟩
  | raise exc =>
      obtain ⟨rfl, rfl⟩ := h
      exact ⟨[], .error exc, ⟨rfl, rfl⟩, rfl, .nil⟩
  | call op next ih =>
      rcases traces_bind.mp h with ⟨exc, hraised, -⟩ | ⟨answer, left, right, rfl, hanswer, hrest⟩
      · exact absurd hraised (hquiet op).traces
      · obtain ⟨events, out, hevents, houtcome, hanswers⟩ := ih answer hrest
        exact ⟨_, out, ⟨answer, events, rfl, hevents⟩, houtcome, .cons hanswer hanswers⟩

end Program

namespace Block

/-- The block with its calls answered by `handler`, and its exceptions as `into` gives them. -/
def interpret (handler : (op : Op) → Program Op' Res' Exc' (Except Exc (Res op))) (into : Exc → Exc')
    (body : Block Op Res Exc σ α) : Block Op' Res' Exc' σ α :=
  fun l => ((body l).interpret handler into).bind fun left => .ret (left.1.mapError into, left.2)

variable {handler : (op : Op) → Program Op' Res' Exc' (Except Exc (Res op))} {into : Exc → Exc'}

/-- The interpretation of what comes after a block. -/
theorem interpret_seq {body : Block Op Res Exc σ α} {rest : Except Exc α × σ → Program Op Res Exc (Except Exc β × σ)}
    {rest' : Except Exc' α × σ → Program Op' Res' Exc' (Except Exc' β × σ)} {l : σ}
    (h : ∀ outcome l, rest' (outcome.mapError into, l) =
      ((rest (outcome, l)).interpret handler into).bind fun left => .ret (left.1.mapError into, left.2)) :
    (((body l).bind rest).interpret handler into).bind (fun left => .ret (left.1.mapError into, left.2)) =
      ((body.interpret handler into) l).bind rest' := by
  rw [Program.interpret_bind, interpret, Program.bind_assoc, Program.bind_assoc]
  congr 1
  funext left
  exact (h left.1 left.2).symm

theorem interpret_tryExcept {catches : Exc → Bool} {catches' : Exc' → Bool} {body : Block Op Res Exc σ α}
    {otherwise : Exc → Block Op Res Exc σ α} {otherwise' : Exc' → Block Op' Res' Exc' σ α}
    (hcatches : ∀ exc, catches' (into exc) = catches exc)
    (hotherwise : ∀ exc, otherwise' (into exc) = (otherwise exc).interpret handler into) :
    (tryExcept catches body otherwise).interpret handler into =
      tryExcept catches' (body.interpret handler into) otherwise' := by
  funext l
  apply interpret_seq
  intro outcome l
  cases outcome with
  | ok value => rfl
  | error exc =>
      simp only [Except.mapError, handle, hcatches, hotherwise]
      by_cases h : catches exc = true
      · rw [if_pos h, if_pos h]
        rfl
      · rw [if_neg h, if_neg h]
        rfl

theorem interpret_tryFinally {body : Block Op Res Exc σ α} {final : Block Op Res Exc σ Unit} :
    (tryFinally body final).interpret handler into =
      tryFinally (body.interpret handler into) (final.interpret handler into) := by
  funext l
  apply interpret_seq
  intro outcome l
  symm
  apply interpret_seq
  intro done l
  cases done with
  | ok done => rfl
  | error exc => rfl

theorem interpret_interpret {Op'' Exc'' : Type} {Res'' : Op'' → Type}
    (handler' : (op : Op') → Program Op'' Res'' Exc'' (Except Exc' (Res' op))) (into' : Exc' → Exc'')
    (body : Block Op Res Exc σ α) :
    (body.interpret handler into).interpret handler' into' =
      body.interpret (fun op => (handler op).interpret handler' into') (into' ∘ into) := by
  funext l
  rw [interpret, interpret, Program.interpret_bind, Program.interpret_interpret, Program.bind_assoc, interpret]
  congr 1
  funext left
  obtain ⟨outcome, l⟩ := left
  cases outcome with
  | ok value => rfl
  | error exc => rfl

theorem toProgram_interpret (body : Block Op Res Exc σ α) (l : σ) :
    (body.interpret handler into).toProgram l = (body.toProgram l).interpret handler into := by
  rw [toProgram, toProgram, interpret, Program.interpret_bind, Program.bind_assoc]
  congr 1
  funext left
  rw [Program.ret_bind, Program.interpret_lift]

end Block

end Effect
