import GpuInference.EffectPool

/-!
Threads that follow a protocol. A thread is a program together with the calls it has made so far
and their answers. A protocol says which calls a phase allows and which phase an answer leads to;
that a program follows it is checked on the program alone, by the rules for sequences, handlers and
`finally` blocks below. The interleaving is then argued once for every kind of call, not for every
point of the program.
-/

namespace Effect

/-- A call that was made, with its answer. -/
structure Event (Op : Type) (Res : Op → Type) (Exc : Type) where
  op : Op
  answer : Except Exc (Res op)

structure Thread (Op : Type) (Res : Op → Type) (Exc α : Type) where
  calls : List (Event Op Res Exc)
  program : Program Op Res Exc α
  crashed : Bool

/-- What each call does to the shared state, with every answer it may give. -/
abbrev Exec (Op : Type) (Res : Op → Type) (Exc S : Type) :=
  (op : Op) → S → Except Exc (Res op) → S → Prop

variable {Op : Type} {Res : Op → Type} {Exc α β S Φ : Type}

/-- The same calls, each only in states that meet a condition. -/
def Exec.restrict (exec : Exec Op Res Exc S) (meets : S → Op → Prop) : Exec Op Res Exc S :=
  fun op s answer s' => meets s op ∧ exec op s answer s'

namespace Program

/-- The program, run alone from `s`, ends with `outcome` in `s'`. -/
def Yields (exec : Exec Op Res Exc S) : Program Op Res Exc α → S → Except Exc α → S → Prop
  | ret value, s, outcome, s' => outcome = .ok value ∧ s' = s
  | raise exc, s, outcome, s' => outcome = .error exc ∧ s' = s
  | call op next, s, outcome, s' =>
      ∃ answer middle, exec op s answer middle ∧ (next answer).Yields exec middle outcome s'

/-- A program that is run alone ends as its run says. -/
theorem yields_run {exec : Exec Op Res Exc S} {answer : (op : Op) → S → Except Exc (Res op) × S}
    (hanswer : ∀ op s, exec op s (answer op s).1 (answer op s).2) (body : Program Op Res Exc α) (s : S) :
    body.Yields exec s (body.run answer s).1 (body.run answer s).2 := by
  induction body generalizing s with
  | ret value => exact ⟨rfl, rfl⟩
  | raise exc => exact ⟨rfl, rfl⟩
  | call op next ih => exact ⟨_, _, hanswer op s, ih _ _⟩

/-- What a program yields on some calls, it yields on calls that may do more. -/
theorem Yields.mono {exec exec' : Exec Op Res Exc S} (hmore : ∀ op s answer s', exec op s answer s' → exec' op s answer s')
    {body : Program Op Res Exc α} {s s' : S} {outcome : Except Exc α} (h : body.Yields exec s outcome s') :
    body.Yields exec' s outcome s' := by
  induction body generalizing s with
  | ret value => exact h
  | raise exc => exact h
  | call op next ih =>
      obtain ⟨answer, middle, hexec, hnext⟩ := h
      exact ⟨answer, middle, hmore op s answer middle hexec, ih answer hnext⟩

theorem yields_perform (exec : Exec Op Res Exc S) (op : Op) (s s' : S) (outcome : Except Exc (Res op)) :
    (perform op : Program Op Res Exc (Res op)).Yields exec s outcome s' ↔ exec op s outcome s' := by
  constructor
  · rintro ⟨exc | value, middle, hexec, rfl, rfl⟩
    · exact hexec
    · exact hexec
  · intro hexec
    refine ⟨outcome, s', hexec, ?_⟩
    cases outcome with
    | error exc => exact ⟨rfl, rfl⟩
    | ok value => exact ⟨rfl, rfl⟩

/-- A sequence ends with its rest, or where its first part raises. -/
theorem yields_bind (exec : Exec Op Res Exc S) (body : Program Op Res Exc α)
    (rest : α → Program Op Res Exc β) (s s' : S) (outcome : Except Exc β) :
    (body.bind rest).Yields exec s outcome s' ↔
      (∃ a middle, body.Yields exec s (.ok a) middle ∧ (rest a).Yields exec middle outcome s') ∨
        ∃ exc, body.Yields exec s (.error exc) s' ∧ outcome = .error exc := by
  induction body generalizing s with
  | ret a =>
      constructor
      · intro hrest
        exact .inl ⟨a, s, ⟨rfl, rfl⟩, hrest⟩
      · rintro (⟨a', middle, ⟨ha, rfl⟩, hrest⟩ | ⟨exc, ⟨hexc, -⟩, -⟩)
        · cases ha
          exact hrest
        · cases hexc
  | raise exc =>
      constructor
      · rintro ⟨rfl, rfl⟩
        exact .inr ⟨exc, ⟨rfl, rfl⟩, rfl⟩
      · rintro (⟨a, middle, ⟨ha, -⟩, -⟩ | ⟨other, ⟨hother, rfl⟩, rfl⟩)
        · cases ha
        · cases hother
          exact ⟨rfl, rfl⟩
  | call op next ih =>
      constructor
      · rintro ⟨answer, first, hexec, hnext⟩
        rcases (ih answer first).mp hnext with ⟨a, middle, hbody, hrest⟩ | ⟨exc, hbody, hexc⟩
        · exact .inl ⟨a, middle, ⟨answer, first, hexec, hbody⟩, hrest⟩
        · exact .inr ⟨exc, ⟨answer, first, hexec, hbody⟩, hexc⟩
      · rintro (⟨a, middle, ⟨answer, first, hexec, hbody⟩, hrest⟩ | ⟨exc, ⟨answer, first, hexec, hbody⟩, hexc⟩)
        · exact ⟨answer, first, hexec, (ih answer first).mpr (.inl ⟨a, middle, hbody, hrest⟩)⟩
        · exact ⟨answer, first, hexec, (ih answer first).mpr (.inr ⟨exc, hbody, hexc⟩)⟩

/-- A sequence that returns has returned from its first part. -/
theorem yields_bind_ok (exec : Exec Op Res Exc S) (body : Program Op Res Exc α)
    (rest : α → Program Op Res Exc β) (s s' : S) (value : β) :
    (body.bind rest).Yields exec s (.ok value) s' ↔
      ∃ a middle, body.Yields exec s (.ok a) middle ∧ (rest a).Yields exec middle (.ok value) s' := by
  induction body generalizing s with
  | ret a =>
      constructor
      · intro hrest
        exact ⟨a, s, ⟨rfl, rfl⟩, hrest⟩
      · rintro ⟨a', middle, ⟨ha, rfl⟩, hrest⟩
        cases ha
        exact hrest
  | raise exc =>
      constructor
      · rintro ⟨hvalue, -⟩
        cases hvalue
      · rintro ⟨a, middle, ⟨ha, -⟩, -⟩
        cases ha
  | call op next ih =>
      constructor
      · rintro ⟨answer, first, hexec, hnext⟩
        obtain ⟨a, middle, hbody, hrest⟩ := (ih answer first).mp hnext
        exact ⟨a, middle, ⟨answer, first, hexec, hbody⟩, hrest⟩
      · rintro ⟨a, middle, ⟨answer, first, hexec, hbody⟩, hrest⟩
        exact ⟨answer, first, hexec, (ih answer first).mpr ⟨a, middle, hbody, hrest⟩⟩

end Program

namespace Thread

def start (program : Program Op Res Exc α) : Thread Op Res Exc α := ⟨[], program, false⟩

/-- The thread has a call to make and will make it. -/
def running (t : Thread Op Res Exc α) : Bool :=
  match t.program with
  | .call _ _ => !t.crashed
  | _ => false

/-- One atomic step of a thread: its next call takes effect and is answered, or the thread stops
for good where it stands. -/
inductive Performs (exec : Exec Op Res Exc S) :
    S → Thread Op Res Exc α → S → Thread Op Res Exc α → Prop
  | call {s s' : S} {calls : List (Event Op Res Exc)} {op : Op}
      {next : Except Exc (Res op) → Program Op Res Exc α} {answer : Except Exc (Res op)}
      (h : exec op s answer s') :
      Performs exec s ⟨calls, .call op next, false⟩ s' ⟨calls ++ [⟨op, answer⟩], next answer, false⟩
  | crash {s : S} {calls : List (Event Op Res Exc)} {program : Program Op Res Exc α} :
      Performs exec s ⟨calls, program, false⟩ s ⟨calls, program, true⟩

end Thread

/-- Which calls a phase allows, and the phase after the answer. -/
structure Protocol (Op : Type) (Res : Op → Type) (Exc Φ : Type) where
  may : Φ → Op → Prop
  after : Φ → (op : Op) → Except Exc (Res op) → Φ

namespace Protocol

def phase (protocol : Protocol Op Res Exc Φ) (first : Φ) (calls : List (Event Op Res Exc)) : Φ :=
  calls.foldl (fun φ event => protocol.after φ event.op event.answer) first

@[simp] theorem phase_nil (protocol : Protocol Op Res Exc Φ) (first : Φ) :
    protocol.phase first [] = first := rfl

@[simp] theorem phase_append (protocol : Protocol Op Res Exc Φ) (first : Φ)
    (calls : List (Event Op Res Exc)) (event : Event Op Res Exc) :
    protocol.phase first (calls ++ [event]) =
      protocol.after (protocol.phase first calls) event.op event.answer := by
  simp [phase]

/-- Every call of the list was allowed in its phase. -/
def Keeps (protocol : Protocol Op Res Exc Φ) (first : Φ) (calls : List (Event Op Res Exc)) : Prop :=
  ∀ left event right, calls = left ++ event :: right → protocol.may (protocol.phase first left) event.op

theorem Keeps.append {protocol : Protocol Op Res Exc Φ} {first : Φ} {calls : List (Event Op Res Exc)}
    (h : protocol.Keeps first calls) {event : Event Op Res Exc}
    (hmay : protocol.may (protocol.phase first calls) event.op) :
    protocol.Keeps first (calls ++ [event]) := by
  intro left other right heq
  rcases List.eq_nil_or_concat right with rfl | ⟨init, last, rfl⟩
  · obtain ⟨rfl, hother⟩ := List.append_inj' heq rfl
    rw [← List.singleton_inj.mp hother]
    exact hmay
  · rw [List.concat_eq_append, ← List.cons_append, ← List.append_assoc] at heq
    obtain ⟨rfl, -⟩ := List.append_inj' heq rfl
    exact h left other init rfl

end Protocol

namespace Program

/-- Every call the program makes from this phase on is allowed, whatever the answers, and `done`
holds of the phase and the outcome at its end. -/
def Follows (protocol : Protocol Op Res Exc Φ) (done : Φ → Except Exc α → Prop) :
    Φ → Program Op Res Exc α → Prop
  | φ, ret value => done φ (.ok value)
  | φ, raise exc => done φ (.error exc)
  | φ, call op next => protocol.may φ op ∧
      ∀ answer, (next answer).Follows protocol done (protocol.after φ op answer)

variable {protocol : Protocol Op Res Exc Φ}

@[simp] theorem follows_ret (done : Φ → Except Exc α → Prop) (φ : Φ) (value : α) :
    (ret value : Program Op Res Exc α).Follows protocol done φ = done φ (.ok value) := rfl

@[simp] theorem follows_raise (done : Φ → Except Exc α → Prop) (φ : Φ) (exc : Exc) :
    (raise exc : Program Op Res Exc α).Follows protocol done φ = done φ (.error exc) := rfl

/-- A condition on each kind of outcome. -/
def eitherDone (returned : Φ → α → Prop) (raised : Φ → Exc → Prop) (φ : Φ) : Except Exc α → Prop
  | .ok value => returned φ value
  | .error exc => raised φ exc

/-- What has to hold after the first part of a sequence. -/
def seqDone (protocol : Protocol Op Res Exc Φ) (done : Φ → Except Exc β → Prop)
    (rest : α → Program Op Res Exc β) (φ : Φ) : Except Exc α → Prop
  | .ok value => (rest value).Follows protocol done φ
  | .error exc => done φ (.error exc)

theorem follows_bind (done : Φ → Except Exc β → Prop) (body : Program Op Res Exc α)
    (rest : α → Program Op Res Exc β) (φ : Φ) :
    (body.bind rest).Follows protocol done φ ↔ body.Follows protocol (seqDone protocol done rest) φ := by
  induction body generalizing φ with
  | ret value => exact Iff.rfl
  | raise exc => exact Iff.rfl
  | call op next ih => exact and_congr_right fun _ => forall_congr' fun answer => ih answer _

theorem Follows.mono {done done' : Φ → Except Exc α → Prop} {body : Program Op Res Exc α} {φ : Φ}
    (h : body.Follows protocol done φ) (himp : ∀ ψ outcome, done ψ outcome → done' ψ outcome) :
    body.Follows protocol done' φ := by
  induction body generalizing φ with
  | ret value => exact himp _ _ h
  | raise exc => exact himp _ _ h
  | call op next ih => exact ⟨h.1, fun answer => ih answer (h.2 answer)⟩

/-- A program that follows a protocol follows every coarser one. -/
theorem Follows.weaken {Ψ : Type} {coarse : Protocol Op Res Exc Ψ} {done : Φ → Except Exc α → Prop}
    {body : Program Op Res Exc α} {φ : Φ} (h : body.Follows protocol done φ) (view : Φ → Ψ)
    (hmay : ∀ φ op, protocol.may φ op → coarse.may (view φ) op)
    (hafter : ∀ φ op answer, coarse.after (view φ) op answer = view (protocol.after φ op answer)) :
    body.Follows coarse (fun _ _ => True) (view φ) := by
  induction body generalizing φ with
  | ret value => exact trivial
  | raise exc => exact trivial
  | call op next ih =>
      refine ⟨hmay φ op h.1, ?_⟩
      intro answer
      rw [hafter]
      exact ih answer (h.2 answer)

/-- In a phase that no call leaves, every program follows the protocol. -/
theorem follows_of_stays {done : Φ → Except Exc α → Prop} {φ : Φ} (hmay : ∀ op, protocol.may φ op)
    (hafter : ∀ op answer, protocol.after φ op answer = φ) (hdone : ∀ outcome, done φ outcome)
    (body : Program Op Res Exc α) : body.Follows protocol done φ := by
  induction body with
  | ret value => exact hdone _
  | raise exc => exact hdone _
  | call op next ih =>
      refine ⟨hmay op, ?_⟩
      intro answer
      rw [hafter]
      exact ih answer

/-- The same for a program of a smaller signature, whose calls do not leave the phase. -/
theorem follows_mapOp {Op' : Type} {Res' : Op' → Type} {protocol : Protocol Op' Res' Exc Φ}
    {done : Φ → Except Exc α → Prop} {φ : Φ} (f : Op → Op') (back : (op : Op) → Res' (f op) → Res op)
    (hmay : ∀ op, protocol.may φ (f op)) (hafter : ∀ op answer, protocol.after φ (f op) answer = φ)
    (hdone : ∀ outcome, done φ outcome) (body : Program Op Res Exc α) :
    (body.mapOp f back).Follows protocol done φ := by
  induction body with
  | ret value => exact hdone _
  | raise exc => exact hdone _
  | call op next ih =>
      refine ⟨hmay op, ?_⟩
      intro answer
      rw [hafter]
      exact ih _

/-- A program of a smaller signature follows every coarser protocol of the larger one. -/
theorem Follows.mapOp {Op' Ψ : Type} {Res' : Op' → Type} (coarse : Protocol Op' Res' Exc Ψ)
    {done : Φ → Except Exc α → Prop} {body : Program Op Res Exc α} {φ : Φ}
    (h : body.Follows protocol done φ) (f : Op → Op') (back : (op : Op) → Res' (f op) → Res op)
    (view : Φ → Ψ) (hmay : ∀ φ op, protocol.may φ op → coarse.may (view φ) (f op))
    (hafter : ∀ φ op answer, coarse.after (view φ) (f op) answer =
      view (protocol.after φ op (answer.map (back op)))) :
    (body.mapOp f back).Follows coarse (fun ψ outcome => ∃ φ, ψ = view φ ∧ done φ outcome) (view φ) := by
  induction body generalizing φ with
  | ret value => exact ⟨φ, rfl, h⟩
  | raise exc => exact ⟨φ, rfl, h⟩
  | call op next ih =>
      refine ⟨hmay φ op h.1, ?_⟩
      intro answer
      rw [hafter]
      exact ih _ (h.2 _)

theorem follows_perform (done : Φ → Except Exc (Res op) → Prop) (φ : Φ) :
    (perform op : Program Op Res Exc (Res op)).Follows protocol done φ ↔
      protocol.may φ op ∧ ∀ answer, done (protocol.after φ op answer) answer := by
  refine and_congr_right fun _ => forall_congr' fun answer => ?_
  cases answer <;> rfl

/-- A call in a sequence: an exception ends the sequence, a value goes on to the rest. -/
theorem follows_perform_bind {op : Op} {rest : Res op → Program Op Res Exc β}
    {done : Φ → Except Exc β → Prop} {φ : Φ} (hmay : protocol.may φ op)
    (herror : ∀ exc, done (protocol.after φ op (.error exc)) (.error exc))
    (hok : ∀ value, (rest value).Follows protocol done (protocol.after φ op (.ok value))) :
    ((perform op).bind rest).Follows protocol done φ := by
  rw [follows_bind, follows_perform]
  refine ⟨hmay, ?_⟩
  rintro (exc | value)
  · exact herror exc
  · exact hok value

theorem follows_lift (done : Φ → Except Exc α → Prop) (outcome : Except Exc α) (φ : Φ) :
    (lift outcome : Program Op Res Exc α).Follows protocol done φ ↔ done φ outcome := by
  cases outcome <;> rfl

/-- What has to hold at the end of the body of a `try` with a handler. -/
def exceptDone (protocol : Protocol Op Res Exc Φ) (done : Φ → Except Exc α → Prop)
    (catches : Exc → Bool) (handler : Exc → Program Op Res Exc α) (φ : Φ) : Except Exc α → Prop
  | .ok value => done φ (.ok value)
  | .error exc => if catches exc then (handler exc).Follows protocol done φ else done φ (.error exc)

theorem follows_tryExcept (done : Φ → Except Exc α → Prop) (catches : Exc → Bool)
    (body : Program Op Res Exc α) (handler : Exc → Program Op Res Exc α) (φ : Φ) :
    (tryExcept catches body handler).Follows protocol done φ ↔
      body.Follows protocol (exceptDone protocol done catches handler) φ := by
  induction body generalizing φ with
  | ret value => exact Iff.rfl
  | raise exc =>
      simp only [tryExcept, follows_raise, exceptDone]
      split
      · exact Iff.rfl
      · exact Iff.rfl
  | call op next ih => exact and_congr_right fun _ => forall_congr' fun answer => ih answer _

/-- A call whose value is dropped, with a handler that does nothing. -/
theorem follows_dropped {op : Op} {done : Φ → Except Exc Unit → Prop} {φ : Φ} (catches : Exc → Bool)
    (hmay : protocol.may φ op) (hok : ∀ answer, done (protocol.after φ op answer) (.ok ()))
    (herror : ∀ exc, catches exc = false → done (protocol.after φ op (.error exc)) (.error exc)) :
    (tryExcept catches ((perform op).bind fun _ => ret ()) fun _ => ret ()).Follows protocol done φ := by
  rw [follows_tryExcept]
  refine follows_perform_bind hmay ?_ fun value => hok (.ok value)
  intro exc
  simp only [exceptDone]
  split
  · exact hok (.error exc)
  · rename_i hcatches
    exact herror exc (by simpa using hcatches)

/-- What has to hold at the end of a `finally` block entered with `outcome`. -/
def finallyDone (done : Φ → Except Exc α → Prop) (outcome : Except Exc α) (φ : Φ) :
    Except Exc Unit → Prop
  | .ok _ => done φ outcome
  | .error exc => done φ (.error exc)

theorem follows_tryFinally (done : Φ → Except Exc α → Prop) (body : Program Op Res Exc α)
    (final : Program Op Res Exc Unit) (φ : Φ) :
    (tryFinally body final).Follows protocol done φ ↔
      body.Follows protocol (fun ψ outcome =>
        final.Follows protocol (finallyDone done outcome) ψ) φ := by
  induction body generalizing φ with
  | ret value =>
      have hdone : seqDone protocol done (fun _ : Unit => ret value) =
          finallyDone done (.ok value) := by
        funext ψ outcome
        cases outcome <;> rfl
      rw [tryFinally, follows_bind, hdone]
      rfl
  | raise exc =>
      have hdone : seqDone protocol done (fun _ : Unit => raise exc) =
          finallyDone done (.error exc) := by
        funext ψ outcome
        cases outcome <;> rfl
      rw [tryFinally, follows_bind, hdone]
      rfl
  | call op next ih => exact and_congr_right fun _ => forall_congr' fun answer => ih answer _

/-- **The run rule.** A relation between phases and states that every allowed call preserves holds at
the end of a run, together with what the protocol says of that end. -/
theorem Follows.run {answer : (op : Op) → S → Except Exc (Res op) × S} {relates : Φ → S → Prop}
    {done : Φ → Except Exc α → Prop} {body : Program Op Res Exc α} {φ : Φ} {s : S}
    (h : body.Follows protocol done φ) (hs : relates φ s)
    (hcall : ∀ φ op s, relates φ s → protocol.may φ op →
      relates (protocol.after φ op (answer op s).1) (answer op s).2) :
    ∃ ψ, relates ψ (body.run answer s).2 ∧ done ψ (body.run answer s).1 := by
  induction body generalizing φ s with
  | ret value => exact ⟨φ, hs, h⟩
  | raise exc => exact ⟨φ, hs, h⟩
  | call op next ih => exact ih _ (h.2 _) (hcall φ op s hs h.1)

/-- The run rule for a program that some answers may interrupt: the same for every way it can end. -/
theorem Follows.yields {exec : Exec Op Res Exc S} {done : Φ → Except Exc α → Prop} {body : Program Op Res Exc α} {φ : Φ}
    {s s' : S} {outcome : Except Exc α} (relates : Φ → S → Prop) (h : body.Follows protocol done φ)
    (hyields : body.Yields exec s outcome s') (hs : relates φ s)
    (hcall : ∀ φ op s answer s', relates φ s → protocol.may φ op → exec op s answer s' →
      relates (protocol.after φ op answer) s') :
    ∃ ψ, relates ψ s' ∧ done ψ outcome := by
  induction body generalizing φ s with
  | ret value =>
      obtain ⟨rfl, rfl⟩ := hyields
      exact ⟨φ, hs, h⟩
  | raise exc =>
      obtain ⟨rfl, rfl⟩ := hyields
      exact ⟨φ, hs, h⟩
  | call op next ih =>
      obtain ⟨answer, middle, hexec, hrest⟩ := hyields
      exact ih answer (h.2 answer) hrest (hcall φ op s answer middle hs h.1 hexec)

end Program

section Interleave

variable {M : Type} [AddCommMonoid M]

/-- The system of threads that run the programs `runs` and share a state changed only by calls. -/
def callSystem (exec : Exec Op Res Exc S) (runs : Program Op Res Exc α → Prop) :
    System S (Thread Op Res Exc α) where
  starts _ t := ∃ program, runs program ∧ t = Thread.start program
  act := Thread.Performs exec
  env _ _ := False

section Runs

variable {exec : Exec Op Res Exc S} {runs : Program Op Res Exc α → Prop} {first s s' : S}

theorem reachable_start {threads : List (Thread Op Res Exc α)} {program : Program Op Res Exc α}
    (h : (callSystem exec runs).Reachable first ⟨s, threads⟩) (hruns : runs program) :
    (callSystem exec runs).Reachable first ⟨s, threads ++ [Thread.start program]⟩ :=
  h.tail (.start _ ⟨program, hruns, rfl⟩)

theorem reachable_call (left right : List (Thread Op Res Exc α)) {calls : List (Event Op Res Exc)}
    {op : Op} {next : Except Exc (Res op) → Program Op Res Exc α} {answer : Except Exc (Res op)}
    (h : (callSystem exec runs).Reachable first
      ⟨s, left ++ ⟨calls, .call op next, false⟩ :: right⟩) (hexec : exec op s answer s') :
    (callSystem exec runs).Reachable first
      ⟨s', left ++ ⟨calls ++ [⟨op, answer⟩], next answer, false⟩ :: right⟩ :=
  h.tail (.act left right (.call hexec))

theorem reachable_crash (left right : List (Thread Op Res Exc α)) {calls : List (Event Op Res Exc)}
    {program : Program Op Res Exc α}
    (h : (callSystem exec runs).Reachable first ⟨s, left ++ ⟨calls, program, false⟩ :: right⟩) :
    (callSystem exec runs).Reachable first ⟨s, left ++ ⟨calls, program, true⟩ :: right⟩ :=
  h.tail (.act left right .crash)

end Runs

/-- Every thread of every interleaving has made only calls that its protocol allows, and goes on following it. -/
theorem reachable_follows {exec : Exec Op Res Exc S} {runs : Program Op Res Exc α → Prop}
    {protocol : Protocol Op Res Exc Φ} {first : Φ} {done : Φ → Except Exc α → Prop} {s : S}
    {p : Pool S (Thread Op Res Exc α)}
    (hruns : ∀ program, runs program → program.Follows protocol done first)
    (hreach : (callSystem exec runs).Reachable s p) :
    ∀ t ∈ p.threads, protocol.Keeps first t.calls ∧ t.program.Follows protocol done (protocol.phase first t.calls) := by
  let Inv (p : Pool S (Thread Op Res Exc α)) : Prop := ∀ t ∈ p.threads, protocol.Keeps first t.calls ∧
    t.program.Follows protocol done (protocol.phase first t.calls)
  have hstart : Inv ⟨s, []⟩ := List.forall_mem_nil _
  suffices hstep : ∀ p q, Inv p → (callSystem exec runs).Step p q → Inv q from hreach.invariant hstart hstep
  intro p q hp hstep
  cases hstep with
  | start t hstart =>
      obtain ⟨program, hprogram, rfl⟩ := hstart
      intro u hu
      rcases List.mem_append.mp hu with hu | hu
      · exact hp u hu
      · rw [List.mem_singleton.mp hu]
        refine ⟨?_, hruns program hprogram⟩
        intro left event right heq
        exact absurd heq (by simp [Thread.start])
  | act left right hact =>
      rename_i t t'
      obtain ⟨hkeeps, hfollows⟩ := hp t (by simp)
      have ht' : protocol.Keeps first t'.calls ∧
          t'.program.Follows protocol done (protocol.phase first t'.calls) := by
        cases hact with
        | call hexec =>
            refine ⟨hkeeps.append hfollows.1, ?_⟩
            rw [Protocol.phase_append]
            exact hfollows.2 _
        | crash => exact ⟨hkeeps, hfollows⟩
      intro u hu
      rcases List.mem_append.mp hu with hu | hu
      · exact hp u (by simp [hu])
      · rcases List.mem_cons.mp hu with rfl | hu
        · exact ht'
        · exact hp u (by simp [hu])
  | env henv => exact henv.elim

/-- **The trace rule.** If every program follows the protocol, every thread of every interleaving has
made only calls that were allowed. -/
theorem reachable_keeps {exec : Exec Op Res Exc S} {runs : Program Op Res Exc α → Prop}
    {protocol : Protocol Op Res Exc Φ} {first : Φ} {done : Φ → Except Exc α → Prop} {s : S}
    {p : Pool S (Thread Op Res Exc α)}
    (hruns : ∀ program, runs program → program.Follows protocol done first)
    (hreach : (callSystem exec runs).Reachable s p) :
    ∀ t ∈ p.threads, protocol.Keeps first t.calls := fun t ht => (reachable_follows hruns hreach t ht).1

/-- A call that some thread has made. -/
def Pool.Made (p : Pool S (Thread Op Res Exc α)) (event : Event Op Res Exc) : Prop :=
  ∃ t ∈ p.threads, event ∈ t.calls

theorem Pool.made_middle {s : S} (left right : List (Thread Op Res Exc α)) (t : Thread Op Res Exc α)
    (event : Event Op Res Exc) :
    Pool.Made ⟨s, left ++ t :: right⟩ event ↔ event ∈ t.calls ∨ Pool.Made ⟨s, left ++ right⟩ event := by
  constructor
  · rintro ⟨u, hu, hevent⟩
    rcases List.mem_append.mp hu with hu | hu
    · exact .inr ⟨u, List.mem_append_left _ hu, hevent⟩
    · rcases List.mem_cons.mp hu with rfl | hu
      · exact .inl hevent
      · exact .inr ⟨u, List.mem_append_right _ hu, hevent⟩
  · rintro (hevent | ⟨u, hu, hevent⟩)
    · exact ⟨t, by simp, hevent⟩
    · refine ⟨u, ?_, hevent⟩
      rcases List.mem_append.mp hu with hu | hu
      · exact List.mem_append_left _ hu
      · exact List.mem_append_right _ (List.mem_cons_of_mem _ hu)

/-- **The history rule.** What every call of a reachable pool preserves of the shared state and of the calls
that have been made holds in every reachable pool. -/
theorem reachable_history {exec : Exec Op Res Exc S} {runs : Program Op Res Exc α → Prop} {s : S}
    (Inv : S → (Event Op Res Exc → Prop) → Prop) (hinit : Inv s fun _ => False)
    (hcall : ∀ left right calls op next answer s₁ s₂,
      (callSystem exec runs).Reachable s ⟨s₁, left ++ ⟨calls, .call op next, false⟩ :: right⟩ →
      Inv s₁ (Pool.Made ⟨s₁, left ++ ⟨calls, .call op next, false⟩ :: right⟩) → exec op s₁ answer s₂ →
      Inv s₂ fun event => Pool.Made ⟨s₁, left ++ ⟨calls, .call op next, false⟩ :: right⟩ event ∨
        event = ⟨op, answer⟩)
    {p : Pool S (Thread Op Res Exc α)} (hreach : (callSystem exec runs).Reachable s p) :
    Inv p.shared p.Made := by
  have hsame : ∀ {p : Pool S (Thread Op Res Exc α)} {made : Event Op Res Exc → Prop},
      Inv p.shared made → (∀ event, p.Made event ↔ made event) → Inv p.shared p.Made := by
    intro p made hinv hiff
    have heq : p.Made = made := funext fun event => propext (hiff event)
    rw [heq]
    exact hinv
  induction hreach with
  | refl =>
    refine hsame hinit ?_
    intro event
    refine iff_of_false ?_ id
    rintro ⟨t, ht, -⟩
    cases ht
  | tail hbefore hstep hp =>
    cases hstep with
    | start t hstart =>
        obtain ⟨program, -, rfl⟩ := hstart
        refine hsame hp ?_
        intro event
        rw [Pool.made_middle, List.append_nil]
        exact or_iff_right List.not_mem_nil
    | act left right hact =>
        cases hact with
        | call hexec =>
            refine hsame (hcall _ _ _ _ _ _ _ _ hbefore hp hexec) ?_
            intro event
            rw [Pool.made_middle, Pool.made_middle, List.mem_append, List.mem_singleton, or_right_comm]
            exact Iff.rfl
        | crash =>
            refine hsame hp ?_
            intro event
            rw [Pool.made_middle, Pool.made_middle]
    | env henv => exact henv.elim

/-- The history rule, for what every call preserves whatever pool it is made in. -/
theorem reachable_made {exec : Exec Op Res Exc S} {runs : Program Op Res Exc α → Prop} {s : S}
    (Inv : S → (Event Op Res Exc → Prop) → Prop) (hinit : Inv s fun _ => False)
    (hcall : ∀ s made op answer s', Inv s made → exec op s answer s' →
      Inv s' fun event => made event ∨ event = ⟨op, answer⟩)
    {p : Pool S (Thread Op Res Exc α)} (hreach : (callSystem exec runs).Reachable s p) :
    Inv p.shared p.Made :=
  reachable_history Inv hinit (fun _ _ _ _ _ _ _ _ _ hinv hexec => hcall _ _ _ _ _ hinv hexec) hreach

/-- What a thread in a phase knows, and that it will go on following the protocol. -/
def Knows (protocol : Protocol Op Res Exc Φ) (first : Φ) (done : Φ → Except Exc α → Prop)
    (assert : S → Φ → Prop) (s : S) (t : Thread Op Res Exc α) : Prop :=
  assert s (protocol.phase first t.calls) ∧ t.program.Follows protocol done (protocol.phase first t.calls)

/-- Phase by phase: what one allowed call has to preserve. -/
structure Justified (exec : Exec Op Res Exc S) (protocol : Protocol Op Res Exc Φ)
    (first : Φ) (weight : Φ → M) (R : S → M → Prop) (assert : S → Φ → Prop) : Prop where
  start : weight first = 0 ∧ ∀ s, assert s first
  call : ∀ φ op s answer s' m, R s (weight φ + m) → assert s φ → protocol.may φ op →
    exec op s answer s' →
    R s' (weight (protocol.after φ op answer) + m) ∧ assert s' (protocol.after φ op answer)
  frame : ∀ φ ψ op s answer s' m, R s (weight φ + (weight ψ + m)) → assert s φ → assert s ψ →
    protocol.may φ op → exec op s answer s' → assert s' ψ

/-- What is justified for an abstract state is justified for every state that refines it. -/
theorem Justified.comap {S' : Type} {exec : Exec Op Res Exc S} {exec' : Exec Op Res Exc S'}
    {protocol : Protocol Op Res Exc Φ} {first : Φ} {weight : Φ → M} {R : S → M → Prop}
    {assert : S → Φ → Prop} (h : Justified exec protocol first weight R assert) (view : S' → S)
    (hrefines : ∀ op s answer s', exec' op s answer s' → exec op (view s) answer (view s')) :
    Justified exec' protocol first weight (fun s => R (view s)) (fun s => assert (view s)) where
  start := ⟨h.start.1, fun s => h.start.2 (view s)⟩
  call φ op s answer s' m hR hφ hmay hexec :=
    h.call φ op _ answer _ m hR hφ hmay (hrefines op s answer s' hexec)
  frame φ ψ op s answer s' m hR hφ hψ hmay hexec :=
    h.frame φ ψ op _ answer _ m hR hφ hψ hmay (hrefines op s answer s' hexec)

variable {exec : Exec Op Res Exc S} {runs : Program Op Res Exc α → Prop}
  {protocol : Protocol Op Res Exc Φ} {first : Φ} {weight : Φ → M} {R : S → M → Prop}
  {assert : S → Φ → Prop} {done : Φ → Except Exc α → Prop}

/-- **The protocol rule.** If every program follows the protocol and every allowed call preserves
what the phases say, then every step of every interleaving does. -/
theorem Justified.accounts (h : Justified exec protocol first weight R assert)
    (hruns : ∀ program, runs program → program.Follows protocol done first) :
    System.Accounts (callSystem exec runs) (fun _ t => weight (protocol.phase first t.calls)) R
      (Knows protocol first done assert) where
  start s t m hR ht := by
    obtain ⟨program, hprogram, rfl⟩ := ht
    refine ⟨?_, h.start.2 s, hruns program hprogram⟩
    simpa [Thread.start, h.start.1] using hR
  act s t s' t' m hR hA hstep := by
    obtain ⟨hassert, hfollows⟩ := hA
    cases hstep with
    | call hexec =>
        obtain ⟨hR', hassert'⟩ := h.call _ _ s _ s' m hR hassert hfollows.1 hexec
        simp only [Knows, Protocol.phase_append]
        exact ⟨hR', hassert', hfollows.2 _⟩
    | crash => exact ⟨hR, hassert, hfollows⟩
  frame s t s' t' u m hR hAt hAu hstep := by
    refine ⟨rfl, ?_, hAu.2⟩
    cases hstep with
    | call hexec => exact h.frame _ _ _ s _ s' m hR hAt.1 hAu.1 hAt.2.1 hexec
    | crash => exact hAu.1
  env _ _ _ _ _ henv := henv.elim

/-- The same threads in an environment that changes the shared state too. -/
def openSystem (exec : Exec Op Res Exc S) (runs : Program Op Res Exc α → Prop) (env : S → S → Prop) :
    System S (Thread Op Res Exc α) :=
  { callSystem exec runs with env := env }

theorem Justified.openAccounts (h : Justified exec protocol first weight R assert)
    (hruns : ∀ program, runs program → program.Follows protocol done first) {env : S → S → Prop}
    (henv : ∀ s s' m, R s m → env s s' → R s' m)
    (hassert : ∀ s s' φ, assert s φ → env s s' → assert s' φ) :
    System.Accounts (openSystem exec runs env) (fun _ t => weight (protocol.phase first t.calls)) R
      (Knows protocol first done assert) where
  start := (h.accounts hruns).start
  act := (h.accounts hruns).act
  frame := (h.accounts hruns).frame
  env s s' _ hR hA hstep :=
    ⟨henv s s' _ hR hstep, fun t ht => ⟨hassert s s' _ (hA t ht).1 hstep, (hA t ht).2⟩⟩

end Interleave

end Effect
