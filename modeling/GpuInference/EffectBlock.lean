import GpuInference.EffectProtocol

/-!
Blocks of statements. A block reads and assigns local variables, and a handler or a `finally` block
sees the values they had when the body was left, whichever way it was left. So a block that has run
hands on the outcome together with the locals. A finished block is run as a program. A condition on
the end of a block is proved statement by statement, by one rule for each way of composing blocks.
-/

namespace Effect

variable {Op : Type} {Res : Op → Type} {Exc α β σ S Φ : Type}

namespace Program

/-- The outcome of a program as a value; an attempt does not raise. -/
def attempt : Program Op Res Exc α → Program Op Res Exc (Except Exc α)
  | ret value => ret (.ok value)
  | raise exc => ret (.error exc)
  | call op next => call op fun answer => (next answer).attempt

theorem run_attempt (answer : (op : Op) → S → Except Exc (Res op) × S) (body : Program Op Res Exc α)
    (s : S) : body.attempt.run answer s = (.ok (body.run answer s).1, (body.run answer s).2) := by
  induction body generalizing s with
  | ret value => rfl
  | raise exc => rfl
  | call op next ih => exact ih _ _

theorem follows_attempt {protocol : Protocol Op Res Exc Φ}
    (done : Φ → Except Exc (Except Exc α) → Prop) (body : Program Op Res Exc α) (φ : Φ) :
    body.attempt.Follows protocol done φ ↔
      body.Follows protocol (fun ψ outcome => done ψ (.ok outcome)) φ := by
  induction body generalizing φ with
  | ret value => exact Iff.rfl
  | raise exc => exact Iff.rfl
  | call op next ih => exact and_congr_right fun _ => forall_congr' fun answer => ih answer _

end Program

/-- A block of statements over the locals `σ`. -/
def Block (Op : Type) (Res : Op → Type) (Exc σ α : Type) :=
  σ → Program Op Res Exc (Except Exc α × σ)

namespace Block

def pure (value : α) : Block Op Res Exc σ α := fun l => .ret (.ok value, l)

def throw (exc : Exc) : Block Op Res Exc σ α := fun l => .ret (.error exc, l)

/-- The rest of a sequence: it is skipped when an exception is on its way. -/
def andThen (rest : α → Block Op Res Exc σ β) : Except Exc α × σ → Program Op Res Exc (Except Exc β × σ)
  | (.ok value, l) => rest value l
  | (.error exc, l) => .ret (.error exc, l)

def bind (body : Block Op Res Exc σ α) (rest : α → Block Op Res Exc σ β) : Block Op Res Exc σ β :=
  fun l => (body l).bind (andThen rest)

instance : Monad (Block Op Res Exc σ) where
  pure := pure
  bind := bind

/-- `await body`, for a call that does not touch the locals. -/
def await (body : Program Op Res Exc α) : Block Op Res Exc σ α := fun l =>
  body.attempt.bind fun outcome => .ret (outcome, l)

/-- The result of a computation that makes no call. -/
def lift (outcome : Except Exc α) : Block Op Res Exc σ α := fun l => .ret (outcome, l)

@[simp] theorem lift_ok_bind (value : α) (rest : α → Block Op Res Exc σ β) :
    (lift (.ok value) >>= rest) = rest value := rfl

def locals : Block Op Res Exc σ σ := fun l => .ret (.ok l, l)

def assign (f : σ → σ) : Block Op Res Exc σ Unit := fun l => .ret (.ok (), f l)

/-- What `except` does with the outcome of its body. -/
def handle (catches : Exc → Bool) (handler : Exc → Block Op Res Exc σ α) :
    Except Exc α × σ → Program Op Res Exc (Except Exc α × σ)
  | (.ok value, l) => .ret (.ok value, l)
  | (.error exc, l) => if catches exc then handler exc l else .ret (.error exc, l)

/-- `try: body except ...: handler`, for the exceptions that `catches` accepts. -/
def tryExcept (catches : Exc → Bool) (body : Block Op Res Exc σ α)
    (handler : Exc → Block Op Res Exc σ α) : Block Op Res Exc σ α :=
  fun l => (body l).bind (handle catches handler)

/-- How a `try` statement with a `finally` block ends. -/
def conclude (outcome : Except Exc α) : Except Exc Unit × σ → Program Op Res Exc (Except Exc α × σ)
  | (.ok _, l) => .ret (outcome, l)
  | (.error exc, l) => .ret (.error exc, l)

/-- `try: body finally: final`. An exception of `final` replaces the outcome of `body`. -/
def tryFinally (body : Block Op Res Exc σ α) (final : Block Op Res Exc σ Unit) :
    Block Op Res Exc σ α :=
  fun l => (body l).bind fun left => (final left.2).bind (conclude left.1)

/-- Run a block from the initial values of its locals. -/
def toProgram (body : Block Op Res Exc σ α) (l : σ) : Program Op Res Exc α :=
  (body l).bind fun left => .lift left.1

/-- The end of a block that has been left. -/
def resume (left : Except Exc α × σ) : Block Op Res Exc σ α := fun _ => .ret left

/-- A `try` statement goes on from the end of its body. -/
theorem toProgram_try (catches : Exc → Bool) (body : Block Op Res Exc σ α)
    (handler : Exc → Block Op Res Exc σ α) (final : Block Op Res Exc σ Unit) (l : σ) :
    (tryFinally (tryExcept catches body handler) final).toProgram l =
      (body l).bind fun left => (tryFinally (tryExcept catches (resume left) handler) final).toProgram l := by
  simp only [toProgram, tryFinally, tryExcept, resume, Program.bind_assoc, Program.ret_bind]

section Run

variable (answer : (op : Op) → S → Except Exc (Res op) × S) (l : σ) (s : S)

/-- The outcome of a sequence: the rest runs only when no exception is on its way. -/
theorem run_bind (body : Block Op Res Exc σ α) (rest : α → Block Op Res Exc σ β) :
    ((body >>= rest) l).run answer s =
      match (body l).run answer s with
      | (.ok (.ok value, l'), s') => (rest value l').run answer s'
      | (.ok (.error exc, l'), s') => (.ok (.error exc, l'), s')
      | (.error exc, s') => (.error exc, s') := by
  show ((body l).bind (andThen rest)).run answer s = _
  rw [Program.run_bind]
  rcases (body l).run answer s with ⟨exc | ⟨exc | value, l'⟩, s'⟩
  · rfl
  · rfl
  · rfl

/-- A call in a sequence. -/
theorem run_perform_bind (op : Op) (rest : Res op → Block Op Res Exc σ β) :
    ((await (Program.perform op) >>= rest) l).run answer s =
      match answer op s with
      | (.ok value, s') => (rest value l).run answer s'
      | (.error exc, s') => (.ok (.error exc, l), s') := by
  rw [run_bind, await, Program.run_bind, Program.run_attempt, Program.run_perform]
  rcases answer op s with ⟨exc | value, s'⟩
  · rfl
  · rfl

theorem run_tryExcept (catches : Exc → Bool) (body : Block Op Res Exc σ α)
    (handler : Exc → Block Op Res Exc σ α) :
    (tryExcept catches body handler l).run answer s =
      match (body l).run answer s with
      | (.ok left, s') => (handle catches handler left).run answer s'
      | (.error exc, s') => (.error exc, s') := by
  rw [tryExcept, Program.run_bind]
  rcases (body l).run answer s with ⟨exc | left, s'⟩
  · rfl
  · rfl

end Run

section Meets

variable (protocol : Protocol Op Res Exc Φ)

/-- What has to hold of the outcome and the locals at the end of a block. -/
def ends (post : Φ → Except Exc α → σ → Prop) (φ : Φ) : Except Exc (Except Exc α × σ) → Prop
  | .ok left => post φ left.1 left.2
  | .error _ => False

/-- Every call of the block is allowed, and `post` holds at its end. -/
def Meets (post : Φ → Except Exc α → σ → Prop) (φ : Φ) (l : σ) (body : Block Op Res Exc σ α) : Prop :=
  (body l).Follows protocol (ends post) φ

variable {protocol} {φ : Φ} {l : σ} {post : Φ → Except Exc α → σ → Prop}

@[simp] theorem meets_lift (outcome : Except Exc α) :
    Meets protocol post φ l (lift outcome) ↔ post φ outcome l := Iff.rfl

@[simp] theorem meets_locals {post : Φ → Except Exc σ → σ → Prop} :
    Meets protocol post φ l locals ↔ post φ (.ok l) l := Iff.rfl

@[simp] theorem meets_assign {post : Φ → Except Exc Unit → σ → Prop} (f : σ → σ) :
    Meets protocol post φ l (assign f) ↔ post φ (.ok ()) (f l) := Iff.rfl

theorem Meets.mono {post' : Φ → Except Exc α → σ → Prop} {body : Block Op Res Exc σ α}
    (h : Meets protocol post φ l body) (himp : ∀ ψ outcome l', post ψ outcome l' → post' ψ outcome l') :
    Meets protocol post' φ l body := by
  refine Program.Follows.mono h ?_
  intro ψ left hleft
  cases left with
  | ok left => exact himp _ _ _ hleft
  | error exc => exact hleft.elim

/-- What has to hold after the first part of a sequence. -/
def seqPost (protocol : Protocol Op Res Exc Φ) (post : Φ → Except Exc β → σ → Prop)
    (rest : α → Block Op Res Exc σ β) (φ : Φ) : Except Exc α → σ → Prop
  | .ok value, l => Meets protocol post φ l (rest value)
  | .error exc, l => post φ (.error exc) l

/-- The end of a block as the start of what comes next. -/
theorem follows_ends_bind {post : Φ → Except Exc β → σ → Prop} {middle : Φ → Except Exc α → σ → Prop}
    (body : Block Op Res Exc σ α) (rest : Except Exc α × σ → Program Op Res Exc (Except Exc β × σ))
    (h : ∀ ψ left, (rest left).Follows protocol (ends post) ψ ↔ middle ψ left.1 left.2) :
    ((body l).bind rest).Follows protocol (ends post) φ ↔ Meets protocol middle φ l body := by
  have hdone : Program.seqDone protocol (ends post) rest = ends middle := by
    funext ψ left
    cases left with
    | ok left => exact propext (h ψ left)
    | error exc => rfl
  rw [Program.follows_bind, hdone, Meets]

theorem meets_bind {post : Φ → Except Exc β → σ → Prop} (body : Block Op Res Exc σ α)
    (rest : α → Block Op Res Exc σ β) :
    Meets protocol post φ l (body >>= rest) ↔ Meets protocol (seqPost protocol post rest) φ l body := by
  refine follows_ends_bind body (andThen rest) ?_
  rintro ψ ⟨exc | value, l'⟩
  · exact Iff.rfl
  · exact Iff.rfl

theorem meets_lift_bind {post : Φ → Except Exc β → σ → Prop} (outcome : Except Exc α)
    (rest : α → Block Op Res Exc σ β) :
    Meets protocol post φ l (lift outcome >>= rest) ↔ seqPost protocol post rest φ outcome l := by
  rw [meets_bind, meets_lift]

theorem meets_assign_bind {post : Φ → Except Exc β → σ → Prop} (f : σ → σ)
    (rest : Unit → Block Op Res Exc σ β) :
    Meets protocol post φ l (assign f >>= rest) ↔ Meets protocol post φ (f l) (rest ()) := by
  rw [meets_bind, meets_assign]
  exact Iff.rfl

theorem meets_locals_bind {post : Φ → Except Exc β → σ → Prop} (rest : σ → Block Op Res Exc σ β) :
    Meets protocol post φ l (locals >>= rest) ↔ Meets protocol post φ l (rest l) := by
  rw [meets_bind, meets_locals]
  exact Iff.rfl

theorem meets_await (body : Program Op Res Exc α) :
    Meets protocol post φ l (await body) ↔
      body.Follows protocol (fun ψ outcome => post ψ outcome l) φ := by
  rw [Meets, await, Program.follows_bind, Program.follows_attempt]
  exact Iff.rfl

/-- A call in a sequence: an exception ends the sequence, a value goes on to the rest. -/
theorem meets_perform_bind {op : Op} {rest : Res op → Block Op Res Exc σ β}
    {post : Φ → Except Exc β → σ → Prop} (hmay : protocol.may φ op)
    (herror : ∀ exc, post (protocol.after φ op (.error exc)) (.error exc) l)
    (hok : ∀ value, Meets protocol post (protocol.after φ op (.ok value)) l (rest value)) :
    Meets protocol post φ l (await (Program.perform op) >>= rest) := by
  rw [meets_bind, meets_await, Program.follows_perform]
  refine ⟨hmay, ?_⟩
  rintro (exc | value)
  · exact herror exc
  · exact hok value

/-- A part of a sequence that leaves the phase as it was. -/
theorem meets_await_bind {body : Program Op Res Exc α} {rest : α → Block Op Res Exc σ β}
    {post : Φ → Except Exc β → σ → Prop} (hbody : body.Follows protocol (fun ψ _ => ψ = φ) φ)
    (herror : ∀ exc, post φ (.error exc) l) (hok : ∀ value, Meets protocol post φ l (rest value)) :
    Meets protocol post φ l (await body >>= rest) := by
  rw [meets_bind, meets_await]
  refine hbody.mono ?_
  rintro ψ (exc | value) rfl
  · exact herror exc
  · exact hok value

/-- What has to hold at the end of the body of a `try` with a handler. -/
def exceptPost (protocol : Protocol Op Res Exc Φ) (post : Φ → Except Exc α → σ → Prop)
    (catches : Exc → Bool) (handler : Exc → Block Op Res Exc σ α) (φ : Φ) : Except Exc α → σ → Prop
  | .ok value, l => post φ (.ok value) l
  | .error exc, l =>
      if catches exc then Meets protocol post φ l (handler exc) else post φ (.error exc) l

theorem meets_tryExcept (catches : Exc → Bool) (body : Block Op Res Exc σ α)
    (handler : Exc → Block Op Res Exc σ α) :
    Meets protocol post φ l (tryExcept catches body handler) ↔
      Meets protocol (exceptPost protocol post catches handler) φ l body := by
  refine follows_ends_bind body (handle catches handler) ?_
  rintro ψ ⟨exc | value, l'⟩
  · simp only [handle, exceptPost]
    split
    · exact Iff.rfl
    · exact Iff.rfl
  · exact Iff.rfl

/-- What has to hold at the end of a `finally` block entered with `outcome`. -/
def finallyPost (post : Φ → Except Exc α → σ → Prop) (outcome : Except Exc α) (φ : Φ) :
    Except Exc Unit → σ → Prop
  | .ok _, l => post φ outcome l
  | .error exc, l => post φ (.error exc) l

theorem meets_tryFinally (body : Block Op Res Exc σ α) (final : Block Op Res Exc σ Unit) :
    Meets protocol post φ l (tryFinally body final) ↔
      Meets protocol (fun ψ outcome l' => Meets protocol (finallyPost post outcome) ψ l' final)
        φ l body := by
  refine follows_ends_bind body _ ?_
  rintro ψ ⟨outcome, l'⟩
  refine follows_ends_bind final (conclude outcome) ?_
  rintro χ ⟨exc | done, l''⟩
  · exact Iff.rfl
  · exact Iff.rfl

theorem Meets.toProgram {done : Φ → Except Exc α → Prop} {body : Block Op Res Exc σ α}
    (h : Meets protocol (fun ψ outcome _ => done ψ outcome) φ l body) :
    (body.toProgram l).Follows protocol done φ := by
  rw [Block.toProgram, Program.follows_bind]
  refine Program.Follows.mono h ?_
  intro ψ left hleft
  cases left with
  | ok left =>
      rcases left with ⟨exc | value, l'⟩
      · exact hleft
      · exact hleft
  | error exc => exact hleft.elim

end Meets

end Block

end Effect
