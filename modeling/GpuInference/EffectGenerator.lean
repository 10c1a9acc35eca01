import GpuInference.EffectBlock

/-!
Async generators. A generator is a program that may also yield; an `async for` loop runs its body at
every yield. A body that runs to its end resumes the generator. A body that leaves the loop, by
`return` or by an exception, abandons it: the generator is never resumed, and when it is closed an
exit exception is thrown in at the yield where it is suspended.
-/

namespace Effect

/-- The calls of a generator: a yield, or a call of its own. -/
inductive GenOp (Op : Type) where
  | yield
  | await (op : Op)

abbrev GenOp.Res {Op : Type} (Res : Op → Type) : GenOp Op → Type
  | yield => Unit
  | await op => Res op

/-- A generator that yields one kind of value, held by the state. -/
abbrev Generator (Op : Type) (Res : Op → Type) (Exc : Type) := Program (GenOp Op) (GenOp.Res Res) Exc Unit

namespace Generator

variable {Op : Type} {Res : Op → Type} {Exc α σ : Type}

/-- Run a closed generator to its end. Its outcome reaches no one, and a generator that yields
again is given up. -/
def close : Generator Op Res Exc → Program Op Res Exc Unit
  | .ret _ => .ret ()
  | .raise _ => .ret ()
  | .call .yield _ => .ret ()
  | .call (.await op) next => .call op fun answer => close (next answer)

/-- What a body that has left the loop leaves behind: the generator is closed. -/
def abandon (generator : Generator Op Res Exc) (outcome : Except Exc α) : Program Op Res Exc α :=
  generator.close.bind fun _ => .lift outcome

/-- `async for session in generator: body`, followed by `after`. The body returns `none` when it
runs to its end and a value when it leaves the loop by `return`. -/
def asyncFor (exit : Exc) (body : Program Op Res Exc (Option α)) (after : Program Op Res Exc α) :
    Generator Op Res Exc → Program Op Res Exc α
  | .ret _ => after
  | .raise exc => .raise exc
  | .call (.await op) next => .call op fun answer => asyncFor exit body after (next answer)
  | .call .yield next => body.attempt.bind fun
      | .ok none => asyncFor exit body after (next (.ok ()))
      | .ok (some value) => abandon (next (.error exit)) (.ok value)
      | .error exc => abandon (next (.error exit)) (.error exc)

section Run

variable (answer : (op : Op) → σ → Except Exc (Res op) × σ)

theorem run_abandon (generator : Generator Op Res Exc) (outcome : Except Exc α) {s s' : σ}
    (hclose : generator.close.run answer s = (.ok (), s')) :
    (abandon generator outcome).run answer s = (outcome, s') := by
  rw [abandon, Program.run_bind, hclose]
  cases outcome with
  | ok value => rfl
  | error exc => rfl

/-- The loop over a suspended generator, by the way its body ends. -/
theorem run_asyncFor_yield (exit : Exc) (body : Program Op Res Exc (Option α))
    (after : Program Op Res Exc α) (next : Except Exc Unit → Generator Op Res Exc) (s : σ) :
    (asyncFor exit body after (.call .yield next)).run answer s =
      match body.run answer s with
      | (.ok none, s') => (asyncFor exit body after (next (.ok ()))).run answer s'
      | (.ok (some value), s') => (abandon (next (.error exit)) (.ok value)).run answer s'
      | (.error exc, s') => (abandon (next (.error exit)) (.error exc) : Program Op Res Exc α).run answer s' := by
  rw [asyncFor, Program.run_bind, Program.run_attempt]
  rcases body.run answer s with ⟨exc | value, s'⟩
  · rfl
  · cases value with
    | none => rfl
    | some value => rfl

end Run

end Generator

end Effect
