import Mathlib.Logic.Basic

/-!
Programs over a signature of calls. A program is a tree: it returns, it raises, or it makes one
call and continues with the answer, which is a value or an exception raised by the call. The tree
is the code between two calls, so the same program can be run alone against a state, or taken
apart call by call when several programs share a state. Exceptions follow the rules of `try`:
a handler catches the exceptions it names and a `finally` block runs on every exit.
-/

namespace Effect

/-- A program that makes calls `op`, each answered by a value of `Res op` or an exception. -/
inductive Program (Op : Type) (Res : Op → Type) (Exc : Type) (α : Type) where
  | ret (value : α)
  | raise (exc : Exc)
  | call (op : Op) (next : Except Exc (Res op) → Program Op Res Exc α)

namespace Program

variable {Op : Type} {Res : Op → Type} {Exc : Type} {α β γ σ : Type}

def bind : Program Op Res Exc α → (α → Program Op Res Exc β) → Program Op Res Exc β
  | ret value, rest => rest value
  | raise exc, _ => raise exc
  | call op next, rest => call op fun answer => (next answer).bind rest

instance : Monad (Program Op Res Exc) where
  pure := ret
  bind := bind

/-- Make one call and return its value; an exception of the call is raised here. -/
def perform (op : Op) : Program Op Res Exc (Res op) :=
  call op fun
    | .ok value => ret value
    | .error exc => raise exc

/-- Lift the result of a computation that makes no call. -/
def lift : Except Exc α → Program Op Res Exc α
  | .ok value => ret value
  | .error exc => raise exc

/-- `try: body except ...: handler`, for the exceptions that `catches` accepts. -/
def tryExcept (catches : Exc → Bool) (body : Program Op Res Exc α)
    (handler : Exc → Program Op Res Exc α) : Program Op Res Exc α :=
  match body with
  | ret value => ret value
  | raise exc => if catches exc then handler exc else raise exc
  | call op next => call op fun answer => tryExcept catches (next answer) handler

/-- `try: body finally: final`. An exception of `final` replaces the outcome of `body`. -/
def tryFinally (body : Program Op Res Exc α) (final : Program Op Res Exc Unit) :
    Program Op Res Exc α :=
  match body with
  | ret value => final.bind fun _ => ret value
  | raise exc => final.bind fun _ => raise exc
  | call op next => call op fun answer => tryFinally (next answer) final

@[simp] theorem pure_eq (value : α) : (pure value : Program Op Res Exc α) = ret value := rfl

@[simp] theorem bind_eq (body : Program Op Res Exc α) (rest : α → Program Op Res Exc β) :
    (body >>= rest) = body.bind rest := rfl

@[simp] theorem ret_bind (value : α) (rest : α → Program Op Res Exc β) :
    (ret value : Program Op Res Exc α).bind rest = rest value := rfl

@[simp] theorem raise_bind (exc : Exc) (rest : α → Program Op Res Exc β) :
    (raise exc : Program Op Res Exc α).bind rest = raise exc := rfl

@[simp] theorem call_bind (op : Op) (next : Except Exc (Res op) → Program Op Res Exc α)
    (rest : α → Program Op Res Exc β) :
    (call op next).bind rest = call op fun answer => (next answer).bind rest := rfl

theorem bind_assoc (body : Program Op Res Exc α) (rest : α → Program Op Res Exc β)
    (last : β → Program Op Res Exc γ) :
    (body.bind rest).bind last = body.bind fun value => (rest value).bind last := by
  induction body with
  | ret value => rfl
  | raise exc => rfl
  | call op next ih =>
      rw [call_bind, call_bind, call_bind]
      congr 1
      funext answer
      exact ih answer

@[simp] theorem lift_ok (value : α) : (lift (.ok value) : Program Op Res Exc α) = ret value := rfl

@[simp] theorem lift_error (exc : Exc) : (lift (.error exc) : Program Op Res Exc α) = raise exc := rfl

@[simp] theorem tryExcept_ret (catches : Exc → Bool) (value : α) (handler : Exc → Program Op Res Exc α) :
    tryExcept catches (ret value) handler = ret value := rfl

@[simp] theorem tryExcept_call (catches : Exc → Bool) (op : Op)
    (next : Except Exc (Res op) → Program Op Res Exc α) (handler : Exc → Program Op Res Exc α) :
    tryExcept catches (call op next) handler =
      call op fun answer => tryExcept catches (next answer) handler := rfl

/-- Run a program against a state, every call being answered by `answer`. -/
def run (answer : (op : Op) → σ → Except Exc (Res op) × σ) :
    Program Op Res Exc α → σ → Except Exc α × σ
  | ret value, s => (.ok value, s)
  | raise exc, s => (.error exc, s)
  | call op next, s => (next (answer op s).1).run answer (answer op s).2

section Run

variable (answer : (op : Op) → σ → Except Exc (Res op) × σ)

@[simp] theorem run_ret (value : α) (s : σ) :
    (ret value : Program Op Res Exc α).run answer s = (.ok value, s) := rfl

@[simp] theorem run_raise (exc : Exc) (s : σ) :
    (raise exc : Program Op Res Exc α).run answer s = (.error exc, s) := rfl

@[simp] theorem run_call (op : Op) (next : Except Exc (Res op) → Program Op Res Exc α) (s : σ) :
    (call op next).run answer s = (next (answer op s).1).run answer (answer op s).2 := rfl

/-- The outcome of a sequence: the rest runs only after a normal return. -/
theorem run_bind (body : Program Op Res Exc α) (rest : α → Program Op Res Exc β) (s : σ) :
    (body.bind rest).run answer s =
      match body.run answer s with
      | (.ok value, s') => (rest value).run answer s'
      | (.error exc, s') => (.error exc, s') := by
  induction body generalizing s with
  | ret value => rfl
  | raise exc => rfl
  | call op next ih => exact ih _ _

theorem run_perform (op : Op) (s : σ) :
    (perform op : Program Op Res Exc (Res op)).run answer s = answer op s := by
  rw [perform, run_call]
  rcases answer op s with ⟨exc | value, s'⟩ <;> rfl

theorem run_tryExcept (catches : Exc → Bool) (body : Program Op Res Exc α)
    (handler : Exc → Program Op Res Exc α) (s : σ) :
    (tryExcept catches body handler).run answer s =
      match body.run answer s with
      | (.ok value, s') => (.ok value, s')
      | (.error exc, s') => if catches exc then (handler exc).run answer s' else (.error exc, s') := by
  induction body generalizing s with
  | ret value => rfl
  | raise exc =>
      simp only [tryExcept, run_raise]
      split
      · rfl
      · rfl
  | call op next ih => exact ih _ _

theorem run_tryFinally (body : Program Op Res Exc α) (final : Program Op Res Exc Unit) (s : σ) :
    (tryFinally body final).run answer s =
      match body.run answer s with
      | (outcome, s') =>
        match final.run answer s' with
        | (.ok _, s'') => (outcome, s'')
        | (.error exc, s'') => (.error exc, s'') := by
  induction body generalizing s with
  | ret value =>
      rw [tryFinally, run_bind]
      rcases hfinal : final.run answer s with ⟨exc | done, s'⟩ <;> simp [hfinal]
  | raise exc =>
      rw [tryFinally, run_bind]
      rcases hfinal : final.run answer s with ⟨exc' | done, s'⟩ <;> simp [hfinal]
  | call op next ih => exact ih _ _

end Run

variable {Op' : Type} {Res' : Op' → Type}

/-- The same program with every call `op` made as `f op` of a larger signature. -/
def mapOp (f : Op → Op') (back : (op : Op) → Res' (f op) → Res op) :
    Program Op Res Exc α → Program Op' Res' Exc α
  | ret value => ret value
  | raise exc => raise exc
  | call op next => call (f op) fun answer => (next (answer.map (back op))).mapOp f back

@[simp] theorem mapOp_ret (f : Op → Op') (back : (op : Op) → Res' (f op) → Res op) (value : α) :
    (ret value : Program Op Res Exc α).mapOp f back = ret value := rfl

@[simp] theorem mapOp_raise (f : Op → Op') (back : (op : Op) → Res' (f op) → Res op) (exc : Exc) :
    (raise exc : Program Op Res Exc α).mapOp f back = raise exc := rfl

@[simp] theorem mapOp_call (f : Op → Op') (back : (op : Op) → Res' (f op) → Res op) (op : Op)
    (next : Except Exc (Res op) → Program Op Res Exc α) :
    (call op next).mapOp f back =
      call (f op) fun answer => (next (answer.map (back op))).mapOp f back := rfl

theorem run_mapOp (f : Op → Op') (back : (op : Op) → Res' (f op) → Res op)
    (answer : (op : Op') → σ → Except Exc (Res' op) × σ) (body : Program Op Res Exc α) (s : σ) :
    (body.mapOp f back).run answer s =
      body.run (fun op s => ((answer (f op) s).1.map (back op), (answer (f op) s).2)) s := by
  induction body generalizing s with
  | ret value => rfl
  | raise exc => rfl
  | call op next ih => exact ih _ _

end Program

end Effect
