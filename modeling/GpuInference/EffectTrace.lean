import GpuInference.EffectProtocol

/-!
Traces of programs. A trace lists the calls that a program has made, with their answers, and the outcome it has ended
with, whatever has answered the calls. What holds on every trace is proved by the rules for protocols: the protocol that
allows every call and remembers all of them ends in the trace itself.
-/

namespace Effect

variable {Op : Type} {Res : Op → Type} {Exc α S Φ : Type}

namespace Program

/-- The program makes exactly these calls, gets these answers and ends with `outcome`. -/
def Traces : Program Op Res Exc α → List (Event Op Res Exc) → Except Exc α → Prop
  | ret value, calls, outcome => calls = [] ∧ outcome = .ok value
  | raise exc, calls, outcome => calls = [] ∧ outcome = .error exc
  | call op next, calls, outcome =>
      ∃ answer rest, calls = ⟨op, answer⟩ :: rest ∧ (next answer).Traces rest outcome

/-- The calls of a program that is run against a state. -/
def trace (answer : (op : Op) → S → Except Exc (Res op) × S) :
    Program Op Res Exc α → S → List (Event Op Res Exc)
  | ret _, _ => []
  | raise _, _ => []
  | call op next, s => ⟨op, (answer op s).1⟩ :: (next (answer op s).1).trace answer (answer op s).2

/-- A run has its trace. -/
theorem traces_trace (answer : (op : Op) → S → Except Exc (Res op) × S) (body : Program Op Res Exc α) (s : S) :
    body.Traces (body.trace answer s) (body.run answer s).1 := by
  induction body generalizing s with
  | ret value => exact ⟨rfl, rfl⟩
  | raise exc => exact ⟨rfl, rfl⟩
  | call op next ih => exact ⟨_, _, rfl, ih _ _⟩

theorem answer_of_mem_trace {answer : (op : Op) → S → Except Exc (Res op) × S} {body : Program Op Res Exc α} {s : S}
    {event : Event Op Res Exc} (h : event ∈ body.trace answer s) : ∃ s, event.answer = (answer event.op s).1 := by
  induction body generalizing s with
  | ret value => cases h
  | raise exc => cases h
  | call op next ih =>
      rcases List.mem_cons.mp h with rfl | hrest
      · exact ⟨s, rfl⟩
      · exact ih _ hrest

/-- An environment without a state answers every call in one way. -/
theorem eq_of_mem_trace {answer : (op : Op) → Unit → Except Exc (Res op) × Unit} {body : Program Op Res Exc α}
    {event : Event Op Res Exc} (h : event ∈ body.trace answer ()) : event.answer = (answer event.op ()).1 := by
  obtain ⟨⟨⟩, hanswer⟩ := answer_of_mem_trace h
  exact hanswer

end Program

namespace Protocol

variable {protocol : Protocol Op Res Exc Φ}

@[simp] theorem phase_cons (first : Φ) (event : Event Op Res Exc) (calls : List (Event Op Res Exc)) :
    protocol.phase first (event :: calls) =
      protocol.phase (protocol.after first event.op event.answer) calls := rfl

theorem keeps_nil (first : Φ) : protocol.Keeps first [] := by
  intro left event right heq
  cases left with
  | nil => cases heq
  | cons head left => cases heq

theorem Keeps.cons {first : Φ} {event : Event Op Res Exc} {calls : List (Event Op Res Exc)}
    (hmay : protocol.may first event.op)
    (h : protocol.Keeps (protocol.after first event.op event.answer) calls) :
    protocol.Keeps first (event :: calls) := by
  intro left other right heq
  cases left with
  | nil =>
      obtain ⟨rfl, -⟩ := List.cons.inj heq
      exact hmay
  | cons head left =>
      obtain ⟨rfl, htail⟩ := List.cons.inj heq
      exact h left other right htail

theorem Keeps.head {first : Φ} {event : Event Op Res Exc} {calls : List (Event Op Res Exc)}
    (h : protocol.Keeps first (event :: calls)) : protocol.may first event.op := h [] event calls rfl

theorem Keeps.tail {first : Φ} {event : Event Op Res Exc} {calls : List (Event Op Res Exc)}
    (h : protocol.Keeps first (event :: calls)) :
    protocol.Keeps (protocol.after first event.op event.answer) calls := by
  intro left other right heq
  exact h (event :: left) other right (congrArg (event :: ·) heq)

theorem phase_append_calls (first : Φ) (left right : List (Event Op Res Exc)) :
    protocol.phase first (left ++ right) = protocol.phase (protocol.phase first left) right :=
  List.foldl_append

theorem Keeps.take {first : Φ} {left right : List (Event Op Res Exc)} (h : protocol.Keeps first (left ++ right)) :
    protocol.Keeps first left := by
  intro before event rest heq
  apply h before event (rest ++ right)
  rw [heq, List.append_assoc]
  rfl

/-- What comes after some of the calls is kept from the phase they lead to. -/
theorem Keeps.drop {first : Φ} {left right : List (Event Op Res Exc)} (h : protocol.Keeps first (left ++ right)) :
    protocol.Keeps (protocol.phase first left) right := by
  intro middle event rest heq
  rw [← phase_append_calls]
  exact h (left ++ middle) event rest (by rw [heq, List.append_assoc])

/-- Every call that is kept is allowed in some phase. -/
theorem Keeps.event {first : Φ} {calls : List (Event Op Res Exc)} (h : protocol.Keeps first calls)
    {event : Event Op Res Exc} (hevent : event ∈ calls) : ∃ φ, protocol.may φ event.op := by
  obtain ⟨left, right, rfl⟩ := List.append_of_mem hevent
  exact ⟨_, h left event right rfl⟩

/-- What the phases tell of the calls so far, when every allowed call keeps it. -/
theorem Keeps.tells {tells : Φ → List (Event Op Res Exc) → Prop} {first : Φ} (hstart : tells first [])
    (hcall : ∀ φ calls event, tells φ calls → protocol.may φ event.op →
      tells (protocol.after φ event.op event.answer) (calls ++ [event]))
    {calls : List (Event Op Res Exc)} (h : protocol.Keeps first calls) : tells (protocol.phase first calls) calls := by
  induction calls using List.reverseRecOn with
  | nil => exact hstart
  | append_singleton calls event ih =>
      rw [phase_append_calls]
      exact hcall _ calls event (ih h.take) (h calls event [] rfl)

end Protocol

/-- **The trace rule for one program.** A program that follows a protocol makes only allowed calls, and the phase after
the last one is as the protocol says of the end. -/
theorem Program.Follows.traces {protocol : Protocol Op Res Exc Φ} {done : Φ → Except Exc α → Prop}
    {body : Program Op Res Exc α} {φ : Φ} (h : body.Follows protocol done φ)
    {calls : List (Event Op Res Exc)} {outcome : Except Exc α} (htraces : body.Traces calls outcome) :
    protocol.Keeps φ calls ∧ done (protocol.phase φ calls) outcome := by
  induction body generalizing φ calls with
  | ret value =>
      obtain ⟨rfl, rfl⟩ := htraces
      exact ⟨Protocol.keeps_nil φ, h⟩
  | raise exc =>
      obtain ⟨rfl, rfl⟩ := htraces
      exact ⟨Protocol.keeps_nil φ, h⟩
  | call op next ih =>
      obtain ⟨answer, rest, rfl, hrest⟩ := htraces
      obtain ⟨hkeeps, hdone⟩ := ih answer (h.2 answer) hrest
      exact ⟨.cons h.1 hkeeps, hdone⟩

namespace Program

/-- After these calls, `rest` is what the program has left to do. -/
inductive Leads : Program Op Res Exc α → List (Event Op Res Exc) → Program Op Res Exc α → Prop
  | refl (body : Program Op Res Exc α) : Leads body [] body
  | call {op : Op} {next : Except Exc (Res op) → Program Op Res Exc α} {answer : Except Exc (Res op)}
      {calls : List (Event Op Res Exc)} {rest : Program Op Res Exc α} (h : Leads (next answer) calls rest) :
      Leads (.call op next) (⟨op, answer⟩ :: calls) rest

variable {body : Program Op Res Exc α} {calls : List (Event Op Res Exc)}

theorem Leads.snoc {op : Op} {next : Except Exc (Res op) → Program Op Res Exc α} {rest : Program Op Res Exc α}
    (h : body.Leads calls rest) (hrest : rest = .call op next) (answer : Except Exc (Res op)) :
    body.Leads (calls ++ [⟨op, answer⟩]) (next answer) := by
  induction h with
  | refl body =>
      rw [hrest]
      exact .call (.refl _)
  | call h ih => exact .call (ih hrest)

/-- The calls so far are the beginning of a trace. -/
theorem Leads.traces {rest : Program Op Res Exc α} {more : List (Event Op Res Exc)} {outcome : Except Exc α}
    (h : body.Leads calls rest) (hrest : rest.Traces more outcome) : body.Traces (calls ++ more) outcome := by
  induction h with
  | refl body => exact hrest
  | call h ih => exact ⟨_, _, rfl, ih hrest⟩

/-- Every program has a trace: all its calls may raise. -/
theorem exists_traces (exc : Exc) (body : Program Op Res Exc α) : ∃ calls outcome, body.Traces calls outcome :=
  ⟨_, _, body.traces_trace (fun _ s => (.error exc, s)) ()⟩

end Program

/-- A thread has begun as one of the programs, and is where its calls have led it. -/
theorem reachable_leads {exec : Exec Op Res Exc S} {runs : Program Op Res Exc α → Prop} {s : S}
    {p : Pool S (Thread Op Res Exc α)} (hreach : (callSystem exec runs).Reachable s p) :
    ∀ t ∈ p.threads, ∃ program, runs program ∧ program.Leads t.calls t.program := by
  let Inv (p : Pool S (Thread Op Res Exc α)) : Prop :=
    ∀ t ∈ p.threads, ∃ program, runs program ∧ program.Leads t.calls t.program
  have hstart : Inv ⟨s, []⟩ := List.forall_mem_nil _
  suffices hstep : ∀ p q, Inv p → (callSystem exec runs).Step p q → Inv q from hreach.invariant hstart hstep
  intro p q hp hstep
  cases hstep with
  | start t hstart =>
      obtain ⟨program, hprogram, rfl⟩ := hstart
      intro u hu
      rcases List.mem_append.mp hu with hu | hu
      · exact hp u hu
      · rw [List.mem_singleton.mp hu]
        exact ⟨program, hprogram, .refl program⟩
  | act left right hact =>
      rename_i t t'
      obtain ⟨program, hprogram, hleads⟩ := hp t (by simp)
      have ht' : ∃ program, runs program ∧ program.Leads t'.calls t'.program := by
        cases hact with
        | call hexec => exact ⟨program, hprogram, hleads.snoc rfl _⟩
        | crash => exact ⟨program, hprogram, hleads⟩
      intro u hu
      rcases List.mem_append.mp hu with hu | hu
      · exact hp u (by simp [hu])
      · rcases List.mem_cons.mp hu with rfl | hu
        · exact ht'
        · exact hp u (by simp [hu])
  | env henv => exact henv.elim

/-- Everything is allowed, and the phase is the list of the calls made so far. -/
def recording : Protocol Op Res Exc (List (Event Op Res Exc)) where
  may _ _ := True
  after calls op answer := calls ++ [⟨op, answer⟩]

theorem phase_recording (first calls : List (Event Op Res Exc)) : recording.phase first calls = first ++ calls := by
  induction calls generalizing first with
  | nil => exact (List.append_nil first).symm
  | cons event calls ih =>
      rw [Protocol.phase_cons, ih]
      exact (List.append_cons first event calls).symm

/-- Recording forbids nothing. -/
theorem Program.follows_recording {done : List (Event Op Res Exc) → Except Exc α → Prop}
    (hdone : ∀ calls outcome, done calls outcome) (body : Program Op Res Exc α) (calls : List (Event Op Res Exc)) :
    body.Follows recording done calls := by
  induction body generalizing calls with
  | ret value => exact hdone calls (.ok value)
  | raise exc => exact hdone calls (.error exc)
  | call op next ih => exact ⟨trivial, fun answer => ih answer _⟩

/-- The history of a program that has ended is one of its traces. -/
theorem Program.follows_traces (body : Program Op Res Exc α) (before : List (Event Op Res Exc)) :
    body.Follows recording (fun calls outcome => ∃ rest, calls = before ++ rest ∧ body.Traces rest outcome) before := by
  induction body generalizing before with
  | ret value => exact ⟨[], (List.append_nil before).symm, rfl, rfl⟩
  | raise exc => exact ⟨[], (List.append_nil before).symm, rfl, rfl⟩
  | call op next ih =>
      refine ⟨trivial, ?_⟩
      intro answer
      refine (ih answer (before ++ [⟨op, answer⟩])).mono ?_
      rintro calls outcome ⟨rest, rfl, htraces⟩
      exact ⟨⟨op, answer⟩ :: rest, (List.append_cons before _ rest).symm, answer, rest, rfl, htraces⟩

/-- What a program ends with, by its history, holds of all its traces. -/
theorem Program.Follows.of_recording {done : List (Event Op Res Exc) → Except Exc α → Prop}
    {body : Program Op Res Exc α} (h : body.Follows recording done [])
    {calls : List (Event Op Res Exc)} {outcome : Except Exc α} (htraces : body.Traces calls outcome) :
    done calls outcome := by
  have hdone := (h.traces htraces).2
  rwa [phase_recording, List.nil_append] at hdone

namespace Protocol

variable {Ψ : Type}

/-- What both protocols allow, with the phases of both. -/
def prod (left : Protocol Op Res Exc Φ) (right : Protocol Op Res Exc Ψ) : Protocol Op Res Exc (Φ × Ψ) where
  may phases op := left.may phases.1 op ∧ right.may phases.2 op
  after phases op answer := (left.after phases.1 op answer, right.after phases.2 op answer)

theorem phase_prod {left : Protocol Op Res Exc Φ} {right : Protocol Op Res Exc Ψ} (φ : Φ) (ψ : Ψ)
    (calls : List (Event Op Res Exc)) :
    (left.prod right).phase (φ, ψ) calls = (left.phase φ calls, right.phase ψ calls) := by
  induction calls generalizing φ ψ with
  | nil => rfl
  | cons event calls ih => exact ih _ _

theorem Keeps.left {left : Protocol Op Res Exc Φ} {right : Protocol Op Res Exc Ψ} {φ : Φ} {ψ : Ψ}
    {calls : List (Event Op Res Exc)} (h : (left.prod right).Keeps (φ, ψ) calls) : left.Keeps φ calls := by
  intro before event rest heq
  have hmay := (h before event rest heq).1
  rw [phase_prod] at hmay
  exact hmay

/-- Everything is allowed, and the phase tells whether a call of the kind has been made. -/
def noting (kind : Event Op Res Exc → Bool) : Protocol Op Res Exc Bool where
  may _ _ := True
  after noted op answer := noted || kind ⟨op, answer⟩

theorem phase_noting (kind : Event Op Res Exc → Bool) (noted : Bool) (calls : List (Event Op Res Exc)) :
    (noting kind).phase noted calls = (noted || calls.any kind) := by
  induction calls generalizing noted with
  | nil => exact (Bool.or_false noted).symm
  | cons event calls ih =>
      calc (noting kind).phase noted (event :: calls)
          = (noting kind).phase (noted || kind event) calls := rfl
        _ = (noted || kind event || calls.any kind) := ih _
        _ = (noted || (event :: calls).any kind) := by rw [List.any_cons, Bool.or_assoc]

end Protocol

/-- Every call that raises raises an exception of a kind that may depend on the call. -/
def RaisesOnly (kind : Op → Exc → Bool) (calls : List (Event Op Res Exc)) : Prop :=
  ∀ event ∈ calls, ∀ exc, event.answer = .error exc → kind event.op exc = true

theorem RaisesOnly.mono {kind : Op → Exc → Bool} {calls more : List (Event Op Res Exc)} (h : RaisesOnly kind more)
    (hsub : calls ⊆ more) : RaisesOnly kind calls :=
  fun event hevent => h event (hsub hevent)

/-- Calls that all return raise nothing. -/
theorem raisesOnly_of_ok (kind : Op → Exc → Bool) {calls : List (Event Op Res Exc)}
    (h : calls.all (fun event => event.answer.isOk) = true) : RaisesOnly kind calls := by
  intro event hevent exc hanswer
  have hok := List.all_eq_true.mp h event hevent
  rw [hanswer] at hok
  cases hok

/-- The calls take effect one after the other, with these answers. -/
inductive Exec.Runs (exec : Exec Op Res Exc S) : S → List (Event Op Res Exc) → S → Prop
  | nil (s : S) : Runs exec s [] s
  | cons {s middle s' : S} {event : Event Op Res Exc} {calls : List (Event Op Res Exc)}
      (h : exec event.op s event.answer middle) (hrest : Runs exec middle calls s') :
      Runs exec s (event :: calls) s'

/-- The calls of a run take effect when every answer is one that the state gives. -/
theorem Exec.runs_trace {exec : Exec Op Res Exc S} {answer : (op : Op) → S → Except Exc (Res op) × S}
    (hanswer : ∀ op s, exec op s (answer op s).1 (answer op s).2) (body : Program Op Res Exc α) (s : S) :
    exec.Runs s (body.trace answer s) (body.run answer s).2 := by
  induction body generalizing s with
  | ret value => exact .nil s
  | raise exc => exact .nil s
  | call op next ih => exact .cons (hanswer op s) (ih _ _)

/-- A thread that is left alone runs to its end. -/
theorem reachable_run {exec : Exec Op Res Exc S} {runs : Program Op Res Exc α → Prop}
    {answer : (op : Op) → S → Except Exc (Res op) × S} (hanswer : ∀ op s, exec op s (answer op s).1 (answer op s).2)
    {first s : S} {threads : List (Thread Op Res Exc α)} {program : Program Op Res Exc α} (hruns : runs program)
    (h : (callSystem exec runs).Reachable first ⟨s, threads⟩) :
    (callSystem exec runs).Reachable first ⟨(program.run answer s).2,
      threads ++ [⟨program.trace answer s, Program.lift (program.run answer s).1, false⟩]⟩ := by
  have hrest : ∀ (body : Program Op Res Exc α) (s : S) (calls : List (Event Op Res Exc)),
      (callSystem exec runs).Reachable first ⟨s, threads ++ [⟨calls, body, false⟩]⟩ →
      (callSystem exec runs).Reachable first ⟨(body.run answer s).2,
        threads ++ [⟨calls ++ body.trace answer s, Program.lift (body.run answer s).1, false⟩]⟩ := by
    intro body
    induction body with
    | ret value =>
        intro s calls hreach
        rw [Program.trace, List.append_nil]
        exact hreach
    | raise exc =>
        intro s calls hreach
        rw [Program.trace, List.append_nil]
        exact hreach
    | call op next ih =>
        intro s calls hreach
        have hcalls : calls ++ (Program.call op next).trace answer s =
            (calls ++ [⟨op, (answer op s).1⟩]) ++ (next (answer op s).1).trace answer (answer op s).2 :=
          List.append_cons _ _ _
        rw [hcalls]
        exact ih _ _ _ (reachable_call threads [] hreach (hanswer op s))
  exact hrest program s [] (reachable_start h hruns)

/-- A relation between phases and states that every allowed call keeps holds after all of them. -/
theorem Exec.Runs.relates {exec : Exec Op Res Exc S} {protocol : Protocol Op Res Exc Φ} {s s' : S}
    {calls : List (Event Op Res Exc)} (h : exec.Runs s calls s') {φ : Φ} (hkeeps : protocol.Keeps φ calls)
    {relates : Φ → S → Prop} (hs : relates φ s)
    (hcall : ∀ φ op answer s s', ⟨op, answer⟩ ∈ calls → relates φ s → protocol.may φ op → exec op s answer s' →
      relates (protocol.after φ op answer) s') :
    relates (protocol.phase φ calls) s' := by
  induction h generalizing φ with
  | nil s => exact hs
  | cons hexec _ ih =>
      apply ih hkeeps.tail
      · exact hcall φ _ _ _ _ List.mem_cons_self hs hkeeps.head hexec
      · intro ψ op answer s s' hmem
        exact hcall ψ op answer s s' (List.mem_cons_of_mem _ hmem)

end Effect
