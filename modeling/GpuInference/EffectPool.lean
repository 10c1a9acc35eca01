import GpuInference.EffectProgram
import Mathlib.Algebra.BigOperators.Group.List.Basic
import Mathlib.Data.List.Destutter
import Mathlib.Logic.Relation

/-!
Interleavings. A system has a shared state and a pool of threads; a thread may start at any time,
any thread may take its next atomic step, and the environment may change the shared state. The
invariant rule accounts for the threads together: every thread carries a weight, and the shared
state is related to the sum of the weights, so that one step only has to speak about the thread
that takes it and one other thread.
-/

namespace Effect

/-- The atomic steps of a system: how a thread starts, what a thread does, what happens outside. -/
structure System (S T : Type) where
  starts : S → T → Prop
  act : S → T → S → T → Prop
  env : S → S → Prop

structure Pool (S T : Type) where
  shared : S
  threads : List T

namespace System

variable {S T : Type}

inductive Step (sys : System S T) : Pool S T → Pool S T → Prop
  | start {s : S} {ts : List T} (t : T) (h : sys.starts s t) : Step sys ⟨s, ts⟩ ⟨s, ts ++ [t]⟩
  | act {s s' : S} (left right : List T) {t t' : T} (h : sys.act s t s' t') :
      Step sys ⟨s, left ++ t :: right⟩ ⟨s', left ++ t' :: right⟩
  | env {s s' : S} {ts : List T} (h : sys.env s s') : Step sys ⟨s, ts⟩ ⟨s', ts⟩

/-- The pools that some interleaving reaches from a shared state with no thread. -/
def Reachable (sys : System S T) (s : S) : Pool S T → Prop :=
  Relation.ReflTransGen sys.Step ⟨s, []⟩

/-- The pools of one interleaving, one after the other. -/
def IsRun (sys : System S T) (s : S) (pools : List (Pool S T)) : Prop :=
  List.IsChain sys.Step (⟨s, []⟩ :: pools)

/-- The system whose threads only take the steps that meet a condition on the state before. -/
def restrict (sys : System S T) (meets : S → T → Prop) : System S T where
  starts := sys.starts
  act s t s' t' := meets s t ∧ sys.act s t s' t'
  env := sys.env

theorem Reachable.invariant {sys : System S T} {s : S} {Inv : Pool S T → Prop} (hinit : Inv ⟨s, []⟩)
    (hstep : ∀ p q, Inv p → sys.Step p q → Inv q) {p : Pool S T} (h : sys.Reachable s p) : Inv p := by
  induction h with
  | refl => exact hinit
  | tail _ hlast ih => exact hstep _ _ ih hlast

/-- What every step from a reachable pool does, the steps of a run do one after the other. -/
theorem IsRun.isChain {sys : System S T} {s : S} {pools : List (Pool S T)} (h : sys.IsRun s pools)
    {C : Pool S T → Pool S T → Prop} (hstep : ∀ p q, sys.Reachable s p → sys.Step p q → C p q) :
    List.IsChain C (⟨s, []⟩ :: pools) := by
  suffices hfrom : ∀ (pools : List (Pool S T)) (q : Pool S T), sys.Reachable s q →
      List.IsChain sys.Step (q :: pools) → List.IsChain C (q :: pools) from
    hfrom pools _ Relation.ReflTransGen.refl h
  intro pools
  induction pools with
  | nil => intro q _ _; exact List.isChain_singleton q
  | cons next pools ih =>
      intro q hq hrun
      rw [List.isChain_cons_cons] at hrun ⊢
      exact ⟨hstep q next hq hrun.1, ih next (hq.tail hrun.1) hrun.2⟩

section Weighted

variable {M : Type} [AddCommMonoid M]

/-- The shared state is related to the total weight of the threads, and to each thread by itself. -/
def Accounted (weight : S → T → M) (R : S → M → Prop) (A : S → T → Prop) (p : Pool S T) : Prop :=
  R p.shared (p.threads.map (weight p.shared)).sum ∧ ∀ t ∈ p.threads, A p.shared t

/-- What every single step has to preserve. In `act` the weight `m` stands for the other threads,
and `frame` says that the step disturbs none of them. -/
structure Accounts (sys : System S T) (weight : S → T → M) (R : S → M → Prop) (A : S → T → Prop) :
    Prop where
  start : ∀ s t m, R s m → sys.starts s t → R s (m + weight s t) ∧ A s t
  act : ∀ s t s' t' m, R s (weight s t + m) → A s t → sys.act s t s' t' →
    R s' (weight s' t' + m) ∧ A s' t'
  frame : ∀ s t s' t' u m, R s (weight s t + (weight s u + m)) → A s t → A s u →
    sys.act s t s' t' → weight s' u = weight s u ∧ A s' u
  env : ∀ (s s' : S) (ts : List T), R s (ts.map (weight s)).sum → (∀ t ∈ ts, A s t) → sys.env s s' →
    R s' (ts.map (weight s')).sum ∧ ∀ t ∈ ts, A s' t

variable {sys : System S T} {weight : S → T → M} {R : S → M → Prop} {A : S → T → Prop}

theorem sum_middle (f : T → M) (left right : List T) (t : T) :
    ((left ++ t :: right).map f).sum = f t + ((left ++ right).map f).sum := by
  simp only [List.map_append, List.map_cons, List.sum_append, List.sum_cons]
  exact add_left_comm _ _ _

theorem Accounts.step (h : Accounts sys weight R A) (p q : Pool S T) (hp : Accounted weight R A p)
    (hstep : sys.Step p q) : Accounted weight R A q := by
  obtain ⟨hR, hA⟩ := hp
  cases hstep with
  | @start s ts t hstart =>
      obtain ⟨hR', hA'⟩ := h.start s t _ hR hstart
      refine ⟨by simpa using hR', ?_⟩
      intro u hu
      rcases List.mem_append.mp hu with hu | hu
      · exact hA u hu
      · rw [List.mem_singleton.mp hu]
        exact hA'
  | @act s s' left right t t' hact =>
      rw [sum_middle] at hR
      have hAt : A s t := hA t (by simp)
      have hothers : ∀ u ∈ left ++ right, weight s' u = weight s u ∧ A s' u := by
        intro u hu
        obtain ⟨before, after, heq⟩ := List.append_of_mem hu
        rw [heq, sum_middle] at hR
        have hAu : A s u := by
          apply hA
          rcases List.mem_append.mp hu with hu | hu <;> simp [hu]
        exact h.frame s t s' t' u _ hR hAt hAu hact
      obtain ⟨hR', hA'⟩ := h.act s t s' t' _ hR hAt hact
      have hsame : (left ++ right).map (weight s') = (left ++ right).map (weight s) :=
        List.map_congr_left fun u hu => (hothers u hu).1
      constructor
      · rw [sum_middle, hsame]
        exact hR'
      · intro u hu
        rcases List.mem_append.mp hu with hu | hu
        · exact (hothers u (by simp [hu])).2
        · rcases List.mem_cons.mp hu with rfl | hu
          · exact hA'
          · exact (hothers u (by simp [hu])).2
  | @env s s' ts henv => exact h.env s s' ts hR hA henv

/-- **The invariant rule.** Preserved by every step, the account holds in every reachable pool. -/
theorem Accounts.reachable (h : Accounts sys weight R A) {s : S} (hinit : R s 0) {p : Pool S T}
    (hp : sys.Reachable s p) : Accounted weight R A p :=
  hp.invariant ⟨by simpa using hinit, by simp⟩ h.step

end Weighted

end System

section History

variable {P V : Type} [DecidableEq V]

/-- The values an observation takes along a run, repetitions dropped. -/
def history (observe : P → Option V) (states : List P) : List V :=
  (states.filterMap observe).destutter (· ≠ ·)

theorem head?_destutter' (a : V) (l : List V) : (l.destutter' (· ≠ ·) a).head? = some a := by
  induction l generalizing a with
  | nil => rfl
  | cons b l ih =>
      rw [List.destutter'_cons]
      split
      · rfl
      · exact ih a

theorem isChain_destutter'_of_eq_or {E : V → V → Prop} {l : List V} {a : V}
    (h : List.IsChain (fun x y => x = y ∨ E x y) (a :: l)) : (l.destutter' (· ≠ ·) a).IsChain E := by
  induction l generalizing a with
  | nil => exact List.isChain_singleton a
  | cons b l ih =>
      rw [List.isChain_cons_cons] at h
      obtain ⟨hab, hl⟩ := h
      by_cases hne : a ≠ b
      · rw [List.destutter'_cons_pos _ hne, List.isChain_cons]
        refine ⟨?_, ih hl⟩
        intro y hy
        rw [head?_destutter', Option.mem_some_iff] at hy
        rw [← hy]
        exact hab.resolve_left hne
      · rw [List.destutter'_cons_neg _ hne]
        rw [not_ne_iff] at hne
        rw [hne]
        exact ih hl

/-- What one step may do to the observed value: create it as `first`, keep it, or move it along `E`. -/
def Moves (E : V → V → Prop) (first : V) : Option V → Option V → Prop
  | none, none => True
  | none, some y => y = first
  | some _, none => False
  | some x, some y => x = y ∨ E x y

/-- Along a run that starts without the value, the history is a path of `E` from `first`. -/
theorem history_path {E : V → V → Prop} {first : V} {observe : P → Option V} {p : P} {states : List P}
    (hnone : observe p = none)
    (hrun : List.IsChain (fun q q' => Moves E first (observe q) (observe q')) (p :: states)) :
    (history observe (p :: states)).IsChain E ∧
      ∀ v ∈ (history observe (p :: states)).head?, v = first := by
  have hsome : ∀ (states : List P) (q : P) (x : V), observe q = some x →
      List.IsChain (fun q q' => Moves E first (observe q) (observe q')) (q :: states) →
      List.IsChain (fun x y => x = y ∨ E x y) (x :: states.filterMap observe) := by
    intro states
    induction states with
    | nil => intro q x _ _; exact List.isChain_singleton x
    | cons q' states ih =>
        intro q x hq hrun
        rw [List.isChain_cons_cons, hq] at hrun
        obtain ⟨hmove, hrest⟩ := hrun
        cases hq' : observe q' with
        | none => rw [hq'] at hmove; exact hmove.elim
        | some y =>
            rw [hq'] at hmove
            rw [List.filterMap_cons_some hq', List.isChain_cons_cons]
            exact ⟨hmove, ih q' y hq' hrest⟩
  induction states generalizing p with
  | nil => simp [history, hnone]
  | cons q states ih =>
      rw [List.isChain_cons_cons, hnone] at hrun
      obtain ⟨hmove, hrest⟩ := hrun
      have hdrop : history observe (p :: q :: states) = history observe (q :: states) := by
        rw [history, List.filterMap_cons_none hnone, history]
      rw [hdrop]
      cases hq : observe q with
      | none => exact ih hq hrest
      | some x =>
          rw [hq] at hmove
          have hchain := isChain_destutter'_of_eq_or (hsome states q x hq hrest)
          have hx : x = first := hmove
          rw [history, List.filterMap_cons_some hq, List.destutter_cons']
          refine ⟨hchain, ?_⟩
          intro v hv
          rw [head?_destutter', Option.mem_some_iff] at hv
          rw [← hv, hx]

end History

end Effect
