import GpuInference.StreamProxy
import Mathlib.Logic.Relation

/-!
The loop of `stream_with_heartbeats`, step by step. The read of the next line is a task of its own: it may
finish at any time, also while a heartbeat is handed out. A wait that is over before the read tells of
it by a `TimeoutError`, and so does a read that has itself raised one.
-/

open Effect

namespace GpuInference

variable {E : Type}

/-- How a read of the next line ends. -/
inductive ReadOutcome (E : Type) where
  | line (text : String)
  | exhausted
  | raised (exc : E)

namespace ReadOutcome

/-- The iterator has nothing more to say. -/
def Final : ReadOutcome E → Prop
  | line _ => False
  | exhausted => True
  | raised _ => True

end ReadOutcome

/-- What `await aclose()` does, if there is an `aclose`. -/
inductive Closing (E : Type) where
  | missing
  | returns
  | raises (exc : E)
  | hangs

namespace Closing

/-- The outcome after the `finally` block, unless it hangs. -/
def closes : Closing E → Except E Unit → Option (Except E Unit)
  | missing, outcome => some outcome
  | returns, outcome => some outcome
  | raises exc, _ => some (.error exc)
  | hangs, _ => none

end Closing

/-- An `AsyncIterator[str]`: its lines, the exception it ends with, if any, and its `aclose`. -/
structure LineSource (E : Type) where
  lines : List String
  failure : Option E
  aclose : Closing E

namespace LineSource

/-- The read after the last line. -/
def last (source : LineSource E) : ReadOutcome E :=
  match source.failure with
  | none => .exhausted
  | some exc => .raised exc

/-- The outcome that belongs to this end. -/
def outcome (source : LineSource E) : Except E Unit :=
  match source.failure with
  | none => .ok ()
  | some exc => .error exc

theorem last_final (source : LineSource E) : source.last.Final := by
  unfold last
  split <;> exact trivial

end LineSource

/-- Where the generator stands. A wait is armed when the read was not finished as it began. -/
inductive HeartbeatControl (E : Type) where
  /-- in `await asyncio.wait_for(asyncio.shield(next_line), ...)` -/
  | waiting (armed : Bool)
  /-- at `yield format_heartbeat()` -/
  | heartbeat
  /-- at `yield line` -/
  | line
  /-- in `await aclose()` -/
  | closing (outcome : Except E Unit)
  | finished (outcome : Except E Unit)

namespace HeartbeatControl

def yieldsLine : HeartbeatControl E → Bool
  | line => true
  | _ => false

end HeartbeatControl

/-- The line that a read has brought. -/
def readText : Option (ReadOutcome E) → List String
  | some (.line text) => [text]
  | _ => []

/-- The lines that have not been read, the future `next_line`, which is `none` while it is pending, and
what the generator has yielded. -/
structure HeartbeatState (E : Type) where
  remaining : List String
  nextLine : Option (ReadOutcome E)
  control : HeartbeatControl E
  yielded : List StreamItem

namespace HeartbeatState

def start (source : LineSource E) : HeartbeatState E := ⟨source.lines, none, .waiting true, []⟩

/-- The loop is woken with the outcome of the read. -/
def woken (isTimeout : E → Bool) (s : HeartbeatState E) : ReadOutcome E → HeartbeatState E
  | .line text => { s with control := .line, yielded := s.yielded ++ [.line text] }
  | .exhausted => { s with control := .closing (.ok ()) }
  | .raised exc =>
      if isTimeout exc then { s with control := .heartbeat, yielded := s.yielded ++ [.timeout] }
      else { s with control := .closing (.error exc) }

/-- One step of the loop, of the read, or of the clock. The consumer asks for the next item at some time. -/
inductive Step (isTimeout : E → Bool) (source : LineSource E) : HeartbeatState E → HeartbeatState E → Prop
  | arrive {s : HeartbeatState E} {text : String} {rest : List String} (hpending : s.nextLine = none)
      (hlines : s.remaining = text :: rest) :
      Step isTimeout source s { s with remaining := rest, nextLine := some (.line text) }
  | last {s : HeartbeatState E} (hpending : s.nextLine = none) (hlines : s.remaining = []) :
      Step isTimeout source s { s with nextLine := some source.last }
  -- the read may have finished by now: `shield` keeps its outcome for the next wait
  | timeout {s : HeartbeatState E} (hwait : s.control = .waiting true) :
      Step isTimeout source s { s with control := .heartbeat, yielded := s.yielded ++ [.timeout] }
  | wake {s : HeartbeatState E} {armed : Bool} {outcome : ReadOutcome E} (hwait : s.control = .waiting armed)
      (hread : s.nextLine = some outcome) : Step isTimeout source s (s.woken isTimeout outcome)
  | resume {s : HeartbeatState E} (hyield : s.control = .heartbeat) :
      Step isTimeout source s { s with control := .waiting s.nextLine.isNone }
  | next {s : HeartbeatState E} (hyield : s.control = .line) :
      Step isTimeout source s { s with nextLine := none, control := .waiting true }
  | close {s : HeartbeatState E} {outcome closed : Except E Unit} (hclosing : s.control = .closing outcome)
      (hclose : source.aclose.closes outcome = some closed) :
      Step isTimeout source s { s with control := .finished closed }

variable {isTimeout : E → Bool} {source : LineSource E}

/-- A line that has been read and not been yielded yet. -/
def inHand (s : HeartbeatState E) : List String :=
  if s.control.yieldsLine then [] else readText s.nextLine

/-- The loop is closing because of what the last read says. -/
structure EndsAsRead (isTimeout : E → Bool) (source : LineSource E) (s : HeartbeatState E) (outcome : Except E Unit) :
    Prop where
  read : s.nextLine = some source.last
  outcome : outcome = source.outcome
  told : ∀ exc, source.failure = some exc → isTimeout exc = false

/-- What each place of the loop knows. -/
def ControlKnows (isTimeout : E → Bool) (source : LineSource E) (s : HeartbeatState E) : Prop :=
  match s.control with
  | .waiting armed => armed = false → s.nextLine ≠ none
  | .heartbeat => True
  | .line => ∃ text, s.nextLine = some (.line text)
  | .closing outcome => s.EndsAsRead isTimeout source outcome
  | .finished outcome => s.EndsAsRead isTimeout source source.outcome ∧
      source.aclose.closes source.outcome = some outcome

/-- Every line is yielded, in hand, or has not been read, in this order. -/
structure Keeps (isTimeout : E → Bool) (source : LineSource E) (s : HeartbeatState E) : Prop where
  lines : s.yielded.filterMap StreamItem.text ++ s.inHand ++ s.remaining = source.lines
  ended : ∀ outcome, s.nextLine = some outcome → outcome.Final → s.remaining = [] ∧ outcome = source.last
  control : s.ControlKnows isTimeout source

theorem keeps_start : Keeps isTimeout source (start source) := by
  refine ⟨rfl, ?_, ?_⟩
  · intro outcome hread
    cases hread
  · intro harmed
    cases harmed

section Keeping

variable {s : HeartbeatState E}

/-- While the read is pending the loop waits or hands out a heartbeat, and no line is in hand. -/
theorem Keeps.pending (h : Keeps isTimeout source s) (hpending : s.nextLine = none) :
    s.inHand = [] ∧ (s.control = .waiting true ∨ s.control = .heartbeat) := by
  have hknows := h.control
  unfold ControlKnows at hknows
  cases hcontrol : s.control with
  | waiting armed =>
      rw [hcontrol] at hknows
      cases armed with
      | true => exact ⟨by simp [inHand, hcontrol, hpending, HeartbeatControl.yieldsLine, readText], .inl rfl⟩
      | false => exact absurd hpending (hknows rfl)
  | heartbeat => exact ⟨by simp [inHand, hcontrol, hpending, HeartbeatControl.yieldsLine, readText], .inr rfl⟩
  | line =>
      rw [hcontrol] at hknows
      obtain ⟨text, hread⟩ := hknows
      rw [hpending] at hread
      cases hread
  | closing outcome =>
      rw [hcontrol] at hknows
      have hread := hknows.read
      rw [hpending] at hread
      cases hread
  | finished outcome =>
      rw [hcontrol] at hknows
      have hread := hknows.1.read
      rw [hpending] at hread
      cases hread

theorem Keeps.arrive (h : Keeps isTimeout source s) {text : String} {rest : List String} (hpending : s.nextLine = none)
    (hlines : s.remaining = text :: rest) :
    Keeps isTimeout source { s with remaining := rest, nextLine := some (.line text) } := by
  obtain ⟨hnone, hcontrol⟩ := h.pending hpending
  have hbefore := h.lines
  rw [hnone, hlines, List.append_nil] at hbefore
  refine ⟨?_, ?_, ?_⟩
  · rcases hcontrol with hcontrol | hcontrol <;>
      simpa [inHand, hcontrol, HeartbeatControl.yieldsLine, readText] using hbefore
  · intro outcome hread hfinal
    cases hread
    exact hfinal.elim
  · rcases hcontrol with hcontrol | hcontrol <;> simp [ControlKnows, hcontrol]

theorem Keeps.last (h : Keeps isTimeout source s) (hpending : s.nextLine = none) (hlines : s.remaining = []) :
    Keeps isTimeout source { s with nextLine := some source.last } := by
  obtain ⟨hnone, hcontrol⟩ := h.pending hpending
  have hbefore := h.lines
  have hhand : ({ s with nextLine := some source.last } : HeartbeatState E).inHand = [] := by
    have hfinal := source.last_final
    rcases hcontrol with hcontrol | hcontrol <;> cases hlast : source.last <;> simp_all [inHand, ReadOutcome.Final,
      HeartbeatControl.yieldsLine, readText]
  refine ⟨?_, ?_, ?_⟩
  · rw [hhand, ← hnone]
    exact hbefore
  · intro outcome hread hfinal
    cases hread
    exact ⟨hlines, rfl⟩
  · rcases hcontrol with hcontrol | hcontrol <;> simp [ControlKnows, hcontrol]

/-- A heartbeat is handed out: no line is touched. -/
theorem Keeps.heartbeat (h : Keeps isTimeout source s) {armed : Bool} (hwait : s.control = .waiting armed) :
    Keeps isTimeout source { s with control := .heartbeat, yielded := s.yielded ++ [.timeout] } := by
  have hbefore := h.lines
  have hnone : [StreamItem.timeout].filterMap StreamItem.text = [] := rfl
  refine ⟨?_, h.ended, trivial⟩
  simpa [inHand, hwait, hnone, HeartbeatControl.yieldsLine] using hbefore

theorem Keeps.woken (h : Keeps isTimeout source s) {armed : Bool} {outcome : ReadOutcome E}
    (hwait : s.control = .waiting armed) (hread : s.nextLine = some outcome) :
    Keeps isTimeout source (s.woken isTimeout outcome) := by
  have hbefore := h.lines
  have hended := h.ended outcome hread
  cases outcome with
  | line text =>
      refine ⟨?_, h.ended, ⟨text, hread⟩⟩
      simpa [HeartbeatState.woken, inHand, hwait, hread, StreamItem.text, HeartbeatControl.yieldsLine, readText]
        using hbefore
  | exhausted =>
      obtain ⟨-, hlast⟩ := hended trivial
      have hfailure : source.failure = none := by
        unfold LineSource.last at hlast
        cases hfailure : source.failure with
        | none => rfl
        | some exc =>
            rw [hfailure] at hlast
            cases hlast
      refine ⟨?_, h.ended, ⟨hread.trans (congrArg some hlast), ?_, ?_⟩⟩
      · simpa [HeartbeatState.woken, inHand, hwait, hread, HeartbeatControl.yieldsLine, readText] using hbefore
      · rw [LineSource.outcome, hfailure]
      · intro exc hexc
        rw [hfailure] at hexc
        cases hexc
  | raised exc =>
      by_cases htimeout : isTimeout exc = true
      · rw [HeartbeatState.woken, if_pos htimeout]
        exact h.heartbeat hwait
      · obtain ⟨-, hlast⟩ := hended trivial
        have hfailure : source.failure = some exc := by
          unfold LineSource.last at hlast
          cases hfailure : source.failure with
          | none =>
              rw [hfailure] at hlast
              cases hlast
          | some exc' =>
              rw [hfailure] at hlast
              cases hlast
              rfl
        rw [HeartbeatState.woken, if_neg htimeout]
        refine ⟨?_, h.ended, ⟨hread.trans (congrArg some hlast), ?_, ?_⟩⟩
        · simpa [inHand, hwait, hread, HeartbeatControl.yieldsLine, readText] using hbefore
        · rw [LineSource.outcome, hfailure]
        · intro exc' hexc
          rw [hfailure] at hexc
          cases hexc
          exact Bool.eq_false_of_not_eq_true htimeout

theorem Keeps.step (h : Keeps isTimeout source s) {s' : HeartbeatState E} (hstep : Step isTimeout source s s') :
    Keeps isTimeout source s' := by
  cases hstep with
  | arrive hpending hlines => exact h.arrive hpending hlines
  | last hpending hlines => exact h.last hpending hlines
  | timeout hwait => exact h.heartbeat hwait
  | wake hwait hread => exact h.woken hwait hread
  | resume hyield =>
      have hbefore := h.lines
      refine ⟨by simpa [inHand, hyield, HeartbeatControl.yieldsLine, readText] using hbefore, h.ended, ?_⟩
      intro harmed hnone
      have hpending : s.nextLine = none := hnone
      simp [hpending] at harmed
  | next hyield =>
      have hbefore := h.lines
      refine ⟨by simpa [inHand, hyield, HeartbeatControl.yieldsLine, readText] using hbefore, ?_, ?_⟩
      · intro outcome hread
        cases hread
      · intro harmed
        cases harmed
  | close hclosing hclose =>
      have hbefore := h.lines
      have hknows := h.control
      rw [ControlKnows, hclosing] at hknows
      refine ⟨by simpa [inHand, hclosing, HeartbeatControl.yieldsLine] using hbefore, h.ended, ?_, ?_⟩
      · exact ⟨hknows.read, rfl, hknows.told⟩
      · rw [← hknows.outcome]
        exact hclose

theorem keeps_reachable (h : Relation.ReflTransGen (Step isTimeout source) (start source) s) :
    Keeps isTimeout source s := by
  induction h with
  | refl => exact keeps_start
  | tail _ hstep ih => exact ih.step hstep

end Keeping

/-- The upstream has ended. -/
def Ended (source : LineSource E) (s : HeartbeatState E) : Prop := s.nextLine = some source.last

/-- How many steps are left at most once the upstream has ended. -/
def stepsLeft : HeartbeatControl E → Nat
  | .waiting true => 4
  | .heartbeat => 3
  | .waiting false => 2
  | .closing _ => 1
  | .line => 0
  | .finished _ => 0

/-- A wait in progress may still be told that it was too long. -/
def inProgress : HeartbeatControl E → Nat
  | .waiting true => 1
  | _ => 0

/-- The number of heartbeats. -/
def heartbeats (s : HeartbeatState E) : Nat := s.yielded.count .timeout

/-- The loop ends when the upstream has ended: with no heartbeat but the one in progress, and as the
upstream has ended. -/
structure EndsPromptly (isTimeout : E → Bool) (source : LineSource E) (s : HeartbeatState E) : Prop where
  terminates : Acc (fun s' s => Step isTimeout source s s') s
  proceeds : ∀ s', Relation.ReflTransGen (Step isTimeout source) s s' →
    (∃ outcome, s'.control = .finished outcome) ∨ ∃ s'', Step isTimeout source s' s''
  quiet : ∀ s', Relation.ReflTransGen (Step isTimeout source) s s' →
    s'.heartbeats ≤ s.heartbeats + inProgress s.control
  result : ∀ s' outcome, Relation.ReflTransGen (Step isTimeout source) s s' →
    s'.control = .finished outcome → outcome = source.outcome

/-- The exception of the upstream is no `TimeoutError`, and `aclose` does not change the outcome. -/
structure Distinct (isTimeout : E → Bool) (source : LineSource E) : Prop where
  told : ∀ exc, source.failure = some exc → isTimeout exc = false
  closes : source.aclose.closes source.outcome = some source.outcome

section Ending

variable {s s' : HeartbeatState E}

theorem woken_last (htold : ∀ exc, source.failure = some exc → isTimeout exc = false) :
    s.woken isTimeout source.last = { s with control := .closing source.outcome } := by
  unfold LineSource.last LineSource.outcome
  cases hfailure : source.failure with
  | none => rfl
  | some exc =>
      simp only [woken]
      rw [if_neg (by simp [htold exc hfailure])]

/-- The loop waits or hands out a heartbeat until it closes. -/
theorem Keeps.ended_cases (h : Keeps isTimeout source s) (hended : s.Ended source) :
    (∃ armed, s.control = .waiting armed) ∨ s.control = .heartbeat ∨
      ((∀ exc, source.failure = some exc → isTimeout exc = false) ∧
        (s.control = .closing source.outcome ∨
          ∃ outcome, s.control = .finished outcome ∧ source.aclose.closes source.outcome = some outcome)) := by
  have hknows := h.control
  unfold ControlKnows at hknows
  cases hcontrol : s.control with
  | waiting armed => exact .inl ⟨armed, rfl⟩
  | heartbeat => exact .inr (.inl rfl)
  | line =>
      rw [hcontrol] at hknows
      obtain ⟨text, hread⟩ := hknows
      have hfinal := source.last_final
      rw [Ended, hread] at hended
      rw [← Option.some.inj hended] at hfinal
      exact hfinal.elim
  | closing outcome =>
      rw [hcontrol] at hknows
      exact .inr (.inr ⟨hknows.told, .inl (congrArg _ hknows.outcome)⟩)
  | finished outcome =>
      rw [hcontrol] at hknows
      exact .inr (.inr ⟨hknows.1.told, .inr ⟨outcome, rfl, hknows.2⟩⟩)

/-- One step after the end: the loop comes closer to its own, and only a wait in progress hands out a
heartbeat. -/
theorem Keeps.ended_step (h : Keeps isTimeout source s) (hended : s.Ended source)
    (htold : ∀ exc, source.failure = some exc → isTimeout exc = false) (hstep : Step isTimeout source s s') :
    s'.Ended source ∧ stepsLeft s'.control < stepsLeft s.control ∧
      s'.heartbeats + inProgress s'.control ≤ s.heartbeats + inProgress s.control := by
  cases hstep with
  | arrive hpending hlines => rw [Ended, hpending] at hended; cases hended
  | last hpending hlines => rw [Ended, hpending] at hended; cases hended
  | timeout hwait => exact ⟨hended, by simp [hwait, stepsLeft], by simp [hwait, heartbeats, inProgress]⟩
  | @wake armed outcome hwait hread =>
      rw [Ended, hread] at hended
      obtain rfl := Option.some.inj hended
      rw [woken_last htold]
      refine ⟨hread, ?_, ?_⟩
      · cases armed <;> simp [hwait, stepsLeft]
      · simp [heartbeats, inProgress]
  | resume hyield =>
      have hread : s.nextLine.isNone = false := by
        rw [Ended] at hended
        rw [hended]
        rfl
      refine ⟨hended, ?_, ?_⟩
      · simp [hyield, hread, stepsLeft]
      · simp [hyield, hread, heartbeats, inProgress]
  | next hyield =>
      rcases h.ended_cases hended with ⟨armed, hcontrol⟩ | hcontrol | ⟨-, hcontrol | ⟨outcome, hcontrol, -⟩⟩
      all_goals
        rw [hcontrol] at hyield
        cases hyield
  | close hclosing hclose => exact ⟨hended, by simp [hclosing, stepsLeft], by simp [hclosing, heartbeats, inProgress]⟩

theorem Keeps.ended_run (h : Keeps isTimeout source s) (hended : s.Ended source)
    (htold : ∀ exc, source.failure = some exc → isTimeout exc = false)
    (hrun : Relation.ReflTransGen (Step isTimeout source) s s') :
    Keeps isTimeout source s' ∧ s'.Ended source ∧
      s'.heartbeats + inProgress s'.control ≤ s.heartbeats + inProgress s.control := by
  induction hrun with
  | refl => exact ⟨h, hended, le_refl _⟩
  | tail _ hstep ih =>
      obtain ⟨hkeeps, hmiddle, hcount⟩ := ih
      obtain ⟨hafter, -, hnext⟩ := hkeeps.ended_step hmiddle htold hstep
      exact ⟨hkeeps.step hstep, hafter, hnext.trans hcount⟩

theorem Keeps.ended_terminates (htold : ∀ exc, source.failure = some exc → isTimeout exc = false) (count : Nat) :
    ∀ s : HeartbeatState E, Keeps isTimeout source s → s.Ended source → stepsLeft s.control ≤ count →
      Acc (fun s' s => Step isTimeout source s s') s := by
  induction count with
  | zero =>
      intro s h hended hcount
      refine ⟨s, ?_⟩
      intro s' hstep
      have hless := (h.ended_step hended htold hstep).2.1
      omega
  | succ count ih =>
      intro s h hended hcount
      refine ⟨s, ?_⟩
      intro s' hstep
      obtain ⟨hafter, hless, -⟩ := h.ended_step hended htold hstep
      exact ih s' (h.step hstep) hafter (by omega)

/-- From every place the loop comes to `aclose`. -/
theorem Keeps.reaches_closing (h : Keeps isTimeout source s) (hended : s.Ended source)
    (htold : ∀ exc, source.failure = some exc → isTimeout exc = false) :
    ∃ s', Relation.ReflTransGen (Step isTimeout source) s s' ∧ s'.Ended source ∧
      (s'.control = .closing source.outcome ∨
        ∃ outcome, s'.control = .finished outcome ∧ source.aclose.closes source.outcome = some outcome) := by
  have hwake : ∀ (s : HeartbeatState E) armed, s.Ended source → s.control = .waiting armed →
      Step isTimeout source s { s with control := .closing source.outcome } := by
    intro s armed hended hwait
    have hstep : Step isTimeout source s (s.woken isTimeout source.last) := .wake hwait hended
    rw [woken_last htold] at hstep
    exact hstep
  rcases h.ended_cases hended with ⟨armed, hcontrol⟩ | hcontrol | ⟨-, hclosing⟩
  · exact ⟨_, .single (hwake s armed hended hcontrol), hended, .inl rfl⟩
  · have hresume : Step isTimeout source s { s with control := .waiting s.nextLine.isNone } := .resume hcontrol
    exact ⟨_, (Relation.ReflTransGen.single hresume).tail (hwake _ _ hended rfl), hended, .inl rfl⟩
  · exact ⟨s, .refl, hended, hclosing⟩

/-- A read that has raised a `TimeoutError` is waited for again and again. -/
theorem Keeps.heartbeats_go_on (h : Keeps isTimeout source s) (hended : s.Ended source) {exc : E}
    (hfailure : source.failure = some exc) (htimeout : isTimeout exc = true) :
    ∃ s', Relation.ReflTransGen (Step isTimeout source) s s' ∧ s.heartbeats + 2 ≤ s'.heartbeats := by
  have hlast : source.last = .raised exc := by rw [LineSource.last, hfailure]
  have hwake : ∀ (s : HeartbeatState E) armed, s.Ended source → s.control = .waiting armed →
      Step isTimeout source s { s with control := .heartbeat, yielded := s.yielded ++ [.timeout] } := by
    intro s armed hended hwait
    have hstep : Step isTimeout source s (s.woken isTimeout source.last) := .wake hwait hended
    rw [hlast, HeartbeatState.woken, if_pos htimeout] at hstep
    exact hstep
  have hagain : ∀ s : HeartbeatState E, s.Ended source → s.control = .heartbeat →
      ∃ s', Relation.ReflTransGen (Step isTimeout source) s s' ∧ s'.Ended source ∧ s'.control = .heartbeat ∧
        s'.heartbeats = s.heartbeats + 1 := by
    intro s hended hcontrol
    have hresume : Step isTimeout source s { s with control := .waiting s.nextLine.isNone } := .resume hcontrol
    refine ⟨_, (Relation.ReflTransGen.single hresume).tail (hwake _ _ hended rfl), hended, rfl, ?_⟩
    simp [heartbeats]
  have hfirst : ∃ s', Relation.ReflTransGen (Step isTimeout source) s s' ∧ s'.Ended source ∧
      s'.control = .heartbeat ∧ s.heartbeats + 1 ≤ s'.heartbeats := by
    rcases h.ended_cases hended with ⟨armed, hcontrol⟩ | hcontrol | ⟨htold, -⟩
    · exact ⟨_, .single (hwake s armed hended hcontrol), hended, rfl, by simp [heartbeats]⟩
    · obtain ⟨s', hrun, hended', hcontrol', hcount⟩ := hagain s hended hcontrol
      exact ⟨s', hrun, hended', hcontrol', hcount.ge⟩
    · rw [htold exc hfailure] at htimeout
      cases htimeout
  obtain ⟨first, hrun, hended', hcontrol', hcount⟩ := hfirst
  obtain ⟨second, hrun', -, -, hcount'⟩ := hagain first hended' hcontrol'
  exact ⟨second, hrun.trans hrun', by omega⟩

theorem inProgress_le (control : HeartbeatControl E) : inProgress control ≤ 1 := by
  unfold inProgress
  split
  · exact le_refl 1
  · exact Nat.zero_le 1

theorem Keeps.endsPromptly (h : Keeps isTimeout source s) (hended : s.Ended source) (hdistinct : Distinct isTimeout source) :
    EndsPromptly isTimeout source s where
  terminates := Keeps.ended_terminates hdistinct.told _ s h hended (le_refl _)
  proceeds := by
    intro s' hrun
    obtain ⟨hkeeps, hended', -⟩ := h.ended_run hended hdistinct.told hrun
    rcases hkeeps.ended_cases hended' with ⟨armed, hcontrol⟩ | hcontrol | ⟨-, hcontrol | ⟨outcome, hcontrol, -⟩⟩
    · exact .inr ⟨_, .wake hcontrol hended'⟩
    · exact .inr ⟨_, .resume hcontrol⟩
    · exact .inr ⟨_, .close hcontrol hdistinct.closes⟩
    · exact .inl ⟨outcome, hcontrol⟩
  quiet := by
    intro s' hrun
    obtain ⟨-, -, hcount⟩ := h.ended_run hended hdistinct.told hrun
    omega
  result := by
    intro s' outcome hrun hfinished
    obtain ⟨hkeeps, -, -⟩ := h.ended_run hended hdistinct.told hrun
    have hknows := hkeeps.control
    rw [ControlKnows, hfinished] at hknows
    have hclosed := hknows.2
    rw [hdistinct.closes] at hclosed
    exact (Option.some.inj hclosed).symm

theorem Keeps.distinct (h : Keeps isTimeout source s) (hended : s.Ended source)
    (hprompt : EndsPromptly isTimeout source s) : Distinct isTimeout source := by
  have htold : ∀ exc, source.failure = some exc → isTimeout exc = false := by
    intro exc hfailure
    by_contra htimeout
    obtain ⟨s', hrun, hcount⟩ := h.heartbeats_go_on hended hfailure (Bool.eq_true_of_not_eq_false htimeout)
    have hquiet := hprompt.quiet s' hrun
    have hone := inProgress_le s.control
    omega
  refine ⟨htold, ?_⟩
  obtain ⟨s', hrun, hended', hcontrol⟩ := h.reaches_closing hended htold
  cases hcloses : source.aclose.closes source.outcome with
  | none =>
      rcases hcontrol with hcontrol | ⟨outcome, -, hclosed⟩
      · rcases hprompt.proceeds s' hrun with ⟨outcome, hfinished⟩ | ⟨s'', hstep⟩
        · rw [hcontrol] at hfinished
          cases hfinished
        · have hless := ((h.ended_run hended htold hrun).1.ended_step hended' htold hstep).2.1
          cases hstep with
          | close hclosing hclose =>
              rw [hcontrol] at hclosing
              cases hclosing
              rw [hcloses] at hclose
              cases hclose
          | arrive hpending _ => rw [Ended, hpending] at hended'; cases hended'
          | last hpending _ => rw [Ended, hpending] at hended'; cases hended'
          | timeout hwait => rw [hcontrol] at hwait; cases hwait
          | wake hwait _ => rw [hcontrol] at hwait; cases hwait
          | resume hyield => rw [hcontrol] at hyield; cases hyield
          | next hyield => rw [hcontrol] at hyield; cases hyield
      · rw [hcloses] at hclosed
        cases hclosed
  | some closed =>
      rcases hcontrol with hcontrol | ⟨outcome, hfinished, hclosed⟩
      · rw [hprompt.result _ closed (hrun.tail (.close hcontrol hcloses)) rfl]
      · rw [hcloses] at hclosed
        cases hclosed
        rw [hprompt.result s' closed hrun hfinished]

end Ending

end HeartbeatState

/-- **The heartbeat loop ends when the upstream ends, exactly when it can tell the end from its own timeout.** -/
theorem heartbeat_loop_ends_iff (E : Type) (isTimeout : E → Bool) (source : LineSource E) (s : HeartbeatState E)
    (h : Relation.ReflTransGen (HeartbeatState.Step isTimeout source) (.start source) s)
    (hended : s.Ended source) :
    s.EndsPromptly isTimeout source ↔ HeartbeatState.Distinct isTimeout source := by
  have hkeeps := HeartbeatState.keeps_reachable h
  constructor
  · intro hprompt
    exact hkeeps.distinct hended hprompt
  · intro hdistinct
    exact hkeeps.endsPromptly hended hdistinct

/-- The builtin `TimeoutError`. -/
def builtinTimeout : PyExc := .exception none "TimeoutError"

def isBuiltinTimeout (exc : PyExc) : Bool := exc = builtinTimeout

theorem ended_at_once (source : LineSource PyExc) (hlines : source.lines = []) :
    Relation.ReflTransGen (HeartbeatState.Step isBuiltinTimeout source) (.start source)
      ⟨source.lines, some source.last, .waiting true, []⟩ := by
  have hlast : HeartbeatState.Step isBuiltinTimeout source (.start source) _ := .last rfl hlines
  exact .single hlast

/-- An upstream that is reset after a line. -/
def resetSource : LineSource PyExc := ⟨["data: 1"], some (.exception none "ReadError"), .returns⟩

/-- The loop has handed out the line, and the next read has raised. -/
theorem heartbeat_loop_ends_reset :
    (⟨[], some resetSource.last, .waiting true, [.line "data: 1"]⟩ : HeartbeatState PyExc).EndsPromptly
      isBuiltinTimeout resetSource := by
  let line : ReadOutcome PyExc := .line "data: 1"
  let Reaches (s : HeartbeatState PyExc) : Prop :=
    Relation.ReflTransGen (HeartbeatState.Step isBuiltinTimeout resetSource) (.start resetSource) s
  have h : Reaches ⟨[], some line, .waiting true, []⟩ := .tail .refl (.arrive rfl rfl)
  have h : Reaches ⟨[], some line, .line, [.line "data: 1"]⟩ :=
    h.tail (show HeartbeatState.Step isBuiltinTimeout resetSource _
      (HeartbeatState.woken isBuiltinTimeout _ line) from .wake rfl rfl)
  have h : Reaches ⟨[], none, .waiting true, [.line "data: 1"]⟩ := h.tail (.next rfl)
  have h : Reaches ⟨[], some resetSource.last, .waiting true, [.line "data: 1"]⟩ := h.tail (.last rfl rfl)
  apply (heartbeat_loop_ends_iff PyExc isBuiltinTimeout resetSource _ h rfl).mpr
  refine ⟨?_, rfl⟩
  intro exc hfailure
  rw [← Option.some.inj hfailure]
  decide

/-- A source whose first read raises `TimeoutError`: the loop sends heartbeats for good. -/
theorem heartbeat_loop_goes_on : ¬ ∀ (E : Type) (isTimeout : E → Bool) (source : LineSource E) (s : HeartbeatState E),
    Relation.ReflTransGen (HeartbeatState.Step isTimeout source) (.start source) s → s.Ended source →
    s.EndsPromptly isTimeout source := by
  intro hall
  let source : LineSource PyExc := ⟨[], some builtinTimeout, .returns⟩
  have hreach := ended_at_once source rfl
  have hprompt := hall PyExc isBuiltinTimeout source _ hreach rfl
  have htold := ((HeartbeatState.keeps_reachable hreach).distinct rfl hprompt).told builtinTimeout rfl
  exact absurd htold (by decide)

end GpuInference
