import GpuInference.EffectFrame

/-!
Tasks of one event loop. A task keeps the loop until it makes a call that suspends it, or ends; no other
task runs in between. A section is what one task does from where it was resumed to where it stops next.
-/

namespace Effect

variable {Op : Type} {Res : Op → Type} {Exc α β S : Type}

namespace Program

/-- The program has nothing more to do in this section: it has ended, or its next call suspends it. -/
def Stops (suspends : Op → Prop) : Program Op Res Exc α → Prop
  | ret _ => True
  | raise _ => True
  | call op _ => suspends op

theorem stops_ret (suspends : Op → Prop) (value : α) : (ret value : Program Op Res Exc α).Stops suspends := trivial

theorem stops_raise (suspends : Op → Prop) (exc : Exc) : (raise exc : Program Op Res Exc α).Stops suspends := trivial

/-- One section: the program makes its calls, none of which suspends it, and stops as `rest`. -/
inductive Section (exec : Exec Op Res Exc S) (suspends : Op → Prop) :
    Program Op Res Exc α → S → Program Op Res Exc α → S → Prop
  | stop {body : Program Op Res Exc α} {s : S} (h : body.Stops suspends) : Section exec suspends body s body s
  | call {op : Op} {next : Except Exc (Res op) → Program Op Res Exc α} {answer : Except Exc (Res op)}
      {rest : Program Op Res Exc α} {s middle s' : S} (hruns : ¬ suspends op) (hexec : exec op s answer middle)
      (hrest : Section exec suspends (next answer) middle rest s') :
      Section exec suspends (.call op next) s rest s'

variable {exec : Exec Op Res Exc S} {suspends : Op → Prop}

theorem section_of_stops {body rest : Program Op Res Exc α} {s s' : S} (hstops : body.Stops suspends)
    (h : body.Section exec suspends s rest s') : rest = body ∧ s' = s := by
  cases h with
  | stop _ => exact ⟨rfl, rfl⟩
  | call hruns hexec hrest => exact absurd hstops hruns

theorem section_call {op : Op} {next : Except Exc (Res op) → Program Op Res Exc α} {rest : Program Op Res Exc α}
    {s s' : S} (hruns : ¬ suspends op) :
    (call op next).Section exec suspends s rest s' ↔
      ∃ answer middle, exec op s answer middle ∧ (next answer).Section exec suspends middle rest s' := by
  constructor
  · intro h
    cases h with
    | stop hstops => exact absurd hstops hruns
    | call _ hexec hrest => exact ⟨_, _, hexec, hrest⟩
  · rintro ⟨answer, middle, hexec, hrest⟩
    exact .call hruns hexec hrest

/-- A sequence stops inside its first part, or after it. -/
theorem section_bind {body : Program Op Res Exc α} {rest : α → Program Op Res Exc β} {last : Program Op Res Exc β}
    {s s' : S} (h : (body.bind rest).Section exec suspends s last s') :
    (∃ value middle, body.Section exec suspends s (.ret value) middle ∧
      (rest value).Section exec suspends middle last s') ∨
    (∃ exc, body.Section exec suspends s (.raise exc) s' ∧ last = .raise exc) ∨
    ∃ op next, suspends op ∧ body.Section exec suspends s (.call op next) s' ∧ last = (call op next).bind rest := by
  induction body generalizing s with
  | ret value => exact .inl ⟨value, s, .stop trivial, h⟩
  | raise exc =>
      obtain ⟨rfl, rfl⟩ := section_of_stops (stops_raise _ _) h
      exact .inr (.inl ⟨exc, .stop trivial, rfl⟩)
  | call op next ih =>
      by_cases hop : suspends op
      · obtain ⟨rfl, rfl⟩ := section_of_stops (show ((call op next).bind rest).Stops suspends from hop) h
        exact .inr (.inr ⟨op, next, hop, .stop hop, rfl⟩)
      · obtain ⟨answer, middle, hexec, hrest⟩ := (section_call hop).mp h
        rcases ih answer hrest with ⟨value, after, hbody, hlast⟩ | ⟨exc, hbody, hlast⟩ | ⟨op', next', hop', hbody, hlast⟩
        · exact .inl ⟨value, after, .call hop hexec hbody, hlast⟩
        · exact .inr (.inl ⟨exc, .call hop hexec hbody, hlast⟩)
        · exact .inr (.inr ⟨op', next', hop', .call hop hexec hbody, hlast⟩)

/-- A `try` with a handler stops inside its body or inside the handler. -/
theorem section_tryExcept {catches : Exc → Bool} {body last : Program Op Res Exc α}
    {handler : Exc → Program Op Res Exc α} {s s' : S}
    (h : (tryExcept catches body handler).Section exec suspends s last s') :
    (∃ value, body.Section exec suspends s (.ret value) s' ∧ last = .ret value) ∨
    (∃ exc middle, body.Section exec suspends s (.raise exc) middle ∧
      if catches exc then (handler exc).Section exec suspends middle last s' else last = .raise exc ∧ s' = middle) ∨
    ∃ op next, suspends op ∧ body.Section exec suspends s (.call op next) s' ∧
      last = tryExcept catches (call op next) handler := by
  induction body generalizing s with
  | ret value =>
      obtain ⟨rfl, rfl⟩ := section_of_stops (stops_ret _ _) h
      exact .inl ⟨value, .stop trivial, rfl⟩
  | raise exc =>
      refine .inr (.inl ⟨exc, s, .stop trivial, ?_⟩)
      rw [tryExcept] at h
      split
      · rename_i hcatches
        rw [if_pos hcatches] at h
        exact h
      · rename_i hcatches
        rw [if_neg hcatches] at h
        exact section_of_stops (stops_raise _ _) h
  | call op next ih =>
      by_cases hop : suspends op
      · obtain ⟨rfl, rfl⟩ :=
          section_of_stops (show (tryExcept catches (call op next) handler).Stops suspends from hop) h
        exact .inr (.inr ⟨op, next, hop, .stop hop, rfl⟩)
      · obtain ⟨answer, middle, hexec, hrest⟩ := (section_call hop).mp h
        rcases ih answer hrest with ⟨value, hbody, hlast⟩ | ⟨exc, after, hbody, hlast⟩ | ⟨op', next', hop', hbody, hlast⟩
        · exact .inl ⟨value, .call hop hexec hbody, hlast⟩
        · exact .inr (.inl ⟨exc, after, .call hop hexec hbody, hlast⟩)
        · exact .inr (.inr ⟨op', next', hop', .call hop hexec hbody, hlast⟩)

/-- A call that does not suspend, in a sequence. -/
theorem section_perform_bind {op : Op} {rest : Res op → Program Op Res Exc β} {last : Program Op Res Exc β} {s s' : S}
    (hruns : ¬ suspends op) (h : ((perform op).bind rest).Section exec suspends s last s') :
    (∃ value middle, exec op s (.ok value) middle ∧ (rest value).Section exec suspends middle last s') ∨
      ∃ exc, exec op s (.error exc) s' ∧ last = .raise exc := by
  obtain ⟨answer, middle, hexec, hrest⟩ := (section_call hruns).mp h
  cases answer with
  | ok value => exact .inl ⟨value, middle, hexec, hrest⟩
  | error exc =>
      obtain ⟨rfl, rfl⟩ := section_of_stops (stops_raise _ _) hrest
      exact .inr ⟨exc, hexec, rfl⟩

/-- A program that makes no call that suspends it ends in its first section. -/
theorem Makes.section_ends {body rest : Program Op Res Exc α} (hruns : body.Makes fun op => ¬ suspends op) {s s' : S}
    (h : body.Section exec suspends s rest s') : (∃ value, rest = .ret value) ∨ ∃ exc, rest = .raise exc := by
  induction body generalizing s with
  | ret value => exact .inl ⟨value, (section_of_stops (stops_ret _ _) h).1⟩
  | raise exc => exact .inr ⟨exc, (section_of_stops (stops_raise _ _) h).1⟩
  | call op next ih =>
      obtain ⟨answer, middle, -, hrest⟩ := (section_call hruns.1).mp h
      exact ih answer (hruns.2 answer) hrest

end Program

end Effect
