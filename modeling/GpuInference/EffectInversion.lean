import GpuInference.EffectCalm
import GpuInference.EffectFrame

/-!
Traces taken apart. The trace of a composed program is the trace of its first part, and then the trace of what goes on
from there; so the trace of a sequence, a `try` statement or a block is read off part by part, in the order of the code.
-/

namespace Effect

variable {Op : Type} {Res : Op → Type} {Exc α β σ : Type}

namespace Program

theorem traces_lift {outcome out : Except Exc α} {calls : List (Event Op Res Exc)} :
    (lift outcome : Program Op Res Exc α).Traces calls out ↔ calls = [] ∧ out = outcome := by
  cases outcome with
  | ok value => exact Iff.rfl
  | error exc => exact Iff.rfl

theorem traces_perform {op : Op} {calls : List (Event Op Res Exc)} {outcome : Except Exc (Res op)} :
    (perform op).Traces calls outcome ↔ calls = [⟨op, outcome⟩] := by
  constructor
  · rintro ⟨answer, rest, rfl, h⟩
    cases answer with
    | ok value =>
        obtain ⟨rfl, rfl⟩ := h
        rfl
    | error exc =>
        obtain ⟨rfl, rfl⟩ := h
        rfl
  · rintro rfl
    refine ⟨outcome, [], rfl, ?_⟩
    cases outcome with
    | ok value => exact ⟨rfl, rfl⟩
    | error exc => exact ⟨rfl, rfl⟩

/-- A sequence ends with an exception of its first part, or goes on to the rest. -/
theorem traces_bind {body : Program Op Res Exc α} {rest : α → Program Op Res Exc β}
    {calls : List (Event Op Res Exc)} {outcome : Except Exc β} :
    (body.bind rest).Traces calls outcome ↔
      (∃ exc, body.Traces calls (.error exc) ∧ outcome = .error exc) ∨
        ∃ value left right, calls = left ++ right ∧ body.Traces left (.ok value) ∧
          (rest value).Traces right outcome := by
  induction body generalizing calls with
  | ret value =>
      constructor
      · intro h
        exact .inr ⟨value, [], calls, rfl, ⟨rfl, rfl⟩, h⟩
      · rintro (⟨exc, ⟨-, herror⟩, -⟩ | ⟨_, left, right, rfl, ⟨rfl, hvalue⟩, h⟩)
        · cases herror
        · cases hvalue
          exact h
  | raise exc =>
      constructor
      · rintro ⟨rfl, rfl⟩
        exact .inl ⟨exc, ⟨rfl, rfl⟩, rfl⟩
      · rintro (⟨exc', ⟨rfl, herror⟩, rfl⟩ | ⟨value, left, right, -, ⟨-, hvalue⟩, -⟩)
        · cases herror
          exact ⟨rfl, rfl⟩
        · cases hvalue
  | call op next ih =>
      constructor
      · rintro ⟨answer, rest', rfl, h⟩
        rcases (ih answer).mp h with ⟨exc, hbody, rfl⟩ | ⟨value, left, right, rfl, hbody, hrest⟩
        · exact .inl ⟨exc, ⟨answer, rest', rfl, hbody⟩, rfl⟩
        · exact .inr ⟨value, _ :: left, right, rfl, ⟨answer, left, rfl, hbody⟩, hrest⟩
      · rintro (⟨exc, ⟨answer, rest', rfl, hbody⟩, rfl⟩ | ⟨value, _, right, rfl, ⟨answer, left, rfl, hbody⟩, hrest⟩)
        · exact ⟨answer, rest', rfl, (ih answer).mpr (.inl ⟨exc, hbody, rfl⟩)⟩
        · exact ⟨answer, left ++ right, rfl, (ih answer).mpr (.inr ⟨value, left, right, rfl, hbody, hrest⟩)⟩

/-- A call in a sequence. -/
theorem traces_perform_bind {op : Op} {rest : Res op → Program Op Res Exc β} {calls : List (Event Op Res Exc)}
    {outcome : Except Exc β} :
    ((perform op).bind rest).Traces calls outcome ↔
      (∃ exc, calls = [⟨op, .error exc⟩] ∧ outcome = .error exc) ∨
        ∃ value right, calls = ⟨op, .ok value⟩ :: right ∧ (rest value).Traces right outcome := by
  rw [traces_bind]
  simp only [traces_perform]
  constructor
  · rintro (h | ⟨value, left, right, rfl, rfl, h⟩)
    · exact .inl h
    · exact .inr ⟨value, right, rfl, h⟩
  · rintro (h | ⟨value, right, rfl, h⟩)
    · exact .inl h
    · exact .inr ⟨value, [_], right, rfl, rfl, h⟩

/-- A step without a call in a sequence. -/
theorem traces_lift_bind {out : Except Exc α} {rest : α → Program Op Res Exc β} {calls : List (Event Op Res Exc)}
    {outcome : Except Exc β} :
    ((lift out).bind rest).Traces calls outcome ↔
      (∃ exc, out = .error exc ∧ calls = [] ∧ outcome = .error exc) ∨
        ∃ value, out = .ok value ∧ (rest value).Traces calls outcome := by
  cases out with
  | error exc =>
      constructor
      · rintro ⟨rfl, rfl⟩
        exact .inl ⟨exc, rfl, rfl, rfl⟩
      · rintro (⟨exc', hexc, rfl, rfl⟩ | ⟨value, herror, -⟩)
        · cases hexc
          exact ⟨rfl, rfl⟩
        · cases herror
  | ok value =>
      constructor
      · exact fun h => .inr ⟨value, rfl, h⟩
      · rintro (⟨exc, hok, -⟩ | ⟨value', hvalue, h⟩)
        · cases hok
        · cases hvalue
          exact h

theorem traces_attempt {body : Program Op Res Exc α} {calls : List (Event Op Res Exc)}
    {outcome : Except Exc (Except Exc α)} :
    body.attempt.Traces calls outcome ↔ ∃ out, outcome = .ok out ∧ body.Traces calls out := by
  induction body generalizing calls with
  | ret value =>
      constructor
      · rintro ⟨rfl, rfl⟩
        exact ⟨_, rfl, rfl, rfl⟩
      · rintro ⟨_, rfl, rfl, rfl⟩
        exact ⟨rfl, rfl⟩
  | raise exc =>
      constructor
      · rintro ⟨rfl, rfl⟩
        exact ⟨_, rfl, rfl, rfl⟩
      · rintro ⟨_, rfl, rfl, rfl⟩
        exact ⟨rfl, rfl⟩
  | call op next ih =>
      constructor
      · rintro ⟨answer, rest, rfl, h⟩
        obtain ⟨out, rfl, hbody⟩ := (ih answer).mp h
        exact ⟨out, rfl, answer, rest, rfl, hbody⟩
      · rintro ⟨out, rfl, answer, rest, rfl, hbody⟩
        exact ⟨answer, rest, rfl, (ih answer).mpr ⟨out, rfl, hbody⟩⟩

/-- A program that does not raise returns. -/
theorem Quiet.traces {body : Program Op Res Exc α} (h : body.Quiet) {calls : List (Event Op Res Exc)} {exc : Exc} :
    ¬ body.Traces calls (.error exc) := by
  induction body generalizing calls with
  | ret value =>
      rintro ⟨-, herror⟩
      cases herror
  | raise raised => exact h.elim
  | call op next ih =>
      rintro ⟨answer, rest, -, htraces⟩
      exact ih answer (h answer) htraces

/-- The calls of a program are among those that it makes. -/
theorem Makes.traces {may : Op → Prop} {body : Program Op Res Exc α} (h : body.Makes may)
    {calls : List (Event Op Res Exc)} {outcome : Except Exc α} (htraces : body.Traces calls outcome) :
    ∀ event ∈ calls, may event.op := by
  induction body generalizing calls with
  | ret value =>
      obtain ⟨rfl, -⟩ := htraces
      exact fun _ hevent => by cases hevent
  | raise exc =>
      obtain ⟨rfl, -⟩ := htraces
      exact fun _ hevent => by cases hevent
  | call op next ih =>
      obtain ⟨answer, rest, rfl, hrest⟩ := htraces
      intro event hevent
      rcases List.mem_cons.mp hevent with rfl | hevent
      · exact h.1
      · exact ih answer (h.2 answer) hrest event hevent

end Program

namespace Block

/-- The block makes exactly these calls and is left with this outcome and these locals. -/
def Leaves (body : Block Op Res Exc σ α) (l : σ) (calls : List (Event Op Res Exc)) (outcome : Except Exc α) (l' : σ) :
    Prop := (body l).Traces calls (.ok (outcome, l'))

variable {l l' : σ} {calls : List (Event Op Res Exc)}

theorem leaves_lift {outcome out : Except Exc α} :
    (lift outcome : Block Op Res Exc σ α).Leaves l calls out l' ↔ calls = [] ∧ out = outcome ∧ l' = l := by
  constructor
  · rintro ⟨rfl, h⟩
    cases h
    exact ⟨rfl, rfl, rfl⟩
  · rintro ⟨rfl, rfl, rfl⟩
    exact ⟨rfl, rfl⟩

theorem leaves_pure {value : α} {out : Except Exc α} :
    (Pure.pure value : Block Op Res Exc σ α).Leaves l calls out l' ↔ calls = [] ∧ out = .ok value ∧ l' = l :=
  leaves_lift

theorem leaves_throw {exc : Exc} {out : Except Exc α} :
    (throw exc : Block Op Res Exc σ α).Leaves l calls out l' ↔ calls = [] ∧ out = .error exc ∧ l' = l := leaves_lift

theorem leaves_assign {f : σ → σ} {out : Except Exc Unit} :
    (assign f : Block Op Res Exc σ Unit).Leaves l calls out l' ↔ calls = [] ∧ out = .ok () ∧ l' = f l := by
  constructor
  · rintro ⟨rfl, h⟩
    cases h
    exact ⟨rfl, rfl, rfl⟩
  · rintro ⟨rfl, rfl, rfl⟩
    exact ⟨rfl, rfl⟩

theorem leaves_bind {body : Block Op Res Exc σ α} {rest : α → Block Op Res Exc σ β} {outcome : Except Exc β} :
    (body >>= rest).Leaves l calls outcome l' ↔
      (∃ exc, body.Leaves l calls (.error exc) l' ∧ outcome = .error exc) ∨
        ∃ value middle left right, calls = left ++ right ∧ body.Leaves l left (.ok value) middle ∧
          (rest value).Leaves middle right outcome l' := by
  show ((body l).bind (andThen rest)).Traces calls (.ok (outcome, l')) ↔ _
  rw [Program.traces_bind]
  constructor
  · rintro (⟨exc, -, herror⟩ | ⟨⟨exc | value, middle⟩, left, right, rfl, hbody, hrest⟩)
    · cases herror
    · obtain ⟨rfl, h⟩ := hrest
      cases h
      exact .inl ⟨exc, by rwa [List.append_nil], rfl⟩
    · exact .inr ⟨value, middle, left, right, rfl, hbody, hrest⟩
  · rintro (⟨exc, hbody, rfl⟩ | ⟨value, middle, left, right, rfl, hbody, hrest⟩)
    · exact .inr ⟨(.error exc, l'), calls, [], (List.append_nil calls).symm, hbody, rfl, rfl⟩
    · exact .inr ⟨(.ok value, middle), left, right, rfl, hbody, hrest⟩

theorem leaves_await {body : Program Op Res Exc α} {outcome : Except Exc α} :
    (await body : Block Op Res Exc σ α).Leaves l calls outcome l' ↔ body.Traces calls outcome ∧ l' = l := by
  unfold Leaves await
  rw [Program.traces_bind]
  simp only [Program.traces_attempt]
  constructor
  · rintro (⟨exc, ⟨out, herror, -⟩, -⟩ | ⟨out, left, right, rfl, ⟨out', hout, hbody⟩, hrest⟩)
    · cases herror
    · obtain ⟨rfl, h⟩ := hrest
      cases hout
      cases h
      exact ⟨by rwa [List.append_nil], rfl⟩
  · rintro ⟨hbody, rfl⟩
    exact .inr ⟨outcome, calls, [], (List.append_nil calls).symm, ⟨outcome, rfl, hbody⟩, rfl, rfl⟩

/-- A call in a sequence: an exception leaves the block, a value goes on to the rest. -/
theorem leaves_perform_bind {op : Op} {rest : Res op → Block Op Res Exc σ β} {outcome : Except Exc β} :
    (await (Program.perform op) >>= rest).Leaves l calls outcome l' ↔
      (∃ exc, calls = [⟨op, .error exc⟩] ∧ outcome = .error exc ∧ l' = l) ∨
        ∃ value right, calls = ⟨op, .ok value⟩ :: right ∧ (rest value).Leaves l right outcome l' := by
  rw [leaves_bind]
  simp only [leaves_await, Program.traces_perform]
  constructor
  · rintro (⟨exc, ⟨rfl, rfl⟩, rfl⟩ | ⟨value, middle, left, right, rfl, ⟨rfl, rfl⟩, hrest⟩)
    · exact .inl ⟨exc, rfl, rfl, rfl⟩
    · exact .inr ⟨value, right, rfl, hrest⟩
  · rintro (⟨exc, rfl, rfl, rfl⟩ | ⟨value, right, rfl, hrest⟩)
    · exact .inl ⟨exc, ⟨rfl, rfl⟩, rfl⟩
    · exact .inr ⟨value, l, [_], right, rfl, ⟨rfl, rfl⟩, hrest⟩

theorem leaves_lift_bind {out : Except Exc α} {rest : α → Block Op Res Exc σ β} {outcome : Except Exc β} :
    (lift out >>= rest).Leaves l calls outcome l' ↔
      (∃ exc, out = .error exc ∧ calls = [] ∧ outcome = .error exc ∧ l' = l) ∨
        ∃ value, out = .ok value ∧ (rest value).Leaves l calls outcome l' := by
  rw [leaves_bind]
  simp only [leaves_lift]
  constructor
  · rintro (⟨exc, ⟨rfl, rfl, rfl⟩, rfl⟩ | ⟨value, middle, left, right, rfl, ⟨rfl, rfl, rfl⟩, hrest⟩)
    · exact .inl ⟨exc, rfl, rfl, rfl, rfl⟩
    · exact .inr ⟨value, rfl, hrest⟩
  · rintro (⟨exc, rfl, rfl, rfl, rfl⟩ | ⟨value, rfl, hrest⟩)
    · exact .inl ⟨exc, ⟨rfl, rfl, rfl⟩, rfl⟩
    · exact .inr ⟨value, l, [], calls, rfl, ⟨rfl, rfl, rfl⟩, hrest⟩

theorem leaves_assign_bind {f : σ → σ} {rest : Unit → Block Op Res Exc σ β} {outcome : Except Exc β} :
    (assign f >>= rest).Leaves l calls outcome l' ↔ (rest ()).Leaves (f l) calls outcome l' := Iff.rfl

theorem leaves_locals_bind {rest : σ → Block Op Res Exc σ β} {outcome : Except Exc β} :
    (locals >>= rest).Leaves l calls outcome l' ↔ (rest l).Leaves l calls outcome l' := Iff.rfl

theorem leaves_tryExcept {catches : Exc → Bool} {body : Block Op Res Exc σ α} {handler : Exc → Block Op Res Exc σ α}
    {outcome : Except Exc α} :
    (tryExcept catches body handler).Leaves l calls outcome l' ↔
      (body.Leaves l calls outcome l' ∧ ∀ exc, outcome = .error exc → catches exc = false) ∨
        ∃ exc middle left right, catches exc = true ∧ calls = left ++ right ∧
          body.Leaves l left (.error exc) middle ∧ (handler exc).Leaves middle right outcome l' := by
  unfold Leaves tryExcept
  rw [Program.traces_bind]
  constructor
  · rintro (⟨exc, -, herror⟩ | ⟨⟨exc | value, middle⟩, left, right, rfl, hbody, hrest⟩)
    · cases herror
    · cases hcatches : catches exc with
      | true =>
          simp only [handle, hcatches, if_true] at hrest
          exact .inr ⟨exc, middle, left, right, hcatches, rfl, hbody, hrest⟩
      | false =>
          simp only [handle, hcatches, Bool.false_eq_true, if_false] at hrest
          obtain ⟨rfl, h⟩ := hrest
          cases h
          refine .inl ⟨by rwa [List.append_nil], ?_⟩
          intro exc' h
          cases h
          exact hcatches
    · obtain ⟨rfl, h⟩ := hrest
      cases h
      refine .inl ⟨by rwa [List.append_nil], ?_⟩
      intro exc h
      cases h
  · rintro (⟨hbody, hother⟩ | ⟨exc, middle, left, right, hcatches, rfl, hbody, hrest⟩)
    · refine .inr ⟨(outcome, l'), calls, [], (List.append_nil calls).symm, hbody, ?_⟩
      cases outcome with
      | ok value => exact ⟨rfl, rfl⟩
      | error exc =>
          simp only [handle, hother exc rfl, Bool.false_eq_true, if_false]
          exact ⟨rfl, rfl⟩
    · refine .inr ⟨(.error exc, middle), left, right, rfl, hbody, ?_⟩
      simp only [handle, hcatches, if_true]
      exact hrest

/-- What a block is proved to meet holds of every run. -/
theorem Meets.leaves {Φ : Type} {protocol : Protocol Op Res Exc Φ} {post : Φ → Except Exc α → σ → Prop} {φ : Φ}
    {body : Block Op Res Exc σ α} (h : Meets protocol post φ l body) {outcome : Except Exc α}
    (hleaves : body.Leaves l calls outcome l') :
    protocol.Keeps φ calls ∧ post (protocol.phase φ calls) outcome l' := Program.Follows.traces h hleaves

/-- A block with a `finally` part, run as a program: the calls of the body, and then those of the `finally` part. -/
theorem traces_tryFinally {body : Block Op Res Exc σ α} {final : Block Op Res Exc σ Unit} (hbody : body.Quiet)
    (hfinal : final.Quiet) {outcome : Except Exc α} (h : ((tryFinally body final).toProgram l).Traces calls outcome) :
    ∃ left right out middle out' last, calls = left ++ right ∧ body.Leaves l left out middle ∧
      final.Leaves middle right out' last ∧
        outcome = (match out' with
          | .ok _ => out
          | .error exc => .error exc) := by
  unfold toProgram tryFinally at h
  rw [Program.bind_assoc] at h
  rcases Program.traces_bind.mp h with ⟨exc, hleft, -⟩ | ⟨⟨out, middle⟩, left, right, rfl, hleft, hright⟩
  · exact absurd hleft (hbody l).traces
  · rw [Program.bind_assoc] at hright
    rcases Program.traces_bind.mp hright with ⟨exc, hlast, -⟩ | ⟨⟨out', last⟩, left', right', rfl, hlast, hend⟩
    · exact absurd hlast (hfinal middle).traces
    · cases out' with
      | ok value =>
          have hlift : (Program.lift out : Program Op Res Exc α).Traces right' outcome := hend
          obtain ⟨rfl, houtcome⟩ := Program.traces_lift.mp hlift
          exact ⟨left, left', out, middle, .ok value, last, by rw [List.append_nil], hleft, hlast, houtcome⟩
      | error exc =>
          have hlift : (Program.lift (.error exc) : Program Op Res Exc α).Traces right' outcome := hend
          obtain ⟨rfl, houtcome⟩ := Program.traces_lift.mp hlift
          exact ⟨left, left', out, middle, .error exc, last, by rw [List.append_nil], hleft, hlast, houtcome⟩

end Block

end Effect
