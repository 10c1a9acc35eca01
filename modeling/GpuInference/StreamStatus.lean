import GpuInference.PartialUsage

/-!
The status of a streamed response. It is `completed` until the poll shows that the client is gone or the handler has
caught an `Exception`; so a stream that is left with another exception, as when it is closed at a `yield` or the request
is cancelled, is written as completed.
-/

open Effect

namespace GpuInference

/-- How the upstream ends. A builtin `TimeoutError` is taken by `stream_with_heartbeats` for a wait that was too long, again
and again, until the request is stopped. `cancelled` is a request that is stopped while it waits for the upstream. -/
inductive UpstreamEnd where
  | exhausted
  | raised (exc : PyExc)
  | timeoutError (more : Nat) (stopped : PyExc)
  | cancelled (exc : PyExc)

/-- What the upstream does: the lines and the waits, and then its end. -/
structure UpstreamRun where
  items : List StreamItem
  ended : UpstreamEnd

namespace UpstreamEnd

/-- The exception that leaves the event stream. -/
def failure : UpstreamEnd → Option PyExc
  | exhausted => none
  | raised exc => some exc
  | timeoutError _ stopped => some stopped
  | cancelled exc => some exc

/-- The waits that the upstream did not make. -/
def waits : UpstreamEnd → List StreamItem
  | timeoutError more _ => List.replicate (more + 1) .timeout
  | _ => []

theorem failure_eq_none {ended : UpstreamEnd} : ended.failure = none ↔ ended = exhausted := by
  cases ended <;> simp [failure]

end UpstreamEnd

namespace UpstreamRun

/-- What `stream_with_heartbeats` sees. -/
def stream (self : UpstreamRun) : UpstreamStream := ⟨self.items ++ self.ended.waits, self.ended.failure⟩

/-- The events that the upstream has sent before it raised. -/
def sent (self : UpstreamRun) : List String := UpstreamStream.events ⟨self.items, self.ended.failure⟩

end UpstreamRun

/-- A `TimeoutError` is one heartbeat after the other. -/
theorem events_timeoutError (items : List StreamItem) (more : Nat) (stopped : PyExc) :
    (UpstreamRun.mk items (.timeoutError more stopped)).stream.events =
      (UpstreamRun.mk items (.timeoutError more stopped)).sent ++ List.replicate (more + 1) formatHeartbeat := by
  have hheartbeat : eventOf (strip formatHeartbeat) = formatHeartbeat := by decide
  have hstays : strip formatHeartbeat ≠ "" := by decide
  unfold UpstreamRun.stream UpstreamRun.sent UpstreamStream.events ensureDoneEvent streamWithHeartbeats
  simp [UpstreamEnd.waits, UpstreamEnd.failure, hheartbeat, hstays]

/-- The event that a call has handed to the client. -/
def handedEvent : Event ChatOp ChatOp.Res PyExc → Option String
  | ⟨.yieldEvent event, .ok _⟩ => some event
  | _ => none

/-- The events that have been handed to the client. -/
def handed (calls : ChatCalls) : List String := calls.filterMap handedEvent

/-- The events that the loop has taken: each is polled for. -/
def taken (calls : ChatCalls) : Nat :=
  calls.countP fun event =>
    match event.op with
    | .isDisconnected => true
    | _ => false

/-- A status that is written to the usage record or to the audit record. -/
def StatusWritten (calls : ChatCalls) (status : UsageStatus) : Prop :=
  (∃ event ∈ calls, ∃ usage, event.op = .recordUsage usage ∧ usage.status = status) ∨
    ∃ event ∈ calls, ∃ final, event.op = .finalizeAudit final ∧ final.status = status

theorem StatusWritten.mono {calls more : ChatCalls} {status : UsageStatus}
    (hmore : ∀ event : Event ChatOp ChatOp.Res PyExc, event.op.Settles → event ∈ calls → event ∈ more)
    (h : StatusWritten calls status) : StatusWritten more status := by
  rcases h with ⟨event, hevent, usage, hop, hstatus⟩ | ⟨event, hevent, final, hop, hstatus⟩
  · refine .inl ⟨event, hmore event ?_ hevent, usage, hop, hstatus⟩
    rw [hop]
    exact trivial
  · refine .inr ⟨event, hmore event ?_ hevent, final, hop, hstatus⟩
    rw [hop]
    exact trivial

/-- The upstream has raised a `TimeoutError`, and the loop has taken a heartbeat for it. -/
def TimeoutTaken (run : UpstreamRun) (calls : ChatCalls) : Prop :=
  (∃ more stopped, run.ended = .timeoutError more stopped) ∧ run.sent.length < taken calls

/-- The upstream has raised before the response was stopped. -/
def UpstreamRaised (run : UpstreamRun) (calls : ChatCalls) : Prop :=
  ((∃ exc, run.ended = .raised exc) ∧ handed calls = run.stream.events) ∨ TimeoutTaken run calls

/-- The response has been stopped by the client: the poll shows it, the generator is closed at a `yield`, or the request is
cancelled while it polls or waits for the upstream. -/
def ClientStopped (run : UpstreamRun) (calls : ChatCalls) : Prop :=
  ⟨.isDisconnected, .ok true⟩ ∈ calls ∨
    (∃ exc : PyExc, exc.isException = false ∧
      (⟨.isDisconnected, .error exc⟩ ∈ calls ∨ ∃ event, ⟨.yieldEvent event, .error exc⟩ ∈ calls)) ∨
    ((∃ exc, run.ended = .cancelled exc) ∧ handed calls = run.stream.events)

/-- The status is true of the run. -/
structure StatusTrue (run : UpstreamRun) (calls : ChatCalls) (status : UsageStatus) : Prop where
  completed : status = .completed → run.ended = .exhausted ∧ handed calls = run.stream.events
  failed : UpstreamRaised run calls → status = .failed
  disconnected : ¬ UpstreamRaised run calls → ClientStopped run calls → status = .clientDisconnected

/-- The exception has left the loop: the poll, the measurement, a `yield` or the upstream has raised it. -/
def LeftWith (run : UpstreamRun) (calls : ChatCalls) (exc : PyExc) : Prop :=
  ⟨.isDisconnected, .error exc⟩ ∈ calls ∨ ⟨.recordStreamTtft, .error exc⟩ ∈ calls ∨
    (∃ event, ⟨.yieldEvent event, .error exc⟩ ∈ calls) ∨
    (run.ended.failure = some exc ∧ handed calls = run.stream.events)

/-- The loop has been left with an exception that is no `Exception`, or by a cancellation, or at a poll after a
`TimeoutError` of the upstream. -/
def StatusMissed (run : UpstreamRun) (calls : ChatCalls) : Prop :=
  (∃ exc : PyExc, exc.isException = false ∧ LeftWith run calls exc) ∨
    ((∃ exc, run.ended = .cancelled exc) ∧ handed calls = run.stream.events) ∨
    (⟨.isDisconnected, .ok true⟩ ∈ calls ∧ TimeoutTaken run calls)

namespace StreamExit

/-- The call at which the loop is left. -/
def last : StreamExit → Option (Event ChatOp ChatOp.Res PyExc)
  | exhausted => none
  | upstream _ => none
  | polled => some ⟨.isDisconnected, .ok true⟩
  | poll exc => some ⟨.isDisconnected, .error exc⟩
  | unreadable _ => none
  | ttft exc => some ⟨.recordStreamTtft, .error exc⟩
  | yielded event exc => some ⟨.yieldEvent event, .error exc⟩

/-- The loop has gone through all the events. -/
def atEnd : StreamExit → Bool
  | exhausted => true
  | upstream _ => true
  | _ => false

/-- The exception that leaves the loop, if any. -/
def raised (exit : StreamExit) : Option PyExc :=
  match exit.outcome with
  | .ok _ => none
  | .error exc => some exc

/-- The status that is written. -/
def status : StreamExit → UsageStatus
  | polled => .clientDisconnected
  | exit =>
      match exit.raised with
      | none => .completed
      | some exc => if exc.isException then .failed else .completed

theorem status_of_raised {exit : StreamExit} {exc : PyExc} (h : exit.raised = some exc) :
    exit.status = if exc.isException then .failed else .completed := by
  cases exit with
  | exhausted => cases h
  | polled => cases h
  | _ =>
      cases h
      rfl

/-- A call that raises leaves the loop with its exception. -/
theorem raised_of_last {exit : StreamExit} {op : ChatOp} {exc : PyExc} (h : exit.last = some ⟨op, .error exc⟩) :
    exit.raised = some exc := by
  cases exit with
  | exhausted => cases h
  | upstream exc' => cases h
  | polled => cases h
  | unreadable exc' => cases h
  | _ =>
      cases h
      rfl

end StreamExit

/-- A call after which the loop goes on. -/
def GoesOn : Event ChatOp ChatOp.Res PyExc → Prop
  | ⟨.isDisconnected, answer⟩ => answer = .ok false
  | ⟨.recordStreamTtft, answer⟩ => answer = .ok ()
  | ⟨.yieldEvent _, answer⟩ => answer = .ok ()
  | _ => False

section Loop

variable {app : ChatApp} {failure : Option PyExc} {events : List String} {l l' : StreamLocals} {calls : ChatCalls}
  {exit : StreamExit}

theorem goesOn_ttftCalls {l : StreamLocals} {event : String} : ∀ call ∈ ttftCalls l event, GoesOn call := by
  intro call hcall
  unfold ttftCalls at hcall
  split at hcall
  · obtain rfl := List.mem_singleton.mp hcall
    exact rfl
  · cases hcall

theorem mem_polled_iff {event : Event ChatOp ChatOp.Res PyExc} (hstops : ¬ GoesOn event) {l : StreamLocals}
    {text : String} {calls : ChatCalls} :
    event ∈ (⟨.isDisconnected, .ok false⟩ :: (ttftCalls l text ++ calls) : ChatCalls) ↔ event ∈ calls := by
  rw [List.mem_cons, List.mem_append]
  constructor
  · rintro (rfl | hmeasured | hevent)
    · exact absurd rfl hstops
    · exact absurd (goesOn_ttftCalls event hmeasured) hstops
    · exact hevent
  · exact fun hevent => .inr (.inr hevent)

/-- The loop goes on after each of its calls but the last one. -/
theorem LoopRun.mem_iff (h : LoopRun app failure events l calls exit l') {event : Event ChatOp ChatOp.Res PyExc}
    (hstops : ¬ GoesOn event) : event ∈ calls ↔ exit.last = some event := by
  have hone : ∀ last : Event ChatOp ChatOp.Res PyExc, event ∈ [last] ↔ some last = some event := by
    intro last
    rw [List.mem_singleton, Option.some_inj, eq_comm]
  have hnone : ¬ none = some event := (Option.some_ne_none event).symm
  induction h with
  | exhausted hfailure => exact iff_of_false List.not_mem_nil hnone
  | upstream hfailure => exact iff_of_false List.not_mem_nil hnone
  | polled => exact hone _
  | poll => exact hone _
  | @unreadable text events l exc htext =>
      refine iff_of_false ?_ hnone
      intro hevent
      obtain rfl := List.mem_singleton.mp hevent
      exact hstops rfl
  | @ttft text events l read exc htext hmeasures =>
      rw [List.mem_cons, hone]
      apply or_iff_right
      rintro rfl
      exact hstops rfl
  | yielded htext =>
      rw [mem_polled_iff hstops]
      exact hone _
  | next htext hrest ih =>
      rw [mem_polled_iff hstops, List.mem_cons]
      apply (or_iff_right _).trans ih
      rintro rfl
      exact hstops rfl

@[simp] theorem handed_append (left right : ChatCalls) : handed (left ++ right) = handed left ++ handed right :=
  List.filterMap_append

theorem handed_ttftCalls {l : StreamLocals} {event : String} : handed (ttftCalls l event) = [] := by
  unfold ttftCalls
  split
  · rfl
  · rfl

/-- Calls that do not belong to the loop hand nothing to the client. -/
theorem handed_eq_nil (h : ∀ event ∈ calls, ¬ event.op.Loops) : handed calls = [] := by
  apply List.filterMap_eq_nil_iff.mpr
  rintro ⟨op, answer⟩ hevent
  cases op
  case yieldEvent event => exact absurd trivial (h _ hevent)
  all_goals rfl

/-- All the events are handed over exactly when the loop goes through all of them. -/
theorem LoopRun.handed_iff (h : LoopRun app failure events l calls exit l') :
    handed calls = events ↔ exit.atEnd = true := by
  have hfew : ∀ {events : List String} {calls : ChatCalls}, (handed calls).length < events.length →
      (handed calls = events ↔ false = true) := by
    intro events calls hless
    apply iff_of_false _ Bool.false_ne_true
    intro heq
    rw [heq] at hless
    exact Nat.lt_irrefl _ hless
  induction h with
  | exhausted hfailure => exact iff_of_true rfl rfl
  | upstream hfailure => exact iff_of_true rfl rfl
  | polled => exact hfew (Nat.succ_pos _)
  | poll => exact hfew (Nat.succ_pos _)
  | unreadable htext => exact hfew (Nat.succ_pos _)
  | ttft htext hmeasures => exact hfew (Nat.succ_pos _)
  | @yielded event events l text exc htext =>
      apply hfew
      have hnone : handed (⟨.isDisconnected, .ok false⟩ :: (ttftCalls l event ++ [⟨.yieldEvent event, .error exc⟩])) =
          [] := by
        show handed (ttftCalls l event ++ [⟨.yieldEvent event, .error exc⟩]) = []
        rw [handed_append, handed_ttftCalls]
        rfl
      rw [hnone]
      exact Nat.succ_pos _
  | @next event events l l' text calls exit htext hrest ih =>
      have hcons : handed (⟨.isDisconnected, .ok false⟩ :: (ttftCalls l event ++ ⟨.yieldEvent event, .ok ()⟩ :: calls)) =
          event :: handed calls := by
        show handed (ttftCalls l event ++ ⟨.yieldEvent event, .ok ()⟩ :: calls) = event :: handed calls
        rw [handed_append, handed_ttftCalls]
        rfl
      rw [hcons, List.cons_inj_right]
      exact ih

/-- The status that the loop and the handler leave. -/
theorem LoopRun.status (h : LoopRun app failure events l calls exit l') (hstart : l.status = .completed) :
    (l'.after exit).status = exit.status := by
  have hraised : ∀ {l : StreamLocals} {exit : StreamExit} (exc : PyExc), exit.outcome = .error exc →
      l.status = .completed →
      (l.after exit).status = if exc.isException then .failed else .completed := by
    intro l exit exc hexc hcompleted
    unfold StreamLocals.after
    rw [hexc]
    dsimp only
    split
    · rfl
    · exact hcompleted
  induction h with
  | exhausted hfailure => exact hstart
  | @upstream l exc hfailure => exact hraised exc rfl hstart
  | polled => rfl
  | @poll event events l exc => exact hraised exc rfl hstart
  | @unreadable event events l exc htext => exact hraised exc rfl hstart
  | @ttft event events l text exc htext hmeasures => exact hraised exc rfl hstart
  | @yielded event events l text exc htext => exact hraised exc rfl hstart
  | next htext hrest ih => exact ih hstart

/-- The failure of the stream is the exception that ends it. -/
theorem LoopRun.failure_eq (h : LoopRun app failure events l calls exit l') (hend : exit.atEnd = true) :
    failure = exit.raised := by
  induction h with
  | exhausted hfailure => exact hfailure
  | upstream hfailure => exact hfailure
  | next htext hrest ih => exact ih hend
  | _ => cases hend

/-- An event that cannot be read. -/
theorem LoopRun.unreadable_raises (h : LoopRun app failure events l calls exit l') {exc : PyExc}
    (hexit : exit = .unreadable exc) : ∃ event, streamDeltaText app.loads event = .error exc := by
  induction h with
  | unreadable htext =>
      cases hexit
      exact ⟨_, htext⟩
  | next htext hrest ih => exact ih hexit
  | _ => cases hexit

end Loop

/-- `stream_delta_text` raises no more than `json.loads` does. -/
theorem streamDeltaText_raises {loads : JsonLoads}
    (hloads : ∀ text exc, loads text = .error exc → exc.isException = true) {event : String} {exc : PyExc}
    (h : streamDeltaText loads event = .error exc) : exc.isException = true := by
  unfold streamDeltaText at h
  split at h
  · dsimp only at h
    split at h
    · cases h
    · rcases bind_eq_error.mp h with hraises | ⟨parsed, -, hraises⟩
      · exact hloads _ _ hraises
      · split at hraises
        · cases hraises
        · split at hraises <;> cases hraises
        · cases hraises
          rfl
  · cases h

section Final

variable {app : ChatApp} {call : ChatCall} {l : StreamLocals} {final : ChatCalls}

/-- It writes the status of the locals. -/
theorem status_of_final (h : (finallyProtocol app call l).Keeps .closing final) {status : UsageStatus}
    (hwritten : StatusWritten final status) : status = l.status := by
  rcases hwritten with ⟨⟨op, answer⟩, hevent, usage, rfl, rfl⟩ | ⟨⟨op, answer⟩, hevent, audit, rfl, rfl⟩
  · obtain ⟨φ, -, husage⟩ := h.event hevent
    exact usageFromStreamText_status husage
  · obtain ⟨φ, -, usage, latencyMs, husage, rfl⟩ := h.event hevent
    exact usageFromStreamText_status husage

/-- The usage is written next once the tokens have been finalized. -/
theorem records_of_finalized {op : ChatOp} (hmay : (finallyProtocol app call l).may .finalized op) :
    ∃ usage, op = .recordUsage usage := by
  cases op
  case recordUsage usage => exact ⟨usage, rfl⟩
  case closeStream => cases hmay
  case finalizeTokens lease actualTokens releaseAll => cases hmay.1
  case elapsedMs => cases hmay
  case finalizeAudit audit => cases hmay.1
  case collect event => cases hmay
  case releaseLease lease => cases hmay.1
  case recordStreamFinished => cases hmay
  all_goals exact hmay.elim

/-- So it has been written when the block is left. -/
theorem usage_of_final (h : (finallyProtocol app call l).Keeps .closing final)
    (hdone : FinallyDone app call l ((finallyProtocol app call l).phase .closing final))
    (hfinalized : TokensFinalized final) : ∃ event ∈ final, ∃ usage, event.op = .recordUsage usage := by
  let tells (φ : FinallyPhase) (calls : ChatCalls) : Prop :=
    φ ≠ .finalized → TokensFinalized calls → ∃ event ∈ calls, ∃ usage, event.op = .recordUsage usage
  have hstart : tells .closing [] := by
    rintro - ⟨lease, actualTokens, releaseAll, hevent⟩
    cases hevent
  have hcall : ∀ φ calls event, tells φ calls → (finallyProtocol app call l).may φ event.op →
      tells ((finallyProtocol app call l).after φ event.op event.answer) (calls ++ [event]) := by
    intro φ calls event htells hmay hphase hfinalizes
    obtain ⟨lease, actualTokens, releaseAll, hevent⟩ := hfinalizes
    by_cases hφ : φ = .finalized
    · rw [hφ] at hmay
      exact ⟨event, List.mem_append_right _ (List.mem_singleton_self _), records_of_finalized hmay⟩
    · have hbefore : ⟨.finalizeTokens lease actualTokens releaseAll, .ok ()⟩ ∈ calls := by
        rcases List.mem_append.mp hevent with hbefore | hlast
        · exact hbefore
        · rw [← List.mem_singleton.mp hlast] at hphase
          exact absurd rfl hphase
      obtain ⟨other, hother, hrecords⟩ := htells hφ ⟨lease, actualTokens, releaseAll, hbefore⟩
      exact ⟨other, List.mem_append_left _ hother, hrecords⟩
  apply h.tells hstart hcall _ hfinalized
  rcases hdone with hfailed | ⟨hfinished, -⟩ | ⟨hclosing, -⟩
  · rw [hfailed]
    decide
  · rw [hfinished]
    decide
  · rw [hclosing]
    decide

/-- What is written is written after that. -/
theorem finalized_of_written (h : (finallyProtocol app call l).Keeps .closing final) {status : UsageStatus}
    (hwritten : StatusWritten final status) : TokensFinalized final := by
  have hphase : ∃ event ∈ final, ∀ φ, (finallyProtocol app call l).may φ event.op → φ ≠ .closing ∧ φ ≠ .failed := by
    rcases hwritten with ⟨⟨op, answer⟩, hevent, usage, rfl, -⟩ | ⟨⟨op, answer⟩, hevent, audit, rfl, -⟩
    · refine ⟨_, hevent, ?_⟩
      rintro φ ⟨rfl, -⟩
      decide
    · refine ⟨_, hevent, ?_⟩
      rintro φ ⟨rfl, -⟩
      decide
  obtain ⟨event, hevent, hmay⟩ := hphase
  obtain ⟨left, right, rfl⟩ := List.append_of_mem hevent
  obtain ⟨hclosing, hfailed⟩ := hmay _ (h left event right rfl)
  rcases finalized_of_phase h.take with heq | heq | ⟨lease, actualTokens, releaseAll, hfinalizes⟩
  · exact absurd heq hclosing
  · exact absurd heq hfailed
  · exact ⟨lease, actualTokens, releaseAll, List.mem_append_left _ hfinalizes⟩

end Final

/-! ### The status is true -/

/-- The calls of a run whose loop is left in this way. -/
structure LeavesBy (run : UpstreamRun) (calls : ChatCalls) (exit : StreamExit) : Prop where
  stops : ∀ event, event.op.Loops → ¬ GoesOn event → (event ∈ calls ↔ exit.last = some event)
  handed : handed calls = run.stream.events ↔ exit.atEnd = true
  failure : exit.atEnd = true → run.ended.failure = exit.raised
  readable : ∀ exc, exit = .unreadable exc → exc.isException = true

namespace LeavesBy

variable {run : UpstreamRun} {calls : ChatCalls} {exit : StreamExit}

theorem polled_iff (h : LeavesBy run calls exit) : ⟨.isDisconnected, .ok true⟩ ∈ calls ↔ exit = .polled := by
  rw [h.stops ⟨.isDisconnected, .ok true⟩ trivial (by intro hgoes; cases hgoes)]
  cases exit <;> simp [StreamExit.last]

/-- A call of the loop that raises is the last one. -/
theorem error_iff (h : LeavesBy run calls exit) (op : ChatOp) (hloops : op.Loops) (exc : PyExc) :
    ⟨op, .error exc⟩ ∈ calls ↔ exit.last = some ⟨op, .error exc⟩ := by
  apply h.stops _ hloops
  cases op
  case isDisconnected => intro hgoes; cases hgoes
  case yieldEvent event => intro hgoes; cases hgoes
  case recordStreamTtft => intro hgoes; cases hgoes
  all_goals exact id

/-- An exception that is no `Exception` leaves the loop at one of these calls. -/
theorem leftWith_iff (h : LeavesBy run calls exit) {exc : PyExc} (hexc : exc.isException = false) :
    LeftWith run calls exc ↔ exit.raised = some exc := by
  constructor
  · rintro (hpoll | httft | ⟨event, hyield⟩ | ⟨hfailure, hhanded⟩)
    · exact StreamExit.raised_of_last ((h.error_iff .isDisconnected trivial exc).mp hpoll)
    · exact StreamExit.raised_of_last ((h.error_iff .recordStreamTtft trivial exc).mp httft)
    · exact StreamExit.raised_of_last ((h.error_iff (.yieldEvent event) trivial exc).mp hyield)
    · exact (h.failure (h.handed.mp hhanded)).symm.trans hfailure
  · intro hraised
    cases exit with
    | exhausted => cases hraised
    | polled => cases hraised
    | upstream exc' => exact .inr (.inr (.inr ⟨(h.failure rfl).trans hraised, h.handed.mpr rfl⟩))
    | poll exc' =>
        cases hraised
        exact .inl ((h.error_iff .isDisconnected trivial exc).mpr rfl)
    | unreadable exc' =>
        cases hraised
        rw [h.readable exc rfl] at hexc
        cases hexc
    | ttft exc' =>
        cases hraised
        exact .inr (.inl ((h.error_iff .recordStreamTtft trivial exc).mpr rfl))
    | yielded event exc' =>
        cases hraised
        exact .inr (.inr (.inl ⟨event, (h.error_iff (.yieldEvent event) trivial exc).mpr rfl⟩))

/-- The loop is left at the end, at a poll, or with an exception. -/
theorem cases_exit (exit : StreamExit) : exit = .exhausted ∨ exit = .polled ∨ ∃ exc, exit.raised = some exc := by
  cases exit with
  | exhausted => exact .inl rfl
  | polled => exact .inr (.inl rfl)
  | upstream exc => exact .inr (.inr ⟨exc, rfl⟩)
  | poll exc => exact .inr (.inr ⟨exc, rfl⟩)
  | unreadable exc => exact .inr (.inr ⟨exc, rfl⟩)
  | ttft exc => exact .inr (.inr ⟨exc, rfl⟩)
  | yielded event exc => exact .inr (.inr ⟨exc, rfl⟩)

/-- The status that is written is true exactly when the loop is not left in one of the ways that miss it. -/
theorem statusTrue_iff (h : LeavesBy run calls exit) : StatusTrue run calls exit.status ↔ ¬ StatusMissed run calls := by
  constructor
  · intro htrue hmissed
    rcases hmissed with ⟨exc, hexc, hleft⟩ | ⟨⟨exc, hcancelled⟩, hhanded⟩ | ⟨hpolled, htimeout⟩
    · have hraised := (h.leftWith_iff hexc).mp hleft
      have hcompleted : exit.status = .completed := by
        rw [StreamExit.status_of_raised hraised, hexc]
        rfl
      obtain ⟨hended, hhanded⟩ := htrue.completed hcompleted
      have hfailure := h.failure (h.handed.mp hhanded)
      rw [hended, hraised] at hfailure
      cases hfailure
    · have hend := h.handed.mp hhanded
      have hfailure := h.failure hend
      rw [hcancelled] at hfailure
      have hnot : ¬ UpstreamRaised run calls := by
        rintro (⟨⟨exc', hraises⟩, -⟩ | ⟨⟨more, stopped, hraises⟩, -⟩)
        · cases hraises.symm.trans hcancelled
        · cases hraises.symm.trans hcancelled
      have hstatus := htrue.disconnected hnot (.inr (.inr ⟨⟨exc, hcancelled⟩, hhanded⟩))
      rw [StreamExit.status_of_raised hfailure.symm] at hstatus
      split at hstatus <;> cases hstatus
    · have hstatus := htrue.failed (.inr htimeout)
      rw [h.polled_iff.mp hpolled] at hstatus
      cases hstatus
  · intro hkept
    -- an exception that leaves the loop is an `Exception`
    have hexception : ∀ {exc}, exit.raised = some exc → exc.isException = true := by
      intro exc hraised
      by_contra hexc
      rw [Bool.not_eq_true] at hexc
      exact hkept (.inl ⟨exc, hexc, (h.leftWith_iff hexc).mpr hraised⟩)
    have hfailed : ∀ {exc}, exit.raised = some exc → exit.status = .failed := by
      intro exc hraised
      rw [StreamExit.status_of_raised hraised, hexception hraised]
      rfl
    constructor
    · intro hcompleted
      rcases cases_exit exit with rfl | rfl | ⟨exc, hraised⟩
      · exact ⟨UpstreamEnd.failure_eq_none.mp (h.failure rfl), h.handed.mpr rfl⟩
      · cases hcompleted
      · rw [hfailed hraised] at hcompleted
        cases hcompleted
    · intro hraised
      rcases cases_exit exit with rfl | rfl | ⟨exc, hexit⟩
      · have hended := UpstreamEnd.failure_eq_none.mp (h.failure rfl)
        rcases hraised with ⟨⟨exc, hraises⟩, -⟩ | ⟨⟨more, stopped, hraises⟩, -⟩
        · cases hraises.symm.trans hended
        · cases hraises.symm.trans hended
      · rcases hraised with ⟨-, hhanded⟩ | htimeout
        · cases h.handed.mp hhanded
        · exact absurd (.inr (.inr ⟨h.polled_iff.mpr rfl, htimeout⟩)) hkept
      · exact hfailed hexit
    · intro hnot hstopped
      rcases hstopped with hpolled | ⟨exc, hexc, hleft⟩ | hcancelled
      · rw [h.polled_iff.mp hpolled]
        rfl
      · have hwith : LeftWith run calls exc := by
          rcases hleft with hpoll | hyield
          · exact .inl hpoll
          · exact .inr (.inr (.inl hyield))
        exact absurd (.inl ⟨exc, hexc, hwith⟩) hkept
      · exact absurd (.inr (.inl hcancelled)) hkept

end LeavesBy

/-- Only the loop hands events to the client. -/
theorem handed_askedCalls {app : ChatApp} {call : ChatCall} {l : StreamLocals} {upstream : UpstreamStream}
    {loop final : ChatCalls} (h : (finallyProtocol app call l).Keeps .closing final) :
    handed (askedCalls call upstream loop final) = handed loop := by
  have hnone : handed final = [] := handed_eq_nil fun event hevent hop => hop.not_settles (settles_of_final h event hevent)
  calc handed (askedCalls call upstream loop final)
      = handed (loop ++ final) := rfl
    _ = handed loop := by rw [handed_append, hnone, List.append_nil]

/-- The calls of a streamed response whose upstream has been asked: the loop is left in one way, a status is written when
the tokens have been finalized, and it is that of the way. -/
theorem leavesBy_of_traces {app : ChatApp} {call : ChatCall}
    (hloads : ∀ text exc, app.loads text = .error exc → exc.isException = true) {calls : ChatCalls}
    {outcome : Except PyExc Unit} (htraces : (app.streamResponse call).Traces calls outcome) {run : UpstreamRun}
    (hasked : ⟨.streamChatCompletion (streamPayload call.payload), .ok run.stream⟩ ∈ calls) :
    ∃ exit, LeavesBy run calls exit ∧
      (∀ status, StatusWritten calls status → TokensFinalized calls ∧ status = exit.status) ∧
      (TokensFinalized calls → StatusWritten calls exit.status) := by
  obtain ⟨loop, final, exit, l, rfl, hloop, hkeeps, hdone⟩ :=
    (streamCalls_of_traces app call htraces).asked hasked
  have hfinal := settles_of_final hkeeps
  have hstatus : (l.after exit).status = exit.status := hloop.status rfl
  have hwritten : ∀ status, StatusWritten (askedCalls call run.stream loop final) status ↔ StatusWritten final status := by
    intro status
    constructor
    · exact StatusWritten.mono fun event hop => (mem_askedCalls_settles hloop.loops hop).mp
    · exact StatusWritten.mono fun event hop => (mem_askedCalls_settles hloop.loops hop).mpr
  have hfinalized : TokensFinalized (askedCalls call run.stream loop final) ↔ TokensFinalized final := by
    constructor
    · exact TokensFinalized.mono fun event hop => (mem_askedCalls_settles hloop.loops hop).mp
    · exact TokensFinalized.mono fun event hop => (mem_askedCalls_settles hloop.loops hop).mpr
  refine ⟨exit, ?_, ?_, ?_⟩
  · constructor
    · intro event hop hstops
      rw [mem_askedCalls_loops hfinal hop]
      exact hloop.mem_iff hstops
    · rw [handed_askedCalls hkeeps]
      exact hloop.handed_iff
    · exact hloop.failure_eq
    · intro exc hexit
      obtain ⟨event, hraises⟩ := hloop.unreadable_raises hexit
      exact streamDeltaText_raises hloads hraises
  · intro status hstatuses
    rw [hwritten] at hstatuses
    rw [hfinalized]
    exact ⟨finalized_of_written hkeeps hstatuses, (status_of_final hkeeps hstatuses).trans hstatus⟩
  · intro htokens
    rw [hwritten]
    obtain ⟨event, hevent, usage, hop⟩ := usage_of_final hkeeps hdone (hfinalized.mp htokens)
    have hrecorded : StatusWritten final usage.status := .inl ⟨event, hevent, usage, hop, rfl⟩
    have hlocals : usage.status = exit.status := (status_of_final hkeeps hrecorded).trans hstatus
    exact hlocals ▸ hrecorded

/-- **The status of a stream is true** exactly when, where one is written, the loop has been left in none of the ways that
miss it. -/
theorem stream_status_iff (app : ChatApp)
    (hloads : ∀ text exc, app.loads text = .error exc → exc.isException = true) (call : ChatCall) {calls : ChatCalls}
    {outcome : Except PyExc Unit} (htraces : (app.streamResponse call).Traces calls outcome) (run : UpstreamRun)
    (hasked : ⟨.streamChatCompletion (streamPayload call.payload), .ok run.stream⟩ ∈ calls) :
    (∀ status, StatusWritten calls status → StatusTrue run calls status) ↔
      (TokensFinalized calls → ¬ StatusMissed run calls) := by
  obtain ⟨exit, hleaves, honly, hwritten⟩ := leavesBy_of_traces hloads htraces hasked
  constructor
  · intro htrue hfinalized
    exact hleaves.statusTrue_iff.mp (htrue _ (hwritten hfinalized))
  · intro hkept status hstatus
    obtain ⟨hfinalized, rfl⟩ := honly status hstatus
    exact hleaves.statusTrue_iff.mpr (hkept hfinalized)

def chunkRun : UpstreamRun := ⟨[.line chunkLine, .line chunkLine], .exhausted⟩

theorem asked_chunkStream (sent audited : Except PyExc Unit) :
    ⟨.streamChatCompletion (streamPayload plainCall.payload), .ok chunkRun.stream⟩ ∈ chunkStream sent audited :=
  .tail _ (.head _)

/-- The client takes all of them, and the stream is written as completed. -/
theorem stream_status_taken :
    StatusWritten (chunkStream (.ok ()) (.ok ())) .completed ∧
      ∀ status, StatusWritten (chunkStream (.ok ()) (.ok ())) status →
        StatusTrue chunkRun (chunkStream (.ok ()) (.ok ())) status := by
  obtain ⟨outcome, htraces⟩ := traces_chunkStream (.ok ()) (.ok ())
  constructor
  · have hevent : ⟨.recordUsage ⟨8, 1, 9, .completed⟩, .ok ()⟩ ∈ chunkStream (.ok ()) (.ok ()) :=
      List.mem_of_getElem? (show (chunkStream (.ok ()) (.ok ()))[13]? =
        some ⟨.recordUsage ⟨8, 1, 9, .completed⟩, .ok ()⟩ from rfl)
    exact .inl ⟨_, hevent, _, rfl, rfl⟩
  · apply (stream_status_iff chunkApp (fun _ _ h => by cases h) plainCall htraces chunkRun (asked_chunkStream _ _)).mpr
    rintro - (⟨exc, -, hpoll | httft | ⟨event, hyield⟩ | ⟨hfailure, -⟩⟩ | ⟨⟨exc, hended⟩, -⟩ | ⟨hpoll, -⟩)
    · cases Program.eq_of_mem_trace hpoll
    · cases Program.eq_of_mem_trace httft
    · cases Program.eq_of_mem_trace hyield
    · cases hfailure
    · cases hended
    · cases Program.eq_of_mem_trace hpoll

/-- The client closes the connection at the first one, and the stream is written as completed. -/
theorem stream_status_closed :
    ¬ ∀ (app : ChatApp), (∀ text exc, app.loads text = .error exc → exc.isException = true) →
      ∀ (call : ChatCall) (calls : ChatCalls) (outcome : Except PyExc Unit) (run : UpstreamRun),
        (app.streamResponse call).Traces calls outcome →
        ⟨.streamChatCompletion (streamPayload call.payload), .ok run.stream⟩ ∈ calls →
        ∀ status, StatusWritten calls status → StatusTrue run calls status := by
  intro h
  obtain ⟨outcome, htraces⟩ := traces_chunkStream (.error PyExc.generatorExit) (.ok ())
  have hevent : ⟨.recordUsage ⟨8, 1, 9, .completed⟩, .ok ()⟩ ∈ closingStream :=
    List.mem_of_getElem? (show closingStream[9]? = some ⟨.recordUsage ⟨8, 1, 9, .completed⟩, .ok ()⟩ from rfl)
  have htrue := h chunkApp (fun _ _ h => by cases h) plainCall _ outcome chunkRun htraces (asked_chunkStream _ _)
    .completed (.inl ⟨_, hevent, _, rfl, rfl⟩)
  obtain ⟨-, hhanded⟩ := htrue.completed rfl
  have hnone : handed closingStream = [] := rfl
  have hsome : chunkRun.stream.events.length = 3 := by decide
  have hempty : chunkRun.stream.events = [] := hhanded.symm.trans hnone
  rw [hempty] at hsome
  cases hsome

end GpuInference
