import GpuInference.ChatCalls
import GpuInference.EffectInversion

/-!
The runs of a streamed response. The loop over the events is left in one of seven ways: the events end, the upstream has
raised, the poll shows that the client is gone, or one of the steps for an event raises. Whatever the way, the `finally`
block runs next, with the text, the status and the error code that the loop has left.
-/

open Effect

namespace GpuInference

namespace StreamLocals

/-- The text of an event is added before it is sent. -/
def reads (l : StreamLocals) (text : String) : StreamLocals := { l with completionText := l.completionText ++ text }

/-- The event is the first one with data. -/
def measures (l : StreamLocals) (event : String) : Bool :=
  !l.firstTokenSeen ∧ startsWith event "data: " ∧ strip event ≠ doneLine

/-- The locals after an event has been sent. -/
def sees (l : StreamLocals) (event text : String) : StreamLocals :=
  { l.reads text with firstTokenSeen := l.firstTokenSeen || l.measures event }

end StreamLocals

/-- How the loop is left. -/
inductive StreamExit where
  | exhausted
  | upstream (exc : PyExc)
  | polled
  | poll (exc : PyExc)
  | unreadable (exc : PyExc)
  | ttft (exc : PyExc)
  | yielded (event : String) (exc : PyExc)

/-- The exception that leaves the loop. -/
def StreamExit.outcome : StreamExit → Except PyExc Unit
  | exhausted => .ok ()
  | upstream exc => .error exc
  | polled => .ok ()
  | poll exc => .error exc
  | unreadable exc => .error exc
  | ttft exc => .error exc
  | yielded _ exc => .error exc

/-- The measurement of the first token, where it is made and returns. -/
def ttftCalls (l : StreamLocals) (event : String) : ChatCalls :=
  if l.measures event then [⟨.recordStreamTtft, .ok ()⟩] else []

/-- The calls of the loop over these events, the way it is left, and the locals then. -/
inductive LoopRun (app : ChatApp) (failure : Option PyExc) :
    List String → StreamLocals → ChatCalls → StreamExit → StreamLocals → Prop
  | exhausted {l : StreamLocals} (hfailure : failure = none) : LoopRun app failure [] l [] .exhausted l
  | upstream {l : StreamLocals} {exc : PyExc} (hfailure : failure = some exc) :
      LoopRun app failure [] l [] (.upstream exc) l
  | polled {event : String} {events : List String} {l : StreamLocals} :
      LoopRun app failure (event :: events) l [⟨.isDisconnected, .ok true⟩] .polled
        { l with status := .clientDisconnected }
  | poll {event : String} {events : List String} {l : StreamLocals} {exc : PyExc} :
      LoopRun app failure (event :: events) l [⟨.isDisconnected, .error exc⟩] (.poll exc) l
  | unreadable {event : String} {events : List String} {l : StreamLocals} {exc : PyExc}
      (htext : streamDeltaText app.loads event = .error exc) :
      LoopRun app failure (event :: events) l [⟨.isDisconnected, .ok false⟩] (.unreadable exc) l
  | ttft {event : String} {events : List String} {l : StreamLocals} {text : String} {exc : PyExc}
      (htext : streamDeltaText app.loads event = .ok text) (hmeasures : l.measures event = true) :
      LoopRun app failure (event :: events) l [⟨.isDisconnected, .ok false⟩, ⟨.recordStreamTtft, .error exc⟩] (.ttft exc)
        (l.reads text)
  | yielded {event : String} {events : List String} {l : StreamLocals} {text : String} {exc : PyExc}
      (htext : streamDeltaText app.loads event = .ok text) :
      LoopRun app failure (event :: events) l
        (⟨.isDisconnected, .ok false⟩ :: (ttftCalls l event ++ [⟨.yieldEvent event, .error exc⟩])) (.yielded event exc)
        (l.sees event text)
  | next {event : String} {events : List String} {l l' : StreamLocals} {text : String} {calls : ChatCalls}
      {exit : StreamExit} (htext : streamDeltaText app.loads event = .ok text)
      (hrest : LoopRun app failure events (l.sees event text) calls exit l') :
      LoopRun app failure (event :: events) l
        (⟨.isDisconnected, .ok false⟩ :: (ttftCalls l event ++ ⟨.yieldEvent event, .ok ()⟩ :: calls)) exit l'

section Loop

variable {app : ChatApp} {failure : Option PyExc}

/-- The loop has no other runs. -/
theorem loopRun_of_leaves {events : List String} {l l' : StreamLocals} {calls : ChatCalls} {outcome : Except PyExc Unit}
    (h : (app.streamEvents failure events).Leaves l calls outcome l') :
    ∃ exit, LoopRun app failure events l calls exit l' ∧ outcome = exit.outcome := by
  induction events generalizing l calls with
  | nil =>
      cases failure with
      | none =>
          obtain ⟨rfl, rfl, rfl⟩ := Block.leaves_pure.mp h
          exact ⟨.exhausted, .exhausted rfl, rfl⟩
      | some exc =>
          obtain ⟨rfl, rfl, rfl⟩ := Block.leaves_throw.mp h
          exact ⟨.upstream exc, .upstream rfl, rfl⟩
  | cons event events ih =>
      rw [ChatApp.streamEvents] at h
      rcases Block.leaves_perform_bind.mp h with ⟨exc, rfl, rfl, rfl⟩ | ⟨disconnected, polled, rfl, hpolled⟩
      · exact ⟨.poll exc, .poll, rfl⟩
      cases disconnected with
      | true =>
          simp only [if_true] at hpolled
          obtain ⟨rfl, rfl, rfl⟩ := Block.leaves_assign.mp hpolled
          exact ⟨.polled, .polled, rfl⟩
      | false =>
          simp only [Bool.false_eq_true, if_false] at hpolled
          rcases Block.leaves_lift_bind.mp hpolled with ⟨exc, htext, rfl, rfl, rfl⟩ | ⟨text, htext, hread⟩
          · exact ⟨.unreadable exc, .unreadable htext, rfl⟩
          rw [Block.leaves_assign_bind, Block.leaves_locals_bind] at hread
          have hsent : ∀ {middle : StreamLocals} {sent : ChatCalls}, middle = l.sees event text →
              (Block.await (chatCall (.yieldEvent event)) >>= fun _ => app.streamEvents failure events).Leaves middle sent
                outcome l' →
              ∃ exit, LoopRun app failure (event :: events) l
                (⟨.isDisconnected, .ok false⟩ :: (ttftCalls l event ++ sent)) exit l' ∧ outcome = exit.outcome := by
            rintro middle sent rfl hsent
            rcases Block.leaves_perform_bind.mp hsent with ⟨exc, rfl, rfl, rfl⟩ | ⟨_, right, rfl, hright⟩
            · exact ⟨.yielded event exc, .yielded htext, rfl⟩
            · obtain ⟨exit, hrun, houtcome⟩ := ih hright
              exact ⟨exit, .next htext hrun, houtcome⟩
          dsimp only at hread
          split at hread
          · rename_i hfirst
            have hmeasures : l.measures event = true := decide_eq_true hfirst
            rcases Block.leaves_perform_bind.mp hread with ⟨exc, rfl, rfl, rfl⟩ | ⟨_, right, rfl, hmeasured⟩
            · exact ⟨.ttft exc, .ttft htext hmeasures, rfl⟩
            · rw [Block.leaves_assign_bind] at hmeasured
              have hcalls : ttftCalls l event = [⟨.recordStreamTtft, .ok ()⟩] := if_pos hmeasures
              have hlocals : ({ l.reads text with firstTokenSeen := true } : StreamLocals) = l.sees event text := by
                simp only [StreamLocals.sees, hmeasures, Bool.or_true]
              obtain ⟨exit, hrun, houtcome⟩ := hsent hlocals hmeasured
              rw [hcalls] at hrun
              exact ⟨exit, hrun, houtcome⟩
          · rename_i hfirst
            have hmeasures : l.measures event = false := decide_eq_false hfirst
            have hcalls : ttftCalls l event = [] := if_neg (by rw [hmeasures]; exact Bool.false_ne_true)
            have hlocals : l.reads text = l.sees event text := by
              simp only [StreamLocals.sees, hmeasures, Bool.or_false]
              rfl
            obtain ⟨exit, hrun, houtcome⟩ := hsent hlocals hread
            rw [hcalls] at hrun
            exact ⟨exit, hrun, houtcome⟩

end Loop

/-- A call of the loop: the poll, the event that is sent, and the measurement of the first token. -/
def ChatOp.Loops : ChatOp → Prop
  | isDisconnected => True
  | yieldEvent _ => True
  | recordStreamTtft => True
  | _ => False

theorem loops_ttftCalls {l : StreamLocals} {event : String} : ∀ call ∈ ttftCalls l event, call.op.Loops := by
  intro call hcall
  unfold ttftCalls at hcall
  split at hcall
  · obtain rfl := List.mem_singleton.mp hcall
    exact trivial
  · cases hcall

/-- The loop makes no other calls. -/
theorem LoopRun.loops {app : ChatApp} {failure : Option PyExc} {events : List String} {l l' : StreamLocals}
    {calls : ChatCalls} {exit : StreamExit} (h : LoopRun app failure events l calls exit l') :
    ∀ call ∈ calls, call.op.Loops := by
  induction h with
  | exhausted hfailure => exact List.forall_mem_nil _
  | upstream hfailure => exact List.forall_mem_nil _
  | polled =>
      rw [List.forall_mem_singleton]
      exact trivial
  | poll =>
      rw [List.forall_mem_singleton]
      exact trivial
  | unreadable htext =>
      rw [List.forall_mem_singleton]
      exact trivial
  | ttft htext hmeasures =>
      rw [List.forall_mem_cons, List.forall_mem_singleton]
      exact ⟨trivial, trivial⟩
  | yielded htext =>
      rw [List.forall_mem_cons, List.forall_mem_append, List.forall_mem_singleton]
      exact ⟨trivial, loops_ttftCalls, trivial⟩
  | next htext hrest ih =>
      rw [List.forall_mem_cons, List.forall_mem_append, List.forall_mem_cons]
      exact ⟨trivial, loops_ttftCalls, trivial, ih⟩

/-- The locals before the loop. -/
def StreamLocals.start : StreamLocals := ⟨"", .completed, none, false⟩

/-- The locals after the handler, for a loop that is left in this way. -/
def StreamLocals.after (l : StreamLocals) (exit : StreamExit) : StreamLocals :=
  match exit.outcome with
  | .ok _ => l
  | .error exc =>
      if exc.isException then { l with status := .failed, errorCode := exc.codeOr "internal_server_error" } else l

theorem after_completionText (l : StreamLocals) (exit : StreamExit) :
    (l.after exit).completionText = l.completionText := by
  unfold StreamLocals.after
  split
  · rfl
  · split <;> rfl

/-- The events that `_stream_response` goes through. -/
def UpstreamStream.events (upstream : UpstreamStream) : List String :=
  ensureDoneEvent (streamWithHeartbeats upstream.items) upstream.failure

/-- The calls of a streamed response whose upstream has been asked. -/
def askedCalls (call : ChatCall) (upstream : UpstreamStream) (loop final : ChatCalls) : ChatCalls :=
  ⟨.recordStreamStarted, .ok ()⟩ :: ⟨.streamChatCompletion (streamPayload call.payload), .ok upstream⟩ :: (loop ++ final)

/-- The calls of a streamed response: it does not start, the upstream is not asked, or it runs the loop and then the
`finally` block. -/
inductive StreamCalls (app : ChatApp) (call : ChatCall) : ChatCalls → Prop
  | unstarted (exc : PyExc) : StreamCalls app call [⟨.recordStreamStarted, .error exc⟩]
  | unasked (exc : PyExc) :
      StreamCalls app call
        [⟨.recordStreamStarted, .ok ()⟩, ⟨.streamChatCompletion (streamPayload call.payload), .error exc⟩]
  | run {upstream : UpstreamStream} {loop final : ChatCalls} {exit : StreamExit} {l last : StreamLocals}
      {out : Except PyExc Unit} (hloop : LoopRun app upstream.failure upstream.events .start loop exit l)
      (hfinal : (app.streamFinally call).Leaves (l.after exit) final out last) :
      StreamCalls app call (askedCalls call upstream loop final)

section Stream

variable (app : ChatApp) (call : ChatCall)

theorem quiet_streamEvents (failure : Option PyExc) (events : List String) :
    (app.streamEvents failure events).Quiet := by
  induction events with
  | nil =>
      cases failure with
      | none => exact Block.quiet_pure ()
      | some exc => exact Block.quiet_lift _
  | cons event events ih =>
      have hyield : (Block.await (chatCall (.yieldEvent event)) >>= fun _ => app.streamEvents failure events).Quiet :=
        (Block.quiet_await _).bind fun _ => ih
      rw [ChatApp.streamEvents]
      apply (Block.quiet_await _).bind
      intro disconnected
      split
      · exact Block.quiet_assign _
      · apply (Block.quiet_lift _).bind
        intro text
        apply (Block.quiet_assign _).bind
        intro _
        apply Block.quiet_locals.bind
        intro l
        dsimp only
        split
        · exact (Block.quiet_await _).bind fun _ => (Block.quiet_assign _).bind fun _ => hyield
        · exact hyield

theorem quiet_streamFinally : (app.streamFinally call).Quiet := by
  unfold ChatApp.streamFinally
  apply (Block.quiet_await _).bind
  intro _
  apply (Block.quiet_await _).bind
  intro _
  apply (Block.quiet_await _).bind
  intro _
  apply Block.quiet_locals.bind
  intro l
  apply (Block.quiet_lift _).bind
  intro usage
  apply (Block.quiet_await _).bind
  intro _
  apply (Block.quiet_await _).bind
  intro _
  apply (Block.quiet_await _).bind
  intro latencyMs
  apply (Block.quiet_await _).bind
  intro _
  apply (Block.quiet_await _).bind
  intro _
  exact (Block.quiet_await _).bind fun _ => Block.quiet_await _

theorem quiet_streamFailed (exc : PyExc) : (ChatApp.streamFailed exc).Quiet :=
  (Block.quiet_assign _).bind fun _ => Block.quiet_lift _

/-- The `try` statement is the loop, with what the handler sets. -/
theorem loopRun_of_try {failure : Option PyExc} {events : List String} {loop : ChatCalls} {out : Except PyExc Unit}
    {start l' : StreamLocals}
    (h : (Block.tryExcept PyExc.isException (app.streamEvents failure events) ChatApp.streamFailed).Leaves start loop out
      l') :
    ∃ exit l, LoopRun app failure events start loop exit l ∧ l' = l.after exit ∧ out = exit.outcome := by
  rcases Block.leaves_tryExcept.mp h with ⟨hleft, hother⟩ | ⟨exc, l, left, right, hcatches, rfl, hleft, hfailed⟩
  · obtain ⟨exit, hexit, rfl⟩ := loopRun_of_leaves hleft
    have hlocals : l'.after exit = l' := by
      unfold StreamLocals.after
      split
      · rfl
      · rename_i exc hexc
        rw [hother exc hexc]
        rfl
    exact ⟨exit, l', hexit, hlocals.symm, rfl⟩
  · obtain ⟨exit, hexit, hexc⟩ := loopRun_of_leaves hleft
    rw [ChatApp.streamFailed, Block.leaves_assign_bind] at hfailed
    obtain ⟨rfl, rfl, rfl⟩ := Block.leaves_throw.mp hfailed
    refine ⟨exit, l, ?_, ?_, hexc⟩
    · rw [List.append_nil]
      exact hexit
    · rw [StreamLocals.after, ← hexc]
      simp only [hcatches, if_true]

/-- The `try` statement of a streamed response whose upstream has been asked. -/
theorem asked_of_traces {upstream : UpstreamStream} {run : ChatCalls} {outcome : Except PyExc Unit}
    (h : ((Block.tryFinally (Block.tryExcept PyExc.isException (app.streamEvents upstream.failure upstream.events)
      ChatApp.streamFailed) (app.streamFinally call)).toProgram .start).Traces run outcome) :
    ∃ (loop final : ChatCalls) (exit : StreamExit) (l last : StreamLocals) (out : Except PyExc Unit),
      run = loop ++ final ∧ LoopRun app upstream.failure upstream.events .start loop exit l ∧
      (app.streamFinally call).Leaves (l.after exit) final out last ∧ (out = .ok () → outcome = exit.outcome) := by
  have hbody : (Block.tryExcept PyExc.isException (app.streamEvents upstream.failure upstream.events)
      ChatApp.streamFailed).Quiet := (quiet_streamEvents app _ _).tryExcept quiet_streamFailed
  obtain ⟨loop, final, out, left, out', last, rfl, hloop, hfinal, houtcome⟩ :=
    Block.traces_tryFinally hbody (quiet_streamFinally app call) h
  obtain ⟨exit, l, hexit, rfl, rfl⟩ := loopRun_of_try app hloop
  refine ⟨loop, final, exit, l, last, out', rfl, hexit, hfinal, ?_⟩
  rintro rfl
  exact houtcome

/-- **The calls of a streamed response** are one of these, and one whose `finally` block returns ends as its loop does. -/
theorem streamRun_of_traces {calls : ChatCalls} {outcome : Except PyExc Unit}
    (h : (app.streamResponse call).Traces calls outcome) :
    (∃ exc, calls = [⟨.recordStreamStarted, .error exc⟩]) ∨
      (∃ exc, calls = [⟨.recordStreamStarted, .ok ()⟩,
        ⟨.streamChatCompletion (streamPayload call.payload), .error exc⟩]) ∨
      ∃ (upstream : UpstreamStream) (loop final : ChatCalls) (exit : StreamExit) (l last : StreamLocals)
        (out : Except PyExc Unit), calls = askedCalls call upstream loop final ∧
        LoopRun app upstream.failure upstream.events .start loop exit l ∧
        (app.streamFinally call).Leaves (l.after exit) final out last ∧ (out = .ok () → outcome = exit.outcome) := by
  unfold ChatApp.streamResponse at h
  rcases Program.traces_perform_bind.mp h with ⟨exc, rfl, -⟩ | ⟨_, asked, rfl, hasked⟩
  · exact .inl ⟨exc, rfl⟩
  rcases Program.traces_perform_bind.mp hasked with ⟨exc, rfl, -⟩ | ⟨upstream, run, rfl, hrun⟩
  · exact .inr (.inl ⟨exc, rfl⟩)
  obtain ⟨loop, final, exit, l, last, out, rfl, hloop, hfinal, houtcome⟩ := asked_of_traces app call hrun
  exact .inr (.inr ⟨upstream, loop, final, exit, l, last, out, rfl, hloop, hfinal, houtcome⟩)

theorem streamCalls_of_traces {calls : ChatCalls} {outcome : Except PyExc Unit}
    (h : (app.streamResponse call).Traces calls outcome) : StreamCalls app call calls := by
  rcases streamRun_of_traces app call h with ⟨exc, rfl⟩ | ⟨exc, rfl⟩ | ⟨_, _, _, _, _, _, _, rfl, hloop, hfinal, -⟩
  · exact .unstarted exc
  · exact .unasked exc
  · exact .run hloop hfinal

end Stream

/-- How far the `finally` block has come, until one of its calls raises. -/
inductive FinallyPhase where
  | closing
  | finalized
  | recorded
  | released
  | finished
  | failed
  deriving DecidableEq

/-- The usage that the `finally` block computes from these locals. -/
def StreamLocals.usage (app : ChatApp) (call : ChatCall) (l : StreamLocals) : Except PyExc UsageRecord :=
  usageFromStreamText l.completionText call.plan app.tokenEstimator l.status

/-- The `finally` block closes the iterators, finalizes and writes the usage of the locals, and then releases the
slot. -/
def finallyProtocol (app : ChatApp) (call : ChatCall) (l : StreamLocals) :
    Protocol ChatOp ChatOp.Res PyExc FinallyPhase where
  may φ
    | .closeStream => φ = .closing
    | .finalizeTokens lease actualTokens releaseAll => φ = .closing ∧ lease = call.lease ∧
        ∃ usage, l.usage app call = .ok usage ∧ actualTokens = usage.totalTokens ∧
          releaseAll = decide (l.status = .failed)
    | .recordUsage usage => φ = .finalized ∧ l.usage app call = .ok usage
    | .elapsedMs => φ = .recorded
    | .finalizeAudit final => φ = .recorded ∧ ∃ usage latencyMs, l.usage app call = .ok usage ∧
        final = buildAuditFinal call.auditRecordId usage (some latencyMs) l.errorCode
    | .collect _ => φ = .recorded
    | .releaseLease lease => φ = .recorded ∧ lease = call.lease
    | .recordStreamFinished => φ = .released
    | _ => False
  after φ
    | .finalizeTokens _ _ _, .ok _ => .finalized
    | .recordUsage _, .ok _ => .recorded
    | .releaseLease _, .ok _ => .released
    | .recordStreamFinished, .ok _ => .finished
    | .collect _, .error exc => if exc.isException then φ else .failed
    | _, .error _ => .failed
    | _, .ok _ => φ

/-- A call outside of the `try` statement has raised: it is before it, or in the `finally` block. What
`_emit_usage_analytics` catches is none. -/
def CleanupRaises : Event ChatOp ChatOp.Res PyExc → Prop
  | ⟨.recordStreamStarted, answer⟩ => answer.isOk = false
  | ⟨.streamChatCompletion _, answer⟩ => answer.isOk = false
  | ⟨.closeStream, answer⟩ => answer.isOk = false
  | ⟨.finalizeTokens _ _ _, answer⟩ => answer.isOk = false
  | ⟨.recordUsage _, answer⟩ => answer.isOk = false
  | ⟨.elapsedMs, answer⟩ => answer.isOk = false
  | ⟨.finalizeAudit _, answer⟩ => answer.isOk = false
  | ⟨.collect _, answer⟩ => ∃ exc, answer = .error exc ∧ exc.isException = false
  | ⟨.releaseLease _, answer⟩ => answer.isOk = false
  | ⟨.recordStreamFinished, answer⟩ => answer.isOk = false
  | _ => False

/-- What one call of the `finally` block does: it goes on to the next one, or the block fails. -/
inductive FinallyStep (call : ChatCall) : FinallyPhase → Event ChatOp ChatOp.Res PyExc → FinallyPhase → Prop
  | closes : FinallyStep call .closing ⟨.closeStream, .ok ()⟩ .closing
  | finalizes (actualTokens : Int) (releaseAll : Bool) :
      FinallyStep call .closing ⟨.finalizeTokens call.lease actualTokens releaseAll, .ok ()⟩ .finalized
  | records (usage : UsageRecord) : FinallyStep call .finalized ⟨.recordUsage usage, .ok ()⟩ .recorded
  | elapses (latencyMs : Int) : FinallyStep call .recorded ⟨.elapsedMs, .ok latencyMs⟩ .recorded
  | audits (final : AuditFinal) : FinallyStep call .recorded ⟨.finalizeAudit final, .ok ()⟩ .recorded
  | collects {event : UsageEvent} {answer : Except PyExc Bool} (hcaught : ¬ CleanupRaises ⟨.collect event, answer⟩) :
      FinallyStep call .recorded ⟨.collect event, answer⟩ .recorded
  | releases : FinallyStep call .recorded ⟨.releaseLease call.lease, .ok ()⟩ .released
  | finishes : FinallyStep call .released ⟨.recordStreamFinished, .ok ()⟩ .finished
  | fails {φ : FinallyPhase} {event : Event ChatOp ChatOp.Res PyExc} (hφ : φ ≠ .failed) (hleft : φ ≠ .finished)
      (hraises : CleanupRaises event) : FinallyStep call φ event .failed

/-- **The calls of the `finally` block** do nothing else. -/
theorem finallyStep_of_may {app : ChatApp} {call : ChatCall} {l : StreamLocals} {φ : FinallyPhase}
    {event : Event ChatOp ChatOp.Res PyExc} (hmay : (finallyProtocol app call l).may φ event.op) :
    FinallyStep call φ event ((finallyProtocol app call l).after φ event.op event.answer) := by
  obtain ⟨op, answer⟩ := event
  cases op
  case closeStream =>
    obtain rfl : φ = .closing := hmay
    cases answer with
    | ok _ => exact .closes
    | error exc => exact .fails (by decide) (by decide) rfl
  case finalizeTokens lease actualTokens releaseAll =>
    obtain ⟨rfl, rfl, -⟩ := hmay
    cases answer with
    | ok _ => exact .finalizes actualTokens releaseAll
    | error exc => exact .fails (by decide) (by decide) rfl
  case recordUsage usage =>
    obtain ⟨rfl, -⟩ := hmay
    cases answer with
    | ok _ => exact .records usage
    | error exc => exact .fails (by decide) (by decide) rfl
  case elapsedMs =>
    obtain rfl : φ = .recorded := hmay
    cases answer with
    | ok latencyMs => exact .elapses latencyMs
    | error exc => exact .fails (by decide) (by decide) rfl
  case finalizeAudit final =>
    obtain ⟨rfl, -⟩ := hmay
    cases answer with
    | ok _ => exact .audits final
    | error exc => exact .fails (by decide) (by decide) rfl
  case collect event =>
    obtain rfl : φ = .recorded := hmay
    cases answer with
    | ok _ =>
        refine .collects ?_
        rintro ⟨exc, herror, -⟩
        cases herror
    | error exc =>
        cases hexc : exc.isException with
        | true =>
            simp only [finallyProtocol, hexc, if_true]
            refine .collects ?_
            rintro ⟨exc', herror, hbase⟩
            cases herror
            cases hexc.symm.trans hbase
        | false =>
            simp only [finallyProtocol, hexc, Bool.false_eq_true, if_false]
            exact .fails (by decide) (by decide) ⟨exc, rfl, hexc⟩
  case releaseLease lease =>
    obtain ⟨rfl, rfl⟩ := hmay
    cases answer with
    | ok _ => exact .releases
    | error exc => exact .fails (by decide) (by decide) rfl
  case recordStreamFinished =>
    obtain rfl : φ = .released := hmay
    cases answer with
    | ok _ => exact .finishes
    | error exc => exact .fails (by decide) (by decide) rfl
  all_goals exact hmay.elim

namespace FinallyStep

variable {call : ChatCall} {φ ψ : FinallyPhase} {event : Event ChatOp ChatOp.Res PyExc}

/-- No call is made once the block has failed. -/
theorem before (h : FinallyStep call φ event ψ) : φ ≠ .failed := by
  cases h with
  | fails hφ hleft hraises => exact hφ
  | _ => decide

/-- The block fails at a call that raises. -/
theorem failed_iff (h : FinallyStep call φ event ψ) : ψ = .failed ↔ CleanupRaises event := by
  cases h with
  | collects hcaught => exact iff_of_false (by decide) hcaught
  | fails hφ hleft hraises => exact iff_of_true rfl hraises
  | _ => exact iff_of_false (by decide) (by intro hraises; cases hraises)

end FinallyStep

/-- What holds before the `finally` block, and is kept by each of its calls, holds after all of them. -/
theorem finally_tells {app : ChatApp} {call : ChatCall} {l : StreamLocals} {tells : FinallyPhase → ChatCalls → Prop}
    (hstart : tells .closing [])
    (hstep : ∀ φ ψ calls event, tells φ calls → FinallyStep call φ event ψ → tells ψ (calls ++ [event]))
    {final : ChatCalls} (h : (finallyProtocol app call l).Keeps .closing final) :
    tells ((finallyProtocol app call l).phase .closing final) final := by
  apply h.tells hstart
  intro φ calls event htells hmay
  exact hstep _ _ calls event htells (finallyStep_of_may hmay)

/-- The `finally` block has come to its end, or one of its calls or the usage estimate has raised. -/
def FinallyDone (app : ChatApp) (call : ChatCall) (l : StreamLocals) (φ : FinallyPhase) : Prop :=
  φ = .failed ∨ (φ = .finished ∧ (l.usage app call).isOk = true) ∨
    (φ = .closing ∧ (l.usage app call).isOk = false)

theorem follows_emitUsageAnalytics_finally (app : ChatApp) (call : ChatCall) (l : StreamLocals) (event : UsageEvent) :
    (emitUsageAnalytics event).Follows (finallyProtocol app call l)
      (fun φ outcome => (φ = .recorded ∧ outcome = .ok ()) ∨ (φ = .failed ∧ outcome.isOk = false)) .recorded := by
  unfold emitUsageAnalytics
  rw [Program.follows_tryExcept]
  refine Program.follows_perform_bind (by exact rfl) ?_ fun _ => .inl ⟨rfl, rfl⟩
  intro exc
  simp only [Program.exceptDone]
  split
  · rename_i hexc
    simp only [finallyProtocol, hexc, if_true]
    exact .inl ⟨rfl, rfl⟩
  · rename_i hexc
    simp only [finallyProtocol, if_neg hexc]
    exact .inr ⟨trivial, rfl⟩

/-- The `finally` block returns when it comes to its end. -/
theorem meets_streamFinally_returns (app : ChatApp) (call : ChatCall) (l : StreamLocals) :
    Block.Meets (finallyProtocol app call l) (fun φ out _ => FinallyDone app call l φ ∧ (φ = .finished → out = .ok ()))
      .closing l (app.streamFinally call) := by
  have hfailed : ∀ {out : Except PyExc Unit}, FinallyDone app call l .failed ∧
      (FinallyPhase.failed = .finished → out = .ok ()) := by
    refine ⟨.inl rfl, ?_⟩
    intro hfinished
    cases hfinished
  unfold ChatApp.streamFinally
  refine Block.meets_perform_bind (by exact rfl) (fun _ => hfailed) fun _ => ?_
  refine Block.meets_perform_bind (by exact rfl) (fun _ => hfailed) fun _ => ?_
  refine Block.meets_perform_bind (by exact rfl) (fun _ => hfailed) fun _ => ?_
  rw [Block.meets_locals_bind, Block.meets_lift_bind]
  cases husage : usageFromStreamText l.completionText call.plan app.tokenEstimator l.status with
  | error exc =>
      have hestimate : l.usage app call = .error exc := husage
      refine ⟨.inr (.inr ⟨rfl, by rw [hestimate]; rfl⟩), ?_⟩
      intro hfinished
      cases hfinished
  | ok usage =>
  have hestimate : l.usage app call = .ok usage := husage
  refine Block.meets_perform_bind (by exact ⟨rfl, rfl, usage, hestimate, rfl, rfl⟩) (fun _ => hfailed) fun _ => ?_
  refine Block.meets_perform_bind (by exact ⟨rfl, hestimate⟩) (fun _ => hfailed) fun _ => ?_
  refine Block.meets_perform_bind (by exact rfl) (fun _ => hfailed) fun latencyMs => ?_
  refine Block.meets_perform_bind (by exact ⟨rfl, usage, latencyMs, hestimate, rfl⟩) (fun _ => hfailed) fun _ => ?_
  rw [Block.meets_bind, Block.meets_await]
  refine (follows_emitUsageAnalytics_finally app call l _).mono ?_
  rintro φ outcome (⟨rfl, rfl⟩ | ⟨rfl, hraised⟩)
  · refine Block.meets_perform_bind (by exact ⟨rfl, rfl⟩) (fun _ => hfailed) fun _ => ?_
    rw [Block.meets_await]
    refine (Program.follows_perform _ _).mpr ⟨rfl, fun answer => ?_⟩
    cases answer with
    | ok _ => exact ⟨.inr (.inl ⟨rfl, by rw [hestimate]; rfl⟩), fun _ => rfl⟩
    | error exc => exact hfailed
  · cases outcome with
    | ok value => cases hraised
    | error exc => exact hfailed

theorem meets_streamFinally_done (app : ChatApp) (call : ChatCall) (l : StreamLocals) :
    Block.Meets (finallyProtocol app call l) (fun φ _ _ => FinallyDone app call l φ) .closing l
      (app.streamFinally call) :=
  (meets_streamFinally_returns app call l).mono fun _ _ _ hdone => hdone.1

theorem ChatOp.Loops.not_settles {op : ChatOp} (h : op.Loops) : ¬ op.Settles := by
  intro hsettles
  cases op
  case isDisconnected => exact hsettles
  case yieldEvent event => exact hsettles
  case recordStreamTtft => exact hsettles
  all_goals exact h

section Parts

variable {app : ChatApp} {call : ChatCall} {upstream : UpstreamStream} {loop final calls : ChatCalls}
  {event : Event ChatOp ChatOp.Res PyExc}

/-- The `finally` block settles the request. -/
theorem settles_of_final {l : StreamLocals} (h : (finallyProtocol app call l).Keeps .closing final) :
    ∀ event ∈ final, event.op.Settles := by
  rintro ⟨op, answer⟩ hevent
  obtain ⟨φ, hmay⟩ := h.event hevent
  cases op
  case admitRequest authContext estimatedTokens => exact hmay.elim
  case startAudit audit => exact hmay.elim
  case createChatCompletion payload => exact hmay.elim
  case streamChatCompletion payload => exact hmay.elim
  case isDisconnected => exact hmay.elim
  case yieldEvent event => exact hmay.elim
  case recordStreamStarted => exact hmay.elim
  case recordStreamTtft => exact hmay.elim
  all_goals exact trivial

theorem mem_askedCalls : event ∈ askedCalls call upstream loop final ↔ event = ⟨.recordStreamStarted, .ok ()⟩ ∨
    event = ⟨.streamChatCompletion (streamPayload call.payload), .ok upstream⟩ ∨ event ∈ loop ∨ event ∈ final := by
  rw [askedCalls, List.mem_cons, List.mem_cons, List.mem_append]

/-- The calls of the loop. -/
theorem mem_askedCalls_loops (hfinal : ∀ event ∈ final, event.op.Settles) (hloops : event.op.Loops) :
    event ∈ askedCalls call upstream loop final ↔ event ∈ loop := by
  rw [mem_askedCalls]
  constructor
  · rintro (rfl | rfl | hevent | hevent)
    · exact hloops.elim
    · exact hloops.elim
    · exact hevent
    · exact absurd (hfinal event hevent) hloops.not_settles
  · exact fun hevent => .inr (.inr (.inl hevent))

/-- The calls that settle the request. -/
theorem mem_askedCalls_settles (hloop : ∀ event ∈ loop, event.op.Loops) (hsettles : event.op.Settles) :
    event ∈ askedCalls call upstream loop final ↔ event ∈ final := by
  rw [mem_askedCalls]
  constructor
  · rintro (rfl | rfl | hevent | hevent)
    · exact hsettles.elim
    · exact hsettles.elim
    · exact absurd hsettles (hloop event hevent).not_settles
    · exact hevent
  · exact fun hevent => .inr (.inr (.inr hevent))

/-- What settles a request is done in the `finally` block, with the locals that the loop has left. -/
theorem StreamCalls.settled (h : StreamCalls app call calls) (hevent : event ∈ calls) (hsettles : event.op.Settles) :
    ∃ (upstream : UpstreamStream) (loop final : ChatCalls) (exit : StreamExit) (l : StreamLocals),
      calls = askedCalls call upstream loop final ∧
      LoopRun app upstream.failure upstream.events .start loop exit l ∧
      (finallyProtocol app call (l.after exit)).Keeps .closing final ∧
      ∃ φ, (finallyProtocol app call (l.after exit)).may φ event.op := by
  cases h with
  | unstarted exc =>
      obtain rfl := List.mem_singleton.mp hevent
      exact hsettles.elim
  | unasked exc =>
      rcases List.mem_cons.mp hevent with rfl | hevent
      · exact hsettles.elim
      · obtain rfl := List.mem_singleton.mp hevent
        exact hsettles.elim
  | @run upstream loop final exit l last out hloop hfinal =>
      obtain ⟨hkeeps, -⟩ := (meets_streamFinally_done app call (l.after exit)).leaves hfinal
      exact ⟨upstream, loop, final, exit, l, rfl, hloop, hkeeps,
        hkeeps.event ((mem_askedCalls_settles hloop.loops hsettles).mp hevent)⟩

/-- The parts of a streamed response whose upstream has been asked. -/
theorem StreamCalls.asked (h : StreamCalls app call calls)
    (hasked : ⟨.streamChatCompletion (streamPayload call.payload), .ok upstream⟩ ∈ calls) :
    ∃ (loop final : ChatCalls) (exit : StreamExit) (l : StreamLocals), calls = askedCalls call upstream loop final ∧
      LoopRun app upstream.failure upstream.events .start loop exit l ∧
      (finallyProtocol app call (l.after exit)).Keeps .closing final ∧
      FinallyDone app call (l.after exit) ((finallyProtocol app call (l.after exit)).phase .closing final) := by
  cases h with
  | unstarted exc => cases List.mem_singleton.mp hasked
  | unasked exc =>
      rcases List.mem_cons.mp hasked with hfirst | hsecond
      · cases hfirst
      · cases List.mem_singleton.mp hsecond
  | @run given loop final exit l last out hloop hfinal =>
      obtain ⟨hkeeps, hdone⟩ := (meets_streamFinally_done app call (l.after exit)).leaves hfinal
      rcases mem_askedCalls.mp hasked with hfirst | hsecond | hlooped | hsettled
      · cases hfirst
      · cases hsecond
        exact ⟨loop, final, exit, l, rfl, hloop, hkeeps, hdone⟩
      · exact (hloop.loops _ hlooped).elim
      · exact (settles_of_final hkeeps _ hsettled).elim

end Parts

/-! ### The tokens -/

/-- The tokens have been finalized. -/
def TokensFinalized (calls : ChatCalls) : Prop :=
  ∃ lease actualTokens releaseAll, ⟨.finalizeTokens lease actualTokens releaseAll, .ok ()⟩ ∈ calls

theorem TokensFinalized.mono {calls more : ChatCalls}
    (hmore : ∀ event : Event ChatOp ChatOp.Res PyExc, event.op.Settles → event ∈ calls → event ∈ more)
    (h : TokensFinalized calls) : TokensFinalized more := by
  obtain ⟨lease, actualTokens, releaseAll, hevent⟩ := h
  exact ⟨lease, actualTokens, releaseAll, hmore _ trivial hevent⟩

/-- The `finally` block finalizes the tokens before it goes on. -/
theorem finalized_of_phase {app : ChatApp} {call : ChatCall} {l : StreamLocals} {final : ChatCalls}
    (h : (finallyProtocol app call l).Keeps .closing final) :
    (finallyProtocol app call l).phase .closing final = .closing ∨
      (finallyProtocol app call l).phase .closing final = .failed ∨ TokensFinalized final := by
  let tells (φ : FinallyPhase) (calls : ChatCalls) : Prop := φ = .closing ∨ φ = .failed ∨ TokensFinalized calls
  have hstep : ∀ φ ψ calls event, tells φ calls → FinallyStep call φ event ψ → tells ψ (calls ++ [event]) := by
    rintro φ ψ calls event (rfl | rfl | ⟨lease, actualTokens, releaseAll, hfinalizes⟩) hstep
    · cases hstep with
      | closes => exact .inl rfl
      | finalizes => exact .inr (.inr ⟨_, _, _, List.mem_append_right _ (List.mem_singleton_self _)⟩)
      | fails hφ hleft hraises => exact .inr (.inl rfl)
    · exact absurd rfl hstep.before
    · exact .inr (.inr ⟨lease, actualTokens, releaseAll, List.mem_append_left _ hfinalizes⟩)
  exact finally_tells (.inl rfl) hstep h

end GpuInference
