import GpuInference.HandlerAdmission
import GpuInference.PartialUsage

/-!
The cleanup of a streamed response. The `finally` block is one straight line of calls: when all of them return, the tokens
are finalized, the slot is released once and the gauge of the active streams is as before; the first one that raises leaves
out all the calls after it. A response whose body is discarded before it is iterated does not come to the block at all.
-/

open Effect

namespace GpuInference

/-- A streamed request, as the server runs it: the body of the response is iterated, or it is discarded before that. -/
def ChatApp.serveStream (self : ChatApp) (normalized : Except PyExc JsonObject) (auditService : Except PyExc Unit)
    (requestBody : ChatCompletionRequest) (state : Option AuthContext) (requestId : String) (iterated : Bool) :
    ChatProgram Unit := do
  match ← self.handle normalized auditService requestBody state requestId with
  | .json _ => pure ()
  | .stream body => if iterated then body else pure ()

/-- `ACTIVE_STREAMS.inc()`. -/
def startsStream : Event ChatOp ChatOp.Res PyExc → Bool
  | ⟨.recordStreamStarted, .ok _⟩ => true
  | _ => false

/-- `ACTIVE_STREAMS.dec()`. -/
def finishesStream : Event ChatOp ChatOp.Res PyExc → Bool
  | ⟨.recordStreamFinished, .ok _⟩ => true
  | _ => false

/-- A release, whatever it answers. -/
def asksRelease (event : Event ChatOp ChatOp.Res PyExc) : Bool :=
  match event.op with
  | .releaseLease _ => true
  | _ => false

/-- The slot has been released once, the tokens have been finalized, and the gauge is as before. -/
structure StreamCleaned (lease : AdmissionLease) (calls : ChatCalls) : Prop where
  released : ⟨.releaseLease lease, .ok ()⟩ ∈ calls
  once : calls.countP asksRelease = 1
  finalized : ∃ actualTokens releaseAll, ⟨.finalizeTokens lease actualTokens releaseAll, .ok ()⟩ ∈ calls
  balanced : calls.countP startsStream = calls.countP finishesStream

namespace FinallyPhase

/-- The releases so far, while nothing has raised. -/
def releases : FinallyPhase → Nat
  | released => 1
  | finished => 1
  | _ => 0

def finishes : FinallyPhase → Nat
  | finished => 1
  | _ => 0

end FinallyPhase

section Final

variable {app : ChatApp} {call : ChatCall} {l : StreamLocals}

/-- What the phase says of the calls that the block has made. -/
structure FinallyBooks (call : ChatCall) (φ : FinallyPhase) (calls : ChatCalls) : Prop where
  raised : φ = .failed ↔ ∃ event ∈ calls, CleanupRaises event
  releases : φ ≠ .failed → calls.countP asksRelease = φ.releases
  released : φ.releases = 1 → ⟨.releaseLease call.lease, .ok ()⟩ ∈ calls
  finishes : calls.countP finishesStream = φ.finishes

theorem finallyBooks_nil : FinallyBooks call .closing [] where
  raised := iff_of_false (by decide) (by rintro ⟨event, hevent, -⟩; cases hevent)
  releases _ := rfl
  released := by intro h; cases h
  finishes := rfl

/-- A call that raises finishes no stream. -/
theorem not_finishes_of_raises {event : Event ChatOp ChatOp.Res PyExc} (h : CleanupRaises event) :
    finishesStream event = false := by
  obtain ⟨op, answer⟩ := event
  cases op
  case recordStreamFinished =>
    cases answer with
    | ok _ => cases h
    | error exc => rfl
  all_goals rfl

/-- The step lemma. -/
theorem FinallyBooks.snoc {φ ψ : FinallyPhase} {calls : ChatCalls} (h : FinallyBooks call φ calls)
    {event : Event ChatOp ChatOp.Res PyExc} (hstep : FinallyStep call φ event ψ) :
    FinallyBooks call ψ (calls ++ [event]) := by
  have hreleases := h.releases hstep.before
  have hfinishes := h.finishes
  have hcount : ∀ kind : Event ChatOp ChatOp.Res PyExc → Bool,
      (calls ++ [event]).countP kind = calls.countP kind + if kind event then 1 else 0 := by
    intro kind
    rw [List.countP_append, List.countP_singleton]
  constructor
  · rw [hstep.failed_iff]
    constructor
    · exact fun hraises => ⟨event, List.mem_append_right _ (List.mem_singleton_self _), hraises⟩
    · rintro ⟨other, hother, hraises⟩
      rcases List.mem_append.mp hother with hother | hlast
      · exact absurd (h.raised.mpr ⟨other, hother, hraises⟩) hstep.before
      · obtain rfl := List.mem_singleton.mp hlast
        exact hraises
  · intro hkept
    rw [hcount, hreleases]
    cases hstep with
    | fails hφ hleft hraises => exact absurd rfl hkept
    | _ => rfl
  · intro hone
    cases hstep with
    | releases => exact List.mem_append_right _ (List.mem_singleton_self _)
    | finishes => exact List.mem_append_left _ (h.released rfl)
    | _ => cases hone
  · rw [hcount, hfinishes]
    cases hstep with
    | fails hφ hleft hraises =>
        rw [not_finishes_of_raises hraises]
        cases φ
        case finished => exact absurd rfl hleft
        all_goals rfl
    | _ => rfl

/-- The run lemma. -/
theorem finallyBooks_of_keeps {final : ChatCalls} (h : (finallyProtocol app call l).Keeps .closing final) :
    FinallyBooks call ((finallyProtocol app call l).phase .closing final) final := by
  apply finally_tells finallyBooks_nil _ h
  intro φ ψ calls event hbooks hstep
  exact hbooks.snoc hstep

end Final

theorem usage_isOk (app : ChatApp) (call : ChatCall) (l : StreamLocals) :
    (l.usage app call).isOk = (app.tokenEstimator l.completionText).isOk := by
  unfold StreamLocals.usage usageFromStreamText
  cases app.tokenEstimator l.completionText with
  | ok completion => rfl
  | error exc => rfl

/-- The loop makes no call that is counted, and none that the cleanup does not survive. -/
theorem counts_of_loops {event : Event ChatOp ChatOp.Res PyExc} (h : event.op.Loops) :
    startsStream event = false ∧ asksRelease event = false ∧ finishesStream event = false ∧ ¬ CleanupRaises event := by
  obtain ⟨op, answer⟩ := event
  cases op
  case isDisconnected => exact ⟨rfl, rfl, rfl, id⟩
  case yieldEvent text => exact ⟨rfl, rfl, rfl, id⟩
  case recordStreamTtft => exact ⟨rfl, rfl, rfl, id⟩
  all_goals exact h.elim

theorem startsStream_of_settles {event : Event ChatOp ChatOp.Res PyExc} (h : event.op.Settles) :
    startsStream event = false := by
  obtain ⟨op, answer⟩ := event
  cases op
  case recordStreamStarted => exact h.elim
  all_goals rfl

section Asked

variable {call : ChatCall} {upstream : UpstreamStream} {loop final : ChatCalls}

theorem countP_askedCalls {kind : Event ChatOp ChatOp.Res PyExc → Bool} (hloop : ∀ event ∈ loop, kind event = false) :
    (askedCalls call upstream loop final).countP kind =
      (askedCalls call upstream [] []).countP kind + final.countP kind := by
  have hnone : loop.countP kind = 0 := by
    rw [List.countP_eq_zero]
    intro event hevent
    rw [hloop event hevent]
    exact Bool.false_ne_true
  calc (askedCalls call upstream loop final).countP kind
      = (askedCalls call upstream [] [] ++ (loop ++ final)).countP kind := rfl
    _ = _ := by rw [List.countP_append, List.countP_append, hnone, Nat.zero_add]

/-- Only the `finally` block can raise once the upstream has been asked. -/
theorem raises_askedCalls_iff (hloop : ∀ event ∈ loop, event.op.Loops) :
    (∃ event ∈ askedCalls call upstream loop final, CleanupRaises event) ↔ ∃ event ∈ final, CleanupRaises event := by
  constructor
  · rintro ⟨event, hevent, hraises⟩
    rcases mem_askedCalls.mp hevent with rfl | rfl | hlooped | hsettled
    · cases hraises
    · cases hraises
    · exact absurd hraises (counts_of_loops (hloop event hlooped)).2.2.2
    · exact ⟨event, hsettled, hraises⟩
  · rintro ⟨event, hevent, hraises⟩
    exact ⟨event, mem_askedCalls.mpr (.inr (.inr (.inr hevent))), hraises⟩

end Asked

/-- A streamed response is cleaned up exactly when no call outside of its `try` statement raises and the text that has been
sent can be counted. -/
theorem streamCleaned_iff_body {app : ChatApp} {call : ChatCall} {calls : ChatCalls} (h : StreamCalls app call calls)
    (httft : ∀ event ∈ calls, event.op = .recordStreamTtft → event.answer.isOk = true) :
    StreamCleaned call.lease calls ↔
      (∀ event ∈ calls, ¬ CleanupRaises event) ∧ (app.tokenEstimator (deliveredText app.loads calls)).isOk = true := by
  cases h with
  | unstarted exc =>
      refine iff_of_false ?_ ?_
      · intro hcleaned
        cases List.mem_singleton.mp hcleaned.released
      · intro hreturns
        exact hreturns.1 _ (List.mem_singleton_self _) rfl
  | unasked exc =>
      refine iff_of_false ?_ ?_
      · intro hcleaned
        rcases List.mem_cons.mp hcleaned.released with hfirst | hsecond
        · cases hfirst
        · cases List.mem_singleton.mp hsecond
      · intro hreturns
        exact hreturns.1 _ (.tail _ (.head _)) rfl
  | @run upstream loop final exit l last out hloop hfinal =>
      obtain ⟨hkeeps, hdone⟩ := (meets_streamFinally_done app call (l.after exit)).leaves hfinal
      obtain ⟨hraised, hreleases, hreleased, hfinishes⟩ := finallyBooks_of_keeps hkeeps
      have hloops := hloop.loops
      have hstarts : (askedCalls call upstream loop final).countP startsStream = 1 := by
        rw [countP_askedCalls fun event hevent => (counts_of_loops (hloops event hevent)).1]
        have hnone : final.countP startsStream = 0 := by
          rw [List.countP_eq_zero]
          intro event hevent
          rw [startsStream_of_settles (settles_of_final hkeeps event hevent)]
          exact Bool.false_ne_true
        rw [hnone]
        rfl
      have hasks : (askedCalls call upstream loop final).countP asksRelease = final.countP asksRelease := by
        rw [countP_askedCalls fun event hevent => (counts_of_loops (hloops event hevent)).2.1]
        exact Nat.zero_add _
      have hends : (askedCalls call upstream loop final).countP finishesStream = final.countP finishesStream := by
        rw [countP_askedCalls fun event hevent => (counts_of_loops (hloops event hevent)).2.2.1]
        exact Nat.zero_add _
      rw [← text_of_asked hloop hkeeps httft, ← usage_isOk app call]
      -- the gauge is as before only where the block has finished
      have hunbalanced : ∀ {φ : FinallyPhase}, (finallyProtocol app call (l.after exit)).phase .closing final = φ →
          φ.finishes = 0 → ¬ StreamCleaned call.lease (askedCalls call upstream loop final) := by
        intro φ hphase hzero hcleaned
        have hbalanced := hcleaned.balanced
        rw [hstarts, hends, hfinishes, hphase, hzero] at hbalanced
        omega
      rcases hdone with hfailed | ⟨hfinished, hestimate⟩ | ⟨hclosing, hestimate⟩
      · refine iff_of_false (hunbalanced hfailed rfl) ?_
        intro hreturns
        obtain ⟨event, hevent, hraises⟩ := (raises_askedCalls_iff hloops).mpr (hraised.mp hfailed)
        exact hreturns.1 event hevent hraises
      · rw [hfinished] at hraised hreleases hreleased hfinishes
        refine iff_of_true ?_ ⟨?_, hestimate⟩
        · constructor
          · exact mem_askedCalls.mpr (.inr (.inr (.inr (hreleased rfl))))
          · rw [hasks]
            exact hreleases (by decide)
          · rcases finalized_of_phase hkeeps with heq | heq | ⟨lease, actualTokens, releaseAll, hevent⟩
            · cases hfinished.symm.trans heq
            · cases hfinished.symm.trans heq
            · obtain ⟨φ, -, rfl, -⟩ := hkeeps.event hevent
              exact ⟨actualTokens, releaseAll, mem_askedCalls.mpr (.inr (.inr (.inr hevent)))⟩
          · rw [hstarts, hends, hfinishes]
            rfl
        · intro event hevent hraises
          cases hraised.mpr ((raises_askedCalls_iff hloops).mp ⟨event, hevent, hraises⟩)
      · refine iff_of_false (hunbalanced hclosing rfl) ?_
        intro hreturns
        rw [hestimate] at hreturns
        cases hreturns.2

section Handler

variable {app : ChatApp} {normalized : Except PyExc JsonObject} {auditService : Except PyExc Unit}
  {requestBody : ChatCompletionRequest} {state : Option AuthContext} {requestId : String}

/-- The calls of the handler of a streamed request that has been admitted: a step before the response raises, or the
response is returned. -/
inductive HandlerCalls (app : ChatApp) (normalized : Except PyExc JsonObject) (auditService : Except PyExc Unit)
    (admitted : Event ChatOp ChatOp.Res PyExc) (lease : AdmissionLease) : ChatCalls → Except PyExc ChatResponse → Prop
  | unprepared {exc : PyExc} (hraises : ¬ StepsReturn normalized auditService) :
      HandlerCalls app normalized auditService admitted lease [admitted] (.error exc)
  | unaudited {audit : AuditStart} {exc : PyExc} :
      HandlerCalls app normalized auditService admitted lease [admitted, ⟨.startAudit audit, .error exc⟩] (.error exc)
  | responds {audit : AuditStart} {auditRecordId : String} {call : ChatCall}
      (hsteps : StepsReturn normalized auditService) (hlease : call.lease = lease) :
      HandlerCalls app normalized auditService admitted lease [admitted, ⟨.startAudit audit, .ok auditRecordId⟩]
        (.ok (.stream (app.streamResponse call)))

theorem handlerCalls_of_traces (hstream : requestBody.stream = true) {calls : ChatCalls}
    {outcome : Except PyExc ChatResponse}
    (h : (app.handle normalized auditService requestBody state requestId).Traces calls outcome) :
    ((∀ authContext estimatedTokens lease, ⟨.admitRequest authContext estimatedTokens, .ok lease⟩ ∉ calls) ∧
      ∃ exc, outcome = .error exc) ∨
      ∃ authContext estimatedTokens lease, HandlerCalls app normalized auditService
        ⟨.admitRequest authContext estimatedTokens, .ok lease⟩ lease calls outcome := by
  have hnone : ∀ authContext estimatedTokens lease,
      ⟨.admitRequest authContext estimatedTokens, .ok lease⟩ ∉ ([] : ChatCalls) := fun _ _ _ => List.not_mem_nil
  unfold ChatApp.handle at h
  rcases Program.traces_lift_bind.mp h with ⟨exc, -, rfl, rfl⟩ | ⟨authContext, -, hallowed⟩
  · exact .inl ⟨hnone, exc, rfl⟩
  rcases Program.traces_lift_bind.mp hallowed with ⟨exc, -, rfl, rfl⟩ | ⟨_, -, hplan⟩
  · exact .inl ⟨hnone, exc, rfl⟩
  rcases Program.traces_lift_bind.mp hplan with ⟨exc, -, rfl, rfl⟩ | ⟨plan, -, hadmits⟩
  · exact .inl ⟨hnone, exc, rfl⟩
  rcases Program.traces_perform_bind.mp hadmits with ⟨exc, rfl, rfl⟩ | ⟨lease, prepare, rfl, hprepare⟩
  · refine .inl ⟨?_, exc, rfl⟩
    intro _ _ _ hadmitted
    cases List.mem_singleton.mp hadmitted
  refine .inr ⟨authContext, plan.estimatedTotalTokens, lease, ?_⟩
  rcases Program.traces_lift_bind.mp hprepare with ⟨exc, hraises, rfl, rfl⟩ | ⟨payload, hpayload, hlookup⟩
  · apply HandlerCalls.unprepared
    rw [StepsReturn, hraises]
    rintro ⟨hok, -⟩
    cases hok
  rcases Program.traces_lift_bind.mp hlookup with ⟨exc, hraises, rfl, rfl⟩ | ⟨_, hservice, hstart⟩
  · apply HandlerCalls.unprepared
    rw [StepsReturn, hraises]
    rintro ⟨-, hok⟩
    cases hok
  rcases Program.traces_perform_bind.mp hstart with ⟨exc, rfl, rfl⟩ | ⟨auditRecordId, respond, rfl, hrespond⟩
  · exact .unaudited
  rw [ChatApp.respond, hstream, if_pos rfl] at hrespond
  obtain ⟨rfl, rfl⟩ := hrespond
  refine .responds ⟨?_, ?_⟩ rfl
  · rw [hpayload]
    rfl
  · rw [hservice]
    rfl

/-- What the handler calls before the response is not counted. -/
theorem streamCleaned_admitted {authContext : AuthContext} {estimatedTokens : Int} {lease admitted : AdmissionLease}
    {audit : AuditStart} {auditRecordId : String} {calls : ChatCalls} :
    StreamCleaned lease (⟨.admitRequest authContext estimatedTokens, .ok admitted⟩ ::
      ⟨.startAudit audit, .ok auditRecordId⟩ :: calls) ↔ StreamCleaned lease calls := by
  have hmem : ∀ event : Event ChatOp ChatOp.Res PyExc, event.op.Settles →
      (event ∈ (⟨.admitRequest authContext estimatedTokens, .ok admitted⟩ ::
        ⟨.startAudit audit, .ok auditRecordId⟩ :: calls : ChatCalls) ↔ event ∈ calls) := by
    intro event hsettles
    rw [List.mem_cons, List.mem_cons]
    constructor
    · rintro (rfl | rfl | hevent)
      · exact hsettles.elim
      · exact hsettles.elim
      · exact hevent
    · exact fun hevent => .inr (.inr hevent)
  constructor
  · rintro ⟨hreleased, honce, ⟨actualTokens, releaseAll, hfinalized⟩, hbalanced⟩
    refine ⟨(hmem ⟨.releaseLease lease, .ok ()⟩ trivial).mp hreleased, honce, ?_, hbalanced⟩
    exact ⟨actualTokens, releaseAll, (hmem ⟨.finalizeTokens lease actualTokens releaseAll, .ok ()⟩ trivial).mp hfinalized⟩
  · rintro ⟨hreleased, honce, ⟨actualTokens, releaseAll, hfinalized⟩, hbalanced⟩
    refine ⟨(hmem ⟨.releaseLease lease, .ok ()⟩ trivial).mpr hreleased, honce, ?_, hbalanced⟩
    exact ⟨actualTokens, releaseAll, (hmem ⟨.finalizeTokens lease actualTokens releaseAll, .ok ()⟩ trivial).mpr hfinalized⟩

end Handler

/-- What the server runs after the handler has ended like this. -/
def ServesBody (iterated : Bool) (body : ChatCalls) (outcome : Except PyExc Unit) : Except PyExc ChatResponse → Prop
  | .ok (.stream response) => (if iterated then response else pure () : ChatProgram Unit).Traces body outcome
  | .ok (.json _) => body = []
  | .error _ => body = []

section Served

variable {app : ChatApp} {normalized : Except PyExc JsonObject} {auditService : Except PyExc Unit}
variable {requestBody : ChatCompletionRequest} {state : Option AuthContext} {requestId : String} {iterated : Bool}
variable {call : ChatCall} {body calls : ChatCalls} {outcome : Except PyExc Unit}
variable {authContext : AuthContext} {estimatedTokens : Int} {lease : AdmissionLease}

/-- What the server runs comes after what the handler calls. -/
theorem servesBody_of_traces
    (h : (app.serveStream normalized auditService requestBody state requestId iterated).Traces calls outcome) :
    ∃ handled body out, calls = handled ++ body ∧
      (app.handle normalized auditService requestBody state requestId).Traces handled out ∧
      ServesBody iterated body outcome out := by
  unfold ChatApp.serveStream at h
  rcases Program.traces_bind.mp h with ⟨exc, hhandled, -⟩ | ⟨response, handled, body, hcalls, hhandled, hbody⟩
  · exact ⟨calls, [], .error exc, (List.append_nil calls).symm, hhandled, rfl⟩
  · refine ⟨handled, body, .ok response, hcalls, hhandled, ?_⟩
    cases response with
    | json rendered => exact hbody.1
    | stream response => exact hbody

/-- Calls that settle nothing release nothing. -/
theorem not_streamCleaned (h : ∀ event ∈ calls, ¬ event.op.Settles) : ¬ StreamCleaned lease calls :=
  fun hcleaned => h _ hcleaned.released trivial

/-- A generator admits nothing: the lease is the one of its call. -/
theorem lease_of_responds (hbody : (app.streamResponse call).Traces body outcome) {audit : AuditStart}
    {answer : Except PyExc String} {authContext' : AuthContext} {estimatedTokens' : Int}
    (hadmitted : ⟨.admitRequest authContext estimatedTokens, .ok lease⟩ ∈
      (⟨.admitRequest authContext' estimatedTokens', .ok call.lease⟩ :: ⟨.startAudit audit, answer⟩ :: body : ChatCalls)) :
    call.lease = lease := by
  rcases List.mem_cons.mp hadmitted with hfirst | hlater
  · cases hfirst
    rfl
  rcases List.mem_cons.mp hlater with hsecond | hrest
  · cases hsecond
  · exact ((app.makes_streamResponse call).traces hbody _ hrest).elim

theorem any_auditStartRaised_of_responds (hbody : (app.streamResponse call).Traces body outcome) :
    body.any auditStartRaised = false := by
  rw [List.any_eq_false]
  rintro ⟨op, answer⟩ hevent
  have hop := (app.makes_streamResponse call).traces hbody _ hevent
  cases op
  case startAudit audit => exact hop.elim
  all_goals exact Bool.false_ne_true

/-- A request whose body is iterated is cleaned up as its generator is. -/
theorem streamCleaned_iff_iterated (hbody : (app.streamResponse call).Traces body outcome)
    (httft : ∀ event ∈ body, event.op = .recordStreamTtft → event.answer.isOk = true) {audit : AuditStart}
    {auditRecordId : String}
    (hcalls : calls = ⟨.admitRequest authContext estimatedTokens, .ok call.lease⟩ ::
      ⟨.startAudit audit, .ok auditRecordId⟩ :: body) :
    StreamCleaned call.lease calls ↔ (∀ event ∈ calls, ¬ CleanupRaises event) ∧
      (app.tokenEstimator (deliveredText app.loads calls)).isOk = true := by
  have htext : deliveredText app.loads calls = deliveredText app.loads body := by
    simp [hcalls, sentText]
  rw [htext, hcalls, streamCleaned_admitted, streamCleaned_iff_body (streamCalls_of_traces app call hbody) httft]
  refine and_congr_left' ?_
  constructor
  · intro hreturns event hevent
    rcases List.mem_cons.mp hevent with rfl | hevent
    · exact id
    rcases List.mem_cons.mp hevent with rfl | hevent
    · exact id
    · exact hreturns event hevent
  · exact fun hreturns event hevent => hreturns event (.tail _ (.tail _ hevent))

end Served

/-- **A streamed request is cleaned up** exactly when no step before the response raises, the body is iterated, no call
of the generator outside of its `try` statement raises, and the text that has been sent can be counted. -/
theorem stream_cleaned_iff (app : ChatApp) (normalized : Except PyExc JsonObject) (auditService : Except PyExc Unit)
    {requestBody : ChatCompletionRequest} (hstream : requestBody.stream = true) {state : Option AuthContext}
    {requestId : String} {iterated : Bool} {calls : ChatCalls} {outcome : Except PyExc Unit}
    (htraces : (app.serveStream normalized auditService requestBody state requestId iterated).Traces calls outcome)
    {authContext : AuthContext} {estimatedTokens : Int} {lease : AdmissionLease}
    (hadmitted : ⟨.admitRequest authContext estimatedTokens, .ok lease⟩ ∈ calls)
    (httft : ∀ event ∈ calls, event.op = .recordStreamTtft → event.answer.isOk = true) :
    StreamCleaned lease calls ↔
      HandlerPrepared normalized auditService calls ∧ iterated = true ∧ (∀ event ∈ calls, ¬ CleanupRaises event) ∧
        (app.tokenEstimator (deliveredText app.loads calls)).isOk = true := by
  rw [handlerPrepared_iff]
  obtain ⟨handled, body, out, rfl, hhandled, hbody⟩ := servesBody_of_traces htraces
  rcases handlerCalls_of_traces hstream hhandled with ⟨hnone, exc, rfl⟩ | ⟨authContext', estimatedTokens', lease', hcalls⟩
  · obtain rfl : body = [] := hbody
    rw [List.append_nil] at hadmitted
    exact absurd hadmitted (hnone _ _ _)
  cases hcalls with
  | unprepared hraises =>
      obtain rfl : body = [] := hbody
      exact iff_of_false (not_streamCleaned (by simp [ChatOp.Settles])) fun hreturns => hraises hreturns.1.1
  | unaudited =>
      obtain rfl : body = [] := hbody
      refine iff_of_false (not_streamCleaned (by simp [ChatOp.Settles])) ?_
      rintro ⟨⟨-, hstarted⟩, -⟩
      cases hstarted
  | @responds audit auditRecordId call hsteps hlease =>
      cases iterated with
      | false =>
          obtain ⟨rfl, -⟩ : body = [] ∧ outcome = .ok () := hbody
          exact iff_of_false (not_streamCleaned (by simp [ChatOp.Settles])) fun hreturns =>
            Bool.false_ne_true hreturns.2.1
      | true =>
          have hbody' : (app.streamResponse call).Traces body outcome := hbody
          obtain rfl := hlease
          obtain rfl := lease_of_responds hbody' hadmitted
          have hmeasured : ∀ event ∈ body, event.op = .recordStreamTtft → event.answer.isOk = true :=
            fun event hevent => httft event (List.mem_append_right _ hevent)
          refine (streamCleaned_iff_iterated hbody' hmeasured rfl).trans ?_
          refine ⟨fun hcleaned => ⟨⟨hsteps, ?_⟩, rfl, hcleaned⟩, fun hreturns => hreturns.2.2⟩
          rw [List.any_append, any_auditStartRaised_of_responds hbody', Bool.or_false]
          rfl

def streamRequest : ChatCompletionRequest := { plainRequest with stream := true }

/-- The streamed request, as the server runs it. -/
def streamHandler (iterated : Bool) : ChatProgram Unit :=
  chunkApp.serveStream (.ok (normalizeChatCompletionPayload streamRequest)) (.ok ()) streamRequest (some plainContext) "req"
    iterated

/-- Its calls, for a client that takes every event; the audit record is finalized as `audited` says. -/
def streamCalls (audited : Except PyExc Unit) : ChatCalls := (streamHandler true).trace (chunkReply (.ok ()) audited) ()

theorem admitted_streamCalls (audited : Except PyExc Unit) :
    ⟨.admitRequest plainContext 18, .ok ⟨0⟩⟩ ∈ streamCalls audited := .head _

/-- It is cleaned up. -/
theorem stream_cleaned_taken :
    ∃ outcome, (streamHandler true).Traces (streamCalls (.ok ())) outcome ∧ StreamCleaned ⟨0⟩ (streamCalls (.ok ())) := by
  have htraces := (streamHandler true).traces_trace (chunkReply (.ok ()) (.ok ())) ()
  refine ⟨_, htraces, ?_⟩
  apply (stream_cleaned_iff chunkApp _ _ rfl htraces (admitted_streamCalls _) ?_).mpr
  · refine ⟨handlerPrepared_iff.mpr ⟨⟨rfl, rfl⟩, rfl⟩, rfl, ?_, rfl⟩
    rintro ⟨op, answer⟩ hevent hraises
    have hanswer : answer = (chunkReply (.ok ()) (.ok ()) op ()).1 := Program.eq_of_mem_trace hevent
    rw [hanswer] at hraises
    cases op
    case collect event =>
      obtain ⟨exc, herror, -⟩ := hraises
      cases herror
    all_goals cases hraises
  · intro event hevent hop
    rw [Program.eq_of_mem_trace hevent, hop]
    rfl

/-- The audit record cannot be written. -/
def auditDown : PyExc := .exception none "connection refused"

/-- The audit record of a stream that has been sent to its end cannot be finalized: the slot is not released, and the stream
stays active. -/
theorem stream_not_cleaned :
    ¬ ∀ (app : ChatApp) (normalized : Except PyExc JsonObject) (auditService : Except PyExc Unit)
      (requestBody : ChatCompletionRequest) (state : Option AuthContext) (requestId : String) (iterated : Bool)
      (calls : ChatCalls) (outcome : Except PyExc Unit) (authContext : AuthContext) (estimatedTokens : Int)
      (lease : AdmissionLease), requestBody.stream = true →
      (app.serveStream normalized auditService requestBody state requestId iterated).Traces calls outcome →
      ⟨.admitRequest authContext estimatedTokens, .ok lease⟩ ∈ calls → StreamCleaned lease calls := by
  intro h
  have htraces := (streamHandler true).traces_trace (chunkReply (.ok ()) (.error auditDown)) ()
  have hcleaned := h chunkApp _ _ streamRequest _ _ true _ _ plainContext 18 ⟨0⟩ rfl htraces (admitted_streamCalls _)
  have hstarts : (streamCalls (.error auditDown)).countP startsStream = 1 := rfl
  have hfinishes : (streamCalls (.error auditDown)).countP finishesStream = 0 := rfl
  have hbalanced : (streamCalls (.error auditDown)).countP startsStream =
      (streamCalls (.error auditDown)).countP finishesStream := hcleaned.balanced
  rw [hstarts, hfinishes] at hbalanced
  cases hbalanced

end GpuInference
