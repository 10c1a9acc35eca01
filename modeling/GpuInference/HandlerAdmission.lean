import GpuInference.ChatCalls
import GpuInference.EffectCalm
import GpuInference.LeaseLifecycle
import GpuInference.QuotaCharge

/-!
The admission of a request that is not streamed. Once its audit record has been started the handler finalizes the tokens
of the request and releases its slot, whatever `Exception`s its steps raise. The steps between the admission and the
audit start are outside of the `try` statement, and when one of them raises the slot is never given back.
-/

open Effect

namespace GpuInference

/-- `create_chat_completion`, with what the normalization of the payload and the lookup of the audit service do. -/
def ChatApp.handle (self : ChatApp) (normalized : Except PyExc JsonObject) (auditService : Except PyExc Unit)
    (requestBody : ChatCompletionRequest) (state : Option AuthContext) (requestId : String) :
    ChatProgram ChatResponse := do
  let authContext ← Program.lift (match state with
    | some authContext => .ok authContext
    | none => .error (.app missingApiKeyError))
  Program.lift (ensureModelAllowed authContext requestBody.model)
  let plan ← Program.lift (buildTokenPlan requestBody self.tokenEstimator self.settings)
  let lease ← chatCall (.admitRequest authContext plan.estimatedTotalTokens)
  let payload ← Program.lift normalized
  Program.lift auditService
  let auditRecordId ← chatCall (.startAudit
    (buildAuditStart self.sha256 requestId authContext requestBody.model requestBody.messages))
  self.respond requestBody.stream
    { authContext, requestId, model := requestBody.model, plan, payload, lease, auditRecordId }

/-- Where these steps do not raise this is the handler. -/
theorem createChatCompletion_eq_handle (self : ChatApp) (requestBody : ChatCompletionRequest)
    (state : Option AuthContext) (requestId : String) :
    self.createChatCompletion requestBody state requestId =
      self.handle (.ok (normalizeChatCompletionPayload requestBody)) (.ok ()) requestBody state requestId := rfl

/-- The audit start has raised. -/
def auditStartRaised (event : Event ChatOp ChatOp.Res PyExc) : Bool :=
  match event.op with
  | .startAudit _ => !event.answer.isOk
  | _ => false

/-- The lease of a request, and whether its audit start has raised. -/
abbrev calmHandler : Protocol ChatOp ChatOp.Res PyExc (Option (LeasePhase × Bool)) :=
  ((leaseProtocol ChatOp.leaseUse ChatOp.granted).prod (.noting auditStartRaised)).calm fun _ => PyExc.isException

/-- The lease of a request whose audit record has been started. -/
def audited (lease : AdmissionLease) (estimatedTokens : Int) (first : Option (Int × Bool)) (released : Bool) :
    LeasePhase × Bool :=
  (.leased lease estimatedTokens first released, false)

section Handler

variable {app : ChatApp} {call : ChatCall} {estimatedTokens : Int}

/-- One pass of the accounting finalizes the tokens. -/
theorem follows_accounting_lease {α : Type} (usage : UsageRecord) (errorCode : Option String) {actualTokens : Int}
    {releaseAll : Bool} {rest : ChatProgram α} {first : Option (Int × Bool)}
    (hfirst : releaseAll = true ∨ first = none) {done : LeasePhase × Bool → Except PyExc α → Prop}
    (herror : ∀ charge exc, exc.isException = true →
      done (audited call.lease estimatedTokens (some charge) false) (.error exc))
    (hrest : ∀ charge, rest.Follows calmHandler (calmDone done)
      (some (audited call.lease estimatedTokens (some charge) false))) :
    (call.accounting usage errorCode actualTokens releaseAll rest).Follows calmHandler (calmDone done)
      (some (audited call.lease estimatedTokens first false)) := by
  obtain ⟨charge, hcharge⟩ : ∃ charge, ∀ answer,
      ((leaseProtocol ChatOp.leaseUse ChatOp.granted).prod (.noting auditStartRaised)).after
        (audited call.lease estimatedTokens first false) (.finalizeTokens call.lease actualTokens releaseAll) answer =
      audited call.lease estimatedTokens (some charge) false := by
    cases first with
    | none => exact ⟨(actualTokens, releaseAll), fun _ => rfl⟩
    | some first => exact ⟨first, fun _ => rfl⟩
  unfold ChatCall.accounting
  refine Program.follows_calm_perform_bind (by exact ⟨⟨_, _, _, rfl, hfirst⟩, trivial⟩) ?_ fun _ => ?_
  · intro exc hexc
    rw [hcharge]
    exact herror charge exc hexc
  rw [hcharge]
  have hraise := herror charge
  refine Program.follows_calm_perform_bind (by exact ⟨trivial, trivial⟩) hraise fun _ => ?_
  refine Program.follows_calm_perform_bind (by exact ⟨trivial, trivial⟩) hraise fun latencyMs => ?_
  refine Program.follows_calm_perform_bind (by exact ⟨trivial, trivial⟩) hraise fun _ => ?_
  let emitted (φ : LeasePhase × Bool) (outcome : Except PyExc Unit) : Prop :=
    φ = audited call.lease estimatedTokens (some charge) false ∧ outcome = .ok ()
  have hemit : ∀ event, (emitUsageAnalytics event).Follows calmHandler (calmDone emitted)
      (some (audited call.lease estimatedTokens (some charge) false)) := fun event =>
    Program.follows_calm_dropped (fun _ h => h) (by exact ⟨trivial, trivial⟩) fun _ => ⟨rfl, rfl⟩
  refine Program.follows_calm_bind (hemit _) ?_ ?_
  · rintro φ exc ⟨-, hok⟩
    cases hok
  · rintro φ value ⟨rfl, -⟩
    exact hrest charge

/-- The lease at the end of the `try` statement, and whether its body has returned. -/
def CompleteDone (lease : AdmissionLease) (estimatedTokens : Int) (φ : LeasePhase × Bool)
    (outcome : Except PyExc ChatResponse) : Prop :=
  match outcome with
  | .ok _ => ∃ charge, φ = audited lease estimatedTokens (some charge) false
  | .error exc => exc.isException = true ∧ ∃ first, φ = audited lease estimatedTokens first false

theorem follows_complete_lease (hestimator : ∀ text exc, app.tokenEstimator text = .error exc → exc.isException = true)
    (hrender : ∀ content exc, app.render content = .error exc → exc.isException = true) :
    (app.complete call).Follows calmHandler (calmDone (CompleteDone call.lease estimatedTokens))
      (some (audited call.lease estimatedTokens none false)) := by
  rw [complete_eq]
  refine Program.follows_calm_perform_bind (by exact ⟨trivial, trivial⟩) ?_ fun response => ?_
  · intro exc hexc
    exact ⟨hexc, none, rfl⟩
  cases husage : usageFromResponse response call.plan app.tokenEstimator with
  | error exc =>
      have hraised : CompleteDone call.lease estimatedTokens (audited call.lease estimatedTokens none false) (.error exc) :=
        ⟨usageFromResponse_raises hestimator husage, none, rfl⟩
      exact Program.calmDone_some hraised
  | ok usage =>
      rw [Program.lift_ok, Program.ret_bind]
      apply follows_accounting_lease usage none (.inr rfl)
      · intro charge exc hexc
        exact ⟨hexc, some charge, rfl⟩
      · intro charge
        cases hrendered : app.render response with
        | error exc =>
            have hraised : CompleteDone call.lease estimatedTokens
                (audited call.lease estimatedTokens (some charge) false) (.error exc) :=
              ⟨hrender response exc hrendered, some charge, rfl⟩
            exact Program.calmDone_some hraised
        | ok rendered =>
            have hreturned : ∀ response : ChatResponse,
                CompleteDone call.lease estimatedTokens (audited call.lease estimatedTokens (some charge) false)
                  (.ok response) :=
              fun _ => ⟨charge, rfl⟩
            exact Program.calmDone_some (hreturned _)

/-- The lease is closed. -/
def RespondDone (lease : AdmissionLease) (estimatedTokens : Int) (φ : LeasePhase × Bool) (_ : Except PyExc ChatResponse) :
    Prop :=
  ∃ charge, φ = audited lease estimatedTokens (some charge) true

theorem follows_respond_lease (hestimator : ∀ text exc, app.tokenEstimator text = .error exc → exc.isException = true)
    (hrender : ∀ content exc, app.render content = .error exc → exc.isException = true) :
    (app.respond false call).Follows calmHandler (calmDone (RespondDone call.lease estimatedTokens))
      (some (audited call.lease estimatedTokens none false)) := by
  rw [ChatApp.respond, if_neg Bool.false_ne_true]
  let handled (φ : LeasePhase × Bool) (_ : Except PyExc ChatResponse) : Prop :=
    ∃ charge, φ = audited call.lease estimatedTokens (some charge) false
  have hbody : (Program.tryExcept PyExc.isException (app.complete call) (ChatApp.fail call)).Follows calmHandler
      (calmDone handled) (some (audited call.lease estimatedTokens none false)) := by
    apply Program.follows_calm_tryExcept (follows_complete_lease hestimator hrender)
    · intro φ response hcomplete
      exact hcomplete
    · rintro φ exc ⟨-, first, rfl⟩ -
      rw [fail_eq]
      apply follows_accounting_lease _ _ (.inl rfl)
      · exact fun charge _ _ => ⟨charge, rfl⟩
      · intro charge
        have hfailed : handled (audited call.lease estimatedTokens (some charge) false) (.error exc) := ⟨charge, rfl⟩
        exact Program.calmDone_some hfailed
    · rintro φ exc ⟨hexc, -⟩ hcatches
      rw [hexc] at hcatches
      cases hcatches
  apply Program.follows_calm_tryFinally hbody
  rintro φ outcome ⟨charge, rfl⟩
  have hclosed : ∀ left : Except PyExc Unit, Program.finallyDone (RespondDone call.lease estimatedTokens) outcome
      (audited call.lease estimatedTokens (some charge) true) left := by
    intro left
    cases left with
    | ok _ => exact ⟨charge, rfl⟩
    | error exc => exact ⟨charge, rfl⟩
  exact Program.follows_calm_perform (by exact ⟨⟨_, _, _, rfl⟩, trivial⟩) (fun exc _ => hclosed _) fun _ => hclosed _

/-- Normalizing the payload and looking up the audit service do not raise. -/
def StepsReturn (normalized : Except PyExc JsonObject) (auditService : Except PyExc Unit) : Prop :=
  normalized.isOk = true ∧ auditService.isOk = true

/-- The lease at the end of the handler: there is none, or it is as it was admitted because a step before the `try`
statement has raised, or it is closed. -/
def HandleDone (normalized : Except PyExc JsonObject) (auditService : Except PyExc Unit) (φ : LeasePhase × Bool)
    (_ : Except PyExc ChatResponse) : Prop :=
  (φ.1 = .idle ∨ φ.1 = .refused) ∨
    (∃ lease estimatedTokens raised, φ = (.leased lease estimatedTokens none false, raised) ∧
      ¬ (StepsReturn normalized auditService ∧ raised = false)) ∨
    ∃ lease estimatedTokens charge, φ = audited lease estimatedTokens (some charge) true ∧
      StepsReturn normalized auditService

theorem follows_handle_lease (hestimator : ∀ text exc, app.tokenEstimator text = .error exc → exc.isException = true)
    (hrender : ∀ content exc, app.render content = .error exc → exc.isException = true)
    (normalized : Except PyExc JsonObject) (auditService : Except PyExc Unit) {requestBody : ChatCompletionRequest}
    (hstream : requestBody.stream = false) (state : Option AuthContext) (requestId : String) :
    (app.handle normalized auditService requestBody state requestId).Follows calmHandler
      (calmDone (HandleDone normalized auditService)) (some (.idle, false)) := by
  have hidle : ∀ outcome, HandleDone normalized auditService (.idle, false) outcome := fun _ => .inl (.inl rfl)
  unfold ChatApp.handle
  cases state with
  | none => exact Program.calmDone_some (hidle _)
  | some authContext =>
  cases hmodel : ensureModelAllowed authContext requestBody.model with
  | error exc =>
      simp only [Program.lift_ok, Program.lift_error, Program.bind_eq, Program.ret_bind, Program.raise_bind, hmodel]
      exact Program.calmDone_some (hidle _)
  | ok allowed =>
  cases hplan : buildTokenPlan requestBody app.tokenEstimator app.settings with
  | error exc =>
      simp only [Program.lift_ok, Program.lift_error, Program.bind_eq, Program.ret_bind, Program.raise_bind, hmodel]
      exact Program.calmDone_some (hidle _)
  | ok plan =>
  simp only [Program.lift_ok, Program.bind_eq, Program.ret_bind, hmodel]
  refine Program.follows_calm_perform_bind (by exact ⟨rfl, trivial⟩) (fun exc _ => .inl (.inr rfl)) fun lease => ?_
  have hheld : ∀ raised outcome, ¬ (StepsReturn normalized auditService ∧ raised = false) →
      HandleDone normalized auditService (.leased lease plan.estimatedTotalTokens none false, raised) outcome :=
    fun raised outcome hnot => .inr (.inl ⟨lease, plan.estimatedTotalTokens, raised, rfl, hnot⟩)
  cases normalized with
  | error exc => exact Program.calmDone_some (hheld false _ fun h => by cases h.1.1)
  | ok payload =>
  cases auditService with
  | error exc => exact Program.calmDone_some (hheld false _ fun h => by cases h.1.2)
  | ok service =>
  refine Program.follows_calm_perform_bind (by exact ⟨trivial, trivial⟩) ?_ fun auditRecordId => ?_
  · intro exc _
    exact hheld true _ fun h => by cases h.2
  · rw [hstream]
    apply (follows_respond_lease hestimator hrender).mono
    intro ψ outcome hclosed φ hφ
    obtain ⟨charge, rfl⟩ := hclosed φ hφ
    exact .inr (.inr ⟨lease, plan.estimatedTotalTokens, charge, rfl, rfl, rfl⟩)

end Handler

/-- The lease has been released and its tokens have been finalized. -/
def AdmissionClosed (lease : AdmissionLease) (calls : ChatCalls) : Prop :=
  (∃ event ∈ calls, event.op = .releaseLease lease) ∧
    ∃ event ∈ calls, ∃ actualTokens releaseAll, event.op = .finalizeTokens lease actualTokens releaseAll

/-- The steps between the admission and the `try` statement have not raised. -/
def HandlerPrepared (normalized : Except PyExc JsonObject) (auditService : Except PyExc Unit) (calls : ChatCalls) :
    Prop :=
  normalized.isOk = true ∧ auditService.isOk = true ∧
    ∀ event ∈ calls, ∀ audit, event.op = .startAudit audit → event.answer.isOk = true

theorem handlerPrepared_iff {normalized : Except PyExc JsonObject} {auditService : Except PyExc Unit}
    {calls : ChatCalls} : HandlerPrepared normalized auditService calls ↔
      StepsReturn normalized auditService ∧ calls.any auditStartRaised = false := by
  have hstarts : (∀ event ∈ calls, ∀ audit, event.op = .startAudit audit → event.answer.isOk = true) ↔
      calls.any auditStartRaised = false := by
    simp only [List.any_eq_false]
    refine forall₂_congr fun event _ => ?_
    obtain ⟨op, answer⟩ := event
    cases op
    case startAudit audit =>
      simp only [auditStartRaised, ChatOp.startAudit.injEq, Bool.not_eq_true', Bool.not_eq_false]
      exact ⟨fun h => h _ rfl, fun h _ _ => h⟩
    all_goals simp [auditStartRaised]
  rw [HandlerPrepared, StepsReturn, hstarts, and_assoc]

theorem admissionClosed_iff {lease : AdmissionLease} {calls : ChatCalls} : AdmissionClosed lease calls ↔
    (∃ event ∈ calls, event.op.leaseUse = .releases lease) ∧
      ∃ event ∈ calls, event.op.leaseUse.finalization lease ≠ none := by
  have hreleases : ∀ op : ChatOp, op = .releaseLease lease ↔ op.leaseUse = .releases lease := by
    intro op
    cases op <;> simp [ChatOp.leaseUse]
  have hfinalizes : ∀ op : ChatOp, (∃ actualTokens releaseAll, op = .finalizeTokens lease actualTokens releaseAll) ↔
      op.leaseUse.finalization lease ≠ none := by
    intro op
    cases op <;> simp [ChatOp.leaseUse, LeaseUse.finalization]
  simp only [AdmissionClosed, hreleases, hfinalizes]

/-- **The handler returns its admission** exactly when no step before its `try` statement raises; on a healthy keyspace
this is when the concurrency counter is as before. -/
theorem handler_returns_admission_iff (app : ChatApp)
    (hestimator : ∀ text exc, app.tokenEstimator text = .error exc → exc.isException = true)
    (hrender : ∀ content exc, app.render content = .error exc → exc.isException = true)
    (normalized : Except PyExc JsonObject) (auditService : Except PyExc Unit) {requestBody : ChatCompletionRequest}
    (hstream : requestBody.stream = false) {state : Option AuthContext} {requestId : String} {calls : ChatCalls}
    {outcome : Except PyExc ChatResponse}
    (htraces : (app.handle normalized auditService requestBody state requestId).Traces calls outcome)
    (hraises : RaisesExceptions calls) {authContext : AuthContext} {estimatedTokens : Int} {lease : AdmissionLease}
    (hadmitted : ⟨.admitRequest authContext estimatedTokens, .ok lease⟩ ∈ calls) :
    (AdmissionClosed lease calls ↔ HandlerPrepared normalized auditService calls) ∧
      ∀ (service : AdmissionService) (w w' : LeaseWorld) (slots tokens : Int),
        service.quotaReserver.redis = true →
        (leaseExec service authContext.apiKeyId ChatOp.leaseUse ChatOp.granted).Runs w calls w' →
        0 ≤ slots → 0 ≤ tokens → w.redis.ShowsCounters authContext.apiKeyId slots tokens →
          (w'.redis.shows (concurrencyKey authContext.apiKeyId) = .counter slots ↔
            HandlerPrepared normalized auditService calls) := by
  obtain ⟨hkeeps, hdone⟩ := (follows_handle_lease hestimator hrender normalized auditService hstream state
    requestId).calm_traces htraces hraises
  have hlease := hkeeps.left
  obtain ⟨last, released, hphase, hfinalized, hreleased⟩ := phase_admitted_uses hlease hadmitted rfl rfl
  obtain ⟨honce, -⟩ := phase_admitted hlease hadmitted rfl rfl
  rw [Protocol.phase_prod, Protocol.phase_noting, Bool.false_or, hphase] at hdone
  rw [admissionClosed_iff, handlerPrepared_iff, ← hreleased, ← hfinalized]
  have hends : (last = none ∧ released = false ∧
        ¬ (StepsReturn normalized auditService ∧ calls.any auditStartRaised = false)) ∨
      (last ≠ none ∧ released = true ∧ StepsReturn normalized auditService ∧
        calls.any auditStartRaised = false) := by
    rcases hdone with (hnone | hnone) | ⟨_, _, raised, heq, hnot⟩ | ⟨_, _, charge, heq, hsteps⟩
    · cases hnone
    · cases hnone
    · obtain ⟨hleased, hraised⟩ := Prod.mk.inj heq
      cases hleased
      exact .inl ⟨rfl, rfl, hraised ▸ hnot⟩
    · obtain ⟨hleased, hraised⟩ := Prod.mk.inj heq
      cases hleased
      exact .inr ⟨Option.some_ne_none charge, rfl, hsteps, hraised⟩
  constructor
  · rcases hends with ⟨rfl, rfl, hnot⟩ | ⟨hlast, rfl, hprepared⟩
    · exact iff_of_false (fun h => by cases h.1) hnot
    · exact iff_of_true ⟨rfl, hlast⟩ hprepared
  · intro service w w' slots tokens hredis hruns hslots htokens hstart
    have hbooks := books_runs chat_grantsWhenReturned hredis hslots htokens hruns hlease
      (fun event hevent other tokens huse => by rw [honce event hevent other tokens huse]) hstart
    rw [hphase] at hbooks
    obtain ⟨-, hshown, -⟩ := hbooks
    rcases hends with ⟨-, rfl, hnot⟩ | ⟨-, rfl, hprepared⟩
    · refine iff_of_false ?_ hnot
      intro hback
      rw [hback] at hshown
      have hmore : slots = slots + 1 := RedisValue.counter.inj hshown
      omega
    · exact iff_of_true hshown hprepared

/-- The answers to a plain request; the audit record is started as `audit` says. -/
def auditReply (audit : Except PyExc String) : (op : ChatOp) → Unit → Except PyExc op.Res × Unit
  | .admitRequest _ _, _ => (.ok ⟨0⟩, ())
  | .startAudit _, _ => (audit, ())
  | .createChatCompletion _, _ => (.ok [], ())
  | .finalizeTokens _ _ _, _ => (.ok (), ())
  | .recordUsage _, _ => (.ok (), ())
  | .elapsedMs, _ => (.ok 0, ())
  | .finalizeAudit _, _ => (.ok (), ())
  | .collect _, _ => (.ok true, ())
  | .releaseLease _, _ => (.ok (), ())
  | _, _ => (.error valueError, ())

/-- The handler of a plain request with this id. -/
def plainHandler (requestId : String) : ChatProgram ChatResponse :=
  plainApp.handle (.ok (normalizeChatCompletionPayload plainRequest)) (.ok ()) plainRequest (some plainContext) requestId

/-- A plain request returns its admission. -/
theorem handler_returns_admission_plain :
    ∃ calls outcome, (plainHandler "req").Traces calls outcome ∧ AdmissionClosed ⟨0⟩ calls := by
  have htraces := (plainHandler "req").traces_trace (auditReply (.ok "audit")) ()
  refine ⟨_, _, htraces, ?_⟩
  have hadmitted : ⟨.admitRequest plainContext 18, .ok ⟨0⟩⟩ ∈ (plainHandler "req").trace (auditReply (.ok "audit")) () :=
    .head _
  refine (handler_returns_admission_iff plainApp (fun _ _ h => by cases h) (fun _ _ h => by cases h) _ _ rfl htraces
    (raisesOnly_of_ok _ rfl) hadmitted).1.mpr ?_
  exact handlerPrepared_iff.mpr ⟨⟨rfl, rfl⟩, rfl⟩

/-- A client chooses an id of 81 characters: its audit record cannot be inserted. -/
def overlongId : String := String.ofList (List.replicate 81 'a')

def idTooLong : PyExc := .exception none "value too long for type character varying(80)"

/-- Its slot is not given back. -/
theorem handler_keeps_admission :
    ¬ ∀ (app : ChatApp), (∀ text exc, app.tokenEstimator text = .error exc → exc.isException = true) →
      (∀ content exc, app.render content = .error exc → exc.isException = true) →
      ∀ (normalized : Except PyExc JsonObject) (auditService : Except PyExc Unit) (requestBody : ChatCompletionRequest)
        (state : Option AuthContext) (requestId : String) (calls : ChatCalls) (outcome : Except PyExc ChatResponse)
        (authContext : AuthContext) (estimatedTokens : Int) (lease : AdmissionLease), requestBody.stream = false →
        (app.handle normalized auditService requestBody state requestId).Traces calls outcome →
        RaisesExceptions calls → ⟨.admitRequest authContext estimatedTokens, .ok lease⟩ ∈ calls →
          AdmissionClosed lease calls := by
  intro h
  have htraces := (plainHandler overlongId).traces_trace (auditReply (.error idTooLong)) ()
  have hraises : RaisesExceptions ((plainHandler overlongId).trace (auditReply (.error idTooLong)) ()) := by
    intro event hevent exc hanswer
    rcases List.mem_cons.mp hevent with rfl | hevent
    · cases hanswer
    · obtain rfl := List.mem_singleton.mp hevent
      cases hanswer
      rfl
  have hclosed := h plainApp (fun _ _ h => by cases h) (fun _ _ h => by cases h) _ _ plainRequest _ _ _ _ plainContext 18
    ⟨0⟩ rfl htraces hraises (.head _)
  obtain ⟨⟨event, hevent, hop⟩, -⟩ := hclosed
  rcases List.mem_cons.mp hevent with rfl | hevent
  · cases hop
  · obtain rfl := List.mem_singleton.mp hevent
    cases hop

end GpuInference
