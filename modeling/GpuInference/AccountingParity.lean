import GpuInference.ChatAccounting

/-!
The two copies of the request lifecycle, side by side: a chat request that is answered at once, and the
same request as a batch job. Each run leaves a ledger of its finalizations, of what it writes to the audit
record and of the events it collects. The copies agree on a request that is completed; the handler of the
worker records no prompt tokens and collects no event.
-/

open Effect

namespace GpuInference

/-- The status and the token counts that a usage is recorded with. -/
structure RecordedUsage where
  status : UsageStatus
  promptTokens : Option Int
  completionTokens : Option Int
  totalTokens : Option Int
  deriving DecidableEq, Repr

def UsageRecord.recorded (usage : UsageRecord) : RecordedUsage :=
  ⟨usage.status, some usage.promptTokens, some usage.completionTokens, some usage.totalTokens⟩

def AuditFinal.recorded (final : AuditFinal) : RecordedUsage :=
  ⟨final.status, final.promptTokens, final.completionTokens, final.totalTokens⟩

def UsageEvent.recorded (event : UsageEvent) : RecordedUsage :=
  ⟨event.status, some event.promptTokens, some event.completionTokens, some event.totalTokens⟩

/-- What the two paths are compared on: the arguments of `finalize_tokens`, what is written to the audit
record, and the usage of the events that are handed to the collector. -/
structure Ledger where
  finalizations : List (Int × Bool)
  audits : List RecordedUsage
  events : List RecordedUsage
  deriving DecidableEq, Repr

namespace Ledger

def empty : Ledger := ⟨[], [], []⟩

/-- The tokens have been finalized and the audit record has been written. -/
def settle (ledger : Ledger) (usage : UsageRecord) (actualTokens : Int) (releaseAll : Bool) : Ledger :=
  { ledger with
    finalizations := ledger.finalizations ++ [(actualTokens, releaseAll)]
    audits := ledger.audits ++ [usage.recorded] }

def emit (ledger : Ledger) (usage : UsageRecord) : Ledger :=
  { ledger with events := ledger.events ++ [usage.recorded] }

end Ledger

/-- What both runs meet: the answer of admission to an API key and an estimate, and the upstream. -/
structure Inference where
  admission : String → Int → Except PyExc AdmissionLease
  completion : JsonObject → Except PyExc JsonObject

/-- What may differ: the id of the audit record, the clock and the room in the queue of the collector. -/
structure Surroundings where
  auditId : String
  elapsed : Ledger → Int
  collected : Ledger → Bool

/-- The answer to a call of the handler, with admission and audit healthy. -/
def Inference.answer (inference : Inference) (around : Surroundings) :
    (op : ChatOp) → Ledger → Except PyExc op.Res × Ledger
  | .admitRequest authContext estimatedTokens, l =>
      (inference.admission authContext.apiKeyId estimatedTokens, l)
  | .startAudit _, l => (.ok around.auditId, l)
  | .createChatCompletion payload, l => (inference.completion payload, l)
  | .finalizeTokens _ actualTokens releaseAll, l =>
      (.ok (), { l with finalizations := l.finalizations ++ [(actualTokens, releaseAll)] })
  | .finalizeAudit final, l => (.ok (), { l with audits := l.audits ++ [final.recorded] })
  | .collect event, l => (.ok (around.collected l), { l with events := l.events ++ [event.recorded] })
  | .elapsedMs, l => (.ok (around.elapsed l), l)
  | .streamChatCompletion _, l => (.ok ⟨[], none⟩, l)
  | .isDisconnected, l => (.ok false, l)
  | .releaseLease _, l => (.ok (), l)
  | .yieldEvent _, l => (.ok (), l)
  | .closeStream, l => (.ok (), l)
  | .recordUsage _, l => (.ok (), l)
  | .recordStreamStarted, l => (.ok (), l)
  | .recordStreamTtft, l => (.ok (), l)
  | .recordStreamFinished, l => (.ok (), l)

/-- A job that the worker takes from the queue, as it is stored and as it is once it is running, and what
the store answers to the end of the job. -/
structure QueuedJob where
  id : String
  stored : BatchJobRecord
  running : BatchJobRecord
  succeeded : JsonObject → JsonObject → Except PyExc (Option BatchJobRecord)
  failed : Option String → String → Except PyExc (Option BatchJobRecord)
  requestHex : String
  live : stored.status ≠ .cancelled

/-- The answer to a call of the worker. -/
def Inference.batchAnswer (inference : Inference) (around : Surroundings) (job : QueuedJob) :
    (op : BatchOp) → Ledger → Except PyExc op.Res × Ledger
  | .dequeue, l => (.ok (some job.id), l)
  | .get _, l => (.ok (some job.stored), l)
  | .shouldRunJob, l => (.ok true, l)
  | .transition _ _, l => (.ok (some job.running), l)
  | .uuid4, l => (.ok job.requestHex, l)
  | .admitRequest authContext estimatedTokens, l =>
      (inference.admission authContext.apiKeyId estimatedTokens, l)
  | .startAudit _, l => (.ok around.auditId, l)
  | .createChatCompletion payload, l => (inference.completion payload, l)
  | .finalizeTokens _ actualTokens releaseAll, l =>
      (.ok (), { l with finalizations := l.finalizations ++ [(actualTokens, releaseAll)] })
  | .finalizeAudit final, l => (.ok (), { l with audits := l.audits ++ [final.recorded] })
  | .collect event, l => (.ok (around.collected l), { l with events := l.events ++ [event.recorded] })
  | .elapsedMs, l => (.ok (around.elapsed l), l)
  | .markSucceeded _ result usage, l => (job.succeeded result usage, l)
  | .markFailed _ errorCode errorMessage, l => (job.failed errorCode errorMessage, l)
  | .releaseLease _, l => (.ok (), l)
  | .enqueue _, l => (.ok (), l)
  | .contains _, l => (.ok true, l)
  | .create _ _ _, l => (.ok job.stored, l)
  | .listRecoverable _, l => (.ok [], l)

/-- The upstream answer to a planned request, with the usage that is read off it. -/
def Inference.attempt (inference : Inference) (estimator : TokenEstimator) (plan : TokenPlan)
    (payload : JsonObject) : Except PyExc (JsonObject × UsageRecord) :=
  (inference.completion payload).bind fun response =>
    (usageFromResponse response plan estimator).map fun usage => (response, usage)

/-- Whatever raises while the request is completed raises an `Exception`. -/
structure Inference.RaisesExceptions (inference : Inference) (app : ChatApp) (job : QueuedJob) : Prop where
  completion : ∀ payload exc, inference.completion payload = .error exc → exc.isException = true
  estimator : ∀ text exc, app.tokenEstimator text = .error exc → exc.isException = true
  render : ∀ response exc, app.render response = .error exc → exc.isException = true
  succeeded : ∀ result usage exc, job.succeeded result usage = .error exc → exc.isException = true

theorem Inference.RaisesExceptions.attempt {inference : Inference} {app : ChatApp} {job : QueuedJob}
    (h : inference.RaisesExceptions app job) {plan : TokenPlan} {payload : JsonObject} {exc : PyExc}
    (hattempt : inference.attempt app.tokenEstimator plan payload = .error exc) :
    exc.isException = true := by
  rcases bind_eq_error.mp hattempt with hcompletion | ⟨response, -, hattempt⟩
  · exact h.completion _ _ hcompletion
  · cases husage : usageFromResponse response plan app.tokenEstimator with
    | error raised =>
        rw [husage] at hattempt
        cases hattempt
        exact usageFromResponse_raises h.estimator husage
    | ok usage =>
        rw [husage] at hattempt
        cases hattempt

/-- The ledger of a chat request that was admitted, by the upstream answer. -/
def ChatApp.ledger (app : ChatApp) (plan : TokenPlan) : Except PyExc (JsonObject × UsageRecord) → Ledger
  | .error _ =>
      (Ledger.empty.settle ⟨plan.promptTokens, 0, 0, .failed⟩ 0 true).emit
        ⟨plan.promptTokens, 0, 0, .failed⟩
  | .ok (response, usage) =>
      let completed := (Ledger.empty.settle usage usage.totalTokens false).emit usage
      match app.render response with
      | .ok _ => completed
      | .error _ =>
          (completed.settle ⟨plan.promptTokens, 0, 0, .failed⟩ 0 true).emit
            ⟨plan.promptTokens, 0, 0, .failed⟩

section Online

variable {inference : Inference} {around : Surroundings} {app : ChatApp} {job : QueuedJob}

/-- One pass of the accounting. -/
theorem run_accounting_ledger {α : Type} (call : ChatCall) (usage : UsageRecord)
    (errorCode : Option String) (actualTokens : Int) (releaseAll : Bool) (rest : ChatProgram α)
    (l : Ledger) :
    (call.accounting usage errorCode actualTokens releaseAll rest).run (inference.answer around) l =
      rest.run (inference.answer around) ((l.settle usage actualTokens releaseAll).emit usage) := rfl

theorem run_fail_ledger (call : ChatCall) (exc : PyExc) (l : Ledger) :
    (ChatApp.fail call exc).run (inference.answer around) l =
      (.error exc, (l.settle (ChatApp.failedUsage call) 0 true).emit (ChatApp.failedUsage call)) := by
  rw [fail_eq, run_accounting_ledger]
  rfl

/-- The body of the `try` statement. -/
theorem run_complete_ledger (call : ChatCall) (l : Ledger) :
    (app.complete call).run (inference.answer around) l =
      match inference.attempt app.tokenEstimator call.plan call.payload with
      | .error exc => (.error exc, l)
      | .ok (response, usage) =>
          ((app.render response).map fun rendered =>
            .json { rendered with xRequestId := some call.requestId },
            (l.settle usage usage.totalTokens false).emit usage) := by
  rw [complete_eq, Program.run_bind, chatCall, Program.run_perform]
  simp only [Inference.answer, Inference.attempt]
  cases hcompletion : inference.completion call.payload with
  | error exc => rfl
  | ok response =>
      simp only [Except.bind]
      cases usageFromResponse response call.plan app.tokenEstimator with
      | error exc => rfl
      | ok usage =>
          rw [Program.lift_ok, Program.ret_bind, run_accounting_ledger]
          simp only [Except.map]
          cases app.render response with
          | error exc => rfl
          | ok rendered => rfl

/-- The ledger of a request that was admitted. -/
theorem ledger_respond (h : inference.RaisesExceptions app job) (call : ChatCall) :
    ((app.respond false call).run (inference.answer around) .empty).2 =
      app.ledger call.plan (inference.attempt app.tokenEstimator call.plan call.payload) := by
  rw [ChatApp.respond, if_neg Bool.false_ne_true, Program.run_tryFinally, Program.run_tryExcept,
    run_complete_ledger]
  cases hattempt : inference.attempt app.tokenEstimator call.plan call.payload with
  | error exc =>
      simp only [h.attempt hattempt, if_true, run_fail_ledger]
      rfl
  | ok answer =>
      obtain ⟨response, usage⟩ := answer
      cases hrender : app.render response with
      | error exc =>
          simp only [hrender, Except.map, h.render _ _ hrender, if_true, run_fail_ledger, ChatApp.ledger]
          rfl
      | ok rendered =>
          simp only [hrender, Except.map, ChatApp.ledger]
          rfl

/-- The ledger of a request: nothing is recorded for one that is refused. -/
theorem ledger_online (h : inference.RaisesExceptions app job) {request : ChatCompletionRequest}
    {authContext : AuthContext} (hallowed : ensureModelAllowed authContext request.model = .ok ())
    (hstream : request.stream = false) (requestId : String) :
    ((app.createChatCompletion request (some authContext) requestId).run
      (inference.answer around) .empty).2 =
        match buildTokenPlan request app.tokenEstimator app.settings with
        | .error _ => .empty
        | .ok plan =>
            match inference.admission authContext.apiKeyId plan.estimatedTotalTokens with
            | .error _ => .empty
            | .ok _ => app.ledger plan
                (inference.attempt app.tokenEstimator plan (normalizeChatCompletionPayload request)) := by
  unfold ChatApp.createChatCompletion
  simp only [Program.bind_eq, Program.lift_ok, Program.ret_bind, hallowed, hstream]
  cases buildTokenPlan request app.tokenEstimator app.settings with
  | error exc => rfl
  | ok plan =>
      rw [Program.lift_ok, Program.ret_bind, Program.run_bind, chatCall, Program.run_perform]
      simp only [Inference.answer]
      cases inference.admission authContext.apiKeyId plan.estimatedTotalTokens with
      | error exc => rfl
      | ok lease =>
          exact ledger_respond h ⟨authContext, requestId, request.model, plan,
            normalizeChatCompletionPayload request, lease, around.auditId⟩

end Online

/-- The ledger of a job that was admitted, by the upstream answer. -/
def QueuedJob.ledger (job : QueuedJob) : Except PyExc (JsonObject × UsageRecord) → Ledger
  | .error _ => Ledger.empty.settle ⟨0, 0, 0, .failed⟩ 0 true
  | .ok (response, usage) =>
      let completed := Ledger.empty.settle usage usage.totalTokens false
      match job.succeeded response
        (usageDict usage.promptTokens usage.completionTokens usage.totalTokens) with
      | .ok _ => completed.emit usage
      | .error _ => completed.settle ⟨0, 0, 0, .failed⟩ 0 true

section Batch

variable {inference : Inference} {around : Surroundings} {app : ChatApp} {worker : BatchWorker}
  {job : QueuedJob}

/-- The handler and the `finally` block of a job that was admitted and whose record was started. -/
theorem run_fail_job (inference : Inference) (around : Surroundings) (job : QueuedJob) (exc : PyExc)
    (lease : AdmissionLease) (recordId : String) (l : Ledger) :
    ∃ outcome, (BatchWorker.fail job.id exc ⟨some recordId, some lease⟩).run
      (inference.batchAnswer around job) l =
        (.ok (outcome, ⟨some recordId, some lease⟩), l.settle ⟨0, 0, 0, .failed⟩ 0 true) := by
  have hrun : (BatchWorker.fail job.id exc ⟨some recordId, some lease⟩).run
      (inference.batchAnswer around job) l =
        ((Block.await (batchCall (.markFailed job.id (exc.codeOr "batch_job_failed") exc.text)) >>=
          fun _ => pure true : WorkerBlock Bool) ⟨some recordId, some lease⟩).run
            (inference.batchAnswer around job) (l.settle ⟨0, 0, 0, .failed⟩ 0 true) := rfl
  rw [hrun, batchCall, Block.run_perform_bind]
  simp only [Inference.batchAnswer]
  cases job.failed (exc.codeOr "batch_job_failed") exc.text with
  | error exc => exact ⟨_, rfl⟩
  | ok record => exact ⟨_, rfl⟩

/-- The body of the `try` statement, for a job that is admitted. -/
theorem run_complete_job (around : Surroundings) (hcollector : worker.analyticsCollector = true)
    (requestId : String) (authContext : AuthContext) {request : ChatCompletionRequest} {plan : TokenPlan}
    {lease : AdmissionLease}
    (hrequest : chatRequestFromBatch worker.lax job.running = .ok request)
    (hplan : buildTokenPlan request worker.tokenEstimator worker.settings = .ok plan)
    (hlease : inference.admission authContext.apiKeyId plan.estimatedTotalTokens = .ok lease) (l : Ledger) :
    (worker.complete job.id job.running requestId authContext ⟨none, none⟩).run
      (inference.batchAnswer around job) l =
        match inference.attempt worker.tokenEstimator plan (normalizeChatCompletionPayload request) with
        | .error exc => (.ok (.error exc, ⟨some around.auditId, some lease⟩), l)
        | .ok (response, usage) =>
            match job.succeeded response
              (usageDict usage.promptTokens usage.completionTokens usage.totalTokens) with
            | .error exc =>
                (.ok (.error exc, ⟨some around.auditId, some lease⟩),
                  l.settle usage usage.totalTokens false)
            | .ok _ =>
                (.ok (.ok true, ⟨some around.auditId, some lease⟩),
                  (l.settle usage usage.totalTokens false).emit usage) := by
  rw [BatchWorker.complete, hrequest, Block.lift_ok_bind, hplan, Block.lift_ok_bind, batchCall,
    Block.run_perform_bind]
  simp only [Inference.batchAnswer, hlease]
  show ((Block.await (batchCall (.createChatCompletion (normalizeChatCompletionPayload request))) >>= _ :
    WorkerBlock Bool) ⟨some around.auditId, some lease⟩).run _ l = _
  rw [batchCall, Block.run_perform_bind]
  simp only [Inference.batchAnswer, Inference.attempt]
  cases hcompletion : inference.completion (normalizeChatCompletionPayload request) with
  | error exc => rfl
  | ok response =>
      simp only [Except.bind]
      cases usageFromResponse response plan worker.tokenEstimator with
      | error exc => rfl
      | ok usage =>
          rw [Block.lift_ok_bind]
          show ((Block.await (batchCall (.markSucceeded job.id response _)) >>= _ :
            WorkerBlock Bool) ⟨some around.auditId, some lease⟩).run _
              (l.settle usage usage.totalTokens false) = _
          rw [batchCall, Block.run_perform_bind]
          simp only [Inference.batchAnswer, Except.map]
          cases job.succeeded response _ with
          | error exc => rfl
          | ok record =>
              rw [BatchWorker.emitUsageEvent, hcollector]
              rfl

/-- A job that has been picked up is run. -/
theorem run_processOne :
    worker.processOne.run (inference.batchAnswer around job) .empty =
      (worker.runJob job.id job.running).run (inference.batchAnswer around job) .empty := by
  show (if job.stored.status = .cancelled then pure false
    else worker.postpones.bind _ : BatchProgram Bool).run _ _ = _
  rw [if_neg job.live, BatchWorker.postpones]
  split
  · rfl
  · rfl

/-- The lease is released, and the job ends. -/
theorem ledger_leave (outcome : Except PyExc Bool) (l : WorkerLocals) (ledger : Ledger) :
    ((((BatchWorker.leave l).bind (Block.conclude outcome)).bind fun left => Program.lift left.1).run
      (inference.batchAnswer around job) ledger).2 = ledger := by
  obtain ⟨recordId, lease⟩ := l
  cases lease with
  | none => cases outcome <;> rfl
  | some lease => cases outcome <;> rfl

/-- The `try` statement decides the ledger of a job. -/
theorem ledger_runJob {left : Except PyExc Bool × WorkerLocals} {ledger : Ledger}
    (h : (Block.tryExcept PyExc.isException (worker.complete job.id job.running ("req_" ++ job.requestHex)
      ⟨job.running.apiKeyId, job.running.userId, job.running.projectId, none⟩)
      (BatchWorker.fail job.id) ⟨none, none⟩).run (inference.batchAnswer around job) .empty =
        (.ok left, ledger)) :
    (worker.processOne.run (inference.batchAnswer around job) .empty).2 = ledger := by
  rw [run_processOne]
  show ((Block.tryFinally _ BatchWorker.leave).toProgram ⟨none, none⟩ |>.run _ Ledger.empty).2 = _
  rw [Block.toProgram, Block.tryFinally, Program.bind_assoc, Program.run_bind, h]
  exact ledger_leave left.1 left.2 ledger

/-- A job that is refused before it has a lease records nothing. -/
theorem ledger_refused {exc : PyExc}
    (h : (worker.complete job.id job.running ("req_" ++ job.requestHex)
      ⟨job.running.apiKeyId, job.running.userId, job.running.projectId, none⟩ ⟨none, none⟩).run
        (inference.batchAnswer around job) .empty = (.ok (.error exc, ⟨none, none⟩), .empty)) :
    (worker.processOne.run (inference.batchAnswer around job) .empty).2 = .empty := by
  have hhandle : ∃ left, (Block.handle PyExc.isException (BatchWorker.fail job.id)
      (.error exc, ⟨none, none⟩)).run (inference.batchAnswer around job) .empty =
        (.ok left, Ledger.empty) := by
    rw [Block.handle]
    split
    · show ∃ left, ((Block.await (batchCall
        (.markFailed job.id (exc.codeOr "batch_job_failed") exc.text)) >>= fun _ => pure true :
          WorkerBlock Bool) ⟨none, none⟩).run (inference.batchAnswer around job) Ledger.empty = _
      rw [batchCall, Block.run_perform_bind]
      simp only [Inference.batchAnswer]
      cases job.failed (exc.codeOr "batch_job_failed") exc.text with
      | error exc => exact ⟨_, rfl⟩
      | ok record => exact ⟨_, rfl⟩
    · exact ⟨_, rfl⟩
  obtain ⟨left, hleft⟩ := hhandle
  apply ledger_runJob
  rw [Block.run_tryExcept, h]
  exact hleft

/-- The ledger of a job that is admitted. -/
theorem ledger_admitted (hcollector : worker.analyticsCollector = true)
    (h : inference.RaisesExceptions app job) (hestimator : worker.tokenEstimator = app.tokenEstimator)
    {request : ChatCompletionRequest} {plan : TokenPlan} {lease : AdmissionLease}
    (hrequest : chatRequestFromBatch worker.lax job.running = .ok request)
    (hplan : buildTokenPlan request worker.tokenEstimator worker.settings = .ok plan)
    (hlease : inference.admission job.running.apiKeyId plan.estimatedTotalTokens = .ok lease) :
    (worker.processOne.run (inference.batchAnswer around job) .empty).2 =
      job.ledger (inference.attempt app.tokenEstimator plan (normalizeChatCompletionPayload request)) := by
  have hcomplete := run_complete_job around hcollector ("req_" ++ job.requestHex)
    ⟨job.running.apiKeyId, job.running.userId, job.running.projectId, none⟩ hrequest hplan hlease .empty
  rw [hestimator] at hcomplete
  cases hattempt : inference.attempt app.tokenEstimator plan (normalizeChatCompletionPayload request) with
  | error exc =>
      rw [hattempt] at hcomplete
      obtain ⟨outcome, hfail⟩ := run_fail_job inference around job exc lease around.auditId .empty
      apply ledger_runJob
      rw [Block.run_tryExcept, hcomplete]
      simp only [Block.handle, h.attempt hattempt, if_true]
      exact hfail
  | ok answer =>
      obtain ⟨response, usage⟩ := answer
      rw [hattempt] at hcomplete
      simp only [QueuedJob.ledger]
      simp only at hcomplete
      cases hsucceeded : job.succeeded response
        (usageDict usage.promptTokens usage.completionTokens usage.totalTokens) with
      | error exc =>
          rw [hsucceeded] at hcomplete
          obtain ⟨outcome, hfail⟩ := run_fail_job inference around job exc lease around.auditId
            (Ledger.empty.settle usage usage.totalTokens false)
          apply ledger_runJob
          rw [Block.run_tryExcept, hcomplete]
          simp only [Block.handle, h.succeeded _ _ _ hsucceeded, if_true]
          exact hfail
      | ok record =>
          rw [hsucceeded] at hcomplete
          apply ledger_runJob
          rw [Block.run_tryExcept, hcomplete]
          rfl

/-- The ledger of a job, as of a chat request. -/
theorem ledger_batch (hcollector : worker.analyticsCollector = true)
    (h : inference.RaisesExceptions app job) (hestimator : worker.tokenEstimator = app.tokenEstimator)
    (hsettings : worker.settings = app.settings) {request : ChatCompletionRequest}
    (hrequest : chatRequestFromBatch worker.lax job.running = .ok request) :
    (worker.processOne.run (inference.batchAnswer around job) .empty).2 =
      match buildTokenPlan request app.tokenEstimator app.settings with
      | .error _ => .empty
      | .ok plan =>
          match inference.admission job.running.apiKeyId plan.estimatedTotalTokens with
          | .error _ => .empty
          | .ok _ => job.ledger
              (inference.attempt app.tokenEstimator plan (normalizeChatCompletionPayload request)) := by
  cases hplan : buildTokenPlan request app.tokenEstimator app.settings with
  | error exc =>
      apply ledger_refused
      rw [BatchWorker.complete, hrequest, Block.lift_ok_bind, hestimator, hsettings, hplan]
      rfl
  | ok plan =>
      have hplanned := hplan
      rw [← hestimator, ← hsettings] at hplanned
      cases hlease : inference.admission job.running.apiKeyId plan.estimatedTotalTokens with
      | error exc =>
          simp only [hlease]
          apply ledger_refused
          rw [BatchWorker.complete, hrequest, Block.lift_ok_bind, hplanned, Block.lift_ok_bind, batchCall,
            Block.run_perform_bind]
          simp only [Inference.batchAnswer, hlease]
          rfl
      | ok lease =>
          simp only [hlease]
          exact ledger_admitted hcollector h hestimator hrequest hplanned hlease

end Batch

/-- The two paths are given the same request, by the same key, under the same settings. -/
structure SameRequest (app : ChatApp) (worker : BatchWorker) (authContext : AuthContext)
    (request : ChatCompletionRequest) (job : QueuedJob) : Prop where
  tokenEstimator : worker.tokenEstimator = app.tokenEstimator
  settings : worker.settings = app.settings
  collector : worker.analyticsCollector = true
  allowed : ensureModelAllowed authContext request.model = .ok ()
  stream : request.stream = false
  stored : chatRequestFromBatch worker.lax job.running = .ok request
  apiKeyId : job.running.apiKeyId = authContext.apiKeyId

/-- If the request is planned and admitted, then the upstream answers with a usage that can be read, the
response can be rendered, and the store takes the result of the job. -/
def Inference.Completes (inference : Inference) (app : ChatApp) (job : QueuedJob)
    (request : ChatCompletionRequest) : Prop :=
  ∀ plan lease, buildTokenPlan request app.tokenEstimator app.settings = .ok plan →
    inference.admission job.running.apiKeyId plan.estimatedTotalTokens = .ok lease →
      ∃ response usage rendered record,
        inference.completion (normalizeChatCompletionPayload request) = .ok response ∧
        usageFromResponse response plan app.tokenEstimator = .ok usage ∧
        app.render response = .ok rendered ∧
        job.succeeded response
          (usageDict usage.promptTokens usage.completionTokens usage.totalTokens) = .ok record

/-- The ledgers of an admitted request agree when it is completed on both paths. Otherwise the handler of
the route has collected an event that the worker has not. -/
theorem ledger_eq_iff (inference : Inference) (app : ChatApp) (job : QueuedJob) (plan : TokenPlan)
    (payload : JsonObject) :
    app.ledger plan (inference.attempt app.tokenEstimator plan payload) =
        job.ledger (inference.attempt app.tokenEstimator plan payload) ↔
      ∃ response usage rendered record, inference.completion payload = .ok response ∧
        usageFromResponse response plan app.tokenEstimator = .ok usage ∧
        app.render response = .ok rendered ∧
        job.succeeded response
          (usageDict usage.promptTokens usage.completionTokens usage.totalTokens) = .ok record := by
  have hevents : ∀ {l l' : Ledger}, l'.events.length < l.events.length → l ≠ l' := by
    intro l l' hlt heq
    rw [heq] at hlt
    exact Nat.lt_irrefl _ hlt
  unfold Inference.attempt
  cases hcompletion : inference.completion payload with
  | error exc =>
      refine iff_of_false (hevents Nat.zero_lt_one) ?_
      rintro ⟨response, usage, rendered, record, hresponse, -⟩
      cases hresponse
  | ok response =>
      simp only [Except.bind]
      cases husage : usageFromResponse response plan app.tokenEstimator with
      | error exc =>
          refine iff_of_false (hevents Nat.zero_lt_one) ?_
          rintro ⟨other, usage, rendered, record, hother, hread, -⟩
          cases hother
          rw [husage] at hread
          cases hread
      | ok usage =>
          simp only [Except.map, ChatApp.ledger, QueuedJob.ledger]
          cases hrender : app.render response with
          | error exc =>
              refine iff_of_false (hevents ?_) ?_
              · cases job.succeeded response
                  (usageDict usage.promptTokens usage.completionTokens usage.totalTokens) with
                | error exc => exact Nat.zero_lt_two
                | ok record => exact Nat.one_lt_two
              · rintro ⟨other, usage, rendered, record, hother, -, hrendered, -⟩
                cases hother
                rw [hrender] at hrendered
                cases hrendered
          | ok rendered =>
              cases hsucceeded : job.succeeded response
                (usageDict usage.promptTokens usage.completionTokens usage.totalTokens) with
              | error exc =>
                  refine iff_of_false (hevents Nat.zero_lt_one) ?_
                  rintro ⟨other, read, rendered, record, hother, hread, -, htaken⟩
                  cases hother
                  rw [husage] at hread
                  cases hread
                  rw [hsucceeded] at htaken
                  cases htaken
              | ok record =>
                  exact iff_of_true rfl
                    ⟨response, usage, rendered, record, rfl, husage, hrender, hsucceeded⟩

/-- **When batch and online requests are accounted alike.** The ledgers of the two paths are equal exactly
when the request, if it is planned and admitted, is completed on both. -/
theorem accounted_alike_iff {inference : Inference} {app : ChatApp} {worker : BatchWorker} {job : QueuedJob}
    {authContext : AuthContext} {request : ChatCompletionRequest}
    (hsame : SameRequest app worker authContext request job) (h : inference.RaisesExceptions app job)
    (requestId : String) (online batch : Surroundings) :
    ((app.createChatCompletion request (some authContext) requestId).run
        (inference.answer online) .empty).2 =
      (worker.processOne.run (inference.batchAnswer batch job) .empty).2 ↔
        inference.Completes app job request := by
  rw [ledger_online h hsame.allowed hsame.stream requestId,
    ledger_batch hsame.collector h hsame.tokenEstimator hsame.settings hsame.stored, ← hsame.apiKeyId]
  unfold Inference.Completes
  cases hplan : buildTokenPlan request app.tokenEstimator app.settings with
  | error exc =>
      refine iff_of_true rfl ?_
      intro plan lease hplanned
      cases hplanned
  | ok plan =>
      cases hlease : inference.admission job.running.apiKeyId plan.estimatedTotalTokens with
      | error exc =>
          simp only [hlease]
          refine iff_of_true trivial ?_
          intro other lease hother hadmitted
          cases hother
          rw [hlease] at hadmitted
          cases hadmitted
      | ok lease =>
          simp only [hlease]
          rw [ledger_eq_iff]
          constructor
          · intro hcompletes other lease hother hadmitted
            cases hother
            exact hcompletes
          · intro hcompletes
            exact hcompletes plan lease rfl hlease

def plainQueuedJob : QueuedJob where
  id := "job"
  stored := { plainJob with status := .queued }
  running := plainJob
  succeeded _ _ := .ok (some plainJob)
  failed _ _ := .ok (some plainJob)
  requestHex := "hex"
  live := by decide

def collectingWorker : BatchWorker := { plainWorker with analyticsCollector := true }

def plainSurroundings : Surroundings := ⟨"audit", fun _ => 0, fun _ => true⟩

/-- Everything is admitted, and the upstream answers with `completion`. -/
def openInference (completion : Except PyExc JsonObject) : Inference :=
  ⟨fun _ _ => .ok ⟨0⟩, fun _ => completion⟩

theorem plain_same : SameRequest plainApp collectingWorker plainContext plainRequest plainQueuedJob where
  tokenEstimator := rfl
  settings := rfl
  collector := rfl
  allowed := rfl
  stream := rfl
  stored := rfl
  apiKeyId := rfl

/-- A completed request is accounted alike. -/
theorem accounted_alike_completed :
    ((plainApp.createChatCompletion plainRequest (some plainContext) "req").run
        ((openInference (.ok [("usage", .obj [("total_tokens", .int 12)])])).answer plainSurroundings)
        .empty).2 =
      (collectingWorker.processOne.run
        ((openInference (.ok [("usage", .obj [("total_tokens", .int 12)])])).batchAnswer plainSurroundings
          plainQueuedJob) .empty).2 := by
  have hraises : (openInference (.ok [("usage", .obj [("total_tokens", .int 12)])])).RaisesExceptions
      plainApp plainQueuedJob := ⟨nofun, nofun, nofun, nofun⟩
  refine (accounted_alike_iff plain_same hraises "req" plainSurroundings plainSurroundings).mpr ?_
  intro plan lease hplan hlease
  obtain rfl : (⟨8, 10, 18⟩ : TokenPlan) = plan := Except.ok.inj hplan
  exact ⟨_, ⟨8, 0, 12, .completed⟩, _, _, rfl, rfl, rfl, rfl⟩

/-- When the upstream fails, the worker records no prompt tokens and collects no event. -/
theorem not_accounted_alike : ¬ ∀ (inference : Inference) (app : ChatApp) (worker : BatchWorker)
    (job : QueuedJob) (authContext : AuthContext) (request : ChatCompletionRequest) (requestId : String)
    (online batch : Surroundings), SameRequest app worker authContext request job →
      inference.RaisesExceptions app job →
        ((app.createChatCompletion request (some authContext) requestId).run
          (inference.answer online) .empty).2 =
            (worker.processOne.run (inference.batchAnswer batch job) .empty).2 := by
  intro h
  have hraises : (openInference (.error (.exception none "upstream failed"))).RaisesExceptions plainApp
      plainQueuedJob := by
    refine ⟨?_, nofun, nofun, nofun⟩
    intro payload exc hexc
    cases hexc
    rfl
  have heq := h (openInference (.error (.exception none "upstream failed"))) plainApp collectingWorker
    plainQueuedJob plainContext plainRequest "req" plainSurroundings plainSurroundings plain_same hraises
  exact absurd heq (by decide)

end GpuInference
