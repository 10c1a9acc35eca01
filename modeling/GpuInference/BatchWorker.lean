import GpuInference.BatchStore
import GpuInference.EffectBlock

/-!
The programs that act on batch jobs: the service that submits, reads and cancels jobs, the worker
that processes one job, and the scanner that puts queued jobs back into the queue. Every await of
the source is one call; a store or queue call is atomic, and any call may raise.
-/

open Effect

namespace GpuInference

/-- A reference to an `AdmissionLease`; the slot and the reservation behind it change by its calls. -/
structure AdmissionLease where
  object : Nat
  deriving DecidableEq, Repr

/-- The calls of the service, the worker and the scanner. -/
inductive BatchOp where
  | enqueue (jobId : String)
  | dequeue
  | contains (jobId : String)
  | create (authContext : AuthContext) (payload : JsonObject) (model : String)
  | get (jobId : String)
  | transition (jobId : String) (target : JobStatus)
  | markSucceeded (jobId : String) (result usage : JsonObject)
  | markFailed (jobId : String) (errorCode : Option String) (errorMessage : String)
  | listRecoverable (limit : Int)
  | shouldRunJob
  | uuid4
  | elapsedMs
  | admitRequest (authContext : AuthContext) (estimatedTokens : Int)
  | finalizeTokens (lease : AdmissionLease) (actualTokens : Int) (releaseAll : Bool)
  | releaseLease (lease : AdmissionLease)
  | startAudit (audit : AuditStart)
  | finalizeAudit (final : AuditFinal)
  | createChatCompletion (payload : JsonObject)
  | collect (event : UsageEvent)

abbrev BatchOp.Res : BatchOp → Type
  | enqueue _ => Unit
  | dequeue => Option String
  | contains _ => Bool
  | create _ _ _ => BatchJobRecord
  | get _ => Option BatchJobRecord
  | transition _ _ => Option BatchJobRecord
  | markSucceeded _ _ _ => Option BatchJobRecord
  | markFailed _ _ _ => Option BatchJobRecord
  | listRecoverable _ => List BatchJobRecord
  | shouldRunJob => Bool
  | uuid4 => String
  | elapsedMs => Int
  | admitRequest _ _ => AdmissionLease
  | finalizeTokens _ _ _ => Unit
  | releaseLease _ => Unit
  | startAudit _ => String
  | finalizeAudit _ => Unit
  | createChatCompletion _ => JsonObject
  | collect _ => Bool

abbrev BatchProgram := Program BatchOp BatchOp.Res PyExc

def batchCall (op : BatchOp) : BatchProgram op.Res := Program.perform op

def batchStreamingNotSupported : AppError where
  message := "Batch jobs do not support streaming requests"
  code := "batch_streaming_not_supported"
  statusCode := 400
  type := "invalid_request_error"
  param := some "stream"

def batchJobNotFound : AppError where
  message := "Batch job not found"
  code := "batch_job_not_found"
  statusCode := 404
  type := "invalid_request_error"
  param := none

namespace BatchJobService

def submit (authContext : AuthContext) (requestBody : BatchJobCreateRequest) :
    BatchProgram BatchJobRecord := do
  let payload := requestBody.modelDump
  if JsonObject.get payload "stream" = some (.bool true) then
    Program.raise (.app batchStreamingNotSupported)
  else
    let payload := JsonObject.set payload "stream" (.bool false)
    let job ← batchCall (.create authContext payload requestBody.model)
    Program.tryExcept PyExc.isException (batchCall (.enqueue job.id)) fun _ => pure ()
    pure job

def get (jobId : String) : BatchProgram BatchJobRecord := do
  match ← batchCall (.get jobId) with
  | none => Program.raise (.app batchJobNotFound)
  | some job => pure job

def cancel (jobId : String) : BatchProgram BatchJobRecord := do
  let job ← get jobId
  if job.status.terminal then pure job
  else
    match ← batchCall (.transition jobId .cancelled) with
    | some cancelled => pure cancelled
    | none => get jobId

end BatchJobService

/-- A worker. Its analytics collector and its `should_run_job` may be `None`. -/
structure BatchWorker where
  tokenEstimator : TokenEstimator
  settings : TokenLimits
  analyticsCollector : Bool
  shouldRunJob : Bool
  lax : LaxCoercions
  sha256 : Sha256

/-- The local variables that the handler and the `finally` block of `process_one` read. -/
structure WorkerLocals where
  auditRecordId : Option String
  admissionLease : Option AdmissionLease
  deriving DecidableEq, Repr

abbrev WorkerBlock := Block BatchOp BatchOp.Res PyExc WorkerLocals

/-- `generate_request_id`. -/
def generateRequestId : BatchProgram String := do
  let hex ← batchCall .uuid4
  pure ("req_" ++ hex)

namespace BatchWorker

/-- `_emit_usage_event`. -/
def emitUsageEvent (self : BatchWorker) (event : UsageEvent) : BatchProgram Unit :=
  if self.analyticsCollector then
    Program.tryExcept PyExc.isException (do
      let _ ← batchCall (.collect event)
      pure ()) fun _ => pure ()
  else pure ()

/-- The body of the `try` statement of `process_one`. -/
def complete (self : BatchWorker) (jobId : String) (running : BatchJobRecord) (requestId : String)
    (authContext : AuthContext) : WorkerBlock Bool := do
  let requestBody ← Block.lift (chatRequestFromBatch self.lax running)
  let tokenPlan ← Block.lift (buildTokenPlan requestBody self.tokenEstimator self.settings)
  let lease ← Block.await (batchCall (.admitRequest authContext tokenPlan.estimatedTotalTokens))
  Block.assign fun l => { l with admissionLease := some lease }
  let recordId ← Block.await (batchCall (.startAudit
    (buildAuditStart self.sha256 requestId authContext requestBody.model requestBody.messages)))
  Block.assign fun l => { l with auditRecordId := some recordId }
  let response ← Block.await (batchCall (.createChatCompletion
    (normalizeChatCompletionPayload requestBody)))
  let usage ← Block.lift (usageFromResponse response tokenPlan self.tokenEstimator)
  Block.await (batchCall (.finalizeTokens lease usage.totalTokens false))
  let latencyMs ← Block.await (batchCall .elapsedMs)
  Block.await (batchCall (.finalizeAudit (buildAuditFinal recordId usage (some latencyMs) none)))
  let _ ← Block.await (batchCall (.markSucceeded jobId response
    (usageDict usage.promptTokens usage.completionTokens usage.totalTokens)))
  Block.await (self.emitUsageEvent
    (usageEvent authContext requestId requestBody.model usage (some latencyMs) none))
  pure true

/-- The handler of the `try` statement. -/
def fail (jobId : String) (exc : PyExc) : WorkerBlock Bool := do
  let errorCode := exc.codeOr "batch_job_failed"
  let l ← Block.locals
  Block.await (match l.admissionLease with
    | some lease => batchCall (.finalizeTokens lease 0 true)
    | none => pure ())
  let failedUsage : UsageRecord := ⟨0, 0, 0, .failed⟩
  Block.await (match l.auditRecordId with
    | some recordId => do
        let latencyMs ← batchCall .elapsedMs
        batchCall (.finalizeAudit (buildAuditFinal recordId failedUsage (some latencyMs) errorCode))
    | none => pure ())
  let _ ← Block.await (batchCall (.markFailed jobId errorCode exc.text))
  pure true

/-- The `finally` block. -/
def leave : WorkerBlock Unit := do
  let l ← Block.locals
  Block.await (match l.admissionLease with
    | some lease => batchCall (.releaseLease lease)
    | none => pure ())

/-- `process_one`, from the point where the job is running. -/
def runJob (self : BatchWorker) (jobId : String) (running : BatchJobRecord) : BatchProgram Bool := do
  let requestId ← generateRequestId
  let authContext : AuthContext := {
    apiKeyId := running.apiKeyId
    userId := running.userId
    projectId := running.projectId
    allowedModels := none }
  (Block.tryFinally
    (Block.tryExcept PyExc.isException (self.complete jobId running requestId authContext)
      (fail jobId))
    leave).toProgram ⟨none, none⟩

/-- `self.should_run_job is not None and not await self.should_run_job()`. -/
def postpones (self : BatchWorker) : BatchProgram Bool :=
  if self.shouldRunJob then do
    let run ← batchCall .shouldRunJob
    pure !run
  else pure false

/-- `process_one`. -/
def processOne (self : BatchWorker) : BatchProgram Bool := do
  match ← batchCall .dequeue with
  | none => pure false
  | some jobId =>
      match ← batchCall (.get jobId) with
      | none => pure false
      | some job =>
          if job.status = .cancelled then pure false
          else if ← self.postpones then do
            batchCall (.enqueue jobId)
            pure false
          else
            match ← batchCall (.transition jobId .running) with
            | none => pure false
            | some running => self.runJob jobId running

end BatchWorker

namespace BatchRecoveryScanner

/-- The loop of `reenqueue_missing`. -/
def reenqueue : List BatchJobRecord → Int → BatchProgram Int
  | [], requeued => pure requeued
  | job :: jobs, requeued => do
      if ← batchCall (.contains job.id) then reenqueue jobs requeued
      else
        batchCall (.enqueue job.id)
        reenqueue jobs (requeued + 1)

def reenqueueMissing (limit : Int) : BatchProgram Int := do
  let jobs ← batchCall (.listRecoverable limit)
  reenqueue jobs 0

end BatchRecoveryScanner

end GpuInference
