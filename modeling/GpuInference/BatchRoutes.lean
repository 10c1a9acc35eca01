import GpuInference.BatchSystem
import GpuInference.HttpMessages

/-!
The HTTP side of the batch jobs: the authentication middleware, the routes and the error handler.
-/

open Effect

namespace GpuInference

/-- The calls of a request: the auth service, and the calls of the batch service. -/
inductive ApiOp where
  | authenticate (rawKey : String)
  | batch (op : BatchOp)

abbrev ApiOp.Res : ApiOp → Type
  | authenticate _ => AuthContext
  | batch op => op.Res

abbrev ApiProgram := Program ApiOp ApiOp.Res PyExc

def inBatch {α : Type} (program : BatchProgram α) : ApiProgram α :=
  program.mapOp ApiOp.batch fun _ value => value

/-- The handler of `AppError`; any other exception leaves the application. -/
def handleAppError (request : HttpRequest) (exc : PyExc) : ApiProgram JSONResponse :=
  match exc with
  | .app error => pure (appErrorResponse request error)
  | other => Program.raise other

/-- `ApiKeyAuthMiddleware.dispatch`. The rest of the application sees the context in the state of the
request. -/
def ApiKeyAuthMiddleware.dispatch (callNext : Option AuthContext → ApiProgram JSONResponse)
    (request : HttpRequest) : ApiProgram JSONResponse := do
  if !isProtectedPath request.path then callNext none
  else
    let authenticated ← Program.tryExcept PyExc.isAppError (do
      match extractBearerToken request with
      | none => Program.raise (.app missingApiKeyError)
      | some rawKey => do
          let authContext ← Program.perform (ApiOp.authenticate rawKey)
          pure (Except.ok authContext)) fun exc => do
        let response ← handleAppError request exc
        pure (Except.error response)
    match authenticated with
    | .ok authContext => callNext (some authContext)
    | .error response => pure response

/-- `RequestIdMiddleware.dispatch`, with the id it has taken from the request or drawn. -/
def RequestIdMiddleware.dispatch (callNext : ApiProgram JSONResponse) (request : HttpRequest) :
    ApiProgram JSONResponse := do
  let response ← callNext
  pure { response with xRequestId := some request.requestId }

def JobStatus.name : JobStatus → String
  | queued => "queued"
  | running => "running"
  | succeeded => "succeeded"
  | failed => "failed"
  | cancelled => "cancelled"

/-- `BatchJobRecord.to_response`, as JSON. -/
def BatchJobRecord.toResponse (job : BatchJobRecord) : JsonObject :=
  [("job_id", .str job.id), ("status", .str job.status.name), ("model", .str job.model),
    ("request_count", .int job.requestCount), ("completed_count", .int job.completedCount),
    ("failed_count", .int job.failedCount),
    ("result", (job.resultPayload.map Json.obj).getD .null),
    ("error_code", optionalStr job.errorCode), ("error_message", optionalStr job.errorMessage)]

def BatchJobRecord.submitResponse (job : BatchJobRecord) : JsonObject :=
  [("job_id", .str job.id), ("status", .str job.status.name)]

/-- The routes of `batch_jobs.py`, with what the framework has read from the path and the body. -/
inductive BatchRoute where
  | submit (requestBody : BatchJobCreateRequest)
  | get (jobId : String)
  | cancel (jobId : String)

def BatchRoute.path : BatchRoute → String
  | submit _ => "/v1/batch/jobs"
  | get jobId => "/v1/batch/jobs/" ++ jobId
  | cancel jobId => "/v1/batch/jobs/" ++ jobId ++ "/cancel"

/-- `_auth_context`. -/
def authContextOf (state : Option AuthContext) : Except PyExc AuthContext :=
  match state with
  | some authContext => .ok authContext
  | none => .error (.app missingApiKeyError)

def submitBatchJob (requestBody : BatchJobCreateRequest) (state : Option AuthContext) :
    ApiProgram JsonObject := do
  let authContext ← Program.lift (authContextOf state)
  Program.lift (ensureModelAllowed authContext requestBody.model)
  let job ← inBatch (BatchJobService.submit authContext requestBody)
  pure job.submitResponse

def getBatchJob (jobId : String) : ApiProgram JsonObject := do
  let job ← inBatch (BatchJobService.get jobId)
  pure job.toResponse

def cancelBatchJob (jobId : String) : ApiProgram JsonObject := do
  let job ← inBatch (BatchJobService.cancel jobId)
  pure job.toResponse

def BatchRoute.handler (route : BatchRoute) (state : Option AuthContext) : ApiProgram JsonObject :=
  match route with
  | submit requestBody => submitBatchJob requestBody state
  | get jobId => getBatchJob jobId
  | cancel jobId => cancelBatchJob jobId

/-- The application on a request for a route. -/
def BatchRoute.app (route : BatchRoute) (authorization : Option String) (requestId : String) :
    ApiProgram JSONResponse :=
  let request : HttpRequest := ⟨route.path, authorization, requestId⟩
  RequestIdMiddleware.dispatch
    (ApiKeyAuthMiddleware.dispatch (fun state =>
      Program.tryExcept PyExc.isAppError (do
        let content ← route.handler state
        pure ⟨200, content, none, none⟩) (handleAppError request)) request) request

theorem toList_jobsPath (tail : String) :
    ("/v1/batch/jobs/" ++ tail).toList = "/v1/batch/".toList ++ ("jobs/".toList ++ tail.toList) := by
  have hjobs : "/v1/batch/jobs/".toList = "/v1/batch/".toList ++ "jobs/".toList := by decide
  calc ("/v1/batch/jobs/" ++ tail).toList
      = "/v1/batch/jobs/".toList ++ tail.toList := String.toList_append
    _ = ("/v1/batch/".toList ++ "jobs/".toList) ++ tail.toList := congrArg (· ++ tail.toList) hjobs
    _ = "/v1/batch/".toList ++ ("jobs/".toList ++ tail.toList) := List.append_assoc _ _ _

/-- The middleware protects every route, whatever the job id. -/
theorem isProtectedPath_path (route : BatchRoute) : isProtectedPath route.path = true := by
  have hbatch : ∃ rest : List Char, route.path.toList = "/v1/batch/".toList ++ rest := by
    cases route with
    | submit requestBody =>
        refine ⟨"jobs".toList, ?_⟩
        show "/v1/batch/jobs".toList = _
        decide
    | get jobId => exact ⟨_, toList_jobsPath jobId⟩
    | cancel jobId =>
        refine ⟨"jobs/".toList ++ (jobId ++ "/cancel").toList, ?_⟩
        show ("/v1/batch/jobs/" ++ jobId ++ "/cancel").toList = _
        rw [String.append_assoc]
        exact toList_jobsPath (jobId ++ "/cancel")
  obtain ⟨rest, hpath⟩ := hbatch
  have hjoin : "/v1/batch" ++ "/" = "/v1/batch/" := by decide
  have hstarts : startsWith route.path ("/v1/batch" ++ "/") = true := by
    rw [hjoin, startsWith, hpath, List.isPrefixOf_iff_prefix]
    exact List.prefix_append _ rest
  have hmem : "/v1/batch" ∈ protectedPaths := by decide
  rw [isProtectedPath, List.any_eq_true]
  exact ⟨"/v1/batch", hmem, Bool.or_eq_true_iff.mpr (.inr hstarts)⟩

end GpuInference
