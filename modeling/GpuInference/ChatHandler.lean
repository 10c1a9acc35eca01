import GpuInference.BatchWorker
import GpuInference.HttpMessages

/-!
The chat completion route. A request is planned, admitted and audited; then it is completed at once,
or streamed event by event. The body of a streamed response is a generator that the server runs
after the handler has returned: each `yield` is a call that comes back, or raises when the client
has gone.
-/

open Effect

namespace GpuInference

/-- What the upstream stream shows to `stream_with_heartbeats`: a line, or a wait that was too long. -/
inductive StreamItem where
  | line (text : String)
  | timeout
  deriving DecidableEq, Repr

/-- An upstream stream: what it sends, and the exception it ends with, if any. -/
structure UpstreamStream where
  items : List StreamItem
  failure : Option PyExc

def doneLine : String := "data: [DONE]"

/-- `format_sse_data`. -/
def formatSseData (data : String) : String := "data: " ++ data ++ "\n\n"

/-- `format_heartbeat`. -/
def formatHeartbeat : String := ": heartbeat\n\n"

/-- `stream_with_heartbeats`. -/
def streamWithHeartbeats (items : List StreamItem) : List String :=
  items.map fun
    | .line text => text
    | .timeout => formatHeartbeat

/-- `stripped if stripped.endswith("\n\n") else f"{stripped}\n\n"`. -/
def eventOf (stripped : String) : String :=
  if "\n\n".toList.isSuffixOf stripped.toList then stripped else stripped ++ "\n\n"

/-- `ensure_done_event`, for a stream that ends with `failure`. -/
def ensureDoneEvent (lines : List String) (failure : Option PyExc) : List String :=
  let stripped := (lines.map strip).filter fun line => line ≠ ""
  let events := stripped.map eventOf
  if failure.isNone ∧ doneLine ∉ stripped then events ++ [formatSseData "[DONE]"] else events

/-- `json.loads`; `none` is a `JSONDecodeError`. -/
abbrev JsonLoads := String → Except PyExc (Option Json)

/-- `parsed.get` on a value that is no dictionary. -/
def attributeError : PyExc := .exception none "AttributeError"

/-- The text of one choice of an event. -/
def deltaText : Json → String
  | .obj choice =>
      match JsonObject.get choice "delta" with
      | some (.obj delta) =>
          match JsonObject.get delta "content" with
          | some (.str content) => content
          | _ => ""
      | _ => ""
  | _ => ""

/-- `stream_delta_text`. -/
def streamDeltaText (loads : JsonLoads) (event : String) : Except PyExc String :=
  if startsWith event "data: " then
    let payload := strip (String.ofList (event.toList.drop "data: ".length))
    if payload = "[DONE]" then .ok ""
    else do
      match ← loads payload with
      | none => .ok ""
      | some (.obj parsed) =>
          match JsonObject.get parsed "choices" with
          | some (.arr choices) => .ok (String.join (choices.map deltaText))
          | _ => .ok ""
      | some _ => .error attributeError
  else .ok ""

/-- The calls of the handler and of the generator. -/
inductive ChatOp where
  | admitRequest (authContext : AuthContext) (estimatedTokens : Int)
  | finalizeTokens (lease : AdmissionLease) (actualTokens : Int) (releaseAll : Bool)
  | releaseLease (lease : AdmissionLease)
  | startAudit (audit : AuditStart)
  | finalizeAudit (final : AuditFinal)
  | createChatCompletion (payload : JsonObject)
  | streamChatCompletion (payload : JsonObject)
  | isDisconnected
  | yieldEvent (event : String)
  | closeStream
  | recordUsage (usage : UsageRecord)
  | collect (event : UsageEvent)
  | elapsedMs
  | recordStreamStarted
  | recordStreamTtft
  | recordStreamFinished

abbrev ChatOp.Res : ChatOp → Type
  | admitRequest _ _ => AdmissionLease
  | finalizeTokens _ _ _ => Unit
  | releaseLease _ => Unit
  | startAudit _ => String
  | finalizeAudit _ => Unit
  | createChatCompletion _ => JsonObject
  | streamChatCompletion _ => UpstreamStream
  | isDisconnected => Bool
  | yieldEvent _ => Unit
  | closeStream => Unit
  | recordUsage _ => Unit
  | collect _ => Bool
  | elapsedMs => Int
  | recordStreamStarted => Unit
  | recordStreamTtft => Unit
  | recordStreamFinished => Unit

abbrev ChatProgram := Program ChatOp ChatOp.Res PyExc

def chatCall (op : ChatOp) : ChatProgram op.Res := Program.perform op

/-- The application that serves the route. Rendering a response may raise. -/
structure ChatApp where
  tokenEstimator : TokenEstimator
  settings : TokenLimits
  sha256 : Sha256
  loads : JsonLoads
  render : JsonObject → Except PyExc JSONResponse

/-- A request that has been admitted and whose audit record has been started. -/
structure ChatCall where
  authContext : AuthContext
  requestId : String
  model : String
  plan : TokenPlan
  payload : JsonObject
  lease : AdmissionLease
  auditRecordId : String

/-- `_emit_usage_analytics`. -/
def emitUsageAnalytics (event : UsageEvent) : ChatProgram Unit :=
  Program.tryExcept PyExc.isException (do
    let _ ← chatCall (.collect event)
    pure ()) fun _ => pure ()

/-- The local variables that the handler and the `finally` block of `_stream_response` read. -/
structure StreamLocals where
  completionText : String
  status : UsageStatus
  errorCode : Option String
  firstTokenSeen : Bool
  deriving DecidableEq, Repr

abbrev StreamBlock := Block ChatOp ChatOp.Res PyExc StreamLocals

namespace ChatApp

/-- The `async for` loop over the events, and the exception that ends it. -/
def streamEvents (self : ChatApp) (failure : Option PyExc) : List String → StreamBlock Unit
  | [] =>
      match failure with
      | none => pure ()
      | some exc => Block.throw exc
  | event :: events => do
      if ← Block.await (chatCall .isDisconnected) then
        Block.assign fun l => { l with status := .clientDisconnected }
      else
        let text ← Block.lift (streamDeltaText self.loads event)
        Block.assign fun l => { l with completionText := l.completionText ++ text }
        let l ← Block.locals
        if !l.firstTokenSeen ∧ startsWith event "data: " ∧ strip event ≠ doneLine then
          Block.await (chatCall .recordStreamTtft)
          Block.assign fun l => { l with firstTokenSeen := true }
        Block.await (chatCall (.yieldEvent event))
        self.streamEvents failure events

/-- The handler: the exception goes on after the status has been set. -/
def streamFailed (exc : PyExc) : StreamBlock Unit := do
  Block.assign fun l =>
    { l with status := .failed, errorCode := exc.codeOr "internal_server_error" }
  Block.throw exc

/-- The `finally` block. -/
def streamFinally (self : ChatApp) (call : ChatCall) : StreamBlock Unit := do
  Block.await (chatCall .closeStream)
  Block.await (chatCall .closeStream)
  Block.await (chatCall .closeStream)
  let l ← Block.locals
  let usage ← Block.lift (usageFromStreamText l.completionText call.plan self.tokenEstimator l.status)
  Block.await (chatCall (.finalizeTokens call.lease usage.totalTokens (l.status = .failed)))
  Block.await (chatCall (.recordUsage usage))
  let latencyMs ← Block.await (chatCall .elapsedMs)
  Block.await (chatCall (.finalizeAudit
    (buildAuditFinal call.auditRecordId usage (some latencyMs) l.errorCode)))
  Block.await (emitUsageAnalytics
    (usageEvent call.authContext call.requestId call.model usage (some latencyMs) l.errorCode))
  Block.await (chatCall (.releaseLease call.lease))
  Block.await (chatCall .recordStreamFinished)

/-- `_stream_response`, with every optional argument given, as the handler does. -/
def streamResponse (self : ChatApp) (call : ChatCall) : ChatProgram Unit := do
  chatCall .recordStreamStarted
  let upstream ← chatCall (.streamChatCompletion (streamPayload call.payload))
  let events := ensureDoneEvent (streamWithHeartbeats upstream.items) upstream.failure
  (Block.tryFinally
    (Block.tryExcept PyExc.isException (self.streamEvents upstream.failure events) streamFailed)
    (self.streamFinally call)).toProgram ⟨"", .completed, none, false⟩

end ChatApp

/-- What the handler returns; the generator of a streamed response has not started yet. -/
inductive ChatResponse where
  | json (response : JSONResponse)
  | stream (body : ChatProgram Unit)

namespace ChatApp

/-- The body of the `try` statement. -/
def complete (self : ChatApp) (call : ChatCall) : ChatProgram ChatResponse := do
  let response ← chatCall (.createChatCompletion call.payload)
  let usage ← Program.lift (usageFromResponse response call.plan self.tokenEstimator)
  chatCall (.finalizeTokens call.lease usage.totalTokens false)
  chatCall (.recordUsage usage)
  let latencyMs ← chatCall .elapsedMs
  chatCall (.finalizeAudit (buildAuditFinal call.auditRecordId usage (some latencyMs) none))
  emitUsageAnalytics
    (usageEvent call.authContext call.requestId call.model usage (some latencyMs) none)
  let rendered ← Program.lift (self.render response)
  pure (.json { rendered with xRequestId := some call.requestId })

/-- The usage that a failed request is recorded with. -/
def failedUsage (call : ChatCall) : UsageRecord := ⟨call.plan.promptTokens, 0, 0, .failed⟩

/-- The handler of the `try` statement. -/
def fail (call : ChatCall) (exc : PyExc) : ChatProgram ChatResponse := do
  chatCall (.finalizeTokens call.lease 0 true)
  let usage := failedUsage call
  chatCall (.recordUsage usage)
  let latencyMs ← chatCall .elapsedMs
  let errorCode := exc.codeOr "internal_server_error"
  chatCall (.finalizeAudit (buildAuditFinal call.auditRecordId usage (some latencyMs) errorCode))
  emitUsageAnalytics
    (usageEvent call.authContext call.requestId call.model usage (some latencyMs) errorCode)
  Program.raise exc

/-- The rest of the handler, for an audited request. -/
def respond (self : ChatApp) (stream : Bool) (call : ChatCall) : ChatProgram ChatResponse :=
  if stream then pure (.stream (self.streamResponse call))
  else
    Program.tryFinally
      (Program.tryExcept PyExc.isException (self.complete call) (fail call))
      (chatCall (.releaseLease call.lease))

/-- `create_chat_completion`. -/
def createChatCompletion (self : ChatApp) (requestBody : ChatCompletionRequest)
    (state : Option AuthContext) (requestId : String) : ChatProgram ChatResponse := do
  let authContext ← Program.lift (match state with
    | some authContext => .ok authContext
    | none => .error (.app missingApiKeyError))
  Program.lift (ensureModelAllowed authContext requestBody.model)
  let plan ← Program.lift (buildTokenPlan requestBody self.tokenEstimator self.settings)
  let lease ← chatCall (.admitRequest authContext plan.estimatedTotalTokens)
  let payload := normalizeChatCompletionPayload requestBody
  let auditRecordId ← chatCall (.startAudit
    (buildAuditStart self.sha256 requestId authContext requestBody.model requestBody.messages))
  self.respond requestBody.stream
    { authContext, requestId, model := requestBody.model, plan, payload, lease, auditRecordId }

/-- The handler, and then the body of a streamed response, as the server runs it. -/
def serve (self : ChatApp) (requestBody : ChatCompletionRequest) (state : Option AuthContext)
    (requestId : String) : ChatProgram Unit := do
  match ← self.createChatCompletion requestBody state requestId with
  | .json _ => pure ()
  | .stream body => body

end ChatApp

end GpuInference
