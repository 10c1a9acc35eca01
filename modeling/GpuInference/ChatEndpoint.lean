import GpuInference.EffectInterpretation
import GpuInference.HttpMediation
import GpuInference.SentryTransparency
import GpuInference.StreamCleanup

/-!
The chat completion route in the stack. The route is the handler with its reports to Sentry, behind all the middleware. What
its services are called for, in any request that comes through the stack, is a run of the handler alone; so what holds of
every run of the handler holds of every request.
-/

open Effect

namespace GpuInference

/-- An exception of a service, as the stack sees it. -/
def PyExc.toHttp : PyExc → HttpExc
  | .app error => .app error
  | .exception code text => .other none code text
  | .base name => .base name

/-- A service raises no exception of the framework. -/
def HttpExc.toPy : HttpExc → PyExc
  | .app error => .app error
  | .http _ _ => .exception none "HTTPException"
  | .validation => .exception none "RequestValidationError"
  | .other _ code text => .exception code text
  | .base name => .base name

@[simp] theorem PyExc.toPy_toHttp (exc : PyExc) : exc.toHttp.toPy = exc := by
  cases exc with
  | app error => rfl
  | exception code text => rfl
  | base name => rfl

@[simp] theorem PyExc.isException_toHttp (exc : PyExc) : exc.toHttp.isException = exc.isException := by
  cases exc with
  | app error => rfl
  | exception code text => rfl
  | base name => rfl

abbrev ChatRouteProgram := RouteProgram ChatOp ChatOp.Res

def routeCall (op : RouteOp ChatOp) : ChatRouteProgram (op.Res ChatOp.Res) := Program.perform op

/-- A call of the handler is a call of a service. -/
def chatService (op : ChatOp) : ChatRouteProgram (Except PyExc op.Res) :=
  .call (.service op) fun answer => .ret (answer.mapError HttpExc.toPy)

/-- A part of the handler that reports nothing. -/
def fromChat {α : Type} (body : ChatProgram α) : ChatRouteProgram α := body.interpret chatService PyExc.toHttp

def fromChatBlock {α : Type} (body : StreamBlock α) :
    Block (RouteOp ChatOp) (RouteOp.Res ChatOp.Res) HttpExc StreamLocals α := body.interpret chatService PyExc.toHttp

namespace ChatApp

variable (self : ChatApp)

/-- The handler of `_stream_response`. -/
def streamReported (call : ChatCall) (exc : HttpExc) :
    Block (RouteOp ChatOp) (RouteOp.Res ChatOp.Res) HttpExc StreamLocals Unit := do
  Block.assign fun l =>
    { l with status := .failed, errorCode := exc.toPy.codeOr "internal_server_error" }
  Block.await (routeCall (.captureRequestException exc (some call.model) (some true)))
  Block.throw exc

/-- `_stream_response`. -/
def streamBody (call : ChatCall) : ChatRouteProgram Unit := do
  fromChat (chatCall .recordStreamStarted)
  let upstream ← fromChat (chatCall (.streamChatCompletion (streamPayload call.payload)))
  let events := ensureDoneEvent (streamWithHeartbeats upstream.items) upstream.failure
  (Block.tryFinally
    (Block.tryExcept HttpExc.isException (fromChatBlock (self.streamEvents upstream.failure events))
      (streamReported call))
    (fromChatBlock (self.streamFinally call))).toProgram ⟨"", .completed, none, false⟩

/-- The `try` statement of `create_chat_completion`. -/
def completed (call : ChatCall) : ChatRouteProgram ChatResponse :=
  Program.tryFinally
    (Program.tryExcept HttpExc.isException (fromChat (self.complete call)) fun exc => do
      routeCall (.captureRequestException exc (some call.model) (some false))
      fromChat (fail call exc.toPy))
    (fromChat (chatCall (.releaseLease call.lease)))

/-- The response that is returned. -/
def replied : ChatResponse → RouteReply ChatOp ChatOp.Res
  | .json response => ⟨response.statusCode, .json response.content, .ret ()⟩
  | .stream body => ⟨200, .stream, fromChat body⟩

/-- `create_chat_completion`, with what the normalization of the payload and the lookup of the audit service do. -/
def chatHandler (normalized : Except PyExc JsonObject) (auditService : Except PyExc Unit)
    (requestBody : ChatCompletionRequest) (state : Option AuthContext) (requestId : Option String) :
    ChatRouteProgram (RouteReply ChatOp ChatOp.Res) := do
  let authContext ← fromChat (Program.lift (match state with
    | some authContext => .ok authContext
    | none => .error (.app missingApiKeyError)))
  fromChat (Program.lift (ensureModelAllowed authContext requestBody.model))
  let plan ← fromChat (Program.lift (buildTokenPlan requestBody self.tokenEstimator self.settings))
  let lease ← fromChat (chatCall (.admitRequest authContext plan.estimatedTotalTokens))
  let payload ← fromChat (Program.lift normalized)
  routeCall (.bindRequestContext (some requestBody.model) (some requestBody.stream))
  fromChat (Program.lift auditService)
  let auditRecordId ← fromChat (chatCall (.startAudit
    (buildAuditStart self.sha256 (requestId.getD "") authContext requestBody.model requestBody.messages)))
  let call : ChatCall :=
    { authContext, requestId := requestId.getD "", model := requestBody.model, plan, payload, lease, auditRecordId }
  if requestBody.stream then pure ⟨200, .stream, self.streamBody call⟩
  else do
    let response ← self.completed call
    pure (replied response)

/-- The route, for a body that has been parsed. -/
def chatRoute (normalized : Except PyExc JsonObject) (auditService : Except PyExc Unit)
    (requestBody : ChatCompletionRequest) : HttpRoute ChatOp ChatOp.Res where
  path := "/v1/chat/completions"
  handler := self.chatHandler normalized auditService requestBody

end ChatApp

/-- The functions of `sentry.py` are no services. -/
def serviceCalls {Op : Type} {Res : Op → Type} :
    (op : RouteOp Op) → Program Op Res HttpExc (Except HttpExc (RouteOp.Res Res op))
  | .service op => .call op fun answer => .ret answer
  | .bindRequestContext _ _ => .ret (.ok ())
  | .captureRequestException _ _ _ => .ret (.ok ())

/-- The calls that a route makes of its services. -/
def RouteProgram.services {Op : Type} {Res : Op → Type} {α : Type} (program : RouteProgram Op Res α) :
    Program Op Res HttpExc α := program.interpret serviceCalls id

/-- The handler over the services of the stack. -/
def overHttp (op : ChatOp) : Program ChatOp ChatOp.Res HttpExc (Except PyExc op.Res) :=
  .call op fun answer => .ret (answer.mapError HttpExc.toPy)

theorem services_fromChat {α : Type} (body : ChatProgram α) :
    (fromChat body).services = body.interpret overHttp PyExc.toHttp :=
  Program.interpret_interpret serviceCalls id body

theorem services_bind {Op : Type} {Res : Op → Type} {α β : Type} (body : RouteProgram Op Res α)
    (rest : α → RouteProgram Op Res β) :
    RouteProgram.services (body.bind rest) = body.services.bind fun value => (rest value).services :=
  Program.interpret_bind body rest

namespace ChatApp

variable (self : ChatApp)

/-- A report leaves the handler of an exception as it was. -/
theorem services_streamReported (call : ChatCall) (exc : PyExc) :
    (streamReported call exc.toHttp).interpret serviceCalls id =
      (streamFailed exc).interpret overHttp PyExc.toHttp := by
  unfold streamReported
  rw [PyExc.toPy_toHttp]
  rfl

theorem services_fromChatBlock {α : Type} (body : StreamBlock α) :
    (fromChatBlock body).interpret serviceCalls id = body.interpret overHttp PyExc.toHttp :=
  Block.interpret_interpret serviceCalls id body

theorem services_streamTry (call : ChatCall) (failure : Option PyExc) (events : List String) :
    (Block.tryFinally
      (Block.tryExcept HttpExc.isException (fromChatBlock (self.streamEvents failure events)) (streamReported call))
      (fromChatBlock (self.streamFinally call))).interpret serviceCalls id =
    (Block.tryFinally (Block.tryExcept PyExc.isException (self.streamEvents failure events) streamFailed)
      (self.streamFinally call)).interpret overHttp PyExc.toHttp := by
  have hbody : (Block.tryExcept HttpExc.isException (fromChatBlock (self.streamEvents failure events))
      (streamReported call)).interpret serviceCalls id =
      (Block.tryExcept PyExc.isException (self.streamEvents failure events) streamFailed).interpret overHttp
        PyExc.toHttp := by
    calc (Block.tryExcept HttpExc.isException (fromChatBlock (self.streamEvents failure events))
          (streamReported call)).interpret serviceCalls id
        = Block.tryExcept HttpExc.isException ((fromChatBlock (self.streamEvents failure events)).interpret serviceCalls id)
            (fun exc => (streamReported call exc).interpret serviceCalls id) :=
          Block.interpret_tryExcept (fun _ => rfl) fun _ => rfl
      _ = Block.tryExcept HttpExc.isException ((self.streamEvents failure events).interpret overHttp PyExc.toHttp)
            (fun exc => (streamReported call exc).interpret serviceCalls id) := by rw [services_fromChatBlock]
      _ = _ := (Block.interpret_tryExcept PyExc.isException_toHttp (services_streamReported call)).symm
  rw [Block.interpret_tryFinally, Block.interpret_tryFinally, hbody, services_fromChatBlock]

theorem services_streamBody (call : ChatCall) :
    (self.streamBody call).services = (self.streamResponse call).interpret overHttp PyExc.toHttp := by
  unfold streamBody streamResponse
  simp only [Program.bind_eq, services_bind, Program.interpret_bind, services_fromChat]
  congr 1
  funext _
  congr 1
  funext upstream
  rw [RouteProgram.services, ← Block.toProgram_interpret, ← Block.toProgram_interpret, services_streamTry]

theorem quiet_serviceCalls {Op : Type} {Res : Op → Type} (op : RouteOp Op) : (@serviceCalls Op Res op).Quiet := by
  cases op with
  | service op => exact fun _ => trivial
  | bindRequestContext model stream => trivial
  | captureRequestException exc model stream => trivial

theorem quiet_overHttp (op : ChatOp) : (overHttp op).Quiet := fun _ => trivial

/-- The report of a failed completion leaves its handler as it was. -/
theorem services_reportedFail (call : ChatCall) (exc : PyExc) :
    RouteProgram.services (do
      routeCall (.captureRequestException exc.toHttp (some call.model) (some false))
      fromChat (fail call exc.toHttp.toPy)) = (fail call exc).interpret overHttp PyExc.toHttp := by
  rw [PyExc.toPy_toHttp, ← services_fromChat]
  rfl

theorem services_completeTry (call : ChatCall) :
    RouteProgram.services (Program.tryExcept HttpExc.isException (fromChat (self.complete call)) fun exc => do
      routeCall (.captureRequestException exc (some call.model) (some false))
      fromChat (fail call exc.toPy)) =
    (Program.tryExcept PyExc.isException (self.complete call) (fail call)).interpret overHttp PyExc.toHttp := by
  calc RouteProgram.services (Program.tryExcept HttpExc.isException (fromChat (self.complete call)) fun exc => do
        routeCall (.captureRequestException exc (some call.model) (some false))
        fromChat (fail call exc.toPy))
      = Program.tryExcept HttpExc.isException (RouteProgram.services (fromChat (self.complete call)))
          (fun exc => RouteProgram.services (do
            routeCall (.captureRequestException exc (some call.model) (some false))
            fromChat (fail call exc.toPy))) :=
        Program.interpret_tryExcept quiet_serviceCalls (fun _ => rfl) fun _ => rfl
    _ = Program.tryExcept HttpExc.isException ((self.complete call).interpret overHttp PyExc.toHttp)
          (fun exc => RouteProgram.services (do
            routeCall (.captureRequestException exc (some call.model) (some false))
            fromChat (fail call exc.toPy))) := by rw [services_fromChat]
    _ = _ := (Program.interpret_tryExcept quiet_overHttp PyExc.isException_toHttp (services_reportedFail call)).symm

theorem services_completed (call : ChatCall) :
    (self.completed call).services =
      (Program.tryFinally (Program.tryExcept PyExc.isException (self.complete call) (fail call))
        (chatCall (.releaseLease call.lease))).interpret overHttp PyExc.toHttp := by
  calc (self.completed call).services
      = Program.tryFinally (RouteProgram.services
          (Program.tryExcept HttpExc.isException (fromChat (self.complete call)) fun exc => do
            routeCall (.captureRequestException exc (some call.model) (some false))
            fromChat (fail call exc.toPy)))
          (RouteProgram.services (fromChat (chatCall (.releaseLease call.lease)))) :=
        Program.interpret_tryFinally quiet_serviceCalls
    _ = Program.tryFinally
          ((Program.tryExcept PyExc.isException (self.complete call) (fail call)).interpret overHttp PyExc.toHttp)
          ((chatCall (.releaseLease call.lease)).interpret overHttp PyExc.toHttp) := by
        rw [services_completeTry, services_fromChat]
    _ = _ := (Program.interpret_tryFinally quiet_overHttp).symm

/-- The response, and the body of a streamed one where it is iterated. -/
theorem services_respond (call : ChatCall) (stream iterated : Bool) :
    (RouteProgram.services (if stream = true then pure ⟨200, .stream, self.streamBody call⟩
      else Program.bind (self.completed call) fun response => pure (replied response))).bind
        (fun reply => RouteProgram.services (if iterated = true then reply.rest else .ret ())) =
    ((self.respond stream call).interpret overHttp PyExc.toHttp).bind fun response =>
      Program.interpret overHttp PyExc.toHttp (match response with
        | .json _ => pure ()
        | .stream body => if iterated = true then body else pure ()) := by
  cases stream with
  | true =>
      cases iterated with
      | true => exact self.services_streamBody call
      | false => rfl
  | false =>
      rw [if_neg Bool.false_ne_true, services_bind, services_completed, Program.bind_assoc]
      congr 1
      funext response
      cases response with
      | json response =>
          cases iterated with
          | true => rfl
          | false => rfl
      | stream body =>
          cases iterated with
          | true => exact services_fromChat body
          | false => rfl

/-- The handler, and the body of a streamed response where it is iterated: the services see the handler alone. -/
theorem services_chatHandler (normalized : Except PyExc JsonObject) (auditService : Except PyExc Unit)
    (requestBody : ChatCompletionRequest) (state : Option AuthContext) (requestId : Option String) (iterated : Bool) :
    RouteProgram.services ((self.chatHandler normalized auditService requestBody state requestId).bind
      fun reply => if iterated then reply.rest else .ret ()) =
    (self.serveStream normalized auditService requestBody state (requestId.getD "") iterated).interpret overHttp
      PyExc.toHttp := by
  have hbound : RouteProgram.services
      (routeCall (.bindRequestContext (some requestBody.model) (some requestBody.stream))) = .ret () := rfl
  unfold chatHandler serveStream handle
  simp only [Program.bind_eq, Program.bind_assoc, services_bind, Program.interpret_bind, services_fromChat, hbound,
    Program.ret_bind]
  refine congrArg _ (funext fun authContext => congrArg _ (funext fun _ => congrArg _ (funext fun plan => ?_)))
  refine congrArg _ (funext fun lease => congrArg _ (funext fun payload => congrArg _ (funext fun _ => ?_)))
  refine congrArg _ (funext fun auditRecordId => ?_)
  exact self.services_respond _ requestBody.stream iterated

end ChatApp

/-- What has been called for a route is a trace of its services. -/
theorem traces_services {Op : Type} {Res : Op → Type} {α : Type} {program part : RouteProgram Op Res α}
    {calls more : List (Event Op Res HttpExc)} {outcome : Except HttpExc α} (h : program.Serves calls part)
    (hmore : (RouteProgram.services part).Traces more outcome) :
    (RouteProgram.services program).Traces (calls ++ more) outcome := by
  induction h generalizing more with
  | start => exact hmore
  | @service calls op next _ answer ih =>
      rw [List.append_assoc]
      exact ih ⟨answer, more, rfl, hmore⟩
  | bound _ ih => exact ih hmore
  | captured _ ih => exact ih hmore

theorem traces_served {Op : Type} {Res : Op → Type} {α : Type} {program : RouteProgram Op Res α}
    {calls : List (Event Op Res HttpExc)} {outcome : Except HttpExc α} (h : program.Serves calls (Program.lift outcome)) :
    (RouteProgram.services program).Traces calls outcome := by
  have hended : (RouteProgram.services (Program.lift outcome : RouteProgram Op Res α)).Traces [] outcome := by
    cases outcome with
    | ok value => exact ⟨rfl, rfl⟩
    | error exc => exact ⟨rfl, rfl⟩
  have htraces := traces_services h hended
  rwa [List.append_nil] at htraces

/-- A call of a service, as the handler sees it. -/
def seenCall (event : Event ChatOp ChatOp.Res HttpExc) : Event ChatOp ChatOp.Res PyExc :=
  ⟨event.op, event.answer.mapError HttpExc.toPy⟩

/-- The handler sees the calls that the stack sees. -/
theorem seen_of_answers {calls : List (Event ChatOp ChatOp.Res HttpExc)} {events : ChatCalls}
    (h : Program.Answers overHttp calls events) : events = calls.map seenCall := by
  induction h with
  | nil => rfl
  | @cons op answer left right events h _ ih =>
      obtain ⟨raw, rest, rfl, hrest⟩ := h
      obtain ⟨rfl, hanswer⟩ := hrest
      cases hanswer
      rw [ih]
      rfl

namespace HttpApp

section Mediated

variable {Op : Type} {Res : Op → Type}

/-- The functions of the SDK concern no service. -/
theorem mediationLog_visible (calls : List (Event (HttpOp Op) (HttpOp.Res Res) HttpExc)) :
    mediationLog (visible isSdk calls) = mediationLog calls := by
  have hstep : ∀ (log : MediationLog Op Res) (calls : List (Event (HttpOp Op) (HttpOp.Res Res) HttpExc)),
      (visible isSdk calls).foldl (fun log event => log.after event.op event.answer) log =
        calls.foldl (fun log event => log.after event.op event.answer) log := by
    intro log calls
    induction calls generalizing log with
    | nil => rfl
    | cons event calls ih =>
        obtain ⟨op, answer⟩ := event
        cases op
        case sdk op => exact ih log
        all_goals exact ih _
  exact hstep .empty calls

/-- How far a route has come when a request is over: it has returned, and its body has not been generated, or all of it
has come to its end. -/
theorem services_concluded {self : HttpApp Op Res} {request : ClientRequest} {hex : String} {route : HttpRoute Op Res}
    (hroute : self.router request = some route) (hprotected : isProtectedPath request.path = true)
    {calls : List (Event (HttpOp Op) (HttpOp.Res Res) HttpExc)} {outcome : Except HttpExc Unit}
    (h : (serve self request hex).Traces calls outcome)
    (hsdk : ∀ event ∈ calls, isSdk event.op = true → Mild event.answer) :
    (mediationLog calls).calls = [] ∨ ∃ rawKey authContext iterated ended,
      sentKey request (RequestIdMiddleware.requestId request.requestId hex) = some rawKey ∧
      (mediationLog calls).auth = some (rawKey, authContext) ∧
      (RouteProgram.services ((route.handler (some authContext)
        (some (RequestIdMiddleware.requestId request.requestId hex))).bind
          fun reply => if iterated = true then reply.rest else .ret ())).Traces (mediationLog calls).calls ended := by
  have hquiet := (sentry_transparent self request hex (visible isSdk calls) outcome).mpr ⟨calls, h, rfl, hsdk⟩
  have hconcluded := concluded_traces (unmonitored self) request hex _ outcome hquiet
  rw [mediationLog_visible] at hconcluded
  rcases hconcluded with hnone | ⟨returned, hadmitted, route', hroute', hreturned⟩ |
    ⟨hadmitted, route', ended, hroute', hended⟩ | hsentry
  · exact .inl hnone
  · obtain rfl : route = route' := Option.some.inj (hroute.symm.trans hroute')
    obtain ⟨rawKey, authContext, hkey, hauth⟩ := hadmitted hprotected
    rw [MediationLog.authContext, hauth] at hreturned
    exact .inr ⟨rawKey, authContext, false, .ok (), hkey, hauth, traces_served (hreturned.bind _)⟩
  · obtain rfl : route = route' := Option.some.inj (hroute.symm.trans hroute')
    obtain ⟨rawKey, authContext, hkey, hauth⟩ := hadmitted hprotected
    rw [MediationLog.authContext, hauth] at hended
    exact .inr ⟨rawKey, authContext, true, ended, hkey, hauth, traces_served hended⟩
  · cases hsentry

end Mediated

/-- **Every chat request is a run of the handler.** Whatever the layers do, the services that a request of the route calls
are called by the handler alone, run to its end for the tenant whose key the client has sent, with the id of the
request, and with the body of a streamed response generated to its end or not at all. -/
theorem chat_served (app : ChatApp) (normalized : Except PyExc JsonObject) (auditService : Except PyExc Unit)
    (requestBody : ChatCompletionRequest) (self : HttpApp ChatOp ChatOp.Res) (request : ClientRequest) (hex : String)
    (hroute : self.router request = some (app.chatRoute normalized auditService requestBody))
    (hpath : request.path = "/v1/chat/completions")
    (calls : List (Event (HttpOp ChatOp) (HttpOp.Res ChatOp.Res) HttpExc)) (outcome : Except HttpExc Unit)
    (h : (serve self request hex).Traces calls outcome)
    (hsdk : ∀ event ∈ calls, isSdk event.op = true → Mild event.answer) :
    (mediationLog calls).calls = [] ∨ ∃ rawKey authContext iterated ended,
      sentKey request (RequestIdMiddleware.requestId request.requestId hex) = some rawKey ∧
      (mediationLog calls).auth = some (rawKey, authContext) ∧
      (app.serveStream normalized auditService requestBody (some authContext)
        (RequestIdMiddleware.requestId request.requestId hex) iterated).Traces
          ((mediationLog calls).calls.map seenCall) ended := by
  have hprotected : isProtectedPath request.path = true := by
    rw [hpath]
    decide
  rcases services_concluded hroute hprotected h hsdk with hnone | ⟨rawKey, authContext, iterated, ended, hkey, hauth, hrun⟩
  · exact .inl hnone
  · have hhandler := app.services_chatHandler normalized auditService requestBody (some authContext)
      (some (RequestIdMiddleware.requestId request.requestId hex)) iterated
    obtain ⟨events, out, hevents, -, hanswers⟩ :=
      Program.exists_traces_of_interpret ChatApp.quiet_overHttp (hhandler ▸ hrun)
    rw [seen_of_answers hanswers] at hevents
    exact .inr ⟨rawKey, authContext, iterated, out, hkey, hauth, hevents⟩

def streamApp : HttpApp ChatOp ChatOp.Res where
  sentryEnabled := true
  router _ := some (chunkApp.chatRoute (.ok (normalizeChatCompletionPayload streamRequest)) (.ok ()) streamRequest)

def streamClient : ClientRequest := ⟨"POST", "/v1/chat/completions", some "req_client", some "Bearer an_key"⟩

/-- The services answer as in a run of the handler; the client takes every event. -/
def streamAnswer : (op : HttpOp ChatOp) → Unit → Except HttpExc (op.Res ChatOp.Res) × Unit
  | .authenticate _, s => (.ok plainContext, s)
  | .service op, s => ((chunkReply (.ok ()) (.ok ()) op s).1.mapError PyExc.toHttp, s)
  | .sdk (.captureException _), s => (.ok none, s)
  | .sdk .configureScope, s => (.ok (), s)
  | .sdk .pushScope, s => (.ok (), s)
  | .sdk (.setTag _ _), s => (.ok (), s)
  | .sdk (.setUser _), s => (.ok (), s)
  | .recordHttpRequest _, s => (.ok (), s)
  | .send _, s => (.ok (), s)

def clientCalls : List (Event (HttpOp ChatOp) (HttpOp.Res ChatOp.Res) HttpExc) :=
  (serve streamApp streamClient "hex").trace streamAnswer ()

/-- The slot that has been taken for the stream is released. -/
theorem chat_served_streamed : (mediationLog clientCalls).calls.countP (fun event => asksRelease (seenCall event)) = 1 ∧
    ∃ iterated ended, (chunkApp.serveStream (.ok (normalizeChatCompletionPayload streamRequest)) (.ok ()) streamRequest
      (some plainContext) "req_client" iterated).Traces ((mediationLog clientCalls).calls.map seenCall) ended := by
  have hreleased : (mediationLog clientCalls).calls.countP (fun event => asksRelease (seenCall event)) = 1 := rfl
  have hauth : (mediationLog clientCalls).auth = some ("an_key", plainContext) := rfl
  refine ⟨hreleased, ?_⟩
  have hmild : ∀ event ∈ clientCalls, isSdk event.op = true → Mild event.answer := by
    intro event hevent hsdk
    rw [Program.eq_of_mem_trace hevent]
    obtain ⟨op, answer⟩ := event
    cases op
    case sdk op =>
      cases op
      all_goals exact mild_ok _
    all_goals cases hsdk
  rcases chat_served chunkApp _ _ streamRequest streamApp streamClient "hex" rfl rfl clientCalls _
    (Program.traces_trace _ _ _) hmild with hnone | ⟨rawKey, authContext, iterated, ended, -, hauth', hrun⟩
  · rw [hnone] at hreleased
    cases hreleased
  · rw [hauth] at hauth'
    cases hauth'
    exact ⟨iterated, ended, hrun⟩

end HttpApp

end GpuInference
