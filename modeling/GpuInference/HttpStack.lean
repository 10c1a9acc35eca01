import GpuInference.BatchRoutes
import GpuInference.EffectInversion
import GpuInference.RequestIds

/-!
The stack that every request passes. From outside in: the handler of what nobody else handles, the metrics, the id of the
request, the API key, the handlers of the errors that the application raises on purpose, and the route. A route is any
program: it calls its services, and may report an exception itself.
-/

open Effect

namespace GpuInference

/-- What the stack reads of a request. -/
structure ClientRequest where
  method : String
  path : String
  requestId : Option String
  authorization : Option String
  deriving DecidableEq, Repr

/-- What is rendered. A streamed body is sent after the response has been started. -/
inductive HttpContent where
  | json (content : JsonObject)
  | text (content : String)
  | stream
  deriving DecidableEq

structure HttpResponse where
  statusCode : Int
  content : HttpContent
  xErrorCode : Option String
  xRequestId : Option String
  deriving DecidableEq

/-- An exception, as the handlers tell them apart: `StarletteHTTPException` with its detail if that is a string,
`RequestValidationError`, and every other `Exception` with its attributes `status_code` and `code`, if it has them (the
code may be `None`), and its text. -/
inductive HttpExc where
  | app (error : AppError)
  | http (statusCode : Int) (detail : Option String)
  | validation
  | other (statusCode : Option Int) (code : Option (Option String)) (text : String)
  | base (name : String)
  deriving DecidableEq, Repr

namespace HttpExc

def isException : HttpExc → Bool
  | base _ => false
  | _ => true

def isAppError : HttpExc → Bool
  | app _ => true
  | _ => false

/-- The exceptions that `install_error_handlers` gives a handler of their own. -/
def isHandled : HttpExc → Bool
  | app _ => true
  | http _ _ => true
  | validation => true
  | _ => false

/-- `int(getattr(exc, "status_code", 500))`. -/
def statusCode : HttpExc → Int
  | app error => error.statusCode
  | http statusCode _ => statusCode
  | other (some statusCode) _ _ => statusCode
  | _ => 500

/-- `getattr(exc, "code", None)`. -/
def code : HttpExc → Option String
  | app error => some error.code
  | other _ code _ => code.join
  | _ => none

/-- What the framework raises when an exception with a handler comes too late for a response. -/
def responseStarted : HttpExc := other none none "Caught handled exception, but response already started."

end HttpExc

/-- The calls of the Sentry SDK. -/
inductive SentryOp where
  | configureScope
  | pushScope
  | setTag (key value : String)
  | setUser (id : String)
  | captureException (exc : HttpExc)
  deriving DecidableEq

abbrev SentryOp.Res : SentryOp → Type
  | captureException _ => Option String
  | _ => Unit

/-- What `record_http_request` is called with; the latency is left out. -/
structure HttpSample where
  method : String
  path : String
  statusCode : Int
  errorCode : Option String
  deriving DecidableEq

/-- The calls of the stack. `send` starts the response. -/
inductive HttpOp (Op : Type) where
  | authenticate (rawKey : String)
  | service (op : Op)
  | sdk (op : SentryOp)
  | recordHttpRequest (sample : HttpSample)
  | send (response : HttpResponse)

abbrev HttpOp.Res {Op : Type} (Res : Op → Type) : HttpOp Op → Type
  | authenticate _ => AuthContext
  | service op => Res op
  | sdk op => op.Res
  | recordHttpRequest _ => Unit
  | send _ => Unit

/-- The state of a request, and the locals of `MetricsMiddleware.dispatch`. -/
structure HttpLocals where
  requestId : Option String
  authContext : Option AuthContext
  sentryExceptionCaptured : Bool
  route : Option String
  responseStarted : Bool
  statusCode : Int
  errorCode : Option String

/-- A request that has just come in. -/
def HttpLocals.initial : HttpLocals := ⟨none, none, false, none, false, 500, none⟩

abbrev HttpBlock (Op : Type) (Res : Op → Type) := Block (HttpOp Op) (HttpOp.Res Res) HttpExc HttpLocals

abbrev HttpProgram (Op : Type) (Res : Op → Type) := Program (HttpOp Op) (HttpOp.Res Res) HttpExc

/-- The calls of a route: its services, and the functions of `sentry.py`. No route uses the id of the event. -/
inductive RouteOp (Op : Type) where
  | service (op : Op)
  | bindRequestContext (model : Option String) (stream : Option Bool)
  | captureRequestException (exc : HttpExc) (model : Option String) (stream : Option Bool)

abbrev RouteOp.Res {Op : Type} (Res : Op → Type) : RouteOp Op → Type
  | service op => Res op
  | bindRequestContext _ _ => Unit
  | captureRequestException _ _ _ => Unit

abbrev RouteProgram (Op : Type) (Res : Op → Type) := Program (RouteOp Op) (RouteOp.Res Res) HttpExc

/-- What a route returns. `rest` generates the body of a response that is streamed. -/
structure RouteReply (Op : Type) (Res : Op → Type) where
  statusCode : Int
  content : HttpContent
  rest : RouteProgram Op Res Unit

/-- A route, under its path template; it reads the key and the id of its request. -/
structure HttpRoute (Op : Type) (Res : Op → Type) where
  path : String
  handler : Option AuthContext → Option String → RouteProgram Op Res (RouteReply Op Res)

/-- The application: whether Sentry has been initialised, and the route that matches a request. -/
structure HttpApp (Op : Type) (Res : Op → Type) where
  sentryEnabled : Bool
  router : ClientRequest → Option (HttpRoute Op Res)

/-- A response on its way out, with what will generate its body. -/
structure HttpReply (Op : Type) (Res : Op → Type) where
  response : HttpResponse
  rest : RouteProgram Op Res Unit

namespace HttpApp

variable {Op : Type} {Res : Op → Type} {α : Type}

def httpCall (op : HttpOp Op) : HttpBlock Op Res (HttpOp.Res Res op) := Block.await (Program.perform op)

def sdkCall (op : SentryOp) : HttpBlock Op Res op.Res := httpCall (.sdk op)

/-- `should_skip_exception`. -/
def shouldSkipException : HttpExc → Bool
  | .app error => error.statusCode < 500
  | _ => false

/-- The loop over the tags: those without a value are left out. -/
def setTags : List (String × Option String) → HttpBlock Op Res Unit
  | [] => pure ()
  | (_, none) :: tags => setTags tags
  | (key, some value) :: tags => do
      sdkCall (.setTag key value)
      setTags tags

/-- `with scope: body`. Leaving a scope is not a call. -/
def withScope (enter : SentryOp) (body : HttpBlock Op Res α) : HttpBlock Op Res α := do
  let _ ← sdkCall enter
  body

/-- `str(value)` of a boolean. -/
def boolText (value : Bool) : String := if value then "True" else "False"

def requestTags (request : ClientRequest) (l : HttpLocals) (model : Option String) (stream : Option Bool) :
    List (String × Option String) :=
  [("request_id", l.requestId), ("endpoint", some request.path), ("method", some request.method), ("model", model),
    ("stream", stream.map boolText)]

def authTags : Option AuthContext → List (String × Option String)
  | some authContext => [("user_id", some authContext.userId), ("project_id", some authContext.projectId),
      ("api_key_id", some authContext.apiKeyId)]
  | none => []

/-- `capture_exception`, without a context. -/
def captureException (sentryEnabled : Bool) (exc : HttpExc) (tags : List (String × Option String)) :
    HttpBlock Op Res (Option String) :=
  if shouldSkipException exc || !sentryEnabled then pure none
  else
    Block.tryExcept HttpExc.isException
      (withScope .pushScope (do
        setTags tags
        sdkCall (.captureException exc)))
      fun _ => pure none

/-- `bind_request_context`. -/
def bindRequestContext (sentryEnabled : Bool) (request : ClientRequest) (model : Option String) (stream : Option Bool) :
    HttpBlock Op Res Unit :=
  if !sentryEnabled then pure ()
  else
    Block.tryExcept HttpExc.isException
      (do
        let l ← Block.locals
        withScope .configureScope (do
          setTags (requestTags request l model stream ++ authTags l.authContext)
          match l.authContext with
          | some authContext => sdkCall (.setUser authContext.userId)
          | none => pure ()))
      fun _ => pure ()

/-- `capture_request_exception`. -/
def captureRequestException (sentryEnabled : Bool) (request : ClientRequest) (exc : HttpExc) (model : Option String)
    (stream : Option Bool) : HttpBlock Op Res (Option String) := do
  let l ← Block.locals
  if l.sentryExceptionCaptured then pure none
  else do
    bindRequestContext sentryEnabled request model stream
    let eventId ← captureException sentryEnabled exc
      (requestTags request l model stream ++ [("error_code", exc.code)] ++ authTags l.authContext)
    if eventId.isSome then do
      Block.assign fun l => { l with sentryExceptionCaptured := true }
      pure eventId
    else pure eventId

/-- `openai_error_object`. -/
def openaiErrorObject (message code errorType : String) (param requestId : Option String) : JsonObject :=
  let error : JsonObject := [("message", .str message), ("type", .str errorType), ("param", optionalStr param),
    ("code", .str code)]
  match requestId with
  | some requestId => [("error", .obj (error ++ [("request_id", .str requestId)]))]
  | none => [("error", .obj error)]

/-- `_error_response`, and `_app_error_response` of the authentication. -/
def errorResponse (requestId : Option String) (statusCode : Int) (message code errorType : String)
    (param : Option String) : HttpResponse where
  statusCode := statusCode
  content := .json (openaiErrorObject message code errorType param requestId)
  xErrorCode := some code
  xRequestId := requestId

def appErrorResponse (requestId : Option String) (error : AppError) : HttpResponse :=
  errorResponse requestId error.statusCode error.message error.code error.type error.param

def httpErrorResponse (requestId : Option String) (statusCode : Int) (detail : Option String) : HttpResponse :=
  errorResponse requestId statusCode (detail.getD "HTTP error") "http_error"
    (if statusCode < 500 then "invalid_request_error" else "server_error") none

def validationErrorResponse (requestId : Option String) : HttpResponse :=
  errorResponse requestId 400 "Invalid request payload" "bad_request" "invalid_request_error" none

def unhandledErrorResponse (requestId : Option String) : HttpResponse :=
  errorResponse requestId 500 "Internal server error" "internal_server_error" "server_error" none

/-- A response without a body to generate. -/
def reply (response : HttpResponse) : HttpReply Op Res := ⟨response, pure ()⟩

section Stack

variable (self : HttpApp Op Res) (request : ClientRequest) (hex : String)

/-- A route runs on the state of its request. -/
def inRequest : RouteProgram Op Res α → HttpBlock Op Res α
  | .ret value => pure value
  | .raise exc => Block.throw exc
  | .call (.service op) next => fun l => .call (.service op) fun answer => inRequest (next answer) l
  | .call (.bindRequestContext model stream) next => do
      bindRequestContext self.sentryEnabled request model stream
      inRequest (next (.ok ()))
  | .call (.captureRequestException exc model stream) next => do
      let _ ← captureRequestException self.sentryEnabled request exc model stream
      inRequest (next (.ok ()))

/-- The router, and the route that it has found. -/
def routed : HttpBlock Op Res (HttpReply Op Res) :=
  match self.router request with
  | none => Block.throw (.http 404 (some "Not Found"))
  | some route => do
      Block.assign fun l => { l with route := some route.path }
      let l ← Block.locals
      let returned ← inRequest self request (route.handler l.authContext l.requestId)
      pure ⟨⟨returned.statusCode, returned.content, none, none⟩, returned.rest⟩

/-- `app_error_handler`, `http_error_handler` and `validation_error_handler`. -/
def errorHandler (exc : HttpExc) : HttpBlock Op Res (HttpReply Op Res) := do
  let l ← Block.locals
  match exc with
  | .app error => do
      let _ ← captureRequestException self.sentryEnabled request exc none none
      pure (reply (appErrorResponse l.requestId error))
  | .http statusCode detail => pure (reply (httpErrorResponse l.requestId statusCode detail))
  | .validation => pure (reply (validationErrorResponse l.requestId))
  | exc => Block.throw exc

def exceptionMiddleware : HttpBlock Op Res (HttpReply Op Res) :=
  Block.tryExcept HttpExc.isHandled (routed self request) (errorHandler self request)

/-- The body of the `try` statement of `ApiKeyAuthMiddleware.dispatch`; no response is returned there. -/
def keyChecked : HttpBlock Op Res (Option HttpResponse) := do
  let l ← Block.locals
  match extractBearerToken ⟨request.path, request.authorization, l.requestId.getD ""⟩ with
  | none => Block.throw (.app missingApiKeyError)
  | some rawKey => do
      let authContext ← httpCall (.authenticate rawKey)
      Block.assign fun l => { l with authContext := some authContext }
      pure none

/-- The statement: the response of a refusal, if there is one. -/
def authenticated : HttpBlock Op Res (Option HttpResponse) :=
  Block.tryExcept HttpExc.isAppError (keyChecked request) fun exc => do
    let l ← Block.locals
    match exc with
    | .app error => pure (some (appErrorResponse l.requestId error))
    | exc => Block.throw exc

/-- `ApiKeyAuthMiddleware.dispatch`. -/
def apiKeyAuth (callNext : HttpBlock Op Res (HttpReply Op Res)) : HttpBlock Op Res (HttpReply Op Res) := do
  if !isProtectedPath request.path then callNext
  else
    match ← authenticated request with
    | some response => pure (reply response)
    | none => callNext

/-- `RequestIdMiddleware.dispatch`, with the digits that `uuid4` would draw. -/
def requestIdMiddleware (callNext : HttpBlock Op Res (HttpReply Op Res)) : HttpBlock Op Res (HttpReply Op Res) := do
  let requestId := RequestIdMiddleware.requestId request.requestId hex
  Block.assign fun l => { l with requestId := some requestId }
  let returned ← callNext
  pure { returned with response := { returned.response with xRequestId := some requestId } }

/-- `MetricsMiddleware.dispatch`. -/
def metricsMiddleware (callNext : HttpBlock Op Res (HttpReply Op Res)) : HttpBlock Op Res (HttpReply Op Res) := do
  if request.path = "/metrics" then callNext
  else
    Block.assign fun l => { l with statusCode := 500, errorCode := none }
    Block.tryFinally
      (Block.tryExcept HttpExc.isException (do
        let returned ← callNext
        Block.assign fun l =>
          { l with statusCode := returned.response.statusCode, errorCode := returned.response.xErrorCode }
        pure returned) fun exc => do
          Block.assign fun l => { l with statusCode := exc.statusCode, errorCode := exc.code }
          Block.throw exc)
      (do
        let l ← Block.locals
        httpCall (.recordHttpRequest ⟨request.method, l.route.getD request.path, l.statusCode, l.errorCode⟩))

/-- What the middleware return for a request. -/
def dispatched : HttpBlock Op Res (HttpReply Op Res) :=
  metricsMiddleware request (requestIdMiddleware request hex (apiKeyAuth request (exceptionMiddleware self request)))

/-- A response is started once it is sent, whatever becomes of the call. -/
def started (response : HttpResponse) : HttpBlock Op Res Unit := do
  Block.assign fun l => { l with responseStarted := true }
  httpCall (.send response)

/-- The body of a response is generated inside the stack: an exception with a handler comes too late. -/
def streamed (rest : RouteProgram Op Res Unit) : HttpBlock Op Res Unit :=
  Block.tryExcept HttpExc.isHandled (inRequest self request rest) fun _ => Block.throw HttpExc.responseStarted

/-- `unhandled_error_handler`; the middleware around it sends its response unless one has been started, and lets the
exception go on. -/
def serverError (exc : HttpExc) : HttpBlock Op Res Unit := do
  let _ ← captureRequestException self.sentryEnabled request exc none none
  let l ← Block.locals
  if l.responseStarted then Block.throw exc
  else do
    started (unhandledErrorResponse l.requestId)
    Block.throw exc

/-- `ServerErrorMiddleware`. -/
def served : HttpBlock Op Res Unit :=
  Block.tryExcept HttpExc.isException (do
    let returned ← dispatched self request hex
    started returned.response
    streamed self request returned.rest) (serverError self request)

/-- The application on one request. -/
def serve : HttpProgram Op Res Unit := (served self request hex).toProgram .initial

end Stack

end HttpApp

end GpuInference
