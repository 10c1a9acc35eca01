import GpuInference.HttpStack

/-!
The responses of the stack. A client gets at most one response to a request, and gets none only when the request is torn
down; every response carries the id of the request, and an error response names its code in the header and in the body.
A request is recorded in the metrics once, on every way out, with the status that the client has got unless an exception
that nobody handles says otherwise.
-/

open Effect

namespace GpuInference

namespace HttpApp

variable {Op : Type} {Res : Op → Type} {α : Type}

/-- The responses sent and the samples recorded; `broken` says that the registry or the connection has raised. -/
structure HttpLog where
  sends : List HttpResponse
  records : List HttpSample
  broken : Bool

def HttpLog.empty : HttpLog := ⟨[], [], false⟩

def HttpLog.after (log : HttpLog) : (op : HttpOp Op) → Except HttpExc (op.Res Res) → HttpLog
  | .send response, .ok _ => { log with sends := log.sends ++ [response] }
  | .send response, .error _ => { log with sends := log.sends ++ [response], broken := true }
  | .recordHttpRequest sample, .ok _ => { log with records := log.records ++ [sample] }
  | .recordHttpRequest sample, .error _ => { log with records := log.records ++ [sample], broken := true }
  | _, _ => log

def logged : Protocol (HttpOp Op) (HttpOp.Res Res) HttpExc HttpLog where
  may _ _ := True
  after log op answer := log.after op answer

/-- What the inner layers leave alone. -/
def outerLocals (l : HttpLocals) : Option String × Bool × Int × Option String :=
  (l.requestId, l.responseStarted, l.statusCode, l.errorCode)

abbrev Within (log : HttpLog) (good : Except HttpExc α → Prop) (l : HttpLocals) (body : HttpBlock Op Res α) : Prop :=
  Block.Stays logged outerLocals log good l body

/-- A block that may end in any way. -/
abbrev Inner (log : HttpLog) (l : HttpLocals) (body : HttpBlock Op Res α) : Prop := Within log (fun _ => True) l body

variable {log : HttpLog} {l : HttpLocals}

theorem Inner.bind {β : Type} {good : Except HttpExc β → Prop} {body : HttpBlock Op Res α}
    {rest : α → HttpBlock Op Res β} (h : Inner log l body) (herror : ∀ exc, good (.error exc))
    (hrest : ∀ value l', outerLocals l' = outerLocals l → Within log good l' (rest value)) :
    Within log good l (body >>= rest) :=
  Block.Stays.bind h (fun exc _ => herror exc) fun value l' hview _ => hrest value l' hview

/-- Only what is no `Exception` comes out, and that from the SDK. -/
def Safe (sentryEnabled : Bool) (outcome : Except HttpExc α) : Prop :=
  ∀ exc, outcome = .error exc → exc.isException = false ∧ sentryEnabled = true

theorem safe_error {β : Type} {sentryEnabled : Bool} {exc : HttpExc}
    (h : Safe sentryEnabled (.error exc : Except HttpExc α)) : Safe sentryEnabled (.error exc : Except HttpExc β) := by
  intro exc' hexc
  cases hexc
  exact h exc rfl

section Sentry

variable {Φ γ : Type} {protocol : Protocol (HttpOp Op) (HttpOp.Res Res) HttpExc Φ} {view : HttpLocals → γ} {φ : Φ}

/-- The calls of the SDK do not concern the protocol. -/
def Unheeded (protocol : Protocol (HttpOp Op) (HttpOp.Res Res) HttpExc Φ) : Prop :=
  ∀ φ op, protocol.may φ (.sdk op) ∧ ∀ answer, protocol.after φ (.sdk op) answer = φ

abbrev Freely (protocol : Protocol (HttpOp Op) (HttpOp.Res Res) HttpExc Φ) (view : HttpLocals → γ) (φ : Φ)
    (l : HttpLocals) (body : HttpBlock Op Res α) : Prop :=
  Block.Stays protocol view φ (fun _ => True) l body

theorem freely_sdkCall (h : Unheeded protocol) (op : SentryOp) :
    Freely protocol view φ l (sdkCall op : HttpBlock Op Res op.Res) :=
  Block.stays_perform (h φ op).1 (h φ op).2 fun _ => trivial

theorem freely_setTags (h : Unheeded protocol) (tags : List (String × Option String)) (l : HttpLocals) :
    Freely protocol view φ l (setTags tags : HttpBlock Op Res Unit) := by
  induction tags generalizing l with
  | nil => exact Block.stays_pure trivial
  | cons tag tags ih =>
      obtain ⟨key, value⟩ := tag
      cases value with
      | none => exact ih l
      | some value => exact (freely_sdkCall h _).bind (fun _ _ => trivial) fun _ l' _ _ => ih l'

theorem freely_withScope (h : Unheeded protocol) {enter : SentryOp} {body : HttpBlock Op Res α}
    (hbody : ∀ l, Freely protocol view φ l body) : Freely protocol view φ l (withScope enter body) :=
  (freely_sdkCall h _).bind (fun _ _ => trivial) fun _ l' _ _ => hbody l'

theorem stays_captureException (h : Unheeded protocol) (sentryEnabled : Bool) (exc : HttpExc)
    (tags : List (String × Option String)) :
    Block.Stays protocol view φ (Safe sentryEnabled) l
      (captureException sentryEnabled exc tags : HttpBlock Op Res (Option String)) := by
  unfold captureException
  split
  · exact Block.stays_pure nofun
  · rename_i hreported
    obtain ⟨-, henabled⟩ : shouldSkipException exc = false ∧ sentryEnabled = true := by simpa using hreported
    refine Block.Stays.tryExcept (freely_withScope h fun l => ?_)
      (fun _ _ hleft exc hexc => ⟨hleft exc hexc, henabled⟩) fun _ _ _ _ _ => Block.stays_pure nofun
    exact (freely_setTags h tags l).bind (fun _ _ => trivial) fun _ _ _ _ => freely_sdkCall h _

theorem stays_bindRequestContext (h : Unheeded protocol) (sentryEnabled : Bool) (request : ClientRequest)
    (model : Option String) (stream : Option Bool) :
    Block.Stays protocol view φ (Safe sentryEnabled) l
      (bindRequestContext sentryEnabled request model stream : HttpBlock Op Res Unit) := by
  unfold bindRequestContext
  split
  · exact Block.stays_pure nofun
  · rename_i hreported
    have henabled : sentryEnabled = true := by simpa using hreported
    refine Block.Stays.tryExcept (Block.stays_locals_bind (freely_withScope h fun l' => ?_))
      (fun _ _ hleft exc hexc => ⟨hleft exc hexc, henabled⟩) fun _ _ _ _ _ => Block.stays_pure nofun
    refine (freely_setTags h _ l').bind (fun _ _ => trivial) fun _ _ _ _ => ?_
    split
    · exact freely_sdkCall h _
    · exact Block.stays_pure trivial

/-- **A report never raises an `Exception`**, and changes nothing but the mark on its request. -/
theorem stays_captureRequestException (h : Unheeded protocol)
    (hview : ∀ l, view { l with sentryExceptionCaptured := true } = view l) (sentryEnabled : Bool)
    (request : ClientRequest) (exc : HttpExc) (model : Option String) (stream : Option Bool) :
    Block.Stays protocol view φ (Safe sentryEnabled) l
      (captureRequestException sentryEnabled request exc model stream : HttpBlock Op Res (Option String)) := by
  unfold captureRequestException
  apply Block.stays_locals_bind
  split
  · exact Block.stays_pure nofun
  · refine (stays_bindRequestContext h _ _ _ _).bind (fun _ => safe_error) fun _ _ _ _ => ?_
    refine (stays_captureException h _ _ _).bind (fun _ => safe_error) fun eventId l' _ _ => ?_
    split
    · exact Block.stays_assign_bind (hview l') (Block.stays_pure nofun)
    · exact Block.stays_pure nofun

end Sentry

theorem unheeded_logged : Unheeded (@logged Op Res) := fun _ _ => ⟨trivial, fun _ => rfl⟩

theorem within_bindRequestContext (sentryEnabled : Bool) (request : ClientRequest) (model : Option String)
    (stream : Option Bool) :
    Within log (Safe sentryEnabled) l (bindRequestContext sentryEnabled request model stream : HttpBlock Op Res Unit) :=
  stays_bindRequestContext unheeded_logged _ _ _ _

theorem within_captureRequestException (sentryEnabled : Bool) (request : ClientRequest) (exc : HttpExc)
    (model : Option String) (stream : Option Bool) :
    Within log (Safe sentryEnabled) l (captureRequestException sentryEnabled request exc model stream :
      HttpBlock Op Res (Option String)) :=
  stays_captureRequestException unheeded_logged (fun _ => rfl) _ _ _ _ _

section Layers

variable (self : HttpApp Op Res) (request : ClientRequest) (hex : String)

theorem within_inRequest (program : RouteProgram Op Res α) (l : HttpLocals) :
    Inner log l (inRequest self request program) := by
  induction program generalizing l with
  | ret value => exact Block.stays_pure trivial
  | raise exc => exact Block.stays_throw trivial
  | call op next ih =>
      cases op with
      | service op => exact ⟨trivial, fun answer => ih answer l⟩
      | bindRequestContext model stream =>
          exact (within_bindRequestContext _ _ _ _).bind (fun _ _ => trivial) fun _ l' _ _ => ih _ l'
      | captureRequestException exc model stream =>
          exact (within_captureRequestException _ _ _ _ _).bind (fun _ _ => trivial) fun _ l' _ _ => ih _ l'

/-- What a route returns is what its program can return. -/
theorem within_route (program : RouteProgram Op Res α) (l : HttpLocals) :
    Within log (fun outcome => ∀ value, outcome = .ok value → ∃ calls, program.Traces calls (.ok value)) l
      (inRequest self request program) := by
  induction program generalizing l with
  | ret value =>
      apply Block.stays_pure
      intro returned hreturned
      cases hreturned
      exact ⟨[], rfl, rfl⟩
  | raise exc => exact Block.stays_throw nofun
  | call op next ih =>
      have hcall : ∀ (answer : Except HttpExc (RouteOp.Res Res op)) (outcome : Except HttpExc α),
          (∀ value, outcome = .ok value → ∃ calls, (next answer).Traces calls (.ok value)) →
          ∀ value, outcome = .ok value → ∃ calls, (Program.call op next).Traces calls (.ok value) := by
        intro answer outcome hnext value hvalue
        obtain ⟨calls, htraces⟩ := hnext value hvalue
        exact ⟨⟨op, answer⟩ :: calls, answer, calls, rfl, htraces⟩
      cases op with
      | service op =>
          refine ⟨trivial, fun answer => ?_⟩
          exact (ih answer l).mono fun outcome => hcall answer outcome
      | bindRequestContext model stream =>
          refine (within_bindRequestContext _ _ _ _).bind (fun _ _ => nofun) fun _ l' _ _ => ?_
          exact (ih (.ok ()) l').mono fun outcome => hcall (.ok ()) outcome
      | captureRequestException exc model stream =>
          refine (within_captureRequestException _ _ _ _ _).bind (fun _ _ => nofun) fun _ l' _ _ => ?_
          exact (ih (.ok ()) l').mono fun outcome => hcall (.ok ()) outcome

/-- An error response: its code is in the header and in the body, with the id of the request. -/
def NamesError (requestId : Option String) (response : HttpResponse) : Prop :=
  ∃ code error, response.xErrorCode = some code ∧ response.content = .json [("error", .obj error)] ∧
    JsonObject.get error "code" = some (.str code) ∧ JsonObject.get error "request_id" = requestId.map Json.str

theorem namesError_errorResponse (requestId : Option String) (statusCode : Int) (message code errorType : String)
    (param : Option String) : NamesError requestId (errorResponse requestId statusCode message code errorType param) := by
  cases requestId with
  | none => exact ⟨code, _, rfl, rfl, rfl, rfl⟩
  | some requestId => exact ⟨code, _, rfl, rfl, rfl, rfl⟩

/-- A response is what the matched route has returned, under the id of the request, or it is an error response. -/
def Formed (requestId : Option String) (response : HttpResponse) : Prop :=
  (∃ route authContext calls returned, self.router request = some route ∧
    (route.handler authContext requestId).Traces calls (.ok returned) ∧
      response.statusCode = returned.statusCode ∧ response.content = returned.content) ∨
  NamesError requestId response

/-- What a layer returns is formed. -/
def Returns (requestId : Option String) (outcome : Except HttpExc (HttpReply Op Res)) : Prop :=
  ∀ returned, outcome = .ok returned → Formed self request requestId returned.response

variable {self request} in
theorem returns_error {requestId : Option String} (exc : HttpExc) :
    Returns self request requestId (.error exc : Except HttpExc (HttpReply Op Res)) := nofun

variable {self request} in
theorem returns_errorResponse {requestId : Option String} (statusCode : Int) (message code errorType : String)
    (param : Option String) : Returns self request requestId
      (.ok (reply (errorResponse requestId statusCode message code errorType param)) :
        Except HttpExc (HttpReply Op Res)) := by
  intro returned hreturned
  cases hreturned
  exact .inr (namesError_errorResponse _ _ _ _ _ _)

theorem requestId_of_outer {l l' : HttpLocals} (h : outerLocals l' = outerLocals l) : l'.requestId = l.requestId :=
  congrArg Prod.fst h

theorem within_routed : Within log (Returns self request l.requestId) l (routed self request) := by
  unfold routed
  split
  · exact Block.stays_throw (returns_error _)
  · rename_i route hroute
    refine Block.stays_assign_bind rfl (Block.stays_locals_bind ?_)
    refine (within_route self request _ _).bind (fun exc _ => returns_error exc) fun returned _ _ hcalls => ?_
    apply Block.stays_pure
    intro out hout
    cases hout
    obtain ⟨calls, htraces⟩ := hcalls returned rfl
    exact .inl ⟨route, l.authContext, calls, returned, hroute, htraces, rfl, rfl⟩

theorem within_errorHandler (exc : HttpExc) :
    Within log (Returns self request l.requestId) l (errorHandler self request exc) := by
  unfold errorHandler
  apply Block.stays_locals_bind
  cases exc with
  | app error =>
      refine (within_captureRequestException _ _ _ _ _).bind (fun exc _ => returns_error exc) fun _ _ _ _ => ?_
      exact Block.stays_pure (returns_errorResponse _ _ _ _ _)
  | http statusCode detail => exact Block.stays_pure (returns_errorResponse _ _ _ _ _)
  | validation => exact Block.stays_pure (returns_errorResponse _ _ _ _ _)
  | other statusCode code text => exact Block.stays_throw (returns_error _)
  | base name => exact Block.stays_throw (returns_error _)

theorem within_exceptionMiddleware : Within log (Returns self request l.requestId) l (exceptionMiddleware self request) := by
  refine (within_routed self request).tryExcept (fun _ hgood _ => hgood) ?_
  intro exc l' hview _ _
  rw [← requestId_of_outer hview]
  exact within_errorHandler self request exc

/-- A refusal is an error response. -/
def Refuses (requestId : Option String) (outcome : Except HttpExc (Option HttpResponse)) : Prop :=
  ∀ response, outcome = .ok (some response) → NamesError requestId response

theorem within_keyChecked : Within log (fun outcome => ∀ response, outcome ≠ .ok (some response)) l
    (keyChecked request : HttpBlock Op Res (Option HttpResponse)) := by
  unfold keyChecked
  apply Block.stays_locals_bind
  split
  · exact Block.stays_throw nofun
  · refine Inner.bind (Block.stays_perform trivial (fun _ => rfl) fun _ => trivial) (fun _ => nofun) ?_
    exact fun _ _ _ => Block.stays_assign_bind rfl (Block.stays_pure nofun)

theorem within_authenticated :
    Within log (Refuses l.requestId) l (authenticated request : HttpBlock Op Res (Option HttpResponse)) := by
  refine (within_keyChecked request).tryExcept ?_ ?_
  · intro outcome hnone _ response hresponse
    exact absurd hresponse (hnone response)
  · intro exc l' hview _ _
    apply Block.stays_locals_bind
    cases exc
    case app error =>
      apply Block.stays_pure
      intro response hresponse
      cases hresponse
      rw [requestId_of_outer hview]
      exact namesError_errorResponse _ _ _ _ _ _
    all_goals exact Block.stays_throw nofun

theorem within_apiKeyAuth {callNext : HttpBlock Op Res (HttpReply Op Res)}
    (h : ∀ l, Within log (Returns self request l.requestId) l callNext) :
    Within log (Returns self request l.requestId) l (apiKeyAuth request callNext) := by
  unfold apiKeyAuth
  split
  · exact h l
  · refine (within_authenticated request).bind (fun exc _ => returns_error exc) ?_
    intro refused l' hview hrefused
    cases refused with
    | none =>
        rw [← requestId_of_outer hview]
        exact h l'
    | some response =>
        apply Block.stays_pure
        intro returned hreturned
        cases hreturned
        exact .inr (hrefused response rfl)

theorem within_streamed (rest : RouteProgram Op Res Unit) (l : HttpLocals) :
    Inner log l (streamed self request rest) :=
  (within_inRequest self request rest l).tryExcept (fun _ _ _ => trivial) fun _ _ _ _ _ => Block.stays_throw trivial

/-- What comes out of the stack carries the id of the request. -/
def Carries (id : String) (response : HttpResponse) : Prop :=
  response.xRequestId = some id ∧ Formed self request (some id) response

variable {self request} in
theorem carries_of_formed {id : String} {response : HttpResponse} (h : Formed self request (some id) response) :
    Carries self request id { response with xRequestId := some id } := ⟨rfl, h⟩

theorem carries_unhandled (id : String) : Carries self request id (unhandledErrorResponse (some id)) :=
  ⟨rfl, .inr (namesError_errorResponse _ _ _ _ _ _)⟩

/-- The request has its id, and a response on its way out carries it. -/
structure Identified (app : HttpApp Op Res) (id : String) (log : HttpLog) (l : HttpLocals) (ψ : HttpLog)
    (outcome : Except HttpExc (HttpReply Op Res)) (l' : HttpLocals) : Prop where
  log : ψ = log
  requestId : l'.requestId = some id
  started : l'.responseStarted = l.responseStarted
  status : (l'.statusCode, l'.errorCode) = (l.statusCode, l.errorCode)
  carries : ∀ returned, outcome = .ok returned → Carries app request id returned.response

theorem meets_requestIdMiddleware {callNext : HttpBlock Op Res (HttpReply Op Res)}
    (h : ∀ l, Within log (Returns self request l.requestId) l callNext) (l : HttpLocals) :
    Block.Meets logged (Identified request self (RequestIdMiddleware.requestId request.requestId hex) log l) log l
      (requestIdMiddleware request hex callNext) := by
  unfold requestIdMiddleware
  rw [Block.meets_assign_bind, Block.meets_bind]
  apply (h _).meets
  intro outcome l' hview hreturns
  obtain ⟨hid, hview⟩ := Prod.mk.inj hview
  obtain ⟨hstarted, hstatus⟩ := Prod.mk.inj hview
  cases outcome with
  | error exc => exact ⟨rfl, hid, hstarted, hstatus, nofun⟩
  | ok returned =>
      refine ⟨rfl, hid, hstarted, hstatus, ?_⟩
      intro out hout
      cases hout
      exact carries_of_formed (hreturns returned rfl)

/-- The status and the error code that are recorded. -/
def recordedStatus : Except HttpExc (HttpReply Op Res) → Int × Option String
  | .ok returned => (returned.response.statusCode, returned.response.xErrorCode)
  | .error exc => if exc.isException then (exc.statusCode, exc.code) else (500, none)

/-- A request that has been dispatched: nothing has been sent, and the request has been recorded. -/
structure Dispatched (app : HttpApp Op Res) (log : HttpLog) (outcome : Except HttpExc (HttpReply Op Res))
    (l : HttpLocals) : Prop where
  sends : log.sends = []
  requestId : l.requestId = some (RequestIdMiddleware.requestId request.requestId hex)
  started : l.responseStarted = false
  carries : ∀ returned, outcome = .ok returned →
    Carries app request (RequestIdMiddleware.requestId request.requestId hex) returned.response
  skipped : request.path = "/metrics" → log.records = []
  recorded : request.path ≠ "/metrics" → ∃ sample, log.records = [sample] ∧ sample.method = request.method ∧
    (log.broken = true ∨ (sample.statusCode, sample.errorCode) = recordedStatus outcome)

theorem meets_metricsMiddleware {callNext : HttpBlock Op Res (HttpReply Op Res)}
    (h : ∀ l, Block.Meets logged
      (Identified request self (RequestIdMiddleware.requestId request.requestId hex) .empty l) .empty l
      callNext) :
    Block.Meets logged (Dispatched request hex self) .empty .initial (metricsMiddleware request callNext) := by
  unfold metricsMiddleware
  split
  · rename_i hmetrics
    refine (h _).mono ?_
    rintro ψ outcome l' ⟨rfl, hid, hstarted, -, hcarries⟩
    exact ⟨rfl, hid, hstarted, hcarries, fun _ => rfl, fun hother => absurd hmetrics hother⟩
  rename_i hother
  rw [Block.meets_assign_bind, Block.meets_tryFinally, Block.meets_tryExcept, Block.meets_bind]
  refine (h _).mono ?_
  -- the `finally` block, on every way out
  have hfinally : ∀ (outcome : Except HttpExc (HttpReply Op Res)) (l' : HttpLocals),
      l'.requestId = some (RequestIdMiddleware.requestId request.requestId hex) → l'.responseStarted = false →
      (∀ returned, outcome = .ok returned →
        Carries self request (RequestIdMiddleware.requestId request.requestId hex) returned.response) →
      (l'.statusCode, l'.errorCode) = recordedStatus outcome →
      Block.Meets logged (Block.finallyPost (Dispatched request hex self) outcome) .empty l' (do
        let l ← Block.locals
        httpCall (.recordHttpRequest ⟨request.method, l.route.getD request.path, l.statusCode, l.errorCode⟩) :
          HttpBlock Op Res Unit) := by
    intro outcome l' hid hstarted hcarries hstatus
    refine (Block.meets_locals_bind _).mpr ((Block.meets_await _).mpr ((Program.follows_perform _ _).mpr ⟨trivial, ?_⟩))
    intro answer
    cases answer with
    | error exc =>
        exact ⟨rfl, hid, hstarted, nofun, fun hmetrics => absurd hmetrics hother, fun _ => ⟨_, rfl, rfl, .inl rfl⟩⟩
    | ok done =>
        exact ⟨rfl, hid, hstarted, hcarries, fun hmetrics => absurd hmetrics hother,
          fun _ => ⟨_, rfl, rfl, .inr hstatus⟩⟩
  rintro ψ outcome l' ⟨rfl, hid, hstarted, hstatus, hcarries⟩
  cases outcome with
  | ok returned =>
      refine (Block.meets_assign_bind _ _).mpr ?_
      exact hfinally (.ok returned) _ hid hstarted hcarries rfl
  | error exc =>
      simp only [Block.seqPost, Block.exceptPost]
      split
      · rename_i hexception
        refine (Block.meets_assign_bind _ _).mpr ?_
        exact hfinally (.error exc) _ hid hstarted nofun (by rw [recordedStatus, if_pos hexception])
      · rename_i hbase
        refine hfinally (.error exc) _ hid hstarted nofun ?_
        rw [recordedStatus, if_neg hbase]
        exact hstatus

/-- How a request leaves the stack: with one response, or torn down without one. -/
structure Served (app : HttpApp Op Res) (log : HttpLog) (outcome : Except HttpExc Unit) : Prop where
  once : log.sends.length ≤ 1
  carries : ∀ response ∈ log.sends, Carries app request (RequestIdMiddleware.requestId request.requestId hex) response
  answered : log.sends = [] → ∃ name, outcome = .error (.base name)
  skipped : request.path = "/metrics" → log.records = []
  recorded : request.path ≠ "/metrics" → ∃ sample, log.records = [sample] ∧ sample.method = request.method ∧
    (log.broken = true ∨ ∀ response ∈ log.sends,
      (sample.statusCode, sample.errorCode) = (response.statusCode, response.xErrorCode) ∨
        ∃ exc, outcome = .error exc ∧ (sample.statusCode, sample.errorCode) = (exc.statusCode, exc.code) ∧
          response = unhandledErrorResponse (some (RequestIdMiddleware.requestId request.requestId hex)))

theorem exists_base {exc : HttpExc} (h : exc.isException = false) : ∃ name, exc = .base name := by
  cases exc
  case base name => exact ⟨name, rfl⟩
  all_goals cases h

/-- Starting a response sends it, whatever becomes of the call. -/
theorem meets_started {post : HttpLog → Except HttpExc Unit → HttpLocals → Prop} {response : HttpResponse}
    (hok : post { log with sends := log.sends ++ [response] } (.ok ()) { l with responseStarted := true })
    (herror : ∀ exc, post { log with sends := log.sends ++ [response], broken := true } (.error exc)
      { l with responseStarted := true }) :
    Block.Meets logged post log l (started response : HttpBlock Op Res Unit) := by
  unfold started
  rw [Block.meets_assign_bind]
  refine (Block.meets_await _).mpr ((Program.follows_perform _ _).mpr ⟨trivial, ?_⟩)
  intro answer
  cases answer with
  | ok done => exact hok
  | error exc => exact herror exc

theorem started_of_outer {l l' : HttpLocals} (h : outerLocals l' = outerLocals l) :
    l'.responseStarted = l.responseStarted := congrArg (fun view => view.2.1) h

/-- The last handler, once a response has been started: an exception goes on. -/
theorem meets_serverError_late {exc : HttpExc} (hstarted : l.responseStarted = true)
    {post : HttpLog → Except HttpExc Unit → HttpLocals → Prop} (hpost : ∀ exc l', post log (.error exc) l') :
    Block.Meets logged post log l (serverError self request exc) := by
  unfold serverError
  rw [Block.meets_bind]
  apply (within_captureRequestException _ _ _ _ _).meets
  rintro (raised | eventId) l' hview hsafe
  · exact hpost raised l'
  · refine (Block.meets_locals_bind _).mpr ?_
    rw [if_pos ((started_of_outer hview).trans hstarted)]
    exact hpost exc l'

/-- The last handler, before a response: it sends its own, and an exception goes on. -/
theorem meets_serverError_early {exc : HttpExc} (hstarted : l.responseStarted = false)
    {post : HttpLog → Except HttpExc Unit → HttpLocals → Prop}
    (htorn : ∀ name l', post log (.error (.base name)) l')
    (hsent : ∀ l', post { log with sends := log.sends ++ [unhandledErrorResponse l.requestId] } (.error exc) l')
    (hbroken : ∀ raised l', post { log with sends := log.sends ++ [unhandledErrorResponse l.requestId], broken := true }
      (.error raised) l') :
    Block.Meets logged post log l (serverError self request exc) := by
  unfold serverError
  rw [Block.meets_bind]
  apply (within_captureRequestException _ _ _ _ _).meets
  rintro (raised | eventId) l' hview hsafe
  · obtain ⟨name, rfl⟩ := exists_base (hsafe raised rfl).1
    exact htorn name l'
  · refine (Block.meets_locals_bind _).mpr ?_
    rw [if_neg (by rw [started_of_outer hview, hstarted]; exact Bool.false_ne_true), requestId_of_outer hview,
      Block.meets_bind]
    exact meets_started (hsent _) fun raised => hbroken raised _

/-- The response of a request that has been dispatched. -/
theorem Dispatched.sent {log : HttpLog} {returned : HttpReply Op Res} {l : HttpLocals}
    (h : Dispatched request hex self log (.ok returned) l) (outcome : Except HttpExc Unit) (broken : Bool)
    (hbroken : log.broken = true → broken = true) :
    Served request hex self { log with sends := log.sends ++ [returned.response], broken := broken } outcome := by
  have hsends : log.sends ++ [returned.response] = [returned.response] := by rw [h.sends, List.nil_append]
  rw [hsends]
  refine ⟨Nat.le_refl 1, ?_, nofun, h.skipped, ?_⟩
  · intro response hmem
    rw [List.mem_singleton.mp hmem]
    exact h.carries returned rfl
  · intro hother
    obtain ⟨sample, hrecords, hmethod, hstatus⟩ := h.recorded hother
    refine ⟨sample, hrecords, hmethod, hstatus.imp hbroken ?_⟩
    intro hsame response hmem
    rw [List.mem_singleton.mp hmem]
    exact .inl hsame

/-- The response to an exception that nobody has handled. -/
theorem Dispatched.failed {log : HttpLog} {exc : HttpExc} {l : HttpLocals}
    (h : Dispatched request hex self log (.error exc : Except HttpExc (HttpReply Op Res)) l) (hexc : exc.isException = true)
    (outcome : Except HttpExc Unit) (broken : Bool) (hbroken : log.broken = true → broken = true)
    (houtcome : broken = true ∨ outcome = .error exc) :
    Served request hex self { log with sends := log.sends ++ [unhandledErrorResponse l.requestId], broken := broken }
      outcome := by
  rw [h.sends, List.nil_append, h.requestId]
  refine ⟨Nat.le_refl 1, ?_, nofun, h.skipped, ?_⟩
  · intro response hmem
    rw [List.mem_singleton.mp hmem]
    exact carries_unhandled self request _
  · intro hother
    obtain ⟨sample, hrecords, hmethod, hstatus⟩ := h.recorded hother
    refine ⟨sample, hrecords, hmethod, ?_⟩
    rcases houtcome with hbroken' | houtcome
    · exact .inl hbroken'
    refine hstatus.imp hbroken ?_
    intro hsame response hmem
    rw [recordedStatus, if_pos hexc] at hsame
    exact .inr ⟨exc, houtcome, hsame, List.mem_singleton.mp hmem⟩

/-- A request that is torn down. -/
theorem Dispatched.torn {log : HttpLog} {out : Except HttpExc (HttpReply Op Res)} {l : HttpLocals}
    (h : Dispatched request hex self log out l) (name : String) :
    Served request hex self log (.error (.base name)) := by
  refine ⟨by rw [h.sends]; exact Nat.zero_le 1, ?_, fun _ => ⟨name, rfl⟩, h.skipped, ?_⟩
  · intro response hmem
    rw [h.sends] at hmem
    cases hmem
  · intro hother
    obtain ⟨sample, hrecords, hmethod, -⟩ := h.recorded hother
    refine ⟨sample, hrecords, hmethod, .inr ?_⟩
    intro response hmem
    rw [h.sends] at hmem
    cases hmem

/-- **The stack serves every request**, whatever its route does. -/
theorem meets_served : Block.Meets logged (fun log outcome _ => Served request hex self log outcome) .empty .initial
    (served self request hex) := by
  have hdispatched : Block.Meets logged (Dispatched request hex self) .empty .initial (dispatched self request hex) :=
    meets_metricsMiddleware self request hex (meets_requestIdMiddleware self request hex fun l =>
      within_apiKeyAuth self request fun l => within_exceptionMiddleware self request)
  unfold served
  rw [Block.meets_tryExcept, Block.meets_bind]
  apply hdispatched.mono
  intro log outcome l h
  cases outcome with
  | error exc =>
      simp only [Block.seqPost, Block.exceptPost]
      split
      · rename_i hexc
        refine meets_serverError_early self request h.started (fun name _ => h.torn self request hex name) ?_ ?_
        · exact fun _ => h.failed self request hex hexc _ log.broken id (.inr rfl)
        · exact fun raised _ => h.failed self request hex hexc _ true (fun _ => rfl) (.inl rfl)
      · rename_i hbase
        obtain ⟨name, rfl⟩ := exists_base (by simpa using hbase)
        exact h.torn self request hex name
  | ok returned =>
      simp only [Block.seqPost]
      rw [Block.meets_bind]
      apply meets_started
      · -- the rest is generated after the response has been started
        simp only [Block.seqPost]
        apply (within_streamed self request returned.rest _).meets
        intro left l' hview _
        cases left with
        | ok done => exact h.sent self request hex _ log.broken id
        | error exc =>
            simp only [Block.exceptPost]
            split
            · exact meets_serverError_late self request (started_of_outer hview) fun raised _ =>
                h.sent self request hex _ log.broken id
            · exact h.sent self request hex _ log.broken id
      · intro exc
        simp only [Block.seqPost, Block.exceptPost]
        split
        · exact meets_serverError_late self request rfl fun raised _ =>
            h.sent self request hex _ true fun _ => rfl
        · exact h.sent self request hex _ true fun _ => rfl

end Layers

/-! ### Whole requests -/

/-- The responses that the calls of a request have sent. -/
def sentBy (calls : List (Event (HttpOp Op) (HttpOp.Res Res) HttpExc)) : List HttpResponse :=
  calls.filterMap fun event => match event.op with
    | .send response => some response
    | _ => none

/-- The samples that they have recorded. -/
def recordedBy (calls : List (Event (HttpOp Op) (HttpOp.Res Res) HttpExc)) : List HttpSample :=
  calls.filterMap fun event => match event.op with
    | .recordHttpRequest sample => some sample
    | _ => none

/-- The registry and the connection have not raised. -/
def Unbroken (calls : List (Event (HttpOp Op) (HttpOp.Res Res) HttpExc)) : Prop :=
  ∀ event ∈ calls, ∀ exc, event.answer = .error exc →
    (∀ response, event.op ≠ .send response) ∧ ∀ sample, event.op ≠ .recordHttpRequest sample

theorem phase_logged (calls : List (Event (HttpOp Op) (HttpOp.Res Res) HttpExc)) :
    (logged.phase .empty calls).sends = sentBy calls ∧ (logged.phase .empty calls).records = recordedBy calls ∧
      (Unbroken calls → (logged.phase .empty calls).broken = false) := by
  induction calls using List.reverseRecOn with
  | nil => exact ⟨rfl, rfl, fun _ => rfl⟩
  | append_singleton calls event ih =>
      obtain ⟨hsends, hrecords, hbroken⟩ := ih
      have hbefore : Unbroken (calls ++ [event]) → (logged.phase .empty calls).broken = false :=
        fun h => hbroken fun earlier hearlier => h earlier (List.mem_append_left _ hearlier)
      have hnow : Unbroken (calls ++ [event]) → ∀ exc, event.answer = .error exc →
          (∀ response, event.op ≠ .send response) ∧ ∀ sample, event.op ≠ .recordHttpRequest sample :=
        fun h => h event (List.mem_append_right _ (List.mem_singleton_self event))
      rw [Protocol.phase_append, sentBy, recordedBy, List.filterMap_append, List.filterMap_append]
      obtain ⟨op, answer⟩ := event
      cases op
      case send response =>
        cases answer with
        | ok done => exact ⟨congrArg (· ++ [response]) hsends, hrecords.trans (List.append_nil _).symm, hbefore⟩
        | error exc =>
            refine ⟨congrArg (· ++ [response]) hsends, hrecords.trans (List.append_nil _).symm, ?_⟩
            intro h
            exact absurd rfl ((hnow h exc rfl).1 response)
      case recordHttpRequest sample =>
        cases answer with
        | ok done => exact ⟨hsends.trans (List.append_nil _).symm, congrArg (· ++ [sample]) hrecords, hbefore⟩
        | error exc =>
            refine ⟨hsends.trans (List.append_nil _).symm, congrArg (· ++ [sample]) hrecords, ?_⟩
            intro h
            exact absurd rfl ((hnow h exc rfl).2 sample)
      all_goals
        exact ⟨hsends.trans (List.append_nil _).symm, hrecords.trans (List.append_nil _).symm, hbefore⟩

/-- An application without routes, with services that return. -/
def bareApp : HttpApp Unit fun _ => Unit := ⟨false, fun _ => none⟩

def bareAnswer : (op : HttpOp Unit) → Unit → Except HttpExc (op.Res fun _ => Unit) × Unit
  | .authenticate _, s => (.ok ⟨"key", "user", "project", none⟩, s)
  | .service _, s => (.ok (), s)
  | .sdk (.captureException _), s => (.ok none, s)
  | .sdk .configureScope, s => (.ok (), s)
  | .sdk .pushScope, s => (.ok (), s)
  | .sdk (.setTag _ _), s => (.ok (), s)
  | .sdk (.setUser _), s => (.ok (), s)
  | .recordHttpRequest _, s => (.ok (), s)
  | .send _, s => (.ok (), s)

def keylessRequest : ClientRequest := ⟨"POST", "/v1/chat/completions", some "req_client", none⟩

def keylessCalls : List (Event (HttpOp Unit) (HttpOp.Res fun _ => Unit) HttpExc) :=
  (serve bareApp keylessRequest "hex").trace bareAnswer ()

theorem traces_keyless : (serve bareApp keylessRequest "hex").Traces keylessCalls
    ((serve bareApp keylessRequest "hex").run bareAnswer ()).1 := Program.traces_trace _ _ _

section Requests

variable (self : HttpApp Op Res) (request : ClientRequest) (hex : String)
  (calls : List (Event (HttpOp Op) (HttpOp.Res Res) HttpExc)) (outcome : Except HttpExc Unit)

theorem served_traces (h : (serve self request hex).Traces calls outcome) :
    Served request hex self (logged.phase .empty calls) outcome :=
  (Program.Follows.traces (meets_served self request hex).toProgram h).2

/-- **Every response can be traced to its request.** Whatever the route does and whatever raises, a request gets at most
one response, and none only when it is torn down; the response carries the id of the request, and is either what the
matched route has returned or an error response, which names its code in the header and in the body. -/
theorem responses_correlated (h : (serve self request hex).Traces calls outcome) :
    (sentBy calls).length ≤ 1 ∧
    (∀ response ∈ sentBy calls, Carries self request (RequestIdMiddleware.requestId request.requestId hex) response) ∧
    (sentBy calls = [] → ∃ name, outcome = .error (.base name)) := by
  have hserved := served_traces self request hex calls outcome h
  obtain ⟨hsends, -, -⟩ := phase_logged calls
  rw [← hsends]
  exact ⟨hserved.once, hserved.carries, hserved.answered⟩

/-- The refusal of a request without a key. -/
theorem responses_correlated_keyless :
    (sentBy keylessCalls).map (fun response => (response.statusCode, response.xErrorCode)) =
      [(401, some "missing_api_key")] ∧
    ∀ response ∈ sentBy keylessCalls, response.xRequestId = some "req_client" ∧ NamesError (some "req_client") response := by
  refine ⟨rfl, ?_⟩
  intro response hmem
  obtain ⟨hid, hformed⟩ :=
    (responses_correlated bareApp keylessRequest "hex" keylessCalls _ traces_keyless).2.1 response hmem
  refine ⟨hid, hformed.resolve_left ?_⟩
  rintro ⟨route, authContext, calls, returned, hroute, -⟩
  cases hroute

/-- **Every request is recorded once**, on every way out, and a scrape of the metrics never. The status and the error
code are those of the response, or those of an exception that left the stack behind the response to it. -/
theorem requests_recorded (h : (serve self request hex).Traces calls outcome) (hunbroken : Unbroken calls) :
    (request.path = "/metrics" → recordedBy calls = []) ∧
    (request.path ≠ "/metrics" → ∃ sample, recordedBy calls = [sample] ∧ sample.method = request.method ∧
      ∀ response ∈ sentBy calls,
        (sample.statusCode, sample.errorCode) = (response.statusCode, response.xErrorCode) ∨
          ∃ exc, outcome = .error exc ∧ (sample.statusCode, sample.errorCode) = (exc.statusCode, exc.code) ∧
            response = unhandledErrorResponse (some (RequestIdMiddleware.requestId request.requestId hex))) := by
  have hserved := served_traces self request hex calls outcome h
  obtain ⟨hsends, hrecords, hbroken⟩ := phase_logged calls
  rw [← hsends, ← hrecords]
  refine ⟨hserved.skipped, ?_⟩
  intro hother
  obtain ⟨sample, hsample, hmethod, hstatus⟩ := hserved.recorded hother
  refine ⟨sample, hsample, hmethod, hstatus.resolve_left ?_⟩
  rw [hbroken hunbroken]
  exact Bool.false_ne_true

/-- The refusal is recorded with its code. -/
theorem requests_recorded_keyless : ∃ sample, recordedBy keylessCalls = [sample] ∧ sample.method = "POST" ∧
    (sample.statusCode, sample.errorCode) = (401, some "missing_api_key") := by
  have hunbroken : Unbroken keylessCalls := by
    intro event hevent exc hexc
    have hok : keylessCalls.all (fun event => event.answer.isOk) = true := rfl
    have hevent := List.all_eq_true.mp hok event hevent
    rw [hexc] at hevent
    cases hevent
  obtain ⟨sample, hrecorded, hmethod, -⟩ :=
    (requests_recorded bareApp keylessRequest "hex" keylessCalls _ traces_keyless hunbroken).2 (by decide)
  have hsample : recordedBy keylessCalls = [⟨"POST", "/v1/chat/completions", 401, some "missing_api_key"⟩] := rfl
  rw [hsample] at hrecorded
  obtain rfl := List.singleton_inj.mp hrecorded
  exact ⟨_, hsample, hmethod, rfl⟩

end Requests

end HttpApp

end GpuInference
