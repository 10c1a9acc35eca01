import GpuInference.HttpResponses

/-!
The stack mediates every call of a route. Behind a protected path no service is called before the key that the client has
sent has been authenticated, and what is called is what the route does with that key: nobody acts for another tenant, and
no layer calls a service of its own.
-/

open Effect

namespace GpuInference

variable {Op : Type} {Res : Op → Type} {α β : Type}

/-- All that a route does for a request: its handler, and the body that is streamed. -/
def HttpRoute.whole (route : HttpRoute Op Res) (authContext : Option AuthContext) (requestId : Option String) :
    RouteProgram Op Res Unit :=
  (route.handler authContext requestId).bind fun returned => returned.rest

/-- A route has come this far, its services having answered in this way. -/
inductive RouteProgram.Serves (program : RouteProgram Op Res α) :
    List (Event Op Res HttpExc) → RouteProgram Op Res α → Prop
  | start : Serves program [] program
  | service {calls : List (Event Op Res HttpExc)} {op : Op} {next : Except HttpExc (Res op) → RouteProgram Op Res α}
      (h : Serves program calls (.call (.service op) next)) (answer : Except HttpExc (Res op)) :
      Serves program (calls ++ [⟨op, answer⟩]) (next answer)
  | bound {calls : List (Event Op Res HttpExc)} {model : Option String} {stream : Option Bool}
      {next : Except HttpExc Unit → RouteProgram Op Res α}
      (h : Serves program calls (.call (.bindRequestContext model stream) next)) :
      Serves program calls (next (.ok ()))
  | captured {calls : List (Event Op Res HttpExc)} {exc : HttpExc} {model : Option String} {stream : Option Bool}
      {next : Except HttpExc Unit → RouteProgram Op Res α}
      (h : Serves program calls (.call (.captureRequestException exc model stream) next)) :
      Serves program calls (next (.ok ()))

/-- What comes behind a part of a route does not concern it. -/
theorem RouteProgram.Serves.bind {program part : RouteProgram Op Res α} {calls : List (Event Op Res HttpExc)}
    (h : program.Serves calls part) (rest : α → RouteProgram Op Res β) :
    RouteProgram.Serves (program.bind rest) calls (part.bind rest) := by
  induction h with
  | start => exact .start
  | service _ answer ih => exact ih.service answer
  | bound _ ih => exact ih.bound
  | captured _ ih => exact ih.captured

namespace HttpApp

/-- The key that has been authenticated, and the calls of the services. -/
structure MediationLog (Op : Type) (Res : Op → Type) where
  auth : Option (String × AuthContext)
  calls : List (Event Op Res HttpExc)

namespace MediationLog

def empty : MediationLog Op Res := ⟨none, []⟩

def authContext (log : MediationLog Op Res) : Option AuthContext := log.auth.map Prod.snd

def after (log : MediationLog Op Res) : (op : HttpOp Op) → Except HttpExc (op.Res Res) → MediationLog Op Res
  | .authenticate rawKey, .ok authContext => { log with auth := some (rawKey, authContext) }
  | .service op, answer => { log with calls := log.calls ++ [⟨op, answer⟩] }
  | _, _ => log

end MediationLog

/-- The log of these calls. -/
def mediationLog (calls : List (Event (HttpOp Op) (HttpOp.Res Res) HttpExc)) : MediationLog Op Res :=
  calls.foldl (fun log event => log.after event.op event.answer) .empty

section Mediation

variable (self : HttpApp Op Res) (request : ClientRequest) (id : String)

/-- The key that the client has sent. -/
def sentKey : Option String := extractBearerToken ⟨request.path, request.authorization, id⟩

/-- Behind a protected path the key that the client has sent has been authenticated. -/
def Admitted (log : MediationLog Op Res) : Prop :=
  isProtectedPath request.path = true → ∃ rawKey authContext, sentKey request id = some rawKey ∧
    log.auth = some (rawKey, authContext)

/-- The program is what is left of the route of the request, run with the key that has been authenticated. -/
def Underway (log : MediationLog Op Res) (program : RouteProgram Op Res Unit) : Prop :=
  ∃ route, self.router request = some route ∧
    (route.whole log.authContext (some id)).Serves log.calls program

/-- A service is called by the route of the request, after the key of the request has been authenticated; a key is
authenticated where one is needed only, and it is the one that the client has sent. -/
def Mediated (log : MediationLog Op Res) : HttpOp Op → Prop
  | .service op => Admitted request id log ∧ ∃ next, Underway self request id log (.call (.service op) next)
  | .authenticate rawKey => isProtectedPath request.path = true ∧ sentKey request id = some rawKey ∧ log.calls = []
  | _ => True

def mediating : Protocol (HttpOp Op) (HttpOp.Res Res) HttpExc (MediationLog Op Res) where
  may log op := Mediated self request id log op
  after log op answer := log.after op answer

theorem unheeded_mediating : Unheeded (mediating self request id) := fun _ _ => ⟨trivial, fun _ => rfl⟩

/-- What a route reads of its request. -/
def readLocals (l : HttpLocals) : Option String × Option AuthContext := (l.requestId, l.authContext)

variable {self request id} {log : MediationLog Op Res} {l : HttpLocals}

/-- The functions of `sentry.py` raise with Sentry only. -/
theorem stays_report (exc : HttpExc) (model : Option String) (stream : Option Bool) :
    Block.Stays (mediating self request id) readLocals log (Safe self.sentryEnabled) l
      (captureRequestException self.sentryEnabled request exc model stream) :=
  stays_captureRequestException (unheeded_mediating self request id) (fun _ => rfl) _ _ _ _ _

/-- How a program of the route ends: the request has been mediated as before, and the program has come to its end with the
calls so far, unless the SDK has interrupted it. -/
def Passed (self : HttpApp Op Res) (program : RouteProgram Op Res α) (log : MediationLog Op Res) (l : HttpLocals)
    (ψ : MediationLog Op Res) (outcome : Except HttpExc α) (l' : HttpLocals) : Prop :=
  ψ.auth = log.auth ∧ readLocals l' = readLocals l ∧
    (program.Serves ψ.calls (Program.lift outcome) ∨ self.sentryEnabled = true ∧ ∃ exc, outcome = .error exc)

/-- The functions of `sentry.py` leave a route where it was. -/
theorem meets_aside {program : RouteProgram Op Res α} {body : HttpBlock Op Res β} {next : HttpBlock Op Res α}
    (h : Block.Stays (mediating self request id) readLocals log (Safe self.sentryEnabled) l body)
    (hnext : ∀ l', Block.Meets (mediating self request id) (Passed self program log l') log l' next) :
    Block.Meets (mediating self request id) (Passed self program log l) log l (body >>= fun _ => next) := by
  rw [Block.meets_bind]
  apply h.meets
  rintro (exc | value) l' hview hsafe
  · exact ⟨rfl, hview, .inr ⟨(hsafe exc rfl).2, exc, rfl⟩⟩
  · refine (hnext l').mono ?_
    rintro ψ outcome l'' ⟨hauth, hview', hend⟩
    exact ⟨hauth, hview'.trans hview, hend⟩

/-- **The step of a route.** What is left of it after its next calls is what the services have answered to. -/
theorem meets_inRequest {program : RouteProgram Op Res α} (part : RouteProgram Op Res α) (l : HttpLocals)
    (hadmitted : Admitted request id log) (hserves : program.Serves log.calls part)
    (hunderway : ∀ calls op next, program.Serves calls (.call (.service op) next) →
      ∃ next', Underway self request id { log with calls := calls } (.call (.service op) next')) :
    Block.Meets (mediating self request id) (Passed self program log l) log l (inRequest self request part) := by
  induction part generalizing log l with
  | ret value => exact ⟨rfl, rfl, .inl hserves⟩
  | raise exc => exact ⟨rfl, rfl, .inl hserves⟩
  | call op next ih =>
      cases op with
      | service op =>
          refine ⟨⟨hadmitted, hunderway _ _ _ hserves⟩, ?_⟩
          intro answer
          have hadmitted' : Admitted request id (log.after (.service op : HttpOp Op) answer) := hadmitted
          exact ih answer l hadmitted' (hserves.service answer) hunderway
      | bindRequestContext model stream =>
          exact meets_aside (stays_bindRequestContext (unheeded_mediating self request id) _ _ _ _) fun l' =>
            ih (.ok ()) l' hadmitted hserves.bound hunderway
      | captureRequestException exc model stream =>
          exact meets_aside (stays_report exc model stream) fun l' =>
            ih (.ok ()) l' hadmitted hserves.captured hunderway

/-- The locals are those of a request that has been mediated like this. -/
def Held (id : String) (log : MediationLog Op Res) (l : HttpLocals) : Prop :=
  readLocals l = (some id, log.authContext)

/-- The handler of the route has returned this. -/
def Returned (app : HttpApp Op Res) (request : ClientRequest) (id : String) (log : MediationLog Op Res)
    (returned : RouteReply Op Res) : Prop :=
  Admitted request id log ∧ ∃ route, app.router request = some route ∧
    (route.handler log.authContext (some id)).Serves log.calls (.ret returned)

/-- The route has not called a service, or it has come to its end with these calls: its handler has returned, and the body
has not been generated, or all of it has ended. Only the SDK can interrupt it. -/
def Concluded (app : HttpApp Op Res) (request : ClientRequest) (id : String) (log : MediationLog Op Res) : Prop :=
  log.calls = [] ∨ (∃ returned, Returned app request id log returned) ∨
    (Admitted request id log ∧ ∃ route outcome, app.router request = some route ∧
      (route.whole log.authContext (some id)).Serves log.calls (Program.lift outcome)) ∨ app.sentryEnabled = true

/-- How a layer ends: a response without a body ends the route, and so does an exception. -/
structure Yielded (app : HttpApp Op Res) (request : ClientRequest) (id : String) (log : MediationLog Op Res)
    (outcome : Except HttpExc (HttpReply Op Res)) (l : HttpLocals) : Prop where
  held : Held id log l
  concluded : Concluded app request id log
  followed : ∀ reply, outcome = .ok reply → reply.rest = .ret () ∨
    ∃ returned, reply.rest = returned.rest ∧ Returned app request id log returned

theorem yielded_error {exc : HttpExc} (h : Held id log l) (hconcluded : Concluded self request id log) :
    Yielded self request id log (.error exc : Except HttpExc (HttpReply Op Res)) l := by
  refine ⟨h, hconcluded, ?_⟩
  intro returned hreturned
  cases hreturned

theorem yielded_reply {response : HttpResponse} (h : Held id log l) (hconcluded : Concluded self request id log) :
    Yielded self request id log (.ok (reply response) : Except HttpExc (HttpReply Op Res)) l := by
  refine ⟨h, hconcluded, ?_⟩
  intro returned hreturned
  cases hreturned
  exact .inl rfl

theorem meets_routed (hheld : Held id log l) (hadmitted : Admitted request id log) (hcalls : log.calls = []) :
    Block.Meets (mediating self request id) (Yielded self request id) log l (routed self request) := by
  unfold routed
  split
  · exact yielded_error hheld (.inl hcalls)
  rename_i route hroute
  rw [Block.meets_assign_bind, Block.meets_locals_bind, Block.meets_bind]
  obtain ⟨hid, hauth⟩ := Prod.mk.inj hheld
  have hunderway : ∀ calls op next, (route.handler l.authContext l.requestId).Serves calls (.call (.service op) next) →
      ∃ next', Underway self request id { log with calls := calls } (.call (.service op) next') := by
    intro calls op next hserves
    rw [hid, hauth] at hserves
    exact ⟨_, route, hroute, hserves.bind _⟩
  have hserves : (route.handler l.authContext l.requestId).Serves log.calls
      (route.handler l.authContext l.requestId) := by
    rw [hcalls]
    exact .start
  refine (meets_inRequest _ _ hadmitted hserves hunderway).mono ?_
  rintro ψ outcome l' ⟨hauth', hview, hend⟩
  have hheld' : Held id ψ l' := by
    rw [Held, MediationLog.authContext, hauth', hview]
    exact hheld
  have hadmitted' : Admitted request id ψ := by
    rw [Admitted, hauth']
    exact hadmitted
  have hauthContext : l.authContext = ψ.authContext := by
    rw [MediationLog.authContext, hauth']
    exact hauth
  rw [hid, hauthContext] at hend
  cases outcome with
  | error exc =>
      refine yielded_error hheld' ?_
      rcases hend with hraised | ⟨henabled, -⟩
      · exact .inr (.inr (.inl ⟨hadmitted', route, .error exc, hroute, hraised.bind _⟩))
      · exact .inr (.inr (.inr henabled))
  | ok returned =>
      rcases hend with hreturned | ⟨-, exc, herror⟩
      · have hreturned : Returned self request id ψ returned := ⟨hadmitted', route, hroute, hreturned⟩
        refine ⟨hheld', .inr (.inl ⟨returned, hreturned⟩), ?_⟩
        intro reply hreply
        cases hreply
        exact .inr ⟨returned, rfl, hreturned⟩
      · cases herror

theorem meets_errorHandler (exc : HttpExc) (hheld : Held id log l) (hconcluded : Concluded self request id log) :
    Block.Meets (mediating self request id) (Yielded self request id) log l (errorHandler self request exc) := by
  unfold errorHandler
  rw [Block.meets_locals_bind]
  cases exc with
  | app error =>
      rw [Block.meets_bind]
      apply (stays_report _ none none).meets
      rintro (raised | eventId) l' hview -
      · exact yielded_error (hview.trans hheld) hconcluded
      · exact yielded_reply (hview.trans hheld) hconcluded
  | http statusCode detail => exact yielded_reply hheld hconcluded
  | validation => exact yielded_reply hheld hconcluded
  | other statusCode code text => exact yielded_error hheld hconcluded
  | base name => exact yielded_error hheld hconcluded

theorem meets_exceptionMiddleware (hheld : Held id log l) (hadmitted : Admitted request id log)
    (hcalls : log.calls = []) :
    Block.Meets (mediating self request id) (Yielded self request id) log l (exceptionMiddleware self request) := by
  unfold exceptionMiddleware
  rw [Block.meets_tryExcept]
  refine (meets_routed hheld hadmitted hcalls).mono ?_
  rintro ψ (exc | returned) l' ⟨hheld', hconcluded, hfollowed⟩
  · rw [Block.exceptPost]
    split
    · exact meets_errorHandler exc hheld' hconcluded
    · exact ⟨hheld', hconcluded, hfollowed⟩
  · exact ⟨hheld', hconcluded, hfollowed⟩

/-- How the check of the key ends; the route goes on after a check without a response only. -/
structure Checked (request : ClientRequest) (id : String) (log : MediationLog Op Res)
    (outcome : Except HttpExc (Option HttpResponse)) (l : HttpLocals) : Prop where
  held : Held id log l
  calls : log.calls = []
  admitted : outcome = .ok none → Admitted request id log

theorem checked_error {exc : HttpExc} (h : Held id log l) (hcalls : log.calls = []) :
    Checked request id log (.error exc) l := by
  refine ⟨h, hcalls, ?_⟩
  intro hok
  cases hok

theorem meets_keyChecked (hheld : Held id (.empty : MediationLog Op Res) l)
    (hprotected : isProtectedPath request.path = true) :
    Block.Meets (mediating self request id) (Checked request id) .empty l (keyChecked request) := by
  obtain ⟨hid, hauth⟩ := Prod.mk.inj hheld
  have hsent : extractBearerToken ⟨request.path, request.authorization, l.requestId.getD ""⟩ = sentKey request id := by
    rw [hid]
    rfl
  unfold keyChecked
  rw [Block.meets_locals_bind, hsent]
  split
  · exact checked_error hheld rfl
  · rename_i rawKey hkey
    refine Block.meets_perform_bind ⟨hprotected, hkey, rfl⟩ (fun exc => checked_error hheld rfl) ?_
    intro authContext
    rw [Block.meets_assign_bind]
    refine ⟨?_, rfl, ?_⟩
    · exact congrArg (fun requestId => (requestId, some authContext)) hid
    · exact fun _ _ => ⟨rawKey, authContext, hkey, rfl⟩

theorem meets_authenticated (hheld : Held id (.empty : MediationLog Op Res) l)
    (hprotected : isProtectedPath request.path = true) :
    Block.Meets (mediating self request id) (Checked request id) .empty l (authenticated request) := by
  unfold authenticated
  rw [Block.meets_tryExcept]
  refine (meets_keyChecked hheld hprotected).mono ?_
  rintro ψ (exc | refused) l' hchecked
  · rw [Block.exceptPost]
    split
    · rw [Block.meets_locals_bind]
      cases exc
      case app error =>
        refine ⟨hchecked.held, hchecked.calls, ?_⟩
        intro hok
        cases hok
      all_goals exact checked_error hchecked.held hchecked.calls
    · exact hchecked
  · exact hchecked

theorem meets_apiKeyAuth (hheld : Held id (.empty : MediationLog Op Res) l) :
    Block.Meets (mediating self request id) (Yielded self request id) .empty l
      (apiKeyAuth request (exceptionMiddleware self request)) := by
  unfold apiKeyAuth
  split
  · rename_i hopen
    refine meets_exceptionMiddleware hheld ?_ rfl
    intro hprotected
    rw [hprotected] at hopen
    cases hopen
  · rename_i hprotected
    rw [Block.meets_bind]
    refine (meets_authenticated hheld (by simpa using hprotected)).mono ?_
    rintro ψ (exc | refused) l' hchecked
    · exact yielded_error hchecked.held (.inl hchecked.calls)
    · simp only [Block.seqPost]
      cases refused with
      | none => exact meets_exceptionMiddleware hchecked.held (hchecked.admitted rfl) hchecked.calls
      | some response => exact yielded_reply hchecked.held (.inl hchecked.calls)

end Mediation

section Requests

variable (self : HttpApp Op Res) (request : ClientRequest) (hex : String)

theorem meets_identified {l : HttpLocals} (hauth : l.authContext = none) :
    Block.Meets (mediating self request (RequestIdMiddleware.requestId request.requestId hex))
      (Yielded self request (RequestIdMiddleware.requestId request.requestId hex)) .empty l
      (requestIdMiddleware request hex (apiKeyAuth request (exceptionMiddleware self request))) := by
  unfold requestIdMiddleware
  rw [Block.meets_assign_bind, Block.meets_bind]
  have hheld : Held (RequestIdMiddleware.requestId request.requestId hex) (.empty : MediationLog Op Res)
      { l with requestId := some (RequestIdMiddleware.requestId request.requestId hex) } :=
    congrArg (Prod.mk _) hauth
  refine (meets_apiKeyAuth hheld).mono ?_
  rintro ψ (exc | returned) l' ⟨hheld, hconcluded, hfollowed⟩
  · exact ⟨hheld, hconcluded, hfollowed⟩
  · refine ⟨hheld, hconcluded, ?_⟩
    intro returned' hreturned
    cases hreturned
    exact hfollowed returned rfl

theorem meets_dispatched :
    Block.Meets (mediating self request (RequestIdMiddleware.requestId request.requestId hex))
      (Yielded self request (RequestIdMiddleware.requestId request.requestId hex)) .empty .initial
      (dispatched self request hex) := by
  unfold dispatched metricsMiddleware
  split
  · exact meets_identified self request hex rfl
  rw [Block.meets_assign_bind, Block.meets_tryFinally, Block.meets_tryExcept, Block.meets_bind]
  have hrecorded : ∀ {ψ : MediationLog Op Res} {outcome : Except HttpExc (HttpReply Op Res)} {l : HttpLocals},
      Yielded self request (RequestIdMiddleware.requestId request.requestId hex) ψ outcome l →
      Block.Meets (mediating self request (RequestIdMiddleware.requestId request.requestId hex))
        (Block.finallyPost (Yielded self request (RequestIdMiddleware.requestId request.requestId hex)) outcome) ψ l
        (do
          let l ← Block.locals
          httpCall (.recordHttpRequest ⟨request.method, l.route.getD request.path, l.statusCode, l.errorCode⟩)) := by
    rintro ψ outcome l ⟨hheld, hconcluded, hfollowed⟩
    rw [Block.meets_locals_bind]
    refine (Block.meets_await _).mpr ((Program.follows_perform _ ψ).mpr ⟨trivial, ?_⟩)
    intro answer
    cases answer with
    | ok done => exact ⟨hheld, hconcluded, hfollowed⟩
    | error exc => exact yielded_error hheld hconcluded
  refine (meets_identified self request hex rfl).mono ?_
  rintro ψ (exc | returned) l ⟨hheld, hconcluded, hfollowed⟩
  · simp only [Block.seqPost, Block.exceptPost]
    split
    · rw [Block.meets_assign_bind]
      exact hrecorded (yielded_error hheld hconcluded)
    · exact hrecorded ⟨hheld, hconcluded, hfollowed⟩
  · simp only [Block.seqPost]
    rw [Block.meets_assign_bind]
    exact hrecorded ⟨hheld, hconcluded, hfollowed⟩

/-- The body is generated as the rest of the route. -/
theorem meets_streamed {log : MediationLog Op Res} {l : HttpLocals} {id : String} {returned : RouteReply Op Res}
    (h : Returned self request id log returned) :
    Block.Meets (mediating self request id) (fun ψ _ _ => Concluded self request id ψ) log l
      (streamed self request returned.rest) := by
  obtain ⟨hadmitted, route, hroute, hserves⟩ := h
  unfold streamed
  rw [Block.meets_tryExcept]
  refine (meets_inRequest returned.rest l hadmitted (hserves.bind fun returned => returned.rest) ?_).mono ?_
  · exact fun calls op next hnext => ⟨next, route, hroute, hnext⟩
  · rintro ψ outcome l' ⟨hauth, -, hend⟩
    have hconcluded : Concluded self request id ψ := by
      rcases hend with hended | ⟨henabled, -⟩
      · refine .inr (.inr (.inl ⟨?_, route, outcome, hroute, ?_⟩))
        · rw [Admitted, hauth]
          exact hadmitted
        · rw [MediationLog.authContext, hauth]
          exact hended
      · exact .inr (.inr (.inr henabled))
    cases outcome with
    | ok done => exact hconcluded
    | error exc =>
        rw [Block.exceptPost]
        split
        · exact hconcluded
        · exact hconcluded

theorem meets_serverError_concluded {log : MediationLog Op Res} {l : HttpLocals} {id : String} (exc : HttpExc)
    (h : Concluded self request id log) :
    Block.Meets (mediating self request id) (fun ψ _ _ => Concluded self request id ψ) log l
      (serverError self request exc) := by
  unfold serverError
  rw [Block.meets_bind]
  apply (stays_report exc none none).meets
  rintro (raised | eventId) l' - -
  · exact h
  · simp only [Block.seqPost]
    rw [Block.meets_locals_bind]
    split
    · exact h
    · rw [Block.meets_bind]
      unfold started
      rw [Block.meets_assign_bind]
      refine (Block.meets_await _).mpr ((Program.follows_perform _ log).mpr ⟨trivial, ?_⟩)
      intro answer
      cases answer with
      | ok done => exact h
      | error raised => exact h

/-- Nothing is called but what is mediated, whatever the route does, and the route is run to its end. -/
theorem meets_mediated :
    Block.Meets (mediating self request (RequestIdMiddleware.requestId request.requestId hex))
      (fun log _ _ => Concluded self request (RequestIdMiddleware.requestId request.requestId hex) log) .empty .initial
      (served self request hex) := by
  have hexcept : ∀ {ψ : MediationLog Op Res} (outcome : Except HttpExc Unit) (l : HttpLocals),
      Concluded self request (RequestIdMiddleware.requestId request.requestId hex) ψ →
      Block.exceptPost (mediating self request (RequestIdMiddleware.requestId request.requestId hex))
        (fun log _ _ => Concluded self request (RequestIdMiddleware.requestId request.requestId hex) log)
        HttpExc.isException (serverError self request) ψ outcome l := by
    intro ψ outcome l hconcluded
    cases outcome with
    | ok done => exact hconcluded
    | error exc =>
        rw [Block.exceptPost]
        split
        · exact meets_serverError_concluded self request exc hconcluded
        · exact hconcluded
  unfold served
  rw [Block.meets_tryExcept, Block.meets_bind]
  refine (meets_dispatched self request hex).mono ?_
  rintro ψ (exc | reply) l ⟨-, hconcluded, hfollowed⟩
  · exact hexcept (.error exc) l hconcluded
  · simp only [Block.seqPost]
    rw [Block.meets_bind]
    unfold started
    rw [Block.meets_assign_bind]
    refine (Block.meets_await _).mpr ((Program.follows_perform _ ψ).mpr ⟨trivial, ?_⟩)
    intro answer
    cases answer with
    | error exc => exact hexcept (.error exc) _ hconcluded
    | ok done =>
        rcases hfollowed reply rfl with hempty | ⟨returned, hrest, hreturned⟩
        · simp only [Block.seqPost]
          rw [hempty]
          exact hexcept (.ok ()) { l with responseStarted := true } hconcluded
        · simp only [Block.seqPost]
          rw [hrest]
          exact (meets_streamed self request hreturned).mono fun χ outcome l' hend => hexcept outcome l' hend

variable (calls : List (Event (HttpOp Op) (HttpOp.Res Res) HttpExc)) (outcome : Except HttpExc Unit)

/-- **Complete mediation.** Whenever a request calls a service, the call is the one that its route makes at this point,
given the answers of the services so far and run with the id of the request and the key that has been authenticated;
behind a protected path there is such a key, and it is the one that the client has sent. A key is authenticated behind a
protected path only, before any service is called. -/
theorem services_mediated (h : (serve self request hex).Traces calls outcome)
    (before : List (Event (HttpOp Op) (HttpOp.Res Res) HttpExc)) (event : Event (HttpOp Op) (HttpOp.Res Res) HttpExc)
    (after : List (Event (HttpOp Op) (HttpOp.Res Res) HttpExc)) (hcalls : calls = before ++ event :: after) :
    Mediated self request (RequestIdMiddleware.requestId request.requestId hex) (mediationLog before) event.op :=
  (Program.Follows.traces (meets_mediated self request hex).toProgram h).1 before event after hcalls

/-- Without Sentry a route that has called a service is run to its end. -/
theorem concluded_traces (h : (serve self request hex).Traces calls outcome) :
    Concluded self request (RequestIdMiddleware.requestId request.requestId hex) (mediationLog calls) :=
  (Program.Follows.traces (meets_mediated self request hex).toProgram h).2

end Requests

def servingApp : HttpApp Unit fun _ => Unit where
  sentryEnabled := false
  router _ := some ⟨"/v1/batch/jobs", fun _ _ => .call (.service ()) fun _ => .ret ⟨200, .text "ok", .ret ()⟩⟩

def keyedRequest : ClientRequest := ⟨"POST", "/v1/batch/jobs", some "req_client", some "Bearer an_key"⟩

def servingCalls : List (Event (HttpOp Unit) (HttpOp.Res fun _ => Unit) HttpExc) :=
  (serve servingApp keyedRequest "hex").trace bareAnswer ()

theorem traces_serving : (serve servingApp keyedRequest "hex").Traces servingCalls
    ((serve servingApp keyedRequest "hex").run bareAnswer ()).1 := Program.traces_trace _ _ _

/-- The service is called after the key of the request has been authenticated. -/
theorem services_mediated_serving :
    Mediated servingApp keyedRequest "req_client" (mediationLog (servingCalls.take 1)) (.service ()) ∧
      (mediationLog (servingCalls.take 1)).auth = some ("an_key", ⟨"key", "user", "project", none⟩) :=
  ⟨services_mediated servingApp keyedRequest "hex" servingCalls _ traces_serving (servingCalls.take 1)
    ⟨.service (), .ok ()⟩ (servingCalls.drop 2) rfl, rfl⟩

end HttpApp

end GpuInference
