import GpuInference.HttpResponses

/-!
What Sentry sees of a request. An event is reported at most once, is never an expected error of a client, and carries the
id of the request and the key that the request has been authenticated with. With an SDK that takes every event, what
leaves the stack as an exception has been reported.
-/

open Effect

namespace GpuInference

namespace HttpApp

variable {Op : Type} {Res : Op → Type} {α : Type}

/-- The events that the SDK has taken, the key of the request, the tags of the scope that has been pushed last, and
whether the SDK or the connection has failed. -/
structure SentryLog where
  reports : List HttpExc
  auth : Option AuthContext
  scope : Option (List (String × String))
  impaired : Bool

def SentryLog.empty : SentryLog := ⟨[], none, none, false⟩

/-- `configure_scope` enters the scope of the request, which is no scope of its own. -/
def SentryLog.after (log : SentryLog) : (op : HttpOp Op) → Except HttpExc (op.Res Res) → SentryLog
  | .authenticate _, .ok authContext => { log with auth := some authContext }
  | .sdk .pushScope, .ok _ => { log with scope := some [] }
  | .sdk .configureScope, .ok _ => { log with scope := none }
  | .sdk (.setTag key value), .ok _ => { log with scope := log.scope.map (· ++ [(key, value)]) }
  | .sdk (.captureException exc), .ok (some _) => { log with reports := log.reports ++ [exc] }
  | .sdk (.captureException _), .ok none => { log with impaired := true }
  | .sdk _, .error _ => { log with impaired := true }
  | .send _, .error _ => { log with impaired := true }
  | _, _ => log

/-- The log of these calls. -/
def sentryLog (calls : List (Event (HttpOp Op) (HttpOp.Res Res) HttpExc)) : SentryLog :=
  calls.foldl (fun log event => log.after event.op event.answer) .empty

/-- The tags that are set. -/
def present (tags : List (String × Option String)) : List (String × String) :=
  tags.filterMap fun tag => tag.2.map (tag.1, ·)

/-- The tags of a report: those of the request, the code of the error, and the key where there is one. -/
def reportTags (request : ClientRequest) (id : String) (auth : Option AuthContext) (exc : HttpExc)
    (model : Option String) (stream : Option Bool) : List (String × Option String) :=
  [("request_id", some id), ("endpoint", some request.path), ("method", some request.method), ("model", model),
    ("stream", stream.map fun value => if value then "True" else "False"), ("error_code", exc.code)] ++
    match auth with
    | none => []
    | some authContext => [("user_id", some authContext.userId), ("project_id", some authContext.projectId),
        ("api_key_id", some authContext.apiKeyId)]

/-- A report is made with Sentry only, about no expected error of a client, when none has been made before, and under the
tags of its request. -/
def Reportable (self : HttpApp Op Res) (request : ClientRequest) (id : String) (log : SentryLog) (exc : HttpExc) : Prop :=
  self.sentryEnabled = true ∧ shouldSkipException exc = false ∧ log.reports = [] ∧ ∃ model stream,
    log.scope = some (present (reportTags request id log.auth exc model stream))

def reporting (self : HttpApp Op Res) (request : ClientRequest) (id : String) :
    Protocol (HttpOp Op) (HttpOp.Res Res) HttpExc SentryLog where
  may log op := match op with
    | .sdk (.captureException exc) => Reportable self request id log exc
    | _ => True
  after log op answer := log.after op answer

/-- What the locals know of the log. -/
structure Noted (requestId : Option String) (log : SentryLog) (l : HttpLocals) : Prop where
  requestId : l.requestId = requestId
  auth : l.authContext = log.auth
  once : log.reports.length ≤ 1
  marked : l.sentryExceptionCaptured = true ↔ log.reports ≠ []

section Sentry

variable (self : HttpApp Op Res) (request : ClientRequest) (id : String) {log : SentryLog} {l : HttpLocals}

/-- The log after some calls that report nothing. -/
def Scoped (log ψ : SentryLog) : Prop := ψ.reports = log.reports ∧ ψ.auth = log.auth

/-- An exception is that of the SDK. -/
def Torn (ψ : SentryLog) (outcome : Except HttpExc α) : Prop := ∀ exc, outcome = .error exc → ψ.impaired = true

theorem torn_ok {ψ : SentryLog} (value : α) : Torn ψ (.ok value : Except HttpExc α) := by
  intro exc hexc
  cases hexc

theorem torn_of_impaired {ψ : SentryLog} (outcome : Except HttpExc α) (h : ψ.impaired = true) : Torn ψ outcome :=
  fun _ _ => h

/-- The tags of the scope after all of them have been set. -/
theorem meets_setTags (tags : List (String × Option String)) (log : SentryLog) (l : HttpLocals) :
    Block.Meets (reporting self request id) (fun ψ outcome l' => l' = l ∧ Scoped log ψ ∧
      (outcome = .ok () → ψ.scope = log.scope.map (· ++ present tags)) ∧ Torn ψ outcome) log l (setTags tags : HttpBlock Op Res Unit) := by
  induction tags generalizing log with
  | nil =>
      refine ⟨rfl, ⟨rfl, rfl⟩, ?_, torn_ok ()⟩
      intro _
      cases log.scope with
      | none => rfl
      | some tags => exact congrArg some (List.append_nil tags).symm
  | cons tag tags ih =>
      obtain ⟨key, value⟩ := tag
      cases value with
      | none => exact ih log
      | some value =>
          refine Block.meets_perform_bind trivial ?_ ?_
          · intro exc
            refine ⟨rfl, ⟨rfl, rfl⟩, ?_, torn_of_impaired _ rfl⟩
            intro hok
            cases hok
          · intro done
            refine (ih _).mono ?_
            rintro ψ outcome l' ⟨rfl, hscoped, hscope, himpaired⟩
            refine ⟨rfl, hscoped, ?_, himpaired⟩
            intro hok
            rw [hscope hok]
            change (log.scope.map (· ++ [(key, value)])).map (· ++ present tags) = _
            cases log.scope with
            | none => rfl
            | some before => exact congrArg some (List.append_assoc before [(key, value)] (present tags))

theorem meets_bindRequestContext (model : Option String) (stream : Option Bool) :
    Block.Meets (reporting self request id) (fun ψ outcome l' => l' = l ∧ Scoped log ψ ∧ Torn ψ outcome) log l
      (bindRequestContext self.sentryEnabled request model stream : HttpBlock Op Res Unit) := by
  unfold bindRequestContext
  split
  · exact ⟨rfl, ⟨rfl, rfl⟩, torn_ok ()⟩
  rw [Block.meets_tryExcept, Block.meets_locals_bind]
  have hswallowed : ∀ {ψ : SentryLog} (outcome : Except HttpExc Unit), Scoped log ψ → Torn ψ outcome →
      Block.exceptPost (reporting self request id)
        (fun ψ outcome l' => l' = l ∧ Scoped log ψ ∧ Torn ψ outcome) HttpExc.isException
        (fun _ => (pure () : HttpBlock Op Res Unit)) ψ outcome l := by
    intro ψ outcome hscoped himpaired
    cases outcome with
    | ok done => exact ⟨rfl, hscoped, torn_ok ()⟩
    | error exc =>
        rw [Block.exceptPost]
        split
        · exact ⟨rfl, hscoped, torn_ok ()⟩
        · exact ⟨rfl, hscoped, himpaired⟩
  refine Block.meets_perform_bind trivial (fun exc => hswallowed (.error exc) ⟨rfl, rfl⟩ (torn_of_impaired _ rfl)) ?_
  intro entered
  rw [Block.meets_bind]
  refine (meets_setTags self request id _ _ _).mono ?_
  rintro ψ (exc | done) l' ⟨rfl, hscoped, -, himpaired⟩
  · exact hswallowed (.error exc) hscoped himpaired
  · simp only [Block.seqPost]
    split
    · refine (Block.meets_await _).mpr ((Program.follows_perform _ ψ).mpr ⟨trivial, ?_⟩)
      intro answer
      cases answer with
      | ok done => exact hswallowed (.ok done) hscoped (torn_ok ())
      | error exc => exact hswallowed (.error exc) hscoped (torn_of_impaired _ rfl)
    · exact hswallowed (.ok ()) hscoped (torn_ok ())

/-- The event that has been taken. -/
def takenReport (exc : HttpExc) : Except HttpExc (Option String) → List HttpExc
  | .ok (some _) => [exc]
  | _ => []

/-- What an attempt to report tells of the log. -/
structure Attempted (sentryEnabled : Bool) (exc : HttpExc) (log ψ : SentryLog)
    (outcome : Except HttpExc (Option String)) : Prop where
  auth : ψ.auth = log.auth
  reports : ψ.reports = takenReport exc outcome
  failed : sentryEnabled = true → shouldSkipException exc = false → ψ.reports = [] → ψ.impaired = true
  torn : Torn ψ outcome

theorem meets_captureException {exc : HttpExc} {tags : List (String × Option String)} (hnone : log.reports = [])
    (htags : ∃ model stream, tags = reportTags request id log.auth exc model stream) :
    Block.Meets (reporting self request id)
      (fun ψ outcome l' => l' = l ∧ Attempted self.sentryEnabled exc log ψ outcome) log l
      (captureException self.sentryEnabled exc tags : HttpBlock Op Res (Option String)) := by
  unfold captureException
  split
  · rename_i hskipped
    refine ⟨rfl, rfl, hnone, ?_, torn_ok none⟩
    intro henabled hreported
    rw [henabled, hreported] at hskipped
    cases hskipped
  rename_i hreported
  obtain ⟨hskip, henabled⟩ : shouldSkipException exc = false ∧ self.sentryEnabled = true := by simpa using hreported
  rw [Block.meets_tryExcept]
  have hswallowed : ∀ {ψ : SentryLog} (raised : HttpExc), Scoped log ψ → ψ.impaired = true →
      Block.exceptPost (reporting self request id)
        (fun ψ outcome l' => l' = l ∧ Attempted self.sentryEnabled exc log ψ outcome) HttpExc.isException
        (fun _ => (pure none : HttpBlock Op Res (Option String))) ψ (.error raised) l := by
    rintro ψ raised ⟨hreports, hauth⟩ himpaired
    rw [Block.exceptPost]
    split
    · exact ⟨rfl, hauth, hreports.trans hnone, fun _ _ _ => himpaired, torn_ok none⟩
    · exact ⟨rfl, hauth, hreports.trans hnone, fun _ _ _ => himpaired, torn_of_impaired _ himpaired⟩
  refine Block.meets_perform_bind trivial (fun raised => hswallowed raised ⟨rfl, rfl⟩ rfl) ?_
  intro entered
  rw [Block.meets_bind]
  refine (meets_setTags self request id _ _ _).mono ?_
  rintro ψ (raised | done) l' ⟨rfl, ⟨hreports, hauth⟩, hscope, himpaired⟩
  · exact hswallowed raised ⟨hreports, hauth⟩ (himpaired raised rfl)
  obtain ⟨model, stream, rfl⟩ := htags
  have hauth' : ψ.auth = log.auth := hauth
  refine (Block.meets_await _).mpr ((Program.follows_perform _ ψ).mpr ⟨?_, ?_⟩)
  · refine ⟨henabled, hskip, hreports.trans hnone, model, stream, ?_⟩
    rw [hauth', hscope rfl]
    rfl
  · intro answer
    rcases answer with raised | _ | eventId
    · exact hswallowed raised ⟨hreports, hauth⟩ rfl
    · exact ⟨rfl, hauth', hreports.trans hnone, fun _ _ _ => rfl, torn_ok none⟩
    · have htaken : (ψ.after (.sdk (.captureException exc) : HttpOp Op) (.ok (some eventId) :
          Except HttpExc (HttpOp.Res Res (.sdk (.captureException exc))))).reports = [exc] :=
        congrArg (· ++ [exc]) (hreports.trans hnone)
      exact ⟨rfl, hauth', htaken, fun _ _ hempty => absurd (htaken.symm.trans hempty) (List.cons_ne_nil _ _),
        torn_ok (some eventId)⟩

theorem Noted.of_scoped {requestId : Option String} {log ψ : SentryLog} {l : HttpLocals} (h : Noted requestId log l)
    (hscoped : Scoped log ψ) : Noted requestId ψ l := by
  obtain ⟨hreports, hauth⟩ := hscoped
  refine ⟨h.requestId, h.auth.trans hauth.symm, ?_, ?_⟩
  · rw [hreports]
    exact h.once
  · rw [hreports]
    exact h.marked

/-- A request that has been reported is marked; an attempt that reports nothing has met a failure. -/
theorem meets_captureRequestException (exc : HttpExc) (model : Option String) (stream : Option Bool)
    (h : Noted (some id) log l) :
    Block.Meets (reporting self request id) (fun ψ outcome l' => Noted (some id) ψ l' ∧
      (self.sentryEnabled = true → shouldSkipException exc = false → ψ.reports = [] → ψ.impaired = true) ∧ Torn ψ outcome)
      log l
      (captureRequestException self.sentryEnabled request exc model stream : HttpBlock Op Res (Option String)) := by
  unfold captureRequestException
  rw [Block.meets_locals_bind]
  split
  · rename_i hcaptured
    exact ⟨h, fun _ _ hempty => absurd hempty (h.marked.mp hcaptured), torn_ok none⟩
  rename_i hunmarked
  have hnone : log.reports = [] := not_not.mp (mt h.marked.mpr hunmarked)
  have hunmarked : l.sentryExceptionCaptured = false := by simpa using hunmarked
  have hempty : ∀ {ψ : SentryLog}, ψ.auth = log.auth → ψ.reports = [] → Noted (some id) ψ l := by
    intro ψ hauth hreports
    exact h.of_scoped ⟨hreports.trans hnone.symm, hauth⟩
  rw [Block.meets_bind]
  refine (meets_bindRequestContext self request id model stream).mono ?_
  rintro ψ (raised | done) l' ⟨rfl, ⟨hreports, hauth⟩, himpaired⟩
  · exact ⟨hempty hauth (hreports.trans hnone), fun _ _ _ => himpaired raised rfl,
      torn_of_impaired _ (himpaired raised rfl)⟩
  have htags : requestTags request l' model stream ++ [("error_code", exc.code)] ++ authTags l'.authContext =
      reportTags request id ψ.auth exc model stream := by
    rw [hauth, ← h.auth, requestTags, h.requestId]
    cases l'.authContext with
    | none => rfl
    | some authContext => rfl
  simp only [Block.seqPost]
  rw [Block.meets_bind]
  refine (meets_captureException self request id (hreports.trans hnone) ⟨model, stream, htags⟩).mono ?_
  rintro χ (raised | eventId) l' ⟨rfl, hattempted⟩
  · exact ⟨hempty (hattempted.auth.trans hauth) hattempted.reports, hattempted.failed,
      torn_of_impaired _ (hattempted.torn raised rfl)⟩
  simp only [Block.seqPost]
  cases eventId with
  | none => exact ⟨hempty (hattempted.auth.trans hauth) hattempted.reports, hattempted.failed, torn_ok none⟩
  | some eventId =>
      have htaken : χ.reports = [exc] := hattempted.reports
      refine ⟨⟨h.requestId, h.auth.trans (hattempted.auth.trans hauth).symm, ?_, ?_⟩, hattempted.failed,
        torn_ok (some eventId)⟩
      · rw [htaken]
        exact Nat.le_refl 1
      · rw [htaken]
        exact ⟨fun _ => List.cons_ne_nil _ _, fun _ => rfl⟩

end Sentry

section Layers

variable (self : HttpApp Op Res) (request : ClientRequest) (hex id : String)

/-- What the layer knows of the log before, it knows behind. -/
abbrev Notes (body : HttpBlock Op Res α) : Prop :=
  Block.Establishes (reporting self request id) (Noted (some id)) (Noted (some id)) body

theorem notes_assign_bind {f : HttpLocals → HttpLocals} {rest : Unit → HttpBlock Op Res α}
    (hf : ∀ log l, Noted (some id) log l → Noted (some id) log (f l)) (h : Notes self request id (rest ())) :
    Notes self request id (Block.assign f >>= rest) := Block.establishes_assign_bind hf h

theorem notes_captureRequestException (exc : HttpExc) (model : Option String) (stream : Option Bool) :
    Notes self request id (captureRequestException self.sentryEnabled request exc model stream) :=
  fun _ _ h => (meets_captureRequestException self request id exc model stream h).mono fun _ _ _ hend => hend.1

theorem notes_inRequest (program : RouteProgram Op Res α) : Notes self request id (inRequest self request program) := by
  induction program with
  | ret value => exact Block.establishes_pure value
  | raise exc => exact Block.establishes_throw exc
  | call op next ih =>
      cases op with
      | service op => exact fun log l h => ⟨trivial, fun answer => ih answer log l h⟩
      | bindRequestContext model stream =>
          refine Block.Establishes.bind (fun log l h => ?_) fun _ => ih _
          refine (meets_bindRequestContext self request id model stream).mono ?_
          rintro ψ outcome l' ⟨rfl, hscoped, -⟩
          exact h.of_scoped hscoped
      | captureRequestException exc model stream =>
          exact (notes_captureRequestException self request id _ _ _).bind fun _ => ih _

theorem notes_routed : Notes self request id (routed self request) := by
  unfold routed
  split
  · exact Block.establishes_throw _
  · refine notes_assign_bind self request id (fun _ _ h => ⟨h.requestId, h.auth, h.once, h.marked⟩) ?_
    refine Block.establishes_locals_bind fun l => ?_
    exact (notes_inRequest self request id _).bind fun _ => Block.establishes_pure _

theorem notes_errorHandler (exc : HttpExc) : Notes self request id (errorHandler self request exc) := by
  apply Block.establishes_locals_bind
  intro l
  cases exc with
  | app error => exact (notes_captureRequestException self request id _ _ _).bind fun _ => Block.establishes_pure _
  | http statusCode detail => exact Block.establishes_pure _
  | validation => exact Block.establishes_pure _
  | other statusCode code text => exact Block.establishes_throw _
  | base name => exact Block.establishes_throw _

theorem notes_exceptionMiddleware : Notes self request id (exceptionMiddleware self request) :=
  (notes_routed self request id).tryExcept (notes_errorHandler self request id)

/-- The key of a request is noted with its answer. -/
theorem notes_keyChecked : Notes self request id (keyChecked request) := by
  unfold keyChecked
  refine Block.establishes_locals_bind fun l => ?_
  split
  · exact Block.establishes_throw _
  · intro log l h
    refine Block.meets_perform_bind trivial (fun _ => h) ?_
    intro authContext
    exact (Block.meets_assign_bind _ _).mpr ⟨h.requestId, rfl, h.once, h.marked⟩

theorem notes_authenticated : Notes self request id (authenticated request) := by
  apply (notes_keyChecked self request id).tryExcept
  intro exc
  apply Block.establishes_locals_bind
  intro l
  cases exc
  case app error => exact Block.establishes_pure _
  all_goals exact Block.establishes_throw _

theorem notes_apiKeyAuth {callNext : HttpBlock Op Res (HttpReply Op Res)} (h : Notes self request id callNext) :
    Notes self request id (apiKeyAuth request callNext) := by
  unfold apiKeyAuth
  split
  · exact h
  · refine (notes_authenticated self request id).bind ?_
    intro refused
    cases refused with
    | none => exact h
    | some response => exact Block.establishes_pure _

theorem notes_started (response : HttpResponse) : Notes self request id (started response) := by
  refine notes_assign_bind self request id (fun _ _ h => ⟨h.requestId, h.auth, h.once, h.marked⟩) ?_
  apply Block.establishes_perform
  intro log l h
  refine ⟨trivial, ?_⟩
  intro answer
  cases answer with
  | ok done => exact h
  | error exc => exact h.of_scoped ⟨rfl, rfl⟩

theorem notes_streamed (rest : RouteProgram Op Res Unit) : Notes self request id (streamed self request rest) :=
  (notes_inRequest self request id rest).tryExcept fun _ => Block.establishes_throw _

/-- The layers behind the id of the request know nothing of the log but that it is empty. -/
theorem establishes_requestIdMiddleware {callNext : HttpBlock Op Res (HttpReply Op Res)}
    (h : Notes self request (RequestIdMiddleware.requestId request.requestId hex) callNext) :
    Block.Establishes (reporting self request (RequestIdMiddleware.requestId request.requestId hex)) (Noted none)
      (Noted (some (RequestIdMiddleware.requestId request.requestId hex)))
      (requestIdMiddleware request hex callNext) := by
  refine Block.establishes_assign_bind (fun _ _ hbefore => ?_) (h.bind fun returned => Block.establishes_pure _)
  exact ⟨rfl, hbefore.auth, hbefore.once, hbefore.marked⟩

theorem establishes_metricsMiddleware {callNext : HttpBlock Op Res (HttpReply Op Res)}
    (h : Block.Establishes (reporting self request id) (Noted none) (Noted (some id)) callNext) :
    Block.Establishes (reporting self request id) (Noted none) (Noted (some id)) (metricsMiddleware request callNext) := by
  have hassigned : ∀ {requestId : Option String} {log : SentryLog} {l : HttpLocals} (statusCode : Int)
      (errorCode : Option String), Noted requestId log l →
      Noted requestId log { l with statusCode := statusCode, errorCode := errorCode } :=
    fun _ _ hnoted => ⟨hnoted.requestId, hnoted.auth, hnoted.once, hnoted.marked⟩
  unfold metricsMiddleware
  split
  · exact h
  · refine Block.establishes_assign_bind (fun _ _ => hassigned _ _) (Block.Establishes.tryFinally ?_ ?_)
    · apply Block.Establishes.tryExcept
      · refine h.bind fun returned => ?_
        exact notes_assign_bind self request id (fun _ _ => hassigned _ _) (Block.establishes_pure _)
      · intro exc
        exact notes_assign_bind self request id (fun _ _ => hassigned _ _) (Block.establishes_throw _)
    · refine Block.establishes_locals_bind fun l => Block.establishes_perform fun log l' hnoted => ?_
      exact ⟨trivial, fun _ => hnoted⟩

theorem establishes_dispatched :
    Block.Establishes (reporting self request (RequestIdMiddleware.requestId request.requestId hex)) (Noted none)
      (Noted (some (RequestIdMiddleware.requestId request.requestId hex))) (dispatched self request hex) :=
  establishes_metricsMiddleware self request _ (establishes_requestIdMiddleware self request hex
    (notes_apiKeyAuth self request _ (notes_exceptionMiddleware self request _)))

/-- How a request ends: an exception that leaves the stack has been reported, or something has failed. -/
structure Reported (log : SentryLog) (outcome : Except HttpExc Unit) : Prop where
  once : log.reports.length ≤ 1
  failed : self.sentryEnabled = true → ∀ exc, outcome = .error exc → exc.isException = true →
    shouldSkipException exc = false → log.reports = [] → log.impaired = true

theorem meets_serverError {exc : HttpExc} {log : SentryLog} {l : HttpLocals} (h : Noted (some id) log l) :
    Block.Meets (reporting self request id) (fun ψ outcome _ => Reported self ψ outcome) log l
      (serverError self request exc) := by
  unfold serverError
  rw [Block.meets_bind]
  refine (meets_captureRequestException self request id exc none none h).mono ?_
  rintro ψ (raised | eventId) l' ⟨hnoted, hfailed, htorn⟩
  · exact ⟨hnoted.once, fun _ _ _ _ _ _ => htorn raised rfl⟩
  have hthrown : ∀ {χ : SentryLog}, χ.reports = ψ.reports → (ψ.impaired = true → χ.impaired = true) →
      Reported self χ (.error exc) := by
    intro χ hreports himpaired
    refine ⟨hreports ▸ hnoted.once, ?_⟩
    intro henabled exc' hexc _ hskip hempty
    cases hexc
    exact himpaired (hfailed henabled hskip (hreports.symm.trans hempty))
  simp only [Block.seqPost]
  rw [Block.meets_locals_bind]
  split
  · exact hthrown rfl fun h => h
  rw [Block.meets_bind]
  unfold started
  rw [Block.meets_assign_bind]
  refine (Block.meets_await _).mpr ((Program.follows_perform _ ψ).mpr ⟨trivial, ?_⟩)
  intro answer
  cases answer with
  | ok done => exact hthrown rfl fun h => h
  | error raised => exact ⟨hnoted.once, fun _ _ _ _ _ _ => rfl⟩

theorem meets_reported : Block.Meets (reporting self request (RequestIdMiddleware.requestId request.requestId hex))
    (fun log outcome _ => Reported self log outcome) .empty .initial (served self request hex) := by
  have hnoted : Noted none .empty HttpLocals.initial := ⟨rfl, rfl, Nat.zero_le 1, by simp [HttpLocals.initial, SentryLog.empty]⟩
  unfold served
  rw [Block.meets_tryExcept]
  have hbody := (establishes_dispatched self request hex).bind fun returned =>
    (notes_started self request _ returned.response).bind fun _ => notes_streamed self request _ returned.rest
  refine (hbody .empty .initial hnoted).mono ?_
  rintro log (exc | done) l hend
  · rw [Block.exceptPost]
    split
    · exact meets_serverError self request _ hend
    · rename_i hbase
      refine ⟨hend.once, ?_⟩
      intro _ exc' hexc hexception
      cases hexc
      exact absurd hexception hbase
  · refine ⟨hend.once, ?_⟩
    intro _ exc hexc
    cases hexc

end Layers

theorem sentryLog_append (calls : List (Event (HttpOp Op) (HttpOp.Res Res) HttpExc))
    (event : Event (HttpOp Op) (HttpOp.Res Res) HttpExc) :
    sentryLog (calls ++ [event]) = (sentryLog calls).after event.op event.answer := List.foldl_append

/-- The SDK takes every event, and neither it nor the connection raises. -/
structure Delivered (calls : List (Event (HttpOp Op) (HttpOp.Res Res) HttpExc)) : Prop where
  sdk : ∀ op exc, ⟨.sdk op, .error exc⟩ ∉ calls
  send : ∀ response exc, ⟨.send response, .error exc⟩ ∉ calls
  taken : ∀ exc, ⟨.sdk (.captureException exc), .ok none⟩ ∉ calls

theorem impaired_of_delivered {calls : List (Event (HttpOp Op) (HttpOp.Res Res) HttpExc)} (h : Delivered calls) :
    (sentryLog calls).impaired = false := by
  induction calls using List.reverseRecOn with
  | nil => rfl
  | append_singleton calls event ih =>
      have hbefore := ih ⟨fun op exc hmem => h.sdk op exc (List.mem_append_left _ hmem),
        fun response exc hmem => h.send response exc (List.mem_append_left _ hmem),
        fun exc hmem => h.taken exc (List.mem_append_left _ hmem)⟩
      have hmem : event ∈ calls ++ [event] := List.mem_append_right _ (List.mem_singleton_self event)
      rw [sentryLog_append]
      obtain ⟨op, answer⟩ := event
      cases op
      case sdk op =>
        cases answer with
        | error exc => exact absurd hmem (h.sdk op exc)
        | ok value =>
            cases op
            case captureException exc =>
              cases value with
              | none => exact absurd hmem (h.taken exc)
              | some eventId => exact hbefore
            all_goals exact hbefore
      case send response =>
        cases answer with
        | error exc => exact absurd hmem (h.send response exc)
        | ok done => exact hbefore
      case authenticate rawKey =>
        cases answer with
        | error exc => exact hbefore
        | ok authContext => exact hbefore
      all_goals exact hbefore

section Requests

variable (self : HttpApp Op Res) (request : ClientRequest) (hex : String)
  (calls : List (Event (HttpOp Op) (HttpOp.Res Res) HttpExc)) (outcome : Except HttpExc Unit)

theorem reported_traces (h : (serve self request hex).Traces calls outcome) :
    (reporting self request (RequestIdMiddleware.requestId request.requestId hex)).Keeps .empty calls ∧
      Reported self (sentryLog calls) outcome :=
  Program.Follows.traces (meets_reported self request hex).toProgram h

/-- **Every report is about the request it is made for.** Sentry takes at most one event of a request. Whenever an event
is offered, Sentry is on, the exception is no expected error of a client, no event has been taken before, and the tags of
the scope are the id of the request, its endpoint and method, the code of the error, and the user, project and key that
the request has been authenticated with, if it has been. -/
theorem reports_attributed (h : (serve self request hex).Traces calls outcome) :
    (sentryLog calls).reports.length ≤ 1 ∧
    ∀ before exc answer after, calls = before ++ ⟨.sdk (.captureException exc), answer⟩ :: after →
      Reportable self request (RequestIdMiddleware.requestId request.requestId hex) (sentryLog before) exc := by
  obtain ⟨hkeeps, honce, -⟩ := reported_traces self request hex calls outcome h
  refine ⟨honce, ?_⟩
  intro before exc answer after hcalls
  exact hkeeps before _ after hcalls

/-- **What leaves the stack has been reported**, once, if Sentry is on and takes every event. -/
theorem failures_reported (h : (serve self request hex).Traces calls outcome) (henabled : self.sentryEnabled = true)
    (hdelivered : Delivered calls) (exc : HttpExc) (houtcome : outcome = .error exc)
    (hexception : exc.isException = true) (hskip : shouldSkipException exc = false) :
    (sentryLog calls).reports.length = 1 := by
  obtain ⟨-, honce, hfailed⟩ := reported_traces self request hex calls outcome h
  have hsome : (sentryLog calls).reports ≠ [] := by
    intro hempty
    have himpaired := hfailed henabled exc houtcome hexception hskip hempty
    rw [impaired_of_delivered hdelivered] at himpaired
    cases himpaired
  exact Nat.le_antisymm honce (List.length_pos_iff.mpr hsome)

end Requests

def failingApp : HttpApp Unit fun _ => Unit where
  sentryEnabled := true
  router _ := some ⟨"/health", fun _ _ => .raise (.other none none "boom")⟩

def healthRequest : ClientRequest := ⟨"GET", "/health", some "req_client", none⟩

def takingAnswer : (op : HttpOp Unit) → Unit → Except HttpExc (op.Res fun _ => Unit) × Unit
  | .sdk (.captureException _), s => (.ok (some "event"), s)
  | op, s => bareAnswer op s

def failingCalls : List (Event (HttpOp Unit) (HttpOp.Res fun _ => Unit) HttpExc) :=
  (serve failingApp healthRequest "hex").trace takingAnswer ()

theorem traces_failing : (serve failingApp healthRequest "hex").Traces failingCalls
    ((serve failingApp healthRequest "hex").run takingAnswer ()).1 := Program.traces_trace _ _ _

/-- The failure of a route is offered under the tags of its request. -/
theorem reports_attributed_failing : (sentryLog failingCalls).reports = [.other none none "boom"] ∧
    ∃ before answer after, failingCalls = before ++ ⟨.sdk (.captureException (.other none none "boom")), answer⟩ :: after ∧
      (sentryLog before).reports = [] ∧
      (sentryLog before).scope = some [("request_id", "req_client"), ("endpoint", "/health"), ("method", "GET")] := by
  refine ⟨rfl, failingCalls.take 9, .ok (some "event"), failingCalls.drop 10, rfl, ?_, rfl⟩
  exact ((reports_attributed failingApp healthRequest "hex" failingCalls _ traces_failing).2 _ _ (.ok (some "event")) _
    rfl).2.2.1

theorem failures_reported_failing : (sentryLog failingCalls).reports.length = 1 := by
  have hdelivered : Delivered failingCalls := by
    refine ⟨?_, ?_, ?_⟩
    · intro op exc hmem
      have hanswer := Program.eq_of_mem_trace hmem
      cases op <;> cases hanswer
    · intro response exc hmem
      have hanswer := Program.eq_of_mem_trace hmem
      cases hanswer
    · intro exc hmem
      have hanswer := Program.eq_of_mem_trace hmem
      cases hanswer
  exact failures_reported failingApp healthRequest "hex" failingCalls _ traces_failing rfl hdelivered _ rfl rfl rfl

end HttpApp

end GpuInference
