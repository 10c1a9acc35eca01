import GpuInference.BatchRoundTrip
import GpuInference.BatchRoutes
import GpuInference.PayloadBounds

/-!
The models that are executed. A key is checked against the model of a request once, at the edge; the worker
runs a stored job under a context without restrictions. The guarantee rests on the way of the payload: a
thread sends the payload of the request that it has checked, or of the job that it has moved to running, and
a store never changes the payload that a job was created with.
-/

open Effect

namespace GpuInference

/-- The calls of the API process and of the batch worker. -/
inductive PlatformOp where
  | api (op : ApiOp)
  | chat (op : ChatOp)

abbrev PlatformOp.Res : PlatformOp → Type
  | api op => op.Res
  | chat op => op.Res

abbrev PlatformProgram := Program PlatformOp PlatformOp.Res PyExc

abbrev PlatformEvent := Event PlatformOp PlatformOp.Res PyExc

abbrev PlatformThread := Thread PlatformOp PlatformOp.Res PyExc Unit

def inApi {α : Type} (program : ApiProgram α) : PlatformProgram α :=
  program.mapOp PlatformOp.api fun _ value => value

def inChat {α : Type} (program : ChatProgram α) : PlatformProgram α :=
  program.mapOp PlatformOp.chat fun _ value => value

/-- `ApiKeyAuthMiddleware.dispatch` up to `call_next`: the context that the application sees, or the
response of the middleware. -/
def ApiKeyAuthMiddleware.authenticate (request : HttpRequest) :
    ApiProgram (Except JSONResponse (Option AuthContext)) := do
  if !isProtectedPath request.path then pure (.ok none)
  else
    let authenticated ← Program.tryExcept PyExc.isAppError (do
      match extractBearerToken request with
      | none => Program.raise (.app missingApiKeyError)
      | some rawKey => do
          let authContext ← Program.perform (ApiOp.authenticate rawKey)
          pure (Except.ok authContext)) fun exc => do
        let response ← handleAppError request exc
        pure (Except.error response)
    pure (authenticated.map some)

/-- The middleware authenticates and goes on. -/
theorem dispatch_eq (callNext : Option AuthContext → ApiProgram JSONResponse) (request : HttpRequest) :
    ApiKeyAuthMiddleware.dispatch callNext request =
      (ApiKeyAuthMiddleware.authenticate request).bind fun
        | .ok state => callNext state
        | .error response => .ret response := by
  unfold ApiKeyAuthMiddleware.dispatch ApiKeyAuthMiddleware.authenticate
  split
  · rfl
  · rw [Program.bind_eq, Program.bind_eq, Program.bind_assoc]
    congr 1
    funext authenticated
    cases authenticated with
    | error response => rfl
    | ok authContext => rfl

/-- A chat request, from the middleware to the end of its response. -/
def ChatApp.route (app : ChatApp) (requestBody : ChatCompletionRequest) (authorization : Option String)
    (requestId : String) : PlatformProgram Unit := do
  let request : HttpRequest := ⟨"/v1/chat/completions", authorization, requestId⟩
  match ← inApi (ApiKeyAuthMiddleware.authenticate request) with
  | .ok state => inChat (app.serve requestBody state requestId)
  | .error _ => pure ()

/-- The programs of the platform. -/
inductive PlatformRuns : PlatformProgram Unit → Prop
  | chat (app : ChatApp) (requestBody : ChatCompletionRequest) (authorization : Option String)
      (requestId : String) : PlatformRuns (app.route requestBody authorization requestId)
  | batch (route : BatchRoute) (authorization : Option String) (requestId : String) :
      PlatformRuns ((inApi (route.app authorization requestId)).bind fun _ => .ret ())
  | worker (self : BatchWorker) :
      PlatformRuns ((inApi (inBatch self.processOne)).bind fun _ => .ret ())
  | scanner (limit : Int) :
      PlatformRuns ((inApi (inBatch (BatchRecoveryScanner.reenqueueMissing limit))).bind fun _ => .ret ())

/-- The calls of the store and the queue act on both; every other call may answer anything. -/
def platformExec {S : Type} (store : BatchJobStore S) :
    Exec PlatformOp PlatformOp.Res PyExc (BatchWorld S)
  | .api (.batch op), w, answer, w' => store.exec op w answer w'
  | .api (.authenticate _), w, _, w' => w' = w
  | .chat _, w, _, w' => w' = w

def platform {S : Type} (store : BatchJobStore S) : System (BatchWorld S) PlatformThread :=
  callSystem (platformExec store) PlatformRuns

/-- The payload carries a model that the key may use. -/
def Carries (authContext : AuthContext) (payload : JsonObject) : Prop :=
  ∃ model, JsonObject.get payload "model" = some (.str model) ∧
    ensureModelAllowed authContext model = .ok ()

def Unstreamed (payload : JsonObject) : Prop := JsonObject.get payload "stream" = some (.bool false)

/-- Whose payload a thread has in its hands: that of the request it has authenticated, or that of the job
it has moved to running. -/
inductive Custody where
  | free
  | request (authContext : AuthContext)
  | job (jobId : String) (running : BatchJobRecord)

/-- The payload is that of a stored job, validated and dumped again. -/
def Rebuilt (running : BatchJobRecord) (payload : JsonObject) : Prop :=
  ∃ lax chat, chatRequestFromBatch lax running = .ok chat ∧ payload = normalizeChatCompletionPayload chat

def batchCustody : Protocol BatchOp BatchOp.Res PyExc Custody where
  may φ
    | .create authContext payload _ => φ = .request authContext ∧ Carries authContext payload ∧
        Unstreamed payload
    | .createChatCompletion payload => ∃ jobId running, φ = .job jobId running ∧ Rebuilt running payload
    | _ => True
  after
    | .free, .transition jobId .running, .ok (some running) => .job jobId running
    | φ, _, _ => φ

def apiCustody : Protocol ApiOp ApiOp.Res PyExc Custody where
  may φ
    | .authenticate _ => φ = .free
    | .batch op => batchCustody.may φ op
  after
    | .free, .authenticate _, .ok authContext => .request authContext
    | φ, .batch op, answer => batchCustody.after φ op answer
    | φ, _, _ => φ

def chatCustody : Protocol ChatOp ChatOp.Res PyExc Custody where
  may φ
    | .createChatCompletion payload => ∃ authContext, φ = .request authContext ∧
        Carries authContext payload ∧ Unstreamed payload
    | .streamChatCompletion payload => ∃ authContext, φ = .request authContext ∧ Carries authContext payload
    | _ => True
  after φ _ _ := φ

def custody : Protocol PlatformOp PlatformOp.Res PyExc Custody where
  may φ
    | .api op => apiCustody.may φ op
    | .chat op => chatCustody.may φ op
  after φ
    | .api op, answer => apiCustody.after φ op answer
    | .chat _, _ => φ

section Follows

variable {α : Type} {φ : Custody}

/-- A condition that holds at every end. -/
abbrev anyEnd (α : Type) : Custody → Except PyExc α → Prop := fun _ _ => True

theorem follows_inBatch {program : BatchProgram α} (h : program.Follows batchCustody (anyEnd α) φ) :
    (inBatch program).Follows apiCustody (anyEnd α) φ := by
  refine (Program.Follows.mapOp apiCustody h ApiOp.batch (fun _ value => value) id
    (fun _ _ hmay => hmay) ?_).mono fun _ _ _ => trivial
  intro ψ op answer
  cases ψ <;> cases answer <;> rfl

theorem follows_inApi {done : Custody → Except PyExc α → Prop} {program : ApiProgram α}
    (h : program.Follows apiCustody done φ) : (inApi program).Follows custody done φ := by
  refine (Program.Follows.mapOp custody h PlatformOp.api (fun _ value => value) id
    (fun _ _ hmay => hmay) ?_).mono ?_
  · intro ψ op answer
    cases answer <;> rfl
  · rintro ψ outcome ⟨χ, rfl, hdone⟩
    exact hdone

theorem follows_inChat {program : ChatProgram α} (h : program.Follows chatCustody (anyEnd α) φ) :
    (inChat program).Follows custody (anyEnd α) φ :=
  (Program.Follows.mapOp custody h PlatformOp.chat (fun _ value => value) id (fun _ _ hmay => hmay)
    fun _ _ _ => rfl).mono fun _ _ _ => trivial

/-- The end of a program that is followed by a return. -/
theorem follows_returns {program : PlatformProgram α} (h : program.Follows custody (anyEnd α) φ) :
    (program.bind fun _ => .ret ()).Follows custody (anyEnd Unit) φ := by
  rw [Program.follows_bind]
  refine h.mono ?_
  rintro ψ (exc | value) -
  · exact trivial
  · exact trivial

theorem get_modelDump_model (request : ChatCompletionRequest) :
    JsonObject.get request.modelDump "model" = some (.str request.model) := rfl

theorem get_modelDump_stream (request : ChatCompletionRequest) :
    JsonObject.get request.modelDump "stream" = some (.bool request.stream) := rfl

/-- The handler sends the payload of its request, for the context it has checked. -/
theorem follows_serve_custody (app : ChatApp) (request : ChatCompletionRequest) (authContext : AuthContext)
    (requestId : String) : (app.serve request (some authContext) requestId).Follows chatCustody
      (anyEnd Unit) (.request authContext) := by
  cases hallowed : ensureModelAllowed authContext request.model with
  | error exc =>
      unfold ChatApp.serve ChatApp.createChatCompletion
      simp only [Program.bind_eq, Program.lift_ok, Program.ret_bind, hallowed, Program.lift_error,
        Program.raise_bind]
      exact trivial
  | ok allowed =>
      have hcarries : Carries authContext (normalizeChatCompletionPayload request) :=
        ⟨request.model, get_modelDump_model request, hallowed⟩
      have hfollows : (app.serve request (some authContext) requestId).Follows
          (routeProtocol (fun payload => Carries authContext payload ∧ Unstreamed payload)
            (Carries authContext))
          (fun ψ _ => request.stream = true → ψ ≠ .refinalized) .idle := by
        refine follows_serve app ?_ ?_ (some authContext) requestId
        · intro hstream
          refine ⟨hcarries, ?_⟩
          rw [Unstreamed, normalizeChatCompletionPayload, get_modelDump_stream, hstream]
        · intro hstream
          obtain ⟨model, hmodel, hok⟩ := hcarries
          exact ⟨model, (get_streamPayload _ (by decide)).trans hmodel, hok⟩
      refine hfollows.weaken (fun _ => Custody.request authContext) ?_ fun _ _ _ => rfl
      intro ψ op hmay
      cases op
      case createChatCompletion payload => exact ⟨authContext, rfl, hmay⟩
      case streamChatCompletion payload => exact ⟨authContext, rfl, hmay⟩
      all_goals exact trivial

/-- Without a context nothing is called. -/
theorem follows_serve_none (app : ChatApp) (request : ChatCompletionRequest) (requestId : String) :
    (app.serve request none requestId).Follows chatCustody (anyEnd Unit) φ := trivial

/-- The middleware hands on the context that it has authenticated. -/
def Authenticated (φ : Custody) (outcome : Except PyExc (Except JSONResponse (Option AuthContext))) : Prop :=
  ∀ authContext, outcome = .ok (.ok (some authContext)) → φ = .request authContext

theorem follows_authenticate (request : HttpRequest) :
    (ApiKeyAuthMiddleware.authenticate request).Follows apiCustody Authenticated .free := by
  have hstops : ∀ (ψ : Custody) (exc : PyExc), (Program.bind (handleAppError request exc) fun response =>
      .ret (Except.error response : Except JSONResponse AuthContext) : ApiProgram _).Follows apiCustody
        (Program.seqDone apiCustody Authenticated fun authenticated => .ret (authenticated.map some)) ψ := by
    intro ψ exc
    cases exc
    all_goals
      intro authContext hauthenticated
      cases hauthenticated
  unfold ApiKeyAuthMiddleware.authenticate
  split
  · intro authContext hauthenticated
    cases hauthenticated
  · rw [Program.bind_eq, Program.follows_bind, Program.follows_tryExcept]
    cases extractBearerToken request with
    | none => exact hstops .free _
    | some rawKey =>
        refine Program.follows_perform_bind rfl ?_ ?_
        · intro exc
          simp only [Program.exceptDone]
          split
          · exact hstops _ exc
          · intro other hother
            cases hother
        · intro authContext other hother
          cases hother
          rfl

theorem follows_route (app : ChatApp) (requestBody : ChatCompletionRequest) (authorization : Option String)
    (requestId : String) :
    (app.route requestBody authorization requestId).Follows custody (anyEnd Unit) .free := by
  unfold ChatApp.route
  rw [Program.bind_eq, Program.follows_bind]
  refine (follows_inApi (follows_authenticate _)).mono ?_
  rintro ψ (exc | (response | (none | authContext))) hauthenticated
  · exact trivial
  · exact trivial
  · exact follows_inChat (follows_serve_none app requestBody requestId)
  · rw [hauthenticated authContext rfl]
    exact follows_inChat (follows_serve_custody app requestBody authContext requestId)

/-- A submission creates a job with the model that was checked. -/
theorem follows_submit_custody {authContext : AuthContext} (requestBody : BatchJobCreateRequest)
    (hallowed : ensureModelAllowed authContext requestBody.model = .ok ()) :
    (BatchJobService.submit authContext requestBody).Follows batchCustody (anyEnd BatchJobRecord)
      (.request authContext) := by
  unfold BatchJobService.submit
  simp only
  split
  · exact trivial
  · refine Program.follows_perform_bind ?_ (fun _ => trivial) fun job => ?_
    · exact ⟨rfl, ⟨requestBody.model, get_stored requestBody (by decide), hallowed⟩,
        get_stored_stream requestBody⟩
    · rw [Program.bind_eq, Program.follows_bind, Program.follows_tryExcept]
      refine (Program.follows_perform _ _).mpr ⟨trivial, ?_⟩
      rintro (exc | value)
      · simp only [Program.exceptDone]
        split
        · exact trivial
        · exact trivial
      · exact trivial

theorem follows_get_custody (jobId : String) (φ : Custody) :
    (BatchJobService.get jobId).Follows batchCustody (anyEnd BatchJobRecord) φ := by
  refine Program.follows_perform_bind trivial (fun _ => trivial) ?_
  rintro (none | job)
  · exact trivial
  · exact trivial

theorem follows_cancel_custody (jobId : String) (φ : Custody) :
    (BatchJobService.cancel jobId).Follows batchCustody (anyEnd BatchJobRecord) φ := by
  unfold BatchJobService.cancel
  rw [Program.bind_eq, Program.follows_bind]
  refine (follows_get_custody jobId φ).mono ?_
  rintro ψ (exc | job) -
  · exact trivial
  · simp only [Program.seqDone]
    split
    · exact trivial
    · refine Program.follows_perform_bind trivial (fun _ => trivial) ?_
      rintro (none | cancelled)
      · exact follows_get_custody jobId _
      · exact trivial

theorem follows_handler (route : BatchRoute) (state : Option AuthContext)
    (hφ : ∀ authContext, state = some authContext → φ = .request authContext) :
    (route.handler state).Follows apiCustody (anyEnd JsonObject) φ := by
  have hresponds : ∀ {program : BatchProgram BatchJobRecord} (respond : BatchJobRecord → JsonObject),
      program.Follows batchCustody (anyEnd BatchJobRecord) φ →
        ((inBatch program).bind fun job => .ret (respond job)).Follows apiCustody (anyEnd JsonObject) φ := by
    intro program respond h
    rw [Program.follows_bind]
    refine (follows_inBatch h).mono ?_
    rintro ψ (exc | job) -
    · exact trivial
    · exact trivial
  cases route with
  | get jobId => exact hresponds BatchJobRecord.toResponse (follows_get_custody jobId φ)
  | cancel jobId => exact hresponds BatchJobRecord.toResponse (follows_cancel_custody jobId φ)
  | submit requestBody =>
      cases state with
      | none => exact trivial
      | some authContext =>
          simp only [BatchRoute.handler, submitBatchJob, authContextOf, Program.bind_eq, Program.lift_ok,
            Program.ret_bind]
          cases hallowed : ensureModelAllowed authContext requestBody.model with
          | error exc => exact trivial
          | ok allowed =>
              rw [Program.lift_ok, Program.ret_bind]
              rw [hφ authContext rfl] at hresponds ⊢
              exact hresponds BatchJobRecord.submitResponse (follows_submit_custody requestBody hallowed)

theorem follows_app (route : BatchRoute) (authorization : Option String) (requestId : String) :
    (route.app authorization requestId).Follows apiCustody (anyEnd JSONResponse) .free := by
  have hends : ∀ (ψ : Custody) (outcome : Except PyExc JSONResponse), Program.seqDone apiCustody
      (anyEnd JSONResponse) (fun response => .ret { response with xRequestId := some requestId }) ψ
        outcome := by
    rintro ψ (exc | response)
    · exact trivial
    · exact trivial
  have hstops : ∀ (ψ : Custody) (request : HttpRequest) (exc : PyExc), (handleAppError request exc).Follows
      apiCustody (fun ψ outcome => Program.seqDone apiCustody (anyEnd JSONResponse)
        (fun response => .ret { response with xRequestId := some requestId }) ψ outcome) ψ := by
    intro ψ request exc
    cases exc <;> exact trivial
  unfold BatchRoute.app RequestIdMiddleware.dispatch
  simp only [Program.bind_eq, Program.pure_eq]
  rw [Program.follows_bind, dispatch_eq, Program.follows_bind]
  refine (follows_authenticate _).mono ?_
  rintro ψ (exc | (response | state)) hauthenticated
  · exact hends ψ (.error exc)
  · exact hends ψ (.ok response)
  · simp only [Program.seqDone]
    rw [Program.follows_tryExcept, Program.follows_bind]
    refine (follows_handler route state ?_).mono ?_
    · rintro authContext rfl
      exact hauthenticated authContext rfl
    · rintro χ (exc | content) -
      · simp only [Program.seqDone, Program.exceptDone]
        split
        · exact hstops χ _ exc
        · exact trivial
      · exact hends χ (.ok ⟨200, content, none, none⟩)

theorem follows_runJob_custody (self : BatchWorker) (jobId : String) (running : BatchJobRecord) :
    (self.runJob jobId running).Follows batchCustody (anyEnd Bool) (.job jobId running) := by
  have hfollows : (self.runJob jobId running).Follows (jobProtocol (Rebuilt running))
      (fun _ _ => True) .idle :=
    follows_runJob_worker self jobId fun chat hchat => ⟨self.lax, chat, hchat, rfl⟩
  refine hfollows.weaken (fun _ => Custody.job jobId running) ?_ fun _ _ _ => rfl
  intro ψ op hmay
  cases op
  case create => exact hmay.elim
  case createChatCompletion payload => exact ⟨jobId, running, rfl, hmay⟩
  all_goals exact trivial

theorem follows_processOne_custody (self : BatchWorker) :
    self.processOne.Follows batchCustody (anyEnd Bool) .free := by
  refine follows_processOne_front self ?_ (fun _ => trivial) ?_
  · rintro op (_ | jobId | _ | jobId)
    all_goals exact ⟨trivial, fun _ => rfl⟩
  · intro jobId running
    exact follows_runJob_custody self jobId running

theorem follows_reenqueue_custody (jobs : List BatchJobRecord) (requeued : Int) (φ : Custody) :
    (BatchRecoveryScanner.reenqueue jobs requeued).Follows batchCustody (anyEnd Int) φ := by
  induction jobs generalizing requeued φ with
  | nil => exact trivial
  | cons job jobs ih =>
      refine Program.follows_perform_bind trivial (fun _ => trivial) fun contained => ?_
      split
      · exact ih requeued _
      · exact Program.follows_perform_bind trivial (fun _ => trivial) fun _ => ih (requeued + 1) _

/-- **Every program keeps to the protocol.** -/
theorem follows_platform {program : PlatformProgram Unit} (h : PlatformRuns program) :
    program.Follows custody (anyEnd Unit) .free := by
  cases h with
  | chat app requestBody authorization requestId =>
      exact follows_route app requestBody authorization requestId
  | batch route authorization requestId =>
      exact follows_returns (follows_inApi (follows_app route authorization requestId))
  | worker self => exact follows_returns (follows_inApi (follows_inBatch (follows_processOne_custody self)))
  | scanner limit =>
      refine follows_returns (follows_inApi (follows_inBatch ?_))
      exact Program.follows_perform_bind trivial (fun _ => trivial) fun jobs =>
        follows_reenqueue_custody jobs 0 _

end Follows

section Taken

variable {φ : Custody}

/-- Once a thread has a payload in its hands, no call changes it. -/
theorem after_of_ne_free (h : φ ≠ .free) (op : PlatformOp) (answer : Except PyExc op.Res) :
    custody.after φ op answer = φ := by
  cases φ with
  | free => exact absurd rfl h
  | request authContext =>
      rcases op with (rawKey | op) | op
      · rfl
      · rfl
      · rfl
  | job jobId running =>
      rcases op with (rawKey | op) | op
      · rfl
      · rfl
      · rfl

/-- The call that has put the payload into the hands of a thread. -/
def Custody.TakenBy (calls : List PlatformEvent) : Custody → Prop
  | free => True
  | request authContext => ∃ rawKey, ⟨.api (.authenticate rawKey), .ok authContext⟩ ∈ calls
  | job jobId running => ⟨.api (.batch (.transition jobId .running)), .ok (some running)⟩ ∈ calls

theorem Custody.TakenBy.mono {calls more : List PlatformEvent} (h : φ.TakenBy calls)
    (hsub : calls ⊆ more) : φ.TakenBy more := by
  cases φ with
  | free => exact trivial
  | request authContext =>
      obtain ⟨rawKey, hmem⟩ := h
      exact ⟨rawKey, hsub hmem⟩
  | job jobId running => exact hsub h

theorem takenBy_phase (calls : List PlatformEvent) : (custody.phase .free calls).TakenBy calls := by
  induction calls using List.reverseRecOn with
  | nil => exact trivial
  | append_singleton calls event ih =>
      rw [Protocol.phase_append]
      by_cases hfree : custody.phase .free calls = .free
      · rw [hfree]
        obtain ⟨op, answer⟩ := event
        have hlast : (⟨op, answer⟩ : PlatformEvent) ∈ calls ++ [⟨op, answer⟩] :=
          List.mem_append_right _ (List.mem_singleton_self _)
        rcases op with (rawKey | op) | op
        · cases answer with
          | error exc => exact trivial
          | ok authContext => exact ⟨rawKey, hlast⟩
        · cases op
          case transition jobId target =>
            cases target
            case running =>
              rcases answer with exc | (none | running)
              · exact trivial
              · exact trivial
              · exact hlast
            all_goals exact trivial
          all_goals exact trivial
        · exact trivial
      · rw [after_of_ne_free hfree]
        exact ih.mono (List.subset_append_left _ _)

/-- A thread authenticates once. -/
theorem phase_of_authenticated {calls : List PlatformEvent} (h : custody.Keeps .free calls) {rawKey : String}
    {authContext : AuthContext} (hmem : ⟨.api (.authenticate rawKey), .ok authContext⟩ ∈ calls) :
    custody.phase .free calls = .request authContext := by
  obtain ⟨left, right, rfl⟩ := List.append_of_mem hmem
  have hfree : custody.phase .free left = .free := h left _ right rfl
  have htaken : custody.phase .free (left ++ [⟨.api (.authenticate rawKey), .ok authContext⟩]) =
      .request authContext := by
    rw [Protocol.phase_append, hfree]
    rfl
  clear h hmem
  induction right using List.reverseRecOn with
  | nil => exact htaken
  | append_singleton right event ih =>
      have hsplit : left ++ ⟨.api (.authenticate rawKey), .ok authContext⟩ :: (right ++ [event]) =
          (left ++ ⟨.api (.authenticate rawKey), .ok authContext⟩ :: right) ++ [event] := by simp
      rw [hsplit, Protocol.phase_append, ih]
      exact after_of_ne_free (by simp) _ _

end Taken

/-! ### What the store holds -/

namespace BatchJobStore

variable {S : Type}

/-- The payloads of the stored jobs. -/
def payloads (store : BatchJobStore S) (s : S) (jobId : String) : Option JsonObject :=
  (store.get jobId s).map BatchJobRecord.inputPayload

/-- A mark leaves the payload. -/
structure Marking.KeepsPayload (marking : Marking) : Prop where
  succeeded : ∀ result usage old new, marking.succeeded result usage old new →
    new.inputPayload = old.inputPayload
  failed : ∀ code message old new, marking.failed code message old new → new.inputPayload = old.inputPayload

theorem payloads_of_rewrites {store : BatchJobStore S} {jobId : String} {guard : JobStatus → Bool}
    {write : BatchJobRecord → BatchJobRecord → Prop} {s s' : S} {record : Option BatchJobRecord}
    (h : store.Rewrites jobId guard write s record s')
    (hwrite : ∀ old new, write old new → new.inputPayload = old.inputPayload) :
    store.payloads s' = store.payloads s ∧
      ∀ new ∈ record, store.payloads s jobId = some new.inputPayload := by
  rcases h with ⟨rfl, -, hafter⟩ | ⟨old, new, hold, -, hnew, rfl, hafter⟩
  · refine ⟨?_, fun new hnew => absurd hnew (Option.not_mem_none new)⟩
    funext other
    rw [payloads, hafter]
    rfl
  · have hpayload : store.payloads s jobId = some new.inputPayload := by
      rw [payloads, hold, hwrite old new hnew]
      rfl
    refine ⟨?_, ?_⟩
    · funext other
      by_cases hother : other = jobId
      · rw [hother, hpayload, payloads, hafter, if_pos rfl]
        rfl
      · rw [payloads, hafter, if_neg hother]
        rfl
    · intro other hother
      rw [← Option.some.inj hother]
      exact hpayload

end BatchJobStore

theorem InMemoryBatchJobStore.marking_keepsPayload : InMemoryBatchJobStore.marking.KeepsPayload where
  succeeded := by
    rintro result usage old new rfl
    rfl
  failed := by
    rintro code message old new rfl
    rfl

theorem PostgresBatchJobStore.marking_keepsPayload : PostgresBatchJobStore.marking.KeepsPayload where
  succeeded := by
    rintro result usage old new ⟨metadata, rfl⟩
    rfl
  failed := by
    rintro code message old new ⟨metadata, rfl⟩
    rfl

/-- A job has been created by a call. -/
def CreatedBy (made : PlatformEvent → Prop) (jobId : String) (authContext : AuthContext)
    (payload : JsonObject) : Prop :=
  ∃ model created, made ⟨.api (.batch (.create authContext payload model)), .ok created⟩ ∧
    created.id = jobId

/-- The payloads of the stored jobs, and of the jobs that were moved to running, are those that they were
created with; a job was created once. -/
structure Kept (payloads : String → Option JsonObject) (made : PlatformEvent → Prop) : Prop where
  stored : ∀ jobId payload, payloads jobId = some payload → ∃ authContext, CreatedBy made jobId authContext payload
  present : ∀ jobId authContext payload, CreatedBy made jobId authContext payload → payloads jobId ≠ none
  unique : ∀ jobId authContext payload authContext' payload', CreatedBy made jobId authContext payload →
    CreatedBy made jobId authContext' payload' → authContext = authContext'
  running : ∀ jobId target running,
    made ⟨.api (.batch (.transition jobId target)), .ok (some running)⟩ →
      ∃ authContext, CreatedBy made jobId authContext running.inputPayload

section Kept

variable {payloads payloads' : String → Option JsonObject} {made : PlatformEvent → Prop}
  {event : PlatformEvent}

theorem kept_nothing (h : ∀ jobId, payloads jobId = none) : Kept payloads fun _ => False where
  stored jobId payload hpayload := absurd ((h jobId).symm.trans hpayload) nofun
  present := by
    rintro jobId authContext payload ⟨model, created, hmade, -⟩
    exact hmade.elim
  unique := by
    rintro jobId authContext payload authContext' payload' ⟨model, created, hmade, -⟩
    exact hmade.elim
  running _ _ _ hmade := hmade.elim

theorem CreatedBy.mono {jobId : String} {authContext : AuthContext} {payload : JsonObject}
    (h : CreatedBy made jobId authContext payload) :
    CreatedBy (fun other => made other ∨ other = event) jobId authContext payload := by
  obtain ⟨model, created, hmade, hid⟩ := h
  exact ⟨model, created, .inl hmade, hid⟩

/-- A call that creates no job and changes no payload. -/
theorem Kept.other (h : Kept payloads made) (hsame : payloads' = payloads)
    (hcreate : ∀ authContext payload model created,
      event ≠ ⟨.api (.batch (.create authContext payload model)), .ok created⟩)
    (hrunning : ∀ jobId target running,
      event = ⟨.api (.batch (.transition jobId target)), .ok (some running)⟩ →
        payloads jobId = some running.inputPayload) :
    Kept payloads' fun other => made other ∨ other = event := by
  have hcreated : ∀ jobId authContext payload,
      CreatedBy (fun other => made other ∨ other = event) jobId authContext payload →
        CreatedBy made jobId authContext payload := by
    rintro jobId authContext payload ⟨model, created, hmade | hevent, hid⟩
    · exact ⟨model, created, hmade, hid⟩
    · exact absurd hevent.symm (hcreate _ _ _ _)
  subst hsame
  refine ⟨?_, ?_, ?_, ?_⟩
  · intro jobId payload hpayload
    obtain ⟨authContext, hby⟩ := h.stored jobId payload hpayload
    exact ⟨authContext, hby.mono⟩
  · intro jobId authContext payload hby
    exact h.present jobId authContext payload (hcreated _ _ _ hby)
  · intro jobId authContext payload authContext' payload' hby hby'
    exact h.unique jobId _ _ _ _ (hcreated _ _ _ hby) (hcreated _ _ _ hby')
  · rintro jobId target running (hmade | hevent)
    · obtain ⟨authContext, hby⟩ := h.running jobId target running hmade
      exact ⟨authContext, hby.mono⟩
    · obtain ⟨authContext, hby⟩ := h.stored jobId _ (hrunning jobId target running hevent.symm)
      exact ⟨authContext, hby.mono⟩

/-- A job is created under a fresh id. -/
theorem Kept.create (h : Kept payloads made) {authContext : AuthContext} {payload : JsonObject}
    {model : String} {created : BatchJobRecord} (hfresh : payloads created.id = none)
    (hafter : ∀ jobId, payloads' jobId = if jobId = created.id then some payload else payloads jobId) :
    Kept payloads' fun other => made other ∨
      other = ⟨.api (.batch (.create authContext payload model)), .ok created⟩ := by
  have hcreated : ∀ jobId other stored, CreatedBy (fun event => made event ∨
      event = ⟨.api (.batch (.create authContext payload model)), .ok created⟩) jobId other stored →
        CreatedBy made jobId other stored ∨ (jobId = created.id ∧ other = authContext ∧ stored = payload) := by
    rintro jobId other stored ⟨name, record, hmade | hevent, hid⟩
    · exact .inl ⟨name, record, hmade, hid⟩
    · cases hevent
      exact .inr ⟨hid.symm, rfl, rfl⟩
  refine ⟨?_, ?_, ?_, ?_⟩
  · intro jobId stored hstored
    rw [hafter] at hstored
    split at hstored
    · rename_i hjob
      obtain rfl := Option.some.inj hstored
      exact ⟨authContext, model, created, .inr rfl, hjob.symm⟩
    · obtain ⟨other, hby⟩ := h.stored jobId stored hstored
      exact ⟨other, hby.mono⟩
  · intro jobId other stored hby
    rw [hafter]
    split
    · exact Option.some_ne_none _
    · rename_i hjob
      rcases hcreated jobId other stored hby with hby | ⟨hid, -, -⟩
      · exact h.present jobId other stored hby
      · exact absurd hid hjob
  · intro jobId other stored other' stored' hby hby'
    have hold : ∀ who what, CreatedBy made created.id who what → False :=
      fun who what hwho => h.present created.id who what hwho hfresh
    rcases hcreated jobId other stored hby with hmade | ⟨hid, hother, -⟩
    · rcases hcreated jobId other' stored' hby' with hmade' | ⟨hid', -, -⟩
      · exact h.unique jobId _ _ _ _ hmade hmade'
      · rw [hid'] at hmade
        exact (hold _ _ hmade).elim
    · rcases hcreated jobId other' stored' hby' with hmade' | ⟨-, hother', -⟩
      · rw [hid] at hmade'
        exact (hold _ _ hmade').elim
      · exact hother.trans hother'.symm
  · rintro jobId target running (hmade | hevent)
    · obtain ⟨other, hby⟩ := h.running jobId target running hmade
      exact ⟨other, hby.mono⟩
    · cases hevent

end Kept

/-- **Every call keeps the payloads.** -/
theorem kept_of_exec {S : Type} {store : BatchJobStore S} {marking : BatchJobStore.Marking}
    (hacts : store.ActsOnRecords marking) (hmarks : marking.KeepsPayload) {w w' : BatchWorld S}
    {made : PlatformEvent → Prop} {op : PlatformOp} {answer : Except PyExc op.Res}
    (h : Kept (store.payloads w.store) made) (hexec : platformExec store op w answer w') :
    Kept (store.payloads w'.store) fun event => made event ∨ event = ⟨op, answer⟩ := by
  have hidle : w'.store = w.store → (∀ authContext payload model created,
      (⟨op, answer⟩ : PlatformEvent) ≠ ⟨.api (.batch (.create authContext payload model)), .ok created⟩) →
      (∀ jobId target running,
        (⟨op, answer⟩ : PlatformEvent) ≠ ⟨.api (.batch (.transition jobId target)), .ok (some running)⟩) →
      Kept (store.payloads w'.store) fun event => made event ∨ event = ⟨op, answer⟩ := by
    intro hstore hcreate hrunning
    refine h.other (by rw [hstore]) hcreate ?_
    intro jobId target running hevent
    exact absurd hevent (hrunning jobId target running)
  rcases op with (rawKey | op) | op
  · obtain rfl := hexec
    exact hidle rfl (by intro _ _ _ _ h; cases h) (by intro _ _ _ h; cases h)
  · rcases answer with exc | value
    · exact hidle hexec.1 (by intro _ _ _ _ h; cases h) (by intro _ _ _ h; cases h)
    · obtain ⟨hreplies, -⟩ := hexec
      cases op
      case create authContext payload model =>
        obtain ⟨hfresh, ⟨metadata, hjob⟩, hafter⟩ := hacts.create _ _ _ _ _ _ hreplies
        refine h.create ?_ ?_
        · rw [BatchJobStore.payloads, hfresh]
          rfl
        · intro jobId
          rw [BatchJobStore.payloads, hafter]
          split
          · rw [hjob]
            rfl
          · rfl
      case transition jobId target =>
        obtain ⟨hsame, hrecord⟩ := BatchJobStore.payloads_of_rewrites
          (hacts.transition _ _ _ _ _ hreplies) fun old new hnew => by rw [hnew]
        refine h.other hsame (by intro _ _ _ _ h; cases h) ?_
        intro other moved running hevent
        cases hevent
        exact hrecord running rfl
      case markSucceeded jobId result usage =>
        obtain ⟨hsame, -⟩ := BatchJobStore.payloads_of_rewrites
          (hacts.markSucceeded _ _ _ _ _ _ hreplies) (hmarks.succeeded result usage)
        exact h.other hsame (by intro _ _ _ _ h; cases h) (by intro _ _ _ h; cases h)
      case markFailed jobId code message =>
        obtain ⟨hsame, -⟩ := BatchJobStore.payloads_of_rewrites
          (hacts.markFailed _ _ _ _ _ _ hreplies) (hmarks.failed code message)
        exact h.other hsame (by intro _ _ _ _ h; cases h) (by intro _ _ _ h; cases h)
      case get => exact hidle hreplies.2 (by intro _ _ _ _ h; cases h) (by intro _ _ _ h; cases h)
      case dequeue => exact hidle hreplies.2 (by intro _ _ _ _ h; cases h) (by intro _ _ _ h; cases h)
      case contains => exact hidle hreplies.2 (by intro _ _ _ _ h; cases h) (by intro _ _ _ h; cases h)
      case listRecoverable =>
        exact hidle hreplies.2 (by intro _ _ _ _ h; cases h) (by intro _ _ _ h; cases h)
      all_goals exact hidle hreplies (by intro _ _ _ _ h; cases h) (by intro _ _ _ h; cases h)
  · obtain rfl := hexec
    exact hidle rfl (by intro _ _ _ _ h; cases h) (by intro _ _ _ h; cases h)

theorem readStr_eq_some {value : Json} {text : String} (h : readStr value = some text) : value = .str text := by
  cases value
  case str other =>
    rw [readStr] at h
    rw [Option.some.inj h]
  all_goals cases h

/-- Validation reads the model as it stands, and `stream` when it is there. -/
theorem modelValidate_spec {lax : LaxCoercions} {fields : JsonObject} {chat : ChatCompletionRequest}
    (h : ChatCompletionRequest.modelValidate lax fields = .ok chat) :
    JsonObject.get fields "model" = some (.str chat.model) ∧
      ∀ value ∈ JsonObject.get fields "stream", lax.toBool value = some chat.stream := by
  unfold ChatCompletionRequest.modelValidate at h
  simp only at h
  split at h
  · rename_i request hread
    obtain rfl := Except.ok.inj h
    obtain ⟨value, hvalue, hread⟩ := Option.bind_eq_some_iff.mp hread
    obtain ⟨model, hmodel, hread⟩ := Option.bind_eq_some_iff.mp hread
    obtain ⟨sent, -, hread⟩ := Option.bind_eq_some_iff.mp hread
    obtain ⟨messages, -, hread⟩ := Option.bind_eq_some_iff.mp hread
    have hname : ∀ request : ChatCompletionRequest, request.model = model →
        JsonObject.get fields "model" = some (.str request.model) := by
      intro request hrequest
      rw [hrequest, hvalue, readStr_eq_some hmodel]
    cases hsent : JsonObject.get fields "stream" with
    | none =>
        simp only [hsent, Option.bind_eq_bind, Option.bind_eq_some_iff] at hread
        obtain ⟨stream, hstream, _, -, _, -, _, -, _, -, _, -, _, -, hbounds⟩ := hread
        split at hbounds
        · obtain rfl := Option.some.inj hbounds
          refine ⟨hname _ rfl, ?_⟩
          intro other hother
          cases hother
        · cases hbounds
    | some sent =>
        simp only [hsent, Option.bind_eq_bind, Option.bind_eq_some_iff] at hread
        obtain ⟨stream, hstream, _, -, _, -, _, -, _, -, _, -, _, -, hbounds⟩ := hread
        split at hbounds
        · obtain rfl := Option.some.inj hbounds
          refine ⟨hname _ rfl, ?_⟩
          intro other hother
          rw [← Option.some.inj hother]
          exact hstream
        · cases hbounds
  · cases h

/-- The worker sends the model of the stored payload, and never asks for a stream. -/
theorem Rebuilt.keeps {running : BatchJobRecord} {payload : JsonObject} (h : Rebuilt running payload)
    (hstream : Unstreamed running.inputPayload) :
    Unstreamed payload ∧ ∀ authContext, Carries authContext running.inputPayload → Carries authContext payload := by
  obtain ⟨lax, chat, hchat, rfl⟩ := h
  obtain ⟨hmodel, hread⟩ := modelValidate_spec hchat
  have hoff : chat.stream = false := by
    have hbool := hread _ hstream
    rw [lax.toBool_bool] at hbool
    exact (Option.some.inj hbool).symm
  refine ⟨?_, ?_⟩
  · rw [Unstreamed, normalizeChatCompletionPayload, get_modelDump_stream, hoff]
  · rintro authContext ⟨model, hget, hallowed⟩
    obtain rfl := Json.str.inj (Option.some.inj (hmodel.symm.trans hget))
    exact ⟨chat.model, get_modelDump_model chat, hallowed⟩

/-- A thread has authenticated the key with this context, and no other. -/
def SentBy (t : PlatformThread) (authContext : AuthContext) : Prop :=
  ∃ rawKey, ⟨.api (.authenticate rawKey), .ok authContext⟩ ∈ t.calls

/-- A request with this context has created the job. -/
def SubmittedBy (threads : List PlatformThread) (jobId : String) (authContext : AuthContext) : Prop :=
  ∃ t ∈ threads, SentBy t authContext ∧ ∃ stored model created,
    ⟨.api (.batch (.create authContext stored model)), .ok created⟩ ∈ t.calls ∧ created.id = jobId

/-- What is sent to vLLM carries a model that the key of the request, or of the submission of the job, may
use; a completion is not streamed. -/
structure OnlyAllowed (threads : List PlatformThread) : Prop where
  completions : ∀ t ∈ threads, ∀ payload answer,
    ⟨.chat (.createChatCompletion payload), answer⟩ ∈ t.calls → Unstreamed payload ∧
      ∃ authContext, SentBy t authContext ∧ Carries authContext payload
  streams : ∀ t ∈ threads, ∀ payload answer,
    ⟨.chat (.streamChatCompletion payload), answer⟩ ∈ t.calls →
      ∃ authContext, SentBy t authContext ∧ Carries authContext payload
  jobs : ∀ t ∈ threads, ∀ payload answer,
    ⟨.api (.batch (.createChatCompletion payload)), answer⟩ ∈ t.calls → Unstreamed payload ∧
      ∃ jobId running, ⟨.api (.batch (.transition jobId .running)), .ok (some running)⟩ ∈ t.calls ∧
        ∃ authContext, SubmittedBy threads jobId authContext ∧ Carries authContext payload
  one_key : ∀ t ∈ threads, ∀ authContext authContext', SentBy t authContext → SentBy t authContext' →
    authContext = authContext'
  one_submission : ∀ jobId authContext authContext', SubmittedBy threads jobId authContext →
    SubmittedBy threads jobId authContext' → authContext = authContext'

section Sent

variable {t : PlatformThread}

/-- A call was allowed to a thread that had taken the payload before. -/
theorem taken_of_mem (h : custody.Keeps .free t.calls) {event : PlatformEvent} (hmem : event ∈ t.calls) :
    ∃ φ : Custody, φ.TakenBy t.calls ∧ custody.may φ event.op := by
  obtain ⟨left, right, heq⟩ := List.append_of_mem hmem
  refine ⟨custody.phase .free left, ?_, h left event right heq⟩
  refine (takenBy_phase left).mono ?_
  rw [heq]
  exact List.subset_append_left _ _

theorem SentBy.unique (h : custody.Keeps .free t.calls) {authContext authContext' : AuthContext}
    (hsent : SentBy t authContext) (hsent' : SentBy t authContext') : authContext = authContext' := by
  obtain ⟨rawKey, hmem⟩ := hsent
  obtain ⟨rawKey', hmem'⟩ := hsent'
  exact Custody.request.inj ((phase_of_authenticated h hmem).symm.trans (phase_of_authenticated h hmem'))

end Sent

/-- In every reachable pool, for a store whose calls keep the payloads. -/
theorem onlyAllowed_of_reachable {S : Type} {store : BatchJobStore S} {marking : BatchJobStore.Marking}
    (hacts : store.ActsOnRecords marking) (hmarks : marking.KeepsPayload) {w : BatchWorld S}
    (hempty : ∀ jobId, store.get jobId w.store = none) {pool : Pool (BatchWorld S) PlatformThread}
    (hreach : (platform store).Reachable w pool) : OnlyAllowed pool.threads := by
  have hkeeps : ∀ t ∈ pool.threads, custody.Keeps .free t.calls :=
    reachable_keeps (fun program hruns => follows_platform hruns) hreach
  have hinit : Kept (store.payloads w.store) fun _ => False :=
    kept_nothing fun jobId => by rw [BatchJobStore.payloads, hempty]; rfl
  have hkept : Kept (store.payloads pool.shared.store) pool.Made :=
    reachable_made (fun w made => Kept (store.payloads w.store) made) hinit
      (fun w made op answer w' h hexec => kept_of_exec hacts hmarks h hexec) hreach
  -- whoever creates a job has authenticated its context, and has checked the model
  have hsubmitted : ∀ jobId authContext stored, CreatedBy pool.Made jobId authContext stored →
      SubmittedBy pool.threads jobId authContext ∧ Carries authContext stored ∧ Unstreamed stored := by
    rintro jobId authContext stored ⟨model, created, ⟨t, ht, hmem⟩, hid⟩
    obtain ⟨φ, htaken, rfl, hcarries, hstream⟩ := taken_of_mem (hkeeps t ht) hmem
    exact ⟨⟨t, ht, htaken, stored, model, created, hmem, hid⟩, hcarries, hstream⟩
  refine ⟨?_, ?_, ?_, ?_, ?_⟩
  · intro t ht payload answer hmem
    obtain ⟨φ, htaken, authContext, rfl, hcarries, hstream⟩ := taken_of_mem (hkeeps t ht) hmem
    exact ⟨hstream, authContext, htaken, hcarries⟩
  · intro t ht payload answer hmem
    obtain ⟨φ, htaken, authContext, rfl, hcarries⟩ := taken_of_mem (hkeeps t ht) hmem
    exact ⟨authContext, htaken, hcarries⟩
  · intro t ht payload answer hmem
    obtain ⟨φ, htaken, jobId, running, rfl, hrebuilt⟩ := taken_of_mem (hkeeps t ht) hmem
    obtain ⟨authContext, hcreated⟩ := hkept.running jobId .running running ⟨t, ht, htaken⟩
    obtain ⟨hsubmit, hcarries, hstream⟩ := hsubmitted jobId authContext _ hcreated
    obtain ⟨hoff, hmodel⟩ := hrebuilt.keeps hstream
    exact ⟨hoff, jobId, running, htaken, authContext, hsubmit, hmodel authContext hcarries⟩
  · intro t ht authContext authContext' hsent hsent'
    exact hsent.unique (hkeeps t ht) hsent'
  · rintro jobId authContext authContext' ⟨t, ht, -, stored, model, created, hmem, hid⟩
      ⟨t', ht', -, stored', model', created', hmem', hid'⟩
    exact hkept.unique jobId _ _ _ _ ⟨model, created, ⟨t, ht, hmem⟩, hid⟩
      ⟨model', created', ⟨t', ht', hmem'⟩, hid'⟩

/-- **Only allowed models are executed**, in every run of requests, submissions, workers and scanners over
either store; Postgres is taken with its writes committed, which the source never does. -/
theorem only_allowed_models (queue : List String) :
    (∀ pool, (platform InMemoryBatchJobStore.store).Reachable ⟨.empty, queue⟩ pool →
      OnlyAllowed pool.threads) ∧
    ∀ db : Db, (∀ jobId, (db .batchJobs).find jobId = none) → ∀ pool,
      (platform PostgresBatchJobStore.store).Reachable ⟨db, queue⟩ pool → OnlyAllowed pool.threads := by
  refine ⟨?_, ?_⟩
  · intro pool hreach
    exact onlyAllowed_of_reachable InMemoryBatchJobStore.actsOnRecords
      InMemoryBatchJobStore.marking_keepsPayload (fun _ => rfl) hreach
  · intro db hempty pool hreach
    refine onlyAllowed_of_reachable PostgresBatchJobStore.actsOnRecords
      PostgresBatchJobStore.marking_keepsPayload ?_ hreach
    intro jobId
    exact congrArg (Option.map recordFromModel) (hempty jobId)

/-- A request with a restricted key has been answered. -/
theorem only_allowed_models_sent : ∃ pool payload answer,
    (platform InMemoryBatchJobStore.store).Reachable ⟨.empty, []⟩ pool ∧
      (∃ t ∈ pool.threads, ⟨.chat (.createChatCompletion payload), answer⟩ ∈ t.calls) ∧
      OnlyAllowed pool.threads := by
  let restricted : AuthContext := ⟨"key", "user", "project", some ["model"]⟩
  let w : BatchWorld InMemoryBatchJobStore := ⟨.empty, []⟩
  have h : (platform InMemoryBatchJobStore.store).Reachable w ⟨w, []⟩ := Relation.ReflTransGen.refl
  have h := reachable_start h (PlatformRuns.chat plainApp plainRequest (some "Bearer key") "req")
  have h := reachable_call [] [] h (show platformExec _ (.api (.authenticate "key")) w (.ok restricted) w
    from rfl)
  have h := reachable_call [] [] h (show platformExec _ (.chat (.admitRequest restricted 18)) w (.ok ⟨0⟩) w
    from rfl)
  have h := reachable_call [] [] h (show platformExec _ (.chat (.startAudit _)) w (.ok "audit") w from rfl)
  have h := reachable_call [] [] h (show platformExec _ (.chat (.createChatCompletion _)) w (.ok []) w
    from rfl)
  exact ⟨_, _, _, h, ⟨_, List.mem_singleton_self _, List.mem_append_right _ (List.mem_singleton_self _)⟩,
    (only_allowed_models []).1 _ h⟩

end GpuInference
