import GpuInference.AccountingProtocol

/-!
What bounds the engine. A plan bounds the completion of a request, and the tokens it reserves are all that
the request has been admitted for; the payload that is sent upstream is the dump of the request, without
the fields that are `None` and with every extra field.
-/

open Effect

namespace GpuInference

/-- How many tokens the engine may generate for a payload. -/
inductive EngineLimit where
  | rejected
  | unbounded
  | atMost (tokens : Nat)
  deriving DecidableEq, Repr

namespace EngineLimit

def Within (bound : Int) : EngineLimit → Prop
  | rejected => True
  | unbounded => False
  | atMost tokens => (tokens : Int) ≤ bound

/-- `n` completions of a limited length each; a field that cannot be read is an error. -/
def ofFields : (n completion tokens : Option (Option Int)) → EngineLimit
  | some n, some completion, some tokens =>
      match completion.or tokens with
      | none => unbounded
      | some limit => atMost ((n.getD 1).toNat * limit.toNat)
  | _, _, _ => rejected

theorem within_ofFields (n completion : Option (Option Int)) (tokens bound : Int) :
    (ofFields n completion (some (some tokens))).Within bound ↔
      ∀ n' completion', n = some n' → completion = some completion' →
        (((n'.getD 1).toNat * (completion'.getD tokens).toNat : Nat) : Int) ≤ bound := by
  cases n with
  | none => exact iff_of_true trivial nofun
  | some n =>
      cases completion with
      | none => exact iff_of_true trivial nofun
      | some completion =>
          have hlimit : ofFields (some n) (some completion) (some (some tokens)) =
              atMost ((n.getD 1).toNat * (completion.getD tokens).toNat) := by
            cases completion with
            | none => rfl
            | some limit => rfl
          rw [hlimit]
          constructor
          · intro h n' completion' hn hcompletion
            cases hn
            cases hcompletion
            exact h
          · intro h
            exact h n completion rfl rfl

end EngineLimit

/-- What the engine generates at most: `max_completion_tokens` comes before `max_tokens`, and a payload
without either is bounded by the model alone. -/
def engineLimit (engine : LaxCoercions) (payload : JsonObject) : EngineLimit :=
  .ofFields (readOptional engine.toInt payload "n")
    (readOptional engine.toInt payload "max_completion_tokens")
    (readOptional engine.toInt payload "max_tokens")

/-- The payload carries the bound of the plan, and the engine generates no more than is reserved for the
completion. -/
def Bounded (engine : LaxCoercions) (plan : TokenPlan) (payload : JsonObject) : Prop :=
  JsonObject.get payload "max_tokens" = some (.int plan.maxCompletionTokens) ∧
    (engineLimit engine payload).Within (plan.estimatedTotalTokens - plan.promptTokens)

/-- The request sets `max_tokens`, and the completions that its extra fields ask for fit into it. -/
def KeepsLimit (engine : LaxCoercions) (request : ChatCompletionRequest) : Prop :=
  ∃ tokens, request.maxTokens = some tokens ∧ ∀ n completion,
    readOptional engine.toInt (dumpExtra request.extra) "n" = some n →
      readOptional engine.toInt (dumpExtra request.extra) "max_completion_tokens" = some completion →
        (((n.getD 1).toNat * (completion.getD tokens).toNat : Nat) : Int) ≤ tokens

section Payload

variable {engine : LaxCoercions} {request : ChatCompletionRequest} {plan : TokenPlan}

theorem get_modelDump_extra {key : String} (h : key ∉ chatFieldNames) :
    JsonObject.get request.modelDump key = JsonObject.get (dumpExtra request.extra) key := by
  simp only [chatFieldNames, List.mem_cons, List.not_mem_nil, or_false, not_or] at h
  obtain ⟨hmodel, hmessages, hstream, hmaxTokens, htemperature, htopP, hstop, huser, hmetadata⟩ := h
  simp only [ChatCompletionRequest.modelDump, JsonObject.get_append, JsonObject.get_cons, JsonObject.get_nil,
    get_field, if_neg (Ne.symm hmodel), if_neg (Ne.symm hmessages), if_neg (Ne.symm hstream),
    if_neg (Ne.symm hmaxTokens), if_neg (Ne.symm htemperature), if_neg (Ne.symm htopP),
    if_neg (Ne.symm hstop), if_neg (Ne.symm huser), if_neg (Ne.symm hmetadata), Option.none_or]

theorem get_modelDump_maxTokens :
    JsonObject.get request.modelDump "max_tokens" = request.maxTokens.map .int := by
  have hextra : JsonObject.get (dumpExtra request.extra) "max_tokens" = none := by
    refine get_dumpExtra_none _ _ (JsonObject.get_eq_none _ _ ?_)
    intro hmember
    exact request.extra_fresh "max_tokens" hmember (by decide)
  simp only [ChatCompletionRequest.modelDump, JsonObject.get_append, JsonObject.get_cons, JsonObject.get_nil,
    get_field, hextra]
  simp

theorem get_streamPayload (payload : JsonObject) {key : String} (h : key ≠ "stream") :
    JsonObject.get (streamPayload payload) key = JsonObject.get payload key := by
  rw [streamPayload, JsonObject.get_set, if_neg (Ne.symm h)]

theorem readOptional_congr {α : Type} (read : Json → Option α) {fields fields' : JsonObject} {name : String}
    (h : JsonObject.get fields name = JsonObject.get fields' name) :
    readOptional read fields name = readOptional read fields' name := by
  rw [readOptional, readOptional, h]

/-- Streaming does not change what bounds the engine. -/
theorem bounded_streamPayload (payload : JsonObject) :
    Bounded engine plan (streamPayload payload) ↔ Bounded engine plan payload := by
  have hread : ∀ name, name ≠ "stream" → readOptional engine.toInt (streamPayload payload) name =
      readOptional engine.toInt payload name :=
    fun name h => readOptional_congr engine.toInt (get_streamPayload payload h)
  rw [Bounded, Bounded, get_streamPayload payload (by decide), engineLimit, engineLimit,
    hread "n" (by decide), hread "max_completion_tokens" (by decide), hread "max_tokens" (by decide)]

/-- The payload is bounded when the request keeps the limit. -/
theorem bounded_iff {estimator : TokenEstimator} {limits : TokenLimits}
    (h : buildTokenPlan request estimator limits = .ok plan) :
    Bounded engine plan (normalizeChatCompletionPayload request) ↔ KeepsLimit engine request := by
  obtain ⟨hmax, -, htotal, -⟩ := buildTokenPlan_spec h
  have hcompletion : plan.estimatedTotalTokens - plan.promptTokens = plan.maxCompletionTokens := by omega
  unfold Bounded KeepsLimit engineLimit normalizeChatCompletionPayload
  rw [hcompletion, get_modelDump_maxTokens,
    readOptional_congr engine.toInt (get_modelDump_extra (show "n" ∉ chatFieldNames by decide)),
    readOptional_congr engine.toInt
      (get_modelDump_extra (show "max_completion_tokens" ∉ chatFieldNames by decide))]
  cases htokens : request.maxTokens with
  | none => exact iff_of_false (by rintro ⟨hget, -⟩; cases hget) (by rintro ⟨tokens, hsome, -⟩; cases hsome)
  | some tokens =>
      have hpositive : tokens ≠ 0 := ne_of_gt (request.maxTokens_pos tokens htokens)
      have hplan : plan.maxCompletionTokens = tokens := by
        rw [hmax, requestedOutputTokens, htokens]
        exact if_pos hpositive
      have hread : readOptional engine.toInt request.modelDump "max_tokens" = some (some tokens) := by
        rw [readOptional, get_modelDump_maxTokens, htokens]
        exact congrArg (Option.map some) (engine.toInt_int tokens)
      rw [hplan, hread, EngineLimit.within_ofFields]
      constructor
      · rintro ⟨-, hwithin⟩
        exact ⟨tokens, rfl, hwithin⟩
      · rintro ⟨other, hother, hwithin⟩
        cases hother
        exact ⟨rfl, hwithin⟩

end Payload

/-- Every payload that the chat route sends is accepted by `sends`. -/
def chatSends (sends : JsonObject → Prop) : Protocol ChatOp ChatOp.Res PyExc Unit where
  may _
    | .createChatCompletion payload => sends payload
    | .streamChatCompletion payload => sends payload
    | _ => True
  after _ _ _ := ()

/-- Every payload that the worker sends is accepted by `sends`. -/
def workerSends (sends : JsonObject → Prop) : Protocol BatchOp BatchOp.Res PyExc Unit where
  may _
    | .createChatCompletion payload => sends payload
    | _ => True
  after _ _ _ := ()

section Sends

variable {sends : JsonObject → Prop}

/-- The chat route sends one payload. -/
theorem chatSends_iff (app : ChatApp) {request : ChatCompletionRequest} {authContext : AuthContext}
    (requestId : String) {plan : TokenPlan} (hmodel : ensureModelAllowed authContext request.model = .ok ())
    (hplan : buildTokenPlan request app.tokenEstimator app.settings = .ok plan) :
    (app.serve request (some authContext) requestId).Follows (chatSends sends) (fun _ _ => True) () ↔
      sends (sentPayload request) := by
  constructor
  · intro h
    unfold ChatApp.serve ChatApp.createChatCompletion at h
    simp only [Program.bind_eq, Program.lift_ok, Program.ret_bind, hmodel, hplan] at h
    have hanswered := (h.2 (.ok ⟨0⟩)).2 (.ok "")
    unfold sentPayload
    cases hstream : request.stream with
    | true =>
        rw [hstream] at hanswered
        exact (hanswered.2 (.ok ())).1
    | false =>
        rw [hstream] at hanswered
        exact hanswered.1
  · intro hsends
    have hfollows : (app.serve request (some authContext) requestId).Follows (chatProtocol sends)
        (fun φ _ => request.stream = true → φ ≠ .refinalized) .idle := by
      refine follows_serve app ?_ ?_ (some authContext) requestId
      · intro hstream
        rwa [sentPayload, hstream] at hsends
      · intro hstream
        rwa [sentPayload, hstream] at hsends
    refine hfollows.weaken (fun _ => ()) ?_ fun _ _ _ => rfl
    intro φ op hmay
    cases op <;> first | exact hmay | exact trivial

/-- The worker sends the payload of its job. -/
theorem workerSends_iff (self : BatchWorker) (jobId : String) {running : BatchJobRecord}
    {request : ChatCompletionRequest} {plan : TokenPlan}
    (hrequest : chatRequestFromBatch self.lax running = .ok request)
    (hplan : buildTokenPlan request self.tokenEstimator self.settings = .ok plan) :
    (self.runJob jobId running).Follows (workerSends sends) (fun _ _ => True) () ↔
      sends (normalizeChatCompletionPayload request) := by
  constructor
  · intro h
    unfold BatchWorker.runJob BatchWorker.complete at h
    simp only [hrequest, hplan, Block.lift_ok_bind] at h
    exact (((h.2 (.ok "")).2 (.ok ⟨0⟩)).2 (.ok "")).1
  · intro hsends
    have hown : ∀ other, chatRequestFromBatch self.lax running = .ok other →
        sends (normalizeChatCompletionPayload other) := by
      intro other hother
      rw [hrequest] at hother
      cases hother
      exact hsends
    refine (follows_runJob_worker self jobId hown).weaken (fun _ => ()) ?_ fun _ _ _ => rfl
    intro φ op hmay
    cases op <;> first | exact hmay | exact trivial

end Sends

/-- **When the bound of a plan reaches the engine.** On every path, the payload is bounded by the plan
when the request keeps its limit. -/
theorem bounded_reaches_iff (engine : LaxCoercions) :
    (∀ (app : ChatApp) (request : ChatCompletionRequest) (authContext : AuthContext) (requestId : String)
      (plan : TokenPlan), ensureModelAllowed authContext request.model = .ok () →
        buildTokenPlan request app.tokenEstimator app.settings = .ok plan →
          ((app.serve request (some authContext) requestId).Follows (chatSends (Bounded engine plan))
            (fun _ _ => True) () ↔ KeepsLimit engine request)) ∧
    ∀ (self : BatchWorker) (jobId : String) (running : BatchJobRecord) (request : ChatCompletionRequest)
      (plan : TokenPlan), chatRequestFromBatch self.lax running = .ok request →
        buildTokenPlan request self.tokenEstimator self.settings = .ok plan →
          ((self.runJob jobId running).Follows (workerSends (Bounded engine plan)) (fun _ _ => True) () ↔
            KeepsLimit engine request) := by
  refine ⟨?_, ?_⟩
  · intro app request authContext requestId plan hmodel hplan
    rw [chatSends_iff app requestId hmodel hplan, sentPayload]
    split
    · rw [bounded_streamPayload, bounded_iff hplan]
    · rw [bounded_iff hplan]
  · intro self jobId running request plan hrequest hplan
    rw [workerSends_iff self jobId hrequest hplan, bounded_iff hplan]

/-- A chat request and a batch job that set `max_tokens` and have no extra field. -/
theorem bounded_reaches_plain :
    (plainApp.serve plainRequest (some plainContext) "req").Follows
      (chatSends (Bounded .strict ⟨8, 10, 18⟩)) (fun _ _ => True) () ∧
    (plainWorker.runJob "job" plainJob).Follows
      (workerSends (Bounded .strict ⟨8, 10, 18⟩)) (fun _ _ => True) () := by
  have hkeeps : KeepsLimit .strict plainRequest := by
    refine ⟨10, rfl, ?_⟩
    intro n completion hn hcompletion
    cases hn
    cases hcompletion
    decide
  refine ⟨?_, ?_⟩
  · exact ((bounded_reaches_iff .strict).1 plainApp plainRequest plainContext "req" ⟨8, 10, 18⟩ rfl rfl).mpr
      hkeeps
  · exact ((bounded_reaches_iff .strict).2 plainWorker "job" plainJob plainRequest ⟨8, 10, 18⟩ rfl rfl).mpr
      hkeeps

/-- The request without `max_tokens`. -/
def openEndedRequest : ChatCompletionRequest :=
  { plainRequest with maxTokens := none, maxTokens_pos := nofun }

/-- The request for two completions. -/
def twofoldRequest : ChatCompletionRequest :=
  { plainRequest with extra := [("n", .int 2)], extra_fresh := by decide }

/-- The plan does not bound a payload without `max_tokens`, nor one that asks for two completions. -/
theorem bound_bypassed :
    ¬ (∀ (engine : LaxCoercions) (app : ChatApp) (request : ChatCompletionRequest)
      (authContext : AuthContext) (requestId : String) (plan : TokenPlan), request.extra = [] →
        ensureModelAllowed authContext request.model = .ok () →
          buildTokenPlan request app.tokenEstimator app.settings = .ok plan →
            (app.serve request (some authContext) requestId).Follows (chatSends (Bounded engine plan))
              (fun _ _ => True) ()) ∧
    ¬ ∀ (engine : LaxCoercions) (app : ChatApp) (request : ChatCompletionRequest)
      (authContext : AuthContext) (requestId : String) (plan : TokenPlan), request.maxTokens ≠ none →
        ensureModelAllowed authContext request.model = .ok () →
          buildTokenPlan request app.tokenEstimator app.settings = .ok plan →
            (app.serve request (some authContext) requestId).Follows (chatSends (Bounded engine plan))
              (fun _ _ => True) () := by
  refine ⟨?_, ?_⟩
  · intro h
    have hsends := h .strict plainApp openEndedRequest plainContext "req" ⟨8, 100, 108⟩ rfl rfl rfl
    have hbounded := (chatSends_iff plainApp "req" rfl rfl).mp hsends
    exact absurd hbounded.1 (by decide)
  · intro h
    have hsends := h .strict plainApp twofoldRequest plainContext "req" ⟨8, 10, 18⟩ nofun rfl rfl
    have hbounded := (chatSends_iff plainApp "req" rfl rfl).mp hsends
    have hlimit : engineLimit .strict (sentPayload twofoldRequest) = .atMost 20 := by decide
    rw [Bounded, hlimit] at hbounded
    have hfits : (20 : Int) ≤ 18 - 8 := hbounded.2
    omega

end GpuInference
