import GpuInference.ChatSchema

/-!
Token plans and usage. A plan is estimated before admission and bounds the request; the usage of a
finished request is read off the upstream response, or estimated from the text that was generated.
The audit data of a request is built from both.
-/

namespace GpuInference

/-- `TokenEstimator.count_text`. -/
abbrev TokenEstimator := String → Except PyExc Int

/-- `HeuristicTokenEstimator.count_text`. -/
def heuristicTokenEstimator : TokenEstimator := fun text =>
  let stripped := strip text
  if stripped = "" then .ok 0 else .ok (max 1 ((stripped.length + 3) / 4 : Nat))

structure TokenPlan where
  promptTokens : Int
  maxCompletionTokens : Int
  estimatedTotalTokens : Int
  deriving DecidableEq, Repr

/-- The status of an audit record and of a usage record. -/
inductive UsageStatus where
  | accepted
  | completed
  | failed
  | clientDisconnected
  deriving DecidableEq, Repr

structure UsageRecord where
  promptTokens : Int
  completionTokens : Int
  totalTokens : Int
  status : UsageStatus
  deriving DecidableEq, Repr

/-- The token limits of `Settings`. -/
structure TokenLimits where
  maxInputTokens : Int
  maxOutputTokens : Int
  maxTotalTokens : Int
  deriving DecidableEq, Repr

def maxOutputTokensExceeded : AppError where
  message := "Requested max_tokens exceeds the configured output token limit"
  code := "max_output_tokens_exceeded"
  statusCode := 400
  type := "invalid_request_error"
  param := some "max_tokens"

def maxInputTokensExceeded : AppError where
  message := "Prompt exceeds the configured input token limit"
  code := "max_input_tokens_exceeded"
  statusCode := 413
  type := "invalid_request_error"
  param := some "messages"

def maxTotalTokensExceeded : AppError where
  message := "Request exceeds the configured total token limit"
  code := "max_total_tokens_exceeded"
  statusCode := 413
  type := "invalid_request_error"
  param := some "max_tokens"

/-- `estimate_prompt_tokens`. -/
def estimatePromptTokens (messages : List ChatMessage) (estimator : TokenEstimator) :
    Except PyExc Int := do
  let mut total : Int := 0
  for message in messages do
    total := total + 4
    total := total + (← estimator message.role.name)
    total := total + (← estimator message.content)
  return total + 2

/-- `request.max_tokens or max_output_tokens`. -/
def requestedOutputTokens (request : ChatCompletionRequest) (limits : TokenLimits) : Int :=
  match request.maxTokens with
  | some n => if n ≠ 0 then n else limits.maxOutputTokens
  | none => limits.maxOutputTokens

/-- `build_token_plan`. -/
def buildTokenPlan (request : ChatCompletionRequest) (estimator : TokenEstimator)
    (limits : TokenLimits) : Except PyExc TokenPlan := do
  let promptTokens ← estimatePromptTokens request.messages estimator
  let requested := requestedOutputTokens request limits
  if limits.maxOutputTokens < requested then throw (.app maxOutputTokensExceeded)
  if limits.maxInputTokens < promptTokens then throw (.app maxInputTokensExceeded)
  let estimatedTotal := promptTokens + requested
  if limits.maxTotalTokens < estimatedTotal then throw (.app maxTotalTokensExceeded)
  return { promptTokens, maxCompletionTokens := requested, estimatedTotalTokens := estimatedTotal }

/-- The assistant text of one choice of a response. -/
def choiceText : Json → String
  | .obj choice =>
      match JsonObject.get choice "message" with
      | some (.obj message) =>
          match JsonObject.get message "content" with
          | some (.str content) => content
          | _ => ""
      | _ => ""
  | _ => ""

/-- The assistant text of a response. -/
def completionText (response : JsonObject) : String :=
  match JsonObject.get response "choices" with
  | some (.arr choices) => choices.foldl (fun text choice => text ++ choiceText choice) ""
  | _ => ""

/-- `int(usage.get(name, default) or 0)`. -/
def usageField (usage : JsonObject) (name : String) (default : Int) : Except PyExc Int :=
  intOf (orZero ((JsonObject.get usage name).getD (.int default)))

/-- `usage_from_response`. -/
def usageFromResponse (response : JsonObject) (plan : TokenPlan) (estimator : TokenEstimator) :
    Except PyExc UsageRecord :=
  match JsonObject.get response "usage" with
  | some (.obj usage) => do
      let prompt ← usageField usage "prompt_tokens" plan.promptTokens
      let completion ← usageField usage "completion_tokens" 0
      let total ← usageField usage "total_tokens" (prompt + completion)
      return { promptTokens := prompt, completionTokens := completion, totalTokens := total,
               status := .completed }
  | _ => do
      let completion ← estimator (completionText response)
      return { promptTokens := plan.promptTokens, completionTokens := completion,
               totalTokens := plan.promptTokens + completion, status := .completed }

/-- `usage_from_stream_text`. -/
def usageFromStreamText (text : String) (plan : TokenPlan) (estimator : TokenEstimator)
    (status : UsageStatus) : Except PyExc UsageRecord := do
  let completion ← estimator text
  return { promptTokens := plan.promptTokens, completionTokens := completion,
           totalTokens := plan.promptTokens + completion, status }

/-- The usage of a response is that of a completed request. -/
theorem usageFromResponse_completed {response : JsonObject} {plan : TokenPlan}
    {estimator : TokenEstimator} {usage : UsageRecord}
    (h : usageFromResponse response plan estimator = .ok usage) : usage.status = .completed := by
  unfold usageFromResponse at h
  split at h
  · obtain ⟨prompt, -, h⟩ := bind_eq_ok.mp h
    obtain ⟨completion, -, h⟩ := bind_eq_ok.mp h
    obtain ⟨total, -, h⟩ := bind_eq_ok.mp h
    cases h
    rfl
  · obtain ⟨completion, -, h⟩ := bind_eq_ok.mp h
    cases h
    rfl

theorem usageFromStreamText_status {text : String} {plan : TokenPlan} {estimator : TokenEstimator}
    {status : UsageStatus} {usage : UsageRecord}
    (h : usageFromStreamText text plan estimator status = .ok usage) : usage.status = status := by
  obtain ⟨completion, -, h⟩ := bind_eq_ok.mp h
  cases h
  rfl

/-- Reading the usage of a response raises no more than the estimator does. -/
theorem usageFromResponse_raises {response : JsonObject} {plan : TokenPlan}
    {estimator : TokenEstimator} {exc : PyExc}
    (hestimator : ∀ text exc, estimator text = .error exc → exc.isException = true)
    (h : usageFromResponse response plan estimator = .error exc) : exc.isException = true := by
  unfold usageFromResponse at h
  split at h
  · rcases bind_eq_error.mp h with hprompt | ⟨prompt, -, h⟩
    · exact intOf_raises hprompt
    · rcases bind_eq_error.mp h with hcompletion | ⟨completion, -, h⟩
      · exact intOf_raises hcompletion
      · rcases bind_eq_error.mp h with htotal | ⟨total, -, h⟩
        · exact intOf_raises htotal
        · cases h
  · rcases bind_eq_error.mp h with htext | ⟨completion, -, h⟩
    · exact hestimator _ _ htext
    · cases h

/-- Estimating a prompt raises no more than the estimator does. -/
theorem estimatePromptTokens_raises {messages : List ChatMessage} {estimator : TokenEstimator} {exc : PyExc}
    (hestimator : ∀ text exc, estimator text = .error exc → exc.isException = true)
    (h : estimatePromptTokens messages estimator = .error exc) : exc.isException = true := by
  unfold estimatePromptTokens at h
  rcases bind_eq_error.mp h with hloop | ⟨total, -, hret⟩
  · clear h
    generalize (0 : Int) = total at hloop
    induction messages generalizing total with
    | nil => cases hloop
    | cons message messages ih =>
        rw [List.forIn_cons] at hloop
        rcases bind_eq_error.mp hloop with hstep | ⟨next, hstep, hrest⟩
        · rcases bind_eq_error.mp hstep with hrole | ⟨role, -, hstep⟩
          · exact hestimator _ _ hrole
          · rcases bind_eq_error.mp hstep with hcontent | ⟨content, -, hstep⟩
            · exact hestimator _ _ hcontent
            · cases hstep
        · obtain ⟨role, -, hstep⟩ := bind_eq_ok.mp hstep
          obtain ⟨content, -, hstep⟩ := bind_eq_ok.mp hstep
          cases hstep
          exact ih _ hrest
  · cases hret

/-- Planning the tokens of a request raises an `AppError`, or what the estimator raises. -/
theorem buildTokenPlan_raises {request : ChatCompletionRequest} {estimator : TokenEstimator} {limits : TokenLimits}
    {exc : PyExc} (hestimator : ∀ text exc, estimator text = .error exc → exc.isException = true)
    (h : buildTokenPlan request estimator limits = .error exc) : exc.isException = true := by
  unfold buildTokenPlan at h
  rcases bind_eq_error.mp h with hprompt | ⟨promptTokens, -, h⟩
  · exact estimatePromptTokens_raises hestimator hprompt
  · simp only [bind, Except.bind, pure, Except.pure, throw, throwThe, MonadExceptOf.throw] at h
    split at h
    · cases h
      rfl
    · split at h
      · cases h
        rfl
      · split at h
        · cases h
          rfl
        · cases h

/-- What a request asks for is what its plan bounds, within the output limit. -/
theorem buildTokenPlan_spec {request : ChatCompletionRequest} {estimator : TokenEstimator}
    {limits : TokenLimits} {plan : TokenPlan} (h : buildTokenPlan request estimator limits = .ok plan) :
    plan.maxCompletionTokens = requestedOutputTokens request limits ∧
      plan.maxCompletionTokens ≤ limits.maxOutputTokens ∧
      plan.estimatedTotalTokens = plan.promptTokens + plan.maxCompletionTokens ∧
      plan.estimatedTotalTokens ≤ limits.maxTotalTokens := by
  unfold buildTokenPlan at h
  cases hprompt : estimatePromptTokens request.messages estimator with
  | error exc =>
      rw [hprompt] at h
      cases h
  | ok prompt =>
      simp only [hprompt, bind, Except.bind, pure, Except.pure, throw, throwThe, MonadExceptOf.throw] at h
      split at h
      · cases h
      · split at h
        · cases h
        · split at h
          · cases h
          · simp only [Except.ok.injEq] at h
            subst h
            exact ⟨rfl, by simpa using ‹¬limits.maxOutputTokens < _›, rfl,
              by simpa using ‹¬limits.maxTotalTokens < _›⟩

end GpuInference
