import GpuInference.TokenAccounting

/-!
The usage of a response, read field by field. Each count is taken from the upstream when it is
there, and the three are not compared: the record is consistent exactly when the upstream's own
counts are, and when the zeros that stand for null counts are the counts they stand for.
-/

namespace GpuInference

/-- A field that is missing or null. -/
def FieldAbsent (fields : JsonObject) (name : String) : Prop :=
  JsonObject.get fields name = none ∨ JsonObject.get fields name = some .null

/-- The upstream gave no such count: its usage is missing or null, or the count is. -/
def CountAbsent (response : JsonObject) (name : String) : Prop :=
  FieldAbsent response "usage" ∨
    ∃ usage, JsonObject.get response "usage" = some (.obj usage) ∧ FieldAbsent usage name

/-- The upstream gave a count, and `int(value or 0)` reads it. -/
def CountReported (usage : JsonObject) (name : String) (count : Int) : Prop :=
  ∃ value, JsonObject.get usage name = some value ∧ value ≠ .null ∧ intOf (orZero value) = .ok count

/-- A record that adds up, whose counts fall back to the plan and to the assistant text. -/
structure ConsistentUsage (response : JsonObject) (plan : TokenPlan) (estimator : TokenEstimator)
    (usage : UsageRecord) : Prop where
  prompt_nonneg : 0 ≤ usage.promptTokens
  completion_nonneg : 0 ≤ usage.completionTokens
  total_eq : usage.totalTokens = usage.promptTokens + usage.completionTokens
  prompt_fallback : CountAbsent response "prompt_tokens" → usage.promptTokens = plan.promptTokens
  completion_fallback : CountAbsent response "completion_tokens" →
    estimator (completionText response) = .ok usage.completionTokens

/-- The counts of a usage object are numbers from zero on that add up, and a zero put in place of
a null or missing count is what the count falls back to. -/
structure UsageAgrees (usage : JsonObject) (plan : TokenPlan) (textTokens : Except PyExc Int)
    (prompt completion : Int) : Prop where
  prompt_nonneg : 0 ≤ prompt
  completion_nonneg : 0 ≤ completion
  prompt_reads : JsonObject.get usage "prompt_tokens" = none ∧ prompt = plan.promptTokens ∨
    JsonObject.get usage "prompt_tokens" = some .null ∧ prompt = 0 ∧ plan.promptTokens = 0 ∨
    CountReported usage "prompt_tokens" prompt
  completion_reads : FieldAbsent usage "completion_tokens" ∧ completion = 0 ∧ textTokens = .ok 0 ∨
    CountReported usage "completion_tokens" completion
  total_reads : JsonObject.get usage "total_tokens" = none ∨
    JsonObject.get usage "total_tokens" = some .null ∧ prompt + completion = 0 ∨
    CountReported usage "total_tokens" (prompt + completion)

/-- When the record of a response is consistent: read off the response, the plan and the text. -/
def UsageReadable (response : JsonObject) (plan : TokenPlan) (estimator : TokenEstimator) : Prop :=
  match JsonObject.get response "usage" with
  | some (.obj usage) =>
      ∃ prompt completion,
        UsageAgrees usage plan (estimator (completionText response)) prompt completion
  | _ => 0 ≤ plan.promptTokens

/-- The default of a field is taken when it is missing, and zero when it is null. -/
theorem usageField_eq_ok {usage : JsonObject} {name : String} {default count : Int} :
    usageField usage name default = .ok count ↔
      JsonObject.get usage name = none ∧ count = default ∨
      JsonObject.get usage name = some .null ∧ count = 0 ∨ CountReported usage name count := by
  unfold usageField CountReported
  cases hfield : JsonObject.get usage name with
  | none =>
      have hdefault : intOf (orZero (.int default)) = .ok default := by
        by_cases hzero : default = 0
        · subst hzero
          rfl
        · simp [orZero, Json.truthy, hzero, intOf]
      simp only [Option.getD_none, hdefault, Except.ok.injEq, reduceCtorEq, true_and, false_and,
        exists_false, or_false]
      exact eq_comm
  | some value =>
      by_cases hnull : value = .null
      · subst hnull
        simp only [Option.getD_some, orZero, Json.truthy, Bool.false_eq_true, if_false, intOf,
          Except.ok.injEq, Option.some.injEq, reduceCtorEq, false_and, false_or, true_and]
        constructor
        · intro h
          exact .inl h.symm
        · rintro (h | ⟨value, hvalue, hnonnull, -⟩)
          · exact h.symm
          · exact absurd hvalue.symm hnonnull
      · simp [hnull]

/-- A response with a usage object: the three counts are read in turn. -/
theorem usageFromResponse_of_usage {response usage : JsonObject} {plan : TokenPlan}
    {estimator : TokenEstimator} {record : UsageRecord}
    (husage : JsonObject.get response "usage" = some (.obj usage)) :
    usageFromResponse response plan estimator = .ok record ↔
      usageField usage "prompt_tokens" plan.promptTokens = .ok record.promptTokens ∧
      usageField usage "completion_tokens" 0 = .ok record.completionTokens ∧
      usageField usage "total_tokens" (record.promptTokens + record.completionTokens) =
        .ok record.totalTokens ∧ record.status = .completed := by
  simp only [usageFromResponse, husage, bind_eq_ok]
  constructor
  · rintro ⟨prompt, hprompt, completion, hcompletion, total, htotal, hrecord⟩
    cases hrecord
    exact ⟨hprompt, hcompletion, htotal, rfl⟩
  · rintro ⟨hprompt, hcompletion, htotal, hstatus⟩
    refine ⟨_, hprompt, _, hcompletion, _, htotal, ?_⟩
    rw [← hstatus]
    rfl

/-- Any other response: the plan's prompt and the assistant text. -/
theorem usageFromResponse_of_text {response : JsonObject} {plan : TokenPlan}
    {estimator : TokenEstimator} {record : UsageRecord}
    (husage : ∀ usage, JsonObject.get response "usage" ≠ some (.obj usage)) :
    usageFromResponse response plan estimator = .ok record ↔
      record.promptTokens = plan.promptTokens ∧
      estimator (completionText response) = .ok record.completionTokens ∧
      record.totalTokens = record.promptTokens + record.completionTokens ∧
      record.status = .completed := by
  unfold usageFromResponse
  split
  · rename_i usage h
    exact absurd h (husage usage)
  · rw [bind_eq_ok]
    constructor
    · rintro ⟨completion, hcompletion, hrecord⟩
      cases hrecord
      exact ⟨rfl, hcompletion, rfl, rfl⟩
    · rintro ⟨hprompt, hcompletion, htotal, hstatus⟩
      refine ⟨_, hcompletion, ?_⟩
      rw [← hstatus, ← hprompt, ← htotal]
      rfl

section UsageObject

variable {response usage : JsonObject} {plan : TokenPlan} {estimator : TokenEstimator}
  (husage : JsonObject.get response "usage" = some (.obj usage))

include husage

theorem countAbsent_iff {name : String} : CountAbsent response name ↔ FieldAbsent usage name := by
  unfold CountAbsent
  constructor
  · rintro (habsent | ⟨usage', husage', habsent⟩)
    · rcases habsent with h | h <;> simp [husage] at h
    · rw [husage] at husage'
      cases husage'
      exact habsent
  · intro habsent
    exact .inr ⟨usage, husage, habsent⟩

/-- A consistent record read off a usage object: the counts of the object agree. -/
theorem agrees_of_consistent {record : UsageRecord}
    (hread : usageFromResponse response plan estimator = .ok record)
    (h : ConsistentUsage response plan estimator record) :
    UsageAgrees usage plan (estimator (completionText response))
      record.promptTokens record.completionTokens := by
  obtain ⟨hprompt, hcompletion, htotal, -⟩ := (usageFromResponse_of_usage husage).mp hread
  rw [usageField_eq_ok] at hprompt hcompletion htotal
  have hpromptBack := h.prompt_fallback
  have hcompletionBack := h.completion_fallback
  rw [countAbsent_iff husage] at hpromptBack hcompletionBack
  refine ⟨h.prompt_nonneg, h.completion_nonneg, ?_, ?_, ?_⟩
  · rcases hprompt with hmissing | ⟨hnull, hzero⟩ | hreported
    · exact .inl hmissing
    · exact .inr (.inl ⟨hnull, hzero, (hpromptBack (.inr hnull)).symm.trans hzero⟩)
    · exact .inr (.inr hreported)
  · rcases hcompletion with ⟨hmissing, hzero⟩ | ⟨hnull, hzero⟩ | hreported
    · exact .inl ⟨.inl hmissing, hzero, by rw [hcompletionBack (.inl hmissing), hzero]⟩
    · exact .inl ⟨.inr hnull, hzero, by rw [hcompletionBack (.inr hnull), hzero]⟩
    · exact .inr hreported
  · rw [h.total_eq] at htotal
    rcases htotal with ⟨hmissing, -⟩ | hnull | hreported
    · exact .inl hmissing
    · exact .inr (.inl hnull)
    · exact .inr (.inr hreported)

/-- And counts that agree are read as a consistent record. -/
theorem consistent_of_agrees {prompt completion : Int}
    (h : UsageAgrees usage plan (estimator (completionText response)) prompt completion) :
    ∃ record, usageFromResponse response plan estimator = .ok record ∧
      ConsistentUsage response plan estimator record := by
  have hprompt : usageField usage "prompt_tokens" plan.promptTokens = .ok prompt := by
    rw [usageField_eq_ok]
    rcases h.prompt_reads with hmissing | ⟨hnull, hzero, -⟩ | hreported
    · exact .inl hmissing
    · exact .inr (.inl ⟨hnull, hzero⟩)
    · exact .inr (.inr hreported)
  have hcompletion : usageField usage "completion_tokens" 0 = .ok completion := by
    rw [usageField_eq_ok]
    rcases h.completion_reads with ⟨hmissing | hnull, hzero, -⟩ | hreported
    · exact .inl ⟨hmissing, hzero⟩
    · exact .inr (.inl ⟨hnull, hzero⟩)
    · exact .inr (.inr hreported)
  have htotal : usageField usage "total_tokens" (prompt + completion) = .ok (prompt + completion) := by
    rw [usageField_eq_ok]
    rcases h.total_reads with hmissing | hnull | hreported
    · exact .inl ⟨hmissing, rfl⟩
    · exact .inr (.inl hnull)
    · exact .inr (.inr hreported)
  refine ⟨⟨prompt, completion, prompt + completion, .completed⟩,
    (usageFromResponse_of_usage husage).mpr ⟨hprompt, hcompletion, htotal, rfl⟩,
    h.prompt_nonneg, h.completion_nonneg, rfl, ?_, ?_⟩
  · rw [countAbsent_iff husage]
    intro habsent
    rcases h.prompt_reads with ⟨-, hplan⟩ | ⟨-, hzero, hplan⟩ | ⟨value, hvalue, hnonnull, -⟩
    · exact hplan
    · exact hzero.trans hplan.symm
    · rcases habsent with habsent | habsent <;> simp_all
  · rw [countAbsent_iff husage]
    intro habsent
    rcases h.completion_reads with ⟨-, hzero, htext⟩ | ⟨value, hvalue, hnonnull, -⟩
    · rw [htext, hzero]
    · rcases habsent with habsent | habsent <;> simp_all

end UsageObject

/-- The record of a response is consistent exactly when the counts of the upstream are. -/
theorem usage_consistent_iff (response : JsonObject) (plan : TokenPlan) (estimator : TokenEstimator)
    (hestimator : ∀ text, ∃ count, 0 ≤ count ∧ estimator text = .ok count) :
    (∃ usage, usageFromResponse response plan estimator = .ok usage ∧
      ConsistentUsage response plan estimator usage) ↔
    UsageReadable response plan estimator := by
  unfold UsageReadable
  split
  · rename_i usage husage
    constructor
    · rintro ⟨record, hread, hconsistent⟩
      exact ⟨_, _, agrees_of_consistent husage hread hconsistent⟩
    · rintro ⟨prompt, completion, hagrees⟩
      exact consistent_of_agrees husage hagrees
  · rename_i husage
    constructor
    · rintro ⟨record, hread, hconsistent⟩
      have hprompt := ((usageFromResponse_of_text husage).mp hread).1
      rw [← hprompt]
      exact hconsistent.prompt_nonneg
    · intro hplan
      obtain ⟨count, hcount, htext⟩ := hestimator (completionText response)
      exact ⟨⟨plan.promptTokens, count, plan.promptTokens + count, .completed⟩,
        (usageFromResponse_of_text husage).mpr ⟨rfl, htext, rfl, rfl⟩,
        hplan, hcount, rfl, fun _ => rfl, fun _ => htext⟩

/-- A usage object whose total is null: the total is read as zero. -/
def nullTotal : JsonObject :=
  [("usage", .obj [("prompt_tokens", .int 5), ("completion_tokens", .int 7), ("total_tokens", .null)])]

def fivePromptTokens : TokenPlan := ⟨5, 100, 105⟩

theorem heuristic_counts (text : String) :
    ∃ count, 0 ≤ count ∧ heuristicTokenEstimator text = .ok count := by
  unfold heuristicTokenEstimator
  dsimp only
  split
  · exact ⟨0, le_refl 0, rfl⟩
  · exact ⟨_, by omega, rfl⟩

/-- With every count of the upstream in its place, the record adds up. -/
theorem usage_consistent_reported :
    ∃ usage, usageFromResponse
        [("usage", .obj [("prompt_tokens", .int 5), ("completion_tokens", .int 7),
          ("total_tokens", .int 12)])] fivePromptTokens heuristicTokenEstimator = .ok usage ∧
      ConsistentUsage
        [("usage", .obj [("prompt_tokens", .int 5), ("completion_tokens", .int 7),
          ("total_tokens", .int 12)])] fivePromptTokens heuristicTokenEstimator usage := by
  apply (usage_consistent_iff _ fivePromptTokens heuristicTokenEstimator heuristic_counts).mpr
  exact ⟨5, 7, by decide, by decide, .inr (.inr ⟨.int 5, rfl, by simp, rfl⟩),
    .inr ⟨.int 7, rfl, by simp, rfl⟩, .inr (.inr ⟨.int 12, rfl, by simp, rfl⟩)⟩

/-- A null total frees the twelve tokens that were used. -/
theorem usage_total_lost :
    ¬∃ usage, usageFromResponse nullTotal fivePromptTokens heuristicTokenEstimator = .ok usage ∧
      ConsistentUsage nullTotal fivePromptTokens heuristicTokenEstimator usage := by
  rintro ⟨usage, hread, hconsistent⟩
  have hrecord : usageFromResponse nullTotal fivePromptTokens heuristicTokenEstimator =
      .ok ⟨5, 7, 0, .completed⟩ := rfl
  rw [hrecord] at hread
  cases hread
  exact absurd hconsistent.total_eq (by decide)

end GpuInference
