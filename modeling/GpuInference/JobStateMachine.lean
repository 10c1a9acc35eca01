import GpuInference.BatchRecords
import GpuInference.LabelledRun

/-!
The state machine of a job. Only `transition` asks the table of allowed transitions; the marks write their status over
every status but cancelled. So the state machine is kept exactly when the marks find a job that may be marked.
-/

open Effect LabelledRun

namespace GpuInference

/-- A call that may change the status of a job. -/
inductive StatusCall where
  | transition (jobId : String) (target : JobStatus)
  | markSucceeded (jobId : String) (result usage : JsonObject)
  | markFailed (jobId : String) (errorCode : Option String) (errorMessage : String)

/-- What one call may do to a job: its status moves along an allowed transition or stays, and a terminal job keeps its
status and its result. -/
structure KeepsStateMachine (old new : BatchJobRecord) : Prop where
  edge : new.status = old.status ∨ canTransition old.status new.status = true
  final : old.status.terminal = true → new.status = old.status ∧ new.resultPayload = old.resultPayload

theorem KeepsStateMachine.refl (job : BatchJobRecord) : KeepsStateMachine job job := ⟨.inl rfl, fun _ => ⟨rfl, rfl⟩⟩

namespace BatchJobStore

variable {S : Type} (store : BatchJobStore S)

/-- The call is carried out on the store and returns. -/
def Performs (s : S) (call : StatusCall) (s' : S) : Prop :=
  ∃ record, match call with
    | .transition jobId target => store.transition jobId target s record s'
    | .markSucceeded jobId result usage => store.markSucceeded jobId result usage s record s'
    | .markFailed jobId errorCode errorMessage => store.markFailed jobId errorCode errorMessage s record s'

/-- Every job that was there is there after the call, as the state machine has it. -/
def Obeys (s : S) (_ : StatusCall) (s' : S) : Prop :=
  ∀ jobId old, store.get jobId s = some old → ∃ new, store.get jobId s' = some new ∧ KeepsStateMachine old new

/-- A success finds a running or a cancelled job, or its own result; a failure finds no succeeded job. -/
def InOrder (s : S) (call : StatusCall) (_ : S) : Prop :=
  match call with
  | .transition _ _ => True
  | .markSucceeded jobId result _ => ∀ job, store.get jobId s = some job → job.status = .running ∨
      job.status = .cancelled ∨ (job.status = .succeeded ∧ job.resultPayload = some result)
  | .markFailed jobId _ _ => ∀ job, store.get jobId s = some job → job.status ≠ .succeeded

/-- The marks write their status; a success writes its result and a failure leaves the result as it is. -/
structure Marking.WritesStatus (marking : Marking) : Prop where
  succeeded : ∀ result usage old new, marking.succeeded result usage old new →
    new.status = .succeeded ∧ new.resultPayload = some result
  failed : ∀ code message old new, marking.failed code message old new →
    new.status = .failed ∧ new.resultPayload = old.resultPayload

section Steps

variable {store} {marking : Marking} {s s' : S}

/-- A call that rewrites the record of one job obeys the state machine when the writing of this record does. -/
theorem Rewrites.obeys_iff {jobId : String} {guard : JobStatus → Bool} {write : BatchJobRecord → BatchJobRecord → Prop}
    {record : Option BatchJobRecord} {call : StatusCall} (h : store.Rewrites jobId guard write s record s') :
    store.Obeys s call s' ↔ ∀ old new, store.get jobId s = some old → guard old.status = true → write old new →
      store.get jobId s' = some new → KeepsStateMachine old new := by
  rcases h with ⟨-, hrefused, hafter⟩ | ⟨old, new, hold, hguard, hwrite, -, hafter⟩
  · refine iff_of_true ?_ ?_
    · intro other job hjob
      exact ⟨job, (hafter other).trans hjob, .refl job⟩
    · intro old new hold hguard
      rw [hrefused old hold] at hguard
      cases hguard
  · have hnew : store.get jobId s' = some new := (hafter jobId).trans (if_pos rfl)
    constructor
    · intro hobeys old' new' hold' _ _ hnew'
      obtain ⟨shown, hshown, hkeeps⟩ := hobeys jobId old' hold'
      obtain rfl := Option.some.inj (hshown.symm.trans hnew')
      exact hkeeps
    · intro hkeeps other job hjob
      by_cases hother : other = jobId
      · subst hother
        obtain rfl := Option.some.inj (hold.symm.trans hjob)
        exact ⟨new, hnew, hkeeps old new hold hguard hwrite hnew⟩
      · exact ⟨job, (hafter other).trans ((if_neg hother).trans hjob), .refl job⟩

/-- A success keeps the state machine of the jobs it may mark. -/
theorem keeps_succeeded {old new : BatchJobRecord} {result : JsonObject} (hlive : markable old.status = true)
    (hstatus : new.status = .succeeded) (hresult : new.resultPayload = some result) :
    KeepsStateMachine old new ↔ old.status = .running ∨ old.status = .cancelled ∨
      (old.status = .succeeded ∧ old.resultPayload = some result) := by
  constructor
  · rintro ⟨hedge, hfinal⟩
    rw [hstatus] at hedge hfinal
    cases hold : old.status with
    | running => exact .inl rfl
    | cancelled => exact .inr (.inl rfl)
    | succeeded =>
        rw [hold] at hfinal
        exact .inr (.inr ⟨rfl, (hfinal rfl).2.symm.trans hresult⟩)
    | queued =>
        rw [hold] at hedge
        exact absurd hedge (by decide)
    | failed =>
        rw [hold] at hedge
        exact absurd hedge (by decide)
  · rintro (hold | hold | ⟨hold, hsame⟩)
    · refine ⟨.inr ?_, ?_⟩
      · rw [hold, hstatus]
        rfl
      · rw [hold]
        intro hterminal
        cases hterminal
    · rw [hold] at hlive
      cases hlive
    · exact ⟨.inl (hstatus.trans hold.symm), fun _ => ⟨hstatus.trans hold.symm, hresult.trans hsame.symm⟩⟩

/-- A failure keeps the state machine of every job that has not succeeded. -/
theorem keeps_failed {old new : BatchJobRecord} (hlive : markable old.status = true) (hstatus : new.status = .failed)
    (hresult : new.resultPayload = old.resultPayload) : KeepsStateMachine old new ↔ old.status ≠ .succeeded := by
  constructor
  · rintro ⟨hedge, -⟩ hold
    rw [hstatus, hold] at hedge
    exact absurd hedge (by decide)
  · intro hold
    have hcases : old.status = .failed ∨ (old.status.terminal = false ∧ canTransition old.status .failed = true) := by
      cases hcase : old.status with
      | queued => exact .inr ⟨rfl, rfl⟩
      | running => exact .inr ⟨rfl, rfl⟩
      | failed => exact .inl rfl
      | succeeded => exact absurd hcase hold
      | cancelled =>
          rw [hcase] at hlive
          cases hlive
    rcases hcases with hfailed | ⟨hopen, hcan⟩
    · exact ⟨.inl (hstatus.trans hfailed.symm), fun _ => ⟨hstatus.trans hfailed.symm, hresult⟩⟩
    · refine ⟨.inr (hstatus ▸ hcan), ?_⟩
      intro hterminal
      rw [hopen] at hterminal
      cases hterminal

/-- **One call** obeys the state machine exactly when it comes in order. -/
theorem obeys_step (hacts : store.ActsOnRecords marking) (hwrites : marking.WritesStatus) {call : StatusCall}
    (h : store.Performs s call s') : store.Obeys s call s' ↔ store.InOrder s call s' := by
  obtain ⟨record, h⟩ := h
  cases call with
  | transition jobId target =>
      refine iff_of_true ?_ trivial
      refine (hacts.transition _ _ _ _ _ h).obeys_iff.mpr ?_
      rintro old new - hcan rfl -
      refine ⟨.inr hcan, ?_⟩
      intro hterminal
      rw [canTransition_of_terminal hterminal] at hcan
      cases hcan
  | markSucceeded jobId result usage =>
      have hrewrites := hacts.markSucceeded _ _ _ _ _ _ h
      rw [hrewrites.obeys_iff]
      constructor
      · intro hkeeps job hjob
        rcases hrewrites with ⟨-, hrefused, -⟩ | ⟨old, new, hold, hlive, hwrite, -, hafter⟩
        · have hcancelled := hrefused job hjob
          simp only [markable, ne_eq, decide_eq_false_iff_not, not_not] at hcancelled
          exact .inr (.inl hcancelled)
        · obtain rfl := Option.some.inj (hold.symm.trans hjob)
          obtain ⟨hstatus, hresult⟩ := hwrites.succeeded _ _ _ _ hwrite
          exact (keeps_succeeded hlive hstatus hresult).mp
            (hkeeps old new hold hlive hwrite ((hafter jobId).trans (if_pos rfl)))
      · intro horder old new hold hlive hwrite _
        obtain ⟨hstatus, hresult⟩ := hwrites.succeeded _ _ _ _ hwrite
        exact (keeps_succeeded hlive hstatus hresult).mpr (horder old hold)
  | markFailed jobId errorCode errorMessage =>
      have hrewrites := hacts.markFailed _ _ _ _ _ _ h
      rw [hrewrites.obeys_iff]
      constructor
      · intro hkeeps job hjob
        rcases hrewrites with ⟨-, hrefused, -⟩ | ⟨old, new, hold, hlive, hwrite, -, hafter⟩
        · have hcancelled := hrefused job hjob
          simp only [markable, ne_eq, decide_eq_false_iff_not, not_not] at hcancelled
          rw [hcancelled]
          exact JobStatus.noConfusion
        · obtain rfl := Option.some.inj (hold.symm.trans hjob)
          obtain ⟨hstatus, hresult⟩ := hwrites.failed _ _ _ _ hwrite
          exact (keeps_failed hlive hstatus hresult).mp
            (hkeeps old new hold hlive hwrite ((hafter jobId).trans (if_pos rfl)))
      · intro horder old new hold hlive hwrite _
        obtain ⟨hstatus, hresult⟩ := hwrites.failed _ _ _ _ hwrite
        exact (keeps_failed hlive hstatus hresult).mpr (horder old hold)

end Steps

/-- Every call of a run obeys the state machine. -/
def ObeysAlong : S → List (StatusCall × S) → Prop := Along store.Obeys

def InOrderAlong : S → List (StatusCall × S) → Prop := Along store.InOrder

end BatchJobStore

theorem memory_writesStatus : InMemoryBatchJobStore.marking.WritesStatus where
  succeeded := by
    rintro result usage old new rfl
    exact ⟨rfl, rfl⟩
  failed := by
    rintro code message old new rfl
    exact ⟨rfl, rfl⟩

theorem postgres_writesStatus : PostgresBatchJobStore.marking.WritesStatus where
  succeeded := by
    rintro result usage old new ⟨metadata, rfl⟩
    exact ⟨rfl, rfl⟩
  failed := by
    rintro code message old new ⟨metadata, rfl⟩
    exact ⟨rfl, rfl⟩

/-- **The state machine of the jobs** is kept along a run of calls, in either store, exactly when the marks come in
order; Postgres is taken with its writes committed, which the source never does. -/
theorem obeysAlong_iff {memory : InMemoryBatchJobStore} {memorySteps : List (StatusCall × InMemoryBatchJobStore)}
    (hmemory : Run InMemoryBatchJobStore.store.Performs memory memorySteps) {db : Db} {dbSteps : List (StatusCall × Db)}
    (hdb : Run PostgresBatchJobStore.store.Performs db dbSteps) :
    (InMemoryBatchJobStore.store.ObeysAlong memory memorySteps ↔
      InMemoryBatchJobStore.store.InOrderAlong memory memorySteps) ∧
    (PostgresBatchJobStore.store.ObeysAlong db dbSteps ↔ PostgresBatchJobStore.store.InOrderAlong db dbSteps) := by
  constructor
  · exact hmemory.along_congr fun _ _ _ =>
      BatchJobStore.obeys_step InMemoryBatchJobStore.actsOnRecords memory_writesStatus
  · exact hdb.along_congr fun _ _ _ =>
      BatchJobStore.obeys_step PostgresBatchJobStore.actsOnRecords postgres_writesStatus

def queuedStore : InMemoryBatchJobStore :=
  (InMemoryBatchJobStore.empty.create ⟨"key", "user", "project", none⟩ [] "model" "hex").2

def queuedRow : BatchJob := createdRow "row" ⟨"key", "user", "project", none⟩ [] "model" 0 0

def queuedDb : Db := Function.update tenantDb .batchJobs ⟨[queuedRow], List.nodup_singleton _⟩

/-- A job that runs and succeeds, in either store. -/
theorem obeysAlong_succeeded :
    (∃ steps, steps.map Prod.fst = [.transition "job_hex" .running, .markSucceeded "job_hex" [] []] ∧
      InMemoryBatchJobStore.store.ObeysAlong queuedStore steps) ∧
    ∃ steps, steps.map Prod.fst = [.transition "row" .running] ∧
      PostgresBatchJobStore.store.ObeysAlong queuedDb steps := by
  have hmemory : Run InMemoryBatchJobStore.store.Performs queuedStore
      [(.transition "job_hex" .running, (queuedStore.transition "job_hex" .running).2),
        (.markSucceeded "job_hex" [] [],
          ((queuedStore.transition "job_hex" .running).2.markSucceeded "job_hex" [] []).2)] :=
    .cons ⟨_, rfl⟩ (.cons ⟨_, rfl⟩ (.nil _))
  have hdb : Run PostgresBatchJobStore.store.Performs queuedDb
      [(.transition "row" .running, Function.update queuedDb .batchJobs
        ((queuedDb .batchJobs).replace (BatchJobRepository.withStatus queuedRow .running 0)))] := by
    refine .cons ⟨some (recordFromModel (BatchJobRepository.withStatus queuedRow .running 0)), ?_⟩ (.nil _)
    exact ⟨.ok (some queuedRow), _, ⟨rfl, rfl⟩, .ok (0 : Int), _, rfl,
      .ok (BatchJobRepository.withStatus queuedRow .running 0), _, ⟨rfl, rfl⟩, rfl, rfl⟩
  obtain ⟨hstored, hcommitted⟩ := obeysAlong_iff hmemory hdb
  constructor
  · refine ⟨_, rfl, hstored.mpr ⟨trivial, ?_, trivial⟩⟩
    intro job hjob
    exact .inl (by cases hjob; rfl)
  · exact ⟨_, rfl, hcommitted.mpr ⟨trivial, trivial⟩⟩

/-- A queued job that is marked as succeeded has not been running, in either store. -/
theorem not_obeysAlong :
    (¬ ∀ s steps, Run InMemoryBatchJobStore.store.Performs s steps →
      InMemoryBatchJobStore.store.ObeysAlong s steps) ∧
    ¬ ∀ s steps, Run PostgresBatchJobStore.store.Performs s steps →
      PostgresBatchJobStore.store.ObeysAlong s steps := by
  refine ⟨?_, ?_⟩
  · intro h
    obtain ⟨hobeys, -⟩ := h queuedStore
      [(.markSucceeded "job_hex" [] [], (queuedStore.markSucceeded "job_hex" [] []).2)] (.cons ⟨_, rfl⟩ (.nil _))
    obtain ⟨new, hnew, hkeeps⟩ := hobeys "job_hex" _ rfl
    cases hnew
    exact absurd hkeeps.edge (by decide)
  · intro h
    let succeeded := BatchJobRepository.withSuccess queuedRow [] [] "now" 0
    obtain ⟨hobeys, -⟩ := h queuedDb [(.markSucceeded "row" [] [], Function.update queuedDb .batchJobs
      ((queuedDb .batchJobs).replace succeeded))] (.cons ⟨some (recordFromModel succeeded), .ok (some queuedRow), _,
        ⟨rfl, rfl⟩, .ok "now", _, rfl, .ok (0 : Int), _, rfl, .ok succeeded, _, ⟨rfl, rfl⟩, rfl, rfl⟩ (.nil _))
    obtain ⟨new, hnew, hkeeps⟩ := hobeys "row" _ rfl
    cases hnew
    exact absurd hkeeps.edge (by decide)

end GpuInference
