import GpuInference.PostgresStore

/-!
Stores as tables of records. What a call does to the records that a store shows is said once for both
stores: a job is created under a fresh id, and every other call writes the record of one job or returns
`None`. The stores differ in what a mark writes.
-/

open Effect

namespace GpuInference

/-- The record of a new job. -/
def createdRecord (id : String) (authContext : AuthContext) (payload : JsonObject) (model : String)
    (metadata : JsonObject) : BatchJobRecord where
  id := id
  userId := authContext.userId
  projectId := authContext.projectId
  apiKeyId := authContext.apiKeyId
  model := model
  status := .queued
  inputPayload := payload
  resultPayload := none
  errorCode := none
  errorMessage := none
  requestCount := 1
  completedCount := 0
  failedCount := 0
  metadata := metadata

namespace BatchJobStore

variable {S : Type}

/-- A call that writes the record of a job whose status passes `guard`, and returns `None` otherwise. -/
def Rewrites (store : BatchJobStore S) (jobId : String) (guard : JobStatus → Bool)
    (write : BatchJobRecord → BatchJobRecord → Prop) (s : S) (record : Option BatchJobRecord) (s' : S) :
    Prop :=
  (record = none ∧ (∀ job ∈ store.get jobId s, guard job.status = false) ∧
    ∀ other, store.get other s' = store.get other s) ∨
  ∃ old new, store.get jobId s = some old ∧ guard old.status = true ∧ write old new ∧ record = some new ∧
    ∀ other, store.get other s' = if other = jobId then some new else store.get other s

/-- What a store keeps of a new job and of the code of its error, and what its two marks write. -/
structure Marking where
  caller : AuthContext → AuthContext
  model : String → String
  code : Option String → Option String
  succeeded : JsonObject → JsonObject → BatchJobRecord → BatchJobRecord → Prop
  failed : Option String → String → BatchJobRecord → BatchJobRecord → Prop

/-- A mark leaves a cancelled job alone. -/
def markable (status : JobStatus) : Bool := status ≠ .cancelled

/-- The calls of a store, on its records. -/
structure ActsOnRecords (store : BatchJobStore S) (marking : Marking) : Prop where
  create : ∀ authContext payload model s job s', store.create authContext payload model s job s' →
    store.get job.id s = none ∧ (∃ metadata, job =
      createdRecord job.id (marking.caller authContext) payload (marking.model model) metadata) ∧
      ∀ other, store.get other s' = if other = job.id then some job else store.get other s
  transition : ∀ jobId target s record s', store.transition jobId target s record s' →
    store.Rewrites jobId (canTransition · target) (fun old new => new = { old with status := target })
      s record s'
  markSucceeded : ∀ jobId result usage s record s', store.markSucceeded jobId result usage s record s' →
    store.Rewrites jobId markable (marking.succeeded result usage) s record s'
  markFailed : ∀ jobId code message s record s', store.markFailed jobId code message s record s' →
    store.Rewrites jobId markable (marking.failed code message) s record s'

end BatchJobStore

namespace InMemoryBatchJobStore

/-- The marks write a field each; the error of a job stays when it succeeds. -/
def marking : BatchJobStore.Marking where
  caller := id
  model := id
  code := id
  succeeded result usage old new := new =
    { old with
      status := .succeeded
      resultPayload := some result
      completedCount := 1
      failedCount := 0
      metadata := JsonObject.set old.metadata "usage" (.obj usage) }
  failed code message old new := new =
    { old with
      status := .failed
      errorCode := code
      errorMessage := some message
      failedCount := 1 }

theorem get_replace {self : InMemoryBatchJobStore} {jobId : String} {old job : BatchJobRecord}
    (hold : self.get jobId = some old) (hid : job.id = jobId) (other : String) :
    (⟨self.jobs.replace job⟩ : InMemoryBatchJobStore).get other =
      if other = jobId then some job else self.get other := by
  have hfound : self.jobs.find job.id = some old := hid ▸ hold
  rw [get, KeyedTable.find_replace hfound, hid]
  rfl

/-- A call that looks the job up and replaces its record. -/
theorem rewrites {self self' : InMemoryBatchJobStore} {jobId : String} {record : Option BatchJobRecord}
    {guard : JobStatus → Bool} {change : BatchJobRecord → BatchJobRecord}
    {write : BatchJobRecord → BatchJobRecord → Prop} (hwrite : ∀ job, write job (change job))
    (hid : ∀ job, (change job).id = job.id)
    (h : (record, self') = match self.get jobId with
      | none => (none, self)
      | some job => if guard job.status = true then (some (change job), ⟨self.jobs.replace (change job)⟩)
          else (none, self)) : store.Rewrites jobId guard write self record self' := by
  cases hget : self.get jobId with
  | none =>
      rw [hget] at h
      obtain ⟨rfl, rfl⟩ := Prod.mk.inj h
      refine .inl ⟨rfl, ?_, fun _ => rfl⟩
      intro job hjob
      exact absurd (hget.symm.trans hjob) nofun
  | some job =>
      rw [hget] at h
      simp only at h
      by_cases hguard : guard job.status = true
      · rw [if_pos hguard] at h
        obtain ⟨rfl, rfl⟩ := Prod.mk.inj h
        exact .inr ⟨job, change job, hget, hguard, hwrite job, rfl, get_replace hget ((hid job).trans (id_of_get hget))⟩
      · rw [if_neg hguard] at h
        obtain ⟨rfl, rfl⟩ := Prod.mk.inj h
        refine .inl ⟨rfl, ?_, fun _ => rfl⟩
        intro other hother
        obtain rfl := Option.some.inj (hget.symm.trans hother)
        simpa using hguard

/-- The marks ask whether the job is cancelled. -/
theorem rewrites_mark {self self' : InMemoryBatchJobStore} {jobId : String}
    {record : Option BatchJobRecord} {change : BatchJobRecord → BatchJobRecord}
    {write : BatchJobRecord → BatchJobRecord → Prop} (hwrite : ∀ job, write job (change job))
    (hid : ∀ job, (change job).id = job.id)
    (h : (record, self') = match self.get jobId with
      | none => (none, self)
      | some job => if job.status = .cancelled then (none, self)
          else (some (change job), ⟨self.jobs.replace (change job)⟩)) :
    store.Rewrites jobId BatchJobStore.markable write self record self' := by
  refine rewrites hwrite hid (h.trans ?_)
  cases self.get jobId with
  | none => rfl
  | some job =>
      by_cases hcancelled : job.status = .cancelled
      · simp [BatchJobStore.markable, hcancelled]
      · simp [BatchJobStore.markable, hcancelled]

theorem actsOnRecords : store.ActsOnRecords marking where
  create := by
    rintro authContext payload model self job self' ⟨hex, hfresh, hcreate⟩
    obtain ⟨rfl, rfl⟩ := Prod.mk.inj hcreate
    refine ⟨hfresh, ⟨[], rfl⟩, ?_⟩
    intro other
    have hfound : self.jobs.find (self.create authContext payload model hex).1.id = none := hfresh
    show (self.jobs.insert (self.create authContext payload model hex).1).find other = _
    rw [KeyedTable.find_insert hfound]
    rfl
  transition _ _ _ _ _ h := rewrites (fun _ => rfl) (fun _ => rfl) h
  markSucceeded _ _ _ _ _ _ h := rewrites_mark (fun _ => rfl) (fun _ => rfl) h
  markFailed _ _ _ _ _ _ h := rewrites_mark (fun _ => rfl) (fun _ => rfl) h

end InMemoryBatchJobStore

namespace PostgresBatchJobStore

/-- The columns may cut texts. The marks write the metadata of the row too; a success clears the error, and a
message is cut to the length of its column. -/
def marking : BatchJobStore.Marking where
  caller := keptCaller
  model := keptModel
  code := keptCode none
  succeeded result _ old new := ∃ metadata, new =
    { old with
      status := .succeeded
      resultPayload := some result
      completedCount := 1
      failedCount := 0
      errorCode := none
      errorMessage := none
      metadata := metadata }
  failed code message old new := ∃ metadata, new =
    { old with
      status := .failed
      errorCode := keptCode old.errorCode code
      errorMessage := some (String.ofList (message.toList.take 1024))
      failedCount := 1
      metadata := metadata }

theorem get_set_other {fields : JsonObject} {name key : String} (h : name ≠ key) (value : Json) :
    JsonObject.get (JsonObject.set fields name value) key = JsonObject.get fields key := by
  rw [JsonObject.get_set, if_neg h]

theorem record_withSuccess (job : BatchJob) (result usage : JsonObject) (completedAt : String)
    (updatedAt : DateTime) : (marking.succeeded result usage) (recordFromModel job)
      (recordFromModel (BatchJobRepository.withSuccess job result usage completedAt updatedAt)) := by
  refine ⟨(recordFromModel (BatchJobRepository.withSuccess job result usage completedAt updatedAt)).metadata,
    ?_⟩
  simp only [recordFromModel, BatchJobRepository.withSuccess, Option.getD_some]
  rw [get_set_other (by decide), get_set_other (by decide), get_set_other (by decide),
    get_set_other (by decide), get_set_other (by decide), JsonObject.get_set, if_pos rfl]

theorem record_withFailure (job : BatchJob) (errorCode : Option String) (errorMessage completedAt : String)
    (updatedAt : DateTime) : (marking.failed errorCode errorMessage) (recordFromModel job) (recordFromModel
      (BatchJobRepository.withFailure job (keptCode job.errorCode errorCode) errorMessage completedAt updatedAt)) := by
  let row := BatchJobRepository.withFailure job (keptCode job.errorCode errorCode) errorMessage completedAt updatedAt
  refine ⟨(recordFromModel row).metadata, ?_⟩
  simp only [row, recordFromModel, BatchJobRepository.withFailure, Option.getD_some]
  rw [get_set_other (by decide), get_set_other (by decide)]

/-- A call that reads the row of a job and flushes it changed, seen on the records. -/
theorem rewrites (Changed : BatchJob → BatchJob → Prop) {db db' : Db} {jobId : String}
    {record : Option BatchJobRecord} {guard : JobStatus → Bool} {write : BatchJobRecord → BatchJobRecord → Prop}
    (hwrite : ∀ job changed, Changed job changed → write (recordFromModel job) (recordFromModel changed))
    (h : (record = none ∧ db' = db ∧ ∀ job ∈ (db .batchJobs).find jobId, guard job.status = false) ∨
      ∃ job changed, (db .batchJobs).find jobId = some job ∧ guard job.status = true ∧
        Changed job changed ∧ record = some (recordFromModel changed) ∧
        ∀ other, (db' .batchJobs).find other =
          if other = jobId then some changed else (db .batchJobs).find other) :
    store.Rewrites jobId guard write db record db' := by
  rcases h with ⟨rfl, rfl, hrefused⟩ | ⟨job, changed, hfind, hguard, hchanged, rfl, hafter⟩
  · refine .inl ⟨rfl, ?_, fun _ => rfl⟩
    intro shown hshown
    obtain ⟨job, hjob, rfl⟩ := Option.map_eq_some_iff.mp hshown
    exact hrefused job hjob
  · refine .inr ⟨recordFromModel job, recordFromModel changed, ?_, hguard, hwrite job changed hchanged,
      rfl, ?_⟩
    · exact congrArg (Option.map recordFromModel) hfind
    · intro other
      show ((db' .batchJobs).find other).map recordFromModel = _
      rw [hafter]
      split
      · rfl
      · rfl

theorem actsOnRecords : store.ActsOnRecords marking where
  create authContext payload model db job db' h := by
    obtain ⟨id, createdAt, updatedAt, rfl, hfresh, hafter⟩ := yields_createBody h
    refine ⟨congrArg (Option.map recordFromModel) hfresh, ⟨[("input_payload", .obj payload)], rfl⟩, ?_⟩
    intro other
    show ((db' .batchJobs).find other).map recordFromModel = _
    rw [hafter]
    by_cases hother : other = id
    · rw [if_pos hother]
      exact (if_pos hother).symm
    · rw [if_neg hother]
      exact (if_neg hother).symm
  transition jobId target db record db' h := by
    refine rewrites (fun job changed => ∃ updatedAt,
      changed = BatchJobRepository.withStatus job target updatedAt) ?_ ?_
    · rintro job changed ⟨updatedAt, rfl⟩
      rfl
    · rcases yields_transitionBody h with hnone | ⟨job, updatedAt, hfind, hcan, hrecord, hafter⟩
      · exact .inl hnone
      · exact .inr ⟨job, _, hfind, hcan, ⟨updatedAt, rfl⟩, hrecord, hafter⟩
  markSucceeded jobId result usage db record db' h := by
    refine rewrites (fun job changed => ∃ completedAt updatedAt,
      changed = BatchJobRepository.withSuccess job result usage completedAt updatedAt) ?_ ?_
    · rintro job changed ⟨completedAt, updatedAt, rfl⟩
      exact record_withSuccess job result usage completedAt updatedAt
    · simpa [BatchJobStore.markable] using yields_markSucceededBody h
  markFailed jobId code message db record db' h := by
    refine rewrites (fun job changed => ∃ completedAt updatedAt, changed =
      BatchJobRepository.withFailure job (keptCode job.errorCode code) message completedAt updatedAt) ?_ ?_
    · rintro job changed ⟨completedAt, updatedAt, rfl⟩
      exact record_withFailure job code message completedAt updatedAt
    · simpa [BatchJobStore.markable] using yields_markFailedBody h

end PostgresBatchJobStore

end GpuInference
