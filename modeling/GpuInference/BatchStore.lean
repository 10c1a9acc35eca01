import GpuInference.KeyedTable
import GpuInference.RequestLifecycle
import Mathlib.Logic.Function.Basic

/-!
Batch jobs and their stores. What the service and the worker rely on is a table of statuses: a job
is created queued, moves along the allowed transitions and is marked at its end. `JobTable` says so
for one call of a store; the in-memory store carries it out on records in insertion order.
-/

namespace GpuInference

/-- `BatchJobStatus`. -/
inductive JobStatus where
  | queued
  | running
  | succeeded
  | failed
  | cancelled
  deriving DecidableEq, Repr

/-- `ALLOWED_TRANSITIONS`. -/
def allowedTransitions : JobStatus → List JobStatus
  | .queued => [.running, .cancelled, .failed]
  | .running => [.succeeded, .failed, .cancelled]
  | .succeeded => []
  | .failed => []
  | .cancelled => []

/-- `can_transition`. -/
def canTransition (current target : JobStatus) : Bool := target ∈ allowedTransitions current

/-- `status in TERMINAL_STATUSES`. -/
def JobStatus.terminal : JobStatus → Bool
  | .queued => false
  | .running => false
  | .succeeded => true
  | .failed => true
  | .cancelled => true

/-- A terminal status allows no transition. -/
theorem canTransition_of_terminal {status : JobStatus} (h : status.terminal = true)
    (target : JobStatus) : canTransition status target = false := by
  cases status
  case queued => cases h
  case running => cases h
  all_goals rfl

/-- Every status that is not terminal may be cancelled. -/
theorem canTransition_cancelled {status : JobStatus} (h : status.terminal = false) :
    canTransition status .cancelled = true := by
  cases status
  case queued => rfl
  case running => rfl
  all_goals cases h

theorem canTransition_running {status : JobStatus} :
    canTransition status .running = true ↔ status = .queued := by
  cases status <;> decide

structure BatchJobRecord where
  id : String
  userId : String
  projectId : String
  apiKeyId : String
  model : String
  status : JobStatus
  inputPayload : JsonObject
  resultPayload : Option JsonObject
  errorCode : Option String
  errorMessage : Option String
  requestCount : Int
  completedCount : Int
  failedCount : Int
  metadata : JsonObject
  deriving DecidableEq

/-- `usage_dict`. -/
def usageDict (promptTokens completionTokens totalTokens : Int) : JsonObject :=
  [("prompt_tokens", .int promptTokens), ("completion_tokens", .int completionTokens),
    ("total_tokens", .int totalTokens)]

/-- `chat_request_from_batch`. -/
def chatRequestFromBatch (lax : LaxCoercions) (job : BatchJobRecord) :
    Except PyExc ChatCompletionRequest :=
  ChatCompletionRequest.modelValidate lax job.inputPayload

/-- `items[:limit]`: a negative limit counts from the end. -/
def sliceTo {α : Type} (items : List α) (limit : Int) : List α :=
  if 0 ≤ limit then items.take limit.toNat else items.take (items.length - (-limit).toNat)

/-- The statuses of the jobs a store holds. -/
abbrev JobTable := String → Option JobStatus

namespace JobTable

def set (table : JobTable) (jobId : String) (status : JobStatus) : JobTable :=
  Function.update table jobId (some status)

@[simp] theorem set_self (table : JobTable) (jobId : String) (status : JobStatus) :
    table.set jobId status jobId = some status := by simp [set]

theorem set_other (table : JobTable) {jobId other : String} (h : other ≠ jobId) (status : JobStatus) :
    table.set jobId status other = table other := by simp [set, h]

/-- `get` shows the status of the record it returns. -/
def Shows (table : JobTable) (jobId : String) (record : Option BatchJobRecord) : Prop :=
  record.map BatchJobRecord.status = table jobId ∧ ∀ r ∈ record, r.id = jobId

/-- `create` enters a new job as queued. -/
def Creates (table : JobTable) (record : BatchJobRecord) (table' : JobTable) : Prop :=
  table record.id = none ∧ record.status = .queued ∧ table' = table.set record.id .queued

/-- `transition` moves the job when the transition is allowed and returns `None` otherwise. -/
def Moves (table : JobTable) (jobId : String) (target : JobStatus) (record : Option BatchJobRecord)
    (table' : JobTable) : Prop :=
  match record with
  | none => table' = table ∧ ∀ status ∈ table jobId, canTransition status target = false
  | some r => (∃ status, table jobId = some status ∧ canTransition status target = true) ∧
      r.id = jobId ∧ r.status = target ∧ table' = table.set jobId target

/-- `mark_succeeded` and `mark_failed` settle every job but a cancelled one. -/
def Marks (table : JobTable) (jobId : String) (target : JobStatus) (record : Option BatchJobRecord)
    (table' : JobTable) : Prop :=
  match record with
  | none => table' = table ∧ ∀ status ∈ table jobId, status = .cancelled
  | some r => (∃ status, table jobId = some status ∧ status ≠ .cancelled) ∧
      r.id = jobId ∧ r.status = target ∧ table' = table.set jobId target

end JobTable

/-- A store: its calls, and the table of statuses that they read and write. A call that depends on
the clock or on a fresh identifier may answer in several ways. -/
structure BatchJobStore (S : Type) where
  table : S → JobTable
  create : AuthContext → JsonObject → String → S → BatchJobRecord → S → Prop
  get : String → S → Option BatchJobRecord
  transition : String → JobStatus → S → Option BatchJobRecord → S → Prop
  markSucceeded : String → JsonObject → JsonObject → S → Option BatchJobRecord → S → Prop
  markFailed : String → Option String → String → S → Option BatchJobRecord → S → Prop
  listRecoverable : Int → S → Except PyExc (List BatchJobRecord)
  get_shows : ∀ jobId s, (table s).Shows jobId (get jobId s)
  create_spec : ∀ auth payload model s record s', create auth payload model s record s' →
    (table s).Creates record (table s')
  transition_spec : ∀ jobId target s record s', transition jobId target s record s' →
    (table s).Moves jobId target record (table s')
  markSucceeded_spec : ∀ jobId result usage s record s', markSucceeded jobId result usage s record s' →
    (table s).Marks jobId .succeeded record (table s')
  markFailed_spec : ∀ jobId code message s record s', markFailed jobId code message s record s' →
    (table s).Marks jobId .failed record (table s')
  recoverable_spec : ∀ s, ∃ bound : Int, ∀ limit ≥ bound, ∃ jobs, listRecoverable limit s = .ok jobs ∧
    ∀ jobId, table s jobId = some .queued → ∃ record ∈ jobs, record.id = jobId

/-- `InMemoryBatchJobStore`: its dictionary, every job under its own id. -/
structure InMemoryBatchJobStore where
  jobs : KeyedTable BatchJobRecord BatchJobRecord.id

namespace InMemoryBatchJobStore

def empty : InMemoryBatchJobStore := ⟨.empty⟩

def get (self : InMemoryBatchJobStore) (jobId : String) : Option BatchJobRecord := self.jobs.find jobId

/-- `create`, with the hexadecimal digits that `uuid4` draws. -/
def create (self : InMemoryBatchJobStore) (authContext : AuthContext) (payload : JsonObject)
    (model hex : String) : BatchJobRecord × InMemoryBatchJobStore :=
  let job : BatchJobRecord := {
    id := "job_" ++ hex
    userId := authContext.userId
    projectId := authContext.projectId
    apiKeyId := authContext.apiKeyId
    model := model
    status := .queued
    inputPayload := payload
    resultPayload := none
    errorCode := none
    errorMessage := none
    requestCount := 1
    completedCount := 0
    failedCount := 0
    metadata := [] }
  (job, ⟨self.jobs.insert job⟩)

def transition (self : InMemoryBatchJobStore) (jobId : String) (target : JobStatus) :
    Option BatchJobRecord × InMemoryBatchJobStore :=
  match self.get jobId with
  | none => (none, self)
  | some job =>
      if canTransition job.status target then
        let job := { job with status := target }
        (some job, ⟨self.jobs.replace job⟩)
      else (none, self)

def markSucceeded (self : InMemoryBatchJobStore) (jobId : String) (result usage : JsonObject) :
    Option BatchJobRecord × InMemoryBatchJobStore :=
  match self.get jobId with
  | none => (none, self)
  | some job =>
      if job.status = .cancelled then (none, self)
      else
        let job := { job with
          status := .succeeded
          resultPayload := some result
          completedCount := 1
          failedCount := 0
          metadata := JsonObject.set job.metadata "usage" (.obj usage) }
        (some job, ⟨self.jobs.replace job⟩)

def markFailed (self : InMemoryBatchJobStore) (jobId : String) (errorCode : Option String)
    (errorMessage : String) : Option BatchJobRecord × InMemoryBatchJobStore :=
  match self.get jobId with
  | none => (none, self)
  | some job =>
      if job.status = .cancelled then (none, self)
      else
        let job := { job with
          status := .failed
          errorCode := errorCode
          errorMessage := some errorMessage
          failedCount := 1 }
        (some job, ⟨self.jobs.replace job⟩)

def listRecoverable (self : InMemoryBatchJobStore) (limit : Int) : List BatchJobRecord :=
  sliceTo (self.jobs.rows.filter fun job => job.status = .queued) limit

def table (self : InMemoryBatchJobStore) : JobTable := fun jobId =>
  (self.get jobId).map BatchJobRecord.status

theorem id_of_get {self : InMemoryBatchJobStore} {jobId : String} {job : BatchJobRecord}
    (h : self.get jobId = some job) : job.id = jobId := KeyedTable.key_of_find h

/-- Changing the record of a job that is there moves this job and no other. -/
theorem table_replace {self : InMemoryBatchJobStore} {jobId : String} {old job : BatchJobRecord}
    (hold : self.get jobId = some old) (hid : job.id = jobId) :
    (⟨self.jobs.replace job⟩ : InMemoryBatchJobStore).table = self.table.set jobId job.status := by
  funext other
  have hfound : self.jobs.find job.id = some old := hid ▸ hold
  rw [table, get, KeyedTable.find_replace hfound, hid]
  by_cases hother : other = jobId
  · rw [if_pos hother, hother, JobTable.set_self]
    rfl
  · rw [if_neg hother, JobTable.set_other _ hother]
    rfl

theorem table_insert {self : InMemoryBatchJobStore} {job : BatchJobRecord}
    (hfresh : self.get job.id = none) :
    (⟨self.jobs.insert job⟩ : InMemoryBatchJobStore).table = self.table.set job.id job.status := by
  funext other
  rw [table, get, KeyedTable.find_insert hfresh]
  by_cases hother : other = job.id
  · rw [if_pos hother, hother, JobTable.set_self]
    rfl
  · rw [if_neg hother, JobTable.set_other _ hother]
    rfl

theorem transition_moves (self : InMemoryBatchJobStore) (jobId : String) (target : JobStatus) :
    self.table.Moves jobId target (self.transition jobId target).1
      (self.transition jobId target).2.table := by
  unfold transition
  cases hget : self.get jobId with
  | none => exact ⟨rfl, by simp [table, hget]⟩
  | some job =>
      by_cases hcan : canTransition job.status target = true
      · simp only [if_pos hcan]
        have hid := id_of_get hget
        exact ⟨⟨job.status, by simp [table, hget], hcan⟩, hid, rfl, table_replace hget hid⟩
      · simp only [if_neg hcan]
        exact ⟨rfl, by simpa [table, hget] using hcan⟩

/-- Both marks: a record that is there and not cancelled is changed to `job`. -/
theorem marks_replace {self : InMemoryBatchJobStore} {jobId : String} {old job : BatchJobRecord}
    {target : JobStatus} (hget : self.get jobId = some old) (hlive : old.status ≠ .cancelled)
    (hid : job.id = old.id) (hstatus : job.status = target) :
    self.table.Marks jobId target (some job)
      (⟨self.jobs.replace job⟩ : InMemoryBatchJobStore).table := by
  have hjob : job.id = jobId := hid.trans (id_of_get hget)
  refine ⟨⟨old.status, by simp [table, hget], hlive⟩, hjob, hstatus, ?_⟩
  rw [← hstatus]
  exact table_replace hget hjob

theorem marks_none {self : InMemoryBatchJobStore} {jobId : String} (target : JobStatus)
    (h : ∀ job ∈ self.get jobId, job.status = .cancelled) :
    self.table.Marks jobId target none self.table := by
  refine ⟨rfl, ?_⟩
  intro status hstatus
  obtain ⟨job, hjob, rfl⟩ := Option.map_eq_some_iff.mp hstatus
  exact h job hjob

theorem markSucceeded_marks (self : InMemoryBatchJobStore) (jobId : String) (result usage : JsonObject) :
    self.table.Marks jobId .succeeded (self.markSucceeded jobId result usage).1
      (self.markSucceeded jobId result usage).2.table := by
  unfold markSucceeded
  cases hget : self.get jobId with
  | none => exact marks_none _ (by simp [hget])
  | some job =>
      by_cases hcancelled : job.status = .cancelled
      · simp only [if_pos hcancelled]
        exact marks_none _ (by simp [hget, hcancelled])
      · simp only [if_neg hcancelled]
        exact marks_replace hget hcancelled rfl rfl

theorem markFailed_marks (self : InMemoryBatchJobStore) (jobId : String) (errorCode : Option String)
    (errorMessage : String) :
    self.table.Marks jobId .failed (self.markFailed jobId errorCode errorMessage).1
      (self.markFailed jobId errorCode errorMessage).2.table := by
  unfold markFailed
  cases hget : self.get jobId with
  | none => exact marks_none _ (by simp [hget])
  | some job =>
      by_cases hcancelled : job.status = .cancelled
      · simp only [if_pos hcancelled]
        exact marks_none _ (by simp [hget, hcancelled])
      · simp only [if_neg hcancelled]
        exact marks_replace hget hcancelled rfl rfl

/-- A limit that covers every queued job lists every queued job. -/
theorem listRecoverable_queued {self : InMemoryBatchJobStore} {limit : Int}
    (hlimit : self.jobs.rows.length ≤ limit) {jobId : String} (hqueued : self.table jobId = some .queued) :
    ∃ record ∈ self.listRecoverable limit, record.id = jobId := by
  obtain ⟨job, hjob, hstatus⟩ := Option.map_eq_some_iff.mp hqueued
  refine ⟨job, ?_, id_of_get hjob⟩
  have hcount := List.length_filter_le (fun job : BatchJobRecord => job.status = .queued)
    self.jobs.rows
  have hall : (self.jobs.rows.filter fun job => job.status = .queued).length ≤ limit.toNat := by omega
  rw [listRecoverable, sliceTo, if_pos (by omega), List.take_of_length_le hall]
  exact List.mem_filter.mpr ⟨KeyedTable.mem_of_find hjob, by simpa using hstatus⟩

/-- Only queued jobs are listed. -/
theorem queued_of_listRecoverable {self : InMemoryBatchJobStore} {limit : Int} {record : BatchJobRecord}
    (h : record ∈ self.listRecoverable limit) : self.table record.id = some .queued := by
  unfold listRecoverable sliceTo at h
  have hjob : record ∈ self.jobs.rows.filter fun job => job.status = .queued := by
    split at h
    · exact List.mem_of_mem_take h
    · exact List.mem_of_mem_take h
  obtain ⟨hmem, hqueued⟩ := List.mem_filter.mp hjob
  have hget : self.get record.id = some record := KeyedTable.find_of_mem hmem
  rw [table, hget]
  exact congrArg some (of_decide_eq_true hqueued)

/-- The in-memory store keeps the table of statuses, for fresh identifiers. -/
def store : BatchJobStore InMemoryBatchJobStore where
  table := table
  create authContext payload model self job self' := ∃ hex,
    self.get ("job_" ++ hex) = none ∧ (job, self') = self.create authContext payload model hex
  get jobId self := self.get jobId
  transition jobId target self job self' := (job, self') = self.transition jobId target
  markSucceeded jobId result usage self job self' := (job, self') = self.markSucceeded jobId result usage
  markFailed jobId code message self job self' := (job, self') = self.markFailed jobId code message
  listRecoverable limit self := .ok (self.listRecoverable limit)
  get_shows jobId self := ⟨rfl, fun _ h => id_of_get h⟩
  create_spec := by
    rintro authContext payload model self job self' ⟨hex, hfresh, hcreate⟩
    obtain ⟨rfl, rfl⟩ := Prod.mk.inj hcreate
    exact ⟨by simp [table, hfresh], rfl, table_insert hfresh⟩
  transition_spec := by
    intro jobId target self job self' h
    obtain ⟨rfl, rfl⟩ := Prod.mk.inj h
    exact self.transition_moves jobId target
  markSucceeded_spec := by
    intro jobId result usage self job self' h
    obtain ⟨rfl, rfl⟩ := Prod.mk.inj h
    exact self.markSucceeded_marks jobId result usage
  markFailed_spec := by
    intro jobId code message self job self' h
    obtain ⟨rfl, rfl⟩ := Prod.mk.inj h
    exact self.markFailed_marks jobId code message
  recoverable_spec self := ⟨self.jobs.rows.length, fun _ hlimit =>
    ⟨_, rfl, fun _ hqueued => listRecoverable_queued hlimit hqueued⟩⟩

end InMemoryBatchJobStore

end GpuInference
