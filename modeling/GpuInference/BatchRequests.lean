import GpuInference.BatchRecords
import GpuInference.BatchRoutes
import GpuInference.PostgresRefusals

/-!
Requests for batch jobs, from the middleware to the store. The two job routes read and cancel the job
that the path names; what a request is answered and what it leaves depends on this job only, for
every store that keeps its jobs as rows.
-/

open Effect

namespace GpuInference

/-- The calls of a request against a store whose calls do not fail. -/
def apiExec {S : Type} (auth : String → Except PyExc AuthContext) (store : BatchJobStore S) :
    Exec ApiOp ApiOp.Res PyExc S := fun op s answer s' =>
  match op, answer with
  | .authenticate rawKey, answer => answer = auth rawKey ∧ s' = s
  | .batch op, .ok value => store.Replies ⟨s, []⟩ op value s'
  | .batch _, .error _ => False

/-- The record that `transition` returns for the record it finds. -/
def moved (target : JobStatus) (found : Option BatchJobRecord) : Option BatchJobRecord :=
  found.bind fun job => if canTransition job.status target then some { job with status := target } else none

/-- What a transition of a store replies and shows afterwards, for any store that acts on records. -/
theorem BatchJobStore.ActsOnRecords.transition_reply {S : Type} {store : BatchJobStore S}
    {marking : BatchJobStore.Marking} (h : store.ActsOnRecords marking) {jobId : String} {target : JobStatus}
    {s s' : S} {record : Option BatchJobRecord} (htransition : store.transition jobId target s record s') :
    record = moved target (store.get jobId s) ∧ store.get jobId s' = record.or (store.get jobId s) ∧
      ∀ other ≠ jobId, store.get other s' = store.get other s := by
  rcases h.transition _ _ _ _ _ htransition with
    ⟨rfl, hrefused, hsame⟩ | ⟨old, new, hold, hcan, rfl, rfl, hafter⟩
  · refine ⟨?_, hsame jobId, fun other _ => hsame other⟩
    cases hget : store.get jobId s with
    | none => rfl
    | some job => rw [moved, Option.bind_some, if_neg (by simpa using hrefused job hget)]
  · refine ⟨?_, ?_, ?_⟩
    · rw [hold, moved, Option.bind_some, if_pos hcan]
    · rw [hafter, if_pos rfl, Option.some_or]
    · intro other hother
      rw [hafter, if_neg hother]

/-- The rows behind the records of a store: a transition reaches one row only, and rows may be there
or not. -/
structure JobRows {S : Type} (store : BatchJobStore S) (Row : Type) where
  row : String → S → Option Row
  record : Row → BatchJobRecord
  get_eq : ∀ jobId s, store.get jobId s = (row jobId s).map record
  transition_total : ∀ jobId target s, ∃ job s', store.transition jobId target s job s'
  transition_reply : ∀ jobId target s job s', store.transition jobId target s job s' →
    job = moved target (store.get jobId s) ∧ store.get jobId s' = job.or (store.get jobId s)
  transition_frame : ∀ jobId target s job s', store.transition jobId target s job s' →
    ∀ other ≠ jobId, row other s' = row other s
  drop : ∀ jobId s, ∃ s', row jobId s' = none ∧ ∀ other ≠ jobId, row other s' = row other s
  plant : ∀ jobId projectId s, row jobId s = none → ∃ s',
    (∃ planted, row jobId s' = some planted ∧ (record planted).projectId = projectId) ∧
      ∀ other ≠ jobId, row other s' = row other s

namespace InMemoryBatchJobStore

/-- A queued job of a project. -/
def plantedJob (jobId projectId : String) : BatchJobRecord where
  id := jobId
  userId := ""
  projectId := projectId
  apiKeyId := ""
  model := ""
  status := .queued
  inputPayload := []
  resultPayload := none
  errorCode := none
  errorMessage := none
  requestCount := 1
  completedCount := 0
  failedCount := 0
  metadata := []

def rows : JobRows store BatchJobRecord where
  row jobId self := self.get jobId
  record job := job
  get_eq _ _ := Option.map_id'.symm
  transition_total jobId target self := ⟨_, _, rfl⟩
  transition_reply _ _ _ _ _ h := ⟨(actsOnRecords.transition_reply h).1, (actsOnRecords.transition_reply h).2.1⟩
  transition_frame _ _ _ _ _ h := (actsOnRecords.transition_reply h).2.2
  drop jobId self := by
    refine ⟨⟨self.jobs.erase jobId⟩, ?_, ?_⟩
    · rw [get, KeyedTable.find_erase, if_pos rfl]
    · intro other hother
      rw [get, KeyedTable.find_erase, if_neg hother]
      rfl
  plant jobId projectId self hnone := by
    let job := plantedJob jobId projectId
    have hfresh : self.jobs.find job.id = none := hnone
    have hfind := KeyedTable.find_insert hfresh
    refine ⟨⟨self.jobs.insert job⟩, ⟨job, ?_, rfl⟩, ?_⟩
    · rw [get, hfind]
      exact if_pos rfl
    · intro other hother
      rw [get, hfind]
      exact if_neg hother

end InMemoryBatchJobStore

namespace PostgresBatchJobStore

/-- A row of a queued job of a project. -/
def plantedRow (jobId projectId : String) : BatchJob where
  id := jobId
  userId := ""
  projectId := projectId
  apiKeyId := ""
  model := ""
  status := .queued
  errorCode := none
  errorMessage := none
  requestCount := 1
  completedCount := 0
  failedCount := 0
  metadataJson := none
  createdAt := 0
  updatedAt := 0

/-- A transition can always be carried out. -/
theorem transition_total (jobId : String) (target : JobStatus) (db : Db) :
    ∃ job db', (transitionBody jobId target).Yields pgExec db (.ok job) db' := by
  have hget : pgExec (.get .batchJobs jobId) db (.ok ((db .batchJobs).find jobId)) db := ⟨rfl, rfl⟩
  cases hfind : (db .batchJobs).find jobId with
  | none =>
      refine ⟨none, db, yields_dbCall_bind.mpr ⟨none, db, hfind ▸ hget, ?_⟩⟩
      exact ⟨rfl, rfl⟩
  | some job =>
      rw [hfind] at hget
      by_cases hcan : canTransition job.status target = true
      · have hstored : (db .batchJobs).find (DbTable.key .batchJobs job) = some job :=
          KeyedTable.find_of_mem (KeyedTable.mem_of_find hfind)
        let row : BatchJob := BatchJobRepository.withStatus job target 0
        let written : BatchJob := DbTable.flush .batchJobs job row job
        let db' : Db := Function.update db .batchJobs ((db .batchJobs).replace written)
        have hflush : pgExec (.flush .batchJobs job row) db (.ok written) db' :=
          pgExec_of_up (up_flush_taken hstored (accepts_withStatus job target 0))
        refine ⟨some (recordFromModel written), db',
          yields_dbCall_bind.mpr ⟨some job, db, hget, ?_⟩⟩
        simp only
        rw [if_pos hcan]
        exact ⟨.ok (0 : Int), db, rfl, .ok written, db', hflush, rfl, rfl⟩
      · refine ⟨none, db, yields_dbCall_bind.mpr ⟨some job, db, hget, ?_⟩⟩
        simp only
        rw [if_neg hcan]
        exact ⟨rfl, rfl⟩

/-- A transition leaves the rows of the other jobs as they are. -/
theorem transition_frame {jobId : String} {target : JobStatus} {db db' : Db} {record : Option BatchJobRecord}
    (h : (transitionBody jobId target).Yields pgExec db (.ok record) db') :
    ∀ other ≠ jobId, (db' .batchJobs).find other = (db .batchJobs).find other := by
  intro other hother
  rcases yields_transitionBody h with ⟨-, rfl, -⟩ | ⟨job, updatedAt, -, -, -, hafter⟩
  · rfl
  · rw [hafter, if_neg hother]

def rows : JobRows store BatchJob where
  row jobId db := (db .batchJobs).find jobId
  record := recordFromModel
  get_eq _ _ := rfl
  transition_total := transition_total
  transition_reply _ _ _ _ _ h := ⟨(actsOnRecords.transition_reply h).1, (actsOnRecords.transition_reply h).2.1⟩
  transition_frame _ _ _ _ _ h := transition_frame h
  drop jobId db := by
    refine ⟨Function.update db .batchJobs ((db .batchJobs).erase jobId), ?_, ?_⟩
    · rw [Function.update_self, KeyedTable.find_erase, if_pos rfl]
    · intro other hother
      rw [Function.update_self, KeyedTable.find_erase, if_neg hother]
  plant jobId projectId db hnone := by
    let job : BatchJob := plantedRow jobId projectId
    have hfresh : (db .batchJobs).find (DbTable.key .batchJobs job) = none := hnone
    have hfind := KeyedTable.find_insert hfresh
    refine ⟨Function.update db .batchJobs ((db .batchJobs).insert job), ⟨job, ?_, rfl⟩, ?_⟩
    · rw [Function.update_self, hfind]
      exact if_pos rfl
    · intro other hother
      rw [Function.update_self, hfind]
      exact if_neg hother

end PostgresBatchJobStore

/-- A request for one job, with a key that the auth service accepts for the project. -/
structure JobRequest (auth : String → Except PyExc AuthContext) (projectId : String) where
  cancel : Bool
  jobId : String
  authorization : String
  requestId : String
  rawKey : String
  context : AuthContext
  token : extractBearerToken ⟨"", some authorization, ""⟩ = some rawKey
  accepted : auth rawKey = .ok context
  project : context.projectId = projectId

section Requests

variable {auth : String → Except PyExc AuthContext} {projectId : String}

def JobRequest.route (request : JobRequest auth projectId) : BatchRoute :=
  if request.cancel then .cancel request.jobId else .get request.jobId

def JobRequest.app (request : JobRequest auth projectId) : ApiProgram JSONResponse :=
  request.route.app (some request.authorization) request.requestId

/-- The record of the job after the request, and in its response. -/
def JobRequest.shown (request : JobRequest auth projectId) (found : Option BatchJobRecord) :
    Option BatchJobRecord :=
  found.map fun job =>
    if request.cancel = true ∧ job.status.terminal = false then { job with status := .cancelled } else job

def JobRequest.reply (request : JobRequest auth projectId) (found : Option BatchJobRecord) :
    JSONResponse :=
  match request.shown found with
  | none => appErrorResponse ⟨"", none, request.requestId⟩ batchJobNotFound
  | some job => ⟨200, job.toResponse, none, some request.requestId⟩

variable {S Row : Type} {store : BatchJobStore S} {request : JobRequest auth projectId} {s s' : S}
  {response : JSONResponse}

/-- The application after the middleware has accepted the key. -/
def JobRequest.served (request : JobRequest auth projectId) : ApiProgram JSONResponse :=
  (Program.tryExcept PyExc.isAppError ((request.route.handler (some request.context)).bind fun content =>
      .ret ⟨200, content, none, none⟩)
    (handleAppError ⟨request.route.path, some request.authorization, request.requestId⟩)).bind
      fun response => .ret { response with xRequestId := some request.requestId }

theorem yields_app : request.app.Yields (apiExec auth store) s (.ok response) s' ↔
    request.served.Yields (apiExec auth store) s (.ok response) s' := by
  have htoken : extractBearerToken ⟨request.route.path, some request.authorization, request.requestId⟩ =
      some request.rawKey := request.token
  unfold JobRequest.app BatchRoute.app RequestIdMiddleware.dispatch ApiKeyAuthMiddleware.dispatch
  simp only [isProtectedPath_path, htoken]
  constructor
  · rintro ⟨answer, middle, ⟨hanswer, rfl⟩, h⟩
    rw [request.accepted] at hanswer
    rw [hanswer] at h
    exact h
  · intro h
    refine ⟨.ok request.context, s, ⟨request.accepted.symm, rfl⟩, h⟩

theorem shown_of_get (hcancel : request.cancel = false) (found : Option BatchJobRecord) :
    request.shown found = found := by
  cases found with
  | none => rfl
  | some job => simp [JobRequest.shown, hcancel]

/-- Reading a job. -/
theorem yields_get (hcancel : request.cancel = false) :
    request.served.Yields (apiExec auth store) s (.ok response) s' ↔
      response = request.reply (store.get request.jobId s) ∧ s' = s := by
  have hroute : request.route = .get request.jobId := by simp [JobRequest.route, hcancel]
  rw [JobRequest.served, hroute, JobRequest.reply, shown_of_get hcancel]
  constructor
  · rintro ⟨exc | found, middle, hexec, h⟩
    · exact hexec.elim
    · obtain ⟨rfl, rfl⟩ := hexec
      cases hget : store.get request.jobId middle with
      | none =>
          rw [hget] at h
          exact ⟨Except.ok.inj h.1, h.2⟩
      | some job =>
          rw [hget] at h
          exact ⟨Except.ok.inj h.1, h.2⟩
  · rintro ⟨rfl, rfl⟩
    refine ⟨.ok (store.get request.jobId s'), s', ⟨rfl, rfl⟩, ?_⟩
    cases store.get request.jobId s' with
    | none => exact ⟨rfl, rfl⟩
    | some job => exact ⟨rfl, rfl⟩

/-- Cancelling a job: the job that is stored, moved to cancelled unless it has ended. -/
theorem yields_cancel (rows : JobRows store Row) (hcancel : request.cancel = true)
    (h : request.served.Yields (apiExec auth store) s (.ok response) s') :
    response = request.reply (store.get request.jobId s) ∧
      store.get request.jobId s' = request.shown (store.get request.jobId s) ∧
      ∀ other ≠ request.jobId, rows.row other s' = rows.row other s := by
  have hroute : request.route = .cancel request.jobId := by simp [JobRequest.route, hcancel]
  rw [JobRequest.served, hroute] at h
  rw [JobRequest.reply]
  obtain ⟨exc | found, middle, hexec, h⟩ := h
  · exact hexec.elim
  · obtain ⟨rfl, rfl⟩ := hexec
    cases hget : store.get request.jobId middle with
    | none =>
        rw [hget] at h
        obtain ⟨hresponse, rfl⟩ := h
        exact ⟨Except.ok.inj hresponse, hget, fun _ _ => rfl⟩
    | some job =>
        rw [hget] at h
        by_cases hterminal : job.status.terminal = true
        · have hshown : request.shown (some job) = some job := by simp [JobRequest.shown, hterminal]
          have h : (Program.ret ⟨200, job.toResponse, none, some request.requestId⟩ :
              ApiProgram JSONResponse).Yields (apiExec auth store) middle (.ok response) s' := by
            simpa [Except.map, hterminal] using h
          obtain ⟨hresponse, rfl⟩ := h
          rw [hshown]
          exact ⟨Except.ok.inj hresponse, hget, fun _ _ => rfl⟩
        · have hlive : job.status.terminal = false := by simpa using hterminal
          have hshown : request.shown (some job) = some { job with status := .cancelled } := by
            simp [JobRequest.shown, hcancel, hlive]
          simp only [Except.map, Program.pure_eq, Program.ret_bind, hlive, Bool.false_eq_true, if_false] at h
          obtain ⟨exc | cancelled, after, hexec, h⟩ := h
          · exact hexec.elim
          · have hframe := rows.transition_frame _ _ _ _ _ hexec
            obtain ⟨hreply, hafter⟩ := rows.transition_reply _ _ _ _ _ hexec
            rw [hget, moved, Option.bind_some, if_pos (canTransition_cancelled hlive)] at hreply
            rw [hreply] at h hafter
            obtain ⟨hresponse, rfl⟩ := h
            rw [hshown]
            exact ⟨Except.ok.inj hresponse, hafter, hframe⟩

/-- What a request is answered and what it leaves. -/
theorem app_spec (rows : JobRows store Row)
    (h : request.app.Yields (apiExec auth store) s (.ok response) s') :
    response = request.reply (store.get request.jobId s) ∧
      store.get request.jobId s' = request.shown (store.get request.jobId s) ∧
      ∀ other ≠ request.jobId, rows.row other s' = rows.row other s := by
  have h := yields_app.mp h
  by_cases hcancel : request.cancel = true
  · exact yields_cancel rows hcancel h
  · have hget : request.cancel = false := by simpa using hcancel
    obtain ⟨hresponse, rfl⟩ := (yields_get hget).mp h
    exact ⟨hresponse, (shown_of_get hget _).symm, fun _ _ => rfl⟩

theorem app_total (rows : JobRows store Row) (request : JobRequest auth projectId) (s : S) :
    ∃ response s', request.app.Yields (apiExec auth store) s (.ok response) s' := by
  by_cases hcancel : request.cancel = true
  · have hroute : request.route = .cancel request.jobId := by simp [JobRequest.route, hcancel]
    have hfound : apiExec auth store (.batch (.get request.jobId)) s (.ok (store.get request.jobId s)) s :=
      ⟨rfl, rfl⟩
    cases hget : store.get request.jobId s with
    | none =>
        rw [hget] at hfound
        refine ⟨appErrorResponse ⟨"", none, request.requestId⟩ batchJobNotFound, s,
          yields_app.mpr ?_⟩
        rw [JobRequest.served, hroute]
        exact ⟨_, s, hfound, rfl, rfl⟩
    | some job =>
        rw [hget] at hfound
        by_cases hterminal : job.status.terminal = true
        · refine ⟨⟨200, job.toResponse, none, some request.requestId⟩, s, yields_app.mpr ?_⟩
          rw [JobRequest.served, hroute]
          refine ⟨_, s, hfound, ?_⟩
          simp [Except.map, hterminal, Program.Yields]
        · have hlive : job.status.terminal = false := by simpa using hterminal
          obtain ⟨cancelled, s', htransition⟩ := rows.transition_total request.jobId .cancelled s
          have hreply := (rows.transition_reply _ _ _ _ _ htransition).1
          rw [hget, moved, Option.bind_some, if_pos (canTransition_cancelled hlive)] at hreply
          rw [hreply] at htransition
          refine ⟨⟨200, BatchJobRecord.toResponse { job with status := .cancelled }, none,
            some request.requestId⟩, s', yields_app.mpr ?_⟩
          rw [JobRequest.served, hroute]
          refine ⟨_, s, hfound, ?_⟩
          simp only [Except.map, Program.pure_eq, Program.ret_bind, hlive, Bool.false_eq_true, if_false]
          exact ⟨.ok _, s', htransition, rfl, rfl⟩
  · have hget : request.cancel = false := by simpa using hcancel
    exact ⟨_, s, yields_app.mpr ((yields_get hget).mpr ⟨rfl, rfl⟩)⟩

end Requests

end GpuInference
