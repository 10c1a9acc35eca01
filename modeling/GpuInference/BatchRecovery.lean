import GpuInference.BatchSystem
import GpuInference.PostgresStore

/-!
What recovery can reach. A job that is not settled is queued, and then a scan lists it, or running,
and then the thread that moved it has not marked it yet. As long as this thread is alive the job is
in its hands; when it stops there, nothing lists the job again.
-/

open Effect

namespace GpuInference

namespace BatchThread

/-- The thread has further calls to make. -/
def Live (t : BatchThread) : Prop :=
  match t.program with
  | .call _ _ => t.crashed = false
  | _ => False

/-- The thread has crashed, or an exception has left it. -/
def Stopped (t : BatchThread) : Prop := t.crashed = true ∨ ∃ exc, t.program = .raise exc

end BatchThread

section Recovery

variable {S : Type}

/-- A scan with a large enough limit lists the job. -/
def Listed (store : BatchJobStore S) (s : S) (jobId : String) : Prop :=
  ∃ bound : Int, ∀ limit ≥ bound, ∃ jobs, store.listRecoverable limit s = .ok jobs ∧
    ∃ record ∈ jobs, record.id = jobId

/-- The job is in the hands of a live worker that took it from the queue, or a scan lists it. -/
def Covered (store : BatchJobStore S) (pool : Pool (BatchWorld S) BatchThread) (jobId : String) : Prop :=
  (∃ t ∈ pool.threads, t.Live ∧ t.progress.taken = some jobId) ∨ Listed store pool.shared.store jobId

/-- The job is running, and the worker that moved it has stopped before a mark of it returned. -/
def Abandoned (store : BatchJobStore S) (pool : Pool (BatchWorld S) BatchThread) (jobId : String) :
    Prop :=
  store.table pool.shared.store jobId = some .running ∧
    ∃ t ∈ pool.threads, t.Stopped ∧ t.progress.holds jobId

variable {store : BatchJobStore S}

theorem listed_of_queued {s : S} {jobId : String} (h : store.table s jobId = some .queued) :
    Listed store s jobId := by
  obtain ⟨bound, hbound⟩ := store.recoverable_spec s
  refine ⟨bound, ?_⟩
  intro limit hlimit
  obtain ⟨jobs, hjobs, hqueued⟩ := hbound limit hlimit
  exact ⟨jobs, hjobs, hqueued jobId h⟩

/-- A thread that holds a job has not returned. -/
theorem live_or_stopped {t : BatchThread} {jobId : String} (hholds : t.progress.holds jobId)
    (hfollows : t.program.Follows batchProtocol batchDone t.progress) : t.Live ∨ t.Stopped := by
  obtain ⟨calls, program, crashed⟩ := t
  by_cases hcrashed : crashed = true
  · exact .inr (.inl hcrashed)
  · cases program with
    | ret outcome =>
        have hmarked := hfollows.1 hholds.2.1
        rw [hholds.2.2] at hmarked
        cases hmarked
    | raise exc => exact .inr (.inr ⟨exc, rfl⟩)
    | call op next =>
        have hrunning : crashed = false := by simpa using hcrashed
        exact .inl hrunning

/-- A running job is claimed by a thread that has not marked it. -/
theorem holds_of_claimed {jobId : String} (threads : List BatchThread)
    (h : jobId ∈ (threads.map fun t => (BatchThread.progress t).claims).sum.1) :
    ∃ t ∈ threads, t.progress.holds jobId := by
  induction threads with
  | nil => cases h
  | cons t threads ih =>
      rw [List.map_cons, List.sum_cons, Prod.fst_add, Multiset.mem_add] at h
      rcases h with hfirst | hrest
      · refine ⟨t, by simp, ?_⟩
        exact holds_of_claims hfirst
      · obtain ⟨u, hu, hholds⟩ := ih hrest
        exact ⟨u, by simp [hu], hholds⟩

/-- Every job that is not settled is covered or abandoned. -/
theorem covered_or_abandoned {w : BatchWorld S} {pool : Pool (BatchWorld S) BatchThread}
    (hempty : ∀ jobId, store.table w.store jobId = none) (hreach : (batchSystem store).Reachable w pool)
    {jobId : String} {status : JobStatus} (hstatus : store.table pool.shared.store jobId = some status)
    (hlive : status.terminal = false) : Covered store pool jobId ∨ Abandoned store pool jobId := by
  obtain ⟨hbacks, hknows⟩ := batchSystem_accounted hempty hreach
  cases status
  case queued => exact .inl (.inr (listed_of_queued hstatus))
  case running =>
    obtain ⟨t, ht, hholds⟩ := holds_of_claimed pool.threads (hbacks.running jobId hstatus)
    rcases live_or_stopped hholds (hknows t ht).2 with halive | hstopped
    · exact .inl (.inl ⟨t, ht, halive, hholds.1⟩)
    · exact .inr ⟨hstatus, t, ht, hstopped, hholds⟩
  all_goals cases hlive

end Recovery

/-- **Only a stopped worker loses a job.** Over the in-memory store, and over Postgres if its writes were
committed (the code leaves them uncommitted), a job that is not settled is in the hands of a live worker,
is listed for recovery, or is running under a worker that has stopped. -/
theorem unsettled_covered_or_abandoned (queue : List String) (db : Db) :
    (∀ pool, (batchSystem InMemoryBatchJobStore.store).Reachable ⟨.empty, queue⟩ pool →
      ∀ jobId status, InMemoryBatchJobStore.store.table pool.shared.store jobId = some status →
        status.terminal = false → Covered InMemoryBatchJobStore.store pool jobId ∨
          Abandoned InMemoryBatchJobStore.store pool jobId) ∧
    (∀ pool, (batchSystem PostgresBatchJobStore.store).Reachable
        ⟨Function.update db .batchJobs .empty, queue⟩ pool →
      ∀ jobId status, PostgresBatchJobStore.store.table pool.shared.store jobId = some status →
        status.terminal = false → Covered PostgresBatchJobStore.store pool jobId ∨
          Abandoned PostgresBatchJobStore.store pool jobId) := by
  refine ⟨?_, ?_⟩
  · intro pool hreach jobId status hstatus hlive
    exact covered_or_abandoned (fun _ => rfl) hreach hstatus hlive
  · intro pool hreach jobId status hstatus hlive
    refine covered_or_abandoned ?_ hreach hstatus hlive
    intro other
    show Db.status (Function.update db .batchJobs .empty) other = none
    rw [Db.status, Function.update_self, KeyedTable.find_empty]
    rfl

def lostAuth : AuthContext := ⟨"key", "user", "project", none⟩

def lostRequest : BatchJobCreateRequest where
  model := "model"
  messages := []
  maxTokens := none
  temperature := none
  topP := none
  stop := none
  metadata := none
  extra := []
  extra_fresh := nofun

def lostPayload : JsonObject := JsonObject.set lostRequest.modelDump "stream" (.bool false)

def lostWorker : BatchWorker := ⟨heuristicTokenEstimator, ⟨1, 1, 2⟩, false, false, .strict, fun _ => ""⟩

theorem submit_lostRequest : BatchJobService.submit lostAuth lostRequest =
    ((batchCall (.create lostAuth lostPayload "model")).bind fun job =>
      (Program.tryExcept PyExc.isException (batchCall (.enqueue job.id)) fun _ => .ret ()).bind fun _ =>
        .ret job) := by
  have hstream : ¬ JsonObject.get lostRequest.modelDump "stream" = some (.bool true) := by
    intro h
    cases h
  unfold BatchJobService.submit
  simp only [if_neg hstream]
  rfl

/-- A job is submitted, a worker moves it to running and crashes. -/
theorem abandons : ∃ pool, (batchSystem InMemoryBatchJobStore.store).Reachable ⟨.empty, []⟩ pool ∧
    pool.shared.store.table "job_hex" = some .running ∧ ∀ t ∈ pool.threads, ¬ BatchThread.Live t := by
  let created := InMemoryBatchJobStore.empty.create lostAuth lostPayload "model" "hex"
  let moved := created.2.transition "job_hex" .running
  have h : (batchSystem InMemoryBatchJobStore.store).Reachable ⟨.empty, []⟩ ⟨⟨.empty, []⟩, []⟩ :=
    Relation.ReflTransGen.refl
  have hsubmit := BatchCaller.submit lostAuth lostRequest
  rw [submit_lostRequest] at hsubmit
  have h := reachable_start h hsubmit
  have h := reachable_call [] [] h (show InMemoryBatchJobStore.store.exec
    (.create lostAuth lostPayload "model") _ (.ok created.1) ⟨created.2, []⟩ from ⟨⟨"hex", rfl, rfl⟩, rfl⟩)
  have h := reachable_call [] [] h (show InMemoryBatchJobStore.store.exec (.enqueue "job_hex")
    ⟨created.2, []⟩ (.ok ()) ⟨created.2, ["job_hex"]⟩ from ⟨rfl, rfl⟩)
  have h := reachable_start h (BatchCaller.worker lostWorker)
  have h := reachable_call [_] [] h (show InMemoryBatchJobStore.store.exec .dequeue ⟨created.2, ["job_hex"]⟩
    (.ok (some "job_hex")) ⟨created.2, []⟩ from ⟨⟨rfl, rfl⟩, rfl⟩)
  have h := reachable_call [_] [] h (show InMemoryBatchJobStore.store.exec (.get "job_hex") ⟨created.2, []⟩
    (.ok (some created.1)) ⟨created.2, []⟩ from ⟨⟨rfl, rfl⟩, rfl⟩)
  have h := reachable_call [_] [] h (show InMemoryBatchJobStore.store.exec (.transition "job_hex" .running)
    ⟨created.2, []⟩ (.ok moved.1) ⟨moved.2, []⟩ from ⟨rfl, rfl⟩)
  have h := reachable_crash [_] [] h
  refine ⟨_, h, rfl, ?_⟩
  intro t ht
  rcases List.mem_cons.mp ht with rfl | ht
  · exact fun hlive => hlive
  · rw [List.mem_singleton.mp ht]
    exact fun hlive => Bool.noConfusion hlive

/-- A running job whose worker has crashed is in nobody's hands, and no scan lists it. -/
theorem job_orphaned : ¬ ∀ (queue : List String) (pool : Pool (BatchWorld InMemoryBatchJobStore) BatchThread),
    (batchSystem InMemoryBatchJobStore.store).Reachable ⟨.empty, queue⟩ pool →
      ∀ jobId status, InMemoryBatchJobStore.store.table pool.shared.store jobId = some status →
        status.terminal = false → Covered InMemoryBatchJobStore.store pool jobId := by
  intro hcovered
  obtain ⟨pool, hreach, hrunning, hdead⟩ := abandons
  rcases hcovered [] pool hreach "job_hex" .running hrunning rfl with ⟨t, ht, hlive, -⟩ | ⟨bound, hlisted⟩
  · exact hdead t ht hlive
  · obtain ⟨jobs, hjobs, record, hrecord, hid⟩ := hlisted bound le_rfl
    rw [← Except.ok.inj hjobs] at hrecord
    have hqueued := InMemoryBatchJobStore.queued_of_listRecoverable hrecord
    rw [hid, hrunning] at hqueued
    cases hqueued

end GpuInference
