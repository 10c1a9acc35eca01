import GpuInference.BatchSystem
import GpuInference.PostgresStore

/-!
What a recovery scan has seen. A scan lists the first queued jobs of its store, as many as its limit says, and puts
those into the queue that are not there. So a scan that puts none back has found each of these jobs in the queue, and
says nothing of the queued jobs behind them.
-/

open Effect

namespace GpuInference

namespace BatchRecoveryScanner

variable {S : Type} {store : BatchJobStore S} {w w' : BatchWorld S}

/-- A scan that has put nothing back has found every job in the queue. -/
theorem yields_reenqueue {jobs : List BatchJobRecord} {requeued count : Int}
    (h : (reenqueue jobs requeued).Yields store.exec w (.ok count) w') :
    requeued ≤ count ∧ (count = requeued → w'.queue = w.queue ∧ ∀ job ∈ jobs, job.id ∈ w.queue) := by
  induction jobs generalizing requeued w with
  | nil =>
      obtain ⟨hcount, rfl⟩ := h
      cases hcount
      exact ⟨Int.le_refl _, fun _ => ⟨rfl, List.forall_mem_nil _⟩⟩
  | cons job jobs ih =>
      obtain ⟨contained, middle, hcontains, hrest⟩ := (Program.yields_bind_ok _ _ _ _ _ _).mp h
      obtain ⟨⟨rfl, -⟩, hqueue⟩ := (Program.yields_perform _ _ _ _ _).mp hcontains
      have hsame : middle.queue = w.queue := hqueue
      by_cases hmem : job.id ∈ w.queue
      · rw [decide_eq_true hmem, if_pos rfl] at hrest
        obtain ⟨hle, hidle⟩ := ih hrest
        refine ⟨hle, ?_⟩
        intro hcount
        obtain ⟨hafter, hfound⟩ := hidle hcount
        rw [hsame] at hafter hfound
        exact ⟨hafter, List.forall_mem_cons.mpr ⟨hmem, hfound⟩⟩
      · rw [decide_eq_false hmem, if_neg Bool.false_ne_true] at hrest
        obtain ⟨done, after, -, hloop⟩ := (Program.yields_bind_ok _ _ _ _ _ _).mp hrest
        obtain ⟨hle, -⟩ := ih hloop
        exact ⟨by omega, fun hcount => absurd hcount (by omega)⟩

/-- When every listed job is in the queue, the scan may return without having put one back. -/
theorem reenqueue_idle {jobs : List BatchJobRecord} (requeued : Int) (h : ∀ job ∈ jobs, job.id ∈ w.queue) :
    (reenqueue jobs requeued).Yields store.exec w (.ok requeued) w := by
  induction jobs with
  | nil => exact ⟨rfl, rfl⟩
  | cons job jobs ih =>
      obtain ⟨hmem, hrest⟩ := List.forall_mem_cons.mp h
      refine (Program.yields_bind_ok _ _ _ _ _ _).mpr ⟨true, w, ?_, ih hrest⟩
      exact (Program.yields_perform _ _ _ _ _).mpr ⟨⟨(decide_eq_true hmem).symm, rfl⟩, rfl⟩

/-- **A scan that returns zero** has found every job that its store lists in the queue. -/
theorem yields_zero {limit : Int} (h : (reenqueueMissing limit).Yields store.exec w (.ok 0) w') :
    w'.queue = w.queue ∧ ∃ jobs, store.listRecoverable limit w.store = .ok jobs ∧ ∀ job ∈ jobs, job.id ∈ w.queue := by
  obtain ⟨jobs, middle, hlist, hloop⟩ := (Program.yields_bind_ok _ _ _ _ _ _).mp h
  obtain ⟨⟨hjobs, -⟩, hqueue⟩ := (Program.yields_perform _ _ _ _ _).mp hlist
  have hsame : middle.queue = w.queue := hqueue
  obtain ⟨-, hidle⟩ := yields_reenqueue hloop
  obtain ⟨hafter, hfound⟩ := hidle rfl
  rw [hsame] at hafter hfound
  exact ⟨hafter, jobs, hjobs, hfound⟩

theorem yields_zero_of_found {limit : Int} {jobs : List BatchJobRecord}
    (hjobs : store.listRecoverable limit w.store = .ok jobs) (hfound : ∀ job ∈ jobs, job.id ∈ w.queue) :
    (reenqueueMissing limit).Yields store.exec w (.ok 0) w := by
  refine (Program.yields_bind_ok _ _ _ _ _ _).mpr ⟨jobs, w, ?_, reenqueue_idle 0 hfound⟩
  exact (Program.yields_perform _ _ _ _ _).mpr ⟨⟨hjobs, rfl⟩, rfl⟩

end BatchRecoveryScanner

theorem mem_take_append {α : Type} {left right : List α} {row : α} {n : Nat} (h : left.length < n) :
    row ∈ (left ++ row :: right).take n := by
  have htake : (left ++ row :: right).take n = left ++ row :: right.take (n - left.length - 1) := by
    rw [List.take_append, List.take_of_length_le (Nat.le_of_lt h), ← List.take_succ_cons]
    congr 2
    omega
  rw [htake]
  exact List.mem_append_right _ List.mem_cons_self

/-- In a sorted list, a row is among the first `n` when no more rows come with it or before it. -/
theorem mem_take_of_sorted {α : Type} {time : α → Int} {rows : List α}
    (hsorted : rows.Pairwise fun a b => time a ≤ time b) {row : α} (hrow : row ∈ rows) {n : Nat}
    (hcount : rows.countP (fun other => time other ≤ time row) ≤ n) : row ∈ rows.take n := by
  obtain ⟨left, right, rfl⟩ := List.append_of_mem hrow
  obtain ⟨-, -, hbefore⟩ := List.pairwise_append.mp hsorted
  have hleft : left.countP (fun other => time other ≤ time row) = left.length := by
    rw [List.countP_eq_length]
    intro other hother
    exact decide_eq_true (hbefore other hother row List.mem_cons_self)
  have hself : (decide (time row ≤ time row)) = true := decide_eq_true (Int.le_refl _)
  rw [List.countP_append, hleft, List.countP_cons, hself, if_pos rfl] at hcount
  exact mem_take_append (by omega)

namespace InMemoryBatchJobStore

/-- The queued jobs that have been created before a job. -/
def queuedBefore (self : InMemoryBatchJobStore) (jobId : String) : List BatchJobRecord :=
  (self.jobs.rows.takeWhile fun job => job.id ≠ jobId).filter fun job => job.status = .queued

theorem mem_listRecoverable {self : InMemoryBatchJobStore} {jobId : String} {job : BatchJobRecord}
    (hjob : self.get jobId = some job) (hqueued : job.status = .queued) {limit : Int}
    (hbefore : (self.queuedBefore jobId).length < limit) : job ∈ self.listRecoverable limit := by
  have hid : job.id = jobId := id_of_get hjob
  obtain ⟨-, left, right, hrows, hleft⟩ := List.find?_eq_some_iff_append.mp hjob
  have hother : ∀ other ∈ left, decide (other.id ≠ jobId) = true := by
    intro other hmem
    simpa using hleft other hmem
  have hbefore' : self.queuedBefore jobId = left.filter fun other => other.status = .queued := by
    rw [queuedBefore, hrows, List.takeWhile_append_of_pos hother, List.takeWhile_cons_of_neg (by simp [hid]),
      List.append_nil]
  have hsplit : self.jobs.rows.filter (fun other => other.status = .queued) =
      self.queuedBefore jobId ++ job :: right.filter fun other => other.status = .queued := by
    rw [hrows, List.filter_append, List.filter_cons, if_pos (decide_eq_true hqueued), hbefore']
  rw [listRecoverable, sliceTo, if_pos (by omega), hsplit]
  exact mem_take_append (by omega)

end InMemoryBatchJobStore

namespace PostgresBatchJobStore

/-- The queued rows that are no younger than a row, itself included. -/
def queuedUpTo (db : Db) (job : BatchJob) : List BatchJob :=
  (db .batchJobs).rows.filter fun other => other.status = .queued ∧ other.createdAt ≤ job.createdAt

theorem mem_recoverable {db : Db} {jobId : String} {job : BatchJob} (hjob : (db .batchJobs).find jobId = some job)
    (hqueued : job.status = .queued) {limit : Int} (hupTo : (queuedUpTo db job).length ≤ limit) :
    ∃ jobs, recoverable db limit = .ok jobs ∧ recordFromModel job ∈ jobs := by
  have hlimit : ¬ limit < 0 := by omega
  unfold recoverable selectByStatus
  rw [if_neg hlimit]
  refine ⟨_, rfl, List.mem_map_of_mem ?_⟩
  let matching := (db .batchJobs).rows.filter fun other => other.status = .queued
  have hsorted : (matching.mergeSort fun a b => a.createdAt ≤ b.createdAt).Pairwise
      fun a b => a.createdAt ≤ b.createdAt := by
    refine (List.pairwise_mergeSort ?_ ?_ matching).imp of_decide_eq_true
    · intro a b c hab hbc
      exact decide_eq_true (Int.le_trans (of_decide_eq_true hab) (of_decide_eq_true hbc))
    · intro a b
      simpa using Int.le_total a.createdAt b.createdAt
  refine mem_take_of_sorted hsorted ?_ ?_
  · exact List.mem_mergeSort.mpr (List.mem_filter.mpr ⟨KeyedTable.mem_of_find hjob, decide_eq_true hqueued⟩)
  · rw [(List.mergeSort_perm matching _).countP_eq, List.countP_eq_length_filter, List.filter_filter]
    have hsame : ((db .batchJobs).rows.filter fun other =>
        decide (other.createdAt ≤ job.createdAt) && decide (other.status = .queued)) = queuedUpTo db job := by
      refine List.filter_congr ?_
      intro other _
      simp [Bool.and_comm]
    rw [hsame]
    omega

end PostgresBatchJobStore

/-- **After a scan that has put nothing back**, a queued job is in the queue if fewer queued jobs than the limit come
before it: those created earlier in the in-memory store, and in Postgres the other ones that are no younger. Postgres
is taken with its writes committed, which the source never does. -/
theorem scanned_queued :
    (∀ (w w' : BatchWorld InMemoryBatchJobStore) (limit : Int),
      (BatchRecoveryScanner.reenqueueMissing limit).Yields InMemoryBatchJobStore.store.exec w (.ok 0) w' →
        ∀ jobId job, w.store.get jobId = some job → job.status = .queued →
          (w.store.queuedBefore jobId).length < limit → jobId ∈ w'.queue) ∧
    ∀ (w w' : BatchWorld Db) (limit : Int),
      (BatchRecoveryScanner.reenqueueMissing limit).Yields PostgresBatchJobStore.store.exec w (.ok 0) w' →
        ∀ jobId job, (w.store .batchJobs).find jobId = some job → job.status = .queued →
          (PostgresBatchJobStore.queuedUpTo w.store job).length ≤ limit → jobId ∈ w'.queue := by
  refine ⟨?_, ?_⟩
  · intro w w' limit h jobId job hjob hqueued hbefore
    obtain ⟨hqueue, jobs, hjobs, hfound⟩ := BatchRecoveryScanner.yields_zero h
    cases hjobs
    rw [hqueue, ← InMemoryBatchJobStore.id_of_get hjob]
    exact hfound job (InMemoryBatchJobStore.mem_listRecoverable hjob hqueued hbefore)
  · intro w w' limit h jobId job hjob hqueued hupTo
    obtain ⟨hqueue, jobs, hjobs, hfound⟩ := BatchRecoveryScanner.yields_zero h
    obtain ⟨listed, hlisted, hmem⟩ := PostgresBatchJobStore.mem_recoverable hjob hqueued hupTo
    obtain rfl : jobs = listed := Except.ok.inj (hjobs.symm.trans hlisted)
    have hid : job.id = jobId := KeyedTable.key_of_find hjob
    rw [hqueue, ← hid]
    exact hfound _ hmem

/-- A new job of each store, the first of which is in the queue. -/
def backlog : BatchWorld InMemoryBatchJobStore where
  store :=
    ((InMemoryBatchJobStore.empty.create ⟨"key", "user", "project", none⟩ [] "model" "first").2.create
      ⟨"key", "user", "project", none⟩ [] "model" "second").2
  queue := ["job_first"]

def backlogRow (id : String) (createdAt : DateTime) : BatchJob :=
  createdRow id ⟨"key", "user", "project", none⟩ [] "model" createdAt createdAt

def backlogDb : BatchWorld Db where
  store := Function.update tenantDb .batchJobs
    ⟨[backlogRow "first" 1, backlogRow "second" 2], show ["first", "second"].Nodup by decide⟩
  queue := ["first"]

theorem scan_backlog : (BatchRecoveryScanner.reenqueueMissing 1).Yields InMemoryBatchJobStore.store.exec backlog
    (.ok 0) backlog := by
  refine BatchRecoveryScanner.yields_zero_of_found rfl ?_
  intro job hjob
  have hlisted : (backlog.store.listRecoverable 1).map BatchJobRecord.id = ["job_first"] := by decide
  have hid : job.id ∈ (backlog.store.listRecoverable 1).map BatchJobRecord.id := List.mem_map_of_mem hjob
  rw [hlisted] at hid
  exact hid

theorem scan_backlogDb : (BatchRecoveryScanner.reenqueueMissing 1).Yields PostgresBatchJobStore.store.exec backlogDb
    (.ok 0) backlogDb := by
  have hlisted : PostgresBatchJobStore.recoverable backlogDb.store 1 =
      .ok [recordFromModel (backlogRow "first" 1)] := by
    have hsorted : [backlogRow "first" 1, backlogRow "second" 2].mergeSort
        (fun a b => a.createdAt ≤ b.createdAt) = [backlogRow "first" 1, backlogRow "second" 2] := by
      refine List.mergeSort_of_pairwise (List.pairwise_pair.mpr ?_)
      decide
    have hselect : PostgresBatchJobStore.recoverable backlogDb.store 1 =
        .ok ((([backlogRow "first" 1, backlogRow "second" 2].mergeSort
          fun a b => a.createdAt ≤ b.createdAt).take 1).map recordFromModel) := rfl
    rw [hselect, hsorted]
    rfl
  refine BatchRecoveryScanner.yields_zero_of_found hlisted ?_
  intro job hjob
  rw [List.mem_singleton.mp hjob]
  exact List.mem_singleton_self _

/-- The first of two jobs is in the queue. -/
theorem scanned_queued_first : "job_first" ∈ backlog.queue ∧ "first" ∈ backlogDb.queue :=
  ⟨scanned_queued.1 backlog backlog 1 scan_backlog "job_first" _ rfl rfl (by decide),
    scanned_queued.2 backlogDb backlogDb 1 scan_backlogDb "first" (backlogRow "first" 1) rfl rfl (by decide)⟩

/-- With the limit 1 a scan does not see that the second one is missing. -/
theorem scan_incomplete :
    (¬ ∀ (w w' : BatchWorld InMemoryBatchJobStore) (limit : Int), 1 ≤ limit →
      (BatchRecoveryScanner.reenqueueMissing limit).Yields InMemoryBatchJobStore.store.exec w (.ok 0) w' →
        ∀ jobId job, w.store.get jobId = some job → job.status = .queued → jobId ∈ w'.queue) ∧
    ¬ ∀ (w w' : BatchWorld Db) (limit : Int), 1 ≤ limit →
      (BatchRecoveryScanner.reenqueueMissing limit).Yields PostgresBatchJobStore.store.exec w (.ok 0) w' →
        ∀ jobId job, (w.store .batchJobs).find jobId = some job → job.status = .queued → jobId ∈ w'.queue := by
  refine ⟨?_, ?_⟩
  · intro h
    exact absurd (h backlog backlog 1 (Int.le_refl 1) scan_backlog "job_second" _ rfl rfl) (by decide)
  · intro h
    exact absurd (h backlogDb backlogDb 1 (Int.le_refl 1) scan_backlogDb "second" (backlogRow "second" 2) rfl rfl)
      (by decide)

end GpuInference
