import GpuInference.BatchTable
import Mathlib.Algebra.GroupWithZero.Nat

/-!
The system of submitters, cancellations, workers and scanners over a store and a queue. Every store
refines the table of statuses, so what holds of the table holds of every run: a job is executed at
most once, its history is a path of allowed transitions, and a cancellation is final.
-/

open Effect

namespace GpuInference

structure BatchWorld (S : Type) where
  store : S
  queue : List String

/-- `RedisBatchQueue` after a call: RPUSH at the end, LPOP at the front. -/
def queueAfter (queue : List String) : BatchOp → List String
  | .enqueue jobId => queue ++ [jobId]
  | .dequeue => queue.tail
  | _ => queue

namespace BatchJobStore

variable {S : Type}

/-- The value a call returns, and the store after it. The services outside the store and the queue
may return anything. -/
def Replies (store : BatchJobStore S) (w : BatchWorld S) : (op : BatchOp) → op.Res → S → Prop
  | .dequeue, jobId, s' => jobId = w.queue.head? ∧ s' = w.store
  | .contains jobId, contained, s' => contained = decide (jobId ∈ w.queue) ∧ s' = w.store
  | .create authContext payload model, record, s' =>
      store.create authContext payload model w.store record s'
  | .get jobId, record, s' => record = store.get jobId w.store ∧ s' = w.store
  | .transition jobId target, record, s' => store.transition jobId target w.store record s'
  | .markSucceeded jobId result usage, record, s' =>
      store.markSucceeded jobId result usage w.store record s'
  | .markFailed jobId code message, record, s' => store.markFailed jobId code message w.store record s'
  | .listRecoverable limit, jobs, s' => store.listRecoverable limit w.store = .ok jobs ∧ s' = w.store
  | _, _, s' => s' = w.store

/-- One call. A call that raises leaves the store as it was; it may still have reached the queue. -/
def exec (store : BatchJobStore S) : Exec BatchOp BatchOp.Res PyExc (BatchWorld S) :=
  fun op w answer w' =>
    match answer with
    | .ok value => store.Replies w op value w'.store ∧ w'.queue = queueAfter w.queue op
    | .error _ => w'.store = w.store ∧ (w'.queue = w.queue ∨ w'.queue = queueAfter w.queue op)

/-- **Every store refines the table of statuses**, call by call. -/
theorem exec_refines (store : BatchJobStore S) (op : BatchOp) (w : BatchWorld S)
    (answer : Except PyExc op.Res) (w' : BatchWorld S) (h : store.exec op w answer w') :
    tableExec op (store.table w.store) answer (store.table w'.store) := by
  rcases answer with exc | value
  · obtain ⟨hstore, -⟩ := h
    rw [hstore]
    cases op <;> exact rfl
  · obtain ⟨hreplies, -⟩ := h
    cases op
    case create => exact store.create_spec _ _ _ _ _ _ hreplies
    case get jobId =>
      obtain ⟨rfl, hstore⟩ := hreplies
      rw [hstore]
      exact ⟨store.get_shows jobId w.store, rfl⟩
    case transition => exact store.transition_spec _ _ _ _ _ hreplies
    case markSucceeded => exact store.markSucceeded_spec _ _ _ _ _ _ hreplies
    case markFailed => exact store.markFailed_spec _ _ _ _ _ _ hreplies
    case dequeue => exact congrArg store.table hreplies.2
    case contains => exact congrArg store.table hreplies.2
    case listRecoverable => exact congrArg store.table hreplies.2
    all_goals exact congrArg store.table hreplies

end BatchJobStore

abbrev BatchThread := Thread BatchOp BatchOp.Res PyExc BatchOutcome

/-- What the calls of a thread have told so far. -/
def BatchThread.progress (t : BatchThread) : Progress := batchProtocol.phase Progress.start t.calls

/-- Any number of submitters, readers, cancellations, workers and scanners, call by call; a thread
may stop for good between any two of its calls. -/
def batchSystem {S : Type} (store : BatchJobStore S) : System (BatchWorld S) BatchThread :=
  callSystem store.exec BatchCaller

section Runs

variable {S : Type} (store : BatchJobStore S)

theorem batchSystem_accounts :
    System.Accounts (batchSystem store) (fun _ t => (BatchThread.progress t).claims)
      (fun w => (store.table w.store).Backs)
      (Knows batchProtocol Progress.start batchDone fun w φ => φ.Sound (store.table w.store)) :=
  (tableExec_justified.comap (fun w : BatchWorld S => store.table w.store) store.exec_refines).accounts
    fun _ hcaller => follows_caller hcaller

theorem backs_empty {table : JobTable} (h : ∀ jobId, table jobId = none) : table.Backs 0 := by
  refine ⟨Multiset.nodup_zero, nofun, ?_⟩
  intro jobId hrunning
  rw [h] at hrunning
  cases hrunning

variable {store} {w : BatchWorld S} {pool : Pool (BatchWorld S) BatchThread}

/-- In every reachable pool the claims are backed, and every thread knows what is true. -/
theorem batchSystem_accounted (hempty : ∀ jobId, store.table w.store jobId = none)
    (hreach : (batchSystem store).Reachable w pool) :
    (store.table pool.shared.store).Backs (pool.threads.map fun t => (BatchThread.progress t).claims).sum ∧
      ∀ t ∈ pool.threads, (BatchThread.progress t).Sound (store.table pool.shared.store) ∧
        t.program.Follows batchProtocol batchDone (BatchThread.progress t) :=
  (batchSystem_accounts store).reachable (backs_empty hempty) hreach

/-- What one step of the system can do to the table. -/
theorem batchSystem_steps (hempty : ∀ jobId, store.table w.store jobId = none)
    (hreach : (batchSystem store).Reachable w pool) {pool' : Pool (BatchWorld S) BatchThread}
    (hstep : (batchSystem store).Step pool pool') :
    ∃ φ, (store.table pool.shared.store).Steps φ (store.table pool'.shared.store) := by
  obtain ⟨-, hknows⟩ := batchSystem_accounted hempty hreach
  cases hstep with
  | start => exact ⟨Progress.start, JobTable.steps_refl _ _⟩
  | act left right hact =>
      rename_i t t'
      obtain ⟨hsound, hfollows⟩ := hknows t (by simp)
      cases hact with
      | call hexec =>
          exact ⟨_, JobTable.steps_of_exec hsound hfollows.1 (store.exec_refines _ _ _ _ hexec)⟩
      | crash => exact ⟨Progress.start, JobTable.steps_refl _ _⟩
  | env henv => exact henv.elim

/-- How often `create_chat_completion` has been called for a job. -/
def executions (jobId : String) (threads : List BatchThread) : Nat :=
  (threads.map fun t =>
    if (BatchThread.progress t).taken = some jobId then (BatchThread.progress t).asked else 0).sum

/-- A thread that has asked for a completion has a claim on its job. -/
theorem asked_le_claims {table : JobTable} {φ : Progress} (h : φ.Sound table) {jobId : String}
    (htaken : φ.taken = some jobId) : φ.asked ≤ (φ.claims.1 + φ.claims.2).count jobId := by
  by_cases hasked : φ.asked = 0
  · rw [hasked]
    exact Nat.zero_le _
  · have hmoved := h.asked.2 hasked
    have hcount : (φ.claims.1 + φ.claims.2).count jobId = 1 := by
      rw [Progress.claims, htaken, hmoved]
      cases φ.marked <;> simp
    rw [hcount]
    exact h.asked.1

theorem executions_le_claims {table : JobTable} (jobId : String) (threads : List BatchThread)
    (h : ∀ t ∈ threads, (BatchThread.progress t).Sound table) :
    executions jobId threads ≤
      Multiset.count jobId ((threads.map fun t => (BatchThread.progress t).claims).sum.1 +
        (threads.map fun t => (BatchThread.progress t).claims).sum.2) := by
  induction threads with
  | nil => exact Nat.zero_le _
  | cons t threads ih =>
      have hrest := ih fun other hother => h other (by simp [hother])
      simp only [executions, List.map_cons, List.sum_cons, Prod.fst_add, Prod.snd_add,
        Multiset.count_add] at hrest ⊢
      by_cases htaken : (BatchThread.progress t).taken = some jobId
      · have hasked := asked_le_claims (h t (by simp)) htaken
        rw [Multiset.count_add] at hasked
        rw [if_pos htaken]
        omega
      · rw [if_neg htaken]
        omega

theorem executions_le_one (hempty : ∀ jobId, store.table w.store jobId = none)
    (hreach : (batchSystem store).Reachable w pool) (jobId : String) :
    executions jobId pool.threads ≤ 1 := by
  obtain ⟨hbacks, hknows⟩ := batchSystem_accounted hempty hreach
  calc executions jobId pool.threads
      ≤ _ := executions_le_claims jobId pool.threads fun t ht => (hknows t ht).1
    _ ≤ 1 := Multiset.nodup_iff_count_le_one.mp hbacks.nodup jobId

/-- The statuses of a job along a run, one after the other. -/
def statusHistory (store : BatchJobStore S) (jobId : String)
    (pools : List (Pool (BatchWorld S) BatchThread)) : List JobStatus :=
  history (fun pool => store.table pool.shared.store jobId) pools

theorem statusHistory_path (hempty : ∀ jobId, store.table w.store jobId = none)
    {pools : List (Pool (BatchWorld S) BatchThread)} (hrun : (batchSystem store).IsRun w pools)
    (jobId : String) :
    (statusHistory store jobId (⟨w, []⟩ :: pools)).IsChain (fun x y => canTransition x y = true) ∧
      ∀ status ∈ (statusHistory store jobId (⟨w, []⟩ :: pools)).head?, status = .queued := by
  refine history_path (hempty jobId) (hrun.isChain ?_)
  intro p q hreach hstep
  obtain ⟨φ, hsteps⟩ := batchSystem_steps hempty hreach hstep
  exact (hsteps jobId).1

/-- A terminal status never changes again. -/
theorem terminal_stays (hempty : ∀ jobId, store.table w.store jobId = none)
    (hreach : (batchSystem store).Reachable w pool) {jobId : String} {status : JobStatus}
    (hstatus : store.table pool.shared.store jobId = some status) (hterminal : status.terminal = true)
    {later : Pool (BatchWorld S) BatchThread}
    (hlater : Relation.ReflTransGen (batchSystem store).Step pool later) :
    store.table later.shared.store jobId = some status := by
  induction hlater with
  | refl => exact hstatus
  | tail hsteps hstep ih =>
      obtain ⟨φ, hstep⟩ := batchSystem_steps hempty (hreach.trans hsteps) hstep
      exact JobTable.steps_terminal hstep ih hterminal

theorem cancelled_final (hempty : ∀ jobId, store.table w.store jobId = none)
    (hreach : (batchSystem store).Reachable w pool) {t : BatchThread} (ht : t ∈ pool.threads)
    {jobId : String} {record : BatchJobRecord} (hret : t.program = .ret (.cancelled jobId record)) :
    record.id = jobId ∧ record.status.terminal = true ∧
      ∀ later, Relation.ReflTransGen (batchSystem store).Step pool later →
        store.table later.shared.store jobId = some record.status := by
  obtain ⟨-, hknows⟩ := batchSystem_accounted hempty hreach
  obtain ⟨hsound, hfollows⟩ := hknows t ht
  rw [hret] at hfollows
  have hclosed : (BatchThread.progress t).cancel = .closed jobId record := hfollows.2 jobId record rfl
  have hcancel := hsound.cancel
  rw [hclosed] at hcancel
  obtain ⟨hid, hterminal, hstatus⟩ := hcancel
  exact ⟨hid, hterminal, fun later hlater => terminal_stays hempty hreach hstatus hterminal hlater⟩

end Runs

/-- **Batch execution is safe.** Over the in-memory store every job is executed at most once, its
status history is a path of allowed transitions from queued, and what a cancellation returns is
terminal and stays. -/
theorem batch_execution_safe (queue : List String) :
    (∀ pool, (batchSystem InMemoryBatchJobStore.store).Reachable ⟨.empty, queue⟩ pool → ∀ jobId,
      executions jobId pool.threads ≤ 1) ∧
    (∀ pools, (batchSystem InMemoryBatchJobStore.store).IsRun ⟨.empty, queue⟩ pools → ∀ jobId,
      (statusHistory InMemoryBatchJobStore.store jobId (⟨⟨.empty, queue⟩, []⟩ :: pools)).IsChain
          (fun x y => canTransition x y = true) ∧
        ∀ status ∈ (statusHistory InMemoryBatchJobStore.store jobId
          (⟨⟨.empty, queue⟩, []⟩ :: pools)).head?, status = .queued) ∧
    (∀ pool, (batchSystem InMemoryBatchJobStore.store).Reachable ⟨.empty, queue⟩ pool →
      ∀ t ∈ pool.threads, ∀ jobId record, t.program = .ret (.cancelled jobId record) →
        record.id = jobId ∧ record.status.terminal = true ∧
        ∀ later, Relation.ReflTransGen (batchSystem InMemoryBatchJobStore.store).Step pool later →
          (later.shared.store.get jobId).map BatchJobRecord.status = some record.status) := by
  have hempty : ∀ jobId, InMemoryBatchJobStore.store.table InMemoryBatchJobStore.empty jobId = none :=
    fun _ => rfl
  refine ⟨?_, ?_, ?_⟩
  · intro pool hreach jobId
    exact executions_le_one hempty hreach jobId
  · intro pools hrun jobId
    exact statusHistory_path hempty hrun jobId
  · intro pool hreach t ht jobId record hret
    exact cancelled_final hempty hreach ht hret

end GpuInference
