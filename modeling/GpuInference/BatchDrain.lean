import GpuInference.BatchResults
import GpuInference.JobSettlement
import GpuInference.PostgresRefusals
import GpuInference.RecoveryScan

/-!
The backlog is worked off. While the store and the queue are up and the handler of the worker can finalize what it has
admitted, one round of the worker takes one entry from the queue and ends its job, whatever admission, the audit and the
upstream do with it. A scan puts the oldest queued jobs into the queue first, so scans and rounds in turn end every
queued job, however many of them the queue had lost, and touch no other job.
-/

open Effect

namespace GpuInference

/-- The calls that may raise: those of admission, of the audit and of the upstream and the mark of a success, but not
those by which the handler ends its job. -/
def BatchOp.mayFail : BatchOp → Bool
  | .admitRequest _ _ => true
  | .startAudit _ => true
  | .createChatCompletion _ => true
  | .collect _ => true
  | .shouldRunJob => true
  | .finalizeTokens _ _ releaseAll => !releaseAll
  | .finalizeAudit final => final.status ≠ .failed
  | .markSucceeded _ _ _ => true
  | _ => false

def drainKind (op : BatchOp) (exc : PyExc) : Bool := exc.isException && op.mayFail

/-- The store and the queue are up and the handler can end its job; what else is called may raise `Exception`s. -/
def BatchJobStore.upExec {S : Type} (store : BatchJobStore S) : Exec BatchOp BatchOp.Res PyExc (BatchWorld S) :=
  fun op w answer w' => store.exec op w answer w' ∧ ∀ exc, answer = .error exc → drainKind op exc = true

/-- What is asked of the exceptions holds of a call that returns. -/
theorem not_raised {α : Type} {value : α} {p : PyExc → Prop} (exc : PyExc)
    (hraises : (Except.ok value : Except PyExc α) = .error exc) : p exc := by
  cases hraises

/-- The first `n` rounds of the loop of `batch_worker.main`; the pause after an idle round changes nothing. -/
def BatchWorker.rounds (self : BatchWorker) : Nat → BatchProgram Unit
  | 0 => pure ()
  | n + 1 => do
      let _ ← self.processOne
      self.rounds n

/-- `cycles` rounds of the loop of `recovery_scanner.main`, with `n` rounds of a worker after each. -/
def BatchWorker.drain (self : BatchWorker) (limit : Int) (n : Nat) : Nat → BatchProgram Unit
  | 0 => pure ()
  | cycles + 1 => do
      let _ ← BatchRecoveryScanner.reenqueueMissing limit
      self.rounds n
      self.drain limit n cycles

/-- The job is marked once; nobody is given another job meanwhile. -/
def endProtocol (jobId : String) : Protocol BatchOp BatchOp.Res PyExc Bool where
  may marked
    | .create _ _ _ => False
    | .transition _ _ => False
    | .enqueue _ => False
    | .dequeue => False
    | .markSucceeded other _ _ => marked = false ∧ other = jobId
    | .markFailed other _ _ => marked = false ∧ other = jobId
    | _ => True
  after marked
    | .markSucceeded _ _ _, .ok _ => true
    | .markFailed _ _ _, _ => true
    | _, _ => marked

abbrev calmEnd (jobId : String) : Protocol BatchOp BatchOp.Res PyExc (Option Bool) := (endProtocol jobId).calm drainKind

theorem isException_of_drainKind {op : BatchOp} {exc : PyExc} (h : drainKind op exc = true) : exc.isException = true :=
  (Bool.and_eq_true_iff.mp h).1

theorem mayFail_of_drainKind {op : BatchOp} {exc : PyExc} (h : drainKind op exc = true) : op.mayFail = true :=
  (Bool.and_eq_true_iff.mp h).2

section Ends

variable {jobId : String}

/-- What the body of the `try` statement ends with. -/
def EndPost (marked : Bool) (outcome : Except PyExc Bool) (_ : WorkerLocals) : Prop :=
  match outcome with
  | .ok value => marked = true ∧ value = true
  | .error exc => marked = false ∧ exc.isException = true

/-- The job is marked, and the worker goes on. -/
def EndedWell (marked : Bool) (outcome : Except PyExc Bool) : Prop := marked = true ∧ outcome = .ok true

theorem follows_emitUsageEvent_end (self : BatchWorker) (event : UsageEvent) (marked : Bool) :
    (self.emitUsageEvent event).Follows (calmEnd jobId) (calmDone fun ψ outcome => ψ = marked ∧ outcome = .ok ())
      (some marked) := by
  unfold BatchWorker.emitUsageEvent
  split
  · exact Program.follows_calm_dropped (fun _ => isException_of_drainKind) trivial fun _ => ⟨rfl, rfl⟩
  · exact Program.calmDone_some ⟨rfl, rfl⟩

theorem meets_complete_end (self : BatchWorker)
    (hestimator : ∀ text exc, self.tokenEstimator text = .error exc → exc.isException = true)
    (running : BatchJobRecord) (requestId : String) (authContext : AuthContext) (l : WorkerLocals) :
    Block.Meets (calmEnd jobId) (Block.calmPost EndPost) (some false) l
      (self.complete jobId running requestId authContext) := by
  have hraise : ∀ op exc l, drainKind op exc = true → EndPost false (.error exc) l :=
    fun op exc l hkind => ⟨rfl, isException_of_drainKind hkind⟩
  unfold BatchWorker.complete
  rw [Block.meets_lift_bind]
  cases hrequest : chatRequestFromBatch self.lax running with
  | error exc => exact Block.calmPost_some ⟨rfl, modelValidate_raises hrequest⟩
  | ok requestBody =>
  simp only [Block.seqPost]
  rw [Block.meets_lift_bind]
  cases hplan : buildTokenPlan requestBody self.tokenEstimator self.settings with
  | error exc => exact Block.calmPost_some ⟨rfl, buildTokenPlan_raises hestimator hplan⟩
  | ok tokenPlan =>
  refine Block.meets_calm_perform_bind trivial (fun exc h => hraise _ exc _ h) fun lease => ?_
  rw [Block.meets_assign_bind]
  refine Block.meets_calm_perform_bind trivial (fun exc h => hraise _ exc _ h) fun recordId => ?_
  rw [Block.meets_assign_bind]
  refine Block.meets_calm_perform_bind trivial (fun exc h => hraise _ exc _ h) fun response => ?_
  rw [Block.meets_lift_bind]
  cases husage : usageFromResponse response tokenPlan self.tokenEstimator with
  | error exc => exact Block.calmPost_some ⟨rfl, usageFromResponse_raises hestimator husage⟩
  | ok usage =>
  refine Block.meets_calm_perform_bind trivial (fun exc h => hraise _ exc _ h) fun _ => ?_
  refine Block.meets_calm_perform_bind trivial (fun exc h => hraise _ exc _ h) fun latencyMs => ?_
  refine Block.meets_calm_perform_bind trivial (fun exc h => hraise _ exc _ h) fun _ => ?_
  refine Block.meets_calm_perform_bind ⟨rfl, rfl⟩ (fun exc h => hraise _ exc _ h) fun _ => ?_
  refine Block.meets_calm_await_bind (fun _ => Block.quiet_pure _) (follows_emitUsageEvent_end self _ _) ?_ ?_
  · intro ψ exc hleft
    cases hleft.2
  · intro ψ value hleft
    exact Block.meets_calm_pure ⟨hleft.1, rfl⟩

/-- The handler marks the job: none of its calls raises. -/
theorem meets_fail_end (exc : PyExc) (l : WorkerLocals) :
    Block.Meets (calmEnd jobId) (Block.calmPost fun marked outcome _ => EndedWell marked outcome) (some false) l
      (BatchWorker.fail jobId exc) := by
  unfold BatchWorker.fail
  rw [Block.meets_locals_bind]
  let returns : Bool → Except PyExc Unit → Prop := fun marked outcome => marked = false ∧ outcome = .ok ()
  have hmark : Block.Meets (calmEnd jobId) (Block.calmPost fun marked outcome _ => EndedWell marked outcome)
      (some false) l (do
        let _ ← Block.await (batchCall (.markFailed jobId (exc.codeOr "batch_job_failed") exc.text))
        pure true) := by
    refine Block.meets_calm_perform_bind ⟨rfl, rfl⟩ ?_ fun _ => Block.meets_calm_pure ⟨rfl, rfl⟩
    intro raised hkind
    cases mayFail_of_drainKind hkind
  have hrest : ∀ body : BatchProgram Unit, body.Follows (calmEnd jobId) (calmDone returns) (some false) →
      Block.Meets (calmEnd jobId) (Block.calmPost fun marked outcome _ => EndedWell marked outcome) (some false) l (do
        Block.await body
        let _ ← Block.await (batchCall (.markFailed jobId (exc.codeOr "batch_job_failed") exc.text))
        pure true) := by
    intro body hbody
    refine Block.meets_calm_await_bind (fun _ => (Block.quiet_await _).bind fun _ => Block.quiet_pure _) hbody ?_ ?_
    · intro ψ raised hleft
      cases hleft.2
    · intro ψ value hleft
      obtain ⟨rfl, -⟩ := hleft
      exact hmark
  refine Block.meets_calm_await_bind ?_ (show Program.Follows _ (calmDone returns) _ _ from ?_) ?_ ?_
  · exact fun _ => (Block.quiet_await _).bind fun _ => (Block.quiet_await _).bind fun _ => Block.quiet_pure _
  · cases l.admissionLease with
    | none => exact Program.calmDone_some ⟨rfl, rfl⟩
    | some lease =>
        refine Program.follows_calm_perform trivial ?_ fun _ => ⟨rfl, rfl⟩
        intro raised hkind
        cases mayFail_of_drainKind hkind
  · intro ψ raised hleft
    cases hleft.2
  intro ψ value hleft
  obtain ⟨rfl, -⟩ := hleft
  apply hrest
  cases l.auditRecordId with
  | none => exact Program.calmDone_some ⟨rfl, rfl⟩
  | some recordId =>
      refine Program.follows_calm_perform_bind trivial ?_ fun latencyMs => ?_
      · intro raised hkind
        cases mayFail_of_drainKind hkind
      · refine Program.follows_calm_perform trivial ?_ fun _ => ⟨rfl, rfl⟩
        intro raised hkind
        cases mayFail_of_drainKind hkind

theorem meets_leave_end (l : WorkerLocals) (marked : Bool) :
    Block.Meets (calmEnd jobId) (Block.calmPost fun ψ outcome _ => ψ = marked ∧ outcome = .ok ()) (some marked) l
      BatchWorker.leave := by
  unfold BatchWorker.leave
  rw [Block.meets_locals_bind]
  apply Block.meets_calm_await
  cases l.admissionLease with
  | none => exact Program.calmDone_some ⟨rfl, rfl⟩
  | some lease =>
      refine Program.follows_calm_perform trivial ?_ fun _ => ⟨rfl, rfl⟩
      intro raised hkind
      cases mayFail_of_drainKind hkind

/-- **A running job is ended**, and the worker goes on to its next round. -/
theorem follows_runJob_end (self : BatchWorker)
    (hestimator : ∀ text exc, self.tokenEstimator text = .error exc → exc.isException = true)
    (running : BatchJobRecord) :
    (self.runJob jobId running).Follows (calmEnd jobId) (calmDone EndedWell) (some false) := by
  unfold BatchWorker.runJob
  have hid : generateRequestId.Follows (calmEnd jobId)
      (calmDone fun marked outcome => marked = false ∧ outcome.isOk = true) (some false) := by
    refine Program.follows_calm_perform_bind trivial ?_ fun hex => Program.calmDone_some ⟨rfl, rfl⟩
    intro exc hkind
    cases mayFail_of_drainKind hkind
  apply Program.follows_calm_bind hid
  · intro marked exc hleft
    cases hleft.2
  intro marked requestId hleft
  obtain ⟨rfl, -⟩ := hleft
  apply Block.Meets.calm_toProgram
  have hbody : ∀ authContext, Block.Meets (calmEnd jobId)
      (Block.calmPost fun marked outcome _ => EndedWell marked outcome) (some false) ⟨none, none⟩
      (Block.tryExcept PyExc.isException (self.complete jobId running requestId authContext)
        (BatchWorker.fail jobId)) := by
    intro authContext
    apply Block.meets_calm_tryExcept (quiet_fail jobId) (meets_complete_end self hestimator running requestId _ _)
    · intro marked value l hmarked
      obtain ⟨hmarked, rfl⟩ := hmarked
      exact ⟨hmarked, rfl⟩
    · intro marked exc l hraised _
      obtain ⟨rfl, -⟩ := hraised
      exact meets_fail_end exc l
    · intro marked exc l hraised hcatches
      rw [hraised.2] at hcatches
      cases hcatches
  apply Block.meets_calm_tryFinally quiet_leave (hbody _)
  intro marked outcome l hleft
  apply (meets_leave_end l marked).mono
  intro ψ left l' hsame χ hχ
  obtain ⟨rfl, rfl⟩ := hsame χ hχ
  exact hleft

end Ends

/-- The calls of the worker on its job: they leave the queue alone, and create no job. -/
def BatchOp.OffQueue : BatchOp → Prop
  | .create _ _ _ => False
  | .listRecoverable _ => False
  | .enqueue _ => False
  | .dequeue => False
  | _ => True

theorem makes_emitUsageEvent_offQueue (self : BatchWorker) (event : UsageEvent) :
    (self.emitUsageEvent event).Makes BatchOp.OffQueue := by
  unfold BatchWorker.emitUsageEvent
  split
  · refine Program.Makes.tryExcept ?_ fun _ => Program.makes_ret ()
    exact Program.Makes.bind (Program.makes_perform trivial) fun _ => Program.makes_ret ()
  · exact Program.makes_ret ()

theorem makes_runJob_offQueue (self : BatchWorker) (jobId : String) (running : BatchJobRecord) :
    (self.runJob jobId running).Makes BatchOp.OffQueue := by
  have hcall : ∀ {op : BatchOp}, op.OffQueue → Block.Makes BatchOp.OffQueue
      (Block.await (batchCall op) : WorkerBlock op.Res) := fun hop => Block.makes_await (Program.makes_perform hop)
  have hthen : ∀ {op : BatchOp} {rest : op.Res → WorkerBlock Bool}, op.OffQueue →
      (∀ value, (rest value).Makes BatchOp.OffQueue) →
      (Block.await (batchCall op) >>= rest).Makes BatchOp.OffQueue := fun hop hrest => (hcall hop).bind hrest
  have hcomplete : ∀ requestId authContext,
      (self.complete jobId running requestId authContext).Makes BatchOp.OffQueue := by
    intro requestId authContext
    refine (Block.makes_lift _).bind fun requestBody => (Block.makes_lift _).bind fun tokenPlan => ?_
    refine hthen (by trivial) fun lease => (Block.makes_assign _).bind fun _ => ?_
    refine hthen (by trivial) fun recordId => (Block.makes_assign _).bind fun _ => ?_
    refine hthen (by trivial) fun response => (Block.makes_lift _).bind fun usage => ?_
    refine hthen (by trivial) fun _ => hthen (by trivial) fun latencyMs => ?_
    refine hthen (by trivial) fun _ => hthen (by trivial) fun _ => ?_
    exact (Block.makes_await (makes_emitUsageEvent_offQueue self _)).bind fun _ => Block.makes_pure true
  have hfail : ∀ exc, (BatchWorker.fail jobId exc).Makes BatchOp.OffQueue := by
    intro exc
    refine Block.makes_locals.bind fun l => ?_
    refine Block.Makes.bind ?_ fun _ => Block.Makes.bind ?_ fun _ => hthen (by trivial) fun _ => Block.makes_pure true
    · cases l.admissionLease with
      | none => exact Block.makes_await (Program.makes_ret ())
      | some lease => exact hcall trivial
    · cases l.auditRecordId with
      | none => exact Block.makes_await (Program.makes_ret ())
      | some recordId =>
          refine Block.makes_await (Program.Makes.bind (Program.makes_perform trivial) fun latencyMs => ?_)
          exact Program.makes_perform trivial
  have hleave : BatchWorker.leave.Makes BatchOp.OffQueue := by
    refine Block.makes_locals.bind fun l => ?_
    cases l.admissionLease with
    | none => exact Block.makes_await (Program.makes_ret ())
    | some lease => exact hcall trivial
  refine Program.Makes.bind ?_ fun requestId => ?_
  · exact Program.Makes.bind (Program.makes_perform trivial) fun _ => Program.makes_ret _
  · exact Block.Makes.toProgram (((hcomplete _ _).tryExcept hfail).tryFinally hleave) _

section Yields

variable {S : Type} {store : BatchJobStore S} {w w' : BatchWorld S} {jobId : String}

/-- A call that may not raise returns. -/
theorem yields_up_bind {α : Type} {op : BatchOp} {rest : op.Res → BatchProgram α} {outcome : Except PyExc α}
    (hreliable : op.mayFail = false) (h : ((batchCall op).bind rest).Yields store.upExec w outcome w') :
    ∃ value middle, store.Replies w op value middle.store ∧ middle.queue = queueAfter w.queue op ∧
      (rest value).Yields store.upExec middle outcome w' := by
  obtain ⟨answer, middle, ⟨hexec, hraises⟩, hrest⟩ := h
  cases answer with
  | error exc =>
      have hkind := mayFail_of_drainKind (hraises exc rfl)
      rw [hreliable] at hkind
      cases hkind
  | ok value => exact ⟨value, middle, hexec.1, hexec.2, hrest⟩

/-- The job of the worker, as far as the table shows it. -/
def Ending (table : JobTable) (jobId : String) (marked : Option Bool) (table' : JobTable) : Prop :=
  ∃ status, table' = table.set jobId status ∧
    ((marked = some false ∧ status = .running) ∨ (marked = some true ∧ status.terminal = true))

theorem set_set (table : JobTable) (jobId : String) (first last : JobStatus) :
    (table.set jobId first).set jobId last = table.set jobId last := by
  simp [JobTable.set]

/-- One call of the worker on its job: a mark ends the job that is running, and no other call changes the table. -/
theorem ending_step {φ : Option Bool} {op : BatchOp} {s s' : BatchWorld S} {answer : Except PyExc op.Res}
    {table : JobTable} (hending : Ending table jobId φ (store.table s.store)) (hmay : (calmEnd jobId).may φ op)
    (hexec : store.upExec op s answer s') :
    Ending table jobId ((calmEnd jobId).after φ op answer) (store.table s'.store) := by
  obtain ⟨hcall, hraises⟩ := hexec
  have hafter : ∀ marked, φ = some marked → (calmEnd jobId).after φ op answer =
      some ((endProtocol jobId).after marked op answer) := by
    rintro marked rfl
    cases answer with
    | ok value => rfl
    | error exc => simp only [Protocol.calm, hraises exc rfl, if_true]
  obtain ⟨status, htable, hstatus⟩ := hending
  obtain ⟨marked, rfl⟩ : ∃ marked, φ = some marked := by
    rcases hstatus with ⟨hmarked, -⟩ | ⟨hmarked, -⟩
    · exact ⟨_, hmarked⟩
    · exact ⟨_, hmarked⟩
  rw [hafter marked rfl]
  have hrefines := store.exec_refines op s answer s' hcall
  have hmark : ∀ {target : JobStatus} {record : Option BatchJobRecord}, marked = false → target.terminal = true →
      (store.table s.store).Marks jobId target record (store.table s'.store) →
      Ending table jobId (some true) (store.table s'.store) := by
    rintro target record rfl hterminal hmarks
    have hrunning : status = .running := by
      rcases hstatus with ⟨-, hrunning⟩ | ⟨hmarked, -⟩
      · exact hrunning
      · cases hmarked
    subst hrunning
    cases record with
    | none =>
        have hcancelled := hmarks.2 .running (by rw [htable, JobTable.set_self]; rfl)
        cases hcancelled
    | some record =>
        obtain ⟨-, -, -, hset⟩ := hmarks
        refine ⟨target, ?_, .inr ⟨rfl, hterminal⟩⟩
        rw [hset, htable, set_set]
  have hsame : store.table s'.store = store.table s.store →
      Ending table jobId (some marked) (store.table s'.store) := by
    intro heq
    exact ⟨status, heq.trans htable, hstatus⟩
  cases op
  case create => exact hmay.elim
  case transition => exact hmay.elim
  case enqueue => exact hmay.elim
  case dequeue => exact hmay.elim
  case markSucceeded other result usage =>
    obtain ⟨hmarked, rfl⟩ := hmay
    cases answer with
    | error exc => exact hsame hrefines
    | ok record => exact hmark hmarked rfl hrefines
  case markFailed other code message =>
    obtain ⟨hmarked, rfl⟩ := hmay
    cases answer with
    | error exc => cases mayFail_of_drainKind (hraises exc rfl)
    | ok record => exact hmark hmarked rfl hrefines
  case get other =>
    cases answer with
    | error exc => cases mayFail_of_drainKind (hraises exc rfl)
    | ok record => exact hsame hrefines.2
  all_goals exact hsame (by cases answer <;> exact hrefines)

/-- **A round with a job** ends it, and touches neither another job nor the queue. -/
theorem yields_runJob_up (self : BatchWorker)
    (hestimator : ∀ text exc, self.tokenEstimator text = .error exc → exc.isException = true)
    {running : BatchJobRecord} {outcome : Except PyExc Bool} {table : JobTable}
    (h : (self.runJob jobId running).Yields store.upExec w outcome w')
    (hstart : store.table w.store = table.set jobId .running) :
    outcome = .ok true ∧ w'.queue = w.queue ∧
      ∃ status, status.terminal = true ∧ store.table w'.store = table.set jobId status := by
  have hqueue : w'.queue = w.queue := by
    refine (makes_runJob_offQueue self jobId running).yields ?_ h
    intro op s answer s' hoff hexec
    have hsame : queueAfter s.queue op = s.queue := by
      cases op <;> first | exact hoff.elim | rfl
    cases answer with
    | ok value => exact hexec.1.2.trans hsame
    | error exc => exact hexec.1.2.elim id fun hafter => hafter.trans hsame
  obtain ⟨ψ, hends, hdone⟩ : ∃ ψ, Ending table jobId ψ (store.table w'.store) ∧ calmDone EndedWell ψ outcome := by
    refine (follows_runJob_end self hestimator running).yields
      (fun φ w => Ending table jobId φ (store.table w.store)) h ⟨.running, hstart, .inl ⟨rfl, rfl⟩⟩ ?_
    intro φ op s answer s' hending hmay hexec
    exact ending_step hending hmay hexec
  obtain ⟨status, htable, hstatus⟩ := hends
  rcases hstatus with ⟨rfl, -⟩ | ⟨rfl, hterminal⟩
  · cases (hdone false rfl).1
  · exact ⟨(hdone true rfl).2, hqueue, status, hterminal, htable⟩

/-- The queued jobs among `jobs` have ended, and nothing else has changed. -/
def Worked (jobs : List String) (table table' : JobTable) : Prop :=
  ∀ jobId,
    (jobId ∈ jobs ∧ table jobId = some .queued → ∃ status ∈ table' jobId, status.terminal = true) ∧
    (¬ (jobId ∈ jobs ∧ table jobId = some .queued) → table' jobId = table jobId)

theorem worked_nil (table : JobTable) : Worked [] table table := by
  intro jobId
  refine ⟨?_, fun _ => rfl⟩
  rintro ⟨hmem, -⟩
  cases hmem

theorem worked_same {jobId : String} {table : JobTable} (h : table jobId ≠ some .queued) : Worked [jobId] table table := by
  intro other
  refine ⟨?_, fun _ => rfl⟩
  rintro ⟨hmem, hqueued⟩
  rw [List.mem_singleton.mp hmem] at hqueued
  exact absurd hqueued h

theorem worked_set {jobId : String} {table : JobTable} {status : JobStatus} (hqueued : table jobId = some .queued)
    (hterminal : status.terminal = true) : Worked [jobId] table (table.set jobId status) := by
  intro other
  refine ⟨?_, ?_⟩
  · rintro ⟨hmem, -⟩
    rw [List.mem_singleton.mp hmem, JobTable.set_self]
    exact ⟨status, rfl, hterminal⟩
  · intro hnot
    apply JobTable.set_other
    rintro rfl
    exact hnot ⟨List.mem_singleton_self _, hqueued⟩

theorem Worked.append {first last : List String} {table middle table' : JobTable} (hfirst : Worked first table middle)
    (hlast : Worked last middle table') : Worked (first ++ last) table table' := by
  intro jobId
  obtain ⟨hends, hkept⟩ := hfirst jobId
  obtain ⟨hends', hkept'⟩ := hlast jobId
  by_cases hin : jobId ∈ first ∧ table jobId = some .queued
  · obtain ⟨status, hstatus, hterminal⟩ := hends hin
    have hstays : table' jobId = middle jobId := by
      apply hkept'
      rintro ⟨-, hqueued⟩
      rw [hqueued] at hstatus
      cases hstatus
      cases hterminal
    refine ⟨fun _ => ⟨status, hstays ▸ hstatus, hterminal⟩, ?_⟩
    intro hnot
    exact absurd ⟨List.mem_append_left _ hin.1, hin.2⟩ hnot
  · rw [← hkept hin]
    refine ⟨?_, ?_⟩
    · rintro ⟨hmem, hqueued⟩
      refine hends' ⟨(List.mem_append.mp hmem).resolve_left ?_, hqueued⟩
      intro hfirst
      exact hin ⟨hfirst, hkept hin ▸ hqueued⟩
    · intro hnot
      apply hkept'
      rintro ⟨hmem, hqueued⟩
      exact hnot ⟨List.mem_append_right _ hmem, hqueued⟩

/-- **One round** takes the first entry of the queue and ends its job. -/
theorem yields_processOne_up (self : BatchWorker) (hruns : self.shouldRunJob = false)
    (hestimator : ∀ text exc, self.tokenEstimator text = .error exc → exc.isException = true)
    {outcome : Except PyExc Bool} (h : self.processOne.Yields store.upExec w outcome w') :
    outcome.isOk = true ∧ w'.queue = w.queue.drop 1 ∧
      Worked (w.queue.take 1) (store.table w.store) (store.table w'.store) := by
  obtain ⟨entry, popped, ⟨rfl, hstore⟩, hpopped, h⟩ := yields_up_bind rfl h
  have hpopped : popped.queue = w.queue.drop 1 := hpopped.trans (List.drop_one).symm
  rw [← hstore, ← hpopped]
  cases hentry : w.queue.head? with
  | none =>
      rw [hentry] at h
      obtain ⟨rfl, rfl⟩ := h
      have hempty : w.queue = [] := List.head?_eq_none_iff.mp hentry
      rw [hempty]
      exact ⟨rfl, rfl, worked_nil _⟩
  | some jobId =>
  rw [hentry] at h
  have hfirst : w.queue.take 1 = [jobId] := by
    obtain ⟨rest, hrest⟩ := List.head?_eq_some_iff.mp hentry
    rw [hrest]
    rfl
  rw [hfirst]
  obtain ⟨record, found, ⟨rfl, hsame⟩, hfound, h⟩ := yields_up_bind rfl h
  have hfound : found.queue = popped.queue := hfound
  obtain ⟨hshows, -⟩ := store.get_shows jobId popped.store
  rw [← hsame, ← hfound]
  rw [← hsame] at hshows h
  have hidle : store.table found.store jobId ≠ some .queued →
      (Pure.pure false : BatchProgram Bool).Yields store.upExec found outcome w' →
      outcome.isOk = true ∧ w'.queue = found.queue ∧ Worked [jobId] (store.table found.store) (store.table w'.store) := by
    rintro hnot ⟨rfl, rfl⟩
    exact ⟨rfl, rfl, worked_same hnot⟩
  cases hrecord : store.get jobId found.store with
  | none =>
      rw [hrecord] at h hshows
      refine hidle ?_ h
      rw [← hshows]
      nofun
  | some job =>
  rw [hrecord] at h hshows
  dsimp only at h
  split at h
  · rename_i hcancelled
    refine hidle ?_ h
    rw [← hshows, Option.map_some, hcancelled]
    nofun
  have hnow : self.postpones = pure false := by
    rw [BatchWorker.postpones, hruns]
    rfl
  rw [hnow] at h
  obtain ⟨moved, running, hmoves, hmoved, h⟩ := yields_up_bind rfl h
  have hmoves := store.transition_spec _ _ _ _ _ hmoves
  have hmoved : running.queue = found.queue := hmoved
  cases moved with
  | none =>
      obtain ⟨rfl, rfl⟩ := h
      obtain ⟨htable, hrefused⟩ := hmoves
      refine ⟨rfl, hmoved, ?_⟩
      rw [htable]
      apply worked_same
      intro hqueued
      cases hrefused .queued hqueued
  | some record =>
      obtain ⟨⟨status, hstatus, hallowed⟩, -, -, htable⟩ := hmoves
      obtain rfl := canTransition_running.mp hallowed
      obtain ⟨rfl, hqueue, status, hterminal, hends⟩ := yields_runJob_up self hestimator h htable
      refine ⟨rfl, hqueue.trans hmoved, ?_⟩
      rw [hends]
      exact worked_set hstatus hterminal

/-- `n` rounds end the queued jobs among the first `n` entries of the queue. -/
theorem yields_rounds_up (self : BatchWorker) (hruns : self.shouldRunJob = false)
    (hestimator : ∀ text exc, self.tokenEstimator text = .error exc → exc.isException = true) (n : Nat)
    {outcome : Except PyExc Unit} (h : (self.rounds n).Yields store.upExec w outcome w') :
    outcome = .ok () ∧ w'.queue = w.queue.drop n ∧
      Worked (w.queue.take n) (store.table w.store) (store.table w'.store) := by
  induction n generalizing w with
  | zero =>
      obtain ⟨rfl, rfl⟩ := h
      exact ⟨rfl, rfl, worked_nil _⟩
  | succ n ih =>
      rcases (Program.yields_bind _ _ _ _ _ _).mp h with ⟨done, middle, hround, hrest⟩ | ⟨exc, hround, -⟩
      · obtain ⟨-, hqueue, hworked⟩ := yields_processOne_up self hruns hestimator hround
        obtain ⟨rfl, hqueue', hworked'⟩ := ih hrest
        rw [hqueue] at hqueue' hworked'
        rw [List.drop_drop, Nat.add_comm] at hqueue'
        refine ⟨rfl, hqueue', ?_⟩
        have htake : w.queue.take (n + 1) = w.queue.take 1 ++ (w.queue.drop 1).take n := by
          rw [← List.take_add, Nat.add_comm]
        rw [htake]
        exact hworked.append hworked'
      · cases (yields_processOne_up self hruns hestimator hround).1

namespace BatchJobStore

/-- The queued jobs of a store, in the order in which it lists them. -/
structure Backlog (store : BatchJobStore S) (s : S) (backlog : List String) : Prop where
  nodup : backlog.Nodup
  mem : ∀ jobId, jobId ∈ backlog ↔ store.table s jobId = some .queued
  lists : ∀ limit : Int, 0 ≤ limit → ∃ jobs, store.listRecoverable limit s = .ok jobs ∧
    jobs.map BatchJobRecord.id = backlog.take limit.toNat

end BatchJobStore

theorem InMemoryBatchJobStore.exists_backlog (self : InMemoryBatchJobStore) :
    ∃ backlog, InMemoryBatchJobStore.store.Backlog self backlog := by
  refine ⟨(self.jobs.rows.filter fun job => job.status = .queued).map BatchJobRecord.id, ?_, ?_, ?_⟩
  · exact self.jobs.nodup.sublist (List.filter_sublist.map _)
  · intro jobId
    constructor
    · intro hmem
      obtain ⟨job, hjob, rfl⟩ := List.mem_map.mp hmem
      obtain ⟨hrow, hqueued⟩ := List.mem_filter.mp hjob
      have hstatus : job.status = .queued := of_decide_eq_true hqueued
      calc (self.jobs.find job.id).map BatchJobRecord.status
          = some job.status := by rw [KeyedTable.find_of_mem hrow]; rfl
        _ = some .queued := by rw [hstatus]
    · intro hqueued
      obtain ⟨job, hjob, hstatus⟩ := Option.map_eq_some_iff.mp hqueued
      rw [← KeyedTable.key_of_find hjob]
      exact List.mem_map_of_mem (List.mem_filter.mpr ⟨KeyedTable.mem_of_find hjob, decide_eq_true hstatus⟩)
  · intro limit hlimit
    refine ⟨_, rfl, ?_⟩
    rw [InMemoryBatchJobStore.listRecoverable, sliceTo, if_pos hlimit, List.map_take]

theorem PostgresBatchJobStore.exists_backlog (db : Db) : ∃ backlog, PostgresBatchJobStore.store.Backlog db backlog := by
  let matching := (db .batchJobs).rows.filter fun job => job.status = .queued
  let sorted := matching.mergeSort fun a b => a.createdAt ≤ b.createdAt
  have hperm : sorted.Perm matching := List.mergeSort_perm _ _
  refine ⟨sorted.map BatchJob.id, ?_, ?_, ?_⟩
  · rw [(hperm.map _).nodup_iff]
    exact (db .batchJobs).nodup.sublist (List.filter_sublist.map _)
  · intro jobId
    rw [(hperm.map _).mem_iff]
    constructor
    · intro hmem
      obtain ⟨job, hjob, rfl⟩ := List.mem_map.mp hmem
      obtain ⟨hrow, hqueued⟩ := List.mem_filter.mp hjob
      have hstatus : job.status = .queued := of_decide_eq_true hqueued
      have hfind : (db .batchJobs).find job.id = some job := KeyedTable.find_of_mem hrow
      calc ((db .batchJobs).find job.id).map BatchJob.status
          = some job.status := by rw [hfind]; rfl
        _ = some .queued := by rw [hstatus]
    · intro hqueued
      obtain ⟨job, hjob, hstatus⟩ := Option.map_eq_some_iff.mp hqueued
      have hid : job.id = jobId := KeyedTable.key_of_find hjob
      rw [← hid]
      exact List.mem_map_of_mem (List.mem_filter.mpr ⟨KeyedTable.mem_of_find hjob, decide_eq_true hstatus⟩)
  · intro limit hlimit
    have hselect : PostgresBatchJobStore.recoverable db limit = .ok ((sorted.take limit.toNat).map recordFromModel) := by
      unfold PostgresBatchJobStore.recoverable selectByStatus
      rw [if_neg (Int.not_lt.mpr hlimit)]
      rfl
    refine ⟨_, hselect, ?_⟩
    rw [List.map_map, ← List.map_take]
    rfl

/-- The loop of a scan puts those jobs behind the queue that it has not found there. -/
theorem yields_reenqueue_up {jobs : List BatchJobRecord} {requeued : Int} {outcome : Except PyExc Int}
    (h : (BatchRecoveryScanner.reenqueue jobs requeued).Yields store.upExec w outcome w') :
    outcome.isOk = true ∧ w'.store = w.store ∧
      ∃ put, w'.queue = w.queue ++ put ∧ put.length ≤ jobs.length ∧ ∀ job ∈ jobs, job.id ∈ w'.queue := by
  induction jobs generalizing requeued w with
  | nil =>
      obtain ⟨rfl, rfl⟩ := h
      exact ⟨rfl, rfl, [], (List.append_nil _).symm, Nat.le_refl _, List.forall_mem_nil _⟩
  | cons job jobs ih =>
      obtain ⟨contained, looked, ⟨rfl, hstore⟩, hqueue, h⟩ := yields_up_bind rfl h
      have hqueue : looked.queue = w.queue := hqueue
      by_cases hmem : job.id ∈ w.queue
      · rw [decide_eq_true hmem, if_pos rfl] at h
        obtain ⟨hok, hsame, put, hput, hlength, hfound⟩ := ih h
        rw [hqueue] at hput
        refine ⟨hok, hsame.trans hstore, put, hput, Nat.le_succ_of_le hlength, ?_⟩
        refine List.forall_mem_cons.mpr ⟨?_, hfound⟩
        rw [hput]
        exact List.mem_append_left _ hmem
      · rw [decide_eq_false hmem, if_neg Bool.false_ne_true] at h
        obtain ⟨_, after, hsame, hafter, h⟩ := yields_up_bind rfl h
        have hsame : after.store = looked.store := hsame
        have hafter : after.queue = looked.queue ++ [job.id] := hafter
        obtain ⟨hok, hkept, put, hput, hlength, hfound⟩ := ih h
        rw [hafter, hqueue, List.append_assoc] at hput
        refine ⟨hok, (hkept.trans hsame).trans hstore, job.id :: put, hput, Nat.succ_le_succ hlength, ?_⟩
        refine List.forall_mem_cons.mpr ⟨?_, hfound⟩
        rw [hput]
        exact List.mem_append_right _ List.mem_cons_self

/-- **A scan** leaves the store alone and puts the first queued jobs into the queue. -/
theorem yields_scan_up {limit : Int} {backlog : List String} (hbacklog : store.Backlog w.store backlog)
    (hlimit : 0 ≤ limit) {outcome : Except PyExc Int}
    (h : (BatchRecoveryScanner.reenqueueMissing limit).Yields store.upExec w outcome w') :
    outcome.isOk = true ∧ w'.store = w.store ∧ w'.queue.length ≤ w.queue.length + limit.toNat ∧
      w.queue <+: w'.queue ∧ ∀ jobId ∈ backlog.take limit.toNat, jobId ∈ w'.queue := by
  obtain ⟨jobs, listed, ⟨hjobs, hstore⟩, hqueue, h⟩ := yields_up_bind rfl h
  have hqueue : listed.queue = w.queue := hqueue
  obtain ⟨jobs', hjobs', hids⟩ := hbacklog.lists limit hlimit
  obtain rfl : jobs = jobs' := Except.ok.inj (hjobs.symm.trans hjobs')
  obtain ⟨hok, hkept, put, hput, hlength, hfound⟩ := yields_reenqueue_up h
  have hfew : jobs.length ≤ limit.toNat := by
    rw [← List.length_map (f := BatchJobRecord.id), hids]
    exact List.length_take_le _ _
  rw [hqueue] at hput
  refine ⟨hok, hkept.trans hstore, ?_, ⟨put, hput.symm⟩, ?_⟩
  · rw [hput, List.length_append]
    omega
  · intro jobId hmem
    rw [← hids] at hmem
    obtain ⟨job, hjob, rfl⟩ := List.mem_map.mp hmem
    exact hfound job hjob

/-! ### Scans and rounds in turn -/

/-- It matters only which queued jobs are in the list. -/
theorem Worked.covers {jobs jobs' : List String} {table table' : JobTable} (h : Worked jobs table table')
    (hsame : ∀ jobId, table jobId = some .queued → (jobId ∈ jobs ↔ jobId ∈ jobs')) : Worked jobs' table table' := by
  intro jobId
  have hiff : (jobId ∈ jobs ∧ table jobId = some .queued) ↔ (jobId ∈ jobs' ∧ table jobId = some .queued) :=
    and_congr_left (hsame jobId)
  rw [← hiff]
  exact h jobId

theorem yields_drain_up (self : BatchWorker) (hruns : self.shouldRunJob = false)
    (hestimator : ∀ text exc, self.tokenEstimator text = .error exc → exc.isException = true)
    (hlists : ∀ s, ∃ backlog, store.Backlog s backlog) {limit : Int} (hlimit : 0 < limit) {n cycles : Nat}
    (hrounds : w.queue.length + limit.toNat ≤ n) {backlog : List String}
    (hcovers : ∀ jobId, store.table w.store jobId = some .queued → jobId ∈ backlog)
    (hmany : backlog.length ≤ cycles * limit.toNat) {outcome : Except PyExc Unit}
    (h : (self.drain limit n cycles).Yields store.upExec w outcome w') :
    outcome = .ok () ∧ Worked backlog (store.table w.store) (store.table w'.store) := by
  induction cycles generalizing w backlog with
  | zero =>
      obtain ⟨rfl, rfl⟩ := h
      have hnone : backlog = [] := List.length_eq_zero_iff.mp (by omega)
      rw [hnone]
      exact ⟨rfl, worked_nil _⟩
  | succ cycles ih =>
      obtain ⟨listed, hlisted⟩ := hlists w.store
      rcases (Program.yields_bind _ _ _ _ _ _).mp h with ⟨count, scanned, hscan, h⟩ | ⟨exc, hscan, -⟩
      swap
      · cases (yields_scan_up hlisted (Int.le_of_lt hlimit) hscan).1
      obtain ⟨-, hstore, hlength, -, hfound⟩ := yields_scan_up hlisted (Int.le_of_lt hlimit) hscan
      rcases (Program.yields_bind _ _ _ _ _ _).mp h with ⟨_, worked, hwork, h⟩ | ⟨exc, hwork, -⟩
      swap
      · cases (yields_rounds_up self hruns hestimator n hwork).1
      obtain ⟨-, hqueue, hends⟩ := yields_rounds_up self hruns hestimator n hwork
      rw [List.drop_eq_nil_of_le (by omega)] at hqueue
      rw [List.take_of_length_le (by omega), hstore] at hends
      have hleft : ∀ jobId, store.table worked.store jobId = some .queued → jobId ∈ listed.drop limit.toNat := by
        intro jobId hqueued
        obtain ⟨hended, hkept⟩ := hends jobId
        have hnot : ¬ (jobId ∈ scanned.queue ∧ store.table w.store jobId = some .queued) := by
          intro hin
          obtain ⟨status, hstatus, hterminal⟩ := hended hin
          rw [hqueued] at hstatus
          cases hstatus
          cases hterminal
        have hbefore : store.table w.store jobId = some .queued := (hkept hnot).symm.trans hqueued
        have hmem : jobId ∈ listed.take limit.toNat ++ listed.drop limit.toNat := by
          rw [List.take_append_drop]
          exact (hlisted.mem jobId).mpr hbefore
        refine (List.mem_append.mp hmem).resolve_left ?_
        intro hfirst
        exact hnot ⟨hfound jobId hfirst, hbefore⟩
      have hfewer : listed.length ≤ backlog.length := by
        apply List.Subperm.length_le
        apply List.subperm_of_subset hlisted.nodup
        intro jobId hmem
        exact hcovers jobId ((hlisted.mem jobId).mp hmem)
      have hrest : (listed.drop limit.toNat).length ≤ cycles * limit.toNat := by
        rw [List.length_drop]
        have hsplit : (cycles + 1) * limit.toNat = cycles * limit.toNat + limit.toNat := Nat.succ_mul _ _
        omega
      obtain ⟨rfl, hends'⟩ := ih (by rw [hqueue, List.length_nil]; omega) hleft hrest h
      refine ⟨rfl, (hends.append hends').covers ?_⟩
      intro jobId hqueued
      refine iff_of_true ?_ (hcovers jobId hqueued)
      by_cases hin : jobId ∈ scanned.queue
      · exact List.mem_append_left _ hin
      · refine List.mem_append_right _ (hleft jobId ?_)
        exact ((hends jobId).2 fun h => hin h.1).trans hqueued

/-- The calls of a scanner and of a worker. -/
def BatchOp.Draining : BatchOp → Prop
  | .create _ _ _ => False
  | .listRecoverable limit => 0 ≤ limit
  | _ => True

theorem makes_processOne_draining (self : BatchWorker) : self.processOne.Makes BatchOp.Draining := by
  have hcall : ∀ {op : BatchOp}, op.Draining → (batchCall op).Makes BatchOp.Draining := Program.makes_perform
  refine (hcall (by trivial)).bind fun entry => ?_
  cases entry with
  | none => exact Program.makes_ret false
  | some jobId =>
  refine (hcall (by trivial)).bind fun record => ?_
  cases record with
  | none => exact Program.makes_ret false
  | some job =>
  dsimp only
  split
  · exact Program.makes_ret false
  refine Program.Makes.bind ?_ fun postponed => ?_
  · unfold BatchWorker.postpones
    split
    · exact (hcall (by trivial)).bind fun run => Program.makes_ret _
    · exact Program.makes_ret false
  split
  · exact (hcall (by trivial)).bind fun _ => Program.makes_ret false
  · refine (hcall (by trivial)).bind fun moved => ?_
    cases moved with
    | none => exact Program.makes_ret false
    | some running =>
        refine (makes_runJob_offQueue self jobId running).mono ?_
        intro op hoff
        cases op <;> first | exact hoff.elim | trivial

theorem makes_rounds_draining (self : BatchWorker) (n : Nat) : (self.rounds n).Makes BatchOp.Draining := by
  induction n with
  | zero => exact Program.makes_ret ()
  | succ n ih => exact (makes_processOne_draining self).bind fun _ => ih

theorem makes_reenqueue_draining (jobs : List BatchJobRecord) (requeued : Int) :
    (BatchRecoveryScanner.reenqueue jobs requeued).Makes BatchOp.Draining := by
  induction jobs generalizing requeued with
  | nil => exact Program.makes_ret requeued
  | cons job jobs ih =>
      refine Program.Makes.bind (Program.makes_perform trivial) fun contained => ?_
      split
      · exact ih requeued
      · exact Program.Makes.bind (Program.makes_perform trivial) fun _ => ih _

theorem makes_drain_draining (self : BatchWorker) {limit : Int} (hlimit : 0 ≤ limit) (n cycles : Nat) :
    (self.drain limit n cycles).Makes BatchOp.Draining := by
  induction cycles with
  | zero => exact Program.makes_ret ()
  | succ cycles ih =>
      refine Program.Makes.bind ?_ fun _ => Program.Makes.bind (makes_rounds_draining self n) fun _ => ih
      exact Program.Makes.bind (Program.makes_perform hlimit) fun jobs => makes_reenqueue_draining jobs 0

/-- The store has an answer to every call on a job. -/
structure BatchJobStore.Answers (store : BatchJobStore S) : Prop where
  transition : ∀ jobId target s, ∃ record s', store.transition jobId target s record s'
  markSucceeded : ∀ jobId result usage s, ∃ record s', store.markSucceeded jobId result usage s record s'
  markFailed : ∀ jobId code message s, ∃ record s', store.markFailed jobId code message s record s'

theorem exists_upExec (hanswers : store.Answers) (hlists : ∀ s, ∃ backlog, store.Backlog s backlog) (op : BatchOp)
    (w : BatchWorld S) (hop : op.Draining) : ∃ answer w', store.upExec op w answer w' := by
  have hreturns : ∀ (value : op.Res) (s' : S), store.Replies w op value s' →
      ∃ answer w', store.upExec op w answer w' := by
    intro value s' hreplies
    exact ⟨.ok value, ⟨s', queueAfter w.queue op⟩, ⟨hreplies, rfl⟩, not_raised⟩
  cases op
  case create => exact hop.elim
  case enqueue => exact hreturns () w.store rfl
  case dequeue => exact hreturns _ w.store ⟨rfl, rfl⟩
  case contains => exact hreturns _ w.store ⟨rfl, rfl⟩
  case get => exact hreturns _ w.store ⟨rfl, rfl⟩
  case transition jobId target =>
    obtain ⟨record, s', hmoves⟩ := hanswers.transition jobId target w.store
    exact hreturns record s' hmoves
  case markSucceeded jobId result usage =>
    obtain ⟨record, s', hmarks⟩ := hanswers.markSucceeded jobId result usage w.store
    exact hreturns record s' hmarks
  case markFailed jobId code message =>
    obtain ⟨record, s', hmarks⟩ := hanswers.markFailed jobId code message w.store
    exact hreturns record s' hmarks
  case listRecoverable limit =>
    obtain ⟨backlog, hbacklog⟩ := hlists w.store
    obtain ⟨jobs, hjobs, -⟩ := hbacklog.lists limit hop
    exact hreturns jobs w.store ⟨hjobs, rfl⟩
  case shouldRunJob => exact hreturns true w.store rfl
  case uuid4 => exact hreturns "" w.store rfl
  case elapsedMs => exact hreturns 0 w.store rfl
  case admitRequest => exact hreturns ⟨0⟩ w.store rfl
  case finalizeTokens => exact hreturns () w.store rfl
  case releaseLease => exact hreturns () w.store rfl
  case startAudit => exact hreturns "" w.store rfl
  case finalizeAudit => exact hreturns () w.store rfl
  case createChatCompletion => exact hreturns [] w.store rfl
  case collect => exact hreturns true w.store rfl

end Yields

theorem InMemoryBatchJobStore.store_answers : InMemoryBatchJobStore.store.Answers where
  transition _ _ _ := ⟨_, _, rfl⟩
  markSucceeded _ _ _ _ := ⟨_, _, rfl⟩
  markFailed _ _ _ _ := ⟨_, _, rfl⟩

/-- Every queued job has ended and no other job has changed. -/
def BatchJobStore.Drained {S : Type} (store : BatchJobStore S) (s s' : S) : Prop :=
  ∀ jobId, (store.table s jobId = some .queued → ∃ status ∈ store.table s' jobId, status.terminal = true) ∧
    (store.table s jobId ≠ some .queued → store.table s' jobId = store.table s jobId)

/-- Wherever scans and rounds in turn end, the queued jobs are among `backlog`. -/
theorem drained_of_backlog {S : Type} {store : BatchJobStore S} (hlists : ∀ s, ∃ backlog, store.Backlog s backlog)
    (self : BatchWorker) (hruns : self.shouldRunJob = false)
    (hestimator : ∀ text exc, self.tokenEstimator text = .error exc → exc.isException = true) {limit : Int}
    (hlimit : 0 < limit) {n cycles : Nat} {backlog : List String} (hmany : backlog.length ≤ cycles * limit.toNat)
    {w w' : BatchWorld S} (hcovers : ∀ jobId, store.table w.store jobId = some .queued → jobId ∈ backlog)
    (hrounds : w.queue.length + limit.toNat ≤ n) {outcome : Except PyExc Unit}
    (h : (self.drain limit n cycles).Yields store.upExec w outcome w') :
    outcome = .ok () ∧ store.Drained w.store w'.store := by
  obtain ⟨hok, hworked⟩ := yields_drain_up self hruns hestimator hlists hlimit hrounds hcovers hmany h
  refine ⟨hok, ?_⟩
  intro jobId
  obtain ⟨hends, hkept⟩ := hworked jobId
  exact ⟨fun hqueued => hends ⟨hcovers jobId hqueued, hqueued⟩, fun hnot => hkept fun hin => hnot hin.2⟩

/-- **The backlog is worked off.** When the store and the queue are up, the handler of the worker can end its job, and
the token estimator raises only `Exception`s, `cycles` scans with `n` rounds of a worker after each end every queued job
and change no other job, whatever else raises: it takes as many scans as it takes to list the queued jobs, and rounds
for the queue and one scan. In memory they come to an end; Postgres, whose writes the source never commits and which
is taken here with its writes committed, refuses to mark a failure whose text holds a null character. -/
theorem backlog_drained (self : BatchWorker) (hruns : self.shouldRunJob = false)
    (hestimator : ∀ text exc, self.tokenEstimator text = .error exc → exc.isException = true) (limit : Int)
    (hlimit : 0 < limit) (n cycles : Nat) (queued : List String) (hmany : queued.length ≤ cycles * limit.toNat) :
    (∀ w : BatchWorld InMemoryBatchJobStore,
      (∀ jobId job, w.store.get jobId = some job → job.status = .queued → jobId ∈ queued) →
        w.queue.length + limit.toNat ≤ n →
          (∃ outcome w', (self.drain limit n cycles).Yields InMemoryBatchJobStore.store.upExec w outcome w') ∧
          ∀ outcome w', (self.drain limit n cycles).Yields InMemoryBatchJobStore.store.upExec w outcome w' →
            outcome = .ok () ∧ InMemoryBatchJobStore.store.Drained w.store w'.store) ∧
    ∀ w : BatchWorld Db,
      (∀ jobId job, (w.store .batchJobs).find jobId = some job → job.status = .queued → jobId ∈ queued) →
        w.queue.length + limit.toNat ≤ n →
          ∀ outcome w', (self.drain limit n cycles).Yields PostgresBatchJobStore.store.upExec w outcome w' →
            outcome = .ok () ∧ PostgresBatchJobStore.store.Drained w.store w'.store := by
  refine ⟨?_, ?_⟩
  · intro w hcovers hrounds
    refine ⟨?_, ?_⟩
    · refine (makes_drain_draining self (Int.le_of_lt hlimit) n cycles).ends ?_ w
      exact exists_upExec InMemoryBatchJobStore.store_answers InMemoryBatchJobStore.exists_backlog
    · intro outcome w' h
      refine drained_of_backlog InMemoryBatchJobStore.exists_backlog self hruns hestimator hlimit hmany ?_ hrounds h
      intro jobId hqueued
      obtain ⟨job, hjob, hstatus⟩ := Option.map_eq_some_iff.mp hqueued
      exact hcovers jobId job hjob hstatus
  · intro w hcovers hrounds outcome w' h
    refine drained_of_backlog PostgresBatchJobStore.exists_backlog self hruns hestimator hlimit hmany ?_ hrounds h
    intro jobId hqueued
    obtain ⟨job, hjob, hstatus⟩ := Option.map_eq_some_iff.mp hqueued
    exact hcovers jobId job hjob hstatus

/-- One job that the queue has lost, and whose payload is no chat request. -/
def lostDb : BatchWorld Db where
  store := Function.update tenantDb .batchJobs ⟨[backlogRow "first" 1], List.nodup_singleton _⟩
  queue := []

/-- The scan finds it, and the worker ends it. -/
theorem drain_lostDb : ∃ w', (plainWorker.drain 1 1 1).Yields PostgresBatchJobStore.store.upExec lostDb (.ok ()) w' := by
  let row := backlogRow "first" 1
  let running := BatchJobRepository.withStatus row .running 0
  let exc := validationError "validation error for ChatCompletionRequest"
  let changed := BatchJobRepository.withFailure running (exc.codeOr "batch_job_failed") exc.text "" 0
  let failed : BatchJob := DbTable.flush .batchJobs running changed running
  let db : Db := Function.update lostDb.store .batchJobs ((lostDb.store .batchJobs).replace running)
  let db' : Db := Function.update db .batchJobs ((db .batchJobs).replace failed)
  have hlisted : PostgresBatchJobStore.recoverable lostDb.store 1 = .ok [recordFromModel row] := by
    have hselect : PostgresBatchJobStore.recoverable lostDb.store 1 =
        .ok ((([row].mergeSort fun a b => a.createdAt ≤ b.createdAt).take 1).map recordFromModel) := rfl
    rw [hselect, List.mergeSort_singleton]
    rfl
  have hmoved : PostgresBatchJobStore.store.transition "first" .running lostDb.store
      (some (recordFromModel running)) db :=
    ⟨.ok (some row), _, ⟨rfl, rfl⟩, .ok (0 : Int), _, rfl, .ok running, _, ⟨rfl, rfl⟩, rfl, rfl⟩
  have haccepts : DbTable.accepts .batchJobs (some running) changed = true := by
    rw [accepts_withFailure]
    simp only [Bool.and_eq_true]
    refine ⟨⟨?_, ?_⟩, ?_⟩
    · exact TableColumn.accepts_of_takes _ rfl _
    · refine TableColumn.accepts_of_takes _ ?_ _
      decide
    · exact TableColumn.accepts_of_takes _ rfl _
  have hflush : pgExec (.flush .batchJobs running changed) db (.ok failed) db' :=
    pgExec_of_up (up_flush_taken rfl haccepts)
  have hmarked : PostgresBatchJobStore.store.markFailed "first" (exc.codeOr "batch_job_failed") exc.text db
      (some (recordFromModel failed)) db' :=
    ⟨.ok (some running), _, ⟨rfl, rfl⟩, .ok "", _, rfl, .ok (0 : Int), _, rfl, .ok failed, _, hflush, rfl, rfl⟩
  refine ⟨⟨db', []⟩, ?_⟩
  refine ⟨.ok [recordFromModel row], lostDb, ⟨⟨⟨hlisted, rfl⟩, rfl⟩, not_raised⟩, ?_⟩
  refine ⟨.ok false, lostDb, ⟨⟨⟨rfl, rfl⟩, rfl⟩, not_raised⟩, ?_⟩
  refine ⟨.ok (), ⟨lostDb.store, ["first"]⟩, ⟨⟨rfl, rfl⟩, not_raised⟩, ?_⟩
  refine ⟨.ok (some "first"), ⟨lostDb.store, []⟩, ⟨⟨⟨rfl, rfl⟩, rfl⟩, not_raised⟩, ?_⟩
  refine ⟨.ok (some (recordFromModel row)), ⟨lostDb.store, []⟩, ⟨⟨⟨rfl, rfl⟩, rfl⟩, not_raised⟩, ?_⟩
  refine ⟨.ok (some (recordFromModel running)), ⟨db, []⟩, ⟨⟨hmoved, rfl⟩, not_raised⟩, ?_⟩
  refine ⟨.ok "hex", ⟨db, []⟩, ⟨⟨rfl, rfl⟩, not_raised⟩, ?_⟩
  refine ⟨.ok (some (recordFromModel failed)), ⟨db', []⟩, ⟨⟨hmarked, rfl⟩, not_raised⟩, ?_⟩
  exact ⟨rfl, rfl⟩

theorem backlog_drained_two :
    (∃ outcome w' job, (plainWorker.drain 1 2 4).Yields InMemoryBatchJobStore.store.upExec backlog outcome w' ∧
      w'.store.get "job_second" = some job ∧ job.status.terminal = true) ∧
    ∃ w' job, (plainWorker.drain 1 1 1).Yields PostgresBatchJobStore.store.upExec lostDb (.ok ()) w' ∧
      (w'.store .batchJobs).find "first" = some job ∧ job.status.terminal = true := by
  refine ⟨?_, ?_⟩
  · have hids : ∀ jobId job, backlog.store.get jobId = some job → jobId ∈ ["job_first", "job_second"] := by
      intro jobId job hjob
      rw [← KeyedTable.key_of_find hjob]
      exact List.mem_map_of_mem (f := BatchJobRecord.id) (KeyedTable.mem_of_find hjob)
    obtain ⟨⟨outcome, w', h⟩, hends⟩ := (backlog_drained plainWorker rfl (fun _ _ h => nomatch h) 1 (by decide) 2 4
      ["job_first", "job_second"] (by decide)).1 backlog (fun jobId job hjob _ => hids jobId job hjob) (by decide)
    obtain ⟨status, hstatus, hterminal⟩ := ((hends outcome w' h).2 "job_second").1 rfl
    obtain ⟨job, hjob, rfl⟩ := Option.map_eq_some_iff.mp hstatus
    exact ⟨outcome, w', job, h, hjob, hterminal⟩
  · have hids : ∀ jobId job, (lostDb.store .batchJobs).find jobId = some job → jobId ∈ ["first"] := by
      intro jobId job hjob
      rw [← KeyedTable.key_of_find hjob]
      exact List.mem_map_of_mem (f := BatchJob.id) (KeyedTable.mem_of_find hjob)
    obtain ⟨w', h⟩ := drain_lostDb
    obtain ⟨-, hdrained⟩ := (backlog_drained plainWorker rfl (fun _ _ h => nomatch h) 1 (by decide) 1 1
      ["first"] (by decide)).2 lostDb (fun jobId job hjob _ => hids jobId job hjob) (by decide) _ w' h
    obtain ⟨status, hstatus, hterminal⟩ := (hdrained "first").1 rfl
    obtain ⟨job, hjob, rfl⟩ := Option.map_eq_some_iff.mp hstatus
    exact ⟨w', job, h, hjob, hterminal⟩

end GpuInference
