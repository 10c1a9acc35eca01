import GpuInference.EffectCalm
import GpuInference.EffectFrame
import GpuInference.LeaseLifecycle
import GpuInference.QuotaCharge
import GpuInference.WorkerTrace

/-!
The admission of a batch worker. Whatever `Exception`s its calls raise, the worker finalizes the tokens of a job that it
has admitted and then releases its slot: with the usage of the response when it has got that far, and with nothing used
otherwise. So the counters of the key are as before, up to the tokens that are charged.
-/

open Effect

namespace GpuInference

abbrev workerLease : Protocol BatchOp BatchOp.Res PyExc LeasePhase := leaseProtocol BatchOp.leaseUse BatchOp.granted

abbrev calmWorker : Protocol BatchOp BatchOp.Res PyExc (Option LeasePhase) := workerLease.calm fun _ => PyExc.isException

namespace LeasePhase

/-- The job has no lease. -/
def Unleased (φ : LeasePhase) : Prop := φ = idle ∨ φ = refused

/-- The job has this lease, and the slot is not released. -/
def Held (lease : AdmissionLease) (φ : LeasePhase) : Prop :=
  ∃ estimatedTokens first, φ = leased lease estimatedTokens first false

/-- The tokens are finalized as well. -/
def Finalized (lease : AdmissionLease) (φ : LeasePhase) : Prop :=
  ∃ estimatedTokens first, φ = leased lease estimatedTokens (some first) false

/-- The tokens are finalized and the slot is released. -/
def Closed (φ : LeasePhase) : Prop := ∃ lease estimatedTokens first, φ = leased lease estimatedTokens (some first) true

end LeasePhase

/-- The call is no use of the lease. -/
def BatchOp.Elsewhere (op : BatchOp) : Prop := op.leaseUse = .elsewhere

/-- What the locals show of the lease: without one the job is not admitted, and with one it is as `held` says. -/
def WorkerLocals.Shows (held : AdmissionLease → LeasePhase → Prop) (φ : LeasePhase) (l : WorkerLocals) : Prop :=
  match l.admissionLease with
  | none => l.auditRecordId = none ∧ φ.Unleased
  | some lease => held lease φ

section Worker

variable {φ : LeasePhase}

/-- Calls that are no use of the lease leave it as it is. -/
theorem follows_elsewhere {α : Type} {body : BatchProgram α} (h : body.Makes BatchOp.Elsewhere)
    (φ : LeasePhase) : body.Follows calmWorker (calmDone fun ψ _ => ψ = φ) (some φ) := by
  induction body with
  | ret value => exact Program.calmDone_some rfl
  | raise exc => exact Program.calmDone_some rfl
  | call op next ih =>
      have helsewhere : op.leaseUse = .elsewhere := h.1
      have hafter : ∀ answer, workerLease.after φ op answer = φ := by
        intro answer
        simp only [leaseProtocol, helsewhere, LeasePhase.after_elsewhere]
      apply Program.follows_calm_call
      · simp only [leaseProtocol, helsewhere]
        trivial
      · intro value
        rw [hafter]
        exact ih _ (h.2 _)
      · intro exc _
        rw [hafter]
        exact ih _ (h.2 _)

theorem follows_emitUsageEvent_lease (self : BatchWorker) (event : UsageEvent) (φ : LeasePhase) :
    (self.emitUsageEvent event).Follows calmWorker (calmDone fun ψ outcome => ψ = φ ∧ outcome = .ok ()) (some φ) := by
  unfold BatchWorker.emitUsageEvent
  split
  · exact Program.follows_calm_dropped (fun _ h => h) (by exact trivial) fun answer => ⟨LeasePhase.after_elsewhere _ _, rfl⟩
  · exact Program.calmDone_some ⟨rfl, rfl⟩

/-- What the body of the `try` statement ends with: when it returns, the tokens are finalized. -/
def CompletePost (φ : LeasePhase) (outcome : Except PyExc Bool) (l : WorkerLocals) : Prop :=
  match outcome with
  | .ok _ => l.Shows LeasePhase.Finalized φ
  | .error exc => l.Shows LeasePhase.Held φ ∧ (l.admissionLease ≠ none → exc.isException = true)

theorem meets_complete_lease (self : BatchWorker)
    (hestimator : ∀ text exc, self.tokenEstimator text = .error exc → exc.isException = true) (jobId : String)
    (running : BatchJobRecord) (requestId : String) (authContext : AuthContext) :
    Block.Meets calmWorker (Block.calmPost CompletePost) (some .idle) ⟨none, none⟩
      (self.complete jobId running requestId authContext) := by
  have hidle : ∀ exc, CompletePost .idle (.error exc) ⟨none, none⟩ := fun exc => ⟨⟨rfl, .inl rfl⟩, fun h => absurd rfl h⟩
  unfold BatchWorker.complete
  rw [Block.meets_lift_bind]
  cases chatRequestFromBatch self.lax running with
  | error exc => exact Block.calmPost_some (hidle exc)
  | ok requestBody =>
  simp only [Block.seqPost]
  rw [Block.meets_lift_bind]
  cases buildTokenPlan requestBody self.tokenEstimator self.settings with
  | error exc => exact Block.calmPost_some (hidle exc)
  | ok tokenPlan =>
  refine Block.meets_calm_perform_bind (by exact rfl) ?_ fun lease => ?_
  · intro exc _
    exact ⟨⟨rfl, .inr rfl⟩, fun h => absurd rfl h⟩
  rw [Block.meets_assign_bind]
  have hheld : ∀ (first : Option (Int × Bool)) (recordId : Option String) (exc : PyExc), exc.isException = true →
      CompletePost (.leased lease tokenPlan.estimatedTotalTokens first false) (.error exc) ⟨recordId, some lease⟩ :=
    fun first recordId exc hexc => ⟨⟨_, _, rfl⟩, fun _ => hexc⟩
  refine Block.meets_calm_perform_bind (by exact trivial) (fun exc hexc => hheld none none exc hexc) fun recordId => ?_
  rw [Block.meets_assign_bind]
  refine Block.meets_calm_perform_bind (by exact trivial) (fun exc hexc => hheld none _ exc hexc) fun response => ?_
  rw [Block.meets_lift_bind]
  cases husage : usageFromResponse response tokenPlan self.tokenEstimator with
  | error exc => exact Block.calmPost_some (hheld none _ exc (usageFromResponse_raises hestimator husage))
  | ok usage =>
  refine Block.meets_calm_perform_bind (by exact ⟨_, _, _, rfl, .inr rfl⟩) ?_ fun _ => ?_
  · intro exc hexc
    exact hheld _ _ exc hexc
  refine Block.meets_calm_perform_bind (by exact trivial) (fun exc hexc => hheld _ _ exc hexc) fun latencyMs => ?_
  refine Block.meets_calm_perform_bind (by exact trivial) (fun exc hexc => hheld _ _ exc hexc) fun _ => ?_
  refine Block.meets_calm_perform_bind (by exact trivial) (fun exc hexc => hheld _ _ exc hexc) fun _ => ?_
  refine Block.meets_calm_await_bind (fun _ => Block.quiet_pure _) (follows_emitUsageEvent_lease self _ _) ?_ ?_
  · rintro ψ exc ⟨-, hok⟩
    cases hok
  · rintro ψ value ⟨rfl, -⟩
    exact Block.calmPost_some ⟨_, _, rfl⟩

/-- The handler of the worker finalizes the audit record, if there is one. -/
def BatchWorker.finalizeFailed (exc : PyExc) : Option String → BatchProgram Unit
  | some recordId => do
      let latencyMs ← batchCall .elapsedMs
      batchCall (.finalizeAudit (buildAuditFinal recordId ⟨0, 0, 0, .failed⟩ (some latencyMs)
        (exc.codeOr "batch_job_failed")))
  | none => pure ()

/-- What the handler does after the tokens have been finalized. -/
def BatchWorker.failRest (jobId : String) (exc : PyExc) (l : WorkerLocals) : WorkerBlock Bool := do
  Block.await (BatchWorker.finalizeFailed exc l.auditRecordId)
  let _ ← Block.await (batchCall (.markFailed jobId (exc.codeOr "batch_job_failed") exc.text))
  pure true

/-- The handler finalizes the tokens of a job that has a lease. -/
theorem meets_fail_lease (jobId : String) (exc : PyExc) {l : WorkerLocals} (h : l.Shows LeasePhase.Held φ) :
    Block.Meets calmWorker (Block.calmPost fun ψ _ l' => l'.Shows LeasePhase.Finalized ψ) (some φ) l
      (BatchWorker.fail jobId exc) := by
  unfold BatchWorker.fail
  rw [Block.meets_locals_bind]
  have hrest : ∀ ψ, l.Shows LeasePhase.Finalized ψ →
      Block.Meets calmWorker (Block.calmPost fun ψ _ l' => l'.Shows LeasePhase.Finalized ψ) (some ψ) l
        (BatchWorker.failRest jobId exc l) := by
    intro ψ hψ
    refine Block.meets_calm_await_bind ?_ (follows_elsewhere ?_ ψ) ?_ ?_
    · exact fun _ => (Block.quiet_await _).bind fun _ => Block.quiet_pure _
    · cases l.auditRecordId with
      | none => exact Program.makes_ret _
      | some recordId =>
          have hread : (batchCall .elapsedMs).Makes BatchOp.Elsewhere := Program.makes_perform rfl
          exact hread.bind fun _ => Program.makes_perform rfl
    · rintro χ raised rfl
      exact hψ
    · rintro χ value rfl
      refine Block.meets_calm_perform_bind (by exact trivial) ?_ fun _ => ?_
      · intro raised _
        simp only [leaseProtocol, BatchOp.leaseUse, LeasePhase.after_elsewhere]
        exact hψ
      · simp only [leaseProtocol, BatchOp.leaseUse, LeasePhase.after_elsewhere]
        exact Block.meets_calm_pure hψ
  obtain ⟨auditRecordId, admissionLease⟩ := l
  cases admissionLease with
  | none => exact hrest φ h
  | some lease =>
      obtain ⟨estimatedTokens, first, rfl⟩ := h
      have hfinal : ∀ answer, (workerLease.after (.leased lease estimatedTokens first false)
          (.finalizeTokens lease 0 true) answer).Finalized lease := by
        intro answer
        cases first with
        | none => exact ⟨_, _, rfl⟩
        | some first => exact ⟨_, _, rfl⟩
      refine Block.meets_calm_perform_bind (by exact ⟨_, _, _, rfl, .inl rfl⟩) ?_ fun _ => ?_
      · intro raised _
        exact hfinal _
      · exact hrest _ (hfinal _)

/-- Whether the job was admitted or not, nothing is held in the end. -/
def LeasePhase.Settled (φ : LeasePhase) : Prop := φ.Unleased ∨ φ.Closed

theorem meets_leave_lease {l : WorkerLocals} (h : l.Shows LeasePhase.Finalized φ) :
    Block.Meets calmWorker (Block.calmPost fun ψ _ _ => ψ.Settled) (some φ) l BatchWorker.leave := by
  unfold BatchWorker.leave
  rw [Block.meets_locals_bind]
  apply Block.meets_calm_await
  obtain ⟨auditRecordId, admissionLease⟩ := l
  cases admissionLease with
  | none =>
      have hsettled : φ.Settled := .inl h.2
      exact Program.calmDone_some hsettled
  | some lease =>
      obtain ⟨estimatedTokens, first, rfl⟩ := h
      have hclosed : ∀ answer, (workerLease.after (.leased lease estimatedTokens (some first) false)
          (.releaseLease lease) answer).Settled := fun answer => .inr ⟨lease, estimatedTokens, first, rfl⟩
      exact Program.follows_calm_perform (by exact ⟨_, _, _, rfl⟩) (fun exc _ => hclosed _) fun value => hclosed _

/-- A running job is settled in every case. -/
theorem follows_runJob_lease (self : BatchWorker)
    (hestimator : ∀ text exc, self.tokenEstimator text = .error exc → exc.isException = true) (jobId : String)
    (running : BatchJobRecord) :
    (self.runJob jobId running).Follows calmWorker (calmDone fun ψ _ => ψ.Settled) (some .idle) := by
  have hidle : LeasePhase.idle.Settled := .inl (.inl rfl)
  have hread : (batchCall .uuid4).Makes BatchOp.Elsewhere := Program.makes_perform rfl
  have hid : generateRequestId.Makes BatchOp.Elsewhere := hread.bind fun _ => Program.makes_ret _
  apply Program.follows_calm_bind (follows_elsewhere hid .idle)
  · rintro ψ exc rfl
    exact hidle
  rintro ψ requestId rfl
  apply Block.Meets.calm_toProgram
  have hbody : ∀ authContext, Block.Meets calmWorker
      (Block.calmPost fun ψ _ l => l.Shows LeasePhase.Finalized ψ) (some .idle) ⟨none, none⟩
      (Block.tryExcept PyExc.isException (self.complete jobId running requestId authContext)
        (BatchWorker.fail jobId)) := by
    intro authContext
    apply Block.meets_calm_tryExcept (quiet_fail jobId)
      (meets_complete_lease self hestimator jobId running requestId authContext)
    · intro ψ value l hcomplete
      exact hcomplete
    · intro ψ exc l hcomplete _
      exact meets_fail_lease jobId exc hcomplete.1
    · intro ψ exc l hcomplete hcatches
      obtain ⟨hshows, hexception⟩ := hcomplete
      obtain ⟨auditRecordId, admissionLease⟩ := l
      cases admissionLease with
      | none => exact hshows
      | some lease =>
          rw [hexception (Option.some_ne_none lease)] at hcatches
          cases hcatches
  apply Block.meets_calm_tryFinally quiet_leave (hbody _)
  intro ψ outcome l hshows
  apply (meets_leave_lease hshows).mono
  intro χ left l' hsettled
  cases left with
  | ok _ => exact hsettled
  | error exc => exact hsettled

theorem follows_processOne_lease (self : BatchWorker)
    (hestimator : ∀ text exc, self.tokenEstimator text = .error exc → exc.isException = true) :
    self.processOne.Follows calmWorker (calmDone fun ψ _ => ψ.Settled) (some .idle) := by
  have hidle : LeasePhase.idle.Settled := .inl (.inl rfl)
  apply follows_processOne_of self
  · rintro op (_ | jobId | _ | jobId)
    all_goals exact ⟨trivial, fun _ => rfl, fun _ => Program.calmDone_error (by exact hidle)⟩
  · exact fun _ => Program.calmDone_some hidle
  · intro jobId
    exact ⟨trivial, Program.calmDone_some hidle, fun _ => Program.calmDone_error (by exact hidle)⟩
  · exact follows_runJob_lease self hestimator

end Worker

/-- The counters of the key in the end, when they were `slots` and `tokens` before: the slot is given back, and what
the response has used is charged, up to the reservation, if the tokens were finalized with it. -/
structure AdmissionReturned (worker : BatchWorker) (apiKeyId : String) (slots tokens estimatedTokens : Int)
    (lease : AdmissionLease) (calls : List BatchEvent) (redis : Redis) : Prop where
  slots : redis.shows (concurrencyKey apiKeyId) = .counter slots
  uncharged : (∀ event ∈ calls, ∀ actualTokens, event.op ≠ .finalizeTokens lease actualTokens false) →
    redis.shows (tpmKey apiKeyId) = .counter tokens
  charged : ∀ event ∈ calls, ∀ actualTokens, event.op = .finalizeTokens lease actualTokens false →
    ∃ jobId running request plan response usage, ⟨.transition jobId .running, .ok (some running)⟩ ∈ calls ∧
      ResponseUsed worker running calls actualTokens request plan response usage ∧
      (0 ≤ usage.totalTokens →
        redis.shows (tpmKey apiKeyId) = .counter (tokens + min (max estimatedTokens 0) usage.totalTokens))

theorem finalizes_of_use {op : BatchOp} {lease : AdmissionLease} {actualTokens : Int} {releaseAll : Bool}
    (h : op.leaseUse = .finalizes lease actualTokens releaseAll) : op = .finalizeTokens lease actualTokens releaseAll := by
  cases op with
  | finalizeTokens named tokens all =>
      cases h
      rfl
  | _ => cases h

/-- **The worker returns its admission.** After a job that was admitted the slot is given back, and only the usage of a
response that was read is charged, whatever `Exception`s the calls have raised. -/
theorem worker_returns_admission (service : AdmissionService) (hredis : service.quotaReserver.redis = true)
    (self : BatchWorker) (hestimator : ∀ text exc, self.tokenEstimator text = .error exc → exc.isException = true)
    {calls : List BatchEvent} {outcome : Except PyExc Bool}
    (htraces : self.processOne.Traces calls outcome) (hraises : RaisesExceptions calls)
    {authContext : AuthContext} {estimatedTokens : Int} {lease : AdmissionLease}
    (hadmitted : ⟨.admitRequest authContext estimatedTokens, .ok lease⟩ ∈ calls) {w w' : LeaseWorld}
    (hruns : (leaseExec service authContext.apiKeyId BatchOp.leaseUse BatchOp.granted).Runs w calls w') {slots tokens : Int}
    (hslots : 0 ≤ slots) (htokens : 0 ≤ tokens)
    (hstart : w.redis.ShowsCounters authContext.apiKeyId slots tokens) :
    AdmissionReturned self authContext.apiKeyId slots tokens estimatedTokens lease calls w'.redis := by
  obtain ⟨hkeeps, hsettled⟩ := (follows_processOne_lease self hestimator).calm_traces htraces hraises
  obtain ⟨honce, last, released, hphase, hcharges⟩ := phase_admitted hkeeps hadmitted rfl rfl
  have hbooks := books_runs batch_grantsWhenReturned hredis hslots htokens hruns hkeeps
    (fun event hevent other tokens huse => by rw [honce event hevent other tokens huse]) hstart
  obtain ⟨first, rfl, rfl⟩ : ∃ first, last = some first ∧ released = true := by
    rw [hphase] at hsettled
    rcases hsettled with (hidle | hrefused) | ⟨_, _, first, hclosed⟩
    · cases hidle
    · cases hrefused
    · cases hclosed
      exact ⟨first, rfl, rfl⟩
  rw [hphase] at hbooks
  obtain ⟨-, hshown, htpm⟩ := hbooks
  refine ⟨hshown, ?_, ?_⟩
  · intro hnone
    obtain ⟨actualTokens, releaseAll⟩ := first
    cases releaseAll with
    | false =>
        obtain ⟨event, hevent, huse⟩ := (hcharges actualTokens).mp rfl
        exact absurd (finalizes_of_use huse) (hnone event hevent actualTokens)
    | true => rw [htpm, heldTokens_all htokens]
  · rintro ⟨op, answer⟩ hevent actualTokens rfl
    obtain ⟨jobId, running, request, plan, response, usage, hmoved, hused⟩ := charged_processOne htraces hevent
    refine ⟨jobId, running, request, plan, response, usage, hmoved, hused, ?_⟩
    intro hactual
    have hfirst := (hcharges actualTokens).mpr ⟨_, hevent, rfl⟩
    cases hfirst
    rw [← hused.charged] at hactual ⊢
    rw [htpm, heldTokens_used htokens hactual]

/-- The lease acts on the keyspace, and every other call answers as `answer` does. -/
def aloneReply (service : AdmissionService) (answer : (op : BatchOp) → Except PyExc op.Res) :
    (op : BatchOp) → LeaseWorld → Except PyExc op.Res × LeaseWorld
  | .admitRequest authContext estimatedTokens, w =>
      let acted := w.act service (some ⟨0⟩) (.admits authContext estimatedTokens)
      (acted.1.map fun _ => ⟨0⟩, acted.2)
  | .finalizeTokens lease actualTokens releaseAll, w => w.act service none (.finalizes lease actualTokens releaseAll)
  | .releaseLease lease, w => w.act service none (.releases lease)
  | op, w => (answer op, w)

theorem leaseExec_aloneReply (service : AdmissionService) (apiKeyId : String)
    (answer : (op : BatchOp) → Except PyExc op.Res) (op : BatchOp) (w : LeaseWorld) :
    leaseExec service apiKeyId BatchOp.leaseUse BatchOp.granted op w (aloneReply service answer op w).1
      (aloneReply service answer op w).2 := by
  have hunit : ∀ acted : Except PyExc Unit, acted.map (fun _ => ()) = acted := by
    intro acted
    cases acted <;> rfl
  refine ⟨w.redis, ⟨rfl, rfl⟩, ?_⟩
  cases op
  case admitRequest authContext estimatedTokens =>
    cases hrun : (service.admitRequest authContext estimatedTokens).run Redis.apply w.redis with
    | mk outcome redis =>
        cases outcome with
        | error exc => simp [aloneReply, BatchOp.leaseUse, LeaseWorld.act, hrun, Except.map]
        | ok object => simp [aloneReply, BatchOp.leaseUse, BatchOp.granted, LeaseWorld.act, hrun, Except.map]
  case finalizeTokens lease actualTokens releaseAll => exact ⟨rfl, fun _ => hunit _⟩
  case releaseLease lease => exact ⟨rfl, fun _ => hunit _⟩
  all_goals exact ⟨rfl, fun huse => absurd rfl huse⟩

/-- A worker that is alone on an empty keyspace, with one job that uses twelve tokens. -/
def reportedReply : (op : BatchOp) → LeaseWorld → Except PyExc op.Res × LeaseWorld :=
  aloneReply plainAdmission ((reportingBatchEnv 12).answer 0)

/-- A keyspace without keys, and no lease. -/
def aloneWorld : LeaseWorld := ⟨emptyRedis, fun _ => none⟩

def reportedCalls : List BatchEvent := plainWorker.processOne.trace reportedReply aloneWorld

theorem reportedCalls_outcome : (plainWorker.processOne.run reportedReply aloneWorld).1 = .ok true := rfl

theorem reportedCalls_raises : RaisesExceptions reportedCalls := raisesOnly_of_ok _ rfl

theorem reportedCalls_admitted : ⟨.admitRequest plainContext 18, .ok ⟨0⟩⟩ ∈ reportedCalls :=
  .tail _ (.tail _ (.tail _ (.tail _ (.head _))))

/-- A job is admitted on an empty keyspace and uses twelve of its eighteen tokens: these are charged, and the slot is back. -/
theorem worker_returns_admission_reported : ∃ calls redis,
    plainWorker.processOne.Traces calls (.ok true) ∧ ⟨.admitRequest plainContext 18, .ok ⟨0⟩⟩ ∈ calls ∧
      redis.shows (tpmKey "key") = .counter 12 ∧ AdmissionReturned plainWorker "key" 0 0 18 ⟨0⟩ calls redis := by
  have htraces := plainWorker.processOne.traces_trace reportedReply aloneWorld
  rw [reportedCalls_outcome] at htraces
  have hruns := Exec.runs_trace (leaseExec_aloneReply plainAdmission "key" ((reportingBatchEnv 12).answer 0))
    plainWorker.processOne aloneWorld
  refine ⟨reportedCalls, (plainWorker.processOne.run reportedReply aloneWorld).2.redis, htraces, reportedCalls_admitted,
    rfl, ?_⟩
  exact worker_returns_admission plainAdmission rfl plainWorker (fun _ _ h => by cases h) htraces
    reportedCalls_raises reportedCalls_admitted hruns (Int.le_refl 0) (Int.le_refl 0) ⟨rfl, rfl⟩

end GpuInference
