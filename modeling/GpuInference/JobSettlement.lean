import GpuInference.BatchSystem
import GpuInference.WorkerAdmission

/-!
How a running job ends. The worker marks the job that it has moved to running as succeeded or as failed, but its handler
finalizes tokens and the audit record first, and nothing marks the job when one of these calls raises. So a job ends
exactly when the calls of the handler return; otherwise it is running for good, unless somebody cancels it.
-/

open Effect

namespace GpuInference

/-- The calls of the store, and the calls that cannot fail. -/
def BatchOp.reliable : BatchOp → Bool
  | .create _ _ _ => true
  | .get _ => true
  | .transition _ _ => true
  | .markSucceeded _ _ _ => true
  | .markFailed _ _ _ => true
  | .listRecoverable _ => true
  | .uuid4 => true
  | .elapsedMs => true
  | _ => false

/-- The calls that the handler makes before it marks the job. -/
def BatchOp.handling : BatchOp → Bool
  | .finalizeTokens _ _ releaseAll => releaseAll
  | .finalizeAudit final => final.status = .failed
  | _ => false

/-- Whatever the handler has called has returned. -/
def HandlerReturns (calls : List (Event BatchOp BatchOp.Res PyExc)) : Prop :=
  ∀ event ∈ calls, event.op.handling = true → event.answer.isOk = true

/-- How far a worker has come with its job: the job is running, a call of the handler has raised, or the job is marked. -/
inductive JobPhase where
  | idle
  | running (jobId : String)
  | stuck (jobId : String)
  | marked (jobId : String)

def JobPhase.handled : JobPhase → JobPhase
  | running jobId => stuck jobId
  | φ => φ

/-- A job is moved to running once, marked once while it is running, and handled while it is running. -/
def settleProtocol : Protocol BatchOp BatchOp.Res PyExc JobPhase where
  may φ
    | .create _ _ _ => False
    | .transition _ target => φ = .idle ∧ target = .running
    | .markSucceeded jobId _ _ => φ = .running jobId
    | .markFailed jobId _ _ => φ = .running jobId
    | op => op.handling = true → ∃ jobId, φ = .running jobId
  after φ
    | .transition jobId _, .ok (some _) => .running jobId
    | .markSucceeded jobId _ _, _ => .marked jobId
    | .markFailed jobId _ _, _ => .marked jobId
    | op, .error _ => if op.handling then φ.handled else φ
    | _, _ => φ

/-- Reliable calls raise nothing, and the others raise `Exception`s. -/
def settleKind (op : BatchOp) (exc : PyExc) : Bool := exc.isException && !op.reliable

abbrev calmSettle : Protocol BatchOp BatchOp.Res PyExc (Option JobPhase) := settleProtocol.calm settleKind

theorem isException_of_settleKind {op : BatchOp} {exc : PyExc} (h : settleKind op exc = true) :
    exc.isException = true := (Bool.and_eq_true_iff.mp h).1

section Worker

variable {jobId : String}

/-- What the body of the `try` statement ends with. -/
def SettlePost (jobId : String) (φ : JobPhase) (outcome : Except PyExc Bool) (_ : WorkerLocals) : Prop :=
  match outcome with
  | .ok _ => φ = .marked jobId
  | .error exc => φ = .running jobId ∧ exc.isException = true

theorem follows_emitUsageEvent_settle (self : BatchWorker) (event : UsageEvent) (φ : JobPhase) :
    (self.emitUsageEvent event).Follows calmSettle (calmDone fun ψ outcome => ψ = φ ∧ outcome = .ok ()) (some φ) := by
  have hafter : ∀ answer, settleProtocol.after φ (.collect event) answer = φ := by
    intro answer
    cases answer <;> rfl
  unfold BatchWorker.emitUsageEvent
  split
  · apply Program.follows_calm_dropped
    · exact fun _ => isException_of_settleKind
    · exact fun h => by cases h
    · exact fun answer => ⟨hafter answer, rfl⟩
  · exact Program.calmDone_some ⟨rfl, rfl⟩

theorem meets_complete_settle (self : BatchWorker)
    (hestimator : ∀ text exc, self.tokenEstimator text = .error exc → exc.isException = true)
    (running : BatchJobRecord) (requestId : String) (authContext : AuthContext) (l : WorkerLocals) :
    Block.Meets calmSettle (Block.calmPost (SettlePost jobId)) (some (.running jobId)) l
      (self.complete jobId running requestId authContext) := by
  have hraise : ∀ exc l, exc.isException = true → SettlePost jobId (.running jobId) (.error exc) l :=
    fun exc l hexc => ⟨rfl, hexc⟩
  have hcall : ∀ op exc l, settleKind op exc = true → SettlePost jobId (.running jobId) (.error exc) l :=
    fun op exc l hkind => hraise exc l (isException_of_settleKind hkind)
  unfold BatchWorker.complete
  rw [Block.meets_lift_bind]
  cases hrequest : chatRequestFromBatch self.lax running with
  | error exc => exact Block.calmPost_some (hraise exc l (modelValidate_raises hrequest))
  | ok requestBody =>
  simp only [Block.seqPost]
  rw [Block.meets_lift_bind]
  cases hplan : buildTokenPlan requestBody self.tokenEstimator self.settings with
  | error exc => exact Block.calmPost_some (hraise exc l (buildTokenPlan_raises hestimator hplan))
  | ok tokenPlan =>
  refine Block.meets_calm_perform_bind (fun h => by cases h) (fun exc h => hcall _ exc _ h) fun lease => ?_
  rw [Block.meets_assign_bind]
  refine Block.meets_calm_perform_bind (fun h => by cases h) (fun exc h => hcall _ exc _ h) fun recordId => ?_
  rw [Block.meets_assign_bind]
  refine Block.meets_calm_perform_bind (fun h => by cases h) (fun exc h => hcall _ exc _ h) fun response => ?_
  rw [Block.meets_lift_bind]
  cases husage : usageFromResponse response tokenPlan self.tokenEstimator with
  | error exc => exact Block.calmPost_some (hraise exc _ (usageFromResponse_raises hestimator husage))
  | ok usage =>
  refine Block.meets_calm_perform_bind (fun h => by cases h) (fun exc h => hcall _ exc _ h) fun _ => ?_
  refine Block.meets_calm_perform_bind (fun h => by cases h) (fun exc h => hcall _ exc _ h) fun latencyMs => ?_
  -- the audit record of a completed job is none of the handler's
  have hcompleted : ∀ latencyMs, (BatchOp.finalizeAudit (buildAuditFinal recordId usage latencyMs none)).handling =
      false := by
    intro latencyMs
    simp only [BatchOp.handling, buildAuditFinal, usageFromResponse_completed husage]
    rfl
  refine Block.meets_calm_perform_bind ?_ ?_ fun _ => ?_
  · intro h
    rw [hcompleted] at h
    cases h
  · intro exc hkind
    simp only [settleProtocol, hcompleted]
    exact hcall _ exc _ hkind
  refine Block.meets_calm_perform_bind (by exact rfl) ?_ fun _ => ?_
  · intro exc hkind
    cases (Bool.and_eq_true_iff.mp hkind).2
  refine Block.meets_calm_await_bind (fun _ => Block.quiet_pure _) (follows_emitUsageEvent_settle self _ _) ?_ ?_
  · rintro ψ exc ⟨-, hok⟩
    cases hok
  · rintro ψ value ⟨rfl, -⟩
    exact Block.meets_calm_pure rfl

/-- The handler marks the job, unless one of its other calls raises. -/
theorem meets_fail_settle (exc : PyExc) (l : WorkerLocals) :
    Block.Meets calmSettle (Block.calmPost fun φ _ _ => φ = .marked jobId ∨ φ = .stuck jobId) (some (.running jobId)) l
      (BatchWorker.fail jobId exc) := by
  unfold BatchWorker.fail
  rw [Block.meets_locals_bind]
  have hmark : Block.Meets calmSettle (Block.calmPost fun φ _ _ => φ = .marked jobId ∨ φ = .stuck jobId)
      (some (.running jobId)) l (do
        let _ ← Block.await (batchCall (.markFailed jobId (exc.codeOr "batch_job_failed") exc.text))
        pure true) := by
    refine Block.meets_calm_perform_bind (by exact rfl) ?_ fun _ => ?_
    · intro raised hkind
      cases (Bool.and_eq_true_iff.mp hkind).2
    · exact Block.meets_calm_pure (.inl rfl)
  have haudit : Block.Meets calmSettle (Block.calmPost fun φ _ _ => φ = .marked jobId ∨ φ = .stuck jobId)
      (some (.running jobId)) l (BatchWorker.failRest jobId exc l) := by
    let first : JobPhase → Except PyExc Unit → Prop :=
      Program.eitherDone (fun φ _ => φ = .running jobId) fun φ _ => φ = .stuck jobId
    have hfirst : (BatchWorker.finalizeFailed exc l.auditRecordId).Follows calmSettle (calmDone first)
        (some (.running jobId)) := by
      cases l.auditRecordId with
      | none => exact Program.calmDone_some rfl
      | some recordId =>
          refine Program.follows_calm_perform_bind (fun h => by cases h) ?_ fun latencyMs => ?_
          · intro raised hkind
            cases (Bool.and_eq_true_iff.mp hkind).2
          · exact Program.follows_calm_perform (by exact fun _ => ⟨jobId, rfl⟩) (fun raised _ => rfl) fun _ => rfl
    refine Block.meets_calm_await_bind ?_ hfirst ?_ ?_
    · exact fun _ => (Block.quiet_await _).bind fun _ => Block.quiet_pure _
    · intro φ raised hstuck
      exact .inr hstuck
    · intro φ value hrunning
      obtain rfl : φ = .running jobId := hrunning
      exact hmark
  cases l.admissionLease with
  | none => exact haudit
  | some lease =>
      refine Block.meets_calm_perform_bind (by exact fun _ => ⟨jobId, rfl⟩) ?_ fun _ => haudit
      exact fun raised _ => .inr rfl

theorem meets_leave_settle (l : WorkerLocals) (φ : JobPhase) :
    Block.Meets calmSettle (Block.calmPost fun ψ _ _ => ψ = φ) (some φ) l BatchWorker.leave := by
  unfold BatchWorker.leave
  rw [Block.meets_locals_bind]
  apply Block.meets_calm_await
  cases l.admissionLease with
  | none => exact Program.calmDone_some rfl
  | some lease => exact Program.follows_calm_perform (fun h => by cases h) (fun exc _ => rfl) fun value => rfl

/-- The worker does not let go of a job that is running, unless its handler has been stuck. -/
theorem follows_runJob_settle (self : BatchWorker)
    (hestimator : ∀ text exc, self.tokenEstimator text = .error exc → exc.isException = true) (jobId : String)
    (running : BatchJobRecord) :
    (self.runJob jobId running).Follows calmSettle
      (calmDone fun φ _ => φ = .marked jobId ∨ φ = .stuck jobId) (some (.running jobId)) := by
  unfold BatchWorker.runJob
  have hid : generateRequestId.Follows calmSettle
      (calmDone fun φ outcome => φ = .running jobId ∧ outcome.isOk = true) (some (.running jobId)) := by
    refine Program.follows_calm_perform_bind (fun h => by cases h) ?_ fun hex => Program.calmDone_some ⟨rfl, rfl⟩
    intro exc hkind
    cases (Bool.and_eq_true_iff.mp hkind).2
  apply Program.follows_calm_bind hid
  · rintro φ exc ⟨-, hok⟩
    cases hok
  rintro φ requestId ⟨rfl, -⟩
  apply Block.Meets.calm_toProgram
  have hbody : ∀ authContext, Block.Meets calmSettle
      (Block.calmPost fun φ _ _ => φ = .marked jobId ∨ φ = .stuck jobId) (some (.running jobId)) ⟨none, none⟩
      (Block.tryExcept PyExc.isException (self.complete jobId running requestId authContext)
        (BatchWorker.fail jobId)) := by
    intro authContext
    apply Block.meets_calm_tryExcept (quiet_fail jobId) (meets_complete_settle self hestimator running requestId _ _)
    · intro φ value l hmarked
      exact .inl hmarked
    · intro φ exc l hrunning _
      obtain ⟨rfl, -⟩ := hrunning
      exact meets_fail_settle exc l
    · intro φ exc l hrunning hcatches
      obtain ⟨-, hexception⟩ := hrunning
      rw [hexception] at hcatches
      cases hcatches
  apply Block.meets_calm_tryFinally quiet_leave (hbody _)
  intro φ outcome l hleft
  apply (meets_leave_settle l φ).mono
  intro ψ left l' hsame χ hχ
  obtain rfl := hsame χ hχ
  cases left with
  | ok _ => exact hleft
  | error exc => exact hleft

theorem follows_processOne_settle (self : BatchWorker)
    (hestimator : ∀ text exc, self.tokenEstimator text = .error exc → exc.isException = true) :
    self.processOne.Follows calmSettle (calmDone fun φ _ => ∀ jobId, φ ≠ .running jobId) (some .idle) := by
  have hidle : ∀ jobId, JobPhase.idle ≠ .running jobId := by
    intro jobId h
    cases h
  apply follows_processOne_of self
  · rintro op (_ | jobId | _ | jobId)
    all_goals exact ⟨(fun h => by cases h), fun _ => rfl, fun _ => Program.calmDone_error (by exact hidle)⟩
  · exact fun _ => Program.calmDone_some hidle
  · intro jobId
    exact ⟨⟨rfl, rfl⟩, Program.calmDone_some hidle, fun _ => Program.calmDone_error (by exact hidle)⟩
  · intro jobId running
    apply (follows_runJob_settle self hestimator jobId running).mono
    intro ψ outcome hleft φ hφ other hrunning
    rcases hleft φ hφ with rfl | rfl
    · cases hrunning
    · cases hrunning

end Worker

section Calls

variable {jobId : String}

abbrev BatchCalls := List (Event BatchOp BatchOp.Res PyExc)

/-- A call that is allowed when no job is running is none of the handler's. -/
theorem handling_of_may {φ : JobPhase} {op : BatchOp} (hmay : settleProtocol.may φ op)
    (hφ : ∀ jobId, φ ≠ .running jobId) : op.handling = false := by
  by_contra hhandling
  have htrue : op.handling = true := by simpa using hhandling
  have hrunning : ∃ jobId, φ = .running jobId := by
    cases op
    case finalizeTokens => exact hmay htrue
    case finalizeAudit => exact hmay htrue
    all_goals cases htrue
  obtain ⟨jobId, hrunning⟩ := hrunning
  exact hφ jobId hrunning

/-- Once the job is marked, or the handler is stuck, the phase stays. -/
theorem settle_after_closed {φ : JobPhase} (hφ : φ = .stuck jobId ∨ φ = .marked jobId)
    {event : Event BatchOp BatchOp.Res PyExc} (hmay : settleProtocol.may φ event.op) :
    settleProtocol.after φ event.op event.answer = φ := by
  have hne : φ ≠ .idle ∧ (∀ other, φ ≠ .running other) ∧ φ.handled = φ := by
    rcases hφ with rfl | rfl
    · exact ⟨(fun h => by cases h), (fun _ h => by cases h), rfl⟩
    · exact ⟨(fun h => by cases h), (fun _ h => by cases h), rfl⟩
  obtain ⟨hidle, hrunning, hhandled⟩ := hne
  obtain ⟨op, answer⟩ := event
  cases op
  case create => exact hmay.elim
  case transition => exact absurd hmay.1 hidle
  case markSucceeded => exact absurd hmay (hrunning _)
  case markFailed => exact absurd hmay (hrunning _)
  all_goals
    cases answer with
    | ok value => rfl
    | error exc => simp only [settleProtocol, hhandled, ite_self]

/-- What one call does while the job is running. -/
theorem settle_after_running {event : Event BatchOp BatchOp.Res PyExc}
    (hmay : settleProtocol.may (.running jobId) event.op) :
    (settleProtocol.after (.running jobId) event.op event.answer = .running jobId ∧
        (event.op.handling = true → event.answer.isOk = true)) ∨
      (settleProtocol.after (.running jobId) event.op event.answer = .stuck jobId ∧ event.op.handling = true ∧
        event.answer.isOk = false) ∨
      (settleProtocol.after (.running jobId) event.op event.answer = .marked jobId ∧ event.op.handling = false) := by
  obtain ⟨op, answer⟩ := event
  cases op
  case create => exact hmay.elim
  case transition => cases hmay.1
  case markSucceeded =>
    cases hmay
    exact .inr (.inr ⟨rfl, rfl⟩)
  case markFailed =>
    cases hmay
    exact .inr (.inr ⟨rfl, rfl⟩)
  all_goals
    cases answer with
    | ok value => exact .inl ⟨rfl, fun _ => rfl⟩
    | error exc =>
        simp only [settleProtocol]
        split
        · rename_i hhandling
          exact .inr (.inl ⟨rfl, hhandling, rfl⟩)
        · rename_i hhandling
          exact .inl ⟨rfl, fun h => absurd h hhandling⟩

/-- What one call does before a job is running. -/
theorem settle_after_idle {event : Event BatchOp BatchOp.Res PyExc} (hmay : settleProtocol.may .idle event.op) :
    settleProtocol.after .idle event.op event.answer = .idle ∨
      ∃ jobId, settleProtocol.after .idle event.op event.answer = .running jobId := by
  obtain ⟨op, answer⟩ := event
  cases op
  case create => exact hmay.elim
  case markSucceeded => cases hmay
  case markFailed => cases hmay
  case transition jobId target =>
    rcases answer with exc | (_ | record)
    · exact .inl rfl
    · exact .inl rfl
    · exact .inr ⟨jobId, rfl⟩
  all_goals
    cases answer with
    | ok value => exact .inl rfl
    | error exc => simp only [settleProtocol, JobPhase.handled, ite_self, true_or]

theorem handlerReturns_cons {event : Event BatchOp BatchOp.Res PyExc} {calls : BatchCalls} :
    HandlerReturns (event :: calls) ↔
      (event.op.handling = true → event.answer.isOk = true) ∧ HandlerReturns calls := by
  simp only [HandlerReturns, List.forall_mem_cons]

theorem phase_settle_closed {φ : JobPhase} (hφ : φ = .stuck jobId ∨ φ = .marked jobId) {calls : BatchCalls}
    (hkeeps : settleProtocol.Keeps φ calls) :
    settleProtocol.phase φ calls = φ ∧ HandlerReturns calls := by
  induction calls with
  | nil => exact ⟨rfl, fun _ h => by cases h⟩
  | cons event calls ih =>
      have hafter := settle_after_closed hφ hkeeps.head
      have htail := hkeeps.tail
      rw [hafter] at htail
      rw [Protocol.phase_cons, hafter, handlerReturns_cons]
      refine ⟨(ih htail).1, ?_, (ih htail).2⟩
      intro hhandling
      rw [handling_of_may hkeeps.head] at hhandling
      · cases hhandling
      · intro other hrunning
        rw [hrunning] at hφ
        rcases hφ with h | h <;> cases h

/-- While the job is running the handler is stuck with the first of its calls that raises. -/
theorem phase_settle_running {calls : BatchCalls} (hkeeps : settleProtocol.Keeps (.running jobId) calls) :
    (settleProtocol.phase (.running jobId) calls = .stuck jobId ∧ ¬ HandlerReturns calls) ∨
      ((settleProtocol.phase (.running jobId) calls = .running jobId ∨
        settleProtocol.phase (.running jobId) calls = .marked jobId) ∧ HandlerReturns calls) := by
  induction calls with
  | nil => exact .inr ⟨.inl rfl, fun _ h => by cases h⟩
  | cons event calls ih =>
      have htail := hkeeps.tail
      rw [Protocol.phase_cons, handlerReturns_cons]
      rcases settle_after_running hkeeps.head with ⟨hafter, hok⟩ | ⟨hafter, hhandling, hraised⟩ | ⟨hafter, hother⟩
      · rw [hafter] at htail ⊢
        rcases ih htail with ⟨hphase, hnot⟩ | ⟨hphase, hreturns⟩
        · exact .inl ⟨hphase, fun h => hnot h.2⟩
        · exact .inr ⟨hphase, hok, hreturns⟩
      · rw [hafter] at htail ⊢
        refine .inl ⟨(phase_settle_closed (.inl rfl) htail).1, ?_⟩
        rintro ⟨hok, -⟩
        rw [hok hhandling] at hraised
        cases hraised
      · rw [hafter] at htail ⊢
        obtain ⟨hphase, hreturns⟩ := phase_settle_closed (.inr rfl) htail
        refine .inr ⟨.inr hphase, ?_, hreturns⟩
        intro hhandling
        rw [hhandling] at hother
        cases hother

/-- Before its job is moved the worker is idle, and it has not called the handler. -/
theorem phase_settle_idle {calls : BatchCalls} (hkeeps : settleProtocol.Keeps .idle calls)
    (hidle : settleProtocol.phase .idle calls = .idle) : HandlerReturns calls := by
  induction calls with
  | nil => exact fun _ h => by cases h
  | cons event calls ih =>
      have htail := hkeeps.tail
      rw [Protocol.phase_cons] at hidle
      rw [handlerReturns_cons]
      rcases settle_after_idle hkeeps.head with hafter | ⟨jobId, hafter⟩
      · rw [hafter] at htail hidle
        refine ⟨?_, ih htail hidle⟩
        intro hhandling
        rw [handling_of_may hkeeps.head (fun _ h => by cases h)] at hhandling
        cases hhandling
      · rw [hafter] at htail hidle
        rcases phase_settle_running htail with ⟨hphase, -⟩ | ⟨hphase | hphase, -⟩
        all_goals
          rw [hphase] at hidle
          cases hidle

/-- **A worker that has moved a job** leaves it stuck, or marks it, by whether the calls of its handler return. -/
theorem phase_settle_moved {calls : BatchCalls} (hkeeps : settleProtocol.Keeps .idle calls) {record : BatchJobRecord}
    (hmoved : ⟨.transition jobId .running, .ok (some record)⟩ ∈ calls)
    (hdone : ∀ other, settleProtocol.phase .idle calls ≠ .running other) :
    (settleProtocol.phase .idle calls = .stuck jobId ∧ ¬ HandlerReturns calls) ∨
      (settleProtocol.phase .idle calls = .marked jobId ∧ HandlerReturns calls) := by
  obtain ⟨left, right, rfl⟩ := List.append_of_mem hmoved
  have hmay := hkeeps left _ right rfl
  have hidle : settleProtocol.phase .idle left = .idle := hmay.1
  have hright := hkeeps.drop
  rw [hidle] at hright
  have htail : settleProtocol.Keeps (.running jobId) right := hright.tail
  have hphase : settleProtocol.phase .idle (left ++ ⟨.transition jobId .running, .ok (some record)⟩ :: right) =
      settleProtocol.phase (.running jobId) right := by
    rw [Protocol.phase_append_calls, hidle]
    rfl
  have hreturns : HandlerReturns (left ++ ⟨.transition jobId .running, .ok (some record)⟩ :: right) ↔
      HandlerReturns right := by
    have hleft := phase_settle_idle hkeeps.take hidle
    constructor
    · exact fun h event hevent => h event (List.mem_append_right _ (List.mem_cons_of_mem _ hevent))
    · intro h event hevent
      rcases List.mem_append.mp hevent with hevent | hevent
      · exact hleft event hevent
      · exact handlerReturns_cons.mpr ⟨(fun hhandling => by cases hhandling), h⟩ event hevent
  rw [hphase] at hdone ⊢
  rw [hreturns]
  rcases phase_settle_running htail with hstuck | ⟨hrunning | hmarked, h⟩
  · exact .inl hstuck
  · exact absurd hrunning (hdone jobId)
  · exact .inr ⟨hmarked, h⟩

end Calls

section Store

variable {S : Type} (store : BatchJobStore S) {jobId : String}

/-- What others may have done to the table of statuses. -/
def JobTable.Others : JobTable → JobTable → Prop := Relation.ReflTransGen fun table table' => ∃ φ, table.Steps φ table'

/-- A call of the worker, before which others may have been at work. -/
def BatchJobStore.sharedExec : Exec BatchOp BatchOp.Res PyExc (BatchWorld S) := fun op w answer w' =>
  ∃ middle : BatchWorld S, (store.table w.store).Others (store.table middle.store) ∧ store.exec op middle answer w'

/-- The job has succeeded, failed or been cancelled. -/
def JobTable.Ended (table : JobTable) (jobId : String) : Prop :=
  ∃ status, table jobId = some status ∧ status.terminal = true

/-- The status of the job in a phase, of which a job that is not marked has one that is `unmarked`. -/
def JobPhase.Tells (unmarked : JobStatus → Prop) (table : JobTable) : JobPhase → Prop
  | idle => True
  | running jobId => ∃ status, table jobId = some status ∧ unmarked status
  | stuck jobId => ∃ status, table jobId = some status ∧ unmarked status
  | marked jobId => table.Ended jobId

theorem tells_handled {unmarked : JobStatus → Prop} {table : JobTable} {φ : JobPhase} (h : φ.Tells unmarked table) :
    φ.handled.Tells unmarked table := by
  cases φ with
  | idle => trivial
  | running jobId => exact h
  | stuck jobId => exact h
  | marked jobId => exact h

/-- A job that is marked is ended: only a cancelled job is not changed. -/
theorem ended_of_marks {table table' : JobTable} {target : JobStatus} {record : Option BatchJobRecord}
    (h : table.Marks jobId target record table') (hpresent : table jobId ≠ none) (htarget : target.terminal = true) :
    table'.Ended jobId := by
  cases record with
  | none =>
      obtain ⟨rfl, hcancelled⟩ := h
      obtain ⟨status, hstatus⟩ := Option.ne_none_iff_exists'.mp hpresent
      refine ⟨status, hstatus, ?_⟩
      rw [hcancelled status hstatus]
      rfl
  | some record =>
      obtain ⟨-, -, -, rfl⟩ := h
      exact ⟨target, JobTable.set_self _ _ _, htarget⟩

/-- One call of the worker tells the status of its job. -/
theorem tells_call {unmarked : JobStatus → Prop} (hrunning : unmarked .running) {φ : JobPhase} {op : BatchOp}
    {answer : Except PyExc op.Res} {table table' : JobTable} (h : φ.Tells unmarked table)
    (hmay : settleProtocol.may φ op) (hreliable : op.reliable = true → answer.isOk = true)
    (hexec : tableExec op table answer table') : (settleProtocol.after φ op answer).Tells unmarked table' := by
  have hpresent : ∀ jobId, φ = .running jobId → table jobId ≠ none := by
    rintro jobId rfl
    obtain ⟨status, hstatus, -⟩ := h
    rw [hstatus]
    exact Option.some_ne_none status
  cases op
  case create => exact hmay.elim
  case transition jobId target =>
    obtain ⟨rfl, rfl⟩ := hmay
    rcases answer with exc | (_ | record)
    · cases hreliable rfl
    · trivial
    · obtain ⟨-, -, -, rfl⟩ := hexec
      exact ⟨.running, JobTable.set_self _ _ _, hrunning⟩
  case markSucceeded jobId result usage =>
    cases answer with
    | error exc => cases hreliable rfl
    | ok record => exact ended_of_marks hexec (hpresent jobId hmay) rfl
  case markFailed jobId code message =>
    cases answer with
    | error exc => cases hreliable rfl
    | ok record => exact ended_of_marks hexec (hpresent jobId hmay) rfl
  case get jobId =>
    cases answer with
    | error exc => cases hreliable rfl
    | ok record =>
        obtain ⟨-, rfl⟩ := hexec
        exact h
  all_goals
    obtain rfl : table' = table := hexec
    cases answer with
    | ok value => exact h
    | error exc =>
        simp only [settleProtocol]
        split
        · exact tells_handled h
        · exact h

theorem others_ended {table table' : JobTable} (h : table.Others table') (hended : table.Ended jobId) :
    table'.Ended jobId := by
  obtain ⟨status, hstatus, hterminal⟩ := hended
  induction h with
  | refl => exact ⟨status, hstatus, hterminal⟩
  | tail hsteps hstep ih =>
      obtain ⟨last, hlast, hended⟩ := ih
      obtain ⟨φ, hstep⟩ := hstep
      exact ⟨last, JobTable.steps_terminal hstep hlast hended, hended⟩

/-- A running job is still running, or somebody has ended it. -/
theorem others_running {table table' : JobTable} (h : table.Others table')
    (hrunning : table jobId = some .running ∨ table.Ended jobId) :
    table' jobId = some .running ∨ table'.Ended jobId := by
  induction h with
  | refl => exact hrunning
  | @tail middle last hsteps hstep ih =>
      obtain ⟨φ, hstep⟩ := hstep
      rcases ih with hstill | hended
      · have hmoves := (hstep jobId).1
        rw [hstill] at hmoves
        cases hlast : last jobId with
        | none =>
            rw [hlast] at hmoves
            exact hmoves.elim
        | some status =>
            rw [hlast] at hmoves
            rcases hmoves with rfl | hcan
            · exact .inl rfl
            · refine .inr ⟨status, hlast, ?_⟩
              cases status <;> first | rfl | cases hcan
      · exact .inr (others_ended (.single ⟨φ, hstep⟩) hended)

theorem tells_others {table table' : JobTable} (h : table.Others table') {φ : JobPhase}
    (htells : φ.Tells (fun status => status = .running ∨ status.terminal = true) table) :
    φ.Tells (fun status => status = .running ∨ status.terminal = true) table' := by
  have hstays : ∀ jobId, (∃ status, table jobId = some status ∧ (status = .running ∨ status.terminal = true)) →
      ∃ status, table' jobId = some status ∧ (status = .running ∨ status.terminal = true) := by
    rintro jobId ⟨status, hstatus, hkind⟩
    have hbefore : table jobId = some .running ∨ table.Ended jobId := by
      rcases hkind with rfl | hterminal
      · exact .inl hstatus
      · exact .inr ⟨status, hstatus, hterminal⟩
    rcases others_running h hbefore with hrunning | ⟨last, hlast, hterminal⟩
    · exact ⟨_, hrunning, .inl rfl⟩
    · exact ⟨last, hlast, .inr hterminal⟩
  cases φ with
  | idle => trivial
  | running jobId => exact hstays jobId htells
  | stuck jobId => exact hstays jobId htells
  | marked jobId => exact others_ended h htells

/-- **A job ends exactly when the calls of the handler return.** This is so when the worker is alone; when they return,
the job ends whatever others do meanwhile. -/
theorem job_ends_iff (self : BatchWorker)
    (hestimator : ∀ text exc, self.tokenEstimator text = .error exc → exc.isException = true) {calls : BatchCalls}
    {outcome : Except PyExc Bool} (htraces : self.processOne.Traces calls outcome) (hraises : RaisesExceptions calls)
    (hreliable : ∀ event ∈ calls, event.op.reliable = true → event.answer.isOk = true) {record : BatchJobRecord}
    (hmoved : ⟨.transition jobId .running, .ok (some record)⟩ ∈ calls) :
    (∀ w w', store.exec.Runs w calls w' → ((store.table w'.store).Ended jobId ↔ HandlerReturns calls)) ∧
      ∀ w w', store.sharedExec.Runs w calls w' → HandlerReturns calls → (store.table w'.store).Ended jobId := by
  have hkind : RaisesOnly settleKind calls := by
    intro event hevent exc hanswer
    have hexception := hraises event hevent exc hanswer
    have hunreliable : event.op.reliable = false := by
      by_contra hrel
      have hok := hreliable event hevent (by simpa using hrel)
      rw [hanswer] at hok
      cases hok
    simp only [settleKind, hexception, hunreliable, Bool.not_false, Bool.and_self]
  obtain ⟨hkeeps, hdone⟩ := (follows_processOne_settle self hestimator).calm_traces htraces hkind
  have hends := phase_settle_moved hkeeps hmoved hdone
  constructor
  · intro w w' hruns
    let relates (φ : JobPhase) (w : BatchWorld S) : Prop :=
      φ.Tells (fun status => status = .running) (store.table w.store)
    have hstart : relates .idle w := trivial
    have htells := hruns.relates hkeeps hstart fun φ op answer w w' hmem h hmay hexec =>
      tells_call (by exact rfl) (by exact h) hmay (hreliable _ hmem) (store.exec_refines op w answer w' hexec)
    rcases hends with ⟨hstuck, hnot⟩ | ⟨hmarked, hreturns⟩
    · rw [hstuck] at htells
      obtain ⟨status, hstatus, rfl⟩ := htells
      refine iff_of_false ?_ hnot
      rintro ⟨last, hlast, hterminal⟩
      rw [hstatus] at hlast
      cases hlast
      cases hterminal
    · rw [hmarked] at htells
      exact iff_of_true htells hreturns
  · intro w w' hruns hreturns
    let relates (φ : JobPhase) (w : BatchWorld S) : Prop :=
      φ.Tells (fun status => status = .running ∨ status.terminal = true) (store.table w.store)
    have hstart : relates .idle w := trivial
    have htells := hruns.relates hkeeps hstart fun φ op answer w w' hmem h hmay ⟨middle, hothers, hexec⟩ =>
      tells_call (by exact .inl rfl) (tells_others hothers (by exact h)) hmay (hreliable _ hmem)
        (store.exec_refines op middle answer w' hexec)
    rcases hends with ⟨-, hnot⟩ | ⟨hmarked, -⟩
    · exact absurd hreturns hnot
    · rw [hmarked] at htells
      exact htells

end Store

/-! ### A job that is stuck -/

/-- A worker that is alone with its store, whose upstream fails; its audit database answers as `audit` does. -/
def failingReply (audit : Except PyExc Unit) :
    (op : BatchOp) → BatchWorld InMemoryBatchJobStore → Except PyExc op.Res × BatchWorld InMemoryBatchJobStore
  | .dequeue, w => (.ok w.queue.head?, ⟨w.store, w.queue.tail⟩)
  | .get jobId, w => (.ok (w.store.get jobId), w)
  | .transition jobId target, w =>
      let moved := w.store.transition jobId target
      (.ok moved.1, ⟨moved.2, w.queue⟩)
  | .markFailed jobId code message, w =>
      let marked := w.store.markFailed jobId code message
      (.ok marked.1, ⟨marked.2, w.queue⟩)
  | .uuid4, w => (.ok "hex", w)
  | .elapsedMs, w => (.ok 0, w)
  | .admitRequest _ _, w => (.ok ⟨0⟩, w)
  | .startAudit _, w => (.ok "audit", w)
  | .finalizeTokens _ _ _, w => (.ok (), w)
  | .finalizeAudit _, w => (audit, w)
  | .releaseLease _, w => (.ok (), w)
  | _, w => (.error valueError, w)

theorem exec_failingReply (audit : Except PyExc Unit) (op : BatchOp) (w : BatchWorld InMemoryBatchJobStore) :
    InMemoryBatchJobStore.store.exec op w (failingReply audit op w).1 (failingReply audit op w).2 := by
  cases op
  case finalizeAudit =>
    cases audit with
    | ok _ => exact ⟨rfl, rfl⟩
    | error exc => exact ⟨rfl, .inl rfl⟩
  case dequeue => exact ⟨⟨rfl, rfl⟩, rfl⟩
  case get => exact ⟨⟨rfl, rfl⟩, rfl⟩
  all_goals
    first
    | exact ⟨rfl, rfl⟩
    | exact ⟨rfl, .inl rfl⟩

/-- A store and a queue with one job. -/
def queuedWorld : BatchWorld InMemoryBatchJobStore :=
  ⟨⟨KeyedTable.empty.insert { plainJob with status := .queued }⟩, ["job"]⟩

def failingCalls (audit : Except PyExc Unit) : BatchCalls :=
  plainWorker.processOne.trace (failingReply audit) queuedWorld

def failedWorld (audit : Except PyExc Unit) : BatchWorld InMemoryBatchJobStore :=
  (plainWorker.processOne.run (failingReply audit) queuedWorld).2

theorem runs_failingCalls (audit : Except PyExc Unit) :
    InMemoryBatchJobStore.store.exec.Runs queuedWorld (failingCalls audit) (failedWorld audit) :=
  Exec.runs_trace (exec_failingReply audit) plainWorker.processOne queuedWorld

theorem failingCalls_moved (audit : Except PyExc Unit) :
    ⟨.transition "job" .running, .ok (some plainJob)⟩ ∈ failingCalls audit :=
  .tail _ (.tail _ (.head _))

/-- The audit database cannot be reached. -/
def unreachable : PyExc := .exception none "database unavailable"

theorem raises_failingCalls (audit : Except PyExc Unit)
    (h : (failingCalls audit).all (fun event => match event.answer with
      | .ok _ => true
      | .error exc => exc.isException && !event.op.reliable) = true) :
    RaisesExceptions (failingCalls audit) ∧
      ∀ event ∈ failingCalls audit, event.op.reliable = true → event.answer.isOk = true := by
  have hevent : ∀ event ∈ failingCalls audit, ∀ exc, event.answer = .error exc →
      exc.isException = true ∧ event.op.reliable = false := by
    intro event hmem exc hanswer
    have hraised := List.all_eq_true.mp h event hmem
    rw [hanswer] at hraised
    simpa using hraised
  refine ⟨fun event hmem exc hanswer => (hevent event hmem exc hanswer).1, ?_⟩
  intro event hmem hreliable
  cases hanswer : event.answer with
  | ok value => rfl
  | error exc =>
      rw [(hevent event hmem exc hanswer).2] at hreliable
      cases hreliable

/-- The upstream fails, and the job is marked as failed. -/
theorem job_ends_iff_failed :
    (InMemoryBatchJobStore.store.table (failedWorld (.ok ())).store).Ended "job" ∧
      HandlerReturns (failingCalls (.ok ())) := by
  obtain ⟨hraises, hreliable⟩ := raises_failingCalls (.ok ()) rfl
  have htraces := plainWorker.processOne.traces_trace (failingReply (.ok ())) queuedWorld
  have hiff := (job_ends_iff InMemoryBatchJobStore.store plainWorker (fun _ _ h => by cases h) htraces hraises hreliable
    (failingCalls_moved (.ok ()))).1 _ _ (runs_failingCalls (.ok ()))
  have hended : (InMemoryBatchJobStore.store.table (failedWorld (.ok ())).store).Ended "job" := ⟨.failed, rfl, rfl⟩
  exact ⟨hended, hiff.mp hended⟩

/-- The upstream fails and the audit database cannot be reached: the job is running for good. -/
theorem job_not_ended :
    ¬ ∀ (self : BatchWorker), (∀ text exc, self.tokenEstimator text = .error exc → exc.isException = true) →
      ∀ (calls : BatchCalls) (outcome : Except PyExc Bool), self.processOne.Traces calls outcome →
        RaisesExceptions calls →
        (∀ event ∈ calls, event.op.reliable = true → event.answer.isOk = true) →
        ∀ (jobId : String) (record : BatchJobRecord) (w w' : BatchWorld InMemoryBatchJobStore),
          ⟨.transition jobId .running, .ok (some record)⟩ ∈ calls →
          InMemoryBatchJobStore.store.exec.Runs w calls w' →
            (InMemoryBatchJobStore.store.table w'.store).Ended jobId := by
  intro h
  obtain ⟨hraises, hreliable⟩ := raises_failingCalls (.error unreachable) rfl
  have htraces := plainWorker.processOne.traces_trace (failingReply (.error unreachable)) queuedWorld
  obtain ⟨status, hstatus, hterminal⟩ := h plainWorker (fun _ _ h => by cases h) _ _ htraces hraises hreliable "job"
    plainJob queuedWorld _ (failingCalls_moved _) (runs_failingCalls _)
  have hrunning : InMemoryBatchJobStore.store.table (failedWorld (.error unreachable)).store "job" = some .running := rfl
  rw [hstatus] at hrunning
  cases hrunning
  cases hterminal

end GpuInference
