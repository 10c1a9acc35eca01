import GpuInference.BatchWorker

/-!
The protocol of the batch callers. What the calls of a thread have told so far is its `Progress`:
the job it has taken from the queue, whether it has moved it to running and marked it, how often it
has asked for a completion, and how far a cancellation has come. The service, the worker and the
scanner make every call at a point where the protocol allows it.
-/

open Effect

namespace GpuInference

/-- How far a cancellation has come: the job was found, the transition to cancelled was refused, or
a record was seen that is final. -/
inductive CancelStage where
  | none
  | found (jobId : String)
  | refused (jobId : String)
  | closed (jobId : String) (record : BatchJobRecord)

/-- The record that `get` returned; after a refused transition it is the one to be returned. -/
def CancelStage.see (stage : CancelStage) (jobId : String) (record : BatchJobRecord) : CancelStage :=
  match stage with
  | refused _ => closed jobId record
  | _ => if record.status.terminal then closed jobId record else found jobId

/-- What the calls of a thread have told so far. -/
structure Progress where
  taken : Option String
  moved : Bool
  marked : Bool
  asked : Nat
  cancel : CancelStage

namespace Progress

def start : Progress := ⟨none, false, false, 0, .none⟩

def after (φ : Progress) : (op : BatchOp) → Except PyExc op.Res → Progress
  | .dequeue, .ok (some jobId) => { φ with taken := some jobId }
  | .get jobId, .ok (some record) => { φ with cancel := φ.cancel.see jobId record }
  | .transition _ .running, .ok (some _) => { φ with moved := true }
  | .transition jobId .cancelled, .ok (some record) => { φ with cancel := .closed jobId record }
  | .transition jobId .cancelled, .ok none => { φ with cancel := .refused jobId }
  | .markSucceeded _ _ _, .ok _ => { φ with marked := true }
  | .markFailed _ _ _, .ok _ => { φ with marked := true }
  | .createChatCompletion _, _ => { φ with asked := φ.asked + 1 }
  | _, _ => φ

/-- The thread has moved its job to running and has not marked it yet. -/
def holds (φ : Progress) (jobId : String) : Prop :=
  φ.taken = some jobId ∧ φ.moved = true ∧ φ.marked = false

end Progress

/-- Which calls a thread makes, and when. -/
def batchProtocol : Protocol BatchOp BatchOp.Res PyExc Progress where
  may φ
    | .dequeue => φ.taken = none
    | .get jobId => ∀ other, φ.cancel = .refused other → other = jobId
    | .transition jobId .running => φ.taken = some jobId ∧ φ.moved = false
    | .transition jobId .cancelled => φ.cancel = .found jobId
    | .transition _ _ => False
    | .markSucceeded jobId _ _ => φ.holds jobId
    | .markFailed jobId _ _ => φ.holds jobId
    | .createChatCompletion _ => φ.moved = true ∧ φ.marked = false ∧ φ.asked = 0
    | _ => True
  after := Progress.after

/-- What a batch caller returns. -/
inductive BatchOutcome where
  | submitted (record : BatchJobRecord)
  | fetched (record : BatchJobRecord)
  | cancelled (jobId : String) (record : BatchJobRecord)
  | processed (result : Bool)
  | requeued (count : Int)

/-- The programs that run against the store and the queue. -/
inductive BatchCaller : BatchProgram BatchOutcome → Prop
  | submit (authContext : AuthContext) (requestBody : BatchJobCreateRequest) :
      BatchCaller ((BatchJobService.submit authContext requestBody).bind fun job => .ret (.submitted job))
  | get (jobId : String) : BatchCaller ((BatchJobService.get jobId).bind fun job => .ret (.fetched job))
  | cancel (jobId : String) :
      BatchCaller ((BatchJobService.cancel jobId).bind fun job => .ret (.cancelled jobId job))
  | worker (self : BatchWorker) : BatchCaller (self.processOne.bind fun done => .ret (.processed done))
  | scanner (limit : Int) :
      BatchCaller ((BatchRecoveryScanner.reenqueueMissing limit).bind fun count => .ret (.requeued count))

/-- A caller that returns has marked the job it moved, and a cancellation returns what it has seen. -/
def batchDone (φ : Progress) : Except PyExc BatchOutcome → Prop
  | .ok outcome => (φ.moved = true → φ.marked = true) ∧
      ∀ jobId record, outcome = .cancelled jobId record → φ.cancel = .closed jobId record
  | .error _ => True

/-- A program whose calls are all unrestricted leaves the progress as it was. -/
theorem follows_submit (authContext : AuthContext) (requestBody : BatchJobCreateRequest)
    (φ : Progress) :
    (BatchJobService.submit authContext requestBody).Follows batchProtocol (fun ψ _ => ψ = φ) φ := by
  unfold BatchJobService.submit
  simp only
  split
  · exact rfl
  · refine Program.follows_perform_bind trivial (fun _ => rfl) fun job => ?_
    rw [Program.bind_eq, Program.follows_bind, Program.follows_tryExcept]
    refine (Program.follows_perform _ _).mpr ⟨trivial, ?_⟩
    rintro (exc | value)
    · simp only [Program.exceptDone]
      split
      · exact rfl
      · exact rfl
    · exact rfl

theorem follows_get (jobId : String) (φ : Progress) (hsee : ∀ other, φ.cancel = .refused other → other = jobId)
    {done : Progress → Except PyExc BatchJobRecord → Prop} (herror : ∀ ψ exc, done ψ (.error exc))
    (hok : ∀ record, done { φ with cancel := φ.cancel.see jobId record } (.ok record)) :
    (BatchJobService.get jobId).Follows batchProtocol done φ := by
  refine Program.follows_perform_bind hsee (fun exc => herror _ exc) ?_
  rintro (none | record)
  · exact herror _ _
  · exact hok record

/-- The end of a cancellation: what it returns, it has seen to be final. -/
def cancelDone (jobId : String) (φ : Progress) (outcome : Except PyExc BatchJobRecord) : Prop :=
  ∀ record, outcome = .ok record → φ.moved = false ∧ φ.cancel = .closed jobId record

theorem cancelDone_error (jobId : String) (φ : Progress) (exc : PyExc) :
    cancelDone jobId φ (.error exc) := by
  intro record h
  cases h

/-- A cancellation returns a record it has seen to be final. -/
theorem follows_cancel (jobId : String) :
    (BatchJobService.cancel jobId).Follows batchProtocol (cancelDone jobId) Progress.start := by
  rw [BatchJobService.cancel, Program.bind_eq, Program.follows_bind]
  have hstart : ∀ other, Progress.start.cancel = .refused other → other = jobId := by
    intro other hother
    cases hother
  refine follows_get jobId _ hstart (cancelDone_error jobId) fun record => ?_
  simp only [Program.seqDone, Progress.start, CancelStage.see]
  by_cases hterminal : record.status.terminal = true
  · simp only [if_pos hterminal]
    intro other hother
    cases hother
    exact ⟨rfl, rfl⟩
  · simp only [if_neg hterminal]
    refine Program.follows_perform_bind rfl (cancelDone_error jobId _) ?_
    rintro (none | cancelled)
    · refine follows_get jobId _ ?_ (cancelDone_error jobId) ?_
      · intro other hother
        cases hother
        rfl
      · intro record' other hother
        cases hother
        exact ⟨rfl, rfl⟩
    · intro other hother
      cases hother
      exact ⟨rfl, rfl⟩

/-- A worker at its end: it marked the job, or it raises. -/
def workerDone (φ : Progress) : Except PyExc Bool → Prop
  | .ok _ => φ.moved = true → φ.marked = true
  | .error _ => True

theorem follows_emitUsageEvent (self : BatchWorker) (event : UsageEvent) (φ : Progress) :
    (self.emitUsageEvent event).Follows batchProtocol
      (fun ψ outcome => ψ = φ ∧ ∀ exc, outcome = .error exc → exc.isException = false) φ := by
  unfold BatchWorker.emitUsageEvent
  by_cases hcollector : self.analyticsCollector = true
  · rw [if_pos hcollector]
    refine Program.follows_dropped _ trivial (fun _ => ⟨rfl, nofun⟩) ?_
    intro exc hexc
    refine ⟨rfl, ?_⟩
    intro exc' hexc'
    cases hexc'
    exact hexc
  · rw [if_neg hcollector]
    exact ⟨rfl, nofun⟩

/-- The body of the `try` statement returns with the job marked; whatever the handler catches leaves
it unmarked. -/
def completeDone (jobId : String) (φ : Progress) : Except PyExc Bool → WorkerLocals → Prop
  | .ok _, _ => φ.marked = true
  | .error exc, _ => exc.isException = true → φ.holds jobId

theorem meets_complete (self : BatchWorker) (jobId : String) (running : BatchJobRecord)
    (requestId : String) (authContext : AuthContext) (l : WorkerLocals) {φ : Progress}
    (hholds : φ.holds jobId) (hasked : φ.asked = 0) :
    Block.Meets batchProtocol (completeDone jobId) φ l
      (self.complete jobId running requestId authContext) := by
  unfold BatchWorker.complete
  rw [Block.meets_lift_bind]
  cases chatRequestFromBatch self.lax running with
  | error exc => exact fun _ => hholds
  | ok requestBody =>
  show Block.Meets _ _ _ _ _
  rw [Block.meets_lift_bind]
  cases buildTokenPlan requestBody self.tokenEstimator self.settings with
  | error exc => exact fun _ => hholds
  | ok tokenPlan =>
  refine Block.meets_perform_bind trivial (fun _ _ => hholds) fun lease => ?_
  rw [Block.meets_assign_bind]
  refine Block.meets_perform_bind trivial (fun _ _ => hholds) fun recordId => ?_
  rw [Block.meets_assign_bind]
  refine Block.meets_perform_bind ⟨hholds.2.1, hholds.2.2, hasked⟩ (fun _ _ => hholds) fun response => ?_
  rw [Block.meets_lift_bind]
  cases usageFromResponse response tokenPlan self.tokenEstimator with
  | error exc => exact fun _ => hholds
  | ok usage =>
  refine Block.meets_perform_bind trivial (fun _ _ => hholds) fun _ => ?_
  refine Block.meets_perform_bind trivial (fun _ _ => hholds) fun latencyMs => ?_
  refine Block.meets_perform_bind trivial (fun _ _ => hholds) fun _ => ?_
  refine Block.meets_perform_bind hholds (fun _ _ => hholds) fun _ => ?_
  rw [Block.meets_bind, Block.meets_await]
  refine Program.Follows.mono (follows_emitUsageEvent self _ _) ?_
  rintro ψ (exc | value) ⟨rfl, hbase⟩
  · intro hexc
    rw [hbase exc rfl] at hexc
    cases hexc
  · exact rfl

/-- The handler marks the job failed, unless one of its calls raises. -/
theorem meets_fail (jobId : String) (exc : PyExc) (l : WorkerLocals) {φ : Progress}
    (hholds : φ.holds jobId) :
    Block.Meets batchProtocol (fun ψ outcome _ => workerDone ψ outcome) φ l
      (BatchWorker.fail jobId exc) := by
  unfold BatchWorker.fail
  rw [Block.meets_locals_bind]
  have hmark : Block.Meets batchProtocol (fun ψ outcome _ => workerDone ψ outcome) φ l
      (Block.await (batchCall (.markFailed jobId (exc.codeOr "batch_job_failed") exc.text)) >>=
        fun _ => pure true) :=
    Block.meets_perform_bind hholds (fun _ => trivial) fun _ _ => rfl
  refine Block.meets_await_bind ?_ (fun _ => trivial) fun _ => ?_
  · cases l.admissionLease with
    | none => exact rfl
    | some lease => exact (Program.follows_perform _ _).mpr ⟨trivial, fun _ => rfl⟩
  · refine Block.meets_await_bind ?_ (fun _ => trivial) fun _ => hmark
    cases l.auditRecordId with
    | none => exact rfl
    | some recordId =>
        refine Program.follows_perform_bind trivial (fun _ => rfl) fun latencyMs => ?_
        exact (Program.follows_perform _ _).mpr ⟨trivial, fun _ => rfl⟩

theorem meets_leave (l : WorkerLocals) (φ : Progress) :
    Block.Meets batchProtocol (fun ψ _ _ => ψ = φ) φ l BatchWorker.leave := by
  unfold BatchWorker.leave
  rw [Block.meets_locals_bind, Block.meets_await]
  cases l.admissionLease with
  | none => exact rfl
  | some lease => exact (Program.follows_perform _ _).mpr ⟨trivial, fun _ => rfl⟩

theorem follows_runJob (self : BatchWorker) (jobId : String) (running : BatchJobRecord) {φ : Progress}
    (hholds : φ.holds jobId) (hasked : φ.asked = 0) :
    (self.runJob jobId running).Follows batchProtocol workerDone φ := by
  rw [BatchWorker.runJob, Program.bind_eq, Program.follows_bind, generateRequestId]
  refine Program.follows_perform_bind trivial (fun _ => trivial) fun hex => ?_
  refine Block.Meets.toProgram ?_
  rw [Block.meets_tryFinally, Block.meets_tryExcept]
  have hleave : ∀ (ψ : Progress) (outcome : Except PyExc Bool) (l : WorkerLocals), workerDone ψ outcome →
      Block.Meets batchProtocol (Block.finallyPost (fun χ outcome _ => workerDone χ outcome) outcome) ψ l
        BatchWorker.leave := by
    intro ψ outcome l hdone
    refine (meets_leave l ψ).mono ?_
    rintro χ (exc | value) l' rfl
    · exact trivial
    · exact hdone
  refine (meets_complete self jobId running _ _ _ hholds hasked).mono ?_
  rintro ψ (exc | value) l hcomplete
  · simp only [Block.exceptPost]
    by_cases hexc : exc.isException = true
    · rw [if_pos hexc]
      exact (meets_fail jobId exc l (hcomplete hexc)).mono fun χ outcome l' hdone => hleave χ outcome l' hdone
    · rw [if_neg hexc]
      exact hleave ψ _ l trivial
  · exact hleave ψ _ l fun _ => hcomplete

theorem follows_postpones (self : BatchWorker) (φ : Progress) :
    self.postpones.Follows batchProtocol (fun ψ _ => ψ = φ) φ := by
  unfold BatchWorker.postpones
  by_cases hrun : self.shouldRunJob = true
  · rw [if_pos hrun]
    exact Program.follows_perform_bind trivial (fun _ => rfl) fun _ => rfl
  · rw [if_neg hrun]
    exact rfl

theorem follows_processOne (self : BatchWorker) :
    self.processOne.Follows batchProtocol workerDone Progress.start := by
  unfold BatchWorker.processOne
  refine Program.follows_perform_bind rfl (fun _ => trivial) ?_
  rintro (none | jobId)
  · exact nofun
  refine Program.follows_perform_bind ?_ (fun _ => trivial) ?_
  · intro other hother
    cases hother
  rintro (none | job)
  · exact nofun
  simp only
  split
  · exact nofun
  rw [Program.bind_eq, Program.follows_bind]
  refine (follows_postpones self _).mono ?_
  rintro ψ (exc | postponed) rfl
  · exact trivial
  simp only [Program.seqDone]
  split
  · exact Program.follows_perform_bind trivial (fun _ => trivial) fun _ => nofun
  · refine Program.follows_perform_bind ⟨rfl, rfl⟩ (fun _ => trivial) ?_
    rintro (none | running)
    · exact nofun
    · exact follows_runJob self jobId running ⟨rfl, rfl, rfl⟩ rfl

theorem follows_reenqueue (jobs : List BatchJobRecord) (requeued : Int) (φ : Progress) :
    (BatchRecoveryScanner.reenqueue jobs requeued).Follows batchProtocol (fun ψ _ => ψ = φ) φ := by
  induction jobs generalizing requeued with
  | nil => exact rfl
  | cons job jobs ih =>
      refine Program.follows_perform_bind trivial (fun _ => rfl) fun contained => ?_
      split
      · exact ih requeued
      · exact Program.follows_perform_bind trivial (fun _ => rfl) fun _ => ih (requeued + 1)

theorem follows_reenqueueMissing (limit : Int) (φ : Progress) :
    (BatchRecoveryScanner.reenqueueMissing limit).Follows batchProtocol (fun ψ _ => ψ = φ) φ :=
  Program.follows_perform_bind trivial (fun _ => rfl) fun jobs => follows_reenqueue jobs 0 _

/-- **Every caller follows the protocol.** -/
theorem follows_caller {program : BatchProgram BatchOutcome} (h : BatchCaller program) :
    program.Follows batchProtocol batchDone Progress.start := by
  -- only a cancellation has to show what it has seen
  have hother : ∀ {φ : Progress} {outcome : BatchOutcome}, (φ.moved = true → φ.marked = true) →
      (∀ jobId record, outcome ≠ .cancelled jobId record) → batchDone φ (.ok outcome) := by
    intro φ outcome hmarked hne
    exact ⟨hmarked, fun jobId record h => absurd h (hne jobId record)⟩
  cases h with
  | submit authContext requestBody =>
      rw [Program.follows_bind]
      refine (follows_submit authContext requestBody _).mono ?_
      rintro ψ (exc | job) rfl
      · exact trivial
      · exact hother nofun fun _ _ h => by cases h
  | get jobId =>
      rw [Program.follows_bind]
      refine follows_get jobId _ ?_ (fun _ _ => trivial) fun _ => hother nofun fun _ _ h => by cases h
      intro other hrefused
      cases hrefused
  | cancel jobId =>
      rw [Program.follows_bind]
      refine (follows_cancel jobId).mono ?_
      rintro ψ (exc | record) hclosed
      · exact trivial
      · obtain ⟨hmoved, hcancel⟩ := hclosed record rfl
        refine ⟨?_, ?_⟩
        · intro hmoved'
          rw [hmoved] at hmoved'
          cases hmoved'
        · intro other record' hother
          cases hother
          exact hcancel
  | worker self =>
      rw [Program.follows_bind]
      refine (follows_processOne self).mono ?_
      rintro ψ (exc | value) hdone
      · exact trivial
      · exact hother hdone fun _ _ h => by cases h
  | scanner limit =>
      rw [Program.follows_bind]
      refine (follows_reenqueueMissing limit _).mono ?_
      rintro ψ (exc | count) rfl
      · exact trivial
      · exact hother nofun fun _ _ h => by cases h

end GpuInference
