import GpuInference.AllowedModels
import GpuInference.EffectFrame
import GpuInference.WorkerTrace

/-!
What the records of batch jobs tell. A record carries what its job was submitted with and how it ended, and in every
interleaving of submitters, readers, cancellations, workers and scanners both are true: the job was submitted so, a
success holds the response that a worker got for the payload of this very job, a failure names the exception of its
worker, and a job that has not ended shows nothing. Once a job has ended, its record stays.
-/

open Effect

namespace GpuInference

/-- What a job was submitted with. -/
structure JobSubmission where
  userId : String
  projectId : String
  apiKeyId : String
  model : String
  inputPayload : JsonObject
  requestCount : Int

/-- How a job has ended. -/
structure JobOutcome where
  resultPayload : Option JsonObject
  errorCode : Option String
  errorMessage : Option String
  completedCount : Int
  failedCount : Int

def BatchJobRecord.submission (job : BatchJobRecord) : JobSubmission :=
  ⟨job.userId, job.projectId, job.apiKeyId, job.model, job.inputPayload, job.requestCount⟩

def BatchJobRecord.outcome (job : BatchJobRecord) : JobOutcome :=
  ⟨job.resultPayload, job.errorCode, job.errorMessage, job.completedCount, job.failedCount⟩

/-- A request with this context has submitted the payload. -/
def AuthContext.submission (authContext : AuthContext) (payload : JsonObject) (model : String) : JobSubmission :=
  ⟨authContext.userId, authContext.projectId, authContext.apiKeyId, model, payload, 1⟩

namespace JobOutcome

def pending : JobOutcome := ⟨none, none, none, 0, 0⟩

def succeeded (result : JsonObject) : JobOutcome := ⟨some result, none, none, 1, 0⟩

def failed (code : Option String) (message : String) : JobOutcome := ⟨none, code, some message, 0, 1⟩

end JobOutcome

/-- The job has reached no mark: it is queued, running or cancelled. -/
def JobStatus.unmarked (status : JobStatus) : Prop := status ≠ .succeeded ∧ status ≠ .failed

/-- A mark keeps the submission, and tells the outcome of a job that had none. -/
structure BatchJobStore.Marking.Settles (marking : BatchJobStore.Marking) : Prop where
  succeeded : ∀ result usage old new, marking.succeeded result usage old new →
    new.submission = old.submission ∧ new.status = .succeeded ∧
      (old.outcome = .pending → new.outcome = .succeeded result)
  failed : ∀ code message old new, marking.failed code message old new →
    new.submission = old.submission ∧ new.status = .failed ∧
      (old.outcome = .pending → ∃ text, text.toList <+: message.toList ∧ new.outcome = .failed (marking.code code) text)

theorem InMemoryBatchJobStore.marking_settles : InMemoryBatchJobStore.marking.Settles where
  succeeded := by
    rintro result usage old new rfl
    refine ⟨rfl, rfl, ?_⟩
    intro hpending
    simp only [BatchJobRecord.outcome, JobOutcome.pending, JobOutcome.mk.injEq] at hpending
    simp [BatchJobRecord.outcome, JobOutcome.succeeded, hpending]
  failed := by
    rintro code message old new rfl
    refine ⟨rfl, rfl, ?_⟩
    intro hpending
    simp only [BatchJobRecord.outcome, JobOutcome.pending, JobOutcome.mk.injEq] at hpending
    refine ⟨message, List.prefix_rfl, ?_⟩
    simp [BatchJobRecord.outcome, JobOutcome.failed, hpending, marking]

theorem PostgresBatchJobStore.marking_settles : PostgresBatchJobStore.marking.Settles where
  succeeded := by
    rintro result usage old new ⟨metadata, rfl⟩
    exact ⟨rfl, rfl, fun _ => rfl⟩
  failed := by
    rintro code message old new ⟨metadata, rfl⟩
    refine ⟨rfl, rfl, ?_⟩
    intro hpending
    simp only [BatchJobRecord.outcome, JobOutcome.pending, JobOutcome.mk.injEq] at hpending
    refine ⟨String.ofList (message.toList.take 1024), ?_, ?_⟩
    · rw [String.toList_ofList]
      exact List.take_prefix _ _
    · simp [BatchJobRecord.outcome, JobOutcome.failed, hpending, marking]

/-- The record that a call has shown. -/
def BatchEvent.record : BatchEvent → Option BatchJobRecord
  | ⟨.create _ _ _, .ok job⟩ => some job
  | ⟨.get _, .ok job⟩ => job
  | ⟨.transition _ _, .ok job⟩ => job
  | ⟨.markSucceeded _ _ _, .ok job⟩ => job
  | ⟨.markFailed _ _ _, .ok job⟩ => job
  | _ => none

/-- The records of a store, by job. -/
abbrev JobRecords := String → Option BatchJobRecord

/-- Everything that one call of the system does to the records. -/
inductive RecordStep (marking : BatchJobStore.Marking) (records : JobRecords) : BatchEvent → JobRecords → Prop
  | idle {event : BatchEvent} (hnone : event.record = none) : RecordStep marking records event records
  | get {jobId : String} {job : BatchJobRecord} (hjob : records jobId = some job) :
      RecordStep marking records ⟨.get jobId, .ok (some job)⟩ records
  | create {authContext : AuthContext} {payload metadata : JsonObject} {model : String} {job : BatchJobRecord}
      (hfresh : records job.id = none)
      (hjob : job = createdRecord job.id (marking.caller authContext) payload (marking.model model) metadata) :
      RecordStep marking records ⟨.create authContext payload model, .ok job⟩ (Function.update records job.id (some job))
  | move {jobId : String} {target : JobStatus} {old new : BatchJobRecord} (hold : records jobId = some old)
      (hlive : old.status.terminal = false) (htarget : target = .running ∨ target = .cancelled)
      (hnew : new = { old with status := target }) :
      RecordStep marking records ⟨.transition jobId target, .ok (some new)⟩ (Function.update records jobId (some new))
  | succeed {jobId : String} {result usage : JsonObject} {old new : BatchJobRecord} (hold : records jobId = some old)
      (hrunning : old.status = .running) (hid : new.id = jobId) (hsubmission : new.submission = old.submission)
      (hstatus : new.status = .succeeded) (houtcome : old.outcome = .pending → new.outcome = .succeeded result) :
      RecordStep marking records ⟨.markSucceeded jobId result usage, .ok (some new)⟩
        (Function.update records jobId (some new))
  | fail {jobId : String} {code : Option String} {message : String} {old new : BatchJobRecord}
      (hold : records jobId = some old) (hrunning : old.status = .running) (hid : new.id = jobId)
      (hsubmission : new.submission = old.submission) (hstatus : new.status = .failed)
      (houtcome : old.outcome = .pending →
        ∃ text, text.toList <+: message.toList ∧ new.outcome = .failed (marking.code code) text) :
      RecordStep marking records ⟨.markFailed jobId code message, .ok (some new)⟩ (Function.update records jobId (some new))

namespace BatchJobStore

variable {S : Type} {store : BatchJobStore S} {marking : Marking}

def records (store : BatchJobStore S) (s : S) : JobRecords := fun jobId => store.get jobId s

theorem id_of_records {s : S} {jobId : String} {job : BatchJobRecord} (h : store.records s jobId = some job) :
    job.id = jobId := (store.get_shows jobId s).2 job h

theorem table_of_records {s : S} {jobId : String} {job : BatchJobRecord} (h : store.records s jobId = some job) :
    store.table s jobId = some job.status := by
  rw [← (store.get_shows jobId s).1]
  exact congrArg (Option.map BatchJobRecord.status) h

/-- A call that writes one record reads, or writes what it may. -/
theorem recordStep_of_rewrites {jobId : String} {guard : JobStatus → Bool}
    {write : BatchJobRecord → BatchJobRecord → Prop} {s s' : S} {record : Option BatchJobRecord} {event : BatchEvent}
    (h : store.Rewrites jobId guard write s record s') (hevent : BatchEvent.record event = record)
    (hwrite : ∀ old new, store.records s jobId = some old → guard old.status = true → write old new →
      store.records s' jobId = some new → record = some new →
      RecordStep marking (store.records s) event (Function.update (store.records s) jobId (some new))) :
    RecordStep marking (store.records s) event (store.records s') := by
  rcases h with ⟨rfl, -, hafter⟩ | ⟨old, new, hold, hguard, hnew, rfl, hafter⟩
  · have hsame : store.records s' = store.records s := funext hafter
    rw [hsame]
    exact .idle hevent
  · have hupdate : store.records s' = Function.update (store.records s) jobId (some new) := by
      funext other
      rw [records, hafter, Function.update_apply]
      rfl
    rw [hupdate]
    refine hwrite old new hold hguard hnew ?_ rfl
    rw [hupdate, Function.update_self]

/-- **What one call does**, of a thread whose progress is sound. -/
theorem recordStep_of_exec (hacts : store.ActsOnRecords marking) (hmarks : marking.Settles) {φ : Progress}
    {w w' : BatchWorld S} {op : BatchOp} {answer : Except PyExc op.Res} (hsound : φ.Sound (store.table w.store))
    (hmay : batchProtocol.may φ op) (hexec : store.exec op w answer w') :
    RecordStep marking (store.records w.store) ⟨op, answer⟩ (store.records w'.store) := by
  have hidle : w'.store = w.store → BatchEvent.record ⟨op, answer⟩ = none →
      RecordStep marking (store.records w.store) ⟨op, answer⟩ (store.records w'.store) := by
    intro hstore hnone
    rw [hstore]
    exact .idle hnone
  -- the job of a thread that may mark it is running, unless it is cancelled
  have hrunning : ∀ {jobId : String} {old : BatchJobRecord}, φ.holds jobId →
      store.records w.store jobId = some old → markable old.status = true → old.status = .running := by
    intro jobId old hholds hold hmarkable
    have hstatus := table_of_records hold
    rcases hsound.holds jobId hholds with hrun | hcancelled
    · exact Option.some.inj (hstatus.symm.trans hrun)
    · rw [Option.some.inj (hstatus.symm.trans hcancelled)] at hmarkable
      cases hmarkable
  rcases answer with exc | value
  · exact hidle hexec.1 (by cases op <;> rfl)
  obtain ⟨hreplies, -⟩ := hexec
  cases op
  case create authContext payload model =>
    obtain ⟨hfresh, ⟨metadata, hjob⟩, hafter⟩ := hacts.create _ _ _ _ _ _ hreplies
    have hupdate : store.records w'.store = Function.update (store.records w.store) value.id (some value) := by
      funext other
      rw [records, hafter, Function.update_apply]
      rfl
    rw [hupdate]
    exact .create hfresh hjob
  case get jobId =>
    obtain ⟨hvalue, hstore⟩ := hreplies
    rw [hstore]
    cases value with
    | none => exact .idle rfl
    | some job => exact .get hvalue.symm
  case transition jobId target =>
    have htarget : target = .running ∨ target = .cancelled := by
      cases target
      case running => exact .inl rfl
      case cancelled => exact .inr rfl
      all_goals exact hmay.elim
    refine recordStep_of_rewrites (hacts.transition _ _ _ _ _ hreplies) rfl ?_
    rintro old new hold hcan hnew - rfl
    refine .move hold ?_ htarget hnew
    cases hterminal : old.status.terminal with
    | false => rfl
    | true =>
        rw [canTransition_of_terminal hterminal] at hcan
        cases hcan
  case markSucceeded jobId result usage =>
    refine recordStep_of_rewrites (hacts.markSucceeded _ _ _ _ _ _ hreplies) rfl ?_
    rintro old new hold hmarkable hnew hafter rfl
    obtain ⟨hsubmission, hstatus, houtcome⟩ := hmarks.succeeded _ _ _ _ hnew
    exact .succeed hold (hrunning hmay hold hmarkable) (id_of_records hafter) hsubmission hstatus houtcome
  case markFailed jobId code message =>
    refine recordStep_of_rewrites (hacts.markFailed _ _ _ _ _ _ hreplies) rfl ?_
    rintro old new hold hmarkable hnew hafter rfl
    obtain ⟨hsubmission, hstatus, houtcome⟩ := hmarks.failed _ _ _ _ hnew
    exact .fail hold (hrunning hmay hold hmarkable) (id_of_records hafter) hsubmission hstatus houtcome
  case dequeue => exact hidle hreplies.2 rfl
  case contains => exact hidle hreplies.2 rfl
  case listRecoverable => exact hidle hreplies.2 rfl
  all_goals exact hidle hreplies rfl

end BatchJobStore

/-- The calls behind a record. -/
structure Tells (marking : BatchJobStore.Marking) (made : BatchEvent → Prop) (job : BatchJobRecord) : Prop where
  submitted : ∃ authContext model created, made ⟨.create authContext job.inputPayload model, .ok created⟩ ∧
    created.id = job.id ∧
      job.submission = (marking.caller authContext).submission job.inputPayload (marking.model model)
  pending : job.status.unmarked → job.outcome = .pending
  succeeded : job.status = .succeeded → ∃ result usage marked,
    made ⟨.markSucceeded job.id result usage, .ok (some marked)⟩ ∧ job.outcome = .succeeded result
  failed : job.status = .failed → ∃ code message marked text,
    made ⟨.markFailed job.id code message, .ok (some marked)⟩ ∧ text.toList <+: message.toList ∧
      job.outcome = .failed (marking.code code) text

/-- What the calls tell of the stored records, and of the records that they have shown. -/
structure Booked (marking : BatchJobStore.Marking) (records : JobRecords) (made : BatchEvent → Prop) : Prop where
  keyed : ∀ jobId job, records jobId = some job → job.id = jobId
  stored : ∀ jobId job, records jobId = some job → Tells marking made job
  shown : ∀ event job, made event → job ∈ BatchEvent.record event → Tells marking made job ∧
    (records job.id).map BatchJobRecord.submission = some job.submission
  moved : ∀ jobId target job, made ⟨.transition jobId target, .ok (some job)⟩ → job.id = jobId

section Booked

variable {marking : BatchJobStore.Marking} {records records' : JobRecords} {made more : BatchEvent → Prop}
  {event : BatchEvent}

theorem Tells.mono {job : BatchJobRecord} (h : Tells marking made job) (hmore : ∀ event, made event → more event) :
    Tells marking more job where
  submitted := by
    obtain ⟨authContext, model, created, hmade, hid⟩ := h.submitted
    exact ⟨authContext, model, created, hmore _ hmade, hid⟩
  pending := h.pending
  succeeded hstatus := by
    obtain ⟨result, usage, marked, hmade, houtcome⟩ := h.succeeded hstatus
    exact ⟨result, usage, marked, hmore _ hmade, houtcome⟩
  failed hstatus := by
    obtain ⟨code, message, marked, text, hmade, houtcome⟩ := h.failed hstatus
    exact ⟨code, message, marked, text, hmore _ hmade, houtcome⟩

/-- A record that keeps the submission of another is told of by the same submission. -/
theorem Tells.submitted_of_eq {old new : BatchJobRecord} (h : Tells marking made old)
    (hid : new.id = old.id) (hsubmission : new.submission = old.submission) : ∃ authContext model created,
      (made ⟨.create authContext new.inputPayload model, .ok created⟩ ∨
        (⟨.create authContext new.inputPayload model, .ok created⟩ : BatchEvent) = event) ∧
      created.id = new.id ∧
        new.submission = (marking.caller authContext).submission new.inputPayload (marking.model model) := by
  obtain ⟨authContext, model, created, hmade, hcreated, hold⟩ := h.submitted
  have hpayload : new.inputPayload = old.inputPayload := congrArg JobSubmission.inputPayload hsubmission
  rw [hpayload, hid, hsubmission]
  exact ⟨authContext, model, created, .inl hmade, hcreated, hold⟩

theorem unmarked_of_live {status : JobStatus} (h : status.terminal = false) : status.unmarked := by
  cases status
  case queued => exact ⟨nofun, nofun⟩
  case running => exact ⟨nofun, nofun⟩
  all_goals cases h

/-- A call that shows a stored record, or none. -/
theorem Booked.same (h : Booked marking records made) (hshown : ∀ job ∈ BatchEvent.record event, records job.id = some job)
    (hmoved : ∀ jobId target job, event ≠ ⟨.transition jobId target, .ok (some job)⟩) :
    Booked marking records fun other => made other ∨ other = event where
  keyed := h.keyed
  stored jobId job hjob := (h.stored jobId job hjob).mono fun _ => .inl
  shown other job hmade hjob := by
    rcases hmade with hmade | rfl
    · obtain ⟨htold, hsame⟩ := h.shown other job hmade hjob
      exact ⟨htold.mono fun _ => .inl, hsame⟩
    · have hget := hshown job hjob
      refine ⟨(h.stored _ job hget).mono fun _ => .inl, ?_⟩
      rw [hget]
      rfl
  moved jobId target job hmade := by
    rcases hmade with hmade | hevent
    · exact h.moved jobId target job hmade
    · exact absurd hevent.symm (hmoved jobId target job)

/-- The write of one record: what it tells, and that it keeps the submission. -/
theorem Booked.write (h : Booked marking records made) {jobId : String} {old new : BatchJobRecord}
    (hold : records jobId = some old) (hid : new.id = jobId) (hsubmission : new.submission = old.submission)
    (hrecord : BatchEvent.record event = some new)
    (hmoved : ∀ other target job, event = ⟨.transition other target, .ok (some job)⟩ → job.id = other)
    (htells : Tells marking (fun other => made other ∨ other = event) new) :
    Booked marking (Function.update records jobId (some new)) fun other => made other ∨ other = event where
  keyed other job hjob := by
    rw [Function.update_apply] at hjob
    split at hjob
    · rename_i hother
      rw [hother, ← Option.some.inj hjob, hid]
    · exact h.keyed other job hjob
  stored other job hjob := by
    rw [Function.update_apply] at hjob
    split at hjob
    · rw [← Option.some.inj hjob]
      exact htells
    · exact (h.stored other job hjob).mono fun _ => .inl
  shown other job hmade hjob := by
    rw [Function.update_apply]
    rcases hmade with hmade | rfl
    · obtain ⟨htold, hsame⟩ := h.shown other job hmade hjob
      refine ⟨htold.mono fun _ => .inl, ?_⟩
      split
      · rename_i hother
        rw [hother, hold] at hsame
        exact congrArg some (hsubmission.trans (Option.some.inj hsame))
      · exact hsame
    · obtain rfl := Option.some.inj (hrecord.symm.trans hjob)
      rw [if_pos hid]
      exact ⟨htells, rfl⟩
  moved other target job hmade := by
    rcases hmade with hmade | hevent
    · exact h.moved other target job hmade
    · exact hmoved other target job hevent.symm

/-- A new job. -/
theorem Tells.create {authContext : AuthContext} {payload metadata : JsonObject} {model : String}
    {job : BatchJobRecord}
    (hjob : job = createdRecord job.id (marking.caller authContext) payload (marking.model model) metadata)
    (hmade : made ⟨.create authContext payload model, .ok job⟩) : Tells marking made job := by
  have hsubmission : job.submission = (marking.caller authContext).submission payload (marking.model model) := by
    rw [hjob]
    rfl
  have hpayload : job.inputPayload = payload := congrArg JobSubmission.inputPayload hsubmission
  have hstatus : job.status = .queued := by rw [hjob]; rfl
  refine ⟨?_, ?_, ?_, ?_⟩
  · rw [hpayload]
    exact ⟨authContext, model, job, hmade, rfl, hsubmission⟩
  · rw [hjob]
    exact fun _ => rfl
  · rw [hstatus]
    exact nofun
  · rw [hstatus]
    exact nofun

theorem Booked.create (h : Booked marking records made) {authContext : AuthContext} {payload metadata : JsonObject}
    {model : String} {job : BatchJobRecord} (hfresh : records job.id = none)
    (hjob : job = createdRecord job.id (marking.caller authContext) payload (marking.model model) metadata) :
    Booked marking (Function.update records job.id (some job))
      fun other => made other ∨ other = ⟨.create authContext payload model, .ok job⟩ := by
  have htells : Tells marking (fun other => made other ∨ other = ⟨.create authContext payload model, .ok job⟩) job :=
    Tells.create hjob (.inr rfl)
  refine ⟨?_, ?_, ?_, ?_⟩
  · intro other stored hstored
    rw [Function.update_apply] at hstored
    split at hstored
    · rename_i hother
      rw [hother, ← Option.some.inj hstored]
    · exact h.keyed other stored hstored
  · intro other stored hstored
    rw [Function.update_apply] at hstored
    split at hstored
    · rw [← Option.some.inj hstored]
      exact htells
    · exact (h.stored other stored hstored).mono fun _ => .inl
  · rintro other shown (hmade | rfl) hshown
    · obtain ⟨htold, hsame⟩ := h.shown other shown hmade hshown
      refine ⟨htold.mono fun _ => .inl, ?_⟩
      rw [Function.update_apply]
      split
      · rename_i hother
        rw [hother, hfresh] at hsame
        cases hsame
      · exact hsame
    · obtain rfl := Option.some.inj hshown
      rw [Function.update_self]
      exact ⟨htells, rfl⟩
  · rintro other target shown (hmade | hevent)
    · exact h.moved other target shown hmade
    · cases hevent

theorem Booked.move (h : Booked marking records made) {jobId : String} {target : JobStatus} {old new : BatchJobRecord}
    (hold : records jobId = some old) (hlive : old.status.terminal = false)
    (htarget : target = .running ∨ target = .cancelled) (hnew : new = { old with status := target }) :
    Booked marking (Function.update records jobId (some new))
      fun other => made other ∨ other = ⟨.transition jobId target, .ok (some new)⟩ := by
  have hid : new.id = jobId := by
    rw [hnew]
    exact h.keyed jobId old hold
  have hsubmission : new.submission = old.submission := by rw [hnew]; rfl
  have hstatus : new.status = target := by rw [hnew]
  have hold' := h.stored jobId old hold
  have hmoved : ∀ other goal job, (⟨.transition jobId target, .ok (some new)⟩ : BatchEvent) =
      ⟨.transition other goal, .ok (some job)⟩ → job.id = other := by
    intro other goal job hevent
    cases hevent
    exact hid
  refine h.write hold hid hsubmission rfl hmoved ⟨?_, ?_, ?_, ?_⟩
  · exact hold'.submitted_of_eq (by rw [hnew]) hsubmission
  · intro _
    have houtcome : new.outcome = old.outcome := by rw [hnew]; rfl
    exact houtcome.trans (hold'.pending (unmarked_of_live hlive))
  · intro hsucceeded
    rw [hstatus] at hsucceeded
    rcases htarget with rfl | rfl <;> cases hsucceeded
  · intro hfailed
    rw [hstatus] at hfailed
    rcases htarget with rfl | rfl <;> cases hfailed

/-- A running job has no outcome yet. -/
theorem Booked.pending (h : Booked marking records made) {jobId : String} {old : BatchJobRecord}
    (hold : records jobId = some old) (hrunning : old.status = .running) : old.outcome = .pending :=
  (h.stored jobId old hold).pending (unmarked_of_live (by rw [hrunning]; rfl))

theorem Booked.succeed (h : Booked marking records made) {jobId : String} {result usage : JsonObject}
    {old new : BatchJobRecord} (hold : records jobId = some old) (hrunning : old.status = .running)
    (hid : new.id = jobId) (hsubmission : new.submission = old.submission) (hstatus : new.status = .succeeded)
    (houtcome : old.outcome = .pending → new.outcome = .succeeded result) :
    Booked marking (Function.update records jobId (some new))
      fun other => made other ∨ other = ⟨.markSucceeded jobId result usage, .ok (some new)⟩ := by
  refine h.write hold hid hsubmission rfl (fun _ _ _ hevent => by cases hevent) ⟨?_, ?_, ?_, ?_⟩
  · exact (h.stored jobId old hold).submitted_of_eq (hid.trans (h.keyed jobId old hold).symm) hsubmission
  · intro hunmarked
    exact absurd hstatus hunmarked.1
  · intro _
    rw [hid]
    exact ⟨result, usage, new, .inr rfl, houtcome (h.pending hold hrunning)⟩
  · rw [hstatus]
    exact nofun

theorem Booked.fail (h : Booked marking records made) {jobId : String} {code : Option String} {message : String}
    {old new : BatchJobRecord} (hold : records jobId = some old) (hrunning : old.status = .running)
    (hid : new.id = jobId) (hsubmission : new.submission = old.submission) (hstatus : new.status = .failed)
    (houtcome : old.outcome = .pending →
      ∃ text, text.toList <+: message.toList ∧ new.outcome = .failed (marking.code code) text) :
    Booked marking (Function.update records jobId (some new))
      fun other => made other ∨ other = ⟨.markFailed jobId code message, .ok (some new)⟩ := by
  refine h.write hold hid hsubmission rfl (fun _ _ _ hevent => by cases hevent) ⟨?_, ?_, ?_, ?_⟩
  · exact (h.stored jobId old hold).submitted_of_eq (hid.trans (h.keyed jobId old hold).symm) hsubmission
  · intro hunmarked
    exact absurd hstatus hunmarked.2
  · rw [hstatus]
    exact nofun
  · intro _
    obtain ⟨text, hprefix, hnew⟩ := houtcome (h.pending hold hrunning)
    rw [hid]
    exact ⟨code, message, new, text, .inr rfl, hprefix, hnew⟩

/-- **Every call keeps the books.** -/
theorem Booked.step (h : Booked marking records made) (hstep : RecordStep marking records event records') :
    Booked marking records' fun other => made other ∨ other = event := by
  cases hstep with
  | idle hnone =>
      refine h.same ?_ ?_
      · intro job hjob
        rw [hnone] at hjob
        cases hjob
      · rintro jobId target job rfl
        cases hnone
  | @get jobId job hjob =>
      refine h.same ?_ ?_
      · intro other hother
        obtain rfl := Option.some.inj hother
        rw [h.keyed jobId job hjob]
        exact hjob
      · intro other target shown hevent
        cases hevent
  | create hfresh hjob => exact h.create hfresh hjob
  | move hold hlive htarget hnew => exact h.move hold hlive htarget hnew
  | succeed hold hrunning hid hsubmission hstatus houtcome =>
      exact h.succeed hold hrunning hid hsubmission hstatus houtcome
  | fail hold hrunning hid hsubmission hstatus houtcome =>
      exact h.fail hold hrunning hid hsubmission hstatus houtcome

/-- A job that has ended is read and no more. -/
theorem RecordStep.settled (h : RecordStep marking records event records') {jobId : String} {job : BatchJobRecord}
    (hjob : records jobId = some job) (hterminal : job.status.terminal = true) : records' jobId = some job := by
  have hwrite : ∀ {other : String} {old new : BatchJobRecord}, records other = some old →
      old.status.terminal = false → Function.update records other (some new) jobId = some job := by
    intro other old new hold hlive
    have hne : jobId ≠ other := by
      rintro rfl
      rw [hjob] at hold
      rw [← Option.some.inj hold, hterminal] at hlive
      cases hlive
    rw [Function.update_of_ne hne]
    exact hjob
  cases h with
  | idle => exact hjob
  | get => exact hjob
  | @create _ _ _ _ created hfresh hcreated =>
      have hne : jobId ≠ created.id := by
        rintro rfl
        rw [hfresh] at hjob
        cases hjob
      rw [Function.update_of_ne hne]
      exact hjob
  | move hold hlive => exact hwrite hold hlive
  | succeed hold hrunning => exact hwrite hold (by rw [hrunning]; rfl)
  | fail hold hrunning => exact hwrite hold (by rw [hrunning]; rfl)

end Booked

/-- The job that a thread has moved to running, and the response that it has got for its payload. -/
inductive Work where
  | idle
  | moved (jobId : String) (running : BatchJobRecord)
  | answered (jobId : String) (running : BatchJobRecord) (payload result : JsonObject)

/-- A success is marked with the response to the payload of the job. -/
def batchWork : Protocol BatchOp BatchOp.Res PyExc Work where
  may φ
    | .transition _ .running => φ = .idle
    | .createChatCompletion payload => ∃ jobId running, φ = .moved jobId running ∧ Rebuilt running payload
    | .markSucceeded jobId result _ => ∃ running payload, φ = .answered jobId running payload result
    | _ => True
  after
    | .idle, .transition jobId .running, .ok (some running) => .moved jobId running
    | .moved jobId running, .createChatCompletion payload, .ok result => .answered jobId running payload result
    | φ, _, _ => φ

section Follows

variable {α : Type} {φ : Work}

theorem follows_emitUsageEvent_work (self : BatchWorker) (event : UsageEvent) (φ : Work) :
    (self.emitUsageEvent event).Follows batchWork (fun ψ _ => ψ = φ) φ := by
  unfold BatchWorker.emitUsageEvent
  split
  · exact Program.follows_dropped _ trivial (fun _ => by cases φ <;> rfl) fun _ _ => by cases φ <;> rfl
  · exact rfl

theorem meets_complete_work (self : BatchWorker) (jobId : String) (running : BatchJobRecord) (requestId : String)
    (authContext : AuthContext) (l : WorkerLocals) :
    Block.Meets batchWork (fun _ _ _ => True) (.moved jobId running) l
      (self.complete jobId running requestId authContext) := by
  unfold BatchWorker.complete
  rw [Block.meets_lift_bind]
  cases hrequest : chatRequestFromBatch self.lax running with
  | error exc => exact trivial
  | ok requestBody =>
  show Block.Meets _ _ _ _ _
  rw [Block.meets_lift_bind]
  cases buildTokenPlan requestBody self.tokenEstimator self.settings with
  | error exc => exact trivial
  | ok tokenPlan =>
  refine Block.meets_perform_bind trivial (fun _ => trivial) fun lease => ?_
  rw [Block.meets_assign_bind]
  refine Block.meets_perform_bind trivial (fun _ => trivial) fun recordId => ?_
  rw [Block.meets_assign_bind]
  refine Block.meets_perform_bind ⟨jobId, running, rfl, self.lax, requestBody, hrequest, rfl⟩ (fun _ => trivial)
    fun response => ?_
  rw [Block.meets_lift_bind]
  cases usageFromResponse response tokenPlan self.tokenEstimator with
  | error exc => exact trivial
  | ok usage =>
  refine Block.meets_perform_bind trivial (fun _ => trivial) fun _ => ?_
  refine Block.meets_perform_bind trivial (fun _ => trivial) fun latencyMs => ?_
  refine Block.meets_perform_bind trivial (fun _ => trivial) fun _ => ?_
  refine Block.meets_perform_bind ⟨running, _, rfl⟩ (fun _ => trivial) fun _ => ?_
  exact Block.meets_await_bind (follows_emitUsageEvent_work self _ _) (fun _ => trivial) fun _ => trivial

theorem meets_fail_work (jobId : String) (exc : PyExc) (l : WorkerLocals) (φ : Work) :
    Block.Meets batchWork (fun _ _ _ => True) φ l (BatchWorker.fail jobId exc) := by
  unfold BatchWorker.fail
  rw [Block.meets_locals_bind]
  have hmark : Block.Meets batchWork (fun _ _ _ => True) φ l
      (Block.await (batchCall (.markFailed jobId (exc.codeOr "batch_job_failed") exc.text)) >>=
        fun _ => pure true) :=
    Block.meets_perform_bind trivial (fun _ => trivial) fun _ => trivial
  have hstays : ∀ (op : BatchOp) (answer : Except PyExc op.Res), (∀ jobId, op ≠ .transition jobId .running) →
      (∀ payload, op ≠ .createChatCompletion payload) → batchWork.after φ op answer = φ := by
    intro op answer hmoves hasks
    cases φ with
    | idle =>
        cases op
        case transition jobId target =>
          cases target
          case running => exact absurd rfl (hmoves jobId)
          all_goals rfl
        all_goals rfl
    | moved other running =>
        cases op
        case createChatCompletion payload => exact absurd rfl (hasks payload)
        all_goals rfl
    | answered other running payload result => rfl
  refine Block.meets_await_bind ?_ (fun _ => trivial) fun _ => ?_
  · cases l.admissionLease with
    | none => exact rfl
    | some lease => exact (Program.follows_perform _ _).mpr ⟨trivial, fun _ => hstays _ _ nofun nofun⟩
  · refine Block.meets_await_bind ?_ (fun _ => trivial) fun _ => hmark
    cases l.auditRecordId with
    | none => exact rfl
    | some recordId =>
        refine Program.follows_perform_bind trivial (fun _ => hstays _ _ nofun nofun) fun latencyMs => ?_
        refine (Program.follows_perform _ _).mpr ⟨trivial, fun _ => ?_⟩
        rw [hstays .elapsedMs _ nofun nofun]
        exact hstays _ _ nofun nofun

theorem follows_runJob_work (self : BatchWorker) (jobId : String) (running : BatchJobRecord) :
    (self.runJob jobId running).Follows batchWork (fun _ _ => True) (.moved jobId running) := by
  rw [BatchWorker.runJob, Program.bind_eq, Program.follows_bind, generateRequestId]
  refine Program.follows_perform_bind trivial (fun _ => trivial) fun hex => ?_
  refine Block.Meets.toProgram ?_
  rw [Block.meets_tryFinally, Block.meets_tryExcept]
  have hleave : ∀ (ψ : Work) (outcome : Except PyExc Bool) (l : WorkerLocals),
      Block.Meets batchWork (Block.finallyPost (fun _ _ _ => True) outcome) ψ l BatchWorker.leave := by
    intro ψ outcome l
    unfold BatchWorker.leave
    rw [Block.meets_locals_bind, Block.meets_await]
    have hends : ∀ (χ : Work) (left : Except PyExc Unit), Block.finallyPost (fun _ _ _ => True) outcome χ left l := by
      rintro χ (exc | value)
      · exact trivial
      · exact trivial
    cases l.admissionLease with
    | none => exact hends ψ (.ok ())
    | some lease => exact (Program.follows_perform _ _).mpr ⟨trivial, fun answer => hends _ answer⟩
  refine (meets_complete_work self jobId running _ _ _).mono ?_
  rintro ψ (exc | value) l -
  · simp only [Block.exceptPost]
    split
    · exact (meets_fail_work jobId exc l ψ).mono fun χ outcome l' _ => hleave χ outcome l'
    · exact hleave ψ _ l
  · exact hleave ψ _ l

/-- A call of the service or the scanner. -/
def BatchOp.Served : BatchOp → Prop
  | .transition _ target => target ≠ .running
  | .createChatCompletion _ => False
  | .markSucceeded _ _ _ => False
  | .markFailed _ _ _ => False
  | _ => True

/-- Such calls are no work on a job. -/
theorem follows_served {program : BatchProgram α} (h : program.Makes BatchOp.Served) :
    program.Follows batchWork (fun _ _ => True) .idle := by
  refine h.follows ?_ ?_ fun _ => trivial
  · intro op hserved
    cases op
    case transition jobId target =>
      cases target
      case running => exact absurd rfl hserved
      all_goals exact trivial
    all_goals first | exact hserved.elim | exact trivial
  · intro op answer hserved
    cases op
    case transition jobId target =>
      cases target
      case running => exact absurd rfl hserved
      all_goals rfl
    all_goals rfl

theorem makes_submit (authContext : AuthContext) (requestBody : BatchJobCreateRequest) :
    (BatchJobService.submit authContext requestBody).Makes BatchOp.Served := by
  unfold BatchJobService.submit
  simp only
  split
  · exact Program.makes_raise _
  · refine Program.Makes.bind (Program.makes_perform trivial) fun job => ?_
    refine Program.Makes.bind ?_ fun _ => Program.makes_ret job
    exact Program.Makes.tryExcept (Program.makes_perform trivial) fun _ => Program.makes_ret ()

theorem makes_get (jobId : String) : (BatchJobService.get jobId).Makes BatchOp.Served := by
  refine Program.Makes.bind (Program.makes_perform trivial) ?_
  rintro (none | job)
  · exact Program.makes_raise _
  · exact Program.makes_ret job

theorem makes_cancel (jobId : String) : (BatchJobService.cancel jobId).Makes BatchOp.Served := by
  refine Program.Makes.bind (makes_get jobId) fun job => ?_
  split
  · exact Program.makes_ret job
  · refine Program.Makes.bind (Program.makes_perform nofun) ?_
    rintro (none | cancelled)
    · exact makes_get jobId
    · exact Program.makes_ret cancelled

theorem makes_reenqueue (jobs : List BatchJobRecord) (requeued : Int) :
    (BatchRecoveryScanner.reenqueue jobs requeued).Makes BatchOp.Served := by
  induction jobs generalizing requeued with
  | nil => exact Program.makes_ret requeued
  | cons job jobs ih =>
      refine Program.Makes.bind (Program.makes_perform trivial) fun contained => ?_
      split
      · exact ih requeued
      · exact Program.Makes.bind (Program.makes_perform trivial) fun _ => ih (requeued + 1)

/-- What a worker of the system runs. -/
def BatchWorker.caller (self : BatchWorker) : BatchProgram BatchOutcome :=
  self.processOne.bind fun done => .ret (.processed done)

/-- A caller is a worker, or it works on no job. -/
theorem caller_cases {program : BatchProgram BatchOutcome} (h : BatchCaller program) :
    program.Makes BatchOp.Served ∨ ∃ self : BatchWorker, program = self.caller := by
  cases h with
  | submit authContext requestBody =>
      exact .inl ((makes_submit authContext requestBody).bind fun job => Program.makes_ret _)
  | get jobId => exact .inl ((makes_get jobId).bind fun job => Program.makes_ret _)
  | cancel jobId => exact .inl ((makes_cancel jobId).bind fun job => Program.makes_ret _)
  | worker self => exact .inr ⟨self, rfl⟩
  | scanner limit =>
      refine .inl (Program.Makes.bind ?_ fun count => Program.makes_ret _)
      exact Program.Makes.bind (Program.makes_perform trivial) fun jobs => makes_reenqueue jobs 0

/-- **Every caller works on its own job.** -/
theorem follows_caller_work {program : BatchProgram BatchOutcome} (h : BatchCaller program) :
    program.Follows batchWork (fun _ _ => True) .idle := by
  rcases caller_cases h with hserved | ⟨self, rfl⟩
  · exact follows_served hserved
  have hprocess : self.processOne.Follows batchWork (fun _ _ => True) .idle := by
    refine follows_processOne_front self ?_ (fun _ => rfl) fun jobId running => follows_runJob_work self jobId running
    rintro op (_ | jobId | _ | jobId)
    all_goals exact ⟨trivial, fun _ => rfl⟩
  rw [BatchWorker.caller, Program.follows_bind]
  refine hprocess.mono ?_
  rintro ψ (exc | value) -
  · exact trivial
  · exact trivial

/-- A failure is marked by a worker, with the exception that its `try` statement has caught. -/
theorem marked_caller {program rest : BatchProgram BatchOutcome} (h : BatchCaller program) {calls : List BatchEvent}
    (hleads : program.Leads calls rest) {jobId : String} {code : Option String} {message : String}
    {answer : Except PyExc (Option BatchJobRecord)} (hmark : ⟨.markFailed jobId code message, answer⟩ ∈ calls) :
    ∃ (worker : BatchWorker) (running : BatchJobRecord) (body : List BatchEvent) (exc : PyExc) (l : WorkerLocals),
      program = worker.caller ∧ ⟨.transition jobId .running, .ok (some running)⟩ ∈ calls ∧ body <:+: calls ∧
      worker.Attempts jobId running body (.error exc) l ∧ code = exc.codeOr "batch_job_failed" ∧ message = exc.text := by
  obtain ⟨more, outcome, hrest⟩ := Program.exists_traces valueError rest
  have htraces := hleads.traces hrest
  rcases caller_cases h with hserved | ⟨worker, rfl⟩
  · exact (hserved.traces htraces _ (List.mem_append_left _ hmark)).elim
  -- the calls so far and those of the body are both beginnings of the whole trace, and the mark comes after the body
  obtain ⟨out, hprocess⟩ : ∃ out, worker.processOne.Traces (calls ++ more) out := by
    rcases Program.traces_bind.mp htraces with ⟨exc, hraised, -⟩ | ⟨value, left, right, hcalls, hleft, rfl, -⟩
    · exact ⟨_, hraised⟩
    · rw [List.append_nil] at hcalls
      exact ⟨_, hcalls ▸ hleft⟩
  obtain ⟨front, running, hex, body, exc, l, others, hcalls, hafter, hattempts, -, hcode, hmessage⟩ :=
    marked_processOne hprocess (List.mem_append_left more hmark)
  have hbefore : front ++ (⟨.transition jobId .running, .ok (some running)⟩ :: ⟨.uuid4, .ok hex⟩ :: body) <+: calls := by
    have hprefix := List.prefix_append (front ++ (⟨.transition jobId .running, .ok (some running)⟩ ::
      ⟨.uuid4, .ok hex⟩ :: body)) others
    rw [← hcalls] at hprefix
    rcases List.prefix_or_prefix_of_prefix hprefix (List.prefix_append calls more) with hbefore | hlater
    · exact hbefore
    · exact absurd (hlater.subset hmark) hafter
  refine ⟨worker, running, body, exc, l, rfl, hbefore.subset (by simp), ?_, hattempts, hcode, hmessage⟩
  refine List.IsInfix.trans ?_ hbefore.isInfix
  exact ⟨front ++ [⟨.transition jobId .running, .ok (some running)⟩, ⟨.uuid4, .ok hex⟩], [], by simp⟩

end Follows

/-- The calls behind the work of a thread. -/
def Work.DoneBy (calls : List BatchEvent) : Work → Prop
  | idle => True
  | moved jobId running => ⟨.transition jobId .running, .ok (some running)⟩ ∈ calls
  | answered jobId running payload result => ⟨.transition jobId .running, .ok (some running)⟩ ∈ calls ∧
      Rebuilt running payload ∧ ⟨.createChatCompletion payload, .ok result⟩ ∈ calls

theorem Work.DoneBy.snoc {φ : Work} {calls : List BatchEvent} {event : BatchEvent} (h : φ.DoneBy calls)
    (hmay : batchWork.may φ event.op) : (batchWork.after φ event.op event.answer).DoneBy (calls ++ [event]) := by
  obtain ⟨op, answer⟩ := event
  have hlast : (⟨op, answer⟩ : BatchEvent) ∈ calls ++ [⟨op, answer⟩] := by simp
  cases φ with
  | idle =>
      cases op
      case transition jobId target =>
        cases target
        case running =>
          rcases answer with exc | (none | running)
          · exact trivial
          · exact trivial
          · exact hlast
        all_goals exact trivial
      all_goals exact trivial
  | moved jobId running =>
      have hmoved := List.mem_append_left [⟨op, answer⟩] h
      cases op
      case createChatCompletion payload =>
        obtain ⟨_, _, heq, hrebuilt⟩ := hmay
        obtain ⟨rfl, rfl⟩ := Work.moved.inj heq
        cases answer with
        | error exc => exact hmoved
        | ok result => exact ⟨hmoved, hrebuilt, hlast⟩
      all_goals exact hmoved
  | answered jobId running payload result =>
      obtain ⟨hmoved, hrebuilt, hasked⟩ := h
      exact ⟨List.mem_append_left _ hmoved, hrebuilt, List.mem_append_left _ hasked⟩

/-- A call was allowed to a thread that had done this work before. -/
theorem doneBy_of_mem {calls : List BatchEvent} (h : batchWork.Keeps .idle calls) {event : BatchEvent}
    (hmem : event ∈ calls) : ∃ φ : Work, φ.DoneBy calls ∧ batchWork.may φ event.op := by
  have hdone : ∀ calls, batchWork.Keeps .idle calls → (batchWork.phase .idle calls).DoneBy calls := by
    intro calls hkeeps
    exact @Protocol.Keeps.tells _ _ _ _ batchWork (fun φ calls => φ.DoneBy calls) .idle trivial
      (fun _ _ _ hbefore hmay => hbefore.snoc hmay) calls hkeeps
  obtain ⟨left, right, rfl⟩ := List.append_of_mem hmem
  refine ⟨batchWork.phase .idle left, ?_, h left event right rfl⟩
  have hleft := hdone left h.take
  cases hφ : batchWork.phase .idle left with
  | idle => exact trivial
  | moved jobId running =>
      rw [hφ] at hleft
      exact List.mem_append_left _ hleft
  | answered jobId running payload result =>
      rw [hφ] at hleft
      obtain ⟨hmoved, hrebuilt, hasked⟩ := hleft
      exact ⟨List.mem_append_left _ hmoved, hrebuilt, List.mem_append_left _ hasked⟩

/-- The record that a caller returns. -/
def BatchOutcome.record : BatchOutcome → Option BatchJobRecord
  | submitted record => some record
  | fetched record => some record
  | cancelled _ record => some record
  | processed _ => none
  | requeued _ => none

/-- A call has shown the record. -/
def ShownIn (calls : List BatchEvent) (job : BatchJobRecord) : Prop :=
  ∃ event ∈ calls, job ∈ BatchEvent.record event

/-- What is returned has been shown. -/
def shownDone (calls : List BatchEvent) (outcome : Except PyExc BatchJobRecord) : Prop :=
  ∀ job, outcome = .ok job → ShownIn calls job

/-- What is returned has been shown, for a caller. -/
def callerShown (calls : List BatchEvent) (outcome : Except PyExc BatchOutcome) : Prop :=
  ∀ left, outcome = .ok left → ∀ job ∈ left.record, ShownIn calls job

theorem follows_get_shown (jobId : String) (calls : List BatchEvent) :
    (BatchJobService.get jobId).Follows recording shownDone calls := by
  refine Program.follows_perform_bind trivial (fun exc job h => by cases h) ?_
  rintro (none | record)
  · intro job h
    cases h
  · intro job h
    obtain rfl := Except.ok.inj h
    exact ⟨⟨.get jobId, .ok (some record)⟩, List.mem_append_right _ (List.mem_singleton_self _), rfl⟩

theorem follows_cancel_shown (jobId : String) (calls : List BatchEvent) :
    (BatchJobService.cancel jobId).Follows recording shownDone calls := by
  rw [BatchJobService.cancel, Program.bind_eq, Program.follows_bind]
  refine (follows_get_shown jobId calls).mono ?_
  rintro seen (exc | record) hshown
  · intro job h
    cases h
  · simp only [Program.seqDone]
    split
    · exact hshown
    · refine Program.follows_perform_bind trivial (fun exc job h => by cases h) ?_
      rintro (none | cancelled)
      · exact follows_get_shown jobId _
      · intro job h
        obtain rfl := Except.ok.inj h
        exact ⟨⟨.transition jobId .cancelled, .ok (some cancelled)⟩,
          List.mem_append_right _ (List.mem_singleton_self _), rfl⟩

theorem follows_submit_shown (authContext : AuthContext) (requestBody : BatchJobCreateRequest)
    (calls : List BatchEvent) :
    (BatchJobService.submit authContext requestBody).Follows recording shownDone calls := by
  unfold BatchJobService.submit
  simp only
  split
  · intro job h
    cases h
  refine Program.follows_perform_bind trivial (fun exc job h => by cases h) fun created => ?_
  have hcreated : ∀ more, ShownIn ((calls ++ [⟨.create authContext
      (JsonObject.set requestBody.modelDump "stream" (.bool false)) requestBody.model, .ok created⟩]) ++ more)
        created :=
    fun more => ⟨_, List.mem_append_left _ (List.mem_append_right _ (List.mem_singleton_self _)), rfl⟩
  rw [Program.bind_eq, Program.follows_bind, Program.follows_tryExcept]
  refine (Program.follows_perform _ _).mpr ⟨trivial, ?_⟩
  rintro (exc | value)
  · simp only [Program.exceptDone]
    split
    · intro job h
      obtain rfl := Except.ok.inj h
      exact hcreated _
    · intro job h
      cases h
  · intro job h
    obtain rfl := Except.ok.inj h
    exact hcreated _

/-- **Every caller returns a record that it was shown.** -/
theorem follows_caller_shown {program : BatchProgram BatchOutcome} (h : BatchCaller program) :
    program.Follows recording callerShown [] := by
  have hrecord : ∀ {body : BatchProgram BatchJobRecord} {left : BatchJobRecord → BatchOutcome},
      body.Follows recording shownDone [] → (∀ job, (left job).record = some job) →
      (body.bind fun job => .ret (left job)).Follows recording callerShown [] := by
    intro body left hbody hleft
    rw [Program.follows_bind]
    refine hbody.mono ?_
    rintro calls (exc | job) hshown
    · intro out hout
      cases hout
    · intro out hout other hother
      obtain rfl := Except.ok.inj hout
      rw [hleft] at hother
      obtain rfl := Option.some.inj hother
      exact hshown job rfl
  have hnone : ∀ {α : Type} (body : BatchProgram α) {left : α → BatchOutcome}, (∀ value, (left value).record = none) →
      (body.bind fun value => .ret (left value)).Follows recording callerShown [] := by
    intro α body left hleft
    rw [Program.follows_bind]
    refine Program.follows_recording ?_ body []
    rintro calls (exc | value)
    · intro out hout
      cases hout
    · intro out hout other hother
      obtain rfl := Except.ok.inj hout
      rw [hleft] at hother
      cases hother
  cases h with
  | submit authContext requestBody => exact hrecord (follows_submit_shown authContext requestBody []) fun _ => rfl
  | get jobId => exact hrecord (follows_get_shown jobId []) fun _ => rfl
  | cancel jobId => exact hrecord (follows_cancel_shown jobId []) fun _ => rfl
  | worker self => exact hnone self.processOne fun _ => rfl
  | scanner limit => exact hnone (BatchRecoveryScanner.reenqueueMissing limit) fun _ => rfl

/-! ### Truthful records -/

/-- What a record tells is what has happened to its job. -/
structure Truthful (marking : BatchJobStore.Marking) (threads : List BatchThread) (job : BatchJobRecord) : Prop where
  submitted : ∃ t ∈ threads, ∃ authContext model created,
    ⟨.create authContext job.inputPayload model, .ok created⟩ ∈ t.calls ∧ created.id = job.id ∧
      job.submission = (marking.caller authContext).submission job.inputPayload (marking.model model)
  pending : job.status.unmarked → job.outcome = .pending
  succeeded : job.status = .succeeded → ∃ t ∈ threads, ∃ running payload result,
    ⟨.transition job.id .running, .ok (some running)⟩ ∈ t.calls ∧ running.submission = job.submission ∧
      Rebuilt running payload ∧ ⟨.createChatCompletion payload, .ok result⟩ ∈ t.calls ∧
        job.outcome = .succeeded result
  failed : job.status = .failed → ∃ t ∈ threads, ∃ worker : BatchWorker, worker.caller.Leads t.calls t.program ∧
    ∃ running body exc l text, ⟨.transition job.id .running, .ok (some running)⟩ ∈ t.calls ∧
      running.submission = job.submission ∧ body <:+: t.calls ∧ worker.Attempts job.id running body (.error exc) l ∧
        text.toList <+: exc.text.toList ∧
          job.outcome = .failed (marking.code (exc.codeOr "batch_job_failed")) text

section Runs

variable {S : Type} {store : BatchJobStore S} {marking : BatchJobStore.Marking} {w : BatchWorld S}
  {pool : Pool (BatchWorld S) BatchThread}

/-- What one call of a reachable pool does to the records. -/
theorem recordStep_of_reachable (hacts : store.ActsOnRecords marking) (hmarks : marking.Settles)
    (hempty : ∀ jobId, store.get jobId w.store = none) {left right : List BatchThread} {calls : List BatchEvent}
    {op : BatchOp} {next : Except PyExc op.Res → BatchProgram BatchOutcome} {answer : Except PyExc op.Res}
    {w₁ w₂ : BatchWorld S}
    (hreach : (batchSystem store).Reachable w ⟨w₁, left ++ ⟨calls, .call op next, false⟩ :: right⟩)
    (hexec : store.exec op w₁ answer w₂) :
    RecordStep marking (store.records w₁.store) ⟨op, answer⟩ (store.records w₂.store) := by
  have htable : ∀ jobId, store.table w.store jobId = none := by
    intro jobId
    rw [← (store.get_shows jobId w.store).1, hempty]
    rfl
  obtain ⟨-, hknows⟩ := batchSystem_accounted htable hreach
  obtain ⟨hsound, hfollows⟩ := hknows ⟨calls, .call op next, false⟩ (by simp)
  exact BatchJobStore.recordStep_of_exec hacts hmarks hsound hfollows.1 hexec

theorem booked_of_reachable (hacts : store.ActsOnRecords marking) (hmarks : marking.Settles)
    (hempty : ∀ jobId, store.get jobId w.store = none) (hreach : (batchSystem store).Reachable w pool) :
    Booked marking (store.records pool.shared.store) pool.Made := by
  refine reachable_history (fun w made => Booked marking (store.records w.store) made) ?_ ?_ hreach
  · refine ⟨?_, ?_, fun _ _ hmade => hmade.elim, fun _ _ _ hmade => hmade.elim⟩
    · intro jobId job hjob
      exact absurd ((hempty jobId).symm.trans hjob) nofun
    · intro jobId job hjob
      exact absurd ((hempty jobId).symm.trans hjob) nofun
  · intro left right calls op next answer w₁ w₂ hbefore hbooked hexec
    exact hbooked.step (recordStep_of_reachable hacts hmarks hempty hbefore hexec)

/-- What the calls tell, the threads have done. -/
theorem truthful_of_tells (hbooked : Booked marking (store.records pool.shared.store) pool.Made)
    (hreach : (batchSystem store).Reachable w pool) {job : BatchJobRecord} (h : Tells marking pool.Made job)
    (hkept : ((store.records pool.shared.store) job.id).map BatchJobRecord.submission = some job.submission) :
    Truthful marking pool.threads job := by
  have hkeeps : ∀ t ∈ pool.threads, batchWork.Keeps .idle t.calls :=
    reachable_keeps (fun program hcaller => follows_caller_work hcaller) hreach
  have hrunning : ∀ {t : BatchThread} {running : BatchJobRecord}, t ∈ pool.threads →
      ⟨.transition job.id .running, .ok (some running)⟩ ∈ t.calls → running.submission = job.submission := by
    intro t running ht hmoved
    have hid := hbooked.moved _ _ running ⟨t, ht, hmoved⟩
    obtain ⟨-, hsame⟩ := hbooked.shown _ running ⟨t, ht, hmoved⟩ rfl
    rw [hid, hkept] at hsame
    exact (Option.some.inj hsame).symm
  refine ⟨?_, h.pending, ?_, ?_⟩
  · obtain ⟨authContext, model, created, ⟨t, ht, hmem⟩, hid, hsubmission⟩ := h.submitted
    exact ⟨t, ht, authContext, model, created, hmem, hid, hsubmission⟩
  · intro hstatus
    obtain ⟨result, usage, marked, ⟨t, ht, hmem⟩, houtcome⟩ := h.succeeded hstatus
    obtain ⟨φ, hdone, running, payload, rfl⟩ := doneBy_of_mem (hkeeps t ht) hmem
    obtain ⟨hmoved, hrebuilt, hasked⟩ := hdone
    exact ⟨t, ht, running, payload, result, hmoved, hrunning ht hmoved, hrebuilt, hasked, houtcome⟩
  · intro hstatus
    obtain ⟨code, message, marked, text, ⟨t, ht, hmem⟩, hprefix, houtcome⟩ := h.failed hstatus
    obtain ⟨program, hcaller, hleads⟩ := reachable_leads hreach t ht
    obtain ⟨worker, running, body, exc, l, rfl, hmoved, hbody, hattempts, rfl, rfl⟩ := marked_caller hcaller hleads hmem
    exact ⟨t, ht, worker, hleads, running, body, exc, l, text, hmoved, hrunning ht hmoved, hbody, hattempts, hprefix,
      houtcome⟩

/-- The records of a pool are truthful, the stored ones and those that the callers have returned, and a record
stays when its job has ended. -/
structure RecordsTruthful (store : BatchJobStore S) (marking : BatchJobStore.Marking)
    (pool : Pool (BatchWorld S) BatchThread) : Prop where
  stored : ∀ jobId job, store.get jobId pool.shared.store = some job →
    job.id = jobId ∧ Truthful marking pool.threads job
  returned : ∀ t ∈ pool.threads, ∀ left, t.program = .ret left → ∀ job ∈ left.record,
    Truthful marking pool.threads job
  settled : ∀ jobId job, store.get jobId pool.shared.store = some job → job.status.terminal = true →
    ∀ later, Relation.ReflTransGen (batchSystem store).Step pool later →
      store.get jobId later.shared.store = some job

/-- A record stays when its job has ended. -/
theorem settled_record_stays (hacts : store.ActsOnRecords marking) (hmarks : marking.Settles)
    (hempty : ∀ jobId, store.get jobId w.store = none) (hreach : (batchSystem store).Reachable w pool)
    {jobId : String} {job : BatchJobRecord} (hjob : store.get jobId pool.shared.store = some job)
    (hterminal : job.status.terminal = true) {later : Pool (BatchWorld S) BatchThread}
    (hlater : Relation.ReflTransGen (batchSystem store).Step pool later) :
    store.get jobId later.shared.store = some job := by
  induction hlater with
  | refl => exact hjob
  | tail hsteps hstep ih =>
      cases hstep with
      | start => exact ih
      | act left right hact =>
          cases hact with
          | call hexec =>
              have hrecord := recordStep_of_reachable hacts hmarks hempty (hreach.trans hsteps) hexec
              exact hrecord.settled ih hterminal
          | crash => exact ih
      | env henv => exact henv.elim

theorem recordsTruthful_of_reachable (hacts : store.ActsOnRecords marking) (hmarks : marking.Settles)
    (hempty : ∀ jobId, store.get jobId w.store = none) (hreach : (batchSystem store).Reachable w pool) :
    RecordsTruthful store marking pool := by
  have hbooked := booked_of_reachable hacts hmarks hempty hreach
  refine ⟨?_, ?_, ?_⟩
  · intro jobId job hjob
    have hid := hbooked.keyed jobId job hjob
    refine ⟨hid, truthful_of_tells hbooked hreach (hbooked.stored jobId job hjob) ?_⟩
    rw [hid]
    exact congrArg (Option.map BatchJobRecord.submission) hjob
  · intro t ht left hret job hjob
    obtain ⟨-, hfollows⟩ := reachable_follows (fun program hcaller => follows_caller_shown hcaller) hreach t ht
    rw [hret, phase_recording, List.nil_append] at hfollows
    obtain ⟨event, hmem, hshown⟩ := hfollows left rfl job hjob
    obtain ⟨htells, hkept⟩ := hbooked.shown event job ⟨t, ht, hmem⟩ hshown
    exact truthful_of_tells hbooked hreach htells hkept
  · intro jobId job hjob hterminal later hlater
    exact settled_record_stays hacts hmarks hempty hreach hjob hterminal hlater

end Runs

/-- **Batch records tell the truth**, in every run of submitters, readers, cancellations, workers and scanners over
either store; Postgres is taken with its writes committed, which the source never does. -/
theorem batch_records_truthful (queue : List String) :
    (∀ pool, (batchSystem InMemoryBatchJobStore.store).Reachable ⟨.empty, queue⟩ pool →
      RecordsTruthful InMemoryBatchJobStore.store InMemoryBatchJobStore.marking pool) ∧
    ∀ db : Db, (∀ jobId, (db .batchJobs).find jobId = none) → ∀ pool,
      (batchSystem PostgresBatchJobStore.store).Reachable ⟨db, queue⟩ pool →
        RecordsTruthful PostgresBatchJobStore.store PostgresBatchJobStore.marking pool := by
  refine ⟨?_, ?_⟩
  · intro pool hreach
    exact recordsTruthful_of_reachable InMemoryBatchJobStore.actsOnRecords InMemoryBatchJobStore.marking_settles
      (fun _ => rfl) hreach
  · intro db hempty pool hreach
    refine recordsTruthful_of_reachable PostgresBatchJobStore.actsOnRecords PostgresBatchJobStore.marking_settles
      ?_ hreach
    intro jobId
    exact congrArg (Option.map recordFromModel) (hempty jobId)

/-- A store and a queue that nobody else uses, with services that are up: the upstream answers with `response`. -/
def healthyReply (response : JsonObject) :
    (op : BatchOp) → BatchWorld InMemoryBatchJobStore → Except PyExc op.Res × BatchWorld InMemoryBatchJobStore
  | .enqueue jobId, w => (.ok (), ⟨w.store, w.queue ++ [jobId]⟩)
  | .dequeue, w => (.ok w.queue.head?, ⟨w.store, w.queue.tail⟩)
  | .contains jobId, w => (.ok (decide (jobId ∈ w.queue)), w)
  | .create authContext payload model, w =>
      match w.store.get "job_hex" with
      | none =>
          let created := w.store.create authContext payload model "hex"
          (.ok created.1, ⟨created.2, w.queue⟩)
      | some _ => (.error valueError, w)
  | .get jobId, w => (.ok (w.store.get jobId), w)
  | .transition jobId target, w =>
      let moved := w.store.transition jobId target
      (.ok moved.1, ⟨moved.2, w.queue⟩)
  | .markSucceeded jobId result usage, w =>
      let marked := w.store.markSucceeded jobId result usage
      (.ok marked.1, ⟨marked.2, w.queue⟩)
  | .markFailed jobId code message, w =>
      let marked := w.store.markFailed jobId code message
      (.ok marked.1, ⟨marked.2, w.queue⟩)
  | .listRecoverable limit, w => (.ok (w.store.listRecoverable limit), w)
  | .shouldRunJob, w => (.ok true, w)
  | .uuid4, w => (.ok "hex", w)
  | .elapsedMs, w => (.ok 0, w)
  | .admitRequest _ _, w => (.ok ⟨0⟩, w)
  | .finalizeTokens _ _ _, w => (.ok (), w)
  | .releaseLease _, w => (.ok (), w)
  | .startAudit _, w => (.ok "audit", w)
  | .finalizeAudit _, w => (.ok (), w)
  | .createChatCompletion _, w => (.ok response, w)
  | .collect _, w => (.ok true, w)

theorem exec_healthyReply (response : JsonObject) (op : BatchOp) (w : BatchWorld InMemoryBatchJobStore) :
    InMemoryBatchJobStore.store.exec op w (healthyReply response op w).1 (healthyReply response op w).2 := by
  cases op
  case create authContext payload model =>
    simp only [healthyReply]
    split
    · rename_i hfresh
      exact ⟨⟨"hex", hfresh, rfl⟩, rfl⟩
    · exact ⟨rfl, .inl rfl⟩
  case dequeue => exact ⟨⟨rfl, rfl⟩, rfl⟩
  case contains => exact ⟨⟨rfl, rfl⟩, rfl⟩
  case get => exact ⟨⟨rfl, rfl⟩, rfl⟩
  case listRecoverable => exact ⟨⟨rfl, rfl⟩, rfl⟩
  all_goals exact ⟨rfl, rfl⟩

/-- A job is submitted. -/
def submittedWorld : BatchWorld InMemoryBatchJobStore :=
  (((BatchJobService.submit submitter (plainSubmission [⟨.user, "Hello"⟩])).bind fun job => .ret (.submitted job) :
    BatchProgram BatchOutcome).run (healthyReply []) ⟨.empty, []⟩).2

/-- A worker takes the job up. -/
def processedWorld : BatchWorld InMemoryBatchJobStore :=
  ((plainWorker.processOne.bind fun done => .ret (.processed done) : BatchProgram BatchOutcome).run (healthyReply [])
    submittedWorld).2

theorem batch_records_truthful_succeeded : (∃ threads job,
    (batchSystem InMemoryBatchJobStore.store).Reachable ⟨.empty, []⟩ ⟨processedWorld, threads⟩ ∧
      processedWorld.store.get "job_hex" = some job ∧ job.status = .succeeded ∧
      RecordsTruthful InMemoryBatchJobStore.store InMemoryBatchJobStore.marking ⟨processedWorld, threads⟩) ∧
    RecordsTruthful PostgresBatchJobStore.store PostgresBatchJobStore.marking ⟨⟨tenantDb, []⟩, []⟩ := by
  refine ⟨?_, (batch_records_truthful []).2 _ (fun _ => rfl) _ Relation.ReflTransGen.refl⟩
  have h : (batchSystem InMemoryBatchJobStore.store).Reachable ⟨.empty, []⟩ ⟨⟨.empty, []⟩, []⟩ :=
    Relation.ReflTransGen.refl
  have h := reachable_run (exec_healthyReply []) (BatchCaller.submit submitter (plainSubmission [⟨.user, "Hello"⟩])) h
  have h := reachable_run (exec_healthyReply []) (BatchCaller.worker plainWorker) h
  have hstatus : (processedWorld.store.get "job_hex").map BatchJobRecord.status = some .succeeded := rfl
  obtain ⟨job, hjob, hsucceeded⟩ := Option.map_eq_some_iff.mp hstatus
  exact ⟨_, job, h, hjob, hsucceeded, (batch_records_truthful []).1 _ h⟩

end GpuInference
