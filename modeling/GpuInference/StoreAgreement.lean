import GpuInference.BatchRecords
import GpuInference.BatchRoutes
import GpuInference.PostgresRefusals

/-!
The two stores side by side. A sequence of calls is carried out on both, each job being known to each store
under an id of its own, and the database being up. What the stores show of a job is the same as long as the database
takes the values of every call as they are and no success is written over an error: the Postgres store clears the
error then, the in-memory store keeps it.
-/

open Effect

namespace GpuInference

/-- A call, with the ids of its job in the in-memory store and in the Postgres store. -/
inductive PairCall where
  | create (authContext : AuthContext) (payload : JsonObject) (model : String)
  | transition (jobId rowId : String) (target : JobStatus)
  | markSucceeded (jobId rowId : String) (result usage : JsonObject)
  | markFailed (jobId rowId : String) (errorCode : Option String) (errorMessage : String)

/-- Both stores, and the ids of the jobs in the order of their creation. -/
structure StorePair where
  memory : InMemoryBatchJobStore
  db : Db
  jobs : List (String × String)

namespace StorePair

/-- The records that the stores show. -/
def job (p : StorePair) (jobId : String) : Option BatchJobRecord := InMemoryBatchJobStore.store.get jobId p.memory

def row (p : StorePair) (rowId : String) : Option BatchJobRecord := PostgresBatchJobStore.store.get rowId p.db

/-- The two ids are those of one job, or of none in either store; Postgres takes no id with a null character. -/
def Names (p : StorePair) (jobId rowId : String) : Prop :=
  (jobId, rowId) ∈ p.jobs ∨ (p.job jobId = none ∧ p.row rowId = none ∧ Char.ofNat 0 ∉ rowId.toList)

/-- No jobs yet. -/
def Empty (p : StorePair) : Prop :=
  p.jobs = [] ∧ (∀ jobId, p.job jobId = none) ∧ ∀ rowId, p.row rowId = none

/-- The jobs after a new one; Postgres may have refused it. -/
def paired (p : StorePair) (job : BatchJobRecord) : Except PyExc BatchJobRecord → List (String × String)
  | .ok row => p.jobs ++ [(job.id, row.id)]
  | .error _ => p.jobs

/-- A call is carried out on both stores. In memory it returns; on Postgres it returns or raises. -/
def Performs (p : StorePair) : PairCall → Option BatchJobRecord → Except PyExc (Option BatchJobRecord) → StorePair → Prop
  | .create authContext payload model, left, right, q => ∃ job row, left = some job ∧ right = row.map some ∧
      InMemoryBatchJobStore.store.create authContext payload model p.memory job q.memory ∧
      (PostgresBatchJobStore.createBody authContext payload model).Yields upPgExec p.db row q.db ∧
      q.jobs = p.paired job row
  | .transition jobId rowId target, left, right, q => p.Names jobId rowId ∧
      InMemoryBatchJobStore.store.transition jobId target p.memory left q.memory ∧
      (PostgresBatchJobStore.transitionBody rowId target).Yields upPgExec p.db right q.db ∧ q.jobs = p.jobs
  | .markSucceeded jobId rowId result usage, left, right, q => p.Names jobId rowId ∧
      InMemoryBatchJobStore.store.markSucceeded jobId result usage p.memory left q.memory ∧
      (PostgresBatchJobStore.markSucceededBody rowId result usage).Yields upPgExec p.db right q.db ∧ q.jobs = p.jobs
  | .markFailed jobId rowId errorCode errorMessage, left, right, q => p.Names jobId rowId ∧
      InMemoryBatchJobStore.store.markFailed jobId errorCode errorMessage p.memory left q.memory ∧
      (PostgresBatchJobStore.markFailedBody rowId errorCode errorMessage).Yields upPgExec p.db right q.db ∧
      q.jobs = p.jobs

end StorePair

/-- A call, what it has returned in memory and on Postgres, and the stores after it. -/
structure PairStep where
  call : PairCall
  left : Option BatchJobRecord
  right : Except PyExc (Option BatchJobRecord)
  after : StorePair

/-- Calls carried out one after the other. -/
inductive PairRun : StorePair → List PairStep → Prop
  | nil (p : StorePair) : PairRun p []
  | cons {p : StorePair} {step : PairStep} {steps : List PairStep}
      (h : p.Performs step.call step.left step.right step.after) (hrest : PairRun step.after steps) :
      PairRun p (step :: steps)

/-- The responses for the two records differ in the job id at most. -/
def SameResponse (job row : BatchJobRecord) : Prop := { row with id := job.id }.toResponse = job.toResponse

/-- The stores show the same of every job. -/
def StorePair.SameResponses (p : StorePair) : Prop :=
  ∀ ids ∈ p.jobs, ∃ job row, p.job ids.1 = some job ∧ p.row ids.2 = some row ∧ SameResponse job row

/-- Both have returned, both `None` or neither, and the responses are the same. -/
def StorePair.AgreesOn (q : StorePair) (left : Option BatchJobRecord)
    (right : Except PyExc (Option BatchJobRecord)) : Prop :=
  (∃ record, right = .ok record ∧ (left = none ↔ record = none)) ∧ q.SameResponses

/-- After every call. -/
def Agree (steps : List PairStep) : Prop := ∀ step ∈ steps, step.after.AgreesOn step.left step.right

/-- The message of an error fits its column. -/
def PairCall.MessageFits : PairCall → Prop
  | markFailed _ _ _ errorMessage => errorMessage.toList.length ≤ 1024
  | _ => True

/-- The job is there and not cancelled, so that a mark writes it. -/
def StorePair.Marks (p : StorePair) (jobId : String) (job : BatchJobRecord) : Prop :=
  p.job jobId = some job ∧ job.status ≠ .cancelled

/-- Postgres takes what the call writes and keeps what a response shows, and a success finds no error. -/
def PairCall.KeptAlike (p : StorePair) : PairCall → Prop
  | create authContext payload model => Submittable p.db authContext payload model ∧ keptModel model = model
  | transition _ _ _ => True
  | markSucceeded jobId _ result usage => ∀ job, p.Marks jobId job →
      (Json.fieldsStorable result = true ∧ Json.fieldsStorable usage = true) ∧
        job.errorCode = none ∧ job.errorMessage = none
  | markFailed jobId _ errorCode errorMessage => ∀ job, p.Marks jobId job →
      (TableColumn.varchar 128).nullable.Holds errorCode ∧ Char.ofNat 0 ∉ errorMessage.toList

/-- Every call is kept alike, in the stores before it. -/
def AllKeptAlike : StorePair → List PairStep → Prop
  | _, [] => True
  | p, step :: steps => step.call.KeptAlike p ∧ AllKeptAlike step.after steps

/-- Dumping an optional field whose values are not null loses nothing. -/
theorem dump_inj {α : Type} {dump : α → Json} (hinj : ∀ a b, dump a = dump b → a = b)
    (hnull : ∀ a, dump a ≠ .null) {left right : Option α} :
    (left.map dump).getD .null = (right.map dump).getD .null ↔ left = right := by
  constructor
  · intro h
    cases left with
    | none =>
        cases right with
        | none => rfl
        | some value => exact absurd h.symm (hnull value)
    | some value =>
        cases right with
        | none => exact absurd h (hnull value)
        | some other => rw [hinj value other h]
  · intro h
    rw [h]

theorem resultJson_inj {left right : Option JsonObject} :
    (left.map Json.obj).getD .null = (right.map Json.obj).getD .null ↔ left = right :=
  dump_inj (fun _ _ => Json.obj.inj) fun _ h => by cases h

theorem optionalStr_eq (value : Option String) : optionalStr value = (value.map Json.str).getD .null := by
  cases value with
  | none => rfl
  | some value => rfl

theorem optionalStr_inj {left right : Option String} : optionalStr left = optionalStr right ↔ left = right := by
  rw [optionalStr_eq, optionalStr_eq]
  exact dump_inj (fun _ _ => Json.str.inj) fun _ h => by cases h

theorem JobStatus.name_inj {left right : JobStatus} : left.name = right.name ↔ left = right := by
  constructor
  · intro h
    cases left <;> cases right <;> first | rfl | exact absurd h (by decide)
  · intro h
    rw [h]

/-- What a response shows besides the error. -/
structure SameProgress (job row : BatchJobRecord) : Prop where
  status : row.status = job.status
  model : row.model = job.model
  requestCount : row.requestCount = job.requestCount
  completedCount : row.completedCount = job.completedCount
  failedCount : row.failedCount = job.failedCount
  resultPayload : row.resultPayload = job.resultPayload

theorem sameResponse_iff {job row : BatchJobRecord} :
    SameResponse job row ↔ SameProgress job row ∧ row.errorCode = job.errorCode ∧
      row.errorMessage = job.errorMessage := by
  simp only [SameResponse, BatchJobRecord.toResponse, List.cons.injEq, Prod.mk.injEq, true_and, and_true,
    Json.str.injEq, Json.int.injEq, resultJson_inj, optionalStr_inj, JobStatus.name_inj]
  constructor
  · rintro ⟨hstatus, hmodel, hrequest, hcompleted, hfailed, hresult, hcode, hmessage⟩
    exact ⟨⟨hstatus, hmodel, hrequest, hcompleted, hfailed, hresult⟩, hcode, hmessage⟩
  · rintro ⟨⟨hstatus, hmodel, hrequest, hcompleted, hfailed, hresult⟩, hcode, hmessage⟩
    exact ⟨hstatus, hmodel, hrequest, hcompleted, hfailed, hresult, hcode, hmessage⟩

/-- Two jobs are the same in one store exactly when they are in the other. -/
def StorePair.Linked (p : StorePair) : Prop :=
  ∀ ids ∈ p.jobs, ∀ others ∈ p.jobs, ids.1 = others.1 ↔ ids.2 = others.2

section Step

variable {p q : StorePair} {left right : Option BatchJobRecord}

/-- Calls that rewrite the record of one job, on both stores. -/
theorem rewrites_cases (hlinked : p.Linked) (hsame : p.SameResponses) {jobId rowId : String}
    (hnames : p.Names jobId rowId) {guard : JobStatus → Bool}
    {write write' : BatchJobRecord → BatchJobRecord → Prop}
    (hleft : InMemoryBatchJobStore.store.Rewrites jobId guard write p.memory left q.memory)
    (hright : PostgresBatchJobStore.store.Rewrites rowId guard write' p.db right q.db)
    (hjobs : q.jobs = p.jobs) :
    (left = none ∧ right = none ∧ (∀ job, p.job jobId = some job → guard job.status = false) ∧
      q.SameResponses) ∨
    ∃ job row new new', p.job jobId = some job ∧ p.row rowId = some row ∧ guard job.status = true ∧
      SameResponse job row ∧
      write job new ∧ write' row new' ∧ left = some new ∧ right = some new' ∧
      (q.SameResponses ↔ SameResponse new new') := by
  have hguards : ∀ job row, p.job jobId = some job → p.row rowId = some row → guard row.status = guard job.status := by
    intro job row hjob hrow
    rcases hnames with hmem | ⟨hnone, -⟩
    · obtain ⟨job', row', hjob', hrow', hresponse⟩ := hsame _ hmem
      obtain rfl := Option.some.inj (hjob.symm.trans hjob')
      obtain rfl := Option.some.inj (hrow.symm.trans hrow')
      rw [(sameResponse_iff.mp hresponse).1.status]
    · rw [hnone] at hjob
      cases hjob
  have hboth : ∀ job, p.job jobId = some job → ∃ row, p.row rowId = some row ∧ SameResponse job row ∧
      (jobId, rowId) ∈ p.jobs := by
    intro job hjob
    rcases hnames with hmem | ⟨hnone, -⟩
    · obtain ⟨job', row, hjob', hrow, hresponse⟩ := hsame _ hmem
      obtain rfl := Option.some.inj (hjob.symm.trans hjob')
      exact ⟨row, hrow, hresponse, hmem⟩
    · rw [hnone] at hjob
      cases hjob
  have hrowJob : ∀ row, p.row rowId = some row → ∃ job, p.job jobId = some job := by
    intro row hrow
    rcases hnames with hmem | ⟨-, hnone, -⟩
    · obtain ⟨job, -, hjob, -⟩ := hsame _ hmem
      exact ⟨job, hjob⟩
    · rw [hnone] at hrow
      cases hrow
  rcases hleft with ⟨rfl, hrefused, hafter⟩ | ⟨job, new, hjob, hguard, hnew, rfl, hafter⟩
  · rcases hright with ⟨rfl, -, hafter'⟩ | ⟨row, new', hrow, hguard', -⟩
    · refine .inl ⟨rfl, rfl, hrefused, ?_⟩
      intro ids hids
      rw [hjobs] at hids
      obtain ⟨job, row, hjob, hrow, hresponse⟩ := hsame ids hids
      exact ⟨job, row, (hafter ids.1).trans hjob, (hafter' ids.2).trans hrow, hresponse⟩
    · obtain ⟨job, hjob⟩ := hrowJob row hrow
      have hfalse := hguards job row hjob hrow
      rw [hguard', hrefused job hjob] at hfalse
      cases hfalse
  · obtain ⟨row, hrow, hresponse, hmem⟩ := hboth job hjob
    rcases hright with ⟨rfl, hrefused, -⟩ | ⟨row', new', hrow', -, hnew', rfl, hafter'⟩
    · have hfalse := hguards job row hjob hrow
      rw [hguard, hrefused row hrow] at hfalse
      cases hfalse
    · obtain rfl := Option.some.inj (hrow.symm.trans hrow')
      refine .inr ⟨job, row, new, new', hjob, hrow, hguard, hresponse, hnew, hnew', rfl, rfl, ?_⟩
      constructor
      · intro hq
        obtain ⟨job', row', hjob', hrow', hresponse'⟩ := hq (jobId, rowId) (hjobs ▸ hmem)
        have hleft : some new = some job' := ((hafter jobId).trans (if_pos rfl)).symm.trans hjob'
        have hright : some new' = some row' := ((hafter' rowId).trans (if_pos rfl)).symm.trans hrow'
        rw [Option.some.inj hleft, Option.some.inj hright]
        exact hresponse'
      · intro hwritten ids hids
        rw [hjobs] at hids
        have hlink := hlinked ids hids (jobId, rowId) hmem
        by_cases hid : ids.1 = jobId
        · exact ⟨new, new', (hafter ids.1).trans (if_pos hid), (hafter' ids.2).trans (if_pos (hlink.mp hid)),
            hwritten⟩
        · have hid' : ids.2 ≠ rowId := fun heq => hid (hlink.mpr heq)
          obtain ⟨other, other', hother, hother', hsameOther⟩ := hsame ids hids
          exact ⟨other, other', (hafter ids.1).trans ((if_neg hid).trans hother),
            (hafter' ids.2).trans ((if_neg hid').trans hother'), hsameOther⟩

/-- The ids of a new job are new. -/
theorem linked_created (hlinked : p.Linked) {jobId rowId : String}
    (hold : ∀ ids ∈ p.jobs, ids.1 ≠ jobId ∧ ids.2 ≠ rowId) (hjobs : q.jobs = p.jobs ++ [(jobId, rowId)]) : q.Linked := by
  intro ids hids others hothers
  rw [hjobs] at hids hothers
  rcases List.mem_append.mp hids with hids | hids
  · rcases List.mem_append.mp hothers with hothers | hothers
    · exact hlinked ids hids others hothers
    · rw [List.mem_singleton.mp hothers]
      exact iff_of_false (hold ids hids).1 (hold ids hids).2
  · rw [List.mem_singleton.mp hids]
    rcases List.mem_append.mp hothers with hothers | hothers
    · exact iff_of_false (Ne.symm (hold others hothers).1) (Ne.symm (hold others hothers).2)
    · rw [List.mem_singleton.mp hothers]
      exact iff_of_true rfl rfl

/-- A new job that Postgres has taken: the others are shown as before, and it is shown alike unless its model was cut. -/
theorem agree_created (hlinked : p.Linked) (hsame : p.SameResponses) {authContext : AuthContext}
    {payload : JsonObject} {model : String} {job row : BatchJobRecord}
    (hcreate : InMemoryBatchJobStore.store.create authContext payload model p.memory job q.memory)
    (hcreate' : PostgresBatchJobStore.store.create authContext payload model p.db row q.db)
    (hjobs : q.jobs = p.jobs ++ [(job.id, row.id)]) :
    q.Linked ∧ (q.SameResponses ↔ keptModel model = model) := by
  obtain ⟨hfresh, ⟨metadata, hjob⟩, hafter⟩ :=
    InMemoryBatchJobStore.actsOnRecords.create _ _ _ _ _ _ hcreate
  obtain ⟨hfresh', ⟨metadata', hrow⟩, hafter'⟩ :=
    PostgresBatchJobStore.actsOnRecords.create _ _ _ _ _ _ hcreate'
  have hold : ∀ ids ∈ p.jobs, ids.1 ≠ job.id ∧ ids.2 ≠ row.id := by
    intro ids hids
    obtain ⟨job', row', hjob', hrow', -⟩ := hsame ids hids
    refine ⟨?_, ?_⟩
    · intro heq
      rw [heq] at hjob'
      exact absurd (hfresh.symm.trans hjob') nofun
    · intro heq
      rw [heq] at hrow'
      exact absurd (hfresh'.symm.trans hrow') nofun
  refine ⟨linked_created hlinked hold hjobs, ?_⟩
  have hnew : SameResponse job row ↔ keptModel model = model := by
    rw [sameResponse_iff, hjob, hrow]
    exact ⟨fun h => h.1.model, fun h => ⟨⟨rfl, h, rfl, rfl, rfl, rfl⟩, rfl, rfl⟩⟩
  rw [← hnew]
  constructor
  · intro hq
    have hmem : (job.id, row.id) ∈ q.jobs := by
      rw [hjobs]
      exact List.mem_append_right _ (List.mem_singleton_self _)
    obtain ⟨job', row', hjob', hrow', hresponse⟩ := hq _ hmem
    have hleft : some job = some job' := ((hafter job.id).trans (if_pos rfl)).symm.trans hjob'
    have hright : some row = some row' := ((hafter' row.id).trans (if_pos rfl)).symm.trans hrow'
    rw [Option.some.inj hleft, Option.some.inj hright]
    exact hresponse
  · intro hresponse ids hids
    rw [hjobs] at hids
    rcases List.mem_append.mp hids with hids | hids
    · obtain ⟨job', row', hjob', hrow', hresponse'⟩ := hsame ids hids
      exact ⟨job', row', (hafter ids.1).trans ((if_neg (hold ids hids).1).trans hjob'),
        (hafter' ids.2).trans ((if_neg (hold ids hids).2).trans hrow'), hresponse'⟩
    · rw [List.mem_singleton.mp hids]
      exact ⟨job, row, (hafter job.id).trans (if_pos rfl), (hafter' row.id).trans (if_pos rfl), hresponse⟩

/-- What a mark may write is a matter of the job or of its row. -/
theorem marks_row_iff (hsame : p.SameResponses) {jobId rowId : String} (hnames : p.Names jobId rowId) (C : Prop) :
    (∀ row, (p.db .batchJobs).find rowId = some row → row.status ≠ .cancelled → C) ↔ ∀ job, p.Marks jobId job → C := by
  rcases hnames with hmem | ⟨hjob, hrow, -⟩
  · obtain ⟨job, record, hjob, hrecord, hresponse⟩ := hsame _ hmem
    obtain ⟨row, hrow, rfl⟩ := Option.map_eq_some_iff.mp hrecord
    have hstatus : row.status = job.status := (sameResponse_iff.mp hresponse).1.status
    constructor
    · rintro h other ⟨hother, hlive⟩
      obtain rfl := Option.some.inj (hjob.symm.trans hother)
      exact h row hrow (hstatus ▸ hlive)
    · intro h other hother hlive
      obtain rfl := Option.some.inj (hrow.symm.trans hother)
      exact h job ⟨hjob, hstatus ▸ hlive⟩
  · refine iff_of_true ?_ ?_
    · intro row hfind
      have hnone : (p.db .batchJobs).find rowId = none := Option.map_eq_none_iff.mp hrow
      rw [hnone] at hfind
      cases hfind
    · rintro job ⟨hfind, -⟩
      rw [hjob] at hfind
      cases hfind

/-- What has to be preserved from call to call. -/
structure StorePair.Sound (p : StorePair) : Prop where
  linked : p.Linked
  same : p.SameResponses
  held : p.db.HoldsJobs

theorem not_agreesOn_error {exc : PyExc} : ¬ q.AgreesOn left (.error exc) := by
  rintro ⟨⟨record, hrecord, -⟩, -⟩
  cases hrecord

theorem agreesOn_ok_iff {record : Option BatchJobRecord} (hnone : left = none ↔ record = none) :
    q.AgreesOn left (.ok record) ↔ q.SameResponses := by
  refine and_iff_right ⟨record, rfl, hnone⟩

/-- **A new job** is kept alike exactly when Postgres takes its row and does not cut its model. -/
theorem agree_create (hsound : p.Sound) {authContext : AuthContext} {payload : JsonObject} {model : String}
    {right : Except PyExc (Option BatchJobRecord)} (h : p.Performs (.create authContext payload model) left right q) :
    (q.AgreesOn left right ↔ (PairCall.create authContext payload model).KeptAlike p) ∧
      (q.AgreesOn left right → q.Sound) := by
  obtain ⟨job, row, rfl, rfl, hcreate, hcreate', hjobs⟩ := h
  have hreturns := up_createBody hcreate'
  cases row with
  | error exc =>
      refine ⟨iff_of_false not_agreesOn_error fun hkept => ?_, fun h => absurd h not_agreesOn_error⟩
      cases hreturns.mpr hkept.1
  | ok row =>
      have hsubmittable := hreturns.mp rfl
      have hcommitted := hcreate'.mono fun _ _ _ _ => pgExec_of_up
      obtain ⟨hlinked, hshown⟩ := agree_created hsound.linked hsound.same hcreate hcommitted hjobs
      have hagrees : q.AgreesOn (some job) (.ok (some row)) ↔ q.SameResponses :=
        agreesOn_ok_iff (iff_of_false (Option.some_ne_none _) (Option.some_ne_none _))
      refine ⟨?_, fun h => ⟨hlinked, h.2, held_created hsound.held hsubmittable.payload hcommitted⟩⟩
      exact hagrees.trans (hshown.trans (and_iff_right hsubmittable).symm)

/-- **A transition** is always kept alike. -/
theorem agree_transition (hsound : p.Sound) {jobId rowId : String} {target : JobStatus}
    {right : Except PyExc (Option BatchJobRecord)} (h : p.Performs (.transition jobId rowId target) left right q) :
    q.AgreesOn left right ∧ q.Sound := by
  obtain ⟨hnames, hleft, hright, hjobs⟩ := h
  obtain ⟨record, rfl⟩ : ∃ record, right = .ok record := by
    have hreturns := up_transitionBody hright
    cases right with
    | error exc => cases hreturns
    | ok record => exact ⟨record, rfl⟩
  have hcommitted := hright.mono fun _ _ _ _ => pgExec_of_up
  have hlinked : q.Linked := by
    rw [StorePair.Linked, hjobs]
    exact hsound.linked
  have hheld := held_moved hsound.held hcommitted
  rcases rewrites_cases hsound.linked hsound.same hnames
    (InMemoryBatchJobStore.actsOnRecords.transition _ _ _ _ _ hleft)
    (PostgresBatchJobStore.actsOnRecords.transition _ _ _ _ _ hcommitted) hjobs with
    ⟨rfl, rfl, -, hsame⟩ | ⟨job, row, new, new', -, -, -, hresponse, rfl, rfl, rfl, rfl, hiff⟩
  · exact ⟨⟨⟨_, rfl, Iff.rfl⟩, hsame⟩, hlinked, hsame, hheld⟩
  · obtain ⟨hprogress, hcode, hmessage⟩ := sameResponse_iff.mp hresponse
    have hsame := hiff.mpr (sameResponse_iff.mpr ⟨{ hprogress with status := rfl }, hcode, hmessage⟩)
    exact ⟨⟨⟨_, rfl, iff_of_false (Option.some_ne_none _) (Option.some_ne_none _)⟩, hsame⟩, hlinked, hsame, hheld⟩

/-- **A success** is kept alike exactly when Postgres takes its result and its usage and it finds no error. -/
theorem agree_markSucceeded (hsound : p.Sound) {jobId rowId : String} {result usage : JsonObject}
    {right : Except PyExc (Option BatchJobRecord)}
    (h : p.Performs (.markSucceeded jobId rowId result usage) left right q) :
    (q.AgreesOn left right ↔ (PairCall.markSucceeded jobId rowId result usage).KeptAlike p) ∧
      (q.AgreesOn left right → q.Sound) := by
  obtain ⟨hnames, hleft, hright, hjobs⟩ := h
  have hreturns := (up_markSucceededBody hsound.held hright).trans (marks_row_iff hsound.same hnames _)
  cases right with
  | error exc =>
      refine ⟨iff_of_false not_agreesOn_error fun hkept => ?_, fun h => absurd h not_agreesOn_error⟩
      cases hreturns.mpr fun job hjob => (hkept job hjob).1
  | ok record =>
      have hstorable := hreturns.mp rfl
      have hcommitted := hright.mono fun _ _ _ _ => pgExec_of_up
      have hlinked : q.Linked := by
        rw [StorePair.Linked, hjobs]
        exact hsound.linked
      have hheld := held_succeeded hsound.held ((marks_row_iff hsound.same hnames _).mpr hstorable) hcommitted
      rcases rewrites_cases hsound.linked hsound.same hnames
        (InMemoryBatchJobStore.actsOnRecords.markSucceeded _ _ _ _ _ _ hleft)
        (PostgresBatchJobStore.actsOnRecords.markSucceeded _ _ _ _ _ _ hcommitted) hjobs with
        ⟨rfl, rfl, hrefused, hsame⟩ | ⟨job, row, new, new', hjob, -, hguard, hresponse, rfl, ⟨metadata, rfl⟩,
          rfl, rfl, hiff⟩
      · refine ⟨iff_of_true ⟨⟨_, rfl, Iff.rfl⟩, hsame⟩ ?_, fun _ => ⟨hlinked, hsame, hheld⟩⟩
        rintro job ⟨hjob, hlive⟩
        have hguard := hrefused job hjob
        simp only [BatchJobStore.markable, ne_eq, decide_eq_false_iff_not, not_not] at hguard
        exact absurd hguard hlive
      · rw [agreesOn_ok_iff (iff_of_false (Option.some_ne_none _) (Option.some_ne_none _))]
        refine ⟨hiff.trans ?_, fun hsame => ⟨hlinked, hsame, hheld⟩⟩
        obtain ⟨hprogress, -, -⟩ := sameResponse_iff.mp hresponse
        have hlive : job.status ≠ .cancelled := of_decide_eq_true hguard
        constructor
        · rintro hwritten other ⟨hother, -⟩
          obtain rfl := Option.some.inj (hjob.symm.trans hother)
          obtain ⟨-, hcode, hmessage⟩ := sameResponse_iff.mp hwritten
          exact ⟨hstorable job ⟨hjob, hlive⟩, hcode.symm, hmessage.symm⟩
        · intro hkept
          obtain ⟨-, hcode, hmessage⟩ := hkept job ⟨hjob, hlive⟩
          refine sameResponse_iff.mpr ⟨⟨rfl, hprogress.model, hprogress.requestCount, rfl, rfl, rfl⟩, ?_, ?_⟩
          · exact hcode.symm
          · exact hmessage.symm

/-- **A failure** is kept alike exactly when Postgres takes its code and its message and does not cut the code. -/
theorem agree_markFailed (hsound : p.Sound) {jobId rowId : String} {errorCode : Option String} {errorMessage : String}
    {right : Except PyExc (Option BatchJobRecord)} (hfits : errorMessage.toList.length ≤ 1024)
    (h : p.Performs (.markFailed jobId rowId errorCode errorMessage) left right q) :
    (q.AgreesOn left right ↔ (PairCall.markFailed jobId rowId errorCode errorMessage).KeptAlike p) ∧
      (q.AgreesOn left right → q.Sound) := by
  obtain ⟨hnames, hleft, hright, hjobs⟩ := h
  have hwhole : String.ofList (errorMessage.toList.take 1024) = errorMessage := by
    rw [List.take_of_length_le hfits, String.ofList_toList]
  have hplain : (TableColumn.varchar 1024).takes errorMessage = true ↔ Char.ofNat 0 ∉ errorMessage.toList := by
    rw [TableColumn.takes_varchar hfits]
    simp
  have hreturns := (up_markFailedBody hsound.held hright).trans (marks_row_iff hsound.same hnames _)
  cases right with
  | error exc =>
      refine ⟨iff_of_false not_agreesOn_error fun hkept => ?_, fun h => absurd h not_agreesOn_error⟩
      have htaken := hreturns.mpr
      rw [hwhole] at htaken
      cases htaken fun job hjob => ⟨(hkept job hjob).1.1, hplain.mpr (hkept job hjob).2⟩
  | ok record =>
      have htaken := hreturns.mp rfl
      have hcommitted := hright.mono fun _ _ _ _ => pgExec_of_up
      have hlinked : q.Linked := by
        rw [StorePair.Linked, hjobs]
        exact hsound.linked
      have hheld := held_failed hsound.held ((marks_row_iff hsound.same hnames _).mpr htaken) hcommitted
      rcases rewrites_cases hsound.linked hsound.same hnames
        (InMemoryBatchJobStore.actsOnRecords.markFailed _ _ _ _ _ _ hleft)
        (PostgresBatchJobStore.actsOnRecords.markFailed _ _ _ _ _ _ hcommitted) hjobs with
        ⟨rfl, rfl, hrefused, hsame⟩ | ⟨job, row, new, new', hjob, hrow, hguard, hresponse, rfl, ⟨metadata, rfl⟩,
          rfl, rfl, hiff⟩
      · refine ⟨iff_of_true ⟨⟨_, rfl, Iff.rfl⟩, hsame⟩ ?_, fun _ => ⟨hlinked, hsame, hheld⟩⟩
        rintro job ⟨hjob, hlive⟩
        have hguard := hrefused job hjob
        simp only [BatchJobStore.markable, ne_eq, decide_eq_false_iff_not, not_not] at hguard
        exact absurd hguard hlive
      · rw [agreesOn_ok_iff (iff_of_false (Option.some_ne_none _) (Option.some_ne_none _))]
        refine ⟨hiff.trans ?_, fun hsame => ⟨hlinked, hsame, hheld⟩⟩
        have hlive : job.status ≠ .cancelled := of_decide_eq_true hguard
        obtain ⟨hprogress, -, -⟩ := sameResponse_iff.mp hresponse
        obtain ⟨hcode, hmessage⟩ := htaken job ⟨hjob, hlive⟩
        rw [hwhole] at hmessage
        have hheldCode : (TableColumn.varchar 128).nullable.Holds row.errorCode := by
          obtain ⟨stored, hstored, rfl⟩ := Option.map_eq_some_iff.mp hrow
          exact (hsound.held rowId stored hstored).errorCode
        constructor
        · rintro hwritten other -
          refine ⟨⟨hcode, ?_⟩, hplain.mp hmessage⟩
          exact (TableColumn.flush_eq_iff _ hheldCode).mp (sameResponse_iff.mp hwritten).2.1
        · intro hkept
          obtain ⟨⟨-, hkeeps⟩, -⟩ := hkept job ⟨hjob, hlive⟩
          refine sameResponse_iff.mpr ⟨⟨rfl, hprogress.model, hprogress.requestCount, hprogress.completedCount,
            rfl, hprogress.resultPayload⟩, ?_, ?_⟩
          · exact (TableColumn.flush_eq_iff _ hheldCode).mpr hkeeps
          · exact congrArg some hwhole

end Step

/-- **One call.** -/
theorem agree_step {p q : StorePair} (hsound : p.Sound) {call : PairCall} {left : Option BatchJobRecord}
    {right : Except PyExc (Option BatchJobRecord)} (hfits : call.MessageFits) (h : p.Performs call left right q) :
    (q.AgreesOn left right ↔ call.KeptAlike p) ∧ (q.AgreesOn left right → q.Sound) := by
  cases call with
  | create authContext payload model => exact agree_create hsound h
  | transition jobId rowId target =>
      obtain ⟨hagrees, hsound'⟩ := agree_transition hsound h
      exact ⟨iff_of_true hagrees trivial, fun _ => hsound'⟩
  | markSucceeded jobId rowId result usage => exact agree_markSucceeded hsound h
  | markFailed jobId rowId errorCode errorMessage => exact agree_markFailed hsound hfits h

/-- **The stores agree** after every call of a sequence exactly when every call is kept alike: Postgres takes what it
writes as it is, and no success finds an error. Each call on Postgres is taken to commit, which in the source none does. -/
theorem agree_iff {start : StorePair} (hempty : start.Empty) {steps : List PairStep}
    (hrun : PairRun start steps) (hfits : ∀ step ∈ steps, step.call.MessageFits) :
    Agree steps ↔ AllKeptAlike start steps := by
  have hsound : start.Sound := by
    obtain ⟨hjobs, -, hrows⟩ := hempty
    refine ⟨?_, ?_, ?_⟩
    · rw [StorePair.Linked, hjobs]
      exact List.forall_mem_nil _
    · rw [StorePair.SameResponses, hjobs]
      exact List.forall_mem_nil _
    · intro rowId row hrow
      have hnone : (start.db .batchJobs).find rowId = none := Option.map_eq_none_iff.mp (hrows rowId)
      rw [hnone] at hrow
      cases hrow
  clear hempty
  induction hrun with
  | nil p => exact iff_of_true (List.forall_mem_nil _) trivial
  | cons h hrest ih =>
      obtain ⟨hiff, hsound'⟩ := agree_step hsound (hfits _ List.mem_cons_self) h
      rw [Agree, List.forall_mem_cons, AllKeptAlike, ← hiff]
      refine and_congr_right ?_
      intro hagrees
      exact ih (fun step hstep => hfits step (List.mem_cons_of_mem _ hstep)) (hsound' hagrees)

def noJobs : StorePair := ⟨.empty, tenantDb, []⟩

theorem noJobs_empty : noJobs.Empty := ⟨rfl, fun _ => rfl, fun _ => rfl⟩

def tenant : AuthContext := ⟨"key", "user", "project", none⟩

def createdJob : BatchJob := createdRow "row" tenant [] "model" 0 0

def failedJob : BatchJob := BatchJobRepository.withFailure createdJob (some "timeout") "timed out" "now" 0

def succeededJob : BatchJob := BatchJobRepository.withSuccess failedJob [] [] "later" 0

/-- One job, under an id of each store. -/
def jobCreated : PairStep :=
  let job := InMemoryBatchJobStore.empty.create tenant [] "model" "hex"
  { call := .create tenant [] "model"
    left := some job.1
    right := .ok (some (recordFromModel createdJob))
    after :=
      { memory := job.2
        db := Function.update tenantDb .batchJobs ⟨[createdJob], List.nodup_singleton _⟩
        jobs := [("job_hex", "row")] } }

def jobFailed : PairStep :=
  let job := jobCreated.after.memory.markFailed "job_hex" (some "timeout") "timed out"
  { call := .markFailed "job_hex" "row" (some "timeout") "timed out"
    left := job.1
    right := .ok (some (recordFromModel failedJob))
    after :=
      { memory := job.2
        db := Function.update jobCreated.after.db .batchJobs ((jobCreated.after.db .batchJobs).replace failedJob)
        jobs := [("job_hex", "row")] } }

def jobSucceeded : PairStep :=
  let job := jobFailed.after.memory.markSucceeded "job_hex" [] []
  { call := .markSucceeded "job_hex" "row" [] []
    left := job.1
    right := .ok (some (recordFromModel succeededJob))
    after :=
      { memory := job.2
        db := Function.update jobFailed.after.db .batchJobs ((jobFailed.after.db .batchJobs).replace succeededJob)
        jobs := [("job_hex", "row")] } }

theorem performs_jobCreated : noJobs.Performs jobCreated.call jobCreated.left jobCreated.right jobCreated.after := by
  have hinserts : upPgExec (.add .batchJobs createdJob) tenantDb (.ok createdJob) jobCreated.after.db := ⟨rfl, rfl⟩
  exact ⟨_, .ok (recordFromModel createdJob), rfl, rfl, ⟨"hex", rfl, rfl⟩,
    ⟨.ok "row", tenantDb, ⟨⟨"row", rfl, rfl⟩, rfl⟩, .ok (0 : Int), tenantDb, ⟨⟨(0 : Int), rfl, trivial⟩, rfl⟩,
      .ok (0 : Int), tenantDb, ⟨⟨(0 : Int), rfl, trivial⟩, rfl⟩, .ok createdJob, _, hinserts, rfl, rfl⟩, rfl⟩

theorem performs_jobFailed :
    jobCreated.after.Performs jobFailed.call jobFailed.left jobFailed.right jobFailed.after := by
  have haccepts : DbTable.accepts .batchJobs (some createdJob) failedJob = true := by
    rw [failedJob, accepts_withFailure, Bool.and_eq_true_iff, Bool.and_eq_true_iff]
    exact ⟨⟨TableColumn.accepts_of_takes _ rfl _, TableColumn.accepts_of_takes _ rfl _⟩,
      TableColumn.accepts_of_takes _ rfl _⟩
  have hrow : DbTable.flush .batchJobs createdJob failedJob createdJob = failedJob :=
    flush_withFailure createdJob (some "timeout") "timed out" "now" 0
  have hflush : upPgExec (.flush .batchJobs createdJob failedJob) jobCreated.after.db (.ok failedJob)
      jobFailed.after.db := by
    have hwritten := up_flush_taken (show (jobCreated.after.db .batchJobs).find createdJob.id = some createdJob from rfl)
      haccepts
    rw [hrow] at hwritten
    exact hwritten
  exact ⟨.inl (List.mem_singleton_self _), rfl,
    ⟨.ok (some createdJob), _, ⟨rfl, rfl⟩, .ok "now", _, ⟨⟨"now", rfl, trivial⟩, rfl⟩, .ok (0 : Int), _,
      ⟨⟨(0 : Int), rfl, trivial⟩, rfl⟩, .ok failedJob, _, hflush, rfl, rfl⟩, rfl⟩

theorem performs_jobSucceeded :
    jobFailed.after.Performs jobSucceeded.call jobSucceeded.left jobSucceeded.right jobSucceeded.after := by
  have haccepts : DbTable.accepts .batchJobs (some failedJob) succeededJob = true := by
    rw [succeededJob, accepts_withSuccess]
    exact TableColumn.accepts_of_takes _ rfl _
  have hrow : DbTable.flush .batchJobs failedJob succeededJob failedJob = succeededJob :=
    flush_withSuccess failedJob [] [] "later" 0
  have hflush : upPgExec (.flush .batchJobs failedJob succeededJob) jobFailed.after.db (.ok succeededJob)
      jobSucceeded.after.db := by
    have hwritten := up_flush_taken (show (jobFailed.after.db .batchJobs).find failedJob.id = some failedJob from rfl)
      haccepts
    rw [hrow] at hwritten
    exact hwritten
  exact ⟨.inl (List.mem_singleton_self _), rfl,
    ⟨.ok (some failedJob), _, ⟨rfl, rfl⟩, .ok "later", _, ⟨⟨"later", rfl, trivial⟩, rfl⟩, .ok (0 : Int), _,
      ⟨⟨(0 : Int), rfl, trivial⟩, rfl⟩, .ok succeededJob, _, hflush, rfl, rfl⟩, rfl⟩

/-- The stores agree on a job that has failed. -/
theorem agree_failed : Agree [jobCreated, jobFailed] := by
  refine (agree_iff noJobs_empty (.cons performs_jobCreated (.cons performs_jobFailed (.nil _))) ?_).mpr
    ⟨⟨⟨rfl, rfl, rfl, rfl, rfl, rfl⟩, rfl⟩, ?_, trivial⟩
  · intro step hstep
    simp only [List.mem_cons, List.not_mem_nil, or_false] at hstep
    rcases hstep with rfl | rfl
    · exact trivial
    · show "timed out".toList.length ≤ 1024
      decide
  · intro job _
    refine ⟨⟨rfl, rfl⟩, ?_⟩
    show Char.ofNat 0 ∉ "timed out".toList
    decide

/-- When it succeeds afterwards, only the in-memory store goes on showing the error. -/
theorem not_agree : ¬ ∀ (start : StorePair) (steps : List PairStep), start.Empty → PairRun start steps →
    (∀ step ∈ steps, step.call.MessageFits) → Agree steps := by
  intro h
  have hagree := h noJobs [jobCreated, jobFailed, jobSucceeded] noJobs_empty
    (.cons performs_jobCreated (.cons performs_jobFailed (.cons performs_jobSucceeded (.nil _)))) ?_
  · obtain ⟨-, hsame⟩ := hagree jobSucceeded (by simp)
    obtain ⟨job, row, hjob, hrow, hresponse⟩ := hsame ("job_hex", "row") (List.mem_singleton_self _)
    obtain ⟨-, -, hmessage⟩ := sameResponse_iff.mp hresponse
    have hkept : (jobSucceeded.after.job "job_hex").map BatchJobRecord.errorMessage =
        some (some "timed out") := rfl
    have hcleared : (jobSucceeded.after.row "row").map BatchJobRecord.errorMessage = some none := rfl
    rw [hjob] at hkept
    rw [hrow] at hcleared
    rw [Option.map_some, hmessage] at hcleared
    exact absurd (hkept.symm.trans hcleared) (by decide)
  · intro step hstep
    simp only [List.mem_cons, List.not_mem_nil, or_false] at hstep
    rcases hstep with rfl | rfl | rfl
    · exact trivial
    · show "timed out".toList.length ≤ 1024
      decide
    · exact trivial

end GpuInference
