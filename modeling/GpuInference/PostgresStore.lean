import GpuInference.BatchStore
import GpuInference.PostgresCalls

/-!
The Postgres store as a store of batch jobs. Each of its calls runs its loop body on the committed
rows and commits: run without interruption, the bodies keep the table of statuses.
-/

open Effect

namespace GpuInference

/-- One call on the committed rows. A call that raises changes none. -/
def pgExec : Exec DbOp DbOp.Res PyExc Db := fun op db answer db' =>
  match answer with
  | .error _ => db' = db
  | .ok value =>
      match op.onRows db with
      | some (reply, after) => reply = .ok value ∧ db' = after
      | none => db' = db

/-- The status column of a job. -/
def Db.status (db : Db) (jobId : String) : Option JobStatus :=
  ((db .batchJobs).find jobId).map BatchJob.status

/-- The rows after a flush: the changed columns of the loaded row, on the row that is stored. -/
theorem find_flush {db db' : Db} {loaded changed row : BatchJob}
    (h : pgExec (.flush .batchJobs loaded changed) db (.ok row) db') :
    ∃ stored, (db .batchJobs).find loaded.id = some stored ∧
      row = DbTable.flush .batchJobs loaded changed stored ∧ ∀ jobId, (db' .batchJobs).find jobId =
        if jobId = loaded.id then some row else (db .batchJobs).find jobId := by
  simp only [pgExec, DbOp.onRows] at h
  cases hfind : (db .batchJobs).find (DbTable.key .batchJobs loaded) with
  | none =>
      rw [hfind] at h
      cases h.1
  | some stored =>
      rw [hfind] at h
      simp only at h
      by_cases htakes : DbTable.accepts .batchJobs (some loaded) changed = true
      case neg =>
        rw [if_neg htakes] at h
        cases h.1
      rw [if_pos htakes] at h
      obtain ⟨hrow, rfl⟩ := h
      have hrow := Except.ok.inj hrow
      refine ⟨stored, hfind, hrow.symm, ?_⟩
      intro jobId
      have hid : DbTable.key .batchJobs stored = loaded.id := KeyedTable.key_of_find hfind
      have hkey : DbTable.key .batchJobs row = loaded.id := by
        rw [← hrow, DbTable.key_flush]
        exact hid
      have hstored : (db .batchJobs).find (DbTable.key .batchJobs row) = some stored := by
        rw [hkey]
        exact hfind
      rw [Function.update_self, hrow, KeyedTable.find_replace hstored, hkey]

/-- The status of a flushed row, seen from outside. -/
theorem status_flush {db db' : Db} {loaded changed row : BatchJob}
    (h : pgExec (.flush .batchJobs loaded changed) db (.ok row) db') :
    ∃ stored, (db .batchJobs).find loaded.id = some stored ∧ ∀ jobId, Db.status db' jobId =
      if jobId = loaded.id then some (TableColumn.plain.flush loaded.status changed.status stored.status)
      else Db.status db jobId := by
  obtain ⟨stored, hstored, rfl, hafter⟩ := find_flush h
  refine ⟨stored, hstored, ?_⟩
  intro jobId
  rw [Db.status, hafter]
  by_cases hjob : jobId = loaded.id
  · rw [if_pos hjob, if_pos hjob]
    rfl
  · rw [if_neg hjob, if_neg hjob]
    rfl

/-- A flush of the row as it is stored writes what the columns keep of the changed row. -/
theorem flush_loaded {db db' : Db} {loaded changed row : BatchJob}
    (hloaded : (db .batchJobs).find loaded.id = some loaded)
    (h : pgExec (.flush .batchJobs loaded changed) db (.ok row) db') :
    row = DbTable.flush .batchJobs loaded changed loaded ∧ ∀ jobId, (db' .batchJobs).find jobId =
      if jobId = loaded.id then some row else (db .batchJobs).find jobId := by
  obtain ⟨stored, hstored, hrow, hafter⟩ := find_flush h
  obtain rfl : loaded = stored := Option.some.inj (hloaded.symm.trans hstored)
  exact ⟨hrow, hafter⟩

/-- The statuses after one job has been written. -/
theorem status_of_find {db db' : Db} {jobId : String} {job : BatchJob}
    (h : ∀ other, (db' .batchJobs).find other =
      if other = jobId then some job else (db .batchJobs).find other) :
    Db.status db' = JobTable.set (Db.status db) jobId job.status := by
  funext other
  rw [Db.status, h, JobTable.set, Function.update_apply]
  by_cases hjob : other = jobId
  · rw [if_pos hjob, if_pos hjob]
    rfl
  · rw [if_neg hjob, if_neg hjob]
    rfl

/-- A row that was added is the only one that changed. -/
theorem find_add {db db' : Db} {job row : BatchJob} (h : pgExec (.add .batchJobs job) db (.ok row) db') :
    row = DbTable.kept .batchJobs job ∧ (db .batchJobs).find job.id = none ∧ ∀ jobId, (db' .batchJobs).find jobId =
      if jobId = job.id then some row else (db .batchJobs).find jobId := by
  simp only [pgExec, DbOp.onRows] at h
  by_cases htakes : DbTable.accepts .batchJobs none job = true
  case neg =>
    rw [if_neg htakes] at h
    cases h.1
  rw [if_pos htakes] at h
  by_cases hconflict : DbTable.conflicts .batchJobs db (DbTable.kept .batchJobs job) = true
  · rw [if_pos hconflict] at h
    cases h.1
  · rw [if_neg hconflict] at h
    obtain ⟨hrow, rfl⟩ := h
    have hfresh : (db .batchJobs).find (DbTable.key .batchJobs (DbTable.kept .batchJobs job)) = none :=
      DbTable.find_of_conflicts (by simpa using hconflict)
    rw [← Except.ok.inj hrow]
    refine ⟨rfl, hfresh, ?_⟩
    intro jobId
    rw [Function.update_self, KeyedTable.find_insert hfresh]
    rfl

section Bodies

variable {db db' : Db}

theorem yields_dbCall_bind {α : Type} {op : DbOp} {rest : op.Res → DbProgram α} {value : α} :
    ((dbCall op).bind rest).Yields pgExec db (.ok value) db' ↔
      ∃ answer middle, pgExec op db (.ok answer) middle ∧
        (rest answer).Yields pgExec middle (.ok value) db' := by
  rw [Program.yields_bind_ok]
  exact exists_congr fun answer => exists_congr fun middle =>
    and_congr_left fun _ => Program.yields_perform pgExec op db middle (.ok answer)

/-- A read of the row of a job, then the rest on the same rows. -/
theorem yields_get_bind {α : Type} {jobId : String} {rest : Option BatchJob → DbProgram α} {value : α}
    (h : ((BatchJobRepository.get jobId).bind rest).Yields pgExec db (.ok value) db') :
    (rest ((db .batchJobs).find jobId)).Yields pgExec db (.ok value) db' := by
  obtain ⟨answer, middle, ⟨hanswer, rfl⟩, hrest⟩ := yields_dbCall_bind.mp h
  cases hanswer
  exact hrest

/-- Reading the clock leaves the rows as they are. -/
theorem yields_clock_bind {α : Type} {op : DbOp} (hclock : op = .utcNow ∨ op = .utcNowIso ∨ op = .uuid4)
    {rest : op.Res → DbProgram α} {value : α}
    (h : ((dbCall op).bind rest).Yields pgExec db (.ok value) db') :
    ∃ answer, (rest answer).Yields pgExec db (.ok value) db' := by
  obtain ⟨answer, middle, hexec, hrest⟩ := yields_dbCall_bind.mp h
  have hsame : middle = db := by
    rcases hclock with rfl | rfl | rfl
    · exact hexec
    · exact hexec
    · exact hexec
  rw [hsame] at hrest
  exact ⟨answer, hrest⟩

theorem yields_createBody {authContext : AuthContext} {payload : JsonObject} {model : String}
    {record : BatchJobRecord}
    (h : (PostgresBatchJobStore.createBody authContext payload model).Yields pgExec db (.ok record) db') :
    ∃ id createdAt updatedAt, record = recordFromModel
        (createdRow id (keptCaller authContext) payload (keptModel model) createdAt updatedAt) ∧
      (db .batchJobs).find id = none ∧ ∀ jobId, (db' .batchJobs).find jobId =
        if jobId = id then
          some (createdRow id (keptCaller authContext) payload (keptModel model) createdAt updatedAt)
        else (db .batchJobs).find jobId := by
  rw [PostgresBatchJobStore.createBody, Program.bind_eq, BatchJobRepository.create, Program.bind_eq,
    Program.bind_assoc] at h
  obtain ⟨id, h⟩ := yields_clock_bind (.inr (.inr rfl)) h
  rw [Program.bind_eq, Program.bind_assoc] at h
  obtain ⟨createdAt, h⟩ := yields_clock_bind (.inl rfl) h
  rw [Program.bind_eq, Program.bind_assoc] at h
  obtain ⟨updatedAt, h⟩ := yields_clock_bind (.inl rfl) h
  obtain ⟨row, middle, hadd, hrecord, rfl⟩ := yields_dbCall_bind.mp h
  obtain ⟨rfl, hfresh, hafter⟩ := find_add hadd
  exact ⟨id, createdAt, updatedAt, Except.ok.inj hrecord, hfresh, hafter⟩

theorem creates_createBody {authContext : AuthContext} {payload : JsonObject} {model : String}
    {record : BatchJobRecord}
    (h : (PostgresBatchJobStore.createBody authContext payload model).Yields pgExec db (.ok record) db') :
    JobTable.Creates (Db.status db) record (Db.status db') := by
  obtain ⟨id, createdAt, updatedAt, rfl, hfresh, hafter⟩ := yields_createBody h
  refine ⟨?_, rfl, status_of_find hafter⟩
  show ((db .batchJobs).find id).map BatchJob.status = none
  rw [hfresh]
  rfl

/-- A body that reads the row of a job and rewrites it, if its status passes `guard`: it returns `None` and changes
nothing, or the flush leaves `changed`. -/
theorem yields_rewriteBody {jobId : String} {record : Option BatchJobRecord} (guard : JobStatus → Bool)
    (rewrite : BatchJob → DbProgram BatchJob) (Changed : BatchJob → BatchJob → Prop)
    (hrewrite : ∀ job row middle, (rewrite job).Yields pgExec db (.ok row) middle →
      ∃ changed, Changed job (DbTable.flush .batchJobs job changed job) ∧
        pgExec (.flush .batchJobs job changed) db (.ok row) middle)
    (h : ((BatchJobRepository.get jobId).bind fun
        | none => .ret none
        | some job => if guard job.status = true then
              (rewrite job).bind fun job => .ret (some (recordFromModel job))
            else .ret none).Yields pgExec db (.ok record) db') :
    (record = none ∧ db' = db ∧ ∀ job ∈ (db .batchJobs).find jobId, guard job.status = false) ∨
    ∃ job changed, (db .batchJobs).find jobId = some job ∧ guard job.status = true ∧
      Changed job changed ∧ record = some (recordFromModel changed) ∧
      ∀ other, (db' .batchJobs).find other =
        if other = jobId then some changed else (db .batchJobs).find other := by
  have h := yields_get_bind h
  cases hfind : (db .batchJobs).find jobId with
  | none =>
      rw [hfind] at h
      obtain ⟨hrecord, rfl⟩ := h
      refine .inl ⟨Except.ok.inj hrecord, rfl, ?_⟩
      intro job hjob
      cases hjob
  | some job =>
      have hjob : job.id = jobId := KeyedTable.key_of_find hfind
      rw [hfind] at h
      simp only at h
      by_cases hguard : guard job.status = true
      · rw [if_pos hguard, Program.yields_bind_ok] at h
        obtain ⟨row, middle, hbody, hrecord, rfl⟩ := h
        obtain ⟨changed, hchanged, hflush⟩ := hrewrite job row _ hbody
        obtain ⟨rfl, hafter⟩ := flush_loaded (hjob ▸ hfind) hflush
        rw [hjob] at hafter
        exact .inr ⟨job, _, rfl, hguard, hchanged, Except.ok.inj hrecord, hafter⟩
      · rw [if_neg hguard] at h
        obtain ⟨hrecord, rfl⟩ := h
        refine .inl ⟨Except.ok.inj hrecord, rfl, ?_⟩
        intro other hother
        cases hother
        simpa using hguard

/-- A transition returns `None` and changes nothing, or writes the status of its job. -/
theorem yields_transitionBody {jobId : String} {target : JobStatus} {record : Option BatchJobRecord}
    (h : (PostgresBatchJobStore.transitionBody jobId target).Yields pgExec db (.ok record) db') :
    (record = none ∧ db' = db ∧
      ∀ job ∈ (db .batchJobs).find jobId, canTransition job.status target = false) ∨
    ∃ job updatedAt, (db .batchJobs).find jobId = some job ∧ canTransition job.status target = true ∧
      record = some (recordFromModel (BatchJobRepository.withStatus job target updatedAt)) ∧
      ∀ other, (db' .batchJobs).find other =
        if other = jobId then some (BatchJobRepository.withStatus job target updatedAt)
        else (db .batchJobs).find other := by
  have hrewritten := yields_rewriteBody (canTransition · target) (BatchJobRepository.updateStatus · target)
    (fun job changed => ∃ updatedAt, changed = BatchJobRepository.withStatus job target updatedAt) ?_ h
  · rcases hrewritten with hnone | ⟨job, changed, hfind, hcan, ⟨updatedAt, rfl⟩, hrecord, hafter⟩
    · exact .inl hnone
    · exact .inr ⟨job, updatedAt, hfind, hcan, hrecord, hafter⟩
  · intro job row middle hupdate
    obtain ⟨updatedAt, hupdate⟩ := yields_clock_bind (.inl rfl) hupdate
    exact ⟨_, ⟨updatedAt, flush_withStatus job target updatedAt⟩, (Program.yields_perform _ _ _ _ _).mp hupdate⟩

theorem moves_transitionBody {jobId : String} {target : JobStatus} {record : Option BatchJobRecord}
    (h : (PostgresBatchJobStore.transitionBody jobId target).Yields pgExec db (.ok record) db') :
    JobTable.Moves (Db.status db) jobId target record (Db.status db') := by
  rcases yields_transitionBody h with ⟨rfl, rfl, hrefused⟩ | ⟨job, updatedAt, hfind, hcan, rfl, hafter⟩
  · refine ⟨rfl, ?_⟩
    intro status hstatus
    obtain ⟨job, hjob, rfl⟩ := Option.map_eq_some_iff.mp hstatus
    exact hrefused job hjob
  · have hid : job.id = jobId := KeyedTable.key_of_find hfind
    refine ⟨⟨job.status, ?_, hcan⟩, hid, rfl, status_of_find hafter⟩
    rw [Db.status, hfind]
    rfl

/-- Both marks: the flush leaves `changed` unless the job is missing or cancelled. -/
theorem yields_markBody {jobId : String} {record : Option BatchJobRecord}
    (mark : BatchJob → DbProgram BatchJob) (Changed : BatchJob → BatchJob → Prop)
    (hmark : ∀ job row middle, (mark job).Yields pgExec db (.ok row) middle →
      ∃ changed, Changed job (DbTable.flush .batchJobs job changed job) ∧
        pgExec (.flush .batchJobs job changed) db (.ok row) middle)
    (h : ((BatchJobRepository.get jobId).bind fun
        | none => .ret none
        | some job => if job.status = .cancelled then .ret none
            else (mark job).bind fun job => .ret (some (recordFromModel job))).Yields pgExec db
      (.ok record) db') :
    (record = none ∧ db' = db ∧ ∀ job ∈ (db .batchJobs).find jobId, job.status = .cancelled) ∨
    ∃ job changed, (db .batchJobs).find jobId = some job ∧ job.status ≠ .cancelled ∧
      Changed job changed ∧ record = some (recordFromModel changed) ∧
      ∀ other, (db' .batchJobs).find other =
        if other = jobId then some changed else (db .batchJobs).find other := by
  let guard (status : JobStatus) : Bool := status ≠ .cancelled
  have hguarded : ∀ job : BatchJob,
      (if job.status = .cancelled then .ret none
        else (mark job).bind fun job => .ret (some (recordFromModel job)) : DbProgram (Option BatchJobRecord)) =
      if guard job.status = true then (mark job).bind fun job => .ret (some (recordFromModel job))
        else .ret none := by
    intro job
    by_cases hcancelled : job.status = .cancelled
    · simp [guard, hcancelled]
    · simp [guard, hcancelled]
  simp only [hguarded] at h
  simpa [guard] using yields_rewriteBody guard mark Changed hmark h

theorem yields_markSucceededBody {jobId : String} {result usage : JsonObject}
    {record : Option BatchJobRecord}
    (h : (PostgresBatchJobStore.markSucceededBody jobId result usage).Yields pgExec db (.ok record) db') :
    (record = none ∧ db' = db ∧ ∀ job ∈ (db .batchJobs).find jobId, job.status = .cancelled) ∨
    ∃ job changed, (db .batchJobs).find jobId = some job ∧ job.status ≠ .cancelled ∧
      (∃ completedAt updatedAt,
        changed = BatchJobRepository.withSuccess job result usage completedAt updatedAt) ∧
      record = some (recordFromModel changed) ∧ ∀ other, (db' .batchJobs).find other =
        if other = jobId then some changed else (db .batchJobs).find other := by
  refine yields_markBody (fun job => BatchJobRepository.markSucceeded job result usage) (fun job changed =>
    ∃ completedAt updatedAt,
      changed = BatchJobRepository.withSuccess job result usage completedAt updatedAt) ?_ h
  intro job row middle hmark
  obtain ⟨completedAt, hmark⟩ := yields_clock_bind (.inr (.inl rfl)) hmark
  obtain ⟨updatedAt, hmark⟩ := yields_clock_bind (.inl rfl) hmark
  exact ⟨_, ⟨completedAt, updatedAt, flush_withSuccess job result usage completedAt updatedAt⟩,
    (Program.yields_perform _ _ _ _ _).mp hmark⟩

theorem yields_markFailedBody {jobId : String} {errorCode : Option String} {errorMessage : String}
    {record : Option BatchJobRecord}
    (h : (PostgresBatchJobStore.markFailedBody jobId errorCode errorMessage).Yields pgExec db
      (.ok record) db') :
    (record = none ∧ db' = db ∧ ∀ job ∈ (db .batchJobs).find jobId, job.status = .cancelled) ∨
    ∃ job changed, (db .batchJobs).find jobId = some job ∧ job.status ≠ .cancelled ∧
      (∃ completedAt updatedAt, changed =
        BatchJobRepository.withFailure job (keptCode job.errorCode errorCode) errorMessage completedAt updatedAt) ∧
      record = some (recordFromModel changed) ∧ ∀ other, (db' .batchJobs).find other =
        if other = jobId then some changed else (db .batchJobs).find other := by
  refine yields_markBody (fun job => BatchJobRepository.markFailed job errorCode errorMessage)
    (fun job changed => ∃ completedAt updatedAt, changed =
      BatchJobRepository.withFailure job (keptCode job.errorCode errorCode) errorMessage completedAt updatedAt) ?_ h
  intro job row middle hmark
  obtain ⟨completedAt, hmark⟩ := yields_clock_bind (.inr (.inl rfl)) hmark
  obtain ⟨updatedAt, hmark⟩ := yields_clock_bind (.inl rfl) hmark
  exact ⟨_, ⟨completedAt, updatedAt, flush_withFailure job errorCode errorMessage completedAt updatedAt⟩,
    (Program.yields_perform _ _ _ _ _).mp hmark⟩

/-- A mark, seen on the statuses. -/
theorem marks_of_rows {jobId : String} {target : JobStatus} {record : Option BatchJobRecord}
    {Changed : BatchJob → BatchJob → Prop} (hid : ∀ job changed, Changed job changed → changed.id = job.id)
    (htarget : ∀ job changed, Changed job changed → changed.status = target)
    (h : (record = none ∧ db' = db ∧ ∀ job ∈ (db .batchJobs).find jobId, job.status = .cancelled) ∨
      ∃ job changed, (db .batchJobs).find jobId = some job ∧ job.status ≠ .cancelled ∧
        Changed job changed ∧ record = some (recordFromModel changed) ∧
        ∀ other, (db' .batchJobs).find other =
          if other = jobId then some changed else (db .batchJobs).find other) :
    JobTable.Marks (Db.status db) jobId target record (Db.status db') := by
  rcases h with ⟨rfl, rfl, hcancelled⟩ | ⟨job, changed, hfind, hlive, hchanged, rfl, hafter⟩
  · refine ⟨rfl, ?_⟩
    intro status hstatus
    obtain ⟨job, hjob, rfl⟩ := Option.map_eq_some_iff.mp hstatus
    exact hcancelled job hjob
  · have hjob : job.id = jobId := KeyedTable.key_of_find hfind
    have htable := status_of_find hafter
    rw [htarget job changed hchanged] at htable
    refine ⟨⟨job.status, ?_, hlive⟩, (hid job changed hchanged).trans hjob,
      htarget job changed hchanged, htable⟩
    rw [Db.status, hfind]
    rfl

theorem marks_markSucceededBody {jobId : String} {result usage : JsonObject}
    {record : Option BatchJobRecord}
    (h : (PostgresBatchJobStore.markSucceededBody jobId result usage).Yields pgExec db (.ok record) db') :
    JobTable.Marks (Db.status db) jobId .succeeded record (Db.status db') := by
  refine marks_of_rows ?_ ?_ (yields_markSucceededBody h)
  · rintro job changed ⟨completedAt, updatedAt, rfl⟩
    rfl
  · rintro job changed ⟨completedAt, updatedAt, rfl⟩
    rfl

theorem marks_markFailedBody {jobId : String} {errorCode : Option String} {errorMessage : String}
    {record : Option BatchJobRecord}
    (h : (PostgresBatchJobStore.markFailedBody jobId errorCode errorMessage).Yields pgExec db
      (.ok record) db') :
    JobTable.Marks (Db.status db) jobId .failed record (Db.status db') := by
  refine marks_of_rows ?_ ?_ (yields_markFailedBody h)
  · rintro job changed ⟨completedAt, updatedAt, rfl⟩
    rfl
  · rintro job changed ⟨completedAt, updatedAt, rfl⟩
    rfl

end Bodies

namespace PostgresBatchJobStore

/-- What `get` returns on committed rows. -/
def fetched (db : Db) (jobId : String) : Option BatchJobRecord :=
  ((db .batchJobs).find jobId).map recordFromModel

/-- What `list_recoverable` returns on committed rows. -/
def recoverable (db : Db) (limit : Int) : Except PyExc (List BatchJobRecord) :=
  (selectByStatus (db .batchJobs) .queued limit).map (List.map recordFromModel)

/-- A limit that covers every job lists every queued job. -/
theorem recoverable_queued {db : Db} {limit : Int} (hlimit : (db .batchJobs).rows.length ≤ limit) :
    ∃ jobs, recoverable db limit = .ok jobs ∧
      ∀ jobId, Db.status db jobId = some .queued → ∃ record ∈ jobs, record.id = jobId := by
  have hcount := List.length_filter_le (fun job : BatchJob => job.status = .queued) (db .batchJobs).rows
  have hvalid : ¬ limit < 0 := by omega
  unfold recoverable selectByStatus
  rw [if_neg hvalid]
  refine ⟨_, rfl, ?_⟩
  intro jobId hqueued
  obtain ⟨job, hjob, hstatus⟩ := Option.map_eq_some_iff.mp hqueued
  have hid : job.id = jobId := KeyedTable.key_of_find hjob
  refine ⟨recordFromModel job, List.mem_map_of_mem ?_, hid⟩
  rw [List.take_of_length_le]
  · rw [List.mem_mergeSort]
    exact List.mem_filter.mpr ⟨KeyedTable.mem_of_find hjob, by simpa using hstatus⟩
  · rw [List.length_mergeSort]
    omega

/-- The Postgres store keeps the table of statuses, each call in one committed transaction. -/
def store : BatchJobStore Db where
  table := Db.status
  create authContext payload model db job db' :=
    (createBody authContext payload model).Yields pgExec db (.ok job) db'
  get jobId db := fetched db jobId
  transition jobId target db job db' := (transitionBody jobId target).Yields pgExec db (.ok job) db'
  markSucceeded jobId result usage db job db' :=
    (markSucceededBody jobId result usage).Yields pgExec db (.ok job) db'
  markFailed jobId code message db job db' :=
    (markFailedBody jobId code message).Yields pgExec db (.ok job) db'
  listRecoverable limit db := recoverable db limit
  get_shows jobId db := by
    refine ⟨Option.map_map _ _ _, ?_⟩
    intro record hrecord
    obtain ⟨job, hjob, rfl⟩ := Option.map_eq_some_iff.mp hrecord
    have hid : job.id = jobId := KeyedTable.key_of_find hjob
    exact hid
  create_spec _ _ _ _ _ _ h := creates_createBody h
  transition_spec _ _ _ _ _ h := moves_transitionBody h
  markSucceeded_spec _ _ _ _ _ _ h := marks_markSucceededBody h
  markFailed_spec _ _ _ _ _ _ h := marks_markFailedBody h
  recoverable_spec db := ⟨(db .batchJobs).rows.length, fun _ hlimit => recoverable_queued hlimit⟩

end PostgresBatchJobStore

end GpuInference
