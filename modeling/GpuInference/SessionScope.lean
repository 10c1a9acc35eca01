import GpuInference.PostgresCalls

/-!
What a session leaves in the database. A service call returns or raises from inside the loop over
`session_scope`, so the generator is abandoned at its yield: it is closed with an exit exception that
its handler does not catch, and the session is closed without a commit. Whatever the call has flushed
is lost, whether it raises or returns.
-/

open Effect

namespace GpuInference

/-- What happens around one service call: which of its calls to the database fail, what the clock
shows, and what is drawn at random. -/
structure DbEnv where
  fault : Nat → Option PyExc
  utcNow : Nat → DateTime
  isoformat : DateTime → String
  uuid4 : String
  tokenUrlsafe : String

structure FlushedRow where
  table : DbTable
  row : table.Row

/-- The committed rows, what the open session sees of them together with its own flushes, and the
rows that were flushed. -/
structure SessionState where
  committed : Db
  view : Db
  flushed : List FlushedRow
  calls : Nat
  readings : Nat

def SessionState.start (db : Db) : SessionState := ⟨db, db, [], 0, 0⟩

/-- The rows that a call has flushed. -/
def flushedRows : (op : DbOp) → Except PyExc op.Res → List FlushedRow
  | .add t _, .ok row => [⟨t, row⟩]
  | .flush t _ _, .ok row => [⟨t, row⟩]
  | _, _ => []

namespace DbEnv

variable (env : DbEnv)

/-- A call to the database, unless it fails. -/
def guarded {α : Type} (s : SessionState) (answer : SessionState → Except PyExc α × SessionState) :
    Except PyExc α × SessionState :=
  match env.fault s.calls with
  | some exc => (.error exc, { s with calls := s.calls + 1 })
  | none => answer { s with calls := s.calls + 1 }

def onRows (op : DbOp) (s : SessionState) : Except PyExc op.Res × SessionState :=
  match op.onRows s.view with
  | some (answer, view) => (answer, { s with view := view, flushed := s.flushed ++ flushedRows op answer })
  | none => (.error (runtimeError "no call on rows"), s)

def dbAnswer : (op : DbOp) → SessionState → Except PyExc op.Res × SessionState
  | .utcNow, s => (.ok (env.utcNow s.readings), { s with readings := s.readings + 1 })
  | .utcNowIso, s =>
      (.ok (env.isoformat (env.utcNow s.readings)), { s with readings := s.readings + 1 })
  | .uuid4, s => (.ok env.uuid4, s)
  | .tokenUrlsafe, s => (.ok env.tokenUrlsafe, s)
  | .get t id, s => env.guarded s (onRows (.get t id))
  | .getByHash keyHash, s => env.guarded s (onRows (.getByHash keyHash))
  | .listByStatus status limit, s => env.guarded s (onRows (.listByStatus status limit))
  | .add t row, s => env.guarded s (onRows (.add t row))
  | .flush t loaded changed, s => env.guarded s (onRows (.flush t loaded changed))

def answer : (op : SessionOp) → SessionState → Except PyExc op.Res × SessionState
  | .enter, s => (.ok (), { s with view := s.committed })
  | .db op, s => env.dbAnswer op s
  | .commit, s => env.guarded s fun s => (.ok (), { s with committed := s.view })
  | .rollback, s => env.guarded s fun s => (.ok (), { s with view := s.committed })
  | .close, s => (.ok (), { s with view := s.committed })

end DbEnv

/-- `session_scope` from its yield on. -/
def sessionScopeFrom : Except PyExc Unit → Program (GenOp SessionOp) (GenOp.Res SessionOp.Res) PyExc Unit
  | .ok _ =>
      Program.tryFinally
        (Program.tryExcept PyExc.isException (sessionAwait .commit) fun exc => do
          sessionAwait .rollback
          Program.raise exc)
        (sessionAwait .close)
  | .error exc =>
      Program.tryFinally
        (Program.tryExcept PyExc.isException (.raise exc) fun exc => do
          sessionAwait .rollback
          Program.raise exc)
        (sessionAwait .close)

theorem sessionScope_eq : sessionScope = .call (.await .enter) fun
    | .ok _ => .call .yield sessionScopeFrom
    | .error exc => .raise exc := by
  unfold sessionScope sessionAwait Program.perform
  simp only [Program.bind_eq, Program.call_bind]
  congr 1
  funext answer
  cases answer with
  | error exc => rfl
  | ok value =>
      simp only [Program.ret_bind, Program.tryExcept, Program.tryFinally]
      congr 1
      funext answer
      cases answer with
      | error exc => rfl
      | ok value => rfl

theorem run_inSession {α : Type} (env : DbEnv) (body : DbProgram α) (s : SessionState) :
    (inSession body).run env.answer s = body.run env.dbAnswer s := by
  rw [inSession, Program.run_mapOp]
  congr 1
  funext op s
  simp only [DbEnv.answer]
  rcases env.dbAnswer op s with ⟨exc | value, s'⟩
  · rfl
  · rfl

/-- **A body that leaves the loop is not committed.** The call has the outcome of its body, and the
session is closed. -/
theorem run_withSession {α : Type} (env : DbEnv) (body : DbProgram α) (after : SessionProgram α)
    (s : SessionState) :
    (withSession body after).run env.answer s =
      ((body.run env.dbAnswer { s with view := s.committed }).1,
        { (body.run env.dbAnswer { s with view := s.committed }).2 with
          view := (body.run env.dbAnswer { s with view := s.committed }).2.committed }) := by
  have hclose : ∀ s' : SessionState,
      (Generator.close (sessionScopeFrom (.error PyExc.generatorExit))).run env.answer s' =
        (.ok (), { s' with view := s'.committed }) := fun _ => rfl
  rw [withSession, sessionScope_eq, Generator.asyncFor, Program.run_call]
  simp only [DbEnv.answer]
  rw [Generator.run_asyncFor_yield, Program.run_bind, run_inSession]
  rcases body.run env.dbAnswer { s with view := s.committed } with ⟨exc | value, s'⟩
  · exact Generator.run_abandon env.answer _ _ (hclose s')
  · exact Generator.run_abandon env.answer _ _ (hclose s')

/-- Committed rows are changed by commits only. -/
theorem committed_dbAnswer (env : DbEnv) (op : DbOp) (s : SessionState) :
    (env.dbAnswer op s).2.committed = s.committed := by
  have hguarded : ∀ op : DbOp, (env.guarded s (DbEnv.onRows op)).2.committed = s.committed := by
    intro op
    unfold DbEnv.guarded DbEnv.onRows
    cases env.fault s.calls with
    | some exc => rfl
    | none =>
        simp only
        split
        · rfl
        · rfl
  cases op
  case utcNow => rfl
  case utcNowIso => rfl
  case uuid4 => rfl
  case tokenUrlsafe => rfl
  all_goals exact hguarded _

theorem committed_run {α : Type} (env : DbEnv) (body : DbProgram α) (s : SessionState) :
    (body.run env.dbAnswer s).2.committed = s.committed := by
  induction body generalizing s with
  | ret value => rfl
  | raise exc => rfl
  | call op next ih =>
      rw [Program.run_call, ih]
      exact committed_dbAnswer env op s

/-- A later session sees the row. -/
def FlushedRow.StoredIn (flushed : FlushedRow) (db : Db) : Prop :=
  (db flushed.table).find (flushed.table.key flushed.row) = some flushed.row

/-- What a call left behind is durable: after a return every flushed row is stored, after an
exception nothing has changed. -/
def Durable {α : Type} (db : Db) (left : Except PyExc α × SessionState) : Prop :=
  match left.1 with
  | .ok _ => ∀ flushed ∈ left.2.flushed, flushed.StoredIn left.2.committed
  | .error _ => left.2.committed = db

/-- A body that has returned has flushed only rows that are stored already. -/
def Keeps {α : Type} (db : Db) (left : Except PyExc α × SessionState) : Prop :=
  ∀ value, left.1 = .ok value → ∀ flushed ∈ left.2.flushed, flushed.StoredIn db

/-- A call of a service is durable if and only if its body has nothing to lose. -/
theorem durable_withSession {α : Type} (env : DbEnv) (db : Db) (body : DbProgram α)
    (after : SessionProgram α) :
    Durable db ((withSession body after).run env.answer (.start db)) ↔
      Keeps db (body.run env.dbAnswer (.start db)) := by
  have hcommitted : (body.run env.dbAnswer (.start db)).2.committed = db :=
    committed_run env body (.start db)
  rw [run_withSession]
  have hstart : ({ SessionState.start db with view := (SessionState.start db).committed } : SessionState) =
      .start db := rfl
  rw [hstart, Durable, Keeps]
  simp only [hcommitted]
  cases (body.run env.dbAnswer (.start db)).1 with
  | error exc => simp
  | ok value => simp

section Bodies

variable (env : DbEnv) (db : Db)

theorem run_add (t : DbTable) (row : t.Row) (s : SessionState) :
    env.dbAnswer (.add t row) s =
      match env.fault s.calls with
      | some exc => (.error exc, { s with calls := s.calls + 1 })
      | none =>
          if t.accepts none row then
            if t.conflicts s.view (t.kept row) then
              (.error integrityError, { s with calls := s.calls + 1, flushed := s.flushed ++ [] })
            else (.ok (t.kept row), { s with
              calls := s.calls + 1
              view := Function.update s.view t ((s.view t).insert (t.kept row))
              flushed := s.flushed ++ [⟨t, t.kept row⟩] })
          else (.error dataError, { s with calls := s.calls + 1, flushed := s.flushed ++ [] }) := by
  simp only [DbEnv.dbAnswer, DbEnv.guarded]
  cases env.fault s.calls with
  | some exc => rfl
  | none =>
      simp only [DbEnv.onRows, DbOp.onRows]
      by_cases htakes : t.accepts none row = true
      · by_cases hconflict : t.conflicts s.view (t.kept row) = true
        · simp only [if_pos htakes, if_pos hconflict, flushedRows]
        · simp only [if_pos htakes, if_neg hconflict, flushedRows]
      · simp only [if_neg htakes, flushedRows]

/-- A flush of a row as it is stored writes what the columns keep of the changed row. -/
theorem run_flush {t : DbTable} {loaded changed : t.Row} {s : SessionState}
    (hloaded : (s.view t).find (t.key loaded) = some loaded) :
    env.dbAnswer (.flush t loaded changed) s =
      match env.fault s.calls with
      | some exc => (.error exc, { s with calls := s.calls + 1 })
      | none =>
          if t.accepts (some loaded) changed then
            (.ok (t.flush loaded changed loaded), { s with
              calls := s.calls + 1
              view := Function.update s.view t ((s.view t).replace (t.flush loaded changed loaded))
              flushed := s.flushed ++ [⟨t, t.flush loaded changed loaded⟩] })
          else (.error dataError, { s with calls := s.calls + 1, flushed := s.flushed ++ [] }) := by
  simp only [DbEnv.dbAnswer, DbEnv.guarded]
  cases env.fault s.calls with
  | some exc => rfl
  | none =>
      simp only [DbEnv.onRows, DbOp.onRows, hloaded]
      by_cases htakes : t.accepts (some loaded) changed = true
      · simp only [if_pos htakes, flushedRows]
      · simp only [if_neg htakes, flushedRows]

/-- A changed row is not the one a later session finds under its key. -/
theorem storedIn_changed {t : DbTable} {loaded changed : t.Row}
    (hloaded : (db t).find (t.key loaded) = some loaded) (hkey : t.key changed = t.key loaded) :
    (⟨t, changed⟩ : FlushedRow).StoredIn db ↔ changed = loaded := by
  rw [FlushedRow.StoredIn, hkey, hloaded, Option.some.injEq]
  exact eq_comm

/-- A row that could be inserted is not there. -/
theorem not_storedIn_fresh {t : DbTable} {row : t.Row} (h : t.conflicts db row = false) :
    ¬ (⟨t, row⟩ : FlushedRow).StoredIn db := by
  intro hstored
  rw [FlushedRow.StoredIn, DbTable.find_of_conflicts h] at hstored
  cases hstored

theorem keeps_error {α : Type} (exc : PyExc) (s : SessionState) :
    Keeps db ((.error exc, s) : Except PyExc α × SessionState) := nofun

theorem keeps_ok {α : Type} (value : α) {s : SessionState} (h : s.flushed = []) :
    Keeps db ((.ok value, s) : Except PyExc α × SessionState) := by
  intro _ _ flushed hflushed
  rw [h] at hflushed
  cases hflushed

/-- An inserted row is lost when the body returns. -/
theorem keeps_add {α : Type} {t : DbTable} {row : t.Row} {s : SessionState} {value : t.Row → α}
    (hview : s.view = db) (hflushed : s.flushed = []) :
    Keeps db (((dbCall (.add t row)).bind fun row => .ret (value row)).run env.dbAnswer s) ↔
      ¬ (env.fault s.calls = none ∧ t.Inserts db row) := by
  rw [Program.run_bind, dbCall, Program.run_perform, run_add, hview, hflushed, DbTable.Inserts]
  cases hfault : env.fault s.calls with
  | some exc => simpa using keeps_error db _ _
  | none =>
      by_cases htakes : t.accepts none row = true
      · by_cases hconflict : t.conflicts db (t.kept row) = true
        · simpa [htakes, hconflict] using keeps_error db _ _
        · have hfresh : t.conflicts db (t.kept row) = false := by simpa using hconflict
          simp [Keeps, htakes, hfresh, not_storedIn_fresh db hfresh]
      · simpa [htakes] using keeps_error db _ _

/-- A changed row is lost when the body returns. -/
theorem keeps_flush {α : Type} {t : DbTable} {loaded changed : t.Row} {readings : Nat}
    {value : t.Row → α} (hloaded : (db t).find (t.key loaded) = some loaded) :
    Keeps db (((dbCall (.flush t loaded changed)).bind fun row => .ret (value row)).run env.dbAnswer
        ⟨db, db, [], 1, readings⟩) ↔
      ¬ (env.fault 1 = none ∧ t.Updates loaded changed) := by
  rw [Program.run_bind, dbCall, Program.run_perform, run_flush env hloaded, DbTable.Updates]
  cases hfault : env.fault 1 with
  | some exc => simpa using keeps_error db _ _
  | none =>
      by_cases htakes : t.accepts (some loaded) changed = true
      · simp [Keeps, htakes, storedIn_changed db hloaded (DbTable.key_flush t loaded changed loaded)]
      · simpa [htakes] using keeps_error db _ _

theorem run_get (t : DbTable) (id : String) (s : SessionState) :
    env.dbAnswer (.get t id) s =
      match env.fault s.calls with
      | some exc => (.error exc, { s with calls := s.calls + 1 })
      | none => (.ok ((s.view t).find id), { s with calls := s.calls + 1, flushed := s.flushed ++ [] }) := by
  simp only [DbEnv.dbAnswer, DbEnv.guarded]
  cases env.fault s.calls with
  | some exc => rfl
  | none => rfl

/-- A body that loads a row first: it fails at once, or goes on with what is stored. -/
theorem keeps_get {α : Type} {t : DbTable} {id : String} {rest : Option t.Row → DbProgram α} :
    Keeps db (((dbCall (.get t id)).bind rest).run env.dbAnswer (.start db)) ↔
      (env.fault 0 = none → Keeps db ((rest ((db t).find id)).run env.dbAnswer ⟨db, db, [], 1, 0⟩)) := by
  rw [Program.run_bind, dbCall, Program.run_perform, run_get]
  simp only [SessionState.start]
  cases env.fault 0 with
  | some exc => simpa using keeps_error db _ _
  | none => simp

end Bodies

/-- The calls that write to the database. -/
inductive PgCall where
  | create (authContext : AuthContext) (payload : JsonObject) (model : String)
  | transition (jobId : String) (target : JobStatus)
  | markSucceeded (jobId : String) (result usage : JsonObject)
  | markFailed (jobId : String) (errorCode : Option String) (errorMessage : String)
  | startAudit (audit : AuditStart)
  | finalizeAudit (final : AuditFinal)
  | createApiKey (userId projectId name : String) (allowedModels : Option (List String))
      (expiresAt : Option DateTime)
  | authenticate (rawKey : String)

/-- What the call leaves behind is durable. -/
def PgCall.Durable (service : ApiKeyService) (env : DbEnv) (db : Db) : PgCall → Prop
  | create authContext payload model => GpuInference.Durable db
      ((PostgresBatchJobStore.create authContext payload model).run env.answer (.start db))
  | transition jobId target => GpuInference.Durable db
      ((PostgresBatchJobStore.transition jobId target).run env.answer (.start db))
  | markSucceeded jobId result usage => GpuInference.Durable db
      ((PostgresBatchJobStore.markSucceeded jobId result usage).run env.answer (.start db))
  | markFailed jobId errorCode errorMessage => GpuInference.Durable db
      ((PostgresBatchJobStore.markFailed jobId errorCode errorMessage).run env.answer (.start db))
  | startAudit audit => GpuInference.Durable db
      ((RequestAuditService.start audit).run env.answer (.start db))
  | finalizeAudit final => GpuInference.Durable db
      ((RequestAuditService.finalize final).run env.answer (.start db))
  | createApiKey userId projectId name allowedModels expiresAt => GpuInference.Durable db
      ((service.createApiKey userId projectId name allowedModels expiresAt).run env.answer (.start db))
  | authenticate rawKey => GpuInference.Durable db
      ((service.authenticate rawKey).run env.answer (.start db))

/-- The first `n` calls to the database do not fail. -/
def DbEnv.Calm (env : DbEnv) (n : Nat) : Prop := ∀ k < n, env.fault k = none

/-- The call has a row to write that the database can take and does not hold yet, and none of its calls to
the database fails. -/
def PgCall.Writes (service : ApiKeyService) (env : DbEnv) (db : Db) : PgCall → Prop
  | create authContext payload model => env.Calm 1 ∧ DbTable.Inserts .batchJobs db
      (createdRow env.uuid4 authContext payload model (env.utcNow 0) (env.utcNow 1))
  | transition jobId target => env.Calm 2 ∧ ∃ job, (db .batchJobs).find jobId = some job ∧
      canTransition job.status target = true
  | markSucceeded jobId result usage => env.Calm 2 ∧ ∃ job, (db .batchJobs).find jobId = some job ∧
      job.status ≠ .cancelled ∧ DbTable.Updates .batchJobs job
        (BatchJobRepository.withSuccess job result usage (env.isoformat (env.utcNow 0)) (env.utcNow 1))
  | markFailed jobId errorCode errorMessage => env.Calm 2 ∧ ∃ job, (db .batchJobs).find jobId = some job ∧
      job.status ≠ .cancelled ∧ DbTable.Updates .batchJobs job
        (BatchJobRepository.withFailure job errorCode errorMessage (env.isoformat (env.utcNow 0)) (env.utcNow 1))
  | startAudit audit => env.Calm 1 ∧
      DbTable.Inserts .requestAuditRecords db (auditRecordFromStart env.uuid4 audit)
  | finalizeAudit final => env.Calm 2 ∧
      ∃ record, (db .requestAuditRecords).find final.recordId = some record ∧
        DbTable.Updates .requestAuditRecords record (RequestAuditRepository.withFinal record final (env.utcNow 0))
  | createApiKey userId projectId name allowedModels expiresAt => env.Calm 1 ∧
      let rawKey := generateApiKey service.keyPrefix env.tokenUrlsafe
      DbTable.Inserts .apiKeys db {
        id := env.uuid4, userId, projectId, name
        keyHash := hashApiKey service.sha256 rawKey
        keyPrefix := keyDebugPrefix rawKey
        allowedModels, expiresAt
        revokedAt := none
        lastUsedAt := none }
  | authenticate rawKey => env.Calm 2 ∧ ∃ apiKey,
      ((db .apiKeys).rows.find? fun row => row.keyHash = hashApiKey service.sha256 rawKey) = some apiKey ∧
      validateApiKeyState apiKey (env.utcNow 0) = .ok () ∧ apiKey.lastUsedAt ≠ some (env.utcNow 1)

section Calls

variable (env : DbEnv) (db : Db)

theorem calm_one : env.Calm 1 ↔ env.fault 0 = none := by
  constructor
  · intro h
    exact h 0 Nat.one_pos
  · intro h k hk
    obtain rfl : k = 0 := by omega
    exact h

theorem calm_two : env.Calm 2 ↔ env.fault 0 = none ∧ env.fault 1 = none := by
  constructor
  · intro h
    exact ⟨h 0 (by omega), h 1 (by omega)⟩
  · rintro ⟨h0, h1⟩ k hk
    obtain rfl | rfl : k = 0 ∨ k = 1 := by omega
    · exact h0
    · exact h1

theorem durable_create (service : ApiKeyService) (authContext : AuthContext) (payload : JsonObject)
    (model : String) :
    (PgCall.create authContext payload model).Durable service env db ↔
      ¬ (PgCall.create authContext payload model).Writes service env db := by
  let job := createdRow env.uuid4 authContext payload model (env.utcNow 0) (env.utcNow 1)
  have hrun : (PostgresBatchJobStore.createBody authContext payload model).run env.dbAnswer (.start db) =
      ((dbCall (.add .batchJobs job)).bind fun row => .ret (recordFromModel row)).run env.dbAnswer
        ⟨db, db, [], 0, 2⟩ := rfl
  rw [PgCall.Durable, PostgresBatchJobStore.create, durable_withSession, hrun, keeps_add env db rfl rfl,
    PgCall.Writes, calm_one]

/-- A row that was found is found under its own key. -/
theorem find_key {t : DbTable} {id : String} {row : t.Row} (h : (db t).find id = some row) :
    (db t).find (t.key row) = some row := by
  rw [KeyedTable.key_of_find h]
  exact h

theorem durable_transition (service : ApiKeyService) (jobId : String) (target : JobStatus) :
    (PgCall.transition jobId target).Durable service env db ↔
      ¬ (PgCall.transition jobId target).Writes service env db := by
  rw [PgCall.Durable, PostgresBatchJobStore.transition, durable_withSession,
    PostgresBatchJobStore.transitionBody, Program.bind_eq, BatchJobRepository.get, keeps_get,
    PgCall.Writes, calm_two]
  cases hfind : (db .batchJobs).find jobId with
  | none => simpa using fun _ => keeps_ok db _ rfl
  | some job =>
      by_cases hcan : canTransition job.status target = true
      · have hchanged : BatchJobRepository.withStatus job target (env.utcNow 0) ≠ job := by
          intro hsame
          rw [← congrArg BatchJob.status hsame] at hcan
          cases target <;> cases hcan
        simp only [if_pos hcan]
        show (env.fault 0 = none → Keeps db (((dbCall (.flush .batchJobs job
          (BatchJobRepository.withStatus job target (env.utcNow 0)))).bind fun row =>
            .ret (some (recordFromModel row))).run env.dbAnswer ⟨db, db, [], 1, 1⟩)) ↔ _
        rw [keeps_flush env db (find_key db hfind), DbTable.Updates, accepts_withStatus, flush_withStatus]
        simp [hcan, hchanged]
      · simp only [if_neg hcan]
        simpa [hcan] using fun _ => keeps_ok db _ rfl

/-- A marked row that differs from the stored one is lost, unless the job has been cancelled. -/
theorem keeps_mark (jobId : String) (marked : BatchJob → String → DateTime → BatchJob) :
    Keeps db (((BatchJobRepository.get jobId).bind fun
        | none => .ret none
        | some job => if job.status = .cancelled then .ret none
            else (do
              let completedAt ← dbCall .utcNowIso
              let updatedAt ← dbCall .utcNow
              dbCall (.flush .batchJobs job (marked job completedAt updatedAt)) : DbProgram BatchJob).bind
                fun row => .ret (some (recordFromModel row))).run env.dbAnswer (.start db)) ↔
      ¬ (env.Calm 2 ∧ ∃ job, (db .batchJobs).find jobId = some job ∧ job.status ≠ .cancelled ∧
        DbTable.Updates .batchJobs job (marked job (env.isoformat (env.utcNow 0)) (env.utcNow 1))) := by
  rw [BatchJobRepository.get, keeps_get, calm_two]
  cases hfind : (db .batchJobs).find jobId with
  | none => simpa using fun _ => keeps_ok db _ rfl
  | some job =>
      by_cases hcancelled : job.status = .cancelled
      · simp only [if_pos hcancelled]
        simpa [hcancelled] using fun _ => keeps_ok db _ rfl
      · simp only [if_neg hcancelled]
        show (env.fault 0 = none → Keeps db (((dbCall (.flush .batchJobs job
          (marked job (env.isoformat (env.utcNow 0)) (env.utcNow 1)))).bind fun row =>
            .ret (some (recordFromModel row))).run env.dbAnswer ⟨db, db, [], 1, 2⟩)) ↔ _
        rw [keeps_flush env db (find_key db hfind)]
        simp [hcancelled]

theorem durable_markSucceeded (service : ApiKeyService) (jobId : String) (result usage : JsonObject) :
    (PgCall.markSucceeded jobId result usage).Durable service env db ↔
      ¬ (PgCall.markSucceeded jobId result usage).Writes service env db := by
  rw [PgCall.Durable, PostgresBatchJobStore.markSucceeded, durable_withSession]
  exact keeps_mark env db jobId fun job => BatchJobRepository.withSuccess job result usage

theorem durable_markFailed (service : ApiKeyService) (jobId : String) (errorCode : Option String)
    (errorMessage : String) :
    (PgCall.markFailed jobId errorCode errorMessage).Durable service env db ↔
      ¬ (PgCall.markFailed jobId errorCode errorMessage).Writes service env db := by
  rw [PgCall.Durable, PostgresBatchJobStore.markFailed, durable_withSession]
  exact keeps_mark env db jobId fun job => BatchJobRepository.withFailure job errorCode errorMessage

theorem durable_startAudit (service : ApiKeyService) (audit : AuditStart) :
    (PgCall.startAudit audit).Durable service env db ↔
      ¬ (PgCall.startAudit audit).Writes service env db := by
  have hrun : (RequestAuditService.startBody audit).run env.dbAnswer (.start db) =
      ((dbCall (.add .requestAuditRecords (auditRecordFromStart env.uuid4 audit))).bind fun row =>
        .ret (RequestAuditRecord.id row)).run env.dbAnswer (.start db) := rfl
  rw [PgCall.Durable, RequestAuditService.start, durable_withSession, hrun, keeps_add env db rfl rfl,
    PgCall.Writes, calm_one]
  rfl

theorem durable_finalizeAudit (service : ApiKeyService) (final : AuditFinal) :
    (PgCall.finalizeAudit final).Durable service env db ↔
      ¬ (PgCall.finalizeAudit final).Writes service env db := by
  rw [PgCall.Durable, RequestAuditService.finalize, durable_withSession,
    RequestAuditRepository.finalize, Program.bind_eq, RequestAuditRepository.get, keeps_get,
    PgCall.Writes, calm_two]
  cases hfind : (db .requestAuditRecords).find final.recordId with
  | none => simpa using fun _ => keeps_ok db _ rfl
  | some record =>
      show (env.fault 0 = none → Keeps db (((dbCall (.flush .requestAuditRecords record
        (RequestAuditRepository.withFinal record final (env.utcNow 0)))).bind fun _ =>
          .ret ()).run env.dbAnswer ⟨db, db, [], 1, 1⟩)) ↔ _
      rw [keeps_flush env db (find_key db hfind)]
      simp

theorem durable_createApiKey (service : ApiKeyService) (userId projectId name : String)
    (allowedModels : Option (List String)) (expiresAt : Option DateTime) :
    (PgCall.createApiKey userId projectId name allowedModels expiresAt).Durable service env db ↔
      ¬ (PgCall.createApiKey userId projectId name allowedModels expiresAt).Writes service env db := by
  let rawKey := generateApiKey service.keyPrefix env.tokenUrlsafe
  let apiKey : ApiKey := {
    id := env.uuid4, userId, projectId, name
    keyHash := hashApiKey service.sha256 rawKey
    keyPrefix := keyDebugPrefix rawKey
    allowedModels, expiresAt
    revokedAt := none
    lastUsedAt := none }
  have htoken : (service.createApiKey userId projectId name allowedModels expiresAt).run env.answer
      (.start db) = (withSession (service.createApiKeyBody rawKey userId projectId name allowedModels
        expiresAt) (.raise (runtimeError "API key creation failed"))).run env.answer (.start db) := by
    rw [ApiKeyService.createApiKey, Program.bind_eq, Program.run_bind, run_inSession, dbCall,
      Program.run_perform]
    rfl
  have hrun : (service.createApiKeyBody rawKey userId projectId name allowedModels expiresAt).run
      env.dbAnswer (.start db) =
      ((dbCall (.add .apiKeys apiKey)).bind fun row =>
        .ret (⟨rawKey, ApiKey.id row, ApiKey.keyPrefix row⟩ : CreatedApiKey)).run env.dbAnswer
          (.start db) := rfl
  rw [PgCall.Durable, htoken, durable_withSession, hrun, keeps_add env db rfl rfl, PgCall.Writes,
    calm_one]
  rfl

theorem run_getByHash (keyHash : String) (s : SessionState) :
    env.dbAnswer (.getByHash keyHash) s =
      match env.fault s.calls with
      | some exc => (.error exc, { s with calls := s.calls + 1 })
      | none => (.ok ((s.view .apiKeys).rows.find? fun apiKey => apiKey.keyHash = keyHash),
          { s with calls := s.calls + 1, flushed := s.flushed ++ [] }) := by
  simp only [DbEnv.dbAnswer, DbEnv.guarded]
  cases env.fault s.calls with
  | some exc => rfl
  | none => rfl

theorem durable_authenticate (service : ApiKeyService) (rawKey : String) :
    (PgCall.authenticate rawKey).Durable service env db ↔
      ¬ (PgCall.authenticate rawKey).Writes service env db := by
  rw [PgCall.Durable, ApiKeyService.authenticate, durable_withSession, ApiKeyService.authenticateBody,
    Program.bind_eq, ApiKeyRepository.getByHash, Program.run_bind, dbCall, Program.run_perform,
    run_getByHash, PgCall.Writes, calm_two]
  simp only [SessionState.start]
  cases hfault : env.fault 0 with
  | some exc => simpa using keeps_error db _ _
  | none =>
      cases hfind : (db .apiKeys).rows.find? fun row =>
        row.keyHash = hashApiKey service.sha256 rawKey with
      | none => simpa using keeps_error db _ _
      | some apiKey =>
          have hloaded : (db .apiKeys).find apiKey.id = some apiKey :=
            KeyedTable.find_of_mem (List.mem_of_find?_eq_some hfind)
          cases hstate : validateApiKeyState apiKey (env.utcNow 0) with
          | error exc =>
              have hrun : Program.run env.dbAnswer (do
                  let now ← dbCall .utcNow
                  Program.lift (validateApiKeyState apiKey now)
                  ApiKeyRepository.markUsed apiKey
                  pure (authContextFromApiKey apiKey)) ⟨db, db, [] ++ [], 1, 0⟩ =
                  (.error exc, ⟨db, db, [], 1, 1⟩) := by
                rw [Program.bind_eq, Program.run_bind, dbCall, Program.run_perform]
                simp only [DbEnv.dbAnswer, hstate]
                rfl
              simp only [hrun]
              simpa [hstate] using keeps_error db _ _
          | ok value =>
              have hrun : Program.run env.dbAnswer (do
                  let now ← dbCall .utcNow
                  Program.lift (validateApiKeyState apiKey now)
                  ApiKeyRepository.markUsed apiKey
                  pure (authContextFromApiKey apiKey)) ⟨db, db, [] ++ [], 1, 0⟩ =
                  Program.run env.dbAnswer ((dbCall (.flush .apiKeys apiKey
                    { apiKey with lastUsedAt := some (env.utcNow 1) })).bind fun _ =>
                      .ret (authContextFromApiKey apiKey)) ⟨db, db, [], 1, 2⟩ := by
                rw [Program.bind_eq, Program.run_bind, dbCall, Program.run_perform]
                simp only [DbEnv.dbAnswer, hstate, Program.lift_ok, Program.bind_eq, Program.ret_bind,
                  ApiKeyRepository.markUsed, Program.bind_assoc]
                rfl
              have hused : DbTable.Updates .apiKeys apiKey { apiKey with lastUsedAt := some (env.utcNow 1) } ↔
                  apiKey.lastUsedAt ≠ some (env.utcNow 1) := by
                cases apiKey
                simp [DbTable.Updates, DbTable.accepts, ApiKey.accepts, DbTable.flush, eq_comm]
              simp only [hrun]
              rw [keeps_flush env db hloaded]
              simp [hstate, hused]

/-- **What is lost.** A service call is durable exactly when it has nothing new to write or one of its
calls to the database fails. -/
theorem durable_iff_not_writes (service : ApiKeyService) (env : DbEnv) (db : Db) (call : PgCall) :
    call.Durable service env db ↔ ¬ call.Writes service env db := by
  cases call with
  | create => exact durable_create env db service _ _ _
  | transition => exact durable_transition env db service _ _
  | markSucceeded => exact durable_markSucceeded env db service _ _ _
  | markFailed => exact durable_markFailed env db service _ _ _
  | startAudit => exact durable_startAudit env db service _
  | finalizeAudit => exact durable_finalizeAudit env db service _
  | createApiKey => exact durable_createApiKey env db service _ _ _ _ _
  | authenticate => exact durable_authenticate env db service _

end Calls

/-- A job that is created for a user, a project and a key that are there is reported as created and is not stored. -/
theorem call_not_durable : ¬ ∀ (service : ApiKeyService) (env : DbEnv) (db : Db) (call : PgCall),
    call.Durable service env db := by
  intro h
  let env : DbEnv := ⟨fun _ => none, fun _ => 0, fun _ => "1970-01-01T00:00:00+00:00", "id", "token"⟩
  have hdurable := h ⟨fun _ => "", "an"⟩ env tenantDb (.create ⟨"key", "user", "project", none⟩ [] "model")
  rw [durable_create] at hdurable
  exact hdurable ⟨fun _ _ => rfl, by decide⟩

end GpuInference
