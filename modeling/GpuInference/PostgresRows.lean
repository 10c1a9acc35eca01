import GpuInference.BatchStore
import GpuInference.EffectProtocol
import GpuInference.TableColumn
import Mathlib.Data.List.Sort

/-!
The rows of the database and the repositories that read and write them. A loaded row is changed in
memory; its flush writes the changed columns, and no others, to the row that is stored by then. Postgres
refuses rows that violate a constraint, and values that their column does not take.
-/

open Effect

namespace GpuInference

/-- A row of `batch_jobs`. -/
structure BatchJob where
  id : String
  userId : String
  projectId : String
  apiKeyId : String
  model : String
  status : JobStatus
  errorCode : Option String
  errorMessage : Option String
  requestCount : Int
  completedCount : Int
  failedCount : Int
  metadataJson : Option JsonObject
  createdAt : DateTime
  updatedAt : DateTime
  deriving DecidableEq

/-- A row of `request_audit_records`. -/
structure RequestAuditRecord where
  id : String
  requestId : String
  userId : String
  projectId : String
  apiKeyId : String
  model : String
  status : UsageStatus
  promptTokens : Option Int
  completionTokens : Option Int
  totalTokens : Option Int
  latencyMs : Option Int
  errorCode : Option String
  promptHash : Option String
  completedAt : Option DateTime
  deriving DecidableEq

/-- A row of `users`, as far as the services use it. -/
structure User where
  id : String
  deriving DecidableEq

/-- A row of `projects`, as far as the services use it. -/
structure Project where
  id : String
  deriving DecidableEq

/-- The tables that the services read and write. -/
inductive DbTable where
  | users
  | projects
  | apiKeys
  | batchJobs
  | requestAuditRecords
  deriving DecidableEq

abbrev DbTable.Row : DbTable → Type
  | users => User
  | projects => Project
  | apiKeys => ApiKey
  | batchJobs => BatchJob
  | requestAuditRecords => RequestAuditRecord

/-- The primary key. -/
def DbTable.key : (t : DbTable) → t.Row → String
  | users => User.id
  | projects => Project.id
  | apiKeys => ApiKey.id
  | batchJobs => BatchJob.id
  | requestAuditRecords => RequestAuditRecord.id

/-- The rows of every table. -/
abbrev Db := (t : DbTable) → KeyedTable t.Row t.key

section Columns

open TableColumn

mutual

/-- `json.dumps` writes the value as JSON: there are no infinities and no NaN in it, and the digits of every integer can
be printed. -/
def Json.isStorable : Json → Bool
  | .null => true
  | .bool _ => true
  | .int value => value.natAbs < 10 ^ maxStrDigits
  | .float (.finite _ _) => true
  | .float (.inf _) => false
  | .float .nan => false
  | .str _ => true
  | .arr items => Json.areStorable items
  | .obj fields => Json.fieldsStorable fields

def Json.areStorable : List Json → Bool
  | [] => true
  | item :: items => item.isStorable && Json.areStorable items

def Json.fieldsStorable : List (String × Json) → Bool
  | [] => true
  | (_, value) :: fields => value.isStorable && Json.fieldsStorable fields

end

/-- JSON. Unlike JSONB it takes every escape, that of the null character too. -/
def jsonColumn : TableColumn JsonObject := ⟨Json.fieldsStorable, id⟩

/-- The columns that refer to `users`, `projects` and `api_keys`. -/
def idColumn : TableColumn String := varchar 36

/-- The columns take the values that are written; `loaded` is the row that has been read, if any has. The columns that
are left out take every value that the code has for them. -/
def BatchJob.accepts (loaded : Option BatchJob) (row : BatchJob) : Bool :=
  idColumn.accepts (loaded.map BatchJob.userId) row.userId &&
  idColumn.accepts (loaded.map BatchJob.projectId) row.projectId &&
  idColumn.accepts (loaded.map BatchJob.apiKeyId) row.apiKeyId &&
  (varchar 255).accepts (loaded.map BatchJob.model) row.model &&
  (varchar 128).nullable.accepts (loaded.map BatchJob.errorCode) row.errorCode &&
  (varchar 1024).nullable.accepts (loaded.map BatchJob.errorMessage) row.errorMessage &&
  integer.accepts (loaded.map BatchJob.requestCount) row.requestCount &&
  integer.accepts (loaded.map BatchJob.completedCount) row.completedCount &&
  integer.accepts (loaded.map BatchJob.failedCount) row.failedCount &&
  jsonColumn.nullable.accepts (loaded.map BatchJob.metadataJson) row.metadataJson

def RequestAuditRecord.accepts (loaded : Option RequestAuditRecord) (row : RequestAuditRecord) : Bool :=
  (varchar 80).accepts (loaded.map RequestAuditRecord.requestId) row.requestId &&
  idColumn.accepts (loaded.map RequestAuditRecord.userId) row.userId &&
  idColumn.accepts (loaded.map RequestAuditRecord.projectId) row.projectId &&
  idColumn.accepts (loaded.map RequestAuditRecord.apiKeyId) row.apiKeyId &&
  (varchar 255).accepts (loaded.map RequestAuditRecord.model) row.model &&
  integer.nullable.accepts (loaded.map RequestAuditRecord.promptTokens) row.promptTokens &&
  integer.nullable.accepts (loaded.map RequestAuditRecord.completionTokens) row.completionTokens &&
  integer.nullable.accepts (loaded.map RequestAuditRecord.totalTokens) row.totalTokens &&
  integer.nullable.accepts (loaded.map RequestAuditRecord.latencyMs) row.latencyMs &&
  (varchar 128).nullable.accepts (loaded.map RequestAuditRecord.errorCode) row.errorCode &&
  (varchar 64).nullable.accepts (loaded.map RequestAuditRecord.promptHash) row.promptHash

def ApiKey.accepts (loaded : Option ApiKey) (row : ApiKey) : Bool :=
  idColumn.accepts (loaded.map ApiKey.userId) row.userId &&
  idColumn.accepts (loaded.map ApiKey.projectId) row.projectId &&
  (varchar 255).accepts (loaded.map ApiKey.name) row.name &&
  (varchar 64).accepts (loaded.map ApiKey.keyHash) row.keyHash &&
  (varchar 32).accepts (loaded.map ApiKey.keyPrefix) row.keyPrefix

/-- `loaded` is the row that has been read before, if any has. -/
def DbTable.accepts : (t : DbTable) → (loaded : Option t.Row) → t.Row → Bool
  | users, _, _ => true
  | projects, _, _ => true
  | apiKeys, loaded, row => ApiKey.accepts loaded row
  | batchJobs, loaded, row => BatchJob.accepts loaded row
  | requestAuditRecords, loaded, row => RequestAuditRecord.accepts loaded row

/-- The row that an INSERT leaves. -/
def DbTable.kept : (t : DbTable) → t.Row → t.Row
  | users, row => row
  | projects, row => row
  | apiKeys, row => { row with
      userId := idColumn.keeps row.userId
      projectId := idColumn.keeps row.projectId
      name := (varchar 255).keeps row.name
      keyHash := (varchar 64).keeps row.keyHash
      keyPrefix := (varchar 32).keeps row.keyPrefix }
  | batchJobs, row => { row with
      userId := idColumn.keeps row.userId
      projectId := idColumn.keeps row.projectId
      apiKeyId := idColumn.keeps row.apiKeyId
      model := (varchar 255).keeps row.model
      errorCode := (varchar 128).nullable.keeps row.errorCode
      errorMessage := (varchar 1024).nullable.keeps row.errorMessage }
  | requestAuditRecords, row => { row with
      requestId := (varchar 80).keeps row.requestId
      userId := idColumn.keeps row.userId
      projectId := idColumn.keeps row.projectId
      apiKeyId := idColumn.keeps row.apiKeyId
      model := (varchar 255).keeps row.model
      errorCode := (varchar 128).nullable.keeps row.errorCode
      promptHash := (varchar 64).nullable.keeps row.promptHash }

/-- The row after the UPDATE of the columns that differ between `loaded` and `changed`. The repositories change no key
and no column that refers to another table. -/
def DbTable.flush : (t : DbTable) → (loaded changed stored : t.Row) → t.Row
  | users, _, _, stored => stored
  | projects, _, _, stored => stored
  | apiKeys, loaded, changed, stored => {
      id := stored.id
      userId := idColumn.flush loaded.userId changed.userId stored.userId
      projectId := idColumn.flush loaded.projectId changed.projectId stored.projectId
      name := (varchar 255).flush loaded.name changed.name stored.name
      keyHash := (varchar 64).flush loaded.keyHash changed.keyHash stored.keyHash
      keyPrefix := (varchar 32).flush loaded.keyPrefix changed.keyPrefix stored.keyPrefix
      allowedModels := plain.flush loaded.allowedModels changed.allowedModels stored.allowedModels
      expiresAt := plain.flush loaded.expiresAt changed.expiresAt stored.expiresAt
      revokedAt := plain.flush loaded.revokedAt changed.revokedAt stored.revokedAt
      lastUsedAt := plain.flush loaded.lastUsedAt changed.lastUsedAt stored.lastUsedAt }
  | batchJobs, loaded, changed, stored => {
      id := stored.id
      userId := idColumn.flush loaded.userId changed.userId stored.userId
      projectId := idColumn.flush loaded.projectId changed.projectId stored.projectId
      apiKeyId := idColumn.flush loaded.apiKeyId changed.apiKeyId stored.apiKeyId
      model := (varchar 255).flush loaded.model changed.model stored.model
      status := plain.flush loaded.status changed.status stored.status
      errorCode := (varchar 128).nullable.flush loaded.errorCode changed.errorCode stored.errorCode
      errorMessage := (varchar 1024).nullable.flush loaded.errorMessage changed.errorMessage stored.errorMessage
      requestCount := integer.flush loaded.requestCount changed.requestCount stored.requestCount
      completedCount := integer.flush loaded.completedCount changed.completedCount stored.completedCount
      failedCount := integer.flush loaded.failedCount changed.failedCount stored.failedCount
      metadataJson := jsonColumn.nullable.flush loaded.metadataJson changed.metadataJson stored.metadataJson
      createdAt := plain.flush loaded.createdAt changed.createdAt stored.createdAt
      updatedAt := plain.flush loaded.updatedAt changed.updatedAt stored.updatedAt }
  | requestAuditRecords, loaded, changed, stored => {
      id := stored.id
      requestId := (varchar 80).flush loaded.requestId changed.requestId stored.requestId
      userId := idColumn.flush loaded.userId changed.userId stored.userId
      projectId := idColumn.flush loaded.projectId changed.projectId stored.projectId
      apiKeyId := idColumn.flush loaded.apiKeyId changed.apiKeyId stored.apiKeyId
      model := (varchar 255).flush loaded.model changed.model stored.model
      status := plain.flush loaded.status changed.status stored.status
      promptTokens := integer.nullable.flush loaded.promptTokens changed.promptTokens stored.promptTokens
      completionTokens :=
        integer.nullable.flush loaded.completionTokens changed.completionTokens stored.completionTokens
      totalTokens := integer.nullable.flush loaded.totalTokens changed.totalTokens stored.totalTokens
      latencyMs := integer.nullable.flush loaded.latencyMs changed.latencyMs stored.latencyMs
      errorCode := (varchar 128).nullable.flush loaded.errorCode changed.errorCode stored.errorCode
      promptHash := (varchar 64).nullable.flush loaded.promptHash changed.promptHash stored.promptHash
      completedAt := plain.flush loaded.completedAt changed.completedAt stored.completedAt }

end Columns

theorem DbTable.key_kept (t : DbTable) (row : t.Row) : t.key (t.kept row) = t.key row := by
  cases t <;> rfl

theorem DbTable.key_flush (t : DbTable) (loaded changed stored : t.Row) :
    t.key (t.flush loaded changed stored) = t.key stored := by
  cases t <;> rfl

/-- What the repositories ask of a session, of the clock and of the source of randomness. A `flush`
stands together with the `refresh` that follows it. -/
inductive DbOp where
  | get (t : DbTable) (id : String)
  | getByHash (keyHash : String)
  | listByStatus (status : JobStatus) (limit : Int)
  | add (t : DbTable) (row : t.Row)
  | flush (t : DbTable) (loaded changed : t.Row)
  | utcNow
  | utcNowIso
  | uuid4
  | tokenUrlsafe

abbrev DbOp.Res : DbOp → Type
  | get t _ => Option t.Row
  | getByHash _ => Option ApiKey
  | listByStatus _ _ => List BatchJob
  | add t _ => t.Row
  | flush t _ _ => t.Row
  | utcNow => DateTime
  | utcNowIso => String
  | uuid4 => String
  | tokenUrlsafe => String

abbrev DbProgram := Program DbOp DbOp.Res PyExc

def dbCall (op : DbOp) : DbProgram op.Res := Program.perform op

namespace BatchJobRepository

def create (userId projectId apiKeyId model : String) (inputPayload : JsonObject) :
    DbProgram BatchJob := do
  let id ← dbCall .uuid4
  let createdAt ← dbCall .utcNow
  let updatedAt ← dbCall .utcNow
  dbCall (.add .batchJobs {
    id, userId, projectId, apiKeyId, model
    status := .queued
    errorCode := none
    errorMessage := none
    requestCount := 1
    completedCount := 0
    failedCount := 0
    metadataJson := some [("input_payload", .obj inputPayload)]
    createdAt, updatedAt })

def get (jobId : String) : DbProgram (Option BatchJob) := dbCall (.get .batchJobs jobId)

def listByStatus (status : JobStatus) (limit : Int) : DbProgram (List BatchJob) :=
  dbCall (.listByStatus status limit)

/-- The row that `update_status` flushes. -/
def withStatus (job : BatchJob) (status : JobStatus) (updatedAt : DateTime) : BatchJob :=
  { job with status := status, updatedAt := updatedAt }

def updateStatus (job : BatchJob) (status : JobStatus) : DbProgram BatchJob := do
  let updatedAt ← dbCall .utcNow
  dbCall (.flush .batchJobs job (withStatus job status updatedAt))

/-- The row that `mark_succeeded` flushes. -/
def withSuccess (job : BatchJob) (result usage : JsonObject) (completedAt : String)
    (updatedAt : DateTime) : BatchJob :=
  let metadata := job.metadataJson.getD []
  let metadata := JsonObject.set metadata "result_payload" (.obj result)
  let metadata := JsonObject.set metadata "usage" (.obj usage)
  let metadata := JsonObject.set metadata "completed_at" (.str completedAt)
  { job with
    metadataJson := some metadata
    status := .succeeded
    completedCount := 1
    failedCount := 0
    errorCode := none
    errorMessage := none
    updatedAt := updatedAt }

def markSucceeded (job : BatchJob) (result usage : JsonObject) : DbProgram BatchJob := do
  let completedAt ← dbCall .utcNowIso
  let updatedAt ← dbCall .utcNow
  dbCall (.flush .batchJobs job (withSuccess job result usage completedAt updatedAt))

/-- The row that `mark_failed` flushes. -/
def withFailure (job : BatchJob) (errorCode : Option String) (errorMessage completedAt : String)
    (updatedAt : DateTime) : BatchJob :=
  let metadata := job.metadataJson.getD []
  let metadata := JsonObject.set metadata "completed_at" (.str completedAt)
  { job with
    metadataJson := some metadata
    status := .failed
    errorCode := errorCode
    errorMessage := some (String.ofList (errorMessage.toList.take 1024))
    failedCount := 1
    updatedAt := updatedAt }

def markFailed (job : BatchJob) (errorCode : Option String) (errorMessage : String) :
    DbProgram BatchJob := do
  let completedAt ← dbCall .utcNowIso
  let updatedAt ← dbCall .utcNow
  dbCall (.flush .batchJobs job (withFailure job errorCode errorMessage completedAt updatedAt))

end BatchJobRepository

namespace RequestAuditRepository

def create (record : RequestAuditRecord) : DbProgram RequestAuditRecord :=
  dbCall (.add .requestAuditRecords record)

def get (recordId : String) : DbProgram (Option RequestAuditRecord) :=
  dbCall (.get .requestAuditRecords recordId)

/-- The row that `finalize` flushes. -/
def withFinal (record : RequestAuditRecord) (final : AuditFinal) (completedAt : DateTime) :
    RequestAuditRecord :=
  { record with
    status := final.status
    promptTokens := final.promptTokens
    completionTokens := final.completionTokens
    totalTokens := final.totalTokens
    latencyMs := final.latencyMs
    errorCode := final.errorCode
    completedAt := some completedAt }

def finalize (final : AuditFinal) : DbProgram Unit := do
  match ← get final.recordId with
  | none => pure ()
  | some record => do
      let completedAt ← dbCall .utcNow
      let _ ← dbCall (.flush .requestAuditRecords record (withFinal record final completedAt))
      pure ()

end RequestAuditRepository

namespace ApiKeyRepository

def getByHash (keyHash : String) : DbProgram (Option ApiKey) := dbCall (.getByHash keyHash)

def create (userId projectId name keyHash keyPrefix : String) (allowedModels : Option (List String))
    (expiresAt : Option DateTime) : DbProgram ApiKey := do
  let id ← dbCall .uuid4
  dbCall (.add .apiKeys {
    id, userId, projectId, name, keyHash, keyPrefix, allowedModels, expiresAt
    revokedAt := none
    lastUsedAt := none })

def markUsed (apiKey : ApiKey) : DbProgram Unit := do
  let lastUsedAt ← dbCall .utcNow
  let _ ← dbCall (.flush .apiKeys apiKey { apiKey with lastUsedAt := some lastUsedAt })
  pure ()

end ApiKeyRepository

/-- Another row holds the value of a unique column. -/
def DbTable.clashes : (t : DbTable) → KeyedTable t.Row t.key → t.Row → Bool
  | users, _, _ => false
  | projects, _, _ => false
  | apiKeys, table, row => table.rows.any fun other => other.keyHash = row.keyHash
  | batchJobs, _, _ => false
  | requestAuditRecords, table, row => table.rows.any fun other => other.requestId = row.requestId

/-- The rows that the foreign keys of a row refer to are there. -/
def Db.hasOwners (db : Db) (userId projectId : String) : Bool :=
  ((db .users).find userId).isSome && ((db .projects).find projectId).isSome

def Db.hasCaller (db : Db) (userId projectId apiKeyId : String) : Bool :=
  db.hasOwners userId projectId && ((db .apiKeys).find apiKeyId).isSome

def DbTable.refers : (t : DbTable) → Db → t.Row → Bool
  | users, _, _ => true
  | projects, _, _ => true
  | apiKeys, db, row => db.hasOwners row.userId row.projectId
  | batchJobs, db, row => db.hasCaller row.userId row.projectId row.apiKeyId
  | requestAuditRecords, db, row => db.hasCaller row.userId row.projectId row.apiKeyId

/-- An INSERT of the row would violate the primary key, a unique column or a foreign key. -/
def DbTable.conflicts (t : DbTable) (db : Db) (row : t.Row) : Bool :=
  ((db t).find (t.key row)).isSome || t.clashes (db t) row || !t.refers db row

theorem DbTable.find_of_conflicts {t : DbTable} {db : Db} {row : t.Row}
    (h : t.conflicts db row = false) : (db t).find (t.key row) = none := by
  simp only [DbTable.conflicts, Bool.or_eq_false_iff] at h
  simpa using h.1.1

/-- The update of a row that has been read writes something new. -/
def DbTable.Updates (t : DbTable) (loaded changed : t.Row) : Prop :=
  t.accepts (some loaded) changed = true ∧ t.flush loaded changed loaded ≠ loaded

/-- The row can be inserted: its columns take their values, and what they keep violates no constraint. -/
def DbTable.Inserts (t : DbTable) (db : Db) (row : t.Row) : Prop :=
  t.accepts none row = true ∧ t.conflicts db (t.kept row) = false

instance (t : DbTable) (db : Db) (row : t.Row) : Decidable (t.Inserts db row) := inferInstanceAs (Decidable (_ ∧ _))

def dataError : PyExc := .exception (some (some "dbapi")) "DBAPIError"

def integrityError : PyExc := .exception (some (some "gkpj")) "IntegrityError"

def staleDataError : PyExc := .exception none "StaleDataError"

def limitError : PyExc := .exception (some (some "dbapi")) "LIMIT must not be negative"

/-- `SELECT ... WHERE status = :status ORDER BY created_at LIMIT :limit`. -/
def selectByStatus (table : KeyedTable BatchJob BatchJob.id) (status : JobStatus) (limit : Int) :
    Except PyExc (List BatchJob) :=
  if limit < 0 then .error limitError
  else
    let matching := table.rows.filter fun job => job.status = status
    .ok ((matching.mergeSort fun a b => a.createdAt ≤ b.createdAt).take limit.toNat)

/-- What a call on the rows answers and leaves; `none` for the clock and the random draws. -/
def DbOp.onRows : (op : DbOp) → Db → Option (Except PyExc op.Res × Db)
  | .get t id, db => some (.ok ((db t).find id), db)
  | .getByHash keyHash, db =>
      some (.ok ((db .apiKeys).rows.find? fun apiKey => apiKey.keyHash = keyHash), db)
  | .listByStatus status limit, db => some (selectByStatus (db .batchJobs) status limit, db)
  | .add t row, db =>
      if t.accepts none row then
        if t.conflicts db (t.kept row) then some (.error integrityError, db)
        else some (.ok (t.kept row), Function.update db t ((db t).insert (t.kept row)))
      else some (.error dataError, db)
  | .flush t loaded changed, db =>
      match (db t).find (t.key loaded) with
      | none => some (.error staleDataError, db)
      | some stored =>
          if t.accepts (some loaded) changed then
            let row := t.flush loaded changed stored
            some (.ok row, Function.update db t ((db t).replace row))
          else some (.error dataError, db)
  | .utcNow, _ => none
  | .utcNowIso, _ => none
  | .uuid4, _ => none
  | .tokenUrlsafe, _ => none

/-- A row that can be inserted is. -/
theorem DbTable.Inserts.onRows {t : DbTable} {db : Db} {row : t.Row} (h : t.Inserts db row) :
    (DbOp.add t row).onRows db = some (.ok (t.kept row), Function.update db t ((db t).insert (t.kept row))) := by
  obtain ⟨haccepts, hconflicts⟩ := h
  simp only [DbOp.onRows]
  rw [if_pos haccepts, if_neg (by rw [hconflicts]; exact Bool.false_ne_true)]

/-- A row that cannot be inserted is refused. -/
theorem DbTable.onRows_of_not_inserts {t : DbTable} {db : Db} {row : t.Row} (h : ¬ t.Inserts db row) :
    ∃ exc, (DbOp.add t row).onRows db = some (.error exc, db) := by
  simp only [DbOp.onRows]
  by_cases haccepts : t.accepts none row = true
  · have hconflicts : t.conflicts db (t.kept row) = true := by
      by_contra hnone
      exact h ⟨haccepts, by simpa using hnone⟩
    rw [if_pos haccepts, if_pos hconflicts]
    exact ⟨integrityError, rfl⟩
  · rw [if_neg haccepts]
    exact ⟨dataError, rfl⟩

/-- The row of a new job. -/
def createdRow (id : String) (authContext : AuthContext) (payload : JsonObject) (model : String)
    (createdAt updatedAt : DateTime) : BatchJob where
  id := id
  userId := authContext.userId
  projectId := authContext.projectId
  apiKeyId := authContext.apiKeyId
  model := model
  status := .queued
  errorCode := none
  errorMessage := none
  requestCount := 1
  completedCount := 0
  failedCount := 0
  metadataJson := some [("input_payload", .obj payload)]
  createdAt := createdAt
  updatedAt := updatedAt

/-- The caller, as the columns of a job keep its ids. -/
def keptCaller (authContext : AuthContext) : AuthContext :=
  { authContext with
    userId := idColumn.keeps authContext.userId
    projectId := idColumn.keeps authContext.projectId
    apiKeyId := idColumn.keeps authContext.apiKeyId }

def keptModel (model : String) : String := (TableColumn.varchar 255).keeps model

theorem kept_createdRow (id : String) (authContext : AuthContext) (payload : JsonObject) (model : String)
    (createdAt updatedAt : DateTime) :
    DbTable.kept .batchJobs (createdRow id authContext payload model createdAt updatedAt) =
      createdRow id (keptCaller authContext) payload (keptModel model) createdAt updatedAt := rfl

section Flushes

open TableColumn BatchJobRepository

variable (job : BatchJob)

/-- A change of the status is always taken. -/
theorem accepts_withStatus (status : JobStatus) (updatedAt : DateTime) :
    DbTable.accepts .batchJobs (some job) (withStatus job status updatedAt) = true := by
  simp [DbTable.accepts, BatchJob.accepts, withStatus]

theorem flush_withStatus (status : JobStatus) (updatedAt : DateTime) :
    DbTable.flush .batchJobs job (withStatus job status updatedAt) job = withStatus job status updatedAt := by
  simp [DbTable.flush, withStatus]

@[simp] theorem flush_metadata (loaded changed : Option JsonObject) :
    jsonColumn.nullable.flush loaded changed loaded = changed := by
  refine flush_self _ ?_
  cases changed with
  | none => rfl
  | some metadata => rfl

/-- The counts that a mark writes are taken. -/
theorem accepts_count (loaded : Option Int) : integer.accepts loaded 1 = true ∧ integer.accepts loaded 0 = true :=
  ⟨accepts_of_takes _ rfl _, accepts_of_takes _ rfl _⟩

/-- A success is taken when its metadata are. -/
theorem accepts_withSuccess (result usage : JsonObject) (completedAt : String) (updatedAt : DateTime) :
    DbTable.accepts .batchJobs (some job) (withSuccess job result usage completedAt updatedAt) =
      jsonColumn.nullable.accepts (some job.metadataJson)
        (withSuccess job result usage completedAt updatedAt).metadataJson := by
  have hnone : ∀ (n : Nat) loaded, (varchar n).nullable.accepts loaded none = true :=
    fun _ _ => accepts_of_takes _ rfl _
  simp [DbTable.accepts, BatchJob.accepts, withSuccess, accepts_count, hnone]

theorem flush_withSuccess (result usage : JsonObject) (completedAt : String) (updatedAt : DateTime) :
    DbTable.flush .batchJobs job (withSuccess job result usage completedAt updatedAt) job =
      withSuccess job result usage completedAt updatedAt := by
  have hnone : ∀ (n : Nat) loaded, (varchar n).nullable.flush loaded none loaded = none :=
    fun _ _ => flush_self _ rfl
  simp [DbTable.flush, withSuccess, hnone]

/-- The code that a row keeps when it is marked with `errorCode` after `loaded`. -/
def keptCode (loaded errorCode : Option String) : Option String :=
  (varchar 128).nullable.flush loaded errorCode loaded

/-- A failure is taken when its code, its message and its metadata are. -/
theorem accepts_withFailure (errorCode : Option String) (errorMessage completedAt : String) (updatedAt : DateTime) :
    DbTable.accepts .batchJobs (some job) (withFailure job errorCode errorMessage completedAt updatedAt) =
      ((varchar 128).nullable.accepts (some job.errorCode) errorCode &&
        (varchar 1024).nullable.accepts (some job.errorMessage)
          (some (String.ofList (errorMessage.toList.take 1024))) &&
        jsonColumn.nullable.accepts (some job.metadataJson)
          (withFailure job errorCode errorMessage completedAt updatedAt).metadataJson) := by
  simp [DbTable.accepts, BatchJob.accepts, withFailure, accepts_count]

/-- The message has been cut to the length of its column. -/
theorem flush_withFailure (errorCode : Option String) (errorMessage completedAt : String) (updatedAt : DateTime) :
    DbTable.flush .batchJobs job (withFailure job errorCode errorMessage completedAt updatedAt) job =
      withFailure job (keptCode job.errorCode errorCode) errorMessage completedAt updatedAt := by
  have hmessage : ∀ loaded, (varchar 1024).nullable.flush loaded
      (some (String.ofList (errorMessage.toList.take 1024))) loaded =
        some (String.ofList (errorMessage.toList.take 1024)) := by
    intro loaded
    refine flush_self _ ?_
    rw [keeps_nullable_some, keeps_varchar_take]
  simp [DbTable.flush, withFailure, keptCode, hmessage]

end Flushes

/-- `audit_record_from_start`, under the id that the model draws. -/
def auditRecordFromStart (id : String) (start : AuditStart) : RequestAuditRecord where
  id := id
  requestId := start.requestId
  userId := start.userId
  projectId := start.projectId
  apiKeyId := start.apiKeyId
  model := start.model
  status := .accepted
  promptTokens := none
  completionTokens := none
  totalTokens := none
  latencyMs := none
  errorCode := none
  promptHash := start.promptHash
  completedAt := none

/-- `_record_from_model`. -/
def recordFromModel (job : BatchJob) : BatchJobRecord :=
  let metadata := job.metadataJson.getD []
  { id := job.id
    userId := job.userId
    projectId := job.projectId
    apiKeyId := job.apiKeyId
    model := job.model
    status := job.status
    inputPayload := match JsonObject.get metadata "input_payload" with
      | some (.obj payload) => payload
      | _ => []
    resultPayload := match JsonObject.get metadata "result_payload" with
      | some (.obj payload) => some payload
      | _ => none
    errorCode := job.errorCode
    errorMessage := job.errorMessage
    requestCount := job.requestCount
    completedCount := job.completedCount
    failedCount := job.failedCount
    metadata := metadata }

/-- A user with a project and a key, and no request yet. -/
def tenantDb : Db
  | .users => ⟨[⟨"user"⟩], List.nodup_singleton _⟩
  | .projects => ⟨[⟨"project"⟩], List.nodup_singleton _⟩
  | .apiKeys => ⟨[⟨"key", "user", "project", "name", "hash", "an_key", none, none, none, none⟩], List.nodup_singleton _⟩
  | .batchJobs => .empty
  | .requestAuditRecords => .empty

end GpuInference
