import GpuInference.EffectGenerator
import GpuInference.PostgresRows

/-!
The services over Postgres. Each of their calls is a loop over `session_scope`, an async generator
that commits when it is resumed. The body of each loop is given by itself; every exit of a body is a
`return` or an exception.
-/

open Effect

namespace GpuInference

/-- The calls of a session, and its opening and closing. -/
inductive SessionOp where
  | enter
  | db (op : DbOp)
  | commit
  | rollback
  | close

abbrev SessionOp.Res : SessionOp → Type
  | enter => Unit
  | db op => op.Res
  | commit => Unit
  | rollback => Unit
  | close => Unit

abbrev SessionProgram := Program SessionOp SessionOp.Res PyExc

def sessionAwait (op : SessionOp) :
    Program (GenOp SessionOp) (GenOp.Res SessionOp.Res) PyExc op.Res :=
  Program.perform (GenOp.await op)

/-- `session_scope`. -/
def sessionScope : Program (GenOp SessionOp) (GenOp.Res SessionOp.Res) PyExc Unit := do
  sessionAwait .enter
  Program.tryFinally
    (Program.tryExcept PyExc.isException (do
      Program.perform GenOp.yield
      sessionAwait .commit) fun exc => do
        sessionAwait .rollback
        Program.raise exc)
    (sessionAwait .close)

/-- The calls of a loop body, as calls of its session. -/
def inSession {α : Type} (body : DbProgram α) : SessionProgram α :=
  body.mapOp SessionOp.db fun _ value => value

/-- `async for session in session_scope(...): body`, every exit of the body being a `return` or an
exception, followed by `after`. -/
def withSession {α : Type} (body : DbProgram α) (after : SessionProgram α) : SessionProgram α :=
  Generator.asyncFor PyExc.generatorExit ((inSession body).bind fun value => .ret (some value)) after
    sessionScope

def runtimeError (text : String) : PyExc := .exception none text

namespace PostgresBatchJobStore

def createBody (authContext : AuthContext) (payload : JsonObject) (model : String) :
    DbProgram BatchJobRecord := do
  let job ← BatchJobRepository.create authContext.userId authContext.projectId authContext.apiKeyId
    model payload
  pure (recordFromModel job)

def create (authContext : AuthContext) (payload : JsonObject) (model : String) :
    SessionProgram BatchJobRecord :=
  withSession (createBody authContext payload model)
    (.raise (runtimeError "batch job creation failed"))

def getBody (jobId : String) : DbProgram (Option BatchJobRecord) := do
  let job ← BatchJobRepository.get jobId
  pure (job.map recordFromModel)

def get (jobId : String) : SessionProgram (Option BatchJobRecord) :=
  withSession (getBody jobId) (pure none)

def transitionBody (jobId : String) (target : JobStatus) : DbProgram (Option BatchJobRecord) := do
  match ← BatchJobRepository.get jobId with
  | none => pure none
  | some job =>
      if canTransition job.status target then do
        let job ← BatchJobRepository.updateStatus job target
        pure (some (recordFromModel job))
      else pure none

def transition (jobId : String) (target : JobStatus) : SessionProgram (Option BatchJobRecord) :=
  withSession (transitionBody jobId target) (pure none)

def markSucceededBody (jobId : String) (result usage : JsonObject) :
    DbProgram (Option BatchJobRecord) := do
  match ← BatchJobRepository.get jobId with
  | none => pure none
  | some job =>
      if job.status = .cancelled then pure none
      else do
        let job ← BatchJobRepository.markSucceeded job result usage
        pure (some (recordFromModel job))

def markSucceeded (jobId : String) (result usage : JsonObject) :
    SessionProgram (Option BatchJobRecord) :=
  withSession (markSucceededBody jobId result usage) (pure none)

def markFailedBody (jobId : String) (errorCode : Option String) (errorMessage : String) :
    DbProgram (Option BatchJobRecord) := do
  match ← BatchJobRepository.get jobId with
  | none => pure none
  | some job =>
      if job.status = .cancelled then pure none
      else do
        let job ← BatchJobRepository.markFailed job errorCode errorMessage
        pure (some (recordFromModel job))

def markFailed (jobId : String) (errorCode : Option String) (errorMessage : String) :
    SessionProgram (Option BatchJobRecord) :=
  withSession (markFailedBody jobId errorCode errorMessage) (pure none)

def listRecoverableBody (limit : Int) : DbProgram (List BatchJobRecord) := do
  let rows ← BatchJobRepository.listByStatus .queued limit
  pure (rows.map recordFromModel)

def listRecoverable (limit : Int) : SessionProgram (List BatchJobRecord) :=
  withSession (listRecoverableBody limit) (pure [])

end PostgresBatchJobStore

namespace RequestAuditService

def startBody (audit : AuditStart) : DbProgram String := do
  let id ← dbCall .uuid4
  let record ← RequestAuditRepository.create (auditRecordFromStart id audit)
  pure record.id

def start (audit : AuditStart) : SessionProgram String :=
  withSession (startBody audit) (.raise (runtimeError "request audit start failed"))

def finalize (final : AuditFinal) : SessionProgram Unit :=
  withSession (RequestAuditRepository.finalize final) (pure ())

end RequestAuditService

/-- `CreatedApiKey`. -/
structure CreatedApiKey where
  rawKey : String
  apiKeyId : String
  keyPrefix : String
  deriving DecidableEq, Repr

/-- `hash_api_key`. -/
def hashApiKey (sha256 : Sha256) (rawKey : String) : String := sha256 rawKey.toUTF8.toList

structure ApiKeyService where
  sha256 : Sha256
  keyPrefix : String

namespace ApiKeyService

def authenticateBody (keyHash : String) : DbProgram AuthContext := do
  match ← ApiKeyRepository.getByHash keyHash with
  | none => Program.raise (.app invalidApiKeyError)
  | some apiKey => do
      let now ← dbCall .utcNow
      Program.lift (validateApiKeyState apiKey now)
      let context := authContextFromApiKey apiKey
      ApiKeyRepository.markUsed apiKey
      pure context

def authenticate (self : ApiKeyService) (rawKey : String) : SessionProgram AuthContext :=
  withSession (authenticateBody (hashApiKey self.sha256 rawKey)) (.raise (.app invalidApiKeyError))

def createApiKeyBody (self : ApiKeyService) (rawKey userId projectId name : String)
    (allowedModels : Option (List String)) (expiresAt : Option DateTime) : DbProgram CreatedApiKey := do
  let apiKey ← ApiKeyRepository.create userId projectId name (hashApiKey self.sha256 rawKey)
    (keyDebugPrefix rawKey) allowedModels expiresAt
  pure { rawKey, apiKeyId := apiKey.id, keyPrefix := apiKey.keyPrefix }

def createApiKey (self : ApiKeyService) (userId projectId name : String)
    (allowedModels : Option (List String)) (expiresAt : Option DateTime) :
    SessionProgram CreatedApiKey := do
  let token ← inSession (dbCall .tokenUrlsafe)
  let rawKey := generateApiKey self.keyPrefix token
  withSession (self.createApiKeyBody rawKey userId projectId name allowedModels expiresAt)
    (.raise (runtimeError "API key creation failed"))

end ApiKeyService

end GpuInference
