import GpuInference.AuthKeys
import GpuInference.TokenAccounting

/-!
The audit life of a request: an audit record is started when the request is admitted and finalized
with the usage of the request; the usage event for analytics carries the same usage.
-/

namespace GpuInference

/-- `sha256(data).hexdigest()`. -/
abbrev Sha256 := List UInt8 → String

structure AuditStart where
  requestId : String
  userId : String
  projectId : String
  apiKeyId : String
  model : String
  promptHash : Option String
  deriving DecidableEq, Repr

structure AuditFinal where
  recordId : String
  status : UsageStatus
  promptTokens : Option Int
  completionTokens : Option Int
  totalTokens : Option Int
  latencyMs : Option Int
  errorCode : Option String
  deriving DecidableEq, Repr

/-- `UsageEvent`, without its time. -/
structure UsageEvent where
  requestId : String
  userId : String
  projectId : String
  apiKeyId : String
  model : String
  status : UsageStatus
  promptTokens : Int
  completionTokens : Int
  totalTokens : Int
  latencyMs : Option Int
  errorCode : Option String
  critical : Bool
  deriving DecidableEq, Repr

/-- `hash_prompt`. -/
def hashPrompt (sha256 : Sha256) (messages : List ChatMessage) : Option String :=
  if messages = [] then none
  else some (sha256 (messages.flatMap fun message =>
    message.role.name.toUTF8.toList ++ [0] ++ message.content.toUTF8.toList ++ [0]))

/-- `build_audit_start`. -/
def buildAuditStart (sha256 : Sha256) (requestId : String) (authContext : AuthContext)
    (model : String) (messages : List ChatMessage) : AuditStart where
  requestId := requestId
  userId := authContext.userId
  projectId := authContext.projectId
  apiKeyId := authContext.apiKeyId
  model := model
  promptHash := hashPrompt sha256 messages

/-- `build_audit_final`. -/
def buildAuditFinal (recordId : String) (usage : UsageRecord) (latencyMs : Option Int)
    (errorCode : Option String) : AuditFinal where
  recordId := recordId
  status := usage.status
  promptTokens := some usage.promptTokens
  completionTokens := some usage.completionTokens
  totalTokens := some usage.totalTokens
  latencyMs := latencyMs
  errorCode := errorCode

/-- The event that `_emit_usage_event` and `_emit_usage_analytics` collect. -/
def usageEvent (authContext : AuthContext) (requestId model : String) (usage : UsageRecord)
    (latencyMs : Option Int) (errorCode : Option String) : UsageEvent where
  requestId := requestId
  userId := authContext.userId
  projectId := authContext.projectId
  apiKeyId := authContext.apiKeyId
  model := model
  status := usage.status
  promptTokens := usage.promptTokens
  completionTokens := usage.completionTokens
  totalTokens := usage.totalTokens
  latencyMs := latencyMs
  errorCode := errorCode
  critical := false

end GpuInference
