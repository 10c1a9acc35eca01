import GpuInference.PythonBase

/-!
API keys. A key row belongs to one user and one project; an accepted key gives the request its
`AuthContext`. A raw key is only ever stored as a hash, and the hash function is a parameter.
-/

namespace GpuInference

/-- A point in time, in microseconds. -/
abbrev DateTime := Int

structure AuthContext where
  apiKeyId : String
  userId : String
  projectId : String
  allowedModels : Option (List String)
  deriving DecidableEq, Repr

/-- A row of `api_keys`. -/
structure ApiKey where
  id : String
  userId : String
  projectId : String
  name : String
  keyHash : String
  keyPrefix : String
  allowedModels : Option (List String)
  expiresAt : Option DateTime
  revokedAt : Option DateTime
  lastUsedAt : Option DateTime
  deriving DecidableEq, Repr

/-- The errors of the auth service differ in message and code only. -/
def unauthorized (message code : String) : AppError where
  message := message
  code := code
  statusCode := 401
  type := "invalid_request_error"
  param := none

def missingApiKeyError : AppError := unauthorized "Missing API key" "missing_api_key"

def invalidApiKeyError : AppError := unauthorized "Invalid API key" "invalid_api_key"

def expiredApiKeyError : AppError := unauthorized "API key has expired" "expired_api_key"

def revokedApiKeyError : AppError := unauthorized "API key has been revoked" "revoked_api_key"

def modelNotAllowed : AppError where
  message := "API key is not allowed to access the requested model"
  code := "model_not_allowed"
  statusCode := 403
  type := "invalid_request_error"
  param := some "model"

/-- `auth_context_from_api_key`. -/
def authContextFromApiKey (apiKey : ApiKey) : AuthContext where
  apiKeyId := apiKey.id
  userId := apiKey.userId
  projectId := apiKey.projectId
  allowedModels := apiKey.allowedModels

/-- `validate_api_key_state`, at the time `now`. -/
def validateApiKeyState (apiKey : ApiKey) (now : DateTime) : Except PyExc Unit :=
  if apiKey.revokedAt.isSome then .error (.app revokedApiKeyError)
  else match apiKey.expiresAt with
    | some expiresAt => if expiresAt ≤ now then .error (.app expiredApiKeyError) else .ok ()
    | none => .ok ()

/-- `ensure_model_allowed`. -/
def ensureModelAllowed (authContext : AuthContext) (model : String) : Except PyExc Unit :=
  match authContext.allowedModels with
  | none => .ok ()
  | some models => if model ∈ models then .ok () else .error (.app modelNotAllowed)

/-- `prefix[:-1] if prefix.endswith("_") else prefix`. -/
def normalizedPrefix (keyPrefix : String) : String :=
  let chars := keyPrefix.toList
  if chars.getLast? = some '_' then String.ofList chars.dropLast else keyPrefix

/-- `generate_api_key`, with the token that `token_urlsafe` draws. -/
def generateApiKey (keyPrefix token : String) : String := normalizedPrefix keyPrefix ++ "_" ++ token

/-- `key_debug_prefix`. -/
def keyDebugPrefix (rawKey : String) : String := String.ofList (rawKey.toList.take 16)

/-- `StaticApiKeyAuthService`. -/
structure StaticApiKeyAuthService where
  contexts : List (String × AuthContext)
  revokedKeys : List String

/-- `StaticApiKeyAuthService.authenticate`. -/
def StaticApiKeyAuthService.authenticate (self : StaticApiKeyAuthService) (rawKey : String) :
    Except PyExc AuthContext :=
  if rawKey ∈ self.revokedKeys then .error (.app revokedApiKeyError)
  else match self.contexts.lookup rawKey with
    | some context => .ok context
    | none => .error (.app invalidApiKeyError)

end GpuInference
