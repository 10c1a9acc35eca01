import GpuInference.AuthKeys

/-!
Requests and responses. A request enters with its path, its `Authorization` header and the id that
the request id middleware has given it. A response is its status, the content that is rendered and
the headers set by the code.
-/

namespace GpuInference

structure HttpRequest where
  path : String
  authorization : Option String
  requestId : String
  deriving DecidableEq, Repr

structure JSONResponse where
  statusCode : Int
  content : JsonObject
  xErrorCode : Option String
  xRequestId : Option String
  deriving DecidableEq

/-- What `except AppError` catches. -/
def PyExc.isAppError : PyExc → Bool
  | .app _ => true
  | _ => false

def optionalStr : Option String → Json
  | some value => .str value
  | none => .null

/-- `openai_error_object`. -/
def openaiErrorObject (error : AppError) (requestId : String) : JsonObject :=
  [("error", .obj [("message", .str error.message), ("type", .str error.type),
    ("param", optionalStr error.param), ("code", .str error.code), ("request_id", .str requestId)])]

/-- `_app_error_response` of the middleware, and `app_error_handler`. -/
def appErrorResponse (request : HttpRequest) (error : AppError) : JSONResponse where
  statusCode := error.statusCode
  content := openaiErrorObject error request.requestId
  xErrorCode := some error.code
  xRequestId := some request.requestId

def authorizationPrefix : String := "Bearer "

def protectedPaths : List String :=
  ["/v1/chat/completions", "/v1/completions", "/v1/embeddings", "/v1/batch"]

/-- `_is_protected_path`. -/
def isProtectedPath (path : String) : Bool :=
  protectedPaths.any fun protectedPath =>
    path = protectedPath || startsWith path (protectedPath ++ "/")

/-- `_extract_bearer_token`. -/
def extractBearerToken (request : HttpRequest) : Option String :=
  match request.authorization with
  | none => none
  | some authorization =>
      if startsWith authorization authorizationPrefix then
        let rawKey := strip (String.ofList (authorization.toList.drop authorizationPrefix.length))
        if rawKey = "" then none else some rawKey
      else none

end GpuInference
