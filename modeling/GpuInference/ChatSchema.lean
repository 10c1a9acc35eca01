import GpuInference.PythonBase
import Mathlib.Algebra.Order.Ring.Rat

/-!
The request schemas. A validated request carries the bounds that validation has checked, so that an
invalid one cannot be built. Validation converts loosely typed values the way pydantic does; how it
reads a value of another type is a parameter, what it does with a value of the declared type is not.
Extra fields are kept by both schemas and pass through every dump.
-/

namespace GpuInference

/-- `ChatMessage.role`. -/
inductive Role where
  | system
  | user
  | assistant
  | tool
  deriving DecidableEq, Repr

namespace Role

def name : Role → String
  | system => "system"
  | user => "user"
  | assistant => "assistant"
  | tool => "tool"

def ofName : String → Option Role
  | "system" => some system
  | "user" => some user
  | "assistant" => some assistant
  | "tool" => some tool
  | _ => none

end Role

structure ChatMessage where
  role : Role
  content : String
  deriving DecidableEq, Repr

/-- `stop: str | list[str]`. -/
inductive Stop where
  | text (value : String)
  | texts (values : List String)
  deriving DecidableEq, Repr

/-- How pydantic reads a value for a field of type `int`, `float` or `bool`; `none` is a validation
error. A value of the declared type is itself. `errorText` is the text of the error for an input. -/
structure LaxCoercions where
  toInt : Json → Option Int
  toFloat : Json → Option PyFloat
  toBool : Json → Option Bool
  errorText : JsonObject → String
  toInt_int : ∀ n, toInt (.int n) = some n
  toFloat_float : ∀ x, toFloat (.float x) = some x
  toBool_bool : ∀ b, toBool (.bool b) = some b

/-- The coercions that accept the declared type only. -/
def LaxCoercions.strict : LaxCoercions where
  toInt
    | .int n => some n
    | _ => none
  toFloat
    | .float x => some x
    | _ => none
  toBool
    | .bool b => some b
    | _ => none
  errorText _ := "validation error for ChatCompletionRequest"
  toInt_int _ := rfl
  toFloat_float _ := rfl
  toBool_bool _ := rfl

namespace PyFloat

/-- `x >= bound`, false for a NaN. -/
def geRat : PyFloat → Rat → Bool
  | finite mantissa exponent, bound => decide (bound ≤ (mantissa : Rat) * (2 : Rat) ^ exponent)
  | inf negative, _ => !negative
  | nan, _ => false

/-- `x > bound`, false for a NaN. -/
def gtRat : PyFloat → Rat → Bool
  | finite mantissa exponent, bound => decide (bound < (mantissa : Rat) * (2 : Rat) ^ exponent)
  | inf negative, _ => !negative
  | nan, _ => false

/-- `x <= bound`, false for a NaN. -/
def leRat : PyFloat → Rat → Bool
  | finite mantissa exponent, bound => decide ((mantissa : Rat) * (2 : Rat) ^ exponent ≤ bound)
  | inf negative, _ => negative
  | nan, _ => false

end PyFloat

namespace ChatMessage

def dump (message : ChatMessage) : Json :=
  .obj [("role", .str message.role.name), ("content", .str message.content)]

end ChatMessage

def Stop.dump : Stop → Json
  | text value => .str value
  | texts values => .arr (values.map .str)

/-- A field of a dump with `exclude_none`. -/
def field (name : String) : Option Json → JsonObject
  | none => []
  | some value => [(name, value)]

/-- The extra fields of a dump with `exclude_none`. -/
def dumpExtra (extra : JsonObject) : JsonObject := extra.filter fun entry => entry.2 ≠ .null

/-- The declared fields of `ChatCompletionRequest`. -/
def chatFieldNames : List String :=
  ["model", "messages", "stream", "max_tokens", "temperature", "top_p", "stop", "user", "metadata"]

structure ChatCompletionRequest where
  model : String
  messages : List ChatMessage
  stream : Bool
  maxTokens : Option Int
  temperature : Option PyFloat
  topP : Option PyFloat
  stop : Option Stop
  user : Option String
  metadata : Option JsonObject
  extra : JsonObject
  model_not_empty : strip model ≠ ""
  messages_not_empty : messages ≠ []
  maxTokens_pos : ∀ n, maxTokens = some n → 0 < n
  temperature_bound : ∀ x, temperature = some x → x.geRat 0 = true
  topP_bound : ∀ x, topP = some x → x.gtRat 0 = true ∧ x.leRat 1 = true
  extra_fresh : ∀ name ∈ JsonObject.keys extra, name ∉ chatFieldNames

namespace ChatCompletionRequest

/-- `model_dump(exclude_none=True)`. -/
def modelDump (request : ChatCompletionRequest) : JsonObject :=
  [("model", .str request.model), ("messages", .arr (request.messages.map ChatMessage.dump)),
    ("stream", .bool request.stream)] ++
  field "max_tokens" (request.maxTokens.map .int) ++
  field "temperature" (request.temperature.map .float) ++
  field "top_p" (request.topP.map .float) ++
  field "stop" (request.stop.map Stop.dump) ++
  field "user" (request.user.map .str) ++
  field "metadata" (request.metadata.map .obj) ++
  dumpExtra request.extra

end ChatCompletionRequest

def batchFieldNames : List String :=
  ["model", "messages", "max_tokens", "temperature", "top_p", "stop", "metadata"]

structure BatchJobCreateRequest where
  model : String
  messages : List ChatMessage
  maxTokens : Option Int
  temperature : Option PyFloat
  topP : Option PyFloat
  stop : Option Stop
  metadata : Option JsonObject
  extra : JsonObject
  extra_fresh : ∀ name ∈ JsonObject.keys extra, name ∉ batchFieldNames

/-- `model_dump(exclude_none=True)`. -/
def BatchJobCreateRequest.modelDump (request : BatchJobCreateRequest) : JsonObject :=
  [("model", .str request.model), ("messages", .arr (request.messages.map ChatMessage.dump))] ++
  field "max_tokens" (request.maxTokens.map .int) ++
  field "temperature" (request.temperature.map .float) ++
  field "top_p" (request.topP.map .float) ++
  field "stop" (request.stop.map Stop.dump) ++
  field "metadata" (request.metadata.map .obj) ++
  dumpExtra request.extra

def validationError (text : String) : PyExc := .exception none text

/-- A `str` field. -/
def readStr : Json → Option String
  | .str value => some value
  | _ => none

/-- A `ChatMessage`; other fields of the object are ignored. -/
def readMessage : Json → Option ChatMessage
  | .obj fields => do
      let role ← Role.ofName (← readStr (← JsonObject.get fields "role"))
      let content ← readStr (← JsonObject.get fields "content")
      return { role, content }
  | _ => none

/-- `list[ChatMessage]`. -/
def readMessages : Json → Option (List ChatMessage)
  | .arr items => items.mapM readMessage
  | _ => none

/-- `str | list[str]`. -/
def readStop : Json → Option Stop
  | .str value => some (.text value)
  | .arr items => (items.mapM readStr).map .texts
  | _ => none

/-- `dict[str, Any]`. -/
def readObject : Json → Option JsonObject
  | .obj fields => some fields
  | _ => none

/-- An optional field: absent and null are `None`, anything else must be read. The outer `none` is a
validation error. -/
def readOptional {α : Type} (read : Json → Option α) (fields : JsonObject) (name : String) :
    Option (Option α) :=
  match JsonObject.get fields name with
  | none => some none
  | some .null => some none
  | some value => (read value).map some

/-- The fields a schema does not declare. -/
def extraFields (names : List String) (fields : JsonObject) : JsonObject :=
  fields.filter fun entry => entry.1 ∉ names

theorem extraFields_fresh (names : List String) (fields : JsonObject) :
    ∀ name ∈ JsonObject.keys (extraFields names fields), name ∉ names := by
  intro name hname
  obtain ⟨entry, hentry, rfl⟩ := List.mem_map.mp hname
  simpa using (List.mem_filter.mp hentry).2

/-- `ChatCompletionRequest.model_validate`. -/
def ChatCompletionRequest.modelValidate (lax : LaxCoercions) (fields : JsonObject) :
    Except PyExc ChatCompletionRequest :=
  let read : Option ChatCompletionRequest := do
    let model ← readStr (← JsonObject.get fields "model")
    let messages ← readMessages (← JsonObject.get fields "messages")
    let stream ← match JsonObject.get fields "stream" with
      | none => some false
      | some value => lax.toBool value
    let maxTokens ← readOptional lax.toInt fields "max_tokens"
    let temperature ← readOptional lax.toFloat fields "temperature"
    let topP ← readOptional lax.toFloat fields "top_p"
    let stop ← readOptional readStop fields "stop"
    let user ← readOptional readStr fields "user"
    let metadata ← readOptional readObject fields "metadata"
    if h : strip model ≠ "" ∧ messages ≠ [] ∧ (∀ n ∈ maxTokens, 0 < n) ∧
        (∀ x ∈ temperature, x.geRat 0 = true) ∧
        (∀ x ∈ topP, x.gtRat 0 = true ∧ x.leRat 1 = true) then
      return {
        model, messages, stream, maxTokens, temperature, topP, stop, user, metadata
        extra := extraFields chatFieldNames fields
        model_not_empty := h.1
        messages_not_empty := h.2.1
        maxTokens_pos := fun n hn => h.2.2.1 n hn
        temperature_bound := fun x hx => h.2.2.2.1 x hx
        topP_bound := fun x hx => h.2.2.2.2 x hx
        extra_fresh := extraFields_fresh chatFieldNames fields }
    else none
  match read with
  | some request => .ok request
  | none => .error (validationError (lax.errorText fields))

/-- A request that does not validate raises a `ValidationError`. -/
theorem modelValidate_raises {lax : LaxCoercions} {fields : JsonObject} {exc : PyExc}
    (h : ChatCompletionRequest.modelValidate lax fields = .error exc) : exc.isException = true := by
  unfold ChatCompletionRequest.modelValidate at h
  extract_lets read at h
  clear_value read
  cases read with
  | some request => cases h
  | none =>
      cases h
      rfl

/-- `normalize_chat_completion_payload`. -/
def normalizeChatCompletionPayload (request : ChatCompletionRequest) : JsonObject := request.modelDump

/-- `{**payload, "stream": True}` in `VLLMClient.stream_chat_completion`. -/
def streamPayload (payload : JsonObject) : JsonObject := JsonObject.set payload "stream" (.bool true)

@[simp] theorem get_field (name key : String) (value : Option Json) :
    JsonObject.get (field name value) key = if name = key then value else none := by
  cases value with
  | none => simp [field]
  | some value => rw [field, JsonObject.get_cons, JsonObject.get_nil]

/-- An extra field other than null reaches the dump, a null one does not. -/
theorem get_dumpExtra_none (extra : JsonObject) (key : String) (h : JsonObject.get extra key = none) :
    JsonObject.get (dumpExtra extra) key = none := by
  induction extra with
  | nil => rfl
  | cons entry extra ih =>
      obtain ⟨name, value⟩ := entry
      rw [JsonObject.get_cons] at h
      split at h
      · cases h
      · rename_i hne
        rw [dumpExtra, List.filter_cons]
        split
        · rw [JsonObject.get_cons, if_neg hne]
          exact ih h
        · exact ih h

end GpuInference
