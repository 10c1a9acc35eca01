import GpuInference.JsonText
import Mathlib.Data.List.Induction

/-!
The log of the service. Every record is a JSON object on a line of its own, whatever its texts are: no message, no traceback
and no request id can end a line or begin another record, and the log can be read back.
-/

open JsonText

namespace GpuInference

/-- What the formatter takes of a `LogRecord`: the time as `isoformat` writes it, the message with its arguments, the
traceback as `formatException` writes it. -/
structure LogRecord where
  timestamp : String
  levelname : String
  name : String
  message : String
  excInfo : Option String
  deriving DecidableEq

/-- A record, with the id of the request that it has been logged in. -/
structure LogEntry where
  requestId : Option String
  record : LogRecord
  deriving DecidableEq

namespace JsonFormatter

/-- A field that is there when it has a value. -/
def optional (key : String) : Option String → List Field
  | some value => [(key.toList, scalarText value)]
  | none => []

def payload (entry : LogEntry) : List Field :=
  [("timestamp".toList, scalarText entry.record.timestamp), ("level".toList, scalarText entry.record.levelname),
    ("logger".toList, scalarText entry.record.name), ("message".toList, scalarText entry.record.message)] ++
  optional "request_id" entry.requestId ++ optional "exc_info" entry.record.excInfo

/-- `JsonFormatter.format`. -/
def format (entry : LogEntry) : List Char := writeObject 0 (payload entry)

end JsonFormatter

/-- `StreamHandler.emit`. -/
def emit (stream : List Char) (entry : LogEntry) : List Char := stream ++ (JsonFormatter.format entry ++ ['\n'])

def logged (entries : List LogEntry) : List Char := entries.foldl emit []

def readIfPresent (fields : List Field) (key : String) : Option (Option String) :=
  match valueOf fields key with
  | none => some none
  | some value => (readString value).map some

def readEntry (fields : List Field) : Option LogEntry := do
  let timestamp ← readString (← valueOf fields "timestamp")
  let levelname ← readString (← valueOf fields "level")
  let name ← readString (← valueOf fields "logger")
  let message ← readString (← valueOf fields "message")
  let requestId ← readIfPresent fields "request_id"
  let excInfo ← readIfPresent fields "exc_info"
  return ⟨requestId, timestamp, levelname, name, message, excInfo⟩

def readLog (text : List Char) : Option (List LogEntry) := do
  let objects ← readLines text
  objects.mapM readEntry

theorem readIfPresent_eq {fields : List Field} {key : String} {value : Option String}
    (h : valueOf fields key = value.map scalarText) : readIfPresent fields key = some value := by
  rw [readIfPresent, h]
  cases value with
  | none => rfl
  | some value => exact congrArg (Option.map some) (readString_scalarText value)

theorem readEntry_payload (entry : LogEntry) : readEntry (JsonFormatter.payload entry) = some entry := by
  obtain ⟨requestId, timestamp, levelname, name, message, excInfo⟩ := entry
  have hrequest : valueOf (JsonFormatter.payload ⟨requestId, timestamp, levelname, name, message, excInfo⟩) "request_id" =
      requestId.map scalarText := by
    cases requestId with
    | none =>
        cases excInfo with
        | none => rfl
        | some text => rfl
    | some id => rfl
  have htext : valueOf (JsonFormatter.payload ⟨requestId, timestamp, levelname, name, message, excInfo⟩) "exc_info" =
      excInfo.map scalarText := by
    cases requestId with
    | none =>
        cases excInfo with
        | none => rfl
        | some text => rfl
    | some id =>
        cases excInfo with
        | none => rfl
        | some text => rfl
  have hvalues : ["timestamp", "level", "logger", "message"].map
      (valueOf (JsonFormatter.payload ⟨requestId, timestamp, levelname, name, message, excInfo⟩)) =
      [some (scalarText timestamp), some (scalarText levelname), some (scalarText name), some (scalarText message)] := rfl
  simp only [List.map_cons, List.map_nil, List.cons.injEq, and_true] at hvalues
  obtain ⟨htimestamp, hlevel, hname, hmessage⟩ := hvalues
  simp only [readEntry, htimestamp, hlevel, hname, hmessage, readIfPresent_eq hrequest, readIfPresent_eq htext,
    readString_scalarText, Option.bind_eq_bind, Option.bind_some, Option.pure_def]

theorem logged_eq (entries : List LogEntry) : logged entries = writeLines 0 (entries.map JsonFormatter.payload) := by
  induction entries using List.reverseRecOn with
  | nil => rfl
  | append_singleton entries entry ih =>
      have hlast : logged (entries ++ [entry]) = logged entries ++ (JsonFormatter.format entry ++ ['\n']) := by
        rw [logged, List.foldl_append]
        rfl
      rw [hlast, ih]
      simp [writeLines, JsonFormatter.format]

/-- **The log can be read back**: it has one line for each record, and the lines give the records, with their texts and
the ids of their requests, in the order in which they have been logged. -/
theorem log_read_back (entries : List LogEntry) :
    readLog (logged entries) = some entries ∧ (logged entries).count '\n' = entries.length := by
  rw [logged_eq]
  constructor
  · rw [readLog, readLines_writeLines]
    have hread := mapM_map (g := JsonFormatter.payload) (k := id) fun entry (_ : entry ∈ entries) => readEntry_payload entry
    rwa [List.map_id] at hread
  · induction entries with
    | nil => rfl
    | cons entry entries ih =>
        have hline := List.count_eq_zero.mpr (newline_not_mem_writeObject 0 (JsonFormatter.payload entry))
        rw [List.map_cons, writeLines, List.map_cons, Delimited.join_cons, List.count_append, hline, List.count_cons_self,
          Nat.zero_add, List.length_cons]
        exact congrArg Nat.succ ih

end GpuInference
