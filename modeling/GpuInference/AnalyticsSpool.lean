import GpuInference.AnalyticsCollector
import GpuInference.DateText
import GpuInference.JsonText
import Mathlib.Data.List.Sort

/-!
The spool of the critical events that find the queue full. Every event is a line of JSON at the end of a file, written by a
task of its own. Whatever the collector does, and whichever writes fail, the file can be read at any moment, as long as a
write that fails has written nothing; what is read are the events of the file at the start and those whose writes have
returned.
-/

open JsonText

namespace GpuInference

/-- The microseconds from the beginning of the year 1 to the epoch. -/
def epochMicros : Int := 62135596800000000

/-- The time is one that a `datetime` can be. -/
def Dated (event : AnalyticsEvent) : Prop :=
  match event with
  | .usage eventTime _ => 0 ≤ eventTime + epochMicros
  | .inference eventTime _ => 0 ≤ eventTime + epochMicros

instance (event : AnalyticsEvent) : Decidable (Dated event) :=
  match event with
  | .usage _ _ => inferInstanceAs (Decidable (0 ≤ _))
  | .inference _ _ => inferInstanceAs (Decidable (0 ≤ _))

/-- `default=str`, for a time in UTC. -/
def strTime (eventTime : Int) : Scalar := .text (DateText.write (eventTime + epochMicros).toNat)

def scalarText? : Option String → Scalar
  | some value => scalarText value
  | none => .null

def scalarInt? : Option Int → Scalar
  | some value => .int value
  | none => .null

/-- `asdict`. -/
def AnalyticsEvent.asdict : AnalyticsEvent → List Field
  | .usage eventTime event =>
      [("event_time".toList, strTime eventTime), ("request_id".toList, scalarText event.requestId),
        ("user_id".toList, scalarText event.userId), ("project_id".toList, scalarText event.projectId),
        ("api_key_id".toList, scalarText event.apiKeyId), ("model".toList, scalarText event.model),
        ("status".toList, scalarText event.status.name), ("prompt_tokens".toList, .int event.promptTokens),
        ("completion_tokens".toList, .int event.completionTokens), ("total_tokens".toList, .int event.totalTokens),
        ("latency_ms".toList, scalarInt? event.latencyMs), ("error_code".toList, scalarText? event.errorCode),
        ("critical".toList, .bool event.critical)]
  | .inference eventTime event =>
      [("event_time".toList, strTime eventTime), ("request_id".toList, scalarText event.requestId),
        ("event_type".toList, scalarText event.eventType), ("user_id".toList, scalarText event.userId),
        ("project_id".toList, scalarText event.projectId), ("api_key_id".toList, scalarText event.apiKeyId),
        ("model".toList, scalarText event.model), ("status".toList, scalarText event.status),
        ("latency_ms".toList, scalarInt? event.latencyMs), ("error_code".toList, scalarText? event.errorCode),
        ("critical".toList, .bool event.critical)]

/-- The order of two keys. -/
def keyLe : List Char → List Char → Bool
  | [], _ => true
  | _ :: _, [] => false
  | c :: left, d :: right => if c = d then keyLe left right else decide (c.toNat < d.toNat)

/-- `sort_keys=True`. -/
def sortKeys (fields : List Field) : List Field := fields.insertionSort fun left right => keyLe left.1 right.1 = true

/-- How `write` ends: it returns, or the file system raises when it has taken so many characters of the line. It has taken
none when the file cannot be opened. -/
inductive SpoolWrite where
  | returns
  | raises (taken : Nat)
  deriving DecidableEq

/-- `LocalAnalyticsSpool`, by the text of its file. -/
structure LocalAnalyticsSpool where
  text : List Char

namespace LocalAnalyticsSpool

/-- `json.dumps(asdict(event), default=str, sort_keys=True)`. -/
def line (event : AnalyticsEvent) : List Char := writeObject 1 (sortKeys event.asdict)

/-- A line is put at the end of the file; of a write that raises the file keeps what it has taken. -/
def write (self : LocalAnalyticsSpool) (event : AnalyticsEvent) : SpoolWrite → LocalAnalyticsSpool
  | .returns => ⟨self.text ++ (line event ++ ['\n'])⟩
  | .raises taken => ⟨self.text ++ (line event ++ ['\n']).take taken⟩

/-- `_safe_spool`: an exception of the file system is logged, and the event is lost. -/
def safeSpool (self : LocalAnalyticsSpool) (event : AnalyticsEvent) (outcome : SpoolWrite) : LocalAnalyticsSpool :=
  self.write event outcome

end LocalAnalyticsSpool

def readTime : Scalar → Option Int
  | .text value => (DateText.read value).map fun point : Nat => (point : Int) - epochMicros
  | _ => none

def readString? : Scalar → Option (Option String)
  | .null => some none
  | .text value => some (some (String.ofList value))
  | _ => none

def readNumber : Scalar → Option Int
  | .int value => some value
  | _ => none

def readNumber? : Scalar → Option (Option Int)
  | .null => some none
  | .int value => some (some value)
  | _ => none

def readFlag : Scalar → Option Bool
  | .bool value => some value
  | _ => none

def readStatus (value : Scalar) : Option UsageStatus := do
  let name ← readString value
  [UsageStatus.accepted, .completed, .failed, .clientDisconnected].find? fun status => status.name = name

/-- An event; only an `InferenceEvent` has a type. -/
def readEvent (fields : List Field) : Option AnalyticsEvent := do
  let eventTime ← readTime (← valueOf fields "event_time")
  let requestId ← readString (← valueOf fields "request_id")
  let userId ← readString (← valueOf fields "user_id")
  let projectId ← readString (← valueOf fields "project_id")
  let apiKeyId ← readString (← valueOf fields "api_key_id")
  let model ← readString (← valueOf fields "model")
  let latencyMs ← readNumber? (← valueOf fields "latency_ms")
  let errorCode ← readString? (← valueOf fields "error_code")
  let critical ← readFlag (← valueOf fields "critical")
  match valueOf fields "event_type" with
  | some eventType =>
      let eventType ← readString eventType
      let status ← readString (← valueOf fields "status")
      return .inference eventTime
        { requestId, eventType, userId, projectId, apiKeyId, model, status, latencyMs, errorCode, critical }
  | none =>
      let status ← readStatus (← valueOf fields "status")
      let promptTokens ← readNumber (← valueOf fields "prompt_tokens")
      let completionTokens ← readNumber (← valueOf fields "completion_tokens")
      let totalTokens ← readNumber (← valueOf fields "total_tokens")
      return .usage eventTime
        { requestId, userId, projectId, apiKeyId, model, status, promptTokens, completionTokens, totalTokens,
          latencyMs, errorCode, critical }

def LocalAnalyticsSpool.events (self : LocalAnalyticsSpool) : Option (List AnalyticsEvent) := do
  let objects ← readLines self.text
  objects.mapM readEvent

theorem readTime_strTime {eventTime : Int} (h : 0 ≤ eventTime + epochMicros) :
    readTime (strTime eventTime) = some eventTime := by
  have htime : ((eventTime + epochMicros).toNat : Int) - epochMicros = eventTime := by omega
  rw [strTime, readTime, DateText.read_write, Option.map_some, htime]

theorem readString?_scalarText? (value : Option String) : readString? (scalarText? value) = some value := by
  cases value with
  | none => rfl
  | some value => rw [scalarText?, scalarText, readString?, String.ofList_toList]

theorem readNumber?_scalarInt? (value : Option Int) : readNumber? (scalarInt? value) = some value := by
  cases value with
  | none => rfl
  | some value => rfl

theorem readStatus_name (status : UsageStatus) : readStatus (scalarText status.name) = some status := by
  rw [readStatus, readString_scalarText]
  cases status with
  | accepted => rfl
  | completed => rfl
  | failed => rfl
  | clientDisconnected => rfl

theorem sortKeys_usage (eventTime : Int) (event : UsageEvent) :
    sortKeys (AnalyticsEvent.usage eventTime event).asdict =
      [("api_key_id".toList, scalarText event.apiKeyId), ("completion_tokens".toList, .int event.completionTokens),
        ("critical".toList, .bool event.critical), ("error_code".toList, scalarText? event.errorCode),
        ("event_time".toList, strTime eventTime), ("latency_ms".toList, scalarInt? event.latencyMs),
        ("model".toList, scalarText event.model), ("project_id".toList, scalarText event.projectId),
        ("prompt_tokens".toList, .int event.promptTokens), ("request_id".toList, scalarText event.requestId),
        ("status".toList, scalarText event.status.name), ("total_tokens".toList, .int event.totalTokens),
        ("user_id".toList, scalarText event.userId)] := rfl

theorem sortKeys_inference (eventTime : Int) (event : InferenceEvent) :
    sortKeys (AnalyticsEvent.inference eventTime event).asdict =
      [("api_key_id".toList, scalarText event.apiKeyId), ("critical".toList, .bool event.critical),
        ("error_code".toList, scalarText? event.errorCode), ("event_time".toList, strTime eventTime),
        ("event_type".toList, scalarText event.eventType), ("latency_ms".toList, scalarInt? event.latencyMs),
        ("model".toList, scalarText event.model), ("project_id".toList, scalarText event.projectId),
        ("request_id".toList, scalarText event.requestId), ("status".toList, scalarText event.status),
        ("user_id".toList, scalarText event.userId)] := rfl

/-- The keys of both kinds of events, with their values. -/
theorem values_usage (eventTime : Int) (event : UsageEvent) :
    ["event_time", "request_id", "user_id", "project_id", "api_key_id", "model", "latency_ms", "error_code", "critical",
      "event_type", "status", "prompt_tokens", "completion_tokens", "total_tokens"].map
        (valueOf (sortKeys (AnalyticsEvent.usage eventTime event).asdict)) =
    [some (strTime eventTime), some (scalarText event.requestId), some (scalarText event.userId),
      some (scalarText event.projectId), some (scalarText event.apiKeyId), some (scalarText event.model),
      some (scalarInt? event.latencyMs), some (scalarText? event.errorCode), some (.bool event.critical), none,
      some (scalarText event.status.name), some (.int event.promptTokens), some (.int event.completionTokens),
      some (.int event.totalTokens)] := by
  rw [sortKeys_usage]
  rfl

theorem values_inference (eventTime : Int) (event : InferenceEvent) :
    ["event_time", "request_id", "user_id", "project_id", "api_key_id", "model", "latency_ms", "error_code", "critical",
      "event_type", "status"].map (valueOf (sortKeys (AnalyticsEvent.inference eventTime event).asdict)) =
    [some (strTime eventTime), some (scalarText event.requestId), some (scalarText event.userId),
      some (scalarText event.projectId), some (scalarText event.apiKeyId), some (scalarText event.model),
      some (scalarInt? event.latencyMs), some (scalarText? event.errorCode), some (.bool event.critical),
      some (scalarText event.eventType), some (scalarText event.status)] := by
  rw [sortKeys_inference]
  rfl

/-- **An event is read back.** -/
theorem readEvent_asdict {event : AnalyticsEvent} (h : Dated event) : readEvent (sortKeys event.asdict) = some event := by
  cases event with
  | usage eventTime event =>
      have hvalues := values_usage eventTime event
      simp only [List.map_cons, List.map_nil, List.cons.injEq, and_true] at hvalues
      obtain ⟨htime, hrequest, huser, hproject, hkey, hmodel, hlatency, herror, hcritical, htype, hstatus, hprompt,
        hcompletion, htotal⟩ := hvalues
      simp only [readEvent, htime, hrequest, huser, hproject, hkey, hmodel, hlatency, herror, hcritical, htype, hstatus,
        hprompt, hcompletion, htotal, Option.bind_eq_bind, Option.bind_some, readTime_strTime h, readString_scalarText,
        readString?_scalarText?, readNumber?_scalarInt?, readStatus_name, readNumber, readFlag, Option.pure_def]
  | inference eventTime event =>
      have hvalues := values_inference eventTime event
      simp only [List.map_cons, List.map_nil, List.cons.injEq, and_true] at hvalues
      obtain ⟨htime, hrequest, huser, hproject, hkey, hmodel, hlatency, herror, hcritical, htype, hstatus⟩ := hvalues
      simp only [readEvent, htime, hrequest, huser, hproject, hkey, hmodel, hlatency, herror, hcritical, htype, hstatus,
        Option.bind_eq_bind, Option.bind_some, readTime_strTime h, readString_scalarText, readString?_scalarText?,
        readNumber?_scalarInt?, readFlag, Option.pure_def]

/-- The collector with the file of its spool. The tasks of `_safe_spool` run in the order in which they have been created;
`attempts` has those that have run, each with how its write has ended. -/
structure SpoolingCollector (maxSize : Int) where
  collector : AnalyticsCollector maxSize
  attempts : List (EventObject × SpoolWrite)
  spool : LocalAnalyticsSpool

inductive SpoolStep where
  | collect (object : EventObject)
  | drainBatch (batchSize : Int)
  | requeueFront (objects : List EventObject)
  | safeSpool (outcome : SpoolWrite)

/-- The events that a step hands to the collector. -/
def SpoolStep.objects : SpoolStep → List EventObject
  | collect object => [object]
  | requeueFront objects => objects
  | _ => []

/-- What a step of the collector spools is behind what has been spooled before. -/
theorem AnalyticsCollector.spooled_requeue {maxSize : Int} (self : AnalyticsCollector maxSize) (object : EventObject) :
    ∃ more, (∀ other ∈ more, other = object) ∧ (self.requeue object).spooled = self.spooled ++ more := by
  unfold requeue
  split
  · exact ⟨[], List.forall_mem_nil _, (List.append_nil _).symm⟩
  · split
    · exact ⟨[object], fun _ h => List.mem_singleton.mp h, rfl⟩
    · exact ⟨[], List.forall_mem_nil _, (List.append_nil _).symm⟩

theorem AnalyticsCollector.spooled_collect {maxSize : Int} (self : AnalyticsCollector maxSize) (object : EventObject) :
    ∃ more, (∀ other ∈ more, other = object) ∧ (self.collect object).2.spooled = self.spooled ++ more := by
  unfold collect
  split
  · exact ⟨[], List.forall_mem_nil _, (List.append_nil _).symm⟩
  · split
    · exact ⟨[object], fun _ h => List.mem_singleton.mp h, rfl⟩
    · exact ⟨[], List.forall_mem_nil _, (List.append_nil _).symm⟩

theorem AnalyticsCollector.spooled_requeueFront {maxSize : Int} (self : AnalyticsCollector maxSize)
    (objects : List EventObject) :
    ∃ more, (∀ other ∈ more, other ∈ objects) ∧ (self.requeueFront objects).spooled = self.spooled ++ more := by
  unfold requeueFront
  induction objects generalizing self with
  | nil => exact ⟨[], List.forall_mem_nil _, (List.append_nil _).symm⟩
  | cons object objects ih =>
      obtain ⟨first, hfirst, hspooled⟩ := self.spooled_requeue object
      obtain ⟨rest, hrest, hspooled'⟩ := ih (self.requeue object)
      refine ⟨first ++ rest, ?_, ?_⟩
      · intro other hother
        rcases List.mem_append.mp hother with hother | hother
        · exact List.mem_cons.mpr (.inl (hfirst other hother))
        · exact List.mem_cons_of_mem _ (hrest other hother)
      · rw [List.foldl_cons, hspooled', hspooled, List.append_assoc]

namespace SpoolingCollector

variable {maxSize : Int}

/-- A collector whose file has the events of earlier ones. -/
def start (earlier : List AnalyticsEvent) : SpoolingCollector maxSize :=
  ⟨.start, [], ⟨writeLines 1 (earlier.map fun event => sortKeys event.asdict)⟩⟩

/-- The events whose tasks have not run yet. -/
def pending (self : SpoolingCollector maxSize) : List EventObject := self.collector.spooled.drop self.attempts.length

def step (self : SpoolingCollector maxSize) : SpoolStep → SpoolingCollector maxSize
  | .collect object => { self with collector := (self.collector.collect object).2 }
  | .drainBatch batchSize => { self with collector := (self.collector.drainBatch batchSize).2 }
  | .requeueFront objects => { self with collector := self.collector.requeueFront objects }
  | .safeSpool outcome =>
      match self.pending with
      | [] => self
      | object :: _ =>
          { self with
            attempts := self.attempts ++ [(object, outcome)]
            spool := self.spool.safeSpool object.event outcome }

def run (earlier : List AnalyticsEvent) (steps : List SpoolStep) : SpoolingCollector maxSize :=
  steps.foldl step (start earlier)

/-- The events whose writes have returned. -/
def returned (self : SpoolingCollector maxSize) : List EventObject :=
  (self.attempts.filter fun attempt => attempt.2 = .returns).map Prod.fst

/-- If the step writes, the write returns or leaves the file as it is. -/
def Whole : SpoolStep → Prop
  | .safeSpool (.raises taken) => taken = 0
  | _ => True

/-- The tasks run in order, and the file has a line for every write that has returned, behind those of the start. -/
structure Kept (earlier : List AnalyticsEvent) (state : SpoolingCollector maxSize) : Prop where
  order : state.attempts.map Prod.fst <+: state.collector.spooled
  sorted : state.collector.Sorted
  dated : ∀ object ∈ state.collector.spooled, Dated object.event
  text : state.spool.text =
    writeLines 1 ((earlier ++ state.returned.map EventObject.event).map fun event => sortKeys event.asdict)

theorem kept_start (earlier : List AnalyticsEvent) : Kept earlier (start earlier : SpoolingCollector maxSize) := by
  refine ⟨List.nil_prefix, AnalyticsCollector.sorted_start, ?_, ?_⟩
  · intro object hobject
    cases hobject
  · exact congrArg (fun events => writeLines 1 (events.map fun event => sortKeys event.asdict))
      (List.append_nil earlier).symm

variable {earlier : List AnalyticsEvent} {self : SpoolingCollector maxSize}

/-- A step of the collector leaves the file as it is. -/
theorem Kept.collected (h : self.Kept earlier) {collector : AnalyticsCollector maxSize} {more : List EventObject}
    (hspooled : collector.spooled = self.collector.spooled ++ more) (hsorted : collector.Sorted)
    (hdated : ∀ object ∈ more, Dated object.event) : Kept earlier { self with collector := collector } := by
  refine ⟨?_, hsorted, ?_, h.text⟩
  · rw [hspooled]
    exact h.order.trans (List.prefix_append _ _)
  · intro object hobject
    rw [hspooled] at hobject
    rcases List.mem_append.mp hobject with hobject | hobject
    · exact h.dated object hobject
    · exact hdated object hobject

/-- A task that runs writes the first event that waits, or loses it. -/
theorem Kept.spooled (h : self.Kept earlier) {object : EventObject} {rest : List EventObject}
    (hpending : self.pending = object :: rest) {outcome : SpoolWrite} (hwhole : Whole (.safeSpool outcome)) :
    Kept earlier { self with
      attempts := self.attempts ++ [(object, outcome)]
      spool := self.spool.safeSpool object.event outcome } := by
  obtain ⟨left, hleft⟩ := h.order
  have hrest : left = object :: rest := by
    have hdrop := congrArg (List.drop self.attempts.length) hleft
    rw [List.drop_left' (List.length_map _)] at hdrop
    exact hdrop.trans hpending
  refine ⟨?_, h.sorted, h.dated, ?_⟩
  · rw [List.map_append, ← hleft, hrest]
    exact ⟨rest, by simp⟩
  · cases outcome with
    | raises taken =>
        obtain rfl : taken = 0 := hwhole
        simpa [returned, LocalAnalyticsSpool.safeSpool, LocalAnalyticsSpool.write] using h.text
    | returns =>
        have hwrite : self.spool.text ++ (LocalAnalyticsSpool.line object.event ++ ['\n']) =
            writeLines 1 ((earlier ++ self.returned.map EventObject.event).map fun event => sortKeys event.asdict) ++
              writeLines 1 [sortKeys object.event.asdict] := by
          rw [h.text]
          simp [writeLines, LocalAnalyticsSpool.line]
        simpa [returned, LocalAnalyticsSpool.safeSpool, LocalAnalyticsSpool.write, writeLines] using hwrite

/-- **The step of the spool.** -/
theorem Kept.step (h : self.Kept earlier) (step : SpoolStep) (hdated : ∀ object ∈ step.objects, Dated object.event)
    (hwhole : Whole step) : (self.step step).Kept earlier := by
  cases step with
  | collect object =>
      obtain ⟨more, hmore, hspooled⟩ := self.collector.spooled_collect object
      refine h.collected hspooled ((AnalyticsCollector.takes_collect _ _).sorted h.sorted) ?_
      intro other hother
      rw [hmore other hother]
      exact hdated object List.mem_cons_self
  | drainBatch batchSize =>
      exact h.collected (List.append_nil _).symm (AnalyticsCollector.sorted_drainBatch h.sorted batchSize)
        (List.forall_mem_nil _)
  | requeueFront objects =>
      obtain ⟨more, hmore, hspooled⟩ := self.collector.spooled_requeueFront objects
      refine h.collected hspooled (AnalyticsCollector.sorted_requeueFront h.sorted objects) ?_
      exact fun other hother => hdated other (hmore other hother)
  | safeSpool outcome =>
      simp only [SpoolingCollector.step]
      split
      · exact h
      · rename_i object rest hpending
        exact h.spooled hpending hwhole

theorem kept_run (earlier : List AnalyticsEvent) (steps : List SpoolStep)
    (hdated : ∀ step ∈ steps, ∀ object ∈ step.objects, Dated object.event) (hwhole : ∀ step ∈ steps, Whole step) :
    (run earlier steps : SpoolingCollector maxSize).Kept earlier := by
  have hsteps : ∀ (self : SpoolingCollector maxSize), self.Kept earlier →
      (steps.foldl SpoolingCollector.step self).Kept earlier := by
    induction steps with
    | nil => exact fun self hself => hself
    | cons step steps ih =>
        rw [List.forall_mem_cons] at hdated hwhole
        exact fun self hself => ih hdated.2 hwhole.2 _ (hself.step step hdated.1 hwhole.1)
  exact hsteps (start earlier) (kept_start earlier)

/-- **The spool can be read back** at any moment of any run of the collector, if it has the lines of such events when the
run starts and no write of the run fails halfway: its file then has the events of the start and those whose writes have
returned, each exactly as it was, in the order in which they were spooled; these are all critical. -/
theorem spool_read_back (maxSize : Int) (earlier : List AnalyticsEvent) (steps : List SpoolStep)
    (hearlier : ∀ event ∈ earlier, Dated event) (hdated : ∀ step ∈ steps, ∀ object ∈ step.objects, Dated object.event)
    (hwhole : ∀ step ∈ steps, Whole step) :
    (run earlier steps : SpoolingCollector maxSize).spool.events =
        some (earlier ++ (run earlier steps : SpoolingCollector maxSize).returned.map EventObject.event) ∧
      (run earlier steps : SpoolingCollector maxSize).attempts.map Prod.fst <+:
        (run earlier steps : SpoolingCollector maxSize).collector.spooled ∧
      ∀ object ∈ (run earlier steps : SpoolingCollector maxSize).returned, object.event.critical = true := by
  have hkept : (run earlier steps : SpoolingCollector maxSize).Kept earlier := kept_run earlier steps hdated hwhole
  have hspooled : ∀ object ∈ (run earlier steps : SpoolingCollector maxSize).returned,
      object ∈ (run earlier steps : SpoolingCollector maxSize).collector.spooled := by
    intro object hobject
    obtain ⟨attempt, hattempt, rfl⟩ := List.mem_map.mp hobject
    exact hkept.order.subset (List.mem_map_of_mem (List.mem_filter.mp hattempt).1)
  refine ⟨?_, hkept.order, fun object hobject => hkept.sorted.spooled object (hspooled object hobject)⟩
  have hevents : ∀ event ∈ earlier ++ (run earlier steps : SpoolingCollector maxSize).returned.map EventObject.event,
      readEvent (sortKeys event.asdict) = some event := by
    intro event hevent
    rcases List.mem_append.mp hevent with hevent | hevent
    · exact readEvent_asdict (hearlier event hevent)
    · obtain ⟨object, hobject, rfl⟩ := List.mem_map.mp hevent
      exact readEvent_asdict (hkept.dated object (hspooled object hobject))
  rw [LocalAnalyticsSpool.events, hkept.text, readLines_writeLines]
  exact (mapM_map hevents).trans (congrArg some (List.map_id' _))

def spooledEvent : InferenceEvent :=
  ⟨"req", "started", "user", "project", "key", "model \"é😀\"\n", "ok", some (-1), none, true⟩

/-- The second and the third event find the queue full; the file cannot be opened for the second. -/
def spoolSteps : List SpoolStep :=
  [.collect ⟨0, .inference 0 spooledEvent⟩, .collect ⟨1, .inference 1780058096000789 spooledEvent⟩,
    .collect ⟨2, .inference 1780058096000790 spooledEvent⟩, .safeSpool (.raises 0), .safeSpool .returns]

theorem spool_read_back_third : (run [.inference 0 spooledEvent] spoolSteps : SpoolingCollector 1).spool.events =
    some [.inference 0 spooledEvent, .inference 1780058096000790 spooledEvent] := by
  refine (spool_read_back 1 [.inference 0 spooledEvent] spoolSteps ?_ ?_ ?_).1
  · decide
  · intro step hstep object hobject
    simp only [spoolSteps, List.mem_cons, List.not_mem_nil, or_false] at hstep
    rcases hstep with rfl | rfl | rfl | rfl | rfl
    · rw [List.mem_singleton.mp hobject]
      decide
    · rw [List.mem_singleton.mp hobject]
      decide
    · rw [List.mem_singleton.mp hobject]
      decide
    · cases hobject
    · cases hobject
  · intro step hstep
    simp only [spoolSteps, List.mem_cons, List.not_mem_nil, or_false] at hstep
    rcases hstep with rfl | rfl | rfl | rfl | rfl
    · trivial
    · trivial
    · trivial
    · rfl
    · trivial

end SpoolingCollector

end GpuInference
