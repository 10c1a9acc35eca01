import GpuInference.BoundedQueue
import GpuInference.RequestLifecycle
import Mathlib.Algebra.Order.Group.Multiset
import Mathlib.Tactic.Abel

/-!
Analytics events and the collector that queues them. An event that finds the queue full is spooled when
it is critical and dropped when it is not. Event objects are numbered, so that two events with the same
contents are told apart.
-/

namespace GpuInference

inductive AnalyticsTable where
  | usageEvents
  | inferenceEvents
  deriving DecidableEq, Repr

namespace AnalyticsTable

def name : AnalyticsTable → String
  | usageEvents => "usage_events"
  | inferenceEvents => "inference_events"

end AnalyticsTable

/-- `InferenceEvent`, without its time. -/
structure InferenceEvent where
  requestId : String
  eventType : String
  userId : String
  projectId : String
  apiKeyId : String
  model : String
  status : String
  latencyMs : Option Int
  errorCode : Option String
  critical : Bool
  deriving DecidableEq, Repr

/-- An event with its time, in microseconds. -/
inductive AnalyticsEvent where
  | usage (eventTime : Int) (event : UsageEvent)
  | inference (eventTime : Int) (event : InferenceEvent)
  deriving DecidableEq, Repr

/-- A value of a row. -/
inductive Cell where
  | time (value : Int)
  | text (value : String)
  | int (value : Int)
  | null
  deriving DecidableEq, Repr

namespace Cell

def ofInt? : Option Int → Cell
  | some value => int value
  | none => null

def ofText? : Option String → Cell
  | some value => text value
  | none => null

end Cell

/-- The text of a status, as the events carry it. -/
def UsageStatus.name : UsageStatus → String
  | .accepted => "accepted"
  | .completed => "completed"
  | .failed => "failed"
  | .clientDisconnected => "client_disconnected"

def usageEventColumns : List String :=
  ["event_time", "request_id", "user_id", "project_id", "api_key_id", "model", "status",
    "prompt_tokens", "completion_tokens", "total_tokens", "latency_ms", "error_code"]

def inferenceEventColumns : List String :=
  ["event_time", "request_id", "event_type", "user_id", "project_id", "api_key_id", "model", "status",
    "latency_ms", "error_code"]

def columnsForTable : AnalyticsTable → List String
  | .usageEvents => usageEventColumns
  | .inferenceEvents => inferenceEventColumns

namespace AnalyticsEvent

def critical : AnalyticsEvent → Bool
  | usage _ event => event.critical
  | inference _ event => event.critical

def table : AnalyticsEvent → AnalyticsTable
  | usage _ _ => .usageEvents
  | inference _ _ => .inferenceEvents

def toRow : AnalyticsEvent → List Cell
  | usage eventTime event =>
      [.time eventTime, .text event.requestId, .text event.userId, .text event.projectId,
        .text event.apiKeyId, .text event.model, .text event.status.name, .int event.promptTokens,
        .int event.completionTokens, .int event.totalTokens, .ofInt? event.latencyMs,
        .ofText? event.errorCode]
  | inference eventTime event =>
      [.time eventTime, .text event.requestId, .text event.eventType, .text event.userId,
        .text event.projectId, .text event.apiKeyId, .text event.model, .text event.status,
        .ofInt? event.latencyMs, .ofText? event.errorCode]

end AnalyticsEvent

/-- An event as an object: the number tells it from other events with the same contents. -/
structure EventObject where
  number : Nat
  event : AnalyticsEvent
  deriving DecidableEq, Repr

/-- A row, with the number of the event object it was built from. -/
structure Row where
  number : Nat
  cells : List Cell
  deriving DecidableEq, Repr

namespace EventObject

def table (object : EventObject) : AnalyticsTable := object.event.table

def toRow (object : EventObject) : Row := ⟨object.number, object.event.toRow⟩

end EventObject

/-- `AnalyticsCollector`. The events handed to `_safe_spool` and the events that were dropped, each with
the queue that refused it, are kept for the record. -/
structure AnalyticsCollector (maxSize : Int) where
  queue : BoundedQueue EventObject maxSize
  droppedNonCritical : Nat
  spooledCritical : Nat
  spooled : List EventObject
  dropped : List (EventObject × BoundedQueue EventObject maxSize)

namespace AnalyticsCollector

variable {maxSize : Int}

def start : AnalyticsCollector maxSize where
  queue := .empty
  droppedNonCritical := 0
  spooledCritical := 0
  spooled := []
  dropped := []

def drop (self : AnalyticsCollector maxSize) (object : EventObject) : AnalyticsCollector maxSize :=
  { self with
    droppedNonCritical := self.droppedNonCritical + 1
    dropped := self.dropped ++ [(object, self.queue)] }

def collect (self : AnalyticsCollector maxSize) (object : EventObject) :
    Bool × AnalyticsCollector maxSize :=
  match self.queue.put object with
  | some queue => (true, { self with queue := queue })
  | none =>
      if object.event.critical then
        (false, { self with
          spooledCritical := self.spooledCritical + 1
          spooled := self.spooled ++ [object] })
      else (false, self.drop object)

def drainBatch (self : AnalyticsCollector maxSize) (batchSize : Int) :
    List EventObject × AnalyticsCollector maxSize :=
  ((self.queue.drain batchSize.toNat).1, { self with queue := (self.queue.drain batchSize.toNat).2 })

/-- One turn of the loop of `requeue_front`: the event goes to the end of the queue. -/
def requeue (self : AnalyticsCollector maxSize) (object : EventObject) : AnalyticsCollector maxSize :=
  match self.queue.put object with
  | some queue => { self with queue := queue }
  | none =>
      -- unlike `collect`, this does not count the event in `spooled_critical`
      if object.event.critical then { self with spooled := self.spooled ++ [object] }
      else self.drop object

def requeueFront (self : AnalyticsCollector maxSize) (objects : List EventObject) :
    AnalyticsCollector maxSize :=
  objects.foldl requeue self

/-- The events the collector accounts for. -/
def objects (self : AnalyticsCollector maxSize) : Multiset EventObject :=
  ↑self.queue.items + ↑self.spooled + ↑(self.dropped.map Prod.fst)

/-- Only critical events are spooled, only non-critical ones are dropped, and only by a full queue. -/
structure Sorted (collector : AnalyticsCollector maxSize) : Prop where
  spooled : ∀ object ∈ collector.spooled, object.event.critical = true
  dropped : ∀ entry ∈ collector.dropped, entry.1.event.critical = false ∧ entry.2.full = true
  counted : collector.droppedNonCritical = collector.dropped.length

theorem sorted_start : (start : AnalyticsCollector maxSize).Sorted :=
  ⟨List.forall_mem_nil _, List.forall_mem_nil _, rfl⟩

/-- What taking an event does: it is in one more place, and it is sorted as it should be. -/
structure Takes (collector : AnalyticsCollector maxSize) (object : EventObject)
    (after : AnalyticsCollector maxSize) : Prop where
  objects : after.objects = collector.objects + {object}
  sorted : collector.Sorted → after.Sorted

theorem coe_append_singleton {α : Type} (items : List α) (item : α) :
    ((items ++ [item] : List α) : Multiset α) = ↑items + {item} := by
  rw [← Multiset.coe_add, Multiset.coe_singleton]

variable {self : AnalyticsCollector maxSize} {object : EventObject}

theorem takes_put {queue : BoundedQueue EventObject maxSize} (h : self.queue.put object = some queue) :
    self.Takes object { self with queue := queue } where
  objects := by
    simp only [AnalyticsCollector.objects, BoundedQueue.items_put h, coe_append_singleton]
    abel
  sorted hsorted := ⟨hsorted.spooled, hsorted.dropped, hsorted.counted⟩

theorem takes_spool (hcritical : object.event.critical = true) (spooledCritical : Nat) :
    self.Takes object
      { self with spooledCritical := spooledCritical, spooled := self.spooled ++ [object] } where
  objects := by
    simp only [AnalyticsCollector.objects, coe_append_singleton]
    abel
  sorted hsorted := by
    refine ⟨?_, hsorted.dropped, hsorted.counted⟩
    intro other hother
    rcases List.mem_append.mp hother with hold | hnew
    · exact hsorted.spooled other hold
    · rw [List.mem_singleton.mp hnew]
      exact hcritical

theorem takes_drop (hcritical : ¬ object.event.critical = true) (hfull : self.queue.put object = none) :
    self.Takes object (self.drop object) where
  objects := by
    simp only [AnalyticsCollector.objects, drop, List.map_append, List.map_singleton,
      coe_append_singleton]
    abel
  sorted hsorted := by
    refine ⟨hsorted.spooled, ?_, ?_⟩
    · intro entry hentry
      rcases List.mem_append.mp hentry with hold | hnew
      · exact hsorted.dropped entry hold
      · rw [List.mem_singleton.mp hnew]
        exact ⟨Bool.eq_false_of_not_eq_true hcritical, BoundedQueue.full_of_put hfull⟩
    · simp only [drop, List.length_append, List.length_singleton, hsorted.counted]

theorem takes_collect (self : AnalyticsCollector maxSize) (object : EventObject) :
    self.Takes object (self.collect object).2 := by
  unfold collect
  split
  · rename_i queue hput
    exact takes_put hput
  · rename_i hput
    split
    · rename_i hcritical
      exact takes_spool hcritical _
    · rename_i hcritical
      exact takes_drop hcritical hput

theorem takes_requeue (self : AnalyticsCollector maxSize) (object : EventObject) :
    self.Takes object (self.requeue object) := by
  unfold requeue
  split
  · rename_i queue hput
    exact takes_put hput
  · rename_i hput
    split
    · rename_i hcritical
      exact takes_spool hcritical _
    · rename_i hcritical
      exact takes_drop hcritical hput

theorem objects_requeueFront (self : AnalyticsCollector maxSize) (objects : List EventObject) :
    (self.requeueFront objects).objects = self.objects + ↑objects := by
  unfold requeueFront
  induction objects generalizing self with
  | nil => exact (add_zero _).symm
  | cons object objects ih =>
      rw [List.foldl_cons, ih, (takes_requeue self object).objects, add_assoc, ← Multiset.cons_coe,
        Multiset.singleton_add]

theorem sorted_requeueFront {self : AnalyticsCollector maxSize} (h : self.Sorted)
    (objects : List EventObject) : (self.requeueFront objects).Sorted := by
  unfold requeueFront
  induction objects generalizing self with
  | nil => exact h
  | cons object objects ih => exact ih ((takes_requeue self object).sorted h)

theorem objects_drainBatch (self : AnalyticsCollector maxSize) (batchSize : Int) :
    self.objects = (self.drainBatch batchSize).2.objects + ↑(self.drainBatch batchSize).1 := by
  obtain ⟨hdrained, hleft⟩ := BoundedQueue.items_drain batchSize.toNat self.queue
  have hqueue : (self.queue.items : Multiset EventObject) =
      ↑(self.queue.items.take batchSize.toNat) + ↑(self.queue.items.drop batchSize.toNat) := by
    rw [Multiset.coe_add, List.take_append_drop]
  simp only [objects, drainBatch]
  rw [hdrained, hleft, hqueue]
  abel

theorem sorted_drainBatch {self : AnalyticsCollector maxSize} (h : self.Sorted) (batchSize : Int) :
    (self.drainBatch batchSize).2.Sorted :=
  ⟨h.spooled, h.dropped, h.counted⟩

end AnalyticsCollector

end GpuInference
