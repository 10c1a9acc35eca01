import GpuInference.RequeueOrder

/-!
The counters of the collector over whole runs. `collect` counts every event that it turns away. The rule
for a full queue is written a second time in `requeue_front`, which counts the events it drops but not
those it hands to the spool.
-/

open Effect

namespace GpuInference

variable {maxSize : Int} {flusher : ClickHouseFlusher}

/-- The methods of the collector and the flush, in any order and at any time. -/
inductive CollectorRuns (flusher : ClickHouseFlusher) : FlushProgram Unit → Prop
  | collect (event : AnalyticsEvent) :
      CollectorRuns flusher ((Program.perform (.collect event)).bind fun _ => .ret ())
  | drainBatch (batchSize : Int) :
      CollectorRuns flusher ((Program.perform (.drainBatch batchSize)).bind fun _ => .ret ())
  | requeueFront (objects : List EventObject) : CollectorRuns flusher (Program.perform (FlushOp.requeueFront objects))
  | flushOnce : CollectorRuns flusher (flusher.flushOnce.bind fun _ => .ret ())

/-- Any number of these calls on one collector, any insert of which may fail. -/
def collectorSystem (maxSize : Int) (flusher : ClickHouseFlusher) :
    System (AnalyticsWorld maxSize) (Thread FlushOp FlushOp.Res PyExc Unit) :=
  callSystem (flushExec maxSize fun _ => True) (CollectorRuns flusher)

/-- Both counters are the numbers of events they are named for. -/
structure CountersExact (collector : AnalyticsCollector maxSize) : Prop where
  sorted : collector.Sorted
  spooled : collector.spooledCritical = collector.spooled.length

/-- No critical event is put back into a queue that has no place for it. -/
def RequeueFits (w : AnalyticsWorld maxSize) : FlushOp → Prop
  | .requeueFront objects =>
      ∀ object ∈ objects.drop (w.collector.queue.room objects.length), object.event.critical = false
  | _ => True

/-- The runs whose requeues all fit. -/
def fittingSystem (maxSize : Int) (flusher : ClickHouseFlusher) :
    System (AnalyticsWorld maxSize) (Thread FlushOp FlushOp.Res PyExc Unit) :=
  callSystem ((flushExec maxSize fun _ => True).restrict RequeueFits) (CollectorRuns flusher)

theorem countersExact_start : CountersExact (.start : AnalyticsCollector maxSize) :=
  ⟨AnalyticsCollector.sorted_start, rfl⟩

/-- Every call drops only what it counts. -/
theorem sorted_call {op : FlushOp} {w w' : AnalyticsWorld maxSize} {answer : Except PyExc op.Res}
    (h : w.collector.Sorted) (hexec : flushExec maxSize (fun _ => True) op w answer w') : w'.collector.Sorted := by
  cases op with
  | collect event =>
      obtain ⟨-, rfl⟩ := hexec
      exact (AnalyticsCollector.takes_collect _ _).sorted h
  | drainBatch batchSize =>
      obtain ⟨-, rfl⟩ := hexec
      exact AnalyticsCollector.sorted_drainBatch h batchSize
  | insert position call =>
      rcases hexec with ⟨-, rfl⟩ | ⟨exc, -, -, -, rfl⟩
      · exact h
      · exact h
  | sleep delay =>
      obtain ⟨-, rfl⟩ := hexec
      exact h
  | recordFailure eventCount tables =>
      obtain ⟨-, rfl⟩ := hexec
      exact h
  | requeueFront objects =>
      obtain ⟨-, rfl⟩ := hexec
      exact AnalyticsCollector.sorted_requeueFront h objects

/-- What `collect` spools it counts. -/
theorem spooled_collect (collector : AnalyticsCollector maxSize) (object : EventObject) :
    (collector.collect object).2.spooled.length + collector.spooledCritical =
      (collector.collect object).2.spooledCritical + collector.spooled.length := by
  unfold AnalyticsCollector.collect
  split
  · exact Nat.add_comm _ _
  · split
    · simp only [List.length_append, List.length_singleton]
      omega
    · exact Nat.add_comm _ _

/-- What `requeue_front` spools it does not. -/
theorem spooled_requeueFront (collector : AnalyticsCollector maxSize) (objects : List EventObject) :
    (collector.requeueFront objects).spooled.length + collector.spooledCritical =
      (collector.requeueFront objects).spooledCritical + collector.spooled.length +
        ((objects.drop (collector.queue.room objects.length)).filter (·.event.critical)).length := by
  have h := AnalyticsCollector.requeued_requeueFront collector objects
  rw [h.spooled, h.spooledCritical, List.length_append]
  omega

/-- One call keeps an exact spool counter exact, unless it puts back a critical event that does not fit. -/
theorem spooled_call_iff {op : FlushOp} {w w' : AnalyticsWorld maxSize} {answer : Except PyExc op.Res}
    (h : w.collector.spooledCritical = w.collector.spooled.length)
    (hexec : flushExec maxSize (fun _ => True) op w answer w') :
    w'.collector.spooledCritical = w'.collector.spooled.length ↔ RequeueFits w op := by
  cases op with
  | collect event =>
      obtain ⟨-, rfl⟩ := hexec
      have hcount := spooled_collect w.collector (w.object event)
      refine iff_of_true ?_ trivial
      simp only [AnalyticsWorld.collect]
      omega
  | drainBatch batchSize =>
      obtain ⟨-, rfl⟩ := hexec
      exact iff_of_true h trivial
  | insert position call =>
      rcases hexec with ⟨-, rfl⟩ | ⟨exc, -, -, -, rfl⟩
      · exact iff_of_true h trivial
      · exact iff_of_true h trivial
  | sleep delay =>
      obtain ⟨-, rfl⟩ := hexec
      exact iff_of_true h trivial
  | recordFailure eventCount tables =>
      obtain ⟨-, rfl⟩ := hexec
      exact iff_of_true h trivial
  | requeueFront objects =>
      obtain ⟨-, rfl⟩ := hexec
      have hcount := spooled_requeueFront w.collector objects
      have hnone : ((objects.drop (w.collector.queue.room objects.length)).filter (·.event.critical)).length = 0 ↔
          RequeueFits w (.requeueFront objects) := by
        rw [List.length_eq_zero_iff, List.filter_eq_nil_iff]
        simp only [RequeueFits, Bool.not_eq_true]
      rw [← hnone]
      dsimp only
      constructor
      · intro hexact
        omega
      · intro hzero
        omega

/-- **The counters are exact in every run whose requeues fit.** -/
theorem counters_exact (maxSize : Int) (flusher : ClickHouseFlusher)
    (p : Pool (AnalyticsWorld maxSize) (Thread FlushOp FlushOp.Res PyExc Unit))
    (h : (fittingSystem maxSize flusher).Reachable .start p) : CountersExact p.shared.collector := by
  refine reachable_made (fun w _ => CountersExact w.collector) countersExact_start ?_ h
  intro w made op answer w' hexact hexec
  exact ⟨sorted_call hexact.sorted hexec.2, (spooled_call_iff hexact.spooled hexec.2).mpr hexec.1⟩

/-- The events that are dropped are counted in every run. -/
theorem drops_counted {p : Pool (AnalyticsWorld maxSize) (Thread FlushOp FlushOp.Res PyExc Unit)}
    (h : (collectorSystem maxSize flusher).Reachable .start p) :
    p.shared.collector.droppedNonCritical = p.shared.collector.dropped.length := by
  have hsorted : p.shared.collector.Sorted :=
    reachable_made (fun w _ => w.collector.Sorted) AnalyticsCollector.sorted_start
      (fun _ _ _ _ _ hsorted hexec => sorted_call hsorted hexec) h
  exact hsorted.counted

/-- A critical event. -/
def criticalUsage : AnalyticsEvent :=
  .usage 0 ⟨"req", "user", "project", "key", "model", .completed, 3, 4, 7, some 12, none, true⟩

/-- A flush of one event that is tried once. -/
def oneTry : ClickHouseFlusher := ⟨1, 1⟩

/-- A queue with one place, whose event a flush has drained. -/
def drainedOne : AnalyticsWorld 1 :=
  let w := AnalyticsWorld.collect .start criticalUsage
  { w with collector := (w.collector.drainBatch 1).2 }

/-- The queue is full when two more events come, of which one is dropped and one is spooled, and a flush drains it. -/
def drainedFull : AnalyticsWorld 1 :=
  let w := ((AnalyticsWorld.collect .start criticalUsage).collect plainUsage).collect criticalUsage
  { w with collector := (w.collector.drainBatch 1).2 }

/-- A failed flush puts the event back into the place that is free by then. -/
theorem counters_exact_requeued :
    let collector := drainedFull.collector.requeueFront [⟨0, criticalUsage⟩]
    collector.droppedNonCritical = 1 ∧ collector.spooledCritical = 1 ∧ collector.queue.items.length = 1 ∧
      CountersExact collector := by
  let exec := (flushExec 1 fun _ => True).restrict RequeueFits
  let taken : AnalyticsWorld 1 := .collect .start criticalUsage
  let failed : AnalyticsWorld 1 := { drainedFull with flushFailures := 1 }
  have h : (fittingSystem 1 oneTry).Reachable .start ⟨.start, []⟩ := Relation.ReflTransGen.refl
  have h := reachable_start h (CollectorRuns.collect criticalUsage)
  have h := reachable_call [] [] h (show exec (.collect criticalUsage) .start (.ok true) taken from
    ⟨trivial, rfl, rfl⟩)
  have h := reachable_start h (CollectorRuns.collect plainUsage)
  have h := reachable_call [_] [] h (show exec (.collect plainUsage) taken (.ok false) (taken.collect plainUsage) from
    ⟨trivial, rfl, rfl⟩)
  have h := reachable_start h (CollectorRuns.collect criticalUsage)
  have h := reachable_call [_, _] [] h (show exec (.collect criticalUsage) (taken.collect plainUsage) (.ok false)
    ((taken.collect plainUsage).collect criticalUsage) from ⟨trivial, rfl, rfl⟩)
  have h := reachable_start h CollectorRuns.flushOnce
  have h := reachable_call [_, _, _] [] h (show exec (.drainBatch 1) _ (.ok [⟨0, criticalUsage⟩]) drainedFull from
    ⟨trivial, rfl, rfl⟩)
  have h := reachable_call [_, _, _] [] h (show exec (.insert 0 _) drainedFull (.error valueError) drainedFull from
    ⟨trivial, .inr ⟨valueError, rfl, trivial, rfl, rfl⟩⟩)
  have h := reachable_call [_, _, _] [] h (show exec (.recordFailure 1 _) drainedFull (.ok ()) failed from
    ⟨trivial, rfl, rfl⟩)
  have h := reachable_call [_, _, _] [] h (show exec (.requeueFront [⟨0, criticalUsage⟩]) failed (.ok ())
    { failed with collector := failed.collector.requeueFront [⟨0, criticalUsage⟩] } from
    ⟨List.forall_mem_nil _, rfl, rfl⟩)
  exact ⟨rfl, rfl, rfl, counters_exact 1 oneTry _ h⟩

/-- The place is taken in the meantime: the event that is put back is spooled and not counted. -/
theorem spool_uncounted : ¬ ∀ (maxSize : Int) (flusher : ClickHouseFlusher)
    (p : Pool (AnalyticsWorld maxSize) (Thread FlushOp FlushOp.Res PyExc Unit)),
    (collectorSystem maxSize flusher).Reachable .start p → CountersExact p.shared.collector := by
  intro hall
  let exec := flushExec 1 fun _ => True
  let refilled : AnalyticsWorld 1 := drainedOne.collect criticalUsage
  let failed : AnalyticsWorld 1 := { refilled with flushFailures := 1 }
  have h : (collectorSystem 1 oneTry).Reachable .start ⟨.start, []⟩ := Relation.ReflTransGen.refl
  have h := reachable_start h (CollectorRuns.collect criticalUsage)
  have h := reachable_call [] [] h (show exec (.collect criticalUsage) .start (.ok true)
    (AnalyticsWorld.collect .start criticalUsage) from ⟨rfl, rfl⟩)
  have h := reachable_start h CollectorRuns.flushOnce
  have h := reachable_call [_] [] h (show exec (.drainBatch 1) _ (.ok [⟨0, criticalUsage⟩]) drainedOne from
    ⟨rfl, rfl⟩)
  have h := reachable_start h (CollectorRuns.collect criticalUsage)
  have h := reachable_call [_, _] [] h (show exec (.collect criticalUsage) drainedOne (.ok true) refilled from
    ⟨rfl, rfl⟩)
  have h := reachable_call [_] [_] h (show exec (.insert 0 _) refilled (.error valueError) refilled from
    .inr ⟨valueError, rfl, trivial, rfl, rfl⟩)
  have h := reachable_call [_] [_] h (show exec (.recordFailure 1 _) refilled (.ok ()) failed from ⟨rfl, rfl⟩)
  have h := reachable_call [_] [_] h (show exec (.requeueFront [⟨0, criticalUsage⟩]) failed (.ok ())
    { failed with collector := failed.collector.requeueFront [⟨0, criticalUsage⟩] } from ⟨rfl, rfl⟩)
  have hspooled : (0 : Nat) = 1 := (hall 1 oneTry _ h).spooled
  cases hspooled

end GpuInference
