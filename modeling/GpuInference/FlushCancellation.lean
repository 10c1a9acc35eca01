import GpuInference.RequeueOrder

/-!
Flushes that are cancelled. A flush waits in one place only, the sleep between two attempts, and holds
its batch in a local variable there. `CancelledError` is no `Exception`, so the handler that puts the
batch back is not entered: what no attempt has written is in no place any more.
-/

open Effect

namespace GpuInference

variable {maxSize : Int} {flusher : ClickHouseFlusher}

def cancelledError : PyExc := .base "CancelledError"

/-- What each call does when a sleep may be cancelled. An insert that fails may have written its rows. -/
def cancellableExec (maxSize : Int) : Exec FlushOp FlushOp.Res PyExc (AnalyticsWorld maxSize)
  | .insert _ call, w, answer, w' =>
      (answer = .ok () ∧ w' = { w with inserts := w.inserts ++ [call] }) ∨
        ∃ exc : PyExc, exc.isException = true ∧ answer = .error exc ∧
          (w' = w ∨ w' = { w with inserts := w.inserts ++ [call] })
  | .sleep _, w, answer, w' => (answer = .ok () ∨ answer = .error cancelledError) ∧ w' = w
  | .collect event, w, answer, w' => flushExec maxSize (fun _ => True) (.collect event) w answer w'
  | .drainBatch batchSize, w, answer, w' => flushExec maxSize (fun _ => True) (.drainBatch batchSize) w answer w'
  | .recordFailure eventCount tables, w, answer, w' =>
      flushExec maxSize (fun _ => True) (.recordFailure eventCount tables) w answer w'
  | .requeueFront objects, w, answer, w' => flushExec maxSize (fun _ => True) (.requeueFront objects) w answer w'

/-- Events are collected and batches are flushed; every flush may be cancelled while it sleeps. -/
def cancellableSystem (maxSize : Int) (flusher : ClickHouseFlusher) : System (AnalyticsWorld maxSize) FlushThread :=
  callSystem (cancellableExec maxSize) (AnalyticsRuns flusher)

/-- The events that a call has taken from the queue. -/
def drainedEvents (calls : List (Event FlushOp FlushOp.Res PyExc)) : List EventObject :=
  calls.flatMap fun event =>
    match event with
    | ⟨.drainBatch _, .ok objects⟩ => objects
    | _ => []

/-- The event's row is in ClickHouse, or the event is in the queue, in the spool if it is critical, or
counted as dropped if it is not. -/
def KeptSomewhere (w : AnalyticsWorld maxSize) (object : EventObject) : Prop :=
  object.toRow ∈ w.insertedRows ∨ object ∈ w.collector.queue.items ∨
    (object.event.critical = true ∧ object ∈ w.collector.spooled) ∨
    (object.event.critical = false ∧ object ∈ w.collector.dropped.map Prod.fst)

namespace HeldPhase

/-- The events that are in the hands of a flush. -/
def objects : HeldPhase → Multiset EventObject
  | holding batch => ↑batch
  | _ => 0

@[simp] theorem objects_idle : HeldPhase.idle.objects = 0 := rfl

end HeldPhase

/-- An exception that leaves a call has not passed the handler that puts the batch back. -/
def RaisedHolding (φ : HeldPhase) : Except PyExc Bool → Prop
  | .ok _ => True
  | .error _ => φ = .idle ∨ ∃ batch, φ = .holding batch

theorem follows_held (flusher : ClickHouseFlusher) {program : FlushProgram Bool} (h : AnalyticsRuns flusher program) :
    program.Follows (heldProtocol flusher.batchSize) RaisedHolding .idle := by
  cases h with
  | collect event =>
      refine ⟨trivial, ?_⟩
      intro answer
      cases answer with
      | ok value => exact trivial
      | error exc => exact .inl rfl
  | flushOnce =>
      refine (flushOnce_follows_batch flusher).mono ?_
      intro φ outcome hdone
      cases outcome with
      | ok value => exact trivial
      | error exc => exact hdone

/-- Every event is in the collector or in the hands of a flush, whatever is cancelled. -/
theorem cancellable_recorded (batchSize : Int) :
    Justified (cancellableExec maxSize) (heldProtocol batchSize) .idle HeldPhase.objects Recorded fun _ _ => True where
  start := ⟨rfl, fun _ => trivial⟩
  frame _ _ _ _ _ _ _ _ _ _ _ _ := trivial
  call φ op w answer w' m hR _ hmay hexec := by
    refine ⟨?_, trivial⟩
    cases φ with
    | idle =>
        cases op with
        | collect event =>
            obtain ⟨rfl, rfl⟩ := hexec
            exact recorded_collect hR event
        | drainBatch count =>
            obtain ⟨rfl, rfl⟩ := hexec
            rw [HeldPhase.objects_idle, zero_add] at hR
            exact recorded_drainBatch hR count
        | _ => exact hmay.elim
    | holding batch =>
        cases op with
        | insert position call =>
            rcases hexec with ⟨rfl, rfl⟩ | ⟨exc, -, rfl, rfl | rfl⟩
            · exact ⟨hR.objects, hR.numbers, hR.sorted⟩
            · exact hR
            · exact ⟨hR.objects, hR.numbers, hR.sorted⟩
        | sleep delay =>
            obtain ⟨rfl | rfl, rfl⟩ := hexec
            · exact hR
            · exact hR
        | recordFailure eventCount tables =>
            obtain ⟨rfl, rfl⟩ := hexec
            exact ⟨hR.objects, hR.numbers, hR.sorted⟩
        | requeueFront objects =>
            obtain ⟨rfl, rfl⟩ := hexec
            obtain rfl : objects = batch := hmay
            show Recorded _ (0 + m)
            rw [zero_add]
            exact recorded_requeueFront hR
        | _ => exact hmay.elim
    | returned batch => cases op <;> exact hmay.elim
    | finished => cases op <;> exact hmay.elim

/-- The batch a flush holds is what it has drained. -/
def HeldPhase.Tells (φ : HeldPhase) (calls : List (Event FlushOp FlushOp.Res PyExc)) : Prop :=
  match φ with
  | .idle => drainedEvents calls = []
  | .holding batch => drainedEvents calls = batch
  | _ => True

theorem held_tells {batchSize : Int} {calls : List (Event FlushOp FlushOp.Res PyExc)}
    (h : (heldProtocol batchSize).Keeps .idle calls) : ((heldProtocol batchSize).phase .idle calls).Tells calls := by
  refine @Protocol.Keeps.tells _ _ _ _ (heldProtocol batchSize) HeldPhase.Tells .idle rfl ?_ calls h
  intro φ calls event htells hmay
  obtain ⟨op, answer⟩ := event
  have happend : ∀ event, drainedEvents (calls ++ [event]) = drainedEvents calls ++ drainedEvents [event] :=
    fun event => List.flatMap_append
  cases φ with
  | idle =>
      have hnone : drainedEvents calls = [] := htells
      cases op with
      | collect collected =>
          cases answer with
          | ok value => exact trivial
          | error exc => exact (happend _).trans (by rw [hnone]; rfl)
      | drainBatch count =>
          cases answer with
          | ok objects =>
              refine (happend _).trans ?_
              rw [hnone]
              exact List.append_nil objects
          | error exc => exact (happend _).trans (by rw [hnone]; rfl)
      | _ => exact hmay.elim
  | holding batch =>
      have hbatch : drainedEvents calls = batch := htells
      have hsame : ∀ event, drainedEvents [event] = [] → drainedEvents (calls ++ [event]) = batch := by
        intro event hevent
        rw [happend, hevent, List.append_nil, hbatch]
      cases op with
      | requeueFront objects =>
          cases answer with
          | ok value => exact trivial
          | error exc => exact hsame _ rfl
      | collect collected => exact hmay.elim
      | drainBatch count => exact hmay.elim
      | _ => exact hsame _ rfl
  | returned batch => cases op <;> exact hmay.elim
  | finished => cases op <;> exact hmay.elim

/-- Events outside the collector are in none of its places. -/
theorem not_kept_of_outside {w : AnalyticsWorld maxSize} {m : Multiset EventObject} (h : Recorded w m)
    {object : EventObject} (hobject : object ∈ m) : object ∉ w.collector.objects := by
  intro hinside
  have hnodup : (w.collector.objects + m).Nodup := by
    rw [h.objects]
    exact nodup_collected h
  exact Multiset.disjoint_left.mp (Multiset.nodup_add.mp hnodup).2.2 hinside hobject

/-- **What a cancelled flush has drained is kept only if it had been written before.** -/
theorem cancelled_flush_kept_iff (maxSize : Int) (flusher : ClickHouseFlusher)
    (p : Pool (AnalyticsWorld maxSize) FlushThread) (h : (cancellableSystem maxSize flusher).Reachable .start p)
    (t : FlushThread) (ht : t ∈ p.threads) (exc : PyExc) (hraised : t.program = .raise exc) :
    (∀ object ∈ drainedEvents t.calls, KeptSomewhere p.shared object) ↔
      ∀ object ∈ drainedEvents t.calls, object.toRow ∈ p.shared.insertedRows := by
  have haccounted := ((cancellable_recorded flusher.batchSize).accounts
    fun _ => follows_held flusher).reachable recorded_start h
  have htells := held_tells (reachable_keeps (fun _ => follows_held flusher) h t ht)
  have hdone := (haccounted.2 t ht).2
  rw [hraised, Program.follows_raise] at hdone
  constructor
  · intro hkept object hobject
    rcases hdone with hidle | ⟨batch, hholding⟩
    · rw [hidle] at htells
      have hnone : drainedEvents t.calls = [] := htells
      rw [hnone] at hobject
      cases hobject
    · rw [hholding] at htells
      have hbatch : drainedEvents t.calls = batch := htells
      have hheld : object ∈ (p.threads.map fun t =>
          ((heldProtocol flusher.batchSize).phase .idle t.calls).objects).sum := by
        obtain ⟨left, right, hsplit⟩ := List.append_of_mem ht
        rw [hsplit, System.sum_middle, Multiset.mem_add, hholding, ← hbatch]
        exact .inl hobject
      have houtside := not_kept_of_outside haccounted.1 hheld
      simp only [AnalyticsCollector.objects, Multiset.mem_add, Multiset.mem_coe, not_or] at houtside
      rcases hkept object hobject with hrow | hqueue | ⟨-, hspooled⟩ | ⟨-, hdropped⟩
      · exact hrow
      · exact absurd hqueue houtside.1.1
      · exact absurd hspooled houtside.1.2
      · exact absurd hdropped houtside.2
  · intro hrows object hobject
    exact .inl (hrows object hobject)

/-- One event that a flush has drained. -/
def drainedUsage : AnalyticsWorld 10 :=
  let w := AnalyticsWorld.collect .start plainUsage
  { w with collector := (w.collector.drainBatch 10).2 }

/-- The calls of a flush whose first attempt fails and which is cancelled in the sleep after it. -/
def cancelledCalls : List (Event FlushOp FlushOp.Res PyExc) :=
  [⟨.drainBatch 10, .ok [⟨0, plainUsage⟩]⟩, ⟨.insert 0 usageInsert, .error valueError⟩,
    ⟨.sleep 1, .error cancelledError⟩]

theorem reachable_cancelled {w : AnalyticsWorld 10}
    (hw : w = drainedUsage ∨ w = { drainedUsage with inserts := [usageInsert] }) : ∃ left : List FlushThread,
    (cancellableSystem 10 plainFlusher).Reachable .start
      ⟨w, left ++ [⟨cancelledCalls, .raise cancelledError, false⟩]⟩ := by
  let exec := cancellableExec 10
  have h : (cancellableSystem 10 plainFlusher).Reachable .start ⟨.start, []⟩ := Relation.ReflTransGen.refl
  have h := reachable_start h (AnalyticsRuns.collect plainUsage)
  have h := reachable_call [] [] h (show exec (.collect plainUsage) .start (.ok true)
    (AnalyticsWorld.collect .start plainUsage) from ⟨rfl, rfl⟩)
  have h := reachable_start h AnalyticsRuns.flushOnce
  have h := reachable_call [_] [] h (show exec (.drainBatch 10) _ (.ok [⟨0, plainUsage⟩]) drainedUsage from
    ⟨rfl, rfl⟩)
  have h := reachable_call [_] [] h (show exec (.insert 0 usageInsert) drainedUsage (.error valueError) w from
    .inr ⟨valueError, rfl, rfl, hw⟩)
  have h := reachable_call [_] [] h (show exec (.sleep 1) w (.error cancelledError) w from ⟨.inr rfl, rfl⟩)
  exact ⟨_, h⟩

/-- An attempt that has written the row and failed nevertheless: the event is not lost. -/
theorem cancelled_flush_kept_written :
    KeptSomewhere { drainedUsage with inserts := [usageInsert] } (⟨0, plainUsage⟩ : EventObject) := by
  obtain ⟨left, h⟩ := reachable_cancelled (.inr rfl)
  have hdrained : (⟨0, plainUsage⟩ : EventObject) ∈ drainedEvents cancelledCalls := List.mem_singleton_self _
  refine (cancelled_flush_kept_iff 10 plainFlusher _ h _ (List.mem_append_right _ List.mem_cons_self) cancelledError
    rfl).mpr ?_ _ hdrained
  intro object hobject
  rw [List.mem_singleton.mp (show object ∈ [(⟨0, plainUsage⟩ : EventObject)] from hobject)]
  exact List.mem_singleton_self _

/-- An attempt that has written nothing: the event is in no place any more. -/
theorem cancelled_flush_loses : ¬ ∀ (maxSize : Int) (flusher : ClickHouseFlusher)
    (p : Pool (AnalyticsWorld maxSize) FlushThread), (cancellableSystem maxSize flusher).Reachable .start p →
    ∀ t ∈ p.threads, t.program = .raise cancelledError →
      ∀ object ∈ drainedEvents t.calls, KeptSomewhere p.shared object := by
  intro hall
  obtain ⟨left, h⟩ := reachable_cancelled (.inl rfl)
  have hkept := hall 10 plainFlusher _ h _ (List.mem_append_right _ List.mem_cons_self) rfl ⟨0, plainUsage⟩
    (List.mem_singleton_self _)
  have hnone : drainedUsage.insertedRows = [] ∧ drainedUsage.collector.queue.items = [] ∧
      drainedUsage.collector.spooled = [] ∧ drainedUsage.collector.dropped.map Prod.fst = [] := ⟨rfl, rfl, rfl, rfl⟩
  simp [KeptSomewhere, hnone] at hkept

end GpuInference
