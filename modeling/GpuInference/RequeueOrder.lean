import GpuInference.AnalyticsWiring
import GpuInference.EffectTrace
import GpuInference.EffectFrame
import Mathlib.Data.List.Rotate

/-!
What a failed flush leaves behind. The batch is taken from the front of the queue and put back at its
end, so the order is restored only when the batch was the whole queue. It always fits again, unless
events were collected in between; then `requeue_front` applies the rule for a full queue once more, but
counts only one of its two cases.
-/

open Effect

namespace GpuInference

variable {maxSize : Int}

namespace AnalyticsCollector

/-- The collector after the events have been put back: `taken` of them are queued. -/
structure Requeued (before : AnalyticsCollector maxSize) (objects : List EventObject) (taken : Nat)
    (after : AnalyticsCollector maxSize) : Prop where
  queue : after.queue.items = before.queue.items ++ objects.take taken
  spooled : after.spooled = before.spooled ++ (objects.drop taken).filter (·.event.critical)
  dropped : after.dropped.map Prod.fst =
    before.dropped.map Prod.fst ++ (objects.drop taken).filter fun object => !object.event.critical
  counted : after.droppedNonCritical =
    before.droppedNonCritical + ((objects.drop taken).filter fun object => !object.event.critical).length
  spooledCritical : after.spooledCritical = before.spooledCritical

theorem requeued_nil (self : AnalyticsCollector maxSize) : self.Requeued [] 0 self := by
  refine ⟨?_, ?_, ?_, ?_, rfl⟩ <;> simp

/-- A queue that is full stays full: what is left of the batch is spooled or dropped. -/
theorem requeued_full {self after : AnalyticsCollector maxSize} {object : EventObject} {objects : List EventObject}
    (hput : self.queue.put object = none) (h : (self.requeue object).Requeued objects 0 after) :
    self.Requeued (object :: objects) 0 after := by
  obtain ⟨hqueue, hspooled, hdropped, hcounted, hsame⟩ := h
  unfold requeue at hqueue hspooled hdropped hcounted hsame
  rw [hput] at hqueue hspooled hdropped hcounted hsame
  by_cases hcritical : object.event.critical = true
  · rw [if_pos hcritical] at hqueue hspooled hdropped hcounted hsame
    exact ⟨by simpa using hqueue, by simpa [hcritical] using hspooled, by simpa [hcritical] using hdropped,
      by simpa [hcritical] using hcounted, hsame⟩
  · rw [if_neg hcritical] at hqueue hspooled hdropped hcounted hsame
    simp only [drop] at hqueue hspooled hdropped hcounted hsame
    refine ⟨by simpa using hqueue, by simpa [hcritical] using hspooled, by simpa [hcritical] using hdropped, ?_, hsame⟩
    simp only [List.drop_zero] at hcounted
    simp only [List.drop_zero, List.filter_cons, hcritical, Bool.not_false, if_true, List.length_cons, hcounted]
    omega

theorem requeued_put {self after : AnalyticsCollector maxSize} {object : EventObject} {objects : List EventObject}
    {queue : BoundedQueue EventObject maxSize} {taken : Nat} (hput : self.queue.put object = some queue)
    (h : (self.requeue object).Requeued objects taken after) :
    self.Requeued (object :: objects) (taken + 1) after := by
  obtain ⟨hqueue, hspooled, hdropped, hcounted, hsame⟩ := h
  unfold requeue at hqueue hspooled hdropped hcounted hsame
  rw [hput] at hqueue hspooled hdropped hcounted hsame
  refine ⟨?_, hspooled, hdropped, hcounted, hsame⟩
  rw [hqueue, BoundedQueue.items_put hput, List.take_succ_cons, List.append_assoc]
  rfl

/-- **What `requeue_front` does.** As many events as fit go to the end of the queue, in their order; the
others are spooled or dropped. -/
theorem requeued_requeueFront (self : AnalyticsCollector maxSize) (objects : List EventObject) :
    self.Requeued objects (self.queue.room objects.length) (self.requeueFront objects) := by
  unfold requeueFront
  induction objects generalizing self with
  | nil =>
      have hroom : self.queue.room 0 = 0 := by
        unfold BoundedQueue.room
        split
        · exact Nat.zero_min _
        · rfl
      rw [List.length_nil, hroom]
      exact requeued_nil self
  | cons object objects ih =>
      have hrest := ih (self.requeue object)
      rw [List.foldl_cons, List.length_cons]
      cases hput : self.queue.put object with
      | none =>
          have hsame : (self.requeue object).queue = self.queue := by
            unfold requeue
            rw [hput]
            dsimp only
            split <;> rfl
          rw [hsame, BoundedQueue.room_of_put_none hput] at hrest
          rw [BoundedQueue.room_of_put_none hput]
          exact requeued_full hput hrest
      | some queue =>
          have hqueue : (self.requeue object).queue = queue := by
            unfold requeue
            rw [hput]
          rw [hqueue] at hrest
          rw [BoundedQueue.room_of_put_some hput]
          exact requeued_put hput hrest

/-- A batch that has just been drained fits again. -/
theorem room_drainBatch (self : AnalyticsCollector maxSize) (batchSize : Int) :
    (self.drainBatch batchSize).2.queue.room (self.drainBatch batchSize).1.length =
      (self.drainBatch batchSize).1.length := by
  obtain ⟨hdrained, hleft⟩ := BoundedQueue.items_drain batchSize.toNat self.queue
  apply BoundedQueue.room_of_le
  intro hbound
  have hfits := self.queue.bounded hbound
  simp only [drainBatch, hdrained, hleft, List.length_take, List.length_drop]
  omega

end AnalyticsCollector

/-- Where a flush stands with its batch, whatever its inserts do. -/
inductive HeldPhase where
  | idle
  | holding (batch : List EventObject)
  | returned (batch : List EventObject)
  | finished

def heldProtocol (batchSize : Int) : Protocol FlushOp FlushOp.Res PyExc HeldPhase where
  may
    | .idle, .collect _ => True
    | .idle, .drainBatch count => count = batchSize
    | .holding _, .insert _ _ => True
    | .holding _, .sleep _ => True
    | .holding _, .recordFailure _ _ => True
    | .holding batch, .requeueFront objects => objects = batch
    | _, _ => False
  after
    | .idle, .collect _, .ok _ => .finished
    | .idle, .drainBatch _, .ok objects => .holding objects
    | .holding batch, .requeueFront _, .ok _ => .returned batch
    | φ, _, _ => φ

/-- How a flush ends: `False` is returned only after the batch has been put back, and an exception
leaves a batch that has not been. -/
def HeldDone (φ : HeldPhase) : Except PyExc Bool → Prop
  | .ok true => True
  | .ok false => ∃ batch, φ = .returned batch
  | .error _ => φ = .idle ∨ ∃ batch, φ = .holding batch

/-- The calls of the attempts: a batch stays in the hands of the flush through all of them. -/
def IsAttemptCall : FlushOp → Prop
  | .insert _ _ => True
  | .sleep _ => True
  | _ => False

namespace ClickHouseFlusher

theorem makes_insertFrom (position : Nat) (calls : List InsertCall) :
    (insertFrom position calls).Makes IsAttemptCall := by
  induction calls generalizing position with
  | nil => exact Program.makes_ret ()
  | cons call calls ih =>
      refine (Program.makes_perform trivial).bind ?_
      intro value
      exact ih (position + 1)

theorem makes_insertAttempts (self : ClickHouseFlusher) (batch : List EventObject) (attempt : Int) (delay left : Nat) :
    (self.insertAttempts batch attempt delay left).Makes IsAttemptCall := by
  induction left generalizing attempt delay with
  | zero => exact Program.makes_ret ()
  | succ left ih =>
      refine (makes_insertFrom 0 (insertCalls batch)).tryExcept ?_
      intro exc
      split
      · exact Program.makes_raise exc
      · refine (Program.makes_perform trivial).bind ?_
        intro value
        exact ih (attempt + 1) (delay * 2)

/-- The attempts leave the batch where it is. -/
theorem insertWithRetry_follows_batch (self : ClickHouseFlusher) (batch : List EventObject)
    {done : HeldPhase → Except PyExc Unit → Prop} (hdone : ∀ outcome, done (.holding batch) outcome) :
    (self.insertWithRetry batch).Follows (heldProtocol self.batchSize) done (.holding batch) := by
  refine (self.makes_insertAttempts batch 0 1 self.maxRetries.toNat).follows ?_ ?_ hdone
  · intro op hop
    cases op <;> first | exact trivial | exact hop.elim
  · intro op answer hop
    cases op <;> first | rfl | exact hop.elim

end ClickHouseFlusher

theorem flushOnce_follows_batch (self : ClickHouseFlusher) :
    self.flushOnce.Follows (heldProtocol self.batchSize) HeldDone .idle := by
  refine Program.follows_perform_bind rfl (fun exc => .inl rfl) ?_
  intro events
  show Program.Follows (heldProtocol self.batchSize) HeldDone (.holding events) _
  by_cases hnil : events = []
  · rw [if_pos hnil]
    exact trivial
  · rw [if_neg hnil, Program.follows_tryExcept, Program.follows_bind]
    apply self.insertWithRetry_follows_batch events
    intro outcome
    cases outcome with
    | ok value => exact trivial
    | error exc =>
        simp only [Program.seqDone, Program.exceptDone]
        split
        · refine Program.follows_perform_bind trivial (fun exc => .inr ⟨events, rfl⟩) ?_
          intro value
          refine Program.follows_perform_bind rfl (fun exc => .inr ⟨events, rfl⟩) ?_
          intro value
          exact ⟨events, rfl⟩
        · exact .inr ⟨events, rfl⟩

/-- The collector in each phase of a flush that has started with `first`. -/
def HeldPhase.Leaves (first : AnalyticsCollector maxSize) (batchSize : Int) (φ : HeldPhase)
    (collector : AnalyticsCollector maxSize) : Prop :=
  match φ with
  | .idle => collector = first
  | .holding batch => batch = (first.drainBatch batchSize).1 ∧ collector = (first.drainBatch batchSize).2
  | .returned batch =>
      batch = (first.drainBatch batchSize).1 ∧ collector = (first.drainBatch batchSize).2.requeueFront batch
  | .finished => True

theorem HeldPhase.leaves_call {fails : Nat → Prop} {first : AnalyticsCollector maxSize} {batchSize : Int} {φ : HeldPhase}
    {op : FlushOp} {w w' : AnalyticsWorld maxSize} {answer : Except PyExc op.Res}
    (h : φ.Leaves first batchSize w.collector) (hmay : (heldProtocol batchSize).may φ op)
    (hexec : flushExec maxSize fails op w answer w') :
    ((heldProtocol batchSize).after φ op answer).Leaves first batchSize w'.collector := by
  cases φ with
  | idle =>
      cases op with
      | collect event =>
          obtain ⟨rfl, rfl⟩ := hexec
          exact trivial
      | drainBatch count =>
          obtain ⟨rfl, rfl⟩ := hexec
          obtain rfl : count = batchSize := hmay
          obtain rfl : w.collector = first := h
          exact ⟨rfl, rfl⟩
      | _ => exact hmay.elim
  | holding batch =>
      cases op with
      | insert position call =>
          rcases hexec with ⟨rfl, rfl⟩ | ⟨exc, -, -, rfl, rfl⟩
          · exact h
          · exact h
      | sleep delay =>
          obtain ⟨rfl, rfl⟩ := hexec
          exact h
      | recordFailure eventCount tables =>
          obtain ⟨rfl, rfl⟩ := hexec
          exact h
      | requeueFront objects =>
          obtain ⟨rfl, rfl⟩ := hexec
          obtain rfl : objects = batch := hmay
          exact ⟨h.1, by rw [← h.2]⟩
      | _ => exact hmay.elim
  | returned batch => cases op <;> exact hmay.elim
  | finished => cases op <;> exact hmay.elim

/-- A flush that returns `False` has drained a batch and has put all of it back, whatever its attempts
have written. -/
theorem collector_of_failed_flush {flusher : ClickHouseFlusher} {fails : Nat → Prop} {w w' : AnalyticsWorld maxSize}
    (h : flusher.flushOnce.Yields (flushExec maxSize fails) w (.ok false) w') :
    w'.collector = (w.collector.drainBatch flusher.batchSize).2.requeueFront
      (w.collector.drainBatch flusher.batchSize).1 := by
  obtain ⟨φ, hleaves, batch, rfl⟩ := (flushOnce_follows_batch flusher).yields
    (fun φ w' => φ.Leaves w.collector flusher.batchSize w'.collector) h rfl
    fun _ _ _ _ _ hleaves hmay hexec => HeldPhase.leaves_call hleaves hmay hexec
  obtain ⟨rfl, hcollector⟩ := hleaves
  exact hcollector

namespace AnalyticsCollector

/-- The batch goes behind the rest, and no event is spooled or dropped. -/
theorem requeueFront_drainBatch (self : AnalyticsCollector maxSize) (batchSize : Int) :
    let after := (self.drainBatch batchSize).2.requeueFront (self.drainBatch batchSize).1
    after.queue.items = self.queue.items.drop batchSize.toNat ++ self.queue.items.take batchSize.toNat ∧
      after.spooled = self.spooled ∧ after.dropped.map Prod.fst = self.dropped.map Prod.fst ∧
      after.droppedNonCritical = self.droppedNonCritical ∧ after.spooledCritical = self.spooledCritical := by
  obtain ⟨hdrained, hleft⟩ := BoundedQueue.items_drain batchSize.toNat self.queue
  have h := requeued_requeueFront (self.drainBatch batchSize).2 (self.drainBatch batchSize).1
  rw [room_drainBatch] at h
  refine ⟨?_, ?_, ?_, ?_, h.spooledCritical⟩
  · rw [h.queue, List.take_length]
    simp only [drainBatch, hdrained, hleft]
  · rw [h.spooled, List.drop_length, List.filter_nil, List.append_nil]
    rfl
  · rw [h.dropped, List.drop_length, List.filter_nil, List.append_nil]
    rfl
  · rw [h.counted, List.drop_length, List.filter_nil, List.length_nil, Nat.add_zero]
    rfl

/-- The queue holds the same events in the same order, and no event has been spooled or dropped. -/
structure LeftAsItWas (before after : AnalyticsCollector maxSize) : Prop where
  queue : after.queue.items = before.queue.items
  spooled : after.spooled = before.spooled
  dropped : after.dropped.map Prod.fst = before.dropped.map Prod.fst
  droppedNonCritical : after.droppedNonCritical = before.droppedNonCritical
  spooledCritical : after.spooledCritical = before.spooledCritical

end AnalyticsCollector

/-- **A failed flush leaves the queue as it was exactly when its batch was the whole queue**, or when the
queue is the same list after its first events have moved to the end. -/
theorem failed_flush_restores_iff (maxSize : Int) (flusher : ClickHouseFlusher) (fails : Nat → Prop)
    (w w' : AnalyticsWorld maxSize)
    (h : flusher.flushOnce.Yields (flushExec maxSize fails) w (.ok false) w') :
    w.collector.LeftAsItWas w'.collector ↔
      w.collector.queue.items.length ≤ flusher.batchSize.toNat ∨
        w.collector.queue.items.rotate flusher.batchSize.toNat = w.collector.queue.items := by
  have hafter := w.collector.requeueFront_drainBatch flusher.batchSize
  rw [← collector_of_failed_flush h] at hafter
  obtain ⟨hqueue, hspooled, hdropped, hcounted, hsame⟩ := hafter
  have hiff : w.collector.LeftAsItWas w'.collector ↔
      w.collector.queue.items.drop flusher.batchSize.toNat ++ w.collector.queue.items.take flusher.batchSize.toNat =
        w.collector.queue.items := by
    constructor
    · intro hleft
      rw [← hqueue, hleft.queue]
    · intro hrotated
      exact ⟨hqueue.trans hrotated, hspooled, hdropped, hcounted, hsame⟩
  rw [hiff]
  by_cases hwhole : w.collector.queue.items.length ≤ flusher.batchSize.toNat
  · rw [List.drop_eq_nil_of_le hwhole, List.take_of_length_le hwhole, List.nil_append]
    exact iff_of_true rfl (.inl hwhole)
  · rw [List.rotate_eq_drop_append_take (by omega)]
    exact (or_iff_right hwhole).symm

/-- What each call does while every insert fails. -/
def outage (op : FlushOp) (w : AnalyticsWorld maxSize) : Except PyExc op.Res × AnalyticsWorld maxSize :=
  match op with
  | .insert _ _ => (.error valueError, w)
  | op => healthy op w

theorem flushExec_outage (op : FlushOp) (w : AnalyticsWorld maxSize) :
    flushExec maxSize (fun _ => True) op w (outage op w).1 (outage op w).2 := by
  cases op with
  | insert position call => exact .inr ⟨valueError, rfl, trivial, rfl, rfl⟩
  | _ => exact flushExec_healthy _ _ w

/-- Two events that wait in the queue. -/
def waitingWorld : AnalyticsWorld 10 := (AnalyticsWorld.collect .start plainUsage).collect plainInference

/-- A flush of both of them fails twice and leaves the queue as it was. -/
theorem failed_flush_restores_whole :
    waitingWorld.collector.LeftAsItWas (plainFlusher.flushOnce.run outage waitingWorld).2.collector := by
  apply (failed_flush_restores_iff 10 plainFlusher (fun _ => True) waitingWorld _ ?_).mpr
  · exact .inl (by decide)
  · exact Program.yields_run flushExec_outage plainFlusher.flushOnce waitingWorld

/-- A flush of the first one puts it behind the second. -/
theorem failed_flush_reorders : ¬ ∀ (maxSize : Int) (flusher : ClickHouseFlusher) (fails : Nat → Prop)
    (w w' : AnalyticsWorld maxSize), 1 ≤ flusher.batchSize → 1 ≤ flusher.maxRetries →
    flusher.flushOnce.Yields (flushExec maxSize fails) w (.ok false) w' → w'.inserts = w.inserts →
    w.collector.LeftAsItWas w'.collector := by
  intro h
  have hyields := Program.yields_run flushExec_outage (ClickHouseFlusher.mk 1 1).flushOnce waitingWorld
  have hleft := h 10 ⟨1, 1⟩ _ waitingWorld _ (by decide) (by decide) hyields rfl
  have hqueue : ([⟨1, plainInference⟩, ⟨0, plainUsage⟩] : List EventObject) = plainBatch := hleft.queue
  exact absurd hqueue (by decide)

end GpuInference
