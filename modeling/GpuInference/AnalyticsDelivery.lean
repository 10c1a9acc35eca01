import GpuInference.AnalyticsFlusher
import Mathlib.Algebra.Group.Prod
import Mathlib.Data.List.Flatten

/-!
Where every analytics event is. The events of all calls that are under way, together with those in the
queue, spooled or dropped, are the events that were collected. No insert is forgotten by the call that
made it, as long as an attempt fails only before its first insert.
-/

open Effect

namespace GpuInference

variable {maxSize : Int} {fails : Nat → Prop} {flusher : ClickHouseFlusher}

namespace FlushPhase

/-- The events a call has taken from the queue. -/
def objects (φ : FlushPhase) : Multiset EventObject := ↑φ.held + ↑φ.delivered

def rows (φ : FlushPhase) : Multiset Row := ↑(φ.calls.flatMap InsertCall.rows)

@[simp] theorem objects_idle : FlushPhase.idle.objects = 0 := rfl

@[simp] theorem objects_finished : FlushPhase.finished.objects = 0 := rfl

theorem objects_drained (batch : List EventObject) : (drained batch).objects = ↑batch := by
  cases batch with
  | nil => rfl
  | cons object objects => exact add_zero _

theorem objects_holding (batch : List EventObject) (inserted : Nat) :
    (holding batch inserted).objects = ↑batch := add_zero _

theorem objects_insertedOne (batch : List EventObject) (inserted : Nat) :
    (insertedOne batch inserted).objects = ↑batch := by
  unfold insertedOne
  split
  · exact zero_add _
  · exact add_zero _

/-- One more insert of the attempt, which may be the last. -/
theorem calls_insertedOne (batch : List EventObject) (inserted : Nat) :
    (insertedOne batch inserted).calls = (insertCalls batch).take (inserted + 1) := by
  unfold insertedOne
  split
  · rename_i hlast
    rw [hlast, List.take_length]
    rfl
  · rfl

theorem calls_drained (batch : List EventObject) : (drained batch).calls = [] := by
  cases batch with
  | nil => rfl
  | cons object objects => rfl

end FlushPhase

/-- What one call of `collect` or of a flush does, in the order of a flush. -/
inductive FlushStep (fails : Nat → Prop) :
    FlushPhase → AnalyticsWorld maxSize → FlushPhase → AnalyticsWorld maxSize → Prop
  | collect {w : AnalyticsWorld maxSize} (event : AnalyticsEvent) :
      FlushStep fails .idle w .finished (w.collect event)
  | drain {w : AnalyticsWorld maxSize} (batchSize : Int) :
      FlushStep fails .idle w (.drained (w.collector.drainBatch batchSize).1)
        { w with collector := (w.collector.drainBatch batchSize).2 }
  | insert {w : AnalyticsWorld maxSize} {batch : List EventObject} {inserted : Nat} {call : InsertCall}
      (h : (insertCalls batch)[inserted]? = some call) :
      FlushStep fails (.holding batch inserted) w (.insertedOne batch inserted)
        { w with inserts := w.inserts ++ [call] }
  | fail {w : AnalyticsWorld maxSize} {batch : List EventObject} {inserted : Nat} (h : fails inserted) :
      FlushStep fails (.holding batch inserted) w (.holding batch 0) w
  | wait {w : AnalyticsWorld maxSize} {batch : List EventObject} :
      FlushStep fails (.holding batch 0) w (.holding batch 0) w
  | record {w : AnalyticsWorld maxSize} {batch : List EventObject} (flushFailures : Nat) :
      FlushStep fails (.holding batch 0) w (.holding batch 0) { w with flushFailures := flushFailures }
  | requeue {w : AnalyticsWorld maxSize} {batch : List EventObject} :
      FlushStep fails (.holding batch 0) w .finished
        { w with collector := w.collector.requeueFront batch }

/-- Every call that the protocol allows is one of these steps. -/
theorem flushStep_of_exec {φ : FlushPhase} {op : FlushOp} {w w' : AnalyticsWorld maxSize}
    {answer : Except PyExc op.Res} (hφ : φ ≠ .cancelled) (hmay : flushProtocol.may φ op)
    (hexec : flushExec maxSize fails op w answer w') :
    FlushStep fails φ w (flushProtocol.after φ op answer) w' := by
  cases φ with
  | idle =>
      cases op with
      | collect event =>
          obtain ⟨rfl, rfl⟩ := hexec
          exact .collect event
      | drainBatch batchSize =>
          obtain ⟨rfl, rfl⟩ := hexec
          exact .drain batchSize
      | insert position call => exact hmay.elim
      | sleep delay => exact hmay.elim
      | recordFailure eventCount tables => exact hmay.elim
      | requeueFront objects => exact hmay.elim
  | holding batch inserted =>
      cases op with
      | collect event => exact hmay.elim
      | drainBatch batchSize => exact hmay.elim
      | insert position call =>
          obtain ⟨rfl, hcall⟩ := hmay
          rcases hexec with ⟨rfl, rfl⟩ | ⟨exc, hexc, hfails, rfl, rfl⟩
          · exact .insert hcall
          · show FlushStep fails _ _ (if exc.isException then .holding batch 0 else .cancelled) _
            rw [if_pos hexc]
            exact .fail hfails
      | sleep delay =>
          obtain ⟨rfl, rfl⟩ := hexec
          obtain rfl := hmay
          exact .wait
      | recordFailure eventCount tables =>
          obtain ⟨rfl, rfl⟩ := hexec
          obtain rfl := hmay
          exact .record _
      | requeueFront objects =>
          obtain ⟨rfl, rfl⟩ := hexec
          obtain ⟨rfl, rfl⟩ := hmay
          exact .requeue
  | flushed batch => exact hmay.elim
  | finished => exact hmay.elim
  | cancelled => exact absurd rfl hφ

/-- The events outside the collector are `m`. -/
structure Recorded (w : AnalyticsWorld maxSize) (m : Multiset EventObject) : Prop where
  objects : w.collector.objects + m = ↑w.collected
  numbers : w.collected.map EventObject.number = List.range w.collected.length
  sorted : w.collector.Sorted

/-- The inserts of the call have reached ClickHouse, and the call has not been cancelled. -/
def Inserted (w : AnalyticsWorld maxSize) (φ : FlushPhase) : Prop :=
  (∀ call ∈ φ.calls, call ∈ w.inserts) ∧ φ ≠ .cancelled

theorem inserted_idle (w : AnalyticsWorld maxSize) : Inserted w .idle := by
  refine ⟨List.forall_mem_nil _, ?_⟩
  intro h
  cases h

theorem recorded_start : Recorded (.start : AnalyticsWorld maxSize) 0 where
  objects := rfl
  numbers := rfl
  sorted := AnalyticsCollector.sorted_start

theorem recorded_collect {w : AnalyticsWorld maxSize} {m : Multiset EventObject} (h : Recorded w m)
    (event : AnalyticsEvent) : Recorded (w.collect event) m where
  objects := by
    have htakes := AnalyticsCollector.takes_collect w.collector (w.object event)
    show (w.collector.collect (w.object event)).2.objects + m = ↑(w.collected ++ [w.object event])
    rw [htakes.objects, AnalyticsCollector.coe_append_singleton, ← h.objects]
    abel
  numbers := by
    show (w.collected ++ [w.object event]).map EventObject.number = _
    rw [AnalyticsWorld.collect, List.length_append, List.length_singleton, List.range_succ,
      List.map_append, h.numbers]
    rfl
  sorted := (AnalyticsCollector.takes_collect w.collector (w.object event)).sorted h.sorted

theorem recorded_drainBatch {w : AnalyticsWorld maxSize} {m : Multiset EventObject} (h : Recorded w m)
    (batchSize : Int) :
    Recorded { w with collector := (w.collector.drainBatch batchSize).2 }
      (↑(w.collector.drainBatch batchSize).1 + m) where
  objects := by
    rw [← h.objects, AnalyticsCollector.objects_drainBatch w.collector batchSize, add_assoc]
  numbers := h.numbers
  sorted := AnalyticsCollector.sorted_drainBatch h.sorted batchSize

theorem recorded_requeueFront {w : AnalyticsWorld maxSize} {m : Multiset EventObject}
    {objects : List EventObject} (h : Recorded w (↑objects + m)) :
    Recorded { w with collector := w.collector.requeueFront objects } m where
  objects := by
    show (w.collector.requeueFront objects).objects + m = ↑w.collected
    rw [AnalyticsCollector.objects_requeueFront, ← h.objects, add_assoc]
  numbers := h.numbers
  sorted := AnalyticsCollector.sorted_requeueFront h.sorted objects

theorem FlushStep.recorded {φ ψ : FlushPhase} {w w' : AnalyticsWorld maxSize}
    (hstep : FlushStep fails φ w ψ w') {m : Multiset EventObject} (h : Recorded w (φ.objects + m)) :
    Recorded w' (ψ.objects + m) := by
  cases hstep with
  | collect event => exact recorded_collect h event
  | drain batchSize =>
      rw [FlushPhase.objects_idle, zero_add] at h
      rw [FlushPhase.objects_drained]
      exact recorded_drainBatch h batchSize
  | insert hcall =>
      rw [FlushPhase.objects_holding] at h
      rw [FlushPhase.objects_insertedOne]
      exact ⟨h.objects, h.numbers, h.sorted⟩
  | fail hfails => exact h
  | wait => exact h
  | record flushFailures => exact ⟨h.objects, h.numbers, h.sorted⟩
  | requeue =>
      rw [FlushPhase.objects_holding] at h
      rw [FlushPhase.objects_finished, zero_add]
      exact recorded_requeueFront h

theorem FlushStep.inserts {φ ψ : FlushPhase} {w w' : AnalyticsWorld maxSize}
    (hstep : FlushStep fails φ w ψ w') {call : InsertCall} (h : call ∈ w.inserts) :
    call ∈ w'.inserts := by
  cases hstep with
  | insert hcall => exact List.mem_append_left _ h
  | _ => exact h

theorem FlushStep.inserted {φ ψ : FlushPhase} {w w' : AnalyticsWorld maxSize}
    (hstep : FlushStep fails φ w ψ w') (h : Inserted w φ) : Inserted w' ψ := by
  refine ⟨?_, ?_⟩
  · cases hstep with
    | collect event => exact List.forall_mem_nil _
    | drain batchSize =>
        rw [FlushPhase.calls_drained]
        exact List.forall_mem_nil _
    | @insert w batch inserted call hcall =>
        rw [FlushPhase.calls_insertedOne, List.take_add_one, hcall]
        intro other hother
        rcases List.mem_append.mp hother with hold | hnew
        · exact List.mem_append_left _ (h.1 other hold)
        · exact List.mem_append_right _ hnew
    | fail hfails => exact List.forall_mem_nil _
    | wait => exact h.1
    | record flushFailures => exact h.1
    | requeue => exact List.forall_mem_nil _
  · cases hstep with
    | drain batchSize =>
        unfold FlushPhase.drained
        split
        · intro heq; cases heq
        · intro heq; cases heq
    | insert hcall =>
        unfold FlushPhase.insertedOne
        split
        · intro heq; cases heq
        · intro heq; cases heq
    | _ => intro heq; cases heq

/-- A call of `flush_once` keeps the record, whichever inserts fail. -/
theorem flush_recorded : Justified (flushExec maxSize fails) flushProtocol .idle FlushPhase.objects
    Recorded Inserted where
  start := ⟨rfl, inserted_idle⟩
  call φ op w answer w' m hR hinserted hmay hexec := by
    have hstep := flushStep_of_exec hinserted.2 hmay hexec
    exact ⟨hstep.recorded hR, hstep.inserted hinserted⟩
  frame φ ψ op w answer w' m hR hφ hψ hmay hexec := by
    have hstep := flushStep_of_exec hφ.2 hmay hexec
    exact ⟨fun call hcall => hstep.inserts (hψ.1 call hcall), hψ.2⟩

theorem analytics_recorded {p : Pool (AnalyticsWorld maxSize) FlushThread}
    (h : (analyticsSystem maxSize flusher fails).Reachable .start p) :
    System.Accounted (fun _ t => (flushProtocol.phase .idle t.calls).objects) Recorded
      (Knows flushProtocol .idle (FlushDone flusher) Inserted) p :=
  (flush_recorded.accounts fun _ => follows_analytics flusher).reachable recorded_start h

/-! ### Places -/

/-- A list of lists without repetitions has an item in one of its lists only. -/
theorem index_unique {α : Type} {lists : List (List α)} (h : lists.flatten.Nodup) {i j : Nat}
    {left right : List α} (hi : lists[i]? = some left) (hj : lists[j]? = some right) {item : α}
    (hleft : item ∈ left) (hright : item ∈ right) : i = j := by
  have hpairs := (List.nodup_flatten.mp h).2
  rw [List.pairwise_iff_getElem] at hpairs
  obtain ⟨hilt, rfl⟩ := List.getElem?_eq_some_iff.mp hi
  obtain ⟨hjlt, rfl⟩ := List.getElem?_eq_some_iff.mp hj
  rcases Nat.lt_trichotomy i j with hlt | heq | hlt
  · exact absurd hright (hpairs i j hilt hjlt hlt hleft)
  · exact heq
  · exact absurd hleft (hpairs j i hjlt hilt hlt hright)

theorem coe_flatten {α : Type} (lists : List (List α)) :
    (lists.map fun items : List α => (items : Multiset α)).sum = ↑lists.flatten := by
  induction lists with
  | nil => rfl
  | cons items lists ih => rw [List.map_cons, List.sum_cons, ih, List.flatten_cons, Multiset.coe_add]

/-- The places an event can be in. -/
inductive Place where
  | queue
  | held (thread : Nat)
  | flushed (thread : Nat)
  | spool
  | dropped
  deriving DecidableEq, Repr

/-- The batch that a running flush holds. -/
def heldBatch (t : FlushThread) : List EventObject :=
  if t.running then (flushProtocol.phase .idle t.calls).held else []

/-- The batch whose `_insert` has completed. -/
def flushedBatch (t : FlushThread) : List EventObject := (flushProtocol.phase .idle t.calls).delivered

/-- The events in a place. -/
def eventsAt (p : Pool (AnalyticsWorld maxSize) FlushThread) : Place → List EventObject
  | .queue => p.shared.collector.queue.items
  | .held thread => (p.threads[thread]?.map heldBatch).getD []
  | .flushed thread => (p.threads[thread]?.map flushedBatch).getD []
  | .spool => p.shared.collector.spooled
  | .dropped => p.shared.collector.dropped.map Prod.fst

/-- Every event that was collected is in exactly one place, and in each place for a reason. -/
structure Conserved (p : Pool (AnalyticsWorld maxSize) FlushThread) : Prop where
  place : ∀ object ∈ p.shared.collected, ∃! place, object ∈ eventsAt p place
  once : ∀ place, (eventsAt p place).Nodup
  collected : ∀ place, ∀ object ∈ eventsAt p place, object ∈ p.shared.collected
  flushed : ∀ thread, ∀ object ∈ eventsAt p (.flushed thread), ∃ call ∈ p.shared.inserts,
    call.table = object.table ∧ call.columnNames = columnsForTable object.table ∧
      call.rows = ((eventsAt p (.flushed thread)).filter fun other =>
        other.table = object.table).map EventObject.toRow
  spooled : ∀ object ∈ p.shared.collector.spooled, object.event.critical = true
  dropped : ∀ entry ∈ p.shared.collector.dropped,
    entry.1.event.critical = false ∧ entry.2.full = true
  counted : p.shared.collector.droppedNonCritical = p.shared.collector.dropped.length
  bounded : 1 ≤ maxSize → (p.shared.collector.queue.items.length : Int) ≤ maxSize

/-- The places that do not belong to a call. -/
def sharedPlaces (w : AnalyticsWorld maxSize) : List (List EventObject) :=
  [w.collector.queue.items, w.collector.spooled, w.collector.dropped.map Prod.fst]

def callPlace (t : FlushThread) : List EventObject :=
  (flushProtocol.phase .idle t.calls).held ++ (flushProtocol.phase .idle t.calls).delivered

/-- The index of a place among all of them. -/
def Place.index : Place → Nat
  | queue => 0
  | spool => 1
  | dropped => 2
  | held thread => 3 + thread
  | flushed thread => 3 + thread

def allPlaces (p : Pool (AnalyticsWorld maxSize) FlushThread) : List (List EventObject) :=
  sharedPlaces p.shared ++ p.threads.map callPlace

theorem allPlaces_perm {p : Pool (AnalyticsWorld maxSize) FlushThread} {A : AnalyticsWorld maxSize → FlushThread → Prop}
    (h : System.Accounted (fun _ t => (flushProtocol.phase .idle t.calls).objects) Recorded A p) :
    (allPlaces p).flatten.Perm p.shared.collected := by
  have hcalls : (p.threads.map fun t => (flushProtocol.phase .idle t.calls).objects).sum =
      ↑(p.threads.map callPlace).flatten := by
    rw [← coe_flatten, List.map_map]
    rfl
  have hobjects := h.1.objects
  rw [hcalls] at hobjects
  rw [← Multiset.coe_eq_coe, ← hobjects, allPlaces, List.flatten_append, ← Multiset.coe_add]
  congr 1
  simp only [sharedPlaces, AnalyticsCollector.objects, List.flatten_cons, List.flatten_nil,
    List.append_nil, ← Multiset.coe_add, add_assoc]

theorem nodup_collected {w : AnalyticsWorld maxSize} {m : Multiset EventObject} (h : Recorded w m) :
    w.collected.Nodup := by
  apply List.Nodup.of_map EventObject.number
  rw [h.numbers]
  exact List.nodup_range

theorem allPlaces_call (p : Pool (AnalyticsWorld maxSize) FlushThread) (thread : Nat) :
    (allPlaces p)[3 + thread]? = p.threads[thread]?.map callPlace := by
  rw [allPlaces, List.getElem?_append_right (Nat.le_add_right 3 thread), List.getElem?_map]
  congr 2
  exact Nat.add_sub_cancel_left 3 thread

theorem mem_callPlace {p : Pool (AnalyticsWorld maxSize) FlushThread} {thread : Nat}
    {object : EventObject} {batch : FlushThread → List EventObject}
    (hbatch : ∀ t, ∀ object ∈ batch t, object ∈ callPlace t)
    (h : object ∈ (p.threads[thread]?.map batch).getD []) :
    ∃ items, (allPlaces p)[3 + thread]? = some items ∧ object ∈ items := by
  rw [allPlaces_call]
  cases hthread : p.threads[thread]? with
  | none =>
      rw [hthread] at h
      cases h
  | some t =>
      rw [hthread] at h
      exact ⟨callPlace t, rfl, hbatch t object h⟩

theorem heldBatch_subset (t : FlushThread) : ∀ object ∈ heldBatch t, object ∈ callPlace t := by
  intro object h
  unfold heldBatch at h
  split at h
  · exact List.mem_append_left _ h
  · cases h

theorem flushedBatch_subset (t : FlushThread) : ∀ object ∈ flushedBatch t, object ∈ callPlace t :=
  fun _ h => List.mem_append_right _ h

/-- The items of a place are in the list of its index. -/
theorem mem_index {p : Pool (AnalyticsWorld maxSize) FlushThread} {place : Place} {object : EventObject}
    (h : object ∈ eventsAt p place) :
    ∃ items, (allPlaces p)[place.index]? = some items ∧ object ∈ items := by
  cases place with
  | queue => exact ⟨_, rfl, h⟩
  | spool => exact ⟨_, rfl, h⟩
  | dropped => exact ⟨_, rfl, h⟩
  | held thread => exact mem_callPlace heldBatch_subset h
  | flushed thread => exact mem_callPlace flushedBatch_subset h

/-- A call does not hold a batch and have written one. -/
theorem not_held_and_flushed {t : FlushThread} {object other : EventObject} (h : object ∈ heldBatch t)
    (h' : other ∈ flushedBatch t) : False := by
  unfold heldBatch at h
  unfold flushedBatch at h'
  split at h
  · cases hphase : flushProtocol.phase .idle t.calls with
    | holding batch inserted => rw [hphase] at h'; cases h'
    | idle => rw [hphase] at h'; cases h'
    | flushed batch => rw [hphase] at h; cases h
    | finished => rw [hphase] at h'; cases h'
    | cancelled => rw [hphase] at h'; cases h'
  · cases h

theorem not_held_and_flushed_at {p : Pool (AnalyticsWorld maxSize) FlushThread} {thread : Nat}
    {object other : EventObject} (h : object ∈ eventsAt p (.held thread))
    (h' : other ∈ eventsAt p (.flushed thread)) : False := by
  simp only [eventsAt] at h h'
  cases hthread : p.threads[thread]? with
  | none =>
      rw [hthread] at h
      cases h
  | some t =>
      rw [hthread] at h h'
      exact not_held_and_flushed h h'

/-- An event is in one place at most. -/
theorem place_unique {p : Pool (AnalyticsWorld maxSize) FlushThread} (h : (allPlaces p).flatten.Nodup)
    {left right : Place} {object : EventObject} (hleft : object ∈ eventsAt p left)
    (hright : object ∈ eventsAt p right) : left = right := by
  obtain ⟨items, hitems, hmem⟩ := mem_index hleft
  obtain ⟨items', hitems', hmem'⟩ := mem_index hright
  have hindex : left.index = right.index := index_unique h hitems hitems' hmem hmem'
  cases left <;> cases right <;> simp only [Place.index] at hindex
  case queue.queue => rfl
  case spool.spool => rfl
  case dropped.dropped => rfl
  case held.held thread other => rw [Nat.add_left_cancel hindex]
  case flushed.flushed thread other => rw [Nat.add_left_cancel hindex]
  case held.flushed thread other =>
    obtain rfl := Nat.add_left_cancel hindex
    exact (not_held_and_flushed_at hleft hright).elim
  case flushed.held thread other =>
    obtain rfl := Nat.add_left_cancel hindex
    exact (not_held_and_flushed_at hright hleft).elim
  all_goals omega

/-- A call that holds a batch goes on, unless it is cancelled. -/
theorem held_of_running {w : AnalyticsWorld maxSize} {t : FlushThread} (hretries : 1 ≤ flusher.maxRetries)
    (h : Knows flushProtocol .idle (FlushDone flusher) Inserted w t) (hcrashed : t.crashed = false) :
    heldBatch t = (flushProtocol.phase .idle t.calls).held := by
  obtain ⟨calls, program, crashed⟩ := t
  obtain rfl : crashed = false := hcrashed
  cases program with
  | ret value => exact (h.2 hretries).symm
  | raise exc => exact (h.2 hretries).symm
  | call op next => rfl

/-- The insert of a batch that an event's row is part of. -/
theorem insertCalls_spec {batch : List EventObject} {object : EventObject} (h : object ∈ batch) :
    ∃ call ∈ insertCalls batch, call.table = object.table ∧
      call.columnNames = columnsForTable object.table ∧
      call.rows = (batch.filter fun other => other.table = object.table).map EventObject.toRow := by
  have hkey : object.table ∈
      (Grouping.group EventObject.table EventObject.toRow batch).map Prod.fst :=
    Grouping.key_mem_group.mpr ⟨object, h, rfl⟩
  obtain ⟨⟨table, rows⟩, hgroup, htable⟩ := List.mem_map.mp hkey
  obtain rfl : table = object.table := htable
  exact ⟨_, List.mem_map.mpr ⟨_, hgroup, rfl⟩, rfl, rfl, Grouping.values_of_mem_group hgroup⟩

theorem flushed_spec {w : AnalyticsWorld maxSize} {t : FlushThread}
    (h : Inserted w (flushProtocol.phase .idle t.calls)) {object : EventObject}
    (hobject : object ∈ flushedBatch t) :
    ∃ call ∈ w.inserts, call.table = object.table ∧ call.columnNames = columnsForTable object.table ∧
      call.rows = ((flushedBatch t).filter fun other =>
        other.table = object.table).map EventObject.toRow := by
  unfold flushedBatch at hobject ⊢
  cases hphase : flushProtocol.phase .idle t.calls with
  | flushed batch =>
      rw [hphase] at h hobject
      obtain ⟨call, hcall, hspec⟩ := insertCalls_spec hobject
      exact ⟨call, h.1 call hcall, hspec⟩
  | idle => rw [hphase] at hobject; cases hobject
  | holding batch inserted => rw [hphase] at hobject; cases hobject
  | finished => rw [hphase] at hobject; cases hobject
  | cancelled => rw [hphase] at hobject; cases hobject

/-- The list of an index is a place, when no call has been cancelled. -/
theorem place_of_mem {p : Pool (AnalyticsWorld maxSize) FlushThread}
    (hheld : ∀ t ∈ p.threads, heldBatch t = (flushProtocol.phase .idle t.calls).held)
    {object : EventObject} (h : object ∈ (allPlaces p).flatten) : ∃ place, object ∈ eventsAt p place := by
  rw [allPlaces, List.flatten_append, List.mem_append] at h
  rcases h with h | h
  · simp only [sharedPlaces, List.flatten_cons, List.flatten_nil, List.append_nil, List.mem_append] at h
    rcases h with h | h | h
    · exact ⟨.queue, h⟩
    · exact ⟨.spool, h⟩
    · exact ⟨.dropped, h⟩
  · obtain ⟨items, hitems, hmem⟩ := List.mem_flatten.mp h
    obtain ⟨t, ht, rfl⟩ := List.mem_map.mp hitems
    obtain ⟨thread, hthread⟩ := List.getElem?_of_mem ht
    rcases List.mem_append.mp hmem with hmem | hmem
    · refine ⟨.held thread, ?_⟩
      simp only [eventsAt, hthread]
      show object ∈ heldBatch t
      rw [hheld t ht]
      exact hmem
    · refine ⟨.flushed thread, ?_⟩
      simp only [eventsAt, hthread]
      exact hmem

theorem nodup_eventsAt {p : Pool (AnalyticsWorld maxSize) FlushThread} (h : (allPlaces p).flatten.Nodup)
    (place : Place) : (eventsAt p place).Nodup := by
  have hall : ∀ items ∈ allPlaces p, items.Nodup := (List.nodup_flatten.mp h).1
  have hcall : ∀ t ∈ p.threads, (callPlace t).Nodup := fun t ht =>
    hall _ (List.mem_append_right _ (List.mem_map_of_mem ht))
  have hbatch : ∀ (batch : FlushThread → List EventObject) (thread : Nat),
      (∀ t ∈ p.threads, (batch t).Nodup) → ((p.threads[thread]?.map batch).getD []).Nodup := by
    intro batch thread hnodup
    cases hthread : p.threads[thread]? with
    | none => exact List.nodup_nil
    | some t => exact hnodup t (List.mem_of_getElem? hthread)
  cases place with
  | queue => exact hall _ (List.mem_append_left _ (by simp [sharedPlaces, eventsAt]))
  | spool => exact hall _ (List.mem_append_left _ (by simp [sharedPlaces, eventsAt]))
  | dropped => exact hall _ (List.mem_append_left _ (by simp [sharedPlaces, eventsAt]))
  | held thread =>
      apply hbatch heldBatch thread
      intro t ht
      unfold heldBatch
      split
      · exact (List.nodup_append.mp (hcall t ht)).1
      · exact List.nodup_nil
  | flushed thread =>
      apply hbatch flushedBatch thread
      intro t ht
      exact (List.nodup_append.mp (hcall t ht)).2.1

/-- **No event is lost.** -/
theorem analytics_conserved (hretries : 1 ≤ flusher.maxRetries)
    {p : Pool (AnalyticsWorld maxSize) FlushThread}
    (h : (analyticsSystem maxSize flusher fun _ => True).Reachable .start p)
    (hcancelled : ∀ t ∈ p.threads, t.crashed = false) : Conserved p := by
  have haccounted := analytics_recorded h
  have hperm := allPlaces_perm haccounted
  have hnodup : (allPlaces p).flatten.Nodup := hperm.nodup_iff.mpr (nodup_collected haccounted.1)
  have hheld : ∀ t ∈ p.threads, heldBatch t = (flushProtocol.phase .idle t.calls).held :=
    fun t ht => held_of_running hretries (haccounted.2 t ht) (hcancelled t ht)
  refine {
    place := ?_
    once := nodup_eventsAt hnodup
    collected := ?_
    flushed := ?_
    spooled := haccounted.1.sorted.spooled
    dropped := haccounted.1.sorted.dropped
    counted := haccounted.1.sorted.counted
    bounded := fun hbound => p.shared.collector.queue.bounded (by omega) }
  · intro object hobject
    obtain ⟨place, hplace⟩ := place_of_mem hheld (hperm.mem_iff.mpr hobject)
    exact ⟨place, hplace, fun other hother => place_unique hnodup hother hplace⟩
  · intro place object hobject
    obtain ⟨items, hitems, hmem⟩ := mem_index hobject
    exact hperm.mem_iff.mp (List.mem_flatten.mpr ⟨items, List.mem_of_getElem? hitems, hmem⟩)
  · intro thread object hobject
    simp only [eventsAt] at hobject ⊢
    cases hthread : p.threads[thread]? with
    | none =>
        rw [hthread] at hobject
        cases hobject
    | some t =>
        rw [hthread] at hobject
        exact flushed_spec (haccounted.2 t (List.mem_of_getElem? hthread)).1 hobject

/-- Two events, one in each table. -/
def plainUsage : AnalyticsEvent :=
  .usage 0 ⟨"req", "user", "project", "key", "model", .completed, 3, 4, 7, some 12, none, false⟩

def plainInference : AnalyticsEvent :=
  .inference 0 ⟨"req", "started", "user", "project", "key", "model", "accepted", none, none, false⟩

def plainFlusher : ClickHouseFlusher := ⟨10, 2⟩

theorem reachable_collected (event : AnalyticsEvent) {w : AnalyticsWorld maxSize}
    {threads : List FlushThread}
    (h : (analyticsSystem maxSize flusher fails).Reachable .start ⟨w, threads⟩) :
    (analyticsSystem maxSize flusher fails).Reachable .start ⟨w.collect event, threads ++
      [⟨[⟨FlushOp.collect event, .ok (w.collector.collect (w.object event)).1⟩],
        .ret (w.collector.collect (w.object event)).1, false⟩]⟩ :=
  reachable_call threads [] (reachable_start h (AnalyticsRuns.collect event)) ⟨rfl, rfl⟩

/-- The batch that a flush of both events drains. -/
def plainBatch : List EventObject := [⟨0, plainUsage⟩, ⟨1, plainInference⟩]

/-- Both events have been collected and then drained. -/
def drainedWorld : AnalyticsWorld 10 :=
  let w := (AnalyticsWorld.collect .start plainUsage).collect plainInference
  { w with collector := (w.collector.drainBatch 10).2 }

theorem reachable_drained (fails : Nat → Prop) : ∃ left,
    (∀ t ∈ left, t.crashed = false) ∧
    (analyticsSystem 10 plainFlusher fails).Reachable .start ⟨drainedWorld, left ++
      [⟨[⟨.drainBatch 10, .ok plainBatch⟩],
        .tryExcept PyExc.isException
          ((plainFlusher.insertWithRetry plainBatch).bind fun _ => .ret true) fun _ =>
            (Program.perform (.recordFailure 2 (sortedTables plainBatch))).bind fun _ =>
              (Program.perform (.requeueFront plainBatch)).bind fun _ => .ret false, false⟩]⟩ := by
  have h : (analyticsSystem 10 plainFlusher fails).Reachable .start ⟨.start, []⟩ :=
    Relation.ReflTransGen.refl
  have h := reachable_collected plainUsage h
  have h := reachable_collected plainInference h
  have h := reachable_start h AnalyticsRuns.flushOnce
  have h := reachable_call _ [] h (show flushExec 10 fails (.drainBatch 10) _ (.ok plainBatch)
    drainedWorld from ⟨rfl, rfl⟩)
  exact ⟨_, by simp, h⟩

/-- Two events that a flush holds. -/
theorem analytics_conserved_drained : ∃ p : Pool (AnalyticsWorld 10) FlushThread,
    p.shared = drainedWorld ∧ Conserved p := by
  obtain ⟨left, hleft, h⟩ := reachable_drained fun _ => True
  refine ⟨_, rfl, analytics_conserved (by decide) h ?_⟩
  intro t ht
  rcases List.mem_append.mp ht with ht | ht
  · exact hleft t ht
  · rw [List.mem_singleton.mp ht]

/-- Every event's row has been inserted at most once. -/
def AtMostOnce (w : AnalyticsWorld maxSize) : Prop := (w.insertedRows.map Row.number).Nodup

/-- The rows in ClickHouse are those that the calls know of. -/
def RowsKnown (w : AnalyticsWorld maxSize) (m : Multiset Row) : Prop := ↑w.insertedRows = m

theorem rowsKnown_start : RowsKnown (.start : AnalyticsWorld maxSize) 0 := rfl

theorem FlushStep.rows (hfails : ∀ position, fails position → position = 0) {φ ψ : FlushPhase}
    {w w' : AnalyticsWorld maxSize} (hstep : FlushStep fails φ w ψ w') {m : Multiset Row}
    (h : RowsKnown w (φ.rows + m)) : RowsKnown w' (ψ.rows + m) := by
  cases hstep with
  | collect event => exact h
  | drain batchSize =>
      rw [FlushPhase.rows, FlushPhase.calls_drained]
      exact h
  | @insert w batch inserted call hcall =>
      have hrows : (w.insertedRows : Multiset Row) =
          ↑(((insertCalls batch).take inserted).flatMap InsertCall.rows) + m := h
      rw [RowsKnown, AnalyticsWorld.insertedRows, FlushPhase.rows, FlushPhase.calls_insertedOne,
        List.take_add_one, hcall, List.flatMap_append, List.flatMap_append, ← Multiset.coe_add,
        ← Multiset.coe_add]
      rw [AnalyticsWorld.insertedRows] at hrows
      rw [hrows]
      simp only [Option.toList_some]
      abel
  | fail hposition =>
      obtain rfl := hfails _ hposition
      exact h
  | wait => exact h
  | record flushFailures => exact h
  | requeue => exact h

theorem flush_rows (hfails : ∀ position, fails position → position = 0) :
    Justified (flushExec maxSize fails) flushProtocol .idle FlushPhase.rows RowsKnown Inserted where
  start := ⟨rfl, inserted_idle⟩
  call φ op w answer w' m hR hinserted hmay hexec := by
    have hstep := flushStep_of_exec hinserted.2 hmay hexec
    exact ⟨hstep.rows hfails hR, hstep.inserted hinserted⟩
  frame φ ψ op w answer w' m hR hφ hψ hmay hexec := by
    have hstep := flushStep_of_exec hφ.2 hmay hexec
    exact ⟨fun call hcall => hstep.inserts (hψ.1 call hcall), hψ.2⟩

/-- The inserts of a batch are the rows of its events. -/
theorem rows_insertCalls (batch : List EventObject) :
    ((insertCalls batch).flatMap InsertCall.rows).Perm (batch.map EventObject.toRow) := by
  rw [insertCalls, List.flatMap_map]
  exact Grouping.values_group EventObject.table EventObject.toRow batch

theorem rows_le_objects (φ : FlushPhase) : φ.rows ≤ φ.objects.map EventObject.toRow := by
  cases φ with
  | idle => exact le_refl _
  | holding batch inserted =>
      rw [FlushPhase.objects_holding, Multiset.map_coe, FlushPhase.rows, Multiset.coe_le]
      have htaken := (List.take_sublist inserted (insertCalls batch)).flatMap InsertCall.rows
      exact htaken.subperm.trans (rows_insertCalls batch).subperm
  | flushed batch =>
      rw [FlushPhase.objects, Multiset.map_add, FlushPhase.rows]
      refine le_trans ?_ (Multiset.le_add_left _ _)
      rw [Multiset.map_coe, Multiset.coe_le]
      exact (rows_insertCalls batch).subperm
  | finished => exact le_refl _
  | cancelled => exact le_refl _

theorem sum_rows_le (threads : List FlushThread) :
    (threads.map fun t => (flushProtocol.phase .idle t.calls).rows).sum ≤
      (threads.map fun t => (flushProtocol.phase .idle t.calls).objects).sum.map EventObject.toRow := by
  induction threads with
  | nil => exact le_refl _
  | cons t threads ih =>
      rw [List.map_cons, List.sum_cons, List.map_cons, List.sum_cons, Multiset.map_add]
      exact add_le_add (rows_le_objects _) ih

/-- **No row is inserted twice.** An insert fails only as the first of its attempt. -/
theorem rows_at_most_once {p : Pool (AnalyticsWorld maxSize) FlushThread}
    (h : (analyticsSystem maxSize flusher fun position => position = 0).Reachable .start p) :
    AtMostOnce p.shared := by
  have hrecorded := (analytics_recorded h).1
  have hrows : RowsKnown p.shared _ :=
    (((flush_rows fun _ => id).accounts fun _ => follows_analytics flusher).reachable rowsKnown_start h).1
  have hle : (p.shared.insertedRows : Multiset Row) ≤ ↑(p.shared.collected.map EventObject.toRow) := by
    calc (p.shared.insertedRows : Multiset Row)
        ≤ _ := hrows ▸ sum_rows_le p.threads
      _ ≤ (p.shared.collected : Multiset EventObject).map EventObject.toRow := by
          rw [← hrecorded.objects]
          exact Multiset.map_le_map (Multiset.le_add_left _ _)
      _ = ↑(p.shared.collected.map EventObject.toRow) := Multiset.map_coe _ _
  have hnumbers : (p.shared.collected.map EventObject.toRow).map Row.number =
      List.range p.shared.collected.length := by
    rw [List.map_map]
    exact hrecorded.numbers
  have hnodup : (↑(p.shared.insertedRows.map Row.number) : Multiset Nat).Nodup := by
    rw [← Multiset.map_coe]
    refine Multiset.nodup_of_le (Multiset.map_le_map hle) ?_
    rw [Multiset.map_coe, hnumbers]
    exact List.nodup_range
  exact hnodup

/-- The inserts of the two tables of `plainBatch`. -/
def usageInsert : InsertCall := ⟨.usageEvents, [⟨0, plainUsage.toRow⟩], usageEventColumns⟩

def inferenceInsert : InsertCall := ⟨.inferenceEvents, [⟨1, plainInference.toRow⟩], inferenceEventColumns⟩

/-- The first insert fails, the batch is tried again, and both tables are written. -/
theorem rows_at_most_once_retried : ∃ p : Pool (AnalyticsWorld 10) FlushThread,
    (∃ t ∈ p.threads, ⟨.insert 0 usageInsert, .error valueError⟩ ∈ t.calls) ∧
      p.shared.inserts = [usageInsert, inferenceInsert] ∧ AtMostOnce p.shared := by
  let first (position : Nat) : Prop := position = 0
  let exec := flushExec 10 first
  let half : AnalyticsWorld 10 := { drainedWorld with inserts := [usageInsert] }
  let written : AnalyticsWorld 10 := { drainedWorld with inserts := [usageInsert, inferenceInsert] }
  obtain ⟨left, -, h⟩ := reachable_drained first
  have h := reachable_call left [] h
    (show exec (.insert 0 usageInsert) drainedWorld (.error valueError) drainedWorld from
      .inr ⟨valueError, rfl, rfl, rfl, rfl⟩)
  have h := reachable_call left [] h (show exec (.sleep 1) drainedWorld (.ok ()) drainedWorld from ⟨rfl, rfl⟩)
  have h := reachable_call left [] h
    (show exec (.insert 0 usageInsert) drainedWorld (.ok ()) half from .inl ⟨rfl, rfl⟩)
  have h := reachable_call left [] h
    (show exec (.insert 1 inferenceInsert) half (.ok ()) written from .inl ⟨rfl, rfl⟩)
  refine ⟨_, ⟨_, List.mem_append_right _ (List.mem_singleton_self _), ?_⟩, rfl, rows_at_most_once h⟩
  exact .tail _ (.head _)

/-- The first table is written, the second one fails, and both are tried again. -/
theorem rows_inserted_twice : ¬ ∀ (maxSize : Int) (flusher : ClickHouseFlusher)
    (p : Pool (AnalyticsWorld maxSize) FlushThread),
    (analyticsSystem maxSize flusher fun _ => True).Reachable .start p → AtMostOnce p.shared := by
  intro h
  obtain ⟨left, -, hreach⟩ := reachable_drained fun _ => True
  let exec := flushExec 10 fun _ => True
  let written : AnalyticsWorld 10 := { drainedWorld with inserts := [usageInsert] }
  let twice : AnalyticsWorld 10 := { drainedWorld with inserts := [usageInsert, usageInsert] }
  have hreach := reachable_call left [] hreach
    (show exec (.insert 0 usageInsert) drainedWorld (.ok ()) written from .inl ⟨rfl, rfl⟩)
  have hreach := reachable_call left [] hreach
    (show exec (.insert 1 inferenceInsert) written (.error valueError) written from
      .inr ⟨valueError, rfl, trivial, rfl, rfl⟩)
  have hreach := reachable_call left [] hreach
    (show exec (.sleep 1) written (.ok ()) written from ⟨rfl, rfl⟩)
  have hreach := reachable_call left [] hreach
    (show exec (.insert 0 usageInsert) written (.ok ()) twice from .inl ⟨rfl, rfl⟩)
  have honce : ([0, 0] : List Nat).Nodup := h 10 plainFlusher _ hreach
  exact absurd honce (by decide)

end GpuInference
