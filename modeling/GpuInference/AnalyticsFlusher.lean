import GpuInference.AnalyticsCollector
import GpuInference.EffectProtocol

/-!
The flusher that writes analytics events to ClickHouse. A batch is drained from the collector, inserted
table by table, retried as a whole after a failure, and put back into the queue when the last attempt has
failed too. Everything it calls is a call of the program, so that events are collected and other
batches flushed in between.
-/

open Effect

namespace GpuInference

/-- The arguments of `client.insert`. -/
structure InsertCall where
  table : AnalyticsTable
  rows : List Row
  columnNames : List String
  deriving DecidableEq, Repr

/-- What the collector and the flusher call. `insert` carries how many tables its attempt has written
before; the delay of `sleep` is in tenths of a second. -/
inductive FlushOp where
  | collect (event : AnalyticsEvent)
  | drainBatch (batchSize : Int)
  | insert (position : Nat) (call : InsertCall)
  | sleep (delay : Nat)
  | recordFailure (eventCount : Nat) (tables : List AnalyticsTable)
  | requeueFront (objects : List EventObject)
  deriving DecidableEq

abbrev FlushOp.Res : FlushOp → Type
  | collect _ => Bool
  | drainBatch _ => List EventObject
  | insert _ _ => Unit
  | sleep _ => Unit
  | recordFailure _ _ => Unit
  | requeueFront _ => Unit

abbrev FlushProgram := Program FlushOp FlushOp.Res PyExc

abbrev FlushThread := Thread FlushOp FlushOp.Res PyExc Bool

/-- The inserts of a batch: one for each table, with its rows in the order of the batch. -/
def insertCalls (events : List EventObject) : List InsertCall :=
  (Grouping.group EventObject.table EventObject.toRow events).map fun group =>
    ⟨group.1, group.2, columnsForTable group.1⟩

/-- `sorted({event.table for event in events})`. -/
def sortedTables (events : List EventObject) : List AnalyticsTable :=
  [AnalyticsTable.inferenceEvents, .usageEvents].filter fun table => table ∈ events.map EventObject.table

structure ClickHouseFlusher where
  batchSize : Int
  maxRetries : Int
  deriving DecidableEq, Repr

namespace ClickHouseFlusher

/-- The loop of `_insert`. -/
def insertFrom (position : Nat) : List InsertCall → FlushProgram Unit
  | [] => .ret ()
  | call :: calls => (Program.perform (.insert position call)).bind fun _ => insertFrom (position + 1) calls

def insert (events : List EventObject) : FlushProgram Unit := insertFrom 0 (insertCalls events)

/-- The loop of `_insert_with_retry`, with the attempts that are left. -/
def insertAttempts (self : ClickHouseFlusher) (events : List EventObject) (attempt : Int) (delay : Nat) :
    Nat → FlushProgram Unit
  | 0 => .ret ()
  | left + 1 => .tryExcept PyExc.isException (insert events) fun exc =>
      if attempt = self.maxRetries - 1 then .raise exc
      else (Program.perform (.sleep delay)).bind fun _ =>
        self.insertAttempts events (attempt + 1) (delay * 2) left

def insertWithRetry (self : ClickHouseFlusher) (events : List EventObject) : FlushProgram Unit :=
  self.insertAttempts events 0 1 self.maxRetries.toNat

def flushOnce (self : ClickHouseFlusher) : FlushProgram Bool :=
  (Program.perform (.drainBatch self.batchSize)).bind fun events =>
    if events = [] then .ret true
    else .tryExcept PyExc.isException ((self.insertWithRetry events).bind fun _ => .ret true) fun _ =>
      (Program.perform (.recordFailure events.length (sortedTables events))).bind fun _ =>
        (Program.perform (.requeueFront events)).bind fun _ => .ret false

end ClickHouseFlusher

/-- The memory of a process and the inserts ClickHouse has taken from it. The objects that were collected
are kept for the record. -/
structure AnalyticsWorld (maxSize : Int) where
  collector : AnalyticsCollector maxSize
  collected : List EventObject
  inserts : List InsertCall
  flushFailures : Nat

namespace AnalyticsWorld

variable {maxSize : Int}

def start : AnalyticsWorld maxSize where
  collector := .start
  collected := []
  inserts := []
  flushFailures := 0

/-- The next event object. -/
def object (w : AnalyticsWorld maxSize) (event : AnalyticsEvent) : EventObject :=
  ⟨w.collected.length, event⟩

def collect (w : AnalyticsWorld maxSize) (event : AnalyticsEvent) : AnalyticsWorld maxSize :=
  { w with
    collector := (w.collector.collect (w.object event)).2
    collected := w.collected ++ [w.object event] }

/-- The rows that ClickHouse has, with repetitions. -/
def insertedRows (w : AnalyticsWorld maxSize) : List Row := w.inserts.flatMap InsertCall.rows

end AnalyticsWorld

/-- What each call does to the process. An insert may fail where `fails` allows it, having written
nothing; nothing else fails. -/
def flushExec (maxSize : Int) (fails : Nat → Prop) :
    Exec FlushOp FlushOp.Res PyExc (AnalyticsWorld maxSize)
  | .collect event, w, answer, w' =>
      answer = .ok (w.collector.collect (w.object event)).1 ∧ w' = w.collect event
  | .drainBatch batchSize, w, answer, w' =>
      answer = .ok (w.collector.drainBatch batchSize).1 ∧
        w' = { w with collector := (w.collector.drainBatch batchSize).2 }
  | .insert position call, w, answer, w' =>
      (answer = .ok () ∧ w' = { w with inserts := w.inserts ++ [call] }) ∨
        ∃ exc : PyExc, exc.isException = true ∧ fails position ∧ answer = .error exc ∧ w' = w
  | .sleep _, w, answer, w' => answer = .ok () ∧ w' = w
  | .recordFailure _ _, w, answer, w' =>
      answer = .ok () ∧ w' = { w with flushFailures := w.flushFailures + 1 }
  | .requeueFront objects, w, answer, w' =>
      answer = .ok () ∧ w' = { w with collector := w.collector.requeueFront objects }

/-- Events are collected one call at a time, and batches are flushed. -/
inductive AnalyticsRuns (flusher : ClickHouseFlusher) : FlushProgram Bool → Prop
  | collect (event : AnalyticsEvent) : AnalyticsRuns flusher (Program.perform (FlushOp.collect event))
  | flushOnce : AnalyticsRuns flusher flusher.flushOnce

/-- Any number of calls of `collect` and of `flush_once` on one collector. -/
def analyticsSystem (maxSize : Int) (flusher : ClickHouseFlusher) (fails : Nat → Prop) :
    System (AnalyticsWorld maxSize) FlushThread :=
  callSystem (flushExec maxSize fails) (AnalyticsRuns flusher)

/-- Where a call of `flush_once` stands: the batch it holds with the number of tables the attempt has
written, or the batch it has written. A task is `cancelled` by an answer that no other task gets. -/
inductive FlushPhase where
  | idle
  | holding (batch : List EventObject) (inserted : Nat)
  | flushed (batch : List EventObject)
  | finished
  | cancelled

namespace FlushPhase

def drained : List EventObject → FlushPhase
  | [] => finished
  | object :: objects => holding (object :: objects) 0

def insertedOne (batch : List EventObject) (inserted : Nat) : FlushPhase :=
  if inserted + 1 = (insertCalls batch).length then flushed batch else holding batch (inserted + 1)

/-- The batch of a flush that still has it to write. -/
def held : FlushPhase → List EventObject
  | holding batch _ => batch
  | _ => []

/-- The batch of a flush that has written it. -/
def delivered : FlushPhase → List EventObject
  | flushed batch => batch
  | _ => []

/-- The inserts of the last attempt that have succeeded. -/
def calls : FlushPhase → List InsertCall
  | holding batch inserted => (insertCalls batch).take inserted
  | flushed batch => insertCalls batch
  | _ => []

end FlushPhase

def flushProtocol : Protocol FlushOp FlushOp.Res PyExc FlushPhase where
  may
    | .idle, .collect _ => True
    | .idle, .drainBatch _ => True
    | .holding batch inserted, .insert position call =>
        position = inserted ∧ (insertCalls batch)[inserted]? = some call
    | .holding _ inserted, .sleep _ => inserted = 0
    | .holding _ inserted, .recordFailure _ _ => inserted = 0
    | .holding batch inserted, .requeueFront objects => objects = batch ∧ inserted = 0
    | .cancelled, _ => True
    | _, _ => False
  after
    | .idle, .collect _, .ok _ => .finished
    | .idle, .drainBatch _, .ok objects => .drained objects
    | .holding batch inserted, .insert _ _, .ok _ => .insertedOne batch inserted
    | .holding batch _, .insert _ _, .error exc =>
        if exc.isException then .holding batch 0 else .cancelled
    | .holding _ _, .requeueFront _, .ok _ => .finished
    | φ, _, .ok _ => φ
    | _, _, .error _ => .cancelled

theorem follows_cancelled {α : Type} {done : FlushPhase → Except PyExc α → Prop}
    (hdone : ∀ outcome, done .cancelled outcome) (body : FlushProgram α) :
    body.Follows flushProtocol done .cancelled := by
  refine Program.follows_of_stays ?_ ?_ hdone body
  · intro op
    cases op <;> exact trivial
  · intro op answer
    cases answer with
    | ok value => cases op <;> rfl
    | error exc => cases op <;> rfl

theorem insertCalls_ne_nil {batch : List EventObject} (h : batch ≠ []) : insertCalls batch ≠ [] := by
  obtain ⟨object, hobject⟩ := List.exists_mem_of_ne_nil batch h
  have hkey : object.table ∈
      (Grouping.group EventObject.table EventObject.toRow batch).map Prod.fst :=
    Grouping.key_mem_group.mpr ⟨object, hobject, rfl⟩
  intro hnil
  rw [insertCalls, List.map_eq_nil_iff] at hnil
  rw [hnil] at hkey
  cases hkey

/-- How one attempt ends: the batch is written, or nothing counts as written. -/
def AttemptDone (batch : List EventObject) (φ : FlushPhase) : Except PyExc Unit → Prop
  | .ok _ => φ = .flushed batch ∨ φ = .cancelled
  | .error exc => (φ = .holding batch 0 ∧ exc.isException = true) ∨ φ = .cancelled

theorem attemptDone_cancelled (batch : List EventObject) (outcome : Except PyExc Unit) :
    AttemptDone batch .cancelled outcome := by
  cases outcome with
  | ok value => exact .inr rfl
  | error exc => exact .inr rfl

theorem follows_insertFrom {batch : List EventObject} {calls : List InsertCall} (hcalls : calls ≠ [])
    (position : Nat) (h : (insertCalls batch).drop position = calls) :
    (ClickHouseFlusher.insertFrom position calls).Follows flushProtocol (AttemptDone batch)
      (.holding batch position) := by
  induction calls generalizing position with
  | nil => exact absurd rfl hcalls
  | cons call rest ih =>
      have hget : (insertCalls batch)[position]? = some call := by
        rw [← List.head?_drop, h]
        rfl
      have hlength : (insertCalls batch).length = position + (rest.length + 1) := by
        have hdrop := congrArg List.length h
        rw [List.length_drop, List.length_cons] at hdrop
        omega
      refine Program.follows_perform_bind ⟨rfl, hget⟩ ?_ ?_
      · intro exc
        show AttemptDone batch (if exc.isException then .holding batch 0 else .cancelled) (.error exc)
        split
        · rename_i hexc
          exact .inl ⟨rfl, hexc⟩
        · exact .inr rfl
      · intro value
        show (ClickHouseFlusher.insertFrom (position + 1) rest).Follows flushProtocol (AttemptDone batch)
          (.insertedOne batch position)
        cases rest with
        | nil =>
            rw [FlushPhase.insertedOne, if_pos (by rw [hlength]; rfl)]
            exact .inl rfl
        | cons next rest =>
            rw [FlushPhase.insertedOne, if_neg (by rw [hlength, List.length_cons]; omega)]
            refine ih (List.cons_ne_nil _ _) (position + 1) ?_
            rw [← List.drop_drop, h]
            rfl

theorem follows_insert {batch : List EventObject} (h : batch ≠ []) :
    (ClickHouseFlusher.insert batch).Follows flushProtocol (AttemptDone batch) (.holding batch 0) :=
  follows_insertFrom (insertCalls_ne_nil h) 0 List.drop_zero

/-- With an attempt left, the batch is written or the last failure is raised. -/
theorem follows_insertAttempts (self : ClickHouseFlusher) {batch : List EventObject} (h : batch ≠ [])
    (attempt : Int) (delay left : Nat) (hleft : attempt + (left + 1 : Nat) = self.maxRetries) :
    (self.insertAttempts batch attempt delay (left + 1)).Follows flushProtocol (AttemptDone batch)
      (.holding batch 0) := by
  induction left generalizing attempt delay with
  | zero =>
      have hlast : attempt = self.maxRetries - 1 := by omega
      rw [ClickHouseFlusher.insertAttempts, Program.follows_tryExcept]
      refine (follows_insert h).mono ?_
      intro φ outcome hdone
      cases outcome with
      | ok value => exact hdone
      | error exc =>
          simp only [Program.exceptDone, if_pos hlast, Program.follows_raise, ite_self]
          exact hdone
  | succ left ih =>
      have hmore : attempt ≠ self.maxRetries - 1 := by omega
      rw [ClickHouseFlusher.insertAttempts, Program.follows_tryExcept]
      refine (follows_insert h).mono ?_
      intro φ outcome hdone
      cases outcome with
      | ok value => exact hdone
      | error exc =>
          simp only [Program.exceptDone, if_neg hmore]
          rcases hdone with ⟨rfl, hexc⟩ | rfl
          · rw [if_pos hexc]
            refine Program.follows_perform_bind rfl (fun exc => .inr rfl) ?_
            intro value
            exact ih (attempt + 1) (delay * 2) (by omega)
          · split
            · exact follows_cancelled (attemptDone_cancelled batch) _
            · exact .inr rfl

theorem follows_insertWithRetry {self : ClickHouseFlusher} (hretries : 1 ≤ self.maxRetries)
    {batch : List EventObject} (h : batch ≠ []) :
    (self.insertWithRetry batch).Follows flushProtocol (AttemptDone batch) (.holding batch 0) := by
  obtain ⟨left, hleft⟩ : ∃ left, self.maxRetries.toNat = left + 1 :=
    ⟨self.maxRetries.toNat - 1, by omega⟩
  rw [ClickHouseFlusher.insertWithRetry, hleft]
  exact follows_insertAttempts self h 0 1 left (by omega)

/-- At its end a flush that makes at least one attempt holds no batch. -/
def FlushDone (self : ClickHouseFlusher) (φ : FlushPhase) (_ : Except PyExc Bool) : Prop :=
  1 ≤ self.maxRetries → φ.held = []

theorem follows_flushOnce (self : ClickHouseFlusher) :
    self.flushOnce.Follows flushProtocol (FlushDone self) .idle := by
  refine Program.follows_perform_bind trivial (fun exc _ => rfl) ?_
  intro events
  cases events with
  | nil => exact fun _ => rfl
  | cons object objects =>
      rw [if_neg (List.cons_ne_nil _ _)]
      by_cases hretries : 1 ≤ self.maxRetries
      · rw [Program.follows_tryExcept, Program.follows_bind]
        refine (follows_insertWithRetry hretries (List.cons_ne_nil _ _)).mono ?_
        intro φ outcome hdone
        cases outcome with
        | ok value =>
            rcases hdone with rfl | rfl
            · exact fun _ => rfl
            · exact fun _ => rfl
        | error exc =>
            simp only [Program.seqDone, Program.exceptDone]
            rcases hdone with ⟨rfl, hexc⟩ | rfl
            · rw [if_pos hexc]
              refine Program.follows_perform_bind rfl (fun exc _ => rfl) ?_
              intro value
              refine Program.follows_perform_bind ⟨rfl, rfl⟩ (fun exc _ => rfl) ?_
              intro value
              exact fun _ => rfl
            · split
              · exact follows_cancelled (fun outcome _ => rfl) _
              · exact fun _ => rfl
      · have hnone : self.maxRetries.toNat = 0 := by omega
        rw [ClickHouseFlusher.insertWithRetry, hnone]
        exact fun hsome => absurd hsome hretries

theorem follows_analytics (flusher : ClickHouseFlusher) {program : FlushProgram Bool}
    (h : AnalyticsRuns flusher program) :
    program.Follows flushProtocol (FlushDone flusher) .idle := by
  cases h with
  | collect event =>
      refine ⟨trivial, ?_⟩
      intro answer
      cases answer with
      | ok value => exact fun _ => rfl
      | error exc => exact fun _ => rfl
  | flushOnce => exact follows_flushOnce flusher

end GpuInference
