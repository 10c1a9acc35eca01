import GpuInference.EffectCooperative
import GpuInference.RequeueOrder

/-!
Stopping the flusher. `run_forever` and `stop` are tasks of one event loop: a flush gives way only in its
sleep, and `run_forever` also while it waits for the interval. `stop` makes one flush of its own, and
`run_forever` makes none after it, so a queue that is longer than one batch is not emptied.
-/

open Effect

namespace GpuInference

variable {maxSize : Int}

/-- The only call of a flush that lets another task run. -/
def Awaits : FlushOp → Prop
  | .sleep _ => True
  | _ => False

/-- Where `run_forever` stands. A flush that sleeps is kept with the batch it has drained. -/
inductive LoopPoint where
  /-- before `while not self._stopped.is_set()` -/
  | test
  | flush (batch : List EventObject) (rest : FlushProgram Bool)
  /-- in `asyncio.wait_for(self._stopped.wait(), ...)` -/
  | wait
  | returned
  | raised (exc : PyExc)

namespace LoopPoint

def afterFlush (batch : List EventObject) : FlushProgram Bool → LoopPoint
  | .ret _ => wait
  | .raise exc => raised exc
  | .call op next => flush batch (.call op next)

/-- The events in flight. -/
def held : LoopPoint → List EventObject
  | flush batch _ => batch
  | _ => []

end LoopPoint

/-- Where the call of `stop` stands. -/
inductive StopPoint where
  | uncalled
  | flush (rest : FlushProgram Bool)
  | returned
  | raised (exc : PyExc)

namespace StopPoint

def afterFlush : FlushProgram Bool → StopPoint
  | .ret _ => returned
  | .raise exc => raised exc
  | .call op next => flush (.call op next)

end StopPoint

/-- The two tasks, the process they share and `_stopped`. -/
structure FlusherTasks (maxSize : Int) where
  world : AnalyticsWorld maxSize
  stopped : Bool
  loop : LoopPoint
  stop : StopPoint

namespace FlusherTasks

/-- A process with any events in its queue. -/
def start (world : AnalyticsWorld maxSize) : FlusherTasks maxSize := ⟨world, false, .test, .uncalled⟩

/-- An insert may fail until `stop` is called. -/
def exec (s : FlusherTasks maxSize) : Exec FlushOp FlushOp.Res PyExc (AnalyticsWorld maxSize) :=
  flushExec maxSize fun _ => s.stopped = false

/-- What a task does from one await to the next. -/
inductive Step (flusher : ClickHouseFlusher) : FlusherTasks maxSize → FlusherTasks maxSize → Prop
  | collect {s : FlusherTasks maxSize} (event : AnalyticsEvent) (h : s.stopped = false) :
      Step flusher s { s with world := s.world.collect event }
  | begin {s : FlusherTasks maxSize} {rest : FlushProgram Bool} {world : AnalyticsWorld maxSize}
      (hpoint : s.loop = .test) (hopen : s.stopped = false)
      (h : flusher.flushOnce.Section s.exec Awaits s.world rest world) :
      Step flusher s { s with
        world := world
        loop := .afterFlush (s.world.collector.drainBatch flusher.batchSize).1 rest }
  | leave {s : FlusherTasks maxSize} (hpoint : s.loop = .test) (hstopped : s.stopped = true) :
      Step flusher s { s with loop := .returned }
  | resume {s : FlusherTasks maxSize} {batch : List EventObject} {op : FlushOp}
      {next : Except PyExc op.Res → FlushProgram Bool} {answer : Except PyExc op.Res} {rest : FlushProgram Bool}
      {middle world : AnalyticsWorld maxSize} (hpoint : s.loop = .flush batch (.call op next))
      (hanswer : s.exec op s.world answer middle) (h : (next answer).Section s.exec Awaits middle rest world) :
      Step flusher s { s with world := world, loop := .afterFlush batch rest }
  -- `_stopped` is set, or the interval is over
  | wake {s : FlusherTasks maxSize} (hpoint : s.loop = .wait) : Step flusher s { s with loop := .test }
  | resumeStop {s : FlusherTasks maxSize} {op : FlushOp} {next : Except PyExc op.Res → FlushProgram Bool}
      {answer : Except PyExc op.Res} {rest : FlushProgram Bool} {middle world : AnalyticsWorld maxSize}
      (hpoint : s.stop = .flush (.call op next)) (hanswer : s.exec op s.world answer middle)
      (h : (next answer).Section s.exec Awaits middle rest world) :
      Step flusher s { s with world := world, stop := .afterFlush rest }

/-- The call of `stop`: the event is set, and its flush runs to its first await. -/
inductive StopCalled (flusher : ClickHouseFlusher) (s : FlusherTasks maxSize) : FlusherTasks maxSize → Prop
  | intro {rest : FlushProgram Bool} {world : AnalyticsWorld maxSize} (huncalled : s.stop = .uncalled)
      (h : flusher.flushOnce.Section { s with stopped := true }.exec Awaits s.world rest world) :
      StopCalled flusher s { s with world := world, stopped := true, stop := .afterFlush rest }

/-- The queue is empty, and everything that was queued or in flight has been inserted. -/
def Drained (before after : FlusherTasks maxSize) : Prop :=
  after.world.collector.queue.items = [] ∧
    ∀ object ∈ before.world.collector.queue.items ++ before.loop.held, object.toRow ∈ after.world.insertedRows

end FlusherTasks

namespace ClickHouseFlusher

/-- The rest of a flush around its attempts. -/
def flushTry (events : List EventObject) (attempts : FlushProgram Unit) : FlushProgram Bool :=
  .tryExcept PyExc.isException (attempts.bind fun _ => .ret true) fun _ =>
    (Program.perform (.recordFailure events.length (sortedTables events))).bind fun _ =>
      (Program.perform (.requeueFront events)).bind fun _ => .ret false

theorem flushOnce_eq (self : ClickHouseFlusher) : self.flushOnce =
    (Program.perform (.drainBatch self.batchSize)).bind fun events =>
      if events = [] then .ret true else flushTry events (self.insertWithRetry events) := rfl

/-- The attempts that are left after a failed one, behind the sleep. -/
def sleepingAttempts (self : ClickHouseFlusher) (events : List EventObject) (attempt : Int) (delay left : Nat) :
    FlushProgram Unit :=
  (Program.perform (.sleep delay)).bind fun _ => self.insertAttempts events (attempt + 1) (delay * 2) left

end ClickHouseFlusher

/-- A flush that sleeps has an attempt left. -/
structure Sleeping (flusher : ClickHouseFlusher) (batch : List EventObject) (rest : FlushProgram Bool) : Prop where
  attempts : ∃ attempt delay left, rest =
    ClickHouseFlusher.flushTry batch (flusher.sleepingAttempts batch attempt delay (left + 1)) ∧
    0 ≤ attempt ∧ attempt + (left + 2 : Nat) = flusher.maxRetries

/-- What a section of a flush leaves: the flush has ended, or it sleeps. -/
def SectionLeft (flusher : ClickHouseFlusher) (batch : List EventObject) (rest : FlushProgram Bool) : Prop :=
  (∃ value, rest = .ret value) ∨ (∃ exc, rest = .raise exc) ∨ Sleeping flusher batch rest

section Sections

variable {flusher : ClickHouseFlusher} {exec : Exec FlushOp FlushOp.Res PyExc (AnalyticsWorld maxSize)}
  {batch : List EventObject} {w w' : AnalyticsWorld maxSize}

theorem insertFrom_runs (position : Nat) (calls : List InsertCall) :
    (ClickHouseFlusher.insertFrom position calls).Makes fun op => ¬ Awaits op := by
  induction calls generalizing position with
  | nil => exact Program.makes_ret ()
  | cons call calls ih =>
      refine (Program.makes_perform id).bind ?_
      intro value
      exact ih (position + 1)

/-- The attempts end, or stop in a sleep with an attempt left. -/
theorem section_insertAttempts {rest : FlushProgram Unit} {attempt : Int} {delay left : Nat}
    (hattempt : 0 ≤ attempt) (hleft : attempt + left = flusher.maxRetries)
    (h : (flusher.insertAttempts batch attempt delay left).Section exec Awaits w rest w') :
    (∃ value, rest = .ret value) ∨ (∃ exc, rest = .raise exc) ∨
      ∃ attempt delay left, rest = flusher.sleepingAttempts batch attempt delay (left + 1) ∧
        0 ≤ attempt ∧ attempt + (left + 2 : Nat) = flusher.maxRetries := by
  cases left with
  | zero => exact .inl ⟨(), (Program.section_of_stops (Program.stops_ret _ _) h).1⟩
  | succ left =>
      rw [ClickHouseFlusher.insertAttempts] at h
      rcases Program.section_tryExcept h with ⟨value, -, hrest⟩ | ⟨exc, middle, -, hhandler⟩ | ⟨op, next, -, hbody, -⟩
      · exact .inl ⟨value, hrest⟩
      · split at hhandler
        · split at hhandler
          · exact .inr (.inl ⟨exc, (Program.section_of_stops (Program.stops_raise _ _) hhandler).1⟩)
          · rename_i hmore
            have hsleep : (flusher.sleepingAttempts batch attempt delay left).Stops Awaits := trivial
            have hrest := (Program.section_of_stops hsleep hhandler).1
            obtain ⟨left, rfl⟩ : ∃ more, left = more + 1 := ⟨left - 1, by omega⟩
            exact .inr (.inr ⟨attempt, delay, left, hrest, hattempt, by omega⟩)
        · exact .inr (.inl ⟨exc, hhandler.1⟩)
      · rcases (insertFrom_runs 0 (insertCalls batch)).section_ends hbody with ⟨value, hvalue⟩ | ⟨exc, hexc⟩
        · cases hvalue
        · cases hexc

theorem section_flushTry {rest : FlushProgram Bool} {attempt : Int} {delay left : Nat} (hattempt : 0 ≤ attempt)
    (hleft : attempt + left = flusher.maxRetries)
    (h : (ClickHouseFlusher.flushTry batch (flusher.insertAttempts batch attempt delay left)).Section exec Awaits
      w rest w') : SectionLeft flusher batch rest := by
  rcases Program.section_tryExcept h with ⟨value, -, hrest⟩ | ⟨exc, middle, -, hhandler⟩ | ⟨op, next, hop, hbody, hrest⟩
  · exact .inl ⟨value, hrest⟩
  · split at hhandler
    · have hends : ((Program.perform (.recordFailure batch.length (sortedTables batch))).bind fun _ =>
          (Program.perform (.requeueFront batch)).bind fun _ => .ret false : FlushProgram Bool).Makes
            fun op => ¬ Awaits op :=
        (Program.makes_perform id).bind fun _ => (Program.makes_perform id).bind fun _ => Program.makes_ret false
      rcases hends.section_ends hhandler with hvalue | hexc
      · exact .inl hvalue
      · exact .inr (.inl hexc)
    · exact .inr (.inl ⟨exc, hhandler.1⟩)
  · rcases Program.section_bind hbody with ⟨value, middle, -, hlast⟩ | ⟨exc, -, hlast⟩ | ⟨op', next', hop', hfirst, hlast⟩
    · cases (Program.section_of_stops (Program.stops_ret _ _) hlast).1
    · cases hlast
    · rcases section_insertAttempts hattempt hleft hfirst with ⟨value, hvalue⟩ | ⟨exc, hexc⟩ | hsleep
      · cases hvalue
      · cases hexc
      · obtain ⟨attempt, delay, left, hsleep, hpos, hretries⟩ := hsleep
        refine .inr (.inr ⟨attempt, delay, left, ?_, hpos, hretries⟩)
        rw [hrest, hlast, hsleep]
        rfl

/-- The first section of a flush. -/
theorem section_flushOnce {fails : Nat → Prop} {rest : FlushProgram Bool}
    (h : flusher.flushOnce.Section (flushExec maxSize fails) Awaits w rest w') :
    SectionLeft flusher (w.collector.drainBatch flusher.batchSize).1 rest := by
  rw [ClickHouseFlusher.flushOnce_eq] at h
  rcases Program.section_perform_bind (fun hawaits : Awaits (.drainBatch flusher.batchSize) => hawaits) h with
    ⟨events, middle, ⟨hevents, -⟩, hrest⟩ | ⟨exc, -, hexc⟩
  · cases hevents
    split at hrest
    · exact .inl ⟨true, (Program.section_of_stops (Program.stops_ret _ _) hrest).1⟩
    · by_cases hretries : 0 ≤ flusher.maxRetries
      · exact section_flushTry (le_refl 0) (by omega) hrest
      · have hnone : flusher.maxRetries.toNat = 0 := by omega
        rw [ClickHouseFlusher.insertWithRetry, hnone] at hrest
        exact .inl ⟨true, (Program.section_of_stops (Program.stops_ret _ _) hrest).1⟩
  · exact .inr (.inl ⟨exc, hexc⟩)

end Sections

section Succeed

variable {flusher : ClickHouseFlusher} {fails : Nat → Prop} (hfails : ∀ position, ¬ fails position)
  {batch : List EventObject} {w w' : AnalyticsWorld maxSize}

include hfails

theorem section_insertFrom {position : Nat} {calls : List InsertCall} {rest : FlushProgram Unit}
    (h : (ClickHouseFlusher.insertFrom position calls).Section (flushExec maxSize fails) Awaits w rest w') :
    rest = .ret () ∧ w' = { w with inserts := w.inserts ++ calls } := by
  induction calls generalizing position w with
  | nil =>
      obtain ⟨rfl, rfl⟩ := Program.section_of_stops (Program.stops_ret _ _) h
      rw [List.append_nil]
      exact ⟨rfl, rfl⟩
  | cons call calls ih =>
      rw [ClickHouseFlusher.insertFrom] at h
      rcases Program.section_perform_bind (fun hawaits : Awaits (.insert position call) => hawaits) h with
        ⟨value, middle, hexec, hrest⟩ | ⟨exc, hexec, -⟩
      · rcases hexec with ⟨-, rfl⟩ | ⟨exc, -, hfail, -, -⟩
        · obtain ⟨hend, hworld⟩ := ih hrest
          refine ⟨hend, ?_⟩
          rw [hworld, List.append_assoc]
          rfl
        · exact absurd hfail (hfails position)
      · rcases hexec with ⟨hanswer, -⟩ | ⟨exc', -, hfail, -, -⟩
        · cases hanswer
        · exact absurd hfail (hfails position)

/-- One attempt is enough. -/
theorem section_attempt {attempt : Int} {delay left : Nat} {rest : FlushProgram Unit}
    (h : (flusher.insertAttempts batch attempt delay (left + 1)).Section (flushExec maxSize fails) Awaits w rest w') :
    rest = .ret () ∧ w' = { w with inserts := w.inserts ++ insertCalls batch } := by
  rw [ClickHouseFlusher.insertAttempts] at h
  rcases Program.section_tryExcept h with ⟨value, hbody, hrest⟩ | ⟨exc, middle, hbody, -⟩ | ⟨op, next, -, hbody, -⟩
  · exact ⟨hrest, (section_insertFrom hfails hbody).2⟩
  · cases (section_insertFrom hfails hbody).1
  · cases (section_insertFrom hfails hbody).1

theorem section_flushTry_ok {attempt : Int} {delay left : Nat} {rest : FlushProgram Bool}
    (h : (ClickHouseFlusher.flushTry batch (flusher.insertAttempts batch attempt delay (left + 1))).Section
      (flushExec maxSize fails) Awaits w rest w') :
    rest = .ret true ∧ w' = { w with inserts := w.inserts ++ insertCalls batch } := by
  have hattempts : ∀ {last : FlushProgram Bool} {v : AnalyticsWorld maxSize},
      ((flusher.insertAttempts batch attempt delay (left + 1)).bind fun _ => .ret true).Section
        (flushExec maxSize fails) Awaits w last v →
      last = .ret true ∧ v = { w with inserts := w.inserts ++ insertCalls batch } := by
    intro last v hbody
    rcases Program.section_bind hbody with ⟨value, middle, hfirst, hlast⟩ | ⟨exc, hfirst, -⟩ | ⟨op, next, -, hfirst, -⟩
    · obtain ⟨rfl, rfl⟩ := Program.section_of_stops (Program.stops_ret _ _) hlast
      exact ⟨rfl, (section_attempt hfails hfirst).2⟩
    · cases (section_attempt hfails hfirst).1
    · cases (section_attempt hfails hfirst).1
  rcases Program.section_tryExcept h with ⟨value, hbody, hrest⟩ | ⟨exc, middle, hbody, -⟩ | ⟨op, next, -, hbody, -⟩
  · obtain ⟨hvalue, hworld⟩ := hattempts hbody
    exact ⟨hrest.trans hvalue, hworld⟩
  · cases (hattempts hbody).1
  · cases (hattempts hbody).1

/-- What a flush leaves that drains a batch and is not disturbed. -/
def flushedWorld (flusher : ClickHouseFlusher) (w : AnalyticsWorld maxSize) : AnalyticsWorld maxSize :=
  { w with
    collector := (w.collector.drainBatch flusher.batchSize).2
    inserts := w.inserts ++
      if 1 ≤ flusher.maxRetries then insertCalls (w.collector.drainBatch flusher.batchSize).1 else [] }

/-- The flush that `stop` makes is one section. -/
theorem section_flushOnce_ok {rest : FlushProgram Bool}
    (h : flusher.flushOnce.Section (flushExec maxSize fails) Awaits w rest w') :
    rest = .ret true ∧ w' = flushedWorld flusher w := by
  rw [ClickHouseFlusher.flushOnce_eq] at h
  unfold flushedWorld
  rcases Program.section_perform_bind (fun hawaits : Awaits (.drainBatch flusher.batchSize) => hawaits) h with
    ⟨events, middle, ⟨hevents, rfl⟩, hrest⟩ | ⟨exc, ⟨hexc, -⟩, -⟩
  · cases hevents
    split at hrest
    · rename_i hnil
      obtain ⟨rfl, rfl⟩ := Program.section_of_stops (Program.stops_ret _ _) hrest
      simp [hnil, insertCalls, Grouping.group]
    · by_cases hretries : 1 ≤ flusher.maxRetries
      · obtain ⟨left, hleft⟩ : ∃ left, flusher.maxRetries.toNat = left + 1 :=
          ⟨flusher.maxRetries.toNat - 1, by omega⟩
        rw [ClickHouseFlusher.insertWithRetry, hleft] at hrest
        rw [if_pos hretries]
        exact section_flushTry_ok hfails hrest
      · have hnone : flusher.maxRetries.toNat = 0 := by omega
        rw [ClickHouseFlusher.insertWithRetry, hnone] at hrest
        obtain ⟨rfl, rfl⟩ := Program.section_of_stops (Program.stops_ret _ _) hrest
        rw [if_neg hretries, List.append_nil]
        exact ⟨rfl, rfl⟩
  · cases hexc

end Succeed

namespace FlusherTasks

variable {flusher : ClickHouseFlusher}

/-- Until `stop` is called its task does nothing, and a flush that sleeps has an attempt left. -/
structure Running (flusher : ClickHouseFlusher) (s : FlusherTasks maxSize) : Prop where
  opened : s.stopped = false
  uncalled : s.stop = .uncalled
  sleeping : ∀ batch rest, s.loop = .flush batch rest → Sleeping flusher batch rest

theorem sleeping_afterFlush {batch batch' : List EventObject} {rest rest' : FlushProgram Bool}
    (hleft : SectionLeft flusher batch rest) (h : LoopPoint.afterFlush batch rest = .flush batch' rest') :
    Sleeping flusher batch' rest' := by
  rcases hleft with ⟨value, rfl⟩ | ⟨exc, rfl⟩ | hsleep
  · cases h
  · cases h
  · cases rest with
    | ret value => cases h
    | raise exc => cases h
    | call op next =>
        cases h
        exact hsleep

/-- A flush that is resumed goes on with its next attempt. -/
theorem resumed {batch : List EventObject} {op : FlushOp} {next : Except PyExc op.Res → FlushProgram Bool}
    {answer : Except PyExc op.Res} {fails : Nat → Prop} {w middle : AnalyticsWorld maxSize}
    (hsleep : Sleeping flusher batch (.call op next)) (hanswer : flushExec maxSize fails op w answer middle) :
    middle = w ∧ ∃ attempt delay left, next answer = ClickHouseFlusher.flushTry batch
      (flusher.insertAttempts batch attempt delay (left + 1)) ∧
      0 ≤ attempt ∧ attempt + (left + 1 : Nat) = flusher.maxRetries := by
  obtain ⟨attempt, delay, left, heq, hpos, hretries⟩ := hsleep.attempts
  have hcall : (Program.call op next : FlushProgram Bool) = .call (.sleep delay) _ := heq
  obtain ⟨rfl, hnext⟩ := Program.call.inj hcall
  obtain ⟨rfl, rfl⟩ := hanswer
  obtain rfl := eq_of_heq hnext
  exact ⟨rfl, attempt + 1, delay * 2, left, rfl, by omega, by omega⟩

theorem Running.step {s s' : FlusherTasks maxSize} (h : Running flusher s) (hstep : Step flusher s s') :
    Running flusher s' := by
  cases hstep with
  | collect event hopen => exact ⟨h.opened, h.uncalled, h.sleeping⟩
  | begin hpoint hopen hsection =>
      exact ⟨h.opened, h.uncalled, fun batch rest => sleeping_afterFlush (section_flushOnce hsection)⟩
  | leave hpoint hstopped =>
      rw [h.opened] at hstopped
      cases hstopped
  | resume hpoint hanswer hsection =>
      obtain ⟨rfl, attempt, delay, left, hnext, hpos, hretries⟩ := resumed (h.sleeping _ _ hpoint) hanswer
      rw [hnext] at hsection
      exact ⟨h.opened, h.uncalled, fun batch rest =>
        sleeping_afterFlush (section_flushTry hpos (by omega) hsection)⟩
  | wake hpoint =>
      refine ⟨h.opened, h.uncalled, ?_⟩
      intro batch rest hflush
      cases hflush
  | resumeStop hpoint hanswer hsection =>
      rw [h.uncalled] at hpoint
      cases hpoint

theorem running_reachable {first : AnalyticsWorld maxSize} {s : FlusherTasks maxSize}
    (h : Relation.ReflTransGen (Step flusher) (start first) s) : Running flusher s := by
  induction h with
  | refl =>
      refine ⟨rfl, rfl, ?_⟩
      intro batch rest hflush
      cases hflush
  | tail _ hstep ih => exact ih.step hstep

/-- After the call of `stop` in `before`: the loop goes on from where it was, or it has written the
batch it held and ends. -/
structure Stopping (flusher : ClickHouseFlusher) (before s : FlusherTasks maxSize) : Prop where
  stopped : s.stopped = true
  stop : s.stop = .returned
  loop : (s.loop = before.loop ∧ s.world = flushedWorld flusher before.world) ∨
    ((s.loop = .wait ∨ s.loop = .test ∨ s.loop = .returned) ∧
      s.world = { flushedWorld flusher before.world with
        inserts := (flushedWorld flusher before.world).inserts ++ insertCalls before.loop.held })

theorem stopping_called {before s : FlusherTasks maxSize} (h : StopCalled flusher before s) :
    Stopping flusher before s := by
  cases h with
  | intro huncalled hsection =>
      obtain ⟨rfl, rfl⟩ := section_flushOnce_ok (fun _ hfails => by cases hfails) hsection
      exact ⟨rfl, rfl, .inl ⟨rfl, rfl⟩⟩

/-- Where nothing was held, nothing more is written. -/
theorem written_of_held_nil {before : FlusherTasks maxSize} (h : before.loop.held = [])
    (w : AnalyticsWorld maxSize) : w = { w with inserts := w.inserts ++ insertCalls before.loop.held } := by
  have hnone : insertCalls [] = [] := rfl
  rw [h, hnone, List.append_nil]

theorem Stopping.step {before s s' : FlusherTasks maxSize} (hrunning : Running flusher before)
    (h : Stopping flusher before s) (hstep : Step flusher s s') : Stopping flusher before s' := by
  cases hstep with
  | collect event hopen =>
      rw [h.stopped] at hopen
      cases hopen
  | begin hpoint hopen hsection =>
      rw [h.stopped] at hopen
      cases hopen
  | leave hpoint hstopped =>
      refine ⟨h.stopped, h.stop, .inr ⟨.inr (.inr rfl), ?_⟩⟩
      rcases h.loop with ⟨hloop, hworld⟩ | ⟨-, hworld⟩
      · have hheld : before.loop.held = [] := by rw [← hloop, hpoint]; rfl
        exact hworld.trans (written_of_held_nil hheld _)
      · exact hworld
  | @resume batch op next answer rest middle world hpoint hanswer hsection =>
      refine ⟨h.stopped, h.stop, .inr ?_⟩
      rcases h.loop with ⟨hloop, hworld⟩ | ⟨hloop, -⟩
      · have hflush : before.loop = .flush batch (.call op next) := by rw [← hloop, hpoint]
        obtain ⟨rfl, attempt, delay, left, hnext, -, -⟩ := resumed (hrunning.sleeping _ _ hflush) hanswer
        rw [hnext] at hsection
        have hsucceed : ∀ position : Nat, ¬ s.stopped = false := by
          intro position hopen
          rw [h.stopped] at hopen
          cases hopen
        obtain ⟨rfl, rfl⟩ := section_flushTry_ok hsucceed hsection
        refine ⟨.inl rfl, ?_⟩
        simp only [hworld, hflush, LoopPoint.held]
      · rw [hpoint] at hloop
        rcases hloop with hloop | hloop | hloop
        · cases hloop
        · cases hloop
        · cases hloop
  | wake hpoint =>
      refine ⟨h.stopped, h.stop, .inr ⟨.inr (.inl rfl), ?_⟩⟩
      rcases h.loop with ⟨hloop, hworld⟩ | ⟨-, hworld⟩
      · have hheld : before.loop.held = [] := by rw [← hloop, hpoint]; rfl
        exact hworld.trans (written_of_held_nil hheld _)
      · exact hworld
  | resumeStop hpoint hanswer hsection =>
      rw [h.stop] at hpoint
      cases hpoint

/-- **What is left when both tasks have returned**: one batch of the queue and the batch in flight have
been written, and nothing else. -/
theorem world_of_returned {before called after : FlusherTasks maxSize} (hrunning : Running flusher before)
    (hcalled : StopCalled flusher before called) (hsteps : Relation.ReflTransGen (Step flusher) called after)
    (hreturned : after.loop = .returned) :
    after.world = { flushedWorld flusher before.world with
      inserts := (flushedWorld flusher before.world).inserts ++ insertCalls before.loop.held } := by
  have hstopping : Stopping flusher before after := by
    clear hreturned
    induction hsteps with
    | refl => exact stopping_called hcalled
    | tail _ hstep ih => exact ih.step hrunning hstep
  rcases hstopping.loop with ⟨hloop, hworld⟩ | ⟨-, hworld⟩
  · have hheld : before.loop.held = [] := by rw [← hloop, hreturned]; rfl
    exact hworld.trans (written_of_held_nil hheld _)
  · exact hworld

/-- A batch in flight has at least two attempts. -/
theorem Running.retries {s : FlusherTasks maxSize} (h : Running flusher s) (hheld : s.loop.held ≠ []) :
    1 ≤ flusher.maxRetries := by
  cases hloop : s.loop with
  | flush batch rest =>
      obtain ⟨attempt, delay, left, -, hpos, hretries⟩ := (h.sleeping batch rest hloop).attempts
      omega
  | test => exact absurd (by rw [hloop]; rfl) hheld
  | wait => exact absurd (by rw [hloop]; rfl) hheld
  | returned => exact absurd (by rw [hloop]; rfl) hheld
  | raised exc => exact absurd (by rw [hloop]; rfl) hheld

theorem mem_rows_insertCalls {batch : List EventObject} {row : Row} :
    row ∈ (insertCalls batch).flatMap InsertCall.rows ↔ row ∈ batch.map EventObject.toRow :=
  (rows_insertCalls batch).mem_iff

end FlusherTasks

/-- **Shutdown drains the queue exactly when one batch holds it.** -/
theorem shutdown_drains_iff (maxSize : Int) (flusher : ClickHouseFlusher) (first : AnalyticsWorld maxSize)
    (before called after : FlusherTasks maxSize)
    (hbefore : Relation.ReflTransGen (FlusherTasks.Step flusher) (.start first) before)
    (hcalled : FlusherTasks.StopCalled flusher before called)
    (hsteps : Relation.ReflTransGen (FlusherTasks.Step flusher) called after)
    (hloop : after.loop = .returned) :
    before.Drained after ↔
      before.world.collector.queue.items.length ≤ flusher.batchSize.toNat ∧
        (1 ≤ flusher.maxRetries ∨
          ∀ object ∈ before.world.collector.queue.items, object.toRow ∈ before.world.insertedRows) := by
  have hrunning := FlusherTasks.running_reachable hbefore
  have hworld := FlusherTasks.world_of_returned hrunning hcalled hsteps hloop
  obtain ⟨hdrained, hleft⟩ := BoundedQueue.items_drain flusher.batchSize.toNat before.world.collector.queue
  have hqueue : after.world.collector.queue.items =
      before.world.collector.queue.items.drop flusher.batchSize.toNat := by
    rw [hworld]
    exact hleft
  have hempty : after.world.collector.queue.items = [] ↔
      before.world.collector.queue.items.length ≤ flusher.batchSize.toNat := by
    rw [hqueue, List.drop_eq_nil_iff]
  have hrows : ∀ row, row ∈ after.world.insertedRows ↔ row ∈ before.world.insertedRows ∨
      (1 ≤ flusher.maxRetries ∧
        row ∈ (before.world.collector.queue.items.take flusher.batchSize.toNat).map EventObject.toRow) ∨
      row ∈ before.loop.held.map EventObject.toRow := by
    intro row
    rw [hworld]
    simp only [AnalyticsWorld.insertedRows, flushedWorld, AnalyticsCollector.drainBatch, hdrained,
      List.flatMap_append, List.mem_append, FlusherTasks.mem_rows_insertCalls, or_assoc]
    split
    · rename_i hretries
      rw [FlusherTasks.mem_rows_insertCalls]
      simp only [hretries, true_and]
    · rename_i hretries
      simp [hretries]
  unfold FlusherTasks.Drained
  rw [hempty]
  refine and_congr_right ?_
  intro hwhole
  rw [List.take_of_length_le hwhole] at hrows
  constructor
  · intro hinserted
    by_cases hretries : 1 ≤ flusher.maxRetries
    · exact .inl hretries
    · right
      intro object hobject
      have hheld : before.loop.held = [] := by
        by_contra hheld
        exact hretries (hrunning.retries hheld)
      rcases (hrows _).mp (hinserted object (List.mem_append_left _ hobject)) with hrow | ⟨hsome, -⟩ | hrow
      · exact hrow
      · exact absurd hsome hretries
      · rw [hheld] at hrow
        cases hrow
  · intro hcond object hobject
    rw [hrows]
    rcases List.mem_append.mp hobject with hqueued | hheld
    · rcases hcond with hretries | hwritten
      · exact .inr (.inl ⟨hretries, List.mem_map_of_mem hqueued⟩)
      · exact .inl (hwritten object hqueued)
    · exact .inr (.inr (List.mem_map_of_mem hheld))

/-- Both events of the queue fit into one batch. -/
theorem shutdown_drains_whole : ∃ after : FlusherTasks 10,
    after.loop = .returned ∧ after.stop = .returned ∧ (FlusherTasks.start waitingWorld).Drained after := by
  let before : FlusherTasks 10 := .start waitingWorld
  let stopped : FlusherTasks 10 := ⟨flushedWorld plainFlusher waitingWorld, true, .test, .returned⟩
  have hsection : plainFlusher.flushOnce.Section { before with stopped := true }.exec Awaits waitingWorld (.ret true)
      (flushedWorld plainFlusher waitingWorld) :=
    .call id ⟨rfl, rfl⟩ (.call id (.inl ⟨rfl, rfl⟩) (.call id (.inl ⟨rfl, rfl⟩) (.stop trivial)))
  have hcalled : FlusherTasks.StopCalled plainFlusher before stopped := .intro rfl hsection
  have hleave : FlusherTasks.Step plainFlusher stopped { stopped with loop := .returned } := .leave rfl rfl
  refine ⟨_, rfl, rfl, (shutdown_drains_iff 10 plainFlusher waitingWorld _ _ _ .refl hcalled (.single hleave)
    rfl).mpr ?_⟩
  exact ⟨by decide, .inl (by decide)⟩

/-- A flusher whose batches hold one event. -/
def oneByOne : ClickHouseFlusher := ⟨1, 2⟩

/-- Two events are collected while the loop waits for the interval; `stop` writes the first one. -/
theorem shutdown_leaves_event : ¬ ∀ (maxSize : Int) (flusher : ClickHouseFlusher) (first : AnalyticsWorld maxSize)
    (before called after : FlusherTasks maxSize), 1 ≤ flusher.batchSize → 1 ≤ flusher.maxRetries →
    Relation.ReflTransGen (FlusherTasks.Step flusher) (.start first) before →
    FlusherTasks.StopCalled flusher before called →
    Relation.ReflTransGen (FlusherTasks.Step flusher) called after →
    after.loop = .returned → after.stop = .returned → before.Drained after := by
  intro hall
  let empty : AnalyticsWorld 10 := .start
  let waiting : FlusherTasks 10 := ⟨empty, false, .wait, .uncalled⟩
  let one : FlusherTasks 10 := { waiting with world := empty.collect plainUsage }
  let two : FlusherTasks 10 := { waiting with world := waitingWorld }
  let stopped : FlusherTasks 10 := ⟨flushedWorld oneByOne waitingWorld, true, .wait, .returned⟩
  have hempty : oneByOne.flushOnce.Section (FlusherTasks.start empty).exec Awaits empty (.ret true) empty :=
    .call id ⟨rfl, rfl⟩ (.stop trivial)
  have hbegin : FlusherTasks.Step oneByOne (.start empty) waiting := .begin rfl rfl hempty
  have hfirst : FlusherTasks.Step oneByOne waiting one := .collect plainUsage rfl
  have hsecond : FlusherTasks.Step oneByOne one two := .collect plainInference rfl
  have hsection : oneByOne.flushOnce.Section { two with stopped := true }.exec Awaits waitingWorld (.ret true)
      (flushedWorld oneByOne waitingWorld) :=
    .call id ⟨rfl, rfl⟩ (.call id (.inl ⟨rfl, rfl⟩) (.stop trivial))
  have hcalled : FlusherTasks.StopCalled oneByOne two stopped := .intro rfl hsection
  have hwake : FlusherTasks.Step oneByOne stopped { stopped with loop := .test } := .wake rfl
  have hleave : FlusherTasks.Step oneByOne { stopped with loop := .test } { stopped with loop := .returned } :=
    .leave rfl rfl
  have hdrained := hall 10 oneByOne empty two stopped _ (by decide) (by decide)
    (((Relation.ReflTransGen.single hbegin).tail hfirst).tail hsecond) hcalled
    ((Relation.ReflTransGen.single hwake).tail hleave) rfl rfl
  have hqueue : ([⟨1, plainInference⟩] : List EventObject) = [] := hdrained.1
  cases hqueue

end GpuInference
