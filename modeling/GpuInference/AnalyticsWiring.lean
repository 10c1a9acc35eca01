import GpuInference.AnalyticsDelivery
import GpuInference.RequestBooks

/-!
The processes as their entry points wire them. The application creates a collector of its own with the
first event, the batch worker is built without a collector, and the flusher worker drains the collector
that it has created itself.
-/

open Effect

namespace GpuInference

/-- What each call does while ClickHouse is healthy. -/
def healthy {maxSize : Int} :
    (op : FlushOp) → AnalyticsWorld maxSize → Except PyExc op.Res × AnalyticsWorld maxSize
  | .collect event, w => (.ok (w.collector.collect (w.object event)).1, w.collect event)
  | .drainBatch batchSize, w =>
      (.ok (w.collector.drainBatch batchSize).1,
        { w with collector := (w.collector.drainBatch batchSize).2 })
  | .insert _ call, w => (.ok (), { w with inserts := w.inserts ++ [call] })
  | .sleep _, w => (.ok (), w)
  | .recordFailure _ _, w => (.ok (), { w with flushFailures := w.flushFailures + 1 })
  | .requeueFront objects, w => (.ok (), { w with collector := w.collector.requeueFront objects })

variable {maxSize : Int}

theorem flushExec_healthy (fails : Nat → Prop) (op : FlushOp) (w : AnalyticsWorld maxSize) :
    flushExec maxSize fails op w (healthy op w).1 (healthy op w).2 := by
  cases op with
  | insert position call => exact .inl ⟨rfl, rfl⟩
  | _ => exact ⟨rfl, rfl⟩

theorem run_insertFrom (position : Nat) (calls : List InsertCall) (w : AnalyticsWorld maxSize) :
    (ClickHouseFlusher.insertFrom position calls).run healthy w =
      (.ok (), { w with inserts := w.inserts ++ calls }) := by
  induction calls generalizing position w with
  | nil => rw [List.append_nil]; rfl
  | cons call calls ih =>
      rw [ClickHouseFlusher.insertFrom, Program.run_bind, Program.run_perform]
      simp only [healthy]
      rw [ih, List.append_assoc]
      rfl

/-- A flush drains a batch and inserts it. -/
theorem run_flushOnce {flusher : ClickHouseFlusher} (hretries : 1 ≤ flusher.maxRetries)
    (w : AnalyticsWorld maxSize) :
    flusher.flushOnce.run healthy w = (.ok true, { w with
      collector := (w.collector.drainBatch flusher.batchSize).2
      inserts := w.inserts ++ insertCalls (w.collector.drainBatch flusher.batchSize).1 }) := by
  obtain ⟨left, hleft⟩ : ∃ left, flusher.maxRetries.toNat = left + 1 :=
    ⟨flusher.maxRetries.toNat - 1, by omega⟩
  rw [ClickHouseFlusher.flushOnce, Program.run_bind, Program.run_perform]
  simp only [healthy]
  generalize hbatch : (w.collector.drainBatch flusher.batchSize).1 = batch
  split
  · rename_i hnil
    subst hnil
    rw [Program.run_ret]
    simp [insertCalls, Grouping.group]
  · rw [Program.run_tryExcept, Program.run_bind, ClickHouseFlusher.insertWithRetry, hleft,
      ClickHouseFlusher.insertAttempts, Program.run_tryExcept, ClickHouseFlusher.insert, run_insertFrom]
    rfl

/-- Any number of flushes, one after the other. -/
def flushSteps (flusher : ClickHouseFlusher) : Nat → AnalyticsWorld maxSize → AnalyticsWorld maxSize
  | 0, w => w
  | steps + 1, w => flushSteps flusher steps (flusher.flushOnce.run healthy w).2

theorem inserts_flushSteps {flusher : ClickHouseFlusher} (hretries : 1 ≤ flusher.maxRetries) (steps : Nat)
    (w : AnalyticsWorld maxSize) {call : InsertCall} (h : call ∈ w.inserts) :
    call ∈ (flushSteps flusher steps w).inserts := by
  induction steps generalizing w with
  | zero => exact h
  | succ steps ih =>
      apply ih
      rw [run_flushOnce hretries]
      exact List.mem_append_left _ h

/-- **Enough flushes insert everything that is queued in the flusher's own process.** -/
theorem inserted_flushSteps {flusher : ClickHouseFlusher} (hretries : 1 ≤ flusher.maxRetries) (steps : Nat)
    (w : AnalyticsWorld maxSize)
    (henough : w.collector.queue.items.length ≤ flusher.batchSize.toNat * steps)
    {object : EventObject} (h : object ∈ w.collector.queue.items) :
    object.toRow ∈ (flushSteps flusher steps w).insertedRows := by
  induction steps generalizing w with
  | zero =>
      have hlength := List.length_pos_of_mem h
      omega
  | succ steps ih =>
      obtain ⟨hbatch, hrest⟩ := BoundedQueue.items_drain flusher.batchSize.toNat w.collector.queue
      rw [← List.take_append_drop flusher.batchSize.toNat w.collector.queue.items, List.mem_append] at h
      rcases h with h | h
      · obtain ⟨call, hcall, -, -, hrows⟩ := insertCalls_spec h
        refine List.mem_flatMap.mpr ⟨call, ?_, ?_⟩
        · refine inserts_flushSteps hretries steps _ ?_
          rw [run_flushOnce hretries]
          apply List.mem_append_right
          simp only [AnalyticsCollector.drainBatch, hbatch]
          exact hcall
        · rw [hrows]
          exact List.mem_map_of_mem (List.mem_filter.mpr ⟨h, decide_eq_true rfl⟩)
      · have hcollector : (flusher.flushOnce.run healthy w).2.collector.queue.items =
            w.collector.queue.items.drop flusher.batchSize.toNat := by
          rw [run_flushOnce hretries]
          exact hrest
        apply ih
        · rw [hcollector, List.length_drop]
          rw [Nat.mul_succ] at henough
          omega
        · rw [hcollector]
          exact h

/-- The calls of the processes. -/
inductive DeployOp where
  | api (op : ChatOp)
  | worker (op : BatchOp)
  | flusher (op : FlushOp)

abbrev DeployOp.Res : DeployOp → Type
  | api op => op.Res
  | worker op => op.Res
  | flusher op => op.Res

abbrev DeployProgram := Program DeployOp DeployOp.Res PyExc

abbrev DeployThread := Thread DeployOp DeployOp.Res PyExc Unit

/-- The analytics settings. -/
structure AnalyticsSettings where
  analyticsQueueSize : Int
  analyticsFlushBatchSize : Int
  deriving DecidableEq, Repr

/-- The analytics state of the processes: `app.state.analytics_collector`, which `create_app()` leaves
unset, and the collector of the flusher worker. -/
structure Deployment (maxSize : Int) where
  api : Option (AnalyticsWorld maxSize)
  flusher : AnalyticsWorld maxSize

namespace Deployment

def start : Deployment maxSize := ⟨none, .start⟩

/-- `_get_or_create_analytics_collector`. -/
def apiWorld (s : Deployment maxSize) : AnalyticsWorld maxSize := s.api.getD .start

/-- The usage events that have been produced. -/
def produced (s : Deployment maxSize) : List EventObject := s.apiWorld.collected

/-- Every event that was produced and not dropped has its row in ClickHouse. -/
def Delivered (s : Deployment maxSize) : Prop :=
  ∀ object ∈ s.produced, object ∉ s.apiWorld.collector.dropped.map Prod.fst →
    ∃ row ∈ s.flusher.insertedRows, row.cells = object.event.toRow

/-- The events that wait in some queue. -/
def pending (s : Deployment maxSize) : Nat :=
  s.apiWorld.collector.queue.items.length + s.flusher.collector.queue.items.length

/-- The flusher worker performs `steps` flushes while ClickHouse is healthy. -/
def flushed (s : Deployment maxSize) (flusher : ClickHouseFlusher) (steps : Nat) : Deployment maxSize :=
  { s with flusher := flushSteps flusher steps s.flusher }

end Deployment

/-- `main` of the batch worker: no collector is passed, and no `should_run_job`. -/
def workerMain (tokenEstimator : TokenEstimator) (settings : TokenLimits) (lax : LaxCoercions)
    (sha256 : Sha256) : BatchWorker where
  tokenEstimator := tokenEstimator
  settings := settings
  analyticsCollector := false
  shouldRunJob := false
  lax := lax
  sha256 := sha256

/-- `main` of the flusher worker; `max_retries` keeps its default. -/
def flusherMain (settings : AnalyticsSettings) : ClickHouseFlusher where
  batchSize := settings.analyticsFlushBatchSize
  maxRetries := 3

/-- What a call does to the analytics state of its process. The calls that do not touch it give any
answer. -/
def deployExec (maxSize : Int) : Exec DeployOp DeployOp.Res PyExc (Deployment maxSize)
  | .api (.collect event), s, answer, s' => ∃ eventTime,
      let w := s.apiWorld
      answer = .ok (w.collector.collect (w.object (.usage eventTime event))).1 ∧
        s' = { s with api := some (w.collect (.usage eventTime event)) }
  | .api _, s, _, s' => s' = s
  -- the collector of the worker is `None`, and its `_emit_usage_event` returns before this call
  | .worker (.collect _), s, answer, s' => answer = .error attributeError ∧ s' = s
  | .worker _, s, _, s' => s' = s
  | .flusher op, s, answer, s' =>
      ∃ flusher, flushExec maxSize (fun _ => True) op s.flusher answer flusher ∧
        s' = { s with flusher := flusher }

/-- The programs of the processes. -/
inductive DeployRuns (settings : AnalyticsSettings) : DeployProgram Unit → Prop
  | serve (app : ChatApp) (request : ChatCompletionRequest) (state : Option AuthContext)
      (requestId : String) :
      DeployRuns settings ((app.serve request state requestId).mapOp DeployOp.api fun _ value => value)
  | processOne (tokenEstimator : TokenEstimator) (limits : TokenLimits) (lax : LaxCoercions)
      (sha256 : Sha256) :
      DeployRuns settings (((workerMain tokenEstimator limits lax sha256).processOne.mapOp
        DeployOp.worker fun _ value => value).bind fun _ => .ret ())
  | flushOnce :
      DeployRuns settings (((flusherMain settings).flushOnce.mapOp
        DeployOp.flusher fun _ value => value).bind fun _ => .ret ())

def deployment (settings : AnalyticsSettings) :
    System (Deployment settings.analyticsQueueSize) DeployThread :=
  callSystem (deployExec settings.analyticsQueueSize) (DeployRuns settings)

/-- Whether a call of `flush_once` has drained an event. -/
inductive DrainPhase where
  | idle
  | loaded

def deployProtocol : Protocol DeployOp DeployOp.Res PyExc DrainPhase where
  may
    | .idle, .flusher (.drainBatch _) => True
    | .idle, .flusher _ => False
    | .idle, .worker _ => True
    | .idle, .api _ => True
    | .loaded, _ => True
  after
    | .idle, .flusher (.drainBatch _), .ok (_ :: _) => .loaded
    | φ, _, _ => φ

theorem follows_deployment {settings : AnalyticsSettings} {program : DeployProgram Unit}
    (h : DeployRuns settings program) : program.Follows deployProtocol (fun _ _ => True) .idle := by
  cases h with
  | serve app request state requestId =>
      exact Program.follows_mapOp DeployOp.api _ (fun op => trivial) (fun op answer => rfl)
        (fun outcome => trivial) _
  | processOne tokenEstimator limits lax sha256 =>
      rw [Program.follows_bind]
      refine Program.follows_mapOp DeployOp.worker _ (fun op => trivial) (fun op answer => rfl) ?_ _
      intro outcome
      cases outcome with
      | ok value => exact trivial
      | error exc => exact trivial
  | flushOnce =>
      refine ⟨trivial, ?_⟩
      intro answer
      cases answer with
      | error exc => exact trivial
      | ok objects =>
          cases objects with
          | nil => exact trivial
          | cons object objects =>
              exact Program.follows_of_stays (fun op => trivial) (fun op answer => rfl)
                (fun outcome => trivial) _

/-- Nothing has reached the collector of the flusher worker, and the collector of the application holds
every event it has not dropped. -/
structure Apart (s : Deployment maxSize) (_ : Nat) : Prop where
  queue : s.flusher.collector.queue.items = []
  inserts : s.flusher.inserts = []
  recorded : Recorded s.apiWorld 0
  waiting : s.produced ≠ [] → s.apiWorld.collector.queue.items ≠ []

theorem apart_start : Apart (.start : Deployment maxSize) 0 where
  queue := rfl
  inserts := rfl
  recorded := recorded_start
  waiting h := absurd rfl h

/-- A collector that has taken an event has one in its queue. -/
theorem queue_collect (w : AnalyticsWorld maxSize) (event : AnalyticsEvent) :
    (w.collect event).collector.queue.items ≠ [] := by
  show (w.collector.collect (w.object event)).2.queue.items ≠ []
  unfold AnalyticsCollector.collect
  split
  · rename_i queue hput
    rw [BoundedQueue.items_put hput]
    exact List.append_ne_nil_of_right_ne_nil _ (List.cons_ne_nil _ _)
  · rename_i hfull
    have hqueue : w.collector.queue.items ≠ [] := by
      intro hnil
      obtain ⟨queue, hput⟩ := BoundedQueue.put_of_empty hnil (w.object event)
      rw [hput] at hfull
      cases hfull
    split
    · exact hqueue
    · exact hqueue

theorem Apart.collect {s : Deployment maxSize} {n m : Nat} (h : Apart s n) (event : AnalyticsEvent) :
    Apart { s with api := some (s.apiWorld.collect event) } m where
  queue := h.queue
  inserts := h.inserts
  recorded := recorded_collect h.recorded event
  waiting _ := queue_collect s.apiWorld event

theorem deployment_apart : Justified (deployExec maxSize) deployProtocol .idle (fun _ => (0 : Nat))
    Apart (fun _ φ => φ = .idle) where
  start := ⟨rfl, fun s => rfl⟩
  call φ op s answer s' m h hφ hmay hexec := by
    subst hφ
    cases op with
    | api op =>
        refine ⟨?_, rfl⟩
        cases op with
        | collect event =>
            obtain ⟨eventTime, -, rfl⟩ := hexec
            exact h.collect _
        | _ =>
            obtain rfl := hexec
            exact h
    | worker op =>
        refine ⟨?_, rfl⟩
        cases op with
        | collect event =>
            obtain ⟨-, rfl⟩ := hexec
            exact h
        | _ =>
            obtain rfl := hexec
            exact h
    | flusher op =>
        obtain ⟨flusher, hflush, rfl⟩ := hexec
        cases op with
        | drainBatch batchSize =>
            obtain ⟨rfl, rfl⟩ := hflush
            obtain ⟨hdrained, hleft⟩ :=
              BoundedQueue.items_drain batchSize.toNat s.flusher.collector.queue
            rw [h.queue, List.take_nil] at hdrained
            rw [h.queue, List.drop_nil] at hleft
            refine ⟨⟨hleft, h.inserts, h.recorded, h.waiting⟩, ?_⟩
            simp only [AnalyticsCollector.drainBatch, hdrained]
            rfl
        | collect event => exact hmay.elim
        | insert position call => exact hmay.elim
        | sleep delay => exact hmay.elim
        | recordFailure eventCount tables => exact hmay.elim
        | requeueFront objects => exact hmay.elim
  frame φ ψ op s answer s' m h hφ hψ hmay hexec := hψ

theorem deployment_apart_of_reachable {settings : AnalyticsSettings}
    {p : Pool (Deployment settings.analyticsQueueSize) DeployThread}
    (h : (deployment settings).Reachable .start p) : ∃ n, Apart p.shared n :=
  ⟨_, ((deployment_apart.accounts fun _ => follows_deployment).reachable apart_start h).1⟩

/-- A flusher whose queue is empty inserts nothing. -/
theorem flushSteps_of_empty {flusher : ClickHouseFlusher} (hretries : 1 ≤ flusher.maxRetries) (steps : Nat)
    {w : AnalyticsWorld maxSize} (hqueue : w.collector.queue.items = []) :
    (flushSteps flusher steps w).inserts = w.inserts := by
  induction steps generalizing w with
  | zero => rfl
  | succ steps ih =>
      obtain ⟨hdrained, hleft⟩ := BoundedQueue.items_drain flusher.batchSize.toNat w.collector.queue
      rw [hqueue, List.take_nil] at hdrained
      rw [hqueue, List.drop_nil] at hleft
      rw [flushSteps, run_flushOnce hretries, ih hleft]
      simp only [AnalyticsCollector.drainBatch, hdrained]
      exact List.append_nil _

/-- A queued event has not been dropped. -/
theorem not_dropped_of_queued {w : AnalyticsWorld maxSize} (h : Recorded w 0) {object : EventObject}
    (hobject : object ∈ w.collector.queue.items) :
    object ∈ w.collected ∧ object ∉ w.collector.dropped.map Prod.fst := by
  have hobjects := h.objects
  rw [add_zero, AnalyticsCollector.objects, Multiset.coe_add, Multiset.coe_add] at hobjects
  have hperm := Multiset.coe_eq_coe.mp hobjects
  have hnodup := hperm.nodup_iff.mpr (nodup_collected h)
  refine ⟨hperm.mem_iff.mp (List.mem_append_left _ (List.mem_append_left _ hobject)), ?_⟩
  intro hdropped
  exact (List.nodup_append.mp hnodup).2.2 object (List.mem_append_left _ hobject) object hdropped rfl

/-- **What reaches ClickHouse.** However often the flusher worker flushes, the events of a run are
delivered only if there are none. -/
theorem delivered_iff {settings : AnalyticsSettings}
    {p : Pool (Deployment settings.analyticsQueueSize) DeployThread}
    (h : (deployment settings).Reachable .start p) (steps : Nat) :
    (p.shared.flushed (flusherMain settings) steps).Delivered ↔ p.shared.produced = [] := by
  obtain ⟨n, hapart⟩ := deployment_apart_of_reachable h
  have hretries : 1 ≤ (flusherMain settings).maxRetries := by
    show (1 : Int) ≤ 3
    decide
  have hinserts : (flushSteps (flusherMain settings) steps p.shared.flusher).inserts = [] := by
    rw [flushSteps_of_empty hretries steps hapart.queue]
    exact hapart.inserts
  constructor
  · intro hdelivered
    by_contra hproduced
    obtain ⟨object, hobject⟩ := List.exists_mem_of_ne_nil _ (hapart.waiting hproduced)
    obtain ⟨hcollected, hdropped⟩ := not_dropped_of_queued hapart.recorded hobject
    obtain ⟨row, hrow, -⟩ := hdelivered object hcollected hdropped
    simp only [Deployment.flushed, AnalyticsWorld.insertedRows, hinserts, List.flatMap_nil] at hrow
    cases hrow
  · intro hproduced object hobject
    have hnil : object ∈ p.shared.produced := hobject
    rw [hproduced] at hnil
    cases hnil

def defaultSettings : AnalyticsSettings := ⟨1000, 500⟩

/-- The event of a request that was answered. -/
def servedEvent : AnalyticsEvent :=
  .usage 0 (usageEvent plainContext "req" "model" ⟨8, 0, 12, .completed⟩ (some 0) none)

def servedDeployment : Deployment 1000 := ⟨some (AnalyticsWorld.collect .start servedEvent), .start⟩

/-- One chat request has been answered. -/
theorem reachable_served : ∃ threads,
    (deployment defaultSettings).Reachable .start ⟨servedDeployment, threads⟩ := by
  let s : Deployment 1000 := .start
  have h : (deployment defaultSettings).Reachable .start ⟨.start, []⟩ := Relation.ReflTransGen.refl
  have h := reachable_start h (DeployRuns.serve plainApp plainRequest (some plainContext) "req")
  have h := reachable_call [] [] h (show deployExec 1000 (.api (.admitRequest plainContext 18)) s
    (.ok ⟨0⟩) s from rfl)
  have h := reachable_call [] [] h (show deployExec 1000 (.api (.startAudit _)) s
    (.ok "audit") s from rfl)
  have h := reachable_call [] [] h (show deployExec 1000 (.api (.createChatCompletion _)) s
    (.ok [("usage", .obj [("total_tokens", .int 12)])]) s from rfl)
  have h := reachable_call [] [] h (show deployExec 1000 (.api (.finalizeTokens ⟨0⟩ 12 false)) s
    (.ok ()) s from rfl)
  have h := reachable_call [] [] h (show deployExec 1000 (.api (.recordUsage ⟨8, 0, 12, .completed⟩)) s
    (.ok ()) s from rfl)
  have h := reachable_call [] [] h (show deployExec 1000 (.api .elapsedMs) s (.ok (0 : Int)) s from rfl)
  have h := reachable_call [] [] h (show deployExec 1000 (.api (.finalizeAudit _)) s
    (.ok ()) s from rfl)
  have h := reachable_call [] [] h (show deployExec 1000 (.api (.collect _)) s
    (.ok true) servedDeployment from ⟨0, rfl, rfl⟩)
  exact ⟨_, h⟩

/-- A request that was answered, and never delivered. -/
theorem delivered_iff_served :
    (servedDeployment.flushed (flusherMain defaultSettings) 1).Delivered ↔
      servedDeployment.produced = [] := by
  obtain ⟨threads, h⟩ := reachable_served
  exact delivered_iff h 1

/-- Its event stays in the collector of the application. -/
theorem not_delivered : ¬ ∀ (settings : AnalyticsSettings)
    (p : Pool (Deployment settings.analyticsQueueSize) DeployThread) (steps : Nat),
    (deployment settings).Reachable .start p →
      (p.shared.pending : Int) ≤ settings.analyticsFlushBatchSize * steps →
        (p.shared.flushed (flusherMain settings) steps).Delivered := by
  intro h
  obtain ⟨threads, hreach⟩ := reachable_served
  have henough : (servedDeployment.pending : Int) ≤ 500 * (1 : Nat) := by decide
  have hdelivered := h defaultSettings _ 1 hreach henough
  obtain ⟨row, hrow, -⟩ := hdelivered ⟨0, servedEvent⟩ (List.mem_singleton_self _) List.not_mem_nil
  cases hrow

end GpuInference
