import Mathlib.Data.List.Sublists

/-!
The engine and the Redis client of the application. They are made by the first request whose service needs them, kept in
`app.state`, and released when the application shuts down. A service that makes a client of its own where there is one
already puts it in the place of the other one, which is not released then.
-/

namespace GpuInference

/-- A service that is made by the first request that needs it. -/
inductive LazyService where
  | auth
  | admission
  | audit
  | batch
  deriving DecidableEq, Repr

/-- `app.state`: the services that have been passed to `create_app`, those that have been made since, in order, and the
numbers of the engine and of the client that it holds. -/
structure AppState where
  passed : List LazyService
  made : List LazyService
  postgresEngine : Option Nat
  redisClient : Option Nat
  engines : Nat
  clients : Nat
  deriving DecidableEq, Repr

namespace AppState

def start (passed : List LazyService) : AppState := ⟨passed, [], none, none, 0, 0⟩

def has (self : AppState) (service : LazyService) : Bool := service ∈ self.passed || service ∈ self.made

def provide (self : AppState) (service : LazyService) : AppState := { self with made := self.made ++ [service] }

def newEngine (self : AppState) : AppState :=
  { self with postgresEngine := some self.engines, engines := self.engines + 1 }

def newClient (self : AppState) : AppState :=
  { self with redisClient := some self.clients, clients := self.clients + 1 }

/-- The state with an engine, unless `create_postgres_engine` raises. -/
def ensureEngine (self : AppState) (engine : Bool) : Option AppState :=
  if self.postgresEngine.isSome then some self else if engine then some self.newEngine else none

def ensureClient (self : AppState) (client : Bool) : Option AppState :=
  if self.redisClient.isSome then some self else if client then some self.newClient else none

/-- `_get_or_create_auth_service`, with whether `create_postgres_engine` returns. -/
def getOrCreateAuthService (self : AppState) (engine : Bool) : AppState :=
  if self.has .auth then self
  else if engine then self.newEngine.provide .auth
  else self

/-- `_get_or_create_admission_service`, with whether `RedisClient.from_url` returns. -/
def getOrCreateAdmissionService (self : AppState) (client : Bool) : AppState :=
  if self.has .admission then self
  -- unlike `_get_or_create_batch_service`, this does not look for a client that is there
  else if client then self.newClient.provide .admission
  else self

/-- `_get_or_create_audit_service`. -/
def getOrCreateAuditService (self : AppState) (engine : Bool) : AppState :=
  if self.has .audit then self
  else match self.ensureEngine engine with
    | none => self
    | some self => self.provide .audit

/-- `_get_or_create_batch_service`. -/
def getOrCreateBatchService (self : AppState) (engine client : Bool) : AppState :=
  if self.has .batch then self
  else match self.ensureEngine engine with
    | none => self
    | some self =>
        match self.ensureClient client with
        | none => self
        | some self => self.provide .batch

end AppState

/-- A request needs a service; it tells which constructors return, if they are called. -/
inductive ServiceCall where
  | auth (engine : Bool)
  | admission (client : Bool)
  | audit (engine : Bool)
  | batch (engine client : Bool)

/-- How the clean-up goes: whether closing the vLLM client, disposing of the engine and closing the Redis client return. A
vLLM client that has been passed to `create_app` is not closed, which always returns. -/
structure Exit where
  closes : Bool
  disposes : Bool
  acloses : Bool

namespace AppState

/-- The routes are behind the middleware: their services are looked up after the one of the middleware. -/
def step (self : AppState) : ServiceCall → AppState
  | .auth engine => self.getOrCreateAuthService engine
  | .admission client => if self.has .auth then self.getOrCreateAdmissionService client else self
  | .audit engine => if self.has .auth then self.getOrCreateAuditService engine else self
  | .batch engine client => if self.has .auth then self.getOrCreateBatchService engine client else self

/-- The requests of one life of the application. -/
def run (passed : List LazyService) (calls : List ServiceCall) : AppState := calls.foldl step (start passed)

/-- The end of the `lifespan`: the engine that is disposed of, and the client that is closed. What raises leaves out the
rest. -/
def shutdown (self : AppState) (exit : Exit) : Option Nat × Option Nat :=
  if !exit.closes then (none, none)
  else match self.postgresEngine with
    | some engine =>
        if exit.disposes then (some engine, if exit.acloses then self.redisClient else none) else (none, none)
    | none => (none, if exit.acloses then self.redisClient else none)

/-- Every engine and every client that has been made is released. -/
def Released (self : AppState) (exit : Exit) : Prop :=
  (∀ engine < self.engines, (self.shutdown exit).1 = some engine) ∧
    ∀ client < self.clients, (self.shutdown exit).2 = some client

/-- The batch service has been made before the admission service. -/
def BatchFirst (self : AppState) : Prop := [.batch, .admission].Sublist self.made

instance (self : AppState) : Decidable self.BatchFirst := inferInstanceAs (Decidable (List.Sublist _ _))

/-- There is one engine at most, and it is held. -/
def HoldsEngine (self : AppState) : Prop :=
  self.engines = 0 ∧ self.postgresEngine = none ∨ self.engines = 1 ∧ self.postgresEngine = some 0

/-- The clients that have been made, and the one that is held. -/
inductive HoldsClient (self : AppState) : Prop
  | none (hclients : self.clients = 0) (hclient : self.redisClient = .none) (hbatch : .batch ∉ self.made)
      (hadmission : .admission ∉ self.made)
  | one (hclients : self.clients = 1) (hclient : self.redisClient = some 0)
      (hmade : .batch ∈ self.made ∨ .admission ∈ self.made) (hfirst : ¬ self.BatchFirst)
  | two (hclients : self.clients = 2) (hclient : self.redisClient = some 1) (hfirst : self.BatchFirst)

/-- The engine, the client, and that nothing has been made before the first service of the middleware. -/
structure Holds (state : AppState) : Prop where
  engine : state.HoldsEngine
  client : state.HoldsClient
  unused : state.has .auth = false → state.engines = 0 ∧ state.postgresEngine = none

variable {self : AppState}

theorem holds_start (passed : List LazyService) : (start passed).Holds :=
  ⟨.inl ⟨rfl, rfl⟩, .none rfl rfl List.not_mem_nil List.not_mem_nil, fun _ => ⟨rfl, rfl⟩⟩

theorem has_iff {service : LazyService} : self.has service = true ↔ service ∈ self.passed ∨ service ∈ self.made := by
  rw [has, Bool.or_eq_true, decide_eq_true_eq, decide_eq_true_eq]

theorem not_mem_made {service : LazyService} (h : ¬ self.has service = true) : service ∉ self.made :=
  fun hmade => h (has_iff.mpr (.inr hmade))

/-- What makes the batch service the first of the two. -/
theorem batchFirst_provide (service : LazyService) :
    (self.provide service).BatchFirst ↔ self.BatchFirst ∨ service = .admission ∧ .batch ∈ self.made := by
  constructor
  · intro h
    obtain ⟨left, right, hsame, hleft, hright⟩ := List.sublist_append_iff.mp h
    rcases List.sublist_singleton.mp hright with rfl | rfl
    · rw [List.append_nil] at hsame
      rw [← hsame] at hleft
      exact .inl hleft
    · obtain ⟨rfl, hlast⟩ : left = [.batch] ∧ [service] = [.admission] :=
        List.append_inj' (by rw [← hsame]; rfl) rfl
      exact .inr ⟨(List.cons.inj hlast).1, List.singleton_sublist.mp hleft⟩
  · rintro (h | ⟨rfl, hbatch⟩)
    · exact h.trans (List.sublist_append_left _ _)
    · exact List.Sublist.append (List.singleton_sublist.mpr hbatch) (List.Sublist.refl [LazyService.admission])

/-- A service that needs no client leaves the client as it is. -/
theorem HoldsClient.provide (h : self.HoldsClient) {service : LazyService} (hbatch : service ≠ .batch)
    (hadmission : service ≠ .admission) : (self.provide service).HoldsClient := by
  have hfirst : (self.provide service).BatchFirst ↔ self.BatchFirst := by
    rw [batchFirst_provide]
    simp [hadmission]
  cases h with
  | none hclients hclient hnobatch hnoadmission =>
      refine .none hclients hclient ?_ ?_
      · simp [AppState.provide, hnobatch, Ne.symm hbatch]
      · simp [AppState.provide, hnoadmission, Ne.symm hadmission]
  | one hclients hclient hmade hnotfirst =>
      refine .one hclients hclient ?_ (mt hfirst.mp hnotfirst)
      exact hmade.imp (List.mem_append_left _) (List.mem_append_left _)
  | two hclients hclient hbatchfirst => exact .two hclients hclient (hfirst.mpr hbatchfirst)

theorem HoldsClient.newEngine (h : self.HoldsClient) : self.newEngine.HoldsClient := by
  cases h with
  | none hclients hclient hbatch hadmission => exact .none hclients hclient hbatch hadmission
  | one hclients hclient hmade hfirst => exact .one hclients hclient hmade hfirst
  | two hclients hclient hfirst => exact .two hclients hclient hfirst

/-- The admission service makes a client of its own. -/
theorem HoldsClient.admitting (h : self.HoldsClient) (hadmission : .admission ∉ self.made) :
    (self.newClient.provide .admission).HoldsClient := by
  have hfirst : (self.newClient.provide .admission).BatchFirst ↔ self.BatchFirst ∨ .batch ∈ self.made := by
    rw [batchFirst_provide]
    simp [newClient, BatchFirst]
  cases h with
  | none hclients hclient hnobatch _ =>
      refine .one ?_ ?_ (.inr (List.mem_append_right _ List.mem_cons_self)) ?_
      · exact congrArg Nat.succ hclients
      · exact congrArg some hclients
      · rw [hfirst, not_or]
        exact ⟨fun hbatch => hnobatch (hbatch.subset List.mem_cons_self), hnobatch⟩
  | one hclients hclient hmade _ =>
      refine .two ?_ ?_ (hfirst.mpr (.inr (hmade.resolve_right hadmission)))
      · exact congrArg Nat.succ hclients
      · exact congrArg some hclients
  | two _ _ hbatchfirst =>
      exact absurd (hbatchfirst.subset (List.mem_cons_of_mem _ List.mem_cons_self)) hadmission

/-- The batch service takes the client that is there. -/
theorem HoldsClient.batching (h : self.HoldsClient) (hbatch : .batch ∉ self.made) {client : Bool} {after : AppState}
    (hensure : self.ensureClient client = some after) : (after.provide .batch).HoldsClient := by
  have hnot : ∀ state : AppState, state.made = self.made → ¬ (state.provide .batch).BatchFirst := by
    intro state hmade hfirst
    rcases (batchFirst_provide .batch).mp hfirst with hfirst | ⟨hsame, -⟩
    · rw [BatchFirst, hmade] at hfirst
      exact hbatch (hfirst.subset List.mem_cons_self)
    · cases hsame
  have hmade : ∀ state : AppState, .batch ∈ (state.provide .batch).made :=
    fun state => List.mem_append_right _ List.mem_cons_self
  unfold ensureClient at hensure
  cases h with
  | none hclients hclient _ _ =>
      rw [hclient, Option.isSome_none, if_neg Bool.false_ne_true] at hensure
      split at hensure
      · cases hensure
        refine .one ?_ ?_ (.inl (hmade _)) (hnot self.newClient rfl)
        · exact congrArg Nat.succ hclients
        · exact congrArg some hclients
      · cases hensure
  | one hclients hclient _ _ =>
      rw [hclient, Option.isSome_some, if_pos rfl] at hensure
      cases hensure
      exact .one hclients hclient (.inl (hmade _)) (hnot self rfl)
  | two _ _ hbatchfirst => exact absurd (hbatchfirst.subset List.mem_cons_self) hbatch

/-- What looking for an engine does. -/
theorem HoldsEngine.ensure (h : self.HoldsEngine) {engine : Bool} {after : AppState}
    (hensure : self.ensureEngine engine = some after) : after.HoldsEngine ∧ (after = self ∨ after = self.newEngine) := by
  unfold ensureEngine at hensure
  rcases h with ⟨hengines, hengine⟩ | ⟨hengines, hengine⟩
  · rw [hengine, Option.isSome_none, if_neg Bool.false_ne_true] at hensure
    split at hensure
    · cases hensure
      exact ⟨.inr ⟨congrArg Nat.succ hengines, congrArg some hengines⟩, .inr rfl⟩
    · cases hensure
  · rw [hengine, Option.isSome_some, if_pos rfl] at hensure
    cases hensure
    exact ⟨.inr ⟨hengines, hengine⟩, .inl rfl⟩

/-- Once the middleware has its service, an engine may be there. -/
theorem Holds.of_auth (hengine : self.HoldsEngine) (hclient : self.HoldsClient) (hauth : self.has .auth = true) :
    self.Holds := by
  refine ⟨hengine, hclient, ?_⟩
  intro hnone
  cases hauth.symm.trans hnone

/-- Nothing that has been made is lost. -/
theorem has_provide (service : LazyService) (h : self.has .auth = true) : (self.provide service).has .auth = true :=
  has_iff.mpr ((has_iff.mp h).imp id (List.mem_append_left _))

theorem Holds.ensure (h : self.Holds) (hauth : self.has .auth = true) {engine : Bool} {after : AppState}
    (hensure : self.ensureEngine engine = some after) :
    after.Holds ∧ after.made = self.made ∧ after.has .auth = true := by
  obtain ⟨hengine, rfl | rfl⟩ := h.engine.ensure hensure
  · exact ⟨h, rfl, hauth⟩
  · exact ⟨.of_auth hengine h.client.newEngine hauth, rfl, hauth⟩

/-- What looking for a client does. -/
theorem eq_of_ensureClient {client : Bool} {after : AppState} (hensure : self.ensureClient client = some after) :
    after = self ∨ after = self.newClient := by
  unfold ensureClient at hensure
  split at hensure
  · exact .inl (Option.some.inj hensure).symm
  · split at hensure
    · exact .inr (Option.some.inj hensure).symm
    · cases hensure

theorem Holds.getOrCreateAuthService (h : self.Holds) (engine : Bool) : (self.getOrCreateAuthService engine).Holds := by
  unfold AppState.getOrCreateAuthService
  split
  · exact h
  · rename_i hauth
    -- before the middleware has its service there is no engine, so the one that is made is the only one
    obtain ⟨hengines, -⟩ := h.unused (by simpa using hauth)
    split
    · refine .of_auth (.inr ⟨congrArg Nat.succ hengines, congrArg some hengines⟩) ?_ ?_
      · exact h.client.newEngine.provide (by decide) (by decide)
      · exact has_iff.mpr (.inr (List.mem_append_right _ List.mem_cons_self))
    · exact h

theorem Holds.getOrCreateAdmissionService (h : self.Holds) (hauth : self.has .auth = true) (client : Bool) :
    (self.getOrCreateAdmissionService client).Holds := by
  unfold AppState.getOrCreateAdmissionService
  split
  · exact h
  · rename_i hadmission
    split
    · exact .of_auth h.engine (h.client.admitting (not_mem_made hadmission)) (has_provide _ hauth)
    · exact h

theorem Holds.getOrCreateAuditService (h : self.Holds) (hauth : self.has .auth = true) (engine : Bool) :
    (self.getOrCreateAuditService engine).Holds := by
  unfold AppState.getOrCreateAuditService
  split
  · exact h
  · split
    · exact h
    · rename_i after hensure
      obtain ⟨hafter, -, hauth⟩ := h.ensure hauth hensure
      exact .of_auth hafter.engine (hafter.client.provide (by decide) (by decide)) (has_provide _ hauth)

theorem Holds.getOrCreateBatchService (h : self.Holds) (hauth : self.has .auth = true) (engine client : Bool) :
    (self.getOrCreateBatchService engine client).Holds := by
  unfold AppState.getOrCreateBatchService
  split
  · exact h
  · rename_i hbatch
    split
    · exact h
    · rename_i after hensure
      obtain ⟨hafter, hmade, hauth⟩ := h.ensure hauth hensure
      split
      · exact hafter
      · rename_i last hclient
        have hnobatch : .batch ∉ after.made := by
          rw [hmade]
          exact not_mem_made hbatch
        have hlast := hafter.client.batching hnobatch hclient
        rcases eq_of_ensureClient hclient with rfl | rfl
        · exact .of_auth hafter.engine hlast (has_provide _ hauth)
        · exact .of_auth hafter.engine hlast (has_provide _ hauth)

/-- **The step of the application.** -/
theorem Holds.step (h : self.Holds) (call : ServiceCall) : (self.step call).Holds := by
  cases call with
  | auth engine => exact h.getOrCreateAuthService engine
  | admission client =>
      simp only [AppState.step]
      split
      · exact h.getOrCreateAdmissionService ‹_› client
      · exact h
  | audit engine =>
      simp only [AppState.step]
      split
      · exact h.getOrCreateAuditService ‹_› engine
      · exact h
  | batch engine client =>
      simp only [AppState.step]
      split
      · exact h.getOrCreateBatchService ‹_› engine client
      · exact h

theorem holds_run (passed : List LazyService) (calls : List ServiceCall) : (run passed calls).Holds := by
  have hcalls : ∀ state : AppState, state.Holds → (calls.foldl AppState.step state).Holds := by
    induction calls with
    | nil => exact fun state h => h
    | cons call calls ih => exact fun state h => ih _ (h.step call)
  exact hcalls _ (holds_start passed)

/-- The engine that is held is disposed of when the steps before it return. -/
theorem shutdown_engine (hheld : self.HoldsEngine) (exit : Exit) :
    (∀ engine < self.engines, (self.shutdown exit).1 = some engine) ↔
      (self.engines ≠ 0 → exit.closes = true ∧ exit.disposes = true) := by
  obtain ⟨closes, disposes, acloses⟩ := exit
  rcases hheld with ⟨hengines, hengine⟩ | ⟨hengines, hengine⟩
  · simp [hengines]
  · cases closes <;> cases disposes <;> simp [hengines, hengine, shutdown]

/-- The client that is held is closed when the steps before it return. -/
theorem shutdown_client (hheld : self.HoldsEngine) (hclient : self.HoldsClient) (exit : Exit) :
    (∀ client < self.clients, (self.shutdown exit).2 = some client) ↔
      ¬ self.BatchFirst ∧ (self.clients ≠ 0 →
        exit.closes = true ∧ (self.engines ≠ 0 → exit.disposes = true) ∧ exit.acloses = true) := by
  have hclosed : (self.shutdown exit).2 = if exit.closes = true ∧ (self.engines ≠ 0 → exit.disposes = true) ∧
      exit.acloses = true then self.redisClient else none := by
    obtain ⟨closes, disposes, acloses⟩ := exit
    rcases hheld with ⟨hengines, hengine⟩ | ⟨hengines, hengine⟩
    · cases closes <;> cases acloses <;> simp [hengines, hengine, shutdown]
    · cases closes <;> cases disposes <;> cases acloses <;> simp [hengines, hengine, shutdown]
  rw [hclosed]
  cases hclient with
  | none hclients _ hbatch _ =>
      have hfirst : ¬ self.BatchFirst := fun h => hbatch (h.subset List.mem_cons_self)
      simp [hclients, hfirst]
  | one hclients hredis _ hfirst =>
      simp [hclients, hredis, hfirst]
  | two hclients hredis hfirst =>
      refine iff_of_false ?_ fun h => h.1 hfirst
      intro hall
      have hzero := hall 0 (by omega)
      rw [hredis] at hzero
      split at hzero
      · cases hzero
      · cases hzero

theorem HoldsEngine.engines_le (h : self.HoldsEngine) : self.engines ≤ 1 := by
  rcases h with ⟨hengines, -⟩ | ⟨hengines, -⟩
  · exact hengines.trans_le (Nat.zero_le 1)
  · exact hengines.le

/-- **What the application has made is released** when it ends, exactly when no step of the clean-up before it raises and
the batch service has not been made before the admission service: the client of the batch service is lost then. There is
never more than one engine. -/
theorem released_iff (passed : List LazyService) (calls : List ServiceCall) (exit : Exit) :
    (run passed calls).engines ≤ 1 ∧
      ((run passed calls).Released exit ↔
        ¬ (run passed calls).BatchFirst ∧
        ((run passed calls).engines ≠ 0 → exit.closes = true ∧ exit.disposes = true) ∧
        ((run passed calls).clients ≠ 0 → exit.closes = true ∧ exit.acloses = true)) := by
  have hheld := holds_run passed calls
  refine ⟨hheld.engine.engines_le, ?_⟩
  rw [Released, shutdown_engine hheld.engine, shutdown_client hheld.engine hheld.client]
  tauto

/-- A batch job is submitted before the first chat completion: one client is lost in a clean-up in which nothing raises. -/
theorem not_released_batch_first :
    ¬ (run [] [.auth true, .batch true true, .auth true, .admission true]).Released ⟨true, true, true⟩ := by
  intro h
  exact ((released_iff _ _ _).2.mp h).1 (by decide)

end AppState

end GpuInference
