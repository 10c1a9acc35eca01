import GpuInference.EffectPool
import GpuInference.RedisCommands
import Mathlib.Algebra.Group.Prod
import Mathlib.Algebra.BigOperators.Group.List.Lemmas
import Mathlib.Algebra.GroupWithZero.Nat

/-!
The concurrency limiter. A slot is taken by INCR and given back by DECR, followed by DEL when the
counter has come down to zero; a refused acquisition gives its INCR back by DECR. The commands of
different clients interleave freely. As long as no DEL meets a counter that other clients have
raised since the DECR before it, the counter is the number of slots that are held or about to be
given back, and the limit holds; a DEL that meets a raised counter forgets the slots it counts.
-/

open Effect

namespace GpuInference

def concurrencyKey (apiKeyId : String) : String := "concurrent:api_key:" ++ apiKeyId

/-- An acquired concurrency slot. -/
structure ConcurrencyLease where
  key : String
  released : Bool
  deriving DecidableEq, Repr

def concurrencyLimitExceeded : AppError where
  message := "Concurrent request limit exceeded"
  code := "concurrency_limit_exceeded"
  statusCode := 429
  type := "rate_limit_error"
  param := none

/-- `ConcurrencyLease.release`: the flag is set before the first command is sent, so the lease after
the call is known at once, together with the commands still to be sent. -/
def ConcurrencyLease.release (lease : ConcurrencyLease) : ConcurrencyLease × RedisProgram Unit :=
  if lease.released then (lease, pure ())
  else ({ lease with released := true }, countDown lease.key (Program.perform (RedisOp.decr lease.key)))

/-- `ConcurrencyLimiter.acquire`. -/
def ConcurrencyLimiter.acquire (apiKeyId : String) (limit : Int) : RedisProgram ConcurrencyLease := do
  let key := concurrencyKey apiKeyId
  let count ← redisCall (.incr key)
  if limit < count then
    loggedCall (.decr key)
    Program.raise (.app concurrencyLimitExceeded)
  else
    pure { key, released := false }

/-- What is left of a refused acquisition after INCR. -/
def ConcurrencyLimiter.rollback (key : String) : RedisProgram ConcurrencyLease :=
  (loggedCall (.decr key)).bind fun _ => .raise (.app concurrencyLimitExceeded)

theorem acquire_eq (apiKeyId : String) (limit : Int) :
    ConcurrencyLimiter.acquire apiKeyId limit = .call (.incr (concurrencyKey apiKeyId)) fun
      | .ok count =>
          if limit < count then ConcurrencyLimiter.rollback (concurrencyKey apiKeyId)
          else .ret { key := concurrencyKey apiKeyId, released := false }
      | .error exc => .raise (redisFailure exc) := by
  simp only [ConcurrencyLimiter.acquire, redisCall_eq, Program.bind_eq, Program.call_bind]
  congr 1
  funext answer
  cases answer <;> rfl

theorem rollback_eq (key : String) :
    ConcurrencyLimiter.rollback key = .call (.decr key) fun
      | .ok _ => .raise (.app concurrencyLimitExceeded)
      | .error exc => if exc.isException then .raise (.app concurrencyLimitExceeded) else .raise exc := by
  rw [ConcurrencyLimiter.rollback, loggedCall_eq, Program.call_bind]
  congr 1
  funext answer
  cases answer with
  | ok value => rfl
  | error exc => cases exc <;> rfl

/-- The commands of the first release of a lease. -/
def ConcurrencyLease.giveBack (key : String) : RedisProgram Unit :=
  countDown key (Program.perform (RedisOp.decr key))

theorem giveBack_eq (key : String) :
    ConcurrencyLease.giveBack key = .call (.decr key) fun
      | .ok remaining => countDown key (.ret remaining)
      | .error exc => countDown key (.raise exc) := by
  rw [ConcurrencyLease.giveBack, Program.perform, countDown_call]
  congr 1
  funext answer
  cases answer <;> rfl

theorem release_of_live {lease : ConcurrencyLease} (h : lease.released = false) :
    lease.release = ({ lease with released := true }, ConcurrencyLease.giveBack lease.key) := by
  rw [ConcurrencyLease.release, h, if_neg Bool.false_ne_true]
  rfl

/-- A lease is released once: the next call returns without a command. -/
theorem release_of_released {lease : ConcurrencyLease} (h : lease.released = true) :
    lease.release = (lease, .ret ()) := by
  rw [ConcurrencyLease.release, if_pos h]
  rfl

/-- A client: its acquisition, with the commands still to be sent, or its lease once the release has
been called, with the commands of that release still to be sent. -/
inductive SlotClient where
  | acquiring (call : RedisProgram ConcurrencyLease)
  | releasing (lease : ConcurrencyLease) (call : RedisProgram Unit)

/-- The lease is out: the acquisition has returned and the release has not been called. -/
def SlotClient.live : SlotClient → Bool
  | acquiring (.ret lease) => !lease.released
  | _ => false

/-- One command of the client takes effect, or the client calls the release of its lease. A repeated
release has no command to send. -/
inductive SlotClient.Act : Redis → SlotClient → Redis → SlotClient → Prop
  | acquire {redis : Redis} {op : RedisOp} {next : Except PyExc op.Res → RedisProgram ConcurrencyLease} :
      Act redis (.acquiring (.call op next)) (Redis.apply op redis).2
        (.acquiring (next (Redis.apply op redis).1))
  | call {redis : Redis} {lease : ConcurrencyLease} :
      Act redis (.acquiring (.ret lease)) redis (.releasing lease.release.1 lease.release.2)
  | release {redis : Redis} {lease : ConcurrencyLease} {op : RedisOp}
      {next : Except PyExc op.Res → RedisProgram Unit} :
      Act redis (.releasing lease (.call op next)) (Redis.apply op redis).2
        (.releasing lease (next (Redis.apply op redis).1))
  | again {redis : Redis} {lease : ConcurrencyLease} {call : RedisProgram Unit}
      (h : lease.release.2 = .ret ()) :
      Act redis (.releasing lease call) redis (.releasing lease.release.1 call)

/-- Any number of `acquire` and `release` calls on one key, command by command. -/
def slotSystem (apiKeyId : String) (limit : Int) : System Redis SlotClient where
  starts _ client := client = .acquiring (ConcurrencyLimiter.acquire apiKeyId limit)
  act := SlotClient.Act
  env _ _ := False

def liveLeases (pool : Pool Redis SlotClient) : Nat := pool.threads.countP SlotClient.live

/-- The condition on a step: a DEL finds the counter at zero or below, as the DECR before it did. -/
def DeleteFindsZero (redis : Redis) : SlotClient → Prop
  | .releasing _ (.call (.delete key) _) => redis.counter key ≤ 0
  | _ => True

/-- A DECR that is still to be sent. -/
def owesDecr {α : Type} : RedisProgram α → Nat
  | .call (.decr _) _ => 1
  | _ => 0

namespace SlotClient

def owed : SlotClient → Nat
  | acquiring call => owesDecr call
  | releasing _ call => owesDecr call

/-- The DECRs a client owes, and the lease it has out. -/
def weight (client : SlotClient) : Nat × Nat := (client.owed, client.live.toNat)

/-- The program points of a client. -/
inductive Point (key : String) (limit : Int) : SlotClient → Prop
  | start (next : Except PyExc Int → RedisProgram ConcurrencyLease)
      (h : ∀ count, next (.ok count) =
        if limit < count then ConcurrencyLimiter.rollback key else .ret ⟨key, false⟩) :
      Point key limit (acquiring (.call (.incr key) next))
  | rollback : Point key limit (acquiring (ConcurrencyLimiter.rollback key))
  | refused (exc : PyExc) : Point key limit (acquiring (.raise exc))
  | granted : Point key limit (acquiring (.ret ⟨key, false⟩))
  | giveBack : Point key limit (releasing ⟨key, true⟩ (ConcurrencyLease.giveBack key))
  | forget (next : Except PyExc Int → RedisProgram Unit) (h : ∀ reply, next (.ok reply) = .ret ()) :
      Point key limit (releasing ⟨key, true⟩ (.call (.delete key) next))
  | done : Point key limit (releasing ⟨key, true⟩ (.ret ()))

end SlotClient

/-- The key holds a counter that shows the DECRs owed and the leases out, and the latter are within
the limit. -/
def ShowsSlots (key : String) (limit : Int) (redis : Redis) (slots : Nat × Nat) : Prop :=
  redis.Counts key ∧ redis.counter key = slots.1 + slots.2 ∧ (slots.2 : Int) ≤ limit

theorem point_acquire (apiKeyId : String) (limit : Int) :
    SlotClient.Point (concurrencyKey apiKeyId) limit
      (.acquiring (ConcurrencyLimiter.acquire apiKeyId limit)) := by
  rw [acquire_eq]
  exact .start _ fun _ => rfl

namespace SlotClient

@[simp] theorem weight_incr (key : String) (next : Except PyExc Int → RedisProgram ConcurrencyLease) :
    weight (acquiring (.call (.incr key) next)) = 0 := rfl

@[simp] theorem weight_rollback (key : String) :
    weight (acquiring (ConcurrencyLimiter.rollback key)) = (1, 0) := by
  rw [rollback_eq]
  rfl

@[simp] theorem weight_refused (exc : PyExc) : weight (acquiring (.raise exc)) = 0 := rfl

@[simp] theorem weight_granted (key : String) : weight (acquiring (.ret ⟨key, false⟩)) = (0, 1) := rfl

@[simp] theorem weight_giveBack (lease : ConcurrencyLease) (key : String) :
    weight (releasing lease (ConcurrencyLease.giveBack key)) = (1, 0) := rfl

@[simp] theorem weight_delete (lease : ConcurrencyLease) (key : String)
    (next : Except PyExc Int → RedisProgram Unit) :
    weight (releasing lease (.call (.delete key) next)) = 0 := rfl

@[simp] theorem weight_done (lease : ConcurrencyLease) : weight (releasing lease (.ret ())) = 0 := rfl

end SlotClient

/-- INCR: a count within the limit hands out a lease, a count above it leaves a DECR owed. -/
theorem shows_incr {key : String} {limit : Int} {redis : Redis} {m : Nat × Nat}
    (h : ShowsSlots key limit redis m) (next : Except PyExc Int → RedisProgram ConcurrencyLease)
    (hnext : ∀ count, next (.ok count) =
      if limit < count then ConcurrencyLimiter.rollback key else .ret ⟨key, false⟩) :
    ShowsSlots key limit (redis.add key 1).2
        ((SlotClient.acquiring (next (redis.add key 1).1)).weight + m) ∧
      SlotClient.Point key limit (.acquiring (next (redis.add key 1).1)) := by
  obtain ⟨hcounts, hshows, hlimit⟩ := h
  obtain ⟨hreply, hstored, hcounts'⟩ := Redis.add_spec hcounts 1
  rw [hreply, hnext]
  by_cases hover : limit < redis.counter key + 1
  · rw [if_pos hover, SlotClient.weight_rollback]
    refine ⟨⟨hcounts', ?_, ?_⟩, .rollback⟩
    · rw [hstored, hshows, Prod.fst_add, Prod.snd_add]
      omega
    · rw [Prod.snd_add]
      omega
  · rw [if_neg hover, SlotClient.weight_granted]
    refine ⟨⟨hcounts', ?_, ?_⟩, .granted⟩
    · rw [hstored, hshows, Prod.fst_add, Prod.snd_add]
      omega
    · rw [Prod.snd_add]
      omega

/-- DECR pays one of the DECRs owed. -/
theorem shows_decr {key : String} {limit : Int} {redis : Redis} {m : Nat × Nat}
    (h : ShowsSlots key limit redis ((1, 0) + m)) :
    (redis.add key (-1)).1 = .ok (redis.counter key - 1) ∧
      ShowsSlots key limit (redis.add key (-1)).2 m := by
  obtain ⟨hcounts, hshows, hlimit⟩ := h
  rw [Prod.fst_add, Prod.snd_add] at hshows
  rw [Prod.snd_add] at hlimit
  obtain ⟨hreply, hstored, hcounts'⟩ := Redis.add_spec hcounts (-1)
  refine ⟨by rw [hreply]; rfl, hcounts', ?_, by omega⟩
  rw [hstored, hshows]
  omega

/-- Calling the release turns a lease that is out into a DECR owed. -/
theorem shows_call {key : String} {limit : Int} {redis : Redis} {m : Nat × Nat}
    (h : ShowsSlots key limit redis ((0, 1) + m)) : ShowsSlots key limit redis ((1, 0) + m) := by
  obtain ⟨hcounts, hshows, hlimit⟩ := h
  rw [Prod.fst_add, Prod.snd_add] at hshows
  rw [Prod.snd_add] at hlimit
  refine ⟨hcounts, ?_, ?_⟩
  · rw [Prod.fst_add, Prod.snd_add, hshows]
    omega
  · rw [Prod.snd_add]
    omega

/-- DEL at zero or below: nothing is owed and no lease is out, so an absent key shows the same. -/
theorem shows_delete {key : String} {limit : Int} {redis : Redis} {m : Nat × Nat}
    (h : ShowsSlots key limit redis m) (hzero : redis.counter key ≤ 0) :
    ShowsSlots key limit (redis.remove key) m := by
  obtain ⟨_, hshows, hlimit⟩ := h
  refine ⟨Redis.counts_remove_self redis key, ?_, hlimit⟩
  rw [Redis.counter_remove_self]
  omega

/-- One step of a client, under the condition on DEL. -/
theorem shows_act {key : String} {limit : Int} {redis redis' : Redis} {client client' : SlotClient}
    {m : Nat × Nat} (h : ShowsSlots key limit redis (client.weight + m))
    (hpoint : SlotClient.Point key limit client) (hmeets : DeleteFindsZero redis client)
    (hact : SlotClient.Act redis client redis' client') :
    ShowsSlots key limit redis' (client'.weight + m) ∧ SlotClient.Point key limit client' := by
  cases hpoint with
  | start next hnext =>
      cases hact
      rw [SlotClient.weight_incr, zero_add] at h
      exact shows_incr h next hnext
  | rollback =>
      rw [SlotClient.weight_rollback] at h
      obtain ⟨hreply, hshows⟩ := shows_decr h
      rw [rollback_eq] at hact
      cases hact
      simp only [Redis.apply, hreply, SlotClient.weight_refused, zero_add]
      exact ⟨hshows, .refused _⟩
  | refused exc => cases hact
  | granted =>
      cases hact
      rw [release_of_live rfl]
      exact ⟨shows_call h, .giveBack⟩
  | giveBack =>
      rw [SlotClient.weight_giveBack] at h
      obtain ⟨hreply, hshows⟩ := shows_decr h
      rw [giveBack_eq] at hact
      cases hact with
      | release =>
          simp only [Redis.apply, hreply]
          rw [countDown_ret]
          split
          · rw [SlotClient.weight_delete, zero_add]
            exact ⟨hshows, .forget _ fun _ => rfl⟩
          · rw [SlotClient.weight_done, zero_add]
            exact ⟨hshows, .done⟩
      | again =>
          rw [release_of_released rfl, ← giveBack_eq]
          exact ⟨h, .giveBack⟩
  | forget next hnext =>
      rw [SlotClient.weight_delete, zero_add] at h
      cases hact with
      | release =>
          simp only [Redis.apply, hnext, SlotClient.weight_done, zero_add]
          exact ⟨shows_delete h hmeets, .done⟩
      | again =>
          rw [release_of_released rfl, SlotClient.weight_delete, zero_add]
          exact ⟨h, .forget next hnext⟩
  | done =>
      cases hact with
      | again =>
          rw [release_of_released rfl]
          exact ⟨h, .done⟩

theorem slotSystem_accounts (apiKeyId : String) (limit : Int) :
    System.Accounts ((slotSystem apiKeyId limit).restrict DeleteFindsZero)
      (fun _ client => client.weight) (ShowsSlots (concurrencyKey apiKeyId) limit)
      (fun _ client => SlotClient.Point (concurrencyKey apiKeyId) limit client) where
  start redis client m h hstart := by
    have hclient : client = .acquiring (ConcurrencyLimiter.acquire apiKeyId limit) := hstart
    have hweight : client.weight = 0 := by
      rw [hclient, acquire_eq]
      rfl
    rw [hweight, add_zero, hclient]
    exact ⟨h, point_acquire apiKeyId limit⟩
  act redis client redis' client' m h hpoint hact := shows_act h hpoint hact.1 hact.2
  frame redis client redis' client' other m _ _ hother _ := ⟨rfl, hother⟩
  env redis redis' clients _ _ henv := henv.elim

theorem liveLeases_eq (pool : Pool Redis SlotClient) :
    liveLeases pool = ((pool.threads.map SlotClient.weight).sum).2 := by
  rw [liveLeases]
  induction pool.threads with
  | nil => rfl
  | cons client clients ih =>
      rw [List.countP_cons, List.map_cons, List.sum_cons, Prod.snd_add, ← ih]
      simp only [SlotClient.weight]
      cases client.live <;> simp [Nat.add_comm]

/-- **The concurrency limit, up to the race on DEL.** In every run whose DELs find the counter at zero
or below, the leases that are out never exceed the limit. -/
theorem liveLeases_le_limit (apiKeyId : String) (limit : Int) (hlimit : 1 ≤ limit) (redis : Redis)
    (habsent : redis (concurrencyKey apiKeyId) = none) (pool : Pool Redis SlotClient)
    (hreach : ((slotSystem apiKeyId limit).restrict DeleteFindsZero).Reachable redis pool) :
    (liveLeases pool : Int) ≤ limit := by
  have hinit : ShowsSlots (concurrencyKey apiKeyId) limit redis 0 := by
    refine ⟨Redis.counts_of_absent habsent, ?_, ?_⟩
    · rw [Redis.counter_of_absent habsent]
      rfl
    · simpa using by omega
  have haccount := (slotSystem_accounts apiKeyId limit).reachable hinit hreach
  rw [liveLeases_eq]
  exact haccount.1.2.2

/-- One client takes a slot, gives it back with its DEL, and a second one takes it. -/
theorem liveLeases_le_limit_reused :
    ∃ pool, ((slotSystem "key" 1).restrict DeleteFindsZero).Reachable (fun _ => none) pool ∧
      liveLeases pool = 1 ∧ (liveLeases pool : Int) ≤ 1 := by
  have h0 : ((slotSystem "key" 1).restrict DeleteFindsZero).Reachable (fun _ => none)
      ⟨fun _ => none, []⟩ := .refl
  have h1 := h0.tail (.start (.acquiring (ConcurrencyLimiter.acquire "key" 1)) (by rfl))
  have h2 := h1.tail (.act [] [] ⟨trivial, .acquire⟩)
  have h3 := h2.tail (.act [] [] ⟨trivial, .call⟩)
  have h4 := h3.tail (.act [] [] ⟨trivial, .release⟩)
  have h5 := h4.tail (.act [] [] ⟨Int.le_refl 0, .release⟩)
  have h6 := h5.tail (.start (.acquiring (ConcurrencyLimiter.acquire "key" 1)) (by rfl))
  have h7 := h6.tail (.act [_] [] ⟨trivial, .acquire⟩)
  exact ⟨_, h7, by decide, liveLeases_le_limit "key" 1 (by decide) _ rfl _ h7⟩

/-- Without the condition the limit fails: between the DECR and the DEL of one release a second
client acquires, the DEL forgets it, and a third client acquires beside it. -/
theorem liveLeases_exceed_limit :
    ¬ ∀ (apiKeyId : String) (limit : Int), 1 ≤ limit → ∀ redis : Redis,
      redis (concurrencyKey apiKeyId) = none → ∀ pool : Pool Redis SlotClient,
      (slotSystem apiKeyId limit).Reachable redis pool → (liveLeases pool : Int) ≤ limit := by
  intro h
  have hstart : ∀ redis, (slotSystem "key" 1).starts redis
      (.acquiring (ConcurrencyLimiter.acquire "key" 1)) := fun _ => rfl
  have h0 : (slotSystem "key" 1).Reachable (fun _ => none) ⟨fun _ => none, []⟩ := .refl
  have h1 := h0.tail (.start _ (hstart _))
  have h2 := h1.tail (.act [] [] .acquire)
  have h3 := h2.tail (.act [] [] .call)
  have h4 := h3.tail (.act [] [] .release)
  have h5 := h4.tail (.start _ (hstart _))
  have h6 := h5.tail (.act [_] [] .acquire)
  have h7 := h6.tail (.act [] [_] .release)
  have h8 := h7.tail (.start _ (hstart _))
  have h9 := h8.tail (.act [_, _] [] .acquire)
  have hbound := h "key" 1 (by decide) _ rfl _ h9
  revert hbound
  decide

end GpuInference
