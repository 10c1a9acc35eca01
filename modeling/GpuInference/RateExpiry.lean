import GpuInference.EffectProtocol
import GpuInference.RateQuota
import Mathlib.Algebra.Order.Group.Multiset

/-!
The life time of the rate-limit keys. A key gets its time to live by an EXPIRE that follows the command
which has created it, and only when the returned count shows that it was fresh. So a key without a time
to live is one that some call is about to give one, as long as no EXPIRE that is needed fails and no
DECRBY creates a key.
-/

open Effect

namespace GpuInference

def rpmKey (apiKeyId : String) : String := "rl:api_key:" ++ apiKeyId ++ ":rpm"

def rpmWindowSeconds : Nat := 60

def rateLimitExceeded : AppError where
  message := "Rate limit exceeded"
  code := "rate_limit_exceeded"
  statusCode := 429
  type := "rate_limit_error"
  param := none

/-- `RateLimiter.check_rpm`. -/
def RateLimiter.checkRpm (apiKeyId : String) (limit : Int) : RedisProgram Unit := do
  let key := rpmKey apiKeyId
  let count ← redisCall (.incr key)
  if count = 1 then
    let _ ← redisCall (.expire key rpmWindowSeconds)
  if limit < count then Program.raise (.app rateLimitExceeded)
  else pure ()

/-- One command: it takes effect, or it fails and has none. -/
def redisExec (applies fails : Redis → RedisOp → Prop) : Exec RedisOp RedisOp.Res PyExc Redis :=
  fun op redis answer redis' =>
    (applies redis op ∧ answer = (Redis.apply op redis).1 ∧ redis' = (Redis.apply op redis).2) ∨
      ∃ exc : PyExc, fails redis op ∧ answer = .error exc ∧ redis' = redis

/-- A key that carries a time to live expires. -/
def Redis.Expires (redis redis' : Redis) : Prop :=
  ∃ name value time, redis name = some ⟨value, some time⟩ ∧ redis' = redis.remove name

/-- The calls that count requests and tokens. -/
inductive RateRuns : RedisProgram Unit → Prop
  | checkRpm (apiKeyId : String) (limit : Int) : RateRuns (RateLimiter.checkRpm apiKeyId limit)
  | reserve (self : QuotaReserver) (apiKeyId : String) (estimatedTokens : Int) :
      RateRuns ((self.reserve apiKeyId estimatedTokens).bind fun _ => .ret ())
  | finalize (reservation : TokenReservation) (apiKeyId : String)
      (hkey : reservation.key = tpmKey apiKeyId) (actualTokens : Int) (releaseAll : Bool) :
      RateRuns (reservation.finalize actualTokens releaseAll).2

abbrev RateThread := Thread RedisOp RedisOp.Res PyExc Unit

def rateSystem (applies fails : Redis → RedisOp → Prop) : System Redis RateThread :=
  openSystem (redisExec applies fails) RateRuns Redis.Expires

def IsRateKey (name : String) : Prop := ∃ apiKeyId, name = rpmKey apiKeyId ∨ name = tpmKey apiKeyId

/-- Every RPM and TPM key that exists has a time to live. -/
def RateKeysExpire (redis : Redis) : Prop :=
  ∀ name, IsRateKey name → ∀ entry, redis name = some entry → entry.ttl ≠ none

/-- The call has made its INCR or INCRBY and will send EXPIRE next. -/
def AboutToExpire (t : RateThread) : Prop :=
  ∃ name time next, t.program = .call (.expire name time) next

/-- The key that a call is about to give a time to live. -/
inductive RatePhase where
  | free
  | pending (name : String)

def rateProtocol : Protocol RedisOp RedisOp.Res PyExc RatePhase where
  may
    | .free, .incr _ => True
    | .free, .incrby _ _ => True
    | .free, .decrby _ _ => True
    | .free, .delete _ => True
    | .pending name, .expire other _ => other = name
    | _, _ => False
  after
    | .free, .incr name, .ok count => if count = 1 then .pending name else .free
    | .free, .incrby name amount, .ok count => if count = amount then .pending name else .free
    | _, _, _ => .free

/-- At its end a call is about to expire nothing. -/
def RateDone {α : Type} (φ : RatePhase) (_ : Except PyExc α) : Prop := φ = .free

theorem follows_redisCall_bind {α : Type} {op : RedisOp} {rest : op.Res → RedisProgram α} {φ : RatePhase}
    (hmay : rateProtocol.may φ op) (herror : ∀ exc, rateProtocol.after φ op (.error exc) = .free)
    (hok : ∀ value, (rest value).Follows rateProtocol RateDone (rateProtocol.after φ op (.ok value))) :
    ((redisCall op).bind rest).Follows rateProtocol RateDone φ := by
  rw [redisCall_eq, Program.call_bind]
  refine ⟨hmay, ?_⟩
  intro answer
  cases answer with
  | ok value => exact hok value
  | error exc => exact herror exc

theorem follows_loggedCall_bind {α : Type} {op : RedisOp} {rest : Unit → RedisProgram α}
    (hmay : rateProtocol.may .free op) (hafter : ∀ answer, rateProtocol.after .free op answer = .free)
    (hrest : (rest ()).Follows rateProtocol RateDone .free) :
    ((loggedCall op).bind rest).Follows rateProtocol RateDone .free := by
  rw [loggedCall_eq, Program.call_bind]
  refine ⟨hmay, ?_⟩
  intro answer
  rw [hafter]
  cases answer with
  | ok value => exact hrest
  | error exc =>
      simp only
      split
      · exact hrest
      · exact rfl

theorem follows_checkRpm (apiKeyId : String) (limit : Int) :
    (RateLimiter.checkRpm apiKeyId limit).Follows rateProtocol RateDone .free := by
  refine follows_redisCall_bind trivial (fun exc => rfl) ?_
  intro count
  have hrest : (if limit < count then Program.raise (.app rateLimitExceeded)
      else pure () : RedisProgram Unit).Follows rateProtocol RateDone .free := by
    split
    · exact rfl
    · exact rfl
  simp only [rateProtocol]
  split
  · refine follows_redisCall_bind rfl (fun exc => rfl) ?_
    intro value
    exact hrest
  · exact hrest

theorem follows_reserve (self : QuotaReserver) (apiKeyId : String) (estimatedTokens : Int) :
    (self.reserve apiKeyId estimatedTokens).Follows rateProtocol RateDone .free := by
  unfold QuotaReserver.reserve
  split
  · exact rfl
  · refine follows_redisCall_bind trivial (fun exc => rfl) ?_
    intro count
    have hrest : (if self.tpmLimit < count then do
          loggedCall (.decrby (tpmKey apiKeyId) estimatedTokens)
          Program.raise (.app tokenRateLimitExceeded)
        else pure (.redis ⟨tpmKey apiKeyId, estimatedTokens, false⟩) :
        RedisProgram TokenReservationLike).Follows rateProtocol RateDone .free := by
      split
      · exact follows_loggedCall_bind trivial (fun answer => rfl) rfl
      · exact rfl
    simp only [rateProtocol]
    split
    · refine follows_redisCall_bind rfl (fun exc => rfl) ?_
      intro value
      exact hrest
    · exact hrest

theorem follows_countDown (key : String) (tokens : Int) :
    (TokenReservation.giveBack key tokens).Follows rateProtocol RateDone .free := by
  rw [giveTokensBack_eq]
  refine ⟨trivial, ?_⟩
  intro answer
  cases answer with
  | error exc =>
      simp only [countDown, Program.bind_eq, Program.raise_bind, Program.tryExcept]
      split
      · exact rfl
      · exact rfl
  | ok remaining =>
      simp only [countDown_ret]
      split
      · refine ⟨trivial, ?_⟩
        intro answer
        cases answer with
        | ok value => exact rfl
        | error exc =>
            simp only
            split
            · exact rfl
            · exact rfl
      · exact rfl

theorem follows_rate {program : RedisProgram Unit} (h : RateRuns program) :
    program.Follows rateProtocol RateDone .free := by
  cases h with
  | checkRpm apiKeyId limit => exact follows_checkRpm apiKeyId limit
  | reserve self apiKeyId estimatedTokens =>
      rw [Program.follows_bind]
      refine (follows_reserve self apiKeyId estimatedTokens).mono ?_
      intro φ outcome hdone
      cases outcome with
      | ok value => exact hdone
      | error exc => exact hdone
  | finalize reservation apiKeyId hkey actualTokens releaseAll =>
      by_cases hfinalized : reservation.finalized = true
      · rw [finalize_of_finalized hfinalized]
        exact rfl
      · rw [finalize_of_live (by simpa using hfinalized)]
        simp only
        split
        · exact rfl
        · exact follows_countDown _ _

/-- A counter command keeps the time to live of its key, or creates the key without one. -/
theorem Redis.add_ttl (redis : Redis) (name : String) (amount : Int) (other : String) (entry : RedisEntry)
    (h : (redis.add name amount).2 other = some entry) :
    (∃ before, redis other = some before ∧ before.ttl = entry.ttl) ∨
      (other = name ∧ redis name = none ∧ (redis.add name amount).1 = .ok amount) := by
  by_cases hother : other = name
  · subst hother
    unfold Redis.add at h ⊢
    cases hentry : redis other with
    | none => exact .inr ⟨rfl, rfl, rfl⟩
    | some before =>
        obtain ⟨value, ttl⟩ := before
        refine .inl ⟨⟨value, ttl⟩, rfl, ?_⟩
        rw [hentry] at h
        cases value with
        | counter n =>
            simp only [Function.update_self, Option.some.injEq] at h
            rw [← h]
        | text s =>
            cases hint : s.toInt? with
            | none =>
                simp only [hint, hentry, Option.some.injEq] at h
                rw [← h]
            | some n =>
                simp only [hint, Function.update_self, Option.some.injEq] at h
                rw [← h]
  · have hsame : (redis.add name amount).2 other = redis other := redis.add_other name amount hother
    rw [hsame] at h
    exact .inl ⟨entry, h, rfl⟩

/-- A rate-limit key without a time to live is one of those that some call is about to give one. -/
def Awaited (redis : Redis) (pending : Multiset String) : Prop :=
  ∀ name, IsRateKey name → ∀ entry, redis name = some entry → entry.ttl = none → name ∈ pending

def RatePhase.names : RatePhase → Multiset String
  | free => 0
  | pending name => {name}

/-- A call that awaits a key may only send the EXPIRE of this key. -/
theorem expire_of_pending {name : String} {op : RedisOp} (hmay : rateProtocol.may (.pending name) op) :
    ∃ time, op = .expire name time := by
  cases op with
  | expire other time =>
      obtain rfl : other = name := hmay
      exact ⟨time, rfl⟩
  | get other => exact hmay.elim
  | incr other => exact hmay.elim
  | incrby other amount => exact hmay.elim
  | decr other => exact hmay.elim
  | decrby other amount => exact hmay.elim
  | delete other => exact hmay.elim

theorem Awaited.mono {redis : Redis} {pending more : Multiset String} (h : Awaited redis pending)
    (hle : pending ≤ more) : Awaited redis more :=
  fun name hname entry hentry httl => Multiset.mem_of_le hle (h name hname entry hentry httl)

/-- A counter command, with the key it awaits when it finds none. -/
theorem awaited_add {redis : Redis} {m pending : Multiset String} (h : Awaited redis m) (name : String)
    (amount : Int)
    (hfresh : redis name = none → (redis.add name amount).1 = .ok amount → name ∈ pending) :
    Awaited (redis.add name amount).2 (pending + m) := by
  intro other hother entry hentry httl
  rcases Redis.add_ttl redis name amount other entry hentry with ⟨before, hbefore, hsame⟩ | ⟨rfl, hnone, hreply⟩
  · exact Multiset.mem_add.mpr (.inr (h other hother before hbefore (hsame.trans httl)))
  · exact Multiset.mem_add.mpr (.inl (hfresh hnone hreply))

theorem awaited_remove {redis : Redis} {m : Multiset String} (h : Awaited redis m) (name : String) :
    Awaited (redis.remove name) m := by
  intro other hother entry hentry httl
  by_cases hname : other = name
  · rw [Redis.remove, hname, Function.update_self] at hentry
    cases hentry
  · rw [Redis.remove, Function.update_of_ne hname] at hentry
    exact h other hother entry hentry httl

/-- EXPIRE gives the key its time to live, or does not find it. -/
theorem awaited_expire {redis : Redis} {m : Multiset String} {name : String}
    (h : Awaited redis ({name} + m)) (time : Nat) :
    Awaited (Redis.apply (.expire name time) redis).2 m := by
  intro other hother entry hentry httl
  by_cases hname : other = name
  · subst hname
    simp only [Redis.apply] at hentry
    cases hbefore : redis other with
    | none =>
        rw [hbefore] at hentry
        simp only at hentry
        rw [hbefore] at hentry
        cases hentry
    | some before =>
        rw [hbefore] at hentry
        simp only [Function.update_self, Option.some.injEq] at hentry
        rw [← hentry] at httl
        cases httl
  · have hsame : (Redis.apply (.expire name time) redis).2 other = redis other := redis.expire_other name time hname
    rw [hsame] at hentry
    rcases Multiset.mem_add.mp (h other hother entry hentry httl) with hmem | hmem
    · exact absurd (Multiset.mem_singleton.mp hmem) hname
    · exact hmem

/-- A DECRBY takes effect on keys that exist only. -/
def ReachesKey (redis : Redis) : RedisOp → Prop
  | .decrby name _ => (redis name).isSome = true
  | _ => True

/-- An EXPIRE fails on keys that are absent or have a time to live only. -/
def FailsHarmlessly (redis : Redis) : RedisOp → Prop
  | .expire name _ => ∀ entry, redis name = some entry → entry.ttl ≠ none
  | _ => True

/-- A command that takes effect in a call that has no EXPIRE to send. -/
theorem awaited_of_free {redis : Redis} {m : Multiset String} (h : Awaited redis m) {op : RedisOp}
    (hmay : rateProtocol.may .free op) (hreaches : ReachesKey redis op) :
    Awaited (Redis.apply op redis).2
      ((rateProtocol.after .free op (Redis.apply op redis).1).names + m) := by
  cases op with
  | incr name =>
      refine awaited_add h name 1 ?_
      intro _ hreply
      simp only [Redis.apply, hreply, rateProtocol, if_true]
      exact Multiset.mem_singleton_self name
  | incrby name amount =>
      refine awaited_add h name amount ?_
      intro _ hreply
      simp only [Redis.apply, hreply, rateProtocol, if_true]
      exact Multiset.mem_singleton_self name
  | decrby name amount =>
      refine awaited_add h name (-amount) ?_
      intro hnone _
      rw [ReachesKey, hnone] at hreaches
      cases hreaches
  | delete name =>
      refine (awaited_remove h name).mono ?_
      exact Multiset.le_add_left _ _
  | get name => exact hmay.elim
  | decr name => exact hmay.elim
  | expire name time => exact hmay.elim

theorem rate_awaited : Justified (redisExec ReachesKey FailsHarmlessly) rateProtocol .free RatePhase.names
    Awaited (fun _ _ => True) where
  start := ⟨rfl, fun redis => trivial⟩
  call φ op redis answer redis' m h _ hmay hexec := by
    refine ⟨?_, trivial⟩
    rcases hexec with ⟨hreaches, rfl, rfl⟩ | ⟨exc, hfails, rfl, rfl⟩
    · cases φ with
      | free =>
          rw [RatePhase.names, zero_add] at h
          exact awaited_of_free h hmay hreaches
      | pending name =>
          obtain ⟨time, rfl⟩ := expire_of_pending hmay
          exact (awaited_expire h time).mono (Multiset.le_add_left _ _)
    · have hfree : rateProtocol.after φ op (.error exc) = .free := by
        cases φ <;> cases op <;> rfl
      rw [hfree, RatePhase.names, zero_add]
      cases φ with
      | free =>
          rw [RatePhase.names, zero_add] at h
          exact h
      | pending name =>
          obtain ⟨time, rfl⟩ := expire_of_pending hmay
          intro key hkey entry hentry httl
          rcases Multiset.mem_add.mp (h key hkey entry hentry httl) with hmem | hmem
          · rw [Multiset.mem_singleton.mp hmem] at hentry
            exact absurd httl (hfails entry hentry)
          · exact hmem
  frame φ ψ op redis answer redis' m _ _ _ _ _ := trivial

theorem awaited_expires {redis redis' : Redis} {m : Multiset String} (h : Awaited redis m)
    (hexpires : redis.Expires redis') : Awaited redis' m := by
  obtain ⟨name, value, time, -, rfl⟩ := hexpires
  exact awaited_remove h name

/-- A call that is not about to send EXPIRE awaits nothing. -/
theorem names_of_idle {redis : Redis} {t : RateThread}
    (h : Knows rateProtocol .free RateDone (fun _ _ => True) redis t) (hidle : ¬ AboutToExpire t) :
    (rateProtocol.phase .free t.calls).names = 0 := by
  obtain ⟨-, hfollows⟩ := h
  cases hphase : rateProtocol.phase .free t.calls with
  | free => rfl
  | pending name =>
      rw [hphase] at hfollows
      cases hprogram : t.program with
      | ret value => rw [hprogram] at hfollows; cases hfollows
      | raise exc => rw [hprogram] at hfollows; cases hfollows
      | call op next =>
          rw [hprogram] at hfollows
          obtain ⟨time, rfl⟩ := expire_of_pending hfollows.1
          exact absurd ⟨name, time, next, hprogram⟩ hidle

/-- **Rate-limit keys expire**, in every run whose DECRBYs reach a key and whose EXPIREs do not fail on a
key without a time to live. -/
theorem rateKeys_expire {redis : Redis} (hstart : RateKeysExpire redis) {p : Pool Redis RateThread}
    (h : (rateSystem ReachesKey FailsHarmlessly).Reachable redis p)
    (hidle : ∀ t ∈ p.threads, ¬ AboutToExpire t) : RateKeysExpire p.shared := by
  have hinit : Awaited redis 0 := fun name hname entry hentry httl =>
    absurd httl (hstart name hname entry hentry)
  have haccounts := rate_awaited.openAccounts (fun _ => follows_rate)
    (fun _ _ _ hawaited => awaited_expires hawaited) fun _ _ _ _ _ => trivial
  obtain ⟨hawaited, hthreads⟩ := haccounts.reachable hinit h
  have hnames : (p.threads.map fun t => (rateProtocol.phase .free t.calls).names).sum = 0 := by
    apply List.sum_eq_zero
    intro names hnames
    obtain ⟨t, ht, rfl⟩ := List.mem_map.mp hnames
    exact names_of_idle (hthreads t ht) (hidle t ht)
  intro name hname entry hentry httl
  have hmem := hawaited name hname entry hentry httl
  rw [hnames] at hmem
  exact Multiset.notMem_zero name hmem

/-- A command of a single call that takes effect. -/
theorem reachable_applied {applies fails : Redis → RedisOp → Prop} {first redis : Redis} {op : RedisOp}
    {calls : List (Event RedisOp RedisOp.Res PyExc)} {next : Except PyExc op.Res → RedisProgram Unit}
    (h : (rateSystem applies fails).Reachable first ⟨redis, [⟨calls, .call op next, false⟩]⟩)
    (happlies : applies redis op) : (rateSystem applies fails).Reachable first
      ⟨(Redis.apply op redis).2, [⟨calls ++ [⟨op, (Redis.apply op redis).1⟩],
        next (Redis.apply op redis).1, false⟩]⟩ :=
  h.tail (.act [] [] (.call (.inl ⟨happlies, rfl, rfl⟩)))

theorem reachable_rate (applies fails : Redis → RedisOp → Prop) {program : RedisProgram Unit}
    (h : RateRuns program) (redis : Redis) :
    (rateSystem applies fails).Reachable redis ⟨redis, [Thread.start program]⟩ :=
  Relation.ReflTransGen.refl.tail (.start _ ⟨program, h, rfl⟩)

def emptyRedis : Redis := fun _ => none

theorem emptyRedis_expire : RateKeysExpire emptyRedis := by
  intro name hname entry hentry
  cases hentry

/-- The only call of a pool is over. -/
theorem idle_of_over {calls : List (Event RedisOp RedisOp.Res PyExc)} {program : RedisProgram Unit}
    (h : ∀ op next, program ≠ .call op next) :
    ∀ t ∈ [(⟨calls, program, false⟩ : RateThread)], ¬ AboutToExpire t := by
  intro t ht
  rw [List.mem_singleton.mp ht]
  rintro ⟨name, time, next, hprogram⟩
  exact h _ _ hprogram

/-- One request is counted. -/
theorem rateKeys_expire_counted : ∃ p, (rateSystem ReachesKey FailsHarmlessly).Reachable emptyRedis p ∧
    (p.shared (rpmKey "key")).isSome = true ∧ RateKeysExpire p.shared := by
  have h := reachable_rate ReachesKey FailsHarmlessly (RateRuns.checkRpm "key" 10) emptyRedis
  have h := reachable_applied h trivial
  have h := reachable_applied h trivial
  refine ⟨_, h, rfl, rateKeys_expire emptyRedis_expire h ?_⟩
  refine idle_of_over ?_
  intro op next hprogram
  cases hprogram

/-- An EXPIRE that fails leaves its key without a time to live; so does, with no failure at all, a
rejected reservation that is rolled back after its key has expired. -/
theorem rateKeys_stuck :
    (¬ ∀ (redis : Redis) (p : Pool Redis RateThread), RateKeysExpire redis →
      (rateSystem (fun _ _ => True) fun _ _ => True).Reachable redis p →
        (∀ t ∈ p.threads, ¬ AboutToExpire t) → RateKeysExpire p.shared) ∧
    ¬ ∀ (redis : Redis) (p : Pool Redis RateThread), RateKeysExpire redis →
      (rateSystem (fun _ _ => True) fun _ _ => False).Reachable redis p →
        (∀ t ∈ p.threads, ¬ AboutToExpire t) → RateKeysExpire p.shared := by
  refine ⟨?_, ?_⟩
  · intro hexpire
    have h := reachable_rate (fun _ _ => True) (fun _ _ => True) (RateRuns.checkRpm "key" 10) emptyRedis
    have h := reachable_applied h trivial
    have h := h.tail (.act [] [] (.call (.inr ⟨valueError, trivial, rfl, rfl⟩)))
    refine hexpire emptyRedis _ emptyRedis_expire h ?_ (rpmKey "key") ⟨"key", .inl rfl⟩
      ⟨.counter 1, none⟩ rfl rfl
    refine idle_of_over ?_
    intro op next hprogram
    cases hprogram
  · intro hexpire
    have h := reachable_rate (fun _ _ => True) (fun _ _ => False)
      (RateRuns.reserve ⟨true, 100⟩ "key" 200) emptyRedis
    have h := reachable_applied h trivial
    have h := reachable_applied h trivial
    have h := h.tail (.env ⟨tpmKey "key", .counter 200, 60, rfl, rfl⟩)
    have h := reachable_applied h trivial
    refine hexpire emptyRedis _ emptyRedis_expire h ?_ (tpmKey "key") ⟨"key", .inr rfl⟩
      ⟨.counter (-200), none⟩ rfl rfl
    refine idle_of_over ?_
    intro op next hprogram
    cases hprogram

end GpuInference
