import GpuInference.RateAdmission

/-!
What a refused admission leaves behind. A slot that is refused is given back, and so are refused tokens; but a slot that
has been taken stays taken when the tokens are refused, and so does one whose INCR has taken effect and then failed.
-/

open Effect

namespace GpuInference

/-- A command fails; it may have taken effect all the same. -/
structure RedisFault where
  exc : PyExc
  effective : Bool
  deriving DecidableEq, Repr

/-- One command, which fails when `faults` says so. -/
def Redis.faulty (faults : RedisOp → Option RedisFault) (op : RedisOp) (redis : Redis) :
    Except PyExc op.Res × Redis :=
  match faults op with
  | none => Redis.apply op redis
  | some fault => (.error fault.exc, if fault.effective then (Redis.apply op redis).2 else redis)

/-- The value of a key: an absent key counts as zero, and a text that is an integer is that number. -/
def Redis.shows (redis : Redis) (name : String) : RedisValue :=
  match redis name with
  | none => .counter 0
  | some ⟨.counter n, _⟩ => .counter n
  | some ⟨.text s, _⟩ =>
      match s.toInt? with
      | some n => .counter n
      | none => .text s

namespace Redis

variable {redis redis' : Redis} {name : String}

theorem shows_congr (h : redis' name = redis name) : redis'.shows name = redis.shows name := by
  rw [shows, h, shows]

/-- A counter command on a number. -/
theorem add_of_counter {n : Int} (h : redis.shows name = .counter n) (amount : Int) :
    (redis.add name amount).1 = .ok (n + amount) ∧ (redis.add name amount).2.shows name = .counter (n + amount) := by
  unfold shows at h
  unfold add
  cases hentry : redis name with
  | none =>
      rw [hentry] at h
      cases h
      simp [shows]
  | some entry =>
      obtain ⟨value, ttl⟩ := entry
      rw [hentry] at h
      cases value with
      | counter m =>
          cases h
          simp [shows]
      | text s =>
          simp only at h
          cases hint : s.toInt? with
          | none =>
              rw [hint] at h
              cases h
          | some m =>
              rw [hint] at h
              cases h
              simp [shows, hint]

/-- A counter command on anything else fails and has no effect. -/
theorem add_of_text {s : String} (h : redis.shows name = .text s) (amount : Int) :
    redis.add name amount = (.error responseError, redis) := by
  unfold shows at h
  unfold add
  cases hentry : redis name with
  | none =>
      rw [hentry] at h
      cases h
  | some entry =>
      obtain ⟨value, ttl⟩ := entry
      rw [hentry] at h
      cases value with
      | counter m => cases h
      | text t =>
          simp only at h ⊢
          cases hint : t.toInt? with
          | none => rfl
          | some m =>
              rw [hint] at h
              cases h

/-- `EXPIRE` changes the value of no key. -/
theorem shows_expire (redis : Redis) (name : String) (time : Nat) (other : String) :
    (apply (.expire name time) redis).2.shows other = redis.shows other := by
  by_cases hother : other = name
  · subst hother
    unfold shows
    simp only [apply]
    cases hentry : redis other with
    | none => simp [hentry]
    | some entry =>
        obtain ⟨value, ttl⟩ := entry
        simp only [Function.update_self]
        cases value with
        | counter n => rfl
        | text s => rfl
  · exact shows_congr (redis.expire_other name time hother)

end Redis

theorem head_concurrencyKey (apiKeyId : String) : (concurrencyKey apiKeyId).toList.head? = some 'c' := by
  have hlist : (concurrencyKey apiKeyId).toList = "concurrent:api_key:".toList ++ apiKeyId.toList :=
    String.toList_append
  rw [hlist, List.head?_append]
  simp

theorem head_rpmKey (apiKeyId : String) : (rpmKey apiKeyId).toList.head? = some 'r' := by
  rw [rpmKey, String.toList_append, List.head?_append, String.toList_append, List.head?_append]
  rfl

theorem head_tpmKey (apiKeyId : String) : (tpmKey apiKeyId).toList.head? = some 'r' := by
  rw [tpmKey, String.toList_append, List.head?_append, String.toList_append, List.head?_append]
  rfl

theorem concurrencyKey_ne_rpmKey (apiKeyId : String) : concurrencyKey apiKeyId ≠ rpmKey apiKeyId := by
  intro h
  have hhead := (head_concurrencyKey apiKeyId).symm.trans ((congrArg (·.toList.head?) h).trans (head_rpmKey apiKeyId))
  cases hhead

theorem concurrencyKey_ne_tpmKey (apiKeyId : String) : concurrencyKey apiKeyId ≠ tpmKey apiKeyId := by
  intro h
  have hhead := (head_concurrencyKey apiKeyId).symm.trans ((congrArg (·.toList.head?) h).trans (head_tpmKey apiKeyId))
  cases hhead

theorem tpmKey_ne_rpmKey (apiKeyId : String) : tpmKey apiKeyId ≠ rpmKey apiKeyId := by
  intro h
  have hlist := congrArg String.toList h
  simp [tpmKey, rpmKey] at hlist

section Steps

variable (faults : RedisOp → Option RedisFault) (redis : Redis) (apiKeyId : String)

/-- The overload flag can be read and is clear. -/
def OverloadPasses : Prop :=
  faults (.get overloadKey) = none ∧
    ∀ value, (Redis.apply (.get overloadKey) redis).1 = .ok value → value.any overloaded = false

/-- The request can be counted within the limit. -/
def RequestPasses (limit : Int) : Prop :=
  faults (.incr (rpmKey apiKeyId)) = none ∧ ∃ n, redis.shows (rpmKey apiKeyId) = .counter n ∧ n + 1 ≤ limit ∧
    (n = 0 → faults (.expire (rpmKey apiKeyId) rpmWindowSeconds) = none)

/-- A slot can be taken within the limit. -/
def SlotPasses (limit : Int) : Prop :=
  faults (.incr (concurrencyKey apiKeyId)) = none ∧
    ∃ n, redis.shows (concurrencyKey apiKeyId) = .counter n ∧ n + 1 ≤ limit

/-- The INCR of a slot takes effect, and then fails. -/
def SlotLost : Prop :=
  ∃ fault n, faults (.incr (concurrencyKey apiKeyId)) = some fault ∧ fault.effective = true ∧
    redis.shows (concurrencyKey apiKeyId) = .counter n

/-- The tokens can be counted within the limit, or there is nothing to count. -/
def TokensPass (self : QuotaReserver) (tokens : Int) : Prop :=
  self.redis = false ∨ tokens ≤ 0 ∨
    faults (.incrby (tpmKey apiKeyId) tokens) = none ∧ ∃ n, redis.shows (tpmKey apiKeyId) = .counter n ∧
      n + tokens ≤ self.tpmLimit ∧ (n = 0 → faults (.expire (tpmKey apiKeyId) tpmWindowSeconds) = none)

end Steps

/-- A counter command that may fail. -/
def Redis.adding (fault : Option RedisFault) (name : String) (amount : Int) (redis : Redis) :
    Except PyExc Int × Redis :=
  match fault with
  | none => redis.add name amount
  | some fault => (.error fault.exc, if fault.effective then (redis.add name amount).2 else redis)

/-- A counter command returns the sum, or it fails, and then it has no effect unless its fault says so. -/
theorem adding_spec (fault : Option RedisFault) (name : String) {amount : Int} (hamount : amount ≠ 0)
    (redis : Redis) :
    (∃ n redis', fault = none ∧ redis.shows name = .counter n ∧
      Redis.adding fault name amount redis = (.ok (n + amount), redis') ∧
        redis'.shows name = .counter (n + amount)) ∨
      ∃ exc redis', (fault = none → ∀ n, redis.shows name ≠ .counter n) ∧
        Redis.adding fault name amount redis = (.error exc, redis') ∧
          (redis'.shows name = redis.shows name ↔
            ¬ ∃ f n, fault = some f ∧ f.effective = true ∧ redis.shows name = .counter n) := by
  cases hshows : redis.shows name with
  | text s =>
      right
      cases fault with
      | none =>
          refine ⟨responseError, redis, by simp, Redis.add_of_text hshows amount, ?_⟩
          simp [hshows]
      | some fault =>
          refine ⟨fault.exc, redis, by simp, ?_, by simp [hshows]⟩
          simp [Redis.adding, Redis.add_of_text hshows amount]
  | counter n =>
      obtain ⟨hreply, hstored⟩ := Redis.add_of_counter hshows amount
      cases fault with
      | none => exact .inl ⟨n, (redis.add name amount).2, rfl, rfl, Prod.ext hreply rfl, hstored⟩
      | some fault =>
          right
          refine ⟨fault.exc, _, by simp, rfl, ?_⟩
          cases heffective : fault.effective with
          | false => simp [hshows, heffective]
          | true =>
              have hmoved : n + amount ≠ n := by omega
              simp [hstored, heffective, hmoved]

section Run

variable {faults : RedisOp → Option RedisFault} {redis : Redis}

theorem faulty_other {op : RedisOp} {other : String} (h : (Redis.apply op redis).2 other = redis other) :
    (Redis.faulty faults op redis).2 other = redis other := by
  unfold Redis.faulty
  cases faults op with
  | none => exact h
  | some fault =>
      simp only
      split
      · exact h
      · rfl

/-- How a call goes on after the reply to a command. -/
def goesOn {α β : Type} (faults : RedisOp → Option RedisFault) (rest : β → RedisProgram α) :
    Except PyExc β × Redis → Except PyExc α × Redis
  | (.ok value, redis) => (rest value).run (Redis.faulty faults) redis
  | (.error exc, redis) => (.error (redisFailure exc), redis)

theorem run_redisCall_bind {α : Type} (op : RedisOp) (rest : op.Res → RedisProgram α) :
    ((redisCall op).bind rest).run (Redis.faulty faults) redis =
      goesOn faults rest (Redis.faulty faults op redis) := by
  rw [redisCall_eq, Program.call_bind, Program.run_call]
  rcases Redis.faulty faults op redis with ⟨exc | value, redis'⟩
  · rfl
  · rfl

/-- The program, run on the keyspace, returns exactly when `passes` holds, and changes no key but `key`. -/
def ReturnsIff {α : Type} (faults : RedisOp → Option RedisFault) (key : String) (program : RedisProgram α)
    (redis : Redis) (passes : Prop) : Prop :=
  ∃ outcome redis', program.run (Redis.faulty faults) redis = (outcome, redis') ∧
    (outcome.isOk = true ↔ passes) ∧ ∀ name, name ≠ key → redis' name = redis name

theorem returnsIff_ret {α : Type} (key : String) (value : α) :
    ReturnsIff faults key (.ret value) redis True := ⟨.ok value, redis, rfl, by simp [Except.isOk, Except.toBool],
      fun _ _ => rfl⟩

theorem returnsIff_raise {α : Type} (key : String) (exc : PyExc) :
    ReturnsIff faults key (.raise exc : RedisProgram α) redis False :=
  ⟨.error exc, redis, rfl, by simp [Except.isOk, Except.toBool], fun _ _ => rfl⟩

/-- A key that is fresh needs its EXPIRE. -/
theorem returnsIff_expire {α : Type} {key : String} (time : Nat) {rest : RedisProgram α} {passes : Prop}
    (fresh : Prop) [Decidable fresh] (hrest : ∀ redis, ReturnsIff faults key rest redis passes) :
    ReturnsIff faults key (if fresh then (redisCall (.expire key time)).bind fun _ => rest else rest) redis
      (passes ∧ (fresh → faults (.expire key time) = none)) := by
  by_cases hfresh : fresh
  · rw [if_pos hfresh]
    have hframe : ∀ name, name ≠ key → (Redis.faulty faults (.expire key time) redis).2 name = redis name :=
      fun name h => faulty_other (redis.expire_other key time h)
    cases hfault : faults (.expire key time) with
    | some fault =>
        refine ⟨.error (redisFailure fault.exc), _, ?_, ?_, hframe⟩
        · rw [run_redisCall_bind, Redis.faulty, hfault, goesOn]
        · simp [Except.isOk, Except.toBool, hfresh]
    | none =>
        obtain ⟨reply, hreply⟩ : ∃ reply, (Redis.faulty faults (.expire key time) redis).1 = .ok reply := by
          rw [Redis.faulty, hfault]
          simp only [Redis.apply]
          cases redis key with
          | none => exact ⟨false, rfl⟩
          | some entry => exact ⟨true, rfl⟩
        obtain ⟨outcome, redis', hrun, hpasses, hframe'⟩ := hrest (Redis.faulty faults (.expire key time) redis).2
        refine ⟨outcome, redis', ?_, by simp [hpasses], fun name h => (hframe' name h).trans (hframe name h)⟩
        rw [run_redisCall_bind, show Redis.faulty faults (.expire key time) redis = (.ok reply, _) from
          Prod.ext hreply rfl]
        exact hrun
  · rw [if_neg hfresh]
    obtain ⟨outcome, redis', hrun, hpasses, hframe⟩ := hrest redis
    exact ⟨outcome, redis', hrun, by simp [hpasses, hfresh], hframe⟩

theorem faulty_incr (key : String) :
    Redis.faulty faults (.incr key) redis = Redis.adding (faults (.incr key)) key 1 redis := by
  unfold Redis.faulty Redis.adding
  cases faults (.incr key) with
  | none => rfl
  | some fault => rfl

theorem faulty_incrby (key : String) (amount : Int) :
    Redis.faulty faults (.incrby key amount) redis = Redis.adding (faults (.incrby key amount)) key amount redis := by
  unfold Redis.faulty Redis.adding
  cases faults (.incrby key amount) with
  | none => rfl
  | some fault => rfl

/-- A counter command and what follows it. -/
theorem returnsIff_adding {α : Type} (fault : Option RedisFault) (key : String) {amount : Int} (hamount : amount ≠ 0)
    (redis : Redis) {rest : Int → RedisProgram α} {passes : Int → Prop}
    (hrest : ∀ n redis, ReturnsIff faults key (rest n) redis (passes n)) :
    ∃ outcome redis', goesOn faults rest (Redis.adding fault key amount redis) = (outcome, redis') ∧
      (outcome.isOk = true ↔ fault = none ∧ ∃ n, redis.shows key = .counter n ∧ passes (n + amount)) ∧
      ∀ name, name ≠ key → redis' name = redis name := by
  have hframe : ∀ name, name ≠ key → (Redis.adding fault key amount redis).2 name = redis name := by
    intro name h
    unfold Redis.adding
    cases fault with
    | none => exact redis.add_other key amount h
    | some fault =>
        simp only
        split
        · exact redis.add_other key amount h
        · rfl
  rcases adding_spec fault key hamount redis with ⟨n, redis', hnone, hshows, hrun, -⟩ | ⟨exc, redis', hfails, hrun, -⟩
  · rw [hrun] at hframe ⊢
    obtain ⟨outcome, redis'', hrun', hpasses, hframe'⟩ := hrest (n + amount) redis'
    refine ⟨outcome, redis'', hrun', ?_, fun name h => (hframe' name h).trans (hframe name h)⟩
    rw [hpasses]
    constructor
    · intro hp
      exact ⟨hnone, n, hshows, hp⟩
    · rintro ⟨-, m, hm, hp⟩
      rw [hshows] at hm
      cases hm
      exact hp
  · rw [hrun] at hframe ⊢
    refine ⟨.error (redisFailure exc), redis', rfl, ?_, hframe⟩
    refine iff_of_false Bool.false_ne_true ?_
    rintro ⟨hnone, n, hn, -⟩
    exact hfails hnone n hn

theorem returnsIff_incr {α : Type} (redis : Redis) {key : String} {rest : Int → RedisProgram α} {passes : Int → Prop}
    (hrest : ∀ n redis, ReturnsIff faults key (rest n) redis (passes n)) :
    ReturnsIff faults key ((redisCall (.incr key)).bind rest) redis
      (faults (.incr key) = none ∧ ∃ n, redis.shows key = .counter n ∧ passes (n + 1)) := by
  unfold ReturnsIff
  rw [run_redisCall_bind, faulty_incr]
  have hone : (1 : Int) ≠ 0 := by decide
  exact returnsIff_adding (faults (.incr key)) key hone redis hrest

theorem returnsIff_incrby {α : Type} (redis : Redis) {key : String} {amount : Int} (hamount : amount ≠ 0)
    {rest : Int → RedisProgram α} {passes : Int → Prop}
    (hrest : ∀ n redis, ReturnsIff faults key (rest n) redis (passes n)) :
    ReturnsIff faults key ((redisCall (.incrby key amount)).bind rest) redis
      (faults (.incrby key amount) = none ∧ ∃ n, redis.shows key = .counter n ∧ passes (n + amount)) := by
  unfold ReturnsIff
  rw [run_redisCall_bind, faulty_incrby]
  exact returnsIff_adding (faults (.incrby key amount)) key hamount redis hrest

/-- A refusal that gives tokens back first. -/
theorem returnsIff_refund {α : Type} (key : String) (tokens : Int) (error : AppError) :
    ReturnsIff faults key ((loggedCall (.decrby key tokens)).bind fun _ => .raise (.app error) : RedisProgram α) redis
      False := by
  have hframe : ∀ name, name ≠ key → (Redis.faulty faults (.decrby key tokens) redis).2 name = redis name :=
    fun name h => faulty_other (redis.add_other key _ h)
  obtain ⟨exc, hrun⟩ : ∃ exc, ((loggedCall (.decrby key tokens)).bind fun _ => .raise (.app error) :
      RedisProgram α).run (Redis.faulty faults) redis =
        (.error exc, (Redis.faulty faults (.decrby key tokens) redis).2) := by
    rw [loggedCall_eq, Program.call_bind, Program.run_call]
    cases (Redis.faulty faults (.decrby key tokens) redis).1 with
    | ok value => exact ⟨_, rfl⟩
    | error exc =>
        cases exc with
        | app error => exact ⟨_, rfl⟩
        | exception code text => exact ⟨_, rfl⟩
        | base name => exact ⟨_, rfl⟩
  exact ⟨.error exc, _, hrun, iff_of_false Bool.false_ne_true id, hframe⟩

theorem ReturnsIff.congr {α : Type} {key : String} {program : RedisProgram α} {passes passes' : Prop}
    (h : ReturnsIff faults key program redis passes) (hiff : passes ↔ passes') :
    ReturnsIff faults key program redis passes' := by
  obtain ⟨outcome, redis', hrun, hpasses, hframe⟩ := h
  exact ⟨outcome, redis', hrun, hpasses.trans hiff, hframe⟩

variable (faults redis)

theorem returnsIff_checkRpm (apiKeyId : String) (limit : Int) :
    ReturnsIff faults (rpmKey apiKeyId) (RateLimiter.checkRpm apiKeyId limit) redis
      (RequestPasses faults redis apiKeyId limit) := by
  have hlimit : ∀ count redis, ReturnsIff faults (rpmKey apiKeyId)
      (if limit < count then Program.raise (.app rateLimitExceeded) else pure () : RedisProgram Unit) redis
      (count ≤ limit) := by
    intro count redis
    split
    · exact (returnsIff_raise _ _).congr (iff_of_false id (by omega))
    · exact (returnsIff_ret _ _).congr (iff_of_true trivial (by omega))
  have hcount := returnsIff_incr redis fun count _ =>
    returnsIff_expire rpmWindowSeconds (count = 1) (hlimit count)
  apply ReturnsIff.congr hcount
  unfold RequestPasses
  apply and_congr_right
  intro _
  apply exists_congr
  intro n
  have hfresh : n + 1 = 1 ↔ n = 0 := by omega
  rw [hfresh]

theorem returnsIff_reserve (self : QuotaReserver) (apiKeyId : String) (tokens : Int) :
    ReturnsIff faults (tpmKey apiKeyId) (self.reserve apiKeyId tokens) redis
      (TokensPass faults redis apiKeyId self tokens) := by
  unfold QuotaReserver.reserve
  by_cases hnoop : (!self.redis) = true ∨ tokens ≤ 0
  · rw [if_pos hnoop]
    apply (returnsIff_ret _ _).congr
    refine iff_of_true trivial ?_
    rcases hnoop with hnone | hzero
    · exact .inl (by simpa using hnone)
    · exact .inr (.inl hzero)
  · rw [if_neg hnoop]
    obtain ⟨hredis, hpositive⟩ := not_or.mp hnoop
    have hlimit : ∀ count redis, ReturnsIff faults (tpmKey apiKeyId)
        (if self.tpmLimit < count then do
            loggedCall (.decrby (tpmKey apiKeyId) tokens)
            Program.raise (.app tokenRateLimitExceeded)
          else pure (.redis ⟨tpmKey apiKeyId, tokens, false⟩) : RedisProgram TokenReservationLike) redis
        (count ≤ self.tpmLimit) := by
      intro count redis
      split
      · exact (returnsIff_refund _ _ _).congr (iff_of_false id (by omega))
      · exact (returnsIff_ret _ _).congr (iff_of_true trivial (by omega))
    have htokens : tokens ≠ 0 := by omega
    have hcount := returnsIff_incrby redis htokens fun count _ =>
      returnsIff_expire tpmWindowSeconds (count = tokens) (hlimit count)
    apply ReturnsIff.congr hcount
    unfold TokensPass
    have hredis' : self.redis ≠ false := by simpa using hredis
    rw [or_iff_right hredis', or_iff_right hpositive]
    apply and_congr_right
    intro _
    apply exists_congr
    intro n
    have hfresh : n + tokens = tokens ↔ n = 0 := by omega
    rw [hfresh]

/-- The overload gate reads only. -/
theorem run_checkOverload :
    ∃ outcome, RateLimiter.checkOverload.run (Redis.faulty faults) redis = (outcome, redis) ∧
      (outcome.isOk = true ↔ OverloadPasses faults redis) := by
  have hread : ∃ value, Redis.apply (.get overloadKey) redis = (.ok value, redis) := ⟨_, rfl⟩
  obtain ⟨value, hread⟩ := hread
  unfold RateLimiter.checkOverload OverloadPasses
  rw [Program.bind_eq, run_redisCall_bind, Redis.faulty]
  cases faults (.get overloadKey) with
  | some fault =>
      refine ⟨.error (redisFailure fault.exc), ?_, iff_of_false Bool.false_ne_true (by simp)⟩
      simp only [hread, goesOn, ite_self]
  | none =>
      simp only [hread, goesOn]
      cases hclear : value.any overloaded with
      | true =>
          refine ⟨.error (.app serverOverloaded), rfl, iff_of_false Bool.false_ne_true ?_⟩
          rintro ⟨-, hall⟩
          rw [hall value rfl] at hclear
          cases hclear
      | false =>
          refine ⟨.ok (), rfl, iff_of_true rfl ⟨trivial, ?_⟩⟩
          intro read hread'
          rw [← Except.ok.inj hread']
          exact hclear

/-- A slot that is handed out is counted; one that is refused is not, unless its INCR was lost. -/
theorem run_acquire (apiKeyId : String) (limit : Int) (hdecr : faults (.decr (concurrencyKey apiKeyId)) = none) :
    ∃ outcome redis', (ConcurrencyLimiter.acquire apiKeyId limit).run (Redis.faulty faults) redis = (outcome, redis') ∧
      (outcome.isOk = true ↔ SlotPasses faults redis apiKeyId limit) ∧
      (redis'.shows (concurrencyKey apiKeyId) = redis.shows (concurrencyKey apiKeyId) ↔
        ¬ SlotPasses faults redis apiKeyId limit ∧ ¬ SlotLost faults redis apiKeyId) ∧
      ∀ name, name ≠ concurrencyKey apiKeyId → redis' name = redis name := by
  have hframe : ∀ name, name ≠ concurrencyKey apiKeyId →
      (Redis.faulty faults (.incr (concurrencyKey apiKeyId)) redis).2 name = redis name :=
    fun name h => faulty_other (redis.add_other _ _ h)
  have hone : (1 : Int) ≠ 0 := by decide
  rw [ConcurrencyLimiter.acquire, Program.bind_eq, run_redisCall_bind]
  rw [faulty_incr] at hframe ⊢
  rcases adding_spec (faults (.incr (concurrencyKey apiKeyId))) (concurrencyKey apiKeyId) hone redis with
    ⟨n, redis', hnone, hshows, hrun, hshows'⟩ | ⟨exc, redis', hfails, hrun, hsame⟩
  · rw [hrun] at hframe ⊢
    have hkept : ¬ SlotLost faults redis apiKeyId := by
      rintro ⟨fault, m, hfault, -⟩
      rw [hnone] at hfault
      cases hfault
    have hpasses : SlotPasses faults redis apiKeyId limit ↔ n + 1 ≤ limit := by
      constructor
      · rintro ⟨-, m, hm, hlimit⟩
        rw [hshows] at hm
        cases hm
        exact hlimit
      · intro hlimit
        exact ⟨hnone, n, hshows, hlimit⟩
    rw [hpasses, goesOn]
    by_cases hrefused : limit < n + 1
    · -- the slot is given back
      obtain ⟨hreply, hback⟩ := Redis.add_of_counter hshows' (-1)
      refine ⟨.error (.app concurrencyLimitExceeded), (redis'.add (concurrencyKey apiKeyId) (-1)).2, ?_, ?_, ?_, ?_⟩
      · rw [if_pos hrefused, loggedCall_eq, Program.bind_eq, Program.call_bind, Program.run_call, Redis.faulty, hdecr]
        simp only [Redis.apply, hreply]
        rfl
      · exact iff_of_false Bool.false_ne_true (by omega)
      · refine iff_of_true ?_ ⟨by omega, hkept⟩
        rw [hback, hshows, Int.add_neg_cancel_right]
      · intro name h
        exact (redis'.add_other _ _ h).trans (hframe name h)
    · refine ⟨.ok ⟨concurrencyKey apiKeyId, false⟩, redis', ?_, iff_of_true rfl (by omega), ?_, hframe⟩
      · rw [if_neg hrefused]
        rfl
      · refine iff_of_false ?_ ?_
        · rw [hshows', hshows]
          intro h
          have hsum := RedisValue.counter.inj h
          omega
        · rintro ⟨h, -⟩
          omega
  · rw [hrun] at hframe ⊢
    have hrefused : ¬ SlotPasses faults redis apiKeyId limit := by
      rintro ⟨hnone, m, hm, -⟩
      exact hfails hnone m hm
    refine ⟨.error (redisFailure exc), redis', rfl, iff_of_false Bool.false_ne_true hrefused, ?_, hframe⟩
    rw [hsame, and_iff_right hrefused]
    exact Iff.rfl

end Run

/-! ### What a refusal leaves -/

/-- A refused admission leaves the concurrency counter and the TPM counter of the key as they were. -/
def RefusalHoldsNothing (self : AdmissionService) (authContext : AuthContext) (estimatedTokens : Int)
    (faults : RedisOp → Option RedisFault) (redis : Redis) : Prop :=
  ∀ exc redis', (self.admitRequest authContext estimatedTokens).run (Redis.faulty faults) redis = (.error exc, redis') →
    redis'.shows (concurrencyKey authContext.apiKeyId) = redis.shows (concurrencyKey authContext.apiKeyId) ∧
      redis'.shows (tpmKey authContext.apiKeyId) = redis.shows (tpmKey authContext.apiKeyId)

/-- When the overload gate and the RPM check pass, no INCR of a slot is lost, and whenever the slot is there, so are
the tokens. -/
def TokensFollowSlot (self : AdmissionService) (apiKeyId : String) (estimatedTokens : Int)
    (faults : RedisOp → Option RedisFault) (redis : Redis) : Prop :=
  OverloadPasses faults redis → RequestPasses faults redis apiKeyId self.rpmLimit →
    ¬ SlotLost faults redis apiKeyId ∧ (SlotPasses faults redis apiKeyId self.concurrentRequestLimit →
      TokensPass faults redis apiKeyId self.quotaReserver estimatedTokens)

section Refusal

variable {faults : RedisOp → Option RedisFault} {redis redis' : Redis} {apiKeyId : String}

theorem slotPasses_congr (h : redis'.shows (concurrencyKey apiKeyId) = redis.shows (concurrencyKey apiKeyId))
    (limit : Int) : SlotPasses faults redis' apiKeyId limit ↔ SlotPasses faults redis apiKeyId limit := by
  unfold SlotPasses
  rw [h]

theorem slotLost_congr (h : redis'.shows (concurrencyKey apiKeyId) = redis.shows (concurrencyKey apiKeyId)) :
    SlotLost faults redis' apiKeyId ↔ SlotLost faults redis apiKeyId := by
  unfold SlotLost
  rw [h]

theorem tokensPass_congr (h : redis'.shows (tpmKey apiKeyId) = redis.shows (tpmKey apiKeyId)) (self : QuotaReserver)
    (tokens : Int) : TokensPass faults redis' apiKeyId self tokens ↔ TokensPass faults redis apiKeyId self tokens := by
  unfold TokensPass
  rw [h]

/-- Where the program raises, the two counters of the key are as they were in `before`. -/
def HoldsNothing {α : Type} (faults : RedisOp → Option RedisFault) (apiKeyId : String) (before : Redis)
    (program : RedisProgram α) (redis : Redis) : Prop :=
  ∀ exc redis', program.run (Redis.faulty faults) redis = (.error exc, redis') →
    redis'.shows (concurrencyKey apiKeyId) = before.shows (concurrencyKey apiKeyId) ∧
      redis'.shows (tpmKey apiKeyId) = before.shows (tpmKey apiKeyId)

variable {α β : Type} {before : Redis} {body : RedisProgram α} {rest : α → RedisProgram β}

theorem holdsNothing_bind_error {exc : PyExc} (h : body.run (Redis.faulty faults) redis = (.error exc, redis')) :
    HoldsNothing faults apiKeyId before (body.bind rest) redis ↔
      redis'.shows (concurrencyKey apiKeyId) = before.shows (concurrencyKey apiKeyId) ∧
        redis'.shows (tpmKey apiKeyId) = before.shows (tpmKey apiKeyId) := by
  unfold HoldsNothing
  rw [Program.run_bind, h]
  constructor
  · intro hholds
    exact hholds exc redis' rfl
  · intro hsame other redis'' hrun
    cases hrun
    exact hsame

theorem holdsNothing_bind_ok {value : α} (h : body.run (Redis.faulty faults) redis = (.ok value, redis')) :
    HoldsNothing faults apiKeyId before (body.bind rest) redis ↔
      HoldsNothing faults apiKeyId before (rest value) redis' := by
  unfold HoldsNothing
  rw [Program.run_bind, h]

/-- With the slot held, nothing gives it back when the tokens are refused. -/
theorem holdsNothing_reserve (self : AdmissionService) (estimatedTokens : Int)
    (hheld : redis.shows (concurrencyKey apiKeyId) ≠ before.shows (concurrencyKey apiKeyId))
    (htokens : redis.shows (tpmKey apiKeyId) = before.shows (tpmKey apiKeyId))
    (rest : TokenReservationLike → AdmissionLease.Object) :
    HoldsNothing faults apiKeyId before ((self.quotaReserver.reserve apiKeyId estimatedTokens).bind fun reservation =>
      .ret (rest reservation)) redis ↔ TokensPass faults before apiKeyId self.quotaReserver estimatedTokens := by
  obtain ⟨reserved, redis', hreserve, hpasses, hframe⟩ := returnsIff_reserve faults redis self.quotaReserver
    apiKeyId estimatedTokens
  rw [← tokensPass_congr htokens, ← hpasses]
  have hslot := Redis.shows_congr (hframe _ (concurrencyKey_ne_tpmKey apiKeyId))
  cases reserved with
  | error exc =>
      rw [holdsNothing_bind_error hreserve]
      refine iff_of_false ?_ Bool.false_ne_true
      rintro ⟨hsame, -⟩
      exact hheld (hslot.symm.trans hsame)
  | ok reservation =>
      rw [holdsNothing_bind_ok hreserve]
      refine iff_of_true ?_ rfl
      intro exc redis'' hrun
      cases hrun

/-- A slot that is refused is held only when its INCR was lost, and one that is handed out is held until its lease is
released. -/
theorem holdsNothing_acquire (self : AdmissionService) (estimatedTokens : Int)
    (hdecr : faults (.decr (concurrencyKey apiKeyId)) = none)
    (hslot : redis.shows (concurrencyKey apiKeyId) = before.shows (concurrencyKey apiKeyId))
    (htokens : redis.shows (tpmKey apiKeyId) = before.shows (tpmKey apiKeyId)) :
    HoldsNothing faults apiKeyId before ((ConcurrencyLimiter.acquire apiKeyId self.concurrentRequestLimit).bind
      fun concurrency => (self.quotaReserver.reserve apiKeyId estimatedTokens).bind fun tokenReservation =>
        .ret (AdmissionLease.Object.mk concurrency tokenReservation)) redis ↔
    ¬ SlotLost faults before apiKeyId ∧ (SlotPasses faults before apiKeyId self.concurrentRequestLimit →
      TokensPass faults before apiKeyId self.quotaReserver estimatedTokens) := by
  obtain ⟨acquired, redis', hacquire, hpasses, hsame, hframe⟩ := run_acquire faults redis apiKeyId
    self.concurrentRequestLimit hdecr
  have htokens' := (Redis.shows_congr (hframe _ (concurrencyKey_ne_tpmKey apiKeyId).symm)).trans htokens
  rw [hslot, slotLost_congr hslot, slotPasses_congr hslot] at hsame
  rw [slotPasses_congr hslot] at hpasses
  cases acquired with
  | error exc =>
      have hrefused : ¬ SlotPasses faults before apiKeyId self.concurrentRequestLimit := by
        intro h
        cases hpasses.mpr h
      rw [holdsNothing_bind_error hacquire, and_iff_left htokens', hsame, and_iff_right hrefused, and_iff_left]
      exact fun h => absurd h hrefused
  | ok lease =>
      have hslots := hpasses.mp rfl
      have hkept : ¬ SlotLost faults before apiKeyId := by
        rintro ⟨fault, n, hfault, -⟩
        rw [hslots.1] at hfault
        cases hfault
      have hheld : redis'.shows (concurrencyKey apiKeyId) ≠ before.shows (concurrencyKey apiKeyId) :=
        fun h => (hsame.mp h).1 hslots
      rw [holdsNothing_bind_ok hacquire, holdsNothing_reserve self estimatedTokens hheld htokens',
        and_iff_right hkept, forall_prop_of_true hslots]

end Refusal

/-- **What a refused admission holds**: nothing, exactly when the tokens are there whenever the slot is. -/
theorem refusalHoldsNothing_iff (self : AdmissionService) (authContext : AuthContext) (estimatedTokens : Int)
    (faults : RedisOp → Option RedisFault) (redis : Redis)
    (hdecr : faults (.decr (concurrencyKey authContext.apiKeyId)) = none) :
    RefusalHoldsNothing self authContext estimatedTokens faults redis ↔
      TokensFollowSlot self authContext.apiKeyId estimatedTokens faults redis := by
  let apiKeyId := authContext.apiKeyId
  show HoldsNothing faults apiKeyId redis (self.admitRequest authContext estimatedTokens) redis ↔ _
  unfold TokensFollowSlot AdmissionService.admitRequest
  simp only [Program.bind_eq, Program.pure_eq]
  obtain ⟨gated, hgate, hoverload⟩ := run_checkOverload faults redis
  cases gated with
  | error exc =>
      rw [holdsNothing_bind_error hgate]
      refine iff_of_true ⟨rfl, rfl⟩ fun hpasses => ?_
      cases hoverload.mpr hpasses
  | ok _ =>
  rw [holdsNothing_bind_ok hgate, forall_prop_of_true (hoverload.mp rfl)]
  obtain ⟨counted, redis', hcount, hrequest, hframe⟩ := returnsIff_checkRpm faults redis apiKeyId self.rpmLimit
  have hslot := Redis.shows_congr (hframe _ (concurrencyKey_ne_rpmKey apiKeyId))
  have htokens := Redis.shows_congr (hframe _ (tpmKey_ne_rpmKey apiKeyId))
  cases counted with
  | error exc =>
      rw [holdsNothing_bind_error hcount]
      refine iff_of_true ⟨hslot, htokens⟩ fun hpasses => ?_
      cases hrequest.mpr hpasses
  | ok _ =>
      rw [holdsNothing_bind_ok hcount, forall_prop_of_true (hrequest.mp rfl)]
      exact holdsNothing_acquire self estimatedTokens hdecr hslot htokens

/-- There is no slot to be had. -/
theorem refusalHoldsNothing_slots :
    RefusalHoldsNothing ⟨⟨true, 100⟩, 10, 0⟩ ⟨"key", "user", "project", none⟩ 30 (fun _ => none) emptyRedis := by
  rw [refusalHoldsNothing_iff _ _ _ _ _ rfl]
  intro _ _
  refine ⟨?_, ?_⟩
  · rintro ⟨fault, n, hfault, -⟩
    cases hfault
  · rintro ⟨-, n, hshows, hlimit⟩
    cases hshows
    exact absurd hlimit (by decide)

/-- The tokens of a second request are over the limit: it is refused and keeps its slot. -/
theorem not_refusalHoldsNothing :
    ¬ ∀ (self : AdmissionService) (authContext : AuthContext) (estimatedTokens : Int)
      (faults : RedisOp → Option RedisFault) (redis : Redis),
      faults (.decr (concurrencyKey authContext.apiKeyId)) = none →
      faults (.decrby (tpmKey authContext.apiKeyId) estimatedTokens) = none →
        RefusalHoldsNothing self authContext estimatedTokens faults redis := by
  intro h
  have hholds := h ⟨⟨true, 100⟩, 10, 2⟩ ⟨"key", "user", "project", none⟩ 30 (fun _ => none)
    (Function.update emptyRedis (tpmKey "key") (some ⟨.counter 90, some 60⟩)) rfl rfl
  obtain ⟨hslot, -⟩ := hholds _ _ rfl
  revert hslot
  decide

end GpuInference
