import GpuInference.RateExpiry

/-!
The request limit of a window. INCR, the conditional EXPIRE and the comparison are separate steps, so a call may set the
time to live of a later window, or return in it. Its count, however, belongs to the window its INCR has taken effect in,
and a call returns only when this count is within the limit; the counts of a window are all different.
-/

open Effect

namespace GpuInference

/-- The comparison. -/
def RateLimiter.verdict (limit count : Int) : RedisProgram Unit :=
  if limit < count then .raise (.app rateLimitExceeded) else .ret ()

/-- What is left of a call after its INCR. -/
def RateLimiter.counted (key : String) (limit count : Int) : RedisProgram Unit :=
  if count = 1 then
    .call (.expire key rpmWindowSeconds) fun
      | .ok _ => RateLimiter.verdict limit count
      | .error exc => .raise (redisFailure exc)
  else RateLimiter.verdict limit count

theorem checkRpm_eq (apiKeyId : String) (limit : Int) :
    RateLimiter.checkRpm apiKeyId limit = .call (.incr (rpmKey apiKeyId)) fun
      | .ok count => RateLimiter.counted (rpmKey apiKeyId) limit count
      | .error exc => .raise (redisFailure exc) := by
  unfold RateLimiter.checkRpm
  simp only [redisCall_eq, Program.bind_eq, Program.call_bind]
  congr 1
  funext answer
  cases answer with
  | error exc => rfl
  | ok count =>
      simp only [Program.ret_bind, RateLimiter.counted]
      split
      · congr 1
        funext answer
        cases answer <;> rfl
      · rfl

/-- A call of `check_rpm`: the window its INCR has taken effect in, if it has, and the commands still to be sent. -/
structure RpmCall where
  window : Option Nat
  program : RedisProgram Unit

namespace RpmCall

/-- The call has returned normally. -/
def returned (call : RpmCall) : Bool :=
  match call.program with
  | .ret _ => true
  | _ => false

/-- The window of the INCR, after a command that takes effect in this one. -/
def after (call : RpmCall) (window : Nat) : RedisOp → Option Nat
  | .incr _ => some window
  | _ => call.window

/-- One command of the call: it takes effect and is answered, it fails, or it takes effect and its answer is lost. What a
failing command may raise is `raises`. -/
inductive Act (raises : PyExc → Prop) : QuotaState → RpmCall → QuotaState → RpmCall → Prop
  | answers {s : QuotaState} {window : Option Nat} {op : RedisOp} {next : Except PyExc op.Res → RedisProgram Unit} :
      Act raises s ⟨window, .call op next⟩ { s with redis := (Redis.apply op s.redis).2 }
        ⟨after ⟨window, .call op next⟩ s.window op, next (Redis.apply op s.redis).1⟩
  | fails {s : QuotaState} {window : Option Nat} {op : RedisOp} {next : Except PyExc op.Res → RedisProgram Unit}
      {exc : PyExc} (hraises : raises exc) :
      Act raises s ⟨window, .call op next⟩ s ⟨window, next (.error exc)⟩
  | lost {s : QuotaState} {window : Option Nat} {op : RedisOp} {next : Except PyExc op.Res → RedisProgram Unit}
      {exc : PyExc} (hraises : raises exc) :
      Act raises s ⟨window, .call op next⟩ { s with redis := (Redis.apply op s.redis).2 }
        ⟨after ⟨window, .call op next⟩ s.window op, next (.error exc)⟩

end RpmCall

/-- Other keys change. -/
def OthersChange (key : String) (s s' : QuotaState) : Prop := s'.window = s.window ∧ s'.redis key = s.redis key

/-- Any number of `check_rpm` calls on one key, command by command; the key may expire whenever it has a time to live. -/
def rpmSystem (apiKeyId : String) (limit : Int) (raises : PyExc → Prop) : System QuotaState RpmCall where
  starts _ call := call = ⟨none, RateLimiter.checkRpm apiKeyId limit⟩
  act := RpmCall.Act raises
  env s s' := Expires (rpmKey apiKeyId) s s' ∨ OthersChange (rpmKey apiKeyId) s s'

/-- The calls whose INCR has taken effect in this window and that have returned normally. -/
def returnedIn (pool : Pool QuotaState RpmCall) (window : Nat) : Nat :=
  pool.threads.countP fun call => call.window = some window ∧ call.returned

/-- The call returns unless one of its commands fails. -/
def passes : RedisProgram Unit → Bool
  | .ret _ => true
  | .call (.expire _ _) next =>
      match next (.ok true) with
      | .ret _ => true
      | _ => false
  | _ => false

/-- The limit is exceeded, or a command has failed. -/
def RaisedBy (raises : PyExc → Prop) (exc : PyExc) : Prop :=
  exc = .app rateLimitExceeded ∨ ∃ cause, raises cause ∧ exc = redisFailure cause

namespace RpmCall

/-- The calls of this window that can still return. -/
def weight (window : Nat) (call : RpmCall) : Nat :=
  if call.window = some window ∧ passes call.program then 1 else 0

/-- The program points of a call. -/
inductive Point (key : String) (limit : Int) (raises : PyExc → Prop) : RpmCall → Prop
  | start (next : Except PyExc Int → RedisProgram Unit)
      (h : ∀ count, next (.ok count) = RateLimiter.counted key limit count)
      (hfails : ∀ exc, next (.error exc) = .raise (redisFailure exc)) :
      Point key limit raises ⟨none, .call (.incr key) next⟩
  | expire (window : Option Nat) (count : Int) (next : Except PyExc Bool → RedisProgram Unit)
      (h : ∀ reply, next (.ok reply) = RateLimiter.verdict limit count)
      (hfails : ∀ exc, next (.error exc) = .raise (redisFailure exc)) :
      Point key limit raises ⟨window, .call (.expire key rpmWindowSeconds) next⟩
  | refused (window : Option Nat) (exc : PyExc) (h : RaisedBy raises exc) : Point key limit raises ⟨window, .raise exc⟩
  | returned (window : Option Nat) : Point key limit raises ⟨window, .ret ()⟩

end RpmCall

/-- The key holds a counter that covers the calls of the window that can still return, and these are within the limit. -/
structure CoversCalls (key : String) (limit : Int) (window : Nat) (s : QuotaState) (calls : Nat) : Prop where
  counts : s.redis.Counts key
  nonneg : 0 ≤ s.redis.counter key
  within : (calls : Int) ≤ max limit 0
  present : s.window = window → (calls : Int) ≤ s.redis.counter key
  future : s.window < window → calls = 0

section Steps

variable {key : String} {limit : Int} {raises : PyExc → Prop} {s s' : QuotaState} {window calls more : Nat}
  {call call' : RpmCall}

theorem passes_verdict (count : Int) : passes (RateLimiter.verdict limit count) = decide (count ≤ limit) := by
  unfold RateLimiter.verdict
  by_cases hover : limit < count
  · have hcount : ¬ count ≤ limit := by omega
    simp [passes, hover, hcount]
  · have hcount : count ≤ limit := by omega
    simp [passes, hover, hcount]

/-- Before its EXPIRE a call can return as it can after it. -/
theorem passes_expire {count : Int} {next : Except PyExc Bool → RedisProgram Unit}
    (h : ∀ reply, next (.ok reply) = RateLimiter.verdict limit count) :
    passes (.call (.expire key rpmWindowSeconds) next) = decide (count ≤ limit) := by
  by_cases hover : limit < count
  · have hcount : ¬ count ≤ limit := by omega
    simp [passes, h, RateLimiter.verdict, hover, hcount]
  · have hcount : count ≤ limit := by omega
    simp [passes, h, RateLimiter.verdict, hover, hcount]

theorem passes_counted (count : Int) : passes (RateLimiter.counted key limit count) = decide (count ≤ limit) := by
  unfold RateLimiter.counted
  split
  · exact passes_expire fun _ => rfl
  · exact passes_verdict count

theorem point_verdict (counted : Option Nat) (count : Int) :
    RpmCall.Point key limit raises ⟨counted, RateLimiter.verdict limit count⟩ := by
  unfold RateLimiter.verdict
  split
  · exact .refused counted _ (.inl rfl)
  · exact .returned counted

theorem point_counted (counted : Option Nat) (count : Int) :
    RpmCall.Point key limit raises ⟨counted, RateLimiter.counted key limit count⟩ := by
  unfold RateLimiter.counted
  split
  · exact .expire counted count _ (fun _ => rfl) fun _ => rfl
  · exact point_verdict counted count

theorem weight_raise (counted : Option Nat) (exc : PyExc) : RpmCall.weight window ⟨counted, .raise exc⟩ = 0 := by
  simp [RpmCall.weight, passes]

/-- A call that can no longer return leaves the others covered. -/
theorem CoversCalls.mono (h : CoversCalls key limit window s (more + calls)) : CoversCalls key limit window s calls := by
  obtain ⟨hcounts, hnonneg, hwithin, hpresent, hfuture⟩ := h
  exact ⟨hcounts, hnonneg, by omega, by omega, by omega⟩

/-- INCR: the call can return only with a count that no other call of the window has got. -/
theorem CoversCalls.incr (h : CoversCalls key limit window s calls) :
    CoversCalls key limit window { s with redis := (s.redis.add key 1).2 }
      (RpmCall.weight window ⟨some s.window, RateLimiter.counted key limit (s.redis.counter key + 1)⟩ + calls) := by
  obtain ⟨hcounts, hnonneg, hwithin, hpresent, hfuture⟩ := h
  obtain ⟨-, hstored, hcounts'⟩ := Redis.add_spec hcounts 1
  have hweight : RpmCall.weight window ⟨some s.window, RateLimiter.counted key limit (s.redis.counter key + 1)⟩ =
      if s.window = window ∧ s.redis.counter key + 1 ≤ limit then 1 else 0 := by
    simp only [RpmCall.weight, passes_counted, Option.some_inj, decide_eq_true_eq]
  rw [hweight]
  split
  · refine ⟨hcounts', ?_, ?_, ?_, ?_⟩
    · simp only [hstored]
      omega
    · omega
    · simp only [hstored]
      omega
    · simp only
      omega
  · refine ⟨hcounts', ?_, ?_, ?_, ?_⟩
    · simp only [hstored]
      omega
    · omega
    · simp only [hstored]
      omega
    · simp only
      omega

theorem CoversCalls.expire (h : CoversCalls key limit window s calls) (time : Nat) :
    CoversCalls key limit window { s with redis := (Redis.apply (.expire key time) s.redis).2 } calls := by
  obtain ⟨-, hcounter, hcounts⟩ := Redis.expire_spec h.counts time
  refine ⟨hcounts, ?_, h.within, ?_, h.future⟩
  · rw [hcounter]
    exact h.nonneg
  · rw [hcounter]
    exact h.present

/-- The key expires: the calls of its window have got all that they can get. -/
theorem CoversCalls.expires (h : CoversCalls key limit window s calls) (hexpires : Expires key s s') :
    CoversCalls key limit window s' calls := by
  obtain ⟨-, rfl⟩ := hexpires
  obtain ⟨hcounts, hnonneg, hwithin, hpresent, hfuture⟩ := h
  refine ⟨Redis.counts_remove_self _ _, ?_, hwithin, ?_, ?_⟩
  · simp [QuotaState.expired]
  · simp only [QuotaState.expired, Redis.counter_remove_self]
    omega
  · simp only [QuotaState.expired]
    omega

theorem CoversCalls.others (h : CoversCalls key limit window s calls) (hothers : OthersChange key s s') :
    CoversCalls key limit window s' calls := by
  obtain ⟨hwindow, hentry⟩ := hothers
  obtain ⟨hcounts, hnonneg, hwithin, hpresent, hfuture⟩ := h
  have hcounter : s'.redis.counter key = s.redis.counter key := by rw [Redis.counter, Redis.counter, hentry]
  refine ⟨?_, ?_, hwithin, ?_, ?_⟩
  · intro entry hfound
    exact hcounts entry (hentry ▸ hfound)
  · rw [hcounter]
    exact hnonneg
  · rw [hwindow, hcounter]
    exact hpresent
  · rw [hwindow]
    exact hfuture

/-- One step of a call. -/
theorem coversCalls_act (h : CoversCalls key limit window s (call.weight window + calls))
    (hpoint : RpmCall.Point key limit raises call) (hact : RpmCall.Act raises s call s' call') :
    CoversCalls key limit window s' (call'.weight window + calls) ∧ RpmCall.Point key limit raises call' := by
  have hdone : ∀ (counted : Option Nat) {exc : PyExc}, raises exc →
      RpmCall.weight window ⟨counted, .raise (redisFailure exc)⟩ = 0 ∧
        RpmCall.Point key limit raises ⟨counted, .raise (redisFailure exc)⟩ := by
    intro counted exc hraises
    exact ⟨weight_raise counted _, .refused counted _ (.inr ⟨exc, hraises, rfl⟩)⟩
  cases hpoint with
  | start next hnext hfails =>
      have hnone : RpmCall.weight window ⟨none, .call (.incr key) next⟩ = 0 := by simp [RpmCall.weight]
      rw [hnone, Nat.zero_add] at h
      have hcounted := h.incr
      cases hact with
      | answers =>
          obtain ⟨hreply, -, -⟩ := Redis.add_spec h.counts 1
          simp only [Redis.apply, hreply, hnext, RpmCall.after]
          exact ⟨hcounted, point_counted _ _⟩
      | fails hraises =>
          rw [hfails, (hdone none hraises).1, Nat.zero_add]
          exact ⟨h, (hdone none hraises).2⟩
      | lost hraises =>
          rw [hfails, (hdone _ hraises).1, Nat.zero_add]
          exact ⟨hcounted.mono, (hdone _ hraises).2⟩
  | expire counted count next hnext hfails =>
      have hsame : RpmCall.weight window ⟨counted, .call (.expire key rpmWindowSeconds) next⟩ =
          RpmCall.weight window ⟨counted, RateLimiter.verdict limit count⟩ := by
        simp only [RpmCall.weight, passes_expire hnext, passes_verdict]
      cases hact with
      | answers =>
          obtain ⟨⟨reply, hreply⟩, -, -⟩ := Redis.expire_spec h.counts rpmWindowSeconds
          rw [hsame] at h
          rw [hreply, hnext]
          exact ⟨h.expire _, point_verdict _ _⟩
      | fails hraises =>
          rw [hfails, (hdone _ hraises).1, Nat.zero_add]
          exact ⟨h.mono, (hdone _ hraises).2⟩
      | lost hraises =>
          rw [hfails, (hdone _ hraises).1, Nat.zero_add]
          exact ⟨(h.expire _).mono, (hdone _ hraises).2⟩
  | refused counted exc hrefuses => cases hact
  | returned counted => cases hact

end Steps

theorem rpmSystem_accounts (apiKeyId : String) (limit : Int) (raises : PyExc → Prop) (window : Nat) :
    System.Accounts (rpmSystem apiKeyId limit raises) (fun _ call => call.weight window)
      (CoversCalls (rpmKey apiKeyId) limit window) (fun _ call => RpmCall.Point (rpmKey apiKeyId) limit raises call) where
  start s call calls h hstart := by
    have hcall : call = ⟨none, RateLimiter.checkRpm apiKeyId limit⟩ := hstart
    have hweight : call.weight window = 0 := by
      rw [hcall]
      simp [RpmCall.weight]
    rw [hweight, Nat.add_zero, hcall, checkRpm_eq]
    exact ⟨h, .start _ (fun _ => rfl) fun _ => rfl⟩
  act s call s' call' calls h hpoint hact := coversCalls_act h hpoint hact
  frame s call s' call' other calls _ _ hother _ := ⟨rfl, hother⟩
  env s s' calls h hpoints henv := by
    refine ⟨?_, hpoints⟩
    rcases henv with hexpires | hothers
    · exact h.expires hexpires
    · exact h.others hothers

theorem passes_of_returned {call : RpmCall} (h : call.returned = true) : passes call.program = true := by
  unfold RpmCall.returned at h
  split at h
  · rename_i hprogram
    rw [hprogram]
    rfl
  · cases h

theorem returnedIn_le (pool : Pool QuotaState RpmCall) (window : Nat) :
    returnedIn pool window ≤ (pool.threads.map fun call => call.weight window).sum := by
  rw [returnedIn]
  induction pool.threads with
  | nil => exact Nat.le_refl 0
  | cons call calls ih =>
      rw [List.countP_cons, List.map_cons, List.sum_cons, Nat.add_comm]
      apply Nat.add_le_add _ ih
      split
      · rename_i hcounts
        obtain ⟨hwindow, hreturned⟩ := of_decide_eq_true hcounts
        rw [RpmCall.weight, if_pos ⟨hwindow, passes_of_returned hreturned⟩]
      · exact Nat.zero_le _

/-- The failures of the Redis client: `Exception`s, none of which is an error of the application. -/
def ClientErrors (raises : PyExc → Prop) : Prop := ∀ exc, raises exc → ∃ code text, exc = .exception code text

theorem status_of_raised {raises : PyExc → Prop} (hredis : ClientErrors raises) {exc : PyExc}
    (h : RaisedBy raises exc) : ∃ error, exc = .app error ∧ (error.statusCode = 429 ∨ error.statusCode = 503) := by
  rcases h with rfl | ⟨cause, hraises, rfl⟩
  · exact ⟨rateLimitExceeded, rfl, .inl rfl⟩
  · obtain ⟨code, text, rfl⟩ := hredis cause hraises
    exact ⟨dependencyUnavailable, rfl, .inr rfl⟩

/-- **The requests of a window are bounded.** Of the calls whose INCR takes effect in one window at most `limit` return,
whatever the commands that fail raise; where these are failures of the Redis client, every other call that ends raises an
`AppError` with status 429 or 503. -/
theorem returnedIn_le_limit (apiKeyId : String) (limit : Int) (raises : PyExc → Prop) (redis : Redis)
    (hcounts : redis.Counts (rpmKey apiKeyId)) (hnonneg : 0 ≤ redis.counter (rpmKey apiKeyId))
    (pool : Pool QuotaState RpmCall) (hreach : (rpmSystem apiKeyId limit raises).Reachable ⟨redis, 0⟩ pool) :
    (∀ window, (returnedIn pool window : Int) ≤ max limit 0) ∧
      (ClientErrors raises → ∀ call ∈ pool.threads, ∀ exc, call.program = .raise exc →
        ∃ error, exc = .app error ∧ (error.statusCode = 429 ∨ error.statusCode = 503)) := by
  have hinit : ∀ window, CoversCalls (rpmKey apiKeyId) limit window ⟨redis, 0⟩ 0 :=
    fun window => ⟨hcounts, hnonneg, by omega, fun _ => hnonneg, fun _ => rfl⟩
  have haccount := fun window => (rpmSystem_accounts apiKeyId limit raises window).reachable (hinit window) hreach
  constructor
  · intro window
    calc (returnedIn pool window : Int)
        ≤ ((pool.threads.map fun call => call.weight window).sum : Nat) := by exact_mod_cast returnedIn_le pool window
      _ ≤ max limit 0 := (haccount window).1.within
  · intro hredis call hcall exc hraised
    have hpoint := (haccount 0).2 call hcall
    cases hpoint with
    | refused counted exc' hraises =>
        cases hraised
        exact status_of_raised hredis hraises
    | _ => cases hraised

/-- A connection is closed. -/
def connectionClosed (exc : PyExc) : Prop := exc = .exception none "Connection closed by server."

theorem clientErrors_connectionClosed : ClientErrors connectionClosed := by
  rintro exc rfl
  exact ⟨none, _, rfl⟩

/-- A request returns in each of two windows, and one is refused in between. -/
theorem returnedIn_le_limit_one :
    ∃ pool, (rpmSystem "key" 1 connectionClosed).Reachable ⟨emptyRedis, 0⟩ pool ∧ returnedIn pool 0 = 1 ∧
      returnedIn pool 1 = 1 ∧ (∀ window, (returnedIn pool window : Int) ≤ max 1 0) ∧
      ∀ call ∈ pool.threads, ∀ exc, call.program = .raise exc →
        ∃ error, exc = .app error ∧ (error.statusCode = 429 ∨ error.statusCode = 503) := by
  have hstart : ∀ s, (rpmSystem "key" 1 connectionClosed).starts s ⟨none, RateLimiter.checkRpm "key" 1⟩ := fun _ => rfl
  have h0 : (rpmSystem "key" 1 connectionClosed).Reachable ⟨emptyRedis, 0⟩ ⟨⟨emptyRedis, 0⟩, []⟩ := .refl
  have h1 := h0.tail (.start _ (hstart _))
  have h2 := h1.tail (.act [] [] .answers)
  have h3 := h2.tail (.act [] [] .answers)
  have h4 := h3.tail (.start _ (hstart _))
  have h5 := h4.tail (.act [_] [] .answers)
  have h6 := h5.tail (.env (.inl ⟨⟨.counter 2, 60, rfl⟩, rfl⟩))
  have h7 := h6.tail (.start _ (hstart _))
  have h8 := h7.tail (.act [_, _] [] .answers)
  have h9 := h8.tail (.act [_, _] [] .answers)
  have hbound := returnedIn_le_limit "key" 1 connectionClosed emptyRedis (Redis.counts_of_absent rfl)
    (Int.le_refl 0) _ h9
  exact ⟨_, h9, rfl, rfl, hbound.1, hbound.2 clientErrors_connectionClosed⟩

end GpuInference
