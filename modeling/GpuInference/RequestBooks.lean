import GpuInference.ChatHandler
import GpuInference.RateQuota

/-!
The books of one request: what its calls have left behind when it is over. The commands of its token
reservation are metered on the keyspace they find, so that what they have added to the TPM counter is
known whatever other clients do to it in between. Everything the request does not decide itself
(refusals, upstream, faults, the clock) comes from its environment.
-/

open Effect

namespace GpuInference

/-- One command, with what the commands so far have added to the counter of `key`. -/
def metered (key : String) (op : RedisOp) (s : Redis × Int) : Except PyExc op.Res × (Redis × Int) :=
  let reply := Redis.apply op s.1
  (reply.1, (reply.2, s.2 + (reply.2.counter key - s.1.counter key)))

section Metered

variable {redis : Redis} {key : String}

theorem metered_incrby (h : redis.Counts key) (amount net : Int) :
    ∃ redis', metered key (.incrby key amount) (redis, net) =
      (.ok (redis.counter key + amount), (redis', net + amount)) ∧
      redis'.counter key = redis.counter key + amount ∧ redis'.Counts key := by
  obtain ⟨hreply, hcounter, hcounts⟩ := Redis.add_spec h amount
  refine ⟨(redis.add key amount).2, ?_, hcounter, hcounts⟩
  simp only [metered, Redis.apply, hreply, hcounter, add_sub_cancel_left]

theorem metered_decrby (h : redis.Counts key) (amount net : Int) :
    ∃ redis', metered key (.decrby key amount) (redis, net) =
      (.ok (redis.counter key - amount), (redis', net - amount)) ∧
      redis'.counter key = redis.counter key - amount := by
  obtain ⟨hreply, hcounter, -⟩ := Redis.add_spec h (-amount)
  rw [← sub_eq_add_neg] at hreply hcounter
  refine ⟨(redis.add key (-amount)).2, ?_, hcounter⟩
  have hmeter : net + (redis.counter key - amount - redis.counter key) = net - amount := by omega
  simp only [metered, Redis.apply, hreply, hcounter, hmeter]

theorem metered_expire (h : redis.Counts key) (time : Nat) (net : Int) :
    ∃ value redis', metered key (.expire key time) (redis, net) = (.ok value, (redis', net)) ∧
      redis'.counter key = redis.counter key ∧ redis'.Counts key := by
  cases hentry : redis key with
  | none =>
      refine ⟨false, redis, ?_, rfl, h⟩
      simp [metered, Redis.apply, hentry]
  | some entry =>
      have hsame : Redis.counter (Function.update redis key (some { entry with ttl := some time })) key =
          redis.counter key := by
        rw [Redis.counter, Function.update_self, Redis.counter, hentry]
        rcases entry with ⟨value, ttl⟩
        cases value with
        | counter n => rfl
        | text s => rfl
      refine ⟨true, Function.update redis key (some { entry with ttl := some time }), ?_, hsame, ?_⟩
      · simp only [metered, Redis.apply, hentry, hsame, sub_self, add_zero]
      · intro found hfound
        obtain ⟨n, hn⟩ := h entry hentry
        rw [Function.update_self] at hfound
        cases hfound
        exact ⟨n, hn⟩

/-- What a call of `reserve` has added: the estimate when it is accepted, nothing when it is not. -/
def Reserved (apiKeyId : String) (tokens net : Int) : Except PyExc TokenReservationLike → Prop
  | .ok (.redis reservation) => reservation = ⟨tpmKey apiKeyId, tokens, false⟩ ∧ 0 < tokens ∧ net = tokens
  | .ok (.noop reserved) => reserved = 0 ∧ net = 0
  | .error _ => net = 0

theorem run_reserve (limit : Int) {apiKeyId : String} (h : redis.Counts (tpmKey apiKeyId)) (tokens : Int) :
    ∃ outcome redis' net, (QuotaReserver.reserve ⟨true, limit⟩ apiKeyId tokens).run
      (metered (tpmKey apiKeyId)) (redis, 0) = (outcome, (redis', net)) ∧
        Reserved apiKeyId tokens net outcome := by
  by_cases htokens : 0 < tokens
  · have hsettle : ∀ (redis : Redis), redis.Counts (tpmKey apiKeyId) → ∀ count,
        ∃ outcome redis' net, (QuotaReserver.settle limit (tpmKey apiKeyId) tokens count).run
          (metered (tpmKey apiKeyId)) (redis, tokens) = (outcome, (redis', net)) ∧
            Reserved apiKeyId tokens net outcome := by
      intro redis hcounts count
      unfold QuotaReserver.settle
      split
      · obtain ⟨redis', hdecrby, -⟩ := metered_decrby hcounts tokens tokens
        refine ⟨.error (.app tokenRateLimitExceeded), redis', tokens - tokens, ?_, sub_self tokens⟩
        rw [QuotaReserver.rollback, Program.run_call, hdecrby]
        rfl
      · exact ⟨_, redis, tokens, rfl, rfl, htokens, rfl⟩
    obtain ⟨counted, hincrby, -, hcounts⟩ := metered_incrby h tokens 0
    rw [zero_add] at hincrby
    rw [reserve_eq limit apiKeyId htokens, Program.run_call, hincrby]
    simp only [QuotaReserver.counted]
    split
    · obtain ⟨value, expiring, hexpire, -, hcounts'⟩ := metered_expire hcounts tpmWindowSeconds tokens
      rw [Program.run_call, hexpire]
      exact hsettle expiring hcounts' _
    · exact hsettle counted hcounts _
  · have hnoop : QuotaReserver.reserve ⟨true, limit⟩ apiKeyId tokens = .ret (.noop (max tokens 0)) := by
      rw [QuotaReserver.reserve, if_pos (.inr (by omega))]
      rfl
    rw [hnoop]
    exact ⟨_, redis, 0, rfl, by omega, rfl⟩

/-- Giving tokens back takes them from the counter, or all there are. -/
theorem run_giveBack (h : redis.Counts key) (tokens : Int) :
    ∃ redis', (TokenReservation.giveBack key tokens).run (metered key) (redis, 0) =
      (.ok (), (redis', -min tokens (redis.counter key))) := by
  obtain ⟨remaining, hdecrby, hcounter⟩ := metered_decrby h tokens 0
  rw [zero_sub] at hdecrby
  rw [giveTokensBack_eq, Program.run_call, hdecrby]
  simp only [countDown_ret]
  split
  · refine ⟨remaining.remove key, ?_⟩
    have hall : -tokens + (0 - remaining.counter key) = -min tokens (redis.counter key) := by
      rw [hcounter]
      omega
    rw [Program.run_call]
    simp only [metered, Redis.apply, Redis.counter_remove_self, hall]
    rfl
  · have hsome : -tokens = -min tokens (redis.counter key) := by omega
    exact ⟨remaining, by rw [hsome]; rfl⟩

/-- Whatever the key holds, `finalize` does not raise. -/
theorem run_giveBack_ok (redis : Redis) (key : String) (tokens : Int) :
    ∃ s, (TokenReservation.giveBack key tokens).run (metered key) (redis, 0) = (.ok (), s) := by
  rw [giveTokensBack_eq, Program.run_call]
  have hreply : (∃ remaining, (redis.add key (-tokens)).1 = .ok remaining) ∨
      (redis.add key (-tokens)).1 = .error responseError := by
    unfold Redis.add
    cases redis key with
    | none => exact .inl ⟨_, rfl⟩
    | some entry =>
        obtain ⟨value, ttl⟩ := entry
        cases value with
        | counter n => exact .inl ⟨_, rfl⟩
        | text s =>
            simp only
            cases s.toInt? with
            | none => exact .inr rfl
            | some n => exact .inl ⟨_, rfl⟩
  simp only [metered, Redis.apply]
  rcases hreply with ⟨remaining, hremaining⟩ | hfailed
  · rw [hremaining]
    simp only [countDown_ret]
    split
    · exact ⟨_, rfl⟩
    · exact ⟨_, rfl⟩
  · rw [hfailed]
    exact ⟨_, rfl⟩

theorem run_finalize_ok (redis : Redis) (reservation : TokenReservation) (actualTokens : Int)
    (releaseAll : Bool) : ∃ s, (reservation.finalize actualTokens releaseAll).2.run
      (metered reservation.key) (redis, 0) = (.ok (), s) := by
  by_cases hfinalized : reservation.finalized = true
  · rw [finalize_of_finalized hfinalized]
    exact ⟨_, rfl⟩
  · rw [finalize_of_live (by simpa using hfinalized)]
    simp only
    split
    · exact ⟨_, rfl⟩
    · exact run_giveBack_ok _ _ _

/-- What the first finalization of `tokens` reserved ones gives back, when the counter holds `held`. -/
def givenBack (tokens actualTokens : Int) (releaseAll : Bool) (held : Int) : Int :=
  let tokensToRelease := if releaseAll then tokens else tokens - actualTokens
  if tokensToRelease ≤ 0 then 0 else min tokensToRelease held

theorem run_finalize (h : redis.Counts key) (tokens actualTokens : Int) (releaseAll : Bool) :
    ∃ redis', ((⟨key, tokens, false⟩ : TokenReservation).finalize actualTokens releaseAll).2.run
      (metered key) (redis, 0) =
        (.ok (), (redis', -givenBack tokens actualTokens releaseAll (redis.counter key))) := by
  rw [finalize_of_live rfl]
  simp only [TokenReservation.tokensToRelease, givenBack]
  by_cases hrelease : (if releaseAll = true then tokens else tokens - actualTokens) ≤ 0
  · simp only [if_pos hrelease]
    exact ⟨redis, rfl⟩
  · simp only [if_neg hrelease]
    exact run_giveBack h _

end Metered

/-- The reservation of a request, once it has been admitted, and the net amount that its commands have
added to the TPM counter. -/
structure TokenAccount where
  reservation : Option TokenReservationLike
  net : Int
  deriving DecidableEq, Repr

/-- What other clients and the settings decide: a refusal before the quota is asked, the TPM limit, and
the keyspace that the n-th call of the request finds after its commands have added `net`. -/
structure Admission where
  refusal : Option PyExc
  tpmLimit : Int
  keyspace : Nat → Int → Redis

/-- Redis is healthy: a TPM key holds a counter, and it has not expired, so that the counter still holds
what the request has added. -/
structure Admission.Healthy (admission : Admission) : Prop where
  counts : ∀ n net apiKeyId, (admission.keyspace n net).Counts (tpmKey apiKeyId)
  unexpired : ∀ n net apiKeyId, net ≤ (admission.keyspace n net).counter (tpmKey apiKeyId)

namespace TokenAccount

def start : TokenAccount := ⟨none, 0⟩

/-- `AdmissionService.admit`; the account is that of the request, whose lease is `⟨0⟩`. -/
def admitRequest (admission : Admission) (n : Nat) (authContext : AuthContext) (estimatedTokens : Int)
    (account : TokenAccount) : Except PyExc AdmissionLease × TokenAccount :=
  match admission.refusal with
  | some exc => (.error exc, account)
  | none =>
      let reserve := QuotaReserver.reserve ⟨true, admission.tpmLimit⟩ authContext.apiKeyId estimatedTokens
      match reserve.run (metered (tpmKey authContext.apiKeyId))
        (admission.keyspace n account.net, 0) with
      | (.ok reservation, _, net) => (.ok ⟨0⟩, ⟨some reservation, account.net + net⟩)
      | (.error exc, _, net) => (.error exc, { account with net := account.net + net })

/-- `AdmissionLease.finalize_tokens`. -/
def finalize (admission : Admission) (n : Nat) (actualTokens : Int) (releaseAll : Bool)
    (account : TokenAccount) : Except PyExc Unit × TokenAccount :=
  match account.reservation with
  | some (.redis reservation) =>
      let finalized := reservation.finalize actualTokens releaseAll
      match finalized.2.run (metered reservation.key) (admission.keyspace n account.net, 0) with
      | (outcome, _, net) => (outcome, ⟨some (.redis finalized.1), account.net + net⟩)
  | _ => (.ok (), account)

/-- Finalizing tokens does not raise. -/
theorem finalize_ok (admission : Admission) (n : Nat) (actualTokens : Int) (releaseAll : Bool)
    (account : TokenAccount) :
    ∃ account', account.finalize admission n actualTokens releaseAll = (.ok (), account') := by
  unfold finalize
  cases account.reservation with
  | none => exact ⟨account, rfl⟩
  | some reservation =>
      cases reservation with
      | noop tokens => exact ⟨account, rfl⟩
      | redis reservation =>
          obtain ⟨⟨redis, net⟩, hrun⟩ := run_finalize_ok (admission.keyspace n account.net) reservation
            actualTokens releaseAll
          simp only [hrun]
          exact ⟨_, rfl⟩

/-- What an account holds between admission and the first finalization: the reserved tokens, or nothing
when none are reserved. -/
inductive Holds : TokenAccount → Prop
  | redis (apiKeyId : String) (tokens : Int) (h : 0 < tokens) :
      Holds ⟨some (.redis ⟨tpmKey apiKeyId, tokens, false⟩), tokens⟩
  | noop : Holds ⟨some (.noop 0), 0⟩

/-- The net amount after `reservedTokens` have been finalized. Usage above them is not charged, and a
negative usage takes no more from the counter than it says. -/
def Charged (reservedTokens actualTokens : Int) (releaseAll : Bool) (net : Int) : Prop :=
  if releaseAll ∨ reservedTokens ≤ 0 then net = 0
  else if 0 ≤ actualTokens then net = min reservedTokens actualTokens
  else actualTokens ≤ net ∧ net ≤ 0

/-- The account of a request whose tokens have been finalized, first with these arguments. -/
def Settled (account : TokenAccount) (actualTokens : Int) (releaseAll : Bool) : Prop :=
  ∃ reservation, account.reservation = some reservation ∧
    Charged reservation.reservedTokens actualTokens releaseAll account.net

theorem holds_admission {admission : Admission} (hhealthy : admission.Healthy) (n : Nat)
    (authContext : AuthContext) (estimatedTokens : Int) :
    match TokenAccount.start.admitRequest admission n authContext estimatedTokens with
    | (.ok _, account) => account.Holds
    | (.error _, account) => account = TokenAccount.start := by
  unfold admitRequest
  cases hrefusal : admission.refusal with
  | some exc => rfl
  | none =>
      obtain ⟨outcome, redis, net, hrun, hreserved⟩ := run_reserve admission.tpmLimit
        (hhealthy.counts n 0 authContext.apiKeyId) estimatedTokens
      simp only [TokenAccount.start, hrun]
      cases outcome with
      | error exc =>
          cases hreserved
          rfl
      | ok reservation =>
          cases reservation with
          | redis reservation =>
              obtain ⟨rfl, htokens, rfl⟩ := hreserved
              simp only [zero_add]
              exact .redis _ _ htokens
          | noop tokens =>
              obtain ⟨rfl, rfl⟩ := hreserved
              exact .noop

theorem charged_givenBack {tokens held : Int} (htokens : 0 < tokens) (hheld : tokens ≤ held)
    (actualTokens : Int) (releaseAll : Bool) :
    Charged tokens actualTokens releaseAll (tokens + -givenBack tokens actualTokens releaseAll held) := by
  unfold Charged givenBack
  cases releaseAll with
  | true =>
      simp only [true_or, if_true]
      rw [if_neg (by omega)]
      omega
  | false =>
      simp only [Bool.false_eq_true, false_or, if_false]
      rw [if_neg (by omega)]
      split
      · split
        · omega
        · omega
      · split
        · omega
        · omega

/-- The first finalization settles the account. -/
theorem finalize_holds {admission : Admission} (hhealthy : admission.Healthy) {account : TokenAccount}
    (h : account.Holds) (n : Nat) (actualTokens : Int) (releaseAll : Bool) :
    (account.finalize admission n actualTokens releaseAll).2.Settled actualTokens releaseAll := by
  cases h with
  | noop =>
      refine ⟨_, rfl, ?_⟩
      rw [Charged, if_pos (.inr (by decide))]
      rfl
  | redis apiKeyId tokens htokens =>
      obtain ⟨redis, hrun⟩ := run_finalize (hhealthy.counts n tokens apiKeyId) tokens actualTokens releaseAll
      unfold finalize
      simp only [hrun]
      refine ⟨_, rfl, ?_⟩
      rw [finalize_of_live rfl]
      exact charged_givenBack htokens (hhealthy.unexpired n tokens apiKeyId) actualTokens releaseAll

end TokenAccount

/-- What is around a chat request: admission, upstream, the faults of each service, the client. The
number of a call is given to what may differ from call to call. -/
structure ChatEnv where
  admission : Admission
  auditId : Except PyExc String
  completion : JsonObject → Except PyExc JsonObject
  upstream : JsonObject → UpstreamStream
  auditFault : Nat → Option PyExc
  collected : Nat → Except PyExc Bool
  elapsed : Nat → Int
  disconnected : Nat → Except PyExc Bool
  yielded : Nat → Except PyExc Unit
  closed : Nat → Except PyExc Unit

/-- What the calls of a request have left: its token account and the number of its finalizations, the
usage records appended for it, the finalizations of its audit record that took effect, and the events
collected. -/
structure ChatBooks where
  calls : Nat
  account : TokenAccount
  finalizations : Nat
  started : Option String
  usageRecords : List UsageRecord
  audits : Nat
  finals : List AuditFinal
  events : List UsageEvent

namespace ChatBooks

def start : ChatBooks := ⟨0, .start, 0, none, [], 0, [], []⟩

def tick (b : ChatBooks) : ChatBooks := { b with calls := b.calls + 1 }

end ChatBooks

namespace ChatEnv

def answer (env : ChatEnv) : (op : ChatOp) → ChatBooks → Except PyExc op.Res × ChatBooks
  | .admitRequest authContext estimatedTokens, b =>
      let admitted := b.account.admitRequest env.admission b.calls authContext estimatedTokens
      (admitted.1, { b.tick with account := admitted.2 })
  | .finalizeTokens _ actualTokens releaseAll, b =>
      let finalized := b.account.finalize env.admission b.calls actualTokens releaseAll
      (finalized.1, { b.tick with account := finalized.2, finalizations := b.finalizations + 1 })
  | .releaseLease _, b => (.ok (), b.tick)
  | .startAudit _, b =>
      match env.auditId with
      | .ok recordId => (.ok recordId, { b.tick with started := some recordId })
      | .error exc => (.error exc, b.tick)
  | .finalizeAudit final, b =>
      match env.auditFault b.audits with
      | some exc => (.error exc, { b.tick with audits := b.audits + 1 })
      | none => (.ok (), { b.tick with audits := b.audits + 1, finals := b.finals ++ [final] })
  | .createChatCompletion payload, b => (env.completion payload, b.tick)
  | .streamChatCompletion payload, b => (.ok (env.upstream payload), b.tick)
  | .isDisconnected, b => (env.disconnected b.calls, b.tick)
  | .yieldEvent _, b => (env.yielded b.calls, b.tick)
  | .closeStream, b => (env.closed b.calls, b.tick)
  | .recordUsage usage, b => (.ok (), { b.tick with usageRecords := b.usageRecords ++ [usage] })
  | .collect event, b =>
      match env.collected b.calls with
      | .ok true => (.ok true, { b.tick with events := b.events ++ [event] })
      | .ok false => (.ok false, b.tick)
      | .error exc => (.error exc, b.tick)
  | .elapsedMs, b => (.ok (env.elapsed b.calls), b.tick)
  | .recordStreamStarted, b => (.ok (), b.tick)
  | .recordStreamTtft, b => (.ok (), b.tick)
  | .recordStreamFinished, b => (.ok (), b.tick)

end ChatEnv

/-- What is around one run of the worker: admission, and the answer of every other call, by its number. -/
structure BatchEnv where
  admission : Admission
  answer : Nat → (op : BatchOp) → Except PyExc op.Res

/-- What the calls of the worker have left: the token account of its job and the number of its
finalizations, and the finalizations of the audit record that took effect. -/
structure BatchBooks where
  calls : Nat
  account : TokenAccount
  finalizations : Nat
  finals : List AuditFinal

namespace BatchBooks

def start : BatchBooks := ⟨0, .start, 0, []⟩

def tick (b : BatchBooks) : BatchBooks := { b with calls := b.calls + 1 }

end BatchBooks

/-- The answer to a call of the worker. -/
def BatchEnv.reply (env : BatchEnv) : (op : BatchOp) → BatchBooks → Except PyExc op.Res × BatchBooks
  | .admitRequest authContext estimatedTokens, b =>
      let admitted := b.account.admitRequest env.admission b.calls authContext estimatedTokens
      (admitted.1, { b.tick with account := admitted.2 })
  | .finalizeTokens _ actualTokens releaseAll, b =>
      let finalized := b.account.finalize env.admission b.calls actualTokens releaseAll
      (finalized.1, { b.tick with account := finalized.2, finalizations := b.finalizations + 1 })
  | .finalizeAudit final, b =>
      match env.answer b.calls (.finalizeAudit final) with
      | .ok () => (.ok (), { b.tick with finals := b.finals ++ [final] })
      | .error exc => (.error exc, b.tick)
  | op, b => (env.answer b.calls op, b.tick)

/-- Nobody else uses the keyspace, and nothing is refused. -/
def openAdmission : Admission where
  refusal := none
  tpmLimit := 100000
  keyspace _ net _ := some ⟨.counter net, some tpmWindowSeconds⟩

theorem openAdmission_healthy : openAdmission.Healthy where
  counts := by
    intro n net apiKeyId entry hentry
    cases hentry
    exact ⟨net, rfl⟩
  unexpired _ _ _ := Int.le_refl _

def plainApp : ChatApp where
  tokenEstimator _ := .ok 1
  settings := ⟨100, 100, 200⟩
  sha256 _ := "hash"
  loads _ := .ok none
  render content := .ok ⟨200, content, none, none⟩

def plainRequest : ChatCompletionRequest where
  model := "model"
  messages := [⟨.user, "Hello"⟩]
  stream := false
  maxTokens := some 10
  temperature := none
  topP := none
  stop := none
  user := none
  metadata := none
  extra := []
  model_not_empty := by decide
  messages_not_empty := List.cons_ne_nil _ _
  maxTokens_pos := by simp
  temperature_bound := nofun
  topP_bound := nofun
  extra_fresh := nofun

def plainContext : AuthContext := ⟨"key", "user", "project", none⟩

def plainJob : BatchJobRecord where
  id := "job"
  userId := "user"
  projectId := "project"
  apiKeyId := "key"
  model := "model"
  status := .running
  inputPayload := plainRequest.modelDump
  resultPayload := none
  errorCode := none
  errorMessage := none
  requestCount := 1
  completedCount := 0
  failedCount := 0
  metadata := []

def plainWorker : BatchWorker where
  tokenEstimator := plainApp.tokenEstimator
  settings := plainApp.settings
  analyticsCollector := false
  shouldRunJob := false
  lax := .strict
  sha256 := plainApp.sha256

end GpuInference
