import GpuInference.EffectPool
import GpuInference.RedisCommands
import Mathlib.Algebra.Group.Prod
import Mathlib.Algebra.BigOperators.Group.List.Lemmas
import Mathlib.Algebra.GroupWithZero.Nat
import Mathlib.Algebra.Ring.Int.Defs

/-!
Token reservations. A reservation is taken by INCRBY, its key gets a time to live when the count
shows that it was fresh, and a refused reservation is rolled back by DECRBY; finalizing gives the
unused tokens back by DECRBY, followed by DEL when the counter has come down to zero. The key may
expire between any two commands. Inside one window the counter covers every token that is held or
about to be given back; a DECRBY that reaches a later window than the INCRBY it belongs to takes
tokens that other reservations hold there.
-/

open Effect

namespace GpuInference

def tpmKey (apiKeyId : String) : String := "rl:api_key:" ++ apiKeyId ++ ":tpm"

def tpmWindowSeconds : Nat := 60

structure TokenReservation where
  key : String
  reservedTokens : Int
  finalized : Bool
  deriving DecidableEq, Repr

/-- What `reserve` returns: a `TokenReservation`, or a `NoopTokenReservation`. -/
inductive TokenReservationLike where
  | redis (reservation : TokenReservation)
  | noop (reservedTokens : Int)
  deriving DecidableEq, Repr

def TokenReservationLike.reservedTokens : TokenReservationLike → Int
  | redis reservation => reservation.reservedTokens
  | noop tokens => tokens

def tokenRateLimitExceeded : AppError where
  message := "Token rate limit exceeded"
  code := "token_rate_limit_exceeded"
  statusCode := 429
  type := "rate_limit_error"
  param := none

/-- `tokens_to_release` in `TokenReservation.finalize`. -/
def TokenReservation.tokensToRelease (reservation : TokenReservation) (actualTokens : Int)
    (releaseAll : Bool) : Int :=
  if releaseAll then reservation.reservedTokens else reservation.reservedTokens - actualTokens

/-- `TokenReservation.finalize`: the reservation after the call, and the commands still to be sent. -/
def TokenReservation.finalize (reservation : TokenReservation) (actualTokens : Int)
    (releaseAll : Bool) : TokenReservation × RedisProgram Unit :=
  if reservation.finalized then (reservation, pure ())
  else
    let tokensToRelease := reservation.tokensToRelease actualTokens releaseAll
    ({ reservation with finalized := true },
      if tokensToRelease ≤ 0 then pure ()
      else countDown reservation.key (Program.perform (RedisOp.decrby reservation.key tokensToRelease)))

/-- `QuotaReserver`, over the keyspace when `redis` is set. -/
structure QuotaReserver where
  redis : Bool
  tpmLimit : Int
  deriving DecidableEq, Repr

/-- `QuotaReserver.reserve`. -/
def QuotaReserver.reserve (self : QuotaReserver) (apiKeyId : String) (estimatedTokens : Int) :
    RedisProgram TokenReservationLike :=
  if !self.redis ∨ estimatedTokens ≤ 0 then pure (.noop (max estimatedTokens 0))
  else do
    let key := tpmKey apiKeyId
    let count ← redisCall (.incrby key estimatedTokens)
    if count = estimatedTokens then
      let _ ← redisCall (.expire key tpmWindowSeconds)
    if self.tpmLimit < count then
      loggedCall (.decrby key estimatedTokens)
      Program.raise (.app tokenRateLimitExceeded)
    else
      pure (.redis { key, reservedTokens := estimatedTokens, finalized := false })

/-- What is left of a refused reservation after its count is known. -/
def QuotaReserver.rollback (key : String) (tokens : Int) : RedisProgram TokenReservationLike :=
  .call (.decrby key tokens) fun
    | .ok _ => .raise (.app tokenRateLimitExceeded)
    | .error exc => if exc.isException then .raise (.app tokenRateLimitExceeded) else .raise exc

/-- What is left of a reservation after its count is known and the key has its time to live. -/
def QuotaReserver.settle (limit : Int) (key : String) (tokens count : Int) :
    RedisProgram TokenReservationLike :=
  if limit < count then QuotaReserver.rollback key tokens else .ret (.redis ⟨key, tokens, false⟩)

/-- What is left of a reservation after its INCRBY. -/
def QuotaReserver.counted (limit : Int) (key : String) (tokens count : Int) :
    RedisProgram TokenReservationLike :=
  if count = tokens then
    .call (.expire key tpmWindowSeconds) fun
      | .ok _ => QuotaReserver.settle limit key tokens count
      | .error exc => .raise (redisFailure exc)
  else QuotaReserver.settle limit key tokens count

theorem reserve_eq (limit : Int) (apiKeyId : String) {tokens : Int} (h : 0 < tokens) :
    QuotaReserver.reserve ⟨true, limit⟩ apiKeyId tokens =
      .call (.incrby (tpmKey apiKeyId) tokens) fun
        | .ok count => QuotaReserver.counted limit (tpmKey apiKeyId) tokens count
        | .error exc => .raise (redisFailure exc) := by
  have hsettle : ∀ count, (if limit < count then
        ((loggedCall (.decrby (tpmKey apiKeyId) tokens)).bind fun _ =>
          .raise (.app tokenRateLimitExceeded))
      else .ret (.redis ⟨tpmKey apiKeyId, tokens, false⟩)) =
      QuotaReserver.settle limit (tpmKey apiKeyId) tokens count := by
    intro count
    rw [QuotaReserver.settle, QuotaReserver.rollback, loggedCall_eq, Program.call_bind]
    congr 2
    funext answer
    cases answer with
    | ok value => rfl
    | error exc => cases exc <;> rfl
  have hpositive : ¬(!true ∨ tokens ≤ 0) := by simp [h]
  simp only [QuotaReserver.reserve, if_neg hpositive, redisCall_eq, Program.bind_eq, Program.call_bind,
    Program.pure_eq]
  congr 1
  funext answer
  cases answer with
  | error exc => rfl
  | ok count =>
      simp only [Program.ret_bind, QuotaReserver.counted]
      split
      · congr 1
        funext answer
        cases answer with
        | error exc => rfl
        | ok reply => exact hsettle count
      · exact hsettle count

/-- The commands of a finalization that gives tokens back. -/
def TokenReservation.giveBack (key : String) (tokens : Int) : RedisProgram Unit :=
  countDown key (Program.perform (RedisOp.decrby key tokens))

theorem giveTokensBack_eq (key : String) (tokens : Int) :
    TokenReservation.giveBack key tokens = .call (.decrby key tokens) fun
      | .ok remaining => countDown key (.ret remaining)
      | .error exc => countDown key (.raise exc) := by
  rw [TokenReservation.giveBack, Program.perform, countDown_call]
  congr 1
  funext answer
  cases answer <;> rfl

theorem finalize_of_finalized {reservation : TokenReservation} (h : reservation.finalized = true)
    (actualTokens : Int) (releaseAll : Bool) :
    reservation.finalize actualTokens releaseAll = (reservation, .ret ()) := by
  rw [TokenReservation.finalize, if_pos h]
  rfl

theorem finalize_of_live {reservation : TokenReservation} (h : reservation.finalized = false)
    (actualTokens : Int) (releaseAll : Bool) :
    reservation.finalize actualTokens releaseAll = ({ reservation with finalized := true },
      if reservation.tokensToRelease actualTokens releaseAll ≤ 0 then .ret ()
      else TokenReservation.giveBack reservation.key
        (reservation.tokensToRelease actualTokens releaseAll)) := by
  rw [TokenReservation.finalize, h, if_neg Bool.false_ne_true]
  rfl

/-- The keyspace, and how often the key has expired so far. -/
structure QuotaState where
  redis : Redis
  window : Nat

/-- A client: its call of `reserve`, with the commands still to be sent, or its reservation once
`finalize` has been called, with the commands of that call still to be sent. `window` is the window
of the last command of `reserve`, or the one `reserve` was called in before its first command. -/
inductive QuotaClient where
  | reserving (window : Nat) (call : RedisProgram TokenReservationLike)
  | finalizing (window : Nat) (reservation : TokenReservation) (call : RedisProgram Unit)

/-- One command of the client takes effect, or the client calls `finalize`. A repeated `finalize` has
no command to send. -/
inductive QuotaClient.Act : QuotaState → QuotaClient → QuotaState → QuotaClient → Prop
  | reserve {s : QuotaState} {window : Nat} {op : RedisOp}
      {next : Except PyExc op.Res → RedisProgram TokenReservationLike} :
      Act s (.reserving window (.call op next)) { s with redis := (Redis.apply op s.redis).2 }
        (.reserving s.window (next (Redis.apply op s.redis).1))
  | call {s : QuotaState} {window : Nat} {reservation : TokenReservation} (actualTokens : Int)
      (releaseAll : Bool) :
      Act s (.reserving window (.ret (.redis reservation))) s
        (.finalizing window (reservation.finalize actualTokens releaseAll).1
          (reservation.finalize actualTokens releaseAll).2)
  | finalize {s : QuotaState} {window : Nat} {reservation : TokenReservation} {op : RedisOp}
      {next : Except PyExc op.Res → RedisProgram Unit} :
      Act s (.finalizing window reservation (.call op next))
        { s with redis := (Redis.apply op s.redis).2 }
        (.finalizing window reservation (next (Redis.apply op s.redis).1))
  | again {s : QuotaState} {window : Nat} {reservation : TokenReservation} {call : RedisProgram Unit}
      (actualTokens : Int) (releaseAll : Bool)
      (h : (reservation.finalize actualTokens releaseAll).2 = .ret ()) :
      Act s (.finalizing window reservation call) s
        (.finalizing window (reservation.finalize actualTokens releaseAll).1 call)

/-- The state after the key has expired: a new window begins. -/
def QuotaState.expired (s : QuotaState) (key : String) : QuotaState where
  redis := s.redis.remove key
  window := s.window + 1

/-- A key with a time to live may expire at any moment. -/
def Expires (key : String) (s s' : QuotaState) : Prop :=
  (∃ value ttl, s.redis key = some ⟨value, some ttl⟩) ∧ s' = s.expired key

/-- Any number of `reserve` and `finalize` calls on one key, command by command. -/
def quotaSystem (apiKeyId : String) (tpmLimit : Int) : System QuotaState QuotaClient where
  starts s client := ∃ estimatedTokens, client =
    .reserving s.window (QuotaReserver.reserve ⟨true, tpmLimit⟩ apiKeyId estimatedTokens)
  act := QuotaClient.Act
  env := Expires (tpmKey apiKeyId)

/-- The tokens of a reservation that was returned since the key last expired and is not finalized. -/
def QuotaClient.outstanding (window : Nat) : QuotaClient → Int
  | .reserving returned (.ret reservation) =>
      if returned = window then reservation.reservedTokens else 0
  | _ => 0

def outstandingTokens (pool : Pool QuotaState QuotaClient) : Int :=
  (pool.threads.map (QuotaClient.outstanding pool.shared.window)).sum

/-- The condition on a step: EXPIRE and DECRBY reach the window that counted the INCRBY they belong
to, a finalization gives back no more than was reserved, and a DEL finds the counter at zero or
below, as the DECRBY before it did. -/
def SameWindow (s : QuotaState) : QuotaClient → Prop
  | .reserving window (.call (.expire _ _) _) => window = s.window
  | .reserving window (.call (.decrby _ _) _) => window = s.window
  | .finalizing window reservation (.call (.decrby _ tokens) _) =>
      window = s.window ∧ tokens ≤ reservation.reservedTokens
  | .finalizing _ _ (.call (.delete key) _) => s.redis.counter key ≤ 0
  | _ => True

/-- The tokens a reservation that is being taken will hand out or has handed out, once INCRBY has
counted them within the limit. -/
def granted : RedisProgram TokenReservationLike → Nat
  | .ret reservation => reservation.reservedTokens.toNat
  | .call (.expire _ _) next =>
      match next (.ok true) with
      | .ret reservation => reservation.reservedTokens.toNat
      | _ => 0
  | _ => 0

/-- The tokens a refused reservation will give back. -/
def refunds : RedisProgram TokenReservationLike → Nat
  | .call (.decrby _ tokens) _ => tokens.toNat
  | .call (.expire _ _) next =>
      match next (.ok true) with
      | .call (.decrby _ tokens) _ => tokens.toNat
      | _ => 0
  | _ => 0

namespace QuotaClient

def window : QuotaClient → Nat
  | reserving window _ => window
  | finalizing window _ _ => window

/-- The tokens that are to be given back, and the tokens that are granted. A reservation that is
being finalized holds all its tokens until its DECRBY. -/
def tokens : QuotaClient → Nat × Nat
  | reserving _ call => (refunds call, granted call)
  | finalizing _ reservation (.call (.decrby _ _) _) => (reservation.reservedTokens.toNat, 0)
  | finalizing _ _ _ => 0

/-- Only the tokens counted in the present window weigh on its counter. -/
def weight (s : QuotaState) (client : QuotaClient) : Nat × Nat :=
  if client.window = s.window then client.tokens else 0

/-- The program points of a client. -/
inductive Point (key : String) (limit : Int) : QuotaClient → Prop
  | noop (window : Nat) (tokens : Int) (h : tokens = 0) :
      Point key limit (reserving window (.ret (.noop tokens)))
  | start (window : Nat) (tokens : Int) (next : Except PyExc Int → RedisProgram TokenReservationLike)
      (hpositive : 0 < tokens)
      (h : ∀ count, next (.ok count) = QuotaReserver.counted limit key tokens count) :
      Point key limit (reserving window (.call (.incrby key tokens) next))
  | expire (window : Nat) (tokens count : Int)
      (next : Except PyExc Bool → RedisProgram TokenReservationLike) (hpositive : 0 < tokens)
      (h : ∀ reply, next (.ok reply) = QuotaReserver.settle limit key tokens count) :
      Point key limit (reserving window (.call (.expire key tpmWindowSeconds) next))
  | rollback (window : Nat) (tokens : Int) (hpositive : 0 < tokens) :
      Point key limit (reserving window (QuotaReserver.rollback key tokens))
  | refused (window : Nat) (exc : PyExc) : Point key limit (reserving window (.raise exc))
  | held (window : Nat) (tokens : Int) (hpositive : 0 < tokens) :
      Point key limit (reserving window (.ret (.redis ⟨key, tokens, false⟩)))
  | giveBack (window : Nat) (reserved tokens : Int) (hpositive : 0 < reserved) :
      Point key limit (finalizing window ⟨key, reserved, true⟩ (TokenReservation.giveBack key tokens))
  | forget (window : Nat) (reserved : Int) (next : Except PyExc Int → RedisProgram Unit)
      (h : ∀ reply, next (.ok reply) = .ret ()) :
      Point key limit (finalizing window ⟨key, reserved, true⟩ (.call (.delete key) next))
  | done (window : Nat) (reserved : Int) :
      Point key limit (finalizing window ⟨key, reserved, true⟩ (.ret ()))

theorem tokens_settle (limit : Int) (key : String) (window : Nat) (tokens count : Int) :
    (reserving window (QuotaReserver.settle limit key tokens count)).tokens =
      if limit < count then (tokens.toNat, 0) else (0, tokens.toNat) := by
  unfold QuotaReserver.settle
  split <;> rfl

theorem tokens_rollback (key : String) (window : Nat) (amount : Int) :
    (reserving window (QuotaReserver.rollback key amount)).tokens = (amount.toNat, 0) := rfl

theorem tokens_giveBack (key : String) (window : Nat) (reservation : TokenReservation) (amount : Int) :
    (finalizing window reservation (TokenReservation.giveBack key amount)).tokens =
      (reservation.reservedTokens.toNat, 0) := by
  rw [giveTokensBack_eq]
  rfl

theorem tokens_expire (limit : Int) (key : String) (window : Nat) (tokens count : Int)
    (next : Except PyExc Bool → RedisProgram TokenReservationLike)
    (h : ∀ reply, next (.ok reply) = QuotaReserver.settle limit key tokens count) :
    (reserving window (.call (.expire key tpmWindowSeconds) next)).tokens =
      (reserving window (QuotaReserver.settle limit key tokens count)).tokens := by
  rw [tokens_settle]
  by_cases hover : limit < count <;>
    simp [QuotaClient.tokens, granted, refunds, h, QuotaReserver.settle, QuotaReserver.rollback, hover,
      TokenReservationLike.reservedTokens]

theorem point_settle (limit : Int) (key : String) (window : Nat) {tokens : Int} (h : 0 < tokens)
    (count : Int) : Point key limit (reserving window (QuotaReserver.settle limit key tokens count)) := by
  unfold QuotaReserver.settle
  split
  · exact .rollback window tokens h
  · exact .held window tokens h

theorem point_reserve (limit : Int) (apiKeyId : String) (window : Nat) (tokens : Int) :
    Point (tpmKey apiKeyId) limit
      (reserving window (QuotaReserver.reserve ⟨true, limit⟩ apiKeyId tokens)) := by
  by_cases hpositive : 0 < tokens
  · rw [reserve_eq limit apiKeyId hpositive]
    exact .start window tokens _ hpositive fun count => rfl
  · have hmax : max tokens 0 = 0 := by omega
    have hnoop : QuotaReserver.reserve ⟨true, limit⟩ apiKeyId tokens = .ret (.noop 0) := by
      rw [QuotaReserver.reserve, if_pos (Or.inr (by omega)), hmax]
      rfl
    rw [hnoop]
    exact .noop window 0 rfl

end QuotaClient

/-- The key holds a counter that covers the tokens to be given back and the tokens granted, and the
latter are within the limit. -/
def CoversTokens (key : String) (limit : Int) (s : QuotaState) (tokens : Nat × Nat) : Prop :=
  s.redis.Counts key ∧ (tokens.1 + tokens.2 : Int) ≤ s.redis.counter key ∧ (tokens.2 : Int) ≤ limit

section Steps

variable {key : String} {limit : Int} {s : QuotaState} {m : Nat × Nat}

/-- INCRBY counts the tokens; a count within the limit leaves room for them. -/
theorem covers_incrby (h : CoversTokens key limit s m) {tokens : Int} (hpositive : 0 < tokens)
    (client : QuotaClient) (hclient : client.tokens =
      if limit < s.redis.counter key + tokens then (tokens.toNat, 0) else (0, tokens.toNat)) :
    CoversTokens key limit { s with redis := (s.redis.add key tokens).2 } (client.tokens + m) := by
  obtain ⟨hcounts, hcovers, hlimit⟩ := h
  obtain ⟨_, hstored, hcounts'⟩ := Redis.add_spec hcounts tokens
  rw [hclient]
  split
  · refine ⟨hcounts', ?_, ?_⟩
    · simp only [hstored, Prod.fst_add, Prod.snd_add]
      omega
    · simp only [Prod.snd_add]
      omega
  · refine ⟨hcounts', ?_, ?_⟩
    · simp only [hstored, Prod.fst_add, Prod.snd_add]
      omega
    · simp only [Prod.snd_add]
      omega

/-- DECRBY gives back at most what its client still held. -/
theorem covers_decrby {held : Nat} (h : CoversTokens key limit s ((held, 0) + m)) {tokens : Int}
    (hle : tokens ≤ held) : CoversTokens key limit { s with redis := (s.redis.add key (-tokens)).2 } m := by
  obtain ⟨hcounts, hcovers, hlimit⟩ := h
  obtain ⟨_, hstored, hcounts'⟩ := Redis.add_spec hcounts (-tokens)
  simp only [Prod.fst_add, Prod.snd_add] at hcovers hlimit
  refine ⟨hcounts', ?_, by omega⟩
  simp only [hstored]
  omega

/-- DEL at zero or below: no token is left to cover. -/
theorem covers_delete (h : CoversTokens key limit s m) (hzero : s.redis.counter key ≤ 0) :
    CoversTokens key limit { s with redis := s.redis.remove key } m := by
  obtain ⟨_, hcovers, hlimit⟩ := h
  refine ⟨Redis.counts_remove_self s.redis key, ?_, hlimit⟩
  simp only [Redis.counter_remove_self]
  omega

/-- EXPIRE changes no counter. -/
theorem covers_expire (h : CoversTokens key limit s m) (time : Nat) :
    CoversTokens key limit { s with redis := (Redis.apply (.expire key time) s.redis).2 } m := by
  obtain ⟨hcounts, hcovers, hlimit⟩ := h
  obtain ⟨-, hcounter, hcounts'⟩ := Redis.expire_spec hcounts time
  refine ⟨hcounts', ?_, hlimit⟩
  rw [hcounter]
  exact hcovers

/-- Giving up tokens that are granted or owed keeps the rest covered. -/
theorem covers_mono {held : Nat × Nat} (h : CoversTokens key limit s (held + m)) :
    CoversTokens key limit s m := by
  obtain ⟨hcounts, hcovers, hlimit⟩ := h
  simp only [Prod.fst_add, Prod.snd_add] at hcovers hlimit
  exact ⟨hcounts, by omega, by omega⟩

/-- Calling `finalize` turns granted tokens into tokens to be given back. -/
theorem covers_call {held : Nat} (h : CoversTokens key limit s ((0, held) + m)) :
    CoversTokens key limit s ((held, 0) + m) := by
  obtain ⟨hcounts, hcovers, hlimit⟩ := h
  simp only [Prod.fst_add, Prod.snd_add] at hcovers hlimit
  refine ⟨hcounts, ?_, ?_⟩
  · simp only [Prod.fst_add, Prod.snd_add]
    omega
  · simp only [Prod.snd_add]
    omega

end Steps

theorem weight_of_window {s : QuotaState} {client : QuotaClient} (h : client.window = s.window) :
    client.weight s = client.tokens := if_pos h

theorem weight_of_tokens {client : QuotaClient} (h : client.tokens = 0) (s : QuotaState) :
    client.weight s = 0 := by
  unfold QuotaClient.weight
  split
  · exact h
  · rfl

theorem act_window {s s' : QuotaState} {client client' : QuotaClient}
    (hact : QuotaClient.Act s client s' client') (h : client.window ≤ s.window) :
    s'.window = s.window ∧ client'.window ≤ s.window := by
  cases hact with
  | reserve => exact ⟨rfl, le_refl _⟩
  | call => exact ⟨rfl, h⟩
  | finalize => exact ⟨rfl, h⟩
  | again => exact ⟨rfl, h⟩

section Act

variable {key : String} {limit : Int} {s s' : QuotaState} {client client' : QuotaClient} {m : Nat × Nat}
  {window : Nat}

theorem covers_act_start {tokens : Int} {next : Except PyExc Int → RedisProgram TokenReservationLike}
    (hpositive : 0 < tokens)
    (hnext : ∀ count, next (.ok count) = QuotaReserver.counted limit key tokens count)
    (h : CoversTokens key limit s m)
    (hact : QuotaClient.Act s (.reserving window (.call (.incrby key tokens) next)) s' client') :
    CoversTokens key limit s' (client'.weight s' + m) ∧ QuotaClient.Point key limit client' := by
  cases hact
  obtain ⟨hreply, -, -⟩ := Redis.add_spec h.1 tokens
  have hclient : (QuotaClient.reserving s.window (next (s.redis.add key tokens).1)).tokens =
      (QuotaClient.reserving s.window (QuotaReserver.settle limit key tokens
        (s.redis.counter key + tokens))).tokens := by
    rw [hreply, hnext, QuotaReserver.counted]
    split
    · exact QuotaClient.tokens_expire limit key s.window tokens _ _ fun _ => rfl
    · rfl
  refine ⟨?_, ?_⟩
  · rw [weight_of_window rfl]
    exact covers_incrby h hpositive _ (hclient.trans (QuotaClient.tokens_settle _ _ _ _ _))
  · simp only [Redis.apply, hreply, hnext, QuotaReserver.counted]
    split
    · exact .expire s.window tokens _ _ hpositive fun _ => rfl
    · exact QuotaClient.point_settle limit key s.window hpositive _

theorem covers_act_expire {tokens count : Int} {next : Except PyExc Bool → RedisProgram TokenReservationLike}
    (hpositive : 0 < tokens)
    (hnext : ∀ reply, next (.ok reply) = QuotaReserver.settle limit key tokens count)
    (h : CoversTokens key limit s
      ((QuotaClient.reserving s.window (.call (.expire key tpmWindowSeconds) next)).weight s + m))
    (hact : QuotaClient.Act s (.reserving s.window (.call (.expire key tpmWindowSeconds) next)) s' client') :
    CoversTokens key limit s' (client'.weight s' + m) ∧ QuotaClient.Point key limit client' := by
  rw [weight_of_window rfl, QuotaClient.tokens_expire limit key s.window tokens count next hnext] at h
  cases hact
  obtain ⟨⟨reply, hreply⟩, -, -⟩ := Redis.expire_spec h.1 tpmWindowSeconds
  rw [hreply, hnext, weight_of_window rfl]
  exact ⟨covers_expire h tpmWindowSeconds, QuotaClient.point_settle limit key s.window hpositive _⟩

/-- A returned reservation whose `finalize` is called. -/
theorem covers_act_held {tokens : Int} (hpositive : 0 < tokens)
    (h : CoversTokens key limit s
      ((QuotaClient.reserving window (.ret (.redis ⟨key, tokens, false⟩))).weight s + m))
    (hact : QuotaClient.Act s (.reserving window (.ret (.redis ⟨key, tokens, false⟩))) s' client') :
    CoversTokens key limit s' (client'.weight s' + m) ∧ QuotaClient.Point key limit client' := by
  cases hact with
  | call actualTokens releaseAll =>
      rw [finalize_of_live rfl]
      simp only
      split
      · rw [weight_of_tokens rfl, zero_add]
        exact ⟨covers_mono h, .done _ _⟩
      · refine ⟨?_, .giveBack window tokens _ hpositive⟩
        by_cases hwindow : window = s.window
        · subst hwindow
          rw [weight_of_window rfl] at h ⊢
          exact covers_call h
        · have hzero : ∀ client : QuotaClient, client.window = window → client.weight s = 0 :=
            fun client hclient => if_neg (by rw [hclient]; exact hwindow)
          rw [hzero _ rfl] at h ⊢
          exact h

/-- A finalized reservation that gives tokens back. -/
theorem covers_act_giveBack {reserved tokens : Int} (hpositive : 0 < reserved)
    (h : CoversTokens key limit s
      ((QuotaClient.finalizing window ⟨key, reserved, true⟩
        (TokenReservation.giveBack key tokens)).weight s + m))
    (hmeets : SameWindow s (.finalizing window ⟨key, reserved, true⟩ (TokenReservation.giveBack key tokens)))
    (hact : QuotaClient.Act s
      (.finalizing window ⟨key, reserved, true⟩ (TokenReservation.giveBack key tokens)) s' client') :
    CoversTokens key limit s' (client'.weight s' + m) ∧ QuotaClient.Point key limit client' := by
  rw [giveTokensBack_eq] at hact
  cases hact with
  | finalize =>
      obtain ⟨hwindow, hle⟩ : window = s.window ∧ tokens ≤ reserved := hmeets
      subst hwindow
      rw [weight_of_window rfl, QuotaClient.tokens_giveBack] at h
      obtain ⟨hreply, -, -⟩ := Redis.add_spec h.1 (-tokens)
      have hheld : tokens ≤ (reserved.toNat : Int) := by omega
      have hcovers := covers_decrby h hheld
      simp only [Redis.apply, hreply]
      rw [countDown_ret]
      split
      · rw [weight_of_tokens rfl, zero_add]
        exact ⟨hcovers, .forget _ _ _ fun _ => rfl⟩
      · rw [weight_of_tokens rfl, zero_add]
        exact ⟨hcovers, .done _ _⟩
  | again =>
      rw [finalize_of_finalized rfl, ← giveTokensBack_eq]
      exact ⟨h, .giveBack window reserved tokens hpositive⟩

/-- One step of a client, under the condition on windows. -/
theorem covers_act (h : CoversTokens key limit s (client.weight s + m))
    (hpoint : QuotaClient.Point key limit client) (hmeets : SameWindow s client)
    (hact : QuotaClient.Act s client s' client') :
    CoversTokens key limit s' (client'.weight s' + m) ∧ QuotaClient.Point key limit client' := by
  cases hpoint with
  | noop window tokens => cases hact
  | start window tokens next hpositive hnext =>
      rw [weight_of_tokens rfl, zero_add] at h
      exact covers_act_start hpositive hnext h hact
  | expire window tokens count next hpositive hnext =>
      have hwindow : window = s.window := hmeets
      subst hwindow
      exact covers_act_expire hpositive hnext h hact
  | rollback window tokens hpositive =>
      have hwindow : window = s.window := hmeets
      subst hwindow
      rw [weight_of_window rfl, QuotaClient.tokens_rollback] at h
      obtain ⟨hreply, -, -⟩ := Redis.add_spec h.1 (-tokens)
      cases hact
      simp only [Redis.apply, hreply]
      rw [weight_of_tokens rfl, zero_add]
      exact ⟨covers_decrby h (by omega), .refused _ _⟩
  | refused window exc => cases hact
  | held window tokens hpositive => exact covers_act_held hpositive h hact
  | giveBack window reserved tokens hpositive => exact covers_act_giveBack hpositive h hmeets hact
  | forget window reserved next hnext =>
      rw [weight_of_tokens rfl, zero_add] at h
      cases hact with
      | finalize =>
          simp only [Redis.apply, hnext]
          rw [weight_of_tokens rfl, zero_add]
          exact ⟨covers_delete h hmeets, .done _ _⟩
      | again =>
          rw [finalize_of_finalized rfl, weight_of_tokens rfl, zero_add]
          exact ⟨h, .forget window reserved next hnext⟩
  | done window reserved =>
      cases hact with
      | again =>
          rw [finalize_of_finalized rfl]
          exact ⟨h, .done window reserved⟩

end Act

theorem quotaSystem_accounts (apiKeyId : String) (limit : Int) :
    System.Accounts ((quotaSystem apiKeyId limit).restrict SameWindow) QuotaClient.weight
      (CoversTokens (tpmKey apiKeyId) limit)
      (fun s client => QuotaClient.Point (tpmKey apiKeyId) limit client ∧ client.window ≤ s.window) where
  start s client m h hstart := by
    obtain ⟨tokens, rfl⟩ := hstart
    have hweight : (QuotaClient.reserving s.window
        (QuotaReserver.reserve ⟨true, limit⟩ apiKeyId tokens)).tokens = 0 := by
      by_cases hpositive : 0 < tokens
      · rw [reserve_eq limit apiKeyId hpositive]
        rfl
      · have hmax : max tokens 0 = 0 := by omega
        rw [QuotaReserver.reserve, if_pos (Or.inr (by omega)), hmax]
        rfl
    rw [weight_of_tokens hweight, add_zero]
    exact ⟨h, QuotaClient.point_reserve limit apiKeyId s.window tokens, le_refl _⟩
  act s client s' client' m h hA hact := by
    obtain ⟨hcovers, hpoint⟩ := covers_act h hA.1 hact.1 hact.2
    obtain ⟨hsame, hwindow⟩ := act_window hact.2 hA.2
    exact ⟨hcovers, hpoint, by omega⟩
  frame s client s' client' other m _ hA hother hact := by
    obtain ⟨hsame, -⟩ := act_window hact.2 hA.2
    refine ⟨?_, hother.1, by omega⟩
    rw [QuotaClient.weight, hsame, QuotaClient.weight]
  env s s' clients h hA henv := by
    obtain ⟨-, rfl⟩ := henv
    have hzero : clients.map (QuotaClient.weight (s.expired (tpmKey apiKeyId))) =
        clients.map fun _ => 0 := by
      refine List.map_congr_left fun client hclient => if_neg ?_
      have hwindow := (hA client hclient).2
      simp only [QuotaState.expired]
      omega
    constructor
    · rw [hzero, List.sum_map_zero]
      refine ⟨Redis.counts_remove_self _ _, ?_, ?_⟩
      · simp [QuotaState.expired]
      · have hlimit := h.2.2
        simp only [Prod.snd_zero]
        omega
    · intro client hclient
      obtain ⟨hpoint, hwindow⟩ := hA client hclient
      exact ⟨hpoint, Nat.le_succ_of_le hwindow⟩

theorem outstanding_le {key : String} {limit : Int} (s : QuotaState) {client : QuotaClient}
    (hpoint : QuotaClient.Point key limit client) :
    client.outstanding s.window ≤ (client.weight s).2 := by
  cases hpoint with
  | noop window tokens h =>
      simp only [QuotaClient.outstanding, TokenReservationLike.reservedTokens]
      split <;> omega
  | held window tokens hpositive =>
      by_cases hwindow : window = s.window
      · subst hwindow
        rw [weight_of_window rfl]
        simp only [QuotaClient.outstanding, QuotaClient.tokens, granted,
          TokenReservationLike.reservedTokens, if_true]
        omega
      · simp only [QuotaClient.outstanding, if_neg hwindow]
        omega
  | _ => exact Int.natCast_nonneg _

theorem outstandingTokens_le {key : String} {limit : Int} (s : QuotaState) (clients : List QuotaClient)
    (hpoint : ∀ client ∈ clients, QuotaClient.Point key limit client) :
    (clients.map (QuotaClient.outstanding s.window)).sum ≤
      ((clients.map (QuotaClient.weight s)).sum).2 := by
  induction clients with
  | nil => exact Int.le_refl 0
  | cons client clients ih =>
      have hclient := outstanding_le s (hpoint client (by simp))
      have hclients := ih fun other hother => hpoint other (by simp [hother])
      rw [List.map_cons, List.sum_cons, List.map_cons, List.sum_cons, Prod.snd_add]
      omega

/-- **The token limit, inside one window.** In every run whose EXPIRE and DECRBY commands reach the
window that counted their INCRBY, whose finalizations give back no more than was reserved and whose
DELs find the counter at zero or below, the reservations that were returned since the last expiry
and are not finalized never exceed the limit. -/
theorem outstandingTokens_le_limit (apiKeyId : String) (tpmLimit : Int) (hlimit : 0 ≤ tpmLimit)
    (s : QuotaState) (habsent : s.redis (tpmKey apiKeyId) = none) (pool : Pool QuotaState QuotaClient)
    (hreach : ((quotaSystem apiKeyId tpmLimit).restrict SameWindow).Reachable s pool) :
    outstandingTokens pool ≤ tpmLimit := by
  have hinit : CoversTokens (tpmKey apiKeyId) tpmLimit s 0 := by
    refine ⟨Redis.counts_of_absent habsent, ?_, hlimit⟩
    rw [Redis.counter_of_absent habsent]
    exact Int.le_refl 0
  obtain ⟨hcovers, hclients⟩ := (quotaSystem_accounts apiKeyId tpmLimit).reachable hinit hreach
  have hsum := outstandingTokens_le pool.shared pool.threads fun client hclient =>
    (hclients client hclient).1
  have hgranted := hcovers.2.2
  unfold outstandingTokens
  omega

/-- Two reservations fill the limit and the first is finalized in the window it was counted in. -/
theorem outstandingTokens_le_limit_shared :
    ∃ pool, ((quotaSystem "key" 100).restrict SameWindow).Reachable ⟨fun _ => none, 0⟩ pool ∧
      outstandingTokens pool = 40 ∧ outstandingTokens pool ≤ 100 := by
  have hstart : ∀ s tokens, ((quotaSystem "key" 100).restrict SameWindow).starts s
      (.reserving s.window (QuotaReserver.reserve ⟨true, 100⟩ "key" tokens)) :=
    fun _ tokens => ⟨tokens, rfl⟩
  have h0 : ((quotaSystem "key" 100).restrict SameWindow).Reachable ⟨fun _ => none, 0⟩
      ⟨⟨fun _ => none, 0⟩, []⟩ := .refl
  have h1 := h0.tail (.start _ (hstart _ 60))
  have h2 := h1.tail (.act [] [] ⟨trivial, .reserve⟩)
  have h3 := h2.tail (.act [] [] ⟨rfl, .reserve⟩)
  have h4 := h3.tail (.start _ (hstart _ 40))
  have h5 := h4.tail (.act [_] [] ⟨trivial, .reserve⟩)
  have h6 := h5.tail (.act [] [_] ⟨trivial, .call 12 false⟩)
  have h7 := h6.tail (.act [] [_] ⟨⟨rfl, by decide⟩, .finalize⟩)
  exact ⟨_, h7, by decide, outstandingTokens_le_limit "key" 100 (by decide) _ rfl _ h7⟩

/-- Without the condition the limit fails: a reservation of an expired window is finalized against
the counter of the next one and frees tokens that are held there. -/
theorem outstandingTokens_exceed_limit :
    ¬ ∀ (apiKeyId : String) (tpmLimit : Int), 0 ≤ tpmLimit → ∀ s : QuotaState,
      s.redis (tpmKey apiKeyId) = none → ∀ pool : Pool QuotaState QuotaClient,
      (quotaSystem apiKeyId tpmLimit).Reachable s pool → outstandingTokens pool ≤ tpmLimit := by
  intro h
  have hstart : ∀ s tokens, (quotaSystem "key" 100).starts s
      (.reserving s.window (QuotaReserver.reserve ⟨true, 100⟩ "key" tokens)) :=
    fun _ tokens => ⟨tokens, rfl⟩
  have h0 : (quotaSystem "key" 100).Reachable ⟨fun _ => none, 0⟩ ⟨⟨fun _ => none, 0⟩, []⟩ := .refl
  have h1 := h0.tail (.start _ (hstart _ 50))
  have h2 := h1.tail (.act [] [] .reserve)
  have h3 := h2.tail (.act [] [] .reserve)
  have h4 := h3.tail (.env ⟨⟨_, _, rfl⟩, rfl⟩)
  have h5 := h4.tail (.start _ (hstart _ 60))
  have h6 := h5.tail (.act [_] [] .reserve)
  have h7 := h6.tail (.act [_] [] .reserve)
  have h8 := h7.tail (.act [] [_] (.call 0 true))
  have h9 := h8.tail (.act [] [_] .finalize)
  have h10 := h9.tail (.start _ (hstart _ 90))
  have h11 := h10.tail (.act [_, _] [] .reserve)
  have hbound := h "key" 100 (by decide) _ rfl _ h11
  revert hbound
  decide

end GpuInference
