import GpuInference.AuthKeys
import GpuInference.EffectTrace
import GpuInference.RateConcurrency
import GpuInference.RateExpiry

/-!
Admission. A request passes the overload gate, is counted, takes a slot and reserves its tokens, one after the other; it
is admitted only when every one of these steps has seen what it needs. What a step has taken is not given back when a
later one refuses.
-/

open Effect

namespace GpuInference

def overloadKey : String := "overload:global"

def serverOverloaded : AppError where
  message := "Server is overloaded"
  code := "server_overloaded"
  statusCode := 503
  type := "server_error"
  param := none

/-- `str(value).lower() not in {"", "0", "false", "none"}`; the letters in these are lower case of ASCII letters only. -/
def overloaded (value : String) : Bool := value.toLower ∉ ["", "0", "false", "none"]

/-- `RateLimiter.check_overload`. -/
def RateLimiter.checkOverload : RedisProgram Unit := do
  let value ← redisCall (.get overloadKey)
  if value.any overloaded then Program.raise (.app serverOverloaded)
  else pure ()

/-- `TokenReservationLike.finalize`; a `NoopTokenReservation` has nothing to give back. -/
def TokenReservationLike.finalize (reservation : TokenReservationLike) (actualTokens : Int) (releaseAll : Bool) :
    TokenReservationLike × RedisProgram Unit :=
  match reservation with
  | redis reservation =>
      let finalized := reservation.finalize actualTokens releaseAll
      (.redis finalized.1, finalized.2)
  | noop tokens => (.noop tokens, pure ())

/-- What an `AdmissionLease` holds. -/
structure AdmissionLease.Object where
  concurrency : ConcurrencyLease
  tokenReservation : TokenReservationLike
  deriving DecidableEq, Repr

namespace AdmissionLease.Object

/-- `AdmissionLease.release`. -/
def release (self : AdmissionLease.Object) : AdmissionLease.Object × RedisProgram Unit :=
  let released := self.concurrency.release
  ({ self with concurrency := released.1 }, released.2)

/-- `AdmissionLease.finalize_tokens`. -/
def finalizeTokens (self : AdmissionLease.Object) (actualTokens : Int) (releaseAll : Bool) :
    AdmissionLease.Object × RedisProgram Unit :=
  let finalized := self.tokenReservation.finalize actualTokens releaseAll
  ({ self with tokenReservation := finalized.1 }, finalized.2)

end AdmissionLease.Object

structure AdmissionService where
  quotaReserver : QuotaReserver
  rpmLimit : Int
  concurrentRequestLimit : Int
  deriving DecidableEq, Repr

/-- `AdmissionService.admit`. -/
def AdmissionService.admitRequest (self : AdmissionService) (authContext : AuthContext) (estimatedTokens : Int) :
    RedisProgram AdmissionLease.Object := do
  RateLimiter.checkOverload
  RateLimiter.checkRpm authContext.apiKeyId self.rpmLimit
  let concurrency ← ConcurrencyLimiter.acquire authContext.apiKeyId self.concurrentRequestLimit
  let tokenReservation ← self.quotaReserver.reserve authContext.apiKeyId estimatedTokens
  pure { concurrency, tokenReservation }

abbrev RedisEvent := Event RedisOp RedisOp.Res PyExc

/-- The calls that raise raise an `Exception`. -/
abbrev RaisesExceptions {Op : Type} {Res : Op → Type} (calls : List (Event Op Res PyExc)) : Prop :=
  RaisesOnly (fun _ => PyExc.isException) calls

/-- The overload flag was read and is clear. -/
def OverloadClear (calls : List RedisEvent) : Prop :=
  ∃ value, ⟨.get overloadKey, .ok value⟩ ∈ calls ∧ value.any overloaded = false

/-- A key that was fresh has got its time to live. -/
def Expiring (key : String) (time : Nat) (calls : List RedisEvent) : Prop :=
  ∃ reply, ⟨.expire key time, .ok reply⟩ ∈ calls

/-- The request was counted within the limit. -/
def RequestCounted (apiKeyId : String) (limit : Int) (calls : List RedisEvent) : Prop :=
  ∃ count, ⟨.incr (rpmKey apiKeyId), .ok count⟩ ∈ calls ∧ count ≤ limit ∧
    (count = 1 → Expiring (rpmKey apiKeyId) rpmWindowSeconds calls)

/-- The slot was counted within the limit. -/
def SlotCounted (apiKeyId : String) (limit : Int) (calls : List RedisEvent) : Prop :=
  ∃ count, ⟨.incr (concurrencyKey apiKeyId), .ok count⟩ ∈ calls ∧ count ≤ limit

/-- The tokens were counted within the limit. -/
def TokensCounted (self : QuotaReserver) (apiKeyId : String) (estimatedTokens : Int) (calls : List RedisEvent) :
    Prop :=
  self.redis = true → 0 < estimatedTokens →
    ∃ count, ⟨.incrby (tpmKey apiKeyId) estimatedTokens, .ok count⟩ ∈ calls ∧ count ≤ self.tpmLimit ∧
      (count = estimatedTokens → Expiring (tpmKey apiKeyId) tpmWindowSeconds calls)

/-- Everything that an admission requires. -/
structure Admitted (self : AdmissionService) (apiKeyId : String) (estimatedTokens : Int) (calls : List RedisEvent) :
    Prop where
  overload : OverloadClear calls
  request : RequestCounted apiKeyId self.rpmLimit calls
  slot : SlotCounted apiKeyId self.concurrentRequestLimit calls
  tokens : TokensCounted self.quotaReserver apiKeyId estimatedTokens calls

/-- A controlled refusal: 429 or 503, or what a command itself has raised as an `AppError`. -/
def Refusal (calls : List RedisEvent) (exc : PyExc) : Prop :=
  ∃ error, exc = .app error ∧
    (error.statusCode = 429 ∨ error.statusCode = 503 ∨ ∃ event ∈ calls, event.answer = .error (.app error))

section Seen

variable {calls more : List RedisEvent}

theorem OverloadClear.mono (h : OverloadClear calls) (hsub : calls ⊆ more) : OverloadClear more := by
  obtain ⟨value, hmem, hclear⟩ := h
  exact ⟨value, hsub hmem, hclear⟩

theorem Expiring.mono {key : String} {time : Nat} (h : Expiring key time calls) (hsub : calls ⊆ more) :
    Expiring key time more := by
  obtain ⟨reply, hmem⟩ := h
  exact ⟨reply, hsub hmem⟩

theorem RequestCounted.mono {apiKeyId : String} {limit : Int} (h : RequestCounted apiKeyId limit calls)
    (hsub : calls ⊆ more) : RequestCounted apiKeyId limit more := by
  obtain ⟨count, hmem, hlimit, hexpire⟩ := h
  exact ⟨count, hsub hmem, hlimit, fun hfresh => (hexpire hfresh).mono hsub⟩

theorem SlotCounted.mono {apiKeyId : String} {limit : Int} (h : SlotCounted apiKeyId limit calls)
    (hsub : calls ⊆ more) : SlotCounted apiKeyId limit more := by
  obtain ⟨count, hmem, hlimit⟩ := h
  exact ⟨count, hsub hmem, hlimit⟩

end Seen

/-- The end of a step that began after `log`: what was called stays, and when only `Exception`s are raised the step has
seen what it requires or is a refusal. -/
def StepDone {α : Type} (seen : List RedisEvent → Prop) (log calls : List RedisEvent) (outcome : Except PyExc α) :
    Prop :=
  log ⊆ calls ∧ (RaisesExceptions calls →
    match outcome with
    | .ok _ => seen calls
    | .error exc => Refusal calls exc)

/-- A command whose failure is turned into a refusal. -/
theorem follows_redisCall {α : Type} {op : RedisOp} {rest : op.Res → RedisProgram α}
    {seen : List RedisEvent → Prop} {log first : List RedisEvent} (hsub : first ⊆ log)
    (hok : ∀ value, (rest value).Follows recording (StepDone seen first) (log ++ [⟨op, .ok value⟩])) :
    ((redisCall op).bind rest).Follows recording (StepDone seen first) log := by
  rw [redisCall_eq, Program.call_bind]
  refine ⟨trivial, ?_⟩
  intro answer
  cases answer with
  | ok value => exact hok value
  | error exc =>
      refine ⟨List.subset_append_of_subset_left _ hsub, ?_⟩
      intro hraises
      have hlast : ⟨op, .error exc⟩ ∈ log ++ [(⟨op, .error exc⟩ : RedisEvent)] := List.mem_concat_self
      cases exc with
      | app error => exact ⟨error, rfl, .inr (.inr ⟨_, hlast, rfl⟩)⟩
      | exception code text => exact ⟨dependencyUnavailable, rfl, .inr (.inl rfl)⟩
      | base name => exact absurd (hraises _ hlast _ rfl) Bool.false_ne_true

/-- A refusal that gives something back first. -/
theorem follows_loggedRefusal {α : Type} {op : RedisOp} {error : AppError} (hstatus : error.statusCode = 429)
    {seen : List RedisEvent → Prop} {log first : List RedisEvent} (hsub : first ⊆ log) :
    ((loggedCall op).bind fun _ => Program.raise (.app error) : RedisProgram α).Follows recording
      (StepDone seen first) log := by
  rw [loggedCall_eq, Program.call_bind]
  refine ⟨trivial, ?_⟩
  intro answer
  have hdone : ∀ answer : Except PyExc op.Res, StepDone seen first (log ++ [(⟨op, answer⟩ : RedisEvent)])
      (.error (.app error) : Except PyExc α) := by
    intro answer
    exact ⟨List.subset_append_of_subset_left _ hsub, fun _ => ⟨error, rfl, .inl hstatus⟩⟩
  cases answer with
  | ok value => exact hdone _
  | error exc =>
      simp only
      split
      · exact hdone _
      · rename_i hbase
        refine ⟨List.subset_append_of_subset_left _ hsub, ?_⟩
        intro hraises
        exact absurd (hraises ⟨op, .error exc⟩ List.mem_concat_self _ rfl) hbase

theorem follows_checkOverload (log : List RedisEvent) :
    RateLimiter.checkOverload.Follows recording (StepDone OverloadClear log) log := by
  apply follows_redisCall (List.Subset.refl log)
  intro value
  have hsub : log ⊆ log ++ [(⟨.get overloadKey, .ok value⟩ : RedisEvent)] := List.subset_append_left _ _
  split
  · exact ⟨hsub, fun _ => ⟨serverOverloaded, rfl, .inr (.inl rfl)⟩⟩
  · rename_i hclear
    exact ⟨hsub, fun _ => ⟨value, List.mem_concat_self, eq_false_of_ne_true hclear⟩⟩

theorem follows_checkRpm_recording (apiKeyId : String) (limit : Int) (log : List RedisEvent) :
    (RateLimiter.checkRpm apiKeyId limit).Follows recording (StepDone (RequestCounted apiKeyId limit) log) log := by
  apply follows_redisCall (List.Subset.refl log)
  intro count
  have hend : ∀ calls, log ++ [(⟨.incr (rpmKey apiKeyId), .ok count⟩ : RedisEvent)] ⊆ calls →
      (count = 1 → Expiring (rpmKey apiKeyId) rpmWindowSeconds calls) →
      (if limit < count then Program.raise (.app rateLimitExceeded) else pure () : RedisProgram Unit).Follows
        recording (StepDone (RequestCounted apiKeyId limit) log) calls := by
    intro calls hsub hexpire
    have hlog : log ⊆ calls := List.Subset.trans (List.subset_append_left _ _) hsub
    split
    · exact ⟨hlog, fun _ => ⟨rateLimitExceeded, rfl, .inl rfl⟩⟩
    · exact ⟨hlog, fun _ => ⟨count, hsub List.mem_concat_self, by omega, hexpire⟩⟩
  dsimp only
  split
  · apply follows_redisCall (List.subset_append_left _ _)
    intro reply
    apply hend
    · exact List.subset_append_left _ _
    · intro _
      exact ⟨reply, List.mem_concat_self⟩
  · rename_i hcount
    exact hend _ (List.Subset.refl _) fun hfresh => absurd hfresh hcount

theorem follows_acquire_recording (apiKeyId : String) (limit : Int) (log : List RedisEvent) :
    (ConcurrencyLimiter.acquire apiKeyId limit).Follows recording (StepDone (SlotCounted apiKeyId limit) log) log := by
  apply follows_redisCall (List.Subset.refl log)
  intro count
  split
  · exact follows_loggedRefusal rfl (List.subset_append_left _ _)
  · exact ⟨List.subset_append_left _ _, fun _ => ⟨count, List.mem_concat_self, by omega⟩⟩

theorem follows_reserve_recording (self : QuotaReserver) (apiKeyId : String) (estimatedTokens : Int)
    (log : List RedisEvent) :
    (self.reserve apiKeyId estimatedTokens).Follows recording
      (StepDone (TokensCounted self apiKeyId estimatedTokens) log) log := by
  unfold QuotaReserver.reserve
  split
  · rename_i hnoop
    refine ⟨List.Subset.refl log, fun _ hredis htokens => ?_⟩
    rcases hnoop with hnone | hzero
    · rw [hredis] at hnone
      cases hnone
    · omega
  · apply follows_redisCall (List.Subset.refl log)
    intro count
    have hend : ∀ calls,
        log ++ [(⟨.incrby (tpmKey apiKeyId) estimatedTokens, .ok count⟩ : RedisEvent)] ⊆ calls →
        (count = estimatedTokens → Expiring (tpmKey apiKeyId) tpmWindowSeconds calls) →
        (if self.tpmLimit < count then do
            loggedCall (.decrby (tpmKey apiKeyId) estimatedTokens)
            Program.raise (.app tokenRateLimitExceeded)
          else pure (.redis ⟨tpmKey apiKeyId, estimatedTokens, false⟩) :
          RedisProgram TokenReservationLike).Follows
          recording (StepDone (TokensCounted self apiKeyId estimatedTokens) log) calls := by
      intro calls hsub hexpire
      have hlog : log ⊆ calls := List.Subset.trans (List.subset_append_left _ _) hsub
      split
      · exact follows_loggedRefusal rfl hlog
      · exact ⟨hlog, fun _ _ _ => ⟨count, hsub List.mem_concat_self, by omega, hexpire⟩⟩
    dsimp only
    split
    · apply follows_redisCall (List.subset_append_left _ _)
      intro reply
      apply hend
      · exact List.subset_append_left _ _
      · intro _
        exact ⟨reply, List.mem_concat_self⟩
    · rename_i hcount
      exact hend _ (List.Subset.refl _) fun hfresh => absurd hfresh hcount

/-- A step, and then the rest. -/
theorem StepDone.bind {α β : Type} {seen all : List RedisEvent → Prop} {first log : List RedisEvent}
    {body : RedisProgram α} {rest : α → RedisProgram β} (h : body.Follows recording (StepDone seen log) log)
    (hsub : first ⊆ log)
    (hrest : ∀ value calls, log ⊆ calls → (RaisesExceptions calls → seen calls) →
      (rest value).Follows recording (StepDone all first) calls) :
    (body.bind rest).Follows recording (StepDone all first) log := by
  rw [Program.follows_bind]
  apply h.mono
  intro calls outcome hdone
  obtain ⟨hlog, hseen⟩ := hdone
  cases outcome with
  | ok value => exact hrest value calls hlog hseen
  | error exc => exact ⟨List.Subset.trans hsub hlog, hseen⟩

theorem follows_admitRequest (self : AdmissionService) (authContext : AuthContext) (estimatedTokens : Int) :
    (self.admitRequest authContext estimatedTokens).Follows recording
      (StepDone (Admitted self authContext.apiKeyId estimatedTokens) []) [] := by
  apply StepDone.bind (follows_checkOverload []) (List.Subset.refl [])
  intro _ first _ hoverload
  apply StepDone.bind (follows_checkRpm_recording authContext.apiKeyId self.rpmLimit first) (List.nil_subset _)
  intro _ second hsecond hrequest
  apply StepDone.bind (follows_acquire_recording authContext.apiKeyId self.concurrentRequestLimit second)
    (List.nil_subset _)
  intro concurrency third hthird hslot
  apply StepDone.bind (follows_reserve_recording self.quotaReserver authContext.apiKeyId estimatedTokens third)
    (List.nil_subset _)
  intro tokenReservation last hlast htokens
  refine ⟨List.nil_subset _, ?_⟩
  intro hraises
  have hsecond' : second ⊆ last := List.Subset.trans hthird hlast
  have hfirst' : first ⊆ last := List.Subset.trans hsecond hsecond'
  exact {
    overload := (hoverload (hraises.mono hfirst')).mono hfirst'
    request := (hrequest (hraises.mono hsecond')).mono hsecond'
    slot := (hslot (hraises.mono hlast)).mono hlast
    tokens := htokens hraises }

/-- **Admission fails closed**, whatever the commands answer. -/
theorem admission_fails_closed (self : AdmissionService) (authContext : AuthContext) (estimatedTokens : Int)
    {calls : List RedisEvent} {outcome : Except PyExc AdmissionLease.Object}
    (htraces : (self.admitRequest authContext estimatedTokens).Traces calls outcome)
    (hraises : RaisesExceptions calls) :
    (∀ lease, outcome = .ok lease → Admitted self authContext.apiKeyId estimatedTokens calls) ∧
      ∀ exc, outcome = .error exc → Refusal calls exc := by
  obtain ⟨-, hdone⟩ := (follows_admitRequest self authContext estimatedTokens).of_recording htraces
  refine ⟨?_, ?_⟩
  · intro lease houtcome
    rw [houtcome] at hdone
    exact hdone hraises
  · intro exc houtcome
    rw [houtcome] at hdone
    exact hdone hraises

def plainAdmission : AdmissionService where
  quotaReserver := ⟨true, 100⟩
  rpmLimit := 10
  concurrentRequestLimit := 2

/-- A request finds an empty keyspace and is admitted. -/
theorem admission_fails_closed_plain : ∃ calls lease,
    (plainAdmission.admitRequest ⟨"key", "user", "project", none⟩ 30).Traces calls (.ok lease) ∧
      Admitted plainAdmission "key" 30 calls := by
  let program := plainAdmission.admitRequest ⟨"key", "user", "project", none⟩ 30
  have htraces := program.traces_trace Redis.apply emptyRedis
  have hrun : (program.run Redis.apply emptyRedis).1 =
      .ok ⟨⟨concurrencyKey "key", false⟩, .redis ⟨tpmKey "key", 30, false⟩⟩ := rfl
  rw [hrun] at htraces
  exact ⟨_, _, htraces, (admission_fails_closed plainAdmission _ 30 htraces (raisesOnly_of_ok _ rfl)).1 _ rfl⟩

def badRequest : AppError where
  message := "bad request"
  code := "bad_request"
  statusCode := 400
  type := "invalid_request_error"
  param := none

/-- An `AppError` of a command is raised as it is, whatever its status. -/
theorem admission_passes_error_on :
    ¬ ∀ (self : AdmissionService) (authContext : AuthContext) (estimatedTokens : Int) (calls : List RedisEvent)
      (outcome : Except PyExc AdmissionLease.Object),
      (self.admitRequest authContext estimatedTokens).Traces calls outcome → RaisesExceptions calls →
        (∀ lease, outcome = .ok lease → Admitted self authContext.apiKeyId estimatedTokens calls) ∧
          ∀ exc, outcome = .error exc →
            ∃ error, exc = .app error ∧ (error.statusCode = 429 ∨ error.statusCode = 503) := by
  intro h
  let event : RedisEvent := ⟨.get overloadKey, .error (.app badRequest)⟩
  have htraces : (plainAdmission.admitRequest ⟨"key", "user", "project", none⟩ 30).Traces [event]
      (.error (.app badRequest)) := ⟨_, [], rfl, rfl, rfl⟩
  have hraises : RaisesExceptions [event] := by
    intro other hother exc hanswer
    rw [List.mem_singleton.mp hother] at hanswer
    cases hanswer
    rfl
  obtain ⟨-, hrefusal⟩ := h _ _ _ _ _ htraces hraises
  obtain ⟨error, herror, hstatus⟩ := hrefusal _ rfl
  cases herror
  revert hstatus
  decide

end GpuInference
