import GpuInference.AdmissionRollback
import GpuInference.ChatHandler

/-!
The life of a lease on a healthy keyspace. Admission raises the concurrency counter by one and the TPM counter by the
estimate; the first finalization gives back what was not used, the first release gives the slot back, and repeated calls
give nothing more. So the counters show how far the lease has come, whatever other requests do to other keys.
-/

open Effect

namespace GpuInference

/-- What the commands of an admission have added to the concurrency counter and to the TPM counter. -/
def netProtocol (apiKeyId : String) : Protocol RedisOp RedisOp.Res PyExc (Int × Int) where
  may _
    | .get _ => True
    | .incr name => name ≠ tpmKey apiKeyId
    | .incrby name _ => name = tpmKey apiKeyId
    | .decr name => name = concurrencyKey apiKeyId
    | .decrby name _ => name = tpmKey apiKeyId
    | .expire _ _ => True
    | .delete _ => False
  after φ
    | .incr name, .ok _ => if name = concurrencyKey apiKeyId then (φ.1 + 1, φ.2) else φ
    | .incrby _ amount, .ok _ => (φ.1, φ.2 + amount)
    | .decr _, .ok _ => (φ.1 - 1, φ.2)
    | .decrby _ amount, .ok _ => (φ.1, φ.2 - amount)
    | _, _ => φ

/-- What is known of the additions when a program returns. -/
def NetDone {α : Type} (known : α → Int × Int → Prop) (φ : Int × Int) (outcome : Except PyExc α) : Prop :=
  ∀ value, outcome = .ok value → known value φ

section Net

variable {apiKeyId : String}

theorem netDone_error {α : Type} {known : α → Int × Int → Prop} (φ : Int × Int) (exc : PyExc) :
    NetDone known φ (.error exc) := by
  intro value h
  cases h

theorem follows_redisCall_net {α : Type} {known : α → Int × Int → Prop} {op : RedisOp}
    {rest : op.Res → RedisProgram α} {φ : Int × Int} (hmay : (netProtocol apiKeyId).may φ op)
    (hok : ∀ value, (rest value).Follows (netProtocol apiKeyId) (NetDone known)
      ((netProtocol apiKeyId).after φ op (.ok value))) :
    ((redisCall op).bind rest).Follows (netProtocol apiKeyId) (NetDone known) φ := by
  rw [redisCall_eq, Program.call_bind]
  refine ⟨hmay, ?_⟩
  intro answer
  cases answer with
  | ok value => exact hok value
  | error exc => exact netDone_error _ _

theorem follows_loggedRaise_net {α : Type} {known : α → Int × Int → Prop} {op : RedisOp} {exc : PyExc} {φ : Int × Int}
    (hmay : (netProtocol apiKeyId).may φ op) :
    ((loggedCall op).bind fun _ => .raise exc : RedisProgram α).Follows (netProtocol apiKeyId) (NetDone known) φ := by
  rw [loggedCall_eq, Program.call_bind]
  refine ⟨hmay, ?_⟩
  intro answer
  cases answer with
  | ok value => exact netDone_error _ _
  | error raised =>
      simp only
      split
      · exact netDone_error _ _
      · exact netDone_error _ _

/-- A step, and then the rest. -/
theorem follows_bind_net {α β : Type} {first : α → Int × Int → Prop} {known : β → Int × Int → Prop}
    {body : RedisProgram α} {rest : α → RedisProgram β} {φ : Int × Int}
    (h : body.Follows (netProtocol apiKeyId) (NetDone first) φ)
    (hrest : ∀ value ψ, first value ψ → (rest value).Follows (netProtocol apiKeyId) (NetDone known) ψ) :
    (body.bind rest).Follows (netProtocol apiKeyId) (NetDone known) φ := by
  rw [Program.follows_bind]
  apply h.mono
  intro ψ outcome hdone
  cases outcome with
  | ok value => exact hrest value ψ (hdone value rfl)
  | error exc => exact netDone_error _ _

theorem follows_checkOverload_net (φ : Int × Int) :
    RateLimiter.checkOverload.Follows (netProtocol apiKeyId) (NetDone fun _ ψ => ψ = φ) φ := by
  refine follows_redisCall_net (by exact trivial) fun value => ?_
  split
  · exact netDone_error _ _
  · exact fun _ _ => rfl

theorem follows_checkRpm_net (limit : Int) (φ : Int × Int) :
    (RateLimiter.checkRpm apiKeyId limit).Follows (netProtocol apiKeyId) (NetDone fun _ ψ => ψ = φ) φ := by
  refine follows_redisCall_net (by exact (tpmKey_ne_rpmKey apiKeyId).symm) fun count => ?_
  have hafter : (netProtocol apiKeyId).after φ (.incr (rpmKey apiKeyId)) (.ok count) = φ := by
    simp only [netProtocol, if_neg (concurrencyKey_ne_rpmKey apiKeyId).symm]
  rw [hafter]
  have hend : (if limit < count then Program.raise (.app rateLimitExceeded) else pure () : RedisProgram Unit).Follows
      (netProtocol apiKeyId) (NetDone fun _ ψ => ψ = φ) φ := by
    split
    · exact netDone_error _ _
    · exact fun _ _ => rfl
  dsimp only
  split
  · exact follows_redisCall_net (by exact trivial) fun _ => hend
  · exact hend

theorem follows_acquire_net (limit : Int) (φ : Int × Int) :
    (ConcurrencyLimiter.acquire apiKeyId limit).Follows (netProtocol apiKeyId)
      (NetDone fun lease ψ => lease = ⟨concurrencyKey apiKeyId, false⟩ ∧ ψ = (φ.1 + 1, φ.2)) φ := by
  refine follows_redisCall_net (by exact concurrencyKey_ne_tpmKey apiKeyId) fun count => ?_
  have hafter : (netProtocol apiKeyId).after φ (.incr (concurrencyKey apiKeyId)) (.ok count) = (φ.1 + 1, φ.2) := by
    simp only [netProtocol, if_true]
  rw [hafter]
  split
  · exact follows_loggedRaise_net (by exact rfl)
  · intro lease hlease
    cases hlease
    exact ⟨rfl, rfl⟩

/-- The reservation of `estimated` tokens by a reserver that has its Redis client. -/
def reservationOf (apiKeyId : String) (estimated : Int) (finalized : Bool) : TokenReservationLike :=
  if 0 < estimated then .redis ⟨tpmKey apiKeyId, estimated, finalized⟩ else .noop 0

theorem follows_reserve_net (tpmLimit estimated : Int) (φ : Int × Int) :
    (QuotaReserver.reserve ⟨true, tpmLimit⟩ apiKeyId estimated).Follows (netProtocol apiKeyId)
      (NetDone fun reservation ψ =>
        reservation = reservationOf apiKeyId estimated false ∧ ψ = (φ.1, φ.2 + max estimated 0)) φ := by
  unfold QuotaReserver.reserve
  by_cases hpositive : 0 < estimated
  · have hreservation : reservationOf apiKeyId estimated false = .redis ⟨tpmKey apiKeyId, estimated, false⟩ :=
      if_pos hpositive
    rw [if_neg (by simpa using hpositive), hreservation, max_eq_left (by omega)]
    refine follows_redisCall_net (by exact rfl) fun count => ?_
    have hend : (if tpmLimit < count then do
          loggedCall (.decrby (tpmKey apiKeyId) estimated)
          Program.raise (.app tokenRateLimitExceeded)
        else pure (.redis ⟨tpmKey apiKeyId, estimated, false⟩) : RedisProgram TokenReservationLike).Follows
        (netProtocol apiKeyId) (NetDone fun reservation ψ =>
          reservation = .redis ⟨tpmKey apiKeyId, estimated, false⟩ ∧ ψ = (φ.1, φ.2 + estimated))
        (φ.1, φ.2 + estimated) := by
      split
      · exact follows_loggedRaise_net (by exact rfl)
      · intro reservation hvalue
        cases hvalue
        exact ⟨rfl, rfl⟩
    dsimp only
    split
    · exact follows_redisCall_net (by exact trivial) fun _ => hend
    · exact hend
  · have hreservation : reservationOf apiKeyId estimated false = .noop 0 := if_neg hpositive
    have hzero : max estimated 0 = 0 := by omega
    rw [if_pos (.inr (by omega)), hreservation, hzero]
    intro reservation hvalue
    cases hvalue
    exact ⟨rfl, by simp⟩

theorem follows_admitRequest_net (self : AdmissionService) (hredis : self.quotaReserver.redis = true)
    (authContext : AuthContext) (estimated : Int) (φ : Int × Int) :
    (self.admitRequest authContext estimated).Follows (netProtocol authContext.apiKeyId)
      (NetDone fun lease ψ => lease = ⟨⟨concurrencyKey authContext.apiKeyId, false⟩,
        reservationOf authContext.apiKeyId estimated false⟩ ∧ ψ = (φ.1 + 1, φ.2 + max estimated 0)) φ := by
  obtain ⟨⟨redis, tpmLimit⟩, rpmLimit, slots⟩ := self
  obtain rfl : redis = true := hredis
  apply follows_bind_net (follows_checkOverload_net φ)
  rintro _ ψ rfl
  apply follows_bind_net (follows_checkRpm_net rpmLimit ψ)
  rintro _ ψ rfl
  apply follows_bind_net (follows_acquire_net slots ψ)
  rintro concurrency χ ⟨rfl, rfl⟩
  apply follows_bind_net (follows_reserve_net tpmLimit estimated _)
  rintro reservation ω ⟨rfl, rfl⟩
  intro lease hlease
  cases hlease
  exact ⟨rfl, rfl⟩

end Net

/-- The concurrency counter and the TPM counter of a key show these numbers. -/
structure Redis.ShowsCounters (redis : Redis) (apiKeyId : String) (slots tokens : Int) : Prop where
  slots : redis.shows (concurrencyKey apiKeyId) = .counter slots
  tokens : redis.shows (tpmKey apiKeyId) = .counter tokens

section Admit

variable {apiKeyId : String} {redis redis' : Redis} {slots tokens : Int}

/-- One command of an admission, on a healthy keyspace. -/
theorem showsCounters_apply {φ : Int × Int} {op : RedisOp} (h : redis.ShowsCounters apiKeyId (slots + φ.1) (tokens + φ.2))
    (hmay : (netProtocol apiKeyId).may φ op) :
    (Redis.apply op redis).2.ShowsCounters apiKeyId
      (slots + ((netProtocol apiKeyId).after φ op (Redis.apply op redis).1).1)
      (tokens + ((netProtocol apiKeyId).after φ op (Redis.apply op redis).1).2) := by
  obtain ⟨hslots, htokens⟩ := h
  cases op with
  | get name => exact ⟨hslots, htokens⟩
  | expire name time =>
      exact ⟨(redis.shows_expire name time _).trans hslots, (redis.shows_expire name time _).trans htokens⟩
  | delete name => exact hmay.elim
  | incr name =>
      have htokens' := Redis.shows_congr (redis.add_other name 1 (Ne.symm hmay))
      by_cases hname : name = concurrencyKey apiKeyId
      · subst hname
        obtain ⟨hreply, hstored⟩ := Redis.add_of_counter hslots 1
        simp only [Redis.apply, hreply, netProtocol, if_true]
        exact ⟨hstored.trans (by rw [Int.add_assoc]), htokens'.trans htokens⟩
      · have hslots' := Redis.shows_congr (redis.add_other name 1 (Ne.symm hname))
        have hafter : (netProtocol apiKeyId).after φ (.incr name) (Redis.apply (.incr name) redis).1 = φ := by
          cases (Redis.apply (.incr name) redis).1 with
          | ok count => simp only [netProtocol, if_neg hname]
          | error exc => rfl
        rw [hafter]
        exact ⟨hslots'.trans hslots, htokens'.trans htokens⟩
  | incrby name amount =>
      obtain rfl : name = tpmKey apiKeyId := hmay
      obtain ⟨hreply, hstored⟩ := Redis.add_of_counter htokens amount
      have hslots' := Redis.shows_congr (redis.add_other _ amount (concurrencyKey_ne_tpmKey apiKeyId))
      simp only [Redis.apply, hreply, netProtocol]
      exact ⟨hslots'.trans hslots, hstored.trans (by rw [Int.add_assoc])⟩
  | decr name =>
      obtain rfl : name = concurrencyKey apiKeyId := hmay
      obtain ⟨hreply, hstored⟩ := Redis.add_of_counter hslots (-1)
      have htokens' := Redis.shows_congr (redis.add_other _ (-1) (concurrencyKey_ne_tpmKey apiKeyId).symm)
      simp only [Redis.apply, hreply, netProtocol]
      exact ⟨hstored.trans (by congr 1; omega), htokens'.trans htokens⟩
  | decrby name amount =>
      obtain rfl : name = tpmKey apiKeyId := hmay
      obtain ⟨hreply, hstored⟩ := Redis.add_of_counter htokens (-amount)
      have hslots' := Redis.shows_congr (redis.add_other _ (-amount) (concurrencyKey_ne_tpmKey apiKeyId))
      simp only [Redis.apply, hreply, netProtocol]
      exact ⟨hslots'.trans hslots, hstored.trans (by congr 1; omega)⟩

/-- **An admission** takes a slot and the estimated tokens. -/
theorem run_admitRequest {self : AdmissionService} (hredis : self.quotaReserver.redis = true)
    {authContext : AuthContext} (hkey : authContext.apiKeyId = apiKeyId) {estimated : Int}
    {lease : AdmissionLease.Object} (h : redis.ShowsCounters apiKeyId slots tokens)
    (hrun : (self.admitRequest authContext estimated).run Redis.apply redis = (.ok lease, redis')) :
    lease = ⟨⟨concurrencyKey apiKeyId, false⟩, reservationOf apiKeyId estimated false⟩ ∧
      redis'.ShowsCounters apiKeyId (slots + 1) (tokens + max estimated 0) := by
  subst hkey
  let relates (φ : Int × Int) (s : Redis) : Prop :=
    s.ShowsCounters authContext.apiKeyId (slots + φ.1) (tokens + φ.2)
  have hstart : relates 0 redis := by simpa [relates] using h
  have hcall : ∀ φ op s, relates φ s → (netProtocol authContext.apiKeyId).may φ op →
      relates ((netProtocol authContext.apiKeyId).after φ op (Redis.apply op s).1) (Redis.apply op s).2 :=
    fun φ op s hs hmay => showsCounters_apply hs hmay
  obtain ⟨φ, hshows, hdone⟩ := (follows_admitRequest_net self hredis authContext estimated 0).run hstart hcall
  rw [hrun] at hshows hdone
  obtain ⟨hlease, rfl⟩ := hdone lease rfl
  refine ⟨hlease, ?_⟩
  simpa [relates] using hshows

end Admit

section GiveBack

variable {redis : Redis} {key : String} {n : Int}

/-- The key is deleted when nothing remains. -/
theorem run_countDown_ret (h : redis.shows key = .counter n) :
    ∃ redis', (countDown key (.ret n)).run Redis.apply redis = (.ok (), redis') ∧
      redis'.shows key = .counter (max 0 n) ∧ ∀ other, other ≠ key → redis' other = redis other := by
  rw [countDown_ret]
  split
  · refine ⟨redis.remove key, rfl, ?_, fun other hother => Function.update_of_ne hother _ _⟩
    have hnone : redis.remove key key = none := by simp [Redis.remove]
    rw [Redis.shows, hnone, max_eq_left (by assumption)]
  · exact ⟨redis, rfl, by rw [h, max_eq_right (by omega)], fun _ _ => rfl⟩

theorem run_giveSlotBack (h : redis.shows key = .counter n) :
    ∃ redis', (ConcurrencyLease.giveBack key).run Redis.apply redis = (.ok (), redis') ∧
      redis'.shows key = .counter (max 0 (n - 1)) ∧ ∀ other, other ≠ key → redis' other = redis other := by
  obtain ⟨hreply, hstored⟩ := Redis.add_of_counter h (-1)
  obtain ⟨redis', hrun, hshows, hframe⟩ := run_countDown_ret hstored
  refine ⟨redis', ?_, hshows, fun other hother => (hframe other hother).trans (redis.add_other key (-1) hother)⟩
  rw [giveBack_eq, Program.run_call]
  simp only [Redis.apply, hreply]
  exact hrun

theorem run_giveTokensBack (h : redis.shows key = .counter n) (tokens : Int) :
    ∃ redis', (TokenReservation.giveBack key tokens).run Redis.apply redis = (.ok (), redis') ∧
      redis'.shows key = .counter (max 0 (n - tokens)) ∧ ∀ other, other ≠ key → redis' other = redis other := by
  obtain ⟨hreply, hstored⟩ := Redis.add_of_counter h (-tokens)
  obtain ⟨redis', hrun, hshows, hframe⟩ := run_countDown_ret hstored
  refine ⟨redis', ?_, hshows, fun other hother => (hframe other hother).trans (redis.add_other key _ hother)⟩
  rw [giveTokensBack_eq, Program.run_call]
  simp only [Redis.apply, hreply]
  exact hrun

end GiveBack

/-- What the TPM counter shows of `tokens` and an estimate: all of it until the first finalization, and then what was
used, up to the estimate. -/
def heldTokens (tokens estimated : Int) (first : Option (Int × Bool)) : Int :=
  if estimated ≤ 0 then tokens
  else
    match first with
    | none => tokens + estimated
    | some (actualTokens, releaseAll) => max 0 (tokens + min estimated (if releaseAll then 0 else actualTokens))

theorem heldTokens_none (tokens estimated : Int) : heldTokens tokens estimated none = tokens + max estimated 0 := by
  unfold heldTokens
  split
  · omega
  · simp only
    omega

/-- Everything is given back. -/
theorem heldTokens_all {tokens : Int} (htokens : 0 ≤ tokens) (estimated actualTokens : Int) :
    heldTokens tokens estimated (some (actualTokens, true)) = tokens := by
  simp only [heldTokens, if_true]
  split
  · rfl
  · omega

/-- What has been used stays. -/
theorem heldTokens_used {tokens actualTokens : Int} (htokens : 0 ≤ tokens) (hactual : 0 ≤ actualTokens) (estimated : Int) :
    heldTokens tokens estimated (some (actualTokens, false)) = tokens + min (max estimated 0) actualTokens := by
  simp only [heldTokens, Bool.false_eq_true, if_false]
  split
  · omega
  · omega

section Lease

variable {apiKeyId : String} {redis : Redis} {slots tokens : Int}

/-- The first finalization. -/
theorem run_finalizeTokens (htokens : 0 ≤ tokens) {estimated : Int} {concurrency : ConcurrencyLease}
    (h : redis.ShowsCounters apiKeyId slots (heldTokens tokens estimated none)) (actualTokens : Int)
    (releaseAll : Bool) :
    let finalized := AdmissionLease.Object.finalizeTokens ⟨concurrency, reservationOf apiKeyId estimated false⟩
      actualTokens releaseAll
    finalized.1 = ⟨concurrency, reservationOf apiKeyId estimated true⟩ ∧
      ∃ redis', finalized.2.run Redis.apply redis = (.ok (), redis') ∧
        redis'.ShowsCounters apiKeyId slots (heldTokens tokens estimated (some (actualTokens, releaseAll))) := by
  by_cases hpositive : 0 < estimated
  · have hnone : ¬ estimated ≤ 0 := by omega
    obtain ⟨hslots, hshows⟩ := h
    rw [heldTokens, if_neg hnone] at hshows
    simp only [AdmissionLease.Object.finalizeTokens, reservationOf, if_pos hpositive, TokenReservationLike.finalize,
      finalize_of_live, TokenReservation.tokensToRelease]
    refine ⟨trivial, ?_⟩
    let used : Int := if releaseAll then 0 else actualTokens
    have hrelease : (if releaseAll = true then estimated else estimated - actualTokens) = estimated - used := by
      cases releaseAll with
      | true => exact (Int.sub_zero estimated).symm
      | false => rfl
    have hheld : heldTokens tokens estimated (some (actualTokens, releaseAll)) = max 0 (tokens + min estimated used) := by
      rw [heldTokens, if_neg hnone]
    rw [hrelease, hheld]
    split
    · refine ⟨redis, rfl, hslots, ?_⟩
      rw [hshows]
      congr 1
      omega
    · obtain ⟨redis', hrun, hback, hframe⟩ := run_giveTokensBack hshows (estimated - used)
      refine ⟨redis', hrun, (Redis.shows_congr (hframe _ (concurrencyKey_ne_tpmKey apiKeyId))).trans hslots, ?_⟩
      rw [hback]
      congr 1
      omega
  · have hnone : estimated ≤ 0 := by omega
    simp only [AdmissionLease.Object.finalizeTokens, reservationOf, if_neg hpositive, TokenReservationLike.finalize]
    refine ⟨trivial, redis, rfl, ?_⟩
    have hheld : ∀ first, heldTokens tokens estimated first = tokens := fun first => if_pos hnone
    rw [hheld] at h ⊢
    exact h

/-- Every later finalization does nothing. -/
theorem run_finalizeTokens_again (estimated : Int) (concurrency : ConcurrencyLease) (actualTokens : Int)
    (releaseAll : Bool) :
    AdmissionLease.Object.finalizeTokens ⟨concurrency, reservationOf apiKeyId estimated true⟩ actualTokens releaseAll =
      (⟨concurrency, reservationOf apiKeyId estimated true⟩, .ret ()) := by
  unfold AdmissionLease.Object.finalizeTokens reservationOf
  split
  · rfl
  · rfl

/-- The first release. -/
theorem run_release (hslots : 0 ≤ slots) (reservation : TokenReservationLike)
    (h : redis.ShowsCounters apiKeyId (slots + 1) tokens) :
    let released := AdmissionLease.Object.release ⟨⟨concurrencyKey apiKeyId, false⟩, reservation⟩
    released.1 = ⟨⟨concurrencyKey apiKeyId, true⟩, reservation⟩ ∧
      ∃ redis', released.2.run Redis.apply redis = (.ok (), redis') ∧ redis'.ShowsCounters apiKeyId slots tokens := by
  obtain ⟨redis', hrun, hback, hframe⟩ := run_giveSlotBack h.slots
  simp only [AdmissionLease.Object.release, release_of_live]
  refine ⟨trivial, redis', hrun, ?_, ?_⟩
  · rw [hback]
    congr 1
    omega
  · exact (Redis.shows_congr (hframe _ (concurrencyKey_ne_tpmKey apiKeyId).symm)).trans h.tokens

end Lease

/-- What a call does with a lease. -/
inductive LeaseUse where
  | admits (authContext : AuthContext) (estimatedTokens : Int)
  | finalizes (lease : AdmissionLease) (actualTokens : Int) (releaseAll : Bool)
  | releases (lease : AdmissionLease)
  | elsewhere
  deriving DecidableEq

/-- The arguments of a finalization of this lease. -/
def LeaseUse.finalization (lease : AdmissionLease) : LeaseUse → Option (Int × Bool)
  | finalizes named actualTokens releaseAll => if named = lease then some (actualTokens, releaseAll) else none
  | _ => none

def ChatOp.leaseUse : ChatOp → LeaseUse
  | .admitRequest authContext estimatedTokens => .admits authContext estimatedTokens
  | .finalizeTokens lease actualTokens releaseAll => .finalizes lease actualTokens releaseAll
  | .releaseLease lease => .releases lease
  | _ => .elsewhere

def BatchOp.leaseUse : BatchOp → LeaseUse
  | .admitRequest authContext estimatedTokens => .admits authContext estimatedTokens
  | .finalizeTokens lease actualTokens releaseAll => .finalizes lease actualTokens releaseAll
  | .releaseLease lease => .releases lease
  | _ => .elsewhere

/-- The lease that an admission has answered. -/
def ChatOp.granted : (op : ChatOp) → Except PyExc op.Res → Option AdmissionLease
  | .admitRequest _ _, .ok lease => some lease
  | _, _ => none

def BatchOp.granted : (op : BatchOp) → Except PyExc op.Res → Option AdmissionLease
  | .admitRequest _ _, .ok lease => some lease
  | _, _ => none

/-- The keyspace, and the leases that have been admitted. -/
structure LeaseWorld where
  redis : Redis
  leases : AdmissionLease → Option AdmissionLease.Object

/-- The use of a lease on a healthy keyspace; a name that stands for no lease raises `AttributeError`. The lease of an
admission gets the name that has been granted. -/
def LeaseWorld.act (service : AdmissionService) (w : LeaseWorld) (granted : Option AdmissionLease) :
    LeaseUse → Except PyExc Unit × LeaseWorld
  | .admits authContext estimatedTokens =>
      match (service.admitRequest authContext estimatedTokens).run Redis.apply w.redis with
      | (.ok object, redis) =>
          (.ok (), ⟨redis, fun lease => if granted = some lease then some object else w.leases lease⟩)
      | (.error exc, redis) => (.error exc, ⟨redis, w.leases⟩)
  | .finalizes lease actualTokens releaseAll =>
      match w.leases lease with
      | none => (.error attributeError, w)
      | some object =>
          let finalized := object.finalizeTokens actualTokens releaseAll
          match finalized.2.run Redis.apply w.redis with
          | (outcome, redis) => (outcome, ⟨redis, Function.update w.leases lease (some finalized.1)⟩)
  | .releases lease =>
      match w.leases lease with
      | none => (.error attributeError, w)
      | some object =>
          let released := object.release
          match released.2.run Redis.apply w.redis with
          | (outcome, redis) => (outcome, ⟨redis, Function.update w.leases lease (some released.1)⟩)
  | .elsewhere => (.ok (), w)

/-- Others have been at work, but not on the counters of this key. -/
def Redis.Elsewhere (apiKeyId : String) (redis redis' : Redis) : Prop :=
  redis' (concurrencyKey apiKeyId) = redis (concurrencyKey apiKeyId) ∧
    redis' (tpmKey apiKeyId) = redis (tpmKey apiKeyId)

/-- A call of a request, with what others have done before it. Calls that are no use of a lease answer anything. -/
def leaseExec {Op : Type} {Res : Op → Type} (service : AdmissionService) (apiKeyId : String) (use : Op → LeaseUse)
    (granted : (op : Op) → Except PyExc (Res op) → Option AdmissionLease) : Exec Op Res PyExc LeaseWorld :=
  fun op w answer w' =>
    ∃ redis, w.redis.Elsewhere apiKeyId redis ∧
      w' = (LeaseWorld.act service ⟨redis, w.leases⟩ (granted op answer) (use op)).2 ∧
      (use op ≠ .elsewhere →
        answer.map (fun _ => ()) = (LeaseWorld.act service ⟨redis, w.leases⟩ (granted op answer) (use op)).1)

/-- How far a request has come with its lease: the estimate it was admitted with, the first finalization, and whether it is
released. -/
inductive LeasePhase where
  | idle
  | refused
  | leased (lease : AdmissionLease) (estimatedTokens : Int) (first : Option (Int × Bool)) (released : Bool)
  deriving DecidableEq

namespace LeasePhase

def after : LeasePhase → LeaseUse → Option AdmissionLease → LeasePhase
  | idle, .admits _ estimatedTokens, some lease => leased lease estimatedTokens none false
  | idle, .admits _ _, none => refused
  | leased lease estimatedTokens none released, .finalizes _ actualTokens releaseAll, _ =>
      leased lease estimatedTokens (some (actualTokens, releaseAll)) released
  | leased lease estimatedTokens first _, .releases _, _ => leased lease estimatedTokens first true
  | φ, _, _ => φ

@[simp] theorem after_elsewhere (φ : LeasePhase) (granted : Option AdmissionLease) : φ.after .elsewhere granted = φ := by
  cases φ with
  | leased lease estimatedTokens first released => cases first <;> rfl
  | _ => rfl

@[simp] theorem after_releases (lease named : AdmissionLease) (estimatedTokens : Int) (first : Option (Int × Bool))
    (released : Bool) (granted : Option AdmissionLease) :
    (leased lease estimatedTokens first released).after (.releases named) granted =
      leased lease estimatedTokens first true := by
  cases first <;> rfl

/-- A request uses the lease that it has been granted, and no other. -/
def may (φ : LeasePhase) : LeaseUse → Prop
  | .admits _ _ => φ = idle
  | .finalizes lease _ releaseAll => ∃ estimatedTokens first released,
      φ = leased lease estimatedTokens first released ∧ (releaseAll = true ∨ first = none)
  | .releases lease => ∃ estimatedTokens first released, φ = leased lease estimatedTokens first released
  | .elsewhere => True

/-- What the counters of the key and the lease show in a phase, when the counters were `slots` and `tokens` before. -/
def Books (apiKeyId : String) (slots tokens : Int) : LeasePhase → LeaseWorld → Prop
  | idle, w => w.redis.ShowsCounters apiKeyId slots tokens
  | refused, _ => True
  | leased lease estimatedTokens first released, w =>
      w.leases lease = some ⟨⟨concurrencyKey apiKeyId, released⟩, reservationOf apiKeyId estimatedTokens first.isSome⟩ ∧
        w.redis.ShowsCounters apiKeyId (if released then slots else slots + 1)
          (heldTokens tokens estimatedTokens first)

end LeasePhase

/-- A request is admitted once and uses its lease only when it has one; only its first finalization charges tokens. -/
def leaseProtocol {Op : Type} {Res : Op → Type} (use : Op → LeaseUse)
    (granted : (op : Op) → Except PyExc (Res op) → Option AdmissionLease) : Protocol Op Res PyExc LeasePhase where
  may φ op := φ.may (use op)
  after φ op answer := φ.after (use op) (granted op answer)

section Books

variable {apiKeyId : String} {slots tokens : Int} {service : AdmissionService}

theorem showsCounters_elsewhere {redis redis' : Redis} (h : redis.ShowsCounters apiKeyId slots tokens)
    (helsewhere : redis.Elsewhere apiKeyId redis') : redis'.ShowsCounters apiKeyId slots tokens :=
  ⟨(Redis.shows_congr helsewhere.1).trans h.slots, (Redis.shows_congr helsewhere.2).trans h.tokens⟩

theorem books_elsewhere {φ : LeasePhase} {w : LeaseWorld} (h : φ.Books apiKeyId slots tokens w) {redis : Redis}
    (helsewhere : w.redis.Elsewhere apiKeyId redis) : φ.Books apiKeyId slots tokens ⟨redis, w.leases⟩ := by
  cases φ with
  | idle => exact showsCounters_elsewhere h helsewhere
  | refused => trivial
  | leased lease estimatedTokens first released => exact ⟨h.1, showsCounters_elsewhere h.2 helsewhere⟩

/-- One use of the lease keeps its books. -/
theorem books_act (hredis : service.quotaReserver.redis = true) (hslots : 0 ≤ slots) (htokens : 0 ≤ tokens)
    {φ : LeasePhase} {w : LeaseWorld} (h : φ.Books apiKeyId slots tokens w) {use : LeaseUse}
    {granted : Option AdmissionLease} (hmay : φ.may use)
    (hkey : ∀ authContext estimatedTokens, use = .admits authContext estimatedTokens → authContext.apiKeyId = apiKeyId)
    (hgranted : ∀ lease, granted = some lease → (w.act service granted use).1 = .ok ()) :
    (φ.after use granted).Books apiKeyId slots tokens (w.act service granted use).2 := by
  cases use with
  | elsewhere =>
      rw [LeasePhase.after_elsewhere]
      exact h
  | admits authContext estimatedTokens =>
      obtain rfl : φ = .idle := hmay
      cases granted with
      | none => trivial
      | some lease =>
          have hok := hgranted lease rfl
          simp only [LeaseWorld.act] at hok ⊢
          rcases hrun : (service.admitRequest authContext estimatedTokens).run Redis.apply w.redis with
            ⟨exc | object, redis⟩
          · rw [hrun] at hok
            cases hok
          · obtain ⟨rfl, hshows⟩ := run_admitRequest hredis (hkey _ _ rfl) h hrun
            refine ⟨if_pos rfl, ?_⟩
            rw [heldTokens_none]
            exact hshows
  | finalizes lease actualTokens releaseAll =>
      obtain ⟨estimatedTokens, first, released, rfl, -⟩ := hmay
      obtain ⟨hlease, hshows⟩ := h
      simp only [LeaseWorld.act, hlease]
      cases first with
      | none =>
          obtain ⟨hobject, redis', hrun, hshows'⟩ := run_finalizeTokens htokens hshows actualTokens releaseAll
          simp only [Option.isSome_none]
          rw [hrun, hobject]
          exact ⟨Function.update_self _ _ _, hshows'⟩
      | some first =>
          simp only [Option.isSome_some, run_finalizeTokens_again]
          exact ⟨Function.update_self _ _ _, hshows⟩
  | releases lease =>
      obtain ⟨estimatedTokens, first, released, rfl⟩ := hmay
      obtain ⟨hlease, hshows⟩ := h
      simp only [LeaseWorld.act, hlease]
      cases released with
      | false =>
          obtain ⟨hobject, redis', hrun, hshows'⟩ := run_release hslots
            (reservationOf apiKeyId estimatedTokens first.isSome) hshows
          rw [hrun, hobject, LeasePhase.after_releases]
          exact ⟨Function.update_self _ _ _, hshows'⟩
      | true =>
          simp only [AdmissionLease.Object.release, release_of_released, LeasePhase.after_releases]
          exact ⟨Function.update_self _ _ _, hshows⟩

/-- Only an admission that has returned grants a lease. -/
def GrantsWhenReturned {Op : Type} {Res : Op → Type} (use : Op → LeaseUse)
    (granted : (op : Op) → Except PyExc (Res op) → Option AdmissionLease) : Prop :=
  ∀ op answer lease, granted op answer = some lease → use op ≠ .elsewhere ∧ answer.isOk = true

theorem chat_grantsWhenReturned : GrantsWhenReturned ChatOp.leaseUse ChatOp.granted := by
  intro op answer lease h
  cases op
  case admitRequest authContext estimatedTokens =>
    cases answer with
    | ok granted => exact ⟨by simp [ChatOp.leaseUse], rfl⟩
    | error exc => cases h
  all_goals cases h

theorem batch_grantsWhenReturned : GrantsWhenReturned BatchOp.leaseUse BatchOp.granted := by
  intro op answer lease h
  cases op
  case admitRequest authContext estimatedTokens =>
    cases answer with
    | ok granted => exact ⟨by simp [BatchOp.leaseUse], rfl⟩
    | error exc => cases h
  all_goals cases h

/-- **The books of a lease** are kept along every run of a request that uses its lease in order. -/
theorem books_runs {Op : Type} {Res : Op → Type} {use : Op → LeaseUse}
    {granted : (op : Op) → Except PyExc (Res op) → Option AdmissionLease} (hgrants : GrantsWhenReturned use granted)
    (hredis : service.quotaReserver.redis = true) (hslots : 0 ≤ slots) (htokens : 0 ≤ tokens)
    {calls : List (Event Op Res PyExc)} {w w' : LeaseWorld}
    (hruns : (leaseExec service apiKeyId use granted).Runs w calls w')
    (hkeeps : (leaseProtocol use granted).Keeps .idle calls)
    (hkey : ∀ event ∈ calls, ∀ authContext estimatedTokens, use event.op = .admits authContext estimatedTokens →
      authContext.apiKeyId = apiKeyId) (hstart : w.redis.ShowsCounters apiKeyId slots tokens) :
    ((leaseProtocol use granted).phase .idle calls).Books apiKeyId slots tokens w' := by
  apply hruns.relates hkeeps hstart
  intro φ op answer w w' hmem hbooks hmay hexec
  obtain ⟨redis, helsewhere, rfl, hanswer⟩ := hexec
  refine books_act hredis hslots htokens (books_elsewhere hbooks helsewhere) hmay (hkey _ hmem) ?_
  intro lease hgranted
  obtain ⟨huse, hok⟩ := hgrants op answer lease hgranted
  rw [← hanswer huse]
  cases answer with
  | ok value => rfl
  | error exc => cases hok

end Books

/-! ### The phase and the calls behind it -/

section Calls

variable {Op : Type} {Res : Op → Type} {use : Op → LeaseUse}
  {granted : (op : Op) → Except PyExc (Res op) → Option AdmissionLease}

/-- What a phase remembers of its uses: the first finalization stays, and so does the release. -/
theorem after_leased (lease : AdmissionLease) (estimatedTokens : Int) (first : Option (Int × Bool)) (released : Bool)
    (granted : Option AdmissionLease) {use : LeaseUse}
    (hmay : (LeasePhase.leased lease estimatedTokens first released).may use) :
    (LeasePhase.leased lease estimatedTokens first released).after use granted =
      .leased lease estimatedTokens (first.or (use.finalization lease)) (released || use = .releases lease) := by
  cases use with
  | admits authContext tokens => cases hmay
  | elsewhere => cases first <;> simp [LeasePhase.after, LeaseUse.finalization]
  | releases named =>
      obtain ⟨_, _, _, hleased⟩ := hmay
      cases hleased
      cases first <;> simp [LeasePhase.after, LeaseUse.finalization]
  | finalizes named actualTokens releaseAll =>
      obtain ⟨_, _, _, hleased, -⟩ := hmay
      cases hleased
      cases first <;> simp [LeasePhase.after, LeaseUse.finalization]

theorem use_of_finalization {lease : AdmissionLease} {use : LeaseUse} {actualTokens : Int} {releaseAll : Bool}
    (h : use.finalization lease = some (actualTokens, releaseAll)) : use = .finalizes lease actualTokens releaseAll := by
  cases use with
  | finalizes named tokens all =>
      simp only [LeaseUse.finalization] at h
      split at h
      · rename_i hnamed
        cases h
        rw [hnamed]
      · cases h
  | admits authContext tokens => cases h
  | releases named => cases h
  | elsewhere => cases h

/-- The lease of a phase, with what has become of it. -/
structure LeasePhase.Continues (calls : List (Event Op Res PyExc)) (use : Op → LeaseUse) (lease : AdmissionLease)
    (first last : Option (Int × Bool)) : Prop where
  kept : first ≠ none → last = first
  charged : ∀ actualTokens, (∃ event ∈ calls, use event.op = .finalizes lease actualTokens false) →
    last = some (actualTokens, false)
  charges : ∀ actualTokens, last = some (actualTokens, false) →
    first = some (actualTokens, false) ∨ ∃ event ∈ calls, use event.op = .finalizes lease actualTokens false

/-- A lease keeps the estimate it was admitted with and its first finalization, and a charge is the first one. -/
theorem phase_leased {calls : List (Event Op Res PyExc)} {lease : AdmissionLease} {estimatedTokens : Int}
    {first : Option (Int × Bool)} {released : Bool}
    (hkeeps : (leaseProtocol use granted).Keeps (.leased lease estimatedTokens first released) calls) :
    ∃ last released', (leaseProtocol use granted).phase (.leased lease estimatedTokens first released) calls =
        .leased lease estimatedTokens last released' ∧ LeasePhase.Continues calls use lease first last := by
  induction calls generalizing first released with
  | nil => exact ⟨first, released, rfl, fun _ => rfl, by simp, fun _ h => .inl h⟩
  | cons event calls ih =>
      have hmay : (LeasePhase.leased lease estimatedTokens first released).may (use event.op) := hkeeps.head
      obtain ⟨first', hfirst'⟩ : ∃ first', first' = first.or ((use event.op).finalization lease) := ⟨_, rfl⟩
      have hnext : (leaseProtocol use granted).after (.leased lease estimatedTokens first released) event.op
          event.answer = .leased lease estimatedTokens first' (released || use event.op = .releases lease) :=
        hfirst' ▸ after_leased lease estimatedTokens first released (granted event.op event.answer) hmay
      have htail := hkeeps.tail
      rw [hnext] at htail
      obtain ⟨last, released'', hphase, hcontinues⟩ := ih htail
      rw [Protocol.phase_cons, hnext]
      refine ⟨last, released'', hphase, ?_, ?_, ?_⟩
      · intro hfirst
        have hsame : first' = first := by
          rw [hfirst']
          cases first with
          | none => exact absurd rfl hfirst
          | some first => rfl
        rw [← hsame] at hfirst ⊢
        exact hcontinues.kept hfirst
      · rintro actualTokens ⟨other, hother, huse⟩
        rcases List.mem_cons.mp hother with rfl | hother
        · rw [huse] at hmay hfirst'
          obtain ⟨_, _, _, hleased, hcharge⟩ := hmay
          cases hleased
          rcases hcharge with hfalse | rfl
          · cases hfalse
          · have hcharged : first' = some (actualTokens, false) := hfirst'.trans (if_pos rfl)
            have hlast := hcontinues.kept (by rw [hcharged]; exact Option.some_ne_none _)
            exact hlast.trans hcharged
        · exact hcontinues.charged actualTokens ⟨other, hother, huse⟩
      · intro actualTokens hlast
        rcases hcontinues.charges actualTokens hlast with hcharged | ⟨other, hother, huse⟩
        · cases first with
          | some first =>
              rw [hfirst'] at hcharged
              exact .inl hcharged
          | none =>
              rw [hfirst'] at hcharged
              refine .inr ⟨event, List.mem_cons_self, ?_⟩
              exact use_of_finalization hcharged
        · exact .inr ⟨other, List.mem_cons_of_mem _ hother, huse⟩

/-- A refused request has no lease. -/
theorem phase_refused {calls : List (Event Op Res PyExc)} :
    (leaseProtocol use granted).phase .refused calls = .refused := by
  induction calls with
  | nil => rfl
  | cons event calls ih =>
      have hafter : (leaseProtocol use granted).after .refused event.op event.answer = .refused := by
        simp only [leaseProtocol]
        cases use event.op <;> rfl
      rw [Protocol.phase_cons, hafter, ih]

/-- Before its admission a request makes no use of a lease. -/
theorem use_of_idle {calls : List (Event Op Res PyExc)} (hkeeps : (leaseProtocol use granted).Keeps .idle calls)
    (hidle : (leaseProtocol use granted).phase .idle calls = .idle) {event : Event Op Res PyExc}
    (hevent : event ∈ calls) : use event.op = .elsewhere := by
  obtain ⟨left, right, rfl⟩ := List.append_of_mem hevent
  have hmay : ((leaseProtocol use granted).phase .idle left).may (use event.op) := hkeeps left event right rfl
  have hleased : ∀ lease estimatedTokens first released,
      (leaseProtocol use granted).phase .idle left ≠ .leased lease estimatedTokens first released := by
    intro lease estimatedTokens first released hleft
    have hright := hkeeps.drop
    rw [hleft] at hright
    obtain ⟨last, released', hphase, -⟩ := phase_leased hright
    rw [Protocol.phase_append_calls, hleft, hphase] at hidle
    cases hidle
  cases huse : use event.op with
  | elsewhere => rfl
  | finalizes lease actualTokens releaseAll =>
      rw [huse] at hmay
      obtain ⟨estimatedTokens, first, released, hleft, -⟩ := hmay
      exact absurd hleft (hleased _ _ _ _)
  | releases lease =>
      rw [huse] at hmay
      obtain ⟨estimatedTokens, first, released, hleft⟩ := hmay
      exact absurd hleft (hleased _ _ _ _)
  | admits authContext estimatedTokens =>
      rw [huse] at hmay
      have hleft : (leaseProtocol use granted).phase .idle left = .idle := hmay
      rw [Protocol.phase_append_calls, hleft, Protocol.phase_cons] at hidle
      have hright := hkeeps.drop
      rw [hleft] at hright
      have htail := hright.tail
      cases hgranted : granted event.op event.answer with
      | some lease =>
          have hafter : (leaseProtocol use granted).after .idle event.op event.answer =
              .leased lease estimatedTokens none false := by
            simp only [leaseProtocol, huse, hgranted, LeasePhase.after]
          rw [hafter] at hidle htail
          obtain ⟨last, released, hphase, -⟩ := phase_leased htail
          rw [hphase] at hidle
          cases hidle
      | none =>
          have hafter : (leaseProtocol use granted).after .idle event.op event.answer = .refused := by
            simp only [leaseProtocol, huse, hgranted, LeasePhase.after]
          rw [hafter, phase_refused] at hidle
          cases hidle

/-- A lease is not admitted again. -/
theorem not_admits_of_leased {calls : List (Event Op Res PyExc)} {lease : AdmissionLease} {estimatedTokens : Int}
    {first : Option (Int × Bool)} {released : Bool}
    (hkeeps : (leaseProtocol use granted).Keeps (.leased lease estimatedTokens first released) calls)
    {event : Event Op Res PyExc} (hevent : event ∈ calls) (authContext : AuthContext) (tokens : Int) :
    use event.op ≠ .admits authContext tokens := by
  intro huse
  obtain ⟨left, right, rfl⟩ := List.append_of_mem hevent
  have hmay : ((leaseProtocol use granted).phase (.leased lease estimatedTokens first released) left).may
      (use event.op) := hkeeps left event right rfl
  obtain ⟨last, released', hphase, -⟩ := phase_leased hkeeps.take
  rw [huse, hphase] at hmay
  cases hmay

/-- A lease is finalized, or released, when it was before or by a call. -/
theorem phase_leased_uses {calls : List (Event Op Res PyExc)} {lease : AdmissionLease} {estimatedTokens : Int}
    {first last : Option (Int × Bool)} {released ended : Bool}
    (hkeeps : (leaseProtocol use granted).Keeps (.leased lease estimatedTokens first released) calls)
    (hphase : (leaseProtocol use granted).phase (.leased lease estimatedTokens first released) calls =
      .leased lease estimatedTokens last ended) :
    (last ≠ none ↔ first ≠ none ∨ ∃ event ∈ calls, (use event.op).finalization lease ≠ none) ∧
      (ended = true ↔ released = true ∨ ∃ event ∈ calls, use event.op = .releases lease) := by
  induction calls generalizing first released with
  | nil =>
      cases hphase
      simp
  | cons event calls ih =>
      have hnext : (leaseProtocol use granted).after (.leased lease estimatedTokens first released) event.op
          event.answer = .leased lease estimatedTokens (first.or ((use event.op).finalization lease))
            (released || use event.op = .releases lease) :=
        after_leased lease estimatedTokens first released (granted event.op event.answer) hkeeps.head
      have htail := hkeeps.tail
      rw [hnext] at htail
      rw [Protocol.phase_cons, hnext] at hphase
      obtain ⟨hlast, hended⟩ := ih htail hphase
      rw [hlast, hended]
      constructor
      · cases first with
        | some first => simp
        | none => simp
      · simp only [Bool.or_eq_true, decide_eq_true_eq, List.exists_mem_cons_iff, or_assoc]

/-- The calls before an admission make no use of a lease, and those after it use this one. -/
theorem split_admitted {calls : List (Event Op Res PyExc)} (hkeeps : (leaseProtocol use granted).Keeps .idle calls)
    {event : Event Op Res PyExc} (hevent : event ∈ calls) {authContext : AuthContext} {estimatedTokens : Int}
    (huse : use event.op = .admits authContext estimatedTokens) {lease : AdmissionLease}
    (hgranted : granted event.op event.answer = some lease) :
    ∃ left right, calls = left ++ event :: right ∧ (∀ other ∈ left, use other.op = .elsewhere) ∧
      (leaseProtocol use granted).Keeps (.leased lease estimatedTokens none false) right ∧
      (leaseProtocol use granted).phase .idle calls =
        (leaseProtocol use granted).phase (.leased lease estimatedTokens none false) right := by
  obtain ⟨left, right, rfl⟩ := List.append_of_mem hevent
  have hmay : ((leaseProtocol use granted).phase .idle left).may (use event.op) := hkeeps left event right rfl
  rw [huse] at hmay
  have hidle : (leaseProtocol use granted).phase .idle left = .idle := hmay
  have hafter : (leaseProtocol use granted).after .idle event.op event.answer =
      .leased lease estimatedTokens none false := by
    simp only [leaseProtocol, huse, hgranted, LeasePhase.after]
  have hright := hkeeps.drop
  rw [hidle] at hright
  have htail := hright.tail
  rw [hafter] at htail
  refine ⟨left, right, rfl, fun other => use_of_idle hkeeps.take hidle, htail, ?_⟩
  rw [Protocol.phase_append_calls, hidle, Protocol.phase_cons, hafter]

/-- **An admitted request** has this admission only and ends with its lease, and a call that charges tokens is the first
finalization. -/
theorem phase_admitted {calls : List (Event Op Res PyExc)} (hkeeps : (leaseProtocol use granted).Keeps .idle calls)
    {event : Event Op Res PyExc} (hevent : event ∈ calls) {authContext : AuthContext} {estimatedTokens : Int}
    (huse : use event.op = .admits authContext estimatedTokens) {lease : AdmissionLease}
    (hgranted : granted event.op event.answer = some lease) :
    (∀ other ∈ calls, ∀ otherContext tokens, use other.op = .admits otherContext tokens →
      otherContext = authContext) ∧
    ∃ last released, (leaseProtocol use granted).phase .idle calls = .leased lease estimatedTokens last released ∧
      ∀ actualTokens, last = some (actualTokens, false) ↔
        ∃ event ∈ calls, use event.op = .finalizes lease actualTokens false := by
  obtain ⟨left, right, rfl, hbefore, htail, hphase⟩ := split_admitted hkeeps hevent huse hgranted
  obtain ⟨last, released, hlast, hcontinues⟩ := phase_leased htail
  refine ⟨?_, last, released, hphase.trans hlast, ?_⟩
  · intro other hother otherContext tokens hadmits
    rcases List.mem_append.mp hother with hother | hother
    · rw [hbefore other hother] at hadmits
      cases hadmits
    · rcases List.mem_cons.mp hother with rfl | hother
      · rw [huse] at hadmits
        cases hadmits
        rfl
      · exact absurd hadmits (not_admits_of_leased htail hother _ _)
  · intro actualTokens
    constructor
    · intro hcharged
      rcases hcontinues.charges actualTokens hcharged with hnone | ⟨other, hother, hcharge⟩
      · cases hnone
      · exact ⟨other, List.mem_append_right _ (List.mem_cons_of_mem _ hother), hcharge⟩
    · rintro ⟨other, hother, hcharge⟩
      rcases List.mem_append.mp hother with hother | hother
      · rw [hbefore other hother] at hcharge
        cases hcharge
      · rcases List.mem_cons.mp hother with rfl | hother
        · rw [huse] at hcharge
          cases hcharge
        · exact hcontinues.charged actualTokens ⟨other, hother, hcharge⟩

/-- The lease of an admitted request is finalized, or released, exactly when a call has done so. -/
theorem phase_admitted_uses {calls : List (Event Op Res PyExc)}
    (hkeeps : (leaseProtocol use granted).Keeps .idle calls) {event : Event Op Res PyExc} (hevent : event ∈ calls)
    {authContext : AuthContext} {estimatedTokens : Int} (huse : use event.op = .admits authContext estimatedTokens)
    {lease : AdmissionLease} (hgranted : granted event.op event.answer = some lease) :
    ∃ last released, (leaseProtocol use granted).phase .idle calls = .leased lease estimatedTokens last released ∧
      (last ≠ none ↔ ∃ event ∈ calls, (use event.op).finalization lease ≠ none) ∧
      (released = true ↔ ∃ event ∈ calls, use event.op = .releases lease) := by
  obtain ⟨left, right, rfl, hbefore, htail, hphase⟩ := split_admitted hkeeps hevent huse hgranted
  obtain ⟨last, released, hlast, -⟩ := phase_leased htail
  obtain ⟨hfinalized, hreleased⟩ := phase_leased_uses htail hlast
  have hleft : ∀ kind : LeaseUse → Prop, ¬ kind .elsewhere → ¬ kind (.admits authContext estimatedTokens) →
      ((∃ other ∈ left ++ event :: right, kind (use other.op)) ↔ ∃ other ∈ right, kind (use other.op)) := by
    intro kind helsewhere hadmits
    constructor
    · rintro ⟨other, hother, hkind⟩
      rcases List.mem_append.mp hother with hother | hother
      · rw [hbefore other hother] at hkind
        exact absurd hkind helsewhere
      · rcases List.mem_cons.mp hother with rfl | hother
        · rw [huse] at hkind
          exact absurd hkind hadmits
        · exact ⟨other, hother, hkind⟩
    · rintro ⟨other, hother, hkind⟩
      exact ⟨other, List.mem_append_right _ (List.mem_cons_of_mem _ hother), hkind⟩
  refine ⟨last, released, hphase.trans hlast, ?_, ?_⟩
  · rw [hleft (fun use => use.finalization lease ≠ none) (fun h => h rfl) (fun h => h rfl), hfinalized]
    simp
  · rw [hleft (fun use => use = .releases lease) (fun h => by cases h) (fun h => by cases h), hreleased]
    simp

end Calls

end GpuInference
