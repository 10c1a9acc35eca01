import GpuInference.AccountingProtocol

/-!
What a request is charged. Each path finalizes the tokens of the request and writes the usage they were
finalized with. As long as they are finalized once, the net amount on the TPM counter follows from the
written usage, and from the reservation that bounds it.
-/

open Effect

namespace GpuInference

namespace QuotaPhase

/-- What the phase says of the account, of the number of its finalizations and of the written usage. -/
def Describes (φ : QuotaPhase) (account : TokenAccount) (finalizations : Nat)
    (written : UsageStatus → Int → Prop) : Prop :=
  match φ with
  | idle => account = .start ∧ finalizations = 0 ∧ ∀ status total, ¬ written status total
  | admitted => account.Holds ∧ finalizations = 0 ∧ ∀ status total, ¬ written status total
  | finalized actualTokens releaseAll => account.Settled actualTokens releaseAll ∧ finalizations = 1 ∧
      ∀ status total, written status total → (finalized actualTokens releaseAll).Records status total
  | refinalized => 1 < finalizations

section Describes

variable {φ : QuotaPhase} {account : TokenAccount} {finalizations : Nat}
  {written : UsageStatus → Int → Prop} {admission : Admission}

theorem describes_admission (hhealthy : admission.Healthy)
    (h : QuotaPhase.idle.Describes account finalizations written) (n : Nat) (authContext : AuthContext)
    (estimatedTokens : Int) :
    match account.admitRequest admission n authContext estimatedTokens with
    | (.ok _, account') => QuotaPhase.admitted.Describes account' finalizations written
    | (.error _, account') => QuotaPhase.idle.Describes account' finalizations written := by
  obtain ⟨rfl, hfinalizations, hwritten⟩ := h
  have hadmission := TokenAccount.holds_admission hhealthy n authContext estimatedTokens
  rcases hadmitted : TokenAccount.start.admitRequest admission n authContext estimatedTokens with
    ⟨exc | lease, account'⟩ <;> rw [hadmitted] at hadmission
  · exact ⟨hadmission, hfinalizations, hwritten⟩
  · exact ⟨hadmission, hfinalizations, hwritten⟩

/-- One more finalization. -/
theorem describes_finalize (hhealthy : admission.Healthy) (h : φ.Describes account finalizations written)
    (hidle : φ ≠ .idle) (n : Nat) (actualTokens : Int) (releaseAll : Bool) :
    (φ.finalize actualTokens releaseAll).Describes
      (account.finalize admission n actualTokens releaseAll).2 (finalizations + 1) written := by
  cases φ with
  | idle => exact absurd rfl hidle
  | admitted =>
      obtain ⟨hholds, hfinalizations, hwritten⟩ := h
      refine ⟨TokenAccount.finalize_holds hhealthy hholds n actualTokens releaseAll, ?_, ?_⟩
      · rw [hfinalizations]
      · intro status total hmember
        exact absurd hmember (hwritten status total)
  | finalized actual release =>
      show 1 < finalizations + 1
      rw [h.2.1]
      decide
  | refinalized => exact Nat.lt_succ_of_lt h

/-- One more written usage. -/
theorem describes_write (h : φ.Describes account finalizations written) {written' : UsageStatus → Int → Prop}
    (hwrites : ∀ status total, written' status total → written status total ∨ φ.Records status total) :
    φ.Describes account finalizations written' := by
  have hfresh : (∀ status total, ¬ written status total) → (∀ status total, ¬ φ.Records status total) →
      ∀ status total, ¬ written' status total := by
    intro hwritten hrecords status total hmember
    rcases hwrites status total hmember with hold | hnew
    · exact hwritten status total hold
    · exact hrecords status total hnew
  cases φ with
  | idle => exact ⟨h.1, h.2.1, hfresh h.2.2 fun _ _ => id⟩
  | admitted => exact ⟨h.1, h.2.1, hfresh h.2.2 fun _ _ => id⟩
  | finalized actual release =>
      refine ⟨h.1, h.2.1, ?_⟩
      intro status total hmember
      rcases hwrites status total hmember with hold | hnew
      · exact h.2.2 status total hold
      · exact hnew
  | refinalized => exact h

/-- Whatever has been written after a single finalization is what the account has been settled with. -/
theorem Describes.settled (h : φ.Describes account finalizations written) (honce : finalizations ≤ 1)
    {status : UsageStatus} {total : Int} (hwritten : written status total) :
    account.Settled total (decide (status = .failed)) := by
  cases φ with
  | idle => exact absurd hwritten (h.2.2 status total)
  | admitted => exact absurd hwritten (h.2.2 status total)
  | finalized actual release =>
      obtain ⟨rfl, rfl⟩ := h.2.2 status total hwritten
      exact h.1
  | refinalized => exact absurd h (by show ¬ 1 < finalizations; omega)

theorem Describes.once (h : φ.Describes account finalizations written) (hφ : φ ≠ .refinalized) :
    finalizations ≤ 1 := by
  cases φ with
  | idle => exact h.2.1 ▸ Nat.zero_le 1
  | admitted => exact h.2.1 ▸ Nat.zero_le 1
  | finalized actual release => exact Nat.le_of_eq h.2.1
  | refinalized => exact absurd rfl hφ

end Describes

end QuotaPhase

/-- The usage that has been written for a request, in a usage record or in the final of its audit record. -/
def ChatBooks.Written (b : ChatBooks) (status : UsageStatus) (total : Int) : Prop :=
  (∃ usage ∈ b.usageRecords, usage.status = status ∧ usage.totalTokens = total) ∨
    ∃ final ∈ b.finals, final.status = status ∧ final.totalTokens = some total

/-- The phase describes the books. -/
def ChatBooks.InPhase (φ : QuotaPhase) (b : ChatBooks) : Prop :=
  φ.Describes b.account b.finalizations b.Written

section Chat

variable {env : ChatEnv}

theorem chat_call (hhealthy : env.admission.Healthy) (φ : QuotaPhase) (op : ChatOp) (b : ChatBooks)
    (h : b.InPhase φ) (hmay : (chatProtocol fun _ => True).may φ op) :
    (env.answer op b).2.InPhase ((chatProtocol fun _ => True).after φ op (env.answer op b).1) := by
  cases op with
  | admitRequest authContext estimatedTokens =>
      subst hmay
      have hadmission := QuotaPhase.describes_admission hhealthy h b.calls authContext estimatedTokens
      simp only [ChatEnv.answer]
      rcases hadmitted : b.account.admitRequest env.admission b.calls authContext estimatedTokens with
        ⟨exc | lease, account'⟩ <;> rw [hadmitted] at hadmission
      · exact hadmission
      · exact hadmission
  | finalizeTokens lease actualTokens releaseAll =>
      exact QuotaPhase.describes_finalize hhealthy h hmay b.calls actualTokens releaseAll
  | recordUsage usage =>
      refine QuotaPhase.describes_write h ?_
      rintro status total (⟨other, hother, hstatus, htotal⟩ | hfinal)
      · rcases List.mem_append.mp hother with hold | hnew
        · exact .inl (.inl ⟨other, hold, hstatus, htotal⟩)
        · obtain rfl := List.mem_singleton.mp hnew
          subst hstatus htotal
          exact .inr hmay
      · exact .inl (.inr hfinal)
  | finalizeAudit final =>
      simp only [ChatEnv.answer]
      cases env.auditFault b.audits with
      | some exc => exact h
      | none =>
          refine QuotaPhase.describes_write h ?_
          rintro status total (husage | ⟨other, hother, hstatus, htotal⟩)
          · exact .inl (.inl husage)
          · rcases List.mem_append.mp hother with hold | hnew
            · exact .inl (.inr ⟨other, hold, hstatus, htotal⟩)
            · obtain rfl := List.mem_singleton.mp hnew
              subst hstatus
              exact .inr (hmay total htotal)
  | startAudit audit =>
      simp only [ChatEnv.answer]
      cases env.auditId with
      | error exc => exact h
      | ok recordId => exact h
  | collect event =>
      simp only [ChatEnv.answer]
      cases env.collected b.calls with
      | error exc => exact h
      | ok accepted =>
          cases accepted with
          | false => exact h
          | true => exact h
  | releaseLease lease => exact h
  | createChatCompletion payload => exact h
  | streamChatCompletion payload => exact h
  | isDisconnected => exact h
  | yieldEvent event => exact h
  | closeStream => exact h
  | elapsedMs => exact h
  | recordStreamStarted => exact h
  | recordStreamTtft => exact h
  | recordStreamFinished => exact h

end Chat

/-- The usage that has been written for a job, in the final of its audit record. -/
def BatchBooks.Written (b : BatchBooks) (status : UsageStatus) (total : Int) : Prop :=
  ∃ final ∈ b.finals, final.status = status ∧ final.totalTokens = some total

def BatchBooks.InPhase (φ : QuotaPhase) (b : BatchBooks) : Prop :=
  φ.Describes b.account b.finalizations b.Written

theorem batch_call {env : BatchEnv} (hhealthy : env.admission.Healthy) (φ : QuotaPhase) (op : BatchOp)
    (b : BatchBooks) (h : b.InPhase φ) (hmay : (workerProtocol fun _ => True).may φ op) :
    (env.reply op b).2.InPhase ((workerProtocol fun _ => True).after φ op (env.reply op b).1) := by
  cases op with
  | admitRequest authContext estimatedTokens =>
      subst hmay
      have hadmission := QuotaPhase.describes_admission hhealthy h b.calls authContext estimatedTokens
      simp only [BatchEnv.reply]
      rcases hadmitted : b.account.admitRequest env.admission b.calls authContext estimatedTokens with
        ⟨exc | lease, account'⟩ <;> rw [hadmitted] at hadmission
      · exact hadmission
      · exact hadmission
  | finalizeTokens lease actualTokens releaseAll =>
      exact QuotaPhase.describes_finalize hhealthy h hmay b.calls actualTokens releaseAll
  | finalizeAudit final =>
      simp only [BatchEnv.reply]
      cases env.answer b.calls (.finalizeAudit final) with
      | error exc => exact h
      | ok done =>
          refine QuotaPhase.describes_write h ?_
          rintro status total ⟨other, hother, hstatus, htotal⟩
          rcases List.mem_append.mp hother with hold | hnew
          · exact .inl ⟨other, hold, hstatus, htotal⟩
          · obtain rfl := List.mem_singleton.mp hnew
            subst hstatus
            exact .inr (hmay total htotal)
  | enqueue jobId => exact h
  | dequeue => exact h
  | contains jobId => exact h
  | create authContext payload model => exact h
  | get jobId => exact h
  | transition jobId target => exact h
  | markSucceeded jobId result usage => exact h
  | markFailed jobId errorCode errorMessage => exact h
  | listRecoverable limit => exact h
  | shouldRunJob => exact h
  | uuid4 => exact h
  | elapsedMs => exact h
  | releaseLease lease => exact h
  | startAudit audit => exact h
  | createChatCompletion payload => exact h
  | collect event => exact h

/-- **What a request is charged.** A chat request that is streamed, or finalizes its tokens once, and a
batch job that finalizes its tokens once, have their account settled with every usage they have
written. -/
theorem charge_settled :
    (∀ (env : ChatEnv) (app : ChatApp) (request : ChatCompletionRequest) (state : Option AuthContext)
      (requestId : String) (b : ChatBooks), env.admission.Healthy →
        ((app.serve request state requestId).run env.answer .start).2 = b →
          request.stream = true ∨ b.finalizations ≤ 1 → ∀ status total, b.Written status total →
            b.account.Settled total (decide (status = .failed))) ∧
    ∀ (env : BatchEnv) (self : BatchWorker) (b : BatchBooks), env.admission.Healthy →
      (self.processOne.run env.reply .start).2 = b → b.finalizations ≤ 1 →
        ∀ status total, b.Written status total →
          b.account.Settled total (decide (status = .failed)) := by
  refine ⟨?_, ?_⟩
  · rintro env app request state requestId b hhealthy rfl honce status total hwritten
    have hstart : ChatBooks.start.InPhase .idle :=
      ⟨rfl, rfl, by rintro status total (⟨_, hnil, -⟩ | ⟨_, hnil, -⟩) <;> cases hnil⟩
    obtain ⟨φ, hphase, hdone⟩ :=
      (follows_serve app (fun _ => trivial) (fun _ => trivial) state requestId).run hstart
        (chat_call hhealthy)
    refine QuotaPhase.Describes.settled hphase ?_ hwritten
    rcases honce with hstream | honce
    · exact QuotaPhase.Describes.once hphase (hdone hstream)
    · exact honce
  · rintro env self b hhealthy rfl honce status total hwritten
    have hstart : BatchBooks.start.InPhase .idle := by
      refine ⟨rfl, rfl, ?_⟩
      rintro status total ⟨_, hnil, -⟩
      cases hnil
    obtain ⟨φ, hphase, -⟩ :=
      (follows_worker_of_job (follows_processOne_worker self fun _ _ _ => trivial)).run hstart
        (batch_call hhealthy)
    exact QuotaPhase.Describes.settled hphase honce hwritten

/-- An upstream that reports `total` tokens, or fails at once when it streams. -/
def reportingEnv (total : Int) : ChatEnv :=
  { faultyEnv fun _ => none with
    completion := fun _ => .ok [("usage", .obj [("total_tokens", .int total)])]
    upstream := fun _ => ⟨[], some (.exception none "upstream failed")⟩ }

def streamedRequest : ChatCompletionRequest := { plainRequest with stream := true }

/-- A queue with one job, for an upstream that reports `total` tokens. -/
def reportingBatchEnv (total : Int) : BatchEnv where
  admission := openAdmission
  answer _
    | .dequeue => .ok (some "job")
    | .get _ => .ok (some plainJob)
    | .transition _ _ => .ok (some plainJob)
    | .uuid4 => .ok "hex"
    | .startAudit _ => .ok "audit"
    | .createChatCompletion _ => .ok [("usage", .obj [("total_tokens", .int total)])]
    | .elapsedMs => .ok 0
    | .finalizeAudit _ => .ok ()
    | .releaseLease _ => .ok ()
    | .markSucceeded _ _ _ => .ok (some plainJob)
    | _ => .error valueError

/-- A chat request and a batch job that use twelve of the eighteen tokens they have reserved. -/
theorem charge_settled_reported :
    ((plainApp.serve plainRequest (some plainContext) "req").run
      (reportingEnv 12).answer .start).2.account.Settled 12 false ∧
    (plainWorker.processOne.run (reportingBatchEnv 12).reply .start).2.account.Settled 12 false := by
  refine ⟨?_, ?_⟩
  · refine charge_settled.1 (reportingEnv 12) plainApp plainRequest (some plainContext) "req" _
      openAdmission_healthy rfl (.inr (by decide)) .completed 12 (.inl ⟨⟨8, 0, 12, .completed⟩, ?_, rfl, rfl⟩)
    decide
  · refine charge_settled.2 (reportingBatchEnv 12) plainWorker _ openAdmission_healthy rfl
      (by decide) .completed 12 ⟨⟨"audit", .completed, some 8, some 0, some 12, some 0, none⟩, ?_, rfl, rfl⟩
    decide

/-- The net amount differs from the last usage when it is above the reservation, when the request has
failed, and when the usage is negative. -/
theorem charge_differs :
    ¬ (∀ (env : ChatEnv) (app : ChatApp) (request : ChatCompletionRequest) (state : Option AuthContext)
      (requestId : String) (b : ChatBooks) (usage : UsageRecord), env.admission.Healthy →
        ((app.serve request state requestId).run env.answer .start).2 = b →
          b.usageRecords.getLast? = some usage → usage.status = .completed → 0 ≤ usage.totalTokens →
            b.account.net = usage.totalTokens) ∧
    ¬ (∀ (env : ChatEnv) (app : ChatApp) (request : ChatCompletionRequest) (state : Option AuthContext)
      (requestId : String) (b : ChatBooks) (usage : UsageRecord), env.admission.Healthy →
        ((app.serve request state requestId).run env.answer .start).2 = b →
          b.usageRecords.getLast? = some usage → usage.status = .failed →
            b.account.net = usage.totalTokens) ∧
    ¬ ∀ (env : ChatEnv) (app : ChatApp) (request : ChatCompletionRequest) (state : Option AuthContext)
      (requestId : String) (b : ChatBooks) (usage : UsageRecord), env.admission.Healthy →
        ((app.serve request state requestId).run env.answer .start).2 = b →
          b.usageRecords.getLast? = some usage → usage.totalTokens < 0 →
            b.account.net = usage.totalTokens := by
  refine ⟨?_, ?_, ?_⟩
  · intro h
    exact absurd (h (reportingEnv 25) plainApp plainRequest (some plainContext) "req" _
      ⟨8, 0, 25, .completed⟩ openAdmission_healthy rfl (by decide) rfl (by decide)) (by decide)
  · intro h
    exact absurd (h (reportingEnv 0) plainApp streamedRequest (some plainContext) "req" _
      ⟨8, 1, 9, .failed⟩ openAdmission_healthy rfl (by decide) rfl) (by decide)
  · intro h
    exact absurd (h (reportingEnv (-5)) plainApp plainRequest (some plainContext) "req" _
      ⟨8, 0, -5, .completed⟩ openAdmission_healthy rfl (by decide) (by decide)) (by decide)

end GpuInference

