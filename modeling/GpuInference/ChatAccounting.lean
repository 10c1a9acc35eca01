import GpuInference.RequestBooks

/-!
The accounting of a chat request that is not streamed. The success path records the usage, finalizes
the audit record and collects the event inside one `try`, and the handler does all of it again, so a
fault after the first record leaves two of them.
-/

open Effect

namespace GpuInference

/-- Whatever raises around a request raises an `Exception`. -/
structure ChatEnv.RaisesExceptions (env : ChatEnv) (app : ChatApp) : Prop where
  completion : ∀ payload exc, env.completion payload = .error exc → exc.isException = true
  audit : ∀ n exc, env.auditFault n = some exc → exc.isException = true
  collected : ∀ n exc, env.collected n = .error exc → exc.isException = true
  estimator : ∀ text exc, app.tokenEstimator text = .error exc → exc.isException = true
  render : ∀ response exc, app.render response = .error exc → exc.isException = true

/-- The accounting that the `try` body and its handler share, followed by `rest`. -/
def ChatCall.accounting {α : Type} (call : ChatCall) (usage : UsageRecord) (errorCode : Option String)
    (actualTokens : Int) (releaseAll : Bool) (rest : ChatProgram α) : ChatProgram α := do
  chatCall (.finalizeTokens call.lease actualTokens releaseAll)
  chatCall (.recordUsage usage)
  let latencyMs ← chatCall .elapsedMs
  chatCall (.finalizeAudit (buildAuditFinal call.auditRecordId usage (some latencyMs) errorCode))
  emitUsageAnalytics
    (usageEvent call.authContext call.requestId call.model usage (some latencyMs) errorCode)
  rest

theorem complete_eq (self : ChatApp) (call : ChatCall) : self.complete call =
    (chatCall (.createChatCompletion call.payload)).bind fun response =>
      (Program.lift (usageFromResponse response call.plan self.tokenEstimator)).bind fun usage =>
        call.accounting usage none usage.totalTokens false
          ((Program.lift (self.render response)).bind fun rendered =>
            .ret (.json { rendered with xRequestId := some call.requestId })) := rfl

theorem fail_eq (call : ChatCall) (exc : PyExc) : ChatApp.fail call exc =
    call.accounting (ChatApp.failedUsage call) (exc.codeOr "internal_server_error") 0 true
      (.raise exc) := rfl

/-- The books after the usage has been recorded and the audit record could not be finalized. -/
structure ChatBooks.Records (b : ChatBooks) (usage : UsageRecord) (b' : ChatBooks) : Prop where
  usageRecords : b'.usageRecords = b.usageRecords ++ [usage]
  audits : b'.audits = b.audits + 1
  finals : b'.finals = b.finals
  events : b'.events = b.events

/-- The books after one full pass. -/
structure ChatBooks.Accounts (b : ChatBooks) (usage : UsageRecord) (b' : ChatBooks) : Prop where
  usageRecords : b'.usageRecords = b.usageRecords ++ [usage]
  audits : b'.audits = b.audits + 1
  finals : ∃ final : AuditFinal, b'.finals = b.finals ++ [final] ∧ final.status = usage.status
  events : b'.events = b.events ∨ ∃ event : UsageEvent, b'.events = b.events ++ [event] ∧
    event.status = usage.status ∧ event.promptTokens = usage.promptTokens ∧
    event.completionTokens = usage.completionTokens ∧ event.totalTokens = usage.totalTokens

section Pass

variable {env : ChatEnv} {app : ChatApp}

theorem run_emitUsageAnalytics (henv : env.RaisesExceptions app) (event : UsageEvent) (b : ChatBooks) :
    ∃ b', (emitUsageAnalytics event).run env.answer b = (.ok (), b') ∧ b'.account = b.account ∧
      b'.usageRecords = b.usageRecords ∧ b'.audits = b.audits ∧ b'.finals = b.finals ∧
      (b'.events = b.events ∨ b'.events = b.events ++ [event]) := by
  rw [emitUsageAnalytics, Program.run_tryExcept, Program.bind_eq, Program.run_bind, chatCall,
    Program.run_perform]
  simp only [ChatEnv.answer]
  cases hcollected : env.collected b.calls with
  | error exc =>
      simp only [henv.collected _ _ hcollected, if_true]
      exact ⟨b.tick, rfl, rfl, rfl, rfl, rfl, .inl rfl⟩
  | ok accepted =>
      cases accepted with
      | false => exact ⟨b.tick, rfl, rfl, rfl, rfl, rfl, .inl rfl⟩
      | true =>
          exact ⟨{ b.tick with events := b.events ++ [event] }, rfl, rfl, rfl, rfl, rfl, .inr rfl⟩

/-- A pass stops at a fault of the audit service, and goes on to the rest otherwise. -/
theorem run_accounting {α : Type} (henv : env.RaisesExceptions app) (call : ChatCall)
    (usage : UsageRecord) (errorCode : Option String) (actualTokens : Int) (releaseAll : Bool)
    (rest : ChatProgram α) (b : ChatBooks) :
    match env.auditFault b.audits with
    | some exc => ∃ b', (call.accounting usage errorCode actualTokens releaseAll rest).run env.answer b =
        (.error exc, b') ∧ b.Records usage b'
    | none => ∃ b', (call.accounting usage errorCode actualTokens releaseAll rest).run env.answer b =
        rest.run env.answer b' ∧ b.Accounts usage b' := by
  obtain ⟨account, hfinalize⟩ :=
    TokenAccount.finalize_ok env.admission b.calls actualTokens releaseAll b.account
  let recorded : ChatBooks :=
    { b with
      calls := b.calls + 3
      account := account
      finalizations := b.finalizations + 1
      usageRecords := b.usageRecords ++ [usage] }
  have hrun : (call.accounting usage errorCode actualTokens releaseAll rest).run env.answer b =
      ((chatCall (.finalizeAudit (buildAuditFinal call.auditRecordId usage
          (some (env.elapsed (b.calls + 2))) errorCode))).bind fun _ =>
        (emitUsageAnalytics (usageEvent call.authContext call.requestId call.model usage
          (some (env.elapsed (b.calls + 2))) errorCode)).bind fun _ => rest).run env.answer recorded := by
    rw [ChatCall.accounting, Program.bind_eq, Program.run_bind, chatCall, Program.run_perform]
    simp only [ChatEnv.answer, hfinalize]
    rfl
  rw [hrun, Program.run_bind, chatCall, Program.run_perform]
  simp only [ChatEnv.answer]
  cases hfault : env.auditFault b.audits with
  | some exc =>
      exact ⟨_, rfl, rfl, rfl, rfl, rfl⟩
  | none =>
      let event := usageEvent call.authContext call.requestId call.model usage
        (some (env.elapsed (b.calls + 2))) errorCode
      let final := buildAuditFinal call.auditRecordId usage (some (env.elapsed (b.calls + 2))) errorCode
      let audited : ChatBooks :=
        { recorded.tick with audits := b.audits + 1, finals := b.finals ++ [final] }
      obtain ⟨b', hemit, -, hrecords, haudits, hfinals, hevents⟩ :=
        run_emitUsageAnalytics henv event audited
      refine ⟨b', ?_, ⟨hrecords, haudits, ⟨final, hfinals, rfl⟩, ?_⟩⟩
      · show ((emitUsageAnalytics event).bind fun _ => rest).run env.answer audited = _
        rw [Program.run_bind, hemit]
      · rcases hevents with hnone | hone
        · exact .inl hnone
        · exact .inr ⟨event, hone, rfl, rfl, rfl, rfl⟩

end Pass

/-- One usage record has been appended, the audit record has been finalized with one status that
agrees with the outcome, and at most one event has been collected, of the same status and usage. -/
def ExactlyOnce (b : ChatBooks) (outcome : Except PyExc ChatResponse) : Prop :=
  ∃ usage status, b.usageRecords = [usage] ∧
    b.finals ≠ [] ∧ (∀ final ∈ b.finals, final.status = status) ∧
    (status = .completed ↔ outcome.isOk = true) ∧
    b.events.length ≤ 1 ∧ ∀ event ∈ b.events, event.status = status ∧
      event.promptTokens = usage.promptTokens ∧ event.completionTokens = usage.completionTokens ∧
      event.totalTokens = usage.totalTokens

/-- The audit service takes the first finalization, and the response to a completed request can be
rendered. -/
def Unbroken (env : ChatEnv) (app : ChatApp) (plan : TokenPlan) (payload : JsonObject) : Prop :=
  env.auditFault 0 = none ∧ ∀ response usage, env.completion payload = .ok response →
    usageFromResponse response plan app.tokenEstimator = .ok usage →
      ∃ rendered, app.render response = .ok rendered

/-- Nothing has been recorded yet. -/
structure ChatBooks.Blank (b : ChatBooks) : Prop where
  usageRecords : b.usageRecords = []
  audits : b.audits = 0
  finals : b.finals = []
  events : b.events = []

theorem ChatBooks.Blank.tick {b : ChatBooks} (h : b.Blank) : b.tick.Blank :=
  ⟨h.usageRecords, h.audits, h.finals, h.events⟩

theorem exactlyOnce_accounts {b b' : ChatBooks} (hblank : b.Blank) {usage : UsageRecord}
    (h : b.Accounts usage b') {outcome : Except PyExc ChatResponse}
    (hagree : usage.status = .completed ↔ outcome.isOk = true) : ExactlyOnce b' outcome := by
  obtain ⟨final, hfinals, hfinal⟩ := h.finals
  rw [hblank.finals, List.nil_append] at hfinals
  refine ⟨usage, usage.status, ?_, ?_, ?_, hagree, ?_⟩
  · rw [h.usageRecords, hblank.usageRecords, List.nil_append]
  · rw [hfinals]
    exact List.cons_ne_nil _ _
  · intro other hother
    rw [hfinals, List.mem_singleton] at hother
    rw [hother, hfinal]
  · rcases h.events with hnone | ⟨event, hone, hevent⟩
    · rw [hnone, hblank.events]
      refine ⟨Nat.zero_le _, ?_⟩
      intro event hevent
      exact absurd hevent List.not_mem_nil
    · rw [hone, hblank.events, List.nil_append]
      refine ⟨Nat.le_refl _, ?_⟩
      intro other hother
      rw [List.mem_singleton.mp hother]
      exact hevent

/-- Two usage records are not one. -/
theorem not_exactlyOnce {b : ChatBooks} {outcome : Except PyExc ChatResponse}
    (h : 1 < b.usageRecords.length) : ¬ ExactlyOnce b outcome := by
  rintro ⟨usage, status, hone, -⟩
  rw [hone] at h
  exact Nat.lt_irrefl _ h

theorem not_exactlyOnce_of_unfinalized {b : ChatBooks} {outcome : Except PyExc ChatResponse}
    (h : b.finals = []) : ¬ ExactlyOnce b outcome := by
  rintro ⟨usage, status, -, hfinals, -⟩
  exact hfinals h

section Respond

variable {env : ChatEnv} {app : ChatApp} {b : ChatBooks} (call : ChatCall)

/-- Releasing the lease changes nothing in the books but the number of calls. -/
theorem exactlyOnce_tick {outcome : Except PyExc ChatResponse} :
    ExactlyOnce b.tick outcome ↔ ExactlyOnce b outcome := Iff.rfl

theorem run_respond (outcome : Except PyExc ChatResponse) (b' : ChatBooks) :
    (app.respond false call).run env.answer b = (outcome, b') ↔
      ∃ b'', (Program.tryExcept PyExc.isException (app.complete call) (ChatApp.fail call)).run env.answer b =
        (outcome, b'') ∧ b' = b''.tick := by
  rw [ChatApp.respond, if_neg Bool.false_ne_true, Program.run_tryFinally]
  rcases (Program.tryExcept PyExc.isException (app.complete call) (ChatApp.fail call)).run env.answer b
    with ⟨left, b''⟩
  constructor
  · intro h
    cases h
    exact ⟨b'', rfl, rfl⟩
  · rintro ⟨other, hother, rfl⟩
    cases hother
    rfl

section Fail

variable {outcome : Except PyExc ChatResponse} {left : ChatBooks} {exc : PyExc}

/-- The handler, after the body has recorded nothing. -/
theorem exactlyOnce_fail (henv : env.RaisesExceptions app) (hblank : b.Blank)
    (hrun : (ChatApp.fail call exc).run env.answer b = (outcome, left)) :
    ExactlyOnce left outcome ↔ env.auditFault 0 = none := by
  have hpass := run_accounting henv call (ChatApp.failedUsage call) (exc.codeOr "internal_server_error")
    0 true (.raise exc : ChatProgram ChatResponse) b
  rw [hblank.audits] at hpass
  rw [fail_eq] at hrun
  cases hfault : env.auditFault 0 with
  | some fault =>
      rw [hfault] at hpass
      obtain ⟨b', hpass, hrecords⟩ := hpass
      rw [hpass] at hrun
      cases hrun
      refine iff_of_false (not_exactlyOnce_of_unfinalized ?_) nofun
      rw [hrecords.finals, hblank.finals]
  | none =>
      rw [hfault] at hpass
      obtain ⟨b', hpass, haccounts⟩ := hpass
      rw [hpass] at hrun
      cases hrun
      refine iff_of_true (exactlyOnce_accounts hblank haccounts ?_) rfl
      exact ⟨nofun, nofun⟩

/-- The handler, after the body has recorded the usage. -/
theorem not_exactlyOnce_fail (henv : env.RaisesExceptions app) (hrecorded : b.usageRecords ≠ [])
    (hrun : (ChatApp.fail call exc).run env.answer b = (outcome, left)) : ¬ ExactlyOnce left outcome := by
  have hpass := run_accounting henv call (ChatApp.failedUsage call) (exc.codeOr "internal_server_error")
    0 true (.raise exc : ChatProgram ChatResponse) b
  have hlong : 1 < (b.usageRecords ++ [ChatApp.failedUsage call]).length := by
    have := List.length_pos_of_ne_nil hrecorded
    rw [List.length_append, List.length_singleton]
    omega
  apply not_exactlyOnce
  rw [fail_eq] at hrun
  cases hfault : env.auditFault b.audits with
  | some fault =>
      rw [hfault] at hpass
      obtain ⟨b', hpass, hrecords⟩ := hpass
      rw [hpass] at hrun
      cases hrun
      rw [hrecords.usageRecords]
      exact hlong
  | none =>
      rw [hfault] at hpass
      obtain ⟨b', hpass, haccounts⟩ := hpass
      rw [hpass] at hrun
      cases hrun
      rw [haccounts.usageRecords]
      exact hlong

/-- The body from the point where the usage is known, with the handler. -/
theorem exactlyOnce_recorded (henv : env.RaisesExceptions app) (hblank : b.Blank) {usage : UsageRecord}
    (hcompleted : usage.status = .completed) {response : JsonObject}
    (hrun : (Program.tryExcept PyExc.isException
      (call.accounting usage none usage.totalTokens false
        ((Program.lift (app.render response)).bind fun rendered =>
          .ret (ChatResponse.json { rendered with xRequestId := some call.requestId })))
      (ChatApp.fail call)).run env.answer b = (outcome, left)) :
    ExactlyOnce left outcome ↔
      env.auditFault 0 = none ∧ ∃ rendered, app.render response = .ok rendered := by
  have hpass := run_accounting henv call usage none usage.totalTokens false
    ((Program.lift (app.render response)).bind fun rendered =>
      .ret (ChatResponse.json { rendered with xRequestId := some call.requestId })) b
  rw [hblank.audits] at hpass
  rw [Program.run_tryExcept] at hrun
  cases hfault : env.auditFault 0 with
  | some fault =>
      rw [hfault] at hpass
      obtain ⟨recorded, hpass, hrecords⟩ := hpass
      rw [hpass] at hrun
      simp only [henv.audit _ _ hfault, if_true] at hrun
      refine iff_of_false (not_exactlyOnce_fail call henv ?_ hrun) nofun
      rw [hrecords.usageRecords]
      exact List.append_ne_nil_of_right_ne_nil _ (List.cons_ne_nil _ _)
  | none =>
      rw [hfault] at hpass
      obtain ⟨accounted, hpass, haccounts⟩ := hpass
      rw [hpass] at hrun
      cases hrender : app.render response with
      | error exc =>
          simp only [hrender, Program.lift_error, Program.raise_bind, Program.run_raise,
            henv.render _ _ hrender, if_true] at hrun
          refine iff_of_false (not_exactlyOnce_fail call henv ?_ hrun) ?_
          · rw [haccounts.usageRecords]
            exact List.append_ne_nil_of_right_ne_nil _ (List.cons_ne_nil _ _)
          · rintro ⟨-, rendered, hrendered⟩
            cases hrendered
      | ok rendered =>
          simp only [hrender, Program.lift_ok, Program.ret_bind, Program.run_ret] at hrun
          cases hrun
          refine iff_of_true (exactlyOnce_accounts hblank haccounts ?_) ⟨rfl, rendered, rfl⟩
          exact iff_of_true hcompleted rfl

end Fail

theorem exactlyOnce_respond (henv : env.RaisesExceptions app) (hblank : b.Blank)
    {outcome : Except PyExc ChatResponse} {b' : ChatBooks}
    (hrun : (app.respond false call).run env.answer b = (outcome, b')) :
    ExactlyOnce b' outcome ↔ Unbroken env app call.plan call.payload := by
  obtain ⟨left, hleft, rfl⟩ := (run_respond call outcome b').mp hrun
  rw [exactlyOnce_tick]
  rw [Program.run_tryExcept, complete_eq, Program.run_bind, chatCall, Program.run_perform] at hleft
  simp only [ChatEnv.answer] at hleft
  unfold Unbroken
  cases hcompletion : env.completion call.payload with
  | error exc =>
      simp only [hcompletion, henv.completion _ _ hcompletion, if_true] at hleft
      rw [exactlyOnce_fail call henv hblank.tick hleft]
      exact (and_iff_left nofun).symm
  | ok response =>
      simp only [hcompletion] at hleft
      cases husage : usageFromResponse response call.plan app.tokenEstimator with
      | error exc =>
          simp only [husage, Program.lift_error, Program.raise_bind, Program.run_raise,
            usageFromResponse_raises henv.estimator husage, if_true] at hleft
          rw [exactlyOnce_fail call henv hblank.tick hleft]
          refine (and_iff_left ?_).symm
          intro other usage hother hother'
          cases hother
          rw [husage] at hother'
          cases hother'
      | ok usage =>
          rw [husage, Program.lift_ok, Program.ret_bind, ← Program.run_tryExcept] at hleft
          rw [exactlyOnce_recorded call henv hblank.tick (usageFromResponse_completed husage) hleft]
          refine and_congr_right fun _ => ?_
          constructor
          · intro hrendered other _ hother _
            cases hother
            exact hrendered
          · intro h
            exact h response usage rfl husage

end Respond

section Handler

variable {env : ChatEnv} {app : ChatApp} {request : ChatCompletionRequest} {state : Option AuthContext}
  {requestId : String} {outcome : Except PyExc ChatResponse} {b : ChatBooks}

/-- The books of a request that has been admitted and whose audit record has been started. -/
def ChatBooks.admitted (account : TokenAccount) (recordId : String) : ChatBooks :=
  { ChatBooks.start with calls := 2, account := account, started := some recordId }

/-- A request whose audit record was started has been planned and admitted, and is answered from
there. -/
theorem run_createChatCompletion
    (hrun : (app.createChatCompletion request state requestId).run env.answer .start = (outcome, b))
    (hstarted : b.started ≠ none) :
    ∃ call account recordId, buildTokenPlan request app.tokenEstimator app.settings = .ok call.plan ∧
      call.payload = normalizeChatCompletionPayload request ∧
      (∃ authContext, TokenAccount.start.admitRequest env.admission 0 authContext
        call.plan.estimatedTotalTokens = (.ok call.lease, account)) ∧
      (app.respond request.stream call).run env.answer (.admitted account recordId) = (outcome, b) := by
  have hstop : ∀ {exc : PyExc} {account : TokenAccount} {calls : Nat},
      (Except.error exc, { ChatBooks.start with calls := calls, account := account }) = (outcome, b) →
        False := by
    intro exc account calls h
    cases h
    exact hstarted rfl
  unfold ChatApp.createChatCompletion at hrun
  cases state with
  | none => exact (hstop hrun).elim
  | some authContext =>
      simp only [Program.bind_eq, Program.lift_ok, Program.ret_bind] at hrun
      cases hmodel : ensureModelAllowed authContext request.model with
      | error exc =>
          rw [hmodel] at hrun
          exact (hstop hrun).elim
      | ok allowed =>
          cases hplan : buildTokenPlan request app.tokenEstimator app.settings with
          | error exc =>
              rw [hmodel, hplan] at hrun
              exact (hstop hrun).elim
          | ok plan =>
              rw [hmodel, hplan] at hrun
              simp only [Program.lift_ok, Program.ret_bind] at hrun
              rw [Program.run_bind, chatCall, Program.run_perform] at hrun
              simp only [ChatEnv.answer] at hrun
              rcases hadmission : TokenAccount.start.admitRequest env.admission 0 authContext
                plan.estimatedTotalTokens with ⟨exc | lease, account⟩
              · simp only [ChatBooks.start, hadmission] at hrun
                exact (hstop hrun).elim
              · simp only [ChatBooks.start, hadmission] at hrun
                rw [Program.run_bind, chatCall, Program.run_perform] at hrun
                simp only [ChatEnv.answer] at hrun
                cases hrecord : env.auditId with
                | error exc =>
                    simp only [hrecord] at hrun
                    exact (hstop hrun).elim
                | ok recordId =>
                    simp only [hrecord] at hrun
                    refine ⟨_, account, recordId, rfl, rfl, ⟨_, hadmission⟩, hrun⟩

/-- **When the accounting of a request is done exactly once.** The audit service has to take the first
finalization, and the response has to be rendered when the upstream and its usage were read. -/
theorem exactlyOnce_iff (henv : env.RaisesExceptions app) (hstream : request.stream = false)
    (hrun : (app.createChatCompletion request state requestId).run env.answer .start = (outcome, b))
    (hstarted : b.started ≠ none) :
    ExactlyOnce b outcome ↔ ∃ plan, buildTokenPlan request app.tokenEstimator app.settings = .ok plan ∧
      Unbroken env app plan (normalizeChatCompletionPayload request) := by
  obtain ⟨call, account, recordId, hplan, hpayload, -, hrespond⟩ :=
    run_createChatCompletion hrun hstarted
  rw [hstream] at hrespond
  have hblank : (ChatBooks.admitted account recordId).Blank := ⟨rfl, rfl, rfl, rfl⟩
  rw [exactlyOnce_respond call henv hblank hrespond, hpayload, hplan]
  constructor
  · intro hunbroken
    exact ⟨call.plan, rfl, hunbroken⟩
  · rintro ⟨plan, hsome, hunbroken⟩
    cases hsome
    exact hunbroken

end Handler

/-- An upstream that answers with its usage, and an audit service with the given faults. -/
def faultyEnv (auditFault : Nat → Option PyExc) : ChatEnv where
  admission := openAdmission
  auditId := .ok "audit"
  completion _ := .ok [("usage", .obj [("total_tokens", .int 12)])]
  upstream _ := ⟨[], none⟩
  auditFault := auditFault
  collected _ := .ok true
  elapsed _ := 0
  disconnected _ := .ok false
  yielded _ := .ok ()
  closed _ := .ok ()

/-- The first finalization fails, the second does not. -/
def faultOnce : Nat → Option PyExc
  | 0 => some (.exception none "connection lost")
  | _ + 1 => none

theorem faultyEnv_raises (auditFault : Nat → Option PyExc)
    (h : ∀ n exc, auditFault n = some exc → exc.isException = true) :
    (faultyEnv auditFault).RaisesExceptions plainApp where
  completion := nofun
  audit := h
  collected := nofun
  estimator := nofun
  render := nofun

theorem faultOnce_raises (n : Nat) (exc : PyExc) (h : faultOnce n = some exc) : exc.isException = true := by
  cases n with
  | zero =>
      cases h
      rfl
  | succ n => cases h

/-- Without faults, the accounting of the request is done exactly once. -/
theorem exactlyOnce_plain :
    ExactlyOnce
      ((plainApp.createChatCompletion plainRequest (some plainContext) "req").run
        (faultyEnv fun _ => none).answer .start).2
      ((plainApp.createChatCompletion plainRequest (some plainContext) "req").run
        (faultyEnv fun _ => none).answer .start).1 := by
  have hfaultless : ∀ (n : Nat) (exc : PyExc), (none : Option PyExc) = some exc → exc.isException = true := by
    intro n exc h
    cases h
  refine (exactlyOnce_iff (faultyEnv_raises _ hfaultless) rfl rfl (by decide)).mpr ?_
  refine ⟨⟨8, 10, 18⟩, rfl, rfl, ?_⟩
  intro response usage _ _
  exact ⟨_, rfl⟩

/-- A completed request whose audit record cannot be finalized at first is recorded twice. -/
theorem accounting_repeated : ¬ ∀ (env : ChatEnv) (app : ChatApp) (request : ChatCompletionRequest)
    (state : Option AuthContext) (requestId : String) (outcome : Except PyExc ChatResponse)
    (b : ChatBooks), env.RaisesExceptions app → request.stream = false →
      (app.createChatCompletion request state requestId).run env.answer .start = (outcome, b) →
        b.started ≠ none → ExactlyOnce b outcome := by
  intro h
  refine not_exactlyOnce ?_ (h (faultyEnv faultOnce) plainApp plainRequest (some plainContext) "req" _ _
    (faultyEnv_raises _ faultOnce_raises) rfl rfl (by decide))
  decide

end GpuInference
