import GpuInference.ChatAccounting

/-!
The discipline of a request. Only its own payload is sent upstream, its tokens are finalized after it has
been admitted, and the usage that is written for it is the one its tokens were finalized with. The chat
route and the batch worker keep it whatever their calls answer.
-/

open Effect

namespace GpuInference

/-- How far a request has come: not admitted, admitted, its tokens finalized once with these arguments,
or more than once. -/
inductive QuotaPhase where
  | idle
  | admitted
  | finalized (actualTokens : Int) (releaseAll : Bool)
  | refinalized

namespace QuotaPhase

/-- The usage that may be written: the one that the tokens have been finalized with. -/
def Records : QuotaPhase → UsageStatus → Int → Prop
  | idle, _, _ => False
  | admitted, _, _ => False
  | finalized actualTokens releaseAll, status, totalTokens =>
      actualTokens = totalTokens ∧ releaseAll = decide (status = .failed)
  | refinalized, _, _ => True

def finalize (actualTokens : Int) (releaseAll : Bool) : QuotaPhase → QuotaPhase
  | admitted => finalized actualTokens releaseAll
  | _ => refinalized

theorem records_finalize (φ : QuotaPhase) (status : UsageStatus) (total : Int) :
    (φ.finalize total (decide (status = .failed))).Records status total := by
  cases φ with
  | admitted => exact ⟨rfl, rfl⟩
  | idle => trivial
  | finalized actualTokens releaseAll => trivial
  | refinalized => trivial

theorem finalize_ne_idle (φ : QuotaPhase) (actualTokens : Int) (releaseAll : Bool) :
    φ.finalize actualTokens releaseAll ≠ .idle := by
  cases φ <;> exact nofun

end QuotaPhase

/-- Only payloads that `completes` and `streams` accept go upstream, tokens are finalized for an admitted
request, and the written usage is the one they were finalized with. -/
def routeProtocol (completes streams : JsonObject → Prop) : Protocol ChatOp ChatOp.Res PyExc QuotaPhase where
  may φ
    | .createChatCompletion payload => completes payload
    | .streamChatCompletion payload => streams payload
    | .admitRequest _ _ => φ = .idle
    | .finalizeTokens _ _ _ => φ ≠ .idle
    | .recordUsage usage => φ.Records usage.status usage.totalTokens
    | .finalizeAudit final => ∀ total, final.totalTokens = some total → φ.Records final.status total
    | _ => True
  after φ
    | .admitRequest _ _, .ok _ => .admitted
    | .finalizeTokens _ actualTokens releaseAll, _ => φ.finalize actualTokens releaseAll
    | _, _ => φ

/-- The same discipline, with one condition on the payloads. -/
def chatProtocol (sends : JsonObject → Prop) : Protocol ChatOp ChatOp.Res PyExc QuotaPhase :=
  routeProtocol sends sends

section Chat

variable {completes streams : JsonObject → Prop}

theorem follows_emitUsageAnalytics (event : UsageEvent) (φ : QuotaPhase) :
    (emitUsageAnalytics event).Follows (routeProtocol completes streams) (fun ψ _ => ψ = φ) φ :=
  Program.follows_dropped _ trivial (fun _ => rfl) fun _ _ => rfl

/-- One pass of the accounting, for an admitted request. -/
theorem follows_accounting {α : Type} (call : ChatCall) (usage : UsageRecord) (errorCode : Option String)
    {actualTokens : Int} {releaseAll : Bool} (hactual : actualTokens = usage.totalTokens)
    (hrelease : releaseAll = decide (usage.status = .failed)) {rest : ChatProgram α}
    {done : QuotaPhase → Except PyExc α → Prop} {φ : QuotaPhase} (hidle : φ ≠ .idle)
    (herror : ∀ ψ exc, ψ ≠ QuotaPhase.idle → done ψ (.error exc))
    (hrest : ∀ ψ, ψ ≠ QuotaPhase.idle → rest.Follows (routeProtocol completes streams) done ψ) :
    (call.accounting usage errorCode actualTokens releaseAll rest).Follows
      (routeProtocol completes streams) done φ := by
  subst hactual hrelease
  let ψ := φ.finalize usage.totalTokens (decide (usage.status = .failed))
  have hψ : ψ ≠ .idle := QuotaPhase.finalize_ne_idle φ _ _
  have hrecords : ψ.Records usage.status usage.totalTokens := QuotaPhase.records_finalize φ _ _
  refine Program.follows_perform_bind hidle (fun exc => herror ψ exc hψ) fun _ => ?_
  refine Program.follows_perform_bind hrecords (fun exc => herror ψ exc hψ) fun _ => ?_
  refine Program.follows_perform_bind trivial (fun exc => herror ψ exc hψ) fun latencyMs => ?_
  refine Program.follows_perform_bind ?_ (fun exc => herror ψ exc hψ) fun _ => ?_
  · intro total htotal
    cases htotal
    exact hrecords
  rw [Program.bind_eq, Program.follows_bind]
  refine (follows_emitUsageAnalytics _ ψ).mono ?_
  rintro χ (exc | value) rfl
  · exact herror ψ exc hψ
  · exact hrest ψ hψ

/-- The outcome of a request that is not streamed. -/
def NotStreamed (outcome : Except PyExc ChatResponse) : Prop := ∀ body, outcome ≠ .ok (.stream body)

theorem follows_fail (call : ChatCall) (exc : PyExc) {φ : QuotaPhase} (hidle : φ ≠ .idle) :
    (ChatApp.fail call exc).Follows (routeProtocol completes streams)
      (fun _ outcome => NotStreamed outcome) φ := by
  rw [fail_eq]
  exact follows_accounting call _ _ rfl rfl hidle (fun _ _ _ _ => nofun) fun _ _ _ => nofun

/-- The body of the `try` statement finalizes the tokens of an admitted request. -/
theorem follows_complete (app : ChatApp) {call : ChatCall} (hsends : completes call.payload) :
    (app.complete call).Follows (routeProtocol completes streams)
      (fun ψ outcome => ψ ≠ .idle ∧ NotStreamed outcome) .admitted := by
  rw [complete_eq]
  refine Program.follows_perform_bind hsends (fun _ => ⟨nofun, fun _ => nofun⟩) fun response => ?_
  rw [Program.follows_bind, Program.follows_lift]
  cases husage : usageFromResponse response call.plan app.tokenEstimator with
  | error exc => exact ⟨nofun, fun _ => nofun⟩
  | ok usage =>
      have hcompleted : usage.status = .completed := usageFromResponse_completed husage
      refine follows_accounting call usage none rfl ?_ nofun (fun ψ exc hψ => ⟨hψ, fun _ => nofun⟩)
        fun ψ hψ => ?_
      · rw [hcompleted]
        rfl
      · rw [Program.follows_bind, Program.follows_lift]
        cases app.render response with
        | error exc => exact ⟨hψ, fun _ => nofun⟩
        | ok rendered => exact ⟨hψ, fun _ => nofun⟩

/-- A request that is not streamed, from its admission on. -/
theorem follows_respond (app : ChatApp) {call : ChatCall} (hsends : completes call.payload) :
    (app.respond false call).Follows (routeProtocol completes streams)
      (fun _ outcome => NotStreamed outcome) .admitted := by
  rw [ChatApp.respond, if_neg Bool.false_ne_true, Program.follows_tryFinally, Program.follows_tryExcept]
  have hrelease : ∀ (φ : QuotaPhase) (outcome : Except PyExc ChatResponse), NotStreamed outcome →
      (chatCall (.releaseLease call.lease)).Follows (routeProtocol completes streams)
        (Program.finallyDone (fun _ outcome => NotStreamed outcome) outcome) φ := by
    intro φ outcome hstreamed
    refine (Program.follows_perform _ _).mpr ⟨trivial, ?_⟩
    intro released
    cases released with
    | error exc => exact fun body h => by cases h
    | ok value => exact hstreamed
  refine (follows_complete app hsends).mono ?_
  rintro φ (exc | response) ⟨hidle, hstreamed⟩
  · simp only [Program.exceptDone]
    split
    · exact (follows_fail call exc hidle).mono fun ψ outcome hfailed => hrelease ψ outcome hfailed
    · exact hrelease φ _ hstreamed
  · exact hrelease φ _ hstreamed

/-- The loop over the events finalizes nothing. -/
theorem meets_streamEvents (app : ChatApp) (failure : Option PyExc) (events : List String)
    (l : StreamLocals) :
    Block.Meets (routeProtocol completes streams) (fun φ _ _ => φ = .admitted) .admitted l
      (app.streamEvents failure events) := by
  induction events generalizing l with
  | nil =>
      cases failure with
      | none => exact rfl
      | some exc => exact rfl
  | cons event events ih =>
      rw [ChatApp.streamEvents]
      refine Block.meets_perform_bind trivial (fun _ => rfl) fun disconnected => ?_
      cases disconnected with
      | true => exact rfl
      | false =>
          simp only [Bool.false_eq_true, if_false]
          rw [Block.meets_lift_bind]
          cases streamDeltaText app.loads event with
          | error exc => exact rfl
          | ok text =>
              simp only [Block.seqPost]
              rw [Block.meets_assign_bind, Block.meets_locals_bind]
              have hyield : ∀ l', Block.Meets (routeProtocol completes streams)
                  (fun φ _ _ => φ = .admitted) .admitted l' (Block.await (chatCall (.yieldEvent event)) >>= fun _ =>
                    app.streamEvents failure events) :=
                fun l' => Block.meets_perform_bind trivial (fun _ => rfl) fun _ => ih l'
              split
              · refine Block.meets_perform_bind trivial (fun _ => rfl) fun _ => ?_
                rw [Block.meets_assign_bind]
                exact hyield _
              · exact hyield _

/-- The `finally` block finalizes the tokens once, with the usage that it then writes. -/
theorem meets_streamFinally (app : ChatApp) (call : ChatCall) (l : StreamLocals) :
    Block.Meets (routeProtocol completes streams) (fun φ _ _ => φ ≠ .refinalized) .admitted l
      (app.streamFinally call) := by
  unfold ChatApp.streamFinally
  refine Block.meets_perform_bind trivial (fun _ => nofun) fun _ => ?_
  refine Block.meets_perform_bind trivial (fun _ => nofun) fun _ => ?_
  refine Block.meets_perform_bind trivial (fun _ => nofun) fun _ => ?_
  rw [Block.meets_locals_bind, Block.meets_lift_bind]
  cases husage : usageFromStreamText l.completionText call.plan app.tokenEstimator l.status with
  | error exc => exact nofun
  | ok usage =>
      have hrecords : (QuotaPhase.finalized usage.totalTokens (decide (l.status = .failed))).Records
          usage.status usage.totalTokens := by
        rw [usageFromStreamText_status husage]
        exact ⟨rfl, rfl⟩
      refine Block.meets_perform_bind nofun (fun _ => nofun) fun _ => ?_
      refine Block.meets_perform_bind hrecords (fun _ => nofun) fun _ => ?_
      refine Block.meets_perform_bind trivial (fun _ => nofun) fun latencyMs => ?_
      refine Block.meets_perform_bind ?_ (fun _ => nofun) fun _ => ?_
      · intro total htotal
        cases htotal
        exact hrecords
      refine Block.meets_await_bind (follows_emitUsageAnalytics _ _) (fun _ => nofun) fun _ => ?_
      refine Block.meets_perform_bind trivial (fun _ => nofun) fun _ => ?_
      rw [Block.meets_await]
      exact (Program.follows_perform _ _).mpr ⟨trivial, fun _ => nofun⟩

theorem follows_streamResponse (app : ChatApp) {call : ChatCall}
    (hsends : streams (streamPayload call.payload)) :
    (app.streamResponse call).Follows (routeProtocol completes streams)
      (fun φ _ => φ ≠ .refinalized) .admitted := by
  unfold ChatApp.streamResponse
  refine Program.follows_perform_bind trivial (fun _ => nofun) fun _ => ?_
  refine Program.follows_perform_bind hsends (fun _ => nofun) fun upstream => ?_
  refine Block.Meets.toProgram ?_
  rw [Block.meets_tryFinally, Block.meets_tryExcept]
  have hfinally : ∀ (outcome : Except PyExc Unit) (l : StreamLocals),
      Block.Meets (routeProtocol completes streams)
        (Block.finallyPost (fun φ _ _ => φ ≠ QuotaPhase.refinalized) outcome) .admitted l (app.streamFinally call) := by
    intro outcome l
    refine (meets_streamFinally app call l).mono ?_
    rintro φ (exc | done) l' hφ
    · exact hφ
    · exact hφ
  refine (meets_streamEvents app upstream.failure _ _).mono ?_
  rintro φ (exc | done) l rfl
  · simp only [Block.exceptPost]
    split
    · exact hfinally _ _
    · exact hfinally _ l
  · exact hfinally _ l

/-- The payload that is sent upstream for a request. -/
def sentPayload (request : ChatCompletionRequest) : JsonObject :=
  if request.stream then streamPayload (normalizeChatCompletionPayload request)
  else normalizeChatCompletionPayload request

/-- A request sends its own payload, and finalizes its tokens once at most when it is streamed. -/
theorem follows_serve (app : ChatApp) {request : ChatCompletionRequest}
    (hcompletes : request.stream = false → completes (normalizeChatCompletionPayload request))
    (hstreams : request.stream = true → streams (streamPayload (normalizeChatCompletionPayload request)))
    (state : Option AuthContext) (requestId : String) :
    (app.serve request state requestId).Follows (routeProtocol completes streams)
      (fun φ _ => request.stream = true → φ ≠ .refinalized) .idle := by
  unfold ChatApp.serve ChatApp.createChatCompletion
  rw [Program.bind_eq, Program.follows_bind, Program.bind_eq, Program.follows_bind, Program.follows_lift]
  cases state with
  | none => exact fun _ => nofun
  | some authContext =>
  simp only [Program.seqDone]
  rw [Program.bind_eq, Program.follows_bind, Program.follows_lift]
  cases ensureModelAllowed authContext request.model with
  | error exc => exact fun _ => nofun
  | ok allowed =>
  simp only [Program.seqDone]
  rw [Program.bind_eq, Program.follows_bind, Program.follows_lift]
  cases buildTokenPlan request app.tokenEstimator app.settings with
  | error exc => exact fun _ => nofun
  | ok plan =>
  refine Program.follows_perform_bind rfl (fun _ _ => nofun) fun lease => ?_
  refine Program.follows_perform_bind trivial (fun _ _ => nofun) fun recordId => ?_
  cases hstream : request.stream with
  | true => exact (follows_streamResponse app (hstreams hstream)).mono fun φ outcome hφ _ => hφ
  | false =>
      refine (follows_respond app (hcompletes hstream)).mono ?_
      rintro φ (exc | (response | body)) hstreamed
      · exact nofun
      · exact nofun
      · exact absurd rfl (hstreamed body)

end Chat

/-- The same discipline for the worker. -/
def workerProtocol (sends : JsonObject → Prop) : Protocol BatchOp BatchOp.Res PyExc QuotaPhase where
  may φ
    | .createChatCompletion payload => sends payload
    | .admitRequest _ _ => φ = .idle
    | .finalizeTokens _ _ _ => φ ≠ .idle
    | .finalizeAudit final => ∀ total, final.totalTokens = some total → φ.Records final.status total
    | _ => True
  after φ
    | .admitRequest _ _, .ok _ => .admitted
    | .finalizeTokens _ actualTokens releaseAll, _ => φ.finalize actualTokens releaseAll
    | _, _ => φ

/-- The worker creates no job. -/
def jobProtocol (sends : JsonObject → Prop) : Protocol BatchOp BatchOp.Res PyExc QuotaPhase where
  may φ
    | .create _ _ _ => False
    | op => (workerProtocol sends).may φ op
  after := (workerProtocol sends).after

/-- A lease in the locals is that of an admitted job, and only an admitted job has an audit record. -/
structure WorkerLocals.Leased (φ : QuotaPhase) (l : WorkerLocals) : Prop where
  admitted : l.admissionLease ≠ none → φ ≠ .idle
  audited : l.auditRecordId ≠ none → l.admissionLease ≠ none

section Worker

variable {sends : JsonObject → Prop}

theorem follows_emitUsageEvent_worker (self : BatchWorker) (event : UsageEvent) (φ : QuotaPhase) :
    (self.emitUsageEvent event).Follows (jobProtocol sends) (fun ψ _ => ψ = φ) φ := by
  unfold BatchWorker.emitUsageEvent
  split
  · exact Program.follows_dropped _ trivial (fun _ => rfl) fun _ _ => rfl
  · exact rfl

theorem meets_complete_worker (self : BatchWorker) (jobId : String) {running : BatchJobRecord}
    (hsends : ∀ request, chatRequestFromBatch self.lax running = .ok request →
      sends (normalizeChatCompletionPayload request)) (requestId : String) (authContext : AuthContext) :
    Block.Meets (jobProtocol sends) (fun φ _ l => l.Leased φ) .idle ⟨none, none⟩
      (self.complete jobId running requestId authContext) := by
  have hidle : (⟨none, none⟩ : WorkerLocals).Leased .idle := ⟨nofun, nofun⟩
  unfold BatchWorker.complete
  rw [Block.meets_lift_bind]
  cases hrequest : chatRequestFromBatch self.lax running with
  | error exc => exact hidle
  | ok requestBody =>
  show Block.Meets _ _ _ _ _
  rw [Block.meets_lift_bind]
  cases buildTokenPlan requestBody self.tokenEstimator self.settings with
  | error exc => exact hidle
  | ok tokenPlan =>
  refine Block.meets_perform_bind rfl (fun _ => hidle) fun lease => ?_
  rw [Block.meets_assign_bind]
  refine Block.meets_perform_bind trivial (fun _ => ⟨fun _ => nofun, nofun⟩) fun recordId => ?_
  rw [Block.meets_assign_bind]
  have hleased : ∀ ψ, ψ ≠ .idle → (⟨some recordId, some lease⟩ : WorkerLocals).Leased ψ :=
    fun ψ hψ => ⟨fun _ => hψ, fun _ => nofun⟩
  refine Block.meets_perform_bind (hsends requestBody hrequest) (fun _ => hleased _ nofun)
    fun response => ?_
  rw [Block.meets_lift_bind]
  cases husage : usageFromResponse response tokenPlan self.tokenEstimator with
  | error exc => exact hleased _ nofun
  | ok usage =>
  have hrecords : (QuotaPhase.finalized usage.totalTokens false).Records usage.status usage.totalTokens := by
    rw [usageFromResponse_completed husage]
    exact ⟨rfl, rfl⟩
  refine Block.meets_perform_bind nofun (fun _ => hleased _ nofun) fun _ => ?_
  refine Block.meets_perform_bind trivial (fun _ => hleased _ nofun) fun latencyMs => ?_
  refine Block.meets_perform_bind ?_ (fun _ => hleased _ nofun) fun _ => ?_
  · intro total htotal
    cases htotal
    exact hrecords
  refine Block.meets_perform_bind trivial (fun _ => hleased _ nofun) fun _ => ?_
  refine Block.meets_await_bind (follows_emitUsageEvent_worker self _ _) (fun _ => hleased _ nofun)
    fun _ => ?_
  exact hleased _ nofun

theorem meets_fail_worker (jobId : String) (exc : PyExc) {l : WorkerLocals} {φ : QuotaPhase}
    (h : l.Leased φ) :
    Block.Meets (jobProtocol sends) (fun _ _ _ => True) φ l (BatchWorker.fail jobId exc) := by
  unfold BatchWorker.fail
  rw [Block.meets_locals_bind]
  have hmark : ∀ ψ, Block.Meets (jobProtocol sends) (fun _ _ _ => True) ψ l
      (Block.await (batchCall (.markFailed jobId (exc.codeOr "batch_job_failed") exc.text)) >>=
        fun _ => pure true) :=
    fun ψ => Block.meets_perform_bind trivial (fun _ => trivial) fun _ => trivial
  rcases l with ⟨auditRecordId, admissionLease⟩
  cases admissionLease with
  | none =>
      refine Block.meets_await_bind rfl (fun _ => trivial) fun _ => ?_
      cases auditRecordId with
      | none => exact Block.meets_await_bind rfl (fun _ => trivial) fun _ => hmark φ
      | some recordId => exact absurd rfl (h.audited nofun)
  | some lease =>
      let ψ := φ.finalize 0 true
      have hrecords : ψ.Records .failed 0 := QuotaPhase.records_finalize φ .failed 0
      refine Block.meets_perform_bind (h.admitted nofun) (fun _ => trivial) fun _ => ?_
      cases auditRecordId with
      | none => exact Block.meets_await_bind rfl (fun _ => trivial) fun _ => hmark ψ
      | some recordId =>
          refine Block.meets_await_bind ?_ (fun _ => trivial) fun _ => hmark ψ
          refine Program.follows_perform_bind trivial (fun _ => rfl) fun latencyMs => ?_
          refine (Program.follows_perform _ _).mpr ⟨?_, fun _ => rfl⟩
          intro total htotal
          cases htotal
          exact hrecords

theorem meets_leave_worker (l : WorkerLocals) (φ : QuotaPhase) :
    Block.Meets (jobProtocol sends) (fun _ _ _ => True) φ l BatchWorker.leave := by
  unfold BatchWorker.leave
  rw [Block.meets_locals_bind, Block.meets_await]
  cases l.admissionLease with
  | none => exact trivial
  | some lease => exact (Program.follows_perform _ _).mpr ⟨trivial, fun _ => trivial⟩

theorem follows_runJob_worker (self : BatchWorker) (jobId : String) {running : BatchJobRecord}
    (hsends : ∀ request, chatRequestFromBatch self.lax running = .ok request →
      sends (normalizeChatCompletionPayload request)) :
    (self.runJob jobId running).Follows (jobProtocol sends) (fun _ _ => True) .idle := by
  rw [BatchWorker.runJob, Program.bind_eq, Program.follows_bind, generateRequestId]
  refine Program.follows_perform_bind trivial (fun _ => trivial) fun hex => ?_
  refine Block.Meets.toProgram ?_
  rw [Block.meets_tryFinally, Block.meets_tryExcept]
  have hleave : ∀ (ψ : QuotaPhase) (outcome : Except PyExc Bool) (l : WorkerLocals),
      Block.Meets (jobProtocol sends) (Block.finallyPost (fun _ _ _ => True) outcome) ψ l BatchWorker.leave := by
    intro ψ outcome l
    refine (meets_leave_worker l ψ).mono ?_
    rintro χ (exc | value) l' -
    · exact trivial
    · exact trivial
  refine (meets_complete_worker self jobId hsends _ _).mono ?_
  rintro ψ (exc | value) l hleased
  · simp only [Block.exceptPost]
    split
    · exact (meets_fail_worker jobId exc hleased).mono fun χ outcome l' _ => hleave χ outcome l'
    · exact hleave ψ _ l
  · exact hleave ψ _ l

/-- A call that `process_one` makes before its job is running. -/
inductive BatchOp.Front : BatchOp → Prop
  | dequeue : Front .dequeue
  | get (jobId : String) : Front (.get jobId)
  | shouldRunJob : Front .shouldRunJob
  | enqueue (jobId : String) : Front (.enqueue jobId)

/-- `process_one` follows a protocol that a running job follows, if the calls before it leave the phase as it is. -/
theorem follows_processOne_of {Φ : Type} {protocol : Protocol BatchOp BatchOp.Res PyExc Φ} {φ : Φ}
    {done : Φ → Except PyExc Bool → Prop} (self : BatchWorker)
    (hfront : ∀ op : BatchOp, op.Front → protocol.may φ op ∧ (∀ value, protocol.after φ op (.ok value) = φ) ∧
      ∀ exc, done (protocol.after φ op (.error exc)) (.error exc))
    (hdone : ∀ value, done φ (.ok value))
    (htransition : ∀ jobId, protocol.may φ (.transition jobId .running) ∧
      done (protocol.after φ (.transition jobId .running) (.ok none)) (.ok false) ∧
      ∀ exc, done (protocol.after φ (.transition jobId .running) (.error exc)) (.error exc))
    (hrun : ∀ jobId running, (self.runJob jobId running).Follows protocol done
      (protocol.after φ (.transition jobId .running) (.ok (some running)))) :
    self.processOne.Follows protocol done φ := by
  have hcall : ∀ {α : Type} {op : BatchOp} {rest : op.Res → BatchProgram α} {done' : Φ → Except PyExc α → Prop},
      op.Front → (∀ ψ exc, done ψ (.error exc) → done' ψ (.error exc)) →
      (∀ value, (rest value).Follows protocol done' φ) →
      ((batchCall op).bind rest).Follows protocol done' φ := by
    intro α op rest done' hop herror hok
    obtain ⟨hmay, hafter, hraise⟩ := hfront op hop
    refine Program.follows_perform_bind hmay (fun exc => herror _ exc (hraise exc)) ?_
    intro value
    rw [hafter]
    exact hok value
  have hsame : ∀ ψ exc, done ψ (.error exc) → done ψ (.error exc) := fun _ _ h => h
  unfold BatchWorker.processOne
  refine hcall .dequeue hsame ?_
  rintro (none | jobId)
  · exact hdone false
  refine hcall (.get jobId) hsame ?_
  rintro (none | job)
  · exact hdone false
  simp only
  split
  · exact hdone false
  rw [Program.bind_eq, Program.follows_bind]
  let postponed : Φ → Except PyExc Bool → Prop :=
    Program.eitherDone (fun ψ _ => ψ = φ) fun ψ exc => done ψ (.error exc)
  have hpostpones : self.postpones.Follows protocol postponed φ := by
    unfold BatchWorker.postpones
    split
    · exact hcall .shouldRunJob hsame fun _ => rfl
    · exact rfl
  refine hpostpones.mono ?_
  rintro ψ (exc | value) hleft
  · exact hleft
  obtain rfl : ψ = φ := hleft
  simp only [Program.seqDone]
  split
  · exact hcall (.enqueue jobId) hsame fun _ => hdone false
  · obtain ⟨hmay, hnone, hraise⟩ := htransition jobId
    refine Program.follows_perform_bind hmay hraise ?_
    rintro (none | running)
    · exact hnone
    · exact hrun jobId running

theorem follows_processOne_front {Φ : Type} {protocol : Protocol BatchOp BatchOp.Res PyExc Φ} {φ : Φ}
    (self : BatchWorker)
    (hfront : ∀ op : BatchOp, op.Front → protocol.may φ op ∧ ∀ answer, protocol.after φ op answer = φ)
    (htransition : ∀ jobId, protocol.may φ (.transition jobId .running))
    (hrun : ∀ jobId running, (self.runJob jobId running).Follows protocol (fun _ _ => True)
      (protocol.after φ (.transition jobId .running) (.ok (some running)))) :
    self.processOne.Follows protocol (fun _ _ => True) φ := by
  apply follows_processOne_of self
  · intro op hop
    obtain ⟨hmay, hafter⟩ := hfront op hop
    exact ⟨hmay, fun value => hafter (.ok value), fun _ => trivial⟩
  · exact fun _ => trivial
  · exact fun jobId => ⟨htransition jobId, trivial, fun _ => trivial⟩
  · exact hrun

theorem follows_processOne_worker (self : BatchWorker)
    (hsends : ∀ running request, chatRequestFromBatch self.lax running = .ok request →
      sends (normalizeChatCompletionPayload request)) :
    self.processOne.Follows (jobProtocol sends) (fun _ _ => True) .idle := by
  refine follows_processOne_front self ?_ (fun _ => trivial) ?_
  · rintro op (_ | jobId | _ | jobId)
    all_goals exact ⟨trivial, fun _ => rfl⟩
  · intro jobId running
    exact follows_runJob_worker self jobId (hsends running)

theorem follows_worker_of_job {α : Type} {program : BatchProgram α}
    {done : QuotaPhase → Except PyExc α → Prop} {φ : QuotaPhase}
    (h : program.Follows (jobProtocol sends) done φ) :
    program.Follows (workerProtocol sends) (fun _ _ => True) φ := by
  refine h.weaken id ?_ fun _ _ _ => rfl
  intro ψ op hmay
  cases op <;> first | exact hmay | exact trivial

end Worker

end GpuInference
