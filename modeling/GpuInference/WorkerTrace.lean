import GpuInference.AccountingProtocol
import GpuInference.EffectInversion

/-!
What a worker has done, call by call. A trace of `process_one` is the calls before a job is running, and then those of the
`try` statement: of its body, of the handler if the body has raised an `Exception`, and of the `finally` block. So the
exception that a failure is marked with, and the usage that tokens are charged with, can be found in the trace.
-/

open Effect

namespace GpuInference

abbrev BatchEvent := Event BatchOp BatchOp.Res PyExc

section Quiet

theorem quiet_complete (self : BatchWorker) (jobId : String) (running : BatchJobRecord) (requestId : String)
    (authContext : AuthContext) : (self.complete jobId running requestId authContext).Quiet := by
  unfold BatchWorker.complete
  refine (Block.quiet_lift _).bind fun requestBody => (Block.quiet_lift _).bind fun tokenPlan => ?_
  refine (Block.quiet_await _).bind fun lease => (Block.quiet_assign _).bind fun _ => ?_
  refine (Block.quiet_await _).bind fun recordId => (Block.quiet_assign _).bind fun _ => ?_
  refine (Block.quiet_await _).bind fun response => (Block.quiet_lift _).bind fun usage => ?_
  refine (Block.quiet_await _).bind fun _ => (Block.quiet_await _).bind fun latencyMs => ?_
  refine (Block.quiet_await _).bind fun _ => (Block.quiet_await _).bind fun _ => ?_
  exact (Block.quiet_await _).bind fun _ => Block.quiet_pure _

theorem quiet_fail (jobId : String) (exc : PyExc) : (BatchWorker.fail jobId exc).Quiet := by
  unfold BatchWorker.fail
  apply Block.quiet_locals.bind
  intro l
  apply (Block.quiet_await _).bind
  intro _
  apply (Block.quiet_await _).bind
  intro _
  exact (Block.quiet_await _).bind fun _ => Block.quiet_pure _

theorem quiet_leave : BatchWorker.leave.Quiet := Block.quiet_locals.bind fun _ => Block.quiet_await _

end Quiet

/-- The body of the `try` statement of a job has made these calls and has been left so. -/
def BatchWorker.Attempts (self : BatchWorker) (jobId : String) (running : BatchJobRecord) (body : List BatchEvent)
    (out : Except PyExc Bool) (l : WorkerLocals) : Prop :=
  ∃ requestId authContext, (self.complete jobId running requestId authContext).Leaves ⟨none, none⟩ body out l

/-- The calls of a job that has been moved to running. -/
inductive JobTrace (self : BatchWorker) (jobId : String) (running : BatchJobRecord) : List BatchEvent → Prop
  | unnamed (exc : PyExc) : JobTrace self jobId running [⟨.uuid4, .error exc⟩]
  | returned {hex : String} {body final : List BatchEvent} {out : Except PyExc Bool} {out' : Except PyExc Unit}
      {l l' : WorkerLocals} (hbody : self.Attempts jobId running body out l)
      (hfinal : BatchWorker.leave.Leaves l final out' l') :
      JobTrace self jobId running (⟨.uuid4, .ok hex⟩ :: (body ++ final))
  | caught {hex : String} {body handled final : List BatchEvent} {exc : PyExc} {out : Except PyExc Bool}
      {out' : Except PyExc Unit} {l l' l'' : WorkerLocals} (hbody : self.Attempts jobId running body (.error exc) l)
      (hexc : exc.isException = true) (hhandled : (BatchWorker.fail jobId exc).Leaves l handled out l')
      (hfinal : BatchWorker.leave.Leaves l' final out' l'') :
      JobTrace self jobId running (⟨.uuid4, .ok hex⟩ :: (body ++ (handled ++ final)))

section Traces

variable {self : BatchWorker} {calls : List BatchEvent} {outcome : Except PyExc Bool}

theorem traces_runJob {jobId : String} {running : BatchJobRecord}
    (h : (self.runJob jobId running).Traces calls outcome) : JobTrace self jobId running calls := by
  rw [BatchWorker.runJob, generateRequestId, Program.bind_eq, Program.bind_eq, Program.bind_assoc] at h
  rcases Program.traces_perform_bind.mp h with ⟨exc, rfl, -⟩ | ⟨hex, rest, rfl, hrest⟩
  · exact .unnamed exc
  have hquiet : (Block.tryExcept PyExc.isException (self.complete jobId running ("req_" ++ hex)
      ⟨running.apiKeyId, running.userId, running.projectId, none⟩) (BatchWorker.fail jobId)).Quiet :=
    (quiet_complete self jobId running _ _).tryExcept fun exc => quiet_fail jobId exc
  obtain ⟨left, final, out, middle, out', last, rfl, htry, hfinal, -⟩ :=
    Block.traces_tryFinally hquiet quiet_leave hrest
  rcases Block.leaves_tryExcept.mp htry with ⟨hbody, -⟩ | ⟨exc, l, body, handled, hexc, rfl, hbody, hhandled⟩
  · exact .returned ⟨_, _, hbody⟩ hfinal
  · rw [List.append_assoc]
    exact .caught ⟨_, _, hbody⟩ hexc hhandled hfinal

/-- The calls of `process_one`, for a job that has been moved to running. -/
structure RunsJob (self : BatchWorker) (calls front : List BatchEvent) (jobId : String) (running : BatchJobRecord)
    (rest : List BatchEvent) : Prop where
  calls : calls = front ++ ⟨.transition jobId .running, .ok (some running)⟩ :: rest
  front : ∀ event ∈ front, event.op.Front
  job : JobTrace self jobId running rest

/-- A call of `process_one` that has moved no job. -/
def BatchOp.Unmoved (op : BatchOp) : Prop := op.Front ∨ ∃ jobId, op = .transition jobId .running

theorem front_cons {op : BatchOp} {answer : Except PyExc op.Res} (hop : op.Front)
    (h : (∀ event ∈ calls, event.op.Unmoved) ∨ ∃ front jobId running rest, RunsJob self calls front jobId running rest) :
    (∀ event ∈ (⟨op, answer⟩ : BatchEvent) :: calls, event.op.Unmoved) ∨
      ∃ front jobId running rest, RunsJob self (⟨op, answer⟩ :: calls) front jobId running rest := by
  rcases h with hunmoved | ⟨front, jobId, running, rest, rfl, hfront, hjob⟩
  · exact .inl (List.forall_mem_cons.mpr ⟨.inl hop, hunmoved⟩)
  · exact .inr ⟨_ :: front, jobId, running, rest, rfl, List.forall_mem_cons.mpr ⟨hop, hfront⟩, hjob⟩

/-- **The calls of `process_one`**: none of its calls has moved a job, or they are those before the job was moved and those
of the `try` statement. -/
theorem traces_processOne (h : self.processOne.Traces calls outcome) :
    (∀ event ∈ calls, event.op.Unmoved) ∨ ∃ front jobId running rest, RunsJob self calls front jobId running rest := by
  have hnone : ∀ {op : BatchOp} {answer : Except PyExc op.Res}, op.Unmoved →
      ∀ event ∈ [(⟨op, answer⟩ : BatchEvent)], event.op.Unmoved := by
    intro op answer hop event hevent
    rw [List.mem_singleton.mp hevent]
    exact hop
  have hempty : ∀ event ∈ ([] : List BatchEvent), event.op.Unmoved := List.forall_mem_nil _
  unfold BatchWorker.processOne at h
  rcases Program.traces_perform_bind.mp h with ⟨exc, rfl, -⟩ | ⟨dequeued, calls, rfl, hget⟩
  · exact .inl (hnone (.inl .dequeue))
  apply front_cons .dequeue
  rcases dequeued with _ | jobId
  · obtain ⟨rfl, -⟩ := hget
    exact .inl hempty
  rcases Program.traces_perform_bind.mp hget with ⟨exc, rfl, -⟩ | ⟨found, calls, rfl, hchecked⟩
  · exact .inl (hnone (.inl (.get jobId)))
  apply front_cons (.get jobId)
  rcases found with _ | job
  · obtain ⟨rfl, -⟩ := hchecked
    exact .inl hempty
  simp only at hchecked
  split at hchecked
  · obtain ⟨rfl, -⟩ := hchecked
    exact .inl hempty
  have hrun : ∀ (start : Option BatchJobRecord → BatchProgram Bool), start none = pure false →
      (∀ running, start (some running) = self.runJob jobId running) →
      ∀ (calls : List BatchEvent) (postponed : Bool), Program.Traces
        (if postponed = true then do
          batchCall (.enqueue jobId)
          pure false
        else batchCall (.transition jobId .running) >>= start : BatchProgram Bool) calls outcome →
      (∀ event ∈ calls, event.op.Unmoved) ∨
        ∃ front jobId running rest, RunsJob self calls front jobId running rest := by
    intro start hstop hstart calls postponed h
    split at h
    · rcases Program.traces_perform_bind.mp h with ⟨exc, rfl, -⟩ | ⟨done, calls, rfl, hend⟩
      · exact .inl (hnone (.inl (.enqueue jobId)))
      · obtain ⟨rfl, -⟩ := hend
        exact .inl (hnone (.inl (.enqueue jobId)))
    · rcases Program.traces_perform_bind.mp h with ⟨exc, rfl, -⟩ | ⟨moved, calls, rfl, hjob⟩
      · exact .inl (hnone (.inr ⟨jobId, rfl⟩))
      · rcases moved with _ | running
        · rw [hstop] at hjob
          obtain ⟨rfl, -⟩ := hjob
          exact .inl (hnone (.inr ⟨jobId, rfl⟩))
        · rw [hstart] at hjob
          exact .inr ⟨[], jobId, running, calls, rfl, List.forall_mem_nil _, traces_runJob hjob⟩
  rw [Program.bind_eq] at hchecked
  unfold BatchWorker.postpones at hchecked
  split at hchecked
  · rw [Program.bind_eq, Program.bind_assoc] at hchecked
    rcases Program.traces_perform_bind.mp hchecked with ⟨exc, rfl, -⟩ | ⟨run, calls, rfl, hrest⟩
    · exact .inl (hnone (.inl .shouldRunJob))
    · exact front_cons .shouldRunJob (hrun _ rfl (fun _ => rfl) calls (!run) hrest)
  · exact hrun _ rfl (fun _ => rfl) calls false hchecked

/-- Tokens are charged with the usage of the response that the worker has got for the request of its job. -/
structure ResponseUsed (worker : BatchWorker) (running : BatchJobRecord) (calls : List BatchEvent) (actualTokens : Int)
    (request : ChatCompletionRequest) (plan : TokenPlan) (response : JsonObject) (usage : UsageRecord) : Prop where
  rebuilt : chatRequestFromBatch worker.lax running = .ok request
  planned : buildTokenPlan request worker.tokenEstimator worker.settings = .ok plan
  answered : ⟨.createChatCompletion (normalizeChatCompletionPayload request), .ok response⟩ ∈ calls
  read : usageFromResponse response plan worker.tokenEstimator = .ok usage
  charged : actualTokens = usage.totalTokens

/-- What the body of the `try` statement may call, after the calls that it has made. -/
def attempting (self : BatchWorker) (running : BatchJobRecord) : Protocol BatchOp BatchOp.Res PyExc (List BatchEvent) where
  may calls
    | .markFailed _ _ _ => False
    | .finalizeTokens _ actualTokens _ =>
        ∃ request plan response usage, ResponseUsed self running calls actualTokens request plan response usage
    | _ => True
  after calls op answer := calls ++ [⟨op, answer⟩]

theorem meets_attempting (jobId : String) (running : BatchJobRecord) (requestId : String) (authContext : AuthContext)
    (l : WorkerLocals) : Block.Meets (attempting self running) (fun _ _ _ => True) [] l
      (self.complete jobId running requestId authContext) := by
  unfold BatchWorker.complete
  rw [Block.meets_lift_bind]
  cases hrequest : chatRequestFromBatch self.lax running with
  | error exc => exact trivial
  | ok requestBody =>
  simp only [Block.seqPost]
  rw [Block.meets_lift_bind]
  cases hplan : buildTokenPlan requestBody self.tokenEstimator self.settings with
  | error exc => exact trivial
  | ok tokenPlan =>
  refine Block.meets_perform_bind trivial (fun _ => trivial) fun lease => ?_
  rw [Block.meets_assign_bind]
  refine Block.meets_perform_bind trivial (fun _ => trivial) fun recordId => ?_
  rw [Block.meets_assign_bind]
  refine Block.meets_perform_bind trivial (fun _ => trivial) fun response => ?_
  rw [Block.meets_lift_bind]
  cases husage : usageFromResponse response tokenPlan self.tokenEstimator with
  | error exc => exact trivial
  | ok usage =>
  refine Block.meets_perform_bind ?_ (fun _ => trivial) fun _ => ?_
  · exact ⟨requestBody, tokenPlan, response, usage, hrequest, hplan, List.mem_append_right _ (List.mem_singleton_self _),
      husage, rfl⟩
  refine Block.meets_perform_bind trivial (fun _ => trivial) fun latencyMs => ?_
  refine Block.meets_perform_bind trivial (fun _ => trivial) fun _ => ?_
  refine Block.meets_perform_bind trivial (fun _ => trivial) fun _ => ?_
  rw [Block.meets_bind, Block.meets_await]
  unfold BatchWorker.emitUsageEvent
  split
  · rw [Program.follows_tryExcept]
    refine Program.follows_perform_bind trivial (fun _ => ?_) fun _ => trivial
    simp only [Program.exceptDone]
    split
    · exact trivial
    · exact trivial
  · exact trivial

/-- What the handler of an exception may call. -/
def handling (jobId : String) (exc : PyExc) : Protocol BatchOp BatchOp.Res PyExc Unit where
  may _
    | .markFailed other code message => other = jobId ∧ code = exc.codeOr "batch_job_failed" ∧ message = exc.text
    | .finalizeTokens _ _ releaseAll => releaseAll = true
    | _ => True
  after _ _ _ := ()

theorem meets_handling (jobId : String) (exc : PyExc) (l : WorkerLocals) :
    Block.Meets (handling jobId exc) (fun _ _ _ => True) () l (BatchWorker.fail jobId exc) := by
  unfold BatchWorker.fail
  rw [Block.meets_locals_bind]
  have hmark : Block.Meets (handling jobId exc) (fun _ _ _ => True) () l
      (Block.await (batchCall (.markFailed jobId (exc.codeOr "batch_job_failed") exc.text)) >>= fun _ => pure true) :=
    Block.meets_perform_bind ⟨rfl, rfl, rfl⟩ (fun _ => trivial) fun _ => trivial
  refine Block.meets_await_bind ?_ (fun _ => trivial) fun _ => Block.meets_await_bind ?_ (fun _ => trivial) fun _ => hmark
  · cases l.admissionLease with
    | none => exact rfl
    | some lease => exact (Program.follows_perform _ _).mpr ⟨rfl, fun _ => rfl⟩
  · cases l.auditRecordId with
    | none => exact rfl
    | some recordId =>
        refine Program.follows_perform_bind trivial (fun _ => rfl) fun latencyMs => ?_
        exact (Program.follows_perform _ _).mpr ⟨trivial, fun _ => rfl⟩

/-- The `finally` block only releases. -/
theorem calls_leave {l l' : WorkerLocals} {out : Except PyExc Unit} (h : BatchWorker.leave.Leaves l calls out l') :
    ∀ event ∈ calls, ∃ lease, event.op = .releaseLease lease := by
  obtain ⟨auditRecordId, admissionLease⟩ := l
  unfold BatchWorker.leave at h
  rw [Block.leaves_locals_bind, Block.leaves_await] at h
  obtain ⟨htraces, -⟩ := h
  cases admissionLease with
  | none =>
      obtain ⟨rfl, -⟩ := htraces
      exact List.forall_mem_nil _
  | some lease =>
      rw [Program.traces_perform.mp htraces]
      intro event hevent
      exact ⟨lease, congrArg Event.op (List.mem_singleton.mp hevent)⟩

/-- Where a call of a job stands in its trace. -/
inductive JobTrace.Place (self : BatchWorker) (jobId : String) (running : BatchJobRecord) (calls : List BatchEvent)
    (event : BatchEvent) : Prop
  | named (hop : event.op = .uuid4)
  | attempted {hex : String} {body more : List BatchEvent} {out : Except PyExc Bool} {l : WorkerLocals}
      (hbody : self.Attempts jobId running body out l) (hcalls : calls = ⟨.uuid4, .ok hex⟩ :: (body ++ more))
      (hevent : event ∈ body)
  | handled {hex : String} {body handled more : List BatchEvent} {exc : PyExc} {out : Except PyExc Bool}
      {l l' : WorkerLocals} (hbody : self.Attempts jobId running body (.error exc) l) (hexc : exc.isException = true)
      (hhandled : (BatchWorker.fail jobId exc).Leaves l handled out l')
      (hcalls : calls = ⟨.uuid4, .ok hex⟩ :: (body ++ (handled ++ more))) (hevent : event ∈ handled)
  | released (lease : AdmissionLease) (hop : event.op = .releaseLease lease)

theorem JobTrace.place {jobId : String} {running : BatchJobRecord} (h : JobTrace self jobId running calls)
    {event : BatchEvent} (hevent : event ∈ calls) : JobTrace.Place self jobId running calls event := by
  cases h with
  | unnamed exc => exact .named (congrArg Event.op (List.mem_singleton.mp hevent))
  | returned hbody hfinal =>
      rcases List.mem_cons.mp hevent with rfl | hevent
      · exact .named rfl
      rcases List.mem_append.mp hevent with hevent | hevent
      · exact .attempted hbody rfl hevent
      · obtain ⟨lease, hop⟩ := calls_leave hfinal _ hevent
        exact .released lease hop
  | caught hbody hexc hhandled hfinal =>
      rcases List.mem_cons.mp hevent with rfl | hevent
      · exact .named rfl
      rcases List.mem_append.mp hevent with hevent | hevent
      · exact .attempted hbody rfl hevent
      rcases List.mem_append.mp hevent with hevent | hevent
      · exact .handled hbody hexc hhandled rfl hevent
      · obtain ⟨lease, hop⟩ := calls_leave hfinal _ hevent
        exact .released lease hop

/-- A call of the body is one that it may make after those before it. -/
theorem attempts_may {jobId : String} {running : BatchJobRecord} {body : List BatchEvent} {out : Except PyExc Bool}
    {l : WorkerLocals} (h : self.Attempts jobId running body out l) {event : BatchEvent} (hevent : event ∈ body) :
    ∃ left right, body = left ++ event :: right ∧ (attempting self running).may left event.op := by
  obtain ⟨requestId, authContext, hleaves⟩ := h
  have hkeeps := ((meets_attempting jobId running requestId authContext _).leaves hleaves).1
  obtain ⟨left, right, rfl⟩ := List.append_of_mem hevent
  have hphase : (attempting self running).phase [] left = left := phase_recording [] left
  exact ⟨left, right, rfl, hphase ▸ hkeeps left event right rfl⟩

/-- **Every charge is the usage of the response** that the worker has got for the request of the job that it has moved. -/
theorem charged_processOne (h : self.processOne.Traces calls outcome) {lease : AdmissionLease} {actualTokens : Int}
    {answer : Except PyExc Unit} (hcharge : ⟨.finalizeTokens lease actualTokens false, answer⟩ ∈ calls) :
    ∃ jobId running request plan response usage, ⟨.transition jobId .running, .ok (some running)⟩ ∈ calls ∧
      ResponseUsed self running calls actualTokens request plan response usage := by
  rcases traces_processOne h with hunmoved | ⟨front, jobId, running, rest, rfl, hfront, hjob⟩
  · rcases hunmoved _ hcharge with hop | ⟨jobId, hop⟩
    · cases hop
    · cases hop
  rcases List.mem_append.mp hcharge with hcharge | hcharge
  · cases hfront _ hcharge
  rcases List.mem_cons.mp hcharge with hcharge | hcharge
  · cases hcharge
  cases hjob.place hcharge with
  | named hop => cases hop
  | released lease hop => cases hop
  | handled hbody hexc hhandled hcalls hevent =>
      obtain ⟨_, hall⟩ := ((meets_handling jobId _ _).leaves hhandled).1.event hevent
      cases hall
  | attempted hbody hcalls hevent =>
      obtain ⟨left, right, rfl, request, plan, response, usage, hused⟩ := attempts_may hbody hevent
      refine ⟨jobId, running, request, plan, response, usage, by simp, { hused with answered := ?_ }⟩
      rw [hcalls]
      have hanswered := hused.answered
      simp [hanswered]

/-- **Every failure is marked with the exception that the `try` statement has caught**, after the calls of its body. -/
theorem marked_processOne (h : self.processOne.Traces calls outcome) {jobId : String} {code : Option String}
    {message : String} {answer : Except PyExc (Option BatchJobRecord)}
    (hmark : ⟨.markFailed jobId code message, answer⟩ ∈ calls) :
    ∃ front running hex body exc l more,
      calls = front ++ (⟨.transition jobId .running, .ok (some running)⟩ :: ⟨.uuid4, .ok hex⟩ :: body) ++ more ∧
      ⟨.markFailed jobId code message, answer⟩ ∉
        front ++ (⟨.transition jobId .running, .ok (some running)⟩ :: ⟨.uuid4, .ok hex⟩ :: body) ∧
      self.Attempts jobId running body (.error exc) l ∧ exc.isException = true ∧
      code = exc.codeOr "batch_job_failed" ∧ message = exc.text := by
  rcases traces_processOne h with hunmoved | ⟨front, moved, running, rest, rfl, hfront, hjob⟩
  · rcases hunmoved _ hmark with hop | ⟨other, hop⟩
    · cases hop
    · cases hop
  have hnotfront : ⟨.markFailed jobId code message, answer⟩ ∉ front := by
    intro hmem
    cases hfront _ hmem
  have hrest : ⟨.markFailed jobId code message, answer⟩ ∈ rest := by
    rcases List.mem_append.mp hmark with hmem | hmem
    · exact absurd hmem hnotfront
    rcases List.mem_cons.mp hmem with hmem | hmem
    · cases hmem
    · exact hmem
  have hnotbody : ∀ {body : List BatchEvent} {out : Except PyExc Bool} {l : WorkerLocals},
      self.Attempts moved running body out l → ⟨.markFailed jobId code message, answer⟩ ∉ body := by
    intro body out l hbody hmem
    obtain ⟨left, right, -, hmay⟩ := attempts_may hbody hmem
    exact hmay
  cases hjob.place hrest with
  | named hop => cases hop
  | released lease hop => cases hop
  | attempted hbody hcalls hevent => exact absurd hevent (hnotbody hbody)
  | @handled hex body handled more exc out l l' hbody hexc hhandled hcalls hevent =>
      obtain ⟨_, rfl, rfl, rfl⟩ := ((meets_handling moved _ _).leaves hhandled).1.event hevent
      refine ⟨front, running, hex, body, exc, l, handled ++ more, ?_, ?_, hbody, hexc, rfl, rfl⟩
      · rw [hcalls]
        simp
      · simp [hnotfront, hnotbody hbody]

end Traces

end GpuInference
