import GpuInference.AccountingProtocol
import GpuInference.EffectFrame

/-!
The calls of a chat request, part by part. What follows its audit start admits nothing and starts no audit again,
and what settles a streamed response at its end sends nothing.
-/

open Effect

namespace GpuInference

/-- The calls of a request, with their answers. -/
abbrev ChatCalls := List (Event ChatOp ChatOp.Res PyExc)

/-- A call that settles a request: its accounting, its release, and the closing of its stream. -/
def ChatOp.Settles : ChatOp → Prop
  | finalizeTokens _ _ _ => True
  | releaseLease _ => True
  | finalizeAudit _ => True
  | closeStream => True
  | recordUsage _ => True
  | collect _ => True
  | elapsedMs => True
  | recordStreamFinished => True
  | _ => False

/-- A call of a request that has been admitted and whose audit record has been started. -/
def ChatOp.Responds : ChatOp → Prop
  | admitRequest _ _ => False
  | startAudit _ => False
  | _ => True

theorem ChatOp.Settles.responds {op : ChatOp} (h : op.Settles) : op.Responds := by
  cases op
  case admitRequest authContext estimatedTokens => exact h
  case startAudit audit => exact h
  all_goals exact trivial

section Makes

variable {may : ChatOp → Prop}

theorem makes_chatCall {op : ChatOp} (h : may op) : (chatCall op).Makes may := Program.makes_perform h

theorem makes_await_chatCall {op : ChatOp} (h : may op) :
    (Block.await (chatCall op) : StreamBlock op.Res).Makes may :=
  Block.makes_await (makes_chatCall h)

end Makes

theorem makes_emitUsageAnalytics (event : UsageEvent) : (emitUsageAnalytics event).Makes ChatOp.Settles := by
  refine Program.Makes.tryExcept ?_ fun _ => Program.makes_ret ()
  exact (makes_chatCall trivial).bind fun _ => Program.makes_ret ()

namespace ChatApp

variable (app : ChatApp) (call : ChatCall)

/-- The `finally` block settles the request. -/
theorem makes_streamFinally : (app.streamFinally call).Makes ChatOp.Settles := by
  unfold streamFinally
  refine (makes_await_chatCall trivial).bind fun _ => ?_
  refine (makes_await_chatCall trivial).bind fun _ => ?_
  refine (makes_await_chatCall trivial).bind fun _ => ?_
  refine Block.makes_locals.bind fun l => ?_
  refine (Block.makes_lift _).bind fun usage => ?_
  refine (makes_await_chatCall trivial).bind fun _ => ?_
  refine (makes_await_chatCall trivial).bind fun _ => ?_
  refine (makes_await_chatCall trivial).bind fun latencyMs => ?_
  refine (makes_await_chatCall trivial).bind fun _ => ?_
  refine (Block.makes_await (makes_emitUsageAnalytics _)).bind fun _ => ?_
  refine (makes_await_chatCall trivial).bind fun _ => ?_
  exact makes_await_chatCall trivial

theorem makes_streamFailed (may : ChatOp → Prop) (exc : PyExc) : (streamFailed exc).Makes may :=
  (Block.makes_assign _).bind fun _ => Block.makes_throw exc

theorem makes_streamEvents (failure : Option PyExc) (events : List String) :
    (app.streamEvents failure events).Makes ChatOp.Responds := by
  induction events with
  | nil =>
      cases failure with
      | none => exact Block.makes_pure ()
      | some exc => exact Block.makes_throw exc
  | cons event events ih =>
      have hyield : (Block.await (chatCall (.yieldEvent event)) >>= fun _ =>
          app.streamEvents failure events).Makes ChatOp.Responds :=
        (makes_await_chatCall trivial).bind fun _ => ih
      rw [streamEvents]
      refine (makes_await_chatCall trivial).bind fun disconnected => ?_
      split
      · exact Block.makes_assign _
      · refine (Block.makes_lift _).bind fun text => (Block.makes_assign _).bind fun _ => ?_
        refine Block.makes_locals.bind fun l => ?_
        split
        · exact (makes_await_chatCall trivial).bind fun _ => (Block.makes_assign _).bind fun _ => hyield
        · exact hyield

theorem makes_streamResponse : (app.streamResponse call).Makes ChatOp.Responds := by
  unfold streamResponse
  refine (makes_chatCall trivial).bind fun _ => (makes_chatCall trivial).bind fun upstream => ?_
  refine Block.Makes.toProgram ?_ _
  refine ((app.makes_streamEvents _ _).tryExcept (makes_streamFailed _)).tryFinally ?_
  exact fun l => (app.makes_streamFinally call l).mono fun _ => ChatOp.Settles.responds

/-- A request that is not streamed admits nothing and starts no audit after its own. -/
theorem makes_respond : (app.respond false call).Makes ChatOp.Responds := by
  have hemit : ∀ event, (emitUsageAnalytics event).Makes ChatOp.Responds := fun event =>
    (makes_emitUsageAnalytics event).mono fun _ => ChatOp.Settles.responds
  have hcomplete : (app.complete call).Makes ChatOp.Responds := by
    unfold complete
    refine (makes_chatCall trivial).bind fun response => (Program.makes_lift _).bind fun usage => ?_
    refine (makes_chatCall trivial).bind fun _ => (makes_chatCall trivial).bind fun _ => ?_
    refine (makes_chatCall trivial).bind fun latencyMs => (makes_chatCall trivial).bind fun _ => ?_
    refine (hemit _).bind fun _ => (Program.makes_lift _).bind fun rendered => ?_
    exact Program.makes_ret _
  have hfail : ∀ exc, (fail call exc).Makes ChatOp.Responds := by
    intro exc
    refine (makes_chatCall trivial).bind fun _ => (makes_chatCall trivial).bind fun _ => ?_
    refine (makes_chatCall trivial).bind fun latencyMs => (makes_chatCall trivial).bind fun _ => ?_
    exact (hemit _).bind fun _ => Program.makes_raise exc
  exact (hcomplete.tryExcept hfail).tryFinally (makes_chatCall trivial)

/-- The handler from the audit start on, and then the body of a streamed response. -/
def served (stream : Bool) : ChatProgram Unit :=
  (app.respond stream call).bind fun
    | .json _ => .ret ()
    | .stream body => body

theorem makes_served (stream : Bool) : (app.served call stream).Makes ChatOp.Responds := by
  cases stream with
  | true => exact app.makes_streamResponse call
  | false =>
      have hfollows : (app.respond false call).Follows (chatProtocol fun _ => True)
          (fun _ outcome => NotStreamed outcome) .admitted := follows_respond app trivial
      refine (app.makes_respond call).bind_follows hfollows ?_
      intro ψ response hresponse
      cases response with
      | json response => exact Program.makes_ret ()
      | stream body => exact absurd rfl (hresponse body)

/-- The calls of a request whose model is allowed and whose tokens can be planned. -/
theorem serve_eq {requestBody : ChatCompletionRequest} {authContext : AuthContext} {plan : TokenPlan}
    (hmodel : ensureModelAllowed authContext requestBody.model = .ok ())
    (hplan : buildTokenPlan requestBody app.tokenEstimator app.settings = .ok plan) (requestId : String) :
    app.serve requestBody (some authContext) requestId =
      (chatCall (.admitRequest authContext plan.estimatedTotalTokens)).bind fun lease =>
        (chatCall (.startAudit
          (buildAuditStart app.sha256 requestId authContext requestBody.model requestBody.messages))).bind
          fun auditRecordId => app.served {
            authContext, requestId, model := requestBody.model, plan
            payload := normalizeChatCompletionPayload requestBody
            lease, auditRecordId } requestBody.stream := by
  unfold serve createChatCompletion
  simp only [Program.bind_eq, Program.lift_ok, Program.ret_bind, hmodel, hplan, Program.bind_assoc]
  rfl

end ChatApp

end GpuInference
