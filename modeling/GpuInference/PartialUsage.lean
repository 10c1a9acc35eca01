import GpuInference.StreamProxy
import GpuInference.StreamRun

/-!
The usage of a streamed response. An event is read before it is sent, and only an event that cannot be read, or whose
measurement raises, is not sent after that; so the text that has been collected when the loop is left is that of the
events sent. Its tokens are counted, whatever has ended the stream.
-/

open Effect

namespace GpuInference

/-- The text of the event that a call sends. -/
def sentText (loads : JsonLoads) : ChatOp → String
  | .yieldEvent event =>
      match streamDeltaText loads event with
      | .ok text => text
      | .error _ => ""
  | _ => ""

/-- The text of the events that have been sent, one after the other. -/
def deliveredText (loads : JsonLoads) (calls : ChatCalls) : String :=
  String.join (calls.map fun event => sentText loads event.op)

section Delivered

variable {loads : JsonLoads}

@[simp] theorem deliveredText_nil : deliveredText loads [] = "" := String.join_nil

@[simp] theorem deliveredText_cons (event : Event ChatOp ChatOp.Res PyExc) (calls : ChatCalls) :
    deliveredText loads (event :: calls) = sentText loads event.op ++ deliveredText loads calls := String.join_cons

@[simp] theorem deliveredText_append (left right : ChatCalls) :
    deliveredText loads (left ++ right) = deliveredText loads left ++ deliveredText loads right := by
  rw [deliveredText, List.map_append, String.join_append]
  rfl

theorem deliveredText_ttftCalls (l : StreamLocals) (event : String) : deliveredText loads (ttftCalls l event) = "" := by
  unfold ttftCalls
  split
  · rfl
  · rfl

/-- Calls that send nothing. -/
theorem deliveredText_empty {calls : ChatCalls} (h : ∀ event ∈ calls, sentText loads event.op = "") :
    deliveredText loads calls = "" := by
  induction calls with
  | nil => rfl
  | cons event calls ih =>
      rw [deliveredText_cons, h event List.mem_cons_self, ih fun other hother => h other (List.mem_cons_of_mem _ hother)]
      rfl

end Delivered

section Loop

variable {app : ChatApp}

/-- The loop adds the text of the events that it sends. -/
theorem loopRun_text {failure : Option PyExc} {events : List String} {l l' : StreamLocals} {calls : ChatCalls}
    {exit : StreamExit} (h : LoopRun app failure events l calls exit l')
    (httft : ∀ event ∈ calls, event.op = .recordStreamTtft → event.answer.isOk = true) :
    l'.completionText = l.completionText ++ deliveredText app.loads calls := by
  induction h with
  | exhausted hfailure => exact (String.append_empty).symm
  | upstream hfailure => exact (String.append_empty).symm
  | polled => exact (String.append_empty).symm
  | poll => exact (String.append_empty).symm
  | unreadable htext => exact (String.append_empty).symm
  | ttft htext hmeasures =>
      have hok := httft _ (List.mem_cons_of_mem _ List.mem_cons_self) rfl
      cases hok
  | @yielded event events l text exc htext =>
      calc (l.sees event text).completionText
          = l.completionText ++ text := rfl
        _ = l.completionText ++ deliveredText app.loads (⟨.isDisconnected, .ok false⟩ ::
              (ttftCalls l event ++ [⟨.yieldEvent event, .error exc⟩])) := by
            simp [deliveredText_ttftCalls, sentText, htext]
  | @next event events l l' text calls exit htext hrest ih =>
      have hlater : ∀ event ∈ calls, event.op = .recordStreamTtft → event.answer.isOk = true := by
        intro other hother
        exact httft other (List.mem_cons_of_mem _ (List.mem_append_right _ (List.mem_cons_of_mem _ hother)))
      calc l'.completionText
          = (l.sees event text).completionText ++ deliveredText app.loads calls := ih hlater
        _ = l.completionText ++ text ++ deliveredText app.loads calls := rfl
        _ = l.completionText ++ deliveredText app.loads (⟨.isDisconnected, .ok false⟩ ::
              (ttftCalls l event ++ ⟨.yieldEvent event, .ok ()⟩ :: calls)) := by
            simp [deliveredText_ttftCalls, sentText, htext, String.append_assoc]

end Loop

/-- The `finally` block sends nothing. -/
theorem deliveredText_final {loads : JsonLoads} {call : ChatCall} {l : StreamLocals} {final : ChatCalls}
    (h : (finallyProtocol app call l).Keeps .closing final) : deliveredText loads final = "" := by
  apply deliveredText_empty
  rintro ⟨op, answer⟩ hevent
  obtain ⟨φ, hmay⟩ := h.event hevent
  cases op
  case yieldEvent event => exact hmay.elim
  all_goals rfl

/-- The text that the `finally` block counts is that of all the events that have been sent. -/
theorem text_of_asked {app : ChatApp} {call : ChatCall} {upstream : UpstreamStream} {loop final : ChatCalls}
    {exit : StreamExit} {l : StreamLocals} (hloop : LoopRun app upstream.failure upstream.events .start loop exit l)
    (hkeeps : (finallyProtocol app call (l.after exit)).Keeps .closing final)
    (httft : ∀ event ∈ askedCalls call upstream loop final, event.op = .recordStreamTtft → event.answer.isOk = true) :
    (l.after exit).completionText = deliveredText app.loads (askedCalls call upstream loop final) := by
  have hmeasured : ∀ event ∈ loop, event.op = .recordStreamTtft → event.answer.isOk = true := by
    intro event hevent
    exact httft event (mem_askedCalls.mpr (.inr (.inr (.inl hevent))))
  calc (l.after exit).completionText
      = l.completionText := after_completionText l exit
    _ = "" ++ deliveredText app.loads loop := loopRun_text hloop hmeasured
    _ = deliveredText app.loads (loop ++ final) := by
        rw [String.empty_append, deliveredText_append, deliveredText_final hkeeps, String.append_empty]
    _ = deliveredText app.loads (askedCalls call upstream loop final) := by
        simp [askedCalls, sentText]

/-- The usage of a stream that has sent this text. -/
def ExactUsage (app : ChatApp) (call : ChatCall) (text : String) (usage : UsageRecord) : Prop :=
  app.tokenEstimator text = .ok usage.completionTokens ∧ usage.promptTokens = call.plan.promptTokens ∧
    usage.totalTokens = call.plan.promptTokens + usage.completionTokens

theorem exactUsage_of_usage {app : ChatApp} {call : ChatCall} {l : StreamLocals} {usage : UsageRecord}
    (h : l.usage app call = .ok usage) : ExactUsage app call l.completionText usage := by
  obtain ⟨completion, hcompletion, hrecord⟩ := bind_eq_ok.mp h
  cases hrecord
  exact ⟨hcompletion, rfl, rfl⟩

/-- **The usage of a stream is that of what has been sent.** The text that the loop leaves for the `finally` block is the
text of the events that it has sent, and the usage and the audit record are written with its tokens. -/
theorem partial_usage_exact (app : ChatApp) (call : ChatCall) :
    (∀ (upstream : UpstreamStream) (loop : ChatCalls) (out : Except PyExc Unit) (l : StreamLocals),
      (Block.tryExcept PyExc.isException (app.streamEvents upstream.failure upstream.events)
        ChatApp.streamFailed).Leaves .start loop out l →
      (∀ event ∈ loop, event.op = .recordStreamTtft → event.answer.isOk = true) →
        l.completionText = deliveredText app.loads loop) ∧
    ∀ (calls : ChatCalls) (outcome : Except PyExc Unit), (app.streamResponse call).Traces calls outcome →
      (∀ event ∈ calls, event.op = .recordStreamTtft → event.answer.isOk = true) →
      (∀ event ∈ calls, ∀ usage, event.op = .recordUsage usage →
        ExactUsage app call (deliveredText app.loads calls) usage) ∧
      ∀ event ∈ calls, ∀ final, event.op = .finalizeAudit final →
        ∃ usage latencyMs errorCode, final = buildAuditFinal call.auditRecordId usage latencyMs errorCode ∧
          ExactUsage app call (deliveredText app.loads calls) usage := by
  constructor
  · intro upstream loop out l hleaves httft
    obtain ⟨exit, left, hloop, rfl, -⟩ := loopRun_of_try app hleaves
    calc (left.after exit).completionText
        = left.completionText := after_completionText left exit
      _ = "" ++ deliveredText app.loads loop := loopRun_text hloop httft
      _ = deliveredText app.loads loop := String.empty_append
  · intro calls outcome htraces httft
    have hcalls := streamCalls_of_traces app call htraces
    -- whatever is written comes from the locals of the loop, and these are the text that has been sent
    have hwritten : ∀ event ∈ calls, event.op.Settles →
        ∃ l, (∃ φ, (finallyProtocol app call l).may φ event.op) ∧
          l.completionText = deliveredText app.loads calls := by
      intro event hevent hsettles
      obtain ⟨upstream, loop, final, exit, l, rfl, hloop, hkeeps, hmay⟩ := hcalls.settled hevent hsettles
      exact ⟨l.after exit, hmay, text_of_asked hloop hkeeps httft⟩
    constructor
    · rintro ⟨op, answer⟩ hevent usage rfl
      obtain ⟨l, ⟨φ, -, husage⟩, htext⟩ := hwritten _ hevent trivial
      rw [← htext]
      exact exactUsage_of_usage husage
    · rintro ⟨op, answer⟩ hevent final rfl
      obtain ⟨l, ⟨φ, -, usage, latencyMs, husage, hfinal⟩, htext⟩ := hwritten _ hevent trivial
      rw [← htext]
      exact ⟨usage, some latencyMs, l.errorCode, hfinal, exactUsage_of_usage husage⟩

/-- A chunk with the text "Hi". -/
def chunk : Json :=
  .obj [("choices", .arr [.obj [("delta", .obj [("content", .str "Hi")])]])]

/-- The JSON text of `chunk`. -/
def chunkText : String := "\x7b\"choices\": [\x7b\"delta\": \x7b\"content\": \"Hi\"\x7d\x7d]\x7d"

/-- The line of an event stream that brings `chunk`. -/
def chunkLine : String := "data: " ++ chunkText

def chunkApp : ChatApp := { plainApp with loads := fun text => .ok (if text = chunkText then some chunk else none) }

/-- Two chunks, sent to a client that takes each as `sent` says; the audit record is finalized as `audited` says. -/
def chunkReply (sent audited : Except PyExc Unit) : (op : ChatOp) → Unit → Except PyExc op.Res × Unit
  | .admitRequest _ _, _ => (.ok ⟨0⟩, ())
  | .startAudit _, _ => (.ok "audit", ())
  | .recordStreamStarted, _ => (.ok (), ())
  | .streamChatCompletion _, _ => (.ok ⟨[.line chunkLine, .line chunkLine], none⟩, ())
  | .isDisconnected, _ => (.ok false, ())
  | .recordStreamTtft, _ => (.ok (), ())
  | .yieldEvent _, _ => (sent, ())
  | .closeStream, _ => (.ok (), ())
  | .finalizeTokens _ _ _, _ => (.ok (), ())
  | .recordUsage _, _ => (.ok (), ())
  | .elapsedMs, _ => (.ok 0, ())
  | .finalizeAudit _, _ => (audited, ())
  | .collect _, _ => (.ok true, ())
  | .releaseLease _, _ => (.ok (), ())
  | .recordStreamFinished, _ => (.ok (), ())
  | _, _ => (.error valueError, ())

/-- The calls of the stream. -/
def chunkStream (sent audited : Except PyExc Unit) : ChatCalls :=
  (chunkApp.streamResponse plainCall).trace (chunkReply sent audited) ()

theorem traces_chunkStream (sent audited : Except PyExc Unit) :
    ∃ outcome, (chunkApp.streamResponse plainCall).Traces (chunkStream sent audited) outcome :=
  ⟨_, Program.traces_trace _ _ _⟩

theorem ttft_chunkStream (sent audited : Except PyExc Unit) :
    ∀ event ∈ chunkStream sent audited, event.op = .recordStreamTtft → event.answer.isOk = true := by
  intro event hevent hop
  rw [Program.eq_of_mem_trace hevent, hop]
  rfl

/-- The client closes the connection when the first chunk is sent. -/
def closingStream : ChatCalls := chunkStream (.error PyExc.generatorExit) (.ok ())

/-- The usage of the first chunk is written. -/
theorem partial_usage_exact_closing :
    ∃ usage, (∃ event ∈ closingStream, event.op = .recordUsage usage) ∧ deliveredText chunkApp.loads closingStream = "Hi" ∧
      ExactUsage chunkApp plainCall (deliveredText chunkApp.loads closingStream) usage := by
  obtain ⟨outcome, htraces⟩ := traces_chunkStream (.error PyExc.generatorExit) (.ok ())
  have hevent : ⟨.recordUsage ⟨8, 1, 9, .completed⟩, .ok ()⟩ ∈ closingStream :=
    List.mem_of_getElem? (show closingStream[9]? = some ⟨.recordUsage ⟨8, 1, 9, .completed⟩, .ok ()⟩ from rfl)
  have hwritten := ((partial_usage_exact chunkApp plainCall).2 _ _ htraces (ttft_chunkStream _ _)).1
  exact ⟨_, ⟨_, hevent, rfl⟩, by rfl, hwritten _ hevent _ rfl⟩

end GpuInference
