import GpuInference.EffectErasure
import GpuInference.HttpResponses

/-!
What a request sees of Sentry. A request with Sentry makes the same calls and ends in the same way as one without, whatever
the SDK answers, and everything that may happen to the one may happen to the other.
-/

open Effect

namespace GpuInference

namespace HttpApp

variable {Op : Type} {Res : Op → Type} {α β : Type}

/-- The application when Sentry has not been initialised. -/
def unmonitored (self : HttpApp Op Res) : HttpApp Op Res := { self with sentryEnabled := false }

def isSdk : HttpOp Op → Bool
  | .sdk _ => true
  | _ => false

/-- A call raises an `Exception`, if it raises. -/
def Mild (outcome : Except HttpExc α) : Prop := ∀ exc, outcome = .error exc → exc.isException = true

/-- The block returns. -/
def Completes (outcome : Except HttpExc α) : Prop := ∀ exc, outcome ≠ .error exc

/-- What a request without Sentry keeps of the locals: no report is ever noted. -/
def unmarked (l : HttpLocals) : HttpLocals := { l with sentryExceptionCaptured := false }

/-- The block makes calls of the SDK only, and at most marks the request. -/
abbrev Aside (good : Except HttpExc α → Prop) (l : HttpLocals) (body : HttpBlock Op Res α) : Prop :=
  Block.Hides isSdk (fun _ => Mild) unmarked good l body

variable {l : HttpLocals}

theorem aside_sdkCall (op : SentryOp) : Aside Mild l (sdkCall op : HttpBlock Op Res op.Res) := by
  refine Block.hides_perform (HttpOp.sdk op : HttpOp Op) rfl ?_
  intro answer hmild
  exact hmild

theorem mild_error {exc : HttpExc} (h : Mild (.error exc : Except HttpExc α)) :
    Mild (.error exc : Except HttpExc β) := by
  intro exc' hexc
  cases hexc
  exact h exc rfl

theorem mild_ok (value : α) : Mild (.ok value : Except HttpExc α) := nofun

theorem aside_setTags (tags : List (String × Option String)) (l : HttpLocals) :
    Aside Mild l (setTags tags : HttpBlock Op Res Unit) := by
  induction tags generalizing l with
  | nil => exact Block.hides_pure (mild_ok ())
  | cons tag tags ih =>
      obtain ⟨key, value⟩ := tag
      cases value with
      | none => exact ih l
      | some value => exact (aside_sdkCall _).bind (fun _ => mild_error) fun _ l' _ _ => ih l'

theorem aside_withScope {enter : SentryOp} {body : HttpBlock Op Res α} (h : ∀ l, Aside Mild l body) :
    Aside Mild l (withScope enter body) :=
  (aside_sdkCall _).bind (fun _ => mild_error) fun _ l' _ _ => h l'

/-- `except Exception` swallows what the SDK raises. -/
theorem aside_swallowed {body : HttpBlock Op Res α} {value : α} (h : Aside Mild l body) :
    Aside Completes l (Block.tryExcept HttpExc.isException body fun _ => pure value) := by
  refine h.tryExcept (fun _ _ => nofun) ?_ fun _ _ _ _ => Block.hides_pure nofun
  intro exc hmild hbase
  rw [hmild exc rfl] at hbase
  cases hbase

theorem aside_captureException (sentryEnabled : Bool) (exc : HttpExc) (tags : List (String × Option String)) :
    Aside Completes l (captureException sentryEnabled exc tags : HttpBlock Op Res (Option String)) := by
  unfold captureException
  split
  · exact Block.hides_pure nofun
  · refine aside_swallowed (aside_withScope fun l => ?_)
    exact (aside_setTags tags l).bind (fun _ => mild_error) fun _ _ _ _ => aside_sdkCall _

theorem aside_bindRequestContext (sentryEnabled : Bool) (request : ClientRequest) (model : Option String)
    (stream : Option Bool) :
    Aside Completes l (bindRequestContext sentryEnabled request model stream : HttpBlock Op Res Unit) := by
  unfold bindRequestContext
  split
  · exact Block.hides_pure nofun
  · refine aside_swallowed (Block.hides_locals_bind (aside_withScope fun l' => ?_))
    refine (aside_setTags _ l').bind (fun _ => mild_error) fun _ _ _ _ => ?_
    split
    · exact aside_sdkCall _
    · exact Block.hides_pure (mild_ok ())

theorem aside_captureRequestException (sentryEnabled : Bool) (request : ClientRequest) (exc : HttpExc)
    (model : Option String) (stream : Option Bool) :
    Aside Completes l (captureRequestException sentryEnabled request exc model stream :
      HttpBlock Op Res (Option String)) := by
  unfold captureRequestException
  apply Block.hides_locals_bind
  split
  · exact Block.hides_pure nofun
  · refine (aside_bindRequestContext _ _ _ _).bind (fun exc h => absurd rfl (h exc)) fun _ _ _ _ => ?_
    refine (aside_captureException _ _ _).bind (fun exc h => absurd rfl (h exc)) fun eventId _ _ _ => ?_
    split
    · exact Block.hides_assign_bind rfl (Block.hides_pure nofun)
    · exact Block.hides_pure nofun

/-- The two requests: their locals agree but for the mark. -/
abbrev Silences (value : α → β → Prop) (body : HttpBlock Op Res α) (body' : HttpBlock Op Res β) : Prop :=
  Block.Erases isSdk (fun _ => Mild) (fun l l' : HttpLocals => l' = unmarked l) value body body'

/-- Both return the same. -/
abbrev Unheard (body body' : HttpBlock Op Res α) : Prop := Silences Eq body body'

/-- Without Sentry the functions of `sentry.py` make no call. -/
theorem silences_aside {value : α → β → Prop} {body : HttpBlock Op Res α} {body' : HttpBlock Op Res β} {b : β}
    (h : ∀ l, Aside Completes l body) (hbody' : ∀ l, body' (unmarked l) = (pure b : HttpBlock Op Res β) (unmarked l))
    (hvalue : ∀ a, value a b) : Silences value body body' := by
  rintro l _ rfl
  rw [hbody' l]
  refine Block.erases_hides h (fun exc hcompletes => hcompletes exc rfl) (fun a _ => hvalue a) ?_ l _ rfl
  rintro l₀ l l' hview rfl
  exact hview.symm

theorem silences_bindRequestContext (sentryEnabled : Bool) (request : ClientRequest) (model : Option String)
    (stream : Option Bool) :
    Silences (fun _ _ => True) (bindRequestContext sentryEnabled request model stream : HttpBlock Op Res Unit)
      (bindRequestContext false request model stream) :=
  silences_aside (fun _ => aside_bindRequestContext _ _ _ _) (fun _ => rfl) fun _ => trivial

theorem silences_captureRequestException (sentryEnabled : Bool) (request : ClientRequest) (exc : HttpExc)
    (model : Option String) (stream : Option Bool) :
    Silences (fun _ _ => True)
      (captureRequestException sentryEnabled request exc model stream : HttpBlock Op Res (Option String))
      (captureRequestException false request exc model stream) := by
  have hcaptured : ∀ tags, (captureException false exc tags : HttpBlock Op Res (Option String)) = pure none :=
    fun tags => if_pos (by simp)
  have hquiet : ∀ l, (captureRequestException false request exc model stream : HttpBlock Op Res (Option String))
      (unmarked l) = (pure none : HttpBlock Op Res (Option String)) (unmarked l) := by
    intro l
    unfold captureRequestException
    simp only [hcaptured]
    rfl
  exact silences_aside (fun _ => aside_captureRequestException _ _ _ _ _) hquiet fun _ => trivial

section Layers

variable (self : HttpApp Op Res) (request : ClientRequest) (hex : String)

theorem silences_inRequest (program : RouteProgram Op Res α) :
    Unheard (inRequest self request program) (inRequest (unmonitored self) request program) := by
  induction program with
  | ret value => exact Block.erases_pure rfl
  | raise exc => exact Block.erases_throw exc
  | call op next ih =>
      cases op with
      | service op =>
          intro l l' hagree
          exact .step rfl fun answer => ih answer l l' hagree
      | bindRequestContext model stream =>
          exact (silences_bindRequestContext _ _ _ _).bind fun _ _ _ => ih _
      | captureRequestException exc model stream =>
          exact (silences_captureRequestException _ _ _ _ _).bind fun _ _ _ => ih _

/-- The locals of both requests hold the same, but for the mark. -/
theorem silences_locals_bind {rest : HttpLocals → HttpBlock Op Res α} {rest' : HttpLocals → HttpBlock Op Res β}
    {value : α → β → Prop} (h : ∀ l, Silences value (rest l) (rest' (unmarked l))) :
    Silences value (Block.locals >>= rest) (Block.locals >>= rest') := by
  apply Block.erases_locals_bind
  rintro l _ rfl
  exact h l

theorem silences_assign_bind {f : HttpLocals → HttpLocals} {rest : Unit → HttpBlock Op Res α}
    {rest' : Unit → HttpBlock Op Res β} {value : α → β → Prop} (hf : ∀ l, f (unmarked l) = unmarked (f l))
    (h : Silences value (rest ()) (rest' ())) : Silences value (Block.assign f >>= rest) (Block.assign f >>= rest') := by
  have hassign : Silences (fun _ _ => True) (Block.assign f : HttpBlock Op Res Unit) (Block.assign f) := by
    apply Block.erases_assign
    rintro l _ rfl
    exact hf l
  exact hassign.bind fun _ _ _ => h

theorem unheard_httpCall (op : HttpOp Op) (hop : isSdk op = false) :
    Unheard (httpCall op : HttpBlock Op Res _) (httpCall op) := Block.erases_perform op hop

theorem unheard_routed : Unheard (routed self request) (routed (unmonitored self) request) := by
  unfold routed
  rw [show (unmonitored self).router = self.router from rfl]
  split
  · exact Block.erases_throw _
  · rename_i route hroute
    refine silences_assign_bind (fun _ => rfl) (silences_locals_bind fun l => ?_)
    refine (silences_inRequest self request _).bind ?_
    rintro returned _ rfl
    exact Block.erases_pure rfl

theorem unheard_errorHandler (exc : HttpExc) :
    Unheard (errorHandler self request exc) (errorHandler (unmonitored self) request exc) := by
  unfold errorHandler
  apply silences_locals_bind
  intro l
  cases exc with
  | app error =>
      refine (silences_captureRequestException _ _ _ _ _).bind fun _ _ _ => ?_
      exact Block.erases_pure rfl
  | http statusCode detail => exact Block.erases_pure rfl
  | validation => exact Block.erases_pure rfl
  | other statusCode code text => exact Block.erases_throw _
  | base name => exact Block.erases_throw _

theorem unheard_exceptionMiddleware :
    Unheard (exceptionMiddleware self request) (exceptionMiddleware (unmonitored self) request) :=
  (unheard_routed self request).tryExcept (unheard_errorHandler self request)

theorem unheard_keyChecked : Unheard (keyChecked request : HttpBlock Op Res _) (keyChecked request) := by
  unfold keyChecked
  apply silences_locals_bind
  intro l
  rw [show (unmarked l).requestId = l.requestId from rfl]
  split
  · exact Block.erases_throw _
  · refine (unheard_httpCall (.authenticate _) rfl).bind ?_
    rintro authContext _ rfl
    exact silences_assign_bind (fun _ => rfl) (Block.erases_pure rfl)

theorem unheard_authenticated : Unheard (authenticated request : HttpBlock Op Res _) (authenticated request) := by
  apply (unheard_keyChecked request).tryExcept
  intro exc
  apply silences_locals_bind
  intro l
  cases exc
  case app error => exact Block.erases_pure rfl
  all_goals exact Block.erases_throw _

variable {callNext callNext' : HttpBlock Op Res (HttpReply Op Res)}

theorem unheard_apiKeyAuth (h : Unheard callNext callNext') :
    Unheard (apiKeyAuth request callNext) (apiKeyAuth request callNext') := by
  unfold apiKeyAuth
  split
  · exact h
  · refine (unheard_authenticated request).bind ?_
    rintro refused _ rfl
    cases refused with
    | none => exact h
    | some response => exact Block.erases_pure rfl

theorem unheard_requestIdMiddleware (h : Unheard callNext callNext') :
    Unheard (requestIdMiddleware request hex callNext) (requestIdMiddleware request hex callNext') := by
  refine silences_assign_bind (fun _ => rfl) (h.bind ?_)
  rintro returned _ rfl
  exact Block.erases_pure rfl

theorem unheard_metricsMiddleware (h : Unheard callNext callNext') :
    Unheard (metricsMiddleware request callNext) (metricsMiddleware request callNext') := by
  have hfinal : Unheard (do
        let l ← Block.locals
        httpCall (.recordHttpRequest ⟨request.method, l.route.getD request.path, l.statusCode, l.errorCode⟩) :
          HttpBlock Op Res Unit)
      (do
        let l ← Block.locals
        httpCall (.recordHttpRequest ⟨request.method, l.route.getD request.path, l.statusCode, l.errorCode⟩)) :=
    silences_locals_bind fun l => unheard_httpCall (.recordHttpRequest _) rfl
  unfold metricsMiddleware
  split
  · exact h
  · refine silences_assign_bind (fun _ => rfl) (Block.Erases.tryFinally ?_ hfinal)
    · apply Block.Erases.tryExcept
      · refine h.bind ?_
        rintro returned _ rfl
        exact silences_assign_bind (fun _ => rfl) (Block.erases_pure rfl)
      · exact fun exc => silences_assign_bind (fun _ => rfl) (Block.erases_throw exc)

theorem unheard_dispatched : Unheard (dispatched self request hex) (dispatched (unmonitored self) request hex) :=
  unheard_metricsMiddleware request (unheard_requestIdMiddleware request hex
    (unheard_apiKeyAuth request (unheard_exceptionMiddleware self request)))

theorem unheard_started (response : HttpResponse) :
    Unheard (started response : HttpBlock Op Res Unit) (started response) :=
  silences_assign_bind (fun _ => rfl) (unheard_httpCall (.send response) rfl)

theorem unheard_streamed (rest : RouteProgram Op Res Unit) :
    Unheard (streamed self request rest) (streamed (unmonitored self) request rest) :=
  (silences_inRequest self request rest).tryExcept fun _ => Block.erases_throw _

theorem unheard_serverError (exc : HttpExc) :
    Unheard (serverError self request exc) (serverError (unmonitored self) request exc) := by
  refine (silences_captureRequestException _ _ _ _ _).bind fun _ _ _ => silences_locals_bind fun l => ?_
  rw [show (unmarked l).responseStarted = l.responseStarted from rfl]
  split
  · exact Block.erases_throw exc
  · exact (unheard_started _).bind fun _ _ _ => Block.erases_throw exc

theorem unheard_served : Unheard (served self request hex) (served (unmonitored self) request hex) := by
  refine Block.Erases.tryExcept ((unheard_dispatched self request hex).bind ?_) (unheard_serverError self request)
  rintro returned _ rfl
  exact (unheard_started _).bind fun _ _ _ => unheard_streamed self request _

end Layers

theorem mild_answer (op : HttpOp Op) (hsdk : isSdk op = true) : ∃ answer : Except HttpExc (op.Res Res), Mild answer := by
  cases op
  case sdk op =>
    cases op
    case captureException exc => exact ⟨.ok none, mild_ok none⟩
    all_goals exact ⟨.ok (), mild_ok ()⟩
  all_goals cases hsdk

theorem alike_eq {outcome outcome' : Except HttpExc α} (h : Block.Alike Eq outcome outcome') : outcome = outcome' := by
  cases h with
  | ok hvalue => exact congrArg Except.ok hvalue
  | error exc => rfl

/-- **Sentry does not affect the application.** What a request does without Sentry is exactly what one with Sentry does,
its calls of the SDK left out, as long as these raise nothing but an `Exception`: the same calls with the same answers, in
the same order, and the same end. -/
theorem sentry_transparent (self : HttpApp Op Res) (request : ClientRequest) (hex : String)
    (seen : List (Event (HttpOp Op) (HttpOp.Res Res) HttpExc)) (outcome : Except HttpExc Unit) :
    (serve (unmonitored self) request hex).Traces seen outcome ↔
      ∃ calls, (serve self request hex).Traces calls outcome ∧ visible isSdk calls = seen ∧
        ∀ event ∈ calls, isSdk event.op = true → Mild event.answer := by
  have herases := (unheard_served self request hex).toProgram (l := .initial) rfl
  constructor
  · intro htraces
    obtain ⟨calls, outcome', hcalls, hends, hvisible, hmild⟩ := herases.exists_traces mild_answer htraces
    obtain rfl := alike_eq hends
    exact ⟨calls, hcalls, hvisible, hmild⟩
  · rintro ⟨calls, hcalls, rfl, hmild⟩
    obtain ⟨outcome', htraces, hends⟩ := herases.traces hcalls hmild
    rw [alike_eq hends]
    exact htraces

end HttpApp

end GpuInference
