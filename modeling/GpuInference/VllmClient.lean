import GpuInference.StreamProxy

/-!
The client of the vLLM server. What goes wrong upstream is raised as one of the public errors, and a timeout, a status or a
response that is refused is counted by its code. The response of a stream is closed whatever happens while it is read.
-/

namespace GpuInference

open Effect

/-- What httpx raises. A timeout is an `httpx.HTTPError`, too; `httpError` is any other one. -/
inductive HttpxExc where
  | timeoutException
  | httpError
  | other (exc : PyExc)
  deriving DecidableEq, Repr

/-- What `response.json()` raises. -/
inductive JsonExc where
  | valueError
  | other (exc : PyExc)

structure HttpxResponse where
  statusCode : Int
  json : Except JsonExc Json

/-- A response that is read line by line: its lines, and what reading them raises in the end, if anything. -/
structure HttpxStream where
  statusCode : Int
  lines : List String
  failure : Option HttpxExc

/-- The calls of the HTTP client, and the suspensions of the generator that passes the lines on. -/
inductive HttpxOp where
  | get (url : String)
  | post (url : String) (json : JsonObject)
  | stream (url : String) (json : JsonObject)
  | closeResponse
  | yieldLine (line : String)

abbrev HttpxOp.Res : HttpxOp → Type
  | get _ => HttpxResponse
  | post _ _ => HttpxResponse
  | stream _ _ => HttpxStream
  | closeResponse => Unit
  | yieldLine _ => Unit

inductive VllmOp where
  | httpx (op : HttpxOp)
  | recordVllmUpstreamError (errorCode : String)

abbrev VllmOp.Res : VllmOp → Type
  | httpx op => op.Res
  | recordVllmUpstreamError _ => Unit

inductive VllmExc where
  | httpx (exc : HttpxExc)
  | app (error : AppError)
  deriving DecidableEq, Repr

/-- What `except httpx.HTTPError` catches. -/
def VllmExc.isHttpError : VllmExc → Bool
  | httpx .timeoutException => true
  | httpx .httpError => true
  | httpx (.other _) => false
  | app _ => false

abbrev VllmProgram := Program VllmOp VllmOp.Res VllmExc

def httpxCall (op : HttpxOp) : VllmProgram op.Res := Program.perform (VllmOp.httpx op)

/-- An error that is counted when it is made. -/
def recorded (error : AppError) : VllmProgram AppError := do
  Program.perform (VllmOp.recordVllmUpstreamError error.code)
  pure error

def upstreamTimeout : AppError := ⟨"vLLM upstream timed out", "upstream_timeout", 504, "server_error", none⟩

def upstreamStatus (statusCode : Int) : AppError :=
  ⟨"vLLM upstream returned HTTP " ++ toString statusCode, "upstream_error", 502, "server_error", none⟩

def invalidResponse : AppError :=
  ⟨"vLLM upstream returned an invalid response", "upstream_invalid_response", 502, "server_error", none⟩

/-- The error of a request that fails otherwise. It is made where it is raised, and is not counted. -/
def requestFailed : AppError := ⟨"vLLM upstream request failed", "upstream_error", 502, "server_error", none⟩

/-- `timeout_error`. -/
def timeoutError : VllmProgram AppError := recorded upstreamTimeout

/-- `upstream_status_error`. -/
def upstreamStatusError (statusCode : Int) : VllmProgram AppError := recorded (upstreamStatus statusCode)

/-- `invalid_response_error`. -/
def invalidResponseError : VllmProgram AppError := recorded invalidResponse

def raiseError {α : Type} (error : VllmProgram AppError) : VllmProgram α := do
  let error ← error
  .raise (.app error)

/-- The two `except` clauses around each of the requests. -/
def translate {α : Type} : VllmExc → VllmProgram α
  | .httpx .timeoutException => raiseError timeoutError
  | _ => .raise (.app requestFailed)

def overHttpx {α : Type} (body : VllmProgram α) : VllmProgram α :=
  Program.tryExcept VllmExc.isHttpError body translate

namespace VllmClient

/-- `_raise_for_upstream_status`. -/
def raiseForUpstreamStatus (statusCode : Int) : VllmProgram Unit :=
  if 400 ≤ statusCode then raiseError (upstreamStatusError statusCode) else pure ()

/-- The object that a response is parsed as. -/
def parsedObject (response : HttpxResponse) : VllmProgram JsonObject :=
  match response.json with
  | .error .valueError => raiseError invalidResponseError
  | .error (.other exc) => .raise (.httpx (.other exc))
  | .ok (.obj fields) => pure fields
  | .ok _ => raiseError invalidResponseError

/-- `list_models`. -/
def listModels : VllmProgram JsonObject := do
  let response ← overHttpx (httpxCall (.get "/v1/models"))
  raiseForUpstreamStatus response.statusCode
  parsedObject response

/-- `_post_chat_completion`. -/
def postChatCompletion (payload : JsonObject) : VllmProgram HttpxResponse := do
  let response ← overHttpx (httpxCall (.post "/v1/chat/completions" payload))
  raiseForUpstreamStatus response.statusCode
  pure response

/-- `create_chat_completion`. -/
def createChatCompletion (payload : JsonObject) : VllmProgram JsonObject := do
  let response ← postChatCompletion payload
  parsedObject response

def yieldLines : List String → VllmProgram Unit
  | [] => pure ()
  | line :: lines => do
      httpxCall (.yieldLine line)
      yieldLines lines

/-- The lines that are passed on, and what ends them. -/
def readLines (response : HttpxStream) : VllmProgram Unit := do
  raiseForUpstreamStatus response.statusCode
  yieldLines (VLLMClient.streamChatCompletion response.lines)
  match response.failure with
  | none => pure ()
  | some exc => .raise (.httpx exc)

/-- `stream_chat_completion`. -/
def streamChatCompletion (payload : JsonObject) : VllmProgram Unit :=
  overHttpx do
    let response ← httpxCall (.stream "/v1/chat/completions" (JsonObject.set payload "stream" (.bool true)))
    Program.tryFinally (readLines response) (httpxCall .closeResponse)

end VllmClient

inductive VllmCall where
  | listModels
  | createChatCompletion (payload : JsonObject)
  | streamChatCompletion (payload : JsonObject)

def VllmCall.program : VllmCall → VllmProgram Unit
  | listModels => VllmClient.listModels.bind fun _ => pure ()
  | createChatCompletion payload => (VllmClient.createChatCompletion payload).bind fun _ => pure ()
  | streamChatCompletion payload => VllmClient.streamChatCompletion payload

/-- What is behind httpx, the codes that have been counted, and how many streamed responses are open. -/
structure VllmState (σ : Type) where
  world : σ
  errors : List String
  opened : Nat
  deriving DecidableEq, Repr

/-- The open responses after a call that has returned, or raised. -/
def HttpxOp.openedAfter (opened : Nat) (returned : Bool) : HttpxOp → Nat
  | stream _ _ => if returned then opened + 1 else opened
  | closeResponse => opened - 1
  | get _ => opened
  | post _ _ => opened
  | yieldLine _ => opened

section Runs

variable {σ : Type} (httpx : (op : HttpxOp) → σ → Except HttpxExc op.Res × σ)

def answerVllm : (op : VllmOp) → VllmState σ → Except VllmExc op.Res × VllmState σ
  | .httpx op, s =>
      ((httpx op s.world).1.mapError .httpx,
        ⟨(httpx op s.world).2, s.errors, op.openedAfter s.opened (httpx op s.world).1.isOk⟩)
  | .recordVllmUpstreamError errorCode, s => (.ok (), { s with errors := s.errors ++ [errorCode] })

/-- One call of the client after the other, each with its outcome. -/
def runCalls : List VllmCall → VllmState σ → List (Except VllmExc Unit) × VllmState σ
  | [], s => ([], s)
  | call :: calls, s =>
      let (outcome, s) := call.program.run (answerVllm httpx) s
      let (outcomes, s) := runCalls calls s
      (outcome :: outcomes, s)

end Runs

/-- The codes that are counted for a call that has raised. -/
def VllmExc.counted : VllmExc → List String
  | httpx _ => []
  | app error => if error = requestFailed then [] else [error.code]

/-- The errors that the client raises itself. -/
inductive PublicError : AppError → Prop
  | timeout : PublicError upstreamTimeout
  | status (statusCode : Int) (hstatus : 400 ≤ statusCode) : PublicError (upstreamStatus statusCode)
  | invalid : PublicError invalidResponse
  | failed : PublicError requestFailed

def VllmExc.Public : VllmExc → Prop
  | httpx _ => True
  | app error => PublicError error

/-- The codes that are counted for an outcome. -/
def countedOutcome : Except VllmExc Unit → List String
  | .ok _ => []
  | .error exc => exc.counted

/-- From a state to the outcome of a program: the error that is raised has been counted, and no response is left open. -/
def Accounted {σ α : Type} (s : VllmState σ) : Except VllmExc α × VllmState σ → Prop
  | (.ok _, s') => s'.errors = s.errors ∧ s'.opened = s.opened
  | (.error exc, s') => s'.errors = s.errors ++ exc.counted ∧ s'.opened = s.opened ∧ exc.Public

theorem Accounted.of_same {σ α : Type} {s s' : VllmState σ} {result : Except VllmExc α × VllmState σ}
    (h : Accounted s' result) (herrors : s'.errors = s.errors) (hopened : s'.opened = s.opened) : Accounted s result := by
  obtain ⟨outcome, last⟩ := result
  cases outcome with
  | ok value => exact ⟨h.1.trans herrors, h.2.trans hopened⟩
  | error exc => exact ⟨by rw [← herrors]; exact h.1, h.2.1.trans hopened, h.2.2⟩

theorem upstreamStatus_ne (statusCode : Int) : upstreamStatus statusCode ≠ requestFailed := by
  intro hsame
  have hstatus : ("vLLM upstream returned HTTP " ++ toString statusCode).toList[16]? = some 't' := by
    have hlength : 16 < "vLLM upstream returned HTTP ".toList.length := by decide
    have hletter : "vLLM upstream returned HTTP ".toList[16]? = some 't' := rfl
    rw [String.toList_append, List.getElem?_append_left hlength, hletter]
  have hfailed : "vLLM upstream request failed".toList[16]? = some 'q' := rfl
  have hmessage : "vLLM upstream returned HTTP " ++ toString statusCode = "vLLM upstream request failed" :=
    congrArg AppError.message hsame
  rw [hmessage, hfailed] at hstatus
  cases hstatus

section Counts

variable {σ : Type} (httpx : (op : HttpxOp) → σ → Except HttpxExc op.Res × σ)

def Counts {α : Type} (body : VllmProgram α) : Prop :=
  ∀ s : VllmState σ, Accounted s (body.run (answerVllm httpx) s)

variable {httpx} {α β : Type}

theorem Counts.ret (value : α) : Counts httpx (.ret value : VllmProgram α) := fun _ => ⟨rfl, rfl⟩

theorem Counts.raise {exc : VllmExc} (hcounted : exc.counted = []) (hpublic : exc.Public) :
    Counts httpx (.raise exc : VllmProgram α) := by
  intro s
  rw [Program.run_raise]
  exact ⟨by rw [hcounted, List.append_nil], rfl, hpublic⟩

theorem Counts.raiseError {error : AppError} (hcounted : error ≠ requestFailed) (hpublic : PublicError error) :
    Counts httpx (raiseError (recorded error) : VllmProgram α) := by
  intro s
  have hrun : (GpuInference.raiseError (recorded error) : VllmProgram α).run (answerVllm httpx) s =
      (.error (.app error), { s with errors := s.errors ++ [error.code] }) := rfl
  rw [hrun]
  refine ⟨?_, rfl, hpublic⟩
  rw [VllmExc.counted, if_neg hcounted]

theorem Counts.bind {body : VllmProgram α} {rest : α → VllmProgram β} (h : Counts httpx body)
    (hrest : ∀ value, Counts httpx (rest value)) : Counts httpx (body.bind rest) := by
  intro s
  rw [Program.run_bind]
  have hbody := h s
  rcases hrun : body.run (answerVllm httpx) s with ⟨exc | value, s'⟩
  · rw [hrun] at hbody
    exact hbody
  · rw [hrun] at hbody
    exact (hrest value s').of_same hbody.1 hbody.2

/-- A call of httpx that neither opens nor closes a response. -/
theorem Counts.httpxCall {op : HttpxOp} (hopened : ∀ opened returned, op.openedAfter opened returned = opened) :
    Counts httpx (httpxCall op) := by
  intro s
  rw [GpuInference.httpxCall, Program.run_perform, answerVllm, hopened]
  cases (httpx op s.world).1 with
  | ok value => exact ⟨rfl, rfl⟩
  | error exc => exact ⟨(List.append_nil _).symm, rfl, trivial⟩

theorem Counts.translate (exc : VllmExc) : Counts httpx (translate exc : VllmProgram α) := by
  unfold GpuInference.translate
  split
  · exact .raiseError (by decide) .timeout
  · exact .raise (by rw [VllmExc.counted, if_pos rfl]) PublicError.failed

theorem Counts.overHttpx {body : VllmProgram α} (h : Counts httpx body) : Counts httpx (overHttpx body) := by
  intro s
  rw [GpuInference.overHttpx, Program.run_tryExcept]
  have hbody := h s
  rcases hrun : body.run (answerVllm httpx) s with ⟨exc | value, s'⟩
  · rw [hrun] at hbody
    obtain ⟨herrors, hopened, hpublic⟩ := hbody
    change Accounted s (if exc.isHttpError = true then (GpuInference.translate exc).run (answerVllm httpx) s'
      else (.error exc, s'))
    split
    · rename_i hcaught
      have huncounted : exc.counted = [] := by
        cases exc with
        | httpx exc => rfl
        | app error => cases hcaught
      rw [huncounted, List.append_nil] at herrors
      exact (Counts.translate exc s').of_same herrors hopened
    · exact ⟨herrors, hopened, hpublic⟩
  · rw [hrun] at hbody
    exact hbody

/-- A response that has been opened is read, and closed. -/
theorem Counts.closing (hcloses : ∀ world, (httpx .closeResponse world).1 = .ok ()) {body : VllmProgram α}
    (h : Counts httpx body) (s : VllmState σ) :
    Accounted s ((Program.tryFinally body (GpuInference.httpxCall .closeResponse)).run (answerVllm httpx)
      ⟨s.world, s.errors, s.opened + 1⟩) := by
  have hclosed : ∀ s' : VllmState σ, (GpuInference.httpxCall .closeResponse).run (answerVllm httpx) s' =
      (.ok (), ⟨(httpx .closeResponse s'.world).2, s'.errors, s'.opened - 1⟩) := by
    intro s'
    rw [GpuInference.httpxCall, Program.run_perform, answerVllm, hcloses]
    rfl
  rw [Program.run_tryFinally]
  have hbody := h ⟨s.world, s.errors, s.opened + 1⟩
  rcases hrun : body.run (answerVllm httpx) ⟨s.world, s.errors, s.opened + 1⟩ with ⟨exc | value, s'⟩
  · rw [hrun] at hbody
    simp only [hclosed]
    exact ⟨hbody.1, by rw [hbody.2.1]; rfl, hbody.2.2⟩
  · rw [hrun] at hbody
    simp only [hclosed]
    exact ⟨hbody.1, by rw [hbody.2]; rfl⟩

theorem counts_raiseForUpstreamStatus (statusCode : Int) :
    Counts httpx (VllmClient.raiseForUpstreamStatus statusCode) := by
  unfold VllmClient.raiseForUpstreamStatus
  split
  · exact .raiseError (upstreamStatus_ne statusCode) (.status statusCode ‹_›)
  · exact .ret ()

theorem counts_parsedObject (response : HttpxResponse) : Counts httpx (VllmClient.parsedObject response) := by
  unfold VllmClient.parsedObject
  split
  · exact .raiseError (by decide) .invalid
  · exact .raise rfl trivial
  · exact .ret _
  · exact .raiseError (by decide) .invalid

theorem counts_readLines (response : HttpxStream) : Counts httpx (VllmClient.readLines response) := by
  have hlines : ∀ lines, Counts httpx (VllmClient.yieldLines lines) := by
    intro lines
    induction lines with
    | nil => exact .ret ()
    | cons line lines ih => exact Counts.bind (.httpxCall fun _ _ => rfl) fun _ => ih
  refine Counts.bind (counts_raiseForUpstreamStatus response.statusCode) fun _ => Counts.bind (hlines _) fun _ => ?_
  split
  · exact .ret ()
  · exact .raise rfl trivial

theorem counts_listModels : Counts httpx VllmClient.listModels := by
  refine Counts.bind (Counts.overHttpx (.httpxCall fun _ _ => rfl)) fun response => ?_
  exact Counts.bind (counts_raiseForUpstreamStatus response.statusCode) fun _ => counts_parsedObject response

theorem counts_createChatCompletion (payload : JsonObject) : Counts httpx (VllmClient.createChatCompletion payload) := by
  have hpost : Counts httpx (VllmClient.postChatCompletion payload) := by
    refine Counts.bind (Counts.overHttpx (.httpxCall fun _ _ => rfl)) fun response => ?_
    exact Counts.bind (counts_raiseForUpstreamStatus response.statusCode) fun _ => .ret response
  exact Counts.bind hpost counts_parsedObject

theorem counts_streamChatCompletion (hcloses : ∀ world, (httpx .closeResponse world).1 = .ok ()) (payload : JsonObject) :
    Counts httpx (VllmClient.streamChatCompletion payload) := by
  refine Counts.overHttpx fun s => ?_
  rw [Program.bind_eq, Program.run_bind, GpuInference.httpxCall, Program.run_perform, answerVllm]
  cases (httpx (.stream "/v1/chat/completions" (JsonObject.set payload "stream" (.bool true))) s.world).1 with
  | error exc => exact ⟨(List.append_nil _).symm, rfl, trivial⟩
  | ok response => exact (counts_readLines response).closing hcloses ⟨_, s.errors, s.opened⟩

theorem counts_program (hcloses : ∀ world, (httpx .closeResponse world).1 = .ok ()) (call : VllmCall) :
    Counts httpx call.program := by
  cases call with
  | listModels => exact Counts.bind counts_listModels fun _ => .ret ()
  | createChatCompletion payload => exact Counts.bind (counts_createChatCompletion payload) fun _ => .ret ()
  | streamChatCompletion payload => exact counts_streamChatCompletion hcloses payload

end Counts

section Raised

variable {σ : Type} (httpx : (op : HttpxOp) → σ → Except HttpxExc op.Res × σ)

/-- Whatever httpx does, the program raises no error of httpx. -/
def Translates {α : Type} (body : VllmProgram α) : Prop :=
  ∀ (s : VllmState σ) (exc : VllmExc), (body.run (answerVllm httpx) s).1 = .error exc → exc.isHttpError = false

variable {httpx} {α β : Type}

theorem Translates.bind {body : VllmProgram α} {rest : α → VllmProgram β} (h : Translates httpx body)
    (hrest : ∀ value, Translates httpx (rest value)) : Translates httpx (body.bind rest) := by
  intro s exc hraised
  rw [Program.run_bind] at hraised
  have hbody := h s
  rcases hrun : body.run (answerVllm httpx) s with ⟨first | value, s'⟩
  · rw [hrun] at hbody hraised
    cases hraised
    exact hbody exc rfl
  · rw [hrun] at hraised
    exact hrest value s' exc hraised

theorem Translates.ret (value : α) : Translates httpx (.ret value : VllmProgram α) := by
  intro s exc hraised
  cases hraised

theorem Translates.raiseError (error : AppError) : Translates httpx (raiseError (recorded error) : VllmProgram α) := by
  intro s exc hraised
  cases hraised
  rfl

theorem Translates.overHttpx (body : VllmProgram α) : Translates httpx (overHttpx body) := by
  intro s exc hraised
  rw [GpuInference.overHttpx, Program.run_tryExcept] at hraised
  rcases hrun : body.run (answerVllm httpx) s with ⟨first | value, s'⟩
  · rw [hrun] at hraised
    change (if first.isHttpError = true then (translate first).run (answerVllm httpx) s'
      else (.error first, s')).1 = .error exc at hraised
    split at hraised
    · unfold translate at hraised
      split at hraised
      · exact Translates.raiseError upstreamTimeout s' exc hraised
      · cases hraised
        rfl
    · rename_i huncaught
      cases hraised
      exact Bool.not_eq_true _ ▸ huncaught
  · rw [hrun] at hraised
    cases hraised

theorem translates_raiseForUpstreamStatus (statusCode : Int) :
    Translates httpx (VllmClient.raiseForUpstreamStatus statusCode) := by
  unfold VllmClient.raiseForUpstreamStatus
  split
  · exact .raiseError (upstreamStatus statusCode)
  · exact .ret ()

theorem translates_parsedObject (response : HttpxResponse) : Translates httpx (VllmClient.parsedObject response) := by
  unfold VllmClient.parsedObject
  split
  · exact .raiseError invalidResponse
  · intro s exc hraised
    cases hraised
    rfl
  · exact .ret _
  · exact .raiseError invalidResponse

theorem translates_program (call : VllmCall) : Translates httpx call.program := by
  cases call with
  | listModels =>
      refine Translates.bind (Translates.bind (.overHttpx _) fun response => ?_) fun _ => .ret ()
      exact .bind (translates_raiseForUpstreamStatus response.statusCode) fun _ => translates_parsedObject response
  | createChatCompletion payload =>
      refine Translates.bind (Translates.bind (Translates.bind (.overHttpx _) fun response => ?_) ?_) fun _ => .ret ()
      · exact .bind (translates_raiseForUpstreamStatus response.statusCode) fun _ => .ret response
      · exact translates_parsedObject
  | streamChatCompletion payload => exact .overHttpx _

end Raised

/-- **Upstream errors are counted by their code.** Whatever httpx does, what the calls of the client raise is one of the
public errors or no error of httpx; the codes that are counted are those of the public errors that have been raised, in
order, without the requests that could not be sent; and no response stays open. -/
theorem upstream_errors_counted {σ : Type} (httpx : (op : HttpxOp) → σ → Except HttpxExc op.Res × σ)
    (hcloses : ∀ world, (httpx .closeResponse world).1 = .ok ()) (calls : List VllmCall) (s : VllmState σ) :
    (runCalls httpx calls s).2.errors = s.errors ++ (runCalls httpx calls s).1.flatMap countedOutcome ∧
      (runCalls httpx calls s).2.opened = s.opened ∧
      ∀ exc, .error exc ∈ (runCalls httpx calls s).1 → exc.Public ∧ exc.isHttpError = false := by
  induction calls generalizing s with
  | nil => exact ⟨(List.append_nil _).symm, rfl, fun exc hexc => absurd hexc List.not_mem_nil⟩
  | cons call calls ih =>
      have hcall := counts_program hcloses call s
      have hraised : ∀ exc, (call.program.run (answerVllm httpx) s).1 = .error exc → exc.isHttpError = false :=
        translates_program call s
      rcases hrun : call.program.run (answerVllm httpx) s with ⟨exc | value, s'⟩
      · rw [hrun] at hcall hraised
        obtain ⟨herrors, hopened, hpublic⟩ := hcall
        obtain ⟨hlast, hclosed, hall⟩ := ih s'
        simp only [runCalls, hrun, List.flatMap_cons, List.mem_cons]
        refine ⟨?_, hclosed.trans hopened, ?_⟩
        · rw [hlast, herrors, List.append_assoc]
          rfl
        · rintro raised (hsame | hrest)
          · cases hsame
            exact ⟨hpublic, hraised exc rfl⟩
          · exact hall raised hrest
      · rw [hrun] at hcall
        obtain ⟨hlast, hclosed, hall⟩ := ih s'
        simp only [runCalls, hrun, List.flatMap_cons, List.mem_cons]
        refine ⟨?_, hclosed.trans hcall.2, ?_⟩
        · rw [hlast, hcall.1]
          rfl
        · rintro raised (hsame | hrest)
          · cases hsame
          · exact hall raised hrest

/-- The list of the models is no JSON, a completion cannot be sent, and a stream stops after one line. -/
def failingHttpx : (op : HttpxOp) → Unit → Except HttpxExc op.Res × Unit
  | .get _, world => (.ok ⟨200, .error .valueError⟩, world)
  | .post _ _, world => (.error .httpError, world)
  | .stream _ _, world => (.ok ⟨200, ["data: [DONE]", ""], some .timeoutException⟩, world)
  | .closeResponse, world => (.ok (), world)
  | .yieldLine _, world => (.ok (), world)

def failingVllmCalls : List VllmCall := [.listModels, .createChatCompletion [], .streamChatCompletion []]

theorem upstream_errors_counted_failing :
    (runCalls failingHttpx failingVllmCalls ⟨(), [], 0⟩).2.errors = ["upstream_invalid_response", "upstream_timeout"] ∧
      (runCalls failingHttpx failingVllmCalls ⟨(), [], 0⟩).1.flatMap countedOutcome =
        ["upstream_invalid_response", "upstream_timeout"] := by
  have hcounted := (upstream_errors_counted failingHttpx (fun _ => rfl) failingVllmCalls ⟨(), [], 0⟩).1
  have hcodes : (runCalls failingHttpx failingVllmCalls ⟨(), [], 0⟩).1.flatMap countedOutcome =
      ["upstream_invalid_response", "upstream_timeout"] := by decide
  rw [hcodes] at hcounted
  exact ⟨hcounted, hcodes⟩

end GpuInference
