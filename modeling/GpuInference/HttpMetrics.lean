import GpuInference.HttpResponses
import Mathlib

/-!
The counters of the requests. All requests share one registry, and `record_http_request` counts a request in several of
its metrics without giving the loop away. So at every moment of every interleaving the registry is the sum of what the
requests have recorded, each request that has ended has been counted once, and the counters of the refusals agree with
the counter of all requests.
-/

open Effect

namespace GpuInference

/-- The metrics of a request: every combination of labels as often as it has been counted. -/
@[ext] structure MetricsRegistry where
  httpRequestsTotal : Multiset (String × String × String)
  httpRequestDurationSeconds : Multiset (String × String)
  http429Total : Multiset String
  http503Total : Multiset String

namespace MetricsRegistry

def empty : MetricsRegistry := ⟨0, 0, 0, 0⟩

/-- `error_code or "unknown"`. -/
def normalizedErrorCode (errorCode : Option String) : String := (errorCode.filter (· ≠ "")).getD "unknown"

/-- `record_http_request`. -/
def recordHttpRequest (registry : MetricsRegistry) (sample : HttpSample) : MetricsRegistry :=
  let status := toString sample.statusCode
  let errorCode := normalizedErrorCode sample.errorCode
  { httpRequestsTotal := (sample.method, sample.path, status) ::ₘ registry.httpRequestsTotal
    httpRequestDurationSeconds := (sample.method, sample.path) ::ₘ registry.httpRequestDurationSeconds
    http429Total := if sample.statusCode = 429 then errorCode ::ₘ registry.http429Total else registry.http429Total
    http503Total := if sample.statusCode = 503 then errorCode ::ₘ registry.http503Total else registry.http503Total }

/-- The registry that has counted these samples. -/
def counted (samples : Multiset HttpSample) : MetricsRegistry where
  httpRequestsTotal := samples.map fun sample => (sample.method, sample.path, toString sample.statusCode)
  httpRequestDurationSeconds := samples.map fun sample => (sample.method, sample.path)
  http429Total := (samples.filter fun sample => sample.statusCode = 429).map fun sample =>
    normalizedErrorCode sample.errorCode
  http503Total := (samples.filter fun sample => sample.statusCode = 503).map fun sample =>
    normalizedErrorCode sample.errorCode

theorem counted_zero : counted 0 = empty := rfl

/-- Counting one more sample is `record_http_request`. -/
theorem counted_cons (sample : HttpSample) (samples : Multiset HttpSample) :
    counted (sample ::ₘ samples) = (counted samples).recordHttpRequest sample := by
  have hrefusals : ∀ status : Int,
      ((sample ::ₘ samples).filter fun sample => sample.statusCode = status).map
          (fun sample => normalizedErrorCode sample.errorCode) =
        if sample.statusCode = status then
          normalizedErrorCode sample.errorCode ::ₘ
            (samples.filter fun sample => sample.statusCode = status).map fun sample =>
              normalizedErrorCode sample.errorCode
        else (samples.filter fun sample => sample.statusCode = status).map fun sample =>
          normalizedErrorCode sample.errorCode := by
    intro status
    by_cases hstatus : sample.statusCode = status
    · rw [Multiset.filter_cons_of_pos samples hstatus, Multiset.map_cons, if_pos hstatus]
    · rw [Multiset.filter_cons_of_neg samples hstatus, if_neg hstatus]
  ext1
  · exact Multiset.map_cons _ _ _
  · exact Multiset.map_cons _ _ _
  · exact hrefusals 429
  · exact hrefusals 503

/-- The requests that a counter of refusals has counted are those that the total has counted under its status. -/
theorem card_counted (samples : Multiset HttpSample) (status : Int) :
    ((samples.filter fun sample => sample.statusCode = status).map fun sample =>
        normalizedErrorCode sample.errorCode).card =
      (counted samples).httpRequestsTotal.countP (fun labels => labels.2.2 = toString status) := by
  calc ((samples.filter fun sample => sample.statusCode = status).map fun sample =>
          normalizedErrorCode sample.errorCode).card
      = samples.countP (fun sample => sample.statusCode = status) := by
        rw [Multiset.card_map, Multiset.countP_eq_card_filter]
    _ = samples.countP (fun sample => toString sample.statusCode = toString status) := by
        have hprinted : ∀ a b : Int, toString a = toString b ↔ a = b := fun _ _ => Int.repr_inj
        simp only [hprinted]
    _ = (counted samples).httpRequestsTotal.countP (fun labels => labels.2.2 = toString status) := by
        rw [counted, Multiset.countP_map, Multiset.countP_eq_card_filter]

end MetricsRegistry

namespace HttpApp

variable {Op : Type} {Res : Op → Type}

/-- What a call does to the registry. Counting returns; all other calls may end in any way. -/
def registryExec : Exec (HttpOp Op) (HttpOp.Res Res) HttpExc MetricsRegistry := fun op registry answer registry' =>
  match op, answer with
  | .recordHttpRequest sample, .ok _ => registry' = registry.recordHttpRequest sample
  | .recordHttpRequest _, .error _ => False
  | _, _ => registry' = registry

/-- The requests of an application, in any interleaving. -/
def httpSystem (self : HttpApp Op Res) : System MetricsRegistry (Thread (HttpOp Op) (HttpOp.Res Res) HttpExc Unit) :=
  callSystem registryExec fun program => ∃ request hex, program = serve self request hex

abbrev RequestThread (Op : Type) (Res : Op → Type) := Thread (HttpOp Op) (HttpOp.Res Res) HttpExc Unit

/-- What a request has recorded so far. -/
def samplesOf (t : RequestThread Op Res) : Multiset HttpSample := recordedBy t.calls

def logSamples (log : HttpLog) : Multiset HttpSample := log.records

theorem samplesOf_eq (t : RequestThread Op Res) : samplesOf t = logSamples (logged.phase .empty t.calls) :=
  congrArg _ (phase_logged t.calls).2.1.symm

theorem logged_justified : Justified (@registryExec Op Res) logged .empty logSamples
    (fun registry samples => registry = MetricsRegistry.counted samples) fun _ _ => True where
  start := ⟨rfl, fun _ => trivial⟩
  call := by
    intro log op registry answer registry' others hcounted _ hmay hexec
    clear hmay
    refine ⟨?_, trivial⟩
    cases op
    case recordHttpRequest sample =>
      cases answer with
      | error exc => exact hexec.elim
      | ok done =>
          have hsamples : logSamples (log.after (.recordHttpRequest sample : HttpOp Op) (.ok done)) =
              sample ::ₘ logSamples log := by
            show ((log.records ++ [sample] : List HttpSample) : Multiset HttpSample) = _
            rw [← Multiset.coe_add, Multiset.coe_singleton, add_comm, Multiset.singleton_add]
            rfl
          have hexec : registry' = registry.recordHttpRequest sample := hexec
          show registry' = MetricsRegistry.counted (logSamples (log.after _ _) + others)
          rw [hsamples, Multiset.cons_add, MetricsRegistry.counted_cons, ← hcounted]
          exact hexec
    case send response =>
      cases answer with
      | ok done => exact hexec.trans hcounted
      | error exc => exact hexec.trans hcounted
    all_goals exact hexec.trans hcounted
  frame := fun _ _ _ _ _ _ _ _ _ _ _ _ => trivial

/-- The request has been served, or torn down. -/
def Ended (t : RequestThread Op Res) : Prop := t.program = .ret () ∨ ∃ exc, t.program = .raise exc

/-- The calls of a request that has ended are a trace of the application on that request. -/
theorem exists_traces {self : HttpApp Op Res} {p : Pool MetricsRegistry (RequestThread Op Res)}
    (hreach : (httpSystem self).Reachable .empty p) {t : RequestThread Op Res} (ht : t ∈ p.threads) (hended : Ended t) :
    ∃ request hex outcome, (serve self request hex).Traces t.calls outcome := by
  have hruns : ∀ program : HttpProgram Op Res Unit, (∃ request hex, program = serve self request hex) →
      program.Follows recording
        (fun calls outcome => ∃ request hex, (serve self request hex).Traces calls outcome) [] := by
    rintro program ⟨request, hex, rfl⟩
    refine (Program.follows_traces (serve self request hex) []).mono ?_
    rintro calls outcome ⟨rest, rfl, htraces⟩
    exact ⟨request, hex, htraces⟩
  obtain ⟨-, hfollows⟩ := reachable_follows hruns hreach t ht
  rw [phase_recording, List.nil_append] at hfollows
  rcases hended with hret | ⟨exc, hraise⟩
  · rw [hret] at hfollows
    obtain ⟨request, hex, htraces⟩ := hfollows
    exact ⟨request, hex, _, htraces⟩
  · rw [hraise] at hfollows
    obtain ⟨request, hex, htraces⟩ := hfollows
    exact ⟨request, hex, _, htraces⟩

/-- A request that has ended has been recorded once, unless it is a scrape. -/
theorem card_samplesOf {self : HttpApp Op Res} {request : ClientRequest} {hex : String} {t : RequestThread Op Res}
    {outcome : Except HttpExc Unit} (h : (serve self request hex).Traces t.calls outcome) :
    (samplesOf t).card = if request.path = "/metrics" then 0 else 1 := by
  have hserved := served_traces self request hex t.calls outcome h
  rw [samplesOf_eq, logSamples, Multiset.coe_card]
  split
  · rename_i hmetrics
    rw [hserved.skipped hmetrics]
    rfl
  · rename_i hother
    obtain ⟨sample, hrecords, -⟩ := hserved.recorded hother
    rw [hrecords]
    rfl

/-- **The counters of the requests are exact** in every interleaving. The registry is the sum of what the requests have
recorded; a request that has ended has been recorded once, and a scrape never; and the counters of the refusals with 429
and 503 have counted as many requests as the total has under these statuses. -/
theorem metrics_exact (self : HttpApp Op Res) (p : Pool MetricsRegistry (RequestThread Op Res))
    (hreach : (httpSystem self).Reachable .empty p) :
    p.shared = MetricsRegistry.counted (p.threads.map samplesOf).sum ∧
    (∀ t ∈ p.threads, Ended t → ∃ request hex outcome, (serve self request hex).Traces t.calls outcome ∧
      (samplesOf t).card = if request.path = "/metrics" then 0 else 1) ∧
    p.shared.http429Total.card = p.shared.httpRequestsTotal.countP (fun labels => labels.2.2 = "429") ∧
    p.shared.http503Total.card = p.shared.httpRequestsTotal.countP (fun labels => labels.2.2 = "503") := by
  have hfollows : ∀ program : HttpProgram Op Res Unit, (∃ request hex, program = serve self request hex) →
      program.Follows logged (fun _ _ => True) .empty := by
    rintro program ⟨request, hex, rfl⟩
    exact (meets_served self request hex).toProgram.mono fun _ _ _ => trivial
  have hcounted : p.shared = MetricsRegistry.counted (p.threads.map samplesOf).sum := by
    have hsum := ((logged_justified.accounts hfollows).reachable MetricsRegistry.counted_zero.symm hreach).1
    have hsamples : p.threads.map samplesOf = p.threads.map fun t => logSamples (logged.phase .empty t.calls) :=
      List.map_congr_left fun t _ => samplesOf_eq t
    rw [hsamples]
    exact hsum
  refine ⟨hcounted, ?_, ?_, ?_⟩
  · intro t ht hended
    obtain ⟨request, hex, outcome, htraces⟩ := exists_traces hreach ht hended
    exact ⟨request, hex, outcome, htraces, card_samplesOf htraces⟩
  · rw [hcounted]
    exact MetricsRegistry.card_counted _ 429
  · rw [hcounted]
    exact MetricsRegistry.card_counted _ 503

def registryAnswer : (op : HttpOp Unit) → MetricsRegistry → Except HttpExc (op.Res fun _ => Unit) × MetricsRegistry
  | .recordHttpRequest sample, registry => (.ok (), registry.recordHttpRequest sample)
  | op, registry => ((bareAnswer op ()).1, registry)

/-- A request without a key is refused, and the registry has counted it. -/
theorem metrics_exact_keyless : ∃ p, (httpSystem bareApp).Reachable .empty p ∧
    p.shared.httpRequestsTotal = {("POST", "/v1/chat/completions", "401")} ∧
    p.shared.http429Total.card = 0 ∧ p.shared = MetricsRegistry.counted (p.threads.map samplesOf).sum := by
  have hanswer : ∀ (op : HttpOp Unit) registry, @registryExec Unit (fun _ => Unit) op registry
      (registryAnswer op registry).1 (registryAnswer op registry).2 := by
    intro op registry
    cases op <;> rfl
  have hreach : (httpSystem bareApp).Reachable .empty ⟨_, _⟩ :=
    reachable_run hanswer ⟨keylessRequest, "hex", rfl⟩ Relation.ReflTransGen.refl
  obtain ⟨hcounted, -, h429, -⟩ := metrics_exact bareApp _ hreach
  refine ⟨_, hreach, rfl, ?_, hcounted⟩
  rw [h429]
  rfl

end HttpApp

end GpuInference
