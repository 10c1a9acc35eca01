import GpuInference.HeartbeatOrder
import GpuInference.StreamCleanup
import GpuInference.StreamStatus

/-!
The content of the lines of a stream. Every event is read for the accounting before it is sent, and a payload that is JSON
must be an object: one that is no JSON is skipped, one of another kind ends the stream.
-/

open Effect

namespace GpuInference

/-- Spaces at the end are stripped. -/
theorem strip_append_spaces {spaces : List Char} (hspaces : ∀ c ∈ spaces, isPySpace c = true) (chars : List Char) :
    strip (String.ofList (chars ++ spaces)) = strip (String.ofList chars) := by
  have hreverse : ∀ c ∈ spaces.reverse, isPySpace c = true := fun c hc => hspaces c (List.mem_reverse.mp hc)
  unfold strip
  rw [String.toList_ofList, String.toList_ofList, List.dropWhile_append]
  split
  · rename_i hempty
    have hnil : chars.dropWhile isPySpace = [] := by simpa using hempty
    rw [hnil, List.dropWhile_eq_nil_iff.mpr hspaces]
  · rw [List.reverse_append, List.dropWhile_append_of_pos hreverse]

/-- What follows `data: `, stripped. -/
def linePayload (line : String) : String := strip (String.ofList ((strip line).toList.drop "data: ".length))

/-- The line has no data, or its payload is `[DONE]`, no JSON, or a JSON object. -/
def ReadsAsObject (loads : JsonLoads) (line : String) : Prop :=
  startsWith (strip line) "data: " = true →
    linePayload line = "[DONE]" ∨ loads (linePayload line) = .ok none ∨
      ∃ parsed, loads (linePayload line) = .ok (some (.obj parsed))

theorem startsWith_eventOf (line : String) :
    startsWith (eventOf (strip line)) "data: " = startsWith (strip line) "data: " := by
  rw [Bool.eq_iff_iff, eventOf_strip]
  unfold startsWith
  rw [List.isPrefixOf_iff_prefix, List.isPrefixOf_iff_prefix, String.toList_append]
  constructor
  · intro hprefix
    exact prefix_of_prefix_append hprefix (List.all_iff_forall_prop.mp (by decide))
  · intro hprefix
    exact hprefix.trans (List.prefix_append _ _)

/-- The payload of an event is that of its line. -/
theorem payload_eventOf {line : String} (hdata : startsWith (strip line) "data: " = true) :
    strip (String.ofList ((eventOf (strip line)).toList.drop "data: ".length)) = linePayload line := by
  rw [startsWith, List.isPrefixOf_iff_prefix] at hdata
  have hlength : "data: ".length ≤ (strip line).toList.length := by
    rw [← String.length_toList]
    exact hdata.length_le
  rw [eventOf_strip, String.toList_append, List.drop_append_of_le_length hlength,
    strip_append_spaces (List.all_iff_forall_prop.mp (by decide))]
  rfl

theorem readable_iff {loads : JsonLoads} {line : String} :
    Readable loads (eventOf (strip line)) ↔ ReadsAsObject loads line := by
  rw [Readable, streamDeltaText, startsWith_eventOf, ReadsAsObject]
  by_cases hdata : startsWith (strip line) "data: " = true
  · rw [if_pos hdata, payload_eventOf hdata]
    simp only [hdata, forall_const]
    by_cases hdone : linePayload line = "[DONE]"
    · rw [if_pos hdone]
      exact iff_of_true rfl (.inl hdone)
    · rw [if_neg hdone]
      cases hloads : loads (linePayload line) with
      | error exc =>
          refine iff_of_false Bool.false_ne_true ?_
          rintro (hsame | hnone | ⟨parsed, hparsed⟩)
          · exact hdone hsame
          · cases hnone
          · cases hparsed
      | ok value =>
          cases value with
          | none => exact iff_of_true rfl (.inr (.inl rfl))
          | some value =>
              cases value with
              | obj parsed =>
                  refine iff_of_true ?_ (.inr (.inr ⟨parsed, rfl⟩))
                  simp only [bind, Except.bind]
                  split <;> rfl
              | _ =>
                  refine iff_of_false Bool.false_ne_true ?_
                  rintro (hsame | hnone | ⟨parsed, hparsed⟩)
                  · exact hdone hsame
                  · cases hnone
                  · cases hparsed
  · rw [if_neg hdata]
    exact iff_of_true rfl fun h => absurd h hdata

/-- A line that is not blank is an event. -/
theorem markedEvent_mem {items : List StreamItem} {line : String} (hline : line ∈ items.filterMap StreamItem.text)
    (hblank : strip line ≠ "") : (false, eventOf (strip line)) ∈ markedEvents items := by
  obtain ⟨item, hitem, htext⟩ := List.mem_filterMap.mp hline
  apply List.mem_append_left
  refine List.mem_filterMap.mpr ⟨item, hitem, ?_⟩
  cases item with
  | line text =>
      cases htext
      rw [markedEvent, if_neg hblank]
  | timeout => cases htext

/-- An event is that of a line, a heartbeat or the final event. -/
theorem markedEvents_cases {items : List StreamItem} {event : String}
    (h : event ∈ (markedEvents items).map Prod.snd) :
    (∃ line ∈ items.filterMap StreamItem.text, event = eventOf (strip line)) ∨ event = eventOf heartbeatLine ∨
      event = eventOf doneLine := by
  have hheartbeat : strip formatHeartbeat = heartbeatLine := by decide
  have hdone : formatSseData "[DONE]" = eventOf doneLine := by decide
  obtain ⟨marked, hmarked, hevent⟩ := List.mem_map.mp h
  rcases List.mem_append.mp hmarked with hitems | hlast
  · obtain ⟨item, hitem, hmarks⟩ := List.mem_filterMap.mp hitems
    cases item with
    | line text =>
        rw [markedEvent] at hmarks
        split at hmarks
        · cases hmarks
        · rw [← Option.some.inj hmarks] at hevent
          dsimp only at hevent
          exact .inl ⟨text, List.mem_filterMap.mpr ⟨.line text, hitem, rfl⟩, hevent.symm⟩
    | timeout =>
        rw [markedEvent, hheartbeat] at hmarks
        rw [← Option.some.inj hmarks] at hevent
        dsimp only at hevent
        exact .inr (.inl hevent.symm)
  · split at hlast
    · cases hlast
    · rw [List.mem_singleton.mp hlast, hdone] at hevent
      dsimp only at hevent
      exact .inr (.inr hevent.symm)

/-- The heartbeats and the final event can always be read. -/
theorem readable_marked_iff {loads : JsonLoads} {items : List StreamItem} :
    (∀ event ∈ (markedEvents items).map Prod.snd, Readable loads event) ↔
      ∀ line ∈ items.filterMap StreamItem.text, ReadsAsObject loads line := by
  constructor
  · intro hreadable line hline
    by_cases hblank : strip line = ""
    · intro hdata
      rw [hblank] at hdata
      exact absurd hdata (by decide)
    · have hevent := List.mem_map_of_mem (f := Prod.snd) (markedEvent_mem hline hblank)
      dsimp only at hevent
      exact readable_iff.mp (hreadable _ hevent)
  · intro hlines event hevent
    rcases markedEvents_cases hevent with ⟨line, hline, hsame⟩ | hsame | hsame
    · rw [hsame]
      exact readable_iff.mpr (hlines line hline)
    · rw [hsame]
      exact readable_heartbeat loads
    · rw [hsame]
      exact readable_done loads

section Loop

variable {app : ChatApp} {failure : Option PyExc} {events : List String} {l l' : StreamLocals} {calls : ChatCalls}
  {exit : StreamExit}

/-- The loop that goes through all the events has read all of them. -/
theorem LoopRun.readable_of_end (h : LoopRun app failure events l calls exit l') (hend : exit.atEnd = true) :
    ∀ event ∈ events, Readable app.loads event := by
  induction h with
  | exhausted hfailure => exact List.forall_mem_nil _
  | upstream hfailure => exact List.forall_mem_nil _
  | next htext hrest ih =>
      rw [List.forall_mem_cons]
      refine ⟨?_, ih hend⟩
      rw [Readable, htext]
      rfl
  | _ => cases hend

/-- The loop that is left at an event that cannot be read has come to one of its events. -/
theorem LoopRun.unreadable_mem (h : LoopRun app failure events l calls exit l') {exc : PyExc}
    (hexit : exit = .unreadable exc) : ∃ event ∈ events, ¬ Readable app.loads event := by
  induction h with
  | @unreadable event events l exc htext =>
      refine ⟨event, List.mem_cons_self, ?_⟩
      rw [Readable, htext]
      exact Bool.false_ne_true
  | next htext hrest ih =>
      obtain ⟨event, hevent, hreadable⟩ := ih hexit
      exact ⟨event, List.mem_cons_of_mem _ hevent, hreadable⟩
  | _ => cases hexit

end Loop

/-- The answers of a healthy run: the upstream sends its lines and ends, the client stays, and no other call raises, except
what the analytics catch. -/
def AnswersHealthy (items : List StreamItem) : Event ChatOp ChatOp.Res PyExc → Prop
  | ⟨.streamChatCompletion _, answer⟩ => answer = .ok ⟨items, none⟩
  | ⟨.isDisconnected, answer⟩ => answer = .ok false
  | ⟨.collect _, answer⟩ => ∀ exc, answer = .error exc → exc.isException = true
  | ⟨_, answer⟩ => answer.isOk = true

/-- The stream has been forwarded: one event for every line that is not blank, in their order, with heartbeats between
them and the final event if it is missing; it is written as completed, and it raises nothing. -/
structure StreamForwarded (items : List StreamItem) (calls : ChatCalls) (outcome : Except PyExc Unit) : Prop where
  events : handed calls = (markedEvents items).map Prod.snd
  lines : ((markedEvents items).filter fun event => !event.1).map Prod.snd =
    forwardedEvents (items.filterMap StreamItem.text)
  written : StatusWritten calls .completed
  only : ∀ status, StatusWritten calls status → status = .completed
  returns : outcome = .ok ()

section Stream

variable {items : List StreamItem} {app : ChatApp} {call : ChatCall} {events : List String}
  {loop final : ChatCalls} {exit : StreamExit} {l : StreamLocals}

theorem AnswersHealthy.not_raises {event : Event ChatOp ChatOp.Res PyExc} (h : AnswersHealthy items event) :
    ¬ CleanupRaises event := by
  obtain ⟨op, answer⟩ := event
  intro hraises
  cases op
  case streamChatCompletion payload =>
    obtain rfl : answer = .ok ⟨items, none⟩ := h
    cases hraises
  case collect event =>
    obtain ⟨exc, hanswer, hbase⟩ := hraises
    rw [h exc hanswer] at hbase
    cases hbase
  case isDisconnected => exact hraises
  all_goals
    first
    | exact hraises
    | exact Bool.false_ne_true (hraises.symm.trans h)

/-- In a healthy run no call of the loop is one after which it stops. -/
theorem AnswersHealthy.goesOn {event : Event ChatOp ChatOp.Res PyExc} (h : AnswersHealthy items event)
    (hloops : event.op.Loops) : GoesOn event := by
  obtain ⟨op, answer⟩ := event
  cases op
  case isDisconnected => exact h
  case yieldEvent event =>
    cases answer with
    | ok _ => rfl
    | error exc => cases h
  case recordStreamTtft =>
    cases answer with
    | ok _ => rfl
    | error exc => cases h
  all_goals exact hloops.elim

/-- So the loop ends with the events, or at one that cannot be read. -/
theorem exit_of_healthy (h : LoopRun app none events .start loop exit l)
    (hhealthy : ∀ event ∈ loop, AnswersHealthy items event) : exit = .exhausted ∨ ∃ exc, exit = .unreadable exc := by
  have hgoes : ∀ event, ¬ GoesOn event → exit.last ≠ some event := by
    intro event hstops hlast
    have hevent := (h.mem_iff hstops).mpr hlast
    exact hstops ((hhealthy event hevent).goesOn (h.loops event hevent))
  cases exit with
  | exhausted => exact .inl rfl
  | unreadable exc => exact .inr ⟨exc, rfl⟩
  | upstream exc => cases h.failure_eq rfl
  | polled => exact absurd rfl (hgoes _ (by intro hgoes; cases hgoes))
  | poll exc => exact absurd rfl (hgoes _ (by intro hgoes; cases hgoes))
  | ttft exc => exact absurd rfl (hgoes _ (by intro hgoes; cases hgoes))
  | yielded event exc => exact absurd rfl (hgoes _ (by intro hgoes; cases hgoes))

/-- In a healthy run the `finally` block comes to its end. -/
theorem final_of_healthy (hestimates : ∀ text, (app.tokenEstimator text).isOk = true) {out : Except PyExc Unit}
    {last : StreamLocals} (h : (app.streamFinally call).Leaves l final out last)
    (hhealthy : ∀ event ∈ final, AnswersHealthy items event) :
    out = .ok () ∧ StatusWritten final l.status ∧ ∀ status, StatusWritten final status → status = l.status := by
  obtain ⟨hkeeps, hdone, hreturns⟩ := (meets_streamFinally_returns app call l).leaves h
  have hestimate : (l.usage app call).isOk = true := by
    rw [usage_isOk]
    exact hestimates _
  have hfinished : (finallyProtocol app call l).phase .closing final = .finished := by
    rcases hdone with hfailed | ⟨hfinished, -⟩ | ⟨-, hraises⟩
    · obtain ⟨event, hevent, hraises⟩ := (finallyBooks_of_keeps hkeeps).raised.mp hfailed
      exact absurd hraises (hhealthy event hevent).not_raises
    · exact hfinished
    · exact absurd (hestimate.symm.trans hraises) (by decide)
  have hfinalized : TokensFinalized final := by
    rcases finalized_of_phase hkeeps with heq | heq | hfinalized
    · cases hfinished.symm.trans heq
    · cases hfinished.symm.trans heq
    · exact hfinalized
  obtain ⟨event, hevent, usage, hop⟩ := usage_of_final hkeeps hdone hfinalized
  have hwritten : StatusWritten final usage.status := .inl ⟨event, hevent, usage, hop, rfl⟩
  refine ⟨hreturns hfinished, ?_, fun status => status_of_final hkeeps⟩
  rw [← status_of_final hkeeps hwritten]
  exact hwritten

/-- **The lines of a healthy stream are forwarded** exactly when each of them can be read: it has no data, or its payload
is `[DONE]`, no JSON, or a JSON object. -/
theorem lines_forwarded_iff (app : ChatApp) (hestimates : ∀ text, (app.tokenEstimator text).isOk = true) (call : ChatCall)
    (items : List StreamItem) {calls : ChatCalls} {outcome : Except PyExc Unit}
    (htraces : (app.streamResponse call).Traces calls outcome) (hhealthy : ∀ event ∈ calls, AnswersHealthy items event) :
    StreamForwarded items calls outcome ↔ ∀ line ∈ items.filterMap StreamItem.text, ReadsAsObject app.loads line := by
  rcases streamRun_of_traces app call htraces with ⟨exc, rfl⟩ | ⟨exc, rfl⟩ |
    ⟨upstream, loop, final, exit, l, last, out, rfl, hloop, hfinal, houtcome⟩
  · cases hhealthy _ (List.mem_singleton_self _)
  · cases hhealthy _ (.tail _ (.head _))
  obtain rfl : upstream = ⟨items, none⟩ := Except.ok.inj (hhealthy _ (mem_askedCalls.mpr (.inr (.inl rfl))))
  have hloops := exit_of_healthy hloop fun event hevent => hhealthy _ (mem_askedCalls.mpr (.inr (.inr (.inl hevent))))
  obtain ⟨rfl, hwritten, honly⟩ := final_of_healthy hestimates hfinal fun event hevent =>
    hhealthy _ (mem_askedCalls.mpr (.inr (.inr (.inr hevent))))
  have hreturns : outcome = exit.outcome := houtcome rfl
  rw [← readable_marked_iff, markedEvents_snd]
  rcases hloops with rfl | ⟨exc, rfl⟩
  · have hstatus : (l.after .exhausted).status = .completed := hloop.status rfl
    rw [hstatus] at hwritten honly
    have hkeeps := ((meets_streamFinally_returns app call (l.after .exhausted)).leaves hfinal).1
    have hhanded : handed (askedCalls call ⟨items, none⟩ loop final) =
        ensureDoneEvent (streamWithHeartbeats items) none := by
      have hsame : handed (askedCalls call ⟨items, none⟩ loop final) = handed loop := handed_askedCalls hkeeps
      exact hsame.trans (hloop.handed_iff.mpr rfl)
    refine iff_of_true ⟨?_, markedEvents_lines items, ?_, ?_, hreturns⟩ (hloop.readable_of_end rfl)
    · exact hhanded.trans (markedEvents_snd items).symm
    · exact hwritten.mono fun event hop => (mem_askedCalls_settles hloop.loops hop).mpr
    · intro status hstatuses
      exact honly status (hstatuses.mono fun event hop => (mem_askedCalls_settles hloop.loops hop).mp)
  · refine iff_of_false ?_ ?_
    · intro hforwarded
      cases hreturns.symm.trans hforwarded.returns
    · intro hreadable
      obtain ⟨event, hevent, hunreadable⟩ := hloop.unreadable_mem rfl
      exact hunreadable (hreadable event hevent)

end Stream

/-- Every call returns. -/
def returning : (op : ChatOp) → Except PyExc op.Res
  | .admitRequest _ _ => .ok ⟨0⟩
  | .finalizeTokens _ _ _ => .ok ()
  | .releaseLease _ => .ok ()
  | .startAudit _ => .ok "audit"
  | .finalizeAudit _ => .ok ()
  | .createChatCompletion _ => .ok []
  | .streamChatCompletion _ => .ok ⟨[], none⟩
  | .isDisconnected => .ok false
  | .yieldEvent _ => .ok ()
  | .closeStream => .ok ()
  | .recordUsage _ => .ok ()
  | .collect _ => .ok true
  | .elapsedMs => .ok 0
  | .recordStreamStarted => .ok ()
  | .recordStreamTtft => .ok ()
  | .recordStreamFinished => .ok ()

/-- The calls of a stream whose client stays and whose calls all return. -/
def returningCalls (app : ChatApp) (items : List StreamItem) : ChatCalls :=
  (app.streamResponse plainCall).trace (connected ⟨items, none⟩ returning) []

theorem healthy_returningCalls (app : ChatApp) (items : List StreamItem) :
    ∀ event ∈ returningCalls app items, AnswersHealthy items event := by
  rintro ⟨op, answer⟩ hevent
  obtain ⟨yielded, hanswer⟩ := Program.answer_of_mem_trace hevent
  dsimp only at hanswer
  subst hanswer
  cases op
  case collect event => exact fun exc hraises => by cases hraises
  all_goals rfl

/-- The application, with a `json.loads` that reads this value. -/
def readingApp (value : Json) : ChatApp := { plainApp with loads := fun _ => .ok (some value) }

theorem estimates_readingApp (value : Json) (text : String) : ((readingApp value).tokenEstimator text).isOk = true := rfl

/-- An object without choices is sent on. -/
theorem lines_forwarded_object :
    ∃ outcome, StreamForwarded [.timeout, .line "data: {}"]
      (returningCalls (readingApp (.obj [])) [.timeout, .line "data: {}"]) outcome := by
  let items : List StreamItem := [.timeout, .line "data: {}"]
  refine ⟨_, (lines_forwarded_iff (readingApp (.obj [])) (estimates_readingApp _) plainCall items
    (Program.traces_trace _ _ _) (healthy_returningCalls _ _)).mpr ?_⟩
  intro line hline hdata
  exact .inr (.inr ⟨[], rfl⟩)

/-- A list ends the stream. -/
theorem line_breaks_stream :
    ¬ ∀ (app : ChatApp), (∀ text, (app.tokenEstimator text).isOk = true) →
      ∀ (call : ChatCall) (items : List StreamItem) (calls : ChatCalls) (outcome : Except PyExc Unit),
        (app.streamResponse call).Traces calls outcome → (∀ event ∈ calls, AnswersHealthy items event) →
        StreamForwarded items calls outcome := by
  intro h
  have hforwarded := h (readingApp (.arr [])) (estimates_readingApp _) plainCall [.line "data: []"] _ _
    (Program.traces_trace _ _ _) (healthy_returningCalls _ _)
  cases hforwarded.returns

end GpuInference
