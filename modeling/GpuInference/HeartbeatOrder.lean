import GpuInference.HeartbeatLoop

/-!
What the heartbeats do to the lines: nothing. However the waits fall between the lines, the events that
`ensure_done_event` makes of them are the lines of the upstream, in their order, with heartbeats as events
of their own.
-/

open Effect

namespace GpuInference

theorem not_isPySpace_head_dropWhile (chars : List Char) {c : Char}
    (h : (chars.dropWhile isPySpace).head? = some c) : isPySpace c = false := by
  have hnot := List.head?_dropWhile_not isPySpace chars
  rw [h] at hnot
  exact hnot

/-- A stripped line ends with no line break of its own. -/
theorem eventOf_strip (text : String) : eventOf (strip text) = strip text ++ "\n\n" := by
  have hends : ¬ "\n\n".toList.isSuffixOf (strip text).toList = true := by
    intro hsuffix
    have hstripped : (strip text).toList =
        ((text.toList.dropWhile isPySpace).reverse.dropWhile isPySpace).reverse := by
      rw [strip, String.toList_ofList]
    rw [List.isSuffixOf_iff_suffix, hstripped] at hsuffix
    have hprefix := List.reverse_prefix.mpr hsuffix
    rw [List.reverse_reverse] at hprefix
    obtain ⟨rest, hrest⟩ := hprefix
    have hspace := not_isPySpace_head_dropWhile _ (show _ = some '\n' by rw [← hrest]; rfl)
    exact absurd hspace (by decide)
  rw [eventOf, if_neg hends]

/-- The event of one item, if it has one, and whether it is a heartbeat. -/
def markedEvent : StreamItem → Option (Bool × String)
  | .line text => if strip text = "" then none else some (false, eventOf (strip text))
  | .timeout => some (true, eventOf (strip formatHeartbeat))

/-- What `ensure_done_event(stream_with_heartbeats(lines))` yields, heartbeats marked. -/
def markedEvents (items : List StreamItem) : List (Bool × String) :=
  items.filterMap markedEvent ++
    if doneLine ∈ (items.filterMap StreamItem.text).map strip then [] else [(false, formatSseData "[DONE]")]

/-- The lines of the upstream as events, and the final one if it is missing. -/
def forwardedEvents (lines : List String) : List String :=
  ((lines.map strip).filter fun line => line ≠ "").map (fun line => line ++ "\n\n") ++
    if doneLine ∈ lines.map strip then [] else ["data: [DONE]\n\n"]

/-- No heartbeat is taken for the final event. -/
theorem done_mem_iff (items : List StreamItem) :
    doneLine ∈ ((streamWithHeartbeats items).map strip).filter (fun line => line ≠ "") ↔
      doneLine ∈ (items.filterMap StreamItem.text).map strip := by
  have hne : doneLine ≠ "" := by decide
  have hheartbeat : heartbeatLine ≠ doneLine := by decide
  rw [strip_streamWithHeartbeats, List.mem_filter, decide_eq_true_eq, and_iff_left hne]
  constructor
  · intro hmem
    obtain ⟨item, hitem, hstripped⟩ := List.mem_map.mp hmem
    cases item with
    | line text =>
        exact List.mem_map.mpr ⟨text, List.mem_filterMap.mpr ⟨.line text, hitem, rfl⟩, hstripped⟩
    | timeout => exact absurd hstripped hheartbeat
  · intro hmem
    obtain ⟨text, htext, hstripped⟩ := List.mem_map.mp hmem
    obtain ⟨item, hitem, heq⟩ := List.mem_filterMap.mp htext
    refine List.mem_map.mpr ⟨item, hitem, ?_⟩
    cases item with
    | line line =>
        cases heq
        exact hstripped
    | timeout => cases heq

theorem markedEvent_snd (items : List StreamItem) :
    (items.filterMap markedEvent).map Prod.snd =
      (((streamWithHeartbeats items).map strip).filter fun line => line ≠ "").map eventOf := by
  induction items with
  | nil => rfl
  | cons item items ih =>
      have hcons : streamWithHeartbeats (item :: items) =
          streamWithHeartbeats [item] ++ streamWithHeartbeats items := rfl
      rw [hcons, List.map_append, List.filter_append, List.map_append, ← ih]
      cases item with
      | line text => by_cases hblank : strip text = "" <;> simp [markedEvent, streamWithHeartbeats, hblank]
      | timeout =>
          have hheartbeat : strip formatHeartbeat ≠ "" := by decide
          simp [markedEvent, streamWithHeartbeats, hheartbeat]

/-- The marks aside, these are the events of the route's model. -/
theorem markedEvents_snd (items : List StreamItem) :
    (markedEvents items).map Prod.snd = ensureDoneEvent (streamWithHeartbeats items) none := by
  rw [markedEvents, List.map_append, markedEvent_snd, ensureDoneEvent]
  by_cases hdone : doneLine ∈ (items.filterMap StreamItem.text).map strip
  · rw [if_pos hdone, if_neg fun h => h.2 ((done_mem_iff items).mpr hdone), List.map_nil, List.append_nil]
  · rw [if_neg hdone, if_pos ⟨rfl, fun h => hdone ((done_mem_iff items).mp h)⟩]
    rfl

theorem markedEvent_lines (items : List StreamItem) :
    ((items.filterMap markedEvent).filter fun event => !event.1).map Prod.snd =
      (((items.filterMap StreamItem.text).map strip).filter fun line => line ≠ "").map fun line => line ++ "\n\n" := by
  induction items with
  | nil => rfl
  | cons item items ih =>
      cases item with
      | line text =>
          have htext : StreamItem.text (.line text) = some text := rfl
          rw [List.filterMap_cons_some htext]
          by_cases hblank : strip text = ""
          · have hnone : markedEvent (.line text) = none := by rw [markedEvent, if_pos hblank]
            rw [List.filterMap_cons_none hnone, ih]
            simp [hblank]
          · have hsome : markedEvent (.line text) = some (false, eventOf (strip text)) := by
              rw [markedEvent, if_neg hblank]
            rw [List.filterMap_cons_some hsome, List.filter_cons_of_pos rfl, List.map_cons, ih, eventOf_strip]
            simp [hblank]
      | timeout =>
          have hsome : markedEvent .timeout = some (true, eventOf (strip formatHeartbeat)) := rfl
          have hnone : StreamItem.text .timeout = none := rfl
          rw [List.filterMap_cons_some hsome, List.filterMap_cons_none hnone, List.filter_cons_of_neg (by simp)]
          exact ih

/-- The heartbeats taken out, the events are those of the lines. -/
theorem markedEvents_lines (items : List StreamItem) :
    ((markedEvents items).filter fun event => !event.1).map Prod.snd =
      forwardedEvents (items.filterMap StreamItem.text) := by
  rw [markedEvents, List.filter_append, List.map_append, markedEvent_lines, forwardedEvents]
  congr 1
  split
  · rfl
  · decide

end GpuInference
