import GpuInference.ChatCalls
import GpuInference.EventStream
import GpuInference.RequestBooks
import Mathlib.Data.List.TakeWhile
import Mathlib.Data.Bool.AllAny

/-!
The event stream that a chat request relays. `httpx` cuts the body at more characters than an event stream has line
ends, and the client of the upstream drops the empty lines, so the framing of the events is lost; heartbeats are
put between the lines, and every line that is left is stripped and sent as an event of its own, until one of them
cannot be read.
-/

open Effect EventStream

namespace GpuInference

/-- A comment, or one of the fields `data`, `event`, `id` and `retry`. -/
def IsFieldLine (line : Line) : Prop :=
  line ≠ [] ∧ fieldName line ∈ [[], dataName, eventName, idName, retryName]

/-- A response body that is a sequence of events, each made of field and comment lines and ended by an empty
line. -/
structure SseBody where
  text : String
  blocks : List (List Line)
  split : splitLines text.toList = (blocks.flatMap (· ++ [[]]), [])
  fields : ∀ block ∈ blocks, block ≠ [] ∧ ∀ line ∈ block, IsFieldLine line

/-- The characters that end a line for `str.splitlines`, besides LF and CR. -/
def isLineBreak (c : Char) : Bool :=
  let n := c.toNat
  n == 0x0B || n == 0x0C || (0x1C ≤ n && n ≤ 0x1E) || n == 0x85 || n == 0x2028 || n == 0x2029

/-- The pieces between the line boundaries of a text. -/
def linePieces : List Char → List Line
  | [] => [[]]
  | '\r' :: '\n' :: rest => [] :: linePieces rest
  | c :: rest =>
      if c = '\n' ∨ c = '\r' ∨ isLineBreak c then [] :: linePieces rest
      else (linePieces rest).modifyHead (c :: ·)

/-- `text.splitlines()`: an empty piece after the last boundary is no line. -/
def splitlines (text : String) : List String :=
  let pieces := linePieces text.toList
  (if pieces.getLast? = some [] then pieces.dropLast else pieces).map String.ofList

/-- What `httpx` documents of `aiter_lines`: the lines of the text, as `str.splitlines` finds them. -/
def SplitsLines (aiterLines : String → List String) : Prop := ∀ text, aiterLines text = splitlines text

/-- `VLLMClient.stream_chat_completion`, on the lines of the response. -/
def VLLMClient.streamChatCompletion (lines : List String) : List String := lines.filter fun line => line ≠ ""

def StreamItem.text : StreamItem → Option String
  | line text => some text
  | timeout => none

/-- The answers to a client that stays: the upstream sends its items and ends, every event is taken, and the
calls of the `finally` block may answer anything. -/
def connected (upstream : UpstreamStream) (rest : (op : ChatOp) → Except PyExc op.Res) :
    (op : ChatOp) → List String → Except PyExc op.Res × List String
  | .streamChatCompletion _, yielded => (.ok upstream, yielded)
  | .isDisconnected, yielded => (.ok false, yielded)
  | .yieldEvent event, yielded => (.ok (), yielded ++ [event])
  | .recordStreamStarted, yielded => (.ok (), yielded)
  | .recordStreamTtft, yielded => (.ok (), yielded)
  | op, yielded => (rest op, yielded)

/-- Everything that `_stream_response` yields, joined. -/
def streamedText (app : ChatApp) (call : ChatCall) (items : List StreamItem)
    (rest : (op : ChatOp) → Except PyExc op.Res) : String :=
  String.join ((app.streamResponse call).run (connected ⟨items, none⟩ rest) []).2

/-- `stream_delta_text` does not raise. -/
def Readable (loads : JsonLoads) (event : String) : Prop := (streamDeltaText loads event).isOk = true

instance (loads : JsonLoads) (event : String) : Decidable (Readable loads event) :=
  inferInstanceAs (Decidable (_ = _))

section Run

variable {app : ChatApp} {upstream : UpstreamStream} {rest : (op : ChatOp) → Except PyExc op.Res}

/-- The loop sends the events up to the first one that cannot be read. -/
theorem run_streamEvents (events : List String) (l : StreamLocals) (yielded : List String) :
    ∃ left, (app.streamEvents none events l).run (connected upstream rest) yielded =
      (.ok left, yielded ++ events.takeWhile fun event => Readable app.loads event) := by
  induction events generalizing l yielded with
  | nil =>
      rw [List.takeWhile_nil, List.append_nil]
      exact ⟨_, rfl⟩
  | cons event events ih =>
      rw [ChatApp.streamEvents, chatCall, Block.run_perform_bind]
      simp only [connected, Bool.false_eq_true, if_false]
      cases htext : streamDeltaText app.loads event with
      | error exc =>
          have hraises : ¬ Readable app.loads event := by
            rw [Readable, htext]
            exact Bool.false_ne_true
          rw [List.takeWhile_cons_of_neg (by simpa using hraises), List.append_nil]
          exact ⟨_, rfl⟩
      | ok text =>
          have hreads : Readable app.loads event := by
            rw [Readable, htext]
            rfl
          have hyield : ∀ l, ∃ left, ((Block.await (chatCall (.yieldEvent event)) >>= fun _ =>
              app.streamEvents none events) l).run (connected upstream rest) yielded =
                (.ok left, yielded ++ (event :: events).takeWhile fun event => Readable app.loads event) := by
            intro l
            obtain ⟨left, hrun⟩ := ih l (yielded ++ [event])
            refine ⟨left, ?_⟩
            rw [chatCall, Block.run_perform_bind]
            simp only [connected]
            rw [hrun, List.takeWhile_cons_of_pos (by simpa using hreads), List.append_assoc,
              List.singleton_append]
          have hrest : ∀ l : StreamLocals, ∃ left, ((if !l.firstTokenSeen ∧ startsWith event "data: " ∧
              strip event ≠ doneLine then
                Block.await (chatCall .recordStreamTtft) >>= fun _ =>
                  Block.assign (fun l => { l with firstTokenSeen := true }) >>= fun _ =>
                    Block.await (chatCall (.yieldEvent event)) >>= fun _ => app.streamEvents none events
              else Block.await (chatCall (.yieldEvent event)) >>= fun _ => app.streamEvents none events :
                StreamBlock Unit) l).run (connected upstream rest) yielded =
                (.ok left, yielded ++ (event :: events).takeWhile fun event => Readable app.loads event) := by
            intro l
            split
            · rw [chatCall, Block.run_perform_bind]
              exact hyield _
            · exact hyield l
          exact hrest { l with completionText := l.completionText ++ text }

/-- What settles a request sends nothing. -/
theorem run_settles {α : Type} {program : ChatProgram α} (h : program.Makes ChatOp.Settles)
    (yielded : List String) : (program.run (connected upstream rest) yielded).2 = yielded := by
  have hcall : ∀ (op : ChatOp) (yielded : List String), op.Settles →
      id (connected upstream rest op yielded).2 = id yielded := by
    intro op yielded hop
    cases op
    case yieldEvent event => exact hop.elim
    all_goals rfl
  exact h.run hcall yielded

/-- What follows the loop settles the request, however the loop has been left. -/
theorem makes_leave (call : ChatCall) (left : Except PyExc Unit × StreamLocals) (l : StreamLocals) :
    ((Block.tryFinally (Block.tryExcept PyExc.isException (Block.resume left) ChatApp.streamFailed)
      (app.streamFinally call)).toProgram l).Makes ChatOp.Settles := by
  refine Block.Makes.toProgram ?_ l
  refine Block.Makes.tryFinally ?_ (app.makes_streamFinally call)
  exact (Block.makes_resume left).tryExcept (ChatApp.makes_streamFailed _)

/-- **What is sent to a client that stays**: the events up to the first one that cannot be read. -/
theorem run_streamResponse (call : ChatCall) (items : List StreamItem) :
    ((app.streamResponse call).run (connected ⟨items, none⟩ rest) []).2 =
      (ensureDoneEvent (streamWithHeartbeats items) none).takeWhile
        fun event => Readable app.loads event := by
  let l : StreamLocals := ⟨"", .completed, none, false⟩
  let events := ensureDoneEvent (streamWithHeartbeats items) none
  let upstream : UpstreamStream := ⟨items, none⟩
  have hprogram : (app.streamResponse call).run (connected upstream rest) [] =
      ((Block.tryFinally (Block.tryExcept PyExc.isException (app.streamEvents none events)
        ChatApp.streamFailed) (app.streamFinally call)).toProgram l).run (connected upstream rest) [] := by
    rw [ChatApp.streamResponse, Program.bind_eq, Program.run_bind, chatCall, Program.run_perform]
    simp only [connected]
    rw [Program.bind_eq, Program.run_bind, chatCall, Program.run_perform]
    rfl
  obtain ⟨left, hloop⟩ : ∃ left, (app.streamEvents none events l).run (connected upstream rest) [] =
      (.ok left, [] ++ events.takeWhile fun event => Readable app.loads event) := run_streamEvents events l []
  rw [hprogram, Block.toProgram_try, Program.run_bind, hloop]
  exact run_settles (makes_leave call left l) _

end Run

/-- `line.strip()`. -/
def stripLine (line : Line) : Line := (strip (String.ofList line)).toList

theorem stripLine_eq (line : Line) :
    stripLine line = ((line.dropWhile isPySpace).reverse.dropWhile isPySpace).reverse := by
  rw [stripLine, strip, String.toList_ofList, String.toList_ofList]

/-- What is stripped at the end ends after the last character that is no space. -/
theorem dropWhile_reverse_split {c : Char} (hc : isPySpace c = false) (left right : Line) :
    ((left ++ c :: right).reverse.dropWhile isPySpace).reverse =
      left ++ c :: (right.reverse.dropWhile isPySpace).reverse := by
  rw [List.reverse_append, List.reverse_cons, List.append_assoc, List.dropWhile_append]
  split
  · rename_i hempty
    have hnil : right.reverse.dropWhile isPySpace = [] := by simpa using hempty
    rw [List.singleton_append, List.dropWhile_cons_of_neg (by simp [hc]), hnil]
    simp
  · simp

theorem mem_stripLine {line : Line} {c : Char} (h : c ∈ stripLine line) : c ∈ line := by
  rw [stripLine_eq, List.mem_reverse] at h
  have hmem := (List.dropWhile_suffix _).subset h
  exact (List.dropWhile_suffix _).subset (List.mem_reverse.mp hmem)

/-- A field line is its name, or goes on after a colon. -/
theorem IsFieldLine.shape {line : Line} (h : IsFieldLine line) :
    line ∈ [dataName, eventName, idName, retryName] ∨ ∃ value, line = fieldName line ++ ':' :: value := by
  obtain ⟨hline, hname⟩ := h
  have hsplit : fieldName line ++ line.dropWhile (· ≠ ':') = line := List.takeWhile_append_dropWhile
  cases hrest : line.dropWhile (· ≠ ':') with
  | nil =>
      rw [hrest, List.append_nil] at hsplit
      rw [hsplit] at hname
      refine .inl ?_
      simpa [hline] using hname
  | cons c value =>
      have hcolon : c = ':' := by
        have hhead := List.head?_dropWhile_not (fun c : Char => c ≠ ':') line
        rw [hrest] at hhead
        simpa using hhead
      rw [hrest, hcolon] at hsplit
      exact .inr ⟨value, hsplit.symm⟩

theorem fieldName_append {name value : Line} (h : name ∈ [[], dataName, eventName, idName, retryName]) :
    fieldName (name ++ ':' :: value) = name := by
  simp only [List.mem_cons, List.not_mem_nil, or_false] at h
  rcases h with rfl | rfl | rfl | rfl | rfl
  · rfl
  · rfl
  · rfl
  · rfl
  · rfl

/-- **A field line that is stripped keeps its name.** -/
theorem stripLine_field {line : Line} (h : IsFieldLine line) :
    IsFieldLine (stripLine line) ∧ fieldName (stripLine line) = fieldName line := by
  rcases h.shape with hname | ⟨value, hvalue⟩
  · have hsame : stripLine line = line := by
      simp only [List.mem_cons, List.not_mem_nil, or_false] at hname
      rcases hname with rfl | rfl | rfl | rfl
      · decide
      · decide
      · decide
      · decide
    rw [hsame]
    exact ⟨h, rfl⟩
  · obtain ⟨-, hname⟩ := h
    have hstart : (fieldName line ++ ':' :: value).dropWhile isPySpace = fieldName line ++ ':' :: value := by
      simp only [List.mem_cons, List.not_mem_nil, or_false] at hname
      rcases hname with hname | hname | hname | hname | hname
      · rw [hname]
        rfl
      · rw [hname]
        rfl
      · rw [hname]
        rfl
      · rw [hname]
        rfl
      · rw [hname]
        rfl
    have hstrip : stripLine line = fieldName line ++ ':' :: (value.reverse.dropWhile isPySpace).reverse := by
      calc stripLine line
          = stripLine (fieldName line ++ ':' :: value) := congrArg stripLine hvalue
        _ = ((fieldName line ++ ':' :: value).reverse.dropWhile isPySpace).reverse := by
            rw [stripLine_eq, hstart]
        _ = _ := dropWhile_reverse_split (by decide) _ _
    have hsame : fieldName (stripLine line) = fieldName line := by
      rw [hstrip]
      exact fieldName_append hname
    refine ⟨⟨?_, ?_⟩, hsame⟩
    · rw [hstrip]
      simp
    · rw [hsame]
      exact hname

theorem linePieces_cons {c : Char} (h : inLine c) (rest : List Char) :
    linePieces (c :: rest) =
      if isLineBreak c then [] :: linePieces rest else (linePieces rest).modifyHead (c :: ·) := by
  obtain ⟨hfeed, hreturn⟩ := h
  rw [linePieces]
  · simp only [hfeed, hreturn, false_or]
  · intro _ heq
    exact absurd heq hreturn

/-- The part of a line that comes first. -/
def firstPiece (line : Line) : Line := line.takeWhile fun c => !isLineBreak c

/-- What `splitlines` makes of a line: its first part, and the parts that it cuts off. -/
theorem linePieces_line {line : Line} (h : ∀ c ∈ line, inLine c) :
    linePieces line = firstPiece line :: (linePieces line).tail := by
  induction line with
  | nil => rfl
  | cons c line ih =>
      have hrest := ih fun other hother => h other (List.mem_cons_of_mem _ hother)
      rw [linePieces_cons (h c List.mem_cons_self)]
      cases hbreak : isLineBreak c with
      | true =>
          rw [if_pos rfl, firstPiece, List.takeWhile_cons_of_neg (by simp [hbreak])]
          rfl
      | false =>
          have hfirst : firstPiece (c :: line) = c :: firstPiece line := List.takeWhile_cons_of_pos (by simp [hbreak])
          rw [if_neg Bool.false_ne_true, hrest, List.modifyHead_cons, hfirst]
          rfl

theorem mem_linePieces {text : List Char} {piece : Line} (h : piece ∈ linePieces text) : ∀ c ∈ piece, inLine c := by
  fun_induction linePieces text generalizing piece with
  | case1 =>
      rw [List.mem_singleton.mp h]
      exact List.forall_mem_nil _
  | case2 rest ih =>
      rcases List.mem_cons.mp h with rfl | h
      · exact List.forall_mem_nil _
      · exact ih h
  | case3 c rest _ _ ih =>
      rcases List.mem_cons.mp h with rfl | h
      · exact List.forall_mem_nil _
      · exact ih h
  | case4 c rest _ hends ih =>
      cases hpieces : linePieces rest with
      | nil =>
          rw [hpieces] at h
          cases h
      | cons first others =>
          rw [hpieces, List.modifyHead_cons] at h
          rcases List.mem_cons.mp h with rfl | h
          · intro d hd
            rcases List.mem_cons.mp hd with rfl | hd
            · exact ⟨fun heq => hends (.inl heq), fun heq => hends (.inr (.inl heq))⟩
            · exact ih (hpieces ▸ List.mem_cons_self) d hd
          · exact ih (hpieces ▸ List.mem_cons_of_mem _ h)

/-- The pieces of a text are those of its lines. -/
theorem linePieces_eq (text : List Char) :
    linePieces text = ((splitLines text).1 ++ [(splitLines text).2]).flatMap linePieces := by
  fun_induction splitLines text with
  | case1 => rfl
  | case2 rest ih =>
      rw [linePieces, if_pos (.inl rfl), ih]
      · rfl
      · intro _ heq
        exact absurd heq (by decide)
  | case3 rest ih =>
      rw [linePieces, ih]
      rfl
  | case4 rest hnext ih =>
      rw [linePieces, if_pos (.inr (.inl rfl)), ih]
      · rfl
      · intro other _ heq
        exact hnext other heq
  | case5 c rest hfeed _ hreturn ih =>
      have hc : inLine c := ⟨hfeed, hreturn⟩
      rw [linePieces_cons hc, ih]
      have hhead : ∀ (line : Line) (others : List Line), (∀ d ∈ line, inLine d) →
          (if isLineBreak c then [] :: (line :: others).flatMap linePieces
            else ((line :: others).flatMap linePieces).modifyHead (c :: ·)) =
          ((c :: line) :: others).flatMap linePieces := by
        intro line others hline
        rw [List.flatMap_cons, List.flatMap_cons, linePieces_cons hc, linePieces_line hline]
        split
        · rfl
        · rfl
      have hlines := inLine_of_mem rest
      generalize splitLines rest = found at hlines
      obtain ⟨lines, tail⟩ := found
      cases lines with
      | nil => exact hhead tail [] (hlines tail List.mem_cons_self)
      | cons line lines => exact hhead line (lines ++ [tail]) (hlines line List.mem_cons_self)

/-- What is sent of a line: its first part, stripped. -/
def trimLine (line : Line) : Line := stripLine (firstPiece line)

/-- The parts that are cut off a line, stripped; each is sent as a line of its own. -/
def cutOff (line : Line) : List Line := (linePieces line).tail.map stripLine

/-- A field line that is cut keeps its name. -/
theorem firstPiece_field {line : Line} (h : IsFieldLine line) :
    IsFieldLine (firstPiece line) ∧ fieldName (firstPiece line) = fieldName line := by
  rcases h.shape with hname | ⟨value, hvalue⟩
  · have hsame : firstPiece line = line := by
      simp only [List.mem_cons, List.not_mem_nil, or_false] at hname
      rcases hname with rfl | rfl | rfl | rfl
      · decide
      · decide
      · decide
      · decide
    rw [hsame]
    exact ⟨h, rfl⟩
  · have hall : (fieldName line ++ [':']).all (fun c => !isLineBreak c) = true := by
      have hmem := h.2
      simp only [List.mem_cons, List.not_mem_nil, or_false] at hmem
      rcases hmem with hmem | hmem | hmem | hmem | hmem
      · rw [hmem]
        rfl
      · rw [hmem]
        rfl
      · rw [hmem]
        rfl
      · rw [hmem]
        rfl
      · rw [hmem]
        rfl
    have hname : ∀ c ∈ fieldName line ++ [':'], (!isLineBreak c) = true := List.all_eq_true.mp hall
    have hpiece : firstPiece line = fieldName line ++ ':' :: firstPiece value := by
      calc firstPiece line
          = firstPiece ((fieldName line ++ [':']) ++ value) := by
            rw [List.append_assoc, List.singleton_append, ← hvalue]
        _ = (fieldName line ++ [':']) ++ firstPiece value := List.takeWhile_append_of_pos hname
        _ = _ := by rw [List.append_assoc, List.singleton_append]
    have hsame : fieldName (firstPiece line) = fieldName line := by
      rw [hpiece]
      exact fieldName_append h.2
    refine ⟨⟨?_, ?_⟩, hsame⟩
    · rw [hpiece]
      simp
    · rw [hsame]
      exact h.2

theorem trimLine_field {line : Line} (h : IsFieldLine line) :
    IsFieldLine (trimLine line) ∧ fieldName (trimLine line) = fieldName line := by
  obtain ⟨hpiece, hname⟩ := firstPiece_field h
  obtain ⟨htrimmed, hstripped⟩ := stripLine_field hpiece
  exact ⟨htrimmed, hstripped.trans hname⟩

/-- An event of one line, ended by an empty line. -/
theorem toList_eventOf {stripped : String} (h : ∀ c ∈ stripped.toList, inLine c) :
    (eventOf stripped).toList = stripped.toList ++ ['\n', '\n'] := by
  have hends : ¬ "\n\n".toList.isSuffixOf stripped.toList = true := by
    intro hsuffix
    rw [List.isSuffixOf_iff_suffix] at hsuffix
    exact (h '\n' (hsuffix.subset (by decide))).1 rfl
  rw [eventOf, if_neg hends, String.toList_append]
  rfl

/-- A line that starts in a certain way still does where what follows it is left out. -/
theorem prefix_of_prefix_append {start line ends : Line} (h : start <+: line ++ ends) (hends : ∀ c ∈ ends, c ∉ start) :
    start <+: line := by
  obtain ⟨rest, hrest⟩ := h
  rcases List.append_eq_append_iff.mp hrest with ⟨more, hmore, -⟩ | ⟨more, hmore, hmiddle⟩
  · exact ⟨more, hmore.symm⟩
  · cases more with
    | nil =>
        rw [List.append_nil] at hmore
        rw [hmore]
    | cons c more =>
        have hc : c ∈ ends := by
          rw [hmiddle]
          exact List.mem_cons_self
        have hstart : c ∈ start := by
          rw [hmore]
          simp
        exact absurd hstart (hends c hc)

/-- Only a data line can fail to be read. -/
theorem isData_of_not_readable {loads : JsonLoads} {stripped : String}
    (hline : ∀ c ∈ stripped.toList, inLine c) (h : ¬ Readable loads (eventOf stripped)) :
    IsData stripped.toList := by
  have hstarts : startsWith (eventOf stripped) "data: " = true := by
    by_contra hother
    refine h ?_
    rw [Readable, streamDeltaText, if_neg hother]
    rfl
  rw [startsWith, List.isPrefixOf_iff_prefix, toList_eventOf hline] at hstarts
  obtain ⟨rest, hrest⟩ := prefix_of_prefix_append hstarts (List.all_iff_forall_prop.mp (by decide))
  rw [← hrest]
  rfl

/-- The byte order mark. -/
def bom : Char := Char.ofNat 0xFEFF

theorem IsFieldLine.head {line : Line} (h : IsFieldLine line) : line.head? ≠ some bom := by
  intro hhead
  obtain ⟨rest, rfl⟩ : ∃ rest, line = bom :: rest := by
    cases line with
    | nil => cases hhead
    | cons c rest =>
        rw [Option.some.inj hhead]
        exact ⟨rest, rfl⟩
  have hname : fieldName (bom :: rest) = bom :: fieldName rest :=
    List.takeWhile_cons_of_pos (by decide)
  have hmem := h.2
  rw [hname] at hmem
  simp only [List.mem_cons, List.not_mem_nil, or_false] at hmem
  rcases hmem with hmem | hmem | hmem | hmem | hmem
  · cases hmem
  · exact absurd (List.cons.inj hmem).1 (by decide)
  · exact absurd (List.cons.inj hmem).1 (by decide)
  · exact absurd (List.cons.inj hmem).1 (by decide)
  · exact absurd (List.cons.inj hmem).1 (by decide)

theorem dropBom_of_head {text : List Char} (h : text.head? ≠ some bom) : dropBom text = text := by
  cases text with
  | nil => rfl
  | cons c rest =>
      rw [dropBom, if_neg]
      rintro rfl
      exact h rfl

/-- A line that can be sent. -/
def Sendable (stripped : String) : Prop := stripped.toList ≠ [] ∧ ∀ c ∈ stripped.toList, inLine c

theorem splitLines_join {sent : List String} (h : ∀ stripped ∈ sent, Sendable stripped) :
    splitLines (String.join (sent.map eventOf)).toList =
      ((sent.map fun stripped => [stripped.toList]).flatMap (· ++ [[]]), []) := by
  rw [String.toList_join]
  induction sent with
  | nil => rfl
  | cons stripped sent ih =>
      have hline := (h stripped List.mem_cons_self).2
      rw [List.map_cons, List.flatMap_cons, toList_eventOf hline, List.append_assoc, List.cons_append,
        List.cons_append, splitLines_line hline, splitLines_feed,
        List.nil_append, ih fun other hother => h other (List.mem_cons_of_mem _ hother)]
      rfl

/-- **What a parser reads from the text that is sent**: each line is a block of its own. -/
theorem events_join {sent : List String} (h : ∀ stripped ∈ sent, Sendable stripped)
    (hfirst : ∀ stripped ∈ sent.head?, IsFieldLine stripped.toList) :
    events (String.join (sent.map eventOf)).toList = soloEvents [] (sent.map String.toList) := by
  have hhead : (String.join (sent.map eventOf)).toList.head? ≠ some bom := by
    cases sent with
    | nil => exact nofun
    | cons stripped sent =>
        have hline := (h stripped List.mem_cons_self).2
        have hfield := hfirst stripped rfl
        rw [String.toList_join, List.map_cons, List.flatMap_cons, toList_eventOf hline]
        obtain ⟨c, rest, hcons⟩ := List.exists_cons_of_ne_nil hfield.1
        have hbom := hfield.head
        rw [hcons] at hbom ⊢
        exact hbom
  have hblocks : ∀ block ∈ sent.map fun stripped => [stripped.toList], [] ∉ block := by
    intro block hblock hnil
    obtain ⟨stripped, hstripped, rfl⟩ := List.mem_map.mp hblock
    exact (h stripped hstripped).1 (List.mem_singleton.mp hnil).symm
  rw [events, dropBom_of_head hhead, splitLines_join h, soloEvents, List.map_map]
  exact read_blocks [] hblocks

namespace SseBody

variable (body : SseBody)

/-- The lines of the body that are not empty. -/
def lines : List Line := body.blocks.flatten

theorem isFieldLine {line : Line} (h : line ∈ body.lines) : IsFieldLine line := by
  obtain ⟨block, hblock, hline⟩ := List.mem_flatten.mp h
  exact (body.fields block hblock).2 line hline

theorem inLine {line : Line} (h : line ∈ body.lines) : ∀ c ∈ line, inLine c := by
  obtain ⟨block, hblock, hline⟩ := List.mem_flatten.mp h
  refine inLine_of_mem body.text.toList line (List.mem_append_left _ ?_)
  rw [body.split]
  exact List.mem_flatMap.mpr ⟨block, hblock, List.mem_append_left _ hline⟩

/-- The events of the body. -/
theorem events_eq : events body.text.toList = streamEvents [] body.blocks := by
  have hblocks : ∀ block ∈ body.blocks, [] ∉ block := by
    intro block hblock hnil
    exact ((body.fields block hblock).2 [] hnil).1 rfl
  have hhead : body.text.toList.head? ≠ some bom := by
    intro hbom
    obtain ⟨rest, htext⟩ : ∃ rest, body.text.toList = bom :: rest := by
      cases htext : body.text.toList with
      | nil =>
          rw [htext] at hbom
          cases hbom
      | cons c rest =>
          rw [htext] at hbom
          rw [Option.some.inj hbom]
          exact ⟨rest, rfl⟩
    have hsplit := body.split
    rw [htext, splitLines_cons ⟨by decide, by decide⟩] at hsplit
    -- the mark would be the first character of the first line
    generalize splitLines rest = found at hsplit
    obtain ⟨found, tail⟩ := found
    cases found with
    | nil => exact absurd (Prod.mk.inj hsplit).2 (List.cons_ne_nil _ _)
    | cons line found =>
        have hlines := (Prod.mk.inj hsplit).1
        cases hbody : body.blocks with
        | nil =>
            rw [hbody] at hlines
            cases hlines
        | cons block blocks =>
            obtain ⟨hne, hfields⟩ := body.fields block (by simp [hbody])
            obtain ⟨first, block', rfl⟩ := List.exists_cons_of_ne_nil hne
            rw [hbody] at hlines
            have hfirst : bom :: line = first := (List.cons.inj hlines).1
            exact (hfields first List.mem_cons_self).head (by rw [← hfirst]; rfl)
  rw [events, dropBom_of_head hhead, body.split]
  exact read_blocks [] hblocks

/-- The lines that the client passes on: what `splitlines` makes of the lines, without the empty parts. -/
def clientLines : List Line := (body.lines.flatMap linePieces).filter fun line => line ≠ []

variable {aiterLines : String → List String}

theorem client_lines (haiter : SplitsLines aiterLines) :
    VLLMClient.streamChatCompletion (aiterLines body.text) = body.clientLines.map String.ofList := by
  have hlines : aiterLines body.text =
      ((body.blocks.flatMap (· ++ [[]])).flatMap linePieces).map String.ofList := by
    have hpieces : linePieces body.text.toList = (body.blocks.flatMap (· ++ [[]])).flatMap linePieces ++ [[]] := by
      rw [linePieces_eq, body.split, List.flatMap_append]
      rfl
    rw [haiter, splitlines]
    simp only [hpieces, List.getLast?_concat, if_true, List.dropLast_concat]
  have hkeeps : ∀ blocks : List (List Line),
      ((blocks.flatMap (· ++ [[]])).flatMap linePieces).filter (fun line => line ≠ []) =
        (blocks.flatten.flatMap linePieces).filter fun line => line ≠ [] := by
    intro blocks
    induction blocks with
    | nil => rfl
    | cons block blocks ih =>
        have hempty : (([] : Line) :: []).flatMap linePieces = [[]] := rfl
        rw [List.flatMap_cons, List.flatMap_append, List.filter_append, ih, List.flatMap_append, hempty,
          List.filter_append, List.flatten_cons, List.flatMap_append, List.filter_append]
        simp
  have hfilter : ∀ lines : List Line, (lines.map String.ofList).filter (fun line => line ≠ "") =
      (lines.filter fun line => line ≠ []).map String.ofList := by
    intro lines
    rw [List.filter_map]
    congr 1
    refine List.filter_congr ?_
    intro line hline
    cases line with
    | nil => rfl
    | cons c line => simp
  rw [VLLMClient.streamChatCompletion, hlines, hfilter, hkeeps, clientLines]
  rfl

/-- What `stream_with_heartbeats` waits for: the lines of the client, each after any number of timeouts. -/
def Delivers (aiterLines : String → List String) (items : List StreamItem) : Prop :=
  items.filterMap StreamItem.text = VLLMClient.streamChatCompletion (aiterLines body.text)

instance (aiterLines : String → List String) (items : List StreamItem) :
    Decidable (body.Delivers aiterLines items) := inferInstanceAs (Decidable (_ = _))

variable {body} in
theorem Delivers.lines {items : List StreamItem} (haiter : SplitsLines aiterLines)
    (h : body.Delivers aiterLines items) :
    items.filterMap StreamItem.text = body.clientLines.map String.ofList := h.trans (body.client_lines haiter)

/-- The lines that are sent for those of the body. -/
def relayedLines : List Line := relayed trimLine cutOff body.lines

theorem relayedLines_eq : body.relayedLines = (body.lines.flatMap linePieces).map stripLine := by
  rw [relayedLines, relayed, List.map_flatMap]
  refine List.flatMap_congr ?_
  intro line hline
  rw [linePieces_line (body.inLine hline), List.map_cons]
  rfl

theorem inLine_relayedLines {line : Line} (h : line ∈ body.relayedLines) : ∀ c ∈ line, EventStream.inLine c := by
  rw [relayedLines_eq] at h
  obtain ⟨piece, hpiece, rfl⟩ := List.mem_map.mp h
  obtain ⟨whole, -, hpiece⟩ := List.mem_flatMap.mp hpiece
  intro c hc
  exact mem_linePieces hpiece c (mem_stripLine hc)

/-- What is left of the lines of the client when they are stripped, apart from empty lines. -/
theorem soloEvents_clientLines (id : Line) :
    soloEvents id (body.clientLines.map stripLine) = soloEvents id body.relayedLines := by
  have hstrip : stripLine [] = [] := by decide
  have hfilter : ∀ lines : List Line, ((lines.filter fun line => line ≠ []).map stripLine).filter
      (fun line => line ≠ []) = (lines.map stripLine).filter fun line => line ≠ [] := by
    intro lines
    induction lines with
    | nil => rfl
    | cons line lines ih =>
        by_cases hline : line = []
        · rw [hline, List.filter_cons_of_neg (by simp), ih, List.map_cons, hstrip, List.filter_cons_of_neg (by simp)]
        · rw [List.filter_cons_of_pos (by simpa using hline), List.map_cons, List.map_cons, List.filter_cons,
            List.filter_cons, ih]
  rw [relayedLines_eq, ← soloEvents_filter id (body.clientLines.map stripLine), clientLines, hfilter,
    soloEvents_filter]

end SseBody

def heartbeatLine : String := ": heartbeat"

/-- What is left of an item when it is stripped. -/
def StreamItem.stripped : StreamItem → String
  | line text => strip text
  | timeout => heartbeatLine

theorem strip_streamWithHeartbeats (items : List StreamItem) :
    (streamWithHeartbeats items).map strip = items.map StreamItem.stripped := by
  rw [streamWithHeartbeats, List.map_map]
  refine List.map_congr_left ?_
  intro item hitem
  cases item with
  | line text => rfl
  | timeout => decide

theorem heartbeat_not_data : ¬ IsData heartbeatLine.toList := by decide

theorem sendable_heartbeat : Sendable heartbeatLine := ⟨by decide, inLine_of_all (by decide)⟩

theorem readable_heartbeat (loads : JsonLoads) : Readable loads (eventOf heartbeatLine) := by
  by_contra h
  exact heartbeat_not_data (isData_of_not_readable sendable_heartbeat.2 h)

/-- The heartbeats are comments: they put no event between those of the lines. -/
theorem soloEvents_stripped {items : List StreamItem} {lines : List Line}
    (h : items.filterMap StreamItem.text = lines.map String.ofList) (id : Line) :
    soloEvents id ((items.map StreamItem.stripped).map String.toList) =
      soloEvents id (lines.map stripLine) := by
  induction items generalizing lines id with
  | nil =>
      have hnil : lines = [] := by simpa using h
      rw [hnil]
      rfl
  | cons item items ih =>
      cases item with
      | timeout =>
          rw [List.map_cons, List.map_cons, soloEvents_cons, StreamItem.stripped,
            if_neg heartbeat_not_data, idAfter_singleton, if_neg (by decide)]
          exact ih h id
      | line text =>
          cases lines with
          | nil => cases h
          | cons line lines =>
              obtain ⟨rfl, hrest⟩ := List.cons.inj h
              have hstripped : (StreamItem.line (String.ofList line)).stripped.toList = stripLine line := rfl
              rw [List.map_cons, List.map_cons, List.map_cons, soloEvents_cons, soloEvents_cons,
                hstripped, ih hrest]

theorem stripped_mem {items : List StreamItem} {lines : List Line}
    (h : items.filterMap StreamItem.text = lines.map String.ofList) :
    (∀ line ∈ lines, strip (String.ofList line) ∈ items.map StreamItem.stripped) ∧
      ∀ stripped ∈ items.map StreamItem.stripped, stripped = heartbeatLine ∨
        ∃ line ∈ lines, stripped = strip (String.ofList line) := by
  refine ⟨?_, ?_⟩
  · intro line hline
    have hmem : String.ofList line ∈ items.filterMap StreamItem.text := by
      rw [h]
      exact List.mem_map_of_mem hline
    obtain ⟨item, hitem, htext⟩ := List.mem_filterMap.mp hmem
    refine List.mem_map.mpr ⟨item, hitem, ?_⟩
    cases item with
    | timeout => cases htext
    | line text => exact congrArg strip (Option.some.inj htext)
  · intro stripped hstripped
    obtain ⟨item, hitem, rfl⟩ := List.mem_map.mp hstripped
    cases item with
    | timeout => exact .inl rfl
    | line text =>
        have hmem : text ∈ items.filterMap StreamItem.text :=
          List.mem_filterMap.mpr ⟨.line text, hitem, rfl⟩
        rw [h] at hmem
        obtain ⟨line, hline, rfl⟩ := List.mem_map.mp hmem
        exact .inr ⟨line, hline, rfl⟩

/-- What is sent of the items: an item that is empty when it is stripped is dropped. -/
def sentItems (items : List StreamItem) : List String :=
  (items.map StreamItem.stripped).filter fun stripped => stripped ≠ ""

section Sent

variable {body : SseBody} {aiterLines : String → List String} {items : List StreamItem}
  (haiter : SplitsLines aiterLines) (h : body.Delivers aiterLines items)

include haiter h in
theorem soloEvents_sentItems (id : Line) :
    soloEvents id ((sentItems items).map String.toList) = soloEvents id body.relayedLines := by
  have hfilter : (sentItems items).map String.toList =
      ((items.map StreamItem.stripped).map String.toList).filter fun line => line ≠ [] := by
    rw [sentItems, List.filter_map (p := fun line : Line => line ≠ [])]
    refine congrArg (List.map String.toList) (List.filter_congr ?_)
    intro stripped hstripped
    simp
  rw [hfilter, soloEvents_filter, soloEvents_stripped (h.lines haiter), body.soloEvents_clientLines]

include haiter h in
/-- Every line that is sent is a heartbeat or comes from the body. -/
theorem mem_sentItems {stripped : String} (hstripped : stripped ∈ sentItems items) :
    stripped = heartbeatLine ∨ stripped.toList ∈ body.relayedLines := by
  rcases (stripped_mem (h.lines haiter)).2 stripped (List.mem_of_mem_filter hstripped) with rfl | ⟨line, hline, rfl⟩
  · exact .inl rfl
  · refine .inr ?_
    rw [body.relayedLines_eq]
    exact List.mem_map_of_mem (List.mem_of_mem_filter hline)

include haiter h in
/-- Every line of the body that is not empty is sent. -/
theorem sentItems_of_relayed {line : Line} (hline : line ∈ body.relayedLines) (hne : line ≠ []) :
    String.ofList line ∈ sentItems items := by
  rw [body.relayedLines_eq] at hline
  obtain ⟨piece, hpiece, rfl⟩ := List.mem_map.mp hline
  have hstrip : String.ofList (stripLine piece) = strip (String.ofList piece) := String.ofList_toList
  refine List.mem_filter.mpr ⟨?_, by simpa using hne⟩
  rw [hstrip]
  refine (stripped_mem (h.lines haiter)).1 piece (List.mem_filter.mpr ⟨hpiece, ?_⟩)
  refine decide_eq_true ?_
  rintro rfl
  exact hne (by decide)

include haiter h in
theorem sendable_sentItems : ∀ stripped ∈ sentItems items, Sendable stripped := by
  intro stripped hstripped
  have hne : stripped ≠ "" := of_decide_eq_true (List.mem_filter.mp hstripped).2
  refine ⟨by simpa using hne, ?_⟩
  rcases mem_sentItems haiter h hstripped with rfl | hline
  · exact sendable_heartbeat.2
  · exact body.inLine_relayedLines hline

include haiter h in
/-- The first line that is sent is a heartbeat or a field line. -/
theorem head_sentItems : ∀ stripped ∈ (sentItems items).head?, IsFieldLine stripped.toList := by
  have hfield : IsFieldLine heartbeatLine.toList := ⟨by decide, by decide⟩
  have hfirst : ∀ (item : StreamItem) (rest : List StreamItem), IsFieldLine item.stripped.toList →
      ∀ stripped ∈ (sentItems (item :: rest)).head?, IsFieldLine stripped.toList := by
    intro item rest hitem stripped hstripped
    have hne : item.stripped ≠ "" := fun heq => hitem.1 (by rw [heq]; rfl)
    rw [sentItems, List.map_cons, List.filter_cons_of_pos (by simpa using hne), List.head?_cons] at hstripped
    rw [← Option.some.inj hstripped]
    exact hitem
  cases items with
  | nil => exact nofun
  | cons item items =>
      cases item with
      | timeout => exact hfirst .timeout items hfield
      | line text =>
          have hlines := h.lines haiter
          rw [SseBody.clientLines] at hlines
          have hbody : ∀ line ∈ body.lines, IsFieldLine line ∧ ∀ c ∈ line, inLine c :=
            fun line hline => ⟨body.isFieldLine hline, body.inLine hline⟩
          generalize body.lines = lines at hlines hbody
          cases lines with
          | nil => cases hlines
          | cons line lines =>
              obtain ⟨hline, hchars⟩ := hbody line List.mem_cons_self
              rw [List.flatMap_cons, linePieces_line hchars, List.cons_append,
                List.filter_cons_of_pos (by simpa using (firstPiece_field hline).1.1)] at hlines
              obtain ⟨rfl, -⟩ := List.cons.inj hlines
              exact hfirst _ items (trimLine_field hline).1

end Sent

/-! ### The events that arrive -/

def doneData : List Char := ['[', 'D', 'O', 'N', 'E', ']']

/-- The upstream has sent a [DONE] data event. -/
def SseBody.SendsDone (body : SseBody) : Prop := ∃ event ∈ events body.text.toList, event.data = doneData

/-- The text has the events of the body, and then a [DONE] data event exactly when the body has none. -/
def PreservesEvents (body : SseBody) (text : String) : Prop :=
  ∃ appended, events text.toList = events body.text.toList ++ appended ∧
    (body.SendsDone → appended = []) ∧ (¬ body.SendsDone → ∃ id, appended = [⟨messageName, id, doneData⟩])

/-- The bodies whose events survive the relay. -/
structure Relayable (loads : JsonLoads) (body : SseBody) : Prop where
  cuts : CutsNoData cutOff body.lines
  carried : CarriedAlone trimLine cutOff [] [] body.blocks
  readable : ∀ line ∈ body.relayedLines, Readable loads (eventOf (String.ofList line))
  done : body.SendsDone → doneLine.toList ∈ body.relayedLines

section Proxy

variable {body : SseBody} {items : List StreamItem} {loads : JsonLoads} {aiterLines : String → List String}

/-- The [DONE] event that is appended. -/
def appendedDone (stripped : List String) : List String := if doneLine ∈ stripped then [] else [doneLine]

theorem sendable_done : Sendable doneLine := ⟨by decide, inLine_of_all (by decide)⟩

theorem readable_done (loads : JsonLoads) : Readable loads (eventOf doneLine) := by
  have hstarts : startsWith (eventOf doneLine) "data: " = true := by decide
  have hpayload : strip (String.ofList ((eventOf doneLine).toList.drop "data: ".length)) = "[DONE]" := by decide
  rw [Readable, streamDeltaText, if_pos hstarts]
  simp only [hpayload, if_true]
  rfl

theorem readable_empty (loads : JsonLoads) : Readable loads (eventOf "") := by
  have hstarts : startsWith (eventOf "") "data: " = false := by decide
  rw [Readable, streamDeltaText, if_neg (by rw [hstarts]; exact Bool.false_ne_true)]
  rfl

/-- The events of `ensure_done_event`, as lines. -/
theorem ensureDoneEvent_eq (items : List StreamItem) : ensureDoneEvent (streamWithHeartbeats items) none =
    (sentItems items ++ appendedDone (sentItems items)).map eventOf := by
  rw [ensureDoneEvent, strip_streamWithHeartbeats]
  have hsent : (items.map StreamItem.stripped).filter (fun line => line ≠ "") = sentItems items := rfl
  simp only [hsent, Option.isNone_none, true_and, appendedDone]
  by_cases hdone : doneLine ∈ sentItems items
  · rw [if_neg (not_not_intro hdone), if_pos hdone, List.append_nil]
  · have hformat : formatSseData "[DONE]" = eventOf doneLine := by decide
    rw [if_pos hdone, if_neg hdone, List.map_append, hformat]
    rfl

/-- The lines that are sent. -/
def sentLines (loads : JsonLoads) (stripped : List String) : List String :=
  (stripped ++ appendedDone stripped).takeWhile fun line => Readable loads (eventOf line)

theorem sendable_sentLines (haiter : SplitsLines aiterLines) (h : body.Delivers aiterLines items) :
    ∀ line ∈ sentLines loads (sentItems items), Sendable line := by
  intro line hline
  rcases List.mem_append.mp ((List.takeWhile_prefix _).subset hline) with hline | hline
  · exact sendable_sentItems haiter h line hline
  · rw [appendedDone] at hline
    split at hline
    · cases hline
    · rw [List.mem_singleton.mp hline]
      exact sendable_done

theorem head_sentLines (haiter : SplitsLines aiterLines) (h : body.Delivers aiterLines items) :
    ∀ line ∈ (sentLines loads (sentItems items)).head?, IsFieldLine line.toList := by
  intro line hline
  rw [sentLines, List.head?_takeWhile] at hline
  have hfirst := (Option.mem_filter_iff.mp hline).1
  have hhead := head_sentItems haiter h
  cases hitems : sentItems items with
  | nil =>
      rw [hitems] at hfirst
      rw [← Option.some.inj hfirst]
      exact ⟨by decide, by decide⟩
  | cons first others =>
      rw [hitems] at hfirst hhead
      exact hhead line hfirst

theorem events_streamedText (haiter : SplitsLines aiterLines) (h : body.Delivers aiterLines items)
    (app : ChatApp) (call : ChatCall) (rest : (op : ChatOp) → Except PyExc op.Res) :
    events (streamedText app call items rest).toList =
      soloEvents [] ((sentLines app.loads (sentItems items)).map String.toList) := by
  rw [streamedText, run_streamResponse, ensureDoneEvent_eq, List.takeWhile_map]
  exact events_join (sendable_sentLines haiter h) (head_sentLines haiter h)

/-- When every line can be read, everything is sent. -/
theorem sentLines_of_readable {stripped : List String}
    (h : ∀ line ∈ stripped, Readable loads (eventOf line)) :
    sentLines loads stripped = stripped ++ appendedDone stripped := by
  have hdone : ∀ line ∈ appendedDone stripped, Readable loads (eventOf line) := by
    intro line hline
    rw [appendedDone] at hline
    split at hline
    · cases hline
    · rw [List.mem_singleton.mp hline]
      exact readable_done loads
  rw [sentLines, List.takeWhile_append_of_pos fun line hline => decide_eq_true (h line hline),
    List.takeWhile_eq_self_iff.mpr fun line hline => decide_eq_true (hdone line hline)]

/-- The first line that cannot be read has data, and it is not sent. -/
theorem dataLines_sentLines_lt {stripped : List String} (hsend : ∀ line ∈ stripped, Sendable line)
    (h : ¬ ∀ line ∈ stripped, Readable loads (eventOf line)) :
    dataLines ((sentLines loads stripped).map String.toList) < dataLines (stripped.map String.toList) := by
  let reads (line : String) : Bool := decide (Readable loads (eventOf line))
  have hsplit : stripped.takeWhile reads ++ stripped.dropWhile reads = stripped :=
    List.takeWhile_append_dropWhile
  cases hrest : stripped.dropWhile reads with
  | nil =>
      refine absurd ?_ h
      intro line hline
      exact of_decide_eq_true (List.dropWhile_eq_nil_iff.mp hrest line hline)
  | cons line others =>
      have hstops : reads line = false := by
        have hhead := List.head?_dropWhile_not reads stripped
        rw [hrest] at hhead
        simpa using hhead
      rw [hrest] at hsplit
      have hline : line ∈ stripped := by
        rw [← hsplit]
        simp
      have hdata : IsData line.toList :=
        isData_of_not_readable (hsend line hline).2 (of_decide_eq_false hstops)
      have hsent : sentLines loads stripped = stripped.takeWhile reads := by
        have hbefore : ∀ other ∈ stripped.takeWhile reads, reads other = true :=
          fun other hother => List.mem_takeWhile_imp hother
        calc sentLines loads stripped
            = ((stripped.takeWhile reads ++ line :: others) ++ appendedDone stripped).takeWhile reads := by
              rw [hsplit]
              rfl
          _ = stripped.takeWhile reads := by
              rw [List.append_assoc, List.takeWhile_append_of_pos hbefore, List.cons_append,
                List.takeWhile_cons_of_neg (by simp [hstops]), List.append_nil]
      rw [hsent]
      calc dataLines ((stripped.takeWhile reads).map String.toList)
          < dataLines ((stripped.takeWhile reads).map String.toList) + 1 := Nat.lt_succ_self _
        _ ≤ dataLines (((stripped.takeWhile reads) ++ line :: others).map String.toList) := by
            rw [List.map_append, List.map_cons, dataLines_append, dataLines_cons, if_pos hdata]
            omega
        _ = dataLines (stripped.map String.toList) := by rw [hsplit]

theorem fieldName_trimLine : ∀ line ∈ body.lines, fieldName (trimLine line) = fieldName line :=
  fun _ hline => (trimLine_field (body.isFieldLine hline)).2

theorem fieldName_blocks : ∀ block ∈ body.blocks, ∀ line ∈ block, fieldName (trimLine line) = fieldName line :=
  fun _ hblock _ hline => fieldName_trimLine _ (List.mem_flatten.mpr ⟨_, hblock, hline⟩)

/-- Where no data is cut off, as many data lines are sent as the body has. -/
theorem dataLines_relayedLines (hcuts : CutsNoData cutOff body.lines) :
    dataLines body.relayedLines = dataLines body.lines := by
  rw [SseBody.relayedLines, dataLines_relayed fieldName_trimLine, dataLines_flatMap_eq_zero.mpr hcuts, Nat.add_zero]

theorem dataLines_sentItems (haiter : SplitsLines aiterLines) (h : body.Delivers aiterLines items)
    (hcuts : CutsNoData cutOff body.lines) :
    dataLines ((sentItems items).map String.toList) = dataLines body.lines := by
  rw [← length_soloEvents [], soloEvents_sentItems haiter h, length_soloEvents, dataLines_relayedLines hcuts]

/-- No line feed is in the data of an event that is sent. -/
theorem noFeed_sent {lines : List String} (h : ∀ line ∈ lines, Sendable line) :
    ∀ event ∈ soloEvents [] (lines.map String.toList), '\n' ∉ event.data := by
  intro event hevent hfeed
  obtain ⟨chars, hchars, -, hdata⟩ := mem_soloEvents [] hevent
  obtain ⟨line, hline, rfl⟩ := List.mem_map.mp hchars
  rw [hdata] at hfeed
  have hmem : '\n' ∈ line.toList := mem_of_mem_fieldValue hfeed
  exact ((h line hline).2 _ hmem).1 rfl

/-- What is sent when every line can be read. -/
theorem events_sent (haiter : SplitsLines aiterLines) (h : body.Delivers aiterLines items)
    (hreads : ∀ line ∈ sentItems items, Readable loads (eventOf line)) :
    ∃ id, soloEvents [] ((sentLines loads (sentItems items)).map String.toList) =
      soloEvents [] body.relayedLines ++
        if doneLine ∈ sentItems items then [] else [⟨messageName, id, doneData⟩] := by
  refine ⟨idAfter [] ((sentItems items).map String.toList), ?_⟩
  rw [sentLines_of_readable hreads, List.map_append, soloEvents_append, soloEvents_sentItems haiter h, appendedDone]
  congr 1
  split
  · rfl
  · have hvalue : fieldValue doneLine.toList = doneData := by decide
    rw [List.map_singleton, soloEvents_singleton, if_pos (by decide), hvalue]

/-- A line that the proxy takes for [DONE] comes from the body. -/
theorem doneLine_relayed_iff (haiter : SplitsLines aiterLines) (h : body.Delivers aiterLines items) :
    doneLine ∈ sentItems items ↔ doneLine.toList ∈ body.relayedLines := by
  constructor
  · intro hmem
    rcases mem_sentItems haiter h hmem with heartbeat | hline
    · exact absurd heartbeat (by decide)
    · exact hline
  · intro hline
    rw [← String.ofList_toList (s := doneLine)]
    exact sentItems_of_relayed haiter h hline (by decide)

/-- The lines of the body can all be read when what is sent can. -/
theorem readable_relayed_iff (haiter : SplitsLines aiterLines) (h : body.Delivers aiterLines items) :
    (∀ line ∈ sentItems items, Readable loads (eventOf line)) ↔
      ∀ line ∈ body.relayedLines, Readable loads (eventOf (String.ofList line)) := by
  constructor
  · intro hreads line hline
    by_cases hne : line = []
    · rw [hne]
      exact readable_empty loads
    · exact hreads _ (sentItems_of_relayed haiter h hline hne)
  · intro hreads stripped hstripped
    rcases mem_sentItems haiter h hstripped with rfl | hline
    · exact readable_heartbeat loads
    · have hread := hreads _ hline
      rw [String.ofList_toList] at hread
      exact hread

/-- Only a body whose events have one data line each can be preserved. -/
theorem PreservesEvents.oneDataLine {text : String} {lines : List String} (h : PreservesEvents body text)
    (hsend : ∀ line ∈ lines, Sendable line)
    (htext : events text.toList = soloEvents [] (lines.map String.toList)) :
    ∀ block ∈ body.blocks, OneDataLine block := by
  obtain ⟨appended, hevents, -⟩ := h
  have hfeeds : ∀ event ∈ streamEvents [] body.blocks, '\n' ∉ event.data := by
    intro event hevent
    refine noFeed_sent hsend event ?_
    rw [← htext, hevents, body.events_eq]
    exact List.mem_append_left _ hevent
  exact oneDataLine_of_streamEvents hfeeds

/-- Every line of a preserved body has been read. -/
theorem readable_of_preserves (haiter : SplitsLines aiterLines) (h : body.Delivers aiterLines items)
    (app : ChatApp) (call : ChatCall) (rest : (op : ChatOp) → Except PyExc op.Res)
    (hone : ∀ block ∈ body.blocks, OneDataLine block) (hcuts : CutsNoData cutOff body.lines)
    (hpreserves : PreservesEvents body (streamedText app call items rest)) :
    ∀ line ∈ sentItems items, Readable app.loads (eventOf line) := by
  by_contra hraises
  obtain ⟨appended, hevents, -⟩ := hpreserves
  have hlength := congrArg List.length hevents
  rw [events_streamedText haiter h, length_soloEvents, List.length_append, body.events_eq,
    length_streamEvents hone] at hlength
  have hlt : dataLines ((sentLines app.loads (sentItems items)).map String.toList) < dataLines body.lines :=
    (dataLines_sentLines_lt (sendable_sentItems haiter h) hraises).trans_eq (dataLines_sentItems haiter h hcuts)
  have hlines : dataLines body.blocks.flatten = dataLines body.lines := rfl
  omega

/-- The events of a body that can be relayed arrive. -/
theorem Relayable.preserves (haiter : SplitsLines aiterLines) (h : body.Delivers aiterLines items)
    (app : ChatApp) (call : ChatCall) (rest : (op : ChatOp) → Except PyExc op.Res)
    (hrelayable : Relayable app.loads body) : PreservesEvents body (streamedText app call items rest) := by
  obtain ⟨hcuts, hcarried, hreadable, hdone⟩ := hrelayable
  obtain ⟨id, hsent⟩ := events_sent haiter h ((readable_relayed_iff haiter h).mpr hreadable)
  have hblocks : ∀ block ∈ body.blocks, CutsNoData cutOff block :=
    fun block hblock line hline => hcuts line (List.mem_flatten.mpr ⟨block, hblock, hline⟩)
  have hsame : soloEvents [] body.relayedLines = streamEvents [] body.blocks :=
    (soloEvents_eq_iff hcarried.oneDataLine fieldName_blocks hblocks).mpr hcarried
  rw [PreservesEvents, events_streamedText haiter h, hsent, body.events_eq, hsame]
  refine ⟨_, rfl, ?_, ?_⟩
  · intro hsends
    exact if_pos ((doneLine_relayed_iff haiter h).mpr (hdone hsends))
  · intro hnone
    refine ⟨id, if_neg ?_⟩
    intro hmem
    obtain ⟨event, hevent, hdata⟩ := exists_soloEvent [] ((doneLine_relayed_iff haiter h).mp hmem) (by decide)
    refine hnone ⟨event, ?_, ?_⟩
    · rw [body.events_eq, ← hsame]
      exact hevent
    · rw [hdata]
      decide

/-- **The proxy preserves the event stream** of the bodies whose events are each carried by one data line alone, whose
lines can be read, and whose [DONE] is written as the proxy looks for it; and only of these, as long as no data
follows a character that is no line end in an event stream but one for `str.splitlines`. -/
theorem preservesEvents_iff (haiter : SplitsLines aiterLines) (h : body.Delivers aiterLines items)
    (app : ChatApp) (call : ChatCall) (rest : (op : ChatOp) → Except PyExc op.Res) :
    (Relayable app.loads body → PreservesEvents body (streamedText app call items rest)) ∧
      (CutsNoData cutOff body.lines →
        (PreservesEvents body (streamedText app call items rest) ↔ Relayable app.loads body)) := by
  refine ⟨fun hrelayable => hrelayable.preserves haiter h app call rest, ?_⟩
  intro hcuts
  refine ⟨?_, fun hrelayable => hrelayable.preserves haiter h app call rest⟩
  intro hpreserves
  have hone := hpreserves.oneDataLine (sendable_sentLines haiter h) (events_streamedText haiter h app call rest)
  have hreads := readable_of_preserves haiter h app call rest hone hcuts hpreserves
  obtain ⟨id, hsent⟩ := events_sent haiter h hreads
  obtain ⟨appended, hevents, hdone, -⟩ := hpreserves
  rw [events_streamedText haiter h, hsent, body.events_eq] at hevents
  have hlength : (soloEvents [] body.relayedLines).length = (streamEvents [] body.blocks).length := by
    rw [length_soloEvents, dataLines_relayedLines hcuts, length_streamEvents hone]
    rfl
  obtain ⟨hsame, happended⟩ := List.append_inj hevents hlength
  have hblocks : ∀ block ∈ body.blocks, CutsNoData cutOff block :=
    fun block hblock line hline => hcuts line (List.mem_flatten.mpr ⟨block, hblock, hline⟩)
  refine ⟨hcuts, (soloEvents_eq_iff hone fieldName_blocks hblocks).mp hsame,
    (readable_relayed_iff haiter h).mp hreads, ?_⟩
  intro hsends
  rw [hdone hsends] at happended
  split at happended
  · rename_i hmem
    exact (doneLine_relayed_iff haiter h).mp hmem
  · cases happended

end Proxy

/-- The body of two events of one line. -/
def plainBody : SseBody where
  text := "data: hello\n\ndata: [DONE]\n\n"
  blocks := [["data: hello".toList], ["data: [DONE]".toList]]
  split := by decide
  fields := by
    unfold IsFieldLine
    decide

def plainItems : List StreamItem := [.line "data: hello", .timeout, .line "data: [DONE]"]

def plainCall : ChatCall := ⟨plainContext, "req", "model", ⟨8, 10, 18⟩, [], ⟨0⟩, "audit"⟩

theorem splitsLines_splitlines : SplitsLines splitlines := fun _ => rfl

/-- Its events are preserved. -/
theorem preservesEvents_plain : PreservesEvents plainBody
    (streamedText plainApp plainCall plainItems fun _ => .error (.exception none "closed")) := by
  have hcuts : CutsNoData cutOff plainBody.lines := by
    unfold CutsNoData
    decide
  refine (preservesEvents_iff splitsLines_splitlines (by decide) plainApp plainCall _).1 ⟨hcuts, ?_, ?_, ?_⟩
  · refine (soloEvents_eq_iff ?_ fieldName_blocks ?_).mp ?_
    · unfold OneDataLine
      decide
    · unfold CutsNoData
      decide
    · decide
  · decide
  · intro _
    decide

/-- The body of one event with two data lines. -/
def foldedBody : SseBody where
  text := "data: a\ndata: b\n\n"
  blocks := [["data: a".toList, "data: b".toList]]
  split := by decide
  fields := by
    unfold IsFieldLine
    decide

/-- It arrives as two events. -/
theorem not_preservesEvents : ¬ ∀ (aiterLines : String → List String) (body : SseBody) (items : List StreamItem)
    (app : ChatApp) (call : ChatCall) (rest : (op : ChatOp) → Except PyExc op.Res), SplitsLines aiterLines →
    body.Delivers aiterLines items → PreservesEvents body (streamedText app call items rest) := by
  intro h
  have hitems : foldedBody.Delivers splitlines [.line "data: a", .line "data: b"] := by decide
  have hpreserves := h splitlines foldedBody _ plainApp plainCall (fun _ => .error (.exception none "closed"))
    splitsLines_splitlines hitems
  have hone := hpreserves.oneDataLine (sendable_sentLines splitsLines_splitlines hitems)
    (events_streamedText splitsLines_splitlines hitems plainApp plainCall _)
  have htwo : ¬ OneDataLine ["data: a".toList, "data: b".toList] := by
    unfold OneDataLine
    decide
  exact htwo (hone _ (List.mem_singleton_self _))

end GpuInference
