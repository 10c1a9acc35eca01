import Mathlib.Data.List.Basic
import Mathlib.Data.List.TakeDrop

/-!
Event streams. A text is read line by line: a line is a comment or a field, an empty line dispatches the event
that the fields since the last one have built, and the id of an event is the last one seen in the stream. A
relay that sends every line as blocks of its own, and cuts no data off a line, keeps the events exactly when each
of them is carried by one data line alone.
-/

namespace EventStream

/-- A line, without its end. -/
abbrev Line := List Char

/-- The character that begins the first line. -/
def startLine (c : Char) : List Line × Line → List Line × Line
  | ([], tail) => ([], c :: tail)
  | (line :: lines, tail) => ((c :: line) :: lines, tail)

/-- The lines of a text, ended by LF, CR LF or CR, and what follows the last of them. -/
def splitLines : List Char → List Line × Line
  | [] => ([], [])
  | '\n' :: rest => ([] :: (splitLines rest).1, (splitLines rest).2)
  | '\r' :: '\n' :: rest => ([] :: (splitLines rest).1, (splitLines rest).2)
  | '\r' :: rest => ([] :: (splitLines rest).1, (splitLines rest).2)
  | c :: rest => startLine c (splitLines rest)

/-- A character of a line. -/
def inLine (c : Char) : Prop := c ≠ '\n' ∧ c ≠ '\r'

theorem inLine_of_all {line : List Char} (h : line.all (fun c => c ≠ '\n' ∧ c ≠ '\r') = true) :
    ∀ c ∈ line, inLine c := by
  intro c hc
  simpa [inLine] using List.all_eq_true.mp h c hc

theorem splitLines_cons {c : Char} (h : inLine c) (rest : List Char) :
    splitLines (c :: rest) = startLine c (splitLines rest) := by
  obtain ⟨hfeed, hreturn⟩ := h
  rw [splitLines]
  · exact hfeed
  · intro _ heq
    exact absurd heq hreturn
  · exact hreturn

theorem splitLines_feed (rest : List Char) :
    splitLines ('\n' :: rest) = ([] :: (splitLines rest).1, (splitLines rest).2) := by
  rw [splitLines]

theorem splitLines_line {line : Line} (h : ∀ c ∈ line, inLine c) (rest : List Char) :
    splitLines (line ++ '\n' :: rest) = (line :: (splitLines rest).1, (splitLines rest).2) := by
  induction line with
  | nil => exact splitLines_feed rest
  | cons c line ih =>
      rw [List.cons_append, splitLines_cons (h c List.mem_cons_self),
        ih fun other hother => h other (List.mem_cons_of_mem _ hother)]
      rfl

theorem inLine_startLine {c : Char} (hc : inLine c) {split : List Line × Line}
    (h : ∀ line ∈ split.1 ++ [split.2], ∀ d ∈ line, inLine d) :
    ∀ line ∈ (startLine c split).1 ++ [(startLine c split).2], ∀ d ∈ line, inLine d := by
  have hbegin : ∀ (first : Line) (lines : List Line), (∀ line ∈ first :: lines, ∀ d ∈ line, inLine d) →
      ∀ line ∈ (c :: first) :: lines, ∀ d ∈ line, inLine d := by
    intro first lines hlines line hline d hd
    rcases List.mem_cons.mp hline with rfl | hline
    · rcases List.mem_cons.mp hd with rfl | hd
      · exact hc
      · exact hlines first List.mem_cons_self d hd
    · exact hlines line (List.mem_cons_of_mem _ hline) d hd
  obtain ⟨lines, tail⟩ := split
  cases lines with
  | nil => exact hbegin tail [] h
  | cons first lines => exact hbegin first (lines ++ [tail]) h

/-- A line contains no line end, and neither does what follows the last of them. -/
theorem inLine_of_mem (text : List Char) :
    ∀ line ∈ (splitLines text).1 ++ [(splitLines text).2], ∀ c ∈ line, inLine c := by
  have hempty : ∀ rest : List Char, (∀ line ∈ (splitLines rest).1 ++ [(splitLines rest).2], ∀ c ∈ line, inLine c) →
      ∀ line ∈ ([] :: (splitLines rest).1) ++ [(splitLines rest).2], ∀ c ∈ line, inLine c := by
    intro rest ih line hline
    rcases List.mem_cons.mp hline with rfl | hline
    · exact List.forall_mem_nil _
    · exact ih line hline
  fun_induction splitLines text with
  | case1 =>
      intro line hline
      rw [List.mem_singleton.mp hline]
      exact List.forall_mem_nil _
  | case2 rest ih => exact hempty rest ih
  | case3 rest ih => exact hempty rest ih
  | case4 rest _ ih => exact hempty rest ih
  | case5 c rest hfeed _ hreturn ih => exact inLine_startLine ⟨hfeed, hreturn⟩ ih

def dataName : Line := ['d', 'a', 't', 'a']

def eventName : Line := ['e', 'v', 'e', 'n', 't']

def idName : Line := ['i', 'd']

def retryName : Line := ['r', 'e', 't', 'r', 'y']

/-- The name of a field ends with a colon, or with the line. A line that starts with a colon has the empty
name, which is that of no field: it is a comment. -/
def fieldName (line : Line) : Line := line.takeWhile (· ≠ ':')

/-- One space after the colon does not belong to the value. -/
def dropSpace : Line → Line
  | ' ' :: value => value
  | value => value

def fieldValue (line : Line) : Line := dropSpace (line.dropWhile (· ≠ ':')).tail

theorem mem_of_mem_dropSpace {value : Line} {c : Char} (h : c ∈ dropSpace value) : c ∈ value := by
  unfold dropSpace at h
  split at h
  · exact List.mem_cons_of_mem _ h
  · exact h

theorem mem_of_mem_fieldValue {line : Line} {c : Char} (h : c ∈ fieldValue line) : c ∈ line :=
  (List.dropWhile_suffix _).subset (List.mem_of_mem_tail (mem_of_mem_dropSpace h))

def IsData (line : Line) : Prop := fieldName line = dataName

instance (line : Line) : Decidable (IsData line) := inferInstanceAs (Decidable (_ = _))

/-- The line sets the id of the events; a value with a null character is ignored. -/
def SetsId (line : Line) : Prop := fieldName line = idName ∧ Char.ofNat 0 ∉ fieldValue line

instance (line : Line) : Decidable (SetsId line) := inferInstanceAs (Decidable (_ ∧ _))

/-- An event as it is dispatched. -/
structure Event where
  type : Line
  lastEventId : Line
  data : List Char
  deriving DecidableEq

def messageName : Line := ['m', 'e', 's', 's', 'a', 'g', 'e']

/-- The buffers of a parser. -/
structure Reader where
  data : List Char
  eventType : Line
  lastEventId : Line

namespace Reader

def start : Reader := ⟨[], [], []⟩

/-- A line that is not empty. The field `retry` builds no event. -/
def field (r : Reader) (line : Line) : Reader :=
  if IsData line then { r with data := r.data ++ (fieldValue line ++ ['\n']) }
  else if fieldName line = eventName then { r with eventType := fieldValue line }
  else if SetsId line then { r with lastEventId := fieldValue line }
  else r

/-- What an empty line dispatches: nothing without data. The last line feed does not belong to the data. -/
def event (r : Reader) : List Event :=
  if r.data = [] then []
  else [⟨if r.eventType = [] then messageName else r.eventType, r.lastEventId, r.data.dropLast⟩]

/-- The events of a sequence of lines; an event that is not dispatched is discarded. -/
def read (r : Reader) : List Line → List Event
  | [] => []
  | line :: lines =>
      if line = [] then r.event ++ (⟨[], [], r.lastEventId⟩ : Reader).read lines
      else (r.field line).read lines

end Reader

/-- A byte order mark at the start of a text is not part of it. -/
def dropBom : List Char → List Char
  | [] => []
  | c :: rest => if c = Char.ofNat 0xFEFF then rest else c :: rest

/-- The events that are read from a text. -/
def events (text : List Char) : List Event := Reader.start.read (splitLines (dropBom text)).1

/-- What the data lines of a block put into the buffer. -/
def dataOf (block : List Line) : List Char :=
  (block.filter fun line => IsData line).flatMap fun line => fieldValue line ++ ['\n']

/-- The number of data lines. -/
def dataLines (block : List Line) : Nat := block.countP fun line => IsData line

def typeAfter (type : Line) (block : List Line) : Line :=
  block.foldl (fun type line => if fieldName line = eventName then fieldValue line else type) type

def idAfter (id : Line) (lines : List Line) : Line :=
  lines.foldl (fun id line => if SetsId line then fieldValue line else id) id

@[simp] theorem idAfter_nil (id : Line) : idAfter id [] = id := rfl

theorem idAfter_singleton (id line : Line) :
    idAfter id [line] = if SetsId line then fieldValue line else id := rfl

@[simp] theorem idAfter_append (id : Line) (lines more : List Line) :
    idAfter id (lines ++ more) = idAfter (idAfter id lines) more := List.foldl_append

@[simp] theorem dataLines_append (block more : List Line) :
    dataLines (block ++ more) = dataLines block + dataLines more := List.countP_append

theorem dataLines_cons (line : Line) (block : List Line) :
    dataLines (line :: block) = dataLines block + if IsData line then 1 else 0 := by
  rw [dataLines, List.countP_cons]
  by_cases hdata : IsData line
  · simp [dataLines, hdata]
  · simp [dataLines, hdata]

theorem dataLines_eq_zero {block : List Line} : dataLines block = 0 ↔ ∀ line ∈ block, ¬ IsData line := by
  rw [dataLines, List.countP_eq_zero]
  simp

theorem dataOf_append (block more : List Line) : dataOf (block ++ more) = dataOf block ++ dataOf more := by
  rw [dataOf, List.filter_append, List.flatMap_append]
  rfl

theorem dataOf_eq_nil {block : List Line} (h : ∀ line ∈ block, ¬ IsData line) : dataOf block = [] := by
  have hnone : (block.filter fun line => IsData line) = [] := by
    rw [List.filter_eq_nil_iff]
    intro line hline
    simpa using h line hline
  rw [dataOf, hnone]
  rfl

theorem dataOf_cons (line : Line) (block : List Line) :
    dataOf (line :: block) = (if IsData line then fieldValue line ++ ['\n'] else []) ++ dataOf block := by
  rw [← List.singleton_append, dataOf_append]
  congr 1
  by_cases hdata : IsData line
  · rw [if_pos hdata]
    simp [dataOf, hdata]
  · rw [if_neg hdata]
    simp [dataOf, hdata]

namespace Reader

theorem field_eq (r : Reader) (line : Line) :
    r.field line = ⟨r.data ++ dataOf [line], typeAfter r.eventType [line], idAfter r.lastEventId [line]⟩ := by
  have hnames : dataName ≠ eventName ∧ dataName ≠ idName ∧ eventName ≠ idName := by decide
  simp only [field, dataOf_cons, typeAfter, idAfter, List.foldl_cons, List.foldl_nil, SetsId, IsData]
  by_cases hdata : fieldName line = dataName
  · simp [hdata, hnames, dataOf]
  · by_cases hevent : fieldName line = eventName
    · simp [hevent, hnames, hnames.1.symm, dataOf]
    · by_cases hid : fieldName line = idName ∧ Char.ofNat 0 ∉ fieldValue line
      · simp [hid, hnames.2.1.symm, hnames.2.2.symm, dataOf]
      · simp [hdata, hevent, hid, dataOf]

/-- The buffers after the lines of a block. -/
theorem foldl_field (r : Reader) (block : List Line) : block.foldl field r =
    ⟨r.data ++ dataOf block, typeAfter r.eventType block, idAfter r.lastEventId block⟩ := by
  induction block generalizing r with
  | nil =>
      rw [dataOf_eq_nil (List.forall_mem_nil _), List.append_nil]
      rfl
  | cons line block ih =>
      rw [List.foldl_cons, ih, field_eq, dataOf_cons, dataOf_cons, dataOf_eq_nil (List.forall_mem_nil _),
        List.append_nil, List.append_assoc]
      rfl

end Reader

/-- The event of a block, after the id `id`. -/
def blockEvents (id : Line) (block : List Line) : List Event :=
  (⟨dataOf block, typeAfter [] block, idAfter id block⟩ : Reader).event

/-- The events of a sequence of blocks. -/
def streamEvents (id : Line) : List (List Line) → List Event
  | [] => []
  | block :: blocks => blockEvents id block ++ streamEvents (idAfter id block) blocks

theorem streamEvents_append (id : Line) (blocks more : List (List Line)) :
    streamEvents id (blocks ++ more) =
      streamEvents id blocks ++ streamEvents (idAfter id blocks.flatten) more := by
  induction blocks generalizing id with
  | nil => rfl
  | cons block blocks ih =>
      rw [List.cons_append, streamEvents, ih, streamEvents, List.append_assoc, List.flatten_cons,
        idAfter_append]

/-- Lines up to the next empty one. -/
theorem read_block (r : Reader) {block : List Line} (h : [] ∉ block) (lines : List Line) :
    r.read (block ++ [] :: lines) = (block.foldl Reader.field r).event ++
      (⟨[], [], (block.foldl Reader.field r).lastEventId⟩ : Reader).read lines := by
  induction block generalizing r with
  | nil => rfl
  | cons line block ih =>
      have hline : line ≠ [] := fun heq => h (heq ▸ List.mem_cons_self)
      rw [List.cons_append, Reader.read, if_neg hline, ih _ fun hmem => h (List.mem_cons_of_mem _ hmem)]
      rfl

/-- **A sequence of blocks is read block by block.** -/
theorem read_blocks (id : Line) {blocks : List (List Line)} (h : ∀ block ∈ blocks, [] ∉ block) :
    (⟨[], [], id⟩ : Reader).read (blocks.flatMap (· ++ [[]])) = streamEvents id blocks := by
  induction blocks generalizing id with
  | nil => rfl
  | cons block blocks ih =>
      have hrest := ih (idAfter id block) fun other hother => h other (List.mem_cons_of_mem _ hother)
      rw [List.flatMap_cons, List.append_assoc, List.singleton_append,
        read_block _ (h block List.mem_cons_self), Reader.foldl_field, hrest]
      rfl

/-- The events of lines that are sent each as a block of its own. -/
def soloEvents (id : Line) (lines : List Line) : List Event := streamEvents id (lines.map ([·]))

section Solo

variable (id : Line)

theorem soloEvents_append (lines more : List Line) :
    soloEvents id (lines ++ more) = soloEvents id lines ++ soloEvents (idAfter id lines) more := by
  have hflat : (lines.map ([·])).flatten = lines := by
    induction lines with
    | nil => rfl
    | cons line lines ih => rw [List.map_cons, List.flatten_cons, ih, List.singleton_append]
  rw [soloEvents, List.map_append, streamEvents_append, hflat]
  rfl

/-- A line of its own dispatches an event without a type when it is a data line. -/
theorem soloEvents_singleton (line : Line) :
    soloEvents id [line] = if IsData line then [⟨messageName, id, fieldValue line⟩] else [] := by
  have hevent : soloEvents id [line] = blockEvents id [line] := List.append_nil _
  rw [hevent, blockEvents, dataOf_cons, dataOf_eq_nil (List.forall_mem_nil _), List.append_nil, Reader.event]
  by_cases hdata : IsData line
  · have hnames : dataName ≠ eventName ∧ dataName ≠ idName := by decide
    have htype : typeAfter [] [line] = [] := if_neg fun heq => hnames.1 (hdata.symm.trans heq)
    have hid : idAfter id [line] = id := if_neg fun h => hnames.2 (hdata.symm.trans h.1)
    rw [if_pos hdata, if_pos hdata, if_neg (by simp), htype, hid, if_pos rfl, List.dropLast_concat]
  · rw [if_neg hdata, if_neg hdata, if_pos rfl]

theorem soloEvents_cons (line : Line) (lines : List Line) :
    soloEvents id (line :: lines) =
      (if IsData line then [⟨messageName, id, fieldValue line⟩] else []) ++
        soloEvents (idAfter id [line]) lines := by
  rw [← soloEvents_singleton, ← soloEvents_append]
  rfl

theorem length_soloEvents (lines : List Line) : (soloEvents id lines).length = dataLines lines := by
  induction lines generalizing id with
  | nil => rfl
  | cons line lines ih =>
      rw [soloEvents_cons, List.length_append, ih, dataLines_cons]
      split
      · rw [List.length_singleton, Nat.add_comm]
      · rw [List.length_nil, Nat.zero_add, Nat.add_zero]

theorem soloEvents_eq_nil {lines : List Line} (h : ∀ line ∈ lines, ¬ IsData line) :
    soloEvents id lines = [] := by
  rw [← List.length_eq_zero_iff, length_soloEvents, dataLines_eq_zero]
  exact h

/-- An empty line makes no event, and changes no id. -/
theorem soloEvents_filter (lines : List Line) :
    soloEvents id (lines.filter fun line => line ≠ []) = soloEvents id lines := by
  induction lines generalizing id with
  | nil => rfl
  | cons line lines ih =>
      by_cases hline : line = []
      · have hid : idAfter id [([] : Line)] = id := by rw [idAfter_singleton, if_neg (by decide)]
        rw [hline, List.filter_cons_of_neg (by simp), ih, soloEvents_cons, if_neg (by decide), List.nil_append, hid]
      · rw [List.filter_cons_of_pos (by simpa using hline), soloEvents_cons, soloEvents_cons, ih]

/-- The data of such an event is that of one line. -/
theorem mem_soloEvents {lines : List Line} {event : Event} (h : event ∈ soloEvents id lines) :
    ∃ line ∈ lines, IsData line ∧ event.data = fieldValue line := by
  induction lines generalizing id with
  | nil => cases h
  | cons line lines ih =>
      rw [soloEvents_cons] at h
      rcases List.mem_append.mp h with h | h
      · split at h
        · rename_i hdata
          rw [List.mem_singleton.mp h]
          exact ⟨line, List.mem_cons_self, hdata, rfl⟩
        · cases h
      · obtain ⟨other, hother, hevent⟩ := ih _ h
        exact ⟨other, List.mem_cons_of_mem _ hother, hevent⟩

theorem exists_soloEvent {lines : List Line} {line : Line} (hline : line ∈ lines) (hdata : IsData line) :
    ∃ event ∈ soloEvents id lines, event.data = fieldValue line := by
  obtain ⟨left, right, rfl⟩ := List.append_of_mem hline
  rw [soloEvents_append, soloEvents_cons, if_pos hdata]
  exact ⟨⟨messageName, idAfter id left, fieldValue line⟩, by simp, rfl⟩

end Solo

def OneDataLine (block : List Line) : Prop := dataLines block ≤ 1

theorem dataLines_split {left right : List Line} {line : Line} (hdata : IsData line) :
    dataLines (left ++ line :: right) = dataLines (left ++ right) + 1 := by
  rw [dataLines_append, dataLines_cons, if_pos hdata, dataLines_append]
  omega

/-- A data line splits its block. -/
theorem exists_split {block : List Line} (h : ¬ ∀ line ∈ block, ¬ IsData line) :
    ∃ left line right, block = left ++ line :: right ∧ IsData line := by
  push Not at h
  obtain ⟨line, hline, hdata⟩ := h
  obtain ⟨left, right, rfl⟩ := List.append_of_mem hline
  exact ⟨left, line, right, rfl, hdata⟩

theorem OneDataLine.others {left right : List Line} {line : Line} (h : OneDataLine (left ++ line :: right))
    (hdata : IsData line) : ∀ other ∈ left ++ right, ¬ IsData other := by
  rw [OneDataLine, dataLines_split hdata] at h
  exact dataLines_eq_zero.mp (by omega)

theorem split_unique {left right left' right' : List Line} {line line' : Line} (hdata : IsData line)
    (hothers : ∀ other ∈ left ++ right, ¬ IsData other) (hdata' : IsData line')
    (h : left' ++ line' :: right' = left ++ line :: right) : left' = left ∧ line' = line ∧ right' = right := by
  induction left generalizing left' with
  | nil =>
      cases left' with
      | nil =>
          obtain ⟨rfl, rfl⟩ := List.cons.inj h
          exact ⟨rfl, rfl, rfl⟩
      | cons first left' =>
          obtain ⟨-, rfl⟩ := List.cons.inj h
          exact absurd hdata' (hothers line' (by simp))
  | cons first left ih =>
      cases left' with
      | nil =>
          obtain ⟨rfl, -⟩ := List.cons.inj h
          exact absurd hdata' (hothers line' (by simp))
      | cons first' left' =>
          obtain ⟨rfl, hrest⟩ := List.cons.inj h
          obtain ⟨rfl, hline, hright⟩ :=
            ih (fun other hother => hothers other (List.mem_cons_of_mem _ hother)) hrest
          exact ⟨rfl, hline, hright⟩

/-- One data line makes one event. -/
theorem blockEvents_split (id : Line) {left right : List Line} {line : Line} (hdata : IsData line)
    (hothers : ∀ other ∈ left ++ right, ¬ IsData other) :
    blockEvents id (left ++ line :: right) =
      [⟨if typeAfter [] (left ++ line :: right) = [] then messageName
          else typeAfter [] (left ++ line :: right), idAfter id (left ++ line :: right), fieldValue line⟩] := by
  have hvalue : dataOf (left ++ line :: right) = fieldValue line ++ ['\n'] := by
    rw [dataOf_append, dataOf_eq_nil fun other hother => hothers other (List.mem_append_left _ hother),
      List.nil_append, dataOf_cons, if_pos hdata,
      dataOf_eq_nil fun other hother => hothers other (List.mem_append_right _ hother), List.append_nil]
  rw [blockEvents, Reader.event, hvalue, if_neg (by simp), List.dropLast_concat]

theorem blockEvents_eq_nil (id : Line) {block : List Line} (h : ∀ line ∈ block, ¬ IsData line) :
    blockEvents id block = [] := by
  rw [blockEvents, Reader.event, dataOf_eq_nil h, if_pos rfl]

theorem dataOf_ne_nil {left right : List Line} {line : Line} (hdata : IsData line) :
    dataOf (left ++ line :: right) ≠ [] := by
  rw [dataOf_append, dataOf_cons, if_pos hdata]
  simp

/-- A data line with another one after it. -/
theorem exists_two {block : List Line} (h : ¬ OneDataLine block) :
    ∃ left line right, block = left ++ line :: right ∧ IsData line ∧ dataOf right ≠ [] := by
  have hmany : 1 < dataLines block := Nat.lt_of_not_le h
  obtain ⟨left, line, right, rfl, hdata⟩ : ∃ left line right, block = left ++ line :: right ∧ IsData line := by
    refine exists_split ?_
    intro hnone
    rw [dataLines_eq_zero.mpr hnone] at hmany
    omega
  rw [dataLines_split hdata, dataLines_append] at hmany
  by_cases hright : ∀ other ∈ right, ¬ IsData other
  · have hleft : ¬ ∀ other ∈ left, ¬ IsData other := by
      intro hnone
      rw [dataLines_eq_zero.mpr hnone, dataLines_eq_zero.mpr hright] at hmany
      omega
    obtain ⟨first, other, middle, rfl, hother⟩ := exists_split hleft
    refine ⟨first, other, middle ++ line :: right, by simp, hother, dataOf_ne_nil hdata⟩
  · obtain ⟨middle, other, last, rfl, hother⟩ := exists_split hright
    exact ⟨left, line, _, rfl, hdata, dataOf_ne_nil hother⟩

/-- A second data line puts a line feed into the data of the event. -/
theorem oneDataLine_of_events {id : Line} {block : List Line}
    (h : ∀ event ∈ blockEvents id block, '\n' ∉ event.data) : OneDataLine block := by
  by_contra hmany
  obtain ⟨left, line, right, rfl, hdata, hright⟩ := exists_two hmany
  have hparts : dataOf (left ++ line :: right) =
      dataOf left ++ (fieldValue line ++ ['\n']) ++ dataOf right := by
    rw [dataOf_append, dataOf_cons, if_pos hdata, List.append_assoc, List.append_assoc, List.append_assoc]
  have hevents : blockEvents id (left ++ line :: right) = [_] := if_neg (dataOf_ne_nil hdata)
  refine h _ (hevents ▸ List.mem_singleton_self _) ?_
  rw [hparts, List.dropLast_append_of_ne_nil hright]
  simp

theorem oneDataLine_of_streamEvents {id : Line} {blocks : List (List Line)}
    (h : ∀ event ∈ streamEvents id blocks, '\n' ∉ event.data) : ∀ block ∈ blocks, OneDataLine block := by
  induction blocks generalizing id with
  | nil => exact List.forall_mem_nil _
  | cons block blocks ih =>
      intro other hother
      rcases List.mem_cons.mp hother with rfl | hother
      · exact oneDataLine_of_events fun event hevent => h event (List.mem_append_left _ hevent)
      · exact ih (fun event hevent => h event (List.mem_append_right _ hevent)) other hother

theorem length_blockEvents {id : Line} {block : List Line} (h : OneDataLine block) :
    (blockEvents id block).length = dataLines block := by
  by_cases hnone : ∀ line ∈ block, ¬ IsData line
  · rw [blockEvents_eq_nil id hnone, dataLines_eq_zero.mpr hnone]
    rfl
  · obtain ⟨left, line, right, rfl, hdata⟩ := exists_split hnone
    have hothers := h.others hdata
    rw [blockEvents_split id hdata hothers, dataLines_split hdata, dataLines_eq_zero.mpr hothers]
    rfl

theorem length_streamEvents {id : Line} {blocks : List (List Line)}
    (h : ∀ block ∈ blocks, OneDataLine block) :
    (streamEvents id blocks).length = dataLines blocks.flatten := by
  induction blocks generalizing id with
  | nil => rfl
  | cons block blocks ih =>
      rw [streamEvents, List.length_append, length_blockEvents (h block List.mem_cons_self),
        ih fun other hother => h other (List.mem_cons_of_mem _ hother), List.flatten_cons, dataLines_append]

/-! ### A relay that sends every line as a block -/

section Relay

variable (trim : Line → Line) (more : Line → List Line)

/-- The lines that a relay sends: what it leaves of each line, and the lines that it has cut off it. -/
def relayed (lines : List Line) : List Line := lines.flatMap fun line => trim line :: more line

/-- Nothing that the relay cuts off the lines has data. -/
def CutsNoData (lines : List Line) : Prop := ∀ line ∈ lines, ∀ other ∈ more line, ¬ IsData other

/-- The event of a block is carried by its data line alone: no other line has data, the relay leaves the value
as it is, the event has the default type, and the id that the relay has sent before the line is the one that is
in force at the end of the block. -/
structure Alone (sent seen : Line) (left : List Line) (line : Line) (right : List Line) : Prop where
  single : ∀ other ∈ left ++ right, ¬ IsData other
  value : fieldValue (trim line) = fieldValue line
  type : typeAfter [] (left ++ line :: right) = [] ∨ typeAfter [] (left ++ line :: right) = messageName
  id : idAfter sent (relayed trim more left) = idAfter seen (left ++ line :: right)

/-- Every event is carried by its data line alone, when the relay has sent the id `sent` before the blocks, and
has seen the id `seen`. -/
def CarriedAlone (sent seen : Line) (blocks : List (List Line)) : Prop :=
  ∀ before left line right after, blocks = before ++ (left ++ line :: right) :: after → IsData line →
    Alone trim more (idAfter sent (relayed trim more before.flatten)) (idAfter seen before.flatten) left line right

variable {trim more} {sent seen : Line}

theorem relayed_append (lines others : List Line) :
    relayed trim more (lines ++ others) = relayed trim more lines ++ relayed trim more others :=
  List.flatMap_append

theorem relayed_cons (line : Line) (lines : List Line) :
    relayed trim more (line :: lines) = trim line :: (more line ++ relayed trim more lines) := rfl

theorem mem_relayed {lines : List Line} {other : Line} :
    other ∈ relayed trim more lines ↔ ∃ line ∈ lines, other = trim line ∨ other ∈ more line := by
  rw [relayed, List.mem_flatMap]
  exact exists_congr fun line => and_congr_right fun _ => List.mem_cons

/-- Data lines are sent as such, and those that are cut off come on top. -/
theorem dataLines_relayed {lines : List Line} (htrim : ∀ line ∈ lines, fieldName (trim line) = fieldName line) :
    dataLines (relayed trim more lines) = dataLines lines + dataLines (lines.flatMap more) := by
  induction lines with
  | nil => rfl
  | cons line lines ih =>
      have hdata : IsData (trim line) ↔ IsData line := by
        rw [IsData, htrim line List.mem_cons_self]
        exact Iff.rfl
      have hrest := ih fun other h => htrim other (List.mem_cons_of_mem _ h)
      rw [relayed_cons, dataLines_cons, dataLines_append, hrest, List.flatMap_cons, dataLines_append,
        dataLines_cons, if_congr hdata rfl rfl]
      omega

theorem dataLines_flatMap_eq_zero {lines : List Line} : dataLines (lines.flatMap more) = 0 ↔ CutsNoData more lines := by
  rw [dataLines_eq_zero]
  simp only [List.mem_flatMap, CutsNoData]
  constructor
  · intro h line hline other hother
    exact h other ⟨line, hline, hother⟩
  · rintro h other ⟨line, hline, hother⟩
    exact h line hline other hother

theorem CarriedAlone.oneDataLine {blocks : List (List Line)} (h : CarriedAlone trim more sent seen blocks) :
    ∀ block ∈ blocks, OneDataLine block := by
  intro block hblock
  obtain ⟨before, after, rfl⟩ := List.append_of_mem hblock
  by_cases hnone : ∀ line ∈ block, ¬ IsData line
  · rw [OneDataLine, dataLines_eq_zero.mpr hnone]
    exact Nat.zero_le 1
  · obtain ⟨left, line, right, rfl, hdata⟩ := exists_split hnone
    have hothers := dataLines_eq_zero.mpr (h before left line right after rfl hdata).single
    have hone : dataLines (left ++ line :: right) = 1 := by
      rw [dataLines_split hdata, hothers]
    exact Nat.le_of_eq hone

/-- The first block, and the blocks after it. -/
theorem carriedAlone_cons {block : List Line} {blocks : List (List Line)} :
    CarriedAlone trim more sent seen (block :: blocks) ↔
      (∀ left line right, block = left ++ line :: right → IsData line →
        Alone trim more sent seen left line right) ∧
      CarriedAlone trim more (idAfter sent (relayed trim more block)) (idAfter seen block) blocks := by
  constructor
  · intro h
    refine ⟨?_, ?_⟩
    · rintro left line right rfl hdata
      exact h [] left line right blocks rfl hdata
    · rintro before left line right after rfl hdata
      have halone := h (block :: before) left line right after rfl hdata
      rw [List.flatten_cons, relayed_append, idAfter_append, idAfter_append] at halone
      exact halone
  · rintro ⟨hfirst, hrest⟩ before left line right after heq hdata
    cases before with
    | nil =>
        obtain ⟨rfl, rfl⟩ := List.cons.inj heq
        exact hfirst left line right rfl hdata
    | cons first before =>
        obtain ⟨rfl, rfl⟩ := List.cons.inj heq
        rw [List.flatten_cons, relayed_append, idAfter_append, idAfter_append]
        exact hrest before left line right after rfl hdata

/-- One block. -/
theorem soloEvents_block_iff {block : List Line} (hone : OneDataLine block)
    (htrim : ∀ line ∈ block, fieldName (trim line) = fieldName line) (hcuts : CutsNoData more block) :
    soloEvents sent (relayed trim more block) = blockEvents seen block ↔
      ∀ left line right, block = left ++ line :: right → IsData line →
        Alone trim more sent seen left line right := by
  have hsolo : ∀ lines : List Line, (∀ line ∈ lines, line ∈ block) → (∀ line ∈ lines, ¬ IsData line) →
      ∀ id, soloEvents id (relayed trim more lines) = [] := by
    intro lines hsub hnone id
    refine soloEvents_eq_nil id ?_
    intro other hother
    obtain ⟨line, hline, rfl | hcut⟩ := mem_relayed.mp hother
    · rw [IsData, htrim line (hsub line hline)]
      exact hnone line hline
    · exact hcuts line (hsub line hline) other hcut
  by_cases hnone : ∀ line ∈ block, ¬ IsData line
  · refine iff_of_true ?_ ?_
    · rw [hsolo block (fun _ h => h) hnone, blockEvents_eq_nil seen hnone]
    · rintro left line right rfl hdata
      exact absurd hdata (hnone line (by simp))
  · obtain ⟨left, line, right, rfl, hdata⟩ := exists_split hnone
    have hothers := hone.others hdata
    have htrimmed : IsData (trim line) := (htrim line (by simp)).trans hdata
    have hcut : ∀ id, soloEvents id (more line) = [] :=
      fun id => soloEvents_eq_nil id (hcuts line (by simp))
    have hsent : soloEvents sent (relayed trim more (left ++ line :: right)) =
        [⟨messageName, idAfter sent (relayed trim more left), fieldValue (trim line)⟩] := by
      rw [relayed_append, relayed_cons, soloEvents_append, soloEvents_cons, if_pos htrimmed, soloEvents_append,
        hcut, hsolo left (fun _ h => List.mem_append_left _ h)
          (fun other h => hothers other (List.mem_append_left _ h)),
        hsolo right (fun _ h => by simp [h]) (fun other h => hothers other (List.mem_append_right _ h))]
      rfl
    rw [hsent, blockEvents_split seen hdata hothers, List.singleton_inj, Event.mk.injEq]
    constructor
    · rintro ⟨htype, hid, hvalue⟩ left' line' right' heq hdata'
      obtain ⟨rfl, rfl, rfl⟩ := split_unique hdata hothers hdata' heq.symm
      refine ⟨hothers, hvalue, ?_, hid⟩
      split at htype
      · rename_i hempty
        exact .inl hempty
      · exact .inr htype.symm
    · intro halone
      obtain ⟨-, hvalue, htype, hid⟩ := halone left line right rfl hdata
      refine ⟨?_, hid, hvalue⟩
      rcases htype with hempty | hmessage
      · rw [if_pos hempty]
      · rw [hmessage]
        rfl

/-- **The events of a relay.** A relay that keeps the names of the fields, and cuts off no data, keeps the events of
blocks with one data line at most exactly when each event is carried alone. -/
theorem soloEvents_eq_iff {blocks : List (List Line)} (hone : ∀ block ∈ blocks, OneDataLine block)
    (htrim : ∀ block ∈ blocks, ∀ line ∈ block, fieldName (trim line) = fieldName line)
    (hcuts : ∀ block ∈ blocks, CutsNoData more block) :
    soloEvents sent (relayed trim more blocks.flatten) = streamEvents seen blocks ↔
      CarriedAlone trim more sent seen blocks := by
  induction blocks generalizing sent seen with
  | nil => exact iff_of_true rfl fun before left line right after heq => absurd heq (by simp)
  | cons block blocks ih =>
      have hblock := hone block List.mem_cons_self
      have hnames := htrim block List.mem_cons_self
      have hcut := hcuts block List.mem_cons_self
      have hlength : (soloEvents sent (relayed trim more block)).length = (blockEvents seen block).length := by
        rw [length_soloEvents, length_blockEvents hblock, dataLines_relayed hnames,
          dataLines_flatMap_eq_zero.mpr hcut, Nat.add_zero]
      rw [carriedAlone_cons, ← soloEvents_block_iff hblock hnames hcut,
        ← ih (fun other h => hone other (List.mem_cons_of_mem _ h))
          (fun other h => htrim other (List.mem_cons_of_mem _ h))
          (fun other h => hcuts other (List.mem_cons_of_mem _ h)),
        List.flatten_cons, relayed_append, soloEvents_append, streamEvents]
      constructor
      · intro heq
        exact List.append_inj heq hlength
      · rintro ⟨hfirst, hrest⟩
        rw [hfirst, hrest]

end Relay

end EventStream
