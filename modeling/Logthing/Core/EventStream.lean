import Mathlib.Data.List.Basic

/-!
# Event streams

What a browser makes of a `text/event-stream`, character by character: lines that end in a line
feed, a carriage return or both, comments, the fields `event` and `data`, and an event at each blank
line that comes after data.  Other fields do not show in an event's type and data.

**Main results.**  `run_frame`: a frame whose type and data have no line ends is the event it is
made of; `events_append`: text that is cut short adds a part of the events of the whole.
-/

namespace EventStream

/-- An event, as it is dispatched. -/
structure Event where
  type : List Char
  data : List Char
  deriving DecidableEq

/-- What has been read since the last event; `line` is reversed. -/
structure State where
  line : List Char := []
  afterReturn : Bool := false
  type : List Char := []
  data : List Char := []

/-- The value of a field: what follows the colon, less one space. -/
def value (line : List Char) : List Char :=
  let rest := (line.dropWhile (· ≠ ':')).drop 1
  if rest.head? = some ' ' then rest.tail else rest

/-- A line that is not blank: a comment or a field. -/
def processField (s : State) (line : List Char) : State :=
  let name := line.takeWhile (· ≠ ':')
  if name = "event".toList then { s with line := [], type := value line }
  else if name = "data".toList then { s with line := [], data := s.data ++ value line ++ ['\n'] }
  else { s with line := [] }

/-- A blank line. -/
def dispatch (s : State) : State × List Event :=
  if s.data = [] then ({}, [])
  else ({}, [⟨if s.type = [] then "message".toList else s.type, s.data.dropLast⟩])

/-- The end of a line. -/
def endLine (s : State) : State × List Event :=
  if s.line = [] then dispatch s else (processField s s.line.reverse, [])

/-- One more character. -/
def step (s : State) (c : Char) : State × List Event :=
  if c = '\n' then
    if s.afterReturn then ({ s with afterReturn := false }, []) else endLine s
  else if c = '\r' then
    let ended := endLine { s with afterReturn := false }
    ({ ended.1 with afterReturn := true }, ended.2)
  else ({ s with line := c :: s.line, afterReturn := false }, [])

/-- Some more text, with the events it dispatches. -/
def run (s : State) : List Char → State × List Event
  | [] => (s, [])
  | c :: text =>
      ((run (step s c).1 text).1, (step s c).2 ++ (run (step s c).1 text).2)

/-- The events of a stream that ends here: what has not been dispatched is discarded. -/
def events (text : List Char) : List Event := (run {} text).2

/-! ## Text in pieces -/

lemma run_append (s : State) (a b : List Char) :
    run s (a ++ b) = ((run (run s a).1 b).1, (run s a).2 ++ (run (run s a).1 b).2) := by
  induction a generalizing s with
  | nil => rfl
  | cons c a ih =>
      simp only [List.cons_append, run, ih, List.append_assoc]

/-- What has been dispatched stays so. -/
lemma run_prefix {a b : List Char} (h : a <+: b) (s : State) : (run s a).2 <+: (run s b).2 := by
  obtain ⟨rest, rfl⟩ := h
  rw [run_append]
  exact List.prefix_append _ _

/-- **Text after whole frames**, cut short or not, adds its own events. -/
theorem events_append {before : List Char} (hwhole : (run {} before).1 = {}) (text : List Char) :
    events (before ++ text) = events before ++ events text := by
  rw [events, run_append, hwhole, events, events]

/-- Text that has no line ends. -/
def Flat (text : List Char) : Prop := '\n' ∉ text ∧ '\r' ∉ text

lemma Flat.append {a b : List Char} (ha : Flat a) (hb : Flat b) : Flat (a ++ b) :=
  ⟨fun h => (List.mem_append.mp h).elim ha.1 hb.1, fun h => (List.mem_append.mp h).elim ha.2 hb.2⟩

/-- A line so far. -/
lemma run_flat {text : List Char} (h : Flat text) (line type data : List Char) :
    run ⟨line, false, type, data⟩ text = (⟨text.reverse ++ line, false, type, data⟩, []) := by
  induction text generalizing line with
  | nil => rfl
  | cons c text ih =>
      obtain ⟨hfeed, hreturn⟩ := h
      rw [List.mem_cons, not_or] at hfeed hreturn
      have hstep : step ⟨line, false, type, data⟩ c = (⟨c :: line, false, type, data⟩, []) := by
        rw [step, if_neg (Ne.symm hfeed.1), if_neg (Ne.symm hreturn.1)]
      rw [run, hstep]
      simp only [ih ⟨hfeed.2, hreturn.2⟩, List.reverse_cons, List.append_assoc, List.cons_append,
        List.nil_append]

/-- **A line** and its end. -/
lemma run_line {text : List Char} (h : Flat text) (hne : text ≠ []) (type data : List Char) :
    run ⟨[], false, type, data⟩ (text ++ ['\n'])
      = (processField ⟨text.reverse, false, type, data⟩ text, []) := by
  have hline : text.reverse ≠ [] := fun hnil => hne (List.reverse_eq_nil_iff.mp hnil)
  rw [run_append, run_flat h, List.append_nil]
  simp only [run, step, if_true, Bool.false_eq_true, if_false, endLine, if_neg hline,
    List.reverse_reverse, List.append_nil]

/-! ## Frames -/

/-- A field: its name, a colon, a space and its value. -/
def field (name text : List Char) : List Char := name ++ (':' :: ' ' :: text)

/-- The name and the value of a field. -/
lemma field_parts {name : List Char} (h : ':' ∉ name) (text : List Char) :
    (field name text).takeWhile (· ≠ ':') = name ∧ value (field name text) = text := by
  have hall : ∀ c ∈ name, decide (c ≠ ':') = true :=
    fun c hc => decide_eq_true fun heq => h (heq ▸ hc)
  constructor
  · rw [field, List.takeWhile_append_of_pos hall]
    simp
  · rw [value, field, List.dropWhile_append_of_pos hall]
    simp

lemma Flat.field {name text : List Char} (hname : Flat name) (h : Flat text) :
    Flat (field name text) :=
  Flat.append hname (Flat.append (a := [':', ' ']) ⟨by decide, by decide⟩ h)

/-- The frame of an event. -/
def frame (type data : List Char) : List Char :=
  field "event".toList type ++ ['\n'] ++ (field "data".toList data ++ ['\n']) ++ ['\n']

/-- A comment, and a blank line. -/
def comment (text : List Char) : List Char := ':' :: text ++ ['\n'] ++ ['\n']

section

variable {type data : List Char} (htype : Flat type) (hdata : Flat data)

include htype hdata

/-- The lines of a frame. -/
lemma run_frame_lines : run {} (field "event".toList type ++ ['\n'] ++
    (field "data".toList data ++ ['\n'])) = (⟨[], false, type, data ++ ['\n']⟩, []) := by
  obtain ⟨hname, hvalue⟩ := field_parts (by decide : ':' ∉ "event".toList) type
  obtain ⟨hname', hvalue'⟩ := field_parts (by decide : ':' ∉ "data".toList) data
  rw [run_append, run_line (Flat.field ⟨by decide, by decide⟩ htype) (by simp [field])]
  simp only [processField, hname, hvalue, if_true]
  rw [run_line (Flat.field ⟨by decide, by decide⟩ hdata) (by simp [field])]
  simp only [processField, hname', hvalue', if_true, List.nil_append]
  rw [if_neg (by decide)]

/-- **A frame is its event.** -/
theorem run_frame (hne : type ≠ []) : run {} (frame type data) = ({}, [⟨type, data⟩]) := by
  rw [frame, run_append, run_frame_lines htype hdata]
  simp only [run, step, if_true, Bool.false_eq_true, if_false, endLine, dispatch,
    List.append_eq_nil_iff, List.cons_ne_self, and_false, if_neg hne, List.dropLast_concat,
    List.append_nil, List.nil_append]

end

/-- **A comment** is no event. -/
theorem run_comment {text : List Char} (h : Flat text) : run {} (comment text) = ({}, []) := by
  have hflat : Flat (':' :: text) := Flat.append (a := [':']) ⟨by decide, by decide⟩ h
  have hname : (':' :: text).takeWhile (· ≠ ':') = [] := List.takeWhile_cons_of_neg (by decide)
  rw [comment, run_append, run_line hflat (List.cons_ne_nil _ _)]
  simp only [processField, hname]
  rw [if_neg (by decide), if_neg (by decide)]
  rfl

end EventStream
