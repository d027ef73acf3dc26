import Logthing.Core.Calendar
import Logthing.Core.Text
import Logthing.Model.Message
import Mathlib.Tactic.IntervalCases

/-!
# Sending syslog events

`FormatRFC5424` writes an event as one line, `<PRI>1 TIMESTAMP HOST APP PROCID MSGID - MSG`, and
the sender puts it on a stream on which a receiver takes every line for a message.  An empty field
is given a default first; the four header fields go through `token`, which trims them and replaces
spaces, and nothing else.

**Main results.**

* `wellFramed_iff`: the line is one frame with the event's fields exactly when the message has no
  line feed and the trimmed header fields have no white space but spaces, and no control
  characters.
* `forgingEvent_not_framed`: a test event whose text has a line feed becomes two records.
-/

namespace Logthing.Syslog

/-- `Event`. -/
structure Event where
  timestamp : Time
  hostname : List Char
  appName : List Char
  procID : List Char
  msgID : List Char
  facility : ℤ
  severity : ℤ
  message : List Char

/-- What the sender reads of the process it runs in. -/
structure Process where
  /-- `time.Now()`. -/
  now : Time
  /-- `os.Hostname()`, when there is no error. -/
  hostname : Option (List Char)
  /-- `os.Getpid()`. -/
  pid : ℤ

/-- `DefaultTestMessage`. -/
def defaultTestMessage : List Char := "logthing test event".toList

def defaultFacility : ℤ := 1

def defaultSeverity : ℤ := 5

/-- `localHostname`. -/
def localHostname (process : Process) : List Char :=
  match process.hostname with
  | none => "logthing".toList
  | some hostname => if Text.trimSpace hostname = [] then "logthing".toList else hostname

/-- `strconv.Itoa`, and `%d`. -/
def itoa (n : ℤ) : List Char := Calendar.formatPadded 1 n

/-- `token`. -/
def token (value : List Char) : List Char :=
  let value := Text.trimSpace value
  if value = [] then ['-']
  else value.map fun c => if c = ' ' then '_' else c

/-- The defaults `FormatRFC5424` puts in the place of absent fields. -/
def withDefaults (process : Process) (event : Event) : Event where
  timestamp := if event.timestamp.isZero then process.now else event.timestamp
  hostname := if event.hostname = [] then localHostname process else event.hostname
  appName := if event.appName = [] then "logthing".toList else event.appName
  procID := if event.procID = [] then itoa process.pid else event.procID
  msgID := if event.msgID = [] then "test".toList else event.msgID
  message := if event.message = [] then defaultTestMessage else event.message
  facility := if event.facility < 0 then defaultFacility else event.facility
  severity := if event.severity < 0 then defaultSeverity else event.severity

/-- The PRI part and the version; the priority is an `int` of 64 bits. -/
def priVersion (event : Event) : List Char :=
  '<' :: itoa (Int.bmod (event.facility * 8 + event.severity) (2 ^ 64)) ++ ['>', '1']

/-- `FormatRFC5424`. -/
def formatRFC5424 (process : Process) (event : Event) : List Char :=
  let event := withDefaults process event
  priVersion event ++ ' ' :: Calendar.rfc3339 event.timestamp ++ ' ' :: token event.hostname ++
    ' ' :: token event.appName ++ ' ' :: token event.procID ++ ' ' :: token event.msgID ++
      " - ".toList ++ event.message ++ ['\n']

/-- `NewTestEvent`. -/
def newTestEvent (process : Process) (message : List Char) : Event where
  timestamp := process.now
  hostname := localHostname process
  appName := "logthing".toList
  procID := itoa process.pid
  msgID := "test".toList
  facility := defaultFacility
  severity := defaultSeverity
  message := message

/-! ## Frames -/

/-- A character that may not stand in a header token. -/
def isBreak (c : Char) : Bool := Text.isSpace c || Text.isControl c

/-- A payload is one frame with the fields of an event: its only line feed ends it, what stands
before, cut at its first seven spaces, is the event's fields in order, and no header token has
white space or control characters. -/
structure WellFramed (event : Event) (payload : List Char) : Prop where
  framed : ∃ frame, payload = frame ++ ['\n'] ∧ '\n' ∉ frame ∧
    Text.splitN ' ' 7 frame = [priVersion event, Calendar.rfc3339 event.timestamp,
      token event.hostname, token event.appName, token event.procID, token event.msgID, ['-'],
      event.message]
  tokens : ∀ field ∈ [event.hostname, event.appName, event.procID, event.msgID],
    ∀ c ∈ token field, isBreak c = false

/-- What `token` cannot repair: white space other than spaces inside a value, and control
characters. -/
def Repairable (value : List Char) : Prop :=
  ∀ c ∈ Text.trimSpace value, c = ' ' ∨ isBreak c = false

instance (value : List Char) : Decidable (Repairable value) :=
  inferInstanceAs (Decidable (∀ c ∈ Text.trimSpace value, c = ' ' ∨ isBreak c = false))

/-- A header token is clean exactly if its value could be repaired. -/
lemma token_clean_iff (value : List Char) :
    (∀ c ∈ token value, isBreak c = false) ↔ Repairable value := by
  simp only [token, Repairable]
  split_ifs with hempty
  · rw [hempty]
    simp only [List.not_mem_nil, false_implies, implies_true, iff_true]
    decide
  · rw [List.forall_mem_map]
    refine forall₂_congr fun c _ => ?_
    split_ifs with hc
    · simp only [hc, true_or, iff_true]
      decide
    · simp [hc]

lemma space_not_mem_token {value : List Char} : ' ' ∉ token value := by
  simp only [token]
  split_ifs
  · decide
  · intro hmem
    obtain ⟨c, -, hc⟩ := List.mem_map.mp hmem
    split_ifs at hc with hspace
    · exact absurd hc (by decide)
    · exact hspace hc

lemma newline_not_mem_token {value : List Char} (h : Repairable value) : '\n' ∉ token value :=
  fun hmem => absurd ((token_clean_iff value).mpr h '\n' hmem) (by decide)

/-- The characters of a number. -/
lemma mem_itoa {n : ℤ} {c : Char} (h : c ∈ itoa n) : c.isDigit = true ∨ c = '-' := by
  obtain ⟨digits, hs, -, hdigits⟩ := Calendar.isDecimal_formatPadded 1 n
  rw [itoa] at h
  rcases hs with hs | hs
  · exact Or.inl (hdigits c (hs ▸ h))
  · rw [hs] at h
    exact (List.mem_cons.mp h).symm.imp_left (hdigits c)

lemma not_mem_priVersion {c : Char} (hdigit : c.isDigit = false) (hc : c ∉ ['<', '-', '>', '1'])
    (event : Event) : c ∉ priVersion event := by
  intro hmem
  simp only [priVersion, List.cons_append, List.mem_cons, List.mem_append] at hmem
  simp only [List.mem_cons, not_or] at hc
  rcases hmem with rfl | hnumber | hrest
  · exact hc.1 rfl
  · rcases mem_itoa hnumber with hd | rfl
    · exact absurd hd (by simp [hdigit])
    · exact hc.2.1 rfl
  · simp only [List.not_mem_nil, or_false] at hrest
    tauto

lemma not_mem_rfc3339 {c : Char} (hdigit : c.isDigit = false) (hc : c ∉ ['-', 'T', ':', 'Z'])
    (t : ℤ) : c ∉ Calendar.rfc3339 t := fun hmem =>
  (Calendar.mem_rfc3339 hmem).elim (fun hd => by simp [hdigit] at hd) hc

/-- The header fields of an event, in the order they are written. -/
def headerFields (event : Event) : List (List Char) :=
  [priVersion event, Calendar.rfc3339 event.timestamp, token event.hostname, token event.appName,
    token event.procID, token event.msgID, ['-']]

lemma formatRFC5424_eq (process : Process) (event : Event) :
    formatRFC5424 process event
      = [' '].intercalate (headerFields (withDefaults process event)
          ++ [(withDefaults process event).message]) ++ ['\n'] := by
  simp [formatRFC5424, headerFields]

lemma space_not_mem_headerFields (event : Event) : ∀ field ∈ headerFields event, ' ' ∉ field := by
  intro field hfield
  simp only [headerFields, List.mem_cons, List.not_mem_nil, or_false] at hfield
  rcases hfield with rfl | rfl | rfl | rfl | rfl | rfl | rfl
  · exact not_mem_priVersion (by decide) (by decide) event
  · exact not_mem_rfc3339 (by decide) (by decide) _
  all_goals first
    | exact space_not_mem_token
    | decide

/-- Cutting a payload at its first seven spaces always gives the fields back. -/
lemma splitN_fields (event : Event) :
    Text.splitN ' ' 7 ([' '].intercalate (headerFields event ++ [event.message]))
      = headerFields event ++ [event.message] :=
  Text.splitN_intercalate (space_not_mem_headerFields event) event.message

lemma mem_intercalate {c : Char} {fields : List (List Char)} :
    c ∈ [' '].intercalate fields → c = ' ' ∨ ∃ field ∈ fields, c ∈ field := by
  induction fields with
  | nil => simp
  | cons field fields ih =>
      by_cases hnil : fields = []
      · subst hnil
        simpa using Or.inr
      · rw [List.intercalate_cons_of_ne_nil hnil, List.append_assoc, List.singleton_append]
        intro hmem
        rcases List.mem_append.mp hmem with hfirst | hrest
        · exact Or.inr ⟨field, List.mem_cons_self, hfirst⟩
        · rcases List.mem_cons.mp hrest with hspace | hrest
          · exact Or.inl hspace
          · exact (ih hrest).imp_right fun ⟨f, hf, hc⟩ => ⟨f, List.mem_cons_of_mem _ hf, hc⟩

/-- The four fields of the header that come from outside. -/
def tokenFields (event : Event) : List (List Char) :=
  [event.hostname, event.appName, event.procID, event.msgID]

/-- The payload of an event that has its defaults is one frame exactly if the message has no line
feed and the header fields can be repaired. -/
lemma wellFramed_fields_iff (event : Event) :
    WellFramed event
        ([' '].intercalate (headerFields event ++ [event.message]) ++ ['\n']) ↔
      '\n' ∉ event.message ∧ ∀ field ∈ tokenFields event, Repairable field := by
  constructor
  · rintro ⟨⟨frame, hpayload, hline, hsplit⟩, htokens⟩
    refine ⟨fun hmem => ?_, fun field hfield => (token_clean_iff field).mp (htokens field hfield)⟩
    obtain rfl := List.append_cancel_right hpayload
    apply hline
    simp [headerFields, hmem]
  · rintro ⟨hmessage, hfields⟩
    refine ⟨⟨_, rfl, fun hmem => ?_, splitN_fields event⟩,
      fun field hfield => (token_clean_iff field).mpr (hfields field hfield)⟩
    rcases mem_intercalate hmem with hspace | ⟨field, hfield, hc⟩
    · exact absurd hspace (by decide)
    · have htoken : ∀ value ∈ tokenFields event, '\n' ∉ token value := fun value hvalue =>
        newline_not_mem_token (hfields value hvalue)
      simp only [tokenFields, List.mem_cons, List.not_mem_nil, or_false, forall_eq_or_imp,
        forall_eq] at htoken
      obtain ⟨hhost, happ, hproc, hid⟩ := htoken
      simp only [headerFields, List.cons_append, List.nil_append, List.mem_cons,
        List.not_mem_nil, or_false] at hfield
      rcases hfield with rfl | rfl | rfl | rfl | rfl | rfl | rfl | rfl
      · exact not_mem_priVersion (by decide) (by decide) event hc
      · exact not_mem_rfc3339 (by decide) (by decide) _ hc
      · exact hhost hc
      · exact happ hc
      · exact hproc hc
      · exact hid hc
      · exact absurd hc (by decide)
      · exact hmessage hc

/-! ## Events as they are given -/

lemma repairable_nil : Repairable [] := by decide

lemma isBreak_of_isDigit {c : Char} (h : c.isDigit = true) : isBreak c = false := by
  obtain ⟨hlow, hhigh⟩ := Char.isDigit_iff_toNat.mp h
  have hc : Char.ofNat c.toNat = c := Char.ofNat_toNat c
  change 48 ≤ c.toNat at hlow
  change c.toNat ≤ 57 at hhigh
  rw [← hc]
  interval_cases c.toNat <;> decide

lemma repairable_itoa (n : ℤ) : Repairable (itoa n) := by
  intro c hc
  have hmem : c ∈ itoa n :=
    (List.dropWhile_suffix _).subset ((List.rdropWhile_prefix _ _).subset hc)
  refine Or.inr ?_
  rcases mem_itoa hmem with hdigit | rfl
  · exact isBreak_of_isDigit hdigit
  · decide

/-- A field's default can be repaired, so only what is given counts. -/
lemma repairable_default {value default : List Char} (h : Repairable default) :
    Repairable (if value = [] then default else value) ↔ Repairable value := by
  split_ifs with hempty
  · simp [h, hempty, repairable_nil]
  · rfl

lemma withDefaults_timestamp (process : Process) {event : Event}
    (htime : event.timestamp.isZero = false) :
    (withDefaults process event).timestamp = event.timestamp :=
  if_neg (by simp only [htime, Bool.false_eq_true, not_false_eq_true])

lemma newline_not_mem_message (process : Process) (event : Event) :
    '\n' ∉ (withDefaults process event).message ↔ '\n' ∉ event.message := by
  have hdefault : '\n' ∉ defaultTestMessage := by decide
  have hmessage : (withDefaults process event).message
      = if event.message = [] then defaultTestMessage else event.message := rfl
  rw [hmessage]
  split_ifs with hempty
  · simp only [hdefault, hempty, List.not_mem_nil, not_false_eq_true]
  · rfl

/-- **When an event is one frame**: exactly if its message has no line feed, and no header field
(the hostname being the process's own when none is given) has, once trimmed, white space other
than spaces or a control character. -/
theorem wellFramed_iff (process : Process) (event : Event)
    (htime : event.timestamp.isZero = false) :
    WellFramed { withDefaults process event with timestamp := event.timestamp }
        (formatRFC5424 process event) ↔
      '\n' ∉ event.message ∧ Repairable event.appName ∧ Repairable event.procID ∧
        Repairable event.msgID ∧
        Repairable (if event.hostname = [] then localHostname process else event.hostname) := by
  have hdefaults : { withDefaults process event with timestamp := event.timestamp }
      = withDefaults process event :=
    congrArg (fun t => { withDefaults process event with timestamp := t })
      (withDefaults_timestamp process htime).symm
  have hfields : tokenFields (withDefaults process event)
      = [if event.hostname = [] then localHostname process else event.hostname,
        if event.appName = [] then "logthing".toList else event.appName,
        if event.procID = [] then itoa process.pid else event.procID,
        if event.msgID = [] then "test".toList else event.msgID] := rfl
  have happ : Repairable "logthing".toList := by decide
  have hid : Repairable "test".toList := by decide
  rw [hdefaults, formatRFC5424_eq, wellFramed_fields_iff, newline_not_mem_message, hfields]
  simp only [List.forall_mem_cons, repairable_default happ, repairable_default hid,
    repairable_default (repairable_itoa _)]
  refine and_congr_right fun _ => ?_
  constructor
  · rintro ⟨hhost, happName, hproc, hmsg, -⟩
    exact ⟨happName, hproc, hmsg, hhost⟩
  · rintro ⟨happName, hproc, hmsg, hhost⟩
    exact ⟨hhost, happName, hproc, hmsg, by simp⟩

/-- A process with a name. -/
def sampleProcess : Process := ⟨1000000000, some "gw".toList, 42⟩

/-- An ordinary test event is one frame. -/
theorem wellFramed_iff_hello :
    WellFramed
      { withDefaults sampleProcess (newTestEvent sampleProcess "hello there".toList) with
        timestamp := (newTestEvent sampleProcess "hello there".toList).timestamp }
      (formatRFC5424 sampleProcess (newTestEvent sampleProcess "hello there".toList)) :=
  (wellFramed_iff sampleProcess (newTestEvent sampleProcess "hello there".toList) (by decide)).mpr
    ⟨by decide, by decide, by decide, by decide, by decide⟩

/-- The test event of a request whose text has a line feed in it. -/
def forgingEvent : Event :=
  newTestEvent sampleProcess "one\n<10>1 2026-01-01T00:00:00Z gw kernel - - - two".toList

/-- **A test event can forge a record**: what follows the line feed of its text is a second line
on the wire. -/
theorem forgingEvent_not_framed :
    forgingEvent.timestamp.isZero = false ∧
      ¬WellFramed
        { withDefaults sampleProcess forgingEvent with timestamp := forgingEvent.timestamp }
        (formatRFC5424 sampleProcess forgingEvent) ∧
      (formatRFC5424 sampleProcess forgingEvent).splitOn '\n'
        = ["<13>1 0001-01-01T00:00:01Z gw logthing 42 test - one".toList,
          "<10>1 2026-01-01T00:00:00Z gw kernel - - - two".toList, []] := by
  refine ⟨by decide, fun hframed => ?_, by decide +kernel⟩
  obtain ⟨⟨frame, hpayload, hline, -⟩, -⟩ := hframed
  have hframe : frame = (formatRFC5424 sampleProcess forgingEvent).dropLast := by
    rw [hpayload, List.dropLast_concat]
  exact hline (hframe ▸ by decide +kernel)

end Logthing.Syslog
