import Logthing.Core.Text
import Logthing.Model.Message

/-!
# Importing messages

`parseImportedMessage` reads one line of an NDJSON body.  Its fields are `timestamp`, `host`,
`program`, `pid`, `severity`, `facility` and `message`; those of a message as it is served are
others (`apiFields`), and what the export button downloads are messages as they are served.

**Main results.**  `import_exported`: an exported row is accepted if it carries a timestamp and
syslog codes, keeps its codes and its text, is dated by the timestamp, and loses host, program
and process.
-/

namespace Logthing.Api

/-! ## The parser -/

/-- The functions of other packages and of the runtime that an import goes through. -/
structure ImportLib where
  /-- `decoder.Decode(&raw)` with `UseNumber`, or the text of its error. -/
  decode : String → Except String JsonMap
  /-- Whether decoding once more fails with `io.EOF`. -/
  atEnd : String → Bool
  /-- `time.Parse(time.RFC3339Nano, value)`. -/
  parseTime : String → Except String Time
  /-- How `json.Marshal` writes a time. -/
  marshalTime : Time → String
  /-- `strings.ToLower`. -/
  toLower : String → String
  /-- The verb `%q`. -/
  quote : String → String
  /-- `fmt.Sprint` of an array or an object. -/
  sprint : Json → String

/-- `importString`. -/
def importString (lib : ImportLib) (raw : JsonMap) (key : String) : String :=
  match raw.bind (·.lookup key) with
  | none | some .null => ""
  | some (.string typed) => typed
  | some (.number typed) => typed
  | some (.bool typed) => if typed then "true" else "false"
  | some value => lib.sprint value

/-- `strings.TrimSpace`. -/
def trimSpace (text : String) : String := String.ofList (Text.trimSpace text.toList)

/-- `parseSyslogCode`. -/
def parseSyslogCode (lib : ImportLib) (value : String) (names : List (String × ℤ))
    (minValue maxValue : ℤ) : Except String (Option ℤ) :=
  let value := lib.toLower (trimSpace value)
  if value = "" then .ok none
  else
    match names.lookup value with
    | some parsed => .ok (some parsed)
    | none =>
        match Text.atoi value.toList with
        | none => .error (lib.quote value ++ " is not recognized")
        | some parsed =>
            if parsed < minValue ∨ maxValue < parsed then
              .error (toString parsed ++ " is outside " ++ toString minValue ++ "-" ++
                toString maxValue)
            else .ok (some parsed)

/-- `severityNames`. -/
def severityNames : List (String × ℤ) :=
  [("emerg", 0), ("emergency", 0), ("alert", 1), ("crit", 2), ("critical", 2), ("err", 3),
    ("error", 3), ("warning", 4), ("warn", 4), ("notice", 5), ("info", 6), ("informational", 6),
    ("debug", 7)]

/-- `facilityNames`. -/
def facilityNames : List (String × ℤ) :=
  [("kern", 0), ("kernel", 0), ("user", 1), ("mail", 2), ("daemon", 3), ("auth", 4),
    ("security", 4), ("syslog", 5), ("lpr", 6), ("news", 7), ("uucp", 8), ("cron", 9),
    ("authpriv", 10), ("ftp", 11), ("ntp", 12), ("audit", 13), ("alert", 14), ("clock", 15),
    ("local0", 16), ("local1", 17), ("local2", 18), ("local3", 19), ("local4", 20),
    ("local5", 21), ("local6", 22), ("local7", 23)]

/-- `parseSeverity`. -/
def parseSeverity (lib : ImportLib) (value : String) : Except String (Option ℤ) :=
  parseSyslogCode lib value severityNames 0 7

/-- `parseFacility`. -/
def parseFacility (lib : ImportLib) (value : String) : Except String (Option ℤ) :=
  parseSyslogCode lib value facilityNames 0 23

/-- `invalidImportLine`. -/
def invalidImportLine (lineNumber : ℕ) (text : String) : String :=
  "line " ++ toString lineNumber ++ ": " ++ text

/-- The message of an imported line, from what has been read of it. -/
def importedMessage (lib : ImportLib) (id : String) (raw : JsonMap) (timestamp : Time)
    (facility severity : Option ℤ) : Message :=
  let host := trimSpace (importString lib raw "host")
  let program := trimSpace (importString lib raw "program")
  { id
    receivedAt := timestamp
    timestamp := some timestamp
    transport := "import"
    priority := facility.bind fun facility => severity.map fun severity => facility * 8 + severity
    facility
    severity
    hostname := if host = "" then "unknown" else host
    appName := program
    procID := trimSpace (importString lib raw "pid")
    tag := program
    message := importString lib raw "message"
    raw }

/-- `parseImportedMessage`; `id` is what `newImportID` gives. -/
def parseImportedMessage (lib : ImportLib) (id line : String) (lineNumber : ℕ) :
    Except String Message :=
  let invalid := fun text => .error (invalidImportLine lineNumber text)
  match lib.decode line with
  | .error err => invalid ("invalid JSON: " ++ err)
  | .ok raw =>
      if !lib.atEnd line then invalid "invalid trailing JSON"
      else
        let timestampText := trimSpace (importString lib raw "timestamp")
        if timestampText = "" then invalid "timestamp is required"
        else
          match lib.parseTime timestampText with
          | .error err => invalid ("invalid timestamp: " ++ err)
          | .ok timestamp =>
              match parseFacility lib (importString lib raw "facility") with
              | .error err => invalid ("invalid facility: " ++ err)
              | .ok facility =>
                  match parseSeverity lib (importString lib raw "severity") with
                  | .error err => invalid ("invalid severity: " ++ err)
                  | .ok severity => .ok (importedMessage lib id raw timestamp facility severity)

/-! ## Exported rows -/

/-- A string field with `omitempty`. -/
def omitEmpty (value : String) : Option Json := if value = "" then none else some (.string value)

/-- A number field with `omitempty`. -/
def omitNil (value : Option ℤ) : Option Json := value.map fun n => .number (toString n)

/-- A map field with `omitempty`. -/
def omitMap : JsonMap → Option Json
  | none | some [] => none
  | some (field :: fields) => some (.object (field :: fields))

/-- The fields of a message as it is served, each with its value if it is not omitted. -/
def apiTable (lib : ImportLib) (m : Message) : List (String × Option Json) :=
  [("id", some (.string m.id)), ("received_at", some (.string (lib.marshalTime m.receivedAt))),
    ("timestamp", m.timestamp.map fun t => .string (lib.marshalTime t)),
    ("transport", omitEmpty m.transport), ("source", omitEmpty m.source),
    ("priority", omitNil m.priority), ("facility", omitNil m.facility),
    ("severity", omitNil m.severity), ("hostname", omitEmpty m.hostname),
    ("app_name", omitEmpty m.appName), ("proc_id", omitEmpty m.procID),
    ("msg_id", omitEmpty m.msgID), ("tag", omitEmpty m.tag), ("message", omitEmpty m.message),
    ("structured_data", omitMap m.structuredData), ("raw", omitMap m.raw)]

/-- The API JSON of a message. -/
def apiFields (lib : ImportLib) (m : Message) : List (String × Json) :=
  (apiTable lib m).filterMap fun field => field.2.map fun value => (field.1, value)

/-- A line of an export, of a message `m`: its API JSON, read and written again by the browser.
That may spell the numbers in the two maps in other ways, and nothing else.  The time is written
so that it is read as the same instant. -/
structure ImportLib.Exports (lib : ImportLib) (m : Message) (line : String) : Prop where
  decodes : ∃ fields, lib.decode line = .ok (some fields) ∧
    ∀ key, key ≠ "structured_data" → key ≠ "raw" → fields.lookup key = (apiFields lib m).lookup key
  atEnd : lib.atEnd line = true
  time : ∀ t, m.timestamp = some t → trimSpace (lib.marshalTime t) ≠ "" ∧
    lib.parseTime (trimSpace (lib.marshalTime t)) = .ok t

/-- Lower case leaves digits and signs alone. -/
def ImportLib.LowersLetters (lib : ImportLib) : Prop :=
  ∀ text : String, (∀ c ∈ text.toList, c.isDigit = true ∨ c = '-') → lib.toLower text = text

/-- The codes of a message are numbers that JavaScript holds exactly. -/
def SafeCode (code : Option ℤ) : Prop := ∀ n, code = some n → -2 ^ 53 ≤ n ∧ n ≤ 2 ^ 53

/-- The code is missing or in the range of `parseSyslogCode`. -/
def InRange (maxValue : ℤ) (code : Option ℤ) : Prop := ∀ n, code = some n → 0 ≤ n ∧ n ≤ maxValue

/-- Fields that are omitted are not found, others have their values. -/
lemma lookup_filterMap {table : List (String × Option Json)} (hnodup : (table.map Prod.fst).Nodup)
    (key : String) :
    (table.filterMap fun field => field.2.map fun value => (field.1, value)).lookup key
      = (table.lookup key).join := by
  induction table with
  | nil => rfl
  | cons field table ih =>
      obtain ⟨name, value⟩ := field
      rw [List.map_cons, List.nodup_cons] at hnodup
      have hrest := ih hnodup.2
      cases value with
      | some value =>
          simp only [List.filterMap_cons, Option.map_some, List.lookup_cons, hrest]
          cases key == name with
          | false => rfl
          | true => rfl
      | none =>
          simp only [List.filterMap_cons, Option.map_none, List.lookup_cons, hrest]
          cases hkey : key == name with
          | false => rfl
          | true =>
              have hmissing : table.lookup key = none := by
                rw [List.lookup_eq_none_iff]
                intro p hp
                rw [bne_iff_ne]
                rintro rfl
                exact hnodup.1 (List.mem_map.mpr ⟨p, hp, eq_of_beq hkey⟩)
              rw [hmissing]
              rfl

lemma lookup_apiFields (lib : ImportLib) (m : Message) (key : String) :
    (apiFields lib m).lookup key = ((apiTable lib m).lookup key).join :=
  lookup_filterMap (by simp only [apiTable, List.map]; decide) key

/-- What the import finds under the keys it knows. -/
lemma importString_exported {lib : ImportLib} {m : Message} {fields : List (String × Json)}
    (hfields : ∀ key, key ≠ "structured_data" → key ≠ "raw" →
      fields.lookup key = (apiFields lib m).lookup key) :
    importString lib (some fields) "timestamp" = (m.timestamp.map lib.marshalTime).getD "" ∧
    importString lib (some fields) "facility" = (m.facility.map toString).getD "" ∧
    importString lib (some fields) "severity" = (m.severity.map toString).getD "" ∧
    importString lib (some fields) "message" = m.message ∧
    ∀ key ∈ ["host", "program", "pid"], importString lib (some fields) key = "" := by
  have hlookup : ∀ key, key ≠ "structured_data" → key ≠ "raw" →
      (some fields : JsonMap).bind (·.lookup key) = ((apiTable lib m).lookup key).join := by
    intro key hmap hraw
    rw [Option.bind_some, hfields key hmap hraw, lookup_apiFields]
  have htimestamp : (apiTable lib m).lookup "timestamp"
      = some (m.timestamp.map fun t => .string (lib.marshalTime t)) := rfl
  have hfacility : (apiTable lib m).lookup "facility" = some (omitNil m.facility) := rfl
  have hseverity : (apiTable lib m).lookup "severity" = some (omitNil m.severity) := rfl
  have hmessage : (apiTable lib m).lookup "message" = some (omitEmpty m.message) := rfl
  have hmissing : ∀ key ∈ ["host", "program", "pid"], (apiTable lib m).lookup key = none := by
    intro key hkey
    simp only [List.mem_cons, List.not_mem_nil, or_false] at hkey
    rcases hkey with rfl | rfl | rfl <;> rfl
  refine ⟨?_, ?_, ?_, ?_, ?_⟩
  · rw [importString, hlookup "timestamp" (by decide) (by decide), htimestamp]
    cases m.timestamp <;> rfl
  · rw [importString, hlookup "facility" (by decide) (by decide), hfacility]
    cases m.facility <;> rfl
  · rw [importString, hlookup "severity" (by decide) (by decide), hseverity]
    cases m.severity <;> rfl
  · rw [importString, hlookup "message" (by decide) (by decide), hmessage, omitEmpty]
    split_ifs with hempty
    · rw [hempty]
      rfl
    · rfl
  · intro key hkey
    have hnames : key ≠ "structured_data" ∧ key ≠ "raw" := by
      simp only [List.mem_cons, List.not_mem_nil, or_false] at hkey
      rcases hkey with rfl | rfl | rfl <;> decide
    rw [importString, hlookup key hnames.1 hnames.2, hmissing key hkey]
    rfl

/-! ## Syslog codes -/

/-- No name of a code is a number. -/
def Spelled (names : List (String × ℤ)) : Prop :=
  ∀ p ∈ names, ∃ c ∈ p.1.toList, c.isDigit = false ∧ c ≠ '-'

lemma spelled_severityNames : Spelled severityNames := by
  simp only [Spelled]
  decide

lemma spelled_facilityNames : Spelled facilityNames := by
  simp only [Spelled]
  decide

/-- **A code as it is exported** is taken for what it is, if it is in range. -/
lemma parseSyslogCode_exported {lib : ImportLib} (hlower : lib.LowersLetters)
    {names : List (String × ℤ)} (hnames : Spelled names) {code : Option ℤ} (hsafe : SafeCode code)
    (maxValue : ℤ) :
    (InRange maxValue code →
      parseSyslogCode lib ((code.map toString).getD "") names 0 maxValue = .ok code) ∧
    (¬ InRange maxValue code → ∃ err,
      parseSyslogCode lib ((code.map toString).getD "") names 0 maxValue = .error err) := by
  cases code with
  | none =>
      have hempty : lib.toLower (trimSpace "") = "" := hlower "" (fun c hc => nomatch hc)
      refine ⟨fun _ => ?_, fun hout => absurd (fun n hn => nomatch hn) hout⟩
      simp only [parseSyslogCode, Option.map_none, Option.getD_none, hempty, if_true]
  | some n =>
      have hchars : ∀ c ∈ (toString n).toList, c.isDigit = true ∨ c = '-' :=
        fun c hc => Text.digit_or_minus_of_mem_toString hc
      have hspace : ∀ c ∈ (toString n).toList, Text.isSpace c = false := by
        intro c hc
        rcases hchars c hc with hdigit | rfl
        · exact Text.isSpace_of_isDigit hdigit
        · rfl
      have htext : lib.toLower (trimSpace (toString n)) = toString n := by
        rw [trimSpace, Text.trimSpace_of_none hspace, String.ofList_toList]
        exact hlower _ hchars
      have hread : Text.atoi (toString n).toList = some n := by
        obtain ⟨hlow, hhigh⟩ := hsafe n rfl
        exact Text.atoi_toString_int (by omega) (by omega)
      have hgiven : toString n ≠ "" := by
        intro hn
        rw [hn] at hread
        cases hread
      have hname : names.lookup (toString n) = none := by
        rw [List.lookup_eq_none_iff]
        intro p hp
        rw [bne_iff_ne]
        intro heq
        obtain ⟨c, hc, hletter, hminus⟩ := hnames p hp
        rw [← heq] at hc
        rcases hchars c hc with hdigit | rfl
        · rw [hdigit] at hletter
          cases hletter
        · exact hminus rfl
      have hrange : InRange maxValue (some n) ↔ ¬ (n < 0 ∨ maxValue < n) := by
        constructor
        · intro h
          obtain ⟨hlow, hhigh⟩ := h n rfl
          omega
        · rintro h k hk
          rw [← Option.some.inj hk]
          omega
      simp only [parseSyslogCode, Option.map_some, Option.getD_some, htext, if_neg hgiven, hname,
        hread, hrange, not_not]
      exact ⟨fun hin => if_neg hin, fun hout => ⟨_, if_pos hout⟩⟩

/-! ## Importing what was exported -/

section

variable {lib : ImportLib} {m : Message} {line : String} (hline : lib.Exports m line)

include hline

/-- A row without a timestamp is turned away. -/
lemma import_exported_of_none (htimestamp : m.timestamp = none) (id : String) (lineNumber : ℕ) :
    parseImportedMessage lib id line lineNumber
      = .error (invalidImportLine lineNumber "timestamp is required") := by
  obtain ⟨fields, hdecode, hfields⟩ := hline.decodes
  obtain ⟨htime, -⟩ := importString_exported hfields
  have hempty : trimSpace "" = "" := rfl
  rw [htimestamp, Option.map_none, Option.getD_none] at htime
  simp only [parseImportedMessage, hdecode, hline.atEnd, Bool.not_true, Bool.false_eq_true,
    if_false, htime, hempty, if_true]

/-- A row with a timestamp is read if its codes are. -/
lemma import_exported_of_some {t : Time} (htimestamp : m.timestamp = some t) (id : String)
    (lineNumber : ℕ) :
    (∀ facility severity, parseFacility lib ((m.facility.map toString).getD "") = .ok facility →
      parseSeverity lib ((m.severity.map toString).getD "") = .ok severity →
      ∃ r, parseImportedMessage lib id line lineNumber = .ok r ∧ r.receivedAt = t ∧
        r.facility = facility ∧ r.severity = severity ∧ r.message = m.message ∧
        r.hostname = "unknown" ∧ r.appName = "" ∧ r.procID = "") ∧
    ((∃ err, parseFacility lib ((m.facility.map toString).getD "") = .error err) ∨
      (∃ err, parseSeverity lib ((m.severity.map toString).getD "") = .error err) →
      ∃ err, parseImportedMessage lib id line lineNumber = .error err) := by
  obtain ⟨fields, hdecode, hfields⟩ := hline.decodes
  obtain ⟨htime, hfacility, hseverity, hmessage, hmissing⟩ := importString_exported hfields
  obtain ⟨hgiven, hparse⟩ := hline.time t htimestamp
  rw [htimestamp, Option.map_some, Option.getD_some] at htime
  simp only [parseImportedMessage, hdecode, hline.atEnd, Bool.not_true, Bool.false_eq_true,
    if_false, htime, if_neg hgiven, hparse, hfacility, hseverity]
  constructor
  · intro facility severity hf hs
    rw [hf, hs]
    have hempty : trimSpace "" = "" := rfl
    refine ⟨_, rfl, rfl, rfl, rfl, hmessage, ?_, ?_, ?_⟩
    · rw [importedMessage, hmissing "host" (by simp), hempty]
      rfl
    · rw [importedMessage, hmissing "program" (by simp), hempty]
    · rw [importedMessage, hmissing "pid" (by simp), hempty]
  · rintro (⟨err, hf⟩ | ⟨err, hs⟩)
    · rw [hf]
      exact ⟨_, rfl⟩
    · cases parseFacility lib ((m.facility.map toString).getD "") with
      | error err => exact ⟨_, rfl⟩
      | ok facility =>
          rw [hs]
          exact ⟨_, rfl⟩

end

/-- **Exported rows come back without their source.**  A row that the export button writes is
accepted exactly if the message carries a timestamp and its codes are syslog codes.  What comes of
it then has its facility, severity and text, is received at the message's timestamp, and is from the
host `unknown`, no program and no process, whatever the message said.  Without a timestamp the line
is turned away. -/
theorem import_exported (lib : ImportLib) (hlower : lib.LowersLetters) (m : Message) (line : String)
    (hline : lib.Exports m line) (hfacility : SafeCode m.facility) (hseverity : SafeCode m.severity)
    (id : String) (lineNumber : ℕ) :
    ((∃ r, parseImportedMessage lib id line lineNumber = .ok r) ↔
      m.timestamp ≠ none ∧ InRange 23 m.facility ∧ InRange 7 m.severity) ∧
    (m.timestamp = none → parseImportedMessage lib id line lineNumber
      = .error (invalidImportLine lineNumber "timestamp is required")) ∧
    ∀ r, parseImportedMessage lib id line lineNumber = .ok r →
      m.timestamp = some r.receivedAt ∧ r.facility = m.facility ∧ r.severity = m.severity ∧
        r.message = m.message ∧ r.hostname = "unknown" ∧ r.appName = "" ∧ r.procID = "" := by
  have hfail : ∀ {err}, parseImportedMessage lib id line lineNumber = .error err →
      ∀ r, parseImportedMessage lib id line lineNumber ≠ .ok r := by
    intro err herror r hr
    rw [herror] at hr
    cases hr
  cases htimestamp : m.timestamp with
  | none =>
      have herror := import_exported_of_none hline htimestamp id lineNumber
      exact ⟨iff_of_false (fun ⟨r, hr⟩ => hfail herror r hr) fun h => h.1 rfl, fun _ => herror,
        fun r hr => absurd hr (hfail herror r)⟩
  | some t =>
      obtain ⟨hread, hunread⟩ := import_exported_of_some hline htimestamp id lineNumber
      obtain ⟨hin, hout⟩ := parseSyslogCode_exported hlower spelled_facilityNames hfacility 23
      obtain ⟨hin', hout'⟩ := parseSyslogCode_exported hlower spelled_severityNames hseverity 7
      by_cases hrange : InRange 23 m.facility ∧ InRange 7 m.severity
      · obtain ⟨r, hr, rfl, hfields⟩ := hread _ _ (hin hrange.1) (hin' hrange.2)
        refine ⟨iff_of_true ⟨r, hr⟩ ⟨Option.some_ne_none _, hrange⟩,
          fun h => absurd h (Option.some_ne_none _), fun r' hr' => ?_⟩
        obtain rfl := Except.ok.inj (hr.symm.trans hr')
        exact ⟨rfl, hfields⟩
      · obtain ⟨err, herror⟩ : ∃ err, parseImportedMessage lib id line lineNumber = .error err :=
          hunread ((not_and_or.mp hrange).imp hout hout')
        exact ⟨iff_of_false (fun ⟨r, hr⟩ => hfail herror r hr) fun h => hrange h.2,
          fun h => absurd h (Option.some_ne_none _), fun r hr => absurd hr (hfail herror r)⟩

/-! ## A row of `pppd` -/

/-- A message of `pppd` on the host `potato`. -/
def pppd : Message where
  id := "5f0c"
  receivedAt := 63925756614 * 1000000000
  timestamp := some (63925756614 * 1000000000)
  transport := "udp"
  priority := some 28
  facility := some 3
  severity := some 4
  hostname := "potato"
  appName := "pppd"
  procID := "2017"
  tag := "pppd"
  message := "LCP terminated by peer"

/-- The row of an export with that message. -/
def pppdLine : String :=
  "\x7b\"id\":\"5f0c\",\"received_at\":\"2026-09-23T10:36:54Z\"," ++
    "\"timestamp\":\"2026-09-23T10:36:54Z\",\"transport\":\"udp\",\"priority\":28," ++
    "\"facility\":3,\"severity\":4,\"hostname\":\"potato\",\"app_name\":\"pppd\"," ++
    "\"proc_id\":\"2017\",\"tag\":\"pppd\",\"message\":\"LCP terminated by peer\"\x7d"

/-- What that row is decoded to. -/
def pppdFields : List (String × Json) :=
  [("id", .string "5f0c"), ("received_at", .string "2026-09-23T10:36:54Z"),
    ("timestamp", .string "2026-09-23T10:36:54Z"), ("transport", .string "udp"),
    ("priority", .number "28"), ("facility", .number "3"), ("severity", .number "4"),
    ("hostname", .string "potato"), ("app_name", .string "pppd"), ("proc_id", .string "2017"),
    ("tag", .string "pppd"), ("message", .string "LCP terminated by peer")]

/-- The functions an import goes through, on that row. -/
def pppdLib : ImportLib where
  decode line := if line = pppdLine then .ok (some pppdFields) else .error "unexpected EOF"
  atEnd _ := true
  parseTime value :=
    if value = "2026-09-23T10:36:54Z" then .ok (63925756614 * 1000000000)
    else .error "cannot parse"
  marshalTime _ := "2026-09-23T10:36:54Z"
  toLower text := String.ofList (text.toList.map Char.toLower)
  quote text := "\"" ++ text ++ "\""
  sprint _ := "map[]"

lemma toLower_of_isDigit {c : Char} (h : c.isDigit = true) : c.toLower = c := by
  refine dif_neg fun hupper => ?_
  have hhigh := (Char.isDigit_iff_toNat.mp h).2
  have hlow : 65 ≤ c.toNat := hupper.1
  change c.toNat ≤ 57 at hhigh
  omega

lemma lowersLetters_pppd : pppdLib.LowersLetters := by
  intro text htext
  have hsame : text.toList.map Char.toLower = text.toList := by
    refine (List.map_congr_left fun c hc => ?_).trans (List.map_id _)
    rcases htext c hc with hdigit | rfl
    · exact toLower_of_isDigit hdigit
    · rfl
  simp only [pppdLib, hsame, String.ofList_toList]

lemma exports_pppd : pppdLib.Exports pppd pppdLine where
  decodes := by
    have hfields : apiFields pppdLib pppd = pppdFields := rfl
    exact ⟨pppdFields, by simp only [pppdLib, if_true], fun key _ _ => by rw [hfields]⟩
  atEnd := rfl
  time t ht := by
    obtain rfl := Option.some.inj ht
    have htext : trimSpace (pppdLib.marshalTime (63925756614 * 1000000000))
        = "2026-09-23T10:36:54Z" := by decide
    rw [htext]
    exact ⟨by decide, by simp only [pppdLib, if_true]⟩

lemma inRange_pppd : InRange 23 pppd.facility ∧ InRange 7 pppd.severity :=
  ⟨fun n hn => by obtain rfl := Option.some.inj hn; decide,
    fun n hn => by obtain rfl := Option.some.inj hn; decide⟩

lemma safeCode_pppd : SafeCode pppd.facility ∧ SafeCode pppd.severity :=
  ⟨fun n hn => by obtain rfl := Option.some.inj hn; decide,
    fun n hn => by obtain rfl := Option.some.inj hn; decide⟩

/-- **The source is lost.**  The row of `potato` is filed under `unknown`. -/
theorem pppd_not_imported_back :
    ¬ ∀ (lib : ImportLib) (m : Message) (line id : String) (lineNumber : ℕ), lib.LowersLetters →
      lib.Exports m line → ∃ r, parseImportedMessage lib id line lineNumber = .ok r ∧
        r.receivedAt = m.receivedAt ∧ r.hostname = m.hostname ∧ r.appName = m.appName ∧
        r.procID = m.procID ∧ r.facility = m.facility ∧ r.severity = m.severity ∧
        r.message = m.message := by
  intro hback
  obtain ⟨r, hr, -, hhost, -⟩ :=
    hback pppdLib pppd pppdLine "9a31" 1 lowersLetters_pppd exports_pppd
  have hfacility := (parseSyslogCode_exported lowersLetters_pppd spelled_facilityNames
    safeCode_pppd.1 23).1 inRange_pppd.1
  have hseverity := (parseSyslogCode_exported lowersLetters_pppd spelled_severityNames
    safeCode_pppd.2 7).1 inRange_pppd.2
  obtain ⟨r', hr', -, -, -, -, hunknown, -⟩ :=
    (import_exported_of_some exports_pppd rfl "9a31" 1).1 _ _ hfacility hseverity
  obtain rfl := Except.ok.inj (hr.symm.trans hr')
  rw [hhost] at hunknown
  exact absurd hunknown (by decide)

/-- The row of `potato`, which is accepted. -/
theorem import_exported_pppd :
    ∃ r, parseImportedMessage pppdLib "9a31" pppdLine 1 = .ok r :=
  (import_exported pppdLib lowersLetters_pppd pppd pppdLine exports_pppd safeCode_pppd.1
    safeCode_pppd.2 "9a31" 1).1.mpr ⟨Option.some_ne_none _, inRange_pppd⟩

end Logthing.Api
