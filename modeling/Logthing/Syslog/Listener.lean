import Logthing.Storage.Growth
import Logthing.Storage.RecordTable

/-!
# Receiving syslog messages

The listener takes the parts of one message after another off a channel, makes a stored message of
each with `messageFromParts` and appends it.  The parts are whatever the parser of the syslog format
put into a map; `jsonSafeValue` turns what `json.Marshal` could refuse into text.

**Main results.**  `listener_stores`: the listener leaves the store as the appends of the messages
that can be encoded do, and those are all but the ones with a number that is not finite or a time
that has no JSON form.
-/

namespace Logthing.Syslog

/-! ## Values -/

/-- A value of a `format.LogParts`, by the dynamic types that the listener tells apart.  Integers are
of any width; a `float64` comes with its JSON text, which `NaN` and the infinities have not, and with
what it is truncated to; bytes come as the text they are converted to; any other value comes with
what `json.Marshal` and `fmt.Sprint` make of it. -/
inductive Value where
  | nil
  | string (value : String)
  | bool (value : Bool)
  | float (json : Option String) (truncated : ℤ)
  | int (value : ℤ)
  | time (value : Time)
  | bytes (text : String)
  | anyMap (fields : List (String × Value))
  | stringMap (fields : List (String × String))
  | stringMaps (fields : List (String × List (String × String)))
  | strings (items : Option (List String))
  | stringer (text : String)
  | other (json : Option Json) (text : String)

/-- The values that `jsonSafeValue` returns. -/
inductive SafeValue where
  | nil
  | string (value : String)
  | bool (value : Bool)
  | float (json : Option String)
  | int (value : ℤ)
  | time (value : Time)
  | object (fields : List (String × SafeValue))
  | strings (items : Option (List String))
  | other (json : Json)

/-- A `format.LogParts`. -/
abbrev LogParts := List (String × Value)

/-- The functions of other packages that the listener is written with. -/
structure ListenerLib where
  /-- `fmt.Sprint`. -/
  sprint : Value → String
  /-- `Time.String`. -/
  timeString : Time → String
  /-- `time.Parse(time.RFC3339Nano, value)`, where there is no error. -/
  parseTime : String → Option Time
  /-- How `json.Marshal` writes a time, if its year has four digits. -/
  marshalTime : Time → Option String
  /-- The error of `json.Marshal`, where there is one. -/
  marshalError : List (String × SafeValue) → String

/-! ## Messages -/

mutual

/-- `jsonSafeValue`. -/
def jsonSafeValue : Value → SafeValue
  | .nil => .nil
  | .string value => .string value
  | .bool value => .bool value
  | .float json _ => .float json
  | .int value => .int value
  | .time value => .time value
  | .bytes text => .string text
  | .anyMap fields => .object (jsonSafeFields fields)
  | .stringMap fields => .object (fields.map fun (key, child) => (key, .string child))
  | .stringMaps fields => .object <| fields.map fun (key, child) =>
      (key, .object (child.map fun (key, grandchild) => (key, .string grandchild)))
  | .strings items => .strings items
  | .stringer text => .string text
  | .other (some json) _ => .other json
  | .other none text => .string text

/-- `jsonSafeValue` on every field of a map. -/
def jsonSafeFields : List (String × Value) → List (String × SafeValue)
  | [] => []
  | (key, child) :: fields => (key, jsonSafeValue child) :: jsonSafeFields fields

end

/-- `stringify`; a time is a `fmt.Stringer`. -/
def stringify (lib : ListenerLib) : Value → String
  | .nil => ""
  | .string value => value
  | .bytes text => text
  | .time value => lib.timeString value
  | .stringer text => text
  | value => lib.sprint value

/-- `firstString`. -/
def firstString (lib : ListenerLib) (parts : LogParts) (keys : List String) : String :=
  ((keys.findSome? fun key => parts.lookup key).map (stringify lib)).getD ""

/-- `getInt`; only an unsigned integer of 64 bits may not fit an `int`. -/
def getInt (parts : LogParts) (key : String) : Option ℤ :=
  match parts.lookup key with
  | some (.int value) => some (value.bmod (2 ^ 64))
  | some (.float _ truncated) => some truncated
  | some (.string value) => Text.atoi (Text.trimSpace value.toList)
  | _ => none

/-- `getTime`. -/
def getTime (lib : ListenerLib) (parts : LogParts) (key : String) : Option Time :=
  match parts.lookup key with
  | some (.time value) => some value
  | some (.string value) => lib.parseTime value
  | _ => none

/-- `getMap`. -/
def getMap (parts : LogParts) (key : String) : Option (List (String × SafeValue)) :=
  match (parts.lookup key).map jsonSafeValue with
  | some (.object fields) => some fields
  | _ => none

/-- A message as the listener builds it: `message` lacks the two maps. -/
structure Received where
  message : Message
  structuredData : Option (List (String × SafeValue))
  raw : List (String × SafeValue)

/-- `messageFromParts`, with what `newID` and `time.Now` give. -/
def messageFromParts (lib : ListenerLib) (id : String) (now : Time) (parts : LogParts)
    (transport : String) : Received where
  message :=
    { id
      receivedAt := now
      timestamp := getTime lib parts "timestamp"
      transport
      source := firstString lib parts ["client", "source"]
      priority := getInt parts "priority"
      facility := getInt parts "facility"
      severity := getInt parts "severity"
      hostname := firstString lib parts ["hostname", "host"]
      appName := firstString lib parts ["app_name", "appname"]
      procID := firstString lib parts ["proc_id", "procid"]
      msgID := firstString lib parts ["msg_id", "msgid"]
      tag := firstString lib parts ["tag"]
      message := firstString lib parts ["message", "content", "msg"] }
  structuredData := getMap parts "structured_data"
  raw := jsonSafeFields parts

/-! ## Encoding -/

mutual

/-- `json.Marshal` of a value, if there is no error. -/
def SafeValue.marshal (lib : ListenerLib) : SafeValue → Option Json
  | .nil => some .null
  | .string value => some (.string value)
  | .bool value => some (.bool value)
  | .float json => json.map .number
  | .int value => some (.number (toString value))
  | .time value => (lib.marshalTime value).map .string
  | .object fields => (marshalFields lib fields).map .object
  | .strings none => some .null
  | .strings (some items) => some (.array (items.map .string))
  | .other json => some json

def marshalFields (lib : ListenerLib) : List (String × SafeValue) → Option (List (String × Json))
  | [] => some []
  | (key, value) :: fields => do
      let value ← value.marshal lib
      let fields ← marshalFields lib fields
      return (key, value) :: fields

end

/-- The message as the encoder writes it, if it can write all of it. -/
def Received.encoded (lib : ListenerLib) (r : Received) : Option Message := do
  let _ ← lib.marshalTime r.message.receivedAt
  let _ ← r.message.timestamp.mapM lib.marshalTime
  let structuredData ← r.structuredData.mapM (marshalFields lib)
  let raw ← marshalFields lib r.raw
  return { r.message with structuredData, raw := some raw }

/-- `FileStore.Append` of such a message. -/
def Received.append (go : GoLib) (lib : ListenerLib) (now : Time) (fault : Fault) (disk : Disk)
    (r : Received) : Disk × Option String :=
  match r.encoded lib with
  | some msg => Logthing.append go now fault disk msg
  | none =>
      match fault with
      | .cancelled cause => (disk, some cause)
      | _ =>
        if r.message.id = "" then (disk, some "message id is required")
        else
          match fault with
          | .mkdir cause => (disk, some ("create message partition: " ++ cause))
          | _ => (disk, some ("encode message: " ++ lib.marshalError r.raw))

/-! ## The loop -/

/-- What the listener takes off its channel, and what it meets with then: the ID that `newID` gives,
the clock, and what becomes of the `Append`. -/
structure Arrival where
  parts : LogParts
  id : String
  now : Time
  fault : Fault := .none

/-- The message that the listener makes of it. -/
def Arrival.received (lib : ListenerLib) (transport : String) (a : Arrival) : Received :=
  messageFromParts lib a.id a.now a.parts transport

/-- `consume`, until the listener is shut down: the directory and the log. -/
def consume (go : GoLib) (lib : ListenerLib) (transport : String) :
    List Arrival → Disk × List String → Disk × List String
  | [], state => state
  | a :: arrivals, (disk, log) =>
      match (a.received lib transport).append go lib a.now a.fault disk with
      | (disk, none) => consume go lib transport arrivals (disk, log)
      | (disk, some err) =>
          consume go lib transport arrivals (disk, log ++ ["store syslog message: " ++ err])

/-! ## What cannot be encoded -/

/-- A value that `jsonSafeValue` leaves as it is and `json.Marshal` refuses: a number that is not
finite or a time that has no JSON form, also within maps. -/
inductive Value.Unwritable (lib : ListenerLib) : Value → Prop
  | float (truncated : ℤ) : Unwritable lib (.float none truncated)
  | time {value : Time} (h : lib.marshalTime value = none) : Unwritable lib (.time value)
  | anyMap {fields : List (String × Value)} {field : String × Value} (hfield : field ∈ fields)
      (h : Unwritable lib field.2) : Unwritable lib (.anyMap fields)

variable {lib : ListenerLib}

lemma marshal_strings (fields : List (String × String)) :
    marshalFields lib (fields.map fun (key, child) => (key, .string child))
      = some (fields.map fun (key, child) => (key, .string child)) := by
  induction fields with
  | nil => rfl
  | cons field fields ih => rw [List.map_cons, marshalFields, SafeValue.marshal, ih]; rfl

lemma marshal_stringMaps (lib : ListenerLib) (fields : List (String × List (String × String))) :
    ∃ marshalled, marshalFields lib (fields.map fun (key, child) =>
      (key, .object (child.map fun (key, grandchild) => (key, .string grandchild))))
        = some marshalled := by
  induction fields with
  | nil => exact ⟨[], rfl⟩
  | cons field fields ih =>
      obtain ⟨marshalled, hmarshalled⟩ := ih
      rw [List.map_cons, marshalFields, SafeValue.marshal, marshal_strings, hmarshalled]
      exact ⟨_, rfl⟩

lemma marshalFields_cons_eq_none {key : String} {value : SafeValue}
    {fields : List (String × SafeValue)} :
    marshalFields lib ((key, value) :: fields) = none
      ↔ value.marshal lib = none ∨ marshalFields lib fields = none := by
  rw [marshalFields]
  cases value.marshal lib with
  | none => simp
  | some value => cases marshalFields lib fields <;> simp

mutual

/-- **What `jsonSafeValue` returns** is refused exactly where something in the value is. -/
lemma marshal_eq_none : ∀ value : Value,
    (jsonSafeValue value).marshal lib = none ↔ value.Unwritable lib
  | .nil | .string _ | .bool _ | .float (some _) _ | .int _ | .bytes _ | .strings none
  | .strings (some _) | .stringer _ | .other none _ | .other (some _) _ =>
      ⟨fun h => by simp [jsonSafeValue, SafeValue.marshal] at h, fun h => by cases h⟩
  | .float none truncated => ⟨fun _ => .float truncated, fun _ => rfl⟩
  | .time value => by
      rw [jsonSafeValue, SafeValue.marshal, Option.map_eq_none_iff]
      exact ⟨.time, fun h => by cases h; assumption⟩
  | .anyMap fields => by
      rw [jsonSafeValue, SafeValue.marshal, Option.map_eq_none_iff, marshalFields_eq_none fields]
      exact ⟨fun ⟨_, hfield, h⟩ => .anyMap hfield h, fun h => by cases h; exact ⟨_, ‹_›, ‹_›⟩⟩
  | .stringMap fields => by
      rw [jsonSafeValue, SafeValue.marshal, marshal_strings]
      exact ⟨fun h => by simp at h, fun h => by cases h⟩
  | .stringMaps fields => by
      obtain ⟨marshalled, hmarshalled⟩ := marshal_stringMaps lib fields
      rw [jsonSafeValue, SafeValue.marshal, hmarshalled]
      exact ⟨fun h => by simp at h, fun h => by cases h⟩

lemma marshalFields_eq_none : ∀ fields : List (String × Value),
    marshalFields lib (jsonSafeFields fields) = none ↔ ∃ field ∈ fields, field.2.Unwritable lib
  | [] => ⟨fun h => by simp [jsonSafeFields, marshalFields] at h, fun ⟨_, h, _⟩ => by cases h⟩
  | (key, value) :: fields => by
      rw [jsonSafeFields, marshalFields_cons_eq_none, marshal_eq_none value,
        marshalFields_eq_none fields, List.exists_mem_cons_iff]

end

/-- An arrival that comes to nothing: a part cannot be written, or its timestamp is a text for a time
that has no JSON form in UTC. -/
def Arrival.Lost (lib : ListenerLib) (a : Arrival) : Prop :=
  (∃ part ∈ a.parts, part.2.Unwritable lib) ∨
    ∃ text t, a.parts.lookup "timestamp" = some (.string text) ∧ lib.parseTime text = some t ∧
      lib.marshalTime t = none

lemma mem_of_lookup {parts : LogParts} {key : String} {value : Value}
    (h : parts.lookup key = some value) : ∃ part ∈ parts, part.2 = value := by
  obtain ⟨before, after, rfl, -⟩ := List.lookup_eq_some_iff.mp h
  exact ⟨(key, value), by simp, rfl⟩

/-- A structured-data map that cannot be written is a part that cannot be. -/
lemma getMap_unwritable {parts : LogParts} {key : String} {fields : List (String × SafeValue)}
    (h : getMap parts key = some fields) (hnone : marshalFields lib fields = none) :
    ∃ part ∈ parts, part.2.Unwritable lib := by
  rw [getMap] at h
  cases hlookup : parts.lookup key with
  | none => simp [hlookup] at h
  | some value =>
      obtain ⟨part, hpart, rfl⟩ := mem_of_lookup hlookup
      rw [hlookup, Option.map_some] at h
      refine ⟨part, hpart, (marshal_eq_none part.2).mp ?_⟩
      cases hsafe : jsonSafeValue part.2 with
      | object fields' =>
          rw [hsafe] at h
          obtain rfl := Option.some.inj h
          rw [SafeValue.marshal, hnone]
          rfl
      | _ => simp [hsafe] at h

/-- A timestamp that cannot be written. -/
lemma getTime_unwritable {a : Arrival} {t : Time} (h : getTime lib a.parts "timestamp" = some t)
    (hnone : lib.marshalTime t = none) : a.Lost lib := by
  rw [getTime] at h
  split at h
  · rename_i value hlookup
    obtain ⟨part, hpart, hvalue⟩ := mem_of_lookup hlookup
    rw [Option.some.inj h] at hvalue
    exact Or.inl ⟨part, hpart, hvalue ▸ .time hnone⟩
  · rename_i text hlookup
    exact Or.inr ⟨text, t, hlookup, h, hnone⟩
  · cases h

lemma mapM_eq_none {α β : Type} {f : α → Option β} {o : Option α} :
    o.mapM f = none ↔ ∃ a, o = some a ∧ f a = none := by
  cases o with
  | none => simp
  | some a => cases h : f a <;> simp [h]

/-- **What cannot be encoded.** -/
lemma encoded_eq_none {a : Arrival} (hnow : lib.marshalTime a.now ≠ none) (transport : String) :
    (a.received lib transport).encoded lib = none ↔ a.Lost lib := by
  obtain ⟨now, hnow⟩ := Option.ne_none_iff_exists'.mp hnow
  have hencoded : (a.received lib transport).encoded lib = (do
      let _ ← (getTime lib a.parts "timestamp").mapM lib.marshalTime
      let structuredData ← (getMap a.parts "structured_data").mapM (marshalFields lib)
      let raw ← marshalFields lib (jsonSafeFields a.parts)
      return { (a.received lib transport).message with structuredData, raw := some raw }) := by
    simp only [Received.encoded, Arrival.received, messageFromParts, hnow, Option.bind_eq_bind,
      Option.bind_some]
  rw [hencoded]
  constructor
  · intro h
    cases htime : (getTime lib a.parts "timestamp").mapM lib.marshalTime with
    | none =>
        obtain ⟨t, ht, hnone⟩ := mapM_eq_none.mp htime
        exact getTime_unwritable ht hnone
    | some time =>
        cases hmap : (getMap a.parts "structured_data").mapM (marshalFields lib) with
        | none =>
            obtain ⟨fields, hfields, hnone⟩ := mapM_eq_none.mp hmap
            exact Or.inl (getMap_unwritable hfields hnone)
        | some structuredData =>
            cases hraw : marshalFields lib (jsonSafeFields a.parts) with
            | none => exact Or.inl ((marshalFields_eq_none a.parts).mp hraw)
            | some raw => simp [htime, hmap, hraw] at h
  · rintro (hpart | ⟨text, t, hlookup, hparse, hnone⟩)
    · have hraw := (marshalFields_eq_none a.parts).mpr hpart
      rw [hraw]
      simp
    · have htime : getTime lib a.parts "timestamp" = some t := by rw [getTime, hlookup]; exact hparse
      simp [htime, hnone]

/-- An encoded message has the ID that was made for it. -/
lemma encoded_id {a : Arrival} {transport : String} {msg : Message}
    (h : (a.received lib transport).encoded lib = some msg) : msg.id = a.id := by
  simp only [Received.encoded, Option.bind_eq_bind, Option.bind_eq_some_iff] at h
  obtain ⟨-, -, -, -, _, -, _, -, hmsg⟩ := h
  rw [← Option.some.inj hmsg]
  rfl

/-! ## What the listener stores -/

/-- The call on the store that comes of an arrival, if its message can be encoded. -/
def Arrival.call (lib : ListenerLib) (transport : String) (a : Arrival) : Option StoreCall :=
  ((a.received lib transport).encoded lib).map (.append a.now a.fault)

/-- What an `Append` changes is what the call changes; nothing, if there is none. -/
lemma append_disk (go : GoLib) (lib : ListenerLib) (transport : String) (a : Arrival) (disk : Disk) :
    ((a.received lib transport).append go lib a.now a.fault disk).1
      = (runCalls go (disk, FileStore.new) (a.call lib transport).toList).1 := by
  cases hencoded : (a.received lib transport).encoded lib with
  | none =>
      simp only [Received.append, hencoded, Arrival.call, Option.map_none, Option.toList_none]
      by_cases hid : (a.received lib transport).message.id = "" <;> cases a.fault <;>
        simp [hid, runCalls]
  | some msg =>
      simp only [Received.append, hencoded, Arrival.call, Option.map_some, Option.toList_some]
      rfl

/-- Where nothing else fails, an `Append` fails exactly if the message cannot be encoded. -/
lemma append_err (go : GoLib) {a : Arrival} {transport : String} (disk : Disk) (hid : a.id ≠ "")
    (hfault : a.fault = .none)
    (hencode : ∀ msg, (a.received lib transport).encoded lib = some msg →
      ∃ record, go.encode (stamp a.now msg) = .ok record) :
    ((a.received lib transport).append go lib a.now a.fault disk).2.isSome
      = (a.call lib transport).isNone := by
  cases hencoded : (a.received lib transport).encoded lib with
  | none =>
      have hid' : (a.received lib transport).message.id ≠ "" := hid
      simp only [Received.append, hencoded, hfault, if_neg hid', Arrival.call, Option.map_none,
        Option.isSome_some, Option.isNone_none]
  | some msg =>
      obtain ⟨record, hrecord⟩ := hencode msg hencoded
      have hmsg : msg.id ≠ "" := (encoded_id hencoded).symm ▸ hid
      simp only [Received.append, hencoded, hfault, Logthing.append, if_neg hmsg, hrecord,
        Arrival.call, Option.map_some, Option.isSome_none, Option.isNone_some]

/-- **One arrival**: a failure leaves a line in the log. -/
lemma consume_cons (go : GoLib) (lib : ListenerLib) (transport : String) (a : Arrival)
    (arrivals : List Arrival) (disk : Disk) (log : List String) :
    let result := (a.received lib transport).append go lib a.now a.fault disk
    consume go lib transport (a :: arrivals) (disk, log)
      = consume go lib transport arrivals
          (result.1, log ++ result.2.toList.map ("store syslog message: " ++ ·)) := by
  cases happend : (a.received lib transport).append go lib a.now a.fault disk with
  | mk disk' err => cases err <;> simp [consume, happend]

/-- **Whatever the listener receives**: the files are as the appends of the messages that can be
encoded leave them, in order and whatever fails; and those are the ones without a number that is not
finite or a time that has no JSON form, in whatever maps.  Where nothing else fails, there is a line
in the log for each of the others. -/
theorem listener_stores (go : GoLib) (lib : ListenerLib) (transport : String) (disk : Disk)
    (log : List String) (arrivals : List Arrival) :
    (consume go lib transport arrivals (disk, log)).1
        = (runCalls go (disk, FileStore.new) (arrivals.filterMap (Arrival.call lib transport))).1 ∧
      (∀ a ∈ arrivals, lib.marshalTime a.now ≠ none →
        (a.call lib transport = none ↔ a.Lost lib)) ∧
      ((∀ a ∈ arrivals, a.id ≠ "" ∧ a.fault = .none ∧ ∀ msg,
        (a.received lib transport).encoded lib = some msg →
          ∃ record, go.encode (stamp a.now msg) = .ok record) →
        (consume go lib transport arrivals (disk, log)).2.length
          = log.length + arrivals.countP fun a => (a.call lib transport).isNone) := by
  refine ⟨?_, fun a _ hnow => ?_, fun hquiet => ?_⟩
  · induction arrivals generalizing disk log with
    | nil => rfl
    | cons a arrivals ih =>
        rw [consume_cons, ih, append_disk]
        cases hcall : a.call lib transport with
        | none => rw [List.filterMap_cons_none hcall]; rfl
        | some call =>
            rw [List.filterMap_cons_some hcall]
            exact disk_runCalls go _ _ _ _
  · rw [Arrival.call, Option.map_eq_none_iff, encoded_eq_none hnow]
  · induction arrivals generalizing disk log with
    | nil => rfl
    | cons a arrivals ih =>
        rw [List.forall_mem_cons] at hquiet
        obtain ⟨⟨hid, hfault, hencode⟩, hquiet⟩ := hquiet
        have herr := append_err go disk hid hfault hencode
        rw [consume_cons, ih _ _ hquiet, List.countP_cons, ← herr, List.length_append]
        cases ((a.received lib transport).append go lib a.now a.fault disk).2 with
        | none => simp
        | some err => simp [Nat.add_assoc, Nat.add_comm]

/-- Functions that know the first second, and that nothing is a number that is not finite. -/
def spokenLib : ListenerLib where
  sprint _ := "map[]"
  timeString _ := "0001-01-01 00:00:01 +0000 UTC"
  parseTime _ := none
  marshalTime _ := some "0001-01-01T00:00:01Z"
  marshalError _ := "json: unsupported value: NaN"

/-- The parts of a message of `netifd`. -/
def spoken : Arrival where
  parts := [("hostname", .string "gw"), ("tag", .string "netifd"),
    ("content", .string "Interface 'wan' is now down")]
  id := "one"
  now := 1000000000

/-- Parts one of which is not a number. -/
def unspoken : Arrival where
  parts := [("hostname", .string "gw"), ("load", .float none 0)]
  id := "two"
  now := 1000000000

/-- The message made of `spoken`. -/
def spokenMessage : Message where
  id := "one"
  receivedAt := 1000000000
  transport := "udp"
  hostname := "gw"
  tag := "netifd"
  message := "Interface 'wan' is now down"
  raw := some [("hostname", .string "gw"), ("tag", .string "netifd"),
    ("content", .string "Interface 'wan' is now down")]

/-- The line it is stored as. -/
def spokenLine : Bytes :=
  utf8Bytes ("\x7b\"id\":\"one\",\"received_at\":\"0001-01-01T00:00:01Z\"," ++
    "\"transport\":\"udp\",\"hostname\":\"gw\",\"tag\":\"netifd\"," ++
    "\"message\":\"Interface 'wan' is now down\",\"raw\":\x7b\"content\":" ++
    "\"Interface 'wan' is now down\",\"hostname\":\"gw\",\"tag\":\"netifd\"\x7d\x7d")

/-- One of the two comes to nothing. -/
theorem listener_stores_spoken :
    (consume (GoLib.ofTable [(spokenMessage, spokenLine)]) spokenLib "udp" [spoken, unspoken]
      (Disk.empty, [])).2.length = 1 := by
  have hencoded : (spoken.received spokenLib "udp").encoded spokenLib = some spokenMessage := rfl
  have hlost : (unspoken.received spokenLib "udp").encoded spokenLib = none := rfl
  refine (listener_stores (GoLib.ofTable [(spokenMessage, spokenLine)]) spokenLib "udp" Disk.empty
    [] [spoken, unspoken]).2.2 ?_
  rintro a ha
  rcases List.mem_pair.mp ha with rfl | rfl
  · refine ⟨by decide, rfl, fun msg hmsg => ⟨spokenLine ++ [newline], ?_⟩⟩
    obtain rfl := Option.some.inj (hencoded.symm.trans hmsg)
    rw [show stamp spoken.now spokenMessage = spokenMessage from rfl]
    simp [GoLib.ofTable]
  · refine ⟨by decide, rfl, fun msg hmsg => ?_⟩
    rw [hlost] at hmsg
    cases hmsg

end Logthing.Syslog
