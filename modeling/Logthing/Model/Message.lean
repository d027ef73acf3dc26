import Mathlib.Data.Int.Notation

/-!
# Time and the stored message

`time.Time` is an instant: nanoseconds from Go's zero time, so `IsZero` is `t = 0`, `Before` and
`After` are `<`, `Equal` is `=` and `Add` is `+`.  The location a Go time carries decides how it
prints and nothing else, so `UTC()` is the identity here.

`Message` is `model.Message`.  A `map[string]any` is absent (`nil`) or a list of fields.
-/

namespace Logthing

/-- `time.Time`: nanoseconds from the zero time. -/
abbrev Time := ℤ

/-- `time.Duration`, in nanoseconds. -/
abbrev Duration := ℤ

/-- `Time.IsZero`. -/
abbrev Time.isZero (t : Time) : Bool := t = 0

/-- A decoded JSON value.  A number is kept as the text that `json.Marshal` spells it with. -/
inductive Json where
  | null
  | bool (value : Bool)
  | number (text : String)
  | string (value : String)
  | array (items : List Json)
  | object (fields : List (String × Json))

/-- A `map[string]any`; a `nil` map is `none`. -/
abbrev JsonMap := Option (List (String × Json))

/-- `model.Message`: one received syslog event as it is stored and served. -/
structure Message where
  id : String
  receivedAt : Time
  timestamp : Option Time := none
  transport : String := ""
  source : String := ""
  priority : Option ℤ := none
  facility : Option ℤ := none
  severity : Option ℤ := none
  hostname : String := ""
  appName : String := ""
  procID : String := ""
  msgID : String := ""
  tag : String := ""
  message : String := ""
  structuredData : JsonMap := none
  raw : JsonMap := none

end Logthing
