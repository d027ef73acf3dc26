import Logthing.Storage.Partition

/-!
# The text filter

`CompileTextFilter`, shared by stored history and the live stream.  Slash-delimited text is a
regular expression, other text is a literal; both are matched against the joined search text of a
message.
-/

namespace Logthing

/-- `jsonText` of a map field.  The field reaches `jsonText` inside an interface, which is not
`nil` even when the map is, so an absent map is marshalled like any other. -/
def jsonText (go : GoLib) (value : JsonMap) : String := (go.marshal value).getD ""

/-- `messageSearchText`. -/
def messageSearchText (go : GoLib) (msg : Message) : String :=
  String.intercalate " "
    [msg.id, msg.transport, msg.source, msg.hostname, msg.appName, msg.procID, msg.msgID,
      msg.tag, msg.message, jsonText go msg.structuredData, jsonText go msg.raw]

/-- `matchesText`. -/
def matchesText (go : GoLib) (msg : Message) (needle : String) : Bool :=
  (Text.index (go.toLower (messageSearchText go msg)).toList needle.toList).isSome

/-- `CompileTextFilter`. -/
def compileTextFilter (go : GoLib) (text : String) : Except String (Message → Bool) :=
  let text := Text.trimSpace text.toList
  if 2 ≤ text.length && Text.hasPrefix text ['/'] && Text.hasSuffix text ['/'] then
    match go.regexp (String.ofList (text.drop 1).dropLast) with
    | .error cause => .error ("invalid regex filter: " ++ cause)
    | .ok expression => .ok fun msg => expression (messageSearchText go msg)
  else
    let text := go.toLower (String.ofList text)
    .ok fun msg => text = "" || matchesText go msg text

/-- `strings.ToLower` neither makes text out of nothing nor loses it. -/
def GoLib.LowerKeepsBlank (go : GoLib) : Prop := ∀ text, go.toLower text = "" ↔ text = ""

/-- The literal text a query is filtered by, empty when it has none. -/
def queryText (go : GoLib) (text : String) : String :=
  go.toLower (String.ofList (Text.trimSpace text.toList))

/-- A query without text compiles to the filter that accepts everything. -/
lemma compileTextFilter_of_blank {go : GoLib} (hlower : go.LowerKeepsBlank) {text : String}
    {accepts : Message → Bool} (hcompile : compileTextFilter go text = .ok accepts)
    (hblank : queryText go text = "") (msg : Message) : accepts msg = true := by
  have htrim : Text.trimSpace text.toList = [] := by
    have h := (hlower _).mp hblank
    have h' := congrArg String.toList h
    simpa using h'
  simp only [compileTextFilter, htrim] at hcompile
  have hempty : go.toLower (String.ofList []) = "" := (hlower _).mpr rfl
  simp only [hempty] at hcompile
  have h := Except.ok.inj hcompile
  rw [← h]
  rfl

end Logthing
