import Logthing.Storage.TextFilter
import Mathlib.Tactic.IntervalCases

/-!
# What absent fields add to the search text

A message without `StructuredData` and `Raw` is searched in its nine string fields.  `jsonText`
means to give empty text for a field that is `nil`, but the field it looks at is a map inside an
interface, and the interface is not `nil`: the map is marshalled, and the search text of such a
message ends in ` null null`.

**Main results.**

* `absent_ignored_iff`: a literal filter treats the absent fields as empty exactly when it is in
  the nine fields anyway, or is no part of the trailing `null`s.
* `null_matches_all`: the filter text `null` accepts a message that says nothing of the kind.
-/

namespace Logthing

/-- `strings.ToLower` maps each character: it leaves lower-case letters and spaces alone, and makes
no white space of what is none. -/
structure GoLib.LowersBy (go : GoLib) (lower : Char → Char) : Prop where
  maps : ∀ text, go.toLower text = String.ofList (text.toList.map lower)
  keeps : ∀ c ∈ " nul".toList, lower c = c
  spaces : ∀ c, Text.isSpace (lower c) = Text.isSpace c

/-- The nine string fields of a message, joined by spaces. -/
def fieldText (msg : Message) : String :=
  String.intercalate " "
    [msg.id, msg.transport, msg.source, msg.hostname, msg.appName, msg.procID, msg.msgID,
      msg.tag, msg.message]

/-- The text a message without maps should be searched in: the nine fields, and empty text for
the two absent ones. -/
def absentText (msg : Message) : String :=
  String.intercalate " "
    [msg.id, msg.transport, msg.source, msg.hostname, msg.appName, msg.procID, msg.msgID,
      msg.tag, msg.message, "", ""]

/-- Filter text that `CompileTextFilter` takes for a regular expression. -/
def isExpression (text : String) : Bool :=
  let text := Text.trimSpace text.toList
  2 ≤ text.length && Text.hasPrefix text ['/'] && Text.hasSuffix text ['/']

/-- What `jsonText` makes of the two absent maps. -/
def nulls : List Char := ' ' :: "null".toList ++ ' ' :: "null".toList

/-- A needle that the trailing `null`s supply with its end: it is a piece of them, or the end of
the text before them and their beginning. -/
def SpelledByNulls (needle text : List Char) : Prop :=
  needle <:+: nulls ∨
    ∃ u v, u ≠ [] ∧ v ≠ [] ∧ needle = u ++ v ∧ u <:+ text ∧ v <+: nulls

/-! ## Needles -/

lemma queryText_toList {go : GoLib} {lower : Char → Char} (hlower : go.LowersBy lower)
    (text : String) : (queryText go text).toList = (Text.trimSpace text.toList).map lower := by
  rw [queryText, hlower.maps, String.toList_ofList, String.toList_ofList]

/-- A needle does not end in white space. -/
lemma isSpace_getLast_queryText {go : GoLib} {lower : Char → Char} (hlower : go.LowersBy lower)
    {text : String} {c : Char} (hc : (queryText go text).toList.getLast? = some c) :
    Text.isSpace c = false := by
  rw [queryText_toList hlower, List.getLast?_map, Option.map_eq_some_iff] at hc
  obtain ⟨a, ha, rfl⟩ := hc
  rw [hlower.spaces]
  have hne : Text.trimSpace text.toList ≠ [] := fun hnil => by simp [hnil] at ha
  have hlast := List.rdropWhile_last_not _ _ hne
  rw [List.getLast?_eq_some_getLast hne, Option.some.injEq] at ha
  simp only [Text.trimSpace] at ha
  rw [ha] at hlast
  simpa using hlast

/-- Trailing spaces do not help a needle that does not end in one. -/
lemma infix_append_spaces {needle text spaces : List Char} (hne : needle ≠ [])
    (hlast : ∀ c, needle.getLast? = some c → Text.isSpace c = false)
    (hspaces : ∀ c ∈ spaces, Text.isSpace c = true) :
    needle <:+: text ++ spaces ↔ needle <:+: text := by
  rw [Text.infix_append_iff]
  constructor
  · rintro (h | h | ⟨u, v, -, hv, rfl, -, hpre⟩)
    · exact h
    · have hc := List.getLast?_eq_some_getLast hne
      exact absurd (hspaces _ (h.subset (List.getLast_mem hne))) (by simp [hlast _ hc])
    · have hc : (u ++ v).getLast? = some (v.getLast hv) := by
        rw [List.getLast?_append_of_ne_nil _ hv, List.getLast?_eq_some_getLast hv]
      exact absurd (hspaces _ (hpre.subset (List.getLast_mem hv))) (by simp [hlast _ hc])
  · exact Or.inl

/-! ## The search text -/

lemma absentText_toList (msg : Message) :
    (absentText msg).toList = (fieldText msg).toList ++ [' ', ' '] := by
  simp [absentText, fieldText]

lemma messageSearchText_absent {go : GoLib} (hnull : go.marshal none = some "null")
    {msg : Message} (hdata : msg.structuredData = none) (hraw : msg.raw = none) :
    (messageSearchText go msg).toList = (fieldText msg).toList ++ nulls := by
  have hjson : jsonText go none = "null" := by rw [jsonText, hnull, Option.getD_some]
  rw [messageSearchText, fieldText, nulls, hdata, hraw, hjson]
  simp only [String.toList_intercalate, List.map_cons, List.map_nil,
    List.intercalate_cons_cons, List.intercalate_singleton, List.append_assoc]
  rfl

/-- A literal filter looks for its needle in the lower-cased search text. -/
lemma compileTextFilter_literal {go : GoLib} {text : String} (hliteral : isExpression text = false)
    (hne : (queryText go text).toList ≠ []) :
    ∃ accepts, compileTextFilter go text = .ok accepts ∧ ∀ msg, accepts msg = true ↔
      (queryText go text).toList <:+: (go.toLower (messageSearchText go msg)).toList := by
  simp only [isExpression] at hliteral
  refine ⟨fun msg => queryText go text = "" || matchesText go msg (queryText go text), ?_,
    fun msg => ?_⟩
  · simp only [compileTextFilter, hliteral, Bool.false_eq_true, if_false]
    rfl
  · have hempty : queryText go text ≠ "" := fun h => hne (by rw [h]; rfl)
    simp only [hempty, decide_false, Bool.false_or, matchesText, Text.index_isSome]

/-- **When absent fields are ignored.**  Of a message without maps a literal filter sees the nine
fields and nothing else, exactly if its lower-cased text occurs in these or is not spelled with
the help of the trailing `null`s. -/
theorem absent_ignored_iff (go : GoLib) {lower : Char → Char} (hlower : go.LowersBy lower)
    (hnull : go.marshal none = some "null") (msg : Message) (hdata : msg.structuredData = none)
    (hraw : msg.raw = none) (text : String) (hblank : Text.trimSpace text.toList ≠ [])
    (hliteral : isExpression text = false) :
    (∃ accepts, compileTextFilter go text = .ok accepts ∧
      (accepts msg = true ↔
        (queryText go text).toList <:+: (go.toLower (absentText msg)).toList)) ↔
    ((queryText go text).toList <:+: (go.toLower (fieldText msg)).toList ∨
      ¬SpelledByNulls (queryText go text).toList (go.toLower (fieldText msg)).toList) := by
  have hne : (queryText go text).toList ≠ [] := by
    rw [queryText_toList hlower]
    simpa using hblank
  have hkeep : ∀ s : List Char, (∀ c ∈ s, c ∈ " nul".toList) → s.map lower = s := fun s hs =>
    (List.map_congr_left fun c hc => hlower.keeps c (hs c hc)).trans (List.map_id s)
  have hsearch : (go.toLower (messageSearchText go msg)).toList
      = (go.toLower (fieldText msg)).toList ++ nulls := by
    rw [hlower.maps, hlower.maps, String.toList_ofList, String.toList_ofList,
      messageSearchText_absent hnull hdata hraw, List.map_append, hkeep nulls (by decide)]
  have habsent : (go.toLower (absentText msg)).toList
      = (go.toLower (fieldText msg)).toList ++ [' ', ' '] := by
    rw [hlower.maps, hlower.maps, String.toList_ofList, String.toList_ofList, absentText_toList,
      List.map_append, hkeep [' ', ' '] (by decide)]
  have hideal : (queryText go text).toList <:+: (go.toLower (absentText msg)).toList ↔
      (queryText go text).toList <:+: (go.toLower (fieldText msg)).toList := by
    rw [habsent]
    exact infix_append_spaces hne (fun c hc => isSpace_getLast_queryText hlower hc) (by decide)
  obtain ⟨accepts, hcompile, haccepts⟩ := compileTextFilter_literal hliteral hne
  have hnulls : accepts msg = true ↔
      (queryText go text).toList <:+: (go.toLower (fieldText msg)).toList ∨
        SpelledByNulls (queryText go text).toList (go.toLower (fieldText msg)).toList := by
    rw [haccepts, hsearch, Text.infix_append_iff]
    rfl
  constructor
  · rintro ⟨accepts', hcompile', hagree⟩
    obtain rfl := Except.ok.inj (hcompile'.symm.trans hcompile)
    rw [hnulls, hideal, or_iff_left_iff_imp] at hagree
    exact (Classical.em _).elim (fun hspelled => Or.inl (hagree hspelled)) Or.inr
  · intro hcondition
    refine ⟨accepts, hcompile, ?_⟩
    rw [hnulls, hideal, or_iff_left_iff_imp]
    exact fun hspelled => hcondition.resolve_right (not_not_intro hspelled)

/-! ## A filter that matches the whole archive -/

/-- The library as far as a literal filter uses it, with ASCII case folding. -/
def foldingLib : GoLib where
  encode _ := .error "json: unsupported value"
  decode _ := .error "invalid character"
  decodeKey _ := .error "invalid character"
  splitHostPort _ := none
  sha256 _ := ""
  toLower text := String.ofList (text.toList.map Char.toLower)
  regexp _ := .error "missing argument"
  marshal
    | none => some "null"
    | some _ => none

lemma isSpace_toLower (c : Char) : Text.isSpace c.toLower = Text.isSpace c := by
  by_cases hupper : 65 ≤ c.toNat ∧ c.toNat ≤ 90
  · have hc : Char.ofNat c.toNat = c := Char.ofNat_toNat c
    obtain ⟨hlow, hhigh⟩ := hupper
    rw [← hc]
    interval_cases c.toNat <;> decide
  · have hsame : c.toLower = c := dif_neg hupper
    rw [hsame]

lemma foldingLib_lowersBy : foldingLib.LowersBy Char.toLower where
  maps _ := rfl
  keeps := by decide
  spaces := isSpace_toLower

/-- A message of one host, with no maps. -/
def plainMessage : Message where
  id := "one"
  receivedAt := 1000000000
  hostname := "gw"
  message := "link up"

/-- Text of the message's own is found, and nothing else decides. -/
theorem absent_ignored_iff_link :
    ∃ accepts, compileTextFilter foldingLib "Link" = .ok accepts ∧
      (accepts plainMessage = true ↔ (queryText foldingLib "Link").toList
        <:+: (foldingLib.toLower (absentText plainMessage)).toList) :=
  (absent_ignored_iff foldingLib foldingLib_lowersBy rfl plainMessage rfl rfl "Link" (by decide)
    (by decide)).mpr (Or.inl (by decide +kernel))

/-- **`null` matches a message that does not contain it**. -/
theorem null_matches_all :
    isExpression "null" = false ∧
      ∃ accepts, compileTextFilter foldingLib "null" = .ok accepts ∧
        accepts plainMessage = true ∧
        ¬(queryText foldingLib "null").toList
          <:+: (foldingLib.toLower (absentText plainMessage)).toList := by
  refine ⟨by decide, _, rfl, by decide +kernel, by decide +kernel⟩

end Logthing
