import Logthing.Model.Message
import Mathlib.Data.List.TakeWhile

/-!
# JSON values as text

`json.Marshal` of the values a `map[string]any` holds, and what `json.Unmarshal` makes of that
text.  A Go map is the list of its fields in the order of their keys, which is the order they are
marshalled in.

Marshalling and unmarshalling keeps everything but the spelling of numbers: a `json.Number` is
written as it is spelled and read as a `float64`.  `eq_of_render` says that the text shows it:
two values that differ in no more than numbers have different texts.
-/

namespace Logthing

/-- The characters JSON numbers are spelled with. -/
def isNumberChar (c : Char) : Bool :=
  c.isDigit || c = '-' || c = '+' || c = '.' || c = 'e' || c = 'E'

/-- Whether a text could be a JSON number. -/
def isNumberText (text : String) : Bool := text.toList.all isNumberChar

/-! ## Marshalling -/

mutual

/-- `json.Marshal` of a value; `quote` is how it writes a string. -/
def Json.render (quote : String → List Char) : Json → List Char
  | .null => "null".toList
  | .bool value => (if value then "true" else "false").toList
  | .number text => text.toList
  | .string value => quote value
  | .array items => '[' :: renderItems quote [] items
  | .object fields => '\x7b' :: renderFields quote [] fields

/-- The items of an array and its closing bracket; `sep` is written before the first of them. -/
def renderItems (quote : String → List Char) (sep : List Char) : List Json → List Char
  | [] => [']']
  | item :: items => sep ++ (item.render quote ++ renderItems quote [','] items)

/-- The fields of an object and its closing brace. -/
def renderFields (quote : String → List Char) (sep : List Char) : List (String × Json) → List Char
  | [] => ['\x7d']
  | (key, value) :: fields =>
      sep ++ (quote key ++ ':' :: (value.render quote ++ renderFields quote [','] fields))

end

mutual

/-- The value that is read where `value` was written, if all its numbers are in range.  `float` is
the text `json.Marshal` has for the `float64` that a number is read as. -/
def Json.reread (float : String → Option String) : Json → Option Json
  | .null => some .null
  | .bool value => some (.bool value)
  | .number text => (float text).map .number
  | .string value => some (.string value)
  | .array items => (rereadItems float items).map .array
  | .object fields => (rereadFields float fields).map .object

def rereadItems (float : String → Option String) : List Json → Option (List Json)
  | [] => some []
  | item :: items => do
      let item ← item.reread float
      let items ← rereadItems float items
      return item :: items

def rereadFields (float : String → Option String) :
    List (String × Json) → Option (List (String × Json))
  | [] => some []
  | (key, value) :: fields => do
      let value ← value.reread float
      let fields ← rereadFields float fields
      return (key, value) :: fields

end

/-- The map that is read where a field with `omitempty` holds `value`: an empty map is not
written, so an absent one is read. -/
def rereadMap (float : String → Option String) : JsonMap → Option JsonMap
  | none => some none
  | some [] => some none
  | some fields => (rereadFields float fields).map some

mutual

/-- The numbers in a value, as they are spelled. -/
def Json.numbers : Json → List String
  | .number text => [text]
  | .array items => itemNumbers items
  | .object fields => fieldNumbers fields
  | _ => []

def itemNumbers : List Json → List String
  | [] => []
  | item :: items => item.numbers ++ itemNumbers items

def fieldNumbers : List (String × Json) → List String
  | [] => []
  | (_, value) :: fields => value.numbers ++ fieldNumbers fields

end

/-- The numbers in a map. -/
def mapNumbers : JsonMap → List String
  | none => []
  | some fields => fieldNumbers fields

/-! ## When nothing changes -/

mutual

/-- A value is read as it was exactly when each of its numbers is. -/
theorem Json.reread_eq_self_iff (float : String → Option String) :
    ∀ value : Json, value.reread float = some value ↔ ∀ text ∈ value.numbers, float text = some text
  | .null => by simp [Json.reread, Json.numbers]
  | .bool _ => by simp [Json.reread, Json.numbers]
  | .number text => by simp [Json.reread, Json.numbers]
  | .string _ => by simp [Json.reread, Json.numbers]
  | .array items => by
      simp [Json.reread, Json.numbers, ← rereadItems_eq_self_iff float items]
  | .object fields => by
      simp [Json.reread, Json.numbers, ← rereadFields_eq_self_iff float fields]

theorem rereadItems_eq_self_iff (float : String → Option String) :
    ∀ items : List Json,
      rereadItems float items = some items ↔ ∀ text ∈ itemNumbers items, float text = some text
  | [] => by simp [rereadItems, itemNumbers]
  | item :: items => by
      simp only [rereadItems, itemNumbers, List.mem_append, or_imp, forall_and,
        ← Json.reread_eq_self_iff float item, ← rereadItems_eq_self_iff float items]
      simp [Option.bind_eq_some_iff]

theorem rereadFields_eq_self_iff (float : String → Option String) :
    ∀ fields : List (String × Json),
      rereadFields float fields = some fields ↔
        ∀ text ∈ fieldNumbers fields, float text = some text
  | [] => by simp [rereadFields, fieldNumbers]
  | (key, value) :: fields => by
      simp only [rereadFields, fieldNumbers, List.mem_append, or_imp, forall_and,
        ← Json.reread_eq_self_iff float value, ← rereadFields_eq_self_iff float fields]
      simp [Option.bind_eq_some_iff]

end

/-! ## The text shows every change -/

/-- What may follow a value in a text: not more of a number. -/
def EndsNumber (rest : List Char) : Prop := ∀ c, rest.head? = some c → isNumberChar c = false

lemma EndsNumber.cons {c : Char} (hc : isNumberChar c = false) (rest : List Char) :
    EndsNumber (c :: rest) := by
  intro d hd
  rw [List.head?_cons] at hd
  rwa [← Option.some.inj hd]

lemma endsNumber_renderItems (quote : String → List Char) (items : List Json) (rest : List Char) :
    EndsNumber (renderItems quote [','] items ++ rest) := by
  cases items with
  | nil => exact .cons (by decide) _
  | cons item items => exact .cons (by decide) _

lemma endsNumber_renderFields (quote : String → List Char) (fields : List (String × Json))
    (rest : List Char) : EndsNumber (renderFields quote [','] fields ++ rest) := by
  cases fields with
  | nil => exact .cons (by decide) _
  | cons field fields => exact .cons (by decide) _

/-- Two numbers, each followed by something else, are equal if the whole texts are. -/
lemma eq_of_number {text text' : String} {rest rest' : List Char}
    (htext : isNumberText text = true) (htext' : isNumberText text' = true)
    (hrest : EndsNumber rest) (hrest' : EndsNumber rest')
    (h : text.toList ++ rest = text'.toList ++ rest') : text = text' ∧ rest = rest' := by
  have htake : ∀ {text : String} {rest : List Char}, isNumberText text = true → EndsNumber rest →
      (text.toList ++ rest).takeWhile isNumberChar = text.toList := by
    intro text rest htext hrest
    rw [List.takeWhile_append_of_pos (fun c hc => List.all_eq_true.mp htext c hc)]
    cases rest with
    | nil => simp
    | cons c rest => simp [hrest c rfl]
  have heq : text.toList = text'.toList := by
    rw [← htake htext hrest, h, htake htext' hrest']
  exact ⟨String.toList_inj.mp heq, by simpa [heq] using h⟩

/-- What `float` gives is a number. -/
def GivesNumbers (float : String → Option String) : Prop :=
  ∀ text text', float text = some text' → isNumberText text' = true

section

variable {quote : String → List Char} {float : String → Option String}

mutual

/-- **Two values that differ in their numbers have different texts.** -/
theorem Json.eq_of_render (hfloat : GivesNumbers float) :
    ∀ {value value' : Json} {rest rest' : List Char},
    (∀ text ∈ value.numbers, isNumberText text = true) → value.reread float = some value' →
    EndsNumber rest → EndsNumber rest' →
    value.render quote ++ rest = value'.render quote ++ rest' → value' = value ∧ rest' = rest
  | .null, value', rest, rest', _, hread, _, _, h => by
      obtain rfl := Option.some.inj hread
      exact ⟨rfl, (List.append_cancel_left h).symm⟩
  | .bool b, value', rest, rest', _, hread, _, _, h => by
      obtain rfl := Option.some.inj hread
      exact ⟨rfl, (List.append_cancel_left h).symm⟩
  | .number text, value', rest, rest', hnum, hread, hrest, hrest', h => by
      rw [Json.reread] at hread
      obtain ⟨text', htext', rfl⟩ := Option.map_eq_some_iff.mp hread
      obtain ⟨rfl, rfl⟩ := eq_of_number (hnum text (by simp [Json.numbers]))
        (hfloat text text' htext') hrest hrest' h
      exact ⟨rfl, rfl⟩
  | .string s, value', rest, rest', _, hread, _, _, h => by
      obtain rfl := Option.some.inj hread
      exact ⟨rfl, (List.append_cancel_left h).symm⟩
  | .array items, value', rest, rest', hnum, hread, _, _, h => by
      rw [Json.reread] at hread
      obtain ⟨items', hitems', rfl⟩ := Option.map_eq_some_iff.mp hread
      obtain ⟨rfl, rfl⟩ := eq_of_renderItems hfloat hnum hitems' (List.cons.inj h).2
      exact ⟨rfl, rfl⟩
  | .object fields, value', rest, rest', hnum, hread, _, _, h => by
      rw [Json.reread] at hread
      obtain ⟨fields', hfields', rfl⟩ := Option.map_eq_some_iff.mp hread
      obtain ⟨rfl, rfl⟩ := eq_of_renderFields hfloat hnum hfields' (List.cons.inj h).2
      exact ⟨rfl, rfl⟩

theorem eq_of_renderItems (hfloat : GivesNumbers float) :
    ∀ {items items' : List Json} {sep rest rest' : List Char},
    (∀ text ∈ itemNumbers items, isNumberText text = true) →
    rereadItems float items = some items' →
    renderItems quote sep items ++ rest = renderItems quote sep items' ++ rest' →
    items' = items ∧ rest' = rest
  | [], items', sep, rest, rest', _, hread, h => by
      obtain rfl := Option.some.inj hread
      exact ⟨rfl, (List.append_cancel_left h).symm⟩
  | item :: items, items', sep, rest, rest', hnum, hread, h => by
      simp only [rereadItems, Option.bind_eq_bind, Option.bind_eq_some_iff, Option.pure_def] at hread
      obtain ⟨item', hitem', more, hmore, heq⟩ := hread
      obtain rfl := Option.some.inj heq
      simp only [itemNumbers, List.mem_append] at hnum
      simp only [renderItems, List.append_assoc, List.append_cancel_left_eq] at h
      obtain ⟨rfl, htail⟩ := Json.eq_of_render hfloat (fun text ht => hnum text (Or.inl ht)) hitem'
        (endsNumber_renderItems quote items rest) (endsNumber_renderItems quote more rest') h
      obtain ⟨rfl, rfl⟩ := eq_of_renderItems hfloat (fun text ht => hnum text (Or.inr ht)) hmore htail.symm
      exact ⟨rfl, rfl⟩

theorem eq_of_renderFields (hfloat : GivesNumbers float) :
    ∀ {fields fields' : List (String × Json)} {sep rest rest' : List Char},
    (∀ text ∈ fieldNumbers fields, isNumberText text = true) →
    rereadFields float fields = some fields' →
    renderFields quote sep fields ++ rest = renderFields quote sep fields' ++ rest' →
    fields' = fields ∧ rest' = rest
  | [], fields', sep, rest, rest', _, hread, h => by
      obtain rfl := Option.some.inj hread
      exact ⟨rfl, (List.append_cancel_left h).symm⟩
  | (key, value) :: fields, fields', sep, rest, rest', hnum, hread, h => by
      simp only [rereadFields, Option.bind_eq_bind, Option.bind_eq_some_iff, Option.pure_def]
        at hread
      obtain ⟨value', hvalue', more, hmore, heq⟩ := hread
      obtain rfl := Option.some.inj heq
      simp only [fieldNumbers, List.mem_append] at hnum
      simp only [renderFields, List.append_assoc, List.cons_append, List.append_cancel_left_eq,
        List.cons.injEq, true_and] at h
      obtain ⟨rfl, htail⟩ := Json.eq_of_render hfloat (fun text ht => hnum text (Or.inl ht)) hvalue'
        (endsNumber_renderFields quote fields rest) (endsNumber_renderFields quote more rest') h
      obtain ⟨rfl, rfl⟩ := eq_of_renderFields hfloat (fun text ht => hnum text (Or.inr ht)) hmore
        htail.symm
      exact ⟨rfl, rfl⟩

end

end

/-- A map is read as it was exactly when it is not present without fields and each number is. -/
theorem rereadMap_eq_self_iff (float : String → Option String) (value : JsonMap) :
    rereadMap float value = some value ↔
      value ≠ some [] ∧ ∀ text ∈ mapNumbers value, float text = some text := by
  match value with
  | none => simp [rereadMap, mapNumbers]
  | some [] => simp [rereadMap]
  | some (field :: fields) => simp [rereadMap, mapNumbers, rereadFields_eq_self_iff]

end Logthing
