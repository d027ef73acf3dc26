import Logthing.Core.Text
import Logthing.Incidents.Types

/-!
# Recognising evidence

`classify` turns a stored message into evidence about one interface of one host, or rejects it.
What the rest of the development needs of it is what every piece of evidence has: the message's
time, which is not zero, and one of three interface names.
-/

namespace Logthing

/-- `evidence`. -/
structure Evidence where
  hostname : String
  iface : String
  online : Bool := false
  at_ : Time
  messageID : String
  sourceRef : String := ""
  reachability : Bool := false
  observeOnly : Bool := false
  deriving DecidableEq

/-- `validRepeaterPrefix`. -/
def validRepeaterPrefix (value : List Char) : Bool :=
  let before := "(repeater.lua:".toList
  let after := ") ".toList
  if !Text.hasPrefix value before || !Text.hasSuffix value after then false
  else
    let line := Text.trimSuffix (Text.trimPrefix value before) after
    line ≠ [] && line.all fun character => '0' ≤ character && character ≤ '9'

/-- What `netifd` says of a candidate: whether it went down, and whether it came up. -/
def netifdChange (status : List Char) (iface candidate : String) : Bool × Bool :=
  let states := fun change : String => status = "Interface '".toList ++ candidate.toList ++ change.toList
  (states "' is now down" || (candidate = iface && states "' has lost the connection"),
    states "' is now up")

/-- What `gl-repeater` says of a candidate: `some online`, if it reports its status. -/
def repeaterStatus (status : List Char) (candidate : String) : Option Bool :=
  let lead := "interface ".toList ++ candidate.toList ++ " status ".toList
  match Text.index status lead with
  | none => none
  | some index =>
      if validRepeaterPrefix (status.take index) then
        let state := Text.trimSpace (status.drop (index + lead.length))
        if state = "offline".toList then some false
        else if state = "online".toList then some true
        else none
      else none

/-- Whether `gl-repeater` reports the switch to the backup. -/
def repeaterSwitch (status : List Char) : Bool :=
  let phrase := "switch to STARLINK".toList
  match Text.index status phrase with
  | none => false
  | some index =>
      validRepeaterPrefix (status.take index) && Text.trimSpace (status.drop index) = phrase

/-- `classify`. -/
def classify (message : Message) (iface : String) : Option Evidence :=
  let hostname := String.ofList (Text.trimSpace message.hostname.toList)
  if hostname = "" || message.receivedAt.isZero then none
  else
    let status := Text.trimSpace message.message.toList
    if message.tag = "netifd" then
      [iface, "wwan", "tethering"].findSome? fun candidate =>
        let (down, up) := netifdChange status iface candidate
        if down || up then
          some
            { hostname, iface := candidate, online := up, at_ := message.receivedAt
              messageID := message.id }
        else none
    else if message.tag ≠ "gl-repeater" then none
    else if repeaterSwitch status then
      some
        { hostname, iface := "wwan", at_ := message.receivedAt, messageID := message.id
          observeOnly := true }
    else
      [iface, "wwan"].findSome? fun candidate =>
        (repeaterStatus status candidate).map fun online =>
          { hostname, iface := candidate, online, at_ := message.receivedAt
            messageID := message.id, reachability := true }

/-- **What evidence is.**  It carries the time of its message, which is not the zero time, and
names the configured interface or one of the two fallbacks. -/
lemma classify_eq_some {message : Message} {iface : String} {e : Evidence}
    (h : classify message iface = some e) :
    e.at_ = message.receivedAt ∧ e.at_ ≠ 0 ∧ e.hostname ≠ "" ∧ e.messageID = message.id ∧
      e.iface ∈ [iface, "wwan", "tethering"] := by
  simp only [classify] at h
  split_ifs at h with hskip htag hrepeater hswitch
  · rw [Bool.or_eq_true, not_or] at hskip
    obtain ⟨candidate, hcandidate, hsome⟩ := List.exists_of_findSome?_eq_some h
    split_ifs at hsome with hchange
    obtain rfl := Option.some.inj hsome
    exact ⟨rfl, by simpa using hskip.2, by simpa using hskip.1, rfl, hcandidate⟩
  · rw [Bool.or_eq_true, not_or] at hskip
    obtain rfl := Option.some.inj h
    exact ⟨rfl, by simpa using hskip.2, by simpa using hskip.1, rfl, by simp⟩
  · rw [Bool.or_eq_true, not_or] at hskip
    obtain ⟨candidate, hcandidate, hsome⟩ := List.exists_of_findSome?_eq_some h
    obtain ⟨online, -, rfl⟩ := Option.map_eq_some_iff.mp hsome
    refine ⟨rfl, by simpa using hskip.2, by simpa using hskip.1, rfl, ?_⟩
    simp only [List.mem_cons, List.not_mem_nil, or_false] at hcandidate ⊢
    rcases hcandidate with h | h
    · exact Or.inl h
    · exact Or.inr (Or.inl h)

/-- Only `gl-repeater` reports reachability, and it is more than a sighting. -/
lemma classify_reachability {message : Message} {iface : String} {e : Evidence}
    (h : classify message iface = some e) (hreachability : e.reachability = true) :
    message.tag = "gl-repeater" ∧ e.observeOnly = false := by
  simp only [classify] at h
  split_ifs at h with hskip htag hrepeater hswitch
  · obtain ⟨candidate, -, hsome⟩ := List.exists_of_findSome?_eq_some h
    split_ifs at hsome
    rw [← Option.some.inj hsome] at hreachability
    cases hreachability
  · rw [← Option.some.inj h] at hreachability
    cases hreachability
  · obtain ⟨candidate, -, hsome⟩ := List.exists_of_findSome?_eq_some h
    obtain ⟨online, -, rfl⟩ := Option.map_eq_some_iff.mp hsome
    exact ⟨not_not.mp hrepeater, rfl⟩

end Logthing
