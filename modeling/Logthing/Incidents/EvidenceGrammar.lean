import Logthing.Incidents.Classify

/-!
# The grammar of evidence

`classify` recognises evidence by searching for a phrase, checking what precedes it and trimming
what follows it.  `Says` is the grammar this is meant to be: whole trimmed texts, written from
their beginning to their end.  The two agree for interface names without white space, so a text
that only quotes such a line is never evidence.

**Main results.**  `classify_iff`: the messages that are evidence, and what it is evidence of.
-/

namespace Logthing

/-- A line about an interface: its name between quotes, and what is said of it, from the closing
quote on. -/
def interfaceLine (c said : String) : List Char := "Interface '".toList ++ c.toList ++ said.toList

/-- A line of the router's Lua script: `(repeater.lua:`, a line number, `) ` and what it says. -/
def repeaterLine (digits phrase : List Char) : List Char :=
  "(repeater.lua:".toList ++ (digits ++ (") ".toList ++ phrase))

/-- The phrase of a status report. -/
def statusPhrase (c : String) (spaces : List Char) (online : Bool) : List Char :=
  "interface ".toList ++ c.toList ++ " status ".toList ++
    (spaces ++ (if online then "online" else "offline").toList)

/-- A number in ASCII digits. -/
def LineNumber (digits : List Char) : Prop :=
  digits ≠ [] ∧ ∀ c ∈ digits, '0' ≤ c ∧ c ≤ '9'

/-- What a trimmed text says under a tag, for a configured interface: of which interface, whether
it is online, whether this is reachability, and whether it is to be observed only. -/
inductive Says (iface : String) :
    String → List Char → String → Bool → Bool → Bool → Prop
  | down {c : String} (hc : c ∈ [iface, "wwan", "tethering"]) :
      Says iface "netifd" (interfaceLine c "' is now down") c false false false
  | up {c : String} (hc : c ∈ [iface, "wwan", "tethering"]) :
      Says iface "netifd" (interfaceLine c "' is now up") c true false false
  | lost :
      Says iface "netifd" (interfaceLine iface "' has lost the connection") iface false false false
  | switch {digits : List Char} (hdigits : LineNumber digits) :
      Says iface "gl-repeater" (repeaterLine digits "switch to STARLINK".toList) "wwan"
        false false true
  | status {digits spaces : List Char} {c : String} (hdigits : LineNumber digits)
      (hc : c ∈ [iface, "wwan"]) (hspaces : ∀ s ∈ spaces, Text.isSpace s = true) (online : Bool) :
      Says iface "gl-repeater"
        (repeaterLine digits (statusPhrase c spaces online)) c online true false

/-! ## The repeater's lines -/

/-- `validRepeaterPrefix` accepts what precedes a phrase of the script. -/
lemma validRepeaterPrefix_iff (value : List Char) :
    validRepeaterPrefix value = true ↔
      ∃ digits, LineNumber digits ∧
        value = "(repeater.lua:".toList ++ (digits ++ ") ".toList) := by
  have hpre : Text.hasPrefix value "(repeater.lua:".toList = true ↔
      "(repeater.lua:".toList <+: value := List.isPrefixOf_iff_prefix
  have hsuf : Text.hasSuffix value ") ".toList = true ↔ ") ".toList <:+ value :=
    List.isSuffixOf_iff_suffix
  have hparen : ')' ∉ "(repeater.lua:".toList := by decide
  constructor
  · intro h
    rw [validRepeaterPrefix] at h
    split_ifs at h with hno
    rw [Bool.or_eq_true, not_or, Bool.not_eq_true', Bool.not_eq_true', Bool.not_eq_false,
      Bool.not_eq_false, hpre, hsuf] at hno
    obtain ⟨digits, rfl⟩ := Text.exists_middle rfl hparen hno.1 hno.2
    have hmiddle := Text.trimSuffix_trimPrefix "(repeater.lua:".toList digits ") ".toList
    simp only [hmiddle, Bool.and_eq_true, decide_eq_true_eq, List.all_eq_true] at h
    exact ⟨digits, h, rfl⟩
  · rintro ⟨digits, hdigits, rfl⟩
    have hmiddle := Text.trimSuffix_trimPrefix "(repeater.lua:".toList digits ") ".toList
    rw [validRepeaterPrefix, if_neg]
    · simp only [hmiddle, Bool.and_eq_true, decide_eq_true_eq, List.all_eq_true]
      exact hdigits
    · rw [Bool.or_eq_true, not_or, Bool.not_eq_true', Bool.not_eq_true', Bool.not_eq_false,
        Bool.not_eq_false, hpre, hsuf]
      exact ⟨List.prefix_append _ _, ⟨"(repeater.lua:".toList ++ digits, by
        rw [List.append_assoc]⟩⟩

/-- What precedes a phrase has no letter the phrases begin with. -/
lemma not_mem_front {digits : List Char} (hdigits : LineNumber digits) {c : Char}
    (hc : c = 'i' ∨ c = 's') : c ∉ "(repeater.lua:".toList ++ (digits ++ ") ".toList) := by
  have hletter : ¬c ≤ '9' := by
    rcases hc with rfl | rfl <;> decide
  rw [List.mem_append, List.mem_append, not_or, not_or]
  refine ⟨?_, fun hmem => hletter (hdigits.2 c hmem).2, ?_⟩
  · rcases hc with rfl | rfl <;> decide
  · rcases hc with rfl | rfl <;> decide

lemma repeaterLine_eq (digits phrase : List Char) :
    repeaterLine digits phrase
      = "(repeater.lua:".toList ++ (digits ++ ") ".toList) ++ phrase := by
  have hassoc : ∀ a b c d : List Char, a ++ (b ++ (c ++ d)) = a ++ (b ++ c) ++ d := by
    intro a b c d
    rw [List.append_assoc, List.append_assoc]
  exact hassoc _ _ _ _

/-- Two lines are equal piece by piece. -/
lemma repeaterLine_inj {digits digits' phrase phrase' : List Char} (hdigits : LineNumber digits)
    (hdigits' : LineNumber digits') (h : repeaterLine digits phrase = repeaterLine digits' phrase') :
    phrase = phrase' := by
  have hparen : ∀ {ds : List Char}, LineNumber ds → ')' ∉ ds := fun hds hmem =>
    absurd (hds.2 ')' hmem).1 (by decide)
  have hclose : ∀ rest : List Char, ") ".toList ++ rest = ')' :: ' ' :: rest := fun _ => rfl
  have hrest := List.append_cancel_left h
  rw [hclose, hclose] at hrest
  exact (List.cons.inj (Text.cut_inj (hparen hdigits) (hparen hdigits') hrest).2).2

/-- **The switch** is recognised where a line says it. -/
lemma repeaterSwitch_iff {status : List Char} (hends : Text.Ends status) :
    repeaterSwitch status = true ↔
      ∃ digits, LineNumber digits ∧ status = repeaterLine digits "switch to STARLINK".toList := by
  have hhead : "switch to STARLINK".toList.head? = some 's' := rfl
  constructor
  · intro h
    rw [repeaterSwitch] at h
    split at h
    · cases h
    · rename_i index hindex
      rw [Bool.and_eq_true, decide_eq_true_eq, validRepeaterPrefix_iff] at h
      obtain ⟨⟨digits, hdigits, htake⟩, htrim⟩ := h
      have hpre := (Text.index_eq_some_iff.mp hindex).2.1
      have hdrop : status.drop index ≠ [] := fun hnil => by
        rw [hnil] at htrim
        exact absurd htrim (by decide)
      have hsplit := List.take_append_drop index status
      obtain ⟨spaces, hspaces, hrest⟩ := Text.eq_append_of_trimSpace
        (Text.Ends.of_append (hsplit.symm ▸ hends) hdrop) htrim
      cases spaces with
      | nil =>
          refine ⟨digits, hdigits, ?_⟩
          rw [repeaterLine_eq, ← htake, ← List.nil_append "switch to STARLINK".toList, ← hrest,
            hsplit]
      | cons c spaces =>
          -- the phrase stands at the index itself, so no white space precedes it
          obtain ⟨rest, hrest'⟩ := hpre
          have hfirst : some 's' = some c := by
            rw [← hhead, ← List.head?_append_of_ne_nil "switch to STARLINK".toList (by decide),
              hrest', hrest]
            rfl
          have hspace := hspaces c List.mem_cons_self
          rw [← Option.some.inj hfirst] at hspace
          exact absurd hspace (by decide)
  · rintro ⟨digits, hdigits, rfl⟩
    have hindex := Text.index_append hhead (not_mem_front hdigits (Or.inr rfl)) []
    rw [List.append_nil, ← repeaterLine_eq] at hindex
    rw [repeaterSwitch, hindex, repeaterLine_eq]
    simp only [List.take_left, List.drop_left, Bool.and_eq_true, decide_eq_true_eq]
    exact ⟨(validRepeaterPrefix_iff _).mpr ⟨digits, hdigits, rfl⟩, by decide⟩

/-- What stands behind the lead of a report, up to the end of a trimmed text, is its word. -/
lemma eq_repeaterLine {status lead word digits : List Char} {index : ℕ} (hends : Text.Ends status)
    (hindex : Text.index status lead = some index)
    (htake : status.take index = "(repeater.lua:".toList ++ (digits ++ ") ".toList))
    (htrim : Text.trimSpace (status.drop (index + lead.length)) = word) (hword : word ≠ []) :
    ∃ spaces, (∀ s ∈ spaces, Text.isSpace s = true) ∧
      status = repeaterLine digits (lead ++ (spaces ++ word)) := by
  have hsplit := Text.eq_of_index hindex
  have hrest : status.drop (index + lead.length) ≠ [] := fun hnil => by
    rw [hnil] at htrim
    exact hword (htrim.symm.trans (by decide))
  have hendsRest : Text.Ends (status.drop (index + lead.length)) := by
    have hwhole : Text.Ends ((status.take index ++ lead) ++ status.drop (index + lead.length)) := by
      rwa [List.append_assoc, ← hsplit]
    exact hwhole.of_append hrest
  obtain ⟨spaces, hspaces, heq⟩ := Text.eq_append_of_trimSpace hendsRest htrim
  refine ⟨spaces, hspaces, ?_⟩
  rw [repeaterLine_eq, ← htake, ← heq]
  exact hsplit

/-- **A status report** is recognised where a line makes it. -/
lemma repeaterStatus_iff {status : List Char} (hends : Text.Ends status) (candidate : String)
    (online : Bool) :
    repeaterStatus status candidate = some online ↔
      ∃ digits spaces, LineNumber digits ∧ (∀ s ∈ spaces, Text.isSpace s = true) ∧
        status = repeaterLine digits (statusPhrase candidate spaces online) := by
  have hhead : ("interface ".toList ++ candidate.toList ++ " status ".toList).head? = some 'i' := rfl
  constructor
  · intro h
    rw [repeaterStatus] at h
    split at h
    · cases h
    · rename_i index hindex
      simp only at h
      split_ifs at h with hvalid hoffline honline
      · obtain ⟨digits, hdigits, htake⟩ := (validRepeaterPrefix_iff _).mp hvalid
        obtain ⟨spaces, hspaces, heq⟩ :=
          eq_repeaterLine hends hindex htake hoffline (by decide)
        rw [← Option.some.inj h]
        exact ⟨digits, spaces, hdigits, hspaces, heq⟩
      · obtain ⟨digits, hdigits, htake⟩ := (validRepeaterPrefix_iff _).mp hvalid
        obtain ⟨spaces, hspaces, heq⟩ :=
          eq_repeaterLine hends hindex htake honline (by decide)
        rw [← Option.some.inj h]
        exact ⟨digits, spaces, hdigits, hspaces, heq⟩
  · rintro ⟨digits, spaces, hdigits, hspaces, rfl⟩
    have hindex := Text.index_append hhead (not_mem_front hdigits (Or.inl rfl))
      (spaces ++ (if online then "online" else "offline").toList)
    have hline : repeaterLine digits (statusPhrase candidate spaces online)
        = "(repeater.lua:".toList ++ (digits ++ ") ".toList) ++
          ("interface ".toList ++ candidate.toList ++ " status ".toList ++
            (spaces ++ (if online then "online" else "offline").toList)) :=
      repeaterLine_eq _ _
    have hword : Text.trimSpace (spaces ++ (if online then "online" else "offline").toList)
        = (if online then "online" else "offline").toList := by
      cases online with
      | true => exact Text.trimSpace_append hspaces (by decide) (by decide)
      | false => exact Text.trimSpace_append hspaces (by decide) (by decide)
    rw [repeaterStatus, hline, hindex]
    simp only [List.take_left, (validRepeaterPrefix_iff _).mpr ⟨digits, hdigits, rfl⟩, if_true,
      ← List.drop_drop, List.drop_left, hword]
    cases online with
    | true => rfl
    | false => rfl

/-! ## netifd's lines -/

/-- A name without white space. -/
def Solid (name : String) : Prop := ∀ x ∈ name.toList, Text.isSpace x = false

lemma Solid.space_not_mem {name : String} (h : Solid name) : ' ' ∉ name.toList := fun hmem =>
  absurd (h ' ' hmem) (by decide)

lemma solid_of_mem {iface c : String} (h : Solid iface) (hc : c ∈ [iface, "wwan", "tethering"]) :
    Solid c := by
  simp only [List.mem_cons, List.not_mem_nil, or_false] at hc
  rcases hc with rfl | rfl | rfl
  · exact h
  · unfold Solid
    decide
  · unfold Solid
    decide

/-- Lines about interfaces are equal piece by piece. -/
lemma interfaceLine_inj {c c' said said' : String} {t t' : List Char} (hc : Solid c)
    (hc' : Solid c') (hsaid : said.toList = '\'' :: ' ' :: t)
    (hsaid' : said'.toList = '\'' :: ' ' :: t')
    (h : interfaceLine c said = interfaceLine c' said') : c = c' ∧ said = said' := by
  obtain ⟨hname, hrest⟩ := Text.quoted_inj hc.space_not_mem hc'.space_not_mem hsaid hsaid' h
  exact ⟨String.toList_inj.mp hname, String.toList_inj.mp hrest⟩

/-! ## One meaning -/

lemma Says.tag {iface tag : String} {text : List Char} {c : String} {online reach only : Bool}
    (h : Says iface tag text c online reach only) : tag = "netifd" ∨ tag = "gl-repeater" := by
  cases h with
  | down _ => exact Or.inl rfl
  | up _ => exact Or.inl rfl
  | lost => exact Or.inl rfl
  | switch _ => exact Or.inr rfl
  | status _ _ _ _ => exact Or.inr rfl

/-- What `netifd` says, as one form. -/
lemma Says.netifd {iface tag : String} {text : List Char} {c : String}
    {online reach only : Bool} (h : Says iface tag text c online reach only)
    (htag : tag = "netifd") :
    c ∈ [iface, "wwan", "tethering"] ∧ reach = false ∧ only = false ∧
      ∃ said t, said.toList = '\'' :: ' ' :: t ∧ text = interfaceLine c said ∧
        online = decide (said = "' is now up") := by
  cases h with
  | down hc => exact ⟨hc, rfl, rfl, "' is now down", "is now down".toList, rfl, rfl, by decide⟩
  | up hc => exact ⟨hc, rfl, rfl, "' is now up", "is now up".toList, rfl, rfl, by decide⟩
  | lost =>
      exact ⟨List.mem_cons_self, rfl, rfl, "' has lost the connection",
        "has lost the connection".toList, rfl, rfl, by decide⟩
  | switch _ => exact absurd htag (by decide)
  | status _ _ _ _ => exact absurd htag (by decide)

/-- What `gl-repeater` says, as two forms. -/
lemma Says.repeater {iface tag : String} {text : List Char} {c : String}
    {online reach only : Bool} (h : Says iface tag text c online reach only)
    (htag : tag ≠ "netifd") :
    ∃ digits, LineNumber digits ∧
      ((text = repeaterLine digits "switch to STARLINK".toList ∧ c = "wwan" ∧ online = false ∧
          reach = false ∧ only = true) ∨
        (∃ spaces, (∀ s ∈ spaces, Text.isSpace s = true) ∧ c ∈ [iface, "wwan"] ∧
          text = repeaterLine digits (statusPhrase c spaces online) ∧ reach = true ∧
            only = false)) := by
  cases h with
  | down _ => exact absurd rfl htag
  | up _ => exact absurd rfl htag
  | lost => exact absurd rfl htag
  | switch hdigits => exact ⟨_, hdigits, Or.inl ⟨rfl, rfl, rfl, rfl, rfl⟩⟩
  | status hdigits hc hspaces =>
      exact ⟨_, hdigits, Or.inr ⟨_, hspaces, hc, rfl, rfl, rfl⟩⟩

lemma trimSpace_word {spaces : List Char} (hspaces : ∀ c ∈ spaces, Text.isSpace c = true)
    (online : Bool) : Text.trimSpace (spaces ++ (if online then "online" else "offline").toList)
      = (if online then "online" else "offline").toList := by
  cases online with
  | true => exact Text.trimSpace_append hspaces (by decide) (by decide)
  | false => exact Text.trimSpace_append hspaces (by decide) (by decide)

lemma statusPhrase_inj {c c' : String} {spaces spaces' : List Char} {online online' : Bool}
    (hc : Solid c) (hc' : Solid c') (hspaces : ∀ s ∈ spaces, Text.isSpace s = true)
    (hspaces' : ∀ s ∈ spaces', Text.isSpace s = true)
    (h : statusPhrase c spaces online = statusPhrase c' spaces' online') :
    c = c' ∧ online = online' := by
  obtain ⟨hname, hrest⟩ := Text.field_inj rfl hc.space_not_mem hc'.space_not_mem h
  have hwords := congrArg Text.trimSpace hrest
  rw [trimSpace_word hspaces, trimSpace_word hspaces'] at hwords
  refine ⟨String.toList_inj.mp hname, ?_⟩
  revert hwords
  cases online <;> cases online' <;> decide

/-- **A text has one meaning.** -/
lemma Says.unique {iface tag : String} {text : List Char} (hiface : Solid iface)
    {c c' : String} {online online' reach reach' only only' : Bool}
    (h : Says iface tag text c online reach only)
    (h' : Says iface tag text c' online' reach' only') :
    c = c' ∧ online = online' ∧ reach = reach' ∧ only = only' := by
  by_cases htag : tag = "netifd"
  · obtain ⟨hc, rfl, rfl, said, t, hsaid, htext, rfl⟩ := h.netifd htag
    obtain ⟨hc', rfl, rfl, said', t', hsaid', htext', rfl⟩ := h'.netifd htag
    obtain ⟨hname, rfl⟩ := interfaceLine_inj (solid_of_mem hiface hc) (solid_of_mem hiface hc')
      hsaid hsaid' (htext.symm.trans htext')
    exact ⟨hname, rfl, rfl, rfl⟩
  · have hsolid : ∀ {c : String}, c ∈ [iface, "wwan"] → Solid c := fun hmem =>
      solid_of_mem hiface (List.mem_append_left ["tethering"] hmem)
    have hhead : ∀ (c : String) (spaces : List Char) (online : Bool),
        statusPhrase c spaces online ≠ "switch to STARLINK".toList := fun c spaces online heq => by
      have hfirst : some 'i' = some 's' := congrArg List.head? heq
      exact absurd hfirst (by decide)
    obtain ⟨digits, hdigits, h | h⟩ := h.repeater htag
    · obtain ⟨htext, rfl, rfl, rfl, rfl⟩ := h
      obtain ⟨digits', hdigits', h' | h'⟩ := h'.repeater htag
      · obtain ⟨-, rfl, rfl, rfl, rfl⟩ := h'
        exact ⟨rfl, rfl, rfl, rfl⟩
      · obtain ⟨spaces', -, -, htext', -⟩ := h'
        exact absurd (repeaterLine_inj hdigits' hdigits (htext'.symm.trans htext)) (hhead _ _ _)
    · obtain ⟨spaces, hspaces, hc, htext, rfl, rfl⟩ := h
      obtain ⟨digits', hdigits', h' | h'⟩ := h'.repeater htag
      · obtain ⟨htext', -⟩ := h'
        exact absurd (repeaterLine_inj hdigits hdigits' (htext.symm.trans htext')) (hhead _ _ _)
      · obtain ⟨spaces', hspaces', hc', htext', rfl, rfl⟩ := h'
        have hphrase := repeaterLine_inj hdigits hdigits' (htext.symm.trans htext')
        obtain ⟨hname, honline⟩ :=
          statusPhrase_inj (hsolid hc) (hsolid hc') hspaces hspaces' hphrase
        exact ⟨hname, honline, rfl, rfl⟩

/-! ## classify -/

/-- The evidence of a message in which something is said. -/
def evidenceOf (message : Message) (c : String) (online reach only : Bool) : Evidence where
  hostname := String.ofList (Text.trimSpace message.hostname.toList)
  iface := c
  online := online
  at_ := message.receivedAt
  messageID := message.id
  reachability := reach
  observeOnly := only

lemma netifdChange_up (status : List Char) (iface candidate : String) :
    (netifdChange status iface candidate).2
      = decide (status = interfaceLine candidate "' is now up") := rfl

lemma netifdChange_down (status : List Char) (iface candidate : String) :
    (netifdChange status iface candidate).1
      = (decide (status = interfaceLine candidate "' is now down") ||
        (decide (candidate = iface) &&
          decide (status = interfaceLine candidate "' has lost the connection"))) := rfl

/-- What `netifd`'s candidates are checked for is what the grammar says of them. -/
lemma says_of_netifdChange {status : List Char} {iface candidate : String}
    (hc : candidate ∈ [iface, "wwan", "tethering"])
    (h : ((netifdChange status iface candidate).1 || (netifdChange status iface candidate).2)
      = true) :
    Says iface "netifd" status candidate (netifdChange status iface candidate).2 false false := by
  by_cases hsaid : status = interfaceLine candidate "' is now up"
  · rw [netifdChange_up, decide_eq_true hsaid, hsaid]
    exact Says.up hc
  · rw [netifdChange_up, decide_eq_false hsaid]
    rw [netifdChange_up, decide_eq_false hsaid, Bool.or_false, netifdChange_down, Bool.or_eq_true,
      Bool.and_eq_true, decide_eq_true_eq, decide_eq_true_eq, decide_eq_true_eq] at h
    rcases h with rfl | ⟨rfl, rfl⟩
    · exact Says.down hc
    · exact Says.lost

lemma netifdChange_of_grammar {status : List Char} {iface tag c : String} {online reach only : Bool}
    (h : Says iface tag status c online reach only) (htag : tag = "netifd") :
    ((netifdChange status iface c).1 || (netifdChange status iface c).2) = true := by
  cases h with
  | down _ => rw [netifdChange_down, decide_eq_true rfl, Bool.true_or, Bool.true_or]
  | up _ => rw [netifdChange_up, decide_eq_true rfl, Bool.or_true]
  | lost =>
      rw [netifdChange_down, decide_eq_true (rfl : iface = iface),
        decide_eq_true (rfl : interfaceLine iface "' has lost the connection" = _), Bool.true_and,
        Bool.or_true, Bool.true_or]
  | switch _ => exact absurd htag (by decide)
  | status _ _ _ _ => exact absurd htag (by decide)

lemma ofList_eq_empty {l : List Char} : String.ofList l = "" ↔ l = [] := by
  rw [← String.toList_inj, String.toList_ofList]
  rfl

/-- What `classify` takes for evidence is said by the grammar. -/
lemma says_of_classify {message : Message} {iface : String} {e : Evidence}
    (h : classify message iface = some e) :
    ∃ c online reach only,
      Says iface message.tag (Text.trimSpace message.message.toList) c online reach only ∧
        e = evidenceOf message c online reach only := by
  have hends := Text.ends_trimSpace message.message.toList
  simp only [classify] at h
  split_ifs at h with hskip htag hrepeater hswitch
  · obtain ⟨candidate, hcandidate, hsome⟩ := List.exists_of_findSome?_eq_some h
    split_ifs at hsome with hchange
    rw [htag]
    exact ⟨_, _, _, _, says_of_netifdChange hcandidate hchange, (Option.some.inj hsome).symm⟩
  · obtain ⟨digits, hdigits, htext⟩ := (repeaterSwitch_iff hends).mp hswitch
    rw [not_not.mp hrepeater, htext]
    exact ⟨_, _, _, _, Says.switch hdigits, (Option.some.inj h).symm⟩
  · obtain ⟨candidate, hcandidate, hsome⟩ := List.exists_of_findSome?_eq_some h
    obtain ⟨online, hstatus, rfl⟩ := Option.map_eq_some_iff.mp hsome
    obtain ⟨digits, spaces, hdigits, hspaces, htext⟩ :=
      (repeaterStatus_iff hends candidate online).mp hstatus
    rw [not_not.mp hrepeater, htext]
    exact ⟨_, _, _, _, Says.status hdigits hcandidate hspaces online, rfl⟩

/-- Where the grammar says something, `classify` finds evidence. -/
lemma classify_of_says {message : Message} {iface : String}
    (hhost : Text.trimSpace message.hostname.toList ≠ []) (htime : message.receivedAt ≠ 0)
    {c : String} {online reach only : Bool}
    (h : Says iface message.tag (Text.trimSpace message.message.toList) c online reach only) :
    ∃ e, classify message iface = some e := by
  have hends := Text.ends_trimSpace message.message.toList
  have hskip : ¬(decide (String.ofList (Text.trimSpace message.hostname.toList) = "") ||
      message.receivedAt.isZero) = true := by
    rw [Bool.or_eq_true, not_or, decide_eq_true_eq, decide_eq_true_eq]
    exact ⟨fun hempty => hhost (ofList_eq_empty.mp hempty), htime⟩
  rw [← Option.isSome_iff_exists]
  simp only [classify]
  rw [if_neg hskip]
  by_cases htag : message.tag = "netifd"
  · obtain ⟨hc, -⟩ := h.netifd htag
    rw [if_pos htag, List.findSome?_isSome_iff]
    exact ⟨c, hc, by rw [if_pos (netifdChange_of_grammar h htag)]; rfl⟩
  · obtain ⟨digits, hdigits, hform⟩ := h.repeater htag
    have hrepeater : ¬message.tag ≠ "gl-repeater" := not_not.mpr (h.tag.resolve_left htag)
    rw [if_neg htag, if_neg hrepeater]
    split_ifs with hswitch
    · rfl
    · rcases hform with ⟨htext, -⟩ | ⟨spaces, hspaces, hc, htext, -⟩
      · exact absurd ((repeaterSwitch_iff hends).mpr ⟨digits, hdigits, htext⟩) hswitch
      · rw [List.findSome?_isSome_iff]
        refine ⟨c, hc, ?_⟩
        rw [(repeaterStatus_iff hends c online).mpr ⟨digits, spaces, hdigits, hspaces, htext⟩]
        rfl

/-- **`classify` accepts its grammar**, for an interface name without white space: a message is
evidence exactly if it has a hostname and a time and its trimmed text, from beginning to end, is
one of the forms; and then it is evidence of what the form says. -/
theorem classify_iff (message : Message) {iface : String} (hiface : Solid iface) (e : Evidence) :
    classify message iface = some e ↔
      Text.trimSpace message.hostname.toList ≠ [] ∧ message.receivedAt ≠ 0 ∧
      ∃ c online reach only,
        Says iface message.tag (Text.trimSpace message.message.toList) c online reach only ∧
          e = evidenceOf message c online reach only := by
  constructor
  · intro h
    obtain ⟨htime, hne, hhost, -⟩ := classify_eq_some h
    obtain ⟨c, online, reach, only, hsays, rfl⟩ := says_of_classify h
    exact ⟨fun hnil => hhost (ofList_eq_empty.mpr hnil), hne, c, online, reach, only, hsays, rfl⟩
  · rintro ⟨hhost, htime, c, online, reach, only, hsays, rfl⟩
    obtain ⟨e, he⟩ := classify_of_says hhost htime hsays
    obtain ⟨c', online', reach', only', hsays', rfl⟩ := says_of_classify he
    obtain ⟨rfl, rfl, rfl, rfl⟩ := hsays.unique hiface hsays'
    exact he

/-- A status report of the router's script, with this text in front of it. -/
def reportMessage (front : String) : Message where
  id := "one"
  receivedAt := 1000000000
  hostname := "gw"
  tag := "gl-repeater"
  message := front ++ "(repeater.lua:1741) interface wan status  offline"

theorem classify_iff_offline :
    classify (reportMessage "") "wan"
      = some (evidenceOf (reportMessage "") "wan" false true false) := by
  have hsolid : Solid "wan" := by
    unfold Solid
    decide
  have htext : Text.trimSpace (reportMessage "").message.toList
      = repeaterLine "1741".toList (statusPhrase "wan" [' '] false) := by decide
  have hnumber : LineNumber "1741".toList := by
    unfold LineNumber
    decide
  refine (classify_iff (reportMessage "") hsolid _).mpr
    ⟨by decide, by decide, "wan", false, true, false, ?_, rfl⟩
  rw [htext]
  exact Says.status hnumber (by decide) (by decide) false

-- a line that is only quoted is no evidence
example : (classify (reportMessage "diagnostic: ") "wan").isNone = true := by decide

end Logthing
