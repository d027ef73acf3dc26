import Logthing.Api.MessagePages
import Logthing.Api.MessageStream
import Logthing.Frontend.LiveWindow

/-!
# A live page

The page asks for the first page of the messages that match its filter, then opens a stream with the
same filter and hands each of its events to `handleMessage`.

**Main results.**  `live_page_refreshed`: what the page shows once the stream has caught up is what
a refresh would show, if what is stored and matches by then is what there was before and what was
published to the stream.
-/

namespace Logthing.Frontend

open Api Realtime

/-! ## The page -/

/-- The request of `listMessages` for the first page. -/
def listRequest (browser : Browser) (settings : Settings) (filter : String) : MessagesRequest where
  limit := toString settings.calculatedLimit
  offset := toString 0
  q := browser.trim filter
  host := (settings.selectedHosts.map browser.trim).filter (· ≠ "")

/-- `refresh`, once `listMessages` has answered; it has no error to show where the request was
aborted. -/
def refresh (browser : Browser) (settings : Settings) (now : Time) (app : App)
    (answer : Except (Option String) (List SyslogMessage × Bool)) : App :=
  match answer with
  | .error err => { app with error := err }
  | .ok (data, hasMore) =>
      { messages := data
        hasMore
        knownHosts := sortedUniqueHosts browser
          (app.knownHosts ++ settings.selectedHosts ++ data.map fun message =>
            message.hostname.getD "")
        lastUpdated := some now
        error := none }

/-- `listMessages`, where `view` is what the browser makes of a message. -/
def listMessages (view : Message → SyslogMessage)
    (response : Except ErrorResponse MessagesResponse) :
    Except (Option String) (List SyslogMessage × Bool) :=
  match response with
  | .ok response => .ok (response.data.map view, response.info.hasMore)
  | .error err => .error (some (if err.status = 401 then "Authentication required" else err.error))

/-- An event of the stream: `handleMessage` listens for those of the type `message`. -/
def receive (browser : Browser) (settings : Settings) (app : App)
    (e : EventStream.Event × Time) : App :=
  if e.1.type = "message".toList then
    handleMessage browser settings e.2 app (String.ofList e.1.data)
  else app

/-- The messages of a directory that match the page's filter, latest first. -/
def matching (go : GoLib) (browser : Browser) (settings : Settings) (filter : String)
    (accepts : Message → Bool) (disk : Disk) : List Message :=
  let request := listRequest browser settings filter
  listing go { text := request.q, hosts := cleanQueryValues request.host } accepts disk

section

open Classical

variable {browser : Browser} {settings : Settings} {view : Message → SyslogMessage}

/-! ## The stream -/

/-- A message of a host that is not selected does not show. -/
lemma Refreshed.unselected {all : Finset SyslogMessage} {app : App}
    (h : Refreshed browser settings.calculatedLimit all app) (now : Time) {data : String}
    {m : SyslogMessage} (hparse : browser.parse data = some m)
    (hselects : settings.selects m = false) :
    Refreshed browser settings.calculatedLimit all
      (Frontend.handleMessage browser settings now app data) := by
  rw [Frontend.handleMessage, hparse]
  simp only [hselects, if_true]
  exact ⟨h.messages, h.hasMore⟩

/-- **The events of a stream**, one after the other. -/
lemma Refreshed.receive {marshal : Message → Option String}
    (hparse : ∀ msg data, marshal msg = some data → browser.parse data = some (view msg))
    {events : List (EventStream.Event × Time)} {shown : List Message}
    (hshown : List.Forall₂ (fun e msg => IsEventOf marshal e.1 msg) events shown)
    {all : Finset SyslogMessage} {app : App}
    (h : Refreshed browser settings.calculatedLimit all app)
    (hdistinct : Distinct browser
      (all ∪ ((shown.map view).filter (settings.selects ·)).toFinset)) :
    Refreshed browser settings.calculatedLimit
      (all ∪ ((shown.map view).filter (settings.selects ·)).toFinset)
      (events.foldl (Frontend.receive browser settings) app) := by
  induction hshown generalizing all app with
  | nil => simpa using h
  | @cons e msg events shown hevent hshown ih =>
      obtain ⟨data, hmarshal, he⟩ := hevent
      have hview := hparse msg data hmarshal
      have htype : e.1.type = "message".toList := by rw [he]
      have hstep : Frontend.receive browser settings app e
          = Frontend.handleMessage browser settings e.2 app data := by
        rw [Frontend.receive, if_pos htype, he, String.ofList_toList]
      rw [List.foldl_cons, hstep]
      cases hselects : settings.selects (view msg) with
      | false =>
          have hsame : ((msg :: shown).map view).filter (settings.selects ·)
              = (shown.map view).filter (settings.selects ·) := by
            rw [List.map_cons, List.filter_cons_of_neg (by simp [hselects])]
          rw [hsame] at hdistinct ⊢
          exact ih (h.unselected e.2 hview hselects) hdistinct
      | true =>
          have hmore : all ∪ (((msg :: shown).map view).filter (settings.selects ·)).toFinset
              = insert (view msg) all
                ∪ ((shown.map view).filter (settings.selects ·)).toFinset := by
            rw [List.map_cons, List.filter_cons_of_pos (by simp [hselects]), List.toFinset_cons,
              Finset.union_insert, Finset.insert_union]
          rw [hmore] at hdistinct ⊢
          refine ih (h.handleMessage ?_ e.2 hview hselects) hdistinct
          exact hdistinct.subset Finset.subset_union_left

/-! ## A refresh -/

/-- The page and the server agree on the order of time, up to the millisecond. -/
def KeepsOrder (browser : Browser) (view : Message → SyslogMessage) : Prop :=
  ∀ a b : Message, a.receivedAt ≤ b.receivedAt →
    receivedAtMillis browser (view a) ≤ receivedAtMillis browser (view b)

/-- What matches is in the order that the page sorts it into. -/
lemma latestFirst_listing (horder : KeepsOrder browser view) (go : GoLib) (q : Logthing.Query)
    (accepts : Message → Bool) (disk : Disk)
    (hnodup : ((listing go q accepts disk).map view).Nodup)
    (hdistinct : Distinct browser ((listing go q accepts disk).map view).toFinset) :
    latestFirst browser ((listing go q accepts disk).map view).toFinset
      = (listing go q accepts disk).map view := by
  refine latestFirst_eq hdistinct (List.toFinset_toList hnodup).symm ?_
  rw [List.pairwise_map]
  refine List.Pairwise.filter _ (List.pairwise_map.mpr ?_)
  refine (Sorting.pairwise_desc Row.key (storedRows go disk)).imp fun {a b} hle => ?_
  exact horder _ _ (Prod.Lex.monotone_fst _ _ hle)

/-- What the server makes of the request. -/
lemma parse_listRequest (lib : QueryLib) (filter : String) :
    parseMessagesQuery lib ((listRequest browser settings filter).page 1 0)
      = .ok { text := browser.trim filter
              hosts := cleanQueryValues (listRequest browser settings filter).host
              limit := 1 } := by
  have hlimit : (0 < ((1 : ℕ) : ℤ) && ((1 : ℕ) : ℤ) ≤ maxMessageLimit) = true := by decide
  have hoffset : decide ((0 : ℤ) ≤ ((0 * 1 : ℕ) : ℤ)) = true := by decide
  rw [parseMessagesQuery, MessagesRequest.page,
    parseQueryNumber_toString lib "limit" (by decide) defaultMessageLimit hlimit,
    parseQueryNumber_toString lib "offset" (by decide) 0 hoffset]
  rfl

/-- **A refresh** shows the page of what matches. -/
lemma refreshed_refresh (lib : QueryLib) {go : GoLib} (hframed : go.Framed) (hkey : go.KeyAgrees)
    (htrail : go.RejectsTrailing) (hlower : go.LowerKeepsBlank) (horder : KeepsOrder browser view)
    {filter : String} {accepts : Message → Bool}
    (hcompile : compileTextFilter go (browser.trim filter) = .ok accepts)
    (hlimit : 1 ≤ settings.calculatedLimit ∧ settings.calculatedLimit ≤ 2000) {disk : Disk}
    {store : FileStore} (htracks : CacheTracks go disk store) (hclean : disk.Clean go)
    (hnodup : ((matching go browser settings filter accepts disk).map view).Nodup)
    (hdistinct : Distinct browser
      ((matching go browser settings filter accepts disk).map view).toFinset)
    (now : Time) (app : App) :
    let answer := handleMessages lib go store disk (listRequest browser settings filter)
    Refreshed browser settings.calculatedLimit
        ((matching go browser settings filter accepts disk).map view).toFinset
        (refresh browser settings now app (listMessages view answer.1)) ∧
      CacheTracks go disk answer.2 := by
  have hrequest : listRequest browser settings filter
      = (listRequest browser settings filter).page settings.calculatedLimit 0 := by
    rw [MessagesRequest.page, Nat.zero_mul]
    rfl
  obtain ⟨response, store', hok, hdata, hmore, htracks'⟩ :=
    handleMessages_page (k := 0) hframed hkey htrail hlower (parse_listRequest lib filter) hcompile
      hlimit htracks (fun path hpath => hclean.indexable hpath) (by omega)
  rw [← hrequest] at hok
  change response.data = Paging.page _ 0 (matching go browser settings filter accepts disk) at hdata
  have hlatest := latestFirst_listing horder go _ accepts disk hnodup hdistinct
  intro answer
  rw [show answer = (.ok response, store') from hok]
  refine ⟨⟨?_, ?_⟩, htracks'⟩
  · rw [matching, hlatest, ← List.map_take]
    simp only [refresh, listMessages, hdata, Paging.page, Nat.zero_mul, List.drop_zero, matching]
  · rw [List.toFinset_card_of_nodup hnodup, List.length_map]
    simp only [refresh, listMessages, hmore, Nat.zero_add, Nat.one_mul]
    rfl

/-! ## The stream and a refresh -/

/-- What can be told apart by two keys. -/
lemma distinct_of_nodup {messages : List SyslogMessage}
    (hids : (messages.map SyslogMessage.id).Nodup)
    (htimes : (messages.map (receivedAtMillis browser)).Nodup) :
    Distinct browser messages.toFinset where
  ids _ ha _ hb heq := List.inj_on_of_nodup_map hids (List.mem_toFinset.mp ha)
    (List.mem_toFinset.mp hb) heq
  times _ ha _ hb heq := List.inj_on_of_nodup_map htimes (List.mem_toFinset.mp ha)
    (List.mem_toFinset.mp hb) heq

/-- **The live page is what a refresh would show.**  Take any directory, a new `FileStore` on it and
any appends and queries, and a page that is loaded then; the page's stream, in any interleaving with
the hub, a handler that has neither returned nor anything left to read, and any appends and queries
meanwhile.  What is stored and matches by then is what there was when the page was loaded and the
messages published to the stream that its filter and the page accept, none of which found the buffer
full; they have their own ids and milliseconds.  To refresh the page then changes neither the
messages it shows nor whether there are more. -/
theorem live_page_refreshed (lib : QueryLib) (go : GoLib) (hframed : go.Framed)
    (hkey : go.KeyAgrees) (htrail : go.RejectsTrailing) (hlower : go.LowerKeepsBlank)
    (marshal : Message → Option String)
    (hflat : ∀ msg data, marshal msg = some data → EventStream.Flat data.toList)
    (browser : Browser) (view : Message → SyslogMessage)
    (hparse : ∀ msg data, marshal msg = some data → browser.parse data = some (view msg))
    (horder : KeepsOrder browser view) (settings : Settings)
    (hlimit : 1 ≤ settings.calculatedLimit ∧ settings.calculatedLimit ≤ 2000) (filter : String)
    (accepts : Message → Bool)
    (hlisted : compileTextFilter go (browser.trim filter) = .ok accepts)
    (hstreamed : compileTextFilter go filter = .ok accepts) (initial : Disk)
    (before after : List StoreCall) (app : App) (loaded now : Time) (events flusher : Bool)
    (greeting : Option ℕ) (cases : List StreamCase) (stream : MessageStream)
    (hstream : handleMessageStream go marshal events flusher filter greeting cases = .ok stream)
    (hrunning : stream.returned = false) {t : List (System Message × Step Message)}
    {s : System Message} (htrace : Trace t s) (ch : ℕ) (hread : stream.read = received ch t)
    (hcaught : s.buffer ch = []) (timed : List (EventStream.Event × Time))
    (htimed : timed.map Prod.fst = EventStream.events stream.written) :
    let request := listRequest browser settings filter
    let first := runCalls go (initial, FileStore.new) before
    let answer := handleMessages lib go first.2 first.1 request
    let later := runCalls go (first.1, answer.2) after
    let stored := matching go browser settings filter accepts
    let live := timed.foldl (receive browser settings)
      (refresh browser settings loaded app (listMessages view answer.1))
    let again := refresh browser settings now live
      (listMessages view (handleMessages lib go later.2 later.1 request).1)
    first.1.Clean go → later.1.Clean go →
    ((stored later.1).map fun m => (view m).id).Nodup →
    ((stored later.1).map fun m => receivedAtMillis browser (view m)).Nodup →
    (∀ m, m ∈ stored later.1 ↔ m ∈ stored first.1 ∨
      m ∈ kept ch t ∧ accepts m = true ∧ settings.selects (view m) = true) →
    again.messages = live.messages ∧ again.hasMore = live.hasMore := by
  intro request first answer later stored live again hclean hclean' hids htimes hstored
  have htracks : CacheTracks go first.1 first.2 :=
    (CacheTracks.new go initial).runCalls hframed hkey htrail before
  -- what is told apart by then was told apart before
  have hgrown : Grown go first.1 later.1 := Grown.runCalls go (first.1, answer.2) after
  have hsublist : (stored first.1).Sublist (stored later.1) :=
    ((hgrown.rows_sublist hframed hkey htrail (fun path hpath => (hclean.indexable hpath).1)
      fun path hpath => (hclean'.indexable hpath).1).map _).filter _
  have hdistinct : Distinct browser ((stored later.1).map view).toFinset :=
    distinct_of_nodup (by rwa [List.map_map]) (by rwa [List.map_map])
  have hnodup : ((stored later.1).map view).Nodup :=
    List.Nodup.of_map SyslogMessage.id (by rwa [List.map_map])
  have hunion : ((stored first.1).map view).toFinset
      ∪ ((((kept ch t).filter accepts).map view).filter (settings.selects ·)).toFinset
        = ((stored later.1).map view).toFinset := by
    ext m
    simp only [Finset.mem_union, List.mem_toFinset, List.mem_map, List.mem_filter, hstored]
    constructor
    · rintro (⟨a, ha, rfl⟩ | ⟨⟨a, ⟨hkept, haccepts⟩, rfl⟩, hselects⟩)
      · exact ⟨a, Or.inl ha, rfl⟩
      · exact ⟨a, Or.inr ⟨hkept, haccepts, hselects⟩, rfl⟩
    · rintro ⟨a, ha | ⟨hkept, haccepts, hselects⟩, rfl⟩
      · exact Or.inl ⟨a, ha, rfl⟩
      · exact Or.inr ⟨⟨a, ⟨hkept, haccepts⟩, rfl⟩, hselects⟩
  -- everything that was published is shown
  obtain ⟨accepts', hcompile, shown, hshown, -, hwhole⟩ := shows_handler hflat hstream
  obtain rfl := Except.ok.inj (hcompile.symm.trans hstreamed)
  have hkept : received ch t = kept ch t := by
    rw [← (htrace.told ch).delivered, hcaught, List.append_nil]
  rw [(hwhole hrunning).2, hread, hkept, ← htimed, List.forall₂_map_left_iff] at hshown
  obtain ⟨hopened, htracks'⟩ := refreshed_refresh lib hframed hkey htrail hlower horder
    hlisted hlimit htracks hclean (hnodup.sublist (hsublist.map view))
    (hdistinct.subset (hunion ▸ Finset.subset_union_left)) loaded app
  have hlive := hopened.receive hparse hshown (hunion ▸ hdistinct)
  rw [hunion] at hlive
  obtain ⟨hagain, -⟩ := refreshed_refresh lib hframed hkey htrail hlower horder hlisted
    hlimit (htracks'.runCalls hframed hkey htrail after) hclean' hnodup hdistinct now live
  exact ⟨hagain.messages.trans hlive.messages.symm, hagain.hasMore.trans hlive.hasMore.symm⟩

end

/-! ## A page of two hosts -/

/-- The JSON of a message of a host. -/
def pageText (id hostname text : String) (seconds : ℕ) : String :=
  "\x7b\"id\":\"" ++ id ++ "\",\"received_at\":\"0001-01-01T00:00:0" ++ toString seconds ++
    "Z\",\"hostname\":\"" ++ hostname ++ "\",\"message\":\"" ++ text ++ "\"\x7d"

/-- Two messages that are there when the page is loaded, and three that come in later, of which the
last one is older than some. -/
def pageTable : List (Message × String) :=
  [("one", "gw", "WAN down", 1), ("two", "ap", "wan lost", 3), ("three", "nas", "lan up", 4),
    ("four", "gw", "wan up", 5), ("five", "ap", "wan up", 2)].map fun (id, hostname, text, seconds) =>
      (hostMessage id hostname text seconds, pageText id hostname text seconds)

/-- The library that stores them. -/
def pageLib : GoLib := .ofLines (pageTable.map fun entry => (entry.1, utf8Bytes entry.2))

/-- `json.Marshal` on them. -/
def pageMarshal (msg : Message) : Option String :=
  (pageTable.find? fun entry => entry.1.alike msg).map Prod.snd

/-- The second of a time, up to the fifth. -/
def secondOf (t : Time) : ℕ :=
  if t < 2000000000 then 1
  else if t < 3000000000 then 2
  else if t < 4000000000 then 3
  else if t < 5000000000 then 4
  else 5

/-- The text of a second. -/
def secondText (n : ℕ) : String := "0001-01-01T00:00:0" ++ toString n ++ "Z"

/-- A message as the page holds it. -/
def pageView (msg : Message) : SyslogMessage where
  id := msg.id
  receivedAt := secondText (secondOf msg.receivedAt)
  hostname := some msg.hostname
  message := some msg.message

/-- A browser that reads them. -/
def pageBrowser : Browser where
  parse data := (pageTable.find? fun entry => entry.2 = data).map fun entry => pageView entry.1
  dateParse text :=
    ([1, 2, 3, 4, 5].find? fun n => secondText n = text).map fun n : ℕ => -62135596800000 + n * 1000
  trim := trimSpace
  localeSort := id

/-- The texts of the table are lines, without line ends, and they and the IDs are distinct; the
browser reads the times. -/
lemma pageTable_checks :
    (∀ entry ∈ pageTable, newline ∉ utf8Bytes entry.2 ∧ 13 ∉ utf8Bytes entry.2 ∧
      utf8Bytes entry.2 ≠ []) ∧
    (pageTable.map Prod.snd).Nodup ∧ (pageTable.map fun entry => entry.1.id).Nodup ∧
    ∀ n ∈ ([1, 2, 3, 4, 5] : List ℕ),
      pageBrowser.dateParse (secondText n) = some (-62135596800000 + (n : ℤ) * 1000) := by
  decide +kernel

lemma pageLib_framed : pageLib.Framed := by
  refine ofLines_framed fun entry hentry => ?_
  obtain ⟨row, hrow, rfl⟩ := List.mem_map.mp hentry
  obtain ⟨hfree, -, hne⟩ := pageTable_checks.1 row hrow
  exact ⟨hfree, hne⟩

lemma mem_of_pageMarshal {msg : Message} {data : String} (h : pageMarshal msg = some data) :
    ∃ entry ∈ pageTable, entry.2 = data ∧ entry.1.alike msg = true := by
  obtain ⟨entry, hfind, hdata⟩ := Option.map_eq_some_iff.mp h
  have halike := List.find?_some hfind
  exact ⟨entry, List.mem_of_find?_eq_some hfind, hdata, halike⟩

lemma pageMarshal_flat (msg : Message) (data : String) (h : pageMarshal msg = some data) :
    EventStream.Flat data.toList := by
  obtain ⟨entry, hentry, rfl, -⟩ := mem_of_pageMarshal h
  obtain ⟨hfeed, hreturn, -⟩ := pageTable_checks.1 entry hentry
  exact ⟨fun h => hfeed (mem_utf8Bytes h (by decide)), fun h => hreturn (mem_utf8Bytes h (by decide))⟩

lemma parse_pageMarshal (msg : Message) (data : String) (h : pageMarshal msg = some data) :
    pageBrowser.parse data = some (pageView msg) := by
  obtain ⟨entry, hentry, rfl, halike⟩ := mem_of_pageMarshal h
  obtain ⟨-, hnodup, -⟩ := pageTable_checks
  obtain ⟨found, hfind⟩ : ∃ found, (pageTable.find? fun e => e.2 = entry.2) = some found :=
    Option.isSome_iff_exists.mp (List.find?_isSome.mpr ⟨entry, hentry, decide_eq_true rfl⟩)
  have htext := List.find?_some hfind
  have hsame : found = entry := List.inj_on_of_nodup_map hnodup (List.mem_of_find?_eq_some hfind)
    hentry (of_decide_eq_true htext)
  have hview : pageView entry.1 = pageView msg := by
    simp only [Message.alike, Bool.and_eq_true, decide_eq_true_eq] at halike
    simp only [pageView, halike]
  simp only [pageBrowser, hfind, hsame, hview, Option.map_some]

lemma receivedAtMillis_pageView (msg : Message) : receivedAtMillis pageBrowser (pageView msg)
    = -62135596800000 + secondOf msg.receivedAt * 1000 := by
  obtain ⟨-, -, -, hread⟩ := pageTable_checks
  rw [receivedAtMillis, pageView, hread, Option.getD_some]
  rw [secondOf]
  split_ifs <;> decide

lemma keepsOrder_pageView : KeepsOrder pageBrowser pageView := by
  intro a b hle
  rw [receivedAtMillis_pageView, receivedAtMillis_pageView]
  have hseconds : secondOf a.receivedAt ≤ secondOf b.receivedAt := by
    simp only [secondOf]
    split_ifs <;> first | decide | linarith
  omega

/-- What there is of `wan` when the page is loaded. -/
def pageBefore : List StoreCall :=
  [.append 9000000000 .none (hostMessage "one" "gw" "WAN down" 1), .query {},
    .append 9000000000 .none (hostMessage "two" "ap" "wan lost" 3)]

/-- What comes in later. -/
def pageAfter : List StoreCall :=
  [.append 9000000000 .none (hostMessage "three" "nas" "lan up" 4),
    .append 9000000000 .none (hostMessage "four" "gw" "wan up" 5), .query { limit := 1 },
    .append 9000000000 .none (hostMessage "five" "ap" "wan up" 2)]

def loadedDisk : Disk := (runCalls pageLib (Disk.empty, FileStore.new) pageBefore).1

def laterDisk : Disk := (runCalls pageLib (loadedDisk, FileStore.new) pageAfter).1

/-- The filter for `wan`. -/
def pageFilter : Message → Bool := fun msg => "wan" = "" || matchesText pageLib msg "wan"

/-- The cases of the stream's handler. -/
def pageCases : List StreamCase :=
  [.message (hostMessage "three" "nas" "lan up" 4) none,
    .message (hostMessage "four" "gw" "wan up" 5) none, .heartbeat none,
    .message (hostMessage "five" "ap" "wan up" 2) none]

/-- The stream. -/
def pageStream : MessageStream :=
  streamLoop pageMarshal pageFilter (MessageStream.write {} ": connected\n\n".toList none) pageCases

/-- Two messages are in the buffer before the first one is read. -/
def pageTrace : List (System Message × Step Message) :=
  let three := hostMessage "three" "nas" "lan up" 4
  let four := hostMessage "four" "gw" "wan up" 5
  let five := hostMessage "five" "ap" "wan up" 2
  [(.new, .subscribe), (hubOf [], .publish three [0]), (hubOf [three], .publish four [0]),
    (hubOf [three, four], .receive 0), (hubOf [four], .publish five [0]),
    (hubOf [four, five], .receive 0), (hubOf [five], .receive 0)]

lemma pageTrace_trace : Trace pageTrace (hubOf []) := by
  have hsubscribe : Trace (pageTrace.take 1) (hubOf []) := Trace.start.step trivial rfl
  have hthree : Trace (pageTrace.take 2) (hubOf _) := hsubscribe.step ⟨by simp, by simp [hubOf]⟩ rfl
  have hfour : Trace (pageTrace.take 3) (hubOf _) := hthree.step ⟨by simp, by simp [hubOf]⟩ rfl
  have hread : Trace (pageTrace.take 4) (hubOf _) := hfour.step trivial rfl
  have hfive : Trace (pageTrace.take 5) (hubOf _) := hread.step ⟨by simp, by simp [hubOf]⟩ rfl
  have hagain : Trace (pageTrace.take 6) (hubOf _) := hfive.step trivial rfl
  exact hagain.step trivial rfl

lemma pageStream_running : pageStream.returned = false := by
  rfl

lemma pageStream_read : pageStream.read = received 0 pageTrace := by
  rfl

/-- Two hosts, and pages of two messages. -/
def pageSettings : Settings := ⟨["gw", "ap"], 2⟩

lemma mem_pageTable_of_matching {disk : Disk} {msg : Message}
    (h : msg ∈ matching pageLib pageBrowser pageSettings " wan " pageFilter disk) :
    ∃ entry ∈ pageTable, entry.1 = msg := by
  obtain ⟨row, hrow, rfl⟩ := List.mem_map.mp (List.mem_filter.mp h).1
  have hstored := (Sorting.desc_perm Row.key _).mem_iff.mp hrow
  obtain ⟨data, -, hdecode⟩ := readEntry_row (mem_storedRows.mp hstored).2
  obtain ⟨line, hline, hmessage⟩ := mem_of_ofLines_decode hdecode
  obtain ⟨entry, hentry, rfl⟩ := List.mem_map.mp hline
  exact ⟨entry, hentry, hmessage⟩

/-- A message of the table is told from the others by its ID. -/
lemma mem_iff_id_mem {messages : List Message}
    (hall : ∀ msg ∈ messages, ∃ entry ∈ pageTable, entry.1 = msg) {entry : Message × String}
    (hentry : entry ∈ pageTable) :
    entry.1 ∈ messages ↔ entry.1.id ∈ messages.map Message.id := by
  refine ⟨List.mem_map_of_mem, fun h => ?_⟩
  obtain ⟨msg, hmsg, hid⟩ := List.mem_map.mp h
  obtain ⟨found, hfound, rfl⟩ := hall msg hmsg
  obtain ⟨-, -, hnodup, -⟩ := pageTable_checks
  rwa [← List.inj_on_of_nodup_map hnodup hfound hentry hid]

lemma mem_pageTable_of_kept {msg : Message} (h : msg ∈ kept 0 pageTrace) :
    ∃ entry ∈ pageTable, entry.1 = msg := by
  have hkept : kept 0 pageTrace = (pageTable.drop 2).map Prod.fst := rfl
  rw [hkept] at h
  obtain ⟨entry, hentry, hmsg⟩ := List.mem_map.mp h
  exact ⟨entry, List.mem_of_mem_drop hentry, hmsg⟩

/-- The partitions there are when the page is loaded. -/
def loadedPaths : List String := ["0001/01/01/gw.ndjson", "0001/01/01/ap.ndjson"]

lemma loadedPaths_sorted : loadedPaths.Pairwise (· > ·) := by decide

/-- What the page asks for. -/
def pageQuery : Query where
  text := (listRequest pageBrowser pageSettings " wan ").q
  hosts := cleanQueryValues (listRequest pageBrowser pageSettings " wan ").host

lemma matching_eq {disk : Disk} {paths : List String} (hfiles : messageFiles disk = paths) :
    matching pageLib pageBrowser pageSettings " wan " pageFilter disk
      = (messagesOf pageLib disk paths).filter (wanted pageQuery pageFilter) :=
  listing_eq hfiles pageQuery pageFilter

/-- The directory when the page is loaded, and the one after the three messages. -/
lemma pageDisks_read :
    loadedDisk.reads pageLib loadedPaths = true ∧
    ((messagesOf pageLib loadedDisk loadedPaths).filter (wanted pageQuery pageFilter)).map Message.id
      = ["two", "one"] ∧
    laterDisk.reads pageLib hostPaths = true ∧
    ((messagesOf pageLib laterDisk hostPaths).filter (wanted pageQuery pageFilter)).map
        (fun msg => (msg.id, msg.receivedAt))
      = [("four", 5000000000), ("two", 3000000000), ("five", 2000000000), ("one", 1000000000)] := by
  decide +kernel

lemma ids_loadedDisk : (matching pageLib pageBrowser pageSettings " wan " pageFilter
    loadedDisk).map Message.id = ["two", "one"] := by
  rw [matching_eq (messageFiles_of_reads loadedPaths_sorted pageDisks_read.1)]
  exact pageDisks_read.2.1

lemma ids_times_laterDisk : (matching pageLib pageBrowser pageSettings " wan " pageFilter
    laterDisk).map (fun msg => (msg.id, msg.receivedAt))
      = [("four", 5000000000), ("two", 3000000000), ("five", 2000000000), ("one", 1000000000)] := by
  rw [matching_eq (messageFiles_of_reads hostPaths_sorted pageDisks_read.2.2.1)]
  exact pageDisks_read.2.2.2

lemma ids_laterDisk : (matching pageLib pageBrowser pageSettings " wan " pageFilter
    laterDisk).map Message.id = ["four", "two", "five", "one"] := by
  have hids := congrArg (List.map Prod.fst) ids_times_laterDisk
  rw [List.map_map] at hids
  exact hids

lemma times_laterDisk : (matching pageLib pageBrowser pageSettings " wan " pageFilter
    laterDisk).map Message.receivedAt = [5000000000, 3000000000, 2000000000, 1000000000] := by
  have htimes := congrArg (List.map Prod.snd) ids_times_laterDisk
  rw [List.map_map] at htimes
  exact htimes

/-- What matches in the end is what matched when the page was loaded and what was published and
accepted. -/
lemma mem_matching_laterDisk (msg : Message) :
    msg ∈ matching pageLib pageBrowser pageSettings " wan " pageFilter laterDisk ↔
      msg ∈ matching pageLib pageBrowser pageSettings " wan " pageFilter loadedDisk ∨
        msg ∈ kept 0 pageTrace ∧ pageFilter msg = true ∧
          pageSettings.selects (pageView msg) = true := by
  have hids : ∀ entry ∈ pageTable, entry.1.id ∈ ["four", "two", "five", "one"] ↔
      entry.1.id ∈ ["two", "one"] ∨ entry.1.id ∈ ["three", "four", "five"] ∧
        pageFilter entry.1 = true ∧ pageSettings.selects (pageView entry.1) = true := by
    decide +kernel
  have hkept : (kept 0 pageTrace).map Message.id = ["three", "four", "five"] := rfl
  have hiff : ∀ entry ∈ pageTable,
      (entry.1 ∈ matching pageLib pageBrowser pageSettings " wan " pageFilter laterDisk ↔
        entry.1 ∈ matching pageLib pageBrowser pageSettings " wan " pageFilter loadedDisk ∨
          entry.1 ∈ kept 0 pageTrace ∧ pageFilter entry.1 = true ∧
            pageSettings.selects (pageView entry.1) = true) := by
    intro entry hentry
    rw [mem_iff_id_mem (fun _ => mem_pageTable_of_matching) hentry,
      mem_iff_id_mem (fun _ => mem_pageTable_of_matching) hentry,
      mem_iff_id_mem (fun _ => mem_pageTable_of_kept) hentry, ids_laterDisk, ids_loadedDisk, hkept]
    exact hids entry hentry
  constructor
  · intro h
    obtain ⟨entry, hentry, rfl⟩ := mem_pageTable_of_matching h
    exact (hiff entry hentry).mp h
  · intro h
    obtain ⟨entry, hentry, rfl⟩ : ∃ entry ∈ pageTable, entry.1 = msg := by
      rcases h with h | ⟨h, -⟩
      · exact mem_pageTable_of_matching h
      · exact mem_pageTable_of_kept h
    exact (hiff entry hentry).mpr h

/-- The events of the stream, as they come in. -/
def pageTimed : List (EventStream.Event × Time) :=
  (EventStream.events pageStream.written).map fun e => (e, 0)

/-- Three messages come in while the page is open, of which it shows one and leaves out one that is
of another host and one that is older than what it shows; there is more then. -/
theorem live_page_refreshed_pageTable :
    let request := listRequest pageBrowser pageSettings " wan "
    let first := runCalls pageLib (Disk.empty, FileStore.new) pageBefore
    let answer := handleMessages sampleQueryLib pageLib first.2 first.1 request
    let later := runCalls pageLib (first.1, answer.2) pageAfter
    let live := pageTimed.foldl (receive pageBrowser pageSettings)
      (refresh pageBrowser pageSettings 0 ⟨[], false, [], none, none⟩
        (listMessages pageView answer.1))
    let again := refresh pageBrowser pageSettings 0 live
      (listMessages pageView (handleMessages sampleQueryLib pageLib later.2 later.1 request).1)
    again.messages = live.messages ∧ again.hasMore = live.hasMore := by
  intro request first answer later live again
  have hlater : later.1 = laterDisk := disk_runCalls pageLib pageAfter _ _ _
  have hlisted : compileTextFilter pageLib (pageBrowser.trim " wan ") = .ok pageFilter := by
    have htrim : Text.trimSpace (pageBrowser.trim " wan ").toList = "wan".toList := by decide
    simp only [compileTextFilter, htrim]
    rfl
  have hstreamed : compileTextFilter pageLib " wan " = .ok pageFilter := by
    have htrim : Text.trimSpace " wan ".toList = "wan".toList := by decide
    simp only [compileTextFilter, htrim]
    rfl
  have hstream : handleMessageStream pageLib pageMarshal true true " wan " none pageCases
      = .ok pageStream := by
    rw [handleMessageStream, hstreamed]
    rfl
  have hclean : loadedDisk.Clean pageLib := lines_of_reads loadedPaths_sorted pageDisks_read.1
  have hclean' : laterDisk.Clean pageLib := lines_of_reads hostPaths_sorted pageDisks_read.2.2.1
  refine live_page_refreshed sampleQueryLib pageLib pageLib_framed ofLines_keyAgrees
    ofLines_rejectsTrailing ofLines_lowerKeepsBlank pageMarshal pageMarshal_flat pageBrowser
    pageView parse_pageMarshal keepsOrder_pageView pageSettings ⟨by decide, by decide⟩ " wan "
    pageFilter hlisted hstreamed Disk.empty pageBefore pageAfter ⟨[], false, [], none, none⟩ 0 0
    true true none pageCases pageStream hstream pageStream_running pageTrace_trace 0
    pageStream_read rfl pageTimed ?_ hclean (hlater ▸ hclean') ?_ ?_ ?_
  · rw [pageTimed, List.map_map]
    exact List.map_id _
  · rw [hlater]
    exact ids_laterDisk ▸ (by decide : ["four", "two", "five", "one"].Nodup)
  · rw [hlater]
    have hmillis := congrArg (List.map fun t => -62135596800000 + (secondOf t : ℤ) * 1000)
      times_laterDisk
    rw [List.map_map] at hmillis
    simp only [receivedAtMillis_pageView]
    exact hmillis ▸ (by decide)
  · rw [hlater]
    exact mem_matching_laterDisk

end Logthing.Frontend
