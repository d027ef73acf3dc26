import Mathlib.Algebra.Order.Group.Int
import Mathlib.Data.Finset.Sort
import Mathlib.Data.List.Sort
import Logthing.Core.Sorting
import Logthing.Model.Message

/-!
# The live window

The first page of the message list is kept up to date from the stream: `handleMessage` puts each
message into the visible list, takes out an older copy of it, sorts and truncates.  The page is
meant to be what a refresh would show, that is, the latest `limit` of all matching messages and
whether there are more of them.

**Main results.**

* `refreshed_overfetch`: what the server answers is the latest page of the matching messages.
* `live_window_refreshed`: after any sequence of live messages the window is the page of the
  messages there are by then.
-/

namespace Logthing.Frontend

/-- `SyslogMessage`. -/
structure SyslogMessage where
  id : String
  receivedAt : String
  timestamp : Option String := none
  transport : Option String := none
  source : Option String := none
  priority : Option ℤ := none
  facility : Option ℤ := none
  severity : Option ℤ := none
  hostname : Option String := none
  appName : Option String := none
  procID : Option String := none
  msgID : Option String := none
  tag : Option String := none
  message : Option String := none
  structuredData : JsonMap := none
  raw : JsonMap := none

/-- The functions of the browser the page is written with. -/
structure Browser where
  /-- `JSON.parse(data) as SyslogMessage`. -/
  parse : String → Option SyslogMessage
  /-- `Date.parse`, without a value where it gives `NaN`. -/
  dateParse : String → Option ℤ
  /-- `String.prototype.trim`. -/
  trim : String → String
  /-- `sort((a, b) => a.localeCompare(b))`. -/
  localeSort : List String → List String

/-- The state of the page that live messages change. -/
structure App where
  messages : List SyslogMessage
  hasMore : Bool
  knownHosts : List String
  lastUpdated : Option Time
  error : Option String

/-- What the user has set. -/
structure Settings where
  selectedHosts : List String
  calculatedLimit : ℕ

/-- `sortedUniqueHosts`. -/
def sortedUniqueHosts (browser : Browser) (hosts : List String) : List String :=
  browser.localeSort ((hosts.map browser.trim).filter (· ≠ "")).eraseDups

/-- `receivedAtMillis`. -/
def receivedAtMillis (browser : Browser) (message : SyslogMessage) : ℤ :=
  (browser.dateParse message.receivedAt).getD 0

/-- `compareMessagesLatestFirst`. -/
def compareMessagesLatestFirst (browser : Browser) (left right : SyslogMessage) : ℤ :=
  receivedAtMillis browser right - receivedAtMillis browser left

/-- `sort(compareMessagesLatestFirst)`, which is stable. -/
def sortLatestFirst (browser : Browser) (messages : List SyslogMessage) : List SyslogMessage :=
  messages.mergeSort fun left right => compareMessagesLatestFirst browser left right ≤ 0

/-- Whether a message is of the selected hosts. -/
def Settings.selects (settings : Settings) (message : SyslogMessage) : Bool :=
  settings.selectedHosts.length = 0 ||
    settings.selectedHosts.contains (message.hostname.getD "")

/-- `handleMessage`. -/
def handleMessage (browser : Browser) (settings : Settings) (now : Time) (app : App)
    (data : String) : App :=
  match browser.parse data with
  | none => { app with error := some "Received an invalid live message event" }
  | some message =>
      let app := { app with
        knownHosts := sortedUniqueHosts browser (app.knownHosts ++ [message.hostname.getD ""])
        lastUpdated := some now }
      if settings.selects message = false then app
      else
        let merged := sortLatestFirst browser
          (message :: app.messages.filter fun existing => existing.id ≠ message.id)
        { app with
          messages := merged.take settings.calculatedLimit
          hasMore := app.hasMore || settings.calculatedLimit < merged.length }

/-- The overfetch of `handleMessages`: the page of a query that found `rows`, latest first, and
whether there are more. -/
def overfetch (rows : List SyslogMessage) (limit : ℕ) : List SyslogMessage × Bool :=
  let messages := rows.take (limit + 1)
  let hasMore := limit < messages.length
  (if hasMore then messages.take limit else messages, hasMore)

/-! ## What a refresh shows -/

section Window

open Classical

variable (browser : Browser)

/-- Messages that their ids tell apart, and their times to the millisecond. -/
structure Distinct (all : Finset SyslogMessage) : Prop where
  ids : Set.InjOn SyslogMessage.id all
  times : Set.InjOn (receivedAtMillis browser) all

/-- The messages, latest first. -/
noncomputable def latestFirst (all : Finset SyslogMessage) : List SyslogMessage :=
  Sorting.desc (receivedAtMillis browser) all.toList

/-- The page shows the latest messages of `all`, and whether there are more. -/
structure Refreshed (limit : ℕ) (all : Finset SyslogMessage) (app : App) : Prop where
  messages : app.messages = (latestFirst browser all).take limit
  hasMore : app.hasMore = decide (limit < all.card)

variable {browser}

lemma Distinct.subset {all all' : Finset SyslogMessage} (h : Distinct browser all')
    (hsub : all ⊆ all') : Distinct browser all :=
  ⟨h.ids.mono (Finset.coe_subset.mpr hsub), h.times.mono (Finset.coe_subset.mpr hsub)⟩

lemma sortLatestFirst_eq (messages : List SyslogMessage) :
    sortLatestFirst browser messages = Sorting.desc (receivedAtMillis browser) messages := by
  have hle : ∀ a b : ℤ, a - b ≤ 0 ↔ a ≤ b := fun a b => by omega
  simp only [sortLatestFirst, Sorting.desc, compareMessagesLatestFirst, hle]

lemma mem_latestFirst {all : Finset SyslogMessage} {m : SyslogMessage} :
    m ∈ latestFirst browser all ↔ m ∈ all := by
  rw [latestFirst, (Sorting.desc_perm _ _).mem_iff, Finset.mem_toList]

lemma length_latestFirst (all : Finset SyslogMessage) :
    (latestFirst browser all).length = all.card := by
  rw [latestFirst, (Sorting.desc_perm _ _).length_eq, Finset.length_toList]

/-- The only list of the messages in decreasing order of their times. -/
lemma latestFirst_eq {all : Finset SyslogMessage} (h : Distinct browser all)
    {l : List SyslogMessage} (hperm : l.Perm all.toList)
    (hsorted : l.Pairwise fun a b => receivedAtMillis browser b ≤ receivedAtMillis browser a) :
    latestFirst browser all = l :=
  Sorting.desc_eq_of_perm _ hperm.symm hsorted fun _ ha _ hb hkey =>
    h.times (Finset.mem_toList.mp ha) (Finset.mem_toList.mp hb) hkey

lemma pairwise_latestFirst (all : Finset SyslogMessage) :
    (latestFirst browser all).Pairwise fun a b =>
      receivedAtMillis browser b ≤ receivedAtMillis browser a :=
  Sorting.pairwise_desc _ _

lemma nodup_latestFirst (all : Finset SyslogMessage) : (latestFirst browser all).Nodup :=
  (Sorting.desc_perm _ _).nodup_iff.mpr all.nodup_toList

/-- A refresh shows the page of the messages the server finds. -/
lemma refreshed_overfetch (limit : ℕ) (all : Finset SyslogMessage) (app : App)
    (h : (app.messages, app.hasMore) = overfetch (latestFirst browser all) limit) :
    Refreshed browser limit all app := by
  have hmore : (limit < ((latestFirst browser all).take (limit + 1)).length) ↔ limit < all.card := by
    rw [List.length_take, length_latestFirst]
    omega
  simp only [overfetch, Prod.mk.injEq] at h
  refine ⟨?_, h.2.trans (by simp only [hmore])⟩
  rw [h.1]
  split_ifs with hlt
  · rw [List.take_take, Nat.min_eq_left (by omega)]
  · have hall : (latestFirst browser all).length ≤ limit := by
      rw [length_latestFirst]
      exact not_lt.mp (mt hmore.mpr (by simpa using hlt))
    rw [List.take_of_length_le hall, List.take_of_length_le (by omega)]

/-! ## One live message -/

/-- What `handleMessage` does with a message of a selected host. -/
lemma handleMessage_selected (settings : Settings) (now : Time) (app : App) {data : String}
    {m : SyslogMessage} (hparse : browser.parse data = some m)
    (hselects : settings.selects m = true) :
    (handleMessage browser settings now app data).messages
        = (Sorting.desc (receivedAtMillis browser)
          (m :: app.messages.filter fun existing => existing.id ≠ m.id)).take
            settings.calculatedLimit ∧
      (handleMessage browser settings now app data).hasMore
        = (app.hasMore || settings.calculatedLimit <
          (app.messages.filter fun existing => existing.id ≠ m.id).length + 1) := by
  have hlength : ∀ l : List SyslogMessage,
      (Sorting.desc (receivedAtMillis browser) l).length = l.length := fun l =>
    (Sorting.desc_perm _ l).length_eq
  rw [handleMessage, hparse]
  simp only [hselects, Bool.true_eq_false, if_false, sortLatestFirst_eq, hlength,
    List.length_cons, and_self]

/-- What is visible is among the messages there are. -/
lemma Refreshed.mem_of_mem {limit : ℕ} {all : Finset SyslogMessage} {app : App}
    (h : Refreshed browser limit all app) {m : SyslogMessage} (hm : m ∈ app.messages) :
    m ∈ all := by
  rw [h.messages] at hm
  exact mem_latestFirst.mp (List.mem_of_mem_take hm)

lemma Refreshed.length {limit : ℕ} {all : Finset SyslogMessage} {app : App}
    (h : Refreshed browser limit all app) : app.messages.length = min limit all.card := by
  rw [h.messages, List.length_take, length_latestFirst]

/-- A message that is not visible has no older copy to take out. -/
lemma Refreshed.filter_eq {limit : ℕ} {all : Finset SyslogMessage} {app : App}
    (h : Refreshed browser limit all app) {m : SyslogMessage}
    (hdistinct : Distinct browser (insert m all)) (hm : m ∉ app.messages) :
    (app.messages.filter fun existing => existing.id ≠ m.id) = app.messages := by
  rw [List.filter_eq_self]
  intro x hx
  rw [decide_eq_true_eq]
  intro hid
  have hxm : x = m := hdistinct.ids (Finset.mem_insert_of_mem (h.mem_of_mem hx))
    (Finset.mem_insert_self m all) hid
  exact hm (hxm ▸ hx)

lemma Distinct.desc_eq {all : Finset SyslogMessage} (h : Distinct browser all)
    {l l' : List SyslogMessage} (hl : ∀ x ∈ l, x ∈ all) (hperm : l.Perm l')
    (hsorted : l'.Pairwise fun a b => receivedAtMillis browser b ≤ receivedAtMillis browser a) :
    Sorting.desc (receivedAtMillis browser) l = l' :=
  Sorting.desc_eq_of_perm _ hperm hsorted fun a ha b hb hkey => h.times (hl a ha) (hl b hb) hkey

/-- A message that is not there yet is put in its place, or cut off if it is too old. -/
lemma Refreshed.insert_new {settings : Settings} {all : Finset SyslogMessage} {app : App}
    (h : Refreshed browser settings.calculatedLimit all app) {m : SyslogMessage}
    (hdistinct : Distinct browser (insert m all)) (hm : m ∉ all) (now : Time) {data : String}
    (hparse : browser.parse data = some m) (hselects : settings.selects m = true) :
    Refreshed browser settings.calculatedLimit (insert m all)
      (handleMessage browser settings now app data) := by
  obtain ⟨hmessages, hmore⟩ := handleMessage_selected settings now app hparse hselects
  rw [h.filter_eq hdistinct fun hmem => hm (h.mem_of_mem hmem)] at hmessages hmore
  let later := fun a b : SyslogMessage => receivedAtMillis browser b ≤ receivedAtMillis browser a
  have htotal : Std.Total later := ⟨fun a b => le_total _ _⟩
  have htrans : IsTrans SyslogMessage later := ⟨fun a b c hab hbc => le_trans hbc hab⟩
  have hvisible : app.messages.Pairwise later := by
    rw [h.messages]
    exact (pairwise_latestFirst all).take
  have hmerged : Sorting.desc (receivedAtMillis browser) (m :: app.messages)
      = app.messages.orderedInsert later m := by
    refine hdistinct.desc_eq (fun x hx => ?_) (List.perm_orderedInsert later m _).symm
      (hvisible.orderedInsert m _)
    rcases List.mem_cons.mp hx with rfl | hx
    · exact Finset.mem_insert_self _ _
    · exact Finset.mem_insert_of_mem (h.mem_of_mem hx)
  have hall : latestFirst browser (insert m all)
      = (latestFirst browser all).orderedInsert later m := by
    refine latestFirst_eq hdistinct ?_ ((pairwise_latestFirst all).orderedInsert m _)
    exact (List.perm_orderedInsert later m _).trans
      (((Sorting.desc_perm _ _).cons m).trans (Finset.toList_insert hm).symm)
  refine ⟨?_, ?_⟩
  · rw [hmessages, hmerged, hall, h.messages, Sorting.take_orderedInsert]
  · rw [hmore, h.hasMore, h.length, Finset.card_insert_of_notMem hm, ← Bool.decide_or,
      decide_eq_decide]
    omega

/-- A visible message replaces its copy, which is the same. -/
lemma Refreshed.again_visible {settings : Settings} {all : Finset SyslogMessage} {app : App}
    (h : Refreshed browser settings.calculatedLimit all app) {m : SyslogMessage}
    (hdistinct : Distinct browser all) (hm : m ∈ app.messages) (now : Time) {data : String}
    (hparse : browser.parse data = some m) (hselects : settings.selects m = true) :
    Refreshed browser settings.calculatedLimit all
      (handleMessage browser settings now app data) := by
  obtain ⟨hmessages, hmore⟩ := handleMessage_selected settings now app hparse hselects
  have hnodup : app.messages.Nodup := by
    rw [h.messages]
    exact (nodup_latestFirst all).sublist (List.take_sublist _ _)
  have hfilter : (app.messages.filter fun existing => existing.id ≠ m.id)
      = app.messages.erase m := by
    rw [hnodup.erase_eq_filter]
    refine List.filter_congr fun x hx => ?_
    rw [Bool.eq_iff_iff, decide_eq_true_eq, bne_iff_ne]
    exact not_congr ⟨fun hid => hdistinct.ids (h.mem_of_mem hx) (h.mem_of_mem hm) hid,
      fun heq => heq ▸ rfl⟩
  have hperm : (m :: app.messages.erase m).Perm app.messages := (List.perm_cons_erase hm).symm
  have hsorted : Sorting.desc (receivedAtMillis browser) (m :: app.messages.erase m)
      = app.messages := by
    refine hdistinct.desc_eq (fun x hx => h.mem_of_mem (hperm.mem_iff.mp hx)) hperm ?_
    rw [h.messages]
    exact (pairwise_latestFirst all).take
  have hlength : (app.messages.erase m).length + 1 = app.messages.length := by
    simpa using hperm.length_eq
  rw [hfilter] at hmessages hmore
  refine ⟨?_, ?_⟩
  · rw [hmessages, hsorted, h.messages, List.take_take, Nat.min_self]
  · rw [hmore, h.hasMore, hlength, h.length, ← Bool.decide_or, decide_eq_decide]
    omega

/-- A message behind the window is sorted behind what is visible and cut off. -/
lemma Refreshed.again_hidden {settings : Settings} {all : Finset SyslogMessage} {app : App}
    (h : Refreshed browser settings.calculatedLimit all app) {m : SyslogMessage}
    (hdistinct : Distinct browser all) (hm : m ∈ all) (hhidden : m ∉ app.messages) (now : Time)
    {data : String} (hparse : browser.parse data = some m) (hselects : settings.selects m = true) :
    Refreshed browser settings.calculatedLimit all
      (handleMessage browser settings now app data) := by
  obtain ⟨hmessages, hmore⟩ := handleMessage_selected settings now app hparse hselects
  rw [h.filter_eq (by rwa [Finset.insert_eq_of_mem hm]) hhidden] at hmessages hmore
  have hbehind : m ∈ (latestFirst browser all).drop settings.calculatedLimit := by
    have hmem : m ∈ latestFirst browser all := mem_latestFirst.mpr hm
    rw [← List.take_append_drop settings.calculatedLimit (latestFirst browser all),
      List.mem_append, ← h.messages] at hmem
    exact hmem.resolve_left hhidden
  have hlimit : settings.calculatedLimit < all.card := by
    have hcard : (latestFirst browser all).length = all.card := length_latestFirst all
    rw [← hcard, ← not_le]
    intro hle
    rw [List.drop_of_length_le hle] at hbehind
    exact absurd hbehind List.not_mem_nil
  have hlength : app.messages.length = settings.calculatedLimit := by
    rw [h.length, Nat.min_eq_left hlimit.le]
  have hsorted : Sorting.desc (receivedAtMillis browser) (m :: app.messages)
      = app.messages ++ [m] := by
    refine hdistinct.desc_eq (fun x hx => ?_) (List.perm_append_singleton m _).symm ?_
    · rcases List.mem_cons.mp hx with rfl | hx
      · exact hm
      · exact h.mem_of_mem hx
    · have hpairwise : (latestFirst browser all).Pairwise _ := pairwise_latestFirst all
      rw [← List.take_append_drop settings.calculatedLimit (latestFirst browser all),
        ← h.messages, List.pairwise_append] at hpairwise
      rw [List.pairwise_append]
      refine ⟨hpairwise.1, List.pairwise_singleton _ _, fun x hx y hy => ?_⟩
      rw [List.mem_singleton.mp hy]
      exact hpairwise.2.2 x hx m hbehind
  refine ⟨?_, ?_⟩
  · rw [hmessages, hsorted, List.take_left' hlength, h.messages]
  · rw [hmore, hlength]
    simp [hlimit]

/-- **One live message** takes the page of the messages there were to the page of the messages
there are with it. -/
lemma Refreshed.handleMessage {settings : Settings} {all : Finset SyslogMessage} {app : App}
    (h : Refreshed browser settings.calculatedLimit all app) {m : SyslogMessage}
    (hdistinct : Distinct browser (insert m all)) (now : Time) {data : String}
    (hparse : browser.parse data = some m) (hselects : settings.selects m = true) :
    Refreshed browser settings.calculatedLimit (insert m all)
      (handleMessage browser settings now app data) := by
  by_cases hm : m ∈ all
  · rw [Finset.insert_eq_of_mem hm] at hdistinct ⊢
    by_cases hvisible : m ∈ app.messages
    · exact h.again_visible hdistinct hvisible now hparse hselects
    · exact h.again_hidden hdistinct hm hvisible now hparse hselects
  · exact h.insert_new hdistinct hm now hparse hselects

/-! ## Any sequence -/

/-- An event of the stream: its data, when it is handled, and the message it carries. -/
structure LiveEvent where
  data : String
  now : Time
  message : SyslogMessage

/-- **The live window is what a refresh would show**: from the page of the messages of `all`, and
whatever messages then arrive in whatever order, new ones, visible ones or ones behind the window,
the page is that of `all` and what has arrived. -/
theorem live_window_refreshed {settings : Settings} {all : Finset SyslogMessage} {app : App}
    (h : Refreshed browser settings.calculatedLimit all app) (events : List LiveEvent)
    (hparse : ∀ e ∈ events, browser.parse e.data = some e.message)
    (hselects : ∀ e ∈ events, settings.selects e.message = true)
    (hdistinct : Distinct browser (all ∪ (events.map LiveEvent.message).toFinset)) :
    Refreshed browser settings.calculatedLimit (all ∪ (events.map LiveEvent.message).toFinset)
      (events.foldl (fun app e => Frontend.handleMessage browser settings e.now app e.data) app) := by
  induction events generalizing all app with
  | nil => simpa using h
  | cons e events ih =>
      have hunion : all ∪ ((e :: events).map LiveEvent.message).toFinset
          = insert e.message all ∪ (events.map LiveEvent.message).toFinset := by
        rw [List.map_cons, List.toFinset_cons, Finset.union_insert, Finset.insert_union]
      rw [hunion] at hdistinct ⊢
      rw [List.forall_mem_cons] at hparse hselects
      have hstep := h.handleMessage (hdistinct.subset Finset.subset_union_left) e.now hparse.1
        hselects.1
      exact ih hstep hparse.2 hselects.2 hdistinct

/-- A browser that knows two messages. -/
def sampleBrowser : Browser where
  parse data :=
    if data = "one" then some { id := "one", receivedAt := "2026-01-01T00:00:01Z" }
    else if data = "two" then some { id := "two", receivedAt := "2026-01-01T00:00:02Z" }
    else none
  dateParse text :=
    if text = "2026-01-01T00:00:01Z" then some 1000
    else if text = "2026-01-01T00:00:02Z" then some 2000
    else none
  trim := id
  localeSort := id

/-- The two messages, the later one first. -/
def sampleEvents : List LiveEvent :=
  [⟨"two", 0, { id := "two", receivedAt := "2026-01-01T00:00:02Z" }⟩,
    ⟨"one", 0, { id := "one", receivedAt := "2026-01-01T00:00:01Z" }⟩]

lemma sampleEvents_distinct :
    Distinct sampleBrowser (∅ ∪ (sampleEvents.map LiveEvent.message).toFinset) := by
  have hmem : ∀ x : SyslogMessage, x ∈ (∅ ∪ (sampleEvents.map LiveEvent.message).toFinset :
      Finset SyslogMessage) → x = { id := "two", receivedAt := "2026-01-01T00:00:02Z" } ∨
        x = { id := "one", receivedAt := "2026-01-01T00:00:01Z" } := by
    simp [sampleEvents]
  constructor
  · intro a ha b hb hab
    rcases hmem a ha with rfl | rfl <;> rcases hmem b hb with rfl | rfl
    all_goals first
      | rfl
      | exact absurd hab (by decide)
  · intro a ha b hb hab
    rcases hmem a ha with rfl | rfl <;> rcases hmem b hb with rfl | rfl
    all_goals first
      | rfl
      | exact absurd hab (by decide)

/-- A page with room for one message, on which two arrive. -/
theorem live_window_refreshed_two :
    Refreshed sampleBrowser 1 (∅ ∪ (sampleEvents.map LiveEvent.message).toFinset)
      (sampleEvents.foldl
        (fun app e => handleMessage sampleBrowser ⟨[], 1⟩ e.now app e.data)
        ⟨[], false, [], none, none⟩) := by
  have hempty : Refreshed sampleBrowser (Settings.mk [] 1).calculatedLimit ∅
      ⟨[], false, [], none, none⟩ := ⟨by simp [latestFirst, Sorting.desc], by simp⟩
  have hparse : ∀ e ∈ sampleEvents, sampleBrowser.parse e.data = some e.message := by
    simp [sampleEvents, sampleBrowser]
  exact live_window_refreshed hempty sampleEvents hparse (fun _ _ => rfl) sampleEvents_distinct

end Window

end Logthing.Frontend
