import Logthing.Incidents.Rebuilding
import Mathlib.Logic.Equiv.List

/-!
# Runs of the incident engine

`Operation` is a call of one of the operations that change the engine, with everything it takes
from its environment: the orders of its loops and the outcome of its save.  `Service.run` is a
list of calls, one after another.

**Main results.**  `outagesMatch_run` states the representation invariant of `Consistent` on every
snapshot that a run from `New` can reach.
-/

namespace Logthing

/-! ## Runs -/

/-- A call that changes the engine. -/
inductive Operation where
  | observe (orders : Schedule) (message : Message) (notifyEligible : Bool) (outcome : SaveOutcome)
  | apply (orders : ℕ → Schedule) (observations : List Observation)
      (cursors : Dict String Cursor) (checkpointAt : Time) (outcome : SaveOutcome)
  | tick (orders : Schedule) (now : Time) (outcome : SaveOutcome)
  | rebuild (orders : ℕ → Schedule) (after : RebuildOrders) (observations : List Observation)
      (cursors : Dict String Cursor) (checkpointAt : Time) (outcome : SaveOutcome)
  | markNotificationSent (id adapter externalID : String) (at_ : Time) (outcome : SaveOutcome)
  | markNotificationFailed (id message : String) (next : Time) (permanent : Bool)
      (outcome : SaveOutcome)
  | setCursors (cursors : Dict String Cursor) (outcome : SaveOutcome)

/-- The engine after a call. -/
def Service.call (eng : Engine) (svc : Service) : Operation → Service
  | .observe orders message notifyEligible outcome =>
      (svc.observe eng orders message notifyEligible outcome).1
  | .apply orders observations cursors checkpointAt outcome =>
      (svc.apply eng orders observations cursors checkpointAt outcome).1
  | .tick orders now outcome => (svc.tick eng orders now outcome).1
  | .rebuild orders after observations cursors checkpointAt outcome =>
      (svc.rebuild eng orders after observations cursors checkpointAt outcome).1
  | .markNotificationSent id adapter externalID at_ outcome =>
      (svc.markNotificationSent id adapter externalID at_ outcome).1
  | .markNotificationFailed id message next permanent outcome =>
      (svc.markNotificationFailed id message next permanent outcome).1
  | .setCursors cursors outcome => (svc.setCursors cursors outcome).1

/-- The engine after a list of calls. -/
def Service.run (eng : Engine) (svc : Service) (ops : List Operation) : Service :=
  ops.foldl (Service.call eng) svc

/-! ## What each call does to the state -/

@[simp] lemma Service.save_state (outcome : SaveOutcome) (svc : Service) :
    (svc.save outcome).1.state = svc.state := by
  cases outcome with
  | none => rfl
  | some err => rfl

@[simp] lemma Service.observe_state (eng : Engine) (orders : Schedule) (message : Message)
    (notifyEligible : Bool) (outcome : SaveOutcome) (svc : Service) :
    (svc.observe eng orders message notifyEligible outcome).1.state
      = observeLocked eng orders message notifyEligible "" svc.state := by
  rw [Service.observe, Service.save_state]

@[simp] lemma Service.apply_state (eng : Engine) (orders : ℕ → Schedule) (os : List Observation)
    (cursors : Dict String Cursor) (checkpointAt : Time) (outcome : SaveOutcome) (svc : Service) :
    (svc.apply eng orders os cursors checkpointAt outcome).1.state
      = { observeAll eng orders os svc.state with
          cursors, bootstrapped := true, lastCheckpointAt := checkpointAt } := by
  rw [Service.apply, Service.save_state]

@[simp] lemma Service.tick_state (eng : Engine) (orders : Schedule) (now : Time)
    (outcome : SaveOutcome) (svc : Service) :
    (svc.tick eng orders now outcome).1.state = (advance eng.interface orders now svc.state).1 := by
  simp only [Service.tick]
  split_ifs
  · rw [Service.save_state]
  · rfl

@[simp] lemma Service.setCursors_state (cursors : Dict String Cursor) (outcome : SaveOutcome)
    (svc : Service) :
    (svc.setCursors cursors outcome).1.state = { svc.state with cursors } := by
  rw [Service.setCursors, Service.save_state]

/-- The state `Rebuild` observes into. -/
def emptySnapshot (cursors : Dict String Cursor) (checkpointAt : Time) : Snapshot :=
  { bootstrapped := true, lastCheckpointAt := checkpointAt, cursors }

@[simp] lemma Service.rebuild_state (eng : Engine) (orders : ℕ → Schedule) (after : RebuildOrders)
    (os : List Observation) (cursors : Dict String Cursor) (checkpointAt : Time)
    (outcome : SaveOutcome) (svc : Service) :
    (svc.rebuild eng orders after os cursors checkpointAt outcome).1.state
      = restore eng.interface after svc.state
          (observeAll eng orders os (emptySnapshot cursors checkpointAt)) := by
  rw [Service.rebuild, Service.save_state]
  rfl

/-- Marking a job changes that job at most. -/
lemma Service.markJob_state (id : String) (change : NotificationJob → NotificationJob)
    (outcome : SaveOutcome) (svc : Service) :
    ∃ jobs, (svc.markJob id change outcome).1.state = { svc.state with jobs } := by
  rw [Service.markJob]
  cases hjob : svc.state.jobs.lookup id with
  | none => exact ⟨svc.state.jobs, rfl⟩
  | some previous =>
      cases outcome with
      | none => exact ⟨_, rfl⟩
      | some err => exact ⟨_, rfl⟩

/-! ## The invariant of every run -/

/-- **Every call keeps the invariant.** -/
lemma Consistent.call {eng : Engine} {svc : Service} (h : Consistent eng svc.state.view)
    (op : Operation) : Consistent eng (svc.call eng op).state.view := by
  have hmark : ∀ id change outcome, Consistent eng (svc.markJob id change outcome).1.state.view := by
    intro id change outcome
    obtain ⟨jobs, hstate⟩ := svc.markJob_state id change outcome
    rw [hstate]
    exact h
  cases op with
  | observe orders message notifyEligible outcome =>
      rw [Service.call, Service.observe_state]
      exact h.observeLocked orders ⟨message, notifyEligible, ""⟩
  | apply orders observations cursors checkpointAt outcome =>
      rw [Service.call, Service.apply_state]
      exact (view_observeAll orders observations h).2
  | tick orders now outcome =>
      rw [Service.call, Service.tick_state]
      exact h.advance orders
  | rebuild orders after observations cursors checkpointAt outcome =>
      rw [Service.call, Service.rebuild_state, view_restore]
      have hempty : Consistent eng (emptySnapshot cursors checkpointAt).view := .empty h.injective
      exact (view_observeAll orders observations hempty).2.renotify _
  | markNotificationSent id adapter externalID at_ outcome => exact hmark _ _ _
  | markNotificationFailed id message next permanent outcome => exact hmark _ _ _
  | setCursors cursors outcome =>
      rw [Service.call, Service.setCursors_state]
      exact h

/-- What the calls that go with the time do to the view. -/
lemma Consistent.view_call {eng : Engine} {svc : Service} (h : Consistent eng svc.state.view) :
    (∀ orders message notifyEligible outcome,
      (svc.call eng (.observe orders message notifyEligible outcome)).state.view
        = svc.state.view.take eng ⟨message, notifyEligible, ""⟩) ∧
    (∀ orders os cursors checkpointAt outcome,
      (svc.call eng (.apply orders os cursors checkpointAt outcome)).state.view
        = os.foldl (View.take eng) svc.state.view) ∧
    ∀ orders now outcome,
      (svc.call eng (.tick orders now outcome)).state.view = svc.state.view.settle now := by
  refine ⟨fun orders message notifyEligible outcome => ?_,
    fun orders os cursors checkpointAt outcome => ?_, fun orders now outcome => ?_⟩
  · rw [Service.call, Service.observe_state]
    exact view_observeLocked h orders ⟨message, notifyEligible, ""⟩
  · rw [Service.call, Service.apply_state]
    exact (view_observeAll orders os h).1
  · rw [Service.call, Service.tick_state]
    exact advance_view h orders

/-- **Every run keeps the invariant.** -/
lemma Consistent.run {eng : Engine} {svc : Service} (h : Consistent eng svc.state.view)
    (ops : List Operation) : Consistent eng (svc.run eng ops).state.view := by
  induction ops generalizing svc with
  | nil => exact h
  | cons op ops ih => exact ih (h.call op)

/-! ## Trackers and incidents -/

/-- If the configured interface has no NUL byte, a key tells host and interface. -/
lemma trackerKey_inj {eng : Engine} (hnul : '\x00' ∉ eng.interface.toList)
    {hostname hostname' interface interface' : String} (hi : interface ∈ eng.interfaces)
    (hi' : interface' ∈ eng.interfaces)
    (h : trackerKey hostname interface = trackerKey hostname' interface') :
    hostname = hostname' ∧ interface = interface' := by
  have hfree : ∀ {i : String}, i ∈ eng.interfaces → '\x00' ∉ i.toList := by
    intro i hmem
    simp only [Engine.interfaces, List.mem_cons, List.not_mem_nil, or_false] at hmem
    rcases hmem with rfl | rfl | rfl
    · exact hnul
    · decide
    · decide
  have hlist := congrArg String.toList h
  simp only [trackerKey, String.toList_append] at hlist
  obtain ⟨hhost, hiface⟩ := Text.cut_last_inj (hfree hi) (hfree hi')
    (by simpa using hlist)
  exact ⟨String.toList_inj.mp hhost, String.toList_inj.mp hiface⟩

/-- What a tracker under `(hostname, interface)` and the incident it names have in common. -/
structure Describes (hostname interface : String) (current : Tracker) (incident : Incident) :
    Prop where
  hostname_eq : incident.hostname = hostname
  interface_eq : incident.interface = interface
  state_eq : current.phase.openState = some incident.state
  startedAt_eq : incident.startedAt = current.pendingSince
  notify_eq : incident.notify = current.notify
  activatedAt_iff : incident.activatedAt = none ↔ current.phase = .pendingFailure
  recoveryFirstAt_eq : current.phase = .pendingRecovery →
    incident.recoveryFirstAt = some current.recoverySince

/-- A tracker that names an incident is open. -/
lemma Consistent.open_of_incidentID {eng : Engine} {v : View} (h : Consistent eng v)
    {key : String} {current : Tracker} (hc : v.trackers key = some current)
    (hid : current.incidentID ≠ "") : current.phase.openState ≠ none := by
  intro hclosed
  rw [h.closed hc hclosed] at hid
  exact hid rfl

/-- Open trackers and unresolved incidents are the same outages, one by one. -/
structure OutagesMatch (eng : Engine) (s : Snapshot) : Prop where
  keyed : ∀ key current, s.trackers.lookup key = some current →
    ∃ hostname, ∃ interface ∈ eng.interfaces, key = trackerKey hostname interface
  described : ∀ hostname, ∀ interface ∈ eng.interfaces, ∀ current,
    s.trackers.lookup (trackerKey hostname interface) = some current →
    current.phase = .pendingFailure ∨ current.phase = .active ∨ current.phase = .pendingRecovery →
    ∃ incident, s.incidents.lookup current.incidentID = some incident ∧
      Describes hostname interface current incident
  named : ∀ id incident, s.incidents.lookup id = some incident → incident.state ≠ .resolved →
    ∃! key, ∃ current, s.trackers.lookup key = some current ∧ current.incidentID = id
  single : ∀ id id' incident incident', s.incidents.lookup id = some incident →
    s.incidents.lookup id' = some incident' → incident.state ≠ .resolved →
    incident'.state ≠ .resolved → incident.hostname = incident'.hostname →
    incident.interface = incident'.interface → id = id'

/-! ## A small run -/

/-- A number for the values an incident ID is made from. -/
def openingCode (hostname interface : String) (started : Time) (messageID : String) : ℕ :=
  Encodable.encode (hostname.toList.map Char.toNat, interface.toList.map Char.toNat, started,
    messageID.toList.map Char.toNat)

/-- `incidentID` on the host `gw`, whose primary interface fails one second after the zero time
with the message `one`; any other opening has its code, in decimal. -/
def sampleIDs : IncidentIDs where
  incidentID hostname interface started messageID :=
    if (hostname, interface, started, messageID) = ("gw", "wan", 1000000000, "one") then
      "8d4663d6450447b8"
    else String.ofList (Nat.toDigits 10 (openingCode hostname interface started messageID))
  nonempty h i s m := by
    split_ifs
    · decide
    · intro hempty
      exact Nat.toDigits_ne_nil (String.ofList_eq_empty_iff.mp hempty)
  noColon h i s m := by
    split_ifs
    · decide
    · intro hcolon
      rw [String.toList_ofList] at hcolon
      exact absurd (Nat.isDigit_of_mem_toDigits (by decide) (by decide) hcolon) (by decide)

lemma sampleIDs_injective : sampleIDs.Injective := by
  intro h i s m h' i' s' m' heq
  have hcode : ∀ n, "8d4663d6450447b8" ≠ String.ofList (Nat.toDigits 10 n) := by
    intro n hn
    have hletter : 'd' ∈ (String.ofList (Nat.toDigits 10 n)).toList := hn ▸ (by decide)
    rw [String.toList_ofList] at hletter
    exact absurd (Nat.isDigit_of_mem_toDigits (by decide) (by decide) hletter) (by decide)
  simp only [sampleIDs] at heq
  split_ifs at heq with hsample hsample'
  · simp only [Prod.mk.injEq] at hsample hsample'
    obtain ⟨rfl, rfl, rfl, rfl⟩ := hsample
    obtain ⟨rfl, rfl, rfl, rfl⟩ := hsample'
    exact ⟨rfl, rfl, rfl, rfl⟩
  · exact absurd heq (hcode _)
  · exact absurd heq.symm (hcode _)
  · have hvalue := congrArg (fun digits => Nat.ofDigitChars 10 digits 0) (String.ofList_inj.mp heq)
    simp only [Nat.ofDigitChars_ten_toDigits] at hvalue
    have hchars : Function.Injective fun text : String => text.toList.map Char.toNat := by
      intro text text' htext
      exact String.toList_inj.mp
        (List.map_injective_iff.mpr (fun _ _ => Char.toNat_inj.mp) htext)
    simp only [openingCode] at hvalue
    obtain ⟨h₁, h₂, h₃, h₄⟩ : _ ∧ _ ∧ _ ∧ _ := by
      simpa only [Prod.mk.injEq] using Encodable.encode_injective hvalue
    exact ⟨hchars h₁, hchars h₂, h₃, hchars h₄⟩

/-- An engine that waits a minute for an outage and for a recovery. -/
def sampleEngine : Engine :=
  { interface := "wan", downAfter := 60000000000, recoveredAfter := 60000000000
    ids := sampleIDs
    downAfter_pos := by decide
    recoveredAfter_pos := by decide }

/-- `wan` of `gw` goes down. -/
def wanDown : Observation where
  message :=
    { id := "one", receivedAt := 1000000000, hostname := "gw", tag := "netifd"
      message := "Interface 'wan' is now down" }
  notifyEligible := true
  sourceRef := "events/0001/01/events.ndjson:1"

/-- The loops visit the trackers in key order. -/
def forwards : Schedule :=
  fun _ => ⟨.inserted String, .inserted String, .inserted String⟩

/-- The loops visit the trackers against key order. -/
def backwards : Schedule :=
  fun _ => ⟨(Traversal.inserted String).reverse, .inserted String, .inserted String⟩

/-- A record that may notify. -/
def sampleRecord (id hostname tag message : String) (receivedAt : Time) : Observation where
  message := { id, receivedAt, hostname, tag, message }
  notifyEligible := true
  sourceRef := "events/0001/01/events.ndjson:" ++ id

/-- The outage is read, lasts for a minute and cannot be saved. -/
def wanDownRun : List Operation :=
  [.apply (fun _ => sortedSchedule) [wanDown] ∅ 1000000000 none,
    .tick sortedSchedule 61000000000 (some "disk full")]

/-! ## Every run -/

/-- **The tracker/incident invariant of every run.**  It holds of every snapshot that calls of the
engine's operations can make from `New`, whatever they observe and whether or not they are saved. -/
theorem outagesMatch_run (eng : Engine) (hids : eng.ids.Injective)
    (hnul : '\x00' ∉ eng.interface.toList) (ops : List Operation) :
    OutagesMatch eng (Service.run eng {} ops).state := by
  have hempty : Consistent eng (({} : Service).state).view := .empty hids
  have h : Consistent eng (Service.run eng {} ops).state.view := hempty.run ops
  refine ⟨fun key current hc => h.keyed hc, ?_, ?_, ?_⟩
  · intro hostname interface hiface current hc hphase
    have hopen : current.phase.openState ≠ none := by
      rcases hphase with hp | hp | hp <;> rw [hp] <;> exact Option.some_ne_none _
    obtain ⟨incident, hi, hagrees⟩ := h.names hc hopen
    obtain ⟨hhost, hinterface⟩ :=
      trackerKey_inj hnul (h.wellFormed hi).interface_mem hiface hagrees.key
    exact ⟨incident, hi, hhost, hinterface, hagrees.state, hagrees.startedAt, hagrees.notify,
      hagrees.activatedAt, hagrees.recovery⟩
  · intro id incident hi hs
    obtain ⟨current, hc, hopen, hid⟩ := h.named hi hs
    refine ⟨incident.key, ⟨current, hc, hid⟩, ?_⟩
    rintro key ⟨current', hc', hid'⟩
    have hne : current'.incidentID ≠ "" := by
      rw [hid']
      exact (h.wellFormed hi).ne_empty
    exact h.key_eq hc' (h.open_of_incidentID hc' hne) hc hopen (hid'.trans hid.symm)
  · intro id id' incident incident' hi hi' hs hs' hhost hinterface
    refine h.id_eq_of_key hi hi' hs hs' ?_
    rw [Incident.key, Incident.key, hhost, hinterface]

theorem outagesMatch_run_wanDown :
    OutagesMatch sampleEngine (Service.run sampleEngine {} wanDownRun).state :=
  outagesMatch_run sampleEngine sampleIDs_injective (by decide) wanDownRun

end Logthing
