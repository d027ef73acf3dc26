import Logthing.Incidents.Classify

/-!
# The incident engine

`Service` without its lock: what `observeLocked`, `advanceLocked` and the exported operations do
to the snapshot.

Every loop over a map takes the order it visits the map in as an argument (`Orders`, `Schedule`),
so a result that holds for all of them holds for any run of the code.  Whether a save succeeds is
an argument as well.
-/

namespace Logthing

/-- `evidence.hostname + "\x00" + evidence.iface`. -/
def trackerKey (hostname iface : String) : String := hostname ++ "\x00" ++ iface

/-- `appendEvidence`. -/
def appendEvidence (ids : List String) (id : String) : List String :=
  if id = "" then ids
  else if ids.getLast? = some id then ids
  else ids ++ [id]

/-- The orders of the loops of one turn of `advanceLocked`. -/
structure Orders where
  due : Traversal String
  primary : Traversal String
  fallbacks : Traversal String

/-- The orders of a run of `advanceLocked`, turn by turn. -/
abbrev Schedule := ℕ → Orders

/-- The loops all visit in key order. -/
def sortedSchedule : Schedule := fun _ => ⟨.sorted String, .sorted String, .sorted String⟩

/-! ## The outbox -/

/-- `enqueueLocked`. -/
def enqueue (jobs : Dict String NotificationJob) (incidentID : String) (kind : NotificationKind)
    (at_ : Time) : Dict String NotificationJob :=
  let id := incidentID ++ ":" ++ kind.text
  jobs.insertNew id { id, incidentID, kind, createdAt := at_, nextAt := at_ }

/-- `enqueueFallbackEscalationLocked`. -/
def enqueueFallbackEscalation (jobs : Dict String NotificationJob)
    (fallbackIncidentID primaryIncidentID : String) (at_ : Time) : Dict String NotificationJob :=
  let id := fallbackIncidentID ++ ":" ++ NotificationKind.fallbackEscalated.text ++ ":" ++
    primaryIncidentID
  jobs.insertNew id
    { id, incidentID := fallbackIncidentID, kind := .fallbackEscalated, createdAt := at_
      nextAt := at_ }

/-- Whether an incident is one of the primary interface that was down at a time. -/
def Incident.primaryDown (interface hostname : String) (at_ : Time) (incident : Incident) : Bool :=
  incident.hostname = hostname && incident.interface = interface &&
    incident.activatedAt.any (· ≤ at_) && incident.resolvedAt.all (at_ < ·)

/-- `primaryDownAtLocked`. -/
def primaryDownAt (interface : String) (order : Traversal String)
    (incidents : Dict String Incident) (hostname : String) (at_ : Time) : Option Incident :=
  ((order.visit incidents).find? fun kv => kv.2.primaryDown interface hostname at_).map Prod.snd

/-- Whether `escalateFallbacksLocked` escalates an incident. -/
def Incident.escalates (interface hostname : String) (incident : Incident) : Bool :=
  incident.hostname = hostname && incident.interface ≠ interface && incident.notify &&
    (incident.state = .active || incident.state = .pendingRecovery)

/-- `escalateFallbacksLocked`. -/
def escalateFallbacks (interface : String) (order : Traversal String)
    (incidents : Dict String Incident) (jobs : Dict String NotificationJob)
    (hostname primaryIncidentID : String) (at_ : Time) : Dict String NotificationJob :=
  (order.visit incidents).foldl
    (fun jobs kv =>
      if kv.2.escalates interface hostname then
        enqueueFallbackEscalation jobs kv.2.id primaryIncidentID at_
      else jobs) jobs

/-- How an activation is announced: a fallback whose primary interface is down escalates at
once. -/
def announceActivation (interface : String) (order : Traversal String)
    (incidents : Dict String Incident) (jobs : Dict String NotificationJob) (incident : Incident)
    (activated : Time) : Dict String NotificationJob :=
  if incident.interface ≠ interface then
    match primaryDownAt interface order incidents incident.hostname activated with
    | some primary => enqueueFallbackEscalation jobs incident.id primary.id activated
    | none => enqueue jobs incident.id .fallbackOpened activated
  else enqueue jobs incident.id .opened activated

/-- How a resolution is announced. -/
def announceResolution (interface : String) (jobs : Dict String NotificationJob)
    (incident : Incident) (resolved : Time) : Dict String NotificationJob :=
  enqueue jobs incident.id
    (if incident.interface ≠ interface then .fallbackResolved else .resolved) resolved

/-! ## Timers -/

/-- Whether a tracker's timer is running. -/
def Tracker.pending (current : Tracker) : Bool :=
  current.phase = .pendingFailure || current.phase = .pendingRecovery

/-- When a pending tracker's timer runs out. -/
def Tracker.dueAt (current : Tracker) (incident : Incident) : Time :=
  if current.phase = .pendingFailure then current.pendingSince + incident.downAfter
  else current.recoverySince + incident.recoveredAfter

/-- What goes first at the same time: recoveries, then the primary's failures, then the
fallbacks'. -/
def Tracker.priority (interface : String) (current : Tracker) (incident : Incident) : ℕ :=
  if current.phase = .pendingFailure then if incident.interface = interface then 1 else 2 else 0

/-- The tracker `nextDueTrackerLocked` has selected so far. -/
structure Selected where
  key : String
  current : Tracker
  at_ : Time
  priority : ℕ

/-- Whether `nextDueTrackerLocked` prefers a candidate to what it has selected. -/
def Selected.improves (candidate : Selected) : Option Selected → Bool
  | none => true
  | some selected =>
      candidate.at_ < selected.at_ ||
        (candidate.at_ = selected.at_ && candidate.priority < selected.priority)

/-- The loop of `nextDueTrackerLocked`. -/
def selectDue (interface : String) (incidents : Dict String Incident) (now : Time) :
    List (String × Tracker) → Option Selected → Option (String × Tracker)
  | [], selected => selected.map fun s => (s.key, s.current)
  | (key, current) :: rest, selected =>
      if current.pending then
        match incidents.lookup current.incidentID with
        | none => some (key, current)
        | some incident =>
            let candidate : Selected :=
              ⟨key, current, current.dueAt incident, current.priority interface incident⟩
            if now < candidate.at_ then selectDue interface incidents now rest selected
            else if candidate.improves selected then
              selectDue interface incidents now rest (some candidate)
            else selectDue interface incidents now rest selected
      else selectDue interface incidents now rest selected

/-- `nextDueTrackerLocked`. -/
def nextDueTracker (interface : String) (order : Traversal String) (now : Time) (s : Snapshot) :
    Option (String × Tracker) :=
  selectDue interface s.incidents now (order.visit s.trackers) none

/-! ## `advanceLocked` -/

/-- What an activation does to the outbox, given the incidents after it. -/
def activationJobs (interface : String) (orders : Orders) (incidents : Dict String Incident)
    (jobs : Dict String NotificationJob) (incident : Incident) (activated : Time) :
    Dict String NotificationJob :=
  let jobs :=
    if incident.notify then
      announceActivation interface orders.primary incidents jobs incident activated
    else jobs
  if incident.interface = interface then
    escalateFallbacks interface orders.fallbacks incidents jobs incident.hostname incident.id
      activated
  else jobs

/-- The case `phasePendingFailure` of a turn. -/
def activate (interface : String) (orders : Orders) (key : String) (current : Tracker)
    (incident : Incident) (s : Snapshot) : Snapshot :=
  let activated := current.pendingSince + incident.downAfter
  let incident :=
    { incident with state := .active, activatedAt := some activated, notify := current.notify }
  let incidents := s.incidents.insert incident.id incident
  { s with
    incidents
    trackers := s.trackers.insert key { current with phase := .active }
    jobs := activationJobs interface orders incidents s.jobs incident activated }

/-- The case `phasePendingRecovery` of a turn. -/
def resolve (interface : String) (key : String) (current : Tracker) (incident : Incident)
    (s : Snapshot) : Snapshot :=
  let resolved := current.recoverySince + incident.recoveredAfter
  let incident := { incident with state := .resolved, resolvedAt := some resolved }
  { s with
    incidents := s.incidents.insert incident.id incident
    trackers := s.trackers.insert key { phase := .healthy, lastEvidenceAt := current.lastEvidenceAt }
    jobs :=
      if incident.notify then announceResolution interface s.jobs incident resolved else s.jobs }

/-- One turn of the loop of `advanceLocked`, for the tracker selected. -/
def advanceOne (interface : String) (orders : Orders) (key : String) (current : Tracker)
    (s : Snapshot) : Snapshot :=
  match s.incidents.lookup current.incidentID with
  | none => { s with trackers := s.trackers.erase key }
  | some incident =>
      if current.phase = .pendingFailure then activate interface orders key current incident s
      else resolve interface key current incident s

/-- The keys of the trackers whose timer is running. -/
def pendingKeys (s : Snapshot) : Finset String :=
  s.trackers.keys.filter fun key => (s.trackers.lookup key).any Tracker.pending

lemma mem_pendingKeys {s : Snapshot} {key : String} :
    key ∈ pendingKeys s ↔ ∃ current, s.trackers.lookup key = some current ∧
      current.pending = true := by
  simp only [pendingKeys, Finset.mem_filter, Finmap.mem_keys, Finmap.mem_iff]
  constructor
  · rintro ⟨⟨current, hcurrent⟩, hpending⟩
    rw [hcurrent] at hpending
    exact ⟨current, hcurrent, hpending⟩
  · rintro ⟨current, hcurrent, hpending⟩
    exact ⟨⟨current, hcurrent⟩, by rw [hcurrent]; exact hpending⟩

/-- A turn stops the timer it is about and no other. -/
lemma pendingKeys_advanceOne {interface : String} {orders : Orders} {key : String}
    {current : Tracker} {s : Snapshot} :
    pendingKeys (advanceOne interface orders key current s) = (pendingKeys s).erase key := by
  ext k
  rw [Finset.mem_erase, mem_pendingKeys, mem_pendingKeys, advanceOne]
  cases hincident : s.incidents.lookup current.incidentID with
  | none =>
      simp only [Dict.lookup_erase_ite]
      by_cases hk : k = key
      · simp [hk]
      · simp [hk]
  | some incident =>
      by_cases hphase : current.phase = .pendingFailure
      · simp only [if_pos hphase, activate, Dict.lookup_insert_ite]
        by_cases hk : k = key
        · simp [hk, Tracker.pending]
        · simp [hk]
      · simp only [if_neg hphase, resolve, Dict.lookup_insert_ite]
        by_cases hk : k = key
        · simp [hk, Tracker.pending]
        · simp [hk]

/-- What is selected is a pending tracker of the list, or was selected before. -/
lemma mem_of_selectDue {interface : String} {incidents : Dict String Incident} {now : Time}
    {found : String × Tracker} :
    ∀ {l : List (String × Tracker)} {selected : Option Selected},
      selectDue interface incidents now l selected = some found →
      (found ∈ l ∧ found.2.pending = true) ∨
        ∃ s, selected = some s ∧ found = (s.key, s.current)
  | [], selected, h => by
      rw [selectDue, Option.map_eq_some_iff] at h
      obtain ⟨s, hs, rfl⟩ := h
      exact Or.inr ⟨s, hs, rfl⟩
  | (key, current) :: rest, selected, h => by
      have hskip : selectDue interface incidents now rest selected = some found →
          (found ∈ (key, current) :: rest ∧ found.2.pending = true) ∨
            ∃ s, selected = some s ∧ found = (s.key, s.current) := by
        intro h
        rcases mem_of_selectDue h with ⟨hmem, hpending⟩ | hsel
        · exact Or.inl ⟨List.mem_cons_of_mem _ hmem, hpending⟩
        · exact Or.inr hsel
      rw [selectDue] at h
      split_ifs at h with hpending
      · cases hincident : incidents.lookup current.incidentID with
        | none =>
            rw [hincident] at h
            obtain rfl := Option.some.inj h
            exact Or.inl ⟨List.mem_cons_self, hpending⟩
        | some incident =>
            rw [hincident] at h
            simp only at h
            split_ifs at h with hlate himproves
            · exact hskip h
            · rcases mem_of_selectDue h with ⟨hmem, hp⟩ | ⟨s, hs, rfl⟩
              · exact Or.inl ⟨List.mem_cons_of_mem _ hmem, hp⟩
              · obtain rfl := Option.some.inj hs
                exact Or.inl ⟨List.mem_cons_self, hpending⟩
            · exact hskip h
      · exact hskip h

/-- The tracker a turn is about is there, and pending. -/
lemma lookup_of_nextDueTracker {interface : String} {order : Traversal String} {now : Time}
    {s : Snapshot} {key : String} {current : Tracker}
    (h : nextDueTracker interface order now s = some (key, current)) :
    s.trackers.lookup key = some current ∧ current.pending = true := by
  rcases mem_of_selectDue h with ⟨hmem, hpending⟩ | ⟨_, hs, -⟩
  · exact ⟨(order.mem_visit _ _ _).mp hmem, hpending⟩
  · exact absurd hs (by simp)

lemma card_pendingKeys_advanceOne {interface : String} {orders : Orders} {now : Time}
    {s : Snapshot} {key : String} {current : Tracker}
    (h : nextDueTracker interface orders.due now s = some (key, current)) :
    (pendingKeys (advanceOne interface orders key current s)).card < (pendingKeys s).card := by
  rw [pendingKeys_advanceOne]
  obtain ⟨hcurrent, hpending⟩ := lookup_of_nextDueTracker h
  exact Finset.card_erase_lt_of_mem (mem_pendingKeys.mpr ⟨current, hcurrent, hpending⟩)

/-- `advanceLocked`: the snapshot afterwards, and whether it changed. -/
def advance (interface : String) (orders : Schedule) (now : Time) (s : Snapshot) :
    Snapshot × Bool :=
  match _ : nextDueTracker interface (orders 0).due now s with
  | none => (s, false)
  | some (key, current) =>
      ((advance interface (fun n => orders (n + 1)) now
        (advanceOne interface (orders 0) key current s)).1, true)
termination_by (pendingKeys s).card
decreasing_by exact card_pendingKeys_advanceOne ‹_›

/-- The run rule of `advanceLocked`, for any turn it can take. -/
lemma advance_rule {interface : String} {now : Time} (P : Snapshot → Prop)
    (hstep : ∀ {s : Snapshot} {orders : Orders} {key : String} {current : Tracker},
      s.trackers.lookup key = some current → current.pending = true → P s →
      P (advanceOne interface orders key current s)) (orders : Schedule) (s : Snapshot) (hP : P s) :
    P (advance interface orders now s).1 := by
  induction orders, s using advance.induct interface now with
  | case1 orders s hnone =>
      rw [advance]
      split
      · exact hP
      · rename_i hsome
        rw [hnone] at hsome
        cases hsome
  | case2 orders s key current hsome ih =>
      rw [advance]
      split
      · rename_i hnone
        rw [hsome] at hnone
        cases hnone
      · rename_i key' current' hsome'
        obtain ⟨rfl, rfl⟩ := Prod.mk.inj (Option.some.inj (hsome.symm.trans hsome'))
        obtain ⟨hc, hpending⟩ := lookup_of_nextDueTracker hsome
        exact ih (hstep hc hpending hP)

/-! ## `observeLocked` -/

/-- The evidence an incident's fields keep of one observation. -/
def Incident.note (evidence : Evidence) (incident : Incident) : Incident :=
  { incident with
    lastEvidenceAt := evidence.at_
    evidenceIDs := appendEvidence incident.evidenceIDs evidence.messageID
    evidenceRefs := appendEvidence incident.evidenceRefs evidence.sourceRef }

/-- `if incident, exists := s.state.Incidents[id]; exists`, then store it changed. -/
def updateIncident (incidents : Dict String Incident) (id : String) (f : Incident → Incident) :
    Dict String Incident :=
  match incidents.lookup id with
  | none => incidents
  | some incident => incidents.insert (f incident).id (f incident)

/-- The tracker of an interface that has just gone down. -/
def openedTracker (evidence : Evidence) (notifyEligible : Bool) (id : String) : Tracker where
  phase := .pendingFailure
  pendingSince := evidence.at_
  lastEvidenceAt := evidence.at_
  startMessageID := evidence.messageID
  startSourceRef := evidence.sourceRef
  incidentID := id
  notify := notifyEligible
  reachabilityDown := evidence.reachability

/-- The incident of an interface that has just gone down. -/
def openedIncident (eng : Engine) (evidence : Evidence) (notifyEligible : Bool) (id : String) :
    Incident where
  id
  ruleVersion := 3
  hostname := evidence.hostname
  interface := evidence.iface
  state := .pendingFailure
  startedAt := evidence.at_
  lastEvidenceAt := evidence.at_
  evidenceIDs := appendEvidence [] evidence.messageID
  evidenceRefs := appendEvidence [] evidence.sourceRef
  downAfter := eng.downAfter
  recoveredAfter := eng.recoveredAfter
  notify := notifyEligible

/-- The `switch` of `observeLocked`: the tracker and the incidents after evidence that the
interface went down or came up. -/
def react (eng : Engine) (evidence : Evidence) (notifyEligible : Bool) (current : Tracker)
    (incidents : Dict String Incident) : Tracker × Dict String Incident :=
  match evidence.online, current.phase with
  | false, .unset | false, .healthy =>
      let id := eng.ids.incidentID evidence.hostname evidence.iface evidence.at_ evidence.messageID
      (openedTracker evidence notifyEligible id,
        incidents.insert id (openedIncident eng evidence notifyEligible id))
  | false, .pendingFailure =>
      let current :=
        { current with
          reachabilityDown := current.reachabilityDown || evidence.reachability
          notify := current.notify || notifyEligible }
      (current, updateIncident incidents current.incidentID fun incident =>
        { incident.note evidence with notify := current.notify })
  | false, .pendingRecovery =>
      ({ current with
          phase := .active
          recoverySince := 0
          reachabilityDown := current.reachabilityDown || evidence.reachability },
        updateIncident incidents current.incidentID fun incident =>
          { incident.note evidence with state := .active, recoveryFirstAt := none })
  | false, .active =>
      ({ current with reachabilityDown := current.reachabilityDown || evidence.reachability },
        updateIncident incidents current.incidentID (Incident.note evidence))
  | true, .unset => ({ phase := .healthy, lastEvidenceAt := evidence.at_ }, incidents)
  | true, .healthy => (current, incidents)
  | true, .pendingFailure =>
      ({ phase := .healthy, lastEvidenceAt := evidence.at_ }, incidents.erase current.incidentID)
  | true, .active =>
      ({ current with phase := .pendingRecovery, recoverySince := evidence.at_ },
        updateIncident incidents current.incidentID fun incident =>
          { incident.note evidence with
            state := .pendingRecovery, recoveryFirstAt := some evidence.at_ })
  | true, .pendingRecovery =>
      (current, updateIncident incidents current.incidentID (Incident.note evidence))

/-- What `observeLocked` does with evidence that is not stale and not a mere sighting, after
`advanceLocked`. -/
def observeEvidence (eng : Engine) (evidence : Evidence) (notifyEligible : Bool) (s : Snapshot) :
    Snapshot :=
  let key := trackerKey evidence.hostname evidence.iface
  let current := (s.trackers.lookup key).getD {}
  if evidence.online && evidence.iface = eng.interface && current.reachabilityDown &&
      !evidence.reachability then s
  else
    let after := react eng evidence notifyEligible { current with lastEvidenceAt := evidence.at_ }
      s.incidents
    { s with trackers := s.trackers.insert key after.1, incidents := after.2 }

/-- `observeLocked`. -/
def observeLocked (eng : Engine) (orders : Schedule) (message : Message) (notifyEligible : Bool)
    (sourceRef : String) (s : Snapshot) : Snapshot :=
  match classify message eng.interface with
  | none => s
  | some evidence =>
      let evidence := { evidence with sourceRef }
      let key := trackerKey evidence.hostname evidence.iface
      let current := (s.trackers.lookup key).getD {}
      if current.lastEvidenceAt ≠ 0 ∧ evidence.at_ < current.lastEvidenceAt then s
      else if evidence.observeOnly then
        let current :=
          if current.phase = .unset then { current with phase := .healthy } else current
        { s with trackers := s.trackers.insert key { current with lastEvidenceAt := evidence.at_ } }
      else
        observeEvidence eng evidence notifyEligible
          (advance eng.interface orders evidence.at_ s).1

/-- The loop of `Apply` and `Rebuild` over the observations, with the orders of each. -/
def observeAll (eng : Engine) : (ℕ → Schedule) → List Observation → Snapshot → Snapshot
  | _, [], s => s
  | orders, o :: os, s =>
      observeAll eng (fun n => orders (n + 1)) os
        (observeLocked eng (orders 0) o.message o.notifyEligible o.sourceRef s)

end Logthing
