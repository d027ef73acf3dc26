import Logthing.Incidents.View

/-!
# Observing, on views

`View.observe` is `observeLocked` on the trackers and incidents alone: settle them at the time of
the evidence, then let the evidence change one tracker and one incident (`Reaction`).

**Main results.**  `view_observeLocked` says that `observeLocked` computes it, whatever the order
of its loops, and `Consistent.observe` that the representation invariant survives it.
-/

namespace Logthing

/-! ## Reactions -/

/-- What evidence does to the tracker of its interface, the incident that is about, and what
becomes of the incident. -/
structure Reaction where
  current : Tracker
  id : String
  incident : Option Incident → Option Incident

/-- The `switch` of `observeLocked`, by cases of the evidence and the phase. -/
def reaction (eng : Engine) (evidence : Evidence) (notifyEligible : Bool) (current : Tracker) :
    Reaction :=
  match evidence.online, current.phase with
  | false, .unset | false, .healthy =>
      let id := eng.ids.incidentID evidence.hostname evidence.iface evidence.at_ evidence.messageID
      ⟨openedTracker evidence notifyEligible id, id,
        fun _ => some (openedIncident eng evidence notifyEligible id)⟩
  | false, .pendingFailure =>
      ⟨{ current with
          reachabilityDown := current.reachabilityDown || evidence.reachability
          notify := current.notify || notifyEligible }, current.incidentID,
        Option.map fun incident =>
          { incident.note evidence with notify := current.notify || notifyEligible }⟩
  | false, .pendingRecovery =>
      ⟨{ current with
          phase := .active
          recoverySince := 0
          reachabilityDown := current.reachabilityDown || evidence.reachability },
        current.incidentID,
        Option.map fun incident =>
          { incident.note evidence with state := .active, recoveryFirstAt := none }⟩
  | false, .active =>
      ⟨{ current with reachabilityDown := current.reachabilityDown || evidence.reachability },
        current.incidentID, Option.map (Incident.note evidence)⟩
  | true, .unset => ⟨{ phase := .healthy, lastEvidenceAt := evidence.at_ }, current.incidentID, id⟩
  | true, .healthy => ⟨current, current.incidentID, id⟩
  | true, .pendingFailure =>
      ⟨{ phase := .healthy, lastEvidenceAt := evidence.at_ }, current.incidentID, fun _ => none⟩
  | true, .active =>
      ⟨{ current with phase := .pendingRecovery, recoverySince := evidence.at_ },
        current.incidentID,
        Option.map fun incident =>
          { incident.note evidence with
            state := .pendingRecovery, recoveryFirstAt := some evidence.at_ }⟩
  | true, .pendingRecovery =>
      ⟨current, current.incidentID, Option.map (Incident.note evidence)⟩

lemma lookup_updateIncident {incidents : Dict String Incident} {id : String}
    {f : Incident → Incident} (hid : ∀ i, incidents.lookup id = some i → (f i).id = id)
    (k : String) :
    (updateIncident incidents id f).lookup k
      = if k = id then (incidents.lookup id).map f else incidents.lookup k := by
  rw [updateIncident]
  cases hi : incidents.lookup id with
  | none =>
      simp only [Option.map_none]
      split_ifs with hk
      · rw [hk, hi]
      · rfl
  | some incident =>
      simp only [Option.map_some, Dict.lookup_insert_ite, hid incident hi]

/-- `react` is the reaction, if the incident a tracker names is stored under its own ID. -/
lemma react_eq {eng : Engine} {evidence : Evidence} {notifyEligible : Bool} {current : Tracker}
    {incidents : Dict String Incident}
    (hid : ∀ i, incidents.lookup current.incidentID = some i → i.id = current.incidentID) :
    let r := reaction eng evidence notifyEligible current
    (react eng evidence notifyEligible current incidents).1 = r.current ∧
      ∀ k, (react eng evidence notifyEligible current incidents).2.lookup k
        = if k = r.id then r.incident (incidents.lookup r.id) else incidents.lookup k := by
  have hsame : ∀ k, incidents.lookup k = if k = current.incidentID then
      id (incidents.lookup current.incidentID) else incidents.lookup k := by
    intro k
    split_ifs with hk
    · rw [hk, id]
    · rfl
  rw [react, reaction]
  cases evidence.online <;> cases current.phase
  case false.unset | false.healthy => exact ⟨rfl, fun k => Dict.lookup_insert_ite _ _ _ _⟩
  case true.unset | true.healthy => exact ⟨rfl, hsame⟩
  case true.pendingFailure => exact ⟨rfl, fun k => Dict.lookup_erase_ite _ _ _⟩
  all_goals exact ⟨rfl, lookup_updateIncident fun i hi => hid i hi⟩

/-! ## Observing -/

/-- The key of the tracker that evidence is about. -/
def Evidence.key (evidence : Evidence) : String := trackerKey evidence.hostname evidence.iface

/-- The tracker under a key; Go's zero value if there is none. -/
def View.current (v : View) (key : String) : Tracker := (v.trackers key).getD {}

/-- The evidence comes too late for its tracker. -/
def Evidence.Stale (evidence : Evidence) (current : Tracker) : Prop :=
  current.lastEvidenceAt ≠ 0 ∧ evidence.at_ < current.lastEvidenceAt

instance (evidence : Evidence) (current : Tracker) : Decidable (evidence.Stale current) :=
  inferInstanceAs (Decidable (_ ∧ _))

/-- The primary interface coming up does not count while its uplink is known to be down. -/
def Evidence.masked (eng : Engine) (evidence : Evidence) (current : Tracker) : Bool :=
  evidence.online && evidence.iface = eng.interface && current.reachabilityDown &&
    !evidence.reachability

/-- A tracker that has been seen, by evidence that says no more. -/
def Tracker.sighted (evidence : Evidence) (current : Tracker) : Tracker :=
  { (if current.phase = .unset then { current with phase := .healthy } else current) with
    lastEvidenceAt := evidence.at_ }

/-- Evidence that says no more than that the interface has been seen. -/
def View.sight (evidence : Evidence) (v : View) : View :=
  v.set evidence.key ((v.current evidence.key).sighted evidence) (v.current evidence.key).incidentID
    (v.incidents (v.current evidence.key).incidentID)

/-- Evidence that an interface went down or came up. -/
def View.react (eng : Engine) (evidence : Evidence) (notifyEligible : Bool) (v : View) : View :=
  let current := v.current evidence.key
  if evidence.masked eng current then v
  else
    let r := reaction eng evidence notifyEligible { current with lastEvidenceAt := evidence.at_ }
    v.set evidence.key r.current r.id (r.incident (v.incidents r.id))

/-- `observeLocked`, on views. -/
def View.observe (eng : Engine) (evidence : Evidence) (notifyEligible : Bool) (v : View) : View :=
  if evidence.Stale (v.current evidence.key) then v
  else if evidence.observeOnly then v.sight evidence
  else (v.settle evidence.at_).react eng evidence notifyEligible

/-- The evidence of an observation, if it is evidence. -/
def Engine.evidence (eng : Engine) (o : Observation) : Option Evidence :=
  (classify o.message eng.interface).map fun evidence => { evidence with sourceRef := o.sourceRef }

/-- One turn of the loop of `Apply` and `Rebuild`, on views. -/
def View.take (eng : Engine) (v : View) (o : Observation) : View :=
  match eng.evidence o with
  | some evidence => v.observe eng evidence o.notifyEligible
  | none => v

lemma evidence_eq_some {eng : Engine} {o : Observation} {evidence : Evidence}
    (h : eng.evidence o = some evidence) :
    evidence.at_ = o.message.receivedAt ∧ evidence.at_ ≠ 0 ∧ evidence.iface ∈ eng.interfaces := by
  obtain ⟨e, he, rfl⟩ := Option.map_eq_some_iff.mp h
  obtain ⟨hat, hzero, -, -, hiface⟩ := classify_eq_some he
  exact ⟨hat, hzero, hiface⟩

/-! ## What a timer did -/

/-- The tracker under a key after settling: its timer was not due, or it has run out. -/
lemma current_settle (v : View) (now : Time) (key : String) :
    ((v.settle now).current key = v.current key ∧
      ∀ i, v.incidents (v.current key).incidentID = some i → ¬ (v.current key).dueBy now i) ∨
    ∃ i, v.trackers key = some (v.current key) ∧
      v.incidents (v.current key).incidentID = some i ∧ (v.current key).dueBy now i ∧
      (v.settle now).current key = (v.current key).fired := by
  have hsettled : (v.settle now).trackers key = (v.trackers key).map (v.settledTracker now) := rfl
  rw [View.current, View.current, hsettled]
  cases hc : v.trackers key with
  | none => exact Or.inl ⟨rfl, fun i _ hdue => absurd hdue.1 (by simp [Tracker.pending])⟩
  | some current =>
      rw [Option.map_some, Option.getD_some, Option.getD_some, View.settledTracker]
      cases hi : v.incidents current.incidentID with
      | none =>
          refine Or.inl ⟨rfl, fun i hi' => ?_⟩
          cases hi'
      | some incident =>
          by_cases hdue : current.dueBy now incident
          · exact Or.inr ⟨incident, rfl, rfl, hdue, if_pos hdue⟩
          · refine Or.inl ⟨if_neg hdue, fun i hi' => ?_⟩
            rwa [← Option.some.inj hi']

lemma Tracker.fired_lastEvidenceAt (current : Tracker) :
    current.fired.lastEvidenceAt = current.lastEvidenceAt := by
  rw [Tracker.fired]
  split_ifs
  · rfl
  · rfl

lemma lastEvidenceAt_settle (v : View) (now : Time) (key : String) :
    ((v.settle now).current key).lastEvidenceAt = (v.current key).lastEvidenceAt := by
  rcases current_settle v now key with ⟨hsame, -⟩ | ⟨i, -, -, -, hfired⟩
  · rw [hsame]
  · rw [hfired, Tracker.fired_lastEvidenceAt]

/-- An incident after settling: as it was, or the timer of its tracker has run out. -/
lemma incidents_settle {eng : Engine} {v : View} (h : Consistent eng v) {now : Time} {id : String}
    {j : Incident} (hj : (v.settle now).incidents id = some j) :
    v.incidents id = some j ∨ ∃ i current, v.incidents id = some i ∧
      v.trackers i.key = some current ∧ current.incidentID = id ∧ current.dueBy now i ∧
      j = i.fired current := by
  obtain ⟨i, hi, rfl⟩ := Option.map_eq_some_iff.mp hj
  have hid := (h.wellFormed hi).id_eq
  rw [View.settledIncident]
  cases hc : v.trackers i.key with
  | none => exact Or.inl hi
  | some current =>
      simp only
      split_ifs with hdue
      · exact Or.inr ⟨i, current, hi, hc, hdue.1.trans hid, hdue.2, rfl⟩
      · exact Or.inl hi

/-! ## The invariant survives -/

lemma View.current_of_open {v : View} {key : String}
    (h : (v.current key).phase.openState ≠ none) : v.trackers key = some (v.current key) := by
  rw [View.current] at h ⊢
  cases hc : v.trackers key with
  | none =>
      rw [hc] at h
      exact absurd rfl h
  | some current => rfl

/-- Noting evidence keeps an open incident well formed. -/
lemma WellFormed.note {eng : Engine} {evidence : Evidence} {id : String} {incident : Incident}
    (hwf : WellFormed eng id incident) (hbefore : incident.state ≠ .resolved) {state : State}
    (hafter : state ≠ .resolved) {recovery : Option Time} {notify : Bool} :
    WellFormed eng id
      { incident.note evidence with state, recoveryFirstAt := recovery, notify } := by
  have hnone : incident.resolvedAt = none := by
    by_contra hne
    exact hbefore (hwf.resolved.mpr hne)
  exact
    { hwf with
      resolved := by simp [hafter, hnone, Incident.note]
      activated := fun hs => absurd hs hafter }

lemma Agrees.not_resolved {key : String} {current : Tracker} {incident : Incident}
    (h : Agrees key current incident) : incident.state ≠ .resolved := by
  intro hs
  have hstate := h.state
  rw [hs] at hstate
  cases hphase : current.phase <;> rw [hphase] at hstate <;> exact absurd hstate (by decide)

namespace Consistent

variable {eng : Engine} {v : View} {evidence : Evidence}

/-- The incident of an open tracker. -/
lemma incident_of_open (h : Consistent eng v) {key : String}
    (hopen : (v.current key).phase.openState ≠ none) :
    ∃ i, v.incidents (v.current key).incidentID = some i ∧ Agrees key (v.current key) i ∧
      WellFormed eng (v.current key).incidentID i := by
  obtain ⟨i, hi, hagrees⟩ := h.names (View.current_of_open hopen) hopen
  exact ⟨i, hi, hagrees, h.wellFormed hi⟩

/-- The incident of an open tracker has no end. -/
lemma resolvedAt_eq_none (h : Consistent eng v) {key : String} {current : Tracker}
    {incident : Incident} (hc : v.trackers key = some current)
    (hopen : current.phase.openState ≠ none)
    (hi : v.incidents current.incidentID = some incident) : incident.resolvedAt = none := by
  obtain ⟨i, hi', hagrees⟩ := h.names hc hopen
  obtain rfl : incident = i := Option.some.inj (hi.symm.trans hi')
  by_contra hne
  exact hagrees.not_resolved ((h.wellFormed hi).resolved.mpr hne)

/-- A tracker that is not open has nothing but its phase and the time of its last evidence. -/
lemma current_of_closed (h : Consistent eng v) {key : String}
    (hclosed : (v.current key).phase.openState = none) :
    ∃ phase lastEvidenceAt, v.current key = { phase, lastEvidenceAt } := by
  rw [View.current] at hclosed ⊢
  cases hc : v.trackers key with
  | none => exact ⟨.unset, 0, rfl⟩
  | some current =>
      rw [hc] at hclosed
      exact ⟨.healthy, current.lastEvidenceAt, h.closed hc hclosed⟩

lemma incidents_empty (h : Consistent eng v) : v.incidents "" = none := by
  cases hi : v.incidents "" with
  | none => rfl
  | some incident => exact absurd rfl (h.wellFormed hi).ne_empty

/-- **Changing an open tracker and its incident** keeps the invariant if they still agree. -/
lemma setOpen (h : Consistent eng v) {key : String} {current : Tracker} {incident : Incident}
    (hopen : (v.current key).phase.openState ≠ none)
    (hwf : WellFormed eng (v.current key).incidentID incident) (hagrees : Agrees key current incident)
    (hid : current.incidentID = (v.current key).incidentID) :
    Consistent eng (v.set key current (v.current key).incidentID (some incident)) := by
  have hcurrent := View.current_of_open hopen
  obtain ⟨i, hi, hi', -⟩ := h.incident_of_open hopen
  refine h.set (h.keyed hcurrent) (fun hb _ => ?_) (fun hb => ?_) (fun hf => ?_)
    (fun _ => ⟨hid, incident, rfl, hagrees⟩) fun ho => ?_
  · rw [hcurrent] at hb
    rw [← Option.some.inj hb]
  · rw [hi] at hb
    rw [← Option.some.inj hb]
    exact hi'.key
  · rw [← Option.some.inj hf]
    exact ⟨hwf, hagrees.key⟩
  · rw [hagrees.state] at ho
    exact absurd ho (Option.some_ne_none _)

/-- **Storing a healthy tracker** keeps the invariant if its incident goes. -/
lemma setHealthy (h : Consistent eng v) {key id : String} {at_ : Time}
    (hkey : ∃ hostname, ∃ interface ∈ eng.interfaces, key = trackerKey hostname interface)
    (hid : (v.current key).incidentID = id) :
    Consistent eng (v.set key { phase := .healthy, lastEvidenceAt := at_ } id none) := by
  refine h.set hkey (fun hb _ => ?_) (fun {before} hb => ?_) (fun hf => nomatch hf)
    (fun ho => absurd rfl ho) fun _ => ⟨rfl, fun hf => nomatch hf⟩
  · rw [← hid, View.current, hb, Option.getD_some]
  · by_cases hopen : (v.current key).phase.openState = none
    · obtain ⟨_, _, hcurrent⟩ := h.current_of_closed hopen
      rw [← hid, hcurrent, h.incidents_empty] at hb
      cases hb
    · obtain ⟨i, hi, hagrees, -⟩ := h.incident_of_open hopen
      rw [← hid, hi] at hb
      rw [← Option.some.inj hb]
      exact hagrees.key

/-- **An outage that opens** keeps the invariant. -/
lemma setOpened (h : Consistent eng v) {notifyEligible : Bool} {id : String}
    (hiface : evidence.iface ∈ eng.interfaces)
    (hclosed : (v.current evidence.key).phase.openState = none)
    (hid : id = eng.ids.incidentID evidence.hostname evidence.iface evidence.at_
      evidence.messageID) :
    Consistent eng (v.set evidence.key (openedTracker evidence notifyEligible id) id
      (some (openedIncident eng evidence notifyEligible id))) := by
  refine h.set ⟨_, _, hiface, rfl⟩ (fun {before} hb ho => ?_) (fun {before} hb => ?_) (fun hf => ?_)
    (fun _ => ⟨rfl, _, rfl, ⟨rfl, rfl, rfl, rfl, ?_, ?_⟩⟩) fun ho => ?_
  · rw [View.current, hb] at hclosed
    exact absurd hclosed ho
  · obtain ⟨messageID, horigin⟩ := (h.wellFormed hb).origin
    obtain ⟨hhost, hinterface, -⟩ := h.injective (hid.symm.trans horigin)
    rw [Incident.key, ← hhost, ← hinterface]
    rfl
  · rw [← Option.some.inj hf]
    exact ⟨⟨rfl, ⟨_, hid⟩, rfl, hiface, rfl, rfl, by simp [openedIncident],
      fun hs => State.noConfusion hs, fun hat => nomatch hat⟩, rfl⟩
  · simp [openedIncident, openedTracker]
  · exact fun hp => Phase.noConfusion hp
  · exact absurd ho (by simp [openedTracker, Phase.openState])

/-- **Evidence keeps the invariant**, timers apart. -/
lemma react (h : Consistent eng v) {notifyEligible : Bool}
    (hiface : evidence.iface ∈ eng.interfaces) :
    Consistent eng (v.react eng evidence notifyEligible) := by
  rw [View.react]
  split_ifs with hmasked
  · exact h
  have hkey : ∃ hostname, ∃ interface ∈ eng.interfaces,
      evidence.key = trackerKey hostname interface := ⟨_, _, hiface, rfl⟩
  cases honline : evidence.online <;> cases hphase : (v.current evidence.key).phase
  case false.unset | false.healthy =>
      simp only [reaction, honline]
      exact h.setOpened hiface (by rw [hphase]; rfl) rfl
  case true.unset | true.healthy =>
      have hclosed : (v.current evidence.key).phase.openState = none := by
        rw [hphase]
        rfl
      obtain ⟨_, _, hcurrent⟩ := h.current_of_closed hclosed
      simp only [reaction, honline, hcurrent, h.incidents_empty, id]
      exact h.setHealthy hkey (by rw [hcurrent])
  case true.pendingFailure =>
      simp only [reaction, honline]
      exact h.setHealthy hkey rfl
  all_goals
    have hopen : (v.current evidence.key).phase.openState ≠ none := by
      rw [hphase]
      exact Option.some_ne_none _
    obtain ⟨i, hi, hagrees, hwf⟩ := h.incident_of_open hopen
    have hstate := hagrees.state
    have hactivated := hagrees.activatedAt
    rw [hphase] at hstate hactivated
    simp only [reaction, honline, hi, Option.map_some]
  case false.pendingFailure =>
      refine h.setOpen hopen (hwf.note hagrees.not_resolved hagrees.not_resolved)
        ⟨hagrees.key, hstate, hagrees.startedAt, rfl, hactivated, fun hp => nomatch hp⟩ rfl
  case false.active =>
      refine h.setOpen hopen (hwf.note hagrees.not_resolved hagrees.not_resolved)
        ⟨hagrees.key, hstate, hagrees.startedAt, hagrees.notify, hactivated, fun hp => nomatch hp⟩
        rfl
  case false.pendingRecovery =>
      refine h.setOpen hopen (hwf.note hagrees.not_resolved (by simp))
        ⟨hagrees.key, rfl, hagrees.startedAt, hagrees.notify, ?_, fun hp => nomatch hp⟩ rfl
      simpa [Incident.note] using hactivated
  case true.active =>
      refine h.setOpen hopen (hwf.note hagrees.not_resolved (by simp))
        ⟨hagrees.key, rfl, hagrees.startedAt, hagrees.notify, ?_, fun _ => rfl⟩ rfl
      simpa [Incident.note] using hactivated
  case true.pendingRecovery =>
      refine h.setOpen hopen (hwf.note hagrees.not_resolved hagrees.not_resolved)
        ⟨hagrees.key, hstate, hagrees.startedAt, hagrees.notify, hactivated,
          fun _ => hagrees.recovery hphase⟩ rfl

/-- **A sighting keeps the invariant.** -/
lemma sight (h : Consistent eng v) (hiface : evidence.iface ∈ eng.interfaces) :
    Consistent eng (v.sight evidence) := by
  rw [View.sight]
  by_cases hclosed : (v.current evidence.key).phase.openState = none
  · obtain ⟨phase, at_, hcurrent⟩ := h.current_of_closed hclosed
    rw [hcurrent] at hclosed
    have hsighted : (Tracker.sighted evidence { phase, lastEvidenceAt := at_ })
        = { phase := .healthy, lastEvidenceAt := evidence.at_ } := by
      cases phase <;> first | rfl | exact absurd hclosed (Option.some_ne_none _)
    simp only [hcurrent, hsighted, h.incidents_empty]
    exact h.setHealthy ⟨_, _, hiface, rfl⟩ (by rw [hcurrent])
  · obtain ⟨i, hi, hagrees, hwf⟩ := h.incident_of_open hclosed
    have hset : (v.current evidence.key).phase ≠ .unset := by
      intro hunset
      rw [hunset] at hclosed
      exact hclosed rfl
    simp only [Tracker.sighted, if_neg hset, hi]
    exact h.setOpen hclosed hwf { hagrees with } rfl

end Consistent

/-! ## Evidence of other interfaces -/

section

variable {eng : Engine} {v : View} {evidence : Evidence} {notifyEligible : Bool}

/-- The tracker under another key does not change. -/
lemma current_react_of_ne {key : String} (hkey : key ≠ evidence.key) (notifyEligible : Bool) :
    (v.react eng evidence notifyEligible).current key = v.current key := by
  rw [View.react]
  split_ifs
  · rfl
  · simp only [View.current, View.set, Function.update_of_ne hkey]

/-- The incident that evidence is about is no other interface's. -/
lemma Consistent.key_of_reaction (h : Consistent eng v) {i : Incident}
    (hi : v.incidents (reaction eng evidence notifyEligible
      { v.current evidence.key with lastEvidenceAt := evidence.at_ }).id = some i) :
    i.key = evidence.key := by
  have hopened : (v.current evidence.key).phase.openState ≠ none →
      v.incidents (v.current evidence.key).incidentID = some i → i.key = evidence.key := by
    intro hopen hi
    obtain ⟨j, hj, hagrees, -⟩ := h.incident_of_open hopen
    rw [Option.some.inj (hi.symm.trans hj), hagrees.key]
  cases honline : evidence.online <;> cases hphase : (v.current evidence.key).phase <;>
    simp only [reaction, honline, hphase] at hi
  case false.unset | false.healthy =>
      obtain ⟨messageID, horigin⟩ := (h.wellFormed hi).origin
      obtain ⟨hhost, hinterface, -⟩ := h.injective horigin
      rw [Incident.key, ← hhost, ← hinterface, Evidence.key]
  case true.unset | true.healthy =>
      have hclosed : (v.current evidence.key).phase.openState = none := by
        rw [hphase]
        rfl
      obtain ⟨_, _, hcurrent⟩ := h.current_of_closed hclosed
      rw [hcurrent, h.incidents_empty] at hi
      cases hi
  all_goals exact hopened (by rw [hphase]; exact Option.some_ne_none _) hi

/-- Evidence of one interface leaves the incidents of another. -/
lemma Consistent.incidents_react_of_ne (h : Consistent eng v) {id : String} {i : Incident}
    (hi : v.incidents id = some i) (hkey : i.key ≠ evidence.key) :
    (v.react eng evidence notifyEligible).incidents id = some i := by
  rw [View.react]
  split_ifs
  · exact hi
  · simp only [View.set]
    rw [Function.update_of_ne, hi]
    rintro rfl
    exact hkey (h.key_of_reaction hi)

end

/-- A sighting changes the tracker it is of. -/
lemma current_sight (evidence : Evidence) (v : View) (key : String) :
    (v.sight evidence).current key
      = if key = evidence.key then (v.current key).sighted evidence else v.current key := by
  split_ifs with hkey
  · rw [hkey]
    simp only [View.current, View.sight, View.set, Function.update_self, Option.getD_some]
  · simp only [View.current, View.sight, View.set, Function.update_of_ne hkey]

@[simp] lemma incidents_sight (evidence : Evidence) (v : View) :
    (v.sight evidence).incidents = v.incidents := Function.update_eq_self _ _

/-! ## `observeLocked` observes -/

/-- A snapshot after evidence that says no more than that the interface has been seen. -/
def Snapshot.sight (evidence : Evidence) (s : Snapshot) : Snapshot :=
  { s with
    trackers := s.trackers.insert evidence.key ((s.view.current evidence.key).sighted evidence) }

lemma view_sight (evidence : Evidence) (s : Snapshot) :
    (s.sight evidence).view = s.view.sight evidence := by
  ext1
  · funext k
    simp only [Snapshot.view, Snapshot.sight, View.sight, View.set, Function.update_apply,
      Dict.lookup_insert_ite]
  · simp only [Snapshot.view, Snapshot.sight, View.sight, View.set, Function.update_eq_self]

section

variable {eng : Engine} {orders : Schedule} {o : Observation} {s : Snapshot}

/-- What is no evidence changes nothing. -/
lemma observeLocked_of_none (h : eng.evidence o = none) :
    observeLocked eng orders o.message o.notifyEligible o.sourceRef s = s := by
  rw [Engine.evidence, Option.map_eq_none_iff] at h
  rw [observeLocked, h]

/-- What evidence does, by whether it is stale and whether it is a mere sighting. -/
lemma observeLocked_of_some {evidence : Evidence} (h : eng.evidence o = some evidence) :
    observeLocked eng orders o.message o.notifyEligible o.sourceRef s
      = if evidence.Stale (s.view.current evidence.key) then s
        else if evidence.observeOnly then s.sight evidence
        else observeEvidence eng evidence o.notifyEligible
          (advance eng.interface orders evidence.at_ s).1 := by
  obtain ⟨e, he, rfl⟩ := Option.map_eq_some_iff.mp h
  rw [observeLocked, he]
  rfl

end

/-- What evidence does to the view, if incidents are stored under their own IDs. -/
lemma view_observeEvidence_of_own {eng : Engine} {s : Snapshot}
    (hown : ∀ ⦃id i⦄, s.view.incidents id = some i → i.id = id) (evidence : Evidence)
    (notifyEligible : Bool) :
    (observeEvidence eng evidence notifyEligible s).view
      = s.view.react eng evidence notifyEligible := by
  have hcurrent : (s.trackers.lookup (trackerKey evidence.hostname evidence.iface)).getD {}
      = s.view.current evidence.key := rfl
  simp only [observeEvidence, View.react, hcurrent]
  by_cases hmasked : evidence.masked eng (s.view.current evidence.key) = true
  · rw [if_pos hmasked, if_pos]
    exact hmasked
  · rw [if_neg hmasked, if_neg]
    swap
    · exact hmasked
    generalize hc : { s.view.current evidence.key with lastEvidenceAt := evidence.at_ } = c
    have hid : ∀ i, s.incidents.lookup c.incidentID = some i → i.id = c.incidentID :=
      fun i hi => hown hi
    obtain ⟨htracker, hincidents⟩ := @react_eq eng evidence notifyEligible c s.incidents hid
    ext1
    · funext k
      simp only [Snapshot.view, View.set, Function.update_apply, Dict.lookup_insert_ite, htracker]
      rfl
    · funext k
      simp only [Snapshot.view, View.set, Function.update_apply, hincidents]

section

variable {eng : Engine} {s : Snapshot} (h : Consistent eng s.view)

include h

lemma view_observeEvidence (evidence : Evidence) (notifyEligible : Bool) :
    (observeEvidence eng evidence notifyEligible s).view
      = s.view.react eng evidence notifyEligible :=
  view_observeEvidence_of_own (fun _ _ hi => (h.wellFormed hi).id_eq) evidence notifyEligible

/-- **`observeLocked` observes**, whatever the order of its loops. -/
theorem view_observeLocked (orders : Schedule) (o : Observation) :
    (observeLocked eng orders o.message o.notifyEligible o.sourceRef s).view
      = s.view.take eng o := by
  rw [View.take]
  cases hevidence : eng.evidence o with
  | none => rw [observeLocked_of_none hevidence]
  | some evidence =>
      simp only [observeLocked_of_some hevidence, View.observe]
      split_ifs
      · rfl
      · exact view_sight evidence s
      · rw [view_observeEvidence (h.advance orders), advance_view h orders]

/-- **The invariant survives `observeLocked`.** -/
lemma Consistent.observeLocked (orders : Schedule) (o : Observation) :
    Consistent eng
      (Logthing.observeLocked eng orders o.message o.notifyEligible o.sourceRef s).view := by
  rw [view_observeLocked h, View.take]
  cases hevidence : eng.evidence o with
  | none => exact h
  | some evidence =>
      obtain ⟨-, -, hiface⟩ := evidence_eq_some hevidence
      simp only [View.observe]
      split_ifs
      · exact h
      · exact h.sight hiface
      · rw [← advance_view h orders]
        exact (h.advance orders).react hiface

end

/-- **The loop over the observations observes them one after another**, and the invariant
survives. -/
theorem view_observeAll {eng : Engine} (orders : ℕ → Schedule) (os : List Observation)
    {s : Snapshot} (h : Consistent eng s.view) :
    (observeAll eng orders os s).view = os.foldl (View.take eng) s.view ∧
      Consistent eng (observeAll eng orders os s).view := by
  induction os generalizing orders s with
  | nil => exact ⟨rfl, h⟩
  | cons o os ih =>
      rw [observeAll, List.foldl_cons, ← view_observeLocked h (orders 0) o]
      exact ih (fun n => orders (n + 1)) (h.observeLocked (orders 0) o)

/-- **The rule of the loop over the observations.**  What holds of the view and survives every
observation holds at the end. -/
lemma foldl_take_rule {eng : Engine} {P : View → Prop} {os : List Observation}
    (hstep : ∀ (s : Snapshot), ∀ o ∈ os, Consistent eng s.view → P s.view → P (s.view.take eng o))
    {s : Snapshot} (h : Consistent eng s.view) (hP : P s.view) :
    P (os.foldl (View.take eng) s.view) := by
  induction os generalizing s with
  | nil => exact hP
  | cons o os ih =>
      have hobserved := view_observeLocked h sortedSchedule o
      rw [List.foldl_cons, ← hobserved]
      refine ih (fun s' o' ho' => hstep s' o' (List.mem_cons_of_mem _ ho'))
        (h.observeLocked sortedSchedule o) ?_
      rw [hobserved]
      exact hstep s o List.mem_cons_self h hP

end Logthing
