import Logthing.Incidents.Silence
import Logthing.Incidents.Turns

/-!
# The part of one host

An engine keeps the outages of all hosts side by side, under one clock: evidence of any host lets
the timers of every host run out.  `View.ofHost` is what a view says of one host, and `Shadows` an
engine that holds the part of one host and no more.

**Main results.**  `Shadows.observe_own`, `Shadows.observe_other` and `Shadows.advance`: to the part
of a host its own evidence is that evidence, and the evidence of another host is a tick at most.
-/

namespace Logthing

/-! ## Views of one host -/

/-- The key is that of a tracker of the host. -/
def HostKey (eng : Engine) (hostname key : String) : Prop :=
  ∃ interface ∈ eng.interfaces, key = trackerKey hostname interface

instance (eng : Engine) (hostname key : String) : Decidable (HostKey eng hostname key) :=
  inferInstanceAs (Decidable (∃ interface ∈ eng.interfaces, key = trackerKey hostname interface))

/-- What a view says of one host. -/
def View.ofHost (eng : Engine) (hostname : String) (v : View) : View where
  trackers key := if HostKey eng hostname key then v.trackers key else none
  incidents id := (v.incidents id).filter fun i => i.hostname = hostname

section

variable {eng : Engine} {hostname key id : String} {v : View} {i : Incident} {current : Tracker}
  {evidence : Evidence} {now : Time}

lemma incidents_ofHost : (v.ofHost eng hostname).incidents id = some i ↔
    v.incidents id = some i ∧ i.hostname = hostname := by
  simp [View.ofHost, Option.filter_eq_some_iff]

lemma trackers_ofHost : (v.ofHost eng hostname).trackers key = some current ↔
    v.trackers key = some current ∧ HostKey eng hostname key := by
  simp [View.ofHost, and_comm]

lemma trackers_ofHost_of_key (hkey : HostKey eng hostname key) :
    (v.ofHost eng hostname).trackers key = v.trackers key := if_pos hkey

lemma current_ofHost (hkey : HostKey eng hostname key) :
    (v.ofHost eng hostname).current key = v.current key := by
  rw [View.current, View.current, trackers_ofHost_of_key hkey]

/-- The key of an incident is that of a tracker of its host. -/
lemma WellFormed.hostKey (h : WellFormed eng id i) : HostKey eng i.hostname i.key :=
  ⟨_, h.interface_mem, rfl⟩

/-- The key of evidence is that of a tracker of its host. -/
lemma Evidence.hostKey (hiface : evidence.iface ∈ eng.interfaces) :
    HostKey eng evidence.hostname evidence.key := ⟨_, hiface, rfl⟩

variable (hnul : '\x00' ∉ eng.interface.toList)

include hnul

/-- Hosts do not share trackers. -/
lemma HostKey.unique {hostname' : String} (h : HostKey eng hostname key)
    (h' : HostKey eng hostname' key) : hostname = hostname' := by
  obtain ⟨interface, hmem, rfl⟩ := h
  obtain ⟨interface', hmem', heq⟩ := h'
  exact (trackerKey_inj hnul hmem hmem' heq).1

lemma WellFormed.hostname_eq (h : WellFormed eng id i) (hkey : HostKey eng hostname i.key) :
    i.hostname = hostname := HostKey.unique hnul h.hostKey hkey

/-- **The part of a host is consistent** if the whole is. -/
lemma Consistent.ofHost (h : Consistent eng v) : Consistent eng (v.ofHost eng hostname) where
  injective := h.injective
  keyed hc := h.keyed (trackers_ofHost.mp hc).1
  names hc hopen := by
    obtain ⟨hc, hkey⟩ := trackers_ofHost.mp hc
    obtain ⟨i, hi, hagrees⟩ := h.names hc hopen
    rw [← hagrees.key] at hkey
    exact ⟨i, incidents_ofHost.mpr ⟨hi, (h.wellFormed hi).hostname_eq hnul hkey⟩, hagrees⟩
  closed hc := h.closed (trackers_ofHost.mp hc).1
  wellFormed hi := h.wellFormed (incidents_ofHost.mp hi).1
  named hi hstate := by
    obtain ⟨hwhole, rfl⟩ := incidents_ofHost.mp hi
    obtain ⟨current, hc, hnamed⟩ := h.named hwhole hstate
    exact ⟨current, trackers_ofHost.mpr ⟨hc, (h.wellFormed hwhole).hostKey⟩, hnamed⟩

/-- The incident of a tracker of the host is the host's. -/
lemma incidents_of_pending (h : Consistent eng v) (hc : v.trackers key = some current)
    (hopen : current.phase.openState ≠ none) (hkey : HostKey eng hostname key) :
    (v.ofHost eng hostname).incidents current.incidentID = v.incidents current.incidentID := by
  obtain ⟨i, hi, hagrees⟩ := h.names hc hopen
  rw [← hagrees.key] at hkey
  rw [hi, incidents_ofHost]
  exact ⟨hi, (h.wellFormed hi).hostname_eq hnul hkey⟩

/-- **Timers** run out in the part of a host as they do in the whole. -/
lemma ofHost_settle (h : Consistent eng v) (now : Time) :
    (v.settle now).ofHost eng hostname = (v.ofHost eng hostname).settle now := by
  ext1
  · funext key
    simp only [View.ofHost, View.settle]
    split_ifs with hkey
    swap
    · rfl
    cases hc : v.trackers key with
    | none => rfl
    | some current =>
        simp only [Option.map_some, Option.some.injEq]
        by_cases hopen : current.phase.openState = none
        · have hstays : ∀ v' : View, v'.settledTracker now current = current := by
            intro v'
            rw [View.settledTracker]
            cases v'.incidents current.incidentID with
            | none => rfl
            | some i => exact if_neg fun hdue => Tracker.open_of_pending hdue.1 hopen
          exact (hstays v).trans (hstays _).symm
        · have hsame := incidents_of_pending hnul h hc hopen hkey
          simp only [View.ofHost] at hsame
          simp only [View.settledTracker]
          rw [hsame]
  · funext id
    simp only [View.ofHost, View.settle]
    cases hi : v.incidents id with
    | none => rfl
    | some i =>
        have hhost : (v.settledIncident now i).hostname = i.hostname := by
          rw [View.settledIncident]
          split
          · split_ifs
            · rw [Incident.fired]
              split_ifs
              · rfl
              · rfl
            · rfl
          · rfl
        simp only [Option.map_some, Option.filter_some, hhost]
        by_cases hown : i.hostname = hostname
        swap
        · simp [hown]
        simp only [hown, decide_true, if_true, Option.map_some, View.settledIncident]
        have hkey : HostKey eng hostname i.key := by
          rw [← hown]
          exact (h.wellFormed hi).hostKey
        rw [if_pos hkey]

end

/-! ## Evidence -/

section

variable {eng : Engine} {hostname key id : String} {v : View} {current : Tracker}
  {evidence : Evidence} {incident : Option Incident}

/-- What is stored about the host is stored in its part. -/
lemma ofHost_set_own (hkey : HostKey eng hostname key)
    (hincident : ∀ i, incident = some i → i.hostname = hostname) :
    (v.set key current id incident).ofHost eng hostname
      = (v.ofHost eng hostname).set key current id incident := by
  ext1
  · funext k
    simp only [View.ofHost, View.set, Function.update_apply]
    by_cases hk : k = key
    · simp [hk, hkey]
    · simp [hk]
  · funext k
    simp only [View.ofHost, View.set, Function.update_apply]
    split_ifs
    · cases incident with
      | none => rfl
      | some i => simp [hincident i rfl]
    · rfl

/-- What is stored about another host is not. -/
lemma ofHost_set_other (hkey : ¬ HostKey eng hostname key)
    (hbefore : ∀ i, v.incidents id = some i → i.hostname ≠ hostname)
    (hincident : ∀ i, incident = some i → i.hostname ≠ hostname) :
    (v.set key current id incident).ofHost eng hostname = v.ofHost eng hostname := by
  ext1
  · funext k
    simp only [View.ofHost, View.set, Function.update_apply]
    by_cases hk : k = key
    · simp [hk, hkey]
    · simp [hk]
  · funext k
    simp only [View.ofHost, View.set, Function.update_apply]
    split_ifs with hk
    · subst hk
      have hnone : ∀ found : Option Incident, (∀ i, found = some i → i.hostname ≠ hostname) →
          found.filter (fun i => i.hostname = hostname) = none := by
        intro found hfound
        cases found with
        | none => rfl
        | some i => simp [hfound i rfl]
      rw [hnone _ hincident, hnone _ hbefore]
    · rfl

variable (hnul : '\x00' ∉ eng.interface.toList) (h : Consistent eng v)
  (hiface : evidence.iface ∈ eng.interfaces)

include hnul h hiface

/-- The incident that evidence is about is of the host of the evidence. -/
lemma Consistent.hostname_of_reacted {notifyEligible : Bool} {i : Incident}
    (hi : v.incidents (reaction eng evidence notifyEligible
      { v.current evidence.key with lastEvidenceAt := evidence.at_ }).id = some i) :
    i.hostname = evidence.hostname := by
  have hkey := h.key_of_reaction hi
  refine (h.wellFormed hi).hostname_eq hnul ?_
  rw [hkey]
  exact Evidence.hostKey hiface

/-- The incident that evidence makes is, too. -/
lemma Consistent.hostname_of_reaction {notifyEligible : Bool} {i : Incident}
    (hi : (reaction eng evidence notifyEligible
        { v.current evidence.key with lastEvidenceAt := evidence.at_ }).incident
      (v.incidents (reaction eng evidence notifyEligible
        { v.current evidence.key with lastEvidenceAt := evidence.at_ }).id) = some i) :
    i.hostname = evidence.hostname := by
  have hbefore : ∀ j, v.incidents (reaction eng evidence notifyEligible
      { v.current evidence.key with lastEvidenceAt := evidence.at_ }).id = some j →
      j.hostname = evidence.hostname := fun j hj => h.hostname_of_reacted hnul hiface hj
  cases honline : evidence.online <;> cases hphase : (v.current evidence.key).phase <;>
    simp only [reaction, honline, hphase] at hi hbefore
  case false.unset | false.healthy =>
      rw [← Option.some.inj hi]
      rfl
  case true.unset | true.healthy => exact hbefore i hi
  case true.pendingFailure => cases hi
  all_goals
    obtain ⟨j, hj, rfl⟩ := Option.map_eq_some_iff.mp hi
    exact hbefore j hj

/-- The part of a host reacts to its own evidence as the whole does. -/
lemma ofHost_react_own (notifyEligible : Bool) :
    (v.react eng evidence notifyEligible).ofHost eng evidence.hostname
      = (v.ofHost eng evidence.hostname).react eng evidence notifyEligible := by
  have hkey : HostKey eng evidence.hostname evidence.key := Evidence.hostKey hiface
  simp only [View.react, current_ofHost hkey]
  split_ifs
  · rfl
  rw [ofHost_set_own hkey fun i hi => h.hostname_of_reaction hnul hiface hi]
  have hsame : (v.ofHost eng evidence.hostname).incidents (reaction eng evidence notifyEligible
      { v.current evidence.key with lastEvidenceAt := evidence.at_ }).id
      = v.incidents (reaction eng evidence notifyEligible
        { v.current evidence.key with lastEvidenceAt := evidence.at_ }).id := by
    cases hi : v.incidents (reaction eng evidence notifyEligible
        { v.current evidence.key with lastEvidenceAt := evidence.at_ }).id with
    | none => simp [View.ofHost, hi]
    | some i => exact incidents_ofHost.mpr ⟨hi, h.hostname_of_reacted hnul hiface hi⟩
  rw [hsame]

/-- It does not react to the evidence of another. -/
lemma ofHost_react_other (hother : evidence.hostname ≠ hostname) (notifyEligible : Bool) :
    (v.react eng evidence notifyEligible).ofHost eng hostname = v.ofHost eng hostname := by
  simp only [View.react]
  split_ifs
  · rfl
  refine ofHost_set_other ?_ ?_ ?_
  · exact fun hkey => hother (HostKey.unique hnul (Evidence.hostKey hiface) hkey)
  · intro i hi
    rw [h.hostname_of_reacted hnul hiface hi]
    exact hother
  · intro i hi
    rw [h.hostname_of_reaction hnul hiface hi]
    exact hother

/-- The incident that a tracker names is of its host. -/
lemma Consistent.hostname_of_current {i : Incident}
    (hi : v.incidents (v.current evidence.key).incidentID = some i) :
    i.hostname = evidence.hostname := by
  by_cases hclosed : (v.current evidence.key).phase.openState = none
  · obtain ⟨_, _, hcurrent⟩ := h.current_of_closed hclosed
    rw [hcurrent, h.incidents_empty] at hi
    cases hi
  · obtain ⟨j, hj, hagrees, hwf⟩ := h.incident_of_open hclosed
    obtain rfl := Option.some.inj (hi.symm.trans hj)
    refine hwf.hostname_eq hnul ?_
    rw [hagrees.key]
    exact Evidence.hostKey hiface

lemma ofHost_sight_own :
    (v.sight evidence).ofHost eng evidence.hostname
      = (v.ofHost eng evidence.hostname).sight evidence := by
  have hkey : HostKey eng evidence.hostname evidence.key := Evidence.hostKey hiface
  simp only [View.sight, current_ofHost hkey]
  rw [ofHost_set_own hkey fun i hi => h.hostname_of_current hnul hiface hi]
  have hsame : (v.ofHost eng evidence.hostname).incidents (v.current evidence.key).incidentID
      = v.incidents (v.current evidence.key).incidentID := by
    cases hi : v.incidents (v.current evidence.key).incidentID with
    | none => simp [View.ofHost, hi]
    | some i => exact incidents_ofHost.mpr ⟨hi, h.hostname_of_current hnul hiface hi⟩
  rw [hsame]

lemma ofHost_sight_other (hother : evidence.hostname ≠ hostname) :
    (v.sight evidence).ofHost eng hostname = v.ofHost eng hostname := by
  have hhost : ∀ i, v.incidents (v.current evidence.key).incidentID = some i →
      i.hostname ≠ hostname := by
    intro i hi
    rw [h.hostname_of_current hnul hiface hi]
    exact hother
  refine ofHost_set_other ?_ hhost hhost
  exact fun hkey => hother (HostKey.unique hnul (Evidence.hostKey hiface) hkey)

end

/-- Evidence that counts is neither late for its tracker nor a mere sighting. -/
def Evidence.Counts (evidence : Evidence) (current : Tracker) : Prop :=
  ¬ evidence.Stale current ∧ evidence.observeOnly = false

instance (evidence : Evidence) (current : Tracker) : Decidable (evidence.Counts current) :=
  inferInstanceAs (Decidable (_ ∧ _))

section

variable {eng : Engine} {s : Snapshot} {o : Observation} {evidence : Evidence}
  (hnul : '\x00' ∉ eng.interface.toList) (h : Consistent eng s.view)
  (he : eng.evidence o = some evidence)

include hnul h he

/-- **The part of a host takes its own observations** as the whole does. -/
lemma ofHost_take_own : (s.view.take eng o).ofHost eng evidence.hostname
    = (s.view.ofHost eng evidence.hostname).take eng o := by
  obtain ⟨-, -, hiface⟩ := evidence_eq_some he
  simp only [View.take, he, View.observe, current_ofHost (Evidence.hostKey hiface)]
  split_ifs
  · rfl
  · exact ofHost_sight_own hnul h hiface
  · rw [ofHost_react_own hnul (h.settle _) hiface, ofHost_settle hnul h]

/-- **The observation of another host** lets timers run out, if it counts. -/
lemma ofHost_take_other {hostname : String} (hother : evidence.hostname ≠ hostname) :
    (s.view.take eng o).ofHost eng hostname
      = if evidence.Counts (s.view.current evidence.key) then
          (s.view.ofHost eng hostname).settle evidence.at_
        else s.view.ofHost eng hostname := by
  obtain ⟨-, -, hiface⟩ := evidence_eq_some he
  simp only [View.take, he, View.observe]
  by_cases hcounts : evidence.Counts (s.view.current evidence.key)
  · rw [if_pos hcounts, if_neg hcounts.1, if_neg (by rw [hcounts.2]; exact Bool.false_ne_true),
      ofHost_react_other hnul (h.settle _) hiface hother, ofHost_settle hnul h]
  · rw [if_neg hcounts]
    split_ifs with hstale honly
    · rfl
    · exact ofHost_sight_other hnul h hiface hother
    · exact absurd ⟨hstale, by simpa using honly⟩ hcounts

end

/-! ## Jobs of one host -/

lemma AboutHost.colonFree {eng : Engine} {hostname id : String} (h : AboutHost eng hostname id) :
    ':' ∉ id.toList := by
  obtain ⟨interface, started, messageID, rfl⟩ := h
  exact eng.ids.noColon _ _ _ _

/-- An incident is about its host. -/
lemma WellFormed.aboutHost {eng : Engine} {id : String} {i : Incident} (h : WellFormed eng id i) :
    AboutHost eng i.hostname i.id := by
  obtain ⟨messageID, horigin⟩ := h.origin
  exact ⟨_, _, messageID, h.id_eq.trans horigin⟩

/-- The jobs of the whole each record a notice about some host, and those of the part are the ones
about one host. -/
structure JobsOf (eng : Engine) (hostname : String) (whole part : Dict String NotificationJob) :
    Prop where
  filed : ∀ ⦃key job⦄, whole.lookup key = some job → ∃ n : Notice,
    (∃ host, AboutHost eng host n.incidentID) ∧ n.jobID = key ∧ n.fact = job.fact
  part : ∀ key fact, (∃ job, part.lookup key = some job ∧ job.fact = fact) ↔
    (∃ job, whole.lookup key = some job ∧ job.fact = fact) ∧
      AboutHost eng hostname fact.incidentID

namespace JobsOf

variable {eng : Engine} {hostname : String} {whole part : Dict String NotificationJob} {n : Notice}

/-- What is filed under the ID of a notice is about the same incident. -/
lemma incidentID_eq (h : JobsOf eng hostname whole part) {host : String}
    (hn : AboutHost eng host n.incidentID) {job : NotificationJob}
    (hjob : whole.lookup n.jobID = some job) : job.incidentID = n.incidentID := by
  obtain ⟨m, ⟨host', hm⟩, hid, hfact⟩ := h.filed hjob
  obtain ⟨hsame, -⟩ := Notice.jobID_inj hm.colonFree hn.colonFree hid
  rw [← hsame]
  exact (congrArg JobFact.incidentID hfact).symm

lemma filed_insertNew (h : JobsOf eng hostname whole part) {host : String}
    (hn : AboutHost eng host n.incidentID) ⦃key : String⦄ ⦃job : NotificationJob⦄
    (hjob : (whole.insertNew n.jobID n.job).lookup key = some job) : ∃ m : Notice,
      (∃ host, AboutHost eng host m.incidentID) ∧ m.jobID = key ∧ m.fact = job.fact := by
  rw [Dict.lookup_insertNew] at hjob
  split_ifs at hjob with hnew
  · rw [← Option.some.inj hjob]
    exact ⟨n, ⟨host, hn⟩, hnew.1.symm, rfl⟩
  · exact h.filed hjob

/-- **A notice about the host** is enqueued in both. -/
lemma insertNew_own (h : JobsOf eng hostname whole part) (hn : AboutHost eng hostname n.incidentID) :
    JobsOf eng hostname (whole.insertNew n.jobID n.job) (part.insertNew n.jobID n.job) where
  filed := h.filed_insertNew hn
  part key fact := by
    have hmem : n.jobID ∈ part ↔ n.jobID ∈ whole := by
      rw [Finmap.mem_iff, Finmap.mem_iff]
      constructor
      · rintro ⟨job, hjob⟩
        obtain ⟨⟨job', hjob', -⟩, -⟩ := (h.part _ _).mp ⟨job, hjob, rfl⟩
        exact ⟨job', hjob'⟩
      · rintro ⟨job, hjob⟩
        have habout : AboutHost eng hostname job.fact.incidentID := by
          rw [show job.fact.incidentID = n.incidentID from h.incidentID_eq hn hjob]
          exact hn
        obtain ⟨job', hjob', -⟩ := (h.part _ _).mpr ⟨⟨job, hjob, rfl⟩, habout⟩
        exact ⟨job', hjob'⟩
    simp only [Dict.lookup_insertNew, hmem]
    split_ifs
    · constructor
      · rintro ⟨job, hjob, rfl⟩
        obtain rfl := Option.some.inj hjob
        exact ⟨⟨_, rfl, rfl⟩, hn⟩
      · exact And.left
    · exact h.part key fact

/-- **A notice about another host** is enqueued in the whole. -/
lemma insertNew_other (h : JobsOf eng hostname whole part) {host : String}
    (hn : AboutHost eng host n.incidentID) (hother : ¬ AboutHost eng hostname n.incidentID) :
    JobsOf eng hostname (whole.insertNew n.jobID n.job) part where
  filed := h.filed_insertNew hn
  part key fact := by
    rw [h.part key fact, Dict.lookup_insertNew]
    split_ifs with hnew
    · have hnone : whole.lookup key = none := by
        rw [hnew.1]
        exact Finmap.lookup_eq_none.mpr hnew.2
      rw [hnone]
      constructor
      · rintro ⟨⟨job, hjob, -⟩, -⟩
        cases hjob
      · rintro ⟨⟨job, hjob, rfl⟩, habout⟩
        rw [← Option.some.inj hjob] at habout
        exact absurd habout hother
    · rfl

/-- Notices about the host are enqueued in both. -/
lemma enqueueAll_own {notices : List Notice} (h : JobsOf eng hostname whole part)
    (hall : ∀ n ∈ notices, AboutHost eng hostname n.incidentID) :
    JobsOf eng hostname (enqueueAll whole notices) (enqueueAll part notices) := by
  induction notices generalizing whole part with
  | nil => exact h
  | cons n notices ih =>
      exact ih (h.insertNew_own (hall n List.mem_cons_self)) fun m hm =>
        hall m (List.mem_cons_of_mem _ hm)

/-- Notices about another host are enqueued in the whole. -/
lemma enqueueAll_other (hids : eng.ids.Injective) {host : String} (hother : host ≠ hostname)
    {notices : List Notice} (h : JobsOf eng hostname whole part)
    (hall : ∀ n ∈ notices, AboutHost eng host n.incidentID) :
    JobsOf eng hostname (enqueueAll whole notices) part := by
  induction notices generalizing whole with
  | nil => exact h
  | cons n notices ih =>
      have hn := hall n List.mem_cons_self
      refine ih (h.insertNew_other hn fun habout => hother ?_) fun m hm =>
        hall m (List.mem_cons_of_mem _ hm)
      obtain ⟨interface, started, messageID, hid⟩ := hn
      obtain ⟨interface', started', messageID', hid'⟩ := habout
      exact (hids (hid.symm.trans hid')).1

end JobsOf

/-! ## Turns -/

/-- The order in which the incidents of a host are visited among all. -/
def hostOrder (hostname : String) (incidents : Dict String Incident) (order : Traversal String) :
    Traversal String :=
  .leading (((order.visit incidents).filter fun kv => kv.2.hostname = hostname).map Prod.fst)

section

variable {hostname : String} {whole part : Dict String Incident}
  (hpart : ∀ id i, part.lookup id = some i ↔ whole.lookup id = some i ∧ i.hostname = hostname)

include hpart

lemma visit_hostOrder (order : Traversal String) : (hostOrder hostname whole order).visit part
    = (order.visit whole).filter fun kv => kv.2.hostname = hostname := by
  refine Traversal.leading_visit part ?_ fun id i => ?_
  · exact ((List.filter_sublist).map Prod.fst).nodup (order.nodup whole)
  · rw [List.mem_filter, order.mem_visit, decide_eq_true_eq, hpart]

lemma primaryDownAt_hostOrder (interface : String) (order : Traversal String) (at_ : Time) :
    primaryDownAt interface (hostOrder hostname whole order) part hostname at_
      = primaryDownAt interface order whole hostname at_ := by
  rw [primaryDownAt, primaryDownAt, visit_hostOrder hpart, List.find?_filter]
  congr 2
  funext kv
  by_cases hhost : kv.2.hostname = hostname <;> simp [Incident.primaryDown, hhost]

lemma escalationNotices_hostOrder (interface : String) (order : Traversal String)
    (primaryID : String) (at_ : Time) :
    escalationNotices interface (hostOrder hostname whole order) part hostname primaryID at_
      = escalationNotices interface order whole hostname primaryID at_ := by
  rw [escalationNotices, escalationNotices, visit_hostOrder hpart, List.filter_filter]
  congr 2
  funext kv
  by_cases hhost : kv.2.hostname = hostname <;> simp [Incident.escalates, hhost]

/-- **A turn of the host has the notices it has in the whole**, in some order of the incidents. -/
lemma turnNotices_hostOrder (interface : String) (orders : Orders) (current : Tracker)
    {fired : Incident} (hfired : fired.hostname = hostname) (at_ : Time) :
    turnNotices interface ⟨orders.due, hostOrder hostname whole orders.primary,
        hostOrder hostname whole orders.fallbacks⟩ current fired part at_
      = turnNotices interface orders current fired whole at_ := by
  subst hfired
  simp only [turnNotices, activationNotice, primaryDownAt_hostOrder hpart,
    escalationNotices_hostOrder hpart]

end

/-- The notices of a turn are about its host. -/
lemma about_of_mem_turnNotices {eng : Engine} {interface : String} {orders : Orders}
    {current : Tracker} {fired : Incident} {incidents : Dict String Incident} {at_ : Time}
    (hfired : AboutHost eng fired.hostname fired.id)
    (hall : ∀ id i, incidents.lookup id = some i → AboutHost eng i.hostname i.id) {n : Notice}
    (hn : n ∈ turnNotices interface orders current fired incidents at_) :
    AboutHost eng fired.hostname n.incidentID := by
  by_cases hphase : current.phase = .pendingFailure
  · rw [turnNotices, if_pos hphase, List.mem_append, List.mem_ite_nil_right,
      List.mem_ite_nil_right] at hn
    rcases hn with ⟨-, hn⟩ | ⟨-, hn⟩
    · rw [List.mem_singleton.mp hn]
      exact hfired
    · obtain ⟨kv, hkv, rfl⟩ := List.mem_map.mp hn
      obtain ⟨hvisit, hescalates⟩ := List.mem_filter.mp hkv
      rw [← (Incident.escalates_iff.mp hescalates).1]
      exact hall kv.1 kv.2 ((orders.fallbacks.mem_visit _ _ _).mp hvisit)
  · rw [turnNotices, if_neg hphase, List.mem_ite_nil_right] at hn
    rw [List.mem_singleton.mp hn.2]
    exact hfired

/-! ## The part of a host in the whole -/

/-- Evidence that counts adds the jobs that time adds until then. -/
lemma jobs_observeLocked {eng : Engine} {o : Observation} {evidence : Evidence}
    (he : eng.evidence o = some evidence) (orders : Schedule) (s : Snapshot) :
    (observeLocked eng orders o.message o.notifyEligible o.sourceRef s).jobs
      = if evidence.Counts (s.view.current evidence.key) then
          (advance eng.interface orders evidence.at_ s).1.jobs
        else s.jobs := by
  rw [observeLocked_of_some he]
  by_cases hcounts : evidence.Counts (s.view.current evidence.key)
  · rw [if_pos hcounts, if_neg hcounts.1, if_neg (by rw [hcounts.2]; exact Bool.false_ne_true)]
    simp only [observeEvidence]
    split_ifs
    · rfl
    · rfl
  · rw [if_neg hcounts]
    split_ifs with hstale honly
    · rfl
    · rfl
    · exact absurd ⟨hstale, by simpa using honly⟩ hcounts

/-- **An engine with the part of one host**: what another says of the host is what it says. -/
structure Shadows (eng : Engine) (hostname : String) (s t : Snapshot) : Prop where
  view : t.view = s.view.ofHost eng hostname
  jobs : JobsOf eng hostname s.jobs t.jobs

namespace Shadows

variable {eng : Engine} {hostname : String} {s t : Snapshot} {now : Time}

/-- Nothing has happened yet. -/
lemma empty (eng : Engine) (hostname : String) : Shadows eng hostname {} {} where
  view := by
    ext1
    · funext key
      exact (ite_self none).symm
    · rfl
  jobs :=
    { filed := fun _ _ hjob => by cases hjob
      part := fun key fact => by
        constructor
        · rintro ⟨job, hjob, -⟩
          cases hjob
        · rintro ⟨⟨job, hjob, -⟩, -⟩
          cases hjob }

variable (hnul : '\x00' ∉ eng.interface.toList) (hcons : Consistent eng s.view)
  (h : Shadows eng hostname s t)

include hnul hcons h

lemma consistent : Consistent eng t.view := by
  rw [h.view]
  exact hcons.ofHost hnul

/-- **A turn** is a turn of the part as well, or it does not concern it. -/
lemma turn {s' : Snapshot} (hturn : Turned eng now s s') :
    ∃ t', Shadows eng hostname s' t' ∧ Turns eng now t t' := by
  obtain ⟨orders, key, current, incident, hfires, rfl⟩ := hturn
  have hview : (advanceOne eng.interface orders key current s).view
      = s.view.fire key current incident := view_advanceOne hfires.incident_eq
  have hafter := hcons.fire hfires.tracker_eq hfires.due.1 hfires.incident_eq
  obtain ⟨x, hx, hagrees⟩ := hcons.names hfires.tracker_eq (Tracker.open_of_pending hfires.due.1)
  have hsame : incident = x := Option.some.inj (hfires.incident_eq.symm.trans hx)
  subst hsame
  have hwf := hcons.wellFormed hx
  have hhost : (incident.fired current).hostname = incident.hostname := by
    rw [Incident.fired]
    split_ifs
    · rfl
    · rfl
  have hkey : HostKey eng incident.hostname key := by
    rw [← hagrees.key]
    exact hwf.hostKey
  rw [← hview] at hafter
  have hjobs : (advanceOne eng.interface orders key current s).jobs
      = enqueueAll s.jobs (turnNotices eng.interface orders current (incident.fired current)
        (advanceOne eng.interface orders key current s).incidents (current.dueAt incident)) := by
    rw [advanceOne_eq hfires.incident_eq]
  have habout : ∀ n ∈ turnNotices eng.interface orders current (incident.fired current)
      (advanceOne eng.interface orders key current s).incidents (current.dueAt incident),
      AboutHost eng incident.hostname n.incidentID := by
    rw [← hhost]
    refine fun n hn =>
      about_of_mem_turnNotices ?_ (fun id i hi => (hafter.wellFormed hi).aboutHost) hn
    rw [hhost, Incident.fired_id]
    exact hwf.aboutHost
  by_cases hown : incident.hostname = hostname
  swap
  · -- the timer of another host
    refine ⟨t, ⟨?_, ?_⟩, .refl⟩
    · rw [h.view, hview, View.fire, hwf.id_eq]
      refine (ofHost_set_other (fun hkey' => hown (HostKey.unique hnul hkey hkey')) ?_ ?_).symm
      · intro i hi
        rw [← Option.some.inj (hfires.incident_eq.symm.trans hi)]
        exact hown
      · intro i hi
        rw [← Option.some.inj hi, hhost]
        exact hown
    · rw [hjobs]
      exact h.jobs.enqueueAll_other hcons.injective hown habout
  -- its own, which fires in the part
  subst hown
  have hpart : Fires eng.interface now t.view key current incident := by
    rw [h.view]
    refine ⟨trackers_ofHost.mpr ⟨hfires.tracker_eq, hkey⟩,
      incidents_ofHost.mpr ⟨hfires.incident_eq, rfl⟩, hfires.due, fun hc' hi' hdue' => ?_⟩
    exact hfires.first (trackers_ofHost.mp hc').1 (incidents_ofHost.mp hi').1 hdue'
  generalize hafterIncidents : (advanceOne eng.interface orders key current s).incidents
    = after at hjobs habout
  generalize horders : (⟨orders.due, hostOrder incident.hostname after orders.primary,
    hostOrder incident.hostname after orders.fallbacks⟩ : Orders) = orders'
  have hview' : (advanceOne eng.interface orders' key current t).view
      = (advanceOne eng.interface orders key current s).view.ofHost eng incident.hostname := by
    rw [view_advanceOne hpart.incident_eq, h.view, hview]
    refine (ofHost_set_own hkey fun i hi => ?_).symm
    rw [← Option.some.inj hi, hhost]
  refine ⟨_, ⟨hview', ?_⟩, .single ⟨orders', key, current, incident, hpart, rfl⟩⟩
  have hincidents : ∀ id i,
      (advanceOne eng.interface orders' key current t).incidents.lookup id = some i ↔
        after.lookup id = some i ∧ i.hostname = incident.hostname := by
    intro id i
    rw [← hafterIncidents]
    have hsame := congrFun (congrArg View.incidents hview') id
    simp only [Snapshot.view] at hsame
    rw [hsame]
    exact incidents_ofHost
  have hnotices := turnNotices_hostOrder hincidents eng.interface orders current hhost
    (current.dueAt incident)
  rw [horders] at hnotices
  have hjobs' : (advanceOne eng.interface orders' key current t).jobs
      = enqueueAll t.jobs (turnNotices eng.interface orders' current (incident.fired current)
        (advanceOne eng.interface orders' key current t).incidents (current.dueAt incident)) := by
    rw [advanceOne_eq hpart.incident_eq]
  rw [hjobs, hjobs', hnotices]
  exact h.jobs.enqueueAll_own habout

/-- **The passage of time** is the same in the part, in some order of its loops. -/
lemma advance (orders : Schedule) (now : Time) : ∃ orders', Shadows eng hostname
    (advance eng.interface orders now s).1 (advance eng.interface orders' now t).1 := by
  obtain ⟨hturns, hidle⟩ := @advance_turns eng now s hcons orders
  have hrun : ∀ {s'}, Turns eng now s s' → Consistent eng s'.view ∧
      ∃ t', Shadows eng hostname s' t' ∧ Turns eng now t t' := by
    intro s' hturns
    induction hturns with
    | refl => exact ⟨hcons, t, h, .refl⟩
    | tail _ hturn ih =>
        obtain ⟨hcons', t', h', hturns'⟩ := ih
        obtain ⟨t'', h'', hmore⟩ := turn hnul hcons' h' hturn
        exact ⟨hturn.consistent hcons', t'', h'', hturns'.trans hmore⟩
  obtain ⟨-, t', h', hturns'⟩ := hrun hturns
  have hidle' : t'.view.Idle now := by
    intro key current incident hc hi
    rw [h'.view] at hc hi
    exact hidle (trackers_ofHost.mp hc).1 (incidents_ofHost.mp hi).1
  obtain ⟨orders', hadvance⟩ := exists_advance_of_turns (h.consistent hnul hcons) hturns' hidle'
  refine ⟨orders', ?_⟩
  rw [hadvance]
  exact h'

/-- **Its own observation** is the same in the part. -/
lemma observe_own {o : Observation} {evidence : Evidence} (he : eng.evidence o = some evidence)
    (hown : evidence.hostname = hostname) (orders : Schedule) : ∃ orders', Shadows eng hostname
      (observeLocked eng orders o.message o.notifyEligible o.sourceRef s)
      (observeLocked eng orders' o.message o.notifyEligible o.sourceRef t) := by
  subst hown
  obtain ⟨-, -, hiface⟩ := evidence_eq_some he
  obtain ⟨orders', hadvance⟩ := h.advance hnul hcons orders evidence.at_
  have hcurrent : t.view.current evidence.key = s.view.current evidence.key := by
    rw [h.view, current_ofHost (Evidence.hostKey hiface)]
  refine ⟨orders', ?_, ?_⟩
  · rw [view_observeLocked (h.consistent hnul hcons), view_observeLocked hcons, h.view,
      ofHost_take_own hnul hcons he]
  · rw [jobs_observeLocked he, jobs_observeLocked he, hcurrent]
    split_ifs
    · exact hadvance.jobs
    · exact h.jobs

/-- **The observation of another host** is a tick at most. -/
lemma observe_other {o : Observation} {evidence : Evidence} (he : eng.evidence o = some evidence)
    (hother : evidence.hostname ≠ hostname) (orders : Schedule) : ∃ t', Shadows eng hostname
        (observeLocked eng orders o.message o.notifyEligible o.sourceRef s) t' ∧
      if evidence.Counts (s.view.current evidence.key) then
        ∃ orders', t' = (Logthing.advance eng.interface orders' evidence.at_ t).1
      else t' = t := by
  obtain ⟨orders', hadvance⟩ := h.advance hnul hcons orders evidence.at_
  have hview := ofHost_take_other hnul hcons he hother
  rw [← view_observeLocked hcons orders] at hview
  by_cases hcounts : evidence.Counts (s.view.current evidence.key)
  · rw [if_pos hcounts] at hview
    refine ⟨_, ⟨?_, ?_⟩, by rw [if_pos hcounts]; exact ⟨orders', rfl⟩⟩
    · rw [advance_view (h.consistent hnul hcons), h.view, hview]
    · rw [jobs_observeLocked he, if_pos hcounts]
      exact hadvance.jobs
  · rw [if_neg hcounts] at hview
    refine ⟨t, ⟨?_, ?_⟩, by rw [if_neg hcounts]⟩
    · rw [h.view, hview]
    · rw [jobs_observeLocked he, if_neg hcounts]
      exact h.jobs

end Shadows

end Logthing
