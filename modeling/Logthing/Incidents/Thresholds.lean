import Logthing.Incidents.Runs

/-!
# Captured thresholds

An incident keeps the durations that were configured when it was created, and its times follow from
them.  `Captured` says so without naming a configuration, so that it survives a restart with another
one.  `Rebuild` creates the incidents anew, with the durations of the moment.

**Main results.**  `thresholds_run`: over restarts and rebuilds the durations of an incident stay as
they are, as long as no evidence opens it again under other ones.
-/

namespace Logthing

/-! ## What an incident is captured with -/

/-- An incident is activated and resolved by its own durations. -/
structure Incident.Timed (incident : Incident) : Prop where
  activated : ∀ a, incident.activatedAt = some a → a = incident.startedAt + incident.downAfter
  resolved : ∀ x, incident.resolvedAt = some x →
    ∃ r, incident.recoveryFirstAt = some r ∧ x = r + incident.recoveredAfter

/-- What the timers of a tracker rely on in its incident. -/
structure Incident.Follows (incident : Incident) (current : Tracker) : Prop where
  open_ : incident.resolvedAt = none
  failing : current.phase = .pendingFailure → incident.startedAt = current.pendingSince
  recovering : current.phase = .pendingRecovery →
    incident.recoveryFirstAt = some current.recoverySince

/-- **The part of the invariant that no configuration enters.** -/
structure Captured (ids : IncidentIDs) (v : View) : Prop where
  own : ∀ ⦃id i⦄, v.incidents id = some i → i.id = id
  timed : ∀ ⦃id i⦄, v.incidents id = some i → i.Timed
  named : ∀ ⦃key current⦄, v.trackers key = some current → current.phase.openState ≠ none →
    ∃ h i m, key = trackerKey h i ∧
      current.incidentID = ids.incidentID h i current.pendingSince m
  follows : ∀ ⦃key current⦄, v.trackers key = some current → current.phase.openState ≠ none →
    ∃ i, v.incidents current.incidentID = some i ∧ i.Follows current

namespace Captured

variable {ids : IncidentIDs} {v : View}

lemma empty : Captured ids ⟨fun _ => none, fun _ => none⟩ where
  own _ _ hi := nomatch hi
  timed _ _ hi := nomatch hi
  named _ _ hc := nomatch hc
  follows _ _ hc := nomatch hc

/-- Open trackers with one incident ID have one key. -/
lemma key_eq (h : Captured ids v) (hids : ids.Injective) {key key' : String}
    {current current' : Tracker} (hc : v.trackers key = some current)
    (hopen : current.phase.openState ≠ none) (hc' : v.trackers key' = some current')
    (hopen' : current'.phase.openState ≠ none) (hid : current.incidentID = current'.incidentID) :
    key = key' := by
  obtain ⟨host, interface, m, rfl, hfirst⟩ := h.named hc hopen
  obtain ⟨host', interface', m', rfl, hsecond⟩ := h.named hc' hopen'
  rw [hfirst, hsecond] at hid
  obtain ⟨rfl, rfl, -⟩ := hids hid
  rfl

/-- **Storing a tracker with its incident** keeps the invariant if no other tracker has that
incident. -/
lemma set (h : Captured ids v) {key id : String} {current : Tracker} {incident : Option Incident}
    (hown : ∀ i, incident = some i → i.id = id ∧ i.Timed)
    (hfree : ∀ ⦃key' c⦄, key' ≠ key → v.trackers key' = some c → c.phase.openState ≠ none →
      c.incidentID ≠ id)
    (hnamed : current.phase.openState ≠ none → current.incidentID = id ∧ ∃ h i m,
      key = trackerKey h i ∧ id = ids.incidentID h i current.pendingSince m)
    (hfollows : current.phase.openState ≠ none → ∃ i, incident = some i ∧ i.Follows current) :
    Captured ids (v.set key current id incident) where
  own k i hi := by
    simp only [View.set, Function.update_apply] at hi
    split_ifs at hi with hk
    · rw [hk]
      exact (hown i hi).1
    · exact h.own hi
  timed k i hi := by
    simp only [View.set, Function.update_apply] at hi
    split_ifs at hi
    · exact (hown i hi).2
    · exact h.timed hi
  named k c hc hopen := by
    simp only [View.set, Function.update_apply] at hc
    split_ifs at hc with hk
    · obtain rfl := Option.some.inj hc
      obtain ⟨hid, host, interface, m, hkey, horigin⟩ := hnamed hopen
      exact ⟨host, interface, m, hk.trans hkey, hid.trans horigin⟩
    · exact h.named hc hopen
  follows k c hc hopen := by
    simp only [View.set, Function.update_apply] at hc ⊢
    split_ifs at hc with hk
    · obtain rfl := Option.some.inj hc
      rw [if_pos (hnamed hopen).1]
      exact hfollows hopen
    · rw [if_neg (hfree hk hc hopen)]
      exact h.follows hc hopen

/-- Another tracker's incident is another one. -/
lemma free (h : Captured ids v) (hids : ids.Injective) {key : String} {current : Tracker}
    (hc : v.trackers key = some current) (hopen : current.phase.openState ≠ none) :
    ∀ ⦃key' c⦄, key' ≠ key → v.trackers key' = some c → c.phase.openState ≠ none →
      c.incidentID ≠ current.incidentID := fun _ _ hne hc' hopen' hid =>
  hne (h.key_eq hids hc' hopen' hc hopen hid)

/-- Trackers may change in what no timer relies on. -/
lemma setTrackers (h : Captured ids v) {trackers : String → Option Tracker}
    (hsub : ∀ key current, trackers key = some current → current.phase.openState ≠ none →
      ∃ before, v.trackers key = some before ∧ before.phase = current.phase ∧
        before.pendingSince = current.pendingSince ∧ before.recoverySince = current.recoverySince ∧
        before.incidentID = current.incidentID) :
    Captured ids ⟨trackers, v.incidents⟩ where
  own := h.own
  timed := h.timed
  named key current hc hopen := by
    obtain ⟨before, hbefore, hphase, hsince, -, hid⟩ := hsub key current hc hopen
    rw [← hphase] at hopen
    rw [← hid, ← hsince]
    exact h.named hbefore hopen
  follows key current hc hopen := by
    obtain ⟨before, hbefore, hphase, hsince, hrecovery, hid⟩ := hsub key current hc hopen
    rw [← hphase] at hopen
    obtain ⟨i, hi, hopen', hfailing, hrecovering⟩ := h.follows hbefore hopen
    rw [hid] at hi
    rw [hphase, hsince] at hfailing
    rw [hphase, hrecovery] at hrecovering
    exact ⟨i, hi, hopen', hfailing, hrecovering⟩

end Captured

/-! ## Durations that stay -/

/-- Two incidents were captured with the same durations. -/
def Incident.SameThresholds (i j : Incident) : Prop :=
  j.downAfter = i.downAfter ∧ j.recoveredAfter = i.recoveredAfter

/-- What is still there has the durations it had. -/
def View.KeepsThresholds (v w : View) : Prop :=
  ∀ ⦃id i j⦄, v.incidents id = some i → w.incidents id = some j → i.SameThresholds j

/-- Storing an incident keeps the durations if it has those that were there before. -/
lemma View.KeepsThresholds.set {v₀ v : View} (h : v₀.KeepsThresholds v) {key id : String}
    {current : Tracker} {incident : Option Incident}
    (hsame : ∀ j, incident = some j → (∃ i, v.incidents id = some i ∧ i.SameThresholds j) ∨
      ∀ i, v₀.incidents id = some i → i.SameThresholds j) :
    v₀.KeepsThresholds (v.set key current id incident) := by
  intro k i j hi hj
  simp only [View.set, Function.update_apply] at hj
  split_ifs at hj with hk
  · rw [hk] at hi
    rcases hsame j hj with ⟨before, hbefore, hdown, hrecovered⟩ | hnew
    · obtain ⟨hdown', hrecovered'⟩ := h hi hbefore
      exact ⟨hdown.trans hdown', hrecovered.trans hrecovered'⟩
    · exact hnew i hi
  · exact h hi hj

/-! ## Timers -/

lemma version_advance (interface : String) (orders : Schedule) (now : Time) (s : Snapshot) :
    (advance interface orders now s).1.version = s.version := by
  refine advance_rule (fun s' => s'.version = s.version) (fun {s' orders key current} _ _ hP => ?_)
    orders s rfl
  rw [← hP, advanceOne]
  cases s'.incidents.lookup current.incidentID with
  | none => rfl
  | some incident =>
      simp only
      split_ifs
      · rfl
      · rfl

lemma version_observeLocked (eng : Engine) (orders : Schedule) (o : Observation) (s : Snapshot) :
    (observeLocked eng orders o.message o.notifyEligible o.sourceRef s).version = s.version := by
  cases hevidence : eng.evidence o with
  | none => rw [observeLocked_of_none hevidence]
  | some evidence =>
      rw [observeLocked_of_some hevidence, observeEvidence]
      split_ifs
      · rfl
      · rfl
      · exact version_advance _ _ _ _
      · exact version_advance _ _ _ _

lemma version_observeAll (eng : Engine) (orders : ℕ → Schedule) (os : List Observation)
    (s : Snapshot) : (observeAll eng orders os s).version = s.version := by
  induction os generalizing orders s with
  | nil => rfl
  | cons o os ih => exact (ih _ _).trans (version_observeLocked eng (orders 0) o s)

/-- A tracker with a failure: evidence that it is down opens nothing. -/
def Tracker.failing (current : Tracker) : Prop :=
  current.phase = .pendingFailure ∨ current.phase = .active

/-- What `advanceLocked` does not change. -/
structure Advanced (ids : IncidentIDs) (v₀ v w : View) : Prop where
  captured : Captured ids w
  keeps : v₀.KeepsThresholds w
  failing : ∀ key, (v.current key).failing → (w.current key).failing

/-- **A turn keeps the invariant and the durations**, and a failure stays one. -/
lemma Advanced.advanceOne {ids : IncidentIDs} (hids : ids.Injective) {v₀ v : View} {s : Snapshot}
    {interface : String} {orders : Orders} {key : String} {current : Tracker}
    (h : Advanced ids v₀ v s.view) (hc : s.trackers.lookup key = some current)
    (hpending : current.pending = true) :
    Advanced ids v₀ v (advanceOne interface orders key current s).view := by
  have hopen := Tracker.open_of_pending hpending
  obtain ⟨incident, hi, hfollows⟩ := h.captured.follows hc hopen
  have hid : incident.id = current.incidentID := h.captured.own hi
  obtain ⟨host, iface, m, hkey, horigin⟩ := h.captured.named hc hopen
  rw [view_advanceOne hi, View.fire, hid]
  have htimed := h.captured.timed hi
  refine ⟨?_, ?_, ?_⟩
  · refine h.captured.set ?_ (h.captured.free hids hc hopen) ?_ ?_
    · rintro _ hsome
      rw [← Option.some.inj hsome]
      refine ⟨by rw [Incident.fired_id, hid], ?_⟩
      rw [Incident.fired]
      split_ifs with hphase
      · refine ⟨fun a ha => ?_, htimed.resolved⟩
        rw [← Option.some.inj ha, Tracker.dueAt, if_pos hphase, hfollows.failing hphase]
      · have hrecovering : current.phase = .pendingRecovery := by
          rw [Tracker.pending, Bool.or_eq_true, decide_eq_true_eq, decide_eq_true_eq] at hpending
          exact hpending.resolve_left hphase
        refine ⟨htimed.activated, fun x hx => ⟨_, hfollows.recovering hrecovering, ?_⟩⟩
        rw [← Option.some.inj hx, Tracker.dueAt, if_neg hphase]
    · intro hopen'
      rw [Tracker.fired] at hopen' ⊢
      split_ifs at hopen' ⊢
      · exact ⟨rfl, host, iface, m, hkey, horigin⟩
      · exact absurd rfl hopen'
    · intro hopen'
      rw [Tracker.fired] at hopen' ⊢
      split_ifs at hopen' ⊢ with hphase
      · refine ⟨_, rfl, ?_, fun hf => Phase.noConfusion hf, fun hr => Phase.noConfusion hr⟩
        rw [Incident.fired, if_pos hphase]
        exact hfollows.open_
      · exact absurd rfl hopen'
  · refine h.keeps.set ?_
    rintro _ hsome
    rw [← Option.some.inj hsome]
    refine Or.inl ⟨incident, hi, ?_⟩
    rw [Incident.fired]
    split_ifs
    · exact ⟨rfl, rfl⟩
    · exact ⟨rfl, rfl⟩
  · intro key' hfailing
    have hbefore := h.failing key' hfailing
    simp only [View.current, View.set, Function.update_apply] at hbefore ⊢
    split_ifs with hk
    · rw [hk] at hbefore
      have hview : s.view.trackers key = some current := hc
      rw [hview, Option.getD_some] at hbefore
      rw [Option.getD_some, Tracker.fired]
      split_ifs with hphase
      · exact Or.inr rfl
      · rcases hbefore with hf | ha
        · exact absurd hf hphase
        · rw [Tracker.pending, ha] at hpending
          cases hpending
    · exact hbefore

/-- **`advanceLocked` keeps the invariant and the durations.** -/
lemma Captured.advance {ids : IncidentIDs} (hids : ids.Injective) {v₀ : View} {s : Snapshot}
    (h : Captured ids s.view) (hkeeps : v₀.KeepsThresholds s.view) (interface : String)
    (orders : Schedule) (now : Time) :
    Advanced ids v₀ s.view (Logthing.advance interface orders now s).1.view :=
  advance_rule (fun s' => Advanced ids v₀ s.view s'.view)
    (fun hc hpending hP => hP.advanceOne hids hc hpending) orders s ⟨h, hkeeps, fun _ hf => hf⟩

/-! ## Evidence -/

/-- The incident that evidence would open. -/
def Evidence.incidentID (eng : Engine) (evidence : Evidence) : String :=
  eng.ids.incidentID evidence.hostname evidence.iface evidence.at_ evidence.messageID

/-- Evidence that an interface went down, where none of its failures is pending or active. -/
def Evidence.Opens (evidence : Evidence) (v : View) : Prop :=
  evidence.observeOnly = false ∧ evidence.online = false ∧
    ¬ evidence.Stale (v.current evidence.key) ∧ ¬ (v.current evidence.key).failing

/-- An observation that opens no incident of `v₀` again under other durations. -/
def Observation.Respects (eng : Engine) (v₀ : View) (o : Observation) (v : View) : Prop :=
  ∀ evidence, eng.evidence o = some evidence → evidence.Opens v →
    ∀ i, v₀.incidents (evidence.incidentID eng) = some i →
      i.downAfter = eng.downAfter ∧ i.recoveredAfter = eng.recoveredAfter

section

variable {eng : Engine} {v₀ v : View} {evidence : Evidence}

/-- The incident of an open tracker, and how evidence may change the two. -/
lemma Captured.setOpen (hids : eng.ids.Injective) (h : Captured eng.ids v)
    (hkeeps : v₀.KeepsThresholds v) {key : String}
    (hopen : (v.current key).phase.openState ≠ none) {current : Tracker} {i j : Incident}
    (hi : v.incidents (v.current key).incidentID = some i) (hj : j.id = i.id) (htimed : j.Timed)
    (hsame : i.SameThresholds j) (hid : current.incidentID = (v.current key).incidentID)
    (hsince : current.pendingSince = (v.current key).pendingSince)
    (hfollows : j.Follows current) :
    Captured eng.ids (v.set key current (v.current key).incidentID (some j)) ∧
      v₀.KeepsThresholds (v.set key current (v.current key).incidentID (some j)) := by
  have hc := View.current_of_open hopen
  constructor
  · refine h.set ?_ (h.free hids hc hopen) (fun _ => ⟨hid, ?_⟩) fun _ => ⟨j, rfl, hfollows⟩
    · rintro _ hsome
      rw [← Option.some.inj hsome]
      exact ⟨hj.trans (h.own hi), htimed⟩
    · rw [hsince]
      obtain ⟨host, iface, m, hkey, horigin⟩ := h.named hc hopen
      exact ⟨host, iface, m, hkey, horigin⟩
  · refine hkeeps.set ?_
    rintro _ hsome
    rw [← Option.some.inj hsome]
    exact Or.inl ⟨i, hi, hsame⟩

/-- A tracker that closes. -/
lemma Captured.setClosed (hids : eng.ids.Injective) (h : Captured eng.ids v)
    (hkeeps : v₀.KeepsThresholds v) {key : String} {current : Tracker} {incident : Option Incident}
    (hclosed : current.phase.openState = none)
    (hincident : ((v.current key).phase.openState ≠ none ∧ incident = none) ∨
      incident = v.incidents (v.current key).incidentID) :
    Captured eng.ids (v.set key current (v.current key).incidentID incident) ∧
      v₀.KeepsThresholds (v.set key current (v.current key).incidentID incident) := by
  rcases hincident with ⟨hopen, rfl⟩ | rfl
  · constructor
    · refine h.set ?_ (h.free hids (View.current_of_open hopen) hopen) (fun ho => absurd hclosed ho)
        fun ho => absurd hclosed ho
      rintro _ hnone
      cases hnone
    · refine hkeeps.set ?_
      rintro _ hnone
      cases hnone
  · rw [View.set, Function.update_eq_self]
    refine ⟨h.setTrackers ?_, hkeeps⟩
    intro key' c hc ho
    simp only [Function.update_apply] at hc
    split_ifs at hc
    · rw [← Option.some.inj hc] at ho
      exact absurd hclosed ho
    · exact ⟨c, hc, rfl, rfl, rfl, rfl⟩

/-- **Evidence keeps the invariant and the durations**, if it opens no incident again under other
ones. -/
lemma Captured.react (hids : eng.ids.Injective) (h : Captured eng.ids v)
    (hkeeps : v₀.KeepsThresholds v) (notifyEligible : Bool)
    (hopens : evidence.online = false → ¬ (v.current evidence.key).failing →
      ∀ i, v₀.incidents (evidence.incidentID eng) = some i →
        i.downAfter = eng.downAfter ∧ i.recoveredAfter = eng.recoveredAfter) :
    Captured eng.ids (v.react eng evidence notifyEligible) ∧
      v₀.KeepsThresholds (v.react eng evidence notifyEligible) := by
  rw [View.react]
  split_ifs
  · exact ⟨h, hkeeps⟩
  have hincident : (v.current evidence.key).phase.openState ≠ none →
      ∃ i, v.incidents (v.current evidence.key).incidentID = some i ∧
        i.Follows (v.current evidence.key) ∧ i.Timed := by
    intro hopen
    obtain ⟨i, hi, hfollows⟩ := h.follows (View.current_of_open hopen) hopen
    exact ⟨i, hi, hfollows, h.timed hi⟩
  cases honline : evidence.online <;> cases hphase : (v.current evidence.key).phase
  case false.unset | false.healthy =>
      have hclosed : ¬ (v.current evidence.key).failing := by
        rw [Tracker.failing, hphase]
        simp
      have hnot : (v.current evidence.key).phase.openState = none := by
        rw [hphase]
        rfl
      simp only [reaction, honline]
      constructor
      · refine h.set ?_ ?_ (fun _ => ⟨rfl, _, _, _, rfl, rfl⟩) fun _ => ⟨_, rfl, rfl, fun _ => rfl,
          fun hr => Phase.noConfusion hr⟩
        · rintro _ hsome
          rw [← Option.some.inj hsome]
          exact ⟨rfl, fun a ha => (by cases ha), fun x hx => (by cases hx)⟩
        · intro key' c hne hc hopen hid
          obtain ⟨host, iface, m, rfl, horigin⟩ := h.named hc hopen
          rw [horigin] at hid
          obtain ⟨rfl, rfl, -⟩ := hids hid
          exact hne rfl
      · refine hkeeps.set ?_
        rintro _ hsome
        rw [← Option.some.inj hsome]
        refine Or.inr fun i hi => ?_
        obtain ⟨hdown, hrecovered⟩ := hopens honline hclosed i hi
        exact ⟨hdown.symm, hrecovered.symm⟩
  case true.unset | true.healthy =>
      simp only [reaction, honline]
      exact h.setClosed hids hkeeps rfl (Or.inr rfl)
  case true.pendingFailure =>
      simp only [reaction, honline]
      exact h.setClosed hids hkeeps rfl (Or.inl ⟨by rw [hphase]; exact Option.some_ne_none _, rfl⟩)
  all_goals
    have hopen : (v.current evidence.key).phase.openState ≠ none := by
      rw [hphase]
      exact Option.some_ne_none _
    obtain ⟨i, hi, ⟨hunresolved, hfailing, hrecovering⟩, htimed⟩ := hincident hopen
    rw [hphase] at hfailing hrecovering
    simp only [reaction, honline, hi, Option.map_some]
  case false.pendingFailure =>
      exact h.setOpen hids hkeeps hopen hi rfl ⟨htimed.activated, htimed.resolved⟩ ⟨rfl, rfl⟩ rfl rfl
        ⟨hunresolved, fun _ => hfailing rfl, fun hr => by simp at hr⟩
  case false.active =>
      exact h.setOpen hids hkeeps hopen hi rfl ⟨htimed.activated, htimed.resolved⟩ ⟨rfl, rfl⟩ rfl rfl
        ⟨hunresolved, fun hf => by simp at hf, fun hr => by simp at hr⟩
  case true.pendingRecovery =>
      exact h.setOpen hids hkeeps hopen hi rfl ⟨htimed.activated, htimed.resolved⟩ ⟨rfl, rfl⟩ rfl rfl
        ⟨hunresolved, fun hf => by simp at hf, fun _ => hrecovering rfl⟩
  case false.pendingRecovery =>
      refine h.setOpen hids hkeeps hopen hi rfl ⟨htimed.activated, fun x hx => ?_⟩ ⟨rfl, rfl⟩ rfl rfl
        ⟨hunresolved, fun hf => Phase.noConfusion hf, fun hr => Phase.noConfusion hr⟩
      have hx' : i.resolvedAt = some x := hx
      rw [hunresolved] at hx'
      cases hx'
  case true.active =>
      refine h.setOpen hids hkeeps hopen hi rfl ⟨htimed.activated, fun x hx => ?_⟩ ⟨rfl, rfl⟩ rfl rfl
        ⟨hunresolved, fun hf => Phase.noConfusion hf, fun _ => rfl⟩
      have hx' : i.resolvedAt = some x := hx
      rw [hunresolved] at hx'
      cases hx'

end

/-! ## Observations -/

section

variable {eng : Engine} {v₀ : View} {s : Snapshot}

/-- **An observation keeps the invariant and the durations**, if it opens no incident again under
other ones. -/
lemma Captured.observeLocked (hids : eng.ids.Injective) (h : Captured eng.ids s.view)
    (hkeeps : v₀.KeepsThresholds s.view) (orders : Schedule) {o : Observation}
    (hrespects : o.Respects eng v₀ s.view) :
    Captured eng.ids
        (Logthing.observeLocked eng orders o.message o.notifyEligible o.sourceRef s).view ∧
      v₀.KeepsThresholds
        (Logthing.observeLocked eng orders o.message o.notifyEligible o.sourceRef s).view := by
  cases hevidence : eng.evidence o with
  | none =>
      rw [observeLocked_of_none hevidence]
      exact ⟨h, hkeeps⟩
  | some evidence =>
      rw [observeLocked_of_some hevidence]
      split_ifs with hstale hsight
      · exact ⟨h, hkeeps⟩
      · rw [view_sight, View.sight, View.set, Function.update_eq_self]
        refine ⟨h.setTrackers ?_, hkeeps⟩
        intro key c hc hopen
        simp only [Function.update_apply] at hc
        split_ifs at hc with hk
        swap
        · exact ⟨c, hc, rfl, rfl, rfl, rfl⟩
        rw [← Option.some.inj hc, Tracker.sighted] at hopen ⊢
        split_ifs at hopen ⊢
        · exact absurd rfl hopen
        · exact ⟨s.view.current evidence.key, by rw [hk]; exact View.current_of_open hopen, rfl, rfl,
            rfl, rfl⟩
      · obtain ⟨hcaptured, hkept, hfailing⟩ :=
          h.advance hids hkeeps eng.interface orders evidence.at_
        rw [view_observeEvidence_of_own hcaptured.own]
        refine hcaptured.react hids hkept o.notifyEligible fun hoffline hnot => ?_
        exact hrespects evidence hevidence ⟨Bool.eq_false_iff.mpr hsight, hoffline, hstale,
          fun hf => hnot (hfailing _ hf)⟩

/-- Every observation of a list opens no incident of `v₀` again under other durations. -/
def respectsAll (eng : Engine) (v₀ : View) : (ℕ → Schedule) → List Observation → Snapshot → Prop
  | _, [], _ => True
  | orders, o :: os, s =>
      o.Respects eng v₀ s.view ∧ respectsAll eng v₀ (fun n => orders (n + 1)) os
        (Logthing.observeLocked eng (orders 0) o.message o.notifyEligible o.sourceRef s)

lemma Captured.observeAll (hids : eng.ids.Injective) (h : Captured eng.ids s.view)
    (hkeeps : v₀.KeepsThresholds s.view) {orders : ℕ → Schedule} {os : List Observation}
    (hrespects : respectsAll eng v₀ orders os s) :
    Captured eng.ids (Logthing.observeAll eng orders os s).view ∧
      v₀.KeepsThresholds (Logthing.observeAll eng orders os s).view := by
  induction os generalizing orders s with
  | nil => exact ⟨h, hkeeps⟩
  | cons o os ih =>
      obtain ⟨hcaptured, hkept⟩ := h.observeLocked hids hkeeps (orders 0) hrespects.1
      exact ih hcaptured hkept hrespects.2

end

/-! ## Calls and restarts -/

/-- Giving incidents another `Notify` is no matter. -/
lemma Captured.renotify {ids : IncidentIDs} {v₀ v : View} (h : Captured ids v)
    (hkeeps : v₀.KeepsThresholds v) (notify : String → Incident → Bool) :
    Captured ids (v.renotify notify) ∧ v₀.KeepsThresholds (v.renotify notify) := by
  have htracker : ∀ {key current}, (v.renotify notify).trackers key = some current →
      ∃ before flag, v.trackers key = some before ∧ current = { before with notify := flag } := by
    intro key current hc
    obtain ⟨before, hbefore, rfl⟩ := Option.map_eq_some_iff.mp hc
    cases v.incidents before.incidentID with
    | none => exact ⟨before, before.notify, hbefore, rfl⟩
    | some incident => exact ⟨before, _, hbefore, rfl⟩
  refine ⟨⟨?_, ?_, ?_, ?_⟩, ?_⟩
  · intro id i hi
    obtain ⟨before, hbefore, rfl⟩ := Option.map_eq_some_iff.mp hi
    have hid := h.own hbefore
    exact hid
  · intro id i hi
    obtain ⟨before, hbefore, rfl⟩ := Option.map_eq_some_iff.mp hi
    exact ⟨(h.timed hbefore).activated, (h.timed hbefore).resolved⟩
  · intro key current hc hopen
    obtain ⟨before, flag, hbefore, rfl⟩ := htracker hc
    have hnamed := h.named hbefore hopen
    exact hnamed
  · intro key current hc hopen
    obtain ⟨before, flag, hbefore, rfl⟩ := htracker hc
    obtain ⟨i, hi, hopen', hfailing, hrecovering⟩ := h.follows hbefore hopen
    refine ⟨{ i with notify := notify before.incidentID i }, ?_, hopen', hfailing, hrecovering⟩
    simp only [View.renotify, hi, Option.map_some]
  · intro id i j hi hj
    obtain ⟨before, hbefore, rfl⟩ := Option.map_eq_some_iff.mp hj
    have hsame := hkeeps hi hbefore
    exact hsame

/-- A call that opens no incident again under other durations. -/
def Operation.Respects (eng : Engine) (s : Snapshot) : Operation → Prop
  | .observe _ message notifyEligible _ =>
      Observation.Respects eng s.view ⟨message, notifyEligible, ""⟩ s.view
  | .apply orders observations _ _ _ => respectsAll eng s.view orders observations s
  | .rebuild orders _ observations cursors checkpointAt _ =>
      respectsAll eng s.view orders observations (emptySnapshot cursors checkpointAt)
  | _ => True

lemma View.KeepsThresholds.refl (v : View) : v.KeepsThresholds v := by
  intro id i j hi hj
  rw [hi] at hj
  rw [Option.some.inj hj]
  exact ⟨rfl, rfl⟩

/-- **Every call keeps the invariant and the durations**, if it opens no incident again under other
ones. -/
lemma Captured.call {eng : Engine} (hids : eng.ids.Injective) {svc : Service}
    (h : Captured eng.ids svc.state.view) {op : Operation} (hrespects : op.Respects eng svc.state) :
    Captured eng.ids (svc.call eng op).state.view ∧
      svc.state.view.KeepsThresholds (svc.call eng op).state.view := by
  have hrefl := View.KeepsThresholds.refl svc.state.view
  have hmark : ∀ id change outcome,
      Captured eng.ids (svc.markJob id change outcome).1.state.view ∧
        svc.state.view.KeepsThresholds (svc.markJob id change outcome).1.state.view := by
    intro id change outcome
    obtain ⟨jobs, hstate⟩ := svc.markJob_state id change outcome
    rw [hstate]
    exact ⟨h, hrefl⟩
  cases op with
  | observe orders message notifyEligible outcome =>
      rw [Service.call, Service.observe_state]
      exact h.observeLocked (o := ⟨message, notifyEligible, ""⟩) hids hrefl orders hrespects
  | apply orders observations cursors checkpointAt outcome =>
      rw [Service.call, Service.apply_state]
      exact h.observeAll hids hrefl hrespects
  | tick orders now outcome =>
      rw [Service.call, Service.tick_state]
      have hadvanced := h.advance hids hrefl eng.interface orders now
      exact ⟨hadvanced.captured, hadvanced.keeps⟩
  | rebuild orders after observations cursors checkpointAt outcome =>
      rw [Service.call, Service.rebuild_state, view_restore]
      have hempty : Captured eng.ids (emptySnapshot cursors checkpointAt).view := .empty
      have hnone : svc.state.view.KeepsThresholds (emptySnapshot cursors checkpointAt).view := by
        intro id i j _ hj
        cases hj
      obtain ⟨hcaptured, hkept⟩ := hempty.observeAll hids hnone hrespects
      exact hcaptured.renotify hkept _
  | markNotificationSent id adapter externalID at_ outcome => exact hmark _ _ _
  | markNotificationFailed id message next permanent outcome => exact hmark _ _ _
  | setCursors cursors outcome =>
      rw [Service.call, Service.setCursors_state]
      exact ⟨h, hrefl⟩

/-- A process: the engine and its service. -/
structure Process where
  eng : Engine
  svc : Service

/-- What happens to a process: a call, or a restart with other durations. -/
inductive ProcessStep where
  | call (op : Operation)
  | restart (order : Traversal String) (downAfter recoveredAfter : Duration)
      (downAfter_pos : 0 < downAfter) (recoveredAfter_pos : 0 < recoveredAfter)

/-- A step of a process.  What is there is saved before it is restarted. -/
def Process.step (p : Process) : ProcessStep → Process
  | .call op => ⟨p.eng, p.svc.call p.eng op⟩
  | .restart order downAfter recoveredAfter downAfter_pos recoveredAfter_pos =>
      ⟨{ p.eng with
          downAfter := downAfter
          recoveredAfter := recoveredAfter
          downAfter_pos := downAfter_pos
          recoveredAfter_pos := recoveredAfter_pos },
        (p.svc.save none).1.restart order⟩

/-- A process after a list of steps. -/
def Process.run (p : Process) (steps : List ProcessStep) : Process := steps.foldl Process.step p

/-- Steps that open no incident again under durations other than it has. -/
def Process.respects : Process → List ProcessStep → Prop
  | _, [] => True
  | p, .call op :: steps => op.Respects p.eng p.svc.state ∧ Process.respects (p.step (.call op)) steps
  | p, step :: steps => Process.respects (p.step step) steps

/-- What `Load` makes of a tracker. -/
lemma lookup_loadTrackers (order : Traversal String) (incidents : Dict String Incident)
    (trackers : Dict String Tracker) {key : String} {current : Tracker}
    (hc : (loadTrackers order incidents trackers).lookup key = some current) :
    ∃ before flag, trackers.lookup key = some before ∧
      current = { before with reachabilityDown := flag } := by
  rw [loadTrackers, order.lookup_assign] at hc
  cases hbefore : trackers.lookup key with
  | none =>
      rw [hbefore] at hc
      cases hc
  | some before =>
      rw [hbefore] at hc
      refine ⟨before, current.reachabilityDown, rfl, ?_⟩
      simp only [Option.bind_some] at hc
      cases hi : incidents.lookup before.incidentID with
      | none =>
          rw [hi] at hc
          rw [← Option.some.inj hc]
      | some incident =>
          rw [hi] at hc
          simp only at hc
          split_ifs at hc
          · rw [← Option.some.inj hc]
          · rw [← Option.some.inj hc]

/-- A state of this version is loaded as it was saved, but for what the rules have changed. -/
lemma Service.restart_state (order : Traversal String) {svc : Service}
    (hversion : svc.state.version = 1) : ((svc.save none).1.restart order).state
      = { svc.state with
          trackers := loadTrackers order svc.state.incidents svc.state.trackers } := by
  simp only [Service.restart, Service.load, Service.save, hversion]
  rfl

/-- **A restart keeps the invariant and the durations.** -/
lemma Captured.restart {ids : IncidentIDs} {svc : Service} (h : Captured ids svc.state.view)
    (order : Traversal String) :
    Captured ids ((svc.save none).1.restart order).state.view ∧
      svc.state.view.KeepsThresholds ((svc.save none).1.restart order).state.view := by
  have hnew : Captured ids (({} : Service).state).view := .empty
  have hnone : svc.state.view.KeepsThresholds (({} : Service).state).view := by
    intro id i j _ hj
    cases hj
  simp only [Service.restart, Service.load, Service.save]
  split_ifs
  · exact ⟨hnew, hnone⟩
  · exact ⟨hnew, hnone⟩
  · refine ⟨h.setTrackers fun key current hc hopen => ?_, View.KeepsThresholds.refl svc.state.view⟩
    obtain ⟨before, flag, hbefore, rfl⟩ := lookup_loadTrackers order _ _ hc
    exact ⟨before, hbefore, rfl, rfl, rfl, rfl⟩

/-- **Every step keeps the invariant and the durations.** -/
lemma Captured.step {p : Process} (hids : p.eng.ids.Injective)
    (h : Captured p.eng.ids p.svc.state.view) {step : ProcessStep} {steps : List ProcessStep}
    (hrespects : p.respects (step :: steps)) :
    (p.step step).eng.ids = p.eng.ids ∧ Captured p.eng.ids (p.step step).svc.state.view ∧
      p.svc.state.view.KeepsThresholds (p.step step).svc.state.view ∧
      (p.step step).respects steps := by
  cases step with
  | call op =>
      obtain ⟨hcaptured, hkept⟩ := h.call hids hrespects.1
      exact ⟨rfl, hcaptured, hkept, hrespects.2⟩
  | restart order downAfter recoveredAfter hdown hrecovered =>
      obtain ⟨hcaptured, hkept⟩ := h.restart order
      exact ⟨rfl, hcaptured, hkept, hrespects⟩

/-- **Steps keep the invariant, and the durations of what is there all along.** -/
lemma Captured.run {p : Process} (hids : p.eng.ids.Injective)
    (h : Captured p.eng.ids p.svc.state.view) {steps : List ProcessStep}
    (hrespects : p.respects steps) :
    Captured p.eng.ids (p.run steps).svc.state.view ∧ ∀ id i j,
      p.svc.state.incidents.lookup id = some i →
      (∀ l l', steps = l ++ l' → id ∈ (p.run l).svc.state.incidents) →
      (p.run steps).svc.state.incidents.lookup id = some j → i.SameThresholds j := by
  induction steps generalizing p with
  | nil =>
      refine ⟨h, fun id i j hi _ hj => ?_⟩
      exact View.KeepsThresholds.refl p.svc.state.view hi hj
  | cons step steps ih =>
      obtain ⟨hsame, hcaptured, hkept, hrest⟩ := h.step hids hrespects
      rw [← hsame] at hcaptured hids
      obtain ⟨hfinal, hlater⟩ := ih hids hcaptured hrest
      rw [hsame] at hfinal
      refine ⟨hfinal, fun id i j hi hthere hj => ?_⟩
      obtain ⟨k, hk⟩ := Finmap.mem_iff.mp (hthere [step] steps rfl)
      obtain ⟨hdown, hrecovered⟩ := hkept hi hk
      obtain ⟨hdown', hrecovered'⟩ := hlater id k j hk
        (fun l l' heq => hthere (step :: l) l' (by rw [heq, List.cons_append])) hj
      exact ⟨hdown'.trans hdown, hrecovered'.trans hrecovered⟩

lemma Process.respects_append {p : Process} {steps steps' : List ProcessStep}
    (h : p.respects (steps ++ steps')) : p.respects steps ∧ (p.run steps).respects steps' := by
  induction steps generalizing p with
  | nil => exact ⟨trivial, h⟩
  | cons step steps ih =>
      cases step with
      | call op => exact ⟨⟨h.1, (ih h.2).1⟩, (ih h.2).2⟩
      | restart order downAfter recoveredAfter hdown hrecovered => exact ih h

/-! ## Every run -/

/-- **Captured thresholds are kept.**  Over calls and restarts with any other durations, in a run in
which no evidence opens an incident again that is there under other durations than those of the
moment, every incident is activated and resolved by its own durations, and an incident that stays
keeps the durations it has. -/
theorem thresholds_run (eng : Engine) (hids : eng.ids.Injective) (steps : List ProcessStep)
    (hrespects : Process.respects ⟨eng, {}⟩ steps) :
    (∀ id i, (Process.run ⟨eng, {}⟩ steps).svc.state.incidents.lookup id = some i → i.Timed) ∧
      ∀ before after, steps = before ++ after → ∀ id i j,
        (Process.run ⟨eng, {}⟩ before).svc.state.incidents.lookup id = some i →
        (∀ l l', after = l ++ l' →
          id ∈ (Process.run ⟨eng, {}⟩ (before ++ l)).svc.state.incidents) →
        (Process.run ⟨eng, {}⟩ steps).svc.state.incidents.lookup id = some j →
        i.SameThresholds j := by
  have hnew : Captured (⟨eng, {}⟩ : Process).eng.ids (⟨eng, {}⟩ : Process).svc.state.view := .empty
  have hids' : (⟨eng, {}⟩ : Process).eng.ids.Injective := hids
  refine ⟨fun id i hi => (hnew.run hids' hrespects).1.timed hi, ?_⟩
  rintro before after rfl id i j hi hthere hj
  obtain ⟨hbefore, hafter⟩ := Process.respects_append hrespects
  have hmiddle := (hnew.run hids' hbefore).1
  have hsame : ((⟨eng, {}⟩ : Process).run before).eng.ids = eng.ids := by
    have hrun : ∀ (steps : List ProcessStep) (p : Process), (p.run steps).eng.ids = p.eng.ids := by
      intro steps
      induction steps with
      | nil => exact fun _ => rfl
      | cons step steps ih =>
          intro p
          refine (ih (p.step step)).trans ?_
          cases step <;> rfl
    exact hrun before _
  have happend : ∀ l, Process.run ⟨eng, {}⟩ (before ++ l)
      = ((⟨eng, {}⟩ : Process).run before).run l := fun l => List.foldl_append
  rw [happend] at hj
  refine (Captured.run (p := (⟨eng, {}⟩ : Process).run before) ?_ ?_ hafter).2 id i j hi ?_ hj
  · rw [hsame]
    exact hids
  · rw [hsame]
    exact hmiddle
  · intro l l' heq
    rw [← happend]
    exact hthere l l' heq

/-- The small outage, activated after a restart with a longer duration. -/
theorem thresholds_run_restarted :
    (∀ id i, (Process.run ⟨sampleEngine, {}⟩
        [.call (.apply (fun _ => sortedSchedule) [wanDown] ∅ 1000000000 none),
          .restart (.sorted String) 120000000000 60000000000 (by decide) (by decide),
          .call (.tick sortedSchedule 61000000000 none)]).svc.state.incidents.lookup id = some i →
        i.Timed) ∧
      ∀ before after, [.call (.apply (fun _ => sortedSchedule) [wanDown] ∅ 1000000000 none),
          .restart (.sorted String) 120000000000 60000000000 (by decide) (by decide),
          .call (.tick sortedSchedule 61000000000 none)] = before ++ after → ∀ id i j,
        (Process.run ⟨sampleEngine, {}⟩ before).svc.state.incidents.lookup id = some i →
        (∀ l l', after = l ++ l' →
          id ∈ (Process.run ⟨sampleEngine, {}⟩ (before ++ l)).svc.state.incidents) →
        (Process.run ⟨sampleEngine, {}⟩
          [.call (.apply (fun _ => sortedSchedule) [wanDown] ∅ 1000000000 none),
            .restart (.sorted String) 120000000000 60000000000 (by decide) (by decide),
            .call (.tick sortedSchedule 61000000000 none)]).svc.state.incidents.lookup id
          = some j →
        i.SameThresholds j := by
  refine thresholds_run sampleEngine sampleIDs_injective _ ⟨⟨?_, trivial⟩, trivial, trivial⟩
  intro evidence _ _ i hi
  cases hi

/-- The engine after the restart. -/
def patientEngine : Engine :=
  { sampleEngine with
    downAfter := 120000000000
    downAfter_pos := by decide }

/-- The small outage, pending when the engine is restarted and its history rebuilt. -/
def recapturedRun : List ProcessStep :=
  [.call (.apply (fun _ => sortedSchedule) [wanDown] ∅ 1000000000 none),
    .restart (.sorted String) 120000000000 60000000000 patientEngine.downAfter_pos
      sampleEngine.recoveredAfter_pos,
    .call (.rebuild (fun _ => sortedSchedule) sortedRebuild [wanDown] ∅ 2000000000 none)]

/-- **`Rebuild` gives a pending incident the durations of the moment**: it is there before the
restart, after it, and after the rebuild, where it waits for two minutes instead of one. -/
theorem rebuild_recaptures :
    (∀ n ∈ [1, 2], ((Process.run ⟨sampleEngine, {}⟩
        (recapturedRun.take n)).svc.state.incidents.lookup "8d4663d6450447b8").map
          (fun i => (i.state, i.downAfter)) = some (.pendingFailure, 60000000000)) ∧
      ((Process.run ⟨sampleEngine, {}⟩ recapturedRun).svc.state.incidents.lookup
        "8d4663d6450447b8").map (fun i => (i.state, i.downAfter))
          = some (.pendingFailure, 120000000000) := by
  have hempty : Consistent sampleEngine (({} : Service).state).view := .empty sampleIDs_injective
  have hrebuilt : ∀ cursors at_, Consistent patientEngine (emptySnapshot cursors at_).view :=
    fun _ _ => .empty sampleIDs_injective
  have hfirst : ((Process.run ⟨sampleEngine, {}⟩ (recapturedRun.take 1)).svc.state.incidents.lookup
      "8d4663d6450447b8").map (fun i => (i.state, i.downAfter))
        = some (.pendingFailure, 60000000000) := by
    have hview := hempty.view_call.2.1 (fun _ => sortedSchedule) [wanDown] ∅ 1000000000 none
    have hincidents := congrFun (congrArg View.incidents hview) "8d4663d6450447b8"
    have hvalue : ((List.foldl (View.take sampleEngine) (({} : Service).state).view
        [wanDown]).incidents "8d4663d6450447b8").map (fun i => (i.state, i.downAfter))
          = some (.pendingFailure, 60000000000) := by
      decide +kernel
    rw [← hincidents] at hvalue
    exact hvalue
  refine ⟨fun n hn => ?_, ?_⟩
  · have hversion : (Process.run ⟨sampleEngine, {}⟩ (recapturedRun.take 1)).svc.state.version = 1 := by
      have happly := Service.apply_state sampleEngine (fun _ => sortedSchedule) [wanDown] ∅ 1000000000
        none {}
      exact (congrArg Snapshot.version happly).trans
        (version_observeAll sampleEngine (fun _ => sortedSchedule) [wanDown] {})
    rcases List.mem_cons.mp hn with rfl | hn
    · exact hfirst
    · rw [List.mem_singleton.mp hn, ← hfirst]
      have hloaded := Service.restart_state (.sorted String) hversion
      exact congrArg (fun s : Snapshot => (s.incidents.lookup "8d4663d6450447b8").map
        fun i => (i.state, i.downAfter)) hloaded
  · have hview : ∀ svc : Service, (svc.call patientEngine (.rebuild (fun _ => sortedSchedule)
        sortedRebuild [wanDown] ∅ 2000000000 none)).state.view
          = (List.foldl (View.take patientEngine) (emptySnapshot ∅ 2000000000).view
              [wanDown]).renotify (restoredNotify svc.state.incidents) := by
      intro svc
      rw [Service.call, Service.rebuild_state, view_restore,
        (view_observeAll _ _ (hrebuilt ∅ 2000000000)).1]
    have hvalue : ((List.foldl (View.take patientEngine) (emptySnapshot ∅ 2000000000).view
        [wanDown]).incidents "8d4663d6450447b8").map (fun i => (i.state, i.downAfter))
          = some (.pendingFailure, 120000000000) := by
      decide +kernel
    have hrenotified : ∀ (v : View) notify id,
        ((v.renotify notify).incidents id).map (fun i => (i.state, i.downAfter))
          = (v.incidents id).map fun i => (i.state, i.downAfter) := by
      intro v notify id
      rw [View.renotify, Option.map_map]
      rfl
    refine Eq.trans ?_ hvalue
    rw [← hrenotified, ← hview]
    rfl

end Logthing
