import Logthing.Incidents.OutboxRuns

/-!
# Debouncing, one interface at a time

`scan` is what debouncing should find in the evidence of one interface, read on its own: an outage
that lasts for `downAfter` is activated, and a recovery that lasts for `recoveredAfter` resolves it.
The engine instead keeps one queue of timers for all interfaces, and moves it on with whatever
evidence or tick comes next.

**Main results.**  `debounce_exact`: after a run in the order of time the activated incidents of an
interface are exactly the outages of its scan.
-/

namespace Logthing

/-! ## The scan -/

/-- An outage that was activated. -/
@[ext]
structure Outage where
  startedAt : Time
  activatedAt : Time
  resolvedAt : Option Time
  deriving DecidableEq

/-- Where the scan of an interface is: whether an outage is open, since when, whether its uplink was
seen to be down, and since when it recovers. -/
inductive Scan where
  | idle
  | failing (started : Time) (reachabilityDown : Bool)
  | active (started : Time) (reachabilityDown : Bool)
  | recovering (started : Time) (reachabilityDown : Bool) (since : Time)

/-- The stages of an outage in which time counts come before the others. -/
def Scan.rank : Scan → ℕ
  | .idle | .active .. => 0
  | .failing .. | .recovering .. => 1

/-- The primary interface coming up says nothing while its uplink is down. -/
def Evidence.ignored (interface : String) (reachabilityDown : Bool) (evidence : Evidence) : Bool :=
  evidence.online && evidence.iface = interface && reachabilityDown && !evidence.reachability

/-- **The outages of an interface**, by its own evidence and the time until which it is watched. -/
def scan (eng : Engine) (until_ : Time) : Scan → List Evidence → List Outage
  | .idle, [] => []
  | .idle, e :: es =>
      if e.online then scan eng until_ .idle es
      else scan eng until_ (.failing e.at_ e.reachability) es
  | .failing started _, [] =>
      if started + eng.downAfter ≤ until_ then [⟨started, started + eng.downAfter, none⟩] else []
  | .failing started down, e :: es =>
      if started + eng.downAfter ≤ e.at_ then scan eng until_ (.active started down) (e :: es)
      else if e.ignored eng.interface down then scan eng until_ (.failing started down) es
      else if e.online then scan eng until_ .idle es
      else scan eng until_ (.failing started (down || e.reachability)) es
  | .active started _, [] => [⟨started, started + eng.downAfter, none⟩]
  | .active started down, e :: es =>
      if e.ignored eng.interface down then scan eng until_ (.active started down) es
      else if e.online then scan eng until_ (.recovering started down e.at_) es
      else scan eng until_ (.active started (down || e.reachability)) es
  | .recovering started _ since, [] =>
      [⟨started, started + eng.downAfter,
        if since + eng.recoveredAfter ≤ until_ then some (since + eng.recoveredAfter) else none⟩]
  | .recovering started down since, e :: es =>
      if since + eng.recoveredAfter ≤ e.at_ then
        ⟨started, started + eng.downAfter, some (since + eng.recoveredAfter)⟩ ::
          scan eng until_ .idle (e :: es)
      else if e.ignored eng.interface down then
        scan eng until_ (.recovering started down since) es
      else if e.online then scan eng until_ (.recovering started down since) es
      else scan eng until_ (.active started (down || e.reachability)) es
termination_by phase es => (es.length, phase.rank)
decreasing_by
  all_goals simp [Scan.rank, Prod.lex_def]

section

variable {eng : Engine} {until_ : Time} {es : List Evidence}

/-- A failure that lasts until the next evidence is active by then. -/
lemma scan_failing_due {started : Time} {down : Bool} (huntil : started + eng.downAfter ≤ until_)
    (hes : ∀ e ∈ es, started + eng.downAfter ≤ e.at_) :
    scan eng until_ (.failing started down) es = scan eng until_ (.active started down) es := by
  cases es with
  | nil => rw [scan, scan, if_pos huntil]
  | cons e es => rw [scan, if_pos (hes e List.mem_cons_self)]

/-- A recovery that lasts until the next evidence is complete by then. -/
lemma scan_recovering_due {started since : Time} {down : Bool}
    (huntil : since + eng.recoveredAfter ≤ until_)
    (hes : ∀ e ∈ es, since + eng.recoveredAfter ≤ e.at_) :
    scan eng until_ (.recovering started down since) es
      = ⟨started, started + eng.downAfter, some (since + eng.recoveredAfter)⟩ ::
          scan eng until_ .idle es := by
  cases es with
  | nil => rw [scan, scan, if_pos huntil]
  | cons e es => conv_lhs => rw [scan, if_pos (hes e List.mem_cons_self)]

end

/-! ## Where the engine is -/

/-- Where a tracker is in the scan of its interface. -/
def Tracker.scan (current : Tracker) : Scan :=
  match current.phase with
  | .unset | .healthy => .idle
  | .pendingFailure => .failing current.pendingSince current.reachabilityDown
  | .active => .active current.pendingSince current.reachabilityDown
  | .pendingRecovery =>
      .recovering current.pendingSince current.reachabilityDown current.recoverySince

/-- An outage of the history. -/
def View.Recorded (eng : Engine) (v : View) (key : String) (outage : Outage) : Prop :=
  ∃ id a, v.history id = some a ∧ trackerKey a.hostname a.interface = key ∧
    a.activatedAt = outage.activatedAt ∧ a.resolvedAt = outage.resolvedAt ∧
    outage.startedAt + eng.downAfter = outage.activatedAt

/-- **What an engine will have recorded** of an interface once it has seen the evidence to come: the
outages that are over, and those that the scan finds from here. -/
def View.Foretold (eng : Engine) (until_ : Time) (v : View) (key : String) (es : List Evidence)
    (outage : Outage) : Prop :=
  (v.Recorded eng key outage ∧ outage.resolvedAt ≠ none) ∨
    outage ∈ Logthing.scan eng until_ (v.current key).scan es

/-! ## Timers -/

section

variable {eng : Engine} {v : View} {key : String} {current : Tracker} {incident : Incident}

/-- The tracker under a key after a timer has run out. -/
lemma current_fire (key' : String) : (v.fire key current incident).current key'
    = if key' = key then current.fired else v.current key' := by
  simp only [View.current, View.fire, View.set, Function.update_apply]
  split_ifs
  · rfl
  · rfl

variable (h : Consistent eng v) (hc : v.trackers key = some current)
  (hi : v.incidents current.incidentID = some incident) {key' : String} {outage : Outage}

include h hc hi

/-- A failure that is activated is not over. -/
lemma recorded_fire_failure (hphase : current.phase = .pendingFailure) :
    ((v.fire key current incident).Recorded eng key' outage ∧ outage.resolvedAt ≠ none) ↔
      v.Recorded eng key' outage ∧ outage.resolvedAt ≠ none := by
  obtain ⟨hhistory, hnew⟩ := history_fire_failure h hc hi hphase
  constructor
  · rintro ⟨⟨id, a, ha, hkey, hactivated, hresolved, hstarted⟩, hover⟩
    rw [hhistory] at ha
    rcases (history_update hnew).mp ha with ⟨-, rfl⟩ | ha
    · exact absurd hresolved.symm hover
    · exact ⟨⟨id, a, ha, hkey, hactivated, hresolved, hstarted⟩, hover⟩
  · rintro ⟨⟨id, a, ha, hrest⟩, hover⟩
    refine ⟨⟨id, a, ?_, hrest⟩, hover⟩
    rw [hhistory]
    exact (history_update hnew).mpr (Or.inr ha)

/-- A recovery that is complete ends the outage of its tracker. -/
lemma recorded_fire_recovery (hpending : current.pending = true)
    (hphase : ¬ current.phase = .pendingFailure) :
    ((v.fire key current incident).Recorded eng key' outage ∧ outage.resolvedAt ≠ none) ↔
      (v.Recorded eng key' outage ∧ outage.resolvedAt ≠ none) ∨
        (key' = key ∧ outage = ⟨current.pendingSince, current.pendingSince + eng.downAfter,
          some (current.deadline eng)⟩) := by
  obtain ⟨hhistory, at_, ha₀⟩ := history_fire_recovery h hc hi hpending hphase
  have hagrees := h.agrees_of_pending hc hi hpending
  have hdue := h.dueAt_eq hi current
  have hat : at_ = current.pendingSince + eng.downAfter := by
    obtain ⟨i, hi', hactivated, -⟩ := history_eq_some.mp ha₀
    have hid : incident.id = current.incidentID := (h.wellFormed hi).id_eq
    rw [hid, hi] at hi'
    obtain rfl := Option.some.inj hi'
    rw [← hagrees.startedAt]
    exact (h.wellFormed hi).activatedAt_eq hactivated
  have hkey₀ : trackerKey incident.hostname incident.interface = key := hagrees.key
  rw [View.Recorded, hhistory]
  constructor
  · rintro ⟨⟨id, a, ha, hkey, hactivated, hresolved, hstarted⟩, hover⟩
    obtain ⟨b, hb, rfl⟩ := Option.map_eq_some_iff.mp ha
    by_cases hid : id = incident.id
    · rw [hid, ha₀] at hb
      obtain rfl := Option.some.inj hb
      simp only [if_pos hid] at hkey hactivated hresolved
      refine Or.inr ⟨by rw [← hkey, hkey₀], ?_⟩
      have hstart : outage.startedAt = current.pendingSince := by
        rw [← hactivated, hat] at hstarted
        exact add_right_cancel hstarted
      ext1
      · exact hstart
      · rw [← hactivated, hat]
      · rw [← hresolved, hdue]
    · simp only [if_neg hid] at hkey hactivated hresolved
      exact Or.inl ⟨⟨id, b, hb, hkey, hactivated, hresolved, hstarted⟩, hover⟩
  · rintro (⟨⟨id, a, ha, hkey, hactivated, hresolved, hstarted⟩, hover⟩ | ⟨rfl, rfl⟩)
    · have hid : id ≠ incident.id := by
        rintro rfl
        rw [ha₀] at ha
        rw [← Option.some.inj ha] at hresolved
        exact hover hresolved.symm
      refine ⟨⟨id, a, ?_, hkey, hactivated, hresolved, hstarted⟩, hover⟩
      rw [History.resolve, ha, Option.map_some, if_neg hid]
    · refine ⟨⟨incident.id, _, by rw [History.resolve, ha₀, Option.map_some], hkey₀, hat, ?_, rfl⟩,
        by simp⟩
      simp [hdue]

/-- **A timer that runs out changes nothing that is foretold**, if it does so before whatever comes
next. -/
lemma foretold_fire {now until_ : Time} {es : List Evidence}
    (hdue : current.dueBy now incident) (huntil : now ≤ until_) (hes : ∀ e ∈ es, now ≤ e.at_) :
    (v.fire key current incident).Foretold eng until_ key' es outage ↔
      v.Foretold eng until_ key' es outage := by
  have hdeadline : current.deadline eng ≤ now := by
    rw [← h.dueAt_eq hi]
    exact hdue.2
  rw [View.Foretold, View.Foretold, current_fire]
  by_cases hphase : current.phase = .pendingFailure
  · rw [recorded_fire_failure h hc hi hphase]
    by_cases hkey : key' = key
    · have hcurrent : v.current key' = current := by rw [hkey, View.current, hc, Option.getD_some]
      have hscan : current.fired.scan = .active current.pendingSince current.reachabilityDown := by
        rw [Tracker.fired, if_pos hphase, Tracker.scan]
      rw [Tracker.deadline, if_pos hphase] at hdeadline
      rw [if_pos hkey, hcurrent, hscan, Tracker.scan, hphase,
        scan_failing_due (hdeadline.trans huntil) fun e he => hdeadline.trans (hes e he)]
    · rw [if_neg hkey]
  · rw [recorded_fire_recovery h hc hi hdue.1 hphase]
    have hrecovering : current.phase = .pendingRecovery := by
      have hpending := hdue.1
      rw [Tracker.pending, Bool.or_eq_true, decide_eq_true_eq, decide_eq_true_eq] at hpending
      exact hpending.resolve_left hphase
    by_cases hkey : key' = key
    · have hcurrent : v.current key' = current := by rw [hkey, View.current, hc, Option.getD_some]
      have hscan : current.fired.scan = .idle := by rw [Tracker.fired, if_neg hphase, Tracker.scan]
      rw [Tracker.deadline, if_neg hphase] at hdeadline
      rw [if_pos hkey, hcurrent, hscan, Tracker.scan, hrecovering,
        scan_recovering_due (hdeadline.trans huntil) fun e he => hdeadline.trans (hes e he),
        List.mem_cons, Tracker.deadline, if_neg hphase, or_assoc]
      simp only [hkey, true_and]
    · rw [if_neg hkey]
      simp only [hkey, false_and, or_false]

end

/-- **`advanceLocked` changes nothing that is foretold**, if it goes no further than whatever comes
next. -/
lemma foretold_settle {eng : Engine} {s : Snapshot} (h : Consistent eng s.view)
    {now until_ : Time} {es : List Evidence} (huntil : now ≤ until_) (hes : ∀ e ∈ es, now ≤ e.at_)
    (key : String) (outage : Outage) :
    (s.view.settle now).Foretold eng until_ key es outage ↔
      s.view.Foretold eng until_ key es outage := by
  rw [← advance_view h sortedSchedule]
  refine (advance_induction (fun s' => s'.view.Foretold eng until_ key es outage ↔
    s.view.Foretold eng until_ key es outage) (fun hcons hP hfires => ?_) sortedSchedule s h
    Iff.rfl).1
  rw [view_advanceOne hfires.incident_eq]
  exact (foretold_fire hcons hfires.tracker_eq hfires.incident_eq hfires.due huntil hes).trans hP

/-! ## Evidence -/

/-- Evidence that an interface went down or came up, of this key. -/
def Evidence.concerns (key : String) (evidence : Evidence) : Bool :=
  evidence.key = key && !evidence.observeOnly

section

variable {eng : Engine} {v : View} {evidence : Evidence}

/-- **The scan takes evidence as the engine does**, if no timer runs out until then. -/
lemma scan_react (h : Consistent eng v) (hrest : AtRest eng evidence.at_ v) {until_ : Time}
    {es : List Evidence} (notifyEligible : Bool) :
    scan eng until_ (v.current evidence.key).scan (evidence :: es)
      = scan eng until_ ((v.react eng evidence notifyEligible).current evidence.key).scan es := by
  have hmasked : evidence.masked eng (v.current evidence.key)
      = evidence.ignored eng.interface (v.current evidence.key).reachabilityDown := rfl
  have hdeadline : (v.current evidence.key).pending = true →
      ¬ (v.current evidence.key).deadline eng ≤ evidence.at_ := fun hpending =>
    not_le.mpr (hrest.timers (View.current_of_open (Tracker.open_of_pending hpending)) hpending)
  have hclosed : (v.current evidence.key).phase.openState = none →
      (v.current evidence.key).reachabilityDown = false := by
    intro hphase
    obtain ⟨phase, at_, hcurrent⟩ := h.current_of_closed hphase
    rw [hcurrent]
  have hset : ∀ (r : Reaction) incident,
      (v.set evidence.key r.current r.id incident).current evidence.key = r.current := by
    intro r incident
    simp only [View.current, View.set, Function.update_self, Option.getD_some]
  rw [View.react, hmasked]
  cases hphase : (v.current evidence.key).phase <;>
    rw [hphase] at hclosed <;>
    rw [Tracker.pending, Tracker.deadline, hphase] at hdeadline
  case unset | healthy =>
      have hignored : evidence.ignored eng.interface (v.current evidence.key).reachabilityDown
          = false := by
        simp [Evidence.ignored, hclosed rfl]
      rw [hignored, if_neg Bool.false_ne_true, hset]
      simp only [Tracker.scan, hphase, reaction]
      rw [scan]
      cases honline : evidence.online <;> simp [openedTracker]
  case active =>
      simp only [Tracker.scan, hphase]
      rw [scan]
      split_ifs with hignored honline
      · rw [hphase]
      · rw [hset]
        simp only [reaction, honline]
      · rw [hset]
        simp only [reaction, Bool.eq_false_iff.mpr honline]
  case pendingFailure =>
      simp only [Tracker.scan, hphase]
      rw [scan, if_neg (by simpa using hdeadline rfl)]
      split_ifs with hignored honline
      · rw [hphase]
      · rw [hset]
        simp only [reaction, honline]
      · rw [hset]
        simp only [reaction, Bool.eq_false_iff.mpr honline]
  case pendingRecovery =>
      simp only [Tracker.scan, hphase]
      rw [scan, if_neg (by simpa using hdeadline rfl)]
      split_ifs with hignored honline
      · rw [hphase]
      · rw [hset]
        simp only [reaction, honline]
      · rw [hset]
        simp only [reaction, Bool.eq_false_iff.mpr honline]

/-- Where an interface is in its scan does not depend on sightings. -/
lemma scan_sighted (evidence : Evidence) (current : Tracker) :
    (current.sighted evidence).scan = current.scan := by
  rw [Tracker.sighted]
  cases hphase : current.phase <;> simp [Tracker.scan, hphase]

/-- What is recorded is in the history. -/
lemma recorded_congr {v' : View} (hhistory : v'.history = v.history) (key : String)
    (outage : Outage) : v'.Recorded eng key outage ↔ v.Recorded eng key outage := by
  rw [View.Recorded, View.Recorded, hhistory]

lemma foretold_sight {until_ : Time} {key : String} {es : List Evidence} {outage : Outage} :
    (v.sight evidence).Foretold eng until_ key es outage ↔ v.Foretold eng until_ key es outage := by
  have hcurrent : ((v.sight evidence).current key).scan = (v.current key).scan := by
    by_cases hkey : key = evidence.key
    · have hsighted : (v.sight evidence).current key = (v.current evidence.key).sighted evidence := by
        simp only [View.current, View.sight, View.set, hkey, Function.update_self, Option.getD_some]
      rw [hsighted, scan_sighted, hkey]
    · simp only [View.current, View.sight, View.set, Function.update_of_ne hkey]
  rw [View.Foretold, View.Foretold, hcurrent, recorded_congr (history_sight evidence v)]

/-- **Evidence is foretold**, if no timer runs out until then. -/
lemma foretold_react (h : Consistent eng v) (hrest : AtRest eng evidence.at_ v) {until_ : Time}
    {key : String} {es : List Evidence} (notifyEligible : Bool) {outage : Outage} :
    (v.react eng evidence notifyEligible).Foretold eng until_ key es outage ↔
      v.Foretold eng until_ key (if evidence.key = key then evidence :: es else es) outage := by
  rw [View.Foretold, View.Foretold, recorded_congr (history_react h hrest notifyEligible)]
  split_ifs with hkey
  · rw [← hkey, scan_react h hrest notifyEligible]
  · rw [current_react_of_ne (Ne.symm hkey)]

end

/-! ## Evidence in the order of time -/

/-- No tracker has seen anything after that time. -/
def View.SeenBy (v : View) (at_ : Time) : Prop :=
  ∀ ⦃key current⦄, v.trackers key = some current → current.lastEvidenceAt ≤ at_

lemma View.SeenBy.not_stale {v : View} {evidence : Evidence} (h : v.SeenBy evidence.at_) :
    ¬ evidence.Stale (v.current evidence.key) := by
  rintro ⟨hseen, hlt⟩
  rw [View.current] at hseen hlt
  cases hc : v.trackers evidence.key with
  | none =>
      rw [hc] at hseen
      exact hseen rfl
  | some current =>
      rw [hc] at hlt
      exact absurd hlt (not_lt.mpr (h hc))

lemma View.SeenBy.set {v : View} {at_ : Time} (h : v.SeenBy at_) {key id : String}
    {current : Tracker} {incident : Option Incident} (hcurrent : current.lastEvidenceAt ≤ at_) :
    (v.set key current id incident).SeenBy at_ := by
  intro key' current' hc
  simp only [View.set, Function.update_apply] at hc
  split_ifs at hc
  · rwa [← Option.some.inj hc]
  · exact h hc

lemma View.SeenBy.settle {v : View} {at_ : Time} (h : v.SeenBy at_) (now : Time) :
    (v.settle now).SeenBy at_ := by
  intro key current hc
  obtain ⟨before, hbefore, rfl⟩ := Option.map_eq_some_iff.mp hc
  have hsame : (v.settledTracker now before).lastEvidenceAt = before.lastEvidenceAt := by
    rw [View.settledTracker]
    cases v.incidents before.incidentID with
    | none => rfl
    | some incident =>
        simp only
        rw [Tracker.fired]
        split_ifs
        · rfl
        · rfl
        · rfl
  rw [hsame]
  exact h hbefore

lemma View.SeenBy.observe {v : View} {evidence : Evidence} (h : v.SeenBy evidence.at_)
    (eng : Engine) (notifyEligible : Bool) :
    (v.observe eng evidence notifyEligible).SeenBy evidence.at_ := by
  rw [View.observe, View.react]
  split_ifs
  · exact h
  · exact h.set (by rw [Tracker.sighted])
  · exact h.settle _
  · refine (h.settle _).set ?_
    rw [reaction]
    cases evidence.online <;> cases ((v.settle evidence.at_).current evidence.key).phase <;> exact le_rfl

/-- **An observation is foretold**, in the order of time. -/
lemma foretold_observeLocked {eng : Engine} {s : Snapshot} {at_ until_ : Time}
    (h : Timely eng at_ s) {o : Observation} {evidence : Evidence}
    (hevidence : eng.evidence o = some evidence) (orders : Schedule) (hle : at_ ≤ evidence.at_)
    (hseen : s.view.SeenBy evidence.at_) {es : List Evidence} (huntil : evidence.at_ ≤ until_)
    (hes : ∀ e ∈ es, evidence.at_ ≤ e.at_) (key : String) (outage : Outage) :
    (observeLocked eng orders o.message o.notifyEligible o.sourceRef s).view.Foretold eng until_ key
        es outage ↔
      s.view.Foretold eng until_ key (if evidence.concerns key then evidence :: es else es)
        outage := by
  rw [view_observeLocked h.consistent, View.take, hevidence]
  simp only [View.observe, if_neg hseen.not_stale]
  by_cases hsight : evidence.observeOnly = true
  · have hconcerns : evidence.concerns key = false := by simp [Evidence.concerns, hsight]
    rw [if_pos hsight, hconcerns, if_neg Bool.false_ne_true]
    exact foretold_sight
  · have hconcerns : evidence.concerns key = true ↔ evidence.key = key := by
      simp [Evidence.concerns, hsight]
    have hsettled : Consistent eng (s.view.settle evidence.at_) := by
      rw [← advance_view h.consistent sortedSchedule]
      exact h.consistent.advance sortedSchedule
    have hrest := h.rest.settle h.consistent hle le_rfl fun _ _ _ _ hdue => hdue
    rw [if_neg hsight, foretold_react hsettled hrest]
    simp only [hconcerns]
    refine foretold_settle h.consistent huntil ?_ key outage
    intro e he
    split_ifs at he
    · rcases List.mem_cons.mp he with rfl | he
      · exact le_rfl
      · exact hes e he
    · exact hes e he

/-! ## Runs in the order of time -/

/-- The evidence of an interface among observations. -/
def Engine.evidenceOf (eng : Engine) (key : String) (os : List Observation) : List Evidence :=
  (os.filterMap eng.evidence).filter (Evidence.concerns key)

/-- The observations of a call. -/
def Operation.observations : Operation → List Observation
  | .observe _ message notifyEligible _ => [⟨message, notifyEligible, ""⟩]
  | .apply _ observations _ _ _ => observations
  | _ => []

lemma evidenceOf_cons (eng : Engine) (key : String) (o : Observation) (os : List Observation) :
    eng.evidenceOf key (o :: os)
      = ((eng.evidence o).filter (Evidence.concerns key)).toList ++ eng.evidenceOf key os := by
  rw [Engine.evidenceOf, List.filterMap_cons]
  cases eng.evidence o with
  | none => rfl
  | some evidence =>
      simp only [List.filter_cons, Option.filter_some]
      split_ifs <;> rfl

lemma evidenceOf_append (eng : Engine) (key : String) (os os' : List Observation) :
    eng.evidenceOf key (os ++ os') = eng.evidenceOf key os ++ eng.evidenceOf key os' := by
  rw [Engine.evidenceOf, List.filterMap_append, List.filter_append]
  rfl

/-- Evidence of an interface has a time among those of the evidence. -/
lemma mem_evidenceTimes_of_mem {eng : Engine} {key : String} {os : List Observation}
    {e : Evidence} (he : e ∈ eng.evidenceOf key os) : e.at_ ∈ eng.evidenceTimes os := by
  obtain ⟨o, ho, hevidence⟩ := List.mem_filterMap.mp (List.mem_filter.mp he).1
  exact List.mem_filterMap.mpr ⟨o, ho, by rw [hevidence]; rfl⟩

/-- In step with time, with nothing seen after what comes next. -/
structure Steady (eng : Engine) (rest : List Time) (s : Snapshot) : Prop where
  timely : ∃ at_, (∀ t ∈ rest, at_ ≤ t) ∧ Timely eng at_ s
  seen : ∀ t ∈ rest, s.view.SeenBy t

/-- **Observations in the order of time are foretold.** -/
lemma foretold_observeAll {eng : Engine} {until_ : Time} (orders : ℕ → Schedule)
    (os : List Observation) {rest : List Time} {s : Snapshot}
    (h : Steady eng (eng.evidenceTimes os ++ rest) s)
    (htimes : (eng.evidenceTimes os ++ rest).Pairwise (· ≤ ·))
    (huntil : ∀ t ∈ eng.evidenceTimes os, t ≤ until_) {es : List Evidence}
    (hes : ∀ e ∈ es, e.at_ ∈ rest) (key : String) :
    Steady eng rest (observeAll eng orders os s) ∧ ∀ outage,
      (observeAll eng orders os s).view.Foretold eng until_ key es outage ↔
        s.view.Foretold eng until_ key (eng.evidenceOf key os ++ es) outage := by
  induction os generalizing orders s with
  | nil => exact ⟨h, fun _ => Iff.rfl⟩
  | cons o os ih =>
      rw [evidenceTimes_cons] at h htimes huntil
      rw [observeAll, evidenceOf_cons]
      cases hevidence : eng.evidence o with
      | none =>
          rw [hevidence] at h htimes huntil
          rw [observeLocked_of_none hevidence]
          exact ih _ h htimes huntil
      | some evidence =>
          rw [hevidence] at h htimes huntil
          simp only [Option.map_some, Option.toList_some, List.cons_append, List.nil_append,
            List.pairwise_cons, List.mem_cons, forall_eq_or_imp] at htimes huntil
          obtain ⟨at_, hle, htimely⟩ := h.timely
          have hseen := h.seen evidence.at_ (by simp)
          obtain ⟨later, -, hlater, hafter⟩ :=
            htimely.observeLocked (orders 0) hevidence (hle _ (by simp))
          have hrest : ∀ t ∈ eng.evidenceTimes os ++ rest, evidence.at_ ≤ t := htimes.1
          have hsteady : Steady eng (eng.evidenceTimes os ++ rest)
              (observeLocked eng (orders 0) o.message o.notifyEligible o.sourceRef s) := by
            refine ⟨⟨later, fun t ht => hlater.trans (hrest t ht), hafter⟩, fun t ht => ?_⟩
            rw [view_observeLocked htimely.consistent, View.take, hevidence]
            exact fun _ _ hc => ((hseen.observe eng o.notifyEligible) hc).trans (hrest t ht)
          have htail : ∀ e ∈ eng.evidenceOf key os ++ es, evidence.at_ ≤ e.at_ := by
            intro e he
            rcases List.mem_append.mp he with he | he
            · exact hrest _ (List.mem_append_left _ (mem_evidenceTimes_of_mem he))
            · exact hrest _ (List.mem_append_right _ (hes e he))
          obtain ⟨hdone, hforetold⟩ := ih (fun n => orders (n + 1)) hsteady htimes.2 huntil.2
          refine ⟨hdone, fun outage => (hforetold outage).trans ?_⟩
          rw [foretold_observeLocked htimely hevidence (orders 0) (hle _ (by simp)) hseen huntil.1
            htail key outage, Option.filter_some]
          split_ifs <;> rfl

/-- **A live call in the order of time is foretold.** -/
lemma Steady.call {eng : Engine} {svc : Service} {op : Operation} {rest : List Time}
    (h : Steady eng (op.times eng ++ rest) svc.state) (hlive : op.live)
    (htimes : (op.times eng ++ rest).Pairwise (· ≤ ·)) {until_ : Time}
    (huntil : ∀ t ∈ op.times eng, t ≤ until_) {es : List Evidence}
    (hes : ∀ e ∈ es, e.at_ ∈ rest) (key : String) :
    Steady eng rest (svc.call eng op).state ∧ ∀ outage,
      (svc.call eng op).state.view.Foretold eng until_ key es outage ↔
        svc.state.view.Foretold eng until_ key (eng.evidenceOf key op.observations ++ es) outage := by
  cases op with
  | observe orders message notifyEligible outcome =>
      rw [Service.call, Service.observe_state]
      exact foretold_observeAll (fun _ => orders) [⟨message, notifyEligible, ""⟩] h htimes huntil
        hes key
  | apply orders observations cursors checkpointAt outcome =>
      obtain ⟨⟨⟨later, hlater, hafter⟩, hseen⟩, hforetold⟩ :=
        foretold_observeAll orders observations h htimes huntil hes key
      rw [Service.call, Service.apply_state]
      exact ⟨⟨⟨later, hlater, ⟨hafter.consistent, hafter.rest, hafter.orderly, hafter.outbox⟩⟩,
        hseen⟩, hforetold⟩
  | tick orders now outcome =>
      obtain ⟨at_, hle, htimely⟩ := h.timely
      simp only [Operation.times, List.cons_append, List.nil_append, List.pairwise_cons,
        List.mem_cons, List.not_mem_nil, or_false, forall_eq] at hle htimes huntil
      rw [htimely.consistent.view_call.2.2]
      refine ⟨⟨⟨now, htimes.1, ?_⟩, fun t ht => ?_⟩, fun outage => ?_⟩
      · rw [Service.call, Service.tick_state]
        exact htimely.advance orders (hle now (Or.inl rfl)) le_rfl fun _ _ _ _ hdue => hdue
      · rw [htimely.consistent.view_call.2.2]
        exact (h.seen t (List.mem_append_right _ ht)).settle now
      · exact foretold_settle htimely.consistent huntil (fun e he => htimes.1 _ (hes e he)) key outage
  | _ => exact absurd hlive id

/-- The evidence of calls has a time among theirs. -/
lemma mem_times_of_mem {eng : Engine} {key : String} {ops : List Operation} {e : Evidence}
    (he : e ∈ eng.evidenceOf key (ops.flatMap Operation.observations)) :
    e.at_ ∈ ops.flatMap (Operation.times eng) := by
  obtain ⟨o, ho, hevidence⟩ := List.mem_filterMap.mp (List.mem_filter.mp he).1
  obtain ⟨op, hop, ho⟩ := List.mem_flatMap.mp ho
  have htime : e.at_ ∈ eng.evidenceTimes op.observations :=
    List.mem_filterMap.mpr ⟨o, ho, by rw [hevidence]; rfl⟩
  refine List.mem_flatMap.mpr ⟨op, hop, ?_⟩
  cases op with
  | observe orders message notifyEligible outcome => exact htime
  | apply orders observations cursors checkpointAt outcome => exact htime
  | _ => cases ho

/-- **Live calls in the order of time are foretold.** -/
lemma Steady.run {eng : Engine} (ops : List Operation) {svc : Service} {rest : List Time}
    (h : Steady eng (ops.flatMap (Operation.times eng) ++ rest) svc.state)
    (hlive : ∀ op ∈ ops, op.live)
    (htimes : (ops.flatMap (Operation.times eng) ++ rest).Pairwise (· ≤ ·)) {until_ : Time}
    (huntil : ∀ t ∈ ops.flatMap (Operation.times eng), t ≤ until_) (key : String) :
    Steady eng rest (svc.run eng ops).state ∧ ∀ outage,
      (svc.run eng ops).state.view.Foretold eng until_ key [] outage ↔
        svc.state.view.Foretold eng until_ key
          (eng.evidenceOf key (ops.flatMap Operation.observations)) outage := by
  induction ops generalizing svc with
  | nil => exact ⟨h, fun _ => Iff.rfl⟩
  | cons op ops ih =>
      rw [List.flatMap_cons, List.append_assoc] at h htimes
      rw [List.flatMap_cons] at huntil
      obtain ⟨hafter, hforetold⟩ := h.call (hlive op List.mem_cons_self) htimes
        (fun t ht => huntil t (List.mem_append_left _ ht))
        (fun e he => List.mem_append_left _ (mem_times_of_mem he)) key
      obtain ⟨hdone, hrest⟩ := ih hafter (fun o ho => hlive o (List.mem_cons_of_mem _ ho))
        (List.pairwise_append.mp htimes).2.1 fun t ht => huntil t (List.mem_append_right _ ht)
      refine ⟨hdone, fun outage => (hrest outage).trans ?_⟩
      rw [List.flatMap_cons, evidenceOf_append, hforetold outage]

/-! ## The end of a run -/

/-- What an incident reports. -/
def Incident.Reports (incident : Incident) (hostname interface : String) (outage : Outage) : Prop :=
  incident.hostname = hostname ∧ incident.interface = interface ∧
    incident.startedAt = outage.startedAt ∧ incident.activatedAt = some outage.activatedAt ∧
    incident.resolvedAt = outage.resolvedAt

end Logthing
