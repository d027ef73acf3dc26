import Logthing.Incidents.Confluence
import Logthing.Incidents.Following
import Logthing.Incidents.Reachability
import Logthing.Incidents.Settling

/-!
# Hosts side by side

All hosts share one clock: evidence of one lets the timers of every other run out, up to its own
stamp.  What the engine says of a host is nevertheless what it would say if it had been told of that
host alone, as long as no timer of the host runs out before the host's own next turn would have come
to it (`Event.Spares`).

The two engines take the same turns, if not at the same events: until the host's own next turn the
one that has been told of the host alone trails behind (`Trails`), and then it catches up.

**Main results.**  `hosts_do_not_interfere`: two runs that differ in the observations of other hosts
say the same of the host.
-/

namespace Logthing

/-! ## What a host is told -/

/-- What an engine that is told of one host alone is told at once. -/
inductive Told where
  | observed (o : Observation)
  | ticked (now : Time)

/-- What a host is told by an event: its own observations, and ticks. -/
def Event.told (eng : Engine) (hostname : String) : Event → Option Told
  | .tick _ now => some (.ticked now)
  | .observe _ o =>
      if (eng.evidence o).any (·.hostname = hostname) then some (.observed o) else none

/-- An event that tells it, with its loops in key order. -/
def Told.event : Told → Event
  | .observed o => .observe sortedSchedule o
  | .ticked now => .tick sortedSchedule now

/-- The time of the next turn that a host comes to by itself. -/
def nextOwn (eng : Engine) (hostname : String) : Snapshot → List Event → Option Time
  | _, [] => none
  | s, e :: events =>
      ((e.told eng hostname).bind fun _ => e.reaches eng s.view).or
        (nextOwn eng hostname (s.event eng e) events)

/-- **An event spares a host** if its loops cannot be told apart by what they make of the host, and,
if it is about another host, it lets no timer of the host run out that the host's own next turn
would not have come to. -/
structure Event.Spares (eng : Engine) (hostname : String) (s : Snapshot) (e : Event)
    (after : List Event) : Prop where
  onePrimary : ∀ now ∈ e.reaches eng s.view, (s.view.ofHost eng hostname).OnePrimary eng now
  inTime : e.told eng hostname = none → ∀ now ∈ e.reaches eng s.view, ∀ ⦃key current incident⦄,
    (s.view.ofHost eng hostname).trackers key = some current →
    (s.view.ofHost eng hostname).incidents current.incidentID = some incident →
    current.dueBy now incident →
    ∃ next ∈ nextOwn eng hostname (s.event eng e) after, current.dueAt incident ≤ next

/-! ## Sightings in between turns -/

section

variable {eng : Engine} {s s' : Snapshot} {now : Time} {evidence : Evidence} {key : String}
  {current : Tracker} {i : Incident}

lemma Tracker.sighted_fired (h : current.pending = true) :
    (current.sighted evidence).fired = current.fired.sighted evidence := by
  have hset := Tracker.phase_ne_unset_of_pending h
  rw [Tracker.sighted_eq hset, Tracker.fired, Tracker.fired]
  split_ifs
  · rfl
  · rfl

lemma Tracker.sighted_pending : (current.sighted evidence).pending = current.pending := by
  cases hphase : current.phase <;> simp [Tracker.sighted, Tracker.pending, hphase]

/-- A tracker after a sighting, of its own interface or of another. -/
def Evidence.sees (evidence : Evidence) (key : String) (current : Tracker) : Tracker :=
  if key = evidence.key then current.sighted evidence else current

/-- A sighting does not show in a pending tracker, but for the time of its evidence. -/
lemma sees_of_pending (evidence : Evidence) (key : String) (h : current.pending = true) :
    ∃ at_, evidence.sees key current = { current with lastEvidenceAt := at_ } := by
  rw [Evidence.sees]
  split_ifs
  · exact ⟨_, Tracker.sighted_eq (Tracker.phase_ne_unset_of_pending h)⟩
  · exact ⟨_, rfl⟩

/-- The pending trackers after a sighting are those from before. -/
lemma trackers_sight {v : View} (hc : v.trackers key = some current) :
    (v.sight evidence).trackers key = some (evidence.sees key current) := by
  simp only [View.sight, View.set, Function.update_apply, Evidence.sees]
  split_ifs with hkey
  · rw [View.current, ← hkey, hc, Option.getD_some]
  · exact hc

lemma of_trackers_sight {v : View} (hc : (v.sight evidence).trackers key = some current)
    (hpending : current.pending = true) :
    ∃ before, v.trackers key = some before ∧ before.pending = true ∧
      current = evidence.sees key before := by
  simp only [View.sight, View.set, Function.update_apply] at hc
  split_ifs at hc with hkey
  · rw [← Option.some.inj hc, Tracker.sighted_pending] at hpending
    refine ⟨v.current evidence.key, ?_, hpending, ?_⟩
    · rw [hkey]
      exact View.current_of_open (Tracker.open_of_pending hpending)
    · rw [Evidence.sees, if_pos hkey, Option.some.inj hc]
  · exact ⟨current, hc, hpending, (if_neg hkey).symm⟩

/-- What comes first still does after a sighting. -/
lemma Fires.sight (hfires : Fires eng.interface now s.view key current i) :
    Fires eng.interface now (s.sight evidence).view key (evidence.sees key current) i := by
  rw [view_sight]
  obtain ⟨at_, hsees⟩ := sees_of_pending evidence key hfires.due.1
  refine ⟨trackers_sight hfires.tracker_eq, ?_, ?_, fun {k c x} hc hx hdue => ?_⟩
  · rw [incidents_sight, hsees]
    exact hfires.incident_eq
  · rw [hsees]
    exact hfires.due
  · obtain ⟨before, hbefore, hpending, rfl⟩ := of_trackers_sight hc hdue.1
    obtain ⟨t, hbeforeSees⟩ := sees_of_pending evidence k hpending
    rw [hsees]
    rw [incidents_sight] at hx
    rw [hbeforeSees] at hx hdue ⊢
    exact @Fires.first _ _ _ _ _ _ hfires k before x hbefore hx hdue

/-- **A sighting** may as well come before a turn. -/
lemma Turned.sight (hturn : Turned eng now s s') :
    Turned eng now (s.sight evidence) (s'.sight evidence) := by
  obtain ⟨orders, key, current, i, hfires, rfl⟩ := hturn
  refine ⟨orders, key, evidence.sees key current, i, hfires.sight, ?_⟩
  obtain ⟨at_, hsees⟩ := sees_of_pending evidence key hfires.due.1
  have hi : (s.sight evidence).incidents.lookup (evidence.sees key current).incidentID = some i := by
    rw [hsees]
    exact hfires.incident_eq
  have hfired : i.fired (evidence.sees key current) = i.fired current := by
    rw [hsees]
    rfl
  have hnotices : ∀ incidents, turnNotices eng.interface orders (evidence.sees key current)
      (i.fired current) incidents ((evidence.sees key current).dueAt i)
        = turnNotices eng.interface orders current (i.fired current) incidents
          (current.dueAt i) := by
    rw [hsees]
    exact fun _ => rfl
  rw [advanceOne_eq hfires.incident_eq, advanceOne_eq hi, hfired, hnotices]
  simp only [Snapshot.sight, Snapshot.view, View.current]
  congr 1
  by_cases hkey : key = evidence.key
  · rw [← hkey, Finmap.lookup_insert, Finmap.insert_insert, Finmap.insert_insert, Evidence.sees,
      if_pos hkey, Option.getD_some, Tracker.sighted_fired hfires.due.1]
  · rw [Evidence.sees, if_neg hkey, Finmap.lookup_insert_of_ne _ (Ne.symm hkey),
      Finmap.insert_insert_of_ne _ hkey]

lemma Turns.sight (hturns : Turns eng now s s') :
    Turns eng now (s.sight evidence) (s'.sight evidence) :=
  hturns.lift (Snapshot.sight evidence) fun _ _ hturn => hturn.sight

end

/-! ## An engine that is behind -/

/-- **An engine that has been told of one host alone trails** another: it would take the turns
that the other one has taken by the next time that the host comes to, if there is one. -/
def Trails (eng : Engine) (hostname : String) (next : Option Time) (s alone : Snapshot) : Prop :=
  ∃ part, Shadows eng hostname s part ∧ (∀ now ∈ next, Turns eng now alone part) ∧
    (next = none → part = alone) ∧
    ∀ now, part.view.OnePrimary eng now → alone.view.OnePrimary eng now

namespace Trails

variable {eng : Engine} {hostname : String} {next : Option Time} {s alone : Snapshot}

/-- It does where they say the same. -/
lemma of_shadows (h : Shadows eng hostname s alone) : Trails eng hostname next s alone :=
  ⟨alone, h, fun _ _ => .refl, fun _ => rfl, fun _ hone => hone⟩

/-- The two agree on what is late for a tracker of the host. -/
lemma stale_iff (h : Trails eng hostname next s alone) {evidence : Evidence}
    (hkey : HostKey eng hostname evidence.key) :
    evidence.Stale (alone.view.current evidence.key) ↔
      evidence.Stale (s.view.current evidence.key) := by
  obtain ⟨part, hshadows, hturns, hnone, -⟩ := h
  have hcurrent : part.view.current evidence.key = s.view.current evidence.key := by
    rw [hshadows.view, current_ofHost hkey]
  rw [Evidence.Stale, Evidence.Stale, ← hcurrent]
  cases next with
  | none => rw [hnone rfl]
  | some now => rw [(hturns now rfl).lastEvidenceAt_eq]

variable (hnul : '\x00' ∉ eng.interface.toList) (hcons : Consistent eng s.view)
  (halone : Consistent eng alone.view)

include hnul hcons halone

/-- **It catches up** at the host's own turns. -/
lemma advance {now : Time} (h : Trails eng hostname (some now) s alone)
    (hone : (s.view.ofHost eng hostname).OnePrimary eng now) (orders : Schedule) :
    Shadows eng hostname (Logthing.advance eng.interface orders now s).1
      (Logthing.advance eng.interface sortedSchedule now alone).1 := by
  obtain ⟨part, hshadows, hturns, -, hkeeps⟩ := h
  obtain ⟨orders', hafter⟩ := hshadows.advance hnul hcons orders now
  rw [← hshadows.view] at hone
  rwa [Turns.advance_eq halone (hkeeps now hone) (hturns now rfl) orders' sortedSchedule] at hafter

omit halone in
/-- **Evidence of another host** leaves it trailing. -/
lemma observe_other (h : Trails eng hostname next s alone) {o : Observation} {evidence : Evidence}
    (he : eng.evidence o = some evidence) (hother : evidence.hostname ≠ hostname)
    (hone : evidence.Counts (s.view.current evidence.key) →
      (s.view.ofHost eng hostname).OnePrimary eng evidence.at_)
    (htime : evidence.Counts (s.view.current evidence.key) → ∀ ⦃key current incident⦄,
      (s.view.ofHost eng hostname).trackers key = some current →
      (s.view.ofHost eng hostname).incidents current.incidentID = some incident →
      current.dueBy evidence.at_ incident → ∃ now ∈ next, current.dueAt incident ≤ now)
    (orders : Schedule) : Trails eng hostname next
      (observeLocked eng orders o.message o.notifyEligible o.sourceRef s) alone := by
  obtain ⟨part, hshadows, hturns, hnone, hkeeps⟩ := h
  obtain ⟨after, hafter, hstep⟩ := hshadows.observe_other hnul hcons he hother orders
  have hpart := hshadows.consistent hnul hcons
  by_cases hcounts : evidence.Counts (s.view.current evidence.key)
  swap
  · rw [if_neg hcounts] at hstep
    rw [hstep] at hafter
    exact ⟨part, hafter, hturns, hnone, hkeeps⟩
  rw [if_pos hcounts] at hstep
  obtain ⟨orders', rfl⟩ := hstep
  have hone := hone hcounts
  have htime := htime hcounts
  rw [← hshadows.view] at hone htime
  refine ⟨_, hafter, fun now hnow => ?_, fun hnext => ?_, fun now hlate => hkeeps now ?_⟩
  · refine (hturns now hnow).trans (Turns.of_due hpart (advance_turns hpart orders').1 ?_)
    intro key current incident hc hi hdue
    obtain ⟨t, ht, hle⟩ := htime hc hi hdue
    rwa [Option.mem_unique ht hnow] at hle
  · have hidle : part.view.Idle evidence.at_ := by
      intro key current incident hc hi hdue
      obtain ⟨t, ht, -⟩ := htime hc hi hdue
      rw [hnext] at ht
      cases ht
    rw [advance_of_idle hpart orders' hidle]
    exact hnone hnext
  · rw [advance_view hpart] at hlate
    exact hpart.onePrimary_of_settle hone hlate

omit halone in
/-- **Its own evidence**, if it does not count. -/
lemma observe_quiet (h : Trails eng hostname next s alone) {o : Observation} {evidence : Evidence}
    (he : eng.evidence o = some evidence) (hown : evidence.hostname = hostname)
    (hquiet : ¬ evidence.Counts (s.view.current evidence.key)) (orders orders' : Schedule) :
    Trails eng hostname next (observeLocked eng orders o.message o.notifyEligible o.sourceRef s)
      (observeLocked eng orders' o.message o.notifyEligible o.sourceRef alone) := by
  subst hown
  obtain ⟨-, -, hiface⟩ := evidence_eq_some he
  have hstale := h.stale_iff (Evidence.hostKey hiface)
  rw [observeLocked_of_some he, observeLocked_of_some he]
  by_cases hlate : evidence.Stale (s.view.current evidence.key)
  · rwa [if_pos hlate, if_pos (hstale.mpr hlate)]
  have honly : evidence.observeOnly = true := by
    by_contra honly
    exact hquiet ⟨hlate, Bool.eq_false_iff.mpr honly⟩
  rw [if_neg hlate, if_pos honly, if_neg (mt hstale.mp hlate), if_pos honly]
  obtain ⟨part, hshadows, hturns, hnone, hkeeps⟩ := h
  obtain ⟨orders'', hafter⟩ := hshadows.observe_own hnul hcons he rfl orders
  have hcurrent : part.view.current evidence.key = s.view.current evidence.key := by
    rw [hshadows.view, current_ofHost (Evidence.hostKey hiface)]
  rw [observeLocked_of_some he, observeLocked_of_some he, hcurrent, if_neg hlate, if_pos honly,
    if_neg hlate, if_pos honly] at hafter
  refine ⟨part.sight evidence, hafter, fun now hnow => (hturns now hnow).sight,
    fun hnext => by rw [hnone hnext], fun now => ?_⟩
  rw [view_sight, view_sight, View.OnePrimary, View.OnePrimary, incidents_sight, incidents_sight]
  exact hkeeps now

/-- **Its own evidence**, if it counts. -/
lemma observe_own {o : Observation} {evidence : Evidence} (he : eng.evidence o = some evidence)
    (hown : evidence.hostname = hostname) (hcounts : evidence.Counts (s.view.current evidence.key))
    (h : Trails eng hostname (some evidence.at_) s alone)
    (hone : (s.view.ofHost eng hostname).OnePrimary eng evidence.at_) (orders : Schedule) :
    Shadows eng hostname (observeLocked eng orders o.message o.notifyEligible o.sourceRef s)
      (observeLocked eng sortedSchedule o.message o.notifyEligible o.sourceRef alone) := by
  subst hown
  obtain ⟨-, -, hiface⟩ := evidence_eq_some he
  have hstale := h.stale_iff (Evidence.hostKey hiface)
  obtain ⟨part, hshadows, hturns, -, hkeeps⟩ := h
  obtain ⟨orders', hafter⟩ := hshadows.observe_own hnul hcons he rfl orders
  have hcurrent : part.view.current evidence.key = s.view.current evidence.key := by
    rw [hshadows.view, current_ofHost (Evidence.hostKey hiface)]
  have honly : ¬ evidence.observeOnly = true := Bool.eq_false_iff.mp hcounts.2
  rw [← hshadows.view] at hone
  have hcaught := Turns.advance_eq halone (hkeeps _ hone) (hturns _ rfl) orders' sortedSchedule
  have hpart : observeLocked eng orders' o.message o.notifyEligible o.sourceRef part
      = observeLocked eng sortedSchedule o.message o.notifyEligible o.sourceRef alone := by
    rw [observeLocked_of_some he, observeLocked_of_some he, hcurrent, if_neg hcounts.1,
      if_neg honly, if_neg (mt hstale.mp hcounts.1), if_neg honly, hcaught]
  rwa [hpart] at hafter

/-- **An event** leaves it trailing, until the host's own next turn. -/
lemma event {e : Event} {after : List Event}
    (h : Trails eng hostname (nextOwn eng hostname s (e :: after)) s alone)
    (hspares : e.Spares eng hostname s after) :
    Trails eng hostname (nextOwn eng hostname (s.event eng e) after) (s.event eng e)
      (alone.after eng ((e.told eng hostname).toList.map Told.event)) := by
  cases e with
  | tick orders now =>
      exact of_shadows (h.advance hnul hcons halone (hspares.onePrimary now rfl) orders)
  | observe orders o =>
      cases he : eng.evidence o with
      | none =>
          have htold : (Event.observe orders o).told eng hostname = none := by
            simp [Event.told, he]
          rw [nextOwn, htold, Snapshot.event, observeLocked_of_none he] at h
          rw [htold, Snapshot.event, observeLocked_of_none he]
          exact h
      | some evidence =>
          have hreaches : (Event.observe orders o).reaches eng s.view
              = if evidence.Counts (s.view.current evidence.key) then some evidence.at_ else none := by
            rw [Event.reaches, he]
            rfl
          obtain ⟨hone, hinTime⟩ := hspares
          rw [hreaches] at hone hinTime
          by_cases hown : evidence.hostname = hostname
          · have htold : (Event.observe orders o).told eng hostname = some (.observed o) := by
              simp [Event.told, he, hown]
            rw [nextOwn, htold, Option.bind_some, hreaches] at h
            rw [htold]
            by_cases hcounts : evidence.Counts (s.view.current evidence.key)
            · rw [if_pos hcounts] at h hone
              exact of_shadows (observe_own hnul hcons halone he hown hcounts h (hone _ rfl) orders)
            · rw [if_neg hcounts] at h
              exact observe_quiet hnul hcons h he hown hcounts orders sortedSchedule
          · have htold : (Event.observe orders o).told eng hostname = none := by
              simp [Event.told, he, hown]
            rw [nextOwn, htold] at h
            rw [htold]
            refine observe_other hnul hcons h he hown (fun hcounts => ?_) (fun hcounts => ?_) orders
            · rw [if_pos hcounts] at hone
              exact hone _ rfl
            · rw [if_pos hcounts] at hinTime
              exact hinTime htold _ rfl

end Trails

/-! ## Runs -/

/-- **The events of a run spare a host**, one after another. -/
def Spared (eng : Engine) (hostname : String) : Snapshot → List Event → Prop
  | _, [] => True
  | s, e :: events => e.Spares eng hostname s events ∧ Spared eng hostname (s.event eng e) events

section

variable {eng : Engine} {hostname : String}

/-- **A run that spares a host** says of it what an engine says that is told of it alone. -/
lemma Trails.after (hnul : '\x00' ∉ eng.interface.toList) {events : List Event} {s alone : Snapshot}
    (hcons : Consistent eng s.view) (halone : Consistent eng alone.view)
    (h : Trails eng hostname (nextOwn eng hostname s events) s alone)
    (hspared : Spared eng hostname s events) :
    Shadows eng hostname (s.after eng events)
      (alone.after eng ((events.filterMap (Event.told eng hostname)).map Told.event)) := by
  induction events generalizing s alone with
  | nil =>
      obtain ⟨part, hshadows, -, hnone, -⟩ := h
      rw [hnone rfl] at hshadows
      exact hshadows
  | cons e events ih =>
      have hstep := h.event hnul hcons halone hspared.1
      have hafter := ih (view_event hcons e).2 (view_after halone _).2 hstep hspared.2
      rw [← after_append, ← List.map_append] at hafter
      rw [List.filterMap_cons]
      cases htold : e.told eng hostname with
      | none =>
          rw [htold] at hafter
          exact hafter
      | some told =>
          rw [htold] at hafter
          exact hafter

/-- What shadows two engines is what they say of the host. -/
lemma Shadows.eq {s s' part : Snapshot} (h : Shadows eng hostname s part)
    (h' : Shadows eng hostname s' part) :
    s.view.ofHost eng hostname = s'.view.ofHost eng hostname ∧
      ∀ key fact, AboutHost eng hostname fact.incidentID →
        ((∃ job, s.jobs.lookup key = some job ∧ job.fact = fact) ↔
          ∃ job, s'.jobs.lookup key = some job ∧ job.fact = fact) := by
  refine ⟨h.view.symm.trans h'.view, fun key fact habout => ?_⟩
  have hpart := h.jobs.part key fact
  rw [h'.jobs.part key fact] at hpart
  constructor
  · exact fun hjob => (hpart.mpr ⟨hjob, habout⟩).1
  · exact fun hjob => (hpart.mp ⟨hjob, habout⟩).1

end

/-- **Hosts do not interfere.**  Two runs of calls of `Observe`, `Apply` and `Tick`, in any order of
time, that tell a host the same observations and ticks say the same of it, however they differ in
the observations of other hosts, as long as the events of both spare the host. -/
theorem hosts_do_not_interfere {eng : Engine} (hids : eng.ids.Injective)
    (hnul : '\x00' ∉ eng.interface.toList) (hostname : String) {ops ops' : List Operation}
    (hlive : ∀ op ∈ ops, op.live) (hlive' : ∀ op ∈ ops', op.live)
    (hsame : (ops.flatMap Operation.events).filterMap (Event.told eng hostname)
      = (ops'.flatMap Operation.events).filterMap (Event.told eng hostname))
    (hspared : Spared eng hostname {} (ops.flatMap Operation.events))
    (hspared' : Spared eng hostname {} (ops'.flatMap Operation.events)) :
    (Service.run eng {} ops).state.view.ofHost eng hostname
        = (Service.run eng {} ops').state.view.ofHost eng hostname ∧
      ∀ key fact, AboutHost eng hostname fact.incidentID →
        ((∃ job, (Service.run eng {} ops).state.jobs.lookup key = some job ∧ job.fact = fact) ↔
          ∃ job, (Service.run eng {} ops').state.jobs.lookup key = some job ∧ job.fact = fact) := by
  have hempty : Consistent eng ({} : Snapshot).view := .empty hids
  have hshadows : ∀ {ops : List Operation}, (∀ op ∈ ops, op.live) →
      Spared eng hostname {} (ops.flatMap Operation.events) →
      Shadows eng hostname (Service.run eng {} ops).state
        (({} : Snapshot).after eng (((ops.flatMap Operation.events).filterMap
          (Event.told eng hostname)).map Told.event)) := by
    intro ops hlive hspared
    have h := Trails.after hnul hempty hempty (.of_shadows (.empty eng hostname)) hspared
    have hrun := outages_run eng hlive {}
    exact ⟨h.view.trans (congrArg (fun s => s.view.ofHost eng hostname) hrun.symm),
      (congrArg Snapshot.jobs hrun) ▸ h.jobs⟩
  have hpart := hshadows hlive hspared
  rw [hsame] at hpart
  exact hpart.eq (hshadows hlive' hspared')

/-- What holds of the whole holds of the part of a host. -/
lemma View.OnePrimary.ofHost {eng : Engine} {v : View} {now : Time} (h : v.OnePrimary eng now)
    (hostname : String) : (v.ofHost eng hostname).OnePrimary eng now :=
  fun _ _ hf hstate hnotify hinterface hdue _ _ _ _ hp hp' =>
    h (incidents_ofHost.mp hf).1 hstate hnotify hinterface hdue (incidents_ofHost.mp hp).1
      (incidents_ofHost.mp hp').1

/-- Where all outages are of the primary interface, an event spares a host that comes to a turn of
its own before any timer runs out. -/
lemma Event.Spares.of_primaries {eng : Engine} {hostname : String} {s : Snapshot} {e : Event}
    {after : List Event}
    (hprimary : ∀ kv ∈ (Traversal.inserted String).visit s.incidents, kv.2.interface = eng.interface)
    (hinTime : e.told eng hostname = none → ∃ next ∈ nextOwn eng hostname (s.event eng e) after,
      ∀ kc ∈ (Traversal.inserted String).visit s.trackers,
        ∀ ki ∈ (Traversal.inserted String).visit s.incidents, kc.2.dueAt ki.2 ≤ next) :
    e.Spares eng hostname s after where
  onePrimary now _ := (View.OnePrimary.of_primaries hprimary now).ofHost hostname
  inTime htold now _ key current incident hc hi _ := by
    obtain ⟨next, hnext, hall⟩ := hinTime htold
    exact ⟨next, hnext, hall (key, current)
      ((Traversal.mem_visit _ _ _ _).mpr (trackers_ofHost.mp hc).1) (_, incident)
      ((Traversal.mem_visit _ _ _ _).mpr (incidents_ofHost.mp hi).1)⟩

/-- A tick that comes late, with evidence of `ap` before it and without. -/
theorem hosts_do_not_interfere_lateTickRun :
    (Service.run sampleEngine {} (lateTickRun forwards [wanDown, apUpLater])).state.view.ofHost
        sampleEngine "gw"
      = (Service.run sampleEngine {} (lateTickRun forwards [wanDown])).state.view.ofHost
        sampleEngine "gw" := by
  have hlive : ∀ os, ∀ op ∈ lateTickRun forwards os, op.live := fun os => by
    simp [lateTickRun, Operation.live]
  have hsame : ((lateTickRun forwards [wanDown, apUpLater]).flatMap Operation.events).filterMap
      (Event.told sampleEngine "gw")
        = ((lateTickRun forwards [wanDown]).flatMap Operation.events).filterMap
          (Event.told sampleEngine "gw") := rfl
  refine (hosts_do_not_interfere sampleIDs_injective (by decide) "gw" (hlive _) (hlive _) hsame
    ⟨?_, ?_, ?_, trivial⟩ ⟨?_, ?_, trivial⟩).1
  · exact .of_primaries (by decide +kernel) (by decide +kernel)
  · exact .of_primaries (by decide +kernel) (by decide +kernel)
  · exact .of_primaries (by decide +kernel) (by decide +kernel)
  · exact .of_primaries (by decide +kernel) (by decide +kernel)
  · exact .of_primaries (by decide +kernel) (by decide +kernel)

end Logthing
