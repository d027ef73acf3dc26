import Logthing.Incidents.Isolation

/-!
# The evidence of one host

In the order of time the evidence of other hosts is of no consequence to a host, and neither are
ticks: they let timers run out that would have run out by the host's own next turn.  What an engine
says of a host is what the host's own observations make of an engine that has seen nothing else, up
to timers that are due (`Alike`).

**Main results.**  `own_evidence_decides`: after two runs in the order of time in which a host has
sent the same, the engine says the same of it.
-/

namespace Logthing

/-- The observation of an event, if it is evidence of the host. -/
def Event.own (eng : Engine) (hostname : String) : Event → Option Observation
  | .observe _ o => if (eng.evidence o).any (·.hostname = hostname) then some o else none
  | .tick .. => none

/-- The time at which an event takes the engine. -/
def Event.time (eng : Engine) : Event → Option Time
  | .observe _ o => (eng.evidence o).map Evidence.at_
  | .tick _ now => some now

/-- **From some time on** a snapshot says of a host what another says in all. -/
def Alike (eng : Engine) (hostname : String) (at_ : Time) (s alone : Snapshot) : Prop :=
  ∀ now, at_ ≤ now → (s.view.settle now).ofHost eng hostname = alone.view.settle now

namespace Alike

variable {eng : Engine} {hostname : String} {at_ now : Time} {s alone : Snapshot}

/-- The two agree on what is late for a tracker of the host. -/
lemma stale_iff (h : Alike eng hostname at_ s alone) {evidence : Evidence}
    (hkey : HostKey eng hostname evidence.key) :
    evidence.Stale (alone.view.current evidence.key) ↔
      evidence.Stale (s.view.current evidence.key) := by
  have hlast : (alone.view.current evidence.key).lastEvidenceAt
      = (s.view.current evidence.key).lastEvidenceAt := by
    rw [← lastEvidenceAt_settle _ at_, ← h at_ le_rfl, current_ofHost hkey, lastEvidenceAt_settle]
  rw [Evidence.Stale, Evidence.Stale, hlast]

/-- **The passage of time** does not show later. -/
lemma advance (h : Alike eng hostname at_ s alone) (hcons : Consistent eng s.view) (hle : at_ ≤ now)
    (orders : Schedule) :
    Alike eng hostname now (Logthing.advance eng.interface orders now s).1 alone := by
  intro later hlater
  rw [advance_view hcons, settle_settle hcons hlater]
  exact h later (hle.trans hlater)

variable (hnul : '\x00' ∉ eng.interface.toList) (h : Alike eng hostname at_ s alone)
  (hcons : Consistent eng s.view)

include hnul h hcons

/-- **Evidence of another host** does not show later. -/
lemma observe_other {o : Observation} {evidence : Evidence} (he : eng.evidence o = some evidence)
    (hother : evidence.hostname ≠ hostname) (hle : at_ ≤ evidence.at_) (orders : Schedule) :
    Alike eng hostname evidence.at_
      (observeLocked eng orders o.message o.notifyEligible o.sourceRef s) alone := by
  intro later hlater
  have hafter := hcons.observeLocked orders o
  have htake := ofHost_take_other hnul hcons he hother
  rw [← view_observeLocked hcons orders] at htake
  rw [ofHost_settle hnul hafter, htake]
  split_ifs
  · rw [← ofHost_settle hnul hcons, ← ofHost_settle hnul (hcons.settle _),
      settle_settle hcons hlater]
    exact h later (hle.trans hlater)
  · rw [← ofHost_settle hnul hcons]
    exact h later (hle.trans hlater)

/-- **Its own evidence** is evidence for both. -/
lemma observe_own (halone : Consistent eng alone.view) {o : Observation} {evidence : Evidence}
    (he : eng.evidence o = some evidence) (hown : evidence.hostname = hostname)
    (hle : at_ ≤ evidence.at_) (orders orders' : Schedule) : Alike eng hostname evidence.at_
      (observeLocked eng orders o.message o.notifyEligible o.sourceRef s)
      (observeLocked eng orders' o.message o.notifyEligible o.sourceRef alone) := by
  subst hown
  obtain ⟨-, -, hiface⟩ := evidence_eq_some he
  have hkey : HostKey eng evidence.hostname evidence.key := Evidence.hostKey hiface
  have hstale := h.stale_iff hkey
  intro later hlater
  have htaken := ofHost_take_own hnul hcons he
  rw [ofHost_settle hnul (hcons.observeLocked orders o), view_observeLocked hcons, htaken,
    view_observeLocked halone, View.take, View.take, he]
  simp only [View.observe, current_ofHost hkey, hstale]
  split_ifs
  · rw [← ofHost_settle hnul hcons]
    exact h later (hle.trans hlater)
  · rw [settle_sight, settle_sight, ← ofHost_settle hnul hcons, h later (hle.trans hlater)]
  · rw [← ofHost_settle hnul hcons, h _ hle]

/-- **An event** is an event for both, or it does not show later. -/
lemma event (halone : Consistent eng alone.view) {e : Event}
    (hle : ∀ t ∈ e.time eng, at_ ≤ t) :
    Alike eng hostname ((e.time eng).getD at_) (s.event eng e)
      (alone.after eng ((e.own eng hostname).toList.map (Event.observe sortedSchedule))) := by
  cases e with
  | tick orders now => exact h.advance hcons (hle now rfl) orders
  | observe orders o =>
      cases he : eng.evidence o with
      | none =>
          have hown : (Event.observe orders o).own eng hostname = none := by
            simp [Event.own, he]
          have htime : (Event.observe orders o).time eng = none := by
            simp [Event.time, he]
          rw [hown, htime, Snapshot.event, observeLocked_of_none he]
          exact h
      | some evidence =>
          have htime : (Event.observe orders o).time eng = some evidence.at_ := by
            simp [Event.time, he]
          rw [htime] at hle ⊢
          by_cases hsame : evidence.hostname = hostname
          · have hown : (Event.observe orders o).own eng hostname = some o := by
              simp [Event.own, he, hsame]
            rw [hown]
            exact observe_own hnul h hcons halone he hsame (hle _ rfl) orders sortedSchedule
          · have hown : (Event.observe orders o).own eng hostname = none := by
              simp [Event.own, he, hsame]
            rw [hown]
            exact observe_other hnul h hcons he hsame (hle _ rfl) orders

/-- **A run in the order of time** is the run of the host's own evidence, until whatever comes
next. -/
lemma after (halone : Consistent eng alone.view) {events : List Event} {rest : List Time}
    (htimes : (events.filterMap (Event.time eng) ++ rest).Pairwise (· ≤ ·))
    (hle : ∀ t ∈ events.filterMap (Event.time eng) ++ rest, at_ ≤ t) :
    ∃ later, (∀ t ∈ rest, later ≤ t) ∧ Alike eng hostname later (s.after eng events)
      (alone.after eng ((events.filterMap (Event.own eng hostname)).map
        (Event.observe sortedSchedule))) := by
  induction events generalizing s alone at_ with
  | nil => exact ⟨at_, hle, h⟩
  | cons e events ih =>
      have hbound : ∀ t ∈ e.time eng, at_ ≤ t := by
        intro t ht
        refine hle t (List.mem_append_left _ (List.mem_filterMap.mpr ⟨e, List.mem_cons_self, ht⟩))
      have hstep := event hnul h hcons halone hbound
      have hafter := (view_event hcons e).2
      have hrun := ih hstep hafter (view_after halone _).2 ?_ ?_
      · rw [List.filterMap_cons]
        cases hown : e.own eng hostname with
        | none =>
            rw [hown] at hrun
            exact hrun
        | some o =>
            rw [hown, ← after_append, ← List.map_append] at hrun
            exact hrun
      · rw [List.filterMap_cons] at htimes
        cases htime : e.time eng with
        | none =>
            rw [htime] at htimes
            exact htimes
        | some t =>
            rw [htime] at htimes
            exact (List.pairwise_cons.mp htimes).2
      · rw [List.filterMap_cons] at htimes hle
        cases htime : e.time eng with
        | none =>
            rw [htime] at hle
            exact hle
        | some t =>
            rw [htime] at htimes
            exact (List.pairwise_cons.mp htimes).1

end Alike

/-! ## What is said of a host -/

lemma filterMap_time_observeEvents (eng : Engine) (orders : ℕ → Schedule) (os : List Observation) :
    (observeEvents orders os).filterMap (Event.time eng) = eng.evidenceTimes os := by
  induction os generalizing orders with
  | nil => rfl
  | cons o os ih =>
      rw [observeEvents, List.filterMap_cons, ih, evidenceTimes_cons]
      cases he : eng.evidence o with
      | none => simp [Event.time, he]
      | some evidence => simp [Event.time, he]

/-- The times of a run are those of its events. -/
lemma filterMap_time_events (eng : Engine) (ops : List Operation) :
    (ops.flatMap Operation.events).filterMap (Event.time eng)
      = ops.flatMap (Operation.times eng) := by
  induction ops with
  | nil => rfl
  | cons op ops ih =>
      rw [List.flatMap_cons, List.filterMap_append, ih, List.flatMap_cons]
      congr 1
      cases op with
      | observe orders message notifyEligible outcome =>
          exact filterMap_time_observeEvents eng (fun _ => orders) [⟨message, notifyEligible, ""⟩]
      | apply orders os cursors checkpointAt outcome =>
          exact filterMap_time_observeEvents eng orders os
      | tick | rebuild | markNotificationSent | markNotificationFailed | setCursors => rfl

section

variable {eng : Engine} {hostname : String} {v v' : View}

/-- The history of a host is in what is said of it. -/
lemma history_of_ofHost_eq (h : v.ofHost eng hostname = v'.ofHost eng hostname) {id : String}
    {a : Activation} (ha : a.hostname = hostname) (hid : v.history id = some a) :
    v'.history id = some a := by
  rw [history_eq_some] at hid ⊢
  obtain ⟨i, hi, hactivated, hhost, hrest⟩ := hid
  have hown : (v.ofHost eng hostname).incidents id = some i :=
    incidents_ofHost.mpr ⟨hi, hhost.trans ha⟩
  rw [h] at hown
  exact ⟨i, (incidents_ofHost.mp hown).1, hactivated, hhost, hrest⟩

/-- **A notice about a host** is called for by the history of the host. -/
lemma Expected.of_ofHost_eq (h : v.ofHost eng hostname = v'.ofHost eng hostname) {n : Notice}
    (hn : ∀ a, v.history n.incidentID = some a → a.hostname = hostname)
    (hexpected : Expected eng.interface v.history n) : Expected eng.interface v'.history n := by
  have hkept : ∀ {id a}, v.history id = some a → a.hostname = hostname → v'.history id = some a :=
    fun hid ha => history_of_ofHost_eq h ha hid
  cases hexpected with
  | opened hp hnotify hinterface => exact .opened (hkept hp (hn _ hp)) hnotify hinterface
  | resolved hp hnotify hinterface hr => exact .resolved (hkept hp (hn _ hp)) hnotify hinterface hr
  | fallbackOpened hf hnotify hinterface hnone =>
      refine .fallbackOpened (hkept hf (hn _ hf)) hnotify hinterface fun pid p hp hof => ?_
      exact hnone pid p (history_of_ofHost_eq h.symm (hof.1.trans (hn _ hf)) hp) hof
  | fallbackResolved hf hnotify hinterface hr =>
      exact .fallbackResolved (hkept hf (hn _ hf)) hnotify hinterface hr
  | escalated hf hnotify hinterface hp hof hfdown hpdown =>
      exact .escalated (hkept hf (hn _ hf)) hnotify hinterface
        (hkept hp (hof.1.trans (hn _ hf))) hof hfdown hpdown

/-- An activation under the ID of a host's incident is the host's. -/
lemma Consistent.history_hostname (h : Consistent eng v) {id : String} {a : Activation}
    (habout : AboutHost eng hostname id) (hid : v.history id = some a) : a.hostname = hostname := by
  obtain ⟨i, hi, -, hhost, -⟩ := history_eq_some.mp hid
  obtain ⟨messageID, hown⟩ := (h.wellFormed hi).origin
  obtain ⟨interface', started', messageID', hother⟩ := habout
  rw [← hhost]
  exact (h.injective (hown.symm.trans hother)).1

/-- In step with time, jobs about a host come from what is said of it. -/
lemma Timely.job_of_ofHost_eq {at_ at_' : Time} {s s' : Snapshot} (h : Timely eng at_ s)
    (h' : Timely eng at_' s') (hsame : s.view.ofHost eng hostname = s'.view.ofHost eng hostname)
    {key : String} {fact : JobFact} (habout : AboutHost eng hostname fact.incidentID)
    (hjob : ∃ job, s.jobs.lookup key = some job ∧ job.fact = fact) :
    ∃ job, s'.jobs.lookup key = some job ∧ job.fact = fact := by
  obtain ⟨n, hn, hid, hfact⟩ := (h.outbox key fact).mp hjob
  refine (h'.outbox key fact).mpr ⟨n, hn.of_ofHost_eq hsame fun a ha => ?_, hid, hfact⟩
  have hincident : n.incidentID = fact.incidentID := congrArg JobFact.incidentID hfact
  rw [← hincident] at habout
  exact h.consistent.history_hostname habout ha

end

/-- **The evidence of a host decides what is said of it.**  After two runs of calls of `Observe`,
`Apply` and `Tick` in the order of time, and a tick at one time after both, the engine says the same
of a host that has sent the same evidence, whatever other hosts have sent, however it has been
handed over and however many ticks there have been. -/
theorem own_evidence_decides {eng : Engine} (hids : eng.ids.Injective)
    (hnul : '\x00' ∉ eng.interface.toList) (hostname : String) {ops ops' : List Operation}
    {now : Time} (hlive : ∀ op ∈ ops, op.live) (hlive' : ∀ op ∈ ops', op.live)
    (htimes : (ops.flatMap (Operation.times eng) ++ [now]).Pairwise (· ≤ ·))
    (htimes' : (ops'.flatMap (Operation.times eng) ++ [now]).Pairwise (· ≤ ·))
    (hsame : (ops.flatMap Operation.events).filterMap (Event.own eng hostname)
      = (ops'.flatMap Operation.events).filterMap (Event.own eng hostname))
    (orders orders' : Schedule) :
    let s := (advance eng.interface orders now (Service.run eng {} ops).state).1
    let s' := (advance eng.interface orders' now (Service.run eng {} ops').state).1
    s.view.ofHost eng hostname = s'.view.ofHost eng hostname ∧
      ∀ key fact, AboutHost eng hostname fact.incidentID →
        ((∃ job, s.jobs.lookup key = some job ∧ job.fact = fact) ↔
          ∃ job, s'.jobs.lookup key = some job ∧ job.fact = fact) := by
  have hempty : Consistent eng ({} : Snapshot).view := .empty hids
  -- either is as told of the host's own evidence alone
  have hrun : ∀ {ops : List Operation}, (∀ op ∈ ops, op.live) →
      (ops.flatMap (Operation.times eng) ++ [now]).Pairwise (· ≤ ·) → ∀ orders,
      (∃ at_, Timely eng at_ (advance eng.interface orders now (Service.run eng {} ops).state).1) ∧
      (advance eng.interface orders now (Service.run eng {} ops).state).1.view.ofHost eng hostname
        = (({} : Snapshot).after eng (((ops.flatMap Operation.events).filterMap
          (Event.own eng hostname)).map (Event.observe sortedSchedule))).view.settle now := by
    intro ops hlive htimes orders
    obtain ⟨at_, hle⟩ := exists_before (ops.flatMap (Operation.times eng) ++ [now])
    have hnew : Timely eng at_ (({} : Service).state) := .of_empty hids at_ rfl rfl
    have hview : (Service.run eng {} ops).state.view
        = (({} : Snapshot).after eng (ops.flatMap Operation.events)).view := by
      have houtages := congrArg Snapshot.view (outages_run eng hlive {})
      exact houtages
    have hcons : Consistent eng (Service.run eng {} ops).state.view := by
      rw [hview]
      exact (view_after hempty _).2
    refine ⟨?_, ?_⟩
    · have hticked := hnew.run (ops ++ [.tick orders now none])
        (List.forall_mem_append.mpr ⟨hlive, by simp [Operation.live]⟩)
        (by rw [List.flatMap_append]; exact htimes) (by rw [List.flatMap_append]; exact hle)
      rwa [Service.run, List.foldl_append, List.foldl_cons, List.foldl_nil, Service.call,
        Service.tick_state] at hticked
    · have halike : Alike eng hostname at_ {} {} := by
        intro t _
        ext1
        · funext key
          exact ite_self none
        · rfl
      rw [← filterMap_time_events] at htimes hle
      obtain ⟨bound, hbound, hafter⟩ := halike.after hnul hempty hempty htimes hle
      rw [advance_view hcons, hview]
      exact hafter now (hbound now List.mem_cons_self)
  obtain ⟨⟨_, htimely⟩, hview⟩ := hrun hlive htimes orders
  obtain ⟨⟨_, htimely'⟩, hview'⟩ := hrun hlive' htimes' orders'
  rw [hsame] at hview
  have hpart := hview.trans hview'.symm
  exact ⟨hpart, fun key fact habout => ⟨htimely.job_of_ofHost_eq htimely' hpart habout,
    htimely'.job_of_ofHost_eq htimely hpart.symm habout⟩⟩

/-- `wan` of `gw` goes down, and then there may be some more calls. -/
def wanDownThen (orders : Schedule) (ops : List Operation) : List Operation :=
  .apply (fun _ => orders) [wanDown] ∅ 1000000000 none :: ops

/-- A tick and the evidence of `ap`, or neither. -/
theorem own_evidence_decides_wanDownThen :
    (advance "wan" forwards 200000000000 (Service.run sampleEngine {} (wanDownThen forwards
        [.tick backwards 70000000000 none, .observe forwards apUpLater.message true none])).state
          ).1.view.ofHost sampleEngine "gw"
      = (advance "wan" backwards 200000000000 (Service.run sampleEngine {}
          (wanDownThen backwards [])).state).1.view.ofHost sampleEngine "gw" := by
  have htimes : (wanDownThen forwards [.tick backwards 70000000000 none,
      .observe forwards apUpLater.message true none]).flatMap (Operation.times sampleEngine)
        = [1000000000, 70000000000, 100000000000] := rfl
  have htimes' : (wanDownThen backwards []).flatMap (Operation.times sampleEngine) = [1000000000] :=
    rfl
  have hsame : ((wanDownThen forwards [.tick backwards 70000000000 none,
      .observe forwards apUpLater.message true none]).flatMap Operation.events).filterMap
        (Event.own sampleEngine "gw")
      = ((wanDownThen backwards []).flatMap Operation.events).filterMap
        (Event.own sampleEngine "gw") := rfl
  exact (@own_evidence_decides sampleEngine sampleIDs_injective (by decide) "gw" _ _ 200000000000
    (by simp [wanDownThen, Operation.live]) (by simp [wanDownThen, Operation.live])
    (by rw [htimes]; decide) (by rw [htimes']; decide) hsame forwards backwards).1

end Logthing
