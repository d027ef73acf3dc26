import Logthing.Incidents.Hosts
import Logthing.Incidents.Outbox

/-!
# Following the evidence from behind

An engine that is told evidence late has let timers run meanwhile.  `RunUntil` compares what it says of
one host with an engine that was told the same evidence and in which nothing but evidence lets
timers run out: the two are one, once the timers of the second have run until some time.  For
different hosts that may be different times, as long as none is beyond evidence of the host that is
still to come (`Follows`).

**Main results.**  `Follows.observeAll` and `Follows.advance`: an engine follows as long as no tick
lets a timer run out that evidence of its host comes before; and then it does not matter when it
has been told what (`eq_of_runUntil`).
-/

namespace Logthing

/-! ## Settling in two steps -/

section

variable {eng : Engine} {s : Snapshot} {v : View} {evidence : Evidence} {now later : Time}

/-- Where no timer runs out between two times, settling at one is settling at the other. -/
lemma settle_eq_settle (h : Consistent eng s.view) (hle : later ≤ now)
    (hbetween : ∀ ⦃key current⦄, s.view.trackers key = some current → current.pending = true →
      current.deadline eng ≤ now → current.deadline eng ≤ later) :
    s.view.settle now = s.view.settle later := by
  rw [← settle_settle h hle]
  refine (h.settle later).settle_eq_self (View.Quiet.idle (h.settle later) ?_)
  intro key current hc hpending
  have hquiet := View.Quiet.of_settle h later hc hpending
  obtain ⟨before, hbefore, hsettled⟩ := Option.map_eq_some_iff.mp hc
  have hsame : before = current := by
    rw [← hsettled, View.settledTracker] at hpending ⊢
    cases hi : s.view.incidents before.incidentID with
    | none => rfl
    | some incident =>
        rw [hi] at hpending
        simp only at hpending ⊢
        split_ifs at hpending ⊢
        · rw [before.fired_pending] at hpending
          exact absurd hpending Bool.false_ne_true
        · rfl
  rw [hsame] at hbefore
  by_contra hnot
  exact absurd (hbetween hbefore hpending (not_lt.mp hnot)) (not_le.mpr hquiet)

lemma Tracker.sighted_eq {current : Tracker} (h : current.phase ≠ .unset) :
    current.sighted evidence = { current with lastEvidenceAt := evidence.at_ } := by
  rw [Tracker.sighted, if_neg h]

lemma Tracker.phase_ne_unset_of_pending {current : Tracker} (h : current.pending = true) :
    current.phase ≠ .unset := by
  intro hunset
  rw [Tracker.pending, hunset] at h
  exact absurd h (by decide)

/-- A sighting is due when the tracker was. -/
lemma Tracker.dueBy_sighted {current : Tracker} {incident : Incident} :
    (current.sighted evidence).dueBy now incident ↔ current.dueBy now incident := by
  by_cases hunset : current.phase = .unset
  · constructor
    · rintro ⟨hpending, -⟩
      simp [Tracker.sighted, hunset, Tracker.pending] at hpending
    · rintro ⟨hpending, -⟩
      exact absurd hunset (Tracker.phase_ne_unset_of_pending hpending)
  · rw [Tracker.sighted_eq hunset]
    rfl

/-- **A sighting** does not matter to timers. -/
lemma settle_sight : (v.sight evidence).settle now = (v.settle now).sight evidence := by
  ext1
  · funext key
    by_cases hkey : key = evidence.key
    swap
    · simp only [View.settle, View.sight, View.set, Function.update_of_ne hkey]
      cases v.trackers key with
      | none => rfl
      | some current =>
          simp only [Option.map_some, View.settledTracker, Function.update_eq_self]
    subst hkey
    have hafter : ((v.settle now).sight evidence).trackers evidence.key
        = some (((v.settle now).current evidence.key).sighted evidence) := Function.update_self _ _ _
    have hbefore : ((v.sight evidence).settle now).trackers evidence.key
        = some ((v.sight evidence).settledTracker now ((v.current evidence.key).sighted evidence)) := by
      simp only [View.settle, View.sight, View.set, Function.update_self, Option.map_some]
    have hid : ((v.current evidence.key).sighted evidence).incidentID
        = (v.current evidence.key).incidentID := by
      simp only [Tracker.sighted]
      split_ifs <;> rfl
    rw [hafter, hbefore, View.settledTracker, hid, incidents_sight, Option.some.injEq]
    rcases current_settle v now evidence.key with ⟨hsame, hidle⟩ | ⟨i, -, hi, hdue, hfired⟩
    · rw [hsame]
      cases hi : v.incidents (v.current evidence.key).incidentID with
      | none => rfl
      | some i => exact if_neg fun hdue => hidle i hi (Tracker.dueBy_sighted.mp hdue)
    · have hset := Tracker.phase_ne_unset_of_pending hdue.1
      rw [hfired, hi]
      simp only [Tracker.dueBy_sighted, if_pos hdue]
      rw [Tracker.sighted_eq hset, Tracker.fired, Tracker.fired]
      split_ifs
      · rfl
      · rfl
  · funext id
    rw [incidents_sight]
    simp only [View.settle, incidents_sight]
    cases v.incidents id with
    | none => rfl
    | some i =>
        simp only [Option.map_some, Option.some.injEq, View.settledIncident]
        by_cases hkey : i.key = evidence.key
        swap
        · simp only [View.sight, View.set, Function.update_of_ne hkey]
        have hsight : (v.sight evidence).trackers evidence.key
            = some ((v.current evidence.key).sighted evidence) := Function.update_self _ _ _
        rw [hkey, hsight]
        simp only
        by_cases hpending : (v.current evidence.key).pending = true
        · have hset := Tracker.phase_ne_unset_of_pending hpending
          rw [View.current_of_open (Tracker.open_of_pending hpending), Tracker.sighted_eq hset]
          rfl
        · have hidle : ∀ i, ¬ (v.current evidence.key).dueBy now i := fun _ hdue => hpending hdue.1
          rw [if_neg fun hdue => hidle i (Tracker.dueBy_sighted.mp hdue.2)]
          cases hc : v.trackers evidence.key with
          | none => rfl
          | some current =>
              simp only [View.current, hc, Option.getD_some] at hidle
              exact (if_neg fun hdue => hidle i hdue.2).symm

end

/-! ## The part of one host -/

/-- **What an engine says of a host** is what another says that was told the same, once the timers
of that one have run until a time. -/
def RunUntil (eng : Engine) (hostname : String) (until_ : Time) (told s : Snapshot) : Prop :=
  ∃ part, Shadows eng hostname s part ∧ Timely eng until_ part ∧
    part.view = (told.view.settle until_).ofHost eng hostname

namespace RunUntil

variable {eng : Engine} {hostname : String} {until_ : Time} {told s : Snapshot}

/-- Nothing has happened yet. -/
lemma empty (hids : eng.ids.Injective) (hostname : String) (until_ : Time) :
    RunUntil eng hostname until_ {} {} := by
  refine ⟨{}, .empty eng hostname, .of_empty hids until_ rfl rfl, ?_⟩
  ext1
  · funext key
    exact (ite_self none).symm
  · rfl

/-- The delivery of jobs does not matter. -/
lemma of_facts (h : RunUntil eng hostname until_ told s) {s' : Snapshot} (hview : s'.view = s.view)
    (hfacts : ∀ id, (s'.jobs.lookup id).map NotificationJob.fact
      = (s.jobs.lookup id).map NotificationJob.fact) : RunUntil eng hostname until_ told s' := by
  obtain ⟨part, hshadows, htimely, hpart⟩ := h
  refine ⟨part, ⟨?_, ?_⟩, htimely, hpart⟩
  · rw [hview]
    exact hshadows.view
  have hsame : ∀ key fact, (∃ job, s'.jobs.lookup key = some job ∧ job.fact = fact) ↔
      ∃ job, s.jobs.lookup key = some job ∧ job.fact = fact := fun key fact => by
    simpa only [Option.map_eq_some_iff] using (congrArg (· = some fact) (hfacts key)).to_iff
  refine ⟨fun key job hjob => ?_, fun key fact => ?_⟩
  · obtain ⟨before, hbefore, hfact⟩ := (hsame key job.fact).mp ⟨job, hjob, rfl⟩
    obtain ⟨n, habout, hid, hn⟩ := hshadows.jobs.filed hbefore
    exact ⟨n, habout, hid, hn.trans hfact⟩
  · rw [hshadows.jobs.part, hsame]

variable (hnul : '\x00' ∉ eng.interface.toList) (hs : Consistent eng s.view)
  (htold : Consistent eng told.view) (h : RunUntil eng hostname until_ told s)

/-- The two agree on what is late for a tracker. -/
lemma lastEvidenceAt_eq (h : RunUntil eng hostname until_ told s) {key : String}
    (hkey : HostKey eng hostname key) :
    (s.view.current key).lastEvidenceAt = (told.view.current key).lastEvidenceAt := by
  obtain ⟨part, hshadows, -, hpart⟩ := h
  rw [← current_ofHost hkey, ← hshadows.view, hpart, current_ofHost hkey, lastEvidenceAt_settle]

include hnul hs htold h

/-- **The passage of time**: timers run out until a time that they do not outrun. -/
lemma advance (orders : Schedule) {now later : Time} (hle : until_ ≤ later) (hnow : later ≤ now)
    (hbetween : ∀ ⦃key current⦄, s.view.trackers key = some current → HostKey eng hostname key →
      current.pending = true → current.deadline eng ≤ now → current.deadline eng ≤ later) :
    RunUntil eng hostname later told (advance eng.interface orders now s).1 := by
  obtain ⟨part, hshadows, htimely, hpart⟩ := h
  obtain ⟨orders', hafter⟩ := hshadows.advance hnul hs orders now
  have hfire : ∀ ⦃key current⦄, part.view.trackers key = some current → current.pending = true →
      current.deadline eng ≤ now → current.deadline eng ≤ later := by
    intro key current hc hpending hdue
    rw [hshadows.view] at hc
    obtain ⟨hc, hkey⟩ := trackers_ofHost.mp hc
    exact hbetween hc hkey hpending hdue
  refine ⟨_, hafter, htimely.advance orders' hle hnow hfire, ?_⟩
  rw [advance_view htimely.consistent, settle_eq_settle htimely.consistent hnow hfire, hpart,
    ← ofHost_settle hnul (htold.settle until_), settle_settle htold hle]

/-- **Evidence of another host** lets timers run out at most. -/
lemma observe_other {o : Observation} {evidence : Evidence} (he : eng.evidence o = some evidence)
    (hother : evidence.hostname ≠ hostname)
    (hstale : evidence.Counts (s.view.current evidence.key) ↔
      evidence.Counts (told.view.current evidence.key)) (orders orders' : Schedule) :
    ∃ later, (later = until_ ∨ later ≤ evidence.at_) ∧ RunUntil eng hostname later
      (observeLocked eng orders' o.message o.notifyEligible o.sourceRef told)
      (observeLocked eng orders o.message o.notifyEligible o.sourceRef s) := by
  obtain ⟨part, hshadows, htimely, hpart⟩ := h
  obtain ⟨after, hafter, hstep⟩ := hshadows.observe_other hnul hs he hother orders
  have htake := ofHost_take_other hnul htold he hother
  rw [← view_observeLocked htold orders'] at htake
  by_cases hcounts : evidence.Counts (s.view.current evidence.key)
  swap
  · rw [if_neg hcounts] at hstep
    rw [if_neg fun hcounts' => hcounts (hstale.mpr hcounts')] at htake
    refine ⟨until_, Or.inl rfl, after, hafter, ?_, ?_⟩
    · rw [hstep]
      exact htimely
    · rw [hstep, hpart, ofHost_settle hnul (htold.observeLocked orders' o), htake,
        ofHost_settle hnul htold]
  rw [if_pos hcounts] at hstep
  rw [if_pos (hstale.mp hcounts)] at htake
  obtain ⟨orders'', rfl⟩ := hstep
  have hwhole : ∀ later,
      ((observeLocked eng orders' o.message o.notifyEligible o.sourceRef told).view.settle later).ofHost
        eng hostname = ((told.view.ofHost eng hostname).settle evidence.at_).settle later := by
    intro later
    rw [ofHost_settle hnul (htold.observeLocked orders' o), htake]
  rcases le_total until_ evidence.at_ with hle | hle
  · refine ⟨evidence.at_, Or.inr le_rfl, _, hafter,
      htimely.advance orders'' hle le_rfl fun _ _ _ _ hdue => hdue, ?_⟩
    rw [hwhole, advance_view htimely.consistent, hpart, ← ofHost_settle hnul (htold.settle until_),
      settle_settle htold hle, ← ofHost_settle hnul htold, ← ofHost_settle hnul (htold.settle _),
      settle_settle htold le_rfl]
  · -- its timers have run further than that
    have hidle : part.view.Idle evidence.at_ :=
      View.Quiet.idle htimely.consistent (View.Quiet.mono htimely.rest.timers hle)
    rw [advance_of_idle htimely.consistent orders'' hidle] at hafter
    refine ⟨until_, Or.inl rfl, part, hafter, htimely, ?_⟩
    rw [hwhole, ← ofHost_settle hnul htold, ← ofHost_settle hnul (htold.settle _),
      settle_settle htold hle, hpart]

/-- **Its own evidence** counts at its time, which its timers have not outrun. -/
lemma observe_own {o : Observation} {evidence : Evidence} (he : eng.evidence o = some evidence)
    (hown : evidence.hostname = hostname)
    (hle : evidence.observeOnly = false → until_ ≤ evidence.at_) (orders orders' : Schedule) :
    ∃ later, (later = until_ ∨ later ≤ evidence.at_) ∧ RunUntil eng hostname later
      (observeLocked eng orders' o.message o.notifyEligible o.sourceRef told)
      (observeLocked eng orders o.message o.notifyEligible o.sourceRef s) := by
  subst hown
  obtain ⟨-, -, hiface⟩ := evidence_eq_some he
  have hkey : HostKey eng evidence.hostname evidence.key := Evidence.hostKey hiface
  have hlast := h.lastEvidenceAt_eq hkey
  obtain ⟨part, hshadows, htimely, hpart⟩ := h
  obtain ⟨orders'', hafter⟩ := hshadows.observe_own hnul hs he rfl orders
  have hcurrent : part.view.current evidence.key = s.view.current evidence.key := by
    rw [hshadows.view, current_ofHost hkey]
  have hstale : evidence.Stale (told.view.current evidence.key) ↔
      evidence.Stale (s.view.current evidence.key) := by
    rw [Evidence.Stale, Evidence.Stale, hlast]
  have htaken := ofHost_take_own hnul htold he
  rw [← view_observeLocked htold orders'] at htaken
  by_cases hlate : evidence.Stale (s.view.current evidence.key)
  · -- it comes too late for both
    have hskip : ∀ {t : Snapshot} {orders : Schedule},
        evidence.Stale (t.view.current evidence.key) →
        observeLocked eng orders o.message o.notifyEligible o.sourceRef t = t := by
      intro t orders hlate
      rw [observeLocked_of_some he, if_pos hlate]
    rw [hskip hlate, hskip (hstale.mpr hlate)]
    exact ⟨until_, Or.inl rfl, part, hshadows, htimely, hpart⟩
  rw [View.take, he] at htaken
  simp only [View.observe, current_ofHost hkey, hstale, if_neg hlate] at htaken
  cases honly : evidence.observeOnly with
  | true =>
      have hseen : observeLocked eng orders'' o.message o.notifyEligible o.sourceRef part
          = part.sight evidence := by
        rw [observeLocked_of_some he, hcurrent, if_neg hlate, if_pos honly]
      rw [hseen] at hafter
      rw [if_pos honly] at htaken
      refine ⟨until_, Or.inl rfl, _, hafter, ?_, ?_⟩
      · refine htimely.of_history ?_ ?_ rfl ?_
        · rw [view_sight]
          exact htimely.consistent.sight hiface
        · rw [view_sight]
          exact htimely.rest.sight evidence
        · rw [view_sight, history_sight]
      · rw [view_sight, hpart, ofHost_settle hnul htold, ← settle_sight, ← htaken,
          ofHost_settle hnul (htold.observeLocked orders' o)]
  | false =>
      have hpositive : ¬ evidence.observeOnly = true := by simp [honly]
      rw [if_neg hpositive] at htaken
      obtain ⟨later, -, hlater, hkept⟩ := htimely.observeLocked orders'' he (hle honly)
      refine ⟨later, Or.inr hlater, _, hafter, hkept, ?_⟩
      have hsettled := @ofHost_settle eng evidence.hostname _ hnul htold evidence.at_
      have hpartTaken : (observeLocked eng orders'' o.message o.notifyEligible o.sourceRef part).view
          = ((told.view.ofHost eng evidence.hostname).settle evidence.at_).react eng evidence
            o.notifyEligible := by
        rw [view_observeLocked htimely.consistent, View.take, he]
        simp only
        rw [View.observe, hcurrent, if_neg hlate, if_neg hpositive, hpart,
          ← ofHost_settle hnul (htold.settle until_), settle_settle htold (hle honly), hsettled]
      have hself := hkept.consistent.settle_eq_self
        (View.Quiet.idle hkept.consistent hkept.rest.timers)
      rw [hpartTaken] at hself
      rw [hpartTaken, ofHost_settle hnul (htold.observeLocked orders' o), htaken]
      exact hself.symm

end RunUntil

/-- **It does not matter when an engine is told**: what two say of every host is what a third says,
once its timers have run until one time, so the two say the same. -/
theorem eq_of_runUntil {eng : Engine} {now : Time} {told s s' : Snapshot} (hs : Consistent eng s.view)
    (hs' : Consistent eng s'.view) (h : ∀ hostname, RunUntil eng hostname now told s)
    (h' : ∀ hostname, RunUntil eng hostname now told s') :
    s.view = s'.view ∧ ∀ key fact, (∃ job, s.jobs.lookup key = some job ∧ job.fact = fact) ↔
      ∃ job, s'.jobs.lookup key = some job ∧ job.fact = fact := by
  have hpart : ∀ hostname, s.view.ofHost eng hostname = s'.view.ofHost eng hostname := by
    intro hostname
    obtain ⟨part, hshadows, -, hpart⟩ := h hostname
    obtain ⟨part', hshadows', -, hpart'⟩ := h' hostname
    rw [← hshadows.view, ← hshadows'.view, hpart, hpart']
  have htrackers : ∀ {s s' : Snapshot}, Consistent eng s.view →
      (∀ hostname, s.view.ofHost eng hostname = s'.view.ofHost eng hostname) →
      ∀ key current, s.view.trackers key = some current → s'.view.trackers key = some current := by
    intro s s' hs hpart key current hc
    obtain ⟨hostname, interface, hmem, rfl⟩ := hs.keyed hc
    have hkey : HostKey eng hostname (trackerKey hostname interface) := ⟨interface, hmem, rfl⟩
    rw [← trackers_ofHost_of_key hkey] at hc ⊢
    rwa [← hpart]
  have hincidents : ∀ {s s' : Snapshot},
      (∀ hostname, s.view.ofHost eng hostname = s'.view.ofHost eng hostname) →
      ∀ id i, s.view.incidents id = some i → s'.view.incidents id = some i := by
    intro s s' hpart id i hi
    have hown : (s.view.ofHost eng i.hostname).incidents id = some i :=
      incidents_ofHost.mpr ⟨hi, rfl⟩
    rw [hpart] at hown
    exact (incidents_ofHost.mp hown).1
  have hjobs : ∀ {s s' : Snapshot}, (∀ hostname, RunUntil eng hostname now told s) →
      (∀ hostname, RunUntil eng hostname now told s') → ∀ key fact,
      (∃ job, s.jobs.lookup key = some job ∧ job.fact = fact) →
      ∃ job, s'.jobs.lookup key = some job ∧ job.fact = fact := by
    rintro s s' h h' key fact ⟨job, hjob, rfl⟩
    -- the job is filed under its host
    obtain ⟨_, hshadows₀, -⟩ := h ""
    obtain ⟨n, ⟨hostname, habout⟩, hid, hfact⟩ := hshadows₀.jobs.filed hjob
    obtain ⟨part, hshadows, htimely, hpart⟩ := h hostname
    obtain ⟨part', hshadows', htimely', hpart'⟩ := h' hostname
    have hincident : n.incidentID = job.fact.incidentID := congrArg JobFact.incidentID hfact
    rw [hincident] at habout
    have hmine := (htimely.outbox key job.fact).mp
      ((hshadows.jobs.part key job.fact).mpr ⟨⟨job, hjob, rfl⟩, habout⟩)
    rw [hpart, ← hpart'] at hmine
    exact ((hshadows'.jobs.part key job.fact).mp ((htimely'.outbox key job.fact).mpr hmine)).1
  refine ⟨?_, fun key fact => ⟨hjobs h h' key fact, hjobs h' h key fact⟩⟩
  ext1
  · funext key
    exact Option.ext fun current =>
      ⟨htrackers hs hpart key current, htrackers hs' (fun host => (hpart host).symm) key current⟩
  · funext id
    exact Option.ext fun i =>
      ⟨hincidents hpart id i, hincidents (fun host => (hpart host).symm) id i⟩

/-! ## All hosts -/

/-- The message says of an interface of the host that it went down or came up. -/
def Message.moves (eng : Engine) (hostname : String) (message : Message) : Bool :=
  (classify message eng.interface).any fun e => e.hostname = hostname && !e.observeOnly

lemma moves_of_evidence {eng : Engine} {o : Observation} {evidence : Evidence}
    (he : eng.evidence o = some evidence) (hcounts : evidence.observeOnly = false) :
    o.message.moves eng evidence.hostname = true := by
  obtain ⟨e, hclassified, rfl⟩ := Option.map_eq_some_iff.mp he
  have honly : e.observeOnly = false := hcounts
  simp [Message.moves, hclassified, honly]

/-- **An engine that follows**: for no host have timers run beyond the evidence of the host that is
among `rest`, which is still to come. -/
structure Follows (eng : Engine) (clock : Time) (rest : List Message) (told s : Snapshot) :
    Prop where
  consistent : Consistent eng s.view
  whole : Consistent eng told.view
  hosts : ∀ hostname, ∃ until_ ≤ clock,
    (∀ m ∈ rest, m.moves eng hostname = true → until_ ≤ m.receivedAt) ∧
      RunUntil eng hostname until_ told s

/-- Some time until which timers may run: not beyond any of some times, and no less than what is
beyond none of them. -/
lemma exists_until {until_ now : Time} (hle : until_ ≤ now) (times : List Time)
    (hall : ∀ t ∈ times, until_ ≤ t) :
    ∃ later, until_ ≤ later ∧ later ≤ now ∧ (∀ t ∈ times, later ≤ t) ∧
      ∀ d ≤ now, (∀ t ∈ times, d ≤ t) → d ≤ later := by
  induction times with
  | nil => exact ⟨now, hle, le_rfl, by simp, fun d hd _ => hd⟩
  | cons t times ih =>
      rw [List.forall_mem_cons] at hall
      obtain ⟨later, hlater, hnow, hbefore, hmost⟩ := ih hall.2
      refine ⟨min later t, le_min hlater hall.1, (min_le_left _ _).trans hnow, ?_, ?_⟩
      · exact List.forall_mem_cons.mpr
          ⟨min_le_right _ _, fun t' ht' => (min_le_left _ _).trans (hbefore t' ht')⟩
      · intro d hd hdt
        rw [List.forall_mem_cons] at hdt
        exact le_min (hmost d hd hdt.2) hdt.1

namespace Follows

variable {eng : Engine} {clock : Time} {rest : List Message} {told s : Snapshot}

/-- Nothing has happened yet, and nothing is to come before some time. -/
lemma empty (hids : eng.ids.Injective) (clock : Time) : Follows eng clock [] {} {} where
  consistent := .empty hids
  whole := .empty hids
  hosts hostname := ⟨clock, le_rfl, fun _ hm => absurd hm List.not_mem_nil,
    .empty hids hostname clock⟩

lemma mono (h : Follows eng clock rest told s) {later : Time} (hle : clock ≤ later)
    {rest' : List Message} (hsub : ∀ m ∈ rest', m ∈ rest ∨ clock ≤ m.receivedAt) :
    Follows eng later rest' told s where
  consistent := h.consistent
  whole := h.whole
  hosts hostname := by
    obtain ⟨until_, huntil, hrest, hrun⟩ := h.hosts hostname
    refine ⟨until_, huntil.trans hle, fun m hm hmoves => ?_, hrun⟩
    rcases hsub m hm with hm | hm
    · exact hrest m hm hmoves
    · exact huntil.trans hm

/-- The delivery of jobs does not matter. -/
lemma of_facts (h : Follows eng clock rest told s) {s' : Snapshot} (hview : s'.view = s.view)
    (hfacts : ∀ id, (s'.jobs.lookup id).map NotificationJob.fact
      = (s.jobs.lookup id).map NotificationJob.fact) : Follows eng clock rest told s' where
  consistent := by
    rw [hview]
    exact h.consistent
  whole := h.whole
  hosts hostname := by
    obtain ⟨until_, huntil, hrest, hrun⟩ := h.hosts hostname
    exact ⟨until_, huntil, hrest, hrun.of_facts hview hfacts⟩

variable (hnul : '\x00' ∉ eng.interface.toList)

include hnul

/-- **The passage of time**, if no timer runs out that evidence of its host comes before. -/
lemma advance (h : Follows eng clock rest told s) (orders : Schedule) {now : Time}
    (hclock : clock ≤ now)
    (hpatient : ∀ ⦃hostname key current⦄, s.view.trackers key = some current →
      HostKey eng hostname key → current.pending = true → current.deadline eng ≤ now →
      ∀ m ∈ rest, m.moves eng hostname = true → current.deadline eng ≤ m.receivedAt) :
    Follows eng now rest told (Logthing.advance eng.interface orders now s).1 where
  consistent := h.consistent.advance orders
  whole := h.whole
  hosts hostname := by
    obtain ⟨until_, huntil, hrest, hrun⟩ := h.hosts hostname
    have htimes : ∀ t, t ∈ (rest.filter (Message.moves eng hostname)).map Message.receivedAt ↔
        ∃ m ∈ rest, m.moves eng hostname = true ∧ m.receivedAt = t := by
      intro t
      simp [and_assoc]
    obtain ⟨later, hlater, hnow, hbefore, hmost⟩ := exists_until (huntil.trans hclock)
      ((rest.filter (Message.moves eng hostname)).map Message.receivedAt) fun t ht => by
        obtain ⟨m, hm, hmoves, rfl⟩ := (htimes t).mp ht
        exact hrest m hm hmoves
    refine ⟨later, hnow, fun m hm hmoves => hbefore _ ((htimes _).mpr ⟨m, hm, hmoves, rfl⟩), ?_⟩
    refine hrun.advance hnul h.consistent h.whole orders hlater hnow ?_
    intro key current hc hkey hpending hdue
    refine hmost _ hdue fun t ht => ?_
    obtain ⟨m, hm, hmoves, rfl⟩ := (htimes t).mp ht
    exact hpatient hc hkey hpending hdue m hm hmoves

/-- **With nothing to come** timers may run until any time. -/
lemma advance_runUntil (h : Follows eng clock [] told s) (orders : Schedule) {now : Time}
    (hclock : clock ≤ now) (hostname : String) :
    RunUntil eng hostname now told (Logthing.advance eng.interface orders now s).1 := by
  obtain ⟨until_, huntil, -, hrun⟩ := h.hosts hostname
  exact hrun.advance hnul h.consistent h.whole orders (huntil.trans hclock) le_rfl
    fun _ _ _ _ _ hdue => hdue

/-- **An observation** that is the next one. -/
lemma observe {o : Observation} (h : Follows eng clock (o.message :: rest) told s)
    (hclock : o.message.receivedAt ≤ clock)
    (hnext : ∀ m ∈ rest, o.message.receivedAt ≤ m.receivedAt) (orders orders' : Schedule) :
    Follows eng clock rest (observeLocked eng orders' o.message o.notifyEligible o.sourceRef told)
      (observeLocked eng orders o.message o.notifyEligible o.sourceRef s) where
  consistent := h.consistent.observeLocked orders o
  whole := h.whole.observeLocked orders' o
  hosts hostname := by
    obtain ⟨until_, huntil, hrest, hrun⟩ := h.hosts hostname
    rw [List.forall_mem_cons] at hrest
    cases he : eng.evidence o with
    | none =>
        rw [observeLocked_of_none he, observeLocked_of_none he]
        exact ⟨until_, huntil, hrest.2, hrun⟩
    | some evidence =>
        obtain ⟨hat, -, hiface⟩ := evidence_eq_some he
        have hstep : ∃ later, (later = until_ ∨ later ≤ evidence.at_) ∧ RunUntil eng hostname later
            (observeLocked eng orders' o.message o.notifyEligible o.sourceRef told)
            (observeLocked eng orders o.message o.notifyEligible o.sourceRef s) := by
          by_cases hown : evidence.hostname = hostname
          · refine hrun.observe_own hnul h.consistent h.whole he hown (fun honly => ?_) _ _
            rw [hat]
            rw [← hown] at hrest
            exact hrest.1 (moves_of_evidence he honly)
          · refine hrun.observe_other hnul h.consistent h.whole he hown ?_ _ _
            obtain ⟨_, -, -, hits⟩ := h.hosts evidence.hostname
            rw [Evidence.Counts, Evidence.Counts, Evidence.Stale, Evidence.Stale,
              hits.lastEvidenceAt_eq (Evidence.hostKey hiface)]
        obtain ⟨later, hlater, hafter⟩ := hstep
        rw [← hat] at hclock hnext
        rcases hlater with rfl | hlater
        · exact ⟨later, huntil, hrest.2, hafter⟩
        · exact ⟨later, hlater.trans hclock, fun m hm _ => hlater.trans (hnext m hm), hafter⟩

/-- **Observations in the order of time**, after which nothing is left to come. -/
lemma observeAll (os : List Observation) {told s : Snapshot}
    (h : Follows eng clock (os.map Observation.message) told s)
    (hclock : ∀ o ∈ os, o.message.receivedAt ≤ clock)
    (hsorted : os.Pairwise fun o o' => o.message.receivedAt ≤ o'.message.receivedAt)
    (orders orders' : ℕ → Schedule) : Follows eng clock [] (Logthing.observeAll eng orders' os told)
      (Logthing.observeAll eng orders os s) := by
  induction os generalizing told s orders orders' with
  | nil => exact h
  | cons o os ih =>
      rw [List.forall_mem_cons] at hclock
      rw [List.pairwise_cons] at hsorted
      refine ih (h.observe hnul hclock.1 (fun m hm => ?_) _ _) hclock.2 hsorted.2 _ _
      obtain ⟨o', ho', rfl⟩ := List.mem_map.mp hm
      exact hsorted.1 o' ho'

end Follows

end Logthing
