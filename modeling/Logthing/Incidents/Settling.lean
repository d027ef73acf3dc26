import Logthing.Core.Worklist
import Logthing.Incidents.OutboxRuns

/-!
# `advanceLocked` terminates and settles

The loop of `advanceLocked` has no bound of its own.  Here it is a loop over a worklist: the
trackers whose timer is running.  Every turn stops one timer and starts none, whatever the snapshot,
so the loop ends; and what it ends in is at rest.

A turn is about the tracker that comes first.  As long as a tracker's incident is stored under its
own ID, a turn does not move the due time of another tracker, so the transitions are made in order.

Where the order of the loops could show is the outbox.  It does not show in a snapshot that a run in
the order of time reaches: the trackers and incidents settle to the same view, and the jobs are
those the history calls for.

**Main results.**  `advance_settles`: termination, rest and order for every snapshot, and one result
for all orders of the loops on the snapshots of runs in which time does not go backwards.
-/

namespace Logthing

/-! ## The loop by its turns -/

/-- A turn of the loop of `advanceLocked`: the tracker it is about, and the incident that names, if
it is there. -/
structure Iteration where
  key : String
  current : Tracker
  incident : Option Incident

/-- Where a turn's transition belongs: at its due time, by its priority.  A turn that deletes a
tracker makes no transition. -/
def Iteration.rank (interface : String) (turn : Iteration) : Option (ℤ ×ₗ ℕ) :=
  turn.incident.map (turn.current.rank interface)

/-- One iteration of the loop of `advanceLocked`: what it is about and the snapshot after it, unless
it leaves the loop. -/
def advanceStep (interface : String) (orders : Orders) (now : Time) (s : Snapshot) :
    Option (Iteration × Snapshot) :=
  (nextDueTracker interface orders.due now s).map fun found =>
    (⟨found.1, found.2, s.incidents.lookup found.2.incidentID⟩,
      advanceOne interface orders found.1 found.2 s)

/-- `advanceLocked`, cut off after `n` iterations. -/
def advanceWithin (interface : String) (n : ℕ) (orders : Schedule) (now : Time) (s : Snapshot) :
    Option (List Iteration × Snapshot) :=
  Worklist.within (fun k => advanceStep interface (orders k) now) n s

section

variable {interface : String} {now : Time} {s s' : Snapshot} {turn : Iteration} {turns : List Iteration}

lemma advanceStep_eq_some {orders : Orders}
    (h : advanceStep interface orders now s = some (turn, s')) :
    nextDueTracker interface orders.due now s = some (turn.key, turn.current) ∧
      turn.incident = s.incidents.lookup turn.current.incidentID ∧
      s' = advanceOne interface orders turn.key turn.current s := by
  obtain ⟨⟨key, current⟩, hnext, heq⟩ := Option.map_eq_some_iff.mp h
  obtain ⟨rfl, rfl⟩ := Prod.mk.inj heq
  exact ⟨hnext, rfl, rfl⟩

/-- **The loop that is cut off is the loop**, where it ends by itself. -/
lemma advance_of_within {n : ℕ} {orders : Schedule}
    (h : advanceWithin interface n orders now s = some (turns, s')) :
    advance interface orders now s = (s', !turns.isEmpty) := by
  refine Worklist.within_induction (fun _ turn s turns s' => ∀ orders : Schedule,
    turn = (fun k => advanceStep interface (orders k) now) →
      advance interface orders now s = (s', !turns.isEmpty))
    (fun hnone orders heq => ?_) (fun hnext ih orders heq => ?_) h orders rfl
  · simp only [heq, advanceStep, Option.map_eq_none_iff] at hnone
    rw [advance]
    split
    · rfl
    · rename_i hsome
      rw [hnone] at hsome
      cases hsome
  · rw [heq] at hnext
    obtain ⟨hsome, -, rfl⟩ := advanceStep_eq_some hnext
    have hrest := ih (fun k => orders (k + 1)) (by rw [heq])
    rw [advance]
    split
    · rename_i hnone
      rw [hsome] at hnone
      cases hnone
    · rename_i key current hsome'
      obtain ⟨rfl, rfl⟩ := Prod.mk.inj (Option.some.inj (hsome.symm.trans hsome'))
      rw [hrest]
      rfl

/-- **The loop ends** within as many iterations as there are timers running. -/
lemma exists_advanceWithin (orders : Schedule) :
    ∃ turns s', advanceWithin interface (pendingKeys s).card orders now s = some (turns, s') := by
  refine Worklist.exists_within pendingKeys (fun h => ?_) le_rfl
  obtain ⟨hnext, -, rfl⟩ := advanceStep_eq_some h
  exact card_pendingKeys_advanceOne hnext

end

/-! ## What is selected -/

/-- No timer that runs is due, and no tracker with a running timer names an incident that is not
there. -/
def Snapshot.Settled (now : Time) (s : Snapshot) : Prop :=
  ∀ ⦃key current⦄, s.trackers.lookup key = some current → current.pending = true →
    ∃ incident, s.incidents.lookup current.incidentID = some incident ∧
      now < current.dueAt incident

/-- A pending tracker without its incident is selected as soon as the loop meets one. -/
lemma selectDue_missing {interface : String} {incidents : Dict String Incident} {now : Time}
    {l : List (String × Tracker)} {selected : Option Selected}
    (h : ∃ kv ∈ l, kv.2.pending = true ∧ incidents.lookup kv.2.incidentID = none) :
    ∃ found, selectDue interface incidents now l selected = some found ∧
      incidents.lookup found.2.incidentID = none := by
  induction l generalizing selected with
  | nil =>
      obtain ⟨kv, hkv, -⟩ := h
      exact absurd hkv (by simp)
  | cons kv rest ih =>
      obtain ⟨key, current⟩ := kv
      rw [selectDue]
      obtain ⟨missing, hmem, hpending, hmissing⟩ := h
      rcases List.mem_cons.mp hmem with rfl | hmem
      · rw [if_pos hpending]
        simp only at hmissing
        simp only [hmissing]
        exact ⟨_, rfl, hmissing⟩
      · have hrest : ∀ {selected}, ∃ found,
            selectDue interface incidents now rest selected = some found ∧
              incidents.lookup found.2.incidentID = none :=
          ih ⟨missing, hmem, hpending, hmissing⟩
        split_ifs
        · cases hi : incidents.lookup current.incidentID with
          | none => exact ⟨_, rfl, hi⟩
          | some incident =>
              simp only
              split_ifs
              · exact hrest
              · exact hrest
              · exact hrest
        · exact hrest

section

variable {interface : String} {order : Traversal String} {now : Time} {s : Snapshot}

/-- **What `nextDueTrackerLocked` finds in any snapshot**: a tracker whose incident is missing, and
if there is none, what comes first of what is due. -/
lemma nextDueTracker_cases (interface : String) (order : Traversal String) (now : Time)
    (s : Snapshot) :
    (∃ found, nextDueTracker interface order now s = some found ∧
      s.incidents.lookup found.2.incidentID = none) ∨
    (∀ ⦃key current⦄, s.trackers.lookup key = some current → current.pending = true →
      ∃ incident, s.incidents.lookup current.incidentID = some incident) ∧
      Selects interface s.incidents now (order.visit s.trackers) none
        (nextDueTracker interface order now s) := by
  by_cases hmissing : ∃ kv ∈ order.visit s.trackers, kv.2.pending = true ∧
      s.incidents.lookup kv.2.incidentID = none
  · exact Or.inl (selectDue_missing hmissing)
  · have hthere : ∀ kv ∈ order.visit s.trackers, kv.2.pending = true →
        ∃ incident, s.incidents.lookup kv.2.incidentID = some incident := by
      intro kv hkv hpending
      exact Option.ne_none_iff_exists'.mp fun hnone => hmissing ⟨kv, hkv, hpending, hnone⟩
    refine Or.inr ⟨fun key current hc hpending => ?_, selects_selectDue hthere⟩
    exact hthere (key, current) ((order.mem_visit _ _ _).mpr hc) hpending

/-- **Nothing is selected in a settled snapshot, and in no other.** -/
lemma nextDueTracker_eq_none_iff :
    nextDueTracker interface order now s = none ↔ s.Settled now := by
  rcases nextDueTracker_cases interface order now s with ⟨found, hsome, hmissing⟩ | ⟨hthere, hsel⟩
  · obtain ⟨hc, hpending⟩ := lookup_of_nextDueTracker hsome
    constructor
    · intro hnone
      rw [hsome] at hnone
      cases hnone
    · intro hsettled
      obtain ⟨incident, hi, -⟩ := hsettled hc hpending
      rw [hmissing] at hi
      cases hi
  · constructor
    · intro hnone key current hc hpending
      rw [hnone] at hsel
      obtain ⟨incident, hi⟩ := hthere hc hpending
      refine ⟨incident, hi, not_le.mp fun hle => ?_⟩
      exact hsel.2 (key, current) ((order.mem_visit _ _ _).mpr hc) incident hi ⟨hpending, hle⟩
    · intro hsettled
      cases hnext : nextDueTracker interface order now s with
      | none => rfl
      | some found =>
          rw [hnext] at hsel
          obtain ⟨_, -, hnone | ⟨hmem, incident, hi, hdue, -⟩, -⟩ := hsel
          · cases hnone
          · obtain ⟨i, hi', hlate⟩ := hsettled ((order.mem_visit _ _ _).mp hmem) hdue.1
            rw [hi] at hi'
            rw [← Option.some.inj hi'] at hlate
            exact absurd hdue.2 (not_le.mpr hlate)

/-- A settled snapshot stays as it is. -/
lemma Snapshot.Settled.advance (h : s.Settled now) (orders : Schedule) :
    Logthing.advance interface orders now s = (s, false) := by
  have hnone := (@nextDueTracker_eq_none_iff interface (orders 0).due now s).mpr h
  rw [Logthing.advance]
  split
  · rfl
  · rename_i hsome
    rw [hnone] at hsome
    cases hsome

end

/-! ## The order of the transitions -/

/-- The incidents that pending trackers name are stored under their own IDs. -/
def Snapshot.Filed (s : Snapshot) : Prop :=
  ∀ ⦃key current incident⦄, s.trackers.lookup key = some current → current.pending = true →
    s.incidents.lookup current.incidentID = some incident → incident.id = current.incidentID

/-- Where the transition of a tracker belongs. -/
def Snapshot.rank (interface : String) (s : Snapshot) (current : Tracker) : Option (ℤ ×ₗ ℕ) :=
  (s.incidents.lookup current.incidentID).map (current.rank interface)

/-- A turn waits: its tracker is there with its timer running, and due if it has its incident. -/
structure Iteration.Waits (interface : String) (now : Time) (s : Snapshot) (turn : Iteration) : Prop where
  tracker_eq : s.trackers.lookup turn.key = some turn.current
  pending : turn.current.pending = true
  due : ∀ ⦃r⦄, turn.rank interface = some r →
    s.rank interface turn.current = some r ∧ (ofLex r).1 ≤ now

/-- A transition that fires leaves its incident where it was in the order. -/
lemma Tracker.rank_fired (interface : String) (other current : Tracker) (incident : Incident) :
    other.rank interface (incident.fired current) = other.rank interface incident := by
  rw [Incident.fired]
  split_ifs
  · rfl
  · rfl

section

variable {interface : String} {orders : Orders} {now : Time} {s s' : Snapshot} {turn : Iteration}
  {key : String} {current : Tracker}

/-- A timer that runs after a turn is another one than its own, and ran before. -/
lemma lookup_of_advanceOne {k : String} {other : Tracker}
    (h : (advanceOne interface orders key current s).trackers.lookup k = some other)
    (hpending : other.pending = true) : s.trackers.lookup k = some other := by
  have hk : k ≠ key := by
    have hmem := mem_pendingKeys.mpr ⟨other, h, hpending⟩
    rw [pendingKeys_advanceOne] at hmem
    exact Finset.ne_of_mem_erase hmem
  rw [advanceOne] at h
  cases hi : s.incidents.lookup current.incidentID with
  | none =>
      rw [hi] at h
      simpa only [Dict.lookup_erase_ite, if_neg hk] using h
  | some incident =>
      rw [hi] at h
      simp only at h
      split_ifs at h
      · simpa only [activate, Dict.lookup_insert_ite, if_neg hk] using h
      · simpa only [resolve, Dict.lookup_insert_ite, if_neg hk] using h

/-- The incidents after a turn. -/
lemma lookup_incidents_advanceOne (id : String) :
    (advanceOne interface orders key current s).incidents.lookup id
      = match s.incidents.lookup current.incidentID with
        | none => s.incidents.lookup id
        | some incident =>
            if id = incident.id then some (incident.fired current) else s.incidents.lookup id := by
  cases hi : s.incidents.lookup current.incidentID with
  | none => rw [advanceOne, hi]
  | some incident =>
      have hview := @view_advanceOne interface orders key current incident s hi
      have hid := congrFun (congrArg View.incidents hview) id
      simpa only [Snapshot.view, View.fire, View.set, Function.update_apply] using hid

/-- **A turn moves no other transition**, if its incident is stored under its own ID. -/
lemma rank_advanceOne (hfiled : ∀ ⦃incident⦄,
      s.incidents.lookup current.incidentID = some incident → incident.id = current.incidentID)
    (other : Tracker) :
    (advanceOne interface orders key current s).rank interface other = s.rank interface other := by
  rw [Snapshot.rank, Snapshot.rank, lookup_incidents_advanceOne]
  cases hi : s.incidents.lookup current.incidentID with
  | none => rfl
  | some incident =>
      simp only
      split_ifs with hid
      · rw [hid, hfiled hi, hi, Option.map_some, Option.map_some, Tracker.rank_fired]
      · rfl

/-- A turn leaves the incidents under their own IDs. -/
lemma Snapshot.Filed.advanceOne (h : s.Filed) :
    (Logthing.advanceOne interface orders key current s).Filed := by
  intro k other incident hc hpending hi
  have hbefore := lookup_of_advanceOne hc hpending
  rw [lookup_incidents_advanceOne] at hi
  split at hi
  · exact h hbefore hpending hi
  · split_ifs at hi with hid
    · rw [← Option.some.inj hi, Incident.fired_id, hid]
    · exact h hbefore hpending hi

/-- The turn that is taken is one that waits. -/
lemma Iteration.Waits.of_advanceStep (h : advanceStep interface orders now s = some (turn, s')) :
    turn.Waits interface now s := by
  obtain ⟨hnext, hincident, -⟩ := advanceStep_eq_some h
  obtain ⟨hc, hpending⟩ := lookup_of_nextDueTracker hnext
  refine ⟨hc, hpending, fun r hr => ?_⟩
  rw [Iteration.rank, hincident] at hr
  refine ⟨hr, ?_⟩
  obtain ⟨incident, hi, rfl⟩ := Option.map_eq_some_iff.mp hr
  rcases nextDueTracker_cases interface orders.due now s with ⟨found, hsome, hmissing⟩ | ⟨-, hsel⟩
  · rw [hnext] at hsome
    obtain rfl := Option.some.inj hsome
    rw [hi] at hmissing
    cases hmissing
  · rw [hnext] at hsel
    obtain ⟨_, -, hnone | ⟨-, i, hi', hdue, -⟩, -⟩ := hsel
    · cases hnone
    · rw [hi] at hi'
      obtain rfl := Option.some.inj hi'
      exact hdue.2

/-- No turn that waits belongs before the one that is taken. -/
lemma Iteration.Waits.rank_le {waiting : Iteration} (h : waiting.Waits interface now s)
    (hturn : advanceStep interface orders now s = some (turn, s')) {r r' : ℤ ×ₗ ℕ}
    (hr : turn.rank interface = some r) (hr' : waiting.rank interface = some r') : r ≤ r' := by
  obtain ⟨hnext, hincident, -⟩ := advanceStep_eq_some hturn
  rw [Iteration.rank, hincident] at hr
  obtain ⟨incident, hi, rfl⟩ := Option.map_eq_some_iff.mp hr
  obtain ⟨hrank, hdue⟩ := h.due hr'
  obtain ⟨i, hi', rfl⟩ := Option.map_eq_some_iff.mp hrank
  rcases nextDueTracker_cases interface orders.due now s with ⟨found, hsome, hmissing⟩ | ⟨-, hsel⟩
  · rw [hnext] at hsome
    obtain rfl := Option.some.inj hsome
    rw [hi] at hmissing
    cases hmissing
  · rw [hnext] at hsel
    obtain ⟨selected, -, hnone | ⟨-, j, hj, -, heq⟩, -, hfirst⟩ := hsel
    · cases hnone
    · rw [hi] at hj
      obtain rfl := Option.some.inj hj
      rw [← heq]
      exact hfirst (waiting.key, waiting.current) ((orders.due.mem_visit _ _ _).mpr h.tracker_eq)
        i hi' ⟨h.pending, hdue⟩

/-- A turn that waits after another waited before. -/
lemma Iteration.Waits.before {waiting : Iteration} (hfiled : s.Filed)
    (hturn : advanceStep interface orders now s = some (turn, s'))
    (h : waiting.Waits interface now s') : waiting.Waits interface now s := by
  obtain ⟨hnext, -, rfl⟩ := advanceStep_eq_some hturn
  obtain ⟨hc, hpending⟩ := lookup_of_nextDueTracker hnext
  refine ⟨lookup_of_advanceOne h.tracker_eq h.pending, h.pending, fun r hr => ?_⟩
  obtain ⟨hrank, hdue⟩ := h.due hr
  rw [rank_advanceOne (fun _ hi => hfiled hc hpending hi)] at hrank
  exact ⟨hrank, hdue⟩

end

/-- **The transitions are made in order**: by their due times, at one time recoveries first, then
the primary's activations, then the fallbacks'. -/
lemma pairwise_rank {interface : String} {n : ℕ} {orders : Schedule} {now : Time}
    {s s' : Snapshot} {turns : List Iteration} (hfiled : s.Filed)
    (h : advanceWithin interface n orders now s = some (turns, s')) :
    (turns.filterMap (Iteration.rank interface)).Pairwise (· ≤ ·) := by
  rw [List.pairwise_filterMap]
  refine Worklist.pairwise_within
    (fun s turn s' => ∃ orders, advanceStep interface orders now s = some (turn, s'))
    (Iteration.Waits interface now) (fun hs hstep => ?_) (fun _ hstep => ?_)
    (fun _ hstep hu r hr r' hr' => ?_) (fun hs hstep hu => ?_) (fun hturn => ⟨_, hturn⟩) h hfiled
  · obtain ⟨orders, hturn⟩ := hstep
    obtain ⟨-, -, rfl⟩ := advanceStep_eq_some hturn
    exact hs.advanceOne
  · exact .of_advanceStep hstep.choose_spec
  · exact hu.rank_le hstep.choose_spec hr hr'
  · exact hu.before hs hstep.choose_spec

/-! ## One result for all orders -/

/-- Every job is as it was enqueued. -/
def AsEnqueued (jobs : Dict String NotificationJob) : Prop :=
  ∀ ⦃id job⦄, jobs.lookup id = some job → ∃ n : Notice, job = n.job

namespace AsEnqueued

variable {jobs : Dict String NotificationJob} {incidents : Dict String Incident}
  {interface : String} {incident : Incident}

lemma insertNew (h : AsEnqueued jobs) (n : Notice) :
    AsEnqueued (jobs.insertNew n.jobID n.job) := by
  intro id job hjob
  rw [Dict.lookup_insertNew] at hjob
  split_ifs at hjob
  · exact ⟨n, (Option.some.inj hjob).symm⟩
  · exact h hjob

lemma enqueue (h : AsEnqueued jobs) (n : Notice)
    (hkind : n.occasion.suffix = n.occasion.kind.text) :
    AsEnqueued (enqueue jobs n.incidentID n.occasion.kind n.at_) := by
  rw [enqueue_eq jobs n hkind]
  exact h.insertNew n

lemma enqueueFallbackEscalation (h : AsEnqueued jobs) (id primaryID : String) (at_ : Time) :
    AsEnqueued (enqueueFallbackEscalation jobs id primaryID at_) := by
  rw [enqueueFallbackEscalation_eq]
  exact h.insertNew _

lemma escalateFallbacks (h : AsEnqueued jobs) (order : Traversal String)
    (hostname primaryID : String) (at_ : Time) :
    AsEnqueued (escalateFallbacks interface order incidents jobs hostname primaryID at_) := by
  refine List.foldlRecOn (motive := AsEnqueued) _ _ h fun jobs hjobs kv _ => ?_
  split_ifs
  · exact hjobs.enqueueFallbackEscalation _ _ _
  · exact hjobs

lemma announceActivation (h : AsEnqueued jobs) (order : Traversal String) (at_ : Time) :
    AsEnqueued (announceActivation interface order incidents jobs incident at_) := by
  rw [Logthing.announceActivation]
  split_ifs
  · split
    · exact h.enqueueFallbackEscalation _ _ _
    · exact h.enqueue ⟨incident.id, .fallbackOpened, at_⟩ rfl
  · exact h.enqueue ⟨incident.id, .opened, at_⟩ rfl

lemma announceResolution (h : AsEnqueued jobs) (at_ : Time) :
    AsEnqueued (announceResolution interface jobs incident at_) := by
  rw [Logthing.announceResolution]
  split_ifs
  · exact h.enqueue ⟨incident.id, .fallbackResolved, at_⟩ rfl
  · exact h.enqueue ⟨incident.id, .resolved, at_⟩ rfl

lemma activationJobs (h : AsEnqueued jobs) (orders : Orders) (at_ : Time) :
    AsEnqueued (activationJobs interface orders incidents jobs incident at_) := by
  have hannounced : AsEnqueued (if incident.notify then
      Logthing.announceActivation interface orders.primary incidents jobs incident at_
      else jobs) := by
    split_ifs
    · exact h.announceActivation _ _
    · exact h
  rw [Logthing.activationJobs]
  split
  · exact hannounced.escalateFallbacks _ _ _ _
  · exact hannounced

/-- A turn enqueues and does nothing else to the outbox. -/
lemma advanceOne {s : Snapshot} (h : AsEnqueued s.jobs) (orders : Orders) (key : String)
    (current : Tracker) : AsEnqueued (advanceOne interface orders key current s).jobs := by
  rw [Logthing.advanceOne]
  split
  · exact h
  · split_ifs
    · exact h.activationJobs _ _
    · rw [resolve]
      simp only
      split_ifs
      · exact h.announceResolution _
      · exact h

lemma advance {s : Snapshot} (h : AsEnqueued s.jobs) (orders : Schedule) (now : Time) :
    AsEnqueued (advance interface orders now s).1.jobs :=
  advance_rule (fun s => AsEnqueued s.jobs) (fun _ _ h => h.advanceOne _ _ _) orders s h

lemma observeLocked {eng : Engine} {s : Snapshot} (h : AsEnqueued s.jobs) (orders : Schedule)
    (o : Observation) :
    AsEnqueued (observeLocked eng orders o.message o.notifyEligible o.sourceRef s).jobs := by
  cases hevidence : eng.evidence o with
  | none =>
      rw [observeLocked_of_none hevidence]
      exact h
  | some evidence =>
      rw [observeLocked_of_some hevidence]
      split_ifs
      · exact h
      · exact h
      · simp only [observeEvidence]
        split_ifs
        · exact h.advance orders _
        · exact h.advance orders _

lemma observeAll {eng : Engine} {s : Snapshot} (h : AsEnqueued s.jobs) (orders : ℕ → Schedule)
    (os : List Observation) : AsEnqueued (observeAll eng orders os s).jobs := by
  induction os generalizing orders s with
  | nil => exact h
  | cons o os ih => exact ih (h.observeLocked (orders 0) o) _

/-- The calls that go with the time enqueue and do nothing else to the outbox. -/
lemma call {eng : Engine} {svc : Service} {op : Operation} (h : AsEnqueued svc.state.jobs)
    (hlive : op.live) : AsEnqueued (svc.call eng op).state.jobs := by
  cases op with
  | observe orders message notifyEligible outcome =>
      rw [Service.call, Service.observe_state]
      exact h.observeLocked orders ⟨message, notifyEligible, ""⟩
  | apply orders observations cursors checkpointAt outcome =>
      rw [Service.call, Service.apply_state]
      exact h.observeAll orders observations
  | tick orders now outcome =>
      rw [Service.call, Service.tick_state]
      exact h.advance orders now
  | _ => exact absurd hlive id

lemma run {eng : Engine} (ops : List Operation) {svc : Service} (h : AsEnqueued svc.state.jobs)
    (hlive : ∀ op ∈ ops, op.live) : AsEnqueued (svc.run eng ops).state.jobs := by
  induction ops generalizing svc with
  | nil => exact h
  | cons op ops ih =>
      exact ih (h.call (hlive op List.mem_cons_self)) fun o ho =>
        hlive o (List.mem_cons_of_mem _ ho)

end AsEnqueued

/-- Outboxes that record the same notices, as they were enqueued, are the same. -/
lemma Records.jobs_eq {jobs jobs' : Dict String NotificationJob} {F : Notice → Prop}
    (h : Records jobs F) (h' : Records jobs' F) (hjobs : AsEnqueued jobs)
    (hjobs' : AsEnqueued jobs') : jobs = jobs' := by
  have hsub : ∀ {jobs jobs' : Dict String NotificationJob}, Records jobs F → Records jobs' F →
      AsEnqueued jobs → AsEnqueued jobs' → ∀ {id job}, jobs.lookup id = some job →
        jobs'.lookup id = some job := by
    intro jobs jobs' h h' hjobs hjobs' id job hjob
    obtain ⟨job', hjob', hfact⟩ := (h' id job.fact).mpr ((h id job.fact).mp ⟨job, hjob, rfl⟩)
    obtain ⟨n, rfl⟩ := hjobs hjob
    obtain ⟨n', rfl⟩ := hjobs' hjob'
    simp only [NotificationJob.fact, Notice.job, JobFact.mk.injEq] at hfact
    rw [hjob']
    simp only [Notice.job, hfact]
  refine Finmap.ext_lookup fun id => Option.ext fun job => ?_
  exact ⟨hsub h h' hjobs hjobs', hsub h' h hjobs' hjobs⟩

/-- `advanceLocked` leaves the rest of a snapshot alone. -/
lemma advance_rest (interface : String) (orders : Schedule) (now : Time) (s : Snapshot) :
    ∃ trackers incidents jobs,
      (advance interface orders now s).1 = { s with trackers, incidents, jobs } := by
  refine advance_rule (fun s' => ∃ trackers incidents jobs,
    s' = { s with trackers, incidents, jobs }) (fun {s' _ _ current} _ _ h => ?_) orders s
    ⟨s.trackers, s.incidents, s.jobs, rfl⟩
  obtain ⟨trackers, incidents, jobs, rfl⟩ := h
  rw [advanceOne]
  split
  · exact ⟨_, _, _, rfl⟩
  · split_ifs
    · exact ⟨_, _, _, rfl⟩
    · exact ⟨_, _, _, rfl⟩

/-- `advanceLocked` reports a change unless the snapshot is settled. -/
lemma advance_changed (interface : String) (orders : Schedule) (now : Time) (s : Snapshot) :
    (advance interface orders now s).2 = false ↔ s.Settled now := by
  rw [← @nextDueTracker_eq_none_iff interface (orders 0).due now s, advance]
  split
  · rename_i hnone
    exact ⟨fun _ => hnone, fun _ => rfl⟩
  · rename_i hsome
    rw [hsome]
    simp

namespace Timely

variable {eng : Engine} {s : Snapshot} {at_ : Time}

/-- **Advancing a snapshot in step with time has one result**, whatever the orders of the loops. -/
lemma advance_eq (h : Timely eng at_ s) (hjobs : AsEnqueued s.jobs) (orders orders' : Schedule)
    (now : Time) : Logthing.advance eng.interface orders now s
      = Logthing.advance eng.interface orders' now s := by
  have hview : (Logthing.advance eng.interface orders now s).1.view
      = (Logthing.advance eng.interface orders' now s).1.view := by
    rw [advance_view h.consistent orders, advance_view h.consistent orders']
  obtain ⟨htrackers, hincidents⟩ := eq_of_view_eq hview
  have houtbox := (h.records_advance orders now).jobs_eq (h.records_advance orders' now)
    (hjobs.advance orders now) (hjobs.advance orders' now)
  refine Prod.ext ?_ ?_
  · obtain ⟨trackers, incidents, jobs, heq⟩ := advance_rest eng.interface orders now s
    obtain ⟨trackers', incidents', jobs', heq'⟩ := advance_rest eng.interface orders' now s
    rw [heq, heq'] at htrackers hincidents houtbox ⊢
    simp only at htrackers hincidents houtbox
    rw [htrackers, hincidents, houtbox]
  · rw [Bool.eq_iff_iff, ← not_iff_not, Bool.not_eq_true, Bool.not_eq_true, advance_changed,
      advance_changed]

/-- Observing a snapshot in step with time has one result. -/
lemma observeLocked_eq (h : Timely eng at_ s) (hjobs : AsEnqueued s.jobs)
    (orders orders' : Schedule) (o : Observation) :
    Logthing.observeLocked eng orders o.message o.notifyEligible o.sourceRef s
      = Logthing.observeLocked eng orders' o.message o.notifyEligible o.sourceRef s := by
  cases hevidence : eng.evidence o with
  | none => rw [observeLocked_of_none hevidence, observeLocked_of_none hevidence]
  | some evidence =>
      rw [observeLocked_of_some hevidence, observeLocked_of_some hevidence,
        h.advance_eq hjobs orders orders']

/-- **Observing in the order of time has one result**, whatever the orders of the loops. -/
lemma observeAll_eq (orders orders' : ℕ → Schedule) (os : List Observation) {rest : List Time}
    (h : Timely eng at_ s) (hjobs : AsEnqueued s.jobs)
    (htimes : (eng.evidenceTimes os ++ rest).Pairwise (· ≤ ·))
    (hle : ∀ t ∈ eng.evidenceTimes os ++ rest, at_ ≤ t) :
    Logthing.observeAll eng orders os s = Logthing.observeAll eng orders' os s := by
  induction os generalizing orders orders' s at_ with
  | nil => rfl
  | cons o os ih =>
      rw [evidenceTimes_cons] at htimes hle
      rw [Logthing.observeAll, Logthing.observeAll,
        h.observeLocked_eq hjobs (orders' 0) (orders 0)]
      have hafter := @AsEnqueued.observeLocked eng s hjobs (orders 0) o
      cases hevidence : eng.evidence o with
      | none =>
          rw [hevidence] at htimes hle
          rw [observeLocked_of_none hevidence] at hafter ⊢
          exact ih _ _ h hafter htimes hle
      | some evidence =>
          rw [hevidence] at htimes hle
          simp only [Option.map_some, Option.toList_some, List.cons_append, List.nil_append,
            List.pairwise_cons, List.mem_cons, forall_eq_or_imp] at htimes hle
          obtain ⟨middle, -, hbound, htimely⟩ := h.observeLocked (orders 0) hevidence hle.1
          exact ih _ _ htimely hafter htimes.2 fun t ht => hbound.trans (htimes.1 t ht)

end Timely

/-! ## Runs that differ in the orders of their loops -/

/-- Calls of `Observe`, `Apply` and `Tick` that differ in the orders of their loops only. -/
inductive Operation.Reordered : Operation → Operation → Prop where
  | observe {orders orders' message notifyEligible outcome} :
      Reordered (.observe orders message notifyEligible outcome)
        (.observe orders' message notifyEligible outcome)
  | apply {orders orders' observations cursors checkpointAt outcome} :
      Reordered (.apply orders observations cursors checkpointAt outcome)
        (.apply orders' observations cursors checkpointAt outcome)
  | tick {orders orders' now outcome} :
      Reordered (.tick orders now outcome) (.tick orders' now outcome)

lemma Operation.Reordered.live {op op' : Operation} (h : op.Reordered op') : op.live := by
  cases h with
  | observe => exact trivial
  | apply => exact trivial
  | tick => exact trivial

lemma Operation.live_of_reordered {ops ops' : List Operation}
    (h : List.Forall₂ Operation.Reordered ops ops') : ∀ op ∈ ops, op.live := by
  induction h with
  | nil => simp
  | cons hop _ ih => exact List.forall_mem_cons.mpr ⟨hop.live, ih⟩

/-- **A call on a snapshot in step with time has one result**, whatever the orders of its loops. -/
lemma Timely.call_eq {eng : Engine} {svc : Service} {op op' : Operation} {rest : List Time}
    {at_ : Time} (h : Timely eng at_ svc.state) (hjobs : AsEnqueued svc.state.jobs)
    (hsame : op.Reordered op') (htimes : (op.times eng ++ rest).Pairwise (· ≤ ·))
    (hle : ∀ t ∈ op.times eng ++ rest, at_ ≤ t) : svc.call eng op = svc.call eng op' := by
  cases hsame with
  | @observe orders orders' message notifyEligible outcome =>
      rw [Service.call, Service.call, Service.observe, Service.observe,
        h.observeLocked_eq hjobs orders orders' ⟨message, notifyEligible, ""⟩]
  | @apply orders orders' observations cursors checkpointAt outcome =>
      rw [Service.call, Service.call, Service.apply, Service.apply,
        h.observeAll_eq orders orders' observations hjobs htimes hle]
  | @tick orders orders' now outcome =>
      rw [Service.call, Service.call, Service.tick, Service.tick,
        h.advance_eq hjobs orders orders' now]

/-- **A run in the order of time has one result**, whatever the orders of its loops. -/
lemma Timely.run_eq {eng : Engine} {ops ops' : List Operation} {svc : Service} {at_ : Time}
    (h : Timely eng at_ svc.state) (hjobs : AsEnqueued svc.state.jobs)
    (hsame : List.Forall₂ Operation.Reordered ops ops')
    (htimes : (ops.flatMap (Operation.times eng)).Pairwise (· ≤ ·))
    (hle : ∀ t ∈ ops.flatMap (Operation.times eng), at_ ≤ t) :
    svc.run eng ops = svc.run eng ops' := by
  induction hsame generalizing svc at_ with
  | nil => rfl
  | cons hop _ ih =>
      rw [List.flatMap_cons] at htimes hle
      obtain ⟨middle, hrest, hmiddle⟩ := h.call hop.live htimes hle
      rw [Service.run, Service.run, List.foldl_cons, List.foldl_cons,
        ← h.call_eq hjobs hop htimes hle]
      exact ih hmiddle (hjobs.call hop.live) (List.pairwise_append.mp htimes).2.1 hrest

/-! ## Every call -/

/-- What the iterations of a call of `advanceLocked` make of a snapshot. -/
structure Settles (interface : String) (now : Time) (s : Snapshot) (iterations : List Iteration)
    (s' : Snapshot) : Prop where
  bounded : iterations.length ≤ (pendingKeys s).card
  settled : s'.Settled now
  ordered : s.Filed → (iterations.filterMap (Iteration.rank interface)).Pairwise (· ≤ ·)
  again : ∀ orders, advance interface orders now s' = (s', false)

lemma Settles.of_within {interface : String} {orders : Schedule} {now : Time} {s s' : Snapshot}
    {iterations : List Iteration}
    (h : advanceWithin interface (pendingKeys s).card orders now s = some (iterations, s')) :
    Settles interface now s iterations s' := by
  have hsettled : s'.Settled now := by
    have hends := Worklist.within_ends h
    rw [advanceStep, Option.map_eq_none_iff] at hends
    exact nextDueTracker_eq_none_iff.mp hends
  exact ⟨Worklist.length_within h, hsettled, fun hfiled => pairwise_rank hfiled h,
    hsettled.advance⟩

/-- **`advanceLocked` terminates and settles.**  On every snapshot its loop ends within as many
iterations as there are trackers whose timer is running, in a settled snapshot that it leaves as it
is from then on; and it makes its transitions in order where the incidents of these trackers are
stored under their own IDs.  In a run of `Observe`, `Apply` and `Tick` from `New` in which times
never decrease, neither the run nor another call after it depends on the orders of the loops, if
incident IDs do not collide. -/
theorem advance_settles (eng : Engine) :
    (∀ (orders : Schedule) (now : Time) (s : Snapshot), ∃ iterations s',
      advanceWithin eng.interface (pendingKeys s).card orders now s = some (iterations, s') ∧
        advance eng.interface orders now s = (s', !iterations.isEmpty) ∧
        Settles eng.interface now s iterations s') ∧
    (eng.ids.Injective → ∀ ops ops' : List Operation,
      List.Forall₂ Operation.Reordered ops ops' →
      (ops.flatMap (Operation.times eng)).Pairwise (· ≤ ·) →
      Service.run eng {} ops = Service.run eng {} ops' ∧
      ∀ (now : Time) (orders orders' : Schedule),
        advance eng.interface orders now (Service.run eng {} ops).state
          = advance eng.interface orders' now (Service.run eng {} ops').state) := by
  refine ⟨fun orders now s => ?_, fun hids ops ops' hsame htimes => ?_⟩
  · obtain ⟨iterations, s', hwithin⟩ := @exists_advanceWithin eng.interface now s orders
    exact ⟨iterations, s', hwithin, advance_of_within hwithin, .of_within hwithin⟩
  · obtain ⟨at_, hle⟩ := exists_before (ops.flatMap (Operation.times eng))
    have hnew : Timely eng at_ (({} : Service).state) := .of_empty hids at_ rfl rfl
    have hfresh : AsEnqueued (({} : Service).state).jobs := fun _ _ hjob => nomatch hjob
    have hlive := Operation.live_of_reordered hsame
    have hrun := hnew.run_eq hfresh hsame htimes hle
    obtain ⟨later, htimely⟩ := hnew.run ops hlive htimes hle
    refine ⟨hrun, fun now orders orders' => ?_⟩
    rw [← hrun]
    exact htimely.advance_eq (hfresh.run ops hlive) orders orders' now

/-- The small run with its loops in the other order. -/
def wanDownReordered : List Operation :=
  [.apply (fun _ => backwards) [wanDown] ∅ 1000000000 none,
    .tick backwards 61000000000 (some "disk full")]

/-- The small run, and a tick after it. -/
theorem advance_settles_wanDown :
    Service.run sampleEngine {} wanDownRun = Service.run sampleEngine {} wanDownReordered ∧
      advance sampleEngine.interface forwards 61000000000
          (Service.run sampleEngine {} wanDownRun).state
        = advance sampleEngine.interface backwards 61000000000
          (Service.run sampleEngine {} wanDownReordered).state := by
  have htimes : wanDownRun.flatMap (Operation.times sampleEngine) = [1000000000, 61000000000] := by
    rfl
  obtain ⟨hrun, hagain⟩ := (advance_settles sampleEngine).2 sampleIDs_injective wanDownRun
    wanDownReordered (.cons .apply (.cons .tick .nil)) (by rw [htimes]; decide)
  exact ⟨hrun, hagain 61000000000 forwards backwards⟩

/-! ## Incidents under foreign IDs, and IDs that collide -/

/-- An incident whose timer has run since `startedAt`. -/
def runningIncident (id hostname : String) (startedAt : Time) (downAfter : Duration) :
    Incident where
  id
  ruleVersion := 3
  hostname
  interface := "wan"
  state := .pendingFailure
  startedAt
  lastEvidenceAt := startedAt
  evidenceIDs := []
  evidenceRefs := []
  downAfter
  recoveredAfter := 60000000000
  notify := true

/-- A tracker whose timer has run since `pendingSince`. -/
def runningTracker (pendingSince : Time) (incidentID : String) : Tracker :=
  { phase := .pendingFailure, pendingSince, lastEvidenceAt := pendingSince, incidentID
    notify := true }

/-- The incident of `gw` is stored as `one` and has the ID `two`, which is the one of `ap`. -/
def misfiled : Snapshot where
  bootstrapped := true
  trackers := Finmap.insert "ap\x00wan" (runningTracker 20000000000 "two")
    (Finmap.insert "gw\x00wan" (runningTracker 90000000000 "one") ∅)
  incidents := Finmap.insert "one" (runningIncident "two" "gw" 90000000000 10000000000)
    (Finmap.insert "two" (runningIncident "two" "ap" 20000000000 100000000000) ∅)

/-- `incidentID`, if all its digests were one. -/
def collidingIDs : IncidentIDs where
  incidentID _ _ _ _ := "8d4663d6450447b8"
  nonempty _ _ _ _ := by decide
  noColon _ _ _ _ := by decide

/-- The engine of the small run with IDs that collide. -/
def collidingEngine : Engine := { sampleEngine with ids := collidingIDs }

/-- `wan` of `ap` goes down with that of `gw`. -/
def apDown : Observation where
  message :=
    { id := "two", receivedAt := 1000000000, hostname := "ap", tag := "netifd"
      message := "Interface 'wan' is now down" }
  notifyEligible := false
  sourceRef := "events/0001/01/events.ndjson:2"

/-- Both outages last for a minute. -/
def bothDownRun (orders : Schedule) : List Operation :=
  [.apply (fun _ => orders) [wanDown, apDown] ∅ 1000000000 none, .tick orders 61000000000 none]

/-- **Transitions out of order, and a run with two results.**  In the misfiled snapshot the
activation of `gw`, due at 100 s, gives the timer of `ap` the duration of `gw`, and the activation
of `ap` follows as of 30 s, before it.  Where the IDs of two incidents collide, the one that is
activated last says whether the incident notifies. -/
theorem misfiled_unordered_and_colliding_unsettled :
    (∃ iterations s', advanceWithin "wan" (pendingKeys misfiled).card forwards 200000000000 misfiled
        = some (iterations, s') ∧
      ¬ (iterations.filterMap (Iteration.rank "wan")).Pairwise (· ≤ ·)) ∧
    List.Forall₂ Operation.Reordered (bothDownRun forwards) (bothDownRun backwards) ∧
    ((bothDownRun forwards).flatMap (Operation.times collidingEngine)).Pairwise (· ≤ ·) ∧
    (Service.run collidingEngine {} (bothDownRun forwards)).state
      ≠ (Service.run collidingEngine {} (bothDownRun backwards)).state := by
  refine ⟨?_, .cons .apply (.cons .tick .nil), by decide +kernel, fun heq => ?_⟩
  · obtain ⟨iterations, s', hwithin⟩ :=
      @exists_advanceWithin "wan" 200000000000 misfiled forwards
    have hranks : ((advanceWithin "wan" (pendingKeys misfiled).card forwards 200000000000
        misfiled).map fun r => r.1.filterMap (Iteration.rank "wan"))
          = some [toLex (100000000000, 1), toLex (30000000000, 1)] := by
      decide +kernel
    rw [hwithin, Option.map_some, Option.some.injEq] at hranks
    refine ⟨iterations, s', hwithin, ?_⟩
    rw [hranks]
    decide
  · have hnotify := congrArg (fun s : Snapshot =>
      (s.incidents.lookup "8d4663d6450447b8").map Incident.notify) heq
    revert hnotify
    decide +kernel

end Logthing
