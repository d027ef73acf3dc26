import Logthing.Incidents.Notices
import Mathlib.Logic.Relation

/-!
# Turns of `advanceLocked`

A turn stores the tracker and the incident whose timer has run out, and enqueues notices
(`advanceOne_eq`).  `Turned` is a turn in any order of the loops, so that `advanceLocked` is a run of
turns after which nothing is due.

**Main results.**  `advance_turns` and `exists_advance_of_turns`: what `advanceLocked` can leave are
the ends of such runs, and no others.
-/

namespace Logthing

/-! ## The notices of a turn -/

/-- Notices are enqueued one after another. -/
def enqueueAll (jobs : Dict String NotificationJob) (notices : List Notice) :
    Dict String NotificationJob :=
  notices.foldl (fun jobs n => jobs.insertNew n.jobID n.job) jobs

/-- How an activation is announced. -/
def activationNotice (interface : String) (order : Traversal String)
    (incidents : Dict String Incident) (incident : Incident) (activated : Time) : Notice where
  incidentID := incident.id
  occasion :=
    if incident.interface ≠ interface then
      match primaryDownAt interface order incidents incident.hostname activated with
      | some primary => .escalated primary.id
      | none => .fallbackOpened
    else .opened
  at_ := activated

/-- The escalations of an activation of the primary interface. -/
def escalationNotices (interface : String) (order : Traversal String)
    (incidents : Dict String Incident) (hostname primaryID : String) (at_ : Time) : List Notice :=
  ((order.visit incidents).filter fun kv => kv.2.escalates interface hostname).map
    fun kv => ⟨kv.2.id, .escalated primaryID, at_⟩

/-- How a resolution is announced. -/
def resolutionNotice (interface : String) (incident : Incident) (resolved : Time) : Notice where
  incidentID := incident.id
  occasion := if incident.interface ≠ interface then .fallbackResolved else .resolved
  at_ := resolved

/-- The notices of a turn, given the incidents after it: `fired` is the one whose timer has run
out. -/
def turnNotices (interface : String) (orders : Orders) (current : Tracker) (fired : Incident)
    (incidents : Dict String Incident) (at_ : Time) : List Notice :=
  if current.phase = .pendingFailure then
    (if fired.notify then [activationNotice interface orders.primary incidents fired at_] else []) ++
      if fired.interface = interface then
        escalationNotices interface orders.fallbacks incidents fired.hostname fired.id at_
      else []
  else if fired.notify then [resolutionNotice interface fired at_] else []

section

variable {interface : String} {orders : Orders} {order : Traversal String}
  {incidents : Dict String Incident} {jobs : Dict String NotificationJob} {incident : Incident}
  {at_ : Time}

lemma announceActivation_eq : announceActivation interface order incidents jobs incident at_
    = enqueueAll jobs [activationNotice interface order incidents incident at_] := by
  rw [announceActivation, enqueueAll, List.foldl_cons, List.foldl_nil]
  by_cases hfallback : incident.interface ≠ interface
  · rw [if_pos hfallback]
    cases hprimary : primaryDownAt interface order incidents incident.hostname at_ with
    | some primary =>
        have hnotice : activationNotice interface order incidents incident at_
            = ⟨incident.id, .escalated primary.id, at_⟩ := by
          simp only [activationNotice, if_pos hfallback, hprimary]
        rw [hnotice]
        exact enqueueFallbackEscalation_eq _ _ _ _
    | none =>
        have hnotice : activationNotice interface order incidents incident at_
            = ⟨incident.id, .fallbackOpened, at_⟩ := by
          simp only [activationNotice, if_pos hfallback, hprimary]
        rw [hnotice]
        exact enqueue_eq jobs ⟨incident.id, .fallbackOpened, at_⟩ rfl
  · have hnotice : activationNotice interface order incidents incident at_
        = ⟨incident.id, .opened, at_⟩ := by
      simp only [activationNotice, if_neg hfallback]
    rw [if_neg hfallback, hnotice]
    exact enqueue_eq jobs ⟨incident.id, .opened, at_⟩ rfl

lemma escalateFallbacks_eq {hostname primaryID : String} :
    escalateFallbacks interface order incidents jobs hostname primaryID at_
      = enqueueAll jobs (escalationNotices interface order incidents hostname primaryID at_) := by
  rw [escalateFallbacks, enqueueAll, escalationNotices, List.foldl_map, List.foldl_filter]
  simp only [enqueueFallbackEscalation_eq]

lemma announceResolution_eq : announceResolution interface jobs incident at_
    = enqueueAll jobs [resolutionNotice interface incident at_] := by
  rw [announceResolution, enqueueAll, List.foldl_cons, List.foldl_nil]
  by_cases hfallback : incident.interface ≠ interface
  · have hnotice : resolutionNotice interface incident at_
        = ⟨incident.id, .fallbackResolved, at_⟩ := by
      simp only [resolutionNotice, if_pos hfallback]
    rw [if_pos hfallback, hnotice]
    exact enqueue_eq jobs ⟨incident.id, .fallbackResolved, at_⟩ rfl
  · have hnotice : resolutionNotice interface incident at_ = ⟨incident.id, .resolved, at_⟩ := by
      simp only [resolutionNotice, if_neg hfallback]
    rw [if_neg hfallback, hnotice]
    exact enqueue_eq jobs ⟨incident.id, .resolved, at_⟩ rfl

lemma enqueueAll_append (jobs : Dict String NotificationJob) (notices notices' : List Notice) :
    enqueueAll jobs (notices ++ notices') = enqueueAll (enqueueAll jobs notices) notices' :=
  List.foldl_append

lemma activationJobs_eq : activationJobs interface orders incidents jobs incident at_
    = enqueueAll jobs ((if incident.notify then
        [activationNotice interface orders.primary incidents incident at_] else []) ++
      if incident.interface = interface then
        escalationNotices interface orders.fallbacks incidents incident.hostname incident.id at_
      else []) := by
  have hannounced : (if incident.notify then
      announceActivation interface orders.primary incidents jobs incident at_ else jobs)
      = enqueueAll jobs (if incident.notify then
          [activationNotice interface orders.primary incidents incident at_] else []) := by
    split_ifs
    · exact announceActivation_eq
    · rfl
  simp only [activationJobs, hannounced, enqueueAll_append]
  by_cases hprimary : incident.interface = interface
  · rw [if_pos hprimary, if_pos hprimary]
    exact escalateFallbacks_eq
  · rw [if_neg hprimary, if_neg hprimary]
    rfl

end

/-- **A turn** stores what has run out, and enqueues its notices. -/
theorem advanceOne_eq {interface : String} {orders : Orders} {key : String} {current : Tracker}
    {s : Snapshot} {incident : Incident}
    (hi : s.incidents.lookup current.incidentID = some incident) :
    advanceOne interface orders key current s =
      { s with
        trackers := s.trackers.insert key current.fired
        incidents := s.incidents.insert incident.id (incident.fired current)
        jobs := enqueueAll s.jobs (turnNotices interface orders current (incident.fired current)
          (s.incidents.insert incident.id (incident.fired current)) (current.dueAt incident)) } := by
  rw [advanceOne, hi]
  simp only
  split_ifs with hphase
  · simp only [activate, activationJobs_eq, turnNotices, Tracker.fired, Incident.fired,
      Tracker.dueAt, if_pos hphase]
  · simp only [resolve, turnNotices, Tracker.fired, Incident.fired, Tracker.dueAt, if_neg hphase]
    congr 1
    split_ifs
    · exact announceResolution_eq
    · rfl

/-! ## Runs of turns -/

/-- A turn of `advanceLocked`, in any order of its loops. -/
def Turned (eng : Engine) (now : Time) (s s' : Snapshot) : Prop :=
  ∃ orders key current incident, Fires eng.interface now s.view key current incident ∧
    s' = advanceOne eng.interface orders key current s

/-- A run of turns. -/
abbrev Turns (eng : Engine) (now : Time) : Snapshot → Snapshot → Prop :=
  Relation.ReflTransGen (Turned eng now)

section

variable {eng : Engine} {now : Time} {s s' : Snapshot}

lemma Turned.view (h : Turned eng now s s') : ∃ key current incident,
    Fires eng.interface now s.view key current incident ∧
      s'.view = s.view.fire key current incident := by
  obtain ⟨orders, key, current, incident, hfires, rfl⟩ := h
  exact ⟨key, current, incident, hfires, view_advanceOne hfires.incident_eq⟩

lemma Turned.consistent (h : Turned eng now s s') (hcons : Consistent eng s.view) :
    Consistent eng s'.view := by
  obtain ⟨key, current, incident, hfires, hview⟩ := h.view
  rw [hview]
  exact hcons.fire hfires.tracker_eq hfires.due.1 hfires.incident_eq

/-- **What `advanceLocked` leaves** is reached by turns, and nothing is due. -/
lemma advance_turns (h : Consistent eng s.view) (orders : Schedule) :
    Turns eng now s (advance eng.interface orders now s).1 ∧
      (advance eng.interface orders now s).1.view.Idle now := by
  obtain ⟨hturns, -, hidle⟩ := @advance_induction eng now (Turns eng now s)
    (fun {_ orders key current incident} _ hturns hfires =>
      hturns.tail ⟨orders, key, current, incident, hfires, rfl⟩) orders s h .refl
  exact ⟨hturns, hidle⟩

/-- What has been selected stays selected if nothing is before it. -/
lemma selectDue_of_least {interface : String} {incidents : Dict String Incident}
    {selected : Selected} : ∀ {l : List (String × Tracker)},
      (∀ kv ∈ l, kv.2.pending = true → ∃ incident,
        incidents.lookup kv.2.incidentID = some incident ∧
          (kv.2.dueBy now incident → selected.rank ≤ kv.2.rank interface incident)) →
      selectDue interface incidents now l (some selected) = some (selected.key, selected.current)
  | [], _ => rfl
  | (key, current) :: rest, hleast => by
      have ih := selectDue_of_least (l := rest) fun kv hkv => hleast kv (List.mem_cons_of_mem _ hkv)
      rw [selectDue]
      split_ifs with hpending
      · obtain ⟨incident, hi, hrank⟩ := hleast _ List.mem_cons_self hpending
        simp only [hi]
        split_ifs with hlate himproves
        · exact ih
        · rw [Selected.improves_some] at himproves
          exact absurd himproves (not_lt.mpr (hrank ⟨hpending, not_lt.mp hlate⟩))
        · exact ih
      · exact ih

/-- Whatever may go first does, in some order of the trackers. -/
lemma exists_nextDueTracker (h : Consistent eng s.view) {key : String} {current : Tracker}
    {incident : Incident} (hfires : Fires eng.interface now s.view key current incident) :
    ∃ order, nextDueTracker eng.interface order now s = some (key, current) := by
  have hc : s.trackers.lookup key = some current := hfires.tracker_eq
  have hi : s.incidents.lookup current.incidentID = some incident := hfires.incident_eq
  refine ⟨.leading [key], ?_⟩
  have hvisit : ∃ rest, (Traversal.leading [key]).visit s.trackers = (key, current) :: rest :=
    ⟨((Traversal.sorted String).visit s.trackers).filter fun kv => kv.1 ∉ [key], by
      simp [Traversal.leading, hc]⟩
  obtain ⟨rest, hrest⟩ := hvisit
  rw [nextDueTracker, hrest, selectDue, if_pos hfires.due.1, hi]
  simp only
  rw [if_neg (not_lt.mpr hfires.due.2), Selected.improves, if_pos rfl]
  refine selectDue_of_least fun kv hkv hpending => ?_
  have hc' : s.view.trackers kv.1 = some kv.2 := by
    refine ((Traversal.leading [key]).mem_visit _ _ _).mp ?_
    rw [hrest]
    exact List.mem_cons_of_mem _ hkv
  obtain ⟨incident', hi', -⟩ := h.names hc' (Tracker.open_of_pending hpending)
  exact ⟨incident', hi', fun hdue => hfires.first hc' hi' hdue⟩

/-- **The end of any run of turns** is what `advanceLocked` leaves, in some order of its loops. -/
lemma exists_advance_of_turns (h : Consistent eng s.view) (hturns : Turns eng now s s')
    (hidle : s'.view.Idle now) :
    ∃ orders, (advance eng.interface orders now s).1 = s' := by
  induction hturns using Relation.ReflTransGen.head_induction_on with
  | refl => exact ⟨sortedSchedule, congrArg Prod.fst (advance_of_idle h sortedSchedule hidle)⟩
  | head hturn _ ih =>
      rename_i s₁ s₂
      obtain ⟨rest, hrest⟩ := ih (hturn.consistent h)
      obtain ⟨orders, key, current, incident, hfires, rfl⟩ := hturn
      obtain ⟨order, hnext⟩ := exists_nextDueTracker h hfires
      refine ⟨fun | 0 => { orders with due := order } | n + 1 => rest n, ?_⟩
      rw [advance]
      split
      · rename_i hnone
        cases hnext.symm.trans hnone
      · rename_i key' current' hsome
        obtain ⟨rfl, rfl⟩ := Prod.mk.inj (Option.some.inj (hnext.symm.trans hsome))
        exact hrest

end

end Logthing
