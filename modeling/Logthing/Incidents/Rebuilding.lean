import Logthing.Incidents.Observing
import Logthing.Incidents.Service

/-!
# Rebuilding, on views

The loops of `Rebuild` after the observations rewrite `Notify`, on incidents from the state before
and on trackers from their incidents.  `View.renotify` is that, for any choice of the flags, and
it keeps the representation invariant because it changes both sides.
-/

namespace Logthing

/-- Every incident takes a new `Notify`, and every tracker that of its incident. -/
def View.renotify (notify : String → Incident → Bool) (v : View) : View :=
  ⟨fun key => (v.trackers key).map fun current =>
      match v.incidents current.incidentID with
      | some incident => { current with notify := notify current.incidentID incident }
      | none => current,
    fun id => (v.incidents id).map fun incident => { incident with notify := notify id incident }⟩

/-- **New flags keep the invariant.** -/
lemma Consistent.renotify {eng : Engine} {v : View} (h : Consistent eng v)
    (notify : String → Incident → Bool) : Consistent eng (v.renotify notify) where
  injective := h.injective
  keyed hc := by
    obtain ⟨before, hbefore, -⟩ := Option.map_eq_some_iff.mp hc
    exact h.keyed hbefore
  names hc ho := by
    obtain ⟨before, hbefore, rfl⟩ := Option.map_eq_some_iff.mp hc
    have hopen : before.phase.openState ≠ none := by
      cases hi : v.incidents before.incidentID <;> rw [hi] at ho <;> exact ho
    obtain ⟨i, hi, hagrees⟩ := h.names hbefore hopen
    simp only [View.renotify, hi]
    exact ⟨{ i with notify := notify before.incidentID i }, rfl, { hagrees with notify := rfl }⟩
  closed {key current} hc ho := by
    obtain ⟨before, hbefore, rfl⟩ := Option.map_eq_some_iff.mp hc
    have hclosed : before.phase.openState = none := by
      cases hi : v.incidents before.incidentID <;> rw [hi] at ho <;> exact ho
    have heq := h.closed hbefore hclosed
    have hnone : v.incidents before.incidentID = none := by
      rw [heq]
      exact h.incidents_empty
    rw [hnone]
    exact heq
  wellFormed hi := by
    obtain ⟨before, hbefore, rfl⟩ := Option.map_eq_some_iff.mp hi
    exact { h.wellFormed hbefore with }
  named {id incident} hi hs := by
    obtain ⟨before, hbefore, rfl⟩ := Option.map_eq_some_iff.mp hi
    obtain ⟨current, hc, ho, hid⟩ := h.named hbefore hs
    refine ⟨_, Option.map_eq_some_iff.mpr ⟨current, hc, rfl⟩, ?_, ?_⟩
    · rw [hid, hbefore]
      exact ho
    · rw [hid, hbefore]

/-- The `Notify` an incident has after `Rebuild`. -/
def restoredNotify (previous : Dict String Incident) (id : String) (incident : Incident) : Bool :=
  incident.notify || (previous.lookup id).any Incident.notify

lemma lookup_restoreNotify (order : Traversal String) (previous incidents : Dict String Incident)
    (id : String) : (restoreNotify order previous incidents).lookup id
      = (incidents.lookup id).map fun incident =>
        { incident with notify := restoredNotify previous id incident } := by
  rw [restoreNotify, order.lookup_assign]
  cases incidents.lookup id with
  | none => rfl
  | some incident =>
      cases hold : previous.lookup id with
      | none => simp [restoredNotify, hold]
      | some old => simp [restoredNotify, hold]

lemma lookup_restoreTrackers (order : Traversal String) (incidents : Dict String Incident)
    (trackers : Dict String Tracker) (key : String) :
    (restoreTrackers order incidents trackers).lookup key
      = (trackers.lookup key).map fun current =>
        (((incidents.lookup current.incidentID).map fun incident =>
          { current with notify := incident.notify }).getD current) := by
  rw [restoreTrackers, order.lookup_assign]
  cases trackers.lookup key with
  | none => rfl
  | some current =>
      simp only [Option.bind_some, Option.map_some]
      cases incidents.lookup current.incidentID with
      | none => rfl
      | some incident => rfl

/-- A job there was is copied if its incident is still there; the others stay. -/
lemma lookup_restoreJobs (order : Traversal String) (incidents : Dict String Incident)
    (previous jobs : Dict String NotificationJob) (key : String) :
    (restoreJobs order incidents previous jobs).lookup key
      = ((previous.lookup key).filter (·.incidentID ∈ incidents)).or (jobs.lookup key) := by
  rw [restoreJobs, order.lookup_assign]
  cases previous.lookup key with
  | none => rfl
  | some job =>
      by_cases hmem : job.incidentID ∈ incidents
      · simp [Option.filter, hmem]
      · simp [Option.filter, hmem]

/-- **`Rebuild` gives every incident the `Notify` it had**, and changes nothing else of what has
been observed anew. -/
theorem view_restore (interface : String) (orders : RebuildOrders) (previous s : Snapshot) :
    (restore interface orders previous s).view
      = s.view.renotify (restoredNotify previous.incidents) := by
  ext1
  · funext key
    simp only [Snapshot.view, restore, View.renotify, lookup_restoreTrackers, lookup_restoreNotify]
    cases s.trackers.lookup key with
    | none => rfl
    | some current =>
        simp only [Option.map_some]
        cases s.incidents.lookup current.incidentID with
        | none => rfl
        | some incident => rfl
  · funext id
    exact lookup_restoreNotify _ _ _ _

end Logthing
