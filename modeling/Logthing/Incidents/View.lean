import Logthing.Incidents.Timers

/-!
# Trackers and incidents as functions

What becomes of trackers and incidents depends neither on the outbox nor on the order of any loop.
`View` is that part of a snapshot, as functions, and this file gives it its own semantics:
`View.settle now` lets every timer that is due at `now` run out at once.

`Consistent` is the representation invariant: trackers and incidents, two maps the code updates by
hand, describe the same outages.  A turn of `advanceLocked` keeps it (`Consistent.fire`) and does
not change what the view settles to (`settle_fire`), so `advanceLocked` is `View.settle` whatever
the order of its turns.

**Main results.**  `advance_view` is that refinement, and `Consistent.advance` says the invariant
survives it.
-/

namespace Logthing

/-! ## Views -/

/-- The trackers and incidents of a snapshot. -/
@[ext]
structure View where
  trackers : String → Option Tracker
  incidents : String → Option Incident

/-- What a snapshot shows. -/
def Snapshot.view (s : Snapshot) : View :=
  ⟨fun key => s.trackers.lookup key, fun id => s.incidents.lookup id⟩

/-- Snapshots that show the same have the same trackers and incidents. -/
lemma eq_of_view_eq {s s' : Snapshot} (h : s.view = s'.view) :
    s.trackers = s'.trackers ∧ s.incidents = s'.incidents :=
  ⟨Finmap.ext_lookup fun key => congrFun (congrArg View.trackers h) key,
    Finmap.ext_lookup fun id => congrFun (congrArg View.incidents h) id⟩

/-- One tracker stored and one incident stored or deleted. -/
def View.set (v : View) (key : String) (current : Tracker) (id : String)
    (incident : Option Incident) : View :=
  ⟨Function.update v.trackers key (some current), Function.update v.incidents id incident⟩

/-- The state of an incident whose tracker is in this phase, if the phase has an incident. -/
def Phase.openState : Phase → Option State
  | .pendingFailure => some .pendingFailure
  | .active => some .active
  | .pendingRecovery => some .pendingRecovery
  | .unset | .healthy => none

/-- The key of the tracker an incident belongs to. -/
def Incident.key (incident : Incident) : String := trackerKey incident.hostname incident.interface

/-- The interfaces evidence is recognised for. -/
def Engine.interfaces (eng : Engine) : List String := [eng.interface, "wwan", "tethering"]

/-! ## The representation invariant -/

/-- An open tracker and its incident say the same. -/
structure Agrees (key : String) (current : Tracker) (incident : Incident) : Prop where
  key : incident.key = key
  state : current.phase.openState = some incident.state
  startedAt : incident.startedAt = current.pendingSince
  notify : incident.notify = current.notify
  activatedAt : incident.activatedAt = none ↔ current.phase = .pendingFailure
  recovery : current.phase = .pendingRecovery →
    incident.recoveryFirstAt = some current.recoverySince

/-- What holds of an incident by itself: its ID comes from what opened it, it has the engine's
durations, and it has a time of resolution exactly when it is resolved. -/
structure WellFormed (eng : Engine) (id : String) (incident : Incident) : Prop where
  id_eq : incident.id = id
  origin : ∃ messageID, id
    = eng.ids.incidentID incident.hostname incident.interface incident.startedAt messageID
  ruleVersion_eq : incident.ruleVersion = 3
  interface_mem : incident.interface ∈ eng.interfaces
  downAfter_eq : incident.downAfter = eng.downAfter
  recoveredAfter_eq : incident.recoveredAfter = eng.recoveredAfter
  resolved : incident.state = .resolved ↔ incident.resolvedAt ≠ none
  activated : incident.state = .resolved → incident.activatedAt ≠ none
  activatedAt_eq : ∀ {at_}, incident.activatedAt = some at_ →
    at_ = incident.startedAt + eng.downAfter

/-- **The representation invariant**, of an engine whose incident IDs do not collide. -/
structure Consistent (eng : Engine) (v : View) : Prop where
  injective : eng.ids.Injective
  keyed : ∀ {key current}, v.trackers key = some current →
    ∃ hostname, ∃ interface ∈ eng.interfaces, key = trackerKey hostname interface
  names : ∀ {key current}, v.trackers key = some current → current.phase.openState ≠ none →
    ∃ incident, v.incidents current.incidentID = some incident ∧ Agrees key current incident
  closed : ∀ {key current}, v.trackers key = some current → current.phase.openState = none →
    current = { phase := .healthy, lastEvidenceAt := current.lastEvidenceAt }
  wellFormed : ∀ {id incident}, v.incidents id = some incident → WellFormed eng id incident
  named : ∀ {id incident}, v.incidents id = some incident → incident.state ≠ .resolved →
    ∃ current, v.trackers incident.key = some current ∧ current.phase.openState ≠ none ∧
      current.incidentID = id

lemma WellFormed.ne_empty {eng : Engine} {id : String} {incident : Incident}
    (h : WellFormed eng id incident) : id ≠ "" := by
  obtain ⟨messageID, rfl⟩ := h.origin
  exact eng.ids.nonempty _ _ _ _

lemma Tracker.open_of_pending {current : Tracker} (h : current.pending = true) :
    current.phase.openState ≠ none := by
  rw [Tracker.pending, Bool.or_eq_true, decide_eq_true_eq, decide_eq_true_eq] at h
  rcases h with h | h
  · rw [h]
    exact Option.some_ne_none _
  · rw [h]
    exact Option.some_ne_none _

namespace Consistent

variable {eng : Engine} {v : View}

lemma empty (injective : eng.ids.Injective) : Consistent eng ⟨fun _ => none, fun _ => none⟩ where
  injective
  keyed h := nomatch h
  names h _ := nomatch h
  closed h _ := nomatch h
  wellFormed h := nomatch h
  named h _ := nomatch h

/-- Different trackers name different incidents. -/
lemma key_eq (h : Consistent eng v) {key key' : String} {current current' : Tracker}
    (hc : v.trackers key = some current) (hopen : current.phase.openState ≠ none)
    (hc' : v.trackers key' = some current') (hopen' : current'.phase.openState ≠ none)
    (hid : current.incidentID = current'.incidentID) : key = key' := by
  obtain ⟨incident, hincident, hagrees⟩ := h.names hc hopen
  obtain ⟨incident', hincident', hagrees'⟩ := h.names hc' hopen'
  rw [hid, hincident'] at hincident
  rw [← hagrees.key, ← hagrees'.key, Option.some.inj hincident]

/-- Two open incidents of one tracker's key are one. -/
lemma id_eq_of_key (h : Consistent eng v) {id id' : String}
    {incident incident' : Incident} (hi : v.incidents id = some incident)
    (hi' : v.incidents id' = some incident') (hs : incident.state ≠ .resolved)
    (hs' : incident'.state ≠ .resolved) (hkey : incident.key = incident'.key) : id = id' := by
  obtain ⟨current, hc, -, rfl⟩ := h.named hi hs
  obtain ⟨current', hc', -, rfl⟩ := h.named hi' hs'
  rw [hkey, hc'] at hc
  rw [Option.some.inj hc]

/-- **Storing a tracker with its incident** keeps the invariant, if the tracker that was there had
no other incident, the incident had no other tracker, and the two agree. -/
lemma set (h : Consistent eng v) {key id : String} {current : Tracker}
    {incident : Option Incident}
    (hkey : ∃ hostname, ∃ interface ∈ eng.interfaces, key = trackerKey hostname interface)
    (hbefore : ∀ {before}, v.trackers key = some before → before.phase.openState ≠ none →
      before.incidentID = id)
    (hother : ∀ {before}, v.incidents id = some before → before.key = key)
    (hwf : ∀ {i}, incident = some i → WellFormed eng id i ∧ i.key = key)
    (hopen : current.phase.openState ≠ none → current.incidentID = id ∧
      ∃ i, incident = some i ∧ Agrees key current i)
    (hclosed : current.phase.openState = none →
      current = { phase := .healthy, lastEvidenceAt := current.lastEvidenceAt } ∧
        ∀ {i}, incident = some i → i.state = .resolved) :
    Consistent eng (v.set key current id incident) where
  injective := h.injective
  keyed {k c} hc := by
    simp only [View.set, Function.update_apply] at hc
    split_ifs at hc with hk
    · rw [hk]
      exact hkey
    · exact h.keyed hc
  names {k c} hc ho := by
    simp only [View.set, Function.update_apply] at hc ⊢
    split_ifs at hc with hk
    · obtain rfl := Option.some.inj hc
      obtain ⟨hid, i, hi, hagrees⟩ := hopen ho
      rw [hk, if_pos hid]
      exact ⟨i, hi, hagrees⟩
    · obtain ⟨i, hi, hagrees⟩ := h.names hc ho
      rw [if_neg]
      · exact ⟨i, hi, hagrees⟩
      · intro hid
        rw [hid] at hi
        exact hk (hagrees.key.symm.trans (hother hi))
  closed {k c} hc ho := by
    simp only [View.set, Function.update_apply] at hc
    split_ifs at hc with hk
    · obtain rfl := Option.some.inj hc
      exact (hclosed ho).1
    · exact h.closed hc ho
  wellFormed {i x} hx := by
    simp only [View.set, Function.update_apply] at hx
    split_ifs at hx with hi
    · rw [hi]
      exact (hwf hx).1
    · exact h.wellFormed hx
  named {i x} hx hstate := by
    simp only [View.set, Function.update_apply] at hx ⊢
    split_ifs at hx with hi
    · have hxkey := (hwf hx).2
      by_cases ho : current.phase.openState = none
      · exact absurd ((hclosed ho).2 hx) hstate
      · exact ⟨current, if_pos hxkey, ho, by rw [hi]; exact (hopen ho).1⟩
    · obtain ⟨c, hc, ho, hid⟩ := h.named hx hstate
      refine ⟨c, ?_, ho, hid⟩
      rw [if_neg]
      · exact hc
      · intro hxkey
        rw [hxkey] at hc
        exact hi (hid.symm.trans (hbefore hc ho))

end Consistent

/-! ## Timers that run out -/

/-- A pending tracker whose timer has run out. -/
def Tracker.fired (current : Tracker) : Tracker :=
  if current.phase = .pendingFailure then { current with phase := .active }
  else { phase := .healthy, lastEvidenceAt := current.lastEvidenceAt }

/-- The incident of a pending tracker whose timer has run out. -/
def Incident.fired (current : Tracker) (incident : Incident) : Incident :=
  if current.phase = .pendingFailure then
    { incident with
      state := .active, activatedAt := some (current.dueAt incident), notify := current.notify }
  else { incident with state := .resolved, resolvedAt := some (current.dueAt incident) }

/-- The tracker after every timer that is due has run out. -/
def View.settledTracker (now : Time) (v : View) (current : Tracker) : Tracker :=
  match v.incidents current.incidentID with
  | some incident => if current.dueBy now incident then current.fired else current
  | none => current

/-- The incident after every timer that is due has run out. -/
def View.settledIncident (now : Time) (v : View) (incident : Incident) : Incident :=
  match v.trackers incident.key with
  | some current =>
      if current.incidentID = incident.id ∧ current.dueBy now incident then incident.fired current
      else incident
  | none => incident

/-- Every timer that is due at `now` runs out. -/
def View.settle (now : Time) (v : View) : View :=
  ⟨fun key => (v.trackers key).map (v.settledTracker now),
    fun id => (v.incidents id).map (v.settledIncident now)⟩

/-- A turn of the loop, on views. -/
def View.fire (v : View) (key : String) (current : Tracker) (incident : Incident) : View :=
  v.set key current.fired incident.id (some (incident.fired current))

@[simp] lemma Incident.fired_key (current : Tracker) (incident : Incident) :
    (incident.fired current).key = incident.key := by
  rw [Incident.fired]
  split_ifs
  · rfl
  · rfl

@[simp] lemma Incident.fired_id (current : Tracker) (incident : Incident) :
    (incident.fired current).id = incident.id := by
  rw [Incident.fired]
  split_ifs
  · rfl
  · rfl

lemma Tracker.fired_pending (current : Tracker) : current.fired.pending = false := by
  rw [Tracker.fired]
  split_ifs
  · rfl
  · rfl

lemma Tracker.not_dueBy_fired (now : Time) (current : Tracker) (incident : Incident) :
    ¬ current.fired.dueBy now incident := by
  rintro ⟨hpending, -⟩
  rw [current.fired_pending] at hpending
  exact Bool.noConfusion hpending

namespace Consistent

variable {eng : Engine} {v : View} {key : String} {current : Tracker} {incident : Incident}

/-- **A turn keeps the invariant.** -/
lemma fire (h : Consistent eng v) (hc : v.trackers key = some current)
    (hpending : current.pending = true) (hi : v.incidents current.incidentID = some incident) :
    Consistent eng (v.fire key current incident) := by
  have hopen := Tracker.open_of_pending hpending
  obtain ⟨i, hi', hagrees⟩ := h.names hc hopen
  obtain rfl : incident = i := Option.some.inj (hi.symm.trans hi')
  have hwf := h.wellFormed hi
  have hid : incident.id = current.incidentID := hwf.id_eq
  rw [View.fire, hid]
  refine h.set (h.keyed hc) (fun hb _ => ?_) (fun hb => ?_) (fun hf => ?_) (fun ho => ?_)
    fun ho => ?_
  · rw [hc] at hb
    rw [Option.some.inj hb]
  · rw [hi] at hb
    rw [← Option.some.inj hb]
    exact hagrees.key
  · obtain rfl := Option.some.inj hf
    refine ⟨?_, by rw [Incident.fired_key, hagrees.key]⟩
    rw [Incident.fired]
    split_ifs with hphase
    · have hnone : incident.resolvedAt = none := by
        by_contra hne
        have hstate := hagrees.state
        rw [hwf.resolved.mpr hne, hphase] at hstate
        exact absurd hstate (by decide)
      exact
        { hwf with
          id_eq := hid
          resolved := by simp [hnone]
          activated := fun hs => State.noConfusion hs
          activatedAt_eq := fun hat => by
            rw [← Option.some.inj hat, Tracker.dueAt, if_pos hphase, ← hagrees.startedAt,
              ← hwf.downAfter_eq] }
    · exact
        { hwf with
          id_eq := hid
          resolved := by simp
          activated := fun _ hnone => hphase (hagrees.activatedAt.mp hnone) }
  · by_cases hphase : current.phase = .pendingFailure
    · refine ⟨by rw [Tracker.fired, if_pos hphase], _, rfl, ?_⟩
      rw [Tracker.fired, Incident.fired, if_pos hphase, if_pos hphase]
      exact ⟨hagrees.key, rfl, hagrees.startedAt, rfl, by simp, fun hp => Phase.noConfusion hp⟩
    · rw [Tracker.fired, if_neg hphase] at ho
      exact absurd rfl ho
  · by_cases hphase : current.phase = .pendingFailure
    · rw [Tracker.fired, if_pos hphase] at ho
      exact absurd ho (by simp [Phase.openState])
    · rw [Tracker.fired, if_neg hphase]
      refine ⟨rfl, fun hf => ?_⟩
      obtain rfl := Option.some.inj hf
      rw [Incident.fired, if_neg hphase]

/-- **A turn does not change what the view settles to**, if its timer is due. -/
lemma settle_fire (h : Consistent eng v) {now : Time} (hc : v.trackers key = some current)
    (hi : v.incidents current.incidentID = some incident) (hdue : current.dueBy now incident) :
    (v.fire key current incident).settle now = v.settle now := by
  have hopen := Tracker.open_of_pending hdue.1
  obtain ⟨i, hi', hagrees⟩ := h.names hc hopen
  obtain rfl : incident = i := Option.some.inj (hi.symm.trans hi')
  have hid : incident.id = current.incidentID := (h.wellFormed hi).id_eq
  ext1
  · funext k
    simp only [View.settle, View.fire, View.set, Function.update_apply]
    split_ifs with hk
    · -- the tracker itself: fired now or when settling
      rw [hk, hc, Option.map_some, Option.map_some, View.settledTracker, View.settledTracker, hi]
      simp only [hdue, if_true]
      split
      · rw [if_neg (current.not_dueBy_fired _ _)]
      · rfl
    · cases hother : v.trackers k with
      | none => rfl
      | some other =>
          simp only [Option.map_some, Option.some.injEq, View.settledTracker,
            Function.update_apply, hid]
          split_ifs with hsame
          · -- another tracker that named the same incident would not be pending
            rw [hsame, hi]
            by_cases hpending : other.pending = true
            · exact absurd (h.key_eq hother (Tracker.open_of_pending hpending) hc hopen hsame) hk
            · simp [Tracker.dueBy, hpending]
          · rfl
  · funext id
    simp only [View.settle, View.fire, View.set, Function.update_apply, hid]
    split_ifs with hsame
    · rw [hsame, hi, Option.map_some, Option.map_some, View.settledIncident, View.settledIncident,
        Incident.fired_key, hagrees.key, hc]
      simp only [Function.update_apply, if_true, hid, hdue, true_and]
      rw [if_neg fun hf => current.not_dueBy_fired _ _ hf.2]
    · cases hother : v.incidents id with
      | none => rfl
      | some other =>
          have hotherID : other.id = id := (h.wellFormed hother).id_eq
          simp only [Option.map_some, Option.some.injEq, View.settledIncident,
            Function.update_apply]
          split_ifs with hkey
          · have hne : ¬ current.incidentID = other.id := by
              rw [hotherID]
              exact fun heq => hsame heq.symm
            rw [hkey, hc]
            simp only [hne, false_and, if_false]
            rw [if_neg fun hf => current.not_dueBy_fired _ _ hf.2]
          · rfl

/-- Nothing due, nothing settles. -/
lemma settle_eq_self (h : Consistent eng v) {now : Time}
    (hidle : ∀ {key current incident}, v.trackers key = some current →
      v.incidents current.incidentID = some incident → ¬ current.dueBy now incident) :
    v.settle now = v := by
  ext1
  · funext k
    cases hc : v.trackers k with
    | none => simp [View.settle, hc]
    | some current =>
        simp only [View.settle, hc, Option.map_some, Option.some.injEq, View.settledTracker]
        cases hi : v.incidents current.incidentID with
        | none => rfl
        | some incident => exact if_neg (hidle hc hi)
  · funext id
    cases hi : v.incidents id with
    | none => simp [View.settle, hi]
    | some incident =>
        have hid := (h.wellFormed hi).id_eq
        simp only [View.settle, hi, Option.map_some, Option.some.injEq, View.settledIncident]
        cases hc : v.trackers incident.key with
        | none => rfl
        | some current =>
            refine if_neg fun hf => ?_
            rw [← hid, ← hf.1] at hi
            exact hidle hc hi hf.2

end Consistent

/-! ## The tracker a turn is about -/

/-- The tracker is due, and none that is due comes before it. -/
structure Fires (interface : String) (now : Time) (v : View) (key : String) (current : Tracker)
    (incident : Incident) : Prop where
  tracker_eq : v.trackers key = some current
  incident_eq : v.incidents current.incidentID = some incident
  due : current.dueBy now incident
  first : ∀ {key' current' incident'}, v.trackers key' = some current' →
    v.incidents current'.incidentID = some incident' → current'.dueBy now incident' →
    current.rank interface incident ≤ current'.rank interface incident'

/-- Nothing is due. -/
def View.Idle (now : Time) (v : View) : Prop :=
  ∀ {key current incident}, v.trackers key = some current →
    v.incidents current.incidentID = some incident → ¬ current.dueBy now incident

section

variable {eng : Engine} {s : Snapshot} (h : Consistent eng s.view) {order : Traversal String}
  {now : Time}

include h

lemma selects_nextDueTracker : Selects eng.interface s.incidents now (order.visit s.trackers) none
    (nextDueTracker eng.interface order now s) := by
  refine selects_selectDue fun kv hkv hpending => ?_
  have hc : s.view.trackers kv.1 = some kv.2 := (order.mem_visit _ _ _).mp hkv
  obtain ⟨incident, hi, -⟩ := h.names hc (Tracker.open_of_pending hpending)
  exact ⟨incident, hi⟩

lemma idle_of_nextDueTracker (hnone : nextDueTracker eng.interface order now s = none) :
    s.view.Idle now := by
  have hselects := @selects_nextDueTracker eng s h order now
  rw [hnone] at hselects
  intro key current incident hc hi hdue
  exact hselects.2 (key, current) ((order.mem_visit _ _ _).mpr hc) incident hi hdue

lemma fires_of_nextDueTracker {key : String} {current : Tracker}
    (hsome : nextDueTracker eng.interface order now s = some (key, current)) :
    ∃ incident, Fires eng.interface now s.view key current incident := by
  have hselects := @selects_nextDueTracker eng s h order now
  rw [hsome] at hselects
  obtain ⟨selected, heq, horigin, -, hfirst⟩ := hselects
  rcases horigin with hnone | ⟨hmem, incident, hi, hdue, hrank⟩
  · exact absurd hnone (by simp)
  · refine ⟨incident, (order.mem_visit _ _ _).mp hmem, hi, hdue, fun hc' hi' hdue' => ?_⟩
    rw [← hrank]
    exact hfirst (_, _) ((order.mem_visit _ _ _).mpr hc') _ hi' hdue'

end

/-! ## `advanceLocked` settles -/

lemma view_activate {interface : String} {orders : Orders} {key : String} {current : Tracker}
    {incident : Incident} {s : Snapshot} (hphase : current.phase = .pendingFailure) :
    (activate interface orders key current incident s).view = s.view.fire key current incident := by
  ext1
  · funext k
    simp only [Snapshot.view, activate, View.fire, View.set, Function.update_apply,
      Dict.lookup_insert_ite, Tracker.fired, hphase, if_true]
  · funext id
    simp only [Snapshot.view, activate, View.fire, View.set, Function.update_apply,
      Dict.lookup_insert_ite, Incident.fired, hphase, if_true, Tracker.dueAt]

lemma view_resolve {interface : String} {key : String} {current : Tracker} {incident : Incident}
    {s : Snapshot} (hphase : ¬ current.phase = .pendingFailure) :
    (resolve interface key current incident s).view = s.view.fire key current incident := by
  ext1
  · funext k
    simp only [Snapshot.view, resolve, View.fire, View.set, Function.update_apply,
      Dict.lookup_insert_ite, Tracker.fired, hphase, if_false]
  · funext id
    simp only [Snapshot.view, resolve, View.fire, View.set, Function.update_apply,
      Dict.lookup_insert_ite, Incident.fired, hphase, if_false, Tracker.dueAt]

lemma view_advanceOne {interface : String} {orders : Orders} {key : String} {current : Tracker}
    {incident : Incident} {s : Snapshot}
    (hi : s.incidents.lookup current.incidentID = some incident) :
    (advanceOne interface orders key current s).view = s.view.fire key current incident := by
  rw [advanceOne, hi]
  by_cases hphase : current.phase = .pendingFailure
  · simp only [if_pos hphase]
    exact view_activate hphase
  · simp only [if_neg hphase]
    exact view_resolve hphase

/-- **The run rule of `advanceLocked`.**  What holds at the start and survives every turn for the
due tracker of least rank holds at the end, when nothing is due any more. -/
lemma advance_induction {eng : Engine} {now : Time} (P : Snapshot → Prop)
    (hstep : ∀ {s : Snapshot} {orders : Orders} {key : String} {current : Tracker}
      {incident : Incident}, Consistent eng s.view → P s →
      Fires eng.interface now s.view key current incident →
      P (advanceOne eng.interface orders key current s)) (orders : Schedule) (s : Snapshot)
    (h : Consistent eng s.view) (hP : P s) :
    P (advance eng.interface orders now s).1 ∧
      Consistent eng (advance eng.interface orders now s).1.view ∧
      (advance eng.interface orders now s).1.view.Idle now := by
  induction orders, s using advance.induct eng.interface now with
  | case1 orders s hnone =>
      rw [advance]
      split
      · exact ⟨hP, h, idle_of_nextDueTracker h hnone⟩
      · rename_i hsome
        rw [hnone] at hsome
        cases hsome
  | case2 orders s key current hsome ih =>
      obtain ⟨incident, hfires⟩ := fires_of_nextDueTracker h hsome
      have hview : (advanceOne eng.interface (orders 0) key current s).view
          = s.view.fire key current incident := view_advanceOne hfires.incident_eq
      rw [advance]
      split
      · rename_i hnone
        rw [hsome] at hnone
        cases hnone
      · rename_i key' current' hsome'
        obtain ⟨rfl, rfl⟩ := Prod.mk.inj (Option.some.inj (hsome.symm.trans hsome'))
        refine ih ?_ (hstep h hP hfires)
        rw [hview]
        exact h.fire hfires.tracker_eq hfires.due.1 hfires.incident_eq

section

variable {eng : Engine} {s : Snapshot} (h : Consistent eng s.view) (orders : Schedule) {now : Time}

include h

/-- **The invariant survives `advanceLocked`.** -/
lemma Consistent.advance : Consistent eng (advance eng.interface orders now s).1.view :=
  (advance_induction (fun _ => True) (fun _ _ _ => trivial) orders s h trivial).2.1

/-- What the view settles to later is not changed by `advanceLocked`. -/
lemma settle_advance {later : Time} (hle : now ≤ later) :
    (Logthing.advance eng.interface orders now s).1.view.settle later = s.view.settle later := by
  refine (advance_induction (fun s' => s'.view.settle later = s.view.settle later)
    (fun hcons hP hfires => ?_) orders s h rfl).1
  rw [view_advanceOne hfires.incident_eq,
    hcons.settle_fire hfires.tracker_eq hfires.incident_eq ⟨hfires.due.1, hfires.due.2.trans hle⟩]
  exact hP

/-- **`advanceLocked` settles the view**, whatever the order of its loops. -/
theorem advance_view :
    (Logthing.advance eng.interface orders now s).1.view = s.view.settle now := by
  obtain ⟨-, hcons, hidle⟩ :=
    advance_induction (fun _ => True) (fun _ _ _ => trivial) orders s h trivial
  rw [← settle_advance h orders le_rfl]
  exact (hcons.settle_eq_self hidle).symm

end

/-- **The invariant survives settling.** -/
lemma Consistent.settle {eng : Engine} {s : Snapshot} (h : Consistent eng s.view) (now : Time) :
    Consistent eng (s.view.settle now) := by
  rw [← advance_view h sortedSchedule]
  exact h.advance sortedSchedule

/-- Where nothing is due, `advanceLocked` does nothing. -/
lemma advance_of_idle {eng : Engine} {s : Snapshot} (h : Consistent eng s.view)
    (orders : Schedule) {now : Time} (hidle : s.view.Idle now) :
    advance eng.interface orders now s = (s, false) := by
  rw [advance]
  split
  · rfl
  · rename_i key current hsome
    obtain ⟨incident, hfires⟩ := fires_of_nextDueTracker h hsome
    exact absurd hfires.due (hidle hfires.tracker_eq hfires.incident_eq)

/-- Settling early is part of settling later. -/
lemma settle_settle {eng : Engine} {s : Snapshot} (h : Consistent eng s.view) {now later : Time}
    (hle : now ≤ later) : (s.view.settle now).settle later = s.view.settle later := by
  rw [← advance_view h sortedSchedule, settle_advance h sortedSchedule hle]

end Logthing
