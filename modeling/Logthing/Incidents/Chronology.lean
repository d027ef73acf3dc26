import Logthing.Incidents.History
import Logthing.Incidents.Observing

/-!
# The chronology of a view

`View.history` is the history that the incidents of a view tell.  `advanceLocked` continues it in
its order: every turn comes after everything the history of its host has so far (`Ordered`), which
a turn preserves because the tracker that goes first has the least rank (`Ordered.fire`).

`AtRest A` is how a view is left between operations at a time `A`: nothing recorded after `A` and
no timer that runs out before it.  `AtRest.settle` and `AtRest.observe` are how it moves on.
-/

namespace Logthing

/-! ## The history of a view -/

/-- What the history keeps of an incident. -/
def Incident.activation (incident : Incident) : Option Activation :=
  incident.activatedAt.map fun activatedAt =>
    { hostname := incident.hostname, interface := incident.interface, notify := incident.notify
      activatedAt, resolvedAt := incident.resolvedAt }

/-- The activated incidents of a view. -/
def View.history (v : View) : History := fun id => (v.incidents id).bind Incident.activation

lemma history_eq_some {v : View} {id : String} {a : Activation} :
    v.history id = some a ↔ ∃ incident, v.incidents id = some incident ∧
      incident.activatedAt = some a.activatedAt ∧ incident.hostname = a.hostname ∧
      incident.interface = a.interface ∧ incident.notify = a.notify ∧
      incident.resolvedAt = a.resolvedAt := by
  simp only [View.history, Option.bind_eq_some_iff, Incident.activation, Option.map_eq_some_iff]
  constructor
  · rintro ⟨incident, hi, at_, hat, rfl⟩
    exact ⟨incident, hi, hat, rfl, rfl, rfl, rfl⟩
  · rintro ⟨incident, hi, hat, hhost, hinterface, hnotify, hresolved⟩
    refine ⟨incident, hi, a.activatedAt, hat, ?_⟩
    rw [hhost, hinterface, hnotify, hresolved]

lemma Consistent.colonFree {eng : Engine} {v : View} (h : Consistent eng v) {id : String}
    {a : Activation} (ha : v.history id = some a) : ':' ∉ id.toList := by
  obtain ⟨incident, hi, -⟩ := history_eq_some.mp ha
  obtain ⟨messageID, hid⟩ := (h.wellFormed hi).origin
  rw [hid]
  exact eng.ids.noColon _ _ _ _

section

variable {eng : Engine} {v : View} (h : Consistent eng v) {key : String} {current : Tracker}
  {incident : Incident} (hc : v.trackers key = some current)
  (hi : v.incidents current.incidentID = some incident)

include h hc hi

/-- A pending tracker's incident, with what it has in common with the tracker. -/
lemma Consistent.agrees_of_pending (hpending : current.pending = true) :
    Agrees key current incident := by
  obtain ⟨i, hi', hagrees⟩ := h.names hc (Tracker.open_of_pending hpending)
  rwa [Option.some.inj (hi.symm.trans hi')]

lemma Consistent.resolvedAt_of_pending (hpending : current.pending = true) :
    incident.resolvedAt = none := by
  by_contra hne
  exact (h.agrees_of_pending hc hi hpending).not_resolved ((h.wellFormed hi).resolved.mpr hne)

/-- A timer that runs out on a pending failure adds an outage to the history. -/
lemma history_fire_failure (hphase : current.phase = .pendingFailure) :
    (v.fire key current incident).history = Function.update v.history incident.id
        (some ⟨incident.hostname, incident.interface, current.notify, current.dueAt incident, none⟩) ∧
      v.history incident.id = none := by
  have hpending : current.pending = true := by simp [Tracker.pending, hphase]
  have hid : incident.id = current.incidentID := (h.wellFormed hi).id_eq
  have hagrees := h.agrees_of_pending hc hi hpending
  constructor
  · funext id
    simp only [View.history, View.fire, View.set, Function.update_apply]
    split_ifs with hk
    · simp [Incident.fired, hphase, Incident.activation, h.resolvedAt_of_pending hc hi hpending]
    · rfl
  · simp [View.history, hid, hi, Incident.activation, hagrees.activatedAt.mpr hphase]

/-- A timer that runs out on a pending recovery resolves an outage of the history. -/
lemma history_fire_recovery (hpending : current.pending = true)
    (hphase : ¬ current.phase = .pendingFailure) :
    (v.fire key current incident).history
        = v.history.resolve incident.id (current.dueAt incident) ∧
      ∃ at_, v.history incident.id
        = some ⟨incident.hostname, incident.interface, incident.notify, at_, none⟩ := by
  have hid : incident.id = current.incidentID := (h.wellFormed hi).id_eq
  have hagrees := h.agrees_of_pending hc hi hpending
  constructor
  · funext id
    simp only [View.history, View.fire, View.set, Function.update_apply, History.resolve]
    split_ifs with hk
    · rw [hk, hid, hi]
      simp only [Option.bind_some, Incident.fired, if_neg hphase, Incident.activation,
        Option.map_map]
      rfl
    · cases v.incidents id with
      | none => rfl
      | some i =>
          simp only [Option.bind_some]
          cases i.activation <;> rfl
  · cases hat : incident.activatedAt with
    | none => exact absurd (hagrees.activatedAt.mp hat) hphase
    | some at_ =>
        refine ⟨at_, ?_⟩
        simp [View.history, hid, hi, Incident.activation, hat,
          h.resolvedAt_of_pending hc hi hpending]

end

/-! ## In order -/

/-- Whatever timer is running, everything its host's history has comes before it. -/
def Ordered (interface : String) (v : View) : Prop :=
  ∀ ⦃key : String⦄ ⦃current : Tracker⦄ ⦃incident : Incident⦄, v.trackers key = some current →
    v.incidents current.incidentID = some incident → current.pending = true →
    Behind interface incident.hostname v.history (current.rank interface incident)

/-- The tracker that goes first ranks before every other that is pending. -/
lemma Fires.rank_le {interface : String} {now : Time} {v : View} {key key' : String}
    {current current' : Tracker} {incident incident' : Incident}
    (hfires : Fires interface now v key current incident) (hc' : v.trackers key' = some current')
    (hi' : v.incidents current'.incidentID = some incident') (hpending : current'.pending = true) :
    current.rank interface incident ≤ current'.rank interface incident' := by
  by_cases hdue : current'.dueAt incident' ≤ now
  · exact hfires.first hc' hi' ⟨hpending, hdue⟩
  · exact (Prod.Lex.toLex_lt_toLex.mpr (Or.inl (hfires.due.2.trans_lt (not_le.mp hdue)))).le

/-- What a turn adds to a history has the rank of its timer. -/
lemma Behind.update {interface hostname id : String} {H : History} {a : Activation}
    {rank : ℤ ×ₗ ℕ} (h : Behind interface hostname H rank) (hnew : H id = none)
    (hopen : a.resolvedAt = none) (hrank : a.rank interface ≤ rank) :
    Behind interface hostname (Function.update H id (some a)) rank := by
  intro k x hx hhost
  rcases (history_update hnew).mp hx with ⟨-, rfl⟩ | hx
  · exact ⟨hrank, fun r hr => absurd (hopen.symm.trans hr) (by simp)⟩
  · exact h k x hx hhost

lemma Behind.resolve {interface hostname id : String} {H : History} {r : Time} {rank : ℤ ×ₗ ℕ}
    (h : Behind interface hostname H rank) (hrank : toLex (r, 0) ≤ rank) :
    Behind interface hostname (H.resolve id r) rank := by
  intro k x hx hhost
  obtain ⟨y, hy, rfl⟩ := Option.map_eq_some_iff.mp hx
  refine ⟨(h k y hy hhost).1, fun r' hr' => ?_⟩
  by_cases hk : k = id
  · simp only [if_pos hk] at hr'
    rw [← Option.some.inj hr']
    exact hrank
  · simp only [if_neg hk] at hr'
    exact (h k y hy hhost).2 r' hr'

section

variable {eng : Engine} {v : View} (h : Consistent eng v) {now : Time} {key : String}
  {current : Tracker} {incident : Incident}
  (hfires : Fires eng.interface now v key current incident)

include h hfires

/-- A timer that is still running after a turn was running before it. -/
lemma pending_of_fire {key' : String} {current' : Tracker} {incident' : Incident}
    (hc' : (v.fire key current incident).trackers key' = some current')
    (hi' : (v.fire key current incident).incidents current'.incidentID = some incident')
    (hpending : current'.pending = true) :
    v.trackers key' = some current' ∧ v.incidents current'.incidentID = some incident' := by
  have hid : incident.id = current.incidentID := (h.wellFormed hfires.incident_eq).id_eq
  simp only [View.fire, View.set, Function.update_apply] at hc' hi'
  split_ifs at hc' with hk
  · rw [← Option.some.inj hc', current.fired_pending] at hpending
    exact absurd hpending Bool.false_ne_true
  · refine ⟨hc', ?_⟩
    split_ifs at hi' with hsame
    · refine absurd ?_ hk
      exact h.key_eq hc' (Tracker.open_of_pending hpending) hfires.tracker_eq
        (Tracker.open_of_pending hfires.due.1) (hsame.trans hid)
    · exact hi'

/-- **A turn keeps the order.** -/
lemma Ordered.fire (hordered : Ordered eng.interface v) :
    Ordered eng.interface (v.fire key current incident) := by
  intro key' current' incident' hc' hi' hpending
  obtain ⟨hc, hi⟩ := pending_of_fire h hfires hc' hi' hpending
  have hbehind := hordered hc hi hpending
  have hle := hfires.rank_le hc hi hpending
  by_cases hphase : current.phase = .pendingFailure
  · obtain ⟨hhistory, hnew⟩ :=
      history_fire_failure h hfires.tracker_eq hfires.incident_eq hphase
    rw [hhistory]
    refine hbehind.update hnew rfl ?_
    rw [Tracker.rank, Tracker.priority, if_pos hphase] at hle
    exact hle
  · obtain ⟨hhistory, -⟩ :=
      history_fire_recovery h hfires.tracker_eq hfires.incident_eq hfires.due.1 hphase
    rw [hhistory]
    refine hbehind.resolve ?_
    rw [Tracker.rank, Tracker.priority, if_neg hphase] at hle
    exact hle

/-- **A turn keeps the history orderly.** -/
lemma Orderly.fire (hordered : Ordered eng.interface v) (horderly : Orderly v.history) :
    Orderly (v.fire key current incident).history := by
  have hbehind := hordered hfires.tracker_eq hfires.incident_eq hfires.due.1
  rcases eq_or_ne current.phase .pendingFailure with hphase | hphase
  · obtain ⟨hhistory, hnew⟩ :=
      history_fire_failure h hfires.tracker_eq hfires.incident_eq hphase
    rw [hhistory]
    refine horderly.activate hnew rfl fun id' a' ha' hhost hinterface => ?_
    obtain ⟨i', hi', hat, hhost', hinterface', -, hresolved⟩ := history_eq_some.mp ha'
    have hagrees := h.agrees_of_pending hfires.tracker_eq hfires.incident_eq hfires.due.1
    cases hr : a'.resolvedAt with
    | some r => exact ⟨r, rfl, hbehind.resolvedAt_le ha' hhost hr⟩
    | none =>
        -- the other outage would be the one whose timer runs out
        have hstate : i'.state ≠ .resolved := fun hs =>
          (h.wellFormed hi').resolved.mp hs (hresolved.trans hr)
        have hkey : i'.key = incident.key := by
          rw [Incident.key, Incident.key, hhost'.trans hhost, hinterface'.trans hinterface]
        have hid := h.id_eq_of_key hi' hfires.incident_eq hstate hagrees.not_resolved hkey
        rw [hid] at hi'
        obtain rfl := Option.some.inj (hi'.symm.trans hfires.incident_eq)
        rw [hagrees.activatedAt.mpr hphase] at hat
        cases hat
  · obtain ⟨hhistory, at_, ha⟩ :=
      history_fire_recovery h hfires.tracker_eq hfires.incident_eq hfires.due.1 hphase
    rw [Tracker.rank, Tracker.priority, if_neg hphase] at hbehind
    rw [hhistory]
    exact horderly.resolve ha rfl (hbehind.activatedAt_lt ha rfl)

end

/-! ## At rest -/

/-- When a pending tracker's timer runs out, by the engine's durations. -/
def Tracker.deadline (eng : Engine) (current : Tracker) : Time :=
  if current.phase = .pendingFailure then current.pendingSince + eng.downAfter
  else current.recoverySince + eng.recoveredAfter

lemma Consistent.dueAt_eq {eng : Engine} {v : View} (h : Consistent eng v) {id : String}
    {incident : Incident} (hi : v.incidents id = some incident) (current : Tracker) :
    current.dueAt incident = current.deadline eng := by
  rw [Tracker.dueAt, Tracker.deadline, (h.wellFormed hi).downAfter_eq,
    (h.wellFormed hi).recoveredAfter_eq]

/-- No timer runs out until a time. -/
def View.Quiet (eng : Engine) (at_ : Time) (v : View) : Prop :=
  ∀ ⦃key current⦄, v.trackers key = some current → current.pending = true →
    at_ < current.deadline eng

namespace View.Quiet

variable {eng : Engine} {v : View} {at_ : Time}

lemma mono {before : Time} (h : v.Quiet eng at_) (hle : before ≤ at_) : v.Quiet eng before :=
  fun _ _ hc hpending => hle.trans_lt (h hc hpending)

/-- Where no timer runs out, none is due. -/
lemma idle (h : Consistent eng v) (hquiet : v.Quiet eng at_) : v.Idle at_ := by
  intro key current incident hc hi hdue
  refine absurd hdue.2 (not_le.mpr ?_)
  rw [h.dueAt_eq hi]
  exact hquiet hc hdue.1

/-- What is still pending after settling runs out later. -/
lemma of_settle (h : Consistent eng v) (now : Time) : (v.settle now).Quiet eng now := by
  intro key current hc hpending
  obtain ⟨before, hbefore, rfl⟩ := Option.map_eq_some_iff.mp hc
  rw [View.settledTracker] at hpending ⊢
  cases hi : v.incidents before.incidentID with
  | none =>
      rw [hi] at hpending
      obtain ⟨i, hi', -⟩ := h.names hbefore (Tracker.open_of_pending hpending)
      rw [hi] at hi'
      cases hi'
  | some incident =>
      rw [hi] at hpending
      simp only at hpending ⊢
      split_ifs at hpending ⊢ with hdue
      · rw [before.fired_pending] at hpending
        exact absurd hpending Bool.false_ne_true
      · rw [← h.dueAt_eq hi]
        exact not_le.mp fun hle => hdue ⟨hpending, hle⟩

/-- Evidence starts timers that run out after it. -/
lemma react {evidence : Evidence} (h : v.Quiet eng evidence.at_) (notifyEligible : Bool) :
    (v.react eng evidence notifyEligible).Quiet eng evidence.at_ := by
  intro key current hc hpending
  simp only [View.react] at hc
  split_ifs at hc
  · exact h hc hpending
  simp only [View.set, Function.update_apply] at hc
  split_ifs at hc
  swap
  · exact h hc hpending
  have hsame : (v.current evidence.key).pending = true →
      evidence.at_ < (v.current evidence.key).deadline eng := fun hp =>
    h (View.current_of_open (Tracker.open_of_pending hp)) hp
  have hdown := eng.downAfter_pos
  have hrecovered := eng.recoveredAfter_pos
  obtain rfl := Option.some.inj hc
  -- the timer is new, or was running before
  cases honline : evidence.online <;> cases hphase : (v.current evidence.key).phase <;>
    simp [reaction, honline, hphase, Tracker.pending, Tracker.deadline, openedTracker]
      at hpending hsame ⊢ <;> assumption

/-- A sighting starts no timer. -/
lemma sight (h : v.Quiet eng at_) (evidence : Evidence) : (v.sight evidence).Quiet eng at_ := by
  intro key current hc hpending
  simp only [View.sight, View.set, Function.update_apply] at hc
  split_ifs at hc
  swap
  · exact h hc hpending
  obtain rfl := Option.some.inj hc
  by_cases hphase : (v.current evidence.key).phase = .unset
  · simp [Tracker.sighted, hphase, Tracker.pending] at hpending
  · simp only [Tracker.sighted, if_neg hphase] at hpending ⊢
    have hp : (v.current evidence.key).pending = true := hpending
    have hlt := h (View.current_of_open (Tracker.open_of_pending hp)) hp
    exact hlt

end View.Quiet

/-- **At rest at a time**: no timer runs out until then, and nothing is recorded after it. -/
structure AtRest (eng : Engine) (at_ : Time) (v : View) : Prop where
  timers : ∀ ⦃key current⦄, v.trackers key = some current → current.pending = true →
    at_ < current.deadline eng
  past : ∀ ⦃id a⦄, v.history id = some a →
    a.activatedAt ≤ at_ ∧ ∀ r, a.resolvedAt = some r → r ≤ at_

namespace AtRest

variable {eng : Engine} {v : View} {at_ : Time}

lemma ordered (hrest : AtRest eng at_ v) (h : Consistent eng v) : Ordered eng.interface v := by
  intro key current incident hc hi hpending id a ha _
  have hlt : at_ < current.dueAt incident := by
    rw [h.dueAt_eq hi]
    exact hrest.timers hc hpending
  obtain ⟨hactivated, hresolved⟩ := hrest.past ha
  exact ⟨(Prod.Lex.toLex_lt_toLex.mpr (Or.inl (hactivated.trans_lt hlt))).le,
    fun r hr => (Prod.Lex.toLex_lt_toLex.mpr (Or.inl ((hresolved r hr).trans_lt hlt))).le⟩

/-- **Letting timers run out** leaves a view at rest at any time they do not outrun. -/
lemma settle (hrest : AtRest eng at_ v) (h : Consistent eng v) {now later : Time}
    (hle : at_ ≤ later) (hnow : later ≤ now)
    (hfire : ∀ ⦃key current⦄, v.trackers key = some current → current.pending = true →
      current.deadline eng ≤ now → current.deadline eng ≤ later) :
    AtRest eng later (v.settle now) where
  timers := (View.Quiet.of_settle h now).mono hnow
  past id a ha := by
    have hold : v.history id = some a →
        a.activatedAt ≤ later ∧ ∀ r, a.resolvedAt = some r → r ≤ later := fun hbefore =>
      ⟨(hrest.past hbefore).1.trans hle, fun r hr => ((hrest.past hbefore).2 r hr).trans hle⟩
    simp only [View.history, View.settle, Option.bind_eq_some_iff, Option.map_eq_some_iff] at ha
    obtain ⟨_, ⟨incident, hi, rfl⟩, ha⟩ := ha
    have hsame : v.settledIncident now incident = incident →
        a.activatedAt ≤ later ∧ ∀ r, a.resolvedAt = some r → r ≤ later := by
      intro heq
      rw [heq] at ha
      exact hold (by rw [View.history, hi]; exact ha)
    rw [View.settledIncident] at ha hsame
    cases hc : v.trackers incident.key with
    | none => exact hsame (by rw [hc])
    | some current =>
        rw [hc] at ha hsame
        simp only at ha hsame
        split_ifs at ha hsame with hdue
        swap
        · exact hsame rfl
        have hid : incident.id = id := (h.wellFormed hi).id_eq
        have hi' : v.incidents current.incidentID = some incident := by rw [hdue.1, hid, hi]
        have hdeadline : current.dueAt incident ≤ later := by
          rw [h.dueAt_eq hi]
          refine hfire hc hdue.2.1 ?_
          rw [← h.dueAt_eq hi]
          exact hdue.2.2
        by_cases hphase : current.phase = .pendingFailure
        · simp only [Incident.fired, if_pos hphase, Incident.activation, Option.map_some,
            Option.some.injEq] at ha
          rw [← ha]
          refine ⟨hdeadline, fun r hr => ?_⟩
          rw [h.resolvedAt_of_pending hc hi' hdue.2.1] at hr
          cases hr
        · simp only [Incident.fired, if_neg hphase, Incident.activation,
            Option.map_eq_some_iff] at ha
          obtain ⟨t, ht, rfl⟩ := ha
          have hbefore : v.history id
              = some ⟨incident.hostname, incident.interface, incident.notify, t,
                incident.resolvedAt⟩ := by
            simp [View.history, hi, Incident.activation, ht]
          refine ⟨(hrest.past hbefore).1.trans hle, fun r hr => ?_⟩
          rw [← Option.some.inj hr]
          exact hdeadline

end AtRest

/-! ## Evidence does not change the history -/

lemma history_set {v : View} {key id : String} {current : Tracker} {incident : Option Incident}
    (hsame : incident.bind Incident.activation = v.history id) :
    (v.set key current id incident).history = v.history := by
  funext k
  simp only [View.history, View.set, Function.update_apply]
  split_ifs with hk
  · rw [hsame, hk]
    rfl
  · rfl

lemma history_sight (evidence : Evidence) (v : View) : (v.sight evidence).history = v.history :=
  history_set rfl

section

variable {eng : Engine} {v : View} (h : Consistent eng v) {evidence : Evidence}
  (hrest : AtRest eng evidence.at_ v) (notifyEligible : Bool)

include h hrest

/-- An outage that opens is not one the history has, since that was activated later. -/
lemma history_opening {messageID : String} :
    v.history (eng.ids.incidentID evidence.hostname evidence.iface evidence.at_ messageID)
      = none := by
  cases ha : v.history _ with
  | none => rfl
  | some a =>
      obtain ⟨incident, hi, hat, -⟩ := history_eq_some.mp ha
      obtain ⟨messageID', horigin⟩ := (h.wellFormed hi).origin
      obtain ⟨-, -, hstart, -⟩ := h.injective horigin
      have hle := (hrest.past ha).1
      rw [(h.wellFormed hi).activatedAt_eq hat, ← hstart] at hle
      exact absurd hle (not_le.mpr (lt_add_of_pos_right _ eng.downAfter_pos))

/-- **Evidence does not change the history.** -/
lemma history_react : (v.react eng evidence notifyEligible).history = v.history := by
  rw [View.react]
  split_ifs
  · rfl
  refine history_set ?_
  have hopened : (v.current evidence.key).phase.openState ≠ none →
      ∃ i, v.incidents (v.current evidence.key).incidentID = some i ∧
        Agrees evidence.key (v.current evidence.key) i ∧
        WellFormed eng (v.current evidence.key).incidentID i := h.incident_of_open
  cases honline : evidence.online <;> cases hphase : (v.current evidence.key).phase
  case false.unset | false.healthy =>
      simp only [reaction, honline, history_opening h hrest]
      rfl
  case true.unset | true.healthy =>
      simp only [reaction, honline]
      rfl
  all_goals
    rw [hphase] at hopened
    obtain ⟨i, hi, hagrees, -⟩ := hopened (Option.some_ne_none _)
    simp only [reaction, honline, View.history, hi, Option.map_some, Option.bind_some,
      Option.bind_none]
  case false.pendingFailure | true.pendingFailure =>
      have hnone := hagrees.activatedAt.mpr hphase
      simp [Incident.activation, Incident.note, hnone]
  all_goals rfl

/-- **Evidence leaves a view at rest**, if it comes at the time of the rest. -/
lemma AtRest.react : AtRest eng evidence.at_ (v.react eng evidence notifyEligible) where
  past id a ha := by
    rw [history_react h hrest] at ha
    exact hrest.past ha
  timers := View.Quiet.react hrest.timers notifyEligible

end

/-- A sighting leaves a view at rest. -/
lemma AtRest.sight {eng : Engine} {v : View} {at_ : Time} (hrest : AtRest eng at_ v)
    (evidence : Evidence) : AtRest eng at_ (v.sight evidence) where
  past id a ha := by
    rw [history_sight] at ha
    exact hrest.past ha
  timers := View.Quiet.sight hrest.timers evidence

/-- **Observing leaves a view at rest**, at some time until the evidence. -/
lemma AtRest.observe {eng : Engine} {s : Snapshot} (h : Consistent eng s.view) {at_ : Time}
    (hrest : AtRest eng at_ s.view) {evidence : Evidence} (hle : at_ ≤ evidence.at_)
    (orders : Schedule) (notifyEligible : Bool) :
    ∃ later, at_ ≤ later ∧ later ≤ evidence.at_ ∧
      AtRest eng later (s.view.observe eng evidence notifyEligible) := by
  rw [View.observe]
  split_ifs
  · exact ⟨at_, le_rfl, hle, hrest⟩
  · exact ⟨at_, le_rfl, hle, hrest.sight evidence⟩
  · have hsettled := hrest.settle h hle le_rfl fun _ _ _ _ hdue => hdue
    have hconsistent := @Consistent.advance eng s h orders evidence.at_
    rw [advance_view h orders] at hconsistent
    exact ⟨evidence.at_, hle, le_rfl, AtRest.react hconsistent hsettled notifyEligible⟩

end Logthing
