import Logthing.Incidents.Chronology
import Logthing.Incidents.Reachability
import Mathlib.Data.List.DropRight

/-!
# The evidence of an incident

An incident keeps the IDs and references of the evidence it is based on, and times that go back to
it.  `Dossier` says of a list of evidence that it is what an incident is based on: it is a part of
what the engine has been told, in the order it was told, all of it about the incident's interface,
and the fields of the incident are what this list makes them.

**Main results.**  `incidents_documented`: in every run, with evidence in any order, each incident
has such a list.
-/

namespace Logthing

/-! ## Dossiers -/

/-- When the interface came up last, if it has not gone down since. -/
def recoveryOf (es : List Evidence) : Option Time :=
  ((es.rtakeWhile Evidence.online).head?).map Evidence.at_

/-- **What an incident is based on**, of the evidence told. -/
structure Dossier (told es : List Evidence) (i : Incident) : Prop where
  told : es.Sublist told
  own : ∀ e ∈ es, e.key = i.key ∧ e.observeOnly = false
  opening : ∃ e, es.head? = some e ∧ e.online = false ∧ e.at_ = i.startedAt
  sorted : es.Pairwise fun e e' => e.at_ ≤ e'.at_
  last : ∃ e, es.getLast? = some e ∧ e.at_ = i.lastEvidenceAt
  ids : i.evidenceIDs = (es.map Evidence.messageID).foldl appendEvidence []
  refs : i.evidenceRefs = (es.map Evidence.sourceRef).foldl appendEvidence []
  recovery : i.recoveryFirstAt = recoveryOf es
  lasting : ∀ r, i.recoveryFirstAt = some r → ∀ e ∈ es, e.at_ < r + i.recoveredAfter
  resolved : ∀ x, i.resolvedAt = some x →
    ∃ r, i.recoveryFirstAt = some r ∧ x = r + i.recoveredAfter

/-- An outage that goes on begins no recovery. -/
def Incident.Quiet (i : Incident) : Prop :=
  i.state = .pendingFailure ∨ i.state = .active → i.recoveryFirstAt = none

lemma recoveryOf_offline {e : Evidence} (h : e.online = false) (es : List Evidence) :
    recoveryOf (es ++ [e]) = none := by
  rw [recoveryOf, List.rtakeWhile_concat_neg _ _ _ (by simp [h])]
  rfl

lemma recoveryOf_online {e : Evidence} (h : e.online = true) (es : List Evidence) :
    recoveryOf (es ++ [e]) = some ((recoveryOf es).getD e.at_) := by
  rw [recoveryOf, List.rtakeWhile_concat_pos _ _ _ h, recoveryOf]
  cases es.rtakeWhile Evidence.online with
  | nil => rfl
  | cons first rest => rfl

namespace Dossier

variable {told es : List Evidence} {i : Incident} {e : Evidence}

/-- No evidence is later than the last. -/
lemma le_last (h : Dossier told es i) : ∀ e ∈ es, e.at_ ≤ i.lastEvidenceAt := by
  obtain ⟨last, hlast, hat⟩ := h.last
  obtain ⟨init, rfl⟩ := List.getLast?_eq_some_iff.mp hlast
  intro e he
  rw [← hat]
  rcases List.mem_append.mp he with hinit | hlast
  · exact (List.pairwise_append.mp h.sorted).2.2 e hinit last List.mem_cons_self
  · rw [List.mem_singleton.mp hlast]

/-- The first evidence of an outage. -/
lemma opened (eng : Engine) {e : Evidence} (hoffline : e.online = false)
    (honly : e.observeOnly = false) (told : List Evidence) (notifyEligible : Bool) (id : String) :
    Dossier (told ++ [e]) [e] (openedIncident eng e notifyEligible id) where
  told := List.sublist_append_right _ _
  own e' he' := by
    rw [List.mem_singleton.mp he']
    exact ⟨rfl, honly⟩
  opening := ⟨e, rfl, hoffline, rfl⟩
  sorted := List.pairwise_singleton _ _
  last := ⟨e, rfl, rfl⟩
  ids := rfl
  refs := rfl
  recovery := (recoveryOf_offline hoffline []).symm
  lasting _ hr := by cases hr
  resolved _ hx := by cases hx

/-- **Evidence that is noted** is the last one then. -/
lemma note (h : Dossier told es i) (hkey : e.key = i.key) (honly : e.observeOnly = false)
    (hlater : i.lastEvidenceAt ≤ e.at_) (hopen : i.resolvedAt = none) {state : State}
    {notify : Bool} {recovery : Option Time} (hrecovery : recovery = recoveryOf (es ++ [e]))
    (hlasting : ∀ r, recovery = some r → e.at_ < r + i.recoveredAfter) :
    Dossier (told ++ [e]) (es ++ [e])
      { i.note e with state, recoveryFirstAt := recovery, notify } where
  told := h.told.append (List.Sublist.refl _)
  own e' he' := by
    rcases List.mem_append.mp he' with he' | he'
    · exact h.own e' he'
    · rw [List.mem_singleton.mp he']
      exact ⟨hkey, honly⟩
  opening := by
    obtain ⟨first, hfirst, hopening⟩ := h.opening
    exact ⟨first, by rw [List.head?_append, hfirst, Option.some_or], hopening⟩
  sorted := by
    refine List.pairwise_append.mpr ⟨h.sorted, List.pairwise_singleton _ _, fun e' he' e'' he'' => ?_⟩
    rw [List.mem_singleton.mp he'']
    exact (h.le_last e' he').trans hlater
  last := ⟨e, List.getLast?_concat, rfl⟩
  ids := by
    rw [List.map_append, List.foldl_append, ← h.ids]
    rfl
  refs := by
    rw [List.map_append, List.foldl_append, ← h.refs]
    rfl
  recovery := hrecovery
  lasting r hr e' he' := by
    rcases List.mem_append.mp he' with he' | he'
    · exact ((h.le_last e' he').trans hlater).trans_lt (hlasting r hr)
    · rw [List.mem_singleton.mp he']
      exact hlasting r hr
  resolved x hx := by
    have hx' : i.resolvedAt = some x := hx
    rw [hopen] at hx'
    cases hx'

/-- **A timer that runs out** changes nothing of it. -/
lemma fired {current : Tracker} {key : String} (h : Dossier told es i)
    (hagrees : Agrees key current i) (hpending : current.pending = true) :
    Dossier told es (i.fired current) := by
  rw [Incident.fired]
  split_ifs with hphase
  · refine { h with resolved := fun x hx => ?_ }
    exact h.resolved x hx
  · have hrecovering : current.phase = .pendingRecovery := by
      rw [Tracker.pending, Bool.or_eq_true, decide_eq_true_eq, decide_eq_true_eq] at hpending
      exact hpending.resolve_left hphase
    refine { h with resolved := fun x hx => ⟨current.recoverySince, hagrees.recovery hrecovering, ?_⟩ }
    rw [← Option.some.inj hx, Tracker.dueAt, if_neg hphase]

end Dossier

/-! ## All incidents -/

/-- Every incident is documented by evidence told, which is not later than the last that its
tracker has seen. -/
structure View.Documented (told : List Evidence) (v : View) : Prop where
  sequenced : v.Sequenced
  each : ∀ ⦃id i⦄, v.incidents id = some i → i.Quiet ∧ ∃ es, Dossier told es i
  behind : ∀ ⦃key i⦄, (v.current key).phase.openState ≠ none →
    v.incidents (v.current key).incidentID = some i → i.lastEvidenceAt ≤ (v.current key).lastEvidenceAt

namespace View.Documented

variable {eng : Engine} {told : List Evidence} {v : View} {evidence : Evidence}

lemma empty : Documented [] ⟨fun _ => none, fun _ => none⟩ where
  sequenced _ := .of_closed rfl
  each _ _ hi := by cases hi
  behind _ _ _ hi := by cases hi

/-- More has been told. -/
lemma weaken (h : v.Documented told) (e : Evidence) : v.Documented (told ++ [e]) where
  sequenced := h.sequenced
  each id i hi := by
    obtain ⟨hquiet, es, hes⟩ := h.each hi
    exact ⟨hquiet, es, { hes with told := hes.told.trans (List.sublist_append_left _ _) }⟩
  behind := h.behind

/-- **Storing a tracker and its incident.** -/
lemma set (h : v.Documented told) {key id : String} {current : Tracker} {incident : Option Incident}
    (hsequenced : (v.set key current id incident).Sequenced)
    (hincident : ∀ i, incident = some i → i.Quiet ∧ ∃ es, Dossier told es i)
    (hopen : current.phase.openState ≠ none →
      current.incidentID = id ∧ ∀ i, incident = some i → i.lastEvidenceAt ≤ current.lastEvidenceAt)
    (hothers : ∀ k, k ≠ key → (v.current k).phase.openState ≠ none → (v.current k).incidentID ≠ id) :
    (v.set key current id incident).Documented told where
  sequenced := hsequenced
  each k i hi := by
    simp only [View.set, Function.update_apply] at hi
    split_ifs at hi
    · exact hincident i hi
    · exact h.each hi
  behind k i hk hi := by
    have hcurrent : (v.set key current id incident).current k
        = if k = key then current else v.current k := by
      simp only [View.current, View.set, Function.update_apply]
      split_ifs <;> rfl
    rw [hcurrent] at hk hi ⊢
    simp only [View.set] at hi
    split_ifs at hk hi ⊢ with hkey
    · obtain ⟨rfl, hbehind⟩ := hopen hk
      rw [Function.update_self] at hi
      exact hbehind i hi
    · rw [Function.update_of_ne (hothers k hkey hk)] at hi
      exact h.behind hk hi

/-- **Timers** leave every incident documented. -/
lemma settle (h : v.Documented told) (hc : Consistent eng v) (now : Time) :
    (v.settle now).Documented told where
  sequenced := h.sequenced.settle now
  each id j hj := by
    rcases incidents_settle hc hj with hj | ⟨i, current, hi, hcurrent, hid, hdue, rfl⟩
    · exact h.each hj
    · obtain ⟨hquiet, es, hes⟩ := h.each hi
      have hnamed : v.incidents current.incidentID = some i := by rw [hid, hi]
      obtain ⟨i', hi', hagrees⟩ := hc.names hcurrent (Tracker.open_of_pending hdue.1)
      obtain rfl : i = i' := Option.some.inj (hnamed.symm.trans hi')
      refine ⟨?_, es, hes.fired hagrees hdue.1⟩
      rw [Incident.fired]
      split_ifs with hphase
      · refine fun _ => hquiet (Or.inl ?_)
        have hstate := hagrees.state
        rw [hphase] at hstate
        exact (Option.some.inj hstate).symm
      · rintro (hs | hs)
        · cases hs
        · cases hs
  behind key j hopen hj := by
    rw [lastEvidenceAt_settle]
    have hsame : ∃ i, v.incidents (v.current key).incidentID = some i ∧
        (v.current key).phase.openState ≠ none ∧ j.lastEvidenceAt = i.lastEvidenceAt := by
      have hbefore : (v.current key).phase.openState ≠ none ∧
          ((v.settle now).current key).incidentID = (v.current key).incidentID := by
        rcases current_settle v now key with ⟨hsame, -⟩ | ⟨i, -, -, hdue, hfired⟩
        · rw [hsame] at hopen ⊢
          exact ⟨hopen, rfl⟩
        · refine ⟨Tracker.open_of_pending hdue.1, ?_⟩
          rw [hfired, Tracker.fired] at hopen ⊢
          split_ifs at hopen ⊢
          · rfl
          · exact absurd rfl hopen
      rw [hbefore.2] at hj
      rcases incidents_settle hc hj with hj | ⟨i, current, hi, -, -, -, rfl⟩
      · exact ⟨j, hj, hbefore.1, rfl⟩
      · refine ⟨i, hi, hbefore.1, ?_⟩
        rw [Incident.fired]
        split_ifs <;> rfl
    obtain ⟨i, hi, hbefore, hlast⟩ := hsame
    rw [hlast]
    exact h.behind hbefore hi

/-- Evidence that is not stale is not earlier than what is known of an open outage. -/
lemma le_of_fresh (h : v.Documented told) {key : String}
    (hfresh : ¬ evidence.Stale (v.current key)) (hopen : (v.current key).phase.openState ≠ none)
    {i : Incident} (hi : v.incidents (v.current key).incidentID = some i) :
    i.lastEvidenceAt ≤ evidence.at_ := by
  obtain ⟨hseen, -⟩ := (h.sequenced key).seen hopen
  exact (h.behind hopen hi).trans (not_lt.mp fun hlt => hfresh ⟨hseen, hlt⟩)

/-- A sighting. -/
lemma sight (h : v.Documented told) (hzero : evidence.at_ ≠ 0)
    (hfresh : ¬ evidence.Stale (v.current evidence.key)) : (v.sight evidence).Documented told where
  sequenced := h.sequenced.sight hzero hfresh
  each id i hi := by
    rw [incidents_sight] at hi
    exact h.each hi
  behind key i hopen hi := by
    rw [incidents_sight] at hi
    rw [current_sight] at hopen hi ⊢
    split_ifs at hopen hi ⊢ with hkey
    · rw [hkey, Tracker.sighted] at hopen hi ⊢
      split_ifs at hopen hi ⊢
      · exact absurd rfl hopen
      · exact h.le_of_fresh hfresh hopen hi
    · exact h.behind hopen hi

/-- **Evidence that counts** is noted by the incident it is about. -/
lemma react (h : v.Documented told) (hc : Consistent eng v) (hzero : evidence.at_ ≠ 0)
    (honly : evidence.observeOnly = false) (hfresh : ¬ evidence.Stale (v.current evidence.key))
    (hidle : ∀ i, v.incidents (v.current evidence.key).incidentID = some i →
      ¬ (v.current evidence.key).dueBy evidence.at_ i) (notifyEligible : Bool) :
    (v.react eng evidence notifyEligible).Documented (told ++ [evidence]) := by
  have hsequenced : (v.react eng evidence notifyEligible).Sequenced :=
    h.sequenced.react hzero hfresh notifyEligible
  rw [View.react] at hsequenced ⊢
  split_ifs at hsequenced ⊢ with hmasked
  · exact h.weaken evidence
  have hothers : ∀ k, k ≠ evidence.key → (v.current k).phase.openState ≠ none →
      (v.current k).incidentID ≠ (reaction eng evidence notifyEligible
        { v.current evidence.key with lastEvidenceAt := evidence.at_ }).id := by
    intro k hk hopen hid
    obtain ⟨i, hi, hagrees, -⟩ := hc.incident_of_open hopen
    rw [hid] at hi
    exact hk (hagrees.key.symm.trans (hc.key_of_reaction hi))
  refine (h.weaken evidence).set hsequenced ?_ ?_ hothers
  all_goals
    cases honline : evidence.online <;> cases hphase : (v.current evidence.key).phase
  case refine_1.false.unset | refine_1.false.healthy =>
      simp only [reaction, honline]
      rintro _ hi
      rw [← Option.some.inj hi]
      exact ⟨fun _ => rfl, _, .opened eng honline honly told notifyEligible _⟩
  case refine_1.true.unset | refine_1.true.healthy =>
      simp only [reaction, honline]
      exact fun i hi => (h.weaken evidence).each hi
  case refine_1.true.pendingFailure => exact fun i hi => by simp [reaction, honline] at hi
  case refine_2.false.unset | refine_2.false.healthy =>
      simp only [reaction, honline]
      refine fun _ => ⟨rfl, fun i hi => ?_⟩
      rw [← Option.some.inj hi]
      exact le_rfl
  case refine_2.true.unset | refine_2.true.healthy | refine_2.true.pendingFailure =>
      simp only [reaction, honline]
      exact fun hopen => absurd rfl hopen
  -- what is left notes the evidence in the incident of an open tracker
  all_goals
    have hopen : (v.current evidence.key).phase.openState ≠ none := by
      rw [hphase]
      exact Option.some_ne_none _
    obtain ⟨i, hi, hagrees, hwf⟩ := hc.incident_of_open hopen
    simp only [reaction, honline, hi, Option.map_some]
  case refine_2.false.pendingFailure | refine_2.false.active | refine_2.false.pendingRecovery |
      refine_2.true.active | refine_2.true.pendingRecovery =>
      refine fun _ => ⟨trivial, fun j hj => ?_⟩
      rw [← Option.some.inj hj]
      exact le_rfl
  all_goals
    rintro _ hj
    rw [← Option.some.inj hj]
    obtain ⟨hquiet, es, hes⟩ := h.each hi
    have hnone := hc.resolvedAt_eq_none (View.current_of_open hopen) hopen hi
    have hlater := h.le_of_fresh hfresh hopen hi
    have hstate := hagrees.state
    rw [hphase] at hstate
  case refine_1.false.pendingFailure | refine_1.false.active =>
      have hrecovery : i.recoveryFirstAt = none := hquiet (by simp [← Option.some.inj hstate])
      refine ⟨fun _ => hrecovery, _, hes.note hagrees.key.symm honly hlater hnone ?_ ?_⟩
      · exact hrecovery.trans (recoveryOf_offline honline es).symm
      · exact fun r hr => absurd (hr.symm.trans hrecovery) (Option.some_ne_none r)
  case refine_1.false.pendingRecovery =>
      refine ⟨fun _ => rfl, _, hes.note hagrees.key.symm honly hlater hnone ?_ ?_⟩
      · rw [recoveryOf_offline honline]
      · exact fun r hr => absurd hr.symm (Option.some_ne_none r)
  case refine_1.true.active =>
      have hrecovery : i.recoveryFirstAt = none := hquiet (Or.inr (Option.some.inj hstate).symm)
      refine ⟨fun hs => by simp at hs, _, hes.note hagrees.key.symm honly hlater hnone ?_ ?_⟩
      · rw [recoveryOf_online honline, ← hes.recovery, hrecovery, Option.getD_none]
      · intro r hr
        rw [← Option.some.inj hr, hwf.recoveredAfter_eq]
        exact lt_add_of_pos_right _ eng.recoveredAfter_pos
  case refine_1.true.pendingRecovery =>
      have hrecovery := hagrees.recovery hphase
      refine ⟨fun hs => by simp [← Option.some.inj hstate, Incident.note] at hs, _,
        hes.note hagrees.key.symm honly hlater hnone ?_ ?_⟩
      · rw [recoveryOf_online honline, ← hes.recovery, hrecovery, Option.getD_some]
      · intro r hr
        have hnot : ¬ (v.current evidence.key).dueAt i ≤ evidence.at_ := fun hle =>
          hidle i hi ⟨by simp [Tracker.pending, hphase], hle⟩
        rw [Tracker.dueAt, if_neg (by rw [hphase]; decide), not_le] at hnot
        rwa [← Option.some.inj (hrecovery.symm.trans hr)]

/-- **An observation** tells its evidence. -/
lemma take {s : Snapshot} (h : s.view.Documented told) (hc : Consistent eng s.view)
    (o : Observation) : (s.view.take eng o).Documented (told ++ (eng.evidence o).toList) := by
  rw [View.take]
  cases hevidence : eng.evidence o with
  | none => simpa using h
  | some evidence =>
      obtain ⟨-, hzero, -⟩ := evidence_eq_some hevidence
      simp only [View.observe, Option.toList_some]
      split_ifs with hstale honly
      · exact h.weaken evidence
      · exact (h.sight hzero hstale).weaken evidence
      · have hsettled : Consistent eng (s.view.settle evidence.at_) := hc.settle evidence.at_
        -- no timer is due by the time of the evidence when the timers have run out
        have hidle : (s.view.settle evidence.at_).Idle evidence.at_ :=
          View.Quiet.idle hsettled (View.Quiet.of_settle hc evidence.at_)
        refine (h.settle hc evidence.at_).react hsettled hzero (by simpa using honly) ?_ ?_ _
        · rwa [Evidence.Stale, lastEvidenceAt_settle]
        · intro i hi hdue
          exact hidle (View.current_of_open (Tracker.open_of_pending hdue.1)) hi hdue

/-- **All observations** of a call. -/
lemma observeAll {s : Snapshot} (h : s.view.Documented told) (hc : Consistent eng s.view)
    (orders : ℕ → Schedule) (os : List Observation) :
    (Logthing.observeAll eng orders os s).view.Documented (told ++ os.filterMap eng.evidence) := by
  induction os generalizing orders s told with
  | nil =>
      rw [List.filterMap_nil, List.append_nil]
      exact h
  | cons o os ih =>
      have htaken := h.take hc o
      rw [← view_observeLocked hc (orders 0) o] at htaken
      have hrest := ih htaken (hc.observeLocked (orders 0) o) fun n => orders (n + 1)
      rw [List.append_assoc] at hrest
      rw [Logthing.observeAll, List.filterMap_cons]
      cases hevidence : eng.evidence o with
      | none => rwa [hevidence] at hrest
      | some evidence => rwa [hevidence] at hrest

/-- Flags do not matter. -/
lemma renotify (h : v.Documented told) (notify : String → Incident → Bool) :
    (v.renotify notify).Documented told := by
  have hcurrent : ∀ key, ∃ flag,
      (v.renotify notify).current key = { v.current key with notify := flag } := by
    intro key
    simp only [View.renotify, View.current]
    cases hc : v.trackers key with
    | none => exact ⟨_, rfl⟩
    | some current =>
        simp only [Option.map_some, Option.getD_some]
        cases v.incidents current.incidentID with
        | none => exact ⟨_, rfl⟩
        | some incident => exact ⟨_, rfl⟩
  refine ⟨fun key => ?_, fun id i hi => ?_, fun key i hopen hi => ?_⟩
  · obtain ⟨flag, hflag⟩ := hcurrent key
    rw [hflag]
    exact ⟨(h.sequenced key).seen, (h.sequenced key).recovery⟩
  · obtain ⟨before, hbefore, rfl⟩ := Option.map_eq_some_iff.mp hi
    obtain ⟨hquiet, es, hes⟩ := h.each hbefore
    exact ⟨hquiet, es, { hes with }⟩
  · obtain ⟨flag, hflag⟩ := hcurrent key
    rw [hflag] at hopen hi ⊢
    obtain ⟨before, hbefore, rfl⟩ := Option.map_eq_some_iff.mp hi
    have hlast : before.lastEvidenceAt ≤ (v.current key).lastEvidenceAt := h.behind hopen hbefore
    exact hlast

end View.Documented

/-! ## Runs -/

/-- The evidence that the engine has been told after a call, when it was told this before; what is
observed in a rebuild is all that it has been told. -/
def Operation.told (eng : Engine) (told : List Evidence) : Operation → List Evidence
  | .observe _ message notifyEligible _ =>
      told ++ (eng.evidence ⟨message, notifyEligible, ""⟩).toList
  | .apply _ observations _ _ _ => told ++ observations.filterMap eng.evidence
  | .rebuild _ _ observations _ _ _ => observations.filterMap eng.evidence
  | _ => told

/-- **Every call** leaves the incidents documented. -/
lemma View.Documented.call {eng : Engine} {svc : Service} {told : List Evidence}
    (h : svc.state.view.Documented told) (hc : Consistent eng svc.state.view) (op : Operation) :
    (svc.call eng op).state.view.Documented (op.told eng told) := by
  have hmark : ∀ id change outcome,
      (svc.markJob id change outcome).1.state.view.Documented told := by
    intro id change outcome
    obtain ⟨jobs, hstate⟩ := svc.markJob_state id change outcome
    rw [hstate]
    exact h
  cases op with
  | observe orders message notifyEligible outcome =>
      rw [hc.view_call.1]
      exact h.take hc _
  | apply orders observations cursors checkpointAt outcome =>
      rw [Service.call, Service.apply_state]
      exact h.observeAll hc orders observations
  | tick orders now outcome =>
      rw [hc.view_call.2.2]
      exact h.settle hc now
  | rebuild orders after observations cursors checkpointAt outcome =>
      rw [Service.call, Service.rebuild_state, view_restore]
      have hempty : Consistent eng (emptySnapshot cursors checkpointAt).view := .empty hc.injective
      have hnone : (emptySnapshot cursors checkpointAt).view.Documented [] := .empty
      exact (hnone.observeAll hempty orders observations).renotify _
  | markNotificationSent id adapter externalID at_ outcome => exact hmark _ _ _
  | markNotificationFailed id message next permanent outcome => exact hmark _ _ _
  | setCursors cursors outcome =>
      rw [Service.call, Service.setCursors_state]
      exact h

/-- The run lemma. -/
lemma View.Documented.run {eng : Engine} {svc : Service} {told : List Evidence}
    (h : svc.state.view.Documented told) (hc : Consistent eng svc.state.view)
    (ops : List Operation) :
    (svc.run eng ops).state.view.Documented (ops.foldl (Operation.told eng) told) := by
  induction ops generalizing svc told with
  | nil => exact h
  | cons op ops ih => exact ih (h.call hc op) (hc.call op)

/-- What has been told is about an interface that evidence is recognised for. -/
lemma iface_of_mem_told {eng : Engine} {told : List Evidence}
    (h : ∀ e ∈ told, e.iface ∈ eng.interfaces) (ops : List Operation) :
    ∀ e ∈ ops.foldl (Operation.told eng) told, e.iface ∈ eng.interfaces := by
  have hobserved : ∀ (os : List Observation), ∀ e ∈ os.filterMap eng.evidence,
      e.iface ∈ eng.interfaces := by
    intro os e he
    obtain ⟨o, -, ho⟩ := List.mem_filterMap.mp he
    exact (evidence_eq_some ho).2.2
  induction ops generalizing told with
  | nil => exact h
  | cons op ops ih =>
      refine ih fun e he => ?_
      cases op with
      | observe orders message notifyEligible outcome =>
          rcases List.mem_append.mp he with he | he
          · exact h e he
          · exact (evidence_eq_some (Option.mem_toList.mp he)).2.2
      | apply orders observations cursors checkpointAt outcome =>
          rcases List.mem_append.mp he with he | he
          · exact h e he
          · exact hobserved observations e he
      | rebuild orders after observations cursors checkpointAt outcome =>
          exact hobserved observations e he
      | tick | markNotificationSent | markNotificationFailed | setCursors => exact h e he

/-- **Every incident is documented.**  In every state of a run of any calls from `New`, with
evidence in any order, there is for each incident a list of evidence, in the order it was told and
in the order of its times, all of it about the host and the interface of the incident, that the
incident is based on: it began when the first of them reported the interface down, its evidence IDs
and references are those of the list, the last one is the last it knows of, it began to recover
with the first report of the interface coming up after which none of it going down follows, and it
is resolved when the time to recover has passed since, later than all of its evidence. -/
theorem incidents_documented (eng : Engine) (hids : eng.ids.Injective)
    (hnul : '\x00' ∉ eng.interface.toList) (ops : List Operation) (id : String) (i : Incident)
    (hi : (Service.run eng {} ops).state.incidents.lookup id = some i) :
    ∃ es : List Evidence, es.Sublist (ops.foldl (Operation.told eng) []) ∧
      (∀ e ∈ es, e.hostname = i.hostname ∧ e.iface = i.interface ∧ e.observeOnly = false) ∧
      (∃ e, es.head? = some e ∧ e.online = false ∧ e.at_ = i.startedAt) ∧
      es.Pairwise (fun e e' => e.at_ ≤ e'.at_) ∧
      (∃ e, es.getLast? = some e ∧ e.at_ = i.lastEvidenceAt) ∧
      i.evidenceIDs = (es.map Evidence.messageID).foldl appendEvidence [] ∧
      i.evidenceRefs = (es.map Evidence.sourceRef).foldl appendEvidence [] ∧
      i.recoveryFirstAt = recoveryOf es ∧
      ∀ x, i.resolvedAt = some x →
        (∃ r, recoveryOf es = some r ∧ x = r + i.recoveredAfter) ∧ ∀ e ∈ es, e.at_ < x := by
  have hnew : Consistent eng ({} : Service).state.view := .empty hids
  have hdocumented := (View.Documented.empty : ({} : Service).state.view.Documented []).run hnew ops
  have hwf := (hnew.run ops).wellFormed hi
  obtain ⟨-, es, hes⟩ := hdocumented.each hi
  refine ⟨es, hes.told, fun e he => ?_, hes.opening, hes.sorted, hes.last, hes.ids, hes.refs,
    hes.recovery, fun x hx => ?_⟩
  · obtain ⟨hkey, honly⟩ := hes.own e he
    have hiface := iface_of_mem_told (by simp) ops e (hes.told.subset he)
    obtain ⟨hhost, hinterface⟩ := trackerKey_inj hnul hiface hwf.interface_mem hkey
    exact ⟨hhost, hinterface, honly⟩
  · obtain ⟨r, hr, rfl⟩ := hes.resolved x hx
    exact ⟨⟨r, by rw [← hes.recovery, hr], rfl⟩, hes.lasting r hr⟩

/-- The outage of the small run rests on the message that reported it. -/
theorem incidents_documented_wanDown :
    ∃ i, (Service.run sampleEngine {} wanDownRun).state.incidents.lookup "8d4663d6450447b8" = some i ∧
      ∃ es : List Evidence, es.Sublist (wanDownRun.foldl (Operation.told sampleEngine) []) ∧
        (∃ e, es.head? = some e ∧ e.online = false ∧ e.at_ = i.startedAt) ∧
        i.evidenceIDs = (es.map Evidence.messageID).foldl appendEvidence [] := by
  have hsome : ((Service.run sampleEngine {} wanDownRun).state.incidents.lookup
      "8d4663d6450447b8").isSome = true := by decide +kernel
  obtain ⟨i, hi⟩ := Option.isSome_iff_exists.mp hsome
  obtain ⟨es, htold, -, hopening, -, -, hids, -⟩ :=
    incidents_documented sampleEngine sampleIDs_injective (by decide) wanDownRun _ i hi
  exact ⟨i, hi, es, htold, hopening, hids⟩

end Logthing
