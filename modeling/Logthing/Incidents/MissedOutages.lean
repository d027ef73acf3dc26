import Logthing.Incidents.LiveStore
import Logthing.Incidents.Replaying

/-!
# No outage is missed

An outage that is logged when it begins, and that no record shows to have ended in time, is found.
The engine drops evidence that comes too late for its tracker, so this needs that the tracker has
not been moved past the outage before: only an imported record can do that, since live records
bear the time of the clock.

`View.UpTo` is a tracker that has not been moved past a time, and `View.Caught` one that has been
told of an outage by that time, or a view that has the outage on record.

**Main results.**  `outage_not_missed`: whenever a reconcile succeeds once the outage has lasted for
long enough, an incident of its interface that began by then is activated, and not over before.
-/

namespace Logthing

/-! ## Up to a time -/

/-- The tracker has been moved no further than `s`. -/
structure View.UpTo (key : String) (s : Time) (v : View) : Prop where
  seen : (v.current key).lastEvidenceAt ≠ 0 → (v.current key).lastEvidenceAt ≤ s
  since : (v.current key).phase.openState ≠ none → (v.current key).pendingSince ≤ s

/-- The tracker is in the incident `id`, and recovers after `s` if it does. -/
structure Tracker.InOutage (id : String) (s : Time) (current : Tracker) : Prop where
  isOpen : current.phase.openState ≠ none
  names : current.incidentID = id
  recovers : current.phase = .pendingRecovery →
    s < current.recoverySince ∧ s < current.lastEvidenceAt

/-- The tracker has been moved to `s` at least, and there is an incident of its interface that
began by `s`, which it is still in or which was resolved after `s`. -/
structure View.Caught (key : String) (s : Time) (v : View) : Prop where
  known : (v.current key).lastEvidenceAt ≠ 0
  seen : s ≤ (v.current key).lastEvidenceAt
  incident : ∃ id i, v.incidents id = some i ∧ i.key = key ∧ i.startedAt ≤ s ∧
    ((v.current key).InOutage id s ∨
      s < (v.current key).lastEvidenceAt ∧ ∃ r, i.resolvedAt = some r ∧ s < r)

/-! ## Timers -/

section

variable {eng : Engine} {v : View} {key : String} {s : Time}

lemma View.UpTo.settle (hup : v.UpTo key s) (now : Time) : (v.settle now).UpTo key s := by
  refine ⟨?_, ?_⟩
  · rw [lastEvidenceAt_settle]
    exact hup.seen
  · rcases current_settle v now key with ⟨hsame, -⟩ | ⟨i, -, -, hdue, hfired⟩
    · rw [hsame]
      exact hup.since
    · rw [hfired, Tracker.fired]
      split_ifs with hphase
      · exact fun _ => hup.since (Tracker.open_of_pending hdue.1)
      · exact fun hopen => absurd rfl hopen

/-- The incident of an open tracker is not over. -/
lemma settledIncident_of_resolved (h : Consistent eng v) {id : String} {i : Incident}
    (hi : v.incidents id = some i) {r : Time} (hr : i.resolvedAt = some r) (now : Time) :
    (v.settle now).incidents id = some i := by
  have hsettled : (v.settle now).incidents id = some (v.settledIncident now i) := by
    simp [View.settle, hi]
  rw [hsettled, View.settledIncident]
  cases hc : v.trackers i.key with
  | none => rfl
  | some current =>
      simp only
      split_ifs with hdue
      swap
      · rfl
      rw [(h.wellFormed hi).id_eq] at hdue
      rw [← hdue.1] at hi
      rw [h.resolvedAt_eq_none hc (Tracker.open_of_pending hdue.2.1) hi] at hr
      cases hr

/-- **Timers keep what is caught.** -/
lemma View.Caught.settle (hcaught : v.Caught key s) (h : Consistent eng v) (now : Time) :
    (v.settle now).Caught key s := by
  obtain ⟨hknown, hseen, id, i, hi, hkey, hstarted, hcase⟩ := hcaught
  refine ⟨by rwa [lastEvidenceAt_settle], by rwa [lastEvidenceAt_settle], ?_⟩
  rcases hcase with hin | ⟨hlater, r, hr, hlt⟩
  swap
  · exact ⟨id, i, settledIncident_of_resolved h hi hr now, hkey, hstarted,
      Or.inr ⟨by rwa [lastEvidenceAt_settle], r, hr, hlt⟩⟩
  have hcurrent := View.current_of_open hin.isOpen
  have hown : i.id = id := (h.wellFormed hi).id_eq
  have hsettled : (v.settle now).incidents id = some (v.settledIncident now i) := by
    simp [View.settle, hi]
  rw [View.settledIncident, hkey, hcurrent] at hsettled
  rcases current_settle v now key with ⟨hsame, hnot⟩ | ⟨j, -, hj, hdue, hfired⟩
  · simp only at hsettled
    rw [if_neg fun hdue => hnot i (by rw [hin.names, hi]) hdue.2] at hsettled
    exact ⟨id, i, hsettled, hkey, hstarted, Or.inl (by rwa [hsame])⟩
  · rw [hin.names, hi] at hj
    obtain rfl := Option.some.inj hj
    simp only at hsettled
    rw [if_pos ⟨hin.names.trans hown.symm, hdue⟩] at hsettled
    refine ⟨id, _, hsettled, by rw [Incident.fired_key, hkey], ?_, ?_⟩
    · rw [Incident.fired]
      split_ifs
      · exact hstarted
      · exact hstarted
    · rw [hfired]
      by_cases hphase : (v.current key).phase = .pendingFailure
      · refine Or.inl ?_
        rw [Tracker.fired, if_pos hphase]
        exact ⟨Option.some_ne_none _, hin.names, fun hp => Phase.noConfusion hp⟩
      · -- the recovery began after `s`
        have hrecovering : (v.current key).phase = .pendingRecovery := by
          have hpending := hdue.1
          rw [Tracker.pending, Bool.or_eq_true, decide_eq_true_eq, decide_eq_true_eq] at hpending
          exact hpending.resolve_left hphase
        obtain ⟨hsince, hlater⟩ := hin.recovers hrecovering
        refine Or.inr ⟨by rwa [Tracker.fired_lastEvidenceAt], (v.current key).dueAt i, ?_, ?_⟩
        · rw [Incident.fired, if_neg hphase]
        · have hpositive := eng.recoveredAfter_pos
          rw [Tracker.dueAt, if_neg hphase, (h.wellFormed hi).recoveredAfter_eq]
          exact hsince.trans (Int.lt_add_of_pos_right _ hpositive)

end

/-! ## Evidence -/

section

variable {eng : Engine} {v : View} {evidence : Evidence} {key : String} {s : Time}

/-- Evidence that counts moves its tracker. -/
lemma lastEvidenceAt_react (hunmasked : evidence.masked eng (v.current evidence.key) = false)
    (notifyEligible : Bool) :
    ((v.react eng evidence notifyEligible).current evidence.key).lastEvidenceAt = evidence.at_ := by
  rw [View.react, if_neg (by rw [hunmasked]; exact Bool.false_ne_true), current_set_self]
  cases honline : evidence.online <;> cases hphase : (v.current evidence.key).phase <;>
    simp only [reaction, honline, openedTracker]

/-- **Evidence until a time keeps a tracker up to it.** -/
lemma View.UpTo.react (hup : v.UpTo key s) (hfresh : evidence.key = key → evidence.at_ ≤ s)
    (notifyEligible : Bool) : (v.react eng evidence notifyEligible).UpTo key s := by
  by_cases hkey : evidence.key = key
  swap
  · rw [← ne_eq, ne_comm] at hkey
    refine ⟨?_, ?_⟩ <;> rw [current_react_of_ne hkey]
    · exact hup.seen
    · exact hup.since
  have hle := hfresh hkey
  subst hkey
  by_cases hmasked : evidence.masked eng (v.current evidence.key) = true
  · rw [View.react, if_pos hmasked]
    exact hup
  refine ⟨fun _ => ?_, fun hopen => ?_⟩
  · rw [lastEvidenceAt_react (by simpa using hmasked)]
    exact hle
  · rw [View.react, if_neg hmasked, current_set_self] at hopen ⊢
    have hsince := hup.since
    cases honline : evidence.online <;> cases hphase : (v.current evidence.key).phase <;>
      simp only [reaction, honline, hphase, openedTracker, Phase.openState, ne_eq, reduceCtorEq,
        not_false_eq_true, not_true_eq_false, true_implies, false_implies] at hopen hsince ⊢ <;>
      assumption

/-- Evidence that is not too late leaves the incidents that were over before. -/
lemma incidents_react_of_resolved (h : Consistent eng v) {id : String} {i : Incident}
    (hi : v.incidents id = some i) {r : Time} (hr : i.resolvedAt = some r)
    (hstarted : i.startedAt < evidence.at_) (notifyEligible : Bool) :
    (v.react eng evidence notifyEligible).incidents id = some i := by
  rw [View.react]
  split_ifs
  · exact hi
  simp only [View.set, Function.update_apply]
  split_ifs with hid
  swap
  · exact hi
  have hopened : (v.current evidence.key).phase.openState ≠ none →
      v.incidents (v.current evidence.key).incidentID ≠ some i := by
    intro hopen hi
    rw [h.resolvedAt_eq_none (View.current_of_open hopen) hopen hi] at hr
    cases hr
  cases honline : evidence.online <;> cases hphase : (v.current evidence.key).phase <;>
    simp only [reaction, honline, hphase] at hid ⊢
  case false.unset | false.healthy =>
      -- the outage that opens is a later one
      obtain ⟨messageID, horigin⟩ := (h.wellFormed hi).origin
      rw [hid] at horigin
      obtain ⟨-, -, hsame, -⟩ := h.injective horigin
      exact absurd hsame hstarted.ne'
  case true.unset | true.healthy =>
      rw [← hid]
      exact hi
  all_goals exact absurd (hid ▸ hi) (hopened (by rw [hphase]; exact Option.some_ne_none _))

/-- **An outage of the interface that is reported at `s` is caught.** -/
lemma View.UpTo.caught (hup : v.UpTo evidence.key evidence.at_) (h : Consistent eng v)
    (hzero : evidence.at_ ≠ 0) (hoffline : evidence.online = false) (notifyEligible : Bool) :
    (v.react eng evidence notifyEligible).Caught evidence.key evidence.at_ := by
  have hmasked : evidence.masked eng (v.current evidence.key) = false := by
    simp [Evidence.masked, hoffline]
  have hseen := lastEvidenceAt_react hmasked notifyEligible
  refine ⟨by rwa [hseen], hseen.ge, ?_⟩
  rw [View.react, if_neg (by rw [hmasked]; exact Bool.false_ne_true), current_set_self]
  simp only [View.set]
  have hopened : (v.current evidence.key).phase.openState ≠ none →
      ∃ i, v.incidents (v.current evidence.key).incidentID = some i ∧
        Agrees evidence.key (v.current evidence.key) i ∧
        WellFormed eng (v.current evidence.key).incidentID i := h.incident_of_open
  cases hphase : (v.current evidence.key).phase <;> simp only [reaction, hoffline]
  case unset | healthy =>
      exact ⟨_, _, Function.update_self _ _ _, rfl, le_rfl,
        Or.inl ⟨Option.some_ne_none _, rfl, fun hp => Phase.noConfusion hp⟩⟩
  all_goals
    have hopen : (v.current evidence.key).phase.openState ≠ none := by
      rw [hphase]
      exact Option.some_ne_none _
    obtain ⟨i, hi, hagrees, -⟩ := hopened hopen
    have hstarted : i.startedAt ≤ evidence.at_ := hagrees.startedAt.trans_le (hup.since hopen)
    rw [hi, Option.map_some]
    refine ⟨_, _, Function.update_self _ _ _, hagrees.key, hstarted, Or.inl ⟨?_, rfl, ?_⟩⟩
  all_goals simp [Phase.openState]

/-- **Evidence keeps what is caught**, if it does not show the interface up before the outage has
lasted for long enough. -/
lemma View.Caught.react (hcaught : v.Caught key s) (h : Consistent eng v)
    (hquiet : v.Quiet eng evidence.at_)
    (hfresh : evidence.key = key → (v.current key).lastEvidenceAt ≤ evidence.at_)
    (hzero : evidence.at_ ≠ 0)
    (hwindow : evidence.key = key → evidence.online = true → s ≤ evidence.at_ →
      s + eng.downAfter ≤ evidence.at_)
    (notifyEligible : Bool) : (v.react eng evidence notifyEligible).Caught key s := by
  obtain ⟨hknown, hseen, id, i, hi, hikey, hstarted, hcase⟩ := hcaught
  by_cases hkey : evidence.key = key
  swap
  · rw [← ne_eq, ne_comm] at hkey
    refine ⟨?_, ?_, id, i, h.incidents_react_of_ne hi (by rwa [hikey]), hikey, hstarted, ?_⟩ <;>
      rw [current_react_of_ne hkey]
    · exact hknown
    · exact hseen
    · exact hcase
  have hat := hseen.trans (hfresh hkey)
  replace hwindow := hwindow hkey
  have hlate := hfresh hkey
  subst hkey
  by_cases hmasked : evidence.masked eng (v.current evidence.key) = true
  · rw [View.react, if_pos hmasked]
    exact ⟨hknown, hseen, id, i, hi, hikey, hstarted, hcase⟩
  have hafter := lastEvidenceAt_react (v := v) (by simpa using hmasked) notifyEligible
  refine ⟨by rwa [hafter], by rwa [hafter], ?_⟩
  rcases hcase with hin | ⟨hlater, r, hr, hlt⟩
  swap
  · have hbefore := hlater.trans_le hlate
    exact ⟨id, i, incidents_react_of_resolved h hi hr (hstarted.trans_lt hbefore) _, hikey,
      hstarted, Or.inr ⟨by rwa [hafter], r, hr, hlt⟩⟩
  -- the outage goes on, or a recovery begins after it has been activated
  obtain ⟨j, hj, hagrees, hwf⟩ := h.incident_of_open hin.isOpen
  rw [hin.names, hi] at hj
  obtain rfl := Option.some.inj hj
  have hopened := hin.isOpen
  have hrecovers := hin.recovers
  have hnames := hin.names
  have hdeadline := hquiet (View.current_of_open hin.isOpen)
  have hpositive := eng.downAfter_pos
  rw [View.react, if_neg hmasked, current_set_self]
  simp only [View.set]
  cases honline : evidence.online <;> cases hphase : (v.current evidence.key).phase <;>
    simp only [reaction, honline, hnames, hi, Option.map_some]
  case false.unset | false.healthy | true.unset | true.healthy =>
      rw [hphase] at hopened
      exact absurd rfl hopened
  case true.pendingFailure =>
      rw [Tracker.pending, Tracker.deadline, if_pos hphase, hphase, ← hagrees.startedAt]
        at hdeadline
      have hshort := hdeadline rfl
      have hlong := hwindow honline hat
      exact absurd (hlong.trans_lt hshort) (not_lt.mpr (add_le_add_left hstarted _))
  case true.active =>
      have hlong : s < evidence.at_ :=
        (Int.lt_add_of_pos_right _ hpositive).trans_le (hwindow honline hat)
      exact ⟨_, _, Function.update_self _ _ _, hikey, hstarted,
        Or.inl ⟨Option.some_ne_none _, rfl, fun _ => ⟨hlong, hlong⟩⟩⟩
  case true.pendingRecovery =>
      obtain ⟨hsince, hlater⟩ := hrecovers hphase
      exact ⟨_, _, Function.update_self _ _ _, hikey, hstarted, Or.inl
        ⟨by simp [Phase.openState], rfl, fun _ => ⟨hsince, hlater.trans_le hlate⟩⟩⟩
  case false.pendingRecovery =>
      exact ⟨_, _, Function.update_self _ _ _, hikey, hstarted,
        Or.inl ⟨Option.some_ne_none _, rfl, fun hp => Phase.noConfusion hp⟩⟩
  all_goals
    refine ⟨_, _, Function.update_self _ _ _, hikey, hstarted, Or.inl ⟨?_, rfl, ?_⟩⟩
  all_goals simp [Phase.openState]

end

/-! ## Observations -/

section

variable {eng : Engine} {key : String} {t : Time}

/-- An observation until a time keeps a tracker up to it. -/
lemma View.UpTo.take {v : View} (hup : v.UpTo key t) {o : Observation}
    (hfresh : ∀ e, eng.evidence o = some e → e.key = key → e.at_ ≤ t) :
    (v.take eng o).UpTo key t := by
  rw [View.take]
  cases he : eng.evidence o with
  | none => exact hup
  | some e =>
      simp only [View.observe]
      split_ifs
      · exact hup
      · refine ⟨?_, ?_⟩ <;> rw [current_sight] <;> split_ifs with hkey
        · exact fun _ => hfresh e he hkey.symm
        · exact hup.seen
        · intro hopen
          rw [Tracker.sighted] at hopen ⊢
          split_ifs at hopen ⊢
          · exact absurd rfl hopen
          · exact hup.since hopen
        · exact hup.since
      · exact (hup.settle e.at_).react (fun hkey => hfresh e he hkey) o.notifyEligible

/-- **An observation keeps what is caught**, if it does not show the interface up before the outage
has lasted for long enough. -/
lemma View.Caught.take {s : Snapshot} (hcaught : s.view.Caught key t) (h : Consistent eng s.view)
    {o : Observation}
    (hwindow : ∀ e, eng.evidence o = some e → e.key = key → e.observeOnly = false →
      e.online = true → t ≤ e.at_ → t + eng.downAfter ≤ e.at_) :
    (s.view.take eng o).Caught key t := by
  rw [View.take]
  cases he : eng.evidence o with
  | none => exact hcaught
  | some e =>
      obtain ⟨-, hzero, -⟩ := evidence_eq_some he
      have hfresh : ¬ e.Stale (s.view.current e.key) → e.key = key →
          (s.view.current key).lastEvidenceAt ≤ e.at_ := by
        rintro hstale rfl
        exact not_lt.mp fun hlt => hstale ⟨hcaught.known, hlt⟩
      simp only [View.observe]
      split_ifs with hstale honly
      · exact hcaught
      · obtain ⟨hknown, hseen, id, i, hi, hikey, hstarted, hcase⟩ := hcaught
        by_cases hkey : e.key = key
        swap
        · refine ⟨?_, ?_, id, i, by rwa [incidents_sight], hikey, hstarted, ?_⟩ <;>
            rw [current_sight, if_neg (Ne.symm hkey)]
          · exact hknown
          · exact hseen
          · exact hcase
        have hlate := hfresh hstale hkey
        have hsighted : (s.view.sight e).current key = (s.view.current key).sighted e := by
          rw [current_sight, if_pos hkey.symm]
        have hat : ((s.view.current key).sighted e).lastEvidenceAt = e.at_ := rfl
        refine ⟨by rwa [hsighted, hat], by rw [hsighted, hat]; exact hseen.trans hlate, id, i,
          by rwa [incidents_sight], hikey, hstarted, ?_⟩
        rw [hsighted]
        rcases hcase with hin | ⟨hlater, hresolved⟩
        · have hset : (s.view.current key).phase ≠ .unset := by
            intro hunset
            have hopen := hin.isOpen
            rw [hunset] at hopen
            exact hopen rfl
          refine Or.inl ?_
          rw [Tracker.sighted, if_neg hset]
          exact ⟨hin.isOpen, hin.names, fun hp =>
            ⟨(hin.recovers hp).1, (hin.recovers hp).2.trans_le hlate⟩⟩
        · exact Or.inr ⟨hlater.trans_le hlate, hresolved⟩
      · refine (hcaught.settle h e.at_).react (h.settle e.at_) (.of_settle h e.at_) ?_ hzero
          (fun hkey => hwindow e he hkey (by simpa using honly)) o.notifyEligible
        intro hkey
        rw [lastEvidenceAt_settle]
        exact hfresh hstale hkey

/-- **A batch in the order of time catches the outage it reports.** -/
lemma caught_foldl {s : Snapshot} (h : Consistent eng s.view) {os : List Observation}
    (hsorted : os.Pairwise fun o o' => o.message.receivedAt ≤ o'.message.receivedAt)
    {o : Observation} (ho : o ∈ os) {e : Evidence} (he : eng.evidence o = some e)
    (hcounts : e.observeOnly = false) (hoffline : e.online = false)
    (hup : s.view.UpTo e.key e.at_)
    (hwindow : ∀ o' ∈ os, ∀ e', eng.evidence o' = some e' → e'.key = e.key →
      e'.observeOnly = false → e'.online = true → e.at_ ≤ e'.at_ →
      e.at_ + eng.downAfter ≤ e'.at_) :
    (os.foldl (View.take eng) s.view).Caught e.key e.at_ := by
  obtain ⟨before, after, rfl⟩ := List.append_of_mem ho
  obtain ⟨hat, hzero, hiface⟩ := evidence_eq_some he
  -- until the report nothing moves the tracker past it
  obtain ⟨hview, hcons⟩ := view_observeAll (fun _ => sortedSchedule) before h
  have hbefore : (before.foldl (View.take eng) s.view).UpTo e.key e.at_ := by
    refine foldl_take_rule (fun s' o' ho' _ hup' => hup'.take fun e' he' _ => ?_) h hup
    rw [hat, (evidence_eq_some he').1]
    exact (List.pairwise_append.mp hsorted).2.2 o' ho' o List.mem_cons_self
  rw [← hview] at hbefore
  have hstale : ¬ e.Stale ((observeAll eng (fun _ => sortedSchedule) before s).view.current e.key) :=
    fun hold => absurd hold.2 (not_lt.mpr (hbefore.seen hold.1))
  have hreported : ((observeAll eng (fun _ => sortedSchedule) before s).view.take eng o).Caught
      e.key e.at_ := by
    rw [View.take, he]
    simp only [View.observe, if_neg hstale, hcounts, Bool.false_eq_true, if_false]
    exact (hbefore.settle e.at_).caught (hcons.settle e.at_) hzero hoffline o.notifyEligible
  rw [List.foldl_append, List.foldl_cons, ← hview, ← view_observeLocked hcons sortedSchedule]
  rw [← view_observeLocked hcons sortedSchedule] at hreported
  refine foldl_take_rule (fun s' o' ho' hcons' hcaught => hcaught.take hcons' ?_)
    (hcons.observeLocked sortedSchedule o) hreported
  exact hwindow o' (List.mem_append_right _ (List.mem_cons_of_mem _ ho'))

end

/-! ## Before the outage -/

/-- A live record is stamped with the clock at which it is appended. -/
def LiveStep.stamped : LiveStep → Prop
  | .append now msg => msg.transport = "import" ∨ (stamp now msg).receivedAt = now
  | .reconcile _ _ | .tick _ _ => True

section

variable {w : Worker} {hostname interface : String} {t : Time}

/-- **Until the outage** only what is imported moves the tracker past it. -/
lemma upTo_liveRun (hids : w.eng.ids.Injective) (hnul : '\x00' ∉ w.eng.interface.toList)
    (hframed : w.go.Framed) (hkeeps : w.go.KeepsEvidence)
    (hinterface : interface ∈ w.eng.interfaces) (before : List LiveStep)
    (hclock : ∀ step ∈ before, step.now ≤ t) (hstamped : ∀ step ∈ before, step.stamped)
    (himports : ∀ a env now b, before = a ++ LiveStep.reconcile env now :: b → env.fault = none →
      ∀ r ∈ storedRecords w.go (World.new.liveRun w a).disk, r.message.transport = "import" →
        r.message.concerns w.eng hostname interface = true → r.message.receivedAt ≤ t) :
    ∃ done unread, Live w done unread (World.new.liveRun w before) ∧
      (World.new.liveRun w before).svc.state.view.UpTo (trackerKey hostname interface) t ∧
      ∀ r ∈ unread, r.message.transport = "import" ∨ r.message.receivedAt ≤ t := by
  induction before using List.reverseRecOn with
  | nil => exact ⟨[], [], .new hids, ⟨fun hseen => absurd rfl hseen, fun hopen => absurd rfl hopen⟩,
      fun r hr => absurd hr List.not_mem_nil⟩
  | append_singleton before step ih =>
      obtain ⟨done, unread, hlive, hup, hold⟩ := ih
        (fun step' h => hclock step' (List.mem_append_left _ h))
        (fun step' h => hstamped step' (List.mem_append_left _ h))
        fun a env now b hsplit => himports a env now (b ++ [step]) (by rw [hsplit]; simp)
      rw [liveRun_concat]
      have hmem : step ∈ before ++ [step] := List.mem_append_right _ List.mem_cons_self
      cases step with
      | append now msg =>
          rcases hlive.append hframed hkeeps now msg with
            ⟨hsame, -⟩ | ⟨rs, halike, -, hafter, hsvc, -⟩
          · rw [hsame]
            exact ⟨done, unread, hlive, hup, hold⟩
          refine ⟨done, unread ++ rs, hafter, by rwa [hsvc], fun r hr => ?_⟩
          rcases List.mem_append.mp hr with hr | hr
          · exact hold r hr
          have halike := halike r hr
          simp only [Message.alike, Bool.and_eq_true, decide_eq_true_eq] at halike
          obtain ⟨⟨⟨⟨⟨-, hat⟩, htransport⟩, -⟩, -⟩, -⟩ := halike
          have htransport' : (stamp now msg).transport = msg.transport := by
            rw [stamp]
            split_ifs
            · rfl
            · rfl
          rw [← htransport, ← hat, htransport']
          refine (hstamped _ hmem).imp_right fun hnow => ?_
          rw [hnow]
          exact hclock _ hmem
      | tick env now =>
          obtain ⟨hafter, hview⟩ := hlive.tick env now
          exact ⟨done, unread, hafter, by rw [hview]; exact hup.settle now, hold⟩
      | reconcile env now =>
          rcases hlive.reconcile env now with
            ⟨hsame, -⟩ | ⟨-, visited, hfault, hperm, hafter, hview⟩
          · rw [hsame]
            exact ⟨done, unread, hlive, hup, hold⟩
          refine ⟨_, [], hafter, ?_, fun r hr => absurd hr List.not_mem_nil⟩
          have hbatch : (w.batchView (World.new.liveRun w before).svc.state visited).UpTo
              (trackerKey hostname interface) t := by
            refine foldl_take_rule (fun s o ho _ hup => hup.take fun e he hkey => ?_)
              hlive.consistent hup
            obtain ⟨r, hr, hmessage⟩ := Worker.mem_of_mem_batch ho
            have hunread := hperm.mem_iff.mp hr
            rw [(evidence_eq_some he).1, hmessage]
            refine (hold r hunread).elim (fun himport => ?_) id
            refine himports before env now [] rfl hfault r ?_ himport ?_
            · exact hlive.read.stored.mem_iff.mpr (List.mem_append_right _ hunread)
            · rw [← hmessage]
              exact concerns_of_key hnul hinterface he hkey
          rcases hview with ⟨hview, -⟩ | hview
          · rw [hview]
            exact hbatch
          · rw [hview]
            exact hbatch.settle now

/-! ## After the outage has been recorded -/

/-- The engine has been told of the outage, or it has not been moved past it and has still to be
given the record. -/
def OnTheWay (w : Worker) (hostname interface : String) (t : Time) (unread : List StoredRecord)
    (world : World) : Prop :=
  world.svc.state.view.Caught (trackerKey hostname interface) t ∨
    world.svc.state.view.UpTo (trackerKey hostname interface) t ∧ ∃ r ∈ unread,
      r.message.reports w.eng hostname interface false = true ∧ r.message.receivedAt = t

/-- No record shows the interface up before the outage has lasted for long enough. -/
def Lasts (w : Worker) (hostname interface : String) (t : Time) (disk : Disk) : Prop :=
  ∀ r ∈ storedRecords w.go disk, r.message.reports w.eng hostname interface true = true →
    ¬ (t ≤ r.message.receivedAt ∧ r.message.receivedAt < t + w.eng.downAfter)

variable (hnul : '\x00' ∉ w.eng.interface.toList) (hinterface : interface ∈ w.eng.interfaces)
  {done unread : List StoredRecord} {world : World} (hlive : Live w done unread world)

include hnul hinterface hlive

/-- **The batch that has the record catches the outage.** -/
lemma caught_batchView (hway : OnTheWay w hostname interface t unread world)
    (hlasts : Lasts w hostname interface t world.disk) {visited : List StoredRecord}
    (hperm : visited.Perm unread) :
    (w.batchView world.svc.state visited).Caught (trackerKey hostname interface) t := by
  have hwindow : ∀ o ∈ w.batch world.svc.state visited, ∀ e, w.eng.evidence o = some e →
      e.key = trackerKey hostname interface → e.observeOnly = false → e.online = true →
      t ≤ e.at_ → t + w.eng.downAfter ≤ e.at_ := by
    intro o ho e he hkey hcounts honline hle
    obtain ⟨r, hr, hmessage⟩ := Worker.mem_of_mem_batch ho
    have hreports := reports_of_key hnul hinterface he hkey hcounts
    rw [honline, hmessage] at hreports
    rw [(evidence_eq_some he).1, hmessage] at hle ⊢
    have hstored := hlive.read.stored.mem_iff.mpr
      (List.mem_append_right done (hperm.mem_iff.mp hr))
    exact not_lt.mp fun hlt => hlasts r hstored hreports ⟨hle, hlt⟩
  rcases hway with hcaught | ⟨hup, r, hr, hreports, hat⟩
  · exact foldl_take_rule (fun s o ho hcons hcaught => hcaught.take hcons (hwindow o ho))
      hlive.consistent hcaught
  have hsupported : w.supported r = true := by
    obtain ⟨e, he, -⟩ := (Option.any_eq_true _ _).mp hreports
    rw [Worker.supported, he]
    rfl
  obtain ⟨o, ho, hmessage⟩ :=
    Worker.exists_mem_batch (s := world.svc.state) (hperm.mem_iff.mpr hr) hsupported
  rw [← hmessage] at hreports hat
  obtain ⟨e, he, hkey, hcounts, hoffline⟩ := evidence_of_reports hreports
  rw [← (evidence_eq_some he).1] at hat
  subst hat
  rw [← hkey] at hup hwindow ⊢
  exact caught_foldl hlive.consistent (Worker.pairwise_batch _ _ _) ho he hcounts hoffline hup
    hwindow

/-- **Every step keeps the outage on its way.** -/
lemma onTheWay_live (hframed : w.go.Framed) (hkeeps : w.go.KeepsEvidence) (step : LiveStep)
    (hway : OnTheWay w hostname interface t unread world)
    (hlasts : Lasts w hostname interface t world.disk) :
    ∃ done' unread', Live w done' unread' (world.live w step) ∧
      OnTheWay w hostname interface t unread' (world.live w step) := by
  cases step with
  | append now msg =>
      rcases hlive.append hframed hkeeps now msg with ⟨hsame, -⟩ | ⟨rs, -, -, hafter, hsvc, -⟩
      · rw [hsame]
        exact ⟨done, unread, hlive, hway⟩
      refine ⟨done, unread ++ rs, hafter, ?_⟩
      rw [OnTheWay, hsvc]
      refine hway.imp_right fun ⟨hup, r', hr', hreports⟩ => ?_
      exact ⟨hup, r', List.mem_append_left _ hr', hreports⟩
  | tick env now =>
      obtain ⟨hafter, hview⟩ := hlive.tick env now
      refine ⟨done, unread, hafter, ?_⟩
      rw [OnTheWay, hview]
      exact hway.imp (fun hcaught => hcaught.settle hlive.consistent now)
        fun ⟨hup, hrecord⟩ => ⟨hup.settle now, hrecord⟩
  | reconcile env now =>
      rcases hlive.reconcile env now with ⟨hsame, -⟩ | ⟨-, visited, -, hperm, hafter, hview⟩
      · rw [hsame]
        exact ⟨done, unread, hlive, hway⟩
      refine ⟨_, [], hafter, Or.inl ?_⟩
      have hcaught := caught_batchView hnul hinterface hlive hway hlasts hperm
      rcases hview with ⟨hview, -⟩ | hview
      · rw [hview]
        exact hcaught
      · obtain ⟨hview', hcons⟩ := view_observeAll (fun _ => sortedSchedule)
          (w.batch world.svc.state visited) hlive.consistent
        rw [hview]
        rw [Worker.batchView, ← hview'] at hcaught ⊢
        exact hcaught.settle hcons now

end

/-- An outage that is caught is reported once it has lasted for long enough. -/
lemma View.Caught.reported {eng : Engine} (hnul : '\x00' ∉ eng.interface.toList) {v : View}
    {hostname interface : String} (hinterface : interface ∈ eng.interfaces) {t now : Time}
    (hcaught : v.Caught (trackerKey hostname interface) t) (h : Consistent eng v)
    (hquiet : v.Quiet eng now) (hlate : t + eng.downAfter ≤ now) :
    ∃ id i, v.incidents id = some i ∧ i.hostname = hostname ∧ i.interface = interface ∧
      i.startedAt ≤ t ∧ i.activatedAt ≠ none ∧ ∀ r, i.resolvedAt = some r → t < r := by
  obtain ⟨-, -, id, i, hi, hkey, hstarted, hcase⟩ := hcaught
  have hwf := h.wellFormed hi
  obtain ⟨hhost, hsame⟩ := trackerKey_inj hnul hwf.interface_mem hinterface hkey
  refine ⟨id, i, hi, hhost, hsame, hstarted, ?_⟩
  rcases hcase with hin | ⟨-, r, hr, hlt⟩
  · obtain ⟨j, hj, hagrees, -⟩ := h.incident_of_open hin.isOpen
    have hcurrent := View.current_of_open hin.isOpen
    rw [hin.names, hi] at hj
    obtain rfl := Option.some.inj hj
    have hopened : i.resolvedAt = none :=
      h.resolvedAt_eq_none hcurrent hin.isOpen (by rw [hin.names, hi])
    refine ⟨fun hnone => ?_, fun r hr => ?_⟩
    · -- it would be pending, and due
      have hphase := hagrees.activatedAt.mp hnone
      have hpending : (v.current (trackerKey hostname interface)).pending = true := by
        simp [Tracker.pending, hphase]
      have hdeadline := hquiet hcurrent hpending
      rw [Tracker.deadline, if_pos hphase, ← hagrees.startedAt] at hdeadline
      exact absurd (hlate.trans_lt hdeadline) (not_lt.mpr (add_le_add_left hstarted _))
    · rw [hopened] at hr
      cases hr
  · refine ⟨hwf.activated (hwf.resolved.mpr (by rw [hr]; exact Option.some_ne_none _)),
      fun r' hr' => ?_⟩
    rw [hr] at hr'
    rwa [← Option.some.inj hr']

/-! ## Every run -/

/-- **No outage is missed** that the engine has not been moved past.  Take any run of appends,
reconciles and ticks, under a clock that does not run back, in which a live record reports at `t`
that an interface has gone down, and no record ever shows it up until it has been down for long
enough.  If no imported record of the interface that is stamped later than `t` was read before the
outage was recorded, then every reconcile that succeeds once the outage has lasted for long enough
leaves an incident of the interface that began by `t`, is activated, and was not over at `t`. -/
theorem outage_not_missed (w : Worker) (hids : w.eng.ids.Injective)
    (hnul : '\x00' ∉ w.eng.interface.toList) (hframed : w.go.Framed) (hkeeps : w.go.KeepsEvidence)
    (hostname interface : String) (before rest : List LiveStep) (t : Time) (msg : Message)
    (env : ReconcileEnv) (now : Time)
    (hclock : ((before ++ LiveStep.append t msg :: rest ++ [LiveStep.reconcile env now]).map
      LiveStep.now).Pairwise (· ≤ ·))
    (hstamped : ∀ step ∈ before, step.stamped)
    (hstored : (append w.go t .none (World.new.liveRun w before).disk msg).2 = none)
    (hstamp : (stamp t msg).receivedAt = t)
    (hoffline : (stamp t msg).reports w.eng hostname interface false = true)
    (hlasts : Lasts w hostname interface t
      (World.new.liveRun w (before ++ LiveStep.append t msg :: rest)).disk)
    (himports : ∀ a env' now' b, before = a ++ LiveStep.reconcile env' now' :: b →
      env'.fault = none → ∀ r ∈ storedRecords w.go (World.new.liveRun w a).disk,
        r.message.transport = "import" →
        r.message.concerns w.eng hostname interface = true → r.message.receivedAt ≤ t)
    (hsuccess : (w.reconcile env
      (World.new.liveRun w (before ++ LiveStep.append t msg :: rest)).disk now
      (World.new.liveRun w (before ++ LiveStep.append t msg :: rest)).svc).2 = none)
    (hlate : t + w.eng.downAfter ≤ now) :
    ∃ id incident, (World.new.liveRun w (before ++ LiveStep.append t msg :: rest ++
        [LiveStep.reconcile env now])).svc.state.incidents.lookup id = some incident ∧
      incident.hostname = hostname ∧ incident.interface = interface ∧ incident.startedAt ≤ t ∧
      incident.activatedAt ≠ none ∧ ∀ r, incident.resolvedAt = some r → t < r := by
  have hinterface : interface ∈ w.eng.interfaces := by
    obtain ⟨e, he, hreports⟩ := (Option.any_eq_true _ _).mp hoffline
    simp only [Bool.and_eq_true, decide_eq_true_eq] at hreports
    rw [← hreports.1.1.2]
    exact (classify_eq_some he).2.2.2.2
  have hbefore : ∀ step ∈ before, step.now ≤ t := by
    intro step hstep
    rw [List.append_assoc, List.map_append, List.pairwise_append] at hclock
    exact hclock.2.2 _ (List.mem_map_of_mem hstep) t (by simp [LiveStep.now])
  obtain ⟨done, unread, hlive, hup, -⟩ :=
    upTo_liveRun hids hnul hframed hkeeps hinterface before hbefore hstamped himports
  -- a reconcile that succeeds has read all that is stored
  have hreadable : (World.new.liveRun w (before ++ LiveStep.append t msg :: rest)).disk.Readable w.go := by
    obtain ⟨_, _, hall⟩ := Live.run hids hframed hkeeps (before ++ LiveStep.append t msg :: rest)
    rcases hall.reconcile env now with ⟨-, herr⟩ | ⟨hreadable, -⟩
    · exact absurd hsuccess herr
    · exact hreadable
  have hthen : ((World.new.liveRun w before).live w (.append t msg)).disk.Readable w.go := by
    rw [← List.singleton_append, ← List.append_assoc, liveRun_append, liveRun_concat] at hreadable
    exact hreadable.of_grows (grows_liveRun hframed _ rest)
  -- the record is stored, and then on its way
  have hrest : ∀ steps, Lasts w hostname interface t
      (World.new.liveRun w (before ++ LiveStep.append t msg :: steps)).disk →
      ∃ done unread, Live w done unread
          (World.new.liveRun w (before ++ LiveStep.append t msg :: steps)) ∧
        OnTheWay w hostname interface t unread
          (World.new.liveRun w (before ++ LiveStep.append t msg :: steps)) := by
    intro steps
    induction steps using List.reverseRecOn with
    | nil =>
        intro _
        rw [liveRun_concat]
        rcases hlive.append hframed hkeeps t msg with
          ⟨-, herr⟩ | ⟨rs, halike, hdecodes, hafter, hsvc, -⟩
        · exact absurd hstored herr
        obtain ⟨r, hr⟩ := List.exists_mem_of_ne_nil _ (hdecodes hthen)
        have halike := halike r hr
        refine ⟨done, unread ++ rs, hafter,
          Or.inr ⟨by rwa [hsvc], r, List.mem_append_right _ hr, ?_, ?_⟩⟩
        · rw [Message.reports, ← classify_of_alike halike]
          exact hoffline
        · simp only [Message.alike, Bool.and_eq_true, decide_eq_true_eq] at halike
          rw [← halike.1.1.1.1.2, hstamp]
    | append_singleton steps step ih =>
        intro hsteps
        rw [← List.cons_append, ← List.append_assoc, liveRun_concat] at hsteps ⊢
        obtain ⟨_, _, hbefore⟩ := Live.run hids hframed hkeeps
          (before ++ LiveStep.append t msg :: steps)
        have hearlier : Lasts w hostname interface t
            (World.new.liveRun w (before ++ LiveStep.append t msg :: steps)).disk :=
          fun r hr => hsteps r ((hbefore.step hframed hkeeps step).2 r hr)
        obtain ⟨done', unread', hlive', hway⟩ := ih hearlier
        exact onTheWay_live hnul hinterface hlive' hframed hkeeps step hway hearlier
  obtain ⟨done', unread', hlive', hway⟩ := hrest rest hlasts
  rw [liveRun_concat]
  generalize World.new.liveRun w (before ++ LiveStep.append t msg :: rest) = world
    at hlive' hway hlasts hsuccess ⊢
  rcases hlive'.reconcile env now with ⟨-, herr⟩ | ⟨-, visited, -, hperm, hafter, hview⟩
  · exact absurd hsuccess herr
  have hcaught := caught_batchView hnul hinterface hlive' hway hlasts hperm
  rcases hview with ⟨-, herr⟩ | hview
  · exact absurd hsuccess herr
  obtain ⟨hview', hcons⟩ := view_observeAll (fun _ => sortedSchedule)
    (w.batch world.svc.state visited) hlive'.consistent
  have hsettled := hcaught.settle (by rw [Worker.batchView, ← hview']; exact hcons) now
  have hquiet : (world.live w (.reconcile env now)).svc.state.view.Quiet w.eng now := by
    rw [hview, Worker.batchView, ← hview']
    exact .of_settle hcons now
  rw [← hview] at hsettled
  exact hsettled.reported hnul hinterface hafter.consistent hquiet hlate

/-- The small outage, in one reconcile. -/
theorem outage_not_missed_wanDown :
    ∃ id incident, (World.new.liveRun sampleWorker ([] ++
        LiveStep.append 1000000000 wanDown.message :: [] ++
        [LiveStep.reconcile sampleReconcile 61000000000])).svc.state.incidents.lookup id
          = some incident ∧
      incident.hostname = "gw" ∧ incident.interface = "wan" ∧ incident.startedAt ≤ 1000000000 ∧
      incident.activatedAt ≠ none ∧ ∀ r, incident.resolvedAt = some r → 1000000000 < r := by
  refine outage_not_missed sampleWorker sampleIDs_injective (by decide) sampleWorker_framed
    sampleWorker_keepsEvidence "gw" "wan" [] [] 1000000000 wanDown.message sampleReconcile
    61000000000 (by decide) (by simp) (by decide +kernel) (by decide) (by decide +kernel) ?_
    (fun a env' now' b hsplit => by simp at hsplit) (by decide +kernel) (by decide)
  unfold Lasts
  decide +kernel

/-- An imported record that shows `wan` of `gw` up, later than the small outage. -/
def importedUp : Message :=
  { id := "two", receivedAt := 100000000000, transport := "import", hostname := "gw"
    tag := "netifd", message := "Interface 'wan' is now up" }

/-- The line it is stored as. -/
def importedUpLine : Bytes :=
  utf8Bytes ("\x7b\"id\":\"two\",\"received_at\":\"0001-01-01T00:01:40Z\"," ++
    "\"transport\":\"import\",\"hostname\":\"gw\",\"tag\":\"netifd\"," ++
    "\"message\":\"Interface 'wan' is now up\"\x7d")

/-- A worker whose store has both records. -/
def importingWorker : Worker :=
  { sampleWorker with go := .ofLines [(wanDown.message, wanDownLine), (importedUp, importedUpLine)] }

/-- The import is read before the outage is recorded. -/
def importedAhead : List LiveStep :=
  [.append 500000000 importedUp, .reconcile sampleReconcile 500000000,
    .append 1000000000 wanDown.message, .reconcile sampleReconcile 61000000000]

/-- **An outage that an import makes the engine miss.**  The tracker has been moved past it, so the
record of the outage is dropped. -/
theorem importedAhead_missed :
    (importedAhead.map LiveStep.now).Pairwise (· ≤ ·) ∧
      (∀ step ∈ importedAhead, step.stamped) ∧
      (append importingWorker.go 1000000000 .none
        (World.new.liveRun importingWorker (importedAhead.take 2)).disk wanDown.message).2 = none ∧
      wanDown.message.reports sampleEngine "gw" "wan" false = true ∧
      Lasts importingWorker "gw" "wan" 1000000000
        (World.new.liveRun importingWorker importedAhead).disk ∧
      (importingWorker.reconcile sampleReconcile
        (World.new.liveRun importingWorker (importedAhead.take 1)).disk 500000000
        (World.new.liveRun importingWorker (importedAhead.take 1)).svc).2 = none ∧
      (importingWorker.reconcile sampleReconcile
        (World.new.liveRun importingWorker (importedAhead.take 3)).disk 61000000000
        (World.new.liveRun importingWorker (importedAhead.take 3)).svc).2 = none ∧
      ¬ ∃ id incident, (World.new.liveRun importingWorker
          importedAhead).svc.state.incidents.lookup id = some incident ∧
        incident.hostname = "gw" ∧ incident.interface = "wan" ∧
        incident.startedAt ≤ 1000000000 ∧ incident.activatedAt ≠ none ∧
        ∀ r, incident.resolvedAt = some r → 1000000000 < r := by
  refine ⟨by decide, ?_, by decide +kernel, by decide +kernel, ?_, by decide +kernel,
    by decide +kernel, ?_⟩
  · simp [importedAhead, LiveStep.stamped, importedUp, stamp, wanDown]
  · unfold Lasts
    decide +kernel
  · rintro ⟨id, incident, hi, -⟩
    have hnone : (World.new.liveRun importingWorker importedAhead).svc.state.incidents.keys = ∅ := by
      decide +kernel
    have hmem := Finmap.mem_keys.mpr (Finmap.mem_of_lookup_eq_some hi)
    rw [hnone] at hmem
    cases hmem

end Logthing
