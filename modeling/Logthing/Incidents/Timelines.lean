import Logthing.Incidents.OutboxRuns

/-!
# The timelines of incidents

An outage starts, is activated, begins to recover and is resolved, in this order, and the outages
of an interface come one after another.  Timers keep that up by themselves; evidence does if it is
not stamped before what it follows (`Evidence.Overtaken`), which the comparison with the last
evidence does not rule out: timers run ahead of the evidence.

**Main results.**  `timelines_run`: the timelines are well formed in every state of a run in which
no evidence is overtaken.
-/

namespace Logthing

/-! ## Well-formed timelines -/

/-- The times of an incident are in order, and none is set before those it follows. -/
structure Incident.Chronological (incident : Incident) : Prop where
  activated : ∀ a, incident.activatedAt = some a → incident.startedAt < a
  recovery : ∀ r, incident.recoveryFirstAt = some r → ∃ a, incident.activatedAt = some a ∧ a ≤ r
  resolved : ∀ x, incident.resolvedAt = some x → ∃ r, incident.recoveryFirstAt = some r ∧ r < x

/-- One incident is resolved no later than the other starts. -/
def Incident.Precedes (i j : Incident) : Prop := ∃ r, i.resolvedAt = some r ∧ r ≤ j.startedAt

/-- Every incident is chronological, and those of one key, a hostname and an interface, do not
overlap. -/
structure Timelines (v : View) : Prop where
  each : ∀ ⦃id i⦄, v.incidents id = some i → i.Chronological
  apart : ∀ ⦃id id' i i'⦄, v.incidents id = some i → v.incidents id' = some i' → id ≠ id' →
    i.key = i'.key → i.Precedes i' ∨ i'.Precedes i

namespace Timelines

lemma empty : Timelines ⟨fun _ => none, fun _ => none⟩ where
  each _ _ hi := nomatch hi
  apart _ _ _ _ hi := nomatch hi

/-- Only the incidents matter. -/
lemma congr {v v' : View} (h : Timelines v) (hsame : v'.incidents = v.incidents) : Timelines v' := by
  refine ⟨?_, ?_⟩
  · rw [hsame]
    exact h.each
  · rw [hsame]
    exact h.apart

/-- **Storing an incident** keeps the timelines if it comes after those of its interface. -/
lemma set {v : View} (h : Timelines v) {key id : String} {current : Tracker}
    {incident : Option Incident} (heach : ∀ i, incident = some i → i.Chronological)
    (hapart : ∀ i, incident = some i → ∀ id' i', id' ≠ id → v.incidents id' = some i' →
      i'.key = i.key → i'.Precedes i ∨ i.Precedes i') :
    Timelines (v.set key current id incident) where
  each k i hi := by
    simp only [View.set, Function.update_apply] at hi
    split_ifs at hi
    · exact heach i hi
    · exact h.each hi
  apart k k' i i' hi hi' hne hkey := by
    simp only [View.set, Function.update_apply] at hi hi'
    split_ifs at hi hi' with hk hk'
    · exact absurd (hk.trans hk'.symm) hne
    · exact (hapart i hi k' i' hk' hi' hkey.symm).symm
    · exact hapart i' hi' k i hk hi hkey
    · exact h.apart hi hi' hne hkey

/-- Noting evidence moves neither the start nor the end of an outage. -/
lemma setOpen {v : View} (h : Timelines v) {key id : String} {current : Tracker}
    {i i' : Incident} (hi : v.incidents id = some i) (heach : i'.Chronological)
    (hkey : i'.key = i.key) (hstarted : i'.startedAt = i.startedAt) (hresolved : i.resolvedAt = none) :
    Timelines (v.set key current id (some i')) := by
  refine h.set (fun _ hsome => by rw [← Option.some.inj hsome]; exact heach) ?_
  rintro _ hsome k j hk hj hjkey
  obtain rfl := Option.some.inj hsome
  rcases h.apart hj hi hk (hjkey.trans hkey) with hbefore | hafter
  · obtain ⟨r, hr, hle⟩ := hbefore
    exact Or.inl ⟨r, hr, hle.trans hstarted.ge⟩
  · obtain ⟨r, hr, -⟩ := hafter
    rw [hresolved] at hr
    cases hr

end Timelines

/-! ## Timers -/

section

variable {eng : Engine} {v : View} {key : String} {current : Tracker} {incident : Incident}

/-- A recovery that lasts long enough does so after the outage started. -/
lemma Incident.Chronological.startedAt_le_dueAt (hchron : incident.Chronological)
    (hagrees : Agrees key current incident) {id : String} (hwf : WellFormed eng id incident)
    (hpending : current.pending = true) (hphase : current.phase ≠ .pendingFailure) :
    incident.startedAt ≤ current.dueAt incident := by
  have hrecovering : current.phase = .pendingRecovery := by
    rw [Tracker.pending, Bool.or_eq_true, decide_eq_true_eq, decide_eq_true_eq] at hpending
    exact hpending.resolve_left hphase
  obtain ⟨a, ha, hle⟩ := hchron.recovery _ (hagrees.recovery hrecovering)
  have hlt := hchron.activated a ha
  have hpositive := eng.recoveredAfter_pos
  rw [Tracker.dueAt, if_neg hphase, hwf.recoveredAfter_eq]
  exact (hlt.le.trans hle).trans (Int.le_add_of_nonneg_right hpositive.le)

/-- **A timer that runs out keeps the timelines.** -/
lemma Timelines.fire (ht : Timelines v) (h : Consistent eng v)
    (hc : v.trackers key = some current) (hpending : current.pending = true)
    (hi : v.incidents current.incidentID = some incident) :
    Timelines (v.fire key current incident) := by
  have hopen := Tracker.open_of_pending hpending
  obtain ⟨i, hi', hagrees⟩ := h.names hc hopen
  obtain rfl : incident = i := Option.some.inj (hi.symm.trans hi')
  have hwf := h.wellFormed hi
  have hnone := h.resolvedAt_eq_none hc hopen hi
  have heach := ht.each hi
  rw [View.fire, hwf.id_eq]
  refine ht.setOpen hi ?_ (Incident.fired_key _ _) ?_ hnone
  · rw [Incident.fired]
    split_ifs with hphase
    · have hpositive := eng.downAfter_pos
      have hactivated := hagrees.activatedAt.mpr hphase
      refine ⟨fun a ha => ?_, fun r hr => ?_, fun x hx => ?_⟩
      · rw [← Option.some.inj ha, Tracker.dueAt, if_pos hphase, ← hagrees.startedAt,
          hwf.downAfter_eq]
        exact Int.lt_add_of_pos_right _ hpositive
      · obtain ⟨a, ha, -⟩ := heach.recovery r hr
        rw [hactivated] at ha
        cases ha
      · rw [hnone] at hx
        cases hx
    · have hrecovering : current.phase = .pendingRecovery := by
        rw [Tracker.pending, Bool.or_eq_true, decide_eq_true_eq, decide_eq_true_eq] at hpending
        exact hpending.resolve_left hphase
      refine ⟨heach.activated, heach.recovery, fun x hx => ?_⟩
      refine ⟨current.recoverySince, hagrees.recovery hrecovering, ?_⟩
      rw [← Option.some.inj hx, Tracker.dueAt, if_neg hphase, hwf.recoveredAfter_eq]
      exact Int.lt_add_of_pos_right _ eng.recoveredAfter_pos
  · rw [Incident.fired]
    split_ifs
    · rfl
    · rfl

/-- **`advanceLocked` keeps the timelines.** -/
lemma Timelines.settle {s : Snapshot} (ht : Timelines s.view) (h : Consistent eng s.view)
    (now : Time) : Timelines (s.view.settle now) := by
  rw [← advance_view h sortedSchedule]
  refine (advance_induction (fun s' => Timelines s'.view) (fun hcons hP hfires => ?_)
    sortedSchedule s h ht).1
  rw [view_advanceOne hfires.incident_eq]
  exact hP.fire hcons hfires.tracker_eq hfires.due.1 hfires.incident_eq

end

/-! ## Evidence -/

/-- Evidence that would begin a recovery before its outage was activated, or an outage before an
earlier one of its interface was resolved. -/
def Evidence.Overtaken (eng : Engine) (evidence : Evidence) (v : View) : Prop :=
  (evidence.online = true ∧ evidence.masked eng (v.current evidence.key) = false ∧
    (v.current evidence.key).phase = .active ∧
    ∃ incident a, v.incidents (v.current evidence.key).incidentID = some incident ∧
      incident.activatedAt = some a ∧ evidence.at_ < a) ∨
  (evidence.online = false ∧ (v.current evidence.key).phase.openState = none ∧
    ∃ id incident r, v.incidents id = some incident ∧ incident.key = evidence.key ∧
      incident.resolvedAt = some r ∧ evidence.at_ < r)

/-- An observation whose evidence, if it counts, is not overtaken. -/
def Observation.Prompt (eng : Engine) (o : Observation) (v : View) : Prop :=
  ∀ evidence, eng.evidence o = some evidence → evidence.observeOnly = false →
    ¬ evidence.Stale (v.current evidence.key) → ¬ evidence.Overtaken eng v

/-- **Evidence that is not overtaken is not overtaken by the timers it lets run out.** -/
lemma overtaken_of_settle {eng : Engine} {evidence : Evidence} {v : View} (ht : Timelines v)
    (h : Consistent eng v) (hover : evidence.Overtaken eng (v.settle evidence.at_)) :
    evidence.Overtaken eng v := by
  rcases current_settle v evidence.at_ evidence.key with ⟨hsame, hnot⟩ | ⟨i, hc, hi, hdue, hfired⟩
  · rw [Evidence.Overtaken, hsame] at hover
    rcases hover with ⟨honline, hunmasked, hphase, j, a, hj, ha, hlt⟩ |
      ⟨hoffline, hclosed, id, j, r, hj, hkey, hr, hlt⟩
    · refine Or.inl ⟨honline, hunmasked, hphase, j, a, ?_, ha, hlt⟩
      rcases incidents_settle h hj with hj | ⟨i, current, hi, hc, hid, hdue, -⟩
      · exact hj
      · -- an active tracker has no timer
        have hopen := Tracker.open_of_pending hdue.1
        have hcurrent : v.trackers evidence.key = some (v.current evidence.key) :=
          View.current_of_open (by rw [hphase]; exact Option.some_ne_none _)
        have hkey := h.key_eq hc hopen hcurrent (by rw [hphase]; exact Option.some_ne_none _) hid
        rw [hkey, hcurrent] at hc
        exact absurd (Option.some.inj hc ▸ hdue) (hnot i hi)
    · refine Or.inr ⟨hoffline, hclosed, id, j, r, ?_, hkey, hr, hlt⟩
      rcases incidents_settle h hj with hj | ⟨i, current, -, hc, -, hdue, rfl⟩
      · exact hj
      · have hopen := Tracker.open_of_pending hdue.1
        rw [Incident.fired_key] at hkey
        rw [View.current, ← hkey, hc] at hclosed
        exact absurd hclosed hopen
  · have hopen := Tracker.open_of_pending hdue.1
    obtain ⟨i', hi', hagrees⟩ := h.names hc hopen
    obtain rfl : i = i' := Option.some.inj (hi.symm.trans hi')
    have hnone := h.resolvedAt_eq_none hc hopen hi
    rw [Evidence.Overtaken, hfired] at hover
    rcases hover with ⟨-, -, hphase, j, a, hj, ha, hlt⟩ | ⟨-, hclosed, id, j, r, hj, hkey, hr, hlt⟩
    · -- it has just been activated, at a time before the evidence
      have hpending : (v.current evidence.key).phase = .pendingFailure := by
        by_contra hne
        rw [Tracker.fired, if_neg hne] at hphase
        cases hphase
      have hfiredID : (v.current evidence.key).fired.incidentID
          = (v.current evidence.key).incidentID := by
        rw [Tracker.fired, if_pos hpending]
      rw [hfiredID] at hj
      rcases incidents_settle h hj with hj | ⟨k, current, hk, hc', -, hdue', rfl⟩
      · rw [hi] at hj
        have hactivated := hagrees.activatedAt.mpr hpending
        rw [Option.some.inj hj, ha] at hactivated
        cases hactivated
      · obtain rfl : i = k := Option.some.inj (hi.symm.trans hk)
        rw [hagrees.key, hc] at hc'
        obtain rfl := Option.some.inj hc'
        rw [Incident.fired, if_pos hpending] at ha
        exact absurd (Option.some.inj ha ▸ hlt) (not_lt.mpr hdue.2)
    · rcases incidents_settle h hj with hj | ⟨k, current, hk, hc', hid, hdue', rfl⟩
      · -- an earlier outage was over when this one began
        have hne : id ≠ (v.current evidence.key).incidentID := by
          rintro rfl
          rw [hi] at hj
          rw [← Option.some.inj hj, hnone] at hr
          cases hr
        have hrecovering : (v.current evidence.key).phase ≠ .pendingFailure := by
          intro hpending
          rw [Tracker.fired, if_pos hpending] at hclosed
          cases hclosed
        have hbefore : r ≤ i.startedAt := by
          rcases ht.apart hj hi hne (hkey.trans hagrees.key.symm) with ⟨r', hr', hle⟩ | ⟨r', hr', -⟩
          · rw [hr] at hr'
            rwa [Option.some.inj hr']
          · rw [hnone] at hr'
            cases hr'
        have hafter : i.startedAt ≤ evidence.at_ :=
          ((ht.each hi).startedAt_le_dueAt hagrees (h.wellFormed hi) hdue.1 hrecovering).trans
            hdue.2
        exact absurd hlt (not_lt.mpr (hbefore.trans hafter))
      · -- it has just been resolved, at a time before the evidence
        rw [Incident.fired_key] at hkey
        rw [hkey, hc] at hc'
        obtain rfl := Option.some.inj hc'
        have hrecovering : (v.current evidence.key).phase ≠ .pendingFailure := by
          intro hpending
          rw [Tracker.fired, if_pos hpending] at hclosed
          cases hclosed
        rw [Incident.fired, if_neg hrecovering] at hr
        exact absurd (Option.some.inj hr ▸ hlt) (not_lt.mpr hdue'.2)

/-! ## Evidence that is not overtaken -/

section

variable {eng : Engine} {v : View} {evidence : Evidence}

/-- A resolved incident, or one whose tracker is open. -/
lemma Consistent.resolved_of_closed (h : Consistent eng v) {key : String}
    (hclosed : (v.current key).phase.openState = none) {id : String} {i : Incident}
    (hi : v.incidents id = some i) (hkey : i.key = key) : ∃ r, i.resolvedAt = some r := by
  by_contra hnone
  have hstate : i.state ≠ .resolved := by
    intro hs
    obtain ⟨r, hr⟩ := Option.ne_none_iff_exists'.mp ((h.wellFormed hi).resolved.mp hs)
    exact hnone ⟨r, hr⟩
  obtain ⟨current, hc, hopen, -⟩ := h.named hi hstate
  rw [View.current, ← hkey, hc] at hclosed
  exact hopen hclosed

/-- **Evidence that is not overtaken keeps the timelines.** -/
lemma Timelines.react (ht : Timelines v) (h : Consistent eng v) (notifyEligible : Bool)
    (hprompt : ¬ evidence.Overtaken eng v) :
    Timelines (v.react eng evidence notifyEligible) := by
  rw [View.react]
  split_ifs with hmasked
  · exact ht
  have hnew : evidence.online = false → (v.current evidence.key).phase.openState = none →
      ∀ id, Timelines (v.set evidence.key (openedTracker evidence notifyEligible id) id
        (some (openedIncident eng evidence notifyEligible id))) := by
    intro hoffline hclosed id
    refine ht.set ?_ ?_
    · rintro _ hsome
      rw [← Option.some.inj hsome]
      exact ⟨fun a ha => (by cases ha), fun r hr => (by cases hr), fun x hx => (by cases hx)⟩
    · rintro _ hsome id' i' - hi' hkey
      rw [← Option.some.inj hsome] at hkey ⊢
      obtain ⟨r, hr⟩ := h.resolved_of_closed hclosed hi' hkey
      refine Or.inl ⟨r, hr, not_lt.mp fun hlt => hprompt ?_⟩
      exact Or.inr ⟨hoffline, hclosed, id', i', r, hi', hkey, hr, hlt⟩
  have hgone : ∀ current id, Timelines (v.set evidence.key current id none) := by
    intro current id
    refine ht.set ?_ ?_
    · rintro _ hnone
      cases hnone
    · rintro _ hnone
      cases hnone
  cases honline : evidence.online <;> cases hphase : (v.current evidence.key).phase
  case false.unset | false.healthy =>
      simp only [reaction, honline]
      exact hnew honline (by rw [hphase]; rfl) _
  case true.unset | true.healthy =>
      refine ht.congr ?_
      simp only [reaction, honline, View.set, Function.update_eq_self, id]
  case true.pendingFailure =>
      simp only [reaction, honline]
      exact hgone _ _
  all_goals
    have hopen : (v.current evidence.key).phase.openState ≠ none := by
      rw [hphase]
      exact Option.some_ne_none _
    obtain ⟨i, hi, hagrees, hwf⟩ := h.incident_of_open hopen
    have hnone := h.resolvedAt_eq_none (View.current_of_open hopen) hopen hi
    have hchron := ht.each hi
    simp only [reaction, honline, hi, Option.map_some]
  case false.pendingFailure =>
      exact ht.setOpen hi ⟨hchron.activated, hchron.recovery, hchron.resolved⟩ rfl rfl hnone
  case false.active =>
      exact ht.setOpen hi ⟨hchron.activated, hchron.recovery, hchron.resolved⟩ rfl rfl hnone
  case false.pendingRecovery =>
      refine ht.setOpen hi ⟨hchron.activated, fun r hr => (by cases hr), fun x hx => ?_⟩ rfl rfl hnone
      have hx' : i.resolvedAt = some x := hx
      rw [hnone] at hx'
      cases hx'
  case true.pendingRecovery =>
      exact ht.setOpen hi ⟨hchron.activated, hchron.recovery, hchron.resolved⟩ rfl rfl hnone
  case true.active =>
      -- the recovery begins after the activation, or the evidence was overtaken
      have hactivated : i.activatedAt ≠ none := by
        intro hnot
        rw [hagrees.activatedAt.mp hnot] at hphase
        cases hphase
      obtain ⟨a, ha⟩ := Option.ne_none_iff_exists'.mp hactivated
      have hle : a ≤ evidence.at_ := by
        refine not_lt.mp fun hlt => hprompt (Or.inl ⟨honline, ?_, hphase, i, a, hi, ha, hlt⟩)
        exact Bool.eq_false_iff.mpr hmasked
      refine ht.setOpen hi ⟨hchron.activated, fun r hr => ?_, fun x hx => ?_⟩ rfl rfl hnone
      · exact ⟨a, ha, by rw [← Option.some.inj hr]; exact hle⟩
      · have hx' : i.resolvedAt = some x := hx
        rw [hnone] at hx'
        cases hx'

/-- **An observation that is not overtaken keeps the timelines.** -/
lemma Timelines.take {s : Snapshot} (ht : Timelines s.view) (h : Consistent eng s.view)
    {o : Observation} (hprompt : o.Prompt eng s.view) : Timelines (s.view.take eng o) := by
  rw [View.take]
  cases hevidence : eng.evidence o with
  | none => exact ht
  | some evidence =>
      simp only [View.observe]
      split_ifs with hstale hsight
      · exact ht
      · refine ht.congr ?_
        simp only [View.sight, View.set, Function.update_eq_self]
      · have hsettled : Consistent eng (s.view.settle evidence.at_) := by
          rw [← advance_view h sortedSchedule]
          exact h.advance sortedSchedule
        refine (ht.settle h evidence.at_).react hsettled o.notifyEligible fun hover => ?_
        exact hprompt evidence hevidence (Bool.eq_false_iff.mpr hsight) hstale
          (overtaken_of_settle ht h hover)

end

/-! ## Runs -/

/-- Every observation of a list is prompt when its turn comes. -/
def promptAll (eng : Engine) : (ℕ → Schedule) → List Observation → Snapshot → Prop
  | _, [], _ => True
  | orders, o :: os, s =>
      o.Prompt eng s.view ∧ promptAll eng (fun n => orders (n + 1)) os
        (observeLocked eng (orders 0) o.message o.notifyEligible o.sourceRef s)

/-- Every observation of a call is prompt when its turn comes. -/
def Operation.Prompt (eng : Engine) (s : Snapshot) : Operation → Prop
  | .observe _ message notifyEligible _ =>
      Observation.Prompt eng ⟨message, notifyEligible, ""⟩ s.view
  | .apply orders observations _ _ _ => promptAll eng orders observations s
  | _ => True

/-- Every observation of a run is prompt when its turn comes. -/
def Service.promptRun (eng : Engine) : Service → List Operation → Prop
  | _, [] => True
  | svc, op :: ops => op.Prompt eng svc.state ∧ Service.promptRun eng (svc.call eng op) ops

lemma Timelines.observeAll {eng : Engine} (orders : ℕ → Schedule) (os : List Observation)
    {s : Snapshot} (ht : Timelines s.view) (h : Consistent eng s.view)
    (hprompt : promptAll eng orders os s) :
    Timelines (Logthing.observeAll eng orders os s).view := by
  induction os generalizing orders s with
  | nil => exact ht
  | cons o os ih =>
      refine ih _ ?_ (h.observeLocked (orders 0) o) hprompt.2
      rw [view_observeLocked h]
      exact ht.take h hprompt.1

/-- **Every call keeps the timelines** whose observations are prompt. -/
lemma Timelines.call {eng : Engine} {svc : Service} (ht : Timelines svc.state.view)
    (h : Consistent eng svc.state.view) {op : Operation} (hlive : op.live)
    (hprompt : op.Prompt eng svc.state) : Timelines (svc.call eng op).state.view := by
  cases op with
  | observe orders message notifyEligible outcome =>
      rw [h.view_call.1]
      exact ht.take h hprompt
  | apply orders observations cursors checkpointAt outcome =>
      rw [Service.call, Service.apply_state]
      exact ht.observeAll orders observations h hprompt
  | tick orders now outcome =>
      rw [h.view_call.2.2]
      exact ht.settle h now
  | _ => exact absurd hlive id

/-- **Timelines are well formed as long as no evidence is overtaken.**  In every run of `Observe`,
`Apply` and `Tick` from `New`, with evidence and ticks in any order, in which evidence that counts
begins no recovery before its outage was activated and no outage before an earlier one of its
interface was resolved, every incident is chronological and those of one interface do not
overlap. -/
theorem timelines_run (eng : Engine) (hids : eng.ids.Injective) (ops : List Operation)
    (hlive : ∀ op ∈ ops, op.live) (hprompt : Service.promptRun eng {} ops) :
    Timelines (Service.run eng {} ops).state.view := by
  have hrun : ∀ (ops : List Operation) (svc : Service), Consistent eng svc.state.view →
      Timelines svc.state.view → (∀ op ∈ ops, op.live) → Service.promptRun eng svc ops →
      Timelines (svc.run eng ops).state.view := by
    intro ops
    induction ops with
    | nil => exact fun svc _ ht _ _ => ht
    | cons op ops ih =>
        intro svc h ht hlive hprompt
        exact ih _ (h.call op) (ht.call h (hlive op List.mem_cons_self) hprompt.1)
          (fun o ho => hlive o (List.mem_cons_of_mem _ ho)) hprompt.2
  exact hrun ops {} (.empty hids) .empty hlive hprompt

/-- Evidence later than the turns of all incidents is not overtaken. -/
lemma Observation.Prompt.of_later {eng : Engine} {o : Observation} {s : Snapshot}
    (hlater : ∀ kv ∈ (Traversal.inserted String).visit s.incidents,
      ∀ at_ ∈ kv.2.activatedAt.toList ++ kv.2.resolvedAt.toList, at_ ≤ o.message.receivedAt) :
    o.Prompt eng s.view := by
  intro evidence hevidence _ _
  rw [← (evidence_eq_some hevidence).1] at hlater
  have hturn : ∀ {id i at_}, s.incidents.lookup id = some i →
      at_ ∈ i.activatedAt.toList ++ i.resolvedAt.toList → at_ ≤ evidence.at_ := fun hi hat =>
    hlater (_, _) ((Traversal.mem_visit _ _ _ _).mpr hi) _ hat
  rintro (⟨-, -, -, i, a, hi, ha, hlt⟩ | ⟨-, -, id, i, r, hi, -, hr, hlt⟩)
  · exact absurd (hturn hi (List.mem_append_left _ (Option.mem_toList.mpr ha))) hlt.not_ge
  · exact absurd (hturn hi (List.mem_append_right _ (Option.mem_toList.mpr hr))) hlt.not_ge

/-- `wan` of `gw` is down for 89 seconds and, when it has recovered, once more. -/
def twoOutagesRun : List Operation :=
  [.apply (fun _ => forwards) [wanDown] ∅ 1000000000 none,
    .tick forwards 61000000000 none,
    .apply (fun _ => forwards)
      [sampleRecord "two" "gw" "netifd" "Interface 'wan' is now up" 90000000000] ∅ 90000000000 none,
    .tick backwards 150000000000 (some "disk full"),
    .apply (fun _ => backwards)
      [sampleRecord "three" "gw" "netifd" "Interface 'wan' is now down" 200000000000]
      ∅ 200000000000 none,
    .tick forwards 260000000000 none]

/-- The outages of the run. -/
theorem timelines_run_wanDown :
    Timelines (Service.run sampleEngine {} twoOutagesRun).state.view := by
  refine timelines_run sampleEngine sampleIDs_injective twoOutagesRun
    (by simp [twoOutagesRun, Operation.live])
    ⟨⟨.of_later ?_, trivial⟩, trivial, ⟨.of_later ?_, trivial⟩, trivial,
      ⟨.of_later ?_, trivial⟩, trivial, trivial⟩
  · decide +kernel
  · decide +kernel
  · decide +kernel

/-- The first outage, before the second one. -/
example : ((Service.run sampleEngine {} (twoOutagesRun.take 4)).state.incidents.lookup
    "8d4663d6450447b8").map (fun i => (i.activatedAt, i.recoveryFirstAt, i.resolvedAt))
      = some (some 61000000000, some 90000000000, some 150000000000) := by
  decide +kernel

/-- `wan` of `gw` comes up again after half a minute. -/
def wanUp : Observation where
  message :=
    { id := "two", receivedAt := 31000000000, hostname := "gw", tag := "netifd"
      message := "Interface 'wan' is now up" }
  notifyEligible := true
  sourceRef := "events/0001/01/events.ndjson:2"

/-- The engine ticks before it is told that `wan` is up. -/
def wanUpLateRun : List Operation :=
  [.apply (fun _ => sortedSchedule) [wanDown] ∅ 1000000000 none,
    .tick sortedSchedule 61000000000 none,
    .apply (fun _ => sortedSchedule) [wanUp] ∅ 61000000000 none]

/-- **Evidence that is observed late begins a recovery before the outage was activated.** -/
theorem wanUpLate_not_timelines :
    ¬ Timelines (Service.run sampleEngine {} wanUpLateRun).state.view := by
  have hempty : Consistent sampleEngine (({} : Service).state).view := .empty sampleIDs_injective
  have hview : (Service.run sampleEngine {} wanUpLateRun).state.view
      = ((View.take sampleEngine (({} : Service).state).view wanDown).settle 61000000000).take
        sampleEngine wanUp := by
    have hdown := hempty.call (.apply (fun _ => sortedSchedule) [wanDown] ∅ 1000000000 none)
    have htick := hdown.call (.tick sortedSchedule 61000000000 none)
    simp only [Service.run, wanUpLateRun, List.foldl_cons, List.foldl_nil]
    rw [htick.view_call.2.1, hdown.view_call.2.2, hempty.view_call.2.1]
    simp only [List.foldl_cons, List.foldl_nil]
  have hincident : ((((View.take sampleEngine (({} : Service).state).view wanDown).settle
      61000000000).take sampleEngine wanUp).incidents "8d4663d6450447b8").map
        (fun i => (i.activatedAt, i.recoveryFirstAt)) = some (some 61000000000, some 31000000000) := by
    decide +kernel
  intro h
  rw [hview] at h
  obtain ⟨i, hi, hpair⟩ := Option.map_eq_some_iff.mp hincident
  obtain ⟨hactivated, hrecovery⟩ := Prod.mk.inj hpair
  obtain ⟨a, ha, hle⟩ := (h.each hi).recovery _ hrecovery
  rw [hactivated] at ha
  rw [← Option.some.inj ha] at hle
  exact absurd hle (by decide)

end Logthing
