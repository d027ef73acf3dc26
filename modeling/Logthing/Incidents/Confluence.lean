import Logthing.Incidents.Hosts
import Logthing.Incidents.Reachability
import Logthing.Incidents.Settling

/-!
# Turns in any order

Timers that run out at the same time may be taken in any order, and the loops over the incidents
visit them in any order.  What `advanceLocked` leaves does not depend on it, unless a fallback is
activated while two outages of its primary interface last (`View.OnePrimary`): then the first one
that `primaryDownAtLocked` finds is the one it escalates for.

Two turns that may be taken now are one, or each may be taken after the other with the same result
(`Turned.diamond`).

**Main results.**  `Turns.unique`: all runs of turns that leave nothing due end in one snapshot.
`unambiguous_run`: two runs that differ in the orders of their loops have one result, in whatever
order evidence comes.
-/

namespace Logthing

@[simp] lemma Incident.fired_hostname (i : Incident) (current : Tracker) :
    (i.fired current).hostname = i.hostname := by
  rw [Incident.fired]
  split_ifs
  · rfl
  · rfl

@[simp] lemma Incident.fired_interface (i : Incident) (current : Tracker) :
    (i.fired current).interface = i.interface := by
  rw [Incident.fired]
  split_ifs
  · rfl
  · rfl

/-! ## Notices of one time -/

/-- A notice of a time, about an incident whose ID has no colon. -/
def Notice.AtTime (at_ : Time) (n : Notice) : Prop := n.at_ = at_ ∧ ':' ∉ n.incidentID.toList

section

variable {jobs : Dict String NotificationJob} {notices notices' : List Notice} {at_ : Time}

/-- Notices of one time that share a job are one. -/
lemma Notice.AtTime.eq_of_jobID {n n' : Notice} (h : n.AtTime at_) (h' : n'.AtTime at_)
    (hid : n.jobID = n'.jobID) : n = n' := by
  obtain ⟨hincident, hoccasion⟩ := Notice.jobID_inj h.2 h'.2 hid
  obtain ⟨id, occasion, t⟩ := n
  obtain ⟨id', occasion', t'⟩ := n'
  obtain rfl : id = id' := hincident
  obtain rfl : occasion = occasion' := hoccasion
  obtain rfl : t = t' := h.1.trans h'.1.symm
  rfl

/-- What is filed under an ID once notices of one time have been enqueued: what was, or the job of
the notice with that ID. -/
lemma lookup_enqueueAll (htime : ∀ n ∈ notices, n.AtTime at_) {key : String}
    {job : NotificationJob} : (enqueueAll jobs notices).lookup key = some job ↔
      jobs.lookup key = some job ∨ key ∉ jobs ∧ ∃ n ∈ notices, n.jobID = key ∧ n.job = job := by
  induction notices generalizing jobs with
  | nil => simp [enqueueAll]
  | cons n notices ih =>
      rw [List.forall_mem_cons] at htime
      have hfirst : enqueueAll jobs (n :: notices)
          = enqueueAll (jobs.insertNew n.jobID n.job) notices := List.foldl_cons ..
      have hnew : key ∈ jobs.insertNew n.jobID n.job ↔ key = n.jobID ∨ key ∈ jobs := by
        rw [Dict.insertNew]
        split_ifs with hmem
        · exact ⟨Or.inr, fun h => h.elim (fun h => h ▸ hmem) id⟩
        · rw [Finmap.mem_insert]
      rw [hfirst, ih htime.2, Dict.lookup_insertNew, hnew]
      by_cases hmem : key ∈ jobs
      · obtain ⟨stored, hstored⟩ := Finmap.mem_iff.mp hmem
        rw [if_neg fun h => h.2 (h.1 ▸ hmem)]
        simp [hmem]
      have hnone : jobs.lookup key = none := Finmap.lookup_eq_none.mpr hmem
      by_cases hkey : key = n.jobID
      · rw [if_pos ⟨hkey, by rwa [← hkey]⟩, hnone]
        constructor
        · rintro (hjob | ⟨hnot, -⟩)
          · exact Or.inr ⟨hmem, n, List.mem_cons_self, hkey.symm, Option.some.inj hjob⟩
          · exact absurd (Or.inl hkey) hnot
        · rintro (hjob | ⟨-, m, hm, hid, rfl⟩)
          · cases hjob
          · left
            rcases List.mem_cons.mp hm with rfl | hm
            · rfl
            · rw [htime.1.eq_of_jobID (htime.2 m hm) (hkey.symm.trans hid.symm)]
      · rw [if_neg fun h => hkey h.1, hnone]
        simp [hmem, hkey, Ne.symm hkey]

/-- **The outbox does not depend on the order** of notices of one time. -/
lemma enqueueAll_congr (htime : ∀ n ∈ notices, n.AtTime at_)
    (hsame : ∀ n, n ∈ notices ↔ n ∈ notices') : enqueueAll jobs notices = enqueueAll jobs notices' := by
  refine Finmap.ext_lookup fun key => Option.ext fun job => ?_
  have htime' : ∀ n ∈ notices', n.AtTime at_ := fun n hn => htime n ((hsame n).mpr hn)
  rw [lookup_enqueueAll htime, lookup_enqueueAll htime']
  simp only [hsame]

end

/-! ## Outages that last -/

/-- Whether an outage is one of the primary interface that lasts at a time, once all timers have run
until then. -/
def Incident.primaryLasts (interface hostname : String) (at_ : Time) (i : Incident) : Bool :=
  i.hostname = hostname && i.interface = interface && i.startedAt + i.downAfter ≤ at_ &&
    i.resolvedAt.all (at_ < ·) &&
    (i.state ≠ .pendingRecovery || i.recoveryFirstAt.all fun first => at_ < first + i.recoveredAfter)

/-- **No fallback is activated in between outages**: where the outage of a fallback is activated by
`now`, one outage of the primary interface of its host lasts then, at most. -/
def View.OnePrimary (eng : Engine) (now : Time) (v : View) : Prop :=
  ∀ ⦃id fallback⦄, v.incidents id = some fallback → fallback.state = .pendingFailure →
    fallback.notify = true → fallback.interface ≠ eng.interface →
    fallback.startedAt + fallback.downAfter ≤ now →
    ∀ ⦃pid primary pid' primary'⦄, v.incidents pid = some primary →
      v.incidents pid' = some primary' →
      primary.primaryLasts eng.interface fallback.hostname
        (fallback.startedAt + fallback.downAfter) = true →
      primary'.primaryLasts eng.interface fallback.hostname
        (fallback.startedAt + fallback.downAfter) = true → pid = pid'

section

variable {eng : Engine} {v : View} {key id hostname : String} {current : Tracker} {i : Incident}
  {now at_ : Time}

/-- A timer that runs out does not change how long its outage lasts. -/
lemma Agrees.primaryLasts_fired (hagrees : Agrees key current i) (hwf : WellFormed eng id i)
    (hpending : current.pending = true) (interface hostname : String) (at_ : Time) :
    (i.fired current).primaryLasts interface hostname at_ = i.primaryLasts interface hostname at_ := by
  have hstate := hagrees.state
  rw [Tracker.pending, Bool.or_eq_true, decide_eq_true_eq, decide_eq_true_eq] at hpending
  rcases hpending with hphase | hphase
  · rw [hphase] at hstate
    have hpendingFailure : i.state = .pendingFailure := (Option.some.inj hstate).symm
    simp [Incident.fired, hphase, Incident.primaryLasts, hpendingFailure]
  · rw [hphase] at hstate
    have hrecovering : i.state = .pendingRecovery := (Option.some.inj hstate).symm
    have hunresolved : i.resolvedAt = none := by
      by_contra hne
      rw [hwf.resolved.mpr hne] at hrecovering
      cases hrecovering
    have hphase' : current.phase ≠ .pendingFailure := by rw [hphase]; exact Phase.noConfusion
    simp [Incident.fired, hphase, Incident.primaryLasts, hrecovering, hunresolved,
      hagrees.recovery hphase, Tracker.dueAt]

/-- The state of an open outage tells the phase of its tracker. -/
lemma Phase.eq_of_openState {phase phase' : Phase} {state : State}
    (h : phase.openState = some state) (h' : phase'.openState = some state) : phase = phase' := by
  cases phase <;> cases phase' <;> cases state <;>
    first
    | rfl
    | exact absurd h (by decide)
    | exact absurd h' (by decide)

/-- The timer of an outage that has not been activated yet is due when the outage is to be. -/
lemma Agrees.dueAt_eq (hagrees : Agrees key current i) (hphase : current.phase = .pendingFailure) :
    current.dueAt i = i.startedAt + i.downAfter := by
  rw [Tracker.dueAt, if_pos hphase, hagrees.startedAt]

namespace Consistent

variable (h : Consistent eng v)

include h

/-- A turn does not change how long an outage lasts. -/
lemma lasts_of_fire (hc : v.trackers key = some current) (hpending : current.pending = true)
    (hi : v.incidents current.incidentID = some i) {pid : String} {p : Incident}
    (hp : (v.fire key current i).incidents pid = some p) : ∃ q, v.incidents pid = some q ∧
      ∀ interface hostname at_, p.primaryLasts interface hostname at_
        = q.primaryLasts interface hostname at_ := by
  obtain ⟨j, hj, hagrees⟩ := h.names hc (Tracker.open_of_pending hpending)
  obtain rfl : i = j := Option.some.inj (hi.symm.trans hj)
  simp only [View.fire, View.set, Function.update_apply] at hp
  split_ifs at hp with hpid
  · obtain rfl := Option.some.inj hp
    rw [(h.wellFormed hi).id_eq] at hpid
    rw [hpid]
    exact ⟨i, hi, hagrees.primaryLasts_fired (h.wellFormed hi) hpending⟩
  · exact ⟨p, hp, fun _ _ _ => rfl⟩

/-- **A turn keeps fallbacks from being in between.** -/
lemma onePrimary_fire (hone : v.OnePrimary eng now) (hc : v.trackers key = some current)
    (hpending : current.pending = true) (hi : v.incidents current.incidentID = some i) :
    (v.fire key current i).OnePrimary eng now := by
  intro id fallback hf hstate hnotify hinterface hdue pid p pid' p' hp hp' hlasts hlasts'
  have hbefore : v.incidents id = some fallback := by
    simp only [View.fire, View.set, Function.update_apply] at hf
    split_ifs at hf
    · rw [← Option.some.inj hf, Incident.fired] at hstate
      split_ifs at hstate
    · exact hf
  obtain ⟨q, hq, hsame⟩ := h.lasts_of_fire hc hpending hi hp
  obtain ⟨q', hq', hsame'⟩ := h.lasts_of_fire hc hpending hi hp'
  rw [hsame] at hlasts
  rw [hsame'] at hlasts'
  exact hone hbefore hstate hnotify hinterface hdue hq hq' hlasts hlasts'

/-- A timer that runs after a turn ran before, and is another one. -/
lemma pending_of_fire (hc : v.trackers key = some current) (hpending : current.pending = true)
    (hi : v.incidents current.incidentID = some i) ⦃k : String⦄ ⦃c : Tracker⦄
    (hk : (v.fire key current i).trackers k = some c) (hpending' : c.pending = true) :
    k ≠ key ∧ v.trackers k = some c ∧
      (v.fire key current i).incidents c.incidentID = v.incidents c.incidentID := by
  simp only [View.fire, View.set, Function.update_apply] at hk
  split_ifs at hk with hkey
  · rw [← Option.some.inj hk, current.fired_pending] at hpending'
    cases hpending'
  refine ⟨hkey, hk, Function.update_of_ne ?_ _ _⟩
  rw [(h.wellFormed hi).id_eq]
  exact fun hid => hkey (h.key_eq hk (Tracker.open_of_pending hpending') hc
    (Tracker.open_of_pending hpending) hid)

/-- All that are due do not change how long an outage lasts either. -/
lemma primaryLasts_settled (hi : v.incidents id = some i) (interface hostname : String)
    (at_ : Time) : (v.settledIncident now i).primaryLasts interface hostname at_
      = i.primaryLasts interface hostname at_ := by
  rw [View.settledIncident]
  cases hc : v.trackers i.key with
  | none => rfl
  | some current =>
      simp only
      split_ifs with hdue
      · obtain ⟨j, hj, hagrees⟩ := h.names hc (Tracker.open_of_pending hdue.2.1)
        rw [hdue.1, (h.wellFormed hi).id_eq, hi] at hj
        obtain rfl := Option.some.inj hj
        exact hagrees.primaryLasts_fired (h.wellFormed hi) hdue.2.1 _ _ _
      · rfl

/-- **In two steps**: what is in between at no time of the first, and not afterwards, is not. -/
lemma onePrimary_of_settle {early : Time} (hearly : v.OnePrimary eng early)
    (hlate : (v.settle early).OnePrimary eng now) : v.OnePrimary eng now := by
  intro id fallback hf hstate hnotify hinterface hdue pid p pid' p' hp hp' hlasts hlasts'
  by_cases hfired : fallback.startedAt + fallback.downAfter ≤ early
  · exact hearly hf hstate hnotify hinterface hfired hp hp' hlasts hlasts'
  have hwaits : v.settledIncident early fallback = fallback := by
    rw [View.settledIncident]
    cases hc : v.trackers fallback.key with
    | none => rfl
    | some current =>
        refine if_neg fun hboth => hfired ?_
        obtain ⟨j, hj, hagrees⟩ := h.names hc (Tracker.open_of_pending hboth.2.1)
        rw [hboth.1, (h.wellFormed hf).id_eq, hf] at hj
        obtain rfl := Option.some.inj hj
        rw [← hagrees.dueAt_eq (Phase.eq_of_openState hagrees.state (by rw [hstate]; rfl))]
        exact hboth.2.2
  have hsettled : ∀ {pid p}, v.incidents pid = some p →
      (v.settle early).incidents pid = some (v.settledIncident early p) :=
    fun hp => congrArg (Option.map _) hp
  refine hlate (by rw [hsettled hf, hwaits]) hstate hnotify hinterface hdue (hsettled hp)
    (hsettled hp') ?_ ?_
  · rwa [h.primaryLasts_settled hp]
  · rwa [h.primaryLasts_settled hp']

end Consistent

/-! ## What a turn finds -/

/-- **What `primaryDownAtLocked` finds at a turn** is an outage that lasts. -/
lemma Fires.lasts_of_primaryDown (hfires : Fires eng.interface now v key current i)
    (h : Consistent eng v) (hphase : current.phase = .pendingFailure)
    (hfallback : i.interface ≠ eng.interface) {pid : String} {p : Incident}
    (hp : (v.fire key current i).incidents pid = some p)
    (hdown : p.primaryDown eng.interface i.hostname (current.dueAt i) = true) :
    v.incidents pid = some p ∧
      p.primaryLasts eng.interface i.hostname (current.dueAt i) = true := by
  have hdown' := hdown
  simp only [Incident.primaryDown, Bool.and_eq_true, decide_eq_true_eq, Option.any_eq_true]
    at hdown'
  obtain ⟨⟨⟨hhost, hinterface⟩, activated, hactivated, hle⟩, hall⟩ := hdown'
  have hbefore : v.incidents pid = some p := by
    simp only [View.fire, View.set, Function.update_apply] at hp
    split_ifs at hp
    · rw [← Option.some.inj hp, Incident.fired, if_pos hphase] at hinterface
      exact absurd hinterface hfallback
    · exact hp
  have hwf := h.wellFormed hbefore
  refine ⟨hbefore, ?_⟩
  simp only [Incident.primaryLasts, Bool.and_eq_true, Bool.or_eq_true, decide_eq_true_eq]
  refine ⟨⟨⟨⟨hhost, hinterface⟩, ?_⟩, hall⟩, ?_⟩
  · rw [hwf.downAfter_eq, ← hwf.activatedAt_eq hactivated]
    exact hle
  · -- a recovery that is over by then comes first
    by_cases hrecovering : p.state = .pendingRecovery
    swap
    · exact Or.inl hrecovering
    right
    obtain ⟨current', hc', hopen', hid'⟩ := h.named hbefore (by rw [hrecovering]; decide)
    obtain ⟨j, hj, hagrees⟩ := h.names hc' hopen'
    rw [hid', hbefore] at hj
    obtain rfl := Option.some.inj hj
    have hphase' : current'.phase = .pendingRecovery :=
      Phase.eq_of_openState hagrees.state (by rw [hrecovering]; rfl)
    have hnot : ¬ current'.phase = .pendingFailure := by rw [hphase']; exact Phase.noConfusion
    rw [hagrees.recovery hphase', Option.all_some, decide_eq_true_eq]
    by_contra hover
    have hdueAt : current'.dueAt p = current'.recoverySince + p.recoveredAfter := if_neg hnot
    have hfirst := hfires.first hc' (by rw [hid']; exact hbefore)
      ⟨by simp [Tracker.pending, hphase'], by
        rw [hdueAt]
        exact (not_lt.mp hover).trans hfires.due.2⟩
    simp only [Tracker.rank, Tracker.priority, if_pos hphase, if_neg hfallback, if_neg hnot,
      Prod.Lex.toLex_le_toLex] at hfirst
    rw [hdueAt] at hfirst
    rcases hfirst with hlt | ⟨-, hle⟩
    · exact hover hlt
    · exact absurd hle (by decide)

/-- After a turn, another timer that might have come first comes first. -/
lemma Fires.fire (hfires : Fires eng.interface now v key current i) (h : Consistent eng v)
    {key' : String} {current' : Tracker} {i' : Incident}
    (hfires' : Fires eng.interface now v key' current' i') (hne : key' ≠ key) :
    Fires eng.interface now (v.fire key current i) key' current' i' := by
  have hc : (v.fire key current i).trackers key' = some current' :=
    (Function.update_of_ne hne _ _).trans hfires'.tracker_eq
  have hpending := h.pending_of_fire hfires.tracker_eq hfires.due.1 hfires.incident_eq
  refine ⟨hc, ?_, hfires'.due, fun {k c x} hk hx hdue => ?_⟩
  · rw [(hpending hc hfires'.due.1).2.2]
    exact hfires'.incident_eq
  · obtain ⟨-, hk, hsame⟩ := hpending hk hdue.1
    rw [hsame] at hx
    exact hfires'.first hk hx hdue

/-- Timers that might both come first are of one time and one kind. -/
lemma Fires.kind_eq (hfires : Fires eng.interface now v key current i) {key' : String}
    {current' : Tracker} {i' : Incident}
    (hfires' : Fires eng.interface now v key' current' i') :
    current.dueAt i = current'.dueAt i' ∧ (current.phase = .pendingFailure →
      (i'.interface = eng.interface ↔ i.interface = eng.interface)) := by
  have hrank : current.rank eng.interface i = current'.rank eng.interface i' :=
    le_antisymm (hfires.first hfires'.tracker_eq hfires'.incident_eq hfires'.due)
      (hfires'.first hfires.tracker_eq hfires.incident_eq hfires.due)
  simp only [Tracker.rank, EmbeddingLike.apply_eq_iff_eq, Prod.mk.injEq] at hrank
  refine ⟨hrank.1, fun hphase => ?_⟩
  have hpriority := hrank.2
  simp only [Tracker.priority, if_pos hphase] at hpriority
  by_cases hprimary : i.interface = eng.interface <;>
    by_cases hprimary' : i'.interface = eng.interface <;>
    by_cases hphase' : current'.phase = .pendingFailure <;>
    simp [hprimary, hprimary', hphase'] at hpriority ⊢

end

/-! ## The notices of a turn in any order -/

section

variable {interface hostname : String} {order order' : Traversal String} {orders orders' : Orders}
  {incidents incidents' : Dict String Incident} {current : Tracker} {fired : Incident} {at_ : Time}

/-- `primaryDownAtLocked` finds the same in any order, where there is one at most. -/
lemma primaryDownAt_congr
    (hsame : ∀ id p, p.primaryDown interface hostname at_ = true →
      (incidents.lookup id = some p ↔ incidents'.lookup id = some p))
    (hone : ∀ id p id' p', incidents.lookup id = some p → incidents.lookup id' = some p' →
      p.primaryDown interface hostname at_ = true → p'.primaryDown interface hostname at_ = true →
      id = id') :
    primaryDownAt interface order incidents hostname at_
      = primaryDownAt interface order' incidents' hostname at_ := by
  rw [primaryDownAt, primaryDownAt]
  cases hfind : (order.visit incidents).find? fun kv => kv.2.primaryDown interface hostname at_ with
  | none =>
      have hnone := (order.find?_visit_eq_none _ _).mp hfind
      have hnone' : ((order'.visit incidents').find? fun kv =>
          kv.2.primaryDown interface hostname at_) = none := by
        refine (order'.find?_visit_eq_none _ _).mpr fun id p hp => ?_
        by_contra hdown
        rw [Bool.not_eq_false] at hdown
        have hidle := hnone id p ((hsame id p hdown).mpr hp)
        rw [hdown] at hidle
        cases hidle
      rw [hnone']
  | some found =>
      obtain ⟨hfound, hdown⟩ := order.of_find?_visit hfind
      cases hfind' : (order'.visit incidents').find? fun kv =>
          kv.2.primaryDown interface hostname at_ with
      | none =>
          have hnone' := (order'.find?_visit_eq_none _ _).mp hfind' _ _ ((hsame _ _ hdown).mp hfound)
          rw [hdown] at hnone'
          cases hnone'
      | some found' =>
          obtain ⟨hfound', hdown'⟩ := order'.of_find?_visit hfind'
          rw [← hsame _ _ hdown'] at hfound'
          have hid := hone _ _ _ _ hfound hfound' hdown hdown'
          rw [hid, hfound'] at hfound
          rw [Option.map_some, Option.map_some, Option.some.inj hfound]

/-- **The notices of a turn do not depend on the order of the loops**, nor on incidents that it does
not ask for. -/
lemma mem_turnNotices_congr
    (hprimary : current.phase = .pendingFailure → fired.notify = true → fired.interface ≠ interface →
      primaryDownAt interface orders.primary incidents fired.hostname at_
        = primaryDownAt interface orders'.primary incidents' fired.hostname at_)
    (hfallbacks : current.phase = .pendingFailure → fired.interface = interface →
      ∀ id f, f.escalates interface fired.hostname = true →
        (incidents.lookup id = some f ↔ incidents'.lookup id = some f)) (n : Notice) :
    n ∈ turnNotices interface orders current fired incidents at_ ↔
      n ∈ turnNotices interface orders' current fired incidents' at_ := by
  rw [turnNotices, turnNotices]
  by_cases hphase : current.phase = .pendingFailure
  swap
  · rw [if_neg hphase, if_neg hphase]
  rw [if_pos hphase, if_pos hphase, List.mem_append, List.mem_append]
  refine or_congr ?_ ?_
  · by_cases hnotify : fired.notify = true
    swap
    · rw [if_neg hnotify, if_neg hnotify]
    have hsame : activationNotice interface orders.primary incidents fired at_
        = activationNotice interface orders'.primary incidents' fired at_ := by
      by_cases hinterface : fired.interface = interface
      · simp only [activationNotice, hinterface, ne_eq, not_true_eq_false, if_false]
      · simp only [activationNotice, hprimary hphase hnotify hinterface]
    rw [if_pos hnotify, if_pos hnotify, hsame]
  · by_cases hinterface : fired.interface = interface
    swap
    · rw [if_neg hinterface, if_neg hinterface]
    rw [if_pos hinterface, if_pos hinterface]
    simp only [escalationNotices, List.mem_map, List.mem_filter, Prod.exists, Traversal.mem_visit]
    refine exists_congr fun id => exists_congr fun f => and_congr_left' ?_
    exact and_congr_left fun hescalates => hfallbacks hphase hinterface id f hescalates

end

/-! ## Two turns -/

section

variable {eng : Engine} {s : Snapshot} {now : Time} {key key' : String} {current current' : Tracker}
  {i i' : Incident} {incidents incidents' : Dict String Incident}

/-- The notices of a turn are of one time. -/
lemma Fires.atTime (hfires : Fires eng.interface now s.view key current i)
    (h : Consistent eng s.view)
    (hall : ∀ id x, incidents.lookup id = some x → AboutHost eng x.hostname x.id) (orders : Orders) :
    ∀ n ∈ turnNotices eng.interface orders current (i.fired current) incidents (current.dueAt i),
      n.AtTime (current.dueAt i) := by
  intro n hn
  have habout : AboutHost eng (i.fired current).hostname (i.fired current).id := by
    rw [Incident.fired_id, i.fired_hostname]
    exact (h.wellFormed hfires.incident_eq).aboutHost
  refine ⟨?_, (about_of_mem_turnNotices habout hall hn).colonFree⟩
  by_cases hphase : current.phase = .pendingFailure
  · rw [turnNotices, if_pos hphase, List.mem_append, List.mem_ite_nil_right,
      List.mem_ite_nil_right] at hn
    rcases hn with ⟨-, hn⟩ | ⟨-, hn⟩
    · rw [List.mem_singleton.mp hn]
      rfl
    · obtain ⟨kv, -, rfl⟩ := List.mem_map.mp hn
      rfl
  · rw [turnNotices, if_neg hphase, List.mem_ite_nil_right] at hn
    rw [List.mem_singleton.mp hn.2]
    rfl

/-- **The notices of a turn do not depend on the order of the loops**, nor on outages of its own
kind. -/
lemma Fires.mem_notices_congr (hfires : Fires eng.interface now s.view key current i)
    (h : Consistent eng s.view) (hone : s.view.OnePrimary eng now)
    (hincidents : ∀ id, incidents.lookup id = (s.view.fire key current i).incidents id)
    (hother : current.phase = .pendingFailure → ∀ id x,
      ¬ (x.interface = eng.interface ↔ i.interface = eng.interface) →
        (incidents.lookup id = some x ↔ incidents'.lookup id = some x))
    (orders orders' : Orders) (n : Notice) :
    n ∈ turnNotices eng.interface orders current (i.fired current) incidents (current.dueAt i) ↔
      n ∈ turnNotices eng.interface orders' current (i.fired current) incidents'
        (current.dueAt i) := by
  obtain ⟨j, hj, hagrees⟩ := h.names hfires.tracker_eq (Tracker.open_of_pending hfires.due.1)
  obtain rfl : i = j := Option.some.inj (hfires.incident_eq.symm.trans hj)
  refine mem_turnNotices_congr (fun hphase hnotify hfallback => ?_)
    (fun hphase hprimary id f hescalates => ?_) n
  · rw [i.fired_hostname]
    rw [i.fired_interface] at hfallback
    refine primaryDownAt_congr (fun id p hdown => ?_) fun id p id' p' hp hp' hdown hdown' => ?_
    · refine hother hphase id p ?_
      simp only [Incident.primaryDown, Bool.and_eq_true, decide_eq_true_eq] at hdown
      simp [hdown.1.1.2, hfallback]
    · rw [hincidents] at hp hp'
      obtain ⟨hbefore, hlasts⟩ := hfires.lasts_of_primaryDown h hphase hfallback hp hdown
      obtain ⟨hbefore', hlasts'⟩ := hfires.lasts_of_primaryDown h hphase hfallback hp' hdown'
      have hdue := hfires.due.2
      rw [hagrees.dueAt_eq hphase] at hlasts hlasts' hdue
      rw [Incident.fired, if_pos hphase] at hnotify
      have hstate := hagrees.state
      rw [hphase] at hstate
      exact hone hfires.incident_eq (Option.some.inj hstate).symm (hagrees.notify.trans hnotify)
        hfallback hdue hbefore hbefore' hlasts hlasts'
  · refine hother hphase id f ?_
    rw [i.fired_interface] at hprimary
    obtain ⟨-, hfallback, -⟩ := Incident.escalates_iff.mp hescalates
    simp [hprimary, hfallback]

/-- A snapshot after two turns. -/
lemma advanceOne_advanceOne (hi : s.incidents.lookup current.incidentID = some i)
    (hi' : (s.incidents.insert i.id (i.fired current)).lookup current'.incidentID = some i')
    (orders orders' : Orders) :
    advanceOne eng.interface orders' key' current' (advanceOne eng.interface orders key current s) =
      { s with
        trackers := (s.trackers.insert key current.fired).insert key' current'.fired
        incidents := (s.incidents.insert i.id (i.fired current)).insert i'.id (i'.fired current')
        jobs := enqueueAll s.jobs
          (turnNotices eng.interface orders current (i.fired current)
              (s.incidents.insert i.id (i.fired current)) (current.dueAt i) ++
            turnNotices eng.interface orders' current' (i'.fired current')
              ((s.incidents.insert i.id (i.fired current)).insert i'.id (i'.fired current'))
              (current'.dueAt i')) } := by
  rw [advanceOne_eq hi, advanceOne_eq hi', enqueueAll_append]

/-- The incidents after a turn, looked up. -/
lemma lookup_insert_fired (s : Snapshot) (key : String) (current : Tracker) (i : Incident)
    (id : String) : (s.incidents.insert i.id (i.fired current)).lookup id
      = (s.view.fire key current i).incidents id := by
  simp only [View.fire, View.set, Function.update_apply, Snapshot.view, Dict.lookup_insert_ite]

/-- They are about their hosts. -/
lemma Fires.aboutHost (hfires : Fires eng.interface now s.view key current i)
    (h : Consistent eng s.view) {id : String} {x : Incident}
    (hx : (s.incidents.insert i.id (i.fired current)).lookup id = some x) :
    AboutHost eng x.hostname x.id := by
  rw [lookup_insert_fired s key] at hx
  exact ((h.fire hfires.tracker_eq hfires.due.1 hfires.incident_eq).wellFormed hx).aboutHost

/-- **A turn has one result**, in whatever order its loops are taken. -/
lemma Fires.advanceOne_congr (hfires : Fires eng.interface now s.view key current i)
    (h : Consistent eng s.view) (hone : s.view.OnePrimary eng now) (orders orders' : Orders) :
    advanceOne eng.interface orders key current s
      = advanceOne eng.interface orders' key current s := by
  rw [advanceOne_eq hfires.incident_eq, advanceOne_eq hfires.incident_eq,
    enqueueAll_congr (hfires.atTime h (fun _ _ => hfires.aboutHost h) orders)
      (hfires.mem_notices_congr h hone (lookup_insert_fired s key current i)
        (fun _ _ _ _ => Iff.rfl) orders orders')]

/-- Two timers name different incidents. -/
lemma Fires.id_ne (hfires : Fires eng.interface now s.view key current i)
    (h : Consistent eng s.view) (hfires' : Fires eng.interface now s.view key' current' i')
    (hne : key' ≠ key) : i'.id ≠ i.id := by
  rw [(h.wellFormed hfires.incident_eq).id_eq, (h.wellFormed hfires'.incident_eq).id_eq]
  exact fun hid => hne (h.key_eq hfires'.tracker_eq (Tracker.open_of_pending hfires'.due.1)
    hfires.tracker_eq (Tracker.open_of_pending hfires.due.1) hid)

/-- Another timer that might have come first does not change what a turn asks for. -/
lemma Fires.lookup_other (hfires : Fires eng.interface now s.view key current i)
    (h : Consistent eng s.view) (hfires' : Fires eng.interface now s.view key' current' i')
    (hphase : current.phase = .pendingFailure) {id : String} {x : Incident}
    (hkind : ¬ (x.interface = eng.interface ↔ i.interface = eng.interface)) :
    (s.incidents.insert i.id (i.fired current)).lookup id = some x ↔
      ((s.incidents.insert i'.id (i'.fired current')).insert i.id (i.fired current)).lookup id
        = some x := by
  simp only [Dict.lookup_insert_ite]
  split_ifs with hid hid'
  · rfl
  · -- the other one is of the same kind, before and after
    have hsame := (hfires.kind_eq hfires').2 hphase
    have hi' : s.incidents.lookup id = some i' := by
      rw [hid', (h.wellFormed hfires'.incident_eq).id_eq]
      exact hfires'.incident_eq
    rw [hi', Option.some.injEq, Option.some.injEq]
    constructor
    · rintro rfl
      exact absurd hsame hkind
    · rintro rfl
      rw [i'.fired_interface] at hkind
      exact absurd hsame hkind
  · rfl

/-- **Two timers that might both come first** may be taken in either order. -/
lemma Fires.advanceOne_comm (hfires : Fires eng.interface now s.view key current i)
    (h : Consistent eng s.view) (hone : s.view.OnePrimary eng now)
    (hfires' : Fires eng.interface now s.view key' current' i') (hne : key' ≠ key)
    (orders orders' : Orders) :
    advanceOne eng.interface orders' key' current' (advanceOne eng.interface orders key current s)
      = advanceOne eng.interface orders key current
          (advanceOne eng.interface orders' key' current' s) := by
  have hids := hfires.id_ne h hfires' hne
  have hi' : (s.incidents.insert i.id (i.fired current)).lookup current'.incidentID = some i' := by
    rw [lookup_insert_fired s key]
    exact (hfires.fire h hfires' hne).incident_eq
  have hi : (s.incidents.insert i'.id (i'.fired current')).lookup current.incidentID = some i := by
    rw [lookup_insert_fired s key']
    exact (hfires'.fire h hfires hne.symm).incident_eq
  have hboth : (s.incidents.insert i.id (i.fired current)).insert i'.id (i'.fired current')
      = (s.incidents.insert i'.id (i'.fired current')).insert i.id (i.fired current) :=
    Finmap.insert_insert_of_ne _ hids.symm
  have hmine := hfires.mem_notices_congr h hone (lookup_insert_fired s key current i)
    (fun hphase _ _ hkind => hfires.lookup_other h hfires' hphase hkind) orders orders
  have hothers := hfires'.mem_notices_congr h hone (lookup_insert_fired s key' current' i')
    (fun hphase _ _ hkind => hfires'.lookup_other h hfires hphase hkind) orders' orders'
  have htime := hfires.atTime h (fun _ _ => hfires.aboutHost h) orders
  have htime' := hfires'.atTime h (fun _ _ => hfires'.aboutHost h) orders'
  rw [← (hfires.kind_eq hfires').1] at htime' hothers
  rw [advanceOne_advanceOne hfires.incident_eq hi', advanceOne_advanceOne hfires'.incident_eq hi,
    Finmap.insert_insert_of_ne _ (Ne.symm hne), ← hboth, ← (hfires.kind_eq hfires').1]
  rw [← hboth] at hmine
  congr 1
  refine enqueueAll_congr (List.forall_mem_append.mpr ⟨htime, fun n hn => ?_⟩) fun n => ?_
  · exact htime' n ((hothers n).mpr hn)
  · rw [List.mem_append, List.mem_append, hmine, hothers, or_comm]

/-- **The diamond**: two turns that may be taken now are one, or each may be taken after the other,
with the same result. -/
theorem Turned.diamond (h : Consistent eng s.view) (hone : s.view.OnePrimary eng now)
    {s₁ s₂ : Snapshot} (h₁ : Turned eng now s s₁) (h₂ : Turned eng now s s₂) :
    s₁ = s₂ ∨ ∃ s', Turned eng now s₁ s' ∧ Turned eng now s₂ s' := by
  obtain ⟨orders, key, current, i, hfires, rfl⟩ := h₁
  obtain ⟨orders', key', current', i', hfires', rfl⟩ := h₂
  by_cases hne : key' = key
  · subst hne
    obtain rfl := Option.some.inj (hfires.tracker_eq.symm.trans hfires'.tracker_eq)
    obtain rfl := Option.some.inj (hfires.incident_eq.symm.trans hfires'.incident_eq)
    exact Or.inl (hfires.advanceOne_congr h hone orders orders')
  · right
    refine ⟨_, ⟨orders', key', current', i', ?_, rfl⟩, ⟨orders, key, current, i, ?_,
      hfires.advanceOne_comm h hone hfires' hne orders orders'⟩⟩
    · rw [view_advanceOne hfires.incident_eq]
      exact hfires.fire h hfires' hne
    · rw [view_advanceOne hfires'.incident_eq]
      exact hfires'.fire h hfires (Ne.symm hne)

/-! ## Runs of turns -/

lemma Turned.onePrimary {s' : Snapshot} (hturn : Turned eng now s s') (h : Consistent eng s.view)
    (hone : s.view.OnePrimary eng now) : s'.view.OnePrimary eng now := by
  obtain ⟨key, current, i, hfires, hview⟩ := hturn.view
  rw [hview]
  exact h.onePrimary_fire hone hfires.tracker_eq hfires.due.1 hfires.incident_eq

/-- Where nothing is due there is no turn. -/
lemma View.Idle.not_turned {s' : Snapshot} (hidle : s.view.Idle now) : ¬ Turned eng now s s' := by
  rintro ⟨_, _, _, _, hfires, -⟩
  exact hidle hfires.tracker_eq hfires.incident_eq hfires.due

/-- **All runs of turns that leave nothing due end in one snapshot.** -/
theorem Turns.unique (h : Consistent eng s.view) (hone : s.view.OnePrimary eng now)
    {s₁ s₂ : Snapshot} (h₁ : Turns eng now s s₁) (h₂ : Turns eng now s s₂)
    (hidle₁ : s₁.view.Idle now) (hidle₂ : s₂.view.Idle now) : s₁ = s₂ := by
  let Steps (a b : Snapshot) : Prop :=
    (Consistent eng a.view ∧ a.view.OnePrimary eng now) ∧ Turned eng now a b
  have hsteps : ∀ {s'}, Turns eng now s s' → (Consistent eng s'.view ∧ s'.view.OnePrimary eng now) ∧
      Relation.ReflTransGen Steps s s' := by
    intro s' hturns
    induction hturns with
    | refl => exact ⟨⟨h, hone⟩, .refl⟩
    | tail _ hturn ih =>
        obtain ⟨hboth, hsteps⟩ := ih
        exact ⟨⟨hturn.consistent hboth.1, hturn.onePrimary hboth.1 hboth.2⟩,
          hsteps.tail ⟨hboth, hturn⟩⟩
  have hstuck : ∀ {a b}, a.view.Idle now → Relation.ReflTransGen Steps a b → b = a := by
    intro a b hidle hab
    rcases hab.cases_head with heq | ⟨c, hstep, -⟩
    · exact heq.symm
    · exact absurd hstep.2 hidle.not_turned
  have hdiamond : ∀ a b c, Steps a b → Steps a c →
      ∃ d, Relation.ReflGen Steps b d ∧ Relation.ReflTransGen Steps c d := by
    intro a b c hb hc
    obtain ⟨hcons, hone⟩ := hb.1
    have hnext : ∀ {b}, Steps a b → Consistent eng b.view ∧ b.view.OnePrimary eng now :=
      fun hstep => ⟨hstep.2.consistent hcons, hstep.2.onePrimary hcons hone⟩
    rcases Turned.diamond hcons hone hb.2 hc.2 with rfl | ⟨d, hbd, hcd⟩
    · exact ⟨b, .refl, .refl⟩
    · exact ⟨d, .single ⟨hnext hb, hbd⟩, .single ⟨hnext hc, hcd⟩⟩
  obtain ⟨s', hleft, hright⟩ := Relation.church_rosser hdiamond (hsteps h₁).2 (hsteps h₂).2
  exact (hstuck hidle₁ hleft).symm.trans (hstuck hidle₂ hright)

/-- **Turns that are due by another time** may as well be taken then. -/
lemma Turns.of_due {later : Time} {s' : Snapshot} (h : Consistent eng s.view)
    (hturns : Turns eng now s s')
    (hdue : ∀ ⦃key current i⦄, s.view.trackers key = some current →
      s.view.incidents current.incidentID = some i → current.dueBy now i →
      current.dueAt i ≤ later) : Turns eng later s s' := by
  induction hturns using Relation.ReflTransGen.head_induction_on with
  | refl => exact .refl
  | head hturn _ ih =>
      have hcons := hturn.consistent h
      obtain ⟨orders, key, current, i, hfires, rfl⟩ := hturn
      have hview := @view_advanceOne eng.interface orders key current i _ hfires.incident_eq
      refine (ih hcons fun k c x hc hx hdue' => ?_).head ⟨orders, key, current, i, ?_, rfl⟩
      · rw [hview] at hc hx
        obtain ⟨-, hc, hsame⟩ :=
          h.pending_of_fire hfires.tracker_eq hfires.due.1 hfires.incident_eq hc hdue'.1
        rw [hsame] at hx
        exact hdue hc hx hdue'
      · refine ⟨hfires.tracker_eq, hfires.incident_eq,
          ⟨hfires.due.1, hdue hfires.tracker_eq hfires.incident_eq hfires.due⟩,
          fun {k c x} hc hx hdue' => ?_⟩
        by_cases hnow : c.dueAt x ≤ now
        · exact hfires.first hc hx ⟨hdue'.1, hnow⟩
        · exact Prod.Lex.toLex_le_toLex.mpr (Or.inl (hfires.due.2.trans_lt (not_le.mp hnow)))

/-- Turns do not change when a tracker had evidence last. -/
lemma Turns.lastEvidenceAt_eq {s' : Snapshot} (hturns : Turns eng now s s') (key : String) :
    (s'.view.current key).lastEvidenceAt = (s.view.current key).lastEvidenceAt := by
  induction hturns with
  | refl => rfl
  | tail _ hturn ih =>
      obtain ⟨k, current, i, hfires, hview⟩ := hturn.view
      rw [← ih, hview]
      simp only [View.current, View.fire, View.set, Function.update_apply]
      split_ifs with hkey
      · rw [hkey, hfires.tracker_eq]
        exact current.fired_lastEvidenceAt
      · rfl

/-- **`advanceLocked` catches up** with turns that have been taken before. -/
lemma Turns.advance_eq {s' : Snapshot} (h : Consistent eng s.view)
    (hone : s.view.OnePrimary eng now) (hturns : Turns eng now s s') (orders orders' : Schedule) :
    (advance eng.interface orders now s').1 = (advance eng.interface orders' now s).1 := by
  have hcons : Consistent eng s'.view := by
    induction hturns with
    | refl => exact h
    | tail _ hturn ih => exact hturn.consistent ih
  obtain ⟨hmore, hidle⟩ := @advance_turns eng now s' hcons orders
  obtain ⟨hall, hidle'⟩ := @advance_turns eng now s h orders'
  exact Turns.unique h hone (hturns.trans hmore) hall hidle hidle'

end

/-! ## A run and its events -/

/-- The trackers, incidents and jobs of a snapshot, and nothing else. -/
def Snapshot.outages (s : Snapshot) : Snapshot where
  trackers := s.trackers
  incidents := s.incidents
  jobs := s.jobs

section

variable (eng : Engine) (s : Snapshot)

lemma outages_advanceOne (interface : String) (orders : Orders) (key : String) (current : Tracker) :
    (advanceOne interface orders key current s).outages
      = advanceOne interface orders key current s.outages := by
  rw [advanceOne, advanceOne]
  cases hi : s.incidents.lookup current.incidentID with
  | none =>
      have hi' : s.outages.incidents.lookup current.incidentID = none := hi
      rw [hi']
      rfl
  | some incident =>
      have hi' : s.outages.incidents.lookup current.incidentID = some incident := hi
      rw [hi']
      simp only
      split_ifs
      · rfl
      · rfl

lemma outages_advance (interface : String) (orders : Schedule) (now : Time) :
    (advance interface orders now s).1.outages = (advance interface orders now s.outages).1 := by
  induction orders, s using advance.induct interface now with
  | case1 orders s hnone =>
      have hnone' : nextDueTracker interface (orders 0).due now s.outages = none := hnone
      rw [advance, advance]
      split
      · split
        · rfl
        · rename_i hsome
          cases hnone'.symm.trans hsome
      · rename_i hsome
        cases hnone.symm.trans hsome
  | case2 orders s key current hsome ih =>
      have hsome' : nextDueTracker interface (orders 0).due now s.outages = some (key, current) :=
        hsome
      rw [outages_advanceOne] at ih
      rw [advance, advance]
      split
      · rename_i hnone
        cases hsome.symm.trans hnone
      · rename_i key₁ current₁ hsome₁
        obtain ⟨rfl, rfl⟩ := Prod.mk.inj (Option.some.inj (hsome.symm.trans hsome₁))
        split
        · rename_i hnone
          cases hsome'.symm.trans hnone
        · rename_i key₂ current₂ hsome₂
          obtain ⟨rfl, rfl⟩ := Prod.mk.inj (Option.some.inj (hsome'.symm.trans hsome₂))
          exact ih

lemma outages_observeEvidence (evidence : Evidence) (notifyEligible : Bool) :
    (observeEvidence eng evidence notifyEligible s).outages
      = observeEvidence eng evidence notifyEligible s.outages :=
  apply_ite Snapshot.outages _ _ _

lemma outages_observeLocked (orders : Schedule) (o : Observation) :
    (observeLocked eng orders o.message o.notifyEligible o.sourceRef s).outages
      = observeLocked eng orders o.message o.notifyEligible o.sourceRef s.outages := by
  cases he : eng.evidence o with
  | none => rw [observeLocked_of_none he, observeLocked_of_none he]
  | some evidence =>
      have hadvance := outages_advance s eng.interface orders evidence.at_
      rw [observeLocked_of_some he, observeLocked_of_some he, ← hadvance]
      have hview : s.outages.view = s.view := rfl
      rw [hview]
      split_ifs
      · rfl
      · rfl
      · exact outages_observeEvidence eng _ evidence o.notifyEligible

/-- **An event changes outages and nothing else.** -/
lemma outages_event (e : Event) : (s.event eng e).outages = s.outages.event eng e := by
  cases e with
  | observe orders o => exact outages_observeLocked eng s orders o
  | tick orders now => exact outages_advance s eng.interface orders now

lemma outages_after (events : List Event) :
    (s.after eng events).outages = s.outages.after eng events := by
  induction events generalizing s with
  | nil => rfl
  | cons e events ih =>
      rw [Snapshot.after, Snapshot.after, List.foldl_cons, List.foldl_cons, ← outages_event]
      exact ih _

lemma after_observeEvents (orders : ℕ → Schedule) (os : List Observation) :
    s.after eng (observeEvents orders os) = observeAll eng orders os s := by
  induction os generalizing orders s with
  | nil => rfl
  | cons o os ih => exact ih _ _

/-- **A call is its events**, as far as outages and their jobs go. -/
lemma outages_call {op : Operation} (hlive : op.live) (svc : Service) :
    (svc.call eng op).state.outages = svc.state.outages.after eng op.events := by
  cases op with
  | observe orders message notifyEligible outcome =>
      rw [Service.call, Service.observe_state]
      exact outages_observeLocked eng svc.state orders ⟨message, notifyEligible, ""⟩
  | apply orders os cursors checkpointAt outcome =>
      rw [Service.call, Service.apply_state, Operation.events, ← outages_after,
        after_observeEvents]
      rfl
  | tick orders now outcome =>
      rw [Service.call, Service.tick_state]
      exact outages_advance svc.state eng.interface orders now
  | rebuild | markNotificationSent | markNotificationFailed | setCursors => exact absurd hlive id

/-- **A run is its events**, as far as outages and their jobs go. -/
lemma outages_run {ops : List Operation} (hlive : ∀ op ∈ ops, op.live) (svc : Service) :
    (svc.run eng ops).state.outages
      = svc.state.outages.after eng (ops.flatMap Operation.events) := by
  induction ops generalizing svc with
  | nil => rfl
  | cons op ops ih =>
      rw [List.flatMap_cons, after_append, ← outages_call eng (hlive op List.mem_cons_self)]
      exact ih (fun op' hop' => hlive op' (List.mem_cons_of_mem _ hop')) _

end

/-! ## Runs in any order of time -/

/-- The time until which an event lets timers run out. -/
def Event.reaches (eng : Engine) (v : View) : Event → Option Time
  | .tick _ now => some now
  | .observe _ o => (eng.evidence o).bind fun evidence =>
      if evidence.Counts (v.current evidence.key) then some evidence.at_ else none

/-- **In a run** no fallback is activated in between outages. -/
def Unambiguous (eng : Engine) : Snapshot → List Event → Prop
  | _, [] => True
  | s, e :: events => (∀ now ∈ e.reaches eng s.view, s.view.OnePrimary eng now) ∧
      Unambiguous eng (s.event eng e) events

lemma unambiguous_append {eng : Engine} {s : Snapshot} {events events' : List Event} :
    Unambiguous eng s (events ++ events') ↔
      Unambiguous eng s events ∧ Unambiguous eng (s.after eng events) events' := by
  induction events generalizing s with
  | nil => exact ⟨fun h => ⟨trivial, h⟩, And.right⟩
  | cons e events ih =>
      rw [List.cons_append, Unambiguous, Unambiguous, ih, and_assoc]
      rfl

namespace Consistent

variable {eng : Engine} {s : Snapshot} (h : Consistent eng s.view)

include h

/-- **Advancing has one result.** -/
lemma advance_eq {now : Time} (hone : s.view.OnePrimary eng now) (orders orders' : Schedule) :
    Logthing.advance eng.interface orders now s = Logthing.advance eng.interface orders' now s := by
  refine Prod.ext (Turns.advance_eq h hone .refl orders orders') ?_
  rw [Bool.eq_iff_iff, ← not_iff_not, Bool.not_eq_true, Bool.not_eq_true, advance_changed,
    advance_changed]

/-- **An observation has one result.** -/
lemma observeLocked_eq {orders : Schedule} {o : Observation}
    (hone : ∀ now ∈ (Event.observe orders o).reaches eng s.view, s.view.OnePrimary eng now)
    (orders' : Schedule) :
    Logthing.observeLocked eng orders o.message o.notifyEligible o.sourceRef s
      = Logthing.observeLocked eng orders' o.message o.notifyEligible o.sourceRef s := by
  cases he : eng.evidence o with
  | none => rw [observeLocked_of_none he, observeLocked_of_none he]
  | some evidence =>
      rw [observeLocked_of_some he, observeLocked_of_some he]
      by_cases hcounts : evidence.Counts (s.view.current evidence.key)
      · have hreaches : (Event.observe orders o).reaches eng s.view = some evidence.at_ := by
          rw [Event.reaches, he, Option.bind_some, if_pos hcounts]
        rw [h.advance_eq (hone _ hreaches) orders orders']
      · -- no timer runs out
        by_cases hlate : evidence.Stale (s.view.current evidence.key)
        · rw [if_pos hlate, if_pos hlate]
        · have honly : evidence.observeOnly = true := by
            by_contra honly
            exact hcounts ⟨hlate, Bool.eq_false_iff.mpr honly⟩
          rw [if_neg hlate, if_neg hlate, if_pos honly, if_pos honly]

/-- **The observations of a call have one result.** -/
lemma observeAll_eq {orders : ℕ → Schedule} {os : List Observation}
    (hone : Unambiguous eng s (observeEvents orders os)) (orders' : ℕ → Schedule) :
    Logthing.observeAll eng orders os s = Logthing.observeAll eng orders' os s := by
  induction os generalizing orders orders' s with
  | nil => rfl
  | cons o os ih =>
      rw [Logthing.observeAll, Logthing.observeAll, ← h.observeLocked_eq hone.1 (orders' 0)]
      exact ih (h.observeLocked (orders 0) o) hone.2 _

end Consistent

/-- **A call has one result**, whatever the orders of its loops. -/
lemma Consistent.call_eq {eng : Engine} {svc : Service} {op op' : Operation}
    (h : Consistent eng svc.state.view) (hsame : op.Reordered op')
    (hone : Unambiguous eng svc.state op.events) : svc.call eng op = svc.call eng op' := by
  cases hsame with
  | @observe orders orders' message notifyEligible outcome =>
      have hstep := h.observeLocked_eq hone.1 orders'
      rw [Service.call, Service.call, Service.observe, Service.observe, hstep]
  | @apply orders orders' observations cursors checkpointAt outcome =>
      rw [Service.call, Service.call, Service.apply, Service.apply, h.observeAll_eq hone orders']
  | @tick orders orders' now outcome =>
      rw [Service.call, Service.call, Service.tick, Service.tick,
        h.advance_eq (hone.1 now rfl) orders orders']

/-- What else a snapshot holds does not matter. -/
lemma unambiguous_outages {eng : Engine} {s : Snapshot} {events : List Event} :
    Unambiguous eng s.outages events ↔ Unambiguous eng s events := by
  induction events generalizing s with
  | nil => exact Iff.rfl
  | cons e events ih =>
      rw [Unambiguous, Unambiguous, ← outages_event, ih]
      exact Iff.rfl

/-- **A run** of `Observe`, `Apply` and `Tick` **has one result**, whatever the orders of its loops
and in whatever order of time it comes, if in it no fallback is activated while two outages of its primary interface last. -/
theorem unambiguous_run {eng : Engine} (hids : eng.ids.Injective) {ops ops' : List Operation}
    (hsame : List.Forall₂ Operation.Reordered ops ops')
    (hone : Unambiguous eng {} (ops.flatMap Operation.events)) :
    Service.run eng {} ops = Service.run eng {} ops' := by
  have hstep : ∀ {svc : Service}, Consistent eng svc.state.view →
      Unambiguous eng svc.state (ops.flatMap Operation.events) →
      svc.run eng ops = svc.run eng ops' := by
    clear hone
    induction hsame with
    | nil => exact fun _ _ => rfl
    | @cons op op' ops ops' hop _ ih =>
        intro svc hcons hone
        rw [List.flatMap_cons, unambiguous_append] at hone
        rw [Service.run, Service.run, List.foldl_cons, List.foldl_cons,
          ← hcons.call_eq hop hone.1]
        refine ih (hcons.call op) (unambiguous_outages.mp ?_)
        rw [outages_call eng hop.live, ← outages_after]
        exact unambiguous_outages.mpr hone.2
  exact hstep (.empty hids) hone

/-- Where all outages are of the primary interface, no fallback is activated. -/
lemma View.OnePrimary.of_primaries {eng : Engine} {s : Snapshot}
    (hprimary : ∀ kv ∈ (Traversal.inserted String).visit s.incidents, kv.2.interface = eng.interface)
    (now : Time) : s.view.OnePrimary eng now := fun id fallback hf _ _ hinterface =>
  absurd (hprimary (id, fallback) ((Traversal.mem_visit _ _ _ _).mpr hf)) hinterface

/-- `wan` of `ap` comes up after that of `gw` has been down for a minute. -/
def apUpLater : Observation where
  message :=
    { id := "two", receivedAt := 100000000000, hostname := "ap", tag := "netifd"
      message := "Interface 'wan' is now up" }
  notifyEligible := true
  sourceRef := "events/0001/01/events.ndjson:2"

/-- Some observations are read before a tick that comes late. -/
def lateTickRun (orders : Schedule) (os : List Observation) : List Operation :=
  [.apply (fun _ => orders) os ∅ 1000000000 none, .tick orders 70000000000 none]

/-- A tick that comes late, with its loops in key order and against it. -/
theorem unambiguous_run_lateTickRun :
    Service.run sampleEngine {} (lateTickRun forwards [wanDown, apUpLater])
      = Service.run sampleEngine {} (lateTickRun backwards [wanDown, apUpLater]) := by
  refine unambiguous_run sampleIDs_injective (.cons .apply (.cons .tick .nil)) ⟨?_, ?_, ?_, trivial⟩
  · exact fun now _ => .of_primaries (by decide +kernel) now
  · exact fun now _ => .of_primaries (by decide +kernel) now
  · exact fun now _ => .of_primaries (by decide +kernel) now

end Logthing
