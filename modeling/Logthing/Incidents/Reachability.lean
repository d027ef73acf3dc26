import Logthing.Incidents.OutboxRuns

/-!
# Recovery from reachability failures

A primary interface can be down in two ways: `netifd` says that the link is gone, or `gl-repeater`
that nothing is reachable through it.  Once `gl-repeater` has said so, the link coming up is no
recovery: `reachabilityDown` stays set until the outage is over (`reachabilityDown_event`).

A call of `Apply` takes many observations, so runs are taken apart into `Event`s: one observation
or one tick.  An outage goes on while it is open (`View.Holds`).  Once it is over, what its first
message would open again, under the same ID, is another one.

**Main results.**  `recovers_by_reachability`: in every run the recovery or withdrawal of such an
outage comes from `gl-repeater` reporting the interface online.
-/

namespace Logthing

/-! ## Runs, event by event -/

/-- What the engine does at once. -/
inductive Event where
  | observe (orders : Schedule) (o : Observation)
  | tick (orders : Schedule) (now : Time)

/-- A snapshot after an event. -/
def Snapshot.event (eng : Engine) (s : Snapshot) : Event → Snapshot
  | .observe orders o => observeLocked eng orders o.message o.notifyEligible o.sourceRef s
  | .tick orders now => (advance eng.interface orders now s).1

/-- A snapshot after a list of events. -/
def Snapshot.after (eng : Engine) (s : Snapshot) (events : List Event) : Snapshot :=
  events.foldl (Snapshot.event eng) s

/-- The observations of a call, one after another. -/
def observeEvents : (ℕ → Schedule) → List Observation → List Event
  | _, [] => []
  | orders, o :: os => .observe (orders 0) o :: observeEvents (fun n => orders (n + 1)) os

/-- The events of a call of `Observe`, `Apply` or `Tick`. -/
def Operation.events : Operation → List Event
  | .observe orders message notifyEligible _ => [.observe orders ⟨message, notifyEligible, ""⟩]
  | .apply orders observations _ _ _ => observeEvents orders observations
  | .tick orders now _ => [.tick orders now]
  | _ => []

/-- An event, on views. -/
def View.event (eng : Engine) (v : View) : Event → View
  | .observe _ o => v.take eng o
  | .tick _ now => v.settle now

section

variable {eng : Engine} {s : Snapshot}

lemma view_event (h : Consistent eng s.view) (e : Event) :
    (s.event eng e).view = s.view.event eng e ∧ Consistent eng (s.event eng e).view := by
  cases e with
  | observe orders o => exact ⟨view_observeLocked h orders o, h.observeLocked orders o⟩
  | tick orders now => exact ⟨advance_view h orders, h.advance orders⟩

lemma view_after (h : Consistent eng s.view) (events : List Event) :
    (s.after eng events).view = events.foldl (View.event eng) s.view ∧
      Consistent eng (s.after eng events).view := by
  induction events generalizing s with
  | nil => exact ⟨rfl, h⟩
  | cons e events ih =>
      obtain ⟨hview, hcons⟩ := view_event h e
      rw [List.foldl_cons, ← hview]
      exact ih hcons

lemma after_append (events events' : List Event) :
    s.after eng (events ++ events') = (s.after eng events).after eng events' :=
  List.foldl_append

lemma foldl_observeEvents (orders : ℕ → Schedule) (os : List Observation) (v : View) :
    (observeEvents orders os).foldl (View.event eng) v = os.foldl (View.take eng) v := by
  induction os generalizing orders v with
  | nil => rfl
  | cons o os ih => exact ih _ _

/-- **A run is its events**, as far as trackers and incidents go. -/
lemma view_run {svc : Service} (h : Consistent eng svc.state.view) {ops : List Operation}
    (hlive : ∀ op ∈ ops, op.live) :
    (svc.run eng ops).state.view
      = (ops.flatMap Operation.events).foldl (View.event eng) svc.state.view := by
  induction ops generalizing svc with
  | nil => rfl
  | cons op ops ih =>
      obtain ⟨hobserve, happly, htick⟩ := h.view_call
      have hcall : (svc.call eng op).state.view
          = op.events.foldl (View.event eng) svc.state.view := by
        have hop := hlive op List.mem_cons_self
        cases op with
        | observe orders message notifyEligible outcome => exact hobserve _ _ _ _
        | apply orders os cursors checkpointAt outcome =>
            exact (happly _ _ _ _ _).trans (foldl_observeEvents orders os _).symm
        | tick orders now outcome => exact htick _ _ _
        | rebuild | markNotificationSent | markNotificationFailed | setCursors =>
            exact absurd hop id
      rw [List.flatMap_cons, List.foldl_append, ← hcall]
      exact ih (h.call op) fun op' hop' => hlive op' (List.mem_cons_of_mem _ hop')

end

/-- What evidence leaves of its own tracker. -/
lemma current_react_self (eng : Engine) (evidence : Evidence) (notifyEligible : Bool) (v : View) :
    (v.react eng evidence notifyEligible).current evidence.key
      = if evidence.masked eng (v.current evidence.key) then v.current evidence.key
        else (reaction eng evidence notifyEligible
          { v.current evidence.key with lastEvidenceAt := evidence.at_ }).current := by
  rw [View.react]
  split_ifs
  · rfl
  · simp only [View.current, View.set, Function.update_self, Option.getD_some]

/-! ## Evidence in the order it is stamped -/

/-- Evidence of an open outage is not stamped before its start, and neither is its recovery. -/
structure Tracker.Sequenced (current : Tracker) : Prop where
  seen : current.phase.openState ≠ none → current.lastEvidenceAt ≠ 0 ∧
    current.pendingSince ≤ current.lastEvidenceAt
  recovery : current.phase = .pendingRecovery → current.pendingSince ≤ current.recoverySince

lemma Tracker.Sequenced.of_closed {current : Tracker} (h : current.phase.openState = none) :
    current.Sequenced where
  seen hopen := absurd h hopen
  recovery hphase := by
    rw [hphase] at h
    cases h

/-- Whatever is known of a tracker is so of all. -/
def View.Sequenced (v : View) : Prop := ∀ key, (v.current key).Sequenced

namespace View.Sequenced

variable {eng : Engine} {v : View} {evidence : Evidence}

lemma settle (h : v.Sequenced) (now : Time) : (v.settle now).Sequenced := by
  intro key
  rcases current_settle v now key with ⟨hsame, -⟩ | ⟨i, -, -, hdue, hfired⟩
  · rw [hsame]
    exact h key
  · rw [hfired, Tracker.fired]
    split_ifs with hphase
    · exact ⟨fun _ => (h key).seen (Tracker.open_of_pending hdue.1), fun hrec => Phase.noConfusion hrec⟩
    · exact .of_closed rfl

lemma sight (h : v.Sequenced) (hzero : evidence.at_ ≠ 0)
    (hfresh : ¬ evidence.Stale (v.current evidence.key)) : (v.sight evidence).Sequenced := by
  intro key
  rw [current_sight]
  split_ifs with hkey
  · rw [hkey, Tracker.sighted]
    split_ifs with hphase
    · exact .of_closed rfl
    · refine ⟨fun hopen => ⟨hzero, ?_⟩, (h evidence.key).recovery⟩
      obtain ⟨hseen, hle⟩ := (h evidence.key).seen hopen
      exact hle.trans (not_lt.mp fun hlt => hfresh ⟨hseen, hlt⟩)
  · exact h key

lemma react (h : v.Sequenced) (hzero : evidence.at_ ≠ 0)
    (hfresh : ¬ evidence.Stale (v.current evidence.key)) (notifyEligible : Bool) :
    (v.react eng evidence notifyEligible).Sequenced := by
  intro key
  by_cases hkey : key = evidence.key
  · rw [hkey, current_react_self]
    split_ifs
    · exact h evidence.key
    · have hlater : (v.current evidence.key).phase.openState ≠ none →
          (v.current evidence.key).pendingSince ≤ evidence.at_ := by
        intro hopen
        obtain ⟨hseen, hle⟩ := (h evidence.key).seen hopen
        exact hle.trans (not_lt.mp fun hlt => hfresh ⟨hseen, hlt⟩)
      cases honline : evidence.online <;> cases hphase : (v.current evidence.key).phase <;>
        simp only [reaction, honline, hphase]
      case false.unset | false.healthy =>
          exact ⟨fun _ => ⟨hzero, le_rfl⟩, fun hrec => Phase.noConfusion hrec⟩
      case true.unset | true.healthy | true.pendingFailure => exact .of_closed rfl
      all_goals
        have hopen : (v.current evidence.key).phase.openState ≠ none := by
          rw [hphase]
          exact Option.some_ne_none _
      case false.pendingFailure | false.active | false.pendingRecovery =>
          exact ⟨fun _ => ⟨hzero, hlater hopen⟩, fun hrec => Phase.noConfusion hrec⟩
      case true.active => exact ⟨fun _ => ⟨hzero, hlater hopen⟩, fun _ => hlater hopen⟩
      case true.pendingRecovery =>
          exact ⟨fun _ => ⟨hzero, hlater hopen⟩, fun _ => (h evidence.key).recovery hphase⟩
  · rw [current_react_of_ne hkey]
    exact h key

/-- **Every event keeps to the order.** -/
lemma event (h : v.Sequenced) (e : Event) : (v.event eng e).Sequenced := by
  cases e with
  | tick orders now => exact h.settle now
  | observe orders o =>
      rw [View.event, View.take]
      cases hevidence : eng.evidence o with
      | none => exact h
      | some evidence =>
          obtain ⟨-, hzero, -⟩ := evidence_eq_some hevidence
          simp only [View.observe]
          split_ifs with hstale
          · exact h
          · exact h.sight hzero hstale
          · refine (h.settle evidence.at_).react hzero ?_ _
            rwa [Evidence.Stale, lastEvidenceAt_settle]

end View.Sequenced

/-! ## Outages that go on -/

/-- The open outage of an interface. -/
def View.Holds (v : View) (id hostname interface : String) : Prop :=
  ∃ i, v.incidents id = some i ∧ i.hostname = hostname ∧ i.interface = interface ∧
    i.state ≠ .resolved

/-- An outage begins to recover. -/
def beginsRecovery (before after : Option Incident) : Bool :=
  before.any (·.state ≠ .pendingRecovery) && after.any (·.state = .pendingRecovery)

/-- An outage is withdrawn. -/
def isDiscarded (before after : Option Incident) : Bool := before.isSome && after.isNone

/-- Whether an outage begins to recover or is withdrawn. -/
def moves (before after : Option Incident) : Bool :=
  beginsRecovery before after || isDiscarded before after

lemma moves_self (i : Option Incident) : moves i i = false := by
  cases i <;> simp [moves, beginsRecovery, isDiscarded]

/-- A move in two steps of which the first is none is the second. -/
lemma moves_of_not {i j k : Option Incident} (h : moves i k = true) (hnot : moves i j = false) :
    moves j k = true := by
  cases i <;> cases j <;> cases k <;>
    simp_all [moves, beginsRecovery, isDiscarded]

/-- `gl-repeater` reports an interface online or offline. -/
def Event.Reports (eng : Engine) (online : Bool) (hostname interface : String) : Event → Prop
  | .observe _ o => o.message.tag = "gl-repeater" ∧ ∃ evidence, eng.evidence o = some evidence ∧
      evidence.reachability = true ∧ evidence.online = online ∧ evidence.hostname = hostname ∧
      evidence.iface = interface
  | .tick .. => False

lemma tag_of_reachability {eng : Engine} {o : Observation} {evidence : Evidence}
    (h : eng.evidence o = some evidence) (hreachability : evidence.reachability = true) :
    o.message.tag = "gl-repeater" ∧ evidence.observeOnly = false := by
  obtain ⟨e, he, rfl⟩ := Option.map_eq_some_iff.mp h
  exact classify_reachability (e := e) he hreachability

section

variable {eng : Engine} {v : View} {id hostname interface : String} {evidence : Evidence}
  {notifyEligible : Bool}

/-- The tracker of an open outage. -/
lemma Consistent.current_of_holds (h : Consistent eng v) (hholds : v.Holds id hostname interface) :
    (v.current (trackerKey hostname interface)).phase.openState ≠ none ∧
      (v.current (trackerKey hostname interface)).incidentID = id := by
  obtain ⟨i, hi, rfl, rfl, hs⟩ := hholds
  obtain ⟨current, hc, hopen, hid⟩ := h.named hi hs
  have hcurrent : v.current (trackerKey i.hostname i.interface) = current := by
    rw [Incident.key] at hc
    rw [View.current, hc, Option.getD_some]
  rw [hcurrent]
  exact ⟨hopen, hid⟩

/-- **What evidence withdraws or lets recover** is the outage of its own interface, which came up
and was not known to be out of reach. -/
lemma reaction_of_move {i : Incident} (hi : v.incidents id = some i)
    (hmove : moves (some i) ((v.react eng evidence notifyEligible).incidents id) = true) :
    evidence.online = true ∧ evidence.masked eng (v.current evidence.key) = false ∧
      (v.current evidence.key).phase.openState ≠ none ∧
      (v.current evidence.key).incidentID = id := by
  have hstays : ∀ j : Incident, moves (some i) (some j) = true →
      (j.state = .pendingRecovery → i.state = .pendingRecovery) → False := by
    intro j hj hsame
    simp only [moves, beginsRecovery, isDiscarded, Option.any_some, Option.isSome_some,
      Option.isNone_some, Bool.and_false, Bool.or_false, Bool.and_eq_true, decide_eq_true_eq] at hj
    exact hj.1 (hsame hj.2)
  rw [View.react] at hmove
  split_ifs at hmove with hmasked
  · rw [hi] at hmove
    exact (hstays i hmove fun hs => hs).elim
  rw [Bool.not_eq_true] at hmasked
  simp only [View.set, Function.update_apply] at hmove
  split_ifs at hmove with hid
  swap
  · rw [hi] at hmove
    exact (hstays i hmove fun hs => hs).elim
  rw [← hid, hi] at hmove
  cases honline : evidence.online <;> cases hphase : (v.current evidence.key).phase <;>
    simp only [reaction, honline, hphase, Option.map_some] at hid hmove
  case false.unset | false.healthy | false.pendingRecovery =>
      exact (hstays _ hmove fun hs => State.noConfusion hs).elim
  case false.pendingFailure | false.active => exact (hstays _ hmove fun hs => hs).elim
  case true.unset | true.healthy => exact (hstays i hmove fun hs => hs).elim
  all_goals exact ⟨rfl, hmasked, Option.some_ne_none _, hid.symm⟩

/-- Timers begin no recovery and withdraw nothing. -/
lemma Consistent.settle_of_move (h : Consistent eng v) (now : Time) :
    moves (v.incidents id) ((v.settle now).incidents id) = false := by
  cases hj : (v.settle now).incidents id with
  | none =>
      have hi : v.incidents id = none := Option.map_eq_none_iff.mp hj
      rw [hi]
      rfl
  | some j =>
      rcases incidents_settle h hj with hi | ⟨i, current, hi, -, -, -, rfl⟩
      · rw [hi, moves_self]
      · rw [Incident.fired]
        split_ifs <;> simp [hi, moves, beginsRecovery, isDiscarded]

/-- **An outage that timers end** has lasted: they run out after its start. -/
lemma Consistent.resolved_of_settle (h : Consistent eng v) (hseq : v.Sequenced) {now : Time}
    (hholds : v.Holds id hostname interface)
    (hends : ¬ (v.settle now).Holds id hostname interface) :
    ∃ j, (v.settle now).incidents id = some j ∧ j.state = .resolved ∧ j.startedAt < now := by
  obtain ⟨i, hi, hhost, hinterface, hs⟩ := hholds
  have hsettled : (v.settle now).incidents id = some (v.settledIncident now i) :=
    congrArg (Option.map _) hi
  refine ⟨_, hsettled, ?_⟩
  rcases incidents_settle h hsettled with hsame | ⟨i', current, hi', hc, hid, hdue, hfired⟩
  · rw [hi] at hsame
    rw [← Option.some.inj hsame] at hsettled
    exact absurd ⟨i, hsettled, hhost, hinterface, hs⟩ hends
  · obtain rfl : i = i' := Option.some.inj (hi.symm.trans hi')
    rw [hfired] at hsettled ⊢
    obtain ⟨j, hj, hagrees⟩ := h.names hc (Tracker.open_of_pending hdue.1)
    rw [hid] at hj
    obtain rfl : i = j := Option.some.inj (hi.symm.trans hj)
    by_cases hphase : current.phase = .pendingFailure
    · rw [Incident.fired, if_pos hphase] at hsettled
      exact absurd ⟨_, hsettled, hhost, hinterface, State.noConfusion⟩ hends
    · rw [Incident.fired, if_neg hphase]
      refine ⟨rfl, ?_⟩
      have hrecovering : current.phase = .pendingRecovery := by
        have hpending := hdue.1
        rw [Tracker.pending, Bool.or_eq_true, decide_eq_true_eq, decide_eq_true_eq] at hpending
        exact hpending.resolve_left hphase
      have hcurrent : v.current i.key = current := by rw [View.current, hc, Option.getD_some]
      have hle := (hseq i.key).recovery (by rw [hcurrent]; exact hrecovering)
      have hpositive := eng.recoveredAfter_pos
      have hover := hdue.2
      rw [hcurrent, ← hagrees.startedAt] at hle
      rw [Tracker.dueAt, if_neg hphase, (h.wellFormed hi).recoveredAfter_eq] at hover
      exact hle.trans_lt ((Int.lt_add_of_pos_right _ hpositive).trans_le hover)

/-- An outage that is over is not opened again by evidence from after its start. -/
lemma Consistent.not_holds_react (h : Consistent eng v) {j : Incident}
    (hj : v.incidents id = some j) (hs : j.state = .resolved) (hlater : j.startedAt < evidence.at_) :
    ¬ (v.react eng evidence notifyEligible).Holds id hostname interface := by
  rintro ⟨k, hk, -, -, hk'⟩
  have hsame : ¬ v.incidents id = some k := by
    intro hv
    rw [hj] at hv
    rw [← Option.some.inj hv] at hk'
    exact hk' hs
  rw [View.react] at hk
  split_ifs at hk with hmasked
  · exact hsame hk
  simp only [View.set, Function.update_apply] at hk
  split_ifs at hk with hid
  swap
  · exact hsame hk
  have hnone : ∀ {key}, (v.current key).phase.openState ≠ none →
      (v.current key).incidentID ≠ id := by
    rintro key hopen rfl
    obtain ⟨i, hi, hagrees, -⟩ := h.incident_of_open hopen
    rw [hj] at hi
    rw [← Option.some.inj hi] at hagrees
    exact hagrees.not_resolved hs
  rw [← hid] at hk
  cases honline : evidence.online <;> cases hphase : (v.current evidence.key).phase <;>
    simp only [reaction, honline, hphase] at hid hk
  case false.unset | false.healthy =>
      obtain ⟨messageID, horigin⟩ := (h.wellFormed hj).origin
      rw [hid] at horigin
      obtain ⟨-, -, hat, -⟩ := h.injective horigin
      exact hlater.ne' hat
  case true.unset | true.healthy => exact hsame hk
  all_goals exact hnone (by rw [hphase]; exact Option.some_ne_none _) hid.symm

/-! ## The flag stays set -/

/-- A timer that does not end the outage keeps the flag. -/
lemma reachabilityDown_settle {key : String} (now : Time)
    (hflag : (v.current key).reachabilityDown = true)
    (hopen : ((v.settle now).current key).phase.openState ≠ none) :
    ((v.settle now).current key).reachabilityDown = true := by
  rcases current_settle v now key with ⟨hsame, -⟩ | ⟨i, -, -, -, hfired⟩
  · rw [hsame]
    exact hflag
  · rw [hfired, Tracker.fired] at hopen ⊢
    split_ifs at hopen ⊢
    · exact hflag
    · exact absurd rfl hopen

/-- Evidence of an open outage that does not end it keeps the flag. -/
lemma reachabilityDown_react {key : String} (hflag : (v.current key).reachabilityDown = true)
    (hbefore : (v.current key).phase.openState ≠ none)
    (hopen : ((v.react eng evidence notifyEligible).current key).phase.openState ≠ none) :
    ((v.react eng evidence notifyEligible).current key).reachabilityDown = true := by
  by_cases hkey : key = evidence.key
  swap
  · rw [current_react_of_ne hkey]
    exact hflag
  subst hkey
  rw [current_react_self] at hopen ⊢
  split_ifs at hopen ⊢
  · exact hflag
  cases honline : evidence.online <;> cases hphase : (v.current evidence.key).phase <;>
    simp only [reaction, honline, hphase] at hopen ⊢
  case false.unset | false.healthy =>
      rw [hphase] at hbefore
      exact absurd rfl hbefore
  case true.unset | true.healthy | true.pendingFailure => exact absurd rfl hopen
  case false.pendingFailure | false.active | false.pendingRecovery =>
      rw [hflag, Bool.true_or]
  case true.active | true.pendingRecovery => exact hflag

/-- **The report sets the flag**, whatever the phase. -/
lemma reachabilityDown_report (hoffline : evidence.online = false)
    (hreachability : evidence.reachability = true) :
    ((v.react eng evidence notifyEligible).current evidence.key).reachabilityDown = true := by
  have hmasked : evidence.masked eng (v.current evidence.key) = false := by
    rw [Evidence.masked, hoffline, Bool.false_and, Bool.false_and, Bool.false_and]
  rw [current_react_self, hmasked, if_neg Bool.false_ne_true]
  cases hphase : (v.current evidence.key).phase <;>
    simp [reaction, openedTracker, hoffline, hphase, hreachability]

end

/-- An open outage of which it is known that nothing is reachable through the interface. -/
structure View.OutOfReach (v : View) (id hostname interface : String) : Prop where
  holds : v.Holds id hostname interface
  flag : (v.current (trackerKey hostname interface)).reachabilityDown = true

section

variable {eng : Engine} {s : Snapshot} {id hostname : String}

/-- **An event that does not end the outage keeps the flag.** -/
theorem reachabilityDown_event (h : Consistent eng s.view) (hseq : s.view.Sequenced)
    (hdown : s.view.OutOfReach id hostname eng.interface) (e : Event)
    (hholds : (s.view.event eng e).Holds id hostname eng.interface) :
    (s.view.event eng e).OutOfReach id hostname eng.interface := by
  refine ⟨hholds, ?_⟩
  obtain ⟨hbefore, -⟩ := h.current_of_holds hdown.holds
  have hafter : Consistent eng (s.view.event eng e) := by
    obtain ⟨hview, hcons⟩ := view_event h e
    rwa [hview] at hcons
  obtain ⟨hopen, -⟩ := hafter.current_of_holds hholds
  cases e with
  | tick orders now => exact reachabilityDown_settle now hdown.flag hopen
  | observe orders o =>
      simp only [View.event, View.take] at hholds hopen ⊢
      cases hevidence : eng.evidence o with
      | none =>
          rw [hevidence] at hopen
          exact hdown.flag
      | some evidence =>
          rw [hevidence] at hholds hopen
          simp only [View.observe] at hholds hopen ⊢
          split_ifs at hholds hopen ⊢
          · exact hdown.flag
          · rw [current_sight, Tracker.sighted]
            split_ifs <;> exact hdown.flag
          · -- the timers that run out first do not end the outage either
            have hsettled : (s.view.settle evidence.at_).Holds id hostname eng.interface := by
              by_contra hends
              obtain ⟨j, hj, hs, hlater⟩ := h.resolved_of_settle hseq hdown.holds hends
              exact (h.settle evidence.at_).not_holds_react hj hs hlater hholds
            obtain ⟨hmid, -⟩ := (h.settle evidence.at_).current_of_holds hsettled
            exact reachabilityDown_react (reachabilityDown_settle _ hdown.flag hmid) hmid hopen

/-- **A recovery from out of reach is reported.**  Nothing but `gl-repeater` reporting the interface
online lets such an outage begin to recover or withdraws it. -/
theorem reports_of_move (h : Consistent eng s.view) (hnul : '\x00' ∉ eng.interface.toList)
    (hdown : s.view.OutOfReach id hostname eng.interface) (e : Event)
    (hmove : moves (s.view.incidents id) ((s.view.event eng e).incidents id) = true) :
    e.Reports eng true hostname eng.interface := by
  cases e with
  | tick orders now =>
      rw [View.event, h.settle_of_move now] at hmove
      cases hmove
  | observe orders o =>
      simp only [View.event, View.take] at hmove
      cases hevidence : eng.evidence o with
      | none =>
          rw [hevidence, moves_self] at hmove
          cases hmove
      | some evidence =>
          rw [hevidence] at hmove
          simp only [View.observe] at hmove
          split_ifs at hmove
          · rw [moves_self] at hmove
            cases hmove
          · rw [incidents_sight, moves_self] at hmove
            cases hmove
          replace hmove := moves_of_not hmove (h.settle_of_move evidence.at_)
          obtain ⟨i, hi, rfl, hinterface, -⟩ := hdown.holds
          have hsettled : (s.view.settle evidence.at_).incidents id
              = some (s.view.settledIncident evidence.at_ i) := congrArg (Option.map _) hi
          rw [hsettled] at hmove
          obtain ⟨honline, hmasked, hopen, hid⟩ := reaction_of_move hsettled hmove
          -- the outage is that of the interface the evidence is about
          have hkey : evidence.key = trackerKey i.hostname eng.interface := by
            obtain ⟨j, hj, hagrees, -⟩ := (h.settle evidence.at_).incident_of_open hopen
            rw [hid] at hj
            rw [← hagrees.key, ← hinterface]
            rcases incidents_settle h hj with hsame | ⟨i', current, hi', -, -, -, rfl⟩
            · rw [← Option.some.inj (hi.symm.trans hsame), Incident.key]
            · rw [Incident.fired_key, ← Option.some.inj (hi.symm.trans hi'), Incident.key]
          obtain ⟨-, -, hiface⟩ := evidence_eq_some hevidence
          obtain ⟨hhost, hprimary⟩ := trackerKey_inj hnul hiface (by simp [Engine.interfaces]) hkey
          have hflag : ((s.view.settle evidence.at_).current evidence.key).reachabilityDown = true :=
            reachabilityDown_settle _ (by rw [hkey]; exact hdown.flag) hopen
          have hreachability : evidence.reachability = true := by
            simpa [Evidence.masked, honline, hprimary, hflag] using hmasked
          obtain ⟨htag, -⟩ := tag_of_reachability hevidence hreachability
          exact ⟨htag, evidence, hevidence, hreachability, honline, hhost, hprimary⟩

end

/-! ## Every run -/

/-- An event does not bring evidence from before what its tracker has seen. -/
def Event.Fresh (eng : Engine) (s : Snapshot) : Event → Prop
  | .observe _ o => ∀ evidence, eng.evidence o = some evidence →
      ¬ evidence.Stale (s.view.current evidence.key)
  | .tick .. => True

/-- **A report that is taken** puts the open outage of its interface out of reach. -/
lemma outOfReach_report {eng : Engine} {s : Snapshot} {id hostname : String} {e : Event}
    (hreports : e.Reports eng false hostname eng.interface) (hfresh : e.Fresh eng s)
    (hholds : (s.view.event eng e).Holds id hostname eng.interface) :
    (s.view.event eng e).OutOfReach id hostname eng.interface := by
  refine ⟨hholds, ?_⟩
  cases e with
  | tick orders now => exact hreports.elim
  | observe orders o =>
      obtain ⟨-, evidence, hevidence, hreachability, honline, rfl, hiface⟩ := hreports
      obtain ⟨-, hmore⟩ := tag_of_reachability hevidence hreachability
      simp only [View.event, View.take, hevidence, View.observe, if_neg (hfresh evidence hevidence),
        hmore, Bool.false_eq_true, if_false]
      rw [← hiface]
      exact reachabilityDown_report honline hreachability

/-- What holds of every snapshot that events make from `New`. -/
lemma sequenced_after {eng : Engine} (hids : eng.ids.Injective) (events : List Event) :
    Consistent eng (({} : Snapshot).after eng events).view ∧
      (({} : Snapshot).after eng events).view.Sequenced := by
  have hnew : Consistent eng ({} : Snapshot).view := .empty hids
  induction events using List.reverseRecOn with
  | nil => exact ⟨hnew, fun _ => .of_closed rfl⟩
  | append_singleton events e ih =>
      rw [after_append]
      obtain ⟨hview, hcons⟩ := view_event ih.1 e
      refine ⟨hcons, ?_⟩
      change (Snapshot.event eng _ e).view.Sequenced
      rw [hview]
      exact ih.2.event e

/-- **Reachability failures recover by reachability.**  A run of `Observe`, `Apply` and `Tick` from
`New` is its events.  Whenever one of them is a report that the primary interface of a host is
offline, which is not stale, then as long as the outage that is open by then is not over, it begins
to recover or is withdrawn by no event but a report of `gl-repeater` that the interface is
online. -/
theorem recovers_by_reachability (eng : Engine) (hids : eng.ids.Injective)
    (hnul : '\x00' ∉ eng.interface.toList) (ops : List Operation) (hlive : ∀ op ∈ ops, op.live) :
    (Service.run eng {} ops).state.view
        = (({} : Snapshot).after eng (ops.flatMap Operation.events)).view ∧
      ∀ (before during rest : List Event) (report move : Event) (hostname id : String),
        ops.flatMap Operation.events = before ++ report :: (during ++ move :: rest) →
        report.Reports eng false hostname eng.interface →
        report.Fresh eng (({} : Snapshot).after eng before) →
        (∀ n ≤ during.length, (({} : Snapshot).after eng
          (before ++ report :: during.take n)).view.Holds id hostname eng.interface) →
        moves ((({} : Snapshot).after eng (before ++ report :: during)).incidents.lookup id)
          ((({} : Snapshot).after eng
            (before ++ report :: (during ++ [move]))).incidents.lookup id) = true →
        move.Reports eng true hostname eng.interface := by
  have hnew : Consistent eng (({} : Service).state).view := .empty hids
  refine ⟨?_, ?_⟩
  · rw [view_run hnew hlive, (view_after hnew _).1]
  intro before during rest report move hostname id _ hreports hfresh hholds hmove
  have hstep : ∀ events e, (({} : Snapshot).after eng (events ++ [e])).view
      = (({} : Snapshot).after eng events).view.event eng e := by
    intro events e
    rw [after_append]
    exact (view_event (sequenced_after hids events).1 e).1
  have hdown : ∀ n ≤ during.length, (({} : Snapshot).after eng
      (before ++ report :: during.take n)).view.OutOfReach id hostname eng.interface := by
    intro n hn
    induction n with
    | zero =>
        have hopen := hholds 0 hn
        rw [List.take_zero, hstep] at hopen ⊢
        exact outOfReach_report hreports hfresh hopen
    | succ n ih =>
        have hopen := hholds (n + 1) hn
        have hsplit : before ++ report :: during.take (n + 1)
            = before ++ report :: during.take n ++ [during[n]] := by
          rw [List.take_succ_eq_append_getElem hn, List.append_assoc]
          rfl
        rw [hsplit, hstep] at hopen ⊢
        obtain ⟨hcons, hseq⟩ := sequenced_after hids (before ++ report :: during.take n)
        exact reachabilityDown_event hcons hseq (ih (Nat.le_of_succ_le hn)) _ hopen
  have hlast := hdown during.length le_rfl
  rw [List.take_length] at hlast
  have hafter : before ++ report :: (during ++ [move]) = before ++ report :: during ++ [move] := by
    rw [List.append_assoc]
    rfl
  refine reports_of_move (sequenced_after hids _).1 hnul hlast move ?_
  rw [← hstep, ← hafter]
  exact hmove

/-! ## A small run -/

/-- `gl-repeater` of `gw` reports `wan`, at some second. -/
def repeaterReport (status id : String) (second : ℤ) : Observation where
  message :=
    { id, receivedAt := second * 1000000000, hostname := "gw", tag := "gl-repeater"
      message := "(repeater.lua:512) interface wan status " ++ status }
  notifyEligible := true
  sourceRef := ""

/-- `netifd` of `gw` says that the link of `wan` is up. -/
def wanLinkUp : Message :=
  { id := "two", receivedAt := 70000000000, hostname := "gw", tag := "netifd"
    message := "Interface 'wan' is now up" }

/-- `wan` is out of reach for longer than a minute, its link comes up, and then it is reported
online. -/
def outOfReachRun : List Operation :=
  [.apply (fun _ => sortedSchedule) [repeaterReport "offline" "one" 1] ∅ 1000000000 none,
    .tick sortedSchedule 61000000000 none,
    .observe sortedSchedule wanLinkUp true none,
    .observe sortedSchedule (repeaterReport "online" "three" 80).message true none]

lemma View.holds_of_any {v : View} {id hostname interface : String}
    (h : (v.incidents id).any (fun i => i.hostname = hostname && i.interface = interface &&
      i.state ≠ .resolved) = true) : v.Holds id hostname interface := by
  obtain ⟨i, hi, hmatch⟩ := (Option.any_eq_true _ _).mp h
  simp only [Bool.and_eq_true, decide_eq_true_eq] at hmatch
  exact ⟨i, hi, hmatch.1.1, hmatch.1.2, hmatch.2⟩

/-- The small run, in which the report that `wan` is online lets it recover, and its link coming
up before did not. -/
theorem recovers_by_reachability_run :
    (Event.observe sortedSchedule
      ⟨(repeaterReport "online" "three" 80).message, true, ""⟩).Reports sampleEngine true "gw"
      "wan" := by
  refine (recovers_by_reachability sampleEngine sampleIDs_injective (by decide) outOfReachRun
    ?_).2 [] [.tick sortedSchedule 61000000000, .observe sortedSchedule ⟨wanLinkUp, true, ""⟩] []
    (.observe sortedSchedule (repeaterReport "offline" "one" 1)) _ "gw" "8d4663d6450447b8" rfl ?_ ?_
    ?_ ?_
  · intro op hop
    simp only [outOfReachRun, List.mem_cons, List.not_mem_nil, or_false] at hop
    rcases hop with rfl | rfl | rfl | rfl <;> exact trivial
  · have hevidence : (sampleEngine.evidence (repeaterReport "offline" "one" 1)).any (fun e =>
        e.reachability && !e.online && e.hostname = "gw" && e.iface = "wan") = true := by
      decide +kernel
    obtain ⟨e, he, hmatch⟩ := (Option.any_eq_true _ _).mp hevidence
    simp only [Bool.and_eq_true, Bool.not_eq_true', decide_eq_true_eq] at hmatch
    obtain ⟨⟨⟨hreachability, honline⟩, hhost⟩, hiface⟩ := hmatch
    exact ⟨rfl, e, he, hreachability, honline, hhost, hiface⟩
  · exact fun e _ hstale => hstale.1 rfl
  · intro n hn
    refine View.holds_of_any ?_
    revert n
    decide +kernel
  · decide +kernel

end Logthing
