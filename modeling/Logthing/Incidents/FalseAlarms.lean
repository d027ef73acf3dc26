import Logthing.Incidents.MissedOutages
import Mathlib.Data.Finset.Order

/-!
# False alarms

An outage that the repeater reported to be over in time is not to be announced.  Whether the engine
can know depends on what it has been given: a reconcile gives it everything that is stored, in the
order of time, before it lets timers run out, but a tick lets them run out without reading.

`View.Heard` is the state of an engine that has been told of some messages and has others still to
come, all of them stamped by one clock: a pending outage has begun since every recovery it was told
of, and no message, told or to come, shows an activated one to have been over in time.
`Snapshot.Told` says the same of what has been announced.

**Main results.**  `no_false_alarm`: a worker raises no false alarm if none of its ticks lets an
outage become active that an unread record stops.  By `abreast_of_noFalseAlarm` no other worker is
free of them.
-/

namespace Logthing

/-! ## What the repeater reports -/

/-- The repeater reports that the interface of the host is online. -/
def Message.repeaterOnline (eng : Engine) (hostname interface : String) (message : Message) :
    Bool :=
  message.tag = "gl-repeater" && message.reports eng hostname interface true

/-- The message is evidence of reachability: the interface is online again. -/
def Message.Recovers (eng : Engine) (key : String) (message : Message) : Prop :=
  ∃ e, classify message eng.interface = some e ∧ e.reachability = true ∧ e.observeOnly = false ∧
    e.online = true ∧ e.key = key

/-- What the repeater reports is evidence of reachability, apart from its switches. -/
lemma reachability_of_repeater {message : Message} {iface : String} {e : Evidence}
    (h : classify message iface = some e) (htag : message.tag = "gl-repeater") :
    e.observeOnly = true ∨ e.reachability = true := by
  simp only [classify, htag] at h
  split_ifs at h with _ hnetifd
  · exact absurd hnetifd (by decide)
  · obtain rfl := Option.some.inj h
    exact Or.inl rfl
  · obtain ⟨candidate, -, hsome⟩ := List.exists_of_findSome?_eq_some h
    obtain ⟨online, -, rfl⟩ := Option.map_eq_some_iff.mp hsome
    exact Or.inr rfl

lemma Message.repeaterOnline.recovers {eng : Engine} {hostname interface : String}
    {message : Message} (h : message.repeaterOnline eng hostname interface = true) :
    message.Recovers eng (trackerKey hostname interface) := by
  simp only [Message.repeaterOnline, Bool.and_eq_true, decide_eq_true_eq] at h
  obtain ⟨htag, hreports⟩ := h
  obtain ⟨e, he, hsays⟩ := (Option.any_eq_true _ _).mp hreports
  simp only [Bool.and_eq_true, decide_eq_true_eq, Bool.not_eq_true'] at hsays
  obtain ⟨⟨⟨hhost, hinterface⟩, hcounts⟩, honline⟩ := hsays
  refine ⟨e, he, ?_, hcounts, honline, by rw [Evidence.key, hhost, hinterface]⟩
  refine (reachability_of_repeater he htag).resolve_left fun honly => ?_
  rw [hcounts] at honly
  cases honly

/-! ## An engine that has heard of the recoveries -/

/-- The engine has been told of some messages, in the order of time and by the clock, and the others
are still to come. -/
structure View.Heard (eng : Engine) (clock : Time) (told rest : List Message) (v : View) :
    Prop where
  ordered : ∀ m ∈ told, ∀ m' ∈ rest, m.receivedAt ≤ m'.receivedAt
  seen : ∀ key, (v.current key).lastEvidenceAt ≠ 0 → (v.current key).lastEvidenceAt ≤ clock ∧
    ∀ m ∈ rest, (v.current key).lastEvidenceAt ≤ m.receivedAt
  pending : ∀ key, (v.current key).phase = .pendingFailure → ∀ m ∈ told, m.Recovers eng key →
    m.receivedAt ≤ (v.current key).pendingSince
  activated : ∀ ⦃id i⦄, v.incidents id = some i → i.activatedAt ≠ none →
    i.startedAt + eng.downAfter ≤ clock ∧ ∀ m ∈ told ++ rest, m.Recovers eng i.key →
      m.receivedAt ≤ i.startedAt ∨ i.startedAt + eng.downAfter ≤ m.receivedAt

/-- Nothing that is still to come stops the outages that are due. -/
def View.Unstopped (eng : Engine) (now : Time) (rest : List Message) (v : View) : Prop :=
  ∀ key i, (v.current key).phase = .pendingFailure →
    v.incidents (v.current key).incidentID = some i → (v.current key).dueBy now i →
    ∀ m ∈ rest, m.Recovers eng key → m.receivedAt ≤ i.startedAt ∨
      i.startedAt + eng.downAfter ≤ m.receivedAt

/-- Nothing that is stamped later stops what is due now. -/
lemma View.Unstopped.of_later {eng : Engine} {v : View} (h : Consistent eng v) {now : Time}
    {rest : List Message} (hlater : ∀ m ∈ rest, now ≤ m.receivedAt) : v.Unstopped eng now rest := by
  intro key i hphase hi hdue m hm _
  have hopen : (v.current key).phase.openState ≠ none := by
    rw [hphase]
    exact Option.some_ne_none _
  obtain ⟨x, hx, hagrees, hwf⟩ := h.incident_of_open hopen
  rw [hi] at hx
  obtain rfl := Option.some.inj hx
  have hdueAt := hdue.2
  rw [Tracker.dueAt, if_pos hphase, ← hagrees.startedAt, hwf.downAfter_eq] at hdueAt
  exact Or.inr (hdueAt.trans (hlater m hm))

namespace View.Heard

variable {eng : Engine} {clock : Time} {told told' rest rest' : List Message} {v : View}

/-- Only what has been told and what is to come matters. -/
lemma congr (hheard : v.Heard eng clock told rest) (htold : ∀ m, m ∈ told' ↔ m ∈ told)
    (hrest : ∀ m, m ∈ rest' ↔ m ∈ rest) : v.Heard eng clock told' rest' where
  ordered m hm m' hm' := hheard.ordered m ((htold m).mp hm) m' ((hrest m').mp hm')
  seen key hseen := by
    obtain ⟨hle, hbefore⟩ := hheard.seen key hseen
    exact ⟨hle, fun m hm => hbefore m ((hrest m).mp hm)⟩
  pending key hphase m hm := hheard.pending key hphase m ((htold m).mp hm)
  activated id i hi hactivated := by
    obtain ⟨hlate, hall⟩ := hheard.activated hi hactivated
    refine ⟨hlate, fun m hm => hall m ?_⟩
    rw [List.mem_append, htold, hrest, ← List.mem_append] at hm
    exact hm

/-- **Messages that are stored now** are to come as well. -/
lemma stored (hheard : v.Heard eng clock told rest) {now : Time} (hclock : clock ≤ now)
    (hall : ∀ m ∈ told ++ rest, m.receivedAt ≤ clock) {messages : List Message}
    (hstamp : ∀ m ∈ messages, m.receivedAt = now) : v.Heard eng now told (rest ++ messages) where
  ordered m hm m' hm' := by
    rcases List.mem_append.mp hm' with hm' | hm'
    · exact hheard.ordered m hm m' hm'
    · rw [hstamp m' hm']
      exact (hall m (List.mem_append_left _ hm)).trans hclock
  seen key hseen := by
    obtain ⟨hle, hbefore⟩ := hheard.seen key hseen
    refine ⟨hle.trans hclock, fun m hm => ?_⟩
    rcases List.mem_append.mp hm with hm | hm
    · exact hbefore m hm
    · rw [hstamp m hm]
      exact hle.trans hclock
  pending := hheard.pending
  activated id i hi hactivated := by
    obtain ⟨hlate, hall⟩ := hheard.activated hi hactivated
    refine ⟨hlate.trans hclock, fun m hm hrecovers => ?_⟩
    rw [← List.append_assoc] at hm
    rcases List.mem_append.mp hm with hm | hm
    · exact hall m hm hrecovers
    · rw [hstamp m hm]
      exact Or.inr (hlate.trans hclock)

lemma later (hheard : v.Heard eng clock told rest) {now : Time} (hclock : clock ≤ now) :
    v.Heard eng now told rest where
  ordered := hheard.ordered
  seen key hseen := ⟨(hheard.seen key hseen).1.trans hclock, (hheard.seen key hseen).2⟩
  pending := hheard.pending
  activated _ _ hi hactivated :=
    ⟨(hheard.activated hi hactivated).1.trans hclock, (hheard.activated hi hactivated).2⟩

/-- **Timers that run out raise no false alarm**, if nothing to come stops what is due. -/
lemma settle (hheard : v.Heard eng clock told rest) (h : Consistent eng v) {now : Time}
    (hnow : now ≤ clock) (hunstopped : v.Unstopped eng now rest) :
    (v.settle now).Heard eng clock told rest where
  ordered := hheard.ordered
  seen key := by
    rw [lastEvidenceAt_settle]
    exact hheard.seen key
  pending key hphase := by
    rcases current_settle v now key with ⟨hsame, -⟩ | ⟨i, -, -, -, hfired⟩
    · rw [hsame] at hphase ⊢
      exact hheard.pending key hphase
    · rw [hfired, Tracker.fired] at hphase
      split_ifs at hphase
  activated id j hj hactivated := by
    rcases incidents_settle h hj with hsame | ⟨i, current, hi, hc, hid, hdue, rfl⟩
    · exact hheard.activated hsame hactivated
    · have hcurrent : v.current i.key = current := by rw [View.current, hc, Option.getD_some]
      have hopen := Tracker.open_of_pending hdue.1
      obtain ⟨x, hx, hagrees⟩ := h.names hc hopen
      rw [hid, hi] at hx
      obtain rfl := Option.some.inj hx
      rw [Incident.fired_key]
      by_cases hphase : current.phase = .pendingFailure
      · -- the outage that is activated
        have hstarted : (i.fired current).startedAt = i.startedAt := by
          rw [Incident.fired, if_pos hphase]
        have hdueAt : i.startedAt + eng.downAfter = current.dueAt i := by
          rw [Tracker.dueAt, if_pos hphase, hagrees.startedAt, (h.wellFormed hi).downAfter_eq]
        rw [hstarted]
        refine ⟨hdueAt.trans_le (hdue.2.trans hnow), fun m hm hrecovers => ?_⟩
        rw [← hcurrent] at hphase hid hdue
        rcases List.mem_append.mp hm with hm | hm
        · refine Or.inl ?_
          rw [hagrees.startedAt, ← hcurrent]
          exact hheard.pending i.key hphase m hm hrecovers
        · exact hunstopped i.key i hphase (by rw [hid, hi]) hdue m hm hrecovers
      · have hbefore : i.activatedAt ≠ none := fun hnone => hphase (hagrees.activatedAt.mp hnone)
        rw [Incident.fired, if_neg hphase]
        obtain ⟨hlate, hall⟩ := hheard.activated hi hbefore
        exact ⟨hlate, hall⟩

end View.Heard

/-! ## What a batch tells -/

section

variable {eng : Engine} {v : View} {evidence : Evidence}

/-- Evidence does not make an incident an activated one, and moves no start. -/
lemma activated_of_react {notifyEligible : Bool} {id : String} {j : Incident}
    (hj : (v.react eng evidence notifyEligible).incidents id = some j)
    (hactivated : j.activatedAt ≠ none) : ∃ i, v.incidents id = some i ∧ i.activatedAt ≠ none ∧
      i.key = j.key ∧ i.startedAt = j.startedAt := by
  rw [View.react] at hj
  split_ifs at hj
  · exact ⟨j, hj, hactivated, rfl, rfl⟩
  simp only [View.set, Function.update_apply] at hj
  split_ifs at hj with hid
  swap
  · exact ⟨j, hj, hactivated, rfl, rfl⟩
  subst hid
  cases honline : evidence.online <;> cases hphase : (v.current evidence.key).phase <;>
    simp only [reaction, honline, hphase] at hj ⊢
  case false.unset | false.healthy =>
      rw [← Option.some.inj hj] at hactivated
      exact absurd rfl hactivated
  case true.unset | true.healthy => exact ⟨j, hj, hactivated, rfl, rfl⟩
  case true.pendingFailure => cases hj
  all_goals
    obtain ⟨i, hi, rfl⟩ := Option.map_eq_some_iff.mp hj
    exact ⟨i, hi, hactivated, rfl, rfl⟩

/-- An outage is pending after evidence because it is pending still, or because it opens. -/
lemma pending_of_react {notifyEligible : Bool}
    (hunmasked : ¬ evidence.masked eng (v.current evidence.key) = true)
    (hphase : ((v.react eng evidence notifyEligible).current evidence.key).phase
      = .pendingFailure) :
    evidence.online = false ∧
      (((v.react eng evidence notifyEligible).current evidence.key).pendingSince = evidence.at_ ∨
        (v.current evidence.key).phase = .pendingFailure ∧
        ((v.react eng evidence notifyEligible).current evidence.key).pendingSince
          = (v.current evidence.key).pendingSince) := by
  rw [View.react, if_neg hunmasked, current_set_self] at hphase ⊢
  cases honline : evidence.online <;> cases hbefore : (v.current evidence.key).phase <;>
    simp only [reaction, honline, hbefore] at hphase ⊢
  case false.unset | false.healthy => exact ⟨trivial, Or.inl rfl⟩
  case false.pendingFailure => exact ⟨trivial, Or.inr ⟨trivial, trivial⟩⟩
  all_goals cases hphase

end

namespace View.Heard

variable {eng : Engine} {clock : Time} {told rest : List Message} {v : View}

/-- What is told next is no longer to come. -/
lemma told_next {message : Message} (hheard : v.Heard eng clock told (message :: rest))
    (hnext : ∀ m ∈ rest, message.receivedAt ≤ m.receivedAt)
    (hquiet : ∀ key, (v.current key).phase = .pendingFailure → message.Recovers eng key →
      message.receivedAt ≤ (v.current key).pendingSince) :
    v.Heard eng clock (told ++ [message]) rest where
  ordered m hm m' hm' := by
    rcases List.mem_append.mp hm with hm | hm
    · exact hheard.ordered m hm m' (List.mem_cons_of_mem _ hm')
    · rw [List.mem_singleton.mp hm]
      exact hnext m' hm'
  seen key hseen := by
    obtain ⟨hle, hbefore⟩ := hheard.seen key hseen
    exact ⟨hle, fun m hm => hbefore m (List.mem_cons_of_mem _ hm)⟩
  pending key hphase m hm hrecovers := by
    rcases List.mem_append.mp hm with hm | hm
    · exact hheard.pending key hphase m hm hrecovers
    · rw [List.mem_singleton.mp hm] at hrecovers ⊢
      exact hquiet key hphase hrecovers
  activated id i hi hactivated := by
    obtain ⟨hlate, hall⟩ := hheard.activated hi hactivated
    refine ⟨hlate, fun m hm => hall m ?_⟩
    rw [List.append_assoc] at hm
    exact hm

/-- **Evidence that counts** is told. -/
lemma react {o : Observation} {e : Evidence} (he : eng.evidence o = some e)
    (hheard : v.Heard eng clock told (o.message :: rest)) (hclock : o.message.receivedAt ≤ clock)
    (hnext : ∀ m ∈ rest, o.message.receivedAt ≤ m.receivedAt) :
    (v.react eng e o.notifyEligible).Heard eng clock (told ++ [o.message]) rest := by
  obtain ⟨hat, hzero, -⟩ := evidence_eq_some he
  obtain ⟨e₀, he₀, rfl⟩ := Option.map_eq_some_iff.mp he
  have hsame : ∀ key, o.message.Recovers eng key → e₀.reachability = true ∧ e₀.online = true ∧
      e₀.key = key := by
    rintro key ⟨e', he', hreach, -, honline, hkey⟩
    obtain rfl := Option.some.inj (he₀.symm.trans he')
    exact ⟨hreach, honline, hkey⟩
  generalize hevidence : { e₀ with sourceRef := o.sourceRef } = e at hat hzero
  have hkeys : e.key = e₀.key := by rw [← hevidence]; rfl
  by_cases hmasked : e.masked eng (v.current e.key) = true
  · rw [View.react, if_pos hmasked]
    refine hheard.told_next hnext fun key _ hrecovers => ?_
    obtain ⟨hreach, -, -⟩ := hsame key hrecovers
    rw [← hevidence] at hmasked
    simp [Evidence.masked, hreach] at hmasked
  refine ⟨fun m hm m' hm' => ?_, fun key hseen => ?_, fun key hphase m hm hrecovers => ?_,
    fun id j hj hactivated => ?_⟩
  · rcases List.mem_append.mp hm with hm | hm
    · exact hheard.ordered m hm m' (List.mem_cons_of_mem _ hm')
    · rw [List.mem_singleton.mp hm]
      exact hnext m' hm'
  · by_cases hkey : key = e.key
    · rw [hkey, lastEvidenceAt_react (by simpa using hmasked), hat]
      exact ⟨hclock, hnext⟩
    · rw [current_react_of_ne hkey] at hseen ⊢
      obtain ⟨hle, hbefore⟩ := hheard.seen key hseen
      exact ⟨hle, fun m hm => hbefore m (List.mem_cons_of_mem _ hm)⟩
  · by_cases hkey : key = e.key
    · subst hkey
      obtain ⟨hoffline, hsince⟩ := pending_of_react hmasked hphase
      have htold : m ∈ told := by
        refine (List.mem_append.mp hm).resolve_right fun hm => ?_
        rw [List.mem_singleton.mp hm] at hrecovers
        obtain ⟨-, honline, -⟩ := hsame _ hrecovers
        rw [← hevidence, honline] at hoffline
        cases hoffline
      rcases hsince with hsince | ⟨hbefore, hsince⟩
      · rw [hsince, hat]
        exact hheard.ordered m htold _ List.mem_cons_self
      · rw [hsince]
        exact hheard.pending _ hbefore m htold hrecovers
    · rw [current_react_of_ne hkey] at hphase ⊢
      refine hheard.pending key hphase m ?_ hrecovers
      refine (List.mem_append.mp hm).resolve_right fun hm => ?_
      rw [List.mem_singleton.mp hm] at hrecovers
      exact hkey ((hsame _ hrecovers).2.2.symm.trans hkeys.symm)
  · obtain ⟨i, hi, hbefore, hikey, hstarted⟩ := activated_of_react hj hactivated
    obtain ⟨hlate, hall⟩ := hheard.activated hi hbefore
    rw [← hikey, ← hstarted]
    refine ⟨hlate, fun m hm => hall m ?_⟩
    rw [List.append_assoc] at hm
    exact hm

/-- A sighting moves its tracker and tells nothing else. -/
lemma sight {e : Evidence} (hheard : v.Heard eng clock told rest) (hclock : e.at_ ≤ clock)
    (hnext : ∀ m ∈ rest, e.at_ ≤ m.receivedAt) : (v.sight e).Heard eng clock told rest where
  ordered := hheard.ordered
  seen key hseen := by
    rw [current_sight] at hseen ⊢
    split_ifs at hseen ⊢
    · exact ⟨hclock, hnext⟩
    · exact hheard.seen key hseen
  pending key hphase := by
    rw [current_sight] at hphase ⊢
    split_ifs at hphase ⊢
    · rw [Tracker.sighted] at hphase ⊢
      split_ifs at hphase ⊢
      exact hheard.pending key hphase
    · exact hheard.pending key hphase
  activated id i hi := by
    rw [incidents_sight] at hi
    exact hheard.activated hi

/-- **An observation is told.** -/
lemma take (h : Consistent eng v) {o : Observation}
    (hheard : v.Heard eng clock told (o.message :: rest)) (hclock : o.message.receivedAt ≤ clock)
    (hnext : ∀ m ∈ rest, o.message.receivedAt ≤ m.receivedAt) :
    (v.take eng o).Heard eng clock (told ++ [o.message]) rest := by
  rw [View.take]
  cases he : eng.evidence o with
  | none =>
      refine hheard.told_next hnext fun key _ hrecovers => ?_
      obtain ⟨e, he', -⟩ := hrecovers
      rw [Engine.evidence, he'] at he
      cases he
  | some e =>
      obtain ⟨hat, -, -⟩ := evidence_eq_some he
      simp only [View.observe]
      split_ifs with hstale honly
      · -- the message does not come too late
        have hbefore := (hheard.seen e.key hstale.1).2 o.message List.mem_cons_self
        rw [← hat] at hbefore
        exact absurd hstale.2 (not_lt.mpr hbefore)
      · have hquiet : ∀ key, ¬ o.message.Recovers eng key := by
          rintro key ⟨e', he', -, hcounts, -⟩
          obtain ⟨e₀, he₀, rfl⟩ := Option.map_eq_some_iff.mp he
          obtain rfl := Option.some.inj (he₀.symm.trans he')
          rw [show e₀.observeOnly = true from honly] at hcounts
          cases hcounts
        exact (hheard.told_next hnext fun key _ hrecovers => absurd hrecovers (hquiet key)).sight
          (hat.trans_le hclock) fun m hm => hat.trans_le (hnext m hm)
      · refine react he (hheard.settle h (hat.trans_le hclock) ?_) hclock hnext
        refine .of_later h fun m hm => ?_
        rcases List.mem_cons.mp hm with rfl | hm
        · exact hat.le
        · exact hat.trans_le (hnext m hm)

end View.Heard

/-! ## What is announced -/

/-- The outage an incident's ID is about has lasted for long enough by the clock, and none of the
messages shows its interface online after it began and before that. -/
def Outlasted (eng : Engine) (clock : Time) (messages : List Message) (id : String) : Prop :=
  ∃ hostname interface startedAt messageID,
    id = eng.ids.incidentID hostname interface startedAt messageID ∧
    startedAt + eng.downAfter ≤ clock ∧
    ∀ m ∈ messages, m.Recovers eng (trackerKey hostname interface) →
      m.receivedAt ≤ startedAt ∨ startedAt + eng.downAfter ≤ m.receivedAt

/-- What has been activated has lasted. -/
lemma View.Heard.outlasted {eng : Engine} {clock : Time} {told rest : List Message} {v : View}
    (hheard : v.Heard eng clock told rest) (h : Consistent eng v) {id : String} {i : Incident}
    (hi : v.incidents id = some i) (hactivated : i.activatedAt ≠ none) :
    Outlasted eng clock (told ++ rest) id := by
  obtain ⟨messageID, hid⟩ := (h.wellFormed hi).origin
  obtain ⟨hlate, hall⟩ := hheard.activated hi hactivated
  exact ⟨_, _, _, messageID, hid, hlate, hall⟩

/-- Whatever is stored after the outage has lasted says nothing about it. -/
lemma Outlasted.later {eng : Engine} {clock now : Time} {messages messages' : List Message}
    {id : String} (h : Outlasted eng clock messages id) (hclock : clock ≤ now)
    (hmessages : ∀ m ∈ messages', m ∈ messages ∨ clock ≤ m.receivedAt) :
    Outlasted eng now messages' id := by
  obtain ⟨hostname, interface, startedAt, messageID, hid, hlate, hall⟩ := h
  refine ⟨hostname, interface, startedAt, messageID, hid, hlate.trans hclock,
    fun m hm hrecovers => ?_⟩
  rcases hmessages m hm with hm | hm
  · exact hall m hm hrecovers
  · exact Or.inr (hlate.trans hm)

/-- An incident that is not pending has been activated, and is when timers have run out. -/
lemma exists_settled_activated {eng : Engine} {v : View} (h : Consistent eng v) (now : Time)
    {id : String} {i : Incident} (hi : v.incidents id = some i)
    (hstate : i.state ≠ .pendingFailure) :
    ∃ j, (v.settle now).incidents id = some j ∧ j.activatedAt ≠ none := by
  have hactivated : i.activatedAt ≠ none := by
    by_cases hresolved : i.state = .resolved
    · exact (h.wellFormed hi).activated hresolved
    obtain ⟨current, hc, hopen, hid⟩ := h.named hi hresolved
    obtain ⟨j, hj, hagrees⟩ := h.names hc hopen
    rw [hid, hi] at hj
    obtain rfl := Option.some.inj hj
    intro hnone
    have hopened := hagrees.state
    rw [hagrees.activatedAt.mp hnone] at hopened
    exact hstate (Option.some.inj hopened).symm
  refine ⟨v.settledIncident now i, by simp [View.settle, hi], ?_⟩
  rw [View.settledIncident]
  split
  · split_ifs
    · rw [Incident.fired]
      split_ifs
      · exact Option.some_ne_none _
      · exact hactivated
    · exact hactivated
  · exact hactivated

/-- **The passage of time announces what it has activated.** -/
lemma adds_advance_activated {eng : Engine} {s : Snapshot} (h : Consistent eng s.view)
    {P : String → Prop} {now : Time}
    (hP : ∀ ⦃id i⦄, (s.view.settle now).incidents id = some i → i.activatedAt ≠ none → P id)
    (orders : Schedule) : Adds P s.jobs (advance eng.interface orders now s).1.jobs := by
  refine (advance_induction
    (fun s' => s'.view.settle now = s.view.settle now ∧ Adds P s.jobs s'.jobs)
    (fun {s' orders key current incident} hcons hs' hfires => ?_) orders s h ⟨rfl, .refl _⟩).1.2
  have hview : (advanceOne eng.interface orders key current s').view
      = s'.view.fire key current incident := view_advanceOne hfires.incident_eq
  have hafter : Consistent eng (advanceOne eng.interface orders key current s').view := by
    rw [hview]
    exact hcons.fire hfires.tracker_eq hfires.due.1 hfires.incident_eq
  have hsettles : (advanceOne eng.interface orders key current s').view.settle now
      = s.view.settle now := by
    rw [hview, hcons.settle_fire hfires.tracker_eq hfires.incident_eq hfires.due, hs'.1]
  refine ⟨hsettles, hs'.2.trans (adds_advanceOne fun id i hi _ hstate => ?_)⟩
  obtain ⟨j, hj, hactivated⟩ := exists_settled_activated hafter now hi hstate
  rw [hsettles] at hj
  rw [(hafter.wellFormed hi).id_eq]
  exact hP hj hactivated

/-- **A snapshot that has been told** of some messages and has others still to come: its view has
heard of them, and every job is about an outage that has lasted. -/
structure Snapshot.Told (eng : Engine) (clock : Time) (told rest : List Message) (s : Snapshot) :
    Prop where
  heard : s.view.Heard eng clock told rest
  announced : ∀ ⦃id job⦄, s.jobs.lookup id = some job →
    Outlasted eng clock (told ++ rest) job.incidentID

namespace Snapshot.Told

variable {eng : Engine} {clock : Time} {told told' rest rest' : List Message} {s : Snapshot}

/-- Nothing has happened yet. -/
lemma empty (eng : Engine) (clock : Time) : ({} : Snapshot).Told eng clock [] [] where
  heard :=
    { ordered := fun _ hm => absurd hm List.not_mem_nil
      seen := fun _ hseen => absurd rfl hseen
      pending := fun _ _ _ hm => absurd hm List.not_mem_nil
      activated := fun _ _ hi => by cases hi }
  announced _ _ hjob := by cases hjob

lemma congr (h : s.Told eng clock told rest) (htold : ∀ m, m ∈ told' ↔ m ∈ told)
    (hrest : ∀ m, m ∈ rest' ↔ m ∈ rest) : s.Told eng clock told' rest' where
  heard := h.heard.congr htold hrest
  announced _ _ hjob := by
    refine (h.announced hjob).later le_rfl fun m hm => Or.inl ?_
    rwa [List.mem_append, htold, hrest, ← List.mem_append] at hm

lemma later (h : s.Told eng clock told rest) {now : Time} (hclock : clock ≤ now) :
    s.Told eng now told rest where
  heard := h.heard.later hclock
  announced _ _ hjob := (h.announced hjob).later hclock fun _ => Or.inl

lemma stored (h : s.Told eng clock told rest) {now : Time} (hclock : clock ≤ now)
    (hall : ∀ m ∈ told ++ rest, m.receivedAt ≤ clock) {messages : List Message}
    (hstamp : ∀ m ∈ messages, m.receivedAt = now) : s.Told eng now told (rest ++ messages) where
  heard := h.heard.stored hclock hall hstamp
  announced _ _ hjob := by
    refine (h.announced hjob).later hclock fun m hm => ?_
    rw [← List.append_assoc] at hm
    refine (List.mem_append.mp hm).imp_right fun hm => ?_
    rw [hstamp _ hm]
    exact hclock

/-- Only what jobs are about matters. -/
lemma delivered (h : s.Told eng clock told rest) {jobs : Dict String NotificationJob}
    (hjobs : ∀ id, (jobs.lookup id).map NotificationJob.fact
      = (s.jobs.lookup id).map NotificationJob.fact) :
    ({ s with jobs } : Snapshot).Told eng clock told rest where
  heard := h.heard
  announced id job hjob := by
    have hfact := hjobs id
    rw [hjob, Option.map_some, eq_comm, Option.map_eq_some_iff] at hfact
    obtain ⟨job', hjob', hsame⟩ := hfact
    rw [← show job'.incidentID = job.incidentID from congrArg JobFact.incidentID hsame]
    exact h.announced hjob'

/-- **Timers that run out** announce no false alarm, if nothing to come stops what is due. -/
lemma advance (h : s.Told eng clock told rest) (hcons : Consistent eng s.view) {now : Time}
    (hnow : now ≤ clock) (hunstopped : s.view.Unstopped eng now rest) (orders : Schedule) :
    (advance eng.interface orders now s).1.Told eng clock told rest := by
  have hheard := h.heard.settle hcons hnow hunstopped
  have hadds := adds_advance_activated hcons (P := Outlasted eng clock (told ++ rest))
    (fun id i hi => hheard.outlasted (hcons.settle now) hi) orders
  refine ⟨by rwa [advance_view hcons], fun id job hjob => ?_⟩
  exact (hadds.added hjob).elim (fun hbefore => h.announced hbefore) And.right

/-- **An observation is told.** -/
lemma observeLocked (hcons : Consistent eng s.view) {o : Observation}
    (h : s.Told eng clock told (o.message :: rest)) (hclock : o.message.receivedAt ≤ clock)
    (hnext : ∀ m ∈ rest, o.message.receivedAt ≤ m.receivedAt) (orders : Schedule) :
    (observeLocked eng orders o.message o.notifyEligible o.sourceRef s).Told eng clock
      (told ++ [o.message]) rest := by
  refine ⟨by
    rw [view_observeLocked hcons]
    exact h.heard.take hcons hclock hnext, fun id job hjob => ?_⟩
  rw [List.append_assoc, List.singleton_append]
  have hadds : Adds (Outlasted eng clock (told ++ o.message :: rest)) s.jobs
      (Logthing.observeLocked eng orders o.message o.notifyEligible o.sourceRef s).jobs := by
    refine adds_observeLocked o fun e he => adds_advance_activated hcons (fun id i hi => ?_) orders
    obtain ⟨hat, -, -⟩ := evidence_eq_some he
    refine (h.heard.settle hcons (hat.trans_le hclock) (.of_later hcons fun m hm => ?_)).outlasted
      (hcons.settle e.at_) hi
    rcases List.mem_cons.mp hm with rfl | hm
    · exact hat.le
    · exact hat.trans_le (hnext m hm)
  exact (hadds.added hjob).elim (fun hbefore => h.announced hbefore) And.right

/-- **A batch in the order of time is told.** -/
lemma observeAll (orders : ℕ → Schedule) {os : List Observation} (hcons : Consistent eng s.view)
    (h : s.Told eng clock told (os.map Observation.message))
    (hclock : ∀ o ∈ os, o.message.receivedAt ≤ clock)
    (hsorted : os.Pairwise fun o o' => o.message.receivedAt ≤ o'.message.receivedAt) :
    (observeAll eng orders os s).Told eng clock (told ++ os.map Observation.message) [] := by
  induction os generalizing s told orders with
  | nil =>
      rw [List.map_nil, List.append_nil]
      exact h
  | cons o os ih =>
      obtain ⟨hnext, hrest⟩ := List.pairwise_cons.mp hsorted
      have hafter := h.observeLocked hcons (hclock o List.mem_cons_self) (fun m hm => by
        obtain ⟨o', ho', rfl⟩ := List.mem_map.mp hm
        exact hnext o' ho') (orders 0)
      have htold := ih (fun n => orders (n + 1)) (hcons.observeLocked (orders 0) o) hafter
        (fun o' ho' => hclock o' (List.mem_cons_of_mem _ ho')) hrest
      rw [List.map_cons, ← List.singleton_append, ← List.append_assoc]
      exact htold

end Snapshot.Told

/-! ## Steps -/

/-- The repeater reports that the interface of the host is online, after an outage of it began and
before that has lasted for long enough. -/
def Message.stops (eng : Engine) (hostname interface : String) (startedAt : Time)
    (downAfter : Duration) (message : Message) : Bool :=
  message.repeaterOnline eng hostname interface && startedAt < message.receivedAt &&
    message.receivedAt < startedAt + downAfter

/-- A tick lets no outage become active that a record stops which the worker has not read yet. -/
def LiveStep.Abreast (w : Worker) (world : World) : LiveStep → Prop
  | .tick _ now => ∀ hostname interface current incident,
      world.svc.state.trackers.lookup (trackerKey hostname interface) = some current →
      world.svc.state.incidents.lookup current.incidentID = some incident →
      current.phase = .pendingFailure → current.dueAt incident ≤ now →
      ∀ r ∈ unreadRecords w.go world.disk world.svc.state.cursors,
        ¬ r.message.stops w.eng hostname interface incident.startedAt incident.downAfter = true
  | .append _ _ | .reconcile _ _ => True

/-- No record that is stored stops an outage that has become active, nor one that a job is about. -/
structure NoFalseAlarm (w : Worker) (world : World) : Prop where
  incidents : ∀ id incident, world.svc.state.incidents.lookup id = some incident →
    incident.activatedAt ≠ none → ∀ r ∈ storedRecords w.go world.disk,
      ¬ r.message.stops w.eng incident.hostname incident.interface incident.startedAt
        incident.downAfter = true
  jobs : ∀ id job, world.svc.state.jobs.lookup id = some job →
    ∃ hostname interface startedAt messageID,
      job.incidentID = w.eng.ids.incidentID hostname interface startedAt messageID ∧
      ∀ r ∈ storedRecords w.go world.disk,
        ¬ r.message.stops w.eng hostname interface startedAt w.eng.downAfter = true

/-- The messages of the records that are evidence. -/
def Worker.evidence (w : Worker) (records : List StoredRecord) : List Message :=
  (records.filter w.supported).map StoredRecord.message

lemma Message.stops_iff {eng : Engine} {hostname interface : String} {startedAt : Time}
    {downAfter : Duration} {message : Message} :
    message.stops eng hostname interface startedAt downAfter = true ↔
      message.repeaterOnline eng hostname interface = true ∧ startedAt < message.receivedAt ∧
        message.receivedAt < startedAt + downAfter := by
  simp [Message.stops, and_assoc]

section

variable {w : Worker}

lemma Worker.mem_evidence {records : List StoredRecord} {m : Message} :
    m ∈ w.evidence records ↔ ∃ r ∈ records, w.supported r = true ∧ r.message = m := by
  simp [Worker.evidence, and_assoc]

@[simp] lemma Worker.evidence_append (records records' : List StoredRecord) :
    w.evidence (records ++ records') = w.evidence records ++ w.evidence records' := by
  rw [Worker.evidence, List.filter_append, List.map_append]
  rfl

/-- What stops an outage is evidence of reachability. -/
lemma mem_evidence_of_stops {records : List StoredRecord} {r : StoredRecord} (hr : r ∈ records)
    {hostname interface : String} {startedAt : Time} {downAfter : Duration}
    (hstops : r.message.stops w.eng hostname interface startedAt downAfter = true) :
    r.message ∈ w.evidence records ∧
      r.message.Recovers w.eng (trackerKey hostname interface) := by
  have hrecovers := Message.repeaterOnline.recovers (Message.stops_iff.mp hstops).1
  refine ⟨Worker.mem_evidence.mpr ⟨r, hr, ?_, rfl⟩, hrecovers⟩
  obtain ⟨e, he, -⟩ := hrecovers
  rw [Worker.supported, he]
  rfl

/-- Evidence of reachability is what the repeater reports. -/
lemma Message.Recovers.repeaterOnline {eng : Engine} {key : String} {message : Message}
    (h : message.Recovers eng key) : ∃ hostname interface,
      key = trackerKey hostname interface ∧
        message.repeaterOnline eng hostname interface = true := by
  obtain ⟨e, he, hreach, hcounts, honline, rfl⟩ := h
  refine ⟨e.hostname, e.iface, rfl, ?_⟩
  simp only [Message.repeaterOnline, Message.reports, he, Option.any_some, hcounts, honline,
    decide_true, Bool.not_false, Bool.and_self, Bool.and_true, decide_eq_true_eq]
  exact (classify_reachability he hreach).1

end

/-- The engine has been told of what it has read, and all that is stored is stamped by now. -/
structure Informed (w : Worker) (now : Time) (done unread : List StoredRecord) (world : World) :
    Prop where
  live : Live w done unread world
  stamped : ∀ r ∈ done ++ unread, r.message.receivedAt ≤ now
  told : world.svc.state.Told w.eng now (w.evidence done) (w.evidence unread)

namespace Informed

variable {w : Worker} {now : Time} {done unread : List StoredRecord} {world : World}

/-- **An append** stores a record that is stamped now, if any. -/
lemma append (h : Informed w now done unread world) (hframed : w.go.Framed)
    (hkeeps : w.go.KeepsEvidence) {msg : Message} (hstamp : (stamp now msg).receivedAt = now) :
    ∃ unread', Informed w now done unread' (world.live w (.append now msg)) := by
  rcases h.live.append hframed hkeeps now msg with ⟨hsame, -⟩ | ⟨rs, halike, -, hafter, hsvc, -⟩
  · rw [hsame]
    exact ⟨unread, h⟩
  have hat : ∀ r ∈ rs, r.message.receivedAt = now := by
    intro r hr
    have halike := halike r hr
    simp only [Message.alike, Bool.and_eq_true, decide_eq_true_eq] at halike
    rw [← halike.1.1.1.1.2, hstamp]
  refine ⟨unread ++ rs, hafter, fun r hr => ?_, ?_⟩
  · rw [← List.append_assoc] at hr
    rcases List.mem_append.mp hr with hr | hr
    · exact h.stamped r hr
    · rw [hat r hr]
  rw [hsvc, Worker.evidence_append]
  refine h.told.stored le_rfl (fun m hm => ?_) fun m hm => ?_
  · rw [← Worker.evidence_append] at hm
    obtain ⟨r, hr, -, rfl⟩ := Worker.mem_evidence.mp hm
    exact h.stamped r hr
  · obtain ⟨r, hr, -, rfl⟩ := Worker.mem_evidence.mp hm
    exact hat r hr

/-- A tick that is abreast finds nothing unread that stops what is due. -/
lemma unstopped (h : Informed w now done unread world) {env : TickEnv}
    (habreast : (LiveStep.tick env now).Abreast w world) :
    world.svc.state.view.Unstopped w.eng now (w.evidence unread) := by
  intro key i hphase hi hdue m hm hrecovers
  obtain ⟨r, hr, -, rfl⟩ := Worker.mem_evidence.mp hm
  obtain ⟨hostname, interface, rfl, honline⟩ := hrecovers.repeaterOnline
  have hopen : (world.svc.state.view.current
      (trackerKey hostname interface)).phase.openState ≠ none := by
    rw [hphase]
    exact Option.some_ne_none _
  have hnot := habreast hostname interface _ i (View.current_of_open hopen) hi hphase hdue.2 r
    (h.live.read.mem_unreadRecords.mpr hr)
  rw [Message.stops_iff, not_and, not_and, not_lt,
    (h.live.consistent.wellFormed hi).downAfter_eq] at hnot
  exact (le_or_gt r.message.receivedAt i.startedAt).imp_right (hnot honline)

/-- **A tick** that is abreast lets no outage become active that has been stopped. -/
lemma tick (h : Informed w now done unread world) (env : TickEnv)
    (habreast : (LiveStep.tick env now).Abreast w world) :
    Informed w now done unread (world.live w (.tick env now)) := by
  refine ⟨(h.live.tick env now).1, h.stamped, ?_⟩
  obtain ⟨jobs, hstate, hjobs⟩ := w.tick_state env now world.svc
  simp only [World.live, World.step, hstate]
  exact (h.told.advance h.live.consistent le_rfl (h.unstopped habreast) env.orders).delivered hjobs

/-- **What a reconcile derives** it has been told in the order of time. -/
lemma derive (h : Informed w now done unread world) (env : ReconcileEnv)
    {visited : List StoredRecord} {next : Dict String Cursor} (hperm : visited.Perm unread)
    (hread : HasRead w.go world.disk next (done ++ visited) []) :
    Informed w now (done ++ visited) []
      ⟨world.disk, (w.derive env now world.svc (.news (visited.filter w.supported) next)).1⟩ := by
  have hstamped : ∀ r ∈ visited, r.message.receivedAt ≤ now := fun r hr =>
    h.stamped r (List.mem_append_right _ (hperm.mem_iff.mp hr))
  refine ⟨(h.live.derive env now hread).1, fun r hr => ?_, ?_⟩
  · rw [List.append_nil] at hr
    exact (List.mem_append.mp hr).elim (fun hr => h.stamped r (List.mem_append_left _ hr))
      (hstamped r)
  have hmessages : ∀ m, m ∈ (w.batch world.svc.state visited).map Observation.message ↔
      m ∈ w.evidence visited := by
    intro m
    rw [Worker.mem_evidence, List.mem_map]
    constructor
    · rintro ⟨o, ho, rfl⟩
      obtain ⟨r, hr, rfl⟩ := List.mem_map.mp ho
      obtain ⟨hr, hsupported⟩ := List.mem_filter.mp ((List.mergeSort_perm _ _).mem_iff.mp hr)
      exact ⟨r, hr, hsupported, rfl⟩
    · rintro ⟨r, hr, hsupported, rfl⟩
      exact Worker.exists_mem_batch hr hsupported
  have hunread : ∀ m, m ∈ (w.batch world.svc.state visited).map Observation.message ↔
      m ∈ w.evidence unread := by
    intro m
    rw [hmessages, Worker.mem_evidence, Worker.mem_evidence]
    simp only [hperm.mem_iff]
  have htold := (h.told.congr (fun _ => Iff.rfl) hunread).observeAll env.orders h.live.consistent
    (fun o ho => by
      obtain ⟨r, hr, hmessage⟩ := Worker.mem_of_mem_batch ho
      rw [hmessage]
      exact hstamped r hr)
    (Worker.pairwise_batch w world.svc.state visited)
  have hall : (Logthing.observeAll w.eng env.orders (w.batch world.svc.state visited)
      world.svc.state).Told w.eng now (w.evidence (done ++ visited)) [] :=
    htold.congr (fun m => by
      rw [Worker.evidence_append, List.mem_append, List.mem_append, hmessages]) fun _ => Iff.rfl
  rw [Worker.derive, Service.apply_state]
  exact ⟨hall.heard, hall.announced⟩

/-- A tick of a worker that has read everything is abreast. -/
lemma abreast_of_read (h : Live w done [] world) (env : TickEnv) (now : Time) :
    (LiveStep.tick env now).Abreast w world := by
  intro hostname interface current incident _ _ _ _ r hr
  exact absurd (h.read.mem_unreadRecords.mp hr) List.not_mem_nil

/-- **A reconcile** fails before it has read anything, or tells the engine everything. -/
lemma reconcile (h : Informed w now done unread world) (env : ReconcileEnv) :
    ∃ done' unread', Informed w now done' unread' (world.live w (.reconcile env now)) := by
  simp only [World.live, World.step]
  rcases w.reconcile_cases env world.disk now world.svc with hsame | ⟨reading, hreading, hafter⟩
  · rw [hsame]
    exact ⟨done, unread, h⟩
  rcases h.live.worker_read env with ⟨err, hworker⟩ | ⟨-, visited, next, -, hperm, hread, hworker⟩
  · rw [hworker] at hreading
    cases hreading
  obtain rfl := Except.ok.inj (hworker.symm.trans hreading)
  have hderived := h.derive env hperm hread
  refine ⟨done ++ visited, [], ?_⟩
  rcases hafter with hafter | hafter
  · rw [hafter]
    exact hderived
  · rw [hafter]
    exact hderived.tick env.tick (abreast_of_read hderived.live env.tick now)

/-- What the engine has been told raises no false alarm. -/
lemma noFalseAlarm (h : Informed w now done unread world) : NoFalseAlarm w world where
  incidents id incident hi hactivated r hr hstops := by
    rw [h.live.read.stored.mem_iff] at hr
    obtain ⟨hmem, hrecovers⟩ := mem_evidence_of_stops hr hstops
    obtain ⟨-, hbefore, hafter⟩ := Message.stops_iff.mp hstops
    have hi : world.svc.state.view.incidents id = some incident := hi
    rw [Worker.evidence_append] at hmem
    rw [(h.live.consistent.wellFormed hi).downAfter_eq] at hafter
    rcases (h.told.heard.activated hi hactivated).2 _ hmem hrecovers with hle | hle
    · exact absurd hbefore (not_lt.mpr hle)
    · exact absurd hafter (not_lt.mpr hle)
  jobs id job hjob := by
    obtain ⟨hostname, interface, startedAt, messageID, hid, -, hall⟩ := h.told.announced hjob
    refine ⟨hostname, interface, startedAt, messageID, hid, fun r hr hstops => ?_⟩
    rw [h.live.read.stored.mem_iff] at hr
    obtain ⟨hmem, hrecovers⟩ := mem_evidence_of_stops hr hstops
    obtain ⟨-, hbefore, hafter⟩ := Message.stops_iff.mp hstops
    rw [Worker.evidence_append] at hmem
    rcases hall _ hmem hrecovers with hle | hle
    · exact absurd hbefore (not_lt.mpr hle)
    · exact absurd hafter (not_lt.mpr hle)

end Informed

/-! ## Every run -/

/-- **Every step** of a worker whose ticks are abreast. -/
lemma Informed.step {w : Worker} {now : Time} {done unread : List StoredRecord} {world : World}
    (h : Informed w now done unread world) (hframed : w.go.Framed) (hkeeps : w.go.KeepsEvidence)
    {step : LiveStep} (hnow : step.now = now) (hclocked : step.clocked)
    (habreast : step.Abreast w world) :
    ∃ done' unread', Informed w now done' unread' (world.live w step) := by
  subst hnow
  cases step with
  | append now msg => exact ⟨done, h.append hframed hkeeps hclocked⟩
  | reconcile env now => exact h.reconcile env
  | tick env now => exact ⟨done, unread, h.tick env habreast⟩

lemma Informed.later {w : Worker} {now later : Time} {done unread : List StoredRecord}
    {world : World} (h : Informed w now done unread world) (hle : now ≤ later) :
    Informed w later done unread world :=
  ⟨h.live, fun r hr => (h.stamped r hr).trans hle, h.told.later hle⟩

/-- The run lemma. -/
lemma Informed.run {w : Worker} (hids : w.eng.ids.Injective) (hframed : w.go.Framed)
    (hkeeps : w.go.KeepsEvidence) (steps : List LiveStep) {now : Time}
    (hnow : ∀ step ∈ steps, step.now ≤ now)
    (hclock : (steps.map LiveStep.now).Pairwise (· ≤ ·)) (hclocked : ∀ step ∈ steps, step.clocked)
    (habreast : ∀ before step after, steps = before ++ step :: after →
      step.Abreast w (World.new.liveRun w before)) :
    ∃ done unread, Informed w now done unread (World.new.liveRun w steps) := by
  induction steps using List.reverseRecOn generalizing now with
  | nil => exact ⟨[], [], .new hids, fun _ hr => absurd hr List.not_mem_nil, .empty w.eng now⟩
  | append_singleton steps step ih =>
      rw [List.map_append, List.pairwise_append] at hclock
      have hlast : step ∈ steps ++ [step] := by simp
      obtain ⟨done, unread, hbefore⟩ := ih
        (fun earlier hmem => hclock.2.2 _ (List.mem_map_of_mem hmem) step.now (by simp)) hclock.1
        (fun earlier hmem => hclocked earlier (List.mem_append_left _ hmem))
        fun before earlier after hsplit => habreast before earlier (after ++ [step]) (by
          rw [hsplit, List.append_assoc, List.cons_append])
      rw [liveRun_concat]
      obtain ⟨done', unread', hafter⟩ := hbefore.step hframed hkeeps rfl (hclocked step hlast)
        (habreast steps step [] rfl)
      exact ⟨done', unread', hafter.later (hnow step hlast)⟩

/-- **A worker whose ticks are abreast of the store raises no false alarm.**  Take any run of
appends, reconciles and ticks, under a clock that does not run back, in which every record is
stamped with the clock.  If no tick lets an outage become active that an unread record stops, then
no incident is active, or announced, whose interface the store shows to have been online before it
had been down for long enough. -/
theorem no_false_alarm (w : Worker) (hids : w.eng.ids.Injective) (hframed : w.go.Framed)
    (hkeeps : w.go.KeepsEvidence) (steps : List LiveStep)
    (hclock : (steps.map LiveStep.now).Pairwise (· ≤ ·))
    (hclocked : ∀ step ∈ steps, step.clocked)
    (habreast : ∀ before step after, steps = before ++ step :: after →
      step.Abreast w (World.new.liveRun w before)) :
    NoFalseAlarm w (World.new.liveRun w steps) := by
  obtain ⟨now, hnow⟩ := (steps.map LiveStep.now).toFinset.exists_le
  obtain ⟨done, unread, hinformed⟩ := Informed.run hids hframed hkeeps steps
    (fun step hstep => hnow step.now (by simpa using ⟨step, hstep, rfl⟩)) hclock hclocked habreast
  exact hinformed.noFalseAlarm

/-- **Nothing less will do**: a tick that is not abreast raises a false alarm. -/
theorem abreast_of_noFalseAlarm {w : Worker} (hnul : '\x00' ∉ w.eng.interface.toList)
    {done unread : List StoredRecord} {world : World} (h : Live w done unread world) (env : TickEnv)
    (now : Time) (hafter : NoFalseAlarm w (world.live w (.tick env now))) :
    (LiveStep.tick env now).Abreast w world := by
  intro hostname interface current incident hc hi hphase hdue r hr hstops
  have hstored := h.read.stored.mem_iff.mpr
    (List.mem_append_right done (h.read.mem_unreadRecords.mp hr))
  have hpending : current.pending = true := by simp [Tracker.pending, hphase]
  obtain ⟨x, hx, hagrees⟩ := h.consistent.names hc (Tracker.open_of_pending hpending)
  have hsame : incident = x := Option.some.inj (hi.symm.trans hx)
  subst hsame
  have hwf := h.consistent.wellFormed hx
  -- the interface is the one of the incident
  obtain ⟨e, he, hsays⟩ := (Option.any_eq_true _ _).mp (Bool.and_eq_true_iff.mp
    (Message.stops_iff.mp hstops).1).2
  simp only [Bool.and_eq_true, decide_eq_true_eq] at hsays
  have hinterface : interface ∈ w.eng.interfaces := by
    rw [← hsays.1.1.2]
    exact (classify_eq_some he).2.2.2.2
  obtain ⟨rfl, rfl⟩ := trackerKey_inj hnul hwf.interface_mem hinterface hagrees.key
  -- and the tick lets its timer run out
  have hfired : (world.live w (.tick env now)).svc.state.view.incidents current.incidentID
      = some (incident.fired current) := by
    rw [(h.tick env now).2]
    simp only [View.settle, hx, Option.map_some, View.settledIncident, hagrees.key]
    rw [show world.svc.state.view.trackers _ = some current from hc]
    simp only
    rw [if_pos ⟨hwf.id_eq.symm, hpending, hdue⟩]
  rw [Incident.fired, if_pos hphase] at hfired
  exact hafter.incidents _ _ hfired (Option.some_ne_none _) r hstored hstops

/-- The small outage is read, and lasts. -/
def stillDown : List LiveStep :=
  [.append 1000000000 wanDown.message, .reconcile sampleReconcile 1000000000,
    .tick sampleTick 61000000000]

theorem no_false_alarm_wanDown :
    NoFalseAlarm sampleWorker (World.new.liveRun sampleWorker stillDown) := by
  refine no_false_alarm sampleWorker sampleIDs_injective sampleWorker_framed
    sampleWorker_keepsEvidence stillDown (by decide) ?_ fun before step after hsplit => ?_
  · simp [stillDown, LiveStep.clocked, wanDown, stamp]
  cases step with
  | append now msg => trivial
  | reconcile env now => trivial
  | tick env now =>
      -- the tick comes right after the reconcile
      have hbefore : before = stillDown.take 2 := by
        rcases before with _ | ⟨first, _ | ⟨second, _ | ⟨third, rest⟩⟩⟩ <;>
          simp [stillDown] at hsplit ⊢
        exact ⟨hsplit.1.symm, hsplit.2.1.symm⟩
      obtain ⟨done, unread, hlive⟩ := Live.run sampleIDs_injective sampleWorker_framed
        sampleWorker_keepsEvidence (stillDown.take 1)
      rw [hbefore]
      rcases hlive.reconcile sampleReconcile 1000000000 with
        ⟨-, herr⟩ | ⟨-, visited, -, -, hread, -⟩
      · exact absurd (by decide +kernel) herr
      · exact Informed.abreast_of_read hread env now

/-- `gl-repeater` of `gw` reports `wan` online, half way through the small outage. -/
def wanOnline : Message :=
  { id := "two", receivedAt := 31000000000, hostname := "gw", tag := "gl-repeater"
    message := "(repeater.lua:101) interface wan status online" }

/-- The line it is stored as. -/
def wanOnlineLine : Bytes :=
  utf8Bytes ("\x7b\"id\":\"two\",\"received_at\":\"0001-01-01T00:00:31Z\",\"hostname\":\"gw\"," ++
    "\"tag\":\"gl-repeater\",\"message\":\"(repeater.lua:101) interface wan status online\"\x7d")

/-- A worker that has been running before either, and whose store has both records. -/
def earlyWorker : Worker :=
  { sampleWorker with
    go := .ofLines [(wanDown.message, wanDownLine), (wanOnline, wanOnlineLine)]
    startedAt := 0 }

/-- The interface is online again, but a tick comes before the reconcile that would read it. -/
def tickedAhead : List LiveStep :=
  [.append 1000000000 wanDown.message, .reconcile sampleReconcile 1000000000,
    .append 31000000000 wanOnline, .tick sampleTick 61000000000]

/-- **A false alarm.**  The incident is active and a job announces it, although the store holds the
record that stops it. -/
theorem tickedAhead_false_alarm :
    (tickedAhead.map LiveStep.now).Pairwise (· ≤ ·) ∧ (∀ step ∈ tickedAhead, step.clocked) ∧
      ((World.new.liveRun earlyWorker tickedAhead).svc.state.jobs.lookup
        "8d4663d6450447b8:incident_opened").any (·.incidentID = "8d4663d6450447b8") = true ∧
      ¬ NoFalseAlarm earlyWorker (World.new.liveRun earlyWorker tickedAhead) := by
  refine ⟨by decide, ?_, by decide +kernel, fun hnone => ?_⟩
  · simp [tickedAhead, LiveStep.clocked, wanDown, wanOnline, stamp]
  have hactive : ((World.new.liveRun earlyWorker tickedAhead).svc.state.incidents.lookup
      "8d4663d6450447b8").any (fun i => i.activatedAt ≠ none &&
        (storedRecords earlyWorker.go (World.new.liveRun earlyWorker tickedAhead).disk).any
          fun r => r.message.stops sampleEngine i.hostname i.interface i.startedAt i.downAfter)
      = true := by decide +kernel
  obtain ⟨incident, hi, hstopped⟩ := (Option.any_eq_true _ _).mp hactive
  rw [Bool.and_eq_true, decide_eq_true_eq, List.any_eq_true] at hstopped
  obtain ⟨hactivated, r, hr, hstops⟩ := hstopped
  exact hnone.incidents _ incident hi hactivated r hr hstops

end Logthing
