import Logthing.Incidents.Debounce

/-!
# Applying a batch again

`Apply` promises that replayed records are harmless.  Two things make them so: a record older than
the last evidence of its tracker is dropped, and `appendEvidence` does not repeat the last entry.
`View.Took` says, of each record of a batch that was applied in the order of time, what the state
has kept of it, and `observeLocked_again` that observing it again then changes nothing.

The promise breaks where several records of one interface share the time of its last evidence:
none of them is dropped, and only one can be the last entry (`sameTime_not_replayable`).  It also
breaks where an online record that was ignored stands after the last evidence of a tracker that
has recovered since.  `Replayable` leaves out these two.

**Main results.**  `replay_harmless`: in every state a run can reach, applying a sorted batch again
changes no tracker, incident or job, if the batch is replayable where it left the state.
-/

namespace Logthing

/-! ## Evidence that has been seen -/

/-- The evidence is the last an incident has noted. -/
structure Incident.Noted (evidence : Evidence) (incident : Incident) : Prop where
  at_eq : incident.lastEvidenceAt = evidence.at_
  id_eq : appendEvidence incident.evidenceIDs evidence.messageID = incident.evidenceIDs
  ref_eq : appendEvidence incident.evidenceRefs evidence.sourceRef = incident.evidenceRefs

/-- A tracker and its incident are as the evidence left them, timers apart. -/
structure View.Reflects (evidence : Evidence) (notifyEligible : Bool) (v : View) : Prop where
  at_eq : (v.current evidence.key).lastEvidenceAt = evidence.at_
  up : evidence.online = true →
    (v.current evidence.key).phase = .healthy ∨ (v.current evidence.key).phase = .pendingRecovery
  down : evidence.online = false →
    (v.current evidence.key).phase = .pendingFailure ∨ (v.current evidence.key).phase = .active
  reachability : evidence.online = false → evidence.reachability = true →
    (v.current evidence.key).reachabilityDown = true
  notify : (v.current evidence.key).phase = .pendingFailure → notifyEligible = true →
    (v.current evidence.key).notify = true
  noted : (v.current evidence.key).phase.openState ≠ none →
    ∀ i, v.incidents (v.current evidence.key).incidentID = some i → i.Noted evidence

/-- Online evidence that did not count, and still does not or comes to a healthy tracker. -/
structure Evidence.Ignored (eng : Engine) (evidence : Evidence) (current : Tracker) : Prop where
  online : evidence.online = true
  iface : evidence.iface = eng.interface
  reachability : evidence.reachability = false
  down : current.reachabilityDown = true ∨ current.phase = .healthy

/-- What the state has kept of evidence from the batch `os`: it is too old by now, or it was a
sighting, or it did not count, or it came at the time of the last evidence that did. -/
inductive View.Took (eng : Engine) (os : List Observation) (v : View) (evidence : Evidence) : Prop
  | stale (h : evidence.Stale (v.current evidence.key))
  | sighted (honly : evidence.observeOnly = true)
      (hat : (v.current evidence.key).lastEvidenceAt = evidence.at_)
      (hphase : (v.current evidence.key).phase ≠ .unset)
  | ignored (honly : evidence.observeOnly = false) (hquiet : v.Quiet eng evidence.at_)
      (h : evidence.Ignored eng (v.current evidence.key))
  | overtaken (honly : evidence.observeOnly = false) (hquiet : v.Quiet eng evidence.at_)
      (o : Observation) (ho : o ∈ os) (last : Evidence) (hlast : eng.evidence o = some last)
      (hlastOnly : last.observeOnly = false) (hkey : last.key = evidence.key)
      (hat : (v.current evidence.key).lastEvidenceAt = evidence.at_)
      (hcounts : last.masked eng (v.current evidence.key) = false)
      (hreflects : v.Reflects last o.notifyEligible)

/-! ## Timers -/

lemma Tracker.reachabilityDown_of_fired {current : Tracker}
    (h : current.fired.reachabilityDown = true) : current.reachabilityDown = true := by
  rw [Tracker.fired] at h
  split_ifs at h
  exact h

lemma Evidence.masked_settle {eng : Engine} {v : View} {evidence : Evidence} {key : String}
    (now : Time) (h : evidence.masked eng (v.current key) = false) :
    evidence.masked eng ((v.settle now).current key) = false := by
  rcases current_settle v now key with ⟨hsame, -⟩ | ⟨i, -, -, -, hfired⟩
  · rw [hsame]
    exact h
  · by_contra hmasked
    simp only [Evidence.masked, Bool.not_eq_false, Bool.and_eq_true] at hmasked
    rw [hfired] at hmasked
    have hdown := Tracker.reachabilityDown_of_fired hmasked.1.2
    simp [Evidence.masked, hmasked.1.1.1, hmasked.1.1.2, hmasked.2, hdown] at h

lemma Evidence.Ignored.settle {eng : Engine} {v : View} {evidence : Evidence} {key : String}
    (now : Time) (h : evidence.Ignored eng (v.current key)) :
    evidence.Ignored eng ((v.settle now).current key) := by
  rcases current_settle v now key with ⟨hsame, -⟩ | ⟨i, -, -, hdue, hfired⟩
  · rw [hsame]
    exact h
  · refine { h with down := ?_ }
    rw [hfired, Tracker.fired]
    split_ifs with hphase
    · refine Or.inl (h.down.resolve_right fun hhealthy => ?_)
      rw [hphase] at hhealthy
      cases hhealthy
    · exact Or.inr rfl

lemma Incident.Noted.fired {evidence : Evidence} {incident : Incident} (h : incident.Noted evidence)
    (current : Tracker) : (incident.fired current).Noted evidence := by
  rw [Incident.fired]
  split_ifs
  · exact ⟨h.at_eq, h.id_eq, h.ref_eq⟩
  · exact ⟨h.at_eq, h.id_eq, h.ref_eq⟩

/-- Timers leave what evidence did. -/
lemma View.Reflects.settle {eng : Engine} {v : View} (h : Consistent eng v) {evidence : Evidence}
    {notifyEligible : Bool} (hr : v.Reflects evidence notifyEligible) (now : Time) :
    (v.settle now).Reflects evidence notifyEligible := by
  have hnoted : (v.current evidence.key).phase.openState ≠ none → ∀ i,
      (v.settle now).incidents (v.current evidence.key).incidentID = some i →
        i.Noted evidence := by
    intro hopen i hi
    rcases incidents_settle h hi with hsame | ⟨before, current, hbefore, -, -, -, rfl⟩
    · exact hr.noted hopen i hsame
    · exact (hr.noted hopen before hbefore).fired current
  have hat := (lastEvidenceAt_settle v now evidence.key).trans hr.at_eq
  rcases current_settle v now evidence.key with ⟨hsame, -⟩ | ⟨i, -, -, hdue, hfired⟩
  · refine ⟨hat, ?_, ?_, ?_, ?_, ?_⟩ <;> rw [hsame]
    · exact hr.up
    · exact hr.down
    · exact hr.reachability
    · exact hr.notify
    · exact hnoted
  · by_cases hphase : (v.current evidence.key).phase = .pendingFailure
    · have hactive : (v.settle now).current evidence.key
          = { v.current evidence.key with phase := .active } := by
        rw [hfired, Tracker.fired, if_pos hphase]
      refine ⟨hat, fun hup => ?_, ?_, ?_, ?_, ?_⟩
      · rcases hr.up hup with hp | hp <;> rw [hphase] at hp <;> cases hp
      all_goals rw [hactive]
      · exact fun _ => Or.inr rfl
      · exact hr.reachability
      · exact fun hp => Phase.noConfusion hp
      · exact fun _ => hnoted (by rw [hphase]; exact Option.some_ne_none _)
    · have hhealthy : (v.settle now).current evidence.key
          = { phase := .healthy, lastEvidenceAt := (v.current evidence.key).lastEvidenceAt } := by
        rw [hfired, Tracker.fired, if_neg hphase]
      have hrecovery : (v.current evidence.key).phase = .pendingRecovery := by
        have hpending := hdue.1
        simpa [Tracker.pending, hphase] using hpending
      have hup : evidence.online = true := by
        by_contra hdown
        rcases hr.down (Bool.eq_false_iff.mpr hdown) with hp | hp <;> rw [hrecovery] at hp <;>
          cases hp
      refine ⟨hat, ?_, fun hdown => ?_, fun hdown => ?_, ?_, ?_⟩
      · rw [hhealthy]
        exact fun _ => Or.inl rfl
      · rw [hup] at hdown
        cases hdown
      · rw [hup] at hdown
        cases hdown
      all_goals rw [hhealthy]
      · exact fun hp => Phase.noConfusion hp
      · exact fun hopen => absurd rfl hopen

/-! ## Evidence that counts -/

lemma appendEvidence_self (ids : List String) (id : String) :
    appendEvidence (appendEvidence ids id) id = appendEvidence ids id := by
  simp only [appendEvidence]
  split_ifs with hempty hlast hagain
  · rfl
  · rfl
  · rfl
  · exact absurd (List.getLast?_concat) hagain

section

variable {eng : Engine} {v : View} {evidence : Evidence} {notifyEligible : Bool}

lemma current_set_self (v : View) (key : String) (current : Tracker) (id : String)
    (incident : Option Incident) : (v.set key current id incident).current key = current := by
  simp only [View.current, View.set, Function.update_self, Option.getD_some]

/-- Storing a tracker and an incident that evidence left so. -/
lemma View.Reflects.of_set {current : Tracker} {id : String} {incident : Option Incident}
    (hat : current.lastEvidenceAt = evidence.at_)
    (hup : evidence.online = true → current.phase = .healthy ∨ current.phase = .pendingRecovery)
    (hdown : evidence.online = false → (current.phase = .pendingFailure ∨ current.phase = .active) ∧
      (evidence.reachability = true → current.reachabilityDown = true))
    (hnotify : current.phase = .pendingFailure → notifyEligible = true → current.notify = true)
    (hnoted : current.phase.openState ≠ none → current.incidentID = id ∧
      ∀ i, incident = some i → i.Noted evidence) :
    (v.set evidence.key current id incident).Reflects evidence notifyEligible := by
  refine ⟨?_, ?_, ?_, ?_, ?_, ?_⟩ <;> rw [current_set_self]
  · exact hat
  · exact hup
  · exact fun h => (hdown h).1
  · exact fun h => (hdown h).2
  · exact hnotify
  · intro hopen i hi
    obtain ⟨hid, hall⟩ := hnoted hopen
    refine hall i ?_
    have hset : (v.set evidence.key current id incident).incidents id = incident :=
      Function.update_self _ _ _
    rwa [hid, hset] at hi

/-- Evidence noted in an open incident, whatever else becomes of it. -/
lemma Incident.noted_of_map {f : Incident → Incident} {incident : Option Incident} {i : Incident}
    (hi : incident.map f = some i)
    (hf : ∀ i, (f i).lastEvidenceAt = (i.note evidence).lastEvidenceAt ∧
      (f i).evidenceIDs = (i.note evidence).evidenceIDs ∧
      (f i).evidenceRefs = (i.note evidence).evidenceRefs) :
    i.Noted evidence := by
  obtain ⟨before, -, rfl⟩ := Option.map_eq_some_iff.mp hi
  obtain ⟨hat, hids, hrefs⟩ := hf before
  refine ⟨hat, ?_, ?_⟩
  · rw [hids]
    exact appendEvidence_self _ _
  · rw [hrefs]
    exact appendEvidence_self _ _

/-- **Evidence that counts is reflected.** -/
lemma View.Reflects.of_react (hcounts : evidence.masked eng (v.current evidence.key) = false) :
    (v.react eng evidence notifyEligible).Reflects evidence notifyEligible := by
  rw [View.react, if_neg (by simp [hcounts])]
  cases honline : evidence.online <;> cases hphase : (v.current evidence.key).phase <;>
    simp only [reaction, honline]
  case false.unset | false.healthy =>
      refine .of_set rfl (by simp [honline]) (fun _ => ⟨Or.inl rfl, id⟩) (fun _ => id)
        fun _ => ⟨rfl, fun i hi => ?_⟩
      rw [← Option.some.inj hi]
      exact ⟨rfl, appendEvidence_self _ _, appendEvidence_self _ _⟩
  case true.unset | true.healthy | true.pendingFailure =>
      exact .of_set rfl (fun _ => Or.inl rfl) (by simp [honline]) (by simp)
        (by simp [Phase.openState])
  case false.pendingFailure =>
      refine .of_set rfl (by simp [honline]) (fun _ => ⟨Or.inl rfl, fun hreach => ?_⟩)
        (fun _ hnotify => ?_) fun _ => ⟨rfl, fun i hi => Incident.noted_of_map hi fun _ => ⟨rfl, rfl, rfl⟩⟩
      · simp [hreach]
      · simp [hnotify]
  case false.active =>
      refine .of_set rfl (by simp [honline]) (fun _ => ⟨Or.inr rfl, fun hreach => ?_⟩)
        (by simp) fun _ => ⟨rfl, fun i hi => Incident.noted_of_map hi fun _ => ⟨rfl, rfl, rfl⟩⟩
      simp [hreach]
  case false.pendingRecovery =>
      refine .of_set rfl (by simp [honline]) (fun _ => ⟨Or.inr rfl, fun hreach => ?_⟩)
        (by simp) fun _ => ⟨rfl, fun i hi => Incident.noted_of_map hi fun _ => ⟨rfl, rfl, rfl⟩⟩
      simp [hreach]
  case true.active =>
      exact .of_set rfl (fun _ => Or.inr rfl) (by simp [honline]) (by simp)
        fun _ => ⟨rfl, fun i hi => Incident.noted_of_map hi fun _ => ⟨rfl, rfl, rfl⟩⟩
  case true.pendingRecovery =>
      exact .of_set rfl (fun _ => Or.inr rfl) (by simp [honline]) (by simp)
        fun _ => ⟨rfl, fun i hi => Incident.noted_of_map hi fun _ => ⟨rfl, rfl, rfl⟩⟩

/-- Evidence that counted would count again. -/
lemma masked_react (hcounts : evidence.masked eng (v.current evidence.key) = false) :
    evidence.masked eng ((v.react eng evidence notifyEligible).current evidence.key) = false := by
  rw [View.react, if_neg (by simp [hcounts]), current_set_self]
  cases honline : evidence.online
  · simp [Evidence.masked, honline]
  · cases hphase : (v.current evidence.key).phase <;> simp only [reaction, honline]
    case unset | pendingFailure => simp [Evidence.masked]
    all_goals exact hcounts

lemma View.Reflects.phase_ne_unset (hr : v.Reflects evidence notifyEligible) :
    (v.current evidence.key).phase ≠ .unset := by
  intro hunset
  cases honline : evidence.online
  · rcases hr.down honline with hp | hp <;> rw [hunset] at hp <;> cases hp
  · rcases hr.up honline with hp | hp <;> rw [hunset] at hp <;> cases hp

/-! ## Seen again -/

lemma View.current_of_set {key : String} (h : (v.current key).phase ≠ .unset) :
    v.trackers key = some (v.current key) := by
  rw [View.current] at h ⊢
  cases hc : v.trackers key with
  | none =>
      rw [hc] at h
      exact absurd rfl h
  | some current => rfl

lemma View.set_self {key id : String} {current : Tracker} (hc : v.trackers key = some current)
    {incident : Option Incident} (hi : v.incidents id = incident) :
    v.set key current id incident = v := by
  ext1
  · rw [View.set, ← hc, Function.update_eq_self]
  · rw [View.set, ← hi, Function.update_eq_self]

lemma Incident.note_of_noted {incident : Incident} (h : incident.Noted evidence) :
    incident.note evidence = incident := by
  rw [Incident.note, h.id_eq, h.ref_eq, ← h.at_eq]

/-- The reaction to evidence that is reflected gives back what is there. -/
lemma reaction_of_reflects {current : Tracker} {incident : Option Incident}
    (hup : evidence.online = true → current.phase = .healthy ∨ current.phase = .pendingRecovery)
    (hdown : evidence.online = false → current.phase = .pendingFailure ∨ current.phase = .active)
    (hreach : evidence.online = false → evidence.reachability = true →
      current.reachabilityDown = true)
    (hnotify : current.phase = .pendingFailure → notifyEligible = true → current.notify = true)
    (hnoted : current.phase.openState ≠ none → ∃ i, incident = some i ∧ i.note evidence = i ∧
      i.notify = current.notify) :
    (reaction eng evidence notifyEligible current).current = current ∧
      (reaction eng evidence notifyEligible current).id = current.incidentID ∧
      (reaction eng evidence notifyEligible current).incident incident = incident := by
  have hdownSame : evidence.online = false →
      (current.reachabilityDown || evidence.reachability) = current.reachabilityDown := by
    intro honline
    cases hreachability : evidence.reachability
    · simp
    · simp [hreach honline hreachability]
  obtain ⟨phase, pendingSince, recoverySince, lastEvidenceAt, startMessageID, startSourceRef,
    incidentID, notify, reachabilityDown⟩ := current
  cases honline : evidence.online
  · have hdownSame := hdownSame honline
    simp only at hdownSame
    rcases hdown honline with hphase | hphase <;> simp only at hphase <;> subst hphase
    · obtain ⟨i, rfl, hnote, hin⟩ := hnoted (Option.some_ne_none _)
      have hnotifySame : (notify || notifyEligible) = notify := by
        cases hn : notifyEligible
        · exact Bool.or_false _
        · have htrue : notify = true := hnotify rfl hn
          rw [htrue, Bool.true_or]
      have hsame : { i with notify := notify } = i := by
        rw [← show i.notify = notify from hin]
      simp only [reaction, honline, hdownSame, hnotifySame, Option.map_some, hnote, hsame,
        and_self]
    · obtain ⟨i, rfl, hnote, -⟩ := hnoted (Option.some_ne_none _)
      simp only [reaction, honline, hdownSame, Option.map_some, hnote, and_self]
  · rcases hup honline with hphase | hphase <;> simp only at hphase <;> subst hphase
    · simp only [reaction, honline, id, and_self]
    · obtain ⟨i, rfl, hnote, -⟩ := hnoted (Option.some_ne_none _)
      simp only [reaction, honline, Option.map_some, hnote, and_self]

/-- **Evidence that is reflected changes nothing.** -/
lemma react_of_reflects (h : Consistent eng v) (hr : v.Reflects evidence notifyEligible) :
    v.react eng evidence notifyEligible = v := by
  rw [View.react]
  split_ifs
  · rfl
  have hat : { v.current evidence.key with lastEvidenceAt := evidence.at_ }
      = v.current evidence.key := by
    rw [← hr.at_eq]
  obtain ⟨hcurrent, hid, hincident⟩ := reaction_of_reflects hr.up hr.down hr.reachability hr.notify
    fun hopen => by
      obtain ⟨i, hi, hagrees, -⟩ := h.incident_of_open hopen
      exact ⟨i, hi, Incident.note_of_noted (hr.noted hopen i hi), hagrees.notify⟩
  simp only [hat]
  rw [hcurrent, hid]
  exact View.set_self (View.current_of_set hr.phase_ne_unset) hincident.symm

/-! ## Evidence of other interfaces -/

/-- Evidence of one interface leaves the incident of another. -/
lemma incidents_react_of_ne (h : Consistent eng v) {key : String} (hkey : key ≠ evidence.key)
    (hopen : (v.current key).phase.openState ≠ none) :
    (v.react eng evidence notifyEligible).incidents (v.current key).incidentID
      = v.incidents (v.current key).incidentID := by
  obtain ⟨i, hi, hagrees, -⟩ := h.incident_of_open hopen
  rw [hi, h.incidents_react_of_ne hi]
  rwa [hagrees.key]

/-- A tracker and its incident are as they were, timers and evidence of others apart. -/
lemma View.Reflects.congr {w : View} (hr : v.Reflects evidence notifyEligible)
    (hcurrent : w.current evidence.key = v.current evidence.key)
    (hincident : (v.current evidence.key).phase.openState ≠ none →
      w.incidents (v.current evidence.key).incidentID
        = v.incidents (v.current evidence.key).incidentID) :
    w.Reflects evidence notifyEligible := by
  refine ⟨?_, ?_, ?_, ?_, ?_, ?_⟩ <;> rw [hcurrent]
  · exact hr.at_eq
  · exact hr.up
  · exact hr.down
  · exact hr.reachability
  · exact hr.notify
  · intro hopen i hi
    rw [hincident hopen] at hi
    exact hr.noted hopen i hi

end

/-! ## What has been taken stays taken -/

section

variable {eng : Engine} {v : View} {os : List Observation} {evidence : Evidence}

/-- Timers leave what has been taken. -/
lemma View.Took.settle (h : Consistent eng v) (ht : v.Took eng os evidence) {now : Time}
    (hle : evidence.at_ ≤ now) : (v.settle now).Took eng os evidence := by
  have hquiet : (v.settle now).Quiet eng evidence.at_ := (View.Quiet.of_settle h now).mono hle
  have hat := lastEvidenceAt_settle v now evidence.key
  cases ht with
  | stale hstale =>
      refine .stale ?_
      rw [Evidence.Stale, hat]
      exact hstale
  | sighted honly hlast hphase =>
      refine .sighted honly (hat.trans hlast) ?_
      rcases current_settle v now evidence.key with ⟨hsame, -⟩ | ⟨i, -, -, -, hfired⟩
      · rwa [hsame]
      · rw [hfired, Tracker.fired]
        split_ifs
        · exact Phase.noConfusion
        · exact Phase.noConfusion
  | ignored honly _ hignored => exact .ignored honly hquiet (hignored.settle now)
  | overtaken honly _ o ho last hlast hlastOnly hkey hlastAt hcounts hreflects =>
      exact .overtaken honly hquiet o ho last hlast hlastOnly hkey (hat.trans hlastAt)
        (Evidence.masked_settle now hcounts) (hreflects.settle h now)

/-- What another tracker does leaves what has been taken. -/
lemma View.Took.congr {w : View} (ht : v.Took eng os evidence)
    (hquiet : v.Quiet eng evidence.at_ → w.Quiet eng evidence.at_)
    (hcurrent : w.current evidence.key = v.current evidence.key)
    (hincident : (v.current evidence.key).phase.openState ≠ none →
      w.incidents (v.current evidence.key).incidentID
        = v.incidents (v.current evidence.key).incidentID) : w.Took eng os evidence := by
  cases ht with
  | stale hstale =>
      refine .stale ?_
      rwa [hcurrent]
  | sighted honly hlast hphase =>
      refine .sighted honly ?_ ?_
      · rwa [hcurrent]
      · rwa [hcurrent]
  | ignored honly hq hignored =>
      refine .ignored honly (hquiet hq) ?_
      rwa [hcurrent]
  | overtaken honly hq o ho last hlast hlastOnly hkey hat hcounts hreflects =>
      refine .overtaken honly (hquiet hq) o ho last hlast hlastOnly hkey ?_ ?_ ?_
      · rwa [hcurrent]
      · rwa [hcurrent]
      · refine hreflects.congr ?_ ?_
        · rw [hkey, hcurrent]
        · rwa [hkey]

/-- Evidence that does not count where its own interface went down is taken as ignored. -/
lemma View.Took.of_masked (honly : evidence.observeOnly = false)
    (hquiet : v.Quiet eng evidence.at_)
    (hmasked : evidence.masked eng (v.current evidence.key) = true) : v.Took eng os evidence := by
  simp only [Evidence.masked, Bool.and_eq_true, decide_eq_true_eq, Bool.not_eq_true'] at hmasked
  exact .ignored honly hquiet ⟨hmasked.1.1.1, hmasked.1.1.2, hmasked.2, Or.inl hmasked.1.2⟩

/-- Evidence as old as what has just counted has been overtaken by it. -/
lemma View.Took.of_react {o : Observation} (ho : o ∈ os) {last : Evidence}
    (hlast : eng.evidence o = some last) (hlastOnly : last.observeOnly = false)
    (hquiet : v.Quiet eng last.at_) (hcounts : last.masked eng (v.current last.key) = false)
    (honly : evidence.observeOnly = false) (hkey : last.key = evidence.key)
    (hat : evidence.at_ = last.at_) :
    (v.react eng last o.notifyEligible).Took eng os evidence := by
  have hreflects : (v.react eng last o.notifyEligible).Reflects last o.notifyEligible :=
    .of_react hcounts
  refine .overtaken honly ?_ o ho last hlast hlastOnly hkey ?_ ?_ hreflects
  · rw [hat]
    exact hquiet.react _
  · rw [← hkey, hat]
    exact hreflects.at_eq
  · rw [← hkey]
    exact masked_react hcounts

/-- **Later evidence leaves what has been taken**, timers apart. -/
lemma View.Took.react (h : Consistent eng v) (ht : v.Took eng os evidence) {o : Observation}
    (ho : o ∈ os) {last : Evidence} (hlast : eng.evidence o = some last)
    (hlastOnly : last.observeOnly = false) (hle : evidence.at_ ≤ last.at_)
    (hquiet : v.Quiet eng last.at_) (hstale : ¬ last.Stale (v.current last.key)) :
    (v.react eng last o.notifyEligible).Took eng os evidence := by
  cases hcounts : last.masked eng (v.current last.key)
  swap
  · rw [View.react, if_pos hcounts]
    exact ht
  by_cases hkey : last.key = evidence.key
  swap
  · exact ht.congr (fun _ => (hquiet.react _).mono hle) (current_react_of_ne (Ne.symm hkey) _)
      (incidents_react_of_ne h (Ne.symm hkey))
  have hreflects : (v.react eng last o.notifyEligible).Reflects last o.notifyEligible :=
    .of_react hcounts
  have hat := hreflects.at_eq
  rw [hkey] at hat hstale
  rcases hle.lt_or_eq with hlt | heq
  · refine .stale ⟨?_, ?_⟩
    · rw [hat]
      exact (evidence_eq_some hlast).2.1
    · rw [hat]
      exact hlt
  · have hovertaken : evidence.observeOnly = false →
        (v.react eng last o.notifyEligible).Took eng os evidence := fun honly =>
      .of_react ho hlast hlastOnly hquiet hcounts honly hkey heq
    cases ht with
    | stale hold =>
        rw [Evidence.Stale, heq] at hold
        exact absurd hold hstale
    | sighted honly _ _ =>
        refine .sighted honly (hat.trans heq.symm) ?_
        have hphase := hreflects.phase_ne_unset
        rwa [hkey] at hphase
    | ignored honly => exact hovertaken honly
    | overtaken honly => exact hovertaken honly

/-- A sighting leaves what has been taken. -/
lemma View.Took.sight (ht : v.Took eng os evidence) {last : Evidence} (hzero : last.at_ ≠ 0)
    (hle : evidence.at_ ≤ last.at_) (hstale : ¬ last.Stale (v.current last.key)) :
    (v.sight last).Took eng os evidence := by
  have hincidents : (v.sight last).incidents = v.incidents := Function.update_eq_self _ _
  by_cases hkey : last.key = evidence.key
  swap
  · refine ht.congr (fun hquiet => hquiet.sight last) ?_ fun _ => congrFun hincidents _
    simp only [View.current, View.sight, View.set, Function.update_of_ne (Ne.symm hkey)]
  have hcurrent : (v.sight last).current evidence.key
      = (v.current evidence.key).sighted last := by
    rw [← hkey]
    exact current_set_self _ _ _ _ _
  rcases hle.lt_or_eq with hlt | heq
  · refine .stale ?_
    rw [hcurrent]
    exact ⟨hzero, hlt⟩
  -- at the same time, the tracker has been seen as it is
  have hsame : (v.current evidence.key).phase ≠ .unset →
      (v.current evidence.key).lastEvidenceAt = evidence.at_ →
      (v.sight last).current evidence.key = v.current evidence.key := by
    intro hphase hat
    rw [hcurrent, Tracker.sighted, if_neg hphase, ← heq, ← hat]
  rw [hkey] at hstale
  cases ht with
  | stale hold =>
      rw [Evidence.Stale, heq] at hold
      exact absurd hold hstale
  | sighted honly hat hphase =>
      refine .sighted honly ?_ ?_
      · rw [hsame hphase hat, hat]
      · rw [hsame hphase hat]
        exact hphase
  | ignored honly hquiet hignored =>
      refine .ignored honly (hquiet.sight last) { hignored with down := ?_ }
      rw [hcurrent, Tracker.sighted]
      split_ifs
      · exact Or.inr rfl
      · exact hignored.down
  | overtaken honly hquiet o ho e he heOnly hkey' hat hcounts hreflects =>
      have hphase := hreflects.phase_ne_unset
      rw [hkey'] at hphase
      refine .overtaken honly (hquiet.sight last) o ho e he heOnly hkey' ?_ ?_
        (hreflects.congr ?_ fun _ => congrFun hincidents _)
      · rw [hsame hphase hat, hat]
      · rw [hsame hphase hat]
        exact hcounts
      · rw [hkey', hsame hphase hat]

end

/-! ## Taking a batch -/

section

variable {eng : Engine} {s : Snapshot} (h : Consistent eng s.view) {os : List Observation}

include h

/-- Evidence is taken when it is observed. -/
lemma took_observeLocked (orders : Schedule) {o : Observation} (ho : o ∈ os) {evidence : Evidence}
    (he : eng.evidence o = some evidence) :
    (observeLocked eng orders o.message o.notifyEligible o.sourceRef s).view.Took eng os
      evidence := by
  rw [view_observeLocked h, View.take, he]
  simp only [View.observe]
  split_ifs with hstale honly
  · exact .stale hstale
  · have hcurrent : (s.view.sight evidence).current evidence.key
        = (s.view.current evidence.key).sighted evidence := current_set_self _ _ _ _ _
    refine .sighted honly ?_ ?_
    · rw [hcurrent]
      rfl
    · rw [hcurrent, Tracker.sighted]
      split_ifs with hphase
      · exact Phase.noConfusion
      · exact hphase
  · have hquiet := View.Quiet.of_settle h evidence.at_
    have hreport : evidence.observeOnly = false := Bool.eq_false_iff.mpr honly
    cases hcounts : evidence.masked eng ((s.view.settle evidence.at_).current evidence.key)
    · exact .of_react ho he hreport hquiet hcounts hreport rfl rfl
    · rw [View.react, if_pos hcounts]
      exact .of_masked hreport hquiet hcounts

/-- **Evidence that was taken stays taken** when later evidence of the batch is observed. -/
lemma View.Took.observeLocked (orders : Schedule) {o : Observation} (ho : o ∈ os)
    {evidence : Evidence} (ht : s.view.Took eng os evidence)
    (hle : evidence.at_ ≤ o.message.receivedAt) :
    (observeLocked eng orders o.message o.notifyEligible o.sourceRef s).view.Took eng os
      evidence := by
  rw [view_observeLocked h, View.take]
  cases he : eng.evidence o with
  | none => exact ht
  | some last =>
      obtain ⟨hat, hzero, -⟩ := evidence_eq_some he
      rw [← hat] at hle
      simp only [View.observe]
      split_ifs with hstale honly
      · exact ht
      · exact ht.sight hzero hle hstale
      · refine (ht.settle h hle).react (h.settle _) ho he (Bool.eq_false_iff.mpr honly) hle
          (.of_settle h _) ?_
        rw [Evidence.Stale, lastEvidenceAt_settle]
        exact hstale

end

lemma View.Took.observeAll {eng : Engine} {os : List Observation} {evidence : Evidence}
    {rest : List Observation} (orders : ℕ → Schedule) {s : Snapshot} (h : Consistent eng s.view)
    (hall : ∀ o ∈ rest, o ∈ os ∧ evidence.at_ ≤ o.message.receivedAt)
    (ht : s.view.Took eng os evidence) :
    (Logthing.observeAll eng orders rest s).view.Took eng os evidence := by
  induction rest generalizing orders s with
  | nil => exact ht
  | cons o rest ih =>
      obtain ⟨ho, hle⟩ := hall o List.mem_cons_self
      rw [Logthing.observeAll]
      exact ih _ (h.observeLocked (orders 0) o)
        (fun o' ho' => hall o' (List.mem_cons_of_mem _ ho')) (ht.observeLocked h (orders 0) ho hle)

/-- **A batch in the order of time is taken**, every record of it. -/
lemma took_observeAll {eng : Engine} {os rest : List Observation} (orders : ℕ → Schedule)
    {s : Snapshot} (h : Consistent eng s.view)
    (hsorted : rest.Pairwise fun o o' => o.message.receivedAt ≤ o'.message.receivedAt)
    (hall : ∀ o ∈ rest, o ∈ os) {o : Observation} (ho : o ∈ rest) {evidence : Evidence}
    (he : eng.evidence o = some evidence) :
    (observeAll eng orders rest s).view.Took eng os evidence := by
  induction rest generalizing orders s with
  | nil => exact absurd ho List.not_mem_nil
  | cons first rest ih =>
      obtain ⟨hfirst, hrest⟩ := List.pairwise_cons.mp hsorted
      have hnext := h.observeLocked (orders 0) first
      rw [observeAll]
      rcases List.mem_cons.mp ho with rfl | ho
      · have ht := took_observeLocked h (orders 0) (hall o List.mem_cons_self) he
        refine View.Took.observeAll _ hnext (fun o' ho' => ?_) ht
        rw [(evidence_eq_some he).1]
        exact ⟨hall o' (List.mem_cons_of_mem _ ho'), hfirst o' ho'⟩
      · exact ih _ hnext hrest (fun o' ho' => hall o' (List.mem_cons_of_mem _ ho')) ho

/-! ## Taking it again -/

/-- **What a replay needs**, in the state that the batch left: reporting evidence that came after
the last evidence of its tracker does not count still, and of the evidence that came with it, if
there is more of it, nothing but online evidence of a healthy tracker, or one piece repeated. -/
structure Replayable (eng : Engine) (os : List Observation) (v : View) : Prop where
  later : ∀ o ∈ os, ∀ evidence, eng.evidence o = some evidence → evidence.observeOnly = false →
    ¬ evidence.Stale (v.current evidence.key) →
    (v.current evidence.key).lastEvidenceAt ≠ evidence.at_ →
    evidence.masked eng (v.current evidence.key) = true
  together : ∀ o ∈ os, ∀ o' ∈ os, ∀ evidence evidence', eng.evidence o = some evidence →
    eng.evidence o' = some evidence' → evidence'.key = evidence.key →
    evidence.observeOnly = false → evidence'.observeOnly = false →
    (v.current evidence.key).lastEvidenceAt = evidence.at_ → evidence'.at_ = evidence.at_ →
    evidence.masked eng (v.current evidence.key) = false →
    evidence'.masked eng (v.current evidence.key) = false →
    (evidence.online = true ∧ (v.current evidence.key).phase = .healthy) ∨
      (evidence' = evidence ∧ o'.notifyEligible = o.notifyEligible)

section

variable {eng : Engine} {v : View} {evidence : Evidence}

/-- A sighting seen again changes nothing. -/
lemma sight_eq_self (hat : (v.current evidence.key).lastEvidenceAt = evidence.at_)
    (hphase : (v.current evidence.key).phase ≠ .unset) : v.sight evidence = v := by
  have hcurrent : (v.current evidence.key).sighted evidence = v.current evidence.key := by
    rw [Tracker.sighted, if_neg hphase, ← hat]
  rw [View.sight, hcurrent]
  exact View.set_self (View.current_of_set hphase) rfl

/-- Online evidence seen again changes nothing of a healthy tracker. -/
lemma react_of_healthy (hat : (v.current evidence.key).lastEvidenceAt = evidence.at_)
    (honline : evidence.online = true) (hphase : (v.current evidence.key).phase = .healthy)
    (notifyEligible : Bool) : v.react eng evidence notifyEligible = v := by
  have hsame : { v.current evidence.key with lastEvidenceAt := evidence.at_ }
      = v.current evidence.key := by
    rw [← hat]
  have hreaction : reaction eng evidence notifyEligible (v.current evidence.key)
      = ⟨v.current evidence.key, (v.current evidence.key).incidentID, id⟩ := by
    simp only [reaction, honline, hphase]
  rw [View.react]
  split_ifs
  · rfl
  simp only [hsame, hreaction]
  refine View.set_self (View.current_of_set ?_) rfl
  rw [hphase]
  exact Phase.noConfusion

/-- Reporting evidence that was taken changes nothing. -/
lemma react_eq_self (h : Consistent eng v) {os : List Observation} (hreplay : Replayable eng os v)
    {o : Observation} (ho : o ∈ os) (he : eng.evidence o = some evidence)
    (honly : evidence.observeOnly = false) (hstale : ¬ evidence.Stale (v.current evidence.key))
    (ht : v.Took eng os evidence) : v.react eng evidence o.notifyEligible = v := by
  cases hcounts : evidence.masked eng (v.current evidence.key)
  swap
  · rw [View.react, if_pos hcounts]
  have hat : (v.current evidence.key).lastEvidenceAt = evidence.at_ := by
    by_contra hne
    exact absurd (hreplay.later o ho evidence he honly hstale hne) (by simp [hcounts])
  cases ht with
  | stale h => exact absurd h hstale
  | sighted h => exact absurd (honly.symm.trans h) Bool.false_ne_true
  | ignored _ _ hignored =>
      refine react_of_healthy hat hignored.online (hignored.down.resolve_left fun hdown => ?_) _
      simp [Evidence.masked, hignored.online, hignored.iface, hignored.reachability, hdown]
        at hcounts
  | overtaken _ _ o' ho' last hlast hlastOnly hkey _ hlastCounts hreflects =>
      have hlastAt : last.at_ = evidence.at_ := by
        rw [← hat, ← hkey]
        exact hreflects.at_eq.symm
      rcases hreplay.together o ho o' ho' evidence last he hlast hkey honly hlastOnly hat hlastAt
        hcounts hlastCounts with ⟨honline, hphase⟩ | ⟨rfl, hsame⟩
      · exact react_of_healthy hat honline hphase _
      · rw [← hsame]
        exact react_of_reflects h hreflects

end

section

variable {eng : Engine} {os : List Observation}

/-- **A record that was taken changes nothing**, when it is observed again. -/
lemma observeLocked_again {s : Snapshot} (h : Consistent eng s.view)
    (hreplay : Replayable eng os s.view) (orders : Schedule) {o : Observation} (ho : o ∈ os)
    (ht : ∀ evidence, eng.evidence o = some evidence → s.view.Took eng os evidence) :
    (observeLocked eng orders o.message o.notifyEligible o.sourceRef s).view = s.view ∧
      (observeLocked eng orders o.message o.notifyEligible o.sourceRef s).jobs = s.jobs := by
  cases he : eng.evidence o with
  | none =>
      rw [observeLocked_of_none he]
      exact ⟨rfl, rfl⟩
  | some evidence =>
      rw [observeLocked_of_some he]
      split_ifs with hstale honly
      · exact ⟨rfl, rfl⟩
      · refine ⟨?_, rfl⟩
        rw [view_sight]
        cases ht evidence he with
        | stale h => exact absurd h hstale
        | sighted _ hat hphase => exact sight_eq_self hat hphase
        | ignored h => exact absurd (h.symm.trans honly) Bool.false_ne_true
        | overtaken h => exact absurd (h.symm.trans honly) Bool.false_ne_true
      · have hreport : evidence.observeOnly = false := Bool.eq_false_iff.mpr honly
        have hquiet : s.view.Quiet eng evidence.at_ := by
          cases ht evidence he with
          | stale h => exact absurd h hstale
          | sighted h => exact absurd h honly
          | ignored _ hquiet => exact hquiet
          | overtaken _ hquiet => exact hquiet
        rw [advance_of_idle h orders (hquiet.idle h)]
        constructor
        · rw [view_observeEvidence h]
          exact react_eq_self h hreplay ho he hreport hstale (ht evidence he)
        · simp only [observeEvidence]
          split_ifs <;> rfl

/-- **A batch that was taken changes nothing**, when it is applied again. -/
lemma observeAll_again {rest : List Observation} (orders : ℕ → Schedule) {s : Snapshot}
    (h : Consistent eng s.view) (hreplay : Replayable eng os s.view) (hall : ∀ o ∈ rest, o ∈ os)
    (ht : ∀ o ∈ rest, ∀ evidence, eng.evidence o = some evidence → s.view.Took eng os evidence) :
    (observeAll eng orders rest s).view = s.view ∧
      (observeAll eng orders rest s).jobs = s.jobs := by
  induction rest generalizing orders s with
  | nil => exact ⟨rfl, rfl⟩
  | cons o rest ih =>
      obtain ⟨hview, hjobs⟩ := observeLocked_again h hreplay (orders 0)
        (hall o List.mem_cons_self) (ht o List.mem_cons_self)
      rw [observeAll]
      obtain ⟨hview', hjobs'⟩ := ih (fun n => orders (n + 1)) (by rwa [hview]) (by rwa [hview])
        (fun o' ho' => hall o' (List.mem_cons_of_mem _ ho'))
        fun o' ho' evidence he => by
          rw [hview]
          exact ht o' (List.mem_cons_of_mem _ ho') evidence he
      exact ⟨hview'.trans hview, hjobs'.trans hjobs⟩

end

/-- **Replayed records are harmless**, where the batch is replayable.  Whatever calls led to the
state, applying a batch in the order of time twice leaves what applying it once does. -/
theorem replay_harmless (eng : Engine) (hids : eng.ids.Injective) (ops : List Operation)
    (os : List Observation)
    (hsorted : os.Pairwise fun o o' => o.message.receivedAt ≤ o'.message.receivedAt)
    (cursors : Dict String Cursor) (checkpointAt checkpointAt' : Time)
    (orders orders' : ℕ → Schedule) (outcome outcome' : SaveOutcome) :
    let once := ((Service.run eng {} ops).apply eng orders os cursors checkpointAt outcome).1
    let twice := (once.apply eng orders' os cursors checkpointAt' outcome').1
    Replayable eng os once.state.view →
      twice.state.trackers = once.state.trackers ∧
        twice.state.incidents = once.state.incidents ∧ twice.state.jobs = once.state.jobs := by
  intro once twice hreplay
  have hempty : Consistent eng (({} : Service).state).view := .empty hids
  have h : Consistent eng (Service.run eng {} ops).state.view := hempty.run ops
  have honce : once.state = { observeAll eng orders os (Service.run eng {} ops).state with
      cursors, bootstrapped := true, lastCheckpointAt := checkpointAt } := Service.apply_state ..
  have htwice : twice.state = { observeAll eng orders' os once.state with
      cursors, bootstrapped := true, lastCheckpointAt := checkpointAt' } := Service.apply_state ..
  have hview : once.state.view
      = (observeAll eng orders os (Service.run eng {} ops).state).view := by
    rw [honce]
    rfl
  have hconsistent : Consistent eng once.state.view := by
    rw [hview]
    exact (view_observeAll orders os h).2
  obtain ⟨hsame, hjobs⟩ := observeAll_again orders' hconsistent hreplay (fun _ ho => ho)
    fun o ho evidence he => by
      rw [hview]
      exact took_observeAll orders h hsorted (fun _ ho => ho) ho he
  obtain ⟨htrackers, hincidents⟩ := eq_of_view_eq hsame
  rw [htwice]
  exact ⟨htrackers, hincidents, hjobs⟩

/-- `wan` of `ap` goes down. -/
def apDownFirst : List Operation :=
  [.apply (fun _ => forwards)
    [sampleRecord "zero" "ap" "netifd" "Interface 'wan' is now down" 500000000] ∅ 500000000 none]

/-- `wan` of `gw` goes down, its uplink is seen to be down, and it is passed over when it comes up;
`wan` of `ap` is twice reported up in one second. -/
def mixedBatch : List Observation :=
  [wanDown,
    sampleRecord "two" "gw" "gl-repeater" "(repeater.lua:4) interface wan status offline" 2000000000,
    sampleRecord "three" "gw" "netifd" "Interface 'wan' is now up" 3000000000,
    sampleRecord "four" "ap" "netifd" "Interface 'wan' is now up" 4000000000,
    sampleRecord "five" "ap" "netifd" "Interface 'wan' is now up" 4000000000]

/-- The mixed batch, applied once. -/
def mixedOnce : Service :=
  ((Service.run sampleEngine {} apDownFirst).apply sampleEngine (fun _ => forwards) mixedBatch ∅
    4000000000 none).1

lemma replayable_mixedBatch : Replayable sampleEngine mixedBatch mixedOnce.state.view := by
  have hchecks : ((mixedBatch.all fun o => (sampleEngine.evidence o).all fun e =>
        let current := mixedOnce.state.view.current e.key
        e.Stale current || current.lastEvidenceAt = e.at_ || e.masked sampleEngine current) &&
      mixedBatch.all fun o => mixedBatch.all fun o' =>
        (sampleEngine.evidence o).all fun e => (sampleEngine.evidence o').all fun e' =>
          let current := mixedOnce.state.view.current e.key
          e'.key ≠ e.key || current.lastEvidenceAt ≠ e.at_ || e'.at_ ≠ e.at_ ||
            (e.online && current.phase = .healthy) ||
              (e' = e && o'.notifyEligible = o.notifyEligible)) = true := by
    decide +kernel
  obtain ⟨hlater, htogether⟩ := Bool.and_eq_true_iff.mp hchecks
  constructor
  · intro o ho e he _ hstale hat
    have h := List.all_eq_true.mp hlater o ho
    rw [he, Option.all_some] at h
    simpa [hstale, hat] using h
  · intro o ho o' ho' e e' he he' hkey _ _ hat hat' _ _
    have h := List.all_eq_true.mp (List.all_eq_true.mp htogether o ho) o' ho'
    rw [he, he', Option.all_some, Option.all_some] at h
    simpa [hkey, hat, hat'] using h

/-- The mixed batch, applied twice, with loops in another order and without being saved. -/
theorem replay_harmless_wanDown :
    let twice := (mixedOnce.apply sampleEngine (fun _ => backwards) mixedBatch ∅ 5000000000
      (some "disk full")).1
    twice.state.trackers = mixedOnce.state.trackers ∧
      twice.state.incidents = mixedOnce.state.incidents ∧
        twice.state.jobs = mixedOnce.state.jobs :=
  replay_harmless sampleEngine sampleIDs_injective apDownFirst mixedBatch (by decide) ∅ 4000000000
    5000000000 (fun _ => forwards) (fun _ => backwards) none (some "disk full")
    replayable_mixedBatch

/-- `wan` of `gw` is reported down once more in the same second. -/
def wanDownAgain : Observation where
  message :=
    { id := "three", receivedAt := 1000000000, hostname := "gw", tag := "netifd"
      message := "Interface 'wan' is now down" }
  notifyEligible := true
  sourceRef := "events/0001/01/events.ndjson:2"

/-- **A replay of two records of one second notes both again.** -/
theorem sameTime_not_replayable :
    let once := (({} : Service).apply sampleEngine (fun _ => sortedSchedule)
      [wanDown, wanDownAgain] ∅ 1000000000 none).1
    let twice := (once.apply sampleEngine (fun _ => sortedSchedule) [wanDown, wanDownAgain] ∅
      2000000000 none).1
    (once.state.incidents.lookup "8d4663d6450447b8").map Incident.evidenceIDs
        = some ["one", "three"] ∧
      (twice.state.incidents.lookup "8d4663d6450447b8").map Incident.evidenceIDs
        = some ["one", "three", "one", "three"] ∧
      twice.state.incidents ≠ once.state.incidents := by
  intro once twice
  have hempty : Consistent sampleEngine (({} : Service).state).view := .empty sampleIDs_injective
  have hopened := hempty.call
    (.apply (fun _ => sortedSchedule) [wanDown, wanDownAgain] ∅ 1000000000 none)
  have hview := hempty.view_call.2.1 (fun _ => sortedSchedule) [wanDown, wanDownAgain] ∅ 1000000000
    none
  have hagain := hopened.view_call.2.1 (fun _ => sortedSchedule) [wanDown, wanDownAgain] ∅
    2000000000 none
  rw [hview] at hagain
  have honce : (once.state.incidents.lookup "8d4663d6450447b8").map Incident.evidenceIDs
      = some ["one", "three"] := by
    have hvalue : (([wanDown, wanDownAgain].foldl (View.take sampleEngine)
        (({} : Service).state).view).incidents "8d4663d6450447b8").map Incident.evidenceIDs
          = some ["one", "three"] := by
      decide +kernel
    rw [← hview] at hvalue
    exact hvalue
  have htwice : (twice.state.incidents.lookup "8d4663d6450447b8").map Incident.evidenceIDs
      = some ["one", "three", "one", "three"] := by
    have hvalue : (([wanDown, wanDownAgain].foldl (View.take sampleEngine)
        ([wanDown, wanDownAgain].foldl (View.take sampleEngine)
          (({} : Service).state).view)).incidents "8d4663d6450447b8").map Incident.evidenceIDs
            = some ["one", "three", "one", "three"] := by
      decide +kernel
    rw [← hagain] at hvalue
    exact hvalue
  refine ⟨honce, htwice, fun hsame => ?_⟩
  rw [hsame, honce] at htwice
  exact absurd htwice (by decide)

end Logthing
