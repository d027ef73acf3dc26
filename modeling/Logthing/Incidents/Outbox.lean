import Logthing.Incidents.Notices

/-!
# The outbox follows the history

`advanceLocked` enqueues the notices that the history of incidents calls for and no others, because
it takes its turns in the order of the history (`Ordered`).

**Main results.**  `records_advanceOne` for one turn and `records_advance` for all of them.  A
snapshot that is `Timely` is at rest with an outbox that records what its history calls for;
`Timely.advance` and `Timely.observeAll` keep it so.
-/

namespace Logthing

/-! ## One turn -/

section

variable {eng : Engine} {s : Snapshot} (h : Consistent eng s.view) {now : Time} {key : String}
  {current : Tracker} {incident : Incident}
  (hfires : Fires eng.interface now s.view key current incident)
  (hordered : Ordered eng.interface s.view)

include h hfires hordered

/-- **What a turn adds to the history calls for**, it adds to what was called for before. -/
lemma expected_fire {n : Notice} (hn : Expected eng.interface s.view.history n) :
    Expected eng.interface (s.view.fire key current incident).history n := by
  have hbehind := hordered hfires.tracker_eq hfires.incident_eq hfires.due.1
  by_cases hphase : current.phase = .pendingFailure
  · obtain ⟨hhistory, hnew⟩ :=
      history_fire_failure h hfires.tracker_eq hfires.incident_eq hphase
    rw [hhistory]
    rw [Tracker.rank, Tracker.priority, if_pos hphase] at hbehind
    by_cases hprimary : incident.interface = eng.interface
    · rw [if_pos hprimary] at hbehind
      exact (expected_activate_primary hnew hprimary rfl hbehind n).mpr (Or.inl hn)
    · rw [if_neg hprimary] at hbehind
      exact (expected_activate_fallback hnew hprimary rfl hbehind n).mpr (Or.inl hn)
  · obtain ⟨hhistory, at_, ha⟩ :=
      history_fire_recovery h hfires.tracker_eq hfires.incident_eq hfires.due.1 hphase
    rw [hhistory]
    rw [Tracker.rank, Tracker.priority, if_neg hphase] at hbehind
    exact (expected_resolve ha rfl hbehind n).mpr (Or.inl hn)

variable {F G : Notice → Prop} (hG : Distinct G)
  (hF : ∀ n, F n → G n)
  (hexpected : ∀ n, Expected eng.interface (s.view.fire key current incident).history n → G n)
  (hrecords : Records s.jobs fun n => F n ∨ Expected eng.interface s.view.history n)

include hF hexpected

/-- What was recorded before a turn is called for after it. -/
lemma expected_before {n : Notice} (hn : F n ∨ Expected eng.interface s.view.history n) : G n := by
  rcases hn with hn | hn
  · exact hF n hn
  · exact hexpected n (expected_fire h hfires hordered hn)

include hG hrecords

/-- A turn that resolves an incident. -/
lemma records_resolve (hphase : ¬ current.phase = .pendingFailure) :
    Records (resolve eng.interface key current incident s).jobs fun n =>
      F n ∨ Expected eng.interface (s.view.fire key current incident).history n := by
  have hbehind := hordered hfires.tracker_eq hfires.incident_eq hfires.due.1
  obtain ⟨hhistory, at_, ha⟩ :=
    history_fire_recovery h hfires.tracker_eq hfires.incident_eq hfires.due.1 hphase
  rw [Tracker.rank, Tracker.priority, if_neg hphase] at hbehind
  have hadds := expected_resolve ha rfl hbehind
  have hbefore := fun n => @expected_before eng s h now key current incident hfires hordered
    F G hF hexpected n
  have hresolved : current.recoverySince + incident.recoveredAfter = current.dueAt incident := by
    rw [Tracker.dueAt, if_neg hphase]
  simp only [resolve, announceResolution, hhistory, hresolved] at hexpected ⊢
  by_cases hnotify : incident.notify = true
  · set n₀ : Notice := ⟨incident.id,
      if incident.interface ≠ eng.interface then .fallbackResolved else .resolved,
      current.dueAt incident⟩ with hn₀
    have henqueue : enqueue s.jobs incident.id
        (if incident.interface ≠ eng.interface then .fallbackResolved else .resolved)
        (current.dueAt incident) = s.jobs.insertNew n₀.jobID n₀.job := by
      rw [← enqueue_eq, hn₀]
      · split_ifs <;> rfl
      · rw [hn₀]
        split_ifs <;> rfl
    rw [if_pos hnotify, henqueue]
    have hnew : G n₀ := hexpected n₀ ((hadds n₀).mpr (Or.inr ⟨hnotify, rfl⟩))
    refine (hrecords.insertNew hG hbefore hnew).congr fun n => ?_
    rw [hadds n, or_assoc]
    simp only [hnotify, true_and, hn₀]
  · rw [if_neg hnotify]
    refine hrecords.congr fun n => ?_
    rw [hadds n]
    simp [hnotify]

/-- A turn that activates an incident of the primary interface. -/
lemma records_activate_primary {orders : Orders} (hphase : current.phase = .pendingFailure)
    (hprimary : incident.interface = eng.interface) :
    Records (activate eng.interface orders key current incident s).jobs fun n =>
      F n ∨ Expected eng.interface (s.view.fire key current incident).history n := by
  have hbefore := fun n => @expected_before eng s h now key current incident hfires hordered
    F G hF hexpected n
  have hbehind := hordered hfires.tracker_eq hfires.incident_eq hfires.due.1
  obtain ⟨hhistory, hnew⟩ := history_fire_failure h hfires.tracker_eq hfires.incident_eq hphase
  rw [Tracker.rank, Tracker.priority, if_pos hphase, if_pos hprimary] at hbehind
  have hadds := expected_activate_primary (a := ⟨incident.hostname, incident.interface,
    current.notify, current.dueAt incident, none⟩) hnew hprimary rfl hbehind
  have hactivated : current.pendingSince + incident.downAfter = current.dueAt incident := by
    rw [Tracker.dueAt, if_pos hphase]
  rw [hhistory] at hexpected ⊢
  simp only [activate, activationJobs, announceActivation, hactivated,
    if_neg (not_not.mpr hprimary), if_pos hprimary]
  set n₀ : Notice := ⟨incident.id, .opened, current.dueAt incident⟩
  have hopened : Records
      (if current.notify then enqueue s.jobs incident.id .opened (current.dueAt incident)
        else s.jobs)
      fun n => (F n ∨ Expected eng.interface s.view.history n) ∨
        (current.notify = true ∧ n = n₀) := by
    by_cases hnotify : current.notify = true
    · have henqueue : enqueue s.jobs incident.id .opened (current.dueAt incident)
          = s.jobs.insertNew n₀.jobID n₀.job := enqueue_eq s.jobs n₀ rfl
      rw [if_pos hnotify, henqueue]
      have hn₀ : G n₀ := hexpected n₀ ((hadds n₀).mpr (Or.inr (Or.inl ⟨hnotify, rfl⟩)))
      exact (hrecords.insertNew hG hbefore hn₀).congr fun n => by simp [hnotify]
    · rw [if_neg hnotify]
      exact hrecords.congr fun n => by simp [hnotify]
  -- the incident that is activated is no fallback's
  have hid : incident.id = current.incidentID := (h.wellFormed hfires.incident_eq).id_eq
  have hothers : ∀ {i : Incident}, i.interface = eng.interface → ∀ id f,
      (s.incidents.insert incident.id i).lookup id = some f →
      f.escalates eng.interface incident.hostname = true → s.view.incidents id = some f := by
    intro i hi id f hf hescalates
    rw [Dict.lookup_insert_ite] at hf
    split_ifs at hf with hk
    · rw [← Option.some.inj hf] at hescalates
      exact absurd hi (Incident.escalates_iff.mp hescalates).2.1
    · exact hf
  have hescalated : ∀ {i : Incident}, i.interface = eng.interface → ∀ n,
      (∃ id f, (s.incidents.insert incident.id i).lookup id = some f ∧
        f.escalates eng.interface incident.hostname = true ∧
        n = (⟨f.id, .escalated incident.id, current.dueAt incident⟩ : Notice)) ↔
      ∃ fid f, s.view.history fid = some f ∧ f.notify = true ∧ f.interface ≠ eng.interface ∧
        f.hostname = incident.hostname ∧ f.resolvedAt = none ∧
        n = ⟨fid, .escalated incident.id, current.dueAt incident⟩ := by
    intro i hi n
    constructor
    · rintro ⟨id, f, hf, hescalates, rfl⟩
      have hf' := hothers hi id f hf hescalates
      obtain ⟨a, ha, hnotify, hinterface, hhost, hlasting⟩ :=
        h.escalates_iff.mp ⟨f, hf', hescalates⟩
      rw [(h.wellFormed hf').id_eq]
      exact ⟨id, a, ha, hnotify, hinterface, hhost, hlasting, rfl⟩
    · rintro ⟨id, a, ha, hnotify, hinterface, hhost, hlasting, rfl⟩
      obtain ⟨f, hf, hescalates⟩ :=
        h.escalates_iff.mpr ⟨a, ha, hnotify, hinterface, hhost, hlasting⟩
      refine ⟨id, f, ?_, hescalates, by rw [(h.wellFormed hf).id_eq]⟩
      rw [Dict.lookup_insert_ite, if_neg]
      · exact hf
      · rintro rfl
        rw [hnew] at ha
        cases ha
  refine (hopened.escalateFallbacks hG ?_ fun id f hf hescalates => ?_).congr fun n => ?_
  · rintro n (hn | ⟨hnotify, rfl⟩)
    · exact hbefore n hn
    · exact hexpected n₀ ((hadds n₀).mpr (Or.inr (Or.inl ⟨hnotify, rfl⟩)))
  · refine hexpected _ ((hadds _).mpr (Or.inr (Or.inr ?_)))
    exact (hescalated (by exact hprimary) _).mp ⟨id, f, hf, hescalates, rfl⟩
  · refine (or_congr_right (hescalated (by exact hprimary) n)).trans ?_
    rw [hadds n, or_assoc, or_assoc]

/-- A turn that activates an incident of a fallback. -/
lemma records_activate_fallback (horderly : Orderly s.view.history) {orders : Orders}
    (hphase : current.phase = .pendingFailure) (hfallback : incident.interface ≠ eng.interface) :
    Records (activate eng.interface orders key current incident s).jobs fun n =>
      F n ∨ Expected eng.interface (s.view.fire key current incident).history n := by
  have hbefore := fun n => @expected_before eng s h now key current incident hfires hordered
    F G hF hexpected n
  have hbehind := hordered hfires.tracker_eq hfires.incident_eq hfires.due.1
  obtain ⟨hhistory, hnew⟩ := history_fire_failure h hfires.tracker_eq hfires.incident_eq hphase
  rw [Tracker.rank, Tracker.priority, if_pos hphase, if_neg hfallback] at hbehind
  have hadds := expected_activate_fallback (a := ⟨incident.hostname, incident.interface,
    current.notify, current.dueAt incident, none⟩) hnew hfallback rfl hbehind
  have hactivated : current.pendingSince + incident.downAfter = current.dueAt incident := by
    rw [Tracker.dueAt, if_pos hphase]
  simp only [activate, activationJobs, hactivated, if_neg hfallback]
  by_cases hnotify : current.notify = true
  swap
  · rw [if_neg hnotify]
    exact hrecords.congr fun n => by rw [hhistory, hadds n]; simp [hnotify]
  rw [if_pos hnotify]
  -- the incident that is activated is no primary's
  set i : Incident := { incident with
    state := .active, activatedAt := some (current.dueAt incident), notify := current.notify }
  have hfound : ∀ {id x p}, (s.incidents.insert incident.id i).lookup id = some x →
      x.activation = some p → p.interface = eng.interface →
      s.view.history id = some p ∧ x.id = id := by
    intro id x p hx hp hinterface
    rw [Dict.lookup_insert_ite] at hx
    split_ifs at hx with hk
    · obtain ⟨_, -, rfl⟩ := Option.map_eq_some_iff.mp hp
      rw [← Option.some.inj hx] at hinterface
      exact absurd hinterface hfallback
    · exact ⟨by rw [View.history]; exact Option.bind_eq_some_iff.mpr ⟨x, hx, hp⟩,
        (h.wellFormed hx).id_eq⟩
  have hall : ∀ {pid p}, s.view.history pid = some p → p.interface = eng.interface →
      ∃ x, (s.incidents.insert incident.id i).lookup pid = some x ∧ x.activation = some p := by
    intro pid p hpid _
    obtain ⟨x, hx, hp⟩ := Option.bind_eq_some_iff.mp hpid
    have hne : pid ≠ incident.id := by
      rintro rfl
      rw [hnew] at hpid
      cases hpid
    exact ⟨x, by rw [Dict.lookup_insert_ite, if_neg hne]; exact hx, hp⟩
  obtain ⟨n₀, hjobs, hnotice⟩ := @announceActivation_fallback eng.interface orders.primary
    (s.incidents.insert incident.id i) i (current.dueAt incident) s.view.history horderly hfallback
    ⟨incident.hostname, incident.interface, current.notify, current.dueAt incident, none⟩ rfl hfound
    hall s.jobs
  have hn₀ : G n₀ := hexpected n₀ (by
    rw [hhistory, hadds n₀]
    exact Or.inr ⟨hnotify, (hnotice n₀).mpr rfl⟩)
  rw [hjobs]
  refine (hrecords.insertNew hG hbefore hn₀).congr fun n => ?_
  rw [hhistory, hadds n, or_assoc, hnotice n]
  simp only [hnotify, true_and]

/-- **A turn records what it adds** to what the history calls for. -/
lemma records_advanceOne (horderly : Orderly s.view.history) {orders : Orders} :
    Records (advanceOne eng.interface orders key current s).jobs fun n =>
      F n ∨ Expected eng.interface (s.view.fire key current incident).history n := by
  have hi : s.incidents.lookup current.incidentID = some incident := hfires.incident_eq
  rw [advanceOne, hi]
  by_cases hphase : current.phase = .pendingFailure
  · simp only [if_pos hphase]
    by_cases hprimary : incident.interface = eng.interface
    · exact records_activate_primary h hfires hordered hG hF hexpected hrecords hphase hprimary
    · exact records_activate_fallback h hfires hordered hG hF hexpected hrecords horderly hphase
        hprimary
  · simp only [if_neg hphase]
    exact records_resolve h hfires hordered hG hF hexpected hrecords hphase

end

/-! ## `advanceLocked` -/

section

variable {eng : Engine} {s : Snapshot} (h : Consistent eng s.view)
  (hordered : Ordered eng.interface s.view) (horderly : Orderly s.view.history) (now : Time)

include h hordered horderly

/-- **`advanceLocked` continues the history** in order. -/
lemma chronology_settle : Ordered eng.interface (s.view.settle now) ∧
    Orderly (s.view.settle now).history ∧
    ∀ n, Expected eng.interface s.view.history n →
      Expected eng.interface (s.view.settle now).history n := by
  rw [← advance_view h sortedSchedule]
  refine (advance_induction (fun s' => Ordered eng.interface s'.view ∧ Orderly s'.view.history ∧
    ∀ n, Expected eng.interface s.view.history n → Expected eng.interface s'.view.history n)
    (fun hcons hP hfires => ?_) sortedSchedule s h ⟨hordered, horderly, fun _ hn => hn⟩).1
  obtain ⟨hordered', horderly', hkept⟩ := hP
  rw [view_advanceOne hfires.incident_eq]
  exact ⟨hordered'.fire hcons hfires, horderly'.fire hcons hfires hordered',
    fun n hn => expected_fire hcons hfires hordered' (hkept n hn)⟩

end

/-- What holds between the turns of `advanceLocked`, on the way to the view `final`: the jobs record
what the history so far calls for, and whatever `F` they recorded before. -/
structure Underway (eng : Engine) (now : Time) (final : View) (F : Notice → Prop) (s : Snapshot) :
    Prop where
  ordered : Ordered eng.interface s.view
  orderly : Orderly s.view.history
  settles : s.view.settle now = final
  outbox : Records s.jobs fun n => F n ∨ Expected eng.interface s.view.history n

/-- **A turn** keeps the jobs in step with the history. -/
lemma Underway.advanceOne {eng : Engine} {now : Time} {final : View} {F : Notice → Prop}
    {s : Snapshot} (hrun : Underway eng now final F s) (h : Consistent eng s.view)
    (hfinal : Consistent eng final) (hF : ∀ n, F n → Expected eng.interface final.history n)
    {orders : Orders} {key : String} {current : Tracker} {incident : Incident}
    (hfires : Fires eng.interface now s.view key current incident) :
    Underway eng now final F (advanceOne eng.interface orders key current s) := by
  have hview : (Logthing.advanceOne eng.interface orders key current s).view
      = s.view.fire key current incident := view_advanceOne hfires.incident_eq
  have hordered := hrun.ordered.fire h hfires
  have horderly := Orderly.fire h hfires hrun.ordered hrun.orderly
  have hsettles : (s.view.fire key current incident).settle now = final := by
    rw [h.settle_fire hfires.tracker_eq hfires.incident_eq hfires.due, hrun.settles]
  have hexpected : ∀ n, Expected eng.interface (s.view.fire key current incident).history n →
      Expected eng.interface final.history n := by
    rw [← hsettles, ← hview]
    rw [← hview] at hordered horderly
    refine (chronology_settle ?_ hordered horderly now).2.2
    rw [hview]
    exact h.fire hfires.tracker_eq hfires.due.1 hfires.incident_eq
  refine ⟨by rwa [hview], by rwa [hview], by rwa [hview], ?_⟩
  rw [hview]
  exact records_advanceOne h hfires hrun.ordered hfinal.distinct_expected hF hexpected hrun.outbox
    hrun.orderly

/-- **`advanceLocked` records what the history calls for.**  The jobs may record more before, of
what is called for in the end. -/
lemma records_advance {eng : Engine} {s : Snapshot} (h : Consistent eng s.view)
    (hordered : Ordered eng.interface s.view) (horderly : Orderly s.view.history) (now : Time)
    (orders : Schedule) {F : Notice → Prop}
    (hF : ∀ n, F n → Expected eng.interface (s.view.settle now).history n)
    (hrecords : Records s.jobs fun n => F n ∨ Expected eng.interface s.view.history n) :
    Records (advance eng.interface orders now s).1.jobs
      (Expected eng.interface (s.view.settle now).history) := by
  have hsettled : Consistent eng (s.view.settle now) := by
    rw [← advance_view h orders]
    exact h.advance orders
  have hrun := (advance_induction (Underway eng now (s.view.settle now) F)
    (fun hcons hrun hfires => hrun.advanceOne hcons hsettled hF hfires) orders s h
    ⟨hordered, horderly, rfl, hrecords⟩).1
  refine hrun.outbox.congr fun n => ?_
  rw [advance_view h orders]
  exact ⟨fun hn => hn.elim (hF n) id, Or.inr⟩

/-! ## In the order of time -/

/-- **In step with time**: a consistent snapshot at rest, whose outbox records what its history
calls for. -/
structure Timely (eng : Engine) (at_ : Time) (s : Snapshot) : Prop where
  consistent : Consistent eng s.view
  rest : AtRest eng at_ s.view
  orderly : Orderly s.view.history
  outbox : Records s.jobs (Expected eng.interface s.view.history)

namespace Timely

variable {eng : Engine} {s : Snapshot} {at_ : Time}

/-- Advancing records what the history calls for then. -/
lemma records_advance (h : Timely eng at_ s) (orders : Schedule) (now : Time) :
    Records (Logthing.advance eng.interface orders now s).1.jobs
      (Expected eng.interface (s.view.settle now).history) :=
  Logthing.records_advance h.consistent (h.rest.ordered h.consistent) h.orderly now orders
    (F := fun _ => False) (fun _ hn => hn.elim) (h.outbox.congr fun n => by simp)

/-- **Advancing keeps a snapshot in step** with any time that its timers do not outrun. -/
lemma advance (h : Timely eng at_ s) (orders : Schedule) {now later : Time} (hle : at_ ≤ later)
    (hnow : later ≤ now)
    (hfire : ∀ ⦃key current⦄, s.view.trackers key = some current → current.pending = true →
      current.deadline eng ≤ now → current.deadline eng ≤ later) :
    Timely eng later (Logthing.advance eng.interface orders now s).1 := by
  have hordered := h.rest.ordered h.consistent
  have houtbox := h.records_advance orders now
  refine ⟨h.consistent.advance orders, ?_, ?_, ?_⟩
  · rw [advance_view h.consistent orders]
    exact h.rest.settle h.consistent hle hnow hfire
  · rw [advance_view h.consistent orders]
    exact (chronology_settle h.consistent hordered h.orderly now).2.1
  · rw [advance_view h.consistent orders]
    exact houtbox

/-- A sighting keeps a snapshot in step, and so does evidence at the time of its rest. -/
lemma of_history {s' : Snapshot} (h : Timely eng at_ s) {later : Time}
    (hcons : Consistent eng s'.view) (hrest : AtRest eng later s'.view) (hjobs : s'.jobs = s.jobs)
    (hhistory : s'.view.history = s.view.history) : Timely eng later s' := by
  refine ⟨hcons, hrest, ?_, ?_⟩
  · rw [hhistory]
    exact h.orderly
  · rw [hhistory, hjobs]
    exact h.outbox

/-- **Observing keeps a snapshot in step** with any time until the evidence. -/
lemma observeLocked (h : Timely eng at_ s) (orders : Schedule) {o : Observation}
    {evidence : Evidence} (hevidence : eng.evidence o = some evidence)
    (hle : at_ ≤ evidence.at_) :
    ∃ later, at_ ≤ later ∧ later ≤ evidence.at_ ∧ Timely eng later
      (Logthing.observeLocked eng orders o.message o.notifyEligible o.sourceRef s) := by
  have hcons := h.consistent.observeLocked orders o
  rw [observeLocked_of_some hevidence] at hcons ⊢
  split_ifs at hcons ⊢
  · exact ⟨at_, le_rfl, hle, h⟩
  · refine ⟨at_, le_rfl, hle, h.of_history hcons ?_ rfl ?_⟩
    · rw [view_sight]
      exact h.rest.sight evidence
    · rw [view_sight, history_sight]
  · have hadvance := h.advance orders hle le_rfl fun _ _ _ _ hdue => hdue
    refine ⟨evidence.at_, hle, le_rfl, hadvance.of_history hcons ?_ ?_ ?_⟩
    · rw [view_observeEvidence hadvance.consistent]
      exact AtRest.react hadvance.consistent hadvance.rest o.notifyEligible
    · simp only [observeEvidence]
      split_ifs <;> rfl
    · rw [view_observeEvidence hadvance.consistent,
        history_react hadvance.consistent hadvance.rest]

end Timely

/-- The times of the evidence among observations. -/
def Engine.evidenceTimes (eng : Engine) (os : List Observation) : List Time :=
  os.filterMap fun o => (eng.evidence o).map Evidence.at_

lemma evidenceTimes_cons (eng : Engine) (o : Observation) (os : List Observation) :
    eng.evidenceTimes (o :: os)
      = ((eng.evidence o).map Evidence.at_).toList ++ eng.evidenceTimes os := by
  rw [Engine.evidenceTimes, List.filterMap_cons]
  cases eng.evidence o <;> rfl

/-- **Observing in the order of time keeps a snapshot in step** with a time until whatever comes
next. -/
lemma Timely.observeAll {eng : Engine} (orders : ℕ → Schedule) (os : List Observation)
    {rest : List Time} {s : Snapshot} {at_ : Time} (h : Timely eng at_ s)
    (htimes : (eng.evidenceTimes os ++ rest).Pairwise (· ≤ ·))
    (hle : ∀ t ∈ eng.evidenceTimes os ++ rest, at_ ≤ t) :
    ∃ later, at_ ≤ later ∧ (∀ t ∈ rest, later ≤ t) ∧
      Timely eng later (Logthing.observeAll eng orders os s) := by
  induction os generalizing orders s at_ with
  | nil => exact ⟨at_, le_rfl, hle, h⟩
  | cons o os ih =>
      rw [evidenceTimes_cons] at htimes hle
      rw [Logthing.observeAll]
      cases hevidence : eng.evidence o with
      | none =>
          rw [hevidence] at htimes hle
          rw [observeLocked_of_none hevidence]
          exact ih _ h htimes hle
      | some evidence =>
          rw [hevidence] at htimes hle
          simp only [Option.map_some, Option.toList_some, List.cons_append, List.nil_append,
            List.pairwise_cons, List.mem_cons, forall_eq_or_imp] at htimes hle
          obtain ⟨middle, hmiddle, hbound, htimely⟩ :=
            h.observeLocked (orders 0) hevidence hle.1
          obtain ⟨later, hlater, hrest, hafter⟩ := ih (fun n => orders (n + 1)) htimely htimes.2
            fun t ht => hbound.trans (htimes.1 t ht)
          exact ⟨later, hmiddle.trans hlater, hrest, hafter⟩

/-- Some time is before all of a list. -/
lemma exists_before (l : List Time) : ∃ at_, ∀ t ∈ l, at_ ≤ t := by
  induction l with
  | nil => exact ⟨0, by simp⟩
  | cons t l ih =>
      obtain ⟨at_, hat⟩ := ih
      refine ⟨min t at_, fun t' ht' => ?_⟩
      rcases List.mem_cons.mp ht' with rfl | ht'
      · exact min_le_left _ _
      · exact (min_le_right _ _).trans (hat t' ht')

/-- A snapshot without trackers, incidents and jobs is in step with any time. -/
lemma Timely.of_empty {eng : Engine} (hids : eng.ids.Injective) (at_ : Time) {s : Snapshot}
    (hview : s.view = ⟨fun _ => none, fun _ => none⟩) (hjobs : s.jobs = ∅) :
    Timely eng at_ s where
  consistent := by
    rw [hview]
    exact .empty hids
  rest := by
    rw [hview]
    exact
      { timers := fun _ _ hc => nomatch hc
        past := fun _ _ ha => nomatch ha }
  orderly := by
    rw [hview]
    exact
      { apart := fun _ _ _ _ _ ha => nomatch ha
        lasting := fun _ _ _ ha => nomatch ha }
  outbox key fact := by
    rw [hview, hjobs]
    constructor
    · rintro ⟨job, hjob, -⟩
      cases hjob
    · rintro ⟨n, hn, -⟩
      obtain ⟨a, ha, -⟩ := hn.incident
      cases ha

end Logthing
