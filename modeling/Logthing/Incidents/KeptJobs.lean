import Logthing.Incidents.Notices
import Logthing.Incidents.Rebuilding

/-!
# Jobs are added, never replaced

Every function of the engine that enqueues leaves the jobs there are as they are, because a job is
only stored under an ID that is free.  `Keeps` says so of two outboxes, and `Adds P` also what the
new jobs are: each is stored under its own ID and about an incident `P` holds of.

**Main results.**  `adds_advance` and `adds_deriveAll`: neither the passage of time nor the last
loop of `Rebuild` changes a job, and both add jobs of incidents that notify only.  `keeps_advance`,
`keeps_observeAll` and `keeps_deriveAll` are what this says of the jobs there are.
-/

namespace Logthing

/-- Every job is still there, as it was. -/
def Keeps (jobs jobs' : Dict String NotificationJob) : Prop :=
  ∀ ⦃id job⦄, jobs.lookup id = some job → jobs'.lookup id = some job

lemma Keeps.refl (jobs : Dict String NotificationJob) : Keeps jobs jobs := fun _ _ h => h

lemma Keeps.trans {jobs jobs' jobs'' : Dict String NotificationJob} (h : Keeps jobs jobs')
    (h' : Keeps jobs' jobs'') : Keeps jobs jobs'' := fun _ _ hjob => h' (h hjob)

/-- Every job is still there, and the others are new and about incidents `P` holds of. -/
structure Adds (P : String → Prop) (jobs jobs' : Dict String NotificationJob) : Prop where
  keeps : Keeps jobs jobs'
  added : ∀ ⦃id job⦄, jobs'.lookup id = some job →
    jobs.lookup id = some job ∨ job.id = id ∧ P job.incidentID

section

variable {P : String → Prop}

namespace Adds

lemma refl (jobs : Dict String NotificationJob) : Adds P jobs jobs :=
  ⟨.refl jobs, fun _ _ => Or.inl⟩

lemma trans {jobs jobs' jobs'' : Dict String NotificationJob} (h : Adds P jobs jobs')
    (h' : Adds P jobs' jobs'') : Adds P jobs jobs'' where
  keeps := h.keeps.trans h'.keeps
  added _ _ hjob := (h'.added hjob).elim (fun hbefore => h.added hbefore) Or.inr

/-- A job is stored under its ID, if that is free. -/
lemma insertNew (jobs : Dict String NotificationJob) {id : String} {job : NotificationJob}
    (hid : job.id = id) (hP : P job.incidentID) : Adds P jobs (jobs.insertNew id job) where
  keeps _ _ h := Dict.lookup_insertNew_of_some h
  added id' job' hjob' := by
    rw [Dict.lookup_insertNew] at hjob'
    split_ifs at hjob' with hnew
    · rw [← Option.some.inj hjob']
      exact Or.inr ⟨hid.trans hnew.1.symm, hP⟩
    · exact Or.inl hjob'

/-- A loop adds jobs if every turn does. -/
lemma foldl {α : Type} {f : Dict String NotificationJob → α → Dict String NotificationJob}
    {l : List α} (hf : ∀ jobs, ∀ x ∈ l, Adds P jobs (f jobs x))
    (jobs : Dict String NotificationJob) : Adds P jobs (l.foldl f jobs) := by
  induction l generalizing jobs with
  | nil => exact .refl jobs
  | cons x l ih =>
      exact (hf jobs x List.mem_cons_self).trans
        (ih (fun jobs y hy => hf jobs y (List.mem_cons_of_mem _ hy)) (f jobs x))

end Adds

/-! ## Enqueueing -/

lemma adds_enqueue (jobs : Dict String NotificationJob) {incidentID : String}
    (kind : NotificationKind) (at_ : Time) (hP : P incidentID) :
    Adds P jobs (enqueue jobs incidentID kind at_) :=
  .insertNew jobs rfl hP

lemma adds_enqueueFallbackEscalation (jobs : Dict String NotificationJob) {id : String}
    (pid : String) (at_ : Time) (hP : P id) :
    Adds P jobs (enqueueFallbackEscalation jobs id pid at_) :=
  .insertNew jobs rfl hP

lemma adds_escalateFallbacks {interface hostname : String} (order : Traversal String)
    {incidents : Dict String Incident} (jobs : Dict String NotificationJob) (pid : String)
    (at_ : Time)
    (hP : ∀ ⦃id i⦄, incidents.lookup id = some i → i.escalates interface hostname = true → P i.id) :
    Adds P jobs (escalateFallbacks interface order incidents jobs hostname pid at_) := by
  refine .foldl (fun jobs kv hkv => ?_) _
  split_ifs with hescalates
  · exact adds_enqueueFallbackEscalation _ _ _ (hP ((order.mem_visit _ _ _).mp hkv) hescalates)
  · exact .refl jobs

lemma adds_announceActivation (interface : String) (order : Traversal String)
    (incidents : Dict String Incident) (jobs : Dict String NotificationJob) {incident : Incident}
    (at_ : Time) (hP : P incident.id) :
    Adds P jobs (announceActivation interface order incidents jobs incident at_) := by
  rw [announceActivation]
  split_ifs
  · split
    · exact adds_enqueueFallbackEscalation _ _ _ hP
    · exact adds_enqueue _ _ _ hP
  · exact adds_enqueue _ _ _ hP

lemma adds_announceResolution (interface : String) (jobs : Dict String NotificationJob)
    {incident : Incident} (at_ : Time) (hP : P incident.id) :
    Adds P jobs (announceResolution interface jobs incident at_) :=
  adds_enqueue _ _ _ hP

/-- An activation adds jobs of incidents that notify and are not pending. -/
lemma adds_activationJobs (interface : String) (orders : Orders)
    {incidents : Dict String Incident} (jobs : Dict String NotificationJob) {incident : Incident}
    (at_ : Time) (hincident : incident.notify = true → P incident.id)
    (hP : ∀ ⦃id i⦄, incidents.lookup id = some i → i.notify = true → i.state ≠ .pendingFailure →
      P i.id) :
    Adds P jobs (activationJobs interface orders incidents jobs incident at_) := by
  have hannounced : Adds P jobs (if incident.notify then
      announceActivation interface orders.primary incidents jobs incident at_ else jobs) := by
    split_ifs with hnotify
    · exact adds_announceActivation _ _ _ _ _ (hincident hnotify)
    · exact .refl jobs
  rw [activationJobs]
  split
  · refine hannounced.trans (adds_escalateFallbacks _ _ _ _ fun id i hi hescalates => ?_)
    obtain ⟨-, -, hnotify, hstate⟩ := Incident.escalates_iff.mp hescalates
    refine hP hi hnotify fun hpending => ?_
    rw [hpending] at hstate
    exact hstate.elim State.noConfusion State.noConfusion
  · exact hannounced

/-! ## The passage of time -/

/-- A turn of the loop adds jobs of incidents that notify and are not pending. -/
lemma adds_advanceOne {interface : String} {orders : Orders} {key : String} {current : Tracker}
    {s : Snapshot} (hP : ∀ ⦃id i⦄, (advanceOne interface orders key current s).incidents.lookup id
      = some i → i.notify = true → i.state ≠ .pendingFailure → P i.id) :
    Adds P s.jobs (advanceOne interface orders key current s).jobs := by
  rw [advanceOne] at hP ⊢
  cases hi : s.incidents.lookup current.incidentID with
  | none => exact .refl _
  | some incident =>
      rw [hi] at hP
      simp only at hP ⊢
      split_ifs at hP ⊢ with hphase
      · exact adds_activationJobs _ _ _ _
          (fun hnotify => hP (Finmap.lookup_insert _) hnotify State.noConfusion) hP
      · simp only [resolve] at hP ⊢
        split_ifs with hnotify
        · exact adds_announceResolution _ _ _
            (hP (Finmap.lookup_insert _) hnotify State.noConfusion)
        · exact .refl _

/-- **The passage of time adds jobs of incidents that notify** and are not pending, while an
invariant says which these are. -/
theorem adds_advance {interface : String} {now : Time} (Inv : Snapshot → Prop)
    (hstep : ∀ {s : Snapshot} {orders : Orders} {key : String} {current : Tracker},
      s.trackers.lookup key = some current → current.pending = true → Inv s →
      Inv (advanceOne interface orders key current s))
    (hP : ∀ ⦃s : Snapshot⦄, Inv s → ∀ ⦃id i⦄, s.incidents.lookup id = some i →
      i.notify = true → i.state ≠ .pendingFailure → P i.id) (orders : Schedule) {s : Snapshot} (hs : Inv s) :
    Inv (advance interface orders now s).1 ∧
      Adds P s.jobs (advance interface orders now s).1.jobs := by
  refine advance_rule (fun s' => Inv s' ∧ Adds P s.jobs s'.jobs)
    (fun {s' orders key current} hc hpending hs' => ?_) orders s ⟨hs, .refl _⟩
  have hinv : Inv (advanceOne interface orders key current s') := hstep hc hpending hs'.1
  exact ⟨hinv, hs'.2.trans (adds_advanceOne (hP hinv))⟩

/-- What evidence adds, time has added until then. -/
lemma adds_observeLocked {eng : Engine} {orders : Schedule} (o : Observation) {s : Snapshot}
    (hadvance : ∀ evidence, eng.evidence o = some evidence →
      Adds P s.jobs (advance eng.interface orders evidence.at_ s).1.jobs) :
    Adds P s.jobs (observeLocked eng orders o.message o.notifyEligible o.sourceRef s).jobs := by
  cases hevidence : eng.evidence o with
  | none =>
      rw [observeLocked_of_none hevidence]
      exact .refl _
  | some evidence =>
      rw [observeLocked_of_some hevidence]
      split_ifs
      · exact .refl _
      · exact .refl _
      · simp only [observeEvidence]
        split_ifs
        · exact hadvance _ hevidence
        · exact hadvance _ hevidence

/-! ## `Rebuild` -/

/-- The third loop of `Rebuild` keeps a job whose incident is still there. -/
lemma lookup_restoreJobs_of_mem (order : Traversal String) {incidents : Dict String Incident}
    {previous : Dict String NotificationJob} (jobs : Dict String NotificationJob) {id : String}
    {job : NotificationJob} (hjob : previous.lookup id = some job)
    (hmem : job.incidentID ∈ incidents) :
    (restoreJobs order incidents previous jobs).lookup id = some job := by
  rw [lookup_restoreJobs, hjob]
  simp [Option.filter, hmem]

lemma adds_deriveResolution (interface : String) (jobs : Dict String NotificationJob)
    {incident : Incident} (hP : P incident.id) :
    Adds P jobs (deriveResolution interface jobs incident) := by
  rw [deriveResolution]
  split
  · split_ifs
    · exact adds_announceResolution _ _ _ hP
    · exact .refl jobs
  · exact .refl jobs

lemma adds_deriveEscalations (interface : String) (order : Traversal String)
    (incidents : Dict String Incident) (jobs : Dict String NotificationJob) {incident : Incident}
    (at_ : Time) (hP : P incident.id) :
    Adds P jobs (deriveEscalations interface order incidents jobs incident at_) := by
  refine .foldl (fun jobs kv _ => ?_) _
  split
  · exact adds_enqueueFallbackEscalation _ _ _ hP
  · exact .refl jobs

lemma adds_deriveJobs (interface : String) (primary later : Traversal String)
    (incidents : Dict String Incident) (jobs : Dict String NotificationJob) {incident : Incident}
    (hP : incident.notify = true → P incident.id) :
    Adds P jobs (deriveJobs interface primary later incidents jobs incident) := by
  rw [deriveJobs]
  split
  · exact .refl jobs
  · rename_i activated _
    split
    · rename_i hnotify
      have hresolved := (adds_announceActivation interface primary incidents jobs activated
        (hP hnotify)).trans (adds_deriveResolution interface _ (hP hnotify))
      simp only
      split
      · exact hresolved.trans (adds_deriveEscalations _ _ _ _ _ (hP hnotify))
      · exact hresolved
    · exact .refl jobs

/-- **The last loop of `Rebuild` adds jobs of incidents that notify.** -/
theorem adds_deriveAll (interface : String) (orders : RebuildOrders)
    (incidents : Dict String Incident) (n : ℕ) {l : List (String × Incident)}
    (hP : ∀ kv ∈ l, kv.2.notify = true → P kv.2.id) (jobs : Dict String NotificationJob) :
    Adds P jobs (deriveAll interface orders incidents n l jobs) := by
  induction l generalizing n jobs with
  | nil => exact .refl jobs
  | cons kv l ih =>
      exact (adds_deriveJobs _ _ _ _ _ (hP kv List.mem_cons_self)).trans
        (ih _ (fun kv' hkv' => hP kv' (List.mem_cons_of_mem _ hkv')) _)

end

/-! ## The jobs there are -/

/-- Time adds jobs, whatever they are about. -/
lemma adds_advance_any (interface : String) (orders : Schedule) (now : Time) (s : Snapshot) :
    Adds (fun _ => True) s.jobs (advance interface orders now s).1.jobs :=
  (adds_advance (fun _ => True) (fun _ _ _ => trivial) (fun _ _ _ _ _ _ _ => trivial) orders
    trivial).2

/-- Evidence adds jobs, whatever they are about. -/
lemma adds_observeAll_any (eng : Engine) (orders : ℕ → Schedule) (os : List Observation)
    (s : Snapshot) : Adds (fun _ => True) s.jobs (observeAll eng orders os s).jobs := by
  induction os generalizing orders s with
  | nil => exact .refl _
  | cons o os ih =>
      exact (adds_observeLocked o fun _ _ => adds_advance_any _ _ _ s).trans (ih _ _)

/-- **The passage of time changes no job.** -/
theorem keeps_advance (interface : String) (orders : Schedule) (now : Time) (s : Snapshot) :
    Keeps s.jobs (advance interface orders now s).1.jobs :=
  (adds_advance_any interface orders now s).keeps

/-- **Evidence changes no job.** -/
theorem keeps_observeAll (eng : Engine) (orders : ℕ → Schedule) (os : List Observation)
    (s : Snapshot) : Keeps s.jobs (observeAll eng orders os s).jobs :=
  (adds_observeAll_any eng orders os s).keeps

/-- **The last loop of `Rebuild` changes no job.** -/
theorem keeps_deriveAll (interface : String) (orders : RebuildOrders)
    (incidents : Dict String Incident) (n : ℕ) (l : List (String × Incident))
    (jobs : Dict String NotificationJob) :
    Keeps jobs (deriveAll interface orders incidents n l jobs) :=
  (adds_deriveAll (P := fun _ => True) interface orders incidents n (fun _ _ _ => trivial)
    jobs).keeps

end Logthing
