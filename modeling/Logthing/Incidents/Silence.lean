import Logthing.Incidents.Worker

/-!
# History does not notify

What was recorded before the worker started, and what was imported, is history.  `Silent` is the
state of an engine in which no incident of a host notifies; evidence that may not notify keeps it,
and so does everything else the worker does, and no job is added about the host's incidents.

Whether a record may notify is decided when it is read.  Once the engine is bootstrapped, a record
is history to the worker only if its cursors say that it has been read before, so a live record of
old that turns up where no cursor has passed counts as news (`renamed_notifies`).  `Familiar` leaves
that out.

**Main results.**  `history_silent_run`: in every run in which each reconcile of a bootstrapped
engine reads of a host only what is familiar, nothing is ever enqueued about that host.
-/

namespace Logthing

/-! ## Silence -/

/-- The ID is that of an incident of the host. -/
def AboutHost (eng : Engine) (hostname incidentID : String) : Prop :=
  ∃ interface started messageID,
    incidentID = eng.ids.incidentID hostname interface started messageID

/-- No incident of the host notifies. -/
structure Silent (eng : Engine) (hostname : String) (s : Snapshot) : Prop where
  consistent : Consistent eng s.view
  silent : ∀ ⦃id i⦄, s.view.incidents id = some i → i.hostname = hostname → i.notify = false

/-- No job has been added about the host. -/
def Spares (eng : Engine) (hostname : String) (jobs jobs' : Dict String NotificationJob) : Prop :=
  ∀ ⦃id job'⦄, jobs'.lookup id = some job' → AboutHost eng hostname job'.incidentID →
    ∃ job, jobs.lookup id = some job ∧ job'.fact = job.fact

section

variable {eng : Engine} {hostname : String}

lemma Spares.trans {jobs jobs' jobs'' : Dict String NotificationJob}
    (h : Spares eng hostname jobs jobs') (h' : Spares eng hostname jobs' jobs'') :
    Spares eng hostname jobs jobs'' := by
  intro id job'' hjob'' habout
  obtain ⟨job', hjob', hfact'⟩ := h' hjob'' habout
  have hincident : job''.incidentID = job'.incidentID := congrArg JobFact.incidentID hfact'
  rw [hincident] at habout
  obtain ⟨job, hjob, hfact⟩ := h hjob' habout
  exact ⟨job, hjob, hfact'.trans hfact⟩

lemma Spares.of_adds {jobs jobs' : Dict String NotificationJob}
    (h : Adds (fun id => ¬ AboutHost eng hostname id) jobs jobs') :
    Spares eng hostname jobs jobs' := by
  intro id job hjob habout
  rcases h.added hjob with hbefore | ⟨-, hnot⟩
  · exact ⟨job, hbefore, rfl⟩
  · exact absurd habout hnot

/-- Jobs that say the same. -/
lemma Spares.of_facts {jobs jobs' : Dict String NotificationJob}
    (h : ∀ id, (jobs'.lookup id).map NotificationJob.fact
      = (jobs.lookup id).map NotificationJob.fact) : Spares eng hostname jobs jobs' := by
  intro id job' hjob' _
  have hid := h id
  rw [hjob', Option.map_some, eq_comm, Option.map_eq_some_iff] at hid
  obtain ⟨job, hjob, hfact⟩ := hid
  exact ⟨job, hjob, hfact.symm⟩

/-- An incident that notifies is another host's. -/
lemma Silent.not_about {s : Snapshot} (h : Silent eng hostname s) {id : String} {i : Incident}
    (hi : s.incidents.lookup id = some i) (hnotify : i.notify = true) :
    ¬ AboutHost eng hostname i.id := by
  rintro ⟨interface, started, messageID, hid⟩
  have hwf := h.consistent.wellFormed hi
  obtain ⟨messageID', horigin⟩ := hwf.origin
  rw [hwf.id_eq, horigin] at hid
  obtain ⟨hhost, -⟩ := h.consistent.injective hid
  exact absurd (hnotify.symm.trans (h.silent hi hhost)) (by decide)

/-! ## Timers and evidence -/

/-- A turn of `advanceLocked` keeps silence. -/
lemma Silent.advanceOne {s : Snapshot} (h : Silent eng hostname s) {orders : Orders} {key : String}
    {current : Tracker} (hc : s.trackers.lookup key = some current)
    (hpending : current.pending = true) :
    Silent eng hostname (advanceOne eng.interface orders key current s) := by
  obtain ⟨incident, hi, hagrees⟩ := h.consistent.names hc (Tracker.open_of_pending hpending)
  have hview := @view_advanceOne eng.interface orders key current incident s hi
  have hnotify : (incident.fired current).notify = incident.notify := by
    rw [Incident.fired]
    split_ifs
    · exact hagrees.notify.symm
    · rfl
  have hhost : (incident.fired current).hostname = incident.hostname := by
    rw [Incident.fired]
    split_ifs
    · rfl
    · rfl
  refine ⟨?_, fun id i hid hhostname => ?_⟩
  · rw [hview]
    exact h.consistent.fire hc hpending hi
  · rw [hview] at hid
    simp only [View.fire, View.set, Function.update_apply] at hid
    split_ifs at hid
    · obtain rfl := Option.some.inj hid
      rw [hnotify]
      rw [hhost] at hhostname
      exact h.silent hi hhostname
    · exact h.silent hid hhostname

/-- **The passage of time keeps silence**, and adds no job about the host. -/
lemma Silent.advance {s : Snapshot} (h : Silent eng hostname s) (orders : Schedule) (now : Time) :
    Silent eng hostname (advance eng.interface orders now s).1 ∧
      Adds (fun id => ¬ AboutHost eng hostname id) s.jobs
        (advance eng.interface orders now s).1.jobs :=
  adds_advance (Silent eng hostname) (fun hc hpending h => h.advanceOne hc hpending)
    (fun _ h _ _ hi hnotify _ => h.not_about hi hnotify) orders h

/-- What notifies after evidence did before, or it is the evidence's and may notify. -/
lemma notify_of_react {v : View} (h : Consistent eng v) {evidence : Evidence}
    (hiface : evidence.iface ∈ eng.interfaces) {notifyEligible : Bool} {id : String} {i : Incident}
    (hi : (v.react eng evidence notifyEligible).incidents id = some i) (hnotify : i.notify = true) :
    (∃ before, v.incidents id = some before ∧ before.hostname = i.hostname ∧
        before.notify = true) ∨
      (i.key = evidence.key ∧ i.interface ∈ eng.interfaces ∧ notifyEligible = true) := by
  rw [View.react] at hi
  split_ifs at hi
  · exact Or.inl ⟨i, hi, rfl, hnotify⟩
  simp only [View.set, Function.update_apply] at hi
  split_ifs at hi with hid
  swap
  · exact Or.inl ⟨i, hi, rfl, hnotify⟩
  have hopened : (v.current evidence.key).phase.openState ≠ none →
      ∃ i, v.incidents (v.current evidence.key).incidentID = some i ∧
        Agrees evidence.key (v.current evidence.key) i ∧
        WellFormed eng (v.current evidence.key).incidentID i := h.incident_of_open
  cases honline : evidence.online <;> cases hphase : (v.current evidence.key).phase <;>
    simp only [reaction, honline, hphase] at hi hid
  case false.unset | false.healthy =>
      obtain rfl := Option.some.inj hi
      exact Or.inr ⟨rfl, hiface, hnotify⟩
  case true.unset | true.healthy =>
      exact Or.inl ⟨i, by rw [hid]; exact hi, rfl, hnotify⟩
  case true.pendingFailure => cases hi
  all_goals
    obtain ⟨j, hj, hagrees, hwf⟩ := hopened (by rw [hphase]; exact Option.some_ne_none _)
    rw [hj, Option.map_some] at hi
    obtain rfl := Option.some.inj hi
    rw [hid]
  case false.pendingFailure =>
      rcases Bool.or_eq_true_iff.mp hnotify with hbefore | heligible
      · exact Or.inl ⟨j, hj, rfl, hagrees.notify.trans hbefore⟩
      · exact Or.inr ⟨hagrees.key, hwf.interface_mem, heligible⟩
  all_goals exact Or.inl ⟨j, hj, rfl, hnotify⟩

/-- Whether evidence of the host may notify. -/
def Observation.Muted (eng : Engine) (hostname : String) (o : Observation) : Prop :=
  ∀ evidence, eng.evidence o = some evidence → evidence.hostname = hostname →
    o.notifyEligible = false

/-- **Evidence that may not notify keeps silence**, and adds no job about the host. -/
lemma Silent.observeLocked (hnul : '\x00' ∉ eng.interface.toList) {s : Snapshot}
    (h : Silent eng hostname s) (orders : Schedule) {o : Observation}
    (ho : o.Muted eng hostname) :
    Silent eng hostname (observeLocked eng orders o.message o.notifyEligible o.sourceRef s) ∧
      Adds (fun id => ¬ AboutHost eng hostname id) s.jobs
        (observeLocked eng orders o.message o.notifyEligible o.sourceRef s).jobs := by
  refine ⟨⟨h.consistent.observeLocked orders o, ?_⟩,
    adds_observeLocked o fun e _ => (h.advance orders e.at_).2⟩
  cases he : eng.evidence o with
  | none =>
      rw [observeLocked_of_none he]
      exact h.silent
  | some evidence =>
      obtain ⟨-, -, hiface⟩ := evidence_eq_some he
      rw [observeLocked_of_some he]
      split_ifs
      · exact h.silent
      · rw [view_sight]
        intro id i hi
        have hsame : (s.view.sight evidence).incidents = s.view.incidents :=
          Function.update_eq_self _ _
        rw [hsame] at hi
        exact h.silent hi
      · have hadvanced := (h.advance orders evidence.at_).1
        rw [view_observeEvidence hadvanced.consistent]
        intro id i hi hhost
        by_contra hnotify
        rw [Bool.not_eq_false] at hnotify
        rcases notify_of_react hadvanced.consistent hiface hi hnotify with
          ⟨before, hbefore, hsame, hnotified⟩ | ⟨hkey, hinterface, heligible⟩
        · exact absurd (hnotified.symm.trans (hadvanced.silent hbefore (hsame.trans hhost)))
            (by decide)
        · obtain ⟨hhostname, -⟩ := trackerKey_inj hnul hinterface hiface hkey
          exact absurd (heligible.symm.trans (ho evidence he (hhostname.symm.trans hhost)))
            (by decide)

lemma Silent.observeAll (hnul : '\x00' ∉ eng.interface.toList) {os : List Observation}
    (hos : ∀ o ∈ os, o.Muted eng hostname) {s : Snapshot} (h : Silent eng hostname s)
    (orders : ℕ → Schedule) : Silent eng hostname (observeAll eng orders os s) ∧
      Adds (fun id => ¬ AboutHost eng hostname id) s.jobs (observeAll eng orders os s).jobs := by
  induction os generalizing orders s with
  | nil => exact ⟨h, .refl _⟩
  | cons o os ih =>
      obtain ⟨hnext, hadds⟩ := h.observeLocked hnul (orders 0) (hos o List.mem_cons_self)
      obtain ⟨hlast, hadds'⟩ := ih (fun o' ho' => hos o' (List.mem_cons_of_mem _ ho')) hnext
        fun n => orders (n + 1)
      exact ⟨hlast, hadds.trans hadds'⟩

/-- **`Rebuild` keeps silence**, and brings no job about the host that was not there. -/
lemma Silent.restore {previous s : Snapshot} (hprevious : Silent eng hostname previous)
    (h : Silent eng hostname s) (hjobs : Adds (fun id => ¬ AboutHost eng hostname id) ∅ s.jobs)
    (after : RebuildOrders) :
    Silent eng hostname (restore eng.interface after previous s) ∧
      Spares eng hostname previous.jobs (restore eng.interface after previous s).jobs := by
  have hsilent : Silent eng hostname (Logthing.restore eng.interface after previous s) := by
    refine ⟨?_, fun id i hi hhost => ?_⟩
    · rw [view_restore]
      exact h.consistent.renotify _
    · rw [view_restore] at hi
      obtain ⟨observed, hobserved, rfl⟩ := Option.map_eq_some_iff.mp hi
      simp only [restoredNotify, Bool.or_eq_false_iff]
      refine ⟨h.silent hobserved hhost, ?_⟩
      cases hold : previous.incidents.lookup id with
      | none => rfl
      | some old =>
          -- the incident there was under the ID is the same host's
          obtain ⟨messageID, horigin⟩ := (h.consistent.wellFormed hobserved).origin
          obtain ⟨messageID', horigin'⟩ := (hprevious.consistent.wellFormed hold).origin
          obtain ⟨hsame, -⟩ := h.consistent.injective (horigin'.symm.trans horigin)
          exact hprevious.silent hold (hsame.trans hhost)
  refine ⟨hsilent, fun id job hjob habout => ?_⟩
  have hderived := adds_deriveAll (P := fun id => ¬ AboutHost eng hostname id) eng.interface after
    (restoreNotify after.incidents previous.incidents s.incidents) 0
    (fun kv hkv hnotify => hsilent.not_about ((after.outbox.mem_visit _ _ _).mp hkv) hnotify)
    (restoreJobs after.jobs (restoreNotify after.incidents previous.incidents s.incidents)
      previous.jobs s.jobs)
  rcases hderived.added hjob with hrestored | ⟨-, hnot⟩
  swap
  · exact absurd habout hnot
  rw [lookup_restoreJobs] at hrestored
  rcases Option.or_eq_some_iff.mp hrestored with hbefore | ⟨-, hnew⟩
  · exact ⟨job, (Option.filter_eq_some_iff.mp hbefore).1, rfl⟩
  · rcases hjobs.added hnew with hempty | ⟨-, hnot⟩
    · cases hempty
    · exact absurd habout hnot

end

/-! ## What the worker reads -/

/-- The host of a message, as `classify` reads it. -/
def Message.host (message : Message) : String := String.ofList (Text.trimSpace message.hostname.toList)

lemma hostname_of_classify {message : Message} {iface : String} {e : Evidence}
    (h : classify message iface = some e) : e.hostname = message.host := by
  simp only [classify] at h
  split_ifs at h
  · obtain ⟨candidate, -, hsome⟩ := List.exists_of_findSome?_eq_some h
    split_ifs at hsome
    rw [← Option.some.inj hsome]
    rfl
  · rw [← Option.some.inj h]
    rfl
  · obtain ⟨candidate, -, hsome⟩ := List.exists_of_findSome?_eq_some h
    obtain ⟨online, -, rfl⟩ := Option.map_eq_some_iff.mp hsome
    rfl

namespace Worker

/-- Every record of the host in the directory is imported, or from before the worker started. -/
def Historical (w : Worker) (hostname : String) (disk : Disk) : Prop :=
  ∀ message, disk.Stores w.go message → message.host = hostname →
    message.transport = "import" ∨ message.receivedAt ≤ w.startedAt

/-- **What is familiar of a host.**  Among what is new there is no live record; among what is read
anew, a live record of the changed partition is not from after the last checkpoint, and one of any
other partition is not beyond its cursor. -/
def Familiar (hostname : String) (s : Snapshot) : Reading → Prop
  | .news records _ =>
      ∀ r ∈ records, r.message.host = hostname → r.message.transport = "import"
  | .anew changedFile records _ =>
      ∀ r ∈ records, r.message.host = hostname → r.message.transport = "import" ∨
        (r.file = changedFile ∧
          (s.lastCheckpointAt = 0 ∨ r.message.receivedAt ≤ s.lastCheckpointAt)) ∨
        (r.file ≠ changedFile ∧
          ∃ previous, s.cursors.lookup r.file = some previous ∧ r.offset ≤ previous.offset)

section

variable {w : Worker} {hostname : String}

/-- The observations of a reconcile are its records, each with whether it may notify. -/
lemma muted_observations {eligible : StoredRecord → Bool} {records : List StoredRecord}
    (h : ∀ r ∈ records, r.message.host = hostname → eligible r = false) :
    ∀ o ∈ observations eligible records, o.Muted w.eng hostname := by
  intro o ho evidence he hhost
  obtain ⟨r, hr, rfl⟩ := List.mem_map.mp ho
  obtain ⟨e, hclassified, rfl⟩ := Option.map_eq_some_iff.mp he
  refine h r ((List.mergeSort_perm _ _).mem_iff.mp hr) ?_
  exact (hostname_of_classify hclassified).symm.trans hhost

/-- A record from before the worker started may not notify while the engine is not
bootstrapped. -/
lemma eligible_eq_false {s : Snapshot} {r : StoredRecord}
    (hhistory : r.message.transport = "import" ∨ r.message.receivedAt ≤ w.startedAt)
    (hfamiliar : s.bootstrapped = true → r.message.transport = "import") :
    w.eligible s r = false := by
  have himport : r.message.transport = "import" → w.eligible s r = false := by
    intro h
    simp [eligible, h]
  cases hbootstrapped : s.bootstrapped with
  | true => exact himport (hfamiliar hbootstrapped)
  | false =>
      rcases hhistory with h | h
      · exact himport h
      · simp [eligible, hbootstrapped, not_lt.mpr h]

lemma eligibleAnew_eq_false {s : Snapshot} {changedFile : String} {r : StoredRecord}
    (h : w.eligible s r = false ∨
      (r.file = changedFile ∧
        (s.lastCheckpointAt = 0 ∨ r.message.receivedAt ≤ s.lastCheckpointAt)) ∨
      (r.file ≠ changedFile ∧
        ∃ previous, s.cursors.lookup r.file = some previous ∧ r.offset ≤ previous.offset)) :
    w.eligibleAnew s changedFile r = false := by
  rw [eligibleAnew]
  rcases h with h | ⟨hfile, hold⟩ | ⟨hfile, previous, hprevious, hold⟩
  · split_ifs <;> simp [h]
  · rw [if_pos hfile]
    rcases hold with h | h
    · simp [h]
    · simp [not_lt.mpr h]
  · rw [if_neg hfile, hprevious]
    simp [not_lt.mpr hold]

/-- **What a reconcile derives keeps silence**, and adds no job about the host. -/
lemma derive_silent (hnul : '\x00' ∉ w.eng.interface.toList) {env : ReconcileEnv} {disk : Disk}
    (now : Time) {svc : Service} (h : Silent w.eng hostname svc.state)
    (hhistory : w.Historical hostname disk) {reading : Reading}
    (hread : w.read env disk svc.state.cursors = .ok reading)
    (hfamiliar : svc.state.bootstrapped = true → Familiar hostname svc.state reading) :
    Silent w.eng hostname (w.derive env now svc reading).1.state ∧
      Spares w.eng hostname svc.state.jobs (w.derive env now svc reading).1.state.jobs := by
  rcases read_cases hread with ⟨visited, next, hvisit, rfl⟩ | ⟨changedFile, visited, next, -, hvisit, rfl⟩
  · have hmuted : ∀ o ∈ observations (w.eligible svc.state) (visited.filter w.supported),
        o.Muted w.eng hostname := by
      refine muted_observations fun r hr hhost => ?_
      have hstored := stores_of_visitAfter hvisit (List.mem_filter.mp hr).1
      exact eligible_eq_false (hhistory _ hstored hhost) fun hb => hfamiliar hb r hr hhost
    obtain ⟨hsilent, hadds⟩ := h.observeAll hnul hmuted env.orders
    rw [Worker.derive, Service.apply_state]
    exact ⟨⟨hsilent.consistent, hsilent.silent⟩, .of_adds hadds⟩
  · have hmuted : ∀ o ∈ observations (w.eligibleAnew svc.state changedFile)
        (visited.filter w.supported), o.Muted w.eng hostname := by
      refine muted_observations fun r hr hhost => eligibleAnew_eq_false ?_
      have hstored := stores_of_visitAfter hvisit (List.mem_filter.mp hr).1
      cases hbootstrapped : svc.state.bootstrapped with
      | false =>
          exact Or.inl (eligible_eq_false (hhistory _ hstored hhost) fun hb =>
            absurd (hbootstrapped.symm.trans hb) (by decide))
      | true =>
          rcases hfamiliar hbootstrapped r hr hhost with himport | hold
          · exact Or.inl (eligible_eq_false (Or.inl himport) fun _ => himport)
          · exact Or.inr hold
    have hempty : Silent w.eng hostname (emptySnapshot next now) :=
      ⟨.empty h.consistent.injective, fun _ _ hi => by cases hi⟩
    obtain ⟨hsilent, hadds⟩ := hempty.observeAll hnul hmuted env.orders
    rw [Worker.derive, Service.rebuild_state]
    exact h.restore hsilent hadds env.rebuild

/-- **A tick keeps silence**, and adds no job about the host. -/
lemma tick_silent {svc : Service} (h : Silent w.eng hostname svc.state) (env : TickEnv)
    (now : Time) : Silent w.eng hostname (w.tick env now svc).1.state ∧
      Spares w.eng hostname svc.state.jobs (w.tick env now svc).1.state.jobs := by
  obtain ⟨hsilent, hadds⟩ := h.advance env.orders now
  obtain ⟨jobs, hstate, hfacts⟩ := w.tick_state env now svc
  rw [hstate]
  exact ⟨⟨hsilent.consistent, hsilent.silent⟩, (Spares.of_adds hadds).trans (.of_facts hfacts)⟩

/-- **A reconcile keeps silence**, and adds no job about the host. -/
lemma reconcile_silent (hnul : '\x00' ∉ w.eng.interface.toList) {env : ReconcileEnv} {disk : Disk}
    (now : Time) {svc : Service} (h : Silent w.eng hostname svc.state)
    (hhistory : w.Historical hostname disk)
    (hfamiliar : svc.state.bootstrapped = true → ∀ reading,
      w.read env disk svc.state.cursors = .ok reading → Familiar hostname svc.state reading) :
    Silent w.eng hostname (w.reconcile env disk now svc).1.state ∧
      Spares w.eng hostname svc.state.jobs (w.reconcile env disk now svc).1.state.jobs := by
  rcases w.reconcile_cases env disk now svc with hsame | ⟨reading, hread, hderived⟩
  · rw [hsame]
    exact ⟨h, .of_facts fun _ => rfl⟩
  · obtain ⟨hsilent, hspares⟩ := derive_silent hnul now h hhistory hread
      fun hb => hfamiliar hb reading hread
    rcases hderived with hderived | hticked
    · rw [hderived]
      exact ⟨hsilent, hspares⟩
    · rw [hticked]
      obtain ⟨hsilent', hspares'⟩ := tick_silent hsilent env.tick now
      exact ⟨hsilent', hspares.trans hspares'⟩

end

end Worker

/-! ## Runs -/

/-- What a reconcile of a bootstrapped engine reads of the host is familiar. -/
def WorldStep.Familiar (w : Worker) (hostname : String) (world : World) : WorldStep → Prop
  | .reconcile env _ => world.svc.state.bootstrapped = true → ∀ reading,
      w.read env world.disk world.svc.state.cursors = .ok reading →
        Worker.Familiar hostname world.svc.state reading
  | .store _ | .tick _ _ => True

/-- Every reconcile of a run reads of the host what is familiar. -/
def World.familiarRun (w : Worker) (hostname : String) : World → List WorldStep → Prop
  | _, [] => True
  | world, step :: steps =>
      step.Familiar w hostname world ∧ (world.step w step).familiarRun w hostname steps

/-- **History does not notify**, while it is familiar.  In every run of a worker over a directory
that at all times has of a host only what was imported or recorded before the worker started, if
each reconcile of a bootstrapped engine reads of the host only what is familiar, there is no job
about the host that was not there at the start. -/
theorem history_silent_run (w : Worker) (hnul : '\x00' ∉ w.eng.interface.toList) (hostname : String)
    (disk : Disk) (svc : Service) (hstart : Silent w.eng hostname svc.state)
    (steps : List WorldStep)
    (hhistory : ∀ d, d = disk ∨ WorldStep.store d ∈ steps → w.Historical hostname d)
    (hfamiliar : (World.mk disk svc).familiarRun w hostname steps) :
    Silent w.eng hostname ((World.mk disk svc).run w steps).svc.state ∧
      Spares w.eng hostname svc.state.jobs ((World.mk disk svc).run w steps).svc.state.jobs := by
  induction steps generalizing disk svc with
  | nil => exact ⟨hstart, .of_facts fun _ => rfl⟩
  | cons step steps ih =>
      obtain ⟨hstep, hsteps⟩ := hfamiliar
      have hrest : ∀ d, d = disk ∨ WorldStep.store d ∈ steps → w.Historical hostname d :=
        fun d hd => hhistory d (hd.imp_right (List.mem_cons_of_mem _))
      cases step with
      | store disk' =>
          refine ih disk' svc hstart (fun d hd => hhistory d (Or.inr ?_)) hsteps
          rcases hd with rfl | hd
          · exact List.mem_cons_self
          · exact List.mem_cons_of_mem _ hd
      | reconcile env now =>
          obtain ⟨hsilent, hspares⟩ := Worker.reconcile_silent hnul now hstart
            (hhistory disk (Or.inl rfl)) hstep
          obtain ⟨hlast, hspares'⟩ := ih disk _ hsilent hrest hsteps
          exact ⟨hlast, hspares.trans hspares'⟩
      | tick env now =>
          obtain ⟨hsilent, hspares⟩ := Worker.tick_silent hstart env now
          obtain ⟨hlast, hspares'⟩ := ih disk _ hsilent hrest hsteps
          exact ⟨hlast, hspares.trans hspares'⟩

/-- The directory that has the record of the small outage, in a partition of this name. -/
def wanDownDisk (path : String) : Disk := .single path (wanDownLine ++ [newline])

lemma historical_wanDownDisk (path : String) :
    sampleWorker.Historical "gw" (wanDownDisk path) := by
  rintro message ⟨_, -, _, line, -, hdecode⟩ -
  have hgo : sampleWorker.go = .ofLines [(wanDown.message, wanDownLine)] := rfl
  rw [hgo] at hdecode
  obtain ⟨entry, hentry, rfl⟩ := mem_of_ofLines_decode hdecode
  have hold : entry.1.receivedAt ≤ sampleWorker.startedAt := by
    rw [List.mem_singleton.mp hentry]
    decide
  exact Or.inr hold

instance (o : Option Cursor) (offset : ℤ) :
    Decidable (∃ previous, o = some previous ∧ offset ≤ previous.offset) :=
  match o with
  | none => isFalse (by simp)
  | some previous => decidable_of_iff (offset ≤ previous.offset) (by simp)

instance (hostname : String) (s : Snapshot) (reading : Reading) :
    Decidable (Worker.Familiar hostname s reading) :=
  match reading with
  | .news _ _ => inferInstanceAs (Decidable (∀ _ ∈ _, _ → _))
  | .anew _ _ _ => inferInstanceAs (Decidable (∀ _ ∈ _, _ → _ ∨ _ ∧ (_ ∨ _) ∨ _ ∧ _))

/-- Whether a reconcile reads what is familiar can be computed. -/
lemma WorldStep.Familiar.of_check {w : Worker} {hostname : String} {world : World}
    {env : ReconcileEnv} {now : Time}
    (h : ((w.read env world.disk world.svc.state.cursors).toOption.all fun reading =>
      decide (Worker.Familiar hostname world.svc.state reading)) = true) :
    WorldStep.Familiar w hostname world (.reconcile env now) := by
  intro _ reading hread
  rw [hread] at h
  exact of_decide_eq_true h

/-- That `wan` of `gw` came up again is imported. -/
def wanUpImported : Message :=
  { id := "two", receivedAt := 31000000000, hostname := "gw", transport := "import", tag := "netifd"
    message := "Interface 'wan' is now up" }

/-- The line it is stored as. -/
def wanUpLine : Bytes :=
  utf8Bytes ("\x7b\"id\":\"two\",\"received_at\":\"0001-01-01T00:00:31Z\",\"hostname\":\"gw\"," ++
    "\"transport\":\"import\",\"tag\":\"netifd\",\"message\":\"Interface 'wan' is now up\"\x7d")

/-- A worker that reads both records. -/
def importWorker : Worker :=
  { sampleWorker with go := .ofLines [(wanDown.message, wanDownLine), (wanUpImported, wanUpLine)] }

/-- The directory that has both records. -/
def wanUpDisk : Disk := .single "a.ndjson" (wanDownLine ++ [newline] ++ wanUpLine ++ [newline])

/-- The imported record is read once the engine has been bootstrapped; then it is cut off, and what
is left is read anew. -/
def importedRun : List WorldStep :=
  [.reconcile sampleReconcile 100000000000, .store wanUpDisk,
    .reconcile sampleReconcile 150000000000, .tick sampleTick 160000000000,
    .store (wanDownDisk "a.ndjson"), .reconcile sampleReconcile 200000000000,
    .tick sampleTick 300000000000]

lemma historical_importWorker (disk : Disk) : importWorker.Historical "gw" disk := by
  rintro message ⟨_, -, _, line, -, hdecode⟩ -
  have hgo : importWorker.go
      = .ofLines [(wanDown.message, wanDownLine), (wanUpImported, wanUpLine)] := rfl
  rw [hgo] at hdecode
  obtain ⟨entry, hentry, rfl⟩ := mem_of_ofLines_decode hdecode
  simp only [List.mem_cons, List.not_mem_nil, or_false] at hentry
  rcases hentry with rfl | rfl
  · exact Or.inr (by decide)
  · exact Or.inl rfl

/-- The outage is activated in the end, and nobody is told. -/
theorem history_silent_run_wanDown :
    let world := (World.mk (wanDownDisk "a.ndjson") {}).run importWorker importedRun
    Silent sampleEngine "gw" world.svc.state ∧
      Spares sampleEngine "gw" ∅ world.svc.state.jobs := by
  refine history_silent_run importWorker (by decide) "gw" (wanDownDisk "a.ndjson") {}
    ⟨.empty sampleIDs_injective, fun _ _ hi => by cases hi⟩ importedRun
    (fun d _ => historical_importWorker d)
    ⟨fun h => absurd h (by decide), trivial, .of_check ?_, trivial, trivial, .of_check ?_, trivial,
      trivial⟩
  · decide +kernel
  · decide +kernel

/-- The worker has read the record, and then its partition is renamed. -/
def renamedRun : List WorldStep :=
  [.reconcile sampleReconcile 100000000000, .store (wanDownDisk "b.ndjson"),
    .reconcile sampleReconcile 200000000000]

/-- **History notifies when its partition is renamed.** -/
theorem renamed_notifies :
    ({} : Service).state.bootstrapped = false ∧
      (∀ d, d = wanDownDisk "a.ndjson" ∨ WorldStep.store d ∈ renamedRun →
        sampleWorker.Historical "gw" d) ∧
      ∃ job, ((World.mk (wanDownDisk "a.ndjson") {}).run sampleWorker
          renamedRun).svc.state.jobs.lookup "8d4663d6450447b8:incident_opened" = some job ∧
        AboutHost sampleEngine "gw" job.incidentID := by
  refine ⟨rfl, fun d hd => ?_, ?_⟩
  · rcases hd with rfl | hd
    · exact historical_wanDownDisk _
    · simp only [renamedRun, List.mem_cons, List.not_mem_nil, or_false, false_or, reduceCtorEq,
        WorldStep.store.injEq] at hd
      rw [hd]
      exact historical_wanDownDisk _
  · have hjob : (((World.mk (wanDownDisk "a.ndjson") {}).run sampleWorker
        renamedRun).svc.state.jobs.lookup "8d4663d6450447b8:incident_opened").map
          NotificationJob.incidentID = some "8d4663d6450447b8" := by
      decide +kernel
    obtain ⟨job, hlookup, hid⟩ := Option.map_eq_some_iff.mp hjob
    refine ⟨job, hlookup, "wan", 1000000000, "one", ?_⟩
    rw [hid]
    decide +kernel

end Logthing
