import Logthing.Incidents.Delivery

/-!
# When a notification is tried again

A turn that fails puts its job off: by what the notifier asks for, or by a delay that grows with the
attempts.  Whatever the loop does between two turns about a job, `Attempts` says what these turns
make of it; it composes, as `Outlives` does.

**Main results.**

* `retries_backed_off`: in every run no two turns about a job are closer than the delay of the first
  one, if that could be recorded, and the attempts of the job are the failures that were recorded.
* `none_due_after_dispatch`: a loop that ends without an error leaves no job due.
-/

namespace Logthing

/-! ## Turns -/

/-- How long a turn that failed puts its job off. -/
def Delivery.wait (d : Delivery) : Duration :=
  match d.result with
  | .error _ (some err) =>
      if 0 < err.retryAfter then err.retryAfter else retryDelay d.job.id (d.job.attempts + 1)
  | _ => retryDelay d.job.id (d.job.attempts + 1)

/-- The notifier failed, and not for good. -/
def Delivery.Retried (c : Courier) (d : Delivery) : Prop :=
  d.Sends c ∧ ∃ text err, d.result = .error text err ∧ ∀ e, err = some e → e.permanent = false

/-- The turn could be recorded. -/
def Delivery.saved (d : Delivery) : Bool := d.outcome.isNone

/-- What a turn leaves of its job. -/
def Delivery.after (c : Courier) (d : Delivery) : NotificationJob :=
  if d.saved then d.marked c d.job else d.job

lemma Delivery.wait_pos (d : Delivery) : 0 < d.wait := by
  rw [Delivery.wait]
  split
  · split_ifs with hafter
    · exact hafter
    · exact retryDelay_pos _ _
  · exact retryDelay_pos _ _

lemma Delivery.fact_after (c : Courier) (d : Delivery) : (d.after c).fact = d.job.fact := by
  rw [Delivery.after]
  split_ifs
  · exact Delivery.fact_marked c d d.job
  · rfl

lemma Delivery.id_after (c : Courier) (d : Delivery) : (d.after c).id = d.job.id :=
  congrArg JobFact.id (d.fact_after c)

/-- **A job that is still pending** after a turn that was recorded has been put off. -/
lemma Delivery.marked_of_pending {c : Courier} {d : Delivery}
    (hpending : (d.marked c d.job).isPending = true) :
    d.Retried c ∧ (d.marked c d.job).nextAt = d.now + d.wait ∧
      (d.marked c d.job).attempts = d.job.attempts + 1 := by
  rw [Delivery.marked] at hpending ⊢
  cases hmessage : d.message c with
  | error text =>
      rw [hmessage] at hpending
      simp [NotificationJob.failed, NotificationJob.isPending] at hpending
  | ok message =>
      rw [hmessage] at hpending
      cases hresult : d.result with
      | receipt adapter externalID =>
          rw [hresult] at hpending
          simp [NotificationJob.receipted, NotificationJob.isPending] at hpending
      | error text err =>
          rw [hresult] at hpending
          rw [Delivery.wait, hresult]
          cases err with
          | none => exact ⟨⟨⟨message, hmessage⟩, text, none, hresult, by simp⟩, rfl, rfl⟩
          | some err =>
              have hretry : err.permanent = false := by
                simp [NotificationJob.failed, NotificationJob.isPending] at hpending
                exact hpending.2
              refine ⟨⟨⟨message, hmessage⟩, text, some err, hresult, ?_⟩, ?_, rfl⟩
              · rintro _ ⟨⟩
                exact hretry
              · simp only [NotificationJob.failed]
                split_ifs
                · rfl
                · rfl

/-! ## All turns about a job -/

/-- **The turns about a job**, from what it was to what it is. -/
inductive Attempts (c : Courier) : NotificationJob → List Delivery → NotificationJob → Prop
  | none (job : NotificationJob) : Attempts c job [] job
  | turn {d : Delivery} {ds : List Delivery} {job' : NotificationJob}
      (hdue : d.job.isDue d.now = true) (h : Attempts c (d.after c) ds job') :
      Attempts c d.job (d :: ds) job'

namespace Attempts

variable {c : Courier} {job job' job'' : NotificationJob} {ds ds' : List Delivery}

lemma id_eq (h : Attempts c job ds job') : job'.id = job.id := by
  induction h with
  | none job => rfl
  | turn _ _ ih => rw [ih, Delivery.id_after]

lemma trans (h : Attempts c job ds job') (h' : Attempts c job' ds' job'') :
    Attempts c job (ds ++ ds') job'' := by
  induction h with
  | none job => exact h'
  | turn hdue _ ih => exact .turn hdue (ih h')

/-- A job does not become pending again. -/
lemma isPending (h : Attempts c job ds job') (hpending : job'.isPending = true) :
    job.isPending = true := by
  cases h with
  | none => exact hpending
  | turn hdue _ =>
      rw [NotificationJob.isDue, Bool.and_eq_true] at hdue
      exact hdue.1

/-- **No turn comes too early.** -/
lemma spaced (h : Attempts c job ds job') :
    (∀ d ∈ ds, job.isPending = true ∧ job.nextAt ≤ d.now ∧ job.attempts ≤ d.job.attempts) ∧
      ds.Pairwise fun d d' => d.saved = true →
        d.Retried c ∧ d.now + d.wait ≤ d'.now ∧ d.job.attempts < d'.job.attempts := by
  induction h with
  | none job => exact ⟨fun d hd => absurd hd List.not_mem_nil, List.Pairwise.nil⟩
  | @turn d ds job' hdue _ ih =>
      obtain ⟨hlater, hpair⟩ := ih
      rw [NotificationJob.isDue, Bool.and_eq_true, decide_eq_true_eq] at hdue
      obtain ⟨hpending, hat⟩ := hdue
      have hsaved : d.saved = true → ∀ d' ∈ ds,
          d.Retried c ∧ d.now + d.wait ≤ d'.now ∧ d.job.attempts < d'.job.attempts := by
        intro hsaved d' hd'
        obtain ⟨hstill, hnext, hattempts⟩ := hlater d' hd'
        rw [Delivery.after, if_pos hsaved] at hstill hnext hattempts
        obtain ⟨hretried, hoff, hone⟩ := Delivery.marked_of_pending hstill
        rw [hoff] at hnext
        rw [hone] at hattempts
        exact ⟨hretried, hnext, hattempts⟩
      refine ⟨fun d' hd' => ?_, List.Pairwise.cons (fun d' hd' hs => hsaved hs d' hd') hpair⟩
      rcases List.mem_cons.mp hd' with rfl | hd'
      · exact ⟨hpending, hat, le_rfl⟩
      · refine ⟨hpending, ?_⟩
        by_cases hs : d.saved = true
        · obtain ⟨-, hnext, hattempts⟩ := hsaved hs d' hd'
          have hwait : d.now ≤ d.now + d.wait := le_add_of_nonneg_right d.wait_pos.le
          exact ⟨(hat.trans hwait).trans hnext, hattempts.le⟩
        · obtain ⟨-, hnext, hattempts⟩ := hlater d' hd'
          rw [Delivery.after, if_neg hs] at hnext hattempts
          exact ⟨hnext, hattempts⟩

/-- **What is recorded** of a job that is pending: its attempts, and when the next one is due. -/
lemma recorded (h : Attempts c job ds job') (hpending : job'.isPending = true) :
    job'.attempts = job.attempts + (ds.filter Delivery.saved).length ∧
      job'.nextAt = ((ds.filter Delivery.saved).getLast?.map
        fun d => d.now + d.wait).getD job.nextAt := by
  induction h with
  | none job => exact ⟨rfl, rfl⟩
  | @turn d ds job' hdue h ih =>
      obtain ⟨hattempts, hnext⟩ := ih hpending
      have hstill := h.isPending hpending
      rw [Delivery.after] at hattempts hnext hstill
      split_ifs at hattempts hnext hstill with hsaved
      · obtain ⟨-, hoff, hone⟩ := Delivery.marked_of_pending hstill
        rw [List.filter_cons_of_pos hsaved, List.length_cons, List.getLast?_cons]
        refine ⟨by omega, ?_⟩
        rw [hnext, hoff]
        cases (ds.filter Delivery.saved).getLast? with
        | none => rfl
        | some last => rfl
      · rw [List.filter_cons_of_neg hsaved]
        exact ⟨hattempts, hnext⟩

end Attempts

/-! ## The loop -/

/-- The turns about a job. -/
def turnsAbout (id : String) (log : List Delivery) : List Delivery := log.filter (·.job.id = id)

/-- What the loop makes of the jobs that it has still to come to, after the first turn. -/
lemma due_after_turn {c : Courier} {now : Time} {first : NotificationJob}
    {jobs : List NotificationJob} (hdistinct : ((first :: jobs).map NotificationJob.id).Nodup)
    {svc : Service}
    (hdue : ∀ job ∈ first :: jobs,
      svc.state.jobs.lookup job.id = some job ∧ job.isDue now = true)
    {d : Delivery} (hd : d.job = first) :
    svc.state.jobs.lookup d.job.id = some d.job ∧
      (d.record c svc).1.state.jobs.lookup d.job.id = some (d.after c) ∧
      (∀ id, id ≠ d.job.id →
        (d.record c svc).1.state.jobs.lookup id = svc.state.jobs.lookup id) ∧
      ∀ job ∈ jobs, (d.record c svc).1.state.jobs.lookup job.id = some job ∧
        job.isDue now = true := by
  obtain ⟨hfirst, -⟩ := hdue first List.mem_cons_self
  rw [← hd] at hfirst
  have hothers : ∀ id, id ≠ d.job.id →
      (d.record c svc).1.state.jobs.lookup id = svc.state.jobs.lookup id :=
    fun id hne => lookup_record_of_ne hfirst hne
  refine ⟨hfirst, ?_, hothers, fun job hjob => ?_⟩
  · rw [Delivery.record_eq, Service.lookup_markJob hfirst, if_pos rfl]
    rfl
  · obtain ⟨hlookup, hjobDue⟩ := hdue job (List.mem_cons_of_mem _ hjob)
    refine ⟨?_, hjobDue⟩
    rw [hothers, hlookup]
    intro hsame
    rw [List.map_cons, List.nodup_cons] at hdistinct
    exact hdistinct.1 (hd ▸ hsame ▸ List.mem_map_of_mem hjob)

/-- **What the loop makes of a job.** -/
lemma attempts_dispatchAll (c : Courier) (now : Time) (turns : ℕ → Turn)
    {jobs : List NotificationJob} (hdistinct : (jobs.map NotificationJob.id).Nodup) {svc : Service}
    (hdue : ∀ job ∈ jobs, svc.state.jobs.lookup job.id = some job ∧ job.isDue now = true)
    {job : NotificationJob} (hjob : svc.state.jobs.lookup job.id = some job) :
    ∃ job', (dispatchAll c now turns jobs svc).1.state.jobs.lookup job.id = some job' ∧
      Attempts c job (turnsAbout job.id (dispatchAll c now turns jobs svc).2.1) job' := by
  induction jobs generalizing turns svc job with
  | nil => exact ⟨job, hjob, .none job⟩
  | cons first jobs ih =>
      rw [dispatchAll]
      generalize hd : (⟨first, svc.state.jobs.lookup first.id,
        svc.state.incidents.lookup first.incidentID, now, (turns 0).result,
        (turns 0).outcome⟩ : Delivery) = d
      have hdjob : d.job = first := by rw [← hd]
      have hdnow : d.now = now := by rw [← hd]
      obtain ⟨hfirst, hafter, hothers, hrest⟩ :=
        due_after_turn (c := c) hdistinct hdue hdjob
      have hnd := (List.nodup_cons.mp hdistinct).2
      obtain ⟨-, hfirstDue⟩ := hdue first List.mem_cons_self
      by_cases hsame : d.job.id = job.id
      · obtain rfl : d.job = job := by
          rw [hsame, hjob] at hfirst
          exact (Option.some.inj hfirst).symm
        have hturn : ∀ {ds job'}, Attempts c (d.after c) ds job' →
            Attempts c d.job (d :: ds) job' :=
          fun h => .turn (by rwa [hdjob, hdnow]) h
        have hid := d.id_after c
        cases hrecord : d.record c svc with
        | mk next err =>
            rw [hrecord] at hafter hrest
            cases err with
            | some err =>
                refine ⟨_, hafter, ?_⟩
                rw [turnsAbout, List.filter_cons_of_pos (by simp)]
                exact hturn (.none _)
            | none =>
                rw [← hid] at hafter
                obtain ⟨job', hjob', hattempts⟩ := ih (fun n => turns (n + 1)) hnd hrest hafter
                rw [hid] at hjob' hattempts
                refine ⟨job', hjob', ?_⟩
                rw [turnsAbout, List.filter_cons_of_pos (by simp)]
                exact hturn hattempts
      · have hkept : (d.record c svc).1.state.jobs.lookup job.id = some job := by
          rw [hothers _ (Ne.symm hsame), hjob]
        have hskip : ∀ log, turnsAbout job.id (d :: log) = turnsAbout job.id log :=
          fun log => List.filter_cons_of_neg (by simpa using hsame)
        cases hrecord : d.record c svc with
        | mk next err =>
            rw [hrecord] at hkept hrest
            cases err with
            | some err =>
                refine ⟨job, hkept, ?_⟩
                rw [hskip]
                exact .none job
            | none =>
                obtain ⟨job', hjob', hattempts⟩ := ih (fun n => turns (n + 1)) hnd hrest hkept
                exact ⟨job', hjob', by rwa [hskip]⟩

/-! ## Runs -/

/-- **What a step makes of a job.** -/
lemma attempts_step (eng : Engine) (c : Courier) {svc : Service} (h : OwnIDs svc.state.jobs)
    (step : OutboxStep) {job : NotificationJob} (hjob : svc.state.jobs.lookup job.id = some job)
    (hretained : step.Rebuilds → job.incidentID ∈ (svc.outboxStep eng c step).1.state.incidents) :
    ∃ job', (svc.outboxStep eng c step).1.state.jobs.lookup job.id = some job' ∧
      job'.incidentID = job.incidentID ∧
      Attempts c job (turnsAbout job.id (svc.outboxStep eng c step).2) job' := by
  obtain ⟨job', hjob', houtlives⟩ := (outlives_step eng c h step).2 job hjob hretained
  refine ⟨job', hjob', congrArg JobFact.incidentID houtlives.fact_eq, ?_⟩
  cases step with
  | call op hop =>
      have hkept := (keeps_call eng h hop).2 _ _ hjob hretained
      obtain rfl := Option.some.inj (hkept.symm.trans hjob')
      exact .none job
  | dispatch order turns now =>
      obtain ⟨hdistinct, hdue⟩ := dueNotifications_spec h order now
      obtain ⟨job'', hjob'', hattempts⟩ := attempts_dispatchAll c now turns hdistinct hdue hjob
      obtain rfl := Option.some.inj (hjob''.symm.trans hjob')
      exact hattempts

/-- **What a run makes of a job.** -/
lemma attempts_run (eng : Engine) (c : Courier) (steps : List OutboxStep) {svc : Service}
    (h : OwnIDs svc.state.jobs) {job : NotificationJob}
    (hjob : svc.state.jobs.lookup job.id = some job)
    (hretains : Retains eng c job.incidentID svc steps) :
    ∃ job', (svc.outboxRun eng c steps).1.state.jobs.lookup job.id = some job' ∧
      Attempts c job (turnsAbout job.id (svc.outboxRun eng c steps).2) job' := by
  induction steps generalizing svc job with
  | nil => exact ⟨job, hjob, .none job⟩
  | cons step steps ih =>
      obtain ⟨job', hjob', hincident, hattempts⟩ := attempts_step eng c h step hjob hretains.1
      have hid := hattempts.id_eq
      rw [← hid] at hjob'
      rw [← hincident] at hretains
      obtain ⟨job'', hjob'', hattempts'⟩ := ih (outlives_step eng c h step).1 hjob' hretains.2
      rw [hid] at hjob'' hattempts'
      refine ⟨job'', hjob'', ?_⟩
      rw [Service.outboxRun, turnsAbout, List.filter_append]
      exact hattempts.trans hattempts'

/-- **Retries are backed off.**  Once a run has a job, whatever comes after: while no `Rebuild`
loses its incident, of two turns about the job of which the first could be recorded, that one passed
the job to the notifier, which failed and not for good, and the second is not sooner than the delay
that the notifier asked for, or that the worker computed from the attempts; no turn is before the
job's `NextAt`.  A job that is pending then has as many attempts more as turns have been recorded,
and is due when the delay of the last of them is over. -/
theorem retries_backed_off (eng : Engine) (c : Courier) (before after : List OutboxStep)
    (id : String) (job : NotificationJob)
    (hjob : (Service.outboxRun eng c {} before).1.state.jobs.lookup id = some job)
    (hretains : Retains eng c job.incidentID (Service.outboxRun eng c {} before).1 after) :
    ∃ job', ((Service.outboxRun eng c {} before).1.outboxRun eng c after).1.state.jobs.lookup id
        = some job' ∧
      let turns := turnsAbout id ((Service.outboxRun eng c {} before).1.outboxRun eng c after).2
      (∀ d ∈ turns, job.nextAt ≤ d.now) ∧
      (turns.Pairwise fun d d' => d.saved = true →
        d.Retried c ∧ d.now + d.wait ≤ d'.now ∧ d.job.attempts < d'.job.attempts) ∧
      (job'.isPending = true →
        job'.attempts = job.attempts + (turns.filter Delivery.saved).length ∧
          job'.nextAt = ((turns.filter Delivery.saved).getLast?.map
            fun d => d.now + d.wait).getD job.nextAt) := by
  have hempty : OwnIDs ({} : Service).state.jobs := fun _ _ hjob => by cases hjob
  have hown := (outlives_run eng c before hempty).1
  have hid := hown hjob
  rw [← hid] at hjob ⊢
  obtain ⟨job', hjob', hattempts⟩ := attempts_run eng c after hown hjob hretains
  obtain ⟨hnext, hpair⟩ := hattempts.spaced
  exact ⟨job', hjob', fun d hd => (hnext d hd).2.1, hpair, hattempts.recorded⟩

/-- The notifier asks for five seconds, and takes the notification when they are over. -/
def sampleRetries : List OutboxStep :=
  [.dispatch (.sorted String) (fun _ => ⟨.error "HTTP 429" (some ⟨false, 5000000000⟩), none⟩)
      61000000000,
    .dispatch (.sorted String) (fun _ => ⟨.receipt "discord" "1", none⟩) 66000000000]

/-- The small notification is tried twice. -/
theorem retries_backed_off_wanDown :
    ∃ job', ((Service.outboxRun sampleEngine sampleCourier {} sampleOutage).1.outboxRun sampleEngine
        sampleCourier sampleRetries).1.state.jobs.lookup "8d4663d6450447b8:incident_opened"
          = some job' ∧
      (turnsAbout "8d4663d6450447b8:incident_opened"
          ((Service.outboxRun sampleEngine sampleCourier {} sampleOutage).1.outboxRun sampleEngine
            sampleCourier sampleRetries).2).Pairwise fun d d' => d.saved = true →
        d.Retried sampleCourier ∧ d.now + d.wait ≤ d'.now ∧
          d.job.attempts < d'.job.attempts := by
  have hsome : ((Service.outboxRun sampleEngine sampleCourier {} sampleOutage).1.state.jobs.lookup
      "8d4663d6450447b8:incident_opened").isSome = true := by
    decide +kernel
  obtain ⟨job, hjob⟩ := Option.isSome_iff_exists.mp hsome
  obtain ⟨job', hjob', -, hpair, -⟩ := retries_backed_off sampleEngine sampleCourier
    sampleOutage sampleRetries _ job hjob
    ⟨fun h => h.elim, fun h => h.elim, trivial⟩
  exact ⟨job', hjob', hpair⟩

/-! ## A loop that ends -/

/-- A job is not due after a turn that was recorded. -/
lemma Delivery.not_due_after {c : Courier} {d : Delivery} (hsaved : d.saved = true) :
    (d.after c).isDue d.now = false := by
  rw [Delivery.after, if_pos hsaved, NotificationJob.isDue]
  cases hpending : (d.marked c d.job).isPending with
  | false => rfl
  | true =>
      obtain ⟨-, hoff, -⟩ := Delivery.marked_of_pending hpending
      rw [hoff, Bool.true_and, decide_eq_false_iff_not, not_le]
      exact lt_add_of_pos_right _ (d.wait_pos)

/-- **A loop without an error** takes every job, records it, and leaves the others alone. -/
lemma dispatchAll_done {c : Courier} (now : Time) (turns : ℕ → Turn) {jobs : List NotificationJob}
    (hdistinct : (jobs.map NotificationJob.id).Nodup) {svc : Service}
    (hdue : ∀ job ∈ jobs, svc.state.jobs.lookup job.id = some job ∧ job.isDue now = true)
    (hdone : (dispatchAll c now turns jobs svc).2.2 = none) :
    (dispatchAll c now turns jobs svc).2.1.map Delivery.job = jobs ∧
      (∀ id, id ∉ jobs.map NotificationJob.id →
        (dispatchAll c now turns jobs svc).1.state.jobs.lookup id = svc.state.jobs.lookup id) ∧
      ∀ job ∈ jobs, ∃ job',
        (dispatchAll c now turns jobs svc).1.state.jobs.lookup job.id = some job' ∧
          job'.isDue now = false := by
  induction jobs generalizing turns svc with
  | nil => exact ⟨rfl, fun _ _ => rfl, fun job hjob => absurd hjob List.not_mem_nil⟩
  | cons first jobs ih =>
      rw [dispatchAll] at hdone ⊢
      generalize hd : (⟨first, svc.state.jobs.lookup first.id,
        svc.state.incidents.lookup first.incidentID, now, (turns 0).result,
        (turns 0).outcome⟩ : Delivery) = d at hdone ⊢
      have hdjob : d.job = first := by rw [← hd]
      have hdnow : d.now = now := by rw [← hd]
      obtain ⟨hfirst, hafter, hothers, hrest⟩ :=
        due_after_turn (c := c) hdistinct hdue hdjob
      obtain ⟨hnotMem, hnd⟩ := List.nodup_cons.mp hdistinct
      have hsaved : (d.record c svc).2 = none → d.saved = true := by
        rw [Delivery.record_eq, Service.markJob, hfirst, Delivery.saved]
        cases d.outcome with
        | none => exact fun _ => rfl
        | some err => exact fun h => by cases h
      cases hrecord : d.record c svc with
      | mk next err =>
          rw [hrecord] at hafter hothers hrest hsaved hdone
          cases err with
          | some err => cases hdone
          | none =>
              obtain ⟨htaken, hkept, hleft⟩ := ih (fun n => turns (n + 1)) hnd hrest hdone
              refine ⟨?_, fun id hid => ?_, fun job hjob => ?_⟩
              · rw [List.map_cons, htaken, hdjob]
              · rw [List.map_cons, List.mem_cons, not_or] at hid
                rw [hkept id hid.2, hothers id (by rw [hdjob]; exact hid.1)]
              · rcases List.mem_cons.mp hjob with rfl | hjob
                · refine ⟨d.after c, ?_, ?_⟩
                  · rw [hkept _ hnotMem, ← hdjob, hafter]
                  · rw [← hdnow]
                    exact Delivery.not_due_after (hsaved rfl)
                · exact hleft job hjob

/-- Whatever is due is taken. -/
lemma mem_dueNotifications {s : Snapshot} (order : Traversal String) {now : Time} {id : String}
    {job : NotificationJob} (hjob : s.jobs.lookup id = some job) (hdue : job.isDue now = true) :
    job ∈ dueNotifications order now s := by
  refine (List.mergeSort_perm _ _).mem_iff.mpr (List.mem_filter.mpr ⟨?_, hdue⟩)
  exact List.mem_map.mpr ⟨(id, job), (order.mem_visit _ _ _).mpr hjob, rfl⟩

lemma pairwise_dueNotifications (order : Traversal String) (now : Time) (s : Snapshot) :
    (dueNotifications order now s).Pairwise fun a b => a.createdAt ≤ b.createdAt := by
  have hsorted := @List.pairwise_mergeSort NotificationJob
    (fun a b => decide (a.createdAt ≤ b.createdAt))
    (fun a b c hab hbc => decide_eq_true ((of_decide_eq_true hab).trans (of_decide_eq_true hbc)))
    (fun a b => by simpa using le_total a.createdAt b.createdAt)
    (((order.visit s.jobs).map Prod.snd).filter (·.isDue now))
  exact hsorted.imp of_decide_eq_true

/-- **No job is left due.**  In any run, if the worker's loop over what is due ends without an
error, every job that was due has had one turn and is not due any more, the oldest first, and every
other job has had none and is as it was; no job is new. -/
theorem none_due_after_dispatch (eng : Engine) (c : Courier) (steps : List OutboxStep)
    (order : Traversal String) (turns : ℕ → Turn) (now : Time)
    (hdone : ((Service.outboxRun eng c {} steps).1.dispatch c order turns now).2.2 = none) :
    let svc := (Service.outboxRun eng c {} steps).1
    let after := svc.dispatch c order turns now
    (after.2.1.map Delivery.job).Pairwise (fun a b => a.createdAt ≤ b.createdAt) ∧
    (∀ id job, svc.state.jobs.lookup id = some job →
      ((after.2.1.map fun d => d.job.id).count id = if job.isDue now then 1 else 0) ∧
      ∃ job', after.1.state.jobs.lookup id = some job' ∧ job'.isDue now = false ∧
        (job.isDue now = false → job' = job)) ∧
    ∀ id, svc.state.jobs.lookup id = none → after.1.state.jobs.lookup id = none := by
  intro svc after
  have hempty : OwnIDs ({} : Service).state.jobs := fun _ _ hjob => by cases hjob
  have hown : OwnIDs svc.state.jobs := (outlives_run eng c steps hempty).1
  obtain ⟨hdistinct, hdue⟩ := dueNotifications_spec hown order now
  obtain ⟨htaken, hkept, hleft⟩ := dispatchAll_done now turns hdistinct hdue hdone
  have hids : (after.2.1.map fun d => d.job.id)
      = (dueNotifications order now svc.state).map NotificationJob.id := by
    rw [← htaken, List.map_map]
    rfl
  -- a job that is not stored or not due is not among those taken
  have hnot : ∀ id, (∀ job, svc.state.jobs.lookup id = some job → job.isDue now = false) →
      id ∉ (dueNotifications order now svc.state).map NotificationJob.id := by
    intro id hidle hmem
    obtain ⟨job, hjob, rfl⟩ := List.mem_map.mp hmem
    obtain ⟨hlookup, hjobDue⟩ := hdue job hjob
    exact absurd hjobDue (by rw [hidle job hlookup]; decide)
  refine ⟨?_, fun id job hjob => ?_, fun id hnone => ?_⟩
  · exact htaken ▸ pairwise_dueNotifications order now svc.state
  · cases hjobDue : job.isDue now with
    | true =>
        have hmem := mem_dueNotifications order hjob hjobDue
        obtain ⟨job', hjob', hidle⟩ := hleft job hmem
        rw [hown hjob] at hjob'
        refine ⟨?_, job', hjob', hidle, fun h => by cases h⟩
        rw [hids]
        exact List.count_eq_one_of_mem hdistinct (hown hjob ▸ List.mem_map_of_mem hmem)
    | false =>
        have hmem : id ∉ (dueNotifications order now svc.state).map NotificationJob.id := by
          refine hnot id fun job' hjob' => ?_
          rwa [← Option.some.inj (hjob.symm.trans hjob')]
        refine ⟨?_, job, (hkept id hmem).trans hjob, hjobDue, fun _ => rfl⟩
        rw [hids]
        exact List.count_eq_zero_of_not_mem hmem
  · refine (hkept id (hnot id fun job hjob => ?_)).trans hnone
    rw [hnone] at hjob
    cases hjob

/-- Nothing is due once the small notification has been sent. -/
theorem none_due_after_dispatch_wanDown :
    let svc := (Service.outboxRun sampleEngine sampleCourier {} sampleOutage).1
    let turns : ℕ → Turn := fun _ => ⟨.receipt "discord" "1", none⟩
    ∀ id job, svc.state.jobs.lookup id = some job →
      ∃ job', (svc.dispatch sampleCourier (.sorted String) turns 61000000000).1.state.jobs.lookup id
        = some job' ∧ job'.isDue 61000000000 = false := by
  intro svc turns id job hjob
  obtain ⟨-, hjobs, -⟩ := none_due_after_dispatch sampleEngine sampleCourier
    sampleOutage (.sorted String) turns 61000000000 (by decide +kernel)
  obtain ⟨-, job', hjob', hidle, -⟩ := hjobs id job hjob
  exact ⟨job', hjob', hidle⟩

end Logthing
