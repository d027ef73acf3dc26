import Logthing.Incidents.Delivery

/-!
# What holds of every job

The outbox changes in two ways only: the engine writes a fresh job, or a turn of the worker's loop is
recorded in one.  What holds of every fresh job and is kept by every turn holds of every job, in
memory and saved, across restarts.

**Main results.**  `Service.Every.life`: the rule for a whole life of the service.
-/

namespace Logthing

/-! ## Fresh jobs -/

/-- A kind that the engine announces. -/
def NotificationKind.announced : NotificationKind → Bool
  | .test | .other _ => false
  | _ => true

/-- A job as the engine writes it. -/
def NotificationJob.Fresh (job : NotificationJob) : Prop :=
  ∃ id incidentID kind at_, kind.announced = true ∧
    job = { id, incidentID, kind, createdAt := at_, nextAt := at_ }

/-- `Q` holds of every job of the outbox. -/
def EveryJob (Q : NotificationJob → Prop) (jobs : Dict String NotificationJob) : Prop :=
  ∀ ⦃id job⦄, jobs.lookup id = some job → Q job

section

variable {Q : NotificationJob → Prop} {jobs : Dict String NotificationJob}

namespace EveryJob

lemma empty : EveryJob Q ∅ := fun id _ hjob => by
  rw [Finmap.lookup_empty] at hjob
  cases hjob

lemma insert (h : EveryJob Q jobs) {id : String} {job : NotificationJob} (hjob : Q job) :
    EveryJob Q (jobs.insert id job) := by
  intro id' job' hjob'
  rw [Dict.lookup_insert_ite] at hjob'
  split_ifs at hjob'
  · rw [← Option.some.inj hjob']
    exact hjob
  · exact h hjob'

lemma foldl {α : Type} {f : Dict String NotificationJob → α → Dict String NotificationJob}
    (hf : ∀ jobs x, EveryJob Q jobs → EveryJob Q (f jobs x)) (l : List α) (h : EveryJob Q jobs) :
    EveryJob Q (l.foldl f jobs) := by
  induction l generalizing jobs with
  | nil => exact h
  | cons x l ih => exact ih (hf jobs x h)

variable (hfresh : ∀ ⦃job : NotificationJob⦄, job.Fresh → Q job)

include hfresh

/-- A fresh job is stored, if its ID is free. -/
lemma insertNew (h : EveryJob Q jobs) {job : NotificationJob} (hjob : job.Fresh) (id : String) :
    EveryJob Q (jobs.insertNew id job) := by
  intro id' job' hjob'
  rw [Dict.lookup_insertNew] at hjob'
  split_ifs at hjob'
  · rw [← Option.some.inj hjob']
    exact hfresh hjob
  · exact h hjob'

lemma enqueue (h : EveryJob Q jobs) (incidentID : String) {kind : NotificationKind}
    (hkind : kind.announced = true) (at_ : Time) :
    EveryJob Q (enqueue jobs incidentID kind at_) :=
  h.insertNew hfresh ⟨_, incidentID, kind, at_, hkind, rfl⟩ _

lemma enqueueFallbackEscalation (h : EveryJob Q jobs) (incidentID primaryID : String) (at_ : Time) :
    EveryJob Q (enqueueFallbackEscalation jobs incidentID primaryID at_) :=
  h.insertNew hfresh ⟨_, incidentID, .fallbackEscalated, at_, rfl, rfl⟩ _

lemma announceActivation (interface : String) (order : Traversal String)
    (incidents : Dict String Incident) (incident : Incident) (at_ : Time) (h : EveryJob Q jobs) :
    EveryJob Q (announceActivation interface order incidents jobs incident at_) := by
  rw [Logthing.announceActivation]
  split_ifs
  · split
    · exact h.enqueueFallbackEscalation hfresh _ _ _
    · exact h.enqueue hfresh _ rfl _
  · exact h.enqueue hfresh _ rfl _

lemma announceResolution (interface : String) (incident : Incident) (at_ : Time)
    (h : EveryJob Q jobs) : EveryJob Q (announceResolution interface jobs incident at_) := by
  refine h.enqueue hfresh _ ?_ _
  split_ifs
  · rfl
  · rfl

lemma activationJobs (interface : String) (orders : Orders) (incidents : Dict String Incident)
    (incident : Incident) (at_ : Time) (h : EveryJob Q jobs) :
    EveryJob Q (activationJobs interface orders incidents jobs incident at_) := by
  have hannounced : EveryJob Q (if incident.notify then
      Logthing.announceActivation interface orders.primary incidents jobs incident at_
        else jobs) := by
    split_ifs
    · exact h.announceActivation hfresh _ _ _ _ _
    · exact h
  rw [Logthing.activationJobs]
  split
  · refine EveryJob.foldl (fun jobs kv hjobs => ?_) _ hannounced
    split_ifs
    · exact hjobs.enqueueFallbackEscalation hfresh _ _ _
    · exact hjobs
  · exact hannounced

/-- A turn of the loop over the timers. -/
lemma advanceOne {interface : String} {orders : Orders} {key : String} {current : Tracker}
    {s : Snapshot} (h : EveryJob Q s.jobs) :
    EveryJob Q (advanceOne interface orders key current s).jobs := by
  rw [Logthing.advanceOne]
  split
  · exact h
  · split_ifs
    · exact h.activationJobs hfresh _ _ _ _ _
    · simp only [resolve]
      split_ifs
      · exact h.announceResolution hfresh _ _ _
      · exact h

/-- **The passage of time.** -/
lemma advance (interface : String) (orders : Schedule) (now : Time) {s : Snapshot}
    (h : EveryJob Q s.jobs) : EveryJob Q (advance interface orders now s).1.jobs :=
  advance_rule (fun s' => EveryJob Q s'.jobs) (fun _ _ hs' => hs'.advanceOne hfresh) orders s h

/-- **Evidence.** -/
lemma observeAll (eng : Engine) (orders : ℕ → Schedule) (os : List Observation) {s : Snapshot}
    (h : EveryJob Q s.jobs) : EveryJob Q (observeAll eng orders os s).jobs := by
  induction os generalizing orders s with
  | nil => exact h
  | cons o os ih =>
      refine ih (fun n => orders (n + 1)) ?_
      cases hevidence : eng.evidence o with
      | none =>
          rw [observeLocked_of_none hevidence]
          exact h
      | some evidence =>
          rw [observeLocked_of_some hevidence]
          split_ifs
          · exact h
          · exact h
          · simp only [observeEvidence]
            split_ifs
            · exact h.advance hfresh _ _ _
            · exact h.advance hfresh _ _ _

lemma deriveJobs (interface : String) (primary later : Traversal String)
    (incidents : Dict String Incident) (incident : Incident) (h : EveryJob Q jobs) :
    EveryJob Q (deriveJobs interface primary later incidents jobs incident) := by
  rw [Logthing.deriveJobs]
  split
  · exact h
  rename_i activated _
  split
  swap
  · exact h
  have hresolved : EveryJob Q (deriveResolution interface (Logthing.announceActivation interface
      primary incidents jobs incident activated) incident) := by
    have hannounced := h.announceActivation hfresh interface primary incidents incident activated
    rw [deriveResolution]
    split
    · split_ifs
      · exact hannounced.announceResolution hfresh _ _ _
      · exact hannounced
    · exact hannounced
  simp only
  split
  · refine EveryJob.foldl (fun jobs kv hjobs => ?_) _ hresolved
    split
    · exact hjobs.enqueueFallbackEscalation hfresh _ _ _
    · exact hjobs
  · exact hresolved

/-- **The last loop of `Rebuild`.** -/
lemma deriveAll (interface : String) (orders : RebuildOrders) (incidents : Dict String Incident)
    (n : ℕ) (l : List (String × Incident)) (h : EveryJob Q jobs) :
    EveryJob Q (deriveAll interface orders incidents n l jobs) := by
  induction l generalizing n jobs with
  | nil => exact h
  | cons kv l ih => exact ih _ (h.deriveJobs hfresh _ _ _ _ _)

/-- **Every call that derives state.** -/
lemma call {eng : Engine} {svc : Service} (h : EveryJob Q svc.state.jobs) {op : Operation}
    (hop : op.Derives) : EveryJob Q (svc.call eng op).state.jobs := by
  cases op with
  | observe orders message notifyEligible outcome =>
      rw [Service.call, Service.observe_state]
      exact h.observeAll hfresh eng (fun _ => orders) [⟨message, notifyEligible, ""⟩]
  | apply orders observations cursors checkpointAt outcome =>
      rw [Service.call, Service.apply_state]
      exact h.observeAll hfresh eng orders observations
  | tick orders now outcome =>
      rw [Service.call, Service.tick_state]
      exact h.advance hfresh _ _ _
  | rebuild orders after observations cursors checkpointAt outcome =>
      rw [Service.call, Service.rebuild_state]
      have hempty : EveryJob Q (emptySnapshot cursors checkpointAt).jobs := .empty
      have hobserved := hempty.observeAll hfresh eng orders observations
      refine EveryJob.deriveAll hfresh _ _ _ _ _ fun id job hjob => ?_
      rw [lookup_restoreJobs] at hjob
      rcases Option.or_eq_some_iff.mp hjob with hprevious | ⟨-, hjob⟩
      · exact h (Option.filter_eq_some_iff.mp hprevious).1
      · exact hobserved hjob
  | setCursors cursors outcome =>
      rw [Service.call, Service.setCursors_state]
      exact h
  | markNotificationSent id adapter externalID at_ outcome => exact hop.elim
  | markNotificationFailed id message next permanent outcome => exact hop.elim

end EveryJob

end

/-! ## The life of a service -/

/-- A step of the engine, of the worker's loop, or a new process that loads what was saved. -/
inductive LifeStep where
  | step (step : OutboxStep)
  | restart (order : Traversal String)

/-- The service after a list of steps, and the deliveries of them all. -/
def Service.life (eng : Engine) (c : Courier) (svc : Service) :
    List LifeStep → Service × List Delivery
  | [] => (svc, [])
  | .step step :: steps =>
      let after := svc.outboxStep eng c step
      ((after.1.life eng c steps).1, after.2 ++ (after.1.life eng c steps).2)
  | .restart order :: steps => (svc.restart order).life eng c steps

/-- `Q` holds of every job in memory, and of every one that has been saved. -/
structure Service.Every (Q : NotificationJob → Prop) (svc : Service) : Prop where
  state : EveryJob Q svc.state.jobs
  saved : ∀ s, svc.saved = some s → EveryJob Q s.jobs

namespace Service.Every

variable {Q : NotificationJob → Prop} {eng : Engine} {c : Courier} {svc : Service}

/-- What is saved is the state. -/
lemma save (h : svc.Every Q) {state : Snapshot} (hstate : EveryJob Q state.jobs)
    (outcome : SaveOutcome) : (Service.save outcome { svc with state }).1.Every Q := by
  cases outcome with
  | none =>
      refine ⟨hstate, fun s hs => ?_⟩
      rw [← Option.some.inj hs]
      exact hstate
  | some err => exact ⟨hstate, h.saved⟩

lemma call (hfresh : ∀ ⦃job : NotificationJob⦄, job.Fresh → Q job) (h : svc.Every Q)
    {op : Operation} (hop : op.Derives) : (svc.call eng op).Every Q := by
  have hstate : EveryJob Q (svc.call eng op).state.jobs := h.state.call hfresh hop
  cases op with
  | observe orders message notifyEligible outcome =>
      rw [Service.call, Service.observe_state] at hstate
      exact h.save hstate outcome
  | apply orders observations cursors checkpointAt outcome =>
      rw [Service.call, Service.apply_state] at hstate
      exact h.save hstate outcome
  | tick orders now outcome =>
      rw [Service.call, Service.tick_state] at hstate
      rw [Service.call, Service.tick]
      split_ifs
      · exact h.save hstate outcome
      · exact ⟨hstate, h.saved⟩
  | rebuild orders after observations cursors checkpointAt outcome =>
      rw [Service.call, Service.rebuild_state] at hstate
      exact h.save hstate outcome
  | setCursors cursors outcome =>
      rw [Service.call, Service.setCursors_state] at hstate
      exact h.save hstate outcome
  | markNotificationSent id adapter externalID at_ outcome => exact hop.elim
  | markNotificationFailed id message next permanent outcome => exact hop.elim

/-- **A turn** that keeps what holds of its job. -/
lemma record (h : svc.Every Q) {d : Delivery} (hd : ∀ job, Q job → Q (d.marked c job)) :
    (d.record c svc).1.Every Q := by
  rw [Delivery.record_eq, Service.markJob]
  cases hjob : svc.state.jobs.lookup d.job.id with
  | none => exact h
  | some previous =>
      have hmarked : EveryJob Q (svc.state.jobs.insert d.job.id (d.marked c previous)) :=
        h.state.insert (hd previous (h.state hjob))
      cases d.outcome with
      | none =>
          refine ⟨hmarked, fun s hs => ?_⟩
          rw [← Option.some.inj hs]
          exact hmarked
      | some err => exact ⟨hmarked.insert (h.state hjob), h.saved⟩

/-- **The loop.** -/
lemma dispatchAll (now : Time) (turns : ℕ → Turn) {due : List NotificationJob}
    (hdue : ∀ job ∈ due, Q job) (h : svc.Every Q)
    (hturns : ∀ d ∈ (dispatchAll c now turns due svc).2.1, Q d.job →
      ∀ job, Q job → Q (d.marked c job)) : (dispatchAll c now turns due svc).1.Every Q := by
  induction due generalizing turns svc with
  | nil => exact h
  | cons first due ih =>
      rw [Logthing.dispatchAll] at hturns ⊢
      simp only at hturns ⊢
      generalize hd : (⟨first, svc.state.jobs.lookup first.id,
        svc.state.incidents.lookup first.incidentID, now, (turns 0).result,
        (turns 0).outcome⟩ : Delivery) = d at hturns ⊢
      have hjob : Q d.job := by
        rw [← hd]
        exact hdue first List.mem_cons_self
      cases hrecord : d.record c svc with
      | mk next err =>
          rw [hrecord] at hturns
          have hnext : (∀ job, Q job → Q (d.marked c job)) → next.Every Q := by
            intro hkept
            have hafter := h.record hkept
            rwa [hrecord] at hafter
          cases err with
          | some err => exact hnext (hturns d List.mem_cons_self hjob)
          | none =>
              exact ih _ (fun job hjob => hdue job (List.mem_cons_of_mem _ hjob))
                (hnext (hturns d List.mem_cons_self hjob))
                fun d' hd' => hturns d' (List.mem_cons_of_mem _ hd')

/-- **The rule**: what holds of fresh jobs and is kept by every turn holds of every job, in memory
and saved. -/
theorem life (hfresh : ∀ ⦃job : NotificationJob⦄, job.Fresh → Q job) (steps : List LifeStep)
    (h : svc.Every Q)
    (hturns : ∀ d ∈ (svc.life eng c steps).2, Q d.job → ∀ job, Q job → Q (d.marked c job)) :
    (svc.life eng c steps).1.Every Q := by
  induction steps generalizing svc with
  | nil => exact h
  | cons step steps ih =>
      cases step with
      | restart order =>
          refine ih ?_ hturns
          rw [Service.restart, Service.load]
          cases hsaved : svc.saved with
          | none => exact ⟨.empty, fun s hs => by cases hs⟩
          | some s =>
              have hempty : EveryJob Q ({} : Service).state.jobs := .empty
              have hkept : ∀ s', some s = some s' → EveryJob Q s'.jobs := fun s' hs' =>
                h.saved s' (hsaved.trans hs')
              simp only
              split_ifs
              · exact ⟨hempty, hkept⟩
              · exact ⟨hempty, hkept⟩
              · exact ⟨h.saved s hsaved, hkept⟩
      | step step =>
          rw [Service.life] at hturns
          refine ih ?_ fun d hd => hturns d (List.mem_append_right _ hd)
          have hfirst := fun d hd => hturns d (List.mem_append_left _ hd)
          cases step with
          | call op hop => exact h.call hfresh hop
          | dispatch order turns now =>
              refine h.dispatchAll now turns (fun job hjob => ?_) hfirst
              obtain ⟨hvisited, -⟩ := List.mem_filter.mp ((List.mergeSort_perm _ _).mem_iff.mp hjob)
              obtain ⟨kv, hkv, rfl⟩ := List.mem_map.mp hvisited
              exact h.state ((order.mem_visit _ _ _).mp hkv)

end Service.Every

end Logthing
