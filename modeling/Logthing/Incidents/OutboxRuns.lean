import Logthing.Incidents.Outbox
import Logthing.Incidents.Runs

/-!
# The outbox of runs in the order of time

**Main results.**  `outbox_of_run`: in every run of `Observe`, `Apply` and `Tick` from `New` in which
time does not go backwards, the outbox is what the history of the incidents calls for.
-/

namespace Logthing

/-- The times at which a call takes the engine: those of its evidence, or of its tick. -/
def Operation.times (eng : Engine) : Operation → List Time
  | .observe _ message notifyEligible _ => eng.evidenceTimes [⟨message, notifyEligible, ""⟩]
  | .apply _ observations _ _ _ => eng.evidenceTimes observations
  | .tick _ now _ => [now]
  | _ => []

/-- A call of `Observe`, `Apply` or `Tick`. -/
def Operation.live : Operation → Prop
  | .observe .. | .apply .. | .tick .. => True
  | _ => False

/-- **Live calls in the order of time keep the engine in step** with a time until whatever comes
next. -/
lemma Timely.call {eng : Engine} {svc : Service} {op : Operation} {rest : List Time} {at_ : Time}
    (h : Timely eng at_ svc.state) (hlive : op.live)
    (htimes : (op.times eng ++ rest).Pairwise (· ≤ ·)) (hle : ∀ t ∈ op.times eng ++ rest, at_ ≤ t) :
    ∃ later, (∀ t ∈ rest, later ≤ t) ∧ Timely eng later (svc.call eng op).state := by
  cases op with
  | observe orders message notifyEligible outcome =>
      obtain ⟨later, -, hrest, hafter⟩ :=
        h.observeAll (fun _ => orders) [⟨message, notifyEligible, ""⟩] htimes hle
      rw [Service.call, Service.observe_state]
      exact ⟨later, hrest, hafter⟩
  | apply orders observations cursors checkpointAt outcome =>
      obtain ⟨later, -, hrest, hafter⟩ := h.observeAll orders observations htimes hle
      rw [Service.call, Service.apply_state]
      exact ⟨later, hrest, ⟨hafter.consistent, hafter.rest, hafter.orderly, hafter.outbox⟩⟩
  | tick orders now outcome =>
      simp only [Operation.times, List.cons_append, List.nil_append, List.pairwise_cons,
        List.mem_cons, forall_eq_or_imp] at htimes hle
      rw [Service.call, Service.tick_state]
      exact ⟨now, htimes.1, h.advance orders hle.1 le_rfl fun _ _ _ _ hdue => hdue⟩
  | _ => exact absurd hlive id

/-- **Live runs in the order of time keep the engine in step.** -/
lemma Timely.run {eng : Engine} (ops : List Operation) {svc : Service} {at_ : Time}
    (h : Timely eng at_ svc.state) (hlive : ∀ op ∈ ops, op.live)
    (htimes : (ops.flatMap (Operation.times eng)).Pairwise (· ≤ ·))
    (hle : ∀ t ∈ ops.flatMap (Operation.times eng), at_ ≤ t) :
    ∃ later, Timely eng later (svc.run eng ops).state := by
  induction ops generalizing svc at_ with
  | nil => exact ⟨at_, h⟩
  | cons op ops ih =>
      rw [List.flatMap_cons] at htimes hle
      obtain ⟨middle, hrest, hmiddle⟩ := h.call (hlive op List.mem_cons_self) htimes hle
      exact ih hmiddle (fun o ho => hlive o (List.mem_cons_of_mem _ ho))
        (List.pairwise_append.mp htimes).2.1 hrest

/-! ## The outbox of every run in the order of time -/

/-- **The outbox is determined by the history of incidents.**  After any run of `Observe`, `Apply`
and `Tick` from `New` in which times never decrease, the jobs are those of the notices that the
history calls for, each under its own ID, and there are no others. -/
theorem outbox_of_run (eng : Engine) (hids : eng.ids.Injective) (ops : List Operation)
    (hlive : ∀ op ∈ ops, op.live)
    (htimes : (ops.flatMap (Operation.times eng)).Pairwise (· ≤ ·)) :
    let s := (Service.run eng {} ops).state
    Distinct (Expected eng.interface s.view.history) ∧
      Records s.jobs (Expected eng.interface s.view.history) := by
  obtain ⟨at_, hle⟩ := exists_before (ops.flatMap (Operation.times eng))
  have hnew : Timely eng at_ (({} : Service).state) := .of_empty hids at_ rfl rfl
  obtain ⟨later, h⟩ := hnew.run ops hlive htimes hle
  exact ⟨h.consistent.distinct_expected, h.outbox⟩

/-- The small run with its tick a minute later. -/
theorem outbox_of_run_wanDown :
    let s := (Service.run sampleEngine {} wanDownRun).state
    Distinct (Expected sampleEngine.interface s.view.history) ∧
      Records s.jobs (Expected sampleEngine.interface s.view.history) := by
  refine outbox_of_run sampleEngine sampleIDs_injective wanDownRun ?_ ?_
  · intro op hop
    simp only [wanDownRun, List.mem_cons, List.not_mem_nil, or_false] at hop
    rcases hop with rfl | rfl
    · exact trivial
    · exact trivial
  · have htimes : wanDownRun.flatMap (Operation.times sampleEngine) = [1000000000, 61000000000] := by
      rfl
    rw [htimes]
    decide

end Logthing
