import Logthing.Incidents.KeptJobs
import Logthing.Incidents.Relabelling
import Logthing.Incidents.RebuiltOutbox
import Logthing.Incidents.Runs

/-!
# Rebuilding agrees with live processing

`Rebuild` observes everything again, with flags that may say less, gives incidents the flags they
had and derives the outbox anew.

**Main results.**  `rebuild_agrees`: followed by a tick it ends where the live engine was, with the
delivery of every job that is left as it was.
-/

namespace Logthing

/-! ## The lower history -/

lemma activation_below {i' i : Incident} (h : i'.Below i) {a' : Activation}
    (ha' : i'.activation = some a') :
    i.activation = some { a' with notify := i.notify } ∧ (a'.notify = true → i.notify = true) := by
  obtain ⟨flag, rfl, hflag⟩ := h
  obtain ⟨at_, hat, rfl⟩ := Option.map_eq_some_iff.mp ha'
  refine ⟨?_, hflag⟩
  rw [Incident.activation, hat]
  rfl

/-- The histories of views that differ in `Notify` have the same outages. -/
lemma View.Below.history {x w : View} (h : View.Below x w) {id : String} :
    (∀ {a'}, x.history id = some a' →
      ∃ flag, w.history id = some { a' with notify := flag } ∧ (a'.notify = true → flag = true)) ∧
    ∀ {a}, w.history id = some a → ∃ flag, x.history id = some { a with notify := flag } := by
  have hid := h.incidents id
  simp only [View.history]
  generalize x.incidents id = i' at hid
  generalize w.incidents id = i at hid
  cases hid with
  | none =>
      constructor
      · intro a' ha'
        cases ha'
      · intro a ha
        cases ha
  | @some i' i hbelow =>
      simp only [Option.bind_some]
      refine ⟨fun ha' => ⟨i.notify, activation_below hbelow ha'⟩, fun {a} ha => ?_⟩
      obtain ⟨flag, rfl, -⟩ := hbelow
      obtain ⟨at_, hat, rfl⟩ := Option.map_eq_some_iff.mp ha
      have hat' : i'.activatedAt = some at_ := hat
      exact ⟨i'.notify, by rw [Incident.activation, hat']; rfl⟩

/-- The upper history continues the lower one. -/
lemma View.Below.continues {x w : View} (h : View.Below x w) (interface : String) :
    Continues interface x.history w.history where
  kept hx := by
    obtain ⟨flag, hw, hflag⟩ := h.history.1 hx
    exact ⟨_, hw, rfl, rfl, hflag, rfl, fun _ hr => hr⟩
  primaries _ _ hw hof hdown := by
    obtain ⟨flag, hx⟩ := h.history.2 hw
    exact ⟨_, hx, hof, hdown⟩
  overlaps hf hf' hp hp' _ hfdown hpdown := by
    obtain ⟨flag, hw, -⟩ := h.history.1 hf
    obtain ⟨pflag, hpw, -⟩ := h.history.1 hp
    rw [hw] at hf'
    rw [hpw] at hp'
    rw [← Option.some.inj hf', ← Option.some.inj hp']
    exact ⟨_, hfdown, hpdown⟩

lemma evidenceTimes_below {eng : Engine} {os' os : List Observation}
    (h : List.Forall₂ Observation.Below os' os) : eng.evidenceTimes os' = eng.evidenceTimes os := by
  induction h with
  | nil => rfl
  | cons ho _ ih =>
      rw [evidenceTimes_cons, evidenceTimes_cons, ih, Engine.evidence, Engine.evidence,
        ho.message_eq, ho.sourceRef_eq]

/-! ## What a tick leaves alone -/

/-- A timer that runs out changes no flag. -/
lemma Consistent.notify_settledIncident {eng : Engine} {v : View} (h : Consistent eng v)
    {now : Time} {id : String} {incident : Incident} (hi : v.incidents id = some incident) :
    (v.settledIncident now incident).notify = incident.notify := by
  rw [View.settledIncident]
  cases hc : v.trackers incident.key with
  | none => rfl
  | some current =>
      simp only
      split_ifs with hdue
      · have hid : incident.id = id := (h.wellFormed hi).id_eq
        rw [← hid, ← hdue.1] at hi
        have hagrees := h.agrees_of_pending hc hi hdue.2.1
        rw [Incident.fired]
        split_ifs
        · exact hagrees.notify.symm
        · rfl
      · rfl

/-! ## Rebuilding -/

/-- A state that is the live one with some of its jobs, whatever has become of their delivery. -/
structure Worn (live worn : Snapshot) : Prop where
  trackers_eq : worn.trackers = live.trackers
  incidents_eq : worn.incidents = live.incidents
  jobs : ∀ ⦃id job⦄, worn.jobs.lookup id = some job →
    ∃ job₀, live.jobs.lookup id = some job₀ ∧ job.fact = job₀.fact

/-- The jobs of a worn state record those of the notices that are left. -/
lemma Worn.records {live worn : Snapshot} (h : Worn live worn) {G : Notice → Prop}
    (hG : Distinct G) (hlive : Records live.jobs G) :
    Records worn.jobs fun n => G n ∧ n.jobID ∈ worn.jobs := by
  intro key fact
  constructor
  · rintro ⟨job, hjob, rfl⟩
    obtain ⟨job₀, hjob₀, hfact⟩ := h.jobs hjob
    obtain ⟨n, hn, hid, hnfact⟩ := (hlive key _).mp ⟨job₀, hjob₀, rfl⟩
    exact ⟨n, ⟨hn, by rw [hid]; exact Finmap.mem_of_lookup_eq_some hjob⟩, hid,
      hnfact.trans hfact.symm⟩
  · rintro ⟨n, ⟨hn, hmem⟩, rfl, rfl⟩
    obtain ⟨job, hjob⟩ := Finmap.mem_iff.mp hmem
    obtain ⟨job₀, hjob₀, hfact⟩ := h.jobs hjob
    obtain ⟨m, hm, hid, hmfact⟩ := (hlive _ _).mp ⟨job₀, hjob₀, rfl⟩
    have hsame : m = n := hG hm hn hid
    exact ⟨job, hjob, by rw [hfact, ← hmfact, hsame]⟩

section

variable {eng : Engine} {worn observed : Snapshot} {w : View} {now : Time}
  (hbelow : View.Below observed.view w) (hconsistent : Consistent eng observed.view)
  (hw : Consistent eng w) (hincidents : ∀ id, worn.incidents.lookup id = (w.settle now).incidents id)

include hbelow hconsistent hw hincidents

/-- **`Rebuild` brings the view back** from before the timers ran out. -/
lemma view_restore_below (after : RebuildOrders) :
    (restore eng.interface after worn observed).view = w := by
  rw [view_restore]
  refine renotify_of_below hbelow hconsistent hw fun id i' i _ hi hii => ?_
  obtain ⟨flag, rfl, hflag⟩ := hii
  rw [restoredNotify, hincidents id]
  simp only [View.settle, hi, Option.map_some, Option.any_some, hw.notify_settledIncident hi]
  cases hnotify : i'.notify with
  | false => rfl
  | true => rw [Bool.true_or, hflag hnotify]

/-- The incidents of the jobs that were left are all observed anew. -/
lemma mem_restored (after : RebuildOrders) {F : Notice → Prop}
    (hF : ∀ n, F n → Expected eng.interface (w.settle now).history n) (hworn : Records worn.jobs F) :
    ∀ id job, worn.jobs.lookup id = some job →
      job.incidentID ∈ restoreNotify after.incidents worn.incidents observed.incidents := by
  intro id job hjob
  have hview := view_restore_below hbelow hconsistent hw hincidents after
  obtain ⟨n, hn, -, hfact⟩ := (hworn id _).mp ⟨job, hjob, rfl⟩
  obtain ⟨a, ha, -⟩ := (hF n hn).incident
  have hid : job.incidentID = n.incidentID := congrArg JobFact.incidentID hfact.symm
  obtain ⟨settled, hsettled, -⟩ := Option.bind_eq_some_iff.mp ha
  obtain ⟨i, hi, -⟩ := Option.map_eq_some_iff.mp hsettled
  have hlookup : (restore eng.interface after worn observed).incidents.lookup n.incidentID
      = some i := by
    rw [← hview] at hi
    exact hi
  rw [hid]
  exact Finmap.mem_of_lookup_eq_some hlookup

/-- **`Rebuild` brings the jobs back**: those that were left, and those the incidents call for. -/
lemma records_restore_below (after : RebuildOrders)
    (horderly : Orderly w.history) (hfinal : Consistent eng (w.settle now))
    (hlater : ∀ n, Expected eng.interface w.history n →
      Expected eng.interface (w.settle now).history n)
    (hobserved : Records observed.jobs (Expected eng.interface observed.view.history))
    {F : Notice → Prop} (hF : ∀ n, F n → Expected eng.interface (w.settle now).history n)
    (hworn : Records worn.jobs F) :
    Records (restore eng.interface after worn observed).jobs fun n =>
      F n ∨ Expected eng.interface w.history n := by
  have hview := view_restore_below hbelow hconsistent hw hincidents after
  have hG := hfinal.distinct_expected
  have hlower : ∀ n, Expected eng.interface observed.view.history n →
      Expected eng.interface w.history n := fun n hn => hn.continue (hbelow.continues _)
  have hcopied := hworn.restoreJobs after.jobs hobserved hG hF
    (fun n hn => hlater n (hlower n hn))
    (mem_restored hbelow hconsistent hw hincidents after hF hworn)
  have hcons : Consistent eng (restore eng.interface after worn observed).view := by
    rw [hview]
    exact hw
  have hderived := records_deriveAll hcons hG (by rw [hview]; exact horderly)
    (by rw [hview]; exact hlater) after hcopied ?_
  · refine hderived.congr fun n => ?_
    rw [hview]
    constructor
    · rintro ((hn | hn) | hn)
      · exact Or.inl hn
      · exact Or.inr (hlower n hn)
      · exact Or.inr hn
    · rintro (hn | hn)
      · exact Or.inl (Or.inl hn)
      · exact Or.inr hn
  · rintro n (hn | hn)
    · exact hF n hn
    · exact hlater n (hlower n hn)

end

/-- **Rebuilding agrees with live processing.**  Let the live engine apply observations whose times
do not decrease and then tick at a time after all of them.  Rebuilding from the same observations,
with flags that say at most as much, in a state that has lost some of the jobs or delivered some,
and then ticking at that time, gives the same trackers, the same incidents and jobs that say the
same; and every job that was there is as it was. -/
theorem rebuild_agrees (eng : Engine) (hids : eng.ids.Injective) (os os' : List Observation)
    (hos : List.Forall₂ Observation.Below os' os)
    (htimes : (eng.evidenceTimes os).Pairwise (· ≤ ·)) (now : Time)
    (hnow : ∀ t ∈ eng.evidenceTimes os, t ≤ now)
    (orders orders' : ℕ → Schedule) (tickOrders tickOrders' : Schedule) (after : RebuildOrders)
    (cursors cursors' : Dict String Cursor) (checkpointAt checkpointAt' : Time)
    (o₁ o₂ o₃ o₄ : SaveOutcome) (svc : Service) :
    let live := (Service.run eng {} [.apply orders os cursors checkpointAt o₁,
      .tick tickOrders now o₂]).state
    Worn live svc.state →
    let rebuilt := (svc.run eng [.rebuild orders' after os' cursors' checkpointAt' o₃,
      .tick tickOrders' now o₄]).state
    rebuilt.trackers = live.trackers ∧ rebuilt.incidents = live.incidents ∧
      (∀ key fact, (∃ job, rebuilt.jobs.lookup key = some job ∧ job.fact = fact) ↔
        ∃ job, live.jobs.lookup key = some job ∧ job.fact = fact) ∧
      Keeps svc.state.jobs rebuilt.jobs := by
  intro live hworn rebuilt
  obtain ⟨at_, hat⟩ := exists_before (eng.evidenceTimes os ++ [now])
  have hpairwise : (eng.evidenceTimes os ++ [now]).Pairwise (· ≤ ·) := by
    refine List.pairwise_append.mpr ⟨htimes, List.pairwise_singleton _ _, fun t ht t' ht' => ?_⟩
    rw [List.mem_singleton.mp ht']
    exact hnow t ht
  -- the live engine after the observations, and after the tick
  have hnew : Timely eng at_ (({} : Service).state) := .of_empty hids at_ rfl rfl
  obtain ⟨later, -, hlater, happlied⟩ := hnew.observeAll orders os hpairwise hat
  set applied : Snapshot := { observeAll eng orders os (({} : Service).state) with
    cursors, bootstrapped := true, lastCheckpointAt := checkpointAt } with happlied_eq
  replace happlied : Timely eng later applied :=
    ⟨happlied.consistent, happlied.rest, happlied.orderly, happlied.outbox⟩
  have hle : later ≤ now := hlater now (List.mem_singleton_self now)
  set w : View := os.foldl (View.take eng) ⟨fun _ => none, fun _ => none⟩
  have hw : applied.view = w := (view_observeAll orders os hnew.consistent).1
  have hlive_eq : live = (advance eng.interface tickOrders now applied).1 := by
    simp only [live, Service.run, List.foldl_cons, List.foldl_nil, Service.call,
      Service.tick_state, Service.apply_state, happlied_eq]
  have hticked : Timely eng now live := by
    rw [hlive_eq]
    exact happlied.advance tickOrders hle le_rfl fun _ _ _ _ hdue => hdue
  have hlive : live.view = w.settle now := by
    rw [hlive_eq, ← hw]
    exact advance_view happlied.consistent tickOrders
  have hordered : Ordered eng.interface w ∧ Orderly w.history := by
    rw [← hw]
    exact ⟨happlied.rest.ordered happlied.consistent, happlied.orderly⟩
  have hwcons : Consistent eng w := by
    rw [← hw]
    exact happlied.consistent
  have hsettled : Consistent eng (w.settle now) := by
    rw [← hlive]
    exact hticked.consistent
  have hkept := (chronology_settle happlied.consistent (by rw [hw]; exact hordered.1)
    happlied.orderly now).2.2
  rw [hw] at hkept
  -- what is observed anew
  set observed := observeAll eng orders' os' (emptySnapshot cursors' checkpointAt')
  have hempty : Timely eng at_ (emptySnapshot cursors' checkpointAt') := .of_empty hids at_ rfl rfl
  obtain ⟨_, -, -, hobserved⟩ := hempty.observeAll orders' os'
    (by rw [evidenceTimes_below hos]; exact hpairwise)
    (by rw [evidenceTimes_below hos]; exact hat)
  have hbelow : View.Below observed.view w := by
    rw [(view_observeAll orders' os' hempty.consistent).1]
    exact View.Below.empty.takeAll eng hos
  -- what is restored
  have hincidents : ∀ id, svc.state.incidents.lookup id = (w.settle now).incidents id := by
    intro id
    rw [hworn.incidents_eq, ← hlive]
    rfl
  set restored := restore eng.interface after svc.state observed
  have hrestored : restored.view = w :=
    view_restore_below hbelow hobserved.consistent hwcons hincidents after
  have houtbox : Records live.jobs (Expected eng.interface (w.settle now).history) := by
    rw [← hlive]
    exact hticked.outbox
  have hleft := hworn.records hsettled.distinct_expected houtbox
  have hjobs := records_restore_below hbelow hobserved.consistent hwcons hincidents after hordered.2
    hsettled hkept hobserved.outbox (fun n hn => hn.1) hleft
  -- what the tick adds
  have hrebuilt_eq : rebuilt = (advance eng.interface tickOrders' now restored).1 := by
    simp only [rebuilt, Service.run, List.foldl_cons, List.foldl_nil, Service.call,
      Service.tick_state, Service.rebuild_state, restored, observed]
  have hrestored_cons : Consistent eng restored.view := by
    rw [hrestored]
    exact hwcons
  have hview : rebuilt.view = live.view := by
    rw [hrebuilt_eq, advance_view hrestored_cons tickOrders', hrestored, hlive]
  have hrecords : Records rebuilt.jobs (Expected eng.interface (w.settle now).history) := by
    rw [hrebuilt_eq, ← hrestored]
    refine records_advance hrestored_cons (by rw [hrestored]; exact hordered.1)
      (by rw [hrestored]; exact hordered.2) now tickOrders' ?_ (by rw [hrestored]; exact hjobs)
    rw [hrestored]
    exact fun n hn => hn.1
  refine ⟨(eq_of_view_eq hview).1, (eq_of_view_eq hview).2, fun key fact => ?_, ?_⟩
  · rw [hrecords key fact, houtbox key fact]
  · rw [hrebuilt_eq]
    refine Keeps.trans ?_ (keeps_advance eng.interface tickOrders' now restored)
    have hmem := mem_restored hbelow hobserved.consistent hwcons hincidents after (fun n hn => hn.1)
      hleft
    exact Keeps.trans (fun id job hjob => lookup_restoreJobs_of_mem _ _ hjob (hmem id job hjob))
      (keeps_deriveAll _ _ _ _ _ _)

/-- The small run, rebuilt with `wan` no longer eligible. -/
theorem rebuild_agrees_wanDown :
    let live := (Service.run sampleEngine {} [.apply (fun _ => sortedSchedule) [wanDown] ∅ 1000000000
      none, .tick sortedSchedule 61000000000 none]).state
    let rebuilt := ((⟨live, none⟩ : Service).run sampleEngine
      [.rebuild (fun _ => sortedSchedule) sortedRebuild [{ wanDown with notifyEligible := false }] ∅
        61000000000 none, .tick sortedSchedule 61000000000 none]).state
    rebuilt.trackers = live.trackers ∧ rebuilt.incidents = live.incidents ∧
      (∀ key fact, (∃ job, rebuilt.jobs.lookup key = some job ∧ job.fact = fact) ↔
        ∃ job, live.jobs.lookup key = some job ∧ job.fact = fact) ∧
      Keeps live.jobs rebuilt.jobs := by
  have htimes : sampleEngine.evidenceTimes [wanDown] = [1000000000] := by rfl
  refine rebuild_agrees sampleEngine sampleIDs_injective [wanDown]
    [{ wanDown with notifyEligible := false }] (.cons ⟨rfl, rfl, by simp⟩ .nil) ?_ 61000000000 ?_
    (fun _ => sortedSchedule) (fun _ => sortedSchedule) sortedSchedule sortedSchedule sortedRebuild
    ∅ ∅ 1000000000 61000000000 none none none none _ ⟨rfl, rfl, fun id job hjob => ⟨job, hjob, rfl⟩⟩
  · rw [htimes]
    decide
  · rw [htimes]
    decide

end Logthing
