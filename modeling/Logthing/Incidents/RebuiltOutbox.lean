import Logthing.Incidents.Outbox
import Logthing.Incidents.Rebuilding

/-!
# The outbox that `Rebuild` derives

`Rebuild` derives the outbox from the finished incidents, where `advanceLocked` has enqueued it in
the order of events.  `records_deriveAll` says that the derived jobs are those of the same notices:
all that the history calls for.
-/

namespace Logthing

/-! ## Jobs that are copied -/

/-- The jobs copied from the state before: they take the place of those that were derived. -/
lemma Records.restoreJobs (order : Traversal String) {incidents : Dict String Incident}
    {previous jobs : Dict String NotificationJob} {F' F G : Notice → Prop}
    (hprevious : Records previous F') (h : Records jobs F) (hG : Distinct G)
    (hF' : ∀ n, F' n → G n) (hF : ∀ n, F n → G n)
    (hmem : ∀ id job, previous.lookup id = some job → job.incidentID ∈ incidents) :
    Records (restoreJobs order incidents previous jobs) fun n => F' n ∨ F n := by
  have hlookup : ∀ key, (Logthing.restoreJobs order incidents previous jobs).lookup key
      = (previous.lookup key).or (jobs.lookup key) := by
    intro key
    rw [lookup_restoreJobs]
    cases hjob : previous.lookup key with
    | none => rfl
    | some job => simp [Option.filter, hmem key job hjob]
  intro key fact
  rw [hlookup key]
  cases hjob : previous.lookup key with
  | none =>
      simp only [Option.none_or]
      rw [h key fact]
      constructor
      · rintro ⟨n, hn, hid, rfl⟩
        exact ⟨n, Or.inr hn, hid, rfl⟩
      · rintro ⟨n, hn | hn, hid, rfl⟩
        · obtain ⟨job, hjob', -⟩ := (hprevious key _).mpr ⟨n, hn, hid, rfl⟩
          rw [hjob] at hjob'
          cases hjob'
        · exact ⟨n, hn, hid, rfl⟩
  | some job =>
      obtain ⟨m, hm, hmid, hmfact⟩ := (hprevious key _).mp ⟨job, hjob, rfl⟩
      simp only [Option.some_or, Option.some.injEq, exists_eq_left']
      constructor
      · rintro rfl
        exact ⟨m, Or.inl hm, hmid, hmfact⟩
      · rintro ⟨n, hn, hid, rfl⟩
        have hsame : m = n := hG (hF' m hm) (hn.elim (hF' n) (hF n)) (hmid.trans hid.symm)
        rw [← hmfact, hsame]

/-! ## Jobs that are derived -/

/-- When an outage of the primary interface begins while a fallback's lasts. -/
lemma laterPrimary_eq_some {interface : String} {incident primary : Incident} {activated at_ : Time} :
    incident.laterPrimary interface activated primary = some at_ ↔
      ∃ p, primary.activation = some p ∧ p.activatedAt = at_ ∧ p.hostname = incident.hostname ∧
        p.interface = interface ∧ activated < at_ ∧
        ∀ r, incident.resolvedAt = some r → at_ < r := by
  simp only [Incident.laterPrimary, Option.filter_eq_some_iff, Bool.and_eq_true, decide_eq_true_eq,
    Option.all_eq_true, Incident.activation, Option.map_eq_some_iff]
  constructor
  · rintro ⟨hat, ⟨⟨hhost, hinterface⟩, hlt⟩, hbefore⟩
    exact ⟨_, ⟨at_, hat, rfl⟩, rfl, hhost, hinterface, hlt, hbefore⟩
  · rintro ⟨_, ⟨t, hat, rfl⟩, rfl, hhost, hinterface, hlt, hbefore⟩
    exact ⟨hat, ⟨⟨hhost, hinterface⟩, hlt⟩, hbefore⟩

/-- The inner loop is a loop that enqueues notices. -/
lemma deriveEscalations_eq (interface : String) (order : Traversal String)
    (incidents : Dict String Incident) (jobs : Dict String NotificationJob) (incident : Incident)
    (activated : Time) :
    deriveEscalations interface order incidents jobs incident activated
      = (order.visit incidents).foldl (fun jobs kv =>
          if (incident.laterPrimary interface activated kv.2).isSome then
            jobs.insertNew
              (Notice.jobID ⟨incident.id, .escalated kv.2.id,
                (incident.laterPrimary interface activated kv.2).getD 0⟩)
              (Notice.job ⟨incident.id, .escalated kv.2.id,
                (incident.laterPrimary interface activated kv.2).getD 0⟩)
          else jobs) jobs := by
  rw [deriveEscalations]
  congr 1
  funext jobs kv
  cases incident.laterPrimary interface activated kv.2 with
  | none => rfl
  | some at_ => exact enqueueFallbackEscalation_eq jobs incident.id kv.2.id at_

/-- A resolved incident is announced as resolved. -/
lemma Records.deriveResolution (interface : String) (incident : Incident)
    {jobs : Dict String NotificationJob} {F G : Notice → Prop} (hrecords : Records jobs F)
    (hG : Distinct G) (hF : ∀ n, F n → G n)
    (hstate : incident.state = .resolved ↔ incident.resolvedAt ≠ none)
    (hcalled : ∀ r, incident.resolvedAt = some r → G ⟨incident.id,
      if incident.interface ≠ interface then .fallbackResolved else .resolved, r⟩) :
    Records (Logthing.deriveResolution interface jobs incident) fun n => F n ∨
      ∃ r, incident.resolvedAt = some r ∧ n = ⟨incident.id,
        if incident.interface ≠ interface then .fallbackResolved else .resolved, r⟩ := by
  rw [Logthing.deriveResolution]
  cases hr : incident.resolvedAt with
  | none => exact hrecords.congr fun n => by simp
  | some r =>
      have hresolved : incident.state = .resolved := hstate.mpr (by simp [hr])
      simp only [if_pos hresolved, announceResolution]
      set n₀ : Notice := ⟨incident.id,
        if incident.interface ≠ interface then .fallbackResolved else .resolved, r⟩ with hn₀
      have henqueue : enqueue jobs incident.id
          (if incident.interface ≠ interface then .fallbackResolved else .resolved) r
          = jobs.insertNew n₀.jobID n₀.job := by
        rw [← enqueue_eq, hn₀]
        · split_ifs <;> rfl
        · rw [hn₀]
          split_ifs <;> rfl
      rw [henqueue]
      refine (hrecords.insertNew hG hF (hcalled r hr)).congr fun n => or_congr_right ?_
      constructor
      · rintro rfl
        exact ⟨r, rfl, rfl⟩
      · rintro ⟨r', hr', rfl⟩
        rw [← Option.some.inj hr']

section

variable {eng : Engine} {s : Snapshot} (h : Consistent eng s.view)

include h

lemma found_of_lookup {id : String} {x : Incident} {p : Activation}
    (hx : s.incidents.lookup id = some x) (hp : x.activation = some p) :
    s.view.history id = some p ∧ x.id = id := by
  refine ⟨?_, (h.wellFormed hx).id_eq⟩
  rw [View.history]
  exact Option.bind_eq_some_iff.mpr ⟨x, hx, hp⟩

variable {G : Notice → Prop} (hG : Distinct G) {incident : Incident}

include hG

/-- The inner loop records the primaries that failed while a fallback was down. -/
lemma Records.deriveEscalations (order : Traversal String) {jobs : Dict String NotificationJob}
    {F : Notice → Prop} (hrecords : Records jobs F) (hF : ∀ n, F n → G n) {a : Activation}
    (ha : incident.activation = some a)
    (hcalled : ∀ pid p, s.view.history pid = some p → a.primaryOf eng.interface p →
      a.activatedAt < p.activatedAt → (∀ r, a.resolvedAt = some r → p.activatedAt < r) →
      G ⟨incident.id, .escalated pid, p.activatedAt⟩) :
    Records (Logthing.deriveEscalations eng.interface order s.incidents jobs incident a.activatedAt)
      fun n => F n ∨ ∃ pid p, s.view.history pid = some p ∧ a.primaryOf eng.interface p ∧
        a.activatedAt < p.activatedAt ∧ (∀ r, a.resolvedAt = some r → p.activatedAt < r) ∧
        n = ⟨incident.id, .escalated pid, p.activatedAt⟩ := by
  obtain ⟨activated, hactivated, rfl⟩ := Option.map_eq_some_iff.mp ha
  have hlater : ∀ {id x}, s.incidents.lookup id = some x → ∀ {t},
      incident.laterPrimary eng.interface activated x = some t →
      ∃ p, s.view.history id = some p ∧ x.id = id ∧ p.activatedAt = t ∧
        p.hostname = incident.hostname ∧ p.interface = eng.interface ∧ activated < t ∧
        ∀ r, incident.resolvedAt = some r → t < r := by
    intro id x hx t ht
    obtain ⟨p, hp, hat, hof⟩ := laterPrimary_eq_some.mp ht
    obtain ⟨hid, hxid⟩ := found_of_lookup h hx hp
    exact ⟨p, hid, hxid, hat, hof⟩
  rw [deriveEscalations_eq]
  refine (hrecords.foldl (fun kv : String × Incident =>
      (incident.laterPrimary eng.interface activated kv.2).isSome)
    (fun kv => ⟨incident.id, .escalated kv.2.id,
      (incident.laterPrimary eng.interface activated kv.2).getD 0⟩) hG hF
    fun kv hkv hsome => ?_).congr fun n => or_congr_right ⟨?_, ?_⟩
  · obtain ⟨t, ht⟩ := Option.isSome_iff_exists.mp hsome
    obtain ⟨p, hid, hxid, rfl, hhost, hinterface, hlt, hbefore⟩ :=
      hlater ((order.mem_visit _ _ _).mp hkv) ht
    rw [ht, hxid]
    exact hcalled _ p hid ⟨hhost, hinterface⟩ hlt hbefore
  · rintro ⟨kv, hkv, hsome, rfl⟩
    obtain ⟨t, ht⟩ := Option.isSome_iff_exists.mp hsome
    obtain ⟨p, hid, hxid, rfl, hhost, hinterface, hlt, hbefore⟩ :=
      hlater ((order.mem_visit _ _ _).mp hkv) ht
    exact ⟨kv.1, p, hid, ⟨hhost, hinterface⟩, hlt, hbefore, by rw [ht, hxid]; rfl⟩
  · rintro ⟨pid, p, hpid, hof, hlt, hbefore, rfl⟩
    obtain ⟨x, hx, hp⟩ := Option.bind_eq_some_iff.mp hpid
    have ht : incident.laterPrimary eng.interface activated x = some p.activatedAt :=
      laterPrimary_eq_some.mpr ⟨p, hp, rfl, hof.1, hof.2, hlt, hbefore⟩
    refine ⟨(pid, x), (order.mem_visit _ _ _).mpr hx, by rw [ht]; rfl, ?_⟩
    rw [ht, (h.wellFormed hx).id_eq]
    rfl

variable (horderly : Orderly s.view.history)
  (hexpected : ∀ n, Expected eng.interface s.view.history n → G n)

include horderly hexpected

/-- **A turn of the last loop records what the history calls for of one incident.** -/
lemma records_deriveJobs {id : String} (hi : s.incidents.lookup id = some incident)
    (primary later : Traversal String) {jobs : Dict String NotificationJob} {F : Notice → Prop}
    (hrecords : Records jobs F) (hF : ∀ n, F n → G n) :
    Records (deriveJobs eng.interface primary later s.incidents jobs incident) fun n =>
      F n ∨ (Expected eng.interface s.view.history n ∧ n.incidentID = id) := by
  have hwf := h.wellFormed hi
  obtain rfl : incident.id = id := hwf.id_eq
  -- a silent incident calls for nothing
  have hsilent : (∀ a, incident.activation = some a → ¬ a.notify = true) → Records jobs fun n =>
      F n ∨ (Expected eng.interface s.view.history n ∧ n.incidentID = incident.id) := by
    intro hnone
    refine hrecords.congr fun n => ⟨Or.inl, ?_⟩
    rintro (hn | ⟨hn, hid⟩)
    · exact hn
    · obtain ⟨a, ha, hnotify⟩ := hn.incident
      obtain ⟨x, hx, hxa⟩ := Option.bind_eq_some_iff.mp ha
      rw [hid] at hx
      obtain rfl := Option.some.inj (hx.symm.trans hi)
      exact absurd hnotify (hnone a hxa)
  rw [deriveJobs]
  cases hat : incident.activatedAt with
  | none => exact hsilent fun a ha => by simp [Incident.activation, hat] at ha
  | some activated =>
      set a : Activation := ⟨incident.hostname, incident.interface, incident.notify, activated,
        incident.resolvedAt⟩
      have ha : incident.activation = some a := by rw [Incident.activation, hat]; rfl
      have hHa : s.view.history incident.id = some a := (found_of_lookup h hi ha).1
      by_cases hnotify : incident.notify = true
      swap
      · simp only [if_neg hnotify]
        refine hsilent fun x hx => ?_
        rw [← Option.some.inj (ha.symm.trans hx)]
        exact hnotify
      simp only [if_pos hnotify]
      by_cases hprimary : incident.interface = eng.interface
      · have hiff := expected_of_primary hHa hnotify hprimary
        have hcalled : ∀ n, n = ⟨incident.id, .opened, activated⟩ ∨
            (∃ r, incident.resolvedAt = some r ∧ n = ⟨incident.id, .resolved, r⟩) → G n :=
          fun n hn => hexpected n ((hiff n).mpr hn).1
        have hopened := hrecords.insertNew hG hF (hcalled _ (Or.inl rfl))
        have hresolved := hopened.deriveResolution eng.interface incident hG ?_ hwf.resolved
          fun r hr => ?_
        · have henqueue : announceActivation eng.interface primary s.incidents jobs incident activated
              = jobs.insertNew (Notice.jobID ⟨incident.id, .opened, activated⟩)
                (Notice.job ⟨incident.id, .opened, activated⟩) := by
            rw [announceActivation, if_neg (not_not.mpr hprimary)]
            exact enqueue_eq jobs ⟨incident.id, .opened, activated⟩ rfl
          rw [if_neg (not_not.mpr hprimary), henqueue]
          refine hresolved.congr fun n => ?_
          rw [hiff n, or_assoc, if_neg (not_not.mpr hprimary)]
        · rintro n (hn | rfl)
          · exact hF n hn
          · exact hcalled _ (Or.inl rfl)
        · rw [if_neg (not_not.mpr hprimary)]
          exact hcalled _ (Or.inr ⟨r, hr, rfl⟩)
      · have hiff := expected_of_fallback horderly hHa hnotify hprimary
        have hcalled := fun n hn => hexpected n ((hiff n).mpr hn).1
        obtain ⟨n₀, hjobs, hnotice⟩ := announceActivation_fallback (a := a) horderly hprimary rfl
          (fun hx hp _ => found_of_lookup h hx hp)
          (fun hpid _ => Option.bind_eq_some_iff.mp hpid) jobs
        rw [if_pos hprimary, hjobs]
        have hopened := hrecords.insertNew hG hF (hcalled n₀ (Or.inl ((hnotice n₀).mpr rfl)))
        have hresolved := hopened.deriveResolution eng.interface incident hG ?_ hwf.resolved
          fun r hr => ?_
        · have hescalated := hresolved.deriveEscalations h hG later ?_ ha ?_
          · refine hescalated.congr fun n => ?_
            rw [hiff n, hnotice n, if_pos hprimary, or_assoc, or_assoc]
          · rintro n ((hn | rfl) | ⟨r, hr, rfl⟩)
            · exact hF n hn
            · exact hcalled _ (Or.inl ((hnotice n).mpr rfl))
            · rw [if_pos hprimary]
              exact hcalled _ (Or.inr (Or.inl ⟨r, hr, rfl⟩))
          · intro pid p hpid hof hlt hbefore
            exact hcalled _ (Or.inr (Or.inr ⟨pid, p, hpid, hof, hlt, hbefore, rfl⟩))
        · rintro n (hn | rfl)
          · exact hF n hn
          · exact hcalled _ (Or.inl ((hnotice n).mpr rfl))
        · rw [if_pos hprimary]
          exact hcalled _ (Or.inr (Or.inl ⟨r, hr, rfl⟩))

/-- The last loop records what the history calls for of the incidents it visits. -/
lemma records_deriveAll_list {orders : RebuildOrders} {l : List (String × Incident)}
    (hl : ∀ kv ∈ l, s.incidents.lookup kv.1 = some kv.2) (n : ℕ)
    {jobs : Dict String NotificationJob} {F : Notice → Prop} (hrecords : Records jobs F)
    (hF : ∀ n, F n → G n) :
    Records (deriveAll eng.interface orders s.incidents n l jobs) fun n =>
      F n ∨ (Expected eng.interface s.view.history n ∧ ∃ kv ∈ l, n.incidentID = kv.1) := by
  induction l generalizing n jobs F with
  | nil => exact hrecords.congr fun n => by simp
  | cons kv l ih =>
      have hturn := records_deriveJobs h hG horderly hexpected (hl kv List.mem_cons_self)
        (orders.primary n) (orders.later n) hrecords hF
      have hrest := ih (fun kv hkv => hl kv (List.mem_cons_of_mem _ hkv)) (n + 1) hturn ?_
      · refine hrest.congr fun n => ?_
        simp only [List.mem_cons, exists_eq_or_imp, and_or_left, or_assoc]
      · rintro n (hn | ⟨hn, -⟩)
        · exact hF n hn
        · exact hexpected n hn

/-- **The last loop of `Rebuild` records what the history calls for.** -/
theorem records_deriveAll (orders : RebuildOrders) {jobs : Dict String NotificationJob}
    {F : Notice → Prop} (hrecords : Records jobs F) (hF : ∀ n, F n → G n) :
    Records (deriveAll eng.interface orders s.incidents 0 (orders.outbox.visit s.incidents) jobs)
      fun n => F n ∨ Expected eng.interface s.view.history n := by
  have hl : ∀ kv ∈ orders.outbox.visit s.incidents, s.incidents.lookup kv.1 = some kv.2 :=
    fun kv hkv => (orders.outbox.mem_visit _ _ _).mp hkv
  refine (records_deriveAll_list h hG horderly hexpected hl 0 hrecords hF).congr fun n =>
    or_congr_right ⟨fun hn => hn.1, fun hn => ⟨hn, ?_⟩⟩
  obtain ⟨a, ha, -⟩ := hn.incident
  obtain ⟨x, hx, -⟩ := Option.bind_eq_some_iff.mp ha
  exact ⟨(n.incidentID, x), (orders.outbox.mem_visit _ _ _).mpr hx, rfl⟩

end

end Logthing
