import Logthing.Incidents.Chronology
import Logthing.Core.Text

/-!
# Jobs and notices

A job is a notice with its delivery.  `Records` says that an outbox holds the jobs of given notices
and no others; enqueueing, one notice or those of a loop, adds to them (`Records.insertNew`,
`Records.foldl`).  The loops of the engine over the incidents are read off the history here as
well.

**Main results.**  `distinct_expected`: no two notices that a history calls for share a job.
-/

namespace Logthing

/-! ## Jobs as records of notices -/

/-- The kind of the job about an occasion. -/
def Occasion.kind : Occasion → NotificationKind
  | .opened => .opened
  | .resolved => .resolved
  | .fallbackOpened => .fallbackOpened
  | .fallbackResolved => .fallbackResolved
  | .escalated _ => .fallbackEscalated

/-- What follows the incident in the ID of the job. -/
def Occasion.suffix : Occasion → String
  | .escalated primaryID => NotificationKind.fallbackEscalated.text ++ ":" ++ primaryID
  | occasion => occasion.kind.text

/-- The ID of the job about a notice. -/
def Notice.jobID (n : Notice) : String := n.incidentID ++ ":" ++ n.occasion.suffix

/-- What a job says, its delivery apart. -/
structure JobFact where
  id : String
  incidentID : String
  kind : NotificationKind
  createdAt : Time

def NotificationJob.fact (job : NotificationJob) : JobFact :=
  ⟨job.id, job.incidentID, job.kind, job.createdAt⟩

/-- The job about a notice, when it is new. -/
def Notice.job (n : Notice) : NotificationJob where
  id := n.jobID
  incidentID := n.incidentID
  kind := n.occasion.kind
  createdAt := n.at_
  nextAt := n.at_

def Notice.fact (n : Notice) : JobFact := n.job.fact

/-- **The jobs record the notices** `F`: under each ID there is the job of the notice with that
ID, if there is one. -/
def Records (jobs : Dict String NotificationJob) (F : Notice → Prop) : Prop :=
  ∀ key fact, (∃ job, jobs.lookup key = some job ∧ job.fact = fact) ↔
    ∃ n, F n ∧ n.jobID = key ∧ n.fact = fact

/-- No two of the notices share a job. -/
def Distinct (F : Notice → Prop) : Prop := ∀ ⦃n n'⦄, F n → F n' → n.jobID = n'.jobID → n = n'

namespace Records

variable {jobs : Dict String NotificationJob} {F F' G : Notice → Prop} {n : Notice}

lemma congr (h : Records jobs F) (hF : ∀ n, F n ↔ F' n) : Records jobs F' := by
  intro key fact
  rw [h key fact]
  exact exists_congr fun n => and_congr_left' (hF n)

/-- A notice that has its job is recorded. -/
lemma of_mem (h : Records jobs F) (hG : Distinct G) (hF : ∀ m, F m → G m) (hn : G n)
    (hmem : n.jobID ∈ jobs) : F n := by
  obtain ⟨job, hjob⟩ := Finmap.mem_iff.mp hmem
  obtain ⟨m, hm, hid, -⟩ := (h _ _).mp ⟨job, hjob, rfl⟩
  rw [← hG (hF m hm) hn hid]
  exact hm

/-- **Enqueueing a notice** records it. -/
lemma insertNew (h : Records jobs F) (hG : Distinct G) (hF : ∀ m, F m → G m) (hn : G n) :
    Records (jobs.insertNew n.jobID n.job) fun m => F m ∨ m = n := by
  by_cases hmem : n.jobID ∈ jobs
  · have hrecorded : F n := h.of_mem hG hF hn hmem
    have hsame : jobs.insertNew n.jobID n.job = jobs := by rw [Dict.insertNew, if_pos hmem]
    rw [hsame]
    refine h.congr fun m => ⟨Or.inl, ?_⟩
    rintro (hm | rfl)
    · exact hm
    · exact hrecorded
  · intro key fact
    rw [Dict.lookup_insertNew]
    by_cases hkey : key = n.jobID
    · rw [if_pos ⟨hkey, hmem⟩]
      constructor
      · rintro ⟨job, hjob, rfl⟩
        rw [← Option.some.inj hjob]
        exact ⟨n, Or.inr rfl, hkey.symm, rfl⟩
      · rintro ⟨m, hm | rfl, hid, rfl⟩
        · obtain ⟨job, hjob, -⟩ := (h _ _).mpr ⟨m, hm, rfl, rfl⟩
          rw [hid, hkey] at hjob
          exact absurd (Finmap.mem_of_lookup_eq_some hjob) hmem
        · exact ⟨_, rfl, rfl⟩
    · rw [if_neg fun hboth => hkey hboth.1, h key fact]
      constructor
      · rintro ⟨m, hm, hid, rfl⟩
        exact ⟨m, Or.inl hm, hid, rfl⟩
      · rintro ⟨m, hm | rfl, hid, rfl⟩
        · exact ⟨m, hm, hid, rfl⟩
        · exact absurd hid.symm hkey

/-- Enqueueing the notices of those entries of a list that ask for one. -/
lemma foldl {α : Type} (ask : α → Bool) (notice : α → Notice) {l : List α}
    (h : Records jobs F) (hG : Distinct G) (hF : ∀ m, F m → G m)
    (hl : ∀ x ∈ l, ask x = true → G (notice x)) :
    Records (l.foldl (fun jobs x =>
        if ask x then jobs.insertNew (notice x).jobID (notice x).job else jobs) jobs)
      fun m => F m ∨ ∃ x ∈ l, ask x = true ∧ m = notice x := by
  induction l generalizing jobs F with
  | nil => exact h.congr fun m => by simp
  | cons x l ih =>
      have hl' : ∀ y ∈ l, ask y = true → G (notice y) := fun y hy => hl y (List.mem_cons_of_mem _ hy)
      rw [List.foldl_cons]
      by_cases hask : ask x = true
      · rw [if_pos hask]
        have hn := hl x List.mem_cons_self hask
        refine (ih (h.insertNew hG hF hn) ?_ hl').congr fun m => ?_
        · rintro m (hm | rfl)
          · exact hF m hm
          · exact hn
        · simp only [List.mem_cons, exists_eq_or_imp, hask, true_and, or_assoc]
      · rw [if_neg hask]
        refine (ih h hF hl').congr fun m => ?_
        simp only [List.mem_cons, exists_eq_or_imp, hask, Bool.false_eq_true, false_and, false_or]

end Records

/-! ## The IDs of jobs -/

lemma Occasion.suffix_inj {o o' : Occasion} (h : o.suffix = o'.suffix) : o = o' := by
  have hcolon : ∀ pid, ':' ∈ (Occasion.escalated pid).suffix.toList := by
    intro pid
    simp [Occasion.suffix]
  cases o with
  | escalated pid =>
      cases o' with
      | escalated pid' =>
          have hlist := congrArg String.toList h
          simp only [Occasion.suffix, String.toList_append, List.append_cancel_left_eq,
            String.toList_inj] at hlist
          rw [hlist]
      | _ =>
          have hmem := hcolon pid
          rw [h] at hmem
          exact absurd hmem (by decide)
  | _ =>
      cases o' with
      | escalated pid' =>
          have hmem := hcolon pid'
          rw [← h] at hmem
          exact absurd hmem (by decide)
      | _ => first | rfl | exact absurd h (by decide)

/-- Notices with one job are about one incident and one occasion, if the IDs of incidents have no
colon. -/
lemma Notice.jobID_inj {n n' : Notice} (hn : ':' ∉ n.incidentID.toList)
    (hn' : ':' ∉ n'.incidentID.toList) (h : n.jobID = n'.jobID) :
    n.incidentID = n'.incidentID ∧ n.occasion = n'.occasion := by
  have hlist := congrArg String.toList h
  simp only [Notice.jobID, String.toList_append] at hlist
  obtain ⟨hid, hsuffix⟩ := Text.cut_inj hn hn' (by simpa using hlist)
  exact ⟨String.toList_inj.mp hid, Occasion.suffix_inj (String.toList_inj.mp hsuffix)⟩

/-- **What a history calls for has distinct jobs.** -/
lemma distinct_expected {interface : String} {H : History}
    (hcolon : ∀ id a, H id = some a → ':' ∉ id.toList) : Distinct (Expected interface H) := by
  intro n n' h h' hid
  obtain ⟨a, ha, -⟩ := h.incident
  obtain ⟨a', ha', -⟩ := h'.incident
  obtain ⟨hincident, hoccasion⟩ := Notice.jobID_inj (hcolon _ _ ha) (hcolon _ _ ha') hid
  obtain ⟨id, o, t⟩ := n
  obtain ⟨id', o', t'⟩ := n'
  obtain rfl : id = id' := hincident
  obtain rfl : o = o' := hoccasion
  rw [h.at_unique h']

lemma enqueue_eq (jobs : Dict String NotificationJob) (n : Notice)
    (hkind : n.occasion.suffix = n.occasion.kind.text) :
    enqueue jobs n.incidentID n.occasion.kind n.at_ = jobs.insertNew n.jobID n.job := by
  rw [enqueue, Notice.job, Notice.jobID, hkind]

lemma enqueueFallbackEscalation_eq (jobs : Dict String NotificationJob) (id pid : String)
    (at_ : Time) :
    enqueueFallbackEscalation jobs id pid at_
      = jobs.insertNew (Notice.jobID ⟨id, .escalated pid, at_⟩)
          (Notice.job ⟨id, .escalated pid, at_⟩) := by
  have hid : id ++ ":" ++ NotificationKind.fallbackEscalated.text ++ ":" ++ pid
      = Notice.jobID ⟨id, .escalated pid, at_⟩ := by
    simp only [Notice.jobID, Occasion.suffix, String.append_assoc]
  rw [enqueueFallbackEscalation, hid]
  rfl

lemma Consistent.distinct_expected {eng : Engine} {v : View} (h : Consistent eng v) :
    Distinct (Expected eng.interface v.history) :=
  Logthing.distinct_expected fun _ _ => h.colonFree

/-! ## What the loops over the incidents find -/

/-- An incident lasts if it is activated and not resolved. -/
lemma Consistent.lasting_iff {eng : Engine} {v : View} (h : Consistent eng v) {id : String}
    {incident : Incident} (hi : v.incidents id = some incident) :
    (incident.state = .active ∨ incident.state = .pendingRecovery) ↔
      incident.activatedAt ≠ none ∧ incident.resolvedAt = none := by
  have hresolved := (h.wellFormed hi).resolved
  by_cases hs : incident.state = .resolved
  · simp [hs, hresolved.mp hs]
  · obtain ⟨current, hc, hopen, hid⟩ := h.named hi hs
    obtain ⟨i, hi', hagrees⟩ := h.names hc hopen
    rw [hid, hi] at hi'
    obtain rfl := Option.some.inj hi'
    have hnone : incident.resolvedAt = none := by
      by_contra hne
      exact hs (hresolved.mpr hne)
    have hstate := hagrees.state
    rw [ne_eq, hagrees.activatedAt, hnone]
    cases hphase : current.phase <;> rw [hphase] at hstate hopen <;>
      first
      | exact absurd rfl hopen
      | simp [← Option.some.inj hstate]

lemma primaryDown_iff {interface hostname : String} {at_ : Time} {incident : Incident} :
    incident.primaryDown interface hostname at_ = true ↔ ∃ p, incident.activation = some p ∧
      p.hostname = hostname ∧ p.interface = interface ∧ p.downAt at_ := by
  simp only [Incident.primaryDown, Bool.and_eq_true, decide_eq_true_eq, Option.any_eq_true,
    Option.all_eq_true, Incident.activation, Option.map_eq_some_iff]
  constructor
  · rintro ⟨⟨⟨hhost, hinterface⟩, activated, hactivated, hle⟩, hlt⟩
    exact ⟨_, ⟨activated, hactivated, rfl⟩, hhost, hinterface, hle, fun r hr => hlt r hr⟩
  · rintro ⟨_, ⟨activated, hactivated, rfl⟩, hhost, hinterface, hle, hlt⟩
    exact ⟨⟨⟨hhost, hinterface⟩, activated, hactivated, hle⟩, fun r hr => hlt r hr⟩

/-- `primaryDownAtLocked` finds an outage of the primary interface that lasts at the time. -/
lemma of_primaryDownAt_eq_some {interface hostname : String} {order : Traversal String}
    {incidents : Dict String Incident} {at_ : Time} {primary : Incident}
    (h : primaryDownAt interface order incidents hostname at_ = some primary) :
    ∃ id p, incidents.lookup id = some primary ∧ primary.activation = some p ∧
      p.hostname = hostname ∧ p.interface = interface ∧ p.downAt at_ := by
  obtain ⟨⟨id, i⟩, hfind, rfl⟩ := Option.map_eq_some_iff.mp h
  obtain ⟨hlookup, hdown⟩ := order.of_find?_visit hfind
  obtain ⟨p, hp⟩ := primaryDown_iff.mp hdown
  exact ⟨id, p, hlookup, hp⟩

/-- `primaryDownAtLocked` finds nothing only if there is none. -/
lemma of_primaryDownAt_eq_none {interface hostname : String} {order : Traversal String}
    {incidents : Dict String Incident} {at_ : Time}
    (h : primaryDownAt interface order incidents hostname at_ = none) {id : String}
    {incident : Incident} {p : Activation} (hi : incidents.lookup id = some incident)
    (hp : incident.activation = some p) (hhost : p.hostname = hostname)
    (hinterface : p.interface = interface) : ¬ p.downAt at_ := by
  intro hdown
  have hnone := (order.find?_visit_eq_none _ _).mp (Option.map_eq_none_iff.mp h) id incident hi
  rw [Bool.eq_false_iff] at hnone
  exact hnone (primaryDown_iff.mpr ⟨p, hp, hhost, hinterface, hdown⟩)

/-- **A fallback's activation is announced by one notice**, the one its history calls for: it
escalates if an outage of the primary interface lasts, and otherwise opens. -/
lemma announceActivation_fallback {interface : String} {order : Traversal String}
    {incidents : Dict String Incident} {incident : Incident} {at_ : Time} {H : History}
    (horderly : Orderly H) (hfallback : incident.interface ≠ interface) {a : Activation}
    (hhost : a.hostname = incident.hostname)
    (hfound : ∀ {id x p}, incidents.lookup id = some x → x.activation = some p →
      p.interface = interface → H id = some p ∧ x.id = id)
    (hall : ∀ {pid p}, H pid = some p → p.interface = interface →
      ∃ x, incidents.lookup pid = some x ∧ x.activation = some p)
    (jobs : Dict String NotificationJob) :
    ∃ n₀ : Notice, announceActivation interface order incidents jobs incident at_
        = jobs.insertNew n₀.jobID n₀.job ∧
      ∀ n, ((∃ pid p, H pid = some p ∧ a.primaryOf interface p ∧ p.downAt at_ ∧
            n = ⟨incident.id, .escalated pid, at_⟩) ∨
          ((∀ pid p, H pid = some p → a.primaryOf interface p → ¬ p.downAt at_) ∧
            n = ⟨incident.id, .fallbackOpened, at_⟩)) ↔ n = n₀ := by
  rw [announceActivation, if_pos hfallback]
  split
  · rename_i primary hfind
    obtain ⟨id, p, hlookup, hp, hphost, hinterface, hdown⟩ := of_primaryDownAt_eq_some hfind
    obtain ⟨hid, hprimaryID⟩ := hfound hlookup hp hinterface
    rw [enqueueFallbackEscalation_eq, hprimaryID]
    refine ⟨_, rfl, fun n => ⟨?_, ?_⟩⟩
    · rintro (⟨pid, p', hpid, hof, hdown', rfl⟩ | ⟨hnone, -⟩)
      · rw [horderly.apart hpid hid (hof.1.trans (hhost.trans hphost.symm))
          (hof.2.trans hinterface.symm) hdown' hdown]
      · exact absurd hdown (hnone id p hid ⟨hphost.trans hhost.symm, hinterface⟩)
    · rintro rfl
      exact Or.inl ⟨id, p, hid, ⟨hphost.trans hhost.symm, hinterface⟩, hdown, rfl⟩
  · rename_i hfind
    have hnone : ∀ pid p, H pid = some p → a.primaryOf interface p → ¬ p.downAt at_ := by
      intro pid p hpid hof
      obtain ⟨x, hx, hp⟩ := hall hpid hof.2
      exact of_primaryDownAt_eq_none hfind hx hp (hof.1.trans hhost) hof.2
    refine ⟨⟨incident.id, .fallbackOpened, at_⟩,
      enqueue_eq jobs ⟨incident.id, .fallbackOpened, at_⟩ rfl, fun n => ⟨?_, ?_⟩⟩
    · rintro (⟨pid, p, hpid, hof, hdown, -⟩ | ⟨-, rfl⟩)
      · exact absurd hdown (hnone pid p hpid hof)
      · rfl
    · rintro rfl
      exact Or.inr ⟨hnone, rfl⟩

/-- **`escalateFallbacksLocked` records** an escalation of every incident that asks for it. -/
lemma Records.escalateFallbacks {interface hostname primaryID : String}
    {order : Traversal String} {incidents : Dict String Incident}
    {jobs : Dict String NotificationJob} {at_ : Time} {F G : Notice → Prop} (h : Records jobs F)
    (hG : Distinct G) (hF : ∀ m, F m → G m)
    (hnew : ∀ id f, incidents.lookup id = some f → f.escalates interface hostname = true →
      G ⟨f.id, .escalated primaryID, at_⟩) :
    Records (escalateFallbacks interface order incidents jobs hostname primaryID at_) fun m =>
      F m ∨ ∃ id f, incidents.lookup id = some f ∧ f.escalates interface hostname = true ∧
        m = ⟨f.id, .escalated primaryID, at_⟩ := by
  simp only [Logthing.escalateFallbacks, enqueueFallbackEscalation_eq]
  refine (h.foldl (fun kv : String × Incident => kv.2.escalates interface hostname)
    (fun kv => ⟨kv.2.id, .escalated primaryID, at_⟩) hG hF fun kv hkv => ?_).congr fun m => ?_
  · exact hnew kv.1 kv.2 ((order.mem_visit _ _ _).mp hkv)
  · simp only [Prod.exists, order.mem_visit]

lemma Incident.escalates_iff {interface hostname : String} {incident : Incident} :
    incident.escalates interface hostname = true ↔ incident.hostname = hostname ∧
      incident.interface ≠ interface ∧ incident.notify = true ∧
      (incident.state = .active ∨ incident.state = .pendingRecovery) := by
  simp [Incident.escalates, and_assoc]

/-- The incidents that an activation of the primary interface escalates are the fallbacks' outages
that last. -/
lemma Consistent.escalates_iff {eng : Engine} {v : View} (h : Consistent eng v) {id : String}
    {hostname : String} :
    (∃ f, v.incidents id = some f ∧ f.escalates eng.interface hostname = true) ↔
      ∃ a, v.history id = some a ∧ a.notify = true ∧ a.interface ≠ eng.interface ∧
        a.hostname = hostname ∧ a.resolvedAt = none := by
  constructor
  · rintro ⟨f, hf, hescalates⟩
    obtain ⟨hhost, hinterface, hnotify, hstate⟩ := Incident.escalates_iff.mp hescalates
    obtain ⟨hactivated, hresolved⟩ := (h.lasting_iff hf).mp hstate
    obtain ⟨at_, hat⟩ := Option.ne_none_iff_exists'.mp hactivated
    refine ⟨⟨f.hostname, f.interface, f.notify, at_, f.resolvedAt⟩, ?_, hnotify, hinterface, hhost,
      hresolved⟩
    exact history_eq_some.mpr ⟨f, hf, hat, rfl, rfl, rfl, rfl⟩
  · rintro ⟨a, ha, hnotify, hinterface, hhost, hresolved⟩
    obtain ⟨f, hf, hat, hhost', hinterface', hnotify', hresolved'⟩ := history_eq_some.mp ha
    refine ⟨f, hf, Incident.escalates_iff.mpr ⟨hhost'.trans hhost, ?_, hnotify'.trans hnotify, ?_⟩⟩
    · rwa [hinterface']
    · refine (h.lasting_iff hf).mpr ⟨?_, hresolved'.trans hresolved⟩
      rw [hat]
      exact Option.some_ne_none _

end Logthing
