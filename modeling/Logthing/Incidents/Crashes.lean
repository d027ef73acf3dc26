import Logthing.Incidents.FalseAlarms
import Logthing.Incidents.Following

/-!
# Crashes and failed saves

A worker whose saves may fail and whose process may start again from what was saved last.  What it
has in memory runs ahead of the file, and after a restart it reads again, in other batches and with
other ticks in between.  Its cursors are saved with what was derived up to them, so that at any
time the state, in memory or saved, has been told exactly the records its cursors are past
(`Replayed`).

**Main results.**  `crashes_change_nothing`: once everything is read it does not matter what has
crashed or failed, if no tick lets a timer run out that unread evidence of its host comes before.
-/

namespace Logthing

/-! ## In memory and saved -/

/-- What holds of the state in memory and of the one that was saved last. -/
structure Service.Holds (P : Snapshot → Prop) (svc : Service) : Prop where
  state : P svc.state
  saved : ∃ s, svc.saved = some s ∧ P s

/-- The delivery of jobs does not matter. -/
def IgnoresDelivery (P : Snapshot → Prop) : Prop :=
  ∀ ⦃s : Snapshot⦄ ⦃jobs⦄, (∀ id, (jobs.lookup id).map NotificationJob.fact
    = (s.jobs.lookup id).map NotificationJob.fact) → P s → P { s with jobs }

namespace Service.Holds

variable {P Q : Snapshot → Prop} {svc : Service}

lemma imp (h : svc.Holds P) (himp : ∀ s, P s → Q s) : svc.Holds Q := by
  obtain ⟨s, hsaved, hP⟩ := h.saved
  exact ⟨himp _ h.state, s, hsaved, himp s hP⟩

/-- The state changes, and is saved or not. -/
lemma save (h : svc.Holds P) {state : Snapshot} (hstate : P state) (outcome : SaveOutcome) :
    (Service.save outcome { svc with state }).1.Holds P := by
  cases outcome with
  | none => exact ⟨hstate, state, rfl, hstate⟩
  | some err => exact ⟨hstate, h.saved⟩

lemma record (hP : IgnoresDelivery P) (h : svc.Holds P) (c : Courier) (d : Delivery) :
    (d.record c svc).1.Holds P := by
  rw [Delivery.record_eq, Service.markJob]
  cases hjob : svc.state.jobs.lookup d.job.id with
  | none => exact h
  | some previous =>
      have hmarked : ∀ job : NotificationJob, job.fact = previous.fact →
          ∀ id, (((svc.state.jobs.insert d.job.id job).lookup id).map NotificationJob.fact
            = (svc.state.jobs.lookup id).map NotificationJob.fact) := by
        intro job hfact id
        rw [Dict.lookup_insert_ite]
        split_ifs with hid
        · rw [hid, hjob, Option.map_some, Option.map_some, hfact]
        · rfl
      cases d.outcome with
      | none =>
          have hafter := hP (hmarked _ (d.fact_marked c previous)) h.state
          exact ⟨hafter, _, rfl, hafter⟩
      | some err =>
          refine ⟨?_, h.saved⟩
          have hback : (svc.state.jobs.insert d.job.id (d.marked c previous)).insert d.job.id previous
              = svc.state.jobs.insert d.job.id previous := Finmap.insert_insert _
          simp only [hback]
          exact hP (hmarked previous rfl) h.state

/-- **Dispatching** keeps what does not depend on the delivery of jobs. -/
lemma dispatchAll (hP : IgnoresDelivery P) (c : Courier) (now : Time) (turns : ℕ → Turn)
    (due : List NotificationJob) {svc : Service} (h : svc.Holds P) :
    (Logthing.dispatchAll c now turns due svc).1.Holds P := by
  induction due generalizing turns svc with
  | nil => exact h
  | cons job due ih =>
      rw [Logthing.dispatchAll]
      simp only
      generalize hd : (⟨job, svc.state.jobs.lookup job.id, svc.state.incidents.lookup job.incidentID,
        now, (turns 0).result, (turns 0).outcome⟩ : Delivery) = d
      have hafter := h.record hP c d
      generalize d.record c svc = recorded at hafter ⊢
      obtain ⟨after, err⟩ := recorded
      cases err with
      | some err => exact hafter
      | none => exact ih _ hafter

/-- **A tick** keeps what does not depend on the delivery of jobs, if the timers do. -/
lemma tick (hP : IgnoresDelivery P) (h : svc.Holds P) (w : Worker) (env : TickEnv) (now : Time)
    (hadvance : P (advance w.eng.interface env.orders now svc.state).1) :
    (w.tick env now svc).1.Holds P := by
  have hticked : (svc.tick w.eng env.orders now env.outcome).1.Holds P := by
    simp only [Service.tick]
    split_ifs
    · exact h.save hadvance env.outcome
    · exact ⟨hadvance, h.saved⟩
  rw [Worker.tick]
  generalize svc.tick w.eng env.orders now env.outcome = ticked at hticked ⊢
  obtain ⟨ticked, err⟩ := ticked
  cases err with
  | some err => exact hticked
  | none =>
      have hdispatched := dispatchAll hP w.courier now env.turns
        (dueNotifications env.due now ticked.state) hticked
      simp only [Service.dispatch]
      generalize Logthing.dispatchAll w.courier now env.turns _ ticked = dispatched
        at hdispatched ⊢
      obtain ⟨dispatched, log, err⟩ := dispatched
      cases err with
      | none => exact hdispatched
      | some err =>
          cases err with
          | notFound id => exact hdispatched
          | save err => exact hdispatched

end Service.Holds

/-! ## What an engine has been told -/

lemma observeAll_append {eng : Engine} (os os' : List Observation) (s : Snapshot) :
    observeAll eng (fun _ => sortedSchedule) (os ++ os') s
      = observeAll eng (fun _ => sortedSchedule) os'
        (observeAll eng (fun _ => sortedSchedule) os s) := by
  induction os generalizing s with
  | nil => rfl
  | cons o os ih => exact ih _

/-- The times at which records were received. -/
abbrev receivedTimes (records : List StoredRecord) : List Time :=
  records.map fun r => r.message.receivedAt

section

variable {records records' : List StoredRecord}

lemma pairwise_lt_sortRecords (h : (receivedTimes records).Nodup) :
    (sortRecords records).Pairwise fun a b => a.message.receivedAt < b.message.receivedAt := by
  have hnodup : (receivedTimes (sortRecords records)).Nodup :=
    (((List.mergeSort_perm records _).map _).nodup_iff).mpr h
  refine (Worker.pairwise_sortRecords records).imp₂ ?_ (List.pairwise_map.mp hnodup)
  exact fun _ _ hle hne => lt_of_le_of_ne hle hne

/-- Records of different times have one order. -/
lemma eq_of_perm_of_pairwise (hperm : records.Perm records')
    (h : records.Pairwise fun a b => a.message.receivedAt < b.message.receivedAt)
    (h' : records'.Pairwise fun a b => a.message.receivedAt < b.message.receivedAt) :
    records = records' :=
  hperm.eq_of_pairwise (fun _ _ _ _ hlt hlt' => absurd hlt (lt_asymm hlt')) h h'

lemma sortRecords_perm (hperm : records.Perm records') (h : (receivedTimes records).Nodup) :
    sortRecords records = sortRecords records' := by
  refine eq_of_perm_of_pairwise ?_ (pairwise_lt_sortRecords h) (pairwise_lt_sortRecords ?_)
  · exact ((List.mergeSort_perm _ _).trans hperm).trans (List.mergeSort_perm _ _).symm
  · exact ((hperm.map _).nodup_iff).mp h

/-- Records that come after others are sorted by themselves. -/
lemma sortRecords_append (h : (receivedTimes (records ++ records')).Nodup)
    (hbefore : ∀ a ∈ records, ∀ b ∈ records', a.message.receivedAt < b.message.receivedAt) :
    sortRecords (records ++ records') = sortRecords records ++ sortRecords records' := by
  have hboth := h
  rw [receivedTimes, List.map_append, List.nodup_append] at hboth
  refine eq_of_perm_of_pairwise ?_ (pairwise_lt_sortRecords h) (List.pairwise_append.mpr
    ⟨pairwise_lt_sortRecords hboth.1, pairwise_lt_sortRecords hboth.2.1, fun a ha b hb => ?_⟩)
  · exact (List.mergeSort_perm _ _).trans
      ((List.mergeSort_perm _ _).symm.append (List.mergeSort_perm _ _).symm)
  · exact hbefore a ((List.mergeSort_perm _ _).mem_iff.mp ha) b
      ((List.mergeSort_perm _ _).mem_iff.mp hb)

end

namespace Worker

/-- What a bootstrapped engine is told of records. -/
def news (w : Worker) (records : List StoredRecord) : List Observation :=
  observations (fun r => r.message.transport ≠ "import") (records.filter w.supported)

/-- An engine that has been told records and nothing else. -/
def told (w : Worker) (records : List StoredRecord) : Snapshot :=
  observeAll w.eng (fun _ => sortedSchedule) (w.news records) {}

section

variable {w : Worker} {records records' : List StoredRecord}

/-- A bootstrapped engine makes no difference between old and new. -/
lemma batch_eq_news {s : Snapshot} (h : s.bootstrapped = true) : w.batch s records = w.news records := by
  have heligible : w.eligible s = fun r => decide (r.message.transport ≠ "import") := by
    funext r
    simp [eligible, h]
  rw [batch, news, heligible]

lemma nodup_supported (h : (receivedTimes records).Nodup) :
    (receivedTimes (records.filter w.supported)).Nodup := by
  exact h.sublist (List.filter_sublist.map _)

lemma told_perm (hperm : records.Perm records') (h : (receivedTimes records).Nodup) :
    w.told records = w.told records' := by
  rw [told, told, news, news, observations, observations,
    sortRecords_perm (hperm.filter w.supported) (nodup_supported h)]

/-- Records that come after others are told after them. -/
lemma told_append (h : (receivedTimes (records ++ records')).Nodup)
    (hbefore : ∀ a ∈ records, ∀ b ∈ records', a.message.receivedAt < b.message.receivedAt) :
    w.told (records ++ records')
      = observeAll w.eng (fun _ => sortedSchedule) (w.news records') (w.told records) := by
  have hnodup : (receivedTimes (records.filter w.supported ++ records'.filter w.supported)).Nodup := by
    rw [← List.filter_append]
    exact nodup_supported h
  rw [told, told, ← observeAll_append, news, news, news, List.filter_append, observations,
    sortRecords_append hnodup fun a ha b hb =>
      hbefore a (List.mem_filter.mp ha).1 b (List.mem_filter.mp hb).1, List.map_append]
  rfl

lemma mem_news {o : Observation} (h : o ∈ w.news records) : ∃ r ∈ records, o.message = r.message := by
  obtain ⟨r, hr, rfl⟩ := List.mem_map.mp h
  exact ⟨r, (List.mem_filter.mp ((List.mergeSort_perm _ _).mem_iff.mp hr)).1, rfl⟩

end

end Worker

/-- **A state that has been told `done`**, up to which its cursors are, and has still to be told
`unread`. -/
structure Replayed (w : Worker) (clock : Time) (disk : Disk) (done unread : List StoredRecord)
    (s : Snapshot) : Prop where
  version_eq : s.version = 1
  bootstrapped : s.bootstrapped = true
  read : HasRead w.go disk s.cursors done unread
  stamped : ∀ r ∈ done ++ unread, r.message.receivedAt ≤ clock
  distinct : (receivedTimes (done ++ unread)).Nodup
  before : ∀ r ∈ done, ∀ r' ∈ unread, r.message.receivedAt < r'.message.receivedAt
  follows : Follows w.eng clock (unread.map StoredRecord.message) (w.told done) s

namespace Replayed

variable {w : Worker} {clock now : Time} {disk : Disk} {done unread : List StoredRecord}
  {s : Snapshot}

/-- An empty state beside an empty store. -/
lemma empty (hids : w.eng.ids.Injective) (clock checkpointAt : Time) :
    Replayed w clock Disk.empty [] [] (emptySnapshot ∅ checkpointAt) where
  version_eq := rfl
  bootstrapped := rfl
  read := .start w.go
  stamped _ hr := absurd hr List.not_mem_nil
  distinct := List.nodup_nil
  before _ hr := absurd hr List.not_mem_nil
  follows := by
    have htold : w.told [] = {} := by
      rw [Worker.told, Worker.news, List.filter_nil, Worker.observations, sortRecords,
        List.mergeSort_nil]
      rfl
    rw [htold]
    exact (Follows.empty hids clock).of_facts rfl fun _ => rfl

lemma ignoresDelivery (w : Worker) (clock : Time) (disk : Disk) :
    IgnoresDelivery fun s => ∃ done unread, Replayed w clock disk done unread s := by
  rintro s jobs hfacts ⟨done, unread, h⟩
  exact ⟨done, unread, { h with follows := h.follows.of_facts rfl hfacts }⟩

lemma later (h : Replayed w clock disk done unread s) (hle : clock ≤ now) :
    Replayed w now disk done unread s :=
  { h with
    stamped := fun r hr => (h.stamped r hr).trans hle
    follows := h.follows.mono hle fun _ hm => Or.inl hm }

/-- **An append** adds what is to be told at most. -/
lemma append (h : Replayed w clock disk done unread s) (hframed : w.go.Framed)
    (hkeeps : w.go.KeepsEvidence) {msg : Message} (hclocked : (stamp now msg).receivedAt = now)
    (hlater : clock < now) :
    ∃ unread', Replayed w now (Logthing.append w.go now .none disk msg).1 done unread' s := by
  rcases append_stores hframed disk now msg with ⟨hsame, -⟩ | ⟨record, happend, hline, hencode⟩
  · rw [hsame]
    exact ⟨unread, h.later hlater.le⟩
  rw [happend]
  have hread : HasRead w.go (disk.appended now (pathFor w.go (stamp now msg)) record) s.cursors done
      (unread ++ appendedRecord w.go disk (pathFor w.go (stamp now msg)) record) :=
    h.read.appended (isPartition_pathFor _ _) hline
  have hone := appendedRecord_length_le w.go disk (pathFor w.go (stamp now msg)) record
  have halike := forall_appendedRecord hkeeps hencode disk (pathFor w.go (stamp now msg))
  generalize appendedRecord w.go disk (pathFor w.go (stamp now msg)) record = rs
    at hread hone halike
  have hat : ∀ r ∈ rs, r.message.receivedAt = now := by
    intro r hr
    have halike := halike r hr
    simp only [Message.alike, Bool.and_eq_true, decide_eq_true_eq] at halike
    rw [← halike.1.1.1.1.2, hclocked]
  have hstamped : ∀ r ∈ done ++ unread, r.message.receivedAt < now :=
    fun r hr => (h.stamped r hr).trans_lt hlater
  refine ⟨unread ++ rs, h.version_eq, h.bootstrapped, hread, ?_, ?_, ?_, ?_⟩
  · rw [← List.append_assoc, List.forall_mem_append]
    exact ⟨fun r hr => (hstamped r hr).le, fun r hr => (hat r hr).le⟩
  · rw [← List.append_assoc, receivedTimes, List.map_append, List.nodup_append]
    refine ⟨h.distinct, ?_, ?_⟩
    · cases rs with
      | nil => exact List.nodup_nil
      | cons r rest =>
          obtain rfl : rest = [] := List.eq_nil_of_length_eq_zero (by simpa using hone)
          exact List.nodup_singleton _
    · intro t ht t' ht'
      obtain ⟨r, hr, rfl⟩ := List.mem_map.mp ht
      obtain ⟨r', hr', rfl⟩ := List.mem_map.mp ht'
      rw [hat r' hr']
      exact (hstamped r hr).ne
  · intro r hr r' hr'
    rcases List.mem_append.mp hr' with hr' | hr'
    · exact h.before r hr r' hr'
    · rw [hat r' hr']
      exact hstamped r (List.mem_append_left _ hr)
  · refine h.follows.mono hlater.le fun m hm => ?_
    rw [List.map_append, List.mem_append] at hm
    rcases hm with hm | hm
    · exact Or.inl hm
    · obtain ⟨r, hr, rfl⟩ := List.mem_map.mp hm
      exact Or.inr (hlater.le.trans (hat r hr).ge)

/-- **A tick** that lets no timer run out before evidence of its host that is to be told. -/
lemma advance (h : Replayed w clock disk done unread s) (hnul : '\x00' ∉ w.eng.interface.toList)
    (orders : Schedule) (hclock : clock ≤ now)
    (hpatient : ∀ ⦃hostname key current⦄, s.view.trackers key = some current →
      HostKey w.eng hostname key → current.pending = true → current.deadline w.eng ≤ now →
      ∀ r ∈ unread, r.message.moves w.eng hostname = true →
        current.deadline w.eng ≤ r.message.receivedAt) :
    Replayed w now disk done unread (Logthing.advance w.eng.interface orders now s).1 := by
  obtain ⟨trackers, incidents, jobs, hframe⟩ := advance_frame w.eng.interface orders now s
  refine ⟨?_, ?_, ?_, fun r hr => (h.stamped r hr).trans hclock, h.distinct, h.before, ?_⟩
  · rw [hframe]
    exact h.version_eq
  · rw [hframe]
    exact h.bootstrapped
  · rw [hframe]
    exact h.read
  · refine h.follows.advance hnul orders hclock fun hostname key current hc hkey hpending hdue m hm => ?_
    obtain ⟨r, hr, rfl⟩ := List.mem_map.mp hm
    exact hpatient hc hkey hpending hdue r hr

/-- **What a reconcile derives** it has been told. -/
lemma derive (h : Replayed w clock disk done unread s) (hnul : '\x00' ∉ w.eng.interface.toList)
    (hclock : clock ≤ now) {visited : List StoredRecord} {next : Dict String Cursor}
    (hperm : visited.Perm unread) (hread : HasRead w.go disk next (done ++ visited) [])
    (orders : ℕ → Schedule) :
    Replayed w now disk (done ++ visited) []
      { observeAll w.eng orders (w.batch s visited) s with
        cursors := next, bootstrapped := true, lastCheckpointAt := now } := by
  have hall : (done ++ visited).Perm (done ++ unread) := hperm.append_left done
  have hdistinct : (receivedTimes (done ++ visited)).Nodup := ((hall.map _).nodup_iff).mpr h.distinct
  have hbefore : ∀ r ∈ done, ∀ r' ∈ visited, r.message.receivedAt < r'.message.receivedAt :=
    fun r hr r' hr' => h.before r hr r' (hperm.mem_iff.mp hr')
  obtain ⟨trackers, incidents, jobs, hframe⟩ := observeAll_frame w.eng orders (w.batch s visited) s
  refine ⟨?_, rfl, hread, fun r hr => ?_, ?_, fun _ _ _ hr => absurd hr List.not_mem_nil, ?_⟩
  · rw [hframe]
    exact h.version_eq
  · rw [List.append_nil] at hr
    exact (h.stamped r (hall.mem_iff.mp hr)).trans hclock
  · rw [List.append_nil]
    exact hdistinct
  have hunread : Follows w.eng now ((w.news visited).map Observation.message) (w.told done) s := by
    refine h.follows.mono hclock fun m hm => Or.inl ?_
    obtain ⟨o, ho, rfl⟩ := List.mem_map.mp hm
    obtain ⟨r, hr, hmessage⟩ := Worker.mem_news ho
    rw [hmessage]
    exact List.mem_map_of_mem (hperm.mem_iff.mp hr)
  have hnews : w.batch s visited = w.news visited := Worker.batch_eq_news h.bootstrapped
  have hobserved := hunread.observeAll hnul (w.news visited) (fun o ho => ?_)
    (by rw [← hnews]; exact Worker.pairwise_batch w s visited) orders fun _ => sortedSchedule
  · rw [hnews, Worker.told_append hdistinct hbefore]
    exact hobserved.of_facts rfl fun _ => rfl
  · obtain ⟨r, hr, hmessage⟩ := Worker.mem_news ho
    rw [hmessage]
    exact (h.stamped r (List.mem_append_right _ (hperm.mem_iff.mp hr))).trans hclock

/-- What a reconcile reads of a store that is only appended to. -/
lemma read_eq (h : Replayed w clock disk done unread s) {env : ReconcileEnv} {reading : Reading}
    (hreading : w.read env disk s.cursors = .ok reading) :
    ∃ visited next, visited.Perm unread ∧ HasRead w.go disk next (done ++ visited) [] ∧
      reading = .news (visited.filter w.supported) next := by
  rw [Worker.read] at hreading
  cases hfault : env.fault with
  | some cause =>
      rw [hfault] at hreading
      cases hreading
  | none =>
      rw [hfault] at hreading
      rcases h.read.visit env.order with
        ⟨key, at_, cause, hvisit⟩ | ⟨-, visited, next, hvisit, hperm, hread⟩
      · rw [hvisit] at hreading
        cases hreading
      · rw [hvisit] at hreading
        exact ⟨visited, next, hperm, hread, (Except.ok.inj hreading).symm⟩

/-- **A reconcile that succeeds** leaves an engine that has been told everything and has let timers
run until then. -/
lemma reconciled {svc : Service} (h : Replayed w clock disk done unread svc.state)
    (hnul : '\x00' ∉ w.eng.interface.toList) (hclock : clock ≤ now) (env : ReconcileEnv)
    (hdone : (w.reconcile env disk now svc).2 = none) :
    Consistent w.eng (w.reconcile env disk now svc).1.state.view ∧ ∀ hostname,
      RunUntil w.eng hostname now (w.told (storedRecords w.go disk))
        (w.reconcile env disk now svc).1.state := by
  rw [Worker.reconcile] at hdone ⊢
  cases hreading : w.read env disk svc.state.cursors with
  | error err =>
      rw [hreading] at hdone
      cases hdone
  | ok reading =>
      obtain ⟨visited, next, hperm, hread, rfl⟩ := h.read_eq hreading
      have hderived := h.derive hnul hclock hperm hread env.orders
      have hstate : (w.derive env now svc (.news (visited.filter w.supported) next)).1.state
          = { observeAll w.eng env.orders (w.batch svc.state visited) svc.state with
              cursors := next, bootstrapped := true, lastCheckpointAt := now } :=
        Service.apply_state _ _ _ _ _ _ _
      rw [← hstate] at hderived
      rw [hreading] at hdone
      simp only at hdone ⊢
      generalize w.derive env now svc (.news (visited.filter w.supported) next) = derived
        at hderived hdone ⊢
      obtain ⟨derived, err⟩ := derived
      cases err with
      | some err => cases hdone
      | none =>
          obtain ⟨jobs, hticked, hfacts⟩ := w.tick_state env.tick now derived
          simp only [hticked]
          refine ⟨hderived.follows.consistent.advance env.tick.orders, fun hostname => ?_⟩
          have htold : w.told (storedRecords w.go disk) = w.told (done ++ visited) := by
            have hall := hread.stored
            rw [List.append_nil] at hall
            refine (Worker.told_perm hall.symm ?_).symm
            have hdistinct := hderived.distinct
            rwa [List.append_nil] at hdistinct
          rw [htold]
          exact (hderived.follows.advance_runUntil hnul env.tick.orders le_rfl hostname).of_facts rfl
            hfacts

end Replayed

/-! ## Steps -/

/-- **A service that follows the store**, in memory and on disk. -/
def Worker.KeepsUp (w : Worker) (clock : Time) (disk : Disk) (svc : Service) : Prop :=
  svc.Holds fun s => ∃ done unread, Replayed w clock disk done unread s

namespace Worker.KeepsUp

variable {w : Worker} {clock now : Time} {disk : Disk} {svc : Service}

lemma later (h : w.KeepsUp clock disk svc) (hle : clock ≤ now) : w.KeepsUp now disk svc :=
  h.imp fun _ ⟨done, unread, hreplayed⟩ => ⟨done, unread, hreplayed.later hle⟩

/-- **A reconcile** that fails in reading, in saving or later, or succeeds. -/
lemma reconcile (h : w.KeepsUp clock disk svc) (hnul : '\x00' ∉ w.eng.interface.toList)
    (hclock : clock ≤ now) (env : ReconcileEnv) :
    w.KeepsUp now disk (w.reconcile env disk now svc).1 := by
  obtain ⟨done, unread, hreplayed⟩ := h.state
  rcases w.reconcile_cases env disk now svc with hsame | ⟨reading, hreading, hafter⟩
  · rw [hsame]
    exact h.later hclock
  obtain ⟨visited, next, hperm, hread, rfl⟩ := hreplayed.read_eq hreading
  have hstate := hreplayed.derive hnul hclock hperm hread env.orders
  have hderived : w.KeepsUp now disk
      (w.derive env now svc (.news (visited.filter w.supported) next)).1 :=
    (h.later hclock).save ⟨_, _, hstate⟩ env.outcome
  rcases hafter with hafter | hafter
  · rw [hafter]
    exact hderived
  rw [hafter]
  refine Service.Holds.tick (Replayed.ignoresDelivery w now disk) hderived w env.tick now ?_
  have happlied : (w.derive env now svc (.news (visited.filter w.supported) next)).1.state
      = { observeAll w.eng env.orders (w.batch svc.state visited) svc.state with
          cursors := next, bootstrapped := true, lastCheckpointAt := now } :=
    Service.apply_state _ _ _ _ _ _ _
  rw [happlied]
  exact ⟨_, [], hstate.advance hnul env.tick.orders le_rfl
    fun _ _ _ _ _ _ _ _ hr => absurd hr List.not_mem_nil⟩

/-- **A restart** loads what was saved last, as it was saved. -/
lemma restart (h : w.KeepsUp clock disk svc) (order : Traversal String) :
    w.KeepsUp clock disk (svc.restart order) := by
  obtain ⟨s, hsaved, done, unread, hreplayed⟩ := h.saved
  have htrackers : loadTrackers order s.incidents s.trackers = s.trackers := by
    refine Finmap.ext_lookup fun key => ?_
    rw [loadTrackers, order.lookup_assign]
    cases hc : s.trackers.lookup key with
    | none => rfl
    | some current =>
        rw [Option.bind_some]
        cases hi : s.incidents.lookup current.incidentID with
        | none => rfl
        | some incident =>
            have hversion := (hreplayed.follows.consistent.wellFormed hi).ruleVersion_eq
            simp [hversion]
  have hloaded : svc.restart order = ⟨s, some s⟩ := by
    have hversion := hreplayed.version_eq
    rw [Service.restart, Service.load, hsaved]
    simp only
    rw [if_neg (by simp [hversion]), if_neg (by simp [hversion]), htrackers]
  rw [hloaded]
  exact ⟨⟨done, unread, hreplayed⟩, s, rfl, done, unread, hreplayed⟩

end Worker.KeepsUp

/-! ## Runs with crashes -/

/-- A worker with its store. -/
structure Machine where
  worker : Worker
  world : World

/-- A step of the worker and its store, or a new process, which loads what was saved last. -/
inductive CrashStep where
  | live (step : LiveStep)
  | restart (order : Traversal String) (startedAt : Time)

/-- The time of the clock, if the step depends on it. -/
def CrashStep.time : CrashStep → Option Time
  | .live step => some step.now
  | .restart _ _ => none

/-- The machine after a step. -/
def Machine.step (m : Machine) : CrashStep → Machine
  | .live step => { m with world := m.world.live m.worker step }
  | .restart order startedAt =>
      ⟨{ m.worker with startedAt }, { m.world with svc := m.world.svc.restart order }⟩

/-- The machine after a list of steps. -/
def Machine.run (m : Machine) (steps : List CrashStep) : Machine := steps.foldl Machine.step m

/-- An engine that is empty but bootstrapped, and has been saved. -/
def bootstrappedService (checkpointAt : Time) : Service :=
  ⟨emptySnapshot ∅ checkpointAt, some (emptySnapshot ∅ checkpointAt)⟩

/-- Such an engine beside an empty store. -/
def Machine.new (w : Worker) (checkpointAt : Time) : Machine :=
  ⟨w, ⟨Disk.empty, bootstrappedService checkpointAt⟩⟩

/-- One step comes before another: the clock does not run back, and it has moved on when a record is
appended. -/
def CrashStep.Before (earlier : CrashStep) : CrashStep → Prop
  | .live (.append now _) => ∀ t ∈ earlier.time, t < now
  | .live (.reconcile _ now) | .live (.tick _ now) => ∀ t ∈ earlier.time, t ≤ now
  | .restart _ _ => True

instance (earlier step : CrashStep) : Decidable (earlier.Before step) :=
  match step with
  | .live (.append now _) => inferInstanceAs (Decidable (∀ t ∈ earlier.time, t < now))
  | .live (.reconcile _ now) | .live (.tick _ now) =>
      inferInstanceAs (Decidable (∀ t ∈ earlier.time, t ≤ now))
  | .restart _ _ => inferInstanceAs (Decidable True)

/-- A record is stamped with the clock. -/
def CrashStep.clocked : CrashStep → Prop
  | .live step => step.clocked
  | .restart _ _ => True

/-- Steps in the order of the clock, which stamps every record. -/
structure Punctual (steps : List CrashStep) : Prop where
  ordered : steps.Pairwise CrashStep.Before
  clocked : ∀ step ∈ steps, step.clocked

/-- A tick lets no timer run out before evidence of its host that the worker has not read yet. -/
def LiveStep.Patient (w : Worker) (world : World) : LiveStep → Prop
  | .tick _ now => ∀ key current incident,
      world.svc.state.trackers.lookup key = some current →
      world.svc.state.incidents.lookup current.incidentID = some incident →
      current.dueBy now incident → ∀ r ∈ unreadRecords w.go world.disk world.svc.state.cursors,
        r.message.moves w.eng incident.hostname = true →
          current.dueAt incident ≤ r.message.receivedAt
  | .append _ _ | .reconcile _ _ => True

/-- So does every step, whether or not the process starts again. -/
def CrashStep.Patient (m : Machine) : CrashStep → Prop
  | .live step => step.Patient m.worker m.world
  | .restart _ _ => True

/-- When a worker has been started does not matter to a bootstrapped engine. -/
lemma Replayed.restarted {w : Worker} {clock : Time} {disk : Disk} {done unread : List StoredRecord}
    {s : Snapshot} (h : Replayed w clock disk done unread s) (startedAt : Time) :
    Replayed { w with startedAt } clock disk done unread s :=
  ⟨h.version_eq, h.bootstrapped, h.read, h.stamped, h.distinct, h.before, h.follows⟩

/-- **A tick that is patient.** -/
lemma Worker.KeepsUp.tick {w : Worker} {clock now : Time} {world : World}
    (h : w.KeepsUp clock world.disk world.svc) (hnul : '\x00' ∉ w.eng.interface.toList)
    (hclock : clock ≤ now) {env : TickEnv} (hpatient : (LiveStep.tick env now).Patient w world) :
    w.KeepsUp now world.disk (w.tick env now world.svc).1 := by
  obtain ⟨done, unread, hreplayed⟩ := h.state
  refine Service.Holds.tick (Replayed.ignoresDelivery w now world.disk) (h.later hclock) w env now
    ⟨done, unread, hreplayed.advance hnul env.orders hclock ?_⟩
  intro hostname key current hc hkey hpending hdue r hr hmoves
  have hcons := hreplayed.follows.consistent
  obtain ⟨incident, hi, hagrees⟩ := hcons.names hc (Tracker.open_of_pending hpending)
  have hhost : incident.hostname = hostname := by
    refine (hcons.wellFormed hi).hostname_eq hnul ?_
    rw [hagrees.key]
    exact hkey
  rw [← hcons.dueAt_eq hi] at hdue ⊢
  exact hpatient key current incident hc hi ⟨hpending, hdue⟩ r
    (hreplayed.read.mem_unreadRecords.mpr hr) (by rw [hhost]; exact hmoves)

/-- What holds of a machine on its way: it follows the store, and so would an engine that has not
been told anything yet. -/
structure Machine.OnTrack (w : Worker) (clock checkpointAt : Time) (m : Machine) : Prop where
  worker : ∃ startedAt, m.worker = { w with startedAt }
  keepsUp : m.worker.KeepsUp clock m.world.disk m.world.svc
  fresh : m.worker.KeepsUp clock m.world.disk (bootstrappedService checkpointAt)

lemma Machine.run_concat (m : Machine) (steps : List CrashStep) (step : CrashStep) :
    m.run (steps ++ [step]) = (m.run steps).step step := by
  rw [Machine.run, List.foldl_append]
  rfl

lemma Machine.disk_tick (m : Machine) (env : TickEnv) (now : Time) :
    (m.step (.live (.tick env now))).world.disk = m.world.disk := rfl

/-- **Every run keeps a machine on track** whose ticks are patient. -/
lemma Machine.OnTrack.run {w : Worker} (hids : w.eng.ids.Injective)
    (hnul : '\x00' ∉ w.eng.interface.toList) (hframed : w.go.Framed) (hkeeps : w.go.KeepsEvidence)
    (checkpointAt : Time) (steps : List CrashStep) {clock : Time}
    (hclock : ∀ t ∈ steps.filterMap CrashStep.time, t ≤ clock) (hpunctual : Punctual steps)
    (hpatient : ∀ before step after, steps = before ++ step :: after →
      step.Patient ((Machine.new w checkpointAt).run before)) :
    Machine.OnTrack w clock checkpointAt ((Machine.new w checkpointAt).run steps) := by
  induction steps using List.reverseRecOn generalizing clock with
  | nil =>
      have hempty : w.KeepsUp clock Disk.empty (bootstrappedService checkpointAt) :=
        ⟨⟨[], [], .empty hids clock checkpointAt⟩, _, rfl, [], [], .empty hids clock checkpointAt⟩
      exact ⟨⟨w.startedAt, rfl⟩, hempty, hempty⟩
  | append_singleton steps step ih =>
      rw [List.filterMap_append, List.forall_mem_append] at hclock
      obtain ⟨hsteps, hlast⟩ := hclock
      have hordered := hpunctual.ordered
      rw [List.pairwise_append] at hordered
      have hbefore : ∀ {clock}, (∀ t ∈ steps.filterMap CrashStep.time, t ≤ clock) →
          Machine.OnTrack w clock checkpointAt ((Machine.new w checkpointAt).run steps) := by
        refine fun hclock => ih hclock ⟨hordered.1, fun earlier hmem =>
          hpunctual.clocked earlier (List.mem_append_left _ hmem)⟩ fun before earlier after hsplit => ?_
        exact hpatient before earlier (after ++ [step]) (by rw [hsplit]; simp)
      have hearlier : ∀ t ∈ steps.filterMap CrashStep.time,
          ∃ earlier : CrashStep, earlier.Before step ∧ t ∈ earlier.time := by
        intro t ht
        obtain ⟨earlier, hmem, ht⟩ := List.mem_filterMap.mp ht
        exact ⟨earlier, hordered.2.2 earlier hmem step (List.mem_singleton_self step), ht⟩
      have hstep := hpatient steps step [] rfl
      rw [Machine.run_concat]
      cases step with
      | restart order startedAt =>
          obtain ⟨⟨earlier, hworker⟩, hkeepsUp, hfresh⟩ := hbefore hsteps
          have hrestarted : ∀ {worker : Worker} {disk : Disk} {svc : Service},
              worker.KeepsUp clock disk svc →
              Worker.KeepsUp { worker with startedAt } clock disk svc := fun h =>
            h.imp fun _ ⟨done, unread, hreplayed⟩ => ⟨done, unread, hreplayed.restarted startedAt⟩
          refine ⟨⟨startedAt, ?_⟩, hrestarted (hkeepsUp.restart order), hrestarted hfresh⟩
          simp only [Machine.step, hworker]
      | live step =>
          have hnow : step.now ≤ clock := hlast step.now (by simp [CrashStep.time])
          cases step with
          | append now msg =>
              -- whatever came before was earlier
              have hclocked : (stamp now msg).receivedAt = now :=
                hpunctual.clocked (.live (.append now msg)) (by simp)
              obtain ⟨⟨earlier, hworker⟩, hkeepsUp, hfresh⟩ := hbefore fun t ht => by
                obtain ⟨earlier, hlt, ht⟩ := hearlier t ht
                exact Int.le_sub_one_of_lt (hlt t ht)
              generalize (Machine.new w checkpointAt).run steps = m at hworker hkeepsUp hfresh ⊢
              have happended : ∀ {svc : Service}, m.worker.KeepsUp (now - 1) m.world.disk svc →
                  m.worker.KeepsUp clock (append m.worker.go now .none m.world.disk msg).1 svc := by
                intro svc h
                have hafter : m.worker.KeepsUp now
                    (append m.worker.go now .none m.world.disk msg).1 svc := by
                  refine h.imp fun s ⟨done, unread, hreplayed⟩ => ?_
                  obtain ⟨unread', hafter⟩ := hreplayed.append (by rw [hworker]; exact hframed)
                    (by rw [hworker]; exact hkeeps) hclocked (Int.sub_one_lt_of_le le_rfl)
                  exact ⟨done, unread', hafter⟩
                exact hafter.later hnow
              exact ⟨⟨earlier, hworker⟩, happended hkeepsUp, happended hfresh⟩
          | reconcile env now =>
              obtain ⟨⟨earlier, hworker⟩, hkeepsUp, hfresh⟩ := hbefore fun t ht => by
                obtain ⟨earlier, hle, ht⟩ := hearlier t ht
                exact hle t ht
              generalize (Machine.new w checkpointAt).run steps = m at hworker hkeepsUp hfresh ⊢
              refine ⟨⟨earlier, hworker⟩, ?_, hfresh.later hnow⟩
              exact (hkeepsUp.reconcile (by rw [hworker]; exact hnul) le_rfl env).later hnow
          | tick env now =>
              obtain ⟨⟨earlier, hworker⟩, hkeepsUp, hfresh⟩ := hbefore fun t ht => by
                obtain ⟨earlier, hle, ht⟩ := hearlier t ht
                exact hle t ht
              generalize (Machine.new w checkpointAt).run steps = m at hworker hkeepsUp hfresh hstep ⊢
              refine ⟨⟨earlier, hworker⟩, ?_, hfresh.later hnow⟩
              exact (hkeepsUp.tick (by rw [hworker]; exact hnul) le_rfl hstep).later hnow

/-! ## Reconciles that succeed -/

/-- Neither a reading nor a save fails. -/
structure ReconcileEnv.Faultless (env : ReconcileEnv) : Prop where
  fault_eq : env.fault = none
  outcome_eq : env.outcome = none
  tick_eq : env.tick.outcome = none
  turns_eq : ∀ n, (env.tick.turns n).outcome = none

/-- Dispatching jobs that are there, with saves that do not fail. -/
lemma dispatchAll_succeeds (c : Courier) (now : Time) {turns : ℕ → Turn}
    (hturns : ∀ n, (turns n).outcome = none) {due : List NotificationJob} {svc : Service}
    (hdue : ∀ job ∈ due, job.id ∈ svc.state.jobs) : (dispatchAll c now turns due svc).2.2 = none := by
  induction due generalizing turns svc with
  | nil => rfl
  | cons job due ih =>
      rw [List.forall_mem_cons] at hdue
      obtain ⟨stored, hstored⟩ := Finmap.mem_iff.mp hdue.1
      rw [dispatchAll]
      simp only [Delivery.record_eq, Service.markJob, hstored, hturns 0]
      refine ih (fun n => hturns (n + 1)) fun job' hjob' => ?_
      exact Finmap.mem_insert.mpr (Or.inr (hdue.2 job' hjob'))

lemma Follows.ownIDs {eng : Engine} {clock : Time} {rest : List Message} {told s : Snapshot}
    (h : Follows eng clock rest told s) : OwnIDs s.jobs := by
  intro key job hjob
  obtain ⟨_, -, -, _, hshadows, -⟩ := h.hosts ""
  obtain ⟨n, -, hid, hfact⟩ := hshadows.jobs.filed hjob
  rw [← hid]
  exact (congrArg JobFact.id hfact).symm

/-- **A reconcile in which nothing fails succeeds**, if all lines decode. -/
lemma Worker.KeepsUp.succeeds {w : Worker} {clock now : Time} {disk : Disk} {svc : Service}
    (h : w.KeepsUp clock disk svc) (hnul : '\x00' ∉ w.eng.interface.toList) (hclock : clock ≤ now)
    (hreadable : disk.Readable w.go) {env : ReconcileEnv} (henv : env.Faultless) :
    (w.reconcile env disk now svc).2 = none := by
  obtain ⟨done, unread, hreplayed⟩ := h.state
  obtain ⟨visited, next, hvisit, hperm, hread⟩ := hreplayed.read.visit_of_readable hreadable env.order
  have hreading : w.read env disk svc.state.cursors = .ok (.news (visited.filter w.supported) next) := by
    rw [Worker.read, henv.fault_eq]
    simp only [hvisit]
  have hderived := hreplayed.derive hnul hclock hperm hread env.orders
  generalize hstate : { observeAll w.eng env.orders (w.batch svc.state visited) svc.state with
    cursors := next, bootstrapped := true, lastCheckpointAt := now } = derived at hderived
  have happlied : w.derive env now svc (.news (visited.filter w.supported) next)
      = (⟨derived, some derived⟩, none) := by
    rw [← hstate, Worker.derive, henv.outcome_eq]
    rfl
  have hticked : ∃ saved, Service.tick w.eng env.tick.orders now env.tick.outcome
      ⟨derived, some derived⟩
        = (⟨(advance w.eng.interface env.tick.orders now derived).1, saved⟩, none) := by
    simp only [Service.tick, henv.tick_eq]
    split_ifs
    · exact ⟨_, rfl⟩
    · exact ⟨_, rfl⟩
  obtain ⟨saved, hticked⟩ := hticked
  have hafter := hderived.follows.advance hnul env.tick.orders (le_refl now)
    fun _ _ _ _ _ _ _ _ hm => absurd hm (by simp)
  generalize (advance w.eng.interface env.tick.orders now derived).1 = after at hticked hafter
  have hdue : ∀ job ∈ dueNotifications env.tick.due now after, job.id ∈ after.jobs := fun job hjob =>
    Finmap.mem_of_lookup_eq_some ((dueNotifications_spec hafter.ownIDs _ _).2 job hjob).1
  have hsuccess : (dispatchAll w.courier now env.tick.turns
      (dueNotifications env.tick.due now after) ⟨after, saved⟩).2.2 = none :=
    dispatchAll_succeeds w.courier now henv.turns_eq hdue
  rw [Worker.reconcile, hreading]
  simp only [happlied, Worker.tick, hticked, Service.dispatch]
  generalize dispatchAll w.courier now env.tick.turns _ _ = dispatched at hsuccess ⊢
  obtain ⟨dispatched, log, err⟩ := dispatched
  simp only at hsuccess
  rw [hsuccess]

/-! ## What has crashed does not matter -/

/-- **Two engines that have been told everything** agree, however they have been told. -/
lemma Worker.KeepsUp.agree {w : Worker} {clock now : Time} {disk : Disk} {svc svc' : Service}
    (h : w.KeepsUp clock disk svc) (h' : w.KeepsUp clock disk svc')
    (hnul : '\x00' ∉ w.eng.interface.toList) (hclock : clock ≤ now) (env env' : ReconcileEnv)
    (startedAt : Time) (hdone : (w.reconcile env disk now svc).2 = none)
    (hdone' : (Worker.reconcile { w with startedAt } env' disk now svc').2 = none) :
    let s := (w.reconcile env disk now svc).1.state
    let s' := (Worker.reconcile { w with startedAt } env' disk now svc').1.state
    s.trackers = s'.trackers ∧ s.incidents = s'.incidents ∧
      ∀ key fact, (∃ job, s.jobs.lookup key = some job ∧ job.fact = fact) ↔
        ∃ job, s'.jobs.lookup key = some job ∧ job.fact = fact := by
  obtain ⟨done, unread, hreplayed⟩ := h.state
  obtain ⟨done', unread', hreplayed'⟩ := h'.state
  obtain ⟨hcons, hrun⟩ := hreplayed.reconciled hnul hclock env hdone
  obtain ⟨hcons', hrun'⟩ := (hreplayed'.restarted startedAt).reconciled hnul hclock env' hdone'
  obtain ⟨hview, hjobs⟩ := eq_of_runUntil hcons hcons' hrun hrun'
  exact ⟨(eq_of_view_eq hview).1, (eq_of_view_eq hview).2, hjobs⟩

/-- **Crashes and failed saves change nothing.**  Take an engine that is empty but bootstrapped and
has been saved, beside an empty store, and any run of appends, reconciles, ticks and restarts under
a clock that does not run back, in which every record is stamped with the clock, later than
anything before; saves and whatever else may fail.  If no tick lets a timer run out before evidence
of its host that the worker has not read yet, then after a reconcile that succeeds the trackers and
incidents, and what the jobs say, are those of a worker that does nothing else than to reconcile
then. -/
theorem crashes_change_nothing (w : Worker) (hids : w.eng.ids.Injective)
    (hnul : '\x00' ∉ w.eng.interface.toList) (hframed : w.go.Framed) (hkeeps : w.go.KeepsEvidence)
    (checkpointAt : Time) (steps : List CrashStep) (hpunctual : Punctual steps)
    (hpatient : ∀ before step after, steps = before ++ step :: after →
      step.Patient ((Machine.new w checkpointAt).run before))
    (now : Time) (hnow : ∀ t ∈ steps.filterMap CrashStep.time, t ≤ now) (env env' : ReconcileEnv)
    (startedAt : Time) :
    let m := (Machine.new w checkpointAt).run steps
    let run := m.worker.reconcile env m.world.disk now m.world.svc
    let once := Worker.reconcile { w with startedAt } env' m.world.disk now
      (bootstrappedService checkpointAt)
    run.2 = none → once.2 = none →
      run.1.state.trackers = once.1.state.trackers ∧
      run.1.state.incidents = once.1.state.incidents ∧
      ∀ key fact, (∃ job, run.1.state.jobs.lookup key = some job ∧ job.fact = fact) ↔
        ∃ job, once.1.state.jobs.lookup key = some job ∧ job.fact = fact := by
  intro m run once hrun honce
  have htrack := Machine.OnTrack.run hids hnul hframed hkeeps checkpointAt steps hnow hpunctual
    hpatient
  obtain ⟨⟨earlier, hworker⟩, hkeepsUp, hfresh⟩ := htrack
  have heq : (({ m.worker with startedAt } : Worker)) = { w with startedAt } := by
    simp only [m, hworker]
  simp only [run, once, ← heq] at honce ⊢
  exact hkeepsUp.agree hfresh (by rw [hworker]; exact hnul) le_rfl env env' startedAt hrun honce

/-- The small outage is read, which cannot be saved, and the process starts again. -/
def readAgain : List CrashStep :=
  [.live (.append 1000000000 wanDown.message),
    .live (.reconcile { sampleReconcile with outcome := some "disk full" } 2000000000),
    .restart (.sorted String) 3000000000, .live (.tick sampleTick 3000000000)]

theorem crashes_change_nothing_wanDown :
    let m := (Machine.new sampleWorker 500000000).run readAgain
    let run := m.worker.reconcile sampleReconcile m.world.disk 70000000000 m.world.svc
    let once := Worker.reconcile { sampleWorker with startedAt := 0 } sampleReconcile m.world.disk
      70000000000 (bootstrappedService 500000000)
    run.1.state.trackers = once.1.state.trackers ∧
      run.1.state.incidents = once.1.state.incidents ∧
      ∀ key fact, (∃ job, run.1.state.jobs.lookup key = some job ∧ job.fact = fact) ↔
        ∃ job, once.1.state.jobs.lookup key = some job ∧ job.fact = fact := by
  refine crashes_change_nothing sampleWorker sampleIDs_injective (by decide) sampleWorker_framed
    sampleWorker_keepsEvidence 500000000 readAgain ⟨by decide, ?_⟩ ?_ 70000000000 (by decide)
    sampleReconcile sampleReconcile 0 (by decide +kernel) (by decide +kernel)
  · simp [readAgain, CrashStep.clocked, LiveStep.clocked, stamp, wanDown]
  · intro before step after hsplit
    cases step with
    | restart order startedAt => trivial
    | live step =>
        cases step with
        | append now msg => trivial
        | reconcile env now => trivial
        | tick env now =>
            -- the tick comes last, to an engine that has not been told anything
            intro key current incident hc
            have hbefore : before = readAgain.take 3 := by
              rcases before with _ | ⟨first, _ | ⟨second, _ | ⟨third, _ | ⟨fourth, rest⟩⟩⟩⟩ <;>
                simp [readAgain] at hsplit ⊢
              exact ⟨hsplit.1.symm, hsplit.2.1.symm, hsplit.2.2.1.symm⟩
            have hnone : ((Machine.new sampleWorker 500000000).run
                (readAgain.take 3)).world.svc.state.trackers.keys = ∅ := by
              decide +kernel
            rw [hbefore] at hc
            have hmem := Finmap.mem_keys.mpr (Finmap.mem_of_lookup_eq_some hc)
            rw [hnone] at hmem
            cases hmem

/-- The same records without the tick. -/
def readInTime : List CrashStep :=
  [.live (.append 1000000000 wanDown.message), .live (.reconcile sampleReconcile 1000000000),
    .live (.append 31000000000 wanOnline)]

lemma earlyWorker_framed : earlyWorker.go.Framed := by
  have hgo : earlyWorker.go = .ofLines [(wanDown.message, wanDownLine), (wanOnline, wanOnlineLine)] :=
    rfl
  rw [hgo]
  exact ofLines_framed (by decide +kernel)

lemma earlyWorker_keepsEvidence : earlyWorker.go.KeepsEvidence := by
  have hgo : earlyWorker.go = .ofLines [(wanDown.message, wanDownLine), (wanOnline, wanOnlineLine)] :=
    rfl
  rw [hgo]
  exact ofLines_keepsEvidence (by decide +kernel)

/-- A worker that has read one of them, and one that has not read anything yet. -/
lemma readInTime_onTrack : Machine.OnTrack earlyWorker 70000000000 500000000
    ((Machine.new earlyWorker 500000000).run readInTime) := by
  refine Machine.OnTrack.run sampleIDs_injective (by decide) earlyWorker_framed
    earlyWorker_keepsEvidence 500000000 readInTime (by decide) ⟨by decide, ?_⟩ ?_
  · simp [readInTime, CrashStep.clocked, LiveStep.clocked, stamp, wanDown, wanOnline]
  · intro before step after hsplit
    cases step with
    | restart order startedAt => trivial
    | live step =>
        cases step with
        | append now msg => trivial
        | reconcile env now => trivial
        | tick env now =>
            have hmem : CrashStep.live (.tick env now) ∈ readInTime := by
              rw [hsplit]
              simp
            simp [readInTime] at hmem

/-- **A tick that comes before the record of a recovery is read** leaves an incident that a worker
that reconciles once does not have. -/
theorem tickedAhead_differs :
    let m := (Machine.new earlyWorker 500000000).run (tickedAhead.map .live)
    let run := m.worker.reconcile sampleReconcile m.world.disk 70000000000 m.world.svc
    let once := Worker.reconcile { earlyWorker with startedAt := 0 } sampleReconcile m.world.disk
      70000000000 (bootstrappedService 500000000)
    Punctual (tickedAhead.map .live) ∧ run.2 = none ∧ once.2 = none ∧
      run.1.state.incidents ≠ once.1.state.incidents := by
  intro m run once
  obtain ⟨-, hkeepsUp, hfresh⟩ := readInTime_onTrack
  have hlast : m = ((Machine.new earlyWorker 500000000).run readInTime).step
      (.live (.tick sampleTick 61000000000)) := Machine.run_concat _ readInTime _
  have hdisk : m.world.disk = ((Machine.new earlyWorker 500000000).run readInTime).world.disk := by
    rw [hlast, Machine.disk_tick]
  rw [← hdisk] at hkeepsUp hfresh
  set inTime := ((Machine.new earlyWorker 500000000).run readInTime).worker.reconcile sampleReconcile
    m.world.disk 70000000000 ((Machine.new earlyWorker 500000000).run readInTime).world.svc
  have hfaultless : sampleReconcile.Faultless := ⟨rfl, rfl, rfl, fun _ => rfl⟩
  have hreadable : m.world.disk.Readable
      ((Machine.new earlyWorker 500000000).run readInTime).worker.go :=
    Disk.readable_iff.mpr (by decide +kernel)
  have honce : once.2 = none := hfresh.succeeds (by decide) le_rfl hreadable hfaultless
  have hagree := hkeepsUp.agree hfresh (by decide) le_rfl sampleReconcile sampleReconcile 0
    (hkeepsUp.succeeds (by decide) le_rfl hreadable hfaultless) honce
  have hrun : run.2 = none ∧ (run.1.state.incidents.lookup "8d4663d6450447b8").isSome = true := by
    decide +kernel
  refine ⟨⟨by decide, ?_⟩, hrun.1, honce, fun hsame => ?_⟩
  · simp [tickedAhead, CrashStep.clocked, LiveStep.clocked, stamp, wanDown, wanOnline]
  · have hopened := hrun.2
    have hclosed : (inTime.1.state.incidents.lookup "8d4663d6450447b8").isSome = false := by
      decide +kernel
    have hincidents : inTime.1.state.incidents = once.1.state.incidents := hagree.2.1
    rw [hsame, ← hincidents, hclosed] at hopened
    cases hopened

end Logthing
