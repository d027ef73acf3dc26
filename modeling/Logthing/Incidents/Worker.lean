import Logthing.Incidents.Delivery
import Logthing.Storage.CursorReading

/-!
# The worker

`Worker.reconcile` reads what the store has gained since the cursors, in the order of time, or
reads the whole store anew if a partition has changed, and hands it to the engine;
`Worker.tick` lets the engine's timers run out and delivers what is due.

`World` is the store beside the engine.  Between two steps of the worker anything may happen to the
directory, which is a step of its own.

**Main results.**  `Worker.tick_state` and `Worker.reconcile_cases` say what a step of the worker
does to the engine: it lets timers run out, or derives from what was read and lets timers run out
then, and apart from that changes the delivery of jobs at most.
-/

namespace Logthing

/-! ## Reading -/

/-- What the worker is made with. -/
structure Worker where
  eng : Engine
  go : GoLib
  courier : Courier
  startedAt : Time

/-- The comparison of `sort.SliceStable`. -/
def StoredRecord.before (a b : StoredRecord) : Bool :=
  if a.message.receivedAt = b.message.receivedAt then
    if a.file = b.file then a.offset < b.offset else a.file < b.file
  else a.message.receivedAt < b.message.receivedAt

/-- The records of a reconcile, in the order they are observed. -/
def sortRecords (records : List StoredRecord) : List StoredRecord :=
  records.mergeSort fun a b => !b.before a

/-- What the environment makes of a tick. -/
structure TickEnv where
  orders : Schedule
  outcome : SaveOutcome
  due : Traversal String
  turns : ℕ → Turn

/-- What the environment makes of a reconcile: the two readings may fail beside what they find. -/
structure ReconcileEnv where
  order : Traversal String
  fault : Option String
  again : Traversal String
  againFault : Option String
  orders : ℕ → Schedule
  rebuild : RebuildOrders
  outcome : SaveOutcome
  tick : TickEnv

/-- What a reconcile has read: what is new, or everything, with the partition that changed. -/
inductive Reading where
  | news (records : List StoredRecord) (next : Dict String Cursor)
  | anew (changedFile : String) (records : List StoredRecord) (next : Dict String Cursor)

namespace Worker

/-- The visitor of a reconcile keeps what is evidence. -/
def supported (w : Worker) (record : StoredRecord) : Bool :=
  (classify record.message w.eng.interface).isSome

/-- The two calls of `VisitAfter`. -/
def read (w : Worker) (env : ReconcileEnv) (disk : Disk) (cursors : Dict String Cursor) :
    Except String Reading :=
  match env.fault with
  | some cause => .error cause
  | none =>
      match visitAfter w.go env.order disk cursors with
      | .ok (records, next) => .ok (.news (records.filter w.supported) next)
      | .error (.partitionChanged changedFile) =>
          match env.againFault with
          | some cause => .error cause
          | none =>
              match visitAfter w.go env.again disk ∅ with
              | .ok (records, next) =>
                  .ok (.anew changedFile (records.filter w.supported) next)
              | .error err => .error err.text
      | .error err => .error err.text

/-- Whether a record may notify. -/
def eligible (w : Worker) (s : Snapshot) (record : StoredRecord) : Bool :=
  record.message.transport ≠ "import" &&
    (s.bootstrapped || w.startedAt < record.message.receivedAt)

/-- Whether a record may notify that is read anew. -/
def eligibleAnew (w : Worker) (s : Snapshot) (changedFile : String) (record : StoredRecord) : Bool :=
  if record.file = changedFile then
    w.eligible s record && !s.lastCheckpointAt.isZero &&
      s.lastCheckpointAt < record.message.receivedAt
  else
    w.eligible s record &&
      match s.cursors.lookup record.file with
      | none => true
      | some previous => previous.offset < record.offset

/-- A record as an observation. -/
def observation (eligible : StoredRecord → Bool) (record : StoredRecord) : Observation where
  message := record.message
  notifyEligible := eligible record
  sourceRef := record.file ++ ":" ++ toString record.offset

/-- The observations of a reconcile. -/
def observations (eligible : StoredRecord → Bool) (records : List StoredRecord) :
    List Observation :=
  (sortRecords records).map (observation eligible)

/-! ## Acting -/

/-- `tick`. -/
def tick (w : Worker) (env : TickEnv) (now : Time) (svc : Service) : Service × Option String :=
  match svc.tick w.eng env.orders now env.outcome with
  | (svc, some err) => (svc, some ("advance incidents: " ++ err))
  | (svc, none) =>
      match svc.dispatch w.courier env.due env.turns now with
      | (svc, _, none) => (svc, none)
      | (svc, _, some (.notFound id)) =>
          (svc, some ("notification job " ++ w.courier.quote id ++ " not found"))
      | (svc, _, some (.save err)) => (svc, some err)

/-- What a reconcile does with what it has read. -/
def derive (w : Worker) (env : ReconcileEnv) (now : Time) (svc : Service) :
    Reading → Service × Option String
  | .news records next =>
      svc.apply w.eng env.orders (observations (w.eligible svc.state) records) next now env.outcome
  | .anew changedFile records next =>
      svc.rebuild w.eng env.orders env.rebuild
        (observations (w.eligibleAnew svc.state changedFile) records) next now env.outcome

/-- `reconcile`. -/
def reconcile (w : Worker) (env : ReconcileEnv) (disk : Disk) (now : Time) (svc : Service) :
    Service × Option String :=
  match w.read env disk svc.state.cursors with
  | .error err => (svc, some ("reconcile incidents: " ++ err))
  | .ok reading =>
      match w.derive env now svc reading with
      | (svc, some err) => (svc, some ("apply incident evidence: " ++ err))
      | (svc, none) => w.tick env.tick now svc

end Worker

/-! ## The store and the engine -/

/-- The directory and the engine. -/
structure World where
  disk : Disk
  svc : Service

/-- A step: something happens to the directory, or the worker reconciles or ticks. -/
inductive WorldStep where
  | store (disk : Disk)
  | reconcile (env : ReconcileEnv) (now : Time)
  | tick (env : TickEnv) (now : Time)

/-- The world after a step. -/
def World.step (w : Worker) (world : World) : WorldStep → World
  | .store disk => { world with disk }
  | .reconcile env now => { world with svc := (w.reconcile env world.disk now world.svc).1 }
  | .tick env now => { world with svc := (w.tick env now world.svc).1 }

/-- The world after a list of steps. -/
def World.run (w : Worker) (world : World) (steps : List WorldStep) : World :=
  steps.foldl (World.step w) world

/-! ## What a step does to the engine -/

/-- **What a reconcile reads**: what is new, or everything where a partition has changed. -/
lemma Worker.read_cases {w : Worker} {env : ReconcileEnv} {disk : Disk}
    {cursors : Dict String Cursor} {reading : Reading} (h : w.read env disk cursors = .ok reading) :
    (∃ visited next, visitAfter w.go env.order disk cursors = .ok (visited, next) ∧
        reading = .news (visited.filter w.supported) next) ∨
      ∃ changedFile visited next,
        visitAfter w.go env.order disk cursors = .error (.partitionChanged changedFile) ∧
        visitAfter w.go env.again disk ∅ = .ok (visited, next) ∧
        reading = .anew changedFile (visited.filter w.supported) next := by
  rw [Worker.read] at h
  cases hfault : env.fault with
  | some cause =>
      rw [hfault] at h
      cases h
  | none =>
      rw [hfault] at h
      simp only at h
      cases hvisit : visitAfter w.go env.order disk cursors with
      | ok read =>
          rw [hvisit] at h
          exact Or.inl ⟨read.1, read.2, rfl, (Except.ok.inj h).symm⟩
      | error err =>
          rw [hvisit] at h
          cases err with
          | decode file offset cause => cases h
          | partitionChanged changedFile =>
              simp only at h
              cases hagain : env.againFault with
              | some cause =>
                  rw [hagain] at h
                  cases h
              | none =>
                  rw [hagain] at h
                  simp only at h
                  cases hanew : visitAfter w.go env.again disk ∅ with
                  | error err =>
                      rw [hanew] at h
                      cases h
                  | ok read =>
                      rw [hanew] at h
                      exact Or.inr ⟨changedFile, read.1, read.2, rfl, rfl,
                        (Except.ok.inj h).symm⟩

/-- **A tick lets timers run out**, and then changes the delivery of jobs at most. -/
lemma Worker.tick_state (w : Worker) (env : TickEnv) (now : Time) (svc : Service) :
    ∃ jobs, (w.tick env now svc).1.state
        = { (advance w.eng.interface env.orders now svc.state).1 with jobs } ∧
      ∀ id, (jobs.lookup id).map NotificationJob.fact
        = ((advance w.eng.interface env.orders now svc.state).1.jobs.lookup id).map
          NotificationJob.fact := by
  have hticked := Service.tick_state w.eng env.orders now env.outcome svc
  rw [Worker.tick]
  generalize svc.tick w.eng env.orders now env.outcome = ticked at hticked ⊢
  obtain ⟨ticked, err⟩ := ticked
  simp only at hticked
  rw [← hticked]
  cases err with
  | some err => exact ⟨ticked.state.jobs, rfl, fun _ => rfl⟩
  | none =>
      have hdispatched := dispatchAll_state w.courier now env.turns
        (dueNotifications env.due now ticked.state) ticked
      simp only [Service.dispatch]
      generalize dispatchAll w.courier now env.turns _ ticked = dispatched at hdispatched ⊢
      obtain ⟨dispatched, log, err⟩ := dispatched
      cases err with
      | none => exact hdispatched
      | some err =>
          cases err with
          | notFound id => exact hdispatched
          | save err => exact hdispatched

/-- **A reconcile** leaves the engine alone, or derives from what it has read, and may tick then. -/
lemma Worker.reconcile_cases (w : Worker) (env : ReconcileEnv) (disk : Disk) (now : Time)
    (svc : Service) :
    (w.reconcile env disk now svc).1 = svc ∨
      ∃ reading, w.read env disk svc.state.cursors = .ok reading ∧
        ((w.reconcile env disk now svc).1 = (w.derive env now svc reading).1 ∨
          (w.reconcile env disk now svc).1
            = (w.tick env.tick now (w.derive env now svc reading).1).1) := by
  rw [Worker.reconcile]
  cases hread : w.read env disk svc.state.cursors with
  | error err => exact Or.inl rfl
  | ok reading =>
      refine Or.inr ⟨reading, rfl, ?_⟩
      simp only
      generalize w.derive env now svc reading = derived
      obtain ⟨derived, err⟩ := derived
      cases err with
      | some err => exact Or.inl rfl
      | none => exact Or.inr rfl

/-! ## A worker to compute with -/

/-- The line the record of `wanDown` is stored as. -/
def wanDownLine : Bytes :=
  utf8Bytes ("\x7b\"id\":\"one\",\"received_at\":\"0001-01-01T00:00:01Z\",\"hostname\":\"gw\"," ++
    "\"tag\":\"netifd\",\"message\":\"Interface 'wan' is now down\"\x7d")

/-- A worker that starts when `wan` of `gw` has been down for some time. -/
def sampleWorker : Worker where
  eng := sampleEngine
  go := .ofLines [(wanDown.message, wanDownLine)]
  courier := sampleCourier
  startedAt := 100000000000

/-- A tick in which nothing fails. -/
def sampleTick : TickEnv where
  orders := sortedSchedule
  outcome := none
  due := .sorted String
  turns _ := ⟨.receipt "discord" "1", none⟩

/-- A reconcile in which nothing fails. -/
def sampleReconcile : ReconcileEnv where
  order := .sorted String
  fault := none
  again := .sorted String
  againFault := none
  orders _ := sortedSchedule
  rebuild := sortedRebuild
  outcome := none
  tick := sampleTick

end Logthing
