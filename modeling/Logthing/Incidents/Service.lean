import Logthing.Incidents.Engine

/-!
# The operations of the incident engine

`Service` is the snapshot in memory beside the one the persistence holds.  Each operation takes
the outcome of its save, `none` or the text of the error, from the environment; a failed save
leaves the change in memory, except that a notification's bookkeeping is taken back.
-/

namespace Logthing

/-- `Service`: the state, and the snapshot last saved. -/
structure Service where
  state : Snapshot := {}
  saved : Option Snapshot := none

/-- What the environment makes of a save: the text of the error, if it fails. -/
abbrev SaveOutcome := Option String

/-- `saveLocked`. -/
def Service.save (outcome : SaveOutcome) (svc : Service) : Service × Option String :=
  match outcome with
  | none => ({ svc with saved := some svc.state }, none)
  | some err => (svc, some err)

/-- `Observe`. -/
def Service.observe (eng : Engine) (orders : Schedule) (message : Message) (notifyEligible : Bool)
    (outcome : SaveOutcome) (svc : Service) : Service × Option String :=
  Service.save outcome
    { svc with state := observeLocked eng orders message notifyEligible "" svc.state }

/-- `Apply`. -/
def Service.apply (eng : Engine) (orders : ℕ → Schedule) (observations : List Observation)
    (cursors : Dict String Cursor) (checkpointAt : Time) (outcome : SaveOutcome) (svc : Service) :
    Service × Option String :=
  let state := observeAll eng orders observations svc.state
  Service.save outcome
    { svc with
      state := { state with cursors, bootstrapped := true, lastCheckpointAt := checkpointAt } }

/-- `Tick`. -/
def Service.tick (eng : Engine) (orders : Schedule) (now : Time) (outcome : SaveOutcome)
    (svc : Service) : Service × Option String :=
  let after := advance eng.interface orders now svc.state
  if after.2 then Service.save outcome { svc with state := after.1 }
  else ({ svc with state := after.1 }, none)

/-- `SetCursors`. -/
def Service.setCursors (cursors : Dict String Cursor) (outcome : SaveOutcome) (svc : Service) :
    Service × Option String :=
  Service.save outcome { svc with state := { svc.state with cursors } }

/-! ## `Load` -/

/-- The loop of `Load`: a tracker of an incident from before the third version of the rules. -/
def loadTrackers (order : Traversal String) (incidents : Dict String Incident)
    (trackers : Dict String Tracker) : Dict String Tracker :=
  order.assign trackers
    (fun _ current => match incidents.lookup current.incidentID with
      | some incident =>
          if incident.ruleVersion < 3 ∧ current.phase ≠ .healthy then
            some { current with reachabilityDown := true }
          else none
      | none => none) trackers

/-- `Load`: where nothing has been saved, the state stays as it is. -/
def Service.load (order : Traversal String) (svc : Service) : Service × Option String :=
  match svc.saved with
  | none => (svc, none)
  | some saved =>
      if saved.version = 0 then (svc, none)
      else if saved.version ≠ 1 then
        (svc, some ("unsupported incident state version " ++ toString saved.version))
      else
        ({ svc with
            state := { saved with trackers := loadTrackers order saved.incidents saved.trackers } },
          none)

/-- A new process: `New`, then `Load`. -/
def Service.restart (order : Traversal String) (svc : Service) : Service :=
  (Service.load order { saved := svc.saved }).1

/-! ## Marking notifications -/

/-- How marking a notification fails. -/
inductive MarkError where
  /-- `notification job %q not found`. -/
  | notFound (id : String)
  | save (cause : String)

/-- What the two marks share: store the job changed, and restore it if that cannot be saved. -/
def Service.markJob (id : String) (change : NotificationJob → NotificationJob)
    (outcome : SaveOutcome) (svc : Service) : Service × Option MarkError :=
  match svc.state.jobs.lookup id with
  | none => (svc, some (.notFound id))
  | some previous =>
      let state := { svc.state with jobs := svc.state.jobs.insert id (change previous) }
      match outcome with
      | none => ({ state, saved := some state }, none)
      | some err =>
          ({ svc with state := { state with jobs := state.jobs.insert id previous } },
            some (.save err))

/-- A job with its receipt. -/
def NotificationJob.receipted (adapter externalID : String) (at_ : Time) (job : NotificationJob) :
    NotificationJob :=
  { job with sentAt := some at_, adapter, externalID, lastError := "" }

/-- A job with a failed attempt. -/
def NotificationJob.failed (message : String) (next : Time) (permanent : Bool)
    (job : NotificationJob) : NotificationJob :=
  { job with attempts := job.attempts + 1, lastError := message, nextAt := next, permanent }

/-- `MarkNotificationSent`. -/
def Service.markNotificationSent (id adapter externalID : String) (at_ : Time)
    (outcome : SaveOutcome) (svc : Service) : Service × Option MarkError :=
  svc.markJob id (NotificationJob.receipted adapter externalID at_) outcome

/-- `MarkNotificationFailed`. -/
def Service.markNotificationFailed (id message : String) (next : Time) (permanent : Bool)
    (outcome : SaveOutcome) (svc : Service) : Service × Option MarkError :=
  svc.markJob id (NotificationJob.failed message next permanent) outcome

/-! ## `Rebuild` -/

/-- The orders of the loops of `Rebuild` after the observations; the inner ones by turn of the
outer. -/
structure RebuildOrders where
  incidents : Traversal String
  trackers : Traversal String
  jobs : Traversal String
  outbox : Traversal String
  primary : ℕ → Traversal String
  later : ℕ → Traversal String

/-- The loops all visit in key order. -/
def sortedRebuild : RebuildOrders where
  incidents := .sorted String
  trackers := .sorted String
  jobs := .sorted String
  outbox := .sorted String
  primary := fun _ => .sorted String
  later := fun _ => .sorted String

/-- The first loop: an incident that was there before keeps its `Notify`. -/
def restoreNotify (order : Traversal String) (previous incidents : Dict String Incident) :
    Dict String Incident :=
  order.assign incidents
    (fun id incident => (previous.lookup id).map fun old =>
      { incident with notify := incident.notify || old.notify }) incidents

/-- The second loop: a tracker takes the `Notify` of its incident. -/
def restoreTrackers (order : Traversal String) (incidents : Dict String Incident)
    (trackers : Dict String Tracker) : Dict String Tracker :=
  order.assign trackers
    (fun _ current => (incidents.lookup current.incidentID).map fun incident =>
      { current with notify := incident.notify }) trackers

/-- The third loop: the jobs there were, of incidents that are still there. -/
def restoreJobs (order : Traversal String) (incidents : Dict String Incident)
    (previous jobs : Dict String NotificationJob) : Dict String NotificationJob :=
  order.assign previous (fun _ job => if job.incidentID ∈ incidents then some job else none) jobs

/-- When a primary failed after `incident` was activated and before it was resolved. -/
def Incident.laterPrimary (interface : String) (incident : Incident) (activated : Time)
    (primary : Incident) : Option Time :=
  primary.activatedAt.filter fun at_ =>
    primary.hostname = incident.hostname && primary.interface = interface && activated < at_ &&
      incident.resolvedAt.all (at_ < ·)

/-- The inner loop of the last one: the primaries that failed while a fallback was down. -/
def deriveEscalations (interface : String) (order : Traversal String)
    (incidents : Dict String Incident) (jobs : Dict String NotificationJob) (incident : Incident)
    (activated : Time) : Dict String NotificationJob :=
  (order.visit incidents).foldl
    (fun jobs kv =>
      match incident.laterPrimary interface activated kv.2 with
      | some at_ => enqueueFallbackEscalation jobs incident.id kv.2.id at_
      | none => jobs) jobs

/-- `if incident.State == StateResolved && incident.ResolvedAt != nil`. -/
def deriveResolution (interface : String) (jobs : Dict String NotificationJob)
    (incident : Incident) : Dict String NotificationJob :=
  match incident.resolvedAt with
  | some resolved =>
      if incident.state = .resolved then announceResolution interface jobs incident resolved
      else jobs
  | none => jobs

/-- One turn of the last loop: the jobs an incident must have. -/
def deriveJobs (interface : String) (primary later : Traversal String)
    (incidents : Dict String Incident) (jobs : Dict String NotificationJob) (incident : Incident) :
    Dict String NotificationJob :=
  match incident.activatedAt with
  | none => jobs
  | some activated =>
      if incident.notify then
        let jobs := announceActivation interface primary incidents jobs incident activated
        let jobs := deriveResolution interface jobs incident
        if incident.interface ≠ interface then
          deriveEscalations interface later incidents jobs incident activated
        else jobs
      else jobs

/-- The last loop. -/
def deriveAll (interface : String) (orders : RebuildOrders) (incidents : Dict String Incident) :
    ℕ → List (String × Incident) → Dict String NotificationJob → Dict String NotificationJob
  | _, [], jobs => jobs
  | n, kv :: rest, jobs =>
      deriveAll interface orders incidents (n + 1) rest
        (deriveJobs interface (orders.primary n) (orders.later n) incidents jobs kv.2)

/-- What `Rebuild` makes of a state that has just been observed anew. -/
def restore (interface : String) (orders : RebuildOrders) (previous s : Snapshot) : Snapshot :=
  let incidents := restoreNotify orders.incidents previous.incidents s.incidents
  { s with
    incidents
    trackers := restoreTrackers orders.trackers incidents s.trackers
    jobs := deriveAll interface orders incidents 0 (orders.outbox.visit incidents)
      (restoreJobs orders.jobs incidents previous.jobs s.jobs) }

/-- `Rebuild`. -/
def Service.rebuild (eng : Engine) (orders : ℕ → Schedule) (after : RebuildOrders)
    (observations : List Observation) (cursors : Dict String Cursor) (checkpointAt : Time)
    (outcome : SaveOutcome) (svc : Service) : Service × Option String :=
  let empty : Snapshot := { bootstrapped := true, lastCheckpointAt := checkpointAt, cursors }
  Service.save outcome
    { svc with
      state := restore eng.interface after svc.state (observeAll eng orders observations empty) }

/-! ## What is pending -/

/-- Whether a job is among `PendingNotifications`. -/
def NotificationJob.isPending (job : NotificationJob) : Bool :=
  job.sentAt.isNone && !job.permanent

/-- Whether a job is among `DueNotifications`. -/
def NotificationJob.isDue (now : Time) (job : NotificationJob) : Bool :=
  job.isPending && job.nextAt ≤ now

end Logthing
