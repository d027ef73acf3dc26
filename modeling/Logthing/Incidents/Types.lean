import Logthing.Core.Dict
import Logthing.Model.Message
import Logthing.Storage.AppendReader

/-!
# The incident engine's data

Trackers, incidents, notification jobs and the snapshot that holds them.

`IncidentIDs` is `incidentID`: a digest of the four values that open an incident, written in
hexadecimal, which the engine uses as a key.  That no two openings collide is an assumption of its
own, `IncidentIDs.Injective`.
-/

namespace Logthing

/-- `State`. -/
inductive State where
  | pendingFailure
  | active
  | pendingRecovery
  | resolved
  deriving DecidableEq, Repr

/-- `NotificationKind`. -/
inductive NotificationKind where
  | opened
  | resolved
  | fallbackOpened
  | fallbackResolved
  | fallbackEscalated
  | test
  | other (text : String)
  deriving DecidableEq, Repr

/-- The text of a kind, which job IDs are made of. -/
def NotificationKind.text : NotificationKind → String
  | .opened => "incident_opened"
  | .resolved => "incident_resolved"
  | .fallbackOpened => "fallback_opened"
  | .fallbackResolved => "fallback_resolved"
  | .fallbackEscalated => "fallback_escalated"
  | .test => "test"
  | .other text => text

/-- `Config`. -/
structure Config where
  interface : String
  downAfter : Duration
  recoveredAfter : Duration

/-- `Observation`. -/
structure Observation where
  message : Message
  notifyEligible : Bool
  sourceRef : String

/-- `Incident`. -/
structure Incident where
  id : String
  ruleVersion : ℕ
  hostname : String
  interface : String
  state : State
  startedAt : Time
  activatedAt : Option Time := none
  recoveryFirstAt : Option Time := none
  resolvedAt : Option Time := none
  lastEvidenceAt : Time
  evidenceIDs : List String
  evidenceRefs : List String
  downAfter : Duration
  recoveredAfter : Duration
  notify : Bool

/-- `NotificationJob`. -/
structure NotificationJob where
  id : String
  incidentID : String
  kind : NotificationKind
  createdAt : Time
  attempts : ℕ := 0
  nextAt : Time
  lastError : String := ""
  sentAt : Option Time := none
  adapter : String := ""
  externalID : String := ""
  permanent : Bool := false

/-- `phase`; `unset` is the empty string of a tracker that is not there yet. -/
inductive Phase where
  | unset
  | healthy
  | pendingFailure
  | active
  | pendingRecovery
  deriving DecidableEq, Repr

/-- `tracker`, with Go's zero values as defaults. -/
structure Tracker where
  phase : Phase := .unset
  pendingSince : Time := 0
  recoverySince : Time := 0
  lastEvidenceAt : Time := 0
  startMessageID : String := ""
  startSourceRef : String := ""
  incidentID : String := ""
  notify : Bool := false
  reachabilityDown : Bool := false
  deriving DecidableEq

/-- `Snapshot`. -/
structure Snapshot where
  version : ℕ := 1
  bootstrapped : Bool := false
  lastCheckpointAt : Time := 0
  trackers : Dict String Tracker := ∅
  incidents : Dict String Incident := ∅
  jobs : Dict String NotificationJob := ∅
  cursors : Dict String Cursor := ∅

/-- `incidentID`, whose result is hexadecimal: it is not empty and has no colon, the separator of
job IDs. -/
structure IncidentIDs where
  incidentID : String → String → Time → String → String
  nonempty : ∀ h i s m, incidentID h i s m ≠ ""
  noColon : ∀ h i s m, ':' ∉ (incidentID h i s m).toList

/-- No two openings collide. -/
def IncidentIDs.Injective (ids : IncidentIDs) : Prop :=
  ∀ {h i s m h' i' s' m'}, ids.incidentID h i s m = ids.incidentID h' i' s' m' →
    h = h' ∧ i = i' ∧ s = s' ∧ m = m'

/-- What the engine is made with: its configuration, as `New` accepts it. -/
structure Engine extends Config where
  ids : IncidentIDs
  downAfter_pos : 0 < downAfter
  recoveredAfter_pos : 0 < recoveredAfter

/-- `New`'s checks and defaults. -/
def Engine.new (cfg : Config) (ids : IncidentIDs) : Except String Engine :=
  let cfg := if cfg.interface = "" then { cfg with interface := "wan" } else cfg
  if hdown : 0 < cfg.downAfter then
    if hrecovered : 0 < cfg.recoveredAfter then .ok ⟨cfg, ids, hdown, hrecovered⟩
    else .error "recovery duration must be positive"
  else .error "down duration must be positive"

end Logthing
