import Logthing.Api.EvidenceLinks
import Logthing.Api.Import
import Logthing.Api.ImportBody
import Logthing.Api.IncidentPages
import Logthing.Api.MessagePages
import Logthing.Api.MessageStream
import Logthing.Core.Calendar
import Logthing.Core.Dict
import Logthing.Core.EventStream
import Logthing.Core.Filepath
import Logthing.Core.Float64
import Logthing.Core.Lines
import Logthing.Core.Paging
import Logthing.Core.Replace
import Logthing.Core.Sorting
import Logthing.Core.Text
import Logthing.Core.Worklist
import Logthing.Frontend.LivePage
import Logthing.Frontend.LiveWindow
import Logthing.Incidents.Backoff
import Logthing.Incidents.Chronology
import Logthing.Incidents.Classify
import Logthing.Incidents.Confluence
import Logthing.Incidents.Crashes
import Logthing.Incidents.Debounce
import Logthing.Incidents.Delivery
import Logthing.Incidents.Dossier
import Logthing.Incidents.Engine
import Logthing.Incidents.EveryJob
import Logthing.Incidents.EvidenceGrammar
import Logthing.Incidents.FalseAlarms
import Logthing.Incidents.Following
import Logthing.Incidents.History
import Logthing.Incidents.Hosts
import Logthing.Incidents.Isolation
import Logthing.Incidents.KeptJobs
import Logthing.Incidents.LiveStore
import Logthing.Incidents.MissedOutages
import Logthing.Incidents.Notices
import Logthing.Incidents.Observing
import Logthing.Incidents.Outbox
import Logthing.Incidents.OutboxRuns
import Logthing.Incidents.OwnEvidence
import Logthing.Incidents.Persistence
import Logthing.Incidents.Reachability
import Logthing.Incidents.RebuildAgreement
import Logthing.Incidents.Rebuilding
import Logthing.Incidents.RebuiltOutbox
import Logthing.Incidents.Relabelling
import Logthing.Incidents.Replaying
import Logthing.Incidents.Runs
import Logthing.Incidents.Service
import Logthing.Incidents.Settling
import Logthing.Incidents.Silence
import Logthing.Incidents.Thresholds
import Logthing.Incidents.Timelines
import Logthing.Incidents.Timers
import Logthing.Incidents.Turns
import Logthing.Incidents.Types
import Logthing.Incidents.View
import Logthing.Incidents.WakeLoop
import Logthing.Incidents.Worker
import Logthing.Model.JsonText
import Logthing.Model.Message
import Logthing.Notification.Discord
import Logthing.Notification.Webhook
import Logthing.Realtime.Hub
import Logthing.Storage.AbsentFields
import Logthing.Storage.AppendReader
import Logthing.Storage.Confinement
import Logthing.Storage.CursorReading
import Logthing.Storage.Growth
import Logthing.Storage.IndexCache
import Logthing.Storage.IndexedQuery
import Logthing.Storage.LiveFilter
import Logthing.Storage.Partition
import Logthing.Storage.QueryIndex
import Logthing.Storage.QueryMerge
import Logthing.Storage.ReadBack
import Logthing.Storage.RecordTable
import Logthing.Storage.Reopening
import Logthing.Storage.StoredRows
import Logthing.Storage.TextFilter
import Logthing.Storage.Unread
import Logthing.Storage.WrittenPieces
import Logthing.Syslog.Listener
import Logthing.Syslog.Sender
