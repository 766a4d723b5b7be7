import Chitta.Checkpoint.Agreement
import Chitta.Client.Pairing
import Chitta.CodeNavigation.Communities
import Chitta.CodeNavigation.Growth
import Chitta.CodeNavigation.Query
import Chitta.Compact.Trajectory
import Chitta.Daemon.Lifecycle
import Chitta.Daemon.Routing
import Chitta.Daemon.SocketFraming
import Chitta.Daemon.WriteOrder
import Chitta.EmbedQueue.Writers
import Chitta.EndpointRouter.Budget
import Chitta.Gateway.CompareAndSwap
import Chitta.Gateway.Locking
import Chitta.Gateway.Manifest
import Chitta.Gateway.Repository
import Chitta.Gateway.StreamClaim
import Chitta.HookLedger.LedgerCard
import Chitta.Hooks.RuntimeDir
import Chitta.Inbox.Limit
import Chitta.Ingest.Chunks
import Chitta.Ledger.ClosedSessions
import Chitta.Ledger.FullScan
import Chitta.Ledger.Journal
import Chitta.Ledger.LeaseOwners
import Chitta.Ledger.Lineage
import Chitta.Ledger.References
import Chitta.LongTask.Active
import Chitta.LongTask.Completion
import Chitta.OutputCache.Reference
import Chitta.Prompt.Accounting
import Chitta.QueryCache.SingleFlight
import Chitta.Queue.Append
import Chitta.Queue.DeadLetters
import Chitta.Queue.DistillAttempts
import Chitta.Queue.LanePass
import Chitta.Queue.SaveOrder
import Chitta.Queue.Watermark
import Chitta.ReEmbed.Drain
import Chitta.RuntimeLedger.Conflict
import Chitta.RuntimeLedger.SingleDaemon
import Chitta.Saddle.Detect
import Chitta.Saddle.Encoding
import Chitta.Sadhana.FinalStatus
import Chitta.Sadhana.History
import Chitta.Sadhana.RunningSet
import Chitta.SafeSave
import Chitta.Sanitize
import Chitta.Sessions.Transcript
import Chitta.Ssl.ArrowSpellings
import Chitta.Ssl.DateAnnotations
import Chitta.Ssl.Format
import Chitta.Ssl.GlossCoverage
import Chitta.ThreadPool.Delivery
import Chitta.Transcript.Distillation
