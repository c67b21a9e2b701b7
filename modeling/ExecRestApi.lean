import ExecRestApi.Lib.JsonRoundTrip
import ExecRestApi.Lib.Base64
import ExecRestApi.Model.Logs
import ExecRestApi.Lib.JsonPlain
import ExecRestApi.Lib.Scan
import ExecRestApi.Proofs.Chain
import ExecRestApi.Proofs.LogsComplete
import ExecRestApi.Proofs.LogsReorg
import ExecRestApi.Proofs.LogsRun
import ExecRestApi.Proofs.Routing
import ExecRestApi.Proofs.GapVisible
import ExecRestApi.Proofs.Bookkeeping
import ExecRestApi.Proofs.Correlation
import ExecRestApi.Proofs.Service
import ExecRestApi.Proofs.Delivery
import ExecRestApi.Proofs.Ledger
import ExecRestApi.Proofs.Ownership
import ExecRestApi.Proofs.Reconnect
import ExecRestApi.Proofs.Streams
import ExecRestApi.Proofs.LogsResume
import ExecRestApi.Proofs.BlocksResume
import ExecRestApi.Proofs.LiveBoundary
import ExecRestApi.Proofs.TracesRun
import ExecRestApi.Proofs.AbiRevert
import ExecRestApi.Proofs.CallRequest
import ExecRestApi.Proofs.Overrides
import ExecRestApi.Proofs.Chunking
import ExecRestApi.Model.TraceCalls
import ExecRestApi.Proofs.Frames
import ExecRestApi.Proofs.UpstreamCall
import ExecRestApi.Proofs.CursorSafety
import ExecRestApi.Proofs.LogEndpoints
import ExecRestApi.Model.Server
import ExecRestApi.Proofs.Server
import ExecRestApi.Proofs.Reverts
import ExecRestApi.Model.Accounts
import ExecRestApi.Proofs.BodyChecks
import ExecRestApi.Proofs.Lenience
import ExecRestApi.Proofs.Quantities
import ExecRestApi.Model.BlockTransactions
import ExecRestApi.Proofs.Identifiers
import ExecRestApi.Proofs.StorageKeys
import ExecRestApi.Proofs.ContentNeg
import ExecRestApi.Proofs.SseFraming
import ExecRestApi.Proofs.UpstreamStart
import ExecRestApi.Proofs.Heartbeat
import ExecRestApi.Model.ChainHead
import ExecRestApi.Proofs.ChainHead
import ExecRestApi.Proofs.Registration
import ExecRestApi.Proofs.Atomicity
import ExecRestApi.Lib.Double
import ExecRestApi.Lib.Exposition
import ExecRestApi.Lib.Tally
import ExecRestApi.Model.Metrics
import ExecRestApi.Proofs.MetricsText
import ExecRestApi.Proofs.MetricsRun
import ExecRestApi.Proofs.Metrics
import ExecRestApi.Proofs.ManagerBus
import ExecRestApi.Proofs.LockProgress
import ExecRestApi.Model.LiveLoop
import ExecRestApi.Proofs.LiveLoop
import ExecRestApi.Proofs.LiveFrames
import ExecRestApi.Model.Subscriber
import ExecRestApi.Proofs.ClientView
import ExecRestApi.Model.HeadTracker
import ExecRestApi.Proofs.HeadTracker
import ExecRestApi.Model.Connections
import ExecRestApi.Proofs.Connections
import ExecRestApi.Lib.Gather
import ExecRestApi.Model.Composites
import ExecRestApi.Proofs.Composites
import ExecRestApi.Model.UpstreamLifetime
import ExecRestApi.Proofs.UpstreamLifetime
import ExecRestApi.Model.Resources
import ExecRestApi.Model.RawResources
import ExecRestApi.Proofs.RawResources
