import CloudGateway.Library.LittleEndian
import CloudGateway.Library.KeyedCache
import CloudGateway.Library.Prog
import CloudGateway.Library.Pool
import CloudGateway.Library.Retain
import CloudGateway.Library.TokenBucket
import CloudGateway.Library.Spans
import CloudGateway.Library.Unwinding
import CloudGateway.Library.Lines
import CloudGateway.Siblings
import CloudGateway.DeviceKeys
import CloudGateway.QueueBridge
import CloudGateway.Telemetry
import CloudGateway.Ingest.Pipeline
import CloudGateway.Ingest.Step
import CloudGateway.Ingest.Run
import CloudGateway.Ingest.Logged
import CloudGateway.Ingest.Records
import CloudGateway.Ingest.Integrity
import CloudGateway.Ingest.Interleaving
import CloudGateway.Ingest.Accounting
import CloudGateway.Ingest.Serial
import CloudGateway.RateLimiter
import CloudGateway.RateLimit.Exact
import CloudGateway.RateLimit.Unordered
import CloudGateway.RateLimit.Isolation
import CloudGateway.RateLimit.Purge
import CloudGateway.CircuitBreaker
import CloudGateway.Breaker.Requests
import CloudGateway.Breaker.Outage
import CloudGateway.Backpressure
import CloudGateway.Backpressure.Hysteresis
import CloudGateway.Backpressure.Clients
import CloudGateway.Queue.Codec
import CloudGateway.MetricsExport
import CloudGateway.Metrics.Monotone
import CloudGateway.Metrics.Exposition
import CloudGateway.Metrics.History
import CloudGateway.Backpressure.Monotone
import CloudGateway.Breaker.Trips
import CloudGateway.DeviceKeys.Transparency
import CloudGateway.ContainerBridge
import CloudGateway.Containers.Identity
import CloudGateway.Ingest.Timestamps
import CloudGateway.Ingest.Locks
import CloudGateway.Library.Python
import CloudGateway.Library.SemVer
import CloudGateway.AdvisoryGuard
import CloudGateway.Advisory.Ranges
import CloudGateway.Advisory.Dependents
import CloudGateway.Advisory.Holds
import CloudGateway.Library.Loads
import CloudGateway.Queue.Balance
import CloudGateway.Breaker.Invariant
import CloudGateway.Ingest.Provenance
import CloudGateway.Server
import CloudGateway.Server.Attack
import CloudGateway.Ingest.Histories
import CloudGateway.Ingest.Rejected
import CloudGateway.Ingest.Summary
import CloudGateway.RateLimit.Optimal
import CloudGateway.RateLimit.Seen
import CloudGateway.Backpressure.Recovery
import CloudGateway.Metrics.Scrape
import CloudGateway.Ingest.Monitors
import CloudGateway.Containers.Issued
import CloudGateway.Library.Padded
import CloudGateway.Library.Sweeps
import CloudGateway.HeavySlot
import CloudGateway.HeavySlot.Fifo
import CloudGateway.HeavySlot.Slots
import CloudGateway.HeavySlot.Progress
import CloudGateway.HeavySlot.Sessions
import CloudGateway.HeavySlot.Memory
