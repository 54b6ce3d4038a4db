import CentralOps.Collection.SuppressWindow
import CentralOps.Pipeline.Enqueue
import CentralOps.Delivery.KafkaLane
import CentralOps.Delivery.Recovery
import CentralOps.Delivery.Bulkhead
import CentralOps.Normalize.Identity
import CentralOps.Normalize.Containment
import CentralOps.Normalize.DotPath
import CentralOps.Enrich.Egress
import CentralOps.Inflight.FailClosed
import CentralOps.Inflight.Custody
import CentralOps.Limits.Slots
import CentralOps.Limits.Rate
import CentralOps.Enrich.SingleFlight
import CentralOps.Enrich.Freshness
import CentralOps.Ingest.Buffer
import CentralOps.Ingest.Receiver
import CentralOps.Ingest.Framing
import CentralOps.Collection.Cycle
import CentralOps.Collection.BackfillJob
import CentralOps.Senders.PayloadShape
import CentralOps.Delivery.CircuitBreaker
import CentralOps.Inflight.Dedup
import CentralOps.Limits.Lockout
import CentralOps.Collection.OauthCache
import CentralOps.Retention.Erasure
import CentralOps.Routing.Reachability
import CentralOps.Collection.Signature
import CentralOps.Routing.SampleRate
import CentralOps.Routing.Noninterference
import CentralOps.Delivery.Coalesce
import CentralOps.Collection.WazuhDetections
import CentralOps.Collection.SophosSiem
import CentralOps.Inflight.SlidingWindow
import CentralOps.Senders.PoisonIsolation
import CentralOps.Delivery.KafkaFraming
import CentralOps.Delivery.Chunks
import CentralOps.Normalize.Required
import CentralOps.Normalize.DriftWalk
import CentralOps.Normalize.RuleOrder
import CentralOps.Ingest.SourceTable
import CentralOps.Enrich.RadixTree
import CentralOps.Enrich.RateLimit
import CentralOps.Inflight.FlushCap
import CentralOps.Senders.StructuredData
import CentralOps.Enrich.BudgetGate
import CentralOps.Inflight.Aggregation
import CentralOps.Organizations.Hierarchy
import CentralOps.Routing.Preview
import CentralOps.Config.Tenancy
import CentralOps.Retention.Pruning
import CentralOps.Limits.Quota
import CentralOps.Pipeline.Quarantine
import CentralOps.Senders.S3Retention
import CentralOps.Correlation.Threshold
import CentralOps.Config.Convergence
