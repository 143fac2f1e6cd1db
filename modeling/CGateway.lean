import CGateway.Lib.Bytes
import CGateway.Lib.CString
import CGateway.Lib.Utf8
import CGateway.Lib.Json
import CGateway.Lib.Machine
import CGateway.Lib.StreamParser
import CGateway.Lib.Slots
import CGateway.Lib.Windows
import CGateway.Lib.CounterStore
import CGateway.Lib.Compact
import CGateway.Lib.LinkedList
import CGateway.Environment
import CGateway.Breaker.CircuitBreaker
import CGateway.Breaker.HistoryLaw
import CGateway.Breaker.ProbeCap
import CGateway.Breaker.Recovery
import CGateway.Ipc.Protocol
import CGateway.Ipc.Server
import CGateway.Ipc.Reference
import CGateway.Ipc.Reassembly
import CGateway.Ipc.Responses
import CGateway.Ipc.Streaming
import CGateway.Pool.BufferPool
import CGateway.Pool.NatsPool
import CGateway.Pool.Bounds
import CGateway.Pool.MinSize
import CGateway.Pool.Ownership
import CGateway.Limiter.RateLimiter
import CGateway.Limiter.FixedWindow
import CGateway.Limiter.RedisKeys
import CGateway.Limiter.Distributed
import CGateway.Limiter.Agreement
import CGateway.Limiter.Backpressure
import CGateway.Limiter.RedisRateLimiter
import CGateway.Abuse.AbuseDetection
import CGateway.Http.Gateway
import CGateway.Http.RouteRequest
import CGateway.Http.Decide
import CGateway.Http.Registry
import CGateway.Http.Server
import CGateway.Http.Frame
import CGateway.Http.DecidePath
import CGateway.Http.ParseRequest
import CGateway.Http.AuthGate
import CGateway.Http.RouterErrors
import CGateway.Http.TaskLoss
import CGateway.Http.Tenant
import CGateway.Http.Conflict
import CGateway.Http.Segmentation
import CGateway.Http.RedisOutage
import CGateway.Ipc.SessionLog
import CGateway.Ipc.Capacity
import CGateway.Ipc.Attribution
import CGateway.Ipc.Inflight
import CGateway.Nats.Resilience
import CGateway.Nats.InFlight
import CGateway.Nats.Backoff
import CGateway.Limiter.RedisBreaker
import CGateway.Limiter.FailClosed
import CGateway.Http.StaleResult
import CGateway.Abuse.TrackingTable
import CGateway.Http.AbuseEvents
import CGateway.Audit.AuditLog
import CGateway.Audit.Rotation
import CGateway.Abuse.TenantHistory
import CGateway.Abuse.Evasion
import CGateway.Abuse.TargetedRate
import CGateway.Lib.BoundedMap
import CGateway.Http.Broadcast
import CGateway.Http.Stores
import CGateway.Http.BlockRegistry
import CGateway.Http.Subscriptions
import CGateway.Http.Announcements
import CGateway.Lib.EventStream
import CGateway.Http.Spans
import CGateway.Lib.JsonText
import CGateway.Ipc.NatsBridge
import CGateway.Http.PiiFilter
import CGateway.Audit.ShortWrites
import CGateway.Lib.JsonDoc
import CGateway.Log.Sanitizer
import CGateway.Log.Scanner
import CGateway.Log.Masking
import CGateway.Http.HeaderCase
import CGateway.Http.ErrorCounters
import CGateway.Lib.Search
import CGateway.Metrics.Prometheus
import CGateway.Lib.JsonMembers
import CGateway.Http.RouterContract
import CGateway.Lib.Brackets
import CGateway.Http.SchemaNodes
import CGateway.Http.LimitHeaders
import CGateway.Ipc.JsonValidator
import CGateway.Http.ErrorBodies
import CGateway.Http.ForwardedErrors
import CGateway.Http.Latency
import CGateway.Lib.RingBuffer
import CGateway.Http.QueryParams
import CGateway.Lib.Printf
import CGateway.Metrics.ExportBuffer
import CGateway.Metrics.Histogram
import CGateway.Lib.Hex
import CGateway.Lib.Scanf
import CGateway.Tracing.Traceparent
import CGateway.Tracing.TraceContext
import CGateway.Ipc.FrameLoop
import CGateway.Http.PolicyRoute
import CGateway.Ipc.Config
import CGateway.Ipc.ConfigPrint
import CGateway.Ipc.EventLoop
