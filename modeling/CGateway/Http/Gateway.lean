import CGateway.Lib.Json
import CGateway.Limiter.RateLimiter
import CGateway.Limiter.Backpressure
import CGateway.Limiter.RedisRateLimiter
import CGateway.Abuse.AbuseDetection

/-! # The HTTP gateway: its state, what reaches it and what it does

The file-scope variables of `http_server.c` and of the components it calls form one `Gateway`. Serving a
connection changes the gateway and does things that others can see: it answers the client, asks the
Router, writes to subscribers, charges a tenant. These are the `Effect`s, in the order in which the code
causes them; a `World` is a gateway together with the effects so far.

What comes from outside is passed in: `Host` for the whole process (the environment and the libraries),
`Exchange` for one accepted connection (its bytes, the clock, the replies of the Router). Log lines are
left out, and so are the attributes and ids of tracing spans.

* `sendResponse`, `sendErrorResponse`, `sendRateLimitError`, … — the answers and the counters they keep;
* `sseRegisterClient`, `sseBroadcastJson` — the pool of event subscribers. -/

namespace CGateway

open Bytes CString

/-! ### Responses and contexts -/

/-- The status lines the gateway sends. -/
inductive StatusLine where
  | ok
  | created
  | badRequest
  | unauthorized
  | notFound
  | conflict
  | tooManyRequests
  | internalServerError
  | serviceUnavailable
  deriving DecidableEq, Repr

/-- The status code of a status line. -/
def StatusLine.code : StatusLine → ℕ
  | ok => 200
  | created => 201
  | badRequest => 400
  | unauthorized => 401
  | notFound => 404
  | conflict => 409
  | tooManyRequests => 429
  | internalServerError => 500
  | serviceUnavailable => 503

/-- The text of a status line. -/
def StatusLine.text : StatusLine → List UInt8
  | ok => ascii "HTTP/1.1 200 OK"
  | created => ascii "HTTP/1.1 201 Created"
  | badRequest => ascii "HTTP/1.1 400 Bad Request"
  | unauthorized => ascii "HTTP/1.1 401 Unauthorized"
  | notFound => ascii "HTTP/1.1 404 Not Found"
  | conflict => ascii "HTTP/1.1 409 Conflict"
  | tooManyRequests => ascii "HTTP/1.1 429 Too Many Requests"
  | internalServerError => ascii "HTTP/1.1 500 Internal Server Error"
  | serviceUnavailable => ascii "HTTP/1.1 503 Service Unavailable"

/-- A response: the status line, the header lines behind it and the body. -/
structure Response where
  status : StatusLine
  headers : List UInt8
  body : List UInt8
  deriving DecidableEq, Repr

/-- The bytes of a response on the wire. -/
def Response.wire (r : Response) : List UInt8 :=
  r.status.text ++ ascii "\r\n" ++ r.headers ++ ascii "\r\n" ++ r.body

/-- `request_context_t`; a `NULL` context reads as the empty one. -/
structure RequestContext where
  requestId : List UInt8 := []
  traceId : List UInt8 := []
  tenantId : List UInt8 := []
  runId : List UInt8 := []
  deriving DecidableEq, Repr

/-- The tenant as the limiters are given it: `NULL` when it is empty. -/
def RequestContext.tenant? (ctx : RequestContext) : Option (List UInt8) :=
  if ctx.tenantId = [] then none else some ctx.tenantId

/-- The spans the gateway opens. -/
inductive Span where
  | http
  | nats
  deriving DecidableEq, Repr

/-- The requests to the Router other than the decision itself. -/
inductive RouterQuery where
  | getDecision (tenantId messageId : List UInt8)
  | extensionHealth
  | circuitBreakers
  | dryRun (body : List UInt8)
  | pipelineComplexity (tenantId policyId : List UInt8)
  deriving DecidableEq, Repr

/-- What serving a connection does to the world outside the gateway. -/
inductive Effect where
  /-- A response is written to the client. -/
  | respond (r : Response)
  /-- The header of an event stream is written to the client. -/
  | openStream (fd : ℕ)
  /-- Bytes are written to a subscriber. -/
  | sseWrite (fd : ℕ) (bytes : List UInt8)
  /-- A connection is closed. -/
  | close (fd : ℕ)
  /-- `rate_limit_check` is called for an endpoint and a tenant. -/
  | rateLimitCheck (endpoint : RlEndpoint) (tenantId : Option (List UInt8))
  /-- A command is sent to Redis. -/
  | redis (command : RedisCommand)
  /-- `handle_decide` is entered. -/
  | enterDecide
  /-- `abuse_detection_track_request` is called for a tenant. -/
  | trackRequest (tenantId : List UInt8)
  /-- `abuse_detection_log_event` is called. -/
  | abuseEvent (event : AbuseEventType)
  /-- `nats_request_decide` is called with the text of a RouteRequest. -/
  | natsDecide (route : Json) (text : List UInt8)
  /-- Another request is sent to the Router. -/
  | natsQuery (query : RouterQuery)
  /-- A tracing span begins. -/
  | spanStart (span : Span)
  /-- A tracing span ends. -/
  | spanEnd (span : Span)

/-! ### The state -/

/-- How the request limiter runs. -/
inductive RlMode where
  | unknown
  | memory
  | redis
  | fallback
  | error
  deriving DecidableEq, Repr

/-- `block_entry_t`. -/
structure BlockEntry where
  type : List UInt8
  version : List UInt8
  manifestJson : List UInt8
  deriving DecidableEq, Repr

/-- `sse_client_t` in use. -/
structure SseClient where
  fd : ℕ
  tenantId : List UInt8
  lastWrite : ℤ
  deriving DecidableEq, Repr

/-- `SSE_MAX_CLIENTS` slots, free ones empty. -/
abbrev SsePool := Fin 64 → Option SseClient

/-- The file-scope variables of the gateway process. -/
structure Gateway where
  rlInitialized : Bool
  authRequired : Bool
  rateLimiter : Option Limiter
  rlMode : RlMode
  rlTotalHits : ℕ
  rlTotalExceeded : ℕ
  rlExceededByEndpoint : RlEndpoint → ℕ
  metricRequestsTotal : ℕ
  metricRequestsErrorsTotal : ℕ
  metricRequestsErrors4xx : ℕ
  metricRequestsErrors5xx : ℕ
  metricRequestsRoutesDecidePost : ℕ
  metricRequestsRoutesDecideGet : ℕ
  /-- The Prometheus counter that `metrics_record_http_request` increments. -/
  metricHttpRequestsTotal : ℕ
  metricRateLimitHitsTotal : ℕ
  metricRateLimitAllowedTotal : ℕ
  latencyBuf : ℕ → ℤ
  latencyCount : ℕ
  latencyIndex : ℕ
  startTimeSec : ℤ
  registry : List BlockEntry
  sseClients : SsePool
  abuse : AbuseDetector
  backpressure : BackpressureClient
  redisLimiter : Option RedisLimiter

/-- The gateway when `http_server_run` enters its accept loop. -/
def Gateway.atStart (startTimeSec : ℤ) : Gateway where
  rlInitialized := false
  authRequired := false
  rateLimiter := none
  rlMode := .unknown
  rlTotalHits := 0
  rlTotalExceeded := 0
  rlExceededByEndpoint := fun _ => 0
  metricRequestsTotal := 0
  metricRequestsErrorsTotal := 0
  metricRequestsErrors4xx := 0
  metricRequestsErrors5xx := 0
  metricRequestsRoutesDecidePost := 0
  metricRequestsRoutesDecideGet := 0
  metricHttpRequestsTotal := 0
  metricRateLimitHitsTotal := 0
  metricRateLimitAllowedTotal := 0
  latencyBuf := fun _ => 0
  latencyCount := 0
  latencyIndex := 0
  startTimeSec := startTimeSec
  registry := []
  sseClients := fun _ => none
  abuse := .atStart
  backpressure := .atStart
  redisLimiter := none

/-! ### What comes from outside -/

/-- The environment of the process and the libraries it is linked with. -/
structure Host where
  /-- The environment variables. -/
  getenv : Getenv
  /-- `json_loads(text, 0, &error)`. -/
  jsonLoads : List UInt8 → Option Json
  /-- `json_dumps(value, JSON_COMPACT)`. -/
  jsonDumps : Json → Option (List UInt8)
  /-- `printf("%.*f", digits, (double)num / den)`. -/
  formatQuotient : (digits num : ℕ) → (den : ℤ) → List UInt8

/-- The readings of `time(NULL)` while one connection is served, named by their places in the code. -/
structure Clock where
  /-- `memory_rl_check` and `get_window_start`. -/
  limiter : ℤ
  /-- `send_rate_limit_error`, for the reset time. -/
  limitReset : ℤ
  /-- `send_rate_limit_error`, for the time to wait. -/
  limitRetry : ℤ
  /-- `add_rate_limit_headers`. -/
  limitHeader : ℤ
  /-- `abuse_detection_init`. -/
  abuseInit : ℤ
  abuse : AbuseClock
  /-- `backpressure_client_check_router_status`. -/
  backpressure : ℤ
  redisLimiter : RedisLimiterClock
  /-- `sse_register_client` and `sse_broadcast_json`, by slot. -/
  sse : Fin 64 → ℤ
  /-- The handlers that put a time into their answer. -/
  answer : ℤ

/-- One accepted connection, with what the outside answers while it is served. -/
structure Exchange where
  fd : ℕ
  /-- What successive calls of `read` on the connection would return. -/
  reads : List (List UInt8)
  clientIp : List UInt8
  clock : Clock
  /-- The processor time used, in milliseconds, as `record_latency_ms` is given it. -/
  latencyMs : ℤ
  /-- `get_iso8601_timestamp`. -/
  timestamp : List UInt8
  /-- `nats_request_decide`: the reply, nothing when the call fails. -/
  natsDecide : List UInt8 → Option (List UInt8)
  /-- The other requests to the Router. -/
  natsQuery : RouterQuery → Option (List UInt8)
  /-- `nats_get_status_string`. -/
  natsStatus : List UInt8
  /-- `http_get` of the backpressure client. -/
  httpGet : List UInt8 → Option (List UInt8)
  /-- The two connection attempts of the limiter's initialisation. -/
  redisConnect : RedisConnect × RedisConnect
  /-- The reply to `INCR` on a key. -/
  redisIncr : List UInt8 → RedisReply
  /-- What the stack holds where `handle_decide` declares `redis_rl_result`. -/
  staleResult : RedisLimiterResult
  /-- `prometheus_export_text`, nothing when the text does not fit. -/
  metricsText : Option (List UInt8)
  /-- Whether the n-th write of a broadcast to a subscriber succeeds. -/
  sseAccepts : ℕ → ℕ → Bool

/-! ### The world and its updates -/

/-- A gateway and what it has done so far, the earliest first. -/
structure World where
  gateway : Gateway
  effects : List Effect

/-- Do something visible. -/
def World.emit (w : World) (e : Effect) : World := { w with effects := w.effects ++ [e] }

/-- Change the gateway's variables. -/
def World.update (w : World) (f : Gateway → Gateway) : World := { w with gateway := f w.gateway }

@[simp] theorem World.emit_gateway (w : World) (e : Effect) : (w.emit e).gateway = w.gateway := rfl

@[simp] theorem World.emit_effects (w : World) (e : Effect) : (w.emit e).effects = w.effects ++ [e] := rfl

@[simp] theorem World.update_gateway (w : World) (f : Gateway → Gateway) : (w.update f).gateway = f w.gateway := rfl

@[simp] theorem World.update_effects (w : World) (f : Gateway → Gateway) : (w.update f).effects = w.effects := rfl

/-! ### Counters -/

/-- The error counters after an error response. -/
def countError (status : StatusLine) (g : Gateway) : Gateway :=
  { g with
    metricRequestsErrorsTotal := g.metricRequestsErrorsTotal + 1
    metricRequestsErrors4xx := g.metricRequestsErrors4xx + if status.code / 100 = 4 then 1 else 0
    metricRequestsErrors5xx := g.metricRequestsErrors5xx + if status.code / 100 = 5 then 1 else 0 }

/-- Count a request. -/
def countRequest (g : Gateway) : Gateway := { g with metricRequestsTotal := g.metricRequestsTotal + 1 }

/-- Count a decision request. -/
def countDecidePost (g : Gateway) : Gateway :=
  { g with metricRequestsRoutesDecidePost := g.metricRequestsRoutesDecidePost + 1 }

/-- Count a decision lookup. -/
def countDecideGet (g : Gateway) : Gateway :=
  { g with metricRequestsRoutesDecideGet := g.metricRequestsRoutesDecideGet + 1 }

/-- `record_latency_ms`, into the ring of 256 values. -/
def recordLatencyMs (ms : ℤ) (g : Gateway) : Gateway :=
  { g with
    latencyBuf := Function.update g.latencyBuf g.latencyIndex (max 0 ms)
    latencyIndex := (g.latencyIndex + 1) % 256
    latencyCount := if g.latencyCount < 256 then g.latencyCount + 1 else g.latencyCount }

/-- `metrics_record_http_request`: the labels are not used yet. -/
def metricsRecordHttpRequest (g : Gateway) : Gateway :=
  { g with metricHttpRequestsTotal := g.metricHttpRequestsTotal + 1 }

/-- `percentile_ms`: `-1` without a value, else the one of nearest rank. -/
def percentileMs (p : ℕ) (g : Gateway) : ℤ :=
  if g.latencyCount = 0 then -1
  else
    let sorted := ((List.range g.latencyCount).map g.latencyBuf).mergeSort
    sorted.getD (min (p * (g.latencyCount - 1) / 100) (g.latencyCount - 1)) 0

/-! ### Answers to the client -/

/-- `MAX_REQUEST_SIZE` and `MAX_RESPONSE_SIZE`. -/
def maxMessageSize : ℕ := 65536

/-- The header lines of `send_response`. -/
def responseHeaders (contentType : String) (bodyLen : ℕ) : List UInt8 :=
  ascii "Content-Type: " ++ ascii contentType ++ ascii "\r\nContent-Length: " ++
    decimalNat bodyLen ++ ascii "\r\nConnection: close\r\n"

/-- `send_response` with a JSON body. -/
def sendResponse (status : StatusLine) (body : List UInt8) (w : World) : World :=
  w.emit (.respond ⟨status, responseHeaders "application/json" body.length, body⟩)

/-- The context member of an error body. -/
def contextText (ctx : RequestContext) : List UInt8 :=
  ascii "\"context\":\x7b\"request_id\":\"" ++ ctx.requestId ++ ascii "\",\"trace_id\":\"" ++
    ctx.traceId ++ ascii "\",\"tenant_id\":\"" ++ ctx.tenantId ++ ascii "\"\x7d\x7d"

theorem length_contextText (ctx : RequestContext) :
    (contextText ctx).length = 57 + ctx.requestId.length + ctx.traceId.length + ctx.tenantId.length := by
  have hrequest : (ascii "\"context\":\x7b\"request_id\":\"").length = 25 := length_ascii_ofList _
  have htrace : (ascii "\",\"trace_id\":\"").length = 14 := length_ascii_ofList _
  have htenant : (ascii "\",\"tenant_id\":\"").length = 15 := length_ascii_ofList _
  have hend : (ascii "\"\x7d\x7d").length = 3 := length_ascii_ofList _
  simp only [contextText, List.length_append, hrequest, htrace, htenant, hend]
  omega

/-- How every error body begins: up to the end of the error code. -/
def errorHead (code : List UInt8) : List UInt8 :=
  ascii "\x7b\"ok\":false,\"error\":\x7b\"code\":\"" ++ code ++ ascii "\","

theorem length_errorHead (code : List UInt8) : (errorHead code).length = 31 + code.length := by
  have hstart : (ascii "\x7b\"ok\":false,\"error\":\x7b\"code\":\"").length = 29 := length_ascii_ofList _
  have hend : (ascii "\",").length = 2 := length_ascii_ofList _
  simp only [errorHead, List.length_append, hstart, hend]
  omega

/-- The error body of the gateway; no intake code is ever passed. -/
def errorBody (code message : List UInt8) (ctx : RequestContext) : List UInt8 :=
  errorHead code ++ ascii "\"message\":\"" ++ message ++
    ascii "\",\"intake_error_code\":null,\"details\":\x7b\x7d\x7d," ++ contextText ctx

theorem length_errorBody (code message : List UInt8) (ctx : RequestContext) :
    (errorBody code message ctx).length = 140 + code.length + message.length + ctx.requestId.length +
      ctx.traceId.length + ctx.tenantId.length := by
  have hmessage : (ascii "\"message\":\"").length = 11 := length_ascii_ofList _
  have hintake : (ascii "\",\"intake_error_code\":null,\"details\":\x7b\x7d\x7d,").length = 41 := length_ascii_ofList _
  simp only [errorBody, List.length_append, length_errorHead, length_contextText, hmessage, hintake]
  omega

/-- The body in place of one that does not fit. -/
def fallbackErrorBody : List UInt8 := errorBody (ascii "internal") (ascii "internal error") {}

/-- The body cut to what the response buffer holds. -/
def boundedErrorBody (code message : List UInt8) (ctx : RequestContext) : List UInt8 :=
  let body := errorBody code message ctx
  if body.length < maxMessageSize then body else fallbackErrorBody

/-- `send_error_response` and `send_error_response_with_conflict`, which differ in their log lines. -/
def sendErrorResponse (status : StatusLine) (code message : String) (ctx : RequestContext) (w : World) : World :=
  sendResponse status (boundedErrorBody (ascii code) (ascii message) ctx) (w.update (countError status))

/-- `send_error_response_with_retry_after`: the length is sent twice. -/
def sendErrorResponseWithRetryAfter (status : StatusLine) (code message : String)
    (retryAfterSeconds : ℕ) (ctx : RequestContext) (w : World) : World :=
  let body := boundedErrorBody (ascii code) (ascii message) ctx
  let headers := ascii "Content-Type: application/json\r\nContent-Length: " ++
    decimalNat body.length ++ ascii "\r\nRetry-After: " ++ decimalNat retryAfterSeconds ++
    ascii "\r\nContent-Length: " ++ decimalNat body.length ++ ascii "\r\nConnection: close\r\n"
  (w.emit (.respond ⟨status, headers, body⟩)).update (countError status)

/-- `get_endpoint_limit` of the HTTP server. -/
def getEndpointLimit (getenv : Getenv) (endpoint : RlEndpoint) : ℤ :=
  envToInt getenv (limitSetting endpoint).1 (limitSetting endpoint).2

/-- `get_ttl_seconds` of the HTTP server. -/
def getTtlSeconds (getenv : Getenv) : ℤ := envToInt getenv "GATEWAY_RATE_LIMIT_TTL_SECONDS" 60

/-- The path that names an endpoint in a limit error. -/
def endpointName : RlEndpoint → List UInt8
  | .routesDecide => ascii "/api/v1/routes/decide"
  | .messages => ascii "/api/v1/messages"
  | .registryBlocks => ascii "/api/v1/registry/blocks"

/-- `add_rate_limit_headers`. -/
def rateLimitHeaders (limit remaining now ttl : ℤ) : List UInt8 :=
  ascii "X-RateLimit-Limit: " ++ decimal limit ++ ascii "\r\nX-RateLimit-Remaining: " ++
    decimal remaining ++ ascii "\r\nX-RateLimit-Reset: " ++ decimal (now + ttl) ++
    ascii "\r\nRetry-After: " ++ decimal ttl ++ ascii "\r\n"

/-- The body of `send_rate_limit_error`. -/
def rateLimitBody (endpoint : RlEndpoint) (limit retryAfter : ℤ) (ctx : RequestContext) :
    List UInt8 :=
  errorHead (ascii "rate_limit_exceeded") ++ ascii "\"message\":\"Rate limit exceeded for endpoint " ++
    endpointName endpoint ++ ascii "\",\"intake_error_code\":null,\"details\":\x7b\"endpoint\":\"" ++
    endpointName endpoint ++ ascii "\",\"limit\":" ++ decimal limit ++
    ascii ",\"retry_after_seconds\":" ++ decimal retryAfter ++ ascii "\x7d\x7d," ++ contextText ctx

/-- The response of `send_rate_limit_error`. -/
def rateLimitResponse (h : Host) (x : Exchange) (endpoint : RlEndpoint) (ctx : RequestContext) :
    Response :=
  let limit := getEndpointLimit h.getenv endpoint
  let ttl := getTtlSeconds h.getenv
  let retryAfter := max 0 ((x.clock.limitReset + ttl) - x.clock.limitRetry)
  let body := rateLimitBody endpoint limit retryAfter ctx
  let headers := ascii "Content-Type: application/json\r\nContent-Length: " ++
    decimalNat body.length ++ ascii "\r\n" ++ rateLimitHeaders limit 0 x.clock.limitHeader ttl
  let full : Response := ⟨.tooManyRequests, headers, body⟩
  if full.wire.length < maxMessageSize + 512 then full
  else ⟨.tooManyRequests, responseHeaders "application/json" body.length, body⟩

/-- The counters after a limit error: of the error counters only the total is kept. -/
def countLimitError (g : Gateway) : Gateway :=
  { g with
    metricRequestsErrorsTotal := g.metricRequestsErrorsTotal + 1
    metricRateLimitHitsTotal := g.metricRateLimitHitsTotal + 1 }

/-- `send_rate_limit_error`. -/
def sendRateLimitError (h : Host) (x : Exchange) (endpoint : RlEndpoint) (ctx : RequestContext)
    (w : World) : World :=
  let response := rateLimitResponse h x endpoint ctx
  if response.body.length < maxMessageSize then
    (w.emit (.respond response)).update countLimitError
  else sendErrorResponse .tooManyRequests "rate_limit_exceeded" "Rate limit exceeded" ctx w

/-! ### Event subscribers -/

/-- Write a slot of the subscriber pool. -/
def setSseSlot (i : Fin 64) (client : Option SseClient) (g : Gateway) : Gateway :=
  { g with sseClients := Function.update g.sseClients i client }

/-- `sse_unregister_fd`: the first slot with that descriptor is freed. -/
def sseUnregisterFd (fd : ℕ) (w : World) : World :=
  match (List.finRange 64).find? fun i => (w.gateway.sseClients i).any (·.fd == fd) with
  | none => w
  | some i => (w.emit (.close fd)).update (setSseSlot i none)

/-- `sse_register_client`: whether a free slot was found. -/
def sseRegisterClient (x : Exchange) (tenantId : List UInt8) (w : World) : Bool × World :=
  let w := (w.emit (.openStream x.fd)).emit (.sseWrite x.fd (ascii ": connected\n\n"))
  match (List.finRange 64).find? fun i => (w.gateway.sseClients i).isNone with
  | none => (false, w.emit (.sseWrite x.fd (ascii ":pool_full\n\n")))
  | some i =>
      (true, w.update (setSseSlot i (some ⟨x.fd, copyField 64 tenantId, x.clock.sse i⟩)))

/-- The writes of one event to one subscriber, up to the first that fails; whether all went through. -/
def sseWrites (x : Exchange) (fd : ℕ) : ℕ → List (List UInt8) → World → Bool × World
  | _, [], w => (true, w)
  | n, bytes :: rest, w =>
      if x.sseAccepts fd n then sseWrites x fd (n + 1) rest (w.emit (.sseWrite fd bytes))
      else (false, w)

/-- `sse_broadcast_json` at one slot. -/
def sseBroadcastSlot (x : Exchange) (tenantId event json : List UInt8) (i : Fin 64) (w : World) :
    World :=
  match w.gateway.sseClients i with
  | none => w
  | some client =>
      if tenantId ≠ [] ∧ tenantId ≠ client.tenantId then w
      else
        let pieces :=
          [(ascii "event: " ++ event ++ ascii "\n").take 127, ascii "data: ", json, ascii "\n\n"]
        match sseWrites x client.fd 0 pieces w with
        | (false, w) => sseUnregisterFd client.fd w
        | (true, w) => w.update (setSseSlot i (some { client with lastWrite := x.clock.sse i }))

/-- `sse_broadcast_json`: the slots in order. -/
def sseBroadcastJson (x : Exchange) (tenantId event json : List UInt8) (w : World) : World :=
  (List.finRange 64).foldl (fun w i => sseBroadcastSlot x tenantId event json i w) w

end CGateway
