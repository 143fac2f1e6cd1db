import CGateway.Lib.Machine
import CGateway.Http.Decide
import CGateway.Http.Registry

/-! # Serving a connection

`handle_client`: one `read`, the request line, the header lines, the route, the answer. The routes are
tried in the order of the source; each has its own way of ending (with or without a latency sample, a
Prometheus sample, the end of the span), which the model keeps.

* `parseRequest` — what `handle_client` makes of the bytes it read;
* `routeOf`, `serve` — the chain of routes and their handlers;
* `handleClient`, `httpStep` — one connection, as a step of the gateway. -/

namespace CGateway

open Bytes CString Json

/-! ### Reading a request -/

/-- What `handle_client` has taken from a request. -/
structure HttpRequest where
  method : List UInt8
  path : List UInt8
  ctx : RequestContext
  hasTenantHeader : Bool
  hasAuthHeader : Bool
  body : List UInt8
  deriving DecidableEq, Repr

/-- The header lines read so far. -/
structure HeaderState where
  ctx : RequestContext := {}
  hasTenantHeader : Bool := false
  hasAuthHeader : Bool := false

/-- The value of a header line whose name, with its colon, is so long. -/
def headerValue (name : String) (line : List UInt8) : List UInt8 :=
  skipBlanks (line.drop (ascii name).length)

/-- One turn of the header loop. `traceparent` is looked for before `Authorization`, but only decides
under which trace the span is opened. -/
def readHeader (st : HeaderState) (line : List UInt8) : HeaderState :=
  -- The gateway's own headers are compared with `strncmp`, so their case matters.
  if (ascii "X-Tenant-ID:").isPrefixOf line then
    { st with
      hasTenantHeader := true
      ctx := { st.ctx with tenantId := copyField 64 (headerValue "X-Tenant-ID:" line) } }
  else if (ascii "X-Trace-ID:").isPrefixOf line then
    { st with ctx := { st.ctx with traceId := copyField 64 (headerValue "X-Trace-ID:" line) } }
  else if startsIgnoreCase (ascii "traceparent:") line then st
  else if (ascii "Authorization:").isPrefixOf line then { st with hasAuthHeader := true }
  else st

/-- The bytes that end a header line for `strtok_r`. -/
def isLineEnd (b : UInt8) : Bool := b == 13 || b == 10

/-- The head and the body of a request: the body is empty where the blank line is missing. -/
def splitRequest (received : List UInt8) : List UInt8 × List UInt8 :=
  let buffer := cstr received
  match splitFirst (ascii "\r\n\r\n") buffer with
  | some parts => parts
  | none => (buffer, [])

/-- The request in the bytes that were read; nothing when the request line has no two words. -/
def parseRequest (received : List UInt8) : Option HttpRequest :=
  let (head, body) := splitRequest received
  match tokens isLineEnd head with
  | [] => none
  | line :: headerLines =>
      match tokens (· == 32) line with
      | method :: path :: _ =>
          -- A header that comes twice overwrites itself.
          let st := headerLines.foldl readHeader {}
          some ⟨method, path, st.ctx, st.hasTenantHeader, st.hasAuthHeader, body⟩
      | _ => none

/-! ### The routes -/

/-- The branches of `handle_client`, with the part of the path behind the branch's own. -/
inductive Route where
  | health
  | metricsJson
  | metrics
  | registry (rest : List UInt8)
  | getDecision (messageId : List UInt8)
  | message (messageId : List UInt8)
  | stream
  | decide (endpoint : RlEndpoint)
  | extensionsHealth
  | circuitBreakers
  | dryRun
  | policies (rest : List UInt8)
  | unknown
  deriving DecidableEq, Repr

/-- The rest of the path behind a beginning. -/
def behind (start : String) (path : List UInt8) : List UInt8 := path.drop (ascii start).length

/-- The branch that a method and a path take. -/
def routeOf (method path : List UInt8) : Route :=
  let starts (start : String) : Bool := (ascii start).isPrefixOf path
  if method = ascii "GET" ∧ (path = ascii "/health" ∨ path = ascii "/_health") then .health
  else if method = ascii "GET" ∧ path = ascii "/_metrics" then .metricsJson
  else if method = ascii "GET" ∧ path = ascii "/metrics" then .metrics
  else if (method = ascii "POST" ∨ method = ascii "PUT" ∨ method = ascii "DELETE") ∧
      starts "/api/v1/registry/blocks/" then
    .registry (behind "/api/v1/registry/blocks/" path)
  else if method = ascii "GET" ∧ starts "/api/v1/routes/decide/" then
    .getDecision (behind "/api/v1/routes/decide/" path)
  else if (method = ascii "PUT" ∨ method = ascii "DELETE") ∧ starts "/api/v1/messages/" then
    .message (behind "/api/v1/messages/" path)
  else if method = ascii "GET" ∧ starts "/api/v1/messages/stream" then .stream
  else if method = ascii "POST" ∧ path = ascii "/api/v1/messages" then .decide .messages
  else if method = ascii "POST" ∧ path = ascii "/api/v1/routes/decide" then .decide .routesDecide
  else if method = ascii "GET" ∧ path = ascii "/api/v1/extensions/health" then .extensionsHealth
  else if method = ascii "GET" ∧ path = ascii "/api/v1/extensions/circuit-breakers" then
    .circuitBreakers
  else if method = ascii "POST" ∧ path = ascii "/api/v1/policies/dry-run" then .dryRun
  else if method = ascii "GET" ∧ starts "/api/v1/policies/" then
    .policies (behind "/api/v1/policies/" path)
  else .unknown

/-! ### Ways of ending -/

/-- Close the client's connection. -/
def closeClient (x : Exchange) (w : World) : World := w.emit (.close x.fd)

/-- End the request's span. -/
def endSpan (w : World) : World := w.emit (.spanEnd .http)

/-- Take a latency sample. -/
def sampleLatency (x : Exchange) (w : World) : World := w.update (recordLatencyMs x.latencyMs)

/-- Take a latency sample and count the request in Prometheus. -/
def sampleRequest (x : Exchange) (w : World) : World :=
  (sampleLatency x w).update metricsRecordHttpRequest

/-- The common end of `handle_client`. -/
def finish (x : Exchange) (w : World) : World := closeClient x (endSpan w)

/-! ### Handlers without a limit check -/

/-- `handle_health`. -/
def handleHealth (h : Host) (x : Exchange) (w : World) : World :=
  let body := (h.jsonDumps (.object
    [(ascii "status", .string (ascii "healthy")), (ascii "timestamp", .string x.timestamp)])).getD
      (ascii "\x7b\"status\":\"healthy\",\"timestamp\":\"error\"\x7d")
  sendResponse .ok body w

/-- The body of `handle_metrics_json`. -/
def metricsJsonBody (h : Host) (x : Exchange) (g : Gateway) : List UInt8 :=
  let uptime := max 1 (x.clock.answer - g.startTimeSec)
  let errRate :=
    if 0 < g.metricRequestsTotal then
      h.formatQuotient 5 g.metricRequestsErrorsTotal g.metricRequestsTotal
    else h.formatQuotient 5 0 1
  ascii "\x7b\"rps\":" ++ h.formatQuotient 3 g.metricRequestsTotal uptime ++
    ascii ",\"latency\":\x7b\"p50\":" ++ decimal (percentileMs 50 g) ++ ascii ",\"p95\":" ++
    decimal (percentileMs 95 g) ++ ascii "\x7d,\"error_rate\":" ++ errRate ++
    ascii ",\"rate_limit\":\x7b\"total_hits\":" ++ decimalNat g.rlTotalHits ++
    ascii ",\"total_exceeded\":" ++ decimalNat g.rlTotalExceeded ++
    ascii ",\"exceeded_by_endpoint\":\x7b\"routes_decide\":" ++
    decimalNat (g.rlExceededByEndpoint .routesDecide) ++ ascii ",\"messages\":" ++
    decimalNat (g.rlExceededByEndpoint .messages) ++ ascii ",\"registry_blocks\":" ++
    decimalNat (g.rlExceededByEndpoint .registryBlocks) ++ ascii "\x7d\x7d\x7d,\"nats\":\"" ++
    x.natsStatus ++ ascii "\",\"ts\":" ++ decimal x.clock.answer ++ ascii "\x7d"

/-- The body in place of one that does not fit into 512 bytes. -/
def metricsJsonFallback : List UInt8 :=
  ascii "\x7b\"rps\":0,\"latency\":\x7b\"p50\":-1,\"p95\":-1\x7d,\"error_rate\":0," ++
    ascii "\"rate_limit\":\x7b\"total_hits\":0,\"total_exceeded\":0," ++
    ascii "\"exceeded_by_endpoint\":\x7b\"routes_decide\":0,\"messages\":0," ++
    ascii "\"registry_blocks\":0\x7d\x7d\x7d,\"nats\":\"unknown\"\x7d"

/-- The start time, set late where the server has not set it. -/
def setStartTime (now : ℤ) (g : Gateway) : Gateway :=
  { g with startTimeSec := if g.startTimeSec = 0 then now else g.startTimeSec }

/-- `handle_metrics_json`. -/
def handleMetricsJson (h : Host) (x : Exchange) (w : World) : World :=
  let w := w.update (setStartTime x.clock.answer)
  let body := metricsJsonBody h x w.gateway
  sendResponse .ok (if body.length < 512 then body else metricsJsonFallback) w

/-- `handle_metrics_request`; the announced length of its error text is not the text's. -/
def handleMetricsRequest (x : Exchange) (w : World) : World :=
  match x.metricsText with
  | none =>
      w.emit (.respond ⟨.internalServerError, ascii "Content-Type: text/plain\r\nContent-Length: 35\r\n",
        ascii "Internal Server Error: metrics export failed\n"⟩)
  | some text =>
      w.emit (.respond ⟨.ok, ascii "Content-Type: text/plain; version=0.0.4; charset=utf-8\r\nContent-Length: " ++
          decimalNat text.length ++ ascii "\r\n", text⟩)

/-- `handle_extensions_health` and `handle_circuit_breakers`: the reply is passed on as a success. -/
def handleQuery (x : Exchange) (query : RouterQuery) (ctx : RequestContext) (w : World) : World :=
  let w := w.emit (.natsQuery query)
  match x.natsQuery query with
  | none =>
      sendErrorResponse .serviceUnavailable "SERVICE_UNAVAILABLE" "Router or NATS unavailable" ctx w
  | some reply => sendResponse .ok (respBuf reply) w

/-- A query whose reply is passed on with the status of its error code. -/
def handleMappedQuery (h : Host) (x : Exchange) (query : RouterQuery) (ctx : RequestContext) (w : World) : World :=
  let w := w.emit (.natsQuery query)
  match x.natsQuery query with
  | none =>
      sendErrorResponse .serviceUnavailable "SERVICE_UNAVAILABLE" "Router or NATS unavailable" ctx w
  | some reply =>
      let resp := respBuf reply
      sendResponse (queryStatusLine (mapRouterErrorStatus h.jsonLoads resp)) resp w

/-- `handle_dry_run_pipeline`. -/
def handleDryRunPipeline (h : Host) (x : Exchange) (body : List UInt8) (ctx : RequestContext)
    (w : World) : World :=
  if body = [] then sendErrorResponse .badRequest "INVALID_REQUEST" "empty request body" ctx w
  else handleMappedQuery h x (.dryRun body) ctx w

/-- `handle_pipeline_complexity`. -/
def handlePipelineComplexity (h : Host) (x : Exchange) (tenantId policyId : List UInt8)
    (ctx : RequestContext) (w : World) : World :=
  if tenantId = [] ∨ policyId = [] then
    sendErrorResponse .badRequest "INVALID_REQUEST" "missing tenant_id or policy_id" ctx w
  else handleMappedQuery h x (.pipelineComplexity tenantId policyId) ctx w

/-- `handle_get_decision`: a reply that is passed on as a success is announced to the tenant. -/
def handleGetDecision (h : Host) (x : Exchange) (messageId : List UInt8) (ctx : RequestContext)
    (w : World) : World :=
  if messageId = [] then sendErrorResponse .badRequest "invalid_request" "empty message_id" ctx w
  else if ctx.tenantId = [] then
    sendErrorResponse .badRequest "invalid_request" "missing tenant_id for decision lookup" ctx w
  else
    let query := RouterQuery.getDecision ctx.tenantId messageId
    let w := w.emit (.natsQuery query)
    match x.natsQuery query with
    | none =>
        sendErrorResponse .serviceUnavailable "internal" "router or NATS unavailable" ctx w
    | some reply =>
        let resp := respBuf reply
        let status := queryStatusLine (mapRouterErrorStatus h.jsonLoads resp)
        let w := sendResponse status resp w
        if status = .ok then sseBroadcastJson x ctx.tenantId (ascii "message_created") resp w else w

/-! ### The branches of `handle_client` -/

/-- The registry branch. -/
def serveRegistry (h : Host) (x : Exchange) (rq : HttpRequest) (rest : List UInt8) (w : World) :
    World :=
  let type := (rest.takeWhile (· != 47)).take 127
  match rest.dropWhile (· != 47) with
  | [] =>
      -- The span is not ended here.
      closeClient x (sampleLatency x
        (sendErrorResponse .badRequest "invalid_request" "missing version segment" rq.ctx w))
  | _ :: version =>
      if version = [] then
        closeClient x (endSpan (sampleLatency x
          (sendErrorResponse .badRequest "invalid_request" "empty version" rq.ctx w)))
      else
        match rateLimitCheck h x .registryBlocks (some rq.ctx.tenantId) w with
        | (.allowed, w) =>
            let w :=
              if rq.method = ascii "DELETE" then handleRegistryDelete x type version w
              else handleRegistryWriteCommon h x type version rq.body w
            finish x (sampleLatency x w)
        | (_, w) => finish x (sendRateLimitError h x .registryBlocks rq.ctx w)

/-- The branch of `GET /api/v1/routes/decide/:messageId`. -/
def serveGetDecision (h : Host) (x : Exchange) (rq : HttpRequest) (messageId : List UInt8) (w : World) : World :=
  if messageId = [] then
    finish x (sendErrorResponse .badRequest "invalid_request" "missing message_id path parameter" rq.ctx w)
  else
    match rateLimitCheck h x .routesDecide (some rq.ctx.tenantId) w with
    | (.allowed, w) =>
        finish x (sampleLatency x (handleGetDecision h x messageId rq.ctx (w.update countDecideGet)))
    | (_, w) => finish x (sendRateLimitError h x .routesDecide rq.ctx w)

/-- The body names another message than the path. -/
def messageIdMismatch (members : Members) (messageId : List UInt8) : Bool :=
  match asString (lookup members (ascii "message_id")) with
  | none => false
  | some mid => mid != messageId

/-- `PUT /api/v1/messages/:id` behind the limit. -/
def putMessage (h : Host) (x : Exchange) (rq : HttpRequest) (messageId : List UInt8) (w : World) :
    World :=
  if rq.body = [] then
    finish x (sendErrorResponse .badRequest "invalid_request" "empty body" rq.ctx w)
  else
    match asObject (h.jsonLoads rq.body) with
    | none => finish x (sendErrorResponse .badRequest "invalid_request" "invalid JSON" rq.ctx w)
    | some members =>
        if messageIdMismatch members messageId then
          finish x (sendErrorResponse .conflict "conflict" "message_id mismatch with path" rq.ctx w)
        else
          finish x (sampleLatency x (sseBroadcastJson x rq.ctx.tenantId (ascii "message_updated") rq.body
              (sendResponse .ok rq.body w)))

/-- `DELETE /api/v1/messages/:id` behind the limit: a long id is refused, one that is not quite as long
is deleted without an event. -/
def deleteMessage (x : Exchange) (rq : HttpRequest) (messageId : List UInt8) (w : World) : World :=
  let resp := ascii "\x7b\"status\":\"deleted\",\"message_id\":\"" ++ messageId ++ ascii "\"\x7d"
  let evt := ascii "\x7b\"message_id\":\"" ++ messageId ++ ascii "\"\x7d"
  if 256 ≤ resp.length then
    closeClient x (sendErrorResponse .badRequest "invalid_request" "bad message_id" rq.ctx w)
  else
    let w := sendResponse .ok resp w
    let w :=
      if evt.length < 128 then
        sseBroadcastJson x rq.ctx.tenantId (ascii "message_deleted") evt w
      else w
    finish x (sampleLatency x w)

/-- The branch of `PUT` and `DELETE /api/v1/messages/:id`. -/
def serveMessage (h : Host) (x : Exchange) (rq : HttpRequest) (messageId : List UInt8) (w : World) :
    World :=
  if messageId = [] then
    closeClient x (sendErrorResponse .badRequest "invalid_request" "missing message_id" rq.ctx w)
  else if rq.ctx.tenantId = [] then
    closeClient x
      (sendErrorResponse .badRequest "invalid_request" "missing X-Tenant-ID header" rq.ctx w)
  else
    match rateLimitCheck h x .messages (some rq.ctx.tenantId) w with
    | (.allowed, w) =>
        if rq.method = ascii "PUT" then putMessage h x rq messageId w
        else deleteMessage x rq messageId w
    -- Unlike the other branches, this one leaves the span of a limited request open.
    | (_, w) => closeClient x (sendRateLimitError h x .messages rq.ctx w)

/-- `query_get_param` on what follows the question mark, `fuel` bounding the number of parameters. -/
def queryParam (key : List UInt8) (buflen : ℕ) : ℕ → List UInt8 → Option (List UInt8)
  | 0, _ => none
  | fuel + 1, q =>
      if q = [] ∨ 61 ∉ q then none
      else
        let name := q.takeWhile (· != 61)
        let piece := q.takeWhile (· != 38)
        let value := (q.dropWhile (· != 61)).drop 1
        -- `vlen` is unsigned: an ampersand before the equals sign makes it huge.
        let vlen := if name.length < piece.length then piece.length - name.length - 1 else buflen
        if name = key then some (value.take (min vlen (buflen - 1)))
        else queryParam key buflen fuel ((q.dropWhile (· != 38)).drop 1)

/-- `query_get_param`. -/
def queryGetParam (pathWithQuery key : List UInt8) (buflen : ℕ) : Option (List UInt8) :=
  match pathWithQuery.dropWhile (· != 63) with
  | [] => none
  | _ :: q => queryParam key buflen (q.length + 1) q

/-- The branch of `GET /api/v1/messages/stream`: a registered client stays open. -/
def serveStream (x : Exchange) (rq : HttpRequest) (w : World) : World :=
  match queryGetParam rq.path (ascii "tenant_id") 64 with
  | none | some [] =>
      closeClient x (sendErrorResponse .badRequest "invalid_request" "missing tenant_id" rq.ctx w)
  | some tenant =>
      match sseRegisterClient x tenant w with
      | (true, w) => endSpan (sampleLatency x w)
      | (false, w) => finish x (sampleLatency x w)

/-- `handle_decide` and the samples taken behind it. -/
def serveAdmitted (h : Host) (x : Exchange) (rq : HttpRequest) (w : World) : World :=
  finish x (sampleRequest x (handleDecide h x rq.body rq.ctx w))

/-- The branch of `POST /api/v1/messages` and `POST /api/v1/routes/decide`. -/
def serveDecide (h : Host) (x : Exchange) (rq : HttpRequest) (endpoint : RlEndpoint) (w : World) :
    World :=
  -- The flag is read here; what sets it is called by the limit check below.
  if w.gateway.authRequired && !rq.hasAuthHeader then
    closeClient x
      (sendErrorResponse .unauthorized "unauthorized" "missing Authorization header" rq.ctx w)
  else if !rq.hasTenantHeader then
    closeClient x
      (sendErrorResponse .badRequest "invalid_request" "missing X-Tenant-ID header" rq.ctx w)
  else
    match endpoint with
    | .routesDecide =>
        -- `rate_limit_check_routes_decide` tells a limiter error from an exhausted limit.
        match rateLimitCheck h x .routesDecide rq.ctx.tenant? w with
        | (.allowed, w) => serveAdmitted h x rq (w.update countDecidePost)
        | (.exceeded, w) => finish x (sendRateLimitError h x .routesDecide rq.ctx w)
        | (.error, w) =>
            finish x (sendErrorResponse .serviceUnavailable "rate_limiter_error"
              "Rate limiter service unavailable" rq.ctx w)
    | endpoint =>
        match rateLimitCheck h x endpoint (some rq.ctx.tenantId) w with
        | (.allowed, w) => serveAdmitted h x rq w
        | (_, w) => finish x (sendRateLimitError h x endpoint rq.ctx w)

/-- The tenant and the policy in the path of the complexity route; a path of 128 bytes or more is not
looked at, and one without a slash names a policy only. -/
def complexityTarget (segment : List UInt8) : List UInt8 × List UInt8 :=
  if segment.length = 0 ∨ 128 ≤ segment.length then ([], [])
  else
    match segment.dropWhile (· != 47) with
    | [] => ([], copyField 64 segment)
    | _ :: policy => (copyField 64 (segment.takeWhile (· != 47)), copyField 64 policy)

/-- The branch of `GET /api/v1/policies/…`. -/
def servePolicies (h : Host) (x : Exchange) (rq : HttpRequest) (rest : List UInt8) (w : World) :
    World :=
  match splitFirst (ascii "/complexity") rest with
  | none => closeClient x (sendErrorResponse .notFound "NOT_FOUND" "endpoint not found" rq.ctx w)
  -- `strstr`: whatever follows the word in the path is not looked at.
  | some (segment, _) =>
      let (tenant, policy) := complexityTarget segment
      if tenant ≠ [] ∧ policy ≠ [] then
        finish x (sampleRequest x (handlePipelineComplexity h x tenant policy rq.ctx w))
      else
        closeClient x (sendErrorResponse .badRequest "INVALID_REQUEST" "missing tenant_id or policy_id" rq.ctx w)

/-- What `handle_client` does with a request whose span is open. -/
def serve (h : Host) (x : Exchange) (rq : HttpRequest) (w : World) : World :=
  match routeOf rq.method rq.path with
  | .health => finish x (sampleRequest x (handleHealth h x w))
  | .metricsJson => finish x (sampleRequest x (handleMetricsJson h x w))
  | .metrics => finish x (sampleRequest x (handleMetricsRequest x w))
  | .registry rest => serveRegistry h x rq rest w
  | .getDecision messageId => serveGetDecision h x rq messageId w
  | .message messageId => serveMessage h x rq messageId w
  | .stream => serveStream x rq w
  | .decide endpoint => serveDecide h x rq endpoint w
  | .extensionsHealth => finish x (sampleRequest x (handleQuery x .extensionHealth rq.ctx w))
  | .circuitBreakers => finish x (sampleRequest x (handleQuery x .circuitBreakers rq.ctx w))
  | .dryRun => finish x (sampleRequest x (handleDryRunPipeline h x rq.body rq.ctx w))
  | .policies rest => servePolicies h x rq rest w
  | .unknown =>
      finish x (sampleRequest x (sendErrorResponse .notFound "invalid_request" "route not found" rq.ctx w))

/-- What `handle_client` does with the bytes of its one `read`. -/
def serveBytes (h : Host) (x : Exchange) (received : List UInt8) (w : World) : World :=
  let w := w.update countRequest
  match parseRequest received with
  | none =>
      -- Counted in Prometheus without a latency sample, as nowhere else.
      closeClient x ((sendErrorResponse .badRequest "invalid_request" "malformed request line" {}
        w).update metricsRecordHttpRequest)
  | some rq => serve h x rq (w.emit (.spanStart .http))

/-- The bytes of the one `read` of a connection. -/
def firstRead (x : Exchange) : List UInt8 := (x.reads.headD []).take (maxMessageSize - 1)

/-- `handle_client`. -/
def handleClient (h : Host) (x : Exchange) (w : World) : World :=
  if firstRead x = [] then closeClient x w else serveBytes h x (firstRead x) w

/-- One turn of the accept loop: a connection is served from beginning to end. -/
def httpStep (h : Host) (g : Gateway) (x : Exchange) : Gateway × List Effect :=
  let w := handleClient h x ⟨g, []⟩
  (w.gateway, w.effects)

/-- One served connection in a history. -/
abbrev HttpRecord := Machine.Record Gateway Exchange (List Effect)

/-! ### Concrete hosts and connections -/

/-- A host with these variables, whose JSON library reads these texts and writes values compactly. -/
def Host.ofTables (env : List (String × String)) (texts : List (List UInt8 × Json)) : Host where
  getenv name := (env.lookup name).map ascii
  jsonLoads text := texts.lookup text
  jsonDumps v := some (v.compact fun _ => ascii "0.0")
  formatQuotient _ _ _ := ascii "0.0"

/-- A clock that stands still. -/
def Clock.still (now : ℤ) : Clock where
  limiter := now
  limitReset := now
  limitRetry := now
  limitHeader := now
  abuseInit := now
  abuse := ⟨now, now, now, now, now, now, now, now⟩
  backpressure := now
  redisLimiter := ⟨now, now, now⟩
  sse := fun _ => now
  answer := now

/-- A connection that delivers these bytes in one piece, at time 1000, with a Router that gives this
reply to every decision. -/
def Exchange.delivering (bytes : List UInt8) (reply : Option (List UInt8)) : Exchange where
  fd := 7
  reads := [bytes]
  clientIp := ascii "10.0.0.1"
  clock := .still 1000
  latencyMs := 1
  timestamp := ascii "2025-01-01T00:00:00.000000Z"
  natsDecide := fun _ => reply
  natsQuery := fun _ => none
  natsStatus := ascii "stub"
  httpGet := fun _ => none
  redisConnect := (.null, .null)
  redisIncr := fun _ => .failed
  staleResult := ⟨.allow, 0, 0, 0, 0, false⟩
  metricsText := none
  sseAccepts := fun _ _ => true

/-- The members of a small decide request. -/
def sampleMembers : Members :=
  [(ascii "version", .string (ascii "1")), (ascii "tenant_id", .string (ascii "acme")),
   (ascii "request_id", .string (ascii "r1")),
   (ascii "task", .object [(ascii "type", .string (ascii "chat")), (ascii "payload", .object [])])]

/-- The text of a small decide request. -/
def sampleBody : List UInt8 := (Json.object sampleMembers).compact fun _ => ascii "0.0"

/-- A reply of the Router that is no error. -/
def sampleReply : List UInt8 := ascii "\x7b\"ok\":true\x7d"

/-- A host with these variables that can read the two texts. -/
def sampleHost (env : List (String × String)) : Host :=
  .ofTables env
    [(sampleBody, .object sampleMembers), (sampleReply, .object [(ascii "ok", .bool true)])]

/-- The bytes of a request with these header lines. -/
def requestText (requestLine headers : String) (body : List UInt8) : List UInt8 :=
  ascii requestLine ++ ascii "\r\n" ++ ascii headers ++ ascii "\r\n" ++ body

end CGateway
