import CGateway.Http.RouteRequest

/-! # Admission and `handle_decide`

`rate_limit_check` with the lazy initialisation it triggers, and the path of a decision request from
its first check to the answer: empty body, backpressure, the Redis limiter, abuse detection,
validation, the RouteRequest, the Router. -/

namespace CGateway

open Bytes CString

/-! ### The request limit -/

/-- The limiter that `rate_limit_init_if_needed` ends up with, and its mode. -/
def initialLimiter (getenv : Getenv) (connect : RedisConnect × RedisConnect) : Limiter × RlMode :=
  let config := rateLimiterParseConfig getenv
  let (limiter, mode) : Limiter × RlMode :=
    match rateLimiterCreate getenv connect.1 config with
    | none => (.memory (memoryRlInit getenv), .memory)
    | some limiter => (limiter, if config.wantsRedis then .redis else .memory)
  -- `rate_limiter_create` has initialised the limiter already; the code does it once more.
  match limiter.init getenv connect.2 config with
  | some limiter => (limiter, mode)
  | none =>
      if config.fallbackToLocal then (.memory (memoryRlInit getenv), .fallback)
      else (limiter, .error)

/-- `rate_limit_init_if_needed`: the first call initialises the limiters and reads whether
authentication is required. -/
def rateLimitInitIfNeeded (h : Host) (x : Exchange) (g : Gateway) : Gateway :=
  if g.rlInitialized then g
  else
    let limiter := initialLimiter h.getenv x.redisConnect
    { g with
      rateLimiter := some limiter.1
      rlMode := limiter.2
      rlInitialized := true
      authRequired := envToBool h.getenv "GATEWAY_AUTH_REQUIRED" false
      abuse := abuseInit x.clock.abuseInit (abuseParseConfig h.getenv) g.abuse
      backpressure := backpressureInit (backpressureParseConfig h.getenv)
      redisLimiter :=
        match g.redisLimiter with
        | some st => some st
        | none => redisRateLimiterInit (redisRateLimiterParseConfig h.getenv) }

/-- The return values 0, 1 and 2 of `rate_limit_check`. -/
inductive RlVerdict where
  | allowed
  | exceeded
  | error
  deriving DecidableEq, Repr

/-- The verdict on the limiter's result; an error passes where the local fallback is on. -/
def rateLimitVerdict (getenv : Getenv) : RlResult → RlVerdict
  | .allowed => .allowed
  | .exceeded => .exceeded
  | .error => if fallbackToLocal getenv then .allowed else .error

/-- The counters and the mode after a check with that result. -/
def countRateLimit (getenv : Getenv) (endpoint : RlEndpoint) (result : RlResult) (g : Gateway) :
    Gateway :=
  let g := { g with rlTotalHits := g.rlTotalHits + 1 }
  match result with
  | .allowed => { g with metricRateLimitAllowedTotal := g.metricRateLimitAllowedTotal + 1 }
  | .exceeded =>
      { g with
        rlTotalExceeded := g.rlTotalExceeded + 1
        rlExceededByEndpoint := Function.update g.rlExceededByEndpoint endpoint
          (g.rlExceededByEndpoint endpoint + 1)
        metricRateLimitHitsTotal := g.metricRateLimitHitsTotal + 1 }
  | .error => if fallbackToLocal getenv then { g with rlMode := .fallback } else g

/-- Replace the request limiter. -/
def setRateLimiter (limiter : Limiter) (g : Gateway) : Gateway :=
  { g with rateLimiter := some limiter }

/-- `rate_limit_check`. -/
def rateLimitCheck (h : Host) (x : Exchange) (endpoint : RlEndpoint)
    (tenantId : Option (List UInt8)) (w : World) : RlVerdict × World :=
  let w := (w.emit (.rateLimitCheck endpoint tenantId)).update (rateLimitInitIfNeeded h x)
  match w.gateway.rateLimiter with
  | none => (.allowed, w)
  | some limiter =>
      let outcome := limiter.check x.clock.limiter x.redisIncr endpoint tenantId none
      let w : World := ⟨setRateLimiter outcome.state w.gateway, w.effects ++ outcome.commands.map .redis⟩
      (rateLimitVerdict h.getenv outcome.result, w.update (countRateLimit h.getenv endpoint outcome.result))

/-! ### The decision -/

/-- Replace the backpressure client. -/
def setBackpressure (client : BackpressureClient) (g : Gateway) : Gateway :=
  { g with backpressure := client }

/-- Replace the Redis limiter. -/
def setRedisLimiter (limiter : Option RedisLimiter) (g : Gateway) : Gateway :=
  { g with redisLimiter := limiter }

/-- Replace the abuse detector. -/
def setAbuse (abuse : AbuseDetector) (g : Gateway) : Gateway := { g with abuse := abuse }

/-- The 429 of `handle_decide` for a denial of the Redis limiter; its body is cut at 511 bytes. -/
def redisDenyResponse (result : RedisLimiterResult) (ctx : RequestContext) : Response where
  status := .tooManyRequests
  headers :=
    ascii "Content-Type: application/json\r\nRetry-After: " ++ decimalNat result.retryAfterSec.toNat ++
      ascii "\r\nX-RateLimit-Limit: " ++ decimalNat result.limit.toNat ++
      ascii "\r\nX-RateLimit-Remaining: " ++ decimalNat result.remaining.toNat ++
      ascii "\r\nX-RateLimit-Reset: " ++ decimalNat result.resetAt.toNat ++ ascii "\r\n"
  body :=
    (errorHead (ascii "rate_limit_exceeded") ++ ascii "\"message\":\"Too many requests\"," ++
      ascii "\"intake_error_code\":null,\"details\":\x7b\"endpoint\":\"/api/v1/routes/decide\"," ++
      ascii "\"retry_after_seconds\":" ++ decimalNat result.retryAfterSec.toNat ++ ascii "\x7d\x7d," ++
      contextText ctx).take 511

/-- The abuse step of `handle_decide`: whether the request was refused. Requests without a tenant are
not tracked. -/
def checkAbuse (x : Exchange) (body : List UInt8) (ctx : RequestContext) (w : World) :
    Bool × World :=
  if ctx.tenantId = [] then (false, w)
  else
    let refuse : World → World := sendErrorResponse .tooManyRequests "rate_limit_exceeded"
      "Tenant temporarily blocked due to abuse detection" ctx
    let w := (w.emit (.trackRequest ctx.tenantId)).update (setAbuse
      (abuseTrackRequest x.clock.abuse ctx.tenantId none x.clientIp body.length w.gateway.abuse))
    if abuseIsTenantBlocked ctx.tenantId then (true, refuse w)
    else
      let (event, abuse) := abuseCheckPatterns x.clock.abuse ctx.tenantId body.length w.gateway.abuse
      let w := (w.update (setAbuse abuse)).emit (.abuseEvent event)
      match abuseGetResponseAction event with
      | .temporaryBlock => (true, refuse w)
      | .rateLimit | .logOnly => (false, w)

/-- The end of `handle_decide`: the Router's reply is passed on, an error with its status. -/
def answerDecide (h : Host) (resp : List UInt8) (w : World) : World :=
  let statusCode := mapRouterErrorStatus h.jsonLoads resp
  let body := if 400 ≤ statusCode then withIntakeErrorCode h resp else resp
  sendResponse (decideStatusLine statusCode) body w

/-- The middle of `handle_decide`: validation, the RouteRequest and the call to the Router. -/
def forwardDecide (h : Host) (x : Exchange) (body : List UInt8) (ctx : RequestContext) (w : World) :
    World :=
  match validateDecideRequest h.jsonLoads body ctx with
  | none => sendErrorResponse .badRequest "invalid_request" "invalid decide request DTO" ctx w
  | some ctx =>
      match buildRouteRequestJson h body ctx with
      | none => sendErrorResponse .badRequest "invalid_request" "failed to build RouteRequest" ctx w
      | some (route, text) =>
          let w := ((w.emit (.spanStart .nats)).emit (.natsDecide route text)).emit (.spanEnd .nats)
          match x.natsDecide text with
          | none =>
              sendErrorResponse .serviceUnavailable "unavailable" "router or NATS unavailable" ctx w
          | some reply => answerDecide h (respBuf reply) w

/-- `handle_decide` behind the backpressure check: the Redis limiter and the abuse step. -/
def limitDecide (h : Host) (x : Exchange) (body : List UInt8) (ctx : RequestContext) (w : World) :
    World :=
  let (result, limiter) :=
    redisRateLimiterCheck x.clock.redisLimiter x.staleResult w.gateway.redisLimiter
  let w := w.update (setRedisLimiter limiter)
  if result.decision = .deny then
    (w.emit (.respond (redisDenyResponse result ctx))).emit (.spanEnd .http)
  else
    match checkAbuse x body ctx w with
    | (true, w) => w
    | (false, w) => forwardDecide h x body ctx w

/-- `handle_decide`. -/
def handleDecide (h : Host) (x : Exchange) (body : List UInt8) (ctx : RequestContext) (w : World) :
    World :=
  let w := w.emit .enterDecide
  if body = [] then
    sendErrorResponse .badRequest "invalid_request" "empty request body" ctx w
  else
    let (status, client) :=
      backpressureCheckRouterStatus x.clock.backpressure x.httpGet w.gateway.backpressure
    let w := w.update (setBackpressure client)
    if status = .active then
      sendErrorResponseWithRetryAfter .serviceUnavailable "service_overloaded"
        "Router is overloaded, please retry later" 30 ctx w
    else limitDecide h x body ctx w

end CGateway
