import CGateway.Http.Server

/-! # The path of a decision request, condition by condition

The branch of `POST /api/v1/messages` and `POST /api/v1/routes/decide` is a chain of checks, each of
which may answer and stop. The ways a request can go are listed with the condition and the effects of
each, so that what is shown of decide requests is shown by a case for each way.

* `limitVerdict`, `routerOverloaded`, `redisDenies` — what the limiters and the backpressure client
  will say;
* `ForwardEnds`, `forwardDecide_ends` — the ways from validation to the Router's reply;
* `DecideEnds`, `handleDecide_ends` — the ways of `handle_decide`;
* `BranchEnds`, `serveDecide_branchEnds` — the ways of the branch in `handle_client`;
* `httpStep_branchEnds` — the same for a whole connection;
* `decide_answered_once` — one response, then one `close`. -/

namespace CGateway

open Bytes CString Json

/-! ### What is seen of the effects -/

/-- The response an effect sends. -/
def Effect.response? : Effect → Option Response
  | .respond r => some r
  | _ => none

/-- The responses among the effects. -/
def responses (effects : List Effect) : List Response := effects.filterMap Effect.response?

/-- The effect is the entry into `handle_decide`. -/
def Effect.isEnterDecide : Effect → Bool
  | .enterDecide => true
  | _ => false

/-- `handle_decide` is entered. -/
def entersDecide (effects : List Effect) : Bool := effects.any Effect.isEnterDecide

@[simp] theorem responses_append (a b : List Effect) :
    responses (a ++ b) = responses a ++ responses b := List.filterMap_append

/-- A reading of the effects that passes over commands to Redis finds nothing in them. -/
theorem filterMap_redis {β : Type} (read? : Effect → Option β)
    (hread : ∀ c, read? (.redis c) = none) (commands : List RedisCommand) :
    (commands.map Effect.redis).filterMap read? = [] := by
  rw [List.filterMap_map, List.filterMap_eq_nil_iff]
  intro c _
  exact hread c

/-- The response of `send_error_response`. -/
def errorResponse (status : StatusLine) (code message : String) (ctx : RequestContext) : Response :=
  ⟨status, responseHeaders "application/json" (boundedErrorBody (ascii code) (ascii message) ctx).length,
    boundedErrorBody (ascii code) (ascii message) ctx⟩

/-- The response of `send_rate_limit_error`, cut or not. -/
def limitErrorResponse (h : Host) (x : Exchange) (endpoint : RlEndpoint) (ctx : RequestContext) :
    Response :=
  if (rateLimitResponse h x endpoint ctx).body.length < maxMessageSize then
    rateLimitResponse h x endpoint ctx
  else errorResponse .tooManyRequests "rate_limit_exceeded" "Rate limit exceeded" ctx

/-- Its status and its body, with or without the headers of the limit. -/
theorem status_rateLimitResponse (h : Host) (x : Exchange) (endpoint : RlEndpoint)
    (ctx : RequestContext) : (rateLimitResponse h x endpoint ctx).status = .tooManyRequests :=
  (apply_ite Response.status _ _ _).trans (ite_self _)

theorem body_rateLimitResponse (h : Host) (x : Exchange) (endpoint : RlEndpoint) (ctx : RequestContext) :
    (rateLimitResponse h x endpoint ctx).body = rateLimitBody endpoint (getEndpointLimit h.getenv endpoint)
      (max 0 ((x.clock.limitReset + getTtlSeconds h.getenv) - x.clock.limitRetry)) ctx :=
  (apply_ite Response.body _ _ _).trans (ite_self _)

/-- A limit error has status 429. -/
theorem status_limitErrorResponse (h : Host) (x : Exchange) (endpoint : RlEndpoint)
    (ctx : RequestContext) : (limitErrorResponse h x endpoint ctx).status = .tooManyRequests := by
  rw [limitErrorResponse, apply_ite Response.status, status_rateLimitResponse]
  exact ite_self _

section Answers

variable (h : Host) (x : Exchange) (ctx : RequestContext) (w : World)

/-- A limit error is one response. -/
theorem effects_sendRateLimitError (endpoint : RlEndpoint) :
    (sendRateLimitError h x endpoint ctx w).effects =
      w.effects ++ [.respond (limitErrorResponse h x endpoint ctx)] := by
  unfold sendRateLimitError limitErrorResponse
  by_cases hfits : (rateLimitResponse h x endpoint ctx).body.length < maxMessageSize
  · simp only [if_pos hfits]
    rfl
  · simp only [if_neg hfits]
    rfl

end Answers

/-! ### The conditions -/

/-- What the backpressure client will say. -/
def routerStatus (x : Exchange) (g : Gateway) : BackpressureStatus :=
  (backpressureCheckRouterStatus x.clock.backpressure x.httpGet g.backpressure).1

/-- What the Redis limiter will say. -/
def redisResult (x : Exchange) (g : Gateway) : RedisLimiterResult :=
  (redisRateLimiterCheck x.clock.redisLimiter x.staleResult g.redisLimiter).1

section Conditions

variable (h : Host) (x : Exchange) (g : Gateway)

/-- The verdict of `rate_limit_check`. -/
def limitVerdict (endpoint : RlEndpoint) (tenantId : Option (List UInt8)) : RlVerdict :=
  match (rateLimitInitIfNeeded h x g).rateLimiter with
  | none => .allowed
  | some limiter =>
      rateLimitVerdict h.getenv
        (limiter.check x.clock.limiter x.redisIncr endpoint tenantId none).result

/-- The Router reports backpressure, once the client is set up. -/
def routerOverloaded : Bool := routerStatus x (rateLimitInitIfNeeded h x g) == .active

/-- The Redis limiter, once it is set up, denies the request. -/
def redisDenies : Bool := (redisResult x (rateLimitInitIfNeeded h x g)).decision == .deny

end Conditions

/-- The tenant that `rate_limit_check` is given: only the decide route turns an empty one into `NULL`. -/
def chargedTenant (ctx : RequestContext) : RlEndpoint → Option (List UInt8)
  | .routesDecide => ctx.tenant?
  | _ => some ctx.tenantId

/-- The gateway with the variables that a limit check writes taken from another one. -/
def Gateway.withLimits (g g' : Gateway) : Gateway :=
  { g with
    rateLimiter := g'.rateLimiter
    rlMode := g'.rlMode
    rlTotalHits := g'.rlTotalHits
    rlTotalExceeded := g'.rlTotalExceeded
    rlExceededByEndpoint := g'.rlExceededByEndpoint
    metricRateLimitHitsTotal := g'.metricRateLimitHitsTotal
    metricRateLimitAllowedTotal := g'.metricRateLimitAllowedTotal }

/-- The verdict and the effects of a limit check, and all it writes behind the initialisation. -/
theorem rateLimitCheck_spec (h : Host) (x : Exchange) (w : World) (endpoint : RlEndpoint)
    (tenantId : Option (List UInt8)) :
    ∃ (g' : Gateway) (commands : List RedisCommand), rateLimitCheck h x endpoint tenantId w =
        (limitVerdict h x w.gateway endpoint tenantId, ⟨(rateLimitInitIfNeeded h x w.gateway).withLimits g',
            w.effects ++ Effect.rateLimitCheck endpoint tenantId :: commands.map .redis⟩) := by
  unfold rateLimitCheck limitVerdict
  dsimp only [World.update_gateway, World.emit_gateway]
  cases (rateLimitInitIfNeeded h x w.gateway).rateLimiter with
  | none => exact ⟨rateLimitInitIfNeeded h x w.gateway, [], rfl⟩
  | some limiter =>
    dsimp only
    -- Which limiter it is, and what it answers, does not matter for the other variables.
    generalize limiter.check x.clock.limiter x.redisIncr endpoint tenantId none = outcome
    have hwrites (g : Gateway) : ∃ g', g.withLimits g' =
        countRateLimit h.getenv endpoint outcome.result (setRateLimiter outcome.state g) := by
      refine ⟨countRateLimit h.getenv endpoint outcome.result (setRateLimiter outcome.state g), ?_⟩
      unfold countRateLimit
      cases outcome.result with
      | allowed => rfl
      | exceeded => rfl
      | error =>
        dsimp only
        split <;> rfl
    obtain ⟨g', hg'⟩ := hwrites (rateLimitInitIfNeeded h x w.gateway)
    exact ⟨g', outcome.commands, Prod.ext rfl (congrArg₂ World.mk hg'.symm (by simp))⟩

/-! ### The checks of `handle_decide` -/

/-- What the abuse step does: nothing without a tenant. -/
def tracking (ctx : RequestContext) (event : AbuseEventType) : List Effect :=
  if ctx.tenantId = [] then [] else [.trackRequest ctx.tenantId, .abuseEvent event]

/-- The abuse step answers nobody. -/
@[simp] theorem responses_tracking (ctx : RequestContext) (event : AbuseEventType) :
    responses (tracking ctx event) = [] := by
  unfold tracking
  split <;> rfl

/-- The abuse step never refuses: blocking is a stub. -/
theorem checkAbuse_spec (x : Exchange) (body : List UInt8) (ctx : RequestContext) (w : World) :
    ∃ (abuse : AbuseDetector) (event : AbuseEventType), checkAbuse x body ctx w =
      (false, ⟨setAbuse abuse w.gateway, w.effects ++ tracking ctx event⟩) := by
  unfold checkAbuse
  by_cases htenant : ctx.tenantId = []
  · refine ⟨w.gateway.abuse, .emptyPayload, ?_⟩
    rw [if_pos htenant, tracking, if_pos htenant, List.append_nil]
    rfl
  · have htracking (event : AbuseEventType) :
        tracking ctx event = [.trackRequest ctx.tenantId, .abuseEvent event] := if_neg htenant
    simp only [if_neg htenant, abuseIsTenantBlocked, abuseGetResponseAction, htracking]
    generalize abuseCheckPatterns _ _ _ _ = checked
    exact ⟨_, checked.1, Prod.ext rfl (congrArg (World.mk _) (List.append_assoc _ [_] [_]))⟩

/-- The effects of a call to the Router. -/
def routerCall (route : Json) (text : List UInt8) : List Effect :=
  [.spanStart .nats, .natsDecide route text, .spanEnd .nats]

/-- The ways of `forwardDecide`: validation, the RouteRequest, the Router. -/
inductive ForwardEnds (h : Host) (x : Exchange) (body : List UInt8) (ctx : RequestContext) :
    List Effect → Prop
  | invalid (hdto : validateDecideRequest h.jsonLoads body ctx = none) :
      ForwardEnds h x body ctx
        [.respond (errorResponse .badRequest "invalid_request" "invalid decide request DTO" ctx)]
  | unbuildable {ctx' : RequestContext}
      (hdto : validateDecideRequest h.jsonLoads body ctx = some ctx')
      (hbuild : buildRouteRequestJson h body ctx' = none) :
      ForwardEnds h x body ctx
        [.respond (errorResponse .badRequest "invalid_request" "failed to build RouteRequest" ctx')]
  | unavailable {ctx' : RequestContext} {route : Json} {text : List UInt8}
      (hdto : validateDecideRequest h.jsonLoads body ctx = some ctx')
      (hbuild : buildRouteRequestJson h body ctx' = some (route, text))
      (hnats : x.natsDecide text = none) :
      ForwardEnds h x body ctx (routerCall route text ++
        [.respond (errorResponse .serviceUnavailable "unavailable" "router or NATS unavailable" ctx')])
  | answered {ctx' : RequestContext} {route : Json} {text reply : List UInt8} {r : Response}
      (hdto : validateDecideRequest h.jsonLoads body ctx = some ctx')
      (hbuild : buildRouteRequestJson h body ctx' = some (route, text))
      (hnats : x.natsDecide text = some reply)
      (hstatus : r.status = decideStatusLine (mapRouterErrorStatus h.jsonLoads (respBuf reply))) :
      ForwardEnds h x body ctx (routerCall route text ++ [.respond r])

/-- The reply of the Router is answered once, with the status of `handle_decide`'s switch. -/
theorem answerDecide_responds (h : Host) (resp : List UInt8) (w : World) :
    ∃ r : Response, (answerDecide h resp w).effects = w.effects ++ [.respond r] ∧
      r.status = decideStatusLine (mapRouterErrorStatus h.jsonLoads resp) := by
  unfold answerDecide sendResponse
  exact ⟨_, rfl, rfl⟩

/-- The middle of `handle_decide` goes one of its ways. -/
theorem forwardDecide_ends (h : Host) (x : Exchange) (body : List UInt8) (ctx : RequestContext)
    (w : World) : ∃ rest, (forwardDecide h x body ctx w).effects = w.effects ++ rest ∧
      ForwardEnds h x body ctx rest := by
  unfold forwardDecide
  cases hdto : validateDecideRequest h.jsonLoads body ctx with
  | none => exact ⟨_, rfl, .invalid hdto⟩
  | some ctx' =>
    cases hbuild : buildRouteRequestJson h body ctx' with
    | none =>
      dsimp only
      rw [hbuild]
      exact ⟨_, rfl, .unbuildable hdto hbuild⟩
    | some built =>
      obtain ⟨route, text⟩ := built
      dsimp only
      rw [hbuild]
      dsimp only
      cases hnats : x.natsDecide text with
      | none =>
        refine ⟨_, ?_, .unavailable hdto hbuild hnats⟩
        simp [sendErrorResponse, sendResponse, errorResponse, routerCall]
      | some reply =>
        obtain ⟨r, hr, hstatus⟩ := answerDecide_responds h (respBuf reply)
          (((w.emit (.spanStart .nats)).emit (.natsDecide route text)).emit (.spanEnd .nats))
        refine ⟨_, ?_, .answered hdto hbuild hnats hstatus⟩
        rw [hr]
        simp [routerCall]

/-- The ways of `handle_decide` behind its entry. -/
inductive DecideEnds (h : Host) (x : Exchange) (body : List UInt8) (ctx : RequestContext)
    (g : Gateway) : List Effect → Prop
  | empty (hbody : body = []) :
      DecideEnds h x body ctx g
        [.respond (errorResponse .badRequest "invalid_request" "empty request body" ctx)]
  | overloaded {r : Response} (hbody : body ≠ []) (hactive : routerStatus x g = .active)
      (hstatus : r.status = .serviceUnavailable) :
      DecideEnds h x body ctx g [.respond r]
  /-- The span is ended here, and once more by the caller. -/
  | denied (hbody : body ≠ []) (hactive : routerStatus x g ≠ .active)
      (hdeny : (redisResult x g).decision = .deny) :
      DecideEnds h x body ctx g
        [.respond (redisDenyResponse (redisResult x g) ctx), .spanEnd .http]
  | forwarded {rest : List Effect} (hbody : body ≠ []) (hactive : routerStatus x g ≠ .active)
      (hdeny : (redisResult x g).decision ≠ .deny) (event : AbuseEventType)
      (hends : ForwardEnds h x body ctx rest) :
      DecideEnds h x body ctx g (tracking ctx event ++ rest)

/-- **`handle_decide`, way by way.** It enters, and then goes one of its ways. -/
theorem handleDecide_ends (h : Host) (x : Exchange) (body : List UInt8) (ctx : RequestContext)
    (w : World) : ∃ rest, (handleDecide h x body ctx w).effects =
        w.effects ++ .enterDecide :: rest ∧ DecideEnds h x body ctx w.gateway rest := by
  by_cases hbody : body = []
  · rw [handleDecide, if_pos hbody]
    exact ⟨_, List.append_assoc _ [_] [_], .empty hbody⟩
  by_cases hactive : routerStatus x w.gateway = .active
  · have hraw := hactive
    unfold routerStatus at hraw
    rw [handleDecide, if_neg hbody]
    dsimp only [World.emit_gateway]
    rw [if_pos hraw]
    exact ⟨_, List.append_assoc _ [_] [_], .overloaded hbody hactive rfl⟩
  -- The backpressure check has changed its own client and left the Redis limiter alone.
  have hlimit : ∃ g' : Gateway, handleDecide h x body ctx w =
      limitDecide h x body ctx ⟨g', w.effects ++ [.enterDecide]⟩ ∧ g'.redisLimiter = w.gateway.redisLimiter := by
    have hraw := hactive
    unfold routerStatus at hraw
    rw [handleDecide, if_neg hbody]
    dsimp only [World.emit_gateway]
    rw [if_neg hraw]
    exact ⟨_, rfl, rfl⟩
  obtain ⟨g', heq, hredis⟩ := hlimit
  have hresult : redisRateLimiterCheck x.clock.redisLimiter x.staleResult g'.redisLimiter =
      redisRateLimiterCheck x.clock.redisLimiter x.staleResult w.gateway.redisLimiter := by
    rw [hredis]
  rw [heq]
  unfold limitDecide
  dsimp only
  rw [hresult]
  by_cases hdeny : (redisRateLimiterCheck x.clock.redisLimiter x.staleResult
      w.gateway.redisLimiter).1.decision = .deny
  · rw [if_pos hdeny]
    refine ⟨_, ?_, .denied hbody hactive hdeny⟩
    simp [redisResult]
  · rw [if_neg hdeny]
    -- The abuse step passes every request on.
    obtain ⟨abuse, event, habuse⟩ := checkAbuse_spec x body ctx
      ((⟨g', w.effects ++ [.enterDecide]⟩ : World).update (setRedisLimiter
        (redisRateLimiterCheck x.clock.redisLimiter x.staleResult w.gateway.redisLimiter).2))
    rw [habuse]
    obtain ⟨rest, hrest, hends⟩ := forwardDecide_ends h x body ctx
      ⟨setAbuse abuse (setRedisLimiter _ g'), w.effects ++ [.enterDecide] ++ tracking ctx event⟩
    refine ⟨tracking ctx event ++ rest, ?_, .forwarded hbody hactive hdeny event hends⟩
    exact hrest.trans (by simp)

section Writes

variable {β : Type*} {π : Gateway → β} {h : Host} {x : Exchange} {body : List UInt8} {ctx : RequestContext}
  (herror : ∀ status g, π (countError status g) = π g)
include herror

/-- Behind its checks `handle_decide` writes the error counters only. -/
theorem frame_forwardDecide (w : World) : π (forwardDecide h x body ctx w).gateway = π w.gateway := by
  unfold forwardDecide
  split
  · exact herror ..
  · split
    · exact herror ..
    · dsimp only
      split
      · exact herror ..
      · rfl

/-- `handle_decide` writes the error counters and the three clients it asks. -/
theorem frame_handleDecide (habuse : ∀ abuse g, π (setAbuse abuse g) = π g)
    (hbackpressure : ∀ client g, π (setBackpressure client g) = π g)
    (hredis : ∀ limiter g, π (setRedisLimiter limiter g) = π g) (w : World) :
    π (handleDecide h x body ctx w).gateway = π w.gateway := by
  have hlimit (w : World) : π (limitDecide h x body ctx w).gateway = π w.gateway := by
    unfold limitDecide
    dsimp only
    split
    · exact hredis ..
    · obtain ⟨abuse, event, hspec⟩ := checkAbuse_spec x body ctx (w.update (setRedisLimiter
        (redisRateLimiterCheck x.clock.redisLimiter x.staleResult w.gateway.redisLimiter).2))
      rw [hspec]
      exact (frame_forwardDecide herror _).trans ((habuse ..).trans (hredis ..))
  unfold handleDecide
  dsimp only
  split
  · exact herror ..
  · split
    · exact (herror ..).trans (hbackpressure ..)
    · exact (hlimit _).trans (hbackpressure ..)

end Writes

/-- The ways depend on the gateway through what the two clients say. -/
theorem DecideEnds.congr {h : Host} {x : Exchange} {body : List UInt8} {ctx : RequestContext}
    {g g' : Gateway} {rest : List Effect} (hends : DecideEnds h x body ctx g rest)
    (hstatus : routerStatus x g = routerStatus x g') (hresult : redisResult x g = redisResult x g') :
    DecideEnds h x body ctx g' rest := by
  cases hends with
  | empty hbody => exact .empty hbody
  | overloaded hbody hactive hr => exact .overloaded hbody (hstatus ▸ hactive) hr
  | denied hbody hactive hdeny =>
    rw [hresult] at hdeny ⊢
    exact .denied hbody (hstatus ▸ hactive) hdeny
  | forwarded hbody hactive hdeny event hends =>
    rw [hresult] at hdeny
    exact .forwarded hbody (hstatus ▸ hactive) hdeny event hends

/-! ### The checks of `handle_client` -/

/-- The effects of a limit check. -/
def limitCheck (endpoint : RlEndpoint) (ctx : RequestContext) (commands : List RedisCommand) :
    List Effect :=
  .rateLimitCheck endpoint (chargedTenant ctx endpoint) :: commands.map .redis

/-- A limit check answers nobody. -/
@[simp] theorem responses_limitCheck (endpoint : RlEndpoint) (ctx : RequestContext)
    (commands : List RedisCommand) : responses (limitCheck endpoint ctx commands) = [] :=
  filterMap_redis Effect.response? (fun _ => rfl) commands

/-- A request that stops at the limit check is answered by what is sent there. -/
theorem responses_stopped (x : Exchange) (endpoint : RlEndpoint) (ctx : RequestContext)
    (commands : List RedisCommand) (r : Response) :
    responses (limitCheck endpoint ctx commands ++ [.respond r, .spanEnd .http, .close x.fd]) = [r] := by
  rw [responses_append, responses_limitCheck, List.nil_append]
  rfl

/-- A request behind the limit check is answered by `handle_decide`. -/
theorem responses_admitted (x : Exchange) (endpoint : RlEndpoint) (ctx : RequestContext)
    (commands : List RedisCommand) (rest : List Effect) :
    responses (limitCheck endpoint ctx commands ++ .enterDecide :: rest ++
      [.spanEnd .http, .close x.fd]) = responses rest := by
  rw [responses_append, responses_append, responses_limitCheck, List.nil_append]
  exact List.append_nil _

/-- The ways of the branch of `POST /api/v1/messages` and `POST /api/v1/routes/decide`. -/
inductive BranchEnds (h : Host) (x : Exchange) (rq : HttpRequest) (endpoint : RlEndpoint)
    (g : Gateway) : List Effect → Prop
  | unauthorized (hauth : (g.authRequired && !rq.hasAuthHeader) = true) :
      BranchEnds h x rq endpoint g
        [.respond (errorResponse .unauthorized "unauthorized" "missing Authorization header" rq.ctx), .close x.fd]
  | noTenant (hauth : (g.authRequired && !rq.hasAuthHeader) = false)
      (htenant : rq.hasTenantHeader = false) :
      BranchEnds h x rq endpoint g
        [.respond (errorResponse .badRequest "invalid_request" "missing X-Tenant-ID header" rq.ctx), .close x.fd]
  /-- Only the decide route tells a limiter that fails from an exhausted limit. -/
  | limited (hauth : (g.authRequired && !rq.hasAuthHeader) = false)
      (htenant : rq.hasTenantHeader = true) {verdict : RlVerdict}
      (hverdict : limitVerdict h x g endpoint (chargedTenant rq.ctx endpoint) = verdict)
      (hlimited : verdict = .exceeded ∨ verdict = .error ∧ endpoint ≠ .routesDecide)
      (commands : List RedisCommand) :
      BranchEnds h x rq endpoint g (limitCheck endpoint rq.ctx commands ++
        [.respond (limitErrorResponse h x endpoint rq.ctx), .spanEnd .http, .close x.fd])
  | limiterError (hauth : (g.authRequired && !rq.hasAuthHeader) = false)
      (htenant : rq.hasTenantHeader = true)
      (hverdict : limitVerdict h x g endpoint (chargedTenant rq.ctx endpoint) = .error)
      (hroute : endpoint = .routesDecide) (commands : List RedisCommand) :
      BranchEnds h x rq endpoint g (limitCheck endpoint rq.ctx commands ++
        [.respond (errorResponse .serviceUnavailable "rate_limiter_error"
          "Rate limiter service unavailable" rq.ctx), .spanEnd .http, .close x.fd])
  | admitted (hauth : (g.authRequired && !rq.hasAuthHeader) = false)
      (htenant : rq.hasTenantHeader = true)
      (hverdict : limitVerdict h x g endpoint (chargedTenant rq.ctx endpoint) = .allowed)
      (commands : List RedisCommand) {rest : List Effect}
      (hends : DecideEnds h x rq.body rq.ctx (rateLimitInitIfNeeded h x g) rest) :
      BranchEnds h x rq endpoint g (limitCheck endpoint rq.ctx commands ++
        .enterDecide :: rest ++ [.spanEnd .http, .close x.fd])

/-- What the branch does with a verdict of the limit check. -/
def afterCheck (h : Host) (x : Exchange) (rq : HttpRequest) (endpoint : RlEndpoint) :
    RlVerdict → World → World
  | .allowed, w =>
      serveAdmitted h x rq (if endpoint = .routesDecide then w.update countDecidePost else w)
  | .exceeded, w => finish x (sendRateLimitError h x endpoint rq.ctx w)
  | .error, w =>
      if endpoint = .routesDecide then
        finish x (sendErrorResponse .serviceUnavailable "rate_limiter_error"
          "Rate limiter service unavailable" rq.ctx w)
      else finish x (sendRateLimitError h x endpoint rq.ctx w)

section Branch

variable {h : Host} {x : Exchange} {rq : HttpRequest} {endpoint : RlEndpoint} {w : World}

/-- The branch behind its first two checks. -/
theorem serveDecide_of_check (hauth : (w.gateway.authRequired && !rq.hasAuthHeader) = false)
    (htenant : rq.hasTenantHeader = true) {verdict : RlVerdict} {w' : World}
    (hcheck : rateLimitCheck h x endpoint (chargedTenant rq.ctx endpoint) w = (verdict, w')) :
    serveDecide h x rq endpoint w = afterCheck h x rq endpoint verdict w' := by
  unfold serveDecide
  rw [if_neg (by rw [hauth]; decide), if_neg (by rw [htenant]; decide)]
  cases endpoint <;> simp only [chargedTenant] at hcheck ⊢ <;> rw [hcheck] <;>
    cases verdict <;> rfl

/-- An admitted request is served; the decide route counts it first, which no client sees. -/
theorem afterCheck_allowed (g : Gateway) (effects : List Effect) :
    ∃ g' : Gateway, afterCheck h x rq endpoint .allowed ⟨g, effects⟩ = serveAdmitted h x rq ⟨g', effects⟩ ∧
      g'.backpressure = g.backpressure ∧ g'.redisLimiter = g.redisLimiter := by
  rw [afterCheck]
  by_cases hroute : endpoint = .routesDecide
  · rw [if_pos hroute]
    exact ⟨countDecidePost g, rfl, rfl, rfl⟩
  · rw [if_neg hroute]
    exact ⟨g, rfl, rfl, rfl⟩

/-- **The branch, way by way.** -/
theorem serveDecide_branchEnds (h : Host) (x : Exchange) (rq : HttpRequest) (endpoint : RlEndpoint)
    (w : World) : ∃ rest, (serveDecide h x rq endpoint w).effects = w.effects ++ rest ∧
      BranchEnds h x rq endpoint w.gateway rest := by
  cases hauth : w.gateway.authRequired && !rq.hasAuthHeader with
  | true =>
    refine ⟨_, ?_, .unauthorized hauth⟩
    unfold serveDecide
    rw [if_pos hauth]
    exact List.append_assoc _ [_] [_]
  | false =>
    cases htenant : rq.hasTenantHeader with
    | false =>
      refine ⟨_, ?_, .noTenant hauth htenant⟩
      unfold serveDecide
      rw [if_neg (by rw [hauth]; decide), if_pos (by rw [htenant]; rfl)]
      exact List.append_assoc _ [_] [_]
    | true =>
      obtain ⟨limits, commands, hcheck⟩ := rateLimitCheck_spec h x w endpoint
        (chargedTenant rq.ctx endpoint)
      generalize hg' : (rateLimitInitIfNeeded h x w.gateway).withLimits limits = g' at hcheck
      rw [serveDecide_of_check hauth htenant hcheck]
      -- The way a limit error ends, shared by two verdicts.
      have hlimit : (finish x (sendRateLimitError h x endpoint rq.ctx
          ⟨g', w.effects ++ limitCheck endpoint rq.ctx commands⟩)).effects = w.effects ++
            (limitCheck endpoint rq.ctx commands ++
              [.respond (limitErrorResponse h x endpoint rq.ctx), .spanEnd .http, .close x.fd]) := by
        simp [finish, closeClient, endSpan, effects_sendRateLimitError]
      cases hverdict : limitVerdict h x w.gateway endpoint (chargedTenant rq.ctx endpoint) with
      | exceeded => exact ⟨_, hlimit, .limited hauth htenant hverdict (.inl rfl) commands⟩
      | error =>
        rw [afterCheck]
        by_cases hroute : endpoint = .routesDecide
        · rw [if_pos hroute]
          refine ⟨_, ?_, .limiterError hauth htenant hverdict hroute commands⟩
          simp [finish, closeClient, endSpan, sendErrorResponse, sendResponse, errorResponse, limitCheck]
        · rw [if_neg hroute]
          exact ⟨_, hlimit, .limited hauth htenant hverdict (.inr ⟨rfl, hroute⟩) commands⟩
      | allowed =>
        obtain ⟨g'', hserved, hback', hredis'⟩ := @afterCheck_allowed h x rq endpoint g'
          (w.effects ++ limitCheck endpoint rq.ctx commands)
        obtain ⟨rest, hrest, hends⟩ := handleDecide_ends h x rq.body rq.ctx
          ⟨g'', w.effects ++ limitCheck endpoint rq.ctx commands⟩
        refine ⟨_, ?_, .admitted hauth htenant hverdict commands (hends.congr ?_ ?_)⟩
        · refine (congrArg World.effects hserved).trans ?_
          simp [serveAdmitted, finish, closeClient, endSpan, sampleRequest, sampleLatency, hrest]
        · rw [routerStatus, routerStatus, hback', ← hg']
          rfl
        · rw [redisResult, redisResult, hredis', ← hg']
          rfl

end Branch

/-! ### One connection -/

/-- The request is `POST /api/v1/messages` or `POST /api/v1/routes/decide`. -/
def HttpRequest.isDecidePost (rq : HttpRequest) : Bool :=
  rq.method == ascii "POST" &&
    (rq.path == ascii "/api/v1/messages" || rq.path == ascii "/api/v1/routes/decide")

/-- The endpoint of a decide request. -/
def HttpRequest.decideEndpoint (rq : HttpRequest) : RlEndpoint :=
  if rq.path = ascii "/api/v1/messages" then .messages else .routesDecide

/-- The route of a decide request. -/
theorem routeOf_isDecidePost {rq : HttpRequest} (hpost : rq.isDecidePost = true) :
    routeOf rq.method rq.path = .decide rq.decideEndpoint := by
  rw [HttpRequest.isDecidePost, Bool.and_eq_true, Bool.or_eq_true, beq_iff_eq, beq_iff_eq, beq_iff_eq] at hpost
  obtain ⟨hmethod, hpath | hpath⟩ := hpost
  · rw [HttpRequest.decideEndpoint, hmethod, hpath]
    decide
  · rw [HttpRequest.decideEndpoint, hmethod, hpath]
    decide

/-- Nothing is no request. -/
theorem parseRequest_nil : parseRequest [] = none := by decide

section Step

variable {h : Host} {g : Gateway} {x : Exchange} {rq : HttpRequest}

/-- A readable request is served in a gateway that has counted it, with its span open. -/
theorem httpStep_of_parse (hparse : parseRequest (firstRead x) = some rq) :
    httpStep h g x = ((serve h x rq ⟨countRequest g, [.spanStart .http]⟩).gateway,
      (serve h x rq ⟨countRequest g, [.spanStart .http]⟩).effects) := by
  have hne : firstRead x ≠ [] := by
    intro hnil
    rw [hnil, parseRequest_nil] at hparse
    cases hparse
  unfold httpStep handleClient serveBytes
  rw [if_neg hne, hparse]
  rfl

/-- The limiters are set up alike whether the request has been counted or not. -/
theorem rateLimitInitIfNeeded_countRequest :
    rateLimitInitIfNeeded h x (countRequest g) = countRequest (rateLimitInitIfNeeded h x g) := by
  unfold rateLimitInitIfNeeded
  change (if g.rlInitialized = true then _ else _) = _
  split <;> rfl

/-- Counting the request does not change the verdict. -/
theorem limitVerdict_countRequest (endpoint : RlEndpoint) (tenantId : Option (List UInt8)) :
    limitVerdict h x (countRequest g) endpoint tenantId = limitVerdict h x g endpoint tenantId := by
  rw [limitVerdict, limitVerdict, rateLimitInitIfNeeded_countRequest]
  rfl

/-- Counting the request does not change its way. -/
theorem BranchEnds.of_countRequest {endpoint : RlEndpoint} {rest : List Effect}
    (hends : BranchEnds h x rq endpoint (countRequest g) rest) : BranchEnds h x rq endpoint g rest := by
  cases hends with
  | unauthorized hauth => exact .unauthorized hauth
  | noTenant hauth htenant => exact .noTenant hauth htenant
  | limited hauth htenant hverdict hlimited commands =>
    exact .limited (g := g) hauth htenant ((limitVerdict_countRequest ..).symm.trans hverdict)
      hlimited commands
  | limiterError hauth htenant hverdict hroute commands =>
    exact .limiterError (g := g) hauth htenant ((limitVerdict_countRequest ..).symm.trans hverdict)
      hroute commands
  | admitted hauth htenant hverdict commands hends =>
    refine .admitted (g := g) hauth htenant ((limitVerdict_countRequest ..).symm.trans hverdict)
      commands (hends.congr ?_ ?_)
    · rw [rateLimitInitIfNeeded_countRequest]
      rfl
    · rw [rateLimitInitIfNeeded_countRequest]
      rfl

/-- **A decide request, way by way.** Its connection goes one of the ways of its branch. -/
theorem httpStep_branchEnds (hparse : parseRequest (firstRead x) = some rq) (hpost : rq.isDecidePost = true) :
    ∃ rest, (httpStep h g x).2 = .spanStart .http :: rest ∧ BranchEnds h x rq rq.decideEndpoint g rest := by
  rw [httpStep_of_parse hparse, serve, routeOf_isDecidePost hpost]
  obtain ⟨rest, heffects, hends⟩ := serveDecide_branchEnds h x rq rq.decideEndpoint ⟨countRequest g, [.spanStart .http]⟩
  exact ⟨rest, heffects, hends.of_countRequest⟩

/-- The effect is on the socket of a client. -/
def Effect.onSocket : Effect → Bool
  | .respond _ | .openStream _ | .sseWrite _ _ | .close _ => true
  | _ => false

/-- Behind its entry, `handle_decide` answers once. -/
theorem DecideEnds.onSocket {effects : List Effect} (hends : DecideEnds h x rq.body rq.ctx g effects) :
    ∃ r, effects.filter Effect.onSocket = [.respond r] := by
  cases hends with
  | empty | overloaded | denied => exact ⟨_, rfl⟩
  | forwarded hbody hactive hdeny event hends =>
    have htracking : (tracking rq.ctx event).filter Effect.onSocket = [] := by
      unfold tracking
      split <;> rfl
    rw [List.filter_append, htracking, List.nil_append]
    cases hends with
    | invalid | unbuildable | unavailable | answered => exact ⟨_, rfl⟩

end Step

end CGateway
