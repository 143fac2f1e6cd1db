import Mathlib.Logic.Function.Basic
import CGateway.Environment

/-! # The request limiters

The limiter interface of `rate_limiter.c` with its two backends: the fixed window in memory
(`rate_limiter_memory.c`) and the shared counters in Redis (`rate_limiter_redis.c`), which keeps a
memory limiter to fall back to.

A build without hiredis behaves as one whose connection attempts all end with no context, so that one
model serves both builds. What the C library and Redis answer (the clock, the connection, the reply to
`INCR`) is passed in; the commands sent to Redis are part of the outcome.

* `memoryRlCheck`, `redisRlCheck`, `Limiter.check` — one check; `memoryRlCheckId` and
  `redisRlCheckId` take any number for the endpoint, as C does;
* `rateLimiterCreate`, `Limiter.init` — the choice of a backend and its initialisation. -/

namespace CGateway

open Bytes CString

/-- `rl_endpoint_id_t`. -/
inductive RlEndpoint where
  | routesDecide
  | messages
  | registryBlocks
  deriving DecidableEq, Repr

/-- The endpoint of a number passed as `rl_endpoint_id_t`; from `RL_ENDPOINT_MAX` on there is none. -/
def RlEndpoint.ofId : ℕ → Option RlEndpoint
  | 0 => some .routesDecide
  | 1 => some .messages
  | 2 => some .registryBlocks
  | _ => none

/-- The number of an endpoint. -/
def RlEndpoint.id : RlEndpoint → ℕ
  | .routesDecide => 0
  | .messages => 1
  | .registryBlocks => 2

@[simp] theorem RlEndpoint.ofId_id (endpoint : RlEndpoint) : RlEndpoint.ofId endpoint.id = some endpoint := by
  cases endpoint <;> rfl

/-- `rl_result_t`. -/
inductive RlResult where
  | allowed
  | exceeded
  | error
  deriving DecidableEq, Repr

/-- The variable that sets an endpoint's limit, and the limit without it. -/
def limitSetting : RlEndpoint → String × ℤ
  | .routesDecide => ("GATEWAY_RATE_LIMIT_ROUTES_DECIDE_LIMIT", 50)
  | .messages => ("GATEWAY_RATE_LIMIT_MESSAGES", 100)
  | .registryBlocks => ("GATEWAY_RATE_LIMIT_REGISTRY_BLOCKS", 200)

/-- `get_endpoint_limit` of the backends. -/
def backendEndpointLimit (getenv : Getenv) (endpoint : RlEndpoint) : ℤ :=
  envPositive getenv (limitSetting endpoint).1 (limitSetting endpoint).2

/-- `get_ttl_seconds` of the backends. -/
def backendTtlSeconds (getenv : Getenv) : ℤ :=
  envPositive getenv "GATEWAY_RATE_LIMIT_TTL_SECONDS" 60

/-- Limits are positive and fit an `int`, whatever the environment. -/
theorem backendEndpointLimit_range (getenv : Getenv) (endpoint : RlEndpoint) :
    0 < backendEndpointLimit getenv endpoint ∧ backendEndpointLimit getenv endpoint < 2 ^ 31 := by
  refine envPositive_range getenv _ ?_ ?_ <;> cases endpoint <;> decide

/-- Windows have a positive length. -/
theorem backendTtlSeconds_pos (getenv : Getenv) : 0 < backendTtlSeconds getenv :=
  (envPositive_range getenv _ (by decide) (by decide)).1

/-- A command sent to Redis. -/
inductive RedisCommand where
  | incr (key : List UInt8)
  | expire (key : List UInt8) (seconds : ℤ)
  deriving DecidableEq, Repr

/-- What one check answers and leaves behind; `remaining` is `none` where `*remaining_out` is not
written. -/
structure RlOutcome (S : Type) where
  result : RlResult
  remaining : Option ℕ
  state : S
  commands : List RedisCommand := []

/-- The same outcome about a larger state. -/
def RlOutcome.map {S T : Type} (f : S → T) (o : RlOutcome S) : RlOutcome T :=
  ⟨o.result, o.remaining, f o.state, o.commands⟩

/-! ### The memory backend -/

/-- `memory_rl_state_t`. -/
structure MemoryRlState where
  counters : RlEndpoint → ℕ
  windowStartedAt : ℤ
  ttlSeconds : ℤ
  limits : RlEndpoint → ℤ
  totalHits : ℕ
  totalExceeded : ℕ

/-- `memory_rl_init`. -/
def memoryRlInit (getenv : Getenv) : MemoryRlState where
  counters := fun _ => 0
  windowStartedAt := 0
  ttlSeconds := backendTtlSeconds getenv
  limits := backendEndpointLimit getenv
  totalHits := 0
  totalExceeded := 0

/-- The window `memory_rl_check` counts in: a new one when none is open or the last has expired. -/
def memoryRlWindow (now : ℤ) (st : MemoryRlState) : MemoryRlState :=
  if st.windowStartedAt = 0 ∨ now - st.windowStartedAt ≥ st.ttlSeconds then
    { st with windowStartedAt := now, counters := fun _ => 0 }
  else st

/-- `memory_rl_check`: the tenant and the key play no part. -/
def memoryRlCheck (now : ℤ) (endpoint : RlEndpoint) (st : MemoryRlState) :
    RlOutcome MemoryRlState :=
  let st := memoryRlWindow now st
  let st := { st with totalHits := st.totalHits + 1 }
  let limit := unsignedInt (st.limits endpoint)
  if limit ≤ st.counters endpoint then
    ⟨.exceeded, some 0, { st with totalExceeded := st.totalExceeded + 1 }, []⟩
  else
    let current := st.counters endpoint + 1
    ⟨.allowed, some (limit - current),
      { st with counters := Function.update st.counters endpoint current }, []⟩

/-- `memory_rl_check` on any number: one that is no endpoint is refused, after a new window may have
been opened for it. -/
def memoryRlCheckId (now : ℤ) (id : ℕ) (st : MemoryRlState) : RlOutcome MemoryRlState :=
  match RlEndpoint.ofId id with
  | some endpoint => memoryRlCheck now endpoint st
  | none => ⟨.error, none, memoryRlWindow now st, []⟩

/-! ### The Redis backend -/

/-- What `redisConnectWithTimeout` returns: no context, a context with an error, or a connection. -/
inductive RedisConnect where
  | null
  | errored
  | connected
  deriving DecidableEq, Repr

/-- What `redisCommand` returns: nothing, an integer reply, or a reply of another type. -/
inductive RedisReply where
  | failed
  | integer (n : ℤ)
  | other
  deriving DecidableEq, Repr

/-- `redis_rl_state_t`; of the context only whether there is one. -/
structure RedisRlState where
  redisCtx : Bool
  ttlSeconds : ℤ
  limits : RlEndpoint → ℤ
  fallbackToLocal : Bool
  fallbackLimiter : Option MemoryRlState
  redisQueries : ℕ
  redisErrors : ℕ
  fallbackUsed : ℕ

/-- `distributed_rl_config_t`, the fields that the choice of a backend reads. -/
structure DistributedRlConfig where
  enabled : Bool
  backend : List UInt8
  fallbackToLocal : Bool

/-- `rate_limiter_get_default_config`. -/
def rateLimiterDefaultConfig : DistributedRlConfig where
  enabled := false
  backend := ascii "memory"
  fallbackToLocal := true

/-- The backend that `rate_limiter_parse_config` selects; the mode variable has priority. -/
def rateLimiterBackend (getenv : Getenv) : Option (List UInt8) :=
  match getenv "GATEWAY_RATE_LIMIT_MODE" with
  | none => getenv "GATEWAY_RATE_LIMIT_BACKEND"
  | some mode =>
      if mode == ascii "local" then some (ascii "memory")
      else if mode == ascii "redis" then some (ascii "redis")
      else if mode == ascii "hybrid" then some (ascii "redis")
      else getenv "GATEWAY_RATE_LIMIT_BACKEND"

/-- `GATEWAY_RATE_LIMIT_FALLBACK_TO_LOCAL`: on unless `false` or `0`. -/
def fallbackToLocal (getenv : Getenv) : Bool :=
  match getenv "GATEWAY_RATE_LIMIT_FALLBACK_TO_LOCAL" with
  | none => true
  | some val => !(val == ascii "false" || val == ascii "0")

/-- `rate_limiter_parse_config`. -/
def rateLimiterParseConfig (getenv : Getenv) : DistributedRlConfig where
  enabled := envFlag getenv "GATEWAY_DISTRIBUTED_RATE_LIMIT_ENABLED"
  backend :=
    match rateLimiterBackend getenv with
    | none => rateLimiterDefaultConfig.backend
    | some backend => copyField 32 backend
  fallbackToLocal := CGateway.fallbackToLocal getenv

/-- The configuration asks for Redis. -/
def DistributedRlConfig.wantsRedis (config : DistributedRlConfig) : Bool :=
  config.enabled && config.backend == ascii "redis"

/-- `redis_rl_init`: without a working connection it needs the fallback. -/
def redisRlInit (getenv : Getenv) (connect : RedisConnect) (config : DistributedRlConfig) :
    Option RedisRlState :=
  let state : RedisRlState := {
    redisCtx := connect != .null
    ttlSeconds := backendTtlSeconds getenv
    limits := backendEndpointLimit getenv
    fallbackToLocal := config.fallbackToLocal
    fallbackLimiter := none
    redisQueries := 0
    redisErrors := 0
    fallbackUsed := 0 }
  if connect = .connected then some state
  else if config.fallbackToLocal then
    some { state with fallbackLimiter := some (memoryRlInit getenv) }
  else none

/-- The name of an endpoint in a Redis key. -/
def redisEndpointName : RlEndpoint → List UInt8
  | .routesDecide => ascii "routes_decide"
  | .messages => ascii "messages"
  | .registryBlocks => ascii "registry_blocks"

/-- `get_window_start`. -/
def getWindowStart (now ttlSeconds : ℤ) : ℤ := now.tdiv ttlSeconds * ttlSeconds

/-- `build_redis_key` into the buffer of 256 bytes; an absent tenant or key is empty. -/
def buildRedisKey (endpoint : RlEndpoint) (tenantId apiKey : Option (List UInt8))
    (windowStart : ℤ) : Option (List UInt8) :=
  let key := ascii "rate_limit:" ++ redisEndpointName endpoint ++ ascii ":" ++
    tenantId.getD [] ++ ascii ":" ++ apiKey.getD [] ++ ascii ":" ++ decimal windowStart
  if key.length < 256 then some key else none

/-- The check of the fallback limiter, on behalf of the Redis backend. -/
def redisRlFallback (now : ℤ) (endpoint : RlEndpoint) (st : RedisRlState) (mem : MemoryRlState) :
    RlOutcome RedisRlState :=
  (memoryRlCheck now endpoint mem).map fun mem =>
    { st with fallbackUsed := st.fallbackUsed + 1, fallbackLimiter := some mem }

/-- What `redis_rl_check` makes of the count that `INCR` returned. -/
def redisRlCount (endpoint : RlEndpoint) (key : List UInt8) (count : ℤ) (st : RedisRlState) :
    RlOutcome RedisRlState :=
  let commands := RedisCommand.incr key ::
    if count = 1 then [.expire key (st.ttlSeconds + 10)] else []
  let limit := st.limits endpoint
  if limit < count then ⟨.exceeded, some 0, st, commands⟩
  else ⟨.allowed, some (unsignedInt (limit - count)), st, commands⟩

/-- `redis_rl_check`. -/
def redisRlCheck (now : ℤ) (incr : List UInt8 → RedisReply) (endpoint : RlEndpoint)
    (tenantId apiKey : Option (List UInt8)) (st : RedisRlState) : RlOutcome RedisRlState :=
  match st.redisCtx, st.fallbackLimiter with
  | false, some mem => redisRlFallback now endpoint st mem
  | false, none => ⟨.error, none, st, []⟩
  | true, fallback =>
      match buildRedisKey endpoint tenantId apiKey (getWindowStart now st.ttlSeconds) with
      | none => ⟨.error, none, st, []⟩
      | some key =>
          match incr key with
          | .failed =>
              let st := { st with redisErrors := st.redisErrors + 1 }
              match st.fallbackToLocal, fallback with
              | true, some mem =>
                  { redisRlFallback now endpoint st mem with commands := [.incr key] }
              | _, _ => ⟨.error, none, st, [.incr key]⟩
          | .integer count =>
              redisRlCount endpoint key count { st with redisQueries := st.redisQueries + 1 }
          | .other =>
              ⟨.error, none, { st with redisQueries := st.redisQueries + 1 }, [.incr key]⟩

/-- `redis_rl_check` on any number: there is no key for one that is no endpoint. -/
def redisRlCheckId (now : ℤ) (incr : List UInt8 → RedisReply) (id : ℕ)
    (tenantId apiKey : Option (List UInt8)) (st : RedisRlState) : RlOutcome RedisRlState :=
  match RlEndpoint.ofId id with
  | some endpoint => redisRlCheck now incr endpoint tenantId apiKey st
  | none =>
      match st.redisCtx, st.fallbackLimiter with
      | false, some mem =>
          (memoryRlCheckId now id mem).map fun mem =>
            { st with fallbackUsed := st.fallbackUsed + 1, fallbackLimiter := some mem }
      | _, _ => ⟨.error, none, st, []⟩

/-! ### The interface -/

/-- `rate_limiter_t`: a backend and its state. -/
inductive Limiter where
  | memory (st : MemoryRlState)
  | redis (st : RedisRlState)

/-- `limiter->check`. -/
def Limiter.check (now : ℤ) (incr : List UInt8 → RedisReply) (endpoint : RlEndpoint)
    (tenantId apiKey : Option (List UInt8)) : Limiter → RlOutcome Limiter
  | .memory st => (memoryRlCheck now endpoint st).map .memory
  | .redis st => (redisRlCheck now incr endpoint tenantId apiKey st).map .redis

/-- `limiter->init`; a failed one leaves the old state in place. -/
def Limiter.init (getenv : Getenv) (connect : RedisConnect) (config : DistributedRlConfig) :
    Limiter → Option Limiter
  | .memory _ => some (.memory (memoryRlInit getenv))
  | .redis _ => (redisRlInit getenv connect config).map .redis

/-- `rate_limiter_create`. -/
def rateLimiterCreate (getenv : Getenv) (connect : RedisConnect) (config : DistributedRlConfig) :
    Option Limiter :=
  if config.wantsRedis then (redisRlInit getenv connect config).map .redis
  else some (.memory (memoryRlInit getenv))

end CGateway
