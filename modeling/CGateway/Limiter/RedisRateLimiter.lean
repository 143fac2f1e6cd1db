import CGateway.Environment

/-! # The Redis limiter of the decide path

`redis_rate_limiter.c` in the build without hiredis, the only one its code compiles in: the pool never
holds a connection, so that a check only drives the limiter's own circuit breaker. Fields of the result
that a branch does not write keep what the caller's variable held before. -/

namespace CGateway

open Bytes CString

/-- `redis_rl_decision_t`. -/
inductive RedisDecision where
  | allow
  | deny
  | error
  deriving DecidableEq, Repr

/-- `redis_rl_result_t`. -/
structure RedisLimiterResult where
  decision : RedisDecision
  limit : UInt32
  remaining : UInt32
  retryAfterSec : UInt32
  resetAt : UInt64
  degraded : Bool
  deriving DecidableEq, Repr

/-- `redis_rl_config_t`, the fields this build reads, and the window that no function reads. -/
structure RedisLimiterConfig where
  enabled : Bool
  globalLimit : UInt32
  poolSize : ℤ
  cbFailOpen : Bool
  cbErrorThreshold : ℤ
  cbSlidingWindowSec : ℤ
  cbCooldownSec : ℤ
  cbHalfOpenAttempts : ℤ

/-- `redis_rate_limiter_parse_config`, from its defaults. -/
def redisRateLimiterParseConfig (getenv : Getenv) : RedisLimiterConfig where
  enabled := envFlag getenv "C_GATEWAY_REDIS_RATE_LIMIT_ENABLED"
  globalLimit :=
    UInt32.ofNat (unsignedInt (envAtoi getenv "C_GATEWAY_REDIS_RATE_LIMIT_GLOBAL_LIMIT" 1000))
  poolSize := envAtoi getenv "C_GATEWAY_REDIS_RATE_LIMIT_POOL_SIZE" 32
  cbFailOpen :=
    match getenv "C_GATEWAY_REDIS_RATE_LIMIT_CB_MODE" with
    | none => true
    | some mode => mode == ascii "fail_open"
  cbErrorThreshold := envAtoi getenv "C_GATEWAY_REDIS_RATE_LIMIT_CB_ERROR_THRESHOLD" 5
  cbSlidingWindowSec := envAtoi getenv "C_GATEWAY_REDIS_RATE_LIMIT_CB_SLIDING_WINDOW_SEC" 30
  cbCooldownSec := envAtoi getenv "C_GATEWAY_REDIS_RATE_LIMIT_CB_COOLDOWN_SEC" 15
  cbHalfOpenAttempts := envAtoi getenv "C_GATEWAY_REDIS_RATE_LIMIT_CB_HALF_OPEN_ATTEMPTS" 2

/-- `cb_state_t` of this limiter. -/
inductive RedisCbState where
  | closed
  | open
  | halfOpen
  deriving DecidableEq, Repr

/-- `circuit_breaker_t` of this limiter. -/
structure RedisCb where
  state : RedisCbState
  errorCount : ℕ
  lastErrorTime : ℤ
  openedAt : ℤ
  halfOpenAttempts : ℕ
  halfOpenSuccesses : ℕ
  deriving DecidableEq, Repr

/-- `redis_rl_state_t`: the configuration and the breaker. -/
structure RedisLimiter where
  config : RedisLimiterConfig
  cb : RedisCb

/-- `redis_rate_limiter_init` on no state: nothing for a disabled limiter. A pool that cannot be
allocated leaves `initialized` unset, which is the same to every later check. -/
def redisRateLimiterInit (config : RedisLimiterConfig) : Option RedisLimiter :=
  if config.enabled && 0 ≤ config.poolSize then some ⟨config, ⟨.closed, 0, 0, 0, 0, 0⟩⟩ else none

/-- `cb_record_error`. -/
def redisCbRecordError (now openedNow : ℤ) (st : RedisLimiter) : RedisLimiter :=
  let cb := { st.cb with errorCount := st.cb.errorCount + 1, lastErrorTime := now }
  match cb.state with
  | .closed =>
      if st.config.cbErrorThreshold ≤ cb.errorCount then
        { st with cb := { cb with state := .open, openedAt := openedNow } }
      else { st with cb := cb }
  | .halfOpen =>
      { st with cb := { cb with
          state := .open, openedAt := openedNow, halfOpenAttempts := 0, halfOpenSuccesses := 0 } }
  | .open => { st with cb := cb }

/-- `cb_record_success`, which the build without hiredis compiles but does not call. -/
def redisCbRecordSuccess (st : RedisLimiter) : RedisLimiter :=
  match st.cb.state with
  | .closed => { st with cb := { st.cb with errorCount := 0 } }
  | .halfOpen =>
      let cb := { st.cb with
        halfOpenSuccesses := st.cb.halfOpenSuccesses + 1
        halfOpenAttempts := st.cb.halfOpenAttempts + 1 }
      if st.config.cbHalfOpenAttempts ≤ cb.halfOpenSuccesses then
        { st with cb := { cb with
            state := .closed, errorCount := 0, halfOpenAttempts := 0, halfOpenSuccesses := 0 } }
      else { st with cb := cb }
  | .open => st

/-- `cb_get_state`: an open breaker whose cooldown is over becomes half-open. -/
def redisCbGetState (now : ℤ) (st : RedisLimiter) : RedisCbState × RedisLimiter :=
  if st.cb.state = .open ∧ now - st.cb.openedAt ≥ st.config.cbCooldownSec then
    (.halfOpen, { st with cb := { st.cb with
      state := .halfOpen, halfOpenAttempts := 0, halfOpenSuccesses := 0 } })
  else (st.cb.state, st)

/-- The clock readings of one check. -/
structure RedisLimiterClock where
  /-- Read by `cb_get_state`. -/
  state : ℤ
  /-- Read by `cb_record_error` for the last error. -/
  error : ℤ
  /-- Read by `cb_record_error` for the opening. -/
  opened : ℤ

/-- `check_rate_limit_redis`: an open breaker decides by its mode, any other asks the pool, which has no
connection to give. -/
def checkRateLimitRedis (clock : RedisLimiterClock) (stale : RedisLimiterResult)
    (st : RedisLimiter) : RedisLimiterResult × RedisLimiter :=
  let (state, st) := redisCbGetState clock.state st
  match state, st.config.cbFailOpen with
  | .open, true =>
      ({ decision := .allow, degraded := true, limit := st.config.globalLimit,
         remaining := st.config.globalLimit, retryAfterSec := 0, resetAt := 0 }, st)
  | .open, false => ({ stale with decision := .deny, degraded := true }, st)
  | _, _ =>
      ({ stale with decision := .allow, degraded := true },
        redisCbRecordError clock.error clock.opened st)

/-- `redis_rate_limiter_check`, which returns 0 on every path of this build. -/
def redisRateLimiterCheck (clock : RedisLimiterClock) (stale : RedisLimiterResult) :
    Option RedisLimiter → RedisLimiterResult × Option RedisLimiter
  | none => ({ stale with decision := .allow, degraded := false }, none)
  | some st =>
      if st.config.enabled then
        let (result, st) := checkRateLimitRedis clock stale st
        (result, some st)
      else ({ stale with decision := .allow, degraded := false }, some st)

end CGateway
