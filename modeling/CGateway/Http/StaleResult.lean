import CGateway.Http.DecidePath
import CGateway.Limiter.FailClosed

/-! # What a denied request is told

`handle_decide` declares `redis_rl_result` without a value and prints four of its fields into the 429. An
open breaker that fails closed, the one way to a denial in this build, writes the decision and `degraded`
only. So the answer is what the stack held: two runs of one request that differ in nothing else answer
alike just when the stack did.

* `redisRateLimiterCheck_of_deny` — what a denial writes;
* `redisDenyResponse_inj` — the 429 shows all four fields;
* `stale_result_iff` — the two runs, from the check to the bytes that are sent. -/

namespace CGateway

open Bytes CString Machine

/-- The two results agree on what the 429 shows. -/
structure SameLimits (a b : RedisLimiterResult) : Prop where
  limit : a.limit = b.limit
  remaining : a.remaining = b.remaining
  retryAfterSec : a.retryAfterSec = b.retryAfterSec
  resetAt : a.resetAt = b.resetAt

/-! ### The check -/

/-- **A denial writes two fields.** Where the limiter denies, it denies whatever the result held before,
and leaves the rest of it. -/
theorem redisRateLimiterCheck_of_deny {clock : RedisLimiterClock} {stale : RedisLimiterResult}
    {st : Option RedisLimiter} (h : (redisRateLimiterCheck clock stale st).1.decision = .deny)
    (other : RedisLimiterResult) :
    (redisRateLimiterCheck clock other st).1 = { other with decision := .deny, degraded := true } := by
  cases st with
  | none => exact absurd h RedisDecision.noConfusion
  | some st =>
    simp only [redisRateLimiterCheck, checkRateLimitRedis] at h ⊢
    cases henabled : st.config.enabled with
    | false =>
      rw [henabled] at h
      exact absurd h RedisDecision.noConfusion
    | true =>
      simp only [henabled, if_true] at h ⊢
      -- the state and the mode decide, and only one pair of them denies
      generalize redisCbGetState clock.state st = asked at h ⊢
      obtain ⟨state, st'⟩ := asked
      cases state with
      | closed => exact absurd h RedisDecision.noConfusion
      | halfOpen => exact absurd h RedisDecision.noConfusion
      | «open» =>
        cases hmode : st'.config.cbFailOpen with
        | true =>
          simp only [hmode] at h
          exact absurd h RedisDecision.noConfusion
        | false => simp only

/-! ### The response -/

/-- A number is read back from a header line: it ends before the line does. -/
theorem decimalNat_line_inj {m n : ℕ} {x y : List UInt8}
    (h : decimalNat m ++ 13 :: x = decimalNat n ++ 13 :: y) : m = n ∧ x = y := by
  have hdigits : ∀ k, (13 : UInt8) ∉ decimalNat k := notMem_decimalNat (.inl (by decide))
  obtain ⟨hnumber, hrest⟩ := append_sep_inj (hdigits m) (hdigits n) h
  exact ⟨decimalNat_injective hnumber, hrest⟩

/-- The headers of the 429, each number with the line end behind it. -/
theorem headers_redisDenyResponse (result : RedisLimiterResult) (ctx : RequestContext) :
    (redisDenyResponse result ctx).headers =
      ascii "Content-Type: application/json\r\nRetry-After: " ++
        (decimalNat result.retryAfterSec.toNat ++ 13 :: (ascii "\nX-RateLimit-Limit: " ++
          (decimalNat result.limit.toNat ++ 13 :: (ascii "\nX-RateLimit-Remaining: " ++
            (decimalNat result.remaining.toNat ++ 13 :: (ascii "\nX-RateLimit-Reset: " ++
              (decimalNat result.resetAt.toNat ++ 13 :: ascii "\n"))))))) := by
  simp only [redisDenyResponse, List.append_assoc]
  rfl

/-- **The 429 shows all four fields.** -/
theorem redisDenyResponse_inj {a b : RedisLimiterResult} (ctx : RequestContext) :
    redisDenyResponse a ctx = redisDenyResponse b ctx ↔ SameLimits a b := by
  constructor
  · intro h
    have hheaders := congrArg Response.headers h
    rw [headers_redisDenyResponse, headers_redisDenyResponse] at hheaders
    obtain ⟨hretry, hrest⟩ := decimalNat_line_inj (List.append_cancel_left hheaders)
    obtain ⟨hlimit, hrest⟩ := decimalNat_line_inj (List.append_cancel_left hrest)
    obtain ⟨hremaining, hrest⟩ := decimalNat_line_inj (List.append_cancel_left hrest)
    obtain ⟨hreset, -⟩ := decimalNat_line_inj (List.append_cancel_left hrest)
    exact ⟨UInt32.toNat_inj.mp hlimit, UInt32.toNat_inj.mp hremaining, UInt32.toNat_inj.mp hretry,
      UInt64.toNat_inj.mp hreset⟩
  · intro h
    simp only [redisDenyResponse, h.limit, h.remaining, h.retryAfterSec, h.resetAt]

/-- A request that the Redis limiter denies gets its 429 and nothing else. -/
theorem effects_handleDecide_of_deny (h : Host) {x : Exchange} {body : List UInt8}
    (ctx : RequestContext) {w : World} (hbody : body ≠ []) (hactive : routerStatus x w.gateway ≠ .active)
    (hdeny : (redisResult x w.gateway).decision = .deny) :
    (handleDecide h x body ctx w).effects = w.effects ++
      [.enterDecide, .respond (redisDenyResponse (redisResult x w.gateway) ctx), .spanEnd .http] := by
  obtain ⟨rest, heffects, hends⟩ := handleDecide_ends h x body ctx w
  rw [heffects]
  cases hends with
  | empty hempty => exact absurd hempty hbody
  | overloaded _ hoverloaded _ => exact absurd hoverloaded hactive
  | denied _ _ _ => rfl
  | forwarded _ _ hpassed _ _ => exact absurd hdeny hpassed

/-! ### Two runs -/

/-- The same exchange on a stack that holds another result. -/
def Exchange.onStack (x : Exchange) (other : RedisLimiterResult) : Exchange :=
  { x with staleResult := other }

/-- **Two runs of a denied request.** Where the limiter denies a request, it denies it for every content of
the result. The four fields agree in two runs if and only if they agreed before the check, and so do the
bytes that `handle_decide` sends. -/
theorem stale_result_iff (x : Exchange) (other : RedisLimiterResult) (w : World)
    (hdeny : (redisResult x w.gateway).decision = .deny) :
    (redisResult (x.onStack other) w.gateway).decision = .deny ∧
      (SameLimits (redisResult x w.gateway) (redisResult (x.onStack other) w.gateway) ↔
        SameLimits x.staleResult other) ∧
      ∀ (h : Host) (body : List UInt8) (ctx : RequestContext), body ≠ [] →
        routerStatus x w.gateway ≠ .active →
          ((handleDecide h x body ctx w).effects = (handleDecide h (x.onStack other) body ctx w).effects ↔
            SameLimits x.staleResult other) := by
  have hx : redisResult x w.gateway = { x.staleResult with decision := .deny, degraded := true } :=
    redisRateLimiterCheck_of_deny hdeny x.staleResult
  have hother : redisResult (x.onStack other) w.gateway =
      { other with decision := .deny, degraded := true } :=
    redisRateLimiterCheck_of_deny hdeny other
  have hdenyOther : (redisResult (x.onStack other) w.gateway).decision = .deny := by
    rw [hother]
  have hsame : SameLimits (redisResult x w.gateway)
      (redisResult (x.onStack other) w.gateway) ↔ SameLimits x.staleResult other := by
    rw [hx, hother]
    exact ⟨fun h => ⟨h.limit, h.remaining, h.retryAfterSec, h.resetAt⟩,
      fun h => ⟨h.limit, h.remaining, h.retryAfterSec, h.resetAt⟩⟩
  refine ⟨hdenyOther, hsame, ?_⟩
  intro h body ctx hbody hactive
  rw [effects_handleDecide_of_deny h ctx hbody hactive hdeny,
    effects_handleDecide_of_deny (x := x.onStack other) h ctx hbody hactive hdenyOther, ← hsame,
    ← redisDenyResponse_inj ctx]
  simp

/-- A gateway whose limiter fails closed and has been opened by two checks at time 1000. -/
def deniedWorld : World where
  gateway := setRedisLimiter
    (exec redisCheckStep (redisRateLimiterInit twoErrorConfig) [checkAt 1000, checkAt 1000]).2
    (Gateway.atStart 900)
  effects := []

/-- Two runs on the same stack contents answer alike. -/
theorem stale_result_same_stack :
    SameLimits
      (redisResult (.delivering [] none) deniedWorld.gateway)
      (redisResult ((Exchange.delivering [] none).onStack ⟨.deny, 0, 0, 0, 0, true⟩) deniedWorld.gateway) :=
  (stale_result_iff (.delivering [] none) ⟨.deny, 0, 0, 0, 0, true⟩ deniedWorld
    (by decide)).2.1.mpr ⟨rfl, rfl, rfl, rfl⟩

/-- On a stack that holds a 7 where the result keeps `retry_after_sec`, the limiter denies the same request
with another answer. -/
theorem stale_result_leaks :
    let x := Exchange.delivering [] none
    let y := x.onStack ⟨.allow, 0, 0, 7, 0, false⟩
    (redisResult x deniedWorld.gateway).decision = .deny ∧
      (redisResult y deniedWorld.gateway).decision = .deny ∧
      (redisResult x deniedWorld.gateway).retryAfterSec = 0 ∧
      (redisResult y deniedWorld.gateway).retryAfterSec = 7 := by
  decide

end CGateway
