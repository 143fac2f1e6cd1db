import CGateway.Limiter.FixedWindow
import CGateway.Limiter.Distributed
import CGateway.Http.Server

/-! # The request limit during a Redis outage

With the local fallback on, `redis_rl_init` creates a memory limiter when the connection fails at
start-up, and only then. A check is decided by Redis, by that memory limiter, or by neither: where
`INCR` fails and there is no memory limiter, `redis_rl_check` reports an error, and `rate_limit_check`
lets the request through.

* `limitStep` — one call of `rate_limit_check`, from the start of the process;
* `Decides` — the limiters that always have someone to decide, with the history of the memory limiter;
* `LimitLaw` — what the calls so far say about Redis and the memory limiter;
* `survivesOutages_iff` — four times the limit bounds every interval, whatever fails, exactly where
  the limiter did not connect at start-up. -/

namespace CGateway

open Machine Windows

/-! ### Calls of `rate_limit_check` -/

/-- One call of `rate_limit_check`, with what happens around it. -/
structure LimitCall where
  exchange : Exchange
  endpoint : RlEndpoint
  tenantId : Option (List UInt8)

/-- One call: the verdict, and what was done. -/
def limitStep (h : Host) (g : Gateway) (c : LimitCall) : Gateway × RlVerdict × List Effect :=
  let (verdict, w) := rateLimitCheck h c.exchange c.endpoint c.tenantId ⟨g, []⟩
  (w.gateway, verdict, w.effects)

/-- A call as the history keeps it. -/
abbrev LimitRecord := Record Gateway LimitCall (RlVerdict × List Effect)

/-- The time of a call. -/
def LimitRecord.now (r : LimitRecord) : ℤ := r.input.exchange.clock.limiter

/-- The key of the `INCR` among some effects. -/
def sentIncr (effects : List Effect) : Option (List UInt8) :=
  effects.findSome? fun
    | .redis (.incr key) => some key
    | _ => none

/-- What Redis answered to the `INCR` of the call, if it sent one. -/
def LimitRecord.reply (r : LimitRecord) : Option RedisReply :=
  (sentIncr r.output.2).map r.input.exchange.redisIncr

/-- The count of a reply. -/
def RedisReply.count? : RedisReply → Option ℤ
  | .integer n => some n
  | _ => none

/-- The key and the count that Redis answered, if it did. -/
def LimitRecord.counted (r : LimitRecord) : Option (List UInt8 × ℤ) :=
  (sentIncr r.output.2).bind fun key =>
    (r.input.exchange.redisIncr key).count?.map fun n => (key, n)

/-- The call let a request of the tenant on the endpoint through. -/
def LimitRecord.letsThrough (endpoint : RlEndpoint) (tenantId : Option (List UInt8)) (r : LimitRecord) : Bool :=
  r.output.1 == .allowed && (r.input.endpoint == endpoint && r.input.tenantId == tenantId)

/-- The requests of a tenant on an endpoint that were let through in the interval of `length` seconds
from `a` on, its last second included. -/
def letThroughWithin (endpoint : RlEndpoint) (tenantId : Option (List UInt8)) (a length : ℤ)
    (past : List LimitRecord) : ℕ :=
  past.countP fun r => r.letsThrough endpoint tenantId && (a ≤ r.now && r.now ≤ a + length)

/-- The surroundings of the calls: the clock is positive, does not go back and fits a `time_t`; tenants
fit the buffer of the request context; and on one key, `INCR` answers every count once, where it does
not fail. -/
structure LimitWorld (past : List LimitRecord) : Prop where
  monotone : past.Pairwise fun later earlier => earlier.now ≤ later.now
  positive : ∀ r ∈ past, 0 < r.now
  fits : ∀ r ∈ past, r.now < 2 ^ 63
  tenants : ∀ r ∈ past, (r.input.tenantId.getD []).length ≤ 63
  replies : ∀ r ∈ past, r.reply ≠ some .other
  counts : ∀ r ∈ past, ∀ key n, r.counted = some (key, n) → 1 ≤ n
  distinct : (past.filterMap LimitRecord.counted).Nodup

/-- The second connection attempt at start-up, the one that counts, ended this way. -/
def StartedWith (connect : RedisConnect) (past : List LimitRecord) : Prop :=
  ∀ first, past.getLast? = some first → first.input.exchange.redisConnect.2 = connect

/-- No `INCR` of the calls failed. -/
def NoneFailed (past : List LimitRecord) : Prop := ∀ r ∈ past, r.reply ≠ some .failed

/-- In any interval of `ttl` seconds at most four times the limit is let through. -/
def LimitKept (getenv : Getenv) (past : List LimitRecord) : Prop :=
  ∀ endpoint tenantId a, (letThroughWithin endpoint tenantId a (backendTtlSeconds getenv) past : ℤ) ≤
    4 * backendEndpointLimit getenv endpoint

/-- The limit is kept whatever fails after a start-up with this connection. -/
def SurvivesOutages (h : Host) (connect : RedisConnect) : Prop :=
  ∀ startTime past g, Run (limitStep h) (Gateway.atStart startTime) past g → LimitWorld past →
    StartedWith connect past → LimitKept h.getenv past

/-- The limiter runs on Redis: it is configured, and the connection was made. -/
def OnRedis (getenv : Getenv) (connect : RedisConnect) : Prop :=
  (rateLimiterParseConfig getenv).wantsRedis = true ∧ connect = .connected

instance (getenv : Getenv) (connect : RedisConnect) : Decidable (OnRedis getenv connect) :=
  inferInstanceAs (Decidable (_ ∧ _))

/-! ### Who decides -/

/-- There is a memory limiter to decide a check. -/
def Limiter.hasLocal : Limiter → Bool
  | .memory _ => true
  | .redis st => st.fallbackLimiter.isSome

/-- A limiter with these settings, and the checks that its memory limiter has decided. -/
inductive Decides (limits : RlEndpoint → ℤ) (ttl : ℤ) : List MemoryRecord → Limiter → Prop
  /-- The memory backend. -/
  | memory {checks : List MemoryRecord} {st : MemoryRlState} (run : MemoryRun limits ttl checks st) :
      Decides limits ttl checks (.memory st)
  /-- Redis, with a memory limiter to fall back to. -/
  | fallback {checks : List MemoryRecord} {st : RedisRlState} {mem : MemoryRlState}
      (hlimits : st.limits = limits) (httl : st.ttlSeconds = ttl) (hon : st.fallbackToLocal = true)
      (hmem : st.fallbackLimiter = some mem) (run : MemoryRun limits ttl checks mem) :
      Decides limits ttl checks (.redis st)
  /-- Redis alone. -/
  | alone {st : RedisRlState} (hlimits : st.limits = limits) (httl : st.ttlSeconds = ttl)
      (hctx : st.redisCtx = true) (hmem : st.fallbackLimiter = none) :
      Decides limits ttl [] (.redis st)

/-- What Redis decides on a count. -/
def countResult (limit count : ℤ) : RlResult := if limit < count then .exceeded else .allowed

/-- Who decided one check, by the reply to its `INCR`: the memory limiter, as its next check, the count
of Redis, or nobody. -/
inductive Decided (limits : RlEndpoint → ℤ) (ttl now : ℤ) (endpoint : RlEndpoint) (key : List UInt8)
    (reply : RedisReply) (checks : List MemoryRecord) (limiter : Limiter) (outcome : RlOutcome Limiter) : Prop
  | byMemory (r : MemoryRecord) (hinput : r.input = ⟨now, endpoint.id⟩)
      (hresult : outcome.result = r.output.1) (hsure : outcome.result ≠ .error)
      (hnext : Decides limits ttl (r :: checks) outcome.state)
      (hsent : outcome.commands = [] ∨ outcome.commands = [.incr key] ∧ reply = .failed)
  | byRedis (n : ℤ) (hreply : reply = .integer n)
      (hresult : outcome.result = countResult (limits endpoint) n)
      (hnext : Decides limits ttl checks outcome.state)
      (hsent : outcome.commands.head? = some (.incr key))
  | byNobody (hreply : reply = .other ∨ reply = .failed ∧ limiter.hasLocal = false)
      (hresult : outcome.result = .error) (hnext : Decides limits ttl checks outcome.state)
      (hsent : outcome.commands = [.incr key])

section Check

variable {limits : RlEndpoint → ℤ} {ttl now : ℤ} {endpoint : RlEndpoint} {checks : List MemoryRecord}
  (incr : List UInt8 → RedisReply) {tenantId : Option (List UInt8)} {key : List UInt8}

/-- A check on an endpoint is a step of the memory limiter. -/
theorem memoryRlCheck_eq_step (now : ℤ) (endpoint : RlEndpoint) (st : MemoryRlState) :
    memoryStep st ⟨now, endpoint.id⟩ = ((memoryRlCheck now endpoint st).state,
      (memoryRlCheck now endpoint st).result, (memoryRlCheck now endpoint st).remaining) := by
  simp only [memoryStep, memoryRlCheckId, RlEndpoint.ofId_id]

/-- The memory backend sends no commands, and on an endpoint it makes no error. -/
theorem memoryRlCheck_sure (now : ℤ) (endpoint : RlEndpoint) (st : MemoryRlState) :
    (memoryRlCheck now endpoint st).commands = [] ∧ (memoryRlCheck now endpoint st).result ≠ .error := by
  rw [memoryRlCheck]
  dsimp only
  split <;> exact ⟨rfl, fun h => by cases h⟩

/-- The history of the memory limiter with the check it makes next. -/
theorem memoryRun_check {st : MemoryRlState} (run : MemoryRun limits ttl checks st) (now : ℤ)
    (endpoint : RlEndpoint) :
    MemoryRun limits ttl (recordOf memoryStep st ⟨now, endpoint.id⟩ :: checks)
      (memoryRlCheck now endpoint st).state := by
  have hnext := run.next ⟨now, endpoint.id⟩
  rwa [memoryRlCheck_eq_step] at hnext

/-- The result of Redis on a count, and what it leaves alone. -/
theorem redisRlCount_result (endpoint : RlEndpoint) (key : List UInt8) (count : ℤ) (st : RedisRlState) :
    (redisRlCount endpoint key count st).result = countResult (st.limits endpoint) count ∧
      (redisRlCount endpoint key count st).state = st ∧
      (redisRlCount endpoint key count st).commands.head? = some (.incr key) := by
  rw [redisRlCount, countResult]
  split <;> exact ⟨rfl, rfl, rfl⟩

variable {limiter : Limiter}

/-- Deciding a check on the count of Redis. -/
theorem decided_count {n : ℤ} {st : RedisRlState} (hlimits : st.limits = limits)
    (hnext : Decides limits ttl checks (.redis st)) :
    Decided limits ttl now endpoint key (.integer n) checks limiter
      ((redisRlCount endpoint key n st).map .redis) := by
  obtain ⟨hresult, hstate, hcommands⟩ := redisRlCount_result endpoint key n st
  refine .byRedis n rfl ?_ ?_ hcommands
  · rw [← hlimits]
    exact hresult
  · show Decides limits ttl checks (.redis (redisRlCount endpoint key n st).state)
    rwa [hstate]

/-- Deciding a check with the memory limiter. -/
theorem decided_memory {mem : MemoryRlState} {reply : RedisReply} {outcome : RlOutcome Limiter}
    (hresult : outcome.result = (memoryRlCheck now endpoint mem).result)
    (hnext : Decides limits ttl (recordOf memoryStep mem ⟨now, endpoint.id⟩ :: checks) outcome.state)
    (hsent : outcome.commands = [] ∨ outcome.commands = [.incr key] ∧ reply = .failed) :
    Decided limits ttl now endpoint key reply checks limiter outcome := by
  refine .byMemory (recordOf memoryStep mem ⟨now, endpoint.id⟩) rfl ?_ ?_ hnext hsent
  · rw [hresult, recordOf_output, memoryRlCheck_eq_step]
  · rw [hresult]
    exact (memoryRlCheck_sure now endpoint mem).2

/-- **Who decides a check.** -/
theorem Decides.check (inv : Decides limits ttl checks limiter)
    (hkey : buildRedisKey endpoint tenantId none (getWindowStart now ttl) = some key) :
    Decided limits ttl now endpoint key (incr key) checks limiter
      (limiter.check now incr endpoint tenantId none) := by
  cases inv with
  | @memory _ st run =>
    exact decided_memory rfl (.memory (memoryRun_check run now endpoint))
      (.inl (memoryRlCheck_sure now endpoint st).1)
  | @fallback _ st mem hlimits httl hon hmem run =>
    subst httl
    have hrun := memoryRun_check run now endpoint
    -- The memory limiter decides without a context, and where `INCR` fails.
    cases hctx : st.redisCtx with
    | false =>
      simp only [Limiter.check, redisRlCheck, hctx, hmem]
      exact decided_memory rfl (.fallback hlimits rfl hon rfl hrun)
        (.inl (memoryRlCheck_sure now endpoint mem).1)
    | true =>
      cases hreply : incr key with
      | failed =>
        simp only [Limiter.check, redisRlCheck, hctx, hkey, hreply, hon, hmem]
        exact decided_memory rfl (.fallback hlimits rfl rfl rfl hrun) (.inr ⟨rfl, rfl⟩)
      | integer n =>
        simp only [Limiter.check, redisRlCheck, hctx, hkey, hreply]
        exact decided_count hlimits (.fallback hlimits rfl hon hmem run)
      | other =>
        simp only [Limiter.check, redisRlCheck, hctx, hkey, hreply]
        exact .byNobody (.inl rfl) rfl (.fallback hlimits rfl hon hmem run) rfl
  | @alone st hlimits httl hctx hmem =>
    subst httl
    cases hreply : incr key with
    | failed =>
      have hlocal : (Limiter.redis st).hasLocal = false := by
        rw [Limiter.hasLocal, hmem]
        rfl
      have hcheck : redisRlCheck now incr endpoint tenantId none st =
          ⟨.error, none, { st with redisErrors := st.redisErrors + 1 }, [.incr key]⟩ := by
        simp only [redisRlCheck, hctx, hkey, hreply, hmem]
        cases st.fallbackToLocal <;> rfl
      rw [Limiter.check, hcheck]
      exact .byNobody (.inr ⟨rfl, hlocal⟩) rfl (.alone hlimits rfl hctx hmem) rfl
    | integer n =>
      simp only [Limiter.check, redisRlCheck, hctx, hkey, hreply]
      exact decided_count hlimits (.alone hlimits rfl rfl hmem)
    | other =>
      simp only [Limiter.check, redisRlCheck, hctx, hkey, hreply]
      exact .byNobody (.inl rfl) rfl (.alone hlimits rfl rfl hmem) rfl

/-- A check neither makes nor drops a memory limiter. -/
theorem hasLocal_check (now : ℤ) (endpoint : RlEndpoint) (tenantId : Option (List UInt8)) (limiter : Limiter) :
    (limiter.check now incr endpoint tenantId none).state.hasLocal = limiter.hasLocal := by
  cases limiter with
  | memory st => rfl
  | redis st =>
    show ((redisRlCheck now incr endpoint tenantId none st).state.fallbackLimiter).isSome = _
    rw [Limiter.hasLocal]
    cases hctx : st.redisCtx with
    | false =>
      cases hmem : st.fallbackLimiter <;>
        simp [redisRlCheck, hctx, hmem, redisRlFallback, RlOutcome.map]
    | true =>
      cases hkey : buildRedisKey endpoint tenantId none (getWindowStart now st.ttlSeconds) with
      | none => simp [redisRlCheck, hctx, hkey]
      | some key =>
        cases hreply : incr key with
        | failed =>
          cases hon : st.fallbackToLocal <;> cases hmem : st.fallbackLimiter <;>
            simp [redisRlCheck, hctx, hkey, hreply, hon, hmem, redisRlFallback, RlOutcome.map]
        | integer n => simp [redisRlCheck, hctx, hkey, hreply, redisRlCount_result]
        | other => simp [redisRlCheck, hctx, hkey, hreply]

/-- The memory limiter keeps its own bound. -/
theorem Decides.allowedWithin_le (inv : Decides limits ttl checks limiter) (hpos : 0 < ttl)
    (hlimits : ∀ endpoint, 0 < limits endpoint ∧ limits endpoint < 2 ^ 31) (hclock : Clocked checks)
    (endpoint : RlEndpoint) (a : ℤ) : allowedWithin endpoint a ttl checks ≤ 2 * (limits endpoint).toNat := by
  have hrun : ∀ st, MemoryRun limits ttl checks st →
      allowedWithin endpoint a ttl checks ≤ 2 * (limits endpoint).toNat := by
    intro st run
    have inv := memoryInv_of_run hpos hlimits run hclock
    exact inv.windowed.countP_interval_le (inv.cap endpoint) a
  cases inv with
  | memory run => exact hrun _ run
  | fallback _ _ _ _ run => exact hrun _ run
  | alone => exact Nat.zero_le _

end Check

/-! ### The limiter at start-up -/

section Startup

variable {getenv : Getenv}

/-- With the fallback on, the limiter that the first call finds depends on the second attempt alone. -/
theorem initialLimiter_fallback (hfallback : fallbackToLocal getenv = true)
    (connect : RedisConnect × RedisConnect) :
    (initialLimiter getenv connect).1 =
      if (rateLimiterParseConfig getenv).wantsRedis then
        .redis ⟨connect.2 != .null, backendTtlSeconds getenv, backendEndpointLimit getenv, true,
          if connect.2 = .connected then none else some (memoryRlInit getenv), 0, 0, 0⟩
      else .memory (memoryRlInit getenv) := by
  have hconfig : (rateLimiterParseConfig getenv).fallbackToLocal = true := hfallback
  obtain ⟨first, second⟩ := connect
  simp only [initialLimiter, rateLimiterCreate]
  cases (rateLimiterParseConfig getenv).wantsRedis with
  | false => rfl
  | true => cases first <;> cases second <;> simp [redisRlInit, hconfig, Limiter.init]

/-- That limiter has decided nothing yet, and it has a memory limiter unless it runs on Redis. -/
theorem decides_initialLimiter (hfallback : fallbackToLocal getenv = true)
    (connect : RedisConnect × RedisConnect) :
    Decides (backendEndpointLimit getenv) (backendTtlSeconds getenv) []
        (initialLimiter getenv connect).1 ∧
      (¬ OnRedis getenv connect.2 → (initialLimiter getenv connect).1.hasLocal = true) := by
  rw [initialLimiter_fallback hfallback, OnRedis, memoryRlInit_eq]
  cases (rateLimiterParseConfig getenv).wantsRedis with
  | false => exact ⟨.memory .start, fun _ => rfl⟩
  | true =>
    by_cases hconnected : connect.2 = .connected
    · rw [hconnected]
      exact ⟨.alone rfl rfl rfl rfl, fun hnot => absurd ⟨rfl, rfl⟩ hnot⟩
    · rw [if_pos rfl, if_neg hconnected]
      exact ⟨.fallback rfl rfl rfl rfl .start, fun _ => rfl⟩

end Startup

/-! ### One call -/

section Call

variable {h : Host} {g : Gateway} {c : LimitCall} {limiter : Limiter}

/-- What a call does with the limiter it finds. -/
theorem limitStep_spec (hlimiter : (rateLimitInitIfNeeded h c.exchange g).rateLimiter = some limiter)
    {outcome : RlOutcome Limiter}
    (houtcome : limiter.check c.exchange.clock.limiter c.exchange.redisIncr c.endpoint c.tenantId none = outcome) :
    (limitStep h g c).2.1 = rateLimitVerdict h.getenv outcome.result ∧
      sentIncr (limitStep h g c).2.2 = sentIncr (outcome.commands.map .redis) ∧
      (limitStep h g c).1.rlInitialized = true ∧ (limitStep h g c).1.rateLimiter = some outcome.state := by
  have hready : (rateLimitInitIfNeeded h c.exchange g).rlInitialized = true := by
    rw [rateLimitInitIfNeeded]
    split
    · assumption
    · rfl
  simp only [limitStep, rateLimitCheck, World.update_gateway, World.emit_gateway, hlimiter, houtcome, true_and]
  refine ⟨?_, ?_⟩
  · simp [sentIncr]
  · -- The counters leave the limiter and the flag alone.
    cases outcome.result with
    | allowed => exact ⟨hready, rfl⟩
    | exceeded => exact ⟨hready, rfl⟩
    | error =>
      simp only [countRateLimit, setRateLimiter]
      split <;> exact ⟨hready, rfl⟩

/-- An `INCR` in front is the one that was sent. -/
theorem sentIncr_of_head {commands : List RedisCommand} {key : List UInt8}
    (hhead : commands.head? = some (.incr key)) : sentIncr (commands.map .redis) = some key := by
  cases commands with
  | nil => cases hhead
  | cons command rest =>
    cases Option.some.inj hhead
    rfl

end Call

/-! ### Whole runs -/

/-- What the calls so far say about Redis, and about the checks of the memory limiter. -/
structure LimitLaw (getenv : Getenv) (past : List LimitRecord) (checks : List MemoryRecord) : Prop where
  clocked : Clocked checks
  times : ∀ c ∈ checks, ∃ r ∈ past, r.now = c.input.now
  byRedis : ∀ r ∈ past, ∀ key n, r.counted = some (key, n) →
    buildRedisKey r.input.endpoint r.input.tenantId none
        (getWindowStart r.now (backendTtlSeconds getenv)) = some key ∧
      (r.output.1 = .allowed → n ≤ backendEndpointLimit getenv r.input.endpoint)
  byMemory : ∀ endpoint a, past.countP (fun r =>
      (r.output.1 == .allowed && r.input.endpoint == endpoint && r.counted.isNone) &&
        (a ≤ r.now && r.now ≤ a + backendTtlSeconds getenv)) ≤
    allowedWithin endpoint a (backendTtlSeconds getenv) checks

section Law

variable {getenv : Getenv} {past : List LimitRecord} {checks : List MemoryRecord} {r : LimitRecord}

/-- The surroundings of the calls before the last. -/
theorem LimitWorld.tail (world : LimitWorld (r :: past)) : LimitWorld past := by
  refine ⟨(List.pairwise_cons.mp world.monotone).2, fun r' hr' => world.positive r' (List.mem_cons_of_mem r hr'),
    fun r' hr' => world.fits r' (List.mem_cons_of_mem r hr'),
    fun r' hr' => world.tenants r' (List.mem_cons_of_mem r hr'),
    fun r' hr' => world.replies r' (List.mem_cons_of_mem r hr'),
    fun r' hr' => world.counts r' (List.mem_cons_of_mem r hr'), ?_⟩
  have hdistinct := world.distinct
  rw [List.filterMap_cons] at hdistinct
  split at hdistinct
  · exact hdistinct
  · exact (List.nodup_cons.mp hdistinct).2

/-- The start-up is that of the calls before the last. -/
theorem StartedWith.tail {connect : RedisConnect} (hstart : StartedWith connect (r :: past)) :
    StartedWith connect past := by
  intro first hfirst
  refine hstart first ?_
  rw [List.getLast?_cons, hfirst]
  rfl

/-- No calls yet. -/
theorem LimitLaw.nil : LimitLaw getenv [] [] :=
  ⟨⟨.nil, fun _ h => absurd h List.not_mem_nil⟩, fun _ h => absurd h List.not_mem_nil,
    fun _ h => absurd h List.not_mem_nil, fun _ _ => le_rfl⟩

/-- One more call, decided by Redis. -/
theorem LimitLaw.cons_redis (law : LimitLaw getenv past checks) {key : List UInt8} {n : ℤ}
    (hcounted : r.counted = some (key, n))
    (hkey : buildRedisKey r.input.endpoint r.input.tenantId none
      (getWindowStart r.now (backendTtlSeconds getenv)) = some key)
    (hle : r.output.1 = .allowed → n ≤ backendEndpointLimit getenv r.input.endpoint) :
    LimitLaw getenv (r :: past) checks := by
  refine ⟨law.clocked, fun c hc => ?_, fun r' hr' key' n' hcounted' => ?_, fun endpoint a => ?_⟩
  · obtain ⟨r', hr', hnow⟩ := law.times c hc
    exact ⟨r', List.mem_cons_of_mem r hr', hnow⟩
  · rcases List.mem_cons.mp hr' with rfl | hr'
    · rw [hcounted, Option.some.injEq, Prod.mk.injEq] at hcounted'
      obtain ⟨rfl, rfl⟩ := hcounted'
      exact ⟨hkey, hle⟩
    · exact law.byRedis r' hr' key' n' hcounted'
  · rw [List.countP_cons_of_neg (by simp [hcounted])]
    exact law.byMemory endpoint a

/-- One more call, decided by the memory limiter. -/
theorem LimitLaw.cons_memory (law : LimitLaw getenv past checks) (world : LimitWorld (r :: past))
    {c : MemoryRecord} (hinput : c.input = ⟨r.now, r.input.endpoint.id⟩) (hcounted : r.counted = none)
    (hallowed : r.output.1 = .allowed → c.output.1 = .allowed) : LimitLaw getenv (r :: past) (c :: checks) := by
  have hnow : c.input.now = r.now := by rw [hinput]
  refine ⟨⟨?_, ?_⟩, ?_, ?_, ?_⟩
  · rw [List.pairwise_cons]
    refine ⟨fun c' hc' => ?_, law.clocked.monotone⟩
    obtain ⟨r', hr', heq⟩ := law.times c' hc'
    rw [← heq, hnow]
    exact (List.pairwise_cons.mp world.monotone).1 r' hr'
  · intro c' hc'
    rcases List.mem_cons.mp hc' with rfl | hc'
    · rw [hnow]
      exact world.positive r List.mem_cons_self
    · exact law.clocked.positive c' hc'
  · intro c' hc'
    rcases List.mem_cons.mp hc' with rfl | hc'
    · exact ⟨r, List.mem_cons_self, hnow.symm⟩
    · obtain ⟨r', hr', heq⟩ := law.times c' hc'
      exact ⟨r', List.mem_cons_of_mem r hr', heq⟩
  · intro r' hr' key n hcounted'
    rcases List.mem_cons.mp hr' with rfl | hr'
    · rw [hcounted] at hcounted'
      cases hcounted'
    · exact law.byRedis r' hr' key n hcounted'
  · intro endpoint a
    have hle := law.byMemory endpoint a
    -- A request let through was allowed by the check of the memory limiter.
    have hone : ((r.output.1 == .allowed && r.input.endpoint == endpoint && r.counted.isNone) &&
        (a ≤ r.now && r.now ≤ a + backendTtlSeconds getenv)) = true →
        (c.allows endpoint && (a ≤ c.input.now && c.input.now ≤ a + backendTtlSeconds getenv)) = true := by
      intro hcount
      simp only [Bool.and_eq_true, beq_iff_eq, decide_eq_true_eq] at hcount
      obtain ⟨⟨⟨hout, rfl⟩, _⟩, hinterval⟩ := hcount
      simp only [MemoryRecord.allows, hinput, RlEndpoint.ofId_id, hallowed hout, beq_self_eq_true,
        Bool.and_eq_true, decide_eq_true_eq, true_and]
      exact hinterval
    rw [allowedWithin] at hle ⊢
    rw [List.countP_cons, List.countP_cons]
    split
    · rename_i hcount
      rw [if_pos (hone hcount)]
      omega
    · split <;> omega

/-- **Two windows and two windows.** Redis and the memory limiter each let at most twice the limit
through. -/
theorem LimitLaw.kept (law : LimitLaw getenv past checks) (world : LimitWorld past) {limiter : Limiter}
    (hdecides : Decides (backendEndpointLimit getenv) (backendTtlSeconds getenv) checks limiter) :
    LimitKept getenv past := by
  intro endpoint tenantId a
  have hpos := backendTtlSeconds_pos getenv
  have hlimit := (backendEndpointLimit_range getenv endpoint).1
  have hlocal := hdecides.allowedWithin_le hpos (backendEndpointLimit_range getenv) law.clocked endpoint a
  have hwindowed : Windowed (backendTtlSeconds getenv) LimitRecord.now
      (fun r => getWindowStart r.now (backendTtlSeconds getenv)) past :=
    .of_aligned (fun r hr => (getWindowStart_spec (world.positive r hr).le hpos).2)
      fun r _ => Int.dvd_mul_left _ _
  -- In one window of Redis all calls of the tenant have one key.
  have hredis : past.countP (fun r => (r.letsThrough endpoint tenantId && r.counted.isSome) &&
      (a ≤ r.now && r.now ≤ a + backendTtlSeconds getenv)) ≤ 2 * (backendEndpointLimit getenv endpoint).toNat := by
    refine hwindowed.countP_interval_le (fun w => ?_) a
    cases hkey : buildRedisKey endpoint tenantId none w with
    | none =>
      refine le_of_eq_of_le (List.countP_eq_zero.mpr fun r hr hcount => ?_) (Nat.zero_le _)
      simp only [LimitRecord.letsThrough, Bool.and_eq_true, beq_iff_eq] at hcount
      obtain ⟨⟨⟨_, rfl, rfl⟩, hsome⟩, rfl⟩ := hcount
      obtain ⟨⟨key, n⟩, hcounted⟩ := Option.isSome_iff_exists.mp hsome
      rw [(law.byRedis r hr key n hcounted).1] at hkey
      cases hkey
    | some key =>
      refine countP_le_of_numbered key world.distinct fun r hr hcount => ?_
      simp only [LimitRecord.letsThrough, Bool.and_eq_true, beq_iff_eq] at hcount
      obtain ⟨⟨⟨hallowed, rfl, rfl⟩, hsome⟩, rfl⟩ := hcount
      obtain ⟨⟨key', n⟩, hcounted⟩ := Option.isSome_iff_exists.mp hsome
      obtain ⟨hkey', hle⟩ := law.byRedis r hr key' n hcounted
      rw [hkey, Option.some.injEq] at hkey'
      subst hkey'
      exact ⟨n, hcounted, world.counts r hr key n hcounted, hle hallowed⟩
  have hmemory := law.byMemory endpoint a
  have hsplit : letThroughWithin endpoint tenantId a (backendTtlSeconds getenv) past ≤
      past.countP (fun r => (r.letsThrough endpoint tenantId && r.counted.isSome) &&
        (a ≤ r.now && r.now ≤ a + backendTtlSeconds getenv)) +
      past.countP (fun r =>
        (r.output.1 == .allowed && r.input.endpoint == endpoint && r.counted.isNone) &&
          (a ≤ r.now && r.now ≤ a + backendTtlSeconds getenv)) := by
    refine (List.countP_mono_left fun r _ hcount => ?_).trans (countP_or_le _ _ _)
    simp only [LimitRecord.letsThrough, Bool.and_eq_true, Bool.or_eq_true, beq_iff_eq] at hcount ⊢
    obtain ⟨⟨hallowed, hendpoint, htenant⟩, hinterval⟩ := hcount
    cases hcounted : r.counted with
    | none => exact .inr ⟨⟨⟨hallowed, hendpoint⟩, rfl⟩, hinterval⟩
    | some label => exact .inl ⟨⟨⟨hallowed, hendpoint, htenant⟩, rfl⟩, hinterval⟩
  omega

end Law

section Runs

variable {h : Host} {connect : RedisConnect} {past : List LimitRecord} {g : Gateway}

/-- The limiter that the next call finds, whatever surrounds it; the first call makes it. -/
def Finds (h : Host) (connect : RedisConnect) (past : List LimitRecord) (g : Gateway) (limiter : Limiter) : Prop :=
  ∀ x : Exchange, (past = [] → x.redisConnect.2 = connect) →
    (rateLimitInitIfNeeded h x g).rateLimiter = some limiter

variable {limiter : Limiter} {c : LimitCall}

/-- A gateway that has its limiter keeps it. -/
theorem Finds.of_initialized (hinit : g.rlInitialized = true) (hlimiter : g.rateLimiter = some limiter) :
    Finds h connect past g limiter := by
  intro x _
  rw [rateLimitInitIfNeeded, if_pos hinit]
  exact hlimiter

/-- The state of a run in which somebody has decided every call. -/
structure LimitInv (h : Host) (connect : RedisConnect) (past : List LimitRecord) (g : Gateway)
    (checks : List MemoryRecord) (limiter : Limiter) : Prop where
  finds : Finds h connect past g limiter
  decides : Decides (backendEndpointLimit h.getenv) (backendTtlSeconds h.getenv) checks limiter
  hasLocal : ¬ OnRedis h.getenv connect → limiter.hasLocal = true
  law : LimitLaw h.getenv past checks

/-- At start-up. -/
theorem limitInv_start (hfallback : fallbackToLocal h.getenv = true) (startTime : ℤ) :
    LimitInv h connect [] (Gateway.atStart startTime) []
      (initialLimiter h.getenv (connect, connect)).1 := by
  obtain ⟨hdecides, hlocal⟩ := decides_initialLimiter hfallback (connect, connect)
  refine ⟨fun x hx => ?_, hdecides, hlocal, .nil⟩
  show some (initialLimiter h.getenv x.redisConnect).1 = _
  rw [initialLimiter_fallback hfallback, initialLimiter_fallback hfallback, hx rfl]

/-- What Redis answered to a call, and the count of it. -/
theorem reply_recordOf {key : List UInt8} (hsent : sentIncr (limitStep h g c).2.2 = some key) :
    LimitRecord.reply (recordOf (limitStep h) g c) = some (c.exchange.redisIncr key) ∧
      LimitRecord.counted (recordOf (limitStep h) g c) = (c.exchange.redisIncr key).count?.map fun n => (key, n) := by
  simp only [LimitRecord.reply, LimitRecord.counted, recordOf_output, recordOf_input, hsent,
    Option.map_some, Option.bind_some, and_self]

/-- A call that the memory limiter decides is not counted in Redis: no `INCR` is sent, or it fails. -/
theorem counted_recordOf_memory {commands : List RedisCommand} {key : List UInt8}
    (hsent : sentIncr (limitStep h g c).2.2 = sentIncr (commands.map .redis))
    (hcommands : commands = [] ∨ commands = [.incr key] ∧ c.exchange.redisIncr key = .failed) :
    LimitRecord.counted (recordOf (limitStep h) g c) = none := by
  rcases hcommands with rfl | ⟨rfl, hfailed⟩
  · rw [LimitRecord.counted, recordOf_output, hsent]
    rfl
  · rw [(reply_recordOf hsent).2, hfailed]
    rfl

/-- Without an error a request is let through only on the word of the limiter. -/
theorem eq_allowed_of_verdict {getenv : Getenv} {result : RlResult} (hsure : result ≠ .error)
    (hallowed : rateLimitVerdict getenv result = .allowed) : result = .allowed := by
  cases result with
  | allowed => rfl
  | exceeded => cases hallowed
  | error => exact absurd rfl hsure

/-- A call that somebody decides keeps the invariant. -/
theorem LimitInv.step {checks : List MemoryRecord} (inv : LimitInv h connect past g checks limiter)
    (world : LimitWorld (recordOf (limitStep h) g c :: past))
    (hstart : StartedWith connect (recordOf (limitStep h) g c :: past))
    (hdecided : ¬ OnRedis h.getenv connect ∨ LimitRecord.reply (recordOf (limitStep h) g c) ≠ some .failed) :
    ∃ checks' limiter', LimitInv h connect (recordOf (limitStep h) g c :: past) (limitStep h g c).1
      checks' limiter' := by
  have hfirst : past = [] → c.exchange.redisConnect.2 = connect := by
    rintro rfl
    exact hstart _ rfl
  -- The key fits its buffer.
  have hnow := world.positive _ List.mem_cons_self
  have hfits := world.fits _ List.mem_cons_self
  obtain ⟨hzero, hle, _⟩ := getWindowStart_spec hnow.le (backendTtlSeconds_pos h.getenv)
  obtain ⟨key, hkey⟩ := buildRedisKey_isSome c.endpoint (world.tenants _ List.mem_cons_self) hzero
    (by omega)
  have hcheck := inv.decides.check c.exchange.redisIncr hkey
  have hlocal := hasLocal_check c.exchange.redisIncr c.exchange.clock.limiter c.endpoint c.tenantId limiter
  obtain ⟨hverdict, hsent, hinit, hlimiter⟩ := limitStep_spec (inv.finds c.exchange hfirst) rfl
  simp only [LimitRecord.now, recordOf_input] at hcheck
  generalize limiter.check c.exchange.clock.limiter c.exchange.redisIncr c.endpoint c.tenantId none =
    outcome at hverdict hsent hlimiter hcheck hlocal
  have hlocal : ¬ OnRedis h.getenv connect → outcome.state.hasLocal = true :=
    fun hoff => hlocal.trans (inv.hasLocal hoff)
  have hfinds : Finds h connect (recordOf (limitStep h) g c :: past) (limitStep h g c).1
      outcome.state := .of_initialized hinit hlimiter
  cases hcheck with
  | byMemory r hinput hresult hsure hnext hcommands =>
    refine ⟨r :: checks, outcome.state, hfinds, hnext, hlocal,
      inv.law.cons_memory world hinput (counted_recordOf_memory hsent hcommands) fun hallowed => ?_⟩
    rw [recordOf_output, hverdict] at hallowed
    rw [← hresult]
    exact eq_allowed_of_verdict hsure hallowed
  | byRedis n hreply hresult hnext hhead =>
    have hcounted := (reply_recordOf (hsent.trans (sentIncr_of_head hhead))).2
    rw [hreply] at hcounted
    refine ⟨checks, outcome.state, hfinds, hnext, hlocal, inv.law.cons_redis hcounted hkey fun hallowed => ?_⟩
    rw [recordOf_output, hverdict, hresult, countResult] at hallowed
    split at hallowed
    · cases hallowed
    · rename_i hcount
      exact not_lt.mp hcount
  | byNobody hreply _ _ hcommands =>
    rw [hcommands] at hsent
    have hanswer := (reply_recordOf hsent).1
    rcases hreply with hother | ⟨hfailed, hnone⟩
    · exact absurd (hanswer.trans (congrArg some hother)) (world.replies _ List.mem_cons_self)
    · rcases hdecided with hoff | hne
      · rw [inv.hasLocal hoff] at hnone
        cases hnone
      · exact absurd (hanswer.trans (congrArg some hfailed)) hne

/-- The limit is kept in every run in which somebody decides every call. -/
theorem limitKept_of_run (hfallback : fallbackToLocal h.getenv = true) {startTime : ℤ}
    (run : Run (limitStep h) (Gateway.atStart startTime) past g) (world : LimitWorld past)
    (hstart : StartedWith connect past) (hdecided : ¬ OnRedis h.getenv connect ∨ NoneFailed past) :
    LimitKept h.getenv past := by
  have key : ∃ checks limiter, LimitInv h connect past g checks limiter := by
    induction run with
    | start => exact ⟨_, _, limitInv_start hfallback startTime⟩
    | next run c ih =>
      obtain ⟨checks, limiter, inv⟩ := ih world.tail hstart.tail
        (hdecided.imp_right fun hnone r hr => hnone r (List.mem_cons_of_mem _ hr))
      exact inv.step world hstart (hdecided.imp_right fun hnone => hnone _ List.mem_cons_self)
  obtain ⟨checks, limiter, inv⟩ := key
  exact inv.law.kept world inv.decides

/-- A call whose `INCR` fails, on a connection that was made at start-up. -/
def outageCall : LimitCall where
  exchange := { Exchange.delivering [] none with redisConnect := (.connected, .connected) }
  endpoint := .routesDecide
  tenantId := some (Bytes.ascii "acme")

/-- A limiter without a memory limiter has decided nothing by memory. -/
theorem Decides.checks_eq_nil {limits : RlEndpoint → ℤ} {ttl : ℤ} {checks : List MemoryRecord}
    (hdecides : Decides limits ttl checks limiter) (hlocal : limiter.hasLocal = false) : checks = [] := by
  cases hdecides with
  | memory => cases hlocal
  | fallback _ _ _ hmem =>
    rw [Limiter.hasLocal, hmem] at hlocal
    cases hlocal
  | alone => rfl

/-- On a limiter that runs on Redis alone, such a call is let through, and the next finds the limiter
in the same situation. -/
theorem outageCall_allowed (hfallback : fallbackToLocal h.getenv = true)
    (hfinds : Finds h .connected past g limiter)
    (hdecides : Decides (backendEndpointLimit h.getenv) (backendTtlSeconds h.getenv) [] limiter)
    (hlocal : limiter.hasLocal = false) :
    (limitStep h g outageCall).2.1 = .allowed ∧
      LimitRecord.reply (recordOf (limitStep h) g outageCall) = some .failed ∧
      ∃ limiter', Finds h .connected (recordOf (limitStep h) g outageCall :: past)
          (limitStep h g outageCall).1 limiter' ∧
        Decides (backendEndpointLimit h.getenv) (backendTtlSeconds h.getenv) [] limiter' ∧
        limiter'.hasLocal = false := by
  -- The key of the call fits its buffer, so an `INCR` is sent.
  have hnow : (0 : ℤ) ≤ outageCall.exchange.clock.limiter := by decide
  obtain ⟨hzero, hle, _⟩ := getWindowStart_spec hnow (backendTtlSeconds_pos h.getenv)
  have hfits : outageCall.exchange.clock.limiter < 2 ^ 63 := by decide
  obtain ⟨key, hkey⟩ := @buildRedisKey_isSome outageCall.endpoint outageCall.tenantId (by decide) _
    hzero (by omega)
  have hcheck := hdecides.check outageCall.exchange.redisIncr hkey
  have hkept := hasLocal_check outageCall.exchange.redisIncr outageCall.exchange.clock.limiter
    outageCall.endpoint outageCall.tenantId limiter
  obtain ⟨hverdict, hsent, hinit, hlimiter⟩ :=
    limitStep_spec (c := outageCall) (hfinds outageCall.exchange fun _ => rfl) rfl
  generalize limiter.check outageCall.exchange.clock.limiter outageCall.exchange.redisIncr
    outageCall.endpoint outageCall.tenantId none = outcome at hverdict hsent hlimiter hcheck hkept
  rw [hlocal] at hkept
  -- There is no memory limiter to decide, and Redis does not answer: nobody decides.
  cases hcheck with
  | byMemory r _ _ _ hnext _ => cases hnext.checks_eq_nil hkept
  | byRedis n hreply => cases hreply
  | byNobody _ hresult hnext hcommands =>
    rw [hcommands] at hsent
    refine ⟨?_, (reply_recordOf hsent).1, outcome.state, .of_initialized hinit hlimiter, hnext, hkept⟩
    rw [hverdict, hresult, rateLimitVerdict, if_pos hfallback]

/-- Runs of any length in which every call fails and is let through. -/
theorem exists_outage_run (hfallback : fallbackToLocal h.getenv = true)
    (hredis : OnRedis h.getenv .connected) (n : ℕ) :
    ∃ (past : List LimitRecord) (g : Gateway) (limiter : Limiter),
      Run (limitStep h) (Gateway.atStart 0) past g ∧ past.length = n ∧
      (∀ r ∈ past, r.input = outageCall ∧ r.output.1 = .allowed ∧ r.reply = some .failed) ∧
      Finds h .connected past g limiter ∧
      Decides (backendEndpointLimit h.getenv) (backendTtlSeconds h.getenv) [] limiter ∧ limiter.hasLocal = false := by
  induction n with
  | zero =>
    have inv := @limitInv_start h .connected hfallback 0
    refine ⟨[], _, _, .start, rfl, fun _ hr => absurd hr List.not_mem_nil, inv.finds, inv.decides, ?_⟩
    rw [initialLimiter_fallback hfallback, if_pos hredis.1]
    rfl
  | succ n ih =>
    obtain ⟨past, g, limiter, run, hlength, hall, hfinds, hdecides, hlocal⟩ := ih
    obtain ⟨hallowed, hreply, limiter', hnext⟩ := outageCall_allowed hfallback hfinds hdecides hlocal
    refine ⟨_, _, limiter', run.next outageCall, congrArg (· + 1) hlength, fun r hr => ?_, hnext⟩
    rcases List.mem_cons.mp hr with rfl | hr
    · exact ⟨rfl, hallowed, hreply⟩
    · exact hall r hr

/-- A failed `INCR` has no count. -/
theorem counted_of_failed {r : LimitRecord} (hreply : r.reply = some .failed) : r.counted = none := by
  rw [LimitRecord.reply, Option.map_eq_some_iff] at hreply
  obtain ⟨key, hsent, hfailed⟩ := hreply
  rw [LimitRecord.counted, hsent, Option.bind_some, hfailed]
  rfl

/-- Such a run has ordinary surroundings: nothing is counted, and the clock stands still. -/
theorem limitWorld_outage (hall : ∀ r ∈ past, r.input = outageCall ∧ r.reply = some .failed) : LimitWorld past := by
  have hnow : ∀ r ∈ past, r.now = 1000 := by
    intro r hr
    rw [LimitRecord.now, (hall r hr).1]
    rfl
  have hcounted : ∀ r ∈ past, r.counted = none := fun r hr => counted_of_failed (hall r hr).2
  refine ⟨?_, ?_, ?_, ?_, ?_, ?_, ?_⟩
  · refine List.pairwise_of_forall_mem_list fun r hr r' hr' => ?_
    rw [hnow r hr, hnow r' hr']
  · intro r hr
    rw [hnow r hr]
    decide
  · intro r hr
    rw [hnow r hr]
    decide
  · intro r hr
    rw [(hall r hr).1]
    decide
  · intro r hr hother
    rw [(hall r hr).2] at hother
    cases hother
  · intro r hr key n hsome
    rw [hcounted r hr] at hsome
    cases hsome
  · have hnil : past.filterMap LimitRecord.counted = [] := by
      rw [List.filterMap_eq_nil_iff]
      exact hcounted
    rw [hnil]
    exact .nil

/-- A limiter that runs on Redis does not survive an outage: one call more than the bound is let
through in one second. -/
theorem not_survivesOutages (hfallback : fallbackToLocal h.getenv = true)
    (hredis : OnRedis h.getenv .connected) : ¬ SurvivesOutages h .connected := by
  intro hsurvives
  have hlimit := (backendEndpointLimit_range h.getenv .routesDecide).1
  obtain ⟨past, g, _, run, hlength, hall, _⟩ := exists_outage_run hfallback hredis
    (4 * (backendEndpointLimit h.getenv .routesDecide).toNat + 1)
  have hkept := hsurvives 0 past g run (limitWorld_outage fun r hr => ⟨(hall r hr).1, (hall r hr).2.2⟩)
    (fun first hfirst => by rw [(hall first (List.mem_of_getLast? hfirst)).1]; rfl)
    .routesDecide outageCall.tenantId 1000
  -- Every call of that run is let through at the time 1000.
  have hcount : letThroughWithin .routesDecide outageCall.tenantId 1000
      (backendTtlSeconds h.getenv) past = past.length := by
    refine List.countP_eq_length.mpr fun r hr => ?_
    obtain ⟨hinput, hallowed, _⟩ := hall r hr
    have hnow : r.now = 1000 := by
      rw [LimitRecord.now, hinput]
      rfl
    have hpos := backendTtlSeconds_pos h.getenv
    simp only [LimitRecord.letsThrough, hinput, hallowed, hnow, outageCall, beq_self_eq_true,
      Bool.and_self, Bool.and_eq_true, decide_eq_true_eq, true_and]
    omega
  rw [hcount, hlength] at hkept
  omega

end Runs

/-- **The limit in an outage.** With the local fallback on, at most four times the limit of an endpoint
is let through for a tenant in `ttl` seconds, whatever fails, exactly where the limiter did not connect
to Redis at start-up (or is not configured to); and in every run in which no `INCR` fails. -/
theorem survivesOutages_iff (h : Host) (hfallback : fallbackToLocal h.getenv = true) (connect : RedisConnect) :
    (SurvivesOutages h connect ↔ ¬ OnRedis h.getenv connect) ∧
      ∀ startTime past g, Run (limitStep h) (Gateway.atStart startTime) past g → LimitWorld past →
        NoneFailed past → LimitKept h.getenv past := by
  refine ⟨⟨fun hsurvives hredis => ?_, fun hoff startTime past g run world hstart => ?_⟩,
    fun startTime past g run world hnone => ?_⟩
  · obtain rfl := hredis.2
    exact not_survivesOutages hfallback hredis hsurvives
  · exact limitKept_of_run hfallback run world hstart (.inl hoff)
  · -- The start-up of the run is the one of its first call, if there is one.
    have hstart : ∃ connect, StartedWith connect past := by
      cases hlast : past.getLast? with
      | none =>
          refine ⟨.null, fun first hfirst => ?_⟩
          rw [hlast] at hfirst
          cases hfirst
      | some first =>
          refine ⟨first.input.exchange.redisConnect.2, fun first' hfirst => ?_⟩
          rw [hlast] at hfirst
          rw [Option.some.inj hfirst]
    obtain ⟨connect, hstart⟩ := hstart
    exact limitKept_of_run hfallback run world hstart (.inr hnone)

/-- A process that limits decisions to one in a minute, with Redis. -/
def sharedHost : Host :=
  sampleHost [("GATEWAY_DISTRIBUTED_RATE_LIMIT_ENABLED", "true"), ("GATEWAY_RATE_LIMIT_MODE", "redis"),
    ("GATEWAY_RATE_LIMIT_ROUTES_DECIDE_LIMIT", "1")]

/-- It survives outages where Redis was down at start-up, and only then. -/
theorem survivesOutages_iff_shared :
    SurvivesOutages sharedHost .null ∧ ¬ SurvivesOutages sharedHost .connected :=
  ⟨(survivesOutages_iff sharedHost (by decide) .null).1.mpr (by decide),
    fun hsurvives => (survivesOutages_iff sharedHost (by decide) .connected).1.mp hsurvives
      (by decide)⟩

/-- A call that Redis answers with this count. -/
def countedCall (n : ℤ) : LimitCall :=
  { outageCall with exchange := { outageCall.exchange with redisIncr := fun _ => .integer n } }

/-- **The outage lifts the limit.** Redis allows one request and refuses the next; then `INCR` fails,
and four more requests are let through in the same second. -/
theorem outage_lifts_limit :
    fallbackToLocal sharedHost.getenv = true ∧
      backendEndpointLimit sharedHost.getenv .routesDecide = 1 ∧
      letThroughWithin .routesDecide (some (Bytes.ascii "acme")) 1000
        (backendTtlSeconds sharedHost.getenv)
        (exec (limitStep sharedHost) (Gateway.atStart 900)
          ([countedCall 1, countedCall 2] ++ List.replicate 4 outageCall)).1 = 5 := by
  decide

end CGateway
