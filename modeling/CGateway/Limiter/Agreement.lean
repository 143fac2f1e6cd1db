import CGateway.Limiter.Distributed

/-! # The two backends agree

The memory backend counts the requests it allows and tests before it counts; Redis counts every request
and the gateway tests afterwards. Within one window of both, for one tenant, the answers are the same:
the memory counter is the Redis counter cut off at the limit.

* `backendsStep` — the same check on both backends, with Redis executing the commands at once;
* `Agree` — the simulation relation;
* `backends_agree` — in every run within a window both give the same result and remaining value. -/

namespace CGateway

open Machine CounterStore

/-- Both backends and the Redis behind one of them. -/
structure Backends where
  memory : MemoryRlState
  redis : RedisRlState
  store : Store (List UInt8)

/-- Redis executes a command at a time in seconds. -/
def redisExec (now : ℤ) (store : Store (List UInt8)) : RedisCommand → Store (List UInt8)
  | .incr key => store.incr key
  | .expire key secs => store.expire key (now + secs).toNat

/-- `redis_rl_check` for one tenant without an API key, on a Redis that answers. -/
def redisStep (tenantId : List UInt8) (b : Backends) (c : MemoryCheck) : RlOutcome RedisRlState :=
  redisRlCheckId c.now (fun key => .integer ((b.store.purge c.now.toNat).value key + 1)) c.endpoint
    (some tenantId) none b.redis

/-- The same check on both backends: the state, and the answers of memory and Redis. -/
def backendsStep (tenantId : List UInt8) (b : Backends) (c : MemoryCheck) :
    Backends × (RlResult × Option ℕ) × (RlResult × Option ℕ) :=
  let outcome := redisStep tenantId b c
  (⟨(memoryStep b.memory c).1, outcome.state,
      outcome.commands.foldl (redisExec c.now) (b.store.purge c.now.toNat)⟩,
    (memoryStep b.memory c).2, (outcome.result, outcome.remaining))

/-- A check on both backends, as the history keeps it. -/
abbrev BackendsRecord :=
  Record Backends MemoryCheck ((RlResult × Option ℕ) × (RlResult × Option ℕ))

/-- Fresh backends for the window in which a check at time `first` lies: the memory window is about to
be opened, and Redis has no key of the tenant for its window. -/
structure BackendsStart (limits : RlEndpoint → ℤ) (ttl : ℤ) (tenantId : List UInt8)
    (first windowStart : ℤ) (b : Backends) : Prop where
  memory_limits : b.memory.limits = limits
  memory_ttl : b.memory.ttlSeconds = ttl
  fresh : WindowExpired first b.memory
  redis : Connected limits ttl b.redis
  absent : ∀ endpoint key,
    buildRedisKey endpoint (some tenantId) none windowStart = some key → b.store key = none

/-- The time lies in the window that memory opens at `first` and in the Redis window. -/
structure InWindow (ttl first windowStart now : ℤ) : Prop where
  nonneg : 0 ≤ now
  fits : now < 2 ^ 63
  memory : now - first < ttl
  redis : getWindowStart now ttl = windowStart

/-! ### The simulation -/

/-- The backends within the window: each memory counter is the Redis counter cut off at the limit, and
no key is removed before the window is over. -/
structure Agree (limits : RlEndpoint → ℤ) (ttl : ℤ) (tenantId : List UInt8) (first windowStart : ℤ)
    (b : Backends) : Prop where
  memory_limits : b.memory.limits = limits
  memory_ttl : b.memory.ttlSeconds = ttl
  started : b.memory.windowStartedAt = first
  redis : Connected limits ttl b.redis
  counters : ∀ endpoint key, buildRedisKey endpoint (some tenantId) none windowStart = some key →
    ∃ n, Counts (windowStart + ttl).toNat key n b.store ∧
      b.memory.counters endpoint = min n (limits endpoint).toNat

section Simulation

variable {limits : RlEndpoint → ℤ} {ttl : ℤ} {tenantId : List UInt8} {first windowStart : ℤ}
  {b : Backends} {c : MemoryCheck}

/-- Opening the window first makes no difference to a check. -/
theorem memoryStep_window (st : MemoryRlState) (c : MemoryCheck) :
    memoryStep (memoryRlWindow c.now st) c = memoryStep st c := by
  have hwindow : memoryRlWindow c.now (memoryRlWindow c.now st) = memoryRlWindow c.now st := by
    by_cases hexpired : WindowExpired c.now st
    · have hagain := memoryRlWindow_expired hexpired
      rw [hagain, memoryRlWindow]
      split <;> rfl
    · rw [memoryRlWindow_open hexpired, memoryRlWindow_open hexpired]
  simp only [memoryStep, memoryRlCheckId, memoryRlCheck, hwindow]

/-- A check within the window leaves the memory window open. -/
theorem Agree.window_open (agree : Agree limits ttl tenantId first windowStart b) (hfirst : first ≠ 0)
    {now : ℤ} (h : InWindow ttl first windowStart now) : ¬ WindowExpired now b.memory := by
  rw [WindowExpired, agree.started, agree.memory_ttl, not_or]
  exact ⟨hfirst, by have := h.memory; omega⟩

omit b c in
/-- The Redis window around a time in it. -/
theorem InWindow.bounds {now : ℤ} (h : InWindow ttl first windowStart now) (httl : 0 < ttl) :
    0 ≤ windowStart ∧ windowStart ≤ now ∧ now < windowStart + ttl := by
  rw [← h.redis]
  exact getWindowStart_spec h.nonneg httl

/-- The answer to a check on an endpoint after `n` others in the window. -/
def windowAnswer (limit n : ℕ) : RlResult × Option ℕ :=
  if n < limit then (.allowed, some (limit - (n + 1))) else (.exceeded, some 0)

/-- The memory backend after `n` checks on the endpoint: its counter stops at the limit. -/
theorem memoryStep_answer {st : MemoryRlState} (hopen : ¬ WindowExpired c.now st) {endpoint : RlEndpoint}
    (he : RlEndpoint.ofId c.endpoint = some endpoint) {limit n : ℕ}
    (hlimit : unsignedInt (st.limits endpoint) = limit) (hcounter : st.counters endpoint = min n limit) :
    (memoryStep st c).2 = windowAnswer limit n ∧
      (memoryStep st c).1.counters endpoint = min (n + 1) limit ∧
      ∀ e, e ≠ endpoint → (memoryStep st c).1.counters e = st.counters e := by
  rw [windowAnswer]
  -- Below the limit the counter is `n` and is raised; from the limit on it stays there.
  rcases lt_or_ge n limit with hlow | hhigh
  · have hstep := memoryStep_allowed st c he (by
      rw [memoryRlWindow_open hopen, hlimit, hcounter]
      omega)
    rw [memoryRlWindow_open hopen, hlimit, hcounter, Nat.min_eq_left hlow.le] at hstep
    rw [hstep, if_pos hlow]
    refine ⟨rfl, ?_, fun e hne => Function.update_of_ne hne _ _⟩
    show Function.update st.counters endpoint (n + 1) endpoint = min (n + 1) limit
    rw [Function.update_self]
    omega
  · have hstep := memoryStep_exceeded st c he (by
      rw [memoryRlWindow_open hopen, hlimit, hcounter]
      omega)
    rw [memoryRlWindow_open hopen] at hstep
    rw [hstep, if_neg (by omega)]
    refine ⟨rfl, ?_, fun _ _ => rfl⟩
    show st.counters endpoint = min (n + 1) limit
    rw [hcounter]
    omega

/-- The Redis backend after `n` checks on the endpoint. -/
theorem redisRlCount_answer (endpoint : RlEndpoint) (key : List UInt8) {st : RedisRlState}
    (hpos : 0 < st.limits endpoint) (hsmall : st.limits endpoint < 2 ^ 31) (n : ℕ) :
    ((redisRlCount endpoint key (n + 1 : ℕ) st).result, (redisRlCount endpoint key (n + 1 : ℕ) st).remaining) =
        windowAnswer (st.limits endpoint).toNat n := by
  obtain ⟨hdecision, _, _⟩ := redisRlCount_spec endpoint key (n + 1) st
  rw [windowAnswer]
  rcases lt_or_ge n (st.limits endpoint).toNat with hlow | hhigh
  · rw [decisionOf_allowed hsmall (by omega)] at hdecision
    obtain ⟨_, hresult, hremaining⟩ := Decision.mk.inj hdecision
    rw [if_pos hlow, hresult, hremaining]
    simp only [Prod.mk.injEq, Option.some.injEq, true_and]
    omega
  · rw [decisionOf_exceeded (by omega)] at hdecision
    obtain ⟨_, hresult, hremaining⟩ := Decision.mk.inj hdecision
    rw [if_neg (by omega), hresult, hremaining]

/-- What executing the commands of a decision does to the count of a key. -/
theorem Counts.exec_commands {d : ℕ} (endpoint : RlEndpoint) {key : List UInt8} (key' : List UInt8)
    {n : ℕ} (count : ℕ) {store : Store (List UInt8)} (h : Counts d key n store) {st : RedisRlState}
    {now : ℤ} (hlate : (d : ℤ) ≤ now + (st.ttlSeconds + 10)) :
    Counts d key (if key = key' then n + 1 else n)
      ((redisRlCount endpoint key' count st).commands.foldl (redisExec now) store) := by
  have hincr : Counts d key (if key = key' then n + 1 else n) (store.incr key') := by
    split
    · rename_i heq
      subst heq
      exact h.incr
    · rename_i hne
      exact h.incr_of_ne hne
  have hcommands : (redisRlCount endpoint key' count st).commands =
      .incr key' :: if (count : ℤ) = 1 then [.expire key' (st.ttlSeconds + 10)] else [] := by
    rw [redisRlCount]
    split <;> rfl
  by_cases hone : (count : ℤ) = 1
  · rw [hcommands, if_pos hone]
    exact hincr.expire key' (now + (st.ttlSeconds + 10)).toNat fun _ => by omega
  · rw [hcommands, if_neg hone]
    exact hincr

section Step

variable (agree : Agree limits ttl tenantId first windowStart b)
  (hlimits : ∀ endpoint, 0 < limits endpoint ∧ limits endpoint < 2 ^ 31) (hfirst : first ≠ 0)
  (hin : InWindow ttl first windowStart c.now) (httl : 0 < ttl) (htenant : tenantId.length ≤ 63)
include agree hfirst hin httl

/-- A number that is no endpoint: both answer an error and count nothing. -/
theorem Agree.step_none (he : RlEndpoint.ofId c.endpoint = none) :
    (backendsStep tenantId b c).2.1 = (backendsStep tenantId b c).2.2 ∧
      Agree limits ttl tenantId first windowStart (backendsStep tenantId b c).1 := by
  have hopen := agree.window_open hfirst hin
  have hmemory := memoryStep_none b.memory c he
  rw [memoryRlWindow_open hopen] at hmemory
  have hredis : redisStep tenantId b c = ⟨.error, none, b.redis, []⟩ := by
    simp only [redisStep, redisRlCheckId, he, agree.redis.ctx]
  obtain ⟨hstart, hle, hlt⟩ := hin.bounds httl
  rw [backendsStep, hmemory, hredis]
  refine ⟨rfl, agree.memory_limits, agree.memory_ttl, agree.started, agree.redis, ?_⟩
  intro endpoint key hkey
  obtain ⟨n, hcounts, hcounter⟩ := agree.counters endpoint key hkey
  exact ⟨n, hcounts.purge (by omega), hcounter⟩

include hlimits htenant

/-- A check on an endpoint: both give the same answer, and the relation is kept. -/
theorem Agree.step_some {endpoint : RlEndpoint} (he : RlEndpoint.ofId c.endpoint = some endpoint) :
    (backendsStep tenantId b c).2.1 = (backendsStep tenantId b c).2.2 ∧
      Agree limits ttl tenantId first windowStart (backendsStep tenantId b c).1 := by
  obtain ⟨hstart, hle, hlt⟩ := hin.bounds httl
  have hfits := hin.fits
  obtain ⟨hpos, hsmall⟩ := hlimits endpoint
  have hopen := agree.window_open hfirst hin
  obtain ⟨key, hkey⟩ := @buildRedisKey_isSome endpoint (some tenantId) htenant _ hstart (by omega)
  obtain ⟨n, hcounts, hcounter⟩ := agree.counters endpoint key hkey
  have hnow : c.now.toNat < (windowStart + ttl).toNat := by omega
  -- Redis answers the next count.
  have hredis : redisStep tenantId b c = redisRlCount endpoint key (n + 1 : ℕ)
      { b.redis with redisQueries := b.redis.redisQueries + 1 } := by
    simp only [redisStep, redisRlCheckId, he]
    refine redisRlCheck_of_count ?_ agree.redis.ctx ?_
    · rw [(hcounts.purge hnow).value_eq]
      rfl
    · rw [agree.redis.ttl_eq, hin.redis, hkey]
  have hanswer := @redisRlCount_answer endpoint key
    { b.redis with redisQueries := b.redis.redisQueries + 1 }
    (by rw [agree.redis.limits_eq]; exact hpos) (by rw [agree.redis.limits_eq]; exact hsmall) n
  obtain ⟨_, hstate, _⟩ := redisRlCount_spec endpoint key (n + 1)
    { b.redis with redisQueries := b.redis.redisQueries + 1 }
  have hlimit : unsignedInt (b.memory.limits endpoint) = (limits endpoint).toNat := by
    rw [agree.memory_limits, unsignedInt_of_int hpos.le hsmall]
  obtain ⟨hmemory, hself, hothers⟩ := memoryStep_answer hopen he hlimit hcounter
  obtain ⟨hlim, httlm, hwindow⟩ := memoryStep_frame b.memory c
  rw [memoryRlWindow_open hopen] at hwindow
  rw [backendsStep, hredis]
  refine ⟨?_, by rw [hlim, agree.memory_limits], by rw [httlm, agree.memory_ttl],
    by rw [hwindow, agree.started], ?_, ?_⟩
  · rw [hmemory, hanswer]
    show _ = windowAnswer (b.redis.limits endpoint).toNat n
    rw [agree.redis.limits_eq]
  · rw [hstate]
    exact ⟨agree.redis.ctx, agree.redis.limits_eq, agree.redis.ttl_eq⟩
  · intro e key' hkey'
    obtain ⟨m, hm, hmcounter⟩ := agree.counters e key' hkey'
    refine ⟨_, Counts.exec_commands endpoint key (n + 1) (hm.purge hnow) ?_, ?_⟩
    · show ((windowStart + ttl).toNat : ℤ) ≤ c.now + (b.redis.ttlSeconds + 10)
      rw [agree.redis.ttl_eq]
      omega
    · by_cases heq : e = endpoint
      · subst heq
        rw [hkey, Option.some.injEq] at hkey'
        subst hkey'
        rw [if_pos rfl, ← hm.value_eq, hcounts.value_eq]
        exact hself
      · -- The counters of the other endpoints have other keys.
        have hne : key' ≠ key := by
          rintro rfl
          exact heq (buildRedisKey_inj hkey' hkey).1
        rw [if_neg hne, hothers e heq, hmcounter]

/-- Every check within the window is answered alike and keeps the relation. -/
theorem Agree.step :
    (backendsStep tenantId b c).2.1 = (backendsStep tenantId b c).2.2 ∧
      Agree limits ttl tenantId first windowStart (backendsStep tenantId b c).1 := by
  cases he : RlEndpoint.ofId c.endpoint with
  | none => exact agree.step_none hfirst hin httl he
  | some endpoint => exact agree.step_some hlimits hfirst hin httl htenant he

end Step

/-- The first check opens the memory window; from then on the relation holds. -/
theorem BackendsStart.agree (start : BackendsStart limits ttl tenantId first windowStart b) :
    Agree limits ttl tenantId first windowStart { b with memory := memoryRlWindow first b.memory } := by
  have hwindow := memoryRlWindow_expired start.fresh
  refine ⟨by rw [hwindow]; exact start.memory_limits, by rw [hwindow]; exact start.memory_ttl,
    by rw [hwindow], start.redis, fun endpoint key hkey => ⟨0, ?_, ?_⟩⟩
  · exact .of_absent (start.absent endpoint key hkey)
  · rw [hwindow, Nat.zero_min]

end Simulation

/-- Fresh backends with a limit of one. -/
def freshBackends : Backends where
  memory := memoryRlFresh (fun _ => 1) 60
  redis := ⟨true, 60, fun _ => 1, true, none, 0, 0, 0⟩
  store := fun _ => none

/-- Two checks on an endpoint with one on no endpoint between them, within a minute. -/
def agreeingChecks : List MemoryCheck := [⟨120, 1⟩, ⟨121, 7⟩, ⟨179, 1⟩]

end CGateway
