import Mathlib.Algebra.Order.Ring.Int
import CGateway.Lib.Compact
import CGateway.Lib.Machine

/-! # The NATS connection pool

`nats_pool.c`: an array of slots, of which the first `num_connections` are pooled. A handle is the
address of a slot, here its index. What NATS answers (new connections, health checks) and the clock are
passed in. A write behind the array is a fault: the operations then have no result.

`nats_pool_acquire` gives up the mutex while it waits, so it is modelled turn by turn: a call makes a
first turn of its wait loop, and a call that waits makes another one when it is woken, with the time it
read at its beginning. The counters of type `size_t` are kept in `ℤ`; C holds them modulo `2 ^ 64`.
`nats_pool_destroy` ends every run and is left out, and with it the flag `shutdown`.

* `natsPoolInit`, `natsPoolAcquireTurn`, `natsPoolRelease`, `natsPoolHealthCheck` — the operations;
* `PoolSystem`, `poolStep` — the pool with the clients that hold its handles or wait for one. -/

namespace CGateway

open Machine Compact

/-! ### The pool -/

/-- `nats_pool_config_t`, the fields that are read. -/
structure NatsPoolConfig where
  minConnections : ℕ
  maxConnections : ℕ
  connectionTimeoutMs : ℤ
  idleTimeoutSec : ℤ
  natsUrl : Option (List UInt8)
  deriving DecidableEq, Repr

/-- `nats_connection_t`: a slot, with the identity of its NATS connection. -/
structure NatsConnection where
  natsHandle : Option ℕ
  createdAt : ℤ
  lastUsed : ℤ
  inUse : Bool
  healthy : Bool
  reconnectAttempts : ℕ
  deriving DecidableEq, Repr

/-- `nats_pool_stats_t`. -/
structure NatsPoolStats where
  activeConnections : ℤ := 0
  idleConnections : ℤ := 0
  totalCreated : ℤ := 0
  totalDestroyed : ℤ := 0
  totalAcquired : ℤ := 0
  totalReleased : ℤ := 0
  acquireTimeouts : ℤ := 0
  healthCheckFailures : ℤ := 0
  deriving DecidableEq, Repr

/-- `nats_pool_t`. -/
structure NatsPool where
  config : NatsPoolConfig
  connections : List NatsConnection
  numConnections : ℕ
  maxConnections : ℕ
  stats : NatsPoolStats
  deriving DecidableEq, Repr

/-- The slots in use or ready for use. -/
def NatsPool.pooled (pool : NatsPool) : List NatsConnection :=
  pool.connections.take pool.numConnections

/-- A slot as `calloc` leaves it. -/
def NatsConnection.blank : NatsConnection := ⟨none, 0, 0, false, false, 0⟩

/-- A slot with a new connection. -/
def NatsConnection.fresh (handle : ℕ) (now : ℤ) (inUse : Bool) : NatsConnection :=
  ⟨some handle, now, now, inUse, true, 0⟩

/-- `acquire` may hand the slot out. -/
def NatsConnection.available (c : NatsConnection) : Bool := !c.inUse && c.healthy

/-! ### Initialisation -/

/-- The configuration as `nats_pool_init` corrects it. -/
def NatsPoolConfig.validated (config : NatsPoolConfig) : NatsPoolConfig :=
  let min := if config.minConnections < 1 then 1 else config.minConnections
  { config with
    minConnections := min
    maxConnections := if config.maxConnections < min then min else config.maxConnections
    connectionTimeoutMs := if config.connectionTimeoutMs ≤ 0 then 5000 else config.connectionTimeoutMs
    idleTimeoutSec := if config.idleTimeoutSec ≤ 0 then 60 else config.idleTimeoutSec }

/-- How `nats_pool_init` ends: with `NULL`, with a write behind the array, or with a pool. -/
inductive NatsPoolStart where
  | null
  | fault
  | pool (pool : NatsPool)
  deriving DecidableEq, Repr

/-- One turn of the loop that makes the first connections; `create i` is what attempt `i` returns. -/
def initConnection (now : ℤ) (create : ℕ → Option ℕ) (pool : NatsPool) (i : ℕ) : Option NatsPool :=
  match create i with
  | none => some pool
  | some handle =>
      if i < pool.connections.length then
        some { pool with
          connections := pool.connections.set i (.fresh handle now false)
          numConnections := pool.numConnections + 1
          stats := { pool.stats with
            totalCreated := pool.stats.totalCreated + 1
            idleConnections := pool.stats.idleConnections + 1 } }
      else none

/-- The pool before the first connection: the array has as many slots as the configuration says, not
the corrected one. -/
def NatsPool.allocated (config : NatsPoolConfig) : NatsPool where
  config := config.validated
  connections := List.replicate config.maxConnections .blank
  numConnections := 0
  maxConnections := config.maxConnections
  stats := {}

/-- `nats_pool_init`; `memory` says whether both `calloc` return memory. -/
def natsPoolInit (memory : Bool) (now : ℤ) (create : ℕ → Option ℕ) (config : NatsPoolConfig) :
    NatsPoolStart :=
  if config.natsUrl.isNone || !memory then .null
  else
    match (List.range config.validated.minConnections).foldlM (initConnection now create)
        (NatsPool.allocated config) with
    | none => .fault
    | some pool => .pool pool

/-! ### Operations -/

/-- Hand out the free slot `i`. -/
def NatsPool.occupy (pool : NatsPool) (i : ℕ) (now : ℤ) : NatsPool :=
  { pool with
    connections := pool.connections.modify i fun c => { c with inUse := true, lastUsed := now }
    stats := { pool.stats with
      activeConnections := pool.stats.activeConnections + 1
      idleConnections := pool.stats.idleConnections - 1 } }

/-- Hand out a new connection in the slot behind the pooled ones. -/
def NatsPool.grow (pool : NatsPool) (handle : ℕ) (now : ℤ) : NatsPool :=
  { pool with
    connections := pool.connections.set pool.numConnections (.fresh handle now true)
    numConnections := pool.numConnections + 1
    stats := { pool.stats with
      totalCreated := pool.stats.totalCreated + 1
      activeConnections := pool.stats.activeConnections + 1 } }

/-- One turn of the wait loop of `nats_pool_acquire`: the slot that is handed out, if any; `created` is
what a connection attempt returns. -/
def natsPoolAcquireTurn (now : ℤ) (created : Option ℕ) (pool : NatsPool) :
    Option (NatsPool × Option ℕ) :=
  match pool.pooled.findIdx? NatsConnection.available with
  | some i => some (pool.occupy i now, some i)
  | none =>
      if pool.numConnections < pool.maxConnections then
        match created with
        | none => some (pool, none)
        | some handle =>
            if pool.numConnections < pool.connections.length then
              some (pool.grow handle now, some pool.numConnections)
            else none
      else some (pool, none)

/-- `nats_pool_release`; `NULL` is ignored. -/
def natsPoolRelease (now : ℤ) (conn : Option ℕ) (pool : NatsPool) : Option NatsPool :=
  match conn with
  | none => some pool
  | some i =>
      if i < pool.connections.length then
        some { pool with
          connections := pool.connections.modify i fun c => { c with inUse := false, lastUsed := now }
          stats := { pool.stats with
            activeConnections := pool.stats.activeConnections - 1
            idleConnections := pool.stats.idleConnections + 1
            totalReleased := pool.stats.totalReleased + 1 } }
      else none

/-- The slot has been unused for longer than the idle timeout. -/
def NatsConnection.expired (now timeout : ℤ) (c : NatsConnection) : Bool := timeout < now - c.lastUsed

/-- The health check of the slot's connection fails. -/
def NatsConnection.unhealthy (passes : ℕ → Bool) (c : NatsConnection) : Bool :=
  c.natsHandle.any fun handle => !passes handle

/-- `nats_pool_health_check` destroys the connection of the slot. -/
def NatsConnection.reaped (now timeout : ℤ) (passes : ℕ → Bool) (c : NatsConnection) : Bool :=
  !c.inUse && (c.expired now timeout || c.unhealthy passes)

/-- A slot after the check. -/
def NatsConnection.checked (now timeout : ℤ) (passes : ℕ → Bool) (c : NatsConnection) :
    NatsConnection :=
  if c.reaped now timeout passes then { c with natsHandle := none, healthy := false } else c

/-- `nats_pool_health_check`: the pool and the number of connections removed; `passes` is the outcome
of `health_check_connection` by connection. -/
def natsPoolHealthCheck (now : ℤ) (passes : ℕ → Bool) (pool : NatsPool) : NatsPool × ℕ :=
  let timeout := pool.config.idleTimeoutSec
  let removed := pool.pooled.countP (·.reaped now timeout passes)
  let failures := pool.pooled.countP fun c =>
    !c.inUse && !c.expired now timeout && c.unhealthy passes
  let connections := pool.pooled.map (·.checked now timeout passes) ++
    pool.connections.drop pool.numConnections
  let pool := { pool with
    connections := connections
    stats := { pool.stats with
      idleConnections := pool.stats.idleConnections - removed
      totalDestroyed := pool.stats.totalDestroyed + removed
      healthCheckFailures := pool.stats.healthCheckFailures + failures } }
  if 0 < removed then
    let (connections, num) := compact (·.natsHandle.isSome) pool.numConnections pool.connections
    ({ pool with connections := connections, numConnections := num }, removed)
  else (pool, removed)

/-! ### The pool and its clients -/

/-- A handle that a client holds, with the connection it acquired. -/
structure Holding (ι : Type) where
  client : ι
  slot : ℕ
  connection : Option ℕ
  deriving DecidableEq, Repr

/-- A call of `nats_pool_acquire` that waits. -/
structure WaitingAcquire (ι : Type) where
  client : ι
  now : ℤ
  timeoutMs : ℤ
  deriving DecidableEq, Repr

/-- The pool, the handles that clients hold, and the calls that wait. -/
structure PoolSystem (ι : Type) where
  pool : NatsPool
  held : List (Holding ι)
  waiting : List (WaitingAcquire ι)
  deriving DecidableEq, Repr

/-- What happens next: a call, or the end of a wait. -/
inductive PoolCall (ι : Type) where
  | acquire (client : ι) (timeoutMs now : ℤ) (created : Option ℕ)
  /-- A waiting call makes another turn. -/
  | wake (client : ι) (created : Option ℕ)
  /-- A waiting call runs into its timeout. -/
  | timeOut (client : ι)
  | release (client : ι) (slot : ℕ) (now : ℤ)
  | healthCheck (now : ℤ) (passes : ℕ → Bool)

/-- What a client gets back. -/
inductive PoolAnswer where
  | handle (slot : ℕ)
  | null
  | waits
  | done
  | removed (n : ℕ)
  /-- A slot behind the array was written. -/
  | fault
  deriving DecidableEq, Repr

/-- The client has been handed the slot. -/
def PoolSystem.give {ι : Type} (s : PoolSystem ι) (pool : NatsPool) (client : ι) (slot : ℕ) :
    PoolSystem ι :=
  { s with
    pool := pool
    held := ⟨client, slot, (pool.connections[slot]?).bind (·.natsHandle)⟩ :: s.held }

/-- Count a call that got nothing. -/
def NatsPool.countTimeout (pool : NatsPool) : NatsPool :=
  { pool with stats := { pool.stats with acquireTimeouts := pool.stats.acquireTimeouts + 1 } }

/-- Count a call of `nats_pool_acquire`. -/
def NatsPool.countAcquired (pool : NatsPool) : NatsPool :=
  { pool with stats := { pool.stats with totalAcquired := pool.stats.totalAcquired + 1 } }

/-- One step of the pool and its clients. A client releases only what it holds, and a wait ends only
where there is one: other inputs do nothing. -/
def poolStep {ι : Type} [DecidableEq ι] (s : PoolSystem ι) : PoolCall ι → PoolSystem ι × PoolAnswer
  | .acquire client timeoutMs now created =>
      match natsPoolAcquireTurn now created s.pool.countAcquired with
      | none => (s, .fault)
      | some (pool, some slot) => (s.give pool client slot, .handle slot)
      | some (pool, none) =>
          if timeoutMs = 0 then ({ s with pool := pool.countTimeout }, .null)
          else ({ s with pool := pool, waiting := ⟨client, now, timeoutMs⟩ :: s.waiting }, .waits)
  | .wake client created =>
      match s.waiting.find? (·.client = client) with
      | none => (s, .done)
      | some w =>
          match natsPoolAcquireTurn w.now created s.pool with
          | none => (s, .fault)
          | some (pool, some slot) =>
              ({ s with waiting := s.waiting.erase w }.give pool client slot, .handle slot)
          | some (pool, none) => ({ s with pool := pool }, .waits)
  | .timeOut client =>
      match s.waiting.find? fun w => w.client = client ∧ 0 < w.timeoutMs with
      | none => (s, .done)
      | some w => ({ s with pool := s.pool.countTimeout, waiting := s.waiting.erase w }, .null)
  | .release client slot now =>
      match s.held.find? fun h => h.client = client ∧ h.slot = slot with
      | none => (s, .done)
      | some h =>
          match natsPoolRelease now (some slot) s.pool with
          | none => (s, .fault)
          | some pool => ({ s with pool := pool, held := s.held.erase h }, .done)
  | .healthCheck now passes =>
      let (pool, removed) := natsPoolHealthCheck now passes s.pool
      ({ s with pool := pool }, .removed removed)

/-! ### What an operation can do -/

section Operations

variable {pool : NatsPool}

variable {i : ℕ} {c : NatsConnection} {now : ℤ}

/-- A pooled slot is a slot of the array. -/
theorem NatsPool.getElem?_of_pooled (h : pool.pooled[i]? = some c) :
    i < pool.numConnections ∧ pool.connections[i]? = some c := by
  rw [NatsPool.pooled, List.getElem?_take] at h
  split at h
  · exact ⟨by assumption, h⟩
  · cases h

/-- All pooled slots lie in the array. -/
theorem NatsPool.length_pooled (h : pool.numConnections ≤ pool.connections.length) :
    pool.pooled.length = pool.numConnections := by
  rw [NatsPool.pooled, List.length_take]
  exact Nat.min_eq_left h

/-- What taking back a handle does to the pool. -/
structure GivenBack (now : ℤ) (i : ℕ) (pool pool' : NatsPool) : Prop where
  pooled : pool'.pooled = pool.pooled.modify i fun c => { c with inUse := false, lastUsed := now }
  length : pool'.connections.length = pool.connections.length
  num : pool'.numConnections = pool.numConnections
  max : pool'.maxConnections = pool.maxConnections
  active : pool'.stats.activeConnections = pool.stats.activeConnections - 1
  idle : pool'.stats.idleConnections = pool.stats.idleConnections + 1

/-- A release that does not fault. -/
theorem natsPoolRelease_some {pool' : NatsPool} (h : natsPoolRelease now (some i) pool = some pool') :
    GivenBack now i pool pool' := by
  rw [natsPoolRelease] at h
  split at h
  · obtain rfl := Option.some.inj h
    exact ⟨List.take_modify .., List.length_modify .., rfl, rfl, rfl, rfl⟩
  · cases h

/-- A release faults only behind the array. -/
theorem natsPoolRelease_fault (h : natsPoolRelease now (some i) pool = none) : pool.connections.length ≤ i := by
  rw [natsPoolRelease] at h
  split at h
  · cases h
  · exact not_lt.mp (by assumption)

/-- The outcomes of one turn of the wait loop. -/
inductive AcquireTurn (now : ℤ) (created : Option ℕ) (pool : NatsPool) :
    Option (NatsPool × Option ℕ) → Prop
  | reuse {i : ℕ} {c : NatsConnection} (hslot : pool.pooled[i]? = some c) (hfree : c.available = true) :
      AcquireTurn now created pool (some (pool.occupy i now, some i))
  | grow {handle : ℕ} (hcreated : created = some handle)
      (hroom : pool.numConnections < pool.maxConnections)
      (hslot : pool.numConnections < pool.connections.length) :
      AcquireTurn now created pool (some (pool.grow handle now, some pool.numConnections))
  | nothing : AcquireTurn now created pool (some (pool, none))
  | fault (hroom : pool.numConnections < pool.maxConnections)
      (hslot : pool.connections.length ≤ pool.numConnections) : AcquireTurn now created pool none

/-- One turn of the wait loop has one of these outcomes. -/
theorem natsPoolAcquireTurn_spec (now : ℤ) (created : Option ℕ) (pool : NatsPool) :
    AcquireTurn now created pool (natsPoolAcquireTurn now created pool) := by
  unfold natsPoolAcquireTurn
  cases hfind : pool.pooled.findIdx? NatsConnection.available with
  | some i =>
    obtain ⟨hi, hfree, _⟩ := List.findIdx?_eq_some_iff_getElem.mp hfind
    exact .reuse (List.getElem?_eq_getElem hi) hfree
  | none =>
    dsimp only
    split
    · rename_i hroom
      cases created with
      | none => exact .nothing
      | some handle =>
        dsimp only
        split
        · rename_i hslot
          exact .grow rfl hroom hslot
        · rename_i hslot
          exact .fault hroom (not_lt.mp hslot)
    · exact .nothing

/-- A turn faults only where the pool grows behind the array. -/
theorem natsPoolAcquireTurn_fault {created : Option ℕ} (h : natsPoolAcquireTurn now created pool = none) :
    pool.numConnections < pool.maxConnections ∧ pool.connections.length ≤ pool.numConnections := by
  have hspec := natsPoolAcquireTurn_spec now created pool
  rw [h] at hspec
  cases hspec with
  | fault hroom hslot => exact ⟨hroom, hslot⟩

/-- A turn without a connection leaves the pool as it is. -/
theorem natsPoolAcquireTurn_nothing {created : Option ℕ} {pool' : NatsPool}
    (h : natsPoolAcquireTurn now created pool = some (pool', none)) : pool' = pool := by
  have hspec := natsPoolAcquireTurn_spec now created pool
  rw [h] at hspec
  cases hspec with
  | nothing => rfl

/-- The pooled slots after the slot behind them is written. -/
theorem take_set_succ {l : List NatsConnection} {n : ℕ} (h : n < l.length) (c : NatsConnection) :
    (l.set n c).take (n + 1) = l.take n ++ [c] := by
  rw [List.take_add_one, List.getElem?_set_self h, List.take_set_of_le le_rfl]
  rfl

/-- The pooled slots of a pool that grows. -/
theorem NatsPool.pooled_grow (h : pool.numConnections < pool.connections.length) (handle : ℕ)
    (now : ℤ) : (pool.grow handle now).pooled = pool.pooled ++ [.fresh handle now true] :=
  take_set_succ h _

/-- The pooled slots of a pool that hands one of them out. -/
theorem NatsPool.pooled_occupy (pool : NatsPool) (i : ℕ) (now : ℤ) :
    (pool.occupy i now).pooled = pool.pooled.modify i fun c => { c with inUse := true, lastUsed := now } :=
  List.take_modify ..

/-- The connection that a client gets with a slot that was free. -/
theorem NatsPool.handle_occupy (h : pool.pooled[i]? = some c) (now : ℤ) :
    ((pool.occupy i now).connections[i]?).bind (·.natsHandle) = c.natsHandle := by
  simp [NatsPool.occupy, List.getElem?_modify_eq, (NatsPool.getElem?_of_pooled h).2]

/-- The connection that a client gets with a new slot. -/
theorem NatsPool.handle_grow (h : pool.numConnections < pool.connections.length) (handle : ℕ) (now : ℤ) :
    ((pool.grow handle now).connections[pool.numConnections]?).bind (·.natsHandle) = some handle := by
  simp [NatsPool.grow, NatsConnection.fresh, h]

/-- What is reaped is not in use. -/
theorem NatsConnection.inUse_of_reaped {timeout : ℤ} {passes : ℕ → Bool}
    (h : c.reaped now timeout passes = true) : c.inUse = false := by
  rw [NatsConnection.reaped, Bool.and_eq_true, Bool.not_eq_true'] at h
  exact h.1

/-- The slots that are not in use are those among the ones that stay, and the reaped ones. -/
theorem countP_free_kept (now timeout : ℤ) (passes : ℕ → Bool) (l : List NatsConnection) :
    l.countP (fun c => !c.inUse) =
      (l.filter fun c => !c.reaped now timeout passes).countP (fun c => !c.inUse) +
        l.countP (·.reaped now timeout passes) := by
  rw [List.countP_eq_countP_filter_add l (fun c => !c.inUse) fun c => !c.reaped now timeout passes]
  congr 1
  simp only [Bool.not_not]
  rw [List.countP_filter]
  refine List.countP_congr fun c _ => ?_
  rw [Bool.and_eq_true, Bool.not_eq_true']
  exact ⟨fun h => h.2, fun h => ⟨NatsConnection.inUse_of_reaped h, h⟩⟩

/-- Where every slot has a connection, the slots that keep one are those that are not reaped. -/
theorem filter_checked (now timeout : ℤ) (passes : ℕ → Bool) {l : List NatsConnection}
    (hall : ∀ c ∈ l, c.natsHandle.isSome = true) :
    (l.map (·.checked now timeout passes)).filter (·.natsHandle.isSome) =
      l.filter fun c => !c.reaped now timeout passes := by
  induction l with
  | nil => rfl
  | cons c l ih =>
    have ih := ih fun c hc => hall c (List.mem_cons_of_mem _ hc)
    have hc := hall c List.mem_cons_self
    rw [List.map_cons]
    cases hreaped : c.reaped now timeout passes with
    | false =>
      have hsame : c.checked now timeout passes = c := by
        rw [NatsConnection.checked, hreaped, if_neg Bool.false_ne_true]
      simp [hsame, hc, hreaped, ih]
    | true =>
      have hgone : (c.checked now timeout passes).natsHandle.isSome = false := by
        rw [NatsConnection.checked, hreaped, if_pos rfl]
        rfl
      simp [hgone, hreaped, ih]

/-- The pooled slots with their checks done, before the array is compacted. -/
theorem take_checked (hsize : pool.numConnections ≤ pool.connections.length) (now timeout : ℤ)
    (passes : ℕ → Bool) :
    (pool.pooled.map (·.checked now timeout passes) ++
        pool.connections.drop pool.numConnections).take pool.numConnections =
      pool.pooled.map (·.checked now timeout passes) := by
  rw [List.take_append_of_le_length, List.take_of_length_le]
  · simp [NatsPool.pooled]
  · simp [NatsPool.pooled, hsize]

/-- What a health check leaves of the array. -/
theorem natsPoolHealthCheck_frame (hsize : pool.numConnections ≤ pool.connections.length) (now : ℤ)
    (passes : ℕ → Bool) :
    (natsPoolHealthCheck now passes pool).1.connections.length = pool.connections.length ∧
      (natsPoolHealthCheck now passes pool).1.numConnections ≤ pool.numConnections ∧
      (natsPoolHealthCheck now passes pool).1.maxConnections = pool.maxConnections ∧
      (natsPoolHealthCheck now passes pool).1.config = pool.config := by
  have hlength : (pool.pooled.map (·.checked now pool.config.idleTimeoutSec passes) ++
      pool.connections.drop pool.numConnections).length = pool.connections.length := by
    simp only [NatsPool.pooled, List.length_append, List.length_map, List.length_take, List.length_drop]
    omega
  unfold natsPoolHealthCheck
  dsimp only
  split
  · rw [compact_eq (by rw [hlength]; exact hsize), take_checked hsize]
    have hkept := List.length_filter_le (fun c : NatsConnection => c.natsHandle.isSome)
      (pool.pooled.map (·.checked now pool.config.idleTimeoutSec passes))
    rw [List.length_map, NatsPool.length_pooled hsize] at hkept
    refine ⟨?_, hkept, rfl, rfl⟩
    dsimp only
    rw [List.length_append, List.length_drop, hlength]
    omega
  · exact ⟨hlength, le_rfl, rfl, rfl⟩

/-- **Health check.** Where every pooled slot has a connection, the slots that are not reaped remain, in
order. -/
theorem natsPoolHealthCheck_pooled (hsize : pool.numConnections ≤ pool.connections.length)
    (hall : ∀ c ∈ pool.pooled, c.natsHandle.isSome = true) (now : ℤ) (passes : ℕ → Bool) :
    (natsPoolHealthCheck now passes pool).1.pooled =
        pool.pooled.filter (fun c => !c.reaped now pool.config.idleTimeoutSec passes) ∧
      (natsPoolHealthCheck now passes pool).1.numConnections =
        (pool.pooled.filter fun c => !c.reaped now pool.config.idleTimeoutSec passes).length ∧
      (natsPoolHealthCheck now passes pool).1.stats.activeConnections = pool.stats.activeConnections ∧
      (natsPoolHealthCheck now passes pool).1.stats.idleConnections = pool.stats.idleConnections -
        pool.pooled.countP (·.reaped now pool.config.idleTimeoutSec passes) := by
  have hkept := filter_checked now pool.config.idleTimeoutSec passes hall
  have htake := take_checked hsize now pool.config.idleTimeoutSec passes
  have hpooled := NatsPool.length_pooled hsize
  unfold natsPoolHealthCheck
  dsimp only
  split
  · rw [compact_eq ?_, htake, hkept]
    · refine ⟨?_, rfl, rfl, rfl⟩
      rw [NatsPool.pooled]
      dsimp only
      rw [List.take_left]
    · simp only [List.length_append, List.length_map, hpooled]
      omega
  · -- Nothing is reaped, and the array stays as it is.
    rename_i hnone
    have hzero : pool.pooled.countP (·.reaped now pool.config.idleTimeoutSec passes) = 0 := by omega
    have hkeep : ∀ c ∈ pool.pooled, c.reaped now pool.config.idleTimeoutSec passes = false := by
      intro c hc
      simpa using List.countP_eq_zero.mp hzero c hc
    have hself : pool.pooled.filter (fun c => !c.reaped now pool.config.idleTimeoutSec passes) = pool.pooled := by
      rw [List.filter_eq_self]
      intro c hc
      rw [hkeep c hc]
      rfl
    have hmap : pool.pooled.map (·.checked now pool.config.idleTimeoutSec passes) = pool.pooled := by
      refine (List.map_congr_left fun c hc => ?_).trans (List.map_id _)
      rw [NatsConnection.checked, hkeep c hc, if_neg Bool.false_ne_true]
      rfl
    rw [hself, hpooled]
    refine ⟨?_, rfl, rfl, rfl⟩
    rw [hmap] at htake ⊢
    exact htake

end Operations

section Init

variable {now : ℤ} {create : ℕ → Option ℕ} {config : NatsPoolConfig}

/-- The number of first connections. -/
theorem validated_minConnections (config : NatsPoolConfig) :
    config.validated.minConnections = max 1 config.minConnections := by
  rw [NatsPoolConfig.validated]
  dsimp only
  split <;> omega

/-- One more turn of the loop. -/
theorem foldlM_initConnection_succ (n : ℕ) (pool : NatsPool) :
    (List.range (n + 1)).foldlM (initConnection now create) pool =
      ((List.range n).foldlM (initConnection now create) pool).bind fun p =>
        initConnection now create p n := by
  rw [List.range_succ, List.foldlM_append]
  cases (List.range n).foldlM (initConnection now create) pool with
  | none => rfl
  | some p =>
    show ([n].foldlM (initConnection now create) p) = initConnection now create p n
    rw [List.foldlM_cons]
    cases initConnection now create p n <;> rfl

/-- A pool that has just been made: every pooled slot has a connection that nobody has used. -/
structure Started (config : NatsPoolConfig) (now : ℤ) (pool : NatsPool) : Prop where
  config_eq : pool.config = config.validated
  length_eq : pool.connections.length = config.maxConnections
  max_eq : pool.maxConnections = config.maxConnections
  num_le : pool.numConnections ≤ config.maxConnections
  ready : ∀ c ∈ pool.pooled, c.natsHandle.isSome = true ∧ c.inUse = false ∧ c.healthy = true ∧
    c.lastUsed = now
  active : pool.stats.activeConnections = 0
  idle : pool.stats.idleConnections = pool.numConnections

/-- None of the first `n` attempts succeeds after one that failed. -/
def NoGap (n : ℕ) (create : ℕ → Option ℕ) : Prop :=
  ∀ i j, i < j → j < n → (create j).isSome = true → (create i).isSome = true

variable {pool : NatsPool}

/-- **One attempt** that succeeds at the next slot of a pool that has just been made. -/
theorem Started.initConnection {before : NatsPool} (h : Started config now before) {handle : ℕ}
    (hcreate : create before.numConnections = some handle)
    (hturn : initConnection now create before before.numConnections = some pool) :
    Started config now pool ∧ pool.numConnections = before.numConnections + 1 := by
  rw [CGateway.initConnection, hcreate] at hturn
  dsimp only at hturn
  split at hturn
  · rename_i hslot
    obtain rfl := Option.some.inj hturn
    refine ⟨⟨h.config_eq, ?_, h.max_eq, ?_, fun c hc => ?_, h.active, ?_⟩, rfl⟩
    · dsimp only
      rw [List.length_set, h.length_eq]
    · have hlength := h.length_eq
      dsimp only
      omega
    · rw [NatsPool.pooled] at hc
      dsimp only at hc
      rw [take_set_succ hslot, List.mem_append, List.mem_singleton] at hc
      rcases hc with hc | rfl
      · exact h.ready c hc
      · exact ⟨rfl, rfl, rfl, rfl⟩
    · dsimp only
      rw [h.idle]
      omega
  · cases hturn

/-- The loop without a gap fills the slots from the first on. -/
theorem foldlM_initConnection_started {n : ℕ} (hgap : NoGap n create)
    (h : (List.range n).foldlM (initConnection now create) (NatsPool.allocated config) = some pool) :
    Started config now pool ∧ (pool.numConnections = n ∨ ∃ i < n, create i = none) := by
  induction n generalizing pool with
  | zero =>
    obtain rfl := Option.some.inj h
    exact ⟨⟨rfl, List.length_replicate, rfl, Nat.zero_le _, fun _ hc => absurd hc List.not_mem_nil, rfl, rfl⟩, .inl rfl⟩
  | succ n ih =>
    rw [foldlM_initConnection_succ, Option.bind_eq_some_iff] at h
    obtain ⟨before, hbefore, hturn⟩ := h
    obtain ⟨hstarted, hfilled⟩ := ih (fun i j hij hj => hgap i j hij (by omega)) hbefore
    cases hcreate : create n with
    | none =>
      rw [initConnection, hcreate] at hturn
      obtain rfl := Option.some.inj hturn
      exact ⟨hstarted, .inr ⟨n, Nat.lt_succ_self n, hcreate⟩⟩
    | some handle =>
      -- All earlier attempts have succeeded too, so slot `n` is the next one.
      have hnum : before.numConnections = n := by
        rcases hfilled with hnum | ⟨i, hi, hnone⟩
        · exact hnum
        · have hsome := hgap i n hi (Nat.lt_succ_self n) (by rw [hcreate]; rfl)
          rw [hnone] at hsome
          cases hsome
      subst hnum
      obtain ⟨hnext, hcount⟩ := hstarted.initConnection hcreate hturn
      exact ⟨hnext, .inl hcount⟩

/-- What `nats_pool_init` returns without a gap in its attempts. -/
theorem natsPoolInit_started {memory : Bool} (hgap : NoGap (max 1 config.minConnections) create)
    (h : natsPoolInit memory now create config = .pool pool) :
    Started config now pool ∧ (pool.numConnections = max 1 config.minConnections ∨ ∃ i, create i = none) := by
  rw [natsPoolInit] at h
  split at h
  · cases h
  · split at h
    · cases h
    · rename_i hloop
      obtain rfl := NatsPoolStart.pool.inj h
      rw [validated_minConnections] at hloop
      obtain ⟨hstarted, hfilled⟩ := foldlM_initConnection_started hgap hloop
      exact ⟨hstarted, hfilled.imp_right fun ⟨i, _, hnone⟩ => ⟨i, hnone⟩⟩

end Init

section Steps

variable {ι : Type} [DecidableEq ι]

/-- **One step.** What every operation keeps, every step of the pool and its clients keeps. -/
theorem poolStep_keeps {P : NatsPool → List (Holding ι) → Prop} (s : PoolSystem ι) (call : PoolCall ι)
    (hcount : ∀ pool held, P pool held → P pool.countAcquired held ∧ P pool.countTimeout held)
    (hreuse : ∀ pool held client i c now, P pool held → pool.pooled[i]? = some c →
      c.available = true → P (pool.occupy i now) (⟨client, i, c.natsHandle⟩ :: held))
    (hgrow : ∀ pool held client handle now, P pool held → pool.numConnections < pool.maxConnections →
      pool.numConnections < pool.connections.length →
      P (pool.grow handle now) (⟨client, pool.numConnections, some handle⟩ :: held))
    (hrelease : ∀ pool pool' held h now, P pool held → h ∈ held →
      natsPoolRelease now (some h.slot) pool = some pool' → P pool' (held.erase h))
    (hcheck : ∀ now passes, call = .healthCheck now passes → P s.pool s.held →
      P (natsPoolHealthCheck now passes s.pool).1 s.held)
    (h : P s.pool s.held) : P (poolStep s call).1.pool (poolStep s call).1.held := by
  -- A turn of the wait loop that hands out a slot.
  have hturn : ∀ now created pool client pool' slot, P pool s.held →
      natsPoolAcquireTurn now created pool = some (pool', some slot) →
      P pool' (⟨client, slot, (pool'.connections[slot]?).bind (·.natsHandle)⟩ :: s.held) := by
    intro now created pool client pool' slot hpool heq
    have hspec := natsPoolAcquireTurn_spec now created pool
    rw [heq] at hspec
    cases hspec with
    | reuse hslot hfree =>
      rw [NatsPool.handle_occupy hslot]
      exact hreuse pool s.held client _ _ now hpool hslot hfree
    | grow hcreated hroom hslot =>
      rw [NatsPool.handle_grow hslot]
      exact hgrow pool s.held client _ now hpool hroom hslot
  cases call with
  | acquire client timeoutMs now created =>
    have hcounted := (hcount _ _ h).1
    rw [poolStep]
    split
    · exact h
    · rename_i pool slot heq
      exact hturn _ _ _ client _ _ hcounted heq
    · rename_i pool heq
      obtain rfl := natsPoolAcquireTurn_nothing heq
      split
      · exact (hcount _ _ hcounted).2
      · exact hcounted
  | wake client created =>
    rw [poolStep]
    split
    · exact h
    · rename_i w _
      split
      · exact h
      · rename_i pool slot heq
        exact hturn _ _ _ client _ _ h heq
      · rename_i pool heq
        obtain rfl := natsPoolAcquireTurn_nothing heq
        exact h
  | timeOut client =>
    rw [poolStep]
    split
    · exact h
    · exact (hcount _ _ h).2
  | release client slot now =>
    rw [poolStep]
    split
    · exact h
    · rename_i held hfind
      have hheld := List.mem_of_find?_eq_some hfind
      have hslot := List.find?_some hfind
      rw [decide_eq_true_eq] at hslot
      split
      · exact h
      · rename_i pool heq
        rw [← hslot.2] at heq
        exact hrelease _ _ _ _ _ h hheld heq
  | healthCheck now passes => exact hcheck now passes rfl h

/-- What a fault takes: a pool that grows behind the array, or a handle behind it. -/
theorem poolStep_fault {s : PoolSystem ι} {call : PoolCall ι} (h : (poolStep s call).2 = .fault) :
    (s.pool.numConnections < s.pool.maxConnections ∧ s.pool.connections.length ≤ s.pool.numConnections) ∨
      ∃ held ∈ s.held, s.pool.connections.length ≤ held.slot := by
  cases call with
  | acquire client timeoutMs now created =>
    rw [poolStep] at h
    split at h
    · rename_i heq
      obtain ⟨hroom, hslot⟩ := natsPoolAcquireTurn_fault heq
      exact .inl ⟨hroom, hslot⟩
    · cases h
    · split at h <;> cases h
  | wake client created =>
    rw [poolStep] at h
    split at h
    · cases h
    · split at h
      · rename_i heq
        exact .inl (natsPoolAcquireTurn_fault heq)
      · cases h
      · cases h
  | timeOut client =>
    rw [poolStep] at h
    split at h <;> cases h
  | release client slot now =>
    rw [poolStep] at h
    split at h
    · cases h
    · rename_i held hfind
      have hslot := List.find?_some hfind
      rw [decide_eq_true_eq] at hslot
      split at h
      · rename_i heq
        rw [← hslot.2] at heq
        exact .inr ⟨held, List.mem_of_find?_eq_some hfind, natsPoolRelease_fault heq⟩
      · cases h
  | healthCheck now passes => cases h

end Steps

end CGateway
