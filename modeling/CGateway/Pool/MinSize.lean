import CGateway.Lib.Slots
import CGateway.Pool.Bounds

/-! # The minimum size of the NATS pool

`nats_pool_health_check` reaps a free connection that has been idle for too long, whatever the number
of connections; the configured minimum is not looked at again after `nats_pool_init`.

* `idleExpired` — how many connections a health check reaps for idleness;
* `keepsMinimum_iff` — a run keeps the minimum exactly where no health check finds more of them than
  the pool has above the minimum; and no configuration with a minimum keeps it in all runs. -/

namespace CGateway

open Machine Slots

/-- The free connections that a health check at this time finds idle for too long. -/
def idleExpired (now : ℤ) (pool : NatsPool) : ℕ :=
  pool.pooled.countP fun c => !c.inUse && c.expired now pool.config.idleTimeoutSec

/-- Every pooled slot has a connection. -/
structure Stocked (pool : NatsPool) : Prop where
  num_le : pool.numConnections ≤ pool.connections.length
  handles : ∀ c ∈ pool.pooled, c.natsHandle.isSome = true

section Check

variable {pool : NatsPool}

/-- Where the connections are healthy, a health check reaps for idleness only. -/
theorem natsPoolHealthCheck_num (inv : Stocked pool) (now : ℤ) {passes : ℕ → Bool}
    (hpasses : ∀ handle, passes handle = true) :
    (natsPoolHealthCheck now passes pool).1.numConnections + idleExpired now pool = pool.numConnections := by
  have hreaped : ∀ c : NatsConnection, c.reaped now pool.config.idleTimeoutSec passes =
      (!c.inUse && c.expired now pool.config.idleTimeoutSec) := by
    intro c
    have hhealthy : c.unhealthy passes = false := by
      rw [NatsConnection.unhealthy]
      cases c.natsHandle with
      | none => rfl
      | some handle => simp [hpasses handle]
    rw [NatsConnection.reaped, hhealthy, Bool.or_false]
  obtain ⟨_, hnum, _⟩ := natsPoolHealthCheck_pooled inv.num_le inv.handles now passes
  have hpooled := NatsPool.length_pooled inv.num_le
  simp only [hreaped, ← List.countP_eq_length_filter] at hnum
  have hsplit := @List.length_eq_countP_add_countP _
    (fun c : NatsConnection => !c.inUse && c.expired now pool.config.idleTimeoutSec) pool.pooled
  simp only [decide_not, Bool.decide_eq_true] at hsplit
  rw [idleExpired]
  omega

end Check

section Runs

variable {ι : Type} [DecidableEq ι]

/-- Every step leaves the pooled slots with connections. -/
theorem Stocked.step {s : PoolSystem ι} (inv : Stocked s.pool) (call : PoolCall ι) :
    Stocked (poolStep s call).1.pool := by
  refine poolStep_keeps (P := fun pool _ => Stocked pool) s call (fun pool held inv => ?_)
    (fun pool held client i c now inv hslot _ => ?_)
    (fun pool held client handle now inv hroom hslot => ?_)
    (fun pool pool' held h now inv hheld hrelease => ?_) (fun now passes _ inv => ?_) inv
  · exact ⟨⟨inv.num_le, inv.handles⟩, ⟨inv.num_le, inv.handles⟩⟩
  · refine ⟨?_, ?_⟩
    · rw [NatsPool.occupy, List.length_modify]
      exact inv.num_le
    · rw [NatsPool.pooled_occupy]
      refine forall_mem_modify ?_ i inv.handles
      exact fun _ hhandle => hhandle
  · refine ⟨?_, fun c hc => ?_⟩
    · rw [NatsPool.grow, List.length_set]
      exact hslot
    · rw [NatsPool.pooled_grow hslot, List.mem_append, List.mem_singleton] at hc
      rcases hc with hc | rfl
      · exact inv.handles c hc
      · rfl
  · have hback := natsPoolRelease_some hrelease
    refine ⟨by rw [hback.num, hback.length]; exact inv.num_le, ?_⟩
    rw [hback.pooled]
    refine forall_mem_modify ?_ _ inv.handles
    exact fun _ hhandle => hhandle
  · obtain ⟨hlength, hnum, _, _⟩ := natsPoolHealthCheck_frame inv.num_le now passes
    obtain ⟨hpooled, _⟩ := natsPoolHealthCheck_pooled inv.num_le inv.handles now passes
    refine ⟨by rw [hlength]; exact hnum.trans inv.num_le, fun c hc => ?_⟩
    rw [hpooled] at hc
    exact inv.handles c (List.mem_of_mem_filter hc)

/-- Nothing but a health check makes the pool smaller. -/
theorem num_le_poolStep (s : PoolSystem ι) {call : PoolCall ι}
    (hcall : ∀ now passes, call ≠ .healthCheck now passes) :
    s.pool.numConnections ≤ (poolStep s call).1.pool.numConnections := by
  refine poolStep_keeps (P := fun pool _ => s.pool.numConnections ≤ pool.numConnections) s call
    (fun pool held h => ⟨h, h⟩) (fun pool held client i c now h _ _ => h)
    (fun pool held client handle now h _ _ => Nat.le_succ_of_le h)
    (fun pool pool' held h now hnum hheld hrelease => ?_)
    (fun now passes heq => absurd heq (hcall now passes)) le_rfl
  rw [(natsPoolRelease_some hrelease).num]
  exact hnum

/-- A step of the pool and its clients, as the history keeps it. -/
abbrev PoolRecord (ι : Type) := Record (PoolSystem ι) (PoolCall ι) PoolAnswer

/-- All health checks of the step pass. -/
def Passes (r : PoolRecord ι) : Prop :=
  ∀ now passes, r.input = .healthCheck now passes → ∀ handle, passes handle = true

/-- A health check finds at most as many idle connections as the pool has above the minimum. -/
def SparesMinimum (min : ℕ) (r : PoolRecord ι) : Prop :=
  ∀ now passes, r.input = .healthCheck now passes →
    idleExpired now r.before.pool + min ≤ r.before.pool.numConnections

/-- A step keeps the minimum where its health check, if it is one, spares it. -/
theorem minimum_step {s : PoolSystem ι} (inv : Stocked s.pool) {call : PoolCall ι} {min : ℕ}
    (hpasses : Passes (recordOf poolStep s call)) (hmin : min ≤ s.pool.numConnections) :
    min ≤ (poolStep s call).1.pool.numConnections ↔ SparesMinimum min (recordOf poolStep s call) := by
  by_cases hcheck : ∃ now passes, call = .healthCheck now passes
  · obtain ⟨now, passes, rfl⟩ := hcheck
    have hnum := natsPoolHealthCheck_num inv now (hpasses now passes rfl)
    refine ⟨fun hle now' passes' heq => ?_, fun hspares => ?_⟩
    · obtain ⟨rfl, rfl⟩ := PoolCall.healthCheck.inj heq
      show idleExpired now s.pool + min ≤ s.pool.numConnections
      have hle : min ≤ (natsPoolHealthCheck now passes s.pool).1.numConnections := hle
      omega
    · have hle : idleExpired now s.pool + min ≤ s.pool.numConnections := hspares now passes rfl
      show min ≤ (natsPoolHealthCheck now passes s.pool).1.numConnections
      omega
  · have hcall : ∀ now passes, call ≠ .healthCheck now passes := fun now passes heq => hcheck ⟨now, passes, heq⟩
    exact ⟨fun _ now passes heq => absurd heq (hcall now passes), fun _ => hmin.trans (num_le_poolStep s hcall)⟩

/-- **Runs that keep the minimum.** -/
theorem minimum_run {pool : NatsPool} (inv : Stocked pool) {min : ℕ} (hmin : min ≤ pool.numConnections)
    {past : List (PoolRecord ι)} {s : PoolSystem ι} (run : Run poolStep ⟨pool, [], []⟩ past s)
    (hpasses : ∀ r ∈ past, Passes r) :
    (∀ r ∈ past, min ≤ r.after.pool.numConnections) ↔ ∀ r ∈ past, SparesMinimum min r := by
  -- While the minimum is kept, the state is that after the last step.
  have key : Stocked s.pool ∧ ((∀ r ∈ past, min ≤ r.after.pool.numConnections) → min ≤ s.pool.numConnections) ∧
      ((∀ r ∈ past, min ≤ r.after.pool.numConnections) ↔ ∀ r ∈ past, SparesMinimum min r) := by
    induction run with
    | start =>
      exact ⟨inv, fun _ => hmin, fun _ _ h => absurd h List.not_mem_nil, fun _ _ h => absurd h List.not_mem_nil⟩
    | next run call ih =>
      rw [List.forall_mem_cons] at hpasses
      obtain ⟨hstocked, hlast, hiff⟩ := ih hpasses.2
      refine ⟨hstocked.step call, fun hall => hall _ List.mem_cons_self, ?_⟩
      rw [List.forall_mem_cons, List.forall_mem_cons]
      constructor
      · rintro ⟨hnew, hold⟩
        exact ⟨(minimum_step hstocked hpasses.1 (hlast hold)).mp hnew, hiff.mp hold⟩
      · rintro ⟨hnew, hold⟩
        have hkept := hiff.mpr hold
        exact ⟨(minimum_step hstocked hpasses.1 (hlast hkept)).mpr hnew, hkept⟩
  exact key.2.2

end Runs

/-! ### From the configuration -/

section Config

variable {config : NatsPoolConfig} {now : ℤ} {pool : NatsPool}

/-- A new pool has a connection in every pooled slot. -/
theorem Started.stocked (h : Started config now pool) : Stocked pool :=
  ⟨by rw [h.length_eq]; exact h.num_le, fun c hc => (h.ready c hc).1⟩

/-- A new pool whose attempts have all succeeded. -/
theorem natsPoolInit_filled {memory : Bool} {create : ℕ → Option ℕ}
    (hcreate : ∀ i, (create i).isSome = true) (h : natsPoolInit memory now create config = .pool pool) :
    Started config now pool ∧ pool.numConnections = max 1 config.minConnections := by
  obtain ⟨hstarted, hnum | ⟨i, hnone⟩⟩ := natsPoolInit_started (fun i _ _ _ _ => hcreate i) h
  · exact ⟨hstarted, hnum⟩
  · have hsome := hcreate i
    rw [hnone] at hsome
    cases hsome

/-- A second after the idle timeout, all connections of a new pool have been idle for too long. -/
theorem Started.idleExpired_eq (h : Started config now pool) :
    idleExpired (now + config.validated.idleTimeoutSec + 1) pool = pool.numConnections := by
  have hpooled := NatsPool.length_pooled h.stocked.num_le
  rw [idleExpired, ← hpooled, List.countP_eq_length]
  intro c hc
  obtain ⟨_, hfree, _, hlast⟩ := h.ready c hc
  rw [hfree, NatsConnection.expired, hlast, h.config_eq]
  simp only [Bool.not_false, Bool.true_and, decide_eq_true_eq]
  omega

/-- Initialisation that is accepted. -/
theorem exists_natsPoolInit (hurl : config.natsUrl ≠ none)
    (hmin : max 1 config.minConnections ≤ config.maxConnections) (create : ℕ → Option ℕ) :
    ∃ pool, natsPoolInit true now create config = .pool pool := by
  obtain ⟨url, hurl⟩ := Option.ne_none_iff_exists'.mp hurl
  obtain ⟨pool, hpool, _⟩ := @foldlM_initConnection_inside now create config
    config.validated.minConnections (by rw [validated_minConnections]; exact hmin)
  refine ⟨pool, ?_⟩
  rw [natsPoolInit, hurl]
  simp [hpool]

end Config

/-- With attempts and health checks that succeed, the pool never has fewer connections than the
configured minimum. -/
def KeepsMinimum (ι : Type) [DecidableEq ι] (config : NatsPoolConfig) : Prop :=
  ∀ memory now create pool, (∀ i, (create i).isSome = true) →
    natsPoolInit memory now create config = .pool pool →
    ∀ past (s : PoolSystem ι), Run poolStep ⟨pool, [], []⟩ past s → (∀ r ∈ past, Passes r) →
      config.minConnections ≤ s.pool.numConnections

/-- **The minimum.** A configuration keeps its minimum in all runs only where the minimum is zero. A run
keeps it exactly where no health check finds more idle connections than the pool has above it. -/
theorem keepsMinimum_iff (ι : Type) [DecidableEq ι] (config : NatsPoolConfig)
    (hurl : config.natsUrl ≠ none) (hle : config.minConnections ≤ config.maxConnections) :
    (KeepsMinimum ι config ↔ config.minConnections = 0) ∧
      ∀ memory now create pool, (∀ i, (create i).isSome = true) →
        natsPoolInit memory now create config = .pool pool →
        ∀ past (s : PoolSystem ι), Run poolStep ⟨pool, [], []⟩ past s → (∀ r ∈ past, Passes r) →
          ((∀ r ∈ past, config.minConnections ≤ r.after.pool.numConnections) ↔
            ∀ r ∈ past, SparesMinimum config.minConnections r) := by
  refine ⟨⟨fun hkeeps => ?_, fun hzero => ?_⟩, ?_⟩
  · by_contra hne
    obtain ⟨pool, hinit⟩ := @exists_natsPoolInit config 0 hurl (by omega) some
    obtain ⟨hstarted, hnum⟩ := natsPoolInit_filled (fun _ => rfl) hinit
    -- One health check, a second after the idle timeout.
    have hpasses : Passes (recordOf poolStep (⟨pool, [], []⟩ : PoolSystem ι)
        (.healthCheck (0 + config.validated.idleTimeoutSec + 1) fun _ => true)) := by
      intro now passes heq handle
      obtain ⟨_, rfl⟩ := PoolCall.healthCheck.inj heq
      rfl
    have hkept := hkeeps true 0 some pool (fun _ => rfl) hinit _ _ (.next .start _)
      (List.forall_mem_cons.mpr ⟨hpasses, fun _ h => absurd h List.not_mem_nil⟩)
    have hspares := (minimum_step hstarted.stocked hpasses (by dsimp only; omega)).mp hkept _ _ rfl
    have hall := hstarted.idleExpired_eq
    dsimp only [recordOf] at hspares
    omega
  · intro memory now create pool _ _ past s _ _
    rw [hzero]
    exact Nat.zero_le _
  · intro memory now create pool hcreate hinit past s run hpasses
    obtain ⟨hstarted, hnum⟩ := natsPoolInit_filled hcreate hinit
    exact minimum_run hstarted.stocked (by omega) run hpasses

/-- A pool of two to four connections that stay for a minute. -/
def smallConfig : NatsPoolConfig := ⟨2, 4, 5000, 60, some []⟩

/-- This configuration does not keep its minimum in all runs. -/
theorem keepsMinimum_iff_small : ¬ KeepsMinimum ℕ smallConfig :=
  fun hkeeps => absurd ((keepsMinimum_iff ℕ smallConfig (by decide) (by decide)).1.mp hkeeps) (by decide)

/-- The pool that `nats_pool_init` makes at time 0, where every attempt succeeds. -/
def startedPool (config : NatsPoolConfig) : NatsPool :=
  match natsPoolInit true 0 some config with
  | .pool pool => pool
  | _ => .allocated config

/-- **Below the minimum.** After a minute without requests, one health check removes both connections of
a pool whose minimum is two. -/
theorem healthCheck_empties_pool :
    natsPoolInit true 0 some smallConfig = .pool (startedPool smallConfig) ∧
      (startedPool smallConfig).numConnections = 2 ∧
      (exec poolStep (⟨startedPool smallConfig, [], []⟩ : PoolSystem ℕ)
        [.healthCheck 61 fun _ => true]).2.pool.numConnections = 0 := by
  decide

end CGateway
