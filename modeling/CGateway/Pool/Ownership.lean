import CGateway.Lib.Slots
import CGateway.Pool.NatsPool

/-! # Who owns a connection of the NATS pool

A handle is the address of a slot, and the health check moves the slots behind a connection that it
removes. Where it removes none in front of a slot in use, no slot moves under its holder, and the pool
keeps its books.

* `Owned` — the slots in use are those that are held, each with the connection that was acquired;
* `Settled` — no connection is removed in front of one in use;
* `natsPool_ownership` — in every run whose health checks are settled, handles have one holder, the
  statistics are right, and what has been released can be acquired again. -/

namespace CGateway

open Machine Slots Compact

variable {ι : Type}

/-- The slots in use are those that are held, each with the connection that was acquired; every pooled
slot is ready for use; and the statistics count them. -/
structure Owned (pool : NatsPool) (held : List (Holding ι)) : Prop where
  num_le : pool.numConnections ≤ pool.connections.length
  exclusive : (held.map (·.slot)).Nodup
  carries : ∀ h ∈ held, ∃ c, pool.pooled[h.slot]? = some c ∧ c.inUse = true ∧
    c.natsHandle = h.connection
  held_of_inUse : ∀ i c, pool.pooled[i]? = some c → c.inUse = true → ∃ h ∈ held, h.slot = i
  ready : ∀ c ∈ pool.pooled, c.natsHandle.isSome = true ∧ c.healthy = true
  active : pool.stats.activeConnections = held.length
  idle : pool.stats.idleConnections = pool.pooled.countP fun c => !c.inUse

/-- A health check removes no connection in front of one in use; other calls remove none at all. -/
def Settled (pool : NatsPool) : PoolCall ι → Prop
  | .healthCheck now passes =>
      pool.pooled.Pairwise fun front behind =>
        front.reaped now pool.config.idleTimeoutSec passes = true → behind.inUse = false
  | _ => True

instance (pool : NatsPool) : DecidablePred (Settled (ι := ι) pool)
  | .healthCheck _ _ => inferInstanceAs (Decidable (List.Pairwise _ _))
  | .acquire .. | .wake .. | .timeOut .. | .release .. => isTrue trivial

/-! ### Handing out and taking back -/

section Operations

variable {pool : NatsPool} {held : List (Holding ι)}

/-- Nobody holds a slot that is free. -/
theorem Owned.slot_ne (inv : Owned pool held) {i : ℕ} {c : NatsConnection}
    (hslot : pool.pooled[i]? = some c) (hfree : c.inUse = false) : ∀ h ∈ held, h.slot ≠ i := by
  rintro h hh rfl
  obtain ⟨c', hc', huse, _⟩ := inv.carries h hh
  rw [hslot, Option.some.injEq] at hc'
  rw [← hc', hfree] at huse
  cases huse

/-- Handing out a free slot. -/
theorem Owned.reuse (inv : Owned pool held) (client : ι) {i : ℕ} {c : NatsConnection} (now : ℤ)
    (hslot : pool.pooled[i]? = some c) (hfree : c.available = true) :
    Owned (pool.occupy i now) (⟨client, i, c.natsHandle⟩ :: held) := by
  have hnot : c.inUse = false := by
    simp only [NatsConnection.available, Bool.and_eq_true, Bool.not_eq_true'] at hfree
    exact hfree.1
  have hothers := inv.slot_ne hslot hnot
  have hpooled := NatsPool.pooled_occupy pool i now
  refine ⟨?_, ?_, ?_, ?_, ?_, ?_, ?_⟩
  · rw [NatsPool.occupy, List.length_modify]
    exact inv.num_le
  · exact nodup_map_cons inv.exclusive hothers
  · intro h hh
    rw [hpooled]
    rcases List.mem_cons.mp hh with rfl | hh
    · exact ⟨_, getElem?_modify_self _ hslot, rfl, rfl⟩
    · rw [List.getElem?_modify_ne _ _ (hothers h hh).symm]
      exact inv.carries h hh
  · -- What is in use is the slot just handed out, or was in use before.
    intro j c' hc' huse
    by_cases hji : i = j
    · exact ⟨_, List.mem_cons_self, hji⟩
    · rw [hpooled, List.getElem?_modify_ne _ _ hji] at hc'
      obtain ⟨h, hh, heq⟩ := inv.held_of_inUse j c' hc' huse
      exact ⟨h, List.mem_cons_of_mem _ hh, heq⟩
  · rw [hpooled]
    refine forall_mem_modify ?_ i inv.ready
    exact fun _ hready => hready
  · rw [NatsPool.occupy, List.length_cons]
    dsimp only
    rw [inv.active]
    omega
  · -- The free slots are one less.
    have hcount := countP_modify (fun c : NatsConnection => !c.inUse)
      (fun c => { c with inUse := true, lastUsed := now }) hslot
    rw [hnot] at hcount
    rw [hpooled, NatsPool.occupy]
    dsimp only
    rw [inv.idle]
    simp only [Bool.not_false, Bool.toNat_true, Bool.not_true, Bool.toNat_false] at hcount
    omega

/-- Handing out a new connection. -/
theorem Owned.grow (inv : Owned pool held) (client : ι) (handle : ℕ) (now : ℤ)
    (hroom : pool.numConnections < pool.connections.length) :
    Owned (pool.grow handle now) (⟨client, pool.numConnections, some handle⟩ :: held) := by
  have hlength := NatsPool.length_pooled inv.num_le
  have hpooled := NatsPool.pooled_grow hroom handle now
  -- What is held lies in front of the new slot.
  have hbelow : ∀ h ∈ held, h.slot < pool.numConnections := by
    intro h hh
    obtain ⟨c, hc, _⟩ := inv.carries h hh
    exact (NatsPool.getElem?_of_pooled hc).1
  refine ⟨?_, ?_, ?_, ?_, ?_, ?_, ?_⟩
  · rw [NatsPool.grow, List.length_set]
    exact hroom
  · exact nodup_map_cons inv.exclusive fun h hh => (hbelow h hh).ne
  · intro h hh
    rw [hpooled]
    rcases List.mem_cons.mp hh with rfl | hh
    · exact ⟨_, by rw [← hlength, List.getElem?_concat_length], rfl, rfl⟩
    · rw [List.getElem?_append_left (by rw [hlength]; exact hbelow h hh)]
      exact inv.carries h hh
  · intro j c' hc' huse
    rw [hpooled] at hc'
    rcases Nat.lt_or_ge j pool.pooled.length with hj | hj
    · rw [List.getElem?_append_left hj] at hc'
      obtain ⟨h, hh, heq⟩ := inv.held_of_inUse j c' hc' huse
      exact ⟨h, List.mem_cons_of_mem _ hh, heq⟩
    · have hlast := (List.getElem?_eq_some_iff.mp hc').1
      rw [List.length_append, List.length_singleton] at hlast
      exact ⟨_, List.mem_cons_self, by dsimp only; omega⟩
  · intro c hc
    rw [hpooled, List.mem_append, List.mem_singleton] at hc
    rcases hc with hc | rfl
    · exact inv.ready c hc
    · exact ⟨rfl, rfl⟩
  · rw [NatsPool.grow, List.length_cons]
    dsimp only
    rw [inv.active]
    omega
  · rw [hpooled, List.countP_append, NatsPool.grow]
    dsimp only
    rw [inv.idle]
    rfl

/-- Taking back a handle. -/
theorem Owned.release [DecidableEq ι] (inv : Owned pool held) {pool' : NatsPool} {h : Holding ι}
    {now : ℤ} (hheld : h ∈ held) (hrelease : natsPoolRelease now (some h.slot) pool = some pool') :
    Owned pool' (held.erase h) := by
  have hback := natsPoolRelease_some hrelease
  obtain ⟨c, hslot, huse, _⟩ := inv.carries h hheld
  have hpooled := hback.pooled
  obtain ⟨hnodup, hothers⟩ := nodup_map_erase inv.exclusive hheld
  refine ⟨by rw [hback.num, hback.length]; exact inv.num_le, hnodup, ?_, ?_, ?_, ?_, ?_⟩
  · intro h' hh'
    rw [hpooled, List.getElem?_modify_ne _ _ (hothers h' hh')]
    exact inv.carries h' (List.mem_of_mem_erase hh')
  · -- A slot that stays in use is another one, and its holder another holder.
    intro j c' hc' huse'
    rw [hpooled] at hc'
    by_cases hj : h.slot = j
    · subst hj
      rw [getElem?_modify_self _ hslot, Option.some.injEq] at hc'
      rw [← hc'] at huse'
      cases huse'
    · rw [List.getElem?_modify_ne _ _ hj] at hc'
      obtain ⟨h', hh', heq⟩ := inv.held_of_inUse j c' hc' huse'
      refine ⟨h', (List.mem_erase_of_ne ?_).mpr hh', heq⟩
      rintro rfl
      exact hj heq
  · rw [hpooled]
    refine forall_mem_modify ?_ _ inv.ready
    exact fun _ hready => hready
  · have hlength := List.length_erase_of_mem hheld
    have hpos := List.length_pos_of_mem hheld
    rw [hback.active, inv.active]
    omega
  · -- The free slots are one more.
    have hcount := countP_modify (fun c : NatsConnection => !c.inUse)
      (fun c => { c with inUse := false, lastUsed := now }) hslot
    rw [huse] at hcount
    rw [hpooled, hback.idle, inv.idle]
    simp only [Bool.not_false, Bool.toNat_true, Bool.not_true, Bool.toNat_false] at hcount
    omega

/-- A settled health check. -/
theorem Owned.healthCheck (inv : Owned pool held) {now : ℤ} {passes : ℕ → Bool}
    (hsettled : Settled pool (.healthCheck now passes : PoolCall ι)) :
    Owned (natsPoolHealthCheck now passes pool).1 held := by
  obtain ⟨hlength, hnum, _, _⟩ := natsPoolHealthCheck_frame inv.num_le now passes
  obtain ⟨hpooled, _, hactive, hidle⟩ :=
    natsPoolHealthCheck_pooled inv.num_le (fun c hc => (inv.ready c hc).1) now passes
  -- In front of the first connection that is removed nothing moves; behind it nothing is in use.
  obtain ⟨front, back, hsplit, hfront, hback⟩ := @split_of_pairwise NatsConnection
    (fun c => !c.reaped now pool.config.idleTimeoutSec passes) pool.pooled (·.inUse)
    (List.Pairwise.imp (fun h hkeep => h (by simpa using hkeep)) hsettled)
    (fun c _ hkeep => NatsConnection.inUse_of_reaped (by simpa using hkeep))
  have hkept : pool.pooled.filter (fun c => !c.reaped now pool.config.idleTimeoutSec passes) =
      front ++ back.filter fun c => !c.reaped now pool.config.idleTimeoutSec passes := by
    rw [hsplit, List.filter_append, List.filter_eq_self.mpr hfront]
  have hmoved : ∀ i c, pool.pooled[i]? = some c → c.inUse = true → i < front.length := by
    intro i c hc huse
    rw [hsplit] at hc
    by_contra hge
    rw [List.getElem?_append_right (by omega)] at hc
    rw [hback c (List.mem_of_getElem? hc)] at huse
    cases huse
  refine ⟨by rw [hlength]; exact hnum.trans inv.num_le, inv.exclusive, ?_, ?_, ?_, ?_, ?_⟩
  · intro h hh
    obtain ⟨c, hc, huse, hconn⟩ := inv.carries h hh
    have hlt := hmoved h.slot c hc huse
    refine ⟨c, ?_, huse, hconn⟩
    rw [hsplit, List.getElem?_append_left hlt] at hc
    rw [hpooled, hkept, List.getElem?_append_left hlt, hc]
  · intro i c hc huse
    rw [hpooled, hkept] at hc
    rcases Nat.lt_or_ge i front.length with hlt | hge
    · rw [List.getElem?_append_left hlt] at hc
      refine inv.held_of_inUse i c ?_ huse
      rw [hsplit, List.getElem?_append_left hlt, hc]
    · rw [List.getElem?_append_right hge] at hc
      rw [hback c (List.mem_of_mem_filter (List.mem_of_getElem? hc))] at huse
      cases huse
  · intro c hc
    rw [hpooled] at hc
    exact inv.ready c (List.mem_of_mem_filter hc)
  · rw [hactive, inv.active]
  · have hsum := countP_free_kept now pool.config.idleTimeoutSec passes pool.pooled
    rw [hidle, inv.idle, hpooled]
    omega

end Operations

/-! ### Acquiring everything -/

section Reuse

variable [DecidableEq ι]

/-- A client asks for a connection and does not wait for it. -/
def impatientCall (client : ι) (now : ℤ) : PoolCall ι := .acquire client 0 now none

/-- The first `n` pooled slots are taken, the others can be handed out. -/
structure Taken (n : ℕ) (pool : NatsPool) : Prop where
  taken : ∀ i c, i < n → pool.pooled[i]? = some c → c.inUse = true
  free : ∀ i c, n ≤ i → pool.pooled[i]? = some c → c.available = true

/-- The next call gets the next slot. -/
theorem Taken.next {s : PoolSystem ι} {n : ℕ} (h : Taken n s.pool) (hn : n < s.pool.pooled.length)
    (client : ι) (now : ℤ) :
    (poolStep s (impatientCall client now)).2 = .handle n ∧
      Taken (n + 1) (poolStep s (impatientCall client now)).1.pool ∧
      (poolStep s (impatientCall client now)).1.pool.pooled.length = s.pool.pooled.length := by
  -- The scan passes over the slots that are taken.
  have hfind : s.pool.pooled.findIdx? NatsConnection.available = some n := by
    rw [List.findIdx?_eq_some_iff_getElem]
    refine ⟨hn, h.free n _ le_rfl (List.getElem?_eq_getElem hn), fun i hi => ?_⟩
    have huse := h.taken i _ hi (List.getElem?_eq_getElem (hi.trans hn))
    simp [NatsConnection.available, huse]
  have hturn : natsPoolAcquireTurn now none s.pool.countAcquired =
      some (s.pool.countAcquired.occupy n now, some n) := by
    unfold natsPoolAcquireTurn
    rw [show s.pool.countAcquired.pooled = s.pool.pooled from rfl, hfind]
  have hstep : poolStep s (impatientCall client now) =
      (s.give (s.pool.countAcquired.occupy n now) client n, .handle n) := by
    rw [impatientCall, poolStep, hturn]
  have hpooled : (s.pool.countAcquired.occupy n now).pooled =
      s.pool.pooled.modify n fun c => { c with inUse := true, lastUsed := now } :=
    NatsPool.pooled_occupy ..
  rw [hstep]
  refine ⟨rfl, ⟨fun i c hi hc => ?_, fun i c hi hc => ?_⟩, ?_⟩
  · rw [PoolSystem.give, hpooled] at hc
    rcases Nat.lt_or_eq_of_le (Nat.le_of_lt_succ hi) with hlt | rfl
    · rw [List.getElem?_modify_ne _ _ (by omega)] at hc
      exact h.taken i c hlt hc
    · rw [getElem?_modify_self _ (List.getElem?_eq_getElem hn), Option.some.injEq] at hc
      rw [← hc]
  · rw [PoolSystem.give, hpooled, List.getElem?_modify_ne _ _ (by omega)] at hc
    exact h.free i c (by omega) hc
  · rw [PoolSystem.give, hpooled, List.length_modify]

/-- As many calls as there are pooled slots get them one after the other. -/
theorem Taken.acquire_all {s : PoolSystem ι} (h : Taken 0 s.pool) (client : ι) (now : ℤ) {n : ℕ}
    (hn : n ≤ s.pool.pooled.length) :
    (exec poolStep s (List.replicate n (impatientCall client now))).1.map (·.output) =
        ((List.range n).map PoolAnswer.handle).reverse ∧
      Taken n (exec poolStep s (List.replicate n (impatientCall client now))).2.pool ∧
      (exec poolStep s (List.replicate n (impatientCall client now))).2.pool.pooled.length = s.pool.pooled.length := by
  induction n with
  | zero => exact ⟨rfl, h, rfl⟩
  | succ n ih =>
    obtain ⟨hanswers, htaken, hlength⟩ := ih (by omega)
    obtain ⟨hanswer, htaken', hlength'⟩ := htaken.next (by omega) client now
    rw [List.replicate_succ', exec_concat]
    refine ⟨?_, htaken', hlength'.trans hlength⟩
    rw [List.map_cons, hanswers, recordOf_output, hanswer, List.range_succ, List.map_append, List.reverse_append]
    rfl

omit [DecidableEq ι] in
/-- Where nobody holds a handle, every pooled slot can be handed out. -/
theorem Owned.taken_zero {pool : NatsPool} (inv : Owned pool ([] : List (Holding ι))) : Taken 0 pool := by
  refine ⟨fun i c hi _ => absurd hi (Nat.not_lt_zero i), fun i c _ hc => ?_⟩
  have hhealthy := (inv.ready c (List.mem_of_getElem? hc)).2
  rw [NatsConnection.available, hhealthy, Bool.and_true, Bool.not_eq_true']
  by_contra huse
  obtain ⟨h, hh, _⟩ := inv.held_of_inUse i c hc (by simpa using huse)
  cases hh

end Reuse

/-! ### Runs -/

section Runs

variable [DecidableEq ι]

/-- The pool as its clients may rely on it. -/
structure Ownership (s : PoolSystem ι) : Prop where
  /-- No handle is held twice. -/
  exclusive : (s.held.map (·.slot)).Nodup
  /-- A held handle designates a slot in use, with the connection that was acquired. -/
  carries : ∀ h ∈ s.held, ∃ c, s.pool.pooled[h.slot]? = some c ∧ c.inUse = true ∧
    c.natsHandle = h.connection
  active : s.pool.stats.activeConnections = s.held.length
  idle : s.pool.stats.idleConnections = s.pool.pooled.countP fun c => !c.inUse
  /-- When all handles have been released, calls that do not wait get all pooled slots. -/
  reusable : s.held = [] → ∀ client now,
    (exec poolStep s (List.replicate s.pool.numConnections (impatientCall client now))).1.map
      (·.output) = ((List.range s.pool.numConnections).map PoolAnswer.handle).reverse

/-- What the invariant means for the clients. -/
theorem Owned.ownership {s : PoolSystem ι} (inv : Owned s.pool s.held) : Ownership s := by
  refine ⟨inv.exclusive, inv.carries, inv.active, inv.idle, fun hnil client now => ?_⟩
  rw [hnil] at inv
  exact (inv.taken_zero.acquire_all client now (NatsPool.length_pooled inv.num_le).ge).1

omit [DecidableEq ι] in
/-- A new pool. -/
theorem Started.owned {config : NatsPoolConfig} {now : ℤ} {pool : NatsPool}
    (h : Started config now pool) : Owned pool ([] : List (Holding ι)) := by
  have hnum : pool.numConnections ≤ pool.connections.length := by
    rw [h.length_eq]
    exact h.num_le
  have hfree : pool.pooled.countP (fun c => !c.inUse) = pool.numConnections := by
    rw [← NatsPool.length_pooled hnum, List.countP_eq_length]
    intro c hc
    rw [(h.ready c hc).2.1]
    rfl
  refine ⟨hnum, .nil, fun _ hh => absurd hh List.not_mem_nil,
    fun i c hc huse => ?_, fun c hc => ⟨(h.ready c hc).1, (h.ready c hc).2.2.1⟩, h.active, ?_⟩
  · rw [(h.ready c (List.mem_of_getElem? hc)).2.1] at huse
    cases huse
  · rw [h.idle, hfree]

/-- A step whose health check, if it is one, is settled. -/
theorem Owned.step {s : PoolSystem ι} (inv : Owned s.pool s.held) {call : PoolCall ι}
    (hsettled : Settled s.pool call) : Owned (poolStep s call).1.pool (poolStep s call).1.held :=
  poolStep_keeps s call
    (fun _ _ inv => ⟨⟨inv.num_le, inv.exclusive, inv.carries, inv.held_of_inUse, inv.ready, inv.active,
      inv.idle⟩, ⟨inv.num_le, inv.exclusive, inv.carries, inv.held_of_inUse, inv.ready, inv.active, inv.idle⟩⟩)
    (fun _ _ client _ _ now inv hslot hfree => inv.reuse client now hslot hfree)
    (fun _ _ client handle now inv _ hroom => inv.grow client handle now hroom)
    (fun _ _ _ _ _ inv hheld hrelease => inv.release hheld hrelease)
    (fun _ _ heq inv => inv.healthCheck (heq ▸ hsettled)) inv

end Runs

/-- **Ownership.** Where the connection attempts at start-up leave no gap, and no health check removes a
connection in front of one in use, then after every run of calls by clients that release what they hold:
no two hold the same handle, a held handle designates a slot in use with the connection that was
acquired, the statistics count what is held and what is free, and once everything is released all pooled
connections can be acquired again. -/
theorem natsPool_ownership {ι : Type} [DecidableEq ι] (config : NatsPoolConfig) (memory : Bool) (start : ℤ)
    (create : ℕ → Option ℕ) (pool : NatsPool) (hinit : natsPoolInit memory start create config = .pool pool)
    (hgap : NoGap (max 1 config.minConnections) create)
    (past : List (Record (PoolSystem ι) (PoolCall ι) PoolAnswer)) (s : PoolSystem ι)
    (run : Run poolStep ⟨pool, [], []⟩ past s) (hsettled : ∀ r ∈ past, Settled r.before.pool r.input) :
    Ownership s := by
  have key : Owned s.pool s.held := by
    induction run with
    | start => exact (natsPoolInit_started hgap hinit).1.owned
    | next run call ih =>
        rw [List.forall_mem_cons] at hsettled
        exact (ih hsettled.2).step hsettled.1
  exact key.ownership

/-- A pool of two to three connections that stay for a minute. -/
def pairConfig : NatsPoolConfig := ⟨2, 3, 5000, 60, some []⟩

/-- The pool of that configuration, made at time 0 with connections 0 and 1. -/
def pairPool : NatsPool where
  config := pairConfig
  connections := [.fresh 0 0 false, .fresh 1 0 false, .blank]
  numConnections := 2
  maxConnections := 3
  stats := { idleConnections := 2, totalCreated := 2 }

/-- Client 1 takes and returns a connection while client 2 keeps one; the health check removes the
first connection, which has been idle for a minute; then client 3 asks for one. -/
def unsettledCalls : List (PoolCall ℕ) :=
  [.acquire 1 0 0 none, .acquire 2 0 0 none, .release 1 0 0, .healthCheck 61 fun _ => true,
   .acquire 3 0 61 (some 2)]

/-- **Two holders.** Clients 2 and 3 hold the same handle, and the connection of client 2 is not the one
in its slot any more. -/
theorem natsPool_two_holders :
    natsPoolInit true 0 some pairConfig = .pool pairPool ∧
      (exec poolStep ⟨pairPool, [], []⟩ unsettledCalls).2.held =
        [⟨3, 1, some 2⟩, ⟨2, 1, some 1⟩] := by
  decide

/-- The same calls with the clients' parts exchanged: the connection behind is returned and removed, and
everything can be acquired again. -/
def settledCalls : List (PoolCall ℕ) :=
  [.acquire 1 0 0 none, .acquire 2 0 0 none, .release 2 1 0, .healthCheck 61 fun _ => true,
   .acquire 3 0 61 (some 2), .release 1 0 62, .release 3 1 62]

/-- The pool after these calls: no handle is held twice, and all is well kept. -/
theorem natsPool_ownership_settled :
    (exec poolStep ⟨pairPool, [], []⟩ settledCalls).2.pool.numConnections = 2 ∧
      Ownership (exec poolStep ⟨pairPool, [], []⟩ settledCalls).2 := by
  refine ⟨by decide, natsPool_ownership pairConfig true 0 some pairPool (by decide) (fun _ _ _ _ _ => rfl)
    _ _ (run_exec poolStep ⟨pairPool, [], []⟩ settledCalls) (by decide)⟩

end CGateway
