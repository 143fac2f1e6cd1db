import CGateway.Pool.NatsPool

/-! # The slots of the NATS pool stay inside the array

`nats_pool_init` corrects the configuration in its own copy, but takes the number of slots from the
original: with fewer slots than first connections, the loop that makes them writes behind the array.
Nothing else does.

* `Inside` — the array is as long as the pool believes, and no handle points behind it;
* `natsPoolInit_inside`, `natsPoolInit_fault` — initialisation, from both sides;
* `staysInside_iff` — no slot behind the array is ever written, exactly where the configured maximum is
  at least 1 and at least the configured minimum. -/

namespace CGateway

open Machine

variable {ι : Type}

/-- The array is as long as the pool believes, and what is pooled or held lies inside it. -/
structure Inside (pool : NatsPool) (held : List (Holding ι)) : Prop where
  length_eq : pool.connections.length = pool.maxConnections
  num_le : pool.numConnections ≤ pool.maxConnections
  slot_lt : ∀ h ∈ held, h.slot < pool.maxConnections

/-! ### Initialisation -/

section Init

variable {now : ℤ} {create : ℕ → Option ℕ} {config : NatsPoolConfig}

/-- The loop stays inside as long as its index does. -/
theorem foldlM_initConnection_inside {n : ℕ} (hn : n ≤ config.maxConnections) :
    ∃ pool, (List.range n).foldlM (initConnection now create) (NatsPool.allocated config) = some pool ∧
      pool.connections.length = config.maxConnections ∧ pool.maxConnections = config.maxConnections ∧
      pool.numConnections ≤ n := by
  induction n with
  | zero => exact ⟨_, rfl, List.length_replicate, rfl, le_rfl⟩
  | succ n ih =>
    obtain ⟨pool, hpool, hlength, hmax, hnum⟩ := ih (by omega)
    rw [foldlM_initConnection_succ, hpool, Option.bind_some, initConnection]
    cases create n with
    | none => exact ⟨pool, rfl, hlength, hmax, by omega⟩
    | some handle =>
      dsimp only
      rw [if_pos (by omega)]
      exact ⟨_, rfl, by rw [List.length_set, hlength], hmax, by dsimp only; omega⟩

/-- A loop that goes on behind the array faults, where its attempts succeed. -/
theorem foldlM_initConnection_fault (hcreate : ∀ i, (create i).isSome = true) {n : ℕ}
    (hn : config.maxConnections < n) :
    (List.range n).foldlM (initConnection now create) (NatsPool.allocated config) = none := by
  induction n with
  | zero => omega
  | succ n ih =>
    rw [foldlM_initConnection_succ]
    rcases Nat.lt_or_eq_of_le (Nat.le_of_lt_succ hn) with hlt | heq
    · rw [ih hlt]
      rfl
    · obtain ⟨pool, hpool, hlength, _⟩ := @foldlM_initConnection_inside now create config n (by omega)
      obtain ⟨handle, hhandle⟩ := Option.isSome_iff_exists.mp (hcreate n)
      rw [hpool, Option.bind_some, initConnection, hhandle]
      exact if_neg (by omega)

/-- Initialisation with enough slots. -/
theorem natsPoolInit_inside (memory : Bool) (hmin : max 1 config.minConnections ≤ config.maxConnections) :
    natsPoolInit memory now create config = .null ∨
      ∃ pool, natsPoolInit memory now create config = .pool pool ∧ Inside pool ([] : List (Holding ι)) := by
  rw [natsPoolInit]
  split
  · exact .inl rfl
  · obtain ⟨pool, hpool, hlength, hmax, hnum⟩ :=
      @foldlM_initConnection_inside now create config config.validated.minConnections
        (by rw [validated_minConnections]; exact hmin)
    rw [validated_minConnections] at hnum
    rw [hpool]
    exact .inr ⟨pool, rfl, by omega, by omega, fun _ h => absurd h List.not_mem_nil⟩

/-- Initialisation with too few slots, where all attempts succeed. -/
theorem natsPoolInit_fault (hurl : config.natsUrl ≠ none) (hcreate : ∀ i, (create i).isSome = true)
    (hmin : config.maxConnections < max 1 config.minConnections) : natsPoolInit true now create config = .fault := by
  obtain ⟨url, hurl⟩ := Option.ne_none_iff_exists'.mp hurl
  rw [natsPoolInit, hurl]
  rw [← validated_minConnections] at hmin
  simp only [Option.isNone_some, Bool.not_true, Bool.or_self, Bool.false_eq_true, if_false,
    foldlM_initConnection_fault hcreate hmin]

end Init

/-! ### Runs -/

section Runs

variable [DecidableEq ι]

/-- Every step stays inside. -/
theorem Inside.step {s : PoolSystem ι} (inv : Inside s.pool s.held) (call : PoolCall ι) :
    Inside (poolStep s call).1.pool (poolStep s call).1.held := by
  refine poolStep_keeps s call (fun pool held inv => ?_) (fun pool held client i c now inv hslot _ => ?_)
    (fun pool held client handle now inv hroom _ => ?_)
    (fun pool pool' held h now inv hheld hrelease => ?_) (fun now passes _ inv => ?_) inv
  · exact ⟨⟨inv.length_eq, inv.num_le, inv.slot_lt⟩, ⟨inv.length_eq, inv.num_le, inv.slot_lt⟩⟩
  · have hi := (NatsPool.getElem?_of_pooled hslot).1
    refine ⟨?_, inv.num_le, fun h hh => ?_⟩
    · rw [NatsPool.occupy, List.length_modify]
      exact inv.length_eq
    · rcases List.mem_cons.mp hh with rfl | hh
      · exact lt_of_lt_of_le hi inv.num_le
      · exact inv.slot_lt h hh
  · refine ⟨?_, hroom, fun h hh => ?_⟩
    · rw [NatsPool.grow, List.length_set]
      exact inv.length_eq
    · rcases List.mem_cons.mp hh with rfl | hh
      · exact hroom
      · exact inv.slot_lt h hh
  · have hback := natsPoolRelease_some hrelease
    refine ⟨by rw [hback.length, hback.max, inv.length_eq], ?_, fun h' hh' => ?_⟩
    · rw [hback.num, hback.max]
      exact inv.num_le
    · rw [hback.max]
      exact inv.slot_lt h' (List.mem_of_mem_erase hh')
  · obtain ⟨hlength, hnum, hmax, _⟩ := natsPoolHealthCheck_frame (by rw [inv.length_eq]; exact inv.num_le) now passes
    exact ⟨by rw [hlength, hmax, inv.length_eq], by rw [hmax]; exact hnum.trans inv.num_le,
      fun h hh => by rw [hmax]; exact inv.slot_lt h hh⟩

/-- Inside, nothing faults. -/
theorem Inside.no_fault {s : PoolSystem ι} (inv : Inside s.pool s.held) (call : PoolCall ι) :
    (poolStep s call).2 ≠ .fault := by
  intro hfault
  rcases poolStep_fault hfault with ⟨hroom, hlong⟩ | ⟨h, hh, hlong⟩
  · rw [inv.length_eq] at hlong
    omega
  · have := inv.slot_lt h hh
    rw [inv.length_eq] at hlong
    omega

/-- Whole runs. -/
theorem Inside.run {pool : NatsPool} (inv : Inside pool ([] : List (Holding ι)))
    {past : List (Record (PoolSystem ι) (PoolCall ι) PoolAnswer)} {s : PoolSystem ι}
    (run : Run poolStep ⟨pool, [], []⟩ past s) : Inside s.pool s.held ∧ ∀ r ∈ past, r.output ≠ .fault := by
  refine run.invariant (P := fun past s => Inside s.pool s.held ∧ ∀ r ∈ past, r.output ≠ .fault)
    ⟨inv, fun _ h => absurd h List.not_mem_nil⟩ fun past s call ih => ⟨ih.1.step call, fun r hr => ?_⟩
  rcases List.mem_cons.mp hr with rfl | hr
  · exact ih.1.no_fault call
  · exact ih.2 r hr

end Runs

/-- Whatever the attempts at start-up and the calls afterwards: no slot behind the array is written, and
no more slots are pooled than there are. -/
def StaysInside (ι : Type) [DecidableEq ι] (config : NatsPoolConfig) : Prop :=
  ∀ memory now create, natsPoolInit memory now create config ≠ .fault ∧
    ∀ pool, natsPoolInit memory now create config = .pool pool →
      ∀ past (s : PoolSystem ι), Run poolStep ⟨pool, [], []⟩ past s →
        (∀ r ∈ past, r.output ≠ .fault) ∧ s.pool.connections.length = s.pool.maxConnections ∧
          s.pool.numConnections ≤ s.pool.maxConnections

/-- **The array.** A pool that is accepted stays inside its array, whatever happens, exactly where the
configured maximum is at least 1 and at least the configured minimum. -/
theorem staysInside_iff (ι : Type) [DecidableEq ι] (config : NatsPoolConfig) :
    StaysInside ι config ↔ config.natsUrl = none ∨
      1 ≤ config.maxConnections ∧ config.minConnections ≤ config.maxConnections := by
  refine ⟨fun hinside => ?_, fun hconfig memory now create => ?_⟩
  · by_contra hnot
    rw [not_or] at hnot
    exact (hinside true 0 some).1 (natsPoolInit_fault hnot.1 (fun _ => rfl) (by omega))
  · have hinit : natsPoolInit memory now create config = .null ∨
        ∃ pool, natsPoolInit memory now create config = .pool pool ∧
          Inside pool ([] : List (Holding ι)) := by
      rcases hconfig with hurl | ⟨hone, hmin⟩
      · refine .inl ?_
        rw [natsPoolInit, hurl]
        rfl
      · exact natsPoolInit_inside memory (by omega)
    rcases hinit with hnull | ⟨pool, hpool, inv⟩
    · rw [hnull]
      exact ⟨NatsPoolStart.noConfusion, fun _ h => NatsPoolStart.noConfusion h⟩
    · rw [hpool]
      refine ⟨NatsPoolStart.noConfusion, fun pool' heq past s run => ?_⟩
      obtain rfl := NatsPoolStart.pool.inj heq
      obtain ⟨inv', hnone⟩ := inv.run run
      exact ⟨hnone, inv'.length_eq, inv'.num_le⟩

/-- **Behind the array.** A minimum of two and a maximum of one: the second connection is written behind
the one slot. A maximum of zero: the first one is. -/
theorem natsPoolInit_behind_array :
    natsPoolInit true 0 some ⟨2, 1, 5000, 60, some []⟩ = .fault ∧
      natsPoolInit true 0 some ⟨0, 0, 5000, 60, some []⟩ = .fault := by
  decide

end CGateway
