import CGateway.Lib.Parties
import CGateway.Nats.Resilience

/-! # Clients of one NATS connection

Several clients share a connection. Each asks `nats_resilience_can_accept`, starts its request if the
answer was yes, and completes it; every call is atomic, and the calls of different clients come in any
order. Asking reserves nothing, so that clients that have asked and not yet started do not see each other.

* `ClientSystem`, `clientStep` — the connection with its clients;
* `Counts.move` — the counter of the connection is the number of requests in flight;
* `overshoot_le` — with at most `k` clients between the two calls the limit is exceeded by less than `k`;
* `inFlight_bound_iff` — the limit holds in every interleaving just when there are no more clients than
  it admits. -/

namespace CGateway

open Machine Parties

universe u

/-- Where a client is between its calls. -/
inductive ClientPhase where
  | idle
  | admitted
  | inFlight
  deriving DecidableEq, Repr

/-- A connection and its clients. -/
structure ClientSystem (ι : Type u) where
  res : NatsResilience
  phase : ι → ClientPhase

/-- A call of a client, or of the one who watches the connection. -/
inductive ClientCall (ι : Type u) where
  | canAccept (client : ι)
  | requestStart (client : ι)
  | requestComplete (client : ι) (success : Bool) (now : ℤ)
  | markConnected

section System

variable {ι : Type u} [DecidableEq ι]

/-- The client goes on to `phase`. -/
def ClientSystem.enter (sys : ClientSystem ι) (client : ι) (phase : ClientPhase) :
    ι → ClientPhase :=
  Function.update sys.phase client phase

/-- One atomic call. A client calls in its order; a call out of order does not happen. -/
def clientStep (sys : ClientSystem ι) : ClientCall ι → ClientSystem ι × Option Bool
  | .canAccept client =>
      if sys.phase client = .idle then
        if natsResilienceCanAccept sys.res then
          ({ sys with phase := sys.enter client .admitted }, some true)
        else (sys, some false)
      else (sys, none)
  | .requestStart client =>
      if sys.phase client = .admitted then
        (⟨natsResilienceRequestStart sys.res, sys.enter client .inFlight⟩, none)
      else (sys, none)
  | .requestComplete client success now =>
      if sys.phase client = .inFlight then
        (⟨natsResilienceRequestComplete success now sys.res, sys.enter client .idle⟩, none)
      else (sys, none)
  | .markConnected => ({ sys with res := natsResilienceMarkConnected sys.res }, none)

/-- A step of a run, as the history keeps it. -/
abbrev ClientRecord (ι : Type u) := Record (ClientSystem ι) (ClientCall ι) (Option Bool)

/-- The fresh connection, with no client on it. -/
def ClientSystem.init (config : NatsResilienceConfig) : ClientSystem ι :=
  ⟨natsResilienceInit (some config), fun _ => .idle⟩

/-- An interleaving of the clients' calls. -/
abbrev ClientRun (config : NatsResilienceConfig) (past : List (ClientRecord ι)) (sys : ClientSystem ι) : Prop :=
  Run clientStep (.init config) past sys

/-- What one call can do to the system. -/
inductive ClientMove (sys : ClientSystem ι) : ClientSystem ι → Prop
  /-- The call has no effect. -/
  | stay : ClientMove sys sys
  /-- A client is told yes: there is room now. -/
  | accept (client : ι) (hphase : sys.phase client = .idle)
      (hroom : sys.res.inflightCount < sys.res.config.maxInflight) :
      ClientMove sys { sys with phase := sys.enter client .admitted }
  /-- A client starts its request. -/
  | start (client : ι) (hphase : sys.phase client = .admitted) :
      ClientMove sys ⟨natsResilienceRequestStart sys.res, sys.enter client .inFlight⟩
  /-- A client completes its request. -/
  | complete (client : ι) (hphase : sys.phase client = .inFlight) (success : Bool) (now : ℤ) :
      ClientMove sys ⟨natsResilienceRequestComplete success now sys.res, sys.enter client .idle⟩
  /-- The connection is marked as connected. -/
  | connect : ClientMove sys { sys with res := natsResilienceMarkConnected sys.res }

/-- A yes means that there is room. -/
theorem lt_of_natsResilienceCanAccept {res : NatsResilience} (h : natsResilienceCanAccept res = true) :
    res.inflightCount < res.config.maxInflight := by
  rw [natsResilienceCanAccept] at h
  split at h
  · exact absurd h (by decide)
  · omega

/-- **Every call is one of these moves.** -/
theorem clientStep_move (sys : ClientSystem ι) (call : ClientCall ι) : ClientMove sys (clientStep sys call).1 := by
  cases call with
  | canAccept client =>
    simp only [clientStep]
    split
    · next hphase =>
        split
        · next hyes => exact .accept client hphase (lt_of_natsResilienceCanAccept hyes)
        · exact .stay
    · exact .stay
  | requestStart client =>
    simp only [clientStep]
    split
    · next hphase => exact .start client hphase
    · exact .stay
  | requestComplete client success now =>
    simp only [clientStep]
    split
    · next hphase => exact .complete client hphase success now
    · exact .stay
  | markConnected => exact .connect

/-! ### The counter and the clients -/

variable [Fintype ι]

/-- The number of requests in flight. -/
def inFlight (sys : ClientSystem ι) : ℕ := phaseCount .inFlight sys.phase

/-- The number of clients that were told yes and have not started yet. -/
def waiting (sys : ClientSystem ι) : ℕ := phaseCount .admitted sys.phase

/-- The connection counts the requests in flight. -/
structure Counts (config : NatsResilienceConfig) (sys : ClientSystem ι) : Prop where
  limit_eq : sys.res.config.maxInflight = config.maxInflight
  count_eq : sys.res.inflightCount = inFlight sys

variable {config : NatsResilienceConfig} {sys sys' : ClientSystem ι}

/-- The number in flight and the number admitted, when one client changes its phase. -/
theorem counts_enter (sys : ClientSystem ι) (client : ι) (phase : ClientPhase) :
    phaseCount .inFlight (sys.enter client phase) +
        (if sys.phase client = .inFlight then 1 else 0) =
      inFlight sys + (if phase = .inFlight then 1 else 0) ∧
    phaseCount .admitted (sys.enter client phase) +
        (if sys.phase client = .admitted then 1 else 0) =
      waiting sys + (if phase = .admitted then 1 else 0) :=
  ⟨phaseCount_update .., phaseCount_update ..⟩

/-- A completion takes one from a positive counter and leaves the limit alone. -/
theorem natsResilienceRequestComplete_inflight (success : Bool) (now : ℤ) {res : NatsResilience}
    (hpos : 0 < res.inflightCount) :
    (natsResilienceRequestComplete success now res).inflightCount = res.inflightCount - 1 := by
  cases success with
  | true =>
    show res.leave.succeed.inflightCount = _
    rw [NatsResilience.succeed_inflightCount]
    exact if_pos hpos
  | false => exact if_pos hpos

/-- Every move keeps the counter equal to the number of requests in flight. -/
theorem Counts.move (h : Counts config sys) (move : ClientMove sys sys') : Counts config sys' := by
  have hcount := h.count_eq
  cases move with
  | stay => exact h
  | connect => exact ⟨h.limit_eq, h.count_eq⟩
  | accept client hphase hroom =>
    have hflight := (counts_enter sys client .admitted).1
    refine ⟨h.limit_eq, ?_⟩
    simp only [hphase, reduceCtorEq, if_false] at hflight
    show sys.res.inflightCount = (phaseCount .inFlight (sys.enter client .admitted) : ℕ)
    omega
  | start client hphase =>
    have hflight := (counts_enter sys client .inFlight).1
    refine ⟨h.limit_eq, ?_⟩
    simp only [hphase, reduceCtorEq, if_false, if_true] at hflight
    show sys.res.inflightCount + 1 = (phaseCount .inFlight (sys.enter client .inFlight) : ℕ)
    omega
  | complete client hphase success now =>
    have hflight := (counts_enter sys client .idle).1
    simp only [hphase, reduceCtorEq, if_false, if_true] at hflight
    refine ⟨?_, ?_⟩
    · rw [← h.limit_eq]
      exact congrArg _ (resilienceStep_config sys.res (.requestComplete success now))
    · show (natsResilienceRequestComplete success now sys.res).inflightCount =
        (phaseCount .inFlight (sys.enter client .idle) : ℕ)
      rw [natsResilienceRequestComplete_inflight success now (by omega)]
      omega

omit [DecidableEq ι] in
/-- A positive limit is kept as it is, and a fresh connection has no request in flight. -/
theorem counts_init (hmax : 1 ≤ config.maxInflight) : Counts config (.init config : ClientSystem ι) := by
  refine ⟨if_neg (Int.not_le.mpr hmax), ?_⟩
  show (0 : ℤ) = (phaseCount ClientPhase.inFlight fun _ : ι => ClientPhase.idle)
  rw [phaseCount_const]
  rfl

/-- **The counter of the connection is right in every interleaving.** -/
theorem counts_of_run {past : List (ClientRecord ι)} (hmax : 1 ≤ config.maxInflight)
    (run : ClientRun config past sys) : Counts config sys :=
  run.invariant (P := fun _ sys => Counts config sys) (counts_init hmax)
    (fun _ sys call h => h.move (clientStep_move sys call))

/-! ### How far the limit is exceeded -/

/-- With at most `k` clients between the two calls, those in flight and those admitted together stay
below `limit + k`: only a yes makes them more, and it finds the counter below the limit. -/
theorem overshoot_move {k : ℕ} (hcounts : Counts config sys) (move : ClientMove sys sys')
    (hadmitted : waiting sys' ≤ k) (h : (inFlight sys + waiting sys : ℤ) ≤ config.maxInflight + k - 1) :
    (inFlight sys' + waiting sys' : ℤ) ≤ config.maxInflight + k - 1 := by
  have hcount := hcounts.count_eq
  have hlimit := hcounts.limit_eq
  cases move with
  | stay => exact h
  | connect => exact h
  | accept client hphase hroom =>
    obtain ⟨hflight, hadmit⟩ := counts_enter sys client .admitted
    simp only [hphase, reduceCtorEq, if_false, if_true] at hflight hadmit
    simp only [inFlight, waiting] at hadmitted h hcount hflight hadmit ⊢
    omega
  | start client hphase =>
    obtain ⟨hflight, hadmit⟩ := counts_enter sys client .inFlight
    simp only [hphase, reduceCtorEq, if_false, if_true] at hflight hadmit
    simp only [inFlight, waiting] at h hflight hadmit ⊢
    omega
  | complete client hphase success now =>
    obtain ⟨hflight, hadmit⟩ := counts_enter sys client .idle
    simp only [hphase, reduceCtorEq, if_false, if_true] at hflight hadmit
    simp only [inFlight, waiting] at h hflight hadmit ⊢
    omega

/-- **The overshoot.** If never more than `k` clients were between the two calls, the limit is exceeded by
less than `k`. -/
theorem overshoot_le {past : List (ClientRecord ι)} {k : ℕ} (hmax : 1 ≤ config.maxInflight)
    (run : ClientRun config past sys) (hk : 1 ≤ k) (hadmitted : ∀ r ∈ past, waiting r.after ≤ k) :
    (inFlight sys + waiting sys : ℤ) ≤ config.maxInflight + k - 1 := by
  induction run with
  | start =>
    have hflight : inFlight (.init config : ClientSystem ι) = 0 := phaseCount_const _ _
    have hadmit : waiting (.init config : ClientSystem ι) = 0 := phaseCount_const _ _
    omega
  | next run call ih =>
    rw [List.forall_mem_cons] at hadmitted
    exact overshoot_move (counts_of_run hmax run) (clientStep_move _ call) hadmitted.1
      (ih hadmitted.2)

/-! ### Interleavings that fill the connection -/

/-- All clients of a set can be told yes, one after the other, before any of them starts. -/
theorem exists_run_admitted (hmax : 1 ≤ config.maxInflight) (clients : Finset ι) :
    ∃ past sys, ClientRun config past sys ∧ sys.res.state = .connected ∧
      sys.phase = fun c => if c ∈ clients then .admitted else .idle := by
  induction clients using Finset.induction_on with
  | empty => exact ⟨_, _, Run.start.next .markConnected, rfl, rfl⟩
  | insert client clients hnew ih =>
    obtain ⟨past, sys, run, hstate, hphase⟩ := ih
    have hidle : sys.phase client = .idle := by simp [hphase, hnew]
    -- nobody has started, so the counter is still 0
    have hflight : inFlight sys = 0 := by
      rw [inFlight, phaseCount, Finset.card_eq_zero, Finset.filter_eq_empty_iff]
      intro c _
      rw [hphase]
      dsimp only
      split <;> exact ClientPhase.noConfusion
    have hyes : natsResilienceCanAccept sys.res = true := by
      have hcounts := counts_of_run hmax run
      have hlimit := hcounts.limit_eq
      have hcount := hcounts.count_eq
      rw [natsResilienceCanAccept, if_neg (by omega), hstate]
      rfl
    have hstep : (clientStep sys (.canAccept client)).1 = { sys with phase := sys.enter client .admitted } := by
      rw [clientStep, if_pos hidle, if_pos hyes]
    refine ⟨_, _, run.next (.canAccept client), ?_, ?_⟩
    · rw [hstep]
      exact hstate
    · rw [hstep]
      show Function.update sys.phase client .admitted = _
      rw [hphase, update_insert]

/-- Then all of them can start. -/
theorem exists_run_inFlight (hmax : 1 ≤ config.maxInflight) (clients : Finset ι) :
    ∃ (past : List (ClientRecord ι)) (sys : ClientSystem ι), ClientRun config past sys ∧
      sys.phase = fun c => if c ∈ clients then .inFlight else .admitted := by
  induction clients using Finset.induction_on with
  | empty =>
    obtain ⟨past, sys, run, -, hphase⟩ := exists_run_admitted (ι := ι) hmax Finset.univ
    exact ⟨past, sys, run, by simp [hphase]⟩
  | insert client clients hnew ih =>
    obtain ⟨past, sys, run, hphase⟩ := ih
    have hadmitted : sys.phase client = .admitted := by simp [hphase, hnew]
    refine ⟨_, _, run.next (.requestStart client), ?_⟩
    rw [clientStep, if_pos hadmitted]
    show Function.update sys.phase client .inFlight = _
    rw [hphase, update_insert]

/-- Some interleaving has a request of every client in flight at once. -/
theorem exists_run_all_inFlight (ι : Type u) [DecidableEq ι] [Fintype ι] (hmax : 1 ≤ config.maxInflight) :
    ∃ (past : List (ClientRecord ι)) (sys : ClientSystem ι), ClientRun config past sys ∧
      inFlight sys = Fintype.card ι := by
  obtain ⟨past, sys, run, hphase⟩ := exists_run_inFlight (ι := ι) hmax Finset.univ
  refine ⟨past, sys, run, ?_⟩
  have hall : sys.phase = fun _ => .inFlight := by simp [hphase]
  rw [inFlight, hall, phaseCount_const, if_pos rfl]

end System

/-- **The limit under concurrency.** For a limit of at least 1 the number of requests in flight stays
within it in every interleaving if and only if there are no more clients than that. In an interleaving with
never more than `k` clients between asking and starting it is exceeded by less than `k`, so that it holds
where a client asks and starts without another one asking in between. -/
theorem inFlight_bound_iff (ι : Type u) [DecidableEq ι] [Fintype ι] (config : NatsResilienceConfig)
    (hmax : 1 ≤ config.maxInflight) :
    ((∀ (past : List (ClientRecord ι)) (sys : ClientSystem ι), ClientRun config past sys →
        (inFlight sys : ℤ) ≤ config.maxInflight) ↔ (Fintype.card ι : ℤ) ≤ config.maxInflight) ∧
      ∀ (past : List (ClientRecord ι)) (sys : ClientSystem ι) (k : ℕ), ClientRun config past sys →
        1 ≤ k → (∀ r ∈ past, waiting r.after ≤ k) →
          (inFlight sys : ℤ) ≤ config.maxInflight + (k - 1) := by
  refine ⟨⟨?_, ?_⟩, ?_⟩
  · intro hall
    obtain ⟨past, sys, run, hflight⟩ := exists_run_all_inFlight ι hmax
    rw [← hflight]
    exact hall past sys run
  · intro hcard past sys _
    have hle : inFlight sys ≤ Fintype.card ι := phaseCount_le_card ..
    omega
  · intro past sys k run hk hadmitted
    have := overshoot_le hmax run hk hadmitted
    omega

/-- Two clients that take turns, on a connection for one request at a time. -/
theorem inFlight_bound_turns :
    (inFlight (exec clientStep (.init ⟨1, 1, 8, 2, 0⟩ : ClientSystem (Fin 2))
      [.markConnected, .canAccept 0, .requestStart 0, .requestComplete 0 true 5, .canAccept 1,
        .requestStart 1]).2 : ℤ) ≤ 1 := by
  refine (inFlight_bound_iff (Fin 2) ⟨1, 1, 8, 2, 0⟩ (by decide)).2 _ _ 1 (run_exec _ _ _)
    le_rfl ?_
  decide

/-- Both ask before either starts, both are told yes, and two requests are in flight where one is the
limit. -/
theorem inFlight_exceeds :
    let calls : List (ClientCall (Fin 2)) :=
      [.markConnected, .canAccept 0, .canAccept 1, .requestStart 0, .requestStart 1]
    let sys := (exec clientStep (.init ⟨1, 1, 8, 2, 0⟩) calls).2
    ClientRun ⟨1, 1, 8, 2, 0⟩ (exec clientStep (.init ⟨1, 1, 8, 2, 0⟩) calls).1 sys ∧
      inFlight sys = 2 ∧ sys.res.inflightCount = 2 ∧ sys.res.config.maxInflight = 1 :=
  ⟨run_exec _ _ _, by decide, by decide, by decide⟩

end CGateway
