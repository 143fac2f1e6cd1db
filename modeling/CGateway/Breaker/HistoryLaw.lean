import CGateway.Breaker.CircuitBreaker

/-! # The circuit breaker read off its history

The breaker keeps counters; its users think in histories ("three failures in a row", "a second since
it opened"). This module says what the counters mean: in every run each counter that decides a
transition equals a quantity of the history, so the transitions follow a law stated on the history
alone (`BreakerLaw`).

* `failureStreak`, `successesSinceHalfOpen`, `openedAt` — the three readings of a history;
* `BreakerInv` — the counters are these readings, state by state;
* `circuitBreaker_history_law` — every step of every run obeys the law. -/

namespace CGateway

open Machine BreakerCall CbState

/-! ### Readings of a history -/

/-- The step enters CLOSED: it comes from another state, or it is a reset. -/
def BreakerRecord.EntersClosed (r : BreakerRecord) : Prop :=
  r.after.state = stateClosed ∧ (r.before.state ≠ stateClosed ∨ r.input.IsReset)

/-- The step enters the given state from another one. -/
def BreakerRecord.Enters (r : BreakerRecord) (target : CbState) : Prop :=
  r.after.state = target ∧ r.before.state ≠ target

instance (c : BreakerCall) : Decidable c.IsReset :=
  match c with
  | .reset now => isTrue ⟨now, rfl⟩
  | .allowRequest _ _ => isFalse (by rintro ⟨_, h⟩; cases h)
  | .onSuccess _ => isFalse (by rintro ⟨_, h⟩; cases h)
  | .onFailure _ => isFalse (by rintro ⟨_, h⟩; cases h)

instance (c : BreakerCall) : Decidable c.IsFailure :=
  match c with
  | .onFailure now => isTrue ⟨now, rfl⟩
  | .allowRequest _ _ => isFalse (by rintro ⟨_, h⟩; cases h)
  | .onSuccess _ => isFalse (by rintro ⟨_, h⟩; cases h)
  | .reset _ => isFalse (by rintro ⟨_, h⟩; cases h)

instance (c : BreakerCall) : Decidable c.IsSuccess :=
  match c with
  | .onSuccess now => isTrue ⟨now, rfl⟩
  | .allowRequest _ _ => isFalse (by rintro ⟨_, h⟩; cases h)
  | .onFailure _ => isFalse (by rintro ⟨_, h⟩; cases h)
  | .reset _ => isFalse (by rintro ⟨_, h⟩; cases h)

instance (r : BreakerRecord) : Decidable r.EntersClosed :=
  inferInstanceAs (Decidable (_ ∧ _))

instance (r : BreakerRecord) (target : CbState) : Decidable (r.Enters target) :=
  inferInstanceAs (Decidable (_ ∧ _))

/-- Failures reported since the later of the last success and the last entry to CLOSED. -/
def failureStreak : List BreakerRecord → ℕ
  | [] => 0
  | r :: past =>
      if r.EntersClosed then 0
      else match r.input with
        | .onSuccess _ => 0
        | .onFailure _ => failureStreak past + 1
        | _ => failureStreak past

/-- Successes reported since HALF_OPEN was last entered. -/
def successesSinceHalfOpen : List BreakerRecord → ℕ
  | [] => 0
  | r :: past =>
      if r.Enters stateHalfOpen then 0
      else match r.input with
        | .onSuccess _ => successesSinceHalfOpen past + 1
        | _ => successesSinceHalfOpen past

/-- The reading at which OPEN was last entered. -/
def openedAt : List BreakerRecord → Option UInt64
  | [] => none
  | r :: past => if r.Enters stateOpen then some r.input.dated else openedAt past

/-- All clock readings of a history, the latest first. -/
def clockOf (past : List BreakerRecord) : List UInt64 := past.flatMap (·.input.readings)

/-- The opening is dated with one of the readings of the history. -/
theorem openedAt_mem_clockOf {past : List BreakerRecord} {t : UInt64} (h : openedAt past = some t) :
    t ∈ clockOf past := by
  induction past with
  | nil => simp [openedAt] at h
  | cons r past ih =>
    rw [openedAt] at h
    simp only [clockOf, List.flatMap_cons, List.mem_append]
    split at h
    · left
      obtain rfl : r.input.dated = t := by simpa using h
      cases r.input <;> simp [readings, dated]
    · exact Or.inr (ih h)

/-! ### The law -/

/-- **The history law of one step.** With `past` before it, the call `c` takes the breaker from `s`
to `s'` and answers `out`; all that decides the transition is in `past` and in the readings. -/
structure BreakerLaw (config : CbConfig) (past : List BreakerRecord) (s : CircuitBreaker)
    (c : BreakerCall) (out : Option Bool) (s' : CircuitBreaker) : Prop where
  /-- CLOSED turns OPEN exactly at the failure that completes the streak. -/
  closed_to_open : s.state = stateClosed →
    (s'.state = stateOpen ↔ c.IsFailure ∧ failureStreak past + 1 = config.failureThreshold.toNat)
  /-- While OPEN there is an opening, and no request is admitted before the timeout. -/
  open_rejects : s.state = stateOpen → ∃ t, openedAt past = some t ∧ ∀ now later,
    c = allowRequest now later → now.toNat < t.toNat + config.timeoutMs.toNat →
      out = some false ∧ s'.state = stateOpen
  /-- The first admission request once the timeout has passed is admitted and turns HALF_OPEN. -/
  open_to_halfOpen : s.state = stateOpen → ∃ t, openedAt past = some t ∧ ∀ now later,
    c = allowRequest now later → t.toNat + config.timeoutMs.toNat ≤ now.toNat →
      out = some true ∧ s'.state = stateHalfOpen
  /-- Outcomes reported late, in OPEN, change no state. -/
  open_late : s.state = stateOpen → c.IsSuccess ∨ c.IsFailure → s'.state = stateOpen
  /-- HALF_OPEN turns CLOSED exactly at the success that completes the threshold (or at a reset). -/
  halfOpen_to_closed : s.state = stateHalfOpen →
    (s'.state = stateClosed ↔
      (c.IsSuccess ∧ successesSinceHalfOpen past + 1 = config.successThreshold.toNat) ∨ c.IsReset)
  /-- HALF_OPEN turns OPEN exactly at a failure. -/
  halfOpen_to_open : s.state = stateHalfOpen → (s'.state = stateOpen ↔ c.IsFailure)
  /-- A reset closes the breaker from any state. -/
  reset_closes : c.IsReset → s'.state = stateClosed
  /-- No other transition happens. -/
  no_other : s'.state ≠ s.state → c.IsReset ∨
    (s.state = stateClosed ∧ s'.state = stateOpen ∧ c.IsFailure) ∨
    (s.state = stateOpen ∧ s'.state = stateHalfOpen ∧ c.IsAllow) ∨
    (s.state = stateHalfOpen ∧ s'.state = stateClosed ∧ c.IsSuccess) ∨
    (s.state = stateHalfOpen ∧ s'.state = stateOpen ∧ c.IsFailure)

/-! ### The counters are the readings -/

/-- The invariant: in each state, the counter that decides the next transition is the reading of the
history that the law speaks about, and it is below its threshold. -/
structure BreakerInv (config : CbConfig) (past : List BreakerRecord) (s : CircuitBreaker) :
    Prop where
  config_eq : s.config = config
  closed : s.state = stateClosed → s.consecutiveFailures.toNat = failureStreak past ∧
    s.consecutiveFailures.toNat < config.failureThreshold.toNat
  halfOpen : s.state = stateHalfOpen →
    s.consecutiveSuccesses.toNat = successesSinceHalfOpen past ∧
    s.consecutiveSuccesses.toNat < config.successThreshold.toNat
  opened : s.state = stateOpen → openedAt past = some s.stateChangedAtMs

section Preservation

variable {config : CbConfig} {past : List BreakerRecord} {s : CircuitBreaker}

/-- What the invariant asks of a closed breaker. -/
theorem BreakerInv.of_closed (hcfg : s.config = config) (hs : s.state = stateClosed)
    (hstreak : s.consecutiveFailures.toNat = failureStreak past)
    (hlt : s.consecutiveFailures.toNat < config.failureThreshold.toNat) : BreakerInv config past s := by
  refine ⟨hcfg, fun _ => ⟨hstreak, hlt⟩, fun h => ?_, fun h => ?_⟩ <;> cases hs.symm.trans h

/-- What the invariant asks of an open breaker. -/
theorem BreakerInv.of_open (hcfg : s.config = config) (hs : s.state = stateOpen)
    (hopen : openedAt past = some s.stateChangedAtMs) : BreakerInv config past s := by
  refine ⟨hcfg, fun h => ?_, fun h => ?_, fun _ => hopen⟩ <;> cases hs.symm.trans h

/-- What the invariant asks of a half-open breaker. -/
theorem BreakerInv.of_halfOpen (hcfg : s.config = config) (hs : s.state = stateHalfOpen)
    (hsince : s.consecutiveSuccesses.toNat = successesSinceHalfOpen past)
    (hlt : s.consecutiveSuccesses.toNat < config.successThreshold.toNat) : BreakerInv config past s := by
  refine ⟨hcfg, fun h => ?_, fun _ => ⟨hsince, hlt⟩, fun h => ?_⟩ <;> cases hs.symm.trans h

section Steps

variable (hf : 1 ≤ config.failureThreshold.toNat) (inv : BreakerInv config past s)
include hf inv

/-- A reset keeps the invariant, from any state. -/
theorem BreakerInv.step_reset (now : UInt64) :
    BreakerInv config (recordOf breakerStep s (.reset now) :: past)
      (breakerStep s (.reset now)).1 := by
  rw [recordOf, breakerStep_reset]
  refine .of_closed inv.config_eq rfl ?_ hf
  simp [failureStreak, BreakerRecord.EntersClosed, CircuitBreaker.transitionToClosed, IsReset]

/-- A step out of CLOSED keeps the invariant. -/
theorem BreakerInv.step_closed (hs : s.state = stateClosed) (c : BreakerCall) :
    BreakerInv config (recordOf breakerStep s c :: past) (breakerStep s c).1 := by
  obtain ⟨hstreak, hlt⟩ := inv.closed hs
  have hcfg := inv.config_eq
  cases c with
  | allowRequest now later =>
    rw [recordOf, breakerStep_allow_closed s hs]
    refine .of_closed hcfg hs ?_ hlt
    simpa [failureStreak, BreakerRecord.EntersClosed, hs, IsReset] using hstreak
  | onSuccess now =>
    rw [recordOf, breakerStep_success_other s (by rw [hs]; decide)]
    refine .of_closed hcfg hs ?_ hf
    simp [failureStreak]
  | onFailure now =>
    have hsucc := toNat_succ_of_lt hlt
    rw [recordOf, breakerStep_failure_closed s hs]
    split
    · -- The streak is complete, and the opening is dated with this reading.
      refine .of_open hcfg rfl ?_
      simp [openedAt, BreakerRecord.Enters, CircuitBreaker.transitionToOpen, hs, dated]
    · -- The streak goes on below the threshold.
      rename_i hge
      rw [hcfg, ge_iff_le, UInt32.le_iff_toNat_le, hsucc, not_le] at hge
      refine .of_closed hcfg hs ?_ (hsucc ▸ hge)
      simpa [failureStreak, BreakerRecord.EntersClosed, hs, IsReset, hsucc] using hstreak
  | reset now => exact inv.step_reset hf now

/-- A step out of OPEN keeps the invariant. -/
theorem BreakerInv.step_open (hth : 1 ≤ config.successThreshold.toNat) (hs : s.state = stateOpen)
    (c : BreakerCall) : BreakerInv config (recordOf breakerStep s c :: past) (breakerStep s c).1 := by
  have hopen := inv.opened hs
  have hcfg := inv.config_eq
  cases c with
  | allowRequest now later =>
    rw [recordOf, breakerStep_allow_open s hs]
    split
    · refine .of_halfOpen hcfg rfl ?_ hth
      simp [successesSinceHalfOpen, BreakerRecord.Enters, CircuitBreaker.transitionToHalfOpen, hs]
    · refine .of_open hcfg hs ?_
      simpa [openedAt, BreakerRecord.Enters, hs] using hopen
  -- Late outcomes move counters, which mean nothing here: the next entry to a state clears them.
  | onSuccess now =>
    rw [recordOf, breakerStep_success_other s (by rw [hs]; decide)]
    refine .of_open hcfg hs ?_
    simpa [openedAt, BreakerRecord.Enters, hs] using hopen
  | onFailure now =>
    rw [recordOf, breakerStep_failure_open s hs]
    refine .of_open hcfg hs ?_
    simpa [openedAt, BreakerRecord.Enters, hs] using hopen
  | reset now => exact inv.step_reset hf now

/-- A step out of HALF_OPEN keeps the invariant. -/
theorem BreakerInv.step_halfOpen (hs : s.state = stateHalfOpen) (c : BreakerCall) :
    BreakerInv config (recordOf breakerStep s c :: past) (breakerStep s c).1 := by
  obtain ⟨hsince, hlt⟩ := inv.halfOpen hs
  have hcfg := inv.config_eq
  cases c with
  | allowRequest now later =>
    rw [recordOf, breakerStep_allow_halfOpen s hs]
    split
    all_goals
      refine .of_halfOpen hcfg hs ?_ hlt
      simpa [successesSinceHalfOpen, BreakerRecord.Enters, hs] using hsince
  | onSuccess now =>
    have hsucc := toNat_succ_of_lt hlt
    rw [recordOf, breakerStep_success_halfOpen s hs]
    split
    · refine .of_closed hcfg rfl ?_ hf
      simp [failureStreak, BreakerRecord.EntersClosed, CircuitBreaker.transitionToClosed, hs]
    · rename_i hge
      rw [hcfg, ge_iff_le, UInt32.le_iff_toNat_le, hsucc, not_le] at hge
      refine .of_halfOpen hcfg hs ?_ (hsucc ▸ hge)
      simpa [successesSinceHalfOpen, BreakerRecord.Enters, hs, hsucc] using hsince
  | onFailure now =>
    rw [recordOf, breakerStep_failure_halfOpen s hs]
    refine .of_open hcfg rfl ?_
    simp [openedAt, BreakerRecord.Enters, CircuitBreaker.transitionToOpen, hs, dated]
  | reset now => exact inv.step_reset hf now

end Steps

/-- **The invariant holds in every run.** -/
theorem breakerInv_of_run (hf : 1 ≤ config.failureThreshold.toNat)
    (hth : 1 ≤ config.successThreshold.toNat) {t₀ : UInt64} (h : BreakerRun config t₀ past s) :
    BreakerInv config past s := by
  refine Run.invariant (P := BreakerInv config) ?_ ?_ h
  · exact .of_closed rfl rfl rfl hf
  · intro past s c inv
    cases hs : s.state with
    | stateClosed => exact inv.step_closed hf hs c
    | stateOpen => exact inv.step_open hf hth hs c
    | stateHalfOpen => exact inv.step_halfOpen hf hs c

end Preservation

/-! ### Every step obeys the law -/

section Law

variable {config : CbConfig} {past : List BreakerRecord} {s : CircuitBreaker}

/-- From CLOSED only the completing failure leads away, and it leads to OPEN. -/
theorem BreakerInv.step_closed_state (inv : BreakerInv config past s) (hs : s.state = stateClosed)
    (c : BreakerCall) :
    (breakerStep s c).1.state =
      if c.IsFailure ∧ failureStreak past + 1 = config.failureThreshold.toNat then stateOpen
      else stateClosed := by
  obtain ⟨hstreak, hlt⟩ := inv.closed hs
  cases c with
  | allowRequest now later => simp [breakerStep_allow_closed s hs, hs, IsFailure]
  | onSuccess now =>
    rw [breakerStep_success_other s (by rw [hs]; decide)]
    simp [hs, IsFailure]
  | reset now => simp [breakerStep_reset, CircuitBreaker.transitionToClosed, IsFailure]
  | onFailure now =>
    -- The counter has not reached the threshold before, so reaching it is equality.
    have hge : s.consecutiveFailures + 1 ≥ s.config.failureThreshold ↔
        failureStreak past + 1 = config.failureThreshold.toNat := by
      rw [inv.config_eq, ge_iff_le, UInt32.le_iff_toNat_le, toNat_succ_of_lt hlt]
      omega
    rw [breakerStep_failure_closed s hs]
    by_cases h : failureStreak past + 1 = config.failureThreshold.toNat
    · simp [hge.mpr h, h, CircuitBreaker.transitionToOpen, IsFailure]
    · simp [mt hge.mp h, h, hs]

/-- From HALF_OPEN a failure leads to OPEN, the completing success or a reset to CLOSED. -/
theorem BreakerInv.step_halfOpen_state (inv : BreakerInv config past s)
    (hs : s.state = stateHalfOpen) (c : BreakerCall) :
    (breakerStep s c).1.state =
      if c.IsFailure then stateOpen
      else if (c.IsSuccess ∧ successesSinceHalfOpen past + 1 = config.successThreshold.toNat) ∨
        c.IsReset then stateClosed
      else stateHalfOpen := by
  obtain ⟨hsince, hlt⟩ := inv.halfOpen hs
  cases c with
  | allowRequest now later =>
    rw [breakerStep_allow_halfOpen s hs]
    split <;> simp [hs, IsFailure, IsSuccess, IsReset]
  | onFailure now =>
    simp [breakerStep_failure_halfOpen s hs, CircuitBreaker.transitionToOpen, IsFailure]
  | reset now => simp [breakerStep_reset, CircuitBreaker.transitionToClosed, IsFailure, IsReset]
  | onSuccess now =>
    have hge : s.consecutiveSuccesses + 1 ≥ s.config.successThreshold ↔
        successesSinceHalfOpen past + 1 = config.successThreshold.toNat := by
      rw [inv.config_eq, ge_iff_le, UInt32.le_iff_toNat_le, toNat_succ_of_lt hlt]
      omega
    rw [breakerStep_success_halfOpen s hs]
    by_cases h : successesSinceHalfOpen past + 1 = config.successThreshold.toNat
    · simp [hge.mpr h, h, CircuitBreaker.transitionToClosed, IsFailure, IsSuccess]
    · simp [mt hge.mp h, h, hs, IsFailure, IsReset]

/-- From OPEN an admission request is decided by the time since the opening. -/
theorem BreakerInv.step_open_allow (inv : BreakerInv config past s) (hs : s.state = stateOpen)
    (now later : UInt64) {t : UInt64} (ht : openedAt past = some t) (hle : t ≤ now) :
    ((breakerStep s (allowRequest now later)).1.state, (breakerStep s (allowRequest now later)).2) =
      if t.toNat + config.timeoutMs.toNat ≤ now.toNat then (stateHalfOpen, some true)
      else (stateOpen, some false) := by
  obtain rfl : s.stateChangedAtMs = t := by simpa [inv.opened hs] using ht
  -- No wraparound in `now - state_changed_at_ms`, as the clock does not go back.
  have helapsed : now - s.stateChangedAtMs ≥ s.config.timeoutMs.toUInt64 ↔
      s.stateChangedAtMs.toNat + config.timeoutMs.toNat ≤ now.toNat := by
    rw [inv.config_eq, ge_iff_le, UInt64.le_iff_toNat_le, UInt64.toNat_sub_of_le _ _ hle, UInt32.toNat_toUInt64]
    have := UInt64.le_iff_toNat_le.mp hle
    omega
  rw [breakerStep_allow_open s hs]
  by_cases h : s.stateChangedAtMs.toNat + config.timeoutMs.toNat ≤ now.toNat
  · simp [helapsed.mpr h, h, CircuitBreaker.transitionToHalfOpen]
  · simp [mt helapsed.mp h, h, hs]

/-- From OPEN a reported outcome changes no state. -/
theorem breakerStep_open_late (hs : s.state = stateOpen) {c : BreakerCall}
    (hc : c.IsSuccess ∨ c.IsFailure) : (breakerStep s c).1.state = stateOpen := by
  obtain ⟨now, rfl⟩ | ⟨now, rfl⟩ := hc
  · rw [breakerStep_success_other s (by rw [hs]; decide), hs]
  · rw [breakerStep_failure_open s hs, hs]

/-- In a non-decreasing clock an opening is not later than the reading of the next call. -/
theorem openedAt_le_now {now later t : UInt64} (ht : openedAt past = some t)
    (hclock : ((allowRequest now later).readings ++ clockOf past).Pairwise (· ≥ ·)) : t ≤ now :=
  (List.pairwise_append.mp hclock).2.2 now (by simp [readings]) t (openedAt_mem_clockOf ht)

/-- **The history law of the circuit breaker.** In every run of a breaker whose thresholds are at
least one, under a clock that does not go back, every call obeys `BreakerLaw`. -/
theorem circuitBreaker_history_law (config : CbConfig) (t₀ : UInt64)
    (hf : 1 ≤ config.failureThreshold.toNat) (hth : 1 ≤ config.successThreshold.toNat)
    (past : List BreakerRecord) (s : CircuitBreaker) (hrun : BreakerRun config t₀ past s)
    (c : BreakerCall) (hclock : (c.readings ++ clockOf past).Pairwise (· ≥ ·)) :
    BreakerLaw config past s c (breakerStep s c).2 (breakerStep s c).1 := by
  have inv := breakerInv_of_run hf hth hrun
  -- One goal for each clause of the law; the state before the call selects the lemma.
  refine ⟨fun hs => ?_, fun hs => ?_, fun hs => ?_, fun hs => breakerStep_open_late hs,
    fun hs => ?_, fun hs => ?_, ?_, fun hne => ?_⟩
  · rw [inv.step_closed_state hs]
    split <;> simp_all
  · refine ⟨s.stateChangedAtMs, inv.opened hs, ?_⟩
    rintro now later rfl hlt
    have h := inv.step_open_allow hs now later (inv.opened hs)
      (openedAt_le_now (inv.opened hs) hclock)
    rw [if_neg (not_le.mpr hlt), Prod.mk.injEq] at h
    exact ⟨h.2, h.1⟩
  · refine ⟨s.stateChangedAtMs, inv.opened hs, ?_⟩
    rintro now later rfl hle
    have h := inv.step_open_allow hs now later (inv.opened hs)
      (openedAt_le_now (inv.opened hs) hclock)
    rw [if_pos hle, Prod.mk.injEq] at h
    exact ⟨h.2, h.1⟩
  · rw [inv.step_halfOpen_state hs]
    by_cases hfail : c.IsFailure
    · obtain ⟨now, rfl⟩ := hfail
      simp [IsFailure, IsSuccess, IsReset]
    · rw [if_neg hfail]
      split <;> simp_all
  · rw [inv.step_halfOpen_state hs]
    split
    · simp_all
    · split <;> simp_all
  · rintro ⟨now, rfl⟩
    rfl
  · cases hs : s.state with
    | stateClosed =>
        rw [inv.step_closed_state hs] at hne ⊢
        split at hne <;> simp_all
    | stateOpen =>
        cases c with
        | allowRequest now later =>
            rw [breakerStep_allow_open s hs] at hne ⊢
            split at hne <;> simp_all [CircuitBreaker.transitionToHalfOpen, IsAllow]
        | onSuccess now => exact absurd (breakerStep_open_late hs (.inl ⟨now, rfl⟩)) (hs ▸ hne)
        | onFailure now => exact absurd (breakerStep_open_late hs (.inr ⟨now, rfl⟩)) (hs ▸ hne)
        | reset now => exact .inl ⟨now, rfl⟩
    | stateHalfOpen =>
        rw [inv.step_halfOpen_state hs] at hne ⊢
        split at hne
        · simp_all
        · split at hne <;> simp_all
          rename_i h
          rcases h with h | h <;> simp [h]

/-- A breaker that opens at its second failure in a row, and the history of that opening. -/
def openedExample : List BreakerRecord × CircuitBreaker :=
  exec breakerStep (CircuitBreaker.create ⟨2, 1, 100, 1⟩ 0)
    [onFailure 10, onSuccess 20, onFailure 30, allowRequest 40 40, onFailure 50]

/-- The law at the first request after the timeout of `openedExample`. -/
theorem circuitBreaker_history_law_openedExample :
    openedExample.2.state = stateOpen ∧ openedAt openedExample.1 = some 50 ∧
      BreakerLaw ⟨2, 1, 100, 1⟩ openedExample.1 openedExample.2 (allowRequest 150 151)
        (some true) (openedExample.2.transitionToHalfOpen 151) :=
  ⟨by decide, by decide, circuitBreaker_history_law ⟨2, 1, 100, 1⟩ 0 (by decide) (by decide)
    openedExample.1 openedExample.2 (run_exec _ _ _) (allowRequest 150 151) (by decide)⟩

end Law

end CGateway
