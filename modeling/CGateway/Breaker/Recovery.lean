import Mathlib.Logic.Relation
import CGateway.Breaker.ProbeCap

/-! # When an open breaker can close again

HALF_OPEN has no timeout: the breaker leaves it by a failure or by `success_threshold` successes, and a
period admits `half_open_max_calls + 1` requests. If these do not reach the threshold together, a
period whose requests have all succeeded admits nothing more, and no outcome is left to report.

* `ServedBreaker` — a breaker with the number of admitted requests that are still unanswered;
* `Continues` — what can happen next without a reset: time passes, a request arrives, or an
  unanswered request is reported as a success or a failure;
* `Recovers` — some continuation closes the breaker, and it does not refuse every request for ever;
* `alwaysRecovers_iff` — every reachable state recovers exactly when the threshold is at most the number of
  requests a HALF_OPEN period admits. -/

namespace CGateway

open Machine BreakerCall CbState

/-! ### Requests and their outcomes -/

/-- A breaker and the number of admitted requests whose outcome has not been reported. -/
structure ServedBreaker where
  breaker : CircuitBreaker
  unanswered : ℕ

/-- The unanswered requests after a call with that answer. -/
def unansweredAfter (n : ℕ) : BreakerCall → Option Bool → ℕ
  | .allowRequest _ _, some true => n + 1
  | .onSuccess _, _ | .onFailure _, _ => n - 1
  | _, _ => n

/-- One call on the breaker, with the requests it admits or answers. -/
def servedStep (s : ServedBreaker) (c : BreakerCall) : ServedBreaker × Option Bool :=
  (⟨(breakerStep s.breaker c).1, unansweredAfter s.unanswered c (breakerStep s.breaker c).2⟩,
    (breakerStep s.breaker c).2)

/-- A run of any calls, resets and unsolicited reports included, from a new breaker. -/
abbrev ServedRun (config : CbConfig) (t₀ : UInt64) :
    List (Record ServedBreaker BreakerCall (Option Bool)) → ServedBreaker → Prop :=
  Run servedStep ⟨CircuitBreaker.create config t₀, 0⟩

/-! ### Continuations -/

/-- A breaker at a time, in milliseconds. -/
structure Moment where
  clock : ℕ
  served : ServedBreaker

/-- What the clock shows. -/
def Moment.reading (m : Moment) : UInt64 := UInt64.ofNat m.clock

/-- The moment after a call that takes no time. -/
def Moment.call (m : Moment) (c : BreakerCall) : Moment := ⟨m.clock, (servedStep m.served c).1⟩

/-- One step of a continuation: time passes, a request arrives, or an admitted request is answered.
There is no reset, and an outcome is only reported for a request that was admitted; the second clock
reading of a request may be later than the first. -/
inductive Continues : Moment → Moment → Prop
  | wait (m : Moment) (d : ℕ) : Continues m ⟨m.clock + d, m.served⟩
  | request (m : Moment) (d : ℕ) : Continues m
      ⟨m.clock + d, (servedStep m.served (.allowRequest m.reading (UInt64.ofNat (m.clock + d)))).1⟩
  | succeed (m : Moment) (h : 0 < m.served.unanswered) : Continues m (m.call (.onSuccess m.reading))
  | fail (m : Moment) (h : 0 < m.served.unanswered) : Continues m (m.call (.onFailure m.reading))

/-- Finitely many steps. -/
abbrev Continuation : Moment → Moment → Prop := Relation.ReflTransGen Continues

/-- A request that arrives at this moment is admitted. -/
def Moment.Admits (m : Moment) : Prop :=
  (servedStep m.served (.allowRequest m.reading m.reading)).2 = some true

/-- From here on every request is refused, whatever happens. -/
def RejectsForEver (m : Moment) : Prop := ∀ m', Continuation m m' → ¬ m'.Admits

/-- Some continuation closes the breaker, so that requests are admitted again, and it does not refuse
every request for ever. -/
def Recovers (m : Moment) : Prop :=
  (∃ m', Continuation m m' ∧ m'.served.breaker.state = stateClosed ∧ m'.Admits) ∧ ¬ RejectsForEver m

/-! ### Probing -/

/-- The breaker is in HALF_OPEN, with its two counters and the unanswered requests. -/
structure Probing (config : CbConfig) (calls successes unanswered : ℕ) (s : ServedBreaker) : Prop where
  config_eq : s.breaker.config = config
  state_eq : s.breaker.state = stateHalfOpen
  calls_eq : s.breaker.halfOpenCalls.toNat = calls
  successes_eq : s.breaker.consecutiveSuccesses.toNat = successes
  unanswered_eq : s.unanswered = unanswered

section Probing

variable {config : CbConfig} {calls successes unanswered : ℕ} {s : ServedBreaker}

section Counters

variable (p : Probing config calls successes unanswered s)
include p

/-- A request below the cap is admitted. -/
theorem Probing.request (h : calls < config.halfOpenMaxCalls.toNat) (now later : UInt64) :
    Probing config (calls + 1) successes (unanswered + 1)
      (servedStep s (.allowRequest now later)).1 := by
  have hlt : s.breaker.halfOpenCalls.toNat < s.breaker.config.halfOpenMaxCalls.toNat := by
    rw [p.calls_eq, p.config_eq]
    exact h
  have hstep := breakerStep_allow_halfOpen s.breaker p.state_eq now later
  rw [if_pos (UInt32.lt_iff_toNat_lt.mpr hlt)] at hstep
  rw [servedStep, hstep]
  refine ⟨p.config_eq, p.state_eq, ?_, p.successes_eq, ?_⟩
  · rw [toNat_succ_of_lt hlt, p.calls_eq]
  · rw [unansweredAfter, p.unanswered_eq]

/-- A request at the cap is refused. -/
theorem Probing.refuse (h : config.halfOpenMaxCalls.toNat ≤ calls) (now later : UInt64) :
    (servedStep s (.allowRequest now later)).2 = some false ∧
      Probing config calls successes unanswered (servedStep s (.allowRequest now later)).1 := by
  have hge : ¬ s.breaker.halfOpenCalls < s.breaker.config.halfOpenMaxCalls := by
    rw [UInt32.lt_iff_toNat_lt, p.calls_eq, p.config_eq]
    omega
  have hstep := breakerStep_allow_halfOpen s.breaker p.state_eq now later
  rw [if_neg hge] at hstep
  rw [servedStep, hstep]
  exact ⟨rfl, p.config_eq, p.state_eq, p.calls_eq, p.successes_eq, p.unanswered_eq⟩

/-- A success below the threshold is counted, ... -/
theorem Probing.succeed (h : successes + 1 < config.successThreshold.toNat) (now : UInt64) :
    Probing config calls (successes + 1) (unanswered - 1) (servedStep s (.onSuccess now)).1 := by
  have hlt : s.breaker.consecutiveSuccesses.toNat < s.breaker.config.successThreshold.toNat := by
    rw [p.successes_eq, p.config_eq]
    omega
  have hsucc := toNat_succ_of_lt hlt
  have hstep := breakerStep_success_halfOpen s.breaker p.state_eq now
  rw [if_neg (by rw [ge_iff_le, UInt32.le_iff_toNat_le, hsucc, p.successes_eq, p.config_eq]; omega)]
    at hstep
  rw [servedStep, hstep]
  refine ⟨p.config_eq, p.state_eq, p.calls_eq, ?_, ?_⟩
  · rw [hsucc, p.successes_eq]
  · rw [unansweredAfter, p.unanswered_eq]

/-- ... and the one that completes it closes the breaker. -/
theorem Probing.close (h : successes + 1 = config.successThreshold.toNat) (now : UInt64) :
    (servedStep s (.onSuccess now)).1.breaker.state = stateClosed := by
  have hlt : s.breaker.consecutiveSuccesses.toNat < s.breaker.config.successThreshold.toNat := by
    rw [p.successes_eq, p.config_eq]
    omega
  have hstep := breakerStep_success_halfOpen s.breaker p.state_eq now
  rw [if_pos (by rw [ge_iff_le, UInt32.le_iff_toNat_le, toNat_succ_of_lt hlt, p.successes_eq,
    p.config_eq]; omega)] at hstep
  rw [servedStep, hstep]
  rfl

end Counters

/-- An open breaker whose timeout has passed is probed by the next request. -/
theorem probing_of_open (hconfig : s.breaker.config = config) (hopen : s.breaker.state = stateOpen) {now : UInt64}
    (htime : now - s.breaker.stateChangedAtMs ≥ s.breaker.config.timeoutMs.toUInt64) (later : UInt64) :
    Probing config 0 0 (s.unanswered + 1) (servedStep s (.allowRequest now later)).1 := by
  have hstep := breakerStep_allow_open s.breaker hopen now later
  rw [if_pos htime] at hstep
  rw [servedStep, hstep]
  exact ⟨hconfig, rfl, rfl, rfl, rfl⟩

end Probing

/-! ### Recovery -/

/-- A closed breaker admits. -/
theorem admits_of_closed {m : Moment} (h : m.served.breaker.state = stateClosed) : m.Admits := by
  rw [Moment.Admits, servedStep, breakerStep_allow_closed _ h]

/-- A continuation that closes the breaker is all that recovery needs. -/
theorem recovers_of_closed {m m' : Moment} (h : Continuation m m')
    (hclosed : m'.served.breaker.state = stateClosed) : Recovers m := by
  have hadmits := admits_of_closed hclosed
  exact ⟨⟨m', h, hclosed, hadmits⟩, fun hrejects => hrejects m' h hadmits⟩

/-- A step does not stand in the way of recovery. -/
theorem Recovers.of_step {m m' : Moment} (hstep : Continues m m') (h : Recovers m') : Recovers m := by
  obtain ⟨⟨last, hlast, hclosed, _⟩, _⟩ := h
  exact recovers_of_closed (.head hstep hlast) hclosed

section Recovery

variable {config : CbConfig} {calls successes unanswered : ℕ} {s : ServedBreaker} {m m' : Moment}

/-- Enough unanswered requests close the breaker: they all succeed. -/
theorem recovers_of_unanswered (p : Probing config calls successes unanswered m.served)
    (hlt : successes < config.successThreshold.toNat)
    (henough : config.successThreshold.toNat ≤ unanswered + successes) : Recovers m := by
  -- By induction on the successes that are still missing.
  induction hmissing : config.successThreshold.toNat - successes generalizing successes unanswered m
    with
  | zero => omega
  | succ missing ih =>
    have hpos : 0 < m.served.unanswered := by
      rw [p.unanswered_eq]
      omega
    by_cases hlast : successes + 1 = config.successThreshold.toNat
    · exact recovers_of_closed (.single (.succeed m hpos)) (p.close hlast m.reading)
    · refine Recovers.of_step (.succeed m hpos) ?_
      exact ih (p.succeed (by omega) m.reading) (by omega) (by omega) (by omega)

/-- While a period has admitted no less than its cap allows, requests can be collected up to the cap. -/
theorem recovers_of_probing (p : Probing config calls successes unanswered m.served)
    (hthreshold : config.successThreshold.toNat ≤ config.halfOpenMaxCalls.toNat + 1)
    (hlt : successes < config.successThreshold.toNat) (hcalls : calls ≤ config.halfOpenMaxCalls.toNat)
    (hall : calls + 1 ≤ unanswered + successes) : Recovers m := by
  -- By induction on the distance to the cap.
  induction hroom : config.halfOpenMaxCalls.toNat - calls generalizing calls unanswered m with
  | zero => exact recovers_of_unanswered p hlt (by omega)
  | succ room ih =>
    refine Recovers.of_step (.request m 0) ?_
    exact ih (p.request (by omega) m.reading _) (by omega) (by omega) (by omega)

/-- At some time the timeout of an open breaker has passed. -/
theorem exists_wait (clock : ℕ) (changed timeout : UInt64) : ∃ d : ℕ, UInt64.ofNat (clock + d) - changed ≥ timeout := by
  refine ⟨(changed + timeout - UInt64.ofNat clock).toNat, ?_⟩
  have hreading : UInt64.ofNat (clock + (changed + timeout - UInt64.ofNat clock).toNat) - changed = timeout := by
    rw [UInt64.ofNat_add, UInt64.ofNat_toNat]
    grind
  rw [hreading]
  exact UInt64.le_refl timeout

/-- What HALF_OPEN keeps in every run: the counters are below their bounds, and every admission of the
period is unanswered or has been counted as a success. -/
structure RecoveryInv (config : CbConfig) (s : ServedBreaker) : Prop where
  config_eq : s.breaker.config = config
  halfOpen : s.breaker.state = stateHalfOpen →
    s.breaker.halfOpenCalls.toNat ≤ config.halfOpenMaxCalls.toNat ∧
      s.breaker.consecutiveSuccesses.toNat < config.successThreshold.toNat ∧
      s.breaker.halfOpenCalls.toNat + 1 ≤ s.unanswered + s.breaker.consecutiveSuccesses.toNat

/-- The invariant of a probing breaker, in numbers. -/
theorem RecoveryInv.of_probing (p : Probing config calls successes unanswered s)
    (hcalls : calls ≤ config.halfOpenMaxCalls.toNat) (hlt : successes < config.successThreshold.toNat)
    (hall : calls + 1 ≤ unanswered + successes) : RecoveryInv config s := by
  refine ⟨p.config_eq, fun _ => ?_⟩
  rw [p.calls_eq, p.successes_eq, p.unanswered_eq]
  exact ⟨hcalls, hlt, hall⟩

/-- A breaker in HALF_OPEN is probing. -/
theorem RecoveryInv.probing (inv : RecoveryInv config s) (h : s.breaker.state = stateHalfOpen) :
    Probing config s.breaker.halfOpenCalls.toNat s.breaker.consecutiveSuccesses.toNat s.unanswered s :=
  ⟨inv.config_eq, h, rfl, rfl, rfl⟩

/-- Outside HALF_OPEN there is nothing to keep. -/
theorem RecoveryInv.of_left (hconfig : s.breaker.config = config)
    (h : s.breaker.state ≠ stateHalfOpen) : RecoveryInv config s :=
  ⟨hconfig, fun h' => absurd h' h⟩

/-- No call changes the configuration. -/
theorem servedStep_config (s : ServedBreaker) (c : BreakerCall) :
    (servedStep s c).1.breaker.config = s.breaker.config := breakerStep_config s.breaker c

/-- HALF_OPEN is entered by a request that is admitted, from OPEN. -/
theorem RecoveryInv.enter (inv : RecoveryInv config s) (hpos : 0 < config.successThreshold.toNat)
    (hs : s.breaker.state ≠ stateHalfOpen) (c : BreakerCall) : RecoveryInv config (servedStep s c).1 := by
  have hconfig : (servedStep s c).1.breaker.config = config := by
    rw [servedStep_config, inv.config_eq]
  by_cases h : (servedStep s c).1.breaker.state = stateHalfOpen
  · obtain ⟨htrue, _⟩ := breakerStep_enters_halfOpen hs h
    cases c with
    | allowRequest now later =>
      cases hst : s.breaker.state with
      | stateHalfOpen => exact absurd hst hs
      | stateClosed => simp [servedStep, breakerStep_allow_closed s.breaker hst, hst] at h
      | stateOpen =>
        by_cases htime : now - s.breaker.stateChangedAtMs ≥ s.breaker.config.timeoutMs.toUInt64
        · exact .of_probing (probing_of_open inv.config_eq hst htime later) (by omega) hpos
            (by omega)
        · simp [servedStep, breakerStep_allow_open s.breaker hst, htime, hst] at h
    -- No other call returns `true`.
    | _ => cases htrue
  · exact .of_left hconfig h

/-- A call in HALF_OPEN keeps the invariant or leaves the state. -/
theorem RecoveryInv.within (inv : RecoveryInv config s) (hs : s.breaker.state = stateHalfOpen)
    (c : BreakerCall) : RecoveryInv config (servedStep s c).1 := by
  have p := inv.probing hs
  obtain ⟨hcalls, hlt, hall⟩ := inv.halfOpen hs
  cases c with
  | allowRequest now later =>
    by_cases hroom : s.breaker.halfOpenCalls.toNat < config.halfOpenMaxCalls.toNat
    · exact .of_probing (p.request hroom now later) (by omega) hlt (by omega)
    · exact .of_probing (p.refuse (by omega) now later).2 hcalls hlt hall
  | onSuccess now =>
    -- The last success that was missing closes the breaker, an earlier one is counted.
    by_cases hlast : s.breaker.consecutiveSuccesses.toNat + 1 = config.successThreshold.toNat
    · refine .of_left (by rw [servedStep_config, inv.config_eq]) ?_
      rw [p.close hlast now]
      decide
    · exact .of_probing (p.succeed (by omega) now) hcalls (by omega) (by omega)
  | onFailure now =>
    refine .of_left (by rw [servedStep_config, inv.config_eq]) ?_
    rw [servedStep, breakerStep_failure_halfOpen s.breaker hs]
    simp [CircuitBreaker.transitionToOpen]
  | reset now =>
    refine .of_left (by rw [servedStep_config, inv.config_eq]) ?_
    rw [servedStep, breakerStep_reset]
    simp [CircuitBreaker.transitionToClosed]

/-- The invariant holds in every run. -/
theorem recoveryInv_of_run (hpos : 0 < config.successThreshold.toNat) {t₀ : UInt64}
    {past : List (Record ServedBreaker BreakerCall (Option Bool))}
    (run : ServedRun config t₀ past s) : RecoveryInv config s := by
  refine run.invariant (P := fun _ s => RecoveryInv config s) (.of_left rfl ?_) ?_
  · simp [CircuitBreaker.create]
  intro past s c inv
  by_cases hs : s.breaker.state = stateHalfOpen
  · exact inv.within hs c
  · exact inv.enter hpos hs c

/-- Where a period admits as many requests as the threshold asks for, every reachable state recovers. -/
theorem recovers_of_run (hpos : 0 < config.successThreshold.toNat)
    (hthreshold : config.successThreshold.toNat ≤ config.halfOpenMaxCalls.toNat + 1) {t₀ : UInt64}
    {past : List (Record ServedBreaker BreakerCall (Option Bool))}
    (run : ServedRun config t₀ past s) (clock : ℕ) : Recovers ⟨clock, s⟩ := by
  have inv := recoveryInv_of_run hpos run
  cases hst : s.breaker.state with
  | stateClosed => exact recovers_of_closed (m := ⟨clock, s⟩) .refl hst
  | stateHalfOpen =>
    obtain ⟨hcalls, hlt, hall⟩ := inv.halfOpen hst
    exact recovers_of_probing (m := ⟨clock, s⟩) (inv.probing hst) hthreshold hlt hcalls hall
  | stateOpen =>
    -- Wait for the timeout; the next request is the first of a new period.
    obtain ⟨d, hd⟩ := exists_wait clock s.breaker.stateChangedAtMs s.breaker.config.timeoutMs.toUInt64
    refine Recovers.of_step (.wait ⟨clock, s⟩ d) (Recovers.of_step (.request _ 0) ?_)
    exact recovers_of_probing (probing_of_open inv.config_eq hst hd _) hthreshold hpos (by omega)
      (by omega)

/-! ### The stall -/

/-- A period at its cap without unanswered requests stays as it is, whatever happens. -/
theorem Probing.stalled (p : Probing config config.halfOpenMaxCalls.toNat successes 0 m.served)
    (h : Continuation m m') : Probing config config.halfOpenMaxCalls.toNat successes 0 m'.served := by
  induction h with
  | refl => exact p
  | tail _ hstep ih =>
    cases hstep with
    | wait d => exact ih
    | request d => exact (ih.refuse le_rfl _ _).2
    | succeed hpos => exact absurd ih.unanswered_eq (by omega)
    | fail hpos => exact absurd ih.unanswered_eq (by omega)

/-- Such a breaker refuses every request for ever and never closes. -/
theorem Probing.not_recovers (p : Probing config config.halfOpenMaxCalls.toNat successes 0 m.served) :
    RejectsForEver m ∧ ¬ Recovers m := by
  have hrejects : RejectsForEver m := by
    intro m' h hadmits
    have hrefused := ((p.stalled h).refuse le_rfl m'.reading m'.reading).1
    rw [Moment.Admits, hrefused] at hadmits
    cases hadmits
  exact ⟨hrejects, fun h => h.2 hrejects⟩

/-- The breaker can reach this state. -/
def ServedReachable (config : CbConfig) (s : ServedBreaker) : Prop :=
  ∃ t₀ past, ServedRun config t₀ past s

/-- A call takes a reachable state to a reachable one. -/
theorem ServedReachable.next (h : ServedReachable config s) (c : BreakerCall) :
    ServedReachable config (servedStep s c).1 := by
  obtain ⟨t₀, past, run⟩ := h
  exact ⟨t₀, _, run.next c⟩

/-- Requests that are admitted and fail bring the failure counter to any value below its threshold. -/
theorem reachable_closed (k : ℕ) (hk : k < config.failureThreshold.toNat) :
    ∃ s, ServedReachable config s ∧ s.breaker.config = config ∧ s.breaker.state = stateClosed ∧
      s.breaker.consecutiveFailures.toNat = k ∧ s.unanswered = 0 := by
  induction k with
  | zero => exact ⟨_, ⟨0, [], .start⟩, rfl, rfl, rfl, rfl⟩
  | succ k ih =>
    obtain ⟨s, hreach, hconfig, hclosed, hfailures, hanswered⟩ := ih (by omega)
    have hallow := breakerStep_allow_closed s.breaker hclosed 0 0
    have hlt : s.breaker.consecutiveFailures.toNat < config.failureThreshold.toNat := by omega
    have hsucc := toNat_succ_of_lt hlt
    have hfail := breakerStep_failure_closed s.breaker hclosed 0
    rw [if_neg (by rw [ge_iff_le, UInt32.le_iff_toNat_le, hsucc, hconfig]; omega)] at hfail
    have hnext := (hreach.next (.allowRequest 0 0)).next (.onFailure 0)
    simp only [servedStep, hallow, hfail, unansweredAfter] at hnext
    exact ⟨_, hnext, hconfig, hclosed, by rw [hsucc, hfailures], by simp [hanswered]⟩

/-- One failure more opens the breaker. -/
theorem reachable_open (hpos : 0 < config.failureThreshold.toNat) :
    ∃ s, ServedReachable config s ∧ s.breaker.config = config ∧ s.breaker.state = stateOpen ∧ s.unanswered = 0 := by
  obtain ⟨s, hreach, hconfig, hclosed, hfailures, hanswered⟩ :=
    @reachable_closed config (config.failureThreshold.toNat - 1) (by omega)
  have hallow := breakerStep_allow_closed s.breaker hclosed 0 0
  have hlt : s.breaker.consecutiveFailures.toNat < config.failureThreshold.toNat := by omega
  have hfail := breakerStep_failure_closed s.breaker hclosed 0
  rw [if_pos (by rw [ge_iff_le, UInt32.le_iff_toNat_le, toNat_succ_of_lt hlt, hconfig]; omega)]
    at hfail
  have hnext := (hreach.next (.allowRequest 0 0)).next (.onFailure 0)
  simp only [servedStep, hallow, hfail, unansweredAfter] at hnext
  exact ⟨_, hnext, hconfig, rfl, by simp [hanswered]⟩

/-- After the timeout, a period can be filled up to any number of calls below its cap. -/
theorem reachable_probing (hpos : 0 < config.failureThreshold.toNat) (calls : ℕ)
    (hcalls : calls ≤ config.halfOpenMaxCalls.toNat) :
    ∃ s, ServedReachable config s ∧ Probing config calls 0 (calls + 1) s := by
  induction calls with
  | zero =>
    obtain ⟨s, hreach, hconfig, hopen, hanswered⟩ := reachable_open hpos
    obtain ⟨d, hd⟩ := exists_wait 0 s.breaker.stateChangedAtMs s.breaker.config.timeoutMs.toUInt64
    have hprobing := probing_of_open hconfig hopen hd 0
    rw [hanswered] at hprobing
    exact ⟨_, hreach.next _, hprobing⟩
  | succ calls ih =>
    obtain ⟨s, hreach, hprobing⟩ := ih (by omega)
    exact ⟨_, hreach.next _, hprobing.request (by omega) 0 0⟩

/-- A full period can be answered by successes as long as they stay below the threshold. -/
theorem reachable_answered (hpos : 0 < config.failureThreshold.toNat) (successes : ℕ)
    (hsuccesses : successes < config.successThreshold.toNat) :
    ∃ s, ServedReachable config s ∧ Probing config config.halfOpenMaxCalls.toNat successes
      (config.halfOpenMaxCalls.toNat + 1 - successes) s := by
  induction successes with
  | zero => exact reachable_probing hpos _ le_rfl
  | succ successes ih =>
    obtain ⟨s, hreach, hprobing⟩ := ih (by omega)
    have hnext := hprobing.succeed hsuccesses 0
    rw [Nat.sub_sub] at hnext
    exact ⟨_, hreach.next _, hnext⟩

end Recovery

/-- From every reachable state, whatever the clock shows, the breaker recovers. -/
def AlwaysRecovers (config : CbConfig) : Prop :=
  ∀ t₀ past s, ServedRun config t₀ past s → ∀ clock, Recovers ⟨clock, s⟩

/-- **Recovery.** A breaker recovers from every reachable state exactly when `success_threshold` is at
most `half_open_max_calls + 1`, the number of requests that a HALF_OPEN period admits. -/
theorem alwaysRecovers_iff (config : CbConfig) (hfailure : 1 ≤ config.failureThreshold)
    (hsuccess : 1 ≤ config.successThreshold) :
    AlwaysRecovers config ↔
      config.successThreshold.toNat ≤ config.halfOpenMaxCalls.toNat + 1 := by
  have hfailure : 0 < config.failureThreshold.toNat := UInt32.le_iff_toNat_le.mp hfailure
  have hsuccess : 0 < config.successThreshold.toNat := UInt32.le_iff_toNat_le.mp hsuccess
  constructor
  · intro halways
    by_contra hlt
    -- All requests of a full period succeed, and the threshold is still not reached.
    obtain ⟨s, ⟨t₀, past, run⟩, hprobing⟩ :=
      reachable_answered hfailure (config.halfOpenMaxCalls.toNat + 1) (by omega)
    rw [Nat.sub_self] at hprobing
    exact (Probing.not_recovers (m := ⟨0, s⟩) hprobing).2 (halways t₀ past s run 0)
  · intro hthreshold t₀ past s run clock
    exact recovers_of_run hsuccess hthreshold run clock

/-- A breaker that closes after two successes and admits two requests always recovers. -/
theorem alwaysRecovers_two : AlwaysRecovers ⟨1, 2, 100, 1⟩ :=
  (alwaysRecovers_iff ⟨1, 2, 100, 1⟩ (by decide) (by decide)).mpr (by decide)

/-- A breaker that needs three successes and admits two requests: one request fails and opens it, both
requests of the period after the timeout succeed. -/
def succeededTwice : ServedBreaker :=
  (exec servedStep ⟨CircuitBreaker.create ⟨1, 3, 100, 1⟩ 0, 0⟩
    [allowRequest 5 5, onFailure 10, allowRequest 110 110, allowRequest 111 111, onSuccess 112, onSuccess 113]).2

/-- From there on it refuses every request, and it never closes. -/
theorem succeededTwice_stalls :
    ServedReachable ⟨1, 3, 100, 1⟩ succeededTwice ∧ RejectsForEver ⟨113, succeededTwice⟩ ∧
      ¬ Recovers ⟨113, succeededTwice⟩ := by
  have hprobing : Probing ⟨1, 3, 100, 1⟩ (1 : UInt32).toNat 2 0 succeededTwice :=
    ⟨by decide, by decide, by decide, by decide, by decide⟩
  exact ⟨⟨0, _, run_exec _ _ _⟩, Probing.not_recovers (m := ⟨113, succeededTwice⟩) hprobing⟩

end CGateway
