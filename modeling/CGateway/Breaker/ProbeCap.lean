import CGateway.Breaker.CircuitBreaker

/-! # How many probes a half-open breaker admits

`half_open_max_calls` is the cap on the calls admitted in HALF_OPEN. The call that turns the breaker
from OPEN to HALF_OPEN is admitted by another branch than the ones after it, and
`transition_to_half_open` clears `half_open_calls` without counting it, so a period admits one call
more than the cap as soon as enough callers ask.

* `halfOpenPeriod` — the steps of the HALF_OPEN period a history is in, its entry included;
* `admitted_halfOpenPeriod` — a period in which `n` calls ask admits `min n (cap + 1)` of them. -/

namespace CGateway

open Machine BreakerCall CbState

/-- The steps since HALF_OPEN was entered, the entering step included; none outside HALF_OPEN. -/
def halfOpenPeriod : List BreakerRecord → List BreakerRecord
  | [] => []
  | r :: past =>
      if r.after.state = stateHalfOpen then
        if r.before.state = stateHalfOpen then r :: halfOpenPeriod past else [r]
      else []

/-- How many of the steps are admission requests. -/
def asked (period : List BreakerRecord) : ℕ := period.countP (·.input.isAllow)

/-- How many of the steps are admission requests that were granted. -/
def admitted (period : List BreakerRecord) : ℕ := period.countP (·.output == some true)

/-- The invariant of the half-open counter: it counts the admissions of the period but the first. -/
structure ProbeInv (config : CbConfig) (past : List BreakerRecord) (s : CircuitBreaker) :
    Prop where
  config_eq : s.config = config
  outside : s.state ≠ stateHalfOpen → halfOpenPeriod past = []
  asked_pos : s.state = stateHalfOpen → 1 ≤ asked (halfOpenPeriod past)
  admitted_eq : s.state = stateHalfOpen → admitted (halfOpenPeriod past) = s.halfOpenCalls.toNat + 1
  calls_eq : s.state = stateHalfOpen →
    s.halfOpenCalls.toNat = min (asked (halfOpenPeriod past) - 1) config.halfOpenMaxCalls.toNat

section Period

variable {config : CbConfig} {past : List BreakerRecord} {s : CircuitBreaker}

variable {r : BreakerRecord} {c : BreakerCall}

/-- A step that ends outside HALF_OPEN ends the period. -/
theorem halfOpenPeriod_of_left (h : r.after.state ≠ stateHalfOpen) : halfOpenPeriod (r :: past) = [] := by
  rw [halfOpenPeriod, if_neg h]

/-- A step within HALF_OPEN belongs to the period. -/
theorem halfOpenPeriod_of_within (hb : r.before.state = stateHalfOpen) (ha : r.after.state = stateHalfOpen) :
    halfOpenPeriod (r :: past) = r :: halfOpenPeriod past := by
  rw [halfOpenPeriod, if_pos ha, if_pos hb]

/-- A step into HALF_OPEN begins a period. -/
theorem halfOpenPeriod_of_entry (hb : r.before.state ≠ stateHalfOpen) (ha : r.after.state = stateHalfOpen) :
    halfOpenPeriod (r :: past) = [r] := by
  rw [halfOpenPeriod, if_pos ha, if_neg hb]

/-- A granted request counts in both numbers, ... -/
theorem counts_of_granted (h : (breakerStep s c).2 = some true) (period : List BreakerRecord) :
    asked (recordOf breakerStep s c :: period) = asked period + 1 ∧
      admitted (recordOf breakerStep s c :: period) = admitted period + 1 := by
  simp [asked, admitted, h, ← breakerStep_isSome s c]

/-- ... a refused one in the number of requests only, ... -/
theorem counts_of_refused (h : (breakerStep s c).2 = some false) (period : List BreakerRecord) :
    asked (recordOf breakerStep s c :: period) = asked period + 1 ∧
      admitted (recordOf breakerStep s c :: period) = admitted period := by
  simp [asked, admitted, h, ← breakerStep_isSome s c]

/-- ... and any other call in neither. -/
theorem counts_of_other (h : (breakerStep s c).2 = none) (period : List BreakerRecord) :
    asked (recordOf breakerStep s c :: period) = asked period ∧
      admitted (recordOf breakerStep s c :: period) = admitted period := by
  simp [asked, admitted, h, ← breakerStep_isSome s c]

/-- A step that ends outside HALF_OPEN keeps the invariant. -/
theorem ProbeInv.of_left (inv : ProbeInv config past s) (c : BreakerCall)
    (h : (breakerStep s c).1.state ≠ stateHalfOpen) :
    ProbeInv config (recordOf breakerStep s c :: past) (breakerStep s c).1 :=
  ⟨by rw [breakerStep_config, inv.config_eq], fun _ => halfOpenPeriod_of_left h,
    fun h' => absurd h' h, fun h' => absurd h' h, fun h' => absurd h' h⟩

/-- HALF_OPEN is entered only by an admission request, which is granted and not counted. -/
theorem breakerStep_enters_halfOpen (hs : s.state ≠ stateHalfOpen)
    (h : (breakerStep s c).1.state = stateHalfOpen) :
    (breakerStep s c).2 = some true ∧ (breakerStep s c).1.halfOpenCalls = 0 := by
  cases hst : s.state with
  | stateHalfOpen => exact absurd hst hs
  | stateClosed =>
    cases c with
    | allowRequest now later => simp [breakerStep_allow_closed s hst, hst] at h
    | onSuccess now => simp [breakerStep_success_other s hs, hst] at h
    | onFailure now =>
      rw [breakerStep_failure_closed s hst] at h
      split at h <;> simp [CircuitBreaker.transitionToOpen, hst] at h
    | reset now => simp [breakerStep_reset, CircuitBreaker.transitionToClosed] at h
  | stateOpen =>
    cases c with
    | allowRequest now later =>
      rw [breakerStep_allow_open s hst] at h ⊢
      split at h
      · simp [CircuitBreaker.transitionToHalfOpen, *]
      · simp [hst] at h
    | onSuccess now => simp [breakerStep_success_other s hs, hst] at h
    | onFailure now => simp [breakerStep_failure_open s hst, hst] at h
    | reset now => simp [breakerStep_reset, CircuitBreaker.transitionToClosed] at h

/-- A step that enters HALF_OPEN establishes the counter's meaning. -/
theorem ProbeInv.of_entry (inv : ProbeInv config past s) (c : BreakerCall)
    (hs : s.state ≠ stateHalfOpen) (h : (breakerStep s c).1.state = stateHalfOpen) :
    ProbeInv config (recordOf breakerStep s c :: past) (breakerStep s c).1 := by
  obtain ⟨hout, hcalls⟩ := breakerStep_enters_halfOpen hs h
  have hperiod : halfOpenPeriod (recordOf breakerStep s c :: past) = [recordOf breakerStep s c] :=
    halfOpenPeriod_of_entry hs h
  obtain ⟨hask, hadm⟩ := counts_of_granted hout []
  refine ⟨by rw [breakerStep_config, inv.config_eq], fun h' => absurd h h', fun _ => ?_, fun _ => ?_, fun _ => ?_⟩
  · rw [hperiod, hask]
    omega
  · rw [hperiod, hadm, hcalls]
    rfl
  · rw [hperiod, hask, hcalls]
    simp [asked]

/-- A step within HALF_OPEN is a granted request, a refused one once the counter is at the cap, or no
request at all. -/
theorem breakerStep_within_halfOpen (hs : s.state = stateHalfOpen)
    (h : (breakerStep s c).1.state = stateHalfOpen) :
    ((breakerStep s c).2 = some true ∧ s.halfOpenCalls.toNat < s.config.halfOpenMaxCalls.toNat ∧
        (breakerStep s c).1.halfOpenCalls.toNat = s.halfOpenCalls.toNat + 1) ∨
      ((breakerStep s c).2 = some false ∧ s.config.halfOpenMaxCalls.toNat ≤ s.halfOpenCalls.toNat ∧
        (breakerStep s c).1.halfOpenCalls = s.halfOpenCalls) ∨
      ((breakerStep s c).2 = none ∧ (breakerStep s c).1.halfOpenCalls = s.halfOpenCalls) := by
  cases c with
  | allowRequest now later =>
    rw [breakerStep_allow_halfOpen s hs]
    split
    · rename_i hlt
      rw [UInt32.lt_iff_toNat_lt] at hlt
      exact .inl ⟨rfl, hlt, toNat_succ_of_lt hlt⟩
    · rename_i hge
      rw [UInt32.lt_iff_toNat_lt, not_lt] at hge
      exact .inr (.inl ⟨rfl, hge, rfl⟩)
  | onSuccess now =>
    rw [breakerStep_success_halfOpen s hs] at h ⊢
    split at h
    · simp [CircuitBreaker.transitionToClosed] at h
    · rename_i hlt
      rw [if_neg hlt]
      exact .inr (.inr ⟨rfl, rfl⟩)
  | onFailure now =>
    simp [breakerStep_failure_halfOpen s hs, CircuitBreaker.transitionToOpen] at h
  | reset now => simp [breakerStep_reset, CircuitBreaker.transitionToClosed] at h

/-- A step within HALF_OPEN keeps the counter's meaning. -/
theorem ProbeInv.of_within (inv : ProbeInv config past s) (c : BreakerCall)
    (hs : s.state = stateHalfOpen) (h : (breakerStep s c).1.state = stateHalfOpen) :
    ProbeInv config (recordOf breakerStep s c :: past) (breakerStep s c).1 := by
  have hperiod : halfOpenPeriod (recordOf breakerStep s c :: past) =
      recordOf breakerStep s c :: halfOpenPeriod past := halfOpenPeriod_of_within hs h
  have hpos := inv.asked_pos hs
  have hadm := inv.admitted_eq hs
  have hcalls := inv.calls_eq hs
  have hcfg : (breakerStep s c).1.config = config := by rw [breakerStep_config, inv.config_eq]
  -- In each case both counts and the counter move by what the answer says.
  obtain ⟨hout, hlt, hnext⟩ | ⟨hout, hge, hnext⟩ | ⟨hout, hnext⟩ := breakerStep_within_halfOpen hs h
  · rw [inv.config_eq] at hlt
    obtain ⟨hask, hadm'⟩ := counts_of_granted hout (halfOpenPeriod past)
    refine ⟨hcfg, fun h' => absurd h h', fun _ => ?_, fun _ => ?_, fun _ => ?_⟩ <;>
      simp only [hperiod, hask, hadm', hnext] <;> omega
  · rw [inv.config_eq] at hge
    obtain ⟨hask, hadm'⟩ := counts_of_refused hout (halfOpenPeriod past)
    refine ⟨hcfg, fun h' => absurd h h', fun _ => ?_, fun _ => ?_, fun _ => ?_⟩ <;>
      simp only [hperiod, hask, hadm', hnext] <;> omega
  · obtain ⟨hask, hadm'⟩ := counts_of_other hout (halfOpenPeriod past)
    refine ⟨hcfg, fun h' => absurd h h', fun _ => ?_, fun _ => ?_, fun _ => ?_⟩ <;>
      simp only [hperiod, hask, hadm', hnext] <;> omega

/-- The invariant holds in every run. -/
theorem probeInv_of_run {t₀ : UInt64} (h : BreakerRun config t₀ past s) : ProbeInv config past s := by
  refine Run.invariant (P := ProbeInv config) ?_ ?_ h
  · refine ⟨rfl, fun _ => rfl, fun h => ?_, fun h => ?_, fun h => ?_⟩ <;>
      simp [CircuitBreaker.create] at h
  · intro past s c inv
    by_cases h : (breakerStep s c).1.state = stateHalfOpen
    · by_cases hs : s.state = stateHalfOpen
      · exact inv.of_within c hs h
      · exact inv.of_entry c hs h
    · exact inv.of_left c h

/-- **What a period admits.** Of the calls that ask, the first `cap + 1`. -/
theorem admitted_halfOpenPeriod {t₀ : UInt64} (h : BreakerRun config t₀ past s) :
    admitted (halfOpenPeriod past) = min (asked (halfOpenPeriod past)) (config.halfOpenMaxCalls.toNat + 1) := by
  have inv := probeInv_of_run h
  by_cases hs : s.state = stateHalfOpen
  · have hpos := inv.asked_pos hs
    rw [inv.admitted_eq hs, inv.calls_eq hs]
    omega
  · simp [inv.outside hs, admitted, asked]

end Period

/-- **When the cap is kept.** In every run, at every moment, the HALF_OPEN period has admitted at most
`half_open_max_calls` calls exactly when at most that many have asked for admission in it, the call
that entered it included. -/
theorem halfOpen_cap_kept_iff (config : CbConfig) (t₀ : UInt64) (past : List BreakerRecord)
    (s : CircuitBreaker) (hrun : BreakerRun config t₀ past s) :
    admitted (halfOpenPeriod past) ≤ config.halfOpenMaxCalls.toNat ↔
      asked (halfOpenPeriod past) ≤ config.halfOpenMaxCalls.toNat := by
  rw [admitted_halfOpenPeriod hrun]
  omega

/-- A breaker with a cap of one, opened by a failure and asked twice after the timeout. -/
def probedTwice : List BreakerRecord × CircuitBreaker :=
  exec breakerStep (CircuitBreaker.create ⟨1, 1, 100, 1⟩ 0)
    [onFailure 10, allowRequest 110 110, allowRequest 111 111]

/-- One probe keeps the cap of `probedTwice`. -/
theorem halfOpen_cap_kept_one_probe :
    admitted (halfOpenPeriod probedTwice.1.tail) ≤ 1 ∧
      (admitted (halfOpenPeriod probedTwice.1.tail) ≤ (1 : UInt32).toNat ↔
        asked (halfOpenPeriod probedTwice.1.tail) ≤ (1 : UInt32).toNat) :=
  ⟨by decide, halfOpen_cap_kept_iff ⟨1, 1, 100, 1⟩ 0 _ _
    (run_exec breakerStep _ [onFailure 10, allowRequest 110 110])⟩

/-- The cap is broken: two calls are admitted in one period although the cap is one. -/
theorem halfOpen_cap_broken :
    BreakerRun ⟨1, 1, 100, 1⟩ 0 probedTwice.1 probedTwice.2 ∧
      probedTwice.2.state = stateHalfOpen ∧ admitted (halfOpenPeriod probedTwice.1) = 2 :=
  ⟨run_exec _ _ _, by decide, by decide⟩

end CGateway
